/-
# BraceTemplate.Proofs.Render.Slots — what the slots of a run hold

While a frame is at a position, every `if` and every loop of its range around that position has its
own slot, which holds the state of exactly this construct (`Slot.Fits`): the branch that was taken,
or the loop with the item it is at. All other slots are empty.

`slots_of_reached` says so of every frame that comes up in a render, and what follows: every
operation finds the slot it needs, none is a fault, and a range that is done has left no slot in
use.
-/
import BraceTemplate.Proofs.Render.Around
import BraceTemplate.Proofs.Render.Meaning

namespace BraceTemplate

set_option autoImplicit false

/-! ## The slots of operations -/

mutual

theorem Node.slot_lt : ∀ (node : Node) (start depth : Nat), ∀ instr ∈ node.layout start depth,
    ∀ slot ∈ instr.op.slot?, slot < depth + node.depth
  | .text _ _, _, _, instr, mem, slot, uses | .output _ _, _, _, instr, mem, slot, uses
  | .call _ _ _, _, _, instr, mem, slot, uses => by
      obtain rfl := List.mem_singleton.1 mem
      cases uses
  | .ifThen _ _ yes _, start, depth, instr, mem, slot, uses => by
      simp only [Node.layout, List.mem_cons, List.mem_append, List.not_mem_nil, or_false] at mem
      simp only [Node.depth]
      rcases mem with rfl | mem | rfl
      · obtain rfl := Option.some.inj uses
        omega
      · have := slot_lt_all yes (start + 1) (depth + 1) instr mem slot uses
        omega
      · obtain rfl := Option.some.inj uses
        omega
  | .ifElse _ _ yes _ no _, start, depth, instr, mem, slot, uses => by
      simp only [Node.layout, List.mem_cons, List.mem_append, List.not_mem_nil, or_false] at mem
      simp only [Node.depth]
      rcases mem with rfl | mem | rfl | mem | rfl
      · obtain rfl := Option.some.inj uses
        omega
      · have := slot_lt_all yes (start + 1) (depth + 1) instr mem slot uses
        omega
      · obtain rfl := Option.some.inj uses
        omega
      · have := slot_lt_all no (start + 1 + sizes yes + 1) (depth + 1) instr mem slot uses
        omega
      · obtain rfl := Option.some.inj uses
        omega
  | .loop _ _ _ body _, start, depth, instr, mem, slot, uses => by
      simp only [Node.layout, List.mem_cons, List.mem_append, List.not_mem_nil, or_false] at mem
      simp only [Node.depth]
      rcases mem with rfl | mem | rfl
      · obtain rfl := Option.some.inj uses
        omega
      · have := slot_lt_all body (start + 1) (depth + 1) instr mem slot uses
        omega
      · obtain rfl := Option.some.inj uses
        omega
  | .block _ _ body _, start, depth, instr, mem, slot, uses => by
      simp only [Node.layout, List.mem_cons, List.mem_append, List.not_mem_nil, or_false] at mem
      simp only [Node.depth]
      rcases mem with rfl | mem | rfl
      · cases uses
      · have := slot_lt_all body (start + 1) (depth + 1) instr mem slot uses
        omega
      · cases uses

theorem slot_lt_all : ∀ (nodes : List Node) (start depth : Nat),
    ∀ instr ∈ layoutAll start depth nodes, ∀ slot ∈ instr.op.slot?, slot < depth + depths nodes
  | [], _, _, _, mem, _, _ => nomatch mem
  | node :: rest, start, depth, instr, mem, slot, uses => by
      simp only [depths]
      rcases List.mem_append.1 mem with mem | mem
      · have := node.slot_lt start depth instr mem slot uses
        omega
      · have := slot_lt_all rest (start + node.size) depth instr mem slot uses
        omega

end

/-- There is a slot for every operation of a template that needs one. -/
theorem Template.slot_lt (t : Template) {i : Nat} {instr : Instr}
    (found : t.program.instrs[i]? = some instr) :
    ∀ slot ∈ instr.op.slot?, slot < t.program.slotCount := by
  rw [t.program_eq] at found ⊢
  have mem := Array.mem_of_getElem? found
  intro slot uses
  have := slot_lt_all t.nodes 0 0 instr (List.mem_toArray.1 mem) slot uses
  rwa [Nat.zero_add] at this

namespace Machine

/-! ## Slots and constructs -/

/-- A slot holds the state of a construct that is around the position. -/
def Slot.Fits (slot : Slot) (a : Around) : Prop :=
  match a.place with
  | .first => slot = .branch true
  | .second => slot = .branch false
  | .ifEnd => ∃ taken, slot = .branch taken
  | .body item =>
      ∃ l, slot = .loop l ∧ l.item = item ∧ l.bodyAt = a.begins + 1 ∧ l.index < l.items.length

/-- The state of a loop is that of a construct whose body the position is in. -/
theorem Slot.Fits.loop {l : Loop} {a : Around} (fits : (Slot.loop l).Fits a) :
    a.place = .body l.item ∧ l.bodyAt = a.begins + 1 ∧ l.index < l.items.length := by
  obtain ⟨begins, _, place⟩ := a
  cases place with
  | body =>
      obtain ⟨_, same, rfl, begun, bound⟩ := fits
      obtain rfl := Slot.loop.inj same
      exact ⟨rfl, begun, bound⟩
  | first | second => cases fits
  | ifEnd =>
      obtain ⟨_, same⟩ := fits
      cases same

/-- The slots from a depth on hold the states of constructs, outermost first, and nothing else. -/
inductive SlotsFit : Nat → List Around → List Slot → Prop where
  | free (depth n : Nat) : SlotsFit depth [] (List.replicate n .empty)
  | own {depth : Nat} {a : Around} {slot : Slot} {around : List Around} {slots : List Slot}
      (at_depth : a.slot = depth) (fits : slot.Fits a) :
      SlotsFit (depth + 1) around slots → SlotsFit depth (a :: around) (slot :: slots)
  | unused {depth : Nat} {around : List Around} {slots : List Slot} :
      SlotsFit (depth + 1) around slots → SlotsFit depth around (.empty :: slots)

namespace SlotsFit

variable {depth : Nat} {around : List Around} {slots : List Slot}

theorem own_slot (fit : SlotsFit depth around slots) :
    ∀ a ∈ around, ∃ (i : Nat) (slot : Slot),
      a.slot = depth + i ∧ slots[i]? = some slot ∧ slot.Fits a := by
  induction fit with
  | free => exact fun a mem => nomatch mem
  | own at_depth fits _ ih =>
      intro b mem
      rcases List.mem_cons.1 mem with rfl | mem
      · exact ⟨0, _, at_depth, rfl, fits⟩
      · obtain ⟨i, slot, number, found, fits⟩ := ih b mem
        exact ⟨i + 1, slot, by omega, found, fits⟩
  | unused _ ih =>
      intro a mem
      obtain ⟨i, slot, number, found, fits⟩ := ih a mem
      exact ⟨i + 1, slot, by omega, found, fits⟩

theorem others (fit : SlotsFit depth around slots) :
    ∀ (i : Nat) (slot : Slot), slots[i]? = some slot → (∀ a ∈ around, a.slot ≠ depth + i) →
      slot = .empty := by
  induction fit with
  | free depth n =>
      intro i slot found _
      exact (List.mem_replicate.1 (List.mem_of_getElem? found)).2
  | own at_depth _ _ ih =>
      intro i slot found other
      cases i with
      | zero => exact absurd at_depth (other _ List.mem_cons_self)
      | succ i =>
          refine ih i slot found fun a mem => ?_
          have := other a (List.mem_cons_of_mem _ mem)
          omega
  | unused _ ih =>
      intro i slot found other
      cases i with
      | zero => exact (Option.some.inj found).symm
      | succ i =>
          refine ih i slot found fun a mem => ?_
          have := other a mem
          omega

/-- A slot that holds a loop is that of a construct whose body the position is in. -/
theorem loop (fit : SlotsFit depth around slots) {i : Nat} {l : Loop}
    (found : slots[i]? = some (.loop l)) :
    ∃ a ∈ around, a.slot = depth + i ∧ a.place = .body l.item ∧ l.bodyAt = a.begins + 1 ∧
      l.index < l.items.length := by
  by_cases own : ∃ a ∈ around, a.slot = depth + i
  · obtain ⟨a, mem, at_i⟩ := own
    obtain ⟨j, state, number, there, fits⟩ := fit.own_slot a mem
    obtain rfl : j = i := by omega
    obtain rfl := Option.some.inj (there.symm.trans found)
    exact ⟨a, mem, at_i, fits.loop⟩
  · have none := fit.others i _ found fun a mem at_i => own ⟨a, mem, at_i⟩
    cases none

/-- The constructs use slots one after the other, so none uses that of another. -/
theorem ordered (fit : SlotsFit depth around slots) :
    around.Pairwise fun outer inner => outer.slot < inner.slot := by
  induction fit with
  | free => exact .nil
  | own at_depth _ rest ih =>
      refine .cons (fun a mem => ?_) ih
      obtain ⟨i, -, number, -⟩ := rest.own_slot a mem
      omega
  | unused _ ih => exact ih

theorem empty (fit : SlotsFit depth [] slots) : ∀ slot ∈ slots, slot = .empty := by
  intro slot mem
  obtain ⟨i, found⟩ := List.getElem?_of_mem mem
  exact fit.others i slot found fun a none => nomatch none

/-- The slots of the constructs around an override are not in use. -/
theorem outer (fit : SlotsFit depth around slots) :
    SlotsFit 0 around (List.replicate depth .empty ++ slots) := by
  induction depth generalizing slots with
  | zero => exact fit
  | succ depth ih =>
      have := ih (.unused fit)
      rwa [List.replicate_succ', List.append_assoc, List.singleton_append]

end SlotsFit

theorem Midway.fits {env : Env} {template : String} {active : List String}
    {base locals : Dict Value} {start ip : Nat} {nodes : List Node} {slots : List Slot}
    {todo : Completion} (depth : Nat)
    (mid : Midway env template active base start nodes ip slots locals todo) :
    SlotsFit depth (aroundIn start ip (layoutAll start depth nodes)) slots := by
  induction mid generalizing depth with
  | front base start nodes free =>
      rw [aroundIn_before _ (Nat.le_refl _)]
      exact .free depth free
  | behind mid ih =>
      rw [aroundIn_rest _ mid.bounds.1]
      exact ih depth
  | @inThen _ _ start ip _ _ _ yes _ _ _ mid ih =>
      obtain ⟨after, inside⟩ := mid.bounds
      rw [aroundIn_ifThen _ after inside]
      split
      · exact .own rfl ⟨true, rfl⟩ (ih _)
      · exact .own rfl rfl (ih _)
  | notTaken base start _ _ _ yes _ free =>
      rw [aroundIn_ifThen _ (by omega) (Nat.le_refl _), if_pos rfl,
        aroundIn_behindAll _ _ (Nat.le_refl _)]
      exact .own rfl ⟨false, rfl⟩ (.free _ free)
  | @inYes _ _ start ip _ _ _ _ yes no _ _ _ mid ih =>
      obtain ⟨after, inside⟩ := mid.bounds
      rw [aroundIn_ifElse _ after (by omega), if_neg (by omega), if_pos inside,
        aroundIn_before (layoutAll (start + 1 + sizes yes + 1) _ _) (by omega), List.append_nil]
      exact .own rfl rfl (ih _)
  | @inNo _ _ start ip _ _ _ _ yes no _ _ _ mid ih =>
      obtain ⟨after, inside⟩ := mid.bounds
      rw [aroundIn_ifElse _ (by omega) inside, if_neg (show ¬ ip ≤ start + 1 + sizes yes by omega),
        aroundIn_behindAll yes _ (by omega), List.nil_append]
      split
      · exact .own rfl ⟨false, rfl⟩ (ih _)
      · exact .own rfl rfl (ih _)
  | jumped base start _ _ _ _ yes no _ free =>
      rw [aroundIn_ifElse _ (by omega) (Nat.le_refl _), if_pos rfl,
        aroundIn_behindAll yes _ (by omega), aroundIn_behindAll no _ (Nat.le_refl _)]
      exact .own rfl ⟨true, rfl⟩ (.free _ free)
  | inLoop runs mid ih =>
      obtain ⟨after, inside⟩ := mid.bounds
      rw [aroundIn_loop _ after inside]
      have bound := (List.getElem?_eq_some_iff.1 runs.current).1
      exact .own rfl ⟨_, rfl, runs.item, runs.bodyAt, bound⟩ (ih _)
  | inBlock mid ih =>
      rw [aroundIn_block _ mid.bounds.2]
      exact .unused (ih _)

/-! ## Frames -/

/-- A frame runs the whole template that is rendered, or an override that is registered for the
block it replaces. -/
inductive Frame.RunsRange (t : Template) (env : Env) (f : Frame) : Range → Prop where
  | rendered (template : f.template = t) (replaces : f.replaces = none) :
      f.RunsRange t env ⟨0, t.opCount⟩
  | override {name : String} {o : Override} (registered : env.overrides.find? name = some o)
      (template : f.template = o.template) (replaces : f.replaces = some name) :
      f.RunsRange t env o.range

/-- A frame is in the range that it runs, and its slots fit the constructs around its position. -/
structure Frame.InRange (f : Frame) (range : Range) : Prop where
  stop : f.stop = range.stop
  after : range.start ≤ f.ip
  before : f.ip ≤ range.stop
  within : range.stop ≤ f.template.opCount
  room : f.slots.length = f.template.program.slotCount
  fits : SlotsFit 0 (f.template.program.around range f.ip) f.slots
  proceeds : f.ip < range.stop → ∃ instr, f.template.program.instrs[f.ip]? = some instr ∧
    ∃ env active locals, ∀ fault, exec env active f.ip f.slots locals "" instr.op ≠ .fault fault
  done : f.ip = range.stop → f.template.program.around range f.ip = []

/-- What an operation relies on, given the constructs around it: `else` on the first branch having
been taken, and the end of a loop on the state of exactly this loop. -/
def Finds (around : List Around) (slots : List Slot) : Op → Prop
  | .orElse slot _ => slots[slot]? = some (.branch true)
  | .endFor slot bodyAt =>
      ∃ begins l, bodyAt = begins + 1 ∧ ⟨begins, slot, .body l.item⟩ ∈ around ∧
        slots[slot]? = some (.loop l)
  | _ => True

/-- All that holds of a frame that runs a range. -/
structure Frame.Sound (f : Frame) (range : Range) : Prop where
  stop : f.stop = range.stop
  after : range.start ≤ f.ip
  before : f.ip ≤ range.stop
  within : range.stop ≤ f.template.opCount
  room : f.slots.length = f.template.program.slotCount
  /-- Every construct around the position has its state in its slot. -/
  own : ∀ a ∈ f.template.program.around range f.ip,
    ∃ slot, f.slots[a.slot]? = some slot ∧ slot.Fits a
  /-- No two constructs around the position have the same slot. -/
  apart : (f.template.program.around range f.ip).Pairwise fun outer inner => outer.slot < inner.slot
  others : ∀ (i : Nat) (slot : Slot), f.slots[i]? = some slot →
    (∀ a ∈ f.template.program.around range f.ip, a.slot ≠ i) → slot = .empty
  /-- Before the end of the range there is an operation, with all that it needs. -/
  finds : f.ip < range.stop → ∃ instr, f.template.program.instrs[f.ip]? = some instr ∧
    (∀ slot ∈ instr.op.slot?, slot < f.slots.length) ∧
      Finds (f.template.program.around range f.ip) f.slots instr.op
  done : f.ip = range.stop → ∀ slot ∈ f.slots, slot = .empty

/-- An operation that is not a fault finds what it relies on in slots that fit. -/
theorem finds_of_exec {env : Env} {active : List String} {ip : Nat} {slots : List Slot}
    {locals : Dict Value} {output : String} {op : Op} {around : List Around}
    (fit : SlotsFit 0 around slots)
    (runs : ∀ fault, exec env active ip slots locals output op ≠ .fault fault) :
    Finds around slots op := by
  cases op with
  | orElse slot endAt =>
      simp only [exec] at runs
      cases held : slots[slot]? with
      | some state =>
          rw [held] at runs
          cases state with
          | branch taken =>
              cases taken with
              | true => exact held
              | false => exact absurd rfl (runs _)
          | empty | loop => exact absurd rfl (runs _)
      | none =>
          rw [held] at runs
          exact absurd rfl (runs _)
  | endFor slot bodyAt =>
      simp only [exec] at runs
      cases held : slots[slot]? with
      | some state =>
          rw [held] at runs
          cases state with
          | loop l =>
              obtain ⟨⟨begins, _, _⟩, mem, at_slot, rfl, begun, -⟩ := fit.loop held
              obtain rfl := at_slot.trans (Nat.zero_add slot)
              refine ⟨begins, l, ?_, mem, held⟩
              by_cases here : l.bodyAt = bodyAt
              · exact here.symm.trans begun
              · simp only [endLoop, here, false_and, if_false] at runs
                exact absurd rfl (runs _)
          | empty | branch => exact absurd rfl (runs _)
      | none =>
          rw [held] at runs
          exact absurd rfl (runs _)
  | text | output | call | beginIf | endIf | beginFor | beginBlock | endBlock => trivial

theorem Frame.InRange.sound {f : Frame} {range : Range} (inRange : f.InRange range) :
    f.Sound range := by
  obtain ⟨stop, after, before, within, room, fits, proceeds, done⟩ := inRange
  refine ⟨stop, after, before, within, room, ?_, fits.ordered, ?_, ?_, ?_⟩
  · intro a mem
    obtain ⟨i, slot, number, found, fits⟩ := fits.own_slot a mem
    rw [Nat.zero_add] at number
    exact ⟨slot, number ▸ found, fits⟩
  · intro i slot found other
    exact fits.others i slot found fun a mem => by
      rw [Nat.zero_add]
      exact other a mem
  · intro running
    obtain ⟨instr, found, env, active, locals, runs⟩ := proceeds running
    exact ⟨instr, found, room ▸ f.template.slot_lt found, finds_of_exec fits runs⟩
  · intro last
    rw [done last] at fits
    exact fits.empty

section

variable {t : Template} {env : Env} {s : State} {locals : Dict Value} {todo : Completion}

/-- A frame in the middle of placed nodes is in their range. -/
theorem Midway.inRange {f : Frame} {active : List String} {base : Dict Value} {start depth : Nat}
    {nodes : List Node} {slots : List Slot} (ordered : base.Ascending)
    (mid : Midway env f.template.name active base start nodes f.ip slots locals todo)
    (placed : Placed f.template.program start depth nodes)
    (shape : f.slots = List.replicate depth .empty ++ slots)
    (fits : depth + slots.length = f.template.program.slotCount)
    (stop : f.stop = start + sizes nodes) (within : f.stop ≤ f.template.opCount) :
    f.InRange (Program.rangeOf start nodes) := by
  refine ⟨stop, mid.bounds.1, mid.bounds.2, ?_, ?_, ?_, fun running => ?_, fun last => ?_⟩
  · rwa [stop] at within
  · rw [shape, List.length_append, List.length_replicate, fits]
  · rw [placed.around, shape]
    exact (mid.fits depth).outer
  · obtain ⟨instr, found, follows⟩ := mid.proceeds ordered (List.replicate depth .empty)
      (by rwa [List.length_replicate]) (by rwa [List.length_replicate]) running
    refine ⟨instr, found, env, active, locals, fun fault failed => ?_⟩
    have := follows ""
    rw [← shape, failed] at this
    exact this
  · rw [placed.around]
    exact aroundIn_behindAll nodes depth (Nat.le_of_eq last.symm)

theorem Region.Holds.inRange {position : Nat} {frames : List Frame}
    (holds : (Region.whole t).Holds env position frames locals todo) :
    ∀ f ∈ frames, ∃ range, f.RunsRange t env range ∧ f.InRange range := by
  induction holds with
  | @own slots _ _ fits mid =>
      intro f mem
      obtain rfl := List.mem_singleton.1 mem
      have whole := t.opCount_eq_stop
      refine ⟨⟨0, t.opCount⟩, .rendered rfl rfl, ?_⟩
      rw [whole]
      exact mid.inRange (f := (Region.whole t).frame position slots) (Region.whole t).ordered
        t.placed rfl fits whole (Nat.le_refl _)
  | @replaced ip depth frames _ _ _ _ name o slots outside _ chosen placed fits mid ih =>
      intro f mem
      rcases List.mem_cons.1 mem with rfl | mem
      · obtain ⟨-, registered⟩ := Env.override?_eq_some.1 chosen
        exact ⟨o.range, .override registered rfl rfl,
          mid.inRange outside.ascending placed rfl fits rfl o.placed.1⟩
      · exact ih f mem

theorem Reached.inRange (reached : Reached t env s) :
    ∀ f ∈ s.frames, ∃ range, f.RunsRange t env range ∧ f.InRange range := by
  rcases reached.rendering with ⟨_, _, holds, -⟩ | ⟨none, -⟩
  · exact holds.inRange
  · rw [none]
    exact fun f mem => nomatch mem

/-- **The slots of a run.** In every state of a render every frame is in a range of its template
that is its to run; the constructs of the range around its position have their states in their
slots, one each, and no other slot is in use; its operation finds the slot and the state it needs.
No step is a fault. -/
theorem slots_of_reached (reached : Reached t env s) :
    (∀ f ∈ s.frames, ∃ range, f.RunsRange t env range ∧ f.Sound range) ∧
      ∀ fault, step env s ≠ .fault fault := by
  refine ⟨fun f mem => ?_, fun fault failed => ?_⟩
  · obtain ⟨range, runs, inRange⟩ := reached.inRange f mem
    exact ⟨range, runs, inRange.sound⟩
  · have := rendering_step reached.rendering
    rw [failed] at this
    exact this

end

/-- In the override of a block of a loop, the slots of the loop stay as they are. -/
theorem slots_of_reached_override :
    let t := Template.ofNodes "page" [.loop 1 "x" ⟨"xs", [], []⟩ [.block 1 "b" [] 1] 1]
    let o := Override.whole (.ofNodes "block:b" [.ifThen 1 ⟨"x", [], []⟩ [.text 1 "+"] 1])
    let env : Env :=
      { globals := Context.ofEntries [("xs", .list [.int 1])], modifiers := [], callables := []
        overrides := [("b", o)] }
    ∃ s, Reached t env s ∧
      s.frames.map (fun f => (f.ip, f.slots)) =
        [(1, [.branch true]), (3, [.loop ⟨"x", [.int 1], 0, none, none, 1⟩, .empty])] ∧
      (∀ f ∈ s.frames, ∃ range, f.RunsRange t env range ∧ f.Sound range) ∧
      ∀ fault, step env s ≠ .fault fault := by
  intro t o env
  have third : (after? env 3 (initial t)).map (fun s => s.frames.map fun f => (f.ip, f.slots)) =
      some [(1, [.branch true]), (3, [.loop ⟨"x", [.int 1], 0, none, none, 1⟩, .empty])] := by
    rfl
  obtain ⟨s, after, frames⟩ := Option.map_eq_some_iff.1 third
  have reached : Reached t env s := steps_of_after? after
  exact ⟨s, reached, frames, slots_of_reached reached⟩

end Machine

end BraceTemplate
