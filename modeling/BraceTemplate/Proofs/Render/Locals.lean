/-
# BraceTemplate.Proofs.Render.Locals — the local variables of a run

The loops that are running, in the frames from the outermost in and in each frame from the outermost
in, determine the local variables: each binds its item and the position of its item over what the
loops around it bind (`Reached.locals_eq`). So a name is bound by the innermost loop that binds it,
or by none.

`locals_of_reached` says so of every state that comes up in a render, says what a look-up finds
then, and that constructs and overrides leave the local variables as they were.
-/
import BraceTemplate.Proofs.Render.Rounds
import BraceTemplate.Proofs.Render.Slots

namespace BraceTemplate

set_option autoImplicit false

/-- The loop around a position, if the construct is one: the item name and where the body begins. -/
def Around.loop? (a : Around) : Option (String × Nat) :=
  match a.place with
  | .body item => some (item, a.begins + 1)
  | .first | .second | .ifEnd => none

theorem Value.ofNat_eq_int {n : Nat} (small : n < 9223372036854775808) :
    ∃ i : Int64, Value.ofNat n = .int i ∧ i.toInt = n := by
  refine ⟨Int64.ofNat n, ?_, ?_⟩
  · rw [Value.ofNat, if_pos (by omega)]
  · exact Int64.toInt_ofNat_of_lt small

namespace Machine

/-! ## The loops of a state -/

/-- The loop that a slot holds. -/
def Slot.loop? : Slot → Option Loop
  | .loop l => some l
  | .empty | .branch _ => none

/-- The loops of a frame, outermost first. -/
def Frame.loops (f : Frame) : List Loop :=
  f.slots.filterMap Slot.loop?

/-- The loops that are running, outermost first. -/
def State.loops (s : State) : List Loop :=
  s.frames.reverse.flatMap Frame.loops

namespace Loop

/-- What a loop binds a name to. -/
def binding? (l : Loop) (name : String) : Option Value :=
  if name = indexName l.item then some (Value.ofNat l.index)
  else if name = l.item then l.items[l.index]?
  else none

/-- Local variables with the names of a loop bound. -/
def bind (locals : Dict Value) (l : Loop) : Dict Value :=
  match l.items[l.index]? with
  | some v => bindItem locals l.item v l.index
  | none => locals

theorem find?_bind {l : Loop} (running : l.index < l.items.length) (locals : Dict Value)
    (name : String) : (bind locals l).find? name = (l.binding? name).or (locals.find? name) := by
  have current := List.getElem?_eq_getElem running
  rw [bind, current]
  simp only
  rw [find?_bindItem, binding?, current]
  split
  · rfl
  · split <;> rfl

/-- The innermost loop that binds a name wins. -/
theorem find?_foldl_bind {loops : List Loop} (running : ∀ l ∈ loops, l.index < l.items.length)
    (locals : Dict Value) (name : String) :
    (loops.foldl bind locals).find? name =
      (loops.reverse.findSome? (binding? · name)).or (locals.find? name) := by
  induction loops generalizing locals with
  | nil => rfl
  | cons l loops ih =>
      rw [List.forall_mem_cons] at running
      rw [List.foldl_cons, ih running.2, find?_bind running.1, List.reverse_cons,
        List.findSome?_append, ← Option.or_assoc]
      congr 2
      simp only [List.findSome?_cons, List.findSome?_nil]
      cases l.binding? name <;> rfl

end Loop

theorem loops_free (free : Nat) :
    (List.replicate free Slot.empty).filterMap Slot.loop? = [] := by
  refine List.filterMap_eq_nil_iff.2 fun slot mem => ?_
  rw [(List.mem_replicate.1 mem).2]
  rfl

/-- The loops in slots are those around the position. -/
theorem SlotsFit.loops {depth : Nat} {around : List Around} {slots : List Slot}
    (fit : SlotsFit depth around slots) :
    (slots.filterMap Slot.loop?).map (fun l => (l.item, l.bodyAt)) =
      around.filterMap Around.loop? := by
  induction fit with
  | free depth n =>
      rw [loops_free]
      rfl
  | @own _ a slot _ _ at_depth fits _ ih =>
      obtain ⟨begins, _, place⟩ := a
      cases place with
      | body item =>
          obtain ⟨l, rfl, rfl, begun, -⟩ := fits
          simp only [List.filterMap_cons, Slot.loop?, Around.loop?, List.map_cons, ih, begun]
      | first | second =>
          obtain rfl := fits
          rw [List.filterMap_cons_none rfl, List.filterMap_cons_none rfl, ih]
      | ifEnd =>
          obtain ⟨taken, rfl⟩ := fits
          rw [List.filterMap_cons_none rfl, List.filterMap_cons_none rfl, ih]
  | unused _ ih => exact ih

/-! ## The local variables -/

section

variable {t : Template} {env : Env} {s : State}

theorem Midway.locals_eq {template : String} {active : List String} {base locals : Dict Value}
    {start ip : Nat} {nodes : List Node} {slots : List Slot} {todo : Completion}
    (mid : Midway env template active base start nodes ip slots locals todo) :
    locals = (slots.filterMap Slot.loop?).foldl Loop.bind base := by
  induction mid with
  | front | notTaken | jumped =>
      simp only [List.filterMap_cons, Slot.loop?, loops_free, List.foldl_nil]
  | behind _ ih => exact ih
  | inThen _ ih | inYes _ ih | inNo _ ih | inBlock _ ih => exact ih
  | inLoop runs _ ih =>
      simp only [List.filterMap_cons, Slot.loop?, List.foldl_cons, Loop.bind, runs.current,
        runs.item]
      exact ih

theorem Region.Holds.locals_eq {position : Nat} {frames : List Frame} {locals : Dict Value}
    {todo : Completion} (holds : (Region.whole t).Holds env position frames locals todo) :
    locals = (frames.reverse.flatMap Frame.loops).foldl Loop.bind [] := by
  induction holds with
  | own fits mid =>
      rw [mid.locals_eq]
      simp only [Region.whole, Region.frame, List.reverse_singleton, List.flatMap_singleton,
        Frame.loops, List.nil_append]
  | replaced outside past chosen placed fits mid ih =>
      rw [List.reverse_cons, List.flatMap_append, List.foldl_append, ← ih, mid.locals_eq]
      simp only [List.flatMap_singleton, Frame.loops, List.filterMap_append, loops_free,
        List.nil_append]

theorem Reached.locals_eq (reached : Reached t env s) : s.locals = s.loops.foldl Loop.bind [] := by
  rcases reached.rendering with ⟨_, _, holds, -⟩ | ⟨none, empty, -⟩
  · exact holds.locals_eq
  · rw [State.loops, none, empty]
    rfl

/-- Every loop that is running is at one of its items. -/
theorem Reached.running (reached : Reached t env s) :
    ∀ l ∈ s.loops, l.index < l.items.length := by
  intro l mem
  obtain ⟨f, frame, mem⟩ := List.mem_flatMap.1 mem
  obtain ⟨slot, mem, holds⟩ := List.mem_filterMap.1 mem
  obtain ⟨range, -, inRange⟩ := reached.inRange f (List.mem_reverse.1 frame)
  obtain ⟨i, found⟩ := List.getElem?_of_mem mem
  cases slot with
  | empty | branch => cases holds
  | loop l' =>
      obtain rfl := Option.some.inj holds
      obtain ⟨a, -, -, -, -, bound⟩ := inRange.fits.loop found
      exact bound

/-- What the loops that are running bind a name to. -/
def State.binding? (s : State) (name : String) : Option Value :=
  s.loops.reverse.findSome? (·.binding? name)

theorem Reached.find?_locals (reached : Reached t env s) (name : String) :
    s.locals.find? name = s.binding? name := by
  rw [reached.locals_eq, Loop.find?_foldl_bind reached.running, State.binding?]
  cases s.loops.reverse.findSome? (·.binding? name) <;> rfl

/-- **The local variables of a render.** In every state the loops that are running are those that
the frames' positions are in, each is at one of its items, and a name is bound by the innermost of
them that binds it, or not at all. So a look-up finds what that loop binds the name to, which hides
a global variable even if it is undefined, and otherwise the global variable. Constructs that are
entered and overrides that are begun leave the local variables as they were, and so does every
round of a loop. -/
theorem locals_of_reached (reached : Reached t env s) :
    (∀ f ∈ s.frames, ∃ range, f.RunsRange t env range ∧
      f.loops.map (fun l => (l.item, l.bodyAt)) =
        (f.template.program.around range f.ip).filterMap Around.loop?) ∧
    (∀ l ∈ s.loops, l.index < l.items.length ∧
      (l.items.length ≤ 9223372036854775808 →
        ∃ i : Int64, Value.ofNat l.index = .int i ∧ i.toInt = l.index)) ∧
    (∀ name, s.locals.find? name = s.binding? name) ∧
    (∀ name, env.lookup? s.locals name =
      ((s.binding? name).or (env.globals.find? name)).filter Value.isDefined) ∧
    (∀ (f : Frame) (rest : List Frame) (op : Op) (endAt : Nat), s.Executes f rest op →
      op.endAt? = some endAt →
        LeadsTo env s (fun w => w.isAt rest.length (endAt + 1) = false) fun u =>
          u.frames = { f with ip := endAt + 1 } :: rest ∧ u.locals = s.locals) ∧
    (∀ u, step env s = .next u → s.frames.length < u.frames.length →
      LeadsTo env u (fun w => s.frames.length < w.frames.length) fun w =>
        w.frames.length = s.frames.length ∧ w.locals = s.locals) ∧
    ∀ (f : Frame) (rest : List Frame) (item : String) (collection : Expr) (slot endAt : Nat)
      (items : List Value), s.Executes f rest (.beginFor item collection slot endAt) →
      env.items s.locals collection = .ok items →
        ∃ trace u, Steps env s trace u ∧
          (∀ w ∈ trace, w.isAt rest.length (endAt + 1) = false) ∧
            (u.isAt rest.length (endAt + 1) ∧
                visits rest.length endAt trace = visits rest.length (f.ip + 1) trace ∨
              ∃ e, step env u = .failed e) := by
  refine ⟨fun f mem => ?_, fun l mem => ⟨reached.running l mem, fun small => ?_⟩,
    reached.find?_locals, fun name => ?_, ?_, ?_, ?_⟩
  · obtain ⟨range, runs, inRange⟩ := reached.inRange f mem
    exact ⟨range, runs, inRange.fits.loops⟩
  · exact Value.ofNat_eq_int (Nat.lt_of_lt_of_le (reached.running l mem) small)
  · rw [Env.lookup?, reached.find?_locals name]
    cases s.binding? name <;> rfl
  · exact fun f rest op endAt executes opens => reached.construct_completes executes opens
  · intro u step deeper
    obtain ⟨trace, w, steps, inside, outcome⟩ := reached.override_completes step deeper
    exact ⟨trace, w, steps, inside, outcome.imp_left fun ⟨length, _, same⟩ => ⟨length, same⟩⟩
  · intro f rest item collection slot endAt items executes resolved
    obtain ⟨trace, u, steps, inside, outcome⟩ := reached.loop_completes executes resolved
    refine ⟨trace, u, steps, inside, outcome.imp ?_ And.left⟩
    rintro ⟨⟨frames, -⟩, begun, ended⟩
    exact ⟨by rw [State.isAt, frames]; simp, ended.trans begun.symm⟩

end

/-- An item named like the index of the loop around it, in an override that this loop calls. -/
theorem locals_of_reached_index_name :
    let o := Override.whole (.ofNodes "block:b" [.loop 1 "x_idx" ⟨"ys", [], []⟩ [] 1])
    let t := Template.ofNodes "page" [.loop 1 "x" ⟨"xs", [], []⟩ [.block 1 "b" [] 1] 1]
    let env : Env :=
      { globals := Context.ofEntries [("xs", .list [.int 1]), ("ys", .list [.undefined, .int 2]),
          ("x_idx", .int 3)]
        modifiers := [], callables := [], overrides := [("b", o)] }
    ∃ s, Reached t env s ∧ s.loops.map (·.item) = ["x", "x_idx"] ∧
      s.locals.find? "x" = some (.int 1) ∧ s.locals.find? "x_idx" = some .undefined ∧
      env.lookup? s.locals "x_idx" = none := by
  intro o t env
  have third : (after? env 3 (initial t)).map
      (fun s => (s.loops.map (·.item), s.binding? "x", s.binding? "x_idx")) =
        some (["x", "x_idx"], some (.int 1), some .undefined) := by
    rfl
  obtain ⟨s, after, same⟩ := Option.map_eq_some_iff.1 third
  simp only [Prod.mk.injEq] at same
  obtain ⟨loops, item, index⟩ := same
  have reached : Reached t env s := steps_of_after? after
  obtain ⟨-, -, found, looked, -⟩ := locals_of_reached reached
  refine ⟨s, reached, loops, (found "x").trans item, (found "x_idx").trans index, ?_⟩
  rw [looked, index]
  rfl

end Machine

end BraceTemplate
