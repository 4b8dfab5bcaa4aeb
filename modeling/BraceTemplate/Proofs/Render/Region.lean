/-
# BraceTemplate.Proofs.Render.Region — running nodes with replacements

A `Region` is a row of nodes placed in a template that a frame is to run, with what that run finds:
the frames below, the slots of the constructs around the nodes, and the local variables. A whole
template is a region, and so is every construct in it.

`Region.Holds` is the invariant of a run of a region: its frame is in the middle of the nodes, and
each frame above is in the middle of the override of the block that the frame below it waits at.
`Region.Holds.step` is the step of it: until the region is finished, every step keeps the
invariant and what remains to be done, or fails as that does; none is a fault. A finished region has
left slots and local variables as it found them (`Region.Holds.finished`).
-/
import BraceTemplate.Proofs.Render.Proceed
import BraceTemplate.Proofs.Render.Trace

namespace BraceTemplate.Machine

set_option autoImplicit false

/-- Nodes that a frame is to run. -/
structure Region where
  template : Template
  replaces : Option String
  stop : Nat
  /-- The slots of the constructs around the nodes. -/
  outer : List Slot
  below : List Frame
  /-- The local variables around the nodes. -/
  base : Dict Value
  start : Nat
  nodes : List Node
  placed : Placed template.program start outer.length nodes
  within : start + sizes nodes ≤ stop
  ordered : base.Ascending

namespace Region

/-- The frame of a region, with the slots that its nodes may use. -/
def frame (r : Region) (ip : Nat) (slots : List Slot) : Frame :=
  ⟨r.template, r.replaces, r.stop, ip, r.outer ++ slots⟩

/-- The blocks whose replacements are being run while the frame of a region is the innermost. -/
def active (r : Region) : List String :=
  Machine.active (r.frame r.start [] :: r.below)

/-- The run of a region has its frame at a position, and these are the frames, the local variables
and what remains to be done. -/
inductive Holds (env : Env) (r : Region) : Nat → List Frame → Dict Value → Completion → Prop where
  | own {ip : Nat} {slots : List Slot} {locals : Dict Value} {todo : Completion}
      (fits : r.outer.length + slots.length = r.template.program.slotCount)
      (mid : Midway env r.template.name r.active r.base r.start r.nodes ip slots locals todo) :
      Holds env r ip (r.frame ip slots :: r.below) locals todo
  /-- An override is being run for a block that the innermost frame waits at. -/
  | replaced {position ip depth : Nat} {frames : List Frame} {base locals : Dict Value}
      {todo after : Completion} {name : String} {o : Override} {slots : List Slot}
      (outside : Holds env r position frames base after) (past : r.start < position)
      (chosen : env.override? (Machine.active frames) name = some o)
      (placed : Placed o.template.program o.start depth o.nodes)
      (fits : depth + slots.length = o.template.program.slotCount)
      (mid : Midway env o.template.name (name :: Machine.active frames) base o.start o.nodes ip
        slots locals todo) :
      Holds env r position
        (⟨o.template, some name, o.range.stop, ip, List.replicate depth .empty ++ slots⟩ ::
          frames) locals (todo >=> after)

end Region

section

variable {env : Env} {r : Region} {position : Nat} {frames : List Frame} {locals : Dict Value}
  {todo : Completion}

/-- A frame that begins an override has its slots free, those of the constructs around it too. -/
theorem Frame.start_slots {o : Override} {depth : Nat}
    (placed : Placed o.template.program o.start depth o.nodes) (name : String) :
    ∃ free, depth + free = o.template.program.slotCount ∧
      Frame.start o.template (some name) o.range =
        ⟨o.template, some name, o.range.stop, o.start,
          List.replicate depth .empty ++ List.replicate free .empty⟩ := by
  have room := placed.room
  refine ⟨o.template.program.slotCount - depth, by omega, ?_⟩
  rw [Frame.start, List.replicate_append_replicate]
  congr 2
  omega

namespace Region.Holds

theorem ascending (holds : r.Holds env position frames locals todo) : locals.Ascending := by
  induction holds with
  | own fits mid => exact mid.ascending r.ordered
  | replaced outside past chosen placed fits mid ih => exact mid.ascending ih

theorem bounds (holds : r.Holds env position frames locals todo) :
    r.start ≤ position ∧ position ≤ r.start + sizes r.nodes := by
  induction holds with
  | own fits mid => exact mid.bounds
  | replaced outside past chosen placed fits mid ih => exact ih

theorem length (holds : r.Holds env position frames locals todo) :
    r.below.length < frames.length := by
  induction holds with
  | own fits mid => exact Nat.lt_succ_self _
  | replaced outside past chosen placed fits mid ih => exact Nat.lt_succ_of_lt ih

/-- In front of its nodes a region holds. -/
theorem front (r : Region) (free : Nat)
    (fits : r.outer.length + free = r.template.program.slotCount) :
    r.Holds env r.start (r.frame r.start (List.replicate free .empty) :: r.below) r.base
      (ahead env r.template.name r.active r.base r.start r.nodes) :=
  .own (by rwa [List.length_replicate]) (.front ..)

/-- The region is finished where its own frame is the innermost, behind the last node. -/
theorem finished (holds : r.Holds env position frames locals todo)
    (last : position = r.start + sizes r.nodes) (top : frames.length = r.below.length + 1) :
    (∃ free, r.outer.length + free = r.template.program.slotCount ∧
      frames = r.frame (r.start + sizes r.nodes) (List.replicate free .empty) :: r.below) ∧
      locals = r.base ∧ todo = fun text => .ok text := by
  cases holds with
  | own fits mid =>
      obtain ⟨⟨free, rfl⟩, rfl, rfl⟩ := mid.done last
      rw [List.length_replicate] at fits
      exact ⟨⟨free, fits, by rw [last]⟩, rfl, rfl⟩
  | replaced outside past chosen placed fits mid =>
      have := outside.length
      rw [List.length_cons] at top
      omega

/-- What a step from a state may lead to, given what remains to be done there: the region still
holds, and the position of its frame is behind the beginning of its nodes. -/
def Continues (env : Env) (r : Region) (todo : Completion) (output : String) : Step → Prop
  | .next s =>
      ∃ (position : Nat) (todo' : Completion), r.start < position ∧
        r.Holds env position s.frames s.locals todo' ∧ todo output = todo' s.output
  | .failed e => todo output = .error e
  | .done _ | .fault _ => False

/-- If the innermost frame proceeds and the invariant can be put together again around it, the
region continues. -/
theorem continues_of_proceeds {t : Template} {replaces : Option String} {stop ip start : Nat}
    {outer slots : List Slot} {rest : List Frame} {base : Dict Value} {nodes : List Node}
    (wrap : Completion → Completion) (after : Completion) (place : Nat → Nat)
    (running : ip < stop)
    (proceeds : Proceeds env t.name
      (Machine.active (⟨t, replaces, stop, ip, outer ++ slots⟩ :: rest)) t.program base start nodes
      outer slots locals todo ip)
    (wrapped : ∀ todo text, wrap todo text = todo text >>= after)
    (rebuilt : ∀ {ip' : Nat} {slots' : List Slot} {locals' : Dict Value} {todo' : Completion},
      start < ip' → slots'.length = slots.length →
      Midway env t.name (Machine.active (⟨t, replaces, stop, ip, outer ++ slots⟩ :: rest)) base
        start nodes ip' slots' locals' todo' →
      r.start < place ip' ∧
        r.Holds env (place ip') (⟨t, replaces, stop, ip', outer ++ slots'⟩ :: rest) locals'
          (wrap todo')) (output : String) :
    Continues env r (wrap todo) output
      (step env ⟨⟨t, replaces, stop, ip, outer ++ slots⟩ :: rest, locals, output⟩) := by
  obtain ⟨instr, found, follows⟩ := proceeds
  have follows := follows output
  simp only [step]
  rw [if_pos running, found]
  simp only
  revert follows
  generalize exec env _ ip (outer ++ slots) locals output instr.op = move
  intro follows
  cases move with
  | go ip' slots' locals' added =>
      obtain ⟨inner, todo', rfl, length, later, mid, same⟩ := follows
      obtain ⟨past, holds⟩ := rebuilt later length mid
      refine ⟨place ip', wrap todo', past, holds, ?_⟩
      rw [wrapped, wrapped, same]
  | enter name body resume =>
      obtain ⟨chosen, later, todo', mid, same⟩ := follows
      obtain ⟨past, holds⟩ := rebuilt later rfl mid
      obtain ⟨-, depth, placed⟩ := body.placed
      obtain ⟨free, fits, begun⟩ := Frame.start_slots placed name
      -- The override comes first, then what was left at the block.
      have inner := Holds.replaced holds past chosen placed (by rwa [List.length_replicate])
        (.front locals body.start body.nodes free)
      simp only [begun]
      refine ⟨place resume, _, past, inner, ?_⟩
      rw [wrapped, same, bind_assoc]
      change _ = ahead env _ _ _ _ _ _ >>= wrap todo'
      congr 1
      funext text
      rw [wrapped]
  | fail cause =>
      change wrap todo output = _
      rw [wrapped, show todo output = _ from follows]
      rfl
  | fault f => exact follows

/-- **The step of the invariant**: until a region is finished, it continues. -/
theorem step (holds : r.Holds env position frames locals todo)
    (unfinished : frames.length = r.below.length + 1 → position < r.start + sizes r.nodes)
    (output : String) :
    Continues env r todo output (Machine.step env ⟨frames, locals, output⟩) := by
  cases holds with
  | @own slots _ _ fits mid =>
      have running := unfinished rfl
      have within := r.within
      have proceeds := mid.proceeds r.ordered r.outer r.placed fits running
      exact continues_of_proceeds id .ok id (by omega) proceeds (fun _ _ => (bind_pure _).symm)
        (fun later length mid => ⟨later, .own (by omega) mid⟩) output
  | @replaced ip depth frames base _ todo after name o slots outside past chosen placed fits mid =>
      rcases Nat.lt_or_ge ip o.range.stop with running | finished
      · have proceeds := mid.proceeds outside.ascending (List.replicate depth .empty)
          (by rwa [List.length_replicate]) (by rwa [List.length_replicate]) running
        exact continues_of_proceeds (· >=> after) after (fun _ => position) running proceeds
          (fun _ _ => rfl)
          (fun _ length mid => ⟨past, .replaced outside past chosen placed (by omega) mid⟩) output
      · -- The override is finished: the frame below goes on with what is left to it.
        have last : ip = o.start + sizes o.nodes := Nat.le_antisymm mid.bounds.2 finished
        obtain ⟨-, rfl, rfl⟩ := mid.done last
        rw [step_of_stop finished]
        exact ⟨position, after, past, outside, rfl⟩

end Region.Holds

end

end BraceTemplate.Machine
