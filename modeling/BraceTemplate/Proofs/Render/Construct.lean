/-
# BraceTemplate.Proofs.Render.Construct — running a construct to its end

A region that begins to be run is run to its end, or some operation in it fails; until then its
frame is never taken away, and it does not come to the beginning of its nodes again
(`Region.completes`). At the end slots and local variables are what they were at the beginning.

Wherever a run comes to the begin operation of a construct, the construct is a region of its own
(`Reached.exists_region`). So every construct that is entered is left again with the same frames
and the same local variables, unless the render fails (`Reached.construct_completes`).
-/
import BraceTemplate.Proofs.Render.Meaning

namespace BraceTemplate

set_option autoImplicit false

/-- The position of the end of the construct that an operation begins. -/
def Op.endAt? : Op → Option Nat
  | .beginIf _ _ _ endAt | .beginFor _ _ _ endAt | .beginBlock _ endAt => some endAt
  | .text _ | .output _ | .call _ _ | .orElse _ _ | .endIf _ | .endFor _ _ | .endBlock => none

namespace Machine

/-! ## Regions -/

namespace Region

/-- The run of a region is at a position of its nodes, with none of their constructs around it. -/
def stateAt (r : Region) (ip free : Nat) (output : String) : State :=
  ⟨r.frame ip (List.replicate free .empty) :: r.below, r.base, output⟩

/-- The frame of a region is there, and if it is the innermost, it is not behind the region. -/
def Inside (r : Region) (s : State) : Prop :=
  r.below.length < s.frames.length ∧
    ∀ ip, s.isAt r.below.length ip → ip ≤ r.start + sizes r.nodes

/-- A run leads from a state of a region to the end of the region, or to an operation in it that
fails; until then it stays inside. -/
structure Completes (env : Env) (r : Region) (free : Nat) (s : State) (trace : List State)
    (u : State) : Prop where
  steps : Steps env s trace u
  inside : ∀ w ∈ trace ++ [u], r.Inside w
  before : ∀ w ∈ trace, w.isAt r.below.length (r.start + sizes r.nodes) = false
  outcome : (∃ output, u = r.stateAt (r.start + sizes r.nodes) free output) ∨
    ∃ e, step env u = .failed e

section

variable {env : Env} {r : Region} {free position : Nat} {s t : State}

/-- Where the frame of a region is the innermost one, it is at the position of the region. -/
theorem Holds.position_eq {todo : Completion} {ip : Nat}
    (holds : r.Holds env position s.frames s.locals todo) (at_ip : s.isAt r.below.length ip) :
    position = ip ∧ s.frames.length = r.below.length + 1 := by
  obtain ⟨frames, locals, output⟩ := s
  cases holds with
  | own fits mid =>
      simp only [State.isAt, frame, Bool.and_eq_true, beq_iff_eq] at at_ip
      exact ⟨at_ip.2, rfl⟩
  | replaced outside past chosen placed fits mid =>
      have := outside.length
      simp only [State.isAt, Bool.and_eq_true, beq_iff_eq] at at_ip
      omega

theorem Holds.inside {todo : Completion} (holds : r.Holds env position s.frames s.locals todo) :
    r.Inside s := by
  refine ⟨holds.length, fun ip at_ip => ?_⟩
  rw [← (holds.position_eq at_ip).1]
  exact holds.bounds.2

theorem Completes.here (still : r.Inside s)
    (outcome : (∃ output, s = r.stateAt (r.start + sizes r.nodes) free output) ∨
      ∃ e, step env s = .failed e) : Completes env r free s [] s := by
  refine ⟨.refl s, fun w mem => ?_, List.forall_mem_nil _, outcome⟩
  obtain rfl := List.mem_singleton.1 mem
  exact still

theorem Completes.next {trace : List State} {u : State} (next : step env s = .next t)
    (still : r.Inside s)
    (inside : s.isAt r.below.length (r.start + sizes r.nodes) = false)
    (later : Completes env r free t trace u) : Completes env r free s (s :: trace) u :=
  ⟨.next next later.steps, List.forall_mem_cons.2 ⟨still, later.inside⟩,
    List.forall_mem_cons.2 ⟨inside, later.before⟩, later.outcome⟩

/-- A region that is not finished goes on behind its beginning, or fails. -/
theorem Holds.advances {todo : Completion}
    (holds : r.Holds env position s.frames s.locals todo)
    (unfinished : s.frames.length = r.below.length + 1 → position < r.start + sizes r.nodes) :
    (∃ t position todo, Machine.step env s = .next t ∧ r.start < position ∧
      r.Holds env position t.frames t.locals todo) ∨ ∃ e, Machine.step env s = .failed e := by
  have continues := holds.step unfinished s.output
  cases next : Machine.step env s with
  | next t =>
      rw [next] at continues
      obtain ⟨position, todo, past, holds, -⟩ := continues
      exact .inl ⟨t, position, todo, rfl, past, holds⟩
  | failed e => exact .inr ⟨e, rfl⟩
  | done output =>
      rw [next] at continues
      exact continues.elim
  | fault f =>
      rw [next] at continues
      exact continues.elim

/-- A run that is behind the beginning of a region comes to its end or fails, and not to the
beginning again. -/
theorem Holds.completes (fits : r.outer.length + free = r.template.program.slotCount) (s : State) :
    ∀ {position : Nat} {todo : Completion}, r.Holds env position s.frames s.locals todo →
      r.start < position → ∃ trace u, Completes env r free s trace u ∧
        ∀ w ∈ trace ++ [u], w.isAt r.below.length r.start = false := by
  induction s using (next_wf env).induction with
  | _ s ih =>
    intro position todo holds past
    have elsewhere : s.isAt r.below.length r.start = false := by
      rw [Bool.eq_false_iff]
      intro at_start
      have := (holds.position_eq at_start).1
      omega
    by_cases atEnd : position = r.start + sizes r.nodes ∧ s.frames.length = r.below.length + 1
    · obtain ⟨⟨free', fits', frames⟩, base, -⟩ := holds.finished atEnd.1 atEnd.2
      obtain rfl : free' = free := by omega
      refine ⟨[], s, .here holds.inside (.inl ⟨s.output, ?_⟩), by simpa using elsewhere⟩
      obtain ⟨_, _, _⟩ := s
      subst frames base
      rfl
    · have inside : s.isAt r.below.length (r.start + sizes r.nodes) = false := by
        rw [Bool.eq_false_iff]
        exact fun at_end => atEnd (holds.position_eq at_end)
      have unfinished : s.frames.length = r.below.length + 1 →
          position < r.start + sizes r.nodes := by
        have := holds.bounds
        omega
      rcases holds.advances unfinished with ⟨t, position', todo', next, past', holds'⟩ | failed
      · obtain ⟨trace, u, completes, away⟩ := ih t next holds' past'
        exact ⟨s :: trace, u, completes.next next holds.inside inside,
          List.forall_mem_cons.2 ⟨elsewhere, away⟩⟩
      · exact ⟨[], s, .here holds.inside (.inr failed), by simpa using elsewhere⟩

/-- **A region completes**: its run comes to its end or fails, and never to its beginning again. -/
theorem completes (env : Env) (r : Region)
    (fits : r.outer.length + free = r.template.program.slotCount) (output : String) :
    ∃ trace u, Completes env r free (r.stateAt r.start free output) trace u ∧
      ∀ w ∈ (trace ++ [u]).tail, w.isAt r.below.length r.start = false := by
  have holds : r.Holds env r.start _ _ _ := .front r free fits
  have still : r.Inside (r.stateAt r.start free output) := holds.inside
  by_cases none : sizes r.nodes = 0
  · refine ⟨[], _, .here still (.inl ⟨output, ?_⟩), List.forall_mem_nil _⟩
    rw [none, Nat.add_zero]
  · have inside : (r.stateAt r.start free output).isAt r.below.length
        (r.start + sizes r.nodes) = false := by
      rw [Bool.eq_false_iff]
      simp only [stateAt, frame, State.isAt, ne_eq, Bool.and_eq_true, beq_iff_eq]
      omega
    rcases holds.advances (s := r.stateAt r.start free output) (fun _ => by omega) with
      ⟨t, position, todo, next, past, holds⟩ | failed
    · obtain ⟨trace, u, completes, away⟩ := holds.completes fits t past
      exact ⟨_ :: trace, u, completes.next next still inside, away⟩
    · exact ⟨[], _, .here still (.inr failed), List.forall_mem_nil _⟩

end

end Region

/-! ## Constructs -/

section

variable {env : Env} {p : Program} {instr : Instr} {endAt : Nat}

/-- A node that begins with the begin operation of a construct is this construct. -/
theorem endAt_of_placed {ip depth : Nat} {node : Node} (placed : Placed p ip depth [node])
    (found : p.instrs[ip]? = some instr) (opens : instr.op.endAt? = some endAt) :
    endAt + 1 = ip + node.size := by
  have first : ∀ {begins : Instr}, p.instrs[ip]? = some begins → begins = instr :=
    fun there => Option.some.inj (there.symm.trans found)
  cases node with
  | text | output | call =>
      obtain rfl := first placed.head.head
      cases opens
  | ifThen =>
      obtain rfl := first placed.ifThen.1
      obtain rfl := Option.some.inj opens
      simp only [Node.size]
      omega
  | ifElse =>
      obtain rfl := first placed.ifElse.1
      obtain rfl := Option.some.inj opens
      simp only [Node.size]
      omega
  | loop =>
      obtain rfl := first placed.loop.1
      obtain rfl := Option.some.inj opens
      simp only [Node.size]
      omega
  | block =>
      obtain rfl := first placed.block.1
      obtain rfl := Option.some.inj opens
      simp only [Node.size]
      omega

/-- A run is in front of a node that is placed there and ends before a position, and the slots from
its depth on are free. -/
def InFront (p : Program) (ip depth stop : Nat) (slots : List Slot) : Prop :=
  ∃ outer free node, slots = outer ++ List.replicate free .empty ∧
    Placed p ip (depth + outer.length) [node] ∧ ip + sizes [node] ≤ stop

theorem InFront.inside {ip depth stop last : Nat} {slots : List Slot}
    (front : InFront p ip (depth + 1) last slots) (own : Slot) (le : last ≤ stop) :
    InFront p ip depth stop (own :: slots) := by
  obtain ⟨outer, free, node, rfl, placed, within⟩ := front
  refine ⟨own :: outer, free, node, rfl, ?_, Nat.le_trans within le⟩
  rwa [List.length_cons, Nat.add_comm outer.length, ← Nat.add_assoc]

/-- A run that is at the begin operation of a construct is in front of a node. -/
theorem Midway.inFront {template : String} {active : List String} {base locals : Dict Value}
    {start ip : Nat} {nodes : List Node} {slots : List Slot} {todo : Completion}
    (mid : Midway env template active base start nodes ip slots locals todo)
    (found : p.instrs[ip]? = some instr) (opens : instr.op.endAt? = some endAt) :
    ∀ depth, Placed p start depth nodes → ip < start + sizes nodes →
      InFront p ip depth (start + sizes nodes) slots := by
  -- At the end of its body a construct has its end operation, which begins nothing.
  have body_end : ∀ {at_end : Nat} {last : Instr}, p.instrs[at_end]? = some last →
      last.op.endAt? = none → ip ≤ at_end → ip < at_end := by
    intro at_end last there closes le
    refine Nat.lt_of_le_of_ne le fun same => ?_
    obtain rfl := Option.some.inj (found.symm.trans (same ▸ there))
    rw [opens] at closes
    cases closes
  clear found opens
  induction mid with
  | front base start nodes free =>
      intro depth placed running
      cases nodes with
      | nil => simp only [sizes] at running; omega
      | cons node rest =>
          exact ⟨[], free, node, rfl, placed.first, by simp only [sizes]; omega⟩
  | behind mid ih =>
      intro depth placed running
      simp only [sizes] at running ⊢
      rw [← Nat.add_assoc]
      exact ih body_end depth placed.behind (by omega)
  | inThen mid ih =>
      intro depth placed _
      obtain ⟨-, body, last⟩ := placed.ifThen
      exact (ih body_end (depth + 1) body (body_end last rfl mid.bounds.2)).inside _
        (by simp only [sizes, Node.size]; omega)
  | inYes mid ih =>
      intro depth placed _
      obtain ⟨-, body, last, -, -⟩ := placed.ifElse
      exact (ih body_end (depth + 1) body (body_end last rfl mid.bounds.2)).inside _
        (by simp only [sizes, Node.size]; omega)
  | inNo mid ih =>
      intro depth placed _
      obtain ⟨-, -, -, body, last⟩ := placed.ifElse
      exact (ih body_end (depth + 1) body (body_end last rfl mid.bounds.2)).inside _
        (by simp only [sizes, Node.size]; omega)
  | inLoop runs mid ih =>
      intro depth placed _
      obtain ⟨-, body, last⟩ := placed.loop
      exact (ih body_end (depth + 1) body (body_end last rfl mid.bounds.2)).inside _
        (by simp only [sizes, Node.size]; omega)
  | inBlock mid ih =>
      intro depth placed _
      obtain ⟨-, body, last⟩ := placed.block
      exact (ih body_end (depth + 1) body (body_end last rfl mid.bounds.2)).inside _
        (by simp only [sizes, Node.size]; omega)
  | notTaken =>
      intro depth placed _
      exact absurd (body_end placed.ifThen.2.2 rfl (Nat.le_refl _)) (Nat.lt_irrefl _)
  | jumped =>
      intro depth placed _
      exact absurd (body_end placed.ifElse.2.2.2.2 rfl (Nat.le_refl _)) (Nat.lt_irrefl _)

end

section

variable {t : Template} {env : Env} {s u : State} {f : Frame} {rest : List Frame} {op : Op}
  {endAt : Nat}

/-- The region of a node in front of which a run is. -/
theorem InFront.exists_region {slots : List Slot} {locals : Dict Value} {output : String}
    (outer : List Slot)
    (front : InFront f.template.program f.ip outer.length f.stop slots)
    (shape : f.slots = outer ++ slots) (room : f.slots.length = f.template.program.slotCount)
    (ordered : locals.Ascending) :
    ∃ (r : Region) (free : Nat) (node : Node),
      r.outer.length + free = r.template.program.slotCount ∧ r.nodes = [node] ∧
        (⟨f :: rest, locals, output⟩ : State) = r.stateAt r.start free output := by
  obtain ⟨inner, free, node, rfl, placed, within⟩ := front
  refine ⟨⟨f.template, f.replaces, f.stop, outer ++ inner, rest, locals, f.ip, [node], ?_, within,
    ordered⟩, free, node, ?_, rfl, ?_⟩
  · rwa [List.length_append]
  · rw [← room, shape]
    simp only [List.length_append, List.length_replicate, Nat.add_assoc]
  · rw [Region.stateAt, Region.frame, List.append_assoc, ← shape]

/-- Where a run is at the begin operation of a construct, the construct is a region in front of
which it is. -/
theorem Reached.exists_region (reached : Reached t env s) (executes : s.Executes f rest op)
    (opens : op.endAt? = some endAt) :
    ∃ (r : Region) (free : Nat) (node : Node),
      r.outer.length + free = r.template.program.slotCount ∧ r.nodes = [node] ∧
        s = r.stateAt r.start free s.output := by
  obtain ⟨frames, locals, output⟩ := s
  obtain ⟨rfl, running, line, found⟩ := executes
  rcases reached.rendering with ⟨position, todo, holds, -⟩ | ⟨none, -⟩
  · have ordered := holds.ascending
    cases holds with
    | own fits mid =>
        have whole := t.opCount_eq_stop
        have front := mid.inFront found opens 0 t.placed (whole ▸ running)
        rw [show (Region.whole t).start + sizes (Region.whole t).nodes = t.opCount from whole.symm]
          at front
        exact InFront.exists_region [] front rfl ((Nat.zero_add _).symm.trans fits)
          ordered
    | @replaced _ depth _ _ _ _ _ _ o slots _ _ _ placed fits mid =>
        have front := mid.inFront found opens depth placed running
        refine InFront.exists_region (List.replicate depth .empty) ?_ rfl ?_ ordered
        · rwa [List.length_replicate]
        · rw [List.length_append, List.length_replicate, fits]
  · cases none

/-- Every construct that is entered is left again, with the same frames and the same local
variables, unless an operation fails. -/
theorem Reached.construct_completes (reached : Reached t env s) (executes : s.Executes f rest op)
    (opens : op.endAt? = some endAt) :
    LeadsTo env s (fun w => w.isAt rest.length (endAt + 1) = false) fun u =>
      u.frames = { f with ip := endAt + 1 } :: rest ∧ u.locals = s.locals := by
  obtain ⟨r, free, node, fits, nodes, same⟩ := reached.exists_region executes opens
  obtain ⟨top, -, line, found⟩ := executes
  obtain ⟨trace, u, completes, -⟩ := r.completes env fits s.output
  rw [same] at top
  obtain ⟨rfl, rfl⟩ := List.cons.inj top
  have placed := r.placed
  rw [nodes] at placed
  have last : r.start + sizes r.nodes = endAt + 1 := by
    rw [endAt_of_placed placed found opens, nodes]
    rfl
  obtain ⟨steps, -, before, outcome⟩ := completes
  rw [← same] at steps
  rw [last] at before outcome
  refine ⟨trace, u, steps, before, outcome.imp_left ?_⟩
  rintro ⟨output, rfl⟩
  rw [same]
  exact ⟨rfl, rfl⟩

/-! ## Overrides -/

/-- A step that adds a frame begins an override, and changes nothing else but the position at which
the frame below goes on. -/
theorem step_deeper (step : Machine.step env s = .next u)
    (deeper : s.frames.length < u.frames.length) :
    ∃ (name : String) (o : Override) (below : List Frame),
      u = ⟨Frame.start o.template (some name) o.range :: below, s.locals,
        s.output⟩ ∧ below.length = s.frames.length ∧ active below = active s.frames := by
  obtain ⟨frames, locals, output⟩ := s
  cases frames with
  | nil => cases step
  | cons f rest =>
      rcases next_cases step with ⟨-, rfl⟩ | ⟨-, instr, -, ⟨_, _, _, _, -, rfl⟩ |
        ⟨name, o, resume, -, rfl⟩⟩
      · simp only [List.length_cons] at deeper
        omega
      · exact absurd deeper (Nat.lt_irrefl _)
      · exact ⟨name, o, { f with ip := resume } :: rest, rfl, rfl, rfl⟩

/-- An override that is begun is left again, with the frames below and the local variables as they
were, unless an operation fails. -/
theorem override_completes (env : Env) (o : Override) (name : String) (below : List Frame)
    {locals : Dict Value} (ordered : locals.Ascending) (output : String) :
    LeadsTo env ⟨Frame.start o.template (some name) o.range :: below, locals, output⟩
      (fun w => below.length < w.frames.length) fun u => u.frames = below ∧ u.locals = locals := by
  obtain ⟨-, depth, placed⟩ := o.placed
  obtain ⟨free, fits, begun⟩ := Frame.start_slots placed name
  let r : Region :=
    { template := o.template, replaces := some name, stop := o.range.stop
      outer := List.replicate depth .empty, below, base := locals, start := o.start
      nodes := o.nodes, placed := by rwa [List.length_replicate], within := Nat.le_refl _, ordered }
  have room : r.outer.length + free = r.template.program.slotCount := by
    rwa [List.length_replicate]
  obtain ⟨trace, u, ⟨steps, inside, -, outcome⟩, -⟩ := r.completes env room output
  rw [begun]
  rcases outcome with ⟨output', rfl⟩ | failed
  · have left : step env (r.stateAt (r.start + sizes r.nodes) free output') =
        .next ⟨below, locals, output'⟩ := step_of_stop (Nat.le_refl _)
    exact ⟨trace ++ [_], _, steps.trans (.next left (.refl _)), fun w mem => (inside w mem).1,
      .inl ⟨rfl, rfl⟩⟩
  · exact ⟨trace, u, steps, fun w mem => (inside w (List.mem_append_left _ mem)).1, .inr failed⟩

/-- An override that a step begins is left again, with no more names being replaced than before and
the local variables as they were, unless an operation fails. -/
theorem Reached.override_completes (reached : Reached t env s)
    (next : step env s = .next u) (deeper : s.frames.length < u.frames.length) :
    LeadsTo env u (fun w => s.frames.length < w.frames.length) fun w =>
      w.frames.length = s.frames.length ∧ active w.frames = active s.frames ∧
        w.locals = s.locals := by
  obtain ⟨name, o, below, rfl, length, same⟩ := step_deeper next deeper
  obtain ⟨trace, w, steps, inside, outcome⟩ :=
    Machine.override_completes env o name below reached.ascending s.output
  rw [length] at inside
  refine ⟨trace, w, steps, inside, outcome.imp_left ?_⟩
  rintro ⟨rfl, locals⟩
  exact ⟨length, same, locals⟩

end

end Machine

end BraceTemplate
