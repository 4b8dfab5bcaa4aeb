/-
# BraceTemplate.Proofs.Render.Rounds — the rounds of a loop

The body of a loop that is running is a region of its own in each round, with the item of the round
bound (`Region.round`). A round comes to the end of the body, or fails; at the end of the body the
next round begins, or the loop is over. So a loop that completes has been at the beginning and at
the end of its body exactly once for each item, in order, and one that fails has not been there
more often (`Reached.loop_completes`).
-/
import BraceTemplate.Proofs.Render.Construct

namespace BraceTemplate.Machine

set_option autoImplicit false

/-- The local variables with which a run comes to a position of a frame. -/
def visits (below ip : Nat) (trace : List State) : List (Dict Value) :=
  (trace.filter (State.isAt below ip)).map State.locals

theorem visits_append (below ip : Nat) (first second : List State) :
    visits below ip (first ++ second) = visits below ip first ++ visits below ip second := by
  rw [visits, List.filter_append, List.map_append]
  rfl

theorem visits_none {below ip : Nat} {trace : List State}
    (never : ∀ w ∈ trace, w.isAt below ip = false) : visits below ip trace = [] := by
  rw [visits, List.filter_eq_nil_iff.2 (fun w mem => by rw [never w mem]; decide), List.map_nil]

theorem visits_cons {below ip : Nat} {s : State} {trace : List State} (here : s.isAt below ip)
    (never : ∀ w ∈ trace, w.isAt below ip = false) : visits below ip (s :: trace) = [s.locals] := by
  have later := visits_none never
  rw [visits] at later ⊢
  rw [List.filter_cons_of_pos here, List.map_cons, later]

/-- A run that does not come back to its first position has been there once. -/
theorem Steps.visits_first {env : Env} {s u : State} {trace : List State} {below ip : Nat}
    (steps : Steps env s trace u) (here : s.isAt below ip)
    (away : ∀ w ∈ (trace ++ [u]).tail, w.isAt below ip = false) :
    visits below ip (trace ++ [u]) = [s.locals] := by
  have first : trace ++ [u] = s :: (trace ++ [u]).tail := by cases steps <;> rfl
  rw [first]
  exact visits_cons here away

/-- The local variables of the rounds of a loop from a round on. -/
def bindings (base : Dict Value) (l : Loop) : List (Dict Value) :=
  (l.items.zipIdx.drop l.index).map fun (v, index) => bindItem base l.item v index

section

variable {env : Env} {r : Region} {free line endLine : Nat} {item : String} {collection : Expr}
  {body : List Node} {l : Loop} {v : Value}

/-- The body of a loop in a round. -/
def Region.round (r : Region) (isLoop : r.nodes = [.loop line item collection body endLine])
    (l : Loop) (v : Value) : Region where
  template := r.template
  replaces := r.replaces
  stop := r.stop
  outer := r.outer ++ [.loop l]
  below := r.below
  base := bindItem r.base item v l.index
  start := r.start + 1
  nodes := body
  placed := by
    have placed := r.placed
    rw [isLoop] at placed
    simpa using placed.loop.2.1
  within := by
    have within := r.within
    rw [isLoop] at within
    simp only [sizes, Node.size] at within
    omega
  ordered := ascending_bindItem r.ordered item v l.index

/-- What a run leads to, from a round of a loop on: it comes behind the loop, and has been through
the rounds; or it fails in one of them. -/
structure Loops (env : Env) (r : Region) (free last : Nat) (rounds : List (Dict Value)) (s : State)
    (trace : List State) (u : State) : Prop where
  steps : Steps env s trace u
  inside : ∀ w ∈ trace, w.isAt r.below.length (last + 1) = false
  outcome :
    (∃ output, u = r.stateAt (last + 1) free output) ∧
        visits r.below.length (r.start + 1) trace = rounds ∧
        visits r.below.length last trace = rounds ∨
      (∃ e, step env u = .failed e) ∧
        visits r.below.length (r.start + 1) trace <+: rounds ∧
        visits r.below.length last trace <+: rounds

/-- Behind a loop no round is left. -/
theorem Loops.behind (env : Env) (r : Region) (free last : Nat) (output : String) :
    Loops env r free last [] (r.stateAt (last + 1) free output) []
      (r.stateAt (last + 1) free output) :=
  ⟨.refl _, List.forall_mem_nil _, .inl ⟨⟨output, rfl⟩, rfl, rfl⟩⟩

/-- At the end of a round the next one begins, or the loop is over. -/
theorem Region.step_endFor (isLoop : r.nodes = [.loop line item collection body endLine])
    (runs : l.Runs env r.base r.start item collection v) (output : String) :
    step env ((r.round isLoop l v).stateAt (r.start + 1 + sizes body) free output) =
      .next (match l.items[l.index + 1]? with
        | some w => (r.round isLoop { l with index := l.index + 1 } w).stateAt (r.start + 1) free
            output
        | none => r.stateAt (r.start + 1 + sizes body + 1) (free + 1) output) := by
  have placed := r.placed
  rw [isLoop] at placed
  obtain ⟨-, -, last⟩ := placed.loop
  have within := r.within
  rw [isLoop] at within
  simp only [sizes, Node.size] at within
  have running : r.start + 1 + sizes body < r.stop := by omega
  have after : r.start < r.start + 1 + sizes body := by omega
  have slots : (r.round isLoop l v).frame (r.start + 1 + sizes body) (List.replicate free .empty) =
      ⟨r.template, r.replaces, r.stop, r.start + 1 + sizes body,
        r.outer ++ .loop l :: List.replicate free .empty⟩ := by
    simp only [frame, round, List.append_assoc, List.singleton_append]
  rw [stateAt, slots]
  cases more : l.items[l.index + 1]? with
  | some w =>
      rw [step_of_go running last (exec_endFor_next runs r.ordered after more),
        String.append_empty]
      simp only [stateAt, frame, round, List.append_assoc, List.singleton_append]
  | none =>
      rw [step_of_go running last (exec_endFor_last runs r.ordered after more),
        String.append_empty]
      rfl

theorem bindings_cons (runs : l.Runs env r.base r.start item collection v) :
    bindings r.base l =
      bindItem r.base item v l.index :: bindings r.base { l with index := l.index + 1 } := by
  rw [bindings, zipIdx_drop runs.current, List.map_cons, runs.item]
  rfl

theorem Region.isAt_stateAt (ip : Nat) (output : String) :
    (r.stateAt ip free output).isAt r.below.length ip := by
  simp only [stateAt, frame, State.isAt, beq_self_eq_true, Bool.and_self]

/-- If a loop completes after a round, it completes from the beginning of the round on. -/
theorem Region.round_completes (isLoop : r.nodes = [.loop line item collection body endLine])
    (fits : r.outer.length + (free + 1) = r.template.program.slotCount)
    (runs : l.Runs env r.base r.start item collection v)
    (rest : ∀ output, ∃ t trace u,
      step env ((r.round isLoop l v).stateAt (r.start + 1 + sizes body) free output) = .next t ∧
        Loops env r (free + 1) (r.start + 1 + sizes body)
          (bindings r.base { l with index := l.index + 1 }) t trace u) (output : String) :
    ∃ trace u, Loops env r (free + 1) (r.start + 1 + sizes body) (bindings r.base l)
      ((r.round isLoop l v).stateAt (r.start + 1) free output) trace u := by
  have room : (r.round isLoop l v).outer.length + free = r.template.program.slotCount := by
    simp only [round, List.length_append, List.length_singleton]
    omega
  obtain ⟨trace, u, ⟨steps, inside, before, outcome⟩, away⟩ :=
    (r.round isLoop l v).completes env room output
  have begun : visits r.below.length (r.start + 1) (trace ++ [u]) =
      [bindItem r.base item v l.index] :=
    steps.visits_first (isAt_stateAt _ _) away
  have ended : visits r.below.length (r.start + 1 + sizes body) trace = [] := visits_none before
  have within : ∀ w ∈ trace ++ [u],
      w.isAt r.below.length (r.start + 1 + sizes body + 1) = false := by
    intro w mem
    rw [Bool.eq_false_iff]
    intro behind
    exact Nat.not_succ_le_self _ ((inside w mem).2 _ behind)
  rw [bindings_cons runs]
  rcases outcome with ⟨output', at_end⟩ | failed
  · obtain ⟨t, later, last, next, loops⟩ := rest output'
    have here : visits r.below.length (r.start + 1 + sizes body) [u] =
        [bindItem r.base item v l.index] := by
      rw [at_end]
      exact visits_cons (isAt_stateAt _ _) (List.forall_mem_nil _)
    have next : step env u = .next t := by rw [at_end]; exact next
    refine ⟨(trace ++ [u]) ++ later, last,
      (steps.trans (.next next (.refl t))).trans loops.steps,
      List.forall_mem_append.2 ⟨within, loops.inside⟩, ?_⟩
    rw [visits_append, begun, visits_append, visits_append, ended, List.nil_append, here]
    rcases loops.outcome with ⟨behind, first, last⟩ | ⟨failed, first, last⟩
    · exact .inl ⟨behind, by rw [first, List.singleton_append], by rw [last, List.singleton_append]⟩
    · exact .inr ⟨failed, (List.prefix_append_right_inj _).2 first,
        (List.prefix_append_right_inj _).2 last⟩
  · refine ⟨trace, u, steps, fun w mem => within w (List.mem_append_left _ mem),
      .inr ⟨failed, ?_, ?_⟩⟩
    · rw [visits_append] at begun
      have first := List.prefix_append (visits r.below.length (r.start + 1) trace)
        (visits r.below.length (r.start + 1) [u])
      rw [begun] at first
      exact first.trans (List.prefix_append [_] _)
    · rw [ended]
      exact List.nil_prefix

/-- From any round on, a loop completes. -/
theorem Region.rounds_complete (isLoop : r.nodes = [.loop line item collection body endLine])
    (fits : r.outer.length + (free + 1) = r.template.program.slotCount) (left : Nat) :
    ∀ {l : Loop} {v : Value}, l.items.length = l.index + 1 + left →
      l.Runs env r.base r.start item collection v → ∀ output,
        ∃ trace u, Loops env r (free + 1) (r.start + 1 + sizes body) (bindings r.base l)
          ((r.round isLoop l v).stateAt (r.start + 1) free output) trace u := by
  induction left with
  | zero =>
      intro l v count runs
      have last : l.items[l.index + 1]? = none := List.getElem?_eq_none (Nat.le_of_eq count)
      have none_left : bindings r.base { l with index := l.index + 1 } = [] := by
        rw [bindings, List.drop_eq_nil_of_le (by simp only [List.length_zipIdx]; omega)]
        rfl
      refine round_completes isLoop fits runs fun output => ?_
      refine ⟨r.stateAt (r.start + 1 + sizes body + 1) (free + 1) output, [],
        r.stateAt (r.start + 1 + sizes body + 1) (free + 1) output, ?_, ?_⟩
      · rw [step_endFor isLoop runs, last]
      · rw [none_left]
        exact .behind ..
  | succ left ih =>
      intro l v count runs
      obtain ⟨w, more⟩ : ∃ w, l.items[l.index + 1]? = some w :=
        ⟨_, List.getElem?_eq_getElem (by omega)⟩
      refine round_completes isLoop fits runs fun output => ?_
      obtain ⟨trace, u, loops⟩ := ih (l := { l with index := l.index + 1 })
        (by simp only; omega) (runs.next more) output
      refine ⟨_, trace, u, ?_, loops⟩
      rw [step_endFor isLoop runs, more]

/-- The beginning of a loop is no position that is counted. -/
theorem Loops.begun {last : Nat} {rounds : List (Dict Value)} {t u : State} {trace : List State}
    {output : String} (next : step env (r.stateAt r.start free output) = .next t)
    (later : r.start < last) (loops : Loops env r free last rounds t trace u) :
    Loops env r free last rounds (r.stateAt r.start free output)
      (r.stateAt r.start free output :: trace) u := by
  have elsewhere : ∀ ip, r.start < ip →
      (r.stateAt r.start free output).isAt r.below.length ip = false := by
    intro ip after
    rw [Bool.eq_false_iff]
    simp only [Region.stateAt, Region.frame, State.isAt, ne_eq, Bool.and_eq_true, beq_iff_eq]
    omega
  have unvisited : ∀ ip, r.start < ip →
      visits r.below.length ip [r.stateAt r.start free output] = [] := fun ip after =>
    visits_none (List.forall_mem_singleton.2 (elsewhere ip after))
  obtain ⟨steps, inside, outcome⟩ := loops
  refine ⟨.next next steps, List.forall_mem_cons.2 ⟨elsewhere _ (by omega), inside⟩, ?_⟩
  rwa [← List.singleton_append, visits_append, visits_append, unvisited _ (by omega),
    unvisited _ later, List.nil_append, List.nil_append]

/-- From its begin operation on, a loop over any items completes. -/
theorem Region.loop_completes (isLoop : r.nodes = [.loop line item collection body endLine])
    (fits : r.outer.length + free = r.template.program.slotCount) {items : List Value}
    (resolved : env.items r.base collection = .ok items) (output : String) :
    ∃ trace u, Loops env r free (r.start + 1 + sizes body)
      (items.zipIdx.map fun (v, index) => bindItem r.base item v index)
      (r.stateAt r.start free output) trace u := by
  have placed := r.placed
  have within := r.within
  rw [isLoop] at placed within
  have room := placed.head_room
  simp only [Node.depth] at room
  simp only [sizes, Node.size] at within
  obtain ⟨free, rfl⟩ : ∃ free', free = free' + 1 := ⟨free - 1, by omega⟩
  obtain ⟨begun, -, -⟩ := placed.loop
  have running : r.start < r.stop := by omega
  have forward : r.start < r.start + 1 + sizes body := by omega
  cases items with
  | nil =>
      refine ⟨_, _, .begun ?_ forward (.behind env r (free + 1) _ output)⟩
      rw [stateAt, frame,
        step_of_go running begun (exec_beginFor_nil resolved (Nat.le_of_lt forward)),
        String.append_empty]
      rfl
  | cons v items =>
      let l : Loop := ⟨item, v :: items, 0, r.base.find? item, r.base.find? (indexName item),
        r.start + 1⟩
      obtain ⟨trace, u, loops⟩ := rounds_complete (l := l) isLoop fits items.length
        (by simp only [l, List.length_cons]; omega) ⟨rfl, rfl, resolved, rfl, rfl, rfl⟩ output
      refine ⟨_, u, .begun ?_ forward loops⟩
      rw [stateAt, frame, step_of_go running begun (exec_beginFor_cons resolved),
        String.append_empty]
      simp only [stateAt, frame, round, List.append_assoc, List.singleton_append, l]

end

/-- A loop that is placed where its begin operation is found is this loop. -/
theorem loop_of_placed {p : Program} {ip depth slot endAt line : Nat} {item : String}
    {collection : Expr} {node : Node} (placed : Placed p ip depth [node])
    (found : p.instrs[ip]? = some ⟨.beginFor item collection slot endAt, line⟩) :
    ∃ body endLine, node = .loop line item collection body endLine ∧
      endAt = ip + 1 + sizes body := by
  cases node with
  | loop line item collection body endLine =>
      have same := Option.some.inj (placed.loop.1.symm.trans found)
      simp only [Instr.mk.injEq, Op.beginFor.injEq] at same
      obtain ⟨⟨rfl, rfl, -, rfl⟩, rfl⟩ := same
      exact ⟨body, endLine, rfl, rfl⟩
  | text | output | call => cases Option.some.inj (placed.head.head.symm.trans found)
  | ifThen => cases Option.some.inj (placed.ifThen.1.symm.trans found)
  | ifElse => cases Option.some.inj (placed.ifElse.1.symm.trans found)
  | block => cases Option.some.inj (placed.block.1.symm.trans found)

/-- **The rounds of a loop.** A loop over items that is entered in a render is left again with the
same frames and the same local variables; it has then been at the beginning and at the end of its
body exactly once for each item, in order, with the item and its position bound. If an operation
fails before, it has been there for the first of the items. -/
theorem Reached.loop_completes {t : Template} {env : Env} {s : State} {f : Frame}
    {rest : List Frame} {item : String} {collection : Expr} {slot endAt : Nat}
    {items : List Value} (reached : Reached t env s)
    (executes : s.Executes f rest (.beginFor item collection slot endAt))
    (resolved : env.items s.locals collection = .ok items) :
    let rounds := items.zipIdx.map fun (v, index) => bindItem s.locals item v index
    ∃ trace u, Steps env s trace u ∧
      (∀ w ∈ trace, w.isAt rest.length (endAt + 1) = false) ∧
        ((u.frames = { f with ip := endAt + 1 } :: rest ∧ u.locals = s.locals) ∧
            visits rest.length (f.ip + 1) trace = rounds ∧ visits rest.length endAt trace = rounds ∨
          (∃ e, Machine.step env u = .failed e) ∧
            visits rest.length (f.ip + 1) trace <+: rounds ∧
            visits rest.length endAt trace <+: rounds) := by
  intro rounds
  obtain ⟨r, free, node, fits, nodes, same⟩ := reached.exists_region executes rfl
  obtain ⟨top, -, line, found⟩ := executes
  rw [same] at top
  obtain ⟨rfl, rfl⟩ := List.cons.inj top
  have placed := r.placed
  rw [nodes] at placed
  obtain ⟨body, endLine, rfl, rfl⟩ := loop_of_placed placed found
  have base : s.locals = r.base := by rw [same]; rfl
  rw [base] at resolved
  obtain ⟨trace, u, steps, inside, outcome⟩ := r.loop_completes nodes fits resolved s.output
  rw [← same] at steps
  refine ⟨trace, u, steps, inside, ?_⟩
  simp only [rounds, base]
  refine outcome.imp_left fun ⟨⟨output, last⟩, counts⟩ => ⟨?_, counts⟩
  rw [last]
  exact ⟨rfl, rfl⟩

end BraceTemplate.Machine
