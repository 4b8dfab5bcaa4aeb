/-
# BraceTemplate.Proofs.Render.Nesting — how far a render can go

Overrides may contain blocks of any name, their own among them. But a block is replaced only while
its name is not being replaced already, so the names that are being replaced are different from
each other, and never more than are registered (`Region.Holds.distinct`). A render always ends, with
a text or an error, and so do the overrides and loops in it (`render_ends`).
-/
import Mathlib
import BraceTemplate.Proofs.Render.Rounds

namespace BraceTemplate

set_option autoImplicit false

namespace Machine

variable {t : Template} {env : Env} {s : State}

/-- Different registered names are being replaced, by one frame each. -/
def Distinct (env : Env) (frames : List Frame) : Prop :=
  (active frames).Nodup ∧ (∀ name ∈ active frames, name ∈ env.overrides.keys) ∧
    frames.length ≤ (active frames).length + 1

theorem Region.Holds.distinct {position : Nat} {frames : List Frame} {locals : Dict Value}
    {todo : Completion} (holds : (Region.whole t).Holds env position frames locals todo) :
    Distinct env frames := by
  induction holds with
  | own => exact ⟨.nil, List.forall_mem_nil _, Nat.le_refl _⟩
  | replaced outside past chosen placed fits mid ih =>
      obtain ⟨nodup, registered, length⟩ := ih
      obtain ⟨fresh, found⟩ := Env.override?_eq_some.1 chosen
      exact ⟨List.nodup_cons.2 ⟨fresh, nodup⟩,
        List.forall_mem_cons.2 ⟨Dict.mem_keys_of_find? found, registered⟩,
        Nat.succ_le_succ length⟩

theorem Reached.distinct (reached : Reached t env s) : Distinct env s.frames := by
  rcases reached.rendering with ⟨_, _, holds, -⟩ | ⟨none, -⟩
  · exact holds.distinct
  · rw [none]
    exact ⟨.nil, List.forall_mem_nil _, Nat.zero_le _⟩

/-- Overrides are nested at most as deep as there are registered names. -/
theorem Distinct.depth_le {frames : List Frame} (distinct : Distinct env frames) :
    (active frames).length ≤ env.overrides.keys.dedup.length :=
  (List.subperm_of_subset distinct.1 fun name mem =>
    List.mem_dedup.2 (distinct.2.1 name mem)).length_le

/-- The last state of a render is that with the text, or one in which an operation fails. -/
theorem Reached.last (reached : Reached t env s) (stays : ∀ u, step env s ≠ .next u) :
    (∃ output, step env s = .done output) ∨ ∃ e, step env s = .failed e := by
  have outcome := rendering_step reached.rendering
  cases ended : step env s with
  | next u => exact absurd ended (stays u)
  | done output => exact .inl ⟨output, rfl⟩
  | failed e => exact .inr ⟨e, rfl⟩
  | fault f =>
      rw [ended] at outcome
      exact outcome.elim

/-- The outcome of a render is that of the last state that its steps lead to. -/
theorem Steps.render_eq {trace : List State} {last : State}
    (steps : Steps env (initial t) trace last) : t.render env = run env last :=
  steps.run_eq

/-- **A render ends.** Whatever the overrides contain, a render comes in finitely many steps to a
text or to an error, and this is its outcome. In every state on the way, the names that are being
replaced are different from each other and registered, so overrides are nested no deeper than there
are names; an override that is begun ends with the same names being replaced as before it; and a
loop that is entered goes through its body exactly once for each of its items. -/
theorem render_ends (t : Template) (env : Env) :
    ((∃ text, t.render env = .text text) ∨ ∃ e, t.render env = .failed e) ∧
    (∃ trace last, Steps env (initial t) trace last ∧
      ((∃ output, step env last = .done output ∧ t.render env = .text output) ∨
        ∃ e, step env last = .failed e ∧ t.render env = .failed e)) ∧
    ∀ s, Reached t env s →
      (active s.frames).Nodup ∧ (∀ name ∈ active s.frames, name ∈ env.overrides.keys) ∧
      (active s.frames).length ≤ env.overrides.keys.dedup.length ∧
      s.frames.length ≤ (active s.frames).length + 1 ∧
      (∀ u, step env s = .next u → s.frames.length < u.frames.length →
        LeadsTo env u (fun w => s.frames.length < w.frames.length) fun w =>
          w.frames.length = s.frames.length ∧ active w.frames = active s.frames) ∧
      ∀ (f : Frame) (rest : List Frame) (item : String) (collection : Expr) (slot endAt : Nat)
        (items : List Value), s.Executes f rest (.beginFor item collection slot endAt) →
        env.items s.locals collection = .ok items →
          let rounds := items.zipIdx.map fun (v, index) => bindItem s.locals item v index
          ∃ trace u, Steps env s trace u ∧
            (∀ w ∈ trace, w.isAt rest.length (endAt + 1) = false) ∧
              (u.isAt rest.length (endAt + 1) ∧
                  visits rest.length (f.ip + 1) trace = rounds ∧
                  visits rest.length endAt trace = rounds ∨
                (∃ e, step env u = .failed e) ∧
                  visits rest.length (f.ip + 1) trace <+: rounds ∧
                  visits rest.length endAt trace <+: rounds) := by
  refine ⟨?_, ?_, fun s reached => ⟨reached.distinct.1, reached.distinct.2.1,
    reached.distinct.depth_le, reached.distinct.2.2, ?_, ?_⟩⟩
  · rw [render_eq_meaning]
    cases t.meaning env with
    | ok text => exact .inl ⟨text, rfl⟩
    | error e => exact .inr ⟨e, rfl⟩
  · obtain ⟨trace, last, steps, stays⟩ := exists_last env (initial t)
    refine ⟨trace, last, steps, ?_⟩
    rw [steps.render_eq]
    rcases Reached.last ⟨trace, steps⟩ stays with ⟨output, done⟩ | ⟨e, failed⟩
    · exact .inl ⟨output, done, run_of_done done⟩
    · exact .inr ⟨e, failed, run_of_failed failed⟩
  · intro u next deeper
    obtain ⟨trace, w, steps, inside, outcome⟩ := reached.override_completes next deeper
    exact ⟨trace, w, steps, inside, outcome.imp_left fun ⟨length, same, _⟩ => ⟨length, same⟩⟩
  · intro f rest item collection slot endAt items executes resolved
    obtain ⟨trace, u, steps, inside, outcome⟩ := reached.loop_completes executes resolved
    refine ⟨trace, u, steps, inside, outcome.imp_left ?_⟩
    rintro ⟨⟨frames, -⟩, counts⟩
    exact ⟨by rw [State.isAt, frames]; simp, counts⟩

/-- Overrides that contain each other: a loop in the first of them goes through its body twice. -/
theorem render_ends_cycle :
    let b := Template.ofNodes "b" [.loop 1 "x" ⟨"xs", [], []⟩ [.block 1 "c" [] 1] 1]
    let c := Template.ofNodes "c" [.block 1 "b" [.text 1 "+"] 1, .block 1 "c" [] 1]
    let t := Template.ofNodes "page" [.block 1 "b" [] 1]
    let env : Env :=
      { globals := Context.ofEntries [("xs", .list [.int 1, .int 2])], modifiers := []
        callables := [], overrides := [("b", .whole b), ("c", .whole c)] }
    t.render env = .text "++" ∧
    (∃ trace last, Steps env (initial t) trace last ∧ step env last = .done "++") ∧
    (∃ s, Reached t env s ∧ active s.frames = ["c", "b"] ∧ (active s.frames).Nodup) ∧
    ∃ s trace u, Reached t env s ∧ active s.frames = ["b"] ∧ Steps env s trace u ∧
      ((visits 1 1 trace).length = 2 ∨ ∃ e, step env u = .failed e) := by
  intro b c t env
  obtain ⟨-, ⟨way, last, steps, ended⟩, states⟩ := render_ends t env
  have means : t.meaning env = .ok "++" := by cbv
  have text : t.render env = .text "++" := by
    rw [render_eq_meaning, means]
    rfl
  have done : step env last = .done "++" := by
    rcases ended with ⟨output, done, same⟩ | ⟨e, -, same⟩
    · obtain rfl := Outcome.text.inj (text.symm.trans same)
      exact done
    · cases text.symm.trans same
  have first : (after? env 1 (initial t)).map (fun s => (s.frames, s.locals)) =
      some ([⟨b, some "b", 4, 0, [.empty, .empty]⟩, ⟨t, none, 2, 2, [.empty]⟩], []) := by
    rfl
  have third : (after? env 3 (initial t)).map (fun s => active s.frames) = some ["c", "b"] := by
    rfl
  obtain ⟨s, after, same⟩ := Option.map_eq_some_iff.1 first
  obtain ⟨frames, locals⟩ := Prod.mk.inj same
  obtain ⟨s', after', names⟩ := Option.map_eq_some_iff.1 third
  have reached : Reached t env s := steps_of_after? after
  have reached' : Reached t env s' := steps_of_after? after'
  have resolved : env.items s.locals ⟨"xs", [], []⟩ = .ok [.int 1, .int 2] := by
    rw [locals]
    rfl
  refine ⟨text, ⟨way, last, steps, done⟩, ⟨s', reached', names, (states s' reached').1⟩, ?_⟩
  obtain ⟨-, -, -, -, -, loops⟩ := states s reached
  obtain ⟨trace, u, steps, -, outcome⟩ := loops _ _ "x" ⟨"xs", [], []⟩ 0 3
    [.int 1, .int 2] ⟨frames, by decide, 1, rfl⟩ resolved
  refine ⟨s, trace, u, reached, by rw [frames]; rfl, steps, outcome.imp ?_ And.left⟩
  rintro ⟨-, begun, -⟩
  rw [show visits 1 1 trace = _ from begun]
  rfl

end Machine

end BraceTemplate
