/-
# BraceTemplate.Render.Termination — every run ends

Within a frame, each step goes forward or back to the beginning of a loop that then has fewer items
left. Seen from the first position on, the items left of the loops that began before the current
position, and beyond it nothing yet, decrease lexicographically: `Progress` says so and
`progress_wf` that it cannot go on forever. A frame that is entered replaces a block that no frame
below replaces, so frames nest no deeper than there are names; `next_wf` puts both together.
-/
import BraceTemplate.Render.Machine

namespace BraceTemplate.Machine

set_option autoImplicit false

/-! ## Within a frame -/

/-- The items left in a slot, the current one counted, if it holds a loop that began at a position. -/
def Slot.left (start : Nat) : Slot → Nat
  | .loop l => if l.bodyAt = start + 1 then l.items.length - l.index else 0
  | _ => 0

/-- The items left of the loops that began at a position. -/
def left (slots : List Slot) (start : Nat) : Nat :=
  slots.foldr (fun s n => s.left start + n) 0

theorem left_set {slots : List Slot} {i : Nat} {old : Slot} (h : slots[i]? = some old)
    (new : Slot) (start : Nat) :
    left (slots.set i new) start + old.left start = left slots start + new.left start := by
  induction slots generalizing i with
  | nil => simp at h
  | cons s rest ih =>
    cases i with
    | zero =>
      simp only [List.getElem?_cons_zero, Option.some.injEq] at h
      subst h
      simp only [left, List.set_cons_zero, List.foldr_cons]
      omega
    | succ i =>
      have := ih (by simpa using h)
      simp only [left, List.set_cons_succ, List.foldr_cons] at this ⊢
      omega

theorem left_set_le {slots : List Slot} {i : Nat} {new : Slot} {start : Nat}
    (h : new.left start = 0) : left (slots.set i new) start ≤ left slots start := by
  rcases Nat.lt_or_ge i slots.length with hi | hi
  · have := left_set (List.getElem?_eq_getElem hi) new start
    omega
  · exact Nat.le_of_eq (by rw [List.set_eq_of_length_le hi])

/-- How a step within a range that ends at `stop` changes position and slots: forward, without more
items left for the loops begun before; or back to the body of a loop that has fewer items left. -/
def Progress (stop : Nat) (after before : Nat × List Slot) : Prop :=
  before.1 < stop ∧
    ((before.1 < after.1 ∧ ∀ b < before.1, left after.2 b ≤ left before.2 b) ∨
      ∃ b < before.1, after.1 = b + 1 ∧ left after.2 b < left before.2 b ∧
        ∀ c < b, left after.2 c ≤ left before.2 c)

/-- All that a state at or behind position `i` can go back to in front of `i` is accessible. -/
def BackAccessible (stop i : Nat) (s : Nat × List Slot) : Prop :=
  ∀ b < i, ∀ t : Nat × List Slot, t.1 = b + 1 → left t.2 b < left s.2 b →
    (∀ c < b, left t.2 c ≤ left s.2 c) → Acc (Progress stop) t

theorem BackAccessible.of_le {stop i : Nat} {s t : Nat × List Slot}
    (h : BackAccessible stop i s) (hle : ∀ b < i, left t.2 b ≤ left s.2 b) :
    BackAccessible stop i t := fun b hb u hu hlt hc =>
  h b hb u hu (Nat.lt_of_lt_of_le hlt (hle b hb)) fun c hcb =>
    Nat.le_trans (hc c hcb) (hle c (Nat.lt_trans hcb hb))

theorem acc_of_backAccessible {stop : Nat} : ∀ (d i : Nat), stop ≤ i + d →
    ∀ s : Nat × List Slot, i ≤ s.1 → BackAccessible stop i s → Acc (Progress stop) s
  | 0, i, hd, s, hs, _ => ⟨s, fun t ht => absurd ht.1 (by omega)⟩
  | d + 1, i, hd, s, hs, hback => by
      have later : ∀ (n : Nat) (s : Nat × List Slot), left s.2 i = n → i < s.1 →
          BackAccessible stop i s → Acc (Progress stop) s := by
        intro n
        induction n using Nat.strongRecOn with
        | ind n ih =>
          intro s hn hs hback
          refine acc_of_backAccessible d (i + 1) (by omega) s hs fun b hb t ht hlt hc => ?_
          rcases Nat.lt_or_ge b i with hbi | hbi
          · exact hback b hbi t ht hlt hc
          · obtain rfl : b = i := by omega
            exact ih _ (by omega) t rfl (by omega) (hback.of_le hc)
      rcases Nat.lt_or_ge i s.1 with hlt | hge
      · exact later _ s rfl hlt hback
      · obtain rfl : i = s.1 := by omega
        refine ⟨s, fun t ht => ?_⟩
        obtain ⟨-, hforward | ⟨b, hb, htb, hlt, hc⟩⟩ := ht
        · exact later _ t rfl hforward.1 (hback.of_le hforward.2)
        · exact hback b hb t htb hlt hc

theorem progress_wf (stop : Nat) : WellFounded (Progress stop) :=
  ⟨fun s => acc_of_backAccessible stop 0 (by omega) s (Nat.zero_le _)
    fun _ hb => absurd hb (Nat.not_lt_zero _)⟩

/-! ## One operation -/

section Exec

variable {env : Env} {names : List String} {ip : Nat} {slots : List Slot} {locals : Dict Value}
  {output : String} {stop : Nat}

theorem progress_forward {ip' : Nat} {slots' : List Slot} (hip : ip < stop) (h : ip < ip')
    (hs : ∀ b < ip, left slots' b ≤ left slots b) : Progress stop (ip', slots') (ip, slots) :=
  ⟨hip, .inl ⟨h, hs⟩⟩

theorem progress_of_jump {target ip' : Nat} {slots₁ slots' : List Slot} {locals' : Dict Value}
    {added : String} (hip : ip < stop) (hs : ∀ b < ip, left slots₁ b ≤ left slots b)
    (h : jump ip locals target slots₁ = .go ip' slots' locals' added) :
    Progress stop (ip', slots') (ip, slots) := by
  simp only [jump] at h
  split at h
  · next hlt =>
    obtain ⟨rfl, rfl, -, -⟩ := Move.go.inj h
    exact progress_forward hip hlt hs
  · cases h

theorem progress_of_endLoop {slot bodyAt ip' : Nat} {l : Loop} {slots' : List Slot}
    {locals' : Dict Value} {added : String} (hip : ip < stop) (hslot : slots[slot]? = some (.loop l))
    (h : endLoop ip slots locals slot bodyAt l = .go ip' slots' locals' added) :
    Progress stop (ip', slots') (ip, slots) := by
  simp only [endLoop] at h
  split at h
  case isFalse => cases h
  case isTrue hbody =>
    obtain ⟨hl, hpos, hle⟩ := hbody
    split at h
    · next v hnext =>
      simp only [withSlot] at h
      split at h
      case isFalse => cases h
      obtain ⟨rfl, rfl, -, -⟩ := Move.go.inj h
      refine ⟨hip, .inr ⟨bodyAt - 1, by omega, by simp only; omega, ?_, fun c hc => ?_⟩⟩
      · have hset := left_set hslot (.loop { l with index := l.index + 1 }) (bodyAt - 1)
        have hb : l.bodyAt = bodyAt - 1 + 1 := by omega
        have hlt : l.index + 1 < l.items.length := (List.getElem?_eq_some_iff.1 hnext).1
        have hold : (Slot.loop l).left (bodyAt - 1) = l.items.length - l.index := by
          simp only [Slot.left, if_pos hb]
        have hnew : (Slot.loop { l with index := l.index + 1 }).left (bodyAt - 1) =
            l.items.length - (l.index + 1) := by
          simp only [Slot.left, if_pos hb]
        rw [hold, hnew] at hset
        simp only
        omega
      · refine left_set_le ?_
        have hb : l.bodyAt ≠ c + 1 := by omega
        simp only [Slot.left, if_neg hb]
    · simp only [withSlot] at h
      split at h
      case isFalse => cases h
      obtain ⟨rfl, rfl, -, -⟩ := Move.go.inj h
      exact progress_forward hip (by omega) fun b _ => left_set_le rfl

theorem progress_of_beginLoop {item : String} {slot endAt ip' : Nat} {items : List Value}
    {slots' : List Slot} {locals' : Dict Value} {added : String} (hip : ip < stop)
    (h : beginLoop ip slots locals item slot endAt items =
      .go ip' slots' locals' added) :
    Progress stop (ip', slots') (ip, slots) := by
  cases items with
  | nil =>
    simp only [beginLoop, withSlot] at h
    split at h
    case isFalse => cases h
    exact progress_of_jump hip (fun b _ => left_set_le rfl) h
  | cons v rest =>
    simp only [beginLoop, withSlot] at h
    split at h
    case isFalse => cases h
    obtain ⟨rfl, rfl, -, -⟩ := Move.go.inj h
    refine progress_forward hip (by omega) fun b hb => left_set_le ?_
    have hne : ip + 1 ≠ b + 1 := by omega
    simp only [Slot.left, if_neg hne]

theorem progress_of_exec {op : Op} {ip' : Nat} {slots' : List Slot} {locals' : Dict Value}
    {added : String} (hip : ip < stop)
    (h : exec env names ip slots locals output op = .go ip' slots' locals' added) :
    Progress stop (ip', slots') (ip, slots) := by
  have same : Progress stop (ip + 1, slots) (ip, slots) :=
    progress_forward hip (by omega) fun _ _ => Nat.le_refl _
  cases op with
  | text s => obtain ⟨rfl, rfl, -, -⟩ := Move.go.inj h; exact same
  | endBlock => obtain ⟨rfl, rfl, -, -⟩ := Move.go.inj h; exact same
  | output expr =>
    simp only [exec] at h
    split at h
    · obtain ⟨rfl, rfl, -, -⟩ := Move.go.inj h; exact same
    · cases h
  | call name arguments =>
    simp only [exec] at h
    split at h
    · obtain ⟨rfl, rfl, -, -⟩ := Move.go.inj h; exact same
    · cases h
  | beginIf condition slot elseAt endAt =>
    simp only [exec] at h
    split at h
    · simp only [withSlot] at h
      split at h
      · exact progress_of_jump hip (fun b _ => left_set_le rfl) h
      · cases h
    · cases h
  | orElse slot endAt =>
    simp only [exec] at h
    split at h
    · exact progress_of_jump hip (fun _ _ => Nat.le_refl _) h
    · cases h
  | endIf slot =>
    simp only [exec, withSlot] at h
    split at h
    · obtain ⟨rfl, rfl, -, -⟩ := Move.go.inj h
      exact progress_forward hip (by omega) fun b _ => left_set_le rfl
    · cases h
  | beginFor item collection slot endAt =>
    simp only [exec] at h
    split at h
    · exact progress_of_beginLoop hip h
    · cases h
  | endFor slot bodyAt =>
    simp only [exec] at h
    split at h
    · next hslot => exact progress_of_endLoop hip hslot h
    · cases h
  | beginBlock name endAt =>
    simp only [exec] at h
    split at h
    · obtain ⟨rfl, rfl, -, -⟩ := Move.go.inj h; exact same
    · split at h <;> cases h

theorem enter_of_exec {op : Op} {name : String} {body : Override} {resume : Nat}
    (h : exec env names ip slots locals output op = .enter name body resume) :
    (∃ endAt, op = .beginBlock name endAt) ∧ ip < resume ∧
      env.override? names name = some body := by
  cases op with
  | beginBlock n endAt =>
    simp only [exec] at h
    split at h
    · cases h
    · next b hb =>
      split at h
      · obtain ⟨rfl, rfl, rfl⟩ := Move.enter.inj h
        exact ⟨⟨endAt, rfl⟩, by omega, hb⟩
      · cases h
  | text s => cases h
  | endBlock => cases h
  | output expr => simp only [exec] at h; split at h <;> cases h
  | call n arguments => simp only [exec] at h; split at h <;> cases h
  | beginIf condition slot elseAt endAt =>
    simp only [exec, withSlot, jump] at h
    repeat' split at h
    all_goals cases h
  | orElse slot endAt =>
    simp only [exec, jump] at h
    repeat' split at h
    all_goals cases h
  | endIf slot =>
    simp only [exec, withSlot] at h
    split at h <;> cases h
  | beginFor item collection slot endAt =>
    simp only [exec] at h
    split at h
    · next items _ =>
      cases items <;> simp only [beginLoop, withSlot, jump] at h
      all_goals
        repeat' split at h
        all_goals cases h
    · cases h
  | endFor slot bodyAt =>
    simp only [exec, endLoop, withSlot] at h
    repeat' split at h
    all_goals cases h

end Exec

/-! ## The stack of frames -/

/-- `after` comes from `before` by one step. -/
def Next (env : Env) (after before : State) : Prop :=
  step env before = .next after

theorem acc_cons {env : Env} : ∀ (k : Nat) (f : Frame) (rest : List Frame),
    (env.inactive (active (f :: rest))).length ≤ k →
    (∀ locals output, Acc (Next env) ⟨rest, locals, output⟩) →
    ∀ locals output, Acc (Next env) ⟨f :: rest, locals, output⟩ := by
  intro k
  induction k using Nat.strongRecOn with
  | ind k outer =>
    intro f rest hk hrest
    have inner : ∀ p : Nat × List Slot, ∀ locals output,
        Acc (Next env) ⟨{ f with ip := p.1, slots := p.2 } :: rest, locals, output⟩ := by
      intro p
      induction p using (progress_wf f.stop).induction with
      | _ p ih =>
        intro locals output
        refine ⟨_, fun t ht => ?_⟩
        simp only [Next, step] at ht
        split at ht
        · next hip =>
          split at ht
          · cases ht
          · next instr _ =>
            split at ht
            · next ip slots locals' added hexec =>
              obtain rfl := Step.next.inj ht
              exact ih (ip, slots) (progress_of_exec hip hexec) locals' _
            · next name body resume hexec =>
              obtain rfl := Step.next.inj ht
              obtain ⟨-, hresume, hoverride⟩ := enter_of_exec hexec
              have hlt := Env.length_inactive_cons hoverride
              refine outer _ (Nat.lt_of_lt_of_le hlt hk) _ _ (Nat.le_refl _)
                (fun locals output => ?_) _ _
              exact ih (resume, p.2) (progress_forward hip hresume fun _ _ => Nat.le_refl _)
                locals output
            · cases ht
            · cases ht
        · obtain rfl := Step.next.inj ht
          exact hrest _ _
    exact inner (f.ip, f.slots)

theorem next_wf (env : Env) : WellFounded (Next env) := by
  refine ⟨fun s => ?_⟩
  obtain ⟨frames, locals, output⟩ := s
  induction frames generalizing locals output with
  | nil => exact ⟨_, fun t ht => by simp [Next, step] at ht⟩
  | cons f rest ih => exact acc_cons _ f rest (Nat.le_refl _) ih locals output

end BraceTemplate.Machine
