/-
# BraceTemplate.Dict — dictionaries with keys in ascending order

A dictionary is a list of entries. `insert` keeps the keys in ascending code-point order and each
key once; `Ascending` says that they are so. Contexts, maps, registries and call arguments are
dictionaries, so their keys are listed in one order whatever order they were added in.

* `find?_insert`, `find?_erase`: what an operation does to look-ups, for any list of entries;
* `Ascending.insert`, `Ascending.erase`: the order is kept;
* `Ascending.ext`: dictionaries in order with the same look-ups are equal;
* `perm_ofEntries`: entries with distinct keys are all kept;
* `ofEntries_of_perm`: in which order they are put in does not matter;
* `ofEntries_of_ascending`: a dictionary is the one of its own entries.
-/

namespace BraceTemplate

set_option autoImplicit false

/-- Entries by key. -/
abbrev Dict (α : Type) := List (String × α)

namespace Dict

variable {α : Type}

/-- The value under a key. -/
def find? (d : Dict α) (key : String) : Option α :=
  match d with
  | [] => none
  | (k, v) :: rest => if k = key then some v else find? rest key

/-- Whether there is a value under a key. -/
def contains (d : Dict α) (key : String) : Bool :=
  (d.find? key).isSome

/-- The keys in their order. -/
def keys (d : Dict α) : List String :=
  d.map Prod.fst

/-- Puts a value under a key, in place of the value that was there. -/
def insert (d : Dict α) (key : String) (value : α) : Dict α :=
  match d with
  | [] => [(key, value)]
  | (k, v) :: rest =>
      if key < k then (key, value) :: (k, v) :: rest
      else if k = key then (key, value) :: rest
      else (k, v) :: insert rest key value

/-- Removes the value under a key. -/
def erase (d : Dict α) (key : String) : Dict α :=
  match d with
  | [] => []
  | (k, v) :: rest => if k = key then erase rest key else (k, v) :: erase rest key

/-- Puts a value under a key, or removes what is there. -/
def assign (d : Dict α) (key : String) : Option α → Dict α
  | some value => d.insert key value
  | none => d.erase key

/-- The dictionary of a list of entries; of entries with one key the last is kept. -/
def ofEntries (entries : List (String × α)) : Dict α :=
  entries.foldl (fun d entry => d.insert entry.1 entry.2) []

/-- The keys ascend strictly, so each occurs once. -/
def Ascending (d : Dict α) : Prop :=
  d.Pairwise fun a b => a.1 < b.1

instance (d : Dict α) : Decidable (Ascending d) :=
  inferInstanceAs (Decidable (d.Pairwise fun a b => a.1 < b.1))

/-! ## Look-ups -/

@[simp] theorem find?_nil (key : String) : find? ([] : Dict α) key = none := rfl

theorem find?_cons (k : String) (v : α) (rest : Dict α) (key : String) :
    find? ((k, v) :: rest) key = if k = key then some v else find? rest key := rfl

theorem find?_insert (d : Dict α) (key : String) (value : α) (other : String) :
    (d.insert key value).find? other = if key = other then some value else d.find? other := by
  induction d with
  | nil => simp [insert, find?]
  | cons entry rest ih =>
    obtain ⟨k, v⟩ := entry
    simp only [insert]
    split
    · simp [find?]
    · split
      · next hk => subst hk; by_cases h : k = other <;> simp [find?, h]
      · next hk =>
        simp only [find?, ih]
        by_cases h : k = other
        · subst h; simp [Ne.symm hk]
        · simp [h]

theorem find?_erase (d : Dict α) (key other : String) :
    (d.erase key).find? other = if key = other then none else d.find? other := by
  induction d with
  | nil => simp [erase]
  | cons entry rest ih =>
    obtain ⟨k, v⟩ := entry
    by_cases hk : k = key
    · subst hk
      by_cases h : k = other
      · subst h; simpa [erase] using ih
      · simp [erase, ih, find?, h]
    · by_cases h : k = other
      · subst h; simp [erase, hk, find?, Ne.symm hk]
      · simp [erase, hk, find?, h, ih]

theorem find?_eq_none_of_forall_ne {d : Dict α} {key : String} (h : ∀ e ∈ d, e.1 ≠ key) :
    d.find? key = none := by
  induction d with
  | nil => rfl
  | cons entry rest ih =>
    obtain ⟨k, v⟩ := entry
    have hk : k ≠ key := h (k, v) (by simp)
    simp [find?, hk, ih fun e he => h e (by simp [he])]

theorem mem_keys_iff {d : Dict α} {key : String} : key ∈ d.keys ↔ (d.find? key).isSome := by
  induction d with
  | nil => simp [keys]
  | cons e rest ih =>
    simp only [find?, keys, List.map_cons, List.mem_cons] at ih ⊢
    split
    · next hk => simp [hk]
    · next hk => simp [← ih, Ne.symm hk]

theorem mem_keys_of_find? {d : Dict α} {key : String} {v : α}
    (h : d.find? key = some v) : key ∈ d.keys := by
  simp [mem_keys_iff, h]

/-! ## Order -/

theorem mem_insert {d : Dict α} {key : String} {value : α} {e : String × α}
    (h : e ∈ d.insert key value) : e = (key, value) ∨ e ∈ d := by
  induction d with
  | nil => simpa [insert] using h
  | cons entry rest ih =>
    obtain ⟨k, v⟩ := entry
    simp only [insert] at h
    split at h
    · simpa using h
    · split at h
      · rcases List.mem_cons.1 h with h | h
        · exact .inl h
        · exact .inr (by simp [h])
      · rcases List.mem_cons.1 h with h | h
        · exact .inr (by simp [h])
        · rcases ih h with h | h
          · exact .inl h
          · exact .inr (by simp [h])

theorem lt_of_not_lt_of_ne {a b : String} (h : ¬ a < b) (hne : b ≠ a) : b < a := by
  rcases Decidable.em (b < a) with hba | hba
  · exact hba
  · exact absurd (String.le_antisymm h hba) hne

theorem ascending_nil : Ascending ([] : Dict α) := List.Pairwise.nil

theorem Ascending.insert {d : Dict α} (h : Ascending d) (key : String) (value : α) :
    Ascending (d.insert key value) := by
  induction d with
  | nil => simp [Dict.insert, Ascending]
  | cons entry rest ih =>
    obtain ⟨k, v⟩ := entry
    have ⟨hhead, htail⟩ := List.pairwise_cons.1 h
    simp only [Dict.insert]
    split
    · next hlt =>
      refine List.pairwise_cons.2 ⟨fun e he => ?_, h⟩
      rcases List.mem_cons.1 he with rfl | he
      · exact hlt
      · exact String.lt_trans hlt (hhead e he)
    · next hlt =>
      split
      · next hk => subst hk; exact List.pairwise_cons.2 ⟨hhead, htail⟩
      · next hk =>
        refine List.pairwise_cons.2 ⟨fun e he => ?_, ih htail⟩
        rcases mem_insert he with rfl | he
        · exact lt_of_not_lt_of_ne hlt hk
        · exact hhead e he

theorem insert_perm {d : Dict α} {key : String} (new : key ∉ d.keys) (value : α) :
    (d.insert key value).Perm ((key, value) :: d) := by
  induction d with
  | nil => exact List.Perm.refl _
  | cons entry rest ih =>
    obtain ⟨k, v⟩ := entry
    rw [keys, List.map_cons, List.mem_cons, not_or] at new
    simp only [Dict.insert]
    split
    · exact List.Perm.refl _
    · rw [if_neg (Ne.symm new.1)]
      exact ((ih new.2).cons _).trans (List.Perm.swap _ _ rest)

/-- What is put in one after the other is in order. -/
theorem ascending_ofEntries (entries : List (String × α)) : Ascending (ofEntries entries) := by
  have from_dict : ∀ d : Dict α, Ascending d →
      Ascending (entries.foldl (fun d entry => d.insert entry.1 entry.2) d) := by
    induction entries with
    | nil => exact fun d ordered => ordered
    | cons entry entries ih => exact fun d ordered => ih _ (ordered.insert entry.1 entry.2)
  exact from_dict [] ascending_nil

/-- Putting in entries leaves what is under other keys. -/
theorem find?_foldl_insert_of_notMem {entries : List (String × α)} {key : String}
    (absent : key ∉ entries.map Prod.fst) (d : Dict α) :
    (entries.foldl (fun d entry => d.insert entry.1 entry.2) d).find? key = d.find? key := by
  induction entries generalizing d with
  | nil => rfl
  | cons entry entries ih =>
    rw [List.map_cons, List.mem_cons, not_or] at absent
    rw [List.foldl_cons, ih absent.2, find?_insert, if_neg (Ne.symm absent.1)]

/-- Entries with distinct keys that are put in are all found. -/
theorem find?_foldl_insert {entries : List (String × α)} (distinct : (entries.map Prod.fst).Nodup)
    {key : String} {value : α} (mem : (key, value) ∈ entries) (d : Dict α) :
    (entries.foldl (fun d entry => d.insert entry.1 entry.2) d).find? key = some value := by
  induction entries generalizing d with
  | nil => cases mem
  | cons entry entries ih =>
    obtain ⟨apart, distinct⟩ := List.nodup_cons.1 distinct
    rw [List.foldl_cons]
    rcases List.mem_cons.1 mem with rfl | mem
    · rw [find?_foldl_insert_of_notMem apart, find?_insert, if_pos rfl]
    · exact ih distinct mem _

/-- Entries with distinct keys are all kept. -/
theorem perm_ofEntries {entries : List (String × α)} (distinct : (entries.map Prod.fst).Nodup) :
    (ofEntries entries).Perm entries := by
  have from_dict : ∀ d : Dict α, (∀ key ∈ entries.map Prod.fst, key ∉ d.keys) →
      (entries.foldl (fun d entry => d.insert entry.1 entry.2) d).Perm (entries ++ d) := by
    induction entries with
    | nil => exact fun d _ => List.Perm.refl d
    | cons entry entries ih =>
      intro d new
      obtain ⟨key, value⟩ := entry
      obtain ⟨apart, distinct⟩ := List.nodup_cons.1 distinct
      have new_key : key ∉ d.keys := new key List.mem_cons_self
      have inserted := insert_perm new_key value
      have kept : (d.insert key value).keys.Perm (key :: d.keys) := inserted.map Prod.fst
      refine (ih distinct _ fun other mem => ?_).trans ?_
      · rw [kept.mem_iff, List.mem_cons, not_or]
        refine ⟨?_, new other (List.mem_cons_of_mem _ mem)⟩
        rintro rfl
        exact apart mem
      · exact (inserted.append_left entries).trans List.perm_middle
  have kept := from_dict [] fun key _ => List.not_mem_nil
  rwa [List.append_nil] at kept

/-- Of entries with distinct keys the order does not matter. -/
theorem ofEntries_of_perm {first second : List (String × α)} (perm : first.Perm second)
    (distinct : (first.map Prod.fst).Nodup) : ofEntries first = ofEntries second := by
  have distinct' : (second.map Prod.fst).Nodup := (perm.map Prod.fst).nodup_iff.1 distinct
  have same := ((perm_ofEntries distinct).trans perm).trans (perm_ofEntries distinct').symm
  exact same.eq_of_pairwise
    (fun _ _ _ _ less greater => absurd (String.lt_trans less greater) (String.lt_irrefl _))
    (ascending_ofEntries first) (ascending_ofEntries second)

/-- The last entry is put in last. -/
theorem ofEntries_concat (entries : List (String × α)) (key : String) (value : α) :
    ofEntries (entries ++ [(key, value)]) = (ofEntries entries).insert key value :=
  List.foldl_append

theorem Ascending.nodup_keys {d : Dict α} (h : Ascending d) : d.keys.Nodup :=
  List.pairwise_map.2 (h.imp fun hlt heq => absurd (heq ▸ hlt) (String.lt_irrefl _))

/-- A dictionary is the one of its own entries. -/
theorem ofEntries_of_ascending {d : Dict α} (h : Ascending d) : ofEntries d = d :=
  (perm_ofEntries h.nodup_keys).eq_of_pairwise
    (fun _ _ _ _ hab hba => absurd (String.lt_trans hab hba) (String.lt_irrefl _))
    (ascending_ofEntries d) h

/-- What changes the values only keeps the order. -/
theorem Ascending.through {β : Type} {d : Dict α} (h : Ascending d) (f : Dict α → Dict β)
    {g : α → β} (nil : f [] = []) (cons : ∀ k v rest, f ((k, v) :: rest) = (k, g v) :: f rest) :
    Ascending (f d) := by
  have mapped : ∀ d, f d = d.map fun e => (e.1, g e.2) := by
    intro d
    induction d with
    | nil => exact nil
    | cons e rest ih => rw [cons, ih, List.map_cons]
  rw [mapped]
  exact List.pairwise_map.2 h

theorem erase_sublist (d : Dict α) (key : String) : (d.erase key).Sublist d := by
  induction d with
  | nil => simp [erase]
  | cons entry rest ih =>
    simp only [erase]
    split
    · exact ih.cons _
    · exact ih.cons_cons _

theorem Ascending.erase {d : Dict α} (h : Ascending d) (key : String) : Ascending (d.erase key) :=
  h.sublist (erase_sublist d key)

theorem Ascending.ext {d e : Dict α} (hd : Ascending d) (he : Ascending e)
    (h : ∀ key, d.find? key = e.find? key) : d = e := by
  induction d generalizing e with
  | nil =>
    cases e with
    | nil => rfl
    | cons entry rest =>
      have := h entry.1
      simp [find?] at this
  | cons entry rest ih =>
    obtain ⟨k, v⟩ := entry
    have ⟨hk, hrest⟩ := List.pairwise_cons.1 hd
    cases e with
    | nil =>
      have := h k
      simp [find?] at this
    | cons entry' rest' =>
      obtain ⟨k', v'⟩ := entry'
      have ⟨hk', hrest'⟩ := List.pairwise_cons.1 he
      have absent : ∀ {l : Dict α} {a : String}, (∀ e ∈ l, a < e.1) → l.find? a = none :=
        fun hl => find?_eq_none_of_forall_ne fun e he heq =>
          absurd (hl e he) (heq ▸ String.lt_irrefl _)
      have hkk : k = k' := by
        rcases Decidable.em (k = k') with hkk | hkk
        · exact hkk
        · exfalso
          have h1 := h k
          have h2 := h k'
          simp only [find?, hkk, Ne.symm hkk, if_true, if_false] at h1 h2
          rcases Decidable.em (k < k') with hlt | hlt
          · rw [absent fun e he => String.lt_trans hlt (hk' e he)] at h1
            simp at h1
          · have hlt' := lt_of_not_lt_of_ne hlt (Ne.symm hkk)
            rw [absent fun e he => String.lt_trans hlt' (hk e he)] at h2
            simp at h2
      subst hkk
      have hv := h k
      simp only [find?, if_true, Option.some.injEq] at hv
      subst hv
      congr 1
      refine ih hrest hrest' fun key => ?_
      rcases Decidable.em (k = key) with hkey | hkey
      · subst hkey
        rw [absent hk, absent hk']
      · simpa [find?, hkey] using h key

end Dict

end BraceTemplate
