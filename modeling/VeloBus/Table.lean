import Mathlib.Data.List.AList
import Mathlib.Algebra.BigOperators.Group.List.Basic
import Mathlib.Algebra.GroupWithZero.Nat
import Mathlib.Tactic.SplitIfs

/-! Finite tables: association lists with distinct keys, an in-place update and weighted totals
over the entries. Each update comes with the table it leaves at every key and with what it does to
a total, so that a counter kept beside a table is compared with the table one update at a time. -/

abbrev Table (κ α : Type) : Type := AList (fun _ : κ => α)

namespace Table

variable {κ α : Type}

/-- Update the value at one key in place; a missing key changes nothing. -/
def modify [DecidableEq κ] (k : κ) (g : α → α) (t : Table κ α) : Table κ α where
  entries := t.entries.map fun e => ⟨e.1, if e.1 = k then g e.2 else e.2⟩
  nodupKeys := by
    have h := t.nodupKeys
    rw [List.NodupKeys, List.keys] at h ⊢
    rwa [List.map_map]

/-- The sum of a weight over all entries. -/
def total (f : κ → α → Nat) (t : Table κ α) : Nat := (t.entries.map fun e => f e.1 e.2).sum

/-- The number of entries that satisfy a predicate. -/
def count (p : κ → α → Prop) [∀ k a, Decidable (p k a)] (t : Table κ α) : Nat :=
  total (fun k a => if p k a then 1 else 0) t

/-- The number of entries. -/
def size (t : Table κ α) : Nat := t.entries.length

/-- The keys whose entries satisfy a predicate, in the order of the entries. -/
def select (p : κ → α → Bool) (t : Table κ α) : List κ :=
  (t.entries.filter fun e => p e.1 e.2).map Sigma.fst

theorem size_eq_total (t : Table κ α) : t.size = total (fun _ _ => 1) t := by
  simp [size, total]

theorem total_congr {f g : κ → α → Nat} {t : Table κ α}
    (h : ∀ e ∈ t.entries, f e.1 e.2 = g e.1 e.2) : total f t = total g t := by
  rw [total, total, List.map_congr_left h]

theorem total_add (f g : κ → α → Nat) (t : Table κ α) :
    total (fun k a => f k a + g k a) t = total f t + total g t := by
  simp [total, List.sum_map_add]

section Lookup

variable [DecidableEq κ]

theorem lookup_insert_ite (k k' : κ) (a : α) (t : Table κ α) :
    (AList.insert k a t).lookup k' = if k' = k then some a else t.lookup k' := by
  split_ifs with h
  · subst h
    exact AList.lookup_insert t
  · exact AList.lookup_insert_ne h

theorem lookup_erase_ite (k k' : κ) (t : Table κ α) :
    (t.erase k).lookup k' = if k' = k then none else t.lookup k' := by
  split_ifs with h
  · subst h
    exact AList.lookup_erase k' t
  · exact AList.lookup_erase_ne h

theorem mem_entries_iff {t : Table κ α} {e : (_ : κ) × α} :
    e ∈ t.entries ↔ t.lookup e.1 = some e.2 :=
  (AList.mem_lookup_iff (s := t) (a := e.1) (b := e.2)).symm

/-- A table without a value is empty. -/
theorem eq_empty {t : Table κ α} (h : ∀ k, t.lookup k = none) : t = ∅ := by
  apply AList.ext
  apply List.eq_nil_iff_forall_not_mem.mpr
  intro e he
  cases (h e.1).symm.trans (mem_entries_iff.mp he)

theorem lookup_modify (k k' : κ) (g : α → α) (t : Table κ α) :
    (t.modify k g).lookup k' = if k' = k then (t.lookup k').map g else t.lookup k' := by
  apply Option.ext
  intro b
  rw [← Option.mem_def, AList.mem_lookup_iff]
  simp only [modify, List.mem_map]
  constructor
  · rintro ⟨e, he, heq⟩
    obtain rfl : e.1 = k' := congrArg Sigma.fst heq
    have hval : (if e.1 = k then g e.2 else e.2) = b := by
      simpa using heq
    rw [mem_entries_iff] at he
    split_ifs with h
    · rw [if_pos h] at hval
      rw [he, Option.map_some, hval]
    · rw [if_neg h] at hval
      rw [he, hval]
  · intro h
    split_ifs at h with hk
    · obtain ⟨a, ha, rfl⟩ := Option.map_eq_some_iff.mp h
      exact ⟨⟨k', a⟩, mem_entries_iff.mpr ha, by simp [hk]⟩
    · exact ⟨⟨k', b⟩, mem_entries_iff.mpr h, by simp [hk]⟩

/-- Splitting off one entry: the table at a key is that entry and the table without it. -/
theorem perm_erase_of_lookup {t : Table κ α} {k : κ} {a : α} (h : t.lookup k = some a) :
    t.entries.Perm (⟨k, a⟩ :: (t.erase k).entries) := by
  obtain ⟨b, l₁, l₂, hnot, hl, hk⟩ := List.exists_of_kerase
    (a := k) (l := t.entries) (AList.mem_keys.mp (AList.lookup_isSome.mp (by rw [h]; rfl)))
  have hb : b = a := by
    have hmem : (⟨k, b⟩ : (_ : κ) × α) ∈ t.entries := by
      rw [hl]
      simp
    exact Option.some.inj ((mem_entries_iff.mp hmem).symm.trans h)
  rw [show (t.erase k).entries = List.kerase k t.entries from rfl, hk, hl, hb]
  exact List.perm_middle

theorem total_insert (f : κ → α → Nat) {t : Table κ α} {k : κ} (h : t.lookup k = none) (a : α) :
    total f (AList.insert k a t) = f k a + total f t := by
  rw [total, AList.entries_insert_of_notMem (AList.lookup_eq_none.mp h)]
  rfl

theorem total_erase (f : κ → α → Nat) {t : Table κ α} {k : κ} {a : α} (h : t.lookup k = some a) :
    f k a + total f (t.erase k) = total f t := by
  rw [total, total, ((perm_erase_of_lookup h).map _).sum_eq]
  rfl

theorem le_total (f : κ → α → Nat) {t : Table κ α} {k : κ} {a : α} (h : t.lookup k = some a) :
    f k a ≤ total f t := by
  have := total_erase f h
  omega

/-- Without the updated key the two tables agree. -/
theorem erase_modify (t : Table κ α) (k : κ) (g : α → α) : (t.modify k g).erase k = t.erase k := by
  apply AList.ext
  change List.kerase k (t.entries.map _) = List.kerase k t.entries
  have hkeys := t.nodupKeys
  generalize t.entries = es at hkeys
  induction es with
  | nil => rfl
  | cons e es ih =>
      rw [List.nodupKeys_cons] at hkeys
      by_cases he : e.1 = k
      · rw [List.map_cons, List.kerase_cons_eq he.symm, List.kerase_cons_eq (by simp [he])]
        apply (List.map_congr_left _).trans (List.map_id es)
        intro x hx
        have hne : x.1 ≠ k := fun hxk => hkeys.1 (by
          rw [he, ← hxk]
          exact List.mem_keys_of_mem hx)
        simp [hne]
      · rw [List.map_cons, List.kerase_cons_ne (Ne.symm he),
          List.kerase_cons_ne (by simpa using Ne.symm he), ih hkeys.2]
        simp [he]

theorem total_modify (f : κ → α → Nat) (g : α → α) {t : Table κ α} {k : κ} {a : α}
    (h : t.lookup k = some a) : total f (t.modify k g) + f k a = f k (g a) + total f t := by
  have hmod : (t.modify k g).lookup k = some (g a) := by
    rw [lookup_modify, if_pos rfl, h, Option.map_some]
  have hold := total_erase f h
  have hnew := total_erase f hmod
  rw [erase_modify] at hnew
  omega

theorem modify_congr {t : Table κ α} {k : κ} {f g : α → α}
    (h : ∀ a, t.lookup k = some a → f a = g a) : t.modify k f = t.modify k g := by
  apply AList.ext
  apply List.map_congr_left
  rintro ⟨k', a⟩ he
  by_cases hk : k' = k
  · subst hk
    simp [h a (mem_entries_iff.mp he)]
  · simp [hk]

theorem modify_modify (t : Table κ α) (k : κ) (f g : α → α) :
    (t.modify k f).modify k g = t.modify k (g ∘ f) := by
  apply AList.ext
  simp only [modify, List.map_map]
  apply List.map_congr_left
  rintro ⟨k', a⟩ _
  by_cases hk : k' = k <;> simp [hk]

theorem modify_of_fixed {t : Table κ α} {k : κ} {g : α → α}
    (h : ∀ a, t.lookup k = some a → g a = a) : t.modify k g = t := by
  apply AList.ext
  apply (List.map_congr_left _).trans (List.map_id t.entries)
  rintro ⟨k', a⟩ he
  by_cases hk : k' = k
  · subst hk
    simp [h a (mem_entries_iff.mp he)]
  · simp [hk]

theorem modify_of_lookup_none {t : Table κ α} {k : κ} (h : t.lookup k = none) (g : α → α) :
    t.modify k g = t :=
  modify_of_fixed fun a ha => by
    rw [h] at ha
    cases ha

theorem total_modify_same (f : κ → α → Nat) (g : α → α) (t : Table κ α) (k : κ)
    (h : ∀ a, t.lookup k = some a → f k (g a) = f k a) : total f (t.modify k g) = total f t := by
  cases hk : t.lookup k with
  | none => rw [modify_of_lookup_none hk]
  | some a =>
      have := total_modify f g hk
      rw [h a hk] at this
      omega

@[simp] theorem size_modify (t : Table κ α) (k : κ) (g : α → α) : (t.modify k g).size = t.size := by
  simp [size, modify]

theorem size_insert {t : Table κ α} {k : κ} (h : t.lookup k = none) (a : α) :
    size (AList.insert k a t) = t.size + 1 := by
  rw [size_eq_total, size_eq_total, total_insert _ h, Nat.add_comm]

theorem size_erase {t : Table κ α} {k : κ} {a : α} (h : t.lookup k = some a) :
    size (t.erase k) + 1 = t.size := by
  rw [size_eq_total, size_eq_total, ← total_erase _ h, Nat.add_comm]

theorem size_erase_le (t : Table κ α) (k : κ) : size (t.erase k) ≤ t.size := by
  cases h : t.lookup k with
  | none => rw [show t.erase k = t from AList.ext (List.kerase_of_notMem_keys
      (AList.lookup_eq_none.mp h))]
  | some a =>
      have := size_erase h
      omega

theorem mem_select {p : κ → α → Bool} {t : Table κ α} {k : κ} :
    k ∈ select p t ↔ ∃ a, t.lookup k = some a ∧ p k a = true := by
  simp only [select, List.mem_map, List.mem_filter]
  constructor
  · rintro ⟨e, ⟨he, hp⟩, rfl⟩
    exact ⟨e.2, mem_entries_iff.mp he, hp⟩
  · rintro ⟨a, ha, hp⟩
    exact ⟨⟨k, a⟩, ⟨mem_entries_iff.mpr ha, hp⟩, rfl⟩

omit [DecidableEq κ] in
theorem nodup_select (p : κ → α → Bool) (t : Table κ α) : (select p t).Nodup :=
  List.Nodup.sublist (List.filter_sublist.map Sigma.fst) t.nodupKeys

theorem count_pos {p : κ → α → Prop} [∀ k a, Decidable (p k a)] {t : Table κ α} {k : κ} {a : α}
    (h : t.lookup k = some a) (hp : p k a) : 0 < count p t := by
  have := le_total (fun k a => if p k a then 1 else 0) h
  rw [if_pos hp] at this
  exact this

omit [DecidableEq κ] in
theorem count_eq_length (p : κ → α → Prop) [∀ k a, Decidable (p k a)] (t : Table κ α) :
    count p t = (select (fun k a => decide (p k a)) t).length := by
  unfold count total select
  rw [List.length_map]
  induction t.entries with
  | nil => rfl
  | cons e es ih =>
      rw [List.map_cons, List.sum_cons, ih, List.filter_cons]
      by_cases hp : p e.1 e.2
      · simp [hp, Nat.add_comm]
      · simp [hp]

theorem count_eq_zero {p : κ → α → Prop} [∀ k a, Decidable (p k a)] {t : Table κ α}
    (h : ∀ k a, t.lookup k = some a → ¬p k a) : count p t = 0 := by
  rw [count, total, List.sum_eq_zero]
  intro n hn
  obtain ⟨e, he, rfl⟩ := List.mem_map.mp hn
  exact if_neg (h e.1 e.2 (mem_entries_iff.mp he))

/-- A total of a table that keeps some entries of another, changed or not. -/
theorem total_bind {t u : Table κ α} {g : κ → α → Option α} (h : ∀ k, u.lookup k = (t.lookup k).bind (g k))
    (f : κ → α → Nat) : total f u = total (fun k a => ((g k a).map (f k)).getD 0) t := by
  have hnodup : (t.entries.filterMap fun e => (g e.1 e.2).map fun a => (⟨e.1, a⟩ : (_ : κ) × α)).Nodup := by
    apply List.NodupKeys.nodup
    rw [List.nodupKeys_iff_pairwise, List.pairwise_filterMap]
    apply t.nodupKeys.pairwise_ne.imp
    intro e e' hne b hb b' hb'
    obtain ⟨a, -, rfl⟩ := Option.map_eq_some_iff.mp hb
    obtain ⟨a', -, rfl⟩ := Option.map_eq_some_iff.mp hb'
    exact hne
  have hperm : u.entries.Perm
      (t.entries.filterMap fun e => (g e.1 e.2).map fun a => (⟨e.1, a⟩ : (_ : κ) × α)) := by
    rw [List.perm_ext_iff_of_nodup u.nodupKeys.nodup hnodup]
    rintro ⟨k, a⟩
    rw [mem_entries_iff, h, List.mem_filterMap]
    constructor
    · intro hk
      obtain ⟨a₀, ha₀, ha⟩ := Option.bind_eq_some_iff.mp hk
      exact ⟨⟨k, a₀⟩, mem_entries_iff.mpr ha₀, by simp [ha]⟩
    · rintro ⟨⟨k₀, a₀⟩, he, heq⟩
      obtain ⟨a₁, ha₁, hk⟩ := Option.map_eq_some_iff.mp heq
      cases hk
      rw [mem_entries_iff.mp he]
      exact ha₁
  rw [total, (hperm.map _).sum_eq, total]
  clear hnodup hperm h
  induction t.entries with
  | nil => rfl
  | cons e es ih =>
      rw [List.filterMap_cons, List.map_cons, List.sum_cons]
      cases hg : g e.1 e.2 <;> simp [ih]

/-- Tables with the same value at every key have the same totals. -/
theorem total_eq_of_lookup {t u : Table κ α} (h : ∀ k, u.lookup k = t.lookup k) (f : κ → α → Nat) :
    total f u = total f t := by
  have hbind : ∀ k, u.lookup k = (t.lookup k).bind some := by
    intro k
    simp [h]
  exact total_bind (g := fun _ => some) hbind f

end Lookup

end Table
