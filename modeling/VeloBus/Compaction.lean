import Mathlib.Data.List.Induction
import Mathlib.Logic.Function.Basic
import Mathlib.Order.Defs.Unbundled

/-! Last-writer-wins summaries. Every item of a log writes a value to a slot. A summary leaves out only
items that a later item of the summary supersedes, so both leave the same values. The order `r` is the
order of the log. -/

namespace Compaction

variable {α κ ν : Type*} {slot : α → κ} {r : α → α → Prop}

/-- The last item of a log in a slot. -/
structure Last (slot : α → κ) (r : α → α → Prop) (log : List α) (k : κ) (a : α) : Prop where
  mem : a ∈ log
  slot_eq : slot a = k
  last : ∀ b ∈ log, slot b = k → b = a ∨ r b a

/-- The items kept are items of the log, and each item left out is superseded by one kept. -/
structure Summary (slot : α → κ) (r : α → α → Prop) (log kept : List α) : Prop where
  subset : kept ⊆ log
  superseded : ∀ a ∈ log, a ∉ kept → ∃ b ∈ kept, slot b = slot a ∧ r a b

theorem Summary.append {log kept log' kept' : List α} (h : Summary slot r log kept)
    (h' : Summary slot r log' kept') : Summary slot r (log ++ log') (kept ++ kept') where
  subset := List.append_subset.mpr
    ⟨List.subset_append_of_subset_left _ h.subset, List.subset_append_of_subset_right _ h'.subset⟩
  superseded := by
    intro a ha hnot
    rw [List.mem_append, not_or] at hnot
    rcases List.mem_append.mp ha with ha | ha
    · obtain ⟨b, hb, hslot, hr⟩ := h.superseded a ha hnot.1
      exact ⟨b, List.mem_append_left _ hb, hslot, hr⟩
    · obtain ⟨b, hb, hslot, hr⟩ := h'.superseded a ha hnot.2
      exact ⟨b, List.mem_append_right _ hb, hslot, hr⟩

section

variable [DecidableEq κ]

/-- The values the items of a log leave, later ones replacing earlier ones. -/
def values (slot : α → κ) (value : α → ν) (log : List α) : κ → Option ν :=
  log.foldl (fun m a => Function.update m (slot a) (some (value a))) fun _ => none

theorem values_concat (value : α → ν) (log : List α) (a : α) :
    values slot value (log ++ [a]) = Function.update (values slot value log) (slot a) (some (value a)) := by
  rw [values, List.foldl_append, values, List.foldl_cons, List.foldl_nil]

theorem values_eq_none (value : α → ν) {log : List α} {k : κ} (h : ∀ a ∈ log, slot a ≠ k) :
    values slot value log k = none := by
  induction log using List.reverseRecOn with
  | nil => rfl
  | append_singleton log a ih =>
      rw [values_concat, Function.update_of_ne (h a (by simp)).symm]
      exact ih fun b hb => h b (List.mem_append_left _ hb)

theorem values_eq_last [Std.Asymm r] (value : α → ν) {log : List α} (hlog : log.Pairwise r) {k : κ}
    {a : α} (h : Last slot r log k a) : values slot value log k = some (value a) := by
  induction log using List.reverseRecOn with
  | nil => exact absurd h.mem List.not_mem_nil
  | append_singleton log b ih =>
      rw [List.pairwise_append] at hlog
      obtain ⟨hlog, -, hbefore⟩ := hlog
      rw [values_concat]
      by_cases hb : slot b = k
      · -- The newest item is in the slot, so it is the last one.
        have hba : b = a := by
          rcases h.last b (by simp) hb with heq | hr
          · exact heq
          · rcases List.mem_append.mp h.mem with ha | ha
            · exact absurd hr (Std.Asymm.asymm _ _ (hbefore a ha b (by simp)))
            · exact (List.mem_singleton.mp ha).symm
        rw [hba, ← h.slot_eq, Function.update_self]
      · have ha : a ∈ log := by
          rcases List.mem_append.mp h.mem with ha | ha
          · exact ha
          · rw [← List.mem_singleton.mp ha] at hb
            exact absurd h.slot_eq hb
        rw [Function.update_of_ne (Ne.symm hb)]
        exact ih hlog ⟨ha, h.slot_eq, fun c hc => h.last c (List.mem_append_left _ hc)⟩

theorem exists_last {log : List α} (hlog : log.Pairwise r) {k : κ} (h : ∃ a ∈ log, slot a = k) :
    ∃ a, Last slot r log k a := by
  induction log using List.reverseRecOn with
  | nil =>
      obtain ⟨a, ha, -⟩ := h
      exact absurd ha List.not_mem_nil
  | append_singleton log b ih =>
      rw [List.pairwise_append] at hlog
      obtain ⟨hlog, -, hbefore⟩ := hlog
      by_cases hb : slot b = k
      · refine ⟨b, by simp, hb, ?_⟩
        intro c hc _
        rcases List.mem_append.mp hc with hc | hc
        · exact Or.inr (hbefore c hc b (by simp))
        · exact Or.inl (List.mem_singleton.mp hc)
      · obtain ⟨a, ha, hslot⟩ := h
        have ha : a ∈ log := by
          rcases List.mem_append.mp ha with ha | ha
          · exact ha
          · rw [← List.mem_singleton.mp ha] at hb
            exact absurd hslot hb
        obtain ⟨a, hmem, hslot, hlast⟩ := ih hlog ⟨a, ha, hslot⟩
        refine ⟨a, List.mem_append_left _ hmem, hslot, ?_⟩
        intro c hc hck
        rcases List.mem_append.mp hc with hc | hc
        · exact hlast c hc hck
        · rw [List.mem_singleton.mp hc] at hck
          exact absurd hck hb

/-- **A summary leaves the values of the whole log.** -/
theorem Summary.values_eq [Std.Asymm r] (value : α → ν) {log kept : List α}
    (h : Summary slot r log kept) (hlog : log.Pairwise r) (hkept : kept.Pairwise r) :
    values slot value kept = values slot value log := by
  funext k
  by_cases hk : ∃ a ∈ log, slot a = k
  · obtain ⟨a, hlast⟩ := exists_last hlog hk
    have ha : a ∈ kept := by
      by_contra hnot
      obtain ⟨b, hb, hslot, hr⟩ := h.superseded a hlast.mem hnot
      rcases hlast.last b (h.subset hb) (hslot.trans hlast.slot_eq) with rfl | hr'
      · exact hnot hb
      · exact Std.Asymm.asymm _ _ hr hr'
    rw [values_eq_last value hlog hlast]
    exact values_eq_last value hkept ⟨ha, hlast.slot_eq, fun b hb => hlast.last b (h.subset hb)⟩
  · rw [not_exists] at hk
    have hnone : ∀ a ∈ log, slot a ≠ k := fun a ha hslot => hk a ⟨ha, hslot⟩
    rw [values_eq_none value hnone, values_eq_none value fun a ha => hnone a (h.subset ha)]

end

end Compaction
