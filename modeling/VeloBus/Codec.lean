import Mathlib.Data.List.Basic
import Mathlib.Data.List.Infix

/-! Decoders that return the value read and the rest of the input. `Reads` says that a decoder
accepts exactly the encodings of the values it should, whatever follows them; such decoders compose
through the bind of `Except`. A sequence of encodings can be cut anywhere. -/

namespace Codec

variable {ε α β γ : Type}

theorem bind_eq_ok {x : Except ε α} {f : α → Except ε β} {b : β} :
    (x >>= f) = .ok b ↔ ∃ a, x = .ok a ∧ f a = .ok b := by
  cases x with
  | error e =>
      constructor
      · intro h
        cases h
      · rintro ⟨a, h, -⟩
        cases h
  | ok a =>
      constructor
      · intro h
        exact ⟨a, rfl, h⟩
      · rintro ⟨a', h, h'⟩
        cases h
        exact h'

/-- A failing check in front of the rest of a decoder. -/
theorem check_eq_ok {c : Prop} [Decidable c] {e : ε} {f : PUnit → Except ε β} {x : Except ε β}
    {b : β} : (if c then throw e >>= f else x) = .ok b ↔ ¬c ∧ x = .ok b := by
  by_cases hc : c
  · rw [if_pos hc]
    constructor
    · intro h
      cases h
    · rintro ⟨hnot, -⟩
      exact absurd hc hnot
  · rw [if_neg hc]
    exact ⟨fun h => ⟨hc, h⟩, fun h => h.2⟩

theorem pure_eq_ok {a b : α} : (pure a : Except ε α) = .ok b ↔ a = b :=
  ⟨fun h => Except.ok.inj h, fun h => congrArg Except.ok h⟩

/-- The decoder accepts an encoding of a legal value and nothing else. -/
def Reads (dec : List γ → Except ε (α × List γ)) (legal : α → Prop) (enc : α → List γ) : Prop :=
  ∀ r a r', dec r = .ok (a, r') ↔ legal a ∧ r = enc a ++ r'

/-- The rest of a decoder runs on the value read and on what follows its encoding. -/
theorem Reads.bind_eq_ok {dec : List γ → Except ε (α × List γ)} {legal : α → Prop}
    {enc : α → List γ} (h : Reads dec legal enc) {r : List γ} {f : α × List γ → Except ε β} {b : β} :
    (dec r >>= f) = .ok b ↔ ∃ a r', legal a ∧ r = enc a ++ r' ∧ f (a, r') = .ok b := by
  rw [Codec.bind_eq_ok]
  constructor
  · rintro ⟨⟨a, r'⟩, hdec, hf⟩
    obtain ⟨hlegal, hr⟩ := (h r a r').mp hdec
    exact ⟨a, r', hlegal, hr, hf⟩
  · rintro ⟨a, r', hlegal, hr, hf⟩
    exact ⟨(a, r'), (h r a r').mpr ⟨hlegal, hr⟩, hf⟩

/-- A whole input is accepted by at most one value. -/
theorem Reads.complete {dec : List γ → Except ε (α × List γ)} {legal : α → Prop}
    {enc : α → List γ} (h : Reads dec legal enc) {a : α} (ha : legal a) (r' : List γ) :
    dec (enc a ++ r') = .ok (a, r') := (h _ a r').mpr ⟨ha, rfl⟩

/-- An encoding followed by anything determines the value and what follows. -/
theorem Reads.unique {dec : List γ → Except ε (α × List γ)} {legal : α → Prop}
    {enc : α → List γ} (h : Reads dec legal enc) {a b : α} {r r' : List γ} (ha : legal a)
    (hb : legal b) (heq : enc a ++ r = enc b ++ r') : a = b ∧ r = r' := by
  have hread := h.complete ha r
  rw [heq, h.complete hb r'] at hread
  have hpair := Except.ok.inj hread
  exact ⟨(congrArg Prod.fst hpair).symm, (congrArg Prod.snd hpair).symm⟩

/-! ### Sequences cut short -/

/-- Nothing, or an encoding that is not complete. -/
def Cut (legal : α → Prop) (enc : α → List γ) (tail : List γ) : Prop :=
  tail = [] ∨ ∃ a, legal a ∧ tail <+: enc a ∧ tail ≠ enc a

theorem Cut.of_prefix {legal : α → Prop} {enc : α → List γ} {tail tail' : List γ}
    (h : Cut legal enc tail) (hpre : tail' <+: tail) : Cut legal enc tail' := by
  rcases h with rfl | ⟨a, ha, htail, hne⟩
  · exact Or.inl (List.prefix_nil.mp hpre)
  · refine Or.inr ⟨a, ha, hpre.trans htail, ?_⟩
    rintro rfl
    exact hne (htail.eq_of_length_le hpre.length_le)

/-- A prefix of a sequence of encodings ends inside one of them or between two, and holds every part
of the sequence that is no longer. -/
theorem prefix_flatMap {legal : α → Prop} {enc : α → List γ} {items : List α} {tail bs : List γ}
    (hlegal : ∀ a ∈ items, legal a) (htail : Cut legal enc tail)
    (h : bs <+: items.flatMap enc ++ tail) :
    ∃ kept tail', kept <+: items ∧ Cut legal enc tail' ∧ bs = kept.flatMap enc ++ tail' ∧
      ∀ part, part <+: items → (part.flatMap enc).length ≤ bs.length → part <+: kept := by
  induction items generalizing bs with
  | nil =>
      exact ⟨[], bs, List.nil_prefix, htail.of_prefix (by simpa using h), rfl, fun part hpart _ => hpart⟩
  | cons a items ih =>
      rw [List.flatMap_cons, List.append_assoc] at h
      by_cases hlen : (enc a).length ≤ bs.length
      · -- The first encoding is complete; the rest is cut.
        obtain ⟨bs, rfl⟩ := List.prefix_of_prefix_length_le (List.prefix_append _ _) h hlen
        obtain ⟨kept, tail', hkept, hcut, rfl, hmost⟩ :=
          ih (fun b hb => hlegal b (List.mem_cons_of_mem _ hb)) ((List.prefix_append_right_inj _).mp h)
        refine ⟨a :: kept, tail', List.cons_prefix_cons.mpr ⟨rfl, hkept⟩, hcut, by simp, ?_⟩
        intro part hpart hle
        cases part with
        | nil => exact List.nil_prefix
        | cons b part =>
            obtain ⟨rfl, hrest⟩ := List.cons_prefix_cons.mp hpart
            rw [List.flatMap_cons, List.length_append, List.length_append] at hle
            exact List.cons_prefix_cons.mpr ⟨rfl, hmost part hrest (by omega)⟩
      · rw [not_le] at hlen
        refine ⟨[], bs, List.nil_prefix, Or.inr ⟨a, hlegal a (by simp), ?_, ?_⟩, rfl, ?_⟩
        · exact List.prefix_of_prefix_length_le h (List.prefix_append _ _) hlen.le
        · rintro rfl
          exact lt_irrefl _ hlen
        · intro part hpart hle
          cases part with
          | nil => exact List.nil_prefix
          | cons b part =>
              obtain ⟨rfl, -⟩ := List.cons_prefix_cons.mp hpart
              rw [List.flatMap_cons, List.length_append] at hle
              omega

end Codec
