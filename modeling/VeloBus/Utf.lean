import VeloBus.Bytes
import Mathlib.Data.List.Basic
import Mathlib.Data.List.GetD
import Mathlib.Data.List.Infix

/-! Text as UTF-16 code units, and UTF-8 cut at character boundaries. A unit that is half of a surrogate
pair with the other half missing is read as U+FFFD, as encoders of such text do. -/

/-- A string of UTF-16 code units. -/
abbrev Text : Type := List UInt16

namespace Text

def highSurrogate (u : UInt16) : Bool := 0xd800 ≤ u ∧ u ≤ 0xdbff

def lowSurrogate (u : UInt16) : Bool := 0xdc00 ≤ u ∧ u ≤ 0xdfff

/-- A unit that stands for itself, or for a missing half. -/
def single (u : UInt16) : Char :=
  if highSurrogate u ∨ lowSurrogate u then '\ufffd' else Char.ofNat u.toNat

def pair (u v : UInt16) : Char :=
  Char.ofNat (0x10000 + (u.toNat - 0xd800) * 0x400 + (v.toNat - 0xdc00))

def chars : Text → List Char
  | [] => []
  | [u] => [single u]
  | u :: v :: rest =>
    if highSurrogate u ∧ lowSurrogate v then pair u v :: chars rest
    else single u :: chars (v :: rest)

def units (c : Char) : Text :=
  if c.toNat < 0x10000 then [UInt16.ofNat c.toNat]
  else [UInt16.ofNat (0xd800 + (c.toNat - 0x10000) / 0x400),
    UInt16.ofNat (0xdc00 + (c.toNat - 0x10000) % 0x400)]

/-- The characters an encoder writes for the text. -/
def toString (text : Text) : String := String.ofList text.chars

/-- The text a decoder makes of the characters. -/
def ofString (s : String) : Text := s.toList.flatMap units

/-- Every surrogate is in its pair. -/
def wellFormed (text : Text) : Bool := ofString text.toString = text

/-! ### Decoded text -/

theorem ofNat_toNat_of_lt {n : Nat} (h : n < 0x10000) : (UInt16.ofNat n).toNat = n := by
  rw [UInt16.toNat_ofNat', Nat.mod_eq_of_lt h]

theorem chars_units (c : Char) (rest : Text) : chars (units c ++ rest) = c :: chars rest := by
  have hvalid : c.toNat.isValidChar := c.valid
  by_cases hsmall : c.toNat < 0x10000
  · have hnat := ofNat_toNat_of_lt hsmall
    have hhigh : highSurrogate (UInt16.ofNat c.toNat) = false := by
      rw [highSurrogate, decide_eq_false_iff_not, UInt16.le_iff_toNat_le, UInt16.le_iff_toNat_le, hnat]
      rintro ⟨hle, hlt⟩
      change 0xd800 ≤ c.toNat at hle
      change c.toNat ≤ 0xdbff at hlt
      rcases hvalid with h | h <;> omega
    have hlow : lowSurrogate (UInt16.ofNat c.toNat) = false := by
      rw [lowSurrogate, decide_eq_false_iff_not, UInt16.le_iff_toNat_le, UInt16.le_iff_toNat_le, hnat]
      rintro ⟨hle, hlt⟩
      change 0xdc00 ≤ c.toNat at hle
      change c.toNat ≤ 0xdfff at hlt
      rcases hvalid with h | h <;> omega
    have hsingle : single (UInt16.ofNat c.toNat) = c := by
      rw [single, hhigh, hlow, if_neg (by decide), hnat, Char.ofNat_toNat]
    rw [units, if_pos hsmall]
    cases rest with
    | nil =>
        change [single _] = [c]
        rw [hsingle]
    | cons v rest => rw [List.singleton_append, chars, hhigh, if_neg (by simp), hsingle]
  · have hmost : c.toNat < 0x110000 := by rcases hvalid with h | h <;> omega
    have hhigh := ofNat_toNat_of_lt (n := 0xd800 + (c.toNat - 0x10000) / 0x400) (by omega)
    have hlow := ofNat_toNat_of_lt (n := 0xdc00 + (c.toNat - 0x10000) % 0x400) (by omega)
    have hpair : highSurrogate (UInt16.ofNat (0xd800 + (c.toNat - 0x10000) / 0x400)) = true ∧
        lowSurrogate (UInt16.ofNat (0xdc00 + (c.toNat - 0x10000) % 0x400)) = true := by
      have h₁ : (0xd800 : UInt16).toNat = 0xd800 := rfl
      have h₂ : (0xdbff : UInt16).toNat = 0xdbff := rfl
      have h₃ : (0xdc00 : UInt16).toNat = 0xdc00 := rfl
      have h₄ : (0xdfff : UInt16).toNat = 0xdfff := rfl
      simp only [highSurrogate, lowSurrogate, decide_eq_true_iff, UInt16.le_iff_toNat_le, hhigh, hlow]
      omega
    have hvalue : 0x10000 + (0xd800 + (c.toNat - 0x10000) / 0x400 - 0xd800) * 0x400 +
        (0xdc00 + (c.toNat - 0x10000) % 0x400 - 0xdc00) = c.toNat := by omega
    rw [units, if_neg hsmall, List.cons_append, List.singleton_append, chars, if_pos hpair, pair, hhigh, hlow,
      hvalue, Char.ofNat_toNat]

theorem chars_ofString (s : String) : (ofString s).chars = s.toList := by
  rw [ofString]
  induction s.toList with
  | nil => rfl
  | cons c cs ih => rw [List.flatMap_cons, chars_units, ih]

@[simp] theorem toString_ofString (s : String) : (ofString s).toString = s := by
  rw [toString, chars_ofString, String.ofList_toList]

theorem ofString_injective {s s' : String} (h : ofString s = ofString s') : s = s' := by
  rw [← toString_ofString s, h, toString_ofString]

end Text

namespace Bytes

/-- A byte inside the encoding of a character. -/
def continuation (b : UInt8) : Bool := b &&& 0xc0 = 0x80

theorem utf8_ofList (cs : List Char) : utf8 (String.ofList cs) = cs.flatMap String.utf8EncodeChar := by
  rw [utf8, String.toByteArray_ofList, List.utf8Encode]
  simp

theorem continuation_iff (b : UInt8) : continuation b = true ↔ 0x80 ≤ b.toNat ∧ b.toNat < 0xc0 := by
  have hall : ∀ n < 256, (n &&& 0xc0 = 0x80 ↔ 0x80 ≤ n ∧ n < 0xc0) := by decide +kernel
  rw [← hall b.toNat b.toNat_lt, continuation, decide_eq_true_iff, ← UInt8.toNat_inj, UInt8.toNat_and]
  rfl

theorem tail_utf8EncodeChar (c : Char) : ∀ b ∈ (String.utf8EncodeChar c).tail, continuation b = true := by
  have hlow : ∀ n, continuation (UInt8.ofNat (n % 0x40 + 0x80)) = true := by
    intro n
    rw [continuation_iff, UInt8.toNat_ofNat']
    omega
  rw [String.utf8EncodeChar]
  split_ifs
  all_goals
    intro b hb
    simp only [List.tail_cons, List.mem_cons, List.not_mem_nil, or_false] at hb
  · rw [hb]
    exact hlow _
  · rcases hb with rfl | rfl <;> exact hlow _
  · rcases hb with rfl | rfl | rfl <;> exact hlow _

theorem head_utf8EncodeChar (c : Char) :
    ∃ b bs, String.utf8EncodeChar c = b :: bs ∧ continuation b = false := by
  have hhead : ∀ n, (n < 0x80 ∨ 0xc0 ≤ n) → n < 256 → continuation (UInt8.ofNat n) = false := by
    intro n hn hlt
    rw [Bool.eq_false_iff, Ne, continuation_iff, UInt8.toNat_ofNat']
    omega
  rw [String.utf8EncodeChar]
  split_ifs with h₁
  · exact ⟨_, _, rfl, hhead _ (by omega) (by omega)⟩
  all_goals exact ⟨_, _, rfl, hhead _ (by omega) (by omega)⟩

/-! ### Lossy decoding -/

/-- The first character is read, whatever follows it. -/
theorem utf8DecodeChar?_append (c : Char) (rest : Bytes) :
    ByteArray.utf8DecodeChar? ⟨(String.utf8EncodeChar c ++ rest).toArray⟩ 0 = some c := by
  have happend : (⟨(String.utf8EncodeChar c ++ rest).toArray⟩ : ByteArray) =
      (String.utf8EncodeChar c).toByteArray ++ rest.toByteArray := by
    rw [← List.toByteArray_append]
    apply ByteArray.ext
    simp [List.data_toByteArray]
  rw [happend]
  exact ByteArray.utf8DecodeChar?_utf8EncodeChar_append

theorem lossyChars_flatMap (cs : List Char) {n : Nat} (hn : (cs.flatMap String.utf8EncodeChar).length ≤ n) :
    lossyChars n (cs.flatMap String.utf8EncodeChar) = cs := by
  induction cs generalizing n with
  | nil => cases n <;> rfl
  | cons c cs ih =>
      have hdecode := utf8DecodeChar?_append c (cs.flatMap String.utf8EncodeChar)
      have hsize := String.length_utf8EncodeChar c
      obtain ⟨b, bs, hcons, -⟩ := head_utf8EncodeChar c
      rw [List.flatMap_cons] at hn ⊢
      rw [hcons] at hn hdecode hsize ⊢
      rw [List.cons_append] at hn hdecode ⊢
      obtain ⟨n, rfl⟩ : ∃ m, n = m + 1 := Nat.exists_eq_add_one_of_ne_zero fun h => by
        rw [h] at hn
        cases hn
      have hrest : (b :: (bs ++ cs.flatMap String.utf8EncodeChar)).drop c.utf8Size =
          cs.flatMap String.utf8EncodeChar := by
        rw [← List.cons_append]
        exact List.drop_left' hsize
      rw [lossyChars, hdecode]
      dsimp only
      rw [hrest, ih]
      rw [List.length_cons, List.length_append] at hn
      omega

/-- Text is read as it was written. -/
theorem fromUtf8Lossy_utf8 (s : String) : fromUtf8Lossy (utf8 s) = s := by
  have hs : utf8 s = s.toList.flatMap String.utf8EncodeChar := by
    rw [← utf8_ofList, String.ofList_toList]
  rw [fromUtf8Lossy, hs, lossyChars_flatMap _ le_rfl, String.ofList_toList]

/-! ### Boundaries -/

/-- The last place, going back from `n`, that is not inside a character. -/
def boundary (bs : Bytes) : Nat → Nat
  | 0 => 0
  | n + 1 => if continuation (bs.getD (n + 1) 0) then boundary bs n else n + 1

theorem boundary_le (bs : Bytes) (n : Nat) : boundary bs n ≤ n := by
  induction n with
  | zero => exact le_rfl
  | succ n ih =>
      rw [boundary]
      split_ifs
      · exact ih.trans (Nat.le_succ n)
      · exact le_rfl

theorem boundary_eq (bs : Bytes) (n : Nat) :
    boundary bs n = 0 ∨ continuation (bs.getD (boundary bs n) 0) = false := by
  induction n with
  | zero => exact Or.inl rfl
  | succ n ih =>
      rw [boundary]
      split_ifs with h
      · exact ih
      · exact Or.inr (Bool.eq_false_iff.mpr h)

/-- There is none between the boundary and `n`. -/
theorem le_boundary {bs : Bytes} {m n : Nat} (hmn : m ≤ n) (h : continuation (bs.getD m 0) = false) : m ≤ boundary bs n := by
  induction n with
  | zero => exact hmn
  | succ n ih =>
      rw [boundary]
      split_ifs with hinside
      · apply ih
        by_contra hlast
        obtain rfl : m = n + 1 := by omega
        rw [h] at hinside
        cases hinside
      · exact hmn

/-- The end of some of the characters is not inside one. -/
theorem getD_of_prefix {kept cs : List Char} (h : kept <+: cs) :
    continuation ((cs.flatMap String.utf8EncodeChar).getD (kept.flatMap String.utf8EncodeChar).length 0) = false := by
  obtain ⟨rest, rfl⟩ := h
  rw [List.flatMap_append, List.getD_append_right _ _ _ _ le_rfl, Nat.sub_self]
  cases rest with
  | nil => rfl
  | cons c rest =>
      obtain ⟨b, bs, hcons, hhead⟩ := head_utf8EncodeChar c
      rw [List.flatMap_cons, hcons]
      exact hhead

/-- A place that is not inside a character is between two. -/
theorem take_flatMap_utf8 {cs : List Char} {n : Nat} (hn : n ≤ (cs.flatMap String.utf8EncodeChar).length)
    (h : n = 0 ∨ continuation ((cs.flatMap String.utf8EncodeChar).getD n 0) = false) :
    ∃ kept, kept <+: cs ∧
      (cs.flatMap String.utf8EncodeChar).take n = kept.flatMap String.utf8EncodeChar := by
  induction cs generalizing n with
  | nil => exact ⟨[], List.nil_prefix, by simp⟩
  | cons c cs ih =>
      rcases Nat.eq_zero_or_pos n with rfl | hpos
      · exact ⟨[], List.nil_prefix, rfl⟩
      have hfalse := h.resolve_left hpos.ne'
      rw [List.flatMap_cons] at hn hfalse ⊢
      rw [List.length_append] at hn
      by_cases hlt : n < (String.utf8EncodeChar c).length
      · -- The byte is in the first character, and not its first byte.
        exfalso
        have hmem : (String.utf8EncodeChar c).getD n 0 ∈ (String.utf8EncodeChar c).tail := by
          obtain ⟨b, bs, hcons, -⟩ := head_utf8EncodeChar c
          rw [hcons] at hlt ⊢
          obtain ⟨m, rfl⟩ : ∃ m, n = m + 1 := ⟨n - 1, by omega⟩
          rw [List.length_cons] at hlt
          rw [List.getD_cons_succ, List.tail_cons, List.getD_eq_getElem _ _ (by omega)]
          exact List.getElem_mem _
        rw [List.getD_append _ _ _ _ hlt, tail_utf8EncodeChar c _ hmem] at hfalse
        cases hfalse
      · rw [not_lt] at hlt
        rw [List.getD_append_right _ _ _ _ hlt] at hfalse
        obtain ⟨kept, hkept, htake⟩ := ih (by omega) (Or.inr hfalse)
        refine ⟨c :: kept, List.cons_prefix_cons.mpr ⟨rfl, hkept⟩, ?_⟩
        rw [List.take_append, List.take_of_length_le hlt, htake, List.flatMap_cons]

/-- Text cut at a boundary is text. -/
theorem take_boundary (s : String) {n : Nat} (hn : n ≤ (utf8 s).length) :
    ∃ kept, kept <+: s.toList ∧ (utf8 s).take (boundary (utf8 s) n) = utf8 (String.ofList kept) := by
  have hs : utf8 s = s.toList.flatMap String.utf8EncodeChar := by
    rw [← utf8_ofList, String.ofList_toList]
  rw [hs] at hn ⊢
  obtain ⟨kept, hkept, htake⟩ := take_flatMap_utf8 ((boundary_le _ n).trans hn) (boundary_eq _ n)
  exact ⟨kept, hkept, by rw [htake, utf8_ofList]⟩

end Bytes

namespace Text

/-! ### ASCII -/

theorem chars_of_ascii {text : Text} (h : ∀ u ∈ text, u.toNat < 0x80) :
    text.chars = text.map fun u => Char.ofNat u.toNat := by
  have hlow : ∀ u : UInt16, u.toNat < 0x80 → highSurrogate u = false ∧ single u = Char.ofNat u.toNat := by
    intro u hu
    have hhigh : highSurrogate u = false := by
      rw [highSurrogate, decide_eq_false_iff_not, UInt16.le_iff_toNat_le]
      exact fun hle => absurd (hle.1.trans_lt hu) (by decide)
    have hlow : lowSurrogate u = false := by
      rw [lowSurrogate, decide_eq_false_iff_not, UInt16.le_iff_toNat_le]
      exact fun hle => absurd (hle.1.trans_lt hu) (by decide)
    exact ⟨hhigh, by rw [single, hhigh, hlow, if_neg (by decide)]⟩
  induction text with
  | nil => rfl
  | cons u rest ih =>
      obtain ⟨hhigh, hsingle⟩ := hlow u (h u List.mem_cons_self)
      have hrest := ih fun v hv => h v (List.mem_cons_of_mem _ hv)
      cases rest with
      | nil => rw [chars, hsingle, List.map_cons, List.map_nil]
      | cons v rest => rw [chars, hhigh, if_neg (by simp), hsingle, hrest, List.map_cons (l := v :: rest)]

theorem ofNat_ascii {n : Nat} (h : n < 0x80) : (Char.ofNat n).toNat = n := by
  have hvalid : n.isValidChar := Or.inl (by omega)
  rw [Char.ofNat, dif_pos hvalid]
  rfl

theorem utf8_of_ascii {text : Text} (h : ∀ u ∈ text, u.toNat < 0x80) :
    Bytes.utf8 text.toString = text.map fun u => UInt8.ofNat u.toNat := by
  have hone : ∀ u ∈ text, String.utf8EncodeChar (Char.ofNat u.toNat) = [UInt8.ofNat u.toNat] := by
    intro u hu
    have hvalue : (Char.ofNat u.toNat).val.toNat = u.toNat := ofNat_ascii (h u hu)
    rw [String.utf8EncodeChar]
    simp only [hvalue]
    exact if_pos (Nat.le_of_lt_succ (h u hu))
  rw [toString, Bytes.utf8_ofList, chars_of_ascii h, List.flatMap_map]
  induction text with
  | nil => rfl
  | cons u rest ih =>
      rw [List.flatMap_cons, hone u List.mem_cons_self, List.map_cons, List.singleton_append,
        ih (fun v hv => h v (List.mem_cons_of_mem _ hv)) fun v hv => hone v (List.mem_cons_of_mem _ hv)]

theorem wellFormed_of_ascii {text : Text} (h : ∀ u ∈ text, u.toNat < 0x80) : text.wellFormed = true := by
  have hone : ∀ u ∈ text, units (Char.ofNat u.toNat) = [u] := by
    intro u hu
    rw [units, ofNat_ascii (h u hu), if_pos ((h u hu).trans (by decide)), UInt16.ofNat_toNat]
  rw [wellFormed, decide_eq_true_iff, ofString, toString, String.toList_ofList, chars_of_ascii h,
    List.flatMap_map]
  induction text with
  | nil => rfl
  | cons u rest ih =>
      rw [List.flatMap_cons, hone u List.mem_cons_self, List.singleton_append,
        ih (fun v hv => h v (List.mem_cons_of_mem _ hv)) fun v hv => hone v (List.mem_cons_of_mem _ hv)]

theorem ofString_of_ascii {s : String} (h : ∀ b ∈ Bytes.utf8 s, b.toNat < 0x80) :
    ofString s = (Bytes.utf8 s).map fun b => UInt16.ofNat b.toNat := by
  set text : Text := (Bytes.utf8 s).map fun b => UInt16.ofNat b.toNat with htext
  have hnat : ∀ b ∈ Bytes.utf8 s, (UInt16.ofNat b.toNat).toNat = b.toNat :=
    fun b hb => ofNat_toNat_of_lt ((h b hb).trans (by decide))
  have hascii : ∀ u ∈ text, u.toNat < 0x80 := by
    rw [htext, List.forall_mem_map]
    exact fun b hb => (hnat b hb).symm ▸ h b hb
  have hsame : Bytes.utf8 text.toString = Bytes.utf8 s := by
    rw [utf8_of_ascii hascii, htext, List.map_map]
    conv_rhs => rw [← List.map_id (Bytes.utf8 s)]
    apply List.map_congr_left
    intro b hb
    rw [Function.comp_apply, hnat b hb, UInt8.ofNat_toNat, id_eq]
  have hwell := wellFormed_of_ascii hascii
  rw [wellFormed, decide_eq_true_iff, Bytes.utf8_injective hsame] at hwell
  exact hwell

end Text
