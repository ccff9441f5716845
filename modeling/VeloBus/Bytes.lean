import Mathlib.Algebra.Order.Ring.Nat
import Mathlib.Tactic.Ring

/-! Byte strings: fixed-width big-endian naturals and UTF-8. `toBe` keeps the low bytes of its
argument, as a narrowing cast followed by `to_be_bytes` does. -/

abbrev Bytes : Type := List UInt8

namespace Bytes

/-- The low `n` bytes of a natural, most significant first. -/
def toBe : Nat → Nat → Bytes
  | 0, _ => []
  | n + 1, x => UInt8.ofNat (x / 256 ^ n) :: toBe n x

def ofBe : Bytes → Nat
  | [] => 0
  | b :: bs => b.toNat * 256 ^ bs.length + ofBe bs

@[simp] theorem length_toBe (n x : Nat) : (toBe n x).length = n := by
  induction n with
  | zero => rfl
  | succ n ih => rw [toBe, List.length_cons, ih]

theorem ofBe_lt (bs : Bytes) : ofBe bs < 256 ^ bs.length := by
  induction bs with
  | nil => exact Nat.one_pos
  | cons b bs ih =>
      have hb : b.toNat + 1 ≤ 256 := b.toNat_lt
      have hmul := Nat.mul_le_mul_right (256 ^ bs.length) hb
      rw [ofBe, List.length_cons, pow_succ, Nat.mul_comm (256 ^ bs.length)]
      rw [Nat.add_mul, Nat.one_mul] at hmul
      omega

theorem ofBe_toBe (n x : Nat) : ofBe (toBe n x) = x % 256 ^ n := by
  induction n with
  | zero => simp [toBe, ofBe, Nat.mod_one]
  | succ n ih =>
      rw [toBe, ofBe, ih, length_toBe, UInt8.toNat_ofNat', Nat.mod_pow_succ (b := 256),
        Nat.mul_comm, Nat.add_comm]

theorem ofBe_toBe_of_lt {n x : Nat} (h : x < 256 ^ n) : ofBe (toBe n x) = x := by
  rw [ofBe_toBe, Nat.mod_eq_of_lt h]

theorem toBe_add_mul (n x k : Nat) : toBe n (k * 256 ^ n + x) = toBe n x := by
  induction n generalizing k with
  | zero => rfl
  | succ n ih =>
      have hsplit : k * 256 ^ (n + 1) + x = 256 ^ n * (k * 256) + x := by ring
      rw [toBe, toBe, hsplit, Nat.mul_add_div (Nat.pow_pos (by decide)), ← hsplit]
      congr 1
      · apply UInt8.toNat_inj.mp
        rw [UInt8.toNat_ofNat', UInt8.toNat_ofNat']
        omega
      · rw [pow_succ', ← Nat.mul_assoc]
        exact ih (k * 256)

theorem toBe_ofBe (bs : Bytes) : toBe bs.length (ofBe bs) = bs := by
  induction bs with
  | nil => rfl
  | cons b bs ih =>
      have hdiv : (b.toNat * 256 ^ bs.length + ofBe bs) / 256 ^ bs.length = b.toNat := by
        rw [Nat.mul_comm, Nat.mul_add_div (Nat.pow_pos (by decide)), Nat.div_eq_of_lt (ofBe_lt bs),
          Nat.add_zero]
      rw [ofBe, List.length_cons, toBe, hdiv, toBe_add_mul, ih, UInt8.ofNat_toNat]

/-! ### UTF-8 -/

/-- The UTF-8 encoding of a string. -/
def utf8 (s : String) : Bytes := s.toByteArray.data.toList

/-- Strict decoding: the string with this encoding, if there is one. -/
def fromUtf8 (bs : Bytes) : Option String := String.fromUTF8? ⟨bs.toArray⟩

theorem length_utf8 (s : String) : (utf8 s).length = s.utf8ByteSize := rfl

theorem fromUtf8_eq_some_iff {bs : Bytes} {s : String} : fromUtf8 bs = some s ↔ bs = utf8 s := by
  rw [fromUtf8, String.fromUTF8?]
  split
  · rename_i h
    rw [Option.some_inj]
    constructor
    · rintro rfl
      rfl
    · intro heq
      apply String.toByteArray_inj.mp
      change (⟨bs.toArray⟩ : ByteArray) = s.toByteArray
      rw [heq, utf8, Array.toArray_toList]
  · rename_i h
    constructor
    · intro hnone
      cases hnone
    · rintro rfl
      exact absurd s.isValidUTF8 (by simpa [utf8] using h)

theorem fromUtf8_utf8 (s : String) : fromUtf8 (utf8 s) = some s := fromUtf8_eq_some_iff.mpr rfl

theorem utf8_injective {s s' : String} (h : utf8 s = utf8 s') : s = s' := by
  have hdecode := fromUtf8_utf8 s
  rw [h, fromUtf8_utf8] at hdecode
  exact (Option.some.inj hdecode).symm

/-- The continuation bytes that may follow a given first byte. -/
def secondByteOk (first second : UInt8) : Bool :=
  if first = 0xe0 then 0xa0 ≤ second ∧ second ≤ 0xbf
  else if first = 0xed then 0x80 ≤ second ∧ second ≤ 0x9f
  else if first = 0xf0 then 0x90 ≤ second ∧ second ≤ 0xbf
  else if first = 0xf4 then 0x80 ≤ second ∧ second ≤ 0x8f
  else 0x80 ≤ second ∧ second ≤ 0xbf

/-- The length of the ill-formed start of a byte string that one replacement character stands
for: the longest start of a well-formed sequence, or one byte. -/
def illFormedLength (bs : Bytes) : Nat :=
  let first := bs.getD 0 0
  let second := bs.getD 1 0
  let third := bs.getD 2 0
  if 0xe0 ≤ first ∧ first ≤ 0xef then
    if secondByteOk first second then 2 else 1
  else if 0xf0 ≤ first ∧ first ≤ 0xf4 then
    if secondByteOk first second then
      if 0x80 ≤ third ∧ third ≤ 0xbf then 3 else 2
    else 1
  else 1

/-- Lossy decoding with a bound on the number of characters still to be produced. -/
def lossyChars : Nat → Bytes → List Char
  | 0, _ => []
  | _ + 1, [] => []
  | n + 1, b :: bs =>
    match ByteArray.utf8DecodeChar? ⟨(b :: bs).toArray⟩ 0 with
    | some c => c :: lossyChars n ((b :: bs).drop c.utf8Size)
    | none => '\ufffd' :: lossyChars n ((b :: bs).drop (illFormedLength (b :: bs)))

/-- `String::from_utf8_lossy`: every ill-formed part is replaced by U+FFFD. -/
def fromUtf8Lossy (bs : Bytes) : String := String.ofList (lossyChars bs.length bs)

end Bytes
