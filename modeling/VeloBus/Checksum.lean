import VeloBus.Bytes
import Mathlib.Data.List.Basic
import Mathlib.Data.BitVec

/-! Checksums and single damaged bytes. CRC-32 takes two strings that differ in one byte to different
values: a step of it is injective in the register and in the byte. -/

/-- The second string is the first one with another byte in one place. -/
inductive OneByte : Bytes → Bytes → Prop where
  | mk (before : Bytes) {b b' : UInt8} (after : Bytes) (h : b ≠ b') :
      OneByte (before ++ b :: after) (before ++ b' :: after)

/-- A checksum that notices every change of one byte. -/
def Detects (hash : Bytes → UInt32) : Prop := ∀ bs bs', OneByte bs bs' → hash bs ≠ hash bs'

namespace OneByte

theorem length_eq {bs bs' : Bytes} (h : OneByte bs bs') : bs'.length = bs.length := by
  cases h with
  | mk before after h => simp only [List.length_append, List.length_cons]

theorem ne_nil {bs bs' : Bytes} (h : OneByte bs bs') : bs ≠ [] := by
  cases h with
  | mk before after h => exact List.append_ne_nil_of_right_ne_nil _ (List.cons_ne_nil _ _)

theorem ne {bs bs' : Bytes} (h : OneByte bs bs') : bs ≠ bs' := by
  cases h with
  | mk before after h =>
      intro heq
      exact h (List.cons.inj (List.append_cancel_left heq)).1

/-- The byte is in the first part or in the second. -/
theorem append {p q r : Bytes} (h : OneByte (p ++ q) r) :
    (∃ p', OneByte p p' ∧ r = p' ++ q) ∨ ∃ q', OneByte q q' ∧ r = p ++ q' := by
  generalize hpq : p ++ q = bs at h
  cases h with
  | @mk before b b' after h =>
      rcases List.append_eq_append_iff.mp hpq with ⟨middle, rfl, rfl⟩ | ⟨middle, rfl, hmiddle⟩
      · exact Or.inr ⟨_, .mk middle after h, List.append_assoc _ _ _⟩
      · cases middle with
        | nil =>
            rw [List.nil_append] at hmiddle
            rw [← hmiddle, List.append_nil]
            exact Or.inr ⟨_, .mk [] after h, rfl⟩
        | cons head middle =>
            obtain ⟨rfl, rfl⟩ := List.cons.inj hmiddle
            refine Or.inl ⟨_, .mk before middle h, ?_⟩
            exact (List.append_assoc before (b' :: middle) q).symm

theorem append_right {p p' : Bytes} (h : OneByte p p') (q : Bytes) : OneByte (p ++ q) (p' ++ q) := by
  cases h with
  | mk before after h =>
      rw [List.append_assoc, List.append_assoc, List.cons_append, List.cons_append]
      exact .mk before (after ++ q) h

theorem append_left {q q' : Bytes} (h : OneByte q q') (p : Bytes) : OneByte (p ++ q) (p ++ q') := by
  cases h with
  | mk before after h =>
      rw [← List.append_assoc, ← List.append_assoc]
      exact .mk (p ++ before) after h

/-- The byte is in one of the parts. -/
theorem flatMap {α : Type*} {f : α → Bytes} {xs : List α} {r : Bytes} (h : OneByte (xs.flatMap f) r) :
    ∃ before x after part, xs = before ++ x :: after ∧ OneByte (f x) part ∧
      r = before.flatMap f ++ (part ++ after.flatMap f) := by
  induction xs generalizing r with
  | nil =>
      exact absurd rfl h.ne_nil
  | cons x xs ih =>
      rw [List.flatMap_cons] at h
      rcases h.append with ⟨part, hpart, rfl⟩ | ⟨rest, hrest, rfl⟩
      · exact ⟨[], x, xs, part, rfl, hpart, rfl⟩
      · obtain ⟨before, y, after, part, rfl, hpart, rfl⟩ := ih hrest
        refine ⟨x :: before, y, after, part, rfl, hpart, ?_⟩
        rw [List.flatMap_cons, List.append_assoc]

/-- Exclusive or with a nonzero byte. -/
theorem modify {bs : Bytes} {i : Nat} (hi : i < bs.length) {x : UInt8} (hx : x ≠ 0) :
    OneByte bs (bs.modify i (· ^^^ x)) := by
  rw [List.modify_eq_take_cons_drop hi]
  have hsplit : bs = bs.take i ++ bs[i] :: bs.drop (i + 1) := by
    rw [← List.drop_eq_getElem_cons hi, List.take_append_drop]
  conv_lhs => rw [hsplit]
  refine .mk _ _ fun heq => hx ?_
  have hzero : bs[i] ^^^ bs[i] ^^^ x = 0 := by
    rw [UInt8.xor_assoc, ← heq, UInt8.xor_self]
  rwa [UInt8.xor_self, UInt8.zero_xor] at hzero

end OneByte

/-! ### CRC-32 -/

namespace Crc32

def polynomial : BitVec 32 := 0xedb88320#32

/-- One bit of the reflected division. -/
def bit (register : BitVec 32) : BitVec 32 :=
  (register >>> 1) ^^^ (if register.getLsbD 0 then polynomial else 0)

def byte (register : BitVec 32) (b : UInt8) : BitVec 32 :=
  bit^[8] (register ^^^ b.toBitVec.setWidth 32)

def crc32 (bs : Bytes) : UInt32 := ⟨~~~(bs.foldl byte 0xffffffff#32)⟩

theorem bit_injective : Function.Injective bit := by
  intro r r' h
  -- The highest bit of the result is the lowest bit of the register.
  have hlow : ∀ r : BitVec 32, (bit r).getLsbD 31 = r.getLsbD 0 := by
    intro r
    rw [bit, BitVec.getLsbD_xor, BitVec.getLsbD_ushiftRight, BitVec.getLsbD_of_ge r (1 + 31) (by decide)]
    cases r.getLsbD 0 <;> rfl
  have hzero : r.getLsbD 0 = r'.getLsbD 0 := by
    rw [← hlow, ← hlow, h]
  rw [bit, bit, hzero] at h
  have hshift : r >>> 1 = r' >>> 1 := (BitVec.xor_left_inj _).mp h
  apply BitVec.eq_of_getLsbD_eq
  intro i hi
  cases i with
  | zero => exact hzero
  | succ i =>
      have := congrArg (fun r => r.getLsbD i) hshift
      simpa only [BitVec.getLsbD_ushiftRight, Nat.add_comm 1 i] using this

theorem byte_injective (b : UInt8) : Function.Injective fun register => byte register b := by
  intro r r' h
  exact (BitVec.xor_left_inj _).mp (bit_injective.iterate 8 h)

theorem byte_injective_byte (register : BitVec 32) : Function.Injective (byte register) := by
  intro b b' h
  have hxor := (BitVec.xor_right_inj _).mp (bit_injective.iterate 8 h)
  apply UInt8.toBitVec_inj.mp
  have := congrArg (BitVec.setWidth 8) hxor
  simpa using this

theorem foldl_injective (bs : Bytes) : Function.Injective fun register => bs.foldl byte register := by
  induction bs with
  | nil => exact fun _ _ h => h
  | cons b bs ih => exact fun _ _ h => byte_injective b (ih h)

/-- **CRC-32 notices every change of one byte.** -/
theorem crc32_detects : Detects crc32 := by
  intro bs bs' h heq
  cases h with
  | @mk before b b' after h =>
      have hregister := BitVec.not_inj.mp (UInt32.toBitVec_inj.mpr heq)
      simp only [List.foldl_append, List.foldl_cons] at hregister
      exact h (byte_injective_byte _ (foldl_injective after hregister))

/-- The check value of the algorithm. -/
example : crc32 [0x31, 0x32, 0x33, 0x34, 0x35, 0x36, 0x37, 0x38, 0x39] = 0xcbf43926 := by decide +kernel

end Crc32
