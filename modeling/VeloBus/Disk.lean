import VeloBus.Bytes
import Mathlib.Data.List.Basic
import Mathlib.Data.List.Infix

/-! One file on a disk: its content and how much of it is synchronised. File-system calls are data, so
that a sequence of them can stop between any two calls or inside a write. A crash keeps a prefix of
the content that holds everything synchronised. -/

/-- The first `synced` bytes are known to be on stable storage. -/
structure Disk where
  content : Bytes
  synced : Nat
  synced_le : synced ≤ content.length

namespace Disk

inductive Call where
  | write (offset : Nat) (bs : Bytes)
  | setLen (length : Nat)
  | sync
deriving DecidableEq

/-- A new file. -/
def empty : Disk := ⟨[], 0, le_rfl⟩

/-- The content cut or filled with zeros to a length. -/
def resize (length : Nat) (content : Bytes) : Bytes :=
  content.take length ++ List.replicate (length - content.length) 0

@[simp] theorem length_resize (length : Nat) (content : Bytes) :
    (resize length content).length = length := by
  simp only [resize, List.length_append, List.length_take, List.length_replicate]
  omega

theorem resize_of_le {length : Nat} {content : Bytes} (h : length ≤ content.length) :
    resize length content = content.take length := by
  rw [resize, Nat.sub_eq_zero_of_le h, List.replicate_zero, List.append_nil]

def call (d : Disk) : Call → Disk
  | .write offset bs =>
    { content := resize offset d.content ++ bs ++ d.content.drop (offset + bs.length)
      synced := min d.synced offset
      synced_le := by
        rw [List.length_append, List.length_append, length_resize]
        omega }
  | .setLen length =>
    { content := resize length d.content
      synced := min d.synced length
      synced_le := by
        rw [length_resize]
        omega }
  | .sync => { d with synced := d.content.length, synced_le := le_rfl }

def run (d : Disk) (calls : List Call) : Disk := calls.foldl call d

/-- The process ended somewhere in a sequence of calls, a write possibly half done. -/
inductive Stopped : Disk → List Call → Disk → Prop where
  | here {d : Disk} {calls : List Call} : Stopped d calls d
  | writing {d : Disk} {offset : Nat} {bs : Bytes} {calls : List Call} (kept : Nat) :
      Stopped d (.write offset bs :: calls) (d.call (.write offset (bs.take kept)))
  | after {d d' : Disk} {c : Call} {calls : List Call} :
      Stopped (d.call c) calls d' → Stopped d (c :: calls) d'

/-- The machine crashed: everything synchronised is still there. -/
structure Crashed (d d' : Disk) : Prop where
  content : d'.content <+: d.content
  synced : d'.synced = d.synced

/-! ### Appending -/

/-- Writing at the end of the file. -/
theorem content_append (d : Disk) (bs : Bytes) :
    (d.call (.write d.content.length bs)).content = d.content ++ bs := by
  simp only [call, resize_of_le le_rfl, List.take_length,
    List.drop_eq_nil_of_le (Nat.le_add_right _ _), List.append_nil]

theorem synced_append (d : Disk) (bs : Bytes) :
    (d.call (.write d.content.length bs)).synced = d.synced := min_eq_left d.synced_le

theorem content_setLen {d : Disk} {length : Nat} (h : length ≤ d.content.length) :
    (d.call (.setLen length)).content = d.content.take length := resize_of_le h

/-- Where an append and the synchronisation after it can stop. -/
theorem Stopped.append_sync {d d' : Disk} {bs : Bytes}
    (h : Stopped d [.write d.content.length bs, .sync] d') :
    (∃ kept, d'.content = d.content ++ bs.take kept ∧ d'.synced = d.synced) ∨
      (d'.content = d.content ++ bs ∧ d'.synced = d'.content.length) := by
  cases h with
  | here => exact Or.inl ⟨0, by simp, rfl⟩
  | writing kept => exact Or.inl ⟨kept, content_append d _, synced_append d _⟩
  | after h =>
      cases h with
      | here =>
          refine Or.inl ⟨bs.length, ?_, synced_append d _⟩
          rw [List.take_length, content_append]
      | after h =>
          cases h
          exact Or.inr ⟨content_append d _, rfl⟩

/-- Where cutting the file and the synchronisation after it can stop. -/
theorem Stopped.setLen_sync {d d' : Disk} {length : Nat} (hle : length ≤ d.content.length)
    (h : Stopped d [.setLen length, .sync] d') :
    d' = d ∨ (d'.content = d.content.take length ∧
      (d'.synced = min d.synced length ∨ d'.synced = d'.content.length)) := by
  cases h with
  | here => exact Or.inl rfl
  | after h =>
      cases h with
      | here => exact Or.inr ⟨content_setLen hle, Or.inl rfl⟩
      | after h =>
          cases h
          exact Or.inr ⟨content_setLen hle, Or.inr rfl⟩

end Disk
