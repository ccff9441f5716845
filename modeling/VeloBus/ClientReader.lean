import VeloBus.ClientRequests

/-! The reader of the bodies of responses, and what it makes of the fields the broker writes. -/

namespace VeloBus.Client

open Codec

def decodeUTF8 (bytes : Bytes) : Except Failure Text :=
  match Bytes.fromUtf8 bytes with
  | some s => .ok (Text.ofString s)
  | none => .error (.protocol "Response contains invalid UTF-8")

namespace Reader

def take (count : Nat) (reader : Bytes) : Except Failure (Bytes × Bytes) :=
  if reader.length < count then .error (.protocol "Truncated response body")
  else .ok (reader.take count, reader.drop count)

/-- A big-endian integer of `width` bytes. -/
def uint (width : Nat) (reader : Bytes) : Except Failure (Nat × Bytes) := do
  let (bytes, reader) ← take width reader
  return (Bytes.ofBe bytes, reader)

def u8 : Bytes → Except Failure (Nat × Bytes) := uint 1
def u16 : Bytes → Except Failure (Nat × Bytes) := uint 2
def u32 : Bytes → Except Failure (Nat × Bytes) := uint 4
def u64 : Bytes → Except Failure (Nat × Bytes) := uint 8

def string (max : Nat) (reader : Bytes) : Except Failure (Text × Bytes) := do
  let (count, reader) ← u16 reader
  if max < count then throw (.protocol "Response string exceeds its size limit")
  let (bytes, reader) ← take count reader
  return (← decodeUTF8 bytes, reader)

def payload (reader : Bytes) : Except Failure (Bytes × Bytes) := do
  let (count, reader) ← u32 reader
  if maxPayload < count then throw (.protocol "Response payload exceeds its size limit")
  take count reader

def bool (reader : Bytes) : Except Failure (Bool × Bytes) := do
  let (value, reader) ← u8 reader
  if 1 < value then throw (.protocol "Invalid boolean in response")
  return (value = 1, reader)

def «end» (reader : Bytes) : Except Failure Unit :=
  if reader = [] then .ok () else .error (.protocol "Trailing bytes in response")

end Reader

/-! ### The broker's fields -/

namespace Reader

theorem take_append {count : Nat} {bs : Bytes} (h : bs.length = count) (rest : Bytes) :
    take count (bs ++ rest) = .ok (bs, rest) := by
  rw [take, if_neg, List.take_left' h, List.drop_left' h]
  rw [List.length_append, h]
  omega

theorem uint_toBe {width n : Nat} (h : n < 256 ^ width) (rest : Bytes) :
    uint width (Bytes.toBe width n ++ rest) = .ok (n, rest) := by
  rw [uint, take_append (Bytes.length_toBe _ _)]
  change Except.ok (Bytes.ofBe (Bytes.toBe width n), rest) = _
  rw [Bytes.ofBe_toBe_of_lt h]

theorem string_putString {max : Nat} {s : String} (hmax : s.utf8ByteSize ≤ max) (h : s.utf8ByteSize < 2 ^ 16)
    (rest : Bytes) : string max (putString s ++ rest) = .ok (Text.ofString s, rest) := by
  have hread : u16 (putString s ++ rest) = .ok (s.utf8ByteSize, Bytes.utf8 s ++ rest) := by
    rw [putString, List.append_assoc]
    exact uint_toBe h _
  rw [string, hread]
  change (if max < s.utf8ByteSize then _ else _) = _
  rw [if_neg (not_lt.mpr hmax), take_append (Bytes.length_utf8 s)]
  change (decodeUTF8 (Bytes.utf8 s) >>= fun text => pure (text, rest)) = _
  rw [decodeUTF8, Bytes.fromUtf8_utf8]
  rfl

theorem payload_append {bs : Bytes} (h : bs.length ≤ maxPayload) (rest : Bytes) :
    payload (Bytes.toBe 4 bs.length ++ bs ++ rest) = .ok (bs, rest) := by
  have hread : u32 (Bytes.toBe 4 bs.length ++ bs ++ rest) = .ok (bs.length, bs ++ rest) := by
    rw [List.append_assoc]
    exact uint_toBe (h.trans_lt (by decide)) _
  rw [payload, hread]
  change (if maxPayload < bs.length then _ else _) = _
  rw [if_neg (not_lt.mpr h)]
  exact take_append rfl rest

theorem bool_flag (flag : Bool) (rest : Bytes) :
    bool ((if flag then 1 else 0) :: rest) = .ok (flag, rest) := by
  cases flag <;> exact rfl

end Reader

end VeloBus.Client
