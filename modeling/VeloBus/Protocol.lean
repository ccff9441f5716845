import VeloBus.Bytes

/-! The binary protocol: limits, error codes, records, the request decoder and the encoders. A
reader is the part of the body not yet read; every length and count is a natural, narrowed where
the code casts. -/

namespace VeloBus

def maxFrame : Nat := 1048576
def maxPayload : Nat := 262144
def maxBatch : Nat := 256
def maxFetchBytes : Nat := 524288
def maxScan : Nat := 4096

def u64Max : Nat := 2 ^ 64 - 1

/-- `saturating_add` on a `u64` counter. -/
def saturatingAdd (n k : Nat) : Nat := min (n + k) u64Max

def saturatingSucc (n : Nat) : Nat := saturatingAdd n 1

namespace Code

def protocol : Nat := 1
def unauthorized : Nat := 2
def invalid : Nat := 3
def capacity : Nat := 4
def limit : Nat := 5
def storage : Nat := 6
def cursor : Nat := 7
def noService : Nat := 8
def overloaded : Nat := 9
def deadlineExceeded : Nat := 10
def serviceUnavailable : Nat := 11
def handlerError : Nat := 12

end Code

structure Error where
  code : Nat
  message : String
deriving DecidableEq, Repr

structure Record where
  topic : String
  key : String
  payload : Bytes
deriving DecidableEq, Repr

/-- Includes space for vector growth and allocator / shared-buffer overhead. -/
def Record.retainedBytes (record : Record) : Nat :=
  256 + 2 * record.topic.utf8ByteSize + 2 * record.key.utf8ByteSize + record.payload.length

def Record.wireBytes (record : Record) : Nat :=
  16 + record.topic.utf8ByteSize + record.key.utf8ByteSize + record.payload.length

structure Event where
  sequence : Nat
  record : Record
deriving DecidableEq, Repr

structure Fetch where
  topic : String
  after : Nat
  limit : Nat
  maxBytes : Nat
  latest : Bool
deriving DecidableEq, Repr

inductive Request where
  | hello (version : Nat) (token : String)
  | publish (records : List Record)
  | fetch (request : Fetch)
  | stats
  | ping
  | register (route : String) (concurrency queueLimit : Nat)
  | rpc (route : String) (timeoutMs : Nat) (payload : Bytes)
  | take (waitMs : Nat)
  | complete (callId : Nat) (failed : Bool) (payload : Bytes)
deriving DecidableEq, Repr

/-- A reader is the bytes after its position. -/
abbrev Reader : Type := Bytes

namespace Reader

def take (length : Nat) (reader : Reader) : Except Error (Bytes × Reader) :=
  if reader.length < length then .error ⟨Code.protocol, "truncated request body"⟩
  else .ok (List.take length reader, List.drop length reader)

/-- A big-endian integer of `width` bytes. -/
def uint (width : Nat) (reader : Reader) : Except Error (Nat × Reader) := do
  let (value, reader) ← take width reader
  return (Bytes.ofBe value, reader)

def u8 : Reader → Except Error (Nat × Reader) := uint 1
def u16 : Reader → Except Error (Nat × Reader) := uint 2
def u32 : Reader → Except Error (Nat × Reader) := uint 4
def u64 : Reader → Except Error (Nat × Reader) := uint 8

def string (max : Nat) (reader : Reader) : Except Error (String × Reader) := do
  let (length, reader) ← u16 reader
  if max < length then throw ⟨Code.invalid, "string exceeds byte limit"⟩
  let (value, reader) ← take length reader
  match Bytes.fromUtf8 value with
  | some value => return (value, reader)
  | none => throw ⟨Code.protocol, "invalid UTF-8"⟩

def finish (reader : Reader) : Except Error Unit :=
  if reader = [] then .ok () else .error ⟨Code.protocol, "unexpected trailing bytes"⟩

end Reader

/-- ASCII letters, digits, dot, underscore and hyphen. -/
def topicByte (b : UInt8) : Bool :=
  (0x30 ≤ b ∧ b ≤ 0x39) ∨ (0x41 ≤ b ∧ b ≤ 0x5a) ∨ (0x61 ≤ b ∧ b ≤ 0x7a) ∨
    b = 0x2e ∨ b = 0x5f ∨ b = 0x2d

def validateTopic (topic : String) (wildcard : Bool) : Except Error Unit :=
  if wildcard ∧ topic = "*" then .ok ()
  else if topic.utf8ByteSize = 0 ∨ 255 < topic.utf8ByteSize ∨
      (Bytes.utf8 topic).all topicByte = false then
    .error ⟨Code.invalid,
      "topic must contain 1..255 ASCII letters, digits, dot, underscore or hyphen"⟩
  else .ok ()

def decodeRecord (reader : Reader) : Except Error (Record × Reader) := do
  let (topic, reader) ← reader.string 255
  validateTopic topic false
  let (key, reader) ← reader.string 1024
  let (length, reader) ← reader.u32
  if maxPayload < length then throw ⟨Code.limit, "payload exceeds 262144 bytes"⟩
  let (payload, reader) ← reader.take length
  return (⟨topic, key, payload⟩, reader)

def decodeRecordsN : Nat → Reader → Except Error (List Record × Reader)
  | 0, reader => return ([], reader)
  | count + 1, reader => do
    let (record, reader) ← decodeRecord reader
    let (records, reader) ← decodeRecordsN count reader
    return (record :: records, reader)

def decodeRecords (reader : Reader) : Except Error (List Record × Reader) := do
  let (count, reader) ← reader.u16
  if count < 1 ∨ maxBatch < count then throw ⟨Code.invalid, "publish count must be 1..256"⟩
  decodeRecordsN count reader

def decodeFetch (reader : Reader) : Except Error (Fetch × Reader) := do
  let (topic, reader) ← reader.string 255
  validateTopic topic true
  let (after, reader) ← reader.u64
  let (limit, reader) ← reader.u16
  let (maxBytes, reader) ← reader.u32
  let (mode, reader) ← reader.u8
  if limit < 1 ∨ maxBatch < limit ∨ maxBytes < 1 ∨ maxFetchBytes < maxBytes then
    throw ⟨Code.invalid, "invalid fetch count or byte budget"⟩
  if 1 < mode then throw ⟨Code.protocol, "unknown fetch mode"⟩
  return (⟨topic, after, limit, maxBytes, mode = 1⟩, reader)

def decodeRegister (reader : Reader) : Except Error (Request × Reader) := do
  let (route, reader) ← reader.string 255
  validateTopic route false
  let (concurrency, reader) ← reader.u16
  let (queueLimit, reader) ← reader.u16
  if concurrency < 1 ∨ 256 < concurrency ∨ queueLimit < 1 ∨ 4096 < queueLimit then
    throw ⟨Code.invalid, "invalid worker concurrency or queue limit"⟩
  return (.register route concurrency queueLimit, reader)

def decodeRpc (reader : Reader) : Except Error (Request × Reader) := do
  let (route, reader) ← reader.string 255
  validateTopic route false
  let (timeoutMs, reader) ← reader.u32
  if timeoutMs < 1 ∨ 30000 < timeoutMs then
    throw ⟨Code.invalid, "RPC timeout must be 1..30000 ms"⟩
  let (length, reader) ← reader.u32
  if maxPayload < length then throw ⟨Code.limit, "RPC payload exceeds 262144 bytes"⟩
  let (payload, reader) ← reader.take length
  return (.rpc route timeoutMs payload, reader)

def decodeComplete (reader : Reader) : Except Error (Request × Reader) := do
  let (callId, reader) ← reader.u64
  let (status, reader) ← reader.u8
  if 1 < status then throw ⟨Code.invalid, "invalid completion status"⟩
  let (length, reader) ← reader.u32
  if maxPayload < length ∨ (status = 1 ∧ 4096 < length) then
    throw ⟨Code.limit, "completion payload exceeds limit"⟩
  let (payload, reader) ← reader.take length
  if status = 1 ∧ Bytes.fromUtf8 payload = none then
    throw ⟨Code.protocol, "handler error must be UTF-8"⟩
  return (.complete callId (status = 1) payload, reader)

def decodeBody (opcode : Nat) (reader : Reader) : Except Error (Request × Reader) :=
  match opcode with
  | 1 => do
    let (version, reader) ← reader.u16
    let (token, reader) ← reader.string 65535
    return (.hello version token, reader)
  | 2 => do
    let (records, reader) ← decodeRecords reader
    return (.publish records, reader)
  | 3 => do
    let (request, reader) ← decodeFetch reader
    return (.fetch request, reader)
  | 4 => return (.stats, reader)
  | 5 => return (.ping, reader)
  | 6 => decodeRegister reader
  | 7 => decodeRpc reader
  | 8 => do
    let (waitMs, reader) ← reader.u32
    if waitMs < 1 ∨ 1000 < waitMs then throw ⟨Code.invalid, "TAKE wait must be 1..1000 ms"⟩
    return (.take waitMs, reader)
  | 9 => decodeComplete reader
  | _ => throw ⟨Code.protocol, "unknown opcode"⟩

def decodeRequest (opcode : Nat) (body : Bytes) : Except Error Request := do
  let (request, reader) ← decodeBody opcode body
  reader.finish
  return request

def putString (value : String) : Bytes :=
  Bytes.toBe 2 value.utf8ByteSize ++ Bytes.utf8 value

def encodeRecord (record : Record) : Bytes :=
  putString record.topic ++ putString record.key ++ Bytes.toBe 4 record.payload.length ++
    record.payload

def encodeRecords (records : List Record) : Bytes :=
  Bytes.toBe 2 records.length ++ records.flatMap encodeRecord

def errorBody (error : Error) : Bytes := Bytes.toBe 2 error.code ++ putString error.message

end VeloBus
