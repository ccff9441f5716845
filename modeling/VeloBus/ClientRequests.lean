import Mathlib.Data.List.Forall2
import Mathlib.Data.Nat.Cast.Order.Ring
import VeloBus.ClientValues
import VeloBus.Framing
import VeloBus.RequestCodec

/-! The requests of the client: what its checks let through, and the bodies it sends. An argument is any
value a caller can pass, of the declared type or not. -/

namespace VeloBus.Client

open Codec

def maxFrame : Nat := 1048576
def maxPayload : Nat := 262144
def maxFetchBytes : Nat := 524288
def maxU64 : Nat := 0xffffffffffffffff

/-! ### Checks -/

def isSafeInteger (value : ℚ) : Bool := value.isInt ∧ -(2 ^ 53 - 1) ≤ value ∧ value ≤ 2 ^ 53 - 1

def integer (value : Value) (min max : Nat) (name : String) : Except Failure Nat :=
  match value with
  | .number number =>
    if isSafeInteger number = false ∨ number < min ∨ max < number then
      .error (.rangeError s!"{name} must be an integer between {min} and {max}")
    else .ok number.num.toNat
  | _ => .error (.rangeError s!"{name} must be an integer between {min} and {max}")

/-- ASCII letters, digits, dot, underscore and hyphen. -/
def topicUnit (u : UInt16) : Bool :=
  (0x41 ≤ u ∧ u ≤ 0x5a) ∨ (0x61 ≤ u ∧ u ≤ 0x7a) ∨ (0x30 ≤ u ∧ u ≤ 0x39) ∨
    u = 0x2e ∨ u = 0x5f ∨ u = 0x2d

/-- The expression for topics and routes. -/
def isTopic (topic : Text) : Bool := 1 ≤ topic.length ∧ topic.length ≤ 255 ∧ topic.all topicUnit

def topicMessage : String :=
  "topic must contain 1..255 ASCII letters, digits, dots, underscores or hyphens"

def topicBytes (topic : Value) (wildcard : Bool) : Except Failure Bytes :=
  match topic with
  | .text topic =>
    if (wildcard ∧ topic = Text.ofString "*") ∨ isTopic topic then
      .ok (Bytes.utf8 topic.toString)
    else .error (.typeError topicMessage)
  | _ => .error (.typeError topicMessage)

def stringBytes (value : Value) (max : Nat) (name : String) : Except Failure Bytes :=
  match value with
  | .text value =>
    if max < (Bytes.utf8 value.toString).length ∨ value.wellFormed = false then
      .error (.rangeError s!"{name} must be valid UTF-8 and at most {max} bytes")
    else .ok (Bytes.utf8 value.toString)
  | _ => .error (.typeError s!"{name} must be a string")

def payloadBytes (payload : Value) : Except Failure Bytes := do
  let bytes ← match payload with
    | .text payload => pure (Bytes.utf8 payload.toString)
    | .bytes payload => pure payload
    | _ => throw (.typeError "payload must be a string or Uint8Array")
  if maxPayload < bytes.length then throw (.rangeError "payload exceeds 262144 bytes")
  return bytes

def TypedArray.payloadBytes (payload : TypedArray) : Except Failure TypedArray :=
  if maxPayload < payload.length then .error (.rangeError "payload exceeds 262144 bytes") else .ok payload

/-- The end of `handlerErrorBytes`. The loop goes below zero when the first byte is inside a character too, and
`subarray(0, -1)` leaves out the last byte only. -/
def cut (bytes : Bytes) : Bytes :=
  if bytes.length ≤ 4096 then bytes
  else if Bytes.boundary bytes 4096 = 0 ∧ Bytes.continuation (bytes.getD 0 0) then bytes.dropLast
  else bytes.take (Bytes.boundary bytes 4096)

/-- For a message that is a string. -/
def handlerErrorBytes (message : Text) : Bytes := cut (Bytes.utf8 (Text.toString (message.take 4096)))

/-- For any value. -/
def Thrown.handlerErrorBytes (error : Thrown) : Except Failure Bytes := do
  let message ← error.message
  let bytes ← message.slice.buffer
  return cut bytes

/-! ### Calls -/

structure ConnectOptions where
  host : Value
  port : Value
  token : Value
  timeoutMs : Value
  maxPendingRequests : Value
deriving DecidableEq, Repr

/-- The settings of a connection. -/
structure Settings where
  host : Text
  port : Nat
  token : Bytes
  timeoutMs : Nat
  maxPendingRequests : Nat
deriving DecidableEq, Repr

/-- The checks of `open`. -/
def settings (options : ConnectOptions) : Except Failure Settings := do
  let host ← match options.host.orElse (.text (Text.ofString "127.0.0.1")) with
    | .text (u :: host) => pure (u :: host)
    | _ => throw (.typeError "host must be a nonempty string")
  let port ← integer (options.port.orElse (.number 7447)) 1 65535 "port"
  let timeoutMs ← integer (options.timeoutMs.orElse (.number 5000)) 1 2147483647 "timeoutMs"
  let maxPending ← integer (options.maxPendingRequests.orElse (.number 32)) 1 256 "maxPendingRequests"
  let token ← stringBytes (options.token.orElse (.text [])) 65535 "token"
  return ⟨host, port, token, timeoutMs, maxPending⟩

def hello (options : ConnectOptions) : Except Failure Bytes := do
  let ⟨_, _, token, _, _⟩ ← settings options
  return Bytes.toBe 2 1 ++ Bytes.toBe 2 token.length ++ token

structure RequestOptions where
  timeoutMs : Value
deriving DecidableEq, Repr

def request (route payload : Value) (options : RequestOptions) : Except Failure Bytes := do
  let encodedRoute ← topicBytes route false
  let deadlineMs ← integer (options.timeoutMs.orElse (.number 5000)) 1 30000 "timeoutMs"
  let encodedPayload ← payloadBytes payload
  return Bytes.toBe 2 encodedRoute.length ++ encodedRoute ++ Bytes.toBe 4 deadlineMs ++
    Bytes.toBe 4 encodedPayload.length ++ encodedPayload

structure HandleOptions where
  concurrency : Value
  queueLimit : Value
  onError : Value
deriving DecidableEq, Repr

/-- The registration `handle` sends on its own connection. -/
def handle (route handler : Value) (options : HandleOptions) : Except Failure Bytes := do
  let encodedRoute ← topicBytes route false
  if handler ≠ .function then throw (.typeError "handler must be a function")
  let concurrency ← integer (options.concurrency.orElse (.number 8)) 1 32 "concurrency"
  let queueLimit ← integer (options.queueLimit.orElse (.number 128)) 1 4096 "queueLimit"
  if options.onError ≠ .undefined ∧ options.onError ≠ .function then
    throw (.typeError "onError must be a function")
  return Bytes.toBe 2 encodedRoute.length ++ encodedRoute ++ Bytes.toBe 2 concurrency ++
    Bytes.toBe 2 queueLimit

def take : Bytes := Bytes.toBe 4 1000

/-- How a handler ends: with a value, with a `Uint8Array` that is not as it seems, or by throwing. -/
inductive Outcome where
  | returned (value : Value)
  | returnedArray (array : TypedArray)
  | threw (error : Thrown)
deriving DecidableEq, Repr

def Failure.message : Failure → String
  | typeError message => message
  | rangeError message => message
  | protocol message => message
  | broker _ message => message
  | connectionClosed message => message
  | requestTimeout message => message
  | backpressure => "Maximum pending requests reached; await an outstanding request before sending more"
  | other message => message

/-- What the client itself throws is an `Error`. -/
def Failure.thrown (failure : Failure) : Thrown := .error (.text (Text.ofString failure.message))

/-- `payloadBytes(await handler(request))` -/
def Outcome.output : Outcome → Except Thrown TypedArray
  | returned value =>
    match payloadBytes value with
    | .ok bytes => .ok (.of bytes)
    | .error failure => .error failure.thrown
  | returnedArray array =>
    match array.payloadBytes with
    | .ok array => .ok array
    | .error failure => .error failure.thrown
  | threw error => .error error

/-- The status and the output a slot completes its job with. -/
def settle (outcome : Outcome) : Except Failure (Nat × TypedArray) :=
  match outcome.output with
  | .ok output => .ok (0, output)
  | .error error => do return (1, .of (← error.handlerErrorBytes))

/-- The body of a COMPLETE, once the payload was put in its place. -/
def complete (callId : UInt64) (status : Nat) (payload : Bytes) : Bytes :=
  Bytes.toBe 8 callId.toNat ++ Bytes.toBe 1 status ++ Bytes.toBe 4 payload.length ++ payload

structure PublishRecord where
  topic : Value
  key : Value
  payload : Value
deriving DecidableEq, Repr

structure EncodedRecord where
  topic : Bytes
  key : Bytes
  payload : Bytes
deriving DecidableEq, Repr

def EncodedRecord.size (record : EncodedRecord) : Nat :=
  2 + record.topic.length + 2 + record.key.length + 4 + record.payload.length

def EncodedRecord.bytes (record : EncodedRecord) : Bytes :=
  Bytes.toBe 2 record.topic.length ++ record.topic ++ Bytes.toBe 2 record.key.length ++ record.key ++
    Bytes.toBe 4 record.payload.length ++ record.payload

def encodeRecord (record : PublishRecord) : Except Failure EncodedRecord := do
  let topic ← topicBytes record.topic false
  let key ← stringBytes (record.key.orElse (.text [])) 1024 "key"
  let payload ← payloadBytes record.payload
  return ⟨topic, key, payload⟩

/-- The records are encoded in turn, with the size of the body so far. -/
def encodeRecords : Nat → List PublishRecord → Except Failure (Nat × List EncodedRecord)
  | size, [] => return (size, [])
  | size, record :: records => do
    let encoded ← encodeRecord record
    let size := size + encoded.size
    if maxFrame < size + 5 then throw (.rangeError "Publication batch exceeds frame size limit")
    let (size, rest) ← encodeRecords size records
    return (size, encoded :: rest)

/-- `none` is not an array. -/
def publishBatch (records : Option (List PublishRecord)) : Except Failure Bytes := do
  let records ← match records with
    | some records => pure records
    | none => throw (.typeError "records must be an array")
  let _ ← integer (.number records.length) 1 256 "records.length"
  let (_, encoded) ← encodeRecords 2 records
  return Bytes.toBe 2 encoded.length ++ encoded.flatMap EncodedRecord.bytes

structure FetchOptions where
  after : Value
  limit : Value
  maxBytes : Value
  mode : Value
deriving DecidableEq, Repr

/-- The checked arguments of a fetch. -/
structure Query where
  topic : Bytes
  after : Nat
  limit : Nat
  maxBytes : Nat
  latest : Bool
deriving DecidableEq, Repr

def query (topic : Value) (options : FetchOptions) : Except Failure Query := do
  let encodedTopic ← topicBytes topic true
  let after ← match options.after.orElse (.bigint 0) with
    | .bigint after =>
      if after < 0 ∨ maxU64 < after then throw (.rangeError "after must be an unsigned 64-bit bigint")
      else pure after.toNat
    | _ => throw (.rangeError "after must be an unsigned 64-bit bigint")
  let limit ← integer (options.limit.orElse (.number 128)) 1 256 "limit"
  let maxBytes ← integer (options.maxBytes.orElse (.number maxFetchBytes)) 1 maxFetchBytes "maxBytes"
  let mode := options.mode.orElse (.text (Text.ofString "all"))
  if mode ≠ .text (Text.ofString "all") ∧ mode ≠ .text (Text.ofString "latest") then
    throw (.typeError "mode must be all or latest")
  return ⟨encodedTopic, after, limit, maxBytes, mode = .text (Text.ofString "latest")⟩

def fetch (topic : Value) (options : FetchOptions) : Except Failure Bytes := do
  let ⟨topic, after, limit, maxBytes, latest⟩ ← query topic options
  return Bytes.toBe 2 topic.length ++ topic ++ Bytes.toBe 8 after ++ Bytes.toBe 2 limit ++
    Bytes.toBe 4 maxBytes ++ Bytes.toBe 1 (if latest then 1 else 0)

/-- The calls of the client that send a request. -/
inductive Call where
  | hello (options : ConnectOptions)
  | publishBatch (records : Option (List PublishRecord))
  | fetch (topic : Value) (options : FetchOptions)
  | stats
  | ping
  | handle (route handler : Value) (options : HandleOptions)
  | request (route payload : Value) (options : RequestOptions)
  | take
  | complete (callId : UInt64) (outcome : Outcome)
deriving DecidableEq, Repr

/-- The opcode and the body that reach `send`, unless a check fails. -/
def Call.sent : Call → Except Failure (Nat × Bytes)
  | hello options => return (1, ← Client.hello options)
  | publishBatch records => return (2, ← Client.publishBatch records)
  | fetch topic options => return (3, ← Client.fetch topic options)
  | stats => return (4, [])
  | ping => return (5, [])
  | handle route handler options => return (6, ← Client.handle route handler options)
  | request route payload options => return (7, ← Client.request route payload options)
  | take => return (8, Client.take)
  | complete callId outcome => do
    let (status, payload) ← settle outcome
    return (9, Client.complete callId status (← payload.written))

def envelope (opcode requestId : Nat) (body : Bytes) : Except Failure Bytes :=
  if maxFrame < body.length + 5 then .error (.rangeError "Request exceeds 1048576 byte frame limit")
  else .ok (Bytes.toBe 4 (body.length + 5) ++ Bytes.toBe 1 opcode ++ Bytes.toBe 4 requestId ++ body)

/-! ### What the checks say -/

theorem integer_ok {value : Value} {min max : Nat} {name : String} {n : Nat}
    (h : integer value min max name = .ok n) : value = .number n ∧ min ≤ n ∧ n ≤ max := by
  cases value with
  | number number =>
      simp only [integer] at h
      split_ifs at h with hbad
      obtain rfl := Except.ok.inj h
      simp only [not_or, Bool.not_eq_false, not_lt] at hbad
      obtain ⟨hsafe, hmin, hmax⟩ := hbad
      have hint : number.isInt = true := (of_decide_eq_true hsafe).1
      have hnum : (number.num : ℚ) = number := Rat.eq_num_of_isInt hint |>.symm
      have hpos : 0 ≤ number.num := Rat.num_nonneg.mpr ((Nat.cast_nonneg min).trans hmin)
      have hcast : ((number.num.toNat : ℕ) : ℚ) = number := by
        conv_rhs => rw [← hnum, ← Int.toNat_of_nonneg hpos]
        rfl
      refine ⟨by rw [hcast], ?_, ?_⟩
      · exact_mod_cast hcast ▸ hmin
      · exact_mod_cast hcast ▸ hmax
  | _ => cases h

theorem topicUnit_ascii {u : UInt16} (h : topicUnit u = true) :
    u.toNat < 0x80 ∧ topicByte (UInt8.ofNat u.toNat) = true := by
  have hall : ∀ n < 0x80, topicUnit (UInt16.ofNat n) = true → topicByte (UInt8.ofNat n) = true := by
    decide
  have hlt : u.toNat < 0x80 := by
    simp only [topicUnit, decide_eq_true_iff, UInt16.le_iff_toNat_le, ← UInt16.toNat_inj] at h
    have h₁ : (0x5a : UInt16).toNat = 0x5a := rfl
    have h₂ : (0x7a : UInt16).toNat = 0x7a := rfl
    have h₃ : (0x39 : UInt16).toNat = 0x39 := rfl
    have h₄ : (0x2e : UInt16).toNat = 0x2e := rfl
    have h₅ : (0x5f : UInt16).toNat = 0x5f := rfl
    have h₆ : (0x2d : UInt16).toNat = 0x2d := rfl
    omega
  exact ⟨hlt, hall u.toNat hlt (by rwa [UInt16.ofNat_toNat])⟩

theorem isTopic_ascii {topic : Text} (h : isTopic topic = true) : ∀ u ∈ topic, u.toNat < 0x80 := by
  rw [isTopic, decide_eq_true_iff] at h
  exact fun u hu => (topicUnit_ascii (List.all_eq_true.mp h.2.2 u hu)).1

theorem ofString_of_isTopic {topic : Text} (h : isTopic topic = true) :
    Text.ofString topic.toString = topic := by
  have hwell := Text.wellFormed_of_ascii (isTopic_ascii h)
  rwa [Text.wellFormed, decide_eq_true_iff] at hwell

theorem validateTopic_of_isTopic {topic : Text} (h : isTopic topic = true) (wildcard : Bool) :
    validateTopic topic.toString wildcard = .ok () := by
  have hutf8 := Text.utf8_of_ascii (isTopic_ascii h)
  rw [isTopic, decide_eq_true_iff] at h
  obtain ⟨hone, hmost, hall⟩ := h
  have hsize : topic.toString.utf8ByteSize = topic.length := by
    rw [← Bytes.length_utf8, hutf8, List.length_map]
  have hbytes : (Bytes.utf8 topic.toString).all topicByte = true := by
    rw [hutf8, List.all_map, List.all_eq_true]
    exact fun u hu => (topicUnit_ascii (List.all_eq_true.mp hall u hu)).2
  have hno : ¬(topic.toString.utf8ByteSize = 0 ∨ 255 < topic.toString.utf8ByteSize ∨
      (Bytes.utf8 topic.toString).all topicByte = false) := by
    rw [hsize, hbytes]
    simp only [Bool.true_eq_false, or_false]
    omega
  rw [validateTopic, if_neg hno, ite_self]

theorem topicBytes_ok {topic : Value} {wildcard : Bool} {bytes : Bytes}
    (h : topicBytes topic wildcard = .ok bytes) :
    ∃ s, topic = .text (Text.ofString s) ∧ bytes = Bytes.utf8 s ∧ validateTopic s wildcard = .ok () := by
  cases topic with
  | text topic =>
      simp only [topicBytes] at h
      split_ifs at h with hgood
      obtain rfl := Except.ok.inj h
      rcases hgood with ⟨rfl, rfl⟩ | htopic
      · exact ⟨"*", rfl, by rw [Text.toString_ofString], rfl⟩
      · exact ⟨topic.toString, by rw [ofString_of_isTopic htopic], rfl, validateTopic_of_isTopic htopic _⟩
  | _ => cases h

theorem stringBytes_ok {value : Value} {max : Nat} {name : String} {bytes : Bytes}
    (h : stringBytes value max name = .ok bytes) :
    ∃ s, value = .text (Text.ofString s) ∧ bytes = Bytes.utf8 s ∧ s.utf8ByteSize ≤ max := by
  cases value with
  | text value =>
      simp only [stringBytes] at h
      split_ifs at h with hbad
      obtain rfl := Except.ok.inj h
      rw [not_or, not_lt, Bool.not_eq_false, Text.wellFormed, decide_eq_true_iff] at hbad
      exact ⟨value.toString, by rw [hbad.2], rfl, hbad.1⟩
  | _ => cases h

/-- The bytes of a payload, or the encoding of a text. -/
def SamePayload (value : Value) (payload : Bytes) : Prop :=
  value = .bytes payload ∨ ∃ text, value = .text text ∧ payload = Bytes.utf8 text.toString

theorem payloadBytes_ok {value : Value} {bytes : Bytes} (h : payloadBytes value = .ok bytes) :
    SamePayload value bytes ∧ bytes.length ≤ maxPayload := by
  cases value with
  | text text =>
      simp only [payloadBytes, bind_eq_ok, check_eq_ok, pure_eq_ok, not_lt] at h
      obtain ⟨_, rfl, hfits, rfl⟩ := h
      exact ⟨Or.inr ⟨text, rfl, rfl⟩, hfits⟩
  | bytes payload =>
      simp only [payloadBytes, bind_eq_ok, check_eq_ok, pure_eq_ok, not_lt] at h
      obtain ⟨_, rfl, hfits, rfl⟩ := h
      exact ⟨Or.inl rfl, hfits⟩
  | _ => cases h

/-- The first byte of a text starts a character. -/
theorem continuation_utf8 (s : String) : Bytes.continuation ((Bytes.utf8 s).getD 0 0) = false := by
  have hs : Bytes.utf8 s = s.toList.flatMap String.utf8EncodeChar := by
    rw [← Bytes.utf8_ofList, String.ofList_toList]
  have h := Bytes.getD_of_prefix (List.nil_prefix (l := s.toList))
  rw [List.flatMap_nil, List.length_nil] at h
  rw [hs]
  exact h

theorem continuation_legible {bytes : Bytes} (h : (Bytes.fromUtf8 bytes).isSome) :
    Bytes.continuation (bytes.getD 0 0) = false := by
  obtain ⟨s, hs⟩ := Option.isSome_iff_exists.mp h
  rw [Bytes.fromUtf8_eq_some_iff.mp hs]
  exact continuation_utf8 s

theorem cut_utf8 (s : String) : cut (Bytes.utf8 s) =
    if (Bytes.utf8 s).length ≤ 4096 then Bytes.utf8 s
    else (Bytes.utf8 s).take (Bytes.boundary (Bytes.utf8 s) 4096) := by
  unfold cut
  rw [continuation_utf8 s]
  simp

/-- What is left of bytes is text of at most 4096 bytes if they spell some. -/
theorem cut_legal_iff (bytes : Bytes) :
    ((cut bytes).length ≤ 4096 ∧ (Bytes.fromUtf8 (cut bytes)).isSome) ↔ Spells bytes := by
  have hbeyond : ∀ {m : Nat}, bytes.length ≤ m → Bytes.continuation (bytes.getD m 0) = false := by
    intro m hm
    rw [List.getD_eq_default _ _ hm]
    rfl
  unfold cut
  split_ifs with hfits hinside
  · constructor
    · rintro ⟨-, hlegible⟩
      exact ⟨bytes.length, hfits, Or.inl rfl, by rwa [List.take_length]⟩
    · rintro ⟨n, hn, rfl | ⟨hlt, -, hlast⟩, hlegible⟩
      · rw [List.take_length] at hlegible
        exact ⟨hfits, hlegible⟩
      · have hlater := hlast 4096 (by omega) le_rfl
        rw [hbeyond hfits] at hlater
        cases hlater
  · obtain ⟨hzero, hfirst⟩ := hinside
    rw [not_le] at hfits
    constructor
    · rintro ⟨-, hlegible⟩
      have hstart := continuation_legible hlegible
      rw [List.getD_eq_getElem _ _ (by rw [List.length_dropLast]; omega), List.getElem_dropLast,
        ← List.getD_eq_getElem _ 0, hfirst] at hstart
      cases hstart
    · rintro ⟨n, hn, rfl | ⟨-, hstart, -⟩, -⟩
      · omega
      · -- No place up to 4096 starts a character.
        obtain rfl := Nat.le_zero.mp (hzero ▸ Bytes.le_boundary hn hstart)
        rw [hfirst] at hstart
        cases hstart
  · rw [not_le] at hfits
    have hboundary := Bytes.boundary_le bytes 4096
    have hstart : Bytes.continuation (bytes.getD (Bytes.boundary bytes 4096) 0) = false := by
      rcases Bytes.boundary_eq bytes 4096 with hzero | hstart
      · rw [hzero]
        exact Bool.eq_false_iff.mpr fun hfirst => hinside ⟨hzero, hfirst⟩
      · exact hstart
    constructor
    · rintro ⟨-, hlegible⟩
      refine ⟨_, hboundary, Or.inr ⟨by omega, hstart, fun m hlt hm => ?_⟩, hlegible⟩
      by_contra hnot
      exact absurd (Bytes.le_boundary hm (Bool.eq_false_iff.mpr hnot)) (by omega)
    · rintro ⟨n, hn, rfl | ⟨-, hplace, hlast⟩, hlegible⟩
      · omega
      · have hle := Bytes.le_boundary hn hplace
        obtain rfl : n = Bytes.boundary bytes 4096 := by
          by_contra hne
          have hlater := hlast _ (by omega) hboundary
          rw [hstart] at hlater
          cases hlater
        exact ⟨(List.length_take_le _ _).trans hboundary, hlegible⟩

theorem Conversions.primitive_eq_ok {conversions : Conversions} {value : Primitive} :
    conversions.primitive = .ok value ↔ conversions.toPrimitive = some (.primitive value) ∨
      conversions.toPrimitive = none ∧ (conversions.toString = some (.primitive value) ∨
        (conversions.toString = none ∨ conversions.toString = some .object) ∧
          conversions.valueOf = some (.primitive value)) := by
  obtain ⟨toPrimitive, toString, valueOf⟩ := conversions
  unfold primitive
  rcases toPrimitive with _ | (value' | _ | failure)
  · rcases toString with _ | (value' | _ | failure)
    · rcases valueOf with _ | (value' | _ | failure) <;> simp
    · simp
    · rcases valueOf with _ | (value' | _ | failure) <;> simp
    · simp
  · simp
  · simp
  · simp

theorem Primitive.converted_eq_ok {value : Primitive} :
    (∃ text, value.converted = .ok text) ↔ ∀ printed, value ≠ .symbol printed := by
  cases value <;> simp [converted]

theorem Conversions.string_eq_ok {conversions : Conversions} :
    (∃ text, conversions.string = .ok text) ↔ conversions.Printable := by
  unfold string Printable
  simp only [bind_eq_ok, primitive_eq_ok, ← Primitive.converted_eq_ok]
  constructor
  · rintro ⟨text, value, hprimitive, htext⟩
    exact ⟨value, ⟨text, htext⟩, hprimitive⟩
  · rintro ⟨value, ⟨text, htext⟩, hprimitive⟩
    exact ⟨text, value, hprimitive, htext⟩

theorem TypedArray.length_written {array : TypedArray} {bytes : Bytes} (h : array.written = .ok bytes) :
    bytes.length = array.length := by
  unfold written at h
  split at h
  · cases h
  · split_ifs at h
    rw [← Except.ok.inj h, List.length_take, List.length_append, List.length_replicate]
    omega

theorem TypedArray.payloadBytes_ok {array output : TypedArray} (h : array.payloadBytes = .ok output) :
    output = array ∧ array.length ≤ maxPayload := by
  unfold TypedArray.payloadBytes at h
  split_ifs at h with hlong
  exact ⟨(Except.ok.inj h).symm, not_lt.mp hlong⟩

theorem Outcome.output_ok {outcome : Outcome} {output : TypedArray} (h : outcome.output = .ok output) :
    (∃ value bytes, outcome = .returned value ∧ Client.payloadBytes value = .ok bytes ∧ output = .of bytes) ∨
      outcome = .returnedArray output ∧ output.length ≤ maxPayload := by
  cases outcome with
  | returned value =>
      simp only [Outcome.output] at h
      split at h
      · rename_i bytes hvalue
        exact Or.inl ⟨value, bytes, rfl, hvalue, (Except.ok.inj h).symm⟩
      · cases h
  | returnedArray array =>
      simp only [Outcome.output] at h
      split at h
      · rename_i output' harray
        obtain ⟨rfl, hlength⟩ := TypedArray.payloadBytes_ok harray
        obtain rfl := Except.ok.inj h
        exact Or.inr ⟨rfl, hlength⟩
      · cases h
  | threw error => cases h

theorem Outcome.output_length {outcome : Outcome} {output : TypedArray} (h : outcome.output = .ok output) :
    output.length ≤ maxPayload := by
  rcases output_ok h with ⟨value, bytes, -, hvalue, rfl⟩ | ⟨-, hlength⟩
  · exact (Client.payloadBytes_ok hvalue).2
  · exact hlength

theorem Outcome.output_error {outcome : Outcome} {error : Thrown} (h : outcome.output = .error error) :
    outcome = .threw error ∨ (∃ failure, error = Failure.thrown failure) ∧
      ((∃ value failure, outcome = .returned value ∧ Client.payloadBytes value = .error failure) ∨
        ∃ array, outcome = .returnedArray array ∧ maxPayload < array.length) := by
  cases outcome with
  | returned value =>
      simp only [Outcome.output] at h
      split at h
      · cases h
      · rename_i failure hvalue
        exact Or.inr ⟨⟨failure, (Except.error.inj h).symm⟩, Or.inl ⟨value, failure, rfl, hvalue⟩⟩
  | returnedArray array =>
      simp only [Outcome.output, TypedArray.payloadBytes] at h
      split_ifs at h with hlong
      exact Or.inr ⟨⟨_, (Except.error.inj h).symm⟩, Or.inr ⟨array, rfl, hlong⟩⟩
  | threw error' => exact Or.inl (congrArg Outcome.threw (Except.error.inj h))

theorem settle_ok {outcome : Outcome} {status : Nat} {output : TypedArray}
    (h : settle outcome = .ok (status, output)) :
    status = 0 ∧ outcome.output = .ok output ∨
      ∃ error bytes, outcome.output = .error error ∧ error.handlerErrorBytes = .ok bytes ∧ status = 1 ∧
        output = .of bytes := by
  unfold settle at h
  split at h
  · rename_i output' houtput
    obtain ⟨rfl, rfl⟩ := Prod.mk.inj (Except.ok.inj h)
    exact Or.inl ⟨rfl, houtput⟩
  · rename_i error herror
    simp only [bind_eq_ok, pure_eq_ok] at h
    obtain ⟨bytes, hbytes, hpair⟩ := h
    obtain ⟨rfl, rfl⟩ := Prod.mk.inj hpair
    exact Or.inr ⟨error, bytes, herror, hbytes, rfl, rfl⟩

theorem spells_utf8 (s : String) : Spells (Bytes.utf8 s) := by
  apply (cut_legal_iff _).mp
  rw [cut_utf8]
  split_ifs with hfits
  · exact ⟨hfits, by rw [Bytes.fromUtf8_utf8]; rfl⟩
  · rw [not_le] at hfits
    obtain ⟨kept, -, htake⟩ := Bytes.take_boundary _ hfits.le
    refine ⟨(List.length_take_le _ _).trans (Bytes.boundary_le _ _), ?_⟩
    rw [htake, Bytes.fromUtf8_utf8]
    rfl

theorem handlerErrorBytes_legal (message : Text) :
    (handlerErrorBytes message).length ≤ 4096 ∧ (Bytes.fromUtf8 (handlerErrorBytes message)).isSome :=
  (cut_legal_iff _).mpr (spells_utf8 _)

theorem spells_of_length {bytes : Bytes} (h : bytes.length ≤ 4096) :
    Spells bytes ↔ (Bytes.fromUtf8 bytes).isSome := by
  rw [← cut_legal_iff, cut, if_pos h]
  exact and_iff_right h

/-- What is sent of a thrown value is text of at most 4096 bytes, but for a message that is bytes and not text. -/
theorem handlerErrorBytes_legal_iff {error : Thrown} {bytes : Bytes} (h : error.handlerErrorBytes = .ok bytes) :
    (bytes.length ≤ 4096 ∧ (Bytes.fromUtf8 bytes).isSome) ↔ error.Legible := by
  unfold Thrown.handlerErrorBytes at h
  simp only [bind_eq_ok, pure_eq_ok] at h
  obtain ⟨message, hmessage, buffer, hbuffer, rfl⟩ := h
  rw [cut_legal_iff]
  have htext : ∀ text : Text, Sliced.buffer (.text text) = .ok buffer → Spells buffer := by
    intro text htext
    rw [← Except.ok.inj htext]
    exact spells_utf8 _
  have hany : ∀ text : Text, message = .text text → Spells buffer := by
    rintro text rfl
    exact htext _ hbuffer
  cases error with
  | error message' =>
      obtain rfl := Except.ok.inj hmessage
      cases message' with
      | text value => exact iff_of_true (hany value rfl) trivial
      | bytes value =>
          rw [← Except.ok.inj hbuffer]
          exact spells_of_length (List.length_take_le _ _)
      | sliced slice =>
          cases slice with
          | text value => exact iff_of_true (htext value hbuffer) trivial
          | bytes value =>
              rw [← Except.ok.inj hbuffer]
              exact Iff.rfl
          | other => cases hbuffer
          | threw failure => cases hbuffer
      | plain => cases hbuffer
      | threw failure => cases hbuffer
  | primitive value => exact iff_of_true (hany _ (Except.ok.inj hmessage).symm) trivial
  | object conversions =>
      cases hstring : conversions.string with
      | ok text =>
          rw [Thrown.message, hstring] at hmessage
          exact iff_of_true (hany text (Except.ok.inj hmessage).symm) trivial
      | error failure =>
          rw [Thrown.message, hstring] at hmessage
          cases hmessage

/-- A thrown value becomes bytes that a COMPLETE can carry if it is printable. -/
theorem handlerErrorBytes_printable (error : Thrown) :
    error.Printable ↔ error.Legible ∧ ∃ bytes, error.handlerErrorBytes = .ok bytes := by
  cases error with
  | error message =>
      cases message with
      | text value => exact iff_of_true trivial ⟨trivial, _, rfl⟩
      | bytes value => exact (and_iff_left ⟨_, rfl⟩).symm
      | sliced slice =>
          cases slice with
          | text value => exact iff_of_true trivial ⟨trivial, _, rfl⟩
          | bytes value => exact (and_iff_left ⟨_, rfl⟩).symm
          | other => exact iff_of_false id fun h => by cases h.2.choose_spec
          | threw failure => exact iff_of_false id fun h => by cases h.2.choose_spec
      | plain => exact iff_of_false id fun h => by cases h.2.choose_spec
      | threw failure => exact iff_of_false id fun h => by cases h.2.choose_spec
  | primitive value => exact iff_of_true trivial ⟨trivial, _, rfl⟩
  | object conversions =>
      change conversions.Printable ↔ _
      rw [← Conversions.string_eq_ok, Thrown.handlerErrorBytes, Thrown.message]
      cases conversions.string with
      | ok text => exact iff_of_true ⟨text, rfl⟩ ⟨trivial, _, rfl⟩
      | error failure =>
          apply iff_of_false
          · rintro ⟨text, htext⟩
            cases htext
          · rintro ⟨-, bytes, hbytes⟩
            cases hbytes

/-! ### Agreement with the broker -/

/-- An outcome that the broker is told of as it is: no message in bytes that are not text, and no array whose `length`
goes beyond its elements. -/
def Outcome.Legible : Outcome → Prop
  | returned _ => True
  | returnedArray array => maxPayload < array.length ∨ array.Whole
  | threw error => error.Legible

def Call.Legible : Call → Prop
  | complete _ outcome => outcome.Legible
  | _ => True

def SameRecord (given : PublishRecord) (record : Record) : Prop :=
  given.topic = .text (Text.ofString record.topic) ∧
    given.key.orElse (.text []) = .text (Text.ofString record.key) ∧
    SamePayload given.payload record.payload

/-- The request has the values of the call, its defaults included. -/
def Call.Means : Call → Request → Prop
  | hello options, .hello version token =>
    version = 1 ∧ options.token.orElse (.text []) = .text (Text.ofString token)
  | publishBatch given, .publish records =>
    ∃ givens, given = some givens ∧ List.Forall₂ SameRecord givens records
  | fetch topic options, .fetch query => topic = .text (Text.ofString query.topic) ∧
    options.after.orElse (.bigint 0) = .bigint query.after ∧
    options.limit.orElse (.number 128) = .number query.limit ∧
    options.maxBytes.orElse (.number 524288) = .number query.maxBytes ∧
    options.mode.orElse (.text (Text.ofString "all")) =
      .text (Text.ofString (if query.latest then "latest" else "all"))
  | stats, .stats => True
  | ping, .ping => True
  | handle route _ options, .register route' concurrency queueLimit =>
    route = .text (Text.ofString route') ∧
    options.concurrency.orElse (.number 8) = .number concurrency ∧
    options.queueLimit.orElse (.number 128) = .number queueLimit
  | request route payload options, .rpc route' timeoutMs payload' =>
    route = .text (Text.ofString route') ∧
    options.timeoutMs.orElse (.number 5000) = .number timeoutMs ∧ SamePayload payload payload'
  | take, .take waitMs => waitMs = 1000
  | complete callId outcome, .complete callId' failed payload =>
    callId' = callId.toNat ∧ ∃ output, settle outcome = .ok (failed.toNat, output) ∧ output.elements = some payload
  | _, _ => False

theorem putString_eq (s : String) : Bytes.toBe 2 (Bytes.utf8 s).length ++ Bytes.utf8 s = putString s := rfl

theorem encodeRecord_ok {given : PublishRecord} {encoded : EncodedRecord}
    (h : encodeRecord given = .ok encoded) :
    ∃ record, SameRecord given record ∧ record.Legal ∧ encoded.bytes = VeloBus.encodeRecord record := by
  simp only [encodeRecord, bind_eq_ok, pure_eq_ok] at h
  obtain ⟨topic, htopic, key, hkey, payload, hpayload, rfl⟩ := h
  obtain ⟨topic, hgiven, rfl, hvalid⟩ := topicBytes_ok htopic
  obtain ⟨key, hsame, rfl, hfits⟩ := stringBytes_ok hkey
  obtain ⟨hcontent, hlong⟩ := payloadBytes_ok hpayload
  exact ⟨⟨topic, key, payload⟩, ⟨hgiven, hsame, hcontent⟩, ⟨hvalid, hfits, hlong⟩, by
    simp only [EncodedRecord.bytes, VeloBus.encodeRecord, putString, Bytes.length_utf8, List.append_assoc]⟩

theorem EncodedRecord.length_bytes (record : EncodedRecord) : record.bytes.length = record.size := by
  simp only [EncodedRecord.bytes, EncodedRecord.size, List.length_append, Bytes.length_toBe]

/-- The records fill the buffer that was allocated, and it fits a frame. -/
theorem encodeRecords_ok {size total : Nat} {givens : List PublishRecord} {encoded : List EncodedRecord}
    (hsize : size + 5 ≤ maxFrame) (h : encodeRecords size givens = .ok (total, encoded)) :
    total = size + (encoded.flatMap EncodedRecord.bytes).length ∧ total + 5 ≤ maxFrame ∧
      ∃ records, List.Forall₂ SameRecord givens records ∧ (∀ record ∈ records, record.Legal) ∧
        encoded.length = records.length ∧
        encoded.flatMap EncodedRecord.bytes = records.flatMap VeloBus.encodeRecord := by
  induction givens generalizing size encoded with
  | nil =>
      obtain ⟨rfl, rfl⟩ := Prod.mk.inj (pure_eq_ok.mp h)
      exact ⟨rfl, hsize, [], List.Forall₂.nil, by simp, rfl, rfl⟩
  | cons given givens ih =>
      simp only [encodeRecords, bind_eq_ok, check_eq_ok, pure_eq_ok, Prod.exists, not_lt, Prod.mk.injEq] at h
      obtain ⟨first, hfirst, hroom, total, rest, hrest, rfl, rfl⟩ := h
      obtain ⟨record, hsame, hlegal, hbytes⟩ := encodeRecord_ok hfirst
      obtain ⟨htotal, hfits, records, hall, hlegals, hlength, hflat⟩ := ih hroom hrest
      refine ⟨?_, hfits, record :: records, List.Forall₂.cons hsame hall, ?_, ?_, ?_⟩
      · rw [htotal, List.flatMap_cons, List.length_append, first.length_bytes, Nat.add_assoc]
      · exact List.forall_mem_cons.mpr ⟨hlegal, hlegals⟩
      · rw [List.length_cons, List.length_cons, hlength]
      · rw [List.flatMap_cons, List.flatMap_cons, hbytes, hflat]

/-- What the broker makes of the body, and the room it needs. -/
def Call.Agrees (call : Call) (opcode : Nat) (body : Bytes) : Prop :=
  body.length + 5 ≤ maxFrame ∧
    ∃ request, request.Legal ∧ request.opcode = opcode ∧ body = request.body ∧ call.Means request

theorem topicSize {s : String} {wildcard : Bool} (h : validateTopic s wildcard = .ok ()) :
    (Bytes.utf8 s).length ≤ 255 := validateTopic_size h

/-- The settings are the options, its defaults included. -/
structure Settings.Of (checked : Settings) (options : ConnectOptions) : Prop where
  token : ∃ s, options.token.orElse (.text []) = .text (Text.ofString s) ∧ checked.token = Bytes.utf8 s ∧
    s.utf8ByteSize ≤ 65535
  timeoutMs : 1 ≤ checked.timeoutMs ∧ checked.timeoutMs ≤ 2147483647
  maxPendingRequests : options.maxPendingRequests.orElse (.number 32) = .number checked.maxPendingRequests ∧
    1 ≤ checked.maxPendingRequests ∧ checked.maxPendingRequests ≤ 256

theorem settings_ok {options : ConnectOptions} {checked : Settings} (h : settings options = .ok checked) :
    checked.Of options := by
  simp only [settings] at h
  split at h
  · simp only [bind_eq_ok, pure_eq_ok] at h
    obtain ⟨_, rfl, port, -, timeoutMs, htimeout, pending, hpending, token, htoken, rfl⟩ := h
    obtain ⟨token, hgiven, rfl, hfits⟩ := stringBytes_ok htoken
    exact ⟨⟨token, hgiven, rfl, hfits⟩, (integer_ok htimeout).2, integer_ok hpending⟩
  · cases h

theorem publishBatch_ok {records : Option (List PublishRecord)} {body : Bytes}
    (h : publishBatch records = .ok body) : (Call.publishBatch records).Agrees 2 body := by
  cases records with
  | none => cases h
  | some givens =>
      simp only [publishBatch, bind_eq_ok, pure_eq_ok, Prod.exists] at h
      obtain ⟨_, rfl, count, hcount, total, encoded, hencoded, rfl⟩ := h
      obtain ⟨hnumber, hone, hmost⟩ := integer_ok hcount
      obtain ⟨htotal, hfits, records, hall, hlegal, hlength, hflat⟩ := encodeRecords_ok (by decide) hencoded
      have hlen : records.length = count := by
        rw [← hall.length_eq]
        exact_mod_cast Value.number.inj hnumber
      refine ⟨?_, .publish records, ⟨by omega, ?_, hlegal⟩, rfl, ?_, givens, rfl, hall⟩
      · rw [List.length_append, Bytes.length_toBe]
        omega
      · rw [hlen]
        exact hmost
      · rw [hflat, hlength]
        rfl

theorem query_ok {topic : Value} {options : FetchOptions} {checked : Query}
    (h : query topic options = .ok checked) :
    ∃ s, topic = .text (Text.ofString s) ∧ checked.topic = Bytes.utf8 s ∧ validateTopic s true = .ok () ∧
      options.after.orElse (.bigint 0) = .bigint checked.after ∧ checked.after < 2 ^ 64 ∧
      (options.limit.orElse (.number 128) = .number checked.limit ∧ 1 ≤ checked.limit ∧ checked.limit ≤ 256) ∧
      (options.maxBytes.orElse (.number 524288) = .number checked.maxBytes ∧
        1 ≤ checked.maxBytes ∧ checked.maxBytes ≤ 524288) ∧
      options.mode.orElse (.text (Text.ofString "all")) =
        .text (Text.ofString (if checked.latest then "latest" else "all")) := by
  simp only [query, bind_eq_ok] at h
  obtain ⟨_, htopic, h⟩ := h
  obtain ⟨s, hgiven, rfl, hvalid⟩ := topicBytes_ok htopic
  split at h
  case h_2 => cases h
  case h_1 after hafter =>
    by_cases hbad : after < 0 ∨ maxU64 < after
    · rw [if_pos hbad] at h
      cases h
    rw [if_neg hbad] at h
    simp only [bind_eq_ok, check_eq_ok, pure_eq_ok] at h
    obtain ⟨_, rfl, limit, hlimit, maxBytes, hbytes, hmode, rfl⟩ := h
    rw [not_or, not_lt, not_lt, maxU64] at hbad
    refine ⟨s, hgiven, rfl, hvalid, ?_, by dsimp only; omega, integer_ok hlimit, integer_ok hbytes, ?_⟩
    · rw [hafter, Int.toNat_of_nonneg hbad.1]
    · by_cases hlatest : options.mode.orElse (.text (Text.ofString "all")) = .text (Text.ofString "latest")
      · rw [decide_eq_true hlatest, if_pos rfl, hlatest]
      · rw [decide_eq_false hlatest, if_neg Bool.false_ne_true]
        exact Classical.not_not.mp fun hall => hmode ⟨hall, hlatest⟩

/-- The request a checked query stands for. -/
def Query.request (checked : Query) (s : String) : Request :=
  .fetch ⟨s, checked.after, checked.limit, checked.maxBytes, checked.latest⟩

theorem fetch_query {topic : Value} {options : FetchOptions} {checked : Query}
    (h : query topic options = .ok checked) :
    ∃ s, topic = .text (Text.ofString s) ∧ fetch topic options = .ok (checked.request s).body ∧
      (checked.request s).Legal ∧ (Call.fetch topic options).Means (checked.request s) := by
  obtain ⟨s, htopic, hbytes, hvalid, hafter, hmost, hlimit, hmax, hmode⟩ := query_ok h
  refine ⟨s, htopic, ?_, ⟨hvalid, hmost, hlimit.2, hmax.2⟩, htopic, hafter, hlimit.1, hmax.1, hmode⟩
  rw [fetch, h, Query.request, Request.body]
  change Except.ok _ = Except.ok _
  rw [hbytes, putString_eq]
  cases checked.latest <;> rfl

theorem handle_ok {route handler : Value} {options : HandleOptions} {body : Bytes}
    (h : handle route handler options = .ok body) : (Call.handle route handler options).Agrees 6 body := by
  simp only [handle, bind_eq_ok, check_eq_ok, pure_eq_ok] at h
  obtain ⟨_, hroute, -, concurrency, hconcurrency, queueLimit, hqueue, -, rfl⟩ := h
  obtain ⟨route, hgiven, rfl, hvalid⟩ := topicBytes_ok hroute
  obtain ⟨hslots, hone, hmost⟩ := integer_ok hconcurrency
  obtain ⟨hlimit, hleast, hmax⟩ := integer_ok hqueue
  have hsize := topicSize hvalid
  refine ⟨?_, .register route concurrency queueLimit, ⟨hvalid, ⟨hone, by omega⟩, hleast, hmax⟩, rfl, rfl,
    hgiven, hslots, hlimit⟩
  simp only [List.length_append, Bytes.length_toBe, maxFrame]
  omega

theorem settle_legible {outcome : Outcome} {status : Nat} {output : TypedArray} {bytes : Bytes}
    (h : settle outcome = .ok (status, output)) (hwritten : output.written = .ok bytes) (hlegible : outcome.Legible) :
    output.elements = some bytes ∧ (status = 0 ∨ status = 1) ∧ bytes.length ≤ maxPayload ∧
      (status = 1 → bytes.length ≤ 4096 ∧ (Bytes.fromUtf8 bytes).isSome) := by
  rcases settle_ok h with ⟨rfl, houtput⟩ | ⟨error, message, houtput, hmessage, rfl, rfl⟩
  · have hlength := Outcome.output_length houtput
    have hbytes : output.elements = some bytes := by
      rcases Outcome.output_ok houtput with ⟨value, bytes', -, -, rfl⟩ | ⟨rfl, -⟩
      · rw [TypedArray.written_of] at hwritten
        exact congrArg some (Except.ok.inj hwritten)
      · rcases hlegible with hlong | hwhole
        · exact absurd hlength (not_le.mpr hlong)
        · exact hwhole.elements hwritten
    rw [← TypedArray.length_written hwritten] at hlength
    exact ⟨hbytes, Or.inl rfl, hlength, fun hone => absurd hone Nat.zero_ne_one⟩
  · rw [TypedArray.written_of] at hwritten
    obtain rfl := Except.ok.inj hwritten
    have hlegal : message.length ≤ 4096 ∧ (Bytes.fromUtf8 message).isSome := by
      apply (handlerErrorBytes_legal_iff hmessage).mpr
      rcases Outcome.output_error houtput with rfl | ⟨⟨failure, rfl⟩, -⟩
      · exact hlegible
      · trivial
    exact ⟨rfl, Or.inr rfl, hlegal.1.trans (by decide), fun _ => hlegal⟩

theorem complete_ok {callId : UInt64} {outcome : Outcome} {status : Nat} {output : TypedArray} {bytes : Bytes}
    (h : settle outcome = .ok (status, output)) (hwritten : output.written = .ok bytes) (hlegible : outcome.Legible) :
    (Call.complete callId outcome).Agrees 9 (complete callId status bytes) := by
  obtain ⟨helements, hstatus, hfits, hfailed⟩ := settle_legible h hwritten hlegible
  have hflag : (decide (status = 1)).toNat = status := by rcases hstatus with rfl | rfl <;> rfl
  refine ⟨?_, .complete callId.toNat (decide (status = 1)) bytes, ⟨callId.toNat_lt, hfits, ?_⟩, rfl, ?_, rfl, output,
    ?_, helements⟩
  · rw [maxPayload] at hfits
    simp only [complete, List.length_append, Bytes.length_toBe, maxFrame]
    omega
  · exact fun hone => hfailed (of_decide_eq_true hone)
  · rw [complete, Request.body, hflag]
  · rw [hflag, h]

end VeloBus.Client
