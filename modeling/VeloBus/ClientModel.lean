import VeloBus.ClientReader
import VeloBus.Table
import VeloBus.Transition

/-! A client on its connection: the requests that wait for a response, the frames that wait for the
socket, and the promises `send` has given out. The socket, its peer, the clock and the caller are the
labels of a transition system. -/

namespace VeloBus.Client

open Codec

/-- What a reader throws is a protocol error. -/
def Protocol {α : Type} (result : Except Failure α) : Prop :=
  ∀ failure, result = .error failure → ∃ message, failure = .protocol message

/-- The `parse` of a request. -/
structure Parser (ρ : Type) where
  run : Bytes → Except Failure ρ
  protocol : ∀ body, Protocol (run body)

section Protocol

variable {α β : Type}

theorem Protocol.ok (a : α) : Protocol (.ok a) := nofun

theorem Protocol.error (message : String) : Protocol (.error (.protocol message) : Except Failure α) := by
  intro failure h
  exact ⟨message, (Except.error.inj h).symm⟩

theorem Protocol.bind {x : Except Failure α} {f : α → Except Failure β} (hx : Protocol x)
    (hf : ∀ a, Protocol (f a)) : Protocol (x >>= f) := by
  cases x with
  | ok a => exact hf a
  | error failure =>
      obtain ⟨message, rfl⟩ := hx failure rfl
      exact .error message

theorem Protocol.ite {p : Prop} [Decidable p] {x y : Except Failure α} (hx : Protocol x) (hy : Protocol y) :
    Protocol (if p then x else y) := by
  split_ifs
  · exact hx
  · exact hy

end Protocol

namespace Reader

theorem take_protocol (count : Nat) (reader : Bytes) : Protocol (take count reader) :=
  .ite (.error _) (.ok _)

theorem uint_protocol (width : Nat) (reader : Bytes) : Protocol (uint width reader) :=
  .bind (take_protocol _ _) fun _ => .ok _

theorem decodeUTF8_protocol (bytes : Bytes) : Protocol (decodeUTF8 bytes) := by
  unfold decodeUTF8
  cases Bytes.fromUtf8 bytes with
  | some s => exact .ok _
  | none => exact .error _

theorem string_protocol (max : Nat) (reader : Bytes) : Protocol (string max reader) :=
  .bind (uint_protocol _ _) fun _ => .ite (.error _) <| .bind (take_protocol _ _) fun _ =>
    .bind (decodeUTF8_protocol _) fun _ => .ok _

theorem end_protocol (reader : Bytes) : Protocol («end» reader) := .ite (.ok _) (.error _)

end Reader

def parseHello (body : Bytes) : Except Failure Unit := do
  let (version, reader) ← Reader.u16 body
  if version ≠ 1 then throw (.protocol "Unsupported server protocol version")
  Reader.end reader

/-- The body of an error response. -/
def parseError (body : Bytes) : Except Failure Failure := do
  let (code, reader) ← Reader.u16 body
  let (message, reader) ← Reader.string 65535 reader
  Reader.end reader
  if code < 1 ∨ 12 < code then throw (.protocol "Unknown broker error code")
  return .broker code message.toString

theorem parseHello_protocol (body : Bytes) : Protocol (parseHello body) :=
  .bind (Reader.uint_protocol _ _) fun _ => .ite (.error _) (Reader.end_protocol _)

theorem parseError_protocol (body : Bytes) : Protocol (parseError body) :=
  .bind (Reader.uint_protocol _ _) fun _ => .bind (Reader.string_protocol _ _) fun _ =>
    .bind (Reader.end_protocol _) fun _ => .ite (.error _) (.ok _)

/-- What becomes of a promise. -/
inductive Settlement (ρ : Type) where
  | resolved (value : ρ)
  | rejected (reason : Failure)
deriving DecidableEq, Repr

/-- A request that waits for its response. `promise` names the promise its callbacks belong to. -/
structure Pending (ρ : Type) where
  promise : Nat
  opcode : Nat
  parse : Parser ρ

/-- A promise `send` gave out: the identifier its request was sent under, if it was, and the number of
frames that had been received by then. -/
structure Sent (ρ : Type) where
  id : Option Nat
  opcode : Nat
  parse : Parser ρ
  since : Nat

/-- How far `open` is. -/
inductive Stage where
  | connecting
  | connected
  | greeting (promise : Nat)
  | opened
  | refused
deriving DecidableEq, Repr

/-- The answer of `socket.write`. -/
inductive Wrote where
  | accepted
  | full
  | threw (message : String)
deriving DecidableEq, Repr

/-- What the socket answers, given the frames it has taken. -/
abbrev Socket : Type := List Bytes → Wrote

structure State (ρ : Type) where
  settings : Settings
  pending : Table Nat (Pending ρ)
  writeQueue : List Bytes
  blocked : Bool
  closed : Bool
  nextRequestId : Nat
  closeReason : Failure
  stage : Stage
  /-- The frames the socket has taken. -/
  written : List Bytes
  /-- The frames given to `receive`. -/
  received : List Bytes
  /-- The promises of `send`, in order. -/
  sent : List (Sent ρ)
  /-- The calls of `resolve` and `reject`. -/
  settled : List (Nat × Settlement ρ)

def closedMessage : String := "Nodara connection is closed; unfinished operations may have an unknown outcome"

def timeoutMessage : String :=
  "Nodara transport request timed out; connection closed and operation outcome may be unknown"

def nextId (id : Nat) : Nat := if id = 0xffffffff then 1 else id + 1

section State

variable {ρ : Type}

def State.new (settings : Settings) : State ρ where
  settings := settings
  pending := ∅
  writeQueue := []
  blocked := false
  closed := false
  nextRequestId := 1
  closeReason := .connectionClosed closedMessage
  stage := .connecting
  written := []
  received := []
  sent := []
  settled := []

def State.fail (reason : Failure) (s : State ρ) : State ρ :=
  if s.closed then s
  else { s with
    closed := true
    closeReason := reason
    settled := s.settled ++ s.pending.entries.map fun e => (e.2.promise, .rejected reason)
    pending := ∅
    writeQueue := [] }

def State.ensureCapacity (s : State ρ) : Except Failure Unit :=
  if s.closed then .error s.closeReason
  else if s.settings.maxPendingRequests ≤ s.pending.size then .error .backpressure
  else .ok ()

/-- The loop of `flush` over the queue. -/
def State.flushQueue (socket : Socket) : List Bytes → State ρ → State ρ
  | [], s => { s with writeQueue := [] }
  | frame :: queue, s =>
    if s.closed ∨ s.blocked then { s with writeQueue := frame :: queue }
    else match socket s.written with
      | .accepted => flushQueue socket queue { s with written := s.written ++ [frame] }
      | .full => flushQueue socket queue { s with written := s.written ++ [frame], blocked := true }
      | .threw message => State.fail (.other message) { s with writeQueue := queue }

def State.flush (socket : Socket) (s : State ρ) : State ρ := s.flushQueue socket s.writeQueue

/-- The search for an unused identifier. `none` when it takes more rounds than given. -/
def searchId (pending : Table Nat (Pending ρ)) : Nat → Nat → Option Nat
  | 0, _ => none
  | rounds + 1, id => if id ∈ pending.keys then searchId pending rounds (nextId id) else some id

/-- A promise that is rejected before anything is sent. -/
def State.reject (opcode : Nat) (parse : Parser ρ) (reason : Failure) (s : State ρ) : State ρ :=
  { s with
    sent := s.sent ++ [⟨none, opcode, parse, s.received.length⟩]
    settled := s.settled ++ [(s.sent.length, .rejected reason)] }

/-- `none` when the search for an identifier never ends: then every one of them is taken. -/
def State.send (socket : Socket) (opcode : Nat) (body : Bytes) (parse : Parser ρ) (s : State ρ) :
    Option (State ρ) :=
  match s.ensureCapacity with
  | .error failure => some (s.reject opcode parse failure)
  | .ok () =>
    match searchId s.pending (s.pending.size + 1) s.nextRequestId with
    | none => none
    | some id =>
      let s := { s with nextRequestId := nextId id }
      match envelope opcode id body with
      | .error failure => some (s.reject opcode parse failure)
      | .ok frame => some (State.flush socket { s with
          pending := s.pending.insert id ⟨s.sent.length, opcode, parse⟩
          writeQueue := s.writeQueue ++ [frame]
          sent := s.sent ++ [⟨some id, opcode, parse, s.received.length⟩] })

def frameOpcode (frame : Bytes) : Nat := Bytes.ofBe (frame.take 1)

def frameId (frame : Bytes) : Nat := Bytes.ofBe ((frame.drop 1).take 4)

def State.settle (id : Nat) (pending : Pending ρ) (outcome : Settlement ρ) (s : State ρ) : State ρ :=
  { s with
    pending := s.pending.erase id
    settled := s.settled ++ [(pending.promise, outcome)] }

def State.receive (frame : Bytes) (s : State ρ) : Except Failure (State ρ) :=
  let opcode := frameOpcode frame
  let id := frameId frame
  match s.pending.lookup id with
  | none => .error (.protocol "Response has an unknown request ID")
  | some pending =>
    if id = 0 then .error (.protocol "Response has an unknown request ID")
    else if opcode ≠ 0xff ∧ opcode ≠ pending.opcode ||| 0x80 then
      .error (.protocol "Response opcode does not match request")
    else
      let body := frame.drop 5
      if opcode = 0xff then (parseError body).map fun reason => s.settle id pending (.rejected reason)
      else (pending.parse.run body).map fun value => s.settle id pending (.resolved value)

/-- A frame from the decoder; what `receive` throws closes the client. -/
def State.data (frame : Bytes) (s : State ρ) : State ρ :=
  if s.closed then s
  else
    let s := { s with received := s.received ++ [frame] }
    match s.receive frame with
    | .ok t => t
    | .error failure => s.fail failure

/-- The parser of the response to HELLO, whose promise resolves with `undefined`. -/
def helloParser (undefined : ρ) : Parser ρ where
  run body := (parseHello body).map fun _ => undefined
  protocol body := by
    intro failure h
    apply parseHello_protocol body failure
    cases hparse : parseHello body with
    | ok value =>
        rw [hparse] at h
        cases h
    | error failure' =>
        rw [hparse] at h
        exact congrArg Except.error (Except.error.inj h)

def Settings.hello (settings : Settings) : Bytes :=
  Bytes.toBe 2 1 ++ Bytes.toBe 2 settings.token.length ++ settings.token

end State

inductive Op (ρ : Type) where
  | connected
  | connectTimeout
  /-- `open` sends HELLO. -/
  | greet (socket : Socket)
  /-- The promise of HELLO is resolved. -/
  | opened
  /-- The promise of HELLO is rejected. -/
  | refused (reason : Failure)
  | send (socket : Socket) (opcode : Nat) (body : Bytes) (parse : Parser ρ)
  | data (frame : Bytes)
  /-- The decoder throws. -/
  | misframed
  | timeout (id : Nat)
  | drain (socket : Socket)
  | socketError (message : String)
  | ended
  | socketClosed
  | close

section Op

variable {ρ : Type} (undefined : ρ)

/-- Requests are sent by HELLO first, by the caller once the client is open. -/
def State.Enabled (s : State ρ) : Op ρ → Prop
  | .connected => s.stage = .connecting ∧ s.closed = false
  | .connectTimeout => s.stage = .connecting
  | .greet _ => s.stage = .connected
  | .opened => ∃ promise value, s.stage = .greeting promise ∧ (promise, .resolved value) ∈ s.settled
  | .refused reason => ∃ promise, s.stage = .greeting promise ∧ (promise, .rejected reason) ∈ s.settled
  | .send _ opcode _ _ => s.stage = .opened ∧ opcode < 256
  | .data frame => 5 ≤ frame.length ∧ frame.length ≤ maxFrame
  | .timeout id => id ∈ s.pending.keys
  | _ => True

def State.next (s : State ρ) : Op ρ → Option (State ρ)
  | .connected => some { s with stage := .connected }
  | .connectTimeout => some (s.fail (.requestTimeout "Nodara connection establishment timed out"))
  | .greet socket =>
    { s with stage := .greeting s.sent.length }.send socket 1 s.settings.hello (helloParser undefined)
  | .opened => some { s with stage := .opened }
  | .refused reason => some { s.fail reason with stage := .refused }
  | .send socket opcode body parse => s.send socket opcode body parse
  | .data frame => some (s.data frame)
  | .misframed => some (s.fail (.protocol "Invalid response frame length"))
  | .timeout _ => some (s.fail (.requestTimeout timeoutMessage))
  | .drain socket => some ({ s with blocked := false }.flush socket)
  | .socketError message => some (s.fail (.other message))
  | .ended => some (s.fail (.connectionClosed
      "Nodara peer ended the connection; publication outcome may be unknown"))
  | .socketClosed => some (s.fail s.closeReason)
  | .close => some (s.fail (.connectionClosed closedMessage))

/-- A client that was opened with some options. -/
def machine (options : ConnectOptions) : Transition (State ρ) (Op ρ) where
  start s := ∃ checked, settings options = .ok checked ∧ s = State.new checked
  step s op t := s.Enabled op ∧ s.next undefined op = some t

end Op

end VeloBus.Client
