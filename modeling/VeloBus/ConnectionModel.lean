import VeloBus.Framing
import VeloBus.RpcModel
import VeloBus.StoreModel
import VeloBus.Transition

/-! A connection of the broker: the reader task, the loop that admits and dispatches what was read, the
operation tasks and the writer task, with the one-place channels between them. Each await, each byte the
stream takes and each frame is a step. `taken`, `dispatched` and `answered` are history, and so are the
errors of the loop, `refused`, and of the operations, `failed`; a frame is named by its place in `taken`,
HELLO being the first. -/

namespace VeloBus.Connection

def maxInFlight : Nat := 32

/-- `written` tells whether the loop waits for the receipt. -/
structure Response where
  frame : Nat
  opcode : Nat
  requestId : Nat
  body : Bytes
  permit : Bool
  written : Bool
deriving DecidableEq, Repr

def Response.bytes (response : Response) : Bytes :=
  responseFrame response.opcode response.requestId response.body

/-- The reader task: reading, waiting for room in the channel, or over. -/
inductive Reader where
  | reading
  | sending (frame : Frame)
  | ended
deriving DecidableEq, Repr

/-- The writer task: waiting for a response, with bytes of one left to write, or over. -/
inductive Writer where
  | idle
  | writing (rest : Bytes) (written : Bool)
  | ended
deriving DecidableEq, Repr

/-- An operation task: `response` is what it waits to send, once its operation is done. -/
structure Task where
  requestId : Nat
  opcode : Nat
  request : Request
  response : Option Response
deriving DecidableEq, Repr

/-- The connection itself: the two steps of the handshake, the `select!`, the two awaits of an error
response, or over. `close` is whether the loop returns after it. -/
inductive Loop where
  | hello
  | greeting (rest : Bytes) (accepted : Bool)
  | select
  | sending (response : Response) (close : Bool)
  | receipt (close : Bool)
  | returned
deriving DecidableEq, Repr

structure State where
  loop : Loop
  reader : Reader
  writer : Writer
  tasks : Table Nat Task
  /-- The channel from the reader. -/
  frames : Option Frame
  /-- The channel to the writer. -/
  responses : Option Response
  ids : Finset Nat
  permits : Nat
  /-- The receipt the loop waits for was sent. -/
  receipt : Bool
  panicked : Bool
  /-- What arrived and was not read. -/
  input : Bytes
  /-- What the stream took and the peer has not read. -/
  output : Bytes
  taken : List Frame
  dispatched : List (Nat × Request)
  refused : List (Nat × Error)
  failed : List (Nat × Error)
  /-- The frames found to have an identifier in use. -/
  duplicates : List Nat
  /-- The responses whose bytes were handed to the stream. -/
  answered : List (Nat × Bytes)

def duplicateError : Error := ⟨Code.protocol, "duplicate in-flight request identifier"⟩

def secondHelloError : Error := ⟨Code.protocol, "HELLO is allowed only once"⟩

def inFlightError : Error := ⟨Code.overloaded, "connection has 32 in-flight operations"⟩

def unauthorizedError : Error := ⟨Code.unauthorized, "HELLO with valid credentials is required"⟩

namespace State

def new : State where
  loop := .hello
  reader := .ended
  writer := .ended
  tasks := ∅
  frames := none
  responses := none
  ids := ∅
  permits := 0
  receipt := false
  panicked := false
  input := []
  output := []
  taken := []
  dispatched := []
  refused := []
  failed := []
  duplicates := []
  answered := []

/-- Why HELLO is refused. -/
def greetError (token : String) : Except Error Request → Option Error
  | .ok (.hello version supplied) =>
    if version = 1 ∧ supplied = token then none
    else if version ≠ 1 then some ⟨Code.protocol, "unsupported protocol version"⟩
    else some unauthorizedError
  | .error error => some error
  | .ok _ => some unauthorizedError

/-- The first frame, and the answer to it. -/
def greet (token : String) (frame : Frame) (s : State) : State :=
  let answer := match greetError token (decodeRequest frame.opcode frame.body) with
    | some error => responseFrame 255 frame.requestId (errorBody error)
    | none => responseFrame (frame.opcode ||| 128) frame.requestId (Bytes.toBe 2 1)
  { s with
    loop := .greeting answer (greetError token (decodeRequest frame.opcode frame.body)).isNone
    taken := s.taken ++ [frame]
    answered := s.answered ++ [(s.taken.length, answer)] }

/-- HELLO was answered: the tasks of an accepted connection start. -/
def welcome (s : State) : State :=
  { s with loop := .select, reader := .reading, writer := .idle, permits := maxInFlight }

/-- Why the loop answers a request itself. -/
def admitError (permit : Bool) : Except Error Request → Option Error
  | .ok (.hello _ _) => some secondHelloError
  | .error error => some error
  | .ok _ => if permit then none else some inFlightError

/-- The branch of the loop that takes a frame from the reader. -/
def accept (frame : Frame) (s : State) : State :=
  let index := s.taken.length
  let s := { s with frames := none, taken := s.taken ++ [frame], receipt := false }
  if frame.requestId ∈ s.ids then
    { s with
      loop := .sending ⟨index, 255, frame.requestId, errorBody duplicateError, false, true⟩ true
      refused := s.refused ++ [(index, duplicateError)]
      duplicates := s.duplicates ++ [index] }
  else
    let permit := decide (0 < s.permits)
    let s := { s with ids := insert frame.requestId s.ids, permits := s.permits - 1 }
    let request := decodeRequest frame.opcode frame.body
    match admitError permit request, request with
    | some error, _ =>
      { s with
        loop := .sending ⟨index, 255, frame.requestId, errorBody error, permit, true⟩
          (error.code = Code.protocol)
        refused := s.refused ++ [(index, error)] }
    | none, .ok request =>
      { s with
        tasks := s.tasks.insert index ⟨frame.requestId, frame.opcode, request, none⟩
        dispatched := s.dispatched ++ [(index, request)] }
    | none, .error _ => s

/-- The response of a task. -/
def reply (index : Nat) (task : Task) : Except Error Bytes → Response
  | .ok body => ⟨index, task.opcode ||| 128, task.requestId, body, true, false⟩
  | .error error => ⟨index, 255, task.requestId, errorBody error, true, false⟩

/-- A permit that is dropped is available again. -/
def release (permit : Bool) (s : State) : State :=
  { s with permits := if permit then s.permits + 1 else s.permits }

/-- A task that is gone, with the permit it had. -/
def dropTask (index : Nat) (s : State) : State :=
  if (s.tasks.lookup index).isSome then { s with tasks := s.tasks.erase index, permits := s.permits + 1 }
  else s

/-- The writer is over: the channel to it is closed, and what was in it is dropped. -/
def closeWriter (s : State) : State :=
  { s.release (s.responses.any Response.permit) with writer := .ended, responses := none }

/-- The start of `write_queued_response`. -/
def retire (response : Response) (s : State) : State :=
  { s.release response.permit with
    responses := none
    ids := s.ids.erase response.requestId
    writer := .writing response.bytes response.written
    answered := s.answered ++ [(response.frame, response.bytes)] }

end State

/-- The steps of a connection. -/
inductive Op where
  /-- Bytes from the peer. -/
  | receive (bytes : Bytes)
  | hello
  | greet (count : Nat)
  | greeted
  /-- HELLO was not read or not answered. -/
  | greetFailed
  | read
  | readFailed
  | pass
  | accept
  | finish (index : Nat) (result : Except Error Bytes)
  | panic (index : Nat)
  | reply (index : Nat)
  | send
  | receipt
  | take
  | put (count : Nat)
  | wrote
  | writeFailed
  /-- A task ended: the loop returns. -/
  | leave
  /-- The connection is dropped. -/
  | cancel
  /-- What still runs after the loop is aborted. -/
  | abortTask (index : Nat)
  | abortReader
  | abortWriter

/-- What an operation can fail with, whatever the state of the scheduler and of the store. -/
def DispatchError (connection : Nat) : Request → Error → Prop
  | .register route concurrency queueLimit, error =>
    ∃ rpc : Rpc.State, (rpc.register connection route concurrency queueLimit).2 = .error error
  | .rpc route timeoutMs payload, error =>
    (∃ (rpc : Rpc.State) (expiredAt admittedAt : Nat),
      (rpc.request connection route timeoutMs payload expiredAt admittedAt).2 = .error error) ∨
    (∃ call failed payload now, Rpc.State.completion call failed payload now = .error error) ∨
    error ∈ [Rpc.deadlineError, Rpc.workerLostError, Rpc.lastWorkerLostError,
      ⟨Code.serviceUnavailable, "RPC response channel closed"⟩]
  | .take _, error =>
    (∃ rpc : Rpc.State, (rpc.takeStart connection).2 = .error error) ∨
    ∃ (rpc : Rpc.State) (expiredAt now : Nat), (rpc.tryTake connection expiredAt now).2 = .error error
  | .complete callId failed payload, error =>
    ∃ (rpc : Rpc.State) (now : Nat), (rpc.complete connection callId failed payload now).2 = .error error
  | .publish records, error =>
    (∃ (hash : Bytes → UInt32) (store : Store) (fault : Option Fault),
      (store.publish hash records fault).2.2 = .error error) ∨ StoreFailed error
  | .fetch request, error => (∃ store : Store, (store.fetch request).2 = .error error) ∨ StoreFailed error
  | .stats, error => StoreFailed error
  | .hello _ _, error => error = ⟨Code.protocol, "invalid request state"⟩
  | .ping, _ => False
where
  StoreFailed (error : Error) : Prop :=
    error ∈ [⟨Code.storage, "store lock poisoned; restart required"⟩,
      ⟨Code.storage, "store worker failed; restart required"⟩]

namespace State

/-- When a step can be taken. -/
def Enabled (connection : Nat) (s : State) : Op → Prop
  | .receive _ => True
  | .hello => s.loop = .hello ∧ ∃ frame rest, readFrame s.input = .frame frame rest
  | .greet count => ∃ rest accepted, s.loop = .greeting rest accepted ∧ 0 < count ∧ count ≤ rest.length
  | .greeted => ∃ accepted, s.loop = .greeting [] accepted
  | .greetFailed => s.loop = .hello ∨ ∃ rest accepted, s.loop = .greeting rest accepted
  | .read => s.reader = .reading ∧ ∃ frame rest, readFrame s.input = .frame frame rest
  | .readFailed => s.reader ≠ .ended ∧ (s.reader ≠ .reading → s.loop = .returned)
  | .pass => (∃ frame, s.reader = .sending frame) ∧ s.frames = none ∧ s.loop ≠ .returned
  | .accept => s.loop = .select ∧ s.frames.isSome
  | .finish index result => ∃ task, s.tasks.lookup index = some task ∧ task.response = none ∧
    ∀ error, result = .error error → DispatchError connection task.request error
  | .panic index => ∃ task, s.tasks.lookup index = some task ∧ task.response = none
  | .reply index => ∃ task response, s.tasks.lookup index = some task ∧ task.response = some response ∧
    (s.responses = none ∨ s.writer = .ended)
  | .send => (∃ response close, s.loop = .sending response close) ∧
    (s.responses = none ∨ s.writer = .ended)
  | .receipt => (∃ close, s.loop = .receipt close) ∧ (s.receipt = true ∨ s.writer = .ended)
  | .take => s.writer = .idle ∧ s.responses.isSome
  | .put count => ∃ rest written, s.writer = .writing rest written ∧ 0 < count ∧ count ≤ rest.length
  | .wrote => ∃ written, s.writer = .writing [] written
  | .writeFailed => ∃ rest written, s.writer = .writing rest written
  | .leave => s.loop = .select ∧ (s.reader = .ended ∨ s.writer = .ended ∨ s.panicked = true)
  | .cancel => s.loop ≠ .returned
  | .abortTask _ => s.loop = .returned
  | .abortReader => s.loop = .returned
  | .abortWriter => s.loop = .returned

def next (token : String) (s : State) : Op → State
  | .receive bytes => { s with input := s.input ++ bytes }
  | .hello =>
    match readFrame s.input with
    | .frame frame rest => { s with input := rest }.greet token frame
    | _ => s
  | .greet count =>
    match s.loop with
    | .greeting rest accepted =>
      { s with loop := .greeting (rest.drop count) accepted, output := s.output ++ rest.take count }
    | _ => s
  | .greeted =>
    match s.loop with
    | .greeting _ true => s.welcome
    | _ => { s with loop := .returned }
  | .greetFailed => { s with loop := .returned }
  | .read =>
    match readFrame s.input with
    | .frame frame rest => { s with input := rest, reader := .sending frame }
    | _ => s
  | .readFailed => { s with reader := .ended }
  | .pass =>
    match s.reader with
    | .sending frame => { s with reader := .reading, frames := some frame }
    | _ => s
  | .accept =>
    match s.frames with
    | some frame => s.accept frame
    | none => s
  | .finish index result =>
    { s with
      tasks := s.tasks.modify index fun task => { task with response := some (reply index task result) }
      failed := match result with
        | .ok _ => s.failed
        | .error error => s.failed ++ [(index, error)] }
  | .panic index => { s.dropTask index with panicked := true }
  | .reply index =>
    match s.tasks.lookup index with
    | some task =>
      -- The send of a task fails when the writer is gone, and the response is dropped with its permit.
      if s.writer = .ended then s.dropTask index
      else { s with tasks := s.tasks.erase index, responses := task.response }
    | none => s
  | .send =>
    match s.loop with
    | .sending response close =>
      if s.writer = .ended then { s.release response.permit with loop := .returned }
      else { s with loop := .receipt close, responses := some response }
    | _ => s
  | .receipt =>
    match s.loop with
    | .receipt close => { s with loop := if close then .returned else .select }
    | _ => s
  | .take =>
    match s.responses with
    | some response => s.retire response
    | none => s
  | .put count =>
    match s.writer with
    | .writing rest written =>
      { s with writer := .writing (rest.drop count) written, output := s.output ++ rest.take count }
    | _ => s
  | .wrote =>
    match s.writer with
    | .writing _ written => { s with writer := .idle, receipt := s.receipt || written }
    | _ => s
  | .writeFailed => s.closeWriter
  | .leave => { s with loop := .returned }
  | .cancel => { s with loop := .returned }
  | .abortTask index => s.dropTask index
  | .abortReader => { s with reader := .ended }
  | .abortWriter => s.closeWriter

end State

/-- A connection with any peer and any scheduling. -/
def machine (token : String) (connection : Nat) : Transition State Op where
  start s := s = State.new
  step s op t := s.Enabled connection op ∧ t = s.next token op

end VeloBus.Connection
