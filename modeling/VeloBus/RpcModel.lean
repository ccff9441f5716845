import VeloBus.Protocol
import VeloBus.Table
import Mathlib.Data.Finset.Basic

/-! The request/reply scheduler. Every method is the critical section it runs under the state
lock, as a function of the state and of the clock readings it takes (nanoseconds). What leaves the
critical section, values sent on oneshot senders and notifications, is appended to `outbox`. A
failed `expect`, `unwrap` or checked subtraction poisons the lock: `poisoned` records it. -/

namespace VeloBus.Rpc

abbrev Reply : Type := Except Error Bytes

inductive Effect where
  | reply (id : Nat) (reply : Reply)
  | notify (worker : Nat)
deriving DecidableEq

structure Route where
  workers : List Nat
  queue : List Nat
  queueLimit : Nat
deriving DecidableEq, Repr

structure Worker where
  route : String
  concurrency : Nat
  running : Nat
  pendingTakes : Nat
deriving DecidableEq, Repr

def Route.enlist (worker : Nat) (route : Route) : Route :=
  { route with workers := route.workers ++ [worker] }

def Route.delist (worker : Nat) (route : Route) : Route :=
  { route with workers := route.workers.filter (· ≠ worker) }

def Route.enqueue (id : Nat) (route : Route) : Route := { route with queue := route.queue ++ [id] }

def Route.popFront (route : Route) : Route := { route with queue := route.queue.tail }

def Route.dequeue (id : Nat) (route : Route) : Route :=
  { route with queue := route.queue.filter (· ≠ id) }

def Worker.takeSlot (worker : Worker) : Worker := { worker with running := worker.running + 1 }

def Worker.freeSlot (worker : Worker) : Worker := { worker with running := worker.running - 1 }

def Worker.startTake (worker : Worker) : Worker :=
  { worker with pendingTakes := worker.pendingTakes + 1 }

def Worker.endTake (worker : Worker) : Worker :=
  { worker with pendingTakes := worker.pendingTakes - 1 }

/-- `response` tells whether the oneshot sender is still in the call. -/
structure Call where
  caller : Nat
  route : String
  owner : Option Nat
  deadline : Nat
  payload : Bytes
  response : Bool
  retainedBytes : Nat
deriving DecidableEq, Repr

/-- What `call.response.take()` leaves. -/
def Call.takeResponse (call : Call) : Call := { call with response := false }

def Call.assign (worker : Nat) (call : Call) : Call := { call with owner := some worker }

structure State where
  connections : Finset Nat
  routes : Table String Route
  workers : Table Nat Worker
  calls : Table Nat Call
  nextId : Nat
  retainedBytes : Nat
  maxCalls : Nat
  maxBytes : Nat
  accepted : Nat
  completed : Nat
  rejected : Nat
  timedOut : Nat
  outbox : List Effect
  poisoned : Bool

/-- The result of a method: a value, an error reply, or a panic under the lock. -/
inductive Exit (α : Type) where
  | ok (value : α)
  | error (error : Error)
  | panicked
deriving DecidableEq, Repr

structure Ticket where
  callId : Nat
  deadline : Nat
deriving DecidableEq, Repr

structure Job where
  callId : Nat
  remainingMs : Nat
  payload : Bytes
deriving DecidableEq, Repr

/-- One pass of the `try_take` loop: `retry` is its `continue`, with the lock released. -/
inductive Poll where
  | retry
  | empty
  | job (job : Job)
deriving DecidableEq, Repr

def nanosPerMilli : Nat := 1000000

def deadlineError : Error :=
  ⟨Code.deadlineExceeded, "RPC deadline exceeded; started work may still finish"⟩

def workerLostError : Error :=
  ⟨Code.serviceUnavailable, "worker disconnected; call will not be replayed"⟩

def lastWorkerLostError : Error := ⟨Code.serviceUnavailable, "last worker disconnected"⟩

/-- `div_ceil(1_000_000).clamp(1, 30_000)` of the nanoseconds left. -/
def remainingMs (deadline now : Nat) : Nat :=
  min (max ((deadline - now + (nanosPerMilli - 1)) / nanosPerMilli) 1) 30000

namespace State

def send (s : State) (id : Nat) (reply : Reply) : State :=
  { s with outbox := s.outbox ++ [.reply id reply] }

def notify (s : State) (worker : Nat) : State := { s with outbox := s.outbox ++ [.notify worker] }

def poison (s : State) : State := { s with poisoned := true }

/-- `call.response.take()` on the call stored under an id. -/
def takeResponse (s : State) (id : Nat) : State :=
  { s with calls := s.calls.modify id Call.takeResponse }

def remove (s : State) (id : Nat) : State × Option Call :=
  match s.calls.lookup id with
  | none => (s, none)
  | some call =>
    let s := { s with
      calls := s.calls.erase id
      retainedBytes := s.retainedBytes - call.retainedBytes
      poisoned := s.poisoned || decide (s.retainedBytes < call.retainedBytes) }
    match call.owner with
    | some owner =>
      match s.workers.lookup owner with
      | some _ =>
        (notify { s with workers := s.workers.modify owner Worker.freeSlot } owner, some call)
      | none => (s, some call)
    | none =>
      ({ s with routes := s.routes.modify call.route (Route.dequeue id) }, some call)

def expire (s : State) (id : Nat) : State :=
  match s.calls.lookup id with
  | none => s
  | some call =>
    let s :=
      if call.response then
        send { s.takeResponse id with timedOut := saturatingSucc s.timedOut } id
          (.error deadlineError)
      else s
    if call.owner = none then (s.remove id).1 else s

def expireQueued (s : State) (route : String) (now : Nat) : State :=
  let queue := match s.routes.lookup route with
    | some route => route.queue
    | none => []
  let expired := queue.filter fun id =>
    match s.calls.lookup id with
    | some call => call.deadline ≤ now
    | none => false
  expired.foldl expire s

def notifyRoute (s : State) (name : String) : State :=
  match s.routes.lookup name with
  | some route =>
    route.workers.foldl
      (fun s id => if (s.workers.lookup id).isSome then s.notify id else s) s
  | none => s

def new (maxCalls maxBytes : Nat) : State where
  connections := ∅
  routes := ∅
  workers := ∅
  calls := ∅
  nextId := 1
  retainedBytes := 0
  maxCalls := maxCalls
  maxBytes := maxBytes
  accepted := 0
  completed := 0
  rejected := 0
  timedOut := 0
  outbox := []
  poisoned := false

def connected (s : State) (connection : Nat) : State :=
  { s with connections := insert connection s.connections }

/-- The worker joins its route, which is created when it is the first. -/
def enroll (s : State) (workerId : Nat) (name : String) (concurrency queueLimit : Nat) : State :=
  let routes := match s.routes.lookup name with
    | some _ => s.routes
    | none => s.routes.insert name ⟨[], [], queueLimit⟩
  let worker : Worker := ⟨name, concurrency, 0, 0⟩
  { s with
    routes := routes.modify name (Route.enlist workerId)
    workers := s.workers.insert workerId worker }

def register (s : State) (workerId : Nat) (name : String) (concurrency queueLimit : Nat) :
    State × Exit Unit :=
  if workerId ∉ s.connections then
    (s, .error ⟨Code.serviceUnavailable, "worker connection has closed"⟩)
  else if (s.workers.lookup workerId).isSome then
    (s, .error ⟨Code.invalid, "connection already registered a route"⟩)
  else if (s.routes.lookup name).any fun route => route.queueLimit ≠ queueLimit then
    (s, .error ⟨Code.invalid, "workers for a route must agree on queueLimit"⟩)
  else (s.enroll workerId name concurrency queueLimit, .ok ())

/-- Includes the shared input frame, duplicate decoded route, map/queue growth and oneshot state. -/
def callBytes (route : String) (payload : Bytes) : Nat :=
  512 + 2 * route.utf8ByteSize + payload.length

/-- A call enters the table and the queue of its route under the next identifier. -/
def accept (s : State) (call : Call) : State :=
  { s with
    nextId := s.nextId + 1
    calls := s.calls.insert s.nextId call
    routes := s.routes.modify call.route (Route.enqueue s.nextId)
    retainedBytes := s.retainedBytes + call.retainedBytes
    accepted := saturatingSucc s.accepted }

/-- `admittedAt` is the reading the deadline is measured from. -/
def request (s : State) (caller : Nat) (route : String) (timeoutMs : Nat) (payload : Bytes)
    (expiredAt admittedAt : Nat) : State × Exit Ticket :=
  if caller ∉ s.connections then
    (s, .error ⟨Code.serviceUnavailable, "caller connection has closed"⟩)
  else if s.routes.lookup route = none then
    ({ s with rejected := saturatingSucc s.rejected },
      .error ⟨Code.noService, "no worker registered for route"⟩)
  else
    let s := s.expireQueued route expiredAt
    let retainedBytes := callBytes route payload
    match s.routes.lookup route with
    | none => (s.poison, .panicked)
    | some routeState =>
      if routeState.queueLimit ≤ routeState.queue.length ∨ s.maxCalls ≤ s.calls.size ∨
          s.maxBytes - s.retainedBytes < retainedBytes then
        ({ s with rejected := saturatingSucc s.rejected },
          .error ⟨Code.overloaded, "RPC admission budget is full; request was not accepted"⟩)
      else if u64Max < s.nextId + 1 then
        (s, .error ⟨Code.overloaded, "RPC identifier space exhausted"⟩)
      else
        let deadline := admittedAt + timeoutMs * nanosPerMilli
        let call : Call := ⟨caller, route, none, deadline, payload, true, retainedBytes⟩
        ((s.accept call).notifyRoute route, .ok ⟨s.nextId, deadline⟩)

/-- The head of a queue is assigned to a worker. -/
def handOut (s : State) (name : String) (workerId id : Nat) : State :=
  { s with
    routes := s.routes.modify name Route.popFront
    calls := s.calls.modify id (Call.assign workerId)
    workers := s.workers.modify workerId Worker.takeSlot }

/-- One pass of the loop of `try_take`. -/
def tryTake (s : State) (workerId : Nat) (expiredAt now : Nat) : State × Exit Poll :=
  match s.workers.lookup workerId with
  | none => (s, .error ⟨Code.unauthorized, "TAKE requires a registered worker"⟩)
  | some worker =>
    if worker.concurrency ≤ worker.running then (s, .ok .empty)
    else
      let s := s.expireQueued worker.route expiredAt
      match s.routes.lookup worker.route with
      | none => (s, .ok .empty)
      | some route =>
        match route.queue with
        | [] => (s, .ok .empty)
        | id :: _ =>
          match s.calls.lookup id with
          | none => (s.poison, .panicked)
          | some call =>
            -- Check again after queue cleanup: time may have crossed the deadline under load.
            if call.deadline ≤ now then
              let s := { s with routes := s.routes.modify worker.route Route.popFront }
              (s.expire id, .ok .retry)
            else
              let job := ⟨id, remainingMs call.deadline now, call.payload⟩
              (s.handOut worker.route workerId id, .ok (.job job))

/-- The admission step of `take`: count the waiter and hand out its guard. -/
def takeStart (s : State) (workerId : Nat) : State × Exit Unit :=
  match s.workers.lookup workerId with
  | none => (s, .error ⟨Code.unauthorized, "TAKE requires a registered worker"⟩)
  | some worker =>
    if worker.concurrency ≤ worker.pendingTakes then
      (s, .error ⟨Code.overloaded, "worker TAKE waiter capacity reached"⟩)
    else
      ({ s with workers := s.workers.modify workerId Worker.startTake }, .ok ())

/-- `TakeGuard::drop`. -/
def takeGuardDrop (s : State) (workerId : Nat) : State :=
  { s with workers := s.workers.modify workerId Worker.endTake }

/-- The reply a completion produces at a clock reading. -/
def completion (call : Call) (failed : Bool) (payload : Bytes) (now : Nat) : Reply :=
  if call.deadline ≤ now then .error deadlineError
  else if failed then .error ⟨Code.handlerError, Bytes.fromUtf8Lossy payload⟩
  else .ok payload

def complete (s : State) (workerId id : Nat) (failed : Bool) (payload : Bytes) (now : Nat) :
    State × Exit Unit :=
  if s.workers.lookup workerId = none then
    (s, .error ⟨Code.unauthorized, "COMPLETE requires a registered worker"⟩)
  else
    match s.calls.lookup id with
    | none => (s, .error ⟨Code.invalid, "unknown or already completed call"⟩)
    | some call =>
      if call.owner ≠ some workerId then
        (s, .error ⟨Code.unauthorized, "call belongs to another worker"⟩)
      else
        match s.remove id with
        | (s, none) => (s.poison, .panicked)
        | (s, some call) =>
          let s := { s with completed := saturatingSucc s.completed }
          if call.response then
            let s :=
              if call.deadline ≤ now then { s with timedOut := saturatingSucc s.timedOut } else s
            (s.send id (completion call failed payload now), .ok ())
          else (s, .ok ())

def cancel (s : State) (id : Nat) : State :=
  match s.calls.lookup id with
  | none => s
  | some call =>
    let s := s.takeResponse id
    if call.owner = none then (s.remove id).1 else s

/-- The first loop of `disconnect`: what `cancel` does, on an id that must be live. -/
def dropCaller (s : State) (id : Nat) : State :=
  match s.calls.lookup id with
  | none => s.poison
  | some _ => s.cancel id

/-- The two other loops of `disconnect`: remove a call and answer it with an error. -/
def failCall (error : Error) (s : State) (id : Nat) : State :=
  match s.remove id with
  | (s, none) => s
  | (s, some call) => if call.response then s.send id (.error error) else s

def dropCallerCalls (s : State) (connection : Nat) : State :=
  let callerIds := Table.select (fun _ call => call.caller = connection) s.calls
  callerIds.foldl dropCaller s

def failRunning (s : State) (connection : Nat) : State :=
  let running := Table.select (fun _ call => call.owner = some connection) s.calls
  running.foldl (failCall workerLostError) s

/-- The route forgets a removed worker and disappears with its queue after the last one. -/
def leaveRoute (s : State) (name : String) (connection : Nat) : State :=
  match s.routes.lookup name with
  | none => s.poison
  | some route =>
    if (route.delist connection).workers = [] then
      route.queue.foldl (failCall lastWorkerLostError) { s with routes := s.routes.erase name }
    else
      notifyRoute { s with routes := s.routes.modify name (Route.delist connection) } name

def disconnect (s : State) (connection : Nat) : State :=
  let s := dropCallerCalls { s with connections := s.connections.erase connection } connection
  match s.workers.lookup connection with
  | none => s
  | some worker =>
    let s := notify { s with workers := s.workers.erase connection } connection
    leaveRoute (s.failRunning connection) worker.route connection

end State

end VeloBus.Rpc
