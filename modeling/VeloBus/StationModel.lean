import VeloBus.LinkModel
import VeloBus.RpcSystem
import VeloBus.ServiceOutcomes

/-! A service of the client with its connection at the broker and the scheduler behind it. What the task of
REGISTER, TAKE or COMPLETE does is one critical section of the scheduler after another; everything else at the
scheduler is done by others. -/

namespace VeloBus.Rpc

def Exit.map {α β : Type} (f : α → β) : Exit α → Exit β
  | .ok value => .ok (f value)
  | .error reason => .error reason
  | .panicked => .panicked

end VeloBus.Rpc

namespace VeloBus.Station

open Client (Failure)

/-- How far the `take` of a task is: in its loop, or on its way out, with its guard still alive. -/
inductive Progress where
  | taking (take : Nat)
  | taken (take : Nat) (exit : Rpc.Exit (Option Rpc.Job))
deriving DecidableEq, Repr

def Progress.take : Progress → Nat
  | taking take => take
  | taken take _ => take

/-- After a pass of `try_take`. -/
def Progress.afterPoll (take : Nat) : Rpc.Exit Rpc.Poll → Progress
  | .ok (.job job) => .taken take (.ok (some job))
  | .ok _ => .taking take
  | .error error => .taken take (.error error)
  | .panicked => .taken take .panicked

/-- What a COMPLETE says of a call. -/
structure Completion where
  callId : Nat
  failed : Bool
  payload : Bytes
deriving DecidableEq, Repr

structure State where
  service : Service.State
  server : Connection.State
  sys : Rpc.Sys
  /-- The tasks that are in `take`. -/
  takes : Table Nat Progress
  /-- What was accepted, oldest first. -/
  completed : List Completion

inductive Op where
  | service (op : Service.Op)
  /-- A step of the connection that leaves the scheduler alone. -/
  | server (op : Connection.Op)
  /-- HELLO was answered, and the scheduler learns of the connection. -/
  | welcome
  | register (index : Nat)
  | takeStart (index : Nat)
  | enable (index : Nat)
  | tryTake (index expiredAt now : Nat)
  | wake (index : Nat)
  | takeTimeout (index : Nat)
  | takeEnd (index : Nat)
  | complete (index now : Nat)
  /-- A task is aborted. -/
  | abort (index : Nat)
  | disconnect
  /-- Other connections, and the tickets of their calls. -/
  | others (op : Rpc.Op)

/-- The requests whose operations are steps of their own. -/
def Scheduled : Request → Prop
  | .register _ _ _ => True
  | .take _ => True
  | .complete _ _ _ => True
  | _ => False

/-- How a task ends. -/
def ended (index : Nat) : Rpc.Exit Bytes → Connection.Op
  | .ok body => .finish index (.ok body)
  | .error error => .finish index (.error error)
  | .panicked => .panic index

/-- What the scheduler takes from a COMPLETE. -/
def accepted (completion : Completion) : Rpc.Exit Unit → List Completion
  | .ok () => [completion]
  | _ => []

namespace State

def link (s : State) : Link.State (Option Rpc.Job) := ⟨s.service.child, s.server⟩

/-- The bytes that a step of the service leaves on the connection. -/
def Reads (s : State) : Service.Op → Bytes → Prop
  | .child op, rest => s.link.Reads op rest
  | _, rest => rest = s.server.output

/-- What the service becomes, and what its socket took goes to the broker. -/
def deliver (service : Service.State) (rest : Bytes) (s : State) : State := { s with
  service := service
  server := (Link.State.deliver service.child ⟨s.service.child, { s.server with output := rest }⟩).server }

/-- A task that has not finished. -/
def Serves (s : State) (index : Nat) (request : Request) : Prop :=
  ∃ task, s.server.tasks.lookup index = some task ∧ task.response = none ∧ task.request = request

/-- The steps of the connection that are not part of another step. -/
def Apart (s : State) : Connection.Op → Prop
  | .receive _ => False
  | .greeted => s.server.loop ≠ .greeting [] true
  | .finish index _ => ∀ request, s.Serves index request → ¬Scheduled request
  | .panic index => ∀ request, s.Serves index request → ¬Scheduled request
  | .abortTask _ => False
  | _ => True

/-- The end of a task, with what its operation left of the scheduler. -/
def conclude (token : String) (index : Nat) (exit : Rpc.Exit Bytes) (sys : Rpc.Sys) (s : State) : State := { s with
  server := s.server.next token (ended index exit)
  sys := sys }

/-- A task begins a `take`, or is refused one. -/
def start (token : String) (index : Nat) (sys : Rpc.Sys) (s : State) : Rpc.Exit Unit → State
  | .ok () => { s with sys := sys, takes := s.takes.insert index (.taking s.sys.nextTake) }
  | exit => s.conclude token index (exit.map fun _ => []) sys

/-- The steps of the `take` of a task. -/
def Advance (s : State) (index : Nat) (op : Nat → Rpc.Op) (progress : Nat → Progress) (t : State) : Prop :=
  ∃ take, s.takes.lookup index = some (.taking take) ∧ s.sys.Enabled (op take) ∧
    t = { s with sys := s.sys.next (op take), takes := s.takes.insert index (progress take) }

def Step (setup : Service.Setup) (token : String) (connection : Nat) (s : State) (op : Op) (t : State) : Prop :=
  match op with
  | .service op => ∃ rest service, s.Reads op rest ∧ s.service.Step setup op service ∧ t = s.deliver service rest
  | .server op => s.Apart op ∧ s.server.Enabled connection op ∧ t = { s with server := s.server.next token op }
  | .welcome => s.server.loop = .greeting [] true ∧ s.sys.Enabled (.connected connection) ∧
    t = { s with server := s.server.next token .greeted, sys := s.sys.next (.connected connection) }
  | .register index => ∃ route concurrency queueLimit, s.Serves index (.register route concurrency queueLimit) ∧
    t = s.conclude token index ((s.sys.rpc.register connection route concurrency queueLimit).2.map fun _ => [])
      (s.sys.next (.register connection route concurrency queueLimit))
  | .takeStart index => ∃ waitMs, s.Serves index (.take waitMs) ∧ s.takes.lookup index = none ∧
    t = s.start token index (s.sys.next (.takeStart connection)) (s.sys.rpc.takeStart connection).2
  | .enable index => s.Advance index .enable .taking t
  | .tryTake index expiredAt now => s.Advance index (.tryTake · expiredAt now)
    (Progress.afterPoll · (s.sys.rpc.tryTake connection expiredAt now).2) t
  | .wake index => s.Advance index .wake .taking t
  | .takeTimeout index => s.Advance index .takeTimeout (.taken · (.ok none)) t
  -- The guard is dropped before the task has its response.
  | .takeEnd index => ∃ take exit, s.takes.lookup index = some (.taken take exit) ∧ s.sys.Enabled (.takeEnd take) ∧
    t = { s.conclude token index (exit.map Rpc.encodeTaken) (s.sys.next (.takeEnd take)) with
      takes := s.takes.erase index }
  | .complete index now => ∃ id failed payload, s.Serves index (.complete id failed payload) ∧
    t = { s.conclude token index ((s.sys.rpc.complete connection id failed payload now).2.map fun _ => [])
        (s.sys.next (.complete connection id failed payload now)) with
      completed := s.completed ++
        accepted ⟨id, failed, payload⟩ (s.sys.rpc.complete connection id failed payload now).2 }
  -- The guard of a `take` is dropped with its task.
  | .abort index => s.server.Enabled connection (.abortTask index) ∧
    (∀ progress, s.takes.lookup index = some progress → s.sys.Enabled (.takeEnd progress.take)) ∧
    t = { s with
      server := s.server.next token (.abortTask index)
      sys := (s.takes.lookup index).elim s.sys fun progress => s.sys.next (.takeEnd progress.take)
      takes := s.takes.erase index }
  | .disconnect => s.server.loop = .returned ∧ t = { s with sys := s.sys.next (.disconnect connection) }
  | .others op => op.Foreign connection s.sys ∧ s.sys.Enabled op ∧ t = { s with sys := s.sys.next op }

end State

/-- A service that passed the checks of `handle`, at a broker with some token and some limits. -/
def machine (setup : Service.Setup) (token : String) (connection maxCalls maxBytes : Nat) : Transition State Op where
  start s := ∃ service, (Service.machine setup).start service ∧ s = ⟨service, .new, .new maxCalls maxBytes, ∅, []⟩
  step s op t := s.Step setup token connection op t

/-- The steps in which no handler throws what cannot be converted. -/
def Op.Printable : Op → Prop
  | .service op => op.Printable
  | _ => True

/-- The runs in which every thrown value can be converted. -/
def printable (setup : Service.Setup) (token : String) (connection maxCalls maxBytes : Nat) : Transition State Op where
  start := (machine setup token connection maxCalls maxBytes).start
  step s op t := op.Printable ∧ s.Step setup token connection op t

end VeloBus.Station
