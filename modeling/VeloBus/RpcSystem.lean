import VeloBus.RpcDisconnect
import VeloBus.Transition

/-! The scheduler in use: connections, the `take` futures waiting on it and the tickets of admitted
calls, with every critical section as one step. `admitted` and `dispatched` are history: what was
asked for under each identifier, and every job handed out, oldest first. `anyClock` lets every clock
reading be anything, `steady` has a clock that never goes back and tickets that time out only at
their deadline. -/

namespace VeloBus.Rpc

/-- Where a `take` stands in its loop: about to enable a `Notified`, about to call `try_take`, waiting,
or on its way out with its guard still alive. -/
inductive TakePhase where
  | looping
  | armed
  | parked
  | returned
deriving DecidableEq, Repr

/-- `enabledAt` is the length of the outbox when the current `Notified` was enabled. -/
structure Take where
  worker : Nat
  phase : TakePhase
  enabledAt : Nat
deriving DecidableEq, Repr

def Take.enter (phase : TakePhase) (take : Take) : Take := { take with phase := phase }

def Take.enable (now : Nat) (take : Take) : Take := { take with phase := .armed, enabledAt := now }

/-- After a pass of `try_take`: return the job or the error, go round again, or wait. -/
def Take.afterPoll : Exit Poll → Take → Take
  | .ok .retry, take => take
  | .ok .empty, take => take.enter .parked
  | _, take => take.enter .returned

structure Admission where
  caller : Nat
  route : String
  timeoutMs : Nat
  payload : Bytes
  admittedAt : Nat
deriving DecidableEq, Repr

/-- A job handed to a worker that served `route` at that moment. -/
structure Dispatch where
  worker : Nat
  route : Option String
  job : Job
  handedAt : Nat
deriving DecidableEq, Repr

structure Sys where
  rpc : State
  takes : Table Nat Take
  nextTake : Nat
  tickets : Table Nat Ticket
  admitted : Table Nat Admission
  everConnected : Finset Nat
  clock : Nat
  dispatched : List Dispatch

/-- The critical sections and the steps of a `take` between them, with their clock readings. -/
inductive Op where
  | connected (connection : Nat)
  | register (worker : Nat) (route : String) (concurrency queueLimit : Nat)
  | request (caller : Nat) (route : String) (timeoutMs : Nat) (payload : Bytes)
      (expiredAt admittedAt : Nat)
  | takeStart (worker : Nat)
  | enable (take : Nat)
  | tryTake (take expiredAt now : Nat)
  | wake (take : Nat)
  | takeTimeout (take : Nat)
  | takeEnd (take : Nat)
  | complete (worker id : Nat) (failed : Bool) (payload : Bytes) (now : Nat)
  | expire (id now : Nat)
  | cancel (id : Nat)
  | disconnect (connection : Nat)

namespace Sys

/-- `notify_waiters` was called on the worker's `Notify` since the `Notified` was enabled. -/
def notified (s : Sys) (take : Take) : Prop :=
  Effect.notify take.worker ∈ s.rpc.outbox.drop take.enabledAt

instance (s : Sys) (take : Take) : Decidable (s.notified take) :=
  inferInstanceAs (Decidable (_ ∈ _))

def new (maxCalls maxBytes : Nat) : Sys where
  rpc := State.new maxCalls maxBytes
  takes := ∅
  nextTake := 0
  tickets := ∅
  admitted := ∅
  everConnected := ∅
  clock := 0
  dispatched := []

/-- The tickets after a request. -/
def issue (tickets : Table Nat Ticket) : Exit Ticket → Table Nat Ticket
  | .ok ticket => tickets.insert ticket.callId ticket
  | _ => tickets

def enter (admission : Admission) (admitted : Table Nat Admission) :
    Exit Ticket → Table Nat Admission
  | .ok ticket => admitted.insert ticket.callId admission
  | _ => admitted

/-- The takes after the admission step of `take`. -/
def guarded (id worker : Nat) (takes : Table Nat Take) : Exit Unit → Table Nat Take
  | .ok () => takes.insert id ⟨worker, .looping, 0⟩
  | _ => takes

/-- What a pass of `try_take` hands out. -/
def jobs (worker : Nat) (route : Option String) (now : Nat) : Exit Poll → List Dispatch
  | .ok (.job job) => [⟨worker, route, job, now⟩]
  | _ => []

def next (s : Sys) : Op → Sys
  | .connected connection => { s with
      rpc := s.rpc.connected connection
      everConnected := insert connection s.everConnected }
  | .register worker route concurrency queueLimit =>
      { s with rpc := (s.rpc.register worker route concurrency queueLimit).1 }
  | .request caller route timeoutMs payload expiredAt admittedAt =>
      let result := s.rpc.request caller route timeoutMs payload expiredAt admittedAt
      { s with
        rpc := result.1
        tickets := issue s.tickets result.2
        admitted := enter ⟨caller, route, timeoutMs, payload, admittedAt⟩ s.admitted result.2
        clock := admittedAt }
  | .takeStart worker =>
      let result := s.rpc.takeStart worker
      { s with
        rpc := result.1
        takes := guarded s.nextTake worker s.takes result.2
        nextTake := s.nextTake + 1 }
  | .enable id => { s with takes := s.takes.modify id (Take.enable s.rpc.outbox.length) }
  | .tryTake id expiredAt now =>
      match s.takes.lookup id with
      | some take =>
        let result := s.rpc.tryTake take.worker expiredAt now
        let route := (s.rpc.workers.lookup take.worker).map Worker.route
        { s with
          rpc := result.1
          takes := s.takes.modify id (Take.afterPoll result.2)
          clock := now
          dispatched := s.dispatched ++ jobs take.worker route now result.2 }
      | none => s
  | .wake id => { s with takes := s.takes.modify id (Take.enter .looping) }
  | .takeTimeout id => { s with takes := s.takes.modify id (Take.enter .returned) }
  | .takeEnd id =>
      match s.takes.lookup id with
      | some take =>
        { s with rpc := s.rpc.takeGuardDrop take.worker, takes := s.takes.erase id }
      | none => s
  | .complete worker id failed payload now =>
      { s with rpc := (s.rpc.complete worker id failed payload now).1, clock := now }
  | .expire id now => { s with rpc := s.rpc.expire id, clock := now }
  | .cancel id => { s with rpc := s.rpc.cancel id, tickets := s.tickets.erase id }
  | .disconnect connection => { s with rpc := s.rpc.disconnect connection }

/-- When a step can be taken: connection identifiers are used once, a `take` moves on from where it
stands, or ends or is cancelled, and a ticket expires or is dropped while it lives. -/
def Enabled (s : Sys) : Op → Prop
  | .connected connection => connection ∉ s.everConnected
  | .enable id => (s.takes.lookup id).any fun take => take.phase = .looping
  | .tryTake id _ _ => (s.takes.lookup id).any fun take => take.phase = .armed
  | .wake id => (s.takes.lookup id).any fun take => take.phase = .parked ∧ s.notified take
  | .takeTimeout id => (s.takes.lookup id).any fun take => take.phase = .parked
  | .takeEnd id => (s.takes.lookup id).isSome
  | .expire id _ => (s.tickets.lookup id).isSome
  | .cancel id => (s.tickets.lookup id).isSome
  | _ => True

/-- Clock readings in the order they are taken, and no ticket timing out early. -/
def Timely (s : Sys) : Op → Prop
  | .request _ _ _ _ expiredAt admittedAt => s.clock ≤ expiredAt ∧ expiredAt ≤ admittedAt
  | .tryTake _ expiredAt now => s.clock ≤ expiredAt ∧ expiredAt ≤ now
  | .complete _ _ _ _ now => s.clock ≤ now
  | .expire id now =>
      s.clock ≤ now ∧ (s.tickets.lookup id).all fun ticket => ticket.deadline ≤ now
  | _ => True

end Sys

/-- Every run, whatever the clock shows. -/
def anyClock (maxCalls maxBytes : Nat) : Transition Sys Op where
  start s := s = Sys.new maxCalls maxBytes
  step s op t := s.Enabled op ∧ t = s.next op

/-- The runs with a clock that never goes back. -/
def steady (maxCalls maxBytes : Nat) : Transition Sys Op where
  start s := s = Sys.new maxCalls maxBytes
  step s op t := s.Enabled op ∧ s.Timely op ∧ t = s.next op

theorem steady_next {maxCalls maxBytes : Nat} {s : Sys} (h : (steady maxCalls maxBytes).Reachable s)
    (op : Op) (hop : s.Enabled op) (htimely : s.Timely op) :
    (steady maxCalls maxBytes).Reachable (s.next op) := h.step ⟨hop, htimely, rfl⟩

theorem anyClock_of_steady {maxCalls maxBytes : Nat} {s : Sys}
    (h : (steady maxCalls maxBytes).Reachable s) : (anyClock maxCalls maxBytes).Reachable s := by
  refine h.mono ?_ ?_
  · intro s hs
    exact hs
  · rintro s op t ⟨henabled, _, ht⟩
    exact ⟨henabled, ht⟩

/-- A caller's request has been handed to the only worker of its route. -/
def Sys.served : Sys :=
  ((((((((Sys.new 4 100000).next (.connected 1)).next (.register 1 "sum" 1 4)).next
    (.connected 2)).next (.request 2 "sum" 5 [7] 0 0)).next (.takeStart 1)).next (.enable 0)).next
    (.tryTake 0 1000 2000))

theorem Sys.served_reachable : (steady 4 100000).Reachable Sys.served := by
  have h := Transition.Reachable.of_start (T := steady 4 100000) rfl
  have h := steady_next h (.connected 1) (Finset.notMem_empty 1) trivial
  have h := steady_next h (.register 1 "sum" 1 4) trivial trivial
  have h := steady_next h (.connected 2) (by simp [next, new, Enabled]) trivial
  have h := steady_next h (.request 2 "sum" 5 [7] 0 0) trivial ⟨le_rfl, le_rfl⟩
  have h := steady_next h (.takeStart 1) trivial trivial
  have h := steady_next h (.enable 0) rfl trivial
  exact steady_next h (.tryTake 0 1000 2000) rfl ⟨Nat.zero_le _, by omega⟩

end VeloBus.Rpc
