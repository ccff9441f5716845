import VeloBus.ConnectionResponses
import VeloBus.ConnectionTasks
import VeloBus.LinkCorrelation
import VeloBus.RpcVerdicts

/-! A client that makes requests, its connection at the broker and the scheduler. The task of a request has a ticket:
it waits for the reply to its call or for the deadline, drops the ticket and answers. What else the connection and the
scheduler do, for this client or for others, goes on beside it. -/

namespace VeloBus

/-- The requests whose tasks have a ticket. -/
def Request.Calls : Request → Prop
  | .rpc _ _ _ => True
  | _ => False

/-- The calls of a caller are made and given up by the tasks of its connection only. -/
def Rpc.Op.Away (caller : Nat) (s : Rpc.Sys) : Rpc.Op → Prop
  | .connected connection => connection ≠ caller
  | .request caller' _ _ _ _ _ => caller' ≠ caller
  | .expire id _ => ∀ admission, s.admitted.lookup id = some admission → admission.caller ≠ caller
  | .cancel id => ∀ admission, s.admitted.lookup id = some admission → admission.caller ≠ caller
  | .disconnect connection => connection ≠ caller
  | _ => True

namespace Link

variable {ρ : Type}

/-- The result that an operation ends with in a step. -/
def ended : Op ρ → List (Nat × Except Error Bytes)
  | .server op => op.result
  | .client _ => []

/-- A client and its connection, with the results of the operations. -/
def traced (undefined : ρ) (options : Client.ConnectOptions) (token : String) (connection : Nat) :
    Transition (State ρ × List (Nat × Except Error Bytes)) (Op ρ) :=
  (machine undefined options token connection).observed [] fun _ op results => results ++ ended op

/-- What the client does leaves the operations alone. -/
theorem traced_reachable {undefined : ρ} {options : Client.ConnectOptions} {token : String} {connection : Nat}
    {s : State ρ × List (Nat × Except Error Bytes)} (h : (traced undefined options token connection).Reachable s) :
    s.1.server.Traced token s.2 := by
  refine h.invariant (P := fun s => s.1.server.Traced token s.2) ?_ ?_
  · rintro ⟨s, results⟩ ⟨⟨checked, -, -, rfl⟩, rfl⟩
    exact Connection.State.new_traced token
  · rintro ⟨s, results⟩ op ⟨t, results'⟩ hreach hs ⟨hstep, rfl⟩
    cases op with
    | client op =>
        obtain ⟨rest, client, -, -, -, rfl⟩ := hstep
        dsimp only [ended]
        rw [List.append_nil]
        exact hs.keeps (inv hreach.of_observed).server
          ⟨rfl, rfl, rfl, rfl, fun _ _ h => h, fun _ h => Or.inl h, fun _ _ h => h⟩
    | server op =>
        obtain ⟨-, hop, rfl⟩ := hstep
        exact hs.step (inv hreach.of_observed).server hop

end Link

namespace Caller

variable {ρ : Type}

def channelClosedError : Error := ⟨Code.serviceUnavailable, "RPC response channel closed"⟩

/-- How far the `wait` of a ticket is: before it has a result, or on its way out, with the ticket still alive. -/
inductive Wait where
  | waiting (id : Nat)
  | replied (id : Nat) (reply : Rpc.Reply)

def Wait.id : Wait → Nat
  | waiting id => id
  | replied id _ => id

structure State (ρ : Type) where
  link : Link.State ρ
  sys : Rpc.Sys
  /-- The tasks that are in `wait`. -/
  waits : Table Nat Wait

inductive Op (ρ : Type) where
  | client (op : Client.Op ρ)
  /-- A step of the connection that leaves the scheduler alone. -/
  | server (op : Connection.Op)
  /-- HELLO was answered, and the scheduler learns of the connection. -/
  | welcome
  | request (index : Nat) (route : String) (timeoutMs : Nat) (payload : Bytes) (expiredAt admittedAt : Nat)
  | receive (index id : Nat) (reply : Rpc.Reply)
  /-- The sender is gone without a reply. -/
  | closed (index id : Nat)
  | lapse (index id now : Nat)
  /-- `wait` returns, which drops the ticket, and the task is done. -/
  | drop (index id : Nat) (reply : Rpc.Reply)
  /-- A task that waits is aborted, which drops its ticket. -/
  | abort (index id : Nat)
  | disconnect
  /-- Other connections, the tickets of their calls, and what this connection does as a worker. -/
  | others (op : Rpc.Op)

/-- How the task of a request ends that got no ticket. -/
def refused (index : Nat) : Rpc.Exit Rpc.Ticket → Option Connection.Op
  | .ok _ => none
  | .error error => some (.finish index (.error error))
  | .panicked => some (.panic index)

namespace State

/-- The steps of the connection that are not part of another step. -/
def Apart (s : State ρ) : Connection.Op → Prop
  | .greeted => s.link.server.loop ≠ .greeting [] true
  | .finish index _ => ∀ request, s.link.server.Performs index request → ¬request.Calls
  | .panic index => ∀ request, s.link.server.Performs index request → ¬request.Calls
  | .abortTask index => s.waits.lookup index = none
  | _ => True

/-- When a step is due, as far as the connection and the scheduler do not say. -/
def Ready (connection : Nat) (s : State ρ) : Op ρ → Prop
  | .client _ => True
  | .server op => s.Apart op
  | .welcome => s.link.server.loop = .greeting [] true
  | .request index route timeoutMs payload _ _ =>
    s.link.server.Performs index (.rpc route timeoutMs payload) ∧ s.waits.lookup index = none
  | .receive index id reply => s.waits.lookup index = some (.waiting id) ∧ reply ∈ Rpc.replies id s.sys.rpc.outbox
  | .closed index id => s.waits.lookup index = some (.waiting id) ∧ Rpc.replies id s.sys.rpc.outbox = [] ∧
    ∀ call, s.sys.rpc.calls.lookup id = some call → call.response = false
  | .lapse index id _ => s.waits.lookup index = some (.waiting id)
  | .drop index id reply => s.waits.lookup index = some (.replied id reply)
  | .abort index id => ∃ wait, s.waits.lookup index = some wait ∧ wait.id = id
  | .disconnect => s.link.server.loop = .returned
  | .others op => op.Away connection s.sys ∧ op.Decoded

/-- The step of the connection in a step of the whole. -/
def linkOp (connection : Nat) (s : State ρ) : Op ρ → Option (Link.Op ρ)
  | .client op => some (.client op)
  | .server op => some (.server op)
  | .welcome => some (.server .greeted)
  | .request index route timeoutMs payload expiredAt admittedAt =>
    (refused index (s.sys.rpc.request connection route timeoutMs payload expiredAt admittedAt).2).map .server
  | .drop index _ reply => some (.server (.finish index (reply.map Rpc.replyBody)))
  | .abort index _ => some (.server (.abortTask index))
  | _ => none

/-- The tasks that are in `wait` after a step. -/
def waitsAfter (connection : Nat) (s : State ρ) : Op ρ → Table Nat Wait
  | .request index route timeoutMs payload expiredAt admittedAt =>
    match (s.sys.rpc.request connection route timeoutMs payload expiredAt admittedAt).2 with
    | .ok ticket => s.waits.insert index (.waiting ticket.callId)
    | _ => s.waits
  | .receive index id reply => s.waits.insert index (.replied id reply)
  | .closed index id => s.waits.insert index (.replied id (.error channelClosedError))
  | .lapse index id _ => s.waits.insert index (.replied id (.error Rpc.deadlineError))
  | .drop index _ _ => s.waits.erase index
  | .abort index _ => s.waits.erase index
  | _ => s.waits

end State

/-- The step of the scheduler in a step of the whole. -/
def Op.sysOp (connection : Nat) : Op ρ → Option Rpc.Op
  | .welcome => some (.connected connection)
  | .request _ route timeoutMs payload expiredAt admittedAt =>
    some (.request connection route timeoutMs payload expiredAt admittedAt)
  | .lapse _ id now => some (.expire id now)
  | .drop _ id _ => some (.cancel id)
  | .abort _ id => some (.cancel id)
  | .disconnect => some (.disconnect connection)
  | .others op => some op
  | _ => none

/-- A client within the broker's limit at a broker with some token and some limits, on a clock that never goes back. -/
def machine (undefined : ρ) (options : Client.ConnectOptions) (token : String) (connection maxCalls maxBytes : Nat) :
    Transition (State ρ) (Op ρ) where
  start s := ∃ link, (Link.machine undefined options token connection).start link ∧
    s = ⟨link, .new maxCalls maxBytes, ∅⟩
  step s op t := s.Ready connection op ∧
    (Link.machine undefined options token connection).Advance s.link (s.linkOp connection op) t.link ∧
    (Rpc.steady maxCalls maxBytes).Advance s.sys (op.sysOp connection) t.sys ∧ t.waits = s.waitsAfter connection op

/-! ### History -/

/-- The bodies of the requests of the client, the results of the operations, the call of every task that got a ticket,
and the COMPLETEs that the scheduler took. -/
structure History where
  bodies : List Bytes
  results : List (Nat × Except Error Bytes)
  calls : Table Nat Nat
  reports : List Rpc.Report

def History.new : History := ⟨[], [], ∅, []⟩

/-- The calls of the tasks after a step. -/
def State.callsAfter (connection : Nat) (s : State ρ) (calls : Table Nat Nat) : Op ρ → Table Nat Nat
  | .request index route timeoutMs payload expiredAt admittedAt =>
    match (s.sys.rpc.request connection route timeoutMs payload expiredAt admittedAt).2 with
    | .ok ticket => calls.insert index ticket.callId
    | _ => calls
  | _ => calls

def State.observe (connection : Nat) (s : State ρ) (op : Op ρ) (history : History) : History where
  bodies := Transition.record (fun s op bodies => bodies ++ Link.asked s op) s.link (s.linkOp connection op)
    history.bodies
  results := Transition.record (fun _ op results => results ++ Link.ended op) s.link (s.linkOp connection op)
    history.results
  calls := s.callsAfter connection history.calls op
  reports := Transition.record (fun s op reports => reports ++ s.reports op) s.sys (op.sysOp connection)
    history.reports

/-- The caller with its history. -/
def recorded (undefined : ρ) (options : Client.ConnectOptions) (token : String) (connection maxCalls maxBytes : Nat) :
    Transition (State ρ × History) (Op ρ) :=
  (machine undefined options token connection maxCalls maxBytes).observed .new (State.observe connection)

end Caller

end VeloBus
