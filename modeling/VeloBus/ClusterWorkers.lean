import VeloBus.ClusterHandles
import VeloBus.HandlerGate

/-! The handlers that the services of a cluster client run. On each job a slot runs the function that `attach` gives to
`handle`: it waits for the gate that the connections of the service share, runs the handler of the user and gives its
place back. A signal is aborted by the deadline of its job and by the close of its handle, and what the handler makes of
that is left to the handler. -/

namespace VeloBus.Cluster

open Client (Failure Outcome)

namespace HandlerGate

/-- `abort` of a signal, with the listeners of its waiters. -/
def cancel (signal : Nat) (gate : HandlerGate) : HandlerGate :=
  (gate.waiters.filter fun waiter => waiter.signal = signal).foldl (fun gate waiter => gate.abort waiter.ticket)
    { gate with aborted := signal :: gate.aborted }

end HandlerGate

/-- How far the function that `attach` gives to `handle` is: it waits for the gate, the handler of the user runs, it is
settled, or its slot has gone on. -/
inductive Stage where
  | acquiring
  | running (remainingMs : Nat)
  | settled (outcome : Outcome)
  | returned
deriving DecidableEq, Repr

/-- A call of that function. -/
structure Execution where
  handle : Nat
  slot : Nat
  job : Rpc.Job
  started : ℚ
  /-- Why its signal is aborted. -/
  reason : Option Failure
  stage : Stage

/-- The gate of a service and what went through it: the place of an execution is also the number of its acquire and of
its signal. -/
structure Workers where
  gate : HandlerGate
  executions : List Execution

/-- `options.concurrency!` -/
def ClusterService.concurrency (service : ClusterService) : Nat :=
  match service.options.concurrency with
  | .number concurrency => concurrency.num.toNat
  | _ => 0

/-- What the function rejects with when it throws a failure. -/
def thrown (reason : Failure) : Outcome := .threw reason.thrown

namespace Workers

def new (nodes : Nat) (service : ClusterService) : Workers where
  gate := .new service.concurrency (nodes * service.concurrency)
  executions := []

def setStage (ticket : Nat) (stage : Stage) (w : Workers) : Workers :=
  { w with executions := w.executions.modify ticket fun execution => { execution with stage := stage } }

/-- `controller.abort` -/
def cancel (ticket : Nat) (reason : Failure) (w : Workers) : Workers :=
  match w.executions[ticket]? with
  | none => w
  | some execution =>
    if execution.reason.isSome then w
    else {
      gate := w.gate.cancel ticket
      executions := w.executions.modify ticket fun execution => { execution with reason := some reason } }

/-- A slot has got a job. -/
def start (now : ℚ) (h slot : Nat) (job : Rpc.Job) (w : Workers) : Workers :=
  let ticket := w.executions.length
  let execution : Execution := ⟨h, slot, job, now, none, .acquiring⟩
  if job.remainingMs = 0 then {
    gate := (w.gate.cancel ticket).acquire ticket
    executions := w.executions ++ [{ execution with reason := some (.broker 10 "Handler deadline exceeded") }] }
  else {
    gate := w.gate.acquire ticket
    executions := w.executions ++ [execution] }

/-- The function is settled, and has given its place back. -/
def finish (ticket : Nat) (outcome : Outcome) (w : Workers) : Workers :=
  { w with gate := w.gate.release ticket }.setStage ticket (.settled outcome)

/-- What the function does once its acquire is settled. -/
def proceed (now : ℚ) (ticket : Nat) (execution : Execution) (verdict : Verdict) (w : Workers) : Workers :=
  match verdict, execution.reason with
  | .aborted, some reason => w.setStage ticket (.settled (thrown reason))
  | .aborted, none => w
  | .refused message, _ => w.setStage ticket (.settled (thrown (.other message)))
  | .granted, some reason => w.finish ticket (thrown reason)
  | .granted, none =>
    let remaining := (execution.job.remainingMs : Int) - ⌈now - execution.started⌉
    if remaining ≤ 0 then w.finish ticket (thrown (.other "Deadline expired before local handler admission"))
    else w.setStage ticket (.running remaining.toNat)

/-- The signal of what a slot of a closed handle runs is aborted. -/
def interrupt (closed : Nat → Bool) (w : Workers) (ticket : Nat) : Workers :=
  match w.executions[ticket]? with
  | none => w
  | some execution =>
    if closed execution.handle ∧ execution.stage ≠ .returned then
      w.cancel ticket (.connectionClosed "Nodara service closed")
    else w

/-- The close of handles. -/
def sweep (closed : Nat → Bool) (w : Workers) : Workers :=
  (List.range w.executions.length).foldl (interrupt closed) w

/-- The executions in which the handler of the user runs. -/
def running (w : Workers) : List Nat :=
  (List.range w.executions.length).filter fun ticket =>
    match w.executions[ticket]? with
    | some ⟨_, _, _, _, _, .running _⟩ => true
    | _ => false

end Workers

/-- A handle that is not stopped. -/
def State.runs (s : State) (h : Nat) : Bool :=
  match s.handles[h]? with
  | none => false
  | some handle => !handle.state.stopped

/-- A cluster client with the gates of its services. -/
structure Pool where
  cluster : State
  workers : List Workers

namespace Pool

inductive Op where
  /-- A step of the cluster client, and what its slots and handles do by that. -/
  | cluster (op : Cluster.Op)
  /-- The timer of an execution. -/
  | deadline (v ticket : Nat)
  /-- An execution goes on with what its acquire was settled with. -/
  | admitted (v ticket : Nat)
  /-- The handler of the user settles. -/
  | finished (v ticket : Nat) (outcome : Outcome)

def modifyWorkers (v : Nat) (f : Workers → Workers) (p : Pool) : Pool := { p with workers := p.workers.modify v f }

/-- The cluster client has moved on; a new service gets its gate. -/
def follow (cluster : State) (p : Pool) : Pool where
  cluster := cluster
  workers := p.workers ++ (cluster.registrations.drop p.workers.length).map (Workers.new cluster.nodes.length)

def sweep (before : State) (p : Pool) : Pool :=
  { p with workers := p.workers.map fun w => w.sweep fun h => before.runs h && !p.cluster.runs h }

/-- A slot that has got a job runs it. -/
def start (now : ℚ) (h slot : Nat) (p : Pool) : Pool :=
  match p.cluster.handles[h]? with
  | none => p
  | some handle =>
    match handle.state.slots[slot]? with
    | some (.executing job) => p.modifyWorkers handle.service fun w => w.start now h slot job
    | _ => p

def Step (options : Options) (s : Pool) (now : ℚ) (op : Op) (t : Pool) : Prop :=
  match op with
  | .cluster op => ∃ cluster, s.cluster.Step options now op cluster ∧
    match op with
    | .service h (.taken slot) => t = ((s.follow cluster).start now h slot).sweep s.cluster
    | .service h (.settle slot outcome _) => ∃ handle w ticket execution, s.cluster.handles[h]? = some handle ∧
      s.workers[handle.service]? = some w ∧ w.executions[ticket]? = some execution ∧
      execution.handle = h ∧ execution.slot = slot ∧ execution.stage = .settled outcome ∧
      t = ((s.follow cluster).modifyWorkers handle.service fun w => w.setStage ticket .returned).sweep s.cluster
    | _ => t = (s.follow cluster).sweep s.cluster
  | .deadline v ticket => ∃ w execution, s.workers[v]? = some w ∧ w.executions[ticket]? = some execution ∧
    s.cluster.runs execution.handle = true ∧ execution.stage ≠ .returned ∧
    execution.started + execution.job.remainingMs ≤ now ∧
    t = s.modifyWorkers v fun w => w.cancel ticket
      (.broker 10 "Handler deadline exceeded; execution slot remains occupied until completion")
  | .admitted v ticket => ∃ w execution verdict, s.workers[v]? = some w ∧ w.executions[ticket]? = some execution ∧
    execution.stage = .acquiring ∧ (ticket, verdict) ∈ w.gate.settled ∧
    t = s.modifyWorkers v fun w => w.proceed now ticket execution verdict
  | .finished v ticket outcome => ∃ w execution remainingMs, s.workers[v]? = some w ∧
    w.executions[ticket]? = some execution ∧ execution.stage = .running remainingMs ∧
    t = s.modifyWorkers v fun w => w.finish ticket outcome

end Pool

/-- A cluster client and its handlers, from the call of `connect` on. -/
def pools (options : Options) : Transition Pool (ℚ × Pool.Op) where
  start p := (machine options).start p.cluster ∧ p.workers = []
  step p event q := p.Step options event.1 event.2 q

end VeloBus.Cluster
