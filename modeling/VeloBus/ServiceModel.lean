import VeloBus.ClientFrames
import VeloBus.ClientJobs

/-! A service of the client: `handle`, the connection it opens for itself and its slots. A slot repeats TAKE,
the handler and COMPLETE. The broker is what comes in on the connection. What aborts a handler's signal is
advice to the handler, and is left to its outcome. -/

namespace VeloBus.Service

open Client (Failure Value Outcome)

/-- Why a service is closed: by `close`, by a failure of its connection, or by what a `run` was rejected with,
that is by a TAKE or COMPLETE that was rejected or by what was thrown on the way from a handler to its COMPLETE. -/
inductive Cause where
  | closed
  | lost
  | refused (reason : Failure)
  | escaped (reason : Failure)
deriving DecidableEq, Repr

/-- Where a `run` is. -/
inductive Slot where
  | ready
  | taking (promise : Nat)
  | executing (job : Rpc.Job)
  | completing (promise : Nat)
  | returned
  | threw (cause : Cause)
deriving DecidableEq, Repr

/-- Where `handle` is. -/
inductive Phase where
  | opening
  | registering (promise : Nat)
  | serving
  | failed
deriving DecidableEq, Repr

/-- What a slot did: it got a job, or sent the COMPLETE of one. -/
inductive Entry where
  | took (slot : Nat) (job : Rpc.Job)
  | completed (slot : Nat) (job : Rpc.Job) (outcome : Outcome) (status : Nat) (output : Bytes)
deriving DecidableEq, Repr

structure State where
  child : Client.State (Option Rpc.Job)
  phase : Phase
  slots : List Slot
  stopped : Bool
  /-- What closed the service first. -/
  cause : Option Cause
  log : List Entry

structure Setup where
  /-- The options of the parent. -/
  options : Client.ConnectOptions
  route : Value
  handler : Value
  handleOptions : Client.HandleOptions
deriving DecidableEq, Repr

/-- The number of slots. -/
def Setup.concurrency (setup : Setup) : Except Failure Nat :=
  Client.integer (setup.handleOptions.concurrency.orElse (.number 8)) 1 32 "concurrency"

inductive Op where
  /-- The socket, its peer, or `open`. -/
  | child (op : Client.Op (Option Rpc.Job))
  /-- `handle` sends the registration. -/
  | announce (socket : Client.Socket)
  | serve
  /-- `handle` throws. -/
  | abandon
  /-- `close` of the service or of its client. -/
  | close
  | onFailure (slot : Nat)
  /-- A slot begins a round, goes on with what TAKE was settled with, settles its handler, or goes on with what
  COMPLETE was settled with. -/
  | take (slot : Nat) (socket : Client.Socket)
  | taken (slot : Nat)
  | settle (slot : Nat) (outcome : Outcome) (socket : Client.Socket)
  | completed (slot : Nat)

namespace State

def new (checked : Client.Settings) : State where
  child := .new checked
  phase := .opening
  slots := []
  stopped := false
  cause := none
  log := []

/-- `service.close()` -/
def stop (cause : Cause) (s : State) : State :=
  if s.stopped then s
  else { s with
    stopped := true
    cause := some cause
    child := s.child.fail (.connectionClosed Client.closedMessage) }

/-- A failure of the connection closes the service once it is in use. -/
def follow (child : Client.State (Option Rpc.Job)) (s : State) : State :=
  let s := { s with child := child }
  if s.phase = .serving ∧ child.closed then s.stop .lost else s

def setSlot (slot : Nat) (next : Slot) (s : State) : State := { s with slots := s.slots.set slot next }

/-- A step of the connection. -/
def Calls (s : State) (op : Client.Op (Option Rpc.Job)) (child : Client.State (Option Rpc.Job)) : Prop :=
  s.child.Enabled op ∧ s.child.next none op = some child

end State

/-- The steps of the connection that `open`, the socket and its peer take. -/
def Ambient : Client.Op (Option Rpc.Job) → Prop
  | .send _ _ _ _ => False
  | .close => False
  | _ => True

/-- What a slot makes of the settlement of TAKE. -/
def Slot.afterTake (stopped : Bool) : Client.Settlement (Option Rpc.Job) → Slot
  | .rejected reason => .threw (.refused reason)
  | .resolved value =>
    if stopped then .returned
    else match value with
      | none => .ready
      | some job => .executing job

/-- What a slot makes of the settlement of COMPLETE. -/
def Slot.afterComplete (stopped : Bool) : Client.Settlement (Option Rpc.Job) → Slot
  | .rejected reason => .threw (.refused reason)
  | .resolved _ => if stopped then .returned else .ready

/-- The job that a slot starts on. -/
def Slot.started (slot : Nat) : Slot → List Entry
  | executing job => [.took slot job]
  | _ => []

def completeBody (job : Rpc.Job) (status : Nat) (output : Bytes) : Bytes :=
  Client.complete (UInt64.ofNat job.callId) status output

namespace State

/-- The steps of a service. -/
def Step (setup : Setup) (s : State) (op : Op) (t : State) : Prop :=
  match op with
  | .child op => Ambient op ∧ ∃ child, s.Calls op child ∧ t = s.follow child
  | .announce socket => s.phase = .opening ∧ ∃ registration child,
    Client.handle setup.route setup.handler setup.handleOptions = .ok registration ∧
    s.Calls (.send socket 6 registration Client.emptyParser) child ∧
    t = { s with child := child, phase := .registering s.child.sent.length }
  | .serve => ∃ promise value concurrency, s.phase = .registering promise ∧
    (promise, .resolved value) ∈ s.child.settled ∧ s.child.closed = false ∧ setup.concurrency = .ok concurrency ∧
    t = { s with phase := .serving, slots := List.replicate concurrency .ready }
  | .abandon => (s.phase = .opening ∨ ∃ promise, s.phase = .registering promise) ∧
    t = { s.stop .closed with phase := .failed }
  -- While it opens, the service is not known to its client, which closes the connection alone.
  | .close => t = if s.phase = .opening then { s with child := s.child.fail (.connectionClosed Client.closedMessage) }
    else s.stop .closed
  | .onFailure slot => ∃ cause, s.slots[slot]? = some (.threw cause) ∧ t = (s.stop cause).setSlot slot .returned
  | .take slot socket => s.slots[slot]? = some .ready ∧
    if s.stopped then t = s.setSlot slot .returned
    else ∃ child, s.Calls (.send socket 8 Client.take Client.takenParser) child ∧
      t = (s.follow child).setSlot slot (.taking s.child.sent.length)
  | .taken slot => ∃ promise outcome, s.slots[slot]? = some (.taking promise) ∧
    (promise, outcome) ∈ s.child.settled ∧
    t = { s.setSlot slot (.afterTake s.stopped outcome) with
      log := s.log ++ (Slot.afterTake s.stopped outcome).started slot }
  | .settle slot outcome socket => ∃ job, s.slots[slot]? = some (.executing job) ∧
    match Client.settle outcome with
    | .error failure => t = s.setSlot slot (.threw (.escaped failure))
    | .ok (status, payload) =>
      if s.stopped then t = s.setSlot slot .returned
      else match payload.written with
        | .error failure => t = s.setSlot slot (.threw (.escaped failure))
        | .ok output => ∃ child, s.Calls (.send socket 9 (completeBody job status output) Client.emptyParser) child ∧
          t = { (s.follow child).setSlot slot (.completing s.child.sent.length) with
            log := s.log ++ [.completed slot job outcome status output] }
  | .completed slot => ∃ promise outcome, s.slots[slot]? = some (.completing promise) ∧
    (promise, outcome) ∈ s.child.settled ∧ t = s.setSlot slot (.afterComplete s.stopped outcome)

/-- A handler that is settled leaves its slot, and nothing else unless a COMPLETE is sent. -/
theorem settle_cases {setup : Setup} {s t : State} {slot : Nat} {outcome : Outcome} {socket : Client.Socket}
    (h : s.Step setup (.settle slot outcome socket) t) : ∃ job, s.slots[slot]? = some (.executing job) ∧
      ((∃ next, t = s.setSlot slot next) ∨ ∃ status output child,
        s.Calls (.send socket 9 (completeBody job status output) Client.emptyParser) child ∧
        t = { (s.follow child).setSlot slot (.completing s.child.sent.length) with
          log := s.log ++ [.completed slot job outcome status output] }) := by
  obtain ⟨job, hslot, h⟩ := h
  refine ⟨job, hslot, ?_⟩
  split at h
  · exact Or.inl ⟨_, h⟩
  · split_ifs at h
    · exact Or.inl ⟨_, h⟩
    · split at h
      · exact Or.inl ⟨_, h⟩
      · obtain ⟨child, hcalls, rfl⟩ := h
        exact Or.inr ⟨_, _, child, hcalls, rfl⟩

end State

/-- A service that passed the checks of `handle`. -/
def machine (setup : Setup) : Transition State Op where
  start s := ∃ registration concurrency checked,
    Client.handle setup.route setup.handler setup.handleOptions = .ok registration ∧
    setup.concurrency = .ok concurrency ∧
    Client.settings { setup.options with maxPendingRequests := .number concurrency } = .ok checked ∧
    s = .new checked
  step s op t := s.Step setup op t

end VeloBus.Service
