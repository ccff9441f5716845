import VeloBus.StationInvariant

/-! What a service and its broker agree on while the connection between them is up: what the handlers work on, what
was completed, and what neither of them ever says. -/

namespace VeloBus.Station

open Client (Failure)

namespace State

variable {s : State} {token : String} {connection n : Nat} {bearer : Nat → Place}

/-- The jobs that handlers have. -/
def executing (s : State) : List Rpc.Job := s.service.slots.flatMap Service.Slot.jobs

/-- The scheduler handed the job to the connection, with the payload of a request for its route. -/
def Backed (connection : Nat) (s : State) (job : Rpc.Job) : Prop :=
  ∃ dispatch ∈ s.sys.dispatched, dispatch.worker = connection ∧ dispatch.job = job ∧
    ∃ admission, s.sys.admitted.lookup job.callId = some admission ∧ dispatch.route = some admission.route ∧
      job.payload = admission.payload

/-- What both ends of a connection that is up make of the calls. -/
structure Agrees (connection : Nat) (s : State) : Prop where
  /-- A handler has a call that the scheduler has this connection working on. -/
  executing : ∀ job ∈ s.executing, s.sys.Runs connection job.callId ∧ s.Backed connection job
  apart : (s.executing.map Rpc.Job.callId).Nodup
  /-- What the scheduler takes for the result of a call is how a handler that had its job was settled. -/
  completed : ∀ completion ∈ s.completed, ∃ slot job outcome,
    .completed slot job outcome completion.failed.toNat completion.payload ∈ s.service.log ∧
      job.callId = completion.callId ∧ s.Backed connection job ∧
      Client.Tells outcome completion.failed.toNat completion.payload

/-- A job that was handed out is one that was asked for. -/
theorem Inv.backed (h : s.Inv token connection n) {job : Rpc.Job} (hhanded : (s.desk connection n bearer).Handed job) :
    s.Backed connection job := by
  obtain ⟨dispatch, hmem, hworker, rfl⟩ := hhanded
  obtain ⟨admission, hlookup, hroute, hpayload⟩ := h.sourced dispatch hmem
  exact ⟨dispatch, hmem, hworker, rfl, admission, hlookup, hroute, hpayload⟩

variable {setup : Service.Setup} {maxCalls maxBytes : Nat}

end State

/-! ### A service at work -/

namespace Sample

open Service.Sample (setup checked accepts)

/-- A step of the service's connection, which leaves these bytes. -/
def child (op : Client.Op (Option Rpc.Job)) (rest : Bytes) (s : State) : State :=
  s.deliver (Service.Sample.ambient op s.service) rest

def server (op : Connection.Op) (s : State) : State := { s with server := s.server.next "" op }

/-- The service sends a request. -/
def sends (opcode : Nat) (body : Bytes) (s : State) : Client.State (Option Rpc.Job) :=
  let parse := if opcode = 8 then Client.takenParser else Client.emptyParser
  (s.service.child.next none (.send accepts opcode body parse)).getD s.service.child

/-- The loop takes a request. -/
def takes (s : State) : State := server .accept (server .pass (server .read s))

/-- The response of a task is written. -/
def answers (index count : Nat) (s : State) : State :=
  server .wrote (server (.put count) (server .take (server (.reply index) s)))

def welcomed : State :=
  let s := server (.greet 11) (server .hello (child (.greet accepts) [] (child .connected []
    ⟨.new checked, .new, .new 4 100000, ∅, []⟩)))
  { server .greeted s with sys := s.sys.next (.connected 1) }

def announced : State :=
  let s := child .opened [] (child (.data [129, 0, 0, 0, 1, 0, 1]) [] welcomed)
  s.deliver { s.service with
    child := sends 6 [0, 3, 115, 117, 109, 0, 1, 0, 128] s
    phase := .registering s.service.child.sent.length } s.server.output

def registered : State :=
  let s := takes announced
  s.conclude "" 1 ((s.sys.rpc.register 1 "sum" 1 128).2.map fun _ => []) (s.sys.next (.register 1 "sum" 1 128))

def served : State :=
  let s := child (.data [134, 0, 0, 0, 2]) [] (answers 1 9 registered)
  s.deliver { s.service with phase := .serving, slots := [.ready] } s.server.output

/-- The slot asks for a job, and the task of TAKE begins. -/
def asked : State :=
  let s := takes (served.deliver ((served.service.follow (sends 8 Client.take served)).setSlot 0
    (.taking served.service.child.sent.length)) served.server.output)
  { s with sys := s.sys.next (.takeStart 1), takes := s.takes.insert 2 (.taking 0) }

/-- Another connection asks for the route. -/
def requested : State :=
  let s : State := { asked with sys := asked.sys.next (.connected 2) }
  { s with sys := s.sys.next (.request 2 "sum" 5 [7] 0 0) }

def enabled : State := { requested with
  sys := requested.sys.next (.enable 0)
  takes := requested.takes.insert 2 (.taking 0) }

def job : Rpc.Job := ⟨1, 5, [7]⟩

def polled : State := { enabled with
  sys := enabled.sys.next (.tryTake 0 1000 2000)
  takes := enabled.takes.insert 2 (.afterPoll 0 (enabled.sys.rpc.tryTake 1 1000 2000).2) }

def taken : State := { polled.conclude "" 2 (.ok job.encode) (polled.sys.next (.takeEnd 0)) with
  takes := polled.takes.erase 2 }

/-- The handler has the job. -/
def busy : State :=
  let s := child (.data [136, 0, 0, 0, 3, 1, 0, 0, 0, 0, 0, 0, 0, 1, 0, 0, 0, 5, 0, 0, 0, 1, 7]) [] (answers 2 27 taken)
  s.deliver { s.service.setSlot 0 (.executing job) with log := s.service.log ++ [.took 0 job] } s.server.output

/-- The handler has returned, and the task of COMPLETE begins. -/
def settled : State :=
  takes (busy.deliver { (busy.service.follow (sends 9 (Service.completeBody job 0 [9]) busy)).setSlot 0
      (.completing busy.service.child.sent.length) with
    log := busy.service.log ++ [.completed 0 job (.returned (.bytes [9])) 0 [9]] } busy.server.output)

def completed : State := { settled.conclude "" 3 ((settled.sys.rpc.complete 1 1 false [9] 3000).2.map fun _ => [])
    (settled.sys.next (.complete 1 1 false [9] 3000)) with
  completed := settled.completed ++ accepted ⟨1, false, [9]⟩ (settled.sys.rpc.complete 1 1 false [9] 3000).2 }

section Steps

variable {s : State} (h : (printable setup "" 1 4 100000).Reachable s)

include h

theorem calls {op : Client.Op (Option Rpc.Job)} (hop : s.service.child.Enabled op) :
    s.service.Calls op ((s.service.child.next none op).getD s.service.child) := by
  obtain ⟨_, -, hinv⟩ := State.printable_inv h
  obtain ⟨child, hnext⟩ := hinv.service.conn.inv.returns none op
  refine ⟨hop, ?_⟩
  rw [hnext]
  rfl

theorem child_reachable (op : Client.Op (Option Rpc.Job)) (rest : Bytes) (hreads : s.link.Reads op rest)
    (hambient : Service.Ambient op) (hop : s.service.child.Enabled op) :
    (printable setup "" 1 4 100000).Reachable (child op rest s) :=
  h.step (l := Op.service (.child op)) ⟨trivial, rest, _, hreads, ⟨hambient, _, calls h hop, rfl⟩, rfl⟩

theorem server_reachable (op : Connection.Op) (hapart : s.Apart op) (hop : s.server.Enabled 1 op) :
    (printable setup "" 1 4 100000).Reachable (server op s) :=
  h.step (l := Op.server op) ⟨trivial, hapart, hop, rfl⟩

theorem takes_reachable (frame : Frame) (hread : readFrame s.server.input = .frame frame [])
    (hreader : s.server.reader = .reading) (hframes : s.server.frames = none) (hloop : s.server.loop = .select) :
    (printable setup "" 1 4 100000).Reachable (takes s) := by
  have hafter : (server .read s).server = { s.server with input := [], reader := .sending frame } := by
    simp only [server, Connection.State.next, hread]
  have hpassed : (server .pass (server .read s)).server =
      { s.server with input := [], frames := some frame, reader := .reading } := by
    simp only [server, Connection.State.next, hread]
  have h := server_reachable h .read trivial ⟨hreader, frame, [], hread⟩
  have h := server_reachable h .pass trivial (by simp [Connection.State.Enabled, hafter, hframes, hloop])
  exact server_reachable h .accept trivial (by simp [Connection.State.Enabled, hpassed, hloop])

theorem answers_reachable (index : Nat) (task : Connection.Task) {response : Connection.Response}
    (htask : s.server.tasks.lookup index = some task) (hresponse : task.response = some response)
    (hresponses : s.server.responses = none) (hwriter : s.server.writer = .idle)
    (hpositive : 0 < response.bytes.length) :
    (printable setup "" 1 4 100000).Reachable (answers index response.bytes.length s) := by
  have hended : s.server.writer ≠ .ended := by
    rw [hwriter]
    exact nofun
  have hreplied : (server (.reply index) s).server =
      { s.server with tasks := s.server.tasks.erase index, responses := some response } := by
    simp only [server, Connection.State.next, htask, if_neg hended, hresponse]
  have htaken : (server .take (server (.reply index) s)).server =
      ((server (.reply index) s).server).retire response := by
    change (server (.reply index) s).server.next "" .take = _
    simp only [Connection.State.next, hreplied]
  have hput : (server (.put response.bytes.length) (server .take (server (.reply index) s))).server.writer =
      .writing [] response.written := by
    change ((server .take (server (.reply index) s)).server.next "" (.put response.bytes.length)).writer = _
    simp only [Connection.State.next, htaken, Connection.State.retire, List.drop_length]
  have h := server_reachable h (.reply index) trivial ⟨task, response, htask, hresponse, Or.inl hresponses⟩
  have h := server_reachable h .take trivial (by simp [Connection.State.Enabled, hreplied, hwriter])
  have h := server_reachable h (.put response.bytes.length) trivial
    ⟨_, _, congrArg Connection.State.writer htaken, hpositive, le_rfl⟩
  exact server_reachable h .wrote trivial ⟨_, hput⟩

end Steps

theorem setup_checked : Client.handle setup.route setup.handler setup.handleOptions =
    .ok [0, 3, 115, 117, 109, 0, 1, 0, 128] ∧ setup.concurrency = .ok 1 ∧
      Client.settings { setup.options with maxPendingRequests := .number (1 : Nat) } = .ok checked := by
  decide +kernel

/-- What the responses that the service reads resolve its promises with. -/
theorem resolved : (0, .resolved none) ∈ (child (.data [129, 0, 0, 0, 1, 0, 1]) [] welcomed).service.child.settled ∧
    (1, .resolved none) ∈ (child (.data [134, 0, 0, 0, 2]) [] (answers 1 9 registered)).service.child.settled ∧
    (2, .resolved (some job)) ∈
      (child (.data [136, 0, 0, 0, 3, 1, 0, 0, 0, 0, 0, 0, 0, 1, 0, 0, 0, 5, 0, 0, 0, 1, 7]) []
        (answers 2 27 taken)).service.child.settled := by
  decide

theorem announced_reachable : (printable setup "" 1 4 100000).Reachable announced := by
  have h := Transition.Reachable.of_start (T := printable setup "" 1 4 100000)
    (s := ⟨.new checked, .new, .new 4 100000, ∅, []⟩)
    ⟨_, ⟨[0, 3, 115, 117, 109, 0, 1, 0, 128], 1, checked, setup_checked.1, setup_checked.2.1,
      setup_checked.2.2, rfl⟩, rfl⟩
  have h := child_reachable h .connected _ rfl trivial ⟨rfl, rfl⟩
  have h := child_reachable h (.greet accepts) _ rfl trivial rfl
  have h := server_reachable h .hello trivial ⟨rfl, _, _, rfl⟩
  have h := server_reachable h (.greet 11) trivial ⟨_, _, rfl, by decide, by decide⟩
  have h : (printable setup "" 1 4 100000).Reachable welcomed :=
    h.step (l := Op.welcome) ⟨trivial, rfl, Finset.notMem_empty 1, rfl⟩
  have h := child_reachable h (.data [129, 0, 0, 0, 1, 0, 1]) _ rfl trivial ⟨by decide, Nat.le_of_ble_eq_true rfl⟩
  have h := child_reachable h .opened _ rfl trivial ⟨0, none, rfl, resolved.1⟩
  exact h.step (l := Op.service (.announce accepts)) ⟨trivial, _, _, rfl,
    ⟨rfl, [0, 3, 115, 117, 109, 0, 1, 0, 128], _, setup_checked.1, calls h ⟨rfl, by decide⟩, rfl⟩, rfl⟩

theorem registered_reachable : (printable setup "" 1 4 100000).Reachable registered := by
  have h := takes_reachable announced_reachable ⟨6, 2, [0, 3, 115, 117, 109, 0, 1, 0, 128]⟩ rfl rfl rfl rfl
  exact h.step (l := Op.register 1) ⟨trivial, "sum", 1, 128,
    ⟨⟨2, 6, .register "sum" 1 128, none⟩, rfl, rfl, rfl⟩, rfl⟩

theorem served_reachable : (printable setup "" 1 4 100000).Reachable served := by
  have h := answers_reachable registered_reachable 1
    ⟨2, 6, .register "sum" 1 128, some ⟨1, 134, 2, [], true, false⟩⟩ rfl rfl rfl rfl (by decide)
  have h := child_reachable h (.data [134, 0, 0, 0, 2]) []
    (show Client.decode _ = _ from rfl) trivial ⟨by decide, Nat.le_of_ble_eq_true rfl⟩
  exact h.step (l := Op.service .serve) ⟨trivial, _, _, rfl, ⟨1, none, 1, rfl,
    resolved.2.1, rfl, setup_checked.2.1, rfl⟩, rfl⟩

theorem asked_reachable : (printable setup "" 1 4 100000).Reachable asked := by
  have h := served_reachable.step (l := Op.service (.take 0 accepts)) ⟨trivial, _, _, rfl, ⟨rfl, _,
    calls served_reachable ⟨rfl, by decide⟩, rfl⟩, rfl⟩
  have h := takes_reachable h ⟨8, 3, [0, 0, 3, 232]⟩ rfl rfl rfl rfl
  exact h.step (l := Op.takeStart 2) ⟨trivial, 1000, ⟨⟨3, 8, .take 1000, none⟩, rfl, rfl, rfl⟩, rfl, rfl⟩

theorem polled_reachable : (printable setup "" 1 4 100000).Reachable polled := by
  have h := asked_reachable.step (l := Op.others (.connected 2))
    ⟨trivial, nofun, (by decide : (2 : Nat) ∉ asked.sys.everConnected), rfl⟩
  have h : (printable setup "" 1 4 100000).Reachable requested :=
    h.step (l := Op.others (.request 2 "sum" 5 [7] 0 0)) ⟨trivial, ⟨by decide, by decide⟩, trivial, rfl⟩
  have h : (printable setup "" 1 4 100000).Reachable enabled := h.step (l := Op.enable 2)
    ⟨trivial, 0, rfl, (rfl : (requested.sys.takes.lookup 0).any fun take => take.phase = .looping), rfl⟩
  exact h.step (l := Op.tryTake 2 1000 2000) ⟨trivial, 0, rfl,
    (rfl : (enabled.sys.takes.lookup 0).any fun take => take.phase = .armed), rfl⟩

theorem busy_reachable : (printable setup "" 1 4 100000).Reachable busy := by
  have h : (printable setup "" 1 4 100000).Reachable taken :=
    polled_reachable.step (l := Op.takeEnd 2) ⟨trivial, 0, .ok (some job), rfl,
      (rfl : (polled.sys.takes.lookup 0).isSome), rfl⟩
  have h := answers_reachable h 2
    ⟨3, 8, .take 1000, some ⟨2, 136, 3, job.encode, true, false⟩⟩ rfl rfl rfl rfl (by decide)
  have h := child_reachable h (.data [136, 0, 0, 0, 3, 1, 0, 0, 0, 0, 0, 0, 0, 1, 0, 0, 0, 5, 0, 0, 0, 1, 7]) []
    (show Client.decode _ = _ from rfl) trivial ⟨by decide, Nat.le_of_ble_eq_true rfl⟩
  exact h.step (l := Op.service (.taken 0)) ⟨trivial, _, _, rfl, ⟨2, .resolved (some job), rfl,
    resolved.2.2, rfl⟩, rfl⟩

/-- The handler has thrown an object without a prototype. -/
def lost : State :=
  (busy.deliver (busy.service.setSlot 0 (.threw (.escaped Service.Sample.unconvertible))) busy.server.output).deliver
    (((busy.service.setSlot 0 (.threw (.escaped Service.Sample.unconvertible))).stop
      (.escaped Service.Sample.unconvertible)).setSlot 0 .returned) busy.server.output

end Sample

end VeloBus.Station
