import VeloBus.LinkFlow
import VeloBus.StationBench
import VeloBus.StationTakes

/-! A worker whose connection is up: both sides and the bytes between them agree on where its calls are. -/

namespace VeloBus.Station

open Link (Flow)

namespace Desk

/-- A request that the loop has not taken. Before HELLO was read there is nothing else. -/
def Awaits (d : Desk) (server : Connection.State) (frame : Frame) : Prop :=
  d.Asks frame ∧ (server.loop = .hello → frame.opcode = 1)

variable {d d' : Desk} {moved : Option Place} {link : Link.State (Option Rpc.Job)} {server : Connection.State}
  {queued upstream responses : List Frame} {lost : Bytes}

/-- What moves is with neither a request nor a response in flight. -/
theorem flow_keeps (hk : d.Keeps d' moved) (h : Flow (d.Awaits server) d.Tells link queued upstream responses lost)
    (hrequests : ∀ frame ∈ queued ++ (link.server.arrived ++ upstream), some (.complete frame.requestId) ≠ moved)
    (hresponses : ∀ frame ∈ responses, some (.answer frame.requestId) ≠ moved) :
    Flow (d'.Awaits server) d'.Tells link queued upstream responses lost := { h with
  tickets := h.tickets.imp (fun frame hmem hawaits => hawaits.imp_left (hk.asks (hrequests frame hmem)))
    fun frame hmem _ htells => hk.tells (hresponses frame hmem) htells }

/-- What moves is with a request the connection has. -/
theorem flow_owed (hk : d.Keeps d' moved) (h : Flow (d.Awaits server) d.Tells link queued upstream responses lost)
    (hmoved : ∀ place, moved = some place → ∃ request ∈ link.server.ids, place = .complete request) :
    Flow (d'.Awaits server) d'.Tells link queued upstream responses lost := by
  apply flow_keeps hk h
  · intro frame hmem heq
    obtain ⟨request, hrequest, hplace⟩ := hmoved _ heq.symm
    rw [← Place.complete.inj hplace] at hrequest
    exact h.tickets.apart frame (List.mem_append_left _ hmem) hrequest
  · intro frame _ heq
    obtain ⟨request, -, hplace⟩ := hmoved _ heq.symm
    cases hplace

end Desk

namespace State

def desk (worker concurrency : Nat) (bearer : Nat → Place) (s : State) : Desk :=
  ⟨worker, concurrency, s.sys, bearer, s.service.log⟩

/-- What holds while the connection is up. -/
structure Up (token : String) (worker concurrency : Nat) (bearer : Nat → Place) (s : State) : Prop where
  server : s.server.Inv token
  orderly : s.server.Orderly
  bench : (s.desk worker concurrency bearer).Bench s.service
  counter : (s.desk worker concurrency bearer).Counter s.server s.takes
  flow : ∃ queued upstream responses lost, Flow ((s.desk worker concurrency bearer).Awaits s.server)
    (s.desk worker concurrency bearer).Tells s.link queued upstream responses lost
  young : s.server.loop = .hello → s.server.output = [] ∧ s.service.child.stage ≠ .opened ∧
    ∀ promise value, (promise, .resolved value) ∉ s.service.child.settled

variable {s t : State} {token : String} {worker concurrency : Nat} {bearer bearer' : Nat → Place}
  {moved : Option Place}

theorem Up.ids (h : s.Up token worker concurrency bearer) (id : Nat) :
    id ∈ s.server.ids ↔ ∃ index frame, s.server.Owes index frame ∧ frame.requestId = id :=
  h.server.ids h.orderly.duplicates id

/-- The connection has no more requests than the service has slots. -/
theorem Up.ids_card (h : s.Up token worker concurrency bearer)
    (hlimit : s.service.child.settings.maxPendingRequests = concurrency) : s.server.ids.card ≤ concurrency := by
  obtain ⟨queued, upstream, responses, lost, hflow⟩ := h.flow
  rw [← hlimit]
  exact (Nat.le_add_left _ _).trans hflow.tickets.room

/-! ### Steps of the broker -/

/-- What the loop is about to take. -/
theorem Up.meets (h : s.Up token worker concurrency bearer)
    (hlimit : s.service.child.settings.maxPendingRequests ≤ Connection.maxInFlight) {connection : Nat}
    {op : Connection.Op} (hop : s.server.Enabled connection op) {frame : Frame} (hmeets : s.server.Meets frame op) :
    (s.desk worker concurrency bearer).Awaits s.server frame ∧ frame.Legal ∧ frame.requestId ∉ s.server.ids ∧
      s.server.ids.card < Connection.maxInFlight := by
  obtain ⟨queued, upstream, responses, lost, hflow⟩ := h.flow
  exact hflow.meets h.server hlimit hop hmeets

/-- The connection takes a step, and the scheduler with it. -/
theorem Up.serve (h : s.Up token worker concurrency bearer)
    (hlimit : s.service.child.settings.maxPendingRequests ≤ Connection.maxInFlight)
    (hk : (s.desk worker concurrency bearer).Keeps (t.desk worker concurrency bearer') moved)
    (hmoved : ∀ place, moved = some place → ∃ request ∈ s.server.ids, place = .complete request)
    {connection : Nat} {op : Connection.Op} (hlocal : ∀ bytes, op ≠ .receive bytes)
    (hop : s.server.Enabled connection op)
    (hanswers : op = .take → ∀ response frame, s.server.responses = some response →
      s.server.Owes response.frame frame → (t.desk worker concurrency bearer').Tells frame.opcode response.answer)
    (hservice : t.service = s.service) (hserver : t.server = s.server.next token op)
    (hcounter : (t.desk worker concurrency bearer').Counter (s.server.next token op) t.takes) :
    t.Up token worker concurrency bearer' := by
  obtain ⟨queued, upstream, responses, lost, hflow⟩ := h.flow
  have hmeets := fun frame (hmeets : s.server.Meets frame op) => h.meets hlimit hop hmeets
  have hbefore := Desk.flow_owed hk hflow hmoved
  obtain ⟨queued', upstream', responses', lost', hafter⟩ := hbefore.server_step h.server h.orderly hlimit hlocal hop
    (fun hhello frame hmeet response => by
      have hloop : s.server.loop = .hello := by
        rw [hhello] at hop
        exact hop.1
      rw [(hmeets frame hmeet).1.2 hloop]
      exact Desk.tells_other (by decide) (by decide) (by decide)) hanswers
  exact {
    server := by
      rw [hserver]
      exact h.server.step hop
    orderly := by
      rw [hserver]
      exact h.orderly.step h.server hop fun frame hmeet => (hmeets frame hmeet).2
    bench := by
      rw [hservice]
      apply h.bench.keeps hk
      · intro promise heq
        obtain ⟨request, -, hplace⟩ := hmoved _ heq.symm
        cases hplace
      · intro i heq
        obtain ⟨request, -, hplace⟩ := hmoved _ heq.symm
        cases hplace
    counter := by
      rw [hserver]
      exact hcounter
    flow := by
      refine ⟨queued', upstream', responses', lost', ?_⟩
      unfold State.link
      rw [hservice, hserver]
      exact { hafter with
        tickets := hafter.tickets.imp
          (fun frame _ hawaits => ⟨hawaits.1, fun hhello => hawaits.2 (h.orderly.hello_next hop hlocal hhello).1⟩)
          fun _ _ _ htells => htells }
    young := by
      rw [hservice, hserver]
      intro hhello
      obtain ⟨hloop, houtput⟩ := h.orderly.hello_next hop hlocal hhello
      rw [houtput]
      exact h.young hloop }

/-- Only the scheduler takes a step. -/
theorem Up.turn (h : s.Up token worker concurrency bearer)
    (hk : (s.desk worker concurrency bearer).Keeps (t.desk worker concurrency bearer') none)
    (hservice : t.service = s.service) (hserver : t.server = s.server)
    (hcounter : (t.desk worker concurrency bearer').Counter s.server t.takes) :
    t.Up token worker concurrency bearer' := by
  obtain ⟨queued, upstream, responses, lost, hflow⟩ := h.flow
  have hafter := Desk.flow_owed hk hflow nofun
  exact {
    server := hserver ▸ h.server
    orderly := hserver ▸ h.orderly
    bench := by
      rw [hservice]
      exact h.bench.keeps hk nofun nofun
    counter := by
      rw [hserver]
      exact hcounter
    flow := by
      refine ⟨queued, upstream, responses, lost, ?_⟩
      unfold State.link
      rw [hservice, hserver]
      exact hafter
    young := by
      rw [hservice, hserver]
      exact h.young }

/-! ### Steps of the service -/

/-- The service takes a step, and may add to its log. -/
theorem Up.attend_log (h : s.Up token worker concurrency bearer) {service : Service.State} {rest : Bytes}
    {log : List Service.Entry} (hlog : log ⊆ service.log)
    (hk : (s.desk worker concurrency bearer).Keeps { s.desk worker concurrency bearer' with log := log } moved)
    (haway : Desk.Away s.server moved)
    (hbench : Desk.Bench { s.desk worker concurrency bearer' with log := log } service)
    (hflow : ∃ queued upstream responses lost,
      Flow (Desk.Awaits { s.desk worker concurrency bearer' with log := log } s.server)
      (Desk.Tells { s.desk worker concurrency bearer' with log := log })
      (Link.State.deliver service.child ⟨s.service.child, { s.server with output := rest }⟩) queued upstream
      responses lost)
    (hyoung : s.server.loop = .hello → rest = [] ∧ service.child.stage ≠ .opened ∧
      ∀ promise value, (promise, .resolved value) ∉ service.child.settled) :
    (s.deliver service rest).Up token worker concurrency bearer' := by
  have hserver := h.server
  have hmore : Desk.Keeps { s.desk worker concurrency bearer' with log := log }
      ((s.deliver service rest).desk worker concurrency bearer') none := Desk.keeps_log _ hlog
  have hcounter := (h.counter.keeps hk (fun _ => Iff.rfl) hserver h.orderly.duplicates haway).keeps hmore
    (fun _ => Iff.rfl) hserver h.orderly.duplicates fun _ _ => ⟨nofun, nofun⟩
  obtain ⟨queued, upstream, responses, lost, hflow⟩ := hflow
  have hafter := Desk.flow_owed hmore hflow nofun
  exact {
    server := { hserver with }
    orderly := { h.orderly with }
    bench := hbench.keeps hmore nofun nofun
    counter := hcounter.of_same rfl (fun _ hresponse => hresponse) (fun _ _ hloop => hloop) rfl rfl rfl rfl
    flow := ⟨queued, upstream, responses, lost, hafter⟩
    young := hyoung }

theorem Up.attend (h : s.Up token worker concurrency bearer) {service : Service.State} {rest : Bytes}
    (hlog : s.service.log ⊆ service.log)
    (hk : (s.desk worker concurrency bearer).Keeps (s.desk worker concurrency bearer') moved)
    (haway : Desk.Away s.server moved) (hbench : (s.desk worker concurrency bearer').Bench service)
    (hflow : ∃ queued upstream responses lost, Flow ((s.desk worker concurrency bearer').Awaits s.server)
      (s.desk worker concurrency bearer').Tells
      (Link.State.deliver service.child ⟨s.service.child, { s.server with output := rest }⟩) queued upstream
      responses lost)
    (hyoung : s.server.loop = .hello → rest = [] ∧ service.child.stage ≠ .opened ∧
      ∀ promise value, (promise, .resolved value) ∉ service.child.settled) :
    (s.deliver service rest).Up token worker concurrency bearer' :=
  h.attend_log hlog hk haway hbench hflow hyoung

end State

end VeloBus.Station
