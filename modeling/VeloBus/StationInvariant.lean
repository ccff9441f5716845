import VeloBus.ConnectionTasks
import VeloBus.LinkCapacity
import VeloBus.StationRounds

/-! Every step of a service, its connection and the scheduler keeps what holds while the connection is up. -/

namespace VeloBus.Station

namespace State

variable {s t : State} {token : String} {worker connection n : Nat} {bearer : Nat → Place} {index : Nat}
  {setup : Service.Setup}

/-! ### The broker -/

/-- The scheduler takes a step that is not the worker's. -/
theorem Up.scheduler (h : s.Up token worker n bearer) {op : Rpc.Op}
    (hk : (s.desk worker n bearer).Keeps { s.desk worker n bearer with sys := s.sys.next op } none)
    (htakes : ∀ take, (s.sys.next op).Takes worker take ↔ s.sys.Takes worker take) :
    ({ s with sys := s.sys.next op }).Up token worker n bearer := by
  apply h.turn (t := { s with sys := s.sys.next op }) hk rfl rfl
  exact h.counter.keeps hk htakes h.server h.orderly.duplicates fun _ _ => ⟨nofun, nofun⟩

/-- A step of the connection that leaves the scheduler alone. -/
theorem Up.server_step (h : s.Up token worker n bearer) (hlimit : s.service.child.settings.maxPendingRequests = n)
    (hn : n ≤ Connection.maxInFlight) {op : Connection.Op} (hlocal : ∀ bytes, op ≠ .receive bytes)
    (hends : ∀ index result task, op = .finish index result ∨ op = .panic index →
      s.server.tasks.lookup index = some task → task.response = none → ¬Scheduled task.request)
    (haborts : ∀ index, op ≠ .abortTask index) (hop : s.server.Enabled connection op)
    (hup : (s.server.next token op).loop ≠ .returned) :
    ({ s with server := s.server.next token op }).Up token worker n bearer := by
  have hroom : s.service.child.settings.maxPendingRequests ≤ Connection.maxInFlight := hlimit.trans_le hn
  have hcounter : (s.desk worker n bearer).Counter (s.server.next token op) s.takes := by
    apply h.counter.server_step h.server h.orderly.duplicates hop hlocal hends haborts _ hup
    intro frame hmeets
    obtain ⟨⟨hasks, hfirst⟩, -, hfree, hcard⟩ := h.meets hroom hop hmeets
    refine ⟨hasks, fun heq => ?_, hfree, fun heq => ?_⟩
    · rw [heq] at hop
      exact hfirst hop.1
    · rw [heq] at hop
      exact h.orderly.permit hop.1 hcard
  apply h.serve (t := { s with server := s.server.next token op }) hroom (.refl _) nofun hlocal hop _ rfl rfl hcounter
  intro _ response frame hresponse howes
  exact h.counter.queued response hresponse frame howes

theorem Up.welcome (h : s.Up token worker n bearer) (hlimit : s.service.child.settings.maxPendingRequests = n)
    (hn : n ≤ Connection.maxInFlight) (hsound : s.sys.Sound) (hloop : s.server.loop = .greeting [] true) :
    ({ s with server := s.server.next token .greeted, sys := s.sys.next (.connected worker) }).Up token worker n
      bearer := by
  have hconnected : ({ s with sys := s.sys.next (.connected worker) }).Up token worker n bearer := by
    apply h.scheduler
    · exact Desk.keeps_next _ hsound nofun fun _ hfinishes => hfinishes.elim
    · exact Rpc.Sys.takes_next nofun nofun hsound
  have hup : (s.server.next token .greeted).loop ≠ .returned := by
    unfold Connection.State.next
    rw [hloop]
    exact nofun
  have hop : s.server.Enabled worker .greeted := ⟨true, hloop⟩
  exact hconnected.server_step hlimit hn nofun (fun _ _ _ heq => by rcases heq with heq | heq <;> cases heq)
    nofun hop hup

/-- The end of a task with no error of TAKE or COMPLETE. -/
theorem Up.conclude (h : s.Up token worker n bearer) (hlimit : s.service.child.settings.maxPendingRequests = n)
    (hn : n ≤ Connection.maxInFlight) {moved : Option Place} {op : Rpc.Op}
    (hk : (s.desk worker n bearer).Keeps { s.desk worker n bearer with sys := s.sys.next op } moved)
    (hmoved : ∀ place, moved = some place → ∃ request ∈ s.server.ids, place = .complete request)
    {result : Except Error Bytes} (hop : s.server.Enabled worker (.finish index result)) {takes : Table Nat Progress}
    (hcounter : Desk.Counter { s.desk worker n bearer with sys := s.sys.next op }
      (s.server.next token (.finish index result)) takes) (completed : List Completion) :
    ({ s with
      server := s.server.next token (.finish index result)
      sys := s.sys.next op
      takes := takes
      completed := completed }).Up token worker n bearer := by
  have hlocal : ∀ bytes, Connection.Op.finish index result ≠ .receive bytes := nofun
  refine h.serve (t := { s with
    server := s.server.next token (.finish index result)
    sys := s.sys.next op
    takes := takes
    completed := completed }) (hlimit.trans_le hn) hk hmoved hlocal hop ?_ rfl rfl hcounter
  nofun

/-! ### The operations of the worker -/

/-- A task may end with a result. -/
theorem finish_ok {server : Connection.State} {task : Connection.Task} (htask : server.tasks.lookup index = some task)
    (hnone : task.response = none) (body : Bytes) : server.Enabled connection (.finish index (.ok body)) :=
  ⟨task, htask, hnone, nofun⟩

theorem Up.register (h : s.Up token worker n bearer) (hlimit : s.service.child.settings.maxPendingRequests = n)
    (hn : n ≤ Connection.maxInFlight) (hsound : s.sys.Sound) {route : String} {concurrency queueLimit : Nat}
    (hserves : s.Serves index (.register route concurrency queueLimit)) :
    (s.conclude token index ((s.sys.rpc.register worker route concurrency queueLimit).2.map fun _ => [])
      (s.sys.next (.register worker route concurrency queueLimit))).Up token worker n bearer := by
  obtain ⟨task, htask, hnone, hrequest⟩ := hserves
  have hk : (s.desk worker n bearer).Keeps { s.desk worker n bearer with
      sys := s.sys.next (.register worker route concurrency queueLimit) } none :=
    Desk.keeps_next _ hsound nofun fun _ hfinishes => hfinishes.elim
  rcases Desk.register_exit s.sys.rpc worker route concurrency queueLimit with hexit | ⟨error, hexit⟩
  · rw [hexit]
    have hcounter : Desk.Counter { s.desk worker n bearer with
        sys := s.sys.next (.register worker route concurrency queueLimit) }
        (s.server.next token (.finish index (.ok []))) s.takes :=
      h.counter.register hsound h.server h.orderly.duplicates htask hnone hrequest fun _ _ => hexit
    exact h.conclude hlimit hn hk nofun (finish_ok htask hnone []) hcounter s.completed
  · rw [hexit]
    have hcounter : Desk.Counter { s.desk worker n bearer with
        sys := s.sys.next (.register worker route concurrency queueLimit) }
        (s.server.next token (.finish index (.error error))) s.takes :=
      h.counter.register hsound h.server h.orderly.duplicates htask hnone hrequest nofun
    refine h.conclude hlimit hn hk nofun ⟨task, htask, hnone, fun error' herror => ?_⟩ hcounter s.completed
    rw [hrequest, ← Except.error.inj herror]
    exact ⟨s.sys.rpc, hexit⟩

theorem Up.takeStart (h : s.Up token worker n bearer) (hlimit : s.service.child.settings.maxPendingRequests = n)
    (hsound : s.sys.Sound) {waitMs : Nat} (hserves : s.Serves index (.take waitMs))
    (hfree : s.takes.lookup index = none) :
    (s.start token index (s.sys.next (.takeStart worker)) (s.sys.rpc.takeStart worker).2).Up token worker n bearer := by
  obtain ⟨task, htask, hnone, hrequest⟩ := hserves
  have hok : (s.sys.rpc.takeStart worker).2 = .ok () :=
    h.counter.takeStart_ok hsound h.server h.orderly.duplicates (h.ids_card hlimit) htask hnone hrequest hfree
  have hk : (s.desk worker n bearer).Keeps { s.desk worker n bearer with sys := s.sys.next (.takeStart worker) } none :=
    Desk.keeps_next _ hsound nofun fun _ hfinishes => hfinishes.elim
  rw [hok]
  apply h.turn (t := { s with
    sys := s.sys.next (.takeStart worker)
    takes := s.takes.insert index (.taking s.sys.nextTake) }) hk rfl rfl
  exact h.counter.takeStart hsound hok h.server h.orderly.duplicates htask hnone hrequest hfree

/-- A step of a `take` that brings no job. -/
theorem Up.advance (h : s.Up token worker n bearer) (hsound : s.sys.Sound) {take : Nat}
    (hlookup : s.takes.lookup index = some (.taking take)) {op : Rpc.Op} {progress : Progress}
    (hdisconnect : op ≠ .disconnect worker) (hfinishes : ∀ id, ¬op.Finishes worker id)
    (hstart : op ≠ .takeStart worker) (hend : ∀ take, op ≠ .takeEnd take)
    (hprogress : progress = .taking take ∨ progress = .taken take (.ok none)) :
    ({ s with sys := s.sys.next op, takes := s.takes.insert index progress }).Up token worker n bearer := by
  have hk : (s.desk worker n bearer).Keeps { s.desk worker n bearer with sys := s.sys.next op } none :=
    Desk.keeps_next _ hsound hdisconnect fun id hop => absurd hop (hfinishes id)
  apply h.turn (t := { s with sys := s.sys.next op, takes := s.takes.insert index progress }) hk rfl rfl
  apply h.counter.advance hk (Rpc.Sys.takes_next hstart (fun take heq => absurd heq (hend take)) hsound) h.server
    h.orderly.duplicates hlookup
  · obtain rfl | rfl := hprogress <;> rfl
  · intro task _ take' exit heq
    obtain rfl | rfl := hprogress
    · cases heq
    · obtain ⟨rfl, rfl⟩ := Progress.taken.inj heq
      exact ⟨none, rfl, nofun⟩

/-- A pass of `try_take` may bring a job, which is with the TAKE from then on. -/
theorem Up.tryTake (h : s.Up token worker n bearer) (hsound : s.sys.Sound) (hrecorded : s.sys.Recorded)
    (hwired : s.sys.Wired) {take : Nat} (hlookup : s.takes.lookup index = some (.taking take)) (expiredAt now : Nat) :
    ∃ bearer', ({ s with
      sys := s.sys.next (.tryTake take expiredAt now)
      takes := s.takes.insert index (Progress.afterPoll take (s.sys.rpc.tryTake worker expiredAt now).2) }).Up token
        worker n bearer' := by
  obtain ⟨⟨live, hlive, hworker⟩, task, waitMs, htask, hnone, hrequest⟩ := h.counter.serves index _ hlookup
  have hworker' : live.worker = worker := hworker
  have henlisted := ((h.counter.tasks index task htask).take hnone waitMs hrequest).1
  have hcases := Rpc.Sys.tryTake_ok hsound hlive (hworker'.symm ▸ henlisted) expiredAt now
  rw [hworker'] at hcases
  obtain hexit | hexit | ⟨job, hexit, hruns, hnew⟩ := hcases
  · rw [hexit]
    exact ⟨bearer, h.advance hsound hlookup nofun (fun _ => id) nofun nofun (Or.inl rfl)⟩
  · rw [hexit]
    exact ⟨bearer, h.advance hsound hlookup nofun (fun _ => id) nofun nofun (Or.inl rfl)⟩
  · let bearer' := Function.update bearer job.callId (.answer task.requestId)
    have hk : (s.desk worker n bearer).Keeps { s.desk worker n bearer' with
        sys := s.sys.next (.tryTake take expiredAt now) } none :=
      (Desk.keeps_new _ hsound hnew _).trans (Desk.keeps_next _ hsound nofun fun _ hfinishes => hfinishes.elim)
    rw [hexit]
    refine ⟨bearer', h.turn (t := { s with
      sys := s.sys.next (.tryTake take expiredAt now)
      takes := s.takes.insert index (.taken take (.ok (some job))) }) hk rfl rfl ?_⟩
    apply h.counter.advance hk (Rpc.Sys.takes_next nofun nofun hsound) h.server h.orderly.duplicates hlookup rfl
    intro task' htask' take' exit heq
    obtain rfl := Option.some.inj (htask.symm.trans htask')
    obtain ⟨rfl, rfl⟩ := Progress.taken.inj heq
    refine ⟨some job, rfl, fun job' hjob => ?_⟩
    obtain rfl := Option.some.inj hjob
    refine ⟨Rpc.Sys.tryTake_legal hsound hrecorded hwired hexit, ?_, hruns, Function.update_self _ _ _⟩
    obtain ⟨dispatch, hmem, hto, hsame⟩ := Rpc.Sys.tryTake_handed hlive (hworker'.symm ▸ hexit)
    exact ⟨dispatch, hmem, hto.trans hworker', hsame⟩

theorem Up.takeEnd (h : s.Up token worker n bearer) (hlimit : s.service.child.settings.maxPendingRequests = n)
    (hn : n ≤ Connection.maxInFlight) (hsound : s.sys.Sound) {take : Nat} {exit : Rpc.Exit (Option Rpc.Job)}
    (hlookup : s.takes.lookup index = some (.taken take exit)) :
    ({ s.conclude token index (exit.map Rpc.encodeTaken) (s.sys.next (.takeEnd take)) with
      takes := s.takes.erase index }).Up token worker n bearer := by
  obtain ⟨-, task, waitMs, htask, hnone, -⟩ := h.counter.serves index _ hlookup
  obtain ⟨taken, rfl, hcounter⟩ := h.counter.takeEnd hsound h.server h.orderly.duplicates hlookup
  have hk : (s.desk worker n bearer).Keeps { s.desk worker n bearer with sys := s.sys.next (.takeEnd take) } none :=
    Desk.keeps_next _ hsound nofun fun _ hfinishes => hfinishes.elim
  exact h.conclude hlimit hn hk nofun (finish_ok htask hnone _) hcounter s.completed

theorem Up.complete (h : s.Up token worker n bearer) (hlimit : s.service.child.settings.maxPendingRequests = n)
    (hn : n ≤ Connection.maxInFlight) (hsound : s.sys.Sound) {id now : Nat} {failed : Bool} {payload : Bytes}
    (hserves : s.Serves index (.complete id failed payload)) (completed : List Completion) :
    ({ s.conclude token index ((s.sys.rpc.complete worker id failed payload now).2.map fun _ => [])
        (s.sys.next (.complete worker id failed payload now)) with completed := completed }).Up token worker n
        bearer := by
  obtain ⟨task, htask, hnone, hrequest⟩ := hserves
  obtain ⟨hok, hk, hcounter⟩ : (s.sys.rpc.complete worker id failed payload now).2 = .ok () ∧ _ ∧ _ :=
    h.counter.complete hsound h.server h.orderly.duplicates htask hnone hrequest
  rw [hok]
  refine h.conclude hlimit hn hk (fun place heq => ?_) (finish_ok htask hnone []) hcounter completed
  exact ⟨task.requestId, h.server.task_id h.orderly.duplicates htask, (Option.some.inj heq).symm⟩

/-! ### The service -/

/-- A step of the service's connection. -/
theorem Up.child (h : s.Up token worker n bearer) (hinv : s.service.Inv n) {op : Client.Op (Option Rpc.Job)}
    (hambient : Service.Ambient op) {child : Client.State (Option Rpc.Job)} (hcalls : s.service.Calls op child)
    {rest : Bytes} (hreads : s.link.Reads op rest) :
    ∃ bearer', (s.deliver (s.service.follow child) rest).Up token worker n bearer' := by
  by_cases hdata : ∃ frame, op = .data frame
  · obtain ⟨frame, rfl⟩ := hdata
    obtain ⟨hop, hnext⟩ := hcalls
    obtain rfl := Option.some.inj hnext
    exact h.data hinv hop hreads
  · by_cases hframed : op = .misframed
    · rw [hframed] at hreads
      obtain ⟨queued, upstream, responses, lost, hflow⟩ := h.flow
      exact absurd hreads.1 hflow.framed
    · exact ⟨bearer, h.ambient hinv hambient (fun frame heq => hdata ⟨frame, heq⟩) hframed hcalls hreads⟩

theorem Up.service_step (h : s.Up token worker n bearer) (hinv : s.service.Inv n) (hn : setup.concurrency = .ok n)
    (hsound : s.sys.Sound) {op : Service.Op} (hop : op.Printable) {rest : Bytes} {service : Service.State}
    (hreads : s.Reads op rest) (hstep : s.service.Step setup op service) :
    ∃ bearer', (s.deliver service rest).Up token worker n bearer' := by
  cases op with
  | child op =>
      obtain ⟨hambient, child, hcalls, rfl⟩ := hstep
      exact h.child hinv hambient hcalls hreads
  | announce socket =>
      obtain rfl : rest = s.server.output := hreads
      obtain ⟨-, registration, child, hhandle, hcalls, rfl⟩ := hstep
      exact ⟨bearer, h.announce hinv hn hhandle hcalls⟩
  | serve =>
      obtain rfl : rest = s.server.output := hreads
      obtain ⟨promise, value, concurrency, hphase, hsettled, hopen, hconcurrency, rfl⟩ := hstep
      obtain rfl := Except.ok.inj (hn.symm.trans hconcurrency)
      exact ⟨bearer, h.serve_slots hphase hsettled hopen⟩
  | abandon =>
      obtain rfl : rest = s.server.output := hreads
      obtain ⟨-, rfl⟩ := hstep
      exact ⟨bearer, h.abandon hinv⟩
  | close =>
      obtain rfl : rest = s.server.output := hreads
      obtain rfl : service = _ := hstep
      exact ⟨bearer, h.close hinv⟩
  | onFailure slot =>
      obtain rfl : rest = s.server.output := hreads
      obtain ⟨cause, hslot, rfl⟩ := hstep
      exact ⟨bearer, h.onFailure hslot⟩
  | take slot socket =>
      obtain rfl : rest = s.server.output := hreads
      obtain ⟨hslot, hstep⟩ := hstep
      split_ifs at hstep
      · rw [hstep]
        exact ⟨bearer, h.returns hslot⟩
      · obtain ⟨child, hcalls, rfl⟩ := hstep
        exact ⟨bearer, h.take hinv hslot hcalls⟩
  | taken slot =>
      obtain rfl : rest = s.server.output := hreads
      obtain ⟨promise, outcome, hslot, hsettled, rfl⟩ := hstep
      exact h.taken hinv hslot hsettled
  | settle slot outcome socket =>
      obtain rfl : rest = s.server.output := hreads
      obtain ⟨job, hslot, hstep⟩ := hstep
      obtain ⟨status, payload, output, hsettle, hwritten, htells⟩ := Client.completed_of_printable hop
      rw [hsettle] at hstep
      dsimp only at hstep
      split_ifs at hstep
      · rw [hstep]
        exact ⟨bearer, h.returns hslot⟩
      · rw [hwritten] at hstep
        obtain ⟨child, hcalls, rfl⟩ := hstep
        exact h.settle hinv hsound hslot htells hcalls
  | completed slot =>
      obtain rfl : rest = s.server.output := hreads
      obtain ⟨promise, outcome, hslot, hsettled, rfl⟩ := hstep
      exact ⟨bearer, h.completed hinv hslot hsettled⟩

/-! ### The invariant -/

/-- Every completion is what the log says of a handler. -/
def Told (s : State) : Prop := ∀ completion ∈ s.completed, ∃ slot job outcome,
  .completed slot job outcome completion.failed.toNat completion.payload ∈ s.service.log ∧
    job.callId = completion.callId

/-- What holds whether the connection is up or not. -/
structure Inv (token : String) (connection n : Nat) (s : State) : Prop where
  service : s.service.Inv n
  sound : s.sys.Sound
  recorded : s.sys.Recorded
  wired : s.sys.Wired
  sourced : s.sys.Sourced
  ordered : s.sys.Ordered
  once : (s.completed.map Completion.callId).Nodup
  gone : ∀ completion ∈ s.completed, s.sys.Over completion.callId
  up : s.server.loop ≠ .returned → s.sys.Rated connection n ∧ s.Told ∧ ∃ bearer, s.Up token connection n bearer

theorem conclude_loop (exit : Rpc.Exit Bytes) (sys : Rpc.Sys) :
    (s.conclude token index exit sys).server.loop = s.server.loop := by
  cases exit with
  | ok body => rfl
  | error error => rfl
  | panicked =>
      simp only [conclude, ended, Connection.State.next, Connection.State.dropTask]
      split_ifs <;> rfl

/-- What a step can do to the parts, one at a time. -/
structure Passes (setup : Service.Setup) (connection : Nat) (op : Op) (s t : State) : Prop where
  /-- Only the service changes the service. -/
  service : t.service = s.service ∨ ∃ op', op = .service op' ∧ s.service.Step setup op' t.service
  sys : t.sys = s.sys ∨ ∃ op', s.sys.Enabled op' ∧ op'.Fits ∧ t.sys = s.sys.next op' ∧
    ∀ route concurrency queueLimit, op' = .register connection route concurrency queueLimit →
      ∃ index, s.Serves index (.register route concurrency queueLimit)
  /-- A call is added to the completed ones when a COMPLETE ends it. -/
  completed : t.completed = s.completed ∨ ∃ index id failed payload now,
    s.Serves index (.complete id failed payload) ∧ (s.sys.rpc.complete connection id failed payload now).2 = .ok () ∧
      t.completed = s.completed ++ [⟨id, failed, payload⟩] ∧
        t.sys = s.sys.next (.complete connection id failed payload now)
  /-- A connection that is down stays down. -/
  returned : s.server.loop = .returned → t.server.loop = .returned

theorem Step.passes {op : Op} (h : s.Step setup token connection op t) : s.Passes setup connection op t := by
  cases op with
  | service op =>
      obtain ⟨rest, service, -, hstep, rfl⟩ := h
      exact ⟨Or.inr ⟨op, rfl, hstep⟩, Or.inl rfl, Or.inl rfl, id⟩
  | server op =>
      obtain ⟨-, hop, rfl⟩ := h
      exact ⟨Or.inl rfl, Or.inl rfl, Or.inl rfl, Connection.State.returned_next hop⟩
  | welcome =>
      obtain ⟨hloop, henabled, rfl⟩ := h
      refine ⟨Or.inl rfl, Or.inr ⟨_, henabled, trivial, rfl, nofun⟩, Or.inl rfl, fun hreturned => ?_⟩
      rw [hloop] at hreturned
      cases hreturned
  | register index =>
      obtain ⟨route, concurrency, queueLimit, hserves, rfl⟩ := h
      refine ⟨Or.inl rfl, Or.inr ⟨.register connection route concurrency queueLimit, trivial, trivial, rfl, ?_⟩,
        Or.inl rfl, (conclude_loop _ _).trans⟩
      intro route' concurrency' queueLimit' heq
      obtain ⟨-, rfl, rfl, rfl⟩ := Rpc.Op.register.inj heq
      exact ⟨index, hserves⟩
  | takeStart index =>
      obtain ⟨waitMs, -, -, rfl⟩ := h
      have hsys : s.sys.Enabled (.takeStart connection) := trivial
      unfold start
      split
      · exact ⟨Or.inl rfl, Or.inr ⟨_, hsys, trivial, rfl, nofun⟩, Or.inl rfl, id⟩
      · exact ⟨Or.inl rfl, Or.inr ⟨_, hsys, trivial, rfl, nofun⟩, Or.inl rfl, (conclude_loop _ _).trans⟩
  | enable index =>
      obtain ⟨take, -, henabled, rfl⟩ := h
      exact ⟨Or.inl rfl, Or.inr ⟨_, henabled, trivial, rfl, nofun⟩, Or.inl rfl, id⟩
  | tryTake index expiredAt now =>
      obtain ⟨take, -, henabled, rfl⟩ := h
      exact ⟨Or.inl rfl, Or.inr ⟨_, henabled, trivial, rfl, nofun⟩, Or.inl rfl, id⟩
  | wake index =>
      obtain ⟨take, -, henabled, rfl⟩ := h
      exact ⟨Or.inl rfl, Or.inr ⟨_, henabled, trivial, rfl, nofun⟩, Or.inl rfl, id⟩
  | takeTimeout index =>
      obtain ⟨take, -, henabled, rfl⟩ := h
      exact ⟨Or.inl rfl, Or.inr ⟨_, henabled, trivial, rfl, nofun⟩, Or.inl rfl, id⟩
  | takeEnd index =>
      obtain ⟨take, exit, -, henabled, rfl⟩ := h
      refine ⟨Or.inl rfl, Or.inr ⟨_, henabled, trivial, rfl, nofun⟩, Or.inl rfl, ?_⟩
      exact (conclude_loop (exit.map Rpc.encodeTaken) (s.sys.next (.takeEnd take))).trans
  | complete index now =>
      obtain ⟨id, failed, payload, hserves, rfl⟩ := h
      refine ⟨Or.inl rfl, Or.inr ⟨.complete connection id failed payload now, trivial, trivial, rfl, nofun⟩, ?_,
        (conclude_loop _ (s.sys.next (.complete connection id failed payload now))).trans⟩
      dsimp only
      cases hexit : (s.sys.rpc.complete connection id failed payload now).2 with
      | ok value => exact Or.inr ⟨index, id, failed, payload, now, hserves, hexit, rfl, rfl⟩
      | error error => exact Or.inl (List.append_nil _)
      | panicked => exact Or.inl (List.append_nil _)
  | abort index =>
      obtain ⟨hop, henabled, rfl⟩ := h
      refine ⟨Or.inl rfl, ?_, Or.inl rfl, Connection.State.returned_next hop⟩
      cases hlookup : s.takes.lookup index with
      | none => exact Or.inl rfl
      | some progress => exact Or.inr ⟨_, henabled progress hlookup, trivial, rfl, nofun⟩
  | disconnect =>
      obtain ⟨-, rfl⟩ := h
      exact ⟨Or.inl rfl, Or.inr ⟨.disconnect connection, trivial, trivial, rfl, nofun⟩, Or.inl rfl, id⟩
  | others op =>
      obtain ⟨hforeign, henabled, rfl⟩ := h
      refine ⟨Or.inl rfl, Or.inr ⟨op, henabled, ?_, rfl, ?_⟩, Or.inl rfl, id⟩
      · cases op with
        | request caller route timeoutMs payload expiredAt admittedAt => exact hforeign.2
        | _ => trivial
      · rintro route concurrency queueLimit rfl
        exact absurd rfl hforeign

/-- A step of a connection that stays up. -/
theorem Up.step (h : s.Up token connection n bearer) (hinv : s.Inv token connection n) (hn : setup.concurrency = .ok n)
    {op : Op} (hop : op.Printable) (hstep : s.Step setup token connection op t) (hup : t.server.loop ≠ .returned) :
    ∃ bearer', t.Up token connection n bearer' := by
  have hlimit := hinv.service.limit
  have hmax : n ≤ Connection.maxInFlight := (Client.integer_ok hn).2.2
  have hsound := hinv.sound
  cases op with
  | service op =>
      obtain ⟨rest, service, hreads, hstep, rfl⟩ := hstep
      exact h.service_step hinv.service hn hsound hop hreads hstep
  | server op =>
      obtain ⟨hapart, henabled, rfl⟩ := hstep
      refine ⟨bearer, h.server_step hlimit hmax (fun bytes heq => ?_) (fun index result task heq htask hnone => ?_)
        (fun index heq => ?_) henabled hup⟩
      · rw [heq] at hapart
        exact hapart
      · rcases heq with heq | heq <;> rw [heq] at hapart <;> exact hapart task.request ⟨task, htask, hnone, rfl⟩
      · rw [heq] at hapart
        exact hapart
  | welcome =>
      obtain ⟨hloop, -, rfl⟩ := hstep
      exact ⟨bearer, h.welcome hlimit hmax hsound hloop⟩
  | register index =>
      obtain ⟨route, concurrency, queueLimit, hserves, rfl⟩ := hstep
      exact ⟨bearer, h.register hlimit hmax hsound hserves⟩
  | takeStart index =>
      obtain ⟨waitMs, hserves, hfree, rfl⟩ := hstep
      exact ⟨bearer, h.takeStart hlimit hsound hserves hfree⟩
  | enable index =>
      obtain ⟨take, hlookup, -, rfl⟩ := hstep
      exact ⟨bearer, h.advance hsound hlookup nofun (fun _ => id) nofun nofun (Or.inl rfl)⟩
  | tryTake index expiredAt now =>
      obtain ⟨take, hlookup, -, rfl⟩ := hstep
      exact h.tryTake hsound hinv.recorded hinv.wired hlookup expiredAt now
  | wake index =>
      obtain ⟨take, hlookup, -, rfl⟩ := hstep
      exact ⟨bearer, h.advance hsound hlookup nofun (fun _ => id) nofun nofun (Or.inl rfl)⟩
  | takeTimeout index =>
      obtain ⟨take, hlookup, -, rfl⟩ := hstep
      exact ⟨bearer, h.advance hsound hlookup nofun (fun _ => id) nofun nofun (Or.inr rfl)⟩
  | takeEnd index =>
      obtain ⟨take, exit, hlookup, -, rfl⟩ := hstep
      exact ⟨bearer, h.takeEnd hlimit hmax hsound hlookup⟩
  | complete index now =>
      obtain ⟨id, failed, payload, hserves, rfl⟩ := hstep
      exact ⟨bearer, h.complete hlimit hmax hsound hserves _⟩
  | abort index =>
      obtain ⟨hop, -, rfl⟩ := hstep
      have hreturned : s.server.loop = .returned := hop
      have hdown : (s.server.next token (.abortTask index)).loop = .returned :=
        Connection.State.returned_next hop hreturned
      exact absurd hdown hup
  | disconnect =>
      obtain ⟨hreturned, rfl⟩ := hstep
      exact absurd hreturned hup
  | others op =>
      obtain ⟨hforeign, -, rfl⟩ := hstep
      exact ⟨bearer, h.scheduler (Desk.keeps_foreign hsound hforeign) (Rpc.Sys.takes_foreign hforeign hsound)⟩

/-- The worker registers with the concurrency of its service. -/
theorem Up.rated (h : s.Up token connection n bearer) (hsound : s.sys.Sound) (hrated : s.sys.Rated connection n)
    {op : Op} (hstep : s.Step setup token connection op t) : t.sys.Rated connection n := by
  obtain heq | ⟨op', -, -, heq, hregisters⟩ := hstep.passes.sys
  · rw [heq]
    exact hrated
  · rw [heq]
    apply hrated.next hsound
    intro route concurrency queueLimit hregister
    obtain ⟨index, task, htask, hnone, hrequest⟩ := hregisters route concurrency queueLimit hregister
    exact (h.counter.tasks index task htask).register hnone route concurrency queueLimit hrequest

/-- What the scheduler takes from the worker is in the log of its service. -/
theorem Up.told (h : s.Up token connection n bearer) (htold : s.Told) {op : Op}
    (hstep : s.Step setup token connection op t) : t.Told := by
  have hlog : s.service.log ⊆ t.service.log := by
    obtain heq | ⟨op', -, hservice⟩ := hstep.passes.service
    · rw [heq]
      exact List.Subset.refl _
    · exact hservice.log
  have hbefore : ∀ completion ∈ s.completed, ∃ slot job outcome,
      .completed slot job outcome completion.failed.toNat completion.payload ∈ t.service.log ∧
        job.callId = completion.callId := by
    intro completion hmem
    obtain ⟨slot, job, outcome, hentry, hid⟩ := htold completion hmem
    exact ⟨slot, job, outcome, hlog hentry, hid⟩
  obtain heq | ⟨index, id, failed, payload, now, ⟨task, htask, hnone, hrequest⟩, -, heq, -⟩ := hstep.passes.completed
  · unfold Told
    rw [heq]
    exact hbefore
  · unfold Told
    rw [heq]
    intro completion hmem
    rcases List.mem_append.mp hmem with hmem | hmem
    · exact hbefore completion hmem
    · obtain rfl := List.mem_singleton.mp hmem
      obtain ⟨-, -, slot, job, outcome, hentry, hid⟩ :=
        (h.counter.tasks index task htask).complete hnone id failed payload hrequest
      exact ⟨slot, job, outcome, hlog hentry, hid⟩

theorem Inv.step (h : s.Inv token connection n) (hn : setup.concurrency = .ok n) {op : Op} (hop : op.Printable)
    (hstep : s.Step setup token connection op t) : t.Inv token connection n := by
  have hpasses := hstep.passes
  have hsys : t.sys.Sound ∧ t.sys.Recorded ∧ t.sys.Wired ∧ t.sys.Sourced ∧ t.sys.Ordered := by
    obtain heq | ⟨op', henabled, hfits, heq, -⟩ := hpasses.sys
    · rw [heq]
      exact ⟨h.sound, h.recorded, h.wired, h.sourced, h.ordered⟩
    · rw [heq]
      exact ⟨Rpc.Sys.next_sound h.sound henabled, Rpc.Sys.next_recorded h.sound h.recorded op',
        h.wired.step h.sound hfits,
        h.sourced.next h.sound h.recorded op', Rpc.Sys.next_ordered h.sound h.ordered op'⟩
  have hstill : ∀ id, s.sys.Over id → t.sys.Over id := by
    obtain heq | ⟨op', -, -, heq, -⟩ := hpasses.sys
    · rw [heq]
      exact fun _ hover => hover
    · rw [heq]
      exact fun _ hover => hover.next h.sound op'
  have hcompleted : (t.completed.map Completion.callId).Nodup ∧
      ∀ completion ∈ t.completed, t.sys.Over completion.callId := by
    obtain heq | ⟨index, id, failed, payload, now, -, hok, heq, hnext⟩ := hpasses.completed
    · rw [heq]
      exact ⟨h.once, fun completion hmem => hstill _ (h.gone completion hmem)⟩
    · obtain ⟨hlive, hover⟩ := Rpc.Sys.complete_over h.sound hok
      rw [heq, List.map_append, hnext]
      constructor
      · refine List.nodup_append.mpr ⟨h.once, List.nodup_singleton _, fun old hold new hnew hsame => ?_⟩
        obtain ⟨completion, hmem, rfl⟩ := List.mem_map.mp hold
        obtain rfl := List.mem_singleton.mp hnew
        exact hlive (hsame ▸ h.gone completion hmem)
      · intro completion hmem
        rcases List.mem_append.mp hmem with hold | hlast
        · exact hnext ▸ hstill _ (h.gone completion hold)
        · rw [List.mem_singleton.mp hlast]
          exact hover
  exact {
    service := by
      obtain heq | ⟨op', rfl, hservice⟩ := hpasses.service
      · rw [heq]
        exact h.service
      · exact h.service.step hn hop hservice
    sound := hsys.1
    recorded := hsys.2.1
    wired := hsys.2.2.1
    sourced := hsys.2.2.2.1
    ordered := hsys.2.2.2.2
    once := hcompleted.1
    gone := hcompleted.2
    up := fun hup => by
      obtain ⟨hrated, htold, bearer, hbefore⟩ := h.up fun hreturned => hup (hpasses.returned hreturned)
      exact ⟨hbefore.rated h.sound hrated hstep, hbefore.told htold hstep, hbefore.step h hn hop hstep hup⟩ }

/-! ### Runs -/

/-- Nothing has happened yet. -/
theorem new_up {checked : Client.Settings} (maxCalls maxBytes : Nat) :
    (⟨.new checked, .new, .new maxCalls maxBytes, ∅, []⟩ : State).Up token worker n bearer where
  server := Connection.State.new_inv
  orderly := Connection.State.new_orderly
  bench := {
    serving := nofun
    registering := nofun
    slots := fun i slot hget => by
      cases hget
    apart := fun i j slot slot' promise hget => by
      cases hget
    accepted := nofun
    cause := nofun
    reason := fun _ => trivial
    once := List.nodup_nil
    sent := nofun
    worked := fun _ hmem => absurd hmem List.not_mem_nil }
  counter := {
    tasks := nofun
    queued := nofun
    sending := nofun
    serves := nofun
    owned := fun take hTakes => by
      obtain ⟨live, hlookup, -⟩ := hTakes
      cases hlookup
    apart := nofun
    honest := nofun
    written := nofun }
  flow := ⟨[], [], [], [], Link.start_flow _ _ checked⟩
  young _ := ⟨rfl, nofun, nofun⟩

theorem printable_inv {maxCalls maxBytes : Nat} {s : State}
    (h : (printable setup token connection maxCalls maxBytes).Reachable s) :
    ∃ concurrency, setup.concurrency = .ok concurrency ∧ s.Inv token connection concurrency := by
  apply h.invariant
  · rintro s ⟨service, ⟨registration, concurrency, checked, -, hconcurrency, hchecked, rfl⟩, rfl⟩
    refine ⟨concurrency, hconcurrency, ?_⟩
    exact {
      service := Service.State.new_inv hchecked
      sound := Rpc.Sys.new_sound maxCalls maxBytes
      recorded := Rpc.Sys.new_recorded maxCalls maxBytes
      wired := Rpc.Sys.new_wired maxCalls maxBytes
      sourced := nofun
      ordered := Rpc.Sys.new_ordered maxCalls maxBytes
      once := List.nodup_nil
      gone := nofun
      up := fun _ => ⟨nofun, nofun, fun _ => .answer 0, new_up maxCalls maxBytes⟩ }
  · intro s op t _ hs hstep
    obtain ⟨concurrency, hconcurrency, hinv⟩ := hs
    exact ⟨concurrency, hconcurrency, hinv.step hconcurrency hstep.1 hstep.2⟩

end State

end VeloBus.Station
