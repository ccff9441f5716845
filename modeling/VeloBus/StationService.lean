import VeloBus.StationLink

/-! The connection of a service while it is up: what `open` and the socket do, what a frame brings, the way into use and
the end. A job goes from the answer that brings it to the promise of its TAKE. -/

namespace VeloBus.Service.State

variable (s : State) (child : Client.State (Option Rpc.Job)) (cause : Cause)

theorem follow_child : (s.follow child).child = child := by
  unfold follow stop
  dsimp only
  split_ifs with hlost
  · rfl
  · exact if_pos hlost.2
  · rfl

theorem slots_follow : (s.follow child).slots = s.slots := by
  unfold follow stop
  dsimp only
  split_ifs <;> rfl

theorem follow_log : (s.follow child).log = s.log := by
  unfold follow stop
  dsimp only
  split_ifs <;> rfl

theorem stop_log : (s.stop cause).log = s.log := by
  unfold stop
  split_ifs <;> rfl

theorem log_subset_follow : s.log ⊆ (s.follow child).log := by
  rw [follow_log]
  exact List.Subset.refl _

theorem log_subset_stop : s.log ⊆ (s.stop cause).log := by
  rw [stop_log]
  exact List.Subset.refl _

/-- A service forgets nothing. -/
theorem Step.log {setup : Setup} {op : Op} {s t : State} (h : s.Step setup op t) : s.log ⊆ t.log := by
  cases op with
  | child op =>
      obtain ⟨-, child, -, rfl⟩ := h
      exact s.log_subset_follow child
  | announce socket =>
      obtain ⟨-, registration, child, -, -, rfl⟩ := h
      exact List.Subset.refl _
  | serve =>
      obtain ⟨promise, value, concurrency, -, -, -, -, rfl⟩ := h
      exact List.Subset.refl _
  | abandon =>
      obtain ⟨-, rfl⟩ := h
      exact s.log_subset_stop .closed
  | close =>
      obtain rfl : t = _ := h
      split_ifs
      · exact List.Subset.refl _
      · exact s.log_subset_stop .closed
  | onFailure slot =>
      obtain ⟨cause, -, rfl⟩ := h
      exact s.log_subset_stop cause
  | take slot socket =>
      obtain ⟨-, h⟩ := h
      split_ifs at h
      · rw [h]
        exact List.Subset.refl _
      · obtain ⟨child, -, rfl⟩ := h
        exact s.log_subset_follow child
  | taken slot =>
      obtain ⟨promise, outcome, -, -, rfl⟩ := h
      exact List.subset_append_left _ _
  | settle slot outcome socket =>
      obtain ⟨job, -, ⟨next, rfl⟩ | ⟨status, output, child, -, rfl⟩⟩ := settle_cases h
      · exact List.Subset.refl _
      · exact List.subset_append_left _ _
  | completed slot =>
      obtain ⟨promise, outcome, -, -, rfl⟩ := h
      exact List.Subset.refl _

theorem stop_child : (s.stop cause).child = s.child ∨
    (s.stop cause).child = s.child.fail (.connectionClosed Client.closedMessage) := by
  unfold stop
  split_ifs
  · exact Or.inl rfl
  · exact Or.inr rfl

end VeloBus.Service.State

namespace VeloBus.Station

open Client (Failure)
open Link (Flow)

namespace State

variable {s : State} {token : String} {worker n : Nat} {bearer bearer' : Nat → Place} {moved : Option Place}
  {child : Client.State (Option Rpc.Job)} {i : Nat} {d : Desk}

/-! ### The connection of the service -/

/-- An open client has been greeted. -/
theorem Up.greeted (h : s.Up token worker n bearer) (hstage : s.service.child.stage = .opened) :
    s.server.loop ≠ .hello := fun hloop => (h.young hloop).2.1 hstage

/-- A request of the service goes on its way. -/
theorem Up.sends (h : s.Up token worker n bearer) (hinv : s.service.Inv n)
    (hk : (s.desk worker n bearer).Keeps d moved)
    (haway : ∀ request, some (.answer request) ≠ moved ∧ some (.complete request) ≠ moved)
    (hstage : s.service.child.stage = .opened) {socket : Client.Socket} {opcode : Nat} {body : Bytes}
    {parse : Client.Parser (Option Rpc.Job)} (hopcode : opcode < 256)
    (hsend : s.service.child.send socket opcode body parse = some child)
    (hasks : ∀ id, Client.searchId s.service.child.pending (s.service.child.pending.size + 1)
      s.service.child.nextRequestId = some id → d.Asks ⟨opcode, id, body⟩) :
    ∃ queued upstream responses lost, Flow (d.Awaits s.server) d.Tells
      (Link.State.deliver child ⟨s.service.child, s.server⟩) queued upstream responses lost := by
  obtain ⟨queued, upstream, responses, lost, hflow⟩ := h.flow
  have hbefore := Desk.flow_keeps hk hflow (fun frame _ => (haway _).2) fun frame _ => (haway _).1
  obtain ⟨queued', upstream', hsent⟩ := hbefore.send hinv.conn.inv.next (fun id hmem => (h.ids id).mp hmem) hopcode
    (fun id hsearch => ⟨hasks id hsearch, fun hloop => absurd hloop (h.greeted hstage)⟩) hsend
  exact ⟨queued', upstream', responses, lost, hsent⟩

/-- The service closes its connection. -/
theorem Up.fails (h : s.Up token worker n bearer) (hchild : child = s.service.child ∨
    ∃ reason, child = s.service.child.fail reason) :
    ∃ queued upstream responses lost, Flow ((s.desk worker n bearer).Awaits s.server) (s.desk worker n bearer).Tells
      (Link.State.deliver child ⟨s.service.child, s.server⟩) queued upstream responses lost := by
  obtain ⟨queued, upstream, responses, lost, hflow⟩ := h.flow
  obtain rfl | ⟨reason, rfl⟩ := hchild
  · exact ⟨queued, upstream, responses, lost, hflow.deliver rfl⟩
  · obtain ⟨queued', hfailed⟩ := hflow.fail reason
    exact ⟨queued', upstream, responses, lost, hfailed.deliver (Link.fail_written reason)⟩

/-- A service in use is opened. -/
theorem not_refused (hinv : s.service.Inv n) (hphase : s.service.phase = .serving) :
    s.service.child.stage ≠ .refused := by
  rw [hinv.conn.serving hphase]
  exact nofun

/-- What the socket and `open` do. -/
theorem Up.ambient (h : s.Up token worker n bearer) (hinv : s.service.Inv n) {op : Client.Op (Option Rpc.Job)}
    (hambient : Service.Ambient op) (hdata : ∀ frame, op ≠ .data frame) (hframed : op ≠ .misframed)
    (hcalls : s.service.Calls op child) {rest : Bytes} (hreads : s.link.Reads op rest) :
    (s.deliver (s.service.follow child) rest).Up token worker n bearer := by
  obtain ⟨hop, hnext⟩ := hcalls
  have hrest : rest = s.server.output := by
    cases op with
    | data frame => exact absurd rfl (hdata frame)
    | misframed => exact absurd rfl hframed
    | _ => exact hreads
  obtain ⟨hconn, -, hmono⟩ := hinv.conn.ambient hambient hop hnext
  have hstage : s.service.phase = .serving → child.stage ≠ .refused := by
    intro hphase
    rw [hconn.serving hphase]
    exact nofun
  have hmild := Client.State.next_mild hinv.conn.inv hop hdata hframed hnext
  obtain ⟨queued, upstream, responses, lost, hflow⟩ := h.flow
  apply h.attend (s.service.log_subset_follow child) (.refl _) (fun _ _ => ⟨nofun, nofun⟩)
    ((h.bench.mild hinv.conn.inv hmild hmono hstage).follow hconn.inv hstage)
  · rw [Service.State.follow_child]
    apply hflow.client_step hinv.conn.inv h.ids hreads hop hnext
    intro opcode body id hsends _
    cases op with
    | greet socket =>
        obtain ⟨rfl, rfl⟩ := hsends
        exact ⟨⟨nofun, nofun, nofun⟩, fun _ => rfl⟩
    | send socket opcode' body' parse => exact hambient.elim
    | _ => exact hsends.elim
  · intro hloop
    obtain ⟨houtput, hyoung, hsettled⟩ := h.young hloop
    rw [Service.State.follow_child, hrest]
    exact ⟨houtput, Client.State.young_next hinv.conn.inv hop hdata hframed hnext hyoung hsettled⟩

/-! ### A frame of the broker -/

/-- A frame the client has no use for is answered before the service is in use. -/
theorem Up.early (h : s.Up token worker n bearer) (hinv : s.service.Inv n) (hopen : s.service.child.closed = false)
    {frame : Bytes} {pending : Client.Pending (Option Rpc.Job)}
    (hlookup : s.service.child.pending.lookup (Client.frameId frame) = some pending)
    (hopcode : Client.frameOpcode frame = pending.opcode ||| 0x80 ∨ Client.frameOpcode frame = 0xff)
    (htells : (s.desk worker n bearer).Tells pending.opcode
      ⟨Client.frameOpcode frame, Client.frameId frame, frame.drop 5⟩)
    (hnone : ¬∃ pending outcome, s.service.child.Answers frame pending outcome) : s.service.phase ≠ .serving := by
  intro hphase
  have hwaits := hinv.conn.held hphase hopen _ pending hlookup
  obtain ⟨slot, hslot, hpromise⟩ := List.mem_filterMap.mp hwaits
  obtain ⟨i, hget⟩ := List.mem_iff_getElem?.mp hslot
  have hasked := asked_pending hinv.conn.inv hlookup
  have hseats := h.bench.slots i slot hget
  cases slot with
  | taking promise =>
      obtain rfl := Option.some.inj hpromise
      obtain ⟨heq, hparse⟩ := hasked.unique hseats.1
      obtain ⟨hok, taken, hbody, hands⟩ := htells.take heq
      refine hnone ⟨pending, .resolved taken, hlookup, Or.inr ⟨hok, hopcode.resolve_right hok, taken, ?_, rfl⟩⟩
      have hread : Client.parseTaken (Rpc.encodeTaken taken) = .ok taken :=
        Client.parseTaken_encodeTaken fun job htaken => (hands job htaken).1
      rw [hparse, show frame.drop 5 = Rpc.encodeTaken taken from hbody]
      exact hread
  | completing promise =>
      obtain rfl := Option.some.inj hpromise
      obtain ⟨heq, hparse⟩ := hasked.unique hseats
      obtain ⟨hok, hbody⟩ := htells.complete heq
      refine hnone ⟨pending, .resolved none, hlookup, Or.inr ⟨hok, hopcode.resolve_right hok, none, ?_, rfl⟩⟩
      rw [hparse, show frame.drop 5 = [] from hbody]
      exact Client.parseEmpty_nil
  | _ => cases hpromise

/-- The job at one place goes to another. -/
theorem carried {d : Desk} {place : Place} {taken : Option Rpc.Job} (hands : d.Hands place taken)
    (hnot : ∀ request, place ≠ .complete request) (new : Place) :
    ∃ bearer, d.Keeps { d with bearer := bearer } (some place) ∧ Desk.Hands { d with bearer := bearer } new taken := by
  cases taken with
  | none => exact ⟨d.bearer, (Desk.Keeps.refl d).weaken, nofun⟩
  | some job =>
      obtain ⟨hlegal, hhanded, hruns, hplace⟩ := hands job rfl
      refine ⟨Function.update d.bearer job.callId new, d.keeps_move hplace hnot new, ?_⟩
      intro job' hjob
      obtain rfl := Option.some.inj hjob
      exact ⟨hlegal, hhanded, hruns, Function.update_self _ _ _⟩

/-- A frame is read: its answer has left the connection, and a job that it brings may leave it too. -/
theorem Up.read (h : s.Up token worker n bearer) (hinv : s.service.Inv n) {frame rest : Bytes}
    (hop : s.service.child.Enabled (.data frame)) (hdecode : Client.decode s.server.output = .frame frame rest)
    (hk : (s.desk worker n bearer).Keeps (s.desk worker n bearer') moved)
    (hmoved : ∀ place, moved = some place → place = .answer (Client.frameId frame))
    (hbench : (s.desk worker n bearer').Bench { s.service with child := s.service.child.data frame }) :
    (s.deliver (s.service.follow (s.service.child.data frame)) rest).Up token worker n bearer' := by
  obtain ⟨queued, upstream, responses, lost, hflow⟩ := h.flow
  have hclient := hinv.conn.inv
  have hambient : Service.Ambient (.data frame) := trivial
  obtain ⟨hconn, -, -⟩ := hinv.conn.ambient hambient hop rfl
  obtain ⟨queued', response, later, rfl, hframe, -, hdata⟩ := hflow.data hclient
    (fun index frame howes => (h.ids _).mpr ⟨index, frame, howes, rfl⟩) hdecode
  have hmem : response ∈ queued ++ (s.server.arrived ++ upstream) ++ response :: later := by simp
  have hid : Client.frameId frame = response.requestId := by
    rw [hframe]
    exact Client.frameId_bytes (hflow.tickets.legal response hmem)
  rw [hid] at hmoved
  have hunique := hflow.tickets.unique
  rw [List.map_append, List.map_cons] at hunique
  have hgone := (List.nodup_cons.mp (List.nodup_append.mp hunique).2.1).1
  apply h.attend (Service.State.log_subset_follow _ _) hk _ (hbench.follow hconn.inv _)
  · rw [Service.State.follow_child]
    have hafter := Desk.flow_keeps hk hdata
      (fun frame' _ heq => by cases hmoved _ heq.symm) fun frame' hframe' heq => by
        rw [← Place.answer.inj (hmoved _ heq.symm)] at hgone
        exact hgone (List.mem_map_of_mem hframe')
    exact ⟨queued', upstream, later, lost, hafter.deliver (Link.data_same hclient frame).1⟩
  · intro hloop
    rw [(h.young hloop).1] at hdecode
    cases hdecode
  · intro request hrequest
    refine ⟨fun heq => ?_, fun heq => ?_⟩
    · rw [Place.answer.inj (hmoved _ heq.symm)] at hrequest
      exact hflow.tickets.apart response hmem hrequest
    · cases hmoved _ heq.symm
  · intro hphase
    rw [hconn.serving hphase]
    exact nofun

/-- The child reads a frame, and the service follows. -/
theorem Up.data (h : s.Up token worker n bearer) (hinv : s.service.Inv n) {frame rest : Bytes}
    (hop : s.service.child.Enabled (.data frame)) (hdecode : Client.decode s.server.output = .frame frame rest) :
    ∃ bearer', (s.deliver (s.service.follow (s.service.child.data frame)) rest).Up token worker n bearer' := by
  obtain ⟨queued, upstream, responses, lost, hflow⟩ := h.flow
  have hclient := hinv.conn.inv
  cases hclosed : s.service.child.closed with
  | true =>
      refine ⟨bearer, h.read hinv hop hdecode (.refl _) nofun ?_⟩
      unfold Client.State.data
      rw [if_pos hclosed]
      exact h.bench
  | false =>
      obtain ⟨pending, hlookup, hopcode, htells⟩ := hflow.matched hclosed hdecode
      rcases Client.State.data_cases hclient.toLedger hclosed frame with
        ⟨pending', outcome, ⟨hlookup', hanswers⟩, heq⟩ | ⟨hnone, message, heq⟩
      · obtain rfl := Option.some.inj (hlookup.symm.trans hlookup')
        have haccepted : ∀ code message, outcome = .rejected (.broker code message) →
            pending.opcode ≠ 8 ∧ pending.opcode ≠ 9 := by
          rintro code message rfl
          obtain ⟨herror, -⟩ | ⟨-, -, value, -, hvalue⟩ := hanswers
          · exact ⟨fun htake => (htells.take htake).1 herror, fun hcomplete => (htells.complete hcomplete).1 herror⟩
          · cases hvalue
        have hresolved : ∀ value, outcome = .resolved value →
            Client.frameOpcode frame ≠ 0xff ∧ pending.parse.run (frame.drop 5) = .ok value := by
          rintro value rfl
          obtain ⟨-, reason, -, hreason⟩ | ⟨hok, -, value', hparse, hvalue⟩ := hanswers
          · cases hreason
          · obtain rfl := Client.Settlement.resolved.inj hvalue
            exact ⟨hok, hparse⟩
        have hsettle : ∀ {bearer' : Nat → Place} {moved : Option Place},
            (s.desk worker n bearer).Keeps (s.desk worker n bearer') moved →
            (∀ place, moved = some place → place = .answer (Client.frameId frame)) →
            (pending.opcode = 8 → pending.parse = Client.takenParser → ∀ taken, outcome = .resolved taken →
              (s.desk worker n bearer').Hands (.promise pending.promise) taken) →
            (s.desk worker n bearer').Bench { s.service with child := s.service.child.data frame } := by
          intro bearer' moved hk hmoved htake
          have hbench := h.bench.keeps hk (fun promise heq => by cases hmoved _ heq.symm) fun i heq => by
            cases hmoved _ heq.symm
          refine hbench.settle (asked_pending hclient hlookup) ?_ ?_ ?_ ?_ ?_ htake haccepted
          · rw [heq]
            rfl
          · rw [heq]
            rfl
          · rw [heq]
            rfl
          · rw [heq]
            rfl
          · intro hregister value hvalue
            exact hk.enlisted (htells.register hregister (hresolved value hvalue).1)
        by_cases htake : pending.opcode = 8
        · obtain ⟨-, taken, hbody, hands⟩ := htells.take htake
          obtain ⟨bearer', hk, hands'⟩ := carried hands nofun (.promise pending.promise)
          have hmoved : ∀ place, some (Place.answer (Client.frameId frame)) = some place →
              place = .answer (Client.frameId frame) := fun place heq => (Option.some.inj heq).symm
          refine ⟨bearer', h.read hinv hop hdecode hk hmoved (hsettle hk hmoved fun _ hparse value hvalue => ?_)⟩
          have hrun := (hresolved value hvalue).2
          have htaken : Client.parseTaken (Rpc.encodeTaken taken) = .ok taken :=
            Client.parseTaken_encodeTaken fun job hjob => (hands job hjob).1
          rw [hparse, show frame.drop 5 = Rpc.encodeTaken taken from hbody] at hrun
          obtain rfl := Except.ok.inj (htaken.symm.trans hrun)
          exact hands'
        · refine ⟨bearer, h.read hinv hop hdecode (.refl _) nofun (hsettle (.refl _) nofun ?_)⟩
          exact fun heq => absurd heq htake
      · have hphase := h.early hinv hclosed hlookup hopcode htells hnone
        refine ⟨bearer, h.read hinv hop hdecode (.refl _) nofun ?_⟩
        rw [heq]
        apply h.bench.unsaid hclient
        · rw [Client.State.fail_sent]
        · intro promise outcome hsettled
          refine (Client.State.fail_settled hsettled).imp_right fun hnew => ?_
          exact ⟨_, hnew.1, nofun⟩
        · rintro (hopen | hserving)
          · rw [Client.State.fail_closed] at hopen
            cases hopen
          · exact absurd hserving hphase

/-! ### The way into use -/

/-- A step that leaves the connection alone. -/
theorem Up.attend_same (h : s.Up token worker n bearer)
    (hk : (s.desk worker n bearer).Keeps (s.desk worker n bearer') moved)
    (haway : ∀ request, some (.answer request) ≠ moved ∧ some (.complete request) ≠ moved) {service : Service.State}
    (hlog : s.service.log ⊆ service.log) (hchild : service.child = s.service.child)
    (hbench : (s.desk worker n bearer').Bench service) :
    (s.deliver service s.server.output).Up token worker n bearer' := by
  obtain ⟨queued, upstream, responses, lost, hflow⟩ := h.flow
  apply h.attend hlog hk (fun request _ => haway request) hbench
  · rw [hchild]
    have hafter := Desk.flow_keeps hk hflow (fun frame _ => (haway _).2)
      fun frame _ => (haway _).1
    exact ⟨queued, upstream, responses, lost, hafter.deliver rfl⟩
  · intro hloop
    rw [hchild]
    exact h.young hloop

theorem setup_concurrency {setup : Service.Setup} (hn : setup.concurrency = .ok n) {concurrency : Nat}
    (hgiven : setup.handleOptions.concurrency.orElse (.number 8) = .number concurrency) : concurrency = n := by
  have heq := (Client.integer_ok hn).1
  rw [hgiven] at heq
  exact Nat.cast_injective (Client.Value.number.inj heq)

/-- The registration is sent. -/
theorem Up.announce (h : s.Up token worker n bearer) (hinv : s.service.Inv n) {setup : Service.Setup}
    (hn : setup.concurrency = .ok n) {socket : Client.Socket} {registration : Bytes}
    (hhandle : Client.handle setup.route setup.handler setup.handleOptions = .ok registration)
    (hcalls : s.service.Calls (.send socket 6 registration Client.emptyParser) child) :
    (s.deliver { s.service with child := child, phase := .registering s.service.child.sent.length }
      s.server.output).Up token worker n bearer := by
  obtain ⟨⟨hstage, -⟩, hnext⟩ := hcalls
  have hsend : s.service.child.send socket 6 registration Client.emptyParser = some child := hnext
  have hclient := hinv.conn.inv
  have hmild := Client.State.send_mild hclient (Or.inl hstage) hsend
  obtain ⟨-, hstage', -, -⟩ := Client.State.send_kept hsend
  obtain ⟨-, request, hlegal, hopcode, hbody, hmeans⟩ := Client.handle_ok hhandle
  have hdecode : decodeRequest 6 registration = .ok request := decodeRequest_eq_ok.mpr ⟨hlegal, hopcode, hbody⟩
  have hbench := h.bench.mild hclient hmild (Client.State.send_open hsend) fun _ => by
    rw [hstage', hstage]
    exact nofun
  refine h.attend ?_ (.refl _) (fun _ _ => ⟨nofun, nofun⟩) ?_ ?_ ?_
  · exact List.Subset.refl _
  · exact { hbench with
      serving := nofun
      registering := fun promise hphase => by
        rw [← Service.Phase.registering.inj hphase]
        refine ⟨asked_send hsend, fun value hmem => ?_⟩
        obtain hold | ⟨reason, heq, -⟩ := hmild.settled _ _ hmem
        · exact absurd (hclient.issued _ (List.mem_map_of_mem hold)) (lt_irrefl _)
        · cases heq
      reason := fun hkept => hbench.reason (hkept.imp_right nofun) }
  · apply h.sends hinv (.refl _) (fun _ => ⟨nofun, nofun⟩) hstage (by decide) hsend
    intro id _
    refine ⟨fun _ => ?_, nofun, nofun⟩
    cases request with
    | register route concurrency queueLimit =>
        refine ⟨route, queueLimit, ?_⟩
        rw [setup_concurrency hn hmeans.2.1] at hdecode
        exact hdecode
    | _ => exact hmeans.elim
  · exact fun hloop => absurd hloop (h.greeted hstage)

theorem Up.serve_slots (h : s.Up token worker n bearer) {promise : Nat} {value : Option Rpc.Job}
    (hphase : s.service.phase = .registering promise)
    (hsettled : (promise, .resolved value) ∈ s.service.child.settled) (hopen : s.service.child.closed = false) :
    (s.deliver { s.service with phase := .serving, slots := List.replicate n .ready }
      s.server.output).Up token worker n bearer := by
  have hready : ∀ {i : Nat} {slot : Service.Slot}, (List.replicate n Service.Slot.ready)[i]? = some slot →
      slot = .ready := fun hslot => List.eq_of_mem_replicate (List.mem_of_getElem? hslot)
  have hbench := h.bench
  refine h.attend_same (.refl _) (fun _ => ⟨nofun, nofun⟩) ?_ ?_ ?_
  · exact List.Subset.refl _
  · rfl
  exact { hbench with
    serving := fun _ => (hbench.registering promise hphase).2 value hsettled
    registering := nofun
    slots := fun i slot hslot => by
      rw [hready hslot]
      exact trivial
    apart := fun i j slot slot' promise hslot _ hpromise _ => by
      rw [hready hslot] at hpromise
      cases hpromise
    reason := fun _ => hbench.reason (Or.inl hopen) }

/-! ### The end -/

/-- The service closes its connection, or has nothing left to close. -/
theorem Up.ends (h : s.Up token worker n bearer) {service : Service.State} (hlog : s.service.log ⊆ service.log)
    (hchild : service.child = s.service.child ∨ ∃ reason, service.child = s.service.child.fail reason)
    (hbench : (s.desk worker n bearer).Bench service) :
    (s.deliver service s.server.output).Up token worker n bearer := by
  apply h.attend hlog (.refl _) (fun _ _ => ⟨nofun, nofun⟩) hbench (h.fails hchild)
  intro hloop
  obtain ⟨houtput, hstage, hsettled⟩ := h.young hloop
  obtain heq | ⟨reason, heq⟩ := hchild
  · rw [heq]
    exact ⟨houtput, hstage, hsettled⟩
  · rw [heq, Client.State.fail_stage]
    refine ⟨houtput, hstage, fun promise value hmem => ?_⟩
    obtain hold | ⟨hnew, -⟩ := Client.State.fail_settled hmem
    · exact hsettled promise value hold
    · cases hnew

theorem Up.stops (h : s.Up token worker n bearer) (hinv : s.service.Inv n) {cause : Service.Cause}
    (hcause : cause = .closed ∨ cause = .lost) :
    (s.deliver (s.service.stop cause) s.server.output).Up token worker n bearer :=
  h.ends (s.service.log_subset_stop cause) ((s.service.stop_child cause).imp_right fun heq => ⟨_, heq⟩)
    (h.bench.stop hinv.conn.inv (not_refused hinv) hcause)

theorem Up.abandon (h : s.Up token worker n bearer) (hinv : s.service.Inv n) :
    (s.deliver { s.service.stop .closed with phase := .failed } s.server.output).Up token worker n bearer := by
  have hbench := h.bench.stop hinv.conn.inv (not_refused hinv) (Or.inl rfl)
  refine h.ends (s.service.log_subset_stop .closed) ((s.service.stop_child .closed).imp_right fun heq => ⟨_, heq⟩) ?_
  exact { hbench with
    serving := nofun
    registering := nofun
    reason := fun hkept => hbench.reason (hkept.imp_right nofun) }

theorem Up.close (h : s.Up token worker n bearer) (hinv : s.service.Inv n) :
    (s.deliver (if s.service.phase = .opening then
        { s.service with child := s.service.child.fail (.connectionClosed Client.closedMessage) }
      else s.service.stop .closed) s.server.output).Up token worker n bearer := by
  split_ifs with hphase
  · have hmild : s.service.child.Mild (s.service.child.fail (.connectionClosed Client.closedMessage)) :=
      Client.State.fail_mild trivial
    refine h.ends ?_ (Or.inr ⟨_, rfl⟩) ?_
    · exact List.Subset.refl _
    apply h.bench.mild hinv.conn.inv hmild
    · intro hopen
      rw [Client.State.fail_closed] at hopen
      cases hopen
    · intro hserving
      rw [hphase] at hserving
      cases hserving
  · exact h.stops hinv (Or.inl rfl)

end State

end VeloBus.Station
