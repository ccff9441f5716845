import VeloBus.LinkServer
import VeloBus.LinkTickets

/-! Where the frames of a client and of its connection are, and how each step moves them: from the queue of
the client to the stream, from the stream to the loop, from the writer to the client. -/

namespace VeloBus.Link

open Connection (maxInFlight)

variable {ρ : Type} {P : Frame → Prop} {R : Nat → Frame → Prop}

/-- Where everything in flight is: in the client's queue, before the loop, or behind the writer. `lost` is what
the connection will not write any more. -/
structure Flow (P : Frame → Prop) (R : Nat → Frame → Prop) (s : State ρ) (queued upstream responses : List Frame)
    (lost : Bytes) : Prop where
  queue : s.client.writeQueue = queued.map Frame.bytes
  input : s.server.input = upstream.flatMap Frame.bytes
  output : s.server.output ++ s.server.unwritten ++ lost = responses.flatMap Frame.bytes
  lost : lost = [] ∨ s.server.Silent
  tickets : Tickets P R s.client s.server (queued ++ (s.server.arrived ++ upstream)) responses

section Server

variable {client : Client.State ρ} {server : Connection.State} {token : String} {queued upstream responses : List Frame}
  {lost : Bytes}

theorem Flow.upstream_legal {s : State ρ} (h : Flow P R s queued upstream responses lost) :
    ∀ frame ∈ upstream, frame.Legal := by
  intro frame hmem
  apply h.tickets.legal
  exact List.mem_append_left _ (List.mem_append_right _ (List.mem_append_right _ hmem))

theorem or_lt {opcode : Nat} (h : opcode < 256) : opcode ||| 128 < 256 :=
  Nat.or_lt_two_pow (n := 8) h (Nat.lt_of_sub_ne_zero (by decide))

theorem Flow.quiet (h : Flow P R ⟨client, server⟩ queued upstream responses lost) {server' : Connection.State}
    (hquiet : server.Quiet server') : ∃ lost', Flow P R ⟨client, server'⟩ queued upstream responses lost' := by
  obtain ⟨gone, houtput, hgone⟩ := hquiet.output
  refine ⟨gone ++ lost, h.queue, hquiet.input.trans h.input, ?_, ?_, ?_⟩
  · rw [← List.append_assoc, houtput]
    exact h.output
  · rcases h.lost with rfl | hsilent
    · rw [List.append_nil]
      exact hgone
    · exact Or.inr (hquiet.silent hsilent)
  · apply h.tickets.shrink _ hquiet.ids
    · intro index frame howes
      unfold Connection.State.Owes at howes ⊢
      rw [hquiet.taken, hquiet.answered] at howes
      exact howes
    · exact ((hquiet.arrived.append_right _).append_left _).subperm

theorem Flow.read (h : Flow P R ⟨client, server⟩ queued upstream responses lost) {frame : Frame} {rest : Bytes}
    (hreading : server.reader = .reading) (hread : readFrame server.input = .frame frame rest) :
    ∃ later, Flow P R ⟨client, { server with input := rest, reader := .sending frame }⟩ queued later responses lost := by
  have hinput : server.input = upstream.flatMap Frame.bytes := h.input
  rw [hinput] at hread
  obtain ⟨later, rfl, rfl⟩ := readFrame_stream h.upstream_legal hread
  refine ⟨later, { h with input := rfl, tickets := ?_ }⟩
  have hmoved : server.arrived ++ frame :: later = (server.frames.toList ++ [frame]) ++ later := by
    unfold Connection.State.arrived
    rw [hreading]
    simp [Connection.Reader.held]
  have htickets := h.tickets
  dsimp only at htickets
  rw [hmoved] at htickets
  exact htickets.shrink (.refl _) rfl fun _ _ howes => howes

theorem Flow.hello (h : Flow P R ⟨client, server⟩ queued upstream responses lost) (hinv : server.Inv token)
    (horderly : server.Orderly) (hloop : server.loop = .hello) {frame : Frame} {rest : Bytes}
    (hread : readFrame server.input = .frame frame rest) (hR : ∀ response, R frame.opcode response) :
    ∃ later response, Flow P R ⟨client, { server with input := rest }.greet token frame⟩ queued later
      (responses ++ [response]) [] := by
  have hearly : server.loop.Early := Or.inl hloop
  obtain ⟨hframes, hreader, hwriter⟩ := horderly.early hearly
  have hnone : lost = [] := h.lost.resolve_right fun hsilent => hsilent.2 hearly
  have hinput : server.input = upstream.flatMap Frame.bytes := h.input
  rw [hinput] at hread
  obtain ⟨later, rfl, rfl⟩ := readFrame_stream h.upstream_legal hread
  have hlegal := h.upstream_legal frame List.mem_cons_self
  obtain ⟨opcode, body, hanswer, hopcode⟩ : ∃ opcode body,
      ({ server with input := later.flatMap Frame.bytes }.greet token frame).loop.unwritten =
        responseFrame opcode frame.requestId body ∧ (opcode = frame.opcode ||| 128 ∨ opcode = 255) := by
    unfold Connection.State.greet Connection.Loop.unwritten
    cases Connection.State.greetError token (decodeRequest frame.opcode frame.body) with
    | some error => exact ⟨255, errorBody error, rfl, Or.inr rfl⟩
    | none => exact ⟨frame.opcode ||| 128, Bytes.toBe 2 1, rfl, Or.inl rfl⟩
  have hbyte : opcode < 256 := by
    rcases hopcode with rfl | rfl
    · exact or_lt hlegal.opcode
    · exact Nat.lt_succ_self 255
  refine ⟨later, .answer opcode frame.requestId body, h.queue, rfl, ?_, Or.inl rfl, ?_⟩
  · have houtput := h.output
    unfold Connection.State.unwritten at houtput ⊢
    dsimp only at houtput ⊢
    rw [hanswer]
    unfold Connection.State.greet
    dsimp only
    rw [hloop, hnone] at houtput
    rw [hwriter] at houtput ⊢
    simp only [Connection.Loop.unwritten, Connection.Writer.unwritten, List.append_nil] at houtput ⊢
    rw [houtput, List.flatMap_append, List.flatMap_singleton, Frame.answer_bytes]
  · have hperm : (queued ++ (server.arrived ++ frame :: later)).Perm
        (frame :: (queued ++ (server.arrived ++ later))) := by
      rw [← List.append_assoc, ← List.append_assoc]
      exact List.perm_middle
    have htickets : Tickets P R client server (frame :: (queued ++ (server.arrived ++ later))) responses :=
      h.tickets.shrink hperm.symm.subperm rfl fun _ _ howes => howes
    have hids : ({ server with input := later.flatMap Frame.bytes }.greet token frame).ids = server.ids := rfl
    apply htickets.reply (Frame.answer_legal hbyte hlegal.positive hlegal.requestId) Frame.answer_requestId _ (hR _) hids
    · intro index frame' howes
      obtain ⟨hindex, hget, -⟩ := howes
      have hlt := (List.getElem?_eq_some_iff.mp hget).1
      unfold Connection.State.greet at hlt
      rw [(hinv.young hloop).1] at hlt
      exact absurd (Nat.lt_one_iff.mp hlt) (Nat.one_le_iff_ne_zero.mp hindex)
    · have hanswered : (Frame.answer opcode frame.requestId body).opcode = opcode ∨
          (Frame.answer opcode frame.requestId body).opcode = 255 := Frame.answer_opcode
      rcases hanswered with heq | heq
      · rw [heq]
        exact hopcode
      · exact Or.inr heq

theorem Flow.accept (h : Flow P R ⟨client, server⟩ queued upstream responses lost) (hinv : server.Inv token)
    (hloop : server.loop = .select) {frame : Frame} (hframe : server.frames = some frame)
    (hfree : frame.requestId ∉ server.ids) :
    Flow P R ⟨client, server.accept frame⟩ queued upstream responses lost := by
  have hearly : ¬server.loop.Early := hloop ▸ Connection.not_early_select
  have hperm : (queued ++ (server.arrived ++ upstream)).Perm
      (frame :: (queued ++ (server.reader.held ++ upstream))) := by
    unfold Connection.State.arrived
    rw [hframe, Option.toList_some, List.append_assoc, List.singleton_append]
    exact List.perm_middle
  have htickets : Tickets P R client server (frame :: (queued ++ (server.reader.held ++ upstream))) responses :=
    h.tickets.shrink hperm.symm.subperm rfl fun _ _ howes => howes
  have hsame : ∀ server' : Connection.State, server'.input = server.input → server'.output = server.output →
      ¬server'.loop.Early → server'.writer = server.writer → server'.frames = none →
      server'.reader = server.reader → server'.ids = insert frame.requestId server.ids →
      server'.taken = server.taken ++ [frame] → server'.answered = server.answered →
      Flow P R ⟨client, server'⟩ queued upstream responses lost := by
    intro server' hinput houtput hearly' hwriter hframes hreader hids htaken hanswered
    refine ⟨h.queue, hinput.trans h.input, ?_, ?_, ?_⟩
    · have hbefore := h.output
      unfold Connection.State.unwritten at hbefore ⊢
      dsimp only at hbefore ⊢
      rw [Connection.Loop.unwritten_eq_nil hearly] at hbefore
      rw [houtput, hwriter, Connection.Loop.unwritten_eq_nil hearly']
      exact hbefore
    · exact h.lost.imp_right fun hsilent => ⟨hwriter.trans hsilent.1, hearly'⟩
    · unfold Connection.State.arrived
      dsimp only
      rw [hframes, hreader]
      apply htickets.accept hids
      intro index frame' howes
      exact ((hinv.owes_append hloop htaken hanswered).mp howes).imp_right And.right
  rcases Connection.State.accept_cases frame server with ⟨hmem, -⟩ | ⟨-, error, -, heq⟩ | ⟨-, -, request, -, -, heq⟩
  · exact absurd hmem hfree
  · rw [heq]
    exact hsame _ rfl rfl Connection.not_early_sending rfl rfl rfl rfl rfl rfl
  · rw [heq]
    exact hsame _ rfl rfl hearly rfl rfl rfl rfl rfl rfl

theorem Flow.retire (h : Flow P R ⟨client, server⟩ queued upstream responses lost) (hinv : server.Inv token)
    (horderly : server.Orderly) (hidle : server.writer = .idle) {response : Connection.Response}
    (hresponse : server.responses = some response)
    (hR : ∀ frame, server.Owes response.frame frame → R frame.opcode response.answer) :
    Flow P R ⟨client, server.retire response⟩ queued upstream (responses ++ [response.answer]) [] := by
  have hnone : lost = [] := h.lost.resolve_right fun hsilent => by
    have hended : server.writer = .ended := hsilent.1
    rw [hidle] at hended
    cases hended
  have hearly : ¬server.loop.Early := by
    intro hearly
    have hended := (horderly.early hearly).2.2
    rw [hidle] at hended
    cases hended
  obtain ⟨-, -, frame, howes, hid, hopcode⟩ := hinv.queued response hresponse
  have hlegal : frame.Legal := horderly.legal frame (List.mem_of_getElem? howes.2.1)
  have hbyte : response.opcode < 256 := by
    rcases hopcode with heq | heq <;> rw [heq]
    · exact or_lt hlegal.opcode
    · exact Nat.lt_succ_self 255
  have hanswerId : response.answer.requestId = response.requestId := Frame.answer_requestId
  refine ⟨h.queue, h.input, ?_, Or.inl rfl, ?_⟩
  · have hbefore := h.output
    have hafter : (server.retire response).unwritten = server.loop.unwritten ++ response.bytes := rfl
    have hbytes : response.answer.bytes = response.bytes := Frame.answer_bytes
    dsimp only at hbefore ⊢
    unfold Connection.State.unwritten at hbefore
    rw [hnone, hidle, Connection.Loop.unwritten_eq_nil hearly] at hbefore
    rw [hafter, Connection.Loop.unwritten_eq_nil hearly, List.flatMap_append, List.flatMap_singleton, hbytes,
      ← hbefore]
    unfold Connection.State.retire Connection.State.release Connection.Writer.unwritten
    simp
  · have hids : (server.retire response).ids = server.ids.erase response.answer.requestId := by
      rw [hanswerId]
      rfl
    refine h.tickets.retire (Frame.answer_legal hbyte (hid ▸ hlegal.positive) (hid ▸ hlegal.requestId)) ?_ hids ?_ ?_
    · rw [hanswerId, hid]
      exact (hinv.ids horderly.duplicates _).mpr ⟨_, frame, howes, rfl⟩
    · intro index frame' howes'
      exact (Connection.State.owes_retire.mp howes').1
    · intro hopen
      rw [hanswerId, hid]
      refine ⟨frame.opcode, h.tickets.owed hopen _ frame howes, ?_, hR frame howes⟩
      have hanswered : response.answer.opcode = response.opcode ∨ response.answer.opcode = 255 := Frame.answer_opcode
      rcases hanswered with heq | heq
      · exact hopcode.imp heq.trans heq.trans
      · exact Or.inr heq

/-- What the loop is about to take. -/
theorem Flow.meets (h : Flow P R ⟨client, server⟩ queued upstream responses lost) (hinv : server.Inv token)
    (hlimit : client.settings.maxPendingRequests ≤ maxInFlight) {connection : Nat} {op : Connection.Op}
    (hop : server.Enabled connection op) {frame : Frame} (hmeets : server.Meets frame op) :
    P frame ∧ frame.Legal ∧ frame.requestId ∉ server.ids ∧ server.ids.card < maxInFlight := by
  cases op with
  | hello =>
      obtain ⟨rest, hread⟩ := hmeets
      have hinput : server.input = upstream.flatMap Frame.bytes := h.input
      rw [hinput] at hread
      obtain ⟨later, rfl, -⟩ := readFrame_stream h.upstream_legal hread
      have hids : server.ids = ∅ := (hinv.fresh (Or.inl hop.1)).ids
      have hmem : frame ∈ queued ++ (server.arrived ++ frame :: later) := by simp
      rw [hids]
      exact ⟨h.tickets.asks frame hmem, h.upstream_legal frame List.mem_cons_self, Finset.notMem_empty _,
        Nat.zero_lt_succ 31⟩
  | accept =>
      have hframe : server.frames = some frame := hmeets
      have hmem : frame ∈ queued ++ (server.arrived ++ upstream) := by
        unfold Connection.State.arrived
        rw [hframe]
        simp
      have hflight := List.mem_append_left responses hmem
      have hroom := h.tickets.room
      have hlength := List.length_pos_of_mem hflight
      exact ⟨h.tickets.asks frame hmem, h.tickets.legal frame hflight, h.tickets.apart frame hflight,
        by dsimp only at hroom; omega⟩
  | _ => exact hmeets.elim

/-- A step of the broker. -/
theorem Flow.server_step (h : Flow P R ⟨client, server⟩ queued upstream responses lost) (hinv : server.Inv token)
    (horderly : server.Orderly) (hlimit : client.settings.maxPendingRequests ≤ maxInFlight) {connection : Nat}
    {op : Connection.Op} (hlocal : ∀ bytes, op ≠ .receive bytes) (hop : server.Enabled connection op)
    (hgreets : op = .hello → ∀ frame, server.Meets frame op → ∀ response, R frame.opcode response)
    (hanswers : op = .take → ∀ response frame, server.responses = some response →
      server.Owes response.frame frame → R frame.opcode response.answer) :
    ∃ queued' upstream' responses' lost',
      Flow P R ⟨client, server.next token op⟩ queued' upstream' responses' lost' := by
  cases op with
  | receive bytes => exact absurd rfl (hlocal bytes)
  | hello =>
      obtain ⟨hloop, frame, rest, hread⟩ := hop
      obtain ⟨later, response, hnext⟩ := h.hello hinv horderly hloop hread (hgreets rfl frame ⟨rest, hread⟩)
      unfold Connection.State.next
      rw [hread]
      exact ⟨_, _, _, _, hnext⟩
  | read =>
      obtain ⟨hreading, frame, rest, hread⟩ := hop
      obtain ⟨later, hnext⟩ := h.read hreading hread
      simp only [Connection.State.next, hread]
      exact ⟨_, _, _, _, hnext⟩
  | accept =>
      obtain ⟨frame, hframe⟩ := Option.isSome_iff_exists.mp hop.2
      have hmeets : server.Meets frame .accept := hframe
      have hfree := (h.meets hinv hlimit hop hmeets).2.2.1
      unfold Connection.State.next
      rw [hframe]
      exact ⟨_, _, _, _, h.accept hinv hop.1 hframe hfree⟩
  | take =>
      obtain ⟨hidle, hsome⟩ := hop
      obtain ⟨response, hresponse⟩ := Option.isSome_iff_exists.mp hsome
      unfold Connection.State.next
      rw [hresponse]
      exact ⟨_, _, _, _, h.retire hinv horderly hidle hresponse fun frame => hanswers rfl response frame hresponse⟩
  | _ =>
      obtain ⟨lost', hnext⟩ := h.quiet (horderly.quiet hop (fun hmoves => hmoves))
      exact ⟨_, _, _, _, hnext⟩

end Server

section Client

variable {client client' : Client.State ρ} {server : Connection.State} {queued upstream responses : List Frame}
  {lost : Bytes}

theorem fail_written (reason : Client.Failure) : (client.fail reason).written = client.written := by
  unfold Client.State.fail
  split_ifs <;> rfl

theorem fail_settings (reason : Client.Failure) : (client.fail reason).settings = client.settings := by
  unfold Client.State.fail
  split_ifs <;> rfl

/-- A client whose socket took nothing. -/
theorem Flow.deliver (h : Flow P R ⟨client', server⟩ queued upstream responses lost)
    (hwritten : client'.written = client.written) :
    Flow P R (State.deliver client' ⟨client, server⟩) queued upstream responses lost := by
  unfold State.deliver
  dsimp only
  rw [hwritten, List.drop_length, List.flatten_nil, List.append_nil]
  exact h

/-- A step of the client that sends nothing and reads nothing. -/
theorem Flow.of_client (h : Flow P R ⟨client, server⟩ queued upstream responses lost)
    (hqueue : client'.writeQueue = client.writeQueue) (hsettings : client'.settings = client.settings)
    (hpending : client'.closed = false → client.closed = false ∧ client'.pending = client.pending) :
    Flow P R ⟨client', server⟩ queued upstream responses lost :=
  { h with
    queue := hqueue.trans h.queue
    tickets := h.tickets.of_client hsettings hpending }

theorem Flow.close (h : Flow P R ⟨client, server⟩ queued upstream responses lost) (hqueue : client'.writeQueue = [])
    (hsettings : client'.settings = client.settings) (hclosed : client'.closed = true) : Flow P R ⟨client', server⟩ [] upstream responses lost := by
  have hlost : ([] ++ (server.arrived ++ upstream)).Subperm (queued ++ (server.arrived ++ upstream)) :=
    (List.sublist_append_right _ _).subperm
  have htickets : Tickets P R client server ([] ++ (server.arrived ++ upstream)) responses :=
    h.tickets.shrink hlost rfl fun _ _ howes => howes
  exact { h with
    queue := hqueue
    tickets := htickets.of_client hsettings fun hopen => absurd (hclosed.symm.trans hopen) Bool.noConfusion }

theorem Flow.fail (h : Flow P R ⟨client, server⟩ queued upstream responses lost) (reason : Client.Failure) :
    ∃ queued', Flow P R ⟨client.fail reason, server⟩ queued' upstream responses lost := by
  unfold Client.State.fail
  split_ifs
  · exact ⟨queued, h⟩
  · exact ⟨[], h.close rfl rfl rfl⟩

/-- What the loop of `flush` hands to the socket is received by the broker. -/
theorem Flow.flush (h : Flow P R ⟨client, server⟩ queued upstream responses lost) (socket : Client.Socket) :
    ∃ queued' upstream', Flow P R (State.deliver (client.flush socket) ⟨client, server⟩) queued' upstream'
      responses lost := by
  obtain ⟨given, rest, blocked, hqueue, hresult⟩ :=
    Client.State.flushQueue_cases socket client.writeQueue client
  have hqueued : client.writeQueue = queued.map Frame.bytes := h.queue
  rw [hqueued] at hqueue
  obtain ⟨sent, left, rfl, rfl, rfl⟩ := List.map_eq_append_iff.mp hqueue
  have hperm : (left ++ (server.arrived ++ (upstream ++ sent))).Perm
      (sent ++ left ++ (server.arrived ++ upstream)) := by
    rw [← List.append_assoc server.arrived, ← List.append_assoc, List.append_assoc sent]
    exact List.perm_append_comm
  have hflow : Flow P R ⟨{ client with
      writeQueue := left.map Frame.bytes
      written := client.written ++ sent.map Frame.bytes
      blocked := blocked }, { server with
      input := server.input ++ (sent.map Frame.bytes).flatten }⟩ left (upstream ++ sent) responses lost := {
    queue := rfl
    input := by
      have hinput : server.input = upstream.flatMap Frame.bytes := h.input
      dsimp only
      rw [hinput, List.flatMap_append]
      rfl
    output := h.output
    lost := h.lost
    tickets := by
      apply Tickets.of_client (h.tickets.shrink hperm.subperm _ _)
      · rfl
      · exact fun hopen => ⟨hopen, rfl⟩
      · rfl
      · exact fun _ _ howes => howes }
  have hdelivered : ∀ after : Client.State ρ, after.written = client.written ++ sent.map Frame.bytes →
      State.deliver after ⟨client, server⟩ =
        ⟨after, { server with input := server.input ++ (sent.map Frame.bytes).flatten }⟩ := by
    intro after hwritten
    unfold State.deliver
    dsimp only
    rw [hwritten, List.drop_left]
  unfold Client.State.flush
  rcases hresult with hresult | ⟨hopen, frame, later, message, -, hresult⟩
  · rw [hqueued] at hresult ⊢
    rw [hresult, hdelivered _ rfl]
    exact ⟨left, upstream ++ sent, hflow⟩
  · rw [hqueued] at hresult ⊢
    rw [hresult, hdelivered _ (fail_written _)]
    refine ⟨[], upstream ++ sent, hflow.close ?_ (fail_settings _) ?_⟩
    · unfold Client.State.fail
      rw [if_neg (Bool.eq_false_iff.mp hopen)]
    · unfold Client.State.fail
      rw [if_neg (Bool.eq_false_iff.mp hopen)]

theorem Flow.send (h : Flow P R ⟨client, server⟩ queued upstream responses lost)
    (hfirst : 1 ≤ client.nextRequestId ∧ client.nextRequestId ≤ 0xffffffff)
    (hids : ∀ id ∈ server.ids, ∃ index frame, server.Owes index frame ∧ frame.requestId = id)
    {socket : Client.Socket} {opcode : Nat} {body : Bytes} {parse : Client.Parser ρ} (hopcode : opcode < 256)
    (hP : ∀ id, Client.searchId client.pending (client.pending.size + 1) client.nextRequestId = some id →
      P ⟨opcode, id, body⟩)
    (hsend : client.send socket opcode body parse = some client') :
    ∃ queued' upstream', Flow P R (State.deliver client' ⟨client, server⟩) queued' upstream' responses lost := by
  unfold Client.State.send at hsend
  cases hroom : client.ensureCapacity with
  | error failure =>
      rw [hroom] at hsend
      rw [← Option.some.inj hsend]
      refine ⟨queued, upstream, Flow.deliver (h.of_client ?_ ?_ ?_) ?_⟩
      · rfl
      · rfl
      · exact fun hopen => ⟨hopen, rfl⟩
      · rfl
  | ok value =>
      rw [hroom] at hsend
      obtain ⟨hopen, hsize⟩ := Client.State.ensureCapacity_ok hroom
      cases hsearch : Client.searchId client.pending (client.pending.size + 1) client.nextRequestId with
      | none =>
          simp only [hsearch] at hsend
          cases hsend
      | some id =>
          obtain ⟨hfree, hlow, hhigh⟩ := Client.searchId_some hfirst.1 hfirst.2 hsearch
          cases hframe : Client.envelope opcode id body with
          | error failure =>
              simp only [hsearch, hframe] at hsend
              rw [← Option.some.inj hsend]
              refine ⟨queued, upstream, Flow.deliver (h.of_client ?_ ?_ ?_) ?_⟩
              · rfl
              · rfl
              · exact fun hopen => ⟨hopen, rfl⟩
              · rfl
          | ok bytes =>
              obtain ⟨frame, hlegal, rfl, rfl⟩ := exists_envelope hopcode hlow hhigh hframe
              simp only [hsearch, hframe] at hsend
              rw [← Option.some.inj hsend]
              have hperm : (queued ++ [(⟨opcode, id, body⟩ : Frame)] ++ (server.arrived ++ upstream)).Perm
                  (⟨opcode, id, body⟩ :: (queued ++ (server.arrived ++ upstream))) := by
                rw [List.append_assoc, List.singleton_append]
                exact List.perm_middle
              have hissued : Flow P R ⟨{ client with
                  nextRequestId := Client.nextId id
                  pending := client.pending.insert id ⟨client.sent.length, opcode, parse⟩
                  writeQueue := client.writeQueue ++ [Frame.bytes ⟨opcode, id, body⟩]
                  sent := client.sent ++ [⟨some id, opcode, parse, client.received.length⟩] }, server⟩
                  (queued ++ [⟨opcode, id, body⟩]) upstream responses lost := { h with
                queue := by
                  rw [List.map_append]
                  exact congrArg (· ++ _) h.queue
                tickets := by
                  apply Tickets.shrink _ hperm.subperm rfl fun _ _ howes => howes
                  exact h.tickets.issue hopen hids hlegal hfree rfl rfl rfl hsize (hP id hsearch) }
              exact hissued.flush socket

/-- What the client makes of the broker's next frame. -/
theorem Flow.data (h : Flow P R ⟨client, server⟩ queued upstream responses lost) (hclient : client.Inv)
    (hids : ∀ index frame, server.Owes index frame → frame.requestId ∈ server.ids) {frame rest : Bytes}
    (hdecode : Client.decode server.output = .frame frame rest) :
    ∃ queued' response later, responses = response :: later ∧ frame = response.bytes.drop 4 ∧
      queued'.Sublist queued ∧
      Flow P R ⟨client.data frame, { server with output := rest }⟩ queued' upstream later lost := by
  have hlegal : ∀ response ∈ responses, response.Legal := fun response hmem =>
    h.tickets.legal response (List.mem_append_right _ hmem)
  have houtput := h.output
  rw [List.append_assoc] at houtput
  obtain ⟨response, later, rfl, rfl, hlater⟩ := (decode_stream hlegal houtput).2 frame rest hdecode
  rw [← List.append_assoc] at hlater
  have hid : Client.frameId (response.bytes.drop 4) = response.requestId :=
    Client.frameId_bytes (hlegal response List.mem_cons_self)
  have hread : ∀ client' : Client.State ρ, client'.writeQueue = client.writeQueue →
      client'.settings = client.settings → (client'.closed = false →
        client.closed = false ∧ client'.pending = client.pending.erase response.requestId) →
      Flow P R ⟨client', { server with output := rest }⟩ queued upstream later lost := by
    intro client' hqueue hsettings hpending
    exact { h with
      queue := hqueue.trans h.queue
      output := hlater
      tickets := (h.tickets.settle hids hsettings hpending).shrink (.refl _) rfl fun _ _ howes => howes }
  cases hclosed : client.closed with
  | true =>
      unfold Client.State.data
      rw [if_pos hclosed]
      exact ⟨queued, response, later, rfl, rfl, List.Sublist.refl _,
        hread client rfl rfl fun hopen => absurd (hclosed.symm.trans hopen) Bool.noConfusion⟩
  | false =>
      rcases Client.State.data_cases hclient.toLedger hclosed (response.bytes.drop 4) with
        ⟨pending, outcome, -, heq⟩ | ⟨-, message, heq⟩
      · rw [heq, hid]
        exact ⟨queued, response, later, rfl, rfl, List.Sublist.refl _, hread _ rfl rfl fun _ => ⟨hclosed, rfl⟩⟩
      · rw [heq]
        unfold Client.State.fail
        rw [if_neg (Bool.eq_false_iff.mp hclosed)]
        refine ⟨[], response, later, rfl, rfl, List.nil_sublist _, ?_⟩
        have hnone := hread { client with closed := true } rfl rfl nofun
        exact hnone.close rfl rfl rfl

theorem Flow.framed {s : State ρ} (h : Flow P R s queued upstream responses lost) :
    Client.decode s.server.output ≠ .invalid := by
  have houtput := h.output
  rw [List.append_assoc] at houtput
  exact (decode_stream (fun response hmem => h.tickets.legal response (List.mem_append_right _ hmem)) houtput).1

/-- A frame that an open client can read answers a request that waits. -/
theorem Flow.matched {s : State ρ} (h : Flow P R s queued upstream responses lost) (hopen : s.client.closed = false)
    {frame rest : Bytes} (hdecode : Client.decode s.server.output = .frame frame rest) :
    ∃ pending, s.client.pending.lookup (Client.frameId frame) = some pending ∧
      (Client.frameOpcode frame = pending.opcode ||| 0x80 ∨ Client.frameOpcode frame = 0xff) ∧
      R pending.opcode ⟨Client.frameOpcode frame, Client.frameId frame, frame.drop 5⟩ := by
  have hlegal : ∀ response ∈ responses, response.Legal := fun response hmem =>
    h.tickets.legal response (List.mem_append_right _ hmem)
  have houtput := h.output
  rw [List.append_assoc] at houtput
  obtain ⟨response, later, rfl, rfl, -⟩ := (decode_stream hlegal houtput).2 frame rest hdecode
  have hresponse := hlegal response List.mem_cons_self
  obtain ⟨opcode, ⟨pending, hlookup, rfl⟩, hopcode, hR⟩ := h.tickets.answered hopen response List.mem_cons_self
  rw [Client.frameId_bytes hresponse, Client.frameOpcode_bytes hresponse, Client.frameBody_bytes]
  exact ⟨pending, hlookup, hopcode, hR⟩

theorem data_same (hclient : client.Inv) (frame : Bytes) :
    (client.data frame).written = client.written ∧ (client.data frame).settings = client.settings := by
  cases hclosed : client.closed with
  | true =>
      unfold Client.State.data
      rw [if_pos hclosed]
      exact ⟨rfl, rfl⟩
  | false =>
      rcases Client.State.data_cases hclient.toLedger hclosed frame with ⟨pending, outcome, -, heq⟩ | ⟨-, message, heq⟩
      · rw [heq]
        exact ⟨rfl, rfl⟩
      · rw [heq]
        exact ⟨fail_written _, fail_settings _⟩

theorem flush_settings (socket : Client.Socket) : (client.flush socket).settings = client.settings := by
  obtain ⟨given, rest, blocked, -, hresult⟩ := Client.State.flushQueue_cases socket client.writeQueue client
  unfold Client.State.flush
  rcases hresult with hresult | ⟨-, frame, later, message, -, hresult⟩ <;> rw [hresult]
  exact fail_settings _

theorem send_settings {socket : Client.Socket} {opcode : Nat} {body : Bytes} {parse : Client.Parser ρ}
    (hsend : client.send socket opcode body parse = some client') : client'.settings = client.settings := by
  unfold Client.State.send at hsend
  split at hsend
  · rw [← Option.some.inj hsend]
    rfl
  split at hsend
  · cases hsend
  dsimp only at hsend
  split at hsend
  · rw [← Option.some.inj hsend]
    rfl
  · rw [← Option.some.inj hsend]
    exact flush_settings socket

/-- The limit of a client is the one it was opened with. -/
theorem next_settings {undefined : ρ} {op : Client.Op ρ} (hclient : client.Inv)
    (hnext : client.next undefined op = some client') : client'.settings = client.settings := by
  cases op with
  | greet socket =>
      have hsame : client'.settings = { client with stage := .greeting client.sent.length }.settings :=
        send_settings hnext
      exact hsame
  | send socket opcode body parse => exact send_settings hnext
  | data frame =>
      rw [← Option.some.inj hnext]
      exact (data_same hclient frame).2
  | drain socket =>
      rw [← Option.some.inj hnext]
      exact flush_settings socket
  | connected => rw [← Option.some.inj hnext]
  | opened => rw [← Option.some.inj hnext]
  | _ =>
      rw [← Option.some.inj hnext]
      exact fail_settings _

/-- The request a step of the client may send. -/
def Sends (client : Client.State ρ) : Client.Op ρ → Nat → Bytes → Prop
  | .greet _, opcode, body => opcode = 1 ∧ body = client.settings.hello
  | .send _ opcode body _, opcode', body' => opcode' = opcode ∧ body' = body
  | _, _, _ => False

/-- A step of the client. -/
theorem Flow.client_step {undefined : ρ} (h : Flow P R ⟨client, server⟩ queued upstream responses lost)
    (hclient : client.Inv) (hids : ∀ id, id ∈ server.ids ↔ ∃ index frame, server.Owes index frame ∧ frame.requestId = id)
    {op : Client.Op ρ} {rest : Bytes} (hreads : State.Reads ⟨client, server⟩ op rest) (hop : client.Enabled op)
    (hnext : client.next undefined op = some client')
    (hP : ∀ opcode body id, Sends client op opcode body →
      Client.searchId client.pending (client.pending.size + 1) client.nextRequestId = some id → P ⟨opcode, id, body⟩) :
    ∃ queued' upstream' responses' lost',
      Flow P R (State.deliver client' ⟨client, { server with output := rest }⟩) queued' upstream' responses' lost' := by
  have hfail : ∀ reason, ∃ queued' upstream' responses' lost',
      Flow P R (State.deliver (client.fail reason) ⟨client, server⟩) queued' upstream' responses' lost' := by
    intro reason
    obtain ⟨queued', hfailed⟩ := h.fail reason
    exact ⟨queued', upstream, responses, lost, hfailed.deliver (fail_written _)⟩
  cases op with
  | data frame =>
      obtain ⟨queued', response, later, -, -, -, hdata⟩ := h.data hclient
        (fun index frame howes => (hids _).mpr ⟨index, frame, howes, rfl⟩) hreads
      rw [← Option.some.inj hnext]
      exact ⟨queued', upstream, later, lost, hdata.deliver (data_same hclient frame).1⟩
  | misframed =>
      obtain ⟨-, rfl⟩ := hreads
      rw [← Option.some.inj hnext]
      exact hfail _
  | send socket opcode body parse =>
      obtain rfl := hreads
      obtain ⟨queued', upstream', hsent⟩ :=
        h.send hclient.next (fun id hmem => (hids id).mp hmem) hop.2 (fun id => hP opcode body id ⟨rfl, rfl⟩) hnext
      exact ⟨queued', upstream', responses, lost, hsent⟩
  | greet socket =>
      obtain rfl := hreads
      have hgreeting : Flow P R ⟨{ client with stage := .greeting client.sent.length }, server⟩ queued upstream
          responses lost := { h with
        tickets := h.tickets.of_client rfl fun hopen => ⟨hopen, rfl⟩ }
      obtain ⟨queued', upstream', hsent⟩ := hgreeting.send hclient.next (fun id hmem => (hids id).mp hmem) (by decide)
        (fun id => hP 1 client.settings.hello id ⟨rfl, rfl⟩) hnext
      exact ⟨queued', upstream', responses, lost, hsent⟩
  | drain socket =>
      obtain rfl := hreads
      rw [← Option.some.inj hnext]
      have hdrained : Flow P R ⟨{ client with blocked := false }, server⟩ queued upstream responses lost := { h with
        tickets := h.tickets.of_client rfl fun hopen => ⟨hopen, rfl⟩ }
      obtain ⟨queued', upstream', hsent⟩ := hdrained.flush socket
      exact ⟨queued', upstream', responses, lost, hsent⟩
  | connected =>
      obtain rfl := hreads
      rw [← Option.some.inj hnext]
      refine ⟨queued, upstream, responses, lost, Flow.deliver (h.of_client ?_ ?_ ?_) ?_⟩
      · rfl
      · rfl
      · exact fun hopen => ⟨hopen, rfl⟩
      · rfl
  | opened =>
      obtain rfl := hreads
      rw [← Option.some.inj hnext]
      refine ⟨queued, upstream, responses, lost, Flow.deliver (h.of_client ?_ ?_ ?_) ?_⟩
      · rfl
      · rfl
      · exact fun hopen => ⟨hopen, rfl⟩
      · rfl
  | refused reason =>
      obtain rfl := hreads
      rw [← Option.some.inj hnext]
      obtain ⟨queued', hfailed⟩ := h.fail reason
      refine ⟨queued', upstream, responses, lost, Flow.deliver (hfailed.of_client ?_ ?_ ?_) ?_⟩
      · rfl
      · rfl
      · exact fun hopen => ⟨hopen, rfl⟩
      · exact fail_written _
  | _ =>
      obtain rfl := hreads
      rw [← Option.some.inj hnext]
      exact hfail _

end Client

end VeloBus.Link
