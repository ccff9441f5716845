import VeloBus.ClientCapacity
import VeloBus.ClientOutcomes
import VeloBus.ConnectionResponses
import VeloBus.LinkCapacity

/-! Which response settles which promise. Every frame the loop takes was sent for a promise of its own, and what the
broker settles a promise with is the response to the frame of that promise. -/

namespace VeloBus.Client.State

variable {ρ : Type} {s t : State ρ}

/-- What `send` does: it rejects at once, or it issues a request. -/
theorem send_cases {socket : Socket} {opcode : Nat} {body : Bytes} {parse : Parser ρ}
    (hsend : s.send socket opcode body parse = some t) :
    (∃ failure next, t = { s with nextRequestId := next }.reject opcode parse failure) ∨
    ∃ id frame, s.closed = false ∧ searchId s.pending (s.pending.size + 1) s.nextRequestId = some id ∧
      envelope opcode id body = .ok frame ∧ t = State.flush socket { s with
        nextRequestId := nextId id
        pending := s.pending.insert id ⟨s.sent.length, opcode, parse⟩
        writeQueue := s.writeQueue ++ [frame]
        sent := s.sent ++ [⟨some id, opcode, parse, s.received.length⟩] } := by
  unfold send at hsend
  cases hroom : s.ensureCapacity with
  | error failure =>
      rw [hroom] at hsend
      exact Or.inl ⟨failure, s.nextRequestId, (Option.some.inj hsend).symm⟩
  | ok value =>
      rw [hroom] at hsend
      cases hsearch : searchId s.pending (s.pending.size + 1) s.nextRequestId with
      | none =>
          simp only [hsearch] at hsend
          cases hsend
      | some id =>
          cases hframe : envelope opcode id body with
          | error failure =>
              simp only [hsearch, hframe] at hsend
              exact Or.inl ⟨failure, nextId id, (Option.some.inj hsend).symm⟩
          | ok frame =>
              simp only [hsearch, hframe] at hsend
              exact Or.inr ⟨id, frame, (ensureCapacity_ok hroom).1, rfl, hframe, (Option.some.inj hsend).symm⟩

end VeloBus.Client.State

namespace VeloBus.Link

open Connection (maxInFlight)
open Client (Parser Sent Settlement)

variable {ρ : Type}

/-- A stream of frames is read in one way. -/
theorem flatMap_bytes_inj {frames frames' : List Frame} (hlegal : ∀ frame ∈ frames, frame.Legal)
    (hlegal' : ∀ frame ∈ frames', frame.Legal) (h : frames.flatMap Frame.bytes = frames'.flatMap Frame.bytes) :
    frames = frames' := by
  induction frames generalizing frames' with
  | nil =>
      cases frames' with
      | nil => rfl
      | cons frame later => cases h
  | cons frame frames ih =>
      have hread := readFrame_bytes (hlegal frame List.mem_cons_self) (frames.flatMap Frame.bytes)
      rw [← List.flatMap_cons, h] at hread
      obtain ⟨later, rfl, hlater⟩ := readFrame_stream hlegal' hread
      rw [ih (fun frame hmem => hlegal frame (List.mem_cons_of_mem _ hmem))
        (fun frame hmem => hlegal' frame (List.mem_cons_of_mem _ hmem)) hlater]

/-! ### What was asked for -/

/-- The promises of a client with what each was asked for with, the promise of every frame that the loop took, and the
responses of the connection. -/
structure Book (ρ : Type) where
  sent : List (Sent ρ)
  bodies : List Bytes
  origins : List Nat
  answered : List (Nat × Bytes)

/-- What a response settles a promise with. -/
def Says (opcode : Nat) (parse : Parser ρ) (response : Frame) : Settlement ρ → Prop
  | .resolved value => response.opcode = opcode ||| 128 ∧ parse.run response.body = .ok value
  | .rejected reason => response.opcode = 255 ∧ Client.parseError response.body = .ok reason

namespace Book

/-- The frame was sent for the promise. -/
def Requested (b : Book ρ) (promise : Nat) (frame : Frame) : Prop :=
  b.bodies[promise]? = some frame.body ∧
    ∃ sent, b.sent[promise]? = some sent ∧ sent.id = some frame.requestId ∧ sent.opcode = frame.opcode

/-- The last promise that was sent under an identifier. -/
def Latest (b : Book ρ) (id promise : Nat) : Prop :=
  (∃ sent, b.sent[promise]? = some sent ∧ sent.id = some id) ∧
    ∀ (later : Nat) (sent : Sent ρ), b.sent[later]? = some sent → sent.id = some id → later ≤ promise

/-- A request that the loop has not taken. -/
def Asks (b : Book ρ) (frame : Frame) : Prop :=
  ∃ promise, b.Requested promise frame ∧ b.Latest frame.requestId promise ∧ promise ∉ b.origins

/-- A response that the client has not read. The answer to HELLO is written before there is a writer. -/
def Tells (b : Book ρ) (opcode : Nat) (response : Frame) : Prop :=
  opcode = 1 ∨ ∃ index promise, b.origins[index]? = some promise ∧ b.Latest response.requestId promise ∧
    (index, response.bytes) ∈ b.answered

/-- The response to its own frame settled the promise. -/
def Told (b : Book ρ) (promise : Nat) (outcome : Settlement ρ) : Prop :=
  ∃ sent response, b.sent[promise]? = some sent ∧ Says sent.opcode sent.parse response outcome ∧
    (sent.opcode = 1 ∨ ∃ index, b.origins[index]? = some promise ∧ (index, response.bytes) ∈ b.answered)

variable {b b' : Book ρ} {id promise : Nat} {frame : Frame} {entry : Sent ρ} {body : Bytes}

theorem Latest.unique {promise' : Nat} (h : b.Latest id promise) (h' : b.Latest id promise') : promise = promise' := by
  obtain ⟨⟨sent, hget, hid⟩, hlast⟩ := h
  obtain ⟨⟨sent', hget', hid'⟩, hlast'⟩ := h'
  exact le_antisymm (hlast' promise sent hget hid) (hlast promise' sent' hget' hid')

/-- A promise has one identifier. -/
theorem Latest.same {id' : Nat} (h : b.Latest id promise) (h' : b.Latest id' promise) : id = id' := by
  obtain ⟨⟨sent, hget, hid⟩, -⟩ := h
  obtain ⟨⟨sent', hget', hid'⟩, -⟩ := h'
  obtain rfl := Option.some.inj (hget.symm.trans hget')
  exact Option.some.inj (hid.symm.trans hid')

/-- More was said and taken. -/
structure Grows (b b' : Book ρ) : Prop where
  sent : b'.sent = b.sent
  bodies : b'.bodies = b.bodies
  origins : b.origins <+: b'.origins
  answered : b.answered ⊆ b'.answered

theorem Grows.requested (h : b.Grows b') (hrequested : b.Requested promise frame) : b'.Requested promise frame := by
  unfold Requested
  rw [h.sent, h.bodies]
  exact hrequested

theorem Grows.latest (h : b.Grows b') (hlatest : b.Latest id promise) : b'.Latest id promise := by
  unfold Latest
  rw [h.sent]
  exact hlatest

theorem Grows.tells (h : b.Grows b') {opcode : Nat} (htells : b.Tells opcode frame) : b'.Tells opcode frame := by
  refine htells.imp_right fun hsome => ?_
  obtain ⟨index, promise, horigin, hlatest, hanswered⟩ := hsome
  exact ⟨index, promise, Client.getElem?_of_isPrefix h.origins horigin, h.latest hlatest, h.answered hanswered⟩

theorem Grows.told (h : b.Grows b') {outcome : Settlement ρ} (htold : b.Told promise outcome) :
    b'.Told promise outcome := by
  obtain ⟨sent, response, hget, hsays, hplace⟩ := htold
  refine ⟨sent, response, h.sent ▸ hget, hsays, hplace.imp_right fun hsome => ?_⟩
  obtain ⟨index, horigin, hanswered⟩ := hsome
  exact ⟨index, Client.getElem?_of_isPrefix h.origins horigin, h.answered hanswered⟩

/-- The loop takes a frame. -/
def take (promise : Nat) (b : Book ρ) : Book ρ := { b with origins := b.origins ++ [promise] }

theorem grows_take : b.Grows (b.take promise) := ⟨rfl, rfl, List.prefix_append _ _, List.Subset.refl _⟩

theorem Asks.take {frame' : Frame} (h : b.Asks frame') (hlatest : b.Latest id promise) (hne : frame'.requestId ≠ id) :
    (b.take promise).Asks frame' := by
  obtain ⟨promise', hrequested, hlatest', hfresh⟩ := h
  refine ⟨promise', hrequested, hlatest', fun hmem => ?_⟩
  rcases List.mem_append.mp hmem with hold | hnew
  · exact hfresh hold
  · obtain rfl := List.mem_singleton.mp hnew
    exact hne (hlatest'.same hlatest)

/-- A promise is given out. -/
def issue (entry : Sent ρ) (body : Bytes) (b : Book ρ) : Book ρ :=
  { b with sent := b.sent ++ [entry], bodies := b.bodies ++ [body] }

theorem Requested.issue (h : b.Requested promise frame) : (b.issue entry body).Requested promise frame := by
  obtain ⟨hbody, sent, hget, hsent⟩ := h
  exact ⟨Client.getElem?_of_isPrefix (List.prefix_append _ _) hbody, sent,
    Client.getElem?_of_isPrefix (List.prefix_append _ _) hget, hsent⟩

theorem Latest.issue (h : b.Latest id promise) (hne : entry.id ≠ some id) : (b.issue entry body).Latest id promise := by
  obtain ⟨⟨sent, hget, hid⟩, hlast⟩ := h
  refine ⟨⟨sent, Client.getElem?_of_isPrefix (List.prefix_append _ _) hget, hid⟩, fun later sent' hget' hid' => ?_⟩
  rcases Connection.getElem?_append.mp hget' with hold | ⟨-, rfl⟩
  · exact hlast later sent' hold hid'
  · exact absurd hid' hne

theorem latest_issue (hid : entry.id = some id) : (b.issue entry body).Latest id b.sent.length := by
  refine ⟨⟨entry, List.getElem?_concat_length, hid⟩, fun later sent hget _ => ?_⟩
  have hlt := (List.getElem?_eq_some_iff.mp hget).1
  rw [Book.issue, List.length_append, List.length_singleton] at hlt
  exact Nat.le_of_lt_succ hlt

theorem Asks.issue (h : b.Asks frame) (hne : entry.id ≠ some frame.requestId) : (b.issue entry body).Asks frame := by
  obtain ⟨promise, hrequested, hlatest, hfresh⟩ := h
  exact ⟨promise, hrequested.issue, hlatest.issue hne, hfresh⟩

theorem Tells.issue {opcode : Nat} (h : b.Tells opcode frame) (hne : entry.id ≠ some frame.requestId) :
    (b.issue entry body).Tells opcode frame := by
  refine h.imp_right fun hsome => ?_
  obtain ⟨index, promise, horigin, hlatest, hanswered⟩ := hsome
  exact ⟨index, promise, horigin, hlatest.issue hne, hanswered⟩

theorem Told.issue {outcome : Settlement ρ} (h : b.Told promise outcome) :
    (b.issue entry body).Told promise outcome := by
  obtain ⟨sent, response, hget, hsays, hplace⟩ := h
  exact ⟨sent, response, Client.getElem?_of_isPrefix (List.prefix_append _ _) hget, hsays, hplace⟩

end Book

/-! ### The promises and the stream -/

def State.book (bodies : List Bytes) (origins : List Nat) (s : State ρ) : Book ρ :=
  ⟨s.client.sent, bodies, origins, s.server.answered⟩

/-- A client whose HELLO was not read. -/
structure State.Young (s : State ρ) : Prop where
  output : s.server.output = []
  stage : s.client.stage ≠ .opened
  settled : ∀ promise value, (promise, .resolved value) ∉ s.client.settled
  opcode : ∀ sent ∈ s.client.sent, sent.opcode = 1

/-- `origins` names the promise of every frame that the loop took. -/
structure Account (bodies : List Bytes) (origins : List Nat) (s : State ρ) : Prop where
  lengths : bodies.length = s.client.sent.length
  places : origins.length = s.server.taken.length
  once : origins.Nodup
  requested : ∀ (index promise : Nat) (frame : Frame), origins[index]? = some promise →
    s.server.taken[index]? = some frame → (s.book bodies origins).Requested promise frame
  owed : ∀ (index promise : Nat) (frame : Frame), s.server.Owes index frame → origins[index]? = some promise →
    (s.book bodies origins).Latest frame.requestId promise
  waits : ∀ id pending, s.client.pending.lookup id = some pending →
    (s.book bodies origins).Latest id pending.promise
  flow : ∃ queued upstream responses lost,
    Flow (s.book bodies origins).Asks (s.book bodies origins).Tells s queued upstream responses lost
  settled : ∀ promise outcome, (promise, outcome) ∈ s.client.settled →
    (∃ reason, outcome = .rejected reason ∧ ∀ code message, reason ≠ .broker code message) ∨
      (s.book bodies origins).Told promise outcome
  young : s.server.loop = .hello → s.Young

section Server

variable {bodies : List Bytes} {origins : List Nat} {client : Client.State ρ} {server server' : Connection.State}
  {token : String} {connection : Nat}

/-- A step of the connection that takes nothing and answers nothing. -/
theorem Account.still (h : Account bodies origins ⟨client, server⟩) (htaken : server'.taken = server.taken)
    (hanswered : server'.answered = server.answered)
    (hflow : ∃ queued upstream responses lost, Flow (State.book bodies origins ⟨client, server⟩).Asks
      (State.book bodies origins ⟨client, server⟩).Tells ⟨client, server'⟩ queued upstream responses lost)
    (hyoung : server'.loop = .hello → State.Young ⟨client, server'⟩) : Account bodies origins ⟨client, server'⟩ := by
  have hbook : State.book bodies origins ⟨client, server'⟩ = State.book bodies origins ⟨client, server⟩ := by
    unfold State.book
    rw [hanswered]
  exact {
    lengths := h.lengths
    places := h.places.trans (congrArg List.length htaken.symm)
    once := h.once
    requested := fun index promise frame horigin hget => by
      rw [hbook]
      exact h.requested index promise frame horigin (htaken ▸ hget)
    owed := fun index promise frame howes horigin => by
      unfold Connection.State.Owes at howes
      rw [htaken, hanswered] at howes
      rw [hbook]
      exact h.owed index promise frame howes horigin
    waits := fun id pending hlookup => by
      rw [hbook]
      exact h.waits id pending hlookup
    flow := by
      rw [hbook]
      exact hflow
    settled := fun promise outcome hmem => by
      rw [hbook]
      exact h.settled promise outcome hmem
    young := hyoung }

/-- The loop takes a frame. -/
theorem Account.took (h : Account bodies origins ⟨client, server⟩) {frame : Frame} {promise : Nat}
    (hrequested : (State.book bodies origins ⟨client, server⟩).Requested promise frame)
    (hfresh : promise ∉ origins) (htaken : server'.taken = server.taken ++ [frame])
    (hanswered : server.answered ⊆ server'.answered)
    (howed : ∀ index frame', server'.Owes index frame' → server.Owes index frame' ∨
      index = server.taken.length ∧ (State.book bodies origins ⟨client, server⟩).Latest frame'.requestId promise)
    (hflow : ∃ queued upstream responses lost,
      Flow (State.book bodies (origins ++ [promise]) ⟨client, server'⟩).Asks
        (State.book bodies (origins ++ [promise]) ⟨client, server'⟩).Tells ⟨client, server'⟩ queued upstream responses
        lost)
    (hyoung : server'.loop ≠ .hello) : Account bodies (origins ++ [promise]) ⟨client, server'⟩ := by
  have hgrows : (State.book bodies origins ⟨client, server⟩).Grows
      (State.book bodies (origins ++ [promise]) ⟨client, server'⟩) :=
    ⟨rfl, rfl, List.prefix_append _ _, hanswered⟩
  have hplaces : origins.length = server.taken.length := h.places
  exact {
    lengths := h.lengths
    places := by
      dsimp only
      rw [htaken, List.length_append, List.length_append, hplaces]
      rfl
    once := h.once.append (List.nodup_singleton _) fun promise' hmem hmem' =>
      hfresh (List.mem_singleton.mp hmem' ▸ hmem)
    requested := fun index promise' frame' horigin hget => by
      dsimp only at hget
      rw [htaken] at hget
      apply hgrows.requested
      rcases Connection.getElem?_append.mp horigin with hold | ⟨rfl, rfl⟩
      · obtain hbefore | ⟨rfl, -⟩ := Connection.getElem?_append.mp hget
        · exact h.requested index promise' frame' hold hbefore
        · exact absurd (List.getElem?_eq_some_iff.mp hold).1 (hplaces ▸ lt_irrefl _)
      · rw [hplaces, List.getElem?_concat_length] at hget
        exact Option.some.inj hget ▸ hrequested
    owed := fun index promise' frame' howes horigin => by
      apply hgrows.latest
      rcases howed index frame' howes with hbefore | ⟨rfl, hlatest⟩
      · obtain hold | ⟨rfl, -⟩ := Connection.getElem?_append.mp horigin
        · exact h.owed index promise' frame' hbefore hold
        · exact absurd hbefore.lt (hplaces ▸ lt_irrefl _)
      · rw [← hplaces, List.getElem?_concat_length] at horigin
        exact Option.some.inj horigin ▸ hlatest
    waits := fun id pending hlookup => hgrows.latest (h.waits id pending hlookup)
    flow := hflow
    settled := fun promise' outcome hmem => (h.settled promise' outcome hmem).imp_right hgrows.told
    young := fun hhello => absurd hhello hyoung }

theorem Account.hello (h : Account bodies origins ⟨client, server⟩) (hinv : server.Inv token)
    (horderly : server.Orderly) (hlimit : client.settings.maxPendingRequests ≤ maxInFlight)
    (hloop : server.loop = .hello) {frame : Frame} {rest : Bytes} (hread : readFrame server.input = .frame frame rest) :
    ∃ origins', Account bodies origins' ⟨client, { server with input := rest }.greet token frame⟩ := by
  obtain ⟨queued, upstream, responses, lost, hflow⟩ := h.flow
  have hmeets : server.Meets frame .hello := ⟨rest, hread⟩
  have hop : server.Enabled 0 .hello := ⟨hloop, frame, rest, hread⟩
  obtain ⟨⟨promise, hrequested, hlatest, hfresh⟩, -⟩ := hflow.meets hinv hlimit hop hmeets
  have hopcode : frame.opcode = 1 := by
    obtain ⟨-, sent, hget, -, heq⟩ := hrequested
    rw [← heq]
    exact (h.young hloop).opcode sent (List.mem_of_getElem? hget)
  obtain ⟨later, response, hnext⟩ := hflow.hello hinv horderly hloop hread fun _ => Or.inl hopcode
  obtain ⟨later', rfl, hlater⟩ := readFrame_stream hflow.upstream_legal
    ((congrArg readFrame hflow.input.symm).trans hread)
  have hsame : later = later' := flatMap_bytes_inj hnext.upstream_legal
    (fun frame' hmem => hflow.upstream_legal frame' (List.mem_cons_of_mem _ hmem)) (hnext.input.symm.trans hlater)
  subst hsame
  refine ⟨_, h.took hrequested hfresh rfl (List.subset_append_left _ _) ?_ ⟨_, _, _, _, { hnext with
    tickets := hnext.tickets.imp (fun frame' hmem hasks => ?_) fun _ _ _ htells => ?_ }⟩ nofun⟩
  · intro index frame' howes
    obtain ⟨hindex, hget, -⟩ := howes
    have hlt := (List.getElem?_eq_some_iff.mp hget).1
    unfold Connection.State.greet at hlt
    rw [(hinv.young hloop).1] at hlt
    exact absurd (Nat.lt_one_iff.mp hlt) (Nat.one_le_iff_ne_zero.mp hindex)
  · have hne : frame'.requestId ≠ frame.requestId := by
      have hperm : (queued ++ (server.arrived ++ frame :: later)).Perm
          (frame :: (queued ++ (server.arrived ++ later))) := by
        rw [← List.append_assoc, ← List.append_assoc]
        exact List.perm_middle
      have hunique := (hflow.tickets.unique.sublist ((List.sublist_append_left _ _).map _))
      have hnodup := (hperm.map Frame.requestId).nodup_iff.mp hunique
      rw [List.map_cons, List.nodup_cons] at hnodup
      intro heq
      exact hnodup.1 (heq ▸ List.mem_map_of_mem hmem)
    exact Book.Asks.take hasks hlatest hne
  · refine Book.Grows.tells ?_ htells
    exact ⟨rfl, rfl, List.prefix_append _ _, List.subset_append_left _ _⟩

/-- The loop takes a request, for a task or to refuse it. -/
theorem accept_taken {frame : Frame} (hfree : frame.requestId ∉ server.ids) :
    (server.accept frame).taken = server.taken ++ [frame] ∧ (server.accept frame).answered = server.answered ∧
      (server.accept frame).ids = insert frame.requestId server.ids ∧
      (server.loop = .select → (server.accept frame).loop ≠ .hello) := by
  rcases Connection.State.accept_cases frame server with ⟨hmem, -⟩ | ⟨-, error, -, heq⟩ | ⟨-, -, request, -, -, heq⟩
  · exact absurd hmem hfree
  · rw [heq]
    exact ⟨rfl, rfl, rfl, fun _ => nofun⟩
  · rw [heq]
    refine ⟨rfl, rfl, rfl, fun hloop hhello => ?_⟩
    cases hloop.symm.trans hhello

theorem Account.accept (h : Account bodies origins ⟨client, server⟩) (hinv : server.Inv token)
    (hlimit : client.settings.maxPendingRequests ≤ maxInFlight) (hloop : server.loop = .select) {frame : Frame}
    (hframe : server.frames = some frame) :
    ∃ origins', Account bodies origins' ⟨client, server.accept frame⟩ := by
  obtain ⟨queued, upstream, responses, lost, hflow⟩ := h.flow
  have hmeets : server.Meets frame .accept := hframe
  have hop : server.Enabled 0 .accept := ⟨hloop, hframe ▸ rfl⟩
  obtain ⟨⟨promise, hrequested, hlatest, hfresh⟩, -, hfree, -⟩ := hflow.meets hinv hlimit hop hmeets
  obtain ⟨htaken, hanswered, hids, hhello⟩ := accept_taken hfree
  have hbook : (State.book bodies origins ⟨client, server⟩).take promise =
      State.book bodies (origins ++ [promise]) ⟨client, server.accept frame⟩ := by
    unfold State.book Book.take
    rw [hanswered]
  -- The frame itself is of the promise that is taken.
  have hbefore : Flow (fun frame' => ((State.book bodies origins ⟨client, server⟩).take promise).Asks frame' ∨
      frame'.requestId = frame.requestId) ((State.book bodies origins ⟨client, server⟩).take promise).Tells
      ⟨client, server⟩ queued upstream responses lost := { hflow with
    tickets := hflow.tickets.imp
      (fun frame' _ hasks => (em (frame'.requestId = frame.requestId)).symm.imp_left (hasks.take hlatest))
      fun _ _ _ htells => Book.grows_take.tells htells }
  have hafter := hbefore.accept hinv hloop hframe hfree
  refine ⟨_, h.took hrequested hfresh htaken (hanswered ▸ List.Subset.refl _) ?_ ⟨queued, upstream, responses, lost, ?_⟩
    (hhello hloop)⟩
  · intro index frame' howes
    refine ((hinv.owes_append hloop htaken hanswered).mp howes).imp_right ?_
    rintro ⟨rfl, rfl⟩
    exact ⟨rfl, hlatest⟩
  · rw [← hbook]
    exact { hafter with
      tickets := hafter.tickets.imp (fun frame' hmem hasks => hasks.resolve_right fun heq => by
        have hapart := hafter.tickets.apart frame' (List.mem_append_left _ hmem)
        dsimp only at hapart
        rw [hids, heq] at hapart
        exact hapart (Finset.mem_insert_self _ _)) fun _ _ _ htells => htells }

/-- A response goes to the stream. -/
theorem Account.retire (h : Account bodies origins ⟨client, server⟩) (hinv : server.Inv token)
    (horderly : server.Orderly) (hidle : server.writer = .idle) {response : Connection.Response}
    (hresponse : server.responses = some response) :
    Account bodies origins ⟨client, server.retire response⟩ := by
  obtain ⟨queued, upstream, responses, lost, hflow⟩ := h.flow
  have hgrows : (State.book bodies origins ⟨client, server⟩).Grows
      (State.book bodies origins ⟨client, server.retire response⟩) :=
    ⟨rfl, rfl, List.prefix_rfl, List.subset_append_left _ _⟩
  have hbefore : Flow (State.book bodies origins ⟨client, server.retire response⟩).Asks
      (State.book bodies origins ⟨client, server.retire response⟩).Tells ⟨client, server⟩ queued upstream responses
      lost := { hflow with
    tickets := hflow.tickets.imp (fun _ _ hasks => hasks) fun _ _ _ htells => hgrows.tells htells }
  exact {
    lengths := h.lengths
    places := h.places
    once := h.once
    requested := h.requested
    owed := fun index promise frame howes horigin =>
      h.owed index promise frame (Connection.State.owes_retire.mp howes).1 horigin
    waits := h.waits
    flow := by
      refine ⟨_, _, _, _, hbefore.retire hinv horderly hidle hresponse fun frame howes => Or.inr ?_⟩
      obtain ⟨-, -, frame', howes', hid, -⟩ := hinv.queued response hresponse
      obtain rfl := Option.some.inj (howes.2.1.symm.trans howes'.2.1)
      have hplaces : origins.length = server.taken.length := h.places
      have hlt : response.frame < origins.length := hplaces.symm ▸ howes.lt
      have horigin := List.getElem?_eq_getElem hlt
      refine ⟨response.frame, origins[response.frame], horigin, ?_, ?_⟩
      · have hanswer : response.answer.requestId = response.requestId := Frame.answer_requestId
        rw [hanswer, hid]
        exact h.owed response.frame _ frame howes horigin
      · have hbytes : response.answer.bytes = response.bytes := Frame.answer_bytes
        rw [hbytes]
        exact List.mem_append_right _ (List.mem_singleton_self _)
    settled := fun promise outcome hmem => (h.settled promise outcome hmem).imp_right hgrows.told
    young := fun hhello => by
      have hended := (horderly.early (Or.inl hhello)).2.2
      rw [hidle] at hended
      cases hended }

/-- A step of the broker. -/
theorem Account.server_step (h : Account bodies origins ⟨client, server⟩) (hinv : server.Inv token)
    (horderly : server.Orderly) (hlimit : client.settings.maxPendingRequests ≤ maxInFlight) {op : Connection.Op}
    (hlocal : ∀ bytes, op ≠ .receive bytes) (hop : server.Enabled connection op) :
    ∃ origins', Account bodies origins' ⟨client, server.next token op⟩ := by
  have hyoung : (server.next token op).loop = .hello → State.Young ⟨client, server.next token op⟩ := by
    intro hhello
    obtain ⟨hloop, houtput⟩ := horderly.hello_next hop hlocal hhello
    have hbefore := h.young hloop
    exact ⟨houtput.trans hbefore.output, hbefore.stage, hbefore.settled, hbefore.opcode⟩
  have hflow : op ≠ .hello → op ≠ .take → ∃ queued upstream responses lost,
      Flow (State.book bodies origins ⟨client, server⟩).Asks (State.book bodies origins ⟨client, server⟩).Tells
        ⟨client, server.next token op⟩ queued upstream responses lost := by
    intro hhello htake
    obtain ⟨queued, upstream, responses, lost, hflow⟩ := h.flow
    exact hflow.server_step hinv horderly hlimit hlocal hop (fun heq => absurd heq hhello) fun heq => absurd heq htake
  cases op with
  | receive bytes => exact absurd rfl (hlocal bytes)
  | hello =>
      obtain ⟨hloop, frame, rest, hread⟩ := hop
      simp only [Connection.State.next, hread]
      exact h.hello hinv horderly hlimit hloop hread
  | accept =>
      obtain ⟨frame, hframe⟩ := Option.isSome_iff_exists.mp hop.2
      simp only [Connection.State.next, hframe]
      exact h.accept hinv hlimit hop.1 hframe
  | take =>
      obtain ⟨hidle, hsome⟩ := hop
      obtain ⟨response, hresponse⟩ := Option.isSome_iff_exists.mp hsome
      simp only [Connection.State.next, hresponse]
      exact ⟨origins, h.retire hinv horderly hidle hresponse⟩
  | read =>
      have hnext := hflow (by simp) (by simp)
      obtain ⟨hreading, frame, rest, hread⟩ := hop
      simp only [Connection.State.next, hread] at hnext hyoung ⊢
      exact ⟨origins, h.still rfl rfl hnext hyoung⟩
  | _ =>
      have hquiet : Connection.State.Quiet server (server.next token _) := horderly.quiet hop fun hmoves => hmoves
      exact ⟨origins, h.still hquiet.taken hquiet.answered (hflow (by simp) (by simp)) hyoung⟩

end Server

/-! ### Steps of the client -/

section Client

variable {bodies : List Bytes} {origins : List Nat} {client client' : Client.State ρ} {server : Connection.State}
  {undefined : ρ} {rest : Bytes}

theorem State.Young.client_step (h : State.Young ⟨client, server⟩) (hclient : client.Inv) {op : Client.Op ρ}
    (hreads : State.Reads ⟨client, server⟩ op rest) (hop : client.Enabled op)
    (hnext : client.next undefined op = some client') :
    State.Young (State.deliver client' ⟨client, { server with output := rest }⟩) := by
  have hnone : Client.decode server.output = .more := by
    rw [h.output]
    rfl
  by_cases hdata : ∃ frame, op = .data frame
  · obtain ⟨frame, rfl⟩ := hdata
    cases hnone.symm.trans hreads
  by_cases hframed : op = .misframed
  · subst hframed
    cases hnone.symm.trans hreads.1
  have hnot : ∀ frame, op ≠ .data frame := fun frame heq => hdata ⟨frame, heq⟩
  have hrest : rest = server.output := by
    cases op with
    | data frame => exact absurd rfl (hnot frame)
    | misframed => exact absurd rfl hframed
    | _ => exact hreads
  obtain ⟨hstage, hsettled⟩ := Client.State.young_next hclient hop hnot hframed hnext h.stage h.settled
  refine ⟨hrest.trans h.output, hstage, hsettled, fun sent hmem => ?_⟩
  by_cases hgreet : ∃ socket, op = .greet socket
  · obtain ⟨socket, rfl⟩ := hgreet
    have hsend : Client.State.send socket 1 client.settings.hello (Client.helloParser undefined)
        { client with stage := .greeting client.sent.length } = some client' := hnext
    obtain ⟨-, -, -, id, hsent⟩ := Client.State.send_kept hsend
    have hnew : sent ∈ client'.sent := hmem
    rw [hsent] at hnew
    rcases List.mem_append.mp hnew with hold | hlast
    · exact h.opcode sent hold
    · rw [List.mem_singleton.mp hlast]
  · have hmoved := Client.State.moved_step hclient hop (fun socket heq => hgreet ⟨socket, heq⟩)
      (fun socket opcode body parse heq => by
        rw [heq] at hop
        exact h.stage hop.1) hnext
    exact h.opcode sent (hmoved.sent ▸ hmem)

/-- A step of the client that asks for nothing. -/
theorem Account.passive (h : Account bodies origins ⟨client, server⟩) (hsent : client'.sent = client.sent)
    (hpending : ∀ id pending, client'.pending.lookup id = some pending → client.pending.lookup id = some pending)
    (hsettled : ∀ promise outcome, (promise, outcome) ∈ client'.settled → (promise, outcome) ∈ client.settled ∨
      (∃ reason, outcome = .rejected reason ∧ ∀ code message, reason ≠ .broker code message) ∨
      (State.book bodies origins ⟨client, server⟩).Told promise outcome)
    (hflow : ∃ queued upstream responses lost, Flow (State.book bodies origins ⟨client, server⟩).Asks
      (State.book bodies origins ⟨client, server⟩).Tells
      (State.deliver client' ⟨client, { server with output := rest }⟩) queued upstream responses lost)
    (hyoung : server.loop = .hello → State.Young (State.deliver client' ⟨client, { server with output := rest }⟩)) :
    Account bodies origins (State.deliver client' ⟨client, { server with output := rest }⟩) := by
  have hbook : State.book bodies origins (State.deliver client' ⟨client, { server with output := rest }⟩) =
      State.book bodies origins ⟨client, server⟩ := by
    unfold State.book State.deliver
    rw [hsent]
  exact {
    lengths := h.lengths.trans (congrArg List.length hsent.symm)
    places := h.places
    once := h.once
    requested := fun index promise frame horigin hget => by
      rw [hbook]
      exact h.requested index promise frame horigin hget
    owed := fun index promise frame howes horigin => by
      rw [hbook]
      exact h.owed index promise frame howes horigin
    waits := fun id pending hlookup => by
      rw [hbook]
      exact h.waits id pending (hpending id pending hlookup)
    flow := by
      rw [hbook]
      exact hflow
    settled := fun promise outcome hmem => by
      rw [hbook]
      exact (hsettled promise outcome hmem).elim (h.settled promise outcome) id
    young := hyoung }

/-- The frame that a client reads. -/
theorem Account.data (h : Account bodies origins ⟨client, server⟩) (hclient : client.Inv) {frame : Bytes}
    (hdecode : Client.decode server.output = .frame frame rest) {promise : Nat} {outcome : Settlement ρ}
    (hmem : (promise, outcome) ∈ (client.data frame).settled) : (promise, outcome) ∈ client.settled ∨
      (∃ reason, outcome = .rejected reason ∧ ∀ code message, reason ≠ .broker code message) ∨
      (State.book bodies origins ⟨client, server⟩).Told promise outcome := by
  cases hclosed : client.closed with
  | true =>
      unfold Client.State.data at hmem
      rw [if_pos hclosed] at hmem
      exact Or.inl hmem
  | false =>
      rcases Client.State.data_cases hclient.toLedger hclosed frame with
        ⟨pending, outcome', hanswers, heq⟩ | ⟨-, message, heq⟩
      · rw [heq] at hmem
        obtain hold | hnew := List.mem_append.mp hmem
        · exact Or.inl hold
        obtain ⟨rfl, rfl⟩ := Prod.mk.inj (List.mem_singleton.mp hnew)
        obtain ⟨hlookup, hsays⟩ := hanswers
        obtain ⟨-, -, since, -, hget⟩ := hclient.known _ pending hlookup
        obtain ⟨queued, upstream, responses, lost, hflow⟩ := h.flow
        obtain ⟨pending', hlookup', -, htells⟩ := hflow.matched hclosed hdecode
        obtain rfl := Option.some.inj (hlookup.symm.trans hlookup')
        refine Or.inr (Or.inr ⟨_, ⟨Client.frameOpcode frame, Client.frameId frame, frame.drop 5⟩, hget, ?_, ?_⟩)
        · rcases hsays with ⟨herror, reason, hparse, rfl⟩ | ⟨-, hopcode, value, hparse, rfl⟩
          · exact ⟨herror, hparse⟩
          · exact ⟨hopcode, hparse⟩
        · refine htells.imp_right fun hsome => ?_
          obtain ⟨index, promise', horigin, hlatest, hanswered⟩ := hsome
          obtain rfl := hlatest.unique (h.waits _ pending hlookup)
          exact ⟨index, horigin, hanswered⟩
      · rw [heq] at hmem
        obtain hold | ⟨hnew, -⟩ := Client.State.fail_settled hmem
        · exact Or.inl hold
        · exact Or.inr (Or.inl ⟨_, hnew, nofun⟩)

/-- A promise that has a frame was given out. -/
theorem Account.origin_lt (h : Account bodies origins ⟨client, server⟩) {promise : Nat} (hmem : promise ∈ origins) :
    promise < client.sent.length := by
  obtain ⟨index, hlt, heq⟩ := List.mem_iff_getElem.mp hmem
  have hplace : index < server.taken.length := h.places ▸ hlt
  obtain ⟨hbody, -⟩ := h.requested index promise _ (heq ▸ List.getElem?_eq_getElem hlt)
    (List.getElem?_eq_getElem hplace)
  exact h.lengths ▸ (List.getElem?_eq_some_iff.mp hbody).1

/-- Nothing in flight has the identifier that `send` finds. -/
theorem Account.unused (h : Account bodies origins ⟨client, server⟩)
    (hfirst : 1 ≤ client.nextRequestId ∧ client.nextRequestId ≤ 0xffffffff)
    (hopen : client.closed = false) {free : Nat}
    (hsearch : Client.searchId client.pending (client.pending.size + 1) client.nextRequestId = some free) :
    (∀ id pending, client.pending.lookup id = some pending → free ≠ id) ∧
    (∀ index frame, server.Owes index frame → free ≠ frame.requestId) ∧
    ∀ {queued upstream responses lost} {P : Frame → Prop} {R : Nat → Frame → Prop},
      Flow P R ⟨client, server⟩ queued upstream responses lost →
      (∀ frame ∈ queued ++ (server.arrived ++ upstream), free ≠ frame.requestId) ∧
        ∀ frame ∈ responses, free ≠ frame.requestId := by
  have hfree := (Client.searchId_some hfirst.1 hfirst.2 hsearch).1
  have hwaits : ∀ {id opcode}, Waits client id opcode → free ≠ id := fun hwaits heq =>
    hfree (heq ▸ Tickets.Waits.mem hwaits)
  refine ⟨fun id pending hlookup heq => ?_, fun index frame howes => ?_, fun hflow => ⟨?_, ?_⟩⟩
  · exact hfree (heq ▸ AList.lookup_isSome.mp (hlookup ▸ rfl))
  · obtain ⟨queued, upstream, responses, lost, hflow⟩ := h.flow
    exact hwaits (hflow.tickets.owed hopen index frame howes)
  · exact fun frame hmem => hwaits (hflow.tickets.asked hopen frame hmem)
  · intro frame hmem
    obtain ⟨opcode, hwait, -⟩ := hflow.tickets.answered hopen frame hmem
    exact hwaits hwait

/-- A step of the client that gives out a promise. -/
theorem Account.issue (h : Account bodies origins ⟨client, server⟩) (hclient' : client'.Inv) {entry : Sent ρ}
    {body : Bytes} (hsent : client'.sent = client.sent ++ [entry])
    (hpending : ∀ id pending, client'.pending.lookup id = some pending →
      client.pending.lookup id = some pending ∨ pending.promise = client.sent.length)
    (hapart : ∀ id pending, client.pending.lookup id = some pending → entry.id ≠ some id)
    (howes : ∀ index frame, server.Owes index frame → entry.id ≠ some frame.requestId)
    (hsettled : ∀ promise outcome, (promise, outcome) ∈ client'.settled → (promise, outcome) ∈ client.settled ∨
      ∃ reason, outcome = .rejected reason ∧ ∀ code message, reason ≠ .broker code message)
    (hflow : ∃ queued upstream responses lost,
      Flow ((State.book bodies origins ⟨client, server⟩).issue entry body).Asks
        ((State.book bodies origins ⟨client, server⟩).issue entry body).Tells (State.deliver client' ⟨client, server⟩)
        queued upstream responses lost)
    (hyoung : server.loop = .hello → State.Young (State.deliver client' ⟨client, server⟩)) :
    Account (bodies ++ [body]) origins (State.deliver client' ⟨client, server⟩) := by
  have hbook : State.book (bodies ++ [body]) origins (State.deliver client' ⟨client, server⟩) =
      (State.book bodies origins ⟨client, server⟩).issue entry body := by
    unfold State.book State.deliver Book.issue
    rw [hsent]
  exact {
    lengths := by
      have hlengths := h.lengths
      unfold State.deliver
      dsimp only at hlengths ⊢
      rw [hsent, List.length_append, List.length_append, hlengths]
      rfl
    places := h.places
    once := h.once
    requested := fun index promise frame horigin hget => by
      rw [hbook]
      exact (h.requested index promise frame horigin hget).issue
    owed := fun index promise frame hindex horigin => by
      rw [hbook]
      exact (h.owed index promise frame hindex horigin).issue (howes index frame hindex)
    waits := fun id pending hlookup => by
      rw [hbook]
      rcases hpending id pending hlookup with hold | hnew
      · exact (h.waits id pending hold).issue (hapart id pending hold)
      · obtain ⟨-, -, since, -, hget⟩ := hclient'.known id pending hlookup
        rw [hsent, hnew, List.getElem?_concat_length] at hget
        rw [hnew]
        exact Book.latest_issue (congrArg Sent.id (Option.some.inj hget))
    flow := by
      rw [hbook]
      exact hflow
    settled := fun promise outcome hmem => by
      rw [hbook]
      exact (hsettled promise outcome hmem).elim
        (fun hold => (h.settled promise outcome hold).imp_right Book.Told.issue) Or.inl
    young := hyoung }

/-- What is in flight has other identifiers. -/
theorem flow_issue {b : Book ρ} {s : State ρ} {queued upstream responses : List Frame} {lost : Bytes}
    (h : Flow b.Asks b.Tells s queued upstream responses lost) (entry : Sent ρ) (body : Bytes)
    (hrequests : ∀ frame ∈ queued ++ (s.server.arrived ++ upstream), entry.id ≠ some frame.requestId)
    (hresponses : ∀ frame ∈ responses, entry.id ≠ some frame.requestId) :
    Flow (b.issue entry body).Asks (b.issue entry body).Tells s queued upstream responses lost := { h with
  tickets := h.tickets.imp (fun frame hmem hasks => hasks.issue (hrequests frame hmem))
    fun frame hmem _ htells => htells.issue (hresponses frame hmem) }

/-- A request is asked for. -/
theorem Account.send (h : Account bodies origins ⟨client, server⟩) (hclient : client.Inv) (hsending : client.Sending)
    (hids : ∀ id ∈ server.ids, ∃ index frame, server.Owes index frame ∧ frame.requestId = id)
    {socket : Client.Socket} {opcode : Nat} {body : Bytes} {parse : Parser ρ} (hopcode : opcode < 256)
    (hsend : client.send socket opcode body parse = some client')
    (hyoung : server.loop = .hello → State.Young (State.deliver client' ⟨client, server⟩)) :
    Account (bodies ++ [body]) origins (State.deliver client' ⟨client, server⟩) := by
  have hsettled := (Client.State.send_mild hclient hsending hsend).settled
  have hpending : ∀ id pending, client'.pending.lookup id = some pending →
      client.pending.lookup id = some pending ∨ pending.promise = client.sent.length :=
    fun _ _ hlookup => Client.State.send_pending hsend hlookup
  obtain ⟨queued, upstream, responses, lost, hflow⟩ := h.flow
  rcases Client.State.send_cases hsend with ⟨failure, next, rfl⟩ | ⟨free, bytes, hopen, hsearch, hframe, heq⟩
  · refine h.issue (hclient.send hsending hsend) rfl hpending (fun _ _ _ => nofun) (fun _ _ _ => nofun) hsettled
      ⟨queued, upstream, responses, lost, ?_⟩ hyoung
    have hbefore := flow_issue hflow ⟨none, opcode, parse, client.received.length⟩ body (fun _ _ => nofun)
      fun _ _ => nofun
    refine Flow.deliver (hbefore.of_client ?_ ?_ ?_) ?_
    · rfl
    · rfl
    · exact fun hopen => ⟨hopen, rfl⟩
    · rfl
  · obtain ⟨hwaits, howes, hflight⟩ := h.unused hclient.next hopen hsearch
    obtain ⟨hrequests, hresponses⟩ := hflight hflow
    have hne : ∀ {id}, free ≠ id → (some free : Option Nat) ≠ some id := fun hne heq => hne (Option.some.inj heq)
    have hsent : client'.sent = client.sent ++ [⟨some free, opcode, parse, client.received.length⟩] := by
      rw [heq]
      exact (Client.State.flush_kept socket _).2.2.1
    refine h.issue (hclient.send hsending hsend) hsent hpending
      (fun id pending hlookup => hne (hwaits id pending hlookup))
      (fun index frame hindex => hne (howes index frame hindex)) hsettled ?_ hyoung
    have hbefore := flow_issue hflow ⟨some free, opcode, parse, client.received.length⟩ body
      (fun frame hmem => hne (hrequests frame hmem)) fun frame hmem => hne (hresponses frame hmem)
    obtain ⟨queued', upstream', hafter⟩ := hbefore.send hclient.next hids hopcode
      (fun id hid => by
        obtain rfl := Option.some.inj (hsearch.symm.trans hid)
        have hlengths : bodies.length = client.sent.length := h.lengths
        have hbody : (bodies ++ [body])[client.sent.length]? = some body := by
          rw [← hlengths]
          exact List.getElem?_concat_length
        exact ⟨client.sent.length, ⟨hbody, _, List.getElem?_concat_length, rfl, rfl⟩, Book.latest_issue rfl,
          fun hmem => absurd (h.origin_lt hmem) (lt_irrefl _)⟩) hsend
    exact ⟨queued', upstream', responses, lost, hafter⟩

/-- A step of the client. -/
theorem Account.client_step (h : Account bodies origins ⟨client, server⟩) (hclient : client.Inv)
    (hids : ∀ id, id ∈ server.ids ↔ ∃ index frame, server.Owes index frame ∧ frame.requestId = id)
    {op : Client.Op ρ} (hreads : State.Reads ⟨client, server⟩ op rest) (hop : client.Enabled op)
    (hnext : client.next undefined op = some client') :
    Account (bodies ++ asked ⟨client, server⟩ (.client op)) origins
      (State.deliver client' ⟨client, { server with output := rest }⟩) := by
  have hyoung : server.loop = .hello → State.Young (State.deliver client' ⟨client, { server with output := rest }⟩) :=
    fun hloop => (h.young hloop).client_step hclient hreads hop hnext
  by_cases hgreet : ∃ socket, op = .greet socket
  · obtain ⟨socket, rfl⟩ := hgreet
    obtain rfl := hreads
    have hstage : client.stage = .connected := hop
    have hsent : client.sent = [] := hclient.young (Or.inr hstage)
    have hgreeting : { client with stage := .greeting client.sent.length }.Inv := { hclient with
      reason := fun code message hreason => by
        have hrefused := (hclient.reason code message hreason).1
        rw [hstage] at hrefused
        cases hrefused
      young := nofun
      greeting := fun promise hgreet => by
        dsimp only at hgreet ⊢
        rw [hsent] at hgreet ⊢
        exact ⟨(Client.Stage.greeting.inj hgreet).symm, Nat.zero_le _⟩ }
    have hbefore : Account bodies origins ⟨{ client with stage := .greeting client.sent.length }, server⟩ := { h with
      flow := by
        obtain ⟨queued, upstream, responses, lost, hflow⟩ := h.flow
        exact ⟨queued, upstream, responses, lost, { hflow with
          tickets := hflow.tickets.of_client rfl fun hopen => ⟨hopen, rfl⟩ }⟩
      young := fun hloop => { h.young hloop with stage := nofun } }
    exact hbefore.send hgreeting (Or.inr ⟨_, rfl, hsent⟩) (fun id hmem => (hids id).mp hmem) (by decide) hnext hyoung
  by_cases hsends : ∃ socket opcode body parse, op = .send socket opcode body parse
  · obtain ⟨socket, opcode, body, parse, rfl⟩ := hsends
    obtain rfl := hreads
    exact h.send hclient (Or.inl hop.1) (fun id hmem => (hids id).mp hmem) hop.2 hnext hyoung
  have hmoved := Client.State.moved_step hclient hop (fun socket heq => hgreet ⟨socket, heq⟩)
    (fun socket opcode body parse heq => hsends ⟨socket, opcode, body, parse, heq⟩) hnext
  have hnone : asked ⟨client, server⟩ (.client op) = [] := by
    cases op with
    | greet socket => exact absurd ⟨socket, rfl⟩ hgreet
    | send socket opcode body parse => exact absurd ⟨socket, opcode, body, parse, rfl⟩ hsends
    | _ => rfl
  rw [hnone, List.append_nil]
  refine h.passive hmoved.sent (fun id pending hlookup => ?_) (fun promise outcome hmem => ?_) ?_ hyoung
  · cases hclosed : client'.closed with
    | true =>
        rw [((hclient.step hop hnext).quiet hclosed).1] at hlookup
        cases hlookup
    | false => exact (hmoved.passive hclosed).pending id pending hlookup
  · by_cases hdata : ∃ frame, op = .data frame
    · obtain ⟨frame, rfl⟩ := hdata
      rw [← Option.some.inj hnext] at hmem
      exact h.data hclient hreads hmem
    by_cases hframed : op = .misframed
    · subst hframed
      rw [← Option.some.inj hnext] at hmem
      obtain hold | ⟨hnew, -⟩ := Client.State.fail_settled hmem
      · exact Or.inl hold
      · exact Or.inr (Or.inl ⟨_, hnew, nofun⟩)
    · have hmild := Client.State.next_mild hclient hop (fun frame heq => hdata ⟨frame, heq⟩) hframed hnext
      exact (hmild.settled promise outcome hmem).imp_right Or.inl
  · obtain ⟨queued, upstream, responses, lost, hflow⟩ := h.flow
    apply hflow.client_step hclient hids hreads hop hnext
    intro opcode body id hsent _
    cases op with
    | greet socket => exact absurd ⟨socket, rfl⟩ hgreet
    | send socket opcode body parse => exact absurd ⟨socket, opcode, body, parse, rfl⟩ hsends
    | _ => exact hsent.elim

end Client

/-! ### Runs -/

theorem start_account (checked : Client.Settings) : Account [] [] (⟨.new checked, .new⟩ : State ρ) where
  lengths := rfl
  places := rfl
  once := List.nodup_nil
  requested := nofun
  owed := nofun
  waits := nofun
  flow := ⟨[], [], [], [], start_flow _ _ checked⟩
  settled := nofun
  young _ := ⟨rfl, nofun, nofun, nofun⟩

theorem account {undefined : ρ} {options : Client.ConnectOptions} {token : String} {connection : Nat}
    {s : State ρ × List Bytes} (h : (recorded undefined options token connection).Reachable s) :
    ∃ origins, Account s.2 origins s.1 := by
  refine h.invariant (P := fun s => ∃ origins, Account s.2 origins s.1) ?_ ?_
  · rintro ⟨s, bodies⟩ ⟨⟨checked, -, -, rfl⟩, rfl⟩
    exact ⟨[], start_account checked⟩
  · rintro ⟨s, bodies⟩ op ⟨t, bodies'⟩ hreach ⟨origins, hs⟩ ⟨hstep, rfl⟩
    have hinv := inv hreach.of_observed
    cases op with
    | client op =>
        obtain ⟨rest, client, hreads, hop, hnext, rfl⟩ := hstep
        exact ⟨origins, hs.client_step hinv.client hinv.ids hreads hop hnext⟩
    | server op =>
        obtain ⟨hlocal, hop, rfl⟩ := hstep
        have hbodies : asked s (.server op) = [] := rfl
        dsimp only
        rw [hbodies, List.append_nil]
        exact hs.server_step hinv.server hinv.orderly hinv.limit hlocal hop

theorem dispatched_once {undefined : ρ} {options : Client.ConnectOptions} {token : String} {connection : Nat}
    {s : State ρ}
    (h : (machine undefined options token connection).Reachable s) : (s.server.dispatched.map Prod.fst).Nodup := by
  apply h.invariant
  · rintro s ⟨checked, -, -, rfl⟩
    exact List.nodup_nil
  · intro s op t hreach hs hstep
    cases op with
    | client op =>
        obtain ⟨rest, client, -, -, -, rfl⟩ := hstep
        exact hs
    | server op =>
        obtain ⟨-, hop, rfl⟩ := hstep
        exact Connection.State.dispatched_nodup (inv hreach).server hop hs

/-- Requests, operations and promises, where `origins` names the promise of every frame that the loop took. -/
structure State.Matched (bodies : List Bytes) (origins : List Nat) (s : State ρ) : Prop where
  places : origins.length = s.server.taken.length
  /-- The loop takes the frame of a promise once. -/
  once : origins.Nodup
  /-- The frame has the identifier, the opcode and the body that its promise was asked for with. -/
  requested : ∀ (index promise : Nat) (frame : Frame), origins[index]? = some promise →
    s.server.taken[index]? = some frame → bodies[promise]? = some frame.body ∧
      ∃ sent, s.client.sent[promise]? = some sent ∧ sent.id = some frame.requestId ∧ sent.opcode = frame.opcode
  /-- What is dispatched is what a promise was asked for with. -/
  dispatched : ∀ index request, (index, request) ∈ s.server.dispatched → ∃ promise sent body,
    origins[index]? = some promise ∧ s.client.sent[promise]? = some sent ∧ bodies[promise]? = some body ∧
      decodeRequest sent.opcode body = .ok request
  performed : (s.server.dispatched.map Prod.fst).Nodup
  /-- A frame is answered once. -/
  answered : (s.server.answered.map Prod.fst).Nodup
  /-- The answer to HELLO apart, the broker settles a promise with the response to the frame of that promise. -/
  settled : ∀ promise outcome, (promise, outcome) ∈ s.client.settled →
    (∃ reason, outcome = .rejected reason ∧ ∀ code message, reason ≠ .broker code message) ∨
      ∃ sent response, s.client.sent[promise]? = some sent ∧ Says sent.opcode sent.parse response outcome ∧
        (sent.opcode = 1 ∨ ∃ index, origins[index]? = some promise ∧ (index, response.bytes) ∈ s.server.answered)

theorem Account.matched {bodies : List Bytes} {origins : List Nat} {s : State ρ} (h : Account bodies origins s)
    {token : String} (hinv : s.server.Inv token) (hperformed : (s.server.dispatched.map Prod.fst).Nodup) :
    s.Matched bodies origins where
  places := h.places
  once := h.once
  requested := h.requested
  performed := hperformed
  dispatched index request hmem := by
    obtain ⟨-, frame, hget, hdecode⟩ := hinv.dispatched index request hmem
    have hlt : index < origins.length := h.places ▸ (List.getElem?_eq_some_iff.mp hget).1
    have horigin := List.getElem?_eq_getElem hlt
    obtain ⟨hbody, sent, hsent, -, hopcode⟩ := h.requested index _ frame horigin hget
    exact ⟨_, sent, frame.body, horigin, hsent, hbody, hopcode ▸ hdecode⟩
  answered := hinv.once
  settled := h.settled

/-- **Every promise gets the response to its own request.** In every run of a client within the limit and its
connection, whatever is reused, reordered, delayed or lost: the frames that the broker takes are those of different
promises, the operations that it performs are what these were asked for with, each once, and what it settles a promise
with is its one response to the frame of that promise. -/
theorem promises_matched {undefined : ρ} {options : Client.ConnectOptions} {token : String} {connection : Nat} {s : State ρ}
    {bodies : List Bytes} (h : (recorded undefined options token connection).Reachable (s, bodies)) :
    ∃ origins, s.Matched bodies origins := by
  obtain ⟨origins, haccount⟩ := account h
  exact ⟨origins, haccount.matched (inv h.of_observed).server (dispatched_once h.of_observed)⟩

theorem promises_matched_pinged : (1, .resolved ()) ∈ Sample.pinged.1.client.settled ∧
    ∃ origins, Sample.pinged.1.Matched [[0, 1, 0, 0], []] origins :=
  ⟨Sample.resolved.2, promises_matched Sample.pinged_reachable⟩

end VeloBus.Link
