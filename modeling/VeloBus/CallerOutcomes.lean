import VeloBus.CallerCalls
import VeloBus.ClientReplies

/-! What a settled promise of a request says of the worker. A promise is resolved with what a worker completed the call
with that the promise was made for; the rejections tell how far the call came. -/

namespace VeloBus.Caller

variable {ρ : Type}

/-! ### From a response to a promise -/

/-- A promise that is settled with a result. -/
def Settles (parse : Client.Parser ρ) (outcome : Client.Settlement ρ) : Except Error Bytes → Prop
  | .ok body => ∃ value, outcome = .resolved value ∧ parse.run body = .ok value
  | .error error => outcome = .rejected (.broker error.code error.message)

/-- What makes a result arrive as it is. -/
def Travels : Except Error Bytes → Prop
  | .ok body => body.length ≤ maxFrame - 5
  | .error error => Connection.Arrives error

theorem envelope_parts {opcode opcode' id id' : Nat} {body body' : Bytes}
    (h : envelope opcode id body = envelope opcode' id' body') :
    Bytes.toBe 1 opcode = Bytes.toBe 1 opcode' ∧ body = body' := by
  have hdrop : (Frame.mk opcode id body).bytes.drop 4 = (Frame.mk opcode' id' body').bytes.drop 4 := congrArg _ h
  rw [Client.drop_bytes, Client.drop_bytes] at hdrop
  obtain ⟨hopcode, hrest⟩ := List.append_inj hdrop (by rw [Bytes.length_toBe, Bytes.length_toBe])
  exact ⟨hopcode, (List.append_inj hrest (by rw [Bytes.length_toBe, Bytes.length_toBe])).2⟩

/-- The response with a result settles the promise with it. -/
theorem settles_of_response {opcode id : Nat} {parse : Client.Parser ρ} {response : Frame}
    {outcome : Client.Settlement ρ} {result : Except Error Bytes} (hopcode : opcode < 127)
    (htells : Link.Says opcode parse response outcome) (htravels : Travels result)
    (hbytes : response.bytes = responseFrame (Connection.response opcode result).1 id
      (Connection.response opcode result).2) : Settles parse outcome result := by
  have happart : Bytes.toBe 1 (opcode ||| 128) ≠ Bytes.toBe 1 255 :=
    (by decide : ∀ opcode < 127, Bytes.toBe 1 (opcode ||| 128) ≠ Bytes.toBe 1 255) opcode hopcode
  cases result with
  | ok body =>
      rw [Connection.response, responseFrame_of_fits htravels] at hbytes
      obtain ⟨hsame, hbody⟩ := envelope_parts hbytes
      cases outcome with
      | resolved value => exact ⟨value, rfl, hbody ▸ htells.2⟩
      | rejected reason =>
          rw [htells.1] at hsame
          exact absurd hsame.symm happart
  | error error =>
      obtain ⟨hcode, hmessage, -⟩ := htravels
      have hfits : (errorBody error).length ≤ maxFrame - 5 := by
        have hlength : (errorBody error).length = 2 + (2 + error.message.utf8ByteSize) := by
          simp only [errorBody, putString, List.length_append, Bytes.length_toBe, Bytes.length_utf8]
        unfold maxFrame
        omega
      rw [Connection.response, responseFrame_of_fits hfits] at hbytes
      obtain ⟨hsame, hbody⟩ := envelope_parts hbytes
      cases outcome with
      | resolved value =>
          rw [htells.1] at hsame
          exact absurd hsame happart
      | rejected reason =>
          have hparse := htells.2
          rw [hbody, Client.parseError_errorBody hcode hmessage] at hparse
          exact congrArg _ (Except.ok.inj hparse).symm

/-! ### What a promise says -/

/-- The call that was made for a promise. -/
def History.Made (history : History) (origins : List Nat) (promise id : Nat) : Prop :=
  ∃ index, origins[index]? = some promise ∧ history.calls.lookup index = some id

namespace State

/-- No error of a call: not what a worker said, no deadline and no worker lost. -/
def Bare (error : Error) : Prop := error.code ≠ Code.handlerError ∧ error.code ≠ Code.deadlineExceeded ∧
  error ∉ [Rpc.workerLostError, Rpc.lastWorkerLostError, channelClosedError]

instance (error : Error) : Decidable (Bare error) := inferInstanceAs (Decidable (_ ∧ _))

/-- What an error of the broker says of the request of a promise. -/
inductive Reason (s : State ρ) (history : History) (origins : List Nat) (promise : Nat) : Error → Prop where
  /-- A worker that had the job failed it in time, and this is what it said. -/
  | handler {id : Nat} {report : Rpc.Report} {message : String} (hmade : history.Made origins promise id)
      (h : s.sys.Completes history.reports id report) (hfailed : report.failed = true)
      (hmessage : Bytes.utf8 message = report.payload) : Reason s history origins promise ⟨Code.handlerError, message⟩
  | deadline {id : Nat} {admission : Rpc.Admission} (hmade : history.Made origins promise id)
      (hadmitted : s.sys.admitted.lookup id = some admission) (htime : admission.deadline ≤ s.sys.clock) :
      Reason s history origins promise Rpc.deadlineError
  | workerLost {id worker : Nat} (hmade : history.Made origins promise id) (hhanded : s.sys.Handed worker id)
      (hgone : worker ∉ s.sys.rpc.connections) : Reason s history origins promise Rpc.workerLostError
  /-- No worker had the job, and none will have it. -/
  | lastWorkerLost {id : Nat} (hmade : history.Made origins promise id) (hover : s.sys.Over id)
      (hnever : ∀ worker, ¬s.sys.Handed worker id) : Reason s history origins promise Rpc.lastWorkerLostError
  | closed (h : s.link.server.loop = .returned) : Reason s history origins promise channelClosedError
  /-- No call was made. -/
  | uncalled {error : Error} (hnone : ∀ id, ¬history.Made origins promise id) (hbare : Bare error) :
      Reason s history origins promise error

/-- What a settled promise of a request says. -/
def Answers (s : State Cluster.Reply) (history : History) (origins : List Nat) (promise : Nat)
    (parse : Client.Parser Cluster.Reply) : Client.Settlement Cluster.Reply → Prop
  | .resolved value => ∃ id report, history.Made origins promise id ∧ s.sys.Completes history.reports id report ∧
    report.failed = false ∧ parse.run (Rpc.replyBody report.payload) = .ok value ∧
    (parse = Cluster.responseParser → value = some report.payload)
  | .rejected (.broker code message) => s.Reason history origins promise ⟨code, message⟩
  | .rejected _ => True

/-- The calls of a caller and its promises. -/
structure Faithful (connection : Nat) (s : State Cluster.Reply) (history : History) (origins : List Nat) : Prop where
  /-- Every call of the caller is what one promise was asked for with. -/
  called : ∀ id admission, s.sys.admitted.lookup id = some admission → admission.caller = connection →
    ∃ promise sent body, history.Made origins promise id ∧ s.link.client.sent[promise]? = some sent ∧
      history.bodies[promise]? = some body ∧
      decodeRequest sent.opcode body = .ok (.rpc admission.route admission.timeoutMs admission.payload)
  /-- A promise has one call at most, and a call one promise. -/
  apart : ∀ promise promise' id id', history.Made origins promise id → history.Made origins promise' id' →
    (promise = promise' ↔ id = id')
  /-- A call is handed out once at most, with the payload it was made with, and completed once at most. -/
  handed : (s.sys.dispatched.map fun dispatch => dispatch.job.callId).Nodup ∧ s.sys.Sourced
  completed : (history.reports.map Rpc.Report.id).Nodup
  settled : ∀ promise sent outcome, (promise, outcome) ∈ s.link.client.settled →
    s.link.client.sent[promise]? = some sent → sent.opcode = 7 → s.Answers history origins promise sent.parse outcome
  /-- A wait that is over is never in the way of the response. -/
  returns : ∀ index id reply, s.waits.lookup index = some (.replied id reply) →
    s.link.server.Enabled connection (.finish index (reply.map Rpc.replyBody))

/-! ### Replies -/

section Replies

variable {s : State ρ} {history : History} {id : Nat} {reply : Rpc.Reply}

/-- A failed COMPLETE that comes before a deadline. -/
theorem failed_completion (payload : Bytes) :
    Rpc.State.completion ⟨0, "", none, 1, [], true, 0⟩ true payload 0 =
      .error ⟨Code.handlerError, Bytes.fromUtf8Lossy payload⟩ := by
  simp [Rpc.State.completion]

theorem Verdict.travels (h : s.Verdict history id reply) : Travels (reply.map Rpc.replyBody) := by
  rcases h with hvouched | ⟨rfl, -⟩
  · cases hvouched with
    | @success report h hfailed =>
        have hpayload := h.legal.2.1
        change (Rpc.replyBody report.payload).length ≤ maxFrame - 5
        unfold Rpc.replyBody
        rw [List.length_append, Bytes.length_toBe]
        unfold maxPayload at hpayload
        unfold maxFrame
        omega
    | @failure report h hfailed =>
        have hlegal := h.legal
        rw [hfailed] at hlegal
        exact (Connection.completion_arrives hlegal (failed_completion report.payload)).1
    | late => exact Connection.ticket_arrives (by decide)
    | workerLost => exact Connection.ticket_arrives (by decide)
    | lastWorkerLost => exact Connection.ticket_arrives (by decide)
  · exact Connection.ticket_arrives (by decide)

theorem Verdict.dispatchError (h : s.Verdict history id reply) {error : Error} (herror : reply = .error error)
    (connection : Nat) (route : String) (timeoutMs : Nat) (payload : Bytes) :
    Connection.DispatchError connection (.rpc route timeoutMs payload) error := by
  subst herror
  rcases h with hvouched | ⟨heq, -⟩
  · cases hvouched with
    | @failure report h hfailed => exact Or.inr (Or.inl ⟨_, _, _, _, failed_completion report.payload⟩)
    | late => exact Or.inr (Or.inr (by simp))
    | workerLost => exact Or.inr (Or.inr (by simp))
    | lastWorkerLost => exact Or.inr (Or.inr (by simp))
  · rw [Except.error.inj heq]
    exact Or.inr (Or.inr (by simp [channelClosedError]))

theorem Verdict.reason (h : s.Verdict history id reply) {error : Error} (herror : reply = .error error)
    {origins : List Nat} {promise : Nat} (hmade : history.Made origins promise id) :
    s.Reason history origins promise error := by
  subst herror
  rcases h with hvouched | ⟨heq, hreturned⟩
  · cases hvouched with
    | @failure report h hfailed =>
        have hlegal := h.legal
        rw [hfailed] at hlegal
        have htext := (Connection.completion_arrives hlegal (failed_completion report.payload)).2 rfl
        exact .handler hmade h hfailed htext.2
    | late hadmitted htime => exact .deadline hmade hadmitted htime
    | workerLost hhanded hgone => exact .workerLost hmade hhanded hgone
    | lastWorkerLost hover hnever => exact .lastWorkerLost hmade hover hnever
  · rw [Except.error.inj heq]
    exact .closed hreturned

theorem Outcome.travels {index : Nat} {result : Except Error Bytes} (h : s.Outcome history index result) :
    Travels result := by
  rcases h with ⟨-, error, rfl, hreason⟩ | ⟨id, reply, -, rfl, hverdict⟩
  · apply Connection.scheduler_arrives
    rcases hreason with hmem | ⟨rfl, -⟩
    · exact (by decide : ∀ error ∈ admissionErrors, error ∈ Connection.schedulerErrors) error hmem
    · decide
  · exact hverdict.travels

end Replies

/-- A promise that no task got a call for. -/
theorem uncalled {history : History} {origins : List Nat} {index promise : Nat} (hnodup : origins.Nodup)
    (horigin : origins[index]? = some promise) (hnone : history.calls.lookup index = none) (id : Nat) :
    ¬history.Made origins promise id := by
  rintro ⟨index', horigin', hcall⟩
  obtain rfl : index = index' :=
    (List.getElem?_inj (List.getElem?_eq_some_iff.mp horigin).1 hnodup).mp (horigin.trans horigin'.symm)
  cases hnone.symm.trans hcall

theorem responseParser_replyBody {payload : Bytes} (h : payload.length ≤ maxPayload) :
    Cluster.responseParser.run (Rpc.replyBody payload) = .ok (some payload) := by
  have hread := Client.Reader.payload_append h []
  rw [List.append_nil] at hread
  simp only [Cluster.responseParser, Rpc.replyBody, hread]
  rfl

section Answers

variable {s : State Cluster.Reply} {history : History} {origins : List Nat} {index promise : Nat}
  {parse : Client.Parser Cluster.Reply} {outcome : Client.Settlement Cluster.Reply} {result : Except Error Bytes}
  (hnodup : origins.Nodup) (horigin : origins[index]? = some promise)

include hnodup horigin

/-- The operation of a request ended, and the client has its response. -/
theorem Outcome.answers (h : s.Outcome history index result) (hsettles : Settles parse outcome result) :
    s.Answers history origins promise parse outcome := by
  rcases h with ⟨hnone, error, rfl, hreason⟩ | ⟨id, reply, hcall, rfl, hverdict⟩
  · obtain rfl : outcome = .rejected (.broker error.code error.message) := hsettles
    refine .uncalled (uncalled hnodup horigin hnone) ?_
    rcases hreason with hmem | ⟨rfl, -⟩
    · exact (by decide : ∀ error ∈ admissionErrors, Bare error) error hmem
    · decide
  · have hmade : history.Made origins promise id := ⟨index, horigin, hcall⟩
    cases reply with
    | ok payload =>
        obtain ⟨value, rfl, hparse⟩ := hsettles
        rcases hverdict with hvouched | ⟨heq, -⟩
        · cases hvouched with
          | @success report h hfailed =>
              refine ⟨id, report, hmade, h, hfailed, hparse, fun hread => ?_⟩
              rw [hread] at hparse
              exact Except.ok.inj (hparse.symm.trans (responseParser_replyBody h.legal.2.1))
        · cases heq
    | error error =>
        obtain rfl : outcome = .rejected (.broker error.code error.message) := hsettles
        exact hverdict.reason rfl hmade

/-- The broker refused the frame, or took it for a HELLO. -/
theorem answers_of_refusal {error : Error} (hnone : history.calls.lookup index = none)
    (hbare : Bare error) (hsettles : Settles parse outcome (.error error)) :
    s.Answers history origins promise parse outcome := by
  obtain rfl : outcome = .rejected (.broker error.code error.message) := hsettles
  exact .uncalled (uncalled hnodup horigin hnone) hbare

end Answers

end State

/-! ### Refusals of the connection -/

/-- What the decoder and the loop refuse a request with is not what a worker or a deadline does. -/
theorem decode_bare {opcode : Nat} {body : Bytes} {error : Error} (h : decodeRequest opcode body = .error error) :
    State.Bare error :=
  (by decide : ∀ error ∈ Connection.decodeErrors, State.Bare error) error
    (Connection.decodeRequest_decodes opcode body error h)

theorem refuses_bare {frame : Frame} {error : Error} (h : Connection.State.Refuses frame error) :
    Connection.Arrives error ∧ State.Bare error := by
  rcases h with rfl | ⟨permit, h⟩
  · exact ⟨Connection.arrives_of_mem (by decide), by decide⟩
  refine ⟨Connection.admit_arrives h, ?_⟩
  cases hdecode : decodeRequest frame.opcode frame.body with
  | error failure =>
      rw [hdecode] at h
      obtain rfl := Option.some.inj h
      exact decode_bare hdecode
  | ok request =>
      rw [hdecode] at h
      have hinFlight : (if permit then none else some Connection.inFlightError) = some error → State.Bare error := by
        intro hfull
        split_ifs at hfull
        obtain rfl := Option.some.inj hfull
        decide
      cases request with
      | hello version token =>
          obtain rfl := Option.some.inj h
          decide
      | _ => exact hinFlight h

/-- A first frame that is a REQUEST is refused. -/
theorem greeting_request (token : String) {frame : Frame} (hopcode : frame.opcode = 7) : ∃ error,
    Connection.State.greeting token frame = responseFrame 255 frame.requestId (errorBody error) ∧
      Connection.Arrives error ∧ State.Bare error := by
  unfold Connection.State.greeting
  cases hgreet : Connection.State.greetError token (decodeRequest frame.opcode frame.body) with
  | some error =>
      refine ⟨error, rfl, Connection.greet_arrives hgreet, ?_⟩
      cases hdecode : decodeRequest frame.opcode frame.body with
      | error failure =>
          rw [hdecode] at hgreet
          obtain rfl := Option.some.inj hgreet
          exact decode_bare hdecode
      | ok request =>
          rw [hdecode] at hgreet
          cases request with
          | hello version supplied =>
              rw [Connection.State.greetError] at hgreet
              split_ifs at hgreet
              · obtain rfl := Option.some.inj hgreet
                decide
              · obtain rfl := Option.some.inj hgreet
                decide
          | _ =>
              obtain rfl := Option.some.inj hgreet
              decide
  | none =>
      have hhello := Connection.State.greetError_none (Option.isNone_iff_eq_none.mpr hgreet)
      rw [hopcode] at hhello
      cases (decodeRequest_eq_ok.mp hhello).2.1

/-! ### Runs -/

section Runs

variable {undefined : Cluster.Reply} {options : Client.ConnectOptions} {token : String}
  {connection maxCalls maxBytes : Nat} {s : State Cluster.Reply} {history : History} {origins : List Nat}
  (hbase : s.Base token history) (hinv : s.Inv connection history)
  (haccount : Link.Account history.bodies origins s.link)

include hbase hinv haccount

theorem answers_of_told {promise index : Nat} {sent : Client.Sent Cluster.Reply} {response : Frame}
    {outcome : Client.Settlement Cluster.Reply} (hsent : s.link.client.sent[promise]? = some sent)
    (hopcode : sent.opcode = 7) (htells : Link.Says sent.opcode sent.parse response outcome)
    (horigin : origins[index]? = some promise) (hanswered : (index, response.bytes) ∈ s.link.server.answered) :
    s.Answers history origins promise sent.parse outcome := by
  obtain ⟨frame, hframe, hcases⟩ := hbase.traced.answered index _ hanswered
  obtain ⟨-, sent', hsent', -, hsame⟩ := haccount.requested index promise frame horigin hframe
  obtain rfl := Option.some.inj (hsent.symm.trans hsent')
  have hseven : frame.opcode = 7 := hsame.symm.trans hopcode
  rw [hopcode] at htells
  rcases hcases with ⟨rfl, hbytes⟩ | ⟨answer, hbytes, hsource⟩
  · obtain ⟨error, hgreeting, harrives, hbare⟩ := greeting_request token hseven
    refine State.answers_of_refusal haccount.once horigin ?_ hbare
      (settles_of_response (by decide) htells harrives (hbytes.trans hgreeting))
    -- An operation is never that of the first frame.
    cases hcall : history.calls.lookup 0 with
    | none => rfl
    | some id =>
        obtain ⟨_, _, _, _, hmem, -⟩ := hinv.calls 0 id hcall
        cases (hbase.server.dispatched 0 _ hmem).1
  · cases hsource with
    | @refused error hrefused =>
        obtain ⟨hnot, frame', hframe', hrefuses⟩ := hbase.traced.refused index error hrefused
        obtain ⟨harrives, hbare⟩ := refuses_bare hrefuses
        refine State.answers_of_refusal haccount.once horigin ?_ hbare
          (settles_of_response (by decide) htells harrives hbytes)
        cases hcall : history.calls.lookup index with
        | none => rfl
        | some id =>
            obtain ⟨_, _, _, _, hmem, -⟩ := hinv.calls index id hcall
            exact absurd (List.mem_map_of_mem (f := Prod.fst) hmem) hnot
    | @result frame' request result hframe' hrequest hresult =>
        obtain rfl := Option.some.inj (hframe.symm.trans hframe')
        obtain ⟨-, frame', hframe', hdecode⟩ := hbase.server.dispatched index request hrequest
        obtain rfl := Option.some.inj (hframe.symm.trans hframe')
        have hcalls : request.Calls := by
          have hrpc := (decodeRequest_eq_ok.mp hdecode).2.1
          rw [hseven] at hrpc
          cases request <;> first | trivial | cases hrpc
        have houtcome := hinv.results index result request hresult hrequest hcalls
        rw [hseven] at hbytes
        exact houtcome.answers haccount.once horigin
          (settles_of_response (by decide) htells houtcome.travels hbytes)

end Runs

/-- **A request is answered with what became of its call.** In every run of a client within the limit, its connection
and the scheduler, whatever other connections do, whatever is reordered, delayed or lost: the calls of the client are
what different promises were asked for with; a promise that is resolved has the payload with which a worker that was
handed its call completed it in time; and a rejection by the broker says whether a worker failed the call, the deadline
passed, a worker was lost with the call, or no worker ever had it. -/
theorem requests_answered {undefined : Cluster.Reply} {options : Client.ConnectOptions} {token : String}
    {connection maxCalls maxBytes : Nat} {s : State Cluster.Reply} {history : History}
    (h : (recorded undefined options token connection maxCalls maxBytes).Reachable (s, history)) :
    ∃ origins, s.link.Matched history.bodies origins ∧ s.Faithful connection history origins := by
  have hbase := based h
  have hinv := inv h
  obtain ⟨origins, haccount⟩ := Link.account (link_recorded h)
  have hmatched := haccount.matched hbase.server (Link.dispatched_once (link_recorded h).of_observed)
  refine ⟨origins, hmatched, ?_⟩
  exact {
    called := fun id admission hadmitted hcaller => by
      obtain ⟨index, hcall⟩ := hinv.all id admission hadmitted hcaller
      obtain ⟨route, timeoutMs, payload, admittedAt, hmem, hadmitted'⟩ := hinv.calls index id hcall
      obtain rfl := Option.some.inj (hadmitted.symm.trans hadmitted')
      obtain ⟨promise, sent, body, horigin, hsent, hbody, hdecode⟩ := hmatched.dispatched index _ hmem
      exact ⟨promise, sent, body, ⟨index, horigin, hcall⟩, hsent, hbody, hdecode⟩
    apart := by
      rintro promise promise' id id' ⟨index, horigin, hcall⟩ ⟨index', horigin', hcall'⟩
      constructor
      · rintro rfl
        obtain rfl : index = index' := (List.getElem?_inj (List.getElem?_eq_some_iff.mp horigin).1
          haccount.once).mp (horigin.trans horigin'.symm)
        exact Option.some.inj (hcall.symm.trans hcall')
      · rintro rfl
        obtain rfl := hinv.single index index' id hcall hcall'
        exact Option.some.inj (horigin.symm.trans horigin')
    handed := ⟨hbase.ordered.nodup, hbase.verified.sourced⟩
    completed := hbase.verified.once
    settled := fun promise sent outcome hmem hsent hopcode => by
      rcases haccount.settled promise outcome hmem with ⟨reason, rfl, hother⟩ | htold
      · cases reason with
        | broker code message => exact absurd rfl (hother code message)
        | _ => trivial
      · obtain ⟨sent', response, hsent', htells, hplace⟩ := htold
        obtain rfl := Option.some.inj (hsent.symm.trans hsent')
        obtain ⟨index, horigin, hanswered⟩ := hplace.resolve_left fun hone => by
          rw [hopcode] at hone
          cases hone
        exact answers_of_told hbase hinv haccount hsent hopcode htells horigin hanswered
    returns := fun index id reply hlookup => by
      obtain ⟨route, timeoutMs, payload, ⟨task, htask, hnone, hrequest⟩, -⟩ := hinv.waits index _ hlookup
      refine ⟨task, htask, hnone, fun error herror => ?_⟩
      rw [hrequest]
      have hverdict := hinv.replied index id reply hlookup
      cases reply with
      | ok body => cases herror
      | error failure =>
          obtain rfl := Except.error.inj herror
          exact hverdict.dispatchError rfl _ _ _ _ }

namespace Sample

open Cluster (Reply)

/-- The two ends of the connection after a step of theirs. -/
def linked (rest : Bytes) (link : Link.State Reply) : Option (Link.Op Reply) → Link.State Reply
  | none => link
  | some (.client op) => .deliver ((link.client.next none op).getD link.client)
      { link with server := { link.server with output := rest } }
  | some (.server op) => { link with server := link.server.next "" op }

abbrev Runs : Transition (State Reply × History) (Op Reply) := recorded none Client.noOptions "" 7 4 100000

def next (op : Op Reply) (rest : Bytes) (s : State Reply × History) : State Reply × History :=
  ({ link := linked rest s.1.link (s.1.linkOp 7 op)
     sys := (op.sysOp 7).elim s.1.sys s.1.sys.next
     waits := s.1.waitsAfter 7 op }, s.1.observe 7 op s.2)

/-- The two ends of the connection can take the step. -/
def Allows (rest : Bytes) (link : Link.State Reply) : Option (Link.Op Reply) → Prop
  | none => True
  | some (.client op) => link.Reads op rest ∧ link.client.Enabled op
  | some (.server op) => (∀ bytes, op ≠ .receive bytes) ∧ link.server.Enabled 7 op

/-- The scheduler can. -/
def Admits (sys : Rpc.Sys) : Option Rpc.Op → Prop
  | none => True
  | some op => sys.Enabled op ∧ sys.Timely op

theorem next_reachable {s : State Reply × History} (h : Runs.Reachable s) (op : Op Reply) (rest : Bytes)
    (hready : s.1.Ready 7 op) (hlink : Allows rest s.1.link (s.1.linkOp 7 op))
    (hsys : Admits s.1.sys (op.sysOp 7)) : Runs.Reachable (next op rest s) := by
  refine h.step (l := op) ⟨⟨hready, ?_, ?_, rfl⟩, rfl⟩
  · simp only [next]
    cases hop : s.1.linkOp 7 op with
    | none => rfl
    | some op' =>
        rw [hop] at hlink
        cases op' with
        | client op' =>
            obtain ⟨t, ht⟩ := (Link.inv (link_recorded h).of_observed).client.returns none op'
            refine ⟨rest, t, hlink.1, hlink.2, ht, ?_⟩
            rw [linked, ht]
            rfl
        | server op' => exact ⟨hlink.1, hlink.2, rfl⟩
  · simp only [next]
    cases hop : op.sysOp 7 with
    | none => rfl
    | some op' =>
        rw [hop] at hsys
        exact ⟨hsys.1, hsys.2, rfl⟩

/-- The greeting of the client, with `welcome` in it. -/
def welcomed : State Reply × History :=
  next .welcome [129, 0, 0, 0, 1, 0, 1] (next (.server (.greet 11)) [] (next (.server .hello) []
    (next (.client (.greet fun _ => .accepted)) [] (next (.client .connected) []
      (⟨⟨.new Client.defaults, .new⟩, .new 4 100000, ∅⟩, .new)))))

/-- HELLO was answered, and the answer read; connection 8 takes jobs of `sum`. -/
def greeted : State Reply × History :=
  next (.others (.enable 0)) [] (next (.others (.takeStart 8)) [] (next (.others (.register 8 "sum" 1 4)) []
    (next (.others (.connected 8)) [] (next (.client (.data [129, 0, 0, 0, 1, 0, 1])) [] welcomed))))

/-- REQUEST was dispatched. -/
def dispatched : State Reply × History :=
  next (.server .accept) [] (next (.server .pass) [] (next (.server .read) [] (next
    (.client (.send (fun _ => .accepted) 7 [0, 3, 115, 117, 109, 0, 0, 0, 5, 0, 0, 0, 1, 7] Cluster.responseParser)) []
      (next (.client .opened) [] greeted))))

/-- The call was completed, and the reply received. -/
def replied : State Reply × History :=
  next (.receive 1 1 (.ok [42])) [] (next (.others (.complete 8 1 false [42] 0)) [] (next (.others (.tryTake 0 0 0)) []
    (next (.request 1 "sum" 5 [7] 0 0) [] dispatched)))

/-- The response was written, and read. -/
def answered : State Reply × History :=
  next (.client (.data [135, 0, 0, 0, 2, 0, 0, 0, 1, 42])) [] (next (.server .wrote) [] (next (.server (.put 14)) []
    (next (.server .take) [] (next (.server (.reply 1)) [] (next (.drop 1 1 (.ok [42])) [] replied)))))

/-- What the promises of HELLO and of the request were resolved with. -/
theorem resolved : (0, .resolved none) ∈ greeted.1.link.client.settled ∧
    (1, .resolved (some [42])) ∈ answered.1.link.client.settled := by
  decide

theorem welcomed_reachable : Runs.Reachable welcomed := by
  have h := Transition.Reachable.of_start (T := Runs) (s := (⟨⟨.new Client.defaults, .new⟩, .new 4 100000, ∅⟩, .new))
    ⟨⟨_, ⟨Client.defaults, Client.settings_noOptions, le_rfl, rfl⟩, rfl⟩, rfl⟩
  have h := next_reachable h (.client .connected) [] trivial ⟨rfl, rfl, rfl⟩ trivial
  have h := next_reachable h (.client (.greet fun _ => .accepted)) [] trivial ⟨rfl, rfl⟩ trivial
  have h := next_reachable h (.server .hello) [] trivial ⟨nofun, rfl, _, _, rfl⟩ trivial
  have h := next_reachable h (.server (.greet 11)) [] trivial ⟨nofun, _, _, rfl, by decide, by decide⟩ trivial
  exact next_reachable h .welcome _ rfl ⟨nofun, true, rfl⟩ ⟨Finset.notMem_empty 7, trivial⟩

theorem greeted_reachable : Runs.Reachable greeted := by
  have h := next_reachable welcomed_reachable (.client (.data [129, 0, 0, 0, 1, 0, 1])) [] trivial
    ⟨rfl, by decide, Nat.le_of_ble_eq_true rfl⟩ trivial
  have h := next_reachable h (.others (.connected 8)) [] ⟨(by decide : 8 ≠ 7), trivial⟩ trivial
    ⟨(by decide : 8 ∉ ({7} : Finset Nat)), trivial⟩
  have h := next_reachable h (.others (.register 8 "sum" 1 4)) [] ⟨trivial, by decide, by decide, by decide⟩ trivial
    ⟨trivial, trivial⟩
  have h := next_reachable h (.others (.takeStart 8)) [] ⟨trivial, trivial⟩ trivial ⟨trivial, trivial⟩
  exact next_reachable h (.others (.enable 0)) [] ⟨trivial, trivial⟩ trivial ⟨rfl, trivial⟩

theorem dispatched_reachable : Runs.Reachable dispatched := by
  have h := next_reachable greeted_reachable (.client .opened) [] trivial
    ⟨rfl, 0, none, rfl, resolved.1⟩ trivial
  have h := next_reachable h (.client (.send (fun _ => .accepted) 7 [0, 3, 115, 117, 109, 0, 0, 0, 5, 0, 0, 0, 1, 7]
    Cluster.responseParser)) [] trivial ⟨rfl, rfl, by decide⟩ trivial
  have h := next_reachable h (.server .read) [] trivial ⟨nofun, rfl, _, _, rfl⟩ trivial
  have h := next_reachable h (.server .pass) [] trivial ⟨nofun, ⟨_, rfl⟩, rfl, nofun⟩ trivial
  exact next_reachable h (.server .accept) [] trivial ⟨nofun, rfl, rfl⟩ trivial

theorem replied_reachable : Runs.Reachable replied := by
  have h := next_reachable dispatched_reachable (.request 1 "sum" 5 [7] 0 0) [] ⟨⟨_, rfl, rfl, rfl⟩, rfl⟩ trivial
    ⟨trivial, le_rfl, le_rfl⟩
  have h := next_reachable h (.others (.tryTake 0 0 0)) [] ⟨trivial, trivial⟩ trivial ⟨rfl, le_rfl, le_rfl⟩
  have h := next_reachable h (.others (.complete 8 1 false [42] 0)) [] ⟨trivial, by decide, by decide, nofun⟩ trivial
    ⟨trivial, le_rfl⟩
  exact next_reachable h (.receive 1 1 (.ok [42])) [] ⟨rfl, List.mem_cons_self⟩ trivial trivial

theorem answered_reachable : Runs.Reachable answered := by
  have h := next_reachable replied_reachable (.drop 1 1 (.ok [42])) [] rfl ⟨nofun, ⟨2, 7, _, none⟩, rfl, rfl, nofun⟩
    ⟨rfl, trivial⟩
  have h := next_reachable h (.server (.reply 1)) [] trivial ⟨nofun, _, _, rfl, rfl, Or.inl rfl⟩ trivial
  have h := next_reachable h (.server .take) [] trivial ⟨nofun, rfl, rfl⟩ trivial
  have h := next_reachable h (.server (.put 14)) [] trivial ⟨nofun, _, _, rfl, by decide, by decide⟩ trivial
  have h := next_reachable h (.server .wrote) [] trivial ⟨nofun, _, rfl⟩ trivial
  exact next_reachable h (.client (.data [135, 0, 0, 0, 2, 0, 0, 0, 1, 42])) [] trivial
    ⟨rfl, by decide, Nat.le_of_ble_eq_true rfl⟩ trivial

end Sample

theorem requests_answered_answered : (1, .resolved (some [42])) ∈ Sample.answered.1.link.client.settled ∧
    ∃ origins, Sample.answered.1.link.Matched Sample.answered.2.bodies origins ∧
      Sample.answered.1.Faithful 7 Sample.answered.2 origins :=
  ⟨Sample.resolved.2, requests_answered Sample.answered_reachable⟩

end VeloBus.Caller
