import VeloBus.ClusterModel
import VeloBus.ConnectionErrors
import VeloBus.LinkModel
import VeloBus.RpcRefusals

/-! What the broker answers and what a client makes of it: the jobs of TAKE, the replies of REQUEST and the
errors of every operation arrive as they were sent. -/

namespace VeloBus.Client

open Codec

/-! ### Frames at the client -/

/-- A response with this body resolves the promise of its request. -/
def Resolves {ρ : Type} (opcode : Nat) (parse : Parser ρ) (body : Bytes) (value : ρ) : Prop :=
  ∀ (s : State ρ) (id : Nat) (pending : Pending ρ), 0 < id → id < 2 ^ 32 → s.pending.lookup id = some pending →
    pending.opcode = opcode → pending.parse = parse →
    s.receive ((responseFrame (opcode ||| 128) id body).drop 4) = .ok (s.settle id pending (.resolved value))

/-- An error response rejects the promise of its request with the code and the message of the error. -/
def Rejects (error : Error) : Prop :=
  ∀ {ρ : Type} (s : State ρ) (id : Nat) (pending : Pending ρ), 0 < id → id < 2 ^ 32 →
    s.pending.lookup id = some pending → s.receive ((responseFrame 255 id (errorBody error)).drop 4) =
      .ok (s.settle id pending (.rejected (.broker error.code error.message)))

section Receive

variable {ρ : Type}

theorem receive_answer {s : State ρ} {id opcode : Nat} {pending : Pending ρ} {body : Bytes} (hpositive : 0 < id)
    (hid : id < 2 ^ 32) (hlookup : s.pending.lookup id = some pending) (hopcode : opcode < 256)
    (hmatch : opcode = 255 ∨ opcode = pending.opcode ||| 128) (hbody : body.length ≤ maxFrame - 5) :
    s.receive ((responseFrame opcode id body).drop 4) =
      if opcode = 255 then (parseError body).map fun reason => s.settle id pending (.rejected reason)
      else (pending.parse.run body).map fun value => s.settle id pending (.resolved value) := by
  have hlegal : (⟨opcode, id, body⟩ : Frame).Legal := ⟨hopcode, hpositive, hid, hbody⟩
  have hframe : responseFrame opcode id body = (⟨opcode, id, body⟩ : Frame).bytes := by
    rw [← Frame.answer_bytes, Frame.answer_of_fits hbody]
  have hknown : frameId ((responseFrame opcode id body).drop 4) = id := by
    rw [hframe]
    exact frameId_bytes hlegal
  have hsame : frameOpcode ((responseFrame opcode id body).drop 4) = opcode := by
    rw [hframe]
    exact frameOpcode_bytes hlegal
  have hrest : ((responseFrame opcode id body).drop 4).drop 5 = body := by
    rw [hframe]
    exact frameBody_bytes _
  rw [State.receive_known (hknown ▸ hlookup), hknown, hsame, hrest, if_neg hpositive.ne', if_neg]
  rintro ⟨hnot, hother⟩
  rcases hmatch with h | h
  · exact hnot h
  · exact hother h

/-- A body the parser takes resolves the promise. -/
theorem resolves_of_parse {opcode : Nat} {parse : Parser ρ} {body : Bytes} {value : ρ} (hopcode : opcode < 127)
    (hbody : body.length ≤ maxFrame - 5) (h : parse.run body = .ok value) : Resolves opcode parse body value := by
  intro s id pending hpositive hid hlookup hsame hparse
  have hsmall : opcode ||| 128 < 255 :=
    (by decide : ∀ opcode < 127, opcode ||| 128 < 255) opcode hopcode
  rw [receive_answer hpositive hid hlookup (by omega) (Or.inr (hsame ▸ rfl)) hbody, if_neg hsmall.ne, hparse, h]
  rfl

theorem parseError_errorBody {error : Error} (hcode : 1 ≤ error.code ∧ error.code ≤ 12)
    (hmessage : error.message.utf8ByteSize < 2 ^ 16) :
    parseError (errorBody error) = .ok (.broker error.code error.message) := by
  have hread : Reader.u16 (Bytes.toBe 2 error.code ++ putString error.message) =
      .ok (error.code, putString error.message) := Reader.uint_toBe (hcode.2.trans_lt (by decide)) _
  have hstring : Reader.string 65535 (putString error.message) = .ok (Text.ofString error.message, []) := by
    have hput := Reader.string_putString (Nat.le_of_lt_succ hmessage) hmessage []
    rwa [List.append_nil] at hput
  simp only [parseError, errorBody, bind_eq_ok, pure_eq_ok, check_eq_ok]
  refine ⟨_, hread, _, hstring, (), rfl, by omega, ?_⟩
  rw [Text.toString_ofString]

/-- An error of the protocol with a message of any length the prefix can hold rejects the promise. -/
theorem rejects_of_code {error : Error} (hcode : 1 ≤ error.code ∧ error.code ≤ 12)
    (hmessage : error.message.utf8ByteSize < 2 ^ 16) : Rejects error := by
  intro ρ s id pending hpositive hid hlookup
  have hbody : (errorBody error).length ≤ maxFrame - 5 := by
    have hlength : (errorBody error).length = 2 + (2 + error.message.utf8ByteSize) := by
      simp only [errorBody, putString, List.length_append, Bytes.length_toBe, Bytes.length_utf8]
    unfold maxFrame
    omega
  rw [receive_answer hpositive hid hlookup (by decide) (Or.inl rfl) hbody, if_pos rfl,
    parseError_errorBody hcode hmessage]
  rfl

end Receive

end VeloBus.Client

namespace VeloBus.Connection

/-! ### Errors -/

/-- What the loop answers on its own account, and what takes the place of a response that is too large. -/
def loopErrors : List Error :=
  [duplicateError, secondHelloError, inFlightError, unauthorizedError,
    ⟨Code.protocol, "unsupported protocol version"⟩, ⟨Code.protocol, "invalid request state"⟩,
    ⟨Code.limit, "response exceeds maximum frame size"⟩]

/-- Where the error of a response comes from, apart from a failing disk. -/
inductive Raised : Error → Prop where
  | decode {error : Error} {opcode : Nat} {body : Bytes} (h : decodeRequest opcode body = .error error) :
      Raised error
  | greet {error : Error} {token : String} {opcode : Nat} {body : Bytes}
      (h : State.greetError token (decodeRequest opcode body) = some error) : Raised error
  | refused {error : Error} {permit : Bool} {opcode : Nat} {body : Bytes}
      (h : State.admitError permit (decodeRequest opcode body) = some error) : Raised error
  | duplicate : Raised duplicateError
  | oversized : Raised ⟨Code.limit, "response exceeds maximum frame size"⟩
  | hello : Raised ⟨Code.protocol, "invalid request state"⟩
  | publish {error : Error} {hash : Bytes → UInt32} {store : Store} {records : List Record}
      (h : (store.publish hash records none).2.2 = .error error) : Raised error
  | fetch {error : Error} {store : Store} {request : Fetch} (h : (store.fetch request).2 = .error error) :
      Raised error
  | storeFailed {error : Error} (h : DispatchError.StoreFailed error) : Raised error
  | register {error : Error} {rpc : Rpc.State} {connection concurrency queueLimit : Nat} {route : String}
      (h : (rpc.register connection route concurrency queueLimit).2 = .error error) : Raised error
  | request {error : Error} {rpc : Rpc.State} {connection timeoutMs expiredAt admittedAt : Nat} {route : String}
      {payload : Bytes} (h : (rpc.request connection route timeoutMs payload expiredAt admittedAt).2 = .error error) :
      Raised error
  | takeStart {error : Error} {rpc : Rpc.State} {connection : Nat}
      (h : (rpc.takeStart connection).2 = .error error) : Raised error
  | tryTake {error : Error} {rpc : Rpc.State} {connection expiredAt now : Nat}
      (h : (rpc.tryTake connection expiredAt now).2 = .error error) : Raised error
  | complete {error : Error} {rpc : Rpc.State} {connection callId now : Nat} {failed : Bool} {payload : Bytes}
      (h : (rpc.complete connection callId failed payload now).2 = .error error) : Raised error
  | ticket {error : Error} (h : error ∈ ticketErrors) : Raised error
  | completion {error : Error} {call : Rpc.Call} {callId now : Nat} {failed : Bool} {payload : Bytes}
      (hlegal : (Request.complete callId failed payload).Legal)
      (h : Rpc.State.completion call failed payload now = .error error) : Raised error

/-- What a client takes for an error of the broker. -/
structure Arrives (error : Error) : Prop where
  code : 1 ≤ error.code ∧ error.code ≤ 12
  message : error.message.utf8ByteSize < 2 ^ 16
  rejects : Client.Rejects error

/-- Every error the broker has a text for. -/
def knownErrors : List Error := loopErrors ++ decodeErrors ++ schedulerErrors ++ ticketErrors ++ storeErrors

theorem arrives_of_mem {error : Error} (h : error ∈ knownErrors) : Arrives error := by
  have hall : ∀ error ∈ knownErrors, (1 ≤ error.code ∧ error.code ≤ 12) ∧ error.message.utf8ByteSize < 2 ^ 16 := by
    decide
  obtain ⟨hcode, hmessage⟩ := hall error h
  exact ⟨hcode, hmessage, Client.rejects_of_code hcode hmessage⟩

theorem decode_arrives {error : Error} (h : error ∈ decodeErrors) : Arrives error := by
  apply arrives_of_mem
  simp [knownErrors, h]

theorem scheduler_arrives {error : Error} (h : error ∈ schedulerErrors) : Arrives error := by
  apply arrives_of_mem
  simp [knownErrors, h]

theorem ticket_arrives {error : Error} (h : error ∈ ticketErrors) : Arrives error := by
  apply arrives_of_mem
  simp [knownErrors, h]

theorem store_arrives {error : Error} (h : error ∈ storeErrors) : Arrives error := by
  apply arrives_of_mem
  simp [knownErrors, h]

theorem greet_arrives {error : Error} {token : String} {opcode : Nat} {body : Bytes}
    (h : State.greetError token (decodeRequest opcode body) = some error) : Arrives error := by
  cases hdecode : decodeRequest opcode body with
  | error failure =>
      rw [hdecode] at h
      obtain rfl := Option.some.inj h
      exact decode_arrives (decodeRequest_decodes opcode body failure hdecode)
  | ok request =>
      rw [hdecode] at h
      have hunauthorized : Arrives unauthorizedError := arrives_of_mem (by decide)
      cases request with
      | hello version supplied =>
          rw [State.greetError] at h
          split_ifs at h
          · obtain rfl := Option.some.inj h
            exact arrives_of_mem (by decide)
          · exact Option.some.inj h ▸ hunauthorized
      | _ => exact Option.some.inj h ▸ hunauthorized

theorem admit_arrives {error : Error} {permit : Bool} {opcode : Nat} {body : Bytes}
    (h : State.admitError permit (decodeRequest opcode body) = some error) : Arrives error := by
  cases hdecode : decodeRequest opcode body with
  | error failure =>
      rw [hdecode] at h
      obtain rfl := Option.some.inj h
      exact decode_arrives (decodeRequest_decodes opcode body failure hdecode)
  | ok request =>
      rw [hdecode] at h
      have hinFlight : (if permit then none else some inFlightError) = some error → Arrives error := by
        intro hfull
        split_ifs at hfull
        obtain rfl := Option.some.inj hfull
        exact arrives_of_mem (by decide)
      cases request with
      | hello version supplied =>
          obtain rfl := Option.some.inj h
          exact arrives_of_mem (by decide)
      | _ => exact hinFlight h

/-- What a handler threw arrives byte for byte: the decoder let nothing through but text, which the lossy
conversion keeps. -/
theorem completion_arrives {call : Rpc.Call} {callId now : Nat} {failed : Bool} {payload : Bytes} {error : Error}
    (hlegal : (Request.complete callId failed payload).Legal)
    (h : Rpc.State.completion call failed payload now = .error error) :
    Arrives error ∧ (error.code = Code.handlerError → failed = true ∧ Bytes.utf8 error.message = payload) := by
  unfold Rpc.State.completion at h
  split_ifs at h with hlate hfailed
  · obtain rfl := Except.error.inj h
    exact ⟨ticket_arrives (by decide), nofun⟩
  · obtain rfl := Except.error.inj h
    obtain ⟨hsize, htext⟩ := hlegal.2.2 hfailed
    obtain ⟨s, hs⟩ := Option.isSome_iff_exists.mp htext
    obtain rfl := Bytes.fromUtf8_eq_some_iff.mp hs
    rw [Bytes.fromUtf8Lossy_utf8]
    have hmessage : s.utf8ByteSize < 2 ^ 16 := by
      rw [← Bytes.length_utf8]
      omega
    have hcode : 1 ≤ Code.handlerError ∧ Code.handlerError ≤ 12 := by decide
    exact ⟨⟨hcode, hmessage, Client.rejects_of_code hcode hmessage⟩, fun _ => ⟨hfailed, rfl⟩⟩

theorem Raised.arrives {error : Error} (h : Raised error) : Arrives error := by
  cases h with
  | decode h => exact decode_arrives (decodeRequest_decodes _ _ error h)
  | greet h => exact greet_arrives h
  | refused h => exact admit_arrives h
  | duplicate => exact arrives_of_mem (by decide)
  | oversized => exact arrives_of_mem (by decide)
  | hello => exact arrives_of_mem (by decide)
  | publish h => exact store_arrives (publish_mem h)
  | fetch h => exact store_arrives (fetch_mem h)
  | storeFailed h => exact store_arrives (storeFailed_mem h)
  | register h => exact scheduler_arrives (register_error h)
  | request h => exact scheduler_arrives (request_error h)
  | takeStart h => exact scheduler_arrives (takeStart_error h)
  | tryTake h => exact scheduler_arrives (tryTake_error h)
  | complete h => exact scheduler_arrives (complete_error h)
  | ticket h => exact ticket_arrives h
  | completion hlegal h => exact (completion_arrives hlegal h).1

end VeloBus.Connection

namespace VeloBus.Rpc

/-! ### The scheduler behind the decoder -/

/-- What the decoder lets through. -/
def Op.Decoded : Op → Prop
  | .register _ route concurrency queueLimit => (Request.register route concurrency queueLimit).Legal
  | .request _ route timeoutMs payload _ _ => (Request.rpc route timeoutMs payload).Legal
  | .complete _ id failed payload _ => (Request.complete id failed payload).Legal
  | _ => True

/-- Every run on decoded requests, whatever the clock shows. -/
def decoded (maxCalls maxBytes : Nat) : Transition Sys Op where
  start s := s = Sys.new maxCalls maxBytes
  step s op t := s.Enabled op ∧ op.Decoded ∧ t = s.next op

theorem Op.Decoded.fits {op : Op} (h : op.Decoded) : op.Fits := by
  cases op with
  | request caller route timeoutMs payload expiredAt admittedAt => exact h.2.2
  | _ => exact trivial

/-- The success body of REQUEST. -/
def replyBody (payload : Bytes) : Bytes := Bytes.toBe 4 payload.length ++ payload

/-- What the client makes of a reply that a step sends is what the owner of the call completed it with, or
an error of its own. -/
def Delivered (op : Op) (id : Nat) (call : Call) : Reply → Prop
  | .ok payload => (∃ worker now, op = .complete worker id false payload now ∧ call.owner = some worker) ∧
      Client.Resolves 7 Cluster.responseParser (replyBody payload) (some payload)
  | .error error => Connection.Arrives error ∧ (error.code = Code.handlerError → ∃ worker payload now,
      op = .complete worker id true payload now ∧ call.owner = some worker ∧ Bytes.utf8 error.message = payload)

namespace Sys

section Decoded

variable {maxCalls maxBytes : Nat} {s : Sys}

theorem anyClock_of_decoded (h : (decoded maxCalls maxBytes).Reachable s) :
    (anyClock maxCalls maxBytes).Reachable s := by
  apply h.mono
  · intro s hs
    exact hs
  · intro s op t hstep
    exact ⟨hstep.1, hstep.2.2⟩

theorem decoded_wired (h : (decoded maxCalls maxBytes).Reachable s) : s.Wired := by
  apply h.invariant
  · intro s hs
    rw [hs]
    exact new_wired maxCalls maxBytes
  · intro s op t hreach hs hstep
    rw [hstep.2.2]
    exact hs.step (sound (anyClock_of_decoded hreach)) hstep.2.1.fits

end Decoded

theorem replyBody_resolves {payload : Bytes} (h : payload.length ≤ maxPayload) :
    Client.Resolves 7 Cluster.responseParser (replyBody payload) (some payload) := by
  apply Client.resolves_of_parse (by decide)
  · unfold replyBody
    rw [List.length_append, Bytes.length_toBe]
    unfold maxPayload at h
    unfold Client.maxFrame
    omega
  · have hread := Client.Reader.payload_append h []
    rw [List.append_nil] at hread
    simp only [Cluster.responseParser, replyBody, hread]
    rfl

/-- The replies of one step. -/
theorem ends_delivered {s : Sys} {op : Op} (hdecoded : op.Decoded) {id : Nat} {call : Call} {reply : Reply}
    {freed : Bool} (h : s.Ends op id call (some reply) freed) : Delivered op id call reply := by
  have hticket : ∀ {error : Error}, error ∈ Connection.ticketErrors → Delivered op id call (.error error) := by
    intro error hmem
    refine ⟨Connection.ticket_arrives hmem, fun hcode => ?_⟩
    exact absurd hcode ((by decide : ∀ error ∈ Connection.ticketErrors, error.code ≠ Code.handlerError) error hmem)
  cases op with
  | request =>
      obtain rfl := Option.some.inj h.2.2.2.1
      exact hticket (by decide)
  | tryTake =>
      obtain ⟨name, h⟩ := h
      obtain rfl := Option.some.inj h.2.2.2.1
      exact hticket (by decide)
  | complete worker k failed payload now =>
      obtain ⟨rfl, howner, hreply, -⟩ := h
      have hcompletion := (Option.some.inj hreply).symm
      cases reply with
      | ok bytes =>
          unfold State.completion at hcompletion
          split_ifs at hcompletion with hlate hfailed
          obtain rfl := Except.ok.inj hcompletion
          rw [Bool.not_eq_true] at hfailed
          subst hfailed
          exact ⟨⟨worker, now, rfl, howner⟩, replyBody_resolves hdecoded.2.1⟩
      | error error =>
          obtain ⟨harrives, hhandler⟩ := Connection.completion_arrives hdecoded hcompletion
          refine ⟨harrives, fun hcode => ?_⟩
          obtain ⟨rfl, htext⟩ := hhandler hcode
          exact ⟨worker, payload, now, rfl, howner, htext⟩
  | expire =>
      obtain rfl := Option.some.inj h.2.1
      exact hticket (by decide)
  | cancel => cases h.2.1
  | disconnect x =>
      rcases h with h | h | ⟨worker, -, -, h⟩
      · cases h.2.1
      · obtain rfl := Option.some.inj h.2.1
        exact hticket (by decide)
      · obtain rfl := Option.some.inj h.2.2.1
        exact hticket (by decide)
  | connected => exact h.elim
  | register => exact h.elim
  | takeStart => exact h.elim
  | enable => exact h.elim
  | wake => exact h.elim
  | takeTimeout => exact h.elim
  | takeEnd => exact h.elim

/-- A step only adds replies. -/
theorem next_replies {s : Sys} (hsound : s.Sound) (op : Op) (id : Nat) :
    ∃ new, replies id (s.next op).rpc.outbox = replies id s.rpc.outbox ++ new := by
  have hevolves : ∀ {rule : Nat → Call → Option Reply → Bool → Prop} {a b : State}, Evolves rule a b →
      ∃ new, replies id b.outbox = replies id a.outbox ++ new := by
    intro rule a b h
    induction h with
    | refl => exact ⟨[], (List.append_nil _).symm⟩
    | settle _ hone _ ih =>
        obtain ⟨new, hnew⟩ := ih
        obtain ⟨more, hout, -⟩ := hone.outbox
        exact ⟨new ++ replies id more, by rw [hout, replies_append, hnew, List.append_assoc]⟩
    | @aside _ _ more _ _ _ hout _ ih =>
        obtain ⟨new, hnew⟩ := ih
        exact ⟨new ++ replies id more, by rw [hout, replies_append, hnew, List.append_assoc]⟩
  cases next_moved hsound op with
  | ended h _ _ _ _ => exact hevolves h
  | @admitted u v _ _ _ _ _ _ call _ h _ _ _ hv ht _ _ _ _ =>
      obtain ⟨new, hnew⟩ := hevolves h
      refine ⟨new, ?_⟩
      rw [← hnew, (ht.idle id).2, hv]
      rfl
  | dispatched _ h _ _ _ _ _ _ _ _ _ ht _ _ _ _ =>
      obtain ⟨new, hnew⟩ := hevolves h
      refine ⟨new, ?_⟩
      rw [← hnew, ht]
      rfl

/-- Every reply of a run was sent in one of its steps, to a call that was live. -/
theorem run_delivered {maxCalls maxBytes : Nat} {s t : Sys} {ops : List Op}
    (hs : (decoded maxCalls maxBytes).Reachable s) (hrun : (decoded maxCalls maxBytes).Run s ops t)
    (hempty : ∀ id, replies id s.rpc.outbox = []) {id : Nat} {reply : Reply}
    (hreply : reply ∈ replies id t.rpc.outbox) :
    ∃ before op after u call, ops = before ++ op :: after ∧ (decoded maxCalls maxBytes).Run s before u ∧
      u.rpc.calls.lookup id = some call ∧ Delivered op id call reply := by
  induction hrun generalizing reply with
  | nil =>
      rw [hempty] at hreply
      cases hreply
  | @snoc ops t op _ hrun hstep ih =>
      have hsound := sound (anyClock_of_decoded (hs.run hrun))
      obtain ⟨-, hdecoded, rfl⟩ := hstep
      obtain ⟨new, hnew⟩ := next_replies hsound op id
      rw [hnew, List.mem_append] at hreply
      rcases hreply with hold | hfresh
      · obtain ⟨before, op', after, u, call, rfl, hbefore, hlive, hdelivered⟩ := ih hold
        exact ⟨before, op', after ++ [op], u, call, by simp, hbefore, hlive, hdelivered⟩
      · obtain ⟨call, freed, hlive, -, hends⟩ := next_ends hsound hnew hfresh
        exact ⟨ops, op, [], t, call, rfl, hrun, hlive, ends_delivered hdecoded hends⟩

/-- **What the broker answers is what the client gets.** In every run on decoded requests: a job the scheduler
hands out is read by the client as it is, and so is that there is none; a reply to a request is read by the
client as the payload that the worker completed the call with; and every error of the decoder, of the loop,
of the scheduler and of a store whose disk works rejects the request with its code and its message, the
message of a handler being what the worker sent. -/
theorem answers_arrive {maxCalls maxBytes : Nat} {s : Sys} {ops : List Op}
    (hrun : (decoded maxCalls maxBytes).Run (Sys.new maxCalls maxBytes) ops s) :
    (∀ worker expiredAt now job, (s.rpc.tryTake worker expiredAt now).2 = .ok (.job job) →
      (0 < job.callId ∧ job.remainingMs ≤ 30000 ∧ job.payload.length ≤ maxPayload) ∧
      Client.parseTaken job.encode = .ok (some job) ∧
      Client.Resolves 8 Client.takenParser job.encode (some job)) ∧
    Client.Resolves 8 Client.takenParser (encodeTaken none) none ∧
    (∀ id, ∀ reply ∈ replies id s.rpc.outbox, ∃ before op after u call, ops = before ++ op :: after ∧
      (decoded maxCalls maxBytes).Run (Sys.new maxCalls maxBytes) before u ∧
      u.rpc.calls.lookup id = some call ∧ Delivered op id call reply) ∧
    ∀ error, Connection.Raised error → Connection.Arrives error := by
  have hstart := Transition.Reachable.of_start (T := decoded maxCalls maxBytes) (s := Sys.new maxCalls maxBytes) rfl
  have hreach := hstart.run hrun
  have hany := anyClock_of_decoded hreach
  refine ⟨?_, ?_, ?_, fun error hraised => hraised.arrives⟩
  · intro worker expiredAt now job htake
    have hlegal : job.Legal := tryTake_legal (sound hany) (recorded hany) (decoded_wired hreach) htake
    have htaken : ∀ job', some job = some job' → job'.Legal := by
      intro job' heq
      exact Option.some.inj heq ▸ hlegal
    have hparse : Client.parseTaken job.encode = .ok (some job) := Client.parseTaken_encodeTaken htaken
    refine ⟨⟨hlegal.positive, hlegal.remainingMs, hlegal.payload⟩, hparse, ?_⟩
    exact Client.resolves_of_parse (by decide) (encodeTaken_fits htaken) hparse
  · exact Client.resolves_of_parse (by decide) (encodeTaken_fits nofun) (Client.parseTaken_encodeTaken nofun)
  · intro id reply hreply
    exact run_delivered hstart hrun (fun _ => rfl) hreply

/-- A worker that has its call fails it with a message. -/
def failing : List Op :=
  [.connected 1, .register 1 "sum" 1 4, .connected 2, .request 2 "sum" 5 [7] 0 0, .takeStart 1, .enable 0,
    .tryTake 0 1000 2000, .complete 1 1 true (Bytes.utf8 "no") 3000]

theorem decoded_snoc {maxCalls maxBytes : Nat} {s t : Sys} {ops : List Op}
    (h : (decoded maxCalls maxBytes).Run s ops t) (op : Op) (hop : t.Enabled op) (hdecoded : op.Decoded) :
    (decoded maxCalls maxBytes).Run s (ops ++ [op]) (t.next op) := h.snoc ⟨hop, hdecoded, rfl⟩

theorem failing_run : (decoded 4 100000).Run (Sys.new 4 100000) failing
    (Sys.served.next (.complete 1 1 true (Bytes.utf8 "no") 3000)) := by
  have h : (decoded 4 100000).Run (Sys.new 4 100000) [] (Sys.new 4 100000) := .nil
  have h := decoded_snoc h (.connected 1) (Finset.notMem_empty 1) trivial
  have h := decoded_snoc h (.register 1 "sum" 1 4) trivial ⟨by decide, by decide, by decide⟩
  have h := decoded_snoc h (.connected 2) (by simp [next, new, Enabled]) trivial
  have h := decoded_snoc h (.request 2 "sum" 5 [7] 0 0) trivial ⟨by decide, by decide, by decide⟩
  have h := decoded_snoc h (.takeStart 1) trivial trivial
  have h := decoded_snoc h (.enable 0) rfl trivial
  have h := decoded_snoc h (.tryTake 0 1000 2000) rfl trivial
  exact decoded_snoc h (.complete 1 1 true (Bytes.utf8 "no") 3000) trivial
    ⟨by decide, by decide, fun _ => ⟨by decide, by rw [Bytes.fromUtf8_utf8]; rfl⟩⟩

theorem answers_arrive_failing :
    replies 1 (Sys.served.next (.complete 1 1 true (Bytes.utf8 "no") 3000)).rpc.outbox =
      [.error ⟨Code.handlerError, "no"⟩] ∧ Client.Rejects ⟨Code.handlerError, "no"⟩ := by
  have hreplies : replies 1 (Sys.served.next (.complete 1 1 true (Bytes.utf8 "no") 3000)).rpc.outbox =
      [.error ⟨Code.handlerError, "no"⟩] := by
    decide
  obtain ⟨_, _, _, _, _, -, -, -, harrives, -⟩ := (answers_arrive failing_run).2.2.1 1 _
    (hreplies ▸ List.mem_singleton_self _)
  exact ⟨hreplies, harrives.rejects⟩

end Sys

end VeloBus.Rpc
