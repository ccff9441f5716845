import VeloBus.ClientFrames

/-! What a client that is sent to only when it has room does with its requests: none of them is rejected for
backpressure, and one that waits was sent. -/

namespace VeloBus.Client

variable {ρ : Type}

namespace State

variable {s t : State ρ}

/-- Nothing was rejected for backpressure, nor will be when the client closes. -/
structure Spared (s : State ρ) : Prop where
  reason : s.closeReason ≠ .backpressure
  settled : ∀ promise, (promise, .rejected .backpressure) ∉ s.settled

theorem new_spared (checked : Settings) : (new checked : State ρ).Spared where
  reason := nofun
  settled _ := List.not_mem_nil

theorem Spared.of_same (h : s.Spared) (hreason : t.closeReason = s.closeReason) (hsettled : t.settled = s.settled) :
    t.Spared where
  reason := hreason ▸ h.reason
  settled := hsettled ▸ h.settled

theorem Spared.fail (h : s.Spared) {reason : Failure} (hreason : reason ≠ .backpressure) : (s.fail reason).Spared := by
  unfold State.fail
  split_ifs
  · exact h
  · refine ⟨hreason, fun promise hmem => ?_⟩
    obtain hold | hnew := List.mem_append.mp hmem
    · exact h.settled promise hold
    · obtain ⟨e, -, heq⟩ := List.mem_map.mp hnew
      exact hreason (Settlement.rejected.inj (Prod.mk.inj heq).2)

theorem Spared.reject (h : s.Spared) {opcode : Nat} {parse : Parser ρ} {reason : Failure}
    (hreason : reason ≠ .backpressure) : (s.reject opcode parse reason).Spared := by
  refine ⟨h.reason, fun promise hmem => ?_⟩
  obtain hold | hnew := List.mem_append.mp hmem
  · exact h.settled promise hold
  · have heq := Settlement.rejected.inj (Prod.mk.inj (List.mem_singleton.mp hnew)).2
    exact hreason heq.symm

theorem Spared.flush (h : s.Spared) (socket : Socket) : (s.flush socket).Spared := by
  obtain ⟨given, rest, blocked, -, hresult⟩ := flushQueue_cases socket s.writeQueue s
  unfold State.flush
  rcases hresult with hresult | ⟨-, frame, later, message, -, hresult⟩ <;> rw [hresult]
  · exact h.of_same rfl rfl
  · apply Spared.fail
    · exact h.of_same rfl rfl
    · exact nofun

/-- Sending rejects for backpressure only in a client without room. -/
theorem Spared.send (h : s.Spared) (hroom : s.pending.size < s.settings.maxPendingRequests) {socket : Socket}
    {opcode : Nat} {body : Bytes} {parse : Parser ρ} (hsend : s.send socket opcode body parse = some t) : t.Spared := by
  unfold State.send at hsend
  split at hsend
  · rename_i failure hfull
    rw [← Option.some.inj hsend]
    apply h.reject
    unfold ensureCapacity at hfull
    rw [if_neg (not_le.mpr hroom)] at hfull
    split_ifs at hfull
    rw [← Except.error.inj hfull]
    exact h.reason
  split at hsend
  · cases hsend
  dsimp only at hsend
  split at hsend
  · rename_i failure hframe
    rw [← Option.some.inj hsend]
    unfold envelope at hframe
    split_ifs at hframe
    apply Spared.reject
    · exact h.of_same rfl rfl
    · rw [← Except.error.inj hframe]
      exact nofun
  · rw [← Option.some.inj hsend]
    apply Spared.flush
    exact h.of_same rfl rfl

theorem Spared.data (h : s.Spared) (hinv : s.Inv) (frame : Bytes) : (s.data frame).Spared := by
  cases hclosed : s.closed with
  | true =>
      rw [State.data, if_pos hclosed]
      exact h
  | false =>
      rcases data_cases hinv.toLedger hclosed frame with ⟨pending, outcome, hanswers, heq⟩ | ⟨-, message, heq⟩ <;>
        rw [heq]
      · refine ⟨h.reason, fun promise hmem => ?_⟩
        obtain hold | hnew := List.mem_append.mp hmem
        · exact h.settled promise hold
        · obtain ⟨-, ⟨-, reason, hparse, houtcome⟩ | ⟨-, -, value, -, houtcome⟩⟩ := hanswers
          · obtain ⟨code, message, rfl, -, -⟩ := parseError_ok hparse
            rw [houtcome] at hnew
            cases Settlement.rejected.inj (Prod.mk.inj (List.mem_singleton.mp hnew)).2
          · rw [houtcome] at hnew
            cases (Prod.mk.inj (List.mem_singleton.mp hnew)).2
      · apply Spared.fail
        · exact h.of_same rfl rfl
        · simp

/-- What a step does to the requests of a client, where it may send one. -/
structure Follows (s t : State ρ) (sent : Option Nat) : Prop where
  inv : t.Inv
  settings : t.settings = s.settings
  stage : s.stage = .opened → t.stage = .opened
  pending : t.stage = .opened → ∀ id pending, t.pending.lookup id = some pending →
    s.stage = .opened ∧ s.pending.lookup id = some pending ∨ sent = some pending.promise
  spared : s.Spared → t.Spared

theorem Follows.refl (h : s.Inv) : s.Follows s none where
  inv := h
  settings := rfl
  stage := id
  pending hstage _ _ hlookup := Or.inl ⟨hstage, hlookup⟩
  spared := id

theorem fail_follows (h : s.Inv) {reason : Failure} (hbroker : ∀ code message, reason ≠ .broker code message)
    (hreason : reason ≠ .backpressure) : s.Follows (s.fail reason) none where
  inv := h.fail hbroker
  settings := fail_settings reason s
  stage hstage := (fail_stage reason s).trans hstage
  pending hstage id pending hlookup := by
    rw [(h.fail hbroker).quiet (fail_closed reason s) |>.1] at hlookup
    cases hlookup
  spared h := h.fail hreason

theorem next_follows {undefined : ρ} (h : s.Inv) {op : Op ρ} (hop : s.Enabled op)
    (hsend : ∀ socket opcode body parse, op ≠ .send socket opcode body parse)
    (hnext : s.next undefined op = some t) : s.Follows t none := by
  have hinv := h.step hop hnext
  by_cases hgreet : ∃ socket, op = .greet socket
  · obtain ⟨socket, rfl⟩ := hgreet
    have hsent : s.sent = [] := h.young (Or.inr hop)
    obtain ⟨hsettings, hstage, -, -⟩ := send_kept hnext
    have hyoung : s.stage = .connected := hop
    refine ⟨hinv, hsettings, fun hopened => ?_, fun hopened => ?_, fun hspared => ?_⟩
    · rw [hyoung] at hopened
      cases hopened
    · rw [hstage] at hopened
      cases hopened
    · have hempty : s.pending.size = 0 := by
        have hnone : s.pending = ∅ := by
          apply eq_empty_of_lookup
          intro id
          by_contra hne
          obtain ⟨pending, hlookup⟩ := Option.ne_none_iff_exists'.mp hne
          obtain ⟨-, -, since, -, hget⟩ := h.known id pending hlookup
          rw [hsent] at hget
          cases hget
        rw [hnone]
        rfl
      apply Spared.send (s := { s with stage := .greeting s.sent.length }) ⟨hspared.reason, hspared.settled⟩ _ hnext
      change s.pending.size < s.settings.maxPendingRequests
      rw [hempty]
      exact h.limit.1
  · have hmoved := moved_step h hop (fun socket heq => hgreet ⟨socket, heq⟩) hsend hnext
    refine ⟨hinv, hmoved.settings, hmoved.kept, fun hopened id pending hlookup => ?_, fun hspared => ?_⟩
    · cases hclosed : t.closed with
      | true =>
          rw [(hinv.quiet hclosed).1] at hlookup
          cases hlookup
      | false =>
          have hbefore := (hmoved.passive hclosed).pending id pending hlookup
          rcases hmoved.opened hopened with hwas | ⟨promise, value, hstage, hmem⟩
          · exact Or.inl ⟨hwas, hbefore⟩
          · rw [h.alone hstage (List.mem_map_of_mem hmem)] at hbefore
            cases hbefore
    · cases op with
      | connected =>
          rw [← Option.some.inj hnext]
          exact ⟨hspared.reason, hspared.settled⟩
      | greet socket => exact absurd ⟨socket, rfl⟩ hgreet
      | opened =>
          rw [← Option.some.inj hnext]
          exact ⟨hspared.reason, hspared.settled⟩
      | refused reason =>
          obtain ⟨promise, -, hmem⟩ := hop
          rw [← Option.some.inj hnext]
          have hfailed : (s.fail reason).Spared := by
            apply hspared.fail
            rintro rfl
            exact hspared.settled promise hmem
          exact ⟨hfailed.reason, hfailed.settled⟩
      | send socket opcode body parse => exact absurd rfl (hsend socket opcode body parse)
      | data frame =>
          rw [← Option.some.inj hnext]
          exact hspared.data h frame
      | drain socket =>
          rw [← Option.some.inj hnext]
          apply Spared.flush
          exact hspared.of_same rfl rfl
      | socketClosed =>
          rw [← Option.some.inj hnext]
          exact hspared.fail hspared.reason
      | _ =>
          rw [← Option.some.inj hnext]
          exact hspared.fail nofun

theorem fail_pending {reason : Failure} {id : Nat} {pending : Pending ρ}
    (hlookup : (s.fail reason).pending.lookup id = some pending) : s.pending.lookup id = some pending := by
  unfold State.fail at hlookup
  split_ifs at hlookup
  · exact hlookup
  · cases hlookup

/-- A request that waits after `send` waited before, or is the one that was sent. -/
theorem send_pending {socket : Socket} {opcode : Nat} {body : Bytes} {parse : Parser ρ}
    (hsend : s.send socket opcode body parse = some t) {id : Nat} {pending : Pending ρ}
    (hlookup : t.pending.lookup id = some pending) :
    s.pending.lookup id = some pending ∨ pending.promise = s.sent.length := by
  unfold send at hsend
  split at hsend
  · rw [← Option.some.inj hsend] at hlookup
    exact Or.inl hlookup
  split at hsend
  · cases hsend
  rename_i free _
  dsimp only at hsend
  split at hsend
  · rw [← Option.some.inj hsend] at hlookup
    exact Or.inl hlookup
  · rename_i frame _
    rw [← Option.some.inj hsend] at hlookup
    have hissued : (s.pending.insert free ⟨s.sent.length, opcode, parse⟩).lookup id = some pending := by
      unfold flush at hlookup
      dsimp only at hlookup
      obtain ⟨given, rest, blocked, -, hresult⟩ := flushQueue_cases socket (s.writeQueue ++ [frame]) { s with
        nextRequestId := nextId free
        pending := s.pending.insert free ⟨s.sent.length, opcode, parse⟩
        writeQueue := s.writeQueue ++ [frame]
        sent := s.sent ++ [⟨some free, opcode, parse, s.received.length⟩] }
      rcases hresult with hresult | ⟨-, later, queue, message, -, hresult⟩ <;> rw [hresult] at hlookup
      · exact hlookup
      · exact fail_pending hlookup
    rw [Table.lookup_insert_ite] at hissued
    split_ifs at hissued
    · rw [← Option.some.inj hissued]
      exact Or.inr rfl
    · exact Or.inl hissued

theorem send_follows (h : s.Inv) (hstage : s.stage = .opened) (hroom : s.pending.size < s.settings.maxPendingRequests)
    {socket : Socket} {opcode : Nat} {body : Bytes} {parse : Parser ρ}
    (hsend : s.send socket opcode body parse = some t) : s.Follows t (some s.sent.length) := by
  obtain ⟨hsettings, hkept, -, -⟩ := send_kept hsend
  refine ⟨h.send (Or.inl hstage) hsend, hsettings, fun _ => hkept.trans hstage, fun _ id pending hlookup => ?_,
    fun hspared => hspared.send hroom hsend⟩
  rcases send_pending hsend hlookup with hbefore | hnew
  · exact Or.inl ⟨hstage, hbefore⟩
  · exact Or.inr (congrArg some hnew.symm)

end State

/-! ### Checks -/

/-- A check that fails fails for its argument. -/
def Checks {α : Type} (result : Except Failure α) : Prop := result ≠ .error .backpressure

section Checks

variable {α β : Type}

theorem Checks.bind {x : Except Failure α} {f : α → Except Failure β} (hx : Checks x) (hf : ∀ a, Checks (f a)) :
    Checks (x >>= f) := by
  cases x with
  | ok a => exact hf a
  | error failure => exact fun heq => hx (congrArg Except.error (Except.error.inj heq))

theorem integer_checks (value : Value) (min max : Nat) (name : String) : Checks (integer value min max name) := by
  unfold integer Checks
  split
  · split_ifs <;> exact nofun
  · exact nofun

theorem topicBytes_checks (topic : Value) (wildcard : Bool) : Checks (topicBytes topic wildcard) := by
  unfold topicBytes Checks
  split
  · split_ifs <;> exact nofun
  · exact nofun

theorem payloadBytes_checks (payload : Value) : Checks (payloadBytes payload) := by
  have hsize : ∀ bytes : Bytes, Checks (if maxPayload < bytes.length then
      .error (.rangeError "payload exceeds 262144 bytes") else .ok bytes) := by
    intro bytes
    unfold Checks
    split_ifs <;> exact nofun
  cases payload with
  | text value => exact hsize _
  | bytes value => exact hsize _
  | _ => exact nofun

/-- `request` refuses its arguments for what they are. -/
theorem request_checks (route payload : Value) (options : RequestOptions) : Checks (request route payload options) :=
  .bind (topicBytes_checks _ _) fun _ => .bind (integer_checks _ _ _ _) fun _ =>
    .bind (payloadBytes_checks _) fun _ => nofun

end Checks

end VeloBus.Client
