import VeloBus.ClientCorrelation

/-! The frames a client has handed out, taken by the socket or not yet. While it stays open a frame is added
by `send` and by nothing else. -/

namespace VeloBus.Client

variable {ρ : Type}

namespace State

variable {s t : State ρ}

/-- The frames of `send`, oldest first. -/
def frames (s : State ρ) : List Bytes := s.written ++ s.writeQueue

theorem fail_closed (reason : Failure) (s : State ρ) : (s.fail reason).closed = true := by
  unfold State.fail
  split_ifs with hclosed
  · exact hclosed
  · rfl

theorem fail_settings (reason : Failure) (s : State ρ) : (s.fail reason).settings = s.settings := by
  unfold State.fail
  split_ifs <;> rfl

theorem fail_stage (reason : Failure) (s : State ρ) : (s.fail reason).stage = s.stage := by
  unfold State.fail
  split_ifs <;> rfl

theorem fail_sent (reason : Failure) (s : State ρ) : (s.fail reason).sent = s.sent := by
  unfold State.fail
  split_ifs <;> rfl

theorem fail_prefix (reason : Failure) (s : State ρ) : s.settled <+: (s.fail reason).settled := by
  unfold fail
  split_ifs
  · exact List.prefix_rfl
  · exact List.prefix_append _ _

theorem fail_written (reason : Failure) (s : State ρ) : (s.fail reason).written = s.written := by
  unfold State.fail
  split_ifs <;> rfl

theorem fail_fail (reason reason' : Failure) (s : State ρ) : (s.fail reason).fail reason' = s.fail reason := by
  rw [State.fail, if_pos (fail_closed reason s)]

/-- A closed client sends nothing. -/
theorem send_shut {socket : Socket} {opcode : Nat} {body : Bytes} {parse : Parser ρ} (hclosed : s.closed = true)
    (hsend : s.send socket opcode body parse = some t) : t.closed = true ∧ t.written = s.written := by
  have hcapacity : s.ensureCapacity = .error s.closeReason := if_pos hclosed
  unfold send at hsend
  simp only [hcapacity] at hsend
  rw [← Option.some.inj hsend]
  exact ⟨hclosed, rfl⟩

theorem flush_shut {socket : Socket} (hclosed : s.closed = true) :
    (s.flush socket).closed = true ∧ (s.flush socket).written = s.written := by
  unfold flush
  cases s.writeQueue with
  | nil => exact ⟨hclosed, rfl⟩
  | cons frame queue =>
      rw [flushQueue, if_pos (Or.inl hclosed)]
      exact ⟨hclosed, rfl⟩

/-- A closed client stays closed and writes nothing. -/
theorem next_shut {undefined : ρ} {op : Op ρ} (hclosed : s.closed = true) (hnext : s.next undefined op = some t) :
    t.closed = true ∧ t.written = s.written := by
  have hfail : ∀ reason, some (s.fail reason) = some t → t.closed = true ∧ t.written = s.written := by
    intro reason heq
    rw [← Option.some.inj heq]
    exact ⟨fail_closed reason s, fail_written reason s⟩
  cases op with
  | connected =>
      rw [← Option.some.inj hnext]
      exact ⟨hclosed, rfl⟩
  | greet socket => exact send_shut (s := { s with stage := .greeting s.sent.length }) hclosed hnext
  | opened =>
      rw [← Option.some.inj hnext]
      exact ⟨hclosed, rfl⟩
  | refused reason =>
      rw [← Option.some.inj hnext]
      exact ⟨fail_closed reason s, fail_written reason s⟩
  | send socket opcode body parse => exact send_shut hclosed hnext
  | data frame =>
      rw [← Option.some.inj hnext, data, if_pos hclosed]
      exact ⟨hclosed, rfl⟩
  | drain socket =>
      rw [← Option.some.inj hnext]
      exact flush_shut (s := { s with blocked := false }) hclosed
  | _ => exact hfail _ hnext

/-- A socket that takes frames only moves them. -/
theorem flush_open {socket : Socket} (hopen : (s.flush socket).closed = false) :
    ∃ written queue blocked, written ++ queue = s.frames ∧
      s.flush socket = { s with written := written, writeQueue := queue, blocked := blocked } := by
  obtain ⟨given, rest, blocked, hqueue, hresult⟩ := flushQueue_cases socket s.writeQueue s
  rw [flush] at hopen ⊢
  rcases hresult with hresult | ⟨-, frame, later, message, -, hresult⟩
  · refine ⟨s.written ++ given, rest, blocked, ?_, ?_⟩
    · rw [frames, hqueue, List.append_assoc]
    · rw [hresult]
  · rw [hresult, fail_closed] at hopen
    cases hopen

/-- Only a failing socket closes the client in `flush`. -/
theorem flush_kept (socket : Socket) (s : State ρ) :
    (s.flush socket).settings = s.settings ∧ (s.flush socket).stage = s.stage ∧
      (s.flush socket).sent = s.sent ∧ s.settled <+: (s.flush socket).settled := by
  obtain ⟨given, rest, blocked, -, hresult⟩ := flushQueue_cases socket s.writeQueue s
  unfold flush
  rcases hresult with hresult | ⟨-, frame, later, message, -, hresult⟩ <;> rw [hresult]
  · exact ⟨rfl, rfl, rfl, List.prefix_rfl⟩
  · have hfirst := fail_prefix (.other message)
      { s with writeQueue := later, written := s.written ++ given, blocked := blocked }
    exact ⟨fail_settings _ _, fail_stage _ _, fail_sent _ _, hfirst⟩

theorem send_kept {socket : Socket} {opcode : Nat} {body : Bytes} {parse : Parser ρ}
    (hsend : s.send socket opcode body parse = some t) : t.settings = s.settings ∧ t.stage = s.stage ∧
      s.settled <+: t.settled ∧ ∃ id, t.sent = s.sent ++ [⟨id, opcode, parse, s.received.length⟩] := by
  unfold send at hsend
  split at hsend
  · rw [← Option.some.inj hsend]
    exact ⟨rfl, rfl, List.prefix_append _ _, none, rfl⟩
  split at hsend
  · cases hsend
  rename_i id _
  dsimp only at hsend
  split at hsend
  · rw [← Option.some.inj hsend]
    exact ⟨rfl, rfl, List.prefix_append _ _, none, rfl⟩
  · rw [← Option.some.inj hsend]
    obtain ⟨hsettings, hstage, hsent, hsettled⟩ := flush_kept socket { s with
      nextRequestId := nextId id
      pending := s.pending.insert id ⟨s.sent.length, opcode, parse⟩
      writeQueue := s.writeQueue ++ [_]
      sent := s.sent ++ [⟨some id, opcode, parse, s.received.length⟩] }
    exact ⟨hsettings, hstage, hsettled, some id, hsent⟩

theorem send_open {socket : Socket} {opcode : Nat} {body : Bytes} {parse : Parser ρ}
    (hsend : s.send socket opcode body parse = some t) (hopen : t.closed = false) : s.closed = false := by
  unfold send at hsend
  split at hsend
  · rw [← Option.some.inj hsend] at hopen
    exact hopen
  split at hsend
  · cases hsend
  dsimp only at hsend
  split at hsend
  · rw [← Option.some.inj hsend] at hopen
    exact hopen
  · rw [← Option.some.inj hsend] at hopen
    obtain ⟨written, queue, blocked, -, heq⟩ := flush_open hopen
    rw [heq] at hopen
    exact hopen

/-- The request that `send` leaves in an open client. -/
structure Issued (s t : State ρ) (opcode : Nat) (body : Bytes) (parse : Parser ρ) (id : Nat) : Prop where
  pending : t.pending = s.pending.insert id ⟨s.sent.length, opcode, parse⟩
  frames : ∃ frame, envelope opcode id body = .ok frame ∧ t.frames = s.frames ++ [frame]
  settled : t.settled = s.settled

/-- With room for a request and a body that fits a frame, `send` sends it unless the socket fails. -/
theorem send_issued {socket : Socket} {opcode : Nat} {body : Bytes} {parse : Parser ρ} (hclosed : s.closed = false)
    (hroom : s.pending.size < s.settings.maxPendingRequests) (hfits : body.length + 5 ≤ maxFrame)
    (hsend : s.send socket opcode body parse = some t) (hopen : t.closed = false) :
    ∃ id, s.Issued t opcode body parse id := by
  have hcapacity : s.ensureCapacity = .ok () := by
    rw [ensureCapacity, if_neg (by rw [hclosed]; exact Bool.false_ne_true), if_neg (not_le.mpr hroom)]
  unfold send at hsend
  simp only [hcapacity] at hsend
  cases hsearch : searchId s.pending (s.pending.size + 1) s.nextRequestId with
  | none =>
      rw [hsearch] at hsend
      cases hsend
  | some id =>
      have hframe : envelope opcode id body =
          .ok (Bytes.toBe 4 (body.length + 5) ++ Bytes.toBe 1 opcode ++ Bytes.toBe 4 id ++ body) :=
        if_neg (not_lt.mpr hfits)
      simp only [hsearch, hframe] at hsend
      rw [← Option.some.inj hsend] at hopen ⊢
      obtain ⟨written, queue, blocked, hframes, heq⟩ := flush_open hopen
      rw [heq]
      refine ⟨id, rfl, ⟨_, hframe, ?_⟩, rfl⟩
      exact hframes.trans (List.append_assoc _ _ _).symm

/-- A step that sends nothing, in a client that stays open. -/
structure Passive (s t : State ρ) : Prop where
  closed : s.closed = false
  frames : t.frames = s.frames
  pending : ∀ id pending, t.pending.lookup id = some pending → s.pending.lookup id = some pending
  rejected : ∀ promise reason, (promise, .rejected reason) ∈ t.settled →
    (promise, .rejected reason) ∈ s.settled ∨ ∃ code message, reason = .broker code message

theorem data_kept (h : s.Inv) (frame : Bytes) : (s.data frame).settings = s.settings ∧
    (s.data frame).stage = s.stage ∧ (s.data frame).sent = s.sent ∧ s.settled <+: (s.data frame).settled ∧
    ((s.data frame).closed = false → s.Passive (s.data frame)) := by
  cases hclosed : s.closed with
  | true =>
      have hsame : s.data frame = s := if_pos hclosed
      rw [hsame]
      refine ⟨rfl, rfl, rfl, List.prefix_rfl, fun hopen => ?_⟩
      rw [hopen] at hclosed
      cases hclosed
  | false =>
      rcases data_cases h.toLedger hclosed frame with ⟨pending, outcome, hanswers, heq⟩ | ⟨-, message, heq⟩ <;>
        rw [heq]
      · refine ⟨rfl, rfl, rfl, List.prefix_append _ _, fun _ => ⟨hclosed, rfl, fun id pending' hlookup => ?_, ?_⟩⟩
        · have hlookup' : (s.pending.erase (frameId frame)).lookup id = some pending' := hlookup
          rw [Table.lookup_erase_ite] at hlookup'
          split_ifs at hlookup'
          exact hlookup'
        · intro promise reason hmem
          obtain hold | hnew := List.mem_append.mp hmem
          · exact Or.inl hold
          · right
            obtain ⟨-, rfl⟩ := Prod.mk.inj (List.mem_singleton.mp hnew)
            obtain ⟨-, ⟨-, reason', hparse, heq'⟩ | ⟨-, -, value, -, heq'⟩⟩ := hanswers
            · obtain ⟨code, message, rfl, -, -⟩ := parseError_ok hparse
              exact ⟨code, message, Settlement.rejected.inj heq'⟩
            · cases heq'
      · refine ⟨fail_settings _ _, fail_stage _ _, fail_sent _ _, ?_, fun hopen => ?_⟩
        · unfold fail
          split_ifs
          · exact List.prefix_rfl
          · exact List.prefix_append _ _
        · rw [fail_closed] at hopen
          cases hopen

/-- What `open`, the socket and its peer do, HELLO apart. -/
structure Moved (s t : State ρ) : Prop where
  settings : t.settings = s.settings
  sent : t.sent = s.sent
  settled : s.settled <+: t.settled
  passive : t.closed = false → s.Passive t
  kept : s.stage = .opened → t.stage = .opened
  opened : t.stage = .opened → s.stage = .opened ∨
    ∃ promise value, s.stage = .greeting promise ∧ (promise, .resolved value) ∈ s.settled

theorem fail_moved (reason : Failure) (s : State ρ) : s.Moved (s.fail reason) where
  settings := fail_settings _ _
  sent := fail_sent _ _
  settled := fail_prefix _ _
  passive hopen := by
    rw [fail_closed] at hopen
    cases hopen
  kept hstage := (fail_stage _ _).trans hstage
  opened hstage := Or.inl ((fail_stage _ _).symm.trans hstage)

theorem moved_step {undefined : ρ} (h : s.Inv) {op : Op ρ} (hop : s.Enabled op)
    (hgreet : ∀ socket, op ≠ .greet socket) (hsend : ∀ socket opcode body parse, op ≠ .send socket opcode body parse)
    (hnext : s.next undefined op = some t) : s.Moved t := by
  cases op with
  | connected =>
      have hyoung : s.stage = .connecting := hop.1
      rw [← Option.some.inj hnext]
      refine ⟨rfl, rfl, List.prefix_rfl, fun hopen => ?_, fun hstage => ?_, nofun⟩
      · exact ⟨hopen, rfl, fun _ _ hlookup => hlookup, fun _ _ hmem => Or.inl hmem⟩
      · rw [hyoung] at hstage
        cases hstage
  | greet socket => exact absurd rfl (hgreet socket)
  | opened =>
      rw [← Option.some.inj hnext]
      refine ⟨rfl, rfl, List.prefix_rfl, fun hopen => ?_, fun _ => rfl, fun _ => Or.inr hop⟩
      exact ⟨hopen, rfl, fun _ _ hlookup => hlookup, fun _ _ hmem => Or.inl hmem⟩
  | refused reason =>
      obtain ⟨promise, hgreeting, -⟩ := hop
      rw [← Option.some.inj hnext]
      refine ⟨fail_settings _ _, fail_sent _ _, fail_prefix _ _, fun hopen => ?_, fun hstage => ?_, nofun⟩
      · have hclosed : (s.fail reason).closed = false := hopen
        rw [fail_closed] at hclosed
        cases hclosed
      · rw [hgreeting] at hstage
        cases hstage
  | send socket opcode body parse => exact absurd rfl (hsend socket opcode body parse)
  | data frame =>
      obtain ⟨hsettings, hstage, hsent, hsettled, hpassive⟩ := data_kept h frame
      rw [← Option.some.inj hnext]
      exact ⟨hsettings, hsent, hsettled, hpassive, fun heq => hstage.trans heq, fun heq => Or.inl (hstage.symm.trans heq)⟩
  | drain socket =>
      rw [← Option.some.inj hnext]
      obtain ⟨hsettings, hstage, hsent, hsettled⟩ := flush_kept socket { s with blocked := false }
      refine ⟨hsettings, hsent, hsettled, fun hopen => ?_, fun heq => hstage.trans heq,
        fun heq => Or.inl (hstage.symm.trans heq)⟩
      obtain ⟨written, queue, blocked, hframes, heq⟩ := flush_open hopen
      rw [heq] at hopen ⊢
      exact ⟨hopen, hframes, fun _ _ hlookup => hlookup, fun _ _ hmem => Or.inl hmem⟩
  | _ =>
      rw [← Option.some.inj hnext]
      exact fail_moved _ s

end State

end VeloBus.Client
