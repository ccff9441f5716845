import VeloBus.ClientFrames

/-! What a step of a client does to its promises. Only a frame settles one with a value or with an error of the
broker; what else settles one is a request that is not sent, or the end of the connection. -/

namespace VeloBus.Client

variable {ρ : Type}

/-- What is not the peer's doing by its frames: a connection that is lost, timed out or closed. -/
def Failure.Transport : Failure → Prop
  | connectionClosed _ => True
  | requestTimeout _ => True
  | other _ => True
  | _ => False

namespace State

variable {s t : State ρ}

/-- A step without a frame. -/
structure Mild (s t : State ρ) : Prop where
  sent : s.sent <+: t.sent
  settled : ∀ promise outcome, (promise, outcome) ∈ t.settled → (promise, outcome) ∈ s.settled ∨
    ∃ reason, outcome = .rejected reason ∧ ∀ code message, reason ≠ .broker code message
  reason : t.closed = false ∨ t.stage ≠ .refused → s.closeReason.Transport → t.closeReason.Transport

theorem Failure.Transport.not_broker {reason : Failure} (h : reason.Transport) :
    ∀ code message, reason ≠ .broker code message := by
  rintro code message rfl
  exact h

theorem fail_settled {reason : Failure} {promise : Nat} {outcome : Settlement ρ}
    (h : (promise, outcome) ∈ (s.fail reason).settled) :
    (promise, outcome) ∈ s.settled ∨ outcome = .rejected reason ∧ s.pending ≠ ∅ := by
  unfold fail at h
  split_ifs at h
  · exact Or.inl h
  · refine (List.mem_append.mp h).imp_right fun hnew => ?_
    obtain ⟨e, he, heq⟩ := List.mem_map.mp hnew
    refine ⟨(Prod.mk.inj heq).2.symm, fun hempty => ?_⟩
    rw [hempty] at he
    exact List.not_mem_nil he

theorem fail_mild {reason : Failure} (hreason : reason.Transport) : s.Mild (s.fail reason) where
  sent := by
    rw [fail_sent]
  settled promise outcome hmem := by
    refine (fail_settled hmem).imp_right fun hnew => ?_
    exact ⟨reason, hnew.1, Failure.Transport.not_broker hreason⟩
  reason _ hbefore := by
    unfold fail
    split_ifs
    · exact hbefore
    · exact hreason

theorem flush_mild (socket : Socket) (s : State ρ) : s.Mild (s.flush socket) := by
  obtain ⟨given, rest, blocked, -, hresult⟩ := flushQueue_cases socket s.writeQueue s
  unfold flush
  rcases hresult with hresult | ⟨-, frame, later, message, -, hresult⟩ <;> rw [hresult]
  · exact ⟨List.prefix_rfl, fun _ _ hmem => Or.inl hmem, fun _ hbefore => hbefore⟩
  · have hreason : (Failure.other message).Transport := trivial
    have hfail := fail_mild
      (s := { s with writeQueue := later, written := s.written ++ given, blocked := blocked }) hreason
    exact { hfail with }

theorem reject_mild {opcode : Nat} {parse : Parser ρ} {reason : Failure}
    (hreason : ∀ code message, reason ≠ .broker code message) : s.Mild (s.reject opcode parse reason) where
  sent := List.prefix_append _ _
  settled promise outcome hmem := by
    refine (List.mem_append.mp hmem).imp_right fun hnew => ?_
    exact ⟨reason, (Prod.mk.inj (List.mem_singleton.mp hnew)).2, hreason⟩
  reason _ h := h

theorem send_mild (h : s.Inv) (hsending : s.Sending) {socket : Socket} {opcode : Nat} {body : Bytes}
    {parse : Parser ρ} (hsend : s.send socket opcode body parse = some t) : s.Mild t := by
  unfold send at hsend
  cases hroom : s.ensureCapacity with
  | error failure =>
      rw [hroom] at hsend
      rw [← Option.some.inj hsend]
      exact reject_mild (ensureCapacity_error h hsending hroom)
  | ok value =>
      rw [hroom] at hsend
      cases hsearch : searchId s.pending (s.pending.size + 1) s.nextRequestId with
      | none =>
          simp only [hsearch] at hsend
          cases hsend
      | some id =>
          cases hframe : envelope opcode id body with
          | error failure =>
              simp only [hsearch, hframe] at hsend
              rw [← Option.some.inj hsend]
              have hreject : s.Mild (s.reject opcode parse failure) := reject_mild (envelope_error hframe)
              exact { hreject with }
          | ok frame =>
              simp only [hsearch, hframe] at hsend
              rw [← Option.some.inj hsend]
              obtain ⟨hsent, hsettled, hreason⟩ := flush_mild socket { s with
                nextRequestId := nextId id
                pending := s.pending.insert id ⟨s.sent.length, opcode, parse⟩
                writeQueue := s.writeQueue ++ [frame]
                sent := s.sent ++ [⟨some id, opcode, parse, s.received.length⟩] }
              exact ⟨(List.prefix_append _ _).trans hsent, hsettled, hreason⟩

/-- **Only a frame tells something.** -/
theorem next_mild {undefined : ρ} (h : s.Inv) {op : Op ρ} (hop : s.Enabled op) (hdata : ∀ frame, op ≠ .data frame)
    (hframed : op ≠ .misframed) (hnext : s.next undefined op = some t) : s.Mild t := by
  cases op with
  | connected =>
      rw [← Option.some.inj hnext]
      exact ⟨List.prefix_rfl, fun _ _ hmem => Or.inl hmem, fun _ hreason => hreason⟩
  | greet socket =>
      have hstage : s.stage = .connected := hop
      have hsent : s.sent = [] := h.young (Or.inr hstage)
      have hgreeting : { s with stage := .greeting s.sent.length }.Inv := { h with
        reason := fun code message hreason => by
          have hrefused := (h.reason code message hreason).1
          rw [hstage] at hrefused
          cases hrefused
        young := nofun
        greeting := fun promise hgreet => by
          dsimp only at hgreet ⊢
          rw [hsent] at hgreet ⊢
          exact ⟨(Stage.greeting.inj hgreet).symm, Nat.zero_le _⟩ }
      have hmild := send_mild hgreeting (Or.inr ⟨_, rfl, hsent⟩) hnext
      exact { hmild with }
  | opened =>
      rw [← Option.some.inj hnext]
      exact ⟨List.prefix_rfl, fun _ _ hmem => Or.inl hmem, fun _ hreason => hreason⟩
  | refused reason =>
      obtain ⟨promise, hstage, hsettled⟩ := hop
      have hempty := h.alone hstage (List.mem_map_of_mem hsettled)
      rw [← Option.some.inj hnext]
      refine ⟨by rw [fail_sent], fun promise' outcome hmem => ?_, fun hkept => ?_⟩
      · exact (fail_settled hmem).imp_right fun hnew => absurd hempty hnew.2
      · rcases hkept with hopen | hstage'
        · have hclosed : (s.fail reason).closed = true := fail_closed reason s
          exact absurd (hopen.symm.trans hclosed) Bool.false_ne_true
        · exact absurd rfl hstage'
  | send socket opcode body parse => exact send_mild h (Or.inl hop.1) hnext
  | data frame => exact absurd rfl (hdata frame)
  | misframed => exact absurd rfl hframed
  | drain socket =>
      rw [← Option.some.inj hnext]
      have hmild := flush_mild socket { s with blocked := false }
      exact { hmild with }
  | socketClosed =>
      rw [← Option.some.inj hnext]
      refine ⟨by rw [fail_sent], fun promise outcome hmem => ?_, fun _ hreason => ?_⟩
      · refine (fail_settled hmem).imp_right fun hnew => ⟨s.closeReason, hnew.1, fun code message hreason => ?_⟩
        have hclosed := (h.reason code message hreason).2
        exact hnew.2 (h.quiet hclosed).1
      · unfold fail
        split_ifs <;> exact hreason
  | connectTimeout =>
      rw [← Option.some.inj hnext]
      exact fail_mild trivial
  | timeout id =>
      rw [← Option.some.inj hnext]
      exact fail_mild trivial
  | socketError message =>
      rw [← Option.some.inj hnext]
      exact fail_mild trivial
  | ended =>
      rw [← Option.some.inj hnext]
      exact fail_mild trivial
  | close =>
      rw [← Option.some.inj hnext]
      exact fail_mild trivial

/-- A client that was not greeted stays so. -/
theorem young_next {undefined : ρ} (h : s.Inv) {op : Op ρ} (hop : s.Enabled op) (hdata : ∀ frame, op ≠ .data frame)
    (hframed : op ≠ .misframed) (hnext : s.next undefined op = some t) (hstage : s.stage ≠ .opened)
    (hsettled : ∀ promise value, (promise, .resolved value) ∉ s.settled) :
    t.stage ≠ .opened ∧ ∀ promise value, (promise, .resolved value) ∉ t.settled := by
  have hmild := next_mild h hop hdata hframed hnext
  constructor
  · intro hopened
    by_cases hgreet : ∃ socket, op = .greet socket
    · obtain ⟨socket, rfl⟩ := hgreet
      have hsend : State.send socket 1 s.settings.hello (helloParser undefined)
        { s with stage := .greeting s.sent.length } = some t := hnext
      have hgreeting := (send_kept hsend).2.1
      rw [hopened] at hgreeting
      cases hgreeting
    · have hmoved := moved_step h hop (fun socket heq => hgreet ⟨socket, heq⟩)
        (fun socket opcode body parse heq => by
          rw [heq] at hop
          exact hstage hop.1) hnext
      obtain hbefore | ⟨promise, value, -, hmem⟩ := hmoved.opened hopened
      · exact hstage hbefore
      · exact hsettled promise value hmem
  · intro promise value hmem
    obtain hold | ⟨reason, heq, -⟩ := hmild.settled promise _ hmem
    · exact hsettled promise value hold
    · cases heq

end State

end VeloBus.Client
