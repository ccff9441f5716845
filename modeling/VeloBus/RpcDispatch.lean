import VeloBus.ProtocolCodec
import VeloBus.RpcFate

/-! Dispatch over whole runs. The history of a run agrees with the call table (`Recorded`), and a job
handed out stays ahead of everything that is still queued on its route (`Ordered`): so no identifier
is handed out twice, and on each route they are handed out in order. -/

namespace VeloBus.Rpc

def Admission.deadline (admission : Admission) : Nat :=
  admission.admittedAt + admission.timeoutMs * nanosPerMilli

/-- The history of the admissions agrees with the calls and tickets. -/
structure Sys.Recorded (s : Sys) : Prop where
  calls : ∀ id call, s.rpc.calls.lookup id = some call → ∃ admission,
    s.admitted.lookup id = some admission ∧ call.caller = admission.caller ∧
      call.route = admission.route ∧ call.payload = admission.payload ∧
      call.deadline = admission.deadline
  tickets : ∀ id ticket, s.tickets.lookup id = some ticket → ∃ admission,
    s.admitted.lookup id = some admission ∧ ticket.deadline = admission.deadline
  admitted : ∀ id admission, s.admitted.lookup id = some admission →
    id < s.rpc.nextId ∧ admission.caller ∈ s.everConnected

/-- What was handed out is ahead of what is queued. -/
structure Sys.Ordered (s : Sys) : Prop where
  started : ∀ d ∈ s.dispatched, d.job.callId < s.rpc.nextId ∧
    ∀ call, s.rpc.calls.lookup d.job.callId = some call → call.owner = some d.worker
  ahead : ∀ d ∈ s.dispatched, ∀ id call, s.rpc.calls.lookup id = some call → call.owner = none →
    d.route = some call.route → d.job.callId < id
  nodup : (s.dispatched.map fun d => d.job.callId).Nodup
  increasing : ∀ name, ((s.dispatched.filter fun d => d.route = some name).map
    fun d => d.job.callId).Pairwise (· < ·)

namespace Sys

theorem next_everConnected (s : Sys) (op : Op) : s.everConnected ⊆ (s.next op).everConnected := by
  cases op with
  | connected connection => exact Finset.subset_insert _ _
  | tryTake id expiredAt now =>
      simp only [next]
      cases s.takes.lookup id <;> exact Finset.Subset.refl _
  | takeEnd id =>
      simp only [next]
      cases s.takes.lookup id <;> exact Finset.Subset.refl _
  | _ => exact Finset.Subset.refl _

theorem new_recorded (maxCalls maxBytes : Nat) : (Sys.new maxCalls maxBytes).Recorded := by
  refine ⟨?_, ?_, ?_⟩
  all_goals
    intros
    simp_all [Sys.new, State.new]

theorem next_recorded {s : Sys} (hsound : s.Sound) (hs : s.Recorded) (op : Op) :
    (s.next op).Recorded := by
  have hever := next_everConnected s op
  have hmoved := next_moved hsound op
  generalize s.next op = t at hever hmoved
  cases hmoved with
  | ended h hnext hadmitted _ htickets =>
      refine ⟨fun id call' hlive => ?_, fun id ticket hticket => ?_, fun id admission hid => ?_⟩
      · obtain ⟨call, hlive₀, hkept⟩ := h.back hlive
        obtain ⟨admission, hid, hcaller, hroute, hpayload, hdeadline⟩ := hs.calls id call hlive₀
        exact ⟨admission, hadmitted ▸ hid, hkept.caller.trans hcaller, hkept.route.trans hroute,
          hkept.payload.trans hpayload, hkept.deadline.trans hdeadline⟩
      · rw [hadmitted]
        exact hs.tickets id ticket (htickets id ticket hticket).1
      · rw [hadmitted] at hid
        obtain ⟨hlt, hcaller⟩ := hs.admitted id admission hid
        exact ⟨hnext ▸ hlt, hever hcaller⟩
  | @admitted u v caller timeoutMs expiredAt admittedAt route payload call _ h hnext hconn hcall hv
      ht hnext' hadmitted htickets _ =>
      subst hcall hv
      refine ⟨fun id call' hlive => ?_, fun id ticket hticket => ?_, fun id admission hid => ?_⟩
      · obtain ⟨call, hlive₁, hkept⟩ := ht.back hlive
        rw [State.lookup_accept_calls, hnext] at hlive₁
        rw [hadmitted, Table.lookup_insert_ite]
        split_ifs at hlive₁ ⊢ with hid
        · obtain rfl := Option.some.inj hlive₁
          exact ⟨_, rfl, hkept.caller, hkept.route, hkept.payload, hkept.deadline⟩
        · obtain ⟨call₀, hlive₀, hkept₀⟩ := h.back hlive₁
          obtain ⟨admission, hid, hcaller, hroute, hpayload, hdeadline⟩ := hs.calls id call₀ hlive₀
          have hk := hkept₀.trans hkept
          exact ⟨admission, hid, hk.caller.trans hcaller, hk.route.trans hroute,
            hk.payload.trans hpayload, hk.deadline.trans hdeadline⟩
      · rw [htickets, Table.lookup_insert_ite] at hticket
        rw [hadmitted, Table.lookup_insert_ite]
        split_ifs at hticket ⊢
        · obtain rfl := Option.some.inj hticket
          exact ⟨_, rfl, rfl⟩
        · exact hs.tickets id ticket hticket
      · rw [hadmitted, Table.lookup_insert_ite] at hid
        rw [hnext']
        split_ifs at hid with heq
        · obtain rfl := Option.some.inj hid
          exact ⟨heq ▸ Nat.lt_succ_self _, hever (hsound.ever hconn)⟩
        · obtain ⟨hlt, hcaller⟩ := hs.admitted id admission hid
          exact ⟨hlt.trans (Nat.lt_succ_self _), hever hcaller⟩
  | @dispatched u take expiredAt now w k worker route queue call _ h _ _ _ _ _ hlive _ _ _ ht hnext
      hadmitted htickets _ =>
      refine ⟨fun id call' hlive' => ?_, fun id ticket hticket => ?_, fun id admission hid => ?_⟩
      · rw [ht, State.lookup_handOut_calls] at hlive'
        rw [hadmitted]
        split_ifs at hlive' with hid
        · subst hid
          rw [hlive, Option.map_some] at hlive'
          obtain rfl := Option.some.inj hlive'
          obtain ⟨call₀, hlive₀, hkept⟩ := h.back hlive
          obtain ⟨admission, hid, hcaller, hroute, hpayload, hdeadline⟩ := hs.calls id call₀ hlive₀
          exact ⟨admission, hid, hkept.caller.trans hcaller, hkept.route.trans hroute,
            hkept.payload.trans hpayload, hkept.deadline.trans hdeadline⟩
        · obtain ⟨call₀, hlive₀, hkept⟩ := h.back hlive'
          obtain ⟨admission, hid, hcaller, hroute, hpayload, hdeadline⟩ := hs.calls id call₀ hlive₀
          exact ⟨admission, hid, hkept.caller.trans hcaller, hkept.route.trans hroute,
            hkept.payload.trans hpayload, hkept.deadline.trans hdeadline⟩
      · rw [htickets] at hticket
        rw [hadmitted]
        exact hs.tickets id ticket hticket
      · rw [hadmitted] at hid
        obtain ⟨hlt, hcaller⟩ := hs.admitted id admission hid
        exact ⟨hnext ▸ hlt, hever hcaller⟩

theorem recorded {maxCalls maxBytes : Nat} {s : Sys} (h : (anyClock maxCalls maxBytes).Reachable s) :
    s.Recorded := by
  refine h.invariant ?_ ?_
  · rintro s rfl
    exact new_recorded maxCalls maxBytes
  · rintro s op t hreach hs ⟨-, rfl⟩
    exact next_recorded (sound hreach) hs op

/-! ### Order -/

theorem new_ordered (maxCalls maxBytes : Nat) : (Sys.new maxCalls maxBytes).Ordered := by
  refine ⟨?_, ?_, List.nodup_nil, fun name => List.Pairwise.nil⟩
  all_goals
    intros
    simp_all [Sys.new]

theorem next_ordered {s : Sys} (hsound : s.Sound) (hs : s.Ordered) (op : Op) :
    (s.next op).Ordered := by
  have hmoved := next_moved hsound op
  generalize s.next op = t at hmoved
  cases hmoved with
  | ended h hnext _ hdispatched _ =>
      refine ⟨fun d hd => ?_, fun d hd id call' hlive howner hroute => ?_,
        hdispatched ▸ hs.nodup, hdispatched ▸ hs.increasing⟩
      all_goals rw [hdispatched] at hd
      · obtain ⟨hlt, hown⟩ := hs.started d hd
        refine ⟨hnext ▸ hlt, fun call' hlive => ?_⟩
        obtain ⟨call, hlive₀, hkept⟩ := h.back hlive
        exact hkept.owner.trans (hown call hlive₀)
      · obtain ⟨call, hlive₀, hkept⟩ := h.back hlive
        exact hs.ahead d hd id call hlive₀ (hkept.owner.symm.trans howner) (hkept.route ▸ hroute)
  | @admitted u v caller timeoutMs expiredAt admittedAt route payload call _ h hnext _ hcall hv ht
      hnext' _ _ hdispatched =>
      -- A live call of `t` is the new one or a call of `s`.
      have hback : ∀ id call', t.rpc.calls.lookup id = some call' → id = s.rpc.nextId ∨
          ∃ call₀, s.rpc.calls.lookup id = some call₀ ∧ call₀.Kept call' := by
        intro id call' hlive
        obtain ⟨call₁, hlive₁, hkept₁⟩ := ht.back hlive
        rw [hv, State.lookup_accept_calls, hnext] at hlive₁
        split_ifs at hlive₁ with hid
        · exact Or.inl hid
        · obtain ⟨call₀, hlive₀, hkept₀⟩ := h.back hlive₁
          exact Or.inr ⟨call₀, hlive₀, hkept₀.trans hkept₁⟩
      refine ⟨fun d hd => ?_, fun d hd id call' hlive howner hroute => ?_,
        hdispatched ▸ hs.nodup, hdispatched ▸ hs.increasing⟩
      all_goals rw [hdispatched] at hd
      · obtain ⟨hlt, hown⟩ := hs.started d hd
        refine ⟨hnext' ▸ hlt.trans (Nat.lt_succ_self _), fun call' hlive => ?_⟩
        rcases hback _ call' hlive with heq | ⟨call₀, hlive₀, hkept⟩
        · exact absurd heq hlt.ne
        · exact hkept.owner.trans (hown call₀ hlive₀)
      · rcases hback id call' hlive with rfl | ⟨call₀, hlive₀, hkept⟩
        · exact (hs.started d hd).1
        · exact hs.ahead d hd id call₀ hlive₀ (hkept.owner.symm.trans howner) (hkept.route ▸ hroute)
  | @dispatched u take expiredAt now w id worker route queue call _ h hu hw hfree hr hq hlive howner
      hroute _ ht hnext _ _ hdispatched =>
      obtain ⟨call₀, hlive₀, hkept₀⟩ := h.back hlive
      have howner₀ : call₀.owner = none := hkept₀.owner.symm.trans howner
      have hnew : ∀ d ∈ s.dispatched, d.job.callId ≠ id := by
        rintro d hd rfl
        have := (hs.started d hd).2 call₀ hlive₀
        rw [howner₀] at this
        cases this
      have hless : ∀ d ∈ s.dispatched, d.route = some worker.route → d.job.callId < id :=
        fun d hd hd' => hs.ahead d hd id call₀ hlive₀ howner₀
          (by rw [← hkept₀.route, hroute, hd'])
      -- The other calls of `t` are calls of `u`, and of `s`.
      have hback : ∀ k call', t.rpc.calls.lookup k = some call' → k ≠ id →
          u.calls.lookup k = some call' ∧
            ∃ c, s.rpc.calls.lookup k = some c ∧ c.Kept call' := by
        intro k call' hk hne
        rw [ht, State.lookup_handOut_calls, if_neg hne] at hk
        exact ⟨hk, h.back hk⟩
      have hown : ∀ call', t.rpc.calls.lookup id = some call' → call'.owner = some w := by
        intro call' hk
        rw [ht, State.lookup_handOut_calls, if_pos rfl, hlive, Option.map_some] at hk
        rw [← Option.some.inj hk]
        rfl
      refine ⟨fun d hd => ?_, fun d hd k call' hk hnone hdroute => ?_, ?_, fun name => ?_⟩
      · rw [hdispatched, List.mem_append, List.mem_singleton] at hd
        rcases hd with hd | rfl
        · obtain ⟨hlt, hold⟩ := hs.started d hd
          refine ⟨hnext ▸ hlt, fun call' hk => ?_⟩
          obtain ⟨-, c, hc, hkept⟩ := hback _ call' hk (hnew d hd)
          exact hkept.owner.trans (hold c hc)
        · exact ⟨hnext ▸ hsound.inv.fresh id call₀ hlive₀, hown⟩
      · have hne : k ≠ id := by
          rintro rfl
          rw [hown call' hk] at hnone
          cases hnone
        obtain ⟨hku, c, hc, hkept⟩ := hback k call' hk hne
        rw [hdispatched, List.mem_append, List.mem_singleton] at hd
        rcases hd with hd | rfl
        · exact hs.ahead d hd k c hc (hkept.owner.symm.trans hnone) (hkept.route ▸ hdroute)
        · -- What is left of the queue is behind its head.
          have hmem := (hu.queued _ route hr k).mpr
            ⟨call', hku, hnone, (Option.some.inj hdroute).symm⟩
          have hsorted := hu.sorted _ route hr
          rw [hq] at hmem hsorted
          rcases List.mem_cons.mp hmem with heq | hmem
          · exact absurd heq hne
          · exact (List.pairwise_cons.mp hsorted).1 k hmem
      · rw [hdispatched, List.map_append, List.nodup_append]
        refine ⟨hs.nodup, List.nodup_singleton _, ?_⟩
        intro a ha b hb
        obtain ⟨d, hd, rfl⟩ := List.mem_map.mp ha
        rw [List.mem_singleton.mp hb]
        exact hnew d hd
      · rw [hdispatched, List.filter_append, List.map_append, List.pairwise_append]
        refine ⟨hs.increasing name, ?_, fun a ha b hb => ?_⟩
        · by_cases hname : worker.route = name <;> simp [hname]
        · obtain ⟨d, hd, rfl⟩ := List.mem_map.mp ha
          obtain ⟨hd, hname⟩ := List.mem_filter.mp hd
          obtain ⟨d', hd', rfl⟩ := List.mem_map.mp hb
          obtain ⟨hd', hname'⟩ := List.mem_filter.mp hd'
          obtain rfl := List.mem_singleton.mp hd'
          exact hless d hd ((of_decide_eq_true hname).trans (of_decide_eq_true hname').symm)

theorem ordered {maxCalls maxBytes : Nat} {s : Sys} (h : (anyClock maxCalls maxBytes).Reachable s) :
    s.Ordered := by
  refine h.invariant ?_ ?_
  · rintro s rfl
    exact new_ordered maxCalls maxBytes
  · rintro s op t hreach hs ⟨-, rfl⟩
    exact next_ordered (sound hreach) hs op

/-! ### Time -/

theorem next_clock {s : Sys} {op : Op} (hop : s.Timely op) : s.clock ≤ (s.next op).clock := by
  cases op with
  | request caller route timeoutMs payload expiredAt admittedAt => exact hop.1.trans hop.2
  | tryTake id expiredAt now =>
      simp only [next]
      cases s.takes.lookup id with
      | none => exact le_rfl
      | some take => exact hop.1.trans hop.2
  | takeEnd id =>
      simp only [next]
      cases s.takes.lookup id <;> exact le_rfl
  | complete workerId id failed payload now => exact hop
  | expire id now => exact hop.1
  | _ => exact le_rfl

/-- Admissions are not in the future. -/
theorem admittedAt_le_clock {maxCalls maxBytes : Nat} {s : Sys}
    (h : (steady maxCalls maxBytes).Reachable s) :
    ∀ id admission, s.admitted.lookup id = some admission → admission.admittedAt ≤ s.clock := by
  refine h.invariant (P := fun s => ∀ id admission, s.admitted.lookup id = some admission →
    admission.admittedAt ≤ s.clock) ?_ ?_
  · rintro s rfl id admission hid
    cases hid
  · rintro s op t hreach hs ⟨hop, htimely, rfl⟩ id admission hid
    have hclock := next_clock htimely
    cases next_moved (sound (anyClock_of_steady hreach)) op with
    | ended _ _ hadmitted _ _ =>
        rw [hadmitted] at hid
        exact (hs id admission hid).trans hclock
    | admitted heq _ _ _ _ _ _ _ hadmitted _ _ =>
        subst heq
        rw [hadmitted, Table.lookup_insert_ite] at hid
        split_ifs at hid
        · obtain rfl := Option.some.inj hid
          exact le_rfl
        · exact (hs id admission hid).trans hclock
    | dispatched _ _ _ _ _ _ _ _ _ _ _ _ _ hadmitted _ _ =>
        rw [hadmitted] at hid
        exact (hs id admission hid).trans hclock

theorem remainingMs_bounds {deadline now : Nat} (h : now < deadline) {timeoutMs : Nat}
    (ht : deadline ≤ now + timeoutMs * nanosPerMilli) :
    1 ≤ remainingMs deadline now ∧ remainingMs deadline now ≤ timeoutMs ∧
    (timeoutMs ≤ 30000 → (remainingMs deadline now - 1) * nanosPerMilli < deadline - now ∧
      deadline - now ≤ remainingMs deadline now * nanosPerMilli) := by
  rw [nanosPerMilli] at *
  rw [remainingMs, nanosPerMilli]
  omega

/-- A job `d` handed out in state `s`, to a worker with a free slot, for the request admitted under
its identifier, before the deadline of that request. -/
structure HandsOut (s : Sys) (d : Dispatch) (admission : Admission) (worker : Worker) : Prop where
  admitted : s.admitted.lookup d.job.callId = some admission
  payload : d.job.payload = admission.payload
  registered : s.rpc.workers.lookup d.worker = some worker
  route : worker.route = admission.route ∧ d.route = some admission.route
  free : Table.count (fun _ call => call.owner = some d.worker) s.rpc.calls < worker.concurrency
  early : d.handedAt < admission.deadline
  positive : 1 ≤ d.job.remainingMs
  atMost : d.job.remainingMs ≤ admission.timeoutMs
  rounded : ∀ opcode body, decodeRequest opcode body =
      .ok (.rpc admission.route admission.timeoutMs admission.payload) →
    (d.job.remainingMs - 1) * nanosPerMilli < admission.deadline - d.handedAt ∧
      admission.deadline - d.handedAt ≤ d.job.remainingMs * nanosPerMilli

theorem next_handsOut {maxCalls maxBytes : Nat} {s : Sys}
    (hreach : (steady maxCalls maxBytes).Reachable s) {op : Op} (htimely : s.Timely op) :
    (s.next op).dispatched = s.dispatched ∨
    ∃ d admission worker, (s.next op).dispatched = s.dispatched ++ [d] ∧
      s.HandsOut d admission worker := by
  have hany := anyClock_of_steady hreach
  cases next_moved (sound hany) op with
  | ended _ _ _ hdispatched _ => exact Or.inl hdispatched
  | admitted _ _ _ _ _ _ _ _ _ _ hdispatched => exact Or.inl hdispatched
  | @dispatched u take expiredAt now w id worker route queue call hop h hu hw hfree hr hq hlive
      howner hroute htime ht hnext hadmitted htickets hdispatched =>
      obtain ⟨call₀, hlive₀, hkept⟩ := h.back hlive
      obtain ⟨admission, hid, -, hroute₀, hpayload, hdeadline⟩ :=
        (recorded hany).calls id call₀ hlive₀
      have hname : worker.route = admission.route :=
        hroute.symm.trans (hkept.route.trans hroute₀)
      have hcall : call.deadline = admission.deadline := hkept.deadline.trans hdeadline
      rw [hcall] at htime hdispatched
      subst hop
      have hnow : admission.deadline ≤ now + admission.timeoutMs * nanosPerMilli := by
        have := (admittedAt_le_clock hreach id admission hid).trans (htimely.1.trans htimely.2)
        rw [Admission.deadline]
        omega
      obtain ⟨hpos, hle, hround⟩ := remainingMs_bounds htime hnow
      exact Or.inr ⟨_, admission, worker, hdispatched, hid, hkept.payload.trans hpayload, hw,
        ⟨hname, congrArg some hname⟩, (sound hany).inv.running w worker hw ▸ hfree, htime, hpos, hle,
        fun opcode body hdecode => hround (decodeRequest_timeout hdecode).2⟩

/-! ### Ownership -/

/-- An owned call never gets another owner and never returns to a queue, and its identifier is not
used again. -/
theorem next_owner {s : Sys} (hsound : s.Sound) (op : Op) {id w : Nat} (hid : id < s.rpc.nextId)
    (hown : ∀ call, s.rpc.calls.lookup id = some call → call.owner = some w) :
    id < (s.next op).rpc.nextId ∧
    ∀ call, (s.next op).rpc.calls.lookup id = some call → call.owner = some w := by
  cases next_moved hsound op with
  | ended h hnext _ _ _ =>
      refine ⟨hnext ▸ hid, fun call' hlive => ?_⟩
      obtain ⟨call, hlive₀, hkept⟩ := h.back hlive
      exact hkept.owner.trans (hown call hlive₀)
  | admitted _ h hnext _ _ hv ht hnext' _ _ _ =>
      refine ⟨hnext' ▸ hid.trans (Nat.lt_succ_self _), fun call' hlive => ?_⟩
      obtain ⟨call₁, hlive₁, hkept₁⟩ := ht.back hlive
      rw [hv, State.lookup_accept_calls, hnext, if_neg hid.ne] at hlive₁
      obtain ⟨call, hlive₀, hkept⟩ := h.back hlive₁
      exact (hkept.trans hkept₁).owner.trans (hown call hlive₀)
  | @dispatched u take expiredAt now w' k worker route queue call _ h _ _ _ _ _ hlive howner _ _ ht
      hnext _ _ _ =>
      refine ⟨hnext ▸ hid, fun call' hlive' => ?_⟩
      rw [ht, State.lookup_handOut_calls] at hlive'
      split_ifs at hlive' with hk
      · subst hk
        obtain ⟨call₀, hlive₀, hkept⟩ := h.back hlive
        have hnone := hkept.owner.symm.trans howner
        rw [hown call₀ hlive₀] at hnone
        cases hnone
      · obtain ⟨call₀, hlive₀, hkept⟩ := h.back hlive'
        exact hkept.owner.trans (hown call₀ hlive₀)

theorem run_owner {maxCalls maxBytes : Nat} {s t : Sys} {ops : List Op}
    (hs : (anyClock maxCalls maxBytes).Reachable s) (hrun : (anyClock maxCalls maxBytes).Run s ops t)
    {id w : Nat} (hid : id < s.rpc.nextId)
    (hown : ∀ call, s.rpc.calls.lookup id = some call → call.owner = some w) :
    ∀ call, t.rpc.calls.lookup id = some call → call.owner = some w := by
  have hboth := hrun.preserves (A := fun _ => True)
    (P := fun s => id < s.rpc.nextId ∧
      ∀ call, s.rpc.calls.lookup id = some call → call.owner = some w) ?_ hs ⟨hid, hown⟩
    fun _ _ => trivial
  · exact hboth.2
  · rintro s op t hreach ⟨hid, hown⟩ - ⟨-, rfl⟩
    exact next_owner (sound hreach) op hid hown

theorem steady_run {maxCalls maxBytes : Nat} {s t : Sys} {ops : List Op}
    (h : (steady maxCalls maxBytes).Run s ops t) : (anyClock maxCalls maxBytes).Run s ops t := by
  induction h with
  | nil => exact .nil
  | snoc _ hstep ih => exact ih.snoc ⟨hstep.1, hstep.2.2⟩

/-- **At most once, in order and in time.** In every run with a clock that never goes back: no
identifier is handed out twice; on each route they are handed out in increasing order; every job goes
to a worker of its route with a free slot, before its deadline, with the payload of its request and
the time left; and an owned call keeps its owner and stays out of every queue. -/
theorem dispatched_once_in_order_in_time {maxCalls maxBytes : Nat} {s : Sys}
    (h : (steady maxCalls maxBytes).Reachable s) :
    (s.dispatched.map fun d => d.job.callId).Nodup ∧
    (∀ name, ((s.dispatched.filter fun d => d.route = some name).map
      fun d => d.job.callId).Pairwise (· < ·)) ∧
    (∀ op t, (steady maxCalls maxBytes).step s op t → t.dispatched = s.dispatched ∨
      ∃ d admission worker, t.dispatched = s.dispatched ++ [d] ∧ s.HandsOut d admission worker) ∧
    (∀ id call w, s.rpc.calls.lookup id = some call → call.owner = some w →
      ∀ ops t, (steady maxCalls maxBytes).Run s ops t →
        (∀ call', t.rpc.calls.lookup id = some call' → call'.owner = some w) ∧
        ∀ name route, t.rpc.routes.lookup name = some route → id ∉ route.queue) := by
  have hany := anyClock_of_steady h
  have hordered := ordered hany
  refine ⟨hordered.nodup, hordered.increasing, ?_, fun id call w hlive howner ops t hrun => ?_⟩
  · rintro op t ⟨-, htimely, rfl⟩
    exact next_handsOut h htimely
  · have hown := run_owner hany (steady_run hrun) ((sound hany).inv.fresh id call hlive)
      (w := w) fun call' hlive' => by
        rw [← howner, Option.some.inj (hlive.symm.trans hlive')]
    refine ⟨hown, fun name route hr hid => ?_⟩
    obtain ⟨call', hlive', hnone, -⟩ :=
      ((sound (anyClock_of_steady (h.run hrun))).inv.queued name route hr id).mp hid
    rw [hown call' hlive'] at hnone
    cases hnone

theorem dispatched_served :
    Sys.served.dispatched = [⟨1, some "sum", ⟨1, 5, [7]⟩, 2000⟩] ∧
      (Sys.served.dispatched.map fun d => d.job.callId).Nodup :=
  ⟨by decide, (dispatched_once_in_order_in_time served_reachable).1⟩

end Sys

end VeloBus.Rpc
