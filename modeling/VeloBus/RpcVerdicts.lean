import VeloBus.RpcDeparture
import VeloBus.WireAnswers

/-! What the replies of a whole run stand on. `reports` lists the COMPLETEs that the scheduler took, oldest first; a
reply that was sent at any time is one of them, or says of the call what the rest of the run has not changed. -/

namespace VeloBus.Rpc

/-- A COMPLETE that the scheduler took. -/
structure Report where
  worker : Nat
  id : Nat
  failed : Bool
  payload : Bytes
  now : Nat
deriving DecidableEq, Repr

/-- What decoded requests do to the scheduler, with a clock that never goes back. -/
def prompt (maxCalls maxBytes : Nat) : Transition Sys Op where
  start s := s = Sys.new maxCalls maxBytes
  step s op t := s.Enabled op ∧ s.Timely op ∧ op.Decoded ∧ t = s.next op

namespace Sys

/-- What the scheduler takes in a step. -/
def reports (s : Sys) : Op → List Report
  | .complete worker id failed payload now =>
    match (s.rpc.complete worker id failed payload now).2 with
    | .ok () => [⟨worker, id, failed, payload, now⟩]
    | _ => []
  | _ => []

/-- The scheduler handed the job of a call to a worker. -/
def Handed (s : Sys) (worker id : Nat) : Prop :=
  ∃ dispatch ∈ s.dispatched, dispatch.worker = worker ∧ dispatch.job.callId = id

/-- A worker that had the job of the call completed it in time. -/
structure Completes (s : Sys) (reports : List Report) (id : Nat) (report : Report) : Prop where
  mem : report ∈ reports
  call : report.id = id
  handed : s.Handed report.worker id
  inTime : ∃ admission, s.admitted.lookup id = some admission ∧ report.now < admission.deadline
  legal : (Request.complete report.id report.failed report.payload).Legal

/-- What a reply stands on. -/
inductive Vouched (s : Sys) (reports : List Report) (id : Nat) : Reply → Prop where
  | success {report : Report} (h : s.Completes reports id report) (hfailed : report.failed = false) :
      Vouched s reports id (.ok report.payload)
  | failure {report : Report} (h : s.Completes reports id report) (hfailed : report.failed = true) :
      Vouched s reports id (.error ⟨Code.handlerError, Bytes.fromUtf8Lossy report.payload⟩)
  | late {admission : Admission} (hadmitted : s.admitted.lookup id = some admission)
      (htime : admission.deadline ≤ s.clock) : Vouched s reports id (.error deadlineError)
  | workerLost {worker : Nat} (hhanded : s.Handed worker id) (hgone : worker ∉ s.rpc.connections) :
      Vouched s reports id (.error workerLostError)
  | lastWorkerLost (hover : s.Over id) (hnever : ∀ worker, ¬s.Handed worker id) :
      Vouched s reports id (.error lastWorkerLostError)

/-! ### What stays -/

section Next

variable {s : Sys} (hsound : s.Sound) (hrecorded : s.Recorded) {op : Op}

include hsound

theorem Handed.next {worker id : Nat} (h : s.Handed worker id) : (s.next op).Handed worker id := by
  obtain ⟨dispatch, hmem, hsame⟩ := h
  exact ⟨dispatch, (dispatched_next hsound op).subset hmem, hsame⟩

/-- Nothing is handed out of a call that is over. -/
theorem Handed.back {worker id : Nat} (hover : s.Over id) (h : (s.next op).Handed worker id) : s.Handed worker id := by
  obtain ⟨dispatch, hmem, hsame⟩ := h
  cases next_moved hsound op with
  | ended _ _ _ hdispatched _ => exact ⟨dispatch, hdispatched ▸ hmem, hsame⟩
  | admitted _ _ _ _ _ _ _ _ _ _ hdispatched => exact ⟨dispatch, hdispatched ▸ hmem, hsame⟩
  | dispatched _ hevolves _ _ _ _ _ hlive _ _ _ _ _ _ _ hdispatched =>
      rw [hdispatched] at hmem
      rcases List.mem_append.mp hmem with hold | hnew
      · exact ⟨dispatch, hold, hsame⟩
      · obtain rfl := List.mem_singleton.mp hnew
        obtain ⟨-, rfl⟩ := hsame
        rw [(hevolves.absent hover.2).1] at hlive
        cases hlive

include hrecorded

theorem admitted_next {id : Nat} {admission : Admission} (h : s.admitted.lookup id = some admission) (op : Op) :
    (s.next op).admitted.lookup id = some admission := by
  cases next_moved hsound op with
  | ended _ _ hadmitted _ _ => rwa [hadmitted]
  | dispatched _ _ _ _ _ _ _ _ _ _ _ _ _ hadmitted _ _ => rwa [hadmitted]
  | admitted _ _ _ _ _ _ _ _ hadmitted _ _ =>
      -- The new call has an identifier of its own.
      rw [hadmitted, Table.lookup_insert_ite, if_neg (hrecorded.admitted id admission h).1.ne]
      exact h

theorem Completes.next {reports : List Report} {id : Nat} {report : Report} (h : s.Completes reports id report)
    (more : List Report) : (s.next op).Completes (reports ++ more) id report where
  mem := List.mem_append_left _ h.mem
  call := h.call
  handed := h.handed.next hsound
  inTime := by
    obtain ⟨admission, hadmitted, htime⟩ := h.inTime
    exact ⟨admission, admitted_next hsound hrecorded hadmitted op, htime⟩
  legal := h.legal

/-- Whatever a reply stands on, it stands on for good. -/
theorem Vouched.next {reports : List Report} {id : Nat} {reply : Reply} (h : s.Vouched reports id reply)
    (hbacked : ∀ worker, s.Handed worker id → worker ∈ s.everConnected) (hop : s.Enabled op) (htimely : s.Timely op)
    (more : List Report) : (s.next op).Vouched (reports ++ more) id reply := by
  cases h with
  | success h hfailed => exact .success (h.next hsound hrecorded more) hfailed
  | failure h hfailed => exact .failure (h.next hsound hrecorded more) hfailed
  | late hadmitted htime =>
      exact .late (admitted_next hsound hrecorded hadmitted op) (htime.trans (next_clock htimely))
  | workerLost hhanded hgone =>
      refine .workerLost (hhanded.next hsound) fun hconn => ?_
      rcases next_connections hsound op hconn with ⟨hbefore, -⟩ | rfl
      · exact hgone hbefore
      · exact hop (hbacked _ hhanded)
  | lastWorkerLost hover hnever =>
      exact .lastWorkerLost (hover.next hsound op) fun worker hhanded => hnever worker (hhanded.back hsound hover)

end Next

/-- A ticket lives until it is dropped. -/
theorem tickets_kept {s : Sys} {op : Op} {id : Nat} (hop : op ≠ .cancel id) (h : (s.tickets.lookup id).isSome) :
    ((s.next op).tickets.lookup id).isSome := by
  cases op with
  | request caller route timeoutMs payload expiredAt admittedAt =>
      simp only [next]
      cases (s.rpc.request caller route timeoutMs payload expiredAt admittedAt).2 with
      | ok ticket =>
          simp only [issue, Table.lookup_insert_ite]
          split_ifs
          · rfl
          · exact h
      | error error => exact h
      | panicked => exact h
  | tryTake take expiredAt now =>
      simp only [next]
      cases s.takes.lookup take <;> exact h
  | takeEnd take =>
      simp only [next]
      cases s.takes.lookup take <;> exact h
  | cancel id' =>
      have hne : id ≠ id' := fun heq => hop (congrArg Op.cancel heq.symm)
      simp only [next, Table.lookup_erase_ite, if_neg hne]
      exact h
  | _ => exact h

/-- Calls are admitted under the next identifier. -/
theorem admitted_back {s : Sys} (hsound : s.Sound) {op : Op} {id : Nat} {admission : Admission}
    (h : (s.next op).admitted.lookup id = some admission) : s.admitted.lookup id = some admission ∨
    ∃ expiredAt, op = .request admission.caller admission.route admission.timeoutMs admission.payload expiredAt
      admission.admittedAt ∧ id = s.rpc.nextId := by
  cases next_moved hsound op with
  | ended _ _ hadmitted _ _ => exact Or.inl (hadmitted ▸ h)
  | dispatched _ _ _ _ _ _ _ _ _ _ _ _ _ hadmitted _ _ => exact Or.inl (hadmitted ▸ h)
  | admitted hop _ _ _ _ _ _ _ hadmitted _ _ =>
      rw [hadmitted, Table.lookup_insert_ite] at h
      split_ifs at h with hid
      · obtain rfl := Option.some.inj h
        exact Or.inr ⟨_, hop, hid⟩
      · exact Or.inl h

/-- A connection stays until it is dropped. -/
theorem connections_kept {s : Sys} (hsound : s.Sound) {op : Op} {c : Nat} (hop : op ≠ .disconnect c)
    (hc : c ∈ s.rpc.connections) : c ∈ (s.next op).rpc.connections := by
  have hframe : ∀ {t : State}, Frame s.rpc t → c ∈ t.connections := fun h => h.connections.symm ▸ hc
  cases op with
  | connected connection => exact Finset.mem_insert_of_mem hc
  | register workerId name concurrency queueLimit =>
      rcases State.register_cases s.rpc workerId name concurrency queueLimit with ⟨error, heq⟩ | ⟨-, -, -, heq⟩
      all_goals
        simp only [next, heq]
        exact hc
  | request => exact hframe (State.request_frame hsound.inv _ _ _ _ _ _)
  | takeStart workerId =>
      rcases State.takeStart_cases s.rpc workerId with ⟨error, heq⟩ | ⟨worker, -, -, heq⟩
      all_goals
        simp only [next, heq]
        exact hc
  | tryTake id expiredAt now =>
      cases htake : s.takes.lookup id with
      | none =>
          simp only [next, htake]
          exact hc
      | some take =>
          simp only [next, htake]
          exact hframe (State.tryTake_frame hsound.inv _ _ _)
  | takeEnd id =>
      cases htake : s.takes.lookup id with
      | none =>
          simp only [next, htake]
          exact hc
      | some take =>
          simp only [next, htake]
          exact hc
  | complete => exact hframe (State.complete_frame _ _ _ _ _ _)
  | expire id now => exact hframe (State.expire_settles s.rpc id).shrinks.frame
  | cancel id => exact hframe (State.cancel_settles s.rpc id).shrinks.frame
  | disconnect x =>
      have hconnections := (State.disconnect_seats hsound.inv x).1
      simp only [next, hconnections]
      exact Finset.mem_erase.mpr ⟨fun heq => hop (congrArg Op.disconnect heq.symm), hc⟩
  | _ => exact hc

/-! ### Owners -/

/-- A call that has an owner was handed to it, and jobs are handed to connections. -/
structure Backed (s : Sys) : Prop where
  owner : ∀ id call worker, s.rpc.calls.lookup id = some call → call.owner = some worker → s.Handed worker id
  ever : ∀ worker id, s.Handed worker id → worker ∈ s.everConnected

theorem Backed.next {s : Sys} (hsound : s.Sound) (h : s.Backed) (op : Op) : (s.next op).Backed where
  owner id call worker hlive howner := by
    cases next_moved hsound op with
    | ended hevolves _ _ _ _ =>
        obtain ⟨before, hbefore, hkept⟩ := hevolves.back hlive
        exact (h.owner id before worker hbefore (hkept.owner.symm.trans howner)).next hsound
    | admitted _ hevolves hnext _ hcall hv ht _ _ _ _ =>
        obtain ⟨call', hlive', hkept'⟩ := ht.back hlive
        rw [hv, State.lookup_accept_calls] at hlive'
        split_ifs at hlive' with hid
        · obtain rfl := Option.some.inj hlive'
          rw [hcall] at hkept'
          cases hkept'.owner.symm.trans howner
        · obtain ⟨before, hbefore, hkept⟩ := hevolves.back hlive'
          exact (h.owner id before worker hbefore ((hkept.trans hkept').owner.symm.trans howner)).next hsound
    | dispatched _ hevolves _ _ _ _ _ hbusy _ _ _ ht _ _ _ hdispatched =>
        rw [ht, State.lookup_handOut_calls] at hlive
        split_ifs at hlive with hid
        · subst hid
          rw [hbusy, Option.map_some] at hlive
          obtain rfl := Option.some.inj hlive
          rw [← Option.some.inj howner]
          unfold Handed
          rw [hdispatched]
          exact ⟨_, List.mem_append_right _ (List.mem_singleton_self _), rfl, rfl⟩
        · obtain ⟨before, hbefore, hkept⟩ := hevolves.back hlive
          exact (h.owner id before worker hbefore (hkept.owner.symm.trans howner)).next hsound
  ever worker id hhanded := by
    have hever := next_everConnected s op
    obtain ⟨dispatch, hmem, hworker, hid⟩ := hhanded
    cases next_moved hsound op with
    | ended _ _ _ hdispatched _ => exact hever (h.ever worker id ⟨dispatch, hdispatched ▸ hmem, hworker, hid⟩)
    | admitted _ _ _ _ _ _ _ _ _ _ hdispatched =>
        exact hever (h.ever worker id ⟨dispatch, hdispatched ▸ hmem, hworker, hid⟩)
    | dispatched _ _ _ hw _ _ _ _ _ _ _ _ _ _ _ hdispatched =>
        rw [hdispatched] at hmem
        rcases List.mem_append.mp hmem with hold | hnew
        · exact hever (h.ever worker id ⟨dispatch, hold, hworker, hid⟩)
        · obtain rfl := List.mem_singleton.mp hnew
          obtain rfl := hworker
          exact hever (hsound.ever (hsound.inv.connected _ _ hw))

theorem new_backed (maxCalls maxBytes : Nat) : (Sys.new maxCalls maxBytes).Backed where
  owner := nofun
  ever := by
    rintro worker id ⟨dispatch, hmem, -⟩
    cases hmem

/-! ### Replies -/

/-- The last worker of a route takes the queued calls of the route with it. -/
theorem orphan_over {s : Sys} (hsound : s.Sound) {id w : Nat} {call : Call}
    (hlive : s.rpc.calls.lookup id = some call) (howner : call.owner = none)
    (hlast : ∀ w' worker', s.rpc.workers.lookup w' = some worker' → worker'.route = call.route → w' = w) :
    (s.next (.disconnect w)).Over id := by
  obtain ⟨route, hr⟩ := hsound.inv.unowned id call hlive howner
  obtain ⟨hne, hnodup, hstaff⟩ := hsound.inv.staffed call.route route hr
  have hlastOf : s.rpc.LastOf w call.route := by
    unfold State.LastOf
    rw [hr, Option.map_some, Option.some_inj, State.eq_singleton hne hnodup]
    intro w' hmem
    obtain ⟨worker', hw', hroute'⟩ := (hstaff w').mp hmem
    exact hlast w' worker' hw' hroute'
  refine ⟨(State.disconnect_nextId hsound.inv w).symm ▸ hsound.inv.fresh id call hlive, ?_⟩
  have hcall := (State.disconnect_call hsound.inv w id).1
  rw [hlive, Option.bind_some, State.survivor_eq_none.mpr (Or.inr ⟨howner, Or.inr hlastOf⟩)] at hcall
  exact hcall

theorem Completes.of_owner {s : Sys} (hsound : s.Sound) (hrecorded : s.Recorded) (hbacked : s.Backed)
    {reports : List Report} {id worker now : Nat} {failed : Bool} {payload : Bytes} {call : Call}
    (hlive : s.rpc.calls.lookup id = some call) (howner : call.owner = some worker) (htime : now < call.deadline)
    (hlegal : (Request.complete id failed payload).Legal) :
    (s.next (.complete worker id failed payload now)).Completes
      (reports ++ s.reports (.complete worker id failed payload now)) id ⟨worker, id, failed, payload, now⟩ where
  mem := by
    apply List.mem_append_right
    simp only [Sys.reports, complete_ok hsound ⟨call, hlive, howner⟩, List.mem_singleton]
  call := rfl
  handed := (hbacked.owner id call worker hlive howner).next hsound
  inTime := by
    obtain ⟨admission, hadmitted, -, -, -, hdeadline⟩ := hrecorded.calls id call hlive
    exact ⟨admission, admitted_next hsound hrecorded hadmitted _, hdeadline ▸ htime⟩
  legal := hlegal

/-- A true reply is vouched for by what the run has seen. -/
theorem Truthful.vouched {s : Sys} (hsound : s.Sound) (hrecorded : s.Recorded) (hordered : s.Ordered)
    (hbacked : s.Backed) {reports : List Report} {op : Op} (hop : s.Enabled op) (hdecoded : op.Decoded) {id : Nat}
    {call : Call} (hlive : s.rpc.calls.lookup id = some call) {reply : Reply} (h : s.Truthful op id call reply) :
    (s.next op).Vouched (reports ++ s.reports op) id reply := by
  cases h with
  | success heq howner htime =>
      subst heq
      exact .success (.of_owner hsound hrecorded hbacked hlive howner htime hdecoded) rfl
  | failure heq howner htime =>
      subst heq
      exact .failure (.of_owner hsound hrecorded hbacked hlive howner htime hdecoded) rfl
  | late htime =>
      obtain ⟨admission, hadmitted, -, -, -, hdeadline⟩ := hrecorded.calls id call hlive
      exact .late (admitted_next hsound hrecorded hadmitted op) (hdeadline ▸ htime)
  | workerLost heq howner =>
      subst heq
      refine .workerLost ((hbacked.owner id call _ hlive howner).next hsound) fun hconn => ?_
      rcases next_connections hsound _ hconn with ⟨-, hne⟩ | heq
      · exact hne rfl
      · cases heq
  | lastWorkerLost heq howner _ _ hlast =>
      subst heq
      have hover := orphan_over hsound hlive howner hlast
      refine .lastWorkerLost hover ?_
      rintro worker ⟨dispatch, hmem, -, hid⟩
      -- What was handed out has an owner.
      have hstarted := (hordered.started dispatch hmem).2 call
      rw [hid, howner] at hstarted
      cases hstarted hlive

/-- What the scheduler took, and what it answered. -/
structure Verified (s : Sys) (reports : List Report) : Prop where
  backed : s.Backed
  sourced : s.Sourced
  finished : ∀ report ∈ reports, s.Over report.id
  once : (reports.map Report.id).Nodup
  replies : ∀ id, ∀ reply ∈ replies id s.rpc.outbox, s.Vouched reports id reply

theorem reports_over {s : Sys} (hsound : s.Sound) {op : Op} {report : Report} (h : report ∈ s.reports op) :
    s.reports op = [report] ∧ ¬s.Over report.id ∧ (s.next op).Over report.id := by
  cases op with
  | complete worker id failed payload now =>
      cases hok : (s.rpc.complete worker id failed payload now).2 with
      | ok value =>
          simp only [Sys.reports, hok, List.mem_singleton] at h ⊢
          rw [h]
          exact ⟨rfl, complete_over hsound hok⟩
      | error error =>
          simp only [Sys.reports, hok] at h
          cases h
      | panicked =>
          simp only [Sys.reports, hok] at h
          cases h
  | _ => cases h

theorem Verified.step {s : Sys} (hsound : s.Sound) (hrecorded : s.Recorded) (hordered : s.Ordered)
    {reports : List Report} (h : s.Verified reports) {op : Op} (hop : s.Enabled op) (htimely : s.Timely op)
    (hdecoded : op.Decoded) : (s.next op).Verified (reports ++ s.reports op) where
  backed := h.backed.next hsound op
  sourced := h.sourced.next hsound hrecorded op
  finished report hmem := by
    rcases List.mem_append.mp hmem with hold | hnew
    · exact (h.finished report hold).next hsound op
    · exact (reports_over hsound hnew).2.2
  once := by
    rw [List.map_append]
    cases hnew : s.reports op with
    | nil => exact (List.append_nil (reports.map Report.id)).symm ▸ h.once
    | cons report rest =>
        obtain ⟨hsingle, hnot, -⟩ := reports_over hsound (hnew ▸ List.mem_cons_self : report ∈ s.reports op)
        rw [← hnew, hsingle]
        refine h.once.append (List.nodup_singleton _) fun id hmem hmem' => hnot ?_
        obtain ⟨report', hreport, rfl⟩ := List.mem_map.mp hmem
        exact List.mem_singleton.mp hmem' ▸ h.finished report' hreport
  replies id reply hmem := by
    obtain ⟨new, hnew⟩ := next_replies hsound op id
    rw [hnew] at hmem
    rcases List.mem_append.mp hmem with hold | hfresh
    · exact (h.replies id reply hold).next hsound hrecorded (h.backed.ever · id) hop htimely _
    · obtain ⟨call, hlive, -, htruthful⟩ := next_truthful hsound hrecorded hop htimely hnew hfresh
      exact htruthful.vouched hsound hrecorded hordered h.backed hop hdecoded hlive

end Sys

/-- The scheduler with what it took. -/
def witnessed (maxCalls maxBytes : Nat) : Transition (Sys × List Report) Op :=
  (prompt maxCalls maxBytes).observed [] fun s op reports => reports ++ s.reports op

section Runs

variable {maxCalls maxBytes : Nat}

theorem steady_of_prompt {s : Sys} (h : (prompt maxCalls maxBytes).Reachable s) :
    (steady maxCalls maxBytes).Reachable s := by
  refine h.mono ?_ ?_
  · intro s hs
    exact hs
  · rintro s op t ⟨hop, htimely, -, ht⟩
    exact ⟨hop, htimely, ht⟩

theorem verified {s : Sys × List Report} (h : (witnessed maxCalls maxBytes).Reachable s) : s.1.Verified s.2 := by
  refine h.invariant (P := fun s => s.1.Verified s.2) ?_ ?_
  · rintro ⟨s, reports⟩ ⟨rfl, rfl⟩
    exact ⟨Sys.new_backed maxCalls maxBytes, nofun, nofun, List.nodup_nil, nofun⟩
  · rintro ⟨s, reports⟩ op ⟨t, reports'⟩ hreach hs ⟨⟨hop, htimely, hdecoded, rfl⟩, rfl⟩
    have hany := anyClock_of_steady (steady_of_prompt hreach.of_observed)
    exact hs.step (Sys.sound hany) (Sys.recorded hany) (Sys.ordered hany) hop htimely hdecoded

end Runs

end VeloBus.Rpc
