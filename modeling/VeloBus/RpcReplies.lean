import VeloBus.RpcDispatch

/-! Replies over whole runs. A call that is waited for keeps its sender until the one reply is sent
(`Answered`), every reply says what happened, and the deadline counter counts the deadline replies. -/

namespace VeloBus.Rpc

/-! ### Counting deadline replies -/

/-- The deadline replies among the effects, whatever the call. -/
def deadlineReplies (effects : List Effect) : Nat :=
  effects.countP fun
    | .reply _ reply => reply = .error deadlineError
    | .notify _ => false

theorem deadlineReplies_append (es es' : List Effect) :
    deadlineReplies (es ++ es') = deadlineReplies es + deadlineReplies es' := List.countP_append

/-- Effects that reply to one call only hold as many deadline replies as that call gets. -/
theorem deadlineReplies_of_single (id : Nat) {new : List Effect}
    (h : ∀ k, k ≠ id → replies k new = []) :
    deadlineReplies new = (replies id new).count (.error deadlineError) := by
  induction new with
  | nil => rfl
  | cons e new ih =>
      have htail : ∀ k, k ≠ id → replies k new = [] := by
        intro k hk
        have := h k hk
        rw [← List.singleton_append, replies_append] at this
        exact (List.append_eq_nil_iff.mp this).2
      rw [← List.singleton_append, deadlineReplies_append, replies_append, List.count_append,
        ih htail]
      congr 1
      cases e with
      | notify w => rfl
      | reply k reply =>
          by_cases hk : k = id
          · simp [hk, deadlineReplies, List.count_singleton, List.countP_singleton]
          · have := h k hk
            rw [← List.singleton_append, replies_append, replies_reply, if_pos rfl] at this
            cases this

theorem Settle.timed {s t : State} {id : Nat} {call : Call} {reply : Option Reply} {freed : Bool}
    (h : Settle s id call reply freed t)
    (hs : s.timedOut = min (deadlineReplies s.outbox) u64Max) :
    t.timedOut = min (deadlineReplies t.outbox) u64Max := by
  obtain ⟨new, hout, hnew⟩ := h.outbox
  have hsingle : deadlineReplies new = (replies id new).count (.error deadlineError) :=
    deadlineReplies_of_single id fun k hk => by rw [hnew, if_neg fun h => hk h.1]
  rw [h.timedOut, hout, deadlineReplies_append, hsingle, hnew]
  by_cases hr : call.response = true
  · cases reply with
    | none => simpa [hr] using hs
    | some reply =>
        by_cases hd : reply = .error deadlineError
        · simp only [hr, hd, true_and, if_true, Option.toList_some, List.count_singleton_self,
            saturatingSucc, saturatingAdd, hs]
          omega
        · simpa [hr, hd, List.count_singleton] using hs
  · simpa [hr] using hs

theorem Evolves.timed {rule : Nat → Call → Option Reply → Bool → Prop} {s t : State}
    (h : Evolves rule s t) (hs : s.timedOut = min (deadlineReplies s.outbox) u64Max) :
    t.timedOut = min (deadlineReplies t.outbox) u64Max := by
  induction h with
  | refl => exact hs
  | settle _ hone _ ih => exact hone.timed ih
  | aside _ _ htimed hout hnew ih =>
      have hsingle := deadlineReplies_of_single 0 fun k _ => hnew k
      rw [hnew, List.count_nil] at hsingle
      rw [htimed, ih, hout, deadlineReplies_append, hsingle, Nat.add_zero]

namespace Sys

theorem timedOut_eq {maxCalls maxBytes : Nat} {s : Sys}
    (h : (anyClock maxCalls maxBytes).Reachable s) :
    s.rpc.timedOut = min (deadlineReplies s.rpc.outbox) u64Max := by
  refine h.invariant
    (P := fun s => s.rpc.timedOut = min (deadlineReplies s.rpc.outbox) u64Max) ?_ ?_
  · rintro s rfl
    rfl
  · rintro s op t hreach hs ⟨-, rfl⟩
    cases next_moved (sound hreach) op with
    | ended hevolves _ _ _ _ => exact hevolves.timed hs
    | @admitted u v _ _ _ _ _ _ call _ hevolves _ _ _ hv ht _ _ _ _ =>
        refine ht.timed ?_
        rw [hv]
        exact hevolves.timed hs
    | dispatched _ hevolves _ _ _ _ _ _ _ _ _ ht _ _ _ _ =>
        rw [ht]
        exact hevolves.timed hs

/-! ### Truth -/

/-- What must have happened for a reply to be sent in a step. -/
inductive Truthful (s : Sys) (op : Op) (id : Nat) (call : Call) : Reply → Prop where
  | success {worker now : Nat} {payload : Bytes}
      (hop : op = .complete worker id false payload now) (howner : call.owner = some worker)
      (htime : now < call.deadline) : Truthful s op id call (.ok payload)
  | failure {worker now : Nat} {payload : Bytes}
      (hop : op = .complete worker id true payload now) (howner : call.owner = some worker)
      (htime : now < call.deadline) :
      Truthful s op id call (.error ⟨Code.handlerError, Bytes.fromUtf8Lossy payload⟩)
  | late (htime : call.deadline ≤ (s.next op).clock) :
      Truthful s op id call (.error deadlineError)
  | workerLost {worker : Nat} (hop : op = .disconnect worker) (howner : call.owner = some worker) :
      Truthful s op id call (.error workerLostError)
  | lastWorkerLost {w : Nat} {worker : Worker} (hop : op = .disconnect w)
      (howner : call.owner = none) (hw : s.rpc.workers.lookup w = some worker)
      (hroute : worker.route = call.route)
      (hlast : ∀ w' worker', s.rpc.workers.lookup w' = some worker' →
        worker'.route = call.route → w' = w) :
      Truthful s op id call (.error lastWorkerLostError)

theorem ends_truthful {s : Sys} {op : Op} (hop : s.Enabled op) (htimely : s.Timely op) {id : Nat}
    {call : Call} (hticket : ∀ ticket, s.tickets.lookup id = some ticket →
      ticket.deadline = call.deadline) {reply : Reply} {freed : Bool}
    (h : s.Ends op id call (some reply) freed) : s.Truthful op id call reply := by
  cases op with
  | request caller route timeoutMs payload expiredAt admittedAt =>
      obtain ⟨-, -, hlate, hreply, -⟩ := h
      obtain rfl := Option.some.inj hreply
      exact .late (hlate.trans htimely.2)
  | tryTake take expiredAt now =>
      obtain ⟨name, -, -, hlate, hreply, -⟩ := h
      obtain rfl := Option.some.inj hreply
      obtain ⟨t, ht, -⟩ := (Option.any_eq_true _ _).mp hop
      refine .late ?_
      simp only [next, ht]
      exact hlate.trans (max_le htimely.2 le_rfl)
  | complete worker k failed payload now =>
      obtain ⟨rfl, howner, hreply, -⟩ := h
      obtain rfl := Option.some.inj hreply
      rw [State.completion]
      by_cases hlate : call.deadline ≤ now
      · rw [if_pos hlate]
        exact .late hlate
      · rw [if_neg hlate]
        rw [not_le] at hlate
        cases failed with
        | false => exact .success rfl howner hlate
        | true => exact .failure rfl howner hlate
  | expire k now =>
      obtain ⟨rfl, hreply, -⟩ := h
      obtain rfl := Option.some.inj hreply
      obtain ⟨ticket, ht⟩ := Option.isSome_iff_exists.mp hop
      have hlate := htimely.2
      rw [ht, Option.all_some, decide_eq_true_eq, hticket ticket ht] at hlate
      exact .late hlate
  | cancel k =>
      obtain ⟨-, hreply, -⟩ := h
      cases hreply
  | disconnect x =>
      rcases h with ⟨-, hreply, -⟩ | ⟨howner, hreply, -⟩ |
        ⟨worker, hw, hlast, howner, hroute, hreply, -⟩
      · cases hreply
      · obtain rfl := Option.some.inj hreply
        exact .workerLost rfl howner
      · obtain rfl := Option.some.inj hreply
        exact .lastWorkerLost rfl howner hw hroute.symm fun w' worker' hw' hroute' =>
          hlast w' worker' hw' (hroute'.trans hroute)
  | connected => cases h
  | register => cases h
  | takeStart => cases h
  | enable => cases h
  | wake => cases h
  | takeTimeout => cases h
  | takeEnd => cases h

/-- Only a dropped ticket and a lost caller end a wait without an answer. -/
theorem ends_silent {s : Sys} {op : Op} {id : Nat} {call : Call} {freed : Bool}
    (h : s.Ends op id call none freed) : op = .cancel id ∨ op = .disconnect call.caller := by
  cases op with
  | request =>
      obtain ⟨-, -, -, hreply, -⟩ := h
      cases hreply
  | tryTake =>
      obtain ⟨name, -, -, -, hreply, -⟩ := h
      cases hreply
  | complete =>
      obtain ⟨-, -, hreply, -⟩ := h
      cases hreply
  | expire =>
      obtain ⟨-, hreply, -⟩ := h
      cases hreply
  | cancel k =>
      obtain ⟨rfl, -⟩ := h
      exact Or.inl rfl
  | disconnect x =>
      rcases h with ⟨rfl, -⟩ | ⟨-, hreply, -⟩ | ⟨-, -, -, -, -, hreply, -⟩
      · exact Or.inr rfl
      · cases hreply
      · cases hreply
  | connected => cases h
  | register => cases h
  | takeStart => cases h
  | enable => cases h
  | wake => cases h
  | takeTimeout => cases h
  | takeEnd => cases h

/-! ### Exactly one reply -/

/-- A call with its sender has had no reply, and no call has had two. -/
def Fair (a : State) (id : Nat) : Prop :=
  (∀ call, a.calls.lookup id = some call → call.response = true → replies id a.outbox = []) ∧
    (replies id a.outbox).length ≤ 1

/-- A call still has its sender, or its reply was sent. -/
def Due (a : State) (id : Nat) : Prop :=
  (∃ call, a.calls.lookup id = some call ∧ call.response = true) ∨
    (replies id a.outbox).length = 1

structure Answered (s : Sys) : Prop where
  unasked : ∀ id, s.rpc.nextId ≤ id → replies id s.rpc.outbox = []
  fair : ∀ id, Fair s.rpc id
  due : ∀ id ticket admission, s.tickets.lookup id = some ticket →
    s.admitted.lookup id = some admission → admission.caller ∈ s.rpc.connections → Due s.rpc id

theorem fate_fair_due {s : Sys} {op : Op} {a b : State} {id : Nat} {call : Call}
    (hcall : a.calls.lookup id = some call) (hfate : Fate (s.Ends op) a b id call)
    (hfair : Fair a id) :
    Fair b id ∧ (Due a id → op ≠ .cancel id → op ≠ .disconnect call.caller → Due b id) := by
  obtain ⟨hwaiting, honce⟩ := hfair
  -- Once the sender is gone, the reply was sent with it or before.
  have hgone : ∀ {reply : Option Reply} {freed : Bool}, s.Ends op id call reply freed →
      replies id b.outbox =
        replies id a.outbox ++ (if call.response then reply.toList else []) →
      (replies id b.outbox).length ≤ 1 ∧
      (Due a id → op ≠ .cancel id → op ≠ .disconnect call.caller →
        (replies id b.outbox).length = 1) := by
    intro reply freed hrule hsent
    cases hr : call.response with
    | true =>
        rw [hr, if_pos rfl, hwaiting call hcall hr, List.nil_append] at hsent
        rw [hsent]
        cases reply with
        | none =>
            refine ⟨by simp, fun _ hcancel hdisc => ?_⟩
            rcases ends_silent hrule with heq | heq
            · exact absurd heq hcancel
            · exact absurd heq hdisc
        | some reply => simp
    | false =>
        rw [hr, if_neg (by simp), List.append_nil] at hsent
        rw [hsent]
        refine ⟨honce, fun hdue _ _ => ?_⟩
        rcases hdue with ⟨call', hcall', hr'⟩ | hlen
        · obtain rfl := Option.some.inj (hcall.symm.trans hcall')
          rw [hr] at hr'
          cases hr'
        · exact hlen
  cases hfate with
  | kept hkept hsent =>
      refine ⟨⟨fun call' heq hr => ?_, hsent ▸ honce⟩, fun hdue _ _ => ?_⟩
      · rw [hkept] at heq
        obtain rfl := Option.some.inj heq
        rw [hsent]
        exact hwaiting call hcall hr
      · rw [Due, hsent, hkept]
        rwa [Due, hcall] at hdue
  | silenced hrule hsilent hsent =>
      obtain ⟨hlen, hdue⟩ := hgone hrule hsent
      refine ⟨⟨fun call' heq hr => ?_, hlen⟩, fun h hc hd => Or.inr (hdue h hc hd)⟩
      rw [hsilent] at heq
      rw [← Option.some.inj heq] at hr
      cases hr
  | freed hrule _ _ hnone hsent =>
      obtain ⟨hlen, hdue⟩ := hgone hrule hsent
      refine ⟨⟨fun call' heq hr => ?_, hlen⟩, fun h hc hd => Or.inr (hdue h hc hd)⟩
      rw [hnone] at heq
      cases heq

/-- Ending calls is fair, and what is due stays due unless the ticket or the caller goes. -/
theorem evolves_fair_due {s : Sys} {op : Op} {a b : State} (h : Evolves (s.Ends op) a b) {id : Nat}
    (hfair : Fair a id) :
    Fair b id ∧ (Due a id → op ≠ .cancel id →
      (∀ call, a.calls.lookup id = some call → op ≠ .disconnect call.caller) → Due b id) := by
  cases hcall : a.calls.lookup id with
  | none =>
      obtain ⟨hnone, hsent⟩ := h.absent hcall
      refine ⟨⟨fun call hlive => ?_, hsent ▸ hfair.2⟩, fun hdue _ _ => ?_⟩
      · rw [hnone] at hlive
        cases hlive
      · rw [Due, hsent, hnone]
        rwa [Due, hcall] at hdue
  | some call =>
      obtain ⟨hb, hdue⟩ := fate_fair_due hcall (h.fate hcall) hfair
      exact ⟨hb, fun ha hcancel hdisc => hdue ha hcancel (hdisc call rfl)⟩

theorem next_connections {s : Sys} (hsound : s.Sound) (op : Op) {c : Nat}
    (hc : c ∈ (s.next op).rpc.connections) :
    (c ∈ s.rpc.connections ∧ op ≠ .disconnect c) ∨ op = .connected c := by
  have hframe : ∀ {t : State}, Frame s.rpc t → c ∈ t.connections → c ∈ s.rpc.connections :=
    fun h hc => h.connections ▸ hc
  cases op with
  | connected connection =>
      rcases Finset.mem_insert.mp hc with rfl | hc
      · exact Or.inr rfl
      · exact Or.inl ⟨hc, by simp⟩
  | register workerId name concurrency queueLimit =>
      refine Or.inl ⟨?_, by simp⟩
      rcases State.register_cases s.rpc workerId name concurrency queueLimit with
        ⟨error, heq⟩ | ⟨-, -, -, heq⟩
      all_goals
        simp only [next, heq] at hc
        exact hc
  | request => exact Or.inl ⟨hframe (State.request_frame hsound.inv _ _ _ _ _ _) hc, by simp⟩
  | takeStart workerId =>
      refine Or.inl ⟨?_, by simp⟩
      rcases State.takeStart_cases s.rpc workerId with ⟨error, heq⟩ | ⟨worker, -, -, heq⟩
      all_goals
        simp only [next, heq] at hc
        exact hc
  | enable => exact Or.inl ⟨hc, by simp⟩
  | tryTake id expiredAt now =>
      refine Or.inl ⟨?_, by simp⟩
      simp only [next] at hc
      cases htake : s.takes.lookup id with
      | none =>
          rw [htake] at hc
          exact hc
      | some take =>
          rw [htake] at hc
          exact hframe (State.tryTake_frame hsound.inv _ _ _) hc
  | wake => exact Or.inl ⟨hc, by simp⟩
  | takeTimeout => exact Or.inl ⟨hc, by simp⟩
  | takeEnd id =>
      refine Or.inl ⟨?_, by simp⟩
      simp only [next] at hc
      cases htake : s.takes.lookup id with
      | none =>
          rw [htake] at hc
          exact hc
      | some take =>
          rw [htake] at hc
          exact hc
  | complete => exact Or.inl ⟨hframe (State.complete_frame _ _ _ _ _ _) hc, by simp⟩
  | expire id now =>
      exact Or.inl ⟨hframe (State.expire_settles s.rpc id).shrinks.frame hc, by simp⟩
  | cancel id =>
      exact Or.inl ⟨hframe (State.cancel_settles s.rpc id).shrinks.frame hc, by simp⟩
  | disconnect x =>
      have herase : c ∈ s.rpc.connections.erase x :=
        (State.disconnect_seats hsound.inv x).1 ▸ hc
      obtain ⟨hne, hc⟩ := Finset.mem_erase.mp herase
      exact Or.inl ⟨hc, by simpa using Ne.symm hne⟩

theorem new_answered (maxCalls maxBytes : Nat) : (Sys.new maxCalls maxBytes).Answered := by
  refine ⟨fun _ _ => rfl, fun _ => ⟨fun _ _ _ => rfl, Nat.zero_le _⟩, ?_⟩
  intro id ticket admission hticket
  cases hticket

theorem next_answered {s : Sys} (hsound : s.Sound) (hrecorded : s.Recorded) (hs : s.Answered)
    {op : Op} (hop : s.Enabled op) : (s.next op).Answered := by
  -- Whoever waits after the step waited before it.
  have hcaller : ∀ {id admission}, s.admitted.lookup id = some admission →
      admission.caller ∈ (s.next op).rpc.connections →
      admission.caller ∈ s.rpc.connections ∧ op ≠ .disconnect admission.caller := by
    intro id admission hid hconn
    rcases next_connections hsound op hconn with hold | rfl
    · exact hold
    · exact absurd (hrecorded.admitted id admission hid).2 hop
  have hlost : ∀ {id admission call}, s.admitted.lookup id = some admission →
      s.rpc.calls.lookup id = some call → call.caller = admission.caller := by
    intro id admission call hid hlive
    obtain ⟨admission', hid', heq, -⟩ := hrecorded.calls id call hlive
    obtain rfl := Option.some.inj (hid.symm.trans hid')
    exact heq
  have hmoved := next_moved hsound op
  generalize s.next op = t at hcaller hmoved
  cases hmoved with
  | ended h hnext hadmitted _ htickets =>
      refine ⟨fun id hid => ?_, fun id => (evolves_fair_due h (hs.fair id)).1,
        fun id ticket admission hticket hid hconn => ?_⟩
      · rw [hnext] at hid
        have hnone : s.rpc.calls.lookup id = none := by
          cases hlive : s.rpc.calls.lookup id with
          | none => rfl
          | some call => exact absurd (hsound.inv.fresh id call hlive) (not_lt.mpr hid)
        rw [(h.absent hnone).2]
        exact hs.unasked id hid
      · rw [hadmitted] at hid
        obtain ⟨hconn, hdisc⟩ := hcaller hid hconn
        obtain ⟨hticket, hcancel⟩ := htickets id ticket hticket
        exact (evolves_fair_due h (hs.fair id)).2 (hs.due id ticket admission hticket hid hconn)
          hcancel fun call hlive => hlost hid hlive ▸ hdisc
  | @admitted u v caller timeoutMs expiredAt admittedAt route payload call heq h hnext _ hcall hv ht
      hnext' hadmitted htickets _ =>
      have hop' : ∀ k, op ≠ .cancel k ∧ op ≠ .disconnect k := by
        rintro k
        rw [heq]
        exact ⟨nofun, nofun⟩
      have hvFair : ∀ id, Fair v id ∧ (Due s.rpc id → Due v id) ∧ (id = s.rpc.nextId → Due v id) := by
        intro id
        obtain ⟨hfair, hdue⟩ := evolves_fair_due h (hs.fair id)
        have hout : v.outbox = u.outbox := by
          rw [hv]
          rfl
        by_cases hid : id = s.rpc.nextId
        · have hlive : v.calls.lookup id = some call := by
            rw [hv, State.lookup_accept_calls, hnext, if_pos hid]
          have hempty : replies id v.outbox = [] := by
            rw [hout, (h.absent (hid ▸ State.nextId_fresh hsound.inv)).2, hs.unasked id hid.ge]
          have hdue' : Due v id := Or.inl ⟨call, hlive, by rw [hcall]⟩
          exact ⟨⟨fun _ _ _ => hempty, by rw [hempty]; exact Nat.zero_le _⟩, fun _ => hdue',
            fun _ => hdue'⟩
        · have hlive : v.calls.lookup id = u.calls.lookup id := by
            rw [hv, State.lookup_accept_calls, hnext, if_neg hid]
          have hsame : Fair v id = Fair u id ∧ Due v id = Due u id := by
            rw [Fair, Fair, Due, Due, hout, hlive]
            exact ⟨rfl, rfl⟩
          rw [hsame.1, hsame.2]
          exact ⟨hfair, fun hold => hdue hold (hop' id).1 fun c _ => (hop' c.caller).2,
            fun heq => absurd heq hid⟩
      have hsame : ∀ id, Fair t.rpc id = Fair v id ∧ Due t.rpc id = Due v id := by
        intro id
        obtain ⟨hlive, hsent⟩ := ht.idle id
        rw [Fair, Fair, Due, Due, hsent, hlive]
        exact ⟨rfl, rfl⟩
      refine ⟨fun id hid => ?_, fun id => (hsame id).1 ▸ (hvFair id).1,
        fun id ticket admission hticket hid hconn => ?_⟩
      · rw [hnext'] at hid
        have hold : s.rpc.nextId ≤ id := (Nat.le_succ _).trans hid
        have hnone : s.rpc.calls.lookup id = none := by
          cases hlive : s.rpc.calls.lookup id with
          | none => rfl
          | some call => exact absurd (hsound.inv.fresh id call hlive) (not_lt.mpr hold)
        rw [(ht.idle id).2, hv]
        exact (h.absent hnone).2.trans (hs.unasked id hold)
      · rw [(hsame id).2]
        rw [htickets, Table.lookup_insert_ite] at hticket
        rw [hadmitted, Table.lookup_insert_ite] at hid
        split_ifs at hticket hid with hnew
        · exact (hvFair id).2.2 hnew
        · obtain ⟨hconn, -⟩ := hcaller hid hconn
          exact (hvFair id).2.1 (hs.due id ticket admission hticket hid hconn)
  | @dispatched u take expiredAt now w k worker route queue call heq h _ _ _ _ _ hlive _ _ _ ht hnext
      hadmitted htickets _ =>
      have hout : t.rpc.outbox = u.outbox := by
        rw [ht]
        rfl
      -- Assigning a call leaves its sender where it is.
      have hlookup : ∀ id, (t.rpc.calls.lookup id).map Call.response =
          (u.calls.lookup id).map Call.response := by
        intro id
        rw [ht, State.lookup_handOut_calls]
        split_ifs
        · rw [Option.map_map]
          rfl
        · rfl
      refine ⟨fun id hid => ?_, fun id => ⟨fun call' hlive' hr => ?_, ?_⟩,
        fun id ticket admission hticket hid hconn => ?_⟩
      · rw [hnext] at hid
        have hnone : s.rpc.calls.lookup id = none := by
          cases hlive : s.rpc.calls.lookup id with
          | none => rfl
          | some call => exact absurd (hsound.inv.fresh id call hlive) (not_lt.mpr hid)
        rw [hout, (h.absent hnone).2]
        exact hs.unasked id hid
      · have hmap := hlookup id
        rw [hlive', Option.map_some] at hmap
        obtain ⟨call₀, hlive₀, hr₀⟩ := Option.map_eq_some_iff.mp hmap.symm
        rw [hout]
        exact (evolves_fair_due h (hs.fair id)).1.1 call₀ hlive₀ (hr₀.trans hr)
      · rw [hout]
        exact (evolves_fair_due h (hs.fair id)).1.2
      · rw [hadmitted] at hid
        rw [htickets] at hticket
        obtain ⟨hconn, hdisc⟩ := hcaller hid hconn
        have hdue := (evolves_fair_due h (hs.fair id)).2
          (hs.due id ticket admission hticket hid hconn) (by rw [heq]; exact nofun)
          fun call hlive => hlost hid hlive ▸ hdisc
        rcases hdue with ⟨call₀, hlive₀, hr₀⟩ | hlen
        · have hmap := hlookup id
          rw [hlive₀, Option.map_some, hr₀] at hmap
          obtain ⟨call', hlive', hr'⟩ := Option.map_eq_some_iff.mp hmap
          exact Or.inl ⟨call', hlive', hr'⟩
        · exact Or.inr (hout ▸ hlen)

theorem answered {maxCalls maxBytes : Nat} {s : Sys}
    (h : (anyClock maxCalls maxBytes).Reachable s) : s.Answered := by
  refine h.invariant ?_ ?_
  · rintro s rfl
    exact new_answered maxCalls maxBytes
  · rintro s op t hreach hs ⟨hop, rfl⟩
    exact next_answered (sound hreach) (recorded hreach) hs hop

/-! ### New replies -/

/-- What is sent while calls end goes to a call that was live and still had its sender. -/
theorem evolves_ends {s : Sys} {op : Op} {b : State} (h : Evolves (s.Ends op) s.rpc b) {id : Nat}
    {new : List Reply} (hnew : replies id b.outbox = replies id s.rpc.outbox ++ new) {reply : Reply}
    (hreply : reply ∈ new) :
    ∃ call freed, s.rpc.calls.lookup id = some call ∧ call.response = true ∧
      s.Ends op id call (some reply) freed := by
  cases hlive : s.rpc.calls.lookup id with
  | none =>
      rw [(h.absent hlive).2, List.self_eq_append_right] at hnew
      rw [hnew] at hreply
      cases hreply
  | some call =>
      have hgone : ∀ {reply' : Option Reply} {freed : Bool}, s.Ends op id call reply' freed →
          replies id b.outbox =
            replies id s.rpc.outbox ++ (if call.response then reply'.toList else []) →
          ∃ freed, call.response = true ∧ s.Ends op id call (some reply) freed := by
        intro reply' freed hrule hsent
        rw [hsent, List.append_cancel_left_eq] at hnew
        rw [← hnew] at hreply
        cases hr : call.response with
        | false =>
            rw [hr] at hreply
            cases hreply
        | true =>
            rw [hr, if_pos rfl, Option.mem_toList] at hreply
            obtain rfl : reply' = some reply := hreply
            exact ⟨freed, rfl, hrule⟩
      have hended : ∃ freed, call.response = true ∧ s.Ends op id call (some reply) freed := by
        cases h.fate hlive with
        | kept _ hsent =>
            rw [hsent, List.self_eq_append_right] at hnew
            rw [hnew] at hreply
            cases hreply
        | silenced hrule _ hsent => exact hgone hrule hsent
        | freed hrule _ _ _ hsent => exact hgone hrule hsent
      obtain ⟨freed, hr, hrule⟩ := hended
      exact ⟨call, freed, rfl, hr, hrule⟩

/-- The replies of a step come from ending calls that were live before it. -/
theorem next_ends {s : Sys} (hsound : s.Sound) {op : Op} {id : Nat} {new : List Reply}
    (hnew : replies id (s.next op).rpc.outbox = replies id s.rpc.outbox ++ new) {reply : Reply}
    (hreply : reply ∈ new) :
    ∃ call freed, s.rpc.calls.lookup id = some call ∧ call.response = true ∧
      s.Ends op id call (some reply) freed := by
  cases next_moved hsound op with
  | ended h _ _ _ _ => exact evolves_ends h hnew hreply
  | @admitted u v _ _ _ _ _ _ call _ h hnext _ _ hv ht _ _ _ _ =>
      refine evolves_ends h ?_ hreply
      rw [← hnew, (ht.idle id).2, hv]
      rfl
  | dispatched _ h _ _ _ _ _ _ _ _ _ ht _ _ _ _ =>
      refine evolves_ends h ?_ hreply
      rw [← hnew, ht]
      rfl

/-- A reply sent in a step went to a call that was live and still had its sender, and is true. -/
theorem next_truthful {s : Sys} (hsound : s.Sound) (hrecorded : s.Recorded) {op : Op}
    (hop : s.Enabled op) (htimely : s.Timely op) {id : Nat} {new : List Reply}
    (hnew : replies id (s.next op).rpc.outbox = replies id s.rpc.outbox ++ new) {reply : Reply}
    (hreply : reply ∈ new) :
    ∃ call, s.rpc.calls.lookup id = some call ∧ call.response = true ∧
      s.Truthful op id call reply := by
  obtain ⟨call, freed, hlive, hr, hrule⟩ := next_ends hsound hnew hreply
  refine ⟨call, hlive, hr, ends_truthful hop htimely ?_ hrule⟩
  intro ticket hticket
  obtain ⟨a, ha, -, -, -, hdeadline⟩ := hrecorded.calls id call hlive
  obtain ⟨a', ha', hdeadline'⟩ := hrecorded.tickets id ticket hticket
  obtain rfl := Option.some.inj (ha.symm.trans ha')
  exact hdeadline'.trans hdeadline.symm

/-- **Exactly one, truthful reply.** In every run with a clock that never goes back: a call with a
live ticket and a connected caller has its sender and no reply, or exactly one reply; no call has two;
every reply sent in a step went to a live call and says what happened to it; and the deadline counter
is the number of deadline replies, saturated. -/
theorem answered_once_truthfully {maxCalls maxBytes : Nat} {s : Sys}
    (h : (steady maxCalls maxBytes).Reachable s) :
    (∀ id ticket admission, s.tickets.lookup id = some ticket →
      s.admitted.lookup id = some admission → admission.caller ∈ s.rpc.connections →
      (∃ call, s.rpc.calls.lookup id = some call ∧ call.response = true ∧
        replies id s.rpc.outbox = []) ∨
      ∃ reply, replies id s.rpc.outbox = [reply] ∧
        ∀ call, s.rpc.calls.lookup id = some call → call.response = false) ∧
    (∀ id, (replies id s.rpc.outbox).length ≤ 1) ∧
    (∀ op t, (steady maxCalls maxBytes).step s op t → ∀ id new,
      replies id t.rpc.outbox = replies id s.rpc.outbox ++ new → ∀ reply ∈ new,
        ∃ call, s.rpc.calls.lookup id = some call ∧ call.response = true ∧
          s.Truthful op id call reply) ∧
    s.rpc.timedOut = min (deadlineReplies s.rpc.outbox) u64Max := by
  have hany := anyClock_of_steady h
  have hs := answered hany
  refine ⟨fun id ticket admission hticket hid hconn => ?_, fun id => (hs.fair id).2, ?_,
    timedOut_eq hany⟩
  · rcases hs.due id ticket admission hticket hid hconn with ⟨call, hlive, hr⟩ | hlen
    · exact Or.inl ⟨call, hlive, hr, (hs.fair id).1 call hlive hr⟩
    · obtain ⟨reply, hreply⟩ := List.length_eq_one_iff.mp hlen
      refine Or.inr ⟨reply, hreply, fun call hlive => ?_⟩
      cases hr : call.response with
      | false => rfl
      | true =>
          rw [(hs.fair id).1 call hlive hr] at hreply
          cases hreply
  · rintro op t ⟨hop, htimely, rfl⟩ id new hnew reply hreply
    exact next_truthful (sound hany) (recorded hany) hop htimely hnew hreply

theorem answered_served :
    replies 1 (Sys.served.next (.complete 1 1 false [8] 3000)).rpc.outbox = [.ok [8]] ∧
      ∀ call, (Sys.served.next (.complete 1 1 false [8] 3000)).rpc.calls.lookup 1 = some call →
        call.response = false := by
  have h := steady_next served_reachable (.complete 1 1 false [8] 3000) trivial
    (show 2000 ≤ 3000 by omega)
  rcases (answered_once_truthfully h).1 1 ⟨1, 5000000⟩ ⟨2, "sum", 5, [7], 0⟩ (by decide) (by decide)
    (by decide) with ⟨call, hlive, -⟩ | ⟨reply, -, hgone⟩
  · cases hlive
  · exact ⟨by decide, hgone⟩

end Sys

end VeloBus.Rpc
