import VeloBus.RpcDeparture
import VeloBus.RpcWorker
import Mathlib.Algebra.Order.BigOperators.Group.Finset

/-! What a refused operation leaves behind: nothing, but for the counter of refused requests and for
the calls a request found queued on its route past their deadline, which are answered and gone before
the budgets are looked at. -/

namespace VeloBus.Rpc

/-! ### Queued calls are waited for -/

/-- A call without a worker still has its sender. -/
def State.Waiting (s : State) : Prop :=
  ∀ id call, s.calls.lookup id = some call → call.owner = none → call.response = true

/-- Ending calls where only started calls may stay without their sender. -/
theorem Evolves.waiting {rule : Nat → Call → Option Reply → Bool → Prop} {s t : State}
    (h : Evolves rule s t) (hrule : ∀ id call reply, rule id call reply false → call.owner ≠ none)
    (hs : s.Waiting) : t.Waiting := by
  intro id call' ht howner
  obtain ⟨call, hcall, -⟩ := h.back ht
  cases h.fate hcall with
  | kept hkept _ =>
      obtain rfl := Option.some.inj (ht.symm.trans hkept)
      exact hs id call' hcall howner
  | silenced hsilent hkept _ =>
      obtain rfl := Option.some.inj (ht.symm.trans hkept)
      exact absurd howner (hrule id call _ hsilent)
  | freed _ _ _ hgone _ =>
      rw [ht] at hgone
      cases hgone

namespace Sys

/-- No operation takes the sender of a call in a queue and leaves the call there. -/
theorem ends_started (s : Sys) (op : Op) (id : Nat) (call : Call) (reply : Option Reply)
    (h : s.Ends op id call reply false) : call.owner ≠ none := by
  intro howner
  cases op with
  | request => cases h.2.2.2.2
  | tryTake =>
      obtain ⟨name, h⟩ := h
      cases h.2.2.2.2
  | complete => cases h.2.2.2
  | expire => simpa [howner] using h.2.2
  | cancel => simpa [howner] using h.2.2
  | disconnect x =>
      rcases h with h | h | ⟨worker, -, -, h⟩
      · simpa [howner] using h.2.2
      · cases h.2.2
      · cases h.2.2.2
  | connected => exact h
  | register => exact h
  | takeStart => exact h
  | enable => exact h
  | wake => exact h
  | takeTimeout => exact h
  | takeEnd => exact h

theorem next_sender {s : Sys} (hsound : s.Sound) (hs : s.rpc.Waiting) (op : Op) :
    (s.next op).rpc.Waiting := by
  cases next_moved hsound op with
  | ended h _ _ _ _ => exact h.waiting (s.ends_started op) hs
  | @admitted u v _ _ _ _ _ _ call _ h _ _ hcall hv ht _ _ _ _ =>
      have hu := h.waiting (s.ends_started op) hs
      refine ht.waiting (fun _ _ _ => False.elim) ?_
      intro id call' hlive howner
      rw [hv, State.lookup_accept_calls] at hlive
      split_ifs at hlive
      · obtain rfl := Option.some.inj hlive
        rw [hcall]
      · exact hu id call' hlive howner
  | @dispatched u _ _ _ w k _ _ _ call _ h _ _ _ _ _ _ _ _ _ ht _ _ _ _ =>
      have hu := h.waiting (s.ends_started op) hs
      intro id call' hlive howner
      rw [ht, State.lookup_handOut_calls] at hlive
      split_ifs at hlive
      · obtain ⟨call₀, -, rfl⟩ := Option.map_eq_some_iff.mp hlive
        cases howner
      · exact hu id call' hlive howner

theorem sender_waits {maxCalls maxBytes : Nat} {s : Sys} (h : (anyClock maxCalls maxBytes).Reachable s) :
    s.rpc.Waiting := by
  refine h.invariant (P := fun s => s.rpc.Waiting) ?_ ?_
  · rintro s rfl id call hlive
    cases hlive
  · rintro s op t hreach hs ⟨-, rfl⟩
    exact next_sender (sound hreach) hs op

end Sys

/-! ### The counter of deadlines -/

namespace Sys

/-- Effects that reply to identifiers below a bound hold no more deadline replies than replies to these. -/
theorem deadlineReplies_le_sum {effects : List Effect} {n : Nat}
    (hnew : ∀ id, n ≤ id → replies id effects = []) :
    deadlineReplies effects ≤ ∑ id ∈ Finset.range n, (replies id effects).length := by
  induction effects with
  | nil => exact Nat.zero_le _
  | cons e effects ih =>
      have hcons : ∀ id, replies id (e :: effects) = replies id [e] ++ replies id effects := by
        intro id
        rw [← replies_append]
        rfl
      have htail := ih fun id hid => by
        have hall := hnew id hid
        rw [hcons] at hall
        exact (List.append_eq_nil_iff.mp hall).2
      have hhead : deadlineReplies [e] ≤ ∑ id ∈ Finset.range n, (replies id [e]).length := by
        cases e with
        | notify worker => exact Nat.zero_le _
        | reply k reply =>
            have hk : k ∈ Finset.range n := by
              rw [Finset.mem_range]
              by_contra hle
              have hall := hnew k (not_lt.mp hle)
              rw [hcons, replies_reply, if_pos rfl] at hall
              cases hall
            calc deadlineReplies [.reply k reply] ≤ [Effect.reply k reply].length := List.countP_le_length
              _ = (replies k [.reply k reply]).length := by
                rw [replies_reply, if_pos rfl]
                rfl
              _ ≤ ∑ id ∈ Finset.range n, (replies id [.reply k reply]).length :=
                Finset.single_le_sum (f := fun id => (replies id [.reply k reply]).length)
                  (fun _ _ => Nat.zero_le _) hk
      calc deadlineReplies (e :: effects) = deadlineReplies [e] + deadlineReplies effects := by
            rw [← deadlineReplies_append]
            rfl
        _ ≤ _ := Nat.add_le_add hhead htail
        _ = _ := by
            rw [← Finset.sum_add_distrib]
            apply Finset.sum_congr rfl
            intro id _
            rw [hcons, List.length_append]

/-- With one reply for each identifier that was given out, the deadline replies fit their counter. -/
theorem deadlineReplies_le {effects : List Effect} {n : Nat} (hnew : ∀ id, n ≤ id → replies id effects = [])
    (honce : ∀ id, (replies id effects).length ≤ 1) : deadlineReplies effects ≤ n := by
  calc deadlineReplies effects ≤ ∑ id ∈ Finset.range n, (replies id effects).length :=
        deadlineReplies_le_sum hnew
    _ ≤ ∑ _id ∈ Finset.range n, 1 := Finset.sum_le_sum fun id _ => honce id
    _ = n := by simp

theorem nextId_le {maxCalls maxBytes : Nat} {s : Sys} (h : (anyClock maxCalls maxBytes).Reachable s) :
    s.rpc.nextId ≤ u64Max := by
  refine h.invariant (P := fun s => s.rpc.nextId ≤ u64Max) ?_ ?_
  · rintro s rfl
    exact Nat.le_of_ble_eq_true rfl
  · rintro s op t hreach hs ⟨-, rfl⟩
    cases next_moved (sound hreach) op with
    | ended _ hnext _ _ _ => exact hnext ▸ hs
    | dispatched _ _ _ _ _ _ _ _ _ _ _ _ hnext _ _ _ => exact hnext ▸ hs
    | admitted hop _ _ _ _ _ _ _ _ _ _ =>
        subst hop
        exact request_next (sound hreach).inv hs _ _ _ _ _ _

end Sys

/-! ### The cleanup of a queue -/

/-- A call queued on a route past its deadline. -/
def Call.Overdue (route : String) (now : Nat) (call : Call) : Prop :=
  call.owner = none ∧ call.route = route ∧ call.deadline ≤ now

instance (route : String) (now : Nat) (call : Call) : Decidable (call.Overdue route now) :=
  inferInstanceAs (Decidable (_ ∧ _ ∧ _))

namespace State

/-- The identifier of a call that is queued on a route past its deadline. -/
def overdue (s : State) (route : String) (now id : Nat) : Bool :=
  (s.calls.lookup id).any fun call => call.Overdue route now

/-- The overdue calls of one route are gone: each with one deadline reply, its only one, and counted;
nothing else has changed but the counter of refusals. -/
structure Swept (s : State) (route : String) (now : Nat) (t : State) : Prop where
  calls : ∀ id, t.calls.lookup id = (s.calls.lookup id).filter fun call => ¬call.Overdue route now
  queue : ∀ r, s.routes.lookup route = some r →
    t.routes.lookup route = some { r with queue := r.queue.filter fun id => !s.overdue route now id }
  routes : ∀ name, name ≠ route → t.routes.lookup name = s.routes.lookup name
  workers : t.workers = s.workers
  connections : t.connections = s.connections
  nextId : t.nextId = s.nextId
  retained : t.retainedBytes + Table.total
    (fun _ call => if call.Overdue route now then call.retainedBytes else 0) s.calls = s.retainedBytes
  limits : t.maxCalls = s.maxCalls ∧ t.maxBytes = s.maxBytes
  counters : t.accepted = s.accepted ∧ t.completed = s.completed
  timedOut : t.timedOut = s.timedOut + Table.count (fun _ call => call.Overdue route now) s.calls
  told : ∀ id call, s.calls.lookup id = some call → call.Overdue route now →
    replies id t.outbox = [.error deadlineError]
  silent : ∀ id, s.overdue route now id = false → replies id t.outbox = replies id s.outbox
  healthy : t.poisoned = s.poisoned

/-- Each call that the cleanup frees had its sender, so it gets one deadline reply. -/
theorem expiry_replies {s t : State} {route : String} {now : Nat} (h : Settles (expiryRule route now) s t)
    (hs : s.Waiting) :
    deadlineReplies t.outbox + t.calls.size = deadlineReplies s.outbox + s.calls.size := by
  induction h with
  | refl => rfl
  | @tail t u id call reply freed h hone hrule ih =>
      obtain ⟨howner, -, -, rfl, rfl⟩ := hrule
      have hwaiting : t.Waiting := by
        apply h.evolves.waiting _ hs
        intro id call reply hrule
        cases hrule.2.2.2.2
      have hfreed : u.calls.size + 1 = t.calls.size := by
        rw [hone.calls, if_pos rfl]
        exact Table.size_erase hone.live
      obtain ⟨new, hout, hnew⟩ := hone.outbox
      have hsingle := deadlineReplies_of_single id fun k hk => by
        rw [hnew k, if_neg fun hboth => hk hboth.1]
      rw [hnew id, if_pos ⟨rfl, hwaiting id call hone.live howner⟩] at hsingle
      rw [hout, deadlineReplies_append, hsingle, Option.toList_some, List.count_singleton_self]
      omega

theorem expireQueued_calls {s : State} (hs : Inv s) (route : String) (now id : Nat) :
    (s.expireQueued route now).calls.lookup id =
      (s.calls.lookup id).filter fun call => ¬call.Overdue route now := by
  have hsettles := expireQueued_settles hs.toCounted route now
  have ht := hsettles.inv hs
  cases hcall : s.calls.lookup id with
  | none => exact (hsettles.evolves.absent hcall).1
  | some call =>
      cases hsettles.evolves.fate hcall with
      | kept hkept _ =>
          rw [hkept, Option.filter_some, if_pos]
          apply decide_eq_true
          rintro ⟨howner, rfl, hlate⟩
          -- A call that is kept is still queued, and what is queued has time left.
          obtain ⟨r, hr⟩ := ht.unowned id call hkept howner
          have hmem := (ht.queued _ r hr id).mpr ⟨call, hkept, howner, rfl⟩
          exact absurd hlate (not_le.mpr (expireQueued_alive hs.toCounted hr hmem hkept))
      | silenced hrule _ _ => cases hrule.2.2.2.2
      | freed hrule _ _ hgone _ =>
          rw [hgone, Option.filter_some, if_neg]
          simpa using ⟨hrule.1, hrule.2.1, hrule.2.2.1⟩

theorem overdue_eq_false {s : State} {route : String} {now id : Nat} :
    s.overdue route now id = false ↔ ∀ call, s.calls.lookup id = some call → ¬call.Overdue route now := by
  unfold overdue
  cases s.calls.lookup id with
  | none => simp
  | some call => simp

/-- The queue of the route loses the overdue calls, every other queue keeps what it has. -/
theorem expireQueued_routes {s : State} (hs : Inv s) (route : String) (now : Nat) {name : String} {r : Route}
    (hr : s.routes.lookup name = some r) : (s.expireQueued route now).routes.lookup name =
      some { r with queue := r.queue.filter fun id => !s.overdue route now id } := by
  have hsettles := expireQueued_settles hs.toCounted route now
  have ht := hsettles.inv hs
  obtain ⟨r', hr', hstaff⟩ := hsettles.shrinks.route' hr
  have hqueue : r'.queue = r.queue.filter fun id => !s.overdue route now id := by
    apply eq_of_increasing (ht.sorted name r' hr') ((hs.sorted name r hr).filter _)
    intro id
    rw [ht.queued name r' hr', List.mem_filter, hs.queued name r hr, Bool.not_eq_true', overdue_eq_false,
      expireQueued_calls hs]
    constructor
    · rintro ⟨call, hkept, howner, hroute⟩
      obtain ⟨hcall, htime⟩ := Option.filter_eq_some_iff.mp hkept
      refine ⟨⟨call, hcall, howner, hroute⟩, ?_⟩
      intro call' hcall'
      obtain rfl := Option.some.inj (hcall.symm.trans hcall')
      exact of_decide_eq_true htime
    · rintro ⟨⟨call, hcall, howner, hroute⟩, htime⟩
      exact ⟨call, Option.filter_eq_some_iff.mpr ⟨hcall, decide_eq_true (htime call hcall)⟩, howner, hroute⟩
  rw [hr']
  apply congrArg some
  cases r
  cases r'
  simp_all [Route.staff]

/-- Only calls without a worker are ended, so no worker changes. -/
theorem expiry_workers {s t : State} {route : String} {now : Nat} (h : Settles (expiryRule route now) s t) :
    t.workers = s.workers := by
  induction h with
  | refl => rfl
  | tail _ hone hrule ih =>
      rw [hone.workers, if_pos hrule.2.2.2.2, hrule.1]
      exact ih

theorem expireQueued_swept {s : State} (hs : Inv s) (hwaiting : s.Waiting) (hfair : ∀ id, Sys.Fair s id)
    {route : String} {now : Nat} (htimed : s.timedOut = deadlineReplies s.outbox)
    (htimed' : (s.expireQueued route now).timedOut = deadlineReplies (s.expireQueued route now).outbox) :
    s.Swept route now (s.expireQueued route now) := by
  have hsettles := expireQueued_settles hs.toCounted route now
  have hshrinks := hsettles.shrinks
  have ht := hsettles.inv hs
  have hcalls := expireQueued_calls hs route now
  have hbind : ∀ id, (s.expireQueued route now).calls.lookup id = (s.calls.lookup id).bind fun call =>
      if call.Overdue route now then none else some call := by
    intro id
    rw [hcalls]
    cases s.calls.lookup id with
    | none => rfl
    | some call => by_cases hlate : call.Overdue route now <;> simp [Option.filter_some, hlate]
  -- A weight over all calls is split into what is gone and what is left.
  have hsplit : ∀ f : Nat → Call → Nat, Table.total f (s.expireQueued route now).calls +
      Table.total (fun id call => if call.Overdue route now then f id call else 0) s.calls =
        Table.total f s.calls := by
    intro f
    rw [Table.total_bind hbind, ← Table.total_add]
    apply Table.total_congr
    intro e _
    by_cases hlate : e.2.Overdue route now <;> simp [hlate]
  constructor
  case calls => exact hcalls
  case queue =>
    intro r hr
    exact expireQueued_routes hs route now hr
  case routes =>
    intro name hne
    cases hr : s.routes.lookup name with
    | none =>
        have hstaff := hshrinks.staff name
        rw [hr] at hstaff
        exact Option.map_eq_none_iff.mp hstaff
    | some r =>
        rw [expireQueued_routes hs route now hr]
        have hall : r.queue.filter (fun id => !s.overdue route now id) = r.queue := by
          apply List.filter_eq_self.mpr
          intro id hid
          rw [Bool.not_eq_true', overdue_eq_false]
          rintro call hcall ⟨-, hroute, -⟩
          obtain ⟨call', hcall', -, hname⟩ := (hs.queued name r hr id).mp hid
          obtain rfl := Option.some.inj (hcall.symm.trans hcall')
          exact hne (hname.symm.trans hroute)
        rw [hall]
  case workers => exact expiry_workers hsettles
  case connections => exact hshrinks.connections
  case nextId => exact hshrinks.nextId
  case retained =>
    rw [ht.retained, hs.retained]
    exact hsplit fun _ call => call.retainedBytes
  case limits => exact ⟨hshrinks.maxCalls, hshrinks.maxBytes⟩
  case counters => exact ⟨hshrinks.accepted, hshrinks.completed⟩
  case timedOut =>
    have hreplies := expiry_replies hsettles hwaiting
    have hgone : _ + Table.count (fun _ call => call.Overdue route now) s.calls = _ := hsplit fun _ _ => 1
    rw [← Table.size_eq_total, ← Table.size_eq_total] at hgone
    rw [htimed', htimed]
    omega
  case told =>
    rintro id call hcall hlate
    cases hsettles.evolves.fate hcall with
    | kept hkept _ =>
        rw [hcalls, hcall, Option.filter_some, if_neg (by simpa using hlate)] at hkept
        cases hkept
    | silenced hrule _ _ => cases hrule.2.2.2.2
    | freed hrule _ _ _ hsent =>
        have hr := hwaiting id call hcall hlate.1
        rw [hsent, hrule.2.2.2.1, hr, (hfair id).1 call hcall hr]
        rfl
  case silent =>
    intro id hkept
    rw [overdue_eq_false] at hkept
    cases hcall : s.calls.lookup id with
    | none => exact (hsettles.evolves.absent hcall).2
    | some call =>
        cases hsettles.evolves.fate hcall with
        | kept _ hsent => exact hsent
        | silenced hrule _ _ => cases hrule.2.2.2.2
        | freed hrule _ _ _ _ => exact absurd ⟨hrule.1, hrule.2.1, hrule.2.2.1⟩ (hkept call hcall)
  case healthy => exact ht.healthy.trans hs.healthy.symm

/-! ### Refused operations -/

def budgetError : Error :=
  ⟨Code.overloaded, "RPC admission budget is full; request was not accepted"⟩

/-- The queue of the route, the call table or the byte budget has no room for the call. -/
def Full (s : State) (route : String) (payload : Bytes) : Prop :=
  (∃ r, s.routes.lookup route = some r ∧ r.queueLimit ≤ r.queue.length) ∨ s.maxCalls ≤ s.calls.size ∨
    s.maxBytes < s.retainedBytes + callBytes route payload

/-- What a refused request has done: nothing, or the cleanup of its own route; and why it was refused. -/
structure Refusal (s : State) (caller : Nat) (route : String) (payload : Bytes) (expiredAt : Nat) (t : State)
    (error : Error) : Prop where
  kept : t = { s with rejected := t.rejected } ∨
    s.routes.lookup route ≠ none ∧ s.Swept route expiredAt t
  counted : t.rejected = if error.code = Code.noService ∨ error = budgetError then saturatingSucc s.rejected
    else s.rejected
  unserved : error.code = Code.noService ↔ caller ∈ s.connections ∧ s.routes.lookup route = none
  full : error = budgetError → t.Full route payload
  forced : caller ∈ s.connections → s.routes.lookup route ≠ none → s.nextId < u64Max →
    error = budgetError ∧ t.Full route payload ∧ s.Swept route expiredAt t ∧
      ∀ id call, t.calls.lookup id = some call → ¬call.Overdue route expiredAt

/-- The cleanup with any counter of refusals. -/
theorem Swept.refused {s t : State} {route : String} {now : Nat} (h : s.Swept route now t) (n : Nat) :
    s.Swept route now { t with rejected := n } :=
  ⟨h.calls, h.queue, h.routes, h.workers, h.connections, h.nextId, h.retained, h.limits, h.counters,
    h.timedOut, h.told, h.silent, h.healthy⟩

theorem Swept.alive {s t : State} {route : String} {now : Nat} (h : s.Swept route now t) (id : Nat)
    (call : Call) (hcall : t.calls.lookup id = some call) : ¬call.Overdue route now := by
  rw [h.calls] at hcall
  exact of_decide_eq_true (Option.filter_eq_some_iff.mp hcall).2

theorem request_refusal {s : State} (hs : Inv s) (hswept : ∀ route now, s.Swept route now (s.expireQueued route now))
    {caller : Nat} {route : String} {timeoutMs : Nat} {payload : Bytes} {expiredAt admittedAt : Nat}
    {error : Error} (h : (s.request caller route timeoutMs payload expiredAt admittedAt).2 = .error error) :
    s.Refusal caller route payload expiredAt (s.request caller route timeoutMs payload expiredAt admittedAt).1
      error := by
  have hnoService : caller ∈ s.connections → s.routes.lookup route = none →
      (s.request caller route timeoutMs payload expiredAt admittedAt).2 =
        .error ⟨Code.noService, "no worker registered for route"⟩ := by
    intro hconn hnone
    simp [request, hconn, hnone]
  have hcases := request_requested hs caller route timeoutMs payload expiredAt admittedAt
  generalize s.request caller route timeoutMs payload expiredAt admittedAt = result at hcases h hnoService
  cases hcases with
  | disconnected hconn =>
      obtain rfl := Exit.error.inj h
      refine ⟨Or.inl rfl, ?_, ?_, nofun, fun hcaller => absurd hcaller hconn⟩
      · rw [if_neg (by simp [budgetError, Code.serviceUnavailable, Code.noService, Code.overloaded])]
      · simp [hconn, Code.serviceUnavailable, Code.noService]
  | noService hconn hr =>
      obtain rfl := Exit.error.inj h
      refine ⟨Or.inl rfl, ?_, by simp [hconn, hr], nofun, fun _ hroute => absurd hr hroute⟩
      rw [if_pos (Or.inl rfl)]
  | @overloaded t routeState hconn ht hr hfull =>
      obtain rfl := Exit.error.inj h
      have hcleaned := hswept route expiredAt
      have hinv := expireQueued_inv hs route expiredAt
      rw [← ht] at hcleaned hinv
      have hroute : s.routes.lookup route ≠ none := by
        intro hnone
        obtain ⟨r, hr', -⟩ := (expireQueued_settles hs.toCounted route expiredAt).shrinks.route (ht ▸ hr)
        rw [hnone] at hr'
        cases hr'
      have hfits : t.Full route payload := by
        rcases hfull with hqueue | hcalls | hbytes
        · exact Or.inl ⟨routeState, hr, hqueue⟩
        · exact Or.inr (Or.inl hcalls)
        · have := hinv.bytes
          exact Or.inr (Or.inr (by omega))
      have hrejected : t.rejected = s.rejected := by
        rw [ht]
        exact (expireQueued_settles hs.toCounted route expiredAt).shrinks.rejected
      have hdone := hcleaned.refused (saturatingSucc t.rejected)
      refine ⟨Or.inr ⟨hroute, hdone⟩, ?_, ?_, fun _ => hfits, fun _ _ _ => ⟨rfl, hfits, hdone, hdone.alive⟩⟩
      · rw [← hrejected]
        exact (if_pos (Or.inr rfl)).symm
      · simp [hroute, Code.overloaded, Code.noService]
  | @exhausted t hconn ht hid =>
      obtain rfl := Exit.error.inj h
      have hcleaned := hswept route expiredAt
      rw [← ht] at hcleaned
      have hroute : s.routes.lookup route ≠ none := by
        intro hnone
        have := congrArg Error.code (Exit.error.inj (hnoService hconn hnone))
        cases this
      have hnext : t.nextId = s.nextId := hcleaned.nextId
      refine ⟨Or.inr ⟨hroute, hcleaned⟩, ?_, ?_, nofun, fun _ _ hleft => by omega⟩
      · rw [if_neg (by simp [budgetError, Code.overloaded, Code.noService])]
        rw [ht]
        exact (expireQueued_settles hs.toCounted route expiredAt).shrinks.rejected
      · simp [hroute, Code.overloaded, Code.noService]
  | admitted _ ht _ _ _ _ _ => cases h

theorem tryTake_unchanged {s : State} (hs : Inv s) {workerId expiredAt now : Nat} {error : Error}
    (h : (s.tryTake workerId expiredAt now).2 = .error error) :
    (s.tryTake workerId expiredAt now).1 = s := by
  have hcases := tryTake_polled hs workerId expiredAt now
  generalize s.tryTake workerId expiredAt now = result at hcases h
  cases hcases with
  | unregistered => rfl
  | busy => rfl
  | idle => cases h
  | late => cases h
  | job => cases h

theorem register_unchanged {s : State} {workerId : Nat} {name : String} {concurrency queueLimit : Nat}
    {error : Error} (h : (s.register workerId name concurrency queueLimit).2 = .error error) :
    (s.register workerId name concurrency queueLimit).1 = s := by
  rcases register_cases s workerId name concurrency queueLimit with ⟨error', heq⟩ | ⟨-, -, -, heq⟩
  · rw [heq]
  · rw [heq] at h
    cases h

theorem takeStart_unchanged {s : State} {workerId : Nat} {error : Error}
    (h : (s.takeStart workerId).2 = .error error) : (s.takeStart workerId).1 = s := by
  rcases takeStart_cases s workerId with ⟨error', heq⟩ | ⟨worker, -, -, heq⟩
  · rw [heq]
  · rw [heq] at h
    cases h

theorem complete_unchanged {s : State} {workerId id : Nat} {failed : Bool} {payload : Bytes} {now : Nat}
    {error : Error} (h : (s.complete workerId id failed payload now).2 = .error error) :
    (s.complete workerId id failed payload now).1 = s := by
  rcases complete_cases s workerId id failed payload now with ⟨error', heq, -⟩ | ⟨call, t, -, -, -, -, heq⟩
  · rw [heq]
  · rw [heq] at h
    cases h

end State

namespace Sys

/-- The cleanup of a queue in a reachable state. -/
theorem expireQueued_swept {maxCalls maxBytes : Nat} {s : Sys} (h : (anyClock maxCalls maxBytes).Reachable s)
    (route : String) (now : Nat) : s.rpc.Swept route now (s.rpc.expireQueued route now) := by
  have hinv := (sound h).inv
  have hs := answered h
  -- The cleanup is the one of a request, so it keeps what every request keeps.
  have hevolves : Evolves (s.Ends (.request 0 route 0 [] now 0)) s.rpc (s.rpc.expireQueued route now) :=
    (State.expireQueued_settles hinv.toCounted route now).evolves
  have hcount : ∀ {t : State}, (∀ id, Fair t id) → (∀ id, s.rpc.nextId ≤ id → replies id t.outbox = []) →
      deadlineReplies t.outbox ≤ u64Max := fun hfair hnew =>
    (deadlineReplies_le hnew fun id => (hfair id).2).trans (nextId_le h)
  have htimed := timedOut_eq h
  have htimed' := hevolves.timed htimed
  rw [min_eq_left (hcount hs.fair hs.unasked)] at htimed
  rw [min_eq_left] at htimed'
  · exact State.expireQueued_swept hinv (sender_waits h) hs.fair htimed htimed'
  apply hcount
  · intro id
    exact (evolves_fair_due hevolves (hs.fair id)).1
  · intro id hid
    have hfresh : s.rpc.calls.lookup id = none := by
      rw [Option.eq_none_iff_forall_ne_some]
      intro call hcall
      exact absurd (hinv.fresh id call hcall) (not_lt.mpr hid)
    rw [(hevolves.absent hfresh).2]
    exact hs.unasked id hid

/-- **Refused operations.** In every reachable state, a registration, a take, a poll or a completion that
ends with an error leaves the scheduler as it was. A request that ends with an error leaves it as it was
too, but for the counter of refusals, which goes up by one (and stays at its maximum) exactly on a missing
service and on a full budget, and for the calls queued on its own route past their deadline: these are gone
before the budgets are looked at, each answered and counted once. A connected caller of a live route is
refused, while identifiers are left, only by a budget that is full without them. -/
theorem refused_changes_nothing {maxCalls maxBytes : Nat} {s : Sys}
    (h : (anyClock maxCalls maxBytes).Reachable s) :
    (∀ worker name concurrency queueLimit error,
      (s.rpc.register worker name concurrency queueLimit).2 = .error error →
      (s.rpc.register worker name concurrency queueLimit).1 = s.rpc) ∧
    (∀ worker error, (s.rpc.takeStart worker).2 = .error error → (s.rpc.takeStart worker).1 = s.rpc) ∧
    (∀ worker expiredAt now error, (s.rpc.tryTake worker expiredAt now).2 = .error error →
      (s.rpc.tryTake worker expiredAt now).1 = s.rpc) ∧
    (∀ worker id failed payload now error, (s.rpc.complete worker id failed payload now).2 = .error error →
      (s.rpc.complete worker id failed payload now).1 = s.rpc) ∧
    ∀ caller route timeoutMs payload expiredAt admittedAt error,
      (s.rpc.request caller route timeoutMs payload expiredAt admittedAt).2 = .error error →
      s.rpc.Refusal caller route payload expiredAt
        (s.rpc.request caller route timeoutMs payload expiredAt admittedAt).1 error := by
  have hinv := (sound h).inv
  refine ⟨fun _ _ _ _ _ herror => State.register_unchanged herror,
    fun _ _ herror => State.takeStart_unchanged herror,
    fun _ _ _ _ herror => State.tryTake_unchanged hinv herror,
    fun _ _ _ _ _ _ herror => State.complete_unchanged herror, ?_⟩
  intro caller route timeoutMs payload expiredAt admittedAt error herror
  exact State.request_refusal hinv (expireQueued_swept h) herror

/-- A call waits on a route whose budget of bytes it fills, with five milliseconds to its deadline. -/
def crowded : Sys :=
  (((Sys.new 4 519).next (.connected 1)).next (.register 1 "sum" 1 4)).next (.request 1 "sum" 5 [7] 0 0)

theorem anyClock_next {maxCalls maxBytes : Nat} {s : Sys} (h : (anyClock maxCalls maxBytes).Reachable s)
    (op : Op) (hop : s.Enabled op) : (anyClock maxCalls maxBytes).Reachable (s.next op) := h.step ⟨hop, rfl⟩

theorem crowded_reachable : (anyClock 4 519).Reachable crowded := by
  have h := Transition.Reachable.of_start (T := anyClock 4 519) rfl
  have h := anyClock_next h (.connected 1) (Finset.notMem_empty 1)
  have h := anyClock_next h (.register 1 "sum" 1 4) trivial
  exact anyClock_next h (.request 1 "sum" 5 [7] 0 0) trivial

theorem refused_changes_nothing_crowded :
    ∃ t, t = (crowded.rpc.request 1 "sum" 5 [7, 7] 6000000 6000000).1 ∧ t.rejected = 1 ∧ t.timedOut = 1 ∧
      replies 1 t.outbox = [.error deadlineError] ∧ t.retainedBytes + 519 = crowded.rpc.retainedBytes := by
  have herror : (crowded.rpc.request 1 "sum" 5 [7, 7] 6000000 6000000).2 = .error State.budgetError := by
    decide
  have h := (refused_changes_nothing crowded_reachable).2.2.2.2 1 "sum" 5 [7, 7] 6000000 6000000 _ herror
  obtain ⟨-, -, hswept, -⟩ := h.forced (by decide) (by decide) (by decide)
  refine ⟨_, rfl, h.counted.trans (by decide), hswept.timedOut.trans (by decide),
    hswept.told 1 ⟨1, "sum", none, 5000000, [7], true, 519⟩ (by decide) (by decide), ?_⟩
  exact hswept.retained

/-- A connection whose requests all miss their service. -/
def refusing (n : Nat) : Sys :=
  { (Sys.new 0 0).next (.connected 1) with
    rpc := { ((Sys.new 0 0).next (.connected 1)).rpc with rejected := min n u64Max } }

theorem refusing_request (n : Nat) : (refusing n).rpc.request 1 "sum" 1 [] 0 0 =
    ((refusing (n + 1)).rpc, .error ⟨Code.noService, "no worker registered for route"⟩) := by
  have hrejected : saturatingSucc (min n u64Max) = min (n + 1) u64Max := by
    unfold saturatingSucc saturatingAdd
    omega
  have hrequest : (refusing n).rpc.request 1 "sum" 1 [] 0 0 =
      ({ (refusing n).rpc with rejected := saturatingSucc (min n u64Max) },
        .error ⟨Code.noService, "no worker registered for route"⟩) := by
    rw [State.request, if_neg (by simp [refusing, next, new, State.connected]), if_pos (by rfl)]
    rfl
  rw [hrequest, hrejected]
  rfl

theorem refusing_next (n : Nat) : (refusing n).next (.request 1 "sum" 1 [] 0 0) = refusing (n + 1) := by
  rw [next, refusing_request]
  rfl

theorem refusing_reachable (n : Nat) : (anyClock 0 0).Reachable (refusing n) := by
  induction n with
  | zero =>
      have h := Transition.Reachable.of_start (T := anyClock 0 0) rfl
      exact anyClock_next h (.connected 1) (Finset.notMem_empty 1)
  | succ n ih =>
      rw [← refusing_next]
      exact anyClock_next ih _ trivial

/-- The counter of refusals does not go up at its maximum, which is reached. -/
theorem rejected_stays_at_max :
    ¬∀ (maxCalls maxBytes : Nat) (s : Sys), (anyClock maxCalls maxBytes).Reachable s →
      ∀ (caller : Nat) (route : String) (timeoutMs : Nat) (payload : Bytes) (expiredAt admittedAt : Nat)
        (error : Error), (s.rpc.request caller route timeoutMs payload expiredAt admittedAt).2 = .error error →
        error.code = Code.noService →
        (s.rpc.request caller route timeoutMs payload expiredAt admittedAt).1.rejected = s.rpc.rejected + 1 := by
  intro hgrows
  have hgrown := hgrows 0 0 (refusing u64Max) (refusing_reachable u64Max) 1 "sum" 1 [] 0 0
    ⟨Code.noService, "no worker registered for route"⟩
  rw [refusing_request] at hgrown
  have hmax : min (u64Max + 1) u64Max = min u64Max u64Max + 1 := hgrown rfl rfl
  omega

end Sys

end VeloBus.Rpc
