import VeloBus.RpcInvariant

/-! One specification for each method of the scheduler: everything the critical section can do, and
that it keeps the representation invariant. -/

namespace VeloBus.Rpc

/-- A queued call of a route whose deadline has passed is answered and freed. -/
def expiryRule (name : String) (now : Nat) (_ : Nat) (call : Call) (reply : Option Reply)
    (freed : Bool) : Prop :=
  call.owner = none ∧ call.route = name ∧ call.deadline ≤ now ∧
    reply = some (.error deadlineError) ∧ freed = true

theorem expiryRule_mono {name : String} {now now' : Nat} (hle : now ≤ now') (id : Nat) (call : Call)
    (reply : Option Reply) (freed : Bool) (h : expiryRule name now id call reply freed) :
    expiryRule name now' id call reply freed :=
  ⟨h.1, h.2.1, h.2.2.1.trans hle, h.2.2.2⟩

theorem Inv.with_outbox {s : State} (h : Inv s) (outbox : List Effect) :
    Inv { s with outbox := outbox } :=
  ⟨⟨h.retained, h.running, h.sorted, h.queued, h.healthy⟩,
    ⟨h.unowned, h.owned, h.staffed, h.routed⟩,
    ⟨h.calls, h.bytes, h.queue, h.slots, h.waiters, h.fresh, h.positive, h.next⟩, h.connected⟩

namespace State

theorem foldl_notify (ids : List Nat) (s : State) :
    ∃ new, ids.foldl (fun s id => if (s.workers.lookup id).isSome then s.notify id else s) s =
      { s with outbox := s.outbox ++ new } ∧ (∀ k, replies k new = []) ∧
      ∀ w ∈ ids, (s.workers.lookup w).isSome → Effect.notify w ∈ new := by
  induction ids generalizing s with
  | nil => exact ⟨[], by simp, fun _ => rfl, nofun⟩
  | cons id ids ih =>
      rw [List.foldl_cons]
      split_ifs with hid
      · obtain ⟨new, hnew, hreplies, hmem⟩ := ih (s.notify id)
        refine ⟨.notify id :: new, ?_, fun k => ?_, ?_⟩
        · rw [hnew]
          simp [notify]
        · rw [← List.singleton_append, replies_append, hreplies, replies_notify, List.append_nil]
        · intro w hw hlive
          rcases List.mem_cons.mp hw with rfl | hw
          · exact List.mem_cons_self
          · exact List.mem_cons_of_mem _ (hmem w hw hlive)
      · obtain ⟨new, hnew, hreplies, hmem⟩ := ih s
        refine ⟨new, hnew, hreplies, ?_⟩
        intro w hw hlive
        rcases List.mem_cons.mp hw with rfl | hw
        · exact absurd hlive hid
        · exact hmem w hw hlive

/-- Notifying a route only appends to the outbox, no reply and a notification for each of its workers. -/
theorem notifyRoute_eq (s : State) (name : String) :
    ∃ new, s.notifyRoute name = { s with outbox := s.outbox ++ new } ∧ (∀ k, replies k new = []) ∧
      ∀ route, s.routes.lookup name = some route → ∀ w ∈ route.workers, (s.workers.lookup w).isSome →
        Effect.notify w ∈ new := by
  unfold notifyRoute
  cases s.routes.lookup name with
  | none => exact ⟨[], by simp, fun _ => rfl, nofun⟩
  | some route =>
      obtain ⟨new, hnew, hreplies, hmem⟩ := foldl_notify route.workers s
      exact ⟨new, hnew, hreplies, fun route' hroute => Option.some.inj hroute ▸ hmem⟩

/-! ### Expiry -/

theorem expireQueued_settles {s : State} (hs : Counted s) (name : String) (now : Nat) :
    Settles (expiryRule name now) s (s.expireQueued name now) := by
  unfold expireQueued
  cases hr : s.routes.lookup name with
  | none => exact .refl
  | some route =>
      apply settles_foldl (fun t id => expire_none) (fun t id call => expire_settle)
      intro id hid call call' hlive hkept
      simp only [List.mem_filter, hlive, decide_eq_true_eq] at hid
      obtain ⟨call₀, hlive₀, howner, hroute⟩ := (hs.queued name route hr id).mp hid.1
      obtain rfl := Option.some.inj (hlive₀.symm.trans hlive)
      have howner' : call'.owner = none := hkept.owner.trans howner
      exact ⟨howner', hkept.route.trans hroute, hkept.deadline ▸ hid.2, rfl, by simp [howner']⟩

/-- What is still queued after the cleanup has time left at the reading of the cleanup. -/
theorem expireQueued_alive {s : State} (hs : Counted s) {name : String} {now id : Nat} {call : Call}
    {route : Route} (hr : (s.expireQueued name now).routes.lookup name = some route)
    (hid : id ∈ route.queue) (hlive : (s.expireQueued name now).calls.lookup id = some call) :
    now < call.deadline := by
  have hsettles := expireQueued_settles hs name now
  obtain ⟨call', hlive', howner, -⟩ := ((hsettles.counted hs).queued name route hr id).mp hid
  obtain rfl := Option.some.inj (hlive.symm.trans hlive')
  obtain ⟨route₀, hr₀, hsub⟩ := hsettles.shrinks.queues name route hr
  by_contra hle
  rw [Nat.not_lt] at hle
  obtain ⟨call₀, hlive₀, hkept⟩ := hsettles.shrinks.calls id call hlive
  unfold expireQueued at hlive
  simp only [hr₀] at hlive
  have hdone := foldl_lookup_of_mem (fun call => decide (call.owner = none))
    (fun t id => expire_none) (fun t id call => expire_settle)
    (fun _ _ hkept => by rw [hkept.owner]) _ s (by
      simp only [List.mem_filter, hlive₀, decide_eq_true_eq]
      exact ⟨hsub.subset hid, hkept.deadline ▸ hle⟩) hlive
  simp [howner] at hdone

theorem expireQueued_inv {s : State} (hs : Inv s) (name : String) (now : Nat) :
    Inv (s.expireQueued name now) := (expireQueued_settles hs.toCounted name now).inv hs

theorem expire_settles (s : State) (id : Nat) :
    Settles (fun k call reply freed => k = id ∧ reply = some (.error deadlineError) ∧
      freed = decide (call.owner = none)) s (s.expire id) := by
  cases h : s.calls.lookup id with
  | none =>
      rw [expire_none h]
      exact .refl
  | some call => exact .single (expire_settle h) ⟨rfl, rfl, rfl⟩

theorem cancel_settles (s : State) (id : Nat) :
    Settles (fun k call reply freed => k = id ∧ reply = none ∧
      freed = decide (call.owner = none)) s (s.cancel id) := by
  cases h : s.calls.lookup id with
  | none =>
      rw [cancel_none h]
      exact .refl
  | some call => exact .single (cancel_settle h) ⟨rfl, rfl, rfl⟩

theorem connected_inv {s : State} (hs : Inv s) (connection : Nat) : Inv (s.connected connection) :=
  ⟨⟨hs.retained, hs.running, hs.sorted, hs.queued, hs.healthy⟩,
    ⟨hs.unowned, hs.owned, hs.staffed, hs.routed⟩,
    ⟨hs.calls, hs.bytes, hs.queue, hs.slots, hs.waiters, hs.fresh, hs.positive, hs.next⟩,
    fun w worker hw => Finset.mem_insert_of_mem (hs.connected w worker hw)⟩

/-! ### Registration -/

/-- The routes after a registration: a missing route is created with an empty queue. -/
theorem lookup_enroll_routes (s : State) (workerId : Nat) (name : String)
    (concurrency queueLimit : Nat) (name' : String) :
    (s.enroll workerId name concurrency queueLimit).routes.lookup name' =
      if name' = name then
        some (((s.routes.lookup name).getD ⟨[], [], queueLimit⟩).enlist workerId)
      else s.routes.lookup name' := by
  rw [enroll, Table.lookup_modify]
  split_ifs with h
  · subst h
    cases hr : s.routes.lookup name' with
    | some route => simp [hr]
    | none => simp
  · cases s.routes.lookup name with
    | some route => rfl
    | none => exact AList.lookup_insert_ne h

theorem lookup_enroll_workers (s : State) (workerId : Nat) (name : String)
    (concurrency queueLimit w : Nat) :
    (s.enroll workerId name concurrency queueLimit).workers.lookup w =
      if w = workerId then some ⟨name, concurrency, 0, 0⟩ else s.workers.lookup w :=
  Table.lookup_insert_ite _ _ _ _

theorem register_cases (s : State) (workerId : Nat) (name : String) (concurrency queueLimit : Nat) :
    (∃ error, s.register workerId name concurrency queueLimit = (s, .error error)) ∨
    (workerId ∈ s.connections ∧ s.workers.lookup workerId = none ∧
      (∀ route, s.routes.lookup name = some route → route.queueLimit = queueLimit) ∧
      s.register workerId name concurrency queueLimit =
        (s.enroll workerId name concurrency queueLimit, .ok ())) := by
  unfold register
  by_cases hconn : workerId ∉ s.connections
  · rw [if_pos hconn]
    exact Or.inl ⟨_, rfl⟩
  rw [if_neg hconn]
  by_cases hworker : (s.workers.lookup workerId).isSome
  · rw [if_pos hworker]
    exact Or.inl ⟨_, rfl⟩
  rw [if_neg hworker]
  by_cases hlimit : (s.routes.lookup name).any fun route => route.queueLimit ≠ queueLimit
  · rw [if_pos hlimit]
    exact Or.inl ⟨_, rfl⟩
  rw [if_neg hlimit]
  refine Or.inr ⟨not_not.mp hconn, by simpa using hworker, fun route hr => ?_, rfl⟩
  simpa [hr] using hlimit

theorem enroll_inv {s : State} (hs : Inv s) {workerId : Nat} (hconn : workerId ∈ s.connections)
    (hfresh : s.workers.lookup workerId = none) (name : String) (concurrency queueLimit : Nat) :
    Inv (s.enroll workerId name concurrency queueLimit) := by
  have hnotOwner : ∀ id call, s.calls.lookup id = some call → call.owner ≠ some workerId := by
    intro id call hlive howner
    obtain ⟨worker, hw, _⟩ := hs.owned id call workerId hlive howner
    rw [hfresh] at hw
    cases hw
  have hnotStaff : ∀ n route, s.routes.lookup n = some route → workerId ∉ route.workers := by
    intro n route hr hmem
    obtain ⟨worker, hw, _⟩ := ((hs.staffed n route hr).2.2 workerId).mp hmem
    rw [hfresh] at hw
    cases hw
  -- A route after the registration has the queue of the route it was, or is new and empty.
  have hqueue : ∀ n route,
      (s.enroll workerId name concurrency queueLimit).routes.lookup n = some route →
      (∃ route₀, s.routes.lookup n = some route₀ ∧ route.queue = route₀.queue ∧
        route.queueLimit = route₀.queueLimit) ∨
      (s.routes.lookup n = none ∧ route.queue = []) := by
    intro n route hr
    rw [lookup_enroll_routes] at hr
    split_ifs at hr with hn
    · subst hn
      obtain rfl := Option.some.inj hr
      cases hr₀ : s.routes.lookup n with
      | some route₀ => exact Or.inl ⟨route₀, rfl, rfl, rfl⟩
      | none => exact Or.inr ⟨rfl, rfl⟩
    · exact Or.inl ⟨route, hr, rfl, rfl⟩
  have hworkers : ∀ w worker,
      (s.enroll workerId name concurrency queueLimit).workers.lookup w = some worker →
      (w = workerId ∧ worker = ⟨name, concurrency, 0, 0⟩) ∨
        s.workers.lookup w = some worker := by
    intro w worker hw
    rw [lookup_enroll_workers] at hw
    split_ifs at hw with hwid
    · exact Or.inl ⟨hwid, (Option.some.inj hw).symm⟩
    · exact Or.inr hw
  refine ⟨⟨hs.retained, fun w worker hw => ?_, fun n route hr => ?_, fun n route hr id => ?_,
    hs.healthy⟩, ⟨fun id call hlive howner => ?_, fun id call w hlive howner => ?_,
    fun n route hr => ?_, fun w worker hw => ?_⟩,
    ⟨hs.calls, hs.bytes, fun n route hr => ?_, fun w worker hw => ?_, fun w worker hw => ?_,
      hs.fresh, hs.positive, hs.next⟩, fun w worker hw => ?_⟩
  · rcases hworkers w worker hw with ⟨rfl, rfl⟩ | hold
    · exact (Table.count_eq_zero hnotOwner).symm
    · exact hs.running w worker hold
  · rcases hqueue n route hr with ⟨route₀, hr₀, hq, -⟩ | ⟨-, hq⟩
    · rw [hq]
      exact hs.sorted n route₀ hr₀
    · rw [hq]
      exact List.Pairwise.nil
  · rcases hqueue n route hr with ⟨route₀, hr₀, hq, -⟩ | ⟨hnone, hq⟩
    · rw [hq]
      exact hs.queued n route₀ hr₀ id
    · rw [hq]
      refine ⟨fun hmem => absurd hmem (List.not_mem_nil), ?_⟩
      rintro ⟨call, hlive, howner, rfl⟩
      obtain ⟨route', hr'⟩ := hs.unowned id call hlive howner
      rw [hnone] at hr'
      cases hr'
  · obtain ⟨route, hr⟩ := hs.unowned id call hlive howner
    rw [lookup_enroll_routes]
    split_ifs
    · exact ⟨_, rfl⟩
    · exact ⟨route, hr⟩
  · obtain ⟨worker, hw, hroute⟩ := hs.owned id call w hlive howner
    refine ⟨worker, ?_, hroute⟩
    have hne : w ≠ workerId := by
      rintro rfl
      exact hnotOwner id call hlive howner
    rw [lookup_enroll_workers, if_neg hne]
    exact hw
  · rw [lookup_enroll_routes] at hr
    split_ifs at hr with hn
    · subst hn
      obtain rfl := Option.some.inj hr
      have hold : ((s.routes.lookup n).getD ⟨[], [], queueLimit⟩).workers.Nodup ∧
          ∀ w, w ∈ ((s.routes.lookup n).getD ⟨[], [], queueLimit⟩).workers ↔
            ∃ worker, s.workers.lookup w = some worker ∧ worker.route = n := by
        cases hr₀ : s.routes.lookup n with
        | some route₀ => exact (hs.staffed n route₀ hr₀).2
        | none =>
            refine ⟨List.nodup_nil, fun w => ⟨fun hmem => absurd hmem List.not_mem_nil, ?_⟩⟩
            rintro ⟨worker, hw, rfl⟩
            obtain ⟨route', hr'⟩ := hs.routed w worker hw
            rw [hr₀] at hr'
            cases hr'
      have hnew : workerId ∉ ((s.routes.lookup n).getD ⟨[], [], queueLimit⟩).workers := by
        rw [hold.2]
        rintro ⟨worker, hw, -⟩
        rw [hfresh] at hw
        cases hw
      refine ⟨by simp [Route.enlist], ?_, fun w => ?_⟩
      · exact List.Nodup.append hold.1 (List.nodup_singleton _) (by simpa using hnew)
      · simp only [Route.enlist, List.mem_append, List.mem_singleton, hold.2,
          lookup_enroll_workers]
        by_cases hw : w = workerId
        · simp [hw]
        · simp [hw]
    · obtain ⟨hne, hnodup, hmem⟩ := hs.staffed n route hr
      refine ⟨hne, hnodup, fun w => (hmem w).trans ?_⟩
      rw [lookup_enroll_workers]
      by_cases hw : w = workerId
      · subst hw
        simp [hfresh, Ne.symm hn]
      · rw [if_neg hw]
  · rw [lookup_enroll_routes]
    split_ifs with hn
    · exact ⟨_, rfl⟩
    · rcases hworkers w worker hw with ⟨rfl, rfl⟩ | hold
      · exact absurd rfl hn
      · exact hs.routed w worker hold
  · rcases hqueue n route hr with ⟨route₀, hr₀, hq, hl⟩ | ⟨-, hq⟩
    · rw [hq, hl]
      exact hs.queue n route₀ hr₀
    · rw [hq]
      exact Nat.zero_le _
  · rcases hworkers w worker hw with ⟨rfl, rfl⟩ | hold
    · exact Nat.zero_le _
    · exact hs.slots w worker hold
  · rcases hworkers w worker hw with ⟨rfl, rfl⟩ | hold
    · exact Nat.zero_le _
    · exact hs.waiters w worker hold
  · rcases hworkers w worker hw with ⟨rfl, rfl⟩ | hold
    · exact hconn
    · exact hs.connected w worker hold

/-! ### Requests -/

theorem lookup_accept_calls (s : State) (call : Call) (k : Nat) :
    (s.accept call).calls.lookup k = if k = s.nextId then some call else s.calls.lookup k :=
  Table.lookup_insert_ite _ _ _ _

theorem lookup_accept_routes (s : State) (call : Call) (name : String) :
    (s.accept call).routes.lookup name =
      if name = call.route then (s.routes.lookup name).map (Route.enqueue s.nextId)
      else s.routes.lookup name :=
  Table.lookup_modify _ _ _ _

theorem nextId_fresh {s : State} (hs : Inv s) : s.calls.lookup s.nextId = none := by
  cases h : s.calls.lookup s.nextId with
  | none => rfl
  | some call => exact absurd (hs.fresh _ _ h) (lt_irrefl _)

theorem accept_inv {s : State} (hs : Inv s) {call : Call} {route : Route}
    (hr : s.routes.lookup call.route = some route) (howner : call.owner = none)
    (hqueue : route.queue.length < route.queueLimit) (hcalls : s.calls.size < s.maxCalls)
    (hbytes : call.retainedBytes ≤ s.maxBytes - s.retainedBytes) : Inv (s.accept call) := by
  have hnew := nextId_fresh hs
  have hnotQueued : ∀ n r, s.routes.lookup n = some r → s.nextId ∉ r.queue := by
    intro n r hr' hmem
    obtain ⟨call', hlive, -⟩ := (hs.queued n r hr' s.nextId).mp hmem
    rw [hnew] at hlive
    cases hlive
  have hroutes : ∀ n r, (s.accept call).routes.lookup n = some r →
      (n = call.route ∧ r = route.enqueue s.nextId) ∨
        (n ≠ call.route ∧ s.routes.lookup n = some r) := by
    intro n r hr'
    rw [lookup_accept_routes] at hr'
    split_ifs at hr' with hn
    · subst hn
      rw [hr, Option.map_some] at hr'
      exact Or.inl ⟨rfl, (Option.some.inj hr').symm⟩
    · exact Or.inr ⟨hn, hr'⟩
  have hlt : ∀ k ∈ route.queue, k < s.nextId := by
    intro k hk
    obtain ⟨call', hlive, -⟩ := (hs.queued _ route hr k).mp hk
    exact hs.fresh k call' hlive
  refine ⟨⟨?_, fun w worker hw => ?_, fun n r hr' => ?_, fun n r hr' k => ?_, hs.healthy⟩,
    ⟨fun k call' hlive howner' => ?_, fun k call' w hlive howner' => ?_, fun n r hr' => ?_,
      fun w worker hw => ?_⟩,
    ⟨?_, ?_, fun n r hr' => ?_, hs.slots, hs.waiters, fun k call' hlive => ?_,
      fun k call' hlive => ?_, Nat.succ_pos _⟩, hs.connected⟩
  · change s.retainedBytes + call.retainedBytes = Table.total _ (s.calls.insert s.nextId call)
    rw [Table.total_insert _ hnew, hs.retained, Nat.add_comm]
  · change worker.running = Table.total _ (s.calls.insert s.nextId call)
    rw [Table.total_insert _ hnew, if_neg (by simp [howner]), Nat.zero_add]
    exact hs.running w worker hw
  · rcases hroutes n r hr' with ⟨-, rfl⟩ | ⟨-, hr₀⟩
    · rw [Route.enqueue, List.pairwise_append]
      refine ⟨hs.sorted _ route hr, List.pairwise_singleton _ _, fun a ha b hb => ?_⟩
      rw [List.mem_singleton.mp hb]
      exact hlt a ha
    · exact hs.sorted n r hr₀
  · rw [lookup_accept_calls]
    rcases hroutes n r hr' with ⟨rfl, rfl⟩ | ⟨hn, hr₀⟩
    · simp only [Route.enqueue, List.mem_append, List.mem_singleton, hs.queued _ route hr k]
      by_cases hk : k = s.nextId
      · simp [hk, howner]
      · simp [hk]
    · by_cases hk : k = s.nextId
      · subst hk
        rw [if_pos rfl]
        refine ⟨fun hmem => absurd hmem (hnotQueued n r hr₀), ?_⟩
        rintro ⟨call', heq, -, hroute⟩
        obtain rfl := Option.some.inj heq
        exact absurd hroute.symm hn
      · rw [if_neg hk]
        exact hs.queued n r hr₀ k
  · rw [lookup_accept_calls] at hlive
    have hold : ∃ r, s.routes.lookup call'.route = some r := by
      split_ifs at hlive
      · obtain rfl := Option.some.inj hlive
        exact ⟨route, hr⟩
      · exact hs.unowned k call' hlive howner'
    obtain ⟨r, hr₀⟩ := hold
    rw [lookup_accept_routes, hr₀]
    split_ifs
    · exact ⟨_, rfl⟩
    · exact ⟨r, rfl⟩
  · rw [lookup_accept_calls] at hlive
    split_ifs at hlive
    · obtain rfl := Option.some.inj hlive
      rw [howner] at howner'
      cases howner'
    · exact hs.owned k call' w hlive howner'
  · rcases hroutes n r hr' with ⟨rfl, rfl⟩ | ⟨-, hr₀⟩
    · exact hs.staffed _ route hr
    · exact hs.staffed n r hr₀
  · obtain ⟨r, hr₀⟩ := hs.routed w worker hw
    rw [lookup_accept_routes, hr₀]
    split_ifs
    · exact ⟨_, rfl⟩
    · exact ⟨r, rfl⟩
  · change Table.size (s.calls.insert s.nextId call) ≤ s.maxCalls
    rw [Table.size_insert hnew]
    exact hcalls
  · change s.retainedBytes + call.retainedBytes ≤ s.maxBytes
    have := hs.bytes
    omega
  · rcases hroutes n r hr' with ⟨-, rfl⟩ | ⟨-, hr₀⟩
    · rw [Route.enqueue, List.length_append]
      exact hqueue
    · exact hs.queue n r hr₀
  · rw [lookup_accept_calls] at hlive
    change k < s.nextId + 1
    split_ifs at hlive with hk
    · exact hk ▸ Nat.lt_succ_self _
    · exact (hs.fresh k call' hlive).trans (Nat.lt_succ_self _)
  · rw [lookup_accept_calls] at hlive
    split_ifs at hlive with hk
    · exact hk ▸ hs.next
    · exact hs.positive k call' hlive

/-- Everything a request can do. -/
inductive Requested (s : State) (caller : Nat) (route : String) (timeoutMs : Nat) (payload : Bytes)
    (expiredAt admittedAt : Nat) : State × Exit Ticket → Prop where
  | disconnected (h : caller ∉ s.connections) :
      Requested s caller route timeoutMs payload expiredAt admittedAt
        (s, .error ⟨Code.serviceUnavailable, "caller connection has closed"⟩)
  | noService (h : caller ∈ s.connections) (hr : s.routes.lookup route = none) :
      Requested s caller route timeoutMs payload expiredAt admittedAt
        ({ s with rejected := saturatingSucc s.rejected },
          .error ⟨Code.noService, "no worker registered for route"⟩)
  | overloaded {t : State} {routeState : Route} (h : caller ∈ s.connections)
      (ht : t = s.expireQueued route expiredAt) (hr : t.routes.lookup route = some routeState)
      (hfull : routeState.queueLimit ≤ routeState.queue.length ∨ t.maxCalls ≤ t.calls.size ∨
        t.maxBytes - t.retainedBytes < callBytes route payload) :
      Requested s caller route timeoutMs payload expiredAt admittedAt
        ({ t with rejected := saturatingSucc t.rejected },
          .error ⟨Code.overloaded, "RPC admission budget is full; request was not accepted"⟩)
  | exhausted {t : State} (h : caller ∈ s.connections) (ht : t = s.expireQueued route expiredAt)
      (hid : u64Max < t.nextId + 1) :
      Requested s caller route timeoutMs payload expiredAt admittedAt
        (t, .error ⟨Code.overloaded, "RPC identifier space exhausted"⟩)
  | admitted {t : State} {routeState : Route} {call : Call} (h : caller ∈ s.connections)
      (ht : t = s.expireQueued route expiredAt) (hr : t.routes.lookup route = some routeState)
      (hqueue : routeState.queue.length < routeState.queueLimit)
      (hcalls : t.calls.size < t.maxCalls)
      (hbytes : callBytes route payload ≤ t.maxBytes - t.retainedBytes)
      (hcall : call = ⟨caller, route, none, admittedAt + timeoutMs * nanosPerMilli, payload, true,
        callBytes route payload⟩) :
      Requested s caller route timeoutMs payload expiredAt admittedAt
        ((t.accept call).notifyRoute route, .ok ⟨t.nextId, call.deadline⟩)

theorem request_requested {s : State} (hs : Inv s) (caller : Nat) (route : String) (timeoutMs : Nat)
    (payload : Bytes) (expiredAt admittedAt : Nat) :
    Requested s caller route timeoutMs payload expiredAt admittedAt
      (s.request caller route timeoutMs payload expiredAt admittedAt) := by
  unfold request
  by_cases hconn : caller ∉ s.connections
  · rw [if_pos hconn]
    exact .disconnected hconn
  rw [if_neg hconn]
  rw [not_not] at hconn
  by_cases hservice : s.routes.lookup route = none
  · rw [if_pos hservice]
    exact .noService hconn hservice
  rw [if_neg hservice]
  have hshrinks := (expireQueued_settles hs.toCounted route expiredAt).shrinks
  obtain ⟨route₀, hr₀⟩ := Option.ne_none_iff_exists'.mp hservice
  obtain ⟨routeState, hr, -⟩ := hshrinks.route' hr₀
  simp only [hr]
  by_cases hfull : routeState.queueLimit ≤ routeState.queue.length ∨
      (s.expireQueued route expiredAt).maxCalls ≤ (s.expireQueued route expiredAt).calls.size ∨
      (s.expireQueued route expiredAt).maxBytes - (s.expireQueued route expiredAt).retainedBytes <
        callBytes route payload
  · rw [if_pos hfull]
    exact .overloaded hconn rfl hr hfull
  rw [if_neg hfull]
  by_cases hid : u64Max < (s.expireQueued route expiredAt).nextId + 1
  · rw [if_pos hid]
    exact .exhausted hconn rfl hid
  rw [if_neg hid]
  simp only [not_or, not_le, not_lt] at hfull
  exact .admitted hconn rfl hr hfull.1 hfull.2.1 hfull.2.2 rfl

theorem request_inv {s : State} (hs : Inv s) (caller : Nat) (route : String) (timeoutMs : Nat)
    (payload : Bytes) (expiredAt admittedAt : Nat) :
    Inv (s.request caller route timeoutMs payload expiredAt admittedAt).1 := by
  have hexpired : Inv (s.expireQueued route expiredAt) := expireQueued_inv hs route expiredAt
  have hrejected : ∀ {t : State}, Inv t → Inv { t with rejected := saturatingSucc t.rejected } :=
    fun h => ⟨⟨h.retained, h.running, h.sorted, h.queued, h.healthy⟩,
      ⟨h.unowned, h.owned, h.staffed, h.routed⟩,
      ⟨h.calls, h.bytes, h.queue, h.slots, h.waiters, h.fresh, h.positive, h.next⟩, h.connected⟩
  have hcases := request_requested hs caller route timeoutMs payload expiredAt admittedAt
  generalize s.request caller route timeoutMs payload expiredAt admittedAt = result at hcases
  cases hcases with
  | disconnected => exact hs
  | noService => exact hrejected hs
  | overloaded _ ht => exact hrejected (ht ▸ hexpired)
  | exhausted _ ht => exact ht ▸ hexpired
  | admitted _ ht hr hqueue hcalls hbytes hcall =>
      subst ht hcall
      obtain ⟨new, heq, -⟩ := notifyRoute_eq
        (State.accept (s.expireQueued route expiredAt) ⟨caller, route, none,
          admittedAt + timeoutMs * nanosPerMilli, payload, true, callBytes route payload⟩) route
      rw [heq]
      exact (accept_inv hexpired hr rfl hqueue hcalls hbytes).with_outbox _

/-! ### Taking work -/

theorem lookup_handOut_calls (s : State) (name : String) (workerId id k : Nat) :
    (s.handOut name workerId id).calls.lookup k =
      if k = id then (s.calls.lookup k).map (Call.assign workerId) else s.calls.lookup k :=
  Table.lookup_modify _ _ _ _

theorem lookup_handOut_routes (s : State) (name : String) (workerId id : Nat) (name' : String) :
    (s.handOut name workerId id).routes.lookup name' =
      if name' = name then (s.routes.lookup name').map Route.popFront
      else s.routes.lookup name' :=
  Table.lookup_modify _ _ _ _

theorem lookup_handOut_workers (s : State) (name : String) (workerId id w : Nat) :
    (s.handOut name workerId id).workers.lookup w =
      if w = workerId then (s.workers.lookup w).map Worker.takeSlot else s.workers.lookup w :=
  Table.lookup_modify _ _ _ _

theorem handOut_inv {s : State} (hs : Inv s) {workerId id : Nat} {worker : Worker} {route : Route}
    {queue : List Nat} (hw : s.workers.lookup workerId = some worker)
    (hfree : worker.running < worker.concurrency)
    (hr : s.routes.lookup worker.route = some route) (hq : route.queue = id :: queue) :
    Inv (s.handOut worker.route workerId id) := by
  obtain ⟨call, hlive, howner, hroute⟩ := (hs.queued _ route hr id).mp (by simp [hq])
  have hsorted := hs.sorted _ route hr
  rw [hq, List.pairwise_cons] at hsorted
  have hcalls : ∀ k call', (s.handOut worker.route workerId id).calls.lookup k = some call' →
      (k = id ∧ call' = call.assign workerId) ∨ (k ≠ id ∧ s.calls.lookup k = some call') := by
    intro k call' hk
    rw [lookup_handOut_calls] at hk
    split_ifs at hk with hid
    · rw [hid, hlive, Option.map_some] at hk
      exact Or.inl ⟨hid, (Option.some.inj hk).symm⟩
    · exact Or.inr ⟨hid, hk⟩
  have hroutes : ∀ n r, (s.handOut worker.route workerId id).routes.lookup n = some r →
      (n = worker.route ∧ r = route.popFront) ∨
        (n ≠ worker.route ∧ s.routes.lookup n = some r) := by
    intro n r hr'
    rw [lookup_handOut_routes] at hr'
    split_ifs at hr' with hn
    · rw [hn, hr, Option.map_some] at hr'
      exact Or.inl ⟨hn, (Option.some.inj hr').symm⟩
    · exact Or.inr ⟨hn, hr'⟩
  have hworkers : ∀ w worker', (s.handOut worker.route workerId id).workers.lookup w = some worker' →
      (w = workerId ∧ worker' = worker.takeSlot) ∨
        (w ≠ workerId ∧ s.workers.lookup w = some worker') := by
    intro w worker' hw'
    rw [lookup_handOut_workers] at hw'
    split_ifs at hw' with hwid
    · rw [hwid, hw, Option.map_some] at hw'
      exact Or.inl ⟨hwid, (Option.some.inj hw').symm⟩
    · exact Or.inr ⟨hwid, hw'⟩
  have hseat : ∀ w worker₀, s.workers.lookup w = some worker₀ → ∃ worker',
      (s.handOut worker.route workerId id).workers.lookup w = some worker' ∧
        worker'.route = worker₀.route := by
    intro w worker₀ hw₀
    rw [lookup_handOut_workers, hw₀]
    split_ifs
    · exact ⟨_, rfl, rfl⟩
    · exact ⟨_, rfl, rfl⟩
  refine ⟨⟨?_, fun w worker' hw' => ?_, fun n r hr' => ?_, fun n r hr' k => ?_, hs.healthy⟩,
    ⟨fun k call' hk howner' => ?_, fun k call' w hk howner' => ?_, fun n r hr' => ?_,
      fun w worker' hw' => ?_⟩,
    ⟨?_, hs.bytes, fun n r hr' => ?_, fun w worker' hw' => ?_, fun w worker' hw' => ?_,
      fun k call' hk => ?_, fun k call' hk => ?_, hs.next⟩, fun w worker' hw' => ?_⟩
  · change s.retainedBytes = Table.total _ (s.calls.modify id (Call.assign workerId))
    rw [Table.total_modify_same, hs.retained]
    exact fun _ _ => rfl
  · have hcount := Table.total_modify (fun _ (c : Call) => if c.owner = some w then 1 else 0)
      (Call.assign workerId) hlive
    rw [howner, if_neg (by simp)] at hcount
    rw [Table.count]
    change _ = Table.total _ (s.calls.modify id (Call.assign workerId))
    rcases hworkers w worker' hw' with ⟨rfl, rfl⟩ | ⟨hne, hw₀⟩
    · have hrun := hs.running w worker hw
      rw [Table.count] at hrun
      simp only [Call.assign, if_true] at hcount
      simp only [Worker.takeSlot, hrun]
      omega
    · have hrun := hs.running w worker' hw₀
      rw [Table.count] at hrun
      simp only [Call.assign, Option.some.injEq, if_neg (Ne.symm hne)] at hcount
      simp only [hrun]
      omega
  · rcases hroutes n r hr' with ⟨-, rfl⟩ | ⟨-, hr₀⟩
    · rw [Route.popFront, hq]
      exact hsorted.2
    · exact hs.sorted n r hr₀
  · have hcall : ∀ c, (s.handOut worker.route workerId id).calls.lookup k = some c →
        c.owner = none → k ≠ id ∧ s.calls.lookup k = some c := by
      intro c hc hnone
      rcases hcalls k c hc with ⟨-, rfl⟩ | hold
      · cases hnone
      · exact hold
    have hback : k ≠ id → (s.handOut worker.route workerId id).calls.lookup k =
        s.calls.lookup k := fun hk => by rw [lookup_handOut_calls, if_neg hk]
    rcases hroutes n r hr' with ⟨rfl, rfl⟩ | ⟨hn, hr₀⟩
    · have hmem : k ∈ queue ↔ k ≠ id ∧ k ∈ route.queue := by
        rw [hq, List.mem_cons]
        constructor
        · intro hk
          exact ⟨Nat.ne_of_gt (hsorted.1 k hk), Or.inr hk⟩
        · rintro ⟨hne, heq | hk⟩
          · exact absurd heq hne
          · exact hk
      rw [Route.popFront, hq, List.tail_cons, hmem, hs.queued _ route hr k]
      constructor
      · rintro ⟨hk, hold⟩
        rwa [hback hk]
      · rintro ⟨c, hc, hnone, hrt⟩
        obtain ⟨hk, hc₀⟩ := hcall c hc hnone
        exact ⟨hk, c, hc₀, hnone, hrt⟩
    · rw [hs.queued n r hr₀ k]
      constructor
      · rintro ⟨c, hc, hnone, hrt⟩
        have hk : k ≠ id := by
          rintro rfl
          obtain rfl := Option.some.inj (hlive.symm.trans hc)
          exact hn (hrt.symm.trans hroute)
        exact ⟨c, (hback hk).trans hc, hnone, hrt⟩
      · rintro ⟨c, hc, hnone, hrt⟩
        exact ⟨c, (hcall c hc hnone).2, hnone, hrt⟩
  · have hold : ∃ r, s.routes.lookup call'.route = some r := by
      rcases hcalls k call' hk with ⟨-, rfl⟩ | ⟨-, hk₀⟩
      · cases howner'
      · exact hs.unowned k call' hk₀ howner'
    obtain ⟨r, hr₀⟩ := hold
    rw [lookup_handOut_routes, hr₀]
    split_ifs
    · exact ⟨_, rfl⟩
    · exact ⟨r, rfl⟩
  · rcases hcalls k call' hk with ⟨-, rfl⟩ | ⟨-, hk₀⟩
    · obtain rfl := Option.some.inj howner'
      obtain ⟨worker', hw', hrt⟩ := hseat _ worker hw
      exact ⟨worker', hw', hrt.trans hroute.symm⟩
    · obtain ⟨worker₀, hw₀, hrt₀⟩ := hs.owned k call' w hk₀ howner'
      obtain ⟨worker', hw', hrt⟩ := hseat _ worker₀ hw₀
      exact ⟨worker', hw', hrt.trans hrt₀⟩
  · have hold : ∃ r₀, s.routes.lookup n = some r₀ ∧ r.workers = r₀.workers := by
      rcases hroutes n r hr' with ⟨rfl, rfl⟩ | ⟨-, hr₀⟩
      · exact ⟨route, hr, rfl⟩
      · exact ⟨r, hr₀, rfl⟩
    obtain ⟨r₀, hr₀, hws⟩ := hold
    obtain ⟨hne, hnodup, hmem⟩ := hs.staffed n r₀ hr₀
    rw [hws]
    refine ⟨hne, hnodup, fun w => (hmem w).trans ⟨?_, ?_⟩⟩
    · rintro ⟨worker₀, hw₀, hrt₀⟩
      obtain ⟨worker', hw', hrt⟩ := hseat w worker₀ hw₀
      exact ⟨worker', hw', hrt.trans hrt₀⟩
    · rintro ⟨worker', hw', hrt⟩
      rcases hworkers w worker' hw' with ⟨rfl, rfl⟩ | ⟨-, hw₀⟩
      · exact ⟨worker, hw, hrt⟩
      · exact ⟨worker', hw₀, hrt⟩
  · have hold : ∃ r, s.routes.lookup worker'.route = some r := by
      rcases hworkers w worker' hw' with ⟨rfl, rfl⟩ | ⟨-, hw₀⟩
      · exact ⟨route, hr⟩
      · exact hs.routed w worker' hw₀
    obtain ⟨r, hr₀⟩ := hold
    rw [lookup_handOut_routes, hr₀]
    split_ifs
    · exact ⟨_, rfl⟩
    · exact ⟨r, rfl⟩
  · exact (Table.size_modify _ _ _).trans_le hs.calls
  · rcases hroutes n r hr' with ⟨rfl, rfl⟩ | ⟨-, hr₀⟩
    · exact (List.tail_sublist _).length_le.trans (hs.queue _ route hr)
    · exact hs.queue n r hr₀
  · rcases hworkers w worker' hw' with ⟨rfl, rfl⟩ | ⟨-, hw₀⟩
    · exact hfree
    · exact hs.slots w worker' hw₀
  · rcases hworkers w worker' hw' with ⟨rfl, rfl⟩ | ⟨-, hw₀⟩
    · exact hs.waiters w worker hw
    · exact hs.waiters w worker' hw₀
  · rcases hcalls k call' hk with ⟨rfl, -⟩ | ⟨-, hk₀⟩
    · exact hs.fresh k call hlive
    · exact hs.fresh k call' hk₀
  · rcases hcalls k call' hk with ⟨rfl, -⟩ | ⟨-, hk₀⟩
    · exact hs.positive k call hlive
    · exact hs.positive k call' hk₀
  · rcases hworkers w worker' hw' with ⟨rfl, rfl⟩ | ⟨-, hw₀⟩
    · exact hs.connected w worker hw
    · exact hs.connected w worker' hw₀

/-- Expiring the popped head of a queue is expiring it in place. -/
theorem expire_popFront_settle {s : State} {name : String} {route : Route} {id : Nat}
    {queue : List Nat} {call : Call} (hr : s.routes.lookup name = some route)
    (hq : route.queue = id :: queue) (hlive : s.calls.lookup id = some call)
    (howner : call.owner = none) (hroute : call.route = name) :
    Settle s id call (some (.error deadlineError)) true
      (expire { s with routes := s.routes.modify name Route.popFront } id) := by
  have hpop : Settle { s with routes := s.routes.modify name Route.popFront } id call
      (some (.error deadlineError)) (decide (call.owner = none)) _ := expire_settle hlive
  rw [decide_eq_true howner] at hpop
  refine { hpop with live := hlive, routes := hpop.routes.trans ?_ }
  rw [if_pos ⟨rfl, howner⟩, if_pos ⟨rfl, howner⟩, hroute]
  change (s.routes.modify name Route.popFront).modify name (Route.dequeue id) = _
  rw [Table.modify_modify]
  apply Table.modify_congr
  intro route' hr'
  obtain rfl := Option.some.inj (hr.symm.trans hr')
  simp [Route.dequeue, Route.popFront, hq]

/-- Everything one pass of `try_take` can do. -/
inductive Polled (s : State) (workerId : Nat) (expiredAt now : Nat) : State × Exit Poll → Prop where
  | unregistered (hw : s.workers.lookup workerId = none) :
      Polled s workerId expiredAt now
        (s, .error ⟨Code.unauthorized, "TAKE requires a registered worker"⟩)
  | busy {worker : Worker} (hw : s.workers.lookup workerId = some worker)
      (hfull : worker.concurrency ≤ worker.running) :
      Polled s workerId expiredAt now (s, .ok .empty)
  | idle {worker : Worker} {t : State} {route : Route}
      (hw : s.workers.lookup workerId = some worker) (hfree : worker.running < worker.concurrency)
      (ht : t = s.expireQueued worker.route expiredAt)
      (hr : t.routes.lookup worker.route = some route) (hq : route.queue = []) :
      Polled s workerId expiredAt now (t, .ok .empty)
  | late {worker : Worker} {t : State} (hw : s.workers.lookup workerId = some worker)
      (hfree : worker.running < worker.concurrency)
      (ht : Settles (expiryRule worker.route (max expiredAt now)) s t) :
      Polled s workerId expiredAt now (t, .ok .retry)
  | job {worker : Worker} {t : State} {route : Route} {id : Nat} {queue : List Nat} {call : Call}
      (hw : s.workers.lookup workerId = some worker) (hfree : worker.running < worker.concurrency)
      (ht : t = s.expireQueued worker.route expiredAt)
      (hr : t.routes.lookup worker.route = some route) (hq : route.queue = id :: queue)
      (hlive : t.calls.lookup id = some call) (howner : call.owner = none)
      (hroute : call.route = worker.route) (htime : now < call.deadline) :
      Polled s workerId expiredAt now (t.handOut worker.route workerId id,
        .ok (.job ⟨id, remainingMs call.deadline now, call.payload⟩))

theorem tryTake_polled {s : State} (hs : Inv s) (workerId expiredAt now : Nat) :
    Polled s workerId expiredAt now (s.tryTake workerId expiredAt now) := by
  unfold tryTake
  cases hw : s.workers.lookup workerId with
  | none => exact .unregistered hw
  | some worker =>
      dsimp only
      by_cases hfull : worker.concurrency ≤ worker.running
      · rw [if_pos hfull]
        exact .busy hw hfull
      rw [if_neg hfull]
      rw [not_le] at hfull
      have hsettles := expireQueued_settles hs.toCounted worker.route expiredAt
      have ht := hsettles.inv hs
      obtain ⟨route₀, hr₀⟩ := hs.routed workerId worker hw
      obtain ⟨route, hr, -⟩ := hsettles.shrinks.route' hr₀
      simp only [hr]
      cases hq : route.queue with
      | nil => exact .idle hw hfull rfl hr hq
      | cons id queue =>
          obtain ⟨call, hlive, howner, hroute⟩ := (ht.queued _ route hr id).mp (by simp [hq])
          simp only [hlive]
          by_cases hlate : call.deadline ≤ now
          · rw [if_pos hlate]
            apply Polled.late hw hfull
            apply (hsettles.mono (expiryRule_mono (le_max_left expiredAt now))).tail
              (expire_popFront_settle hr hq hlive howner hroute)
            exact ⟨howner, hroute, hlate.trans (le_max_right _ _), rfl, rfl⟩
          · rw [if_neg hlate]
            exact .job hw hfull rfl hr hq hlive howner hroute (not_le.mp hlate)

theorem tryTake_inv {s : State} (hs : Inv s) (workerId expiredAt now : Nat) :
    Inv (s.tryTake workerId expiredAt now).1 := by
  have hcases := tryTake_polled hs workerId expiredAt now
  generalize s.tryTake workerId expiredAt now = result at hcases
  cases hcases with
  | unregistered => exact hs
  | busy => exact hs
  | idle _ _ ht => exact ht ▸ expireQueued_inv hs _ _
  | late _ _ ht => exact ht.inv hs
  | @job worker t route id queue call hw hfree ht hr hq _ _ _ _ =>
      subst ht
      have hsettles := expireQueued_settles hs.toCounted worker.route expiredAt
      obtain ⟨worker', hw', hseat⟩ := hsettles.shrinks.worker' hw
      obtain ⟨worker₀, hw₀, hle⟩ := hsettles.shrinks.running workerId worker' hw'
      obtain rfl := Option.some.inj (hw.symm.trans hw₀)
      have hroute := Worker.seat_route hseat
      have hout := handOut_inv (hsettles.inv hs) hw'
        (Worker.seat_concurrency hseat ▸ lt_of_le_of_lt hle hfree) (by rw [hroute]; exact hr) hq
      rwa [hroute] at hout

/-! ### Waiting takes -/

/-- Changing only the waiter count of a worker, within its concurrency. -/
theorem modify_waiters_inv {s : State} (hs : Inv s) (workerId : Nat) (g : Worker → Worker)
    (hg : ∀ worker, g worker = { worker with pendingTakes := (g worker).pendingTakes })
    (hle : ∀ worker, s.workers.lookup workerId = some worker →
      (g worker).pendingTakes ≤ worker.concurrency) :
    Inv { s with workers := s.workers.modify workerId g } := by
  have hworkers : ∀ w worker', (s.workers.modify workerId g).lookup w = some worker' →
      ∃ worker, s.workers.lookup w = some worker ∧ worker'.route = worker.route ∧
        worker'.concurrency = worker.concurrency ∧ worker'.running = worker.running ∧
        worker'.pendingTakes ≤ worker.concurrency := by
    intro w worker' hw'
    rw [Table.lookup_modify] at hw'
    split_ifs at hw' with hw
    · obtain ⟨worker, hw₀, rfl⟩ := Option.map_eq_some_iff.mp hw'
      have hgw := hg worker
      exact ⟨worker, hw₀, by rw [hgw], by rw [hgw], by rw [hgw], hle worker (hw ▸ hw₀)⟩
    · exact ⟨worker', hw', rfl, rfl, rfl, hs.waiters w worker' hw'⟩
  have hback : ∀ w worker, s.workers.lookup w = some worker → ∃ worker',
      (s.workers.modify workerId g).lookup w = some worker' ∧ worker'.route = worker.route := by
    intro w worker hw
    rw [Table.lookup_modify, hw]
    split_ifs
    · exact ⟨g worker, rfl, by rw [hg worker]⟩
    · exact ⟨worker, rfl, rfl⟩
  refine ⟨⟨hs.retained, fun w worker' hw' => ?_, hs.sorted, hs.queued, hs.healthy⟩,
    ⟨hs.unowned, fun id call w hlive howner => ?_, fun n r hr => ?_, fun w worker' hw' => ?_⟩,
    ⟨hs.calls, hs.bytes, hs.queue, fun w worker' hw' => ?_, fun w worker' hw' => ?_, hs.fresh,
      hs.positive, hs.next⟩, fun w worker' hw' => ?_⟩
  · obtain ⟨worker, hw, -, -, hrun, -⟩ := hworkers w worker' hw'
    rw [hrun]
    exact hs.running w worker hw
  · obtain ⟨worker, hw, hroute⟩ := hs.owned id call w hlive howner
    obtain ⟨worker', hw', hroute'⟩ := hback w worker hw
    exact ⟨worker', hw', hroute'.trans hroute⟩
  · obtain ⟨hne, hnodup, hmem⟩ := hs.staffed n r hr
    refine ⟨hne, hnodup, fun w => (hmem w).trans ⟨?_, ?_⟩⟩
    · rintro ⟨worker, hw, hroute⟩
      obtain ⟨worker', hw', hroute'⟩ := hback w worker hw
      exact ⟨worker', hw', hroute'.trans hroute⟩
    · rintro ⟨worker', hw', hroute'⟩
      obtain ⟨worker, hw, hroute, -⟩ := hworkers w worker' hw'
      exact ⟨worker, hw, hroute.symm.trans hroute'⟩
  · obtain ⟨worker, hw, hroute, -⟩ := hworkers w worker' hw'
    rw [hroute]
    exact hs.routed w worker hw
  · obtain ⟨worker, hw, -, hconc, hrun, -⟩ := hworkers w worker' hw'
    rw [hconc, hrun]
    exact hs.slots w worker hw
  · obtain ⟨worker, hw, -, hconc, -, hpending⟩ := hworkers w worker' hw'
    rw [hconc]
    exact hpending
  · obtain ⟨worker, hw, -⟩ := hworkers w worker' hw'
    exact hs.connected w worker hw

theorem takeStart_cases (s : State) (workerId : Nat) :
    (∃ error, s.takeStart workerId = (s, .error error)) ∨
    (∃ worker, s.workers.lookup workerId = some worker ∧
      worker.pendingTakes < worker.concurrency ∧
      s.takeStart workerId =
        ({ s with workers := s.workers.modify workerId Worker.startTake }, .ok ())) := by
  unfold takeStart
  cases hw : s.workers.lookup workerId with
  | none => exact Or.inl ⟨_, rfl⟩
  | some worker =>
      dsimp only
      by_cases hfull : worker.concurrency ≤ worker.pendingTakes
      · rw [if_pos hfull]
        exact Or.inl ⟨_, rfl⟩
      · rw [if_neg hfull]
        exact Or.inr ⟨worker, rfl, not_le.mp hfull, rfl⟩

theorem takeStart_inv {s : State} (hs : Inv s) (workerId : Nat) : Inv (s.takeStart workerId).1 := by
  rcases takeStart_cases s workerId with ⟨error, heq⟩ | ⟨worker, hw, hlt, heq⟩
  · rw [heq]
    exact hs
  · rw [heq]
    refine modify_waiters_inv hs workerId Worker.startTake (fun _ => rfl) fun worker' hw' => ?_
    obtain rfl := Option.some.inj (hw.symm.trans hw')
    exact hlt

theorem takeGuardDrop_inv {s : State} (hs : Inv s) (workerId : Nat) :
    Inv (s.takeGuardDrop workerId) :=
  modify_waiters_inv hs workerId Worker.endTake (fun _ => rfl) fun worker hw =>
    (Nat.sub_le _ _).trans (hs.waiters workerId worker hw)

/-! ### Completion -/

theorem complete_cases (s : State) (workerId id : Nat) (failed : Bool) (payload : Bytes)
    (now : Nat) :
    (∃ error, s.complete workerId id failed payload now = (s, .error error) ∧
      ¬(s.workers.lookup workerId ≠ none ∧
        ∃ call, s.calls.lookup id = some call ∧ call.owner = some workerId)) ∨
    (∃ call t, s.workers.lookup workerId ≠ none ∧ s.calls.lookup id = some call ∧
      call.owner = some workerId ∧
      Settle s id call (some (completion call failed payload now)) true t ∧
      s.complete workerId id failed payload now =
        ({ t with completed := saturatingSucc s.completed }, .ok ())) := by
  by_cases hw : s.workers.lookup workerId = none
  · refine Or.inl ⟨⟨Code.unauthorized, "COMPLETE requires a registered worker"⟩, ?_,
      fun h => h.1 hw⟩
    simp [complete, hw]
  cases hlive : s.calls.lookup id with
  | none =>
      refine Or.inl ⟨⟨Code.invalid, "unknown or already completed call"⟩, ?_, ?_⟩
      · simp [complete, hw, hlive]
      · rintro ⟨-, call, hcall, -⟩
        cases hcall
  | some call =>
      by_cases howner : call.owner = some workerId
      · obtain ⟨hok, hcompleted, hsettle⟩ := complete_settle hw hlive howner failed payload now
        refine Or.inr ⟨call, _, hw, rfl, howner, hsettle, Prod.ext ?_ hok⟩
        dsimp only
        rw [← hcompleted]
      · refine Or.inl ⟨⟨Code.unauthorized, "call belongs to another worker"⟩, ?_, ?_⟩
        · simp [complete, hw, hlive, howner]
        · rintro ⟨-, call', hcall, howner'⟩
          obtain rfl := Option.some.inj hcall
          exact howner howner'

theorem complete_inv {s : State} (hs : Inv s) (workerId id : Nat) (failed : Bool) (payload : Bytes)
    (now : Nat) : Inv (s.complete workerId id failed payload now).1 := by
  rcases complete_cases s workerId id failed payload now with
    ⟨error, heq, -⟩ | ⟨call, t, -, -, -, hsettle, heq⟩
  · rw [heq]
    exact hs
  · have hsettles : Settles (fun _ _ _ _ => True) s t := .single hsettle trivial
    have ht := hsettles.inv hs
    rw [heq]
    exact ⟨⟨ht.retained, ht.running, ht.sorted, ht.queued, ht.healthy⟩,
      ⟨ht.unowned, ht.owned, ht.staffed, ht.routed⟩,
      ⟨ht.calls, ht.bytes, ht.queue, ht.slots, ht.waiters, ht.fresh, ht.positive, ht.next⟩,
      ht.connected⟩

end State

end VeloBus.Rpc
