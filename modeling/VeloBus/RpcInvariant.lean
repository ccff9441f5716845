import VeloBus.RpcSettle

/-! The representation invariant of the scheduler. `Counted` says that the byte total, the running
counts and the queues are what the call table says; it survives ending any call, even in the middle of
`disconnect`. `Linked` ties calls, workers and routes together and `Bounded` collects the limits. -/

namespace VeloBus.Rpc

structure Counted (s : State) : Prop where
  retained : s.retainedBytes = Table.total (fun _ call => call.retainedBytes) s.calls
  running : ∀ w worker, s.workers.lookup w = some worker →
    worker.running = Table.count (fun _ call => call.owner = some w) s.calls
  sorted : ∀ name route, s.routes.lookup name = some route → route.queue.Pairwise (· < ·)
  queued : ∀ name route, s.routes.lookup name = some route → ∀ id, id ∈ route.queue ↔
    ∃ call, s.calls.lookup id = some call ∧ call.owner = none ∧ call.route = name
  healthy : s.poisoned = false

structure Linked (s : State) : Prop where
  unowned : ∀ id call, s.calls.lookup id = some call → call.owner = none →
    ∃ route, s.routes.lookup call.route = some route
  owned : ∀ id call w, s.calls.lookup id = some call → call.owner = some w →
    ∃ worker, s.workers.lookup w = some worker ∧ worker.route = call.route
  staffed : ∀ name route, s.routes.lookup name = some route →
    route.workers ≠ [] ∧ route.workers.Nodup ∧
      ∀ w, w ∈ route.workers ↔ ∃ worker, s.workers.lookup w = some worker ∧ worker.route = name
  routed : ∀ w worker, s.workers.lookup w = some worker →
    ∃ route, s.routes.lookup worker.route = some route

structure Bounded (s : State) : Prop where
  calls : s.calls.size ≤ s.maxCalls
  bytes : s.retainedBytes ≤ s.maxBytes
  queue : ∀ name route, s.routes.lookup name = some route → route.queue.length ≤ route.queueLimit
  slots : ∀ w worker, s.workers.lookup w = some worker → worker.running ≤ worker.concurrency
  waiters : ∀ w worker, s.workers.lookup w = some worker → worker.pendingTakes ≤ worker.concurrency
  fresh : ∀ id call, s.calls.lookup id = some call → id < s.nextId
  positive : ∀ id call, s.calls.lookup id = some call → 0 < id
  next : 0 < s.nextId

structure Inv (s : State) : Prop extends Counted s, Linked s, Bounded s where
  connected : ∀ w worker, s.workers.lookup w = some worker → w ∈ s.connections

/-! ### Ending calls -/

theorem Settle.counted {s s' : State} {id : Nat} {call : Call} {reply : Option Reply} {freed : Bool}
    (h : Settle s id call reply freed s') (hs : Counted s) : Counted s' := by
  have hle : call.retainedBytes ≤ s.retainedBytes := by
    rw [hs.retained]
    exact Table.le_total (fun _ (call : Call) => call.retainedBytes) h.live
  cases freed with
  | false =>
      have hcalls : s'.calls = s.calls.modify id Call.takeResponse := h.calls.trans (if_neg (by simp))
      have hroutes : s'.routes = s.routes := h.routes.trans (if_neg (by simp))
      have hworkers : s'.workers = s.workers := h.workers.trans (if_neg (by simp))
      refine ⟨?_, fun w worker hw => ?_, fun name route hr => ?_, fun name route hr k => ?_, ?_⟩
      · rw [h.retained, if_neg (by simp), hs.retained, hcalls, Table.total_modify_same]
        exact fun _ _ => rfl
      · rw [hworkers] at hw
        rw [hs.running w worker hw, Table.count, Table.count, hcalls, Table.total_modify_same]
        exact fun _ _ => rfl
      · rw [hroutes] at hr
        exact hs.sorted name route hr
      · rw [hroutes] at hr
        rw [hs.queued name route hr k, h.lookup_calls]
        by_cases hk : k = id
        · subst hk
          rw [if_pos rfl, if_neg (by simp), h.live]
          simp [Call.takeResponse]
        · rw [if_neg hk]
      · rw [h.poisoned, hs.healthy]
        rfl
  | true =>
      have hcalls : s'.calls = s.calls.erase id := h.calls.trans (if_pos rfl)
      refine ⟨?_, fun w worker hw => ?_, fun name route hr => ?_, fun name route hr k => ?_, ?_⟩
      · have := Table.total_erase (fun _ call => call.retainedBytes) h.live
        rw [h.retained, if_pos rfl, hs.retained, hcalls]
        omega
      · have herase := Table.total_erase (fun _ (call : Call) => if call.owner = some w then 1 else 0) h.live
        rw [h.lookup_workers] at hw
        rw [Table.count, hcalls]
        split_ifs at hw with howner
        · obtain ⟨worker₀, hw₀, rfl⟩ := Option.map_eq_some_iff.mp hw
          have hrun := hs.running w worker₀ hw₀
          rw [Table.count] at hrun
          rw [if_pos howner.2] at herase
          simp only [Worker.freeSlot, hrun]
          omega
        · have hrun := hs.running w worker hw
          rw [Table.count] at hrun
          rw [if_neg fun heq => howner ⟨rfl, heq⟩] at herase
          omega
      · obtain ⟨route₀, hr₀, hsub⟩ := h.shrinks.queues name route hr
        exact (hs.sorted name route₀ hr₀).sublist hsub
      · rw [h.lookup_routes] at hr
        rw [h.lookup_calls]
        split_ifs at hr with hqueue
        · obtain ⟨route₀, hr₀, rfl⟩ := Option.map_eq_some_iff.mp hr
          by_cases hk : k = id
          · simp [Route.dequeue, hk]
          · simp [Route.dequeue, hk, hs.queued name route₀ hr₀ k]
        · rw [hs.queued name route hr k]
          by_cases hk : k = id
          · subst hk
            simp only [if_true]
            constructor
            · rintro ⟨call', hlive, howner, hroute⟩
              obtain rfl := Option.some.inj (h.live.symm.trans hlive)
              exact absurd ⟨rfl, howner, hroute⟩ hqueue
            · rintro ⟨_, hnone, _⟩
              cases hnone
          · rw [if_neg hk]
      · rw [h.poisoned, hs.healthy]
        simpa using hle

theorem Settles.counted {rule : Nat → Call → Option Reply → Bool → Prop} {s t : State}
    (h : Settles rule s t) (hs : Counted s) : Counted t :=
  h.preserves (P := Counted) (fun hone _ => hone.counted) hs

theorem Shrinks.worker {s t : State} (h : Shrinks s t) {w : Nat} {worker : Worker}
    (hw : t.workers.lookup w = some worker) :
    ∃ worker₀, s.workers.lookup w = some worker₀ ∧ worker.seat = worker₀.seat := by
  have hseat := h.seats w
  rw [hw, Option.map_some] at hseat
  obtain ⟨worker₀, hw₀, heq⟩ := Option.map_eq_some_iff.mp hseat.symm
  exact ⟨worker₀, hw₀, heq.symm⟩

theorem Shrinks.worker' {s t : State} (h : Shrinks s t) {w : Nat} {worker : Worker}
    (hw : s.workers.lookup w = some worker) :
    ∃ worker', t.workers.lookup w = some worker' ∧ worker'.seat = worker.seat := by
  have hseat := h.seats w
  rw [hw, Option.map_some] at hseat
  exact Option.map_eq_some_iff.mp hseat

theorem Shrinks.route {s t : State} (h : Shrinks s t) {name : String} {route : Route}
    (hr : t.routes.lookup name = some route) :
    ∃ route₀, s.routes.lookup name = some route₀ ∧ route.staff = route₀.staff := by
  have hstaff := h.staff name
  rw [hr, Option.map_some] at hstaff
  obtain ⟨route₀, hr₀, heq⟩ := Option.map_eq_some_iff.mp hstaff.symm
  exact ⟨route₀, hr₀, heq.symm⟩

theorem Shrinks.route' {s t : State} (h : Shrinks s t) {name : String} {route : Route}
    (hr : s.routes.lookup name = some route) :
    ∃ route', t.routes.lookup name = some route' ∧ route'.staff = route.staff := by
  have hstaff := h.staff name
  rw [hr, Option.map_some] at hstaff
  exact Option.map_eq_some_iff.mp hstaff

theorem Worker.seat_route {a b : Worker} (h : a.seat = b.seat) : a.route = b.route := by
  simpa [Worker.seat] using congrArg Worker.route h

theorem Worker.seat_concurrency {a b : Worker} (h : a.seat = b.seat) :
    a.concurrency = b.concurrency := by
  simpa [Worker.seat] using congrArg Worker.concurrency h

theorem Worker.seat_pendingTakes {a b : Worker} (h : a.seat = b.seat) :
    a.pendingTakes = b.pendingTakes := by
  simpa [Worker.seat] using congrArg Worker.pendingTakes h

theorem Route.staff_workers {a b : Route} (h : a.staff = b.staff) : a.workers = b.workers := by
  simpa [Route.staff] using congrArg Route.workers h

theorem Route.staff_queueLimit {a b : Route} (h : a.staff = b.staff) :
    a.queueLimit = b.queueLimit := by
  simpa [Route.staff] using congrArg Route.queueLimit h

theorem Shrinks.linked {s t : State} (h : Shrinks s t) (hs : Linked s) : Linked t where
  unowned id call' hlive howner := by
    obtain ⟨call, hs₀, hkept⟩ := h.calls id call' hlive
    rw [hkept.owner] at howner
    obtain ⟨route, hroute⟩ := hs.unowned id call hs₀ howner
    obtain ⟨route', hroute', _⟩ := h.route' hroute
    exact ⟨route', hkept.route ▸ hroute'⟩
  owned id call' w hlive howner := by
    obtain ⟨call, hs₀, hkept⟩ := h.calls id call' hlive
    rw [hkept.owner] at howner
    obtain ⟨worker, hw, hroute⟩ := hs.owned id call w hs₀ howner
    obtain ⟨worker', hw', hseat⟩ := h.worker' hw
    exact ⟨worker', hw', (Worker.seat_route hseat).trans (hroute.trans hkept.route.symm)⟩
  staffed name route' hr := by
    obtain ⟨route, hr₀, hstaff⟩ := h.route hr
    obtain ⟨hne, hnodup, hmem⟩ := hs.staffed name route hr₀
    rw [Route.staff_workers hstaff]
    refine ⟨hne, hnodup, fun w => (hmem w).trans ⟨?_, ?_⟩⟩
    · rintro ⟨worker, hw, hroute⟩
      obtain ⟨worker', hw', hseat⟩ := h.worker' hw
      exact ⟨worker', hw', (Worker.seat_route hseat).trans hroute⟩
    · rintro ⟨worker', hw', hroute⟩
      obtain ⟨worker, hw, hseat⟩ := h.worker hw'
      exact ⟨worker, hw, (Worker.seat_route hseat).symm.trans hroute⟩
  routed w worker' hw' := by
    obtain ⟨worker, hw, hseat⟩ := h.worker hw'
    obtain ⟨route, hroute⟩ := hs.routed w worker hw
    obtain ⟨route', hroute', _⟩ := h.route' hroute
    exact ⟨route', (Worker.seat_route hseat) ▸ hroute'⟩

theorem Shrinks.bounded {s t : State} (h : Shrinks s t) (hs : Bounded s) : Bounded t where
  calls := h.maxCalls ▸ h.size.trans hs.calls
  bytes := h.maxBytes ▸ h.retained.trans hs.bytes
  queue name route' hr := by
    obtain ⟨route, hr₀, hstaff⟩ := h.route hr
    obtain ⟨route₁, hr₁, hsub⟩ := h.queues name route' hr
    obtain rfl := Option.some.inj (hr₀.symm.trans hr₁)
    rw [Route.staff_queueLimit hstaff]
    exact hsub.length_le.trans (hs.queue name route hr₀)
  slots w worker' hw := by
    obtain ⟨worker, hw₀, hseat⟩ := h.worker hw
    obtain ⟨worker₁, hw₁, hle⟩ := h.running w worker' hw
    obtain rfl := Option.some.inj (hw₀.symm.trans hw₁)
    rw [Worker.seat_concurrency hseat]
    exact hle.trans (hs.slots w worker hw₀)
  waiters w worker' hw := by
    obtain ⟨worker, hw₀, hseat⟩ := h.worker hw
    rw [Worker.seat_concurrency hseat, Worker.seat_pendingTakes hseat]
    exact hs.waiters w worker hw₀
  fresh id call' hlive := by
    obtain ⟨call, hs₀, _⟩ := h.calls id call' hlive
    exact h.nextId ▸ hs.fresh id call hs₀
  positive id call' hlive := by
    obtain ⟨call, hs₀, _⟩ := h.calls id call' hlive
    exact hs.positive id call hs₀
  next := h.nextId ▸ hs.next

theorem Settles.inv {rule : Nat → Call → Option Reply → Bool → Prop} {s t : State}
    (h : Settles rule s t) (hs : Inv s) : Inv t where
  toCounted := h.counted hs.toCounted
  toLinked := h.shrinks.linked hs.toLinked
  toBounded := h.shrinks.bounded hs.toBounded
  connected w worker' hw := by
    obtain ⟨worker, hw₀, _⟩ := h.shrinks.worker hw
    rw [h.shrinks.connections]
    exact hs.connected w worker hw₀

theorem Counted.queueNodup {s : State} (h : Counted s) {name : String} {route : Route}
    (hr : s.routes.lookup name = some route) : route.queue.Nodup :=
  (h.sorted name route hr).imp fun hlt => Nat.ne_of_lt hlt

end VeloBus.Rpc
