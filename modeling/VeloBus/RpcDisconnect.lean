import VeloBus.RpcOperations

/-! `disconnect`: its four cleanup phases as sequences of settled calls, and that the representation
invariant, broken between the phases, holds again at the end. -/

namespace VeloBus.Rpc

namespace State

/-- The calls of a lost caller lose their sender; the queued ones are freed. -/
def callerRule (caller : Nat) (_ : Nat) (call : Call) (reply : Option Reply) (freed : Bool) : Prop :=
  call.caller = caller ∧ reply = none ∧ freed = decide (call.owner = none)

/-- The calls a lost worker runs are answered and freed. -/
def ownedRule (worker : Nat) (_ : Nat) (call : Call) (reply : Option Reply) (freed : Bool) : Prop :=
  call.owner = some worker ∧ reply = some (.error workerLostError) ∧ freed = true

/-- The queue of a route without workers is answered and freed. -/
def orphanRule (name : String) (_ : Nat) (call : Call) (reply : Option Reply) (freed : Bool) : Prop :=
  call.owner = none ∧ call.route = name ∧ reply = some (.error lastWorkerLostError) ∧ freed = true

theorem foldl_dropCaller {ids : List Nat} (hnodup : ids.Nodup) {s : State}
    (hlive : ∀ id ∈ ids, ∃ call, s.calls.lookup id = some call) :
    ids.foldl dropCaller s = ids.foldl cancel s := by
  induction ids generalizing s with
  | nil => rfl
  | cons id ids ih =>
      obtain ⟨call, hcall⟩ := hlive id (by simp)
      rw [List.nodup_cons] at hnodup
      have hdrop : s.dropCaller id = s.cancel id := by
        rw [dropCaller, hcall]
      rw [List.foldl_cons, List.foldl_cons, hdrop]
      apply ih hnodup.2
      intro k hk
      have hne : k ≠ id := by
        rintro rfl
        exact hnodup.1 hk
      rw [(cancel_settle hcall).lookup_calls, if_neg hne]
      exact hlive k (List.mem_cons_of_mem _ hk)

/-- Everything `disconnect` can do: the caller's calls end; a worker's running calls end; then its
route loses a worker, or disappears with its queue. -/
inductive Disconnected (s : State) (x : Nat) : State → Prop where
  | caller {t : State}
      (ht : Settles (callerRule x) { s with connections := s.connections.erase x } t)
      (hdone : ∀ id call, t.calls.lookup id = some call → call.caller = x →
        call.owner ≠ none ∧ call.response = false)
      (hw : s.workers.lookup x = none) : Disconnected s x t
  | worker {t u : State} {worker : Worker} {route : Route}
      (ht : Settles (callerRule x) { s with connections := s.connections.erase x } t)
      (hdone : ∀ id call, t.calls.lookup id = some call → call.caller = x →
        call.owner ≠ none ∧ call.response = false)
      (hw : t.workers.lookup x = some worker)
      (hu : Settles (ownedRule x) (notify { t with workers := t.workers.erase x } x) u)
      (hfree : ∀ id call, u.calls.lookup id = some call → call.owner ≠ some x)
      (hr : u.routes.lookup worker.route = some route) (hstaff : (route.delist x).workers ≠ []) :
      Disconnected s x
        (notifyRoute { u with routes := u.routes.modify worker.route (Route.delist x) } worker.route)
  | lastWorker {t u v : State} {worker : Worker} {route : Route}
      (ht : Settles (callerRule x) { s with connections := s.connections.erase x } t)
      (hdone : ∀ id call, t.calls.lookup id = some call → call.caller = x →
        call.owner ≠ none ∧ call.response = false)
      (hw : t.workers.lookup x = some worker)
      (hu : Settles (ownedRule x) (notify { t with workers := t.workers.erase x } x) u)
      (hfree : ∀ id call, u.calls.lookup id = some call → call.owner ≠ some x)
      (hr : u.routes.lookup worker.route = some route) (hstaff : (route.delist x).workers = [])
      (hv : Settles (orphanRule worker.route) { u with routes := u.routes.erase worker.route } v)
      (hgone : ∀ id call, v.calls.lookup id = some call → call.owner = none →
        call.route ≠ worker.route) : Disconnected s x v

theorem dropCallerCalls_settles (s : State) (x : Nat) :
    Settles (callerRule x) s (s.dropCallerCalls x) ∧
    ∀ id call, (s.dropCallerCalls x).calls.lookup id = some call → call.caller = x →
      call.owner ≠ none ∧ call.response = false := by
  have hfold : s.dropCallerCalls x =
      (Table.select (fun _ call => call.caller = x) s.calls).foldl cancel s := by
    apply foldl_dropCaller (Table.nodup_select _ _)
    intro id hid
    obtain ⟨call, hcall, -⟩ := Table.mem_select.mp hid
    exact ⟨call, hcall⟩
  have hsettles : Settles (callerRule x) s (s.dropCallerCalls x) := by
    rw [hfold]
    apply settles_foldl (fun t id => cancel_none) (fun t id call => cancel_settle)
    intro id hid call call' hlive hkept
    obtain ⟨call₀, hlive₀, hcaller⟩ := Table.mem_select.mp hid
    obtain rfl := Option.some.inj (hlive₀.symm.trans hlive)
    exact ⟨hkept.caller.trans (by simpa using hcaller), rfl, rfl⟩
  refine ⟨hsettles, fun id call hlive hcaller => ?_⟩
  obtain ⟨call₀, hlive₀, hkept⟩ := hsettles.shrinks.calls id call hlive
  have hmem : id ∈ Table.select (fun _ call => call.caller = x) s.calls :=
    Table.mem_select.mpr ⟨call₀, hlive₀, by simpa [hkept.caller] using hcaller⟩
  rw [hfold] at hlive
  have hlast := foldl_lookup_of_mem (fun call => decide (call.owner = none))
    (fun t id => cancel_none) (fun t id call => cancel_settle)
    (fun _ _ hkept => by rw [hkept.owner]) _ s hmem hlive
  exact ⟨by simpa using hlast.1, hlast.2⟩

theorem failRunning_settles (s : State) (x : Nat) :
    Settles (ownedRule x) s (s.failRunning x) ∧
    ∀ id call, (s.failRunning x).calls.lookup id = some call → call.owner ≠ some x := by
  have hsettles : Settles (ownedRule x) s (s.failRunning x) := by
    apply settles_foldl (fun t id => failCall_none _)
      (fun t id call => failCall_settle (by decide))
    intro id hid call call' hlive hkept
    obtain ⟨call₀, hlive₀, howner⟩ := Table.mem_select.mp hid
    obtain rfl := Option.some.inj (hlive₀.symm.trans hlive)
    exact ⟨hkept.owner.trans (by simpa using howner), rfl, rfl⟩
  refine ⟨hsettles, fun id call hlive howner => ?_⟩
  obtain ⟨call₀, hlive₀, hkept⟩ := hsettles.shrinks.calls id call hlive
  have hmem : id ∈ Table.select (fun _ call => call.owner = some x) s.calls :=
    Table.mem_select.mpr ⟨call₀, hlive₀, by simpa [hkept.owner] using howner⟩
  have hlast := foldl_lookup_of_mem (fun _ => true)
    (fun t id => failCall_none workerLostError)
    (fun t id call => failCall_settle (by decide)) (fun _ _ _ => rfl) _ s hmem hlive
  simp at hlast

/-- Failing the queue of a route that has just been removed empties that route. -/
theorem failQueue_settles {s : State} (hs : Counted s) {name : String} {route : Route}
    (hr : s.routes.lookup name = some route) :
    Settles (orphanRule name) { s with routes := s.routes.erase name }
      (route.queue.foldl (failCall lastWorkerLostError) { s with routes := s.routes.erase name }) ∧
    ∀ id call, (route.queue.foldl (failCall lastWorkerLostError)
      { s with routes := s.routes.erase name }).calls.lookup id = some call →
      call.owner = none → call.route ≠ name := by
  have hsettles : Settles (orphanRule name) { s with routes := s.routes.erase name }
      (route.queue.foldl (failCall lastWorkerLostError)
        { s with routes := s.routes.erase name }) := by
    apply settles_foldl (fun t id => failCall_none _)
      (fun t id call => failCall_settle (by decide))
    intro id hid call call' hlive hkept
    obtain ⟨call₀, hlive₀, howner, hroute⟩ := (hs.queued name route hr id).mp hid
    obtain rfl := Option.some.inj (hlive₀.symm.trans hlive)
    exact ⟨hkept.owner.trans howner, hkept.route.trans hroute, rfl, rfl⟩
  refine ⟨hsettles, fun id call hlive howner hroute => ?_⟩
  obtain ⟨call₀, hlive₀, hkept⟩ := hsettles.shrinks.calls id call hlive
  have hmem : id ∈ route.queue := (hs.queued name route hr id).mpr
    ⟨call₀, hlive₀, hkept.owner.symm.trans howner, hkept.route.symm.trans hroute⟩
  have hlast := foldl_lookup_of_mem (fun _ => true)
    (fun t id => failCall_none lastWorkerLostError)
    (fun t id call => failCall_settle (by decide)) (fun _ _ _ => rfl) _ _ hmem hlive
  simp at hlast

theorem erase_worker_counted {s : State} (hs : Counted s) (x : Nat) :
    Counted (notify { s with workers := s.workers.erase x } x) where
  retained := hs.retained
  running w worker hw := by
    change (s.workers.erase x).lookup w = some worker at hw
    rw [Table.lookup_erase_ite] at hw
    split_ifs at hw
    exact hs.running w worker hw
  sorted := hs.sorted
  queued := hs.queued
  healthy := hs.healthy

theorem disconnect_disconnected {s : State} (hs : Inv s) (x : Nat) :
    Disconnected s x (s.disconnect x) := by
  have hs₀ : Counted { s with connections := s.connections.erase x } :=
    ⟨hs.retained, hs.running, hs.sorted, hs.queued, hs.healthy⟩
  have hl₀ : Linked { s with connections := s.connections.erase x } :=
    ⟨hs.unowned, hs.owned, hs.staffed, hs.routed⟩
  obtain ⟨ht, hdone⟩ := dropCallerCalls_settles { s with connections := s.connections.erase x } x
  unfold disconnect
  generalize dropCallerCalls { s with connections := s.connections.erase x } x = t at ht hdone
  cases hw : t.workers.lookup x with
  | none =>
      simp only [hw]
      refine .caller ht hdone ?_
      have hseat := ht.shrinks.seats x
      rw [hw] at hseat
      exact Option.map_eq_none_iff.mp hseat.symm
  | some worker =>
      simp only [hw]
      obtain ⟨hu, hfree⟩ := failRunning_settles (notify { t with workers := t.workers.erase x } x) x
      have hcounted := hu.counted (erase_worker_counted (ht.counted hs₀) x)
      generalize failRunning (notify { t with workers := t.workers.erase x } x) x = u
        at hu hfree hcounted
      obtain ⟨route₀, hr₀⟩ := (ht.shrinks.linked hl₀).routed x worker hw
      obtain ⟨route, hr, -⟩ := hu.shrinks.route' hr₀
      simp only [leaveRoute, hr]
      by_cases hstaff : (route.delist x).workers = []
      · rw [if_pos hstaff]
        obtain ⟨hv, hgone⟩ := failQueue_settles hcounted hr
        exact .lastWorker ht hdone hw hu hfree hr hstaff hv hgone
      · rw [if_neg hstaff]
        exact .worker ht hdone hw hu hfree hr hstaff

/-! ### The invariant at the end -/

/-- The representation invariant while worker `x`, already removed and freed of its calls, is still
on the list of its route `name`. -/
structure Leaving (s : State) (x : Nat) (name : String) : Prop
    extends Counted s, Bounded s where
  unowned : ∀ id call, s.calls.lookup id = some call → call.owner = none →
    ∃ route, s.routes.lookup call.route = some route
  owned : ∀ id call w, s.calls.lookup id = some call → call.owner = some w →
    ∃ worker, s.workers.lookup w = some worker ∧ worker.route = call.route
  staffed : ∀ n route, s.routes.lookup n = some route → route.workers ≠ [] ∧ route.workers.Nodup ∧
    ∀ w, w ∈ route.workers ↔
      (w = x ∧ n = name) ∨ ∃ worker, s.workers.lookup w = some worker ∧ worker.route = n
  routed : ∀ w worker, s.workers.lookup w = some worker →
    ∃ route, s.routes.lookup worker.route = some route
  gone : s.workers.lookup x = none
  connected : ∀ w worker, s.workers.lookup w = some worker → w ∈ s.connections

/-- Removing a worker and ending its running calls. -/
theorem leaving {t u : State} {x : Nat} {worker : Worker} (hc : Counted t) (hl : Linked t)
    (hb : Bounded t) (hconn : ∀ w worker, t.workers.lookup w = some worker → w ≠ x → w ∈ t.connections)
    (hw : t.workers.lookup x = some worker)
    (hu : Settles (ownedRule x) (notify { t with workers := t.workers.erase x } x) u)
    (hfree : ∀ id call, u.calls.lookup id = some call → call.owner ≠ some x) :
    Leaving u x worker.route := by
  have herase : ∀ w, (t.workers.erase x).lookup w = if w = x then none else t.workers.lookup w :=
    fun w => Table.lookup_erase_ite x w t.workers
  have hbounded : Bounded (notify { t with workers := t.workers.erase x } x) := by
    refine ⟨hb.calls, hb.bytes, hb.queue, fun w worker' hw' => ?_, fun w worker' hw' => ?_, hb.fresh,
      hb.positive, hb.next⟩
    · rw [show (notify _ x).workers = t.workers.erase x from rfl, herase] at hw'
      split_ifs at hw'
      exact hb.slots w worker' hw'
    · rw [show (notify _ x).workers = t.workers.erase x from rfl, herase] at hw'
      split_ifs at hw'
      exact hb.waiters w worker' hw'
  -- The workers of `u` are the workers of `t` other than `x`.
  have hback : ∀ w worker', u.workers.lookup w = some worker' →
      w ≠ x ∧ ∃ worker₀, t.workers.lookup w = some worker₀ ∧ worker'.route = worker₀.route := by
    intro w worker' hw'
    obtain ⟨worker₀, hw₀, hseat⟩ := hu.shrinks.worker hw'
    rw [show (notify _ x).workers = t.workers.erase x from rfl, herase] at hw₀
    split_ifs at hw₀ with hne
    exact ⟨hne, worker₀, hw₀, Worker.seat_route hseat⟩
  have hforth : ∀ w worker₀, t.workers.lookup w = some worker₀ → w ≠ x →
      ∃ worker', u.workers.lookup w = some worker' ∧ worker'.route = worker₀.route := by
    intro w worker₀ hw₀ hne
    have hkept : (notify { t with workers := t.workers.erase x } x).workers.lookup w =
        some worker₀ := ((herase w).trans (if_neg hne)).trans hw₀
    obtain ⟨worker', hw', hseat⟩ := hu.shrinks.worker' hkept
    exact ⟨worker', hw', Worker.seat_route hseat⟩
  refine ⟨hu.counted (erase_worker_counted hc x), hu.shrinks.bounded hbounded,
    fun id call' hlive howner => ?_, fun id call' w hlive howner => ?_, fun n route' hr => ?_,
    fun w worker' hw' => ?_, ?_, fun w worker' hw' => ?_⟩
  · obtain ⟨call, hlive₀, hkept⟩ := hu.shrinks.calls id call' hlive
    rw [hkept.owner] at howner
    obtain ⟨route, hr⟩ := hl.unowned id call hlive₀ howner
    obtain ⟨route', hr', -⟩ := hu.shrinks.route' hr
    exact ⟨route', hkept.route ▸ hr'⟩
  · obtain ⟨call, hlive₀, hkept⟩ := hu.shrinks.calls id call' hlive
    have hne : w ≠ x := by
      rintro rfl
      exact hfree id call' hlive howner
    rw [hkept.owner] at howner
    obtain ⟨worker₀, hw₀, hroute⟩ := hl.owned id call w hlive₀ howner
    obtain ⟨worker', hw', hroute'⟩ := hforth w worker₀ hw₀ hne
    exact ⟨worker', hw', hroute'.trans (hroute.trans hkept.route.symm)⟩
  · obtain ⟨route, hr₀, hstaff⟩ := hu.shrinks.route hr
    obtain ⟨hne, hnodup, hmem⟩ := hl.staffed n route hr₀
    rw [Route.staff_workers hstaff]
    refine ⟨hne, hnodup, fun w => (hmem w).trans ⟨?_, ?_⟩⟩
    · rintro ⟨worker₀, hw₀, hroute⟩
      by_cases hx : w = x
      · subst hx
        obtain rfl := Option.some.inj (hw.symm.trans hw₀)
        exact Or.inl ⟨rfl, hroute.symm⟩
      · obtain ⟨worker', hw', hroute'⟩ := hforth w worker₀ hw₀ hx
        exact Or.inr ⟨worker', hw', hroute'.trans hroute⟩
    · rintro (⟨rfl, rfl⟩ | ⟨worker', hw', hroute⟩)
      · exact ⟨worker, hw, rfl⟩
      · obtain ⟨-, worker₀, hw₀, hroute₀⟩ := hback w worker' hw'
        exact ⟨worker₀, hw₀, hroute₀.symm.trans hroute⟩
  · obtain ⟨-, worker₀, hw₀, hroute⟩ := hback w worker' hw'
    obtain ⟨route, hr⟩ := hl.routed w worker₀ hw₀
    obtain ⟨route', hr', -⟩ := hu.shrinks.route' hr
    exact ⟨route', hroute ▸ hr'⟩
  · cases hx : u.workers.lookup x with
    | none => rfl
    | some worker' => exact absurd rfl (hback x worker' hx).1
  · obtain ⟨hne, worker₀, hw₀, -⟩ := hback w worker' hw'
    rw [hu.shrinks.connections]
    exact hconn w worker₀ hw₀ hne

/-- The route keeps other workers. -/
theorem Leaving.delist {u : State} {x : Nat} {name : String} (hu : Leaving u x name) {route : Route}
    (hr : u.routes.lookup name = some route) (hstaff : (route.delist x).workers ≠ []) :
    Inv { u with routes := u.routes.modify name (Route.delist x) } := by
  have hback : ∀ n route', (u.routes.modify name (Route.delist x)).lookup n = some route' →
      ∃ route₀, u.routes.lookup n = some route₀ ∧
        route' = if n = name then route₀.delist x else route₀ := by
    intro n route' hr'
    rw [Table.lookup_modify] at hr'
    split_ifs at hr' with hn
    · obtain ⟨route₀, hr₀, rfl⟩ := Option.map_eq_some_iff.mp hr'
      exact ⟨route₀, hr₀, (if_pos hn).symm⟩
    · exact ⟨route', hr', (if_neg hn).symm⟩
  have hqueue : ∀ n route', (u.routes.modify name (Route.delist x)).lookup n = some route' →
      ∃ route₀, u.routes.lookup n = some route₀ ∧ route'.queue = route₀.queue ∧
        route'.queueLimit = route₀.queueLimit := by
    intro n route' hr'
    obtain ⟨route₀, hr₀, rfl⟩ := hback n route' hr'
    refine ⟨route₀, hr₀, ?_⟩
    split_ifs <;> exact ⟨rfl, rfl⟩
  have hforth : ∀ n route₀, u.routes.lookup n = some route₀ →
      ∃ route', (u.routes.modify name (Route.delist x)).lookup n = some route' := by
    intro n route₀ hr₀
    rw [Table.lookup_modify, hr₀]
    split_ifs <;> exact ⟨_, rfl⟩
  refine ⟨⟨hu.retained, hu.running, fun n route' hr' => ?_, fun n route' hr' => ?_, hu.healthy⟩,
    ⟨fun id call hlive howner => ?_, hu.owned, fun n route' hr' => ?_, fun w worker hw => ?_⟩,
    ⟨hu.calls, hu.bytes, fun n route' hr' => ?_, hu.slots, hu.waiters, hu.fresh, hu.positive,
      hu.next⟩, hu.connected⟩
  · obtain ⟨route₀, hr₀, hq, -⟩ := hqueue n route' hr'
    rw [hq]
    exact hu.sorted n route₀ hr₀
  · obtain ⟨route₀, hr₀, hq, -⟩ := hqueue n route' hr'
    rw [hq]
    exact hu.queued n route₀ hr₀
  · obtain ⟨route₀, hr₀⟩ := hu.unowned id call hlive howner
    exact hforth _ route₀ hr₀
  · obtain ⟨route₀, hr₀, heq⟩ := hback n route' hr'
    obtain ⟨hne, hnodup, hmem⟩ := hu.staffed n route₀ hr₀
    by_cases hn : n = name
    · rw [if_pos hn] at heq
      subst heq hn
      obtain rfl := Option.some.inj (hr.symm.trans hr₀)
      refine ⟨hstaff, hnodup.filter _, fun w => ?_⟩
      simp only [Route.delist, List.mem_filter, decide_eq_true_eq, hmem w]
      constructor
      · rintro ⟨⟨rfl, -⟩ | hworker, hwx⟩
        · exact absurd rfl hwx
        · exact hworker
      · rintro ⟨worker, hw, hroute⟩
        refine ⟨Or.inr ⟨worker, hw, hroute⟩, ?_⟩
        rintro rfl
        rw [hu.gone] at hw
        cases hw
    · rw [if_neg hn] at heq
      subst heq
      refine ⟨hne, hnodup, fun w => (hmem w).trans ⟨?_, Or.inr⟩⟩
      rintro (⟨-, heq⟩ | hworker)
      · exact absurd heq hn
      · exact hworker
  · obtain ⟨route₀, hr₀⟩ := hu.routed w worker hw
    exact hforth _ route₀ hr₀
  · obtain ⟨route₀, hr₀, hq, hl⟩ := hqueue n route' hr'
    rw [hq, hl]
    exact hu.queue n route₀ hr₀

/-- The route disappears with its queue. -/
theorem Leaving.orphan {u v : State} {x : Nat} {name : String} (hu : Leaving u x name)
    {route : Route} (hr : u.routes.lookup name = some route) (hstaff : (route.delist x).workers = [])
    (hv : Settles (orphanRule name) { u with routes := u.routes.erase name } v)
    (hgone : ∀ id call, v.calls.lookup id = some call → call.owner = none → call.route ≠ name) :
    Inv v := by
  have hback : ∀ n route', (u.routes.erase name).lookup n = some route' →
      n ≠ name ∧ u.routes.lookup n = some route' := by
    intro n route' hr'
    rw [Table.lookup_erase_ite] at hr'
    split_ifs at hr' with hn
    exact ⟨hn, hr'⟩
  have hforth : ∀ n route', u.routes.lookup n = some route' → n ≠ name →
      ∃ route'', v.routes.lookup n = some route'' := by
    intro n route' hr' hn
    have hkept : (u.routes.erase name).lookup n = some route' :=
      (Table.lookup_erase_ite name n u.routes).trans ((if_neg hn).trans hr')
    obtain ⟨route'', hr'', -⟩ := hv.shrinks.route' hkept
    exact ⟨route'', hr''⟩
  -- Every worker that is left serves another route.
  have hother : ∀ w worker, u.workers.lookup w = some worker → worker.route ≠ name := by
    rintro w worker hw rfl
    have hmem := ((hu.staffed _ route hr).2.2 w).mpr (Or.inr ⟨worker, hw, rfl⟩)
    have hne : w ≠ x := by
      rintro rfl
      rw [hu.gone] at hw
      cases hw
    have hin : w ∈ (route.delist x).workers := List.mem_filter.mpr ⟨hmem, by simpa using hne⟩
    rw [hstaff] at hin
    exact List.not_mem_nil hin
  have hcounted : Counted { u with routes := u.routes.erase name } :=
    ⟨hu.retained, hu.running, fun n route' hr' => hu.sorted n route' (hback n route' hr').2,
      fun n route' hr' => hu.queued n route' (hback n route' hr').2, hu.healthy⟩
  have hbounded : Bounded { u with routes := u.routes.erase name } :=
    ⟨hu.calls, hu.bytes, fun n route' hr' => hu.queue n route' (hback n route' hr').2, hu.slots,
      hu.waiters, hu.fresh, hu.positive, hu.next⟩
  refine ⟨hv.counted hcounted, ⟨fun id call' hlive howner => ?_, fun id call' w hlive howner => ?_,
    fun n route' hr' => ?_, fun w worker' hw' => ?_⟩, hv.shrinks.bounded hbounded,
    fun w worker' hw' => ?_⟩
  · obtain ⟨call, hlive₀, hkept⟩ := hv.shrinks.calls id call' hlive
    have hn := hgone id call' hlive howner
    obtain ⟨route', hr'⟩ := hu.unowned id call hlive₀ (hkept.owner.symm.trans howner)
    exact hkept.route ▸ hforth _ route' hr' (hkept.route ▸ hn)
  · obtain ⟨call, hlive₀, hkept⟩ := hv.shrinks.calls id call' hlive
    obtain ⟨worker, hw, hroute⟩ := hu.owned id call w hlive₀ (hkept.owner.symm.trans howner)
    obtain ⟨worker', hw', hseat⟩ := hv.shrinks.worker' (s := { u with routes := _ }) hw
    exact ⟨worker', hw', (Worker.seat_route hseat).trans (hroute.trans hkept.route.symm)⟩
  · obtain ⟨route₁, hr₁, hsame⟩ := hv.shrinks.route hr'
    obtain ⟨hn, hr₀⟩ := hback n route₁ hr₁
    obtain ⟨hne, hnodup, hmem⟩ := hu.staffed n route₁ hr₀
    rw [Route.staff_workers hsame]
    refine ⟨hne, hnodup, fun w => (hmem w).trans ⟨?_, ?_⟩⟩
    · rintro (⟨-, heq⟩ | ⟨worker, hw, hroute⟩)
      · exact absurd heq hn
      · obtain ⟨worker', hw', hseat⟩ := hv.shrinks.worker' (s := { u with routes := _ }) hw
        exact ⟨worker', hw', (Worker.seat_route hseat).trans hroute⟩
    · rintro ⟨worker', hw', hroute⟩
      obtain ⟨worker, hw, hseat⟩ := hv.shrinks.worker hw'
      exact Or.inr ⟨worker, hw, (Worker.seat_route hseat).symm.trans hroute⟩
  · obtain ⟨worker, hw, hseat⟩ := hv.shrinks.worker hw'
    obtain ⟨route', hr'⟩ := hu.routed w worker hw
    rw [Worker.seat_route hseat]
    exact hforth _ route' hr' (hother w worker hw)
  · obtain ⟨worker, hw, -⟩ := hv.shrinks.worker hw'
    rw [hv.shrinks.connections]
    exact hu.connected w worker hw

theorem disconnect_inv {s : State} (hs : Inv s) (x : Nat) : Inv (s.disconnect x) := by
  have hc : Counted { s with connections := s.connections.erase x } :=
    ⟨hs.retained, hs.running, hs.sorted, hs.queued, hs.healthy⟩
  have hl : Linked { s with connections := s.connections.erase x } :=
    ⟨hs.unowned, hs.owned, hs.staffed, hs.routed⟩
  have hb : Bounded { s with connections := s.connections.erase x } :=
    ⟨hs.calls, hs.bytes, hs.queue, hs.slots, hs.waiters, hs.fresh, hs.positive, hs.next⟩
  -- After the first phase every other worker is still connected.
  have hconn : ∀ {t : State}, Settles (callerRule x)
      { s with connections := s.connections.erase x } t →
      ∀ w worker, t.workers.lookup w = some worker → w ≠ x → w ∈ t.connections := by
    intro t ht w worker' hw' hne
    obtain ⟨worker, hw, -⟩ := ht.shrinks.worker hw'
    rw [ht.shrinks.connections]
    exact Finset.mem_erase.mpr ⟨hne, hs.connected w worker hw⟩
  have hcases := disconnect_disconnected hs x
  generalize s.disconnect x = result at hcases
  cases hcases with
  | caller ht _ hw =>
      refine ⟨ht.counted hc, ht.shrinks.linked hl, ht.shrinks.bounded hb, fun w worker hw' => ?_⟩
      refine hconn ht w worker hw' ?_
      rintro rfl
      obtain ⟨worker₀, hw₀, -⟩ := ht.shrinks.worker hw'
      rw [show s.workers.lookup w = some worker₀ from hw₀] at hw
      cases hw
  | @worker t u worker route ht _ hw hu hfree hr hstaff =>
      have hleaving := leaving (ht.counted hc) (ht.shrinks.linked hl) (ht.shrinks.bounded hb)
        (hconn ht) hw hu hfree
      obtain ⟨new, heq, -⟩ := notifyRoute_eq
        { u with routes := u.routes.modify worker.route (Route.delist x) } worker.route
      rw [heq]
      exact (hleaving.delist hr hstaff).with_outbox _
  | lastWorker ht _ hw hu hfree hr hstaff hv hgone =>
      exact (leaving (ht.counted hc) (ht.shrinks.linked hl) (ht.shrinks.bounded hb) (hconn ht) hw hu
        hfree).orphan hr hstaff hv hgone

end State

end VeloBus.Rpc
