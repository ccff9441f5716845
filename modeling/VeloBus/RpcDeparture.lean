import VeloBus.RpcFate

/-! What `disconnect` leaves, one table entry at a time, as functions of the state before. The three loops
of `disconnect` end calls by a property of the call, so a call is followed through them one by one. -/

namespace VeloBus.Rpc

/-! ### Loops that end the calls with a property -/

theorem Call.takeResponse_of_false {call : Call} (h : call.response = false) : call.takeResponse = call := by
  rw [Call.takeResponse, ← h]

/-- The calls with the property are answered by `reply` and freed as `freed` says; the others stay. -/
structure Ending where
  chosen : Call → Bool
  freed : Call → Bool
  reply : Option Reply

namespace Ending

variable (e : Ending)

def rule (_ : Nat) (call : Call) (reply : Option Reply) (freed : Bool) : Prop :=
  e.chosen call = true ∧ reply = e.reply ∧ freed = e.freed call

/-- What is left of a call. -/
def left (call : Call) : Option Call :=
  if e.chosen call then (if e.freed call then none else some call.takeResponse) else some call

/-- What its caller gets. -/
def sent (call : Call) : List Reply := if e.chosen call ∧ call.response then e.reply.toList else []

variable {e}

theorem exact (hfreed : ∀ call, e.freed call.takeResponse = e.freed call) {s t : State} (h : Settles e.rule s t)
    (hdone : ∀ id call, t.calls.lookup id = some call → e.chosen call = true →
      e.freed call = false ∧ call.response = false) (id : Nat) :
    t.calls.lookup id = (s.calls.lookup id).bind e.left ∧
      replies id t.outbox = replies id s.outbox ++ ((s.calls.lookup id).map e.sent).getD [] := by
  cases hs : s.calls.lookup id with
  | none => simpa using h.evolves.absent hs
  | some call =>
      cases h.evolves.fate hs with
      | kept hcall hsent =>
          rw [hcall, hsent]
          by_cases hmem : e.chosen call = true
          · obtain ⟨hfree, hresponse⟩ := hdone id call hcall hmem
            simp [left, sent, hmem, hfree, hresponse, Call.takeResponse_of_false]
          · simp [left, sent, hmem]
      | silenced hrule hcall hsent =>
          obtain ⟨hmem, rfl, hfree⟩ := hrule
          rw [hcall, hsent]
          cases hresponse : call.response <;> simp [left, sent, hmem, ← hfree, hresponse]
      | freed hrule hkept hlast hcall hsent =>
          obtain ⟨hmem, rfl, -⟩ := hrule
          have hfree : e.freed call = true := by
            rcases hkept with rfl | rfl
            · exact hlast.2.2.symm
            · exact (hfreed call).symm.trans hlast.2.2.symm
          rw [hcall, hsent]
          cases hresponse : call.response <;> simp [left, sent, hmem, hfree, hresponse]

end Ending

namespace State

def callerEnding (x : Nat) : Ending := ⟨fun call => call.caller = x, fun call => call.owner = none, none⟩

def ownedEnding (x : Nat) : Ending :=
  ⟨fun call => call.owner = some x, fun _ => true, some (.error workerLostError)⟩

def orphanEnding (name : String) : Ending :=
  ⟨fun call => call.owner = none ∧ call.route = name, fun _ => true, some (.error lastWorkerLostError)⟩

theorem callerRule_ending {x id : Nat} {call : Call} {reply : Option Reply} {freed : Bool}
    (h : callerRule x id call reply freed) : (callerEnding x).rule id call reply freed :=
  ⟨decide_eq_true h.1, h.2.1, h.2.2⟩

theorem ownedRule_ending {x id : Nat} {call : Call} {reply : Option Reply} {freed : Bool}
    (h : ownedRule x id call reply freed) : (ownedEnding x).rule id call reply freed :=
  ⟨decide_eq_true h.1, h.2.1, h.2.2⟩

theorem orphanRule_ending {name : String} {id : Nat} {call : Call} {reply : Option Reply} {freed : Bool}
    (h : orphanRule name id call reply freed) : (orphanEnding name).rule id call reply freed :=
  ⟨decide_eq_true ⟨h.1, h.2.1⟩, h.2.2.1, h.2.2.2⟩

theorem callerEnding_exact {x : Nat} {s t : State} (h : Settles (callerRule x) s t)
    (hdone : ∀ id call, t.calls.lookup id = some call → call.caller = x →
      call.owner ≠ none ∧ call.response = false) (id : Nat) :
    t.calls.lookup id = (s.calls.lookup id).bind (callerEnding x).left ∧
      replies id t.outbox = replies id s.outbox ++ ((s.calls.lookup id).map (callerEnding x).sent).getD [] := by
  apply Ending.exact (fun _ => rfl) (h.mono fun _ _ _ _ => callerRule_ending)
  intro k call hcall hchosen
  obtain ⟨howner, hresponse⟩ := hdone k call hcall (of_decide_eq_true hchosen)
  exact ⟨decide_eq_false howner, hresponse⟩

theorem ownedEnding_exact {x : Nat} {s t : State} (h : Settles (ownedRule x) s t)
    (hdone : ∀ id call, t.calls.lookup id = some call → call.owner ≠ some x) (id : Nat) :
    t.calls.lookup id = (s.calls.lookup id).bind (ownedEnding x).left ∧
      replies id t.outbox = replies id s.outbox ++ ((s.calls.lookup id).map (ownedEnding x).sent).getD [] := by
  apply Ending.exact (fun _ => rfl) (h.mono fun _ _ _ _ => ownedRule_ending)
  intro k call hcall hchosen
  exact absurd (of_decide_eq_true hchosen) (hdone k call hcall)

theorem orphanEnding_exact {name : String} {s t : State} (h : Settles (orphanRule name) s t)
    (hdone : ∀ id call, t.calls.lookup id = some call → call.owner = none → call.route ≠ name) (id : Nat) :
    t.calls.lookup id = (s.calls.lookup id).bind (orphanEnding name).left ∧
      replies id t.outbox =
        replies id s.outbox ++ ((s.calls.lookup id).map (orphanEnding name).sent).getD [] := by
  apply Ending.exact (fun _ => rfl) (h.mono fun _ _ _ _ => orphanRule_ending)
  intro k call hcall hchosen
  obtain ⟨howner, hroute⟩ := of_decide_eq_true hchosen
  exact absurd hroute (hdone k call hcall howner)

/-! ### One call -/

/-- The only worker of a route. -/
def LastOf (s : State) (x : Nat) (name : String) : Prop := (s.routes.lookup name).map Route.workers = some [x]

instance (s : State) (x : Nat) (name : String) : Decidable (s.LastOf x name) :=
  inferInstanceAs (Decidable (_ = _))

/-- The calls that end with a connection: those it runs, and the queued ones that it made or that nobody
is left to run. -/
def Removes (s : State) (x : Nat) (call : Call) : Prop :=
  call.owner = some x ∨ call.owner = none ∧ (call.caller = x ∨ s.LastOf x call.route)

instance (s : State) (x : Nat) (call : Call) : Decidable (s.Removes x call) :=
  inferInstanceAs (Decidable (_ ∨ _))

/-- A call without the connection. -/
def survivor (s : State) (x : Nat) (call : Call) : Option Call :=
  if s.Removes x call then none else some (if call.caller = x then call.takeResponse else call)

/-- What the caller of a call is told. -/
def notice (s : State) (x : Nat) (call : Call) : List Reply :=
  if s.Removes x call ∧ call.caller ≠ x ∧ call.response then
    [.error (if call.owner = some x then workerLostError else lastWorkerLostError)]
  else []

theorem eq_singleton {workers : List Nat} {x : Nat} (hne : workers ≠ []) (hnodup : workers.Nodup) :
    workers = [x] ↔ ∀ w ∈ workers, w = x := by
  constructor
  · intro h
    simp [h]
  · intro h
    cases workers with
    | nil => exact absurd rfl hne
    | cons w rest =>
        have hw : w = x := h w List.mem_cons_self
        subst hw
        cases rest with
        | nil => rfl
        | cons w' rest =>
            rw [List.nodup_cons] at hnodup
            rw [h w' (List.mem_cons_of_mem _ List.mem_cons_self)] at hnodup
            exact absurd List.mem_cons_self hnodup.1

theorem delist_eq_nil {route : Route} {x : Nat} :
    (route.delist x).workers = [] ↔ ∀ w ∈ route.workers, w = x := by
  simp [Route.delist, List.filter_eq_nil_iff]

/-- The last worker of a route is one of the route. -/
theorem LastOf.registered {s : State} (hs : Inv s) {x : Nat} {name : String} (h : s.LastOf x name) :
    ∃ worker, s.workers.lookup x = some worker ∧ worker.route = name := by
  obtain ⟨route, hr, hworkers⟩ := Option.map_eq_some_iff.mp h
  apply ((hs.staffed name route hr).2.2 x).mp
  simp [hworkers]

theorem lastOf_iff {s : State} (hs : Inv s) {x : Nat} {name : String} {route : Route}
    (hr : s.routes.lookup name = some route) : s.LastOf x name ↔ (route.delist x).workers = [] := by
  obtain ⟨hne, hnodup, -⟩ := hs.staffed name route hr
  rw [LastOf, hr, Option.map_some, Option.some_inj, delist_eq_nil]
  exact eq_singleton hne hnodup

/-- Once the calls are ended, the route of the worker tells whether the worker was the last of a route. -/
theorem lastOf_departing {s t u : State} {x : Nat} {worker : Worker} {route : Route} (hs : Inv s)
    (ht : Shrinks { s with connections := s.connections.erase x } t) (hw : t.workers.lookup x = some worker)
    (hu : Shrinks (notify { t with workers := t.workers.erase x } x) u)
    (hr : u.routes.lookup worker.route = some route) (name : String) :
    s.LastOf x name ↔ name = worker.route ∧ (route.delist x).workers = [] := by
  obtain ⟨worker₀, hw₀, hseat⟩ := ht.worker hw
  have hname : worker.route = worker₀.route := Worker.seat_route hseat
  obtain ⟨route₁, hr₁, hsame₁⟩ := hu.route hr
  have hr₁' : t.routes.lookup worker.route = some route₁ := hr₁
  obtain ⟨route₀, hr₀, hsame₀⟩ := ht.route hr₁'
  have hlast : s.LastOf x worker.route ↔ (route.delist x).workers = [] := by
    rw [lastOf_iff hs hr₀, delist_eq_nil, delist_eq_nil, Route.staff_workers hsame₁, Route.staff_workers hsame₀]
  constructor
  · intro h
    obtain ⟨worker', hw', hroute⟩ := h.registered hs
    obtain rfl := Option.some.inj (hw₀.symm.trans hw')
    obtain rfl : name = worker.route := hroute.symm.trans hname.symm
    exact ⟨rfl, hlast.mp h⟩
  · rintro ⟨rfl, hnil⟩
    exact hlast.mpr hnil

/-- The first loop alone, when the connection runs nothing. -/
theorem callerEnding_whole {s : State} {x : Nat} {call : Call}
    (h : s.Removes x call ↔ call.owner = none ∧ call.caller = x) :
    (callerEnding x).left call = s.survivor x call ∧ (callerEnding x).sent call = s.notice x call := by
  by_cases hcaller : call.caller = x <;> by_cases howner : call.owner = none <;>
    simp [survivor, notice, h, Ending.left, Ending.sent, callerEnding, hcaller, howner]

/-- The first two loops, when other workers serve the route. -/
theorem ownedEnding_whole {s : State} {x : Nat} {call : Call}
    (h : s.Removes x call ↔ call.owner = some x ∨ call.owner = none ∧ call.caller = x) :
    ((callerEnding x).left call).bind (ownedEnding x).left = s.survivor x call ∧
      (callerEnding x).sent call ++ (((callerEnding x).left call).map (ownedEnding x).sent).getD [] =
        s.notice x call := by
  by_cases hcaller : call.caller = x <;> by_cases howner : call.owner = none <;>
    by_cases howned : call.owner = some x <;>
    simp [survivor, notice, h, Ending.left, Ending.sent, callerEnding, ownedEnding, Call.takeResponse, hcaller,
      howner, howned]

/-- All three loops, when the route `name` loses its last worker. -/
theorem orphanEnding_whole {s : State} {x : Nat} {name : String} {call : Call}
    (h : s.Removes x call ↔
      call.owner = some x ∨ call.owner = none ∧ (call.caller = x ∨ call.route = name)) :
    (((callerEnding x).left call).bind (ownedEnding x).left).bind (orphanEnding name).left = s.survivor x call ∧
      (callerEnding x).sent call ++ ((((callerEnding x).left call).map (ownedEnding x).sent).getD [] ++
        ((((callerEnding x).left call).bind (ownedEnding x).left).map (orphanEnding name).sent).getD []) =
        s.notice x call := by
  by_cases hcaller : call.caller = x <;> by_cases howner : call.owner = none <;>
    by_cases howned : call.owner = some x <;> by_cases hroute : call.route = name <;>
    simp [survivor, notice, h, Ending.left, Ending.sent, callerEnding, ownedEnding, orphanEnding,
      Call.takeResponse, hcaller, howner, howned, hroute]

/-- What `disconnect` does to one call and to its caller. -/
theorem disconnect_call {s : State} (hs : Inv s) (x id : Nat) :
    (s.disconnect x).calls.lookup id = (s.calls.lookup id).bind (s.survivor x) ∧
      replies id (s.disconnect x).outbox =
        replies id s.outbox ++ ((s.calls.lookup id).map (s.notice x)).getD [] := by
  have hcases := disconnect_disconnected hs x
  generalize s.disconnect x = result at hcases
  cases hcases with
  | caller ht hdone hw =>
      obtain ⟨hcalls, hsent⟩ := callerEnding_exact ht hdone id
      rw [hcalls, hsent]
      cases hcall : s.calls.lookup id with
      | none => simp
      | some call =>
          -- Nobody is registered under `x`, so it runs no call and no route depends on it.
          have hidle : call.owner ≠ some x := by
            intro howner
            obtain ⟨worker, hworker, -⟩ := hs.owned id call x hcall howner
            rw [hw] at hworker
            cases hworker
          have hlast : ¬s.LastOf x call.route := by
            intro hlast
            obtain ⟨worker, hworker, -⟩ := hlast.registered hs
            rw [hw] at hworker
            cases hworker
          have hremoves : s.Removes x call ↔ call.owner = none ∧ call.caller = x := by
            simp [Removes, hidle, hlast]
          obtain ⟨hleft, hnotice⟩ := callerEnding_whole hremoves
          rw [Option.bind_some, Option.bind_some, Option.map_some, Option.map_some, hleft, hnotice]
          exact ⟨rfl, rfl⟩
  | @worker t u worker route ht hdone hw hu hfree hr hstaff =>
      obtain ⟨new, heq, hnew, -⟩ := notifyRoute_eq
        { u with routes := u.routes.modify worker.route (Route.delist x) } worker.route
      obtain ⟨hcalls, hsent⟩ := callerEnding_exact ht hdone id
      obtain ⟨hcalls', hsent'⟩ := ownedEnding_exact hu hfree id
      rw [heq, replies_append, hnew, List.append_nil, hcalls', hsent']
      simp only [notify, replies_append, replies_notify, List.append_nil]
      rw [hcalls, hsent]
      cases hcall : s.calls.lookup id with
      | none => simp
      | some call =>
          have hlast : ¬s.LastOf x call.route := fun hlast =>
            hstaff ((lastOf_departing hs ht.shrinks hw hu.shrinks hr _).mp hlast).2
          have hremoves : s.Removes x call ↔ call.owner = some x ∨ call.owner = none ∧ call.caller = x := by
            simp [Removes, hlast]
          obtain ⟨hleft, hnotice⟩ := ownedEnding_whole hremoves
          rw [List.append_assoc]
          exact ⟨hleft, congrArg _ hnotice⟩
  | @lastWorker t u v worker route ht hdone hw hu hfree hr hstaff hv hgone =>
      obtain ⟨hcalls, hsent⟩ := callerEnding_exact ht hdone id
      obtain ⟨hcalls', hsent'⟩ := ownedEnding_exact hu hfree id
      obtain ⟨hcalls'', hsent''⟩ := orphanEnding_exact hv hgone id
      rw [hcalls'', hsent'']
      simp only
      rw [hcalls', hsent']
      simp only [notify, replies_append, replies_notify, List.append_nil]
      rw [hcalls, hsent]
      cases hcall : s.calls.lookup id with
      | none => simp
      | some call =>
          have hlast : s.LastOf x call.route ↔ call.route = worker.route := by
            rw [lastOf_departing hs ht.shrinks hw hu.shrinks hr]
            exact and_iff_left hstaff
          have hremoves : s.Removes x call ↔
              call.owner = some x ∨ call.owner = none ∧ (call.caller = x ∨ call.route = worker.route) := by
            simp [Removes, hlast]
          obtain ⟨hleft, hnotice⟩ := orphanEnding_whole hremoves
          rw [List.append_assoc, List.append_assoc]
          exact ⟨hleft, congrArg _ hnotice⟩

/-! ### Workers, bytes and queues -/

theorem survivor_eq_none {s : State} {x : Nat} {call : Call} : s.survivor x call = none ↔ s.Removes x call := by
  unfold survivor
  split_ifs with h <;> simp [h]

theorem survivor_kept {s : State} {x : Nat} {call call' : Call} (h : s.survivor x call = some call') :
    ¬s.Removes x call ∧ call.Kept call' := by
  unfold survivor at h
  split_ifs at h with hremoves hcaller
  · exact ⟨hremoves, Or.inr (Option.some.inj h).symm⟩
  · exact ⟨hremoves, Or.inl (Option.some.inj h).symm⟩

/-- A total over the calls that are left. -/
theorem disconnect_total {s : State} (hs : Inv s) (x : Nat) (f : Call → Nat)
    (hf : ∀ call, f call.takeResponse = f call) :
    Table.total (fun _ call => f call) (s.disconnect x).calls =
      Table.total (fun _ call => if s.Removes x call then 0 else f call) s.calls := by
  have hcalls : ∀ id, (s.disconnect x).calls.lookup id = (s.calls.lookup id).bind (s.survivor x) :=
    fun id => (disconnect_call hs x id).1
  rw [Table.total_bind (g := fun _ => s.survivor x) hcalls]
  apply Table.total_congr
  intro e _
  by_cases hremoves : s.Removes x e.2
  · simp [survivor, hremoves]
  · by_cases hcaller : e.2.caller = x <;> simp [survivor, hremoves, hcaller, hf]

theorem disconnect_retained {s : State} (hs : Inv s) (x : Nat) :
    (s.disconnect x).retainedBytes +
      Table.total (fun _ call => if s.Removes x call then call.retainedBytes else 0) s.calls =
      s.retainedBytes := by
  rw [(disconnect_inv hs x).retained, disconnect_total hs x Call.retainedBytes fun _ => rfl, hs.retained,
    ← Table.total_add]
  apply Table.total_congr
  intro e _
  split_ifs <;> omega

theorem disconnect_worker {s : State} (hs : Inv s) (x w : Nat) :
    (s.disconnect x).workers.lookup w = if w = x then none else s.workers.lookup w := by
  have hseat := (disconnect_seats hs x).2.1 w
  by_cases hwx : w = x
  · rw [if_pos hwx] at hseat ⊢
    exact Option.map_eq_none_iff.mp hseat
  · rw [if_neg hwx] at hseat ⊢
    cases hw : s.workers.lookup w with
    | none =>
        rw [hw] at hseat
        exact Option.map_eq_none_iff.mp hseat
    | some worker =>
        rw [hw, Option.map_some] at hseat
        obtain ⟨worker', hw', hsame⟩ := Option.map_eq_some_iff.mp hseat
        -- No removed call was run by another worker.
        have hrunning : worker'.running = worker.running := by
          rw [(disconnect_inv hs x).running w worker' hw', hs.running w worker hw, Table.count,
            disconnect_total hs x (fun call => if call.owner = some w then 1 else 0) fun _ => rfl]
          apply Table.total_congr
          intro e _
          by_cases howner : e.2.owner = some w
          · have hremoves : ¬s.Removes x e.2 := by
              simp [Removes, howner, hwx]
            rw [if_neg hremoves]
          · simp [howner]
        have heq : worker' = worker := by
          cases worker'
          cases worker
          simp_all [Worker.seat]
        rw [hw', heq]

theorem eq_of_increasing {l l' : List Nat} (hl : l.Pairwise (· < ·)) (hl' : l'.Pairwise (· < ·))
    (h : ∀ id, id ∈ l ↔ id ∈ l') : l = l' := by
  have hperm : l.Perm l' := by
    rw [List.perm_ext_iff_of_nodup (hl.imp Nat.ne_of_lt) (hl'.imp Nat.ne_of_lt)]
    exact h
  exact hperm.eq_of_pairwise (fun a b _ _ hab hba => absurd hba (Nat.lt_asymm hab)) hl hl'

/-- Whether a call under this identifier is left. -/
def stays (s : State) (x id : Nat) : Bool := (s.calls.lookup id).any fun call => ¬s.Removes x call

theorem delist_of_notMem {route : Route} {x : Nat} (h : x ∉ route.workers) : route.delist x = route := by
  have hworkers : route.workers.filter (· ≠ x) = route.workers := by
    apply List.filter_eq_self.mpr
    intro w hw
    apply decide_eq_true
    rintro rfl
    exact h hw
  rw [Route.delist, hworkers]

/-- Only the route of its worker lists the connection. -/
theorem notMem_of_lookup {s : State} (hs : Inv s) {x : Nat} {name : String} {route : Route}
    (hr : s.routes.lookup name = some route) (h : ∀ worker, s.workers.lookup x = some worker → worker.route ≠ name) :
    x ∉ route.workers := by
  intro hmem
  obtain ⟨worker, hw, hroute⟩ := ((hs.staffed name route hr).2.2 x).mp hmem
  exact h worker hw hroute

/-- The routes that are left and who serves them. -/
theorem disconnect_staff {s : State} (hs : Inv s) (x : Nat) (name : String) :
    ((s.disconnect x).routes.lookup name).map Route.staff =
      if s.LastOf x name then none else (s.routes.lookup name).map fun route => (route.delist x).staff := by
  -- A route without the connection keeps its workers.
  have hother : (∀ worker, s.workers.lookup x = some worker → worker.route ≠ name) →
      ¬s.LastOf x name ∧ (s.routes.lookup name).map (fun route => (route.delist x).staff) =
        (s.routes.lookup name).map Route.staff := by
    intro h
    constructor
    · intro hlast
      obtain ⟨worker, hw, hroute⟩ := hlast.registered hs
      exact h worker hw hroute
    · cases hr : s.routes.lookup name with
      | none => rfl
      | some route => rw [Option.map_some, Option.map_some, delist_of_notMem (notMem_of_lookup hs hr h)]
  have hcases := disconnect_disconnected hs x
  generalize s.disconnect x = result at hcases
  cases hcases with
  | caller ht _ hw =>
      obtain ⟨hlast, hsame⟩ := hother fun worker hworker => by
        rw [hw] at hworker
        cases hworker
      rw [if_neg hlast, hsame]
      exact ht.shrinks.staff name
  | @worker t u worker route ht _ hw hu _ hr hstaff =>
      obtain ⟨new, heq, -⟩ := notifyRoute_eq
        { u with routes := u.routes.modify worker.route (Route.delist x) } worker.route
      have hlast : ¬s.LastOf x name := fun hlast =>
        hstaff ((lastOf_departing hs ht.shrinks hw hu.shrinks hr _).mp hlast).2
      have hstaffed : (u.routes.lookup name).map Route.staff = (s.routes.lookup name).map Route.staff :=
        (hu.shrinks.staff name).trans (ht.shrinks.staff name)
      rw [heq, if_neg hlast, Table.lookup_modify]
      by_cases hname : name = worker.route
      · have hdelisted := congrArg (Option.map (Route.delist x)) hstaffed
        rw [Option.map_map, Option.map_map] at hdelisted
        rw [if_pos hname, Option.map_map]
        exact hdelisted
      · obtain ⟨worker₀, hw₀, hseat⟩ := ht.shrinks.worker hw
        obtain ⟨-, hsame⟩ := hother fun worker' hw' => by
          obtain rfl := Option.some.inj (hw₀.symm.trans hw')
          exact fun hroute => hname (hroute.symm.trans (Worker.seat_route hseat).symm)
        rw [if_neg hname, hstaffed, hsame]
  | @lastWorker t u v worker route ht _ hw hu _ hr hstaff hv _ =>
      have hstaffed : (u.routes.lookup name).map Route.staff = (s.routes.lookup name).map Route.staff :=
        (hu.shrinks.staff name).trans (ht.shrinks.staff name)
      have hlast : s.LastOf x name ↔ name = worker.route := by
        rw [lastOf_departing hs ht.shrinks hw hu.shrinks hr]
        exact and_iff_left hstaff
      rw [hv.shrinks.staff name, Table.lookup_erase_ite]
      by_cases hname : name = worker.route
      · rw [if_pos hname, if_pos (hlast.mpr hname), Option.map_none]
      · obtain ⟨worker₀, hw₀, hseat⟩ := ht.shrinks.worker hw
        obtain ⟨-, hsame⟩ := hother fun worker' hw' => by
          obtain rfl := Option.some.inj (hw₀.symm.trans hw')
          exact fun hroute => hname (hroute.symm.trans (Worker.seat_route hseat).symm)
        rw [if_neg hname, if_neg fun h => hname (hlast.mp h), hstaffed, hsame]

/-- A surviving queue loses the removed calls. -/
theorem disconnect_queue {s : State} (hs : Inv s) {x : Nat} {name : String} {route route' : Route}
    (hr : s.routes.lookup name = some route) (hr' : (s.disconnect x).routes.lookup name = some route') :
    route'.queue = route.queue.filter (s.stays x) := by
  have ht := disconnect_inv hs x
  apply eq_of_increasing (ht.sorted name route' hr') ((hs.sorted name route hr).filter _)
  intro id
  rw [ht.queued name route' hr', List.mem_filter, hs.queued name route hr, (disconnect_call hs x id).1]
  constructor
  · rintro ⟨call', hlive, howner, hroute⟩
    obtain ⟨call, hcall, hleft⟩ := Option.bind_eq_some_iff.mp hlive
    obtain ⟨hstays, hkept⟩ := survivor_kept hleft
    refine ⟨⟨call, hcall, hkept.owner.symm.trans howner, hkept.route.symm.trans hroute⟩, ?_⟩
    simp [stays, hcall, hstays]
  · rintro ⟨⟨call, hcall, howner, hroute⟩, hstays⟩
    have hremoves : ¬s.Removes x call := by
      simpa [stays, hcall] using hstays
    cases hleft : s.survivor x call with
    | none => exact absurd (survivor_eq_none.mp hleft) hremoves
    | some call' =>
        obtain ⟨-, hkept⟩ := survivor_kept hleft
        exact ⟨call', by rw [hcall, Option.bind_some, hleft], hkept.owner.trans howner, hkept.route.trans hroute⟩

/-! ### The rest of the state -/

/-- Without an answer that reports a deadline the counter of such answers stays. -/
theorem settles_timedOut {rule : Nat → Call → Option Reply → Bool → Prop} {s t : State} (h : Settles rule s t)
    (hrule : ∀ id call freed, ¬rule id call (some (.error deadlineError)) freed) : t.timedOut = s.timedOut := by
  induction h with
  | refl => rfl
  | tail _ hone hallowed ih =>
      rw [hone.timedOut, if_neg, ih]
      rintro ⟨-, hreply⟩
      rw [hreply] at hallowed
      exact hrule _ _ _ hallowed

theorem disconnect_counters {s : State} (hs : Inv s) (x : Nat) :
    (s.disconnect x).accepted = s.accepted ∧ (s.disconnect x).completed = s.completed ∧
      (s.disconnect x).rejected = s.rejected ∧ (s.disconnect x).timedOut = s.timedOut := by
  have hcaller : ∀ id call freed, ¬callerRule x id call (some (.error deadlineError)) freed := by
    rintro id call freed ⟨-, hreply, -⟩
    cases hreply
  have howned : ∀ id call freed, ¬ownedRule x id call (some (.error deadlineError)) freed := by
    rintro id call freed ⟨-, hreply, -⟩
    cases hreply
  have horphan : ∀ name id call freed, ¬orphanRule name id call (some (.error deadlineError)) freed := by
    rintro name id call freed ⟨-, -, hreply, -⟩
    cases hreply
  have hcases := disconnect_disconnected hs x
  generalize s.disconnect x = result at hcases
  cases hcases with
  | caller ht _ _ =>
      have hf := ht.shrinks
      have htimed := settles_timedOut ht hcaller
      exact ⟨hf.accepted, hf.completed, hf.rejected, htimed⟩
  | @worker t u worker route ht _ _ hu _ _ _ =>
      have hf := ht.shrinks
      have hg := hu.shrinks
      have htimed := settles_timedOut ht hcaller
      have htimed' := settles_timedOut hu howned
      obtain ⟨new, heq, -⟩ := notifyRoute_eq
        { u with routes := u.routes.modify worker.route (Route.delist x) } worker.route
      rw [heq]
      exact ⟨hg.accepted.trans hf.accepted, hg.completed.trans hf.completed, hg.rejected.trans hf.rejected,
        htimed'.trans htimed⟩
  | lastWorker ht _ _ hu _ _ _ hv _ =>
      have hf := ht.shrinks
      have hg := hu.shrinks
      have hk := hv.shrinks
      have htimed := settles_timedOut ht hcaller
      have htimed' := settles_timedOut hu howned
      have htimed'' := settles_timedOut hv (horphan _)
      exact ⟨hk.accepted.trans (hg.accepted.trans hf.accepted), hk.completed.trans (hg.completed.trans hf.completed),
        hk.rejected.trans (hg.rejected.trans hf.rejected),
        htimed''.trans (htimed'.trans htimed)⟩

/-- The calls that a lost caller leaves behind are running and have no sender. -/
theorem disconnect_silenced {s : State} (hs : Inv s) {x id : Nat} {call : Call}
    (h : (s.disconnect x).calls.lookup id = some call) (hcaller : call.caller = x) :
    call.owner ≠ none ∧ call.response = false := by
  rw [(disconnect_call hs x id).1] at h
  obtain ⟨call₀, -, hleft⟩ := Option.bind_eq_some_iff.mp h
  obtain ⟨hstays, hkept⟩ := survivor_kept hleft
  have hcaller₀ : call₀.caller = x := hkept.caller.symm.trans hcaller
  rw [survivor, if_neg hstays, if_pos hcaller₀, Option.some_inj] at hleft
  constructor
  · intro howner
    exact hstays (Or.inr ⟨hkept.owner.symm.trans howner, Or.inl hcaller₀⟩)
  · rw [← hleft]
    rfl

/-- A connection of which nothing is left. -/
theorem disconnect_of_absent {s : State} {x : Nat} (hconn : x ∉ s.connections) (hw : s.workers.lookup x = none)
    (hcalls : ∀ id call, s.calls.lookup id = some call → call.caller = x →
      call.owner ≠ none ∧ call.response = false) : s.disconnect x = s := by
  have hdrop : ∀ id ∈ Table.select (fun _ call => call.caller = x) s.calls, s.dropCaller id = s := by
    intro id hid
    obtain ⟨call, hcall, hcaller⟩ := Table.mem_select.mp hid
    obtain ⟨howner, hresponse⟩ := hcalls id call hcall (of_decide_eq_true hcaller)
    rw [dropCaller, hcall]
    simp only [cancel, hcall]
    rw [if_neg howner, takeResponse_of_false hcall hresponse]
  have hfold : ∀ ids : List Nat, (∀ id ∈ ids, s.dropCaller id = s) → ids.foldl dropCaller s = s := by
    intro ids h
    induction ids with
    | nil => rfl
    | cons id ids ih =>
        rw [List.foldl_cons, h id List.mem_cons_self]
        exact ih fun k hk => h k (List.mem_cons_of_mem _ hk)
  have hsame : { s with connections := s.connections.erase x } = s := by
    rw [Finset.erase_eq_of_notMem hconn]
  rw [disconnect, hsame, dropCallerCalls, hfold _ hdrop, hw]

/-! ### The whole state -/

/-- The state after a connection is gone, compared with the state before. -/
structure Departed (s : State) (x : Nat) (t : State) : Prop where
  forgotten : x ∉ t.connections ∧ t.workers.lookup x = none ∧
    ∀ name route, t.routes.lookup name = some route → x ∉ route.workers
  idle : ∀ id call, t.calls.lookup id = some call → call.owner ≠ some x
  unqueued : ∀ name route, t.routes.lookup name = some route → ∀ id ∈ route.queue,
    ∃ call, t.calls.lookup id = some call ∧ call.caller ≠ x
  connections : t.connections = s.connections.erase x
  removed : ∀ id call, s.calls.lookup id = some call → (t.calls.lookup id = none ↔ s.Removes x call)
  kept : ∀ id call, s.calls.lookup id = some call → ¬s.Removes x call →
    t.calls.lookup id = some (if call.caller = x then call.takeResponse else call)
  absent : ∀ id, s.calls.lookup id = none → t.calls.lookup id = none
  told : ∀ id call, s.calls.lookup id = some call → ∃ error, error.code = Code.serviceUnavailable ∧
    replies id t.outbox = replies id s.outbox ++
      if s.Removes x call ∧ call.caller ≠ x ∧ call.response = true then [.error error] else []
  silent : ∀ id, s.calls.lookup id = none → replies id t.outbox = replies id s.outbox
  workers : ∀ w, w ≠ x → t.workers.lookup w = s.workers.lookup w
  routes : ∀ name, t.routes.lookup name = none ↔ s.routes.lookup name = none ∨ s.LastOf x name
  queues : ∀ name route route', s.routes.lookup name = some route → t.routes.lookup name = some route' →
    route'.queue = route.queue.filter (s.stays x) ∧ route'.workers = route.workers.filter (· ≠ x) ∧
      route'.queueLimit = route.queueLimit
  retained : t.retainedBytes +
    Table.total (fun _ call => if s.Removes x call then call.retainedBytes else 0) s.calls = s.retainedBytes
  counters : t.nextId = s.nextId ∧ t.maxCalls = s.maxCalls ∧ t.maxBytes = s.maxBytes ∧ t.accepted = s.accepted ∧
    t.completed = s.completed ∧ t.rejected = s.rejected ∧ t.timedOut = s.timedOut ∧ t.poisoned = s.poisoned
  again : t.disconnect x = t

theorem disconnect_departed {s : State} (hs : Inv s) (x : Nat) : s.Departed x (s.disconnect x) := by
  have ht := disconnect_inv hs x
  obtain ⟨hconn, -, hmaxCalls, hmaxBytes⟩ := disconnect_seats hs x
  obtain ⟨haccepted, hcompleted, hrejected, htimed⟩ := disconnect_counters hs x
  have hgone : (s.disconnect x).workers.lookup x = none := by
    rw [disconnect_worker hs, if_pos rfl]
  have hnot : x ∉ (s.disconnect x).connections := by
    rw [hconn]
    exact Finset.notMem_erase x _
  have hsurvivor : ∀ {id call}, s.calls.lookup id = some call →
      (s.disconnect x).calls.lookup id = s.survivor x call := by
    intro id call hcall
    rw [(disconnect_call hs x id).1, hcall, Option.bind_some]
  have hstaff : ∀ {name route route'}, s.routes.lookup name = some route →
      (s.disconnect x).routes.lookup name = some route' → route'.staff = (route.delist x).staff := by
    intro name route route' hr hr'
    have h := disconnect_staff hs x name
    rw [hr, hr', Option.map_some, Option.map_some] at h
    split_ifs at h
    exact Option.some.inj h
  constructor
  case forgotten =>
    refine ⟨hnot, hgone, fun name route hr => notMem_of_lookup ht hr fun worker hworker => ?_⟩
    rw [hgone] at hworker
    cases hworker
  case idle =>
    intro id call hcall howner
    obtain ⟨worker, hworker, -⟩ := ht.owned id call x hcall howner
    rw [hgone] at hworker
    cases hworker
  case unqueued =>
    intro name route hr id hid
    obtain ⟨call, hcall, howner, -⟩ := (ht.queued name route hr id).mp hid
    exact ⟨call, hcall, fun hcaller => (disconnect_silenced hs hcall hcaller).1 howner⟩
  case connections => exact hconn
  case removed =>
    intro id call hcall
    rw [hsurvivor hcall]
    exact survivor_eq_none
  case kept =>
    intro id call hcall hstays
    rw [hsurvivor hcall, survivor, if_neg hstays]
  case absent =>
    intro id hcall
    rw [(disconnect_call hs x id).1, hcall, Option.bind_none]
  case told =>
    intro id call hcall
    refine ⟨if call.owner = some x then workerLostError else lastWorkerLostError, by split_ifs <;> rfl, ?_⟩
    rw [(disconnect_call hs x id).2, hcall, Option.map_some]
    rfl
  case silent =>
    intro id hcall
    rw [(disconnect_call hs x id).2, hcall, Option.map_none]
    exact List.append_nil _
  case workers =>
    intro w hw
    rw [disconnect_worker hs, if_neg hw]
  case routes =>
    intro name
    rw [← Option.map_eq_none_iff (f := Route.staff), disconnect_staff hs]
    split_ifs with hlast <;> simp [hlast]
  case queues =>
    intro name route route' hr hr'
    exact ⟨disconnect_queue hs hr hr', Route.staff_workers (hstaff hr hr'), Route.staff_queueLimit (b := route.delist x) (hstaff hr hr')⟩
  case retained => exact disconnect_retained hs x
  case counters =>
    exact ⟨disconnect_nextId hs x, hmaxCalls, hmaxBytes, haccepted, hcompleted, hrejected, htimed,
      ht.healthy.trans hs.healthy.symm⟩
  case again => exact disconnect_of_absent hnot hgone fun id call hcall hcaller => disconnect_silenced hs hcall hcaller

end State

namespace Sys

/-- **A disconnect removes everything of a connection and nothing else.** The calls that go are those it
runs, its queued ones and, if it was the last worker of its route, the queue of the route; each caller but
itself that still waits for one of them gets exactly one reply. Doing it again changes nothing. -/
theorem departed {maxCalls maxBytes : Nat} {s : Sys} (h : (anyClock maxCalls maxBytes).Reachable s) (x : Nat) :
    s.rpc.Departed x (s.rpc.disconnect x) := State.disconnect_departed (sound h).inv x

theorem departed_served : served.rpc.Departed 1 (served.rpc.disconnect 1) :=
  departed (anyClock_of_steady served_reachable) 1

end Sys

end VeloBus.Rpc
