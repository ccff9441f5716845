import VeloBus.RpcRepresentation

/-! No lost wake-up. A step that gives a worker something to take, or removes it, notifies the worker;
so a `take` that waits and was not notified waits for a worker with nothing to take. -/

namespace VeloBus.Rpc

namespace State

/-- The calls that wait on a route. -/
def queueOf (s : State) (name : String) : List Nat :=
  match s.routes.lookup name with
  | some route => route.queue
  | none => []

/-- The worker is registered, and either its slots are taken or its queue is empty. -/
def Starved (s : State) (w : Nat) : Prop :=
  ∃ worker, s.workers.lookup w = some worker ∧
    (worker.concurrency ≤ worker.running ∨ s.queueOf worker.route = [])

end State

/-- The worker has no slot and no queue that it did not have before. -/
def Quiet (s t : State) (w : Nat) : Prop :=
  ∀ worker, s.workers.lookup w = some worker → ∃ worker', t.workers.lookup w = some worker' ∧
    worker'.route = worker.route ∧ worker'.concurrency = worker.concurrency ∧
    worker.running ≤ worker'.running ∧ (s.queueOf worker.route = [] → t.queueOf worker.route = [])

/-- Every worker that is not quiet is notified. -/
def Heard (s t : State) : Prop :=
  ∃ new, t.outbox = s.outbox ++ new ∧ ∀ w, Effect.notify w ∉ new → Quiet s t w

theorem Quiet.trans {s t u : State} {w : Nat} (hst : Quiet s t w) (htu : Quiet t u w) : Quiet s u w := by
  intro worker hw
  obtain ⟨worker', hw', hroute, hconcurrency, hrunning, hqueue⟩ := hst worker hw
  obtain ⟨worker'', hw'', hroute', hconcurrency', hrunning', hqueue'⟩ := htu worker' hw'
  rw [hroute] at hroute' hqueue'
  exact ⟨worker'', hw'', hroute', hconcurrency'.trans hconcurrency, hrunning.trans hrunning',
    fun h => hqueue' (hqueue h)⟩

theorem Quiet.starved {s t : State} {w : Nat} (h : Quiet s t w) (hs : s.Starved w) : t.Starved w := by
  obtain ⟨worker, hw, hidle⟩ := hs
  obtain ⟨worker', hw', hroute, hconcurrency, hrunning, hqueue⟩ := h worker hw
  refine ⟨worker', hw', ?_⟩
  rw [hroute, hconcurrency]
  exact hidle.imp (fun hfull => hfull.trans hrunning) hqueue

/-- Workers and queues are as before. -/
theorem Quiet.of_same {s t : State} {w : Nat} (hworkers : t.workers.lookup w = s.workers.lookup w)
    (hqueue : ∀ name, s.queueOf name = [] → t.queueOf name = []) : Quiet s t w :=
  fun worker hw => ⟨worker, hworkers.trans hw, rfl, rfl, le_rfl, hqueue _⟩

theorem Heard.refl (s : State) : Heard s s :=
  ⟨[], (List.append_nil _).symm, fun _ _ => .of_same rfl fun _ h => h⟩

theorem Heard.trans {s t u : State} (hst : Heard s t) (htu : Heard t u) : Heard s u := by
  obtain ⟨new, hout, hquiet⟩ := hst
  obtain ⟨new', hout', hquiet'⟩ := htu
  refine ⟨new ++ new', by rw [hout', hout, List.append_assoc], fun w hw => ?_⟩
  rw [List.mem_append, not_or] at hw
  exact (hquiet w hw.1).trans (hquiet' w hw.2)

theorem Heard.length_le {s t : State} (h : Heard s t) : s.outbox.length ≤ t.outbox.length := by
  obtain ⟨new, hout, -⟩ := h
  rw [hout, List.length_append]
  exact Nat.le_add_right _ _

theorem Heard.of_quiet {s t : State} (hout : t.outbox = s.outbox) (hquiet : ∀ w, Quiet s t w) : Heard s t :=
  ⟨[], by rw [hout, List.append_nil], fun w _ => hquiet w⟩

theorem Heard.foldl {f : State → Nat → State} (h : ∀ s id, Heard s (f s id)) (ids : List Nat) (s : State) :
    Heard s (ids.foldl f s) := by
  induction ids generalizing s with
  | nil => exact .refl s
  | cons id ids ih => exact (h s id).trans (ih (f s id))

namespace State

/-- Counters, calls and effects that are not seen by a waiting `take`. -/
theorem heard_of_same {s t : State} {new : List Effect} (hout : t.outbox = s.outbox ++ new)
    (hworkers : t.workers = s.workers) (hroutes : t.routes = s.routes) : Heard s t := by
  refine ⟨new, hout, fun w _ => .of_same (by rw [hworkers]) fun name h => ?_⟩
  rwa [queueOf, hroutes]

theorem send_heard (s : State) (id : Nat) (reply : Reply) : Heard s (s.send id reply) :=
  heard_of_same rfl rfl rfl

theorem takeResponse_heard (s : State) (id : Nat) : Heard s (s.takeResponse id) :=
  heard_of_same (List.append_nil _).symm rfl rfl

/-- Routes whose queues only lose calls. -/
theorem queueOf_modify {s : State} {name : String} {g : Route → Route}
    (hg : ∀ route : Route, route.queue = [] → (g route).queue = []) (other : String)
    (h : s.queueOf other = []) : queueOf { s with routes := s.routes.modify name g } other = [] := by
  rw [queueOf, Table.lookup_modify]
  rw [queueOf] at h
  split_ifs with hname
  · subst hname
    cases hroute : s.routes.lookup other with
    | none => rfl
    | some route =>
        rw [hroute] at h
        exact hg route h
  · exact h

theorem shortened_heard (s : State) (name : String) {g : Route → Route}
    (hg : ∀ route : Route, route.queue = [] → (g route).queue = []) :
    Heard s { s with routes := s.routes.modify name g } :=
  .of_quiet rfl fun _ => .of_same rfl fun other => queueOf_modify hg other

theorem remove_heard (s : State) (id : Nat) : Heard s (s.remove id).1 := by
  unfold remove
  cases hcall : s.calls.lookup id with
  | none => exact .refl s
  | some call =>
      dsimp only
      cases howner : call.owner with
      | none =>
          dsimp only
          refine Heard.trans (t := { s with routes := s.routes.modify call.route (Route.dequeue id) }) ?_
            (heard_of_same (List.append_nil _).symm rfl rfl)
          apply shortened_heard
          intro route hempty
          rw [Route.dequeue, hempty]
          rfl
      | some owner =>
          dsimp only
          cases hworker : s.workers.lookup owner with
          | none => exact heard_of_same (List.append_nil _).symm rfl rfl
          | some worker =>
              -- The slot is free before its worker is notified, in one critical section.
              refine ⟨[.notify owner], rfl, fun w hw => ?_⟩
              have hne : w ≠ owner := by
                rintro rfl
                exact hw (List.mem_singleton.mpr rfl)
              refine .of_same ?_ fun name h => h
              change (s.workers.modify owner Worker.freeSlot).lookup w = _
              rw [Table.lookup_modify, if_neg hne]

theorem expire_heard (s : State) (id : Nat) : Heard s (s.expire id) := by
  unfold expire
  cases hcall : s.calls.lookup id with
  | none => exact .refl s
  | some call =>
      have hanswered : Heard s (send { s.takeResponse id with timedOut := saturatingSucc s.timedOut } id
          (.error deadlineError)) := heard_of_same rfl rfl rfl
      dsimp only
      split_ifs
      · exact hanswered.trans (remove_heard _ _)
      · exact remove_heard _ _
      · exact hanswered
      · exact .refl s

theorem cancel_heard (s : State) (id : Nat) : Heard s (s.cancel id) := by
  unfold cancel
  cases hcall : s.calls.lookup id with
  | none => exact .refl s
  | some call =>
      dsimp only
      split_ifs
      · exact (takeResponse_heard s id).trans (remove_heard _ _)
      · exact takeResponse_heard s id

theorem failCall_heard (error : Error) (s : State) (id : Nat) : Heard s (failCall error s id) := by
  have hremove := remove_heard s id
  unfold failCall
  generalize s.remove id = out at hremove
  obtain ⟨t, _ | call⟩ := out
  · exact hremove
  · dsimp only
    split_ifs
    · exact hremove.trans (send_heard _ _ _)
    · exact hremove

theorem dropCaller_heard (s : State) (id : Nat) : Heard s (s.dropCaller id) := by
  unfold dropCaller
  cases s.calls.lookup id with
  | none => exact heard_of_same (List.append_nil _).symm rfl rfl
  | some call => exact cancel_heard s id

theorem expireQueued_heard (s : State) (name : String) (now : Nat) : Heard s (s.expireQueued name now) :=
  .foldl expire_heard _ s

/-! ### Operations -/

theorem notifyRoute_heard (s : State) (name : String) : Heard s (s.notifyRoute name) := by
  obtain ⟨new, hnew, -, -⟩ := notifyRoute_eq s name
  rw [hnew]
  exact heard_of_same rfl rfl rfl

/-- A new call is in the queue of its route only, and every worker of that route is notified. -/
theorem accept_heard {s : State} (hs : Inv s) (call : Call) :
    Heard s ((s.accept call).notifyRoute call.route) := by
  obtain ⟨new, hnew, -, hmem⟩ := notifyRoute_eq (s.accept call) call.route
  rw [hnew]
  refine ⟨new, rfl, fun w hw worker hworker => ⟨worker, hworker, rfl, rfl, le_rfl, ?_⟩⟩
  intro hempty
  change (s.accept call).queueOf worker.route = []
  rw [queueOf, lookup_accept_routes]
  by_cases hroute : call.route = worker.route
  · exfalso
    apply hw
    obtain ⟨route, hr⟩ := hs.routed w worker hworker
    have haccepted : (s.accept call).routes.lookup call.route = some (route.enqueue s.nextId) := by
      rw [lookup_accept_routes, if_pos rfl, hroute, hr]
      rfl
    apply hmem _ haccepted w
    · exact ((hs.staffed _ _ hr).2.2 w).mpr ⟨worker, hworker, rfl⟩
    · exact Option.isSome_iff_exists.mpr ⟨worker, hworker⟩
  · rw [if_neg fun h => hroute h.symm]
    exact hempty

theorem request_heard {s : State} (hs : Inv s) (caller : Nat) (route : String) (timeoutMs : Nat)
    (payload : Bytes) (expiredAt admittedAt : Nat) :
    Heard s (s.request caller route timeoutMs payload expiredAt admittedAt).1 := by
  have hexpired := expireQueued_heard s route expiredAt
  have hcases := request_requested hs caller route timeoutMs payload expiredAt admittedAt
  generalize s.request caller route timeoutMs payload expiredAt admittedAt = result at hcases
  cases hcases with
  | disconnected => exact .refl s
  | noService => exact heard_of_same (List.append_nil _).symm rfl rfl
  | overloaded _ ht =>
      subst ht
      exact hexpired.trans (heard_of_same (List.append_nil _).symm rfl rfl)
  | exhausted _ ht =>
      subst ht
      exact hexpired
  | admitted _ ht hr _ _ _ hcall =>
      subst ht hcall
      exact hexpired.trans (accept_heard (expireQueued_inv hs _ _) _)

theorem handOut_heard (s : State) (name : String) (workerId id : Nat) :
    Heard s (s.handOut name workerId id) := by
  refine .of_quiet rfl fun w worker hw => ?_
  have hqueue : s.queueOf worker.route = [] → (s.handOut name workerId id).queueOf worker.route = [] := by
    apply queueOf_modify
    intro route hempty
    rw [Route.popFront, hempty]
    rfl
  rw [lookup_handOut_workers]
  split_ifs with hsame
  · exact ⟨worker.takeSlot, by rw [hw]; rfl, rfl, rfl, Nat.le_succ _, hqueue⟩
  · exact ⟨worker, hw, rfl, rfl, le_rfl, hqueue⟩

theorem tryTake_heard (s : State) (workerId expiredAt now : Nat) :
    Heard s (s.tryTake workerId expiredAt now).1 := by
  unfold tryTake
  cases s.workers.lookup workerId with
  | none => exact .refl s
  | some worker =>
      dsimp only
      split_ifs
      · exact .refl s
      · have hexpired := expireQueued_heard s worker.route expiredAt
        cases (s.expireQueued worker.route expiredAt).routes.lookup worker.route with
        | none => exact hexpired
        | some route =>
            dsimp only
            cases route.queue with
            | nil => exact hexpired
            | cons id queue =>
                dsimp only
                cases (s.expireQueued worker.route expiredAt).calls.lookup id with
                | none => exact hexpired.trans (heard_of_same (List.append_nil _).symm rfl rfl)
                | some call =>
                    dsimp only
                    split_ifs
                    · refine (hexpired.trans (shortened_heard _ worker.route ?_)).trans (expire_heard _ _)
                      intro route hempty
                      rw [Route.popFront, hempty]
                      rfl
                    · exact hexpired.trans (handOut_heard _ _ _ _)

/-- A pass that finds nothing leaves the worker with nothing to take. -/
theorem tryTake_empty {s : State} (hs : Inv s) {workerId expiredAt now : Nat}
    (h : (s.tryTake workerId expiredAt now).2 = .ok .empty) :
    (s.tryTake workerId expiredAt now).1.Starved workerId := by
  have hcases := tryTake_polled hs workerId expiredAt now
  generalize s.tryTake workerId expiredAt now = result at hcases h
  cases hcases with
  | unregistered => cases h
  | busy hw hfull => exact ⟨_, hw, Or.inl hfull⟩
  | @idle worker t route hw hfree ht hr hq =>
      subst ht
      obtain ⟨worker', hw', hseat⟩ := (expireQueued_settles hs.toCounted worker.route expiredAt).shrinks.worker' hw
      refine ⟨worker', hw', Or.inr ?_⟩
      rw [Worker.seat_route hseat, queueOf, hr]
      exact hq
  | late => cases h
  | job => cases h

theorem complete_heard (s : State) (workerId id : Nat) (failed : Bool) (payload : Bytes) (now : Nat) :
    Heard s (s.complete workerId id failed payload now).1 := by
  have hremove := remove_heard s id
  unfold complete
  split_ifs
  · exact .refl s
  · cases s.calls.lookup id with
    | none => exact .refl s
    | some call =>
        dsimp only
        split_ifs
        · exact .refl s
        · generalize s.remove id = out at hremove
          obtain ⟨t, _ | call⟩ := out
          · exact hremove.trans (heard_of_same (List.append_nil _).symm rfl rfl)
          · dsimp only
            split_ifs
            · exact hremove.trans (heard_of_same rfl rfl rfl)
            · exact hremove.trans (heard_of_same rfl rfl rfl)
            · exact hremove.trans (heard_of_same (List.append_nil _).symm rfl rfl)

/-- A worker that is the same up to its waiters. -/
theorem waiters_heard (s : State) (workerId : Nat) {g : Worker → Worker}
    (hg : ∀ worker : Worker, (g worker).route = worker.route ∧ (g worker).concurrency = worker.concurrency ∧
      (g worker).running = worker.running) :
    Heard s { s with workers := s.workers.modify workerId g } := by
  refine .of_quiet rfl fun w worker hw => ?_
  change ∃ worker', (s.workers.modify workerId g).lookup w = _ ∧ _
  rw [Table.lookup_modify]
  split_ifs with hsame
  · obtain ⟨hroute, hconcurrency, hrunning⟩ := hg worker
    exact ⟨g worker, by rw [hw]; rfl, hroute, hconcurrency, hrunning.ge, fun h => h⟩
  · exact ⟨worker, hw, rfl, rfl, le_rfl, fun h => h⟩

theorem takeStart_heard (s : State) (workerId : Nat) : Heard s (s.takeStart workerId).1 := by
  unfold takeStart
  cases s.workers.lookup workerId with
  | none => exact .refl s
  | some worker =>
      dsimp only
      split_ifs
      · exact .refl s
      · exact waiters_heard s workerId fun _ => ⟨rfl, rfl, rfl⟩

theorem takeGuardDrop_heard (s : State) (workerId : Nat) : Heard s (s.takeGuardDrop workerId) :=
  waiters_heard s workerId fun _ => ⟨rfl, rfl, rfl⟩

theorem register_heard (s : State) (workerId : Nat) (name : String) (concurrency queueLimit : Nat) :
    Heard s (s.register workerId name concurrency queueLimit).1 := by
  rcases register_cases s workerId name concurrency queueLimit with
    ⟨error, heq⟩ | ⟨-, hnew, -, heq⟩
  · rw [heq]
    exact .refl s
  · rw [heq]
    refine .of_quiet rfl fun w worker hw => ?_
    have hne : w ≠ workerId := by
      rintro rfl
      rw [hnew] at hw
      cases hw
    rw [lookup_enroll_workers, if_neg hne]
    refine ⟨worker, hw, rfl, rfl, le_rfl, fun hempty => ?_⟩
    rw [queueOf, lookup_enroll_routes]
    rw [queueOf] at hempty
    split_ifs with hname
    · subst hname
      cases hroute : s.routes.lookup worker.route with
      | none => rfl
      | some route =>
          rw [hroute] at hempty
          exact hempty
    · exact hempty

theorem failRunning_heard (s : State) (connection : Nat) : Heard s (s.failRunning connection) :=
  .foldl (failCall_heard _) _ _

theorem leaveRoute_heard (s : State) (name : String) (connection : Nat) :
    Heard s (s.leaveRoute name connection) := by
  unfold leaveRoute
  cases s.routes.lookup name with
  | none => exact heard_of_same (List.append_nil _).symm rfl rfl
  | some route =>
      dsimp only
      split_ifs
      · have herased : Heard s { s with routes := s.routes.erase name } := by
          refine .of_quiet rfl fun w => .of_same rfl fun other hempty => ?_
          change (match (s.routes.erase name).lookup other with | some route => route.queue | none => []) = []
          rw [Table.lookup_erase_ite]
          split_ifs
          · rfl
          · exact hempty
        exact herased.trans (.foldl (failCall_heard _) _ _)
      · have hdelisted : Heard s { s with routes := s.routes.modify name (Route.delist connection) } :=
          shortened_heard s name fun _ hempty => hempty
        exact hdelisted.trans (notifyRoute_heard _ _)

theorem disconnect_heard (s : State) (connection : Nat) : Heard s (s.disconnect connection) := by
  have hleft : Heard s (dropCallerCalls { s with connections := s.connections.erase connection } connection) :=
    (heard_of_same (t := { s with connections := s.connections.erase connection })
      (List.append_nil _).symm rfl rfl).trans (.foldl dropCaller_heard _ _)
  unfold disconnect
  generalize dropCallerCalls { s with connections := s.connections.erase connection } connection = t at hleft
  cases hw : t.workers.lookup connection with
  | none =>
      simp only [hw]
      exact hleft
  | some worker =>
      simp only [hw]
      have hremoved : Heard t (notify { t with workers := t.workers.erase connection } connection) := by
        refine ⟨[.notify connection], rfl, fun w hw => .of_same ?_ fun _ h => h⟩
        have hne : w ≠ connection := by
          rintro rfl
          exact hw (List.mem_singleton.mpr rfl)
        change (t.workers.erase connection).lookup w = _
        rw [Table.lookup_erase_ite, if_neg hne]
      exact ((hleft.trans hremoved).trans (failRunning_heard _ _)).trans (leaveRoute_heard _ _ _)

end State

namespace Sys

/-! ### Runs -/

/-- A `take` that waits and was not notified. -/
structure Waiting (s : Sys) (take : Take) : Prop where
  parked : take.phase = .parked
  unnotified : ¬s.notified take

/-- What a run keeps of its takes. -/
structure Attentive (s : Sys) : Prop where
  enabled : ∀ id take, s.takes.lookup id = some take → take.enabledAt ≤ s.rpc.outbox.length
  starved : ∀ id take, s.takes.lookup id = some take → s.Waiting take → s.rpc.Starved take.worker

theorem Attentive.keep {s t : Sys} (hs : s.Attentive) (hheard : Heard s.rpc t.rpc) {id : Nat} {take : Take}
    (htake : s.takes.lookup id = some take) :
    take.enabledAt ≤ t.rpc.outbox.length ∧ (t.Waiting take → t.rpc.Starved take.worker) := by
  obtain ⟨new, hout, hquiet⟩ := hheard
  have hle := hs.enabled id take htake
  refine ⟨?_, fun ⟨hparked, hnot⟩ => ?_⟩
  · exact hle.trans (Heard.length_le ⟨new, hout, hquiet⟩)
  · rw [notified, hout, List.drop_append_of_le_length hle, List.mem_append, not_or] at hnot
    exact (hquiet _ hnot.2).starved (hs.starved id take htake ⟨hparked, hnot.1⟩)

/-- A step that leaves the takes alone. -/
theorem Attentive.heard {s t : Sys} (hs : s.Attentive) (hheard : Heard s.rpc t.rpc) (htakes : t.takes = s.takes) :
    t.Attentive := by
  refine ⟨fun id take htake => ?_, fun id take htake => ?_⟩ <;> rw [htakes] at htake
  · exact (hs.keep hheard htake).1
  · exact (hs.keep hheard htake).2

/-- A step of one `take`, which ends it or leaves it as `g` says. -/
theorem Attentive.modify {s t : Sys} (hs : s.Attentive) (hheard : Heard s.rpc t.rpc) {i : Nat} {g : Take → Take}
    (htakes : t.takes = s.takes.modify i g)
    (hg : ∀ take, s.takes.lookup i = some take →
      (g take).enabledAt ≤ t.rpc.outbox.length ∧ (t.Waiting (g take) → t.rpc.Starved (g take).worker)) :
    t.Attentive := by
  have hboth : ∀ k take, t.takes.lookup k = some take →
      take.enabledAt ≤ t.rpc.outbox.length ∧ (t.Waiting take → t.rpc.Starved take.worker) := by
    intro k take htake
    rw [htakes, Table.lookup_modify] at htake
    split_ifs at htake with hk
    · subst hk
      obtain ⟨before, hbefore, rfl⟩ := Option.map_eq_some_iff.mp htake
      exact hg before hbefore
    · exact hs.keep hheard htake
  exact ⟨fun k take htake => (hboth k take htake).1, fun k take htake => (hboth k take htake).2⟩

theorem guarded_lookup {takes : Table Nat Take} {next worker id : Nat} {exit : Exit Unit} {take : Take}
    (h : (guarded next worker takes exit).lookup id = some take) :
    take = ⟨worker, .looping, 0⟩ ∨ takes.lookup id = some take := by
  cases exit with
  | ok value =>
      rw [guarded, Table.lookup_insert_ite] at h
      split_ifs at h
      · exact Or.inl (Option.some.inj h).symm
      · exact Or.inr h
  | error error => exact Or.inr h
  | panicked => exact Or.inr h

theorem afterPoll_enabledAt (poll : Exit Poll) (take : Take) :
    (Take.afterPoll poll take).enabledAt = take.enabledAt := by
  cases poll with
  | ok poll => cases poll <;> rfl
  | error error => rfl
  | panicked => rfl

/-- Only a pass that finds nothing parks a `take`. -/
theorem afterPoll_parked {poll : Exit Poll} {take : Take} (harmed : take.phase = .armed)
    (h : (Take.afterPoll poll take).phase = .parked) : poll = .ok .empty := by
  cases poll with
  | ok poll =>
      cases poll with
      | retry =>
          rw [Take.afterPoll, harmed] at h
          cases h
      | empty => rfl
      | job job => cases h
  | error error => cases h
  | panicked => cases h

theorem Attentive.next {s : Sys} (hs : s.Attentive) (hinv : Inv s.rpc) {op : Op} (hop : s.Enabled op) :
    (s.next op).Attentive := by
  cases op with
  | connected connection =>
      exact hs.heard (State.heard_of_same (List.append_nil _).symm rfl rfl) rfl
  | register worker route concurrency queueLimit => exact hs.heard (State.register_heard _ _ _ _ _) rfl
  | request caller route timeoutMs payload expiredAt admittedAt =>
      exact hs.heard (State.request_heard hinv _ _ _ _ _ _) rfl
  | takeStart worker =>
      have hheard : Heard s.rpc (s.next (.takeStart worker)).rpc := State.takeStart_heard _ _
      have hboth : ∀ id take, (s.next (.takeStart worker)).takes.lookup id = some take →
          take.enabledAt ≤ (s.next (.takeStart worker)).rpc.outbox.length ∧
            ((s.next (.takeStart worker)).Waiting take → (s.next (.takeStart worker)).rpc.Starved take.worker) := by
        intro id take htake
        simp only [Sys.next] at htake
        rcases guarded_lookup htake with rfl | hold
        · refine ⟨Nat.zero_le _, ?_⟩
          rintro ⟨hparked, -⟩
          cases hparked
        · exact hs.keep hheard hold
      exact ⟨fun id take htake => (hboth id take htake).1, fun id take htake => (hboth id take htake).2⟩
  | enable id =>
      refine hs.modify (.refl _) (i := id) rfl fun take htake => ⟨le_rfl, ?_⟩
      rintro ⟨hparked, -⟩
      cases hparked
  | tryTake id expiredAt now =>
      simp only [Sys.next]
      cases htake : s.takes.lookup id with
      | none => exact hs
      | some take =>
          have hheard := State.tryTake_heard s.rpc take.worker expiredAt now
          refine hs.modify hheard (i := id) rfl fun take' htake' => ?_
          obtain rfl := Option.some.inj (htake.symm.trans htake')
          have henabled := (hs.enabled id take htake).trans hheard.length_le
          rw [afterPoll_worker]
          refine ⟨by rwa [afterPoll_enabledAt], ?_⟩
          rintro ⟨hparked, -⟩
          apply State.tryTake_empty hinv
          have harmed : take.phase = .armed := by simpa [Enabled, htake] using hop
          exact afterPoll_parked harmed hparked
  | wake id =>
      refine hs.modify (.refl _) (i := id) rfl fun take htake => ⟨hs.enabled id take htake, ?_⟩
      rintro ⟨hparked, -⟩
      cases hparked
  | takeTimeout id =>
      refine hs.modify (.refl _) (i := id) rfl fun take htake => ⟨hs.enabled id take htake, ?_⟩
      rintro ⟨hparked, -⟩
      cases hparked
  | takeEnd id =>
      simp only [Sys.next]
      cases htake : s.takes.lookup id with
      | none => exact hs
      | some take =>
          have hheard := State.takeGuardDrop_heard s.rpc take.worker
          have hold : ∀ {k take'}, (s.takes.erase id).lookup k = some take' → s.takes.lookup k = some take' := by
            intro k take' hk
            rw [Table.lookup_erase_ite] at hk
            split_ifs at hk
            exact hk
          exact ⟨fun k take' hk => (hs.keep hheard (hold hk)).1, fun k take' hk => (hs.keep hheard (hold hk)).2⟩
  | complete worker id failed payload now => exact hs.heard (State.complete_heard _ _ _ _ _ _) rfl
  | expire id now => exact hs.heard (State.expire_heard _ _) rfl
  | cancel id => exact hs.heard (State.cancel_heard _ _) rfl
  | disconnect connection => exact hs.heard (State.disconnect_heard _ _) rfl

theorem attentive {maxCalls maxBytes : Nat} {s : Sys} (h : (anyClock maxCalls maxBytes).Reachable s) :
    s.Attentive := by
  apply h.invariant (P := Attentive)
  · rintro s rfl
    exact ⟨nofun, nofun⟩
  · rintro s op t hreach hs ⟨hop, rfl⟩
    exact hs.next (sound hreach).inv hop

/-- **No `take` is stranded.** While a `take` waits and was not notified, its worker is registered, and a
free slot of the worker means that its queue is empty, of expired calls too. -/
theorem no_stranded_take (maxCalls maxBytes : Nat) (s : Sys) (h : (anyClock maxCalls maxBytes).Reachable s)
    (id : Nat) (take : Take) (htake : s.takes.lookup id = some take) (hparked : take.phase = .parked)
    (hnot : ¬s.notified take) :
    ∃ worker, s.rpc.workers.lookup take.worker = some worker ∧
      (worker.running < worker.concurrency →
        ∀ route, s.rpc.routes.lookup worker.route = some route → route.queue = []) := by
  obtain ⟨worker, hworker, hidle⟩ := (attentive h).starved id take htake ⟨hparked, hnot⟩
  refine ⟨worker, hworker, fun hfree route hroute => ?_⟩
  have hempty := hidle.resolve_left (not_le.mpr hfree)
  rwa [State.queueOf, hroute] at hempty

/-- A worker with one slot waits for its first call. -/
def waiting : Sys :=
  ((((((Sys.new 4 100000).next (.connected 1)).next (.register 1 "sum" 1 4)).next (.takeStart 1)).next
    (.enable 0)).next (.tryTake 0 1000 2000))

theorem waiting_reachable : (anyClock 4 100000).Reachable waiting := by
  have h := Transition.Reachable.of_start (T := anyClock 4 100000) rfl
  have h := h.step (l := Op.connected 1) ⟨Finset.notMem_empty 1, rfl⟩
  have h := h.step (l := Op.register 1 "sum" 1 4) ⟨trivial, rfl⟩
  have h := h.step (l := Op.takeStart 1) ⟨trivial, rfl⟩
  have h := h.step (l := Op.enable 0) ⟨rfl, rfl⟩
  exact h.step (l := Op.tryTake 0 1000 2000) ⟨rfl, rfl⟩

theorem no_stranded_take_waiting :
    ∃ worker, waiting.rpc.workers.lookup 1 = some worker ∧
      (worker.running < worker.concurrency →
        ∀ route, waiting.rpc.routes.lookup worker.route = some route → route.queue = []) :=
  no_stranded_take 4 100000 waiting waiting_reachable 0 ⟨1, .parked, 0⟩ rfl rfl (by decide)

end Sys

end VeloBus.Rpc
