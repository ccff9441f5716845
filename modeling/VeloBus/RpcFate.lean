import VeloBus.RpcRepresentation

/-! What one step of the system does to one call. Apart from an admission and a hand-out, a step only
ends calls, each in a way its operation allows; `Fate` is what that means for a single call, and
`Moved` is the inversion of a whole step. -/

namespace VeloBus.Rpc

/-- Calls are ended, in between changes that touch neither calls nor replies. -/
inductive Evolves (rule : Nat → Call → Option Reply → Bool → Prop) (s : State) : State → Prop where
  | refl : Evolves rule s s
  | settle {t u : State} {id : Nat} {call : Call} {reply : Option Reply} {freed : Bool} :
      Evolves rule s t → Settle t id call reply freed u → rule id call reply freed →
      Evolves rule s u
  | aside {t u : State} {new : List Effect} : Evolves rule s t → u.calls = t.calls →
      u.timedOut = t.timedOut → u.outbox = t.outbox ++ new → (∀ k, replies k new = []) →
      Evolves rule s u

/-- What a step does to a live call and its reply: nothing, or its sender is taken, or it is freed. A
reply is sent only when the sender was still there. -/
inductive Fate (rule : Nat → Call → Option Reply → Bool → Prop) (s t : State) (id : Nat)
    (call : Call) : Prop where
  | kept (hcall : t.calls.lookup id = some call)
      (hsent : replies id t.outbox = replies id s.outbox)
  | silenced {reply : Option Reply} (hrule : rule id call reply false)
      (hcall : t.calls.lookup id = some call.takeResponse)
      (hsent : replies id t.outbox =
        replies id s.outbox ++ if call.response then reply.toList else [])
  | freed {reply reply' : Option Reply} {freed : Bool} {call' : Call}
      (hrule : rule id call reply freed) (hkept : call.Kept call')
      (hlast : rule id call' reply' true) (hcall : t.calls.lookup id = none)
      (hsent : replies id t.outbox =
        replies id s.outbox ++ if call.response then reply.toList else [])

theorem Settles.evolves {rule : Nat → Call → Option Reply → Bool → Prop} {s t : State}
    (h : Settles rule s t) : Evolves rule s t := by
  induction h with
  | refl => exact .refl
  | tail _ hone hrule ih => exact ih.settle hone hrule

namespace Evolves

variable {rule : Nat → Call → Option Reply → Bool → Prop} {s t u : State}

theorem trans (hst : Evolves rule s t) (htu : Evolves rule t u) : Evolves rule s u := by
  induction htu with
  | refl => exact hst
  | settle _ hone hrule ih => exact ih.settle hone hrule
  | aside _ hcalls htimed hout hnew ih => exact ih.aside hcalls htimed hout hnew

theorem mono {rule' : Nat → Call → Option Reply → Bool → Prop}
    (himp : ∀ id call reply freed, rule id call reply freed → rule' id call reply freed)
    (h : Evolves rule s t) : Evolves rule' s t := by
  induction h with
  | refl => exact .refl
  | settle _ hone hrule ih => exact ih.settle hone (himp _ _ _ _ hrule)
  | aside _ hcalls htimed hout hnew ih => exact ih.aside hcalls htimed hout hnew

/-- A change of other fields. -/
theorem silent (hcalls : t.calls = s.calls) (htimed : t.timedOut = s.timedOut)
    (hout : t.outbox = s.outbox) : Evolves rule s t :=
  .aside .refl hcalls htimed (hout.trans (List.append_nil _).symm) fun _ => rfl

/-- A call that is not live stays away and gets no reply. -/
theorem absent (h : Evolves rule s t) {id : Nat} (hs : s.calls.lookup id = none) :
    t.calls.lookup id = none ∧ replies id t.outbox = replies id s.outbox := by
  induction h with
  | refl => exact ⟨hs, rfl⟩
  | @settle t u k call reply freed _ hone _ ih =>
      have hne : id ≠ k := by
        rintro rfl
        exact absurd (ih.1.symm.trans hone.live) (by simp)
      obtain ⟨new, hout, hnew⟩ := hone.outbox
      rw [hone.lookup_calls, if_neg hne, hout, replies_append, hnew,
        if_neg fun h => hne h.1, List.append_nil]
      exact ih
  | aside _ hcalls _ hout hnew ih =>
      rw [hcalls, hout, replies_append, hnew, List.append_nil]
      exact ih

theorem fate (h : Evolves rule s t) {id : Nat} {call : Call} (hs : s.calls.lookup id = some call) :
    Fate rule s t id call := by
  induction h with
  | refl => exact .kept hs rfl
  | @settle t u k call' reply freed _ hone hrule ih =>
      obtain ⟨new, hout, hnew⟩ := hone.outbox
      by_cases hk : id = k
      · subst hk
        have hu := hone.lookup_calls id
        rw [if_pos rfl] at hu
        have hsent : replies id u.outbox = replies id t.outbox ++
            if call'.response = true then reply.toList else [] := by
          rw [hout, replies_append, hnew]
          simp
        cases ih with
        | kept hcall hsame =>
            obtain rfl := Option.some.inj (hcall.symm.trans hone.live)
            rw [hsame] at hsent
            cases freed with
            | false => exact .silenced hrule hu hsent
            | true => exact .freed hrule (.refl call) hrule hu hsent
        | silenced hfirst hcall hsame =>
            obtain rfl := Option.some.inj (hcall.symm.trans hone.live)
            rw [if_neg (by simp [Call.takeResponse]), List.append_nil, hsame] at hsent
            cases freed with
            | false => exact .silenced hfirst hu hsent
            | true => exact .freed hfirst (Or.inr rfl) hrule hu hsent
        | freed _ _ _ hcall _ =>
            rw [hone.live] at hcall
            cases hcall
      · have hcalls := hone.lookup_calls id
        rw [if_neg hk] at hcalls
        have hsent : replies id u.outbox = replies id t.outbox := by
          rw [hout, replies_append, hnew, if_neg fun h => hk h.1, List.append_nil]
        cases ih with
        | kept hcall hsame => exact .kept (hcalls.trans hcall) (hsent.trans hsame)
        | silenced hfirst hcall hsame =>
            exact .silenced hfirst (hcalls.trans hcall) (hsent.trans hsame)
        | freed hfirst hkept hlast hcall hsame =>
            exact .freed hfirst hkept hlast (hcalls.trans hcall) (hsent.trans hsame)
  | @aside t u new _ hcalls _ hout hnew ih =>
      have hlookup : u.calls.lookup id = t.calls.lookup id := congrArg (AList.lookup id) hcalls
      have hsent : replies id u.outbox = replies id t.outbox := by
        rw [hout, replies_append, hnew, List.append_nil]
      cases ih with
      | kept hcall hsame => exact .kept (hlookup.trans hcall) (hsent.trans hsame)
      | silenced hfirst hcall hsame =>
          exact .silenced hfirst (hlookup.trans hcall) (hsent.trans hsame)
      | freed hfirst hkept hlast hcall hsame =>
          exact .freed hfirst hkept hlast (hlookup.trans hcall) (hsent.trans hsame)

/-- A call that is live afterwards was live before, and may only have lost its sender. -/
theorem back (h : Evolves rule s t) {id : Nat} {call' : Call}
    (ht : t.calls.lookup id = some call') :
    ∃ call, s.calls.lookup id = some call ∧ call.Kept call' := by
  cases hs : s.calls.lookup id with
  | none =>
      rw [(h.absent hs).1] at ht
      cases ht
  | some call =>
      refine ⟨call, rfl, ?_⟩
      cases h.fate hs with
      | kept hcall _ => exact Or.inl (Option.some.inj (ht.symm.trans hcall))
      | silenced _ hcall _ => exact Or.inr (Option.some.inj (ht.symm.trans hcall))
      | freed _ _ _ hcall _ =>
          rw [ht] at hcall
          cases hcall

/-- Where nothing may be ended, calls and replies stay. -/
theorem idle (h : Evolves (fun _ _ _ _ => False) s t) (id : Nat) :
    t.calls.lookup id = s.calls.lookup id ∧ replies id t.outbox = replies id s.outbox := by
  cases hs : s.calls.lookup id with
  | none => exact h.absent hs
  | some call =>
      cases h.fate hs with
      | kept hcall hsent => exact ⟨hcall, hsent⟩
      | silenced hrule _ _ => exact hrule.elim
      | freed hrule _ _ _ _ => exact hrule.elim

end Evolves

/-! ### The operations -/

/-- How an operation may end a call. -/
def Sys.Ends (s : Sys) : Op → Nat → Call → Option Reply → Bool → Prop
  | .request _ route _ _ expiredAt _, id, call, reply, freed =>
      expiryRule route expiredAt id call reply freed
  | .tryTake _ expiredAt now, id, call, reply, freed =>
      ∃ name, expiryRule name (max expiredAt now) id call reply freed
  | .complete worker k failed payload now, id, call, reply, freed =>
      id = k ∧ call.owner = some worker ∧ reply = some (State.completion call failed payload now) ∧
        freed = true
  | .expire k _, id, call, reply, freed =>
      id = k ∧ reply = some (.error deadlineError) ∧ freed = decide (call.owner = none)
  | .cancel k, id, call, reply, freed => id = k ∧ reply = none ∧ freed = decide (call.owner = none)
  | .disconnect x, id, call, reply, freed =>
      State.callerRule x id call reply freed ∨ State.ownedRule x id call reply freed ∨
        ∃ worker, s.rpc.workers.lookup x = some worker ∧
          (∀ w worker', s.rpc.workers.lookup w = some worker' → worker'.route = worker.route →
            w = x) ∧ State.orphanRule worker.route id call reply freed
  | _, _, _, _, _ => False

namespace State

theorem notifyRoute_evolves (rule : Nat → Call → Option Reply → Bool → Prop) (s : State)
    (name : String) : Evolves rule s (s.notifyRoute name) := by
  obtain ⟨new, heq, hnew, -⟩ := notifyRoute_eq s name
  rw [heq]
  exact .aside .refl rfl rfl rfl hnew

theorem disconnect_evolves {s : Sys} (hs : Inv s.rpc) (x : Nat) :
    Evolves (s.Ends (.disconnect x)) s.rpc (s.rpc.disconnect x) := by
  have hstart : Evolves (s.Ends (.disconnect x)) s.rpc
      { s.rpc with connections := s.rpc.connections.erase x } := .silent rfl rfl rfl
  have hfirst : ∀ {t : State}, Settles (callerRule x)
      { s.rpc with connections := s.rpc.connections.erase x } t →
      Evolves (s.Ends (.disconnect x)) s.rpc t := fun ht =>
    hstart.trans (ht.evolves.mono fun _ _ _ _ h => Or.inl h)
  have hnotify : ∀ t : State, Evolves (s.Ends (.disconnect x)) t
      (notify { t with workers := t.workers.erase x } x) := fun t =>
    .aside .refl rfl rfl rfl fun k => replies_notify k x
  have hcases := disconnect_disconnected hs x
  generalize s.rpc.disconnect x = result at hcases
  cases hcases with
  | caller ht _ _ => exact hfirst ht
  | @worker t u worker route ht _ _ hu _ _ _ =>
      have hu' := ((hfirst ht).trans (hnotify t)).trans
        (hu.evolves.mono fun _ _ _ _ h => Or.inr (Or.inl h))
      have hdelisted : Evolves (s.Ends (.disconnect x)) u
          { u with routes := u.routes.modify worker.route (Route.delist x) } := .silent rfl rfl rfl
      exact (hu'.trans hdelisted).trans (notifyRoute_evolves _ _ _)
  | @lastWorker t u v worker route ht _ hw hu _ hr hstaff hv _ =>
      have hu' := ((hfirst ht).trans (hnotify t)).trans
        (hu.evolves.mono fun _ _ _ _ h => Or.inr (Or.inl h))
      have herased : Evolves (s.Ends (.disconnect x)) u
          { u with routes := u.routes.erase worker.route } := .silent rfl rfl rfl
      refine (hu'.trans herased).trans (hv.evolves.mono fun id call reply freed h => ?_)
      -- The route had no other worker before the operation either.
      obtain ⟨worker₀, hw₀, hseat⟩ := ht.shrinks.worker hw
      have hname : worker.route = worker₀.route := Worker.seat_route hseat
      obtain ⟨route₁, hr₁, hsame₁⟩ := hu.shrinks.route hr
      have hr₁' : t.routes.lookup worker.route = some route₁ := hr₁
      obtain ⟨route₀, hr₀, hsame₀⟩ := ht.shrinks.route hr₁'
      refine Or.inr (Or.inr ⟨worker₀, hw₀, fun w worker' hw' hroute => ?_, hname ▸ h⟩)
      by_contra hne
      have hmem : w ∈ route₀.workers :=
        ((hs.staffed worker.route route₀ hr₀).2.2 w).mpr ⟨worker', hw', hroute.trans hname.symm⟩
      have hin : w ∈ (route.delist x).workers := by
        refine List.mem_filter.mpr ⟨?_, by simpa using hne⟩
        rwa [Route.staff_workers hsame₁, Route.staff_workers hsame₀]
      rw [hstaff] at hin
      exact List.not_mem_nil hin

end State

/-- Everything a step can do to calls, replies and history. -/
inductive Moved (s : Sys) (op : Op) (t : Sys) : Prop where
  | ended (h : Evolves (s.Ends op) s.rpc t.rpc) (hnext : t.rpc.nextId = s.rpc.nextId)
      (hadmitted : t.admitted = s.admitted) (hdispatched : t.dispatched = s.dispatched)
      (htickets : ∀ id ticket, t.tickets.lookup id = some ticket →
        s.tickets.lookup id = some ticket ∧ op ≠ .cancel id)
  | admitted {u v : State} {caller timeoutMs expiredAt admittedAt : Nat} {route : String}
      {payload : Bytes} {call : Call}
      (hop : op = .request caller route timeoutMs payload expiredAt admittedAt)
      (h : Evolves (s.Ends op) s.rpc u) (hnext : u.nextId = s.rpc.nextId)
      (hcaller : caller ∈ s.rpc.connections)
      (hcall : call = ⟨caller, route, none, admittedAt + timeoutMs * nanosPerMilli, payload, true,
        State.callBytes route payload⟩)
      (hv : v = u.accept call) (ht : Evolves (fun _ _ _ _ => False) v t.rpc)
      (hnext' : t.rpc.nextId = s.rpc.nextId + 1)
      (hadmitted : t.admitted =
        s.admitted.insert s.rpc.nextId ⟨caller, route, timeoutMs, payload, admittedAt⟩)
      (htickets : t.tickets = s.tickets.insert s.rpc.nextId ⟨s.rpc.nextId, call.deadline⟩)
      (hdispatched : t.dispatched = s.dispatched)
  | dispatched {u : State} {take expiredAt now w id : Nat} {worker : Worker} {route : Route}
      {queue : List Nat} {call : Call} (hop : op = .tryTake take expiredAt now)
      (h : Evolves (s.Ends op) s.rpc u) (hu : Inv u)
      (hw : s.rpc.workers.lookup w = some worker) (hfree : worker.running < worker.concurrency)
      (hr : u.routes.lookup worker.route = some route) (hq : route.queue = id :: queue)
      (hlive : u.calls.lookup id = some call) (howner : call.owner = none)
      (hroute : call.route = worker.route) (htime : now < call.deadline)
      (ht : t.rpc = u.handOut worker.route w id) (hnext : t.rpc.nextId = s.rpc.nextId)
      (hadmitted : t.admitted = s.admitted) (htickets : t.tickets = s.tickets)
      (hdispatched : t.dispatched = s.dispatched ++
        [⟨w, some worker.route, ⟨id, remainingMs call.deadline now, call.payload⟩, now⟩])

/-- **The inversion of a step.** -/
theorem Sys.next_moved {s : Sys} (hs : s.Sound) (op : Op) : Moved s op (s.next op) := by
  have hinv := hs.inv
  cases op with
  | connected connection => exact .ended (.silent rfl rfl rfl) rfl rfl rfl fun _ _ h => ⟨h, by simp⟩
  | register workerId name concurrency queueLimit =>
      rcases State.register_cases s.rpc workerId name concurrency queueLimit with
        ⟨error, heq⟩ | ⟨-, -, -, heq⟩
      all_goals
        have hrpc : (s.next (.register workerId name concurrency queueLimit)).rpc =
          (s.rpc.register workerId name concurrency queueLimit).1 := rfl
        rw [heq] at hrpc
        refine .ended ?_ ?_ rfl rfl fun _ _ h => ⟨h, by simp⟩
        · rw [hrpc]
          exact .silent rfl rfl rfl
        · exact (congrArg State.nextId hrpc).trans rfl
  | request caller route timeoutMs payload expiredAt admittedAt =>
      have hsettles := State.expireQueued_settles hinv.toCounted route expiredAt
      have hexpired : Evolves (s.Ends (.request caller route timeoutMs payload expiredAt admittedAt))
          s.rpc (s.rpc.expireQueued route expiredAt) := hsettles.evolves
      have hcases := State.request_requested hinv caller route timeoutMs payload expiredAt admittedAt
      have hnext : s.next (.request caller route timeoutMs payload expiredAt admittedAt) =
          { s with
            rpc := (s.rpc.request caller route timeoutMs payload expiredAt admittedAt).1
            tickets := issue s.tickets
              (s.rpc.request caller route timeoutMs payload expiredAt admittedAt).2
            admitted := enter ⟨caller, route, timeoutMs, payload, admittedAt⟩ s.admitted
              (s.rpc.request caller route timeoutMs payload expiredAt admittedAt).2
            clock := admittedAt } := rfl
      rw [hnext]
      generalize s.rpc.request caller route timeoutMs payload expiredAt admittedAt = result at hcases
      cases hcases with
      | disconnected => exact .ended .refl rfl rfl rfl fun _ _ h => ⟨h, by simp⟩
      | noService => exact .ended (.silent rfl rfl rfl) rfl rfl rfl fun _ _ h => ⟨h, by simp⟩
      | overloaded _ ht =>
          subst ht
          exact .ended (hexpired.trans (.silent rfl rfl rfl)) hsettles.shrinks.nextId rfl rfl
            fun _ _ h => ⟨h, by simp⟩
      | exhausted _ ht =>
          subst ht
          exact .ended hexpired hsettles.shrinks.nextId rfl rfl fun _ _ h => ⟨h, by simp⟩
      | admitted hconn ht _ _ _ _ hcall =>
          subst ht
          obtain ⟨new, heq, -⟩ := State.notifyRoute_eq
            (State.accept (s.rpc.expireQueued route expiredAt) _) route
          refine .admitted rfl hexpired hsettles.shrinks.nextId hconn hcall rfl
            (State.notifyRoute_evolves _ _ _) ?_ ?_ ?_ rfl
          · dsimp only
            rw [heq]
            exact congrArg (· + 1) hsettles.shrinks.nextId
          · simp only [enter, hsettles.shrinks.nextId]
          · simp only [issue, hsettles.shrinks.nextId]
  | takeStart workerId =>
      rcases State.takeStart_cases s.rpc workerId with ⟨error, heq⟩ | ⟨worker, -, -, heq⟩
      all_goals
        have hrpc : (s.next (.takeStart workerId)).rpc = (s.rpc.takeStart workerId).1 := rfl
        rw [heq] at hrpc
        refine .ended ?_ ?_ rfl rfl fun _ _ h => ⟨h, by simp⟩
        · rw [hrpc]
          exact .silent rfl rfl rfl
        · exact (congrArg State.nextId hrpc).trans rfl
  | enable id => exact .ended .refl rfl rfl rfl fun _ _ h => ⟨h, by simp⟩
  | tryTake id expiredAt now =>
      cases htake : s.takes.lookup id with
      | none =>
          have hsame : s.next (.tryTake id expiredAt now) = s := by simp only [next, htake]
          rw [hsame]
          exact .ended .refl rfl rfl rfl fun _ _ h => ⟨h, by simp⟩
      | some take =>
          have hnext : s.next (.tryTake id expiredAt now) =
              { s with
                rpc := (s.rpc.tryTake take.worker expiredAt now).1
                takes := s.takes.modify id
                  (Take.afterPoll (s.rpc.tryTake take.worker expiredAt now).2)
                clock := now
                dispatched := s.dispatched ++
                  jobs take.worker ((s.rpc.workers.lookup take.worker).map Worker.route) now
                    (s.rpc.tryTake take.worker expiredAt now).2 } := by
            simp only [next, htake]
          have hnil : s.dispatched ++ [] = s.dispatched := List.append_nil _
          have hcases := State.tryTake_polled hinv take.worker expiredAt now
          rw [hnext]
          generalize s.rpc.tryTake take.worker expiredAt now = result at hcases
          cases hcases with
          | unregistered _ => exact .ended .refl rfl rfl hnil fun _ _ h => ⟨h, by simp⟩
          | busy _ _ => exact .ended .refl rfl rfl hnil fun _ _ h => ⟨h, by simp⟩
          | @idle worker _ _ _ _ ht =>
              subst ht
              have hsettles := State.expireQueued_settles hinv.toCounted worker.route expiredAt
              exact .ended (hsettles.evolves.mono fun _ _ _ _ h =>
                ⟨_, expiryRule_mono (le_max_left expiredAt now) _ _ _ _ h⟩) hsettles.shrinks.nextId
                rfl hnil fun _ _ h => ⟨h, by simp⟩
          | late _ _ ht =>
              exact .ended (ht.evolves.mono fun _ _ _ _ h => ⟨_, h⟩) ht.shrinks.nextId rfl hnil
                fun _ _ h => ⟨h, by simp⟩
          | @job worker _ _ _ _ _ hw hfree ht hr hq hlive howner hroute htime =>
              subst ht
              have hsettles := State.expireQueued_settles hinv.toCounted worker.route expiredAt
              refine .dispatched rfl (hsettles.evolves.mono fun _ _ _ _ h =>
                ⟨_, expiryRule_mono (le_max_left expiredAt now) _ _ _ _ h⟩) (hsettles.inv hinv) hw
                hfree hr hq hlive howner hroute htime rfl hsettles.shrinks.nextId rfl rfl ?_
              simp only [jobs, hw, Option.map_some]
  | wake id => exact .ended .refl rfl rfl rfl fun _ _ h => ⟨h, by simp⟩
  | takeTimeout id => exact .ended .refl rfl rfl rfl fun _ _ h => ⟨h, by simp⟩
  | takeEnd id =>
      simp only [next]
      cases s.takes.lookup id with
      | none => exact .ended .refl rfl rfl rfl fun _ _ h => ⟨h, by simp⟩
      | some take => exact .ended (.silent rfl rfl rfl) rfl rfl rfl fun _ _ h => ⟨h, by simp⟩
  | complete workerId id failed payload now =>
      have hrpc : (s.next (.complete workerId id failed payload now)).rpc =
        (s.rpc.complete workerId id failed payload now).1 := rfl
      rcases State.complete_cases s.rpc workerId id failed payload now with
        ⟨error, heq, -⟩ | ⟨call, t, -, -, howner, hsettle, heq⟩
      · rw [heq] at hrpc
        exact .ended (hrpc ▸ .refl) (hrpc ▸ rfl) rfl rfl fun _ _ h => ⟨h, by simp⟩
      · rw [heq] at hrpc
        have ht : Evolves (s.Ends (.complete workerId id failed payload now)) s.rpc t :=
          .settle .refl hsettle ⟨rfl, howner, rfl, rfl⟩
        refine .ended ?_ ?_ rfl rfl fun _ _ h => ⟨h, by simp⟩
        · rw [hrpc]
          exact ht.trans (.silent rfl rfl rfl)
        · rw [hrpc]
          exact hsettle.nextId
  | expire id now =>
      have hsettles := State.expire_settles s.rpc id
      exact .ended hsettles.evolves hsettles.shrinks.nextId rfl rfl fun _ _ h => ⟨h, by simp⟩
  | cancel id =>
      have hsettles := State.cancel_settles s.rpc id
      refine .ended hsettles.evolves hsettles.shrinks.nextId rfl rfl fun k ticket h => ?_
      rw [show (s.next (.cancel id)).tickets = s.tickets.erase id from rfl,
        Table.lookup_erase_ite] at h
      split_ifs at h with hk
      exact ⟨h, fun heq => hk (Op.cancel.inj heq).symm⟩
  | disconnect connection =>
      exact .ended (State.disconnect_evolves hinv connection) (State.disconnect_nextId hinv connection)
        rfl rfl fun _ _ h => ⟨h, by simp⟩

end VeloBus.Rpc
