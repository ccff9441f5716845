import VeloBus.RpcDeparture

/-! Two disconnects in either order. Which calls and routes go is said of both connections at once, and the
descriptions are symmetric. -/

namespace VeloBus.Rpc

namespace State

/-! ### Calls -/

/-- Nobody but the two connections serves the route. -/
def OnlyOf (s : State) (a b : Nat) (name : String) : Prop :=
  ∃ route ∈ s.routes.lookup name, ∀ w ∈ route.workers, w = a ∨ w = b

instance (s : State) (a b : Nat) (name : String) : Decidable (s.OnlyOf a b name) :=
  inferInstanceAs (Decidable (∃ route ∈ _, _))

theorem onlyOf_comm (s : State) (a b : Nat) (name : String) : s.OnlyOf a b name ↔ s.OnlyOf b a name := by
  simp only [OnlyOf, or_comm]

/-- A route goes with the first connection or with the second. -/
theorem lastOf_or {s : State} (hs : Inv s) (a b : Nat) (name : String) :
    s.LastOf a name ∨ (s.disconnect a).LastOf b name ↔ s.OnlyOf a b name := by
  have hstaff := disconnect_staff hs a name
  cases hr : s.routes.lookup name with
  | none =>
      rw [hr, Option.map_none, ite_self] at hstaff
      have hgone := Option.map_eq_none_iff.mp hstaff
      simp [LastOf, OnlyOf, hr, hgone]
  | some route =>
      have honly : s.OnlyOf a b name ↔ ∀ w ∈ route.workers, w = a ∨ w = b := by
        simp [OnlyOf, hr]
      rw [honly]
      by_cases hlast : s.LastOf a name
      · have hall := delist_eq_nil.mp ((lastOf_iff hs hr).mp hlast)
        exact ⟨fun _ w hw => Or.inl (hall w hw), fun _ => Or.inl hlast⟩
      · rw [if_neg hlast, hr, Option.map_some] at hstaff
        obtain ⟨route', hr', hsame⟩ := Option.map_eq_some_iff.mp hstaff
        rw [or_iff_right hlast, lastOf_iff (disconnect_inv hs a) hr', delist_eq_nil, Route.staff_workers hsame]
        constructor
        · intro h w hw
          by_cases hwa : w = a
          · exact Or.inl hwa
          · exact Or.inr (h w (List.mem_filter.mpr ⟨hw, decide_eq_true hwa⟩))
        · intro h w hw
          obtain ⟨hmem, hwa⟩ := List.mem_filter.mp hw
          exact (h w hmem).resolve_left (of_decide_eq_true hwa)

/-- The calls that end with two connections. -/
def RemovesBoth (s : State) (a b : Nat) (call : Call) : Prop :=
  (call.owner = some a ∨ call.owner = some b) ∨
    call.owner = none ∧ ((call.caller = a ∨ call.caller = b) ∨ s.OnlyOf a b call.route)

instance (s : State) (a b : Nat) (call : Call) : Decidable (s.RemovesBoth a b call) :=
  inferInstanceAs (Decidable (_ ∨ _))

/-- A call without the two connections. -/
def survivorBoth (s : State) (a b : Nat) (call : Call) : Option Call :=
  if s.RemovesBoth a b call then none
  else some (if call.caller = a ∨ call.caller = b then call.takeResponse else call)

/-- What a caller other than the two connections is told. -/
def noticeBoth (s : State) (a b : Nat) (call : Call) : List Reply :=
  if s.RemovesBoth a b call ∧ call.response then
    [.error (if call.owner = none then lastWorkerLostError else workerLostError)]
  else []

theorem removesBoth_comm (s : State) (a b : Nat) (call : Call) :
    s.RemovesBoth a b call ↔ s.RemovesBoth b a call := by
  unfold RemovesBoth
  rw [or_comm (a := call.owner = some a), or_comm (a := call.caller = a), onlyOf_comm]

theorem survivorBoth_comm (s : State) (a b : Nat) : s.survivorBoth a b = s.survivorBoth b a := by
  funext call
  simp only [survivorBoth, removesBoth_comm s a b, or_comm]

theorem noticeBoth_comm (s : State) (a b : Nat) : s.noticeBoth a b = s.noticeBoth b a := by
  funext call
  simp only [noticeBoth, removesBoth_comm s a b]

theorem removes_or {s : State} (hs : Inv s) (a b : Nat) (call : Call) :
    s.Removes a call ∨ (s.disconnect a).Removes b call ↔ s.RemovesBoth a b call := by
  unfold Removes RemovesBoth
  rw [← lastOf_or hs]
  tauto

theorem removes_of_kept {s : State} {x : Nat} {call call' : Call} (h : call.Kept call') :
    s.Removes x call' ↔ s.Removes x call := by
  rw [Removes, Removes, h.owner, h.caller, h.route]

theorem survivor_bind {s : State} (hs : Inv s) (a b : Nat) (call : Call) :
    (s.survivor a call).bind ((s.disconnect a).survivor b) = s.survivorBoth a b call := by
  have hboth := removes_or hs a b call
  by_cases hfirst : s.Removes a call
  · rw [survivorBoth, if_pos (hboth.mp (Or.inl hfirst)), survivor_eq_none.mpr hfirst, Option.bind_none]
  · rw [or_iff_right hfirst] at hboth
    obtain ⟨left, hleft⟩ : ∃ left, s.survivor a call = some left := Option.ne_none_iff_exists'.mp fun hnone =>
      hfirst (survivor_eq_none.mp hnone)
    obtain ⟨-, hkept⟩ := survivor_kept hleft
    rw [hleft, Option.bind_some, survivor, survivorBoth]
    simp only [removes_of_kept hkept, hboth]
    by_cases hsecond : s.RemovesBoth a b call
    · rw [if_pos hsecond, if_pos hsecond]
    · rw [if_neg hsecond, if_neg hsecond]
      rw [survivor, if_neg hfirst, Option.some_inj] at hleft
      subst hleft
      by_cases ha : call.caller = a
      · rw [if_pos ha, if_pos (Or.inl ha)]
        exact congrArg some (ite_self _)
      · rw [if_neg ha]
        simp only [ha, false_or]

theorem notice_append {s : State} (hs : Inv s) {a b : Nat} {call : Call} (ha : call.caller ≠ a)
    (hb : call.caller ≠ b) :
    s.notice a call ++ ((s.survivor a call).map ((s.disconnect a).notice b)).getD [] = s.noticeBoth a b call := by
  have hboth := removes_or hs a b call
  by_cases hfirst : s.Removes a call
  · have hmem := hboth.mp (Or.inl hfirst)
    rw [survivor_eq_none.mpr hfirst]
    obtain howner | ⟨howner, -⟩ := id hfirst <;> simp [notice, noticeBoth, hfirst, hmem, ha, howner]
  · rw [or_iff_right hfirst] at hboth
    have hkept : s.survivor a call = some call := by
      rw [survivor, if_neg hfirst, if_neg ha]
    rw [hkept]
    by_cases hsecond : (s.disconnect a).Removes b call
    · have hmem := hboth.mp hsecond
      obtain howner | ⟨howner, -⟩ := id hsecond <;>
        simp [notice, noticeBoth, hfirst, hsecond, hmem, hb, howner]
    · have hmem := mt hboth.mpr hsecond
      simp [notice, noticeBoth, hfirst, hsecond, hmem]

theorem disconnect_twice_call {s : State} (hs : Inv s) (a b id : Nat) :
    ((s.disconnect a).disconnect b).calls.lookup id = (s.calls.lookup id).bind (s.survivorBoth a b) := by
  rw [(disconnect_call (disconnect_inv hs a) b id).1, (disconnect_call hs a id).1, Option.bind_assoc]
  exact congrArg _ (funext (survivor_bind hs a b))

theorem disconnect_twice_replies {s : State} (hs : Inv s) {a b id : Nat}
    (hother : ∀ call, s.calls.lookup id = some call → call.caller ≠ a ∧ call.caller ≠ b) :
    replies id ((s.disconnect a).disconnect b).outbox =
      replies id s.outbox ++ ((s.calls.lookup id).map (s.noticeBoth a b)).getD [] := by
  rw [(disconnect_call (disconnect_inv hs a) b id).2, (disconnect_call hs a id).2, (disconnect_call hs a id).1]
  cases hcall : s.calls.lookup id with
  | none => simp
  | some call =>
      obtain ⟨ha, hb⟩ := hother call hcall
      rw [List.append_assoc]
      exact congrArg _ (notice_append hs ha hb)

/-! ### Routes -/

theorem disconnect_twice_staff {s : State} (hs : Inv s) (a b : Nat) (name : String) :
    (((s.disconnect a).disconnect b).routes.lookup name).map Route.staff =
      if s.OnlyOf a b name then none
      else (s.routes.lookup name).map fun route => ((route.delist a).delist b).staff := by
  have honly := lastOf_or hs a b name
  have hfirst := disconnect_staff hs a name
  have hdelist := congrArg (Option.map (Route.delist b)) hfirst
  rw [Option.map_map] at hdelist
  rw [disconnect_staff (disconnect_inv hs a) b]
  by_cases hsecond : (s.disconnect a).LastOf b name
  · rw [if_pos hsecond, if_pos (honly.mp (Or.inr hsecond))]
  · rw [or_iff_left hsecond] at honly
    rw [if_neg hsecond]
    refine (show _ = _ from hdelist).trans ?_
    by_cases hlast : s.LastOf a name
    · rw [if_pos hlast, if_pos (honly.mp hlast), Option.map_none]
    · rw [if_neg hlast, if_neg (mt honly.mpr hlast), Option.map_map]
      rfl

theorem delist_comm (a b : Nat) (route : Route) : (route.delist a).delist b = (route.delist b).delist a := by
  simp only [Route.delist, List.filter_filter, Bool.and_comm]

/-! ### The whole state -/

/-- Two states that hold the same, whatever was sent on the way. -/
structure Same (s t : State) : Prop where
  connections : s.connections = t.connections
  routes : ∀ name, s.routes.lookup name = t.routes.lookup name
  workers : ∀ w, s.workers.lookup w = t.workers.lookup w
  calls : ∀ id, s.calls.lookup id = t.calls.lookup id
  nextId : s.nextId = t.nextId
  retained : s.retainedBytes = t.retainedBytes
  limits : s.maxCalls = t.maxCalls ∧ s.maxBytes = t.maxBytes
  counters : s.accepted = t.accepted ∧ s.completed = t.completed ∧ s.rejected = t.rejected ∧
    s.timedOut = t.timedOut
  poisoned : s.poisoned = t.poisoned

/-- The queues of a state follow from its calls. -/
theorem routes_eq {s t : State} (hs : Inv s) (ht : Inv t) (hcalls : ∀ id, s.calls.lookup id = t.calls.lookup id)
    {name : String}
    (hstaff : (s.routes.lookup name).map Route.staff = (t.routes.lookup name).map Route.staff) :
    s.routes.lookup name = t.routes.lookup name := by
  cases hr : s.routes.lookup name with
  | none =>
      rw [hr] at hstaff
      exact (Option.map_eq_none_iff.mp hstaff.symm).symm
  | some route =>
      rw [hr, Option.map_some] at hstaff
      obtain ⟨route', hr', hsame⟩ := Option.map_eq_some_iff.mp hstaff.symm
      have hqueue : route'.queue = route.queue := by
        apply eq_of_increasing (ht.sorted name route' hr') (hs.sorted name route hr)
        intro id
        rw [ht.queued name route' hr', hs.queued name route hr, hcalls]
      have heq : route' = route := by
        cases route'
        cases route
        simp_all [Route.staff]
      rw [hr', heq]

theorem disconnect_comm {s : State} (hs : Inv s) (a b : Nat) :
    ((s.disconnect a).disconnect b).Same ((s.disconnect b).disconnect a) := by
  have ha := disconnect_inv hs a
  have hb := disconnect_inv hs b
  have hab := disconnect_inv ha b
  have hba := disconnect_inv hb a
  obtain ⟨hconn, -, hmaxCalls, hmaxBytes⟩ := disconnect_seats hs a
  obtain ⟨hconn', -, hmaxCalls', hmaxBytes'⟩ := disconnect_seats hs b
  obtain ⟨hconnAb, -, hmaxCallsAb, hmaxBytesAb⟩ := disconnect_seats ha b
  obtain ⟨hconnBa, -, hmaxCallsBa, hmaxBytesBa⟩ := disconnect_seats hb a
  have hcalls : ∀ id, ((s.disconnect a).disconnect b).calls.lookup id =
      ((s.disconnect b).disconnect a).calls.lookup id := by
    intro id
    rw [disconnect_twice_call hs, disconnect_twice_call hs, survivorBoth_comm]
  constructor
  case connections =>
    rw [hconnAb, hconnBa, hconn, hconn']
    exact Finset.erase_right_comm
  case routes =>
    intro name
    apply routes_eq hab hba hcalls
    rw [disconnect_twice_staff hs, disconnect_twice_staff hs]
    simp only [onlyOf_comm s a b, delist_comm a b]
  case workers =>
    intro w
    rw [disconnect_worker ha, disconnect_worker hb, disconnect_worker hs, disconnect_worker hs]
    by_cases hwa : w = a <;> by_cases hwb : w = b <;> simp [hwa, hwb]
  case calls => exact hcalls
  case nextId =>
    rw [disconnect_nextId ha, disconnect_nextId hb, disconnect_nextId hs, disconnect_nextId hs]
  case retained =>
    rw [hab.retained, hba.retained]
    exact Table.total_eq_of_lookup hcalls _
  case limits =>
    exact ⟨(hmaxCallsAb.trans hmaxCalls).trans (hmaxCallsBa.trans hmaxCalls').symm,
      (hmaxBytesAb.trans hmaxBytes).trans (hmaxBytesBa.trans hmaxBytes').symm⟩
  case counters =>
    simp only [disconnect_counters ha b, disconnect_counters hb a, disconnect_counters hs, and_self]
  case poisoned => rw [hab.healthy, hba.healthy]

end State

namespace Sys

/-- **The order of two disconnects does not matter**, whatever the connections are to each other: the same
state is reached and every other caller gets the same replies. -/
theorem disconnects_commute {maxCalls maxBytes : Nat} {s : Sys} (h : (anyClock maxCalls maxBytes).Reachable s)
    (a b : Nat) :
    ((s.rpc.disconnect a).disconnect b).Same ((s.rpc.disconnect b).disconnect a) ∧
      ∀ id, (∀ call, s.rpc.calls.lookup id = some call → call.caller ≠ a ∧ call.caller ≠ b) →
        replies id ((s.rpc.disconnect a).disconnect b).outbox =
          replies id ((s.rpc.disconnect b).disconnect a).outbox := by
  have hs := (sound h).inv
  refine ⟨State.disconnect_comm hs a b, fun id hother => ?_⟩
  rw [State.disconnect_twice_replies hs hother, State.noticeBoth_comm]
  exact (State.disconnect_twice_replies hs fun call hcall => (hother call hcall).symm).symm

theorem disconnects_commute_served :
    ((served.rpc.disconnect 1).disconnect 2).Same ((served.rpc.disconnect 2).disconnect 1) :=
  (disconnects_commute (anyClock_of_steady served_reachable) 1 2).1

end Sys

end VeloBus.Rpc
