import VeloBus.RpcModel

/-! What ending a call does. Expiry, cancellation, completion and every cleanup loop of
`disconnect` do the same thing to one call: take its response sender, perhaps answer it, perhaps
free the call. `Settle` describes that change field by field; `Settles` is a sequence of such changes,
each allowed by a predicate. -/

namespace VeloBus.Rpc

/-- The replies sent for one call, oldest first. -/
def replies (id : Nat) (effects : List Effect) : List Reply :=
  effects.filterMap fun
    | .reply k reply => if k = id then some reply else none
    | .notify _ => none

@[simp] theorem replies_nil (id : Nat) : replies id [] = [] := rfl

@[simp] theorem replies_append (id : Nat) (es es' : List Effect) :
    replies id (es ++ es') = replies id es ++ replies id es' := List.filterMap_append

@[simp] theorem replies_notify (id worker : Nat) : replies id [.notify worker] = [] := rfl

@[simp] theorem replies_reply (id k : Nat) (reply : Reply) :
    replies id [.reply k reply] = if k = id then [reply] else [] := by
  by_cases h : k = id <;> simp [replies, h]

/-- A freed call gives its slot back to its owner, if it has one. -/
def freeOwner (owner : Option Nat) (workers : Table Nat Worker) : Table Nat Worker :=
  match owner with
  | some owner => workers.modify owner Worker.freeSlot
  | none => workers

/-- The `timed_out` counter after a reply. -/
def countDeadline (reply : Reply) (n : Nat) : Nat :=
  if reply = .error deadlineError then saturatingSucc n else n

/-- The call `id` loses its sender, `reply` is sent if the sender was still there, and the call
leaves the table when `freed`. -/
structure Settle (s : State) (id : Nat) (call : Call) (reply : Option Reply) (freed : Bool)
    (s' : State) : Prop where
  live : s.calls.lookup id = some call
  calls : s'.calls = if freed then s.calls.erase id else s.calls.modify id Call.takeResponse
  routes : s'.routes =
    if freed ∧ call.owner = none then s.routes.modify call.route (Route.dequeue id) else s.routes
  workers : s'.workers = if freed then freeOwner call.owner s.workers else s.workers
  retained : s'.retainedBytes =
    if freed then s.retainedBytes - call.retainedBytes else s.retainedBytes
  poisoned : s'.poisoned =
    (s.poisoned || (freed && decide (s.retainedBytes < call.retainedBytes)))
  timedOut : s'.timedOut =
    if call.response = true ∧ reply = some (.error deadlineError) then saturatingSucc s.timedOut
    else s.timedOut
  outbox : ∃ new, s'.outbox = s.outbox ++ new ∧
    ∀ k, replies k new = if k = id ∧ call.response = true then reply.toList else []
  connections : s'.connections = s.connections
  nextId : s'.nextId = s.nextId
  maxCalls : s'.maxCalls = s.maxCalls
  maxBytes : s'.maxBytes = s.maxBytes
  accepted : s'.accepted = s.accepted
  completed : s'.completed = s.completed
  rejected : s'.rejected = s.rejected

namespace State

theorem takeResponse_of_false {s : State} {id : Nat} {call : Call}
    (h : s.calls.lookup id = some call) (hr : call.response = false) : s.takeResponse id = s := by
  have hfix : s.calls.modify id Call.takeResponse = s.calls := by
    apply Table.modify_of_fixed
    intro a ha
    obtain rfl : call = a := Option.some.inj (h.symm.trans ha)
    rw [Call.takeResponse, ← hr]
  rw [takeResponse, hfix]

theorem remove_snd {s : State} {id : Nat} {call : Call} (h : s.calls.lookup id = some call) :
    (s.remove id).2 = some call := by
  unfold remove
  simp only [h]
  cases call.owner with
  | none => rfl
  | some owner =>
      dsimp only
      cases s.workers.lookup owner <;> rfl

theorem remove_none {s : State} {id : Nat} (h : s.calls.lookup id = none) :
    s.remove id = (s, none) := by
  simp [remove, h]

/-- `remove` frees a call without answering it. -/
theorem remove_settle {s : State} {id : Nat} {call : Call} (h : s.calls.lookup id = some call) :
    Settle s id call none true (s.remove id).1 := by
  unfold remove
  simp only [h]
  cases howner : call.owner with
  | none => constructor <;> simp [h, howner, freeOwner]
  | some owner =>
      dsimp only
      cases hw : s.workers.lookup owner with
      | none =>
          constructor <;> simp [h, howner, freeOwner]
          rw [Table.modify_of_lookup_none hw]
      | some worker =>
          constructor <;> simp [h, howner, freeOwner, notify]

/-- Taking the sender first and freeing the call afterwards is one change. -/
theorem takeResponse_remove_settle {s : State} {id : Nat} {call : Call}
    (h : s.calls.lookup id = some call) : Settle s id call none true ((s.takeResponse id).remove id).1 := by
  have hlive : (s.takeResponse id).calls.lookup id = some call.takeResponse := by
    rw [takeResponse, Table.lookup_modify, if_pos rfl, h, Option.map_some]
  have hr := remove_settle hlive
  obtain ⟨new, hout, hnew⟩ := hr.outbox
  refine ⟨h, ?_, hr.routes, hr.workers, hr.retained, hr.poisoned, ?_, ⟨new, hout, ?_⟩,
    hr.connections, hr.nextId, hr.maxCalls, hr.maxBytes, hr.accepted, hr.completed, hr.rejected⟩
  · rw [hr.calls, if_pos rfl, if_pos rfl, takeResponse, Table.erase_modify]
  · rw [if_neg (by simp)]
    exact hr.timedOut.trans (if_neg (by simp))
  · intro k
    simpa using hnew k

/-- Taking the sender and keeping the call. -/
theorem takeResponse_settle {s : State} {id : Nat} {call : Call}
    (h : s.calls.lookup id = some call) : Settle s id call none false (s.takeResponse id) := by
  constructor <;> simp [h, takeResponse]

end State

/-- Sending on the sender that was taken; a deadline reply is counted as well. -/
theorem Settle.send {s t : State} {id : Nat} {call : Call} {freed : Bool}
    (h : Settle s id call none freed t) (hr : call.response = true) (reply : Reply) :
    Settle s id call (some reply) freed
      (State.send { t with timedOut := countDeadline reply t.timedOut } id reply) := by
  obtain ⟨new, hout, hnew⟩ := h.outbox
  have htimed : t.timedOut = s.timedOut := h.timedOut.trans (if_neg (by simp))
  refine { h with timedOut := ?_, outbox := ⟨new ++ [.reply id reply], ?_, ?_⟩ }
  · simp only [State.send, htimed, hr, true_and, Option.some.injEq, countDeadline]
  · simp only [State.send, hout, List.append_assoc]
  · intro k
    rw [replies_append, hnew, replies_reply, hr]
    by_cases hk : k = id
    · simp [hk]
    · simp [hk, Ne.symm hk]

/-- A call whose sender is gone is not answered, whatever reply was meant for it. -/
theorem Settle.silent {s t : State} {id : Nat} {call : Call} {freed : Bool}
    (h : Settle s id call none freed t) (hr : call.response = false) (reply : Option Reply) :
    Settle s id call reply freed t := by
  obtain ⟨new, hout, hnew⟩ := h.outbox
  refine { h with timedOut := ?_, outbox := ⟨new, hout, ?_⟩ }
  · rw [if_neg (by simp [hr])]
    exact h.timedOut.trans (if_neg (by simp))
  · intro k
    rw [hnew]
    simp [hr]

namespace State

theorem cancel_none {s : State} {id : Nat} (h : s.calls.lookup id = none) : s.cancel id = s := by
  simp [cancel, h]

theorem cancel_settle {s : State} {id : Nat} {call : Call} (h : s.calls.lookup id = some call) :
    Settle s id call none (decide (call.owner = none)) (s.cancel id) := by
  unfold cancel
  simp only [h]
  by_cases howner : call.owner = none
  · rw [if_pos howner, decide_eq_true howner]
    exact takeResponse_remove_settle h
  · rw [if_neg howner, decide_eq_false howner]
    exact takeResponse_settle h

theorem expire_none {s : State} {id : Nat} (h : s.calls.lookup id = none) : s.expire id = s := by
  simp [expire, h]

theorem expire_settle {s : State} {id : Nat} {call : Call} (h : s.calls.lookup id = some call) :
    Settle s id call (some (.error deadlineError)) (decide (call.owner = none)) (s.expire id) := by
  by_cases howner : call.owner = none
  · rw [decide_eq_true howner]
    cases hr : call.response with
    | true =>
        have hlive : (send { s.takeResponse id with timedOut := saturatingSucc s.timedOut } id
            (.error deadlineError)).calls.lookup id = some call.takeResponse := by
          rw [send, takeResponse, Table.lookup_modify, if_pos rfl, h, Option.map_some]
        have hrem := remove_settle hlive
        obtain ⟨new, hout, hnew⟩ := hrem.outbox
        have hexp : s.expire id = (remove (send { s.takeResponse id with
            timedOut := saturatingSucc s.timedOut } id (.error deadlineError)) id).1 := by
          simp only [expire, h, hr, howner, if_true]
        rw [hexp]
        refine ⟨h, ?_, hrem.routes, hrem.workers, hrem.retained, hrem.poisoned, ?_,
          ⟨.reply id (.error deadlineError) :: new, ?_, ?_⟩, hrem.connections, hrem.nextId,
          hrem.maxCalls, hrem.maxBytes, hrem.accepted, hrem.completed, hrem.rejected⟩
        · rw [hrem.calls, if_pos rfl, if_pos rfl, send, takeResponse, Table.erase_modify]
        · rw [if_pos ⟨hr, rfl⟩]
          exact hrem.timedOut.trans (if_neg (by simp))
        · rw [hout, send, List.append_assoc]
          rfl
        · intro k
          rw [← List.singleton_append, replies_append, hnew, replies_reply, hr]
          by_cases hk : k = id
          · simp [hk]
          · simp [hk, Ne.symm hk]
    | false =>
        have hexp : s.expire id = (s.remove id).1 := by
          simp [expire, h, hr, howner]
        rw [hexp]
        exact (remove_settle h).silent hr _
  · rw [decide_eq_false howner]
    cases hr : call.response with
    | true =>
        have hexp : s.expire id = send { s.takeResponse id with
            timedOut := saturatingSucc s.timedOut } id (.error deadlineError) := by
          simp [expire, h, hr, howner]
        rw [hexp]
        exact (takeResponse_settle h).send hr (.error deadlineError)
    | false =>
        have hexp : s.expire id = s.takeResponse id := by
          simp [expire, h, hr, howner, takeResponse_of_false h hr]
        rw [hexp]
        exact (takeResponse_settle h).silent hr _

theorem failCall_none (error : Error) {s : State} {id : Nat} (h : s.calls.lookup id = none) :
    failCall error s id = s := by
  simp [failCall, remove_none h]

theorem failCall_settle {error : Error} (herror : error ≠ deadlineError) {s : State} {id : Nat}
    {call : Call} (h : s.calls.lookup id = some call) :
    Settle s id call (some (.error error)) true (failCall error s id) := by
  have hrem := remove_settle h
  have hfail : failCall error s id =
      if call.response then (s.remove id).1.send id (.error error) else (s.remove id).1 := by
    unfold failCall
    rw [show s.remove id = ((s.remove id).1, some call) from Prod.ext rfl (remove_snd h)]
  rw [hfail]
  cases hr : call.response with
  | true =>
      have hcount : countDeadline (.error error) (s.remove id).1.timedOut =
          (s.remove id).1.timedOut := if_neg fun heq => herror (Except.error.inj heq)
      have hsend := hrem.send hr (.error error)
      rw [hcount] at hsend
      exact hsend
  | false => exact hrem.silent hr _

/-- A completion by the owner, apart from the `completed` counter. -/
theorem complete_settle {s : State} {workerId id : Nat} {call : Call}
    (hw : s.workers.lookup workerId ≠ none) (h : s.calls.lookup id = some call)
    (howner : call.owner = some workerId) (failed : Bool) (payload : Bytes) (now : Nat) :
    (s.complete workerId id failed payload now).2 = .ok () ∧
    (s.complete workerId id failed payload now).1.completed = saturatingSucc s.completed ∧
    Settle s id call (some (completion call failed payload now)) true
      { (s.complete workerId id failed payload now).1 with completed := s.completed } := by
  have hrem := remove_settle h
  have hcompleted : (s.remove id).1.completed = s.completed := hrem.completed
  have hcomplete : s.complete workerId id failed payload now =
      (if call.response then
        send { (s.remove id).1 with
          completed := saturatingSucc (s.remove id).1.completed
          timedOut := countDeadline (completion call failed payload now) (s.remove id).1.timedOut }
          id (completion call failed payload now)
      else { (s.remove id).1 with completed := saturatingSucc (s.remove id).1.completed }, .ok ()) := by
    unfold complete
    rw [if_neg hw]
    simp only [h, howner, ne_eq, not_true_eq_false, if_false]
    rw [show s.remove id = ((s.remove id).1, some call) from Prod.ext rfl (remove_snd h)]
    dsimp only
    cases hr : call.response with
    | true =>
        by_cases hlate : call.deadline ≤ now
        · simp [hlate, completion, countDeadline]
        · have hne : completion call failed payload now ≠ .error deadlineError := by
            rw [completion, if_neg hlate]
            cases failed <;> simp [deadlineError, Code.handlerError, Code.deadlineExceeded]
          simp [hlate, countDeadline, hne]
    | false => simp
  rw [hcomplete]
  cases hr : call.response with
  | true =>
      refine ⟨rfl, by simp [send, hcompleted], ?_⟩
      have hsend := hrem.send hr (completion call failed payload now)
      simpa [send, hcompleted] using hsend
  | false =>
      refine ⟨rfl, by simp [hcompleted], ?_⟩
      have hsilent := hrem.silent hr (some (completion call failed payload now))
      simpa [← hcompleted] using hsilent

end State

/-! ### What a settled call leaves behind -/

/-- A call that stays may only have lost its sender. -/
def Call.Kept (call call' : Call) : Prop := call' = call ∨ call' = call.takeResponse

theorem Call.Kept.refl (call : Call) : call.Kept call := Or.inl rfl

theorem Call.Kept.trans {a b c : Call} (hab : a.Kept b) (hbc : b.Kept c) : a.Kept c := by
  rcases hab with rfl | rfl
  · exact hbc
  · rcases hbc with rfl | rfl <;> exact Or.inr rfl

theorem Call.Kept.takeResponse {call call' : Call} (h : call.Kept call') :
    call'.takeResponse = call.takeResponse := by
  rcases h with rfl | rfl <;> rfl

theorem Call.Kept.response {call call' : Call} (h : call.Kept call') (hr : call'.response = true) :
    call' = call := by
  rcases h with rfl | rfl
  · rfl
  · cases hr

theorem Call.Kept.caller {call call' : Call} (h : call.Kept call') : call'.caller = call.caller := by
  rcases h with rfl | rfl <;> rfl

theorem Call.Kept.route {call call' : Call} (h : call.Kept call') : call'.route = call.route := by
  rcases h with rfl | rfl <;> rfl

theorem Call.Kept.owner {call call' : Call} (h : call.Kept call') : call'.owner = call.owner := by
  rcases h with rfl | rfl <;> rfl

theorem Call.Kept.deadline {call call' : Call} (h : call.Kept call') :
    call'.deadline = call.deadline := by
  rcases h with rfl | rfl <;> rfl

theorem Call.Kept.payload {call call' : Call} (h : call.Kept call') :
    call'.payload = call.payload := by
  rcases h with rfl | rfl <;> rfl

theorem Call.Kept.retainedBytes {call call' : Call} (h : call.Kept call') :
    call'.retainedBytes = call.retainedBytes := by
  rcases h with rfl | rfl <;> rfl

/-- A worker without its running count. -/
def Worker.seat (worker : Worker) : Worker := { worker with running := 0 }

/-- A route without its queue. -/
def Route.staff (route : Route) : Route := { route with queue := [] }

/-- The part of the state that ending calls leaves alone. -/
structure Shrinks (s t : State) : Prop where
  calls : ∀ id call', t.calls.lookup id = some call' →
    ∃ call, s.calls.lookup id = some call ∧ call.Kept call'
  size : t.calls.size ≤ s.calls.size
  retained : t.retainedBytes ≤ s.retainedBytes
  seats : ∀ w, (t.workers.lookup w).map Worker.seat = (s.workers.lookup w).map Worker.seat
  running : ∀ w worker', t.workers.lookup w = some worker' →
    ∃ worker, s.workers.lookup w = some worker ∧ worker'.running ≤ worker.running
  staff : ∀ name, (t.routes.lookup name).map Route.staff = (s.routes.lookup name).map Route.staff
  queues : ∀ name route', t.routes.lookup name = some route' →
    ∃ route, s.routes.lookup name = some route ∧ route'.queue.Sublist route.queue
  connections : t.connections = s.connections
  nextId : t.nextId = s.nextId
  maxCalls : t.maxCalls = s.maxCalls
  maxBytes : t.maxBytes = s.maxBytes
  accepted : t.accepted = s.accepted
  completed : t.completed = s.completed
  rejected : t.rejected = s.rejected

theorem Shrinks.refl (s : State) : Shrinks s s where
  calls _ call h := ⟨call, h, .refl call⟩
  size := le_rfl
  retained := le_rfl
  seats _ := rfl
  running _ worker h := ⟨worker, h, le_rfl⟩
  staff _ := rfl
  queues _ route h := ⟨route, h, List.Sublist.refl _⟩
  connections := rfl
  nextId := rfl
  maxCalls := rfl
  maxBytes := rfl
  accepted := rfl
  completed := rfl
  rejected := rfl

theorem Shrinks.trans {s t u : State} (hst : Shrinks s t) (htu : Shrinks t u) : Shrinks s u where
  calls id call'' h := by
    obtain ⟨call', h', hkept'⟩ := htu.calls id call'' h
    obtain ⟨call, hs, hkept⟩ := hst.calls id call' h'
    exact ⟨call, hs, hkept.trans hkept'⟩
  size := htu.size.trans hst.size
  retained := htu.retained.trans hst.retained
  seats w := (htu.seats w).trans (hst.seats w)
  running w worker'' h := by
    obtain ⟨worker', h', hle'⟩ := htu.running w worker'' h
    obtain ⟨worker, hs, hle⟩ := hst.running w worker' h'
    exact ⟨worker, hs, hle'.trans hle⟩
  staff name := (htu.staff name).trans (hst.staff name)
  queues name route'' h := by
    obtain ⟨route', h', hsub'⟩ := htu.queues name route'' h
    obtain ⟨route, hs, hsub⟩ := hst.queues name route' h'
    exact ⟨route, hs, hsub'.trans hsub⟩
  connections := htu.connections.trans hst.connections
  nextId := htu.nextId.trans hst.nextId
  maxCalls := htu.maxCalls.trans hst.maxCalls
  maxBytes := htu.maxBytes.trans hst.maxBytes
  accepted := htu.accepted.trans hst.accepted
  completed := htu.completed.trans hst.completed
  rejected := htu.rejected.trans hst.rejected

namespace Settle

variable {s s' : State} {id : Nat} {call : Call} {reply : Option Reply} {freed : Bool}

theorem lookup_calls (h : Settle s id call reply freed s') (k : Nat) :
    s'.calls.lookup k =
      if k = id then (if freed then none else some call.takeResponse) else s.calls.lookup k := by
  rw [h.calls]
  cases freed with
  | true => simp [Table.lookup_erase_ite]
  | false =>
      simp only [Bool.false_eq_true, if_false, Table.lookup_modify]
      by_cases hk : k = id
      · rw [if_pos hk, if_pos hk, hk, h.live, Option.map_some]
      · rw [if_neg hk, if_neg hk]

theorem lookup_workers (h : Settle s id call reply freed s') (w : Nat) :
    s'.workers.lookup w =
      if freed = true ∧ call.owner = some w then (s.workers.lookup w).map Worker.freeSlot
      else s.workers.lookup w := by
  rw [h.workers]
  cases freed with
  | false => simp
  | true =>
      cases howner : call.owner with
      | none => simp [freeOwner]
      | some owner =>
          simp only [if_true, freeOwner, Table.lookup_modify, true_and, Option.some.injEq]
          simp only [eq_comm]

theorem lookup_routes (h : Settle s id call reply freed s') (name : String) :
    s'.routes.lookup name =
      if freed = true ∧ call.owner = none ∧ call.route = name then
        (s.routes.lookup name).map (Route.dequeue id)
      else s.routes.lookup name := by
  rw [h.routes]
  by_cases hfree : freed = true ∧ call.owner = none
  · rw [if_pos hfree, Table.lookup_modify]
    simp only [hfree, true_and]
    simp only [eq_comm]
  · rw [if_neg hfree, if_neg fun hall => hfree ⟨hall.1, hall.2.1⟩]

theorem shrinks (h : Settle s id call reply freed s') : Shrinks s s' where
  calls k call' hk := by
    rw [h.lookup_calls] at hk
    split_ifs at hk with hid hfreed
    · exact ⟨call, hid ▸ h.live, Or.inr (Option.some.inj hk).symm⟩
    · exact ⟨call', hk, .refl call'⟩
  size := by
    rw [h.calls]
    split_ifs
    · exact Table.size_erase_le _ _
    · exact (Table.size_modify _ _ _).le
  retained := by
    rw [h.retained]
    split_ifs
    · exact Nat.sub_le _ _
    · exact le_rfl
  seats w := by
    rw [h.lookup_workers]
    split_ifs
    · rw [Option.map_map]
      rfl
    · rfl
  running w worker' hw := by
    rw [h.lookup_workers] at hw
    split_ifs at hw
    · obtain ⟨worker, hs, rfl⟩ := Option.map_eq_some_iff.mp hw
      exact ⟨worker, hs, Nat.sub_le _ _⟩
    · exact ⟨worker', hw, le_rfl⟩
  staff name := by
    rw [h.lookup_routes]
    split_ifs
    · rw [Option.map_map]
      rfl
    · rfl
  queues name route' hr := by
    rw [h.lookup_routes] at hr
    split_ifs at hr
    · obtain ⟨route, hs, rfl⟩ := Option.map_eq_some_iff.mp hr
      exact ⟨route, hs, List.filter_sublist⟩
    · exact ⟨route', hr, List.Sublist.refl _⟩
  connections := h.connections
  nextId := h.nextId
  maxCalls := h.maxCalls
  maxBytes := h.maxBytes
  accepted := h.accepted
  completed := h.completed
  rejected := h.rejected

end Settle

/-! ### Sequences of settled calls -/

/-- Calls are ended one after another, each in a way the rule allows. -/
inductive Settles (rule : Nat → Call → Option Reply → Bool → Prop) (s : State) : State → Prop where
  | refl : Settles rule s s
  | tail {t u : State} {id : Nat} {call : Call} {reply : Option Reply} {freed : Bool} :
      Settles rule s t → Settle t id call reply freed u → rule id call reply freed →
      Settles rule s u

namespace Settles

variable {rule : Nat → Call → Option Reply → Bool → Prop} {s t u : State}

theorem single {id : Nat} {call : Call} {reply : Option Reply} {freed : Bool}
    (h : Settle s id call reply freed t) (hrule : rule id call reply freed) : Settles rule s t :=
  .tail .refl h hrule

theorem mono {rule' : Nat → Call → Option Reply → Bool → Prop}
    (himp : ∀ id call reply freed, rule id call reply freed → rule' id call reply freed)
    (h : Settles rule s t) : Settles rule' s t := by
  induction h with
  | refl => exact .refl
  | tail _ hstep hrule ih => exact ih.tail hstep (himp _ _ _ _ hrule)

theorem shrinks (h : Settles rule s t) : Shrinks s t := by
  induction h with
  | refl => exact .refl s
  | tail _ hstep _ ih => exact ih.trans hstep.shrinks

/-- What survives each settled call survives the sequence. -/
theorem preserves {P : State → Prop}
    (hstep : ∀ {a b id call reply freed}, Settle a id call reply freed b →
      rule id call reply freed → P a → P b)
    (h : Settles rule s t) (hs : P s) : P t := by
  induction h with
  | refl => exact hs
  | tail _ hone hrule ih => exact hstep hone hrule ih

end Settles

section Fold

variable {f : State → Nat → State} {reply : Call → Option Reply} {freed : Call → Bool}
  (hnone : ∀ t id, t.calls.lookup id = none → f t id = t)
  (hsome : ∀ t id call, t.calls.lookup id = some call →
    Settle t id call (reply call) (freed call) (f t id))

include hnone hsome

theorem settles_foldl {rule : Nat → Call → Option Reply → Bool → Prop} (ids : List Nat) (s : State)
    (hrule : ∀ id ∈ ids, ∀ call call', s.calls.lookup id = some call → call.Kept call' →
      rule id call' (reply call') (freed call')) :
    Settles rule s (ids.foldl f s) := by
  induction ids using List.reverseRecOn with
  | nil => exact .refl
  | append_singleton ids id ih =>
      rw [List.foldl_append, List.foldl_cons, List.foldl_nil]
      have hinit := ih fun k hk => hrule k (List.mem_append_left _ hk)
      cases hlive : (ids.foldl f s).calls.lookup id with
      | none => rwa [hnone _ _ hlive]
      | some call' =>
          obtain ⟨call, hs, hkept⟩ := hinit.shrinks.calls id call' hlive
          exact hinit.tail (hsome _ _ _ hlive) (hrule id (by simp) call call' hs hkept)

variable (freed) in
/-- A call of the list is gone, or was not to be freed and has no sender left. -/
theorem foldl_lookup_of_mem (hfreed : ∀ call call' : Call, call.Kept call' → freed call' = freed call)
    (ids : List Nat) (s : State) {k : Nat} (hk : k ∈ ids) {call' : Call}
    (h : (ids.foldl f s).calls.lookup k = some call') :
    freed call' = false ∧ call'.response = false := by
  induction ids using List.reverseRecOn generalizing call' with
  | nil => cases hk
  | append_singleton ids id ih =>
      rw [List.foldl_append, List.foldl_cons, List.foldl_nil] at h
      cases hlive : (ids.foldl f s).calls.lookup id with
      | none =>
          rw [hnone _ _ hlive] at h
          rcases List.mem_append.mp hk with hmem | hlast
          · exact ih hmem h
          · rw [List.mem_singleton.mp hlast, hlive] at h
            cases h
      | some call =>
          rw [(hsome _ _ _ hlive).lookup_calls] at h
          split_ifs at h with hkid hfree
          · obtain rfl := Option.some.inj h
            rw [hfreed call _ (Or.inr rfl)]
            exact ⟨by simpa using hfree, rfl⟩
          · rcases List.mem_append.mp hk with hmem | hlast
            · exact ih hmem h
            · exact absurd (List.mem_singleton.mp hlast) hkid

end Fold

end VeloBus.Rpc
