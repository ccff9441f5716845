import VeloBus.RpcReplies

/-! A started call keeps its slot until its owner completes it or disconnects. Expiry, cancellation and
the loss of the caller only take its sender. -/

namespace VeloBus.Rpc

/-- The operations that may free a call owned by a worker. -/
def Op.Finishes (worker id : Nat) : Op → Prop
  | .complete worker' id' _ _ _ => worker' = worker ∧ id' = id
  | .disconnect connection => connection = worker
  | _ => False

namespace Sys

theorem ends_owned {s : Sys} {op : Op} {id w : Nat} {call : Call} {reply : Option Reply}
    (h : s.Ends op id call reply true) (howner : call.owner = some w) : op.Finishes w id := by
  have hnone : ∀ {P : Prop}, call.owner = none → P := by
    intro P hnone
    rw [howner] at hnone
    cases hnone
  cases op with
  | request => exact hnone h.1
  | tryTake =>
      obtain ⟨name, h⟩ := h
      exact hnone h.1
  | complete worker k failed payload now =>
      obtain ⟨rfl, howner', -⟩ := h
      exact ⟨Option.some.inj (howner'.symm.trans howner), rfl⟩
  | expire =>
      obtain ⟨-, -, hfreed⟩ := h
      exact hnone (of_decide_eq_true hfreed.symm)
  | cancel =>
      obtain ⟨-, -, hfreed⟩ := h
      exact hnone (of_decide_eq_true hfreed.symm)
  | disconnect x =>
      rcases h with ⟨-, -, hfreed⟩ | ⟨howner', -⟩ | ⟨-, -, -, howner', -⟩
      · exact hnone (of_decide_eq_true hfreed.symm)
      · exact Option.some.inj (howner'.symm.trans howner)
      · exact hnone howner'
  | connected => cases h
  | register => cases h
  | takeStart => cases h
  | enable => cases h
  | wake => cases h
  | takeTimeout => cases h
  | takeEnd => cases h

/-- The call is live and may only have lost its sender. -/
def Holds (call : Call) (id : Nat) (s : Sys) : Prop :=
  ∃ call', s.rpc.calls.lookup id = some call' ∧ call.Kept call'

theorem evolves_holds {s : Sys} {op : Op} {a b : State} (h : Evolves (s.Ends op) a b) {id w : Nat}
    {call : Call} (hop : ¬op.Finishes w id) (howner : call.owner = some w)
    (hlive : a.calls.lookup id = some call) :
    ∃ call', b.calls.lookup id = some call' ∧ call.Kept call' := by
  cases h.fate hlive with
  | kept hcall _ => exact ⟨call, hcall, .refl call⟩
  | silenced _ hcall _ => exact ⟨_, hcall, Or.inr rfl⟩
  | freed _ hkept hlast _ _ => exact absurd (ends_owned hlast (hkept.owner.trans howner)) hop

theorem next_holds {s : Sys} (hsound : s.Sound) {op : Op} {id w : Nat} {call : Call}
    (hop : ¬op.Finishes w id) (howner : call.owner = some w) (hs : Holds call id s) :
    Holds call id (s.next op) := by
  obtain ⟨call₀, hlive, hkept₀⟩ := hs
  have howner₀ : call₀.owner = some w := hkept₀.owner.trans howner
  have hafter : ∀ {b : State}, Evolves (s.Ends op) s.rpc b →
      ∃ call', b.calls.lookup id = some call' ∧ call.Kept call' := by
    intro b h
    obtain ⟨call', hlive', hkept⟩ := evolves_holds h hop howner₀ hlive
    exact ⟨call', hlive', hkept₀.trans hkept⟩
  cases next_moved hsound op with
  | ended h _ _ _ _ => exact hafter h
  | admitted _ h hnext _ _ hv ht _ _ _ _ =>
      obtain ⟨call', hlive', hkept⟩ := hafter h
      have hne : id ≠ s.rpc.nextId := (hsound.inv.fresh id call₀ hlive).ne
      refine ⟨call', ?_, hkept⟩
      rw [(ht.idle id).1, hv, State.lookup_accept_calls, hnext, if_neg hne]
      exact hlive'
  | @dispatched u _ _ _ w' k worker route queue queued _ h _ _ _ _ _ hqueued hnone _ _ ht _ _ _ _ =>
      obtain ⟨call', hlive', hkept⟩ := hafter h
      have hne : id ≠ k := by
        rintro rfl
        obtain rfl := Option.some.inj (hqueued.symm.trans hlive')
        rw [hkept.owner, howner] at hnone
        cases hnone
      refine ⟨call', ?_, hkept⟩
      rw [ht, State.lookup_handOut_calls, if_neg hne]
      exact hlive'

theorem run_holds {maxCalls maxBytes : Nat} {s t : Sys} {ops : List Op}
    (hs : (anyClock maxCalls maxBytes).Reachable s) (hrun : (anyClock maxCalls maxBytes).Run s ops t)
    {id w : Nat} {call : Call} (hlive : s.rpc.calls.lookup id = some call)
    (howner : call.owner = some w) (hops : ∀ op ∈ ops, ¬op.Finishes w id) : Holds call id t := by
  refine hrun.preserves (P := Holds call id) (A := fun op => ¬op.Finishes w id) ?_ hs
    ⟨call, hlive, .refl call⟩ hops
  rintro s op t hreach hheld hop ⟨-, rfl⟩
  exact next_holds (sound hreach) hop howner hheld

end Sys

namespace State

/-- A completion by the owner ends its call and gives back its slot. -/
theorem complete_owned {s : State} (hs : Inv s) {id w : Nat} {call : Call}
    (hlive : s.calls.lookup id = some call) (howner : call.owner = some w) (failed : Bool)
    (payload : Bytes) (now : Nat) :
    (s.complete w id failed payload now).2 = .ok () ∧
    (s.complete w id failed payload now).1.calls = s.calls.erase id ∧
    (s.complete w id failed payload now).1.routes = s.routes ∧
    (∃ worker worker', s.workers.lookup w = some worker ∧
      (s.complete w id failed payload now).1.workers.lookup w = some worker' ∧
      worker'.running + 1 = worker.running ∧ worker'.seat = worker.seat) ∧
    (∀ w', w' ≠ w → (s.complete w id failed payload now).1.workers.lookup w' = s.workers.lookup w') ∧
    (s.complete w id failed payload now).1.retainedBytes + call.retainedBytes = s.retainedBytes := by
  obtain ⟨worker, hw, -⟩ := hs.owned id call w hlive howner
  have hregistered : s.workers.lookup w ≠ none := by
    rw [hw]
    exact nofun
  obtain ⟨hok, -, hsettle⟩ := complete_settle hregistered hlive howner failed payload now
  have hworkers := hsettle.lookup_workers
  have hretained := hsettle.retained
  have hcalls := hsettle.calls
  have hroutes := hsettle.routes
  rw [if_pos rfl] at hcalls hretained
  rw [if_neg (by simp [howner])] at hroutes
  dsimp only at hworkers hretained hcalls hroutes
  generalize s.complete w id failed payload now = result at hok hworkers hretained hcalls hroutes
  have hrunning : 0 < worker.running := by
    rw [hs.running w worker hw]
    exact Table.count_pos hlive howner
  have hle : call.retainedBytes ≤ s.retainedBytes := by
    rw [hs.retained]
    exact Table.le_total (fun _ (call : Call) => call.retainedBytes) hlive
  refine ⟨hok, hcalls, hroutes, ⟨worker, worker.freeSlot, hw, ?_, ?_, rfl⟩, fun w' hne => ?_, ?_⟩
  · rw [hworkers, if_pos ⟨rfl, howner⟩, hw, Option.map_some]
  · exact Nat.sub_add_cancel hrunning
  · rw [hworkers, if_neg fun h => hne (Option.some.inj (h.2.symm.trans howner))]
  · omega

/-- A completion by anyone but the owner of a live call changes nothing. -/
theorem complete_refused (s : State) {id w : Nat}
    (h : ∀ call, s.calls.lookup id = some call → call.owner ≠ some w) (failed : Bool)
    (payload : Bytes) (now : Nat) :
    ∃ error, s.complete w id failed payload now = (s, .error error) := by
  rcases complete_cases s w id failed payload now with
    ⟨error, heq, -⟩ | ⟨call, t, -, hlive, howner, -⟩
  · exact ⟨error, heq⟩
  · exact absurd howner (h call hlive)

end State

namespace Sys

/-- An identifier that was used and is not live stays away. -/
theorem run_gone {maxCalls maxBytes : Nat} {s t : Sys} {ops : List Op}
    (hs : (anyClock maxCalls maxBytes).Reachable s) (hrun : (anyClock maxCalls maxBytes).Run s ops t)
    {id : Nat} (hid : id < s.rpc.nextId) (hnone : s.rpc.calls.lookup id = none) :
    t.rpc.calls.lookup id = none := by
  have hown : ∀ w, ∀ call, s.rpc.calls.lookup id = some call → call.owner = some w := by
    intro w call hlive
    rw [hnone] at hlive
    cases hlive
  cases hlive : t.rpc.calls.lookup id with
  | none => rfl
  | some call =>
      -- It would have two owners.
      have hzero := run_owner hs hrun hid (hown 0) call hlive
      have hone := run_owner hs hrun hid (hown 1) call hlive
      rw [hzero] at hone
      cases hone

/-- **A started call keeps its slot until its owner ends it.** Through any operations but a completion
by its owner and the loss of its owner, an owned call stays in the table with its owner and payload,
and counts in the running calls of its owner and in the retained bytes. Then a completion by the owner
succeeds at any time, removes this call, frees one slot and can never be repeated; and any other
completion is refused without effect. -/
theorem started_call_keeps_slot {maxCalls maxBytes : Nat} {s : Sys}
    (h : (anyClock maxCalls maxBytes).Reachable s) {id w : Nat} {call : Call}
    (hlive : s.rpc.calls.lookup id = some call) (howner : call.owner = some w) {ops : List Op}
    {t : Sys} (hrun : (anyClock maxCalls maxBytes).Run s ops t)
    (hops : ∀ op ∈ ops, ¬op.Finishes w id) :
    (∃ call' worker, t.rpc.calls.lookup id = some call' ∧ call'.owner = some w ∧
      call'.payload = call.payload ∧ call'.route = call.route ∧ call'.deadline = call.deadline ∧
      call'.retainedBytes = call.retainedBytes ∧ t.rpc.workers.lookup w = some worker ∧
      worker.running = Table.count (fun _ call => call.owner = some w) t.rpc.calls ∧
      t.rpc.retainedBytes = Table.total (fun _ call => call.retainedBytes) t.rpc.calls) ∧
    (∀ failed payload now,
      (t.rpc.complete w id failed payload now).2 = .ok () ∧
      (t.rpc.complete w id failed payload now).1.calls = t.rpc.calls.erase id ∧
      (t.rpc.complete w id failed payload now).1.routes = t.rpc.routes ∧
      (∃ worker worker', t.rpc.workers.lookup w = some worker ∧
        (t.rpc.complete w id failed payload now).1.workers.lookup w = some worker' ∧
        worker'.running + 1 = worker.running ∧ worker'.seat = worker.seat) ∧
      (∀ w', w' ≠ w →
        (t.rpc.complete w id failed payload now).1.workers.lookup w' = t.rpc.workers.lookup w') ∧
      (t.rpc.complete w id failed payload now).1.retainedBytes + call.retainedBytes =
        t.rpc.retainedBytes ∧
      ∀ ops' u, (anyClock maxCalls maxBytes).Run (t.next (.complete w id failed payload now)) ops' u →
        ∀ w' failed' payload' now', ∃ error,
          u.rpc.complete w' id failed' payload' now' = (u.rpc, .error error)) ∧
    ∀ w' id', (∀ call', t.rpc.calls.lookup id' = some call' → call'.owner ≠ some w') →
      ∀ failed payload now, ∃ error,
        t.rpc.complete w' id' failed payload now = (t.rpc, .error error) := by
  obtain ⟨call', hlive', hkept⟩ := run_holds h hrun hlive howner hops
  have hinv := (sound (h.run hrun)).inv
  have howner' : call'.owner = some w := hkept.owner.trans howner
  obtain ⟨worker, hw, -⟩ := hinv.owned id call' w hlive' howner'
  refine ⟨⟨call', worker, hlive', howner', hkept.payload, hkept.route, hkept.deadline,
    hkept.retainedBytes, hw, hinv.running w worker hw, hinv.retained⟩,
    fun failed payload now => ?_,
    fun w' id' hnot failed payload now => State.complete_refused t.rpc hnot failed payload now⟩
  obtain ⟨hok, hcalls, hroutes, hslot, hothers, hretained⟩ :=
    State.complete_owned hinv hlive' howner' failed payload now
  rw [hkept.retainedBytes] at hretained
  refine ⟨hok, hcalls, hroutes, hslot, hothers, hretained, fun ops' u hrun' => ?_⟩
  have hreach : (anyClock maxCalls maxBytes).Reachable (t.next (.complete w id failed payload now)) :=
    (h.run hrun).step (l := .complete w id failed payload now) ⟨trivial, rfl⟩
  have hnone : (t.next (.complete w id failed payload now)).rpc.calls.lookup id = none := by
    change (t.rpc.complete w id failed payload now).1.calls.lookup id = none
    rw [hcalls, Table.lookup_erase_ite, if_pos rfl]
  have hused : id < (t.next (.complete w id failed payload now)).rpc.nextId :=
    (next_owner (sound (h.run hrun)) _ (hinv.fresh id call' hlive') (w := w) fun c hc => by
      rw [← howner', Option.some.inj (hlive'.symm.trans hc)]).1
  have hgone := run_gone hreach hrun' hused hnone
  exact fun w' failed' payload' now' => State.complete_refused u.rpc (fun c hc => by
    rw [hgone] at hc
    cases hc) failed' payload' now'

/-- The ticket is dropped, the caller is lost and the deadline passes before the completion. -/
theorem started_call_keeps_slot_served :
    (((Sys.served.next (.cancel 1)).next (.disconnect 2)).rpc.complete 1 1 false [8] 9000000).2 =
      .ok () := by
  have hcancel : (anyClock 4 100000).step Sys.served (.cancel 1) (Sys.served.next (.cancel 1)) :=
    ⟨rfl, rfl⟩
  have hlost : (anyClock 4 100000).step (Sys.served.next (.cancel 1)) (.disconnect 2)
      ((Sys.served.next (.cancel 1)).next (.disconnect 2)) := ⟨trivial, rfl⟩
  have hrun := (Transition.Run.nil.snoc hcancel).snoc hlost
  have hlive : Sys.served.rpc.calls.lookup 1 =
      some ⟨2, "sum", some 1, 5000000, [7], true, 519⟩ := by decide
  refine ((started_call_keeps_slot (anyClock_of_steady served_reachable) hlive rfl hrun ?_).2.1
    false [8] 9000000).1
  simp [Op.Finishes]

end Sys

end VeloBus.Rpc
