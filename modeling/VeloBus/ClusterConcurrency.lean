import Mathlib.Data.List.ProdSigma
import VeloBus.ClusterClosing
import VeloBus.ClusterExecutions
import VeloBus.ServiceOutcomes

/-! The gate of a service bounds its handlers in the whole process. What waits at it are slots of handles that are not
stopped, of which there is one for each node, so that no acquire is refused. -/

namespace VeloBus.Cluster

open Client (Failure Outcome)

/-! ### Room at the gate -/

namespace State

variable {s t : State} {v : Nat} {service : ClusterService} {w : Workers}

theorem runs_iff {h : Nat} : s.runs h = true ↔ ∃ handle, s.handles[h]? = some handle ∧ handle.state.stopped = false := by
  unfold runs
  cases s.handles[h]? with
  | none => simp
  | some handle => simp

/-- A handle has no more slots than its service asks for. -/
theorem Housed.slots_length (hs : s.Housed) {h : Nat} {handle : Handle} (hget : s.handles[h]? = some handle)
    (hservice : s.registrations[handle.service]? = some service) :
    handle.state.slots.length ≤ service.concurrency := by
  obtain ⟨-, hshaped, found, concurrency, hfound, hsetup, hnumber⟩ := hs.belongs handle (List.mem_of_getElem? hget)
  obtain rfl := Option.some.inj (hservice.symm.trans hfound)
  by_cases hserving : handle.state.phase = .serving
  · have hok := hshaped.concurrency hserving
    unfold Service.Setup.concurrency at hok
    rw [hsetup, hnumber] at hok
    unfold ClusterService.concurrency
    rw [hnumber]
    change Client.integer (.number concurrency) 1 32 "concurrency" = _ at hok
    unfold Client.integer at hok
    dsimp only at hok
    split_ifs at hok
    exact (Except.ok.inj hok).ge
  · rw [hshaped.idle hserving]
    exact Nat.zero_le _

/-- Where an execution is: the node of its handle, and its slot. -/
def seatOf (s : State) (w : Workers) (ticket : Nat) : Nat × Nat :=
  match w.executions[ticket]? with
  | none => (0, 0)
  | some execution =>
    match s.handles[execution.handle]? with
    | none => (0, 0)
    | some handle => (handle.node, execution.slot)

/-- **There is room for every slot.** What waits are slots of handles that are not stopped, of which the service has one
on each node, and one slot of them does not wait. -/
theorem Housed.room (hs : s.Housed) (htallied : w.Tallied) (hseated : w.Seated s v) (hlive : w.Live s)
    (hservice : s.registrations[v]? = some service) {h slot : Nat} {handle : Handle} (hget : s.handles[h]? = some handle)
    (howner : handle.service = v) (hruns : handle.state.stopped = false) (hslot : slot < handle.state.slots.length)
    (hfree : ∀ (i : Nat) execution, w.executions[i]? = some execution → execution.stage ≠ .returned →
      ¬(execution.handle = h ∧ execution.slot = slot)) :
    w.gate.waiters.length < s.nodes.length * service.concurrency := by
  have hwaiter : ∀ ticket ∈ w.gate.waiters.map Waiter.ticket, ∃ execution found, w.executions[ticket]? = some execution ∧
      execution.stage ≠ .returned ∧ s.handles[execution.handle]? = some found ∧ found.service = v ∧
      found.state.stopped = false ∧ execution.slot < found.state.slots.length ∧
      s.seatOf w ticket = (found.node, execution.slot) := by
    intro ticket hticket
    obtain ⟨waiter, hmem, rfl⟩ := List.mem_map.mp hticket
    obtain ⟨-, execution, hexecution, hstage, -⟩ := htallied.waits waiter hmem
    obtain ⟨found, hfound, hfoundService, hexecuting⟩ := hseated.slots _ execution hexecution
    obtain ⟨same, hsame, hrunning⟩ := runs_iff.mp (hlive waiter hmem execution hexecution)
    obtain rfl := Option.some.inj (hfound.symm.trans hsame)
    have hreturned : execution.stage ≠ .returned := by
      rw [hstage]
      exact Stage.noConfusion
    refine ⟨execution, found, hexecution, hreturned, hfound, hfoundService, hrunning, ?_, ?_⟩
    · exact (List.getElem?_eq_some_iff.mp (hexecuting hreturned)).1
    · unfold seatOf
      rw [hexecution]
      dsimp only
      rw [hfound]
  -- The seats of the waiters are apart, and the free slot is none of them.
  have hnodup : (w.gate.waiters.map Waiter.ticket).Nodup :=
    (List.pairwise_append.mp htallied.gate.sorted).2.1.imp fun hlt => hlt.ne
  have hseats : ((handle.node, slot) :: (w.gate.waiters.map Waiter.ticket).map (s.seatOf w)).Nodup := by
    rw [List.nodup_cons]
    constructor
    · intro hmem
      obtain ⟨ticket, hticket, hseat⟩ := List.mem_map.mp hmem
      obtain ⟨execution, found, hexecution, hreturned, hfound, hfoundService, hrunning, -, hsame⟩ := hwaiter ticket hticket
      obtain ⟨hnode, heq⟩ := Prod.mk.inj (hsame.symm.trans hseat)
      refine hfree ticket execution hexecution hreturned ⟨?_, heq⟩
      exact hs.unique hfound hget (hfoundService.trans howner.symm) hnode hrunning hruns
    · apply List.Nodup.map_on _ hnodup
      intro ticket hticket ticket' hticket' hseat
      obtain ⟨execution, found, hexecution, hreturned, hfound, hfoundService, hrunning, -, hsame⟩ := hwaiter ticket hticket
      obtain ⟨execution', found', hexecution', hreturned', hfound', hfoundService', hrunning', -, hsame'⟩ :=
        hwaiter ticket' hticket'
      obtain ⟨hnode, heq⟩ := Prod.mk.inj (hsame.symm.trans (hseat.trans hsame'))
      have hhandle := hs.unique hfound hfound' (hfoundService.trans hfoundService'.symm) hnode hrunning hrunning'
      exact hseated.apart ticket ticket' execution execution' hexecution hexecution' hreturned hreturned' hhandle heq
  have hrange : ∀ seat ∈ (handle.node, slot) :: (w.gate.waiters.map Waiter.ticket).map (s.seatOf w),
      seat ∈ List.range s.nodes.length ×ˢ List.range service.concurrency := by
    have hseat : ∀ (found : Handle) (i slot : Nat), s.handles[i]? = some found → found.service = v →
        slot < found.state.slots.length → (found.node, slot) ∈ List.range s.nodes.length ×ˢ List.range service.concurrency := by
      intro found i slot hfound hfoundService hlt
      rw [List.mem_product, List.mem_range, List.mem_range]
      refine ⟨(hs.belongs found (List.mem_of_getElem? hfound)).node, hlt.trans_le ?_⟩
      exact hs.slots_length hfound (hfoundService ▸ hservice)
    intro seat hmem
    rcases List.mem_cons.mp hmem with rfl | hmem
    · exact hseat handle h slot hget howner hslot
    · obtain ⟨ticket, hticket, rfl⟩ := List.mem_map.mp hmem
      obtain ⟨execution, found, -, -, hfound, hfoundService, -, hlt, hsame⟩ := hwaiter ticket hticket
      rw [hsame]
      exact hseat found _ _ hfound hfoundService hlt
  have hlength := (List.subperm_of_subset hseats hrange).length_le
  rw [List.length_cons, List.length_map, List.length_map, List.length_product, List.length_range, List.length_range] at hlength
  exact hlength

/-! ### Steps of the cluster client -/

/-- What a step leaves to the executions: nodes, services and handles last, and a slot that runs a job goes on only when
it settles. -/
structure Carries (op : Op) (s t : State) : Prop where
  nodes : t.nodes.length = s.nodes.length
  services : ∀ (v : Nat) service, s.registrations[v]? = some service →
    ∃ service', t.registrations[v]? = some service' ∧ service'.options = service.options
  handles : ∀ (h : Nat) handle, s.handles[h]? = some handle → ∃ handle', t.handles[h]? = some handle' ∧
    Lasts handle handle' ∧ ∀ (slot : Nat) job, handle.state.slots[slot]? = some (.executing job) →
      handle'.state.slots[slot]? = some (.executing job) ∨ ∃ outcome socket, op = .service h (.settle slot outcome socket)

theorem Housed.carries (hs : s.Housed) {options : Options} {now : ℚ} {op : Op} (hstep : s.Step options now op t) :
    Carries op s t := by
  by_cases hop : ∃ h step, op = .service h step
  · obtain ⟨h, step, rfl⟩ := hop
    obtain ⟨handle, state, hget, hmoved, hchanges⟩ := service_changes hstep
    have hgrows := hchanges.grows
    refine ⟨hgrows.nodes, hgrows.services, fun i found hfound => ?_⟩
    by_cases hi : h = i
    · subst hi
      obtain rfl := Option.some.inj (hget.symm.trans hfound)
      have hnext : (s.setHandle h state).handles[h]? = some { handle with state := state } := by
        rw [getElem?_setHandle, hget, Option.map_some, if_pos rfl]
      obtain ⟨handle', hget', hlasts, hslots⟩ := hgrows.handles h _ hnext
      refine ⟨handle', hget', (hs.service_lasts hget hmoved).2.trans hlasts, fun slot job hexecuting => ?_⟩
      rw [hslots]
      have hshaped := (hs.belongs handle (List.mem_of_getElem? hget)).shaped
      rcases Service.State.step_executing hshaped hmoved hexecuting with hstill | ⟨outcome, socket, rfl⟩
      · exact Or.inl hstill
      · exact Or.inr ⟨outcome, socket, rfl⟩
    · have hnext : (s.setHandle h state).handles[i]? = some found := by
        rw [getElem?_setHandle, hfound, Option.map_some, if_neg hi]
      obtain ⟨found', hget', hlasts, hslots⟩ := hgrows.handles i found hnext
      exact ⟨found', hget', hlasts, fun slot job hexecuting => Or.inl (hslots ▸ hexecuting)⟩
  · have hgrows := (step_changes hs (fun h step heq => hop ⟨h, step, heq⟩) hstep).grows
    refine ⟨hgrows.nodes, hgrows.services, fun h handle hget => ?_⟩
    obtain ⟨handle', hget', hlasts, hslots⟩ := hgrows.handles h handle hget
    exact ⟨handle', hget', hlasts, fun slot job hexecuting => Or.inl (hslots ▸ hexecuting)⟩

/-- A slot that has got a job had none, and is of a handle that is not stopped. -/
theorem taken_cases {options : Options} {now : ℚ} {h slot : Nat}
    (hstep : s.Step options now (.service h (.taken slot)) t) {handle' : Handle} (hget' : t.handles[h]? = some handle')
    {job : Rpc.Job} (hexecuting : handle'.state.slots[slot]? = some (.executing job)) :
    ∃ handle, s.handles[h]? = some handle ∧ handle'.service = handle.service ∧ handle.state.stopped = false ∧
      ∃ promise, handle.state.slots[slot]? = some (.taking promise) := by
  obtain ⟨handle, state, hget, hmoved, hchanges⟩ := service_changes hstep
  have hnext : (s.setHandle h state).handles[h]? = some { handle with state := state } := by
    rw [getElem?_setHandle, hget, Option.map_some, if_pos rfl]
  obtain ⟨found, hfound, hlasts, hslots⟩ := hchanges.grows.handles h _ hnext
  obtain rfl := Option.some.inj (hget'.symm.trans hfound)
  obtain ⟨promise, outcome, htaking, -, rfl⟩ := hmoved
  refine ⟨handle, hget, hlasts.service, ?_, promise, htaking⟩
  have hset : (handle.state.slots.set slot (.afterTake handle.state.stopped outcome))[slot]? = some (.executing job) :=
    (congrArg (·[slot]?) hslots).symm.trans hexecuting
  rw [List.getElem?_set_self (List.getElem?_eq_some_iff.mp htaking).1] at hset
  by_contra hstopped
  rw [Bool.eq_true_of_not_eq_false hstopped] at hset
  cases outcome with
  | rejected reason => cases hset
  | resolved value => cases hset

end State

/-! ### Pools -/

namespace Workers

variable {s t : State} {v : Nat} {service service' : ClusterService} {w : Workers}

/-- The executions of one service in a cluster client. -/
structure Sound (s : State) (v : Nat) (service : ClusterService) (w : Workers) : Prop where
  limit : w.gate.limit = service.concurrency
  maxWaiting : w.gate.maxWaiting = s.nodes.length * service.concurrency
  tallied : w.Tallied
  seated : w.Seated s v
  live : w.Live s

theorem Sound.kept (h : w.Sound s v service) {w' : Workers} (hkept : Kept s v w w') : w'.Sound s v service where
  limit := hkept.limit.trans h.limit
  maxWaiting := hkept.maxWaiting.trans h.maxWaiting
  tallied := hkept.tallied
  seated := hkept.seated
  live := h.live.advances hkept.toAdvances fun waiter hmem => by
    obtain ⟨-, execution, hget, -⟩ := h.tallied.waits waiter hmem
    exact ⟨execution, hget⟩

/-- The slots of the executions are carried over a step. -/
theorem Seated.carried {op : Op} (h : w.Seated s v) (hcarries : State.Carries op s t)
    (hfree : ∀ (i : Nat) execution, w.executions[i]? = some execution → execution.stage ≠ .returned →
      ∀ outcome socket, op ≠ .service execution.handle (.settle execution.slot outcome socket)) : w.Seated t v where
  slots i execution hget := by
    obtain ⟨handle, hhandle, hservice, hexecuting⟩ := h.slots i execution hget
    obtain ⟨handle', hhandle', hlasts, hslots⟩ := hcarries.handles _ handle hhandle
    refine ⟨handle', hhandle', hlasts.service.trans hservice, fun hreturned => ?_⟩
    rcases hslots _ _ (hexecuting hreturned) with hstill | ⟨outcome, socket, heq⟩
    · exact hstill
    · exact absurd heq (hfree i execution hget hreturned outcome socket)
  apart := h.apart

theorem concurrency_congr (h : service'.options = service.options) : service'.concurrency = service.concurrency := by
  unfold ClusterService.concurrency
  rw [h]

/-- After a step, the handles that it closed are swept. -/
theorem swept_sound {op : Op} (hcarries : State.Carries op s t) (hoptions : service'.options = service.options)
    (hlimit : w.gate.limit = service.concurrency) (hmost : w.gate.maxWaiting = s.nodes.length * service.concurrency)
    (htallied : w.Tallied) (hseated : w.Seated t v) (hlive : w.Live s) :
    (w.sweep fun h => s.runs h && !t.runs h).Sound t v service' := by
  obtain ⟨hkept, hleft⟩ := sweep_kept htallied hseated fun h => s.runs h && !t.runs h
  refine ⟨?_, ?_, hkept.tallied, hkept.seated, fun waiter hmem execution hget => ?_⟩
  · rw [hkept.limit, hlimit, concurrency_congr hoptions]
  · rw [hkept.maxWaiting, hmost, hcarries.nodes, concurrency_congr hoptions]
  · have hrun : (w.sweep fun h => s.runs h && !t.runs h).Live s :=
      hlive.advances hkept.toAdvances fun other hother => by
        obtain ⟨-, found, hfound, -⟩ := htallied.waits other hother
        exact ⟨found, hfound⟩
    have hclosed := hleft waiter hmem execution hget
    rw [hrun waiter hmem execution hget, Bool.true_and] at hclosed
    simpa using hclosed

theorem new_sound (s : State) (v : Nat) (service : ClusterService) : (new s.nodes.length service).Sound s v service where
  limit := rfl
  maxWaiting := rfl
  tallied := by
    refine ⟨HandlerGate.new_inv _ _, rfl, fun _ hmem => ?_, fun _ _ hget => ?_, fun _ _ _ hget => ?_, fun _ _ hmem => ?_⟩
    · cases hmem
    · cases hget
    · cases hget
    · cases hmem
  seated := by
    refine ⟨fun _ _ hget => ?_, fun _ _ _ _ hget => ?_⟩
    · cases hget
    · cases hget
  live _ hmem := by cases hmem

end Workers

namespace Pool

variable {options : Options} {now : ℚ} {p q : Pool}

structure Inv (p : Pool) : Prop where
  housed : p.cluster.Housed
  length : p.workers.length = p.cluster.registrations.length
  sound : ∀ (v : Nat) service w, p.cluster.registrations[v]? = some service → p.workers[v]? = some w →
    w.Sound p.cluster v service

theorem getElem?_modifyWorkers (u v : Nat) (f : Workers → Workers) (p : Pool) :
    (p.modifyWorkers u f).workers[v]? = (p.workers[v]?).map fun w => if u = v then f w else w :=
  List.getElem?_modify f u p.workers v

theorem getElem?_modifyWorkers_ne {u v : Nat} (h : u ≠ v) (f : Workers → Workers) (p : Pool) :
    (p.modifyWorkers u f).workers[v]? = p.workers[v]? := by
  rw [getElem?_modifyWorkers]
  simp [h]

/-- Every handle is of a service that has its gate. -/
theorem Inv.owner_lt (h : p.Inv) {i : Nat} {handle : Handle} (hget : p.cluster.handles[i]? = some handle) :
    handle.service < p.workers.length := by
  obtain ⟨service, -, hfound, -⟩ := (h.housed.belongs handle (List.mem_of_getElem? hget)).service
  rw [h.length]
  exact (List.getElem?_eq_some_iff.mp hfound).1

/-- Only the workers of one service have moved on. -/
theorem Inv.modify (h : p.Inv) {v : Nat} {w : Workers} (hget : p.workers[v]? = some w) {f : Workers → Workers}
    (hf : w.Tallied → w.Seated p.cluster v → Workers.Kept p.cluster v w (f w)) : (p.modifyWorkers v f).Inv where
  housed := h.housed
  length := (List.length_modify ..).trans h.length
  sound u service w' hservice hget' := by
    rw [getElem?_modifyWorkers, Option.map_eq_some_iff] at hget'
    obtain ⟨old, hold, rfl⟩ := hget'
    have hsound := h.sound u service old hservice hold
    split_ifs with hu
    · subst hu
      obtain rfl := Option.some.inj (hget.symm.trans hold)
      exact hsound.kept (hf hsound.tallied hsound.seated)
    · exact hsound

theorem length_follow {cluster : State} (hlength : p.workers.length ≤ cluster.registrations.length) :
    (p.follow cluster).workers.length = cluster.registrations.length := by
  change (p.workers ++ (cluster.registrations.drop p.workers.length).map _).length = _
  rw [List.length_append, List.length_map, List.length_drop]
  omega

/-- The workers after a step of the cluster client are those from before or new. -/
theorem getElem?_follow {cluster : State} {v : Nat} {service : ClusterService} {w : Workers}
    (hservice : cluster.registrations[v]? = some service) (hget : (p.follow cluster).workers[v]? = some w) :
    p.workers[v]? = some w ∨ (p.workers.length ≤ v ∧ w = .new cluster.nodes.length service) := by
  change (p.workers ++ (cluster.registrations.drop p.workers.length).map _)[v]? = some w at hget
  rw [List.getElem?_append] at hget
  split_ifs at hget with hlt
  · exact Or.inl hget
  · right
    rw [List.getElem?_map, List.getElem?_drop, show p.workers.length + (v - p.workers.length) = v by omega, hservice] at hget
    exact ⟨not_lt.mp hlt, (Option.some.inj hget).symm⟩

/-- A step of the cluster client and what its executions make of it: those of a service may have moved on before the
closed handles are swept. -/
theorem Inv.swept (h : p.Inv) {op : Cluster.Op} {cluster : State} (hstep : p.cluster.Step options now op cluster)
    (hafter : ∀ (v : Nat) service service' w, p.cluster.registrations[v]? = some service →
      cluster.registrations[v]? = some service' → p.workers[v]? = some w → ∀ w', q.workers[v]? = some w' →
        w'.gate.limit = service.concurrency ∧ w'.gate.maxWaiting = p.cluster.nodes.length * service.concurrency ∧
        w'.Tallied ∧ w'.Seated cluster v ∧ w'.Live p.cluster)
    (hfresh : ∀ v, p.workers.length ≤ v → q.workers[v]? = (p.follow cluster).workers[v]?)
    (hcluster : q.cluster = cluster) (hlength : q.workers.length = (p.follow cluster).workers.length) :
    (q.sweep p.cluster).Inv := by
  have hcarries := h.housed.carries hstep
  have hmore : p.workers.length ≤ cluster.registrations.length := by
    rw [h.length]
    by_contra hless
    obtain ⟨service', hget', -⟩ := hcarries.services _ _ (List.getElem?_eq_getElem (not_le.mp hless))
    rw [List.getElem?_eq_none (le_refl _)] at hget'
    cases hget'
  refine ⟨?_, ?_, fun v service' w' hservice' hget' => ?_⟩
  · change q.cluster.Housed
    rw [hcluster]
    exact h.housed.step hstep
  · change (q.workers.map _).length = q.cluster.registrations.length
    rw [List.length_map, hlength, length_follow hmore, hcluster]
  · change (q.workers.map _)[v]? = some w' at hget'
    rw [List.getElem?_map, Option.map_eq_some_iff] at hget'
    obtain ⟨w, hget, rfl⟩ := hget'
    change q.cluster.registrations[v]? = some service' at hservice'
    change Workers.Sound q.cluster v service' _
    rw [hcluster] at hservice' ⊢
    by_cases hv : v < p.workers.length
    · have hlt : v < p.cluster.registrations.length := h.length ▸ hv
      have hservice := List.getElem?_eq_getElem hlt
      have hold := List.getElem?_eq_getElem hv
      obtain ⟨found, hfound, hoptions⟩ := hcarries.services v _ hservice
      obtain rfl := Option.some.inj (hservice'.symm.trans hfound)
      obtain ⟨hlimit, hmost, htallied, hseated, hlive⟩ := hafter v _ service' _ hservice hservice' hold w hget
      exact Workers.swept_sound hcarries hoptions hlimit hmost htallied hseated hlive
    · rw [hfresh v (not_lt.mp hv)] at hget
      rcases getElem?_follow hservice' hget with hold | ⟨-, rfl⟩
      · exact absurd (List.getElem?_eq_some_iff.mp hold).1 hv
      · have hnew := Workers.new_sound cluster v service'
        obtain ⟨hkept, -⟩ := Workers.sweep_kept hnew.tallied hnew.seated fun h => p.cluster.runs h && !cluster.runs h
        exact hnew.kept hkept

/-- The workers of a service before a step of the cluster client are those after it. -/
theorem follow_get {cluster : State} {v : Nat} {w w' : Workers} (hget : p.workers[v]? = some w)
    (hget' : (p.follow cluster).workers[v]? = some w') : w' = w := by
  change (p.workers ++ _)[v]? = some w' at hget'
  rw [List.getElem?_append_left (List.getElem?_eq_some_iff.mp hget).1, hget] at hget'
  exact (Option.some.inj hget').symm

/-- A step that neither starts nor ends an execution. -/
theorem Inv.idle (h : p.Inv) {op : Cluster.Op} {cluster : State} (hstep : p.cluster.Step options now op cluster)
    (hop : ∀ h slot outcome socket, op ≠ .service h (.settle slot outcome socket)) :
    ((p.follow cluster).sweep p.cluster).Inv := by
  refine h.swept hstep (fun v service service' w hservice _ hget w' hget' => ?_) (fun _ _ => rfl) rfl rfl
  obtain rfl := follow_get hget hget'
  have hsound := h.sound v service w' hservice hget
  refine ⟨hsound.limit, hsound.maxWaiting, hsound.tallied, ?_, hsound.live⟩
  exact hsound.seated.carried (h.housed.carries hstep) fun _ _ _ _ _ _ => hop _ _ _ _

/-- A slot gets a job. -/
theorem Inv.start (h : p.Inv) {i slot : Nat} {cluster : State}
    (hstep : p.cluster.Step options now (.service i (.taken slot)) cluster) :
    (((p.follow cluster).start now i slot).sweep p.cluster).Inv := by
  have hcarries := h.housed.carries hstep
  have hidle : ∀ h k outcome socket, Op.service i (.taken slot) ≠ .service h (.settle k outcome socket) := by
    intro h k outcome socket heq
    cases heq
  unfold Pool.start
  split
  · exact h.idle hstep hidle
  rename_i handle' hget'
  split
  · rename_i job hexecuting
    obtain ⟨handle, hget, hservice, hrunning, promise, htaking⟩ := State.taken_cases hstep hget' hexecuting
    refine h.swept hstep (fun v service service' w hfound hfound' hold w' hnew => ?_) (fun v hv => ?_) rfl ?_
    · rw [getElem?_modifyWorkers, Option.map_eq_some_iff] at hnew
      obtain ⟨w₀, hw₀, rfl⟩ := hnew
      obtain rfl := follow_get hold hw₀
      have hsound := h.sound v service w₀ hfound hold
      have hseated := hsound.seated.carried hcarries fun _ _ _ _ _ _ => hidle _ _ _ _
      split_ifs with hv
      · -- The slot was taking, so that no execution is there.
        have hfree : ∀ (j : Nat) other, w₀.executions[j]? = some other → other.stage ≠ .returned →
            ¬(other.handle = i ∧ other.slot = slot) := by
          rintro j other hother hreturned ⟨hhandle, hslot⟩
          obtain ⟨found, hfound, -, hexecuting⟩ := hsound.seated.slots j other hother
          rw [hhandle, hget] at hfound
          obtain rfl := Option.some.inj hfound
          rw [← hslot, hexecuting hreturned] at htaking
          cases htaking
        have howner : handle.service = v := hservice.symm.trans hv
        have hroom := h.housed.room hsound.tallied hsound.seated hsound.live hfound hget howner hrunning
          (List.getElem?_eq_some_iff.mp htaking).1 hfree
        rw [← hsound.maxWaiting] at hroom
        have hstarts := Workers.start_starts hsound.tallied now i slot job hroom
        obtain ⟨execution, hhandle, hslot, hjob, hexecutions⟩ := hstarts.executions
        refine ⟨hstarts.limit.trans hsound.limit, hstarts.maxWaiting.trans hsound.maxWaiting, hstarts.tallied, ?_,
          fun waiter hmem found hfound => ?_⟩
        · have hnew := hseated.append (w₀.start now i slot job).gate execution
            ⟨handle', hhandle ▸ hget', hv, by rw [hslot, hjob]; exact hexecuting⟩ (by rw [hhandle, hslot]; exact hfree)
          rw [← hexecutions] at hnew
          exact hnew
        · rw [hexecutions] at hfound
          rcases hstarts.waiters waiter hmem with hwaits | hlast
          · obtain ⟨-, before, hbefore, -⟩ := hsound.tallied.waits waiter hwaits
            rw [List.getElem?_append_left (List.getElem?_eq_some_iff.mp hbefore).1] at hfound
            exact hsound.live waiter hwaits found hfound
          · rw [hlast, List.getElem?_concat_length] at hfound
            rw [← Option.some.inj hfound, hhandle]
            exact State.runs_iff.mpr ⟨handle, hget, hrunning⟩
      · exact ⟨hsound.limit, hsound.maxWaiting, hsound.tallied, hseated, hsound.live⟩
    · apply getElem?_modifyWorkers_ne
      rintro rfl
      rw [hservice] at hv
      exact absurd (h.owner_lt hget) (not_lt.mpr hv)
    · exact List.length_modify ..
  · exact h.idle hstep hidle

/-- A slot goes on. -/
theorem Inv.settle (h : p.Inv) {i slot : Nat} {outcome : Outcome} {socket : Client.Socket} {cluster : State} {handle : Handle}
    {w : Workers} {ticket : Nat} {execution : Execution}
    (hstep : p.cluster.Step options now (.service i (.settle slot outcome socket)) cluster)
    (hget : p.cluster.handles[i]? = some handle) (hw : p.workers[handle.service]? = some w)
    (hexecution : w.executions[ticket]? = some execution) (hhandle : execution.handle = i) (hslot : execution.slot = slot)
    (hstage : execution.stage = .settled outcome) :
    (((p.follow cluster).modifyWorkers handle.service fun w => w.setStage ticket .returned).sweep p.cluster).Inv := by
  have hcarries := h.housed.carries hstep
  refine h.swept hstep (fun v service service' w₀ hfound hfound' hold w' hnew => ?_) (fun v hv => ?_) rfl ?_
  · rw [getElem?_modifyWorkers, Option.map_eq_some_iff] at hnew
    obtain ⟨w₁, hw₁, rfl⟩ := hnew
    obtain rfl := follow_get hold hw₁
    have hsound := h.sound v service w₁ hfound hold
    split_ifs with hv
    · subst hv
      obtain rfl := Option.some.inj (hw.symm.trans hold)
      have hkept := Workers.return_kept hsound.tallied hsound.seated hexecution hstage
      have hafter := hsound.kept hkept
      refine ⟨hafter.limit, hafter.maxWaiting, hafter.tallied, hafter.seated.carried hcarries ?_, hafter.live⟩
      intro j moved hmoved hreturned outcome' socket' heq
      -- No other execution is of this slot.
      change (w.executions.modify ticket _)[j]? = some moved at hmoved
      rw [List.getElem?_modify, Option.map_eq_map, Option.map_eq_some_iff] at hmoved
      obtain ⟨other, hother, rfl⟩ := hmoved
      by_cases hj : ticket = j
      · rw [if_pos hj] at hreturned
        exact hreturned rfl
      · rw [if_neg hj] at hreturned heq
        apply hj
        cases heq
        apply hsound.seated.apart ticket j execution other hexecution hother _ hreturned hhandle hslot
        rw [hstage]
        exact Stage.noConfusion
    · refine ⟨hsound.limit, hsound.maxWaiting, hsound.tallied, hsound.seated.carried hcarries ?_, hsound.live⟩
      intro j other hother _ outcome' socket' heq
      cases heq
      obtain ⟨found, hfound, howner, -⟩ := hsound.seated.slots j other hother
      obtain rfl := Option.some.inj (hget.symm.trans hfound)
      exact hv howner
  · apply getElem?_modifyWorkers_ne
    rintro rfl
    exact absurd (h.owner_lt hget) (not_lt.mpr hv)
  · exact List.length_modify ..

theorem Inv.step (h : p.Inv) {op : Op} (hstep : p.Step options now op q) : q.Inv := by
  cases op with
  | cluster op =>
      obtain ⟨cluster, hcluster, hrest⟩ := hstep
      split at hrest
      · rw [hrest]
        exact h.start hcluster
      · obtain ⟨handle, w, ticket, execution, hget, hw, hexecution, hhandle, hslot, hstage, rfl⟩ := hrest
        exact h.settle hcluster hget hw hexecution hhandle hslot hstage
      · rename_i hsettle
        rw [hrest]
        exact h.idle hcluster fun i slot outcome socket heq => hsettle i slot outcome socket heq
  | deadline v ticket =>
      obtain ⟨w, execution, hw, -, -, -, -, rfl⟩ := hstep
      exact h.modify hw fun htallied hseated => (Workers.cancel_kept htallied hseated ticket _).1
  | admitted v ticket =>
      obtain ⟨w, execution, verdict, hw, hget, hstage, hsettled, rfl⟩ := hstep
      exact h.modify hw fun htallied hseated => Workers.proceed_kept htallied hseated hget hstage hsettled now
  | finished v ticket outcome =>
      obtain ⟨w, execution, remainingMs, hw, hget, hstage, rfl⟩ := hstep
      refine h.modify hw fun htallied hseated => ?_
      have hgranted := htallied.running ticket execution remainingMs hget hstage
      refine Workers.finish_kept htallied hseated hget ?_ hgranted outcome
      rw [hstage]
      exact Stage.noConfusion

end Pool

theorem State.foldl_connectNode_registrations (options : Options) (ns : List Nat) (s : State) :
    (ns.foldl (fun s n => s.connectNode options n) s).registrations = s.registrations := by
  have hone : ∀ (s : State) (n : Nat), (s.connectNode options n).registrations = s.registrations := by
    intro s n
    unfold connectNode
    dsimp only
    split
    · rfl
    · split_ifs
      · rfl
      · split <;> rfl
  induction ns generalizing s with
  | nil => rfl
  | cons n ns ih => exact (ih _).trans (hone s n)

theorem pools_inv {options : Options} {p : Pool} (h : (pools options).Reachable p) : p.Inv := by
  apply h.invariant
  · rintro p ⟨hstart, hworkers⟩
    have hreachable : (machine options).Reachable p.cluster := .of_start hstart
    have hnone : p.cluster.registrations = [] := by
      rw [show p.cluster = _ from hstart]
      exact State.foldl_connectNode_registrations options _ (.new options)
    refine ⟨housed hreachable, by rw [hworkers, hnone]; rfl, fun v service w hservice => ?_⟩
    rw [hnone] at hservice
    cases hservice
  · intro p event q _ hinv hstep
    exact hinv.step hstep

/-- A step leaves the cluster client alone or is one of it. -/
theorem Pool.step_cluster {options : Options} {now : ℚ} {p q : Pool} {op : Pool.Op} (hstep : p.Step options now op q) :
    q.cluster = p.cluster ∨ ∃ op, p.cluster.Step options now op q.cluster := by
  cases op with
  | cluster op =>
      obtain ⟨cluster, hcluster, hrest⟩ := hstep
      have hq : q.cluster = cluster := by
        split at hrest
        · rw [hrest]
          change ((p.follow cluster).start now _ _).cluster = _
          unfold Pool.start
          split
          · rfl
          · split <;> rfl
        · obtain ⟨handle, w, ticket, execution, -, -, -, -, -, -, rfl⟩ := hrest
          rfl
        · rw [hrest]
          rfl
      exact Or.inr ⟨op, hq ▸ hcluster⟩
  | deadline v ticket =>
      obtain ⟨w, execution, -, -, -, -, -, rfl⟩ := hstep
      exact Or.inl rfl
  | admitted v ticket =>
      obtain ⟨w, execution, verdict, -, -, -, -, rfl⟩ := hstep
      exact Or.inl rfl
  | finished v ticket outcome =>
      obtain ⟨w, execution, remainingMs, -, -, -, rfl⟩ := hstep
      exact Or.inl rfl

theorem pools_nodes {options : Options} {p : Pool} (h : (pools options).Reachable p) :
    p.cluster.nodes.length = options.brokers.length := by
  apply h.invariant
  · rintro p ⟨hstart, -⟩
    rw [show p.cluster = _ from hstart,
      (State.Changes.foldl (fun s n => State.connectNode_changes n s) _ (.new options)).grows.nodes]
    exact List.length_map ..
  · intro p event q hp hnodes hstep
    rcases Pool.step_cluster hstep with hsame | ⟨op, hcluster⟩
    · rw [hsame]
      exact hnodes
    · exact ((pools_inv hp).housed.carries hcluster).nodes.trans hnodes

/-! ### What runs goes on -/

namespace Workers

variable {w : Workers} {ticket remainingMs : Nat}

/-- The handler of the user runs in an execution. -/
def Runs (w : Workers) (ticket remainingMs : Nat) : Prop :=
  ∃ execution, w.executions[ticket]? = some execution ∧ execution.stage = .running remainingMs

theorem mem_running : ticket ∈ w.running ↔ ∃ remainingMs, w.Runs ticket remainingMs := by
  unfold running Runs
  rw [List.mem_filter, List.mem_range]
  constructor
  · rintro ⟨-, hrunning⟩
    split at hrunning
    · rename_i h slot job started reason remainingMs hget
      exact ⟨remainingMs, _, hget, rfl⟩
    · cases hrunning
  · rintro ⟨remainingMs, ⟨h, slot, job, started, reason, stage⟩, hget, hstage⟩
    obtain rfl : stage = .running remainingMs := hstage
    refine ⟨(List.getElem?_eq_some_iff.mp hget).1, ?_⟩
    rw [hget]

theorem Runs.modify (h : w.Runs ticket remainingMs) (gate : HandlerGate) {other : Nat} {f : Execution → Execution}
    (hf : other ≠ ticket ∨ ∀ execution, (f execution).stage = execution.stage) :
    Runs ⟨gate, w.executions.modify other f⟩ ticket remainingMs := by
  obtain ⟨execution, hget, hstage⟩ := h
  refine ⟨if other = ticket then f execution else execution, ?_, ?_⟩
  · change (w.executions.modify other f)[ticket]? = _
    rw [List.getElem?_modify, hget]
    rfl
  · split_ifs with hother
    · rw [hf.resolve_left (not_not.mpr hother)]
      exact hstage
    · exact hstage

theorem Runs.cancel (h : w.Runs ticket remainingMs) (other : Nat) (reason : Failure) :
    (w.cancel other reason).Runs ticket remainingMs := by
  unfold Workers.cancel
  split
  · exact h
  · split_ifs
    · exact h
    · exact h.modify _ (Or.inr fun _ => rfl)

theorem Runs.sweep (h : w.Runs ticket remainingMs) (closed : Nat → Bool) : (w.sweep closed).Runs ticket remainingMs := by
  have hloop : ∀ (tickets : List Nat) (u : Workers), u.Runs ticket remainingMs →
      (tickets.foldl (interrupt closed) u).Runs ticket remainingMs := by
    intro tickets
    induction tickets with
    | nil => exact fun u hu => hu
    | cons other tickets ih =>
        intro u hu
        apply ih
        unfold interrupt
        split
        · exact hu
        · split_ifs
          · exact hu.cancel other _
          · exact hu
  exact hloop _ w h

theorem Runs.start (h : w.Runs ticket remainingMs) (now : ℚ) (i slot : Nat) (job : Rpc.Job) :
    (w.start now i slot job).Runs ticket remainingMs := by
  obtain ⟨execution, hget, hstage⟩ := h
  have happend : ∀ later : Execution, (w.executions ++ [later])[ticket]? = some execution := by
    intro later
    rw [List.getElem?_append_left (List.getElem?_eq_some_iff.mp hget).1]
    exact hget
  unfold Workers.start
  dsimp only
  split_ifs
  · exact ⟨execution, happend _, hstage⟩
  · exact ⟨execution, happend _, hstage⟩

theorem Runs.proceed (h : w.Runs ticket remainingMs) {other : Nat} (hother : other ≠ ticket) (now : ℚ) (execution : Execution)
    (verdict : Verdict) : (w.proceed now other execution verdict).Runs ticket remainingMs := by
  have hset : ∀ (gate : HandlerGate) (stage : Stage), Runs (setStage other stage ⟨gate, w.executions⟩) ticket remainingMs :=
    fun gate stage => h.modify gate (Or.inl hother)
  unfold Workers.proceed
  split
  · exact hset _ _
  · exact h
  · exact hset _ _
  · exact hset _ _
  · dsimp only
    split_ifs
    · exact hset _ _
    · exact hset _ _

end Workers

namespace Pool

variable {options : Options} {now : ℚ} {p q : Pool} {v ticket remainingMs : Nat}

/-- The handler of the user runs in an execution of a service. -/
def Runs (p : Pool) (v ticket remainingMs : Nat) : Prop := ∃ w, p.workers[v]? = some w ∧ w.Runs ticket remainingMs

theorem Runs.modifyWorkers (h : p.Runs v ticket remainingMs) {u : Nat} {f : Workers → Workers}
    (hf : ∀ w, p.workers[v]? = some w → u = v → w.Runs ticket remainingMs → (f w).Runs ticket remainingMs) :
    (p.modifyWorkers u f).Runs v ticket remainingMs := by
  obtain ⟨w, hget, hruns⟩ := h
  refine ⟨if u = v then f w else w, ?_, ?_⟩
  · rw [getElem?_modifyWorkers, hget, Option.map_some]
  · split_ifs with hu
    · exact hf w hget hu hruns
    · exact hruns

theorem Runs.follow (h : p.Runs v ticket remainingMs) (cluster : State) : (p.follow cluster).Runs v ticket remainingMs := by
  obtain ⟨w, hget, hruns⟩ := h
  refine ⟨w, ?_, hruns⟩
  change (p.workers ++ _)[v]? = _
  rw [List.getElem?_append_left (List.getElem?_eq_some_iff.mp hget).1]
  exact hget

theorem Runs.sweep (h : p.Runs v ticket remainingMs) (before : State) : (p.sweep before).Runs v ticket remainingMs := by
  obtain ⟨w, hget, hruns⟩ := h
  refine ⟨w.sweep fun h => before.runs h && !p.cluster.runs h, ?_, hruns.sweep _⟩
  change (p.workers.map _)[v]? = _
  rw [List.getElem?_map, hget]
  rfl

/-- An execution ends only when the handler of the user settles. -/
theorem Runs.step (h : p.Runs v ticket remainingMs) {op : Op} (hop : ∀ outcome, op ≠ .finished v ticket outcome)
    (hstep : p.Step options now op q) : q.Runs v ticket remainingMs := by
  obtain ⟨w₀, hw₀, execution₀, hexecution₀, hrunning₀⟩ := id h
  cases op with
  | cluster op =>
      obtain ⟨cluster, hcluster, hrest⟩ := hstep
      have hfollow := h.follow cluster
      split at hrest
      · rw [hrest]
        apply Runs.sweep
        unfold Pool.start
        split
        · exact hfollow
        · split
          · exact hfollow.modifyWorkers fun w _ _ hruns => hruns.start now _ _ _
          · exact hfollow
      · obtain ⟨handle, w, other, execution, -, hw, hexecution, -, -, hstage, rfl⟩ := hrest
        apply Runs.sweep
        refine hfollow.modifyWorkers fun w' hw' hv hruns => hruns.modify _ (Or.inl ?_)
        rintro rfl
        rw [hv, hw₀] at hw
        obtain rfl := Option.some.inj hw
        obtain rfl := Option.some.inj (hexecution.symm.trans hexecution₀)
        cases hstage.symm.trans hrunning₀
      · rw [hrest]
        exact hfollow.sweep _
  | deadline u other =>
      obtain ⟨w, execution, -, -, -, -, -, rfl⟩ := hstep
      exact h.modifyWorkers fun w _ _ hruns => hruns.cancel other _
  | admitted u other =>
      obtain ⟨w, execution, verdict, hw, hget, hstage, -, rfl⟩ := hstep
      refine h.modifyWorkers fun w' hw' hu hruns => hruns.proceed ?_ now execution verdict
      rintro rfl
      rw [hu, hw₀] at hw
      obtain rfl := Option.some.inj hw
      obtain rfl := Option.some.inj (hget.symm.trans hexecution₀)
      cases hstage.symm.trans hrunning₀
  | finished u other outcome =>
      obtain ⟨w, execution, remaining, -, -, -, rfl⟩ := hstep
      refine h.modifyWorkers fun w' _ hu hruns => hruns.modify _ (Or.inl ?_)
      rintro rfl
      exact hop outcome (by rw [hu])

end Pool

/-- What a service keeps of its handler, for the nodes of its cluster client. -/
structure Pool.Bounded (options : Options) (p : Pool) (v : Nat) (service : ClusterService) (w : Workers) : Prop where
  running : w.running.length ≤ service.concurrency
  counted : w.gate.active = w.gate.held.length ∧ w.running ⊆ w.gate.held
  /-- What runs keeps its place until it settles, whatever becomes of its handle. -/
  lasting : ∀ ticket ∈ w.running, ∀ events q, (pools options).Run p events q →
    (∀ event ∈ events, ∀ outcome, event.2 ≠ .finished v ticket outcome) →
    ∃ w', q.workers[v]? = some w' ∧ ticket ∈ w'.running ∧ ticket ∈ w'.gate.held
  one : ∀ (h i : Nat) handle handle', p.cluster.handles[h]? = some handle → p.cluster.handles[i]? = some handle' →
    handle.service = v → handle'.service = v → handle.node = handle'.node → handle.state.stopped = false →
    handle'.state.stopped = false → h = i
  placed : ∀ (h : Nat) handle, p.cluster.handles[h]? = some handle → handle.service = v → handle.state.stopped = false →
    State.Placed service handle.node h
  admitted : ∀ ticket message, (ticket, Verdict.refused message) ∉ w.gate.settled
  /-- A waiter is only added where there were fewer. -/
  room : ∀ now op q w', p.Step options now op q → q.workers[v]? = some w' →
    w.gate.waiters.length < w'.gate.waiters.length →
    w.gate.waiters.length < options.brokers.length * service.concurrency

theorem Workers.Sound.running_held {s : State} {v : Nat} {service : ClusterService} {w : Workers} (h : w.Sound s v service) :
    w.running ⊆ w.gate.held := by
  intro ticket hticket
  obtain ⟨remainingMs, execution, hget, hstage⟩ := Workers.mem_running.mp hticket
  have hgranted := h.tallied.running ticket execution remainingMs hget hstage
  refine List.mem_filter.mpr ⟨hgranted, decide_eq_true fun hreleased => ?_⟩
  rw [h.tallied.held ticket execution hget hgranted, hstage] at hreleased
  cases hreleased

/-- **The handlers of a cluster service are bounded over all its connections.** -/
theorem handlers_bounded (options : Options) (p : Pool) (h : (pools options).Reachable p) (v : Nat) (service : ClusterService)
    (hservice : p.cluster.registrations[v]? = some service) :
    ∃ w, p.workers[v]? = some w ∧ p.Bounded options v service w := by
  have hinv := pools_inv h
  have hlt : v < p.workers.length := by
    rw [hinv.length]
    exact (List.getElem?_eq_some_iff.mp hservice).1
  have hget := List.getElem?_eq_getElem hlt
  generalize p.workers[v] = w at hget
  have hsound := hinv.sound v service w hservice hget
  have hgate := hsound.tallied.gate
  refine ⟨w, hget, ?_, ⟨hgate.active, hsound.running_held⟩, fun ticket hticket events q hrun hevents => ?_,
    fun i j handle handle' hi hj hv hv' hnode hrunning hrunning' => ?_, fun i handle hi hv hrunning => ?_,
    hsound.tallied.refused, fun now op q w' hstep hget' hmore => ?_⟩
  · have hnodup : w.running.Nodup := List.nodup_range.filter _
    have hfewer := (List.subperm_of_subset hnodup hsound.running_held).length_le
    have hbounded := hgate.bounded
    rw [hgate.active, hsound.limit] at hbounded
    exact hfewer.trans (Int.ofNat_le.mp hbounded)
  · obtain ⟨remainingMs, hruns⟩ := Workers.mem_running.mp hticket
    have hstill : q.Runs v ticket remainingMs := by
      apply hrun.preserves (A := fun event => ∀ outcome, event.2 ≠ .finished v ticket outcome) _ h ⟨w, hget, hruns⟩ hevents
      intro u event u' _ hu hevent hstep
      exact hu.step hevent hstep
    obtain ⟨w', hget', hruns'⟩ := hstill
    have hinv' := pools_inv (h.run hrun)
    have hlt' := (List.getElem?_eq_some_iff.mp hget').1
    rw [hinv'.length] at hlt'
    have hmem := Workers.mem_running.mpr ⟨remainingMs, hruns'⟩
    exact ⟨w', hget', hmem, (hinv'.sound v _ w' (List.getElem?_eq_getElem hlt') hget').running_held hmem⟩
  · exact hinv.housed.unique hi hj (hv.trans hv'.symm) hnode hrunning hrunning'
  · exact hinv.housed.placed i handle service hi hrunning (hv ▸ hservice)
  · have hq : (pools options).Reachable q := h.step (l := (now, op)) hstep
    have hlasts : ∃ service', q.cluster.registrations[v]? = some service' ∧ service'.options = service.options := by
      rcases Pool.step_cluster hstep with hsame | ⟨op, hcluster⟩
      · exact ⟨service, hsame ▸ hservice, rfl⟩
      · exact (hinv.housed.carries hcluster).services v service hservice
    obtain ⟨service', hservice', hoptions⟩ := hlasts
    have hsound' := (pools_inv hq).sound v service' w' hservice' hget'
    have hqueue := hsound'.tallied.gate.queue
    rw [hsound'.maxWaiting, pools_nodes hq, Workers.concurrency_congr hoptions] at hqueue
    exact hmore.trans_le hqueue

/-! ### A handler that runs -/

namespace Sample

theorem pools_of_machine {s : State} (h : (machine options).Reachable s) :
    s.registrations = [] → (pools options).Reachable ⟨s, []⟩ := by
  apply h.invariant
  · exact fun s hs _ => .of_start ⟨hs, rfl⟩
  · rintro s ⟨now, op⟩ t hs ih hstep hnone
    have hbefore : s.registrations = [] := by
      cases hregistrations : s.registrations with
      | nil => rfl
      | cons service services =>
          obtain ⟨service', hget, -⟩ := ((housed hs).carries hstep).services 0 service (by rw [hregistrations]; rfl)
          rw [hnone] at hget
          cases hget
    have hservice : ∀ i op, ¬s.Step options now (.service i op) t := by
      rintro i op ⟨handle, state, hget, -⟩
      obtain ⟨service, -, hfound, -⟩ := ((housed hs).belongs handle (List.mem_of_getElem? hget)).service
      rw [hbefore] at hfound
      cases hfound
    have hpool : (Pool.follow t ⟨s, []⟩).sweep s = ⟨t, []⟩ := by
      unfold Pool.follow Pool.sweep
      rw [hnone]
      rfl
    apply (ih hbefore).step (l := (now, Pool.Op.cluster op))
    refine ⟨t, hstep, ?_⟩
    split
    · exact absurd hstep (hservice _ _)
    · exact absurd hstep (hservice _ _)
    · exact hpool.symm

theorem sweep_of_false {w : Workers} {closed : Nat → Bool} (h : ∀ i, closed i = false) : w.sweep closed = w := by
  have hone : ∀ (u : Workers) (ticket : Nat), u.interrupt closed ticket = u := by
    intro u ticket
    unfold Workers.interrupt
    split
    · rfl
    · rw [if_neg]
      rw [h]
      exact fun hboth => Bool.false_ne_true hboth.1
  have hloop : ∀ tickets : List Nat, tickets.foldl (Workers.interrupt closed) w = w := by
    intro tickets
    induction tickets with
    | nil => rfl
    | cons ticket tickets ih =>
        rw [List.foldl_cons, hone]
        exact ih
  exact hloop _

theorem follow_registered (state : Service.State) {next : Service.State} (hnext : next.stopped = false) :
    (registered state).follow options 0 0 ⟨0, 0, 0, 0, setup, state⟩ next = registered next := by
  unfold State.follow
  dsimp only
  rw [if_neg]
  · rfl
  · rw [hnext]
    exact fun hall => Bool.false_ne_true hall.2.1

theorem registered_runs {state : Service.State} (hrunning : state.stopped = false) (i : Nat) :
    (registered state).runs i = decide (i = 0) := by
  cases i with
  | zero => exact congrArg not hrunning
  | succ i => rfl

theorem sweep_registered {state next : Service.State} (hrunning : state.stopped = false) (hnext : next.stopped = false)
    (ws : List Workers) : Pool.sweep (registered state) ⟨registered next, ws⟩ = ⟨registered next, ws⟩ := by
  have hsame : ∀ i, ((registered state).runs i && !(registered next).runs i) = false := by
    intro i
    rw [registered_runs hrunning, registered_runs hnext, Bool.and_not_self]
  refine congrArg (Pool.mk (registered next)) ?_
  apply (List.map_congr_left fun w _ => sweep_of_false hsame).trans
  exact List.map_id ws

/-- A step of the service that neither gets a job nor ends one. -/
theorem service_next {state next : Service.State} {w : Workers} (h : (pools options).Reachable ⟨registered state, [w]⟩)
    (op : Service.Op) (hstep : state.Step setup op next) (hrunning : state.stopped = false) (hnext : next.stopped = false)
    (hop : match op with
      | .child _ | .announce _ | .serve | .take _ _ => True
      | _ => False) : (pools options).Reachable ⟨registered next, [w]⟩ := by
  apply h.step (l := ((0 : ℚ), Pool.Op.cluster (.service 0 op)))
  have hcluster : (registered state).Step options 0 (.service 0 op) (registered next) := by
    refine ⟨⟨0, 0, 0, 0, setup, state⟩, next, rfl, hstep, ?_⟩
    have hfollow := (follow_registered state hnext).symm
    have hopen : ready.isOpen 0 = true := by decide
    cases op with
    | child op => exact hfollow
    | announce socket => exact ⟨hopen, hfollow⟩
    | serve => exact ⟨hopen, hfollow⟩
    | take slot socket => exact hfollow
    | abandon => exact hop.elim
    | close => exact hop.elim
    | onFailure slot => exact hop.elim
    | taken slot => exact hop.elim
    | settle slot outcome socket => exact hop.elim
    | completed slot => exact hop.elim
  refine ⟨registered next, hcluster, ?_⟩
  have hsweep := (sweep_registered hrunning hnext [w]).symm
  cases op with
  | child op => exact hsweep
  | announce socket => exact hsweep
  | serve => exact hsweep
  | take slot socket => exact hsweep
  | abandon => exact hop.elim
  | close => exact hop.elim
  | onFailure slot => exact hop.elim
  | taken slot => exact hop.elim
  | settle slot outcome socket => exact hop.elim
  | completed slot => exact hop.elim

open Service.Sample (ambient)

/-- What the connection of the service returns. -/
theorem calls {state : Service.State} {op : Client.Op (Option Rpc.Job)} (hop : state.child.Enabled op)
    (hsome : (state.child.next none op).isSome = true) : state.Calls op ((state.child.next none op).getD state.child) := by
  obtain ⟨child, hchild⟩ := Option.isSome_iff_exists.mp hsome
  refine ⟨hop, ?_⟩
  rw [hchild]
  rfl

theorem ambient_next {state : Service.State} {w : Workers} (h : (pools options).Reachable ⟨registered state, [w]⟩)
    (op : Client.Op (Option Rpc.Job)) (hambient : Service.Ambient op) (hop : state.child.Enabled op)
    (hsome : (state.child.next none op).isSome = true) (hrunning : state.stopped = false)
    (hnext : (ambient op state).stopped = false) : (pools options).Reachable ⟨registered (ambient op state), [w]⟩ :=
  service_next h (.child op) ⟨hambient, _, calls hop hsome, rfl⟩ hrunning hnext trivial

/-- HELLO was accepted. -/
def greeted : Service.State :=
  ambient .opened (ambient (.data [129, 0, 0, 0, 1, 0, 1]) (ambient (.greet accepts)
    (ambient .connected (.new childSettings))))

/-- The registration is sent. -/
def announced : Service.State :=
  { greeted with
    child := (greeted.child.next none (.send accepts 6 [0, 3, 115, 117, 109, 0, 1, 0, 128] Client.emptyParser)).getD
      greeted.child
    phase := .registering greeted.child.sent.length }

/-- The registration was accepted, and the slot asks for a job. -/
def serving : Service.State :=
  { ambient (.data [134, 0, 0, 0, 2]) announced with phase := .serving, slots := [.ready] }

def asking : Service.State :=
  (serving.follow ((serving.child.next none (.send accepts 8 Client.take Client.takenParser)).getD serving.child)).setSlot 0
    (.taking serving.child.sent.length)

/-- It is given one. -/
def given : Service.State :=
  ambient (.data [136, 0, 0, 0, 3, 1, 0, 0, 0, 0, 0, 0, 0, 5, 0, 0, 0, 10, 0, 0, 0, 1, 7]) asking

def idle : Workers := .new 1 service

theorem given_reachable : (pools options).Reachable ⟨registered given, [idle]⟩ := by
  have h : (pools options).Reachable ⟨registered (.new childSettings), [idle]⟩ := by
    have hready := pools_of_machine ready_reachable rfl
    apply hready.step (l := ((0 : ℚ), Pool.Op.cluster (.handle (.text (Text.ofString "sum")) .function handleOptions)))
    refine ⟨registered (.new childSettings), ⟨rfl, ?_⟩, ?_⟩
    · rw [registered_step]
    · have hnone : ∀ i, (ready.runs i && !(registered (.new childSettings)).runs i) = false := fun _ => rfl
      exact congrArg (Pool.mk (registered (.new childSettings))) (congrArg (· :: []) (sweep_of_false hnone).symm)
  have h := ambient_next h .connected trivial ⟨rfl, rfl⟩ (by decide) rfl (by decide)
  have h := ambient_next h (.greet accepts) trivial rfl (by decide) (by decide) (by decide)
  have h := ambient_next h (.data [129, 0, 0, 0, 1, 0, 1]) trivial ⟨by decide, Nat.le_of_ble_eq_true rfl⟩ (by decide)
    (by decide) (by decide)
  have h : (pools options).Reachable ⟨registered greeted, [idle]⟩ :=
    ambient_next h .opened trivial ⟨0, none, rfl, by decide⟩ (by decide)
      (by decide) (by decide)
  have h : (pools options).Reachable ⟨registered announced, [idle]⟩ :=
    service_next h (.announce accepts) ⟨rfl, [0, 3, 115, 117, 109, 0, 1, 0, 128], _, by decide +kernel,
      calls ⟨rfl, by decide⟩ (by decide), rfl⟩ (by decide) (by decide) trivial
  have h := ambient_next h (.data [134, 0, 0, 0, 2]) trivial ⟨by decide, Nat.le_of_ble_eq_true rfl⟩ (by decide)
    (by decide) (by decide)
  have h : (pools options).Reachable ⟨registered serving, [idle]⟩ :=
    service_next h .serve ⟨1, none, 1, by decide, by decide, by decide,
      by decide +kernel, rfl⟩ (by decide) (by decide) trivial
  have h : (pools options).Reachable ⟨registered asking, [idle]⟩ := by
    refine service_next h (.take 0 accepts) ⟨rfl, ?_⟩ (by decide) (by decide) trivial
    rw [if_neg (by decide)]
    exact ⟨_, calls ⟨by decide, by decide⟩ (by decide), rfl⟩
  exact ambient_next h _ trivial ⟨by decide, Nat.le_of_ble_eq_true rfl⟩ (by decide) (by decide)
    (by decide)

/-- The slot has the job. -/
def took : Service.State :=
  { given.setSlot 0 (.executing Service.Sample.job) with log := given.log ++ [.took 0 Service.Sample.job] }

/-- The handler runs on it. -/
def busy : Pool :=
  let started := idle.start 0 0 0 Service.Sample.job
  ⟨registered took, [started.proceed 0 0 ⟨0, 0, Service.Sample.job, 0, none, .acquiring⟩ .granted]⟩

theorem busy_reachable : (pools options).Reachable busy := by
  have hrunning : took.stopped = false := by decide
  have hgiven : given.stopped = false := by decide
  have hslot : took.slots[0]? = some (.executing Service.Sample.job) := by decide
  have h : (pools options).Reachable ⟨registered took, [idle.start 0 0 0 Service.Sample.job]⟩ := by
    apply given_reachable.step (l := ((0 : ℚ), Pool.Op.cluster (.service 0 (.taken 0))))
    refine ⟨registered took, ⟨⟨0, 0, 0, 0, setup, given⟩, took, rfl, ?_, (follow_registered given hrunning).symm⟩, ?_⟩
    · exact ⟨2, .resolved (some Service.Sample.job), by decide, by decide, rfl⟩
    · have hstart : Pool.start 0 0 0 ⟨registered took, [idle]⟩ =
          ⟨registered took, [idle.start 0 0 0 Service.Sample.job]⟩ := by
        have hhandle : (registered took).handles[0]? = some ⟨0, 0, 0, 0, setup, took⟩ := rfl
        unfold Pool.start
        simp only [hhandle, hslot]
        rfl
      exact ((congrArg (Pool.sweep (registered given)) hstart).trans (sweep_registered hgiven hrunning _)).symm
  apply h.step (l := ((0 : ℚ), Pool.Op.admitted 0 0))
  exact ⟨_, ⟨0, 0, Service.Sample.job, 0, none, .acquiring⟩, .granted, rfl, rfl, rfl, by decide, rfl⟩

end Sample

theorem handlers_bounded_busy : ∃ w, Sample.busy.workers[0]? = some w ∧ w.running = [0] ∧
    Sample.busy.Bounded Sample.options 0 Sample.service w := by
  obtain ⟨w, hget, hbounded⟩ := handlers_bounded Sample.options Sample.busy Sample.busy_reachable 0 Sample.service rfl
  refine ⟨w, hget, ?_, hbounded⟩
  rw [← Option.some.inj hget]
  decide +kernel

end VeloBus.Cluster
