import Mathlib.Logic.Relation
import VeloBus.ClusterFrame

/-! What the operations of a cluster client do to its services and to the handles that these have on its nodes: all
that they do is made of a few changes. -/

namespace VeloBus

/-! ### One service -/

namespace Service.State

variable {s t : State} {setup : Setup}

/-- A service has slots once it serves, as many as it was set up with. -/
structure Shaped (setup : Setup) (s : State) : Prop where
  idle : s.phase ≠ .serving → s.slots = []
  concurrency : s.phase = .serving → setup.concurrency = .ok s.slots.length
  failed : s.phase = .failed → s.stopped = true

/-- What lasts: a service that is stopped stays so, and none opens again. -/
structure Lasts (s t : State) : Prop where
  stopped : s.stopped = true → t.stopped = true
  opened : s.phase ≠ .opening → t.phase ≠ .opening

@[simp] theorem stop_phase (cause : Cause) (s : State) : (s.stop cause).phase = s.phase := by
  unfold stop
  split_ifs <;> rfl

@[simp] theorem stop_slots (cause : Cause) (s : State) : (s.stop cause).slots = s.slots := by
  unfold stop
  split_ifs <;> rfl

@[simp] theorem stop_stopped (cause : Cause) (s : State) : (s.stop cause).stopped = true := by
  unfold stop
  split_ifs with hstopped
  · exact hstopped
  · rfl

@[simp] theorem follow_phase (child : Client.State (Option Rpc.Job)) (s : State) : (s.follow child).phase = s.phase := by
  unfold follow
  dsimp only
  split_ifs
  · exact stop_phase _ _
  · rfl

@[simp] theorem follow_slots (child : Client.State (Option Rpc.Job)) (s : State) : (s.follow child).slots = s.slots := by
  unfold follow
  dsimp only
  split_ifs
  · exact stop_slots _ _
  · rfl

theorem follow_stopped (child : Client.State (Option Rpc.Job)) (h : s.stopped = true) : (s.follow child).stopped = true := by
  unfold follow
  dsimp only
  split_ifs
  · exact stop_stopped _ _
  · exact h

@[simp] theorem close_phase (s : State) : s.close.phase = s.phase := by
  unfold close
  split_ifs
  · rfl
  · exact stop_phase _ _

@[simp] theorem close_slots (s : State) : s.close.slots = s.slots := by
  unfold close
  split_ifs
  · rfl
  · exact stop_slots _ _

theorem close_lasts (s : State) : s.Lasts s.close := by
  refine ⟨fun hstopped => ?_, fun hopened => by rwa [close_phase]⟩
  unfold close
  split_ifs
  · exact hstopped
  · exact stop_stopped _ _

/-- Closing stops a service that is known to its client. -/
theorem close_stopped (h : s.phase ≠ .opening) : s.close.stopped = true := by
  unfold close
  rw [if_neg h]
  exact stop_stopped _ _

/-- A service whose phase and number of slots stay keeps its shape. -/
theorem Shaped.of_same (h : s.Shaped setup) (hphase : t.phase = s.phase) (hslots : t.slots.length = s.slots.length)
    (hstopped : s.stopped = true → t.stopped = true) : t.Shaped setup where
  idle hidle := by
    rw [hphase] at hidle
    rw [← List.length_eq_zero_iff, hslots, h.idle hidle]
    rfl
  concurrency hserving := by
    rw [hslots]
    exact h.concurrency (hphase ▸ hserving)
  failed hfailed := hstopped (h.failed (hphase ▸ hfailed))

theorem Shaped.close (h : s.Shaped setup) : s.close.Shaped setup :=
  h.of_same (close_phase s) (by rw [close_slots]) (close_lasts s).stopped

theorem step_shaped {op : Op} (h : s.Shaped setup) (hstep : s.Step setup op t) : t.Shaped setup ∧ s.Lasts t := by
  have hset : ∀ (slot : Nat) (next : Slot) (log : List Entry),
      State.Shaped setup { s.setSlot slot next with log := log } ∧ s.Lasts { s.setSlot slot next with log := log } := by
    intro slot next log
    exact ⟨h.of_same rfl List.length_set id, id, id⟩
  have hsent : ∀ (child : Client.State (Option Rpc.Job)) (slot : Nat) (next : Slot) (log : List Entry),
      State.Shaped setup { (s.follow child).setSlot slot next with log := log } ∧
        s.Lasts { (s.follow child).setSlot slot next with log := log } := by
    intro child slot next log
    refine ⟨h.of_same (follow_phase child s) ?_ (follow_stopped child), follow_stopped child, fun hopened => ?_⟩
    · change ((s.follow child).slots.set slot next).length = _
      rw [List.length_set, follow_slots]
    · exact (follow_phase child s).symm ▸ hopened
  cases op with
  | child op =>
      obtain ⟨-, child, -, rfl⟩ := hstep
      refine ⟨h.of_same (follow_phase child s) (by rw [follow_slots]) (follow_stopped child), follow_stopped child, ?_⟩
      rw [follow_phase]
      exact id
  | announce socket =>
      obtain ⟨hopening, registration, child, -, -, rfl⟩ := hstep
      have hnone : s.slots = [] := by
        apply h.idle
        rw [hopening]
        exact Phase.noConfusion
      exact ⟨⟨fun _ => hnone, nofun, nofun⟩, id, nofun⟩
  | serve =>
      obtain ⟨promise, value, concurrency, -, -, -, hconcurrency, rfl⟩ := hstep
      refine ⟨⟨fun hidle => absurd rfl hidle, fun _ => ?_, nofun⟩, id, nofun⟩
      rw [hconcurrency, List.length_replicate]
  | abandon =>
      obtain ⟨hphase, rfl⟩ := hstep
      have hnone : s.slots = [] := by
        apply h.idle
        rcases hphase with hopening | ⟨promise, hregistering⟩
        · rw [hopening]
          exact Phase.noConfusion
        · rw [hregistering]
          exact Phase.noConfusion
      refine ⟨⟨fun _ => ?_, nofun, fun _ => stop_stopped _ s⟩, fun _ => stop_stopped _ s, nofun⟩
      exact (stop_slots _ s).trans hnone
  | close =>
      rw [show t = s.close from hstep]
      exact ⟨h.close, close_lasts s⟩
  | onFailure slot =>
      obtain ⟨cause, -, rfl⟩ := hstep
      refine ⟨h.of_same (stop_phase cause s) ?_ fun _ => stop_stopped _ s, fun _ => stop_stopped _ s, fun hopened => ?_⟩
      · change ((s.stop cause).slots.set slot _).length = _
        rw [List.length_set, stop_slots]
      · exact (stop_phase cause s).symm ▸ hopened
  | take slot socket =>
      obtain ⟨-, htake⟩ := hstep
      split_ifs at htake
      · rw [htake]
        exact hset slot _ s.log
      · obtain ⟨child, -, rfl⟩ := htake
        exact hsent child slot _ (s.follow child).log
  | taken slot =>
      obtain ⟨promise, outcome, -, -, rfl⟩ := hstep
      exact hset slot _ _
  | settle slot outcome socket =>
      obtain ⟨job, -, ⟨next, rfl⟩ | ⟨status, output, child, -, rfl⟩⟩ := settle_cases hstep
      · exact hset slot _ s.log
      · exact hsent child slot _ _
  | completed slot =>
      obtain ⟨promise, outcome, -, -, rfl⟩ := hstep
      exact hset slot _ s.log

/-- A slot that does not stand in a step keeps its job. -/
theorem step_executing {op : Op} (h : s.Shaped setup) (hstep : s.Step setup op t) {slot : Nat} {job : Rpc.Job}
    (hslot : s.slots[slot]? = some (.executing job)) :
    t.slots[slot]? = some (.executing job) ∨ ∃ outcome socket, op = .settle slot outcome socket := by
  have hset : ∀ (other : Nat) (old next : Slot) (u : State), u.slots = s.slots.set other next →
      s.slots[other]? = some old → (∀ job, old ≠ .executing job) → u.slots[slot]? = some (.executing job) := by
    intro other old next u hu hold hidle
    have hne : other ≠ slot := by
      rintro rfl
      rw [hslot] at hold
      exact hidle job (Option.some.inj hold).symm
    rw [hu, List.getElem?_set_ne hne]
    exact hslot
  have hserving : s.phase = .serving := by
    by_contra hidle
    rw [h.idle hidle] at hslot
    cases hslot
  cases op with
  | child op =>
      obtain ⟨-, child, -, rfl⟩ := hstep
      left
      rw [follow_slots]
      exact hslot
  | announce socket =>
      obtain ⟨hopening, -⟩ := hstep
      cases hserving.symm.trans hopening
  | serve =>
      obtain ⟨promise, value, concurrency, hregistering, -⟩ := hstep
      cases hserving.symm.trans hregistering
  | abandon =>
      obtain ⟨hopening | ⟨promise, hregistering⟩, -⟩ := hstep
      · cases hserving.symm.trans hopening
      · cases hserving.symm.trans hregistering
  | close =>
      left
      rw [show t = s.close from hstep, close_slots]
      exact hslot
  | onFailure other =>
      obtain ⟨cause, hthrew, rfl⟩ := hstep
      left
      apply hset other _ .returned _ _ hthrew (fun _ => Slot.noConfusion)
      exact congrArg (List.set · other Slot.returned) (stop_slots cause s)
  | take other socket =>
      obtain ⟨hready, htake⟩ := hstep
      left
      split_ifs at htake
      · rw [htake]
        exact hset other _ .returned _ rfl hready fun _ => Slot.noConfusion
      · obtain ⟨child, -, rfl⟩ := htake
        apply hset other _ (.taking s.child.sent.length) _ _ hready fun _ => Slot.noConfusion
        exact congrArg (List.set · other _) (follow_slots child s)
  | taken other =>
      obtain ⟨promise, outcome, htaking, -, rfl⟩ := hstep
      exact Or.inl (hset other _ _ _ rfl htaking fun _ => Slot.noConfusion)
  | settle other outcome socket =>
      by_cases hother : other = slot
      · exact Or.inr ⟨outcome, socket, by rw [hother]⟩
      left
      obtain ⟨job', -, ⟨next, rfl⟩ | ⟨status, output, child, -, rfl⟩⟩ := settle_cases hstep
      · exact (List.getElem?_set_ne hother).trans hslot
      · change ((s.follow child).slots.set other _)[slot]? = _
        rw [List.getElem?_set_ne hother, follow_slots]
        exact hslot
  | completed other =>
      obtain ⟨promise, outcome, hcompleting, -, rfl⟩ := hstep
      exact Or.inl (hset other _ _ _ rfl hcompleting fun _ => Slot.noConfusion)

end Service.State

/-! ### The services of a client -/

namespace Cluster

open Codec
open Client (Failure Value)

def Handle.close (handle : Handle) : Handle := { handle with state := handle.state.close }

namespace State

variable {options : Options} {now : ℚ} {s t u : State}

/-- A handle that is closed, or that does not know of it yet. -/
def Parked (s : State) (h : Nat) : Prop :=
  ∀ handle, s.handles[h]? = some handle → handle.state.phase ≠ .opening → handle.state.stopped = true

/-- What becomes of the handle that a service has on a node, and of the one that `attach` works on. -/
inductive Place (s : State) (service service' : ClusterService) (n : Nat) : Prop where
  | same (handles : service'.handles.lookup n = service.handles.lookup n)
      (attaching : service'.attaching.lookup n = service.attaching.lookup n)
  | left (handles : service'.handles.lookup n = none) (attaching : service'.attaching.lookup n = service.attaching.lookup n)
      (parked : ∀ h, service.handles.lookup n = some h → s.Parked h)
  | began (a : Attaching) (handles : service'.handles.lookup n = none) (free : service.handles.lookup n = none)
      (idle : service.attaching.lookup n = none) (running : service.stopped = false)
      (attaching : service'.attaching.lookup n = some a) (none : a.handle = none)
  | ended (a : Attaching) (handles : service'.handles.lookup n = service.handles.lookup n)
      (working : service.attaching.lookup n = some a)
      (attaching : service'.attaching.lookup n = some { a with ended := true })
      (stopped : ∀ h, a.handle = some h → ∀ handle, s.handles[h]? = some handle → handle.state.stopped = true)
  | adopted (a : Attaching) (h : Nat) (handle : a.handle = some h) (handles : service'.handles.lookup n = some h)
      (working : service.attaching.lookup n = some a)
      (attaching : service'.attaching.lookup n = some { a with ended := true }) (running : service.stopped = false)
      (serving : ∀ handle, s.handles[h]? = some handle → handle.state.phase = .serving)
  | gone (a : Attaching) (handles : service'.handles.lookup n = service.handles.lookup n)
      (working : service.attaching.lookup n = some a) (finished : a.ended = true)
      (attaching : service'.attaching.lookup n = none)

/-- A service changes only as its handles allow. -/
structure Tends (s : State) (service service' : ClusterService) : Prop where
  options : service'.options = service.options
  stopped : service'.stopped = service.stopped ∨
    (service'.stopped = true ∧ ∀ n h, service'.handles.lookup n = some h → s.Parked h)
  place : ∀ n, s.Place service service' n

/-- One change to the services or their handles. -/
inductive Change : State → State → Prop where
  | other {s t : State} (handles : t.handles = s.handles) (registrations : t.registrations = s.registrations)
      (nodes : t.nodes.length = s.nodes.length) : Change s t
  | closed {s t : State} (handles : ∀ h : Nat, t.handles[h]? = s.handles[h]? ∨ t.handles[h]? = (s.handles[h]?).map Handle.close)
      (registrations : t.registrations = s.registrations) (nodes : t.nodes.length = s.nodes.length) : Change s t
  | tended {s : State} (v : Nat) (f : ClusterService → ClusterService)
      (tends : ∀ service, s.registrations[v]? = some service → s.Tends service (f service)) : Change s (s.modifyService v f)
  | attached {s t : State} (n v : Nat) (service : ClusterService) (a : Attaching) (handle : Handle)
      (get : s.registrations[v]? = some service) (node : n < s.nodes.length) (free : service.handles.lookup n = none)
      (idle : service.attaching.lookup n = none) (running : service.stopped = false)
      (working : a.handle = some s.handles.length)
      (owner : handle.service = v ∧ handle.node = n)
      (setup : handle.setup.handleOptions.concurrency = service.options.concurrency)
      (opening : handle.state.phase = .opening ∧ handle.state.slots = [])
      (begun : a.ended = false)
      (handles : t.handles = s.handles ++ [handle])
      (registrations : ∃ f : ClusterService → ClusterService, t.registrations = s.registrations.modify v f ∧
        (f service).options = service.options ∧ (f service).stopped = service.stopped ∧
        (f service).handles = service.handles ∧ (f service).attaching = service.attaching.insert n a)
      (nodes : t.nodes.length = s.nodes.length) : Change s t
  | registered {s t : State} (service : ClusterService) (concurrency : Nat)
      (options : service.options.concurrency = .number concurrency) (handles : service.handles = ∅)
      (attaching : service.attaching = ∅) (same : t.handles = s.handles)
      (registrations : t.registrations = s.registrations ++ [service]) (nodes : t.nodes.length = s.nodes.length) : Change s t

abbrev Changes : State → State → Prop := Relation.ReflTransGen Change

theorem Changes.of_same (hhandles : t.handles = s.handles) (hregistrations : t.registrations = s.registrations)
    (hnodes : t.nodes.length = s.nodes.length) : s.Changes t :=
  .single (.other hhandles hregistrations hnodes)

theorem Changes.foldl {α : Type} {f : State → α → State} (hf : ∀ (s : State) (a : α), s.Changes (f s a)) (as : List α)
    (s : State) : s.Changes (as.foldl f s) := by
  induction as generalizing s with
  | nil => exact .refl
  | cons a as ih => exact (hf s a).trans (ih (f s a))

theorem modifyNode_changes (n : Nat) (f : NodeState → NodeState) (s : State) : s.Changes (s.modifyNode n f) :=
  .of_same rfl rfl (List.length_modify ..)

theorem setConnection_changes (c : Nat) (state : Client.State Reply) (s : State) : s.Changes (s.setConnection c state) :=
  .of_same rfl rfl rfl

theorem closeHandle_changes (h : Nat) (s : State) : s.Changes (s.closeHandle h) := by
  apply Relation.ReflTransGen.single
  refine .closed (fun i => ?_) rfl rfl
  unfold closeHandle
  dsimp only
  rw [List.getElem?_modify]
  by_cases hi : h = i
  · right
    simp only [hi, if_true]
    rfl
  · left
    simp [hi]

/-- After it is closed, a handle is parked. -/
theorem closeHandle_parked (h : Nat) (s : State) : (s.closeHandle h).Parked h := by
  intro handle hget hopened
  unfold closeHandle at hget
  dsimp only at hget
  rw [List.getElem?_modify, Option.map_eq_map, Option.map_eq_some_iff] at hget
  obtain ⟨old, -, rfl⟩ := hget
  rw [if_pos rfl] at hopened ⊢
  exact Service.State.close_stopped (Service.State.close_phase old.state ▸ hopened)

theorem closeChildren_changes (c : Nat) (s : State) : s.Changes (s.closeChildren c) := by
  apply Relation.ReflTransGen.single
  refine .closed (fun i => ?_) rfl rfl
  unfold closeChildren
  dsimp only
  rw [List.getElem?_map]
  cases s.handles[i]? with
  | none => exact Or.inl rfl
  | some handle =>
      rw [Option.map_some, Option.map_some]
      split_ifs
      · exact Or.inr rfl
      · exact Or.inl rfl

theorem closeClient_changes (c : Nat) (s : State) : s.Changes (s.closeClient c) := by
  unfold closeClient
  split
  · exact .refl
  · split_ifs
    · exact .refl
    · exact (setConnection_changes c _ s).trans (closeChildren_changes c _)

theorem detach_changes (n v : Nat) (s : State) : s.Changes (s.detach n v) := by
  unfold detach
  cases hservice : s.registrations[v]? with
  | none => exact .refl
  | some service =>
      dsimp only
      have hplace : ∀ (u : State), (∀ h, service.handles.lookup n = some h → u.Parked h) →
          u.Tends service { service with epochs := service.epochs.erase n, handles := service.handles.erase n } := by
        intro u hparked
        refine ⟨rfl, Or.inl rfl, fun m => ?_⟩
        by_cases hm : m = n
        · subst hm
          exact .left (by rw [Table.lookup_erase_ite, if_pos rfl]) rfl hparked
        · exact .same (by rw [Table.lookup_erase_ite, if_neg hm]) rfl
      cases hlookup : service.handles.lookup n with
      | none =>
          apply Relation.ReflTransGen.single
          apply Change.tended
          intro found hfound
          obtain rfl := Option.some.inj (hservice.symm.trans hfound)
          exact hplace s fun h hh => by rw [hlookup] at hh; cases hh
      | some h =>
          apply (closeHandle_changes h s).tail
          apply Change.tended
          intro found hfound
          obtain rfl := Option.some.inj (hservice.symm.trans hfound)
          apply hplace
          intro other hother
          obtain rfl := Option.some.inj (hlookup.symm.trans hother)
          exact closeHandle_parked h s

theorem detachAll_changes (n : Nat) (s : State) : s.Changes (s.detachAll n) :=
  .foldl (fun s v => detach_changes n v s) _ s

theorem retire_changes (n c : Nat) (error : Failure) (s : State) : s.Changes (s.retire options now n c error) := by
  unfold retire
  split
  · exact .refl
  · split_ifs
    · exact .refl
    · exact ((modifyNode_changes n _ s).trans (detachAll_changes n _)).trans (closeClient_changes c _)

theorem notify_changes (c : Nat) (s : State) : s.Changes (s.notify options now c) := by
  unfold notify
  split
  · exact .refl
  · split
    · exact .refl
    · split_ifs
      · exact retire_changes _ _ _ s
      · exact .refl

theorem update_changes (c : Nat) (state : Client.State Reply) (s : State) : s.Changes (s.update options now c state) := by
  unfold update
  split
  · exact .refl
  · split_ifs
    · exact ((setConnection_changes c state s).trans (closeChildren_changes c _)).trans (notify_changes c _)
    · exact setConnection_changes c state s

theorem attach_changes (n v : Nat) (s : State) : s.Changes (s.attach options now n v) := by
  unfold attach
  split
  case h_2 => exact .refl
  case h_1 service node hservice hnode =>
    split_ifs with hheld hworking
    · exact .refl
    · exact .refl
    split
    · exact .refl
    case h_2 c hclient =>
      split_ifs with hclosed
      · exact .refl
      have hfree : service.handles.lookup n = none := by
        rw [not_or, not_or] at hheld
        simpa using hheld.2.1
      have hrunning : service.stopped = false := by
        rw [not_or] at hheld
        simpa using hheld.1
      have hidle : service.attaching.lookup n = none := by simpa using hworking
      dsimp only
      split
      · apply Relation.ReflTransGen.trans (Changes.of_same (s := s) (t := { s with epoch := s.epoch + 1 }) rfl rfl rfl)
        apply Relation.ReflTransGen.single
        apply Change.tended
        intro found hfound
        obtain rfl := Option.some.inj (hservice.symm.trans hfound)
        refine ⟨rfl, Or.inl rfl, fun m => ?_⟩
        by_cases hm : m = n
        · subst hm
          refine .began ⟨c, s.epoch, none, false⟩ hfree hfree hidle hrunning ?_ rfl
          rw [Table.lookup_insert_ite, if_pos rfl]
        · exact .same rfl (by rw [Table.lookup_insert_ite, if_neg hm])
      · rename_i state hchild
        have hfresh : ∃ checked, state = .new checked := by
          unfold child at hchild
          simp only [bind_eq_ok, pure_eq_ok] at hchild
          obtain ⟨_, -, _, -, checked, -, rfl⟩ := hchild
          exact ⟨checked, rfl⟩
        obtain ⟨checked, rfl⟩ := hfresh
        have hn : n < s.nodes.length := (List.getElem?_eq_some_iff.mp hnode).1
        exact .single (.attached n v service ⟨c, s.epoch, some s.handles.length, false⟩ _ hservice hn hfree hidle
          hrunning rfl ⟨rfl, rfl⟩ rfl ⟨rfl, rfl⟩ rfl rfl ⟨_, rfl, rfl, rfl, rfl, rfl⟩ rfl)

theorem attachAll_changes (n : Nat) (s : State) : s.Changes (s.attachAll options now n) :=
  .foldl (fun s v => attach_changes n v s) _ s

/-- What `attach` ends with, when it has no handle that is not stopped. -/
theorem attachFailed_changes {n v : Nat} {a : Attaching} {service : ClusterService} (hget : s.registrations[v]? = some service)
    (hworking : service.attaching.lookup n = some a)
    (hstopped : ∀ h, a.handle = some h → ∀ handle, s.handles[h]? = some handle → handle.state.stopped = true) :
    s.Changes (s.attachFailed options now n v a) := by
  apply Relation.ReflTransGen.single
  apply Change.tended
  intro found hfound
  obtain rfl := Option.some.inj (hget.symm.trans hfound)
  refine ⟨rfl, Or.inl rfl, fun m => ?_⟩
  by_cases hm : m = n
  · subst hm
    refine .ended a rfl hworking ?_ hstopped
    rw [Table.lookup_insert_ite, if_pos rfl]
  · exact .same rfl (by rw [Table.lookup_insert_ite, if_neg hm])

theorem adopt_changes {n v h : Nat} {a : Attaching} {service : ClusterService} {handle : Handle}
    (hget : s.registrations[v]? = some service) (hworking : service.attaching.lookup n = some a) (ha : a.handle = some h)
    (hhandle : s.handles[h]? = some handle) (hserving : handle.state.phase = .serving) : s.Changes (s.adopt n v a h) := by
  unfold adopt
  split
  case h_2 => exact .refl
  case h_1 found node hfound hnode =>
    obtain rfl := Option.some.inj (hget.symm.trans hfound)
    dsimp only
    split_ifs with hstale
    · apply (closeHandle_changes h s).tail
      apply Change.tended
      intro found hfound
      obtain rfl := Option.some.inj (hget.symm.trans hfound)
      refine ⟨rfl, Or.inl rfl, fun m => ?_⟩
      by_cases hm : m = n
      · subst hm
        refine .ended a rfl hworking ?_ fun other hother moved hmoved => ?_
        · rw [Table.lookup_insert_ite, if_pos rfl]
        · obtain rfl := Option.some.inj (ha.symm.trans hother)
          apply closeHandle_parked h s moved hmoved
          unfold closeHandle at hmoved
          dsimp only at hmoved
          rw [List.getElem?_modify, hhandle, Option.map_eq_map, Option.map_some, if_pos rfl] at hmoved
          rw [← Option.some.inj hmoved, Service.State.close_phase, hserving]
          exact Service.Phase.noConfusion
      · exact .same rfl (by rw [Table.lookup_insert_ite, if_neg hm])
    · apply Relation.ReflTransGen.single
      apply Change.tended
      intro found hfound
      obtain rfl := Option.some.inj (hget.symm.trans hfound)
      refine ⟨rfl, Or.inl rfl, fun m => ?_⟩
      by_cases hm : m = n
      · subst hm
        refine .adopted a h ha ?_ hworking ?_ ?_ fun other hother => ?_
        · rw [Table.lookup_insert_ite, if_pos rfl]
        · rw [Table.lookup_insert_ite, if_pos rfl]
        · rw [not_or] at hstale
          simpa using hstale.1
        · obtain rfl := Option.some.inj (hhandle.symm.trans hother)
          exact hserving
      · refine .same ?_ ?_
        · rw [Table.lookup_insert_ite, if_neg hm]
        · rw [Table.lookup_insert_ite, if_neg hm]

/-- A service whose tables and options stay. -/
theorem modifyService_changes (v : Nat) {f : ClusterService → ClusterService}
    (hf : ∀ service, (f service).options = service.options ∧ (f service).stopped = service.stopped ∧
      (f service).handles = service.handles ∧ (f service).attaching = service.attaching) (s : State) :
    s.Changes (s.modifyService v f) := by
  apply Relation.ReflTransGen.single
  apply Change.tended
  intro service hservice
  obtain ⟨hoptions, hstopped, hhandles, hattaching⟩ := hf service
  exact ⟨hoptions, Or.inl hstopped, fun n => .same (by rw [hhandles]) (by rw [hattaching])⟩

theorem onError_changes (handle : Handle) (s : State) : s.Changes (s.onError options now handle) := by
  unfold onError
  split
  · exact .refl
  · split_ifs
    · exact .refl
    · refine (detach_changes handle.node handle.service s).trans (modifyService_changes _ ?_ _)
      exact fun _ => ⟨rfl, rfl, rfl, rfl⟩

theorem Parked.closeHandle {h : Nat} (hparked : s.Parked h) (i : Nat) : (s.closeHandle i).Parked h := by
  intro handle hget hopened
  unfold State.closeHandle at hget
  dsimp only at hget
  rw [List.getElem?_modify, Option.map_eq_map, Option.map_eq_some_iff] at hget
  obtain ⟨old, hold, rfl⟩ := hget
  split_ifs at hopened ⊢
  · exact (Service.State.close_lasts old.state).stopped (hparked old hold (Service.State.close_phase old.state ▸ hopened))
  · exact hparked old hold hopened

/-- Closing the handles of some entries. -/
def closeEntries (entries : List ((_ : Nat) × Nat)) (s : State) : State :=
  entries.foldl (fun s entry => s.closeHandle entry.2) s

theorem closeEntries_parked (entries : List ((_ : Nat) × Nat)) (s : State) {h : Nat}
    (hh : (∃ entry ∈ entries, entry.2 = h) ∨ s.Parked h) : (s.closeEntries entries).Parked h := by
  induction entries generalizing s with
  | nil =>
      rcases hh with ⟨entry, hmem, -⟩ | hparked
      · cases hmem
      · exact hparked
  | cons first entries ih =>
      apply ih
      rcases hh with ⟨entry, hmem, rfl⟩ | hparked
      · rcases List.mem_cons.mp hmem with rfl | hrest
        · exact Or.inr (closeHandle_parked entry.2 s)
        · exact Or.inl ⟨entry, hrest, rfl⟩
      · exact Or.inr (hparked.closeHandle first.2)

theorem closeEntries_registrations (entries : List ((_ : Nat) × Nat)) (s : State) :
    (s.closeEntries entries).registrations = s.registrations := by
  induction entries generalizing s with
  | nil => rfl
  | cons entry entries ih => exact ih (s.closeHandle entry.2)

/-- It makes no difference whether a service is changed before its handles are closed or after. -/
theorem closeEntries_modifyService (entries : List ((_ : Nat) × Nat)) (v : Nat) (f : ClusterService → ClusterService)
    (s : State) : (s.modifyService v f).closeEntries entries = (s.closeEntries entries).modifyService v f := by
  induction entries generalizing s with
  | nil => rfl
  | cons entry entries ih => exact ih (s.closeHandle entry.2)

theorem closeService_changes (v : Nat) (s : State) : s.Changes (s.closeService v) := by
  unfold closeService
  cases hservice : s.registrations[v]? with
  | none => exact .refl
  | some service =>
      dsimp only
      split_ifs
      · exact .refl
      generalize hleft : ({ s with services := s.services.erase v } : State) = left
      change s.Changes ((left.modifyService v _).closeEntries service.handles.entries)
      rw [closeEntries_modifyService]
      have hclosed : s.Changes (left.closeEntries service.handles.entries) := by
        apply Relation.ReflTransGen.trans (b := left)
        · rw [← hleft]
          exact Changes.of_same rfl rfl rfl
        · exact Changes.foldl (fun s (entry : (_ : Nat) × Nat) => closeHandle_changes entry.2 s) _ _
      apply hclosed.tail
      apply Change.tended
      intro found hfound
      rw [closeEntries_registrations, ← hleft] at hfound
      obtain rfl := Option.some.inj (hservice.symm.trans hfound)
      refine ⟨rfl, Or.inr ⟨rfl, fun n h hlookup => ?_⟩, fun n => .same rfl rfl⟩
      exact closeEntries_parked _ _ (Or.inl ⟨⟨n, h⟩, Table.mem_entries_iff.mpr hlookup, rfl⟩)

/-! ### Nodes and requests -/

theorem connectNode_changes (n : Nat) (s : State) : s.Changes (s.connectNode options n) := by
  unfold connectNode
  dsimp only
  split
  · exact .refl
  · split_ifs
    · exact .refl
    · split
      · exact .of_same rfl rfl (List.length_modify ..)
      · exact .of_same rfl rfl (List.length_modify ..)

theorem ending_changes (n : Nat) (s : State) : s.Changes (s.ending n) := modifyNode_changes n _ s

theorem welcome_changes (n c : Nat) (s : State) : s.Changes (s.welcome options now n c) := by
  unfold welcome
  split_ifs
  · exact (closeClient_changes c s).trans (ending_changes n _)
  · exact ((ending_changes n s).trans (modifyNode_changes n _ _)).trans (attachAll_changes n _)

theorem connectFailed_changes (random : ℚ) (n : Nat) (error : Failure) (s : State) :
    s.Changes (s.connectFailed options now random n error) :=
  (modifyNode_changes n _ s).trans (ending_changes n _)

theorem call_changes {c : Nat} {body : Except Failure Bytes} {opcode : Nat} {parse : Client.Parser Reply}
    {socket : Client.Socket} {promise : Except Failure Nat}
    (h : s.call options now c body opcode parse socket = some (promise, t)) : s.Changes t := by
  obtain ⟨connection, -, ⟨reason, -, rfl, -⟩ | ⟨bytes, state, -, -, -, -, rfl⟩⟩ := call_cases h
  · exact .refl
  · exact update_changes c state s

theorem ping_changes {n c : Nat} {socket : Client.Socket} (h : s.ping options now n c socket = some t) : s.Changes t := by
  unfold State.ping at h
  split at h
  · cases h
  · rename_i u hcall
    rw [← Option.some.inj h]
    exact ((modifyNode_changes n _ s).trans (call_changes hcall)).trans (Changes.of_same rfl rfl rfl)

theorem tick_changes {sockets : Nat → Client.Socket} (h : s.tick options now sockets = some t) : s.Changes t := by
  apply tick_preserves _ _ _ _ _ Relation.ReflTransGen.refl h
  · exact fun u n c error hu => hu.trans (retire_changes n c error u)
  · exact fun u n hu => hu.trans (connectNode_changes n u)
  · exact fun u v n c socket hu _ _ hping => hu.trans (ping_changes hping)
  · exact fun u n hu => hu.trans (attachAll_changes n u)
  · exact fun u hu => hu.trans (Changes.of_same rfl rfl rfl)

theorem pinged_changes (n : Nat) (ping : Attempt) (outcome : Client.Settlement Reply) (s : State) :
    s.Changes (s.pinged options now n ping outcome) := by
  have hfinish : ∀ u : State, u.Changes (({ u with pings := u.pings.erase n }.release n).attachAll options now n) := by
    intro u
    have hreleased : u.Changes ({ u with pings := u.pings.erase n }.release n) := .of_same rfl rfl (List.length_modify ..)
    exact hreleased.trans (attachAll_changes n _)
  cases outcome with
  | resolved value => exact hfinish s
  | rejected reason => exact (retire_changes n ping.client reason s).trans (hfinish _)

theorem proceed_changes {id : Nat} {request : Request} {socket : Client.Socket}
    (h : s.proceed options now id request socket = some t) : s.Changes t := by
  unfold State.proceed at h
  split at h
  · rw [← Option.some.inj h]
    exact .of_same rfl rfl rfl
  rename_i n _
  dsimp only at h
  split_ifs at h
  · rw [← Option.some.inj h]
    exact .of_same rfl rfl rfl
  split at h
  · cases h
  split at h
  · cases h
  · rename_i promise u hcall
    rw [← Option.some.inj h]
    have hoccupied : s.Changes ({ s with cursor := (n + 1) % s.nodes.length }.occupy n) :=
      .of_same rfl rfl (List.length_modify ..)
    exact (hoccupied.trans (call_changes hcall)).trans (Changes.of_same rfl rfl rfl)

theorem request_changes {route payload : Value} {requestOptions : Client.RequestOptions} {socket : Client.Socket}
    (h : s.request options now route payload requestOptions socket = some t) : s.Changes t := by
  unfold State.request at h
  split at h
  · rw [← Option.some.inj h]
    exact .of_same rfl rfl rfl
  · rename_i snapshot timeoutMs _
    have hcalled : s.Changes { s with called := s.called + 1, pending := s.pending + 1 } := .of_same rfl rfl rfl
    exact hcalled.trans (proceed_changes h)

theorem resume_changes {id : Nat} {request : Request} {attempt : Attempt} {outcome : Client.Settlement Reply}
    {socket : Client.Socket} (h : s.resume options now id request attempt outcome socket = some t) : s.Changes t := by
  have hleave : ∀ (answer : Answer) (u : State), u.Changes ((u.release attempt.node).leave id answer) :=
    fun answer u => .of_same rfl rfl (List.length_modify ..)
  have hagain : s.Changes (s.release attempt.node) := modifyNode_changes _ _ s
  unfold State.resume at h
  dsimp only at h
  split at h
  · rw [← Option.some.inj h]
    exact hleave _ s
  · split_ifs at h
    · rw [← Option.some.inj h]
      exact hleave _ s
    · exact hagain.trans (proceed_changes h)
  · exact hagain.trans (proceed_changes h)
  · rw [← Option.some.inj h]
    exact (retire_changes _ _ _ s).trans (hleave _ _)

theorem register_changes {route handler : Value} {handleOptions : Client.HandleOptions}
    (h : s.register options now route handler handleOptions = .ok t) : s.Changes t := by
  unfold State.register at h
  simp only [bind_eq_ok, pure_eq_ok, check_eq_ok] at h
  obtain ⟨-, -, -, -, -, -, -, concurrency, -, queueLimit, -, rfl⟩ := h
  apply Relation.ReflTransGen.trans _ (Changes.foldl (fun s n => attach_changes n _ s) _ _)
  exact .single (.registered _ concurrency rfl rfl rfl rfl rfl rfl)

theorem shutdown_changes (s : State) : s.Changes s.shutdown := by
  unfold State.shutdown
  split_ifs
  · exact .refl
  dsimp only
  generalize hstopping : ({ s with
    stopped := true
    timer := false
    closing := some (.clients s.services)
    nodes := _ } : State) = stopping
  have hstopped : s.Changes stopping := by
    rw [← hstopping]
    exact .of_same rfl rfl (List.length_map ..)
  have hservices := Changes.foldl (fun s v => closeService_changes v s) s.services stopping
  exact (hstopped.trans hservices).trans (Changes.foldl (fun s c => closeClient_changes c s) _ _)

end State

end Cluster

end VeloBus
