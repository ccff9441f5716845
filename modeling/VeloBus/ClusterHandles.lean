import VeloBus.ClusterChanges

/-! The handles that the services of a cluster client have on its nodes: one that is not stopped is attached or about
to be, and of the handles of one service on one node at most one is not stopped. -/

namespace VeloBus.Cluster

open Client (Failure Value)

namespace State

variable {options : Options} {now : ℚ} {s t u : State}

/-! ### What a change keeps -/

/-- A handle lasts. -/
structure Lasts (handle handle' : Handle) : Prop where
  service : handle'.service = handle.service
  node : handle'.node = handle.node
  setup : handle'.setup = handle.setup
  state : handle.state.Lasts handle'.state

/-- What a change keeps: the nodes, the services and the handles, and the slots of these. -/
structure Grows (s t : State) : Prop where
  nodes : t.nodes.length = s.nodes.length
  services : ∀ (v : Nat) service, s.registrations[v]? = some service →
    ∃ service', t.registrations[v]? = some service' ∧ service'.options = service.options
  handles : ∀ (h : Nat) handle, s.handles[h]? = some handle →
    ∃ handle', t.handles[h]? = some handle' ∧ Lasts handle handle' ∧ handle'.state.slots = handle.state.slots

theorem Lasts.refl (handle : Handle) : Lasts handle handle := ⟨rfl, rfl, rfl, id, id⟩

theorem Lasts.trans {handle handle' handle'' : Handle} (h : Lasts handle handle') (h' : Lasts handle' handle'') :
    Lasts handle handle'' where
  service := h'.service.trans h.service
  node := h'.node.trans h.node
  setup := h'.setup.trans h.setup
  state := ⟨h'.state.stopped ∘ h.state.stopped, h'.state.opened ∘ h.state.opened⟩

theorem Grows.refl (s : State) : s.Grows s where
  nodes := rfl
  services _ service hget := ⟨service, hget, rfl⟩
  handles _ handle hget := ⟨handle, hget, .refl handle, rfl⟩

theorem Grows.trans (h : s.Grows t) (h' : t.Grows u) : s.Grows u where
  nodes := h'.nodes.trans h.nodes
  services v service hget := by
    obtain ⟨service', hget', hoptions⟩ := h.services v service hget
    obtain ⟨service'', hget'', hoptions'⟩ := h'.services v service' hget'
    exact ⟨service'', hget'', hoptions'.trans hoptions⟩
  handles i handle hget := by
    obtain ⟨handle', hget', hlasts, hslots⟩ := h.handles i handle hget
    obtain ⟨handle'', hget'', hlasts', hslots'⟩ := h'.handles i handle' hget'
    exact ⟨handle'', hget'', hlasts.trans hlasts', hslots'.trans hslots⟩

theorem handleClose_lasts (handle : Handle) : Lasts handle handle.close :=
  ⟨rfl, rfl, rfl, Service.State.close_lasts handle.state⟩

theorem Change.grows (h : s.Change t) : s.Grows t := by
  cases h with
  | other hhandles hregistrations hnodes =>
      refine ⟨hnodes, fun v service hget => ?_, fun i handle hget => ?_⟩
      · exact ⟨service, hregistrations ▸ hget, rfl⟩
      · exact ⟨handle, hhandles ▸ hget, .refl handle, rfl⟩
  | closed hhandles hregistrations hnodes =>
      refine ⟨hnodes, fun v service hget => ⟨service, hregistrations ▸ hget, rfl⟩, fun i handle hget => ?_⟩
      rcases hhandles i with hsame | hclosed
      · exact ⟨handle, hsame.trans hget, .refl handle, rfl⟩
      · refine ⟨handle.close, ?_, handleClose_lasts handle, Service.State.close_slots handle.state⟩
        rw [hclosed, hget]
        rfl
  | tended v f htends =>
      refine ⟨rfl, fun w service hget => ?_, fun i handle hget => ⟨handle, hget, .refl handle, rfl⟩⟩
      change ∃ service', (s.registrations.modify v f)[w]? = _ ∧ _
      rw [List.getElem?_modify, hget]
      by_cases hw : v = w
      · subst hw
        exact ⟨f service, by simp, (htends service hget).options⟩
      · exact ⟨service, by simp [hw], rfl⟩
  | attached n v service a handle hget hnode hfree hidle _ hworking howner hsetup hopening hbegun hhandles hregistrations
      hnodes =>
      obtain ⟨f, hmodify, hoptions, -⟩ := hregistrations
      refine ⟨hnodes, fun w found hfound => ?_, fun i old hold => ?_⟩
      · rw [hmodify, List.getElem?_modify, hfound]
        by_cases hw : v = w
        · subst hw
          obtain rfl := Option.some.inj (hget.symm.trans hfound)
          exact ⟨f service, by simp, hoptions⟩
        · exact ⟨found, by simp [hw], rfl⟩
      · refine ⟨old, ?_, .refl old, rfl⟩
        rw [hhandles, List.getElem?_append_left (List.getElem?_eq_some_iff.mp hold).1]
        exact hold
  | registered service concurrency hoptions hhandles hattaching hsame hregistrations hnodes =>
      refine ⟨hnodes, fun w found hfound => ⟨found, ?_, rfl⟩, fun i handle hget => ?_⟩
      · rw [hregistrations, List.getElem?_append_left (List.getElem?_eq_some_iff.mp hfound).1]
        exact hfound
      · exact ⟨handle, hsame ▸ hget, .refl handle, rfl⟩

theorem Changes.grows (h : s.Changes t) : s.Grows t := by
  induction h with
  | refl => exact .refl s
  | tail _ hchange ih => exact ih.trans hchange.grows

/-- A handle of a service on a node, with the slots that the service asks for. -/
structure Belongs (s : State) (handle : Handle) : Prop where
  node : handle.node < s.nodes.length
  shaped : handle.state.Shaped handle.setup
  service : ∃ service concurrency, s.registrations[handle.service]? = some service ∧
    handle.setup.handleOptions.concurrency = service.options.concurrency ∧
    service.options.concurrency = .number (concurrency : Nat)

/-- The handles that a service has, and the ones that `attach` works on. -/
structure Keeps (s : State) (v : Nat) (service : ClusterService) : Prop where
  attached : ∀ n h, service.handles.lookup n = some h → ∃ handle, s.handles[h]? = some handle ∧ handle.service = v ∧
    handle.node = n ∧ handle.state.phase ≠ .opening ∧ (service.stopped = true → handle.state.stopped = true)
  working : ∀ n a h, service.attaching.lookup n = some a → a.handle = some h →
    ∃ handle, s.handles[h]? = some handle ∧ handle.service = v ∧ handle.node = n
  one : ∀ n h a, service.handles.lookup n = some h → service.attaching.lookup n = some a →
    a.handle = some h ∧ a.ended = true

/-- A handle that is not stopped is attached, or `attach` works on it. -/
def Placed (service : ClusterService) (n h : Nat) : Prop :=
  service.handles.lookup n = some h ∨ ∃ a, service.attaching.lookup n = some a ∧ a.handle = some h ∧ a.ended = false

structure Housed (s : State) : Prop where
  belongs : ∀ handle ∈ s.handles, s.Belongs handle
  numbered : ∀ service ∈ s.registrations, ∃ concurrency : Nat, service.options.concurrency = .number concurrency
  keeps : ∀ (v : Nat) service, s.registrations[v]? = some service → s.Keeps v service
  placed : ∀ (h : Nat) handle service, s.handles[h]? = some handle → handle.state.stopped = false →
    s.registrations[handle.service]? = some service → Placed service handle.node h

theorem Belongs.grows {handle handle' : Handle} (hbelongs : s.Belongs handle) (hgrows : s.Grows t)
    (hlasts : Lasts handle handle') (hshaped : handle'.state.Shaped handle'.setup) : t.Belongs handle' where
  node := by
    rw [hlasts.node, hgrows.nodes]
    exact hbelongs.node
  shaped := hshaped
  service := by
    obtain ⟨service, concurrency, hget, hsetup, hnumber⟩ := hbelongs.service
    obtain ⟨service', hget', hoptions⟩ := hgrows.services _ service hget
    refine ⟨service', concurrency, ?_, ?_, ?_⟩
    · rw [hlasts.service]
      exact hget'
    · rw [hlasts.setup, hoptions]
      exact hsetup
    · rw [hoptions]
      exact hnumber

/-- Only the states of handles have changed, and lastingly. -/
theorem Housed.moved (hs : s.Housed) (hnodes : t.nodes.length = s.nodes.length) (hregistrations : t.registrations = s.registrations)
    (hforth : ∀ (i : Nat) handle, s.handles[i]? = some handle → ∃ handle', t.handles[i]? = some handle' ∧ Lasts handle handle')
    (hback : ∀ (i : Nat) handle', t.handles[i]? = some handle' → ∃ handle, s.handles[i]? = some handle ∧
      Lasts handle handle' ∧ handle'.state.Shaped handle'.setup) : t.Housed where
  belongs handle' hmem := by
    obtain ⟨i, hi⟩ := List.mem_iff_getElem?.mp hmem
    obtain ⟨handle, hget, hlasts, hshaped⟩ := hback i handle' hi
    obtain ⟨hnode, -, hservice⟩ := hs.belongs handle (List.mem_of_getElem? hget)
    refine ⟨?_, hshaped, ?_⟩
    · rw [hlasts.node, hnodes]
      exact hnode
    · rw [hlasts.service, hlasts.setup, hregistrations]
      exact hservice
  numbered := hregistrations ▸ hs.numbered
  keeps v service hget := by
    rw [hregistrations] at hget
    obtain ⟨hattached, hworking, hone⟩ := hs.keeps v service hget
    refine ⟨fun n h hlookup => ?_, fun n a h hlookup ha => ?_, hone⟩
    · obtain ⟨handle, hhandle, hservice, hnode, hopened, hstopped⟩ := hattached n h hlookup
      obtain ⟨handle', hhandle', hlasts⟩ := hforth h handle hhandle
      exact ⟨handle', hhandle', hlasts.service.trans hservice, hlasts.node.trans hnode, hlasts.state.opened hopened,
        hlasts.state.stopped ∘ hstopped⟩
    · obtain ⟨handle, hhandle, hservice, hnode⟩ := hworking n a h hlookup ha
      obtain ⟨handle', hhandle', hlasts⟩ := hforth h handle hhandle
      exact ⟨handle', hhandle', hlasts.service.trans hservice, hlasts.node.trans hnode⟩
  placed h handle' service hget hrunning hservice := by
    obtain ⟨handle, hold, hlasts, -⟩ := hback h handle' hget
    have hwas : handle.state.stopped = false := by
      by_contra hstopped
      rw [hlasts.state.stopped (Bool.eq_true_of_not_eq_false hstopped)] at hrunning
      cases hrunning
    rw [hregistrations, hlasts.service] at hservice
    rw [hlasts.node]
    exact hs.placed h handle service hold hwas hservice

theorem Keeps.tended {v : Nat} {service service' : ClusterService} (h : s.Keeps v service) (htends : s.Tends service service') :
    s.Keeps v service' where
  attached n i hlookup := by
    have hfound : ∃ handle, s.handles[i]? = some handle ∧ handle.service = v ∧ handle.node = n ∧
        handle.state.phase ≠ .opening ∧ (service.stopped = true → handle.state.stopped = true) := by
      cases htends.place n with
      | same hhandles hattaching => exact h.attached n i (hhandles.symm.trans hlookup)
      | left hhandles hattaching hparked => cases hhandles.symm.trans hlookup
      | began a hhandles hfree hidle hrunning hattaching hnone => cases hhandles.symm.trans hlookup
      | ended a hhandles hworking hattaching hstopped => exact h.attached n i (hhandles.symm.trans hlookup)
      | adopted a j ha hhandles hworking hattaching hrunning hserving =>
          obtain rfl := Option.some.inj (hhandles.symm.trans hlookup)
          obtain ⟨handle, hget, hservice, hnode⟩ := h.working n a j hworking ha
          refine ⟨handle, hget, hservice, hnode, ?_, fun hstopped => ?_⟩
          · rw [hserving handle hget]
            exact Service.Phase.noConfusion
          · cases hrunning.symm.trans hstopped
      | gone a hhandles hworking hfinished hattaching => exact h.attached n i (hhandles.symm.trans hlookup)
    obtain ⟨handle, hget, hservice, hnode, hopened, hstopped⟩ := hfound
    refine ⟨handle, hget, hservice, hnode, hopened, fun hstop => ?_⟩
    rcases htends.stopped with hsame | ⟨-, hparked⟩
    · exact hstopped (hsame ▸ hstop)
    · exact hparked n i hlookup handle hget hopened
  working n a' i hlookup ha' := by
    cases htends.place n with
    | same hhandles hattaching => exact h.working n a' i (hattaching.symm.trans hlookup) ha'
    | left hhandles hattaching hparked => exact h.working n a' i (hattaching.symm.trans hlookup) ha'
    | began a hhandles hfree hidle hrunning hattaching hnone =>
        obtain rfl := Option.some.inj (hattaching.symm.trans hlookup)
        cases hnone.symm.trans ha'
    | ended a hhandles hworking hattaching hstopped =>
        obtain rfl := Option.some.inj (hattaching.symm.trans hlookup)
        exact h.working n a i hworking ha'
    | adopted a j ha hhandles hworking hattaching hrunning hserving =>
        obtain rfl := Option.some.inj (hattaching.symm.trans hlookup)
        exact h.working n a i hworking ha'
    | gone a hhandles hworking hfinished hattaching => cases hattaching.symm.trans hlookup
  one n i a' hlookup hlookup' := by
    cases htends.place n with
    | same hhandles hattaching => exact h.one n i a' (hhandles.symm.trans hlookup) (hattaching.symm.trans hlookup')
    | left hhandles hattaching hparked => cases hhandles.symm.trans hlookup
    | began a hhandles hfree hidle hrunning hattaching hnone => cases hhandles.symm.trans hlookup
    | ended a hhandles hworking hattaching hstopped =>
        obtain rfl := Option.some.inj (hattaching.symm.trans hlookup')
        exact ⟨(h.one n i a (hhandles.symm.trans hlookup) hworking).1, rfl⟩
    | adopted a j ha hhandles hworking hattaching hrunning hserving =>
        obtain rfl := Option.some.inj (hattaching.symm.trans hlookup')
        obtain rfl := Option.some.inj (hhandles.symm.trans hlookup)
        exact ⟨ha, rfl⟩
    | gone a hhandles hworking hfinished hattaching => cases hattaching.symm.trans hlookup'

/-- A handle that is not stopped keeps its place. -/
theorem Placed.tended {v n i : Nat} {service service' : ClusterService} {handle : Handle} (hplaced : Placed service n i)
    (h : s.Keeps v service) (htends : s.Tends service service') (hget : s.handles[i]? = some handle)
    (hrunning : handle.state.stopped = false) : Placed service' n i := by
  cases htends.place n with
  | same hhandles hattaching =>
      unfold Placed
      rw [hhandles, hattaching]
      exact hplaced
  | left hhandles hattaching hparked =>
      rcases hplaced with hlookup | hworking
      · obtain ⟨found, hfound, -, -, hopened, -⟩ := h.attached n i hlookup
        obtain rfl := Option.some.inj (hget.symm.trans hfound)
        cases hrunning.symm.trans (hparked i hlookup handle hget hopened)
      · exact Or.inr (hattaching ▸ hworking)
  | began a hhandles hfree hidle hrunning hattaching hnone =>
      rcases hplaced with hlookup | ⟨a', hworking, -⟩
      · cases hfree.symm.trans hlookup
      · cases hidle.symm.trans hworking
  | ended a hhandles hworking hattaching hstopped =>
      rcases hplaced with hlookup | ⟨a', hlookup, ha', -⟩
      · exact Or.inl (hhandles.trans hlookup)
      · obtain rfl := Option.some.inj (hworking.symm.trans hlookup)
        cases hrunning.symm.trans (hstopped i ha' handle hget)
  | adopted a j ha hhandles hworking hattaching hservice hserving =>
      left
      rcases hplaced with hlookup | ⟨a', hlookup, ha', -⟩
      · obtain ⟨hsame, -⟩ := h.one n i a hlookup hworking
        rw [hhandles, ← hsame, ha]
      · obtain rfl := Option.some.inj (hworking.symm.trans hlookup)
        rw [hhandles, ← ha', ha]
  | gone a hhandles hworking hfinished hattaching =>
      rcases hplaced with hlookup | ⟨a', hlookup, -, hbegun⟩
      · exact Or.inl (hhandles.trans hlookup)
      · obtain rfl := Option.some.inj (hworking.symm.trans hlookup)
        cases hfinished.symm.trans hbegun

theorem Keeps.mono {v : Nat} {service : ClusterService} (h : s.Keeps v service)
    (hhandles : ∀ (i : Nat) handle, s.handles[i]? = some handle → t.handles[i]? = some handle) : t.Keeps v service where
  attached n i hlookup := by
    obtain ⟨handle, hget, hrest⟩ := h.attached n i hlookup
    exact ⟨handle, hhandles i handle hget, hrest⟩
  working n a i hlookup ha := by
    obtain ⟨handle, hget, hrest⟩ := h.working n a i hlookup ha
    exact ⟨handle, hhandles i handle hget, hrest⟩
  one := h.one

theorem Housed.modify (hs : s.Housed) {v : Nat} {f : ClusterService → ClusterService}
    (htends : ∀ service, s.registrations[v]? = some service → s.Tends service (f service)) : (s.modifyService v f).Housed := by
  have hgrows := (Change.tended v f htends).grows
  have hget : ∀ (w : Nat) service', (s.modifyService v f).registrations[w]? = some service' →
      ∃ service, s.registrations[w]? = some service ∧ (service' = service ∨ (s.Tends service service')) := by
    intro w service' hservice'
    change (s.registrations.modify v f)[w]? = _ at hservice'
    rw [List.getElem?_modify, Option.map_eq_map, Option.map_eq_some_iff] at hservice'
    obtain ⟨service, hservice, rfl⟩ := hservice'
    refine ⟨service, hservice, ?_⟩
    split_ifs with hw
    · subst hw
      exact Or.inr (htends service hservice)
    · exact Or.inl rfl
  refine ⟨fun handle hmem => ?_, fun service' hmem => ?_, fun w service' hservice' => ?_,
    fun h handle service' hhandle hrunning hservice' => ?_⟩
  · exact (hs.belongs handle hmem).grows hgrows (.refl handle) (hs.belongs handle hmem).shaped
  · obtain ⟨w, hw⟩ := List.mem_iff_getElem?.mp hmem
    obtain ⟨service, hservice, hchange⟩ := hget w service' hw
    obtain ⟨concurrency, hconcurrency⟩ := hs.numbered service (List.mem_of_getElem? hservice)
    refine ⟨concurrency, ?_⟩
    rcases hchange with rfl | htend
    · exact hconcurrency
    · rw [htend.options]
      exact hconcurrency
  · obtain ⟨service, hservice, hchange⟩ := hget w service' hservice'
    have hkeeps := hs.keeps w service hservice
    rcases hchange with rfl | htend
    · exact hkeeps.mono fun _ _ hsame => hsame
    · exact (hkeeps.tended htend).mono fun _ _ hsame => hsame
  · obtain ⟨service, hservice, hchange⟩ := hget _ service' hservice'
    have hplaced := hs.placed h handle service hhandle hrunning hservice
    rcases hchange with rfl | htend
    · exact hplaced
    · exact hplaced.tended (hs.keeps _ service hservice) htend hhandle hrunning

theorem Change.housed (h : s.Change t) (hs : s.Housed) : t.Housed := by
  cases h with
  | other hhandles hregistrations hnodes =>
      refine hs.moved hnodes hregistrations (fun i handle hget => ?_) fun i handle hget => ?_
      · exact ⟨handle, hhandles ▸ hget, .refl handle⟩
      · rw [hhandles] at hget
        exact ⟨handle, hget, .refl handle, (hs.belongs handle (List.mem_of_getElem? hget)).shaped⟩
  | closed hhandles hregistrations hnodes =>
      refine hs.moved hnodes hregistrations (fun i handle hget => ?_) fun i handle' hget => ?_
      · rcases hhandles i with hsame | hclosed
        · exact ⟨handle, hsame.trans hget, .refl handle⟩
        · refine ⟨handle.close, ?_, handleClose_lasts handle⟩
          rw [hclosed, hget]
          rfl
      · rcases hhandles i with hsame | hclosed
        · have hold := hsame.symm.trans hget
          exact ⟨handle', hold, .refl handle', (hs.belongs handle' (List.mem_of_getElem? hold)).shaped⟩
        · obtain ⟨handle, hold, rfl⟩ := Option.map_eq_some_iff.mp (hclosed.symm.trans hget)
          exact ⟨handle, hold, handleClose_lasts handle, (hs.belongs handle (List.mem_of_getElem? hold)).shaped.close⟩
  | tended v f htends => exact hs.modify htends
  | attached n v service a handle hget hnode hfree hidle hstarted hworking howner hsetup hopening hbegun hhandles
      hregistrations hnodes =>
      have hgrows := (Change.attached n v service a handle hget hnode hfree hidle hstarted hworking howner hsetup hopening
        hbegun hhandles hregistrations hnodes).grows
      obtain ⟨f, hmodify, hoptions, hstopped, hsame, hinsert⟩ := hregistrations
      have hold : ∀ (i : Nat) old, s.handles[i]? = some old → t.handles[i]? = some old := by
        intro i old hi
        rw [hhandles, List.getElem?_append_left (List.getElem?_eq_some_iff.mp hi).1]
        exact hi
      have hnew : t.handles[s.handles.length]? = some handle := by
        rw [hhandles, List.getElem?_concat_length]
      have hservices : ∀ (w : Nat) service', t.registrations[w]? = some service' →
          (∃ old, w ≠ v ∧ s.registrations[w]? = some old ∧ service' = old) ∨ (w = v ∧ service' = f service) := by
        intro w service' hservice'
        rw [hmodify, List.getElem?_modify, Option.map_eq_map, Option.map_eq_some_iff] at hservice'
        obtain ⟨old, hw, rfl⟩ := hservice'
        by_cases hvw : v = w
        · subst hvw
          obtain rfl := Option.some.inj (hget.symm.trans hw)
          exact Or.inr ⟨rfl, if_pos rfl⟩
        · exact Or.inl ⟨old, Ne.symm hvw, hw, if_neg hvw⟩
      obtain ⟨concurrency, hconcurrency⟩ := hs.numbered service (List.mem_of_getElem? hget)
      have hkeeps := hs.keeps v service hget
      refine ⟨fun old hmem => ?_, fun service' hmem => ?_, fun w service' hservice' => ?_,
        fun i old service' hi hrunning hservice' => ?_⟩
      · rw [hhandles, List.mem_append, List.mem_singleton] at hmem
        rcases hmem with hmem | rfl
        · exact (hs.belongs old hmem).grows hgrows (.refl old) (hs.belongs old hmem).shaped
        · obtain ⟨service', hget', hoptions'⟩ := hgrows.services v service hget
          refine ⟨?_, ⟨fun _ => hopening.2, fun hserving => ?_, fun hfailed => ?_⟩, service', concurrency, ?_, ?_, ?_⟩
          · rw [howner.2, hnodes]
            exact hnode
          · cases hopening.1.symm.trans hserving
          · cases hopening.1.symm.trans hfailed
          · rw [howner.1]
            exact hget'
          · rw [hoptions']
            exact hsetup
          · rw [hoptions']
            exact hconcurrency
      · obtain ⟨w, hw⟩ := List.mem_iff_getElem?.mp hmem
        rcases hservices w service' hw with ⟨old, -, hold, rfl⟩ | ⟨rfl, rfl⟩
        · exact hs.numbered service' (List.mem_of_getElem? hold)
        · rw [hoptions]
          exact ⟨concurrency, hconcurrency⟩
      · rcases hservices w service' hservice' with ⟨found, -, hfound, rfl⟩ | ⟨rfl, rfl⟩
        · exact (hs.keeps w service' hfound).mono hold
        · refine ⟨fun m i hlookup => ?_, fun m a' i hlookup ha' => ?_, fun m i a' hlookup hlookup' => ?_⟩
          · rw [hsame] at hlookup
            rw [hstopped]
            exact (hkeeps.mono hold).attached m i hlookup
          · rw [hinsert, Table.lookup_insert_ite] at hlookup
            split_ifs at hlookup with hm
            · rw [← Option.some.inj hlookup, hworking] at ha'
              rw [← Option.some.inj ha', hm]
              exact ⟨handle, hnew, howner⟩
            · exact (hkeeps.mono hold).working m a' i hlookup ha'
          · rw [hsame] at hlookup
            rw [hinsert, Table.lookup_insert_ite] at hlookup'
            split_ifs at hlookup' with hm
            · rw [hm, hfree] at hlookup
              cases hlookup
            · exact hkeeps.one m i a' hlookup hlookup'
      · have hplaced : ∀ (m : Nat), Placed service m i → Placed (f service) m i := by
          intro m hwas
          unfold Placed
          rw [hsame, hinsert, Table.lookup_insert_ite]
          rcases hwas with hlookup | ⟨a', hlookup, hrest⟩
          · exact Or.inl hlookup
          · right
            refine ⟨a', ?_, hrest⟩
            rw [if_neg]
            · exact hlookup
            · rintro rfl
              cases hidle.symm.trans hlookup
        rw [hhandles, List.getElem?_append] at hi
        split_ifs at hi with hlt
        · rcases hservices _ service' hservice' with ⟨found, -, hfound, rfl⟩ | ⟨hv, rfl⟩
          · exact hs.placed i old service' hi hrunning hfound
          · exact hplaced _ (hs.placed i old service hi hrunning (hv ▸ hget))
        · rw [List.getElem?_singleton] at hi
          split_ifs at hi with hzero
          obtain rfl := Option.some.inj hi
          have hlast : i = s.handles.length := by omega
          rcases hservices _ service' hservice' with ⟨found, hne, -⟩ | ⟨-, rfl⟩
          · exact absurd howner.1 hne
          · right
            refine ⟨a, ?_, hlast ▸ hworking, hbegun⟩
            rw [hinsert, howner.2, Table.lookup_insert_ite, if_pos rfl]
  | registered service concurrency hoptions hhandles hattaching hsame hregistrations hnodes =>
      have hgrows := (Change.registered service concurrency hoptions hhandles hattaching hsame hregistrations hnodes).grows
      refine ⟨fun handle hmem => ?_, fun service' hmem => ?_, fun w service' hservice' => ?_,
        fun i handle service' hi hrunning hservice' => ?_⟩
      · rw [hsame] at hmem
        exact (hs.belongs handle hmem).grows hgrows (.refl handle) (hs.belongs handle hmem).shaped
      · rw [hregistrations, List.mem_append, List.mem_singleton] at hmem
        rcases hmem with hmem | rfl
        · exact hs.numbered service' hmem
        · exact ⟨concurrency, hoptions⟩
      · rw [hregistrations, List.getElem?_append] at hservice'
        split_ifs at hservice' with hlt
        · exact (hs.keeps w service' hservice').mono fun i handle hi => hsame ▸ hi
        · rw [List.getElem?_singleton] at hservice'
          split_ifs at hservice' with hzero
          obtain rfl := Option.some.inj hservice'
          refine ⟨fun n i hlookup => ?_, fun n a i hlookup => ?_, fun n i a hlookup => ?_⟩
          · rw [hhandles] at hlookup
            cases hlookup
          · rw [hattaching] at hlookup
            cases hlookup
          · rw [hhandles] at hlookup
            cases hlookup
      · rw [hsame] at hi
        obtain ⟨found, -, hfound, -⟩ := (hs.belongs handle (List.mem_of_getElem? hi)).service
        have hfound' : t.registrations[handle.service]? = some found := by
          rw [hregistrations, List.getElem?_append_left (List.getElem?_eq_some_iff.mp hfound).1]
          exact hfound
        obtain rfl := Option.some.inj (hfound'.symm.trans hservice')
        exact hs.placed i handle found hi hrunning hfound

theorem Changes.housed (h : s.Changes t) (hs : s.Housed) : t.Housed := by
  induction h with
  | refl => exact hs
  | tail _ hchange ih => exact hchange.housed ih

/-! ### Steps -/

/-- A handle has moved on. -/
def setHandle (h : Nat) (state : Service.State) (s : State) : State :=
  { s with handles := s.handles.modify h fun handle => { handle with state := state } }

theorem follow_changes {h : Nat} {handle : Handle} (state : Service.State) (s : State) :
    (s.setHandle h state).Changes (s.follow options now h handle state) := by
  unfold follow
  dsimp only
  split_ifs
  · exact onError_changes handle _
  · exact .refl

theorem service_changes {h : Nat} {op : Service.Op} (hstep : s.Step options now (.service h op) t) :
    ∃ handle state, s.handles[h]? = some handle ∧ handle.state.Step handle.setup op state ∧ (s.setHandle h state).Changes t := by
  obtain ⟨handle, state, hget, hmoved, hrest⟩ := hstep
  refine ⟨handle, state, hget, hmoved, ?_⟩
  split at hrest
  · exact hrest.elim
  · rw [hrest.2]
    exact follow_changes state s
  · rw [hrest.2]
    exact follow_changes state s
  · rw [hrest]
    exact follow_changes state s

/-- Every other step is made of changes. -/
theorem step_changes (hs : s.Housed) {op : Op} (hop : ∀ h step, op ≠ .service h step) (hstep : s.Step options now op t) :
    s.Changes t := by
  cases op with
  | client c op =>
      obtain ⟨connection, state, -, -, -, -, rfl⟩ := hstep
      exact update_changes c state s
  | service h op => exact absurd rfl (hop h op)
  | opened =>
      obtain ⟨-, -, rfl⟩ := hstep
      split_ifs
      · exact Changes.of_same rfl rfl rfl
      · exact (Changes.of_same (s := s) (t := { s with phase := .refused }) rfl rfl rfl).trans (shutdown_changes _)
  | connected n random =>
      obtain ⟨-, -, node, attempt, dial, -, -, hrest⟩ := hstep
      cases dial with
      | invalid reason =>
          rw [show t = _ from hrest]
          exact connectFailed_changes random n reason s
      | dialling c =>
          obtain ⟨connection, -, ⟨-, rfl⟩ | ⟨-, -, rfl⟩⟩ := hrest
          · exact welcome_changes n c s
          · exact connectFailed_changes random n _ s
      | ending => exact hrest.elim
  | connectEnd n =>
      obtain ⟨node, attempt, -, -, rfl⟩ := hstep
      exact modifyNode_changes n _ s
  | notify n =>
      obtain ⟨node, c, -, -, -, rfl⟩ := hstep
      exact notify_changes c s
  | tick sockets => exact tick_changes hstep.2.2
  | pinged n =>
      obtain ⟨ping, outcome, -, -, rfl⟩ := hstep
      exact pinged_changes n ping outcome s
  | ticked =>
      obtain ⟨-, -, rfl⟩ := hstep
      exact Changes.of_same rfl rfl rfl
  | request route payload requestOptions socket => exact request_changes hstep.2
  | answered id socket =>
      obtain ⟨request, attempt, outcome, -, -, hresume⟩ := hstep
      exact resume_changes hresume
  | handle route handler handleOptions =>
      obtain ⟨-, hrest⟩ := hstep
      split at hrest
      · rw [hrest]
      · rename_i next hregister
        rw [hrest]
        exact register_changes hregister
  | handled v =>
      obtain ⟨-, service, -, rfl⟩ := hstep
      have hwaited : s.Changes { s with registering := s.registering.erase v } := .of_same rfl rfl rfl
      split_ifs
      · exact hwaited.trans (closeService_changes v _)
      · exact hwaited
  | attached n v =>
      obtain ⟨service, a, hget, hworking, -, hrest⟩ := hstep
      split at hrest
      · rename_i hnone
        rw [hrest]
        refine attachFailed_changes hget hworking fun h hh => ?_
        cases hnone.symm.trans hh
      · rename_i h hh
        obtain ⟨handle, hhandle, ⟨hserving, rfl⟩ | ⟨hfailed, rfl⟩⟩ := hrest
        · exact adopt_changes hget hworking hh hhandle hserving
        · refine attachFailed_changes hget hworking fun i hi found hfound => ?_
          obtain rfl := Option.some.inj (hh.symm.trans hi)
          obtain rfl := Option.some.inj (hhandle.symm.trans hfound)
          exact (hs.belongs handle (List.mem_of_getElem? hhandle)).shaped.failed hfailed
  | attachEnd n v =>
      obtain ⟨service, a, hget, hworking, hended, rfl⟩ := hstep
      apply Relation.ReflTransGen.single
      apply Change.tended
      intro found hfound
      obtain rfl := Option.some.inj (hget.symm.trans hfound)
      refine ⟨rfl, Or.inl rfl, fun m => ?_⟩
      by_cases hm : m = n
      · subst hm
        exact .gone a rfl hworking hended (by rw [Table.lookup_erase_ite, if_pos rfl])
      · exact .same rfl (by rw [Table.lookup_erase_ite, if_neg hm])
  | closeService v =>
      rw [show t = s.closeService v from hstep]
      exact closeService_changes v s
  | serviceClosed v =>
      obtain ⟨service, hget, hstopped, rfl⟩ := hstep
      apply Relation.ReflTransGen.single
      apply Change.tended
      intro found hfound
      obtain rfl := Option.some.inj (hget.symm.trans hfound)
      refine ⟨rfl, Or.inl rfl, fun n => .left rfl rfl fun h hlookup => ?_⟩
      obtain ⟨handle, hhandle, -, -, -, hclosed⟩ := (hs.keeps v service hget).attached n h hlookup
      intro other hother _
      obtain rfl := Option.some.inj (hhandle.symm.trans hother)
      exact hclosed hstopped
  | close =>
      obtain ⟨-, rfl⟩ := hstep
      exact shutdown_changes s
  | clientsClosed =>
      obtain ⟨services, -, -, rfl⟩ := hstep
      exact Changes.of_same rfl rfl rfl
  | connectingEnded =>
      obtain ⟨attempts, -, -, rfl⟩ := hstep
      exact Changes.of_same rfl rfl rfl
  | tickingEnded =>
      obtain ⟨-, -, rfl⟩ := hstep
      exact Changes.of_same rfl rfl (List.length_map ..)

theorem getElem?_setHandle (h i : Nat) (state : Service.State) (s : State) :
    (s.setHandle h state).handles[i]? =
      (s.handles[i]?).map fun handle => if h = i then { handle with state := state } else handle :=
  List.getElem?_modify _ h s.handles i

/-- The step of a service lets its handle last. -/
theorem Housed.service_lasts (hs : s.Housed) {h : Nat} {handle : Handle} (hget : s.handles[h]? = some handle)
    {op : Service.Op} {state : Service.State} (hmoved : handle.state.Step handle.setup op state) :
    state.Shaped handle.setup ∧ Lasts handle { handle with state := state } := by
  obtain ⟨hshaped, hlasts⟩ := Service.State.step_shaped (hs.belongs handle (List.mem_of_getElem? hget)).shaped hmoved
  exact ⟨hshaped, rfl, rfl, rfl, hlasts⟩

theorem Housed.setHandle (hs : s.Housed) {h : Nat} {handle : Handle} (hget : s.handles[h]? = some handle)
    {op : Service.Op} {state : Service.State} (hmoved : handle.state.Step handle.setup op state) :
    (s.setHandle h state).Housed := by
  obtain ⟨hshaped, hlasts⟩ := hs.service_lasts hget hmoved
  refine hs.moved rfl rfl (fun i found hfound => ?_) fun i found' hfound' => ?_
  · rw [getElem?_setHandle, hfound, Option.map_some]
    by_cases hi : h = i
    · subst hi
      obtain rfl := Option.some.inj (hget.symm.trans hfound)
      exact ⟨_, if_pos rfl ▸ rfl, hlasts⟩
    · exact ⟨found, by rw [if_neg hi], .refl found⟩
  · rw [getElem?_setHandle, Option.map_eq_some_iff] at hfound'
    obtain ⟨found, hfound, rfl⟩ := hfound'
    refine ⟨found, hfound, ?_⟩
    split_ifs with hi
    · subst hi
      obtain rfl := Option.some.inj (hget.symm.trans hfound)
      exact ⟨hlasts, hshaped⟩
    · exact ⟨.refl found, (hs.belongs found (List.mem_of_getElem? hfound)).shaped⟩

theorem Housed.step (hs : s.Housed) {op : Op} (hstep : s.Step options now op t) : t.Housed := by
  by_cases hop : ∃ h step, op = .service h step
  · obtain ⟨h, step, rfl⟩ := hop
    obtain ⟨handle, state, hget, hmoved, hchanges⟩ := service_changes hstep
    exact hchanges.housed (hs.setHandle hget hmoved)
  · refine (step_changes hs (fun h step heq => hop ⟨h, step, heq⟩) hstep).housed hs

theorem new_housed (options : Options) : (new options).Housed := by
  refine ⟨fun handle hmem => ?_, fun service hmem => ?_, fun v service hget => ?_, fun h handle service hget => ?_⟩
  · cases hmem
  · cases hmem
  · cases hget
  · cases hget

/-- **Of the handles of a service on one node, at most one is not stopped.** -/
theorem Housed.unique (hs : s.Housed) {h i : Nat} {handle handle' : Handle} (hget : s.handles[h]? = some handle)
    (hget' : s.handles[i]? = some handle') (hservice : handle.service = handle'.service) (hnode : handle.node = handle'.node)
    (hrunning : handle.state.stopped = false) (hrunning' : handle'.state.stopped = false) : h = i := by
  obtain ⟨service, -, hfound, -⟩ := (hs.belongs handle (List.mem_of_getElem? hget)).service
  have hplaced := hs.placed h handle service hget hrunning hfound
  have hplaced' := hs.placed i handle' service hget' hrunning' (hservice ▸ hfound)
  rw [← hnode] at hplaced'
  have hone := (hs.keeps _ service hfound).one handle.node
  rcases hplaced with hlookup | ⟨a, hworking, ha, hbegun⟩
  · rcases hplaced' with hlookup' | ⟨a', hworking', -, hbegun'⟩
    · exact Option.some.inj (hlookup.symm.trans hlookup')
    · cases (hone h a' hlookup hworking').2.symm.trans hbegun'
  · rcases hplaced' with hlookup' | ⟨a', hworking', ha', -⟩
    · cases (hone i a hlookup' hworking).2.symm.trans hbegun
    · obtain rfl := Option.some.inj (hworking.symm.trans hworking')
      exact Option.some.inj (ha.symm.trans ha')

end State

theorem housed {options : Options} {s : State} (h : (machine options).Reachable s) : s.Housed := by
  apply h.invariant
  · intro s hs
    rw [show s = _ from hs]
    exact (State.Changes.foldl (fun s n => State.connectNode_changes n s) _ _).housed (State.new_housed options)
  · intro s event t _ hs hstep
    exact hs.step hstep

end VeloBus.Cluster
