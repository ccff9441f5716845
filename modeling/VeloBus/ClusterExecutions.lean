import VeloBus.ClusterWorkers

/-! The executions of a service beside its gate: those that wait at the gate are acquiring, and those that hold a place of
it are not settled. -/

namespace VeloBus.Cluster

open Client (Failure Outcome)

namespace HandlerGate

variable {gate next : HandlerGate}

/-- What serving and aborting waiters leaves. -/
structure Serves (gate next : HandlerGate) : Prop where
  limit : next.limit = gate.limit
  maxWaiting : next.maxWaiting = gate.maxWaiting
  acquired : next.acquired = gate.acquired
  waiters : next.waiters ⊆ gate.waiters
  settled : gate.settled ⊆ next.settled
  entries : ∀ entry ∈ next.settled, entry ∈ gate.settled ∨
    (entry.1 ∈ gate.waiters.map Waiter.ticket ∧ ∀ message, entry.2 ≠ .refused message)

theorem mem_granted {ticket : Nat} : ticket ∈ gate.granted ↔ (ticket, Verdict.granted) ∈ gate.settled := by
  unfold granted
  rw [List.mem_filterMap]
  constructor
  · rintro ⟨⟨other, verdict⟩, hmem, heq⟩
    cases verdict with
    | granted =>
        obtain rfl := Option.some.inj heq
        exact hmem
    | aborted => cases heq
    | refused message => cases heq
  · intro hmem
    exact ⟨(ticket, .granted), hmem, rfl⟩

theorem Serves.refl (gate : HandlerGate) : gate.Serves gate :=
  ⟨rfl, rfl, rfl, List.Subset.refl _, List.Subset.refl _, fun _ hmem => Or.inl hmem⟩

theorem Serves.trans {last : HandlerGate} (h : gate.Serves next) (h' : next.Serves last) : gate.Serves last where
  limit := h'.limit.trans h.limit
  maxWaiting := h'.maxWaiting.trans h.maxWaiting
  acquired := h'.acquired.trans h.acquired
  waiters := List.Subset.trans h'.waiters h.waiters
  settled := List.Subset.trans h.settled h'.settled
  entries entry hmem := by
    rcases h'.entries entry hmem with hold | ⟨hticket, hverdict⟩
    · exact h.entries entry hold
    · exact Or.inr ⟨List.map_subset _ h.waiters hticket, hverdict⟩

theorem serve_serves (waiters : List Waiter) (gate : HandlerGate) (hwaiters : waiters ⊆ gate.waiters) :
    gate.Serves (serve waiters gate) := by
  induction waiters generalizing gate with
  | nil => exact ⟨rfl, rfl, rfl, List.nil_subset _, List.Subset.refl _, fun _ hmem => Or.inl hmem⟩
  | cons waiter waiters ih =>
      have hrest : waiters ⊆ gate.waiters := List.Subset.trans (List.subset_cons_self _ _) hwaiters
      have hsettle : ∀ (verdict : Verdict) (active : Int), (∀ message, verdict ≠ .refused message) →
          gate.Serves (settle waiter.ticket verdict { gate with active := active }) := by
        intro verdict active hverdict
        refine ⟨rfl, rfl, rfl, List.Subset.refl _, List.subset_append_left _ _, fun entry hmem => ?_⟩
        rcases List.mem_append.mp hmem with hold | hnew
        · exact Or.inl hold
        · obtain rfl := List.mem_singleton.mp hnew
          exact Or.inr ⟨List.mem_map_of_mem (hwaiters List.mem_cons_self), hverdict⟩
      unfold serve
      split_ifs
      · exact (hsettle .aborted gate.active fun _ => Verdict.noConfusion).trans (ih _ hrest)
      · exact (hsettle .granted (gate.active + 1) fun _ => Verdict.noConfusion).trans (ih _ hrest)
      · exact ⟨rfl, rfl, rfl, hwaiters, List.Subset.refl _, fun _ hmem => Or.inl hmem⟩

theorem release_serves (ticket : Nat) (gate : HandlerGate) : gate.Serves (gate.release ticket) := by
  unfold HandlerGate.release
  split_ifs
  · exact .refl gate
  · have hserves := serve_serves gate.waiters
      { gate with released := ticket :: gate.released, active := gate.active - 1 } (List.Subset.refl _)
    exact ⟨hserves.limit, hserves.maxWaiting, hserves.acquired, hserves.waiters, hserves.settled, hserves.entries⟩

theorem mem_released_release {ticket other : Nat} :
    other ∈ (gate.release ticket).released ↔ other = ticket ∨ other ∈ gate.released := by
  unfold HandlerGate.release
  split_ifs with hagain
  · constructor
    · exact Or.inr
    · rintro (rfl | hmem)
      · exact hagain
      · exact hmem
  · rw [(serve_kept _ _).2.2]
    exact List.mem_cons

theorem abort_serves {waiter : Waiter} (hmem : waiter ∈ gate.waiters) : gate.Serves (gate.abort waiter.ticket) := by
  refine ⟨rfl, rfl, rfl, List.filter_sublist.subset, List.subset_append_left _ _, fun entry hentry => ?_⟩
  rcases List.mem_append.mp hentry with hold | hnew
  · exact Or.inl hold
  · obtain rfl := List.mem_singleton.mp hnew
    exact Or.inr ⟨List.mem_map_of_mem hmem, fun _ => Verdict.noConfusion⟩

/-- The listeners of a signal take its waiters away. -/
structure Cancels (signal : Nat) (gate next : HandlerGate) : Prop extends gate.Serves next where
  inv : next.Inv
  released : next.released = gate.released
  left : ∀ waiter ∈ next.waiters, waiter.signal ≠ signal

theorem cancel_cancels (h : gate.Inv) (signal : Nat) : Cancels signal gate (gate.cancel signal) := by
  have hloop : ∀ (due : List Waiter) (other : HandlerGate), other.Inv → due ⊆ other.waiters →
      (due.map Waiter.ticket).Nodup → (∀ waiter ∈ other.waiters, waiter.signal = signal → waiter ∈ due) →
      Cancels signal other (due.foldl (fun gate waiter => gate.abort waiter.ticket) other) := by
    intro due
    induction due with
    | nil =>
        intro other hother _ _ hdue
        exact ⟨.refl other, hother, rfl, fun waiter hmem hsignal => by cases hdue waiter hmem hsignal⟩
    | cons waiter due ih =>
        intro other hother hsubset hnodup hdue
        rw [List.map_cons, List.nodup_cons] at hnodup
        have hmem := hsubset List.mem_cons_self
        have hcancels := ih (other.abort waiter.ticket) (hother.abort hmem) (fun later hlater => ?_) hnodup.2
          (fun later hlater hsignal => ?_)
        · exact ⟨(abort_serves hmem).trans hcancels.toServes, hcancels.inv, hcancels.released, hcancels.left⟩
        · refine List.mem_filter.mpr ⟨hsubset (List.mem_cons_of_mem _ hlater), decide_eq_true ?_⟩
          intro hsame
          exact hnodup.1 (hsame ▸ List.mem_map_of_mem hlater)
        · obtain ⟨hbefore, hother⟩ := List.mem_filter.mp hlater
          rcases List.mem_cons.mp (hdue later hbefore hsignal) with rfl | hrest
          · exact absurd rfl (of_decide_eq_true hother)
          · exact hrest
  have hmarked : Inv { gate with aborted := signal :: gate.aborted } :=
    ⟨⟨h.active, h.bounded, h.tickets, h.sorted, h.released⟩, h.queue, h.full⟩
  have hnodup : (gate.waiters.map Waiter.ticket).Nodup :=
    (List.pairwise_append.mp h.sorted).2.1.imp fun hlt => hlt.ne
  have hcancels := hloop (gate.waiters.filter fun waiter => waiter.signal = signal) _ hmarked List.filter_sublist.subset
    ((List.filter_sublist.map _).nodup hnodup)
    (fun waiter hmem hsignal => List.mem_filter.mpr ⟨hmem, decide_eq_true hsignal⟩)
  exact ⟨⟨hcancels.limit, hcancels.maxWaiting, hcancels.acquired, hcancels.waiters, hcancels.settled, hcancels.entries⟩,
    hcancels.inv, hcancels.released, hcancels.left⟩

theorem mem_cancel (signal : Nat) (gate : HandlerGate) : signal ∈ (gate.cancel signal).aborted := by
  have hkept : ∀ (due : List Waiter) (other : HandlerGate),
      (due.foldl (fun gate waiter => gate.abort waiter.ticket) other).aborted = other.aborted := by
    intro due
    induction due with
    | nil => exact fun _ => rfl
    | cons waiter due ih => exact fun other => ih (other.abort waiter.ticket)
  unfold cancel
  rw [hkept]
  exact List.mem_cons_self

/-- An acquire that finds room is granted, aborted or waits. -/
theorem acquire_cases (signal : Nat) (hroom : gate.waiters.length < gate.maxWaiting) :
    (gate.acquire signal).limit = gate.limit ∧ (gate.acquire signal).maxWaiting = gate.maxWaiting ∧
    (gate.acquire signal).acquired = gate.acquired + 1 ∧ (gate.acquire signal).released = gate.released ∧
    ((∃ verdict, (∀ message, verdict ≠ .refused message) ∧ (gate.acquire signal).waiters = gate.waiters ∧
        (gate.acquire signal).settled = gate.settled ++ [(gate.acquired, verdict)]) ∨
      (signal ∉ gate.aborted ∧ (gate.acquire signal).waiters = gate.waiters ++ [⟨gate.acquired, signal⟩] ∧
        (gate.acquire signal).settled = gate.settled)) := by
  unfold HandlerGate.acquire
  dsimp only
  split_ifs with haborted hfree hfull
  · exact ⟨rfl, rfl, rfl, rfl, Or.inl ⟨.aborted, fun _ => Verdict.noConfusion, rfl, rfl⟩⟩
  · exact ⟨rfl, rfl, rfl, rfl, Or.inl ⟨.granted, fun _ => Verdict.noConfusion, rfl, rfl⟩⟩
  · exact absurd hroom (not_lt.mpr hfull)
  · exact ⟨rfl, rfl, rfl, rfl, Or.inr ⟨haborted, rfl, rfl⟩⟩

end HandlerGate

/-- An execution that has given its place back, or never had one. -/
def Stage.done : Stage → Bool
  | acquiring => false
  | running _ => false
  | settled _ => true
  | returned => true

namespace Workers

variable {w : Workers} {s t : State} {v : Nat}

/-- The executions agree with the gate: those that wait are acquiring, and those that hold a place are not done. -/
structure Tallied (w : Workers) : Prop where
  gate : w.gate.Inv
  acquired : w.gate.acquired = w.executions.length
  waits : ∀ waiter ∈ w.gate.waiters, waiter.signal = waiter.ticket ∧
    ∃ execution, w.executions[waiter.ticket]? = some execution ∧ execution.stage = .acquiring ∧ execution.reason = none
  held : ∀ (i : Nat) execution, w.executions[i]? = some execution → i ∈ w.gate.granted →
    (i ∈ w.gate.released ↔ execution.stage.done = true)
  running : ∀ (i : Nat) execution remainingMs, w.executions[i]? = some execution →
    execution.stage = .running remainingMs → i ∈ w.gate.granted
  refused : ∀ ticket message, (ticket, Verdict.refused message) ∉ w.gate.settled

/-- Every execution is of a slot of a handle of the service, until the slot goes on. -/
structure Seated (s : State) (v : Nat) (w : Workers) : Prop where
  slots : ∀ (i : Nat) execution, w.executions[i]? = some execution → ∃ handle, s.handles[execution.handle]? = some handle ∧
    handle.service = v ∧
    (execution.stage ≠ .returned → handle.state.slots[execution.slot]? = some (.executing execution.job))
  apart : ∀ (i j : Nat) execution execution', w.executions[i]? = some execution → w.executions[j]? = some execution' →
    execution.stage ≠ .returned → execution'.stage ≠ .returned → execution.handle = execution'.handle →
    execution.slot = execution'.slot → i = j

/-- Nothing waits for a handle that is stopped. -/
def Live (s : State) (w : Workers) : Prop :=
  ∀ waiter ∈ w.gate.waiters, ∀ execution, w.executions[waiter.ticket]? = some execution → s.runs execution.handle = true

/-- A waiter is not granted. -/
theorem Tallied.notMem_granted (h : w.Tallied) {ticket : Nat} (hwaits : ticket ∈ w.gate.waiters.map Waiter.ticket) :
    ticket ∉ w.gate.granted := fun hgranted =>
  h.gate.toKept.once.2 ticket .granted (HandlerGate.mem_granted.mp hgranted) hwaits

/-- One execution moves on, and the gate with it. -/
theorem Tallied.move (h : w.Tallied) {gate : HandlerGate} {ticket : Nat} {f : Execution → Execution}
    (hserves : w.gate.Serves gate) (hinv : gate.Inv)
    (hreleased : ∀ i, i ≠ ticket → (i ∈ gate.released ↔ i ∈ w.gate.released))
    (hleft : ticket ∉ gate.waiters.map Waiter.ticket)
    (hheld : ∀ execution, w.executions[ticket]? = some execution → ticket ∈ gate.granted →
      (ticket ∈ gate.released ↔ (f execution).stage.done = true))
    (hrunning : ∀ execution remainingMs, w.executions[ticket]? = some execution →
      (f execution).stage = .running remainingMs → ticket ∈ gate.granted) :
    Tallied ⟨gate, w.executions.modify ticket f⟩ := by
  have hget : ∀ (i : Nat) moved, (w.executions.modify ticket f)[i]? = some moved →
      (i ≠ ticket ∧ w.executions[i]? = some moved) ∨
        (i = ticket ∧ ∃ execution, w.executions[ticket]? = some execution ∧ moved = f execution) := by
    intro i moved hmoved
    rw [List.getElem?_modify, Option.map_eq_map, Option.map_eq_some_iff] at hmoved
    obtain ⟨execution, hexecution, rfl⟩ := hmoved
    split_ifs with hi
    · subst hi
      exact Or.inr ⟨rfl, execution, hexecution, rfl⟩
    · exact Or.inl ⟨Ne.symm hi, hexecution⟩
  refine ⟨hinv, ?_, fun waiter hmem => ?_, fun i moved hmoved hgranted => ?_, fun i moved remainingMs hmoved hstage => ?_,
    fun i message hmem => ?_⟩
  · change gate.acquired = (w.executions.modify ticket f).length
    rw [hserves.acquired, h.acquired, List.length_modify]
  · obtain ⟨hsignal, execution, hexecution, hstage, hreason⟩ := h.waits waiter (hserves.waiters hmem)
    refine ⟨hsignal, execution, ?_, hstage, hreason⟩
    have hne : ticket ≠ waiter.ticket := by
      rintro rfl
      exact hleft (List.mem_map_of_mem hmem)
    change (w.executions.modify ticket f)[waiter.ticket]? = _
    rw [List.getElem?_modify, hexecution]
    simp [hne]
  · rcases hget i moved hmoved with ⟨hi, hold⟩ | ⟨rfl, execution, hexecution, rfl⟩
    · change i ∈ gate.released ↔ _
      rw [hreleased i hi]
      rcases hserves.entries _ (HandlerGate.mem_granted.mp hgranted) with hentry | ⟨hwaits, -⟩
      · exact h.held i moved hold (HandlerGate.mem_granted.mpr hentry)
      · -- It waited, so that it is granted only now.
        have hnot := h.notMem_granted hwaits
        obtain ⟨waiter, hmem, rfl⟩ := List.mem_map.mp hwaits
        obtain ⟨-, execution, hexecution, hstage, -⟩ := h.waits waiter hmem
        obtain rfl := Option.some.inj (hold.symm.trans hexecution)
        rw [hstage]
        constructor
        · intro hrel
          exact absurd (h.gate.released _ hrel) hnot
        · intro hdone
          cases hdone
    · exact hheld execution hexecution hgranted
  · rcases hget i moved hmoved with ⟨hi, hold⟩ | ⟨rfl, execution, hexecution, rfl⟩
    · exact HandlerGate.mem_granted.mpr (hserves.settled (HandlerGate.mem_granted.mp (h.running i moved remainingMs hold hstage)))
    · exact hrunning execution remainingMs hexecution hstage
  · rcases hserves.entries _ hmem with hold | ⟨-, hverdict⟩
    · exact h.refused i message hold
    · exact hverdict message rfl

theorem Seated.modify (h : w.Seated s v) {gate : HandlerGate} {ticket : Nat} {f : Execution → Execution}
    (hf : ∀ execution, w.executions[ticket]? = some execution → (f execution).handle = execution.handle ∧
      (f execution).slot = execution.slot ∧ (f execution).job = execution.job ∧
      ((f execution).stage ≠ .returned → execution.stage ≠ .returned)) :
    Seated s v ⟨gate, w.executions.modify ticket f⟩ := by
  have hget : ∀ (i : Nat) moved, (w.executions.modify ticket f)[i]? = some moved → ∃ execution,
      w.executions[i]? = some execution ∧ moved.handle = execution.handle ∧ moved.slot = execution.slot ∧
      moved.job = execution.job ∧ (moved.stage ≠ .returned → execution.stage ≠ .returned) := by
    intro i moved hmoved
    rw [List.getElem?_modify, Option.map_eq_map, Option.map_eq_some_iff] at hmoved
    obtain ⟨execution, hexecution, rfl⟩ := hmoved
    refine ⟨execution, hexecution, ?_⟩
    split_ifs with hi
    · subst hi
      exact hf execution hexecution
    · exact ⟨rfl, rfl, rfl, id⟩
  refine ⟨fun i moved hmoved => ?_, fun i j moved moved' hmoved hmoved' hstage hstage' hhandle hslot => ?_⟩
  · obtain ⟨execution, hexecution, hhandle, hslot, hjob, hstage⟩ := hget i moved hmoved
    obtain ⟨handle, hfound, hservice, hexecuting⟩ := h.slots i execution hexecution
    rw [hhandle, hslot, hjob]
    exact ⟨handle, hfound, hservice, fun hnot => hexecuting (hstage hnot)⟩
  · obtain ⟨execution, hexecution, hh, hs, -, hback⟩ := hget i moved hmoved
    obtain ⟨execution', hexecution', hh', hs', -, hback'⟩ := hget j moved' hmoved'
    apply h.apart i j execution execution' hexecution hexecution' (hback hstage) (hback' hstage')
    · rw [← hh, ← hh', hhandle]
    · rw [← hs, ← hs', hslot]

/-- What the workers of a service keep while no job comes in. -/
structure Advances (w w' : Workers) : Prop where
  limit : w'.gate.limit = w.gate.limit
  maxWaiting : w'.gate.maxWaiting = w.gate.maxWaiting
  waiters : w'.gate.waiters ⊆ w.gate.waiters
  length : w'.executions.length = w.executions.length
  handles : ∀ (i : Nat) execution, w.executions[i]? = some execution →
    ∃ execution', w'.executions[i]? = some execution' ∧ execution'.handle = execution.handle

theorem Advances.refl (w : Workers) : w.Advances w :=
  ⟨rfl, rfl, List.Subset.refl _, rfl, fun _ execution hget => ⟨execution, hget, rfl⟩⟩

theorem Advances.trans {w' w'' : Workers} (h : w.Advances w') (h' : w'.Advances w'') : w.Advances w'' where
  limit := h'.limit.trans h.limit
  maxWaiting := h'.maxWaiting.trans h.maxWaiting
  waiters := List.Subset.trans h'.waiters h.waiters
  length := h'.length.trans h.length
  handles i execution hget := by
    obtain ⟨execution', hget', hhandle⟩ := h.handles i execution hget
    obtain ⟨execution'', hget'', hhandle'⟩ := h'.handles i execution' hget'
    exact ⟨execution'', hget'', hhandle'.trans hhandle⟩

theorem advances_of_serves {gate : HandlerGate} (hserves : w.gate.Serves gate) (ticket : Nat) {f : Execution → Execution}
    (hf : ∀ execution, (f execution).handle = execution.handle) : w.Advances ⟨gate, w.executions.modify ticket f⟩ := by
  refine ⟨hserves.limit, hserves.maxWaiting, hserves.waiters, List.length_modify .., fun i execution hget => ?_⟩
  refine ⟨if ticket = i then f execution else execution, ?_, ?_⟩
  · change (w.executions.modify ticket f)[i]? = _
    rw [List.getElem?_modify, hget]
    rfl
  · split_ifs
    · exact hf execution
    · rfl

theorem Live.advances {w' : Workers} (h : w.Live s) (hadvances : w.Advances w')
    (hwaits : ∀ waiter ∈ w.gate.waiters, ∃ execution, w.executions[waiter.ticket]? = some execution) : w'.Live s := by
  intro waiter hmem execution' hget'
  obtain ⟨execution, hget⟩ := hwaits waiter (hadvances.waiters hmem)
  obtain ⟨found, hfound, hhandle⟩ := hadvances.handles _ execution hget
  obtain rfl := Option.some.inj (hget'.symm.trans hfound)
  rw [hhandle]
  exact h waiter (hadvances.waiters hmem) execution hget

/-- What is kept all along. -/
structure Kept (s : State) (v : Nat) (w w' : Workers) : Prop extends w.Advances w' where
  tallied : w'.Tallied
  seated : w'.Seated s v

theorem Kept.refl (htallied : w.Tallied) (hseated : w.Seated s v) : Kept s v w w := ⟨.refl w, htallied, hseated⟩

theorem Kept.trans {w' w'' : Workers} (h : Kept s v w w') (h' : Kept s v w' w'') : Kept s v w w'' :=
  ⟨h.toAdvances.trans h'.toAdvances, h'.tallied, h'.seated⟩

theorem cancel_kept (htallied : w.Tallied) (hseated : w.Seated s v) (ticket : Nat) (reason : Failure) :
    Kept s v w (w.cancel ticket reason) ∧ ((∃ execution, w.executions[ticket]? = some execution) →
      ticket ∉ (w.cancel ticket reason).gate.waiters.map Waiter.ticket) := by
  unfold cancel
  cases hget : w.executions[ticket]? with
  | none =>
      refine ⟨.refl htallied hseated, ?_⟩
      rintro ⟨execution, hsome⟩
      cases hsome
  | some execution =>
      dsimp only
      split_ifs with haborted
      · refine ⟨.refl htallied hseated, fun _ hwaits => ?_⟩
        obtain ⟨waiter, hmem, rfl⟩ := List.mem_map.mp hwaits
        obtain ⟨-, found, hfound, -, hreason⟩ := htallied.waits waiter hmem
        obtain rfl := Option.some.inj (hget.symm.trans hfound)
        rw [hreason] at haborted
        cases haborted
      · have hcancels := HandlerGate.cancel_cancels htallied.gate ticket
        have hleft : ticket ∉ (w.gate.cancel ticket).waiters.map Waiter.ticket := by
          intro hwaits
          obtain ⟨waiter, hmem, hticket⟩ := List.mem_map.mp hwaits
          apply hcancels.left waiter hmem
          rw [(htallied.waits waiter (hcancels.waiters hmem)).1, hticket]
        have hgranted : ticket ∈ (w.gate.cancel ticket).granted → ticket ∈ w.gate.granted ∨
            ticket ∈ w.gate.waiters.map Waiter.ticket := by
          intro hmem
          rcases hcancels.entries _ (HandlerGate.mem_granted.mp hmem) with hold | ⟨hwaits, -⟩
          · exact Or.inl (HandlerGate.mem_granted.mpr hold)
          · exact Or.inr hwaits
        refine ⟨⟨advances_of_serves hcancels.toServes ticket fun _ => rfl, ?_, ?_⟩, fun _ => hleft⟩
        · refine htallied.move hcancels.toServes hcancels.inv (fun i _ => by rw [hcancels.released]) hleft
            (fun found hfound hmem => ?_) fun found remainingMs hfound hstage => ?_
          · rw [hcancels.released]
            rcases hgranted hmem with hold | hwaits
            · exact htallied.held ticket found hfound hold
            · obtain ⟨waiter, hwaiter, rfl⟩ := List.mem_map.mp hwaits
              obtain ⟨-, found', hfound', hstage, -⟩ := htallied.waits waiter hwaiter
              obtain rfl := Option.some.inj (hfound.symm.trans hfound')
              constructor
              · intro hrel
                exact absurd (htallied.gate.released _ hrel) (htallied.notMem_granted hwaits)
              · intro hdone
                change found.stage.done = true at hdone
                rw [hstage] at hdone
                cases hdone
          · have hold := htallied.running ticket found remainingMs hfound hstage
            exact HandlerGate.mem_granted.mpr (hcancels.settled (HandlerGate.mem_granted.mp hold))
        · exact hseated.modify fun _ _ => ⟨rfl, rfl, rfl, id⟩

theorem interrupt_kept (htallied : w.Tallied) (hseated : w.Seated s v) (closed : Nat → Bool) (ticket : Nat) :
    Kept s v w (w.interrupt closed ticket) ∧ ∀ waiter ∈ (w.interrupt closed ticket).gate.waiters, waiter.ticket = ticket →
      ∀ execution, w.executions[ticket]? = some execution → closed execution.handle = false := by
  unfold interrupt
  cases hget : w.executions[ticket]? with
  | none => exact ⟨.refl htallied hseated, fun _ _ _ _ hsome => by cases hsome⟩
  | some execution =>
      dsimp only
      split_ifs with hclosed
      · obtain ⟨hkept, hleft⟩ := cancel_kept htallied hseated ticket (.connectionClosed "Nodara service closed")
        refine ⟨hkept, fun waiter hmem hticket => ?_⟩
        have hwaits := List.mem_map_of_mem (f := Waiter.ticket) hmem
        rw [hticket] at hwaits
        exact absurd hwaits (hleft ⟨execution, hget⟩)
      · refine ⟨.refl htallied hseated, fun waiter hmem hticket found hfound => ?_⟩
        obtain ⟨-, waiting, hwaiting, hstage, -⟩ := htallied.waits waiter hmem
        rw [hticket, hget] at hwaiting
        rw [← Option.some.inj hfound]
        by_contra hopen
        apply hclosed
        refine ⟨Bool.eq_true_of_not_eq_false hopen, ?_⟩
        rw [Option.some.inj hwaiting, hstage]
        exact Stage.noConfusion

/-- After the close of handles, none of their slots waits. -/
theorem sweep_kept (htallied : w.Tallied) (hseated : w.Seated s v) (closed : Nat → Bool) :
    Kept s v w (w.sweep closed) ∧ ∀ waiter ∈ (w.sweep closed).gate.waiters, ∀ execution,
      (w.sweep closed).executions[waiter.ticket]? = some execution → closed execution.handle = false := by
  have hloop : ∀ (tickets : List Nat) (u : Workers), u.Tallied → u.Seated s v →
      Kept s v u (tickets.foldl (interrupt closed) u) ∧
      ∀ waiter ∈ (tickets.foldl (interrupt closed) u).gate.waiters, waiter.ticket ∈ tickets → ∀ execution,
        u.executions[waiter.ticket]? = some execution → closed execution.handle = false := by
    intro tickets
    induction tickets with
    | nil => exact fun u ht hs => ⟨.refl ht hs, fun waiter _ hmem => by cases hmem⟩
    | cons ticket tickets ih =>
        intro u ht hs
        obtain ⟨hkept, hleft⟩ := interrupt_kept ht hs closed ticket
        obtain ⟨hlater, hrest⟩ := ih _ hkept.tallied hkept.seated
        refine ⟨hkept.trans hlater, fun waiter hmem hticket execution hget => ?_⟩
        rcases List.mem_cons.mp hticket with heq | hmem'
        · exact hleft waiter (hlater.waiters hmem) heq execution (heq ▸ hget)
        · obtain ⟨found, hfound, hhandle⟩ := hkept.handles _ execution hget
          rw [← hhandle]
          exact hrest waiter hmem hmem' found hfound
  obtain ⟨hkept, hleft⟩ := hloop (List.range w.executions.length) w htallied hseated
  refine ⟨hkept, fun waiter hmem execution' hget' => ?_⟩
  obtain ⟨-, execution, hget, -⟩ := htallied.waits waiter (hkept.waiters hmem)
  obtain ⟨found, hfound, hhandle⟩ := hkept.handles _ execution hget
  obtain rfl := Option.some.inj (hget'.symm.trans hfound)
  rw [hhandle]
  apply hleft waiter hmem _ execution hget
  exact List.mem_range.mpr (List.getElem?_eq_some_iff.mp hget).1

/-- What is settled does not wait, and has one verdict. -/
theorem Tallied.settled_once (h : w.Tallied) {ticket : Nat} {verdict : Verdict} (hmem : (ticket, verdict) ∈ w.gate.settled) :
    ticket ∉ w.gate.waiters.map Waiter.ticket ∧ (verdict ≠ .granted → ticket ∉ w.gate.granted) := by
  obtain ⟨honce, hapart⟩ := h.gate.toKept.once
  refine ⟨hapart ticket verdict hmem, fun hverdict hgranted => hverdict ?_⟩
  exact congrArg Prod.snd (List.inj_on_of_nodup_map honce hmem (HandlerGate.mem_granted.mp hgranted) rfl)

theorem setStage_kept (htallied : w.Tallied) (hseated : w.Seated s v) {ticket : Nat} {execution : Execution} {stage : Stage}
    (hget : w.executions[ticket]? = some execution) (hreturned : stage ≠ .returned → execution.stage ≠ .returned)
    (hleft : ticket ∉ w.gate.waiters.map Waiter.ticket)
    (hheld : ticket ∈ w.gate.granted → (ticket ∈ w.gate.released ↔ stage.done = true))
    (hrunning : ∀ remainingMs, stage = .running remainingMs → ticket ∈ w.gate.granted) :
    Kept s v w (w.setStage ticket stage) := by
  have hserves := HandlerGate.Serves.refl w.gate
  refine ⟨advances_of_serves hserves ticket fun _ => rfl, ?_, ?_⟩
  · exact htallied.move hserves htallied.gate (fun _ _ => Iff.rfl) hleft (fun _ _ => hheld) fun _ remainingMs _ => hrunning remainingMs
  · apply hseated.modify
    intro found hfound
    obtain rfl := Option.some.inj (hget.symm.trans hfound)
    exact ⟨rfl, rfl, rfl, hreturned⟩

theorem finish_kept (htallied : w.Tallied) (hseated : w.Seated s v) {ticket : Nat} {execution : Execution}
    (hget : w.executions[ticket]? = some execution) (hreturned : execution.stage ≠ .returned)
    (hgranted : ticket ∈ w.gate.granted) (outcome : Outcome) : Kept s v w (w.finish ticket outcome) := by
  have hserves := HandlerGate.release_serves ticket w.gate
  refine ⟨advances_of_serves hserves ticket fun _ => rfl, ?_, ?_⟩
  · refine htallied.move hserves (htallied.gate.release hgranted) (fun i hi => ?_) (fun hwaits => ?_) (fun _ _ _ => ?_)
      fun _ remainingMs _ hstage => ?_
    · rw [HandlerGate.mem_released_release]
      exact or_iff_right hi
    · have hwaited := List.map_subset Waiter.ticket hserves.waiters hwaits
      exact htallied.notMem_granted hwaited hgranted
    · exact iff_of_true (HandlerGate.mem_release ticket w.gate) rfl
    · cases hstage
  · apply hseated.modify
    intro found hfound
    obtain rfl := Option.some.inj (hget.symm.trans hfound)
    exact ⟨rfl, rfl, rfl, fun _ => hreturned⟩

theorem proceed_kept (htallied : w.Tallied) (hseated : w.Seated s v) {ticket : Nat} {execution : Execution} {verdict : Verdict}
    (hget : w.executions[ticket]? = some execution) (hstage : execution.stage = .acquiring)
    (hsettled : (ticket, verdict) ∈ w.gate.settled) (now : ℚ) : Kept s v w (w.proceed now ticket execution verdict) := by
  obtain ⟨hleft, hnot⟩ := htallied.settled_once hsettled
  have hreturned : execution.stage ≠ .returned := by
    rw [hstage]
    exact Stage.noConfusion
  unfold proceed
  split
  · refine setStage_kept htallied hseated hget (fun _ => hreturned) hleft (fun hgranted => ?_) fun _ hrunning => ?_
    · exact absurd hgranted (hnot Verdict.noConfusion)
    · cases hrunning
  · exact .refl htallied hseated
  · exact absurd hsettled (htallied.refused _ _)
  · exact finish_kept htallied hseated hget hreturned (HandlerGate.mem_granted.mpr hsettled) _
  · have hgranted := HandlerGate.mem_granted.mpr hsettled
    dsimp only
    split_ifs
    · exact finish_kept htallied hseated hget hreturned hgranted _
    · refine setStage_kept htallied hseated hget (fun _ => hreturned) hleft (fun hgranted => ?_) fun _ _ => hgranted
      rw [htallied.held ticket execution hget hgranted, hstage]
      exact Iff.rfl

/-- A slot that goes on has an execution that is settled. -/
theorem return_kept (htallied : w.Tallied) (hseated : w.Seated s v) {ticket : Nat} {execution : Execution} {outcome : Outcome}
    (hget : w.executions[ticket]? = some execution) (hstage : execution.stage = .settled outcome) :
    Kept s v w (w.setStage ticket .returned) := by
  refine setStage_kept htallied hseated hget (fun hnot => absurd rfl hnot) (fun hwaits => ?_) (fun hgranted => ?_)
    fun _ hrunning => ?_
  · obtain ⟨waiter, hmem, rfl⟩ := List.mem_map.mp hwaits
    obtain ⟨-, found, hfound, hacquiring, -⟩ := htallied.waits waiter hmem
    obtain rfl := Option.some.inj (hget.symm.trans hfound)
    cases hstage.symm.trans hacquiring
  · rw [htallied.held ticket execution hget hgranted, hstage]
    exact Iff.rfl
  · cases hrunning

/-! ### A new job -/

/-- An execution comes to the gate. -/
theorem Tallied.acquire (h : w.Tallied) (execution : Execution) (hstage : execution.stage = .acquiring)
    (hreason : execution.reason = none ∨ w.executions.length ∈ w.gate.aborted)
    (hroom : w.gate.waiters.length < w.gate.maxWaiting) :
    Tallied ⟨w.gate.acquire w.executions.length, w.executions ++ [execution]⟩ := by
  obtain ⟨-, -, hacquired, hreleased, hcases⟩ := HandlerGate.acquire_cases w.executions.length hroom
  have hold : ∀ (i : Nat) found, (w.executions ++ [execution])[i]? = some found →
      (i < w.executions.length ∧ w.executions[i]? = some found) ∨ (i = w.executions.length ∧ found = execution) := by
    intro i found hfound
    rw [List.getElem?_append] at hfound
    split_ifs at hfound with hlt
    · exact Or.inl ⟨hlt, hfound⟩
    · rw [List.getElem?_singleton] at hfound
      split_ifs at hfound
      exact Or.inr ⟨by omega, (Option.some.inj hfound).symm⟩
  have hkept : ∀ (i : Nat) found, w.executions[i]? = some found → (w.executions ++ [execution])[i]? = some found := by
    intro i found hfound
    rw [List.getElem?_append_left (List.getElem?_eq_some_iff.mp hfound).1]
    exact hfound
  have hfresh : w.executions.length ∉ w.gate.released := by
    intro hmem
    have hlt := h.gate.toKept.known (h.gate.released _ hmem)
    rw [h.acquired] at hlt
    exact lt_irrefl _ hlt
  have hsettled : ∀ entry ∈ (w.gate.acquire w.executions.length).settled, entry ∈ w.gate.settled ∨
      (entry.1 = w.executions.length ∧ ∀ message, entry.2 ≠ .refused message) := by
    intro entry hmem
    rcases hcases with ⟨verdict, hverdict, -, hentries⟩ | ⟨-, -, hentries⟩
    · rw [hentries, List.mem_append, List.mem_singleton] at hmem
      rcases hmem with hmem | rfl
      · exact Or.inl hmem
      · exact Or.inr ⟨h.acquired, hverdict⟩
    · exact Or.inl (hentries ▸ hmem)
  have hsubset : w.gate.settled ⊆ (w.gate.acquire w.executions.length).settled := by
    rcases hcases with ⟨verdict, -, -, hentries⟩ | ⟨-, -, hentries⟩
    · rw [hentries]
      exact List.subset_append_left _ _
    · rw [hentries]
      exact List.Subset.refl _
  refine ⟨h.gate.acquire _, ?_, fun waiter hmem => ?_, fun i found hfound hgranted => ?_,
    fun i found remainingMs hfound hrunning => ?_, fun ticket message hmem => ?_⟩
  · change _ = (w.executions ++ [execution]).length
    rw [hacquired, h.acquired, List.length_append, List.length_singleton]
  · have hbefore : waiter ∈ w.gate.waiters → waiter.signal = waiter.ticket ∧ ∃ found,
        (w.executions ++ [execution])[waiter.ticket]? = some found ∧ found.stage = .acquiring ∧ found.reason = none := by
      intro hwaits
      obtain ⟨hsignal, found, hfound, hrest⟩ := h.waits waiter hwaits
      exact ⟨hsignal, found, hkept _ found hfound, hrest⟩
    rcases hcases with ⟨verdict, -, hwaiters, -⟩ | ⟨haborted, hwaiters, -⟩
    · exact hbefore (hwaiters ▸ hmem)
    · change waiter ∈ (w.gate.acquire _).waiters at hmem
      rw [hwaiters, List.mem_append, List.mem_singleton] at hmem
      rcases hmem with hmem | rfl
      · exact hbefore hmem
      · refine ⟨h.acquired.symm, execution, ?_, hstage, hreason.resolve_right haborted⟩
        rw [h.acquired]
        exact List.getElem?_concat_length
  · rw [hreleased]
    rcases hold i found hfound with ⟨hlt, hfound⟩ | ⟨rfl, rfl⟩
    · rcases hsettled _ (HandlerGate.mem_granted.mp hgranted) with hmem | ⟨hi, -⟩
      · exact h.held i found hfound (HandlerGate.mem_granted.mpr hmem)
      · exact absurd hi hlt.ne
    · rw [hstage]
      exact iff_of_false hfresh Bool.false_ne_true
  · rcases hold i found hfound with ⟨-, hfound⟩ | ⟨rfl, rfl⟩
    · exact HandlerGate.mem_granted.mpr (hsubset (HandlerGate.mem_granted.mp (h.running i found remainingMs hfound hrunning)))
    · cases hstage.symm.trans hrunning
  · rcases hsettled _ hmem with hold | ⟨-, hverdict⟩
    · exact h.refused ticket message hold
    · exact hverdict message rfl

theorem Seated.append (h : w.Seated s v) (gate : HandlerGate) (execution : Execution)
    (hnew : ∃ handle, s.handles[execution.handle]? = some handle ∧ handle.service = v ∧
      handle.state.slots[execution.slot]? = some (.executing execution.job))
    (hfree : ∀ (i : Nat) other, w.executions[i]? = some other → other.stage ≠ .returned →
      ¬(other.handle = execution.handle ∧ other.slot = execution.slot)) :
    Seated s v ⟨gate, w.executions ++ [execution]⟩ := by
  have hold : ∀ (i : Nat) found, (w.executions ++ [execution])[i]? = some found →
      w.executions[i]? = some found ∨ (i = w.executions.length ∧ found = execution) := by
    intro i found hfound
    rw [List.getElem?_append] at hfound
    split_ifs at hfound with hlt
    · exact Or.inl hfound
    · rw [List.getElem?_singleton] at hfound
      split_ifs at hfound
      exact Or.inr ⟨by omega, (Option.some.inj hfound).symm⟩
  refine ⟨fun i found hfound => ?_, fun i j found found' hfound hfound' hstage hstage' hhandle hslot => ?_⟩
  · rcases hold i found hfound with hfound | ⟨-, rfl⟩
    · exact h.slots i found hfound
    · obtain ⟨handle, hget, hservice, hexecuting⟩ := hnew
      exact ⟨handle, hget, hservice, fun _ => hexecuting⟩
  · rcases hold i found hfound with hbefore | ⟨hi, rfl⟩
    · rcases hold j found' hfound' with hbefore' | ⟨-, rfl⟩
      · exact h.apart i j found found' hbefore hbefore' hstage hstage' hhandle hslot
      · exact absurd ⟨hhandle, hslot⟩ (hfree i found hbefore hstage)
    · rcases hold j found' hfound' with hbefore' | ⟨hj, -⟩
      · exact absurd ⟨hhandle.symm, hslot.symm⟩ (hfree j found' hbefore' hstage')
      · rw [hi, hj]

/-- What the start of a job does to the workers, when there is room at the gate. -/
structure Starts (h slot : Nat) (job : Rpc.Job) (w w' : Workers) : Prop where
  limit : w'.gate.limit = w.gate.limit
  maxWaiting : w'.gate.maxWaiting = w.gate.maxWaiting
  tallied : w'.Tallied
  executions : ∃ execution : Execution, execution.handle = h ∧ execution.slot = slot ∧ execution.job = job ∧
    w'.executions = w.executions ++ [execution]
  waiters : ∀ waiter ∈ w'.gate.waiters, waiter ∈ w.gate.waiters ∨ waiter.ticket = w.executions.length

theorem Tallied.starts (h : w.Tallied) {i slot : Nat} {job : Rpc.Job} (execution : Execution)
    (hwhere : execution.handle = i ∧ execution.slot = slot ∧ execution.job = job) (hstage : execution.stage = .acquiring)
    (hreason : execution.reason = none ∨ w.executions.length ∈ w.gate.aborted)
    (hroom : w.gate.waiters.length < w.gate.maxWaiting) :
    Starts i slot job w ⟨w.gate.acquire w.executions.length, w.executions ++ [execution]⟩ := by
  obtain ⟨hlimit, hmost, -, -, hcases⟩ := HandlerGate.acquire_cases w.executions.length hroom
  refine ⟨hlimit, hmost, h.acquire execution hstage hreason hroom,
    ⟨execution, hwhere.1, hwhere.2.1, hwhere.2.2, rfl⟩, fun waiter hmem => ?_⟩
  change waiter ∈ (w.gate.acquire _).waiters at hmem
  rcases hcases with ⟨verdict, -, hwaiters, -⟩ | ⟨-, hwaiters, -⟩
  · exact Or.inl (hwaiters ▸ hmem)
  · rw [hwaiters, List.mem_append, List.mem_singleton] at hmem
    rcases hmem with hmem | rfl
    · exact Or.inl hmem
    · exact Or.inr h.acquired

theorem start_starts (htallied : w.Tallied) (now : ℚ) (i slot : Nat) (job : Rpc.Job)
    (hroom : w.gate.waiters.length < w.gate.maxWaiting) : Starts i slot job w (w.start now i slot job) := by
  unfold start
  dsimp only
  split_ifs with hzero
  · have hcancels := HandlerGate.cancel_cancels htallied.gate w.executions.length
    have hnone : w.executions[w.executions.length]? = none := List.getElem?_eq_none (le_refl _)
    have hleft : w.executions.length ∉ (w.gate.cancel w.executions.length).waiters.map Waiter.ticket := by
      intro hwaits
      obtain ⟨waiter, hmem, hticket⟩ := List.mem_map.mp hwaits
      obtain ⟨-, execution, hget, -⟩ := htallied.waits waiter (hcancels.waiters hmem)
      rw [hticket, hnone] at hget
      cases hget
    have hcancelled : Tallied ⟨w.gate.cancel w.executions.length, w.executions.modify w.executions.length id⟩ := by
      refine htallied.move hcancels.toServes hcancels.inv (fun i _ => by rw [hcancels.released]) hleft
        (fun execution hget => ?_) fun execution _ hget => ?_
      · rw [hnone] at hget
        cases hget
      · rw [hnone] at hget
        cases hget
    rw [List.modify_id] at hcancelled
    have hfewer : (w.gate.cancel w.executions.length).waiters.length ≤ w.gate.waiters.length := by
      have hnodup : ((w.gate.cancel w.executions.length).waiters.map Waiter.ticket).Nodup :=
        (List.pairwise_append.mp hcancels.inv.sorted).2.1.imp fun hlt => hlt.ne
      exact (List.subperm_of_subset (List.Nodup.of_map _ hnodup) hcancels.waiters).length_le
    have hstarts : Starts i slot job _ _ := hcancelled.starts
      ⟨i, slot, job, now, some (.broker 10 "Handler deadline exceeded"), .acquiring⟩ ⟨rfl, rfl, rfl⟩ rfl
      (Or.inr (HandlerGate.mem_cancel _ _)) (hcancels.maxWaiting ▸ hfewer.trans_lt hroom)
    refine ⟨hstarts.limit.trans hcancels.limit, hstarts.maxWaiting.trans hcancels.maxWaiting, hstarts.tallied,
      hstarts.executions, fun waiter hmem => ?_⟩
    exact (hstarts.waiters waiter hmem).imp_left fun hwaits => hcancels.waiters hwaits
  · exact htallied.starts _ ⟨rfl, rfl, rfl⟩ rfl (Or.inl rfl) hroom

end Workers

end VeloBus.Cluster
