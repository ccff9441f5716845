import Mathlib.Data.List.Perm.Basic
import Mathlib.Data.List.Sort
import Mathlib.Tactic.SplitIfs
import VeloBus.Transition

/-! The gate that the connections of a cluster service share. An acquire is named by its place among all, and
its release by the same number. `abort` of a signal marks it, and its listeners run one after the other after
that, with whatever they do to the gate themselves. -/

namespace VeloBus.Cluster

/-- How the promise of an acquire is settled: with a release, with the reason of its signal, or with an error. -/
inductive Verdict where
  | granted
  | aborted
  | refused (message : String)
deriving DecidableEq, Repr

structure Waiter where
  ticket : Nat
  signal : Nat
deriving DecidableEq, Repr

structure HandlerGate where
  limit : Nat
  maxWaiting : Nat
  active : Int
  waiters : List Waiter
  /-- The signals that are aborted, and the release functions that were called. -/
  aborted : List Nat
  released : List Nat
  /-- How many acquires there were, and how they were settled, oldest first. -/
  acquired : Nat
  settled : List (Nat × Verdict)
deriving DecidableEq, Repr

namespace HandlerGate

def new (limit maxWaiting : Nat) : HandlerGate where
  limit := limit
  maxWaiting := maxWaiting
  active := 0
  waiters := []
  aborted := []
  released := []
  acquired := 0
  settled := []

def settle (ticket : Nat) (verdict : Verdict) (gate : HandlerGate) : HandlerGate :=
  { gate with settled := gate.settled ++ [(ticket, verdict)] }

def grant (ticket : Nat) (gate : HandlerGate) : HandlerGate :=
  settle ticket .granted { gate with active := gate.active + 1 }

def acquire (signal : Nat) (gate : HandlerGate) : HandlerGate :=
  let ticket := gate.acquired
  let gate := { gate with acquired := gate.acquired + 1 }
  if signal ∈ gate.aborted then gate.settle ticket .aborted
  else if gate.active < gate.limit then gate.grant ticket
  else if gate.maxWaiting ≤ gate.waiters.length then
    gate.settle ticket (.refused "Cluster worker admission bound exceeded")
  else { gate with waiters := gate.waiters ++ [⟨ticket, signal⟩] }

/-- The listener of a waiter. -/
def abort (ticket : Nat) (gate : HandlerGate) : HandlerGate :=
  settle ticket .aborted { gate with waiters := gate.waiters.filter fun waiter => waiter.ticket ≠ ticket }

/-- The loop of a release over the waiters. -/
def serve : List Waiter → HandlerGate → HandlerGate
  | [], gate => { gate with waiters := [] }
  | waiter :: waiters, gate =>
    if gate.active < gate.limit then
      if waiter.signal ∈ gate.aborted then serve waiters (gate.settle waiter.ticket .aborted)
      else serve waiters (gate.grant waiter.ticket)
    else { gate with waiters := waiter :: waiters }

def release (ticket : Nat) (gate : HandlerGate) : HandlerGate :=
  if ticket ∈ gate.released then gate
  else serve gate.waiters { gate with released := ticket :: gate.released, active := gate.active - 1 }

/-- The acquires that were granted, in this order. -/
def granted (gate : HandlerGate) : List Nat := gate.settled.filterMap fun
  | (ticket, .granted) => some ticket
  | _ => none

/-- The grants that are not released. -/
def held (gate : HandlerGate) : List Nat := gate.granted.filter (· ∉ gate.released)

inductive Op where
  | acquire (signal : Nat)
  | abort (signal : Nat)
  /-- The listener of a waiter runs. -/
  | heard (ticket : Nat)
  | release (ticket : Nat)
deriving DecidableEq, Repr

def Step (s : HandlerGate) (op : Op) (t : HandlerGate) : Prop :=
  match op with
  | .acquire signal => t = s.acquire signal
  | .abort signal => t = { s with aborted := signal :: s.aborted }
  | .heard ticket => ∃ waiter ∈ s.waiters, waiter.ticket = ticket ∧ waiter.signal ∈ s.aborted ∧ t = s.abort ticket
  | .release ticket => ticket ∈ s.granted ∧ t = s.release ticket

end HandlerGate

/-- A gate in use. -/
def gates (limit maxWaiting : Nat) : Transition HandlerGate HandlerGate.Op where
  start gate := gate = .new limit maxWaiting
  step := HandlerGate.Step

namespace HandlerGate

variable {gate next : HandlerGate} {waiters : List Waiter}

/-- The grants of a gate and the tickets of some waiters. -/
structure Kept (gate : HandlerGate) (waiters : List Waiter) : Prop where
  active : gate.active = gate.held.length
  bounded : gate.active ≤ gate.limit
  tickets : (gate.settled.map Prod.fst ++ waiters.map Waiter.ticket).Perm (List.range gate.acquired)
  sorted : (gate.granted ++ waiters.map Waiter.ticket).Pairwise (· < ·)
  released : ∀ ticket ∈ gate.released, ticket ∈ gate.granted

structure Inv (gate : HandlerGate) : Prop extends Kept gate gate.waiters where
  queue : gate.waiters.length ≤ gate.maxWaiting
  full : gate.waiters ≠ [] → gate.active = gate.limit

/-! ### Settling -/

theorem granted_settle (ticket : Nat) {verdict : Verdict} (h : verdict ≠ .granted) :
    (gate.settle ticket verdict).granted = gate.granted := by
  unfold granted settle
  rw [List.filterMap_append]
  cases verdict with
  | granted => exact absurd rfl h
  | aborted => simp
  | refused message => simp

theorem granted_grant (ticket : Nat) (gate : HandlerGate) : (gate.grant ticket).granted = gate.granted ++ [ticket] := by
  unfold granted grant settle
  rw [List.filterMap_append]
  simp

theorem held_settle (ticket : Nat) {verdict : Verdict} (h : verdict ≠ .granted) :
    (gate.settle ticket verdict).held = gate.held := by
  unfold held
  rw [granted_settle ticket h]
  rfl

/-- An acquire that is granted holds its place. -/
theorem held_grant {ticket : Nat} (h : ticket ∉ gate.released) : (gate.grant ticket).held = gate.held ++ [ticket] := by
  unfold held
  rw [granted_grant, List.filter_append]
  congr 1
  rw [List.filter_singleton, show decide (ticket ∉ (gate.grant ticket).released) = true from decide_eq_true h]
  rfl

/-- Every acquire up to now is settled or waits. -/
theorem Kept.known (h : gate.Kept waiters) {ticket : Nat} (hticket : ticket ∈ gate.granted) : ticket < gate.acquired := by
  apply List.mem_range.mp
  apply h.tickets.mem_iff.mp
  apply List.mem_append_left
  obtain ⟨⟨settled, verdict⟩, hmem, heq⟩ := List.mem_filterMap.mp hticket
  cases verdict with
  | granted =>
      obtain rfl := Option.some.inj heq
      exact List.mem_map_of_mem hmem
  | aborted => cases heq
  | refused message => cases heq

/-- A waiter leaves without a grant. -/
theorem Kept.drop {rest : List Waiter} {ticket : Nat} (h : gate.Kept waiters) {verdict : Verdict}
    (hverdict : verdict ≠ .granted) (hrest : rest.Sublist waiters)
    (hperm : (waiters.map Waiter.ticket).Perm (ticket :: rest.map Waiter.ticket)) :
    (gate.settle ticket verdict).Kept rest where
  active := by
    rw [held_settle _ hverdict]
    exact h.active
  bounded := h.bounded
  tickets := by
    apply List.Perm.trans _ h.tickets
    unfold settle
    rw [List.map_append, List.append_assoc]
    exact hperm.symm.append_left _
  sorted := by
    rw [granted_settle _ hverdict]
    exact h.sorted.sublist ((hrest.map Waiter.ticket).append_left _)
  released := by
    rw [granted_settle _ hverdict]
    exact h.released

/-- The first waiter is granted a free place. -/
theorem Kept.grant {waiter : Waiter} (h : gate.Kept (waiter :: waiters)) (hfree : gate.active < gate.limit) :
    (gate.grant waiter.ticket).Kept waiters where
  active := by
    have hnew : waiter.ticket ∉ gate.released := by
      intro hmem
      have hlater := (List.pairwise_append.mp h.sorted).2.2 _ (h.released _ hmem) waiter.ticket List.mem_cons_self
      exact lt_irrefl _ hlater
    rw [held_grant hnew, List.length_append, List.length_singleton]
    change gate.active + 1 = _
    rw [h.active]
    push_cast
    rfl
  bounded := by
    change gate.active + 1 ≤ gate.limit
    omega
  tickets := by
    unfold HandlerGate.grant settle
    rw [List.map_append, List.append_assoc]
    exact h.tickets
  sorted := by
    rw [granted_grant, List.append_assoc]
    exact h.sorted
  released ticket hmem := by
    rw [granted_grant]
    exact List.mem_append_left _ (h.released ticket hmem)

theorem serve_inv (waiters : List Waiter) (gate : HandlerGate) (h : gate.Kept waiters)
    (hqueue : waiters.length ≤ gate.maxWaiting) : (serve waiters gate).Inv := by
  induction waiters generalizing gate with
  | nil =>
      unfold serve
      exact ⟨⟨h.active, h.bounded, h.tickets, h.sorted, h.released⟩, hqueue, fun hsome => absurd rfl hsome⟩
  | cons waiter waiters ih =>
      have hrest : waiters.length ≤ gate.maxWaiting := (Nat.le_succ _).trans hqueue
      unfold serve
      split_ifs with hfree haborted
      · apply ih
        · exact h.drop Verdict.noConfusion (List.sublist_cons_self _ _) (.refl _)
        · exact hrest
      · exact ih _ (h.grant hfree) hrest
      · refine ⟨⟨h.active, h.bounded, h.tickets, h.sorted, h.released⟩, hqueue, fun _ => ?_⟩
        exact le_antisymm h.bounded (not_lt.mp hfree)

/-! ### Operations -/

theorem new_inv (limit maxWaiting : Nat) : (new limit maxWaiting).Inv :=
  ⟨⟨rfl, Int.natCast_nonneg _, .refl _, .nil, nofun⟩, Nat.zero_le _, fun hsome => absurd rfl hsome⟩

/-- An acquire begins as the last waiter. -/
theorem Kept.enter (h : gate.Kept waiters) (signal : Nat) :
    Kept { gate with acquired := gate.acquired + 1 } (waiters ++ [⟨gate.acquired, signal⟩]) where
  active := h.active
  bounded := h.bounded
  tickets := by
    change (gate.settled.map Prod.fst ++ (waiters ++ _).map Waiter.ticket).Perm (List.range (gate.acquired + 1))
    rw [List.range_succ, List.map_append, ← List.append_assoc]
    exact h.tickets.append_right _
  sorted := by
    change (gate.granted ++ (waiters ++ _).map Waiter.ticket).Pairwise (· < ·)
    rw [List.map_append, ← List.append_assoc]
    apply List.pairwise_append.mpr
    refine ⟨h.sorted, List.pairwise_singleton _ _, fun ticket hmem last hlast => ?_⟩
    rw [List.mem_singleton.mp hlast]
    rcases List.mem_append.mp hmem with hgranted | hwaits
    · exact h.known hgranted
    · exact List.mem_range.mp (h.tickets.mem_iff.mp (List.mem_append_right _ hwaits))
  released := h.released

theorem Inv.acquire (h : gate.Inv) (signal : Nat) : (gate.acquire signal).Inv := by
  have hentered := h.toKept.enter signal
  have hperm : ((gate.waiters ++ [(⟨gate.acquired, signal⟩ : Waiter)]).map Waiter.ticket).Perm
      (gate.acquired :: gate.waiters.map Waiter.ticket) := by
    rw [List.map_append]
    exact List.perm_append_singleton _ _
  have hsettled : ∀ verdict : Verdict, verdict ≠ .granted →
      (settle gate.acquired verdict { gate with acquired := gate.acquired + 1 }).Inv := fun verdict hverdict =>
    ⟨hentered.drop hverdict (List.sublist_append_left _ _) hperm, h.queue, h.full⟩
  unfold HandlerGate.acquire
  dsimp only
  split_ifs with haborted hfree hlong
  · exact hsettled .aborted Verdict.noConfusion
  · have hnone : gate.waiters = [] := by
      by_contra hsome
      exact absurd (h.full hsome) hfree.ne
    rw [hnone] at hentered
    have hgranted := hentered.grant hfree
    refine ⟨?_, h.queue, fun hsome => absurd hnone hsome⟩
    change Kept _ gate.waiters
    rw [hnone]
    exact hgranted
  · exact hsettled _ Verdict.noConfusion
  · refine ⟨⟨hentered.active, hentered.bounded, hentered.tickets, hentered.sorted, hentered.released⟩, ?_, fun _ => ?_⟩
    · change (gate.waiters ++ [_]).length ≤ gate.maxWaiting
      rw [List.length_append, List.length_singleton]
      exact not_le.mp hlong
    · exact le_antisymm h.bounded (not_lt.mp hfree)

theorem Inv.abort (h : gate.Inv) {waiter : Waiter} (hmem : waiter ∈ gate.waiters) : (gate.abort waiter.ticket).Inv := by
  have hnodup : (gate.waiters.map Waiter.ticket).Nodup :=
    (List.pairwise_append.mp h.sorted).2.1.imp fun hlt => hlt.ne
  have hperm : (gate.waiters.map Waiter.ticket).Perm
      (waiter.ticket :: (gate.waiters.filter fun other => other.ticket ≠ waiter.ticket).map Waiter.ticket) := by
    have hfilter : (gate.waiters.filter fun other => other.ticket ≠ waiter.ticket).map Waiter.ticket =
        (gate.waiters.map Waiter.ticket).erase waiter.ticket := by
      rw [hnodup.erase_eq_filter, List.filter_map]
      congr 1
      apply List.filter_congr
      intro other _
      rw [Function.comp_apply, Bool.eq_iff_iff, decide_eq_true_iff, bne_iff_ne]
    rw [hfilter]
    exact List.perm_cons_erase (List.mem_map_of_mem hmem)
  have hverdict : Verdict.aborted ≠ .granted := Verdict.noConfusion
  have hkept := h.toKept.drop hverdict List.filter_sublist hperm
  refine ⟨⟨hkept.active, hkept.bounded, hkept.tickets, hkept.sorted, hkept.released⟩, ?_, fun hsome => ?_⟩
  · exact (List.length_filter_le _ _).trans h.queue
  · apply h.full
    intro hnone
    apply hsome
    change gate.waiters.filter _ = []
    rw [hnone]
    rfl

theorem Inv.release (h : gate.Inv) {ticket : Nat} (hgranted : ticket ∈ gate.granted) : (gate.release ticket).Inv := by
  unfold HandlerGate.release
  split_ifs with hagain
  · exact h
  · have hnodup : gate.granted.Nodup := (List.pairwise_append.mp h.sorted).1.imp fun hlt => hlt.ne
    have hheld : ticket ∈ gate.held := List.mem_filter.mpr ⟨hgranted, decide_eq_true hagain⟩
    have hleft : held { gate with released := ticket :: gate.released, active := gate.active - 1 } =
        gate.held.erase ticket := by
      unfold held
      rw [(hnodup.filter _).erase_eq_filter, List.filter_filter]
      apply List.filter_congr
      intro other _
      rw [Bool.eq_iff_iff, Bool.and_eq_true, bne_iff_ne, decide_eq_true_iff, decide_eq_true_iff, List.mem_cons, not_or]
    apply serve_inv
    swap
    · exact h.queue
    refine ⟨?_, ?_, h.tickets, h.sorted, fun other hmem => ?_⟩
    · rw [hleft, List.length_erase_of_mem hheld]
      change gate.active - 1 = _
      rw [h.active]
      have hpositive := List.length_pos_of_mem hheld
      omega
    · have hbounded := h.bounded
      change gate.active - 1 ≤ gate.limit
      omega
    · rcases List.mem_cons.mp hmem with rfl | hold
      · exact hgranted
      · exact h.released other hold

theorem Inv.step (h : gate.Inv) {op : Op} (hstep : gate.Step op next) : next.Inv := by
  cases op with
  | acquire signal =>
      rw [show next = gate.acquire signal from hstep]
      exact h.acquire signal
  | abort signal =>
      rw [show next = _ from hstep]
      exact ⟨⟨h.active, h.bounded, h.tickets, h.sorted, h.released⟩, h.queue, h.full⟩
  | heard ticket =>
      obtain ⟨waiter, hmem, rfl, -, rfl⟩ := hstep
      exact h.abort hmem
  | release ticket =>
      obtain ⟨hgranted, rfl⟩ := hstep
      exact h.release hgranted

/-! ### What lasts -/

/-- The bounds and the release functions that were called. -/
theorem serve_kept (waiters : List Waiter) (gate : HandlerGate) : (serve waiters gate).limit = gate.limit ∧
    (serve waiters gate).maxWaiting = gate.maxWaiting ∧ (serve waiters gate).released = gate.released := by
  induction waiters generalizing gate with
  | nil => exact ⟨rfl, rfl, rfl⟩
  | cons waiter waiters ih =>
      unfold serve
      split_ifs
      · exact ih _
      · exact ih _
      · exact ⟨rfl, rfl, rfl⟩

theorem step_kept {op : Op} (hstep : gate.Step op next) : next.limit = gate.limit ∧ next.maxWaiting = gate.maxWaiting ∧
    gate.released ⊆ next.released := by
  cases op with
  | acquire signal =>
      rw [show next = gate.acquire signal from hstep]
      unfold HandlerGate.acquire
      dsimp only
      split_ifs <;> exact ⟨rfl, rfl, List.Subset.refl _⟩
  | abort signal =>
      rw [show next = _ from hstep]
      exact ⟨rfl, rfl, List.Subset.refl _⟩
  | heard ticket =>
      obtain ⟨waiter, -, -, -, rfl⟩ := hstep
      exact ⟨rfl, rfl, List.Subset.refl _⟩
  | release ticket =>
      obtain ⟨-, rfl⟩ := hstep
      unfold HandlerGate.release
      split_ifs
      · exact ⟨rfl, rfl, List.Subset.refl _⟩
      · obtain ⟨hlimit, hmost, hreleased⟩ := serve_kept gate.waiters
          { gate with released := ticket :: gate.released, active := gate.active - 1 }
        rw [hlimit, hmost, hreleased]
        exact ⟨rfl, rfl, List.subset_cons_self _ _⟩

theorem mem_release (ticket : Nat) (gate : HandlerGate) : ticket ∈ (gate.release ticket).released := by
  unfold HandlerGate.release
  split_ifs with hagain
  · exact hagain
  · rw [(serve_kept _ _).2.2]
    exact List.mem_cons_self

/-! ### Aborted waiters -/

/-- A waiter that is rejected, or will be. -/
structure Aborted (waiter : Waiter) (gate : HandlerGate) : Prop where
  signal : waiter.signal ∈ gate.aborted
  place : waiter ∈ gate.waiters ∨ (waiter.ticket, .aborted) ∈ gate.settled

theorem serve_aborted {waiter : Waiter} (waiters : List Waiter) (gate : HandlerGate) (hsignal : waiter.signal ∈ gate.aborted)
    (hplace : waiter ∈ waiters ∨ (waiter.ticket, .aborted) ∈ gate.settled) : (serve waiters gate).Aborted waiter := by
  induction waiters generalizing gate with
  | nil =>
      rcases hplace with hmem | hsettled
      · cases hmem
      · exact ⟨hsignal, Or.inr hsettled⟩
  | cons first waiters ih =>
      unfold serve
      split_ifs with hfree haborted
      · apply ih
        · exact hsignal
        · rcases hplace with hmem | hsettled
          · rcases List.mem_cons.mp hmem with rfl | hrest
            · exact Or.inr (List.mem_append_right _ List.mem_cons_self)
            · exact Or.inl hrest
          · exact Or.inr (List.mem_append_left _ hsettled)
      · apply ih
        · exact hsignal
        · rcases hplace with hmem | hsettled
          · rcases List.mem_cons.mp hmem with rfl | hrest
            · exact absurd hsignal haborted
            · exact Or.inl hrest
          · exact Or.inr (List.mem_append_left _ hsettled)
      · exact ⟨hsignal, hplace⟩

theorem Aborted.step {waiter : Waiter} (h : gate.Aborted waiter) {op : Op} (hstep : gate.Step op next) :
    next.Aborted waiter := by
  cases op with
  | acquire signal =>
      rw [show next = gate.acquire signal from hstep]
      unfold HandlerGate.acquire
      dsimp only
      have hlater : ∀ entry : Nat × Verdict, waiter ∈ gate.waiters ∨ (waiter.ticket, .aborted) ∈ gate.settled ++ [entry] := by
        intro entry
        exact h.place.imp_right (List.mem_append_left _)
      split_ifs
      · exact ⟨h.signal, hlater _⟩
      · exact ⟨h.signal, hlater _⟩
      · exact ⟨h.signal, hlater _⟩
      · exact ⟨h.signal, h.place.imp_left (List.mem_append_left _)⟩
  | abort signal =>
      rw [show next = _ from hstep]
      exact ⟨List.mem_cons_of_mem _ h.signal, h.place⟩
  | heard ticket =>
      obtain ⟨other, -, -, -, rfl⟩ := hstep
      refine ⟨h.signal, ?_⟩
      rcases h.place with hmem | hsettled
      · by_cases hticket : waiter.ticket = ticket
        · right
          rw [hticket]
          exact List.mem_append_right _ List.mem_cons_self
        · exact Or.inl (List.mem_filter.mpr ⟨hmem, decide_eq_true hticket⟩)
      · exact Or.inr (List.mem_append_left _ hsettled)
  | release ticket =>
      obtain ⟨-, rfl⟩ := hstep
      unfold HandlerGate.release
      split_ifs
      · exact h
      · exact serve_aborted _ _ h.signal h.place

/-- What is settled once does not wait, and is settled with one verdict. -/
theorem Kept.once (h : gate.Kept waiters) : (gate.settled.map Prod.fst).Nodup ∧
    ∀ ticket verdict, (ticket, verdict) ∈ gate.settled → ticket ∉ waiters.map Waiter.ticket := by
  have hnodup := h.tickets.nodup_iff.mpr List.nodup_range
  obtain ⟨honce, -, hdisjoint⟩ := List.nodup_append.mp hnodup
  refine ⟨honce, fun ticket verdict hmem hwaits => ?_⟩
  exact hdisjoint ticket (List.mem_map_of_mem hmem) ticket hwaits rfl

theorem Aborted.notMem_granted {waiter : Waiter} (h : gate.Aborted waiter) (hinv : gate.Inv) :
    waiter.ticket ∉ gate.granted := by
  intro hgranted
  obtain ⟨honce, hapart⟩ := hinv.toKept.once
  obtain ⟨⟨ticket, verdict⟩, hmem, heq⟩ := List.mem_filterMap.mp hgranted
  cases verdict with
  | granted =>
      obtain rfl := Option.some.inj heq
      rcases h.place with hwaits | hsettled
      · exact hapart _ _ hmem (List.mem_map_of_mem hwaits)
      · have hsame := List.inj_on_of_nodup_map honce hmem hsettled rfl
        cases congrArg Prod.snd hsame
  | aborted => cases heq
  | refused message => cases heq

/-! ### What a step settles -/

theorem serve_verdicts (waiters : List Waiter) (gate : HandlerGate) {entry : Nat × Verdict}
    (h : entry ∈ (serve waiters gate).settled) : entry ∈ gate.settled ∨ ∃ waiter ∈ waiters, entry.1 = waiter.ticket ∧
      (entry.2 = .granted ∨ entry.2 = .aborted ∧ waiter.signal ∈ gate.aborted) := by
  induction waiters generalizing gate with
  | nil => exact Or.inl h
  | cons first waiters ih =>
      unfold serve at h
      split_ifs at h with hfree haborted
      · rcases ih _ h with hmem | ⟨waiter, hmem, hentry⟩
        · rcases List.mem_append.mp hmem with hold | hnew
          · exact Or.inl hold
          · rw [List.mem_singleton.mp hnew]
            exact Or.inr ⟨first, List.mem_cons_self, rfl, Or.inr ⟨rfl, haborted⟩⟩
        · exact Or.inr ⟨waiter, List.mem_cons_of_mem _ hmem, hentry⟩
      · rcases ih _ h with hmem | ⟨waiter, hmem, hentry⟩
        · rcases List.mem_append.mp hmem with hold | hnew
          · exact Or.inl hold
          · rw [List.mem_singleton.mp hnew]
            exact Or.inr ⟨first, List.mem_cons_self, rfl, Or.inl rfl⟩
        · exact Or.inr ⟨waiter, List.mem_cons_of_mem _ hmem, hentry⟩
      · exact Or.inl h

/-- An acquire is settled with an error at once, or not at all. -/
theorem step_verdicts {op : Op} (hstep : gate.Step op next) {ticket : Nat} {verdict : Verdict}
    (h : (ticket, verdict) ∈ next.settled) : (ticket, verdict) ∈ gate.settled ∨
      (∃ waiter ∈ gate.waiters, ticket = waiter.ticket ∧
        (verdict = .granted ∨ verdict = .aborted ∧ waiter.signal ∈ gate.aborted)) ∨
      ∃ signal, op = .acquire signal ∧ ticket = gate.acquired ∧
        (verdict = .granted ∨ verdict = .aborted ∧ signal ∈ gate.aborted ∨
          verdict = .refused "Cluster worker admission bound exceeded" ∧ gate.limit ≤ gate.active ∧
            gate.maxWaiting ≤ gate.waiters.length) := by
  cases op with
  | acquire signal =>
      rw [show next = gate.acquire signal from hstep] at h
      have hnew : ∀ verdict', (ticket, verdict) ∈ gate.settled ++ [(gate.acquired, verdict')] →
          (ticket, verdict) ∈ gate.settled ∨ ticket = gate.acquired ∧ verdict = verdict' := by
        intro verdict' hmem
        exact (List.mem_append.mp hmem).imp_right fun hlast => Prod.mk.inj (List.mem_singleton.mp hlast)
      unfold HandlerGate.acquire at h
      dsimp only at h
      split_ifs at h with haborted hfree hlong
      · exact (hnew _ h).imp_right fun hentry => Or.inr ⟨signal, rfl, hentry.1, Or.inr (Or.inl ⟨hentry.2, haborted⟩)⟩
      · exact (hnew _ h).imp_right fun hentry => Or.inr ⟨signal, rfl, hentry.1, Or.inl hentry.2⟩
      · exact (hnew _ h).imp_right fun hentry =>
          Or.inr ⟨signal, rfl, hentry.1, Or.inr (Or.inr ⟨hentry.2, not_lt.mp hfree, hlong⟩)⟩
      · exact Or.inl h
  | abort signal =>
      rw [show next = _ from hstep] at h
      exact Or.inl h
  | heard ticket' =>
      obtain ⟨waiter, hmem, rfl, hsignal, rfl⟩ := hstep
      rcases List.mem_append.mp h with hold | hlast
      · exact Or.inl hold
      · obtain ⟨rfl, rfl⟩ := Prod.mk.inj (List.mem_singleton.mp hlast)
        exact Or.inr (Or.inl ⟨waiter, hmem, rfl, Or.inr ⟨rfl, hsignal⟩⟩)
  | release ticket' =>
      obtain ⟨-, rfl⟩ := hstep
      unfold HandlerGate.release at h
      split_ifs at h
      · exact Or.inl h
      · exact (serve_verdicts _ _ h).imp_right Or.inl

/-- The waiters that are not aborted, in the order they came. -/
def live (gate : HandlerGate) : List Waiter := gate.waiters.filter fun waiter => waiter.signal ∉ gate.aborted

/-- A free place goes to the first of them. -/
theorem serve_live (waiters : List Waiter) (gate : HandlerGate) (hfree : gate.active + 1 = gate.limit) :
    (serve waiters gate).granted =
        gate.granted ++ ((waiters.filter fun waiter => waiter.signal ∉ gate.aborted).take 1).map Waiter.ticket ∧
      (serve waiters gate).live = (waiters.filter fun waiter => waiter.signal ∉ gate.aborted).drop 1 := by
  induction waiters generalizing gate with
  | nil => exact ⟨(List.append_nil _).symm, rfl⟩
  | cons first waiters ih =>
      unfold serve
      have hlt : gate.active < gate.limit := by omega
      rw [if_pos hlt]
      by_cases haborted : first.signal ∈ gate.aborted
      · rw [if_pos haborted, List.filter_cons_of_neg (by simpa using haborted)]
        have hrest := ih (gate.settle first.ticket .aborted) hfree
        rw [granted_settle _ Verdict.noConfusion] at hrest
        exact hrest
      · rw [if_neg haborted, List.filter_cons_of_pos (by simpa using haborted)]
        have hfull : ¬(gate.grant first.ticket).active < (gate.grant first.ticket).limit := by
          change ¬gate.active + 1 < gate.limit
          omega
        have hstays :
            serve waiters (gate.grant first.ticket) = { gate.grant first.ticket with waiters := waiters } := by
          cases waiters with
          | nil => rfl
          | cons second waiters =>
              unfold serve
              rw [if_neg hfull]
        rw [hstays]
        exact ⟨granted_grant first.ticket gate, rfl⟩

theorem Inv.release_live (h : gate.Inv) {ticket : Nat} (hheld : ticket ∈ gate.held) :
    (gate.release ticket).granted = gate.granted ++ (gate.live.take 1).map Waiter.ticket ∧
      (gate.release ticket).live = gate.live.drop 1 := by
  have hfresh : ticket ∉ gate.released := of_decide_eq_true (List.mem_filter.mp hheld).2
  unfold HandlerGate.release
  rw [if_neg hfresh]
  by_cases hnone : gate.waiters = []
  · rw [hnone]
    unfold live
    rw [hnone]
    exact ⟨(List.append_nil _).symm, rfl⟩
  · apply serve_live
    change gate.active - 1 + 1 = gate.limit
    rw [h.full hnone]
    omega

/-! ### What was asked for -/

/-- The signals of the acquires. -/
def signals (ops : List Op) : List Nat := ops.filterMap fun
  | .acquire signal => some signal
  | _ => none

theorem signals_append (ops ops' : List Op) : signals (ops ++ ops') = signals ops ++ signals ops' :=
    List.filterMap_append

/-- All places were taken, in the gate and in its queue, when the acquire came. -/
def Crowded (limit maxWaiting : Nat) (ops : List Op) (ticket : Nat) : Prop :=
  ∃ before signal after gate, ops = before ++ .acquire signal :: after ∧
    (gates limit maxWaiting).Run (.new limit maxWaiting) before gate ∧ gate.acquired = ticket ∧ gate.active = limit ∧
    gate.waiters.length = maxWaiting

theorem serve_frame (waiters : List Waiter) (gate : HandlerGate) : (serve waiters gate).waiters ⊆ waiters ∧
    (serve waiters gate).acquired = gate.acquired ∧ (serve waiters gate).aborted = gate.aborted := by
  induction waiters generalizing gate with
  | nil => exact ⟨List.Subset.refl _, rfl, rfl⟩
  | cons first waiters ih =>
      unfold serve
      split_ifs
      · obtain ⟨hwaiters, hsame⟩ := ih (gate.settle first.ticket .aborted)
        exact ⟨List.subset_cons_of_subset _ hwaiters, hsame⟩
      · obtain ⟨hwaiters, hsame⟩ := ih (gate.grant first.ticket)
        exact ⟨List.subset_cons_of_subset _ hwaiters, hsame⟩
      · exact ⟨List.Subset.refl _, rfl, rfl⟩

theorem step_history {op : Op} (hstep : gate.Step op next) : next.acquired = gate.acquired + (signals [op]).length ∧
    (∀ waiter ∈ next.waiters,
      waiter ∈ gate.waiters ∨ ∃ signal, op = .acquire signal ∧ waiter = ⟨gate.acquired, signal⟩) ∧
    ∀ signal, signal ∈ next.aborted ↔ signal ∈ gate.aborted ∨ op = .abort signal := by
  cases op with
  | acquire signal =>
      rw [show next = gate.acquire signal from hstep]
      have hold : ∀ other, other ∈ gate.aborted ↔ other ∈ gate.aborted ∨ False := fun other => (or_iff_left id).symm
      unfold HandlerGate.acquire
      dsimp only
      split_ifs
      · exact ⟨rfl, fun waiter hmem => Or.inl hmem, hold⟩
      · exact ⟨rfl, fun waiter hmem => Or.inl hmem, hold⟩
      · exact ⟨rfl, fun waiter hmem => Or.inl hmem, hold⟩
      · refine ⟨rfl, fun waiter hmem => ?_, hold⟩
        exact (List.mem_append.mp hmem).imp_right fun hlast => ⟨signal, rfl, List.mem_singleton.mp hlast⟩
  | abort signal =>
      rw [show next = _ from hstep]
      refine ⟨rfl, fun waiter hmem => Or.inl hmem, fun other => ?_⟩
      rw [List.mem_cons, Op.abort.injEq, or_comm, eq_comm]
  | heard ticket =>
      obtain ⟨waiter, -, -, -, rfl⟩ := hstep
      exact ⟨rfl, fun other hmem => Or.inl (List.mem_filter.mp hmem).1, fun other => (or_iff_left Op.noConfusion).symm⟩
  | release ticket =>
      obtain ⟨-, rfl⟩ := hstep
      unfold HandlerGate.release
      split_ifs
      · exact ⟨rfl, fun waiter hmem => Or.inl hmem, fun other => (or_iff_left id).symm⟩
      · obtain ⟨hwaiters, hacquired, haborted⟩ := serve_frame gate.waiters
          { gate with released := ticket :: gate.released, active := gate.active - 1 }
        refine ⟨hacquired, fun waiter hmem => Or.inl (hwaiters hmem), fun other => ?_⟩
        rw [haborted]
        exact (or_iff_left id).symm

/-- What a gate has of its history. -/
structure Told (limit maxWaiting : Nat) (ops : List Op) (gate : HandlerGate) : Prop where
  acquired : gate.acquired = (signals ops).length
  asked : ∀ waiter ∈ gate.waiters, (signals ops)[waiter.ticket]? = some waiter.signal
  signals : ∀ signal, signal ∈ gate.aborted ↔ .abort signal ∈ ops
  aborted : ∀ ticket, (ticket, .aborted) ∈ gate.settled →
    ∃ signal, (HandlerGate.signals ops)[ticket]? = some signal ∧ .abort signal ∈ ops
  refused : ∀ ticket message, (ticket, .refused message) ∈ gate.settled →
    message = "Cluster worker admission bound exceeded" ∧ Crowded limit maxWaiting ops ticket

end HandlerGate

theorem gates_inv {limit maxWaiting : Nat} {gate : HandlerGate} (h : (gates limit maxWaiting).Reachable gate) : gate.Inv := by
  apply h.invariant
  · intro gate hgate
    rw [show gate = .new limit maxWaiting from hgate]
    exact HandlerGate.new_inv limit maxWaiting
  · intro gate op next _ hinv hstep
    exact hinv.step hstep

theorem gates_bounds {limit maxWaiting : Nat} {gate : HandlerGate} (h : (gates limit maxWaiting).Reachable gate) :
    gate.limit = limit ∧ gate.maxWaiting = maxWaiting := by
  apply h.invariant
  · intro gate hgate
    rw [show gate = .new limit maxWaiting from hgate]
    exact ⟨rfl, rfl⟩
  · intro gate op next _ hbounds hstep
    obtain ⟨hlimit, hmost, -⟩ := HandlerGate.step_kept hstep
    rw [hlimit, hmost]
    exact hbounds

namespace HandlerGate

variable {limit maxWaiting : Nat} {ops : List Op}

theorem Crowded.mono {ticket : Nat} (h : Crowded limit maxWaiting ops ticket) (op : Op) :
    Crowded limit maxWaiting (ops ++ [op]) ticket := by
  obtain ⟨before, signal, after, gate, rfl, hrest⟩ := h
  exact ⟨before, signal, after ++ [op], gate, by rw [List.append_assoc, List.cons_append], hrest⟩

theorem gates_told (h : (gates limit maxWaiting).Run (.new limit maxWaiting) ops gate) :
    gate.Told limit maxWaiting ops := by
  induction h with
  | nil => exact ⟨rfl, nofun, fun signal => iff_of_false (List.not_mem_nil) (List.not_mem_nil), nofun, nofun⟩
  | @snoc ops gate op next hrun hstep ih =>
      have hreachable : (gates limit maxWaiting).Reachable gate := ⟨_, ops, rfl, hrun⟩
      have hinv := gates_inv hreachable
      obtain ⟨hlimit, hmost⟩ := gates_bounds hreachable
      obtain ⟨hacquired, hwaiters, haborted⟩ := step_history hstep
      have hsignals : ∀ {ticket signal : Nat}, (HandlerGate.signals ops)[ticket]? = some signal →
          (HandlerGate.signals (ops ++ [op]))[ticket]? = some signal := by
        intro ticket signal hget
        rw [signals_append, List.getElem?_append_left (List.getElem?_eq_some_iff.mp hget).1]
        exact hget
      have hnew : ∀ signal, op = .acquire signal →
          (HandlerGate.signals (ops ++ [op]))[gate.acquired]? = some signal := by
        rintro signal rfl
        rw [signals_append, ih.acquired, List.getElem?_append_right le_rfl, Nat.sub_self]
        rfl
      have hold : ∀ {signal : Nat}, .abort signal ∈ ops → .abort signal ∈ ops ++ [op] :=
        fun hmem => List.mem_append_left _ hmem
      exact {
        acquired := by
          rw [hacquired, ih.acquired, signals_append, List.length_append]
        asked := fun waiter hmem => by
          rcases hwaiters waiter hmem with hwaits | ⟨signal, hop, rfl⟩
          · exact hsignals (ih.asked waiter hwaits)
          · exact hnew signal hop
        signals := fun signal => by
          rw [haborted, ih.signals, List.mem_append, List.mem_singleton, eq_comm (a := op)]
        aborted := fun ticket hmem => by
          rcases step_verdicts hstep hmem with hsettled | ⟨waiter, hwaits, rfl, hverdict⟩ | ⟨signal, hop, rfl, hverdict⟩
          · obtain ⟨signal, hget, hsignal⟩ := ih.aborted ticket hsettled
            exact ⟨signal, hsignals hget, hold hsignal⟩
          · obtain ⟨-, hsignal⟩ := hverdict.resolve_left Verdict.noConfusion
            exact ⟨waiter.signal, hsignals (ih.asked waiter hwaits), hold ((ih.signals _).mp hsignal)⟩
          · obtain ⟨-, hsignal⟩ := (hverdict.resolve_left Verdict.noConfusion).resolve_right fun h => Verdict.noConfusion h.1
            exact ⟨signal, hnew signal hop, hold ((ih.signals _).mp hsignal)⟩
        refused := fun ticket message hmem => by
          rcases step_verdicts hstep hmem with hsettled | ⟨waiter, -, -, hverdict⟩ | ⟨signal, rfl, rfl, hverdict⟩
          · obtain ⟨hmessage, hcrowded⟩ := ih.refused ticket message hsettled
            exact ⟨hmessage, hcrowded.mono op⟩
          · exact Verdict.noConfusion (hverdict.resolve_left Verdict.noConfusion).1
          · obtain ⟨hmessage, hfull, hlong⟩ :=
              (hverdict.resolve_left Verdict.noConfusion).resolve_left fun h => Verdict.noConfusion h.1
            refine ⟨Verdict.refused.inj hmessage, ops, signal, [], gate, rfl, hrun, rfl, ?_, ?_⟩
            · exact hlimit ▸ le_antisymm hinv.bounded hfull
            · exact hmost ▸ le_antisymm hinv.queue hlong }

/-- A fair bounded semaphore, after these operations. -/
structure Fair (limit maxWaiting : Nat) (ops : List Op) (gate : HandlerGate) : Prop where
  active : gate.active = gate.held.length
  bounded : gate.active ≤ limit
  queue : gate.waiters.length ≤ maxWaiting
  full : gate.waiters ≠ [] → gate.active = limit
  /-- Acquires are granted in the order they came, and before those that wait. -/
  order : gate.granted.Pairwise (· < ·)
  behind : ∀ ticket ∈ gate.granted, ∀ waiter ∈ gate.waiters, ticket < waiter.ticket
  once : (gate.settled.map Prod.fst).Nodup
  /-- Every acquire is settled or waits. -/
  tickets : (gate.settled.map Prod.fst ++ gate.waiters.map Waiter.ticket).Perm (List.range (signals ops).length)
  asked : ∀ waiter ∈ gate.waiters, (signals ops)[waiter.ticket]? = some waiter.signal
  signals : ∀ signal, signal ∈ gate.aborted ↔ .abort signal ∈ ops
  /-- It is settled without a grant only for an aborted signal, or when it came to a full queue. -/
  aborted : ∀ ticket, (ticket, .aborted) ∈ gate.settled →
    ∃ signal, (HandlerGate.signals ops)[ticket]? = some signal ∧ .abort signal ∈ ops
  refused : ∀ ticket message, (ticket, .refused message) ∈ gate.settled →
    message = "Cluster worker admission bound exceeded" ∧ Crowded limit maxWaiting ops ticket
  /-- A release grants the first waiter whose signal is not aborted, and leaves the others their places. -/
  handed : ∀ ticket ∈ gate.held, (gate.release ticket).granted = gate.granted ++ (gate.live.take 1).map Waiter.ticket ∧
    (gate.release ticket).live = gate.live.drop 1

theorem gates_fair (h : (gates limit maxWaiting).Run (.new limit maxWaiting) ops gate) :
    gate.Fair limit maxWaiting ops := by
  have hreachable : (gates limit maxWaiting).Reachable gate := ⟨_, ops, rfl, h⟩
  have hinv := gates_inv hreachable
  have htold := gates_told h
  obtain ⟨hlimit, hmost⟩ := gates_bounds hreachable
  exact {
    active := hinv.active
    bounded := hlimit ▸ hinv.bounded
    queue := hmost ▸ hinv.queue
    full := hlimit ▸ hinv.full
    order := (List.pairwise_append.mp hinv.sorted).1
    behind := fun ticket hgranted waiter hmem =>
      (List.pairwise_append.mp hinv.sorted).2.2 ticket hgranted _ (List.mem_map_of_mem hmem)
    once := hinv.toKept.once.1
    tickets := htold.acquired ▸ hinv.tickets
    asked := htold.asked
    signals := htold.signals
    aborted := htold.aborted
    refused := htold.refused
    handed := fun ticket hheld => hinv.release_live hheld }

end HandlerGate

/-- **The gate is a fair bounded semaphore.** An acquire whose signal is aborted is rejected, at once or when the
listener of its waiter runs, and is never granted; and a release function works once. -/
theorem gate_fair (limit maxWaiting : Nat) (ops : List HandlerGate.Op) (gate : HandlerGate)
    (h : (gates limit maxWaiting).Run (.new limit maxWaiting) ops gate) :
    gate.Fair limit maxWaiting ops ∧
    (∀ signal ∈ gate.aborted, gate.acquire signal = { gate with
      acquired := gate.acquired + 1
      settled := gate.settled ++ [(gate.acquired, .aborted)] }) ∧
    (∀ waiter ∈ gate.waiters, waiter.signal ∈ gate.aborted →
      (∃ next, gate.Step (.heard waiter.ticket) next ∧ next.active = gate.active ∧ waiter ∉ next.waiters ∧
        (waiter.ticket, .aborted) ∈ next.settled) ∧
      ∀ ops next, (gates limit maxWaiting).Run gate ops next → waiter.ticket ∉ next.granted ∧
        (waiter ∈ next.waiters ∨ (waiter.ticket, .aborted) ∈ next.settled)) ∧
    ∀ ticket ∈ gate.granted, ∀ ops next, (gates limit maxWaiting).Run (gate.release ticket) ops next →
      next.release ticket = next := by
  have hreachable : (gates limit maxWaiting).Reachable gate := ⟨_, ops, rfl, h⟩
  refine ⟨HandlerGate.gates_fair h, fun signal haborted => ?_, fun waiter hmem hsignal => ⟨?_, fun ops next hrun => ?_⟩,
    fun ticket hgranted ops next hrun => ?_⟩
  · unfold HandlerGate.acquire
    dsimp only
    rw [if_pos haborted]
    rfl
  · refine ⟨gate.abort waiter.ticket, ⟨waiter, hmem, rfl, hsignal, rfl⟩, rfl, fun hstill => ?_, ?_⟩
    · exact of_decide_eq_true (List.mem_filter.mp hstill).2 rfl
    · exact List.mem_append_right _ List.mem_cons_self
  · have haborted : next.Aborted waiter := by
      apply hrun.preserves (A := fun _ => True) _ hreachable ⟨hsignal, Or.inl hmem⟩ fun _ _ => trivial
      intro u op v _ hu _ hstep
      exact hu.step hstep
    exact ⟨haborted.notMem_granted (gates_inv (hreachable.run hrun)), haborted.place⟩
  · have hreleasing : (gates limit maxWaiting).Reachable (gate.release ticket) :=
      hreachable.step (l := HandlerGate.Op.release ticket) ⟨hgranted, rfl⟩
    have hreleased : ticket ∈ next.released := by
      apply hrun.preserves (A := fun _ => True) _ hreleasing (HandlerGate.mem_release ticket gate) fun _ _ => trivial
      intro u op v _ hu _ hstep
      exact (HandlerGate.step_kept hstep).2.2 hu
    unfold HandlerGate.release
    rw [if_pos hreleased]

/-- One acquire holds the only place, two wait and one was refused; the signal of the first waiter is aborted. -/
def HandlerGate.busy : HandlerGate where
  limit := 1
  maxWaiting := 2
  active := 1
  waiters := [⟨1, 5⟩, ⟨2, 6⟩]
  aborted := [5]
  released := []
  acquired := 4
  settled := [(0, .granted), (3, .refused "Cluster worker admission bound exceeded")]

def HandlerGate.busyOps : List HandlerGate.Op := [.acquire 4, .acquire 5, .acquire 6, .acquire 7, .abort 5]

theorem HandlerGate.busy_run : (gates 1 2).Run (.new 1 2) HandlerGate.busyOps HandlerGate.busy := by
  have h : (gates 1 2).Run (.new 1 2) [] (.new 1 2) := .nil
  have h := h.snoc (l := HandlerGate.Op.acquire 4) rfl
  have h := h.snoc (l := HandlerGate.Op.acquire 5) rfl
  have h := h.snoc (l := HandlerGate.Op.acquire 6) rfl
  have h := h.snoc (l := HandlerGate.Op.acquire 7) rfl
  exact h.snoc (l := HandlerGate.Op.abort 5) rfl

/-- The second waiter is granted the place. -/
theorem gate_fair_busy : HandlerGate.busy.Fair 1 2 HandlerGate.busyOps ∧
    (HandlerGate.busy.release 0).granted = [0, 2] := by
  have hfair := (gate_fair 1 2 HandlerGate.busyOps HandlerGate.busy HandlerGate.busy_run).1
  exact ⟨hfair, (hfair.handed 0 (by decide)).1⟩

end VeloBus.Cluster
