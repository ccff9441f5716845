import VeloBus.ClientOutcomes
import VeloBus.StationDesk

/-! The service's side of a worker: what its promises were settled with, and what its slots have. -/

namespace VeloBus.Station

open Client (Failure)

/-- The request behind a promise. -/
def Asked (child : Client.State (Option Rpc.Job)) (promise opcode : Nat) (parse : Client.Parser (Option Rpc.Job)) :
    Prop := ∃ id since, child.sent[promise]? = some ⟨id, opcode, parse, since⟩

/-- The calls the service sent a COMPLETE for. -/
def completedIds (log : List Service.Entry) : List Nat :=
  log.filterMap fun
    | .took _ _ => none
    | .completed _ job _ _ _ => some job.callId

def jobOf : Service.Entry → Rpc.Job
  | .took _ job => job
  | .completed _ job _ _ _ => job

/-- What a slot has or waits for. -/
def Desk.Seats (d : Desk) (child : Client.State (Option Rpc.Job)) (stopped : Bool) (i : Nat) : Service.Slot → Prop
  | .taking promise => Asked child promise 8 Client.takenParser ∧
    ∀ taken, (promise, .resolved taken) ∈ child.settled → d.Hands (.promise promise) taken
  | .completing promise => Asked child promise 9 Client.emptyParser
  | .executing job => d.Hands (.slot i) (some job)
  | .threw _ => stopped = true
  | _ => True

structure Desk.Bench (d : Desk) (s : Service.State) : Prop where
  serving : s.phase = .serving → d.Enlisted
  registering : ∀ promise, s.phase = .registering promise → Asked s.child promise 6 Client.emptyParser ∧
    ∀ value, (promise, .resolved value) ∈ s.child.settled → d.Enlisted
  slots : ∀ i slot, s.slots[i]? = some slot → d.Seats s.child s.stopped i slot
  apart : ∀ (i j : Nat) (slot slot' : Service.Slot) (promise : Nat), s.slots[i]? = some slot →
    s.slots[j]? = some slot' →
    slot.promise = some promise → slot'.promise = some promise → i = j
  accepted : ∀ promise code message, (promise, .rejected (.broker code message)) ∈ s.child.settled →
    ∀ opcode parse, Asked s.child promise opcode parse → opcode ≠ 8 ∧ opcode ≠ 9
  cause : ∀ cause, s.cause = some cause → cause = .closed ∨ cause = .lost
  reason : s.child.closed = false ∨ s.phase = .serving → s.child.closeReason.Transport
  once : (completedIds s.log).Nodup
  sent : ∀ id ∈ completedIds s.log, d.Sent id
  worked : ∀ entry ∈ s.log, d.Handed (jobOf entry)

theorem completedIds_append (log log' : List Service.Entry) :
    completedIds (log ++ log') = completedIds log ++ completedIds log' := List.filterMap_append

section Asked

variable {child child' : Client.State (Option Rpc.Job)} {promise opcode : Nat}
  {parse : Client.Parser (Option Rpc.Job)}

theorem Asked.mono (h : Asked child promise opcode parse) (hsent : child.sent <+: child'.sent) :
    Asked child' promise opcode parse := by
  obtain ⟨id, since, hget⟩ := h
  exact ⟨id, since, Client.getElem?_of_isPrefix hsent hget⟩

theorem Asked.lt (h : Asked child promise opcode parse) : promise < child.sent.length := by
  obtain ⟨id, since, hget⟩ := h
  exact (List.getElem?_eq_some_iff.mp hget).1

theorem Asked.back (h : Asked child' promise opcode parse) (hsent : child.sent <+: child'.sent)
    (hlt : promise < child.sent.length) : Asked child promise opcode parse := by
  obtain ⟨id, since, hget⟩ := h
  obtain ⟨later, hlater⟩ := hsent
  rw [← hlater, List.getElem?_append_left hlt] at hget
  exact ⟨id, since, hget⟩

theorem Asked.unique {opcode' : Nat} {parse' : Client.Parser (Option Rpc.Job)} (h : Asked child promise opcode parse)
    (h' : Asked child promise opcode' parse') : opcode = opcode' ∧ parse = parse' := by
  obtain ⟨id, since, hget⟩ := h
  obtain ⟨id', since', hget'⟩ := h'
  rw [hget] at hget'
  have hsame := Option.some.inj hget'
  exact ⟨congrArg Client.Sent.opcode hsame, congrArg Client.Sent.parse hsame⟩

theorem asked_send {s t : Client.State (Option Rpc.Job)} {socket : Client.Socket} {body : Bytes}
    (hsend : s.send socket opcode body parse = some t) : Asked t s.sent.length opcode parse := by
  obtain ⟨-, -, -, id, hsent⟩ := Client.State.send_kept hsend
  refine ⟨id, s.received.length, ?_⟩
  rw [hsent, List.getElem?_append_right le_rfl, Nat.sub_self, List.getElem?_cons_zero]

theorem asked_pending (h : child.Inv) {id : Nat} {pending : Client.Pending (Option Rpc.Job)}
    (hlookup : child.pending.lookup id = some pending) : Asked child pending.promise pending.opcode pending.parse := by
  obtain ⟨-, -, since, -, hget⟩ := h.known id pending hlookup
  exact ⟨some id, since, hget⟩

end Asked

namespace Desk

variable {d d' : Desk} {moved : Option Place} {child child' : Client.State (Option Rpc.Job)} {stopped stopped' : Bool}
  {s : Service.State} {i : Nat} {slot : Service.Slot}

theorem Seats.keeps (hk : d.Keeps d' moved) (h : d.Seats child stopped i slot)
    (hpromise : ∀ promise, slot.promise = some promise → some (.promise promise) ≠ moved)
    (hslot : some (.slot i) ≠ moved) : d'.Seats child stopped i slot := by
  cases slot with
  | taking promise => exact ⟨h.1, fun taken hmem => hk.hands (hpromise promise rfl) (h.2 taken hmem)⟩
  | executing job => exact hk.hands hslot h
  | _ => exact h

theorem Seats.mono (h : d.Seats child stopped i slot) (hsent : child.sent <+: child'.sent)
    (hresolved : ∀ promise value, slot.promise = some promise → (promise, .resolved value) ∈ child'.settled →
      (promise, .resolved value) ∈ child.settled)
    (hstopped : stopped = true → stopped' = true) : d.Seats child' stopped' i slot := by
  cases slot with
  | taking promise => exact ⟨h.1.mono hsent, fun taken hmem => h.2 taken (hresolved promise taken rfl hmem)⟩
  | completing promise => exact Asked.mono h hsent
  | threw cause => exact hstopped h
  | _ => exact h

/-- A step of the connection without a frame. -/
theorem Bench.unsaid (h : d.Bench s) (hinv : s.child.Inv) (hsent : s.child.sent <+: child'.sent)
    (hsettled : ∀ promise outcome, (promise, outcome) ∈ child'.settled → (promise, outcome) ∈ s.child.settled ∨
      ∃ reason, outcome = .rejected reason ∧ ∀ code message, reason ≠ .broker code message)
    (hreason : child'.closed = false ∨ s.phase = .serving → child'.closeReason.Transport) :
    d.Bench { s with child := child' } := by
  have hresolved : ∀ {promise : Nat} {value : Option Rpc.Job}, (promise, .resolved value) ∈ child'.settled →
      (promise, .resolved value) ∈ s.child.settled := by
    intro promise value hmem
    obtain hold | ⟨reason, heq, -⟩ := hsettled promise (.resolved value) hmem
    · exact hold
    · cases heq
  exact { h with
    registering := fun promise hphase => by
      obtain ⟨hasked, henlisted⟩ := h.registering promise hphase
      exact ⟨hasked.mono hsent, fun value hmem => henlisted value (hresolved hmem)⟩
    slots := fun i slot hslot => (h.slots i slot hslot).mono hsent (fun _ _ _ hmem => hresolved hmem) id
    accepted := fun promise code message hmem opcode parse hasked => by
      obtain hold | ⟨reason, heq, hbroker⟩ := hsettled promise (.rejected (.broker code message)) hmem
      · have hlt := hinv.issued promise (List.mem_map_of_mem hold)
        exact h.accepted promise code message hold opcode parse (hasked.back hsent hlt)
      · exact absurd (Client.Settlement.rejected.inj heq).symm (hbroker code message)
    reason := hreason }

theorem Bench.mild (h : d.Bench s) (hinv : s.child.Inv) (hmild : s.child.Mild child')
    (hmono : child'.closed = false → s.child.closed = false) (hstage : s.phase = .serving → child'.stage ≠ .refused) :
    d.Bench { s with child := child' } := by
  apply h.unsaid hinv hmild.sent hmild.settled
  intro hkept
  apply hmild.reason (hkept.imp_right hstage)
  exact h.reason (hkept.imp_left hmono)

theorem Bench.stop (h : d.Bench s) (hinv : s.child.Inv) (hstage : s.phase = .serving → s.child.stage ≠ .refused)
    {cause : Service.Cause} (hcause : cause = .closed ∨ cause = .lost) : d.Bench (s.stop cause) := by
  unfold Service.State.stop
  split_ifs
  · exact h
  · have hfail : s.child.Mild (s.child.fail (.connectionClosed Client.closedMessage)) :=
      Client.State.fail_mild trivial
    have hchild := h.mild hinv hfail (fun hopen => by
      rw [Client.State.fail_closed] at hopen
      cases hopen) (fun hphase => by
      rw [Client.State.fail_stage]
      exact hstage hphase)
    exact { hchild with
      slots := fun i slot hslot =>
        (hchild.slots i slot hslot).mono List.prefix_rfl (fun _ _ _ hmem => hmem) fun _ => rfl
      cause := fun cause' hcause' => by
        rw [← Option.some.inj hcause']
        exact hcause }

/-- The service follows its connection. -/
theorem Bench.follow (h : d.Bench { s with child := child' }) (hinv : child'.Inv)
    (hstage : s.phase = .serving → child'.stage ≠ .refused) : d.Bench (s.follow child') := by
  unfold Service.State.follow
  dsimp only
  split_ifs
  · exact h.stop hinv hstage (Or.inr rfl)
  · exact h

/-- A slot changes. -/
theorem Bench.set (h : d.Bench s) (hk : d.Keeps d' moved) {old new : Service.Slot} (hold : s.slots[i]? = some old)
    (hmoved : ∀ place, moved = some place →
      place = .slot i ∨ ∃ promise, place = .promise promise ∧ old.promise = some promise)
    (hseat : d'.Seats s.child s.stopped i new)
    (hfresh : ∀ promise, new.promise = some promise → ∀ (j : Nat) (slot : Service.Slot), s.slots[j]? = some slot →
      slot.promise ≠ some promise) :
    d'.Bench (s.setSlot i new) := by
  have hslots : ∀ j slot, (s.slots.set i new)[j]? = some slot →
      j = i ∧ slot = new ∨ j ≠ i ∧ s.slots[j]? = some slot := by
    intro j slot hslot
    by_cases hj : i = j
    · subst hj
      rw [List.getElem?_set_self (List.getElem?_eq_some_iff.mp hold).1] at hslot
      exact Or.inl ⟨rfl, (Option.some.inj hslot).symm⟩
    · rw [List.getElem?_set_ne hj] at hslot
      exact Or.inr ⟨fun heq => hj heq.symm, hslot⟩
  exact {
    serving := fun hphase => hk.enlisted (h.serving hphase)
    registering := fun promise hphase => by
      obtain ⟨hasked, henlisted⟩ := h.registering promise hphase
      exact ⟨hasked, fun value hmem => hk.enlisted (henlisted value hmem)⟩
    slots := fun j slot hslot => by
      rcases hslots j slot hslot with ⟨rfl, rfl⟩ | ⟨hj, hbefore⟩
      · exact hseat
      · apply (h.slots j slot hbefore).keeps hk
        · intro promise hpromise heq
          obtain hslot' | ⟨promise', hplace, holdPromise⟩ := hmoved _ heq.symm
          · cases hslot'
          · obtain rfl := Place.promise.inj hplace
            exact hj (h.apart j i slot old promise hbefore hold hpromise holdPromise)
        · intro heq
          obtain hslot' | ⟨promise', hplace, -⟩ := hmoved _ heq.symm
          · exact hj (Place.slot.inj hslot')
          · cases hplace
    apart := fun j k slot slot' promise hslot hslot' hpromise hpromise' => by
      rcases hslots j slot hslot with ⟨rfl, rfl⟩ | ⟨-, hbefore⟩ <;>
        rcases hslots k slot' hslot' with ⟨rfl, rfl⟩ | ⟨-, hbefore'⟩
      · rfl
      · exact absurd hpromise' (hfresh promise hpromise k slot' hbefore')
      · exact absurd hpromise (hfresh promise hpromise' j slot hbefore)
      · exact h.apart j k slot slot' promise hbefore hbefore' hpromise hpromise'
    accepted := h.accepted
    cause := h.cause
    reason := h.reason
    once := h.once
    sent := fun id hmem => hk.sent id (h.sent id hmem)
    worked := fun entry hmem => hk.handed _ (h.worked entry hmem) }

/-- A slot waits for a promise that was given out. -/
theorem Bench.waits (h : d.Bench s) (hslot : s.slots[i]? = some slot) {promise : Nat}
    (hpromise : slot.promise = some promise) : promise < s.child.sent.length := by
  have hseats := h.slots i slot hslot
  cases slot with
  | taking promise' =>
      rw [← Option.some.inj hpromise]
      exact hseats.1.lt
  | completing promise' =>
      rw [← Option.some.inj hpromise]
      exact Asked.lt hseats
  | _ => cases hpromise

/-! ### A frame of the broker -/

/-- Every change of place is one without a place. -/
theorem Keeps.weaken (h : d.Keeps d' none) : d.Keeps d' moved :=
  ⟨h.enlisted, fun place id _ => h.bears place id (Option.some_ne_none place), h.sent, h.handed, h.log,
    h.concurrency⟩

theorem Bench.keeps (h : d.Bench s) (hk : d.Keeps d' moved) (hpromise : ∀ promise, some (.promise promise) ≠ moved)
    (hslot : ∀ i, some (.slot i) ≠ moved) : d'.Bench s := { h with
  serving := fun hphase => hk.enlisted (h.serving hphase)
  registering := fun promise hphase => (h.registering promise hphase).imp_right fun henlisted value hmem =>
    hk.enlisted (henlisted value hmem)
  slots := fun i slot hget => (h.slots i slot hget).keeps hk (fun promise _ => hpromise promise) (hslot i)
  sent := fun id hmem => hk.sent id (h.sent id hmem)
  worked := fun entry hmem => hk.handed _ (h.worked entry hmem) }

/-- A frame that settles a promise with what the desk allows. -/
theorem Bench.settle (h : d.Bench s) {pending : Client.Pending (Option Rpc.Job)}
    (hasked : Asked s.child pending.promise pending.opcode pending.parse)
    {outcome : Client.Settlement (Option Rpc.Job)} (hsent : child'.sent = s.child.sent)
    (hsettled : child'.settled = s.child.settled ++ [(pending.promise, outcome)])
    (hclosed : child'.closed = s.child.closed) (hreason : child'.closeReason = s.child.closeReason)
    (hregister : pending.opcode = 6 → ∀ value, outcome = .resolved value → d.Enlisted)
    (htake : pending.opcode = 8 → pending.parse = Client.takenParser → ∀ taken, outcome = .resolved taken →
      d.Hands (.promise pending.promise) taken)
    (haccepted : ∀ code message, outcome = .rejected (.broker code message) →
      pending.opcode ≠ 8 ∧ pending.opcode ≠ 9) : d.Bench { s with child := child' } := by
  have hprefix : s.child.sent <+: child'.sent := hsent ▸ List.prefix_rfl
  have hmem : ∀ promise outcome', (promise, outcome') ∈ child'.settled →
      (promise, outcome') ∈ s.child.settled ∨ promise = pending.promise ∧ outcome' = outcome := by
    intro promise outcome' hmem
    rw [hsettled] at hmem
    exact (List.mem_append.mp hmem).imp_right fun hnew => Prod.mk.inj (List.mem_singleton.mp hnew)
  exact { h with
    registering := fun promise hphase => by
      obtain ⟨hasked', henlisted⟩ := h.registering promise hphase
      refine ⟨hasked'.mono hprefix, fun value hvalue => ?_⟩
      obtain hold | ⟨rfl, houtcome⟩ := hmem promise _ hvalue
      · exact henlisted value hold
      · exact hregister (hasked.unique hasked').1 value houtcome.symm
    slots := fun i slot hslot => by
      have hseats := h.slots i slot hslot
      cases slot with
      | taking promise =>
          refine ⟨hseats.1.mono hprefix, fun taken htaken => ?_⟩
          obtain hold | ⟨rfl, houtcome⟩ := hmem promise _ htaken
          · exact hseats.2 taken hold
          · obtain ⟨hopcode, hparse⟩ := hasked.unique hseats.1
            exact htake hopcode hparse taken houtcome.symm
      | completing promise => exact Asked.mono hseats hprefix
      | _ => exact hseats
    accepted := fun promise code message hrejected opcode parse hasked' => by
      have hbefore : Asked s.child promise opcode parse := by
        unfold Asked at hasked' ⊢
        rw [hsent] at hasked'
        exact hasked'
      obtain hold | ⟨rfl, houtcome⟩ := hmem promise _ hrejected
      · exact h.accepted promise code message hold opcode parse hbefore
      · rw [← (hasked.unique hbefore).1]
        exact haccepted code message houtcome.symm
    reason := fun hkept => by
      dsimp only at hkept ⊢
      rw [hclosed] at hkept
      rw [hreason]
      exact h.reason hkept }

end Desk

end VeloBus.Station
