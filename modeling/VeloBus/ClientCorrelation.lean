import Mathlib.Data.List.Nodup
import Mathlib.Logic.Function.Iterate
import VeloBus.ClientModel

/-! Requests and responses of one client are matched: identifiers are unused when they are given out, a
promise is settled once, with the response to its own request, and a client that fails leaves no promise
behind. The ledger compares the promises given out with those that wait and those that were settled; every
operation keeps it. -/

namespace VeloBus.Client

open Codec

variable {ρ : Type}

/-! ### The search for an identifier -/

theorem nextId_iterate {id : Nat} (hlow : 1 ≤ id) (hhigh : id ≤ 0xffffffff) (k : Nat) :
    nextId^[k] id = (id - 1 + k) % 0xffffffff + 1 := by
  induction k with
  | zero =>
      rw [Function.iterate_zero, id_eq]
      omega
  | succ k ih =>
      rw [Function.iterate_succ_apply', ih, nextId]
      split_ifs <;> omega

theorem searchId_none {pending : Table Nat (Pending ρ)} {rounds id : Nat}
    (h : searchId pending rounds id = none) : ∀ k < rounds, nextId^[k] id ∈ pending.keys := by
  induction rounds generalizing id with
  | zero =>
      intro k hk
      exact absurd hk (Nat.not_lt_zero k)
  | succ rounds ih =>
      rw [searchId] at h
      split_ifs at h with htaken
      intro k hk
      cases k with
      | zero => exact htaken
      | succ k =>
          rw [Function.iterate_succ_apply]
          exact ih h k (Nat.lt_of_succ_lt_succ hk)

theorem searchId_some {pending : Table Nat (Pending ρ)} {rounds id free : Nat} (hlow : 1 ≤ id)
    (hhigh : id ≤ 0xffffffff) (h : searchId pending rounds id = some free) :
    free ∉ pending.keys ∧ 1 ≤ free ∧ free ≤ 0xffffffff := by
  induction rounds generalizing id with
  | zero => cases h
  | succ rounds ih =>
      rw [searchId] at h
      split_ifs at h with htaken
      · apply ih _ _ h <;> unfold nextId <;> split_ifs <;> omega
      · rw [← Option.some.inj h]
        exact ⟨htaken, hlow, hhigh⟩

/-- **The search ends.** Every round of it looks at another identifier, and there are more of them than
requests can wait. -/
theorem searchId_ends {pending : Table Nat (Pending ρ)} (hsize : pending.size < 0xffffffff) {id : Nat}
    (hlow : 1 ≤ id) (hhigh : id ≤ 0xffffffff) :
    ∃ free, searchId pending (pending.size + 1) id = some free := by
  cases hsearch : searchId pending (pending.size + 1) id with
  | some free => exact ⟨free, rfl⟩
  | none =>
      have hmem := searchId_none hsearch
      have hnodup : ((List.range (pending.size + 1)).map fun k => nextId^[k] id).Nodup := by
        apply List.Nodup.map_on _ List.nodup_range
        intro j hj k hk heq
        rw [List.mem_range] at hj hk
        rw [nextId_iterate hlow hhigh, nextId_iterate hlow hhigh] at heq
        omega
      have hsub : ((List.range (pending.size + 1)).map fun k => nextId^[k] id) ⊆ pending.keys := by
        intro taken htaken
        obtain ⟨k, hk, rfl⟩ := List.mem_map.mp htaken
        exact hmem k (List.mem_range.mp hk)
      have hlength := (List.subperm_of_subset hnodup hsub).length_le
      rw [List.length_map, List.length_range, AList.keys, List.keys, List.length_map] at hlength
      exact absurd hlength (Nat.not_succ_le_self _)

/-! ### The ledger of promises -/

theorem getElem?_of_isPrefix {α : Type} {l l' : List α} (h : l <+: l') {i : Nat} {a : α}
    (hget : l[i]? = some a) : l'[i]? = some a := by
  obtain ⟨later, rfl⟩ := h
  rwa [List.getElem?_append_left (List.getElem?_eq_some_iff.mp hget).1]

/-- The frame that settled a promise: it came after the request, with the request's identifier. -/
def State.Answered (s : State ρ) (promise : Nat) (answer : Nat → Parser ρ → Bytes → Prop) : Prop :=
  ∃ id opcode parse since frame, s.sent[promise]? = some ⟨some id, opcode, parse, since⟩ ∧
    frame ∈ s.received.drop since ∧ frameId frame = id ∧ answer opcode parse frame

/-- What stands behind a settlement. -/
def State.Truthful (s : State ρ) (promise : Nat) : Settlement ρ → Prop
  | .resolved value => s.Answered promise fun opcode parse frame =>
    frameOpcode frame = opcode ||| 0x80 ∧ parse.run (frame.drop 5) = .ok value
  | .rejected (.broker code message) => s.Answered promise fun _ _ frame =>
    frameOpcode frame = 0xff ∧ parseError (frame.drop 5) = .ok (.broker code message)
  | .rejected _ => True

structure State.Ledger (s : State ρ) : Prop where
  known : ∀ id pending, s.pending.lookup id = some pending → 1 ≤ id ∧ id ≤ 0xffffffff ∧
    ∃ since, since ≤ s.received.length ∧
      s.sent[pending.promise]? = some ⟨some id, pending.opcode, pending.parse, since⟩
  once : (s.settled.map Prod.fst).Nodup
  issued : ∀ promise ∈ s.settled.map Prod.fst, promise < s.sent.length
  waiting : ∀ id pending, s.pending.lookup id = some pending → pending.promise ∉ s.settled.map Prod.fst
  outstanding : ∀ promise < s.sent.length, promise ∈ s.settled.map Prod.fst ∨
    ∃ id pending, s.pending.lookup id = some pending ∧ pending.promise = promise
  truthful : ∀ promise outcome, (promise, outcome) ∈ s.settled → s.Truthful promise outcome

namespace State

variable {s t : State ρ}

theorem Answered.mono {promise : Nat} {answer : Nat → Parser ρ → Bytes → Prop} (h : s.Answered promise answer)
    (hsent : s.sent <+: t.sent) (hreceived : s.received <+: t.received) : t.Answered promise answer := by
  obtain ⟨id, opcode, parse, since, frame, hget, hframe, hid, hanswer⟩ := h
  refine ⟨id, opcode, parse, since, frame, getElem?_of_isPrefix hsent hget, ?_, hid, hanswer⟩
  obtain ⟨later, hlater⟩ := hreceived
  rw [← hlater, List.drop_append]
  exact List.mem_append_left _ hframe

theorem Truthful.mono {promise : Nat} {outcome : Settlement ρ} (h : s.Truthful promise outcome)
    (hsent : s.sent <+: t.sent) (hreceived : s.received <+: t.received) : t.Truthful promise outcome := by
  cases outcome with
  | resolved value => exact Answered.mono h hsent hreceived
  | rejected reason =>
      cases reason with
      | broker code message => exact Answered.mono h hsent hreceived
      | _ => trivial

theorem truthful_rejected {promise : Nat} {reason : Failure}
    (h : ∀ code message, reason ≠ .broker code message) : s.Truthful promise (.rejected reason) := by
  cases reason with
  | broker code message => exact absurd rfl (h code message)
  | _ => trivial

/-- Two requests that wait belong to two promises. -/
theorem Ledger.same_id (h : s.Ledger) {id id' : Nat} {pending pending' : Pending ρ}
    (hlookup : s.pending.lookup id = some pending) (hlookup' : s.pending.lookup id' = some pending')
    (heq : pending.promise = pending'.promise) : id = id' := by
  obtain ⟨-, -, since, -, hget⟩ := h.known id pending hlookup
  obtain ⟨-, -, since', -, hget'⟩ := h.known id' pending' hlookup'
  rw [heq, hget'] at hget
  exact (Option.some.inj (congrArg Sent.id (Option.some.inj hget))).symm

theorem Ledger.promises_nodup (h : s.Ledger) : (s.pending.entries.map fun e => e.2.promise).Nodup := by
  apply List.Nodup.map_on _ s.pending.nodupKeys.nodup
  intro e he e' he' heq
  have hlookup := Table.mem_entries_iff.mp he
  have hlookup' := Table.mem_entries_iff.mp he'
  have hid := h.same_id hlookup hlookup' heq
  rw [hid, hlookup'] at hlookup
  exact Sigma.ext hid (heq_of_eq (Option.some.inj hlookup).symm)

theorem Ledger.of_same (h : s.Ledger) (hpending : t.pending = s.pending) (hsent : t.sent = s.sent)
    (hsettled : t.settled = s.settled) (hreceived : s.received <+: t.received) : t.Ledger where
  known id pending hlookup := by
    rw [hpending] at hlookup
    obtain ⟨hlow, hhigh, since, hsince, hget⟩ := h.known id pending hlookup
    rw [hsent]
    exact ⟨hlow, hhigh, since, hsince.trans hreceived.length_le, hget⟩
  once := hsettled ▸ h.once
  issued := by
    rw [hsettled, hsent]
    exact h.issued
  waiting := by
    rw [hsettled, hpending]
    exact h.waiting
  outstanding := by
    rw [hsettled, hpending, hsent]
    exact h.outstanding
  truthful promise outcome hmem := by
    rw [hsettled] at hmem
    exact (h.truthful promise outcome hmem).mono (hsent ▸ List.prefix_rfl) hreceived

theorem Ledger.fail (h : s.Ledger) {reason : Failure}
    (hreason : ∀ code message, reason = .broker code message → s.pending = ∅) : (s.fail reason).Ledger := by
  unfold State.fail
  split_ifs with hclosed
  · exact h
  have hfirst : (s.pending.entries.map fun e => (e.2.promise, Settlement.rejected (ρ := ρ) reason)).map Prod.fst =
      s.pending.entries.map fun e => e.2.promise := by
    rw [List.map_map]
    rfl
  have hpromise : ∀ promise ∈ s.pending.entries.map fun e => e.2.promise,
      ∃ id pending, s.pending.lookup id = some pending ∧ pending.promise = promise := by
    intro promise hmem
    obtain ⟨e, he, heq⟩ := List.mem_map.mp hmem
    exact ⟨e.1, e.2, Table.mem_entries_iff.mp he, heq⟩
  refine ⟨nofun, ?_, ?_, nofun, ?_, ?_⟩
  · rw [List.map_append, hfirst]
    apply h.once.append h.promises_nodup
    intro promise hsettled hmem
    obtain ⟨id, pending, hlookup, rfl⟩ := hpromise promise hmem
    exact h.waiting id pending hlookup hsettled
  · intro promise hmem
    rw [List.map_append, hfirst, List.mem_append] at hmem
    rcases hmem with hold | hnew
    · exact h.issued promise hold
    · obtain ⟨id, pending, hlookup, rfl⟩ := hpromise promise hnew
      obtain ⟨-, -, since, -, hget⟩ := h.known id pending hlookup
      exact (List.getElem?_eq_some_iff.mp hget).1
  · intro promise hlt
    left
    rw [List.map_append, hfirst, List.mem_append]
    apply (h.outstanding promise hlt).imp_right
    intro hwaits
    obtain ⟨id, pending, hlookup, rfl⟩ := hwaits
    exact List.mem_map_of_mem (f := fun e : (_ : Nat) × Pending ρ => e.2.promise)
      (Table.mem_entries_iff (e := ⟨id, pending⟩).mpr hlookup)
  · intro promise outcome hmem
    rw [List.mem_append] at hmem
    rcases hmem with hold | hnew
    · exact (h.truthful promise outcome hold).mono List.prefix_rfl List.prefix_rfl
    · obtain ⟨e, he, heq⟩ := List.mem_map.mp hnew
      obtain ⟨rfl, rfl⟩ := Prod.mk.inj heq
      apply truthful_rejected
      intro code message hbroker
      rw [hreason code message hbroker] at he
      exact List.not_mem_nil he

theorem Ledger.reject (h : s.Ledger) {opcode : Nat} {parse : Parser ρ} {reason : Failure}
    (hreason : ∀ code message, reason ≠ .broker code message) : (s.reject opcode parse reason).Ledger where
  known id pending hlookup := by
    obtain ⟨hlow, hhigh, since, hsince, hget⟩ := h.known id pending hlookup
    exact ⟨hlow, hhigh, since, hsince, getElem?_of_isPrefix (List.prefix_append _ _) hget⟩
  once := by
    rw [State.reject, List.map_append]
    apply h.once.append (List.nodup_singleton _)
    intro promise hsettled hmem
    rw [List.mem_singleton.mp hmem] at hsettled
    exact absurd (h.issued _ hsettled) (lt_irrefl _)
  issued promise hmem := by
    rw [State.reject, List.map_append, List.mem_append] at hmem
    rw [State.reject, List.length_append, List.length_singleton, Nat.lt_succ_iff]
    rcases hmem with hold | hnew
    · exact (h.issued promise hold).le
    · exact (List.mem_singleton.mp hnew).le
  waiting id pending hlookup hmem := by
    rw [State.reject, List.map_append, List.mem_append] at hmem
    rcases hmem with hold | hnew
    · exact h.waiting id pending hlookup hold
    · obtain ⟨-, -, since, -, hget⟩ := h.known id pending hlookup
      rw [List.mem_singleton.mp hnew, List.getElem?_eq_none le_rfl] at hget
      cases hget
  outstanding promise hlt := by
    rw [State.reject, List.length_append, List.length_singleton, Nat.lt_succ_iff] at hlt
    rw [State.reject, List.map_append, List.mem_append]
    rcases hlt.lt_or_eq with hold | rfl
    · exact (h.outstanding promise hold).imp_left Or.inl
    · exact Or.inl (Or.inr List.mem_cons_self)
  truthful promise outcome hmem := by
    rw [State.reject, List.mem_append] at hmem
    rcases hmem with hold | hnew
    · exact (h.truthful promise outcome hold).mono (List.prefix_append _ _) List.prefix_rfl
    · obtain ⟨rfl, rfl⟩ := Prod.mk.inj (List.mem_singleton.mp hnew)
      exact truthful_rejected hreason

theorem Ledger.issue (h : s.Ledger) {id opcode : Nat} {parse : Parser ρ} (hfree : id ∉ s.pending.keys)
    (hlow : 1 ≤ id) (hhigh : id ≤ 0xffffffff)
    (hpending : t.pending = s.pending.insert id ⟨s.sent.length, opcode, parse⟩)
    (hsent : t.sent = s.sent ++ [⟨some id, opcode, parse, s.received.length⟩])
    (hsettled : t.settled = s.settled) (hreceived : t.received = s.received) : t.Ledger where
  known id' pending hlookup := by
    rw [hpending, Table.lookup_insert_ite] at hlookup
    rw [hsent, hreceived]
    split_ifs at hlookup with heq
    · rw [heq, ← Option.some.inj hlookup]
      refine ⟨hlow, hhigh, _, le_rfl, ?_⟩
      rw [List.getElem?_append_right le_rfl, Nat.sub_self, List.getElem?_cons_zero]
    · obtain ⟨hlow', hhigh', since, hsince, hget⟩ := h.known id' pending hlookup
      exact ⟨hlow', hhigh', since, hsince, getElem?_of_isPrefix (List.prefix_append _ _) hget⟩
  once := hsettled ▸ h.once
  issued promise hmem := by
    rw [hsettled] at hmem
    rw [hsent, List.length_append]
    exact (h.issued promise hmem).trans_le (Nat.le_add_right _ _)
  waiting id' pending hlookup hmem := by
    rw [hpending, Table.lookup_insert_ite] at hlookup
    rw [hsettled] at hmem
    split_ifs at hlookup with heq
    · rw [← Option.some.inj hlookup] at hmem
      exact absurd (h.issued _ hmem) (lt_irrefl _)
    · exact h.waiting id' pending hlookup hmem
  outstanding promise hlt := by
    rw [hsent, List.length_append, List.length_singleton, Nat.lt_succ_iff] at hlt
    rw [hsettled]
    rcases hlt.lt_or_eq with hold | rfl
    · apply (h.outstanding promise hold).imp_right
      intro hwaits
      obtain ⟨id', pending, hlookup, hpromise⟩ := hwaits
      refine ⟨id', pending, ?_, hpromise⟩
      rw [hpending, Table.lookup_insert_ite, if_neg]
      · exact hlookup
      · intro heq
        rw [heq, AList.lookup_eq_none.mpr hfree] at hlookup
        cases hlookup
    · right
      refine ⟨id, ⟨s.sent.length, opcode, parse⟩, ?_, rfl⟩
      rw [hpending, Table.lookup_insert_ite, if_pos rfl]
  truthful promise outcome hmem := by
    rw [hsettled] at hmem
    exact (h.truthful promise outcome hmem).mono (hsent ▸ List.prefix_append _ _) (hreceived ▸ List.prefix_rfl)

theorem Ledger.settle (h : s.Ledger) {id : Nat} {pending : Pending ρ}
    (hlookup : s.pending.lookup id = some pending) {outcome : Settlement ρ}
    (htruthful : s.Truthful pending.promise outcome) : (s.settle id pending outcome).Ledger where
  known id' pending' hlookup' := by
    rw [State.settle, Table.lookup_erase_ite] at hlookup'
    split_ifs at hlookup'
    exact h.known id' pending' hlookup'
  once := by
    rw [State.settle, List.map_append]
    apply h.once.append (List.nodup_singleton _)
    intro promise hsettled hmem
    rw [List.mem_singleton.mp hmem] at hsettled
    exact h.waiting id pending hlookup hsettled
  issued promise hmem := by
    rw [State.settle, List.map_append, List.mem_append] at hmem
    rcases hmem with hold | hnew
    · exact h.issued promise hold
    · obtain ⟨-, -, since, -, hget⟩ := h.known id pending hlookup
      rw [List.mem_singleton.mp hnew]
      exact (List.getElem?_eq_some_iff.mp hget).1
  waiting id' pending' hlookup' hmem := by
    rw [State.settle, Table.lookup_erase_ite] at hlookup'
    rw [State.settle, List.map_append, List.mem_append] at hmem
    split_ifs at hlookup' with hne
    rcases hmem with hold | hnew
    · exact h.waiting id' pending' hlookup' hold
    · exact hne (h.same_id hlookup' hlookup (List.mem_singleton.mp hnew))
  outstanding promise hlt := by
    rw [State.settle, List.map_append, List.mem_append]
    rcases h.outstanding promise hlt with hold | ⟨id', pending', hlookup', rfl⟩
    · exact Or.inl (Or.inl hold)
    · by_cases heq : id' = id
      · rw [heq, hlookup] at hlookup'
        rw [← Option.some.inj hlookup']
        exact Or.inl (Or.inr List.mem_cons_self)
      · right
        refine ⟨id', pending', ?_, rfl⟩
        rw [Table.lookup_erase_ite, if_neg heq]
        exact hlookup'
  truthful promise outcome' hmem := by
    rw [State.settle, List.mem_append] at hmem
    rcases hmem with hold | hnew
    · exact (h.truthful promise outcome' hold).mono List.prefix_rfl List.prefix_rfl
    · obtain ⟨rfl, rfl⟩ := Prod.mk.inj (List.mem_singleton.mp hnew)
      exact htruthful.mono List.prefix_rfl List.prefix_rfl

end State

/-! ### The invariant -/

structure State.Inv (s : State ρ) : Prop extends s.Ledger where
  limit : 1 ≤ s.settings.maxPendingRequests ∧ s.settings.maxPendingRequests ≤ 256
  next : 1 ≤ s.nextRequestId ∧ s.nextRequestId ≤ 0xffffffff
  bounded : s.pending.size ≤ s.settings.maxPendingRequests
  quiet : s.closed = true → s.pending = ∅ ∧ s.writeQueue = []
  reason : ∀ code message, s.closeReason = .broker code message → s.stage = .refused ∧ s.closed = true
  young : s.stage = .connecting ∨ s.stage = .connected → s.sent = []
  greeting : ∀ promise, s.stage = .greeting promise → promise = 0 ∧ s.sent.length ≤ 1

namespace State

variable {s t : State ρ}

theorem new_inv {options : ConnectOptions} {checked : Settings} (h : Client.settings options = .ok checked) :
    (new checked : State ρ).Inv where
  known := nofun
  once := List.nodup_nil
  issued := nofun
  waiting := nofun
  outstanding := nofun
  truthful := nofun
  limit := (settings_ok h).maxPendingRequests.2
  next := ⟨le_rfl, Nat.le_of_ble_eq_true rfl⟩
  bounded := Nat.zero_le _
  quiet := nofun
  reason := nofun
  young _ := rfl
  greeting := nofun

theorem Inv.fail (h : s.Inv) {reason : Failure} (hreason : ∀ code message, reason ≠ .broker code message) :
    (s.fail reason).Inv := by
  have hledger := h.toLedger.fail fun code message heq => absurd heq (hreason code message)
  unfold State.fail at hledger ⊢
  split_ifs at hledger ⊢ with hclosed
  · exact h
  · exact { h with
      toLedger := hledger
      bounded := Nat.zero_le _
      quiet := fun _ => ⟨rfl, rfl⟩
      reason := fun code message heq => absurd heq (hreason code message) }

theorem eq_empty_of_lookup {κ α : Type} [DecidableEq κ] {t : Table κ α} (h : ∀ k, t.lookup k = none) :
    t = ∅ := by
  apply AList.ext
  cases hentries : t.entries with
  | nil => rfl
  | cons e es =>
      have hsome := Table.mem_entries_iff.mp (hentries ▸ List.mem_cons_self : e ∈ t.entries)
      rw [h] at hsome
      cases hsome

/-- While `open` waits, HELLO is the only request. -/
theorem Inv.alone (h : s.Inv) {promise : Nat} (hstage : s.stage = .greeting promise)
    (hsettled : promise ∈ s.settled.map Prod.fst) : s.pending = ∅ := by
  apply eq_empty_of_lookup
  intro id
  by_contra hne
  obtain ⟨pending, hlookup⟩ := Option.ne_none_iff_exists'.mp hne
  obtain ⟨rfl, hlength⟩ := h.greeting promise hstage
  obtain ⟨-, -, since, -, hget⟩ := h.known id pending hlookup
  have hlt := (List.getElem?_eq_some_iff.mp hget).1.trans_le hlength
  rw [Nat.lt_one_iff] at hlt
  exact h.waiting id pending hlookup (hlt ▸ hsettled)

theorem Inv.refused (h : s.Inv) {promise : Nat} {reason : Failure} (hstage : s.stage = .greeting promise)
    (hsettled : (promise, .rejected reason) ∈ s.settled) : { s.fail reason with stage := .refused }.Inv := by
  have hempty := h.alone hstage (List.mem_map_of_mem hsettled)
  have hledger : (s.fail reason).Ledger := h.toLedger.fail fun _ _ _ => hempty
  unfold State.fail at hledger ⊢
  split_ifs at hledger ⊢ with hclosed
  · exact { h with
      reason := fun _ _ _ => ⟨rfl, hclosed⟩
      young := nofun
      greeting := nofun }
  · exact { h with
      toLedger := { hledger with }
      bounded := Nat.zero_le _
      quiet := fun _ => ⟨rfl, rfl⟩
      reason := fun _ _ _ => ⟨rfl, rfl⟩
      young := nofun
      greeting := nofun }

/-- What the loop of `flush` does to a queue: it hands a start of it to the socket, and a failing socket
closes the client. -/
theorem flushQueue_cases (socket : Socket) (queue : List Bytes) (s : State ρ) :
    ∃ given rest blocked, queue = given ++ rest ∧
      (s.flushQueue socket queue =
          { s with writeQueue := rest, written := s.written ++ given, blocked := blocked } ∨
        s.closed = false ∧ ∃ frame later message, rest = frame :: later ∧ s.flushQueue socket queue =
          State.fail (.other message)
            { s with writeQueue := later, written := s.written ++ given, blocked := blocked }) := by
  induction queue generalizing s with
  | nil =>
      refine ⟨[], [], s.blocked, rfl, Or.inl ?_⟩
      rw [List.append_nil]
      rfl
  | cons frame queue ih =>
      unfold State.flushQueue
      split_ifs with hstop
      · refine ⟨[], frame :: queue, s.blocked, rfl, Or.inl ?_⟩
        rw [List.append_nil]
      have hopen : s.closed = false := Bool.not_eq_true _ ▸ (not_or.mp hstop).1
      cases socket s.written with
      | accepted =>
          obtain ⟨given, rest, blocked, rfl, hresult⟩ := ih { s with written := s.written ++ [frame] }
          refine ⟨frame :: given, rest, blocked, rfl, ?_⟩
          rw [List.append_cons s.written frame given]
          exact hresult
      | full =>
          obtain ⟨given, rest, blocked, rfl, hresult⟩ :=
            ih { s with written := s.written ++ [frame], blocked := true }
          refine ⟨frame :: given, rest, blocked, rfl, ?_⟩
          rw [List.append_cons s.written frame given]
          exact hresult
      | threw message =>
          refine ⟨[], frame :: queue, s.blocked, rfl, Or.inr ⟨hopen, frame, queue, message, rfl, ?_⟩⟩
          rw [List.append_nil]

theorem Inv.flush (h : s.Inv) (socket : Socket) : (s.flush socket).Inv := by
  obtain ⟨given, rest, blocked, hqueue, hresult⟩ := flushQueue_cases socket s.writeQueue s
  unfold State.flush
  rcases hresult with hresult | ⟨hopen, frame, later, message, -, hresult⟩
  · rw [hresult]
    exact { h with
      toLedger := h.toLedger.of_same rfl rfl rfl List.prefix_rfl
      quiet := fun hclosed => by
        rw [(h.quiet hclosed).2] at hqueue
        exact ⟨(h.quiet hclosed).1, (List.append_eq_nil_iff.mp hqueue.symm).2⟩ }
  · rw [hresult]
    refine Inv.fail (s := { s with writeQueue := later, written := s.written ++ given, blocked := blocked })
      { h with
        toLedger := h.toLedger.of_same rfl rfl rfl List.prefix_rfl
        quiet := fun hclosed => ?_ } fun _ _ => Failure.noConfusion
    rw [hopen] at hclosed
    cases hclosed

/-- The stages in which something is sent. -/
def Sending (s : State ρ) : Prop := s.stage = .opened ∨ ∃ promise, s.stage = .greeting promise ∧ s.sent = []

theorem Sending.not_young (h : s.Sending) : ¬(s.stage = .connecting ∨ s.stage = .connected) := by
  rcases h with hstage | ⟨promise, hstage, -⟩ <;> rw [hstage] <;> simp

theorem Sending.not_refused (h : s.Sending) : s.stage ≠ .refused := by
  rcases h with hstage | ⟨promise, hstage, -⟩ <;> rw [hstage] <;> exact nofun

theorem Sending.short (h : s.Sending) {promise : Nat} (hstage : s.stage = .greeting promise) : s.sent = [] := by
  rcases h with hopened | ⟨_, -, hsent⟩
  · rw [hstage] at hopened
    cases hopened
  · exact hsent

theorem Inv.reject (h : s.Inv) (hs : s.Sending) {opcode : Nat} {parse : Parser ρ} {reason : Failure}
    (hreason : ∀ code message, reason ≠ .broker code message) : (s.reject opcode parse reason).Inv :=
  { h with
    toLedger := h.toLedger.reject hreason
    young := fun hyoung => absurd hyoung hs.not_young
    greeting := fun promise hstage => by
      refine ⟨(h.greeting promise hstage).1, ?_⟩
      rw [State.reject, hs.short hstage]
      exact le_rfl }

theorem ensureCapacity_error (h : s.Inv) (hs : s.Sending) {failure : Failure}
    (hfull : s.ensureCapacity = .error failure) : ∀ code message, failure ≠ .broker code message := by
  unfold State.ensureCapacity at hfull
  intro code message heq
  rw [heq] at hfull
  split_ifs at hfull
  · exact hs.not_refused (h.reason code message (Except.error.inj hfull)).1
  · cases hfull

theorem ensureCapacity_ok (hroom : s.ensureCapacity = .ok ()) :
    s.closed = false ∧ s.pending.size < s.settings.maxPendingRequests := by
  unfold State.ensureCapacity at hroom
  split_ifs at hroom with hclosed hfull
  exact ⟨Bool.not_eq_true _ ▸ hclosed, not_le.mp hfull⟩

theorem envelope_error {opcode id : Nat} {body : Bytes} {failure : Failure}
    (h : envelope opcode id body = .error failure) : ∀ code message, failure ≠ .broker code message := by
  unfold envelope at h
  split_ifs at h
  rw [← Except.error.inj h]
  exact fun _ _ => Failure.noConfusion

theorem nextId_range {id : Nat} (hhigh : id ≤ 0xffffffff) : 1 ≤ nextId id ∧ nextId id ≤ 0xffffffff := by
  unfold nextId
  split_ifs <;> omega

theorem Inv.send (h : s.Inv) (hs : s.Sending) {socket : Socket} {opcode : Nat} {body : Bytes} {parse : Parser ρ}
    (hsend : s.send socket opcode body parse = some t) : t.Inv := by
  unfold State.send at hsend
  cases hroom : s.ensureCapacity with
  | error failure =>
      rw [hroom] at hsend
      rw [← Option.some.inj hsend]
      exact h.reject hs (ensureCapacity_error h hs hroom)
  | ok value =>
      rw [hroom] at hsend
      obtain ⟨hopen, hsize⟩ := ensureCapacity_ok hroom
      cases hsearch : searchId s.pending (s.pending.size + 1) s.nextRequestId with
      | none =>
          simp only [hsearch] at hsend
          cases hsend
      | some id =>
          obtain ⟨hfree, hlow, hhigh⟩ := searchId_some h.next.1 h.next.2 hsearch
          cases hframe : envelope opcode id body with
          | error failure =>
              simp only [hsearch, hframe] at hsend
              rw [← Option.some.inj hsend]
              exact Inv.reject (s := { s with nextRequestId := nextId id }) { h with
                toLedger := h.toLedger.of_same rfl rfl rfl List.prefix_rfl
                next := nextId_range hhigh } hs (envelope_error hframe)
          | ok frame =>
              simp only [hsearch, hframe] at hsend
              rw [← Option.some.inj hsend]
              apply Inv.flush
              exact { h with
                toLedger := h.toLedger.issue hfree hlow hhigh rfl rfl rfl rfl
                next := nextId_range hhigh
                bounded := by
                  rw [Table.size_insert (AList.lookup_eq_none.mpr hfree)]
                  exact hsize
                quiet := fun hclosed => absurd (hopen.symm.trans hclosed) Bool.false_ne_true
                young := fun hyoung => absurd hyoung hs.not_young
                greeting := fun promise hstage => by
                  refine ⟨(h.greeting promise hstage).1, ?_⟩
                  rw [hs.short hstage]
                  exact le_rfl }

end State

/-! ### Responses -/

/-- The response to a waiting request, and what it makes of its promise. -/
def State.Answers (s : State ρ) (frame : Bytes) (pending : Pending ρ) (outcome : Settlement ρ) : Prop :=
  s.pending.lookup (frameId frame) = some pending ∧
    ((frameOpcode frame = 0xff ∧ ∃ reason, parseError (frame.drop 5) = .ok reason ∧ outcome = .rejected reason) ∨
      (frameOpcode frame ≠ 0xff ∧ frameOpcode frame = pending.opcode ||| 0x80 ∧
        ∃ value, pending.parse.run (frame.drop 5) = .ok value ∧ outcome = .resolved value))

theorem parseError_ok {body : Bytes} {reason : Failure} (h : parseError body = .ok reason) :
    ∃ code message, reason = .broker code message ∧ 1 ≤ code ∧ code ≤ 12 := by
  simp only [parseError, bind_eq_ok, pure_eq_ok, check_eq_ok, not_or, not_lt] at h
  obtain ⟨code, -, message, -, -, -, hcode, rfl⟩ := h
  exact ⟨_, _, rfl, hcode.1, hcode.2⟩

theorem map_eq_ok {α β : Type} {f : α → β} {x : Except Failure α} {b : β} :
    x.map f = .ok b ↔ ∃ a, x = .ok a ∧ f a = b := by
  cases x with
  | ok a => exact ⟨fun h => ⟨a, rfl, Except.ok.inj h⟩, fun ⟨a', ha, hb⟩ => by rw [Except.ok.inj ha, ← hb]; rfl⟩
  | error failure => exact ⟨nofun, nofun⟩

theorem Protocol.map {α β : Type} {x : Except Failure α} (h : Protocol x) (f : α → β) : Protocol (x.map f) := by
  cases x with
  | ok a => exact .ok _
  | error failure =>
      obtain ⟨message, rfl⟩ := h failure rfl
      exact .error message

namespace State

variable {s t : State ρ}

theorem receive_unknown {frame : Bytes} (h : s.pending.lookup (frameId frame) = none) :
    s.receive frame = .error (.protocol "Response has an unknown request ID") := by
  unfold receive
  simp only [h]

theorem receive_known {frame : Bytes} {pending : Pending ρ} (h : s.pending.lookup (frameId frame) = some pending) :
    s.receive frame =
      if frameId frame = 0 then .error (.protocol "Response has an unknown request ID")
      else if frameOpcode frame ≠ 0xff ∧ frameOpcode frame ≠ pending.opcode ||| 0x80 then
        .error (.protocol "Response opcode does not match request")
      else if frameOpcode frame = 0xff then
        (parseError (frame.drop 5)).map fun reason => s.settle (frameId frame) pending (.rejected reason)
      else (pending.parse.run (frame.drop 5)).map fun value =>
        s.settle (frameId frame) pending (.resolved value) := by
  unfold receive
  simp only [h]

theorem receive_protocol (frame : Bytes) (s : State ρ) : Protocol (s.receive frame) := by
  cases hlookup : s.pending.lookup (frameId frame) with
  | none =>
      rw [receive_unknown hlookup]
      exact .error _
  | some pending =>
      rw [receive_known hlookup]
      exact .ite (.error _) (.ite (.error _)
        (.ite ((parseError_protocol _).map _) ((pending.parse.protocol _).map _)))

theorem receive_eq_ok {frame : Bytes} (hzero : s.pending.lookup 0 = none) :
    s.receive frame = .ok t ↔ ∃ pending outcome, s.Answers frame pending outcome ∧
      t = s.settle (frameId frame) pending outcome := by
  cases hlookup : s.pending.lookup (frameId frame) with
  | none =>
      rw [receive_unknown hlookup]
      refine ⟨nofun, fun h => ?_⟩
      obtain ⟨pending, outcome, ⟨hsome, -⟩, -⟩ := h
      rw [hlookup] at hsome
      cases hsome
  | some pending =>
      have hid : frameId frame ≠ 0 := by
        intro h
        rw [h, hzero] at hlookup
        cases hlookup
      rw [receive_known hlookup, if_neg hid]
      constructor
      · intro h
        by_cases herror : frameOpcode frame = 0xff
        · rw [if_neg (fun h => h.1 herror), if_pos herror] at h
          obtain ⟨reason, hparse, rfl⟩ := map_eq_ok.mp h
          exact ⟨pending, _, ⟨hlookup, Or.inl ⟨herror, reason, hparse, rfl⟩⟩, rfl⟩
        · split_ifs at h with hopcode
          obtain ⟨value, hparse, rfl⟩ := map_eq_ok.mp h
          have hmatch : frameOpcode frame = pending.opcode ||| 0x80 := by
            by_contra hne
            exact hopcode ⟨herror, hne⟩
          exact ⟨pending, _, ⟨hlookup, Or.inr ⟨herror, hmatch, value, hparse, rfl⟩⟩, rfl⟩
      · intro h
        obtain ⟨pending', outcome, ⟨hsame, hcases⟩, rfl⟩ := h
        obtain rfl := Option.some.inj (hlookup.symm.trans hsame)
        rcases hcases with ⟨herror, reason, hparse, rfl⟩ | ⟨herror, hmatch, value, hparse, rfl⟩
        · rw [if_neg (fun h => h.1 herror), if_pos herror]
          exact map_eq_ok.mpr ⟨reason, hparse, rfl⟩
        · rw [if_neg (fun h => h.2 hmatch), if_neg herror]
          exact map_eq_ok.mpr ⟨value, hparse, rfl⟩

theorem Answers.unique {frame : Bytes} {pending pending' : Pending ρ} {outcome outcome' : Settlement ρ}
    (h : s.Answers frame pending outcome) (h' : s.Answers frame pending' outcome') :
    pending = pending' ∧ outcome = outcome' := by
  obtain ⟨hlookup, hcases⟩ := h
  obtain ⟨hlookup', hcases'⟩ := h'
  obtain rfl := Option.some.inj (hlookup.symm.trans hlookup')
  refine ⟨rfl, ?_⟩
  rcases hcases with ⟨herror, reason, hparse, rfl⟩ | ⟨herror, -, value, hparse, rfl⟩ <;>
    rcases hcases' with ⟨herror', reason', hparse', rfl⟩ | ⟨herror', -, value', hparse', rfl⟩
  · rw [Except.ok.inj (hparse.symm.trans hparse')]
  · exact absurd herror herror'
  · exact absurd herror' herror
  · rw [Except.ok.inj (hparse.symm.trans hparse')]

theorem Ledger.zero (h : s.Ledger) : s.pending.lookup 0 = none := by
  by_contra hne
  obtain ⟨pending, hlookup⟩ := Option.ne_none_iff_exists'.mp hne
  exact absurd (h.known 0 pending hlookup).1 (by decide)

theorem Answers.truthful (h : s.Ledger) {frame : Bytes} {pending : Pending ρ} {outcome : Settlement ρ}
    (hanswers : s.Answers frame pending outcome) :
    { s with received := s.received ++ [frame] }.Truthful pending.promise outcome := by
  obtain ⟨hlookup, hcases⟩ := hanswers
  obtain ⟨-, -, since, hsince, hget⟩ := h.known _ pending hlookup
  have hmem : frame ∈ (s.received ++ [frame]).drop since := by
    rw [List.drop_append_of_le_length hsince]
    exact List.mem_append_right _ List.mem_cons_self
  rcases hcases with ⟨herror, reason, hparse, rfl⟩ | ⟨-, hmatch, value, hparse, rfl⟩
  · obtain ⟨code, message, rfl, -, -⟩ := parseError_ok hparse
    exact ⟨_, pending.opcode, pending.parse, since, frame, hget, hmem, rfl, herror, hparse⟩
  · exact ⟨_, pending.opcode, pending.parse, since, frame, hget, hmem, rfl, hmatch, hparse⟩

/-- A frame either answers one request or closes the client. -/
theorem data_cases (h : s.Ledger) (hopen : s.closed = false) (frame : Bytes) :
    (∃ pending outcome, s.Answers frame pending outcome ∧ s.data frame =
      { s with received := s.received ++ [frame] }.settle (frameId frame) pending outcome) ∨
    (¬∃ pending outcome, s.Answers frame pending outcome) ∧ ∃ message, s.data frame =
      { s with received := s.received ++ [frame] }.fail (.protocol message) := by
  have hzero : { s with received := s.received ++ [frame] }.pending.lookup 0 = none := h.zero
  unfold data
  rw [if_neg (by rw [hopen]; exact Bool.false_ne_true)]
  cases hreceive : { s with received := s.received ++ [frame] }.receive frame with
  | ok t =>
      obtain ⟨pending, outcome, hanswers, rfl⟩ := (receive_eq_ok hzero).mp hreceive
      exact Or.inl ⟨pending, outcome, hanswers, by simp only [hreceive]⟩
  | error failure =>
      obtain ⟨message, rfl⟩ := receive_protocol frame _ failure hreceive
      refine Or.inr ⟨?_, message, by simp only [hreceive]⟩
      intro hsome
      obtain ⟨pending, outcome, hanswers⟩ := hsome
      have hok := (receive_eq_ok hzero).mpr ⟨pending, outcome, hanswers, rfl⟩
      rw [hreceive] at hok
      cases hok

theorem Inv.data (h : s.Inv) (frame : Bytes) : (s.data frame).Inv := by
  have hreceived : { s with received := s.received ++ [frame] }.Inv := { h with
    toLedger := h.toLedger.of_same rfl rfl rfl (List.prefix_append _ _) }
  cases hclosed : s.closed with
  | true =>
      unfold State.data
      rw [if_pos hclosed]
      exact h
  | false =>
      rcases data_cases h.toLedger hclosed frame with ⟨pending, outcome, hanswers, heq⟩ | ⟨-, message, heq⟩
      · rw [heq]
        exact { hreceived with
          toLedger := hreceived.toLedger.settle hanswers.1 (hanswers.truthful h.toLedger)
          bounded := (Table.size_erase_le _ _).trans h.bounded
          quiet := fun hclosed' => absurd (hclosed.symm.trans hclosed') Bool.false_ne_true }
      · rw [heq]
        exact hreceived.fail fun _ _ => Failure.noConfusion

end State

/-! ### Runs -/

section Runs

variable {s t : State ρ} {undefined : ρ}

theorem State.Inv.step (h : s.Inv) {op : Op ρ} (hop : s.Enabled op) (hnext : s.next undefined op = some t) :
    t.Inv := by
  cases op with
  | connected =>
      rw [← Option.some.inj hnext]
      exact { h with
        toLedger := { h with }
        reason := fun code message heq => absurd (h.reason code message heq).1 (by rw [hop.1]; exact nofun)
        young := fun _ => h.young (Or.inl hop.1)
        greeting := nofun }
  | greet socket =>
      have hsent : s.sent = [] := h.young (Or.inr hop)
      have hgreeting : { s with stage := .greeting s.sent.length }.Inv := { h with
        toLedger := { h with }
        reason := fun code message heq => absurd (h.reason code message heq).1 (by rw [hop]; exact nofun)
        young := fun hyoung => by
          rcases hyoung with hyoung | hyoung <;> cases hyoung
        greeting := fun promise hstage => by
          rw [← Stage.greeting.inj hstage, hsent]
          exact ⟨rfl, Nat.zero_le _⟩ }
      exact hgreeting.send (Or.inr ⟨_, rfl, hsent⟩) hnext
  | opened =>
      obtain ⟨promise, value, hstage, -⟩ := hop
      rw [← Option.some.inj hnext]
      exact { h with
        toLedger := { h with }
        reason := fun code message heq => absurd (h.reason code message heq).1 (by rw [hstage]; exact nofun)
        young := fun hyoung => by
          rcases hyoung with hyoung | hyoung <;> cases hyoung
        greeting := nofun }
  | refused reason =>
      obtain ⟨promise, hstage, hsettled⟩ := hop
      rw [← Option.some.inj hnext]
      exact h.refused hstage hsettled
  | send socket opcode body parse => exact h.send (Or.inl hop.1) hnext
  | data frame =>
      rw [← Option.some.inj hnext]
      exact h.data frame
  | drain socket =>
      rw [← Option.some.inj hnext]
      exact Inv.flush (s := { s with blocked := false }) { h with toLedger := { h with } } socket
  | socketClosed =>
      rw [← Option.some.inj hnext]
      cases hclosed : s.closed with
      | true =>
          unfold State.fail
          rw [if_pos hclosed]
          exact h
      | false =>
          apply h.fail
          intro code message heq
          exact absurd (hclosed.symm.trans (h.reason code message heq).2) Bool.false_ne_true
  | _ =>
      rw [← Option.some.inj hnext]
      exact h.fail fun _ _ => Failure.noConfusion

theorem State.Inv.size_lt (h : s.Inv) : s.pending.size < 0xffffffff :=
  (h.bounded.trans h.limit.2).trans_lt (by decide)

theorem State.send_returns (hsize : s.pending.size < 0xffffffff)
    (hnext : 1 ≤ s.nextRequestId ∧ s.nextRequestId ≤ 0xffffffff) (socket : Socket) (opcode : Nat) (body : Bytes)
    (parse : Parser ρ) : ∃ t, s.send socket opcode body parse = some t := by
  obtain ⟨id, hsearch⟩ := searchId_ends hsize hnext.1 hnext.2
  unfold State.send
  cases s.ensureCapacity with
  | error failure => exact ⟨_, rfl⟩
  | ok value =>
      simp only [hsearch]
      cases envelope opcode id body with
      | error failure => exact ⟨_, rfl⟩
      | ok frame => exact ⟨_, rfl⟩

/-- Every step returns, the search for an identifier included. -/
theorem State.Inv.returns (h : s.Inv) (undefined : ρ) (op : Op ρ) : ∃ t, s.next undefined op = some t := by
  cases op with
  | greet socket =>
      exact send_returns (s := { s with stage := .greeting s.sent.length }) h.size_lt h.next socket 1 _ _
  | send socket opcode body parse => exact send_returns h.size_lt h.next socket opcode body parse
  | _ => exact ⟨_, rfl⟩

/-- What a client that stays open does not do. -/
def State.Fatal (s : State ρ) : Op ρ → Prop
  | .data frame => ¬∃ pending outcome, s.Answers frame pending outcome
  | .misframed => True
  | .connectTimeout => True
  | .timeout _ => True
  | .socketError _ => True
  | .ended => True
  | .socketClosed => True
  | .close => True
  | _ => False

/-- Every request that waited is rejected with the reason of the close. -/
def State.Forsaken (s t : State ρ) : Prop :=
  t.closed = true ∧ ∀ id pending, s.pending.lookup id = some pending →
    (pending.promise, .rejected t.closeReason) ∈ t.settled

theorem State.Inv.fail_forsaken (h : s.Inv) (reason : Failure) : s.Forsaken (s.fail reason) := by
  unfold State.fail
  split_ifs with hclosed
  · refine ⟨hclosed, fun id pending hlookup => ?_⟩
    rw [(h.quiet hclosed).1] at hlookup
    cases hlookup
  · refine ⟨rfl, fun id pending hlookup => ?_⟩
    exact List.mem_append_right _ (List.mem_map.mpr
      ⟨⟨id, pending⟩, Table.mem_entries_iff.mpr hlookup, rfl⟩)

theorem State.Inv.fatal (h : s.Inv) {op : Op ρ} (hfatal : s.Fatal op) (hnext : s.next undefined op = some t) :
    s.Forsaken t := by
  cases op with
  | data frame =>
      rw [← Option.some.inj hnext]
      cases hclosed : s.closed with
      | true =>
          unfold State.data
          rw [if_pos hclosed]
          refine ⟨hclosed, fun id pending hlookup => ?_⟩
          rw [(h.quiet hclosed).1] at hlookup
          cases hlookup
      | false =>
          rcases data_cases h.toLedger hclosed frame with ⟨pending, outcome, hanswers, -⟩ | ⟨-, message, heq⟩
          · exact absurd ⟨pending, outcome, hanswers⟩ hfatal
          · rw [heq]
            have hreceived : { s with received := s.received ++ [frame] }.Inv := { h with
              toLedger := h.toLedger.of_same rfl rfl rfl (List.prefix_append _ _) }
            exact hreceived.fail_forsaken _
  | connected => exact hfatal.elim
  | greet socket => exact hfatal.elim
  | opened => exact hfatal.elim
  | refused reason => exact hfatal.elim
  | send socket opcode body parse => exact hfatal.elim
  | drain socket => exact hfatal.elim
  | _ =>
      rw [← Option.some.inj hnext]
      exact h.fail_forsaken _

/-- A response settles the promise of its own request, and no other. -/
theorem State.Inv.answered (h : s.Inv) {frame : Bytes} {pending : Pending ρ} {outcome : Settlement ρ}
    (hanswers : s.Answers frame pending outcome) (hnext : s.next undefined (.data frame) = some t) :
    t.settled = s.settled ++ [(pending.promise, outcome)] ∧ t.pending = s.pending.erase (frameId frame) := by
  have hopen : s.closed = false := by
    by_contra hclosed
    have hlookup := hanswers.1
    rw [(h.quiet (Bool.not_eq_false _ ▸ hclosed)).1] at hlookup
    cases hlookup
  rw [← Option.some.inj hnext]
  rcases data_cases h.toLedger hopen frame with ⟨pending', outcome', hanswers', heq⟩ | ⟨hnone, -⟩
  · obtain ⟨rfl, rfl⟩ := hanswers.unique hanswers'
    rw [heq]
    exact ⟨rfl, rfl⟩
  · exact absurd ⟨pending, outcome, hanswers⟩ hnone

/-- What holds of a client at every moment. -/
structure State.Correlated (s : State ρ) : Prop where
  distinct : s.pending.keys.Nodup
  identifiers : ∀ id ∈ s.pending.keys, 1 ≤ id ∧ id ≤ 2 ^ 32 - 1
  bounded : s.pending.size ≤ s.settings.maxPendingRequests
  next : 1 ≤ s.nextRequestId ∧ s.nextRequestId ≤ 2 ^ 32 - 1
  search : ∃ id, searchId s.pending (s.pending.size + 1) s.nextRequestId = some id ∧ id ∉ s.pending.keys
  once : (s.settled.map Prod.fst).Nodup
  truthful : ∀ promise outcome, (promise, outcome) ∈ s.settled → s.Truthful promise outcome
  closed : s.closed = true → s.pending = ∅ ∧ s.writeQueue = [] ∧
    ∀ promise < s.sent.length, promise ∈ s.settled.map Prod.fst

theorem State.Inv.toCorrelated (h : s.Inv) : s.Correlated where
  distinct := s.pending.nodupKeys
  identifiers id hid := by
    obtain ⟨pending, hlookup⟩ := Option.isSome_iff_exists.mp (AList.lookup_isSome.mpr hid)
    obtain ⟨hlow, hhigh, -⟩ := h.known id pending hlookup
    exact ⟨hlow, hhigh⟩
  bounded := h.bounded
  next := h.next
  search := by
    obtain ⟨id, hsearch⟩ := searchId_ends h.size_lt h.next.1 h.next.2
    exact ⟨id, hsearch, (searchId_some h.next.1 h.next.2 hsearch).1⟩
  once := h.once
  truthful := h.truthful
  closed hclosed := by
    obtain ⟨hempty, hqueue⟩ := h.quiet hclosed
    refine ⟨hempty, hqueue, fun promise hlt => ?_⟩
    apply (h.outstanding promise hlt).resolve_right
    intro hwaits
    obtain ⟨id, pending, hlookup, -⟩ := hwaits
    rw [hempty] at hlookup
    cases hlookup

end Runs

theorem reachable_inv {undefined : ρ} {options : ConnectOptions} {s : State ρ}
    (h : (machine undefined options).Reachable s) :
    s.Inv := by
  apply h.invariant
  · intro s hstart
    obtain ⟨checked, hchecked, rfl⟩ := hstart
    exact State.new_inv hchecked
  · intro s op t hreach hs hstep
    exact hs.step hstep.1 hstep.2

/-- **Requests and responses are matched.** In every reachable state of a client the identifiers in use are
distinct and bounded, the search for another one ends, and every promise was settled at most once, by a
response to its own request or by a failure; a step always returns, a response settles exactly the promise
of its request, and any other frame, a timeout or a close leaves no promise waiting. -/
theorem correlated (undefined : ρ) (options : ConnectOptions) (s : State ρ)
    (h : (machine undefined options).Reachable s) :
    s.Correlated ∧ ∀ op, s.Enabled op → ∃ t, s.next undefined op = some t ∧
      (∀ frame pending outcome, op = .data frame → s.Answers frame pending outcome →
        t.settled = s.settled ++ [(pending.promise, outcome)] ∧ t.pending = s.pending.erase (frameId frame)) ∧
      (s.Fatal op → s.Forsaken t) := by
  have hinv := reachable_inv h
  refine ⟨hinv.toCorrelated, fun op hop => ?_⟩
  obtain ⟨t, hnext⟩ := hinv.returns undefined op
  refine ⟨t, hnext, ?_, fun hfatal => hinv.fatal hfatal hnext⟩
  intro frame pending outcome heq hanswers
  rw [heq] at hnext
  exact hinv.answered hanswers hnext

/-- The options when none is given. -/
def noOptions : ConnectOptions := ⟨.undefined, .undefined, .undefined, .undefined, .undefined⟩

def defaults : Settings := ⟨Text.ofString "127.0.0.1", 7447, [], 5000, 32⟩

theorem settings_noOptions : settings noOptions = .ok defaults := by
  decide +kernel

namespace Sample

def accepts : Socket := fun _ => .accepted

def emptyParser : Parser Unit where
  run := Reader.«end»
  protocol := Reader.end_protocol

def after (op : Op Unit) (s : State Unit) : State Unit := (s.next () op).getD s

theorem after_reachable {s : State Unit} (h : (machine () noOptions).Reachable s) (op : Op Unit) (hop : s.Enabled op) :
    (machine () noOptions).Reachable (after op s) := by
  obtain ⟨t, hnext⟩ := (reachable_inv h).returns () op
  refine h.step (l := op) ⟨hop, ?_⟩
  rw [after, hnext]
  rfl

/-- A client sent two requests after HELLO. -/
def asked : State Unit :=
  after (.send accepts 5 [] emptyParser) (after (.send accepts 5 [] emptyParser) (after .opened
    (after (.data [129, 0, 0, 0, 1, 0, 1]) (after (.greet accepts) (after .connected (State.new defaults))))))

/-- The second was answered before the first. -/
def crossed : State Unit := after (.data [133, 0, 0, 0, 2]) (after (.data [133, 0, 0, 0, 3]) asked)

/-- The promises that were resolved. -/
def resolved (s : State Unit) : List Nat := s.settled.filterMap fun
  | (promise, .resolved _) => some promise
  | (_, .rejected _) => none

theorem mem_of_resolved {s : State Unit} {promise : Nat} (h : promise ∈ resolved s) :
    (promise, .resolved ()) ∈ s.settled := by
  obtain ⟨⟨promise', outcome⟩, hmem, heq⟩ := List.mem_filterMap.mp h
  cases outcome with
  | resolved value =>
      obtain rfl := Option.some.inj heq
      exact hmem
  | rejected reason => cases heq

/-- The promise that waits under an identifier, its opcode, and what an empty body resolves it with. -/
def waiting (s : State Unit) (id : Nat) : Option (Nat × Nat × Option Unit) :=
  (s.pending.lookup id).map fun pending => (pending.promise, pending.opcode, (pending.parse.run []).toOption)

theorem answers_of_waiting {s : State Unit} {id promise opcode : Nat}
    (h : waiting s id = some (promise, opcode, some ()))
    {frame : Bytes} (hframe : frameId frame = id) (hopcode : frameOpcode frame = opcode ||| 0x80)
    (herror : frameOpcode frame ≠ 0xff) (hbody : frame.drop 5 = []) :
    ∃ pending, pending.promise = promise ∧ s.Answers frame pending (.resolved ()) := by
  obtain ⟨pending, hlookup, heq⟩ := Option.map_eq_some_iff.mp h
  obtain ⟨rfl, rfl, hparse⟩ : pending.promise = promise ∧ pending.opcode = opcode ∧
      (pending.parse.run []).toOption = some () := by simpa using heq
  refine ⟨pending, rfl, by rw [hframe]; exact hlookup, Or.inr ⟨herror, hopcode, (), ?_, rfl⟩⟩
  rw [hbody]
  cases hrun : pending.parse.run [] with
  | ok value => rfl
  | error failure =>
      rw [hrun] at hparse
      cases hparse

theorem resolved_crossed : resolved (after (.data [129, 0, 0, 0, 1, 0, 1]) (after (.greet accepts)
    (after .connected (State.new defaults)))) = [0] ∧ resolved crossed = [0, 2, 1] ∧
    waiting asked 3 = some (2, 5, some ()) := by
  decide

theorem asked_reachable : (machine () noOptions).Reachable asked := by
  have h := Transition.Reachable.of_start (T := machine () noOptions) (s := State.new defaults)
    ⟨defaults, settings_noOptions, rfl⟩
  have h := after_reachable h .connected ⟨rfl, rfl⟩
  have h := after_reachable h (.greet accepts) rfl
  have h := after_reachable h (.data [129, 0, 0, 0, 1, 0, 1]) ⟨by decide, Nat.le_of_ble_eq_true rfl⟩
  have h := after_reachable h .opened ⟨0, (), rfl, mem_of_resolved (by rw [resolved_crossed.1]; decide)⟩
  have h := after_reachable h (.send accepts 5 [] emptyParser) ⟨rfl, by decide⟩
  exact after_reachable h (.send accepts 5 [] emptyParser) ⟨rfl, by decide⟩

theorem crossed_reachable : (machine () noOptions).Reachable crossed := by
  have h := after_reachable asked_reachable (.data [133, 0, 0, 0, 3]) ⟨by decide, Nat.le_of_ble_eq_true rfl⟩
  exact after_reachable h (.data [133, 0, 0, 0, 2]) ⟨by decide, Nat.le_of_ble_eq_true rfl⟩

end Sample

theorem correlated_crossed : Sample.resolved Sample.crossed = [0, 2, 1] ∧ Sample.crossed.Correlated ∧
    ∃ t, Sample.asked.next () (.data [133, 0, 0, 0, 3]) = some t ∧
      t.settled = Sample.asked.settled ++ [(2, .resolved ())] := by
  obtain ⟨-, hresolved, hwaiting⟩ := Sample.resolved_crossed
  obtain ⟨-, hsteps⟩ := correlated () noOptions Sample.asked Sample.asked_reachable
  obtain ⟨t, hnext, hanswered, -⟩ := hsteps (.data [133, 0, 0, 0, 3]) ⟨by decide, Nat.le_of_ble_eq_true rfl⟩
  obtain ⟨pending, hpromise, hanswers⟩ :=
    Sample.answers_of_waiting hwaiting (show frameId [133, 0, 0, 0, 3] = 3 from rfl) rfl (by decide) rfl
  refine ⟨hresolved, (correlated () noOptions Sample.crossed Sample.crossed_reachable).1, t, hnext, ?_⟩
  rw [(hanswered _ _ _ rfl hanswers).1, hpromise]

end VeloBus.Client
