import VeloBus.StoreRecovery

/-! What one publish does: nothing, a write that poisons the store, or a batch at the end of the log. -/

namespace VeloBus

namespace Store

/-- Every check of `publish` passes. -/
structure Accepts (store : Store) (records : List Record) : Prop where
  sound : store.poisoned = false
  retained : Store.retained records ≤ store.maxRetainedBytes - store.retainedBytes
  sequences : store.lastSequence + records.length ≤ u64Max
  room : ∀ wal, store.wal = some wal → Wal.batchBytes records ≤ wal.maxBytes - wal.bytes

/-- The store with one more batch. -/
def accepted (store : Store) (records : List Record) : Store :=
  { store with
    events := store.events ++ number (store.lastSequence + 1) records
    retainedBytes := store.retainedBytes + retained records
    publishedRecords := saturatingAdd store.publishedRecords records.length }

/-- The answer to an accepted batch. -/
def acceptedReceipt (store : Store) (records : List Record) : Bytes :=
  receipt (store.lastSequence + 1) (store.lastSequence + records.length) records.length
    store.wal.isSome

/-- The outcomes of `publish`: the store, the file-system calls and the answer. -/
inductive Published (hash : Bytes → UInt32) (store : Store) (records : List Record)
    (fault : Option Fault) : Store × List Disk.Call × Except Error Bytes → Prop where
  | refused (error : Error) : Published hash store records fault (store, [], .error error)
  | failed (wal : Wal) (kept : Nat) (error : Error) (hwal : store.wal = some wal)
      (haccepts : store.Accepts records) (hfault : fault ≠ none) :
      Published hash store records fault
        ({ store with
            wal := some { wal with
              offset := wal.offset +
                min kept (Wal.frame hash ⟨store.lastSequence + 1, records⟩).length }
            poisoned := true },
          [.write wal.offset ((Wal.frame hash ⟨store.lastSequence + 1, records⟩).take kept)],
          .error error)
  | durable (wal : Wal) (hwal : store.wal = some wal) (haccepts : store.Accepts records)
      (hfault : fault = none) :
      Published hash store records fault
        ({ store.accepted records with
            wal := some { wal with
              offset := wal.offset + (Wal.frame hash ⟨store.lastSequence + 1, records⟩).length
              bytes := wal.bytes + (Wal.frame hash ⟨store.lastSequence + 1, records⟩).length } },
          Wal.appendCalls hash wal ⟨store.lastSequence + 1, records⟩,
          .ok (store.acceptedReceipt records))
  | volatile (hwal : store.wal = none) (haccepts : store.Accepts records) :
      Published hash store records fault
        (store.accepted records, [], .ok (store.acceptedReceipt records))

theorem checkRetainedCapacity_ok {store : Store} {records : List Record} {bytes : Nat}
    (h : store.checkRetainedCapacity records = .ok bytes) :
    bytes = retained records ∧ retained records ≤ store.maxRetainedBytes - store.retainedBytes := by
  rw [checkRetainedCapacity] at h
  split_ifs at h with hfull
  obtain rfl := Except.ok.inj h
  exact ⟨rfl, not_lt.mp hfull⟩

theorem checkCapacity_ok {wal : Wal} {records : List Record} (h : wal.checkCapacity records = .ok ()) :
    Wal.batchBytes records ≤ wal.maxBytes - wal.bytes := by
  rw [Wal.checkCapacity] at h
  split_ifs at h with hfull
  exact not_lt.mp hfull

/-- **The outcomes of a publish.** -/
theorem publish_cases (hash : Bytes → UInt32) (store : Store) (records : List Record)
    (fault : Option Fault) :
    Published hash store records fault (store.publish hash records fault) := by
  rw [publish]
  split_ifs with hpoisoned
  · exact .refused _
  have hsound : store.poisoned = false := by simpa using hpoisoned
  cases hretained : store.checkRetainedCapacity records with
  | error error => exact .refused _
  | ok bytes =>
      obtain ⟨rfl, hfits⟩ := checkRetainedCapacity_ok hretained
      simp only
      split_ifs with hsequences
      · exact .refused _
      rw [not_lt] at hsequences
      rw [log]
      cases hwal : store.wal with
      | none =>
          have haccepts : store.Accepts records := ⟨hsound, hfits, hsequences, by simp [hwal]⟩
          have h : Published hash store records fault _ := .volatile hwal haccepts
          simpa [accepted, acceptedReceipt, commit, hwal] using h
      | some wal =>
          cases hroom : wal.checkCapacity records with
          | error error =>
              simp only [hroom]
              exact .refused _
          | ok _ =>
              have haccepts : store.Accepts records := by
                refine ⟨hsound, hfits, hsequences, fun wal' hwal' => ?_⟩
                rw [hwal, Option.some_inj] at hwal'
                rw [← hwal']
                exact checkCapacity_ok hroom
              cases fault with
              | none =>
                  have h : Published hash store records none _ := .durable wal hwal haccepts rfl
                  simpa [Wal.append, hroom, accepted, acceptedReceipt, commit, hwal] using h
              | some fault =>
                  cases fault with
                  | write kept error =>
                      have h : Published hash store records (some (.write kept error)) _ :=
                        .failed wal kept (Wal.storage error) hwal haccepts (by simp)
                      simpa [Wal.append, hroom] using h
                  | sync error =>
                      have h : Published hash store records (some (.sync error)) _ :=
                        .failed wal (Wal.frame hash ⟨store.lastSequence + 1, records⟩).length
                          (Wal.storage error) hwal haccepts (by simp)
                      simpa [Wal.append, hroom] using h

/-- An answered publish appends its whole batch to the events, any other leaves them. -/
theorem publish_events (hash : Bytes → UInt32) (store : Store) (records : List Record)
    (fault : Option Fault) :
    (∃ error, (store.publish hash records fault).2.2 = .error error ∧
        (store.publish hash records fault).1.events = store.events) ∨
      ∃ receipt, (store.publish hash records fault).2.2 = .ok receipt ∧
        (store.publish hash records fault).1.events =
          store.events ++ number (store.lastSequence + 1) records := by
  have h := publish_cases hash store records fault
  generalize store.publish hash records fault = out at h
  cases h with
  | refused error => exact Or.inl ⟨error, rfl, rfl⟩
  | failed wal kept error hwal haccepts hfault => exact Or.inl ⟨error, rfl, rfl⟩
  | durable wal hwal haccepts hfault => exact Or.inr ⟨_, rfl, rfl⟩
  | volatile hwal haccepts => exact Or.inr ⟨_, rfl, rfl⟩

/-! ### Errors -/

theorem checkRetainedCapacity_error {store : Store} {records : List Record} {error : Error}
    (h : store.checkRetainedCapacity records = .error error) : error.code = Code.capacity := by
  rw [checkRetainedCapacity] at h
  split_ifs at h
  cases h
  rfl

theorem checkCapacity_error {wal : Wal} {records : List Record} {error : Error}
    (h : wal.checkCapacity records = .error error) : error.code = Code.capacity := by
  rw [Wal.checkCapacity] at h
  split_ifs at h
  cases h
  rfl

/-- Past the capacity check only a file-system call can fail. -/
theorem append_error {hash : Bytes → UInt32} {wal : Wal} {batch : Batch} {fault : Option Fault} {error : Error}
    (hroom : wal.checkCapacity batch.records = .ok ())
    (h : (wal.append hash batch fault).2.2 = .error error) : error.code = Code.storage := by
  simp only [Wal.append, hroom] at h
  rcases fault with _ | ⟨kept, message⟩ | message <;> cases h <;> rfl

theorem log_error {hash : Bytes → UInt32} {store : Store} {batch : Batch} {fault : Option Fault}
    {error : Error} (h : (store.log hash batch fault).2.2 = .error error) :
    error.code = Code.capacity ∧ (store.log hash batch fault).1 = store ∧
        (store.log hash batch fault).2.1 = [] ∨
      error.code = Code.storage ∧ (store.log hash batch fault).1.poisoned = true := by
  rw [log] at h ⊢
  cases hwal : store.wal with
  | none =>
      simp only [hwal] at h
      cases h
  | some wal =>
      simp only [hwal] at h ⊢
      cases hroom : wal.checkCapacity batch.records with
      | error error' =>
          simp only [hroom] at h ⊢
          cases h
          exact Or.inl ⟨checkCapacity_error hroom, trivial, trivial⟩
      | ok _ =>
          simp only [hroom] at h ⊢
          rcases happend : wal.append hash batch fault with ⟨wal', calls, error' | _⟩
          · simp only [happend] at h ⊢
            cases h
            exact Or.inr ⟨append_error hroom (by rw [happend]), trivial⟩
          · simp only [happend] at h
            cases h

/-- No write was begun for a capacity error, and the store is poisoned after a storage error. -/
theorem publish_error {hash : Bytes → UInt32} {store : Store} {records : List Record} {fault : Option Fault}
    {error : Error} (h : (store.publish hash records fault).2.2 = .error error) :
    error.code = Code.capacity ∧ (store.publish hash records fault).1 = store ∧
        (store.publish hash records fault).2.1 = [] ∨
      error.code = Code.storage ∧ (store.publish hash records fault).1.poisoned = true := by
  rw [publish] at h ⊢
  split_ifs at h ⊢ with hpoisoned
  · cases h
    exact Or.inr ⟨rfl, hpoisoned⟩
  cases hretained : store.checkRetainedCapacity records with
  | error error' =>
      simp only [hretained] at h ⊢
      cases h
      exact Or.inl ⟨checkRetainedCapacity_error hretained, trivial, trivial⟩
  | ok bytes =>
      simp only [hretained] at h ⊢
      split_ifs at h ⊢ with hsequences
      · cases h
        exact Or.inl ⟨rfl, rfl, rfl⟩
      rcases hlog : store.log hash ⟨store.lastSequence + 1, records⟩ fault with ⟨store', calls, error' | _⟩
      · simp only [hlog] at h ⊢
        cases h
        have hfailed := log_error (show (store.log hash _ fault).2.2 = _ by rw [hlog])
        rw [hlog] at hfailed
        exact hfailed
      · simp only [hlog] at h
        cases h

/-- A poisoned store takes nothing. -/
theorem publish_poisoned (hash : Bytes → UInt32) {store : Store} (h : store.poisoned = true)
    (records : List Record) (fault : Option Fault) :
    store.publish hash records fault = (store, [], .error ⟨Code.storage,
      "store is read-only after uncertain disk I/O; restart required"⟩) := by
  rw [publish, if_pos h]

end Store

end VeloBus
