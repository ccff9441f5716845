import VeloBus.StorePaging

/-! The answered publishes of a run beside the log: their receipts tile the sequence numbers that the run
added, and the log before the run is a part of the log after it. -/

namespace VeloBus

/-- The ranges of a receipt. -/
structure Receipt where
  first : Nat
  last : Nat
  count : Nat
deriving DecidableEq, Repr

def Receipt.read (bytes : Bytes) : Receipt where
  first := Bytes.ofBe (bytes.take 8)
  last := Bytes.ofBe ((bytes.drop 8).take 8)
  count := Bytes.ofBe ((bytes.drop 16).take 2)

/-- A batch and the bytes its publish returned. -/
structure Answered where
  records : List Record
  bytes : Bytes
deriving DecidableEq, Repr

def Answered.receipt (a : Answered) : Receipt := .read a.bytes

/-- The sequences a receipt names. -/
def Answered.range (a : Answered) : List Nat := List.range' a.receipt.first a.receipt.count

/-- A store and the publishes answered since the start of the run, oldest first. -/
structure Ledger where
  store : Store
  answered : List Answered

namespace Ledger

inductive Op where
  | publish (records : List Record) (fault : Option Fault)
  | fetch (request : Fetch)

/-- Requests carry 1 to 256 records; the count of a receipt has 16 bits. -/
def Op.Accepted : Op → Prop
  | .publish records _ => 1 ≤ records.length ∧ records.length < 2 ^ 16
  | .fetch _ => True

section

variable (hash : Bytes → UInt32)

def next (ledger : Ledger) : Op → Ledger
  | .publish records fault =>
    match ledger.store.publish hash records fault with
    | (store, _, .error _) => { ledger with store := store }
    | (store, _, .ok bytes) => { store := store, answered := ledger.answered ++ [⟨records, bytes⟩] }
  | .fetch request => { ledger with store := (ledger.store.fetch request).1 }

/-- The runs on any store the program can have. -/
def session : Transition Ledger Op where
  start ledger := ledger.store.Built hash ∧ ledger.answered = []
  step ledger op ledger' := op.Accepted ∧ ledger' = ledger.next hash op

end

end Ledger

/-! ### One publish -/

namespace Store

theorem getElem?_number (first : Nat) (records : List Record) (index : Nat) :
    (number first records)[index]? = records[index]?.map fun record => ⟨first + index, record⟩ := by
  rw [number, List.getElem?_mapIdx]

theorem retained_concat {events events' : List Event} {records : List Record} {first : Nat}
    (h : events' = events ++ number first records) :
    retained (events'.map Event.record) = retained (events.map Event.record) + retained records := by
  rw [h, List.map_append, retained_append, map_record_number]

/-- The fields of a receipt that fit their widths. -/
theorem read_receipt {first last count : Nat} (durable : Bool) (hfirst : first ≤ u64Max) (hlast : last ≤ u64Max)
    (hcount : count < 2 ^ 16) : Receipt.read (receipt first last count durable) = ⟨first, last, count⟩ := by
  have hfirst' : first < 256 ^ 8 := Nat.lt_of_le_of_lt hfirst (by decide)
  have hlast' : last < 256 ^ 8 := Nat.lt_of_le_of_lt hlast (by decide)
  have hcount' : count < 256 ^ 2 := hcount
  have htake : ∀ {width n : Nat} (rest : Bytes), (Bytes.toBe width n ++ rest).take width = Bytes.toBe width n := by
    intro width n rest
    exact List.take_left' (Bytes.length_toBe width n)
  have hdrop : ∀ {width n : Nat} (rest : Bytes), (Bytes.toBe width n ++ rest).drop width = rest := by
    intro width n rest
    exact List.drop_left' (Bytes.length_toBe width n)
  have hsplit : ∀ bytes : Bytes, bytes.drop 16 = (bytes.drop 8).drop 8 := by
    intro bytes
    rw [List.drop_drop]
  simp only [Receipt.read, receipt, List.append_assoc, htake, hdrop, hsplit]
  simp [Bytes.ofBe_toBe_of_lt hfirst', Bytes.ofBe_toBe_of_lt hlast', Bytes.ofBe_toBe_of_lt hcount']

/-- What an answered publish did. -/
theorem publish_answer {hash : Bytes → UInt32} {store store' : Store} {records : List Record}
    {fault : Option Fault} {calls : List Disk.Call} {bytes : Bytes}
    (h : store.publish hash records fault = (store', calls, .ok bytes)) :
    store.Accepts records ∧ bytes = store.acceptedReceipt records ∧
      store'.events = store.events ++ number (store.lastSequence + 1) records ∧
      store'.retainedBytes = store.retainedBytes + retained records := by
  have hcases := publish_cases hash store records fault
  rw [h] at hcases
  cases hcases with
  | durable wal hwal haccepts hfault => exact ⟨haccepts, rfl, rfl, rfl⟩
  | volatile hwal haccepts => exact ⟨haccepts, rfl, rfl, rfl⟩

/-- A publish that fails keeps the log. -/
theorem publish_failed {hash : Bytes → UInt32} {store store' : Store} {records : List Record}
    {fault : Option Fault} {calls : List Disk.Call} {error : Error}
    (h : store.publish hash records fault = (store', calls, .error error)) :
    store'.events = store.events ∧ store'.retainedBytes = store.retainedBytes := by
  have hcases := publish_cases hash store records fault
  rw [h] at hcases
  cases hcases with
  | refused error => exact ⟨rfl, rfl⟩
  | failed wal kept error hwal haccepts hfault => exact ⟨rfl, rfl⟩

/-- The bytes counted are those of the events. -/
theorem Built.retained {hash : Bytes → UInt32} {store : Store} (h : store.Built hash) :
    store.retainedBytes = Store.retained (store.events.map Event.record) := by
  induction h with
  | memory => rfl
  | disk opened =>
      obtain ⟨log, tail, -, -, rfl⟩ := disk_eq_ok.mp opened
      show Store.retained log.flatten = Store.retained ((number 1 log.flatten).map Event.record)
      rw [map_record_number]
  | @publish store records fault _ ih =>
      rcases hpublish : store.publish hash records fault with ⟨store', calls, error | bytes⟩
      · obtain ⟨hevents, hbytes⟩ := publish_failed hpublish
        rw [hevents, hbytes]
        exact ih
      · obtain ⟨-, -, hevents, hbytes⟩ := publish_answer hpublish
        rw [retained_concat hevents, hbytes, ih]
  | @fetch store request _ ih =>
      obtain ⟨fetched, coalesced, hfetch⟩ := fetch_counters store request
      rw [hfetch]
      exact ih

end Store

namespace Ledger

section

variable {hash : Bytes → UInt32}

/-! ### The run -/

/-- The log and its receipts, for a run that started with the events `before`. -/
structure Tiled (hash : Bytes → UInt32) (before : List Event) (ledger : Ledger) : Prop where
  built : ledger.store.Built hash
  kept : before <+: ledger.store.events
  ranges : ledger.answered.flatMap Answered.range =
    List.range' (before.length + 1) (ledger.store.events.length - before.length)
  counts : ∀ a ∈ ledger.answered, a.receipt.first ≤ a.receipt.last ∧
    a.receipt.last - a.receipt.first + 1 = a.receipt.count ∧ a.receipt.count = a.records.length
  named : ∀ a ∈ ledger.answered, ∀ index record, a.records[index]? = some record →
    ledger.store.events[a.receipt.first + index - 1]? = some ⟨a.receipt.first + index, record⟩

/-- A step that leaves the events alone. -/
theorem Tiled.same {before : List Event} {ledger : Ledger} (h : Tiled hash before ledger) {store : Store}
    (hbuilt : store.Built hash) (hevents : store.events = ledger.store.events) :
    Tiled hash before { ledger with store := store } where
  built := hbuilt
  kept := hevents ▸ h.kept
  ranges := hevents ▸ h.ranges
  counts := h.counts
  named := hevents ▸ h.named

/-- One more answered batch. -/
theorem Tiled.answer {before : List Event} {ledger : Ledger} (h : Tiled hash before ledger)
    {records : List Record} (hone : 1 ≤ records.length) (hmost : records.length < 2 ^ 16)
    {fault : Option Fault} {store : Store} {calls : List Disk.Call} {bytes : Bytes}
    (hpublish : ledger.store.publish hash records fault = (store, calls, .ok bytes)) :
    Tiled hash before { store := store, answered := ledger.answered ++ [⟨records, bytes⟩] } := by
  obtain ⟨haccepts, hbytes, hevents, -⟩ := Store.publish_answer hpublish
  have hlength := h.kept.length_le
  have hsequences := haccepts.sequences
  have hreceipt : (⟨records, bytes⟩ : Answered).receipt =
      ⟨ledger.store.lastSequence + 1, ledger.store.lastSequence + records.length, records.length⟩ := by
    rw [Answered.receipt, hbytes]
    exact Store.read_receipt _ (by omega) hsequences hmost
  have hlast : ledger.store.lastSequence = ledger.store.events.length := rfl
  refine ⟨?_, ?_, ?_, ?_, ?_⟩
  · have hbuilt := h.built.publish records fault
    rwa [hpublish] at hbuilt
  · show before <+: store.events
    rw [hevents]
    exact h.kept.trans (List.prefix_append _ _)
  · show List.flatMap Answered.range (ledger.answered ++ [⟨records, bytes⟩]) =
      List.range' (before.length + 1) (store.events.length - before.length)
    have hsize : store.events.length - before.length =
        (ledger.store.events.length - before.length) + records.length := by
      rw [hevents, List.length_append, Store.length_number]
      omega
    have hstart : before.length + 1 + (ledger.store.events.length - before.length) =
        ledger.store.lastSequence + 1 := by omega
    calc List.flatMap Answered.range (ledger.answered ++ [⟨records, bytes⟩])
        = List.range' (before.length + 1) (ledger.store.events.length - before.length) ++
            List.range' (ledger.store.lastSequence + 1) records.length := by
          rw [List.flatMap_append, h.ranges, List.flatMap_singleton, Answered.range, hreceipt]
      _ = List.range' (before.length + 1) (store.events.length - before.length) := by
          rw [hsize, ← hstart, List.range'_append_1]
  · show ∀ a ∈ ledger.answered ++ [⟨records, bytes⟩], a.receipt.first ≤ a.receipt.last ∧
      a.receipt.last - a.receipt.first + 1 = a.receipt.count ∧ a.receipt.count = a.records.length
    refine List.forall_mem_append.mpr ⟨h.counts, ?_⟩
    intro a ha
    rw [List.mem_singleton.mp ha, hreceipt]
    exact ⟨by simp only; omega, by simp only; omega, rfl⟩
  · show ∀ a ∈ ledger.answered ++ [⟨records, bytes⟩], ∀ index record, a.records[index]? = some record →
      store.events[a.receipt.first + index - 1]? = some ⟨a.receipt.first + index, record⟩
    rw [hevents]
    refine List.forall_mem_append.mpr ⟨?_, ?_⟩
    · intro a ha index record hrecord
      have hevent := h.named a ha index record hrecord
      rw [List.getElem?_append_left (List.getElem?_eq_some_iff.mp hevent).1]
      exact hevent
    · intro a ha index record hrecord
      rw [List.mem_singleton.mp ha] at hrecord ⊢
      rw [hreceipt]
      simp only
      have hindex : ledger.store.lastSequence + 1 + index - 1 = ledger.store.events.length + index := by omega
      rw [hindex, List.getElem?_append_right (Nat.le_add_right _ _), Nat.add_sub_cancel_left,
        Store.getElem?_number, hrecord]
      rfl

theorem Tiled.next {before : List Event} {ledger : Ledger} (h : Tiled hash before ledger) {op : Op}
    (hop : op.Accepted) : Tiled hash before (ledger.next hash op) := by
  cases op with
  | fetch request => exact h.same (h.built.fetch request) (Store.fetch_events _ request)
  | publish records fault =>
      rw [Ledger.next]
      have hbuilt := h.built.publish records fault
      rcases hpublish : ledger.store.publish hash records fault with ⟨store, calls, error | bytes⟩
      · rw [hpublish] at hbuilt
        exact h.same hbuilt (Store.publish_failed hpublish).1
      · exact h.answer hop.1 hop.2 hpublish

theorem tiled_run {start ledger : Ledger} {ops : List Op} (hstart : (session hash).start start)
    (hrun : (session hash).Run start ops ledger) : Tiled hash start.store.events ledger := by
  induction hrun with
  | nil =>
      obtain ⟨hbuilt, hnone⟩ := hstart
      refine ⟨hbuilt, List.prefix_rfl, ?_, ?_, ?_⟩
      all_goals simp [hnone]
  | snoc _ hstep ih =>
      obtain ⟨hop, rfl⟩ := hstep
      exact ih.next hop

/-- **The log is gapless and only grows, and the receipts of a run tile what it added.** -/
theorem log_tiled {start ledger : Ledger} {ops : List Op} (hstart : (session hash).start start)
    (hrun : (session hash).Run start ops ledger) :
    (∀ index event, ledger.store.events[index]? = some event → event.sequence = index + 1) ∧
    start.store.events <+: ledger.store.events ∧
    (ledger.answered.flatMap Answered.range = List.range' (start.store.lastSequence + 1)
      (ledger.store.lastSequence - start.store.lastSequence)) ∧
    (∀ a ∈ ledger.answered, a.receipt.first ≤ a.receipt.last ∧
      a.receipt.last - a.receipt.first + 1 = a.receipt.count ∧ a.receipt.count = a.records.length ∧
      ∀ index record, a.records[index]? = some record →
        ledger.store.events[a.receipt.first + index - 1]? = some ⟨a.receipt.first + index, record⟩) ∧
    ledger.store.retainedBytes = (ledger.store.events.map fun event => event.record.retainedBytes).sum := by
  have htiled := tiled_run hstart hrun
  refine ⟨?_, htiled.kept, htiled.ranges, ?_, ?_⟩
  · intro index event hevent
    obtain ⟨records, hrecords⟩ := htiled.built.numbered
    rw [hrecords, Store.getElem?_number, Option.map_eq_some_iff] at hevent
    obtain ⟨record, -, rfl⟩ := hevent
    exact Nat.add_comm 1 index
  · intro a ha
    obtain ⟨hle, hcount, hlength⟩ := htiled.counts a ha
    exact ⟨hle, hcount, hlength, htiled.named a ha⟩
  · rw [htiled.built.retained, Store.retained, List.map_map]
    rfl

/-- A batch of one record, one that the retained budget refuses, and a batch of two. -/
def sampleOps : List Op :=
  [.publish [⟨"a", "k", [1]⟩] none, .publish [⟨"a", "k", []⟩, ⟨"a", "k", []⟩, ⟨"a", "k", []⟩] none,
    .publish [⟨"a", "k", [2]⟩, ⟨"b", "", [3]⟩] none]

def sampleStart : Ledger := ⟨Store.memory 800 0, []⟩

theorem run_foldl {ops : List Op} (hops : ∀ op ∈ ops, op.Accepted) (ledger : Ledger) :
    (session hash).Run ledger ops (ops.foldl (next hash) ledger) := by
  induction ops using List.reverseRecOn with
  | nil => exact .nil
  | append_singleton ops op ih =>
      rw [List.foldl_concat]
      exact (ih fun op' hmem => hops op' (List.mem_append_left _ hmem)).snoc ⟨hops op (by simp), rfl⟩

theorem log_tiled_sample :
    (sampleOps.foldl (next fun _ => 0) sampleStart).answered.flatMap Answered.range = [1, 2, 3] := by
  have hops : ∀ op ∈ sampleOps, op.Accepted := by simp [sampleOps, Op.Accepted]
  rw [(log_tiled ⟨.memory _ _, rfl⟩ (run_foldl hops sampleStart)).2.2.1]
  decide

end

end Ledger

end VeloBus
