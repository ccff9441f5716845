import VeloBus.ClientReplies
import VeloBus.RequestCodec

/-! The sizes that budgets are kept by, beside the bytes that are written. -/

namespace VeloBus

/-- What `as u16` and `as u32` keep. -/
def FitsU16 (n : Nat) : Prop := (UInt16.ofNat n).toNat = n

def FitsU32 (n : Nat) : Prop := (UInt32.ofNat n).toNat = n

theorem fitsU16_iff {n : Nat} : FitsU16 n ↔ n < 2 ^ 16 := by
  rw [FitsU16, UInt16.toNat_ofNat']
  constructor
  · intro h
    rw [← h]
    exact Nat.mod_lt _ (by decide)
  · exact Nat.mod_eq_of_lt

theorem fitsU32_iff {n : Nat} : FitsU32 n ↔ n < 2 ^ 32 := by
  rw [FitsU32, UInt32.toNat_ofNat']
  constructor
  · intro h
    rw [← h]
    exact Nat.mod_lt _ (by decide)
  · exact Nat.mod_eq_of_lt

/-- The sizes of a batch, and what is written of it. -/
structure ExactSizes (hash : Bytes → UInt32) (records : List Record) : Prop where
  each : ∀ record ∈ records, (encodeRecord record).length = record.wireBytes - 8
  batch : (encodeRecords records).length = 2 + (records.map fun record => record.wireBytes - 8).sum
  /-- A page of events with such records. -/
  page : ∀ result : FetchResult, (∀ event ∈ result.events, event.record ∈ records) →
    result.encode.length = 11 + (result.events.map fun event => event.record.wireBytes).sum
  /-- What `append` writes, and what it adds to the bytes of the log. -/
  appended : ∀ (wal wal' : Wal) (first : Nat) (calls : List Disk.Call),
    wal.append hash ⟨first, records⟩ none = (wal', calls, .ok ()) → ∃ written : Bytes,
      calls = [.write wal.offset written, .sync] ∧ written.length = Wal.batchBytes records ∧
        wal'.bytes = wal.bytes + Wal.batchBytes records
  body : ∀ first, 19 ≤ (Wal.body ⟨first, records⟩).length ∧ (Wal.body ⟨first, records⟩).length ≤ maxFrame + 3
  /-- `open` reads back what was written. -/
  opened : ∀ first position rest, first < 2 ^ 64 →
    Wal.readFrame hash position (Wal.frame hash ⟨first, records⟩ ++ rest) =
      .ok (.batch ⟨first, records⟩ (Wal.batchBytes records))
  /-- Nothing is lost in a cast. -/
  count : FitsU16 records.length
  strings : ∀ record ∈ records, FitsU16 record.topic.utf8ByteSize ∧ FitsU16 record.key.utf8ByteSize ∧
    FitsU32 record.payload.length
  length : ∀ first, FitsU32 (Wal.body ⟨first, records⟩).length

/-- A batch that was accepted can be published. -/
theorem publishable_of_decoded {body : Bytes} {records : List Record} (hvalid : validLength (5 + body.length) = true)
    (hdecode : decodeRequest 2 body = .ok (.publish records)) : Publishable records := by
  obtain ⟨decoded, hlegal, heq, rfl⟩ := decodeRequest_publish.mp hdecode
  obtain rfl : records = decoded := Request.publish.inj heq
  refine ⟨hlegal, ?_⟩
  rw [validLength, decide_eq_true_iff, maxFrame] at hvalid
  rw [maxFrame]
  omega

theorem Wal.append_sizes {hash : Bytes → UInt32} {wal wal' : Wal} {batch : Batch} {calls : List Disk.Call}
    (h : wal.append hash batch none = (wal', calls, .ok ())) : ∃ written : Bytes,
      calls = [.write wal.offset written, .sync] ∧ written.length = Wal.batchBytes batch.records ∧
        wal'.bytes = wal.bytes + Wal.batchBytes batch.records := by
  unfold Wal.append at h
  split at h
  · cases (Prod.mk.inj (Prod.mk.inj h).2).2
  · obtain ⟨rfl, hrest⟩ := Prod.mk.inj h
    rw [Wal.batchBytes_eq hash]
    exact ⟨Wal.frame hash batch, (Prod.mk.inj hrest).1.symm, rfl, rfl⟩

theorem Publishable.sizes {records : List Record} (h : Publishable records) (hash : Bytes → UInt32) :
    ExactSizes hash records := by
  have hbody : ∀ first, 19 ≤ (Wal.body ⟨first, records⟩).length ∧ (Wal.body ⟨first, records⟩).length ≤ maxFrame + 3 := by
    intro first
    have hsame : (Wal.body ⟨first, records⟩).length = (Wal.body ⟨0, records⟩).length := by
      rw [Wal.length_body, Wal.length_body]
    rw [hsame]
    exact Wal.length_body_bounds ⟨Nat.pow_pos (by decide), h⟩
  refine ⟨fun record _ => Wal.length_encodeRecord record, Wal.length_encodeRecords records,
    fun result _ => result.length_encode, fun wal wal' first calls => Wal.append_sizes, hbody, ?_, ?_, ?_, ?_⟩
  · intro first position rest hfirst
    apply Wal.readFrame_batch.mpr
    exact ⟨⟨hfirst, h⟩, List.prefix_append _ _, Wal.batchBytes_eq hash ⟨first, records⟩⟩
  · have hmost := h.legal.atMost
    rw [maxBatch] at hmost
    exact fitsU16_iff.mpr (by omega)
  · intro record hmem
    have hlegal := h.legal.legal record hmem
    have htopic := validateTopic_size hlegal.topic
    have hkey := hlegal.key
    have hpayload := hlegal.payload
    rw [maxPayload] at hpayload
    exact ⟨fitsU16_iff.mpr (by omega), fitsU16_iff.mpr (by omega), fitsU32_iff.mpr (by omega)⟩
  · intro first
    have hmost := (hbody first).2
    rw [maxFrame] at hmost
    exact fitsU32_iff.mpr (by omega)

/-- **The sizes are exact.** For every batch that is accepted in a frame that is, each formula counts the bytes that
are written, the reader of the log accepts them, and no cast loses anything; nor does the count of a page that a
request could ask for. -/
theorem sizes_exact (hash : Bytes → UInt32) (body : Bytes) (records : List Record)
    (hvalid : validLength (5 + body.length) = true) (hdecode : decodeRequest 2 body = .ok (.publish records)) :
    ExactSizes hash records ∧
    ∀ (store next : Store) (query : Bytes) (request : Fetch) (result : FetchResult),
      decodeRequest 3 query = .ok (.fetch request) → store.fetch request = (next, .ok result) →
      FitsU16 result.events.length := by
  refine ⟨(publishable_of_decoded hvalid hdecode).sizes hash, ?_⟩
  intro store next query request result hquery hfetch
  have hcount := (Store.fetch_bounded hfetch).count
  obtain ⟨-, -, hlimit, -⟩ := (decodeRequest_eq_ok.mp hquery).1
  rw [maxBatch] at hlimit
  exact fitsU16_iff.mpr (by omega)

theorem sizes_exact_three : ExactSizes (fun _ => 0) Client.orders ∧ FitsU16 Client.latestResult.events.length := by
  obtain ⟨horders, hlatest⟩ := Client.decode_orders
  obtain ⟨hsizes, hpages⟩ := sizes_exact (fun _ => 0) Client.ordersBody Client.orders (by decide) horders
  obtain ⟨next, hfetch⟩ := Client.fetch_latest
  exact ⟨hsizes, hpages _ _ _ _ _ hlatest hfetch⟩

end VeloBus
