import VeloBus.ClientReader
import VeloBus.FetchBounds
import VeloBus.StorePaging

/-! The replies to a publish and to a fetch, as the client reads them. Its checks on a reply hold of
everything the store answers. -/

namespace VeloBus.Client

open Codec

/-! ### Parsers -/

structure PublishReceipt where
  firstSequence : Nat
  lastSequence : Nat
  count : Nat
  durable : Bool
deriving DecidableEq, Repr

def parseReceipt (expectedCount : Nat) (response : Bytes) : Except Failure PublishReceipt := do
  let (firstSequence, reader) ← Reader.u64 response
  let (lastSequence, reader) ← Reader.u64 reader
  let (count, reader) ← Reader.u16 reader
  let (durable, reader) ← Reader.bool reader
  Reader.end reader
  if count ≠ expectedCount ∨ firstSequence = 0 ∨ (lastSequence : Int) ≠ firstSequence + count - 1 then
    throw (.protocol "Invalid publication sequence range or record count")
  return ⟨firstSequence, lastSequence, count, durable⟩

structure Event where
  sequence : Nat
  topic : Text
  key : Text
  payload : Bytes
deriving DecidableEq, Repr

structure FetchResult where
  cursor : Nat
  events : List Event
  hasMore : Bool
deriving DecidableEq, Repr

/-- A topic with a key, with a unit between them that no topic has. -/
def identity (topic key : Text) : Text := topic ++ 0 :: key

/-- The events still to be read, after those with the sequences up to `previous`. -/
def parseEvents (topic : Value) (query : Query) (cursor : Nat) :
    Nat → Nat → List Text → Bytes → Except Failure (List Event × Bytes)
  | 0, _, _, reader => return ([], reader)
  | count + 1, previous, keys, reader => do
    let (sequence, reader) ← Reader.u64 reader
    let (eventTopic, reader) ← Reader.string 255 reader
    let (key, reader) ← Reader.string 1024 reader
    let (payload, reader) ← Reader.payload reader
    if sequence ≤ previous ∨ cursor < sequence ∨ isTopic eventTopic = false ∨
        (topic ≠ .text (Text.ofString "*") ∧ .text eventTopic ≠ topic) then
      throw (.protocol "Invalid fetch event sequence or topic")
    if query.latest ∧ key ≠ [] ∧ identity eventTopic key ∈ keys then
      throw (.protocol "Duplicate keyed event in latest response")
    let keys := if query.latest ∧ key ≠ [] then identity eventTopic key :: keys else keys
    let (events, reader) ← parseEvents topic query cursor count sequence keys reader
    return (⟨sequence, eventTopic, key, payload⟩ :: events, reader)

def parseFetch (topic : Value) (query : Query) (response : Bytes) : Except Failure FetchResult := do
  let (cursor, reader) ← Reader.u64 response
  let (count, reader) ← Reader.u16 reader
  let (hasMore, reader) ← Reader.bool reader
  if cursor < query.after ∨ query.limit < count ∨ query.maxBytes < response.length - 11 ∨
      (hasMore ∧ cursor = query.after) then
    throw (.protocol "Invalid fetch cursor, count, progress or payload budget")
  let (events, reader) ← parseEvents topic query cursor count query.after [] reader
  Reader.end reader
  return ⟨cursor, events, hasMore⟩

/-! ### Events -/

/-- An event of the broker in the client's terms. -/
def Event.of (event : VeloBus.Event) : Event where
  sequence := event.sequence
  topic := Text.ofString event.record.topic
  key := Text.ofString event.record.key
  payload := event.record.payload

theorem topicByte_unit {b : UInt8} (h : topicByte b = true) :
    b.toNat < 0x80 ∧ topicUnit (UInt16.ofNat b.toNat) = true ∧ UInt16.ofNat b.toNat ≠ 0 := by
  have hall : ∀ n < 256, topicByte (UInt8.ofNat n) = true →
      n < 0x80 ∧ topicUnit (UInt16.ofNat n) = true ∧ UInt16.ofNat n ≠ 0 := by decide +kernel
  exact hall b.toNat b.toNat_lt (by rwa [UInt8.ofNat_toNat])

theorem topic_units {s : String} (h : validateTopic s false = .ok ()) :
    isTopic (Text.ofString s) = true ∧ 0 ∉ Text.ofString s := by
  rw [validateTopic, if_neg (by simp)] at h
  split_ifs at h with hbad
  simp only [not_or, not_lt, Bool.not_eq_false, List.all_eq_true] at hbad
  obtain ⟨hpos, hmost, hall⟩ := hbad
  have hunits := Text.ofString_of_ascii fun b hb => (topicByte_unit (hall b hb)).1
  rw [hunits, isTopic, decide_eq_true_iff, List.length_map, Bytes.length_utf8]
  refine ⟨⟨Nat.one_le_iff_ne_zero.mpr hpos, hmost, ?_⟩, ?_⟩
  · rw [List.all_map, List.all_eq_true]
    exact fun b hb => (topicByte_unit (hall b hb)).2.1
  · rw [List.mem_map]
    rintro ⟨b, hb, hzero⟩
    exact (topicByte_unit (hall b hb)).2.2 hzero

theorem ofString_ne_nil {s : String} : Text.ofString s ≠ [] ↔ s ≠ "" := by
  have hempty : Text.ofString "" = [] := rfl
  rw [← hempty]
  exact not_congr ⟨Text.ofString_injective, congrArg _⟩

theorem identity_injective {topic topic' key key' : Text} (h : 0 ∉ topic) (h' : 0 ∉ topic')
    (heq : identity topic key = identity topic' key') : topic = topic' ∧ key = key' := by
  rw [identity, identity] at heq
  induction topic generalizing topic' with
  | nil =>
      cases topic' with
      | nil => exact ⟨rfl, (List.cons.inj heq).2⟩
      | cons u topic' => exact absurd (List.cons.inj heq).1 (List.ne_of_not_mem_cons h')
  | cons u topic ih =>
      cases topic' with
      | nil => exact absurd (List.cons.inj heq).1.symm (List.ne_of_not_mem_cons h)
      | cons v topic' =>
          obtain ⟨rfl, hrest⟩ := List.cons.inj heq
          obtain ⟨rfl, hkey⟩ := ih (List.not_mem_of_not_mem_cons h) (List.not_mem_of_not_mem_cons h') hrest
          exact ⟨rfl, hkey⟩

/-- Events with one identity are rivals. -/
theorem rivals_of_identity {a b : VeloBus.Event} (ha : a.record.Legal) (hb : b.record.Legal)
    (hkey : a.record.key ≠ "")
    (h : identity (Event.of a).topic (Event.of a).key = identity (Event.of b).topic (Event.of b).key) :
    Fetch.Rivals a b := by
  have hleft : (0 : UInt16) ∉ (Event.of a).topic := (topic_units ha.topic).2
  have hright : (0 : UInt16) ∉ (Event.of b).topic := (topic_units hb.topic).2
  obtain ⟨htopic, hsame⟩ := identity_injective hleft hright h
  exact ⟨hkey, Prod.ext (Text.ofString_injective htopic) (Text.ofString_injective hsame)⟩

/-- What the client checks of one event. -/
structure Readable (topic : Value) (cursor : Nat) (event : VeloBus.Event) : Prop where
  legal : event.record.Legal
  sequence : event.sequence < 2 ^ 64
  cursor : event.sequence ≤ cursor
  topic : topic = .text (Text.ofString "*") ∨ topic = .text (Text.ofString event.record.topic)

theorem parseEvents_encode {topic : Value} {query : Query} {cursor : Nat} {events : List VeloBus.Event}
    {previous : Nat} {keys : List Text} (rest : Bytes)
    (hread : ∀ event ∈ events, Readable topic cursor event)
    (hafter : ∀ event ∈ events, previous < event.sequence)
    (hascending : events.Pairwise fun a b => a.sequence < b.sequence)
    (hsingle : query.latest = true → events.Pairwise fun a b => ¬Fetch.Rivals a b)
    (hkeys : ∀ event ∈ events, query.latest = true → event.record.key ≠ "" →
      identity (Event.of event).topic (Event.of event).key ∉ keys) :
    parseEvents topic query cursor events.length previous keys (events.flatMap encodeEvent ++ rest) =
      .ok (events.map Event.of, rest) := by
  induction events generalizing previous keys with
  | nil => rfl
  | cons event events ih =>
      obtain ⟨hlegal, hsequence, hcursor, htopic⟩ := hread event List.mem_cons_self
      have hsize := validateTopic_size hlegal.topic
      have hkey := hlegal.key
      rw [List.pairwise_cons] at hascending
      simp only [List.length_cons, parseEvents, bind_eq_ok, check_eq_ok, pure_eq_ok, Prod.exists]
      refine ⟨event.sequence, putString event.record.topic ++ (putString event.record.key ++
          (Bytes.toBe 4 event.record.payload.length ++ event.record.payload ++
            (events.flatMap encodeEvent ++ rest))), ?_, Text.ofString event.record.topic, _,
        Reader.string_putString hsize (by omega) _, Text.ofString event.record.key, _,
        Reader.string_putString hkey (by omega) _, event.record.payload, _,
        Reader.payload_append hlegal.payload _, ?_, ?_, events.map Event.of, rest, ?_, rfl⟩
      · rw [List.flatMap_cons, encodeEvent, VeloBus.encodeRecord]
        simp only [List.append_assoc]
        exact Reader.uint_toBe hsequence _
      · rintro (hle | hlt | hbad | ⟨hstar, hother⟩)
        · exact absurd hle (not_le.mpr (hafter event List.mem_cons_self))
        · exact absurd hlt (not_lt.mpr hcursor)
        · rw [(topic_units hlegal.topic).1] at hbad
          cases hbad
        · exact htopic.elim hstar fun h => hother h.symm
      · rintro ⟨hlatest, hkeyed, hmem⟩
        exact hkeys event List.mem_cons_self hlatest (ofString_ne_nil.mp hkeyed) hmem
      · apply ih
        · exact fun event' hmem => hread event' (List.mem_cons_of_mem _ hmem)
        · exact hascending.1
        · exact hascending.2
        · exact fun hlatest => (List.pairwise_cons.mp (hsingle hlatest)).2
        · intro event' hmem hlatest hkeyed hin
          split_ifs at hin with hadded
          · rcases List.mem_cons.mp hin with heq | hin
            · apply (List.pairwise_cons.mp (hsingle hlatest)).1 event' hmem
              exact (rivals_of_identity (hread event' (List.mem_cons_of_mem _ hmem)).legal hlegal hkeyed heq).symm
            · exact hkeys event' (List.mem_cons_of_mem _ hmem) hlatest hkeyed hin
          · exact hkeys event' (List.mem_cons_of_mem _ hmem) hlatest hkeyed hin

end VeloBus.Client

namespace VeloBus

open Codec

/-! ### The stores of a broker -/

/-- The stores reached from an opened one by the requests the decoder accepts. -/
inductive Store.Served (hash : Bytes → UInt32) : Store → Prop where
  | memory {maxRetainedBytes maxWalBytes : Nat} (budget : maxRetainedBytes ≤ u64Max) :
      Served hash (memory maxRetainedBytes maxWalBytes)
  | disk {content : Bytes} {maxRetainedBytes maxWalBytes : Nat} {calls : List Disk.Call} {store : Store}
      (budget : maxRetainedBytes ≤ u64Max)
      (opened : disk hash content maxRetainedBytes maxWalBytes = (calls, .ok store)) : Served hash store
  | publish {store : Store} {body : Bytes} {records : List Record} (fault : Option Fault)
      (decoded : decodeRequest 2 body = .ok (.publish records)) :
      Served hash store → Served hash (store.publish hash records fault).1
  | fetch {store : Store} (request : Fetch) : Served hash store → Served hash (store.fetch request).1

/-- What a served store keeps. -/
structure Store.Kept (store : Store) : Prop where
  numbered : store.Numbered
  legal : ∀ event ∈ store.events, event.record.Legal
  bytes : 256 * store.events.length ≤ store.retainedBytes
  room : store.retainedBytes ≤ store.maxRetainedBytes
  budget : store.maxRetainedBytes ≤ u64Max

namespace Store

theorem retained_least (records : List Record) : 256 * records.length ≤ retained records := by
  induction records with
  | nil => exact le_rfl
  | cons record records ih =>
      rw [retained] at ih ⊢
      rw [List.length_cons, List.map_cons, List.sum_cons, Record.retainedBytes]
      omega

theorem mem_number {first : Nat} {records : List Record} {event : Event} (h : event ∈ number first records) :
    event.record ∈ records := by
  rw [← map_record_number first records]
  exact List.mem_map_of_mem h

theorem Kept.accepted {store store' : Store} (h : store.Kept) {records : List Record}
    (hlegal : ∀ record ∈ records, record.Legal) (haccepts : store.Accepts records)
    (hevents : store'.events = (store.accepted records).events)
    (hretained : store'.retainedBytes = (store.accepted records).retainedBytes)
    (hmax : store'.maxRetainedBytes = store.maxRetainedBytes) : store'.Kept where
  numbered := h.numbered.append hevents
  legal := by
    rw [hevents]
    intro event hmem
    rcases List.mem_append.mp hmem with hmem | hmem
    · exact h.legal event hmem
    · exact hlegal _ (mem_number hmem)
  bytes := by
    have hleast := retained_least records
    have hbytes := h.bytes
    rw [hevents, hretained]
    simp only [Store.accepted, List.length_append, length_number]
    omega
  room := by
    have hroom := h.room
    have hfits := haccepts.retained
    rw [hretained, hmax]
    simp only [Store.accepted]
    omega
  budget := hmax ▸ h.budget

theorem Kept.publish {hash : Bytes → UInt32} {store : Store} (h : store.Kept) {records : List Record}
    (hlegal : ∀ record ∈ records, record.Legal) (fault : Option Fault) :
    (store.publish hash records fault).1.Kept := by
  have hcases := publish_cases hash store records fault
  generalize store.publish hash records fault = out at hcases
  cases hcases with
  | refused error => exact h
  | failed wal kept error hwal haccepts hfault => exact ⟨h.numbered, h.legal, h.bytes, h.room, h.budget⟩
  | durable wal hwal haccepts hfault => exact h.accepted hlegal haccepts rfl rfl rfl
  | volatile hwal haccepts => exact h.accepted hlegal haccepts rfl rfl rfl

theorem Served.kept {hash : Bytes → UInt32} {store : Store} (h : store.Served hash) : store.Kept := by
  induction h with
  | memory budget => exact ⟨⟨[], rfl⟩, nofun, Nat.zero_le _, Nat.zero_le _, budget⟩
  | disk budget opened =>
      obtain ⟨log, tail, hopens, -, rfl⟩ := disk_eq_ok.mp opened
      refine ⟨⟨log.flatten, rfl⟩, ?_, ?_, hopens.retained, budget⟩
      · intro event hmem
        obtain ⟨records, hrecords, hmem⟩ := List.mem_flatten.mp (mem_number hmem)
        rw [← Batch.map_records_layout 1 log] at hrecords
        obtain ⟨batch, hbatch, rfl⟩ := List.mem_map.mp hrecords
        exact (hopens.legal batch hbatch).records.legal.legal _ hmem
      · exact (congrArg (256 * ·) (length_number 1 log.flatten)).trans_le (retained_least _)
  | publish fault decoded _ ih =>
      obtain ⟨hlegal, -, -⟩ := decodeRequest_eq_ok.mp decoded
      exact ih.publish hlegal.legal fault
  | fetch request _ ih =>
      obtain ⟨fetched, coalesced, hfetch⟩ := fetch_counters _ request
      rw [hfetch]
      exact ⟨ih.numbered, ih.legal, ih.bytes, ih.room, ih.budget⟩

theorem publish_eq_ok {hash : Bytes → UInt32} {store next : Store} {records : List Record}
    {fault : Option Fault} {calls : List Disk.Call} {receipt : Bytes}
    (h : store.publish hash records fault = (next, calls, .ok receipt)) :
    store.Accepts records ∧ next.events = store.events ++ number (store.lastSequence + 1) records ∧
      receipt = store.acceptedReceipt records := by
  have hcases := publish_cases hash store records fault
  rw [h] at hcases
  cases hcases with
  | durable wal hwal haccepts hfault => exact ⟨haccepts, rfl, rfl⟩
  | volatile hwal haccepts => exact ⟨haccepts, rfl, rfl⟩

theorem Kept.lastSequence_lt {store : Store} (h : store.Kept) : store.lastSequence < 2 ^ 64 := by
  have hbytes := h.bytes
  have hroom := h.room
  have hbudget := h.budget
  rw [u64Max] at hbudget
  rw [lastSequence]
  omega

end Store

theorem length_encodeEvent (event : Event) : (encodeEvent event).length = event.record.wireBytes := by
  rw [encodeEvent, List.length_append, Bytes.length_toBe, Wal.length_encodeRecord, Record.wireBytes]
  omega

theorem FetchResult.length_encode (result : FetchResult) :
    result.encode.length = 11 + (result.events.map fun event => event.record.wireBytes).sum := by
  simp only [encode, List.length_append, Bytes.length_toBe, List.length_singleton, List.length_flatMap,
    length_encodeEvent]

theorem responseFrame_of_fits {body : Bytes} (h : body.length ≤ maxFrame - 5) (opcode requestId : Nat) :
    responseFrame opcode requestId body = envelope opcode requestId body := by
  rw [responseFrame, if_neg (not_lt.mpr h)]

namespace Client

def FetchResult.of (result : VeloBus.FetchResult) : FetchResult where
  cursor := result.cursor
  events := result.events.map Event.of
  hasMore := result.hasMore

theorem fetch_accepted {store next : Store} (hkept : store.Kept) {topic : Value} {query : Query} {s : String}
    (htopic : topic = .text (Text.ofString s)) (hlegal : (query.request s).Legal)
    {result : VeloBus.FetchResult}
    (hfetch : store.fetch ⟨s, query.after, query.limit, query.maxBytes, query.latest⟩ = (next, .ok result)) :
    result.encode.length ≤ VeloBus.maxFrame - 5 ∧
      parseFetch topic query result.encode = .ok (FetchResult.of result) := by
  obtain ⟨-, -, ⟨hleast, hmost⟩, hone, hmax⟩ := hlegal
  have hpage := Store.fetch_eq_ok hkept.numbered hfetch
  have hbounded := Store.fetch_bounded hfetch
  have hcount : result.events.length ≤ query.limit := hbounded.count
  have hbytes : (result.events.map fun event => event.record.wireBytes).sum ≤ query.maxBytes := hbounded.bytes
  have hlast := hkept.lastSequence_lt
  have hcursor : result.cursor < 2 ^ 64 := hpage.cursor_le.trans_lt hlast
  have hlength := result.length_encode
  rw [maxBatch] at hmost
  rw [VeloBus.maxFetchBytes] at hmax
  dsimp only at hleast hmost hone hmax
  -- The events are matches in the part of the log between the two cursors.
  have hmem : ∀ event ∈ result.events, event ∈ store.events ∧ query.after < event.sequence ∧
      event.sequence ≤ result.cursor ∧ (s = "*" ∨ s = event.record.topic) := by
    intro event hevent
    obtain ⟨hpart, hmatches⟩ := Fetch.mem_found.mp (hpage.merged.summary.subset hevent)
    obtain ⟨records, hrecords⟩ := hkept.numbered
    rw [hrecords, ← Store.filter_number, ← hrecords, List.mem_filter, decide_eq_true_iff] at hpart
    exact ⟨hpart.1, hpart.2.1, hpart.2.2, of_decide_eq_true hmatches⟩
  have hread : ∀ event ∈ result.events, Readable topic result.cursor event := by
    intro event hevent
    obtain ⟨hin, -, hle, hmatches⟩ := hmem event hevent
    refine ⟨hkept.legal event hin, hle.trans_lt hcursor, hle, ?_⟩
    rcases hmatches with rfl | rfl
    · exact Or.inl htopic
    · exact Or.inr htopic
  have hencode : result.encode = Bytes.toBe 8 result.cursor ++ (Bytes.toBe 2 result.events.length ++
      ((if result.hasMore then 1 else 0) :: (result.events.flatMap encodeEvent ++ []))) := by
    simp only [VeloBus.FetchResult.encode, List.append_assoc, List.singleton_append, List.append_nil]
  refine ⟨?_, ?_⟩
  · rw [hlength, VeloBus.maxFrame]
    omega
  · simp only [parseFetch, bind_eq_ok, check_eq_ok, pure_eq_ok, Prod.exists]
    rw [hlength, hencode]
    refine ⟨result.cursor, _, Reader.uint_toBe hcursor _, result.events.length, _, Reader.uint_toBe (by omega) _,
      result.hasMore, _, Reader.bool_flag _ _, ?_, result.events.map Event.of, [],
      parseEvents_encode [] hread (fun event h => (hmem event h).2.1) hpage.ascending hbounded.single (by simp),
      (), rfl, rfl⟩
    rintro (hlt | hlt | hlt | ⟨hmore, hstuck⟩)
    · exact absurd hpage.start (not_le.mpr hlt)
    · omega
    · omega
    · have hmoved : query.after < result.cursor := Store.fetch_progress hkept.numbered hleast hfetch hmore
      omega

theorem receipt_accepted {hash : Bytes → UInt32} {store next : Store} {records : List Record} (hlegal : LegalBatch records) {fault : Option Fault} {calls : List Disk.Call}
    {receipt : Bytes} (h : store.publish hash records fault = (next, calls, .ok receipt)) :
    receipt.length = 19 ∧
      next.events = store.events ++ Store.number (store.lastSequence + 1) records ∧
      parseReceipt records.length receipt = .ok ⟨store.lastSequence + 1, store.lastSequence + records.length,
        records.length, store.wal.isSome⟩ := by
  obtain ⟨haccepts, hevents, rfl⟩ := Store.publish_eq_ok h
  have hlast := haccepts.sequences
  have hone := hlegal.nonempty
  have hmost := hlegal.atMost
  rw [u64Max] at hlast
  rw [maxBatch] at hmost
  refine ⟨?_, hevents, ?_⟩
  · simp only [Store.acceptedReceipt, Store.receipt, List.length_append, Bytes.length_toBe, List.length_singleton]
  · simp only [parseReceipt, bind_eq_ok, check_eq_ok, pure_eq_ok, Prod.exists, Store.acceptedReceipt,
      Store.receipt, List.append_assoc]
    refine ⟨store.lastSequence + 1, _, Reader.uint_toBe (by omega) _, store.lastSequence + records.length, _,
      Reader.uint_toBe (by omega) _, records.length, _, Reader.uint_toBe (by omega) _, store.wal.isSome, _,
      Reader.bool_flag _ _, (), rfl, ?_, rfl⟩
    rintro (hne | hzero | hne)
    · exact hne rfl
    · omega
    · apply hne
      push_cast
      omega

/-- **Every reply to a publish or a fetch is accepted, and means what the store did.** -/
theorem replies_accepted (hash : Bytes → UInt32) (store : Store) (h : store.Served hash) :
    (∀ topic options checked body request next result requestId,
      query topic options = .ok checked → fetch topic options = .ok body →
      decodeRequest 3 body = .ok (.fetch request) → store.fetch request = (next, .ok result) →
        responseFrame 0x83 requestId result.encode = VeloBus.envelope 0x83 requestId result.encode ∧
        parseFetch topic checked result.encode = .ok (FetchResult.of result)) ∧
    ∀ givens body records fault next calls receipt requestId,
      publishBatch (some givens) = .ok body → decodeRequest 2 body = .ok (.publish records) →
      store.publish hash records fault = (next, calls, .ok receipt) →
        responseFrame 0x82 requestId receipt = VeloBus.envelope 0x82 requestId receipt ∧
        next.events = store.events ++ Store.number (store.lastSequence + 1) records ∧
        parseReceipt givens.length receipt = .ok ⟨store.lastSequence + 1,
          store.lastSequence + givens.length, givens.length, store.wal.isSome⟩ := by
  refine ⟨?_, ?_⟩
  · intro topic options checked body request next result requestId hquery hbody hdecode hfetch
    obtain ⟨s, htopic, hsent, hlegal, -⟩ := fetch_query hquery
    obtain rfl := Except.ok.inj (hsent.symm.trans hbody)
    have hrequest := hdecode.symm.trans (decodeRequest_eq_ok.mpr ⟨hlegal, rfl, rfl⟩)
    obtain rfl := Request.fetch.inj (Except.ok.inj hrequest)
    obtain ⟨hfits, haccepted⟩ := fetch_accepted h.kept htopic hlegal hfetch
    exact ⟨responseFrame_of_fits hfits _ _, haccepted⟩
  · intro givens body records fault next calls receipt requestId hbody hdecode hpublish
    obtain ⟨-, request, hlegal, hopcode, rfl, hmeans⟩ := publishBatch_ok hbody
    obtain rfl := Except.ok.inj (hdecode.symm.trans (decodeRequest_eq_ok.mpr ⟨hlegal, hopcode, rfl⟩))
    obtain ⟨_, hgivens, hsame⟩ := hmeans
    obtain rfl := Option.some.inj hgivens
    obtain ⟨hlength, hevents, hparse⟩ := receipt_accepted hlegal hpublish
    rw [hsame.length_eq]
    exact ⟨responseFrame_of_fits (hlength.trans_le (by decide)) _ _, hevents, hparse⟩

/-! ### Three records -/

def orders : List Record := [⟨"orders", "k", [1]⟩, ⟨"orders", "k", [2]⟩, ⟨"orders", "m", [3]⟩]

def ordersBody : Bytes := VeloBus.encodeRecords orders

/-- A memory store with these records. -/
def threeOrders : Store := ((Store.memory 9000 0).publish (fun _ => 0) orders none).1

def latestOrders : FetchOptions := ⟨.undefined, .number 1, .undefined, .text (Text.ofString "latest")⟩

def latestBody : Bytes := [0, 6, 111, 114, 100, 101, 114, 115, 0, 0, 0, 0, 0, 0, 0, 0, 0, 1, 0, 8, 0, 0, 1]

/-- The fetch, checked. -/
def latestQuery : Query := ⟨[111, 114, 100, 101, 114, 115], 0, 1, 524288, true⟩

/-- The last value of the first key. -/
def latestResult : VeloBus.FetchResult := ⟨2, [⟨2, ⟨"orders", "k", [2]⟩⟩], true⟩

theorem decode_orders : decodeRequest 2 ordersBody = .ok (.publish orders) ∧
    decodeRequest 3 latestBody = .ok (.fetch ⟨"orders", 0, 1, 524288, true⟩) := by
  decide +kernel

theorem fetch_latest : ∃ next, threeOrders.fetch ⟨"orders", 0, 1, 524288, true⟩ = (next, .ok latestResult) := by
  have hfetch : (threeOrders.fetch ⟨"orders", 0, 1, 524288, true⟩).2 = .ok latestResult := by decide +kernel
  exact ⟨_, Prod.ext rfl hfetch⟩

theorem replies_accepted_latest :
    parseFetch (.text (Text.ofString "orders")) latestQuery latestResult.encode =
      .ok ⟨2, [⟨2, Text.ofString "orders", Text.ofString "k", [2]⟩], true⟩ := by
  have hserved : threeOrders.Served (fun _ => 0) := .publish none decode_orders.1 (.memory (by decide))
  have hquery : query (.text (Text.ofString "orders")) latestOrders = .ok latestQuery := by decide +kernel
  have hbody : fetch (.text (Text.ofString "orders")) latestOrders = .ok latestBody := by decide +kernel
  obtain ⟨next, hfetch⟩ := fetch_latest
  exact ((replies_accepted _ _ hserved).1 _ _ _ _ _ _ _ 1 hquery hbody decode_orders.2 hfetch).2

end Client

end VeloBus
