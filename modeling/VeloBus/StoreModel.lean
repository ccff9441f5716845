import VeloBus.Table
import VeloBus.WalModel
import Mathlib.Data.List.Sort

/-! The event store. `panicked` in the state of a fetch records an index out of range or a subtraction
below zero. -/

namespace VeloBus

structure Store where
  events : List Event
  retainedBytes : Nat
  maxRetainedBytes : Nat
  maxWalBytes : Nat
  wal : Option Wal
  poisoned : Bool
  publishedRecords : Nat
  fetchedRecords : Nat
  coalescedRecords : Nat
deriving DecidableEq, Repr

structure FetchResult where
  cursor : Nat
  events : List Event
  hasMore : Bool
deriving DecidableEq, Repr

def encodeEvent (event : Event) : Bytes := Bytes.toBe 8 event.sequence ++ encodeRecord event.record

def FetchResult.encode (result : FetchResult) : Bytes :=
  Bytes.toBe 8 result.cursor ++ Bytes.toBe 2 result.events.length ++ [if result.hasMore then 1 else 0] ++
    result.events.flatMap encodeEvent

namespace Store

def memory (maxRetainedBytes maxWalBytes : Nat) : Store where
  events := []
  retainedBytes := 0
  maxRetainedBytes := maxRetainedBytes
  maxWalBytes := maxWalBytes
  wal := none
  poisoned := false
  publishedRecords := 0
  fetchedRecords := 0
  coalescedRecords := 0

def lastSequence (store : Store) : Nat := store.events.length

def checkRetainedCapacity (store : Store) (records : List Record) : Except Error Nat :=
  let bytes := (records.map Record.retainedBytes).sum
  if store.maxRetainedBytes - store.retainedBytes < bytes then
    .error ⟨Code.capacity, "retained history capacity reached; batch was not written"⟩
  else .ok bytes

/-- The events of a batch whose first record has sequence `first`. -/
def number (first : Nat) (records : List Record) : List Event :=
  records.mapIdx fun index record => ⟨first + index, record⟩

def commit (store : Store) (first : Nat) (records : List Record) (bytes : Nat) : Store :=
  { store with
    events := store.events ++ number first records
    retainedBytes := store.retainedBytes + bytes }

/-- The closure `disk` passes to `Wal::open`. -/
def replay (store : Store) (batch : Batch) : Except Error Store :=
  if batch.first ≠ store.lastSequence + 1 then
    .error ⟨Code.storage, "nonconsecutive sequence numbers in WAL"⟩
  else
    match store.checkRetainedCapacity batch.records with
    | .error error => .error error
    | .ok bytes => .ok (store.commit batch.first batch.records bytes)

/-- Opening a directory whose `events.wal` has this content. -/
def disk (hash : Bytes → UInt32) (content : Bytes) (maxRetainedBytes maxWalBytes : Nat) :
    List Disk.Call × Except Error Store :=
  match Wal.openLog hash content maxWalBytes replay (memory maxRetainedBytes maxWalBytes) with
  | (calls, .error error) => (calls, .error error)
  | (calls, .ok (wal, store)) => (calls, .ok { store with wal := some wal })

/-- What a successful publish answers. -/
def receipt (first last count : Nat) (durable : Bool) : Bytes :=
  Bytes.toBe 8 first ++ Bytes.toBe 8 last ++ Bytes.toBe 2 count ++ [if durable then 1 else 0]

/-- The log write of a publish, which a memory store does not have. -/
def log (hash : Bytes → UInt32) (store : Store) (batch : Batch) (fault : Option Fault) :
    Store × List Disk.Call × Except Error Unit :=
  match store.wal with
  | none => (store, [], .ok ())
  | some wal =>
    match wal.checkCapacity batch.records with
    | .error error => (store, [], .error error)
    | .ok () =>
      -- Capacity failures are certain and do not poison the store; I/O failures do.
      match wal.append hash batch fault with
      | (wal, calls, .error error) =>
        ({ store with wal := some wal, poisoned := true }, calls, .error error)
      | (wal, calls, .ok ()) => ({ store with wal := some wal }, calls, .ok ())

def publish (hash : Bytes → UInt32) (store : Store) (records : List Record)
    (fault : Option Fault) : Store × List Disk.Call × Except Error Bytes :=
  if store.poisoned then
    (store, [], .error ⟨Code.storage,
      "store is read-only after uncertain disk I/O; restart required"⟩)
  else
    match store.checkRetainedCapacity records with
    | .error error => (store, [], .error error)
    | .ok bytes =>
      let count := records.length
      let last := store.lastSequence + count
      if u64Max < last then (store, [], .error ⟨Code.capacity, "sequence range exhausted"⟩)
      else
        let first := store.lastSequence + 1
        match store.log hash ⟨first, records⟩ fault with
        | (store, calls, .error error) => (store, calls, .error error)
        | (store, calls, .ok ()) =>
          let store := store.commit first records bytes
          ({ store with publishedRecords := saturatingAdd store.publishedRecords count }, calls,
            .ok (receipt first last count store.wal.isSome))

end Store

/-! ### Fetch -/

/-- The local variables of `fetch`. -/
structure Page where
  cursor : Nat
  selected : List Event
  positions : Table (String × String) Nat
  wireBytes : Nat
  coalesced : Nat
  panicked : Bool

namespace Fetch

def «matches» (request : Fetch) (record : Record) : Bool :=
  request.topic = "*" ∨ request.topic = record.topic

/-- The position of the event a record would replace. -/
def replace (request : Fetch) (page : Page) (record : Record) : Option Nat :=
  if request.latest ∧ record.key ≠ "" then page.positions.lookup (record.topic, record.key)
  else none

/-- The wire size of the replaced event, and whether it is there. -/
def previousBytes (page : Page) : Option Nat → Nat × Bool
  | none => (0, true)
  | some index =>
    match page.selected[index]? with
    | some event => (event.record.wireBytes, true)
    | none => (0, false)

/-- A matching event that fits is put in place of the one it supersedes, or at the end. -/
def select (request : Fetch) (page : Page) (event : Event) (replace : Option Nat)
    (wireBytes : Nat) : Page :=
  match replace with
  | some index => { page with
      cursor := event.sequence
      selected := page.selected.set index event
      wireBytes := wireBytes
      coalesced := page.coalesced + 1 }
  | none => { page with
      cursor := event.sequence
      selected := page.selected ++ [event]
      positions :=
        if request.latest ∧ event.record.key ≠ "" then
          page.positions.insert (event.record.topic, event.record.key) page.selected.length
        else page.positions
      wireBytes := wireBytes }

/-- The loop of `fetch`. -/
def scan (request : Fetch) : List Event → Page → Except Error Page
  | [], page => .ok page
  | event :: events, page =>
    let record := event.record
    if request.matches record = false then scan request events { page with cursor := event.sequence }
    else
      let replace := request.replace page record
      let (previousBytes, present) := previousBytes page replace
      let panicked := page.panicked || !present || decide (page.wireBytes < previousBytes)
      let page := { page with panicked := panicked }
      let candidateBytes := page.wireBytes - previousBytes + record.wireBytes
      if request.maxBytes < candidateBytes ∨
          (replace = none ∧ page.selected.length = request.limit) then
        if page.selected = [] ∧ request.maxBytes < record.wireBytes then
          .error ⟨Code.limit, "first eligible event exceeds maxBytes; increase the fetch budget"⟩
        else .ok page
      else scan request events (select request page event replace candidateBytes)

end Fetch

namespace Store

def fetch (store : Store) (request : Fetch) : Store × Except Error FetchResult :=
  let last := store.lastSequence
  if last < request.after then
    (store, .error ⟨Code.cursor, "cursor is beyond this log's high-water mark"⟩)
  else
    match request.scan ((store.events.drop request.after).take maxScan)
        ⟨request.after, [], ∅, 0, 0, false⟩ with
    | .error error => (store, .error error)
    | .ok page =>
      let events := page.selected.mergeSort fun a b => a.sequence ≤ b.sequence
      ({ store with
          fetchedRecords := saturatingAdd store.fetchedRecords events.length
          coalescedRecords := saturatingAdd store.coalescedRecords page.coalesced },
        .ok ⟨page.cursor, events, page.cursor < last⟩)

end Store

end VeloBus
