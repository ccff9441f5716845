import VeloBus.Disk
import VeloBus.Protocol

/-! The write-ahead log: frames, the recovery loop of `Wal::open`, and `append`. Each method returns the
file-system calls it makes in order, beside its result. The checksum is a parameter. The lock on the
file is held throughout, so one process at a time has it open. -/

namespace VeloBus

/-- The arguments of one `append`. -/
structure Batch where
  first : Nat
  records : List Record
deriving DecidableEq, Repr

/-- `offset` is the position of the file handle. -/
structure Wal where
  offset : Nat
  bytes : Nat
  maxBytes : Nat
deriving DecidableEq, Repr

/-- An injected failure of `append`: its write stops after some bytes, or its `sync_all` fails. -/
inductive Fault where
  | write (kept : Nat) (error : String)
  | sync (error : String)
deriving DecidableEq, Repr

namespace Wal

def magic : Bytes := [0x56, 0x4c, 0x4f, 0x57, 0x41, 0x4c, 0x30, 0x31]

def headerBytes : Nat := 12

def storage (error : String) : Error := ⟨Code.storage, "WAL I/O: " ++ error⟩

section

variable (hash : Bytes → UInt32)

/-- The body of a frame. -/
def body (batch : Batch) : Bytes := Bytes.toBe 8 batch.first ++ encodeRecords batch.records

/-- Body length, body checksum, checksum of these two, body. -/
def frame (batch : Batch) : Bytes :=
  let body := body batch
  let start := Bytes.toBe 4 body.length ++ Bytes.toBe 4 (hash body).toNat
  start ++ Bytes.toBe 4 (hash start).toNat ++ body

/-- What `open` finds at a position before the end of the file. -/
inductive Found where
  | torn
  | batch (batch : Batch) (size : Nat)

def decodeBatch (body : Bytes) : Except Error Batch := do
  let (first, reader) ← Reader.u64 body
  let (records, reader) ← decodeRecords reader
  reader.finish
  return ⟨first, records⟩

/-- The body of the recovery loop up to the replay; `rest` is the file from `position` on. -/
def readFrame (position : Nat) (rest : Bytes) : Except Error Found :=
  if rest.length < headerBytes then .ok .torn
  else
    let header := rest.take headerBytes
    let headerCrc := Bytes.ofBe (header.drop 8)
    if (hash (header.take 8)).toNat ≠ headerCrc then
      .error ⟨Code.storage, s!"WAL header checksum mismatch at byte {position}"⟩
    else
      let bodyLength := Bytes.ofBe (header.take 4)
      let expectedCrc := Bytes.ofBe ((header.drop 4).take 4)
      -- firstSequence (8) plus a validated publish body (at most MAX_FRAME - 5).
      if bodyLength < 19 ∨ maxFrame + 3 < bodyLength then
        .error ⟨Code.storage, s!"invalid WAL batch length at byte {position}"⟩
      else if rest.length < headerBytes + bodyLength then .ok .torn
      else
        let body := (rest.drop headerBytes).take bodyLength
        if (hash body).toNat ≠ expectedCrc then
          .error ⟨Code.storage, s!"WAL batch checksum mismatch at byte {position}"⟩
        else
          match decodeBatch body with
          | .error error => .error (storage error.message)
          | .ok batch => .ok (.batch batch (headerBytes + bodyLength))

theorem readFrame_size {position : Nat} {rest : Bytes} {batch : Batch} {size : Nat}
    (h : readFrame hash position rest = .ok (.batch batch size)) :
    headerBytes ≤ size ∧ size ≤ rest.length := by
  unfold readFrame at h
  simp only at h
  split_ifs at h with hshort hcrc hlength hend
  · cases h
  · cases h
  · split at h
    · cases h
    · cases h
      exact ⟨Nat.le_add_right _ _, by omega⟩

/-- Where recovery ended: the length kept, whether a tail after it was cut off, and the state. -/
structure Recovery (σ : Type) where
  length : Nat
  torn : Bool
  state : σ

/-- The recovery loop of `open`. -/
def recover {σ : Type} (replay : σ → Batch → Except Error σ) (position : Nat) (rest : Bytes)
    (state : σ) : Except Error (Recovery σ) :=
  if rest = [] then .ok ⟨position, false, state⟩
  else
    match _h : readFrame hash position rest with
    | .error error => .error error
    | .ok .torn => .ok ⟨position, true, state⟩
    | .ok (.batch batch size) =>
      match replay state batch with
      | .error error => .error error
      | .ok state => recover replay (position + size) (rest.drop size) state
termination_by rest.length
decreasing_by
  obtain ⟨hpos, hle⟩ := readFrame_size hash _h
  rw [headerBytes] at hpos
  rw [List.length_drop]
  omega

/-- `Wal::open` on a file with this content. -/
def openLog {σ : Type} (content : Bytes) (maxBytes : Nat) (replay : σ → Batch → Except Error σ)
    (state : σ) : List Disk.Call × Except Error (Wal × σ) :=
  if maxBytes < content.length then
    ([], .error ⟨Code.capacity, "existing WAL exceeds configured max-wal-bytes"⟩)
  else
    let calls : List Disk.Call := if content = [] then [.write 0 magic, .sync] else []
    let content := if content = [] then magic else content
    if content.length < magic.length then
      (calls, .error ⟨Code.storage, "incomplete WAL file header"⟩)
    else if content.take magic.length ≠ magic then
      (calls, .error ⟨Code.storage, "invalid WAL file header"⟩)
    else
      match recover hash replay magic.length (content.drop magic.length) state with
      | .error error => (calls, .error error)
      | .ok recovery =>
        let tail : List Disk.Call := if recovery.torn then [.setLen recovery.length, .sync] else []
        (calls ++ tail, .ok (⟨recovery.length, recovery.length, maxBytes⟩, recovery.state))

def batchBytes (records : List Record) : Nat :=
  headerBytes + 8 + 2 + (records.map fun record => record.wireBytes - 8).sum

def checkCapacity (wal : Wal) (records : List Record) : Except Error Unit :=
  if wal.maxBytes - wal.bytes < batchBytes records then
    .error ⟨Code.capacity, "WAL capacity reached; batch was not written"⟩
  else .ok ()

/-- The calls of an `append` that nothing disturbs. -/
def appendCalls (wal : Wal) (batch : Batch) : List Disk.Call :=
  [.write wal.offset (frame hash batch), .sync]

def append (wal : Wal) (batch : Batch) (fault : Option Fault) :
    Wal × List Disk.Call × Except Error Unit :=
  match wal.checkCapacity batch.records with
  | .error error => (wal, [], .error error)
  | .ok () =>
    let frame := frame hash batch
    match fault with
    | some (.write kept error) =>
      ({ wal with offset := wal.offset + min kept frame.length },
        [.write wal.offset (frame.take kept)], .error (storage error))
    | some (.sync error) =>
      ({ wal with offset := wal.offset + frame.length }, [.write wal.offset frame],
        .error (storage error))
    | none =>
      ({ wal with offset := wal.offset + frame.length, bytes := wal.bytes + frame.length },
        appendCalls hash wal batch, .ok ())

end

end Wal

end VeloBus
