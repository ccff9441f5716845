import VeloBus.Checksum
import VeloBus.StoreAtomicity

/-! A damaged byte. With a checksum that notices a change of one byte, a file of complete frames with one
byte altered is neither opened nor touched: no field can be changed into a shorter log or a torn tail. -/

namespace VeloBus

namespace Wal

section

variable {hash : Bytes → UInt32}

theorem ofBe_ne {a b : Bytes} (hlength : b.length = a.length) (hne : a ≠ b) : Bytes.ofBe a ≠ Bytes.ofBe b := by
  intro h
  apply hne
  rw [← Bytes.toBe_ofBe a, ← Bytes.toBe_ofBe b, h, hlength]

/-- A frame with one altered byte is not read, whatever follows it. -/
theorem readFrame_oneByte (hdetects : Detects hash) {batch : Batch} (hlegal : batch.Legal) {altered : Bytes}
    (h : OneByte (frame hash batch) altered) (position : Nat) (rest : Bytes) :
    ∃ error, readFrame hash position (altered ++ rest) = .error error := by
  set a := Bytes.toBe 4 (body batch).length with ha
  set b := Bytes.toBe 4 (hash (body batch)).toNat with hb
  set c := Bytes.toBe 4 (hash (a ++ b)).toNat with hc
  have hla : a.length = 4 := Bytes.length_toBe _ _
  have hlb : b.length = 4 := Bytes.length_toBe _ _
  have hlc : c.length = 4 := Bytes.length_toBe _ _
  have hcrc : Bytes.ofBe c = (hash (a ++ b)).toNat := Bytes.ofBe_toBe_of_lt (toNat_lt_bytes _)
  rw [frame_eq batch ha hb hc] at h
  -- A header whose checksum does not match its two fields.
  have hheader : ∀ {a' b' c' tail : Bytes}, a'.length = 4 → b'.length = 4 → c'.length = 4 →
      (hash (a' ++ b')).toNat ≠ Bytes.ofBe c' →
        ∃ error, readFrame hash position (a' ++ (b' ++ (c' ++ tail)) ++ rest) = .error error := by
    intro a' b' c' tail ha' hb' hc' hne
    rw [List.append_assoc, List.append_assoc, List.append_assoc, readFrame_header ha' hb' hc', if_pos hne]
    exact ⟨_, rfl⟩
  rcases h.append with ⟨a', ha', rfl⟩ | ⟨_, hfields, rfl⟩
  · apply hheader (ha'.length_eq.trans hla) hlb hlc
    rw [hcrc]
    exact fun heq => hdetects _ _ (ha'.append_right b) (UInt32.toNat_inj.mp heq.symm)
  rcases hfields.append with ⟨b', hb', rfl⟩ | ⟨_, hrest, rfl⟩
  · apply hheader hla (hb'.length_eq.trans hlb) hlc
    rw [hcrc]
    exact fun heq => hdetects _ _ (hb'.append_left a) (UInt32.toNat_inj.mp heq.symm)
  rcases hrest.append with ⟨c', hc', rfl⟩ | ⟨body', hbody', rfl⟩
  · apply hheader hla hlb (hc'.length_eq.trans hlc)
    rw [← hcrc]
    exact ofBe_ne hc'.length_eq hc'.ne
  · obtain ⟨hlow, hhigh⟩ := length_body_bounds hlegal
    have hlength : Bytes.ofBe a = body'.length := by
      rw [hbody'.length_eq]
      apply Bytes.ofBe_toBe_of_lt
      rw [maxFrame] at hhigh
      omega
    have hsum : (hash body').toNat ≠ Bytes.ofBe b := by
      rw [hb, Bytes.ofBe_toBe_of_lt (toNat_lt_bytes _)]
      exact fun heq => hdetects _ _ hbody' (UInt32.toNat_inj.mp heq.symm)
    rw [List.append_assoc, List.append_assoc, List.append_assoc, readFrame_header hla hlb hlc, hlength,
      List.take_left' rfl]
    rw [if_neg (not_ne_iff.mpr hcrc.symm), if_neg, if_neg, if_pos hsum]
    · exact ⟨_, rfl⟩
    · rw [List.length_append]
      omega
    · rw [hbody'.length_eq]
      omega

/-- Frames in front of what cannot be read are not a log with a torn tail. -/
theorem frames_unreadable {batches : List Batch} {rest : Bytes} (hlegal : ∀ batch ∈ batches, batch.Legal)
    (hrest : ∃ error, readFrame hash 0 rest = .error error) {batches' : List Batch} {tail : Bytes}
    (hlegal' : ∀ batch ∈ batches', batch.Legal) (htail : tail = [] ∨ Torn hash tail) :
    batches.flatMap (frame hash) ++ rest ≠ batches'.flatMap (frame hash) ++ tail := by
  obtain ⟨error, hrest⟩ := hrest
  intro h
  have hread := readFrame_frames hlegal' htail 0
  induction batches generalizing batches' with
  | nil =>
      rw [← h, List.flatMap_nil, List.nil_append, hrest] at hread
      cases hread
  | cons batch batches ih =>
      rw [List.flatMap_cons, List.append_assoc] at h
      rw [← h, readFrame_batch.mpr ⟨hlegal batch List.mem_cons_self, List.prefix_append _ _, rfl⟩] at hread
      cases batches' with
      | nil => cases hread
      | cons batch' batches' =>
          obtain ⟨rfl, -⟩ := Found.batch.inj (Except.ok.inj hread)
          rw [List.flatMap_cons, List.append_assoc] at h
          have hlegal'' := fun batch hmem => hlegal' batch (List.mem_cons_of_mem _ hmem)
          exact ih (fun batch hmem => hlegal batch (List.mem_cons_of_mem _ hmem)) hlegal''
            (List.append_cancel_left h) (readFrame_frames hlegal'' htail 0)

end

end Wal

namespace Store

section

variable {hash : Bytes → UInt32}

/-- A store and the file that successful publishes left, in one or several sessions. -/
inductive Produced (hash : Bytes → UInt32) : Store → Disk → Prop where
  | created {maxRetainedBytes maxWalBytes : Nat} {calls : List Disk.Call} {store : Store}
      (hmax : 8 ≤ maxWalBytes)
      (h : disk hash Disk.empty.content maxRetainedBytes maxWalBytes = (calls, .ok store)) :
      Produced hash store (Disk.empty.run calls)
  | reopened {maxRetainedBytes maxWalBytes : Nat} {calls : List Disk.Call} {store store' : Store} {file : Disk}
      (before : Produced hash store file) (hmax : 8 ≤ maxWalBytes)
      (h : disk hash file.content maxRetainedBytes maxWalBytes = (calls, .ok store')) :
      Produced hash store' (file.run calls)
  | published {records : List Record} {calls : List Disk.Call} {receipt : Bytes} {store store' : Store}
      {file : Disk} (before : Produced hash store file) (hrecords : Publishable records)
      (h : store.publish hash records none = (store', calls, .ok receipt)) :
      Produced hash store' (file.run calls)

/-- The file is the image of a log of legal batches. -/
structure Whole (hash : Bytes → UInt32) (store : Store) (file : Disk) (log : List (List Record)) : Prop where
  consistent : Volume.Consistent hash ⟨store, file, log⟩
  sound : store.poisoned = false
  wal : store.wal ≠ none
  legal : ∀ batch ∈ Batch.layout 1 log, batch.Legal

theorem whole_of_disk {file : Disk} {maxRetainedBytes maxWalBytes : Nat} {calls : List Disk.Call} {store : Store}
    (hmax : 8 ≤ maxWalBytes)
    (h : disk hash file.content maxRetainedBytes maxWalBytes = (calls, .ok store)) :
    ∃ log, Whole hash store (file.run calls) log := by
  have hstart : (Volume.session hash).start
      ⟨store, file.run calls, Wal.batches hash file.content maxWalBytes⟩ :=
    ⟨maxRetainedBytes, maxWalBytes, hmax, Or.inr ⟨file, calls, h, rfl, rfl⟩⟩
  obtain ⟨log, tail, hopens, -, rfl⟩ := disk_eq_ok.mp h
  refine ⟨_, Volume.consistent_start hstart, rfl, nofun, ?_⟩
  rw [hopens.batches_eq]
  exact hopens.legal

theorem Whole.publish {store : Store} {file : Disk} {log : List (List Record)} (h : Whole hash store file log)
    {records : List Record} (hrecords : Publishable records) {store' : Store} {calls : List Disk.Call}
    {receipt : Bytes} (hpublish : store.publish hash records none = (store', calls, .ok receipt)) :
    Whole hash store' (file.run calls) (log ++ [records]) := by
  have hconsistent := h.consistent.publish records none
  rw [Volume.next] at hconsistent
  simp only [hpublish] at hconsistent
  have hcases := publish_cases hash store records none
  rw [hpublish] at hcases
  have hlast : store.lastSequence = log.flatten.length := by
    have hevents : store.events = _ := h.consistent.events
    rw [lastSequence, hevents, length_number]
  cases hcases with
  | durable wal hwal haccepts hfault =>
      refine ⟨hconsistent, haccepts.sound, by simp, ?_⟩
      rw [Batch.layout_append]
      refine List.forall_mem_append.mpr ⟨h.legal, ?_⟩
      intro batch hmem
      rw [Batch.layout, Batch.layout, List.mem_singleton] at hmem
      have hsequences := haccepts.sequences
      have hone := hrecords.legal.nonempty
      rw [u64Max, hlast] at hsequences
      rw [hmem]
      exact ⟨show 1 + log.flatten.length < 256 ^ 8 by omega, hrecords⟩
  | volatile hwal haccepts => exact absurd hwal h.wal

theorem Produced.whole {store : Store} {file : Disk} (h : Produced hash store file) :
    ∃ log, Whole hash store file log := by
  induction h with
  | created hmax h => exact whole_of_disk hmax h
  | reopened before hmax h ih => exact whole_of_disk hmax h
  | published before hrecords h ih =>
      obtain ⟨log, hwhole⟩ := ih
      exact ⟨_, hwhole.publish hrecords h⟩

/-- An image with one altered byte does not open. -/
theorem disk_oneByte (hdetects : Detects hash) {log : List (List Record)}
    (hlegal : ∀ batch ∈ Batch.layout 1 log, batch.Legal) {altered : Bytes}
    (h : OneByte (Wal.image hash log) altered) (maxRetainedBytes maxWalBytes : Nat) :
    ∃ error, disk hash altered maxRetainedBytes maxWalBytes = ([], .error error) := by
  rcases hopening : disk hash altered maxRetainedBytes maxWalBytes with ⟨calls, error | store⟩
  · obtain rfl := disk_error hopening
    exact ⟨error, rfl⟩
  · exfalso
    obtain ⟨log', tail, hopens, -, -⟩ := disk_eq_ok.mp hopening
    have hlong : Wal.magic.length ≤ altered.length := by
      rw [h.length_eq, Wal.image, List.length_append]
      exact Nat.le_add_right _ _
    have hbytes : altered = Wal.image hash log' ++ tail := by
      refine (hopens.content_eq.resolve_left ?_).2
      rintro ⟨rfl, -, -⟩
      exact absurd hlong (by decide)
    rw [Wal.image, List.append_assoc] at hbytes
    rw [Wal.image] at h
    rcases h.append with ⟨magic, hmagic, rfl⟩ | ⟨frames, hframes, rfl⟩
    · exact hmagic.ne (List.append_inj hbytes hmagic.length_eq).1.symm
    · obtain ⟨before, batch, after, part, hlayout, hpart, rfl⟩ := hframes.flatMap
      rw [hlayout] at hlegal
      have hrest := Wal.readFrame_oneByte hdetects (hlegal batch (by simp)) hpart 0
        (after.flatMap (Wal.frame hash))
      exact Wal.frames_unreadable (fun b hb => hlegal b (List.mem_append_left _ hb)) hrest hopens.legal
        hopens.ending (List.append_cancel_left hbytes)

/-- **One altered byte is found and the file is left as it is.** -/
theorem corruption_detected (hdetects : Detects hash) {store : Store} {file : Disk}
    (h : Produced hash store file) {offset : Nat} (hoffset : offset < file.content.length) {mask : UInt8}
    (hmask : mask ≠ 0) {altered : Disk} (haltered : altered.content = file.content.modify offset (· ^^^ mask))
    (maxRetainedBytes maxWalBytes : Nat) :
    ∃ error, (disk hash altered.content maxRetainedBytes maxWalBytes).2 = .error error ∧
      altered.run (disk hash altered.content maxRetainedBytes maxWalBytes).1 = altered := by
  obtain ⟨log, hwhole⟩ := h.whole
  have hone := OneByte.modify hoffset hmask
  have hcontent : file.content = Wal.image hash log := hwhole.consistent.content hwhole.wal hwhole.sound
  rw [← haltered, hcontent] at hone
  obtain ⟨error, hopening⟩ := disk_oneByte hdetects hwhole.legal hone maxRetainedBytes maxWalBytes
  rw [hopening]
  exact ⟨error, rfl, rfl⟩

/-- A flipped bit in the length field of the only frame, with CRC-32. -/
theorem corruption_detected_length :
    ∃ error, (disk Crc32.crc32 ((Wal.magic ++ Wal.frame Crc32.crc32 ⟨1, [⟨"a", "", [1]⟩]⟩).modify 8 (· ^^^ 1))
      1000 1000).2 = .error error := by
  have hopening : disk Crc32.crc32 Disk.empty.content 1000 1000 =
      ([.write 0 Wal.magic, .sync], .ok (ofLog Crc32.crc32 1000 1000 [])) :=
    disk_eq_ok.mpr ⟨[], [], ⟨by decide, by decide, nofun, rfl, Or.inl rfl⟩, rfl, rfl⟩
  have h := (Produced.created (by decide) hopening).published (Wal.publishable_single 1) rfl
  set file := (Disk.empty.run [.write 0 Wal.magic, .sync]).run
    (Wal.appendCalls Crc32.crc32 ⟨8, 8, 1000⟩ ⟨1, [⟨"a", "", [1]⟩]⟩) with hfile
  have hcontent : file.content = Wal.magic ++ Wal.frame Crc32.crc32 ⟨1, [⟨"a", "", [1]⟩]⟩ :=
    Disk.content_append (Disk.empty.run [.write 0 Wal.magic, .sync]) _
  have hoffset : 8 < file.content.length := by
    rw [hcontent, List.length_append, Wal.length_frame]
    exact Nat.lt_add_of_pos_right (Nat.add_pos_left (by decide) _)
  have hmask : (1 : UInt8) ≠ 0 := by decide
  have haltered : (⟨file.content.modify 8 (· ^^^ 1), 0, Nat.zero_le _⟩ : Disk).content =
      file.content.modify 8 (· ^^^ 1) := rfl
  obtain ⟨error, herror, -⟩ :=
    corruption_detected Crc32.crc32_detects h hoffset hmask haltered 1000 1000
  rw [haltered, hcontent] at herror
  exact ⟨error, herror⟩

end

end Store

end VeloBus
