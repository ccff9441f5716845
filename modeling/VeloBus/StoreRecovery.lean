import VeloBus.Checksum
import VeloBus.WalRecovery

/-! Opening a store. The log is a list of batches numbered from one; its image is the file a writer of
these batches leaves. Opening succeeds exactly on an image with a torn tail, within both budgets. -/

namespace VeloBus

open Codec

/-- The batches of a log whose next sequence is `first`. -/
def Batch.layout : Nat → List (List Record) → List Batch
  | _, [] => []
  | first, records :: log => ⟨first, records⟩ :: layout (first + records.length) log

theorem Batch.layout_append (first : Nat) (log log' : List (List Record)) :
    layout first (log ++ log') = layout first log ++ layout (first + log.flatten.length) log' := by
  induction log generalizing first with
  | nil => rfl
  | cons records log ih =>
      rw [List.cons_append, layout, layout, ih, List.flatten_cons, List.length_append, Nat.add_assoc,
        List.cons_append]

theorem Batch.length_layout (first : Nat) (log : List (List Record)) :
    (layout first log).length = log.length := by
  induction log generalizing first with
  | nil => rfl
  | cons records log ih => rw [layout, List.length_cons, ih, List.length_cons]

theorem Batch.map_records_layout (first : Nat) (log : List (List Record)) :
    (layout first log).map Batch.records = log := by
  induction log generalizing first with
  | nil => rfl
  | cons records log ih => rw [layout, List.map_cons, ih]

/-- The file with the frames of these batches. -/
def Wal.image (hash : Bytes → UInt32) (log : List (List Record)) : Bytes :=
  magic ++ (Batch.layout 1 log).flatMap (frame hash)

/-- An image with nothing but the magic. -/
theorem Wal.image_eq_magic {hash : Bytes → UInt32} {log : List (List Record)}
    (h : (Wal.image hash log).length ≤ Wal.magic.length) : log = [] := by
  cases log with
  | nil => rfl
  | cons records log =>
      rw [image, Batch.layout, List.flatMap_cons, List.length_append, List.length_append,
        length_frame, headerBytes] at h
      omega

namespace Store

theorem number_append (first : Nat) (records records' : List Record) :
    number first (records ++ records') =
      number first records ++ number (first + records.length) records' := by
  simp only [number, List.mapIdx_append, Nat.add_comm, Nat.add_left_comm]

@[simp] theorem length_number (first : Nat) (records : List Record) :
    (number first records).length = records.length := List.length_mapIdx

def retained (records : List Record) : Nat := (records.map Record.retainedBytes).sum

theorem retained_append (records records' : List Record) :
    retained (records ++ records') = retained records + retained records' := by
  rw [retained, List.map_append, List.sum_append, retained, retained]

theorem checkRetainedCapacity_eq_ok {store : Store} {records : List Record} {bytes : Nat}
    (hfit : store.retainedBytes ≤ store.maxRetainedBytes) :
    store.checkRetainedCapacity records = .ok bytes ↔
      bytes = retained records ∧
        store.retainedBytes + retained records ≤ store.maxRetainedBytes := by
  rw [checkRetainedCapacity]
  simp only [← show retained records = (records.map Record.retainedBytes).sum from rfl]
  split_ifs with hfull
  · constructor
    · intro h
      cases h
    · rintro ⟨-, h⟩
      omega
  · constructor
    · intro h
      cases h
      exact ⟨rfl, by omega⟩
    · rintro ⟨rfl, -⟩
      rfl

/-! ### Replay -/

@[simp] theorem lastSequence_commit (store : Store) (first : Nat) (records : List Record)
    (bytes : Nat) :
    (store.commit first records bytes).lastSequence = store.lastSequence + records.length := by
  simp only [lastSequence, commit, List.length_append, length_number]

theorem commit_commit (store : Store) (first : Nat) (records records' : List Record)
    (bytes bytes' : Nat) :
    (store.commit first records bytes).commit (first + records.length) records' bytes' =
      store.commit first (records ++ records') (bytes + bytes') := by
  simp only [commit, number_append, List.append_assoc, Nat.add_assoc]

theorem replay_eq_ok {store next : Store} {batch : Batch}
    (hfit : store.retainedBytes ≤ store.maxRetainedBytes) :
    store.replay batch = .ok next ↔
      batch.first = store.lastSequence + 1 ∧
        store.retainedBytes + retained batch.records ≤ store.maxRetainedBytes ∧
        next = store.commit (store.lastSequence + 1) batch.records (retained batch.records) := by
  rw [replay]
  split_ifs with hfirst
  · constructor
    · intro h
      cases h
    · rintro ⟨h, -⟩
      exact absurd h hfirst
  · rw [not_not] at hfirst
    cases hcheck : store.checkRetainedCapacity batch.records with
    | error error =>
        constructor
        · intro h
          cases h
        · rintro ⟨-, hroom, -⟩
          rw [(checkRetainedCapacity_eq_ok hfit).mpr ⟨rfl, hroom⟩] at hcheck
          cases hcheck
    | ok bytes =>
        obtain ⟨rfl, hroom⟩ := (checkRetainedCapacity_eq_ok hfit).mp hcheck
        constructor
        · intro h
          cases h
          exact ⟨hfirst, hroom, by rw [hfirst]⟩
        · rintro ⟨-, -, rfl⟩
          rw [hfirst]

/-- The batches that replay are numbered on from the store, and fit. -/
theorem foldlM_replay_eq_ok {store next : Store} {batches : List Batch}
    (hfit : store.retainedBytes ≤ store.maxRetainedBytes) :
    batches.foldlM replay store = .ok next ↔
      ∃ log, batches = Batch.layout (store.lastSequence + 1) log ∧
        store.retainedBytes + retained log.flatten ≤ store.maxRetainedBytes ∧
        next = store.commit (store.lastSequence + 1) log.flatten (retained log.flatten) := by
  induction batches generalizing store with
  | nil =>
      rw [List.foldlM_nil, pure_eq_ok]
      constructor
      · rintro rfl
        exact ⟨[], rfl, hfit, by simp [commit, number, retained]⟩
      · rintro ⟨log, hlog, -, rfl⟩
        cases log with
        | nil => simp [commit, number, retained]
        | cons records log => cases hlog
  | cons batch batches ih =>
      rw [List.foldlM_cons, bind_eq_ok]
      constructor
      · rintro ⟨middle, hreplay, hfold⟩
        obtain ⟨hfirst, hroom, rfl⟩ := (replay_eq_ok hfit).mp hreplay
        obtain ⟨log, rfl, hall, rfl⟩ := (ih hroom).mp hfold
        refine ⟨batch.records :: log, ?_, ?_, ?_⟩
        · rw [Batch.layout, lastSequence_commit, Nat.add_right_comm, ← hfirst]
        · rw [List.flatten_cons, retained_append, ← Nat.add_assoc]
          exact hall
        · rw [lastSequence_commit, Nat.add_right_comm, commit_commit, List.flatten_cons,
            retained_append]
      · rintro ⟨log, hlog, hall, rfl⟩
        cases log with
        | nil => cases hlog
        | cons records log =>
            obtain ⟨rfl, rfl⟩ := List.cons.inj hlog
            rw [List.flatten_cons, retained_append, ← Nat.add_assoc] at hall
            have hroom : store.retainedBytes + retained records ≤ store.maxRetainedBytes := by omega
            refine ⟨_, (replay_eq_ok hfit).mpr ⟨rfl, hroom, rfl⟩, ?_⟩
            apply (ih hroom).mpr
            refine ⟨log, ?_, hall, ?_⟩
            · rw [lastSequence_commit, Nat.add_right_comm]
            · rw [lastSequence_commit, Nat.add_right_comm, commit_commit, List.flatten_cons,
                retained_append]

/-! ### Opening -/

section

variable {hash : Bytes → UInt32} {content : Bytes} {maxRetainedBytes maxWalBytes : Nat}

/-- The store that holds this log, freshly opened. -/
def ofLog (hash : Bytes → UInt32) (maxRetainedBytes maxWalBytes : Nat) (log : List (List Record)) :
    Store :=
  { memory maxRetainedBytes maxWalBytes with
    events := number 1 log.flatten
    retainedBytes := retained log.flatten
    wal := some
      ⟨(Wal.image hash log).length, (Wal.image hash log).length, maxWalBytes⟩ }

/-- The content is the image of a log with a torn tail, an empty file counting as an empty log. -/
structure Opens (hash : Bytes → UInt32) (content : Bytes) (maxRetainedBytes maxWalBytes : Nat)
    (log : List (List Record)) (tail : Bytes) : Prop where
  fits : content.length ≤ maxWalBytes
  retained : Store.retained log.flatten ≤ maxRetainedBytes
  legal : ∀ batch ∈ Batch.layout 1 log, batch.Legal
  bytes : Wal.initial content = Wal.image hash log ++ tail
  ending : tail = [] ∨ Wal.Torn hash tail

/-- **Opening succeeds exactly on the image of a log with a torn tail.** -/
theorem disk_eq_ok {calls : List Disk.Call} {store : Store} :
    disk hash content maxRetainedBytes maxWalBytes = (calls, .ok store) ↔
      ∃ log tail, Opens hash content maxRetainedBytes maxWalBytes log tail ∧
        calls = Wal.openCalls content (Wal.image hash log).length tail ∧
        store = ofLog hash maxRetainedBytes maxWalBytes log := by
  constructor
  · intro h
    rw [disk] at h
    split at h
    · cases h
    · rename_i calls' wal next hopen
      obtain ⟨rfl, hstore⟩ := Prod.mk.inj h
      obtain rfl := Except.ok.inj hstore
      obtain ⟨batches, tail, ⟨hfits, hlegal, hbytes, hending, hfold⟩, length, rfl, rfl, rfl⟩ :=
        Wal.openLog_eq_ok.mp hopen
      obtain ⟨log, rfl, hroom, rfl⟩ := (foldlM_replay_eq_ok (Nat.zero_le _)).mp hfold
      refine ⟨log, tail, ⟨hfits, ?_, hlegal, hbytes, hending⟩, rfl, ?_⟩
      · simpa [memory] using hroom
      · simp [ofLog, commit, memory, lastSequence, Wal.image]
  · rintro ⟨log, tail, ⟨hfits, hretained, hlegal, hbytes, hending⟩, rfl, rfl⟩
    have hfold : (Batch.layout 1 log).foldlM replay (memory maxRetainedBytes maxWalBytes) = .ok _ :=
      (foldlM_replay_eq_ok (Nat.zero_le _)).mpr ⟨log, rfl, by simpa [memory] using hretained, rfl⟩
    have hopen := Wal.openLog_eq_ok.mpr
      ⟨Batch.layout 1 log, tail, ⟨hfits, hlegal, hbytes, hending, hfold⟩, _, rfl, rfl, rfl⟩
    rw [disk, hopen]
    simp [ofLog, commit, memory, lastSequence, Wal.image]

theorem disk_error {calls : List Disk.Call} {error : Error}
    (h : disk hash content maxRetainedBytes maxWalBytes = (calls, .error error)) : calls = [] := by
  rw [disk] at h
  split at h
  · rename_i hopen
    obtain ⟨rfl, -⟩ := Prod.mk.inj h
    exact Wal.openLog_error hopen
  · cases h

/-! ### The file left behind -/

theorem Opens.content_eq {log : List (List Record)} {tail : Bytes}
    (h : Opens hash content maxRetainedBytes maxWalBytes log tail) :
    content = [] ∧ Wal.image hash log = Wal.magic ∧ tail = [] ∨
      content ≠ [] ∧ content = Wal.image hash log ++ tail := by
  have hbytes := h.bytes
  by_cases hempty : content = []
  · left
    rw [Wal.initial, if_pos hempty, Wal.image, List.append_assoc, List.self_eq_append_right,
      List.append_eq_nil_iff] at hbytes
    exact ⟨hempty, by rw [Wal.image, hbytes.1, List.append_nil], hbytes.2⟩
  · rw [Wal.initial, if_neg hempty] at hbytes
    exact Or.inr ⟨hempty, hbytes⟩

/-- Opening leaves the image. -/
theorem Opens.content_run {file : Disk} {log : List (List Record)} {tail : Bytes}
    (h : Opens hash file.content maxRetainedBytes maxWalBytes log tail) :
    (file.run (Wal.openCalls file.content (Wal.image hash log).length tail)).content =
      Wal.image hash log := by
  rcases h.content_eq with ⟨hempty, himage, rfl⟩ | ⟨hne, hcontent⟩
  · rw [himage, Wal.openCalls, if_pos hempty, if_pos rfl]
    simp [Disk.run, Disk.call, Disk.resize, hempty]
  · rw [Wal.openCalls, if_neg hne, List.nil_append]
    split_ifs with htail
    · rw [htail, List.append_nil] at hcontent
      exact hcontent
    · calc
        (file.run [.setLen (Wal.image hash log).length, .sync]).content
            = (file.call (.setLen (Wal.image hash log).length)).content := rfl
        _ = file.content.take (Wal.image hash log).length := by
            apply Disk.content_setLen
            rw [hcontent, List.length_append]
            omega
        _ = Wal.image hash log := by rw [hcontent, List.take_left' rfl]

/-- Opening unsettles nothing of the image. -/
theorem Opens.synced_run {file : Disk} {log : List (List Record)} {tail : Bytes}
    (h : Opens hash file.content maxRetainedBytes maxWalBytes log tail) :
    min file.synced (Wal.image hash log).length ≤
      (file.run (Wal.openCalls file.content (Wal.image hash log).length tail)).synced := by
  have hcontent := h.content_run
  rw [Wal.openCalls] at hcontent ⊢
  split_ifs at hcontent ⊢ with hempty htail
  · have hsynced : (file.run [.write 0 Wal.magic, .sync]).synced =
        (file.run [.write 0 Wal.magic, .sync]).content.length := rfl
    rw [List.append_nil] at hcontent ⊢
    rw [hsynced, hcontent]
    exact min_le_right _ _
  · exact absurd (h.content_eq.resolve_right fun h => h.1 hempty).2.2 htail
  · exact min_le_left _ _
  · have hsynced : (file.run [.setLen (Wal.image hash log).length, .sync]).synced =
        (file.run [.setLen (Wal.image hash log).length, .sync]).content.length := rfl
    rw [List.nil_append] at hcontent ⊢
    rw [hsynced, hcontent]
    exact min_le_right _ _

theorem Opens.image_le {log : List (List Record)} {tail : Bytes}
    (h : Opens hash content maxRetainedBytes maxWalBytes log tail) (hmax : 8 ≤ maxWalBytes) :
    (Wal.image hash log).length ≤ maxWalBytes := by
  rcases h.content_eq with ⟨-, himage, -⟩ | ⟨-, hcontent⟩
  · rw [himage]
    exact hmax
  · have := h.fits
    rw [hcontent, List.length_append] at this
    omega

/-- An image opens as it is. -/
theorem disk_image {log : List (List Record)} (hfits : (Wal.image hash log).length ≤ maxWalBytes)
    (hretained : Store.retained log.flatten ≤ maxRetainedBytes)
    (hlegal : ∀ batch ∈ Batch.layout 1 log, batch.Legal) :
    disk hash (Wal.image hash log) maxRetainedBytes maxWalBytes =
      ([], .ok (ofLog hash maxRetainedBytes maxWalBytes log)) := by
  have hne : Wal.image hash log ≠ [] := List.append_ne_nil_of_left_ne_nil (by decide) _
  apply disk_eq_ok.mpr
  refine ⟨log, [], ⟨hfits, hretained, hlegal, ?_, Or.inl rfl⟩, ?_, rfl⟩
  · rw [Wal.initial, if_neg hne, List.append_nil]
  · rw [Wal.openCalls, if_neg hne, if_pos rfl]
    rfl

/-- What a successful open says about the file before and after it. -/
structure Recovered (hash : Bytes → UInt32) (maxRetainedBytes maxWalBytes : Nat) (before after : Bytes)
    (store : Store) (log : List (List Record)) (tail : Bytes) : Prop where
  kept : before = [] ∧ after = Wal.magic ∧ tail = [] ∨ before ≠ [] ∧ before = after ++ tail
  written : after = Wal.magic ++ (Batch.layout 1 log).flatMap (Wal.frame hash)
  legal : ∀ batch ∈ Batch.layout 1 log, batch.Legal
  events : store.events = number 1 log.flatten
  retainedBytes : store.retainedBytes = retained log.flatten
  torn : tail = [] ∨ Wal.Torn hash tail
  walBytes : store.wal.map Wal.bytes = some after.length
  again : disk hash after maxRetainedBytes maxWalBytes = ([], .ok store)

/-- **Recovery is exact and idempotent, and does not touch a file it refuses.** -/
theorem recovery_exact (hash : Bytes → UInt32) (maxRetainedBytes maxWalBytes : Nat)
    (hmax : 8 ≤ maxWalBytes) (file : Disk) :
    let opening := disk hash file.content maxRetainedBytes maxWalBytes
    match opening.2 with
    | .error _ => file.run opening.1 = file
    | .ok store => ∃ log tail, Recovered hash maxRetainedBytes maxWalBytes file.content
        (file.run opening.1).content store log tail := by
  rcases hopening : disk hash file.content maxRetainedBytes maxWalBytes with ⟨calls, error | store⟩
  · obtain rfl := disk_error hopening
    rfl
  · obtain ⟨log, tail, hopens, rfl, rfl⟩ := disk_eq_ok.mp hopening
    refine ⟨log, tail, ?_⟩
    simp only [hopens.content_run]
    exact
      { kept := hopens.content_eq
        written := rfl
        legal := hopens.legal
        events := rfl
        retainedBytes := rfl
        torn := hopens.ending
        walBytes := rfl
        again := disk_image (hopens.image_le hmax) hopens.retained hopens.legal }

def twiceLog : List (List Record) := [[⟨"a", "", [7]⟩], [⟨"a", "", [8]⟩]]

/-- Three bytes of a third frame follow. -/
def twiceTorn : Bytes := Wal.image Crc32.crc32 twiceLog ++ [0, 0, 0]

theorem recovery_exact_torn : disk Crc32.crc32 twiceTorn 1000 1000 =
      ([.setLen (Wal.image Crc32.crc32 twiceLog).length, .sync], .ok (ofLog Crc32.crc32 1000 1000 twiceLog)) ∧
    ∃ log tail, Recovered Crc32.crc32 1000 1000 twiceTorn (Wal.image Crc32.crc32 twiceLog)
      (ofLog Crc32.crc32 1000 1000 twiceLog) log tail := by
  have hlegal : ∀ batch ∈ Batch.layout 1 twiceLog, batch.Legal := by
    intro batch hmem
    rcases List.mem_cons.mp hmem with rfl | hmem
    · exact ⟨by decide, Wal.publishable_single 7⟩
    · rw [List.mem_singleton.mp hmem]
      exact ⟨by decide, Wal.publishable_single 8⟩
  have hopens : Opens Crc32.crc32 twiceTorn 1000 1000 twiceLog [0, 0, 0] :=
    ⟨by decide, by decide, hlegal, by decide +kernel, Or.inr (Or.inl (by decide))⟩
  have hcalls : Wal.openCalls twiceTorn (Wal.image Crc32.crc32 twiceLog).length [0, 0, 0] =
      [.setLen (Wal.image Crc32.crc32 twiceLog).length, .sync] := by
    decide
  have hopening := disk_eq_ok.mpr ⟨twiceLog, _, hopens, rfl, rfl⟩
  let file : Disk := ⟨twiceTorn, 0, Nat.zero_le _⟩
  have hafter : (file.run (Wal.openCalls twiceTorn (Wal.image Crc32.crc32 twiceLog).length [0, 0, 0])).content =
      Wal.image Crc32.crc32 twiceLog := hopens.content_run
  have h := recovery_exact Crc32.crc32 1000 1000 (by decide) file
  simp only [file, hopening] at h hafter
  rw [hafter] at h
  rw [hcalls] at hopening
  exact ⟨hopening, h⟩

end

end Store

end VeloBus
