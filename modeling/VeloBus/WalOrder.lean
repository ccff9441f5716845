import VeloBus.WalCorruption

/-! A log rearranged. Every frame is still a written one, so the frames decode; only the check of the first
sequence against the store tells a batch that is missing, repeated or out of order. -/

namespace VeloBus

open Codec

namespace Batch

theorem first_le_of_mem_layout {first : Nat} {log : List (List Record)} {batch : Batch}
    (h : batch ∈ layout first log) : first ≤ batch.first := by
  induction log generalizing first with
  | nil => cases h
  | cons records log ih =>
      rw [layout, List.mem_cons] at h
      rcases h with rfl | h
      · exact le_rfl
      · exact (Nat.le_add_right _ _).trans (ih h)

/-- In a log without empty batches, batches that are numbered on from its start are its first ones. -/
theorem layout_prefix {first : Nat} {log log' : List (List Record)} (hne : ∀ records ∈ log, records ≠ [])
    (h : ∀ batch ∈ layout first log', batch ∈ layout first log) : layout first log' <+: layout first log := by
  induction log' generalizing first log with
  | nil => exact List.nil_prefix
  | cons records' log' ih =>
      have hhead : (⟨first, records'⟩ : Batch) ∈ layout first log := h _ (by rw [layout]; exact List.mem_cons_self)
      cases log with
      | nil => cases hhead
      | cons records log =>
          have hpos : 0 < records.length := List.length_pos_of_ne_nil (hne records List.mem_cons_self)
          -- The later batches of the log have later numbers.
          have hlater : ∀ batch ∈ layout (first + records.length) log, first < batch.first := by
            intro batch hmem
            have := first_le_of_mem_layout hmem
            omega
          rw [layout, List.mem_cons] at hhead
          have heq : records' = records := by
            rcases hhead with heq | hmem
            · exact congrArg Batch.records heq
            · exact absurd (hlater _ hmem) (lt_irrefl first)
          subst heq
          rw [layout, layout, List.cons_prefix_cons]
          refine ⟨rfl, ih (fun r hr => hne r (List.mem_cons_of_mem _ hr)) ?_⟩
          intro batch hmem
          have hin := h batch (by rw [layout]; exact List.mem_cons_of_mem _ hmem)
          rw [layout, List.mem_cons] at hin
          rcases hin with rfl | hin
          · have hle : first + records'.length ≤ first := first_le_of_mem_layout hmem
            omega
          · exact hin

/-- The first batches of a log are a log. -/
theorem exists_layout_of_prefix {first : Nat} {log : List (List Record)} {batches : List Batch}
    (h : batches <+: layout first log) : ∃ log', batches = layout first log' := by
  induction log generalizing first batches with
  | nil => exact ⟨[], List.prefix_nil.mp h⟩
  | cons records log ih =>
      cases batches with
      | nil => exact ⟨[], rfl⟩
      | cons batch batches =>
          rw [layout, List.cons_prefix_cons] at h
          obtain ⟨log', rfl⟩ := ih h.2
          exact ⟨records :: log', by rw [layout, h.1]⟩

end Batch

namespace Store

section

variable {hash : Bytes → UInt32}

/-- With room for every record, replay stops only at a number it does not expect. -/
theorem replay_error {store : Store} {batch : Batch} {error : Error}
    (hroom : store.retainedBytes + retained batch.records ≤ store.maxRetainedBytes)
    (h : store.replay batch = .error error) : error.code = Code.storage := by
  rw [replay] at h
  split_ifs at h with hfirst
  · cases h
    rfl
  · rw [(checkRetainedCapacity_eq_ok (by omega)).mpr ⟨rfl, hroom⟩] at h
    cases h

theorem foldlM_replay_error {store : Store} {batches : List Batch} {error : Error}
    (hroom : store.retainedBytes + retained (batches.flatMap Batch.records) ≤ store.maxRetainedBytes)
    (h : batches.foldlM replay store = .error error) : error.code = Code.storage := by
  induction batches generalizing store with
  | nil => cases h
  | cons batch batches ih =>
      rw [List.flatMap_cons, retained_append] at hroom
      rw [List.foldlM_cons] at h
      cases hreplay : store.replay batch with
      | error error' =>
          rw [hreplay] at h
          cases h
          exact replay_error (by omega) hreplay
      | ok next =>
          rw [hreplay] at h
          obtain ⟨-, -, rfl⟩ := (replay_eq_ok (by omega)).mp hreplay
          refine ih ?_ h
          show store.retainedBytes + retained batch.records + retained (batches.flatMap Batch.records) ≤
            store.maxRetainedBytes
          omega

/-- Recovery of written frames is the replay of their batches. -/
theorem recover_frames {batches : List Batch} (hlegal : ∀ batch ∈ batches, batch.Legal) {position : Nat}
    {store : Store} {error : Error} :
    Wal.recover hash replay position (batches.flatMap (Wal.frame hash)) store = .error error ↔
      batches.foldlM replay store = .error error := by
  induction batches generalizing position store with
  | nil =>
      rw [Wal.recover_eq, List.flatMap_nil, if_pos rfl, List.foldlM_nil]
      constructor <;> nofun
  | cons batch batches ih =>
      have hread : Wal.readFrame hash position ((batch :: batches).flatMap (Wal.frame hash)) =
          .ok (.batch batch (Wal.frame hash batch).length) :=
        Wal.readFrame_batch.mpr ⟨hlegal batch List.mem_cons_self, List.prefix_append _ _, rfl⟩
      have hne : (batch :: batches).flatMap (Wal.frame hash) ≠ [] :=
        List.append_ne_nil_of_left_ne_nil (Wal.frame_ne_nil hash batch) _
      rw [Wal.recover_eq, if_neg hne, hread, List.foldlM_cons]
      cases hreplay : store.replay batch with
      | error error' =>
          simp only [hreplay]
          constructor
          · intro h
            cases h
            rfl
          · intro h
            cases h
            rfl
      | ok next =>
          simp only [hreplay, List.flatMap_cons, List.drop_left' rfl]
          exact ih fun b hb => hlegal b (List.mem_cons_of_mem _ hb)

/-- A file of written frames opens or is refused as its batches replay. -/
theorem disk_frames {batches : List Batch} (hlegal : ∀ batch ∈ batches, batch.Legal)
    {maxRetainedBytes maxWalBytes : Nat}
    (hfits : (Wal.magic ++ batches.flatMap (Wal.frame hash)).length ≤ maxWalBytes)
    (hretained : retained (batches.flatMap Batch.records) ≤ maxRetainedBytes) :
    (∃ log, batches = Batch.layout 1 log ∧
        disk hash (Wal.magic ++ batches.flatMap (Wal.frame hash)) maxRetainedBytes maxWalBytes =
          ([], .ok (ofLog hash maxRetainedBytes maxWalBytes log))) ∨
      (∀ log, batches ≠ Batch.layout 1 log) ∧ ∃ error, error.code = Code.storage ∧
        disk hash (Wal.magic ++ batches.flatMap (Wal.frame hash)) maxRetainedBytes maxWalBytes =
          ([], .error error) := by
  have hstart : (memory maxRetainedBytes maxWalBytes).retainedBytes +
      retained (batches.flatMap Batch.records) ≤ maxRetainedBytes := by
    show 0 + retained (batches.flatMap Batch.records) ≤ maxRetainedBytes
    rwa [Nat.zero_add]
  cases hfold : batches.foldlM replay (memory maxRetainedBytes maxWalBytes) with
  | ok store =>
      obtain ⟨log, hlog, -, -⟩ := (foldlM_replay_eq_ok (Nat.zero_le _)).mp hfold
      have hlog : batches = Batch.layout 1 log := hlog
      subst hlog
      refine Or.inl ⟨log, rfl, disk_image hfits ?_ hlegal⟩
      rw [← Batch.map_records_layout 1 log, ← List.flatMap_def]
      exact hretained
  | error error =>
      refine Or.inr ⟨?_, error, foldlM_replay_error hstart hfold, ?_⟩
      · intro log hlog
        have hroom : (memory maxRetainedBytes maxWalBytes).retainedBytes + retained log.flatten ≤
            maxRetainedBytes := by
          rw [hlog, List.flatMap_def, Batch.map_records_layout] at hstart
          exact hstart
        rw [(foldlM_replay_eq_ok (Nat.zero_le _)).mpr ⟨log, hlog, hroom, rfl⟩] at hfold
        cases hfold
      · have hinitial : Wal.initial (Wal.magic ++ batches.flatMap (Wal.frame hash)) =
            Wal.magic ++ batches.flatMap (Wal.frame hash) := if_neg nofun
        have hne : Wal.magic ++ batches.flatMap (Wal.frame hash) ≠ [] := nofun
        rw [disk, Wal.openLog_magic hfits hinitial, (recover_frames hlegal).mpr hfold]
        simp only [if_neg hne]

/-- **A rearranged log is refused.** Of the files made of frames of a log, those that open hold its first
frames in order. -/
theorem rearranged_refused {store : Store} {file : Disk} (h : Produced hash store file) :
    ∃ log, store.events = number 1 log.flatten ∧ (∀ batch ∈ Batch.layout 1 log, batch.Legal) ∧
      file.content = Wal.magic ++ (Batch.layout 1 log).flatMap (Wal.frame hash) ∧
      ∀ (batches : List Batch), (∀ batch ∈ batches, batch ∈ Batch.layout 1 log) →
        ∀ (file' : Disk), file'.content = Wal.magic ++ batches.flatMap (Wal.frame hash) →
        ∀ maxRetainedBytes maxWalBytes, file'.content.length ≤ maxWalBytes →
          retained (batches.flatMap Batch.records) ≤ maxRetainedBytes →
          let opening := disk hash file'.content maxRetainedBytes maxWalBytes
          ((∃ store', opening.2 = .ok store') ↔ ∃ k ≤ log.length, batches = (Batch.layout 1 log).take k) ∧
          ((¬∃ k ≤ log.length, batches = (Batch.layout 1 log).take k) →
            (∃ error, opening.2 = .error error ∧ error.code = Code.storage) ∧ file'.run opening.1 = file') := by
  obtain ⟨log, hwhole⟩ := h.whole
  refine ⟨log, hwhole.consistent.events, hwhole.legal, hwhole.consistent.content hwhole.wal hwhole.sound, ?_⟩
  intro batches hdrawn file' hcontent maxRetainedBytes maxWalBytes hfits hretained
  have hne : ∀ records ∈ log, records ≠ [] := by
    intro records hmem
    rw [← Batch.map_records_layout 1 log, List.mem_map] at hmem
    obtain ⟨batch, hbatch, rfl⟩ := hmem
    exact List.ne_nil_of_length_pos (hwhole.legal batch hbatch).records.legal.nonempty
  have htake : (∃ k ≤ log.length, batches = (Batch.layout 1 log).take k) ↔ ∃ log', batches = Batch.layout 1 log' := by
    constructor
    · intro hprefix
      obtain ⟨k, -, rfl⟩ := hprefix
      exact Batch.exists_layout_of_prefix (List.take_prefix _ _)
    · intro hlog
      obtain ⟨log', rfl⟩ := hlog
      have hprefix := Batch.layout_prefix hne hdrawn
      refine ⟨(Batch.layout 1 log').length, ?_, List.prefix_iff_eq_take.mp hprefix⟩
      rw [← Batch.length_layout 1 log]
      exact hprefix.length_le
  rw [hcontent] at hfits ⊢
  rw [htake]
  rcases disk_frames (fun batch hmem => hwhole.legal batch (hdrawn batch hmem)) hfits hretained with
    ⟨log', hlog, hopening⟩ | ⟨hnot, error, hcode, hopening⟩
  · rw [hopening]
    exact ⟨⟨fun _ => ⟨log', hlog⟩, fun _ => ⟨_, rfl⟩⟩, fun hnone => absurd ⟨log', hlog⟩ hnone⟩
  · rw [hopening]
    refine ⟨⟨?_, ?_⟩, fun _ => ⟨⟨error, rfl, hcode⟩, rfl⟩⟩
    · intro hok
      obtain ⟨store', hok⟩ := hok
      cases hok
    · intro hlog
      obtain ⟨log', hlog⟩ := hlog
      exact absurd hlog (hnot log')

/-- The only batch of a log. -/
def single : Batch := ⟨1, [⟨"a", "", [1]⟩]⟩

theorem legal_single : ∀ batch ∈ [single], batch.Legal := by
  intro batch hmem
  rw [List.mem_singleton.mp hmem]
  exact ⟨by decide, Wal.publishable_single 1⟩

/-- Its frame twice. -/
theorem rearranged_refused_repeated :
    ∃ error, (disk (fun _ => 0) (Wal.magic ++ [single, single].flatMap (Wal.frame fun _ => 0)) 1000 1000).2 =
      .error error ∧ error.code = Code.storage := by
  have hopening : disk (fun _ => 0) Disk.empty.content 1000 1000 =
      ([.write 0 Wal.magic, .sync], .ok (ofLog (fun _ => 0) 1000 1000 [])) :=
    disk_eq_ok.mpr ⟨[], [], ⟨by decide, by decide, nofun, rfl, Or.inl rfl⟩, rfl, rfl⟩
  have h := (Produced.created (by decide) hopening).published (Wal.publishable_single 1) rfl
  obtain ⟨log, -, hlegal, hcontent, hall⟩ := rearranged_refused h
  have hfile := (Disk.content_append (Disk.empty.run [.write 0 Wal.magic, .sync]) _).symm.trans hcontent
  have hframes : [single].flatMap (Wal.frame fun _ => 0) ++ [] = (Batch.layout 1 log).flatMap (Wal.frame fun _ => 0) ++ [] := by
    rw [List.append_nil, List.append_nil, List.flatMap_singleton]
    exact List.append_cancel_left hfile
  have hlog := (Wal.frames_unique legal_single hlegal (Or.inl rfl) (Or.inl rfl) hframes).1
  rw [← hlog] at hall
  have hdrawn : ∀ batch ∈ [single, single], batch ∈ [single] := by simp
  have hrefused := (hall [single, single] hdrawn ⟨_, 0, Nat.zero_le _⟩ rfl 1000 1000 ?_ ?_).2 ?_
  · exact hrefused.1
  · exact Nat.le_of_ble_eq_true rfl
  · decide
  · intro hprefix
    obtain ⟨k, -, htake⟩ := hprefix
    have hlength := congrArg List.length htake
    rw [List.length_take] at hlength
    have hle : [single, single].length ≤ [single].length := hlength.trans_le (min_le_right _ _)
    exact absurd hle (by decide)

end

end Store

end VeloBus
