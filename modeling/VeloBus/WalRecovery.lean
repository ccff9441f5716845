import VeloBus.ProtocolCodec
import VeloBus.StoreModel

/-! What recovery accepts. A frame is read exactly when the file continues with the frame `append`
writes for some batch; the loop therefore accepts exactly a sequence of written frames and a torn
tail, and a store opens exactly on the image of its own log. -/

namespace VeloBus

open Codec

/-- The batches a publish request can carry. -/
structure Publishable (records : List Record) : Prop where
  legal : LegalBatch records
  fits : (encodeRecords records).length ≤ maxFrame - 5

structure Batch.Legal (batch : Batch) : Prop where
  first : batch.first < 256 ^ 8
  records : Publishable batch.records

namespace Wal

section

variable {hash : Bytes → UInt32}

/-! ### Sizes -/

theorem length_body (batch : Batch) :
    (body batch).length = 8 + (encodeRecords batch.records).length := by
  rw [body, List.length_append, Bytes.length_toBe]

theorem length_frame (hash : Bytes → UInt32) (batch : Batch) :
    (frame hash batch).length = headerBytes + (body batch).length := by
  simp only [frame, List.length_append, Bytes.length_toBe, headerBytes]

theorem length_encodeRecord (record : Record) :
    (encodeRecord record).length = record.wireBytes - 8 := by
  simp only [encodeRecord, putString, List.length_append, Bytes.length_toBe, Bytes.length_utf8,
    Record.wireBytes]
  omega

theorem length_encodeRecords (records : List Record) :
    (encodeRecords records).length = 2 + (records.map fun record => record.wireBytes - 8).sum := by
  rw [encodeRecords, List.length_append, Bytes.length_toBe, List.length_flatMap]
  simp only [length_encodeRecord]

theorem publishable_single (payload : UInt8) : Publishable [⟨"a", "", [payload]⟩] := by
  refine ⟨⟨le_rfl, by rw [List.length_singleton]; decide, ?_⟩, ?_⟩
  · intro record hmem
    rw [List.mem_singleton.mp hmem]
    exact ⟨rfl, Nat.zero_le _, by rw [List.length_singleton]; decide⟩
  · rw [length_encodeRecords]
    exact of_decide_eq_true rfl

/-- The capacity check counts the bytes written. -/
theorem batchBytes_eq (hash : Bytes → UInt32) (batch : Batch) : batchBytes batch.records = (frame hash batch).length := by
  rw [length_frame, length_body, length_encodeRecords, batchBytes]
  omega

theorem length_body_bounds {batch : Batch} (h : batch.Legal) :
    19 ≤ (body batch).length ∧ (body batch).length ≤ maxFrame + 3 := by
  obtain ⟨-, ⟨⟨hone, -, hlegal⟩, hfits⟩⟩ := h
  have hlength := length_encodeRecords batch.records
  rw [length_body]
  cases hrecords : batch.records with
  | nil =>
      rw [hrecords] at hone
      cases hone
  | cons record records =>
      have htopic := validateTopic_nonempty (hlegal record (by rw [hrecords]; exact List.mem_cons_self)).topic
      rw [hrecords, List.map_cons, List.sum_cons, Record.wireBytes] at hlength
      rw [hrecords] at hfits
      rw [maxFrame] at hfits ⊢
      omega

/-! ### One frame -/

theorem decodeBatch_eq_ok {bs : Bytes} {batch : Batch} :
    decodeBatch bs = .ok batch ↔
      (batch.first < 256 ^ 8 ∧ LegalBatch batch.records) ∧ bs = body batch := by
  simp only [decodeBatch, Reader.u64, (Reader.reads_uint 8).bind_eq_ok,
    reads_records.bind_eq_ok, bind_eq_ok (x := Reader.finish _), pure_eq_ok]
  constructor
  · rintro ⟨first, r, hfirst, rfl, records, r', hrecords, rfl, _, hfinish, rfl⟩
    obtain rfl := Reader.finish_eq_ok.mp hfinish
    exact ⟨⟨hfirst, hrecords⟩, by rw [body, List.append_nil]⟩
  · rintro ⟨⟨hfirst, hrecords⟩, rfl⟩
    exact ⟨batch.first, _, hfirst, rfl, batch.records, [], hrecords, by rw [List.append_nil], (), rfl,
      rfl⟩

/-- A tail that ends inside a frame: inside its header, or behind a header with a correct checksum
and an allowed body length. -/
def Torn (hash : Bytes → UInt32) (tail : Bytes) : Prop :=
  tail.length < headerBytes ∨
    ((hash (tail.take 8)).toNat = Bytes.ofBe ((tail.drop 8).take 4) ∧
      19 ≤ Bytes.ofBe (tail.take 4) ∧ Bytes.ofBe (tail.take 4) ≤ maxFrame + 3 ∧
      tail.length < headerBytes + Bytes.ofBe (tail.take 4))

/-- `readFrame` on a header cut into its three fields. -/
theorem readFrame_header {position : Nat} {a b c tail : Bytes} (ha : a.length = 4)
    (hb : b.length = 4) (hc : c.length = 4) :
    readFrame hash position (a ++ (b ++ (c ++ tail))) =
      if (hash (a ++ b)).toNat ≠ Bytes.ofBe c then
        .error ⟨Code.storage, s!"WAL header checksum mismatch at byte {position}"⟩
      else if Bytes.ofBe a < 19 ∨ maxFrame + 3 < Bytes.ofBe a then
        .error ⟨Code.storage, s!"invalid WAL batch length at byte {position}"⟩
      else if tail.length < Bytes.ofBe a then .ok .torn
      else if (hash (tail.take (Bytes.ofBe a))).toNat ≠ Bytes.ofBe b then
        .error ⟨Code.storage, s!"WAL batch checksum mismatch at byte {position}"⟩
      else
        match decodeBatch (tail.take (Bytes.ofBe a)) with
        | .error error => .error (storage error.message)
        | .ok batch => .ok (.batch batch (headerBytes + Bytes.ofBe a)) := by
  have hlong : ¬(a ++ (b ++ (c ++ tail))).length < headerBytes := by
    simp only [List.length_append, headerBytes]
    omega
  have hheader : (a ++ (b ++ (c ++ tail))).take headerBytes = a ++ (b ++ c) := by
    rw [← List.append_assoc b, ← List.append_assoc a]
    exact List.take_left' (by simp only [List.length_append, headerBytes]; omega)
  have hbody : (a ++ (b ++ (c ++ tail))).drop headerBytes = tail := by
    rw [← List.append_assoc b, ← List.append_assoc a]
    exact List.drop_left' (by simp only [List.length_append, headerBytes]; omega)
  have htake8 : (a ++ (b ++ c)).take 8 = a ++ b := by
    rw [← List.append_assoc]
    exact List.take_left' (by rw [List.length_append]; omega)
  have hdrop8 : (a ++ (b ++ c)).drop 8 = c := by
    rw [← List.append_assoc]
    exact List.drop_left' (by rw [List.length_append]; omega)
  have hfit : (a ++ (b ++ (c ++ tail))).length < headerBytes + Bytes.ofBe a ↔
      tail.length < Bytes.ofBe a := by
    simp only [List.length_append, headerBytes]
    omega
  simp only [readFrame, hheader, hbody, htake8, hdrop8, List.take_left' ha, List.drop_left' ha,
    List.take_left' hb, hfit]
  exact if_neg hlong

theorem exists_header {rest : Bytes} (h : headerBytes ≤ rest.length) :
    ∃ a b c tail : Bytes, a.length = 4 ∧ b.length = 4 ∧ c.length = 4 ∧
      rest = a ++ (b ++ (c ++ tail)) := by
  rw [headerBytes] at h
  refine ⟨rest.take 4, (rest.drop 4).take 4, (rest.drop 8).take 4, rest.drop 12, ?_, ?_, ?_, ?_⟩
  · rw [List.length_take]
    omega
  · rw [List.length_take, List.length_drop]
    omega
  · rw [List.length_take, List.length_drop]
    omega
  · have hsplit : ∀ n, (rest.drop n).take 4 ++ rest.drop (n + 4) = rest.drop n := by
      intro n
      rw [← List.drop_drop, List.take_append_drop]
    rw [hsplit 8, hsplit 4]
    exact (hsplit 0).symm

theorem torn_header {a b c tail : Bytes} (ha : a.length = 4) (hb : b.length = 4) (hc : c.length = 4) :
    Torn hash (a ++ (b ++ (c ++ tail))) ↔
      (hash (a ++ b)).toNat = Bytes.ofBe c ∧ 19 ≤ Bytes.ofBe a ∧ Bytes.ofBe a ≤ maxFrame + 3 ∧
        tail.length < Bytes.ofBe a := by
  have hlong : ¬(a ++ (b ++ (c ++ tail))).length < headerBytes := by
    simp only [List.length_append, headerBytes]
    omega
  have htake8 : (a ++ (b ++ (c ++ tail))).take 8 = a ++ b := by
    rw [← List.append_assoc]
    exact List.take_left' (by rw [List.length_append]; omega)
  have hdrop8 : (a ++ (b ++ (c ++ tail))).drop 8 = c ++ tail := by
    rw [← List.append_assoc]
    exact List.drop_left' (by rw [List.length_append]; omega)
  have hfit : (a ++ (b ++ (c ++ tail))).length < headerBytes + Bytes.ofBe a ↔
      tail.length < Bytes.ofBe a := by
    simp only [List.length_append, headerBytes]
    omega
  simp only [Torn, hlong, false_or, htake8, hdrop8, List.take_left' ha, List.take_left' hc, hfit]

theorem readFrame_torn {position : Nat} {rest : Bytes} :
    readFrame hash position rest = .ok .torn ↔ Torn hash rest := by
  by_cases hshort : rest.length < headerBytes
  · rw [readFrame, if_pos hshort]
    exact ⟨fun _ => Or.inl hshort, fun _ => rfl⟩
  · obtain ⟨a, b, c, tail, ha, hb, hc, rfl⟩ := exists_header (not_lt.mp hshort)
    rw [readFrame_header ha hb hc, torn_header ha hb hc]
    split_ifs with hcrc hlength hlong hsum
    · simp [hcrc]
    · constructor
      · intro h
        cases h
      · rintro ⟨-, hlow, hhigh, -⟩
        omega
    · rw [not_ne_iff] at hcrc
      exact ⟨fun _ => ⟨hcrc, by omega, by omega, hlong⟩, fun _ => rfl⟩
    · simp [hlong]
    · simp only [hlong, and_false, iff_false]
      split <;> nofun

theorem frame_eq (batch : Batch) {a b c : Bytes} (ha : a = Bytes.toBe 4 (body batch).length)
    (hb : b = Bytes.toBe 4 (hash (body batch)).toNat) (hc : c = Bytes.toBe 4 (hash (a ++ b)).toNat) :
    frame hash batch = a ++ (b ++ (c ++ body batch)) := by
  subst ha hb hc
  simp only [frame, List.append_assoc]

theorem toNat_lt_bytes (n : UInt32) : n.toNat < 256 ^ 4 := n.toNat_lt

/-- **A frame is read exactly where one was written.** -/
theorem readFrame_batch {position : Nat} {rest : Bytes} {batch : Batch} {size : Nat} :
    readFrame hash position rest = .ok (.batch batch size) ↔
      batch.Legal ∧ frame hash batch <+: rest ∧ size = (frame hash batch).length := by
  constructor
  · intro h
    have hlong : headerBytes ≤ rest.length := (readFrame_size hash h).1.trans (readFrame_size hash h).2
    obtain ⟨a, b, c, tail, ha, hb, hc, rfl⟩ := exists_header hlong
    rw [readFrame_header ha hb hc] at h
    split_ifs at h with hcrc hlength hend hsum
    · cases h
    · split at h
      · cases h
      · rename_i decoded hdecoded
        obtain ⟨rfl, rfl⟩ := Found.batch.inj (Except.ok.inj h)
        obtain ⟨⟨hfirst, hrecords⟩, hbody⟩ := decodeBatch_eq_ok.mp hdecoded
        rw [not_ne_iff] at hcrc hsum
        have hsize : Bytes.ofBe a = (body decoded).length := by
          rw [← hbody, List.length_take]
          omega
        have hframe : frame hash decoded = a ++ (b ++ (c ++ body decoded)) := by
          apply frame_eq decoded
          · rw [← hsize, ← ha, Bytes.toBe_ofBe]
          · rw [← hbody, hsum, ← hb, Bytes.toBe_ofBe]
          · rw [hcrc, ← hc, Bytes.toBe_ofBe]
        have hfits := length_body decoded
        refine ⟨⟨hfirst, hrecords, ?_⟩, ?_, by rw [length_frame, hsize]⟩
        · rw [maxFrame] at hlength ⊢
          omega
        · rw [hframe, ← hbody]
          simp only [List.prefix_append_right_inj]
          exact List.take_prefix _ _
  · rintro ⟨hlegal, ⟨tail, rfl⟩, rfl⟩
    obtain ⟨hlow, hhigh⟩ := length_body_bounds hlegal
    have hlength : Bytes.ofBe (Bytes.toBe 4 (body batch).length) = (body batch).length := by
      apply Bytes.ofBe_toBe_of_lt
      rw [maxFrame] at hhigh
      omega
    rw [frame_eq batch rfl rfl rfl, List.append_assoc, List.append_assoc, List.append_assoc,
      readFrame_header (Bytes.length_toBe _ _) (Bytes.length_toBe _ _) (Bytes.length_toBe _ _), hlength,
      Bytes.ofBe_toBe_of_lt (toNat_lt_bytes _), Bytes.ofBe_toBe_of_lt (toNat_lt_bytes _),
      List.take_left' rfl, decodeBatch_eq_ok.mpr ⟨⟨hlegal.first, hlegal.records.legal⟩, rfl⟩]
    rw [if_neg (not_ne_iff.mpr rfl), if_neg (by omega), if_neg (by rw [List.length_append]; omega),
      if_neg (not_ne_iff.mpr rfl)]
    simp only [List.length_append, Bytes.length_toBe, headerBytes]
    congr 2
    omega

theorem frame_ne_nil (hash : Bytes → UInt32) (batch : Batch) : frame hash batch ≠ [] := by
  intro h
  have hlength := length_frame hash batch
  rw [h, headerBytes, List.length_nil] at hlength
  omega

/-- An incomplete frame is a torn tail. -/
theorem torn_of_cut {tail : Bytes} (h : Cut Batch.Legal (frame hash) tail) :
    tail = [] ∨ Torn hash tail := by
  rcases h with rfl | ⟨batch, hlegal, hstart, hne⟩
  · exact Or.inl rfl
  refine Or.inr ?_
  by_cases hshort : tail.length < headerBytes
  · exact Or.inl hshort
  obtain ⟨a, b, c, rest, ha, hb, hc, rfl⟩ := exists_header (not_lt.mp hshort)
  obtain ⟨hlow, hhigh⟩ := length_body_bounds hlegal
  obtain ⟨more, hframe⟩ := hstart
  -- The header is the one of the frame.
  rw [frame_eq batch rfl rfl rfl, List.append_assoc, List.append_assoc, List.append_assoc] at hframe
  obtain ⟨rfl, hcrc⟩ := List.append_inj hframe (by rw [ha, Bytes.length_toBe])
  obtain ⟨rfl, hheader⟩ := List.append_inj hcrc (by rw [hb, Bytes.length_toBe])
  obtain ⟨rfl, hbody⟩ := List.append_inj hheader (by rw [hc, Bytes.length_toBe])
  have hlength : Bytes.ofBe (Bytes.toBe 4 (body batch).length) = (body batch).length := by
    apply Bytes.ofBe_toBe_of_lt
    rw [maxFrame] at hhigh
    omega
  have hmore : more ≠ [] := by
    rintro rfl
    rw [List.append_nil] at hbody
    exact hne (by rw [hbody, ← frame_eq batch rfl rfl rfl])
  have hshorter : rest.length < (body batch).length := by
    rw [← hbody, List.length_append]
    have := List.length_pos_of_ne_nil hmore
    omega
  apply (torn_header ha hb hc).mpr
  rw [hlength, Bytes.ofBe_toBe_of_lt (toNat_lt_bytes _)]
  exact ⟨rfl, hlow, hhigh, hshorter⟩

/-- What `open` finds in front of these frames. -/
theorem readFrame_frames {batches : List Batch} {tail : Bytes} (hlegal : ∀ batch ∈ batches, batch.Legal)
    (htail : tail = [] ∨ Torn hash tail) (position : Nat) :
    readFrame hash position (batches.flatMap (frame hash) ++ tail) =
      .ok (match batches with
        | [] => .torn
        | batch :: _ => .batch batch (frame hash batch).length) := by
  cases batches with
  | nil =>
      rcases htail with rfl | htorn
      · rfl
      · exact readFrame_torn.mpr htorn
  | cons batch batches =>
      apply readFrame_batch.mpr
      rw [List.flatMap_cons, List.append_assoc]
      exact ⟨hlegal batch List.mem_cons_self, List.prefix_append _ _, rfl⟩

/-- The frames at the start of a file are determined by it. -/
theorem frames_unique {batches batches' : List Batch} {tail tail' : Bytes}
    (hlegal : ∀ batch ∈ batches, batch.Legal) (hlegal' : ∀ batch ∈ batches', batch.Legal)
    (htail : tail = [] ∨ Torn hash tail) (htail' : tail' = [] ∨ Torn hash tail')
    (h : batches.flatMap (frame hash) ++ tail = batches'.flatMap (frame hash) ++ tail') :
    batches = batches' ∧ tail = tail' := by
  induction batches generalizing batches' with
  | nil =>
      have hread := readFrame_frames hlegal htail 0
      rw [h, readFrame_frames hlegal' htail' 0] at hread
      cases batches' with
      | nil => exact ⟨rfl, h⟩
      | cons batch' batches' => cases hread
  | cons batch batches ih =>
      have hread := readFrame_frames hlegal htail 0
      rw [h, readFrame_frames hlegal' htail' 0] at hread
      cases batches' with
      | nil => cases hread
      | cons batch' batches' =>
          obtain ⟨rfl, -⟩ := Found.batch.inj (Except.ok.inj hread)
          rw [List.flatMap_cons, List.append_assoc, List.flatMap_cons, List.append_assoc] at h
          obtain ⟨rfl, rfl⟩ := ih (fun b hb => hlegal b (List.mem_cons_of_mem _ hb))
            (fun b hb => hlegal' b (List.mem_cons_of_mem _ hb)) (List.append_cancel_left h)
          exact ⟨rfl, rfl⟩

/-! ### The recovery loop -/

variable {σ : Type} {replay : σ → Batch → Except Error σ}

theorem recover_eq (position : Nat) (rest : Bytes) (state : σ) :
    recover hash replay position rest state =
      if rest = [] then .ok ⟨position, false, state⟩
      else
        match readFrame hash position rest with
        | .error error => .error error
        | .ok .torn => .ok ⟨position, true, state⟩
        | .ok (.batch batch size) =>
          match replay state batch with
          | .error error => .error error
          | .ok state => recover hash replay (position + size) (rest.drop size) state := by
  rw [recover]
  split_ifs
  · rfl
  · rcases readFrame hash position rest with _ | _ | _
    · rfl
    · rfl
    · rfl

/-- The bytes read are the frames of these batches and a tail, and the batches replay. -/
structure Recovers (hash : Bytes → UInt32) (replay : σ → Batch → Except Error σ) (position : Nat)
    (rest : Bytes) (state : σ) (batches : List Batch) (tail : Bytes) (recovery : Recovery σ) :
    Prop where
  legal : ∀ batch ∈ batches, batch.Legal
  bytes : rest = batches.flatMap (frame hash) ++ tail
  ending : tail = [] ∨ Torn hash tail
  torn : recovery.torn = decide (tail ≠ [])
  length : recovery.length = position + (batches.flatMap (frame hash)).length
  state : batches.foldlM replay state = .ok recovery.state

theorem Recovers.cons {position : Nat} {rest : Bytes} {state next : σ} {batch : Batch}
    {batches : List Batch} {tail : Bytes} {recovery : Recovery σ} (hlegal : batch.Legal)
    (hreplay : replay state batch = .ok next)
    (h : Recovers hash replay (position + (frame hash batch).length) rest next batches tail recovery) :
    Recovers hash replay position (frame hash batch ++ rest) state (batch :: batches) tail recovery where
  legal := List.forall_mem_cons.mpr ⟨hlegal, h.legal⟩
  bytes := by rw [h.bytes, List.flatMap_cons, List.append_assoc]
  ending := h.ending
  torn := h.torn
  length := by rw [h.length, List.flatMap_cons, List.length_append, Nat.add_assoc]
  state := by
    rw [List.foldlM_cons, hreplay]
    exact h.state

/-- **Recovery accepts frames written for replayable batches, then a torn tail.** -/
theorem recover_eq_ok {position : Nat} {rest : Bytes} {state : σ} {recovery : Recovery σ} :
    recover hash replay position rest state = .ok recovery ↔
      ∃ batches tail, Recovers hash replay position rest state batches tail recovery := by
  constructor
  · -- Induction on the bytes left: each frame read is a written one.
    intro h
    induction hn : rest.length using Nat.strong_induction_on generalizing position rest state with
    | _ n ih =>
      subst hn
      rw [recover_eq] at h
      split_ifs at h with hempty
      · cases h
        exact ⟨[], [], by simp, hempty, Or.inl rfl, by simp, rfl, rfl⟩
      · split at h
        · cases h
        · rename_i hread
          cases h
          exact ⟨[], rest, by simp, rfl, Or.inr (readFrame_torn.mp hread), by simp [hempty], rfl, rfl⟩
        · rename_i batch size hread
          split at h
          · cases h
          · rename_i next hreplay
            obtain ⟨hlegal, ⟨rest, rfl⟩, rfl⟩ := readFrame_batch.mp hread
            rw [List.drop_left' rfl] at h
            have hshorter : rest.length < (frame hash batch ++ rest).length := by
              rw [List.length_append]
              have := List.length_pos_of_ne_nil (frame_ne_nil hash batch)
              omega
            obtain ⟨batches, tail, hrest⟩ := ih _ hshorter h rfl
            exact ⟨batch :: batches, tail, hrest.cons hlegal hreplay⟩
  · rintro ⟨batches, tail, h⟩
    induction batches generalizing position rest state with
    | nil =>
        obtain ⟨-, hbytes, htail, htorn, hlength, hstate⟩ := h
        rw [List.flatMap_nil, List.nil_append] at hbytes
        subst hbytes
        obtain ⟨length, torn, next⟩ := recovery
        cases hstate
        subst htorn
        subst hlength
        rw [recover_eq]
        split_ifs with hempty
        · rw [decide_eq_false (not_not.mpr hempty)]
        · rw [readFrame_torn.mpr (htail.resolve_left hempty), decide_eq_true hempty]
    | cons batch batches ih =>
        obtain ⟨hlegal, hbytes, htail, htorn, hlength, hstate⟩ := h
        rw [List.foldlM_cons] at hstate
        obtain ⟨next, hreplay, hstate⟩ := bind_eq_ok.mp hstate
        rw [List.flatMap_cons, List.append_assoc] at hbytes
        have hread : readFrame hash position rest = .ok (.batch batch (frame hash batch).length) :=
          readFrame_batch.mpr ⟨hlegal batch (by simp), ⟨_, hbytes.symm⟩, rfl⟩
        have hne : rest ≠ [] := by
          rw [hbytes]
          exact List.append_ne_nil_of_left_ne_nil (frame_ne_nil hash batch) _
        rw [recover_eq, if_neg hne, hread]
        simp only [hreplay]
        apply ih
        rw [hbytes, List.drop_left' rfl]
        refine ⟨fun b hb => hlegal b (List.mem_cons_of_mem _ hb), rfl, htail, htorn, ?_, hstate⟩
        rw [hlength, List.flatMap_cons, List.length_append, Nat.add_assoc]

/-! ### Opening -/

/-- What `open` reads: a new file gets the magic first. -/
def initial (content : Bytes) : Bytes := if content = [] then magic else content

/-- The content is the magic, the frames of replayable batches and a torn tail. -/
structure Opens (hash : Bytes → UInt32) (replay : σ → Batch → Except Error σ) (content : Bytes)
    (maxBytes : Nat) (state : σ) (batches : List Batch) (tail : Bytes) (next : σ) : Prop where
  fits : content.length ≤ maxBytes
  legal : ∀ batch ∈ batches, batch.Legal
  bytes : initial content = magic ++ batches.flatMap (frame hash) ++ tail
  ending : tail = [] ∨ Torn hash tail
  state : batches.foldlM replay state = .ok next

/-- The calls of an `open` that keeps `length` bytes and cuts off `tail`. -/
def openCalls (content : Bytes) (length : Nat) (tail : Bytes) : List Disk.Call :=
  (if content = [] then [.write 0 magic, .sync] else []) ++
    if tail = [] then [] else [.setLen length, .sync]

/-- `open` behind its checks of the length and the magic. -/
theorem openLog_magic {content rest : Bytes} {maxBytes : Nat} {state : σ}
    (hfits : content.length ≤ maxBytes) (hmagic : initial content = magic ++ rest) :
    openLog hash content maxBytes replay state =
      match recover hash replay magic.length rest state with
      | .error error => ((if content = [] then [.write 0 magic, .sync] else []), .error error)
      | .ok recovery =>
        ((if content = [] then [.write 0 magic, .sync] else []) ++
            (if recovery.torn then [.setLen recovery.length, .sync] else []),
          .ok (⟨recovery.length, recovery.length, maxBytes⟩, recovery.state)) := by
  have hlong : ¬(initial content).length < magic.length := by
    rw [hmagic, List.length_append]
    omega
  have htake : ¬(initial content).take magic.length ≠ magic := by
    rw [hmagic, List.take_left' rfl]
    exact not_not.mpr rfl
  have hdrop : (initial content).drop magic.length = rest := by rw [hmagic, List.drop_left' rfl]
  rw [openLog]
  simp only [← show initial content = if content = [] then magic else content from rfl, if_neg hlong,
    if_neg htake, hdrop]
  exact if_neg (not_lt.mpr hfits)

theorem openLog_eq_ok {content : Bytes} {maxBytes : Nat} {state next : σ} {calls : List Disk.Call}
    {wal : Wal} :
    openLog hash content maxBytes replay state = (calls, .ok (wal, next)) ↔
      ∃ batches tail, Opens hash replay content maxBytes state batches tail next ∧
        ∃ length, length = (magic ++ batches.flatMap (frame hash)).length ∧
          calls = openCalls content length tail ∧ wal = ⟨length, length, maxBytes⟩ := by
  constructor
  · intro h
    have hfits : content.length ≤ maxBytes := by
      by_contra hfull
      rw [openLog, if_pos (not_le.mp hfull)] at h
      cases h
    have htake : (initial content).take magic.length = magic := by
      by_contra hbad
      rw [openLog, if_neg (not_lt.mpr hfits)] at h
      simp only [← show initial content = if content = [] then magic else content from rfl,
        if_pos hbad] at h
      split_ifs at h <;> cases h
    have hmagic : initial content = magic ++ (initial content).drop magic.length := by
      conv_lhs => rw [← List.take_append_drop magic.length (initial content), htake]
    rw [openLog_magic hfits hmagic] at h
    split at h
    · cases h
    · rename_i recovery hrecover
      obtain ⟨rfl, hok⟩ := Prod.mk.inj h
      obtain ⟨rfl, rfl⟩ := Prod.mk.inj (Except.ok.inj hok)
      obtain ⟨batches, tail, hlegal, hbytes, hending, htorn, hlength, hstate⟩ := recover_eq_ok.mp hrecover
      rw [hbytes, ← List.append_assoc] at hmagic
      refine ⟨batches, tail, ⟨hfits, hlegal, hmagic, hending, hstate⟩, recovery.length, ?_, ?_, rfl⟩
      · rw [hlength, List.length_append]
      · by_cases htail : tail = [] <;> simp [openCalls, htorn, htail]
  · rintro ⟨batches, tail, ⟨hfits, hlegal, hbytes, hending, hstate⟩, length, rfl, rfl, rfl⟩
    have hrecover := recover_eq_ok.mpr ⟨batches, tail,
      (⟨hlegal, rfl, hending, rfl, rfl, hstate⟩ : Recovers hash replay magic.length
        (batches.flatMap (frame hash) ++ tail) state batches tail
        ⟨_, decide (tail ≠ []), next⟩)⟩
    rw [List.append_assoc] at hbytes
    rw [openLog_magic hfits hbytes, hrecover, List.length_append]
    by_cases htail : tail = [] <;> simp [openCalls, htail]

/-- A refused file is not written to. -/
theorem openLog_error {content : Bytes} {maxBytes : Nat} {state : σ} {calls : List Disk.Call}
    {error : Error} (h : openLog hash content maxBytes replay state = (calls, .error error)) :
    calls = [] := by
  by_cases hempty : content = []
  · -- A new file is not refused.
    subst hempty
    rw [openLog_magic (Nat.zero_le _) (show initial [] = magic ++ [] from rfl), recover_eq] at h
    cases h
  · rw [openLog] at h
    simp only [if_neg hempty] at h
    split_ifs at h
    · exact (Prod.mk.inj h).1.symm
    · exact (Prod.mk.inj h).1.symm
    · exact (Prod.mk.inj h).1.symm
    · split at h
      · exact (Prod.mk.inj h).1.symm
      · cases h

end

end Wal

end VeloBus
