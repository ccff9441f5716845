import VeloBus.StoreFetch
import VeloBus.StorePublish
import VeloBus.Transition

/-! One session of a store, in memory or on the file of its log. A publish is taken as a whole or leaves
the events as they were, and after an uncertain write nothing more reaches the file. -/

namespace VeloBus

namespace Wal

/-- The batches `open` replays from a file, in order. -/
def batches (hash : Bytes → UInt32) (content : Bytes) (maxBytes : Nat) : List (List Record) :=
  match (openLog hash content maxBytes (fun log batch => .ok (log ++ [batch.records])) []).2 with
  | .ok (_, log) => log
  | .error _ => []

theorem foldlM_collect (log : List (List Record)) (batches : List Batch) :
    batches.foldlM (fun log batch => (.ok (log ++ [batch.records]) : Except Error _)) log =
      .ok (log ++ batches.map Batch.records) := by
  induction batches generalizing log with
  | nil => rw [List.foldlM_nil, List.map_nil, List.append_nil]; rfl
  | cons batch batches ih =>
      rw [List.foldlM_cons, List.map_cons]
      show batches.foldlM _ (log ++ [batch.records]) = _
      rw [ih, List.append_assoc]
      rfl

/-- One more batch at the end of the image. -/
theorem image_concat (hash : Bytes → UInt32) (log : List (List Record)) (records : List Record) :
    image hash (log ++ [records]) =
      image hash log ++ frame hash ⟨log.flatten.length + 1, records⟩ := by
  rw [image, Batch.layout_append, List.flatMap_append, image, List.append_assoc, Batch.layout, Batch.layout,
    List.flatMap_singleton, Nat.add_comm 1]

end Wal

/-- The batches a store was opened on are those its log replays. -/
theorem Store.Opens.batches_eq {hash : Bytes → UInt32} {content : Bytes} {maxRetainedBytes maxWalBytes : Nat}
    {log : List (List Record)} {tail : Bytes}
    (h : Store.Opens hash content maxRetainedBytes maxWalBytes log tail) :
    Wal.batches hash content maxWalBytes = log := by
  have hfold := Wal.foldlM_collect [] (Batch.layout 1 log)
  rw [Batch.map_records_layout, List.nil_append] at hfold
  rw [Wal.batches, Wal.openLog_eq_ok.mpr
    ⟨Batch.layout 1 log, tail, ⟨h.fits, h.legal, h.bytes, h.ending, hfold⟩, _, rfl, rfl, rfl⟩]

/-- A store in use, the file of its log, and the batches committed so far, those replayed by the open
first. -/
structure Volume where
  store : Store
  file : Disk
  log : List (List Record)

namespace Volume

inductive Op where
  | publish (records : List Record) (fault : Option Fault)
  | fetch (request : Fetch)

section

variable (hash : Bytes → UInt32)

def next (volume : Volume) : Op → Volume
  | .publish records fault =>
    let out := volume.store.publish hash records fault
    { store := out.1
      file := volume.file.run out.2.1
      log := match out.2.2 with
        | .ok _ => volume.log ++ [records]
        | .error _ => volume.log }
  | .fetch request => { volume with store := (volume.store.fetch request).1 }

/-- The runs of a new memory store, and of every store that opens. -/
def session : Transition Volume Op where
  start volume := ∃ maxRetainedBytes maxWalBytes, 8 ≤ maxWalBytes ∧
    (volume.store = Store.memory maxRetainedBytes maxWalBytes ∧ volume.log = [] ∨
      ∃ (file : Disk) (calls : List Disk.Call),
        Store.disk hash file.content maxRetainedBytes maxWalBytes = (calls, .ok volume.store) ∧
        volume.file = file.run calls ∧ volume.log = Wal.batches hash file.content maxWalBytes)
  step volume op volume' := volume' = volume.next hash op

end

section

variable {hash : Bytes → UInt32}

/-- Store and file agree. -/
structure Consistent (hash : Bytes → UInt32) (volume : Volume) : Prop where
  events : volume.store.events = Store.number 1 volume.log.flatten
  retained : volume.store.retainedBytes ≤ volume.store.maxRetainedBytes
  memory : volume.store.wal = none → volume.store.poisoned = false
  limit : ∀ wal, volume.store.wal = some wal → wal.maxBytes = volume.store.maxWalBytes
  bytes : ∀ wal, volume.store.wal = some wal → wal.bytes = (Wal.image hash volume.log).length
  offset : ∀ wal, volume.store.wal = some wal → volume.store.poisoned = false →
    wal.offset = wal.bytes
  content : volume.store.wal ≠ none → volume.store.poisoned = false →
    volume.file.content = Wal.image hash volume.log
  cut : volume.store.poisoned = true → ∃ records kept, volume.file.content =
    Wal.image hash volume.log ++
      (Wal.frame hash ⟨volume.store.lastSequence + 1, records⟩).take kept
  fits : volume.store.wal ≠ none → volume.file.content.length ≤ volume.store.maxWalBytes

theorem consistent_start {volume : Volume} (h : (session hash).start volume) :
    Consistent hash volume := by
  obtain ⟨maxRetainedBytes, maxWalBytes, hmax, ⟨hstore, hlog⟩ | ⟨file, calls, hopening, hfile, hlog⟩⟩ := h
  · refine ⟨by rw [hstore, hlog]; rfl, ?_, ?_, ?_, ?_, ?_, ?_, ?_, ?_⟩
    all_goals simp [hstore, Store.memory]
  · obtain ⟨log, tail, hopens, rfl, hstore⟩ := Store.disk_eq_ok.mp hopening
    rw [hopens.batches_eq] at hlog
    have hcontent := hopens.content_run
    have hfits := hopens.image_le hmax
    rw [← hfile] at hcontent
    refine ⟨by rw [hstore, hlog]; rfl, ?_, ?_, ?_, ?_, ?_, ?_, ?_, ?_⟩
    · rw [hstore]
      exact hopens.retained
    · intro hnone
      rw [hstore] at hnone
      cases hnone
    all_goals simp [hstore, hlog, hcontent, Store.ofLog, Store.memory, hfits]

/-- An accepted batch fits in the file. -/
theorem Consistent.frame_fits {volume : Volume} (h : Consistent hash volume) {wal : Wal}
    (hwal : volume.store.wal = some wal) {records : List Record} (haccepts : volume.store.Accepts records)
    (first : Nat) :
    (Wal.image hash volume.log).length + (Wal.frame hash ⟨first, records⟩).length ≤
      volume.store.maxWalBytes := by
  have hcontent := h.content (by rw [hwal]; nofun) haccepts.sound
  have hfits := h.fits (by rw [hwal]; nofun)
  have hroom := haccepts.room wal hwal
  rw [hcontent, ← h.limit wal hwal] at hfits
  rw [Wal.batchBytes_eq hash ⟨first, records⟩, h.bytes wal hwal] at hroom
  rw [← h.limit wal hwal]
  omega

theorem Consistent.events_accepted {volume : Volume} (h : Consistent hash volume) (records : List Record) :
    (volume.store.accepted records).events = Store.number 1 (volume.log ++ [records]).flatten := by
  rw [Store.accepted, List.flatten_append, List.flatten_singleton, Store.number_append, ← h.events]
  simp only [Store.lastSequence, h.events, Store.length_number, Nat.add_comm]

theorem Consistent.retained_accepted {volume : Volume} (h : Consistent hash volume) {records : List Record}
    (haccepts : volume.store.Accepts records) :
    (volume.store.accepted records).retainedBytes ≤ (volume.store.accepted records).maxRetainedBytes := by
  have hroom := haccepts.retained
  have hle := h.retained
  show volume.store.retainedBytes + Store.retained records ≤ volume.store.maxRetainedBytes
  omega

theorem Consistent.publish {volume : Volume} (h : Consistent hash volume) (records : List Record)
    (fault : Option Fault) : Consistent hash (volume.next hash (.publish records fault)) := by
  rw [next]
  have hcases := Store.publish_cases hash volume.store records fault
  generalize volume.store.publish hash records fault = out at hcases ⊢
  cases hcases with
  | refused error => exact h
  | failed wal kept error hwal haccepts hfault =>
      have hne : volume.store.wal ≠ none := by rw [hwal]; simp
      have hcontent := h.content hne haccepts.sound
      have hoffset : wal.offset = volume.file.content.length := by
        rw [h.offset wal hwal haccepts.sound, h.bytes wal hwal, hcontent]
      have hwritten : (volume.file.run [.write wal.offset
          ((Wal.frame hash ⟨volume.store.lastSequence + 1, records⟩).take kept)]).content =
          Wal.image hash volume.log ++
            (Wal.frame hash ⟨volume.store.lastSequence + 1, records⟩).take kept := by
        rw [hoffset, ← hcontent]
        exact Disk.content_append _ _
      have hframe := h.frame_fits hwal haccepts (volume.store.lastSequence + 1)
      exact
        { events := h.events
          retained := h.retained
          memory := by simp
          limit := by
            rintro _ ⟨⟩
            exact h.limit wal hwal
          bytes := by
            rintro _ ⟨⟩
            exact h.bytes wal hwal
          offset := by simp
          content := by simp
          cut := fun _ => ⟨records, kept, hwritten⟩
          fits := fun _ => by
            show (volume.file.run _).content.length ≤ volume.store.maxWalBytes
            rw [hwritten, List.length_append, List.length_take]
            omega }
  | durable wal hwal haccepts hfault =>
      have hne : volume.store.wal ≠ none := by rw [hwal]; simp
      have hcontent := h.content hne haccepts.sound
      have hbytes := h.bytes wal hwal
      have hoffset := h.offset wal hwal haccepts.sound
      have hlast : volume.store.lastSequence = volume.log.flatten.length := by
        rw [Store.lastSequence, h.events, Store.length_number]
      have himage : Wal.image hash (volume.log ++ [records]) = Wal.image hash volume.log ++
          Wal.frame hash ⟨volume.store.lastSequence + 1, records⟩ := by
        rw [Wal.image_concat, hlast]
      have hwritten : (volume.file.run (Wal.appendCalls hash wal
          ⟨volume.store.lastSequence + 1, records⟩)).content =
          Wal.image hash (volume.log ++ [records]) := by
        rw [himage, ← hcontent, Wal.appendCalls, hoffset, hbytes, ← hcontent]
        exact Disk.content_append _ _
      have hframe := h.frame_fits hwal haccepts (volume.store.lastSequence + 1)
      exact
        { events := h.events_accepted records
          retained := h.retained_accepted haccepts
          memory := by simp
          limit := by
            rintro _ ⟨⟩
            exact h.limit wal hwal
          bytes := by
            rintro _ ⟨⟩
            show wal.bytes + _ = _
            rw [himage, List.length_append, hbytes]
          offset := by
            rintro _ ⟨⟩ -
            show wal.offset + _ = wal.bytes + _
            rw [hoffset]
          content := fun _ _ => hwritten
          cut := fun hpoisoned => absurd (haccepts.sound.symm.trans hpoisoned) (by simp)
          fits := fun _ => by
            show (volume.file.run _).content.length ≤ volume.store.maxWalBytes
            rw [hwritten, himage, List.length_append]
            exact hframe }
  | volatile hwal haccepts =>
      have hnone : ∀ {P : Prop}, (volume.store.accepted records).wal ≠ none → P :=
        fun hne => absurd hwal hne
      exact
        { events := h.events_accepted records
          retained := h.retained_accepted haccepts
          memory := fun _ => haccepts.sound
          limit := fun wal' hwal' => hnone (by rw [hwal']; simp)
          bytes := fun wal' hwal' => hnone (by rw [hwal']; simp)
          offset := fun wal' hwal' => hnone (by rw [hwal']; simp)
          content := fun hne => hnone hne
          cut := fun hpoisoned => absurd (haccepts.sound.symm.trans hpoisoned) (by simp)
          fits := fun hne => hnone hne }

theorem Consistent.fetch {volume : Volume} (h : Consistent hash volume) (request : Fetch) :
    Consistent hash (volume.next hash (.fetch request)) := by
  obtain ⟨fetched, coalesced, hfetch⟩ := volume.store.fetch_counters request
  rw [next, hfetch]
  exact ⟨h.events, h.retained, h.memory, h.limit, h.bytes, h.offset, h.content, h.cut, h.fits⟩

theorem consistent_reachable {volume : Volume} (h : (session hash).Reachable volume) :
    Consistent hash volume := by
  apply h.invariant (P := Consistent hash)
  · exact fun _ => consistent_start
  · rintro volume op _ - h rfl
    cases op with
    | publish records fault => exact h.publish records fault
    | fetch request => exact h.fetch request

/-! ### A failed publish -/

/-- The stored events and everything counted about them are the same. -/
structure Untouched (store store' : Store) : Prop where
  events : store'.events = store.events
  retainedBytes : store'.retainedBytes = store.retainedBytes
  publishedRecords : store'.publishedRecords = store.publishedRecords
  walBytes : store'.wal.map Wal.bytes = store.wal.map Wal.bytes

/-- No write reached the file since, and a fetch returns what it would have returned. -/
structure Frozen (before after : Volume) : Prop where
  poisoned : after.store.poisoned = true
  file : after.file = before.file
  events : after.store.events = before.store.events

theorem publish_untouched {store : Store} {records : List Record} {fault : Option Fault} {error : Error}
    (h : (store.publish hash records fault).2.2 = .error error) :
    Untouched store (store.publish hash records fault).1 := by
  have hcases := Store.publish_cases hash store records fault
  generalize store.publish hash records fault = out at h hcases ⊢
  cases hcases with
  | refused error => exact ⟨rfl, rfl, rfl, rfl⟩
  | failed wal kept error hwal haccepts hfault =>
      refine ⟨rfl, rfl, rfl, ?_⟩
      rw [hwal]
      rfl
  | durable wal hwal haccepts hfault => cases h
  | volatile hwal haccepts => cases h

theorem Frozen.next {before after : Volume} (h : Frozen before after) (op : Op) :
    Frozen before (after.next hash op) := by
  cases op with
  | publish records fault =>
      rw [Volume.next, Store.publish_poisoned hash h.poisoned]
      exact ⟨h.poisoned, h.file, h.events⟩
  | fetch request =>
      obtain ⟨fetched, coalesced, hfetch⟩ := after.store.fetch_counters request
      rw [Volume.next, hfetch]
      exact ⟨h.poisoned, h.file, h.events⟩

/-- Poisoning is absorbing. -/
theorem frozen_run {before later : Volume} {ops : List Op} (hpoisoned : before.store.poisoned = true)
    (hrun : (session hash).Run before ops later) : Frozen before later := by
  induction hrun with
  | nil => exact ⟨hpoisoned, rfl, rfl⟩
  | snoc _ hstep ih =>
      obtain rfl := hstep
      exact ih.next _

/-- **A failed publish is atomic, poisoning is absorbing, and file and store agree.** -/
theorem publish_atomic {volume : Volume} (h : (session hash).Reachable volume) :
    (∀ records fault error, (volume.store.publish hash records fault).2.2 = .error error →
      let after := volume.next hash (.publish records fault)
      error.code = Code.capacity ∧ after = volume ∨
        error.code = Code.storage ∧ Untouched volume.store after.store ∧
          after.store.poisoned = true ∧
          ∀ ops later, (session hash).Run after ops later →
            later.store.poisoned = true ∧ later.file = after.file ∧
              (∀ records fault, ∃ error, error.code = Code.storage ∧
                later.store.publish hash records fault = (later.store, [], .error error)) ∧
              ∀ request, (later.store.fetch request).2 = (volume.store.fetch request).2) ∧
    volume.store.events = Store.number 1 volume.log.flatten ∧
    (∀ wal, volume.store.wal = some wal →
      wal.bytes = (Wal.magic ++ (Batch.layout 1 volume.log).flatMap (Wal.frame hash)).length ∧
      (volume.store.poisoned = false →
        volume.file.content = Wal.magic ++ (Batch.layout 1 volume.log).flatMap (Wal.frame hash)) ∧
      (volume.store.poisoned = true → ∃ records kept, volume.file.content =
        Wal.magic ++ (Batch.layout 1 volume.log).flatMap (Wal.frame hash) ++
          (Wal.frame hash ⟨volume.store.lastSequence + 1, records⟩).take kept) ∧
      volume.file.content.length ≤ volume.store.maxWalBytes) ∧
    volume.store.retainedBytes ≤ volume.store.maxRetainedBytes := by
  have hconsistent := consistent_reachable h
  refine ⟨?_, hconsistent.events, ?_, hconsistent.retained⟩
  · intro records fault error herror after
    have huntouched := publish_untouched herror
    rcases Store.publish_error herror with ⟨hcode, hstore, hcalls⟩ | ⟨hcode, hpoisoned⟩
    · refine Or.inl ⟨hcode, ?_⟩
      simp only [after, next, hstore, hcalls, herror]
      rfl
    · refine Or.inr ⟨hcode, huntouched, hpoisoned, fun ops later hrun => ?_⟩
      have hfrozen := frozen_run hpoisoned hrun
      refine ⟨hfrozen.poisoned, hfrozen.file, fun records fault => ⟨_, ?_,
        Store.publish_poisoned hash hfrozen.poisoned records fault⟩, fun request => ?_⟩
      · rfl
      · exact Store.fetch_of_events (hfrozen.events.trans huntouched.events) request
  · intro wal hwal
    have hne : volume.store.wal ≠ none := by
      rw [hwal]
      nofun
    exact ⟨hconsistent.bytes wal hwal, hconsistent.content hne, hconsistent.cut, hconsistent.fits hne⟩

/-- A new log. -/
def blank : Volume := ⟨Store.ofLog (fun _ => 0) 1000 1000 [], Disk.empty.run [.write 0 Wal.magic, .sync], []⟩

/-- Three bytes of the first frame are written. -/
theorem publish_atomic_blank :
    Untouched blank.store
        (blank.next (fun _ => 0) (.publish [⟨"a", "", [1]⟩] (some (.write 3 "no space left on device")))).store ∧
      (blank.next (fun _ => 0) (.publish [⟨"a", "", [1]⟩]
        (some (.write 3 "no space left on device")))).store.poisoned = true := by
  have hopens : Store.Opens (fun _ => 0) Disk.empty.content 1000 1000 [] [] :=
    ⟨by decide, by decide, nofun, rfl, Or.inl rfl⟩
  have hopening : Store.disk (fun _ => 0) Disk.empty.content 1000 1000 =
      ([.write 0 Wal.magic, .sync], .ok blank.store) := Store.disk_eq_ok.mpr ⟨[], [], hopens, rfl, rfl⟩
  have h : (session fun _ => 0).Reachable blank :=
    .of_start ⟨1000, 1000, by decide, Or.inr ⟨Disk.empty, _, hopening, rfl, hopens.batches_eq.symm⟩⟩
  rcases (publish_atomic h).1 [⟨"a", "", [1]⟩] (some (.write 3 "no space left on device")) _ rfl with
    ⟨hcode, -⟩ | ⟨-, huntouched, hpoisoned, -⟩
  · exact absurd hcode (by decide)
  · exact ⟨huntouched, hpoisoned⟩

end

end Volume

end VeloBus
