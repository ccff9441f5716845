import VeloBus.StoreSessions

/-! What survives. The file always holds the frames of some of the batches whose append began, in the
order of their attempts, and an incomplete frame at most; every part of them that is synchronised stays.
So each open succeeds and recovers all acknowledged batches, with at most one more of each session. -/

namespace VeloBus

open Codec

namespace Attempt

def records (a : Attempt) : List Record := a.batch.records

def Legal (a : Attempt) : Prop := a.batch.Legal

/-- The frame of the batch. -/
def bytes (hash : Bytes → UInt32) (a : Attempt) : Bytes := Wal.frame hash a.batch

def events (a : Attempt) : List Event := Store.number a.batch.first a.batch.records

/-- The batches are numbered from one without a gap. -/
def Numbered (kept : List Attempt) : Prop :=
  kept.map Attempt.batch = Batch.layout 1 (kept.map Attempt.records)

theorem layout_events (first : Nat) (log : List (List Record)) :
    (Batch.layout first log).flatMap (fun batch => Store.number batch.first batch.records) =
      Store.number first log.flatten := by
  induction log generalizing first with
  | nil => rfl
  | cons records log ih =>
      rw [Batch.layout, List.flatMap_cons, ih, List.flatten_cons, Store.number_append]

theorem Numbered.events_eq {kept : List Attempt} (h : Numbered kept) :
    kept.flatMap events = Store.number 1 (kept.flatMap records) := by
  have hmap : kept.flatMap events =
      (kept.map Attempt.batch).flatMap fun batch => Store.number batch.first batch.records := by
    rw [List.flatMap_map]
    rfl
  rw [hmap, h, layout_events, List.flatMap_def]

theorem Numbered.image_eq {kept : List Attempt} (h : Numbered kept) (hash : Bytes → UInt32) :
    Wal.magic ++ kept.flatMap (bytes hash) = Wal.image hash (kept.map records) := by
  rw [Wal.image, ← h, List.flatMap_map]
  rfl

theorem Numbered.events_ofLog {kept : List Attempt} (h : Numbered kept) {hash : Bytes → UInt32}
    {maxRetainedBytes maxWalBytes : Nat} :
    (Store.ofLog hash maxRetainedBytes maxWalBytes (kept.map records)).events = kept.flatMap events := by
  rw [h.events_eq, List.flatMap_def]
  rfl

theorem Numbered.of_prefix {kept kept' : List Attempt} (h : Numbered kept) (hstart : kept' <+: kept) :
    Numbered kept' := by
  obtain ⟨more, rfl⟩ := hstart
  rw [Numbered, List.map_append, List.map_append, Batch.layout_append] at h
  exact (List.append_inj h (by rw [Batch.length_layout, List.length_map, List.length_map])).1

theorem Numbered.concat {kept : List Attempt} (h : Numbered kept) {a : Attempt}
    (hfirst : a.batch.first = (kept.flatMap events).length + 1) : Numbered (kept ++ [a]) := by
  rw [Numbered, List.map_append, List.map_append, Batch.layout_append, ← h]
  rw [h.events_eq, Store.length_number, Nat.add_comm, List.flatMap_def] at hfirst
  obtain ⟨session, ⟨first, batch⟩, began, receipt⟩ := a
  simp only at hfirst
  subst hfirst
  rfl

end Attempt

namespace Site

section

variable {hash : Bytes → UInt32} {budgets : Nat → Nat → Prop}

/-- The magic and the frames of these batches are on stable storage. -/
def Pinned (hash : Bytes → UInt32) (disk : Disk) (part : List Attempt) : Prop :=
  (Wal.magic ++ part.flatMap (Attempt.bytes hash)).length ≤ disk.synced

/-- These batches are among the synchronised ones. -/
def Backed (hash : Bytes → UInt32) (disk : Disk) (kept those : List Attempt) : Prop :=
  those = [] ∨ ∃ part, part <+: kept ∧ Pinned hash disk part ∧ those.Sublist part

/-- The file is an image with an incomplete frame, or a file whose first open has not ended. -/
def Written (hash : Bytes → UInt32) (content : Bytes) (kept : List Attempt) (tail : Bytes) : Prop :=
  content = Wal.magic ++ kept.flatMap (Attempt.bytes hash) ++ tail ∨
    kept = [] ∧ tail = [] ∧ content <+: Wal.magic

/-- A session that can publish knows the whole log. -/
structure Live (hash : Bytes → UInt32) (budgets : Nat → Nat → Prop) (kept : List Attempt)
    (store : Store) : Prop where
  events : store.events = kept.flatMap Attempt.events
  retainedBytes : store.retainedBytes = Store.retained (kept.flatMap Attempt.records)
  retained_le : store.retainedBytes ≤ store.maxRetainedBytes
  wal : ∃ maxWalBytes, budgets store.maxRetainedBytes maxWalBytes ∧
    (Wal.magic ++ kept.flatMap (Attempt.bytes hash)).length ≤ maxWalBytes ∧
    store.wal = some ⟨(Wal.magic ++ kept.flatMap (Attempt.bytes hash)).length,
      (Wal.magic ++ kept.flatMap (Attempt.bytes hash)).length, maxWalBytes⟩

/-- A session knows at least what is synchronised. -/
structure Session (hash : Bytes → UInt32) (budgets : Nat → Nat → Prop) (disk : Disk)
    (kept : List Attempt) (tail : Bytes) (store : Store) : Prop where
  content : disk.content = Wal.magic ++ kept.flatMap (Attempt.bytes hash) ++ tail
  wal : store.wal.isSome = true
  shown : ∃ shown, shown <+: kept ∧ store.events = shown.flatMap Attempt.events ∧
    ∀ part, part <+: kept → Pinned hash disk part → part <+: shown
  live : store.poisoned = false → tail = [] ∧ Live hash budgets kept store

/-- The file holds the batches `kept` and an incomplete frame. -/
structure Sound (hash : Bytes → UInt32) (budgets : Nat → Nat → Prop) (site : Site)
    (kept : List Attempt) (tail : Bytes) : Prop where
  content : Written hash site.disk.content kept tail
  cut : Cut Attempt.Legal (Attempt.bytes hash) tail
  legal : ∀ a ∈ kept, a.Legal
  numbered : Attempt.Numbered kept
  sublist : kept.Sublist site.attempts
  began : ∀ a ∈ kept, a.began = true
  acked : Backed hash site.disk kept (site.attempts.filter fun a => a.receipt.isSome)
  fits : kept = [] ∧ tail = [] ∨ ∃ maxRetainedBytes maxWalBytes,
    budgets maxRetainedBytes maxWalBytes ∧ site.disk.content.length ≤ maxWalBytes ∧
      Store.retained (kept.flatMap Attempt.records) ≤ maxRetainedBytes
  session : ∀ store, site.store = some store → Session hash budgets site.disk kept tail store

/-- What was synchronised stays. -/
def Carries (hash : Bytes → UInt32) (disk : Disk) (kept : List Attempt) (disk' : Disk)
    (kept' : List Attempt) : Prop :=
  ∀ part, part <+: kept → Pinned hash disk part → part <+: kept' ∧ Pinned hash disk' part

/-- The next state is sound and keeps what was synchronised. -/
def Keeps (hash : Bytes → UInt32) (budgets : Nat → Nat → Prop) (disk : Disk) (kept : List Attempt)
    (site' : Site) : Prop :=
  ∃ kept' tail', Sound hash budgets site' kept' tail' ∧ Carries hash disk kept site'.disk kept'

theorem Carries.refl (disk : Disk) (kept : List Attempt) : Carries hash disk kept disk kept :=
  fun _ hpart hpinned => ⟨hpart, hpinned⟩

theorem Carries.backed {disk disk' : Disk} {kept kept' those : List Attempt}
    (h : Carries hash disk kept disk' kept') (hbacked : Backed hash disk kept those) :
    Backed hash disk' kept' those := by
  rcases hbacked with hnone | ⟨part, hpart, hpinned, hsublist⟩
  · exact Or.inl hnone
  · obtain ⟨hpart', hpinned'⟩ := h part hpart hpinned
    exact Or.inr ⟨part, hpart', hpinned', hsublist⟩

theorem Backed.sublist {disk : Disk} {kept those : List Attempt} (h : Backed hash disk kept those) :
    those.Sublist kept := by
  rcases h with rfl | ⟨part, hpart, -, hsublist⟩
  · exact List.nil_sublist _
  · exact hsublist.trans hpart.sublist

/-! ### Opening -/

theorem Sound.torn {site : Site} {kept : List Attempt} {tail : Bytes}
    (h : Sound hash budgets site kept tail) : tail = [] ∨ Wal.Torn hash tail :=
  Wal.torn_of_cut (h.cut.imp id fun ⟨a, ha, hstart, hne⟩ => ⟨a.batch, ha, hstart, hne⟩)

theorem Sound.legal_layout {site : Site} {kept : List Attempt} {tail : Bytes}
    (h : Sound hash budgets site kept tail) :
    ∀ batch ∈ Batch.layout 1 (kept.map Attempt.records), batch.Legal := by
  rw [← h.numbered]
  intro batch hmem
  obtain ⟨a, ha, rfl⟩ := List.mem_map.mp hmem
  exact h.legal a ha

/-- A sound site opens, if it does, on its batches. -/
theorem Sound.opens {site : Site} {kept : List Attempt} {tail : Bytes}
    (h : Sound hash budgets site kept tail) {maxRetainedBytes maxWalBytes : Nat}
    {log : List (List Record)} {tail' : Bytes}
    (hopens : Store.Opens hash site.disk.content maxRetainedBytes maxWalBytes log tail') :
    log = kept.map Attempt.records ∧ tail' = tail := by
  rcases h.content with hcontent | ⟨rfl, rfl, hyoung⟩
  · have hne : site.disk.content ≠ [] := by
      rw [hcontent, List.append_assoc]
      exact List.append_ne_nil_of_left_ne_nil (by decide) _
    have himage := (hopens.content_eq.resolve_left fun h => hne h.1).2
    rw [hcontent, h.numbered.image_eq, Wal.image, Wal.image, List.append_assoc, List.append_assoc] at himage
    obtain ⟨hbatches, htail⟩ := Wal.frames_unique h.legal_layout hopens.legal h.torn hopens.ending
      (List.append_cancel_left himage)
    refine ⟨?_, htail.symm⟩
    rw [← Batch.map_records_layout 1 log, ← hbatches, Batch.map_records_layout]
  · rcases hopens.content_eq with ⟨-, himage, htail⟩ | ⟨-, himage⟩
    · exact ⟨Wal.image_eq_magic (congrArg List.length himage).le, htail⟩
    · have hle := hyoung.length_le
      rw [himage, List.length_append] at hle
      have hshort : (Wal.image hash log).length ≤ Wal.magic.length := by omega
      refine ⟨Wal.image_eq_magic hshort, List.eq_nil_of_length_eq_zero ?_⟩
      have hmagic : Wal.magic.length ≤ (Wal.image hash log).length := by
        rw [Wal.image, List.length_append]
        exact Nat.le_add_right _ _
      omega

/-- The incomplete frame is cut off. -/
theorem Sound.trim {site site' : Site} {kept : List Attempt} {tail : Bytes}
    (h : Sound hash budgets site kept tail) (hattempts : site'.attempts = site.attempts)
    (hcontent : site'.disk.content = Wal.magic ++ kept.flatMap (Attempt.bytes hash))
    (hsynced : min site.disk.synced (Wal.magic ++ kept.flatMap (Attempt.bytes hash)).length ≤
      site'.disk.synced)
    (hfits : ∃ maxRetainedBytes maxWalBytes, budgets maxRetainedBytes maxWalBytes ∧
      site'.disk.content.length ≤ maxWalBytes ∧
        Store.retained (kept.flatMap Attempt.records) ≤ maxRetainedBytes)
    (hsession : ∀ store, site'.store = some store →
      Session hash budgets site'.disk kept [] store) :
    Keeps hash budgets site.disk kept site' := by
  have hcarries : Carries hash site.disk kept site'.disk kept := by
    intro part hpart hpinned
    refine ⟨hpart, ?_⟩
    -- A part of the image is no longer than the image.
    have himage : (Wal.magic ++ part.flatMap (Attempt.bytes hash)).length ≤
        (Wal.magic ++ kept.flatMap (Attempt.bytes hash)).length := by
      obtain ⟨more, rfl⟩ := hpart
      simp only [List.flatMap_append, List.length_append]
      omega
    exact (le_min hpinned himage).trans hsynced
  refine ⟨kept, [], ?_, hcarries⟩
  exact
    { content := Or.inl (by rw [hcontent, List.append_nil])
      cut := Or.inl rfl
      legal := h.legal
      numbered := h.numbered
      sublist := hattempts ▸ h.sublist
      began := h.began
      acked := hattempts ▸ hcarries.backed h.acked
      fits := Or.inr hfits
      session := hsession }

/-- The store of an opened log is live. -/
theorem session_ofLog {disk : Disk} {kept : List Attempt} (hnumbered : Attempt.Numbered kept)
    (hcontent : disk.content = Wal.magic ++ kept.flatMap (Attempt.bytes hash))
    {maxRetainedBytes maxWalBytes : Nat} (hbudgets : budgets maxRetainedBytes maxWalBytes)
    (hretained : Store.retained (kept.flatMap Attempt.records) ≤ maxRetainedBytes)
    (hfits : disk.content.length ≤ maxWalBytes) :
    Session hash budgets disk kept []
      (Store.ofLog hash maxRetainedBytes maxWalBytes (kept.map Attempt.records)) := by
  have hevents : (Store.ofLog hash maxRetainedBytes maxWalBytes (kept.map Attempt.records)).events =
      kept.flatMap Attempt.events := hnumbered.events_ofLog
  have himage := hnumbered.image_eq hash
  refine
    { content := by rw [hcontent, List.append_nil]
      wal := rfl
      shown := ⟨kept, List.prefix_rfl, hevents, fun part hpart _ => hpart⟩
      live := fun _ => ⟨rfl, ⟨hevents, ?_, ?_, maxWalBytes, hbudgets, hcontent ▸ hfits, ?_⟩⟩ }
  · rw [List.flatMap_def]
    rfl
  · rw [List.flatMap_def] at hretained
    exact hretained
  · rw [himage]
    rfl

/-- Every session can be started with room for the magic. -/
def Spacious (budgets : Nat → Nat → Prop) : Prop :=
  ∀ maxRetainedBytes maxWalBytes, budgets maxRetainedBytes maxWalBytes → 8 ≤ maxWalBytes

theorem Sound.openStore (hspacious : Spacious budgets) {site : Site} {kept : List Attempt} {tail : Bytes}
    (h : Sound hash budgets site kept tail) {maxRetainedBytes maxWalBytes : Nat}
    (hbudgets : budgets maxRetainedBytes maxWalBytes) :
    Keeps hash budgets site.disk kept (site.next hash (.openStore maxRetainedBytes maxWalBytes)) := by
  rw [next]
  rcases hopening : Store.disk hash site.disk.content maxRetainedBytes maxWalBytes with
    ⟨calls, error | store⟩
  · obtain rfl := Store.disk_error hopening
    refine ⟨kept, tail, ⟨h.content, h.cut, h.legal, h.numbered, h.sublist, h.began, h.acked, h.fits, ?_⟩,
      Carries.refl _ _⟩
    intro store hstore
    cases hstore
  · obtain ⟨log, tail', hopens, rfl, rfl⟩ := Store.disk_eq_ok.mp hopening
    obtain ⟨rfl, rfl⟩ := h.opens hopens
    have hcontent := hopens.content_run
    have hsynced := hopens.synced_run
    have hretained := hopens.retained
    have hfits := hopens.image_le (hspacious _ _ hbudgets)
    rw [← List.flatMap_def] at hretained
    rw [← hcontent] at hfits
    rw [← h.numbered.image_eq] at hcontent hsynced hfits
    refine h.trim rfl ?_ ?_ ⟨_, _, hbudgets, ?_, hretained⟩ ?_
    · rw [← h.numbered.image_eq]
      exact hcontent
    · rw [← h.numbered.image_eq]
      exact hsynced
    · rw [← h.numbered.image_eq]
      exact hfits
    · intro store hstore
      cases hstore
      apply session_ofLog h.numbered _ hbudgets hretained
      · rw [← h.numbered.image_eq]
        exact hfits
      · rw [← h.numbered.image_eq]
        exact hcontent

theorem Stopped.nil {d d' : Disk} (h : Disk.Stopped d [] d') : d' = d := by
  cases h
  rfl

/-- A step that writes nothing, with at most one more attempt, that has no receipt. -/
theorem Sound.same {site site' : Site} {kept : List Attempt} {tail : Bytes}
    (h : Sound hash budgets site kept tail) (hdisk : site'.disk = site.disk)
    (hattempts : site'.attempts = site.attempts ∨
      ∃ a, a.receipt = none ∧ site'.attempts = site.attempts ++ [a])
    (hsession : ∀ store, site'.store = some store → Session hash budgets site.disk kept tail store) :
    Keeps hash budgets site.disk kept site' := by
  have hsublist : site.attempts.Sublist site'.attempts := by
    rcases hattempts with heq | ⟨a, -, heq⟩
    · rw [heq]
    · rw [heq]
      exact List.sublist_append_left _ _
  have hacked : (site'.attempts.filter fun a => a.receipt.isSome) =
      site.attempts.filter fun a => a.receipt.isSome := by
    rcases hattempts with heq | ⟨a, hnone, heq⟩
    · rw [heq]
    · simp [heq, hnone]
  refine ⟨kept, tail, ?_, hdisk ▸ Carries.refl _ _⟩
  exact
    { content := hdisk ▸ h.content
      cut := h.cut
      legal := h.legal
      numbered := h.numbered
      sublist := h.sublist.trans hsublist
      began := h.began
      acked := by
        rw [hacked, hdisk]
        exact h.acked
      fits := hdisk ▸ h.fits
      session := fun store hstore => hdisk ▸ hsession store hstore }

theorem Sound.openKilled (hspacious : Spacious budgets) {site : Site} {kept : List Attempt} {tail : Bytes}
    (h : Sound hash budgets site kept tail) (hstore : site.store = none)
    {maxRetainedBytes maxWalBytes : Nat} (hbudgets : budgets maxRetainedBytes maxWalBytes) {left : Disk}
    (hleft : Disk.Stopped site.disk
      (Store.disk hash site.disk.content maxRetainedBytes maxWalBytes).1 left) :
    Keeps hash budgets site.disk kept { site with disk := left } := by
  have hsession : ∀ (disk : Disk) (kept : List Attempt) (tail : Bytes) (store : Store),
      site.store = some store → Session hash budgets disk kept tail store := by
    intro disk kept tail store hsome
    rw [hstore] at hsome
    cases hsome
  rcases hopening : Store.disk hash site.disk.content maxRetainedBytes maxWalBytes with
    ⟨calls, error | store⟩
  · obtain rfl := Store.disk_error hopening
    rw [hopening] at hleft
    exact h.same (Stopped.nil hleft) (Or.inl rfl) fun store => hsession _ _ _ store
  · obtain ⟨log, tail', hopens, rfl, rfl⟩ := Store.disk_eq_ok.mp hopening
    obtain ⟨rfl, rfl⟩ := h.opens hopens
    rw [hopening] at hleft
    have hretained := hopens.retained
    have hfits := hopens.image_le (hspacious _ _ hbudgets)
    have himage := h.numbered.image_eq hash
    rw [← List.flatMap_def] at hretained
    rcases hopens.content_eq with ⟨hempty, hmagic, rfl⟩ | ⟨hne, hcontent⟩
    · -- The first open: some of the magic is written.
      have hkept : kept = [] := List.map_eq_nil_iff.mp
        (Wal.image_eq_magic (congrArg List.length hmagic).le)
      subst hkept
      have hwrite : Disk.Stopped site.disk
          [.write site.disk.content.length Wal.magic, .sync] left := by
        rw [Wal.openCalls, if_pos hempty, if_pos rfl, List.append_nil] at hleft
        rw [hempty]
        exact hleft
      have hstart : left.content <+: Wal.magic := by
        rcases hwrite.append_sync with ⟨kept, hcontent, -⟩ | ⟨hcontent, -⟩
        · rw [hcontent, hempty]
          exact List.take_prefix _ _
        · rw [hcontent, hempty]
          exact List.prefix_rfl
      refine ⟨[], [], ⟨Or.inr ⟨rfl, rfl, hstart⟩, Or.inl rfl, h.legal, h.numbered, h.sublist, h.began,
        Or.inl (List.sublist_nil.mp h.acked.sublist), Or.inl ⟨rfl, rfl⟩, hsession _ _ _⟩, ?_⟩
      intro part hpart hpinned
      -- Nothing is synchronised yet.
      have hle := site.disk.synced_le
      rw [hempty, List.length_nil] at hle
      rw [Pinned, List.length_append] at hpinned
      have : Wal.magic.length = 8 := rfl
      omega
    · rw [Wal.openCalls, if_neg hne, List.nil_append] at hleft
      split_ifs at hleft with htail
      · exact h.same (Stopped.nil hleft) (Or.inl rfl) fun store => hsession _ _ _ store
      · have hle : (Wal.image hash (kept.map Attempt.records)).length ≤ site.disk.content.length := by
          rw [hcontent, List.length_append]
          exact Nat.le_add_right _ _
        rcases hleft.setLen_sync hle with rfl | ⟨hcut, hsynced⟩
        · exact h.same rfl (Or.inl rfl) fun store => hsession _ _ _ store
        · have hcut : left.content = Wal.magic ++ kept.flatMap (Attempt.bytes hash) := by
            rw [hcut, hcontent, List.take_left' rfl, himage]
          refine h.trim rfl hcut ?_ ⟨_, _, hbudgets, ?_, hretained⟩ (hsession _ _ _)
          · rw [himage]
            rcases hsynced with heq | heq
            · exact heq.ge
            · simp only [heq, hcut, himage]
              exact min_le_right _ _
          · simp only [hcut, himage]
            exact hfits

/-- A crash keeps a prefix of the file and so of the batches. -/
theorem Sound.crash {site : Site} {kept : List Attempt} {tail : Bytes}
    (h : Sound hash budgets site kept tail) {left : Disk} (hleft : Disk.Crashed site.disk left) :
    ∃ kept' tail', kept' <+: kept ∧
      Sound hash budgets { site with disk := left, store := none } kept' tail' ∧
        Carries hash site.disk kept left kept' := by
  have hsession : ∀ (disk : Disk) (kept : List Attempt) (tail : Bytes) (store : Store),
      (none : Option Store) = some store → Session hash budgets disk kept tail store := by simp
  have hsynced : site.disk.synced ≤ left.content.length := hleft.synced ▸ left.synced_le
  -- What must survive is as long as the bytes that do.
  have hlength : ∀ part, Pinned hash site.disk part →
      (Wal.magic ++ part.flatMap (Attempt.bytes hash)).length ≤ left.content.length :=
    fun part hpinned => hpinned.trans hsynced
  have hpinned : ∀ {part}, Pinned hash site.disk part → Pinned hash left part :=
    fun hpinned => hpinned.trans hleft.synced.ge
  by_cases hyoung : left.content <+: Wal.magic
  · -- Nothing but a part of the magic is left, so nothing else was synchronised.
    have hnone : ∀ part, Pinned hash site.disk part → part = [] := by
      intro part hpart
      have hle := (hlength part hpart).trans hyoung.length_le
      cases part with
      | nil => rfl
      | cons a part =>
          have hframe := Wal.length_frame hash a.batch
          rw [Wal.headerBytes] at hframe
          rw [List.length_append, List.flatMap_cons, List.length_append, Attempt.bytes] at hle
          omega
    have hcarries : Carries hash site.disk kept left [] := by
      intro part _ hpart
      refine ⟨?_, hpinned hpart⟩
      rw [hnone part hpart]
    exact ⟨[], [], List.nil_prefix, ⟨Or.inr ⟨rfl, rfl, hyoung⟩, Or.inl rfl, by simp, rfl,
      List.nil_sublist _, by simp, hcarries.backed h.acked, Or.inl ⟨rfl, rfl⟩, hsession _ _ _⟩, hcarries⟩
  · have hcontent : site.disk.content = Wal.magic ++ kept.flatMap (Attempt.bytes hash) ++ tail := by
      rcases h.content with hcontent | ⟨-, -, hstart⟩
      · exact hcontent
      · exact absurd (hleft.content.trans hstart) hyoung
    have hstart := hleft.content
    rw [hcontent, List.append_assoc] at hstart
    obtain ⟨bs, hbs⟩ : Wal.magic <+: left.content := by
      rcases List.prefix_or_prefix_of_prefix (List.prefix_append Wal.magic _) hstart with h | h
      · exact h
      · exact absurd h hyoung
    rw [← hbs] at hstart
    obtain ⟨kept', tail', hkept, hcut, rfl, hmost⟩ :=
      prefix_flatMap h.legal h.cut ((List.prefix_append_right_inj _).mp hstart)
    have hcarries : Carries hash site.disk kept left kept' := by
      intro part hpart hpart'
      refine ⟨?_, hpinned hpart'⟩
      apply hmost part hpart
      have hle := hlength part hpart'
      rw [← hbs] at hle
      simp only [List.length_append] at hle ⊢
      omega
    refine ⟨kept', tail', hkept, ?_, hcarries⟩
    exact
      { content := Or.inl (by rw [← hbs, List.append_assoc])
        cut := hcut
        legal := fun a ha => h.legal a (hkept.subset ha)
        numbered := h.numbered.of_prefix hkept
        sublist := hkept.sublist.trans h.sublist
        began := fun a ha => h.began a (hkept.subset ha)
        acked := hcarries.backed h.acked
        fits := by
          rcases h.fits with ⟨rfl, rfl⟩ | ⟨maxRetainedBytes, maxWalBytes, hbudgets, hle, hretained⟩
          · rw [List.prefix_nil] at hkept
            subst hkept
            left
            rw [List.flatMap_nil, List.append_nil, List.nil_append, List.prefix_append_right_inj] at hstart
            exact ⟨rfl, List.prefix_nil.mp hstart⟩
          · refine Or.inr ⟨_, _, hbudgets, hleft.content.length_le.trans hle, le_trans ?_ hretained⟩
            obtain ⟨more, rfl⟩ := hkept
            rw [List.flatMap_append, Store.retained_append]
            exact Nat.le_add_right _ _
        session := hsession _ _ _ }

/-! ### Publishing -/

/-- A batch a store accepts is one the log can hold. -/
theorem legal_of_accepts {store : Store} {records : List Record} (haccepts : store.Accepts records)
    (hpublishable : Publishable records) : (⟨store.lastSequence + 1, records⟩ : Batch).Legal := by
  refine ⟨?_, hpublishable⟩
  have hone := hpublishable.legal.nonempty
  have hlast := haccepts.sequences
  rw [u64Max] at hlast
  simp only
  omega

/-- A live session has room for a batch it accepts. -/
theorem Live.room {kept : List Attempt} {store : Store} (h : Live hash budgets kept store) {a : Attempt}
    {records : List Record} (haccepts : store.Accepts records) (hrecords : a.records = records) :
    ∃ maxRetainedBytes maxWalBytes, budgets maxRetainedBytes maxWalBytes ∧
      (Wal.magic ++ (kept ++ [a]).flatMap (Attempt.bytes hash)).length ≤ maxWalBytes ∧
        Store.retained ((kept ++ [a]).flatMap Attempt.records) ≤ maxRetainedBytes := by
  obtain ⟨maxWalBytes, hbudgets, hfits, hwal⟩ := h.wal
  refine ⟨store.maxRetainedBytes, maxWalBytes, hbudgets, ?_, ?_⟩
  · have hroom := haccepts.room _ hwal
    rw [← hrecords, Attempt.records, Wal.batchBytes_eq hash] at hroom
    simp only [List.flatMap_append, List.flatMap_singleton, List.length_append, Attempt.bytes] at hroom hfits ⊢
    omega
  · have hretained := haccepts.retained
    have hle := h.retained_le
    rw [List.flatMap_append, Store.retained_append, List.flatMap_singleton, hrecords,
      ← h.retainedBytes]
    omega

/-- A whole frame is at the end of the file. -/
theorem Sound.append {site site' : Site} {kept : List Attempt}
    (h : Sound hash budgets site kept []) (a : Attempt)
    (hcontent : site.disk.content = Wal.magic ++ kept.flatMap (Attempt.bytes hash))
    (hlegal : a.Legal) (hbegan : a.began = true)
    (hfirst : a.batch.first = (kept.flatMap Attempt.events).length + 1)
    (hattempts : site'.attempts = site.attempts ++ [a])
    (hdisk : site'.disk.content = site.disk.content ++ a.bytes hash)
    (hsynced : site.disk.synced ≤ site'.disk.synced)
    (hacked : a.receipt = none ∨ site'.disk.synced = site'.disk.content.length)
    (hfits : ∃ maxRetainedBytes maxWalBytes, budgets maxRetainedBytes maxWalBytes ∧
      (Wal.magic ++ (kept ++ [a]).flatMap (Attempt.bytes hash)).length ≤ maxWalBytes ∧
        Store.retained ((kept ++ [a]).flatMap Attempt.records) ≤ maxRetainedBytes)
    (hsession : ∀ store, site'.store = some store →
      Session hash budgets site'.disk (kept ++ [a]) [] store) :
    Keeps hash budgets site.disk kept site' := by
  have himage : site'.disk.content = Wal.magic ++ (kept ++ [a]).flatMap (Attempt.bytes hash) := by
    rw [hdisk, hcontent, List.flatMap_append, List.flatMap_singleton, List.append_assoc]
  have hcarries : Carries hash site.disk kept site'.disk (kept ++ [a]) := fun part hpart hpinned =>
    ⟨hpart.trans (List.prefix_append _ _), hpinned.trans hsynced⟩
  refine ⟨kept ++ [a], [], ?_, hcarries⟩
  exact
    { content := Or.inl (by rw [himage, List.append_nil])
      cut := Or.inl rfl
      legal := List.forall_mem_append.mpr ⟨h.legal, by simpa using hlegal⟩
      numbered := h.numbered.concat hfirst
      sublist := hattempts ▸ h.sublist.append_right [a]
      began := List.forall_mem_append.mpr ⟨h.began, by simpa using hbegan⟩
      acked := by
        rcases hacked with hnone | hsync
        · simpa [hattempts, hnone] using hcarries.backed h.acked
        · -- Everything is synchronised now.
          rw [hattempts, List.filter_append]
          refine Or.inr ⟨kept ++ [a], List.prefix_rfl, ?_, h.acked.sublist.append List.filter_sublist⟩
          rw [Pinned, hsync, himage]
      fits := by
        obtain ⟨maxRetainedBytes, maxWalBytes, hbudgets, hle, hretained⟩ := hfits
        exact Or.inr ⟨_, _, hbudgets, himage ▸ hle, hretained⟩
      session := hsession }

/-- A part of a frame is at the end of the file. -/
theorem Sound.tear {site site' : Site} {kept : List Attempt} {a : Attempt} {torn : Bytes}
    (h : Sound hash budgets site kept [])
    (hcontent : site.disk.content = Wal.magic ++ kept.flatMap (Attempt.bytes hash))
    (hlegal : a.Legal) (hreceipt : a.receipt = none) (htorn : torn <+: a.bytes hash)
    (hne : torn ≠ a.bytes hash) (hattempts : site'.attempts = site.attempts ++ [a])
    (hdisk : site'.disk.content = site.disk.content ++ torn)
    (hsynced : site.disk.synced ≤ site'.disk.synced)
    (hfits : ∃ maxRetainedBytes maxWalBytes, budgets maxRetainedBytes maxWalBytes ∧
      (Wal.magic ++ (kept ++ [a]).flatMap (Attempt.bytes hash)).length ≤ maxWalBytes ∧
        Store.retained ((kept ++ [a]).flatMap Attempt.records) ≤ maxRetainedBytes)
    (hsession : ∀ store, site'.store = some store → Session hash budgets site'.disk kept torn store) :
    Keeps hash budgets site.disk kept site' := by
  have hcarries : Carries hash site.disk kept site'.disk kept := fun part hpart hpinned =>
    ⟨hpart, hpinned.trans hsynced⟩
  refine ⟨kept, torn, ?_, hcarries⟩
  exact
    { content := Or.inl (by rw [hdisk, hcontent])
      cut := Or.inr ⟨a, hlegal, htorn, hne⟩
      legal := h.legal
      numbered := h.numbered
      sublist := hattempts ▸ h.sublist.trans (List.sublist_append_left _ _)
      began := h.began
      acked := by
        simpa [hattempts, hreceipt] using hcarries.backed h.acked
      fits := by
        obtain ⟨maxRetainedBytes, maxWalBytes, hbudgets, hle, hretained⟩ := hfits
        refine Or.inr ⟨_, _, hbudgets, le_trans ?_ hle, le_trans ?_ hretained⟩
        · have := htorn.length_le
          simp only [hdisk, hcontent, List.flatMap_append, List.flatMap_singleton, List.length_append]
          omega
        · rw [List.flatMap_append, Store.retained_append]
          exact Nat.le_add_right _ _
      session := hsession }

theorem prefix_of_bytes_le (hash : Bytes → UInt32) {kept part : List Attempt} {all : List Attempt} (hkept : kept <+: all)
    (hpart : part <+: all) (hle : (part.flatMap (Attempt.bytes hash)).length ≤
      (kept.flatMap (Attempt.bytes hash)).length) : part <+: kept := by
  rcases List.prefix_or_prefix_of_prefix hpart hkept with h | ⟨more, rfl⟩
  · exact h
  · cases more with
    | nil => rw [List.append_nil]
    | cons a more =>
        have hframe := Wal.length_frame hash a.batch
        rw [Wal.headerBytes] at hframe
        rw [List.flatMap_append, List.flatMap_cons, List.length_append, List.length_append,
          Attempt.bytes] at hle
        omega

/-- A session whose write failed still knows everything synchronised. -/
theorem session_poisoned {disk : Disk} {kept kept' : List Attempt} {tail : Bytes} {store : Store}
    (hcontent : disk.content = Wal.magic ++ kept'.flatMap (Attempt.bytes hash) ++ tail)
    (hkept : kept <+: kept')
    (hsynced : disk.synced ≤ (Wal.magic ++ kept.flatMap (Attempt.bytes hash)).length)
    (hevents : store.events = kept.flatMap Attempt.events) (hwal : store.wal.isSome = true)
    (hpoisoned : store.poisoned = true) : Session hash budgets disk kept' tail store where
  content := hcontent
  wal := hwal
  shown := by
    refine ⟨kept, hkept, hevents, ?_⟩
    intro part hpart hpinned
    apply prefix_of_bytes_le hash hkept hpart
    rw [Pinned, List.length_append] at hpinned
    rw [List.length_append] at hsynced
    omega
  live := by
    intro hsound
    rw [hpoisoned] at hsound
    cases hsound

/-- Some of a frame is written and not synchronised; the session, if it goes on, is poisoned. -/
theorem Sound.wrote {site site' : Site} {kept : List Attempt}
    (h : Sound hash budgets site kept []) (a : Attempt) (written : Nat)
    (hcontent : site.disk.content = Wal.magic ++ kept.flatMap (Attempt.bytes hash))
    (hlegal : a.Legal) (hbegan : a.began = true) (hreceipt : a.receipt = none)
    (hfirst : a.batch.first = (kept.flatMap Attempt.events).length + 1)
    (hattempts : site'.attempts = site.attempts ++ [a])
    (hdisk : site'.disk.content = site.disk.content ++ (a.bytes hash).take written)
    (hsynced : site'.disk.synced = site.disk.synced)
    (hfits : ∃ maxRetainedBytes maxWalBytes, budgets maxRetainedBytes maxWalBytes ∧
      (Wal.magic ++ (kept ++ [a]).flatMap (Attempt.bytes hash)).length ≤ maxWalBytes ∧
        Store.retained ((kept ++ [a]).flatMap Attempt.records) ≤ maxRetainedBytes)
    (hstore : ∀ store, site'.store = some store →
      store.events = kept.flatMap Attempt.events ∧ store.wal.isSome = true ∧ store.poisoned = true) :
    Keeps hash budgets site.disk kept site' := by
  have hle : site'.disk.synced ≤ (Wal.magic ++ kept.flatMap (Attempt.bytes hash)).length := by
    rw [hsynced, ← hcontent]
    exact site.disk.synced_le
  by_cases hwhole : (a.bytes hash).length ≤ written
  · rw [List.take_of_length_le hwhole] at hdisk
    refine h.append a hcontent hlegal hbegan hfirst hattempts hdisk hsynced.ge (Or.inl hreceipt) hfits ?_
    intro store hsome
    obtain ⟨hevents, hwal, hpoisoned⟩ := hstore store hsome
    refine session_poisoned ?_ (List.prefix_append _ _) hle hevents hwal hpoisoned
    rw [hdisk, hcontent, List.flatMap_append, List.flatMap_singleton, List.append_nil, List.append_assoc]
  · have hne : (a.bytes hash).take written ≠ a.bytes hash := by
      intro heq
      have := congrArg List.length heq
      rw [List.length_take] at this
      omega
    refine h.tear hcontent hlegal hreceipt (List.take_prefix _ _) hne hattempts hdisk hsynced.ge hfits ?_
    intro store hsome
    obtain ⟨hevents, hwal, hpoisoned⟩ := hstore store hsome
    exact session_poisoned (by rw [hdisk, hcontent]) List.prefix_rfl hle hevents hwal hpoisoned

/-- Where a live session writes, and under which sequence. -/
theorem Live.position {kept : List Attempt} {store : Store} (h : Live hash budgets kept store) {disk : Disk}
    (hcontent : disk.content = Wal.magic ++ kept.flatMap (Attempt.bytes hash)) {wal : Wal}
    (hwal : store.wal = some wal) :
    wal.offset = disk.content.length ∧ wal.bytes = disk.content.length ∧
      store.lastSequence + 1 = (kept.flatMap Attempt.events).length + 1 := by
  obtain ⟨maxWalBytes, -, -, hwal'⟩ := h.wal
  rw [hwal] at hwal'
  obtain rfl := Option.some.inj hwal'
  rw [hcontent, Store.lastSequence, h.events]
  exact ⟨rfl, rfl, rfl⟩

/-- The store after an acknowledged batch is live on the longer log. -/
theorem Live.accepted {kept : List Attempt} {store : Store} (h : Live hash budgets kept store)
    {a : Attempt} {records : List Record} (haccepts : store.Accepts records)
    (hbatch : a.batch = ⟨store.lastSequence + 1, records⟩) {wal : Wal} (hwal : store.wal = some wal) :
    Live hash budgets (kept ++ [a])
      { store.accepted records with
        wal := some { wal with
          offset := wal.offset + (a.bytes hash).length
          bytes := wal.bytes + (a.bytes hash).length } } := by
  have hrecords : a.records = records := by rw [Attempt.records, hbatch]
  have hevents : a.events = Store.number (store.lastSequence + 1) records := by
    rw [Attempt.events, hbatch]
  obtain ⟨maxWalBytes, hbudgets, hfits, hwal'⟩ := h.wal
  have hroom := haccepts.room _ hwal'
  rw [hwal] at hwal'
  obtain rfl := Option.some.inj hwal'
  have hlength : (Wal.magic ++ (kept ++ [a]).flatMap (Attempt.bytes hash)).length =
      (Wal.magic ++ kept.flatMap (Attempt.bytes hash)).length + (a.bytes hash).length := by
    rw [List.flatMap_append, List.flatMap_singleton, ← List.append_assoc, List.length_append]
  refine ⟨?_, ?_, ?_, maxWalBytes, hbudgets, ?_, ?_⟩
  · rw [List.flatMap_append, List.flatMap_singleton, ← h.events, hevents]
    rfl
  · rw [List.flatMap_append, List.flatMap_singleton, Store.retained_append, ← h.retainedBytes, hrecords]
    rfl
  · have hretained := haccepts.retained
    have hle := h.retained_le
    simp only [Store.accepted]
    omega
  · rw [← hrecords, Attempt.records, Wal.batchBytes_eq hash, ← Attempt.bytes] at hroom
    simp only at hroom
    omega
  · rw [hlength]

theorem Sound.publish {site : Site} {kept : List Attempt} {tail : Bytes}
    (h : Sound hash budgets site kept tail) {store : Store} (hstore : site.store = some store)
    {records : List Record} (hpublishable : Publishable records) (fault : Option Fault) :
    Keeps hash budgets site.disk kept (site.next hash (.publish records fault)) := by
  have hsession := h.session store hstore
  rw [next, hstore]
  simp only
  have hcases := Store.publish_cases hash store records fault
  generalize store.publish hash records fault = out at hcases ⊢
  cases hcases with
  | refused error =>
      refine h.same ?_ (Or.inr ⟨site.attempt store records [] none, ?_, ?_⟩) ?_
      · rfl
      · rfl
      · rfl
      · intro store' hstore'
        cases hstore'
        exact hsession
  | failed wal written error hwal haccepts hfault =>
      obtain ⟨rfl, hlive⟩ := hsession.live haccepts.sound
      have hcontent := hsession.content
      rw [List.append_nil] at hcontent
      obtain ⟨hoffset, -, hfirst⟩ := hlive.position hcontent hwal
      refine h.wrote (site.attempt store records
        [.write wal.offset ((Wal.frame hash ⟨store.lastSequence + 1, records⟩).take written)] none)
        written hcontent (legal_of_accepts haccepts hpublishable) ?_ rfl hfirst rfl ?_ ?_
        (hlive.room haccepts rfl) ?_
      · rfl
      · simp only [hoffset]
        exact Disk.content_append _ _
      · simp only [hoffset]
        exact Disk.synced_append _ _
      · intro store' hstore'
        cases hstore'
        exact ⟨hlive.events, rfl, rfl⟩
  | durable wal hwal haccepts hfault =>
      obtain ⟨rfl, hlive⟩ := hsession.live haccepts.sound
      have hcontent := hsession.content
      rw [List.append_nil] at hcontent
      obtain ⟨hoffset, hbytes, hfirst⟩ := hlive.position hcontent hwal
      refine h.append (site.attempt store records
        (Wal.appendCalls hash wal ⟨store.lastSequence + 1, records⟩)
        (some (store.acceptedReceipt records))) hcontent (legal_of_accepts haccepts hpublishable) ?_
        hfirst rfl ?_ ?_ (Or.inr rfl) (hlive.room haccepts rfl) ?_
      · rfl
      · simp only [Wal.appendCalls, hoffset]
        exact Disk.content_append _ _
      · -- The whole file is synchronised.
        have hle := site.disk.synced_le
        have hnew := congrArg List.length
          (Disk.content_append site.disk (Wal.frame hash ⟨store.lastSequence + 1, records⟩))
        rw [List.length_append] at hnew
        simp only [Wal.appendCalls, hoffset, Disk.run, List.foldl_cons, List.foldl_nil]
        exact (hle.trans (Nat.le_add_right _ _)).trans hnew.ge
      · intro store' hstore'
        cases hstore'
        have hlive' := hlive.accepted (a := site.attempt store records
          (Wal.appendCalls hash wal ⟨store.lastSequence + 1, records⟩)
          (some (store.acceptedReceipt records))) haccepts rfl hwal
        refine ⟨?_, rfl, ⟨_, List.prefix_rfl, hlive'.events, fun part hpart _ => hpart⟩,
          fun _ => ⟨rfl, hlive'⟩⟩
        simp only [Wal.appendCalls, hoffset]
        rw [List.flatMap_append, List.flatMap_singleton, List.append_nil, ← List.append_assoc, ← hcontent]
        exact Disk.content_append _ _
  | volatile hwal haccepts =>
      have := hsession.wal
      rw [hwal] at this
      cases this


theorem Sound.publishKilled {site : Site} {kept : List Attempt} {tail : Bytes}
    (h : Sound hash budgets site kept tail) {store : Store} (hstore : site.store = some store)
    {records : List Record} (hpublishable : Publishable records) {left : Disk}
    (hleft : Disk.Stopped site.disk (store.publish hash records none).2.1 left) :
    Keeps hash budgets site.disk kept (site.next hash (.publishKilled records left)) := by
  have hsession := h.session store hstore
  rw [next, hstore]
  simp only
  have hcases := Store.publish_cases hash store records none
  generalize store.publish hash records none = out at hcases hleft ⊢
  cases hcases with
  | refused error =>
      refine h.same ?_ (Or.inr ⟨site.attempt store records [] none, ?_, ?_⟩) (by simp)
      · exact Stopped.nil hleft
      · rfl
      · rfl
  | failed wal written error hwal haccepts hfault => exact absurd rfl hfault
  | durable wal hwal haccepts hfault =>
      obtain ⟨rfl, hlive⟩ := hsession.live haccepts.sound
      have hcontent := hsession.content
      rw [List.append_nil] at hcontent
      obtain ⟨hoffset, -, hfirst⟩ := hlive.position hcontent hwal
      have hstopped : Disk.Stopped site.disk
          [.write site.disk.content.length (Wal.frame hash ⟨store.lastSequence + 1, records⟩), .sync]
          left := by
        rw [← hoffset]
        exact hleft
      have hlegal := legal_of_accepts haccepts hpublishable
      rcases hstopped.append_sync with ⟨written, hdisk, hsynced⟩ | ⟨hdisk, hsynced⟩
      · exact h.wrote (site.attempt store records
          (Wal.appendCalls hash wal ⟨store.lastSequence + 1, records⟩) none) written hcontent hlegal rfl
          rfl hfirst rfl hdisk hsynced (hlive.room haccepts rfl) (by simp)
      · refine h.append (site.attempt store records
          (Wal.appendCalls hash wal ⟨store.lastSequence + 1, records⟩) none) hcontent hlegal rfl hfirst
          rfl hdisk ?_ (Or.inl rfl) (hlive.room haccepts rfl) (by simp)
        have hle := site.disk.synced_le
        simp only [hsynced, hdisk, List.length_append]
        omega
  | volatile hwal haccepts =>
      have := hsession.wal
      rw [hwal] at this
      cases this

theorem Session.counters {disk : Disk} {kept : List Attempt} {tail : Bytes} {store : Store}
    (h : Session hash budgets disk kept tail store) (fetched coalesced : Nat) :
    Session hash budgets disk kept tail
      { store with fetchedRecords := fetched, coalescedRecords := coalesced } where
  content := h.content
  wal := h.wal
  shown := h.shown
  live := fun hsound => by
    obtain ⟨htail, hlive⟩ := h.live hsound
    exact ⟨htail, hlive.events, hlive.retainedBytes, hlive.retained_le, hlive.wal⟩

theorem Sound.fetch {site : Site} {kept : List Attempt} {tail : Bytes}
    (h : Sound hash budgets site kept tail) {store : Store} (hstore : site.store = some store)
    (request : Fetch) :
    Keeps hash budgets site.disk kept (site.next hash (.fetch request)) := by
  obtain ⟨fetched, coalesced, hfetch⟩ := store.fetch_counters request
  have hsession := (h.session store hstore).counters fetched coalesced
  rw [← hfetch] at hsession
  rw [next, hstore]
  simp only
  split
  all_goals
    rename_i hresult
    rw [hresult] at hsession
    refine h.same ?_ (Or.inl ?_) ?_
    · rfl
    · rfl
    · intro store' hstore'
      cases hstore'
      exact hsession

/-- **Every step keeps the file sound and what is synchronised on it.** -/
theorem Sound.next (hspacious : Spacious budgets) {site : Site} {kept : List Attempt} {tail : Bytes}
    (h : Sound hash budgets site kept tail) {op : Op} (henabled : site.Enabled hash budgets op) :
    Keeps hash budgets site.disk kept (site.next hash op) := by
  cases op with
  | openStore maxRetainedBytes maxWalBytes => exact h.openStore hspacious henabled.2
  | openKilled maxRetainedBytes maxWalBytes left =>
      obtain ⟨hstore, hbudgets, hleft⟩ := henabled
      exact h.openKilled hspacious hstore hbudgets hleft
  | publish records fault =>
      obtain ⟨store, hstore⟩ := Option.ne_none_iff_exists'.mp henabled.1
      exact h.publish hstore henabled.2 fault
  | publishKilled records left =>
      obtain ⟨store, hstore, hpublishable, hleft⟩ := henabled
      exact h.publishKilled hstore hpublishable hleft
  | fetch request =>
      obtain ⟨store, hstore⟩ := Option.ne_none_iff_exists'.mp henabled
      exact h.fetch hstore request
  | exit => exact h.same rfl (Or.inl rfl) nofun
  | crash left =>
      obtain ⟨kept', tail', -, h'⟩ := h.crash henabled
      exact ⟨kept', tail', h'⟩

theorem sound_fresh : Sound hash budgets fresh [] [] where
  content := Or.inr ⟨rfl, rfl, List.nil_prefix⟩
  cut := Or.inl rfl
  legal := nofun
  numbered := rfl
  sublist := List.nil_sublist _
  began := nofun
  acked := Or.inl rfl
  fits := Or.inl ⟨rfl, rfl⟩
  session := nofun

theorem sound_reachable (hspacious : Spacious budgets) {site : Site}
    (h : (directory hash budgets).Reachable site) : ∃ kept tail, Sound hash budgets site kept tail := by
  apply h.invariant (P := fun site => ∃ kept tail, Sound hash budgets site kept tail)
  · rintro site rfl
    exact ⟨[], [], sound_fresh⟩
  · rintro site op _ - ⟨kept, tail, h⟩ ⟨henabled, rfl⟩
    obtain ⟨kept', tail', h', -⟩ := h.next hspacious henabled
    exact ⟨kept', tail', h'⟩

end

end Site

end VeloBus
