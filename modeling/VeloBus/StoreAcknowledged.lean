import VeloBus.StoreDurability

/-! What the attempts look like, and what an open recovers of them. A session that leaves an append
without a receipt begins no other, so a recovered log holds at most one such batch of each session. -/

namespace VeloBus

namespace Site

section

variable {hash : Bytes → UInt32} {budgets : Nat → Nat → Prop}

/-- The attempts so far; `current` speaks about the session that is open and can publish. -/
structure History (site : Site) : Prop where
  past : ∀ a ∈ site.attempts, a.session ≤ site.sessions
  last : site.attempts.Pairwise fun a b =>
    a.session = b.session → a.began = true → a.receipt = none → b.began = false
  current : ∀ store, site.store = some store → store.poisoned = false →
    ∀ a ∈ site.attempts, a.session = site.sessions → a.began = true → a.receipt ≠ none
  receipts : ∀ a ∈ site.attempts, ∀ receipt, a.receipt = some receipt →
    receipt = Store.receipt a.batch.first (a.batch.first + a.records.length - 1) a.records.length true

theorem History.idle {site site' : Site} (h : History site) (hattempts : site'.attempts = site.attempts)
    (hsessions : site'.sessions = site.sessions)
    (hstore : ∀ store', site'.store = some store' →
      ∃ store, site.store = some store ∧ store.poisoned = store'.poisoned) : History site' where
  past := by
    rw [hattempts, hsessions]
    exact h.past
  last := hattempts ▸ h.last
  current := by
    rw [hattempts, hsessions]
    intro store' hsome hsound
    obtain ⟨store, hstore, hpoisoned⟩ := hstore store' hsome
    exact h.current store hstore (hpoisoned.trans hsound)
  receipts := hattempts ▸ h.receipts

/-- One more attempt. -/
theorem History.attempt {site site' : Site} (h : History site) {store : Store}
    (hstore : site.store = some store) {a : Attempt} (hattempts : site'.attempts = site.attempts ++ [a])
    (hsessions : site'.sessions = site.sessions) (hsession : a.session = site.sessions)
    (hbegan : a.began = true → store.poisoned = false)
    (hpoisoned : ∀ store', site'.store = some store' → store'.poisoned = false →
      store.poisoned = false ∧ (a.began = true → a.receipt ≠ none))
    (hreceipt : ∀ receipt, a.receipt = some receipt →
      receipt = Store.receipt a.batch.first (a.batch.first + a.records.length - 1) a.records.length true) :
    History site' where
  past := by
    rw [hattempts, hsessions]
    exact List.forall_mem_append.mpr ⟨h.past, by simp [hsession]⟩
  last := by
    rw [hattempts, List.pairwise_append]
    refine ⟨h.last, List.pairwise_singleton _ _, ?_⟩
    intro b hb a' ha hsame hb' hnone
    rw [List.mem_singleton.mp ha] at hsame ⊢
    by_contra hnot
    rw [Bool.not_eq_false] at hnot
    exact h.current store hstore (hbegan hnot) b hb (hsame.trans hsession) hb' hnone
  current := by
    rw [hattempts, hsessions]
    intro store' hsome hsound
    obtain ⟨hbefore, hanswered⟩ := hpoisoned store' hsome hsound
    refine List.forall_mem_append.mpr ⟨h.current store hstore hbefore, ?_⟩
    intro a' ha _
    rw [List.mem_singleton.mp ha]
    exact hanswered
  receipts := by
    rw [hattempts]
    refine List.forall_mem_append.mpr ⟨h.receipts, ?_⟩
    intro a' ha
    rw [List.mem_singleton.mp ha]
    exact hreceipt

theorem History.publish {site : Site} (h : History site) {store : Store} (hstore : site.store = some store)
    (hwal : store.wal.isSome = true) (records : List Record) (fault : Option Fault) :
    History (site.next hash (.publish records fault)) := by
  rw [next, hstore]
  simp only
  have hcases := Store.publish_cases hash store records fault
  generalize store.publish hash records fault = out at hcases ⊢
  cases hcases with
  | refused error =>
      refine h.attempt hstore rfl rfl rfl (fun hbegan => by cases hbegan) ?_ fun _ hreceipt => by cases hreceipt
      intro store' hstore' hsound
      cases hstore'
      exact ⟨hsound, fun hbegan => by cases hbegan⟩
  | failed wal written error hwal haccepts hfault =>
      refine h.attempt hstore rfl rfl rfl (fun _ => haccepts.sound) ?_ fun _ hreceipt => by cases hreceipt
      intro store' hstore' hsound
      cases hstore'
      cases hsound
  | durable wal hwal' haccepts hfault =>
      refine h.attempt hstore rfl rfl rfl (fun _ => haccepts.sound)
        (fun _ _ _ => ⟨haccepts.sound, fun _ => Option.some_ne_none _⟩) ?_
      intro receipt hreceipt
      obtain rfl := Option.some.inj hreceipt
      have hlast : store.lastSequence + records.length = store.lastSequence + 1 + records.length - 1 := by
        omega
      rw [Store.acceptedReceipt, hwal, hlast]
      rfl
  | volatile hnone haccepts =>
      rw [hnone] at hwal
      cases hwal

theorem History.publishKilled {site : Site} (h : History site) {store : Store}
    (hstore : site.store = some store) (records : List Record) (left : Disk) :
    History (site.next hash (.publishKilled records left)) := by
  rw [next, hstore]
  simp only
  have hcases := Store.publish_cases hash store records none
  generalize store.publish hash records none = out at hcases ⊢
  refine h.attempt hstore rfl rfl rfl ?_ (fun _ hstore' => by cases hstore') fun _ hreceipt => by cases hreceipt
  intro hbegan
  cases hcases with
  | refused error => cases hbegan
  | failed wal written error hwal haccepts hfault => exact haccepts.sound
  | durable wal hwal haccepts hfault => exact haccepts.sound
  | volatile hwal haccepts => exact haccepts.sound

theorem History.next {site : Site} (h : History site)
    (hwal : ∀ store, site.store = some store → store.wal.isSome = true) {op : Op}
    (henabled : site.Enabled hash budgets op) : History (site.next hash op) := by
  cases op with
  | openStore maxRetainedBytes maxWalBytes =>
      refine ⟨fun a ha => (h.past a ha).trans (Nat.le_succ _), h.last, ?_, h.receipts⟩
      intro store _ _ a ha hsession
      have hle := h.past a ha
      simp only [Site.next] at hsession
      omega
  | openKilled maxRetainedBytes maxWalBytes left =>
      exact h.idle rfl rfl fun store hstore => ⟨store, hstore, rfl⟩
  | publish records fault =>
      obtain ⟨store, hstore⟩ := Option.ne_none_iff_exists'.mp henabled.1
      exact h.publish hstore (hwal store hstore) records fault
  | publishKilled records left =>
      obtain ⟨store, hstore, -, -⟩ := henabled
      exact h.publishKilled hstore records left
  | fetch request =>
      obtain ⟨store, hstore⟩ := Option.ne_none_iff_exists'.mp henabled
      obtain ⟨fetched, coalesced, hfetch⟩ := store.fetch_counters request
      rw [Site.next, hstore]
      simp only
      split
      all_goals
        rename_i hresult
        rw [hresult] at hfetch
        refine h.idle rfl rfl fun store' hstore' => ⟨store, hstore, ?_⟩
        cases hstore'
        exact (congrArg Store.poisoned hfetch).symm
  | exit => exact h.idle rfl rfl fun _ hstore' => by cases hstore'
  | crash left => exact h.idle rfl rfl fun _ hstore' => by cases hstore'

theorem history_reachable (hspacious : Spacious budgets) {site : Site}
    (h : (directory hash budgets).Reachable site) : History site := by
  apply h.invariant (P := History)
  · rintro site rfl
    exact ⟨nofun, List.Pairwise.nil, nofun, nofun⟩
  · rintro site op _ hreach h ⟨henabled, rfl⟩
    obtain ⟨kept, tail, hsound⟩ := sound_reachable hspacious hreach
    exact h.next (fun store hstore => (hsound.session store hstore).wal) henabled

/-! ### What an open recovers -/

/-- A sound site with a synchronised magic opens with the budgets it was used with. -/
theorem Sound.recovers {site : Site} {kept : List Attempt} {tail : Bytes} {maxRetainedBytes maxWalBytes : Nat}
    (hmax : 8 ≤ maxWalBytes)
    (h : Sound hash (fun retained wal => retained = maxRetainedBytes ∧ wal = maxWalBytes) site kept tail)
    (hmagic : Pinned hash site.disk []) :
    ∃ calls, Store.disk hash site.disk.content maxRetainedBytes maxWalBytes =
      (calls, .ok (Store.ofLog hash maxRetainedBytes maxWalBytes (kept.map Attempt.records))) := by
  have hlong : Wal.magic.length ≤ site.disk.content.length := by
    rw [Pinned, List.flatMap_nil, List.append_nil] at hmagic
    exact hmagic.trans site.disk.synced_le
  have hcontent : site.disk.content = Wal.image hash (kept.map Attempt.records) ++ tail := by
    rw [← h.numbered.image_eq]
    rcases h.content with hcontent | ⟨rfl, rfl, hyoung⟩
    · exact hcontent
    · exact hyoung.eq_of_length_le hlong
  have hne : site.disk.content ≠ [] := by
    intro hempty
    rw [hempty] at hlong
    exact absurd hlong (by decide)
  have hfits : site.disk.content.length ≤ maxWalBytes ∧
      Store.retained (kept.map Attempt.records).flatten ≤ maxRetainedBytes := by
    rcases h.fits with ⟨rfl, rfl⟩ | ⟨retained, wal, ⟨rfl, rfl⟩, hfits, hretained⟩
    · rw [hcontent]
      exact ⟨hmax, Nat.zero_le _⟩
    · rw [← List.flatMap_def]
      exact ⟨hfits, hretained⟩
  refine ⟨_, Store.disk_eq_ok.mpr ⟨_, tail, ⟨hfits.1, hfits.2, h.legal_layout, ?_, h.torn⟩, rfl, rfl⟩⟩
  rw [Wal.initial, if_neg hne, hcontent]

/-- The first open synchronises the magic. -/
theorem fresh_openStore (maxRetainedBytes maxWalBytes : Nat) :
    Pinned hash (fresh.next hash (.openStore maxRetainedBytes maxWalBytes)).disk [] := by
  rw [next_openStore_fresh]
  exact le_rfl

/-- A batch without a receipt is the last of its session in a log. -/
theorem History.pairwise {site : Site} (h : History site) {kept : List Attempt}
    (hkept : kept.Sublist site.attempts) (hbegan : ∀ a ∈ kept, a.began = true) :
    kept.Pairwise fun a b => a.session = b.session → a.receipt ≠ none := by
  refine (h.last.sublist hkept).imp_of_mem ?_
  intro a b ha hb hlast hsame hnone
  have := hlast hsame (hbegan a ha) hnone
  rw [hbegan b hb] at this
  cases this

theorem length_filter_le_one {kept : List Attempt}
    (h : kept.Pairwise fun a b => a.session = b.session → a.receipt ≠ none) (session : Nat) :
    (kept.filter fun a => a.session = session ∧ a.receipt = none).length ≤ 1 := by
  have hfilter := h.sublist
    (List.filter_sublist (p := fun a : Attempt => decide (a.session = session ∧ a.receipt = none)) (l := kept))
  have hall : ∀ a ∈ kept.filter fun a => a.session = session ∧ a.receipt = none,
      a.session = session ∧ a.receipt = none := fun a ha => of_decide_eq_true (List.mem_filter.mp ha).2
  generalize (kept.filter fun a => a.session = session ∧ a.receipt = none) = those at hfilter hall ⊢
  match those with
  | [] => exact Nat.zero_le _
  | [_] => exact le_rfl
  | a :: b :: _ =>
      have ha := hall a (by simp)
      have hb := hall b (by simp)
      exact absurd ha.2 ((List.pairwise_cons.mp hfilter).1 b List.mem_cons_self (ha.1.trans hb.1.symm))

/-- **Every open recovers all acknowledged batches, and at most one other of each session.** -/
theorem acknowledged_survive (hash : Bytes → UInt32) (maxRetainedBytes maxWalBytes : Nat)
    (hmax : 8 ≤ maxWalBytes) {ops : List Op} {site : Site}
    (hrun : (directory hash fun retained wal => retained = maxRetainedBytes ∧ wal = maxWalBytes).Run
      (fresh.next hash (.openStore maxRetainedBytes maxWalBytes)) ops site) :
    ∃ calls store kept,
      Store.disk hash site.disk.content maxRetainedBytes maxWalBytes = (calls, .ok store) ∧
      store.events = kept.flatMap Attempt.events ∧
      store.events = Store.number 1 (kept.flatMap Attempt.records) ∧
      kept.Sublist site.attempts ∧
      (site.attempts.filter fun a => a.receipt.isSome).Sublist kept ∧
      (∀ a ∈ site.attempts, ∀ receipt, a.receipt = some receipt → receipt = Store.receipt
        a.batch.first (a.batch.first + a.records.length - 1) a.records.length true) ∧
      (∀ a ∈ kept, a.began = true) ∧
      (kept.Pairwise fun a b => a.session = b.session → a.receipt ≠ none) ∧
      ∀ session, (kept.filter fun a => a.session = session ∧ a.receipt = none).length ≤ 1 := by
  set budgets : Nat → Nat → Prop := fun retained wal => retained = maxRetainedBytes ∧ wal = maxWalBytes
    with hbudgets
  have hspacious : Spacious budgets := by
    rintro retained wal ⟨-, rfl⟩
    exact hmax
  have hfirst : (directory hash budgets).Reachable
      (fresh.next hash (.openStore maxRetainedBytes maxWalBytes)) :=
    (Transition.Reachable.of_start (T := directory hash budgets) (s := fresh) rfl).step
      (l := .openStore maxRetainedBytes maxWalBytes) ⟨⟨rfl, rfl, rfl⟩, rfl⟩
  obtain ⟨kept, tail, hsound, hmagic⟩ : ∃ kept tail, Sound hash budgets site kept tail ∧
      Pinned hash site.disk [] := by
    apply hrun.preserves (P := fun site => ∃ kept tail, Sound hash budgets site kept tail ∧
      Pinned hash site.disk []) (A := fun _ => True) ?_ hfirst ?_ fun _ _ => trivial
    · rintro site op _ - ⟨kept, tail, hsound, hmagic⟩ - ⟨henabled, rfl⟩
      obtain ⟨kept', tail', hsound', hcarries⟩ := hsound.next hspacious henabled
      exact ⟨kept', tail', hsound', (hcarries [] List.nil_prefix hmagic).2⟩
    · obtain ⟨kept, tail, hsound⟩ := sound_reachable hspacious hfirst
      exact ⟨kept, tail, hsound, fresh_openStore _ _⟩
  have hhistory := history_reachable hspacious (hfirst.run hrun)
  have hpairwise := hhistory.pairwise hsound.sublist hsound.began
  obtain ⟨calls, hopening⟩ := hsound.recovers hmax hmagic
  exact ⟨calls, _, kept, hopening, hsound.numbered.events_ofLog,
    hsound.numbered.events_ofLog.trans hsound.numbered.events_eq, hsound.sublist,
    hsound.acked.sublist, hhistory.receipts, hsound.began, hpairwise, length_filter_le_one hpairwise⟩

theorem acknowledged_survive_torn : ∃ calls store,
    Store.disk Crc32.crc32 (Wal.image Crc32.crc32 [[early]]) 1000 1000 = (calls, .ok store) ∧
      store.events = [⟨1, early⟩] := by
  obtain ⟨site, hrun, hcontent, receipt, hattempts⟩ :=
    run_tearing Crc32.crc32 (fun retained wal => retained = 1000 ∧ wal = 1000) ⟨rfl, rfl⟩
  obtain ⟨calls, store, kept, hopening, hevents, hnumbered, hsublist, hacked, -⟩ :=
    acknowledged_survive Crc32.crc32 1000 1000 (by decide) hrun
  rw [hcontent] at hopening
  refine ⟨calls, store, hopening, ?_⟩
  rw [hattempts] at hsublist hacked
  -- With the batch that failed the numbers would not be consecutive.
  have hkept : kept = [⟨2, ⟨1, [early]⟩, true, some receipt⟩] := by
    have hmem := hacked.subset List.mem_cons_self
    rcases List.sublist_cons_iff.mp hsublist with hrest | ⟨rest, rfl, hrest⟩
    · exact hrest.eq_of_length_le (List.length_pos_of_mem hmem)
    · rcases List.mem_cons.mp hmem with hsame | hmem
      · cases hsame
      · obtain rfl := hrest.eq_of_length_le (List.length_pos_of_mem hmem)
        cases hevents.symm.trans hnumbered
  rw [hevents, hkept]
  rfl

end

end Site

end VeloBus
