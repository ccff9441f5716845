import VeloBus.StoreAcknowledged

/-! Checkpoints. An event that was replayed and served stays only if its frame is synchronised, and an
open does not synchronise what it replays. Where every fetch reads synchronised events, whatever it
returned stays in the log for good; where one does not, a crash can give its sequence to another event. -/

namespace VeloBus

namespace Site

section

variable {hash : Bytes → UInt32}

/-- The events are the start of the log: of the open session and of every one that could be opened. -/
def Holds (hash : Bytes → UInt32) (site : Site) (seen : List Event) : Prop :=
  (∀ store, site.store = some store → seen <+: store.events) ∧
    ∀ maxRetainedBytes maxWalBytes calls store,
      Store.disk hash site.disk.content maxRetainedBytes maxWalBytes = (calls, .ok store) →
        seen <+: store.events

/-- The log still starts with all events up to each cursor returned, those returned among them. -/
def CheckpointsValid (hash : Bytes → UInt32) (site : Site) : Prop :=
  ∀ served ∈ site.served, served.result.events ⊆ served.seen ∧
    served.seen.length = served.result.cursor ∧ site.Holds hash served.seen

/-- The events a fetch can reach, and all before them, are replayed from the synchronised bytes alone. -/
def Settled (hash : Bytes → UInt32) (site : Site) (request : Fetch) : Prop :=
  ∃ maxRetainedBytes maxWalBytes calls durable,
    Store.disk hash (site.disk.content.take site.disk.synced) maxRetainedBytes maxWalBytes =
      (calls, .ok durable) ∧
    ∀ store, site.store = some store →
      store.events.take (request.after + maxScan) <+: durable.events

/-- Sessions are started with room for the magic. -/
def anyBudgets (_ maxWalBytes : Nat) : Prop := 8 ≤ maxWalBytes

/-- The runs in which every fetch is settled. -/
def careful (hash : Bytes → UInt32) : Transition Site Op where
  start := (directory hash anyBudgets).start
  step site op site' := (directory hash anyBudgets).step site op site' ∧
    ∀ request, op = .fetch request → site.Settled hash request

/-- These events belong to synchronised batches. -/
def Fixed (hash : Bytes → UInt32) (disk : Disk) (kept : List Attempt) (seen : List Event) : Prop :=
  seen = [] ∨ ∃ part, part <+: kept ∧ Pinned hash disk part ∧ seen <+: part.flatMap Attempt.events

theorem Carries.fixed {disk disk' : Disk} {kept kept' : List Attempt} {seen : List Event}
    (h : Carries hash disk kept disk' kept') (hfixed : Fixed hash disk kept seen) :
    Fixed hash disk' kept' seen := by
  rcases hfixed with hnone | ⟨part, hpart, hpinned, hseen⟩
  · exact Or.inl hnone
  · obtain ⟨hpart', hpinned'⟩ := h part hpart hpinned
    exact Or.inr ⟨part, hpart', hpinned', hseen⟩

theorem prefix_flatMap_events {part kept : List Attempt} (h : part <+: kept) :
    part.flatMap Attempt.events <+: kept.flatMap Attempt.events := by
  obtain ⟨more, rfl⟩ := h
  rw [List.flatMap_append]
  exact List.prefix_append _ _

variable {budgets : Nat → Nat → Prop}

/-- The log of a sound site starts with the events of its synchronised batches. -/
theorem Sound.holds {site : Site} {kept : List Attempt} {tail : Bytes}
    (h : Sound hash budgets site kept tail) {seen : List Event}
    (hfixed : Fixed hash site.disk kept seen) : site.Holds hash seen := by
  rcases hfixed with rfl | ⟨part, hpart, hpinned, hseen⟩
  · exact ⟨fun _ _ => List.nil_prefix, fun _ _ _ _ _ => List.nil_prefix⟩
  constructor
  · intro store hstore
    obtain ⟨shown, -, hevents, hall⟩ := (h.session store hstore).shown
    rw [hevents]
    exact hseen.trans (prefix_flatMap_events (hall part hpart hpinned))
  · intro maxRetainedBytes maxWalBytes calls store hopening
    obtain ⟨log, tail', hopens, -, rfl⟩ := Store.disk_eq_ok.mp hopening
    obtain ⟨rfl, -⟩ := h.opens hopens
    rw [h.numbered.events_ofLog]
    exact hseen.trans (prefix_flatMap_events hpart)

/-- What a settled fetch can reach is synchronised. -/
theorem Sound.fixed_of_settled {site : Site} {kept : List Attempt} {tail : Bytes}
    (h : Sound hash budgets site kept tail) {request : Fetch} (hsettled : site.Settled hash request)
    {store : Store} (hstore : site.store = some store) :
    Fixed hash site.disk kept (store.events.take (request.after + maxScan)) := by
  obtain ⟨maxRetainedBytes, maxWalBytes, calls, durable, hopening, hreach⟩ := hsettled
  have hreach := hreach store hstore
  -- The synchronised bytes are what the worst crash leaves.
  have hlength : (site.disk.content.take site.disk.synced).length = site.disk.synced := by
    rw [List.length_take, min_eq_left site.disk.synced_le]
  have hcrash : Disk.Crashed site.disk ⟨site.disk.content.take site.disk.synced, site.disk.synced, hlength.ge⟩ :=
    ⟨List.take_prefix _ _, rfl⟩
  obtain ⟨kept', tail', hkept, hsound, -⟩ := h.crash hcrash
  obtain ⟨log, tail, hopens, -, rfl⟩ := Store.disk_eq_ok.mp hopening
  obtain ⟨rfl, -⟩ := hsound.opens hopens
  rw [hsound.numbered.events_ofLog] at hreach
  rcases hsound.content with hcontent | ⟨rfl, -, -⟩
  · refine Or.inr ⟨kept', hkept, ?_, hreach⟩
    have := congrArg List.length hcontent
    rw [hlength, List.length_append] at this
    rw [Pinned]
    omega
  · exact Or.inl (List.prefix_nil.mp hreach)

/-- The checkpoints given out are synchronised. -/
structure Checkpoints (hash : Bytes → UInt32) (site : Site) (kept : List Attempt) : Prop where
  fixed : ∀ served ∈ site.served, Fixed hash site.disk kept served.seen
  events : ∀ served ∈ site.served, served.result.events ⊆ served.seen
  cursor : ∀ served ∈ site.served, served.seen.length = served.result.cursor

theorem Checkpoints.same {site site' : Site} {kept kept' : List Attempt} (h : Checkpoints hash site kept)
    (hserved : site'.served = site.served) (hcarries : Carries hash site.disk kept site'.disk kept') :
    Checkpoints hash site' kept' where
  fixed := hserved ▸ fun served hmem => hcarries.fixed (h.fixed served hmem)
  events := hserved ▸ h.events
  cursor := hserved ▸ h.cursor

theorem Checkpoints.fetch {site : Site} {kept kept' : List Attempt} {tail : Bytes}
    (h : Checkpoints hash site kept) (hsound : Sound hash budgets site kept tail) {request : Fetch}
    (hsettled : site.Settled hash request)
    (hcarries : Carries hash site.disk kept (site.next hash (.fetch request)).disk kept') :
    Checkpoints hash (site.next hash (.fetch request)) kept' := by
  cases hstore : site.store with
  | none =>
      refine h.same ?_ hcarries
      rw [next, hstore]
  | some store =>
      have hreach := hsound.fixed_of_settled hsettled hstore
      obtain ⟨shown, hshown, hevents, -⟩ := (hsound.session store hstore).shown
      have hnumbered : store.Numbered :=
        ⟨_, hevents.trans (hsound.numbered.of_prefix hshown).events_eq⟩
      rw [next, hstore] at hcarries ⊢
      simp only at hcarries ⊢
      split at hcarries
      · exact h.same rfl hcarries
      · rename_i store' result hresult
        have hfetched := Store.fetch_eq_ok hnumbered hresult
        have hlength : (store.events.take result.cursor).length = result.cursor := by
          rw [List.length_take]
          exact min_eq_left hfetched.cursor_le
        -- The cursor stays within the window the fetch could reach.
        have hstart : store.events.take result.cursor <+:
            store.events.take (request.after + maxScan) :=
          List.take_prefix_take_left hfetched.window
        have hfixed : Fixed hash site.disk kept (store.events.take result.cursor) := by
          rcases hreach with hnone | ⟨part, hpart, hpinned, hseen⟩
          · rw [hnone] at hstart
            exact Or.inl (List.prefix_nil.mp hstart)
          · exact Or.inr ⟨part, hpart, hpinned, hstart.trans hseen⟩
        have hsubset : result.events ⊆ store.events.take result.cursor := fun event hmem =>
          List.drop_subset _ _ (Fetch.mem_found.mp (hfetched.merged.summary.subset hmem)).1
        refine ⟨?_, ?_, ?_⟩
        · exact List.forall_mem_append.mpr
            ⟨fun served hmem => hcarries.fixed (h.fixed served hmem), by simpa using hcarries.fixed hfixed⟩
        · exact List.forall_mem_append.mpr ⟨h.events, by simpa using hsubset⟩
        · exact List.forall_mem_append.mpr ⟨h.cursor, by simpa using hlength⟩

theorem next_served (site : Site) (op : Op) (hfetch : ∀ request, op ≠ .fetch request) :
    (site.next hash op).served = site.served := by
  cases op with
  | fetch request => exact absurd rfl (hfetch request)
  | publish records fault =>
      rw [next]
      split <;> rfl
  | publishKilled records left =>
      rw [next]
      split <;> rfl
  | openStore maxRetainedBytes maxWalBytes => rfl
  | openKilled maxRetainedBytes maxWalBytes left => rfl
  | exit => rfl
  | crash left => rfl

/-- **Checkpoints from settled fetches stay valid across restarts.** -/
theorem checkpoints_valid {site : Site} (h : (careful hash).Reachable site) :
    CheckpointsValid hash site := by
  have hspacious : Spacious anyBudgets := fun _ _ h => h
  obtain ⟨kept, tail, hsound, hcheckpoints⟩ : ∃ kept tail, Sound hash anyBudgets site kept tail ∧
      Checkpoints hash site kept := by
    apply h.invariant (P := fun site => ∃ kept tail, Sound hash anyBudgets site kept tail ∧
      Checkpoints hash site kept)
    · rintro site rfl
      exact ⟨[], [], sound_fresh, nofun, nofun, nofun⟩
    · rintro site op _ - ⟨kept, tail, hsound, hcheckpoints⟩ ⟨⟨henabled, rfl⟩, hsettled⟩
      obtain ⟨kept', tail', hsound', hcarries⟩ := hsound.next hspacious henabled
      refine ⟨kept', tail', hsound', ?_⟩
      by_cases hfetch : ∃ request, op = .fetch request
      · obtain ⟨request, rfl⟩ := hfetch
        exact hcheckpoints.fetch hsound (hsettled request rfl) hcarries
      · exact hcheckpoints.same
          (next_served site op fun request heq => hfetch ⟨request, heq⟩) hcarries
  intro served hmem
  exact ⟨hcheckpoints.events served hmem, hcheckpoints.cursor served hmem,
    hsound.holds (hcheckpoints.fixed served hmem)⟩

/-- A store opened on a synchronised image. -/
theorem settled_image {site : Site} {log : List (List Record)} {maxRetainedBytes maxWalBytes : Nat}
    (hcontent : site.disk.content = Wal.image hash log)
    (hsynced : site.disk.synced = site.disk.content.length)
    (hfits : (Wal.image hash log).length ≤ maxWalBytes)
    (hretained : Store.retained log.flatten ≤ maxRetainedBytes)
    (hlegal : ∀ batch ∈ Batch.layout 1 log, batch.Legal)
    (hstore : site.store = some (Store.ofLog hash maxRetainedBytes maxWalBytes log))
    (request : Fetch) : site.Settled hash request := by
  refine ⟨maxRetainedBytes, maxWalBytes, [], Store.ofLog hash maxRetainedBytes maxWalBytes log, ?_, ?_⟩
  · rw [hsynced, List.take_length, hcontent]
    exact Store.disk_image hfits hretained hlegal
  · intro store hstore'
    obtain rfl := Option.some.inj (hstore.symm.trans hstore')
    exact List.take_prefix _ _

/-- A fetch of the only event, which is synchronised. -/
theorem checkpoints_valid_early : ∃ site, site.served = [⟨⟨1, [⟨1, early⟩], false⟩, [⟨1, early⟩]⟩] ∧
    CheckpointsValid (fun _ => 0) site := by
  have hroom : anyBudgets 1000 1000 := show 8 ≤ 1000 by decide
  have hfits : (Wal.image (fun _ => 0) [[early]]).length ≤ 1000 := by decide
  have hcontent : (opened.call (.write 8 (Wal.frame (fun _ => 0) ⟨1, [early]⟩))).content =
      Wal.image (fun _ => 0) [[early]] := by
    rw [image_early]
    exact content_opened _
  have h : (careful fun _ => 0).Reachable fresh := .of_start rfl
  have h := h.step (l := Op.openStore 1000 1000) ⟨⟨⟨rfl, hroom⟩, rfl⟩, nofun⟩
  rw [next_openStore_fresh] at h
  have h := h.step (l := Op.publish [early] none) ⟨⟨⟨nofun, Wal.publishable_single 1⟩, rfl⟩, nofun⟩
  have h := h.step (l := Op.exit) ⟨⟨nofun, rfl⟩, nofun⟩
  have h := h.step (l := Op.openStore 1000 1000) ⟨⟨⟨rfl, hroom⟩, rfl⟩, nofun⟩
  rw [next_openStore_image _ hcontent hfits (by decide) legal_early] at h
  have h := h.step (l := Op.fetch peek) ⟨⟨nofun, rfl⟩, fun request _ =>
    settled_image hcontent rfl hfits (by decide) legal_early rfl request⟩
  rw [next_fetch rfl (fetch_early fun _ => 0)] at h
  exact ⟨_, rfl, checkpoints_valid h⟩

/-! ### A checkpoint that is lost -/

/-- A publish whose synchronisation fails and the end of its process, an open and a fetch, a crash that
keeps what is synchronised, and a publish in the session after it. -/
def overtaking : List Op :=
  [.openStore 1000 1000, .publish [early] (some (.sync "no space left on device")), .exit,
    .openStore 1000 1000, .fetch peek, .crash ⟨Wal.magic, 8, le_rfl⟩, .openStore 1000 1000,
    .publish [late] none]

/-- The fetch returned the first event, and its sequence names the second. -/
theorem run_overtaking (hash : Bytes → UInt32) :
    ∃ site, (directory hash anyBudgets).Run fresh overtaking site ∧
      site.served = [⟨⟨1, [⟨1, early⟩], false⟩, [⟨1, early⟩]⟩] ∧
      ∃ store, site.store = some store ∧ store.events = [⟨1, late⟩] := by
  have hroom : anyBudgets 1000 1000 := show 8 ≤ 1000 by decide
  have hfits : (Wal.image hash [[early]]).length ≤ 1000 := of_decide_eq_true rfl
  have hcontent : (opened.call (.write 8 (Wal.frame hash ⟨1, [early]⟩))).content =
      Wal.image hash [[early]] := by
    rw [image_early]
    exact content_opened _
  have h := Run.next .nil (.openStore 1000 1000) ⟨rfl, hroom⟩ (next_openStore_fresh hash 1000 1000)
  have h := Run.next h (.publish [early] (some (.sync "no space left on device")))
    ⟨nofun, Wal.publishable_single 1⟩ rfl
  have h := Run.next h .exit nofun rfl
  have h := Run.next h (.openStore 1000 1000) ⟨rfl, hroom⟩
    (next_openStore_image _ hcontent hfits (by decide) legal_early)
  have h := Run.next h (.fetch peek) nofun (next_fetch rfl (fetch_early hash))
  have h := Run.next h (.crash ⟨Wal.magic, 8, le_rfl⟩)
    ⟨hcontent ▸ List.prefix_append _ _, rfl⟩ rfl
  have h := Run.next h (.openStore 1000 1000) ⟨rfl, hroom⟩
    (next_openStore_image [] rfl hroom (Nat.zero_le _) nofun)
  have h := Run.next h (.publish [late] none) ⟨nofun, Wal.publishable_single 2⟩ rfl
  exact ⟨_, h, rfl, _, rfl, rfl⟩

/-- Whatever the checksum, a served event can be lost and its sequence used again. -/
theorem checkpoint_overtaken : ¬∃ hash : Bytes → UInt32, ∀ ops site,
    (directory hash anyBudgets).Run fresh ops site → CheckpointsValid hash site := by
  rintro ⟨hash, hvalid⟩
  obtain ⟨site, hrun, hserved, store, hstore, hevents⟩ := run_overtaking hash
  have hmem : (⟨⟨1, [⟨1, early⟩], false⟩, [⟨1, early⟩]⟩ : Served) ∈ site.served := by
    rw [hserved]
    exact List.mem_singleton_self _
  have hseen := (hvalid overtaking site hrun _ hmem).2.2.1 store hstore
  rw [hevents] at hseen
  exact absurd hseen (by decide)

end

end Site

end VeloBus
