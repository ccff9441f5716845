import VeloBus.StoreFetch
import VeloBus.StorePublish
import VeloBus.Transition

/-! A data directory over many sessions. A session opens the log, publishes and fetches, and ends by an
exit, a kill in the middle of its file-system calls or a crash of the machine. What was attempted and
what was served is kept beside the state. -/

namespace VeloBus

/-- A publish that reached the store: the batch as it was to be numbered, whether a file-system call
was made for it, and its receipt. -/
structure Attempt where
  session : Nat
  batch : Batch
  began : Bool
  receipt : Option Bytes
deriving DecidableEq, Repr

/-- What a fetch returned, with the log up to its cursor. -/
structure Served where
  result : FetchResult
  seen : List Event
deriving DecidableEq, Repr

structure Site where
  disk : Disk
  store : Option Store
  sessions : Nat
  attempts : List Attempt
  served : List Served

namespace Site

/-- A new directory. -/
def fresh : Site := ⟨Disk.empty, none, 0, [], []⟩

/-- A kill names what it leaves of the file, a crash too. -/
inductive Op where
  | openStore (maxRetainedBytes maxWalBytes : Nat)
  | openKilled (maxRetainedBytes maxWalBytes : Nat) (left : Disk)
  | publish (records : List Record) (fault : Option Fault)
  | publishKilled (records : List Record) (left : Disk)
  | fetch (request : Fetch)
  | exit
  | crash (left : Disk)

section

variable (hash : Bytes → UInt32)

/-- The attempt to publish records on a store, given the calls made and the answer. -/
def attempt (site : Site) (store : Store) (records : List Record) (calls : List Disk.Call)
    (receipt : Option Bytes) : Attempt where
  session := site.sessions
  batch := ⟨store.lastSequence + 1, records⟩
  began := calls ≠ []
  receipt := receipt

def next (site : Site) : Op → Site
  | .openStore maxRetainedBytes maxWalBytes =>
    let opening := Store.disk hash site.disk.content maxRetainedBytes maxWalBytes
    { site with
      disk := site.disk.run opening.1
      store := opening.2.toOption
      sessions := site.sessions + 1 }
  | .openKilled _ _ left => { site with disk := left }
  | .publish records fault =>
    match site.store with
    | none => site
    | some store =>
      let out := store.publish hash records fault
      { site with
        disk := site.disk.run out.2.1
        store := some out.1
        attempts := site.attempts ++ [site.attempt store records out.2.1 out.2.2.toOption] }
  | .publishKilled records left =>
    match site.store with
    | none => site
    | some store =>
      let out := store.publish hash records none
      { site with
        disk := left
        store := none
        attempts := site.attempts ++ [site.attempt store records out.2.1 none] }
  | .fetch request =>
    match site.store with
    | none => site
    | some store =>
      match store.fetch request with
      | (store', .error _) => { site with store := some store' }
      | (store', .ok result) =>
        { site with
          store := some store'
          served := site.served ++ [⟨result, store.events.take result.cursor⟩] }
  | .exit => { site with store := none }
  | .crash left => { site with disk := left, store := none }

/-- When an operation can happen; `budgets` are the ones a session may be started with. -/
def Enabled (budgets : Nat → Nat → Prop) (site : Site) : Op → Prop
  | .openStore maxRetainedBytes maxWalBytes =>
    site.store = none ∧ budgets maxRetainedBytes maxWalBytes
  | .openKilled maxRetainedBytes maxWalBytes left =>
    site.store = none ∧ budgets maxRetainedBytes maxWalBytes ∧
      Disk.Stopped site.disk
        (Store.disk hash site.disk.content maxRetainedBytes maxWalBytes).1 left
  | .publish records _ => site.store ≠ none ∧ Publishable records
  | .publishKilled records left => ∃ store, site.store = some store ∧ Publishable records ∧
      Disk.Stopped site.disk (store.publish hash records none).2.1 left
  | .fetch _ => site.store ≠ none
  | .exit => site.store ≠ none
  | .crash left => Disk.Crashed site.disk left

/-- All runs on a new directory. -/
def directory (budgets : Nat → Nat → Prop) : Transition Site Op where
  start site := site = fresh
  step site op site' := site.Enabled hash budgets op ∧ site' = site.next hash op

end

section

variable {hash : Bytes → UInt32} {budgets : Nat → Nat → Prop}

theorem Run.next {ops : List Op} {start site site' : Site} (h : (directory hash budgets).Run start ops site)
    (op : Op) (henabled : site.Enabled hash budgets op) (hnext : site.next hash op = site') :
    (directory hash budgets).Run start (ops ++ [op]) site' :=
  h.snoc ⟨henabled, hnext.symm⟩

/-- An open that succeeds. -/
theorem next_openStore {site : Site} {maxRetainedBytes maxWalBytes : Nat} {calls : List Disk.Call} {store : Store}
    (h : Store.disk hash site.disk.content maxRetainedBytes maxWalBytes = (calls, .ok store)) :
    site.next hash (.openStore maxRetainedBytes maxWalBytes) =
      { site with
        disk := site.disk.run calls
        store := some store
        sessions := site.sessions + 1 } := by
  rw [Site.next, h]
  rfl

/-- The first open of a new directory. -/
theorem next_openStore_fresh (hash : Bytes → UInt32) (maxRetainedBytes maxWalBytes : Nat) :
    fresh.next hash (.openStore maxRetainedBytes maxWalBytes) =
      { fresh with
        disk := Disk.empty.run [.write 0 Wal.magic, .sync]
        store := some (Store.ofLog hash maxRetainedBytes maxWalBytes [])
        sessions := 1 } := by
  apply next_openStore
  exact Store.disk_eq_ok.mpr ⟨[], [], ⟨Nat.zero_le _, Nat.zero_le _, nofun, rfl, Or.inl rfl⟩, rfl, rfl⟩

/-- An open of a file without a torn tail. -/
theorem next_openStore_image {site : Site} (log : List (List Record)) {maxRetainedBytes maxWalBytes : Nat}
    (hcontent : site.disk.content = Wal.image hash log)
    (hfits : (Wal.image hash log).length ≤ maxWalBytes)
    (hretained : Store.retained log.flatten ≤ maxRetainedBytes)
    (hlegal : ∀ batch ∈ Batch.layout 1 log, batch.Legal) :
    site.next hash (.openStore maxRetainedBytes maxWalBytes) =
      { site with
        store := some (Store.ofLog hash maxRetainedBytes maxWalBytes log)
        sessions := site.sessions + 1 } := by
  have hopening := Store.disk_image hfits hretained hlegal
  rw [← hcontent] at hopening
  exact next_openStore hopening

theorem next_fetch {site : Site} {store store' : Store} {request : Fetch} {result : FetchResult}
    (hstore : site.store = some store) (hfetch : store.fetch request = (store', .ok result)) :
    site.next hash (.fetch request) =
      { site with
        store := some store'
        served := site.served ++ [⟨result, store.events.take result.cursor⟩] } := by
  rw [Site.next, hstore]
  simp only [hfetch]

end

/-! ### A small session -/

def early : Record := ⟨"a", "", [1]⟩

/-- The file of a directory after its first open. -/
def opened : Disk := Disk.empty.run [.write 0 Wal.magic, .sync]

/-- A write at the end of the opened file. -/
theorem content_opened (bs : Bytes) : (opened.call (.write 8 bs)).content = Wal.magic ++ bs :=
  Disk.content_append opened bs

theorem image_early (hash : Bytes → UInt32) :
    Wal.image hash [[early]] = Wal.magic ++ Wal.frame hash ⟨1, [early]⟩ := by
  rw [Wal.image, Batch.layout, Batch.layout, List.flatMap_cons, List.flatMap_nil, List.append_nil]

theorem legal_early : ∀ batch ∈ Batch.layout 1 [[early]], batch.Legal := by
  intro batch hmem
  rw [List.mem_singleton.mp hmem]
  exact ⟨by decide, Wal.publishable_single 1⟩

def peek : Fetch := ⟨"*", 0, 1, 100, false⟩

theorem fetch_early (hash : Bytes → UInt32) :
    (Store.ofLog hash 1000 1000 [[early]]).fetch peek =
      ({ Store.ofLog hash 1000 1000 [[early]] with fetchedRecords := 1 },
        .ok ⟨1, [⟨1, early⟩], false⟩) := by
  have hevents : ((Store.ofLog hash 1000 1000 [[early]]).events.drop peek.after).take maxScan =
      [⟨1, early⟩] := rfl
  have hscan : peek.scan [⟨1, early⟩] ⟨peek.after, [], ∅, 0, 0, false⟩ =
      .ok ⟨1, [⟨1, early⟩], ∅, 18, 0, false⟩ := rfl
  rw [Store.fetch]
  simp only [hevents, hscan, List.mergeSort_singleton]
  rfl

def late : Record := ⟨"a", "", [2]⟩

/-- What a crash leaves of the first frame, whose write had stopped a little later. -/
def torn (hash : Bytes → UInt32) : Disk where
  content := Wal.magic ++ (Wal.frame hash ⟨1, [late]⟩).take 3
  synced := 8
  synced_le := by
    rw [List.length_append]
    exact Nat.le_add_right _ _

/-- A publish whose write stops after five bytes, a crash, a publish that succeeds, and another crash. -/
def tearing (hash : Bytes → UInt32) : List Op :=
  [.publish [late] (some (.write 5 "no space left on device")), .crash (torn hash), .openStore 1000 1000,
    .publish [early] none, .crash ⟨Wal.image hash [[early]], (Wal.image hash [[early]]).length, le_rfl⟩]

theorem run_tearing (hash : Bytes → UInt32) (budgets : Nat → Nat → Prop) (hroom : budgets 1000 1000) :
    ∃ site, (directory hash budgets).Run (fresh.next hash (.openStore 1000 1000)) (tearing hash) site ∧
      site.disk.content = Wal.image hash [[early]] ∧
      ∃ receipt, site.attempts = [⟨1, ⟨1, [late]⟩, true, none⟩, ⟨2, ⟨1, [early]⟩, true, some receipt⟩] := by
  have hopening : Store.disk hash (torn hash).content 1000 1000 =
      ([.setLen 8, .sync], .ok (Store.ofLog hash 1000 1000 [])) := by
    apply Store.disk_eq_ok.mpr
    refine ⟨[], (Wal.frame hash ⟨1, [late]⟩).take 3, ⟨of_decide_eq_true rfl, by decide, nofun, rfl, ?_⟩, rfl, rfl⟩
    exact Or.inr (Or.inl (of_decide_eq_true rfl))
  have hcut : (torn hash).content <+: (opened.call (.write 8 ((Wal.frame hash ⟨1, [late]⟩).take 5))).content := by
    rw [content_opened]
    exact (List.prefix_append_right_inj _).mpr (List.take_prefix_take_left (by decide))
  have hcontent : ((((torn hash).call (.setLen 8)).call .sync).call (.write 8 (Wal.frame hash ⟨1, [early]⟩))).content =
      Wal.image hash [[early]] := by
    rw [image_early]
    exact Disk.content_append _ _
  have h := Transition.Run.nil (T := directory hash budgets) (s := fresh.next hash (.openStore 1000 1000))
  rw [next_openStore_fresh] at h ⊢
  have h := Run.next h (.publish [late] (some (.write 5 "no space left on device"))) ⟨nofun, Wal.publishable_single 2⟩ rfl
  have h := Run.next h (.crash (torn hash)) ⟨hcut, rfl⟩ rfl
  have h := Run.next h (.openStore 1000 1000) ⟨rfl, hroom⟩ (next_openStore hopening)
  have h := Run.next h (.publish [early] none) ⟨nofun, Wal.publishable_single 1⟩ rfl
  have h := Run.next h (.crash ⟨Wal.image hash [[early]], (Wal.image hash [[early]]).length, le_rfl⟩)
    ⟨hcontent ▸ List.prefix_rfl, congrArg List.length hcontent.symm⟩ rfl
  exact ⟨_, h, rfl, _, rfl⟩

end Site

end VeloBus
