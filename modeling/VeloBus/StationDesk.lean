import VeloBus.StationModel

/-! Where the calls of a worker are between its connection and its service, each in one place, and what a
request or a response may say of them. -/

namespace VeloBus.Station

/-- Where a call of the worker is: with a TAKE, named by the identifier of the request, with a promise of the
service, in a slot, or in a COMPLETE. -/
inductive Place where
  | answer (id : Nat)
  | promise (promise : Nat)
  | slot (slot : Nat)
  | complete (id : Nat)
deriving DecidableEq, Repr

/-- The scheduler as one worker sees it. -/
structure Desk where
  worker : Nat
  concurrency : Nat
  sys : Rpc.Sys
  bearer : Nat → Place
  log : List Service.Entry

namespace Desk

def Enlisted (d : Desk) : Prop := d.sys.Enlisted d.worker d.concurrency

/-- The worker has started the call, and it is at this place. -/
def Bears (d : Desk) (place : Place) (id : Nat) : Prop := d.sys.Runs d.worker id ∧ d.bearer id = place

/-- The worker has sent the COMPLETE of the call. -/
def Sent (d : Desk) (id : Nat) : Prop := d.sys.Spent d.worker id ∧ ∃ request, d.bearer id = .complete request

/-- A handler that had the job of the call was settled so. -/
def Reports (d : Desk) (id : Nat) (failed : Bool) (payload : Bytes) : Prop :=
  ∃ slot job outcome, .completed slot job outcome failed.toNat payload ∈ d.log ∧ job.callId = id

/-- The scheduler handed the job to the worker. -/
def Handed (d : Desk) (job : Rpc.Job) : Prop :=
  ∃ dispatch ∈ d.sys.dispatched, dispatch.worker = d.worker ∧ dispatch.job = job

/-- The job at a place, if there is one. -/
def Hands (d : Desk) (place : Place) (taken : Option Rpc.Job) : Prop :=
  ∀ job, taken = some job → job.Legal ∧ d.Handed job ∧ d.Bears place job.callId

/-- A request of the worker that the broker has not taken. -/
structure Asks (d : Desk) (frame : Frame) : Prop where
  register : frame.opcode = 6 → ∃ route queueLimit,
    decodeRequest frame.opcode frame.body = .ok (.register route d.concurrency queueLimit)
  take : frame.opcode = 8 → d.Enlisted ∧ ∃ waitMs, decodeRequest frame.opcode frame.body = .ok (.take waitMs)
  complete : frame.opcode = 9 → d.Enlisted ∧ ∃ id failed payload,
    decodeRequest frame.opcode frame.body = .ok (.complete id failed payload) ∧
      d.Bears (.complete frame.requestId) id ∧ d.Reports id failed payload

/-- A response to a request of the worker that the worker has not read. -/
structure Tells (d : Desk) (opcode : Nat) (response : Frame) : Prop where
  register : opcode = 6 → response.opcode ≠ 255 → d.Enlisted
  take : opcode = 8 → response.opcode ≠ 255 ∧ ∃ taken, response.body = Rpc.encodeTaken taken ∧
    d.Hands (.answer response.requestId) taken
  complete : opcode = 9 → response.opcode ≠ 255 ∧ response.body = []

/-! ### What changes -/

/-- Every call keeps its place, but what is at `moved`. -/
structure Keeps (d d' : Desk) (moved : Option Place) : Prop where
  enlisted : d.Enlisted → d'.Enlisted
  bears : ∀ place id, some place ≠ moved → d.Bears place id → d'.Bears place id
  sent : ∀ id, d.Sent id → d'.Sent id
  handed : ∀ job, d.Handed job → d'.Handed job
  log : d.log ⊆ d'.log
  concurrency : d'.concurrency = d.concurrency

variable {d d' d'' : Desk} {moved : Option Place}

theorem Keeps.refl (d : Desk) : d.Keeps d none :=
  ⟨id, fun _ _ _ h => h, fun _ h => h, fun _ h => h, List.Subset.refl _, rfl⟩

theorem Keeps.trans (h : d.Keeps d' none) (h' : d'.Keeps d'' moved) : d.Keeps d'' moved where
  enlisted henlisted := h'.enlisted (h.enlisted henlisted)
  bears place id hne hbears := h'.bears place id hne (h.bears place id (Option.some_ne_none place) hbears)
  sent id hsent := h'.sent id (h.sent id hsent)
  handed job hjob := h'.handed job (h.handed job hjob)
  log := List.Subset.trans h.log h'.log
  concurrency := h'.concurrency.trans h.concurrency

theorem Keeps.reports (h : d.Keeps d' moved) {id : Nat} {failed : Bool} {payload : Bytes}
    (hreports : d.Reports id failed payload) : d'.Reports id failed payload := by
  obtain ⟨slot, job, outcome, hmem, hid⟩ := hreports
  exact ⟨slot, job, outcome, h.log hmem, hid⟩

theorem Keeps.hands (h : d.Keeps d' moved) {place : Place} {taken : Option Rpc.Job} (hne : some place ≠ moved)
    (hands : d.Hands place taken) : d'.Hands place taken := by
  intro job htaken
  obtain ⟨hlegal, hhanded, hbears⟩ := hands job htaken
  exact ⟨hlegal, h.handed job hhanded, h.bears place job.callId hne hbears⟩

theorem Keeps.asks (h : d.Keeps d' moved) {frame : Frame} (hne : some (.complete frame.requestId) ≠ moved)
    (hasks : d.Asks frame) : d'.Asks frame where
  register hopcode := by
    rw [h.concurrency]
    exact hasks.register hopcode
  take hopcode := by
    obtain ⟨henlisted, hdecode⟩ := hasks.take hopcode
    exact ⟨h.enlisted henlisted, hdecode⟩
  complete hopcode := by
    obtain ⟨henlisted, id, failed, payload, hdecode, hbears, hreports⟩ := hasks.complete hopcode
    exact ⟨h.enlisted henlisted, id, failed, payload, hdecode, h.bears _ _ hne hbears, h.reports hreports⟩

theorem Keeps.tells (h : d.Keeps d' moved) {opcode : Nat} {response : Frame}
    (hne : some (.answer response.requestId) ≠ moved) (htells : d.Tells opcode response) :
    d'.Tells opcode response where
  register hopcode hok := h.enlisted (htells.register hopcode hok)
  take hopcode := by
    obtain ⟨hok, taken, hbody, hands⟩ := htells.take hopcode
    exact ⟨hok, taken, hbody, h.hands hne hands⟩
  complete := htells.complete

/-- A step of the scheduler ends no call of the worker but one at `moved`. -/
theorem keeps_next (d : Desk) (h : d.sys.Sound) {op : Rpc.Op} (hop : op ≠ .disconnect d.worker)
    (hmoved : ∀ id, op.Finishes d.worker id → some (d.bearer id) = moved) :
    d.Keeps { d with sys := d.sys.next op } moved where
  enlisted henlisted := Rpc.Sys.Enlisted.next h henlisted hop
  bears place id hne hbears := by
    refine ⟨hbears.1.next h fun hfinishes => hne ?_, hbears.2⟩
    rw [← hmoved id hfinishes, hbears.2]
  sent id hsent := ⟨hsent.1.next h op, hsent.2⟩
  handed job hjob := by
    obtain ⟨dispatch, hmem, hworker, hsame⟩ := hjob
    exact ⟨dispatch, (Rpc.Sys.dispatched_next h op).subset hmem, hworker, hsame⟩
  log := List.Subset.refl _
  concurrency := rfl

/-- A call goes from one place to another. -/
theorem keeps_move (d : Desk) {id : Nat} {place : Place} (hplace : d.bearer id = place)
    (hnot : ∀ request, place ≠ .complete request) (new : Place) :
    d.Keeps { d with bearer := Function.update d.bearer id new } (some place) where
  enlisted henlisted := henlisted
  bears place' id' hne hbears := by
    refine ⟨hbears.1, ?_⟩
    have hid : id' ≠ id := by
      rintro rfl
      apply hne
      rw [← hbears.2, hplace]
    exact (Function.update_of_ne hid _ _).trans hbears.2
  sent id' hsent := by
    obtain ⟨hspent, request, hrequest⟩ := hsent
    have hid : id' ≠ id := by
      rintro rfl
      exact hnot request (hplace.symm.trans hrequest)
    exact ⟨hspent, request, (Function.update_of_ne hid _ _).trans hrequest⟩
  handed _ hjob := hjob
  log := List.Subset.refl _
  concurrency := rfl

/-- A call the worker never had gets a place. -/
theorem keeps_new (d : Desk) (h : d.sys.Sound) {id : Nat} (hnew : ¬d.sys.Spent d.worker id) (new : Place) :
    d.Keeps { d with bearer := Function.update d.bearer id new } none where
  enlisted henlisted := henlisted
  bears place id' _ hbears := by
    refine ⟨hbears.1, ?_⟩
    have hid : id' ≠ id := by
      rintro rfl
      exact hnew (hbears.1.spent h)
    exact (Function.update_of_ne hid _ _).trans hbears.2
  sent id' hsent := by
    obtain ⟨hspent, request, hrequest⟩ := hsent
    have hid : id' ≠ id := by
      rintro rfl
      exact hnew hspent
    exact ⟨hspent, request, (Function.update_of_ne hid _ _).trans hrequest⟩
  handed _ hjob := hjob
  log := List.Subset.refl _
  concurrency := rfl

/-- The service says more. -/
theorem keeps_log (d : Desk) {log : List Service.Entry} (h : d.log ⊆ log) : d.Keeps { d with log := log } none where
  enlisted henlisted := henlisted
  bears _ _ _ hbears := hbears
  sent _ hsent := hsent
  handed _ hjob := hjob
  log := h
  concurrency := rfl

end Desk

end VeloBus.Station
