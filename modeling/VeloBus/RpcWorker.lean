import VeloBus.RpcOwnership

/-! What a worker has at the broker while its connection is up: its registration, its calls and its takes.
Nobody but the worker changes them. -/

namespace VeloBus.Rpc

/-! ### Jobs on the wire -/

def Job.encode (job : Job) : Bytes :=
  1 :: (Bytes.toBe 8 job.callId ++ Bytes.toBe 4 job.remainingMs ++ Bytes.toBe 4 job.payload.length ++ job.payload)

/-- The answer to TAKE. -/
def encodeTaken : Option Job → Bytes
  | some job => job.encode
  | none => [0]

/-- The jobs the scheduler hands out. -/
structure Job.Legal (job : Job) : Prop where
  positive : 0 < job.callId
  callId : job.callId < 2 ^ 64
  remainingMs : job.remainingMs ≤ 30000
  payload : job.payload.length ≤ maxPayload

theorem Job.length_encode (job : Job) : job.encode.length = 17 + job.payload.length := by
  unfold Job.encode
  simp only [List.length_cons, List.length_append, Bytes.length_toBe]
  omega

theorem encodeTaken_fits {taken : Option Job} (h : ∀ job, taken = some job → job.Legal) :
    (encodeTaken taken).length ≤ maxFrame - 5 := by
  cases taken with
  | none => exact Nat.le_of_ble_eq_true rfl
  | some job =>
      have hpayload := (h job rfl).payload
      unfold encodeTaken
      unfold maxPayload at hpayload
      rw [Job.length_encode]
      unfold maxFrame
      omega

/-! ### Steps of others -/

/-- The takes of a worker are moved by the worker's tasks only, and only a worker completes its calls. -/
def Op.Foreign (worker : Nat) (s : Sys) : Op → Prop
  | .connected connection => connection ≠ worker
  | .register worker' _ _ _ => worker' ≠ worker
  | .request caller _ _ payload _ _ => caller ≠ worker ∧ payload.length ≤ maxPayload
  | .takeStart worker' => worker' ≠ worker
  | .enable take => ∀ live, s.takes.lookup take = some live → live.worker ≠ worker
  | .tryTake take _ _ => ∀ live, s.takes.lookup take = some live → live.worker ≠ worker
  | .wake take => ∀ live, s.takes.lookup take = some live → live.worker ≠ worker
  | .takeTimeout take => ∀ live, s.takes.lookup take = some live → live.worker ≠ worker
  | .takeEnd take => ∀ live, s.takes.lookup take = some live → live.worker ≠ worker
  | .complete worker' _ _ _ _ => worker' ≠ worker
  | .expire _ _ => True
  | .cancel _ => True
  | .disconnect connection => connection ≠ worker

/-- The requests of a step are no larger than the broker's decoder lets through. -/
def Op.Fits : Op → Prop
  | .request _ _ _ payload _ _ => payload.length ≤ maxPayload
  | _ => True

namespace Sys

/-- The worker is registered. -/
def Enlisted (s : Sys) (worker concurrency : Nat) : Prop :=
  ∃ live, s.rpc.workers.lookup worker = some live ∧ live.concurrency = concurrency

/-- The worker has started a call. -/
def Runs (s : Sys) (worker id : Nat) : Prop :=
  ∃ call, s.rpc.calls.lookup id = some call ∧ call.owner = some worker

/-- The call is the worker's, or over. -/
def Spent (s : Sys) (worker id : Nat) : Prop :=
  id < s.rpc.nextId ∧ ∀ call, s.rpc.calls.lookup id = some call → call.owner = some worker

/-- The worker waits in a `take`. -/
def Takes (s : Sys) (worker id : Nat) : Prop := ∃ take, s.takes.lookup id = some take ∧ take.worker = worker

/-- Identifiers and payloads fit the wire. -/
structure Wired (s : Sys) : Prop where
  next : s.rpc.nextId ≤ u64Max
  payload : ∀ id admission, s.admitted.lookup id = some admission → admission.payload.length ≤ maxPayload

theorem Runs.spent {s : Sys} (h : s.Sound) {worker id : Nat} (hruns : s.Runs worker id) : s.Spent worker id := by
  obtain ⟨call, hlive, howner⟩ := hruns
  refine ⟨h.inv.fresh id call hlive, fun call' hlive' => ?_⟩
  rw [← Option.some.inj (hlive.symm.trans hlive')]
  exact howner

theorem Spent.next {s : Sys} (h : s.Sound) {worker id : Nat} (hspent : s.Spent worker id) (op : Op) :
    (s.next op).Spent worker id := next_owner h op hspent.1 hspent.2

theorem Runs.next {s : Sys} (h : s.Sound) {worker id : Nat} (hruns : s.Runs worker id) {op : Op}
    (hop : ¬op.Finishes worker id) : (s.next op).Runs worker id := by
  obtain ⟨call, hlive, howner⟩ := hruns
  obtain ⟨call', hlive', hkept⟩ := next_holds h hop howner ⟨call, hlive, .refl call⟩
  exact ⟨call', hlive', hkept.owner.trans howner⟩

/-- The call is over. -/
def Over (s : Sys) (id : Nat) : Prop := id < s.rpc.nextId ∧ s.rpc.calls.lookup id = none

theorem Over.next {s : Sys} (h : s.Sound) {id : Nat} (hover : s.Over id) (op : Op) : (s.next op).Over id := by
  have hspent : ∀ worker, (s.next op).Spent worker id := by
    intro worker
    apply Spent.next h
    refine ⟨hover.1, fun call hlive => ?_⟩
    rw [hover.2] at hlive
    cases hlive
  refine ⟨(hspent 0).1, ?_⟩
  by_contra hne
  obtain ⟨call, hlive⟩ := Option.ne_none_iff_exists'.mp hne
  -- It would have two owners.
  have hzero := (hspent 0).2 call hlive
  rw [(hspent 1).2 call hlive] at hzero
  cases hzero

/-- What a worker is registered with. -/
def rate (s : Sys) (worker : Nat) : Option Nat := (s.rpc.workers.lookup worker).map Worker.concurrency

/-- If the worker is registered, it is with this concurrency. -/
def Rated (s : Sys) (worker concurrency : Nat) : Prop := ∀ rate, s.rate worker = some rate → rate = concurrency

theorem enlisted_iff {s : Sys} {worker concurrency : Nat} :
    s.Enlisted worker concurrency ↔ s.rate worker = some concurrency :=
  Option.map_eq_some_iff.symm

theorem rate_seats {s t : Sys} {worker : Nat}
    (hseat : (t.rpc.workers.lookup worker).map Worker.seat = (s.rpc.workers.lookup worker).map Worker.seat) :
    t.rate worker = s.rate worker := by
  unfold rate
  cases hlookup : s.rpc.workers.lookup worker with
  | none =>
      rw [hlookup, Option.map_none] at hseat
      rw [Option.map_eq_none_iff.mp hseat]
  | some live =>
      rw [hlookup, Option.map_some] at hseat
      obtain ⟨live', hlookup', heq⟩ := Option.map_eq_some_iff.mp hseat
      rw [hlookup', Option.map_some, Option.map_some, Worker.seat_concurrency heq]

/-- A change of the waiters of some worker. -/
theorem rate_modify {s t : Sys} {worker changed : Nat} {g : Worker → Worker}
    (hg : ∀ live : Worker, (g live).concurrency = live.concurrency)
    (hworkers : t.rpc.workers = s.rpc.workers.modify changed g) : t.rate worker = s.rate worker := by
  unfold rate
  rw [hworkers, Table.lookup_modify]
  split_ifs
  · rw [Option.map_map]
    exact congrArg (Option.map · (s.rpc.workers.lookup worker)) (funext hg)
  · rfl

/-- Only a registration and the end of its connection change what a worker is registered with. -/
theorem rate_next {s : Sys} (h : s.Sound) {worker : Nat} {op : Op}
    (hregister : ∀ route concurrency queueLimit, op ≠ .register worker route concurrency queueLimit)
    (hdisconnect : op ≠ .disconnect worker) : (s.next op).rate worker = s.rate worker := by
  have hframe : ∀ {t : Sys}, Frame s.rpc t.rpc → t.rate worker = s.rate worker := fun hframe =>
    rate_seats (hframe.seats worker)
  cases op with
  | connected connection => rfl
  | register worker' route concurrency queueLimit =>
      simp only [Sys.next]
      rcases State.register_cases s.rpc worker' route concurrency queueLimit with ⟨error, heq⟩ | ⟨-, -, -, heq⟩
      · rw [heq]
      · have hne : worker ≠ worker' := fun hworker => hregister route concurrency queueLimit (hworker ▸ rfl)
        rw [heq]
        unfold rate
        dsimp only
        rw [State.lookup_enroll_workers, if_neg hne]
  | request caller route timeoutMs payload expiredAt admittedAt =>
      exact hframe (State.request_frame h.inv _ _ _ _ _ _)
  | takeStart worker' =>
      simp only [Sys.next]
      rcases State.takeStart_cases s.rpc worker' with ⟨error, heq⟩ | ⟨live, -, -, heq⟩
      · rw [heq]
        rfl
      · rw [heq]
        exact rate_modify (g := Worker.startTake) (fun _ => rfl) rfl
  | enable take => rfl
  | tryTake take expiredAt now =>
      simp only [Sys.next]
      cases s.takes.lookup take with
      | none => rfl
      | some live => exact hframe (State.tryTake_frame h.inv _ _ _)
  | wake take => rfl
  | takeTimeout take => rfl
  | takeEnd take =>
      simp only [Sys.next]
      cases s.takes.lookup take with
      | none => rfl
      | some live => exact rate_modify (g := Worker.endTake) (fun _ => rfl) rfl
  | complete worker' id failed payload now => exact hframe (State.complete_frame _ _ _ _ _ _)
  | expire id now => exact hframe (State.expire_settles s.rpc id).shrinks.frame
  | cancel id => exact hframe (State.cancel_settles s.rpc id).shrinks.frame
  | disconnect connection =>
      have hne : worker ≠ connection := fun heq => hdisconnect (heq ▸ rfl)
      apply rate_seats
      have hseat := (State.disconnect_seats h.inv connection).2.1 worker
      rw [if_neg hne] at hseat
      exact hseat

/-- A worker stays registered until it disconnects. -/
theorem Enlisted.next {s : Sys} (h : s.Sound) {worker concurrency : Nat} (henlisted : s.Enlisted worker concurrency)
    {op : Op} (hop : op ≠ .disconnect worker) : (s.next op).Enlisted worker concurrency := by
  by_cases hregister : ∃ route concurrency' queueLimit, op = .register worker route concurrency' queueLimit
  · obtain ⟨route, concurrency', queueLimit, rfl⟩ := hregister
    obtain ⟨live, hlookup, hconcurrency⟩ := henlisted
    simp only [Sys.next]
    rcases State.register_cases s.rpc worker route concurrency' queueLimit with ⟨error, heq⟩ | ⟨-, hnew, -, -⟩
    · rw [heq]
      exact ⟨live, hlookup, hconcurrency⟩
    · rw [hnew] at hlookup
      cases hlookup
  · rw [enlisted_iff, rate_next h (fun route concurrency' queueLimit heq => hregister ⟨_, _, _, heq⟩) hop]
    exact enlisted_iff.mp henlisted

theorem Rated.next {s : Sys} (h : s.Sound) {worker concurrency : Nat} (hrated : s.Rated worker concurrency) {op : Op}
    (hop : ∀ route concurrency' queueLimit, op = .register worker route concurrency' queueLimit →
      concurrency' = concurrency) : (s.next op).Rated worker concurrency := by
  by_cases hregister : ∃ route concurrency' queueLimit, op = .register worker route concurrency' queueLimit
  · obtain ⟨route, concurrency', queueLimit, rfl⟩ := hregister
    simp only [Sys.next]
    rcases State.register_cases s.rpc worker route concurrency' queueLimit with ⟨error, heq⟩ | ⟨-, -, -, heq⟩
    · rw [heq]
      exact hrated
    · rw [heq]
      intro rate hrate
      unfold Sys.rate at hrate
      rw [State.lookup_enroll_workers, if_pos rfl] at hrate
      rw [← Option.some.inj hrate]
      exact hop route concurrency' queueLimit rfl
  · by_cases hdisconnect : op = .disconnect worker
    · intro rate hrate
      obtain ⟨live, hlookup, -⟩ := Option.map_eq_some_iff.mp hrate
      have hseat := (State.disconnect_seats h.inv worker).2.1 worker
      rw [if_pos rfl, Option.map_eq_none_iff] at hseat
      rw [hdisconnect] at hlookup
      rw [show (s.next (.disconnect worker)).rpc.workers = (s.rpc.disconnect worker).workers from rfl, hseat] at hlookup
      cases hlookup
    · intro rate hrate
      apply hrated
      rw [← rate_next h (fun route concurrency' queueLimit heq => hregister ⟨_, _, _, heq⟩) hdisconnect]
      exact hrate

/-! ### What is handed out -/

theorem dispatched_next {s : Sys} (h : s.Sound) (op : Op) : s.dispatched <+: (s.next op).dispatched := by
  cases next_moved h op with
  | ended _ _ _ hdispatched _ => exact hdispatched ▸ List.prefix_rfl
  | admitted _ _ _ _ _ _ _ _ _ _ hdispatched => exact hdispatched ▸ List.prefix_rfl
  | dispatched _ _ _ _ _ _ _ _ _ _ _ _ _ _ _ hdispatched => exact hdispatched ▸ List.prefix_append _ _

/-- Every job that was handed out carries what was asked for under its identifier. -/
def Sourced (s : Sys) : Prop :=
  ∀ dispatch ∈ s.dispatched, ∃ admission, s.admitted.lookup dispatch.job.callId = some admission ∧
    dispatch.route = some admission.route ∧ dispatch.job.payload = admission.payload

theorem Sourced.next {s : Sys} (h : s.Sound) (hrecorded : s.Recorded) (hsourced : s.Sourced) (op : Op) :
    (s.next op).Sourced := by
  cases next_moved h op with
  | ended _ _ hadmitted hdispatched _ =>
      unfold Sourced
      rw [hadmitted, hdispatched]
      exact hsourced
  | admitted _ _ _ _ _ _ _ _ hadmitted _ hdispatched =>
      unfold Sourced
      rw [hadmitted, hdispatched]
      intro dispatch hmem
      obtain ⟨admission, hlookup, hsame⟩ := hsourced dispatch hmem
      refine ⟨admission, ?_, hsame⟩
      -- The new call has an identifier of its own.
      rw [Table.lookup_insert_ite, if_neg (hrecorded.admitted _ admission hlookup).1.ne]
      exact hlookup
  | dispatched _ hevolves _ _ _ _ _ hlive _ hroute _ _ _ hadmitted _ hdispatched =>
      unfold Sourced
      rw [hadmitted, hdispatched]
      intro dispatch hmem
      rcases List.mem_append.mp hmem with hmem | hmem
      · exact hsourced dispatch hmem
      · obtain rfl := List.mem_singleton.mp hmem
        obtain ⟨before, hbefore, hkept⟩ := hevolves.back hlive
        obtain ⟨admission, hlookup, -, hname, hpayload, -⟩ := hrecorded.calls _ before hbefore
        refine ⟨admission, hlookup, congrArg some ?_, hkept.payload.trans hpayload⟩
        exact hroute.symm.trans (hkept.route.trans hname)

/-! ### Takes -/

theorem takes_modify {s t : Sys} {worker changed : Nat} {g : Take → Take}
    (hg : ∀ take : Take, (g take).worker = take.worker)
    (htakes : t.takes = s.takes.modify changed g) (id : Nat) : t.Takes worker id ↔ s.Takes worker id := by
  unfold Takes
  rw [htakes, Table.lookup_modify]
  split_ifs
  · constructor
    · rintro ⟨take, hlookup, hworker⟩
      obtain ⟨before, hbefore, rfl⟩ := Option.map_eq_some_iff.mp hlookup
      exact ⟨before, hbefore, (hg before).symm.trans hworker⟩
    · rintro ⟨take, hlookup, hworker⟩
      exact ⟨g take, by rw [hlookup]; rfl, (hg take).trans hworker⟩
  · exact Iff.rfl

/-- The takes of a worker come with `takeStart` and go with `takeEnd`. -/
theorem takes_next {s : Sys} {worker : Nat} {op : Op} (hstart : op ≠ .takeStart worker)
    (hend : ∀ take, op = .takeEnd take → ¬s.Takes worker take) (h : s.Sound) (id : Nat) :
    (s.next op).Takes worker id ↔ s.Takes worker id := by
  cases op with
  | takeStart worker' =>
      have hne : worker' ≠ worker := fun heq => hstart (heq ▸ rfl)
      have hfree : ¬s.Takes worker s.nextTake := by
        rintro ⟨take, hlookup, -⟩
        exact absurd (h.fresh _ take hlookup) (lt_irrefl _)
      simp only [Sys.next]
      rcases State.takeStart_cases s.rpc worker' with ⟨error, heq⟩ | ⟨live, -, -, heq⟩
      · rw [heq]
        exact Iff.rfl
      · rw [heq]
        unfold Takes guarded
        dsimp only
        rw [Table.lookup_insert_ite]
        split_ifs with hid
        · subst hid
          constructor
          · rintro ⟨take, hlookup, hworker⟩
            rw [← Option.some.inj hlookup] at hworker
            exact absurd hworker hne
          · exact fun htakes => absurd htakes hfree
        · exact Iff.rfl
  | takeEnd take =>
      simp only [Sys.next]
      cases hlookup : s.takes.lookup take with
      | none => exact Iff.rfl
      | some live =>
          unfold Takes
          dsimp only
          rw [Table.lookup_erase_ite]
          split_ifs with hid
          · subst hid
            exact ⟨by simp, fun htakes => absurd htakes (hend id rfl)⟩
          · exact Iff.rfl
  | enable take => exact takes_modify (g := Take.enable s.rpc.outbox.length) (fun _ => rfl) rfl id
  | tryTake take expiredAt now =>
      simp only [Sys.next]
      cases hlookup : s.takes.lookup take with
      | none => exact Iff.rfl
      | some live => exact takes_modify (afterPoll_worker _) rfl id
  | wake take => exact takes_modify (g := Take.enter .looping) (fun _ => rfl) rfl id
  | takeTimeout take => exact takes_modify (g := Take.enter .returned) (fun _ => rfl) rfl id
  | _ => exact Iff.rfl

theorem takes_foreign {s : Sys} {worker : Nat} {op : Op} (hop : op.Foreign worker s) (h : s.Sound) (id : Nat) :
    (s.next op).Takes worker id ↔ s.Takes worker id := by
  apply takes_next _ _ h
  · rintro rfl
    exact hop rfl
  · rintro take rfl ⟨live, hlookup, hworker⟩
    exact hop live hlookup hworker

theorem takes_start {s : Sys} {worker : Nat} (hok : (s.rpc.takeStart worker).2 = .ok ()) (id : Nat) :
    (s.next (.takeStart worker)).Takes worker id ↔ s.Takes worker id ∨ id = s.nextTake := by
  have htakes : (s.next (.takeStart worker)).takes = s.takes.insert s.nextTake ⟨worker, .looping, 0⟩ := by
    simp only [Sys.next, hok]
    rfl
  unfold Takes
  rw [htakes, Table.lookup_insert_ite]
  split_ifs with hid
  · exact ⟨fun _ => Or.inr hid, fun _ => ⟨_, rfl, rfl⟩⟩
  · exact ⟨Or.inl, fun h => h.resolve_right hid⟩

theorem takes_end {s : Sys} {worker take : Nat} (id : Nat) :
    (s.next (.takeEnd take)).Takes worker id ↔ s.Takes worker id ∧ id ≠ take := by
  simp only [Sys.next]
  cases hlookup : s.takes.lookup take with
  | none =>
      refine ⟨fun htakes => ⟨htakes, ?_⟩, And.left⟩
      rintro rfl
      obtain ⟨live, hlive, -⟩ := htakes
      rw [hlookup] at hlive
      cases hlive
  | some live =>
      unfold Takes
      dsimp only
      rw [Table.lookup_erase_ite]
      split_ifs with hid
      · exact ⟨by simp, fun htakes => absurd hid htakes.2⟩
      · exact ⟨fun htakes => ⟨htakes, hid⟩, And.left⟩

/-! ### What fits the wire -/

theorem new_wired (maxCalls maxBytes : Nat) : (Sys.new maxCalls maxBytes).Wired := ⟨Nat.le_of_ble_eq_true rfl, nofun⟩

theorem request_next {s : State} (h : Inv s) (hnext : s.nextId ≤ u64Max) (caller : Nat) (route : String)
    (timeoutMs : Nat) (payload : Bytes) (expiredAt admittedAt : Nat) :
    (s.request caller route timeoutMs payload expiredAt admittedAt).1.nextId ≤ u64Max := by
  have hexpired : (s.expireQueued route expiredAt).nextId ≤ u64Max := by
    rw [(State.expireQueued_settles h.toCounted route expiredAt).shrinks.nextId]
    exact hnext
  unfold State.request
  by_cases hconn : caller ∉ s.connections
  · rw [if_pos hconn]
    exact hnext
  rw [if_neg hconn]
  by_cases hservice : s.routes.lookup route = none
  · rw [if_pos hservice]
    exact hnext
  rw [if_neg hservice]
  dsimp only
  cases (s.expireQueued route expiredAt).routes.lookup route with
  | none => exact hexpired
  | some routeState =>
      dsimp only
      split_ifs with hfull hid
      · exact hexpired
      · exact hexpired
      · rw [State.notifyRoute_nextId]
        exact not_lt.mp hid

theorem Wired.step {s : Sys} (hwired : s.Wired) (h : s.Sound) {op : Op} (hop : op.Fits) : (s.next op).Wired := by
  cases next_moved h op with
  | ended _ hnext hadmitted _ _ =>
      refine ⟨hnext ▸ hwired.next, fun id admission hlookup => ?_⟩
      rw [hadmitted] at hlookup
      exact hwired.payload id admission hlookup
  | dispatched _ _ _ _ _ _ _ _ _ _ _ _ hnext hadmitted _ _ =>
      refine ⟨hnext ▸ hwired.next, fun id admission hlookup => ?_⟩
      rw [hadmitted] at hlookup
      exact hwired.payload id admission hlookup
  | admitted hrequest _ _ _ _ _ _ _ hadmitted _ _ =>
      subst hrequest
      refine ⟨request_next h.inv hwired.next _ _ _ _ _ _, fun id admission hlookup => ?_⟩
      rw [hadmitted, Table.lookup_insert_ite] at hlookup
      split_ifs at hlookup
      · rw [← Option.some.inj hlookup]
        exact hop
      · exact hwired.payload id admission hlookup

/-! ### The operations of the worker -/

theorem register_enlists {s : Sys} {worker : Nat} {route : String} {concurrency queueLimit : Nat}
    (hok : (s.rpc.register worker route concurrency queueLimit).2 = .ok ()) :
    (s.next (.register worker route concurrency queueLimit)).Enlisted worker concurrency := by
  simp only [Sys.next]
  rcases State.register_cases s.rpc worker route concurrency queueLimit with ⟨error, heq⟩ | ⟨-, -, -, heq⟩
  · rw [heq] at hok
    cases hok
  · rw [heq]
    refine ⟨⟨route, concurrency, 0, 0⟩, ?_, rfl⟩
    rw [State.lookup_enroll_workers, if_pos rfl]

/-- A worker with fewer takes than slots may start another. -/
theorem takeStart_ok {s : Sys} (h : s.Sound) {worker concurrency : Nat} (henlisted : s.Enlisted worker concurrency)
    (hroom : Table.count (fun _ take => take.worker = worker) s.takes < concurrency) :
    (s.rpc.takeStart worker).2 = .ok () := by
  obtain ⟨live, hlookup, rfl⟩ := henlisted
  rw [← h.waiters worker live hlookup] at hroom
  unfold State.takeStart
  simp only [hlookup]
  rw [if_neg (not_le.mpr hroom)]

/-- A job that is handed out fits its message. -/
theorem tryTake_legal {s : Sys} (h : s.Sound) (hrecorded : s.Recorded) (hwired : s.Wired)
    {worker expiredAt now : Nat} {job : Job} (htake : (s.rpc.tryTake worker expiredAt now).2 = .ok (.job job)) :
    job.Legal := by
  have hcases := State.tryTake_polled h.inv worker expiredAt now
  generalize s.rpc.tryTake worker expiredAt now = result at hcases htake
  cases hcases with
  | unregistered => cases htake
  | busy => cases htake
  | idle => cases htake
  | late => cases htake
  | @job live t route callId queue call hw hfree ht hr hq hlive howner hroute htime =>
      subst ht
      obtain rfl := Poll.job.inj (Exit.ok.inj htake)
      have hsettles := State.expireQueued_settles h.inv.toCounted live.route expiredAt
      have hevolves : Evolves (expiryRule live.route expiredAt) s.rpc (s.rpc.expireQueued live.route expiredAt) :=
        hsettles.evolves
      obtain ⟨before, hbefore, hkept⟩ := hevolves.back hlive
      obtain ⟨admission, hadmission, -, -, hpayload, -⟩ := hrecorded.calls callId before hbefore
      refine ⟨(hsettles.inv h.inv).positive callId call hlive, ?_, min_le_right _ _, ?_⟩
      · have hfresh := h.inv.fresh callId before hbefore
        have hnext := hwired.next
        unfold u64Max at hnext
        dsimp only
        omega
      · dsimp only
        rw [hkept.payload, hpayload]
        exact hwired.payload callId admission hadmission

/-- A pass of a registered worker finds nothing, or a job that nobody has had. -/
theorem tryTake_ok {s : Sys} (h : s.Sound) {id : Nat} {take : Take}
    (hlookup : s.takes.lookup id = some take) {concurrency : Nat} (henlisted : s.Enlisted take.worker concurrency)
    (expiredAt now : Nat) :
    (s.rpc.tryTake take.worker expiredAt now).2 = .ok .retry ∨
      (s.rpc.tryTake take.worker expiredAt now).2 = .ok .empty ∨
      ∃ job, (s.rpc.tryTake take.worker expiredAt now).2 = .ok (.job job) ∧
        (s.next (.tryTake id expiredAt now)).Runs take.worker job.callId ∧ ¬s.Spent take.worker job.callId := by
  have hrpc : (s.next (.tryTake id expiredAt now)).rpc = (s.rpc.tryTake take.worker expiredAt now).1 := by
    simp only [Sys.next, hlookup]
  obtain ⟨live, hworker, -⟩ := henlisted
  unfold Runs
  rw [hrpc]
  have hcases := State.tryTake_polled h.inv take.worker expiredAt now
  generalize s.rpc.tryTake take.worker expiredAt now = result at hcases
  cases hcases with
  | unregistered hnone =>
      rw [hworker] at hnone
      cases hnone
  | busy => exact Or.inr (Or.inl rfl)
  | idle => exact Or.inr (Or.inl rfl)
  | late => exact Or.inl rfl
  | @job worker t route callId queue call hw hfree ht hr hq hlive howner hroute htime =>
      subst ht
      have hsettles := State.expireQueued_settles h.inv.toCounted worker.route expiredAt
      have hevolves : Evolves (expiryRule worker.route expiredAt) s.rpc (s.rpc.expireQueued worker.route expiredAt) :=
        hsettles.evolves
      obtain ⟨before, hbefore, hkept⟩ := hevolves.back hlive
      refine Or.inr (Or.inr ⟨_, rfl, ?_, ?_⟩)
      · refine ⟨call.assign take.worker, ?_, rfl⟩
        dsimp only
        rw [State.lookup_handOut_calls, if_pos rfl, hlive]
        rfl
      · rintro ⟨-, hspent⟩
        have hsome := hspent before hbefore
        rw [← hkept.owner, howner] at hsome
        cases hsome

/-- A job that a pass brings is handed to the worker. -/
theorem tryTake_handed {s : Sys} {id : Nat} {take : Take} (hlookup : s.takes.lookup id = some take)
    {expiredAt now : Nat} {job : Job} (htake : (s.rpc.tryTake take.worker expiredAt now).2 = .ok (.job job)) :
    ∃ dispatch ∈ (s.next (.tryTake id expiredAt now)).dispatched,
      dispatch.worker = take.worker ∧ dispatch.job = job := by
  simp only [Sys.next, hlookup, htake]
  exact ⟨_, List.mem_append_right _ (List.mem_singleton_self _), rfl, rfl⟩

theorem complete_ok {s : Sys} (h : s.Sound) {worker id : Nat} (hruns : s.Runs worker id) (failed : Bool)
    (payload : Bytes) (now : Nat) : (s.rpc.complete worker id failed payload now).2 = .ok () := by
  obtain ⟨call, hlive, howner⟩ := hruns
  exact (State.complete_owned h.inv hlive howner failed payload now).1

/-- A COMPLETE that is accepted ends a call. -/
theorem complete_over {s : Sys} (h : s.Sound) {worker id : Nat} {failed : Bool} {payload : Bytes} {now : Nat}
    (hok : (s.rpc.complete worker id failed payload now).2 = .ok ()) :
    ¬s.Over id ∧ (s.next (.complete worker id failed payload now)).Over id := by
  rcases State.complete_cases s.rpc worker id failed payload now with
    ⟨error, heq, -⟩ | ⟨call, t, -, hlive, howner, -, -⟩
  · rw [heq] at hok
    cases hok
  · constructor
    · rintro ⟨-, hnone⟩
      rw [hlive] at hnone
      cases hnone
    · have hspent := (Runs.spent h ⟨call, hlive, howner⟩).next h (.complete worker id failed payload now)
      refine ⟨hspent.1, ?_⟩
      have hcalls := (State.complete_owned h.inv hlive howner failed payload now).2.1
      rw [show (s.next (.complete worker id failed payload now)).rpc.calls =
        (s.rpc.complete worker id failed payload now).1.calls from rfl, hcalls, Table.lookup_erase_ite, if_pos rfl]

end Sys

end VeloBus.Rpc
