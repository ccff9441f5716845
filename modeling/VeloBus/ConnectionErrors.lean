import VeloBus.ConnectionModel
import VeloBus.StoreFetch
import VeloBus.StorePublish

/-! The errors of the scheduler, of the store and of the decoder. A protocol error is never among those an
operation ends with: it is the loop's, and closes the connection. -/

namespace VeloBus.Connection

/-! ### The scheduler -/

/-- What the methods of the scheduler refuse with. -/
def schedulerErrors : List Error :=
  [⟨Code.serviceUnavailable, "worker connection has closed"⟩,
    ⟨Code.invalid, "connection already registered a route"⟩,
    ⟨Code.invalid, "workers for a route must agree on queueLimit"⟩,
    ⟨Code.serviceUnavailable, "caller connection has closed"⟩,
    ⟨Code.noService, "no worker registered for route"⟩,
    ⟨Code.overloaded, "RPC admission budget is full; request was not accepted"⟩,
    ⟨Code.overloaded, "RPC identifier space exhausted"⟩,
    ⟨Code.unauthorized, "TAKE requires a registered worker"⟩,
    ⟨Code.overloaded, "worker TAKE waiter capacity reached"⟩,
    ⟨Code.unauthorized, "COMPLETE requires a registered worker"⟩,
    ⟨Code.invalid, "unknown or already completed call"⟩,
    ⟨Code.unauthorized, "call belongs to another worker"⟩]

/-- What a ticket is answered with, apart from the error of a handler. -/
def ticketErrors : List Error :=
  [Rpc.deadlineError, Rpc.workerLostError, Rpc.lastWorkerLostError,
    ⟨Code.serviceUnavailable, "RPC response channel closed"⟩]

section Scheduler

variable {connection : Nat} {error : Error}

theorem register_error {rpc : Rpc.State} {route : String} {concurrency queueLimit : Nat}
    (h : (rpc.register connection route concurrency queueLimit).2 = .error error) : error ∈ schedulerErrors := by
  unfold Rpc.State.register at h
  split_ifs at h <;> rw [← Rpc.Exit.error.inj h] <;> decide

theorem request_error {rpc : Rpc.State} {route : String} {timeoutMs expiredAt admittedAt : Nat} {payload : Bytes}
    (h : (rpc.request connection route timeoutMs payload expiredAt admittedAt).2 = .error error) :
    error ∈ schedulerErrors := by
  unfold Rpc.State.request at h
  by_cases hcaller : connection ∉ rpc.connections
  · rw [if_pos hcaller] at h
    rw [← Rpc.Exit.error.inj h]
    decide
  rw [if_neg hcaller] at h
  by_cases hroute : rpc.routes.lookup route = none
  · rw [if_pos hroute] at h
    rw [← Rpc.Exit.error.inj h]
    decide
  rw [if_neg hroute] at h
  dsimp only at h
  split at h
  · cases h
  split_ifs at h
  · rw [← Rpc.Exit.error.inj h]
    decide
  · rw [← Rpc.Exit.error.inj h]
    decide

theorem takeStart_error {rpc : Rpc.State} (h : (rpc.takeStart connection).2 = .error error) :
    error ∈ schedulerErrors := by
  unfold Rpc.State.takeStart at h
  split at h
  · rw [← Rpc.Exit.error.inj h]
    decide
  · split_ifs at h
    rw [← Rpc.Exit.error.inj h]
    decide

theorem tryTake_error {rpc : Rpc.State} {expiredAt now : Nat}
    (h : (rpc.tryTake connection expiredAt now).2 = .error error) : error ∈ schedulerErrors := by
  unfold Rpc.State.tryTake at h
  cases hworker : rpc.workers.lookup connection with
  | none =>
      rw [hworker] at h
      rw [← Rpc.Exit.error.inj h]
      decide
  | some worker =>
      rw [hworker] at h
      dsimp only at h
      split_ifs at h with hbusy
      split at h
      · cases h
      split at h
      · cases h
      split at h
      · cases h
      split_ifs at h

theorem complete_error {rpc : Rpc.State} {callId now : Nat} {failed : Bool} {payload : Bytes}
    (h : (rpc.complete connection callId failed payload now).2 = .error error) : error ∈ schedulerErrors := by
  unfold Rpc.State.complete at h
  split_ifs at h
  · rw [← Rpc.Exit.error.inj h]
    decide
  split at h
  · rw [← Rpc.Exit.error.inj h]
    decide
  split_ifs at h
  · rw [← Rpc.Exit.error.inj h]
    decide
  split at h
  · cases h
  · split_ifs at h

theorem completion_not_protocol {call : Rpc.Call} {failed : Bool} {payload : Bytes} {now : Nat}
    (h : Rpc.State.completion call failed payload now = .error error) : error.code ≠ Code.protocol := by
  unfold Rpc.State.completion at h
  split_ifs at h <;> rw [← Except.error.inj h]
  · decide
  · exact (by decide : Code.handlerError ≠ Code.protocol)

theorem scheduler_not_protocol (h : error ∈ schedulerErrors) : error.code ≠ Code.protocol :=
  (by decide : ∀ error ∈ schedulerErrors, error.code ≠ Code.protocol) error h

theorem ticket_not_protocol (h : error ∈ ticketErrors) : error.code ≠ Code.protocol :=
  (by decide : ∀ error ∈ ticketErrors, error.code ≠ Code.protocol) error h

end Scheduler

/-! ### The store -/

/-- What the store refuses with, as long as the disk does not fail. -/
def storeErrors : List Error :=
  [⟨Code.storage, "store is read-only after uncertain disk I/O; restart required"⟩,
    ⟨Code.capacity, "retained history capacity reached; batch was not written"⟩,
    ⟨Code.capacity, "sequence range exhausted"⟩,
    ⟨Code.capacity, "WAL capacity reached; batch was not written"⟩,
    ⟨Code.cursor, "cursor is beyond this log's high-water mark"⟩,
    ⟨Code.limit, "first eligible event exceeds maxBytes; increase the fetch budget"⟩,
    ⟨Code.storage, "store lock poisoned; restart required"⟩,
    ⟨Code.storage, "store worker failed; restart required"⟩]

section Store

variable {error : Error}

theorem checkRetainedCapacity_mem {store : Store} {records : List Record}
    (h : store.checkRetainedCapacity records = .error error) : error ∈ storeErrors := by
  unfold Store.checkRetainedCapacity at h
  dsimp only at h
  split_ifs at h
  rw [← Except.error.inj h]
  decide

theorem checkCapacity_mem {wal : Wal} {records : List Record} (h : wal.checkCapacity records = .error error) :
    error ∈ storeErrors := by
  unfold Wal.checkCapacity at h
  split_ifs at h
  rw [← Except.error.inj h]
  decide

theorem log_mem {hash : Bytes → UInt32} {store : Store} {batch : Batch}
    (h : (store.log hash batch none).2.2 = .error error) : error ∈ storeErrors := by
  unfold Store.log at h
  split at h
  · cases h
  · split at h
    · rename_i hfull
      rw [← Except.error.inj h]
      exact checkCapacity_mem hfull
    · rename_i hroom
      unfold Wal.append at h
      rw [hroom] at h
      cases h

theorem publish_mem {hash : Bytes → UInt32} {store : Store} {records : List Record}
    (h : (store.publish hash records none).2.2 = .error error) : error ∈ storeErrors := by
  unfold Store.publish at h
  split_ifs at h
  · rw [← Except.error.inj h]
    decide
  split at h
  · rename_i hfull
    rw [← Except.error.inj h]
    exact checkRetainedCapacity_mem hfull
  dsimp only at h
  split_ifs at h
  · rw [← Except.error.inj h]
    decide
  split at h
  · rename_i hlog
    rw [← Except.error.inj h]
    exact log_mem (congrArg (fun result => result.2.2) hlog)
  · cases h

theorem scan_mem {request : Fetch} {events : List Event} {page : Page} (h : request.scan events page = .error error) :
    error ∈ storeErrors := by
  induction events generalizing page with
  | nil => cases h
  | cons event events ih =>
      rw [Fetch.scan_cons] at h
      split_ifs at h
      · exact ih h
      · rw [← Except.error.inj h]
        decide
      · exact ih h

theorem fetch_mem {store : Store} {request : Fetch} (h : (store.fetch request).2 = .error error) :
    error ∈ storeErrors := by
  unfold Store.fetch at h
  dsimp only at h
  split_ifs at h
  · rw [← Except.error.inj h]
    decide
  split at h
  · rename_i hscan
    rw [← Except.error.inj h]
    exact scan_mem hscan
  · cases h

theorem storeFailed_mem (h : DispatchError.StoreFailed error) : error ∈ storeErrors :=
  (by decide : ∀ error ∈ [(⟨Code.storage, "store lock poisoned; restart required"⟩ : Error),
    ⟨Code.storage, "store worker failed; restart required"⟩], error ∈ storeErrors) error h

theorem store_not_protocol (h : error ∈ storeErrors) : error.code ≠ Code.protocol :=
  (by decide : ∀ error ∈ storeErrors, error.code ≠ Code.protocol) error h

end Store

/-- No operation that is dispatched fails with a protocol error. -/
theorem DispatchError.not_protocol {connection : Nat} {error : Error} {request : Request}
    (h : DispatchError connection request error) (hhello : ∀ version token, request ≠ .hello version token) :
    error.code ≠ Code.protocol := by
  cases request with
  | hello version token => exact absurd rfl (hhello version token)
  | publish records =>
      rcases h with ⟨hash, store, fault, hpublish⟩ | hfailed
      · rcases Store.publish_error hpublish with ⟨hcode, -, -⟩ | ⟨hcode, -⟩ <;> rw [hcode] <;> decide
      · exact store_not_protocol (storeFailed_mem hfailed)
  | fetch request =>
      rcases h with ⟨store, hfetch⟩ | hfailed
      · exact store_not_protocol (fetch_mem hfetch)
      · exact store_not_protocol (storeFailed_mem hfailed)
  | stats => exact store_not_protocol (storeFailed_mem h)
  | ping => exact h.elim
  | register route concurrency queueLimit =>
      obtain ⟨rpc, hregister⟩ := h
      exact scheduler_not_protocol (register_error hregister)
  | rpc route timeoutMs payload =>
      rcases h with ⟨rpc, expiredAt, admittedAt, hrequest⟩ | ⟨call, failed, payload, now, hcompletion⟩ | hlost
      · exact scheduler_not_protocol (request_error hrequest)
      · exact completion_not_protocol hcompletion
      · exact ticket_not_protocol hlost
  | take waitMs =>
      rcases h with ⟨rpc, hstart⟩ | ⟨rpc, expiredAt, now, htake⟩
      · exact scheduler_not_protocol (takeStart_error hstart)
      · exact scheduler_not_protocol (tryTake_error htake)
  | complete callId failed payload =>
      obtain ⟨rpc, now, hcomplete⟩ := h
      exact scheduler_not_protocol (complete_error hcomplete)

/-! ### Decoding -/

/-- What the decoder refuses with. -/
def decodeErrors : List Error :=
  [⟨Code.protocol, "truncated request body"⟩,
    ⟨Code.invalid, "string exceeds byte limit"⟩,
    ⟨Code.protocol, "invalid UTF-8"⟩,
    ⟨Code.protocol, "unexpected trailing bytes"⟩,
    ⟨Code.invalid, "topic must contain 1..255 ASCII letters, digits, dot, underscore or hyphen"⟩,
    ⟨Code.limit, "payload exceeds 262144 bytes"⟩,
    ⟨Code.invalid, "publish count must be 1..256"⟩,
    ⟨Code.invalid, "invalid fetch count or byte budget"⟩,
    ⟨Code.protocol, "unknown fetch mode"⟩,
    ⟨Code.invalid, "invalid worker concurrency or queue limit"⟩,
    ⟨Code.invalid, "RPC timeout must be 1..30000 ms"⟩,
    ⟨Code.limit, "RPC payload exceeds 262144 bytes"⟩,
    ⟨Code.invalid, "TAKE wait must be 1..1000 ms"⟩,
    ⟨Code.invalid, "invalid completion status"⟩,
    ⟨Code.limit, "completion payload exceeds limit"⟩,
    ⟨Code.protocol, "handler error must be UTF-8"⟩,
    ⟨Code.protocol, "unknown opcode"⟩]

/-- It fails as the decoder does, if it fails. -/
def Decodes {α : Type} (result : Except Error α) : Prop := ∀ error, result = .error error → error ∈ decodeErrors

section Decodes

variable {α β : Type}

theorem Decodes.ok (a : α) : Decodes (.ok a) := nofun

theorem Decodes.error {error : Error} (h : error ∈ decodeErrors) : Decodes (.error error : Except Error α) := by
  intro error' heq
  rw [← Except.error.inj heq]
  exact h

theorem Decodes.bind {x : Except Error α} {f : α → Except Error β} (hx : Decodes x) (hf : ∀ a, Decodes (f a)) :
    Decodes (x >>= f) := by
  cases x with
  | ok a => exact hf a
  | error error => exact .error (hx error rfl)

theorem Decodes.ite {p : Prop} [Decidable p] {x y : Except Error α} (hx : Decodes x) (hy : Decodes y) :
    Decodes (if p then x else y) := by
  split_ifs
  · exact hx
  · exact hy

theorem take_decodes (length : Nat) (reader : VeloBus.Reader) : Decodes (reader.take length) :=
  .ite (.error (by decide)) (.ok _)

theorem uint_decodes (width : Nat) (reader : VeloBus.Reader) : Decodes (reader.uint width) :=
  .bind (take_decodes _ _) fun _ => .ok _

theorem string_decodes (max : Nat) (reader : VeloBus.Reader) : Decodes (reader.string max) := by
  refine .bind (uint_decodes _ _) fun length => .ite (.error (by decide)) <|
    .bind (take_decodes _ _) fun value => ?_
  dsimp only
  split
  · exact .ok _
  · exact .error (by decide)

theorem finish_decodes (reader : VeloBus.Reader) : Decodes reader.finish := .ite (.ok _) (.error (by decide))

theorem validateTopic_decodes (topic : String) (wildcard : Bool) : Decodes (validateTopic topic wildcard) :=
  .ite (.ok _) (.ite (.error (by decide)) (.ok _))

theorem decodeRecord_decodes (reader : VeloBus.Reader) : Decodes (decodeRecord reader) :=
  .bind (string_decodes _ _) fun _ => .bind (validateTopic_decodes _ _) fun _ =>
    .bind (string_decodes _ _) fun _ => .bind (uint_decodes _ _) fun _ => .ite (.error (by decide)) <|
      .bind (take_decodes _ _) fun _ => .ok _

theorem decodeRecordsN_decodes (count : Nat) (reader : VeloBus.Reader) : Decodes (decodeRecordsN count reader) := by
  induction count generalizing reader with
  | zero => exact .ok _
  | succ count ih => exact .bind (decodeRecord_decodes _) fun _ => .bind (ih _) fun _ => .ok _

theorem decodeRecords_decodes (reader : VeloBus.Reader) : Decodes (decodeRecords reader) :=
  .bind (uint_decodes _ _) fun _ => .ite (.error (by decide)) (decodeRecordsN_decodes _ _)

theorem decodeFetch_decodes (reader : VeloBus.Reader) : Decodes (decodeFetch reader) :=
  .bind (string_decodes _ _) fun _ => .bind (validateTopic_decodes _ _) fun _ => .bind (uint_decodes _ _) fun _ =>
    .bind (uint_decodes _ _) fun _ => .bind (uint_decodes _ _) fun _ => .bind (uint_decodes _ _) fun _ =>
      .ite (.error (by decide)) (.ite (.error (by decide)) (.ok _))

theorem decodeRegister_decodes (reader : VeloBus.Reader) : Decodes (decodeRegister reader) :=
  .bind (string_decodes _ _) fun _ => .bind (validateTopic_decodes _ _) fun _ => .bind (uint_decodes _ _) fun _ =>
    .bind (uint_decodes _ _) fun _ => .ite (.error (by decide)) (.ok _)

theorem decodeRpc_decodes (reader : VeloBus.Reader) : Decodes (decodeRpc reader) :=
  .bind (string_decodes _ _) fun _ => .bind (validateTopic_decodes _ _) fun _ => .bind (uint_decodes _ _) fun _ =>
    .ite (.error (by decide)) <| .bind (uint_decodes _ _) fun _ => .ite (.error (by decide)) <|
      .bind (take_decodes _ _) fun _ => .ok _

theorem decodeComplete_decodes (reader : VeloBus.Reader) : Decodes (decodeComplete reader) :=
  .bind (uint_decodes _ _) fun _ => .bind (uint_decodes _ _) fun _ => .ite (.error (by decide)) <|
    .bind (uint_decodes _ _) fun _ => .ite (.error (by decide)) <| .bind (take_decodes _ _) fun _ =>
      .ite (.error (by decide)) (.ok _)

theorem decodeBody_decodes (opcode : Nat) (reader : VeloBus.Reader) : Decodes (decodeBody opcode reader) := by
  unfold decodeBody
  split
  · exact .bind (uint_decodes _ _) fun _ => .bind (string_decodes _ _) fun _ => .ok _
  · exact .bind (decodeRecords_decodes _) fun _ => .ok _
  · exact .bind (decodeFetch_decodes _) fun _ => .ok _
  · exact .ok _
  · exact .ok _
  · exact decodeRegister_decodes _
  · exact decodeRpc_decodes _
  · exact .bind (uint_decodes _ _) fun _ => .ite (.error (by decide)) (.ok _)
  · exact decodeComplete_decodes _
  · exact .error (by decide)

theorem decodeRequest_decodes (opcode : Nat) (body : Bytes) : Decodes (decodeRequest opcode body) :=
  .bind (decodeBody_decodes _ _) fun _ => .bind (finish_decodes _) fun _ => .ok _

end Decodes

/-- What fails in another way than the loop does on its own account. -/
def Ordinary {α : Type} (result : Except Error α) : Prop :=
  ∀ error, result = .error error → error ≠ duplicateError ∧ error ≠ inFlightError

theorem decodeRequest_ordinary (opcode : Nat) (body : Bytes) : Ordinary (decodeRequest opcode body) := by
  intro error h
  exact (by decide : ∀ error ∈ decodeErrors, error ≠ duplicateError ∧ error ≠ inFlightError) error
    (decodeRequest_decodes opcode body error h)

end VeloBus.Connection
