import VeloBus.CallerModel

/-! What holds of the calls of a caller at every moment: each belongs to one task of the connection, which waits for it
or has said what became of it. -/

namespace VeloBus.Caller

variable {ρ : Type}

/-! ### Admission -/

def callerClosedError : Error := ⟨Code.serviceUnavailable, "caller connection has closed"⟩

/-- What the scheduler refuses a request of a connected caller with. -/
def admissionErrors : List Error :=
  [⟨Code.noService, "no worker registered for route"⟩,
    ⟨Code.overloaded, "RPC admission budget is full; request was not accepted"⟩,
    ⟨Code.overloaded, "RPC identifier space exhausted"⟩]

/-- A request is admitted under the next identifier, or refused. -/
theorem request_cases {s : Rpc.Sys} (hsound : s.Sound) (caller : Nat) (route : String) (timeoutMs : Nat)
    (payload : Bytes) (expiredAt admittedAt : Nat) :
    (∃ ticket, (s.rpc.request caller route timeoutMs payload expiredAt admittedAt).2 = .ok ticket ∧
      ticket.callId = s.rpc.nextId ∧
      (s.next (.request caller route timeoutMs payload expiredAt admittedAt)).admitted =
        s.admitted.insert s.rpc.nextId ⟨caller, route, timeoutMs, payload, admittedAt⟩ ∧
      (s.next (.request caller route timeoutMs payload expiredAt admittedAt)).tickets =
        s.tickets.insert s.rpc.nextId ticket) ∨
    ∃ error, (s.rpc.request caller route timeoutMs payload expiredAt admittedAt).2 = .error error ∧
      (s.next (.request caller route timeoutMs payload expiredAt admittedAt)).admitted = s.admitted ∧
      (s.next (.request caller route timeoutMs payload expiredAt admittedAt)).tickets = s.tickets ∧
      (error ∈ admissionErrors ∨ error = callerClosedError ∧ caller ∉ s.rpc.connections) := by
  have hcases := Rpc.State.request_requested hsound.inv caller route timeoutMs payload expiredAt admittedAt
  simp only [Rpc.Sys.next]
  generalize s.rpc.request caller route timeoutMs payload expiredAt admittedAt = result at hcases
  cases hcases with
  | disconnected h => exact Or.inr ⟨_, rfl, rfl, rfl, Or.inr ⟨rfl, h⟩⟩
  | noService => exact Or.inr ⟨_, rfl, rfl, rfl, Or.inl (by simp [admissionErrors])⟩
  | overloaded => exact Or.inr ⟨_, rfl, rfl, rfl, Or.inl (by simp [admissionErrors])⟩
  | exhausted => exact Or.inr ⟨_, rfl, rfl, rfl, Or.inl (by simp [admissionErrors])⟩
  | admitted _ ht =>
      have hnext := (Rpc.State.expireQueued_settles hsound.inv.toCounted route expiredAt).shrinks.nextId
      rw [← ht] at hnext
      refine Or.inl ⟨_, rfl, hnext, ?_, ?_⟩
      · simp only [Rpc.Sys.enter, hnext]
      · simp only [Rpc.Sys.issue, hnext]

/-! ### The invariant -/

namespace State

/-- What a reply to a call of the caller stands on. -/
def Verdict (s : State ρ) (history : History) (id : Nat) (reply : Rpc.Reply) : Prop :=
  s.sys.Vouched history.reports id reply ∨ reply = .error channelClosedError ∧ s.link.server.loop = .returned

/-- How the operation of a request ended. -/
def Outcome (s : State ρ) (history : History) (index : Nat) (result : Except Error Bytes) : Prop :=
  (history.calls.lookup index = none ∧ ∃ error, result = .error error ∧
    (error ∈ admissionErrors ∨ error = callerClosedError ∧ s.link.server.loop = .returned)) ∨
  ∃ id reply, history.calls.lookup index = some id ∧ result = reply.map Rpc.replyBody ∧ s.Verdict history id reply

/-- What is known of the connection and of the scheduler by themselves. -/
structure Base (token : String) (s : State ρ) (history : History) : Prop where
  server : s.link.server.Inv token
  traced : s.link.server.Traced token history.results
  sound : s.sys.Sound
  recorded : s.sys.Recorded
  ordered : s.sys.Ordered
  answered : s.sys.Answered
  verified : s.sys.Verified history.reports

structure Inv (connection : Nat) (s : State ρ) (history : History) : Prop where
  online : s.link.server.loop.Running → connection ∈ s.sys.rpc.connections
  waits : ∀ index wait, s.waits.lookup index = some wait → ∃ route timeoutMs payload,
    s.link.server.Performs index (.rpc route timeoutMs payload) ∧ history.calls.lookup index = some wait.id ∧
      (s.sys.tickets.lookup wait.id).isSome
  replied : ∀ index id reply, s.waits.lookup index = some (.replied id reply) → s.Verdict history id reply
  pending : ∀ index id request, history.calls.lookup index = some id → s.link.server.Performs index request →
    (s.waits.lookup index).isSome
  calls : ∀ index id, history.calls.lookup index = some id → ∃ route timeoutMs payload admittedAt,
    (index, .rpc route timeoutMs payload) ∈ s.link.server.dispatched ∧
      s.sys.admitted.lookup id = some ⟨connection, route, timeoutMs, payload, admittedAt⟩
  single : ∀ index index' id, history.calls.lookup index = some id → history.calls.lookup index' = some id →
    index = index'
  all : ∀ id admission, s.sys.admitted.lookup id = some admission → admission.caller = connection →
    ∃ index, history.calls.lookup index = some id
  results : ∀ index result request, (index, result) ∈ history.results →
    (index, request) ∈ s.link.server.dispatched → request.Calls → s.Outcome history index result

end State

/-! ### Components -/

section Components

variable {undefined : ρ} {options : Client.ConnectOptions} {token : String} {connection maxCalls maxBytes : Nat}
  {s : State ρ × History}

theorem link_recorded (h : (recorded undefined options token connection maxCalls maxBytes).Reachable s) :
    (Link.recorded undefined options token connection).Reachable (s.1.link, s.2.bodies) := by
  refine h.project (fun s => (s.1.link, s.2.bodies)) ?_ ?_
  · rintro ⟨s, history⟩ ⟨⟨link, hlink, rfl⟩, rfl⟩
    exact .of_start ⟨hlink, rfl⟩
  · rintro ⟨s, history⟩ op ⟨t, history'⟩ - ih ⟨⟨-, hlink, -⟩, rfl⟩
    exact ih.record hlink

theorem link_traced (h : (recorded undefined options token connection maxCalls maxBytes).Reachable s) :
    (Link.traced undefined options token connection).Reachable (s.1.link, s.2.results) := by
  refine h.project (fun s => (s.1.link, s.2.results)) ?_ ?_
  · rintro ⟨s, history⟩ ⟨⟨link, hlink, rfl⟩, rfl⟩
    exact .of_start ⟨hlink, rfl⟩
  · rintro ⟨s, history⟩ op ⟨t, history'⟩ - ih ⟨⟨-, hlink, -⟩, rfl⟩
    exact ih.record hlink

/-- What an operation is started with was decoded. -/
theorem performs_legal {server : Connection.State} (h : server.Inv token) {index : Nat} {request : Request}
    (hperforms : server.Performs index request) : request.Legal := by
  obtain ⟨task, hlookup, -, rfl⟩ := hperforms
  obtain ⟨frame, -, hserves⟩ := h.task index task hlookup
  exact (decodeRequest_eq_ok.mp hserves.request).1

theorem sys_witnessed (h : (recorded undefined options token connection maxCalls maxBytes).Reachable s) :
    (Rpc.witnessed maxCalls maxBytes).Reachable (s.1.sys, s.2.reports) := by
  refine h.project (fun s => (s.1.sys, s.2.reports)) ?_ ?_
  · rintro ⟨s, history⟩ ⟨⟨link, hlink, rfl⟩, rfl⟩
    exact .of_start ⟨rfl, rfl⟩
  · rintro ⟨s, history⟩ op ⟨t, history'⟩ hreach ih ⟨⟨hready, -, hsys, -⟩, rfl⟩
    have hserver := (Link.inv (link_recorded hreach).of_observed).server
    have hdecoded : ∀ op', op.sysOp connection = some op' → op'.Decoded := by
      intro op' heq
      cases op with
      | request index route timeoutMs payload expiredAt admittedAt =>
          obtain rfl := Option.some.inj heq
          exact performs_legal hserver hready.1
      | others op =>
          obtain rfl := Option.some.inj heq
          exact hready.2
      | welcome =>
          obtain rfl := Option.some.inj heq
          trivial
      | lapse index id now =>
          obtain rfl := Option.some.inj heq
          trivial
      | drop index id reply =>
          obtain rfl := Option.some.inj heq
          trivial
      | abort index id =>
          obtain rfl := Option.some.inj heq
          trivial
      | disconnect =>
          obtain rfl := Option.some.inj heq
          trivial
      | _ => cases heq
    refine ih.record ?_
    cases hop : op.sysOp connection with
    | none =>
        rw [hop] at hsys
        exact hsys
    | some op' =>
        rw [hop] at hsys
        exact ⟨hsys.1, hsys.2.1, hdecoded op' hop, hsys.2.2⟩

theorem based (h : (recorded undefined options token connection maxCalls maxBytes).Reachable s) :
    s.1.Base token s.2 := by
  have hany := Rpc.anyClock_of_steady (Rpc.steady_of_prompt (sys_witnessed h).of_observed)
  exact {
    server := (Link.inv (link_recorded h).of_observed).server
    traced := Link.traced_reachable (link_traced h)
    sound := Rpc.Sys.sound hany
    recorded := Rpc.Sys.recorded hany
    ordered := Rpc.Sys.ordered hany
    answered := Rpc.Sys.answered hany
    verified := Rpc.verified (sys_witnessed h) }

end Components

/-! ### The connection in a step -/

section Server

variable {undefined : ρ} {options : Client.ConnectOptions} {token : String} {connection : Nat}
  {link link' : Link.State ρ} {op : Option (Link.Op ρ)} (hinv : link.server.Inv token)
  (hstep : (Link.machine undefined options token connection).Advance link op link')

include hstep

/-- The connection takes a step, or its operations and its loop stay as they are. -/
theorem server_cases : (∃ op', op = some (.server op') ∧ link.server.Enabled connection op' ∧
      link'.server = link.server.next token op') ∨
    (∀ op', op ≠ some (.server op')) ∧ link'.server.tasks = link.server.tasks ∧
      link'.server.dispatched = link.server.dispatched ∧ link'.server.loop = link.server.loop := by
  cases op with
  | none =>
      obtain rfl : link' = link := hstep
      exact Or.inr ⟨(fun _ h => by cases h), rfl, rfl, rfl⟩
  | some op =>
      cases op with
      | client op =>
          obtain ⟨rest, client, -, -, -, rfl⟩ := hstep
          exact Or.inr ⟨(fun _ h => by cases h), rfl, rfl, rfl⟩
      | server op =>
          obtain ⟨-, hop, rfl⟩ := hstep
          exact Or.inl ⟨op, rfl, hop, rfl⟩

theorem dispatched_subset : link.server.dispatched ⊆ link'.server.dispatched := by
  rcases server_cases hstep with ⟨op', -, hop, heq⟩ | ⟨-, -, heq, -⟩
  · rw [heq]
    rcases Connection.State.dispatched_next token hop with hsame | ⟨request, hmore⟩
    · exact hsame ▸ List.Subset.refl _
    · exact hmore ▸ List.subset_append_left _ _
  · exact heq ▸ List.Subset.refl _

theorem dispatched_back {index : Nat} {request : Request} (h : (index, request) ∈ link'.server.dispatched) :
    (index, request) ∈ link.server.dispatched ∨ index = link.server.taken.length := by
  rcases server_cases hstep with ⟨op', -, hop, heq⟩ | ⟨-, -, heq, -⟩
  · rw [heq] at h
    rcases Connection.State.dispatched_next token hop with hsame | ⟨request', hmore⟩
    · exact Or.inl (hsame ▸ h)
    · rw [hmore] at h
      exact (List.mem_append.mp h).imp_right fun hnew => (Prod.mk.inj (List.mem_singleton.mp hnew)).1
  · exact Or.inl (heq ▸ h)

theorem returned_kept (h : link.server.loop = .returned) : link'.server.loop = .returned := by
  rcases server_cases hstep with ⟨op', -, hop, heq⟩ | ⟨-, -, -, heq⟩
  · rw [heq]
    exact Connection.State.returned_next hop h
  · exact heq.trans h

theorem running_back (h : link'.server.loop.Running) :
    link.server.loop.Running ∨ op = some (.server .greeted) ∧ link.server.loop = .greeting [] true := by
  rcases server_cases hstep with ⟨op', hsome, hop, heq⟩ | ⟨-, -, -, heq⟩
  · rw [heq] at h
    refine (Connection.State.running_next hop h).imp_right ?_
    rintro ⟨rfl, hgreeting⟩
    exact ⟨hsome, hgreeting⟩
  · exact Or.inl (heq ▸ h)

theorem performs_back {index : Nat} {request : Request} (h : link'.server.Performs index request) :
    link.server.Performs index request ∧ (∀ op', op = some (.server op') → ¬op'.Ends index) ∨
      index = link.server.taken.length := by
  rcases server_cases hstep with ⟨op', hsome, hop, heq⟩ | ⟨hnone, heq, -⟩
  · rw [heq] at h
    refine (Connection.State.Performs.back hop h).imp ?_ And.right
    rintro ⟨hbefore, hends⟩
    exact ⟨hbefore, fun op'' hsome' => by
      obtain rfl := Link.Op.server.inj (Option.some.inj (hsome.symm.trans hsome'))
      exact hends⟩
  · unfold Connection.State.Performs at h
    rw [heq] at h
    exact Or.inl ⟨h, fun op' hop => absurd hop (hnone op')⟩

include hinv

theorem performs_kept {index : Nat} {request : Request} (h : link.server.Performs index request)
    (hends : ∀ op', op = some (.server op') → ¬op'.Ends index) : link'.server.Performs index request := by
  rcases server_cases hstep with ⟨op', hsome, hop, heq⟩ | ⟨-, heq, -⟩
  · rw [heq]
    exact h.next hinv hop (hends op' hsome)
  · unfold Connection.State.Performs
    rw [heq]
    exact h

end Server

/-- The scheduler takes a step, or stays as it is. -/
theorem sys_cases {maxCalls maxBytes : Nat} {sys sys' : Rpc.Sys} {op : Option Rpc.Op}
    (hstep : (Rpc.steady maxCalls maxBytes).Advance sys op sys') :
    (∃ op', op = some op' ∧ sys.Enabled op' ∧ sys.Timely op' ∧ sys' = sys.next op') ∨ op = none ∧ sys' = sys := by
  cases op with
  | none => exact Or.inr ⟨rfl, hstep⟩
  | some op => exact Or.inl ⟨op, rfl, hstep⟩

/-! ### A step -/

/-- What the connection and the scheduler do in a step. -/
structure Moves (undefined : ρ) (options : Client.ConnectOptions) (token : String) (connection maxCalls maxBytes : Nat)
    (s : State ρ) (op : Op ρ) (t : State ρ) : Prop where
  link : (Link.machine undefined options token connection).Advance s.link (s.linkOp connection op) t.link
  sys : (Rpc.steady maxCalls maxBytes).Advance s.sys (op.sysOp connection) t.sys

namespace State

section Step

variable {undefined : ρ} {options : Client.ConnectOptions} {token : String} {connection maxCalls maxBytes : Nat}
  {s t : State ρ} {history : History} {op : Op ρ} (hbase : s.Base token history)
  (hmoves : Moves undefined options token connection maxCalls maxBytes s op t)

include hbase hmoves

/-- What became of a call does not change. -/
theorem Verdict.step {id : Nat} {reply : Rpc.Reply} (h : s.Verdict history id reply) :
    t.Verdict (s.observe connection op history) id reply := by
  refine h.imp (fun hvouched => ?_) fun hclosed => ⟨hclosed.1, returned_kept hmoves.link hclosed.2⟩
  have hmore : (s.observe connection op history).reports =
      Transition.record (fun s op reports => reports ++ s.reports op) s.sys (op.sysOp connection) history.reports := rfl
  rcases sys_cases hmoves.sys with ⟨op', hop, henabled, htimely, heq⟩ | ⟨hop, heq⟩
  · rw [heq, hmore, hop]
    exact hvouched.next hbase.sound hbase.recorded (hbase.verified.backed.ever · id) henabled htimely _
  · rw [heq, hmore, hop]
    exact hvouched

/-- A call that was admitted stays so. -/
theorem admitted_kept {id : Nat} {admission : Rpc.Admission} (h : s.sys.admitted.lookup id = some admission) :
    t.sys.admitted.lookup id = some admission := by
  rcases sys_cases hmoves.sys with ⟨op', -, -, -, heq⟩ | ⟨-, heq⟩
  · exact heq ▸ Rpc.Sys.admitted_next hbase.sound hbase.recorded h op'
  · exact heq ▸ h

/-- What has ended stays as it is. -/
theorem Outcome.step {index : Nat} {result : Except Error Bytes} (h : s.Outcome history index result)
    (hcalls : (s.observe connection op history).calls.lookup index = history.calls.lookup index) :
    t.Outcome (s.observe connection op history) index result := by
  rcases h with ⟨hnone, error, hresult, herror⟩ | ⟨id, reply, hsome, hresult, hverdict⟩
  · refine Or.inl ⟨hcalls.trans hnone, error, hresult, herror.imp_right fun hclosed => ⟨hclosed.1, ?_⟩⟩
    exact returned_kept hmoves.link hclosed.2
  · exact Or.inr ⟨id, reply, hcalls.trans hsome, hresult, hverdict.step hbase hmoves⟩

/-- A task that has a call was started before the step. -/
theorem Inv.performs_back (hinv : s.Inv connection history) {index id : Nat} {request : Request}
    (hcall : history.calls.lookup index = some id) (hperforms : t.link.server.Performs index request) :
    s.link.server.Performs index request ∧
      ∀ op', s.linkOp connection op = some (.server op') → ¬op'.Ends index := by
  refine (Caller.performs_back hmoves.link hperforms).resolve_right fun heq => ?_
  obtain ⟨_, _, _, _, hmem, -⟩ := hinv.calls index id hcall
  exact absurd heq (hbase.server.dispatched_lt (List.mem_map_of_mem hmem)).ne

/-- A result that was there before is that of an operation that was. -/
theorem dispatched_of_result {index : Nat} {result : Except Error Bytes} {request : Request}
    (hmem : (index, result) ∈ history.results) (h : (index, request) ∈ t.link.server.dispatched) :
    (index, request) ∈ s.link.server.dispatched := by
  refine (dispatched_back hmoves.link h).resolve_right fun heq => ?_
  exact absurd heq (hbase.server.dispatched_lt (hbase.traced.operations index result hmem)).ne

/-- A step that gives no task a call: a wait goes on, or its task ends. -/
theorem Inv.aside (hinv : s.Inv connection history)
    (hcalls : (s.observe connection op history).calls = history.calls)
    (hwaits : ∀ index wait, t.waits.lookup index = some wait → s.waits.lookup index = some wait ∧
      (∀ op', s.linkOp connection op = some (.server op') → ¬op'.Ends index) ∧
      (t.sys.tickets.lookup wait.id).isSome)
    (hends : ∀ index, (s.waits.lookup index).isSome → (t.waits.lookup index).isSome ∨
      ∃ op', s.linkOp connection op = some (.server op') ∧ op'.Ends index)
    (hresults : ∀ index result request, (index, result) ∈ (s.observe connection op history).results →
      (index, request) ∈ t.link.server.dispatched → request.Calls →
      (index, result) ∈ history.results ∨ t.Outcome (s.observe connection op history) index result)
    (honline : t.link.server.loop.Running → connection ∈ t.sys.rpc.connections)
    (hall : ∀ id admission, t.sys.admitted.lookup id = some admission → admission.caller = connection →
      s.sys.admitted.lookup id = some admission) : t.Inv connection (s.observe connection op history) where
  online := honline
  waits index wait hlookup := by
    obtain ⟨hbefore, hgoes, hticket⟩ := hwaits index wait hlookup
    obtain ⟨route, timeoutMs, payload, hperforms, hcall, -⟩ := hinv.waits index wait hbefore
    exact ⟨route, timeoutMs, payload, performs_kept hbase.server hmoves.link hperforms hgoes, hcalls ▸ hcall, hticket⟩
  replied index id reply hlookup := (hinv.replied index id reply (hwaits index _ hlookup).1).step hbase hmoves
  pending index id request hcall hperforms := by
    rw [hcalls] at hcall
    obtain ⟨hbefore, hgoes⟩ := hinv.performs_back hbase hmoves hcall hperforms
    refine (hends index (hinv.pending index id request hcall hbefore)).resolve_right ?_
    rintro ⟨op', hop, hend⟩
    exact hgoes op' hop hend
  calls index id hcall := by
    rw [hcalls] at hcall
    obtain ⟨route, timeoutMs, payload, admittedAt, hmem, hadmitted⟩ := hinv.calls index id hcall
    exact ⟨route, timeoutMs, payload, admittedAt, dispatched_subset hmoves.link hmem,
      admitted_kept hbase hmoves hadmitted⟩
  single index index' id hcall hcall' := hinv.single index index' id (hcalls ▸ hcall) (hcalls ▸ hcall')
  all id admission hadmitted hcaller := by
    rw [hcalls]
    exact hinv.all id admission (hall id admission hadmitted hcaller) hcaller
  results index result request hmem hdispatched hrequest := by
    rcases hresults index result request hmem hdispatched hrequest with hold | hnew
    · have hbefore := dispatched_of_result hbase hmoves hold hdispatched
      exact (hinv.results index result request hold hbefore hrequest).step hbase hmoves (congrArg _ hcalls)
    · exact hnew

/-- A task gets a call. -/
theorem Inv.admit (hinv : s.Inv connection history) {index : Nat} {route : String} {timeoutMs admittedAt : Nat}
    {payload : Bytes} (hperforms : s.link.server.Performs index (.rpc route timeoutMs payload))
    (hnone : s.waits.lookup index = none) (hlink : t.link = s.link)
    (hresults : (s.observe connection op history).results = history.results)
    (hwaits : t.waits = s.waits.insert index (.waiting s.sys.rpc.nextId))
    (hcalls : (s.observe connection op history).calls = history.calls.insert index s.sys.rpc.nextId)
    (hadmitted : t.sys.admitted =
      s.sys.admitted.insert s.sys.rpc.nextId ⟨connection, route, timeoutMs, payload, admittedAt⟩)
    (htickets : ∀ id, (s.sys.tickets.lookup id).isSome ∨ id = s.sys.rpc.nextId → (t.sys.tickets.lookup id).isSome)
    (honline : t.link.server.loop.Running → connection ∈ t.sys.rpc.connections) :
    t.Inv connection (s.observe connection op history) := by
  have hfresh : ∀ index', history.calls.lookup index' ≠ some s.sys.rpc.nextId := by
    intro index' hcall
    obtain ⟨_, _, _, _, -, hbefore⟩ := hinv.calls index' _ hcall
    exact absurd rfl (hbase.recorded.admitted _ _ hbefore).1.ne
  have hidle : history.calls.lookup index = none := by
    cases hcall : history.calls.lookup index with
    | none => rfl
    | some id =>
        have hwaiting := hinv.pending index id _ hcall hperforms
        rw [hnone] at hwaiting
        cases hwaiting
  have hsame : ∀ index', index' ≠ index →
      (s.observe connection op history).calls.lookup index' = history.calls.lookup index' := by
    intro index' hne
    rw [hcalls, Table.lookup_insert_ite, if_neg hne]
  exact {
    online := honline
    waits := fun index' wait hlookup => by
      rw [hwaits, Table.lookup_insert_ite] at hlookup
      rw [hlink, hcalls, Table.lookup_insert_ite]
      split_ifs at hlookup ⊢ with heq
      · obtain rfl := Option.some.inj hlookup
        exact ⟨route, timeoutMs, payload, heq ▸ hperforms, rfl, htickets _ (Or.inr rfl)⟩
      · obtain ⟨route', timeoutMs', payload', hperforms', hcall, hticket⟩ := hinv.waits index' wait hlookup
        exact ⟨route', timeoutMs', payload', hperforms', hcall, htickets _ (Or.inl hticket)⟩
    replied := fun index' id reply hlookup => by
      rw [hwaits, Table.lookup_insert_ite] at hlookup
      split_ifs at hlookup with heq
      · cases hlookup
      · exact (hinv.replied index' id reply hlookup).step hbase hmoves
    pending := fun index' id request hcall hperforms' => by
      rw [hcalls, Table.lookup_insert_ite] at hcall
      rw [hwaits, Table.lookup_insert_ite]
      split_ifs at hcall ⊢ with heq
      · rfl
      · exact hinv.pending index' id request hcall (hlink ▸ hperforms')
    calls := fun index' id hcall => by
      rw [hcalls, Table.lookup_insert_ite] at hcall
      rw [hlink, hadmitted, Table.lookup_insert_ite]
      split_ifs at hcall with heq
      · obtain rfl := Option.some.inj hcall
        obtain ⟨task, hlookup, -, hrequest⟩ := hperforms
        rw [if_pos rfl, heq]
        exact ⟨route, timeoutMs, payload, admittedAt, hrequest ▸ hbase.traced.started index task hlookup, rfl⟩
      · obtain ⟨route', timeoutMs', payload', admittedAt', hmem, hbefore⟩ := hinv.calls index' id hcall
        rw [if_neg (hbase.recorded.admitted id _ hbefore).1.ne]
        exact ⟨route', timeoutMs', payload', admittedAt', hmem, hbefore⟩
    single := fun index₁ index₂ id hcall₁ hcall₂ => by
      rw [hcalls, Table.lookup_insert_ite] at hcall₁ hcall₂
      split_ifs at hcall₁ hcall₂ with heq₁ heq₂ heq₂
      · exact heq₁.trans heq₂.symm
      · exact absurd (hcall₁ ▸ hcall₂) (hfresh index₂)
      · exact absurd (hcall₂ ▸ hcall₁) (hfresh index₁)
      · exact hinv.single index₁ index₂ id hcall₁ hcall₂
    all := fun id admission hmem hcaller => by
      rw [hadmitted, Table.lookup_insert_ite] at hmem
      split_ifs at hmem with heq
      · refine ⟨index, ?_⟩
        rw [hcalls, Table.lookup_insert_ite, if_pos rfl, heq]
      · obtain ⟨index', hcall⟩ := hinv.all id admission hmem hcaller
        refine ⟨index', (hsame index' ?_).trans hcall⟩
        rintro rfl
        rw [hidle] at hcall
        cases hcall
    results := fun index' result request hmem hdispatched hrequest => by
      rw [hresults] at hmem
      rw [hlink] at hdispatched
      refine (hinv.results index' result request hmem hdispatched hrequest).step hbase hmoves (hsame index' ?_)
      rintro rfl
      -- A task that has not finished has no result.
      obtain ⟨task, hlookup, hunfinished, -⟩ := hperforms
      exact hbase.traced.unfinished index' task hlookup hunfinished (List.mem_map_of_mem (f := Prod.fst) hmem) }

end Step

/-! ### Every step -/

section Every

variable {undefined : ρ} {options : Client.ConnectOptions} {token : String} {connection maxCalls maxBytes : Nat}
  {s t : State ρ} {history : History} (hbase : s.Base token history) (hinv : s.Inv connection history)

include hinv

/-- A wait has its result. -/
theorem Inv.learn {index id : Nat} {reply : Rpc.Reply}
    (hwaiting : s.waits.lookup index = some (.waiting id)) (hverdict : s.Verdict history id reply) :
    ({ s with waits := s.waits.insert index (.replied id reply) }).Inv connection history := { hinv with
  waits := fun index' wait hlookup => by
    rw [Table.lookup_insert_ite] at hlookup
    split_ifs at hlookup with heq
    · obtain rfl := Option.some.inj hlookup
      exact heq ▸ hinv.waits index (.waiting id) hwaiting
    · exact hinv.waits index' wait hlookup
  replied := fun index' id' reply' hlookup => by
    rw [Table.lookup_insert_ite] at hlookup
    split_ifs at hlookup with heq
    · obtain ⟨rfl, rfl⟩ := Wait.replied.inj (Option.some.inj hlookup)
      exact hverdict
    · exact hinv.replied index' id' reply' hlookup
  pending := fun index' id' request hcall hperforms => by
    rw [Table.lookup_insert_ite]
    split_ifs
    · rfl
    · exact hinv.pending index' id' request hcall hperforms }

/-- A ticket that a task waits with is dropped by the task only. -/
theorem Inv.not_cancel {op : Rpc.Op} (haway : op.Away connection s.sys) {index : Nat} {wait : Wait}
    (hlookup : s.waits.lookup index = some wait) : op ≠ .cancel wait.id := by
  rintro rfl
  obtain ⟨_, _, _, -, hcall, -⟩ := hinv.waits index wait hlookup
  obtain ⟨_, _, _, _, -, hadmitted⟩ := hinv.calls index wait.id hcall
  exact haway _ hadmitted rfl

include hbase

/-- A step of the scheduler, the connection standing still. -/
theorem Inv.scheduler {op : Rpc.Op} {label : Op ρ} (hlink : s.linkOp connection label = none)
    (hmoves : Moves undefined options token connection maxCalls maxBytes s label t) (hsame : t.link = s.link)
    (hwaits : t.waits = s.waits) (hcalls : (s.observe connection label history).calls = history.calls)
    (hsys : t.sys = s.sys.next op) (hkept : ∀ index wait, s.waits.lookup index = some wait → op ≠ .cancel wait.id)
    (honline : s.link.server.loop.Running → op ≠ .disconnect connection)
    (hown : ∀ route timeoutMs payload expiredAt admittedAt,
      op ≠ .request connection route timeoutMs payload expiredAt admittedAt) :
    t.Inv connection (s.observe connection label history) := by
  have hresults : (s.observe connection label history).results = history.results := by
    simp only [observe, Transition.record, hlink, Option.elim_none]
  refine hinv.aside hbase hmoves hcalls ?_ ?_ ?_ ?_ ?_
  · intro index wait hlookup
    rw [hwaits] at hlookup
    obtain ⟨_, _, _, -, -, hticket⟩ := hinv.waits index wait hlookup
    refine ⟨hlookup, fun op' hop => ?_, hsys ▸ Rpc.Sys.tickets_kept (hkept index wait hlookup) hticket⟩
    rw [hlink] at hop
    cases hop
  · intro index hsome
    exact Or.inl (hwaits ▸ hsome)
  · intro index result request hmem _ _
    exact Or.inl (hresults ▸ hmem)
  · intro hrunning
    rw [hsame] at hrunning
    rw [hsys]
    exact Rpc.Sys.connections_kept hbase.sound (honline hrunning) (hinv.online hrunning)
  · rintro id admission hadmitted rfl
    rw [hsys] at hadmitted
    refine (Rpc.Sys.admitted_back hbase.sound hadmitted).resolve_right ?_
    rintro ⟨expiredAt, heq, -⟩
    exact hown _ _ _ _ _ heq

/-- A task that goes on with a loop that does not run: the loop has returned. -/
theorem returned_of_offline {index : Nat} {request : Request} (hperforms : s.link.server.Performs index request)
    (hoffline : connection ∉ s.sys.rpc.connections) : s.link.server.loop = .returned := by
  by_contra hne
  have hearly : s.link.server.loop.Early := by
    by_contra hlate
    exact hoffline (hinv.online ⟨hlate, hne⟩)
  obtain ⟨task, hlookup, -⟩ := hperforms
  rw [(hbase.server.early hearly).1] at hlookup
  cases hlookup

theorem Inv.client {op : Client.Op ρ}
    (hmoves : Moves undefined options token connection maxCalls maxBytes s (.client op) t)
    (hwaits : t.waits = s.waits) : t.Inv connection (s.observe connection (.client op) history) := by
  have hsys : t.sys = s.sys := hmoves.sys
  have hresults : (s.observe connection (.client op) history).results = history.results := List.append_nil _
  refine hinv.aside hbase hmoves rfl ?_ ?_ ?_ ?_ ?_
  · intro index wait hlookup
    rw [hwaits] at hlookup
    obtain ⟨_, _, _, -, -, hticket⟩ := hinv.waits index wait hlookup
    exact ⟨hlookup, (fun op' hop => by cases hop), hsys ▸ hticket⟩
  · intro index hsome
    exact Or.inl (hwaits ▸ hsome)
  · intro index result request hmem _ _
    exact Or.inl (hresults ▸ hmem)
  · intro hrunning
    rw [hsys]
    rcases running_back hmoves.link hrunning with hbefore | ⟨hop, -⟩
    · exact hinv.online hbefore
    · cases hop
  · intro id admission hadmitted _
    exact hsys ▸ hadmitted

theorem Inv.server {op : Connection.Op}
    (hmoves : Moves undefined options token connection maxCalls maxBytes s (.server op) t)
    (hwaits : t.waits = s.waits) (hapart : s.Apart op) :
    t.Inv connection (s.observe connection (.server op) history) := by
  have hsys : t.sys = s.sys := hmoves.sys
  refine hinv.aside hbase hmoves rfl ?_ ?_ ?_ ?_ ?_
  · intro index wait hlookup
    rw [hwaits] at hlookup
    obtain ⟨_, _, _, hperforms, -, hticket⟩ := hinv.waits index wait hlookup
    refine ⟨hlookup, fun op' hop hends => ?_, hsys ▸ hticket⟩
    obtain rfl := Link.Op.server.inj (Option.some.inj hop)
    cases op with
    | finish index' result =>
        obtain rfl : index' = index := hends
        exact hapart _ hperforms trivial
    | panic index' =>
        obtain rfl : index' = index := hends
        exact hapart _ hperforms trivial
    | abortTask index' =>
        obtain rfl : index' = index := hends
        cases hlookup.symm.trans hapart
    | _ => exact hends
  · intro index hsome
    exact Or.inl (hwaits ▸ hsome)
  · intro index result request hmem hdispatched hrequest
    rcases List.mem_append.mp hmem with hold | hnew
    · exact Or.inl hold
    · cases op with
      | finish index' result' =>
          obtain ⟨rfl, rfl⟩ := Prod.mk.inj (List.mem_singleton.mp hnew)
          obtain ⟨-, ⟨task, hlookup, hnone, -⟩, -⟩ := hmoves.link
          have hbefore : (index, request) ∈ s.link.server.dispatched := by
            refine (dispatched_back hmoves.link hdispatched).resolve_right fun heq => ?_
            exact absurd heq (hbase.server.performs_lt ⟨task, hlookup, hnone, rfl⟩).ne
          -- The frame tells the request of the task.
          obtain ⟨-, frame, hframe, hdecode⟩ := hbase.server.dispatched index request hbefore
          obtain ⟨frame', howes, hserves⟩ := hbase.server.task index task hlookup
          obtain rfl := Option.some.inj (hframe.symm.trans howes.2.1)
          obtain rfl := Except.ok.inj (hdecode.symm.trans hserves.request)
          exact absurd hrequest (hapart _ ⟨task, hlookup, hnone, rfl⟩)
      | _ => cases hnew
  · intro hrunning
    rw [hsys]
    rcases running_back hmoves.link hrunning with hbefore | ⟨hop, hgreeting⟩
    · exact hinv.online hbefore
    · obtain rfl := Link.Op.server.inj (Option.some.inj hop)
      exact absurd hgreeting hapart
  · intro id admission hadmitted _
    exact hsys ▸ hadmitted

theorem Inv.welcome (hmoves : Moves undefined options token connection maxCalls maxBytes s .welcome t)
    (hwaits : t.waits = s.waits) : t.Inv connection (s.observe connection .welcome history) := by
  have hsys : t.sys = s.sys.next (.connected connection) := hmoves.sys.2.2
  have hresults : (s.observe connection .welcome history).results = history.results := List.append_nil _
  refine hinv.aside hbase hmoves rfl ?_ ?_ ?_ ?_ ?_
  · intro index wait hlookup
    rw [hwaits] at hlookup
    obtain ⟨_, _, _, -, -, hticket⟩ := hinv.waits index wait hlookup
    refine ⟨hlookup, fun op' hop hends => ?_, hsys ▸ Rpc.Sys.tickets_kept (by simp) hticket⟩
    obtain rfl := Link.Op.server.inj (Option.some.inj hop)
    exact hends
  · intro index hsome
    exact Or.inl (hwaits ▸ hsome)
  · intro index result request hmem _ _
    exact Or.inl (hresults ▸ hmem)
  · intro _
    rw [hsys]
    exact Finset.mem_insert_self _ _
  · intro id admission hadmitted _
    rw [hsys] at hadmitted
    exact hadmitted

/-- The task of a request asks for its call. -/
theorem Inv.request {index timeoutMs expiredAt admittedAt : Nat} {route : String} {payload : Bytes}
    (hmoves : Moves undefined options token connection maxCalls maxBytes s
      (.request index route timeoutMs payload expiredAt admittedAt) t)
    (hwaits : t.waits = s.waitsAfter connection (.request index route timeoutMs payload expiredAt admittedAt))
    (hperforms : s.link.server.Performs index (.rpc route timeoutMs payload)) (hnone : s.waits.lookup index = none) :
    t.Inv connection
      (s.observe connection (.request index route timeoutMs payload expiredAt admittedAt) history) := by
  have hsys : t.sys = s.sys.next (.request connection route timeoutMs payload expiredAt admittedAt) := hmoves.sys.2.2
  have honline : s.link.server.loop.Running → connection ∈ t.sys.rpc.connections := by
    intro hrunning
    rw [hsys]
    exact Rpc.Sys.connections_kept hbase.sound (by simp) (hinv.online hrunning)
  have hkept : ∀ id, (s.sys.tickets.lookup id).isSome → (t.sys.tickets.lookup id).isSome :=
    fun id hticket => hsys ▸ Rpc.Sys.tickets_kept (by simp) hticket
  rcases request_cases hbase.sound connection route timeoutMs payload expiredAt admittedAt with
    ⟨ticket, hok, hid, hadmitted, htickets⟩ | ⟨error, herror, hadmitted, -, hreason⟩
  · have hop : s.linkOp connection (.request index route timeoutMs payload expiredAt admittedAt) = none := by
      simp only [linkOp, hok, refused, Option.map_none]
    have hlink : t.link = s.link := by
      have hadvance := hmoves.link
      rw [hop] at hadvance
      exact hadvance
    refine hinv.admit hbase hmoves hperforms hnone hlink ?_ ?_ ?_ (hsys ▸ hadmitted) ?_ ?_
    · simp only [observe, Transition.record, hop, Option.elim_none]
    · simp only [hwaits, waitsAfter, hok, hid]
    · simp only [observe, callsAfter, hok, hid]
    · rintro id (hticket | rfl)
      · exact hkept id hticket
      · rw [hsys, htickets, Table.lookup_insert_ite, if_pos rfl]
        rfl
    · intro hrunning
      exact honline (hlink ▸ hrunning)
  · have hop : s.linkOp connection (.request index route timeoutMs payload expiredAt admittedAt) =
        some (.server (.finish index (.error error))) := by
      simp only [linkOp, herror, refused, Option.map_some]
    have hcalls : (s.observe connection (.request index route timeoutMs payload expiredAt admittedAt)
        history).calls = history.calls := by
      simp only [observe, callsAfter, herror]
    have hsame : t.waits = s.waits := by
      simp only [hwaits, waitsAfter, herror]
    refine hinv.aside hbase hmoves hcalls ?_ ?_ ?_ ?_ ?_
    · intro index' wait hlookup
      rw [hsame] at hlookup
      obtain ⟨_, _, _, -, -, hticket⟩ := hinv.waits index' wait hlookup
      refine ⟨hlookup, fun op' hop' hends => ?_, hkept _ hticket⟩
      obtain rfl := Link.Op.server.inj (Option.some.inj (hop.symm.trans hop'))
      obtain rfl : index = index' := hends
      cases hlookup.symm.trans hnone
    · intro index' hsome
      exact Or.inl (hsame ▸ hsome)
    · intro index' result request hmem _ _
      simp only [observe, Transition.record, hop, Option.elim_some] at hmem
      rcases List.mem_append.mp hmem with hold | hnew
      · exact Or.inl hold
      · obtain ⟨rfl, rfl⟩ := Prod.mk.inj (List.mem_singleton.mp hnew)
        refine Or.inr (Or.inl ⟨hcalls ▸ ?_, error, rfl, hreason.imp_right fun hclosed => ⟨hclosed.1, ?_⟩⟩)
        · cases hcall : history.calls.lookup index' with
          | none => rfl
          | some id =>
              have hwaiting := hinv.pending index' id _ hcall hperforms
              rw [hnone] at hwaiting
              cases hwaiting
        · exact returned_kept hmoves.link (returned_of_offline hbase hinv hperforms hclosed.2)
    · intro hrunning
      rcases running_back hmoves.link hrunning with hbefore | ⟨hop', -⟩
      · exact honline hbefore
      · cases Link.Op.server.inj (Option.some.inj (hop.symm.trans hop'))
    · intro id admission hmem _
      rw [hsys, hadmitted] at hmem
      exact hmem

/-- A reply that was sent is vouched for, and nothing is sent to a connection that is up without one. -/
theorem closed_returned {index id : Nat} (hwaiting : s.waits.lookup index = some (.waiting id))
    (hsilent : Rpc.replies id s.sys.rpc.outbox = [])
    (hgone : ∀ call, s.sys.rpc.calls.lookup id = some call → call.response = false) :
    s.link.server.loop = .returned := by
  obtain ⟨_, _, _, hperforms, hcall, hticket⟩ := hinv.waits index _ hwaiting
  obtain ⟨_, _, _, _, -, hadmitted⟩ := hinv.calls index _ hcall
  refine returned_of_offline hbase hinv hperforms fun hconn => ?_
  obtain ⟨ticket, hticket⟩ := Option.isSome_iff_exists.mp hticket
  rcases hbase.answered.due _ ticket _ hticket hadmitted hconn with ⟨call, hlive, hresponse⟩ | hreplied
  · rw [hgone call hlive] at hresponse
    cases hresponse
  · dsimp only [Wait.id] at hreplied
    rw [hsilent] at hreplied
    cases hreplied

/-- The deadline of a ticket passes. -/
theorem Inv.lapse {index id now : Nat}
    (hmoves : Moves undefined options token connection maxCalls maxBytes s (.lapse index id now) t)
    (hwaits : t.waits = s.waits.insert index (.replied id (.error Rpc.deadlineError)))
    (hwaiting : s.waits.lookup index = some (.waiting id)) :
    t.Inv connection (s.observe connection (.lapse index id now) history) := by
  obtain ⟨-, htimely, hsys⟩ := hmoves.sys
  have hlink : t.link = s.link := hmoves.link
  have hmiddle : ({ t with waits := s.waits }).Inv connection
      (s.observe connection (.lapse index id now) history) := by
    apply hinv.scheduler (t := { t with waits := s.waits }) hbase rfl ⟨hmoves.link, hmoves.sys⟩ hlink rfl rfl hsys
    · exact fun _ _ _ => by simp
    · exact fun _ => by simp
    · exact fun _ _ _ _ _ => by simp
  have hverdict : t.Verdict (s.observe connection (.lapse index id now) history) id (.error Rpc.deadlineError) := by
    obtain ⟨_, _, _, -, hcall, hticket⟩ := hinv.waits index _ hwaiting
    obtain ⟨ticket, hticket⟩ := Option.isSome_iff_exists.mp hticket
    obtain ⟨admission, hadmitted, hdeadline⟩ := hbase.recorded.tickets _ ticket hticket
    have hlate := htimely.2
    dsimp only [Wait.id] at hticket hadmitted
    rw [hticket, Option.all_some, decide_eq_true_eq, hdeadline] at hlate
    exact Or.inl (.late (admitted_kept hbase hmoves hadmitted) (hsys ▸ hlate))
  have hlearned := hmiddle.learn hwaiting hverdict
  rw [← hwaits] at hlearned
  exact hlearned

/-- A task leaves its wait, which drops its ticket. -/
theorem Inv.leave {index id : Nat} {label : Op ρ} {op : Connection.Op}
    (hmoves : Moves undefined options token connection maxCalls maxBytes s label t)
    (hlink : s.linkOp connection label = some (.server op)) (hends : ∀ index', op.Ends index' ↔ index' = index)
    (hgreeted : op ≠ .greeted) (hsysOp : label.sysOp connection = some (.cancel id))
    (hwaits : t.waits = s.waits.erase index) (hcalls : (s.observe connection label history).calls = history.calls)
    (hleaving : ∃ wait, s.waits.lookup index = some wait ∧ wait.id = id)
    (hresults : ∀ result, (index, result) ∈ op.result → ∃ reply, result = reply.map Rpc.replyBody ∧
      s.waits.lookup index = some (.replied id reply))
    (honly : ∀ index' result, (index', result) ∈ op.result → index' = index) :
    t.Inv connection (s.observe connection label history) := by
  obtain ⟨wait, hleaving, rfl⟩ := hleaving
  obtain ⟨_, _, _, -, hcall, -⟩ := hinv.waits index wait hleaving
  have hsys : t.sys = s.sys.next (.cancel wait.id) := by
    have hadvance := hmoves.sys
    rw [hsysOp] at hadvance
    exact hadvance.2.2
  refine hinv.aside hbase hmoves hcalls ?_ ?_ ?_ ?_ ?_
  · intro index' wait' hlookup
    rw [hwaits, Table.lookup_erase_ite] at hlookup
    split_ifs at hlookup with heq
    obtain ⟨_, _, _, -, hcall', hticket⟩ := hinv.waits index' wait' hlookup
    refine ⟨hlookup, fun op' hop hend => ?_, hsys ▸ Rpc.Sys.tickets_kept (fun hsame => heq ?_) hticket⟩
    · obtain rfl := Link.Op.server.inj (Option.some.inj (hlink.symm.trans hop))
      exact heq ((hends index').mp hend)
    · rw [← Rpc.Op.cancel.inj hsame] at hcall'
      exact hinv.single index' index wait.id hcall' hcall
  · intro index' hsome
    rw [hwaits, Table.lookup_erase_ite]
    split_ifs with heq
    · exact Or.inr ⟨op, hlink, (hends index').mpr heq⟩
    · exact Or.inl hsome
  · intro index' result request hmem _ _
    simp only [observe, Transition.record, hlink, Option.elim_some, Link.ended] at hmem
    rcases List.mem_append.mp hmem with hold | hnew
    · exact Or.inl hold
    · obtain rfl := honly index' result hnew
      obtain ⟨reply, hreply, hlookup⟩ := hresults result hnew
      refine Or.inr (Or.inr ⟨wait.id, reply, hcalls ▸ hcall, hreply, ?_⟩)
      exact (hinv.replied index' wait.id reply hlookup).step hbase hmoves
  · intro hrunning
    rw [hsys]
    rcases running_back hmoves.link hrunning with hbefore | ⟨hop, -⟩
    · exact Rpc.Sys.connections_kept hbase.sound (by simp) (hinv.online hbefore)
    · exact absurd (Link.Op.server.inj (Option.some.inj (hlink.symm.trans hop))) hgreeted
  · intro id admission hadmitted _
    rw [hsys] at hadmitted
    exact hadmitted

theorem Inv.step {op : Op ρ} (hstep : (machine undefined options token connection maxCalls maxBytes).step s op t) :
    t.Inv connection (s.observe connection op history) := by
  obtain ⟨hready, hlink, hsys, hwaits⟩ := hstep
  have hmoves : Moves undefined options token connection maxCalls maxBytes s op t := ⟨hlink, hsys⟩
  have hlearn : ∀ {index id reply}, t.link = s.link → t.sys = s.sys →
      t.waits = s.waits.insert index (.replied id reply) → s.waits.lookup index = some (.waiting id) →
      s.Verdict history id reply → t.Inv connection history := by
    intro index id reply hlink hsys hwaits hwaiting hverdict
    have hlearned := hinv.learn hwaiting hverdict
    obtain ⟨link, sys, waits⟩ := t
    obtain rfl := hlink
    obtain rfl := hsys
    obtain rfl := hwaits
    exact hlearned
  cases op with
  | client op => exact hinv.client hbase hmoves hwaits
  | server op => exact hinv.server hbase hmoves hwaits hready
  | welcome => exact hinv.welcome hbase hmoves hwaits
  | request index route timeoutMs payload expiredAt admittedAt =>
      exact hinv.request hbase hmoves hwaits hready.1 hready.2
  | receive index id reply =>
      exact hlearn hlink hsys hwaits hready.1 (Or.inl (hbase.verified.replies id reply hready.2))
  | closed index id =>
      obtain ⟨hwaiting, hsilent, hgone⟩ := hready
      exact hlearn hlink hsys hwaits hwaiting (Or.inr ⟨rfl, closed_returned hbase hinv hwaiting hsilent hgone⟩)
  | lapse index id now => exact hinv.lapse hbase hmoves hwaits hready
  | drop index id reply =>
      refine hinv.leave hbase hmoves rfl (fun _ => eq_comm) (by simp) rfl hwaits rfl ⟨_, hready, rfl⟩ ?_ ?_
      · intro result hmem
        exact ⟨reply, (Prod.mk.inj (List.mem_singleton.mp hmem)).2, hready⟩
      · intro index' result hmem
        exact (Prod.mk.inj (List.mem_singleton.mp hmem)).1
  | abort index id =>
      exact hinv.leave hbase hmoves rfl (fun _ => eq_comm) (by simp) rfl hwaits rfl hready
        (fun _ hmem => absurd hmem List.not_mem_nil) fun _ _ hmem => absurd hmem List.not_mem_nil
  | disconnect =>
      apply hinv.scheduler hbase rfl hmoves hlink hwaits rfl hsys.2.2
      · exact fun _ _ _ => by simp
      · exact fun hrunning => absurd hready hrunning.2
      · exact fun _ _ _ _ _ => by simp
  | others op =>
      obtain ⟨haway, -⟩ := hready
      apply hinv.scheduler hbase rfl hmoves hlink hwaits rfl hsys.2.2
      · exact fun index wait hlookup => hinv.not_cancel haway hlookup
      · rintro - rfl
        exact haway rfl
      · rintro _ _ _ _ _ rfl
        exact haway rfl

end Every

theorem new_inv (connection maxCalls maxBytes : Nat) {link : Link.State ρ} (h : link.server = .new) :
    ({ link := link, sys := .new maxCalls maxBytes, waits := ∅ } : State ρ).Inv connection .new where
  online := by
    rintro ⟨hlate, -⟩
    rw [h] at hlate
    exact absurd (Or.inl rfl) hlate
  waits := nofun
  replied := nofun
  pending := nofun
  calls := nofun
  single := nofun
  all := nofun
  results := nofun

end State

theorem inv {undefined : ρ} {options : Client.ConnectOptions} {token : String} {connection maxCalls maxBytes : Nat}
    {s : State ρ × History} (h : (recorded undefined options token connection maxCalls maxBytes).Reachable s) :
    s.1.Inv connection s.2 := by
  refine h.invariant (P := fun s => s.1.Inv connection s.2) ?_ ?_
  · rintro ⟨s, history⟩ ⟨⟨link, ⟨checked, -, -, rfl⟩, rfl⟩, rfl⟩
    exact State.new_inv connection maxCalls maxBytes rfl
  · rintro ⟨s, history⟩ op ⟨t, history'⟩ hreach hs ⟨hstep, rfl⟩
    exact hs.step (based hreach) hstep

end VeloBus.Caller
