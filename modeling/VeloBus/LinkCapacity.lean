import VeloBus.LinkFlow

/-! A client within the broker's limit never trips its checks. -/

namespace VeloBus.Link

open Connection (maxInFlight)

variable {ρ : Type}

/-- The invariant of a client and its connection together. -/
structure State.Inv (token : String) (s : State ρ) : Prop where
  client : s.client.Inv
  limit : s.client.settings.maxPendingRequests ≤ maxInFlight
  server : s.server.Inv token
  orderly : s.server.Orderly
  flow : ∃ queued upstream responses lost,
    Flow (fun _ => True) (fun _ _ => True) s queued upstream responses lost

namespace State.Inv

variable {token : String} {s : State ρ}

theorem ids (h : s.Inv token) (id : Nat) :
    id ∈ s.server.ids ↔ ∃ index frame, s.server.Owes index frame ∧ frame.requestId = id :=
  h.server.ids h.orderly.duplicates id

theorem client_step (h : s.Inv token) {undefined : ρ} {op : Client.Op ρ} {client' : Client.State ρ} {rest : Bytes}
    (hreads : s.Reads op rest) (hop : s.client.Enabled op) (hnext : s.client.next undefined op = some client') :
    State.Inv token ({ s with server := { s.server with output := rest } }.deliver client') := by
  obtain ⟨client, server⟩ := s
  obtain ⟨queued, upstream, responses, lost, hflow⟩ := h.flow
  have hclient := h.client
  have hserver := h.server
  refine ⟨hclient.step hop hnext, ?_, { hserver with }, { h.orderly with }, ?_⟩
  · unfold State.deliver
    dsimp only
    rw [next_settings hclient hnext]
    exact h.limit
  · exact hflow.client_step hclient h.ids hreads hop hnext fun _ _ _ _ _ => trivial

theorem server_step (h : s.Inv token) {connection : Nat} {op : Connection.Op} (hlocal : ∀ bytes, op ≠ .receive bytes)
    (hop : s.server.Enabled connection op) : State.Inv token { s with server := s.server.next token op } := by
  obtain ⟨client, server⟩ := s
  obtain ⟨queued, upstream, responses, lost, hflow⟩ := h.flow
  have hmeets : ∀ frame, server.Meets frame op →
      frame.Legal ∧ frame.requestId ∉ server.ids ∧ server.ids.card < maxInFlight := by
    intro frame hmeets
    exact (hflow.meets h.server h.limit hop hmeets).2
  refine ⟨h.client, h.limit, h.server.step hop, h.orderly.step h.server hop hmeets, ?_⟩
  exact hflow.server_step h.server h.orderly h.limit hlocal hop (fun _ _ _ _ => trivial) fun _ _ _ _ _ => trivial

end State.Inv

/-! ### Runs -/

theorem start_flow (P : Frame → Prop) (R : Nat → Frame → Prop) (checked : Client.Settings) :
    Flow P R (⟨.new checked, .new⟩ : State ρ) [] [] [] [] where
  queue := rfl
  input := rfl
  output := rfl
  lost := Or.inl rfl
  tickets := {
    legal := nofun
    unique := List.nodup_nil
    apart := nofun
    room := Nat.zero_le _
    asks := nofun
    asked := nofun
    owed := fun _ index frame howes => by
      obtain ⟨-, hget, -⟩ := howes
      cases hget
    answered := nofun }

theorem inv {undefined : ρ} {options : Client.ConnectOptions} {token : String} {connection : Nat} {s : State ρ}
    (h : (machine undefined options token connection).Reachable s) : s.Inv token := by
  apply h.invariant
  · intro s hstart
    obtain ⟨checked, hchecked, hlimit, rfl⟩ := hstart
    exact ⟨Client.State.new_inv hchecked, hlimit, Connection.State.new_inv, Connection.State.new_orderly, [], [], [],
      [], start_flow _ _ checked⟩
  · intro s op t hreach hs hstep
    cases op with
    | client op =>
        obtain ⟨rest, client, hreads, hop, hnext, rfl⟩ := hstep
        exact hs.client_step hreads hop hnext
    | server op =>
        obtain ⟨hlocal, hop, rfl⟩ := hstep
        exact hs.server_step hlocal hop

/-- What holds of a client within the limit and of its connection at every moment. -/
structure State.Admitted (s : State ρ) : Prop where
  duplicates : s.server.duplicates = []
  refused : ∀ index error, (index, error) ∈ s.server.refused →
    error ≠ Connection.duplicateError ∧ error ≠ Connection.inFlightError
  framed : Client.decode s.server.output ≠ .invalid
  matched : ∀ frame rest, s.client.closed = false → Client.decode s.server.output = .frame frame rest →
    ∃ pending, s.client.pending.lookup (Client.frameId frame) = some pending ∧
      (Client.frameOpcode frame = pending.opcode ||| 0x80 ∨ Client.frameOpcode frame = 0xff)

/-- **A client within the limit is never refused.** Whatever the order of sends, reads, completions, writes and
receipts, the broker finds no identifier in use twice and always has a permit, and every frame the client
can read answers a request that waits. -/
theorem never_refused (undefined : ρ) (options : Client.ConnectOptions) (token : String) (connection : Nat)
    (s : State ρ) (h : (machine undefined options token connection).Reachable s) : s.Admitted := by
  have hinv := inv h
  obtain ⟨queued, upstream, responses, lost, hflow⟩ := hinv.flow
  refine ⟨hinv.orderly.duplicates, hinv.orderly.refused, hflow.framed, fun frame rest hopen hdecode => ?_⟩
  obtain ⟨pending, hlookup, hopcode, -⟩ := hflow.matched hopen hdecode
  exact ⟨pending, hlookup, hopcode⟩

/-! ### One request -/

namespace Sample

/-- The parser of the response to `ping`. -/
def pingParser : Client.Parser Unit where
  run := Client.Reader.«end»
  protocol := Client.Reader.end_protocol

def client (op : Client.Op Unit) (rest : Bytes) (s : State Unit × List Bytes) : State Unit × List Bytes :=
  (State.deliver ((s.1.client.next () op).getD s.1.client)
    { s.1 with server := { s.1.server with output := rest } }, s.2 ++ asked s.1 (.client op))

def server (op : Connection.Op) (s : State Unit × List Bytes) : State Unit × List Bytes :=
  ({ s.1 with server := s.1.server.next "" op }, s.2)

section Steps

variable {s : State Unit × List Bytes} (h : (recorded () Client.noOptions "" 7).Reachable s)

include h

theorem client_reachable (op : Client.Op Unit) (rest : Bytes) (hreads : s.1.Reads op rest)
    (hop : s.1.client.Enabled op) : (recorded () Client.noOptions "" 7).Reachable (client op rest s) := by
  obtain ⟨next, hnext⟩ := (inv h.of_observed).client.returns () op
  refine h.step (l := Op.client op) ⟨⟨rest, _, hreads, hop, ?_, rfl⟩, rfl⟩
  rw [hnext]
  rfl

theorem server_reachable (op : Connection.Op) (hlocal : ∀ bytes, op ≠ .receive bytes)
    (hop : s.1.server.Enabled 7 op) : (recorded () Client.noOptions "" 7).Reachable (server op s) :=
  h.step (l := Op.server op) ⟨⟨hlocal, hop, rfl⟩, (List.append_nil _).symm⟩

end Steps

def greeted : State Unit × List Bytes :=
  client (.data [129, 0, 0, 0, 1, 0, 1]) [] (server .greeted (server (.greet 11) (server .hello
    (client (.greet fun _ => .accepted) [] (client .connected [] (⟨.new Client.defaults, .new⟩, []))))))

/-- PING was dispatched. -/
def dispatched : State Unit × List Bytes :=
  server .accept (server .pass (server .read (client (.send (fun _ => .accepted) 5 [] pingParser) []
    (client .opened [] greeted))))

/-- PING was answered. -/
def ponged : State Unit × List Bytes :=
  server .wrote (server (.put 9) (server .take (server (.reply 1) (server (.finish 1 (.ok [])) dispatched))))

/-- The answer was read. -/
def pinged : State Unit × List Bytes := client (.data [133, 0, 0, 0, 2]) [] ponged

/-- The promises of HELLO and of the ping were resolved. -/
theorem resolved : (0, .resolved ()) ∈ greeted.1.client.settled ∧ (1, .resolved ()) ∈ pinged.1.client.settled := by
  decide

theorem greeted_reachable : (recorded () Client.noOptions "" 7).Reachable greeted := by
  have h := Transition.Reachable.of_start (T := recorded () Client.noOptions "" 7)
    (s := (⟨.new Client.defaults, .new⟩, [])) ⟨⟨Client.defaults, Client.settings_noOptions, le_rfl, rfl⟩, rfl⟩
  have h := client_reachable h .connected _ rfl ⟨rfl, rfl⟩
  have h := client_reachable h (.greet fun _ => .accepted) _ rfl rfl
  have h := server_reachable h .hello nofun ⟨rfl, _, _, rfl⟩
  have h := server_reachable h (.greet 11) nofun ⟨_, _, rfl, by decide, by decide⟩
  have h := server_reachable h .greeted nofun ⟨true, rfl⟩
  exact client_reachable h (.data [129, 0, 0, 0, 1, 0, 1]) [] rfl ⟨by decide, Nat.le_of_ble_eq_true rfl⟩

theorem ponged_reachable : (recorded () Client.noOptions "" 7).Reachable ponged := by
  have h := client_reachable greeted_reachable .opened _ rfl ⟨0, (), rfl, resolved.1⟩
  have h := client_reachable h (.send (fun _ => .accepted) 5 [] pingParser) [] rfl ⟨rfl, by decide⟩
  have h := server_reachable h .read nofun ⟨rfl, _, _, rfl⟩
  have h := server_reachable h .pass nofun ⟨⟨_, rfl⟩, rfl, nofun⟩
  have h := server_reachable h .accept nofun ⟨rfl, rfl⟩
  have h := server_reachable h (.finish 1 (.ok [])) nofun ⟨⟨2, 5, .ping, none⟩, rfl, rfl, nofun⟩
  have h := server_reachable h (.reply 1) nofun
    ⟨⟨2, 5, .ping, some ⟨1, 133, 2, [], true, false⟩⟩, ⟨1, 133, 2, [], true, false⟩, rfl, rfl, Or.inl rfl⟩
  have h := server_reachable h .take nofun ⟨rfl, rfl⟩
  have h := server_reachable h (.put 9) nofun ⟨_, _, rfl, by decide, by decide⟩
  exact server_reachable h .wrote nofun ⟨_, rfl⟩

theorem pinged_reachable : (recorded () Client.noOptions "" 7).Reachable pinged :=
  client_reachable ponged_reachable (.data [133, 0, 0, 0, 2]) [] rfl ⟨by decide, Nat.le_of_ble_eq_true rfl⟩

end Sample

/-- An operation is performed, answered and read. -/
theorem never_refused_pinged : Client.decode Sample.ponged.1.server.output = .frame [133, 0, 0, 0, 2] [] ∧
    Sample.ponged.1.Admitted ∧ (1, .resolved ()) ∈ Sample.pinged.1.client.settled ∧ Sample.pinged.1.Admitted :=
  ⟨rfl, never_refused () Client.noOptions "" 7 _ Sample.ponged_reachable.of_observed,
    Sample.resolved.2, never_refused () Client.noOptions "" 7 _ Sample.pinged_reachable.of_observed⟩

end VeloBus.Link
