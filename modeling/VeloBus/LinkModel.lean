import VeloBus.ClientCorrelation
import VeloBus.ConnectionMultiplexing

/-! A client and its connection at the broker, with the bytes between them. What one socket takes arrives at
the other in order; how much has arrived is settled when it is read, and either side may give up at any
time. -/

namespace VeloBus.Client

/-- What the start of a stream holds for a client. -/
inductive Decoded where
  | more
  | invalid
  | frame (frame rest : Bytes)
deriving DecidableEq, Repr

/-- The frame decoder on the bytes received and not yet decoded. -/
def decode (stream : Bytes) : Decoded :=
  if stream.length < 4 then .more
  else
    let length := Bytes.ofBe (stream.take 4)
    if length < 5 ∨ maxFrame < length then .invalid
    else if stream.length < 4 + length then .more
    else .frame ((stream.drop 4).take length) (stream.drop (4 + length))

/-! ### The start of a stream -/

theorem decode_append {stream frame rest : Bytes} (h : decode stream = .frame frame rest) (more : Bytes) :
    decode (stream ++ more) = .frame frame (rest ++ more) := by
  unfold decode at h ⊢
  split_ifs at h with hprefix
  dsimp only at h
  split_ifs at h with hlength hshort
  obtain ⟨rfl, rfl⟩ := Decoded.frame.inj h
  rw [not_lt] at hprefix hshort
  have hfour : (stream ++ more).take 4 = stream.take 4 := List.take_append_of_le_length hprefix
  rw [List.length_append, if_neg (by omega), hfour]
  dsimp only
  rw [if_neg hlength, if_neg (by omega), List.drop_append_of_le_length hprefix, List.take_append_of_le_length,
    List.drop_append_of_le_length hshort]
  rw [List.length_drop]
  omega

theorem decode_invalid_append {stream : Bytes} (h : decode stream = .invalid) (more : Bytes) :
    decode (stream ++ more) = .invalid := by
  unfold decode at h ⊢
  split_ifs at h with hprefix
  dsimp only at h
  split_ifs at h with hlength
  rw [not_lt] at hprefix
  have hfour : (stream ++ more).take 4 = stream.take 4 := List.take_append_of_le_length hprefix
  rw [List.length_append, if_neg (by omega), hfour]
  dsimp only
  rw [if_pos hlength]

/-- What follows the length of a frame. -/
theorem drop_bytes (frame : Frame) :
    frame.bytes.drop 4 = Bytes.toBe 1 frame.opcode ++ (Bytes.toBe 4 frame.requestId ++ frame.body) := by
  unfold Frame.bytes VeloBus.envelope
  rw [List.append_assoc, List.append_assoc]
  exact List.drop_left' (Bytes.length_toBe _ _)

theorem decode_bytes {frame : Frame} (h : frame.Legal) (rest : Bytes) :
    decode (frame.bytes ++ rest) = .frame (frame.bytes.drop 4) rest := by
  have hbody := h.body
  have hlength : frame.bytes.length = 4 + (5 + frame.body.length) := length_envelope _ _ _
  have hfour : (frame.bytes ++ rest).take 4 = Bytes.toBe 4 (5 + frame.body.length) := by
    unfold Frame.bytes VeloBus.envelope
    rw [List.append_assoc, List.append_assoc, List.append_assoc]
    exact List.take_left' (Bytes.length_toBe _ _)
  have hdata : ((frame.bytes ++ rest).drop 4).take (5 + frame.body.length) = frame.bytes.drop 4 := by
    rw [List.drop_append_of_le_length (by omega)]
    apply List.take_left'
    rw [List.length_drop]
    omega
  have hrest : (frame.bytes ++ rest).drop (4 + (5 + frame.body.length)) = rest := List.drop_left' hlength
  unfold VeloBus.maxFrame at hbody
  unfold decode
  rw [hfour, Bytes.ofBe_toBe_of_lt (by omega)]
  dsimp only
  rw [hdata, hrest, List.length_append, hlength, if_neg (by omega), if_neg (by unfold maxFrame; omega),
    if_neg (by omega)]

theorem frameOpcode_bytes {frame : Frame} (h : frame.Legal) : frameOpcode (frame.bytes.drop 4) = frame.opcode := by
  unfold frameOpcode
  rw [drop_bytes, List.take_left' (Bytes.length_toBe _ _)]
  exact Bytes.ofBe_toBe_of_lt (h.opcode.trans_eq rfl)

theorem frameId_bytes {frame : Frame} (h : frame.Legal) : frameId (frame.bytes.drop 4) = frame.requestId := by
  unfold frameId
  rw [drop_bytes, List.drop_left' (Bytes.length_toBe _ _), List.take_left' (Bytes.length_toBe _ _)]
  exact Bytes.ofBe_toBe_of_lt h.requestId

theorem frameBody_bytes (frame : Frame) : (frame.bytes.drop 4).drop 5 = frame.body := by
  rw [drop_bytes, ← List.append_assoc]
  apply List.drop_left'
  rw [List.length_append, Bytes.length_toBe, Bytes.length_toBe]

end VeloBus.Client

namespace VeloBus.Link

/-! ### Streams of frames -/

theorem decode_stream {output lost : Bytes} {frames : List Frame} (hlegal : ∀ frame ∈ frames, frame.Legal)
    (h : output ++ lost = frames.flatMap Frame.bytes) :
    Client.decode output ≠ .invalid ∧ ∀ data rest, Client.decode output = .frame data rest →
      ∃ frame later, frames = frame :: later ∧ data = frame.bytes.drop 4 ∧
        rest ++ lost = later.flatMap Frame.bytes := by
  cases frames with
  | nil =>
      rw [(List.append_eq_nil_iff.mp h).1]
      exact ⟨nofun, nofun⟩
  | cons frame later =>
      rw [List.flatMap_cons] at h
      have hdecode := Client.decode_bytes (hlegal frame List.mem_cons_self) (later.flatMap Frame.bytes)
      rw [← h] at hdecode
      constructor
      · intro hinvalid
        rw [Client.decode_invalid_append hinvalid] at hdecode
        cases hdecode
      · intro data rest hdata
        rw [Client.decode_append hdata] at hdecode
        obtain ⟨rfl, hrest⟩ := Client.Decoded.frame.inj hdecode
        exact ⟨frame, later, rfl, rfl, hrest⟩

theorem readFrame_stream {frames : List Frame} (hlegal : ∀ frame ∈ frames, frame.Legal) {frame : Frame}
    {rest : Bytes} (h : readFrame (frames.flatMap Frame.bytes) = .frame frame rest) :
    ∃ later, frames = frame :: later ∧ rest = later.flatMap Frame.bytes := by
  cases frames with
  | nil => cases h
  | cons first later =>
      rw [List.flatMap_cons, readFrame_bytes (hlegal first List.mem_cons_self)] at h
      obtain ⟨rfl, rfl⟩ := Incoming.frame.inj h
      exact ⟨later, rfl, rfl⟩

theorem exists_envelope {opcode id : Nat} {body frame : Bytes} (hopcode : opcode < 256) (hlow : 1 ≤ id)
    (hhigh : id ≤ 0xffffffff) (h : Client.envelope opcode id body = .ok frame) :
    ∃ request : Frame, request.Legal ∧ request.bytes = frame ∧ request = ⟨opcode, id, body⟩ := by
  unfold Client.envelope at h
  split_ifs at h with hlong
  rw [← Except.ok.inj h]
  have hbody : body.length ≤ maxFrame - 5 := by
    unfold Client.maxFrame at hlong
    unfold maxFrame
    omega
  refine ⟨⟨opcode, id, body⟩, ⟨hopcode, hlow, Nat.lt_succ_of_le hhigh, hbody⟩, ?_, rfl⟩
  unfold Frame.bytes envelope
  rw [Nat.add_comm 5]

/-! ### The two ends -/

structure State (ρ : Type) where
  client : Client.State ρ
  server : Connection.State

inductive Op (ρ : Type) where
  | client (op : Client.Op ρ)
  | server (op : Connection.Op)

variable {ρ : Type}

/-- The broker receives the frames that the client's socket took in one step. -/
def State.deliver (client : Client.State ρ) (s : State ρ) : State ρ where
  client := client
  server := { s.server with
    input := s.server.input ++ (client.written.drop s.client.written.length).flatten }

/-- A step of the client leaves `rest` of the broker's bytes. -/
def State.Reads (s : State ρ) : Client.Op ρ → Bytes → Prop
  | .data frame, rest => Client.decode s.server.output = .frame frame rest
  | .misframed, rest => Client.decode s.server.output = .invalid ∧ rest = s.server.output
  | _, rest => rest = s.server.output

/-- A client within the broker's limit, at a broker with some token. -/
def machine (undefined : ρ) (options : Client.ConnectOptions) (token : String) (connection : Nat) :
    Transition (State ρ) (Op ρ) where
  start s := ∃ checked, Client.settings options = .ok checked ∧
    checked.maxPendingRequests ≤ Connection.maxInFlight ∧ s = ⟨.new checked, .new⟩
  step s op t :=
    match op with
    | .client op => ∃ rest client, s.Reads op rest ∧ s.client.Enabled op ∧
      s.client.next undefined op = some client ∧
      t = { s with server := { s.server with output := rest } }.deliver client
    | .server op => (∀ bytes, op ≠ .receive bytes) ∧ s.server.Enabled connection op ∧
      t = { s with server := s.server.next token op }

/-- The bodies of the requests that a step asks for. -/
def asked (s : State ρ) : Op ρ → List Bytes
  | .client (.greet _) => [s.client.settings.hello]
  | .client (.send _ _ body _) => [body]
  | _ => []

/-- A client and its connection, with the bodies of the requests that were asked for. -/
def recorded (undefined : ρ) (options : Client.ConnectOptions) (token : String) (connection : Nat) :
    Transition (State ρ × List Bytes) (Op ρ) :=
  (machine undefined options token connection).observed [] fun s op bodies => bodies ++ asked s op

end VeloBus.Link
