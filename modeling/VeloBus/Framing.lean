import VeloBus.Codec
import VeloBus.Protocol

/-! Frames on a connection: a length, an opcode, a request identifier and a body. -/

namespace VeloBus

structure Frame where
  opcode : Nat
  requestId : Nat
  body : Bytes
deriving DecidableEq, Repr

def validLength (length : Nat) : Bool := 5 ≤ length ∧ length ≤ maxFrame

def envelope (opcode requestId : Nat) (body : Bytes) : Bytes :=
  Bytes.toBe 4 (5 + body.length) ++ Bytes.toBe 1 opcode ++ Bytes.toBe 4 requestId ++ body

/-- What the broker answers; a body too large for a frame is replaced by an error. -/
def responseFrame (opcode requestId : Nat) (body : Bytes) : Bytes :=
  if maxFrame - 5 < body.length then
    envelope 255 requestId (errorBody ⟨Code.limit, "response exceeds maximum frame size"⟩)
  else envelope opcode requestId body

/-- What the start of a stream holds. -/
inductive Incoming where
  | more
  | invalid (message : String)
  | frame (frame : Frame) (rest : Bytes)
deriving DecidableEq, Repr

/-- `read_frame` on the bytes received and not yet read. -/
def readFrame (stream : Bytes) : Incoming :=
  if stream.length < 4 then .more
  else
    let length := Bytes.ofBe (stream.take 4)
    if validLength length = false then .invalid "invalid frame length"
    else if stream.length < 4 + length then .more
    else
      let data := (stream.drop 4).take length
      let requestId := Bytes.ofBe ((data.drop 1).take 4)
      if requestId = 0 then .invalid "zero request id"
      else .frame ⟨Bytes.ofBe (data.take 1), requestId, data.drop 5⟩ (stream.drop (4 + length))

/-- What a peer can put in a frame. -/
structure Frame.Legal (frame : Frame) : Prop where
  opcode : frame.opcode < 256
  positive : 0 < frame.requestId
  requestId : frame.requestId < 2 ^ 32
  body : frame.body.length ≤ maxFrame - 5

def Frame.bytes (frame : Frame) : Bytes := envelope frame.opcode frame.requestId frame.body

theorem length_envelope (opcode requestId : Nat) (body : Bytes) :
    (envelope opcode requestId body).length = 4 + (5 + body.length) := by
  simp only [envelope, List.length_append, Bytes.length_toBe]
  omega

theorem Frame.Legal.validLength {frame : Frame} (h : frame.Legal) :
    validLength (5 + frame.body.length) = true := by
  have hbody := h.body
  rw [maxFrame] at hbody
  rw [VeloBus.validLength, decide_eq_true_iff, maxFrame]
  omega

/-- **A frame is read back, whatever follows it.** -/
theorem readFrame_bytes {frame : Frame} (h : frame.Legal) (rest : Bytes) :
    readFrame (frame.bytes ++ rest) = .frame frame rest := by
  have hlength : Bytes.ofBe (Bytes.toBe 4 (5 + frame.body.length)) = 5 + frame.body.length := by
    apply Bytes.ofBe_toBe_of_lt
    have hbody := h.body
    rw [maxFrame] at hbody
    omega
  have hopcode : Bytes.ofBe (Bytes.toBe 1 frame.opcode) = frame.opcode :=
    Bytes.ofBe_toBe_of_lt (by simpa using h.opcode)
  have hid : Bytes.ofBe (Bytes.toBe 4 frame.requestId) = frame.requestId :=
    Bytes.ofBe_toBe_of_lt h.requestId
  have hsize : (frame.bytes ++ rest).length = 4 + (5 + frame.body.length) + rest.length := by
    rw [List.length_append, Frame.bytes, length_envelope]
  have hfour : (frame.bytes ++ rest).take 4 = Bytes.toBe 4 (5 + frame.body.length) := by
    simp only [Frame.bytes, envelope, List.append_assoc]
    exact List.take_left' (Bytes.length_toBe _ _)
  have hdata : ((frame.bytes ++ rest).drop 4).take (5 + frame.body.length) =
      Bytes.toBe 1 frame.opcode ++ (Bytes.toBe 4 frame.requestId ++ frame.body) := by
    simp only [Frame.bytes, envelope, List.append_assoc]
    rw [List.drop_left' (Bytes.length_toBe _ _), ← List.append_assoc, ← List.append_assoc]
    rw [List.take_left', List.append_assoc]
    simp only [List.length_append, Bytes.length_toBe]
  have hrest : (frame.bytes ++ rest).drop (4 + (5 + frame.body.length)) = rest :=
    List.drop_left' (length_envelope _ _ _)
  have htake1 : (Bytes.toBe 1 frame.opcode ++ (Bytes.toBe 4 frame.requestId ++ frame.body)).take 1 =
      Bytes.toBe 1 frame.opcode := List.take_left' (Bytes.length_toBe _ _)
  have hdrop1 : (Bytes.toBe 1 frame.opcode ++ (Bytes.toBe 4 frame.requestId ++ frame.body)).drop 1 =
      Bytes.toBe 4 frame.requestId ++ frame.body := List.drop_left' (Bytes.length_toBe _ _)
  have htake4 : (Bytes.toBe 4 frame.requestId ++ frame.body).take 4 = Bytes.toBe 4 frame.requestId :=
    List.take_left' (Bytes.length_toBe _ _)
  have hdrop5 : (Bytes.toBe 1 frame.opcode ++ (Bytes.toBe 4 frame.requestId ++ frame.body)).drop 5 =
      frame.body := by
    rw [← List.append_assoc]
    exact List.drop_left' (by simp only [List.length_append, Bytes.length_toBe])
  have hpositive : frame.requestId ≠ 0 := h.positive.ne'
  simp only [readFrame, hsize, hfour, hlength, h.validLength, hdata, htake1, hdrop1, htake4, hdrop5,
    hopcode, hid, hpositive, hrest]
  rw [if_neg (by omega), if_neg (by simp), if_neg (by omega), if_neg (by simp)]

/-! ### Answers -/

/-- The frame the broker answers with. -/
def Frame.answer (opcode requestId : Nat) (body : Bytes) : Frame :=
  if maxFrame - 5 < body.length then
    ⟨255, requestId, errorBody ⟨Code.limit, "response exceeds maximum frame size"⟩⟩
  else ⟨opcode, requestId, body⟩

section Answer

variable {opcode requestId : Nat} {body : Bytes}

theorem Frame.answer_bytes : (Frame.answer opcode requestId body).bytes = responseFrame opcode requestId body := by
  unfold Frame.answer responseFrame
  split_ifs <;> rfl

@[simp] theorem Frame.answer_requestId : (Frame.answer opcode requestId body).requestId = requestId := by
  unfold Frame.answer
  split_ifs <;> rfl

theorem Frame.answer_opcode :
    (Frame.answer opcode requestId body).opcode = opcode ∨ (Frame.answer opcode requestId body).opcode = 255 := by
  unfold Frame.answer
  split_ifs
  · exact Or.inr rfl
  · exact Or.inl rfl

theorem Frame.answer_legal (hopcode : opcode < 256) (hpositive : 0 < requestId) (hid : requestId < 2 ^ 32) :
    (Frame.answer opcode requestId body).Legal := by
  unfold Frame.answer
  split_ifs with hlong
  · have herror : (errorBody ⟨Code.limit, "response exceeds maximum frame size"⟩).length ≤ maxFrame - 5 := by decide
    exact ⟨Nat.lt_succ_self 255, hpositive, hid, herror⟩
  · exact ⟨hopcode, hpositive, hid, not_lt.mp hlong⟩

theorem Frame.answer_of_fits (h : body.length ≤ maxFrame - 5) :
    Frame.answer opcode requestId body = ⟨opcode, requestId, body⟩ := if_neg (not_lt.mpr h)

end Answer

end VeloBus
