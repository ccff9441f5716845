import VeloBus.ClientModel
import VeloBus.RpcWorker

/-! What a client makes of the answers to REGISTER, TAKE and COMPLETE. -/

namespace VeloBus.Client

open Codec

namespace Reader

theorem bool_protocol (reader : Bytes) : Protocol (bool reader) :=
  .bind (uint_protocol _ _) fun _ => .ite (.error _) (.ok _)

theorem payload_protocol (reader : Bytes) : Protocol (payload reader) :=
  .bind (uint_protocol _ _) fun _ => .ite (.error _) (take_protocol _ _)

end Reader

/-- The answer to TAKE: a job, or that there was none in time. -/
def parseTaken (response : Bytes) : Except Failure (Option Rpc.Job) := do
  let (found, reader) ← Reader.bool response
  if found = false then
    Reader.end reader
    return none
  let (callId, reader) ← Reader.u64 reader
  let (remainingMs, reader) ← Reader.u32 reader
  let (payload, reader) ← Reader.payload reader
  Reader.end reader
  if callId = 0 ∨ 30000 < remainingMs then
    throw (.protocol "Invalid worker call ID or remaining deadline")
  return some ⟨callId, remainingMs, payload⟩

/-- The answer to REGISTER and to COMPLETE. -/
def parseEmpty (response : Bytes) : Except Failure (Option Rpc.Job) := do
  Reader.end response
  return none

def takenParser : Parser (Option Rpc.Job) where
  run := parseTaken
  protocol response := by
    apply Protocol.bind (Reader.bool_protocol _)
    intro ⟨found, reader⟩
    apply Protocol.ite
    · exact .bind (Reader.end_protocol _) fun _ => .ok _
    · exact .bind (Reader.uint_protocol _ _) fun _ => .bind (Reader.uint_protocol _ _) fun _ =>
        .bind (Reader.payload_protocol _) fun _ => .bind (Reader.end_protocol _) fun _ => .ite (.error _) (.ok _)

def emptyParser : Parser (Option Rpc.Job) where
  run := parseEmpty
  protocol _ := .bind (Reader.end_protocol _) fun _ => .ok _

/-- **A job is read as it was written.** -/
theorem parseTaken_encodeTaken {taken : Option Rpc.Job} (h : ∀ job, taken = some job → job.Legal) :
    parseTaken (Rpc.encodeTaken taken) = .ok taken := by
  cases taken with
  | none => rfl
  | some job =>
      obtain ⟨hpositive, hcallId, hremaining, hpayload⟩ := h job rfl
      have hencode : job.encode = (if true then 1 else 0) :: (Bytes.toBe 8 job.callId ++ (Bytes.toBe 4 job.remainingMs ++
          (Bytes.toBe 4 job.payload.length ++ job.payload ++ []))) := by
        simp [Rpc.Job.encode]
      have hid : Reader.u64 (Bytes.toBe 8 job.callId ++ (Bytes.toBe 4 job.remainingMs ++
          (Bytes.toBe 4 job.payload.length ++ job.payload ++ []))) = .ok (job.callId, _) := Reader.uint_toBe hcallId _
      have hleft : Reader.u32 (Bytes.toBe 4 job.remainingMs ++ (Bytes.toBe 4 job.payload.length ++ job.payload ++ [])) =
          .ok (job.remainingMs, _) := Reader.uint_toBe (hremaining.trans_lt (by decide)) _
      simp only [parseTaken, Rpc.encodeTaken, bind_eq_ok]
      refine ⟨(true, _), hencode ▸ Reader.bool_flag true _, ?_⟩
      rw [if_neg Bool.true_eq_false.mp]
      simp only [bind_eq_ok, pure_eq_ok, check_eq_ok]
      refine ⟨_, hid, _, hleft, _, Reader.payload_append hpayload [], (), rfl, ?_, rfl⟩
      omega

theorem parseEmpty_nil : parseEmpty [] = .ok none := rfl

end VeloBus.Client
