import VeloBus.ClientRequests

/-! What a handler's settlement becomes: the COMPLETE that says how it ended, or an exception on the way to it. -/

namespace VeloBus.Client

/-- The elements of an array that are not too many. A detached one has none. -/
def TypedArray.resultBytes (array : TypedArray) : Option Bytes :=
  match array.elements with
  | some bytes => if bytes.length ≤ maxPayload then some bytes else none
  | none => some []

/-- The bytes a handler returned, if COMPLETE can carry them. -/
def resultBytes : Outcome → Option Bytes
  | .returned (.text text) =>
    if (Bytes.utf8 text.toString).length ≤ maxPayload then some (Bytes.utf8 text.toString) else none
  | .returned (.bytes bytes) => if bytes.length ≤ maxPayload then some bytes else none
  | .returnedArray array => array.resultBytes
  | _ => none

/-- A COMPLETE says how the handler ended, and the broker reads that. -/
def Tells (outcome : Outcome) (status : Nat) (output : Bytes) : Prop :=
  (match resultBytes outcome with
    | some bytes => status = 0 ∧ output = bytes
    | none => status = 1) ∧
  ∀ callId, decodeRequest 9 (complete callId status output) = .ok (.complete callId.toNat (status = 1) output)

/-- There is such a COMPLETE, and the slot gets as far as sending it. -/
def Outcome.Completed (outcome : Outcome) : Prop :=
  ∃ status payload output, settle outcome = .ok (status, payload) ∧ payload.written = .ok output ∧
    Tells outcome status output

/-- An array with as many elements as its `length` says, or with too many by both counts; no thrown value but one that
becomes text. -/
def Outcome.Printable : Outcome → Prop
  | returned _ => True
  | returnedArray array =>
    array.Whole ∨ maxPayload < array.length ∧ ∃ bytes, array.elements = some bytes ∧ maxPayload < bytes.length
  | threw error => error.Printable

theorem resultBytes_returned (value : Value) :
    resultBytes (.returned value) = (payloadBytes value).toOption := by
  cases value with
  | text text =>
      unfold resultBytes payloadBytes
      simp only [pure_bind]
      by_cases hfits : (Bytes.utf8 text.toString).length ≤ maxPayload
      · rw [if_pos hfits, if_neg (not_lt.mpr hfits)]
        rfl
      · rw [if_neg hfits, if_pos (not_le.mp hfits)]
        rfl
  | bytes bytes =>
      unfold resultBytes payloadBytes
      simp only [pure_bind]
      by_cases hfits : bytes.length ≤ maxPayload
      · rw [if_pos hfits, if_neg (not_lt.mpr hfits)]
        rfl
      · rw [if_neg hfits, if_pos (not_le.mp hfits)]
        rfl
  | _ => rfl

theorem TypedArray.resultBytes_some {array : TypedArray} {bytes : Bytes} (h : array.elements = some bytes) :
    array.resultBytes = if bytes.length ≤ maxPayload then some bytes else none := by
  unfold resultBytes
  rw [h]

theorem Tells.flag {outcome : Outcome} {status : Nat} {output : Bytes} (h : Tells outcome status output) :
    (decide (status = 1)).toNat = status := by
  have hstatus := h.1
  split at hstatus
  · rw [hstatus.1]
    rfl
  · rw [hstatus]
    rfl

/-- What failed is told with status 1. -/
theorem tells_failed {outcome : Outcome} {output : Bytes} (hresult : resultBytes outcome = none)
    (hlegal : output.length ≤ 4096 ∧ (Bytes.fromUtf8 output).isSome) : Tells outcome 1 output := by
  refine ⟨by rw [hresult], fun callId => decodeRequest_eq_ok.mpr ⟨⟨callId.toNat_lt, ?_, fun _ => hlegal⟩, rfl, rfl⟩⟩
  exact hlegal.1.trans (by decide)

theorem tells_returned {outcome : Outcome} {output : Bytes} (hresult : resultBytes outcome = some output)
    (hfits : output.length ≤ maxPayload) : Tells outcome 0 output := by
  refine ⟨by rw [hresult]; exact ⟨rfl, rfl⟩, fun callId => decodeRequest_eq_ok.mpr
    ⟨⟨callId.toNat_lt, hfits, ?_⟩, rfl, rfl⟩⟩
  exact fun hfailed => absurd hfailed (by decide)

theorem completed_of_failure {outcome : Outcome} {failure : Failure} (houtput : outcome.output = .error failure.thrown)
    (hresult : resultBytes outcome = none) : outcome.Completed := by
  refine ⟨1, .of (handlerErrorBytes (Text.ofString failure.message)), _, ?_, TypedArray.written_of _,
    tells_failed hresult (handlerErrorBytes_legal _)⟩
  unfold settle
  rw [houtput]
  rfl

theorem completed_of_output {outcome : Outcome} {output : TypedArray} {bytes : Bytes}
    (houtput : outcome.output = .ok output)
    (hwritten : output.written = .ok bytes) (hresult : resultBytes outcome = some bytes) : outcome.Completed := by
  refine ⟨0, output, bytes, ?_, hwritten, tells_returned hresult ?_⟩
  · unfold settle
    rw [houtput]
  · rw [TypedArray.length_written hwritten]
    exact Outcome.output_length houtput

theorem completed_of_printable {outcome : Outcome} (h : outcome.Printable) : outcome.Completed := by
  cases outcome with
  | returned value =>
      have hresult := resultBytes_returned value
      cases hvalue : payloadBytes value with
      | ok bytes =>
          rw [hvalue] at hresult
          apply completed_of_output _ (TypedArray.written_of bytes) hresult
          simp only [Outcome.output, hvalue]
      | error failure =>
          rw [hvalue] at hresult
          apply completed_of_failure _ hresult
          · exact failure
          · simp only [Outcome.output, hvalue]
  | returnedArray array =>
      have hlong : maxPayload < array.length → (∃ bytes, array.elements = some bytes ∧ maxPayload < bytes.length) →
          Outcome.Completed (.returnedArray array) := by
        rintro hlong ⟨bytes, hbytes, hmost⟩
        apply completed_of_failure
        · simp only [Outcome.output, TypedArray.payloadBytes, if_pos hlong]
          rfl
        · exact (TypedArray.resultBytes_some hbytes).trans (if_neg (not_le.mpr hmost))
      rcases h with ⟨bytes, hbytes, hlength⟩ | ⟨hmost, hmany⟩
      · by_cases hfits : array.length ≤ maxPayload
        · have houtput : Outcome.output (.returnedArray array) = .ok array := by
            simp only [Outcome.output, TypedArray.payloadBytes, if_neg (not_lt.mpr hfits)]
          apply completed_of_output houtput (TypedArray.written_whole hbytes hlength)
          exact (TypedArray.resultBytes_some hbytes).trans (if_pos (hlength ▸ hfits))
        · rw [not_le] at hfits
          exact hlong hfits ⟨bytes, hbytes, hlength ▸ hfits⟩
      · exact hlong hmost hmany
  | threw error =>
      obtain ⟨hlegible, bytes, hbytes⟩ := (handlerErrorBytes_printable error).mp h
      refine ⟨1, .of bytes, bytes, ?_, TypedArray.written_of bytes,
        tells_failed rfl ((handlerErrorBytes_legal_iff hbytes).mpr hlegible)⟩
      simp only [settle, Outcome.output, hbytes]
      rfl

end VeloBus.Client
