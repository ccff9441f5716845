import VeloBus.Codec
import VeloBus.Protocol

/-! Which bodies the request decoder accepts: readers of integers, strings and records accept exactly
the output of the writers, so every accepted batch has one encoding. -/

namespace VeloBus

open Codec

namespace Reader

theorem take_eq_ok {length : Nat} {r bs r' : Bytes} :
    Reader.take length r = .ok (bs, r') ↔ bs.length = length ∧ r = bs ++ r' := by
  unfold take
  split_ifs with hshort
  · constructor
    · intro h
      cases h
    · rintro ⟨rfl, rfl⟩
      rw [List.length_append] at hshort
      omega
  · rw [not_lt] at hshort
    constructor
    · intro h
      obtain ⟨rfl, rfl⟩ := Prod.mk.inj (Except.ok.inj h)
      exact ⟨List.length_take_of_le hshort, (List.take_append_drop length r).symm⟩
    · rintro ⟨rfl, rfl⟩
      rw [List.take_left', List.drop_left'] <;> rfl

theorem reads_uint (width : Nat) :
    Reads (uint width) (fun n => n < 256 ^ width) (Bytes.toBe width) := by
  intro r n r'
  simp only [uint, bind_eq_ok, pure_eq_ok, Prod.exists, take_eq_ok, Prod.mk.injEq]
  constructor
  · rintro ⟨bs, r₁, ⟨rfl, rfl⟩, rfl, rfl⟩
    exact ⟨Bytes.ofBe_lt bs, by rw [Bytes.toBe_ofBe]⟩
  · rintro ⟨hlt, rfl⟩
    exact ⟨_, _, ⟨Bytes.length_toBe width n, rfl⟩, Bytes.ofBe_toBe_of_lt hlt, rfl⟩

theorem reads_string (max : Nat) :
    Reads (string max) (fun s => s.utf8ByteSize ≤ max ∧ s.utf8ByteSize < 65536) putString := by
  intro r s r'
  simp only [string, u16, (reads_uint 2).bind_eq_ok, check_eq_ok, bind_eq_ok (x := Reader.take _ _),
    Prod.exists, take_eq_ok]
  constructor
  · rintro ⟨length, r₁, hlength, rfl, hmax, bs, r₂, ⟨rfl, rfl⟩, hfrom⟩
    cases hs : Bytes.fromUtf8 bs with
    | none =>
        rw [hs] at hfrom
        cases hfrom
    | some value =>
        rw [hs] at hfrom
        obtain ⟨rfl, rfl⟩ := Prod.mk.inj (pure_eq_ok.mp hfrom)
        obtain rfl := Bytes.fromUtf8_eq_some_iff.mp hs
        rw [Bytes.length_utf8] at hmax hlength
        exact ⟨⟨not_lt.mp hmax, hlength⟩, by rw [putString, Bytes.length_utf8, List.append_assoc]⟩
  · rintro ⟨⟨hmax, hlength⟩, rfl⟩
    refine ⟨s.utf8ByteSize, Bytes.utf8 s ++ r', hlength, ?_, not_lt.mpr hmax, Bytes.utf8 s, r',
      ⟨Bytes.length_utf8 s, rfl⟩, ?_⟩
    · rw [putString, List.append_assoc]
    · rw [Bytes.fromUtf8_utf8]
      rfl

theorem finish_eq_ok {r : Reader} : r.finish = .ok () ↔ r = [] := by
  unfold finish
  split_ifs with h
  · exact ⟨fun _ => h, fun _ => rfl⟩
  · constructor
    · intro h'
      cases h'
    · intro h'
      exact absurd h' h

end Reader

/-! ### Records -/

theorem validateTopic_size {topic : String} {wildcard : Bool}
    (h : validateTopic topic wildcard = .ok ()) : topic.utf8ByteSize ≤ 255 := by
  unfold validateTopic at h
  split_ifs at h with hstar hbad
  · rw [hstar.2]
    decide
  · omega

theorem validateTopic_nonempty {topic : String} (h : validateTopic topic false = .ok ()) :
    1 ≤ topic.utf8ByteSize := by
  rw [validateTopic, if_neg (by simp)] at h
  split_ifs at h with hbad
  omega

/-- What `decode_record` accepts. -/
structure Record.Legal (record : Record) : Prop where
  topic : validateTopic record.topic false = .ok ()
  key : record.key.utf8ByteSize ≤ 1024
  payload : record.payload.length ≤ maxPayload

theorem reads_record : Reads decodeRecord Record.Legal encodeRecord := by
  intro r record r'
  simp only [decodeRecord, Reader.u32, (Reader.reads_string 255).bind_eq_ok,
    (Reader.reads_string 1024).bind_eq_ok, (Reader.reads_uint 4).bind_eq_ok, check_eq_ok,
    bind_eq_ok (x := validateTopic _ _), bind_eq_ok (x := Reader.take _ _), pure_eq_ok, Prod.exists,
    Reader.take_eq_ok, Prod.mk.injEq]
  constructor
  · rintro ⟨topic, r₁, htopic, rfl, ⟨⟩, hvalid, key, r₂, hkey, rfl, length, r₃, -, rfl, hlength, payload,
      r₄, ⟨rfl, rfl⟩, rfl, rfl⟩
    exact ⟨⟨hvalid, hkey.1, not_lt.mp hlength⟩, by simp [encodeRecord]⟩
  · rintro ⟨hlegal, rfl⟩
    have htopic := validateTopic_size hlegal.topic
    have hkey := hlegal.key
    have hpayload : record.payload.length < 256 ^ 4 := by
      have := hlegal.payload
      rw [maxPayload] at this
      omega
    refine ⟨record.topic, _, ⟨htopic, by omega⟩, ?_, (), hlegal.topic, record.key, _, ⟨hkey, by omega⟩, rfl,
      record.payload.length, _, hpayload, rfl, not_lt.mpr hlegal.payload, record.payload, r',
      ⟨rfl, rfl⟩, rfl, rfl⟩
    simp only [encodeRecord, List.append_assoc]

theorem decodeRecordsN_eq_ok {count : Nat} {r : Reader} {records : List Record} {r' : Reader} :
    decodeRecordsN count r = .ok (records, r') ↔
      records.length = count ∧ (∀ record ∈ records, record.Legal) ∧
        r = records.flatMap encodeRecord ++ r' := by
  induction count generalizing r records r' with
  | zero =>
      simp only [decodeRecordsN, pure_eq_ok, Prod.mk.injEq, List.length_eq_zero_iff]
      constructor
      · rintro ⟨rfl, rfl⟩
        simp
      · rintro ⟨rfl, -, rfl⟩
        simp
  | succ count ih =>
      simp only [decodeRecordsN, reads_record.bind_eq_ok, bind_eq_ok, pure_eq_ok, Prod.exists, ih,
        Prod.mk.injEq]
      constructor
      · rintro ⟨record, r₁, hlegal, rfl, records, r₂, ⟨rfl, hall, rfl⟩, rfl, rfl⟩
        refine ⟨rfl, ?_, by simp⟩
        rintro record' (_ | ⟨_, hmem⟩)
        · exact hlegal
        · exact hall record' hmem
      · rintro ⟨hlength, hall, rfl⟩
        cases records with
        | nil => cases hlength
        | cons record records =>
            exact ⟨record, _, hall record (by simp), by simp, records, _,
              ⟨Nat.succ.inj hlength, fun r hr => hall r (List.mem_cons_of_mem _ hr), rfl⟩, rfl, rfl⟩

/-- What `decode_records` accepts. -/
structure LegalBatch (records : List Record) : Prop where
  nonempty : 1 ≤ records.length
  atMost : records.length ≤ maxBatch
  legal : ∀ record ∈ records, record.Legal

/-- **The batch format is canonical.** -/
theorem reads_records : Reads decodeRecords LegalBatch encodeRecords := by
  intro r records r'
  simp only [decodeRecords, Reader.u16, (Reader.reads_uint 2).bind_eq_ok, check_eq_ok,
    decodeRecordsN_eq_ok]
  constructor
  · rintro ⟨count, r₁, -, rfl, hcount, rfl, hall, rfl⟩
    exact ⟨⟨by omega, by omega, hall⟩, by rw [encodeRecords, List.append_assoc]⟩
  · rintro ⟨⟨hone, hmost, hall⟩, rfl⟩
    have hcount : records.length < 256 ^ 2 := by
      rw [maxBatch] at hmost
      omega
    exact ⟨records.length, _, hcount, by rw [encodeRecords, List.append_assoc], by omega, rfl, hall,
      rfl⟩

/-! ### Requests -/

theorem decodeRpc_timeout {r r' : Reader} {route : String} {timeoutMs : Nat} {payload : Bytes}
    (h : decodeRpc r = .ok (.rpc route timeoutMs payload, r')) : 1 ≤ timeoutMs ∧ timeoutMs ≤ 30000 := by
  simp only [decodeRpc, bind_eq_ok, check_eq_ok, pure_eq_ok, Prod.mk.injEq, Request.rpc.injEq] at h
  obtain ⟨-, -, -, -, timeout, -, htimeout, -, -, -, -, -, ⟨-, rfl, -⟩, -⟩ := h
  omega

theorem decodeBody_rpc {opcode : Nat} {r r' : Reader} {route : String} {timeoutMs : Nat}
    {payload : Bytes} (h : decodeBody opcode r = .ok (.rpc route timeoutMs payload, r')) :
    opcode = 7 := by
  unfold decodeBody at h
  split at h
  case h_7 => rfl
  all_goals
    simp only [decodeRegister, decodeComplete, bind_eq_ok, check_eq_ok, pure_eq_ok, Prod.mk.injEq,
      reduceCtorEq, false_and, and_false, exists_false] at h

/-- The timeouts of accepted requests. -/
theorem decodeRequest_timeout {opcode : Nat} {body : Bytes} {route : String} {timeoutMs : Nat}
    {payload : Bytes} (h : decodeRequest opcode body = .ok (.rpc route timeoutMs payload)) :
    1 ≤ timeoutMs ∧ timeoutMs ≤ 30000 := by
  simp only [decodeRequest, bind_eq_ok, pure_eq_ok, Prod.exists] at h
  obtain ⟨request, r', hbody, -, -, rfl⟩ := h
  obtain rfl := decodeBody_rpc hbody
  exact decodeRpc_timeout hbody

end VeloBus
