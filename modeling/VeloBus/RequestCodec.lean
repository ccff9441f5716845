import VeloBus.ProtocolCodec

/-! Requests have one encoding each: on every opcode the request decoder accepts exactly the encodings
of the legal requests of that opcode. -/

namespace VeloBus

open Codec

namespace Request

def opcode : Request → Nat
  | hello _ _ => 1
  | publish _ => 2
  | fetch _ => 3
  | stats => 4
  | ping => 5
  | register _ _ _ => 6
  | rpc _ _ _ => 7
  | take _ => 8
  | complete _ _ _ => 9

/-- The body that stands for the request. -/
def body : Request → Bytes
  | hello version token => Bytes.toBe 2 version ++ putString token
  | publish records => encodeRecords records
  | fetch request => putString request.topic ++ Bytes.toBe 8 request.after ++
      Bytes.toBe 2 request.limit ++ Bytes.toBe 4 request.maxBytes ++ Bytes.toBe 1 request.latest.toNat
  | stats => []
  | ping => []
  | register route concurrency queueLimit =>
      putString route ++ Bytes.toBe 2 concurrency ++ Bytes.toBe 2 queueLimit
  | rpc route timeoutMs payload =>
      putString route ++ Bytes.toBe 4 timeoutMs ++ Bytes.toBe 4 payload.length ++ payload
  | take waitMs => Bytes.toBe 4 waitMs
  | complete callId failed payload => Bytes.toBe 8 callId ++ Bytes.toBe 1 failed.toNat ++
      Bytes.toBe 4 payload.length ++ payload

/-- What the decoder accepts. -/
def Legal : Request → Prop
  | hello version token => version < 2 ^ 16 ∧ token.utf8ByteSize < 2 ^ 16
  | publish records => LegalBatch records
  | fetch request => validateTopic request.topic true = .ok () ∧ request.after < 2 ^ 64 ∧
      (1 ≤ request.limit ∧ request.limit ≤ maxBatch) ∧
      1 ≤ request.maxBytes ∧ request.maxBytes ≤ maxFetchBytes
  | stats => True
  | ping => True
  | register route concurrency queueLimit => validateTopic route false = .ok () ∧
      (1 ≤ concurrency ∧ concurrency ≤ 256) ∧ 1 ≤ queueLimit ∧ queueLimit ≤ 4096
  | rpc route timeoutMs payload => validateTopic route false = .ok () ∧
      (1 ≤ timeoutMs ∧ timeoutMs ≤ 30000) ∧ payload.length ≤ maxPayload
  | take waitMs => 1 ≤ waitMs ∧ waitMs ≤ 1000
  | complete callId failed payload => callId < 2 ^ 64 ∧ payload.length ≤ maxPayload ∧
      (failed = true → payload.length ≤ 4096 ∧ (Bytes.fromUtf8 payload).isSome)

end Request

/-- A legal request of the opcode. -/
def Request.LegalOn (opcode : Nat) (request : Request) : Prop := request.Legal ∧ request.opcode = opcode

/-! ### The parts of a body -/

theorem decide_eq_one {n : Nat} (h : ¬1 < n) : (decide (n = 1)).toNat = n := by
  rcases Nat.le_one_iff_eq_zero_or_eq_one.mp (not_lt.mp h) with rfl | rfl <;> rfl

theorem decide_toNat (b : Bool) : decide (b.toNat = 1) = b := by cases b <;> rfl

theorem reads_fetch :
    Reads decodeFetch (fun request => (Request.fetch request).Legal)
      fun request => (Request.fetch request).body := by
  intro r request r'
  simp only [decodeFetch, Reader.u8, Reader.u16, Reader.u32, Reader.u64,
    (Reader.reads_string 255).bind_eq_ok, (Reader.reads_uint _).bind_eq_ok, check_eq_ok,
    bind_eq_ok (x := validateTopic _ _), pure_eq_ok, Prod.mk.injEq]
  constructor
  · rintro ⟨topic, r₁, -, rfl, ⟨⟩, htopic, after, r₂, hafter, rfl, limit, r₃, -, rfl, maxBytes, r₄, -, rfl,
      mode, r₅, -, rfl, hbounds, hmode, rfl, rfl⟩
    have hlimit : 1 ≤ limit ∧ limit ≤ maxBatch := by omega
    have hbytes : 1 ≤ maxBytes ∧ maxBytes ≤ maxFetchBytes := by omega
    refine ⟨⟨htopic, hafter, hlimit, hbytes⟩, ?_⟩
    simp only [Request.body, decide_eq_one hmode, List.append_assoc]
  · cases request with
    | mk topic after limit maxBytes latest =>
        rintro ⟨⟨htopic, hafter, hlimit, hbytes⟩, rfl⟩
        have hsize : topic.utf8ByteSize ≤ 255 := validateTopic_size htopic
        have hlatest := latest.toNat_le
        have hlimit' : limit < 256 ^ 2 := hlimit.2.trans_lt (by decide)
        have hbytes' : maxBytes < 256 ^ 4 := hbytes.2.trans_lt (by decide)
        refine ⟨topic, _, ⟨hsize, by omega⟩, by simp only [Request.body, List.append_assoc], (), htopic, after, _,
          hafter, rfl, limit, _, hlimit', rfl, maxBytes, _, hbytes', rfl, latest.toNat, _, by omega, rfl, ?_,
          by omega, by rw [decide_toNat], rfl⟩
        dsimp only at hlimit hbytes
        omega

theorem reads_register : Reads decodeRegister (Request.LegalOn 6) Request.body := by
  intro r request r'
  simp only [decodeRegister, Reader.u16, (Reader.reads_string 255).bind_eq_ok,
    (Reader.reads_uint _).bind_eq_ok, check_eq_ok, bind_eq_ok (x := validateTopic _ _), pure_eq_ok,
    Prod.mk.injEq]
  constructor
  · rintro ⟨route, r₁, -, rfl, ⟨⟩, hroute, concurrency, r₂, -, rfl, queueLimit, r₃, -, rfl, hbounds, rfl, rfl⟩
    exact ⟨⟨⟨hroute, by omega, by omega⟩, rfl⟩, by simp only [Request.body, List.append_assoc]⟩
  · cases request with
    | register route concurrency queueLimit =>
        rintro ⟨⟨⟨hroute, hconcurrency, hqueue⟩, -⟩, rfl⟩
        have hsize := validateTopic_size hroute
        exact ⟨route, _, ⟨hsize, by omega⟩, by simp only [Request.body, List.append_assoc], (), hroute,
          concurrency, _, by omega, rfl, queueLimit, _, by omega, rfl, by omega, rfl, rfl⟩
    | _ =>
        rintro ⟨⟨-, hopcode⟩, -⟩
        cases hopcode

theorem reads_rpc : Reads decodeRpc (Request.LegalOn 7) Request.body := by
  intro r request r'
  simp only [decodeRpc, Reader.u32, (Reader.reads_string 255).bind_eq_ok,
    (Reader.reads_uint _).bind_eq_ok, check_eq_ok, bind_eq_ok (x := validateTopic _ _),
    bind_eq_ok (x := Reader.take _ _), Reader.take_eq_ok, Prod.exists, pure_eq_ok, Prod.mk.injEq]
  constructor
  · rintro ⟨route, r₁, -, rfl, ⟨⟩, hroute, timeoutMs, r₂, -, rfl, htimeout, length, r₃, -, rfl, hlength, payload,
      r₄, ⟨rfl, rfl⟩, rfl, rfl⟩
    exact ⟨⟨⟨hroute, by omega, by omega⟩, rfl⟩, by simp only [Request.body, List.append_assoc]⟩
  · cases request with
    | rpc route timeoutMs payload =>
        rintro ⟨⟨⟨hroute, htimeout, hpayload⟩, -⟩, rfl⟩
        have hsize := validateTopic_size hroute
        have hfits : payload.length < 256 ^ 4 := hpayload.trans_lt (by decide)
        exact ⟨route, _, ⟨hsize, by omega⟩, by simp only [Request.body, List.append_assoc], (), hroute, timeoutMs,
          _, by omega, rfl, by omega, payload.length, _, hfits, rfl, by omega, payload, r', ⟨rfl, rfl⟩, rfl, rfl⟩
    | _ =>
        rintro ⟨⟨-, hopcode⟩, -⟩
        cases hopcode

theorem reads_complete : Reads decodeComplete (Request.LegalOn 9) Request.body := by
  intro r request r'
  simp only [decodeComplete, Reader.u8, Reader.u32, Reader.u64, (Reader.reads_uint _).bind_eq_ok, check_eq_ok,
    bind_eq_ok (x := Reader.take _ _), Reader.take_eq_ok, Prod.exists, pure_eq_ok, Prod.mk.injEq]
  constructor
  · rintro ⟨callId, r₁, hid, rfl, status, r₂, -, rfl, hstatus, length, r₃, -, rfl, hlength, payload, r₄,
      ⟨rfl, rfl⟩, hutf8, rfl, rfl⟩
    refine ⟨⟨⟨hid, by omega, ?_⟩, rfl⟩, by simp only [Request.body, decide_eq_one hstatus, List.append_assoc]⟩
    intro hfailed
    have hone : status = 1 := of_decide_eq_true hfailed
    exact ⟨by omega, Option.isSome_iff_ne_none.mpr fun hnone => hutf8 ⟨hone, hnone⟩⟩
  · cases request with
    | complete callId failed payload =>
        rintro ⟨⟨⟨hid, hpayload, hfailed⟩, -⟩, rfl⟩
        have hfits : payload.length < 256 ^ 4 := hpayload.trans_lt (by decide)
        have hflag := failed.toNat_le
        have hone : failed.toNat = 1 → failed = true := by cases failed <;> simp
        refine ⟨callId, _, hid, by simp only [Request.body, List.append_assoc], failed.toNat, _, by omega, rfl,
          by omega, payload.length, _, hfits, rfl, ?_, payload, r', ⟨rfl, rfl⟩, ?_, by rw [decide_toNat], rfl⟩
        · rintro (hlong | ⟨hstatus, hlong⟩)
          · omega
          · exact absurd (hfailed (hone hstatus)).1 (by omega)
        · rintro ⟨hstatus, hnone⟩
          exact Option.isSome_iff_ne_none.mp (hfailed (hone hstatus)).2 hnone
    | _ =>
        rintro ⟨⟨-, hopcode⟩, -⟩
        cases hopcode

/-! ### Bodies -/

theorem reads_body (opcode : Nat) : Reads (decodeBody opcode) (Request.LegalOn opcode) Request.body := by
  intro r request r'
  unfold decodeBody
  split
  · simp only [Reader.u16, (Reader.reads_uint _).bind_eq_ok, (Reader.reads_string _).bind_eq_ok, pure_eq_ok,
      Prod.mk.injEq]
    constructor
    · rintro ⟨version, r₁, hversion, rfl, token, r₂, htoken, rfl, rfl, rfl⟩
      exact ⟨⟨⟨hversion, htoken.2⟩, rfl⟩, by simp only [Request.body, List.append_assoc]⟩
    · cases request with
      | hello version token =>
          rintro ⟨⟨⟨hversion, htoken⟩, -⟩, rfl⟩
          exact ⟨version, _, hversion, by simp only [Request.body, List.append_assoc], token, _,
            ⟨by omega, htoken⟩, rfl, rfl, rfl⟩
      | _ =>
          rintro ⟨⟨-, hopcode⟩, -⟩
          cases hopcode
  · simp only [reads_records.bind_eq_ok, pure_eq_ok, Prod.mk.injEq]
    constructor
    · rintro ⟨records, r₁, hlegal, rfl, rfl, rfl⟩
      exact ⟨⟨hlegal, rfl⟩, rfl⟩
    · cases request with
      | publish records =>
          rintro ⟨⟨hlegal, -⟩, rfl⟩
          exact ⟨records, _, hlegal, rfl, rfl, rfl⟩
      | _ =>
          rintro ⟨⟨-, hopcode⟩, -⟩
          cases hopcode
  · simp only [reads_fetch.bind_eq_ok, pure_eq_ok, Prod.mk.injEq]
    constructor
    · rintro ⟨fetch, r₁, hlegal, rfl, rfl, rfl⟩
      exact ⟨⟨hlegal, rfl⟩, rfl⟩
    · cases request with
      | fetch fetch =>
          rintro ⟨⟨hlegal, -⟩, rfl⟩
          exact ⟨fetch, _, hlegal, rfl, rfl, rfl⟩
      | _ =>
          rintro ⟨⟨-, hopcode⟩, -⟩
          cases hopcode
  · rw [pure_eq_ok, Prod.mk.injEq]
    constructor
    · rintro ⟨rfl, rfl⟩
      exact ⟨⟨trivial, rfl⟩, rfl⟩
    · cases request with
      | stats =>
          rintro ⟨-, rfl⟩
          exact ⟨rfl, rfl⟩
      | _ =>
          rintro ⟨⟨-, hopcode⟩, -⟩
          cases hopcode
  · rw [pure_eq_ok, Prod.mk.injEq]
    constructor
    · rintro ⟨rfl, rfl⟩
      exact ⟨⟨trivial, rfl⟩, rfl⟩
    · cases request with
      | ping =>
          rintro ⟨-, rfl⟩
          exact ⟨rfl, rfl⟩
      | _ =>
          rintro ⟨⟨-, hopcode⟩, -⟩
          cases hopcode
  · exact reads_register r request r'
  · exact reads_rpc r request r'
  · simp only [Reader.u32, (Reader.reads_uint _).bind_eq_ok, check_eq_ok, pure_eq_ok, Prod.mk.injEq]
    constructor
    · rintro ⟨waitMs, r₁, -, rfl, hwait, rfl, rfl⟩
      exact ⟨⟨⟨by omega, by omega⟩, rfl⟩, rfl⟩
    · cases request with
      | take waitMs =>
          rintro ⟨⟨⟨hleast, hmost⟩, -⟩, rfl⟩
          exact ⟨waitMs, _, by omega, rfl, by omega, rfl, rfl⟩
      | _ =>
          rintro ⟨⟨-, hopcode⟩, -⟩
          cases hopcode
  · exact reads_complete r request r'
  · constructor
    · intro h
      cases h
    · rintro ⟨⟨-, rfl⟩, -⟩
      cases request <;> contradiction

/-- **The request format is canonical.** -/
theorem decodeRequest_eq_ok {opcode : Nat} {body : Bytes} {request : Request} :
    decodeRequest opcode body = .ok request ↔
      request.Legal ∧ request.opcode = opcode ∧ body = request.body := by
  simp only [decodeRequest, (reads_body opcode).bind_eq_ok, bind_eq_ok, pure_eq_ok]
  constructor
  · rintro ⟨request, r', ⟨hlegal, hopcode⟩, rfl, ⟨⟩, hend, rfl⟩
    obtain rfl := Reader.finish_eq_ok.mp hend
    exact ⟨hlegal, hopcode, List.append_nil _⟩
  · rintro ⟨hlegal, hopcode, rfl⟩
    exact ⟨request, [], ⟨hlegal, hopcode⟩, (List.append_nil _).symm, (), rfl, rfl⟩

/-- No accepted body starts another one: a longer body does not decode to more, nor a shorter one to less. -/
theorem decodeRequest_prefixFree {opcode : Nat} {short rest : Bytes} {request request' : Request}
    (hshort : decodeRequest opcode short = .ok request)
    (hlong : decodeRequest opcode (short ++ rest) = .ok request') : rest = [] := by
  obtain ⟨hlegal, hopcode, hbody⟩ := decodeRequest_eq_ok.mp hshort
  obtain ⟨hlegal', hopcode', hbody'⟩ := decodeRequest_eq_ok.mp hlong
  have heq : request.body ++ rest = request'.body ++ [] := by rw [List.append_nil, ← hbody, ← hbody']
  exact ((reads_body opcode).unique ⟨hlegal, hopcode⟩ ⟨hlegal', hopcode'⟩ heq).2

theorem decodeRequest_publish {body : Bytes} {request : Request} :
    decodeRequest 2 body = .ok request ↔
      ∃ records, LegalBatch records ∧ request = .publish records ∧ body = encodeRecords records := by
  rw [decodeRequest_eq_ok]
  constructor
  · cases request with
    | publish records =>
        intro h
        exact ⟨records, h.1, rfl, h.2.2⟩
    | _ =>
        intro h
        cases h.2.1
  · intro h
    obtain ⟨records, hlegal, rfl, hbody⟩ := h
    exact ⟨hlegal, rfl, hbody⟩

/-- **Requests and bodies correspond one to one**: an accepted body is the encoding of its request, every
batch within the limits is the request of its encoding, and no accepted body can be cut or extended. -/
theorem decodeRequest_canonical (opcode : Nat) :
    (∀ body request, decodeRequest opcode body = .ok request →
      body = request.body ∧
      (∀ body', decodeRequest opcode body' = .ok request → body' = body) ∧
      (∀ short, short <+: body → short ≠ body → ∃ e, decodeRequest opcode short = .error e) ∧
      ∀ rest, rest ≠ [] → ∃ e, decodeRequest opcode (body ++ rest) = .error e) ∧
    (∀ body request, decodeRequest 2 body = .ok request →
      ∃ records, request = .publish records ∧ body = encodeRecords records) ∧
    ∀ records : List Record, 1 ≤ records.length → records.length ≤ 256 →
      (∀ record ∈ records, validateTopic record.topic false = .ok () ∧
        record.key.utf8ByteSize ≤ 1024 ∧ record.payload.length ≤ 262144) →
      decodeRequest 2 (encodeRecords records) = .ok (.publish records) := by
  refine ⟨?_, ?_, ?_⟩
  · intro body request h
    have hbody := (decodeRequest_eq_ok.mp h).2.2
    refine ⟨hbody, ?_, ?_, ?_⟩
    · intro body' h'
      rw [hbody]
      exact (decodeRequest_eq_ok.mp h').2.2
    · intro short hprefix hne
      cases hshort : decodeRequest opcode short with
      | error e => exact ⟨e, by simp⟩
      | ok request' =>
          obtain ⟨rest, rfl⟩ := hprefix
          have hrest := decodeRequest_prefixFree hshort h
          exact absurd (by simp [hrest]) hne
    · intro rest hne
      cases hlong : decodeRequest opcode (body ++ rest) with
      | error e => exact ⟨e, by simp⟩
      | ok request' => exact absurd (decodeRequest_prefixFree h hlong) hne
  · intro body request h
    obtain ⟨records, -, hrequest, hbody⟩ := decodeRequest_publish.mp h
    exact ⟨records, hrequest, hbody⟩
  · intro records hone hmost hall
    have hlegal : ∀ record ∈ records, record.Legal := by
      intro record hmem
      obtain ⟨htopic, hkey, hpayload⟩ := hall record hmem
      exact ⟨htopic, hkey, hpayload⟩
    exact decodeRequest_publish.mpr ⟨records, ⟨hone, hmost, hlegal⟩, rfl, rfl⟩

end VeloBus
