import VeloBus.ConnectionModel

/-! What holds of a connection at every moment, whatever its peer sends and however its tasks are scheduled.
Every frame that was read and not answered is owed one response; a task, the channel to the writer or the
loop holds it. -/

namespace VeloBus.Connection

/-! ### The invariant -/

/-- A frame read after HELLO that was not answered. -/
def State.Owes (s : State) (index : Nat) (frame : Frame) : Prop :=
  1 ≤ index ∧ s.taken[index]? = some frame ∧ index ∉ s.answered.map Prod.fst

/-- A response a frame may have. -/
def Response.For (response : Response) (frame : Frame) : Prop :=
  response.requestId = frame.requestId ∧ (response.opcode = frame.opcode ||| 128 ∨ response.opcode = 255)

def Response.weight (response : Response) : Nat := if response.permit then 1 else 0

def Loop.weight : Loop → Nat
  | .sending response _ => response.weight
  | _ => 0

/-- The permits in use: of tasks, of the response in the channel and of the one the loop sends. -/
def State.held (s : State) : Nat :=
  s.tasks.size + (s.responses.elim 0 Response.weight) + s.loop.weight

def Loop.Early (loop : Loop) : Prop := loop = .hello ∨ ∃ rest accepted, loop = .greeting rest accepted

/-- The loop takes no further frame. -/
def Loop.Closing (loop : Loop) : Prop :=
  loop = .returned ∨ loop = .receipt true ∨ ∃ response, loop = .sending response true

/-- The connection was accepted, or is about to be. -/
def State.Admitting (s : State) : Prop :=
  (¬s.loop.Early ∧ s.loop ≠ .returned) ∨ (∃ rest, s.loop = .greeting rest true) ∨ s.dispatched ≠ []

/-- The first frame is a HELLO of version 1 with the token. -/
def Welcomed (token : String) (taken : List Frame) : Prop :=
  ∃ hello rest, taken = hello :: rest ∧ decodeRequest hello.opcode hello.body = .ok (.hello 1 token)

/-- A second HELLO, or a frame that breaks the protocol. -/
def Broken (frame : Frame) : Prop :=
  (∃ version token, decodeRequest frame.opcode frame.body = .ok (.hello version token)) ∨
    ∃ error, decodeRequest frame.opcode frame.body = .error error ∧ error.code = Code.protocol

/-- The frames after which nothing is dispatched. -/
def State.Fatal (s : State) (index : Nat) : Prop :=
  index ∈ s.duplicates ∨ 1 ≤ index ∧ ∃ frame, s.taken[index]? = some frame ∧ Broken frame

/-- An operation that is unfinished, or whose response waits for the writer. -/
def State.Unfinished (s : State) (index requestId : Nat) : Prop :=
  (∃ task, s.tasks.lookup index = some task ∧ task.requestId = requestId) ∨
    ∃ response, s.responses = some response ∧ response.written = false ∧ response.frame = index ∧
      response.requestId = requestId

/-- What a task was started with, and what it may answer. -/
structure Task.Serves (task : Task) (index : Nat) (frame : Frame) : Prop where
  requestId : task.requestId = frame.requestId
  opcode : task.opcode = frame.opcode
  request : decodeRequest frame.opcode frame.body = .ok task.request
  notHello : ∀ version token, task.request ≠ .hello version token
  response : ∀ response, task.response = some response →
    response.frame = index ∧ response.For frame ∧ response.permit = true ∧ response.written = false

structure State.Inv (token : String) (s : State) : Prop where
  welcomed : s.Admitting → Welcomed token s.taken
  young : s.loop = .hello → s.taken = [] ∧ s.answered = []
  early : s.loop.Early → s.tasks = ∅ ∧ s.responses = none ∧ s.dispatched = [] ∧ s.duplicates = [] ∧
    s.taken.length ≤ 1 ∧ s.ids = ∅
  bound : s.permits + s.held ≤ maxInFlight
  task : ∀ index task, s.tasks.lookup index = some task →
    ∃ frame, s.Owes index frame ∧ task.Serves index frame
  queued : ∀ response, s.responses = some response → s.tasks.lookup response.frame = none ∧
    (response.written = false → response.permit = true) ∧
    ∃ frame, s.Owes response.frame frame ∧ response.For frame
  sending : ∀ response close, s.loop = .sending response close → s.tasks.lookup response.frame = none ∧
    response.written = true ∧ (∀ response', s.responses = some response' → response'.frame ≠ response.frame) ∧
    ∃ frame, s.Owes response.frame frame ∧ response.For frame
  ids : s.duplicates = [] → ∀ id, id ∈ s.ids ↔ ∃ index frame, s.Owes index frame ∧ frame.requestId = id
  single : s.duplicates = [] → ∀ index index' frame frame', s.Owes index frame → s.Owes index' frame' →
    frame.requestId = frame'.requestId → index = index'
  apart : ∀ index index' id, s.Unfinished index id → s.Unfinished index' id → index = index'
  closing : ∀ index, s.Fatal index → s.loop.Closing ∧ s.taken.length = index + 1 ∧
    index ∉ s.dispatched.map Prod.fst
  dispatched : ∀ index request, (index, request) ∈ s.dispatched → 1 ≤ index ∧
    ∃ frame, s.taken[index]? = some frame ∧ decodeRequest frame.opcode frame.body = .ok request
  once : (s.answered.map Prod.fst).Nodup
  answered : ∀ index bytes, (index, bytes) ∈ s.answered → ∃ frame, s.taken[index]? = some frame ∧
    ∃ opcode body, bytes = envelope opcode frame.requestId body ∧ (opcode = frame.opcode ||| 128 ∨ opcode = 255)
  failed : ∀ index error, (index, error) ∈ s.failed → error.code ≠ Code.protocol

theorem getElem?_append {α : Type} {l : List α} {i : Nat} {a b : α} :
    (l ++ [b])[i]? = some a ↔ l[i]? = some a ∨ (i = l.length ∧ a = b) := by
  rcases lt_trichotomy i l.length with hlt | rfl | hgt
  · rw [List.getElem?_append_left hlt]
    exact ⟨Or.inl, fun h => h.resolve_right fun h => hlt.ne h.1⟩
  · rw [List.getElem?_append_right le_rfl, Nat.sub_self, List.getElem?_eq_none le_rfl]
    simp [eq_comm]
  · rw [List.getElem?_eq_none hgt.le, List.getElem?_eq_none]
    · exact ⟨nofun, fun h => absurd (h.resolve_left nofun).1 hgt.ne'⟩
    · rw [List.length_append, List.length_singleton]
      omega

theorem Welcomed.append {taken : List Frame} (h : Welcomed token taken) (frame : Frame) :
    Welcomed token (taken ++ [frame]) := by
  obtain ⟨hello, rest, rfl, hdecode⟩ := h
  exact ⟨hello, rest ++ [frame], rfl, hdecode⟩

theorem Broken.error {frame : Frame} (h : Broken frame) {permit : Bool} {error : Error}
    (hloopError : State.admitError permit (decodeRequest frame.opcode frame.body) = some error) :
    error.code = Code.protocol := by
  rcases h with ⟨version, supplied, hdecode⟩ | ⟨error', hdecode, hcode⟩
  · rw [hdecode] at hloopError
    rw [← Option.some.inj hloopError]
    rfl
  · rw [hdecode] at hloopError
    rw [← Option.some.inj hloopError]
    exact hcode

theorem getElem?_append_of_some {α : Type} {l : List α} {i : Nat} {a b : α} (h : l[i]? = some a) :
    (l ++ [b])[i]? = some a := getElem?_append.mpr (Or.inl h)

theorem not_broken {frame : Frame} {request : Request}
    (hdecode : decodeRequest frame.opcode frame.body = .ok request)
    (hhello : ∀ version token, request ≠ .hello version token) : ¬Broken frame := by
  rintro (⟨version, supplied, heq⟩ | ⟨error, heq, -⟩)
  · exact hhello version supplied (Except.ok.inj (hdecode.symm.trans heq))
  · rw [hdecode] at heq
    cases heq

namespace State

variable {token : String} {s : State}

/-- A connection of which no frame after HELLO was taken. -/
structure Fresh (s : State) : Prop where
  tasks : s.tasks = ∅
  responses : s.responses = none
  dispatched : s.dispatched = []
  duplicates : s.duplicates = []
  taken : s.taken.length ≤ 1
  ids : s.ids = ∅

theorem Fresh.not_owes (h : s.Fresh) {index : Nat} {frame : Frame} : ¬s.Owes index frame := by
  rintro ⟨hindex, hframe, -⟩
  have hlt := (List.getElem?_eq_some_iff.mp hframe).1
  have htaken := h.taken
  omega

theorem Fresh.inv (h : s.Fresh) (hwelcomed : s.Admitting → Welcomed token s.taken)
    (hyoung : s.loop = .hello → s.taken = [] ∧ s.answered = []) (hpermits : s.permits ≤ maxInFlight)
    (hloop : ∀ response close, s.loop ≠ .sending response close) (honce : (s.answered.map Prod.fst).Nodup)
    (hanswered : ∀ index bytes, (index, bytes) ∈ s.answered → ∃ frame, s.taken[index]? = some frame ∧
      ∃ opcode body, bytes = envelope opcode frame.requestId body ∧ (opcode = frame.opcode ||| 128 ∨ opcode = 255))
    (hfailed : ∀ index error, (index, error) ∈ s.failed → error.code ≠ Code.protocol) : s.Inv token where
  welcomed := hwelcomed
  young := hyoung
  early _ := ⟨h.tasks, h.responses, h.dispatched, h.duplicates, h.taken, h.ids⟩
  bound := by
    have hweight : s.loop.weight = 0 := by
      cases hcase : s.loop with
      | sending response close => exact absurd hcase (hloop response close)
      | _ => rfl
    rw [held, h.tasks, h.responses, hweight]
    exact hpermits
  task index task hlookup := by
    rw [h.tasks] at hlookup
    cases hlookup
  queued response hresponse := by
    rw [h.responses] at hresponse
    cases hresponse
  sending response close hcase := absurd hcase (hloop response close)
  ids _ id := by
    rw [h.ids]
    exact ⟨fun hmem => absurd hmem (Finset.notMem_empty id), fun ⟨_, _, howes, _⟩ => absurd howes h.not_owes⟩
  single _ _ _ _ _ howes := absurd howes h.not_owes
  apart := by
    rintro index index' id (⟨task, htask, -⟩ | ⟨response, hresponse, -⟩) _
    · rw [h.tasks] at htask
      cases htask
    · rw [h.responses] at hresponse
      cases hresponse
  closing := by
    rintro index (hmem | ⟨hindex, frame, hframe, -⟩)
    · rw [h.duplicates] at hmem
      cases hmem
    · have hlt := (List.getElem?_eq_some_iff.mp hframe).1
      have htaken := h.taken
      omega
  dispatched index request hmem := by
    rw [h.dispatched] at hmem
    cases hmem
  once := honce
  answered := hanswered
  failed := hfailed

theorem new_inv : new.Inv token := by
  have hfresh : new.Fresh := ⟨rfl, rfl, rfl, rfl, Nat.zero_le _, rfl⟩
  apply hfresh.inv
  · rintro (⟨hearly, -⟩ | ⟨rest, hgreeting⟩ | hdispatched)
    · exact absurd (Or.inl rfl) hearly
    · cases hgreeting
    · exact absurd rfl hdispatched
  · exact fun _ => ⟨rfl, rfl⟩
  · exact Nat.zero_le _
  · exact nofun
  · exact List.nodup_nil
  · exact nofun
  · exact nofun

theorem Inv.fresh (h : s.Inv token) (hearly : s.loop.Early) : s.Fresh :=
  ⟨(h.early hearly).1, (h.early hearly).2.1, (h.early hearly).2.2.1, (h.early hearly).2.2.2.1,
    (h.early hearly).2.2.2.2.1, (h.early hearly).2.2.2.2.2⟩

theorem Inv.permits_le (h : s.Inv token) : s.permits ≤ maxInFlight := (Nat.le_add_right _ _).trans h.bound

theorem responseFrame_eq (opcode requestId : Nat) (body : Bytes) :
    ∃ opcode' body', responseFrame opcode requestId body = envelope opcode' requestId body' ∧
      (opcode' = opcode ∨ opcode' = 255) := by
  unfold responseFrame
  split_ifs
  · exact ⟨255, _, rfl, Or.inr rfl⟩
  · exact ⟨opcode, body, rfl, Or.inl rfl⟩

theorem greetError_none {request : Except Error Request} (h : (greetError token request).isNone = true) :
    request = .ok (.hello 1 token) := by
  rw [Option.isNone_iff_eq_none] at h
  cases request with
  | error error => cases h
  | ok request =>
      cases request with
      | hello version supplied =>
          simp only [greetError] at h
          split_ifs at h with hgood
          rw [hgood.1, hgood.2]
      | _ => cases h

theorem Inv.greet (h : s.Inv token) (hloop : s.loop = .hello) (frame : Frame) (input : Bytes) :
    ({ s with input := input }.greet token frame).Inv token := by
  obtain ⟨htaken, hanswered⟩ := h.young hloop
  have hfresh := h.fresh (Or.inl hloop)
  have hfresh' : ({ s with input := input }.greet token frame).Fresh :=
    ⟨hfresh.tasks, hfresh.responses, hfresh.dispatched, hfresh.duplicates, by
      rw [State.greet, htaken]
      exact le_rfl, hfresh.ids⟩
  apply hfresh'.inv
  · intro hadmitting
    refine ⟨frame, [], by rw [State.greet, htaken]; rfl, ?_⟩
    rcases hadmitting with ⟨hearly, -⟩ | ⟨rest, hgreeting⟩ | hdispatched
    · exact absurd (Or.inr ⟨_, _, rfl⟩) hearly
    · exact greetError_none (Loop.greeting.inj hgreeting).2
    · exact absurd hfresh.dispatched hdispatched
  · exact nofun
  · exact h.permits_le
  · exact nofun
  · rw [State.greet, hanswered]
    exact List.nodup_singleton _
  · intro index bytes hmem
    rw [State.greet, hanswered, htaken] at hmem
    obtain ⟨rfl, rfl⟩ := Prod.mk.inj (List.mem_singleton.mp hmem)
    refine ⟨frame, by rw [State.greet, htaken]; rfl, ?_⟩
    cases greetError token (decodeRequest frame.opcode frame.body) with
    | some error =>
        obtain ⟨opcode, body, heq, hopcode⟩ := responseFrame_eq 255 frame.requestId (errorBody error)
        exact ⟨opcode, body, heq, Or.inr (or_self_iff.mp hopcode)⟩
    | none => exact responseFrame_eq _ _ _
  · exact h.failed

theorem Inv.welcome (h : s.Inv token) {rest : Bytes} (hloop : s.loop = .greeting rest true) :
    s.welcome.Inv token := by
  have hfresh := h.fresh (Or.inr ⟨rest, true, hloop⟩)
  have hfresh' : s.welcome.Fresh := { hfresh with }
  apply hfresh'.inv
  · exact fun _ => h.welcomed (Or.inr (Or.inl ⟨rest, hloop⟩))
  · exact nofun
  · exact le_rfl
  · exact nofun
  · exact h.once
  · exact h.answered
  · exact h.failed

theorem Inv.greeting (h : s.Inv token) {rest : Bytes} {accepted : Bool} (hloop : s.loop = .greeting rest accepted)
    (rest' output : Bytes) : { s with loop := .greeting rest' accepted, output := output }.Inv token := by
  have hfresh := h.fresh (Or.inr ⟨rest, accepted, hloop⟩)
  have hfresh' : { s with loop := .greeting rest' accepted, output := output }.Fresh := { hfresh with }
  apply hfresh'.inv
  · rintro (⟨hearly, -⟩ | ⟨rest'', hgreeting⟩ | hdispatched)
    · exact absurd (Or.inr ⟨_, _, rfl⟩) hearly
    · obtain ⟨-, rfl⟩ := Loop.greeting.inj hgreeting
      exact h.welcomed (Or.inr (Or.inl ⟨rest, hloop⟩))
    · exact absurd hfresh.dispatched hdispatched
  · exact nofun
  · exact h.permits_le
  · exact nofun
  · exact h.once
  · exact h.answered
  · exact h.failed

/-- The loop may return at any time. -/
theorem Inv.returned (h : s.Inv token) : { s with loop := .returned }.Inv token := { h with
  welcomed := fun hadmitting => h.welcomed <| by
    rcases hadmitting with ⟨-, hreturned⟩ | ⟨rest, hgreeting⟩ | hdispatched
    · exact absurd rfl hreturned
    · cases hgreeting
    · exact Or.inr (Or.inr hdispatched)
  young := nofun
  early := by
    rintro (hhello | ⟨rest, accepted, hgreeting⟩)
    · cases hhello
    · cases hgreeting
  bound := (Nat.add_le_add_left (Nat.add_le_add_left (Nat.zero_le _) _) _).trans h.bound
  sending := nofun
  closing := fun index hfatal => ⟨Or.inl rfl, (h.closing index hfatal).2⟩ }

/-! ### Taking a frame -/

theorem accept_cases (frame : Frame) (s : State) :
    (frame.requestId ∈ s.ids ∧ s.accept frame = { s with
      frames := none
      taken := s.taken ++ [frame]
      receipt := false
      loop := .sending ⟨s.taken.length, 255, frame.requestId, errorBody duplicateError, false, true⟩ true
      refused := s.refused ++ [(s.taken.length, duplicateError)]
      duplicates := s.duplicates ++ [s.taken.length] }) ∨
    (frame.requestId ∉ s.ids ∧ ∃ error,
      admitError (0 < s.permits) (decodeRequest frame.opcode frame.body) = some error ∧ s.accept frame = { s with
        frames := none
        taken := s.taken ++ [frame]
        receipt := false
        ids := insert frame.requestId s.ids
        permits := s.permits - 1
        loop := .sending ⟨s.taken.length, 255, frame.requestId, errorBody error, 0 < s.permits, true⟩
          (error.code = Code.protocol)
        refused := s.refused ++ [(s.taken.length, error)] }) ∨
    (frame.requestId ∉ s.ids ∧ 0 < s.permits ∧ ∃ request,
      decodeRequest frame.opcode frame.body = .ok request ∧ (∀ version token, request ≠ .hello version token) ∧
        s.accept frame = { s with
          frames := none
          taken := s.taken ++ [frame]
          receipt := false
          ids := insert frame.requestId s.ids
          permits := s.permits - 1
          tasks := s.tasks.insert s.taken.length ⟨frame.requestId, frame.opcode, request, none⟩
          dispatched := s.dispatched ++ [(s.taken.length, request)] }) := by
  by_cases hmem : frame.requestId ∈ s.ids
  · left
    refine ⟨hmem, ?_⟩
    unfold accept
    dsimp only
    rw [if_pos hmem]
  right
  cases hrequest : decodeRequest frame.opcode frame.body with
  | error error =>
      left
      refine ⟨hmem, error, rfl, ?_⟩
      unfold accept
      dsimp only
      rw [if_neg hmem, hrequest]
      rfl
  | ok request =>
      cases hloopError : admitError (0 < s.permits) (.ok request) with
      | some error =>
          left
          refine ⟨hmem, error, rfl, ?_⟩
          unfold accept
          dsimp only
          rw [if_neg hmem, hrequest, hloopError]
      | none =>
          right
          have hhello : ∀ version token, request ≠ .hello version token := by
            rintro version token rfl
            cases hloopError
          have hpermit : 0 < s.permits := by
            by_contra hnone
            rw [decide_eq_false hnone] at hloopError
            cases request with
            | hello version token => exact hhello version token rfl
            | _ => cases hloopError
          refine ⟨hmem, hpermit, request, rfl, hhello, ?_⟩
          unfold accept
          dsimp only
          rw [if_neg hmem, hrequest, hloopError]

theorem Inv.answered_lt (h : s.Inv token) {index : Nat} (hmem : index ∈ s.answered.map Prod.fst) :
    index < s.taken.length := by
  obtain ⟨⟨index', bytes⟩, he, rfl⟩ := List.mem_map.mp hmem
  obtain ⟨frame, hframe, -⟩ := h.answered _ _ he
  exact (List.getElem?_eq_some_iff.mp hframe).1

theorem Inv.dispatched_lt (h : s.Inv token) {index : Nat} (hmem : index ∈ s.dispatched.map Prod.fst) :
    index < s.taken.length := by
  obtain ⟨⟨index', request⟩, he, rfl⟩ := List.mem_map.mp hmem
  obtain ⟨-, frame, hframe, -⟩ := h.dispatched _ _ he
  exact (List.getElem?_eq_some_iff.mp hframe).1

theorem Owes.lt {index : Nat} {frame : Frame} (h : s.Owes index frame) : index < s.taken.length :=
  (List.getElem?_eq_some_iff.mp h.2.1).1

theorem Unfinished.owes (h : s.Inv token) {index id : Nat} (hun : s.Unfinished index id) :
    ∃ frame, s.Owes index frame ∧ frame.requestId = id := by
  rcases hun with ⟨task, htask, rfl⟩ | ⟨response, hresponse, -, rfl, rfl⟩
  · obtain ⟨frame, howes, hserves⟩ := h.task index task htask
    exact ⟨frame, howes, hserves.requestId.symm⟩
  · obtain ⟨-, -, frame, howes, hfor⟩ := h.queued response hresponse
    exact ⟨frame, howes, hfor.1.symm⟩

theorem Inv.select_welcomed (h : s.Inv token) (hloop : s.loop = .select) : Welcomed token s.taken := by
  apply h.welcomed
  left
  rw [hloop]
  refine ⟨?_, nofun⟩
  rintro (hhello | ⟨rest, accepted, hgreeting⟩)
  · cases hhello
  · cases hgreeting

theorem Inv.no_fatal (h : s.Inv token) (hloop : s.loop = .select) {index : Nat} : ¬s.Fatal index := by
  intro hfatal
  have hclosing := (h.closing index hfatal).1
  rw [hloop] at hclosing
  rcases hclosing with hreturned | hreceipt | ⟨response, hsending⟩
  · cases hreturned
  · cases hreceipt
  · cases hsending

/-- While frames are taken, none had an identifier in use. -/
theorem Inv.no_duplicates (h : s.Inv token) (hloop : s.loop = .select) : s.duplicates = [] := by
  apply List.eq_nil_iff_forall_not_mem.mpr
  intro index hmem
  exact h.no_fatal hloop (Or.inl hmem)

section Accept

variable {frame : Frame} {t : State}

theorem Inv.owes_append (h : s.Inv token) (hloop : s.loop = .select) (htaken : t.taken = s.taken ++ [frame])
    (hanswered : t.answered = s.answered) {index : Nat} {frame' : Frame} :
    t.Owes index frame' ↔ s.Owes index frame' ∨ (index = s.taken.length ∧ frame' = frame) := by
  obtain ⟨hello, rest, hwelcomed, -⟩ := h.select_welcomed hloop
  have hlength : 1 ≤ s.taken.length := by
    rw [hwelcomed]
    exact Nat.succ_pos _
  unfold Owes
  rw [htaken, hanswered, getElem?_append]
  constructor
  · rintro ⟨hindex, hold | ⟨rfl, rfl⟩, hnot⟩
    · exact Or.inl ⟨hindex, hold, hnot⟩
    · exact Or.inr ⟨rfl, rfl⟩
  · rintro (⟨hindex, hold, hnot⟩ | ⟨rfl, rfl⟩)
    · exact ⟨hindex, Or.inl hold, hnot⟩
    · exact ⟨hlength, Or.inr ⟨rfl, rfl⟩, fun hmem => lt_irrefl _ (h.answered_lt hmem)⟩

theorem Inv.single_append (h : s.Inv token) (hloop : s.loop = .select) (htaken : t.taken = s.taken ++ [frame])
    (hanswered : t.answered = s.answered) (hfree : frame.requestId ∉ s.ids) {index index' : Nat}
    {frame₁ frame₂ : Frame} (howes : t.Owes index frame₁) (howes' : t.Owes index' frame₂)
    (heq : frame₁.requestId = frame₂.requestId) : index = index' := by
  have hnone := h.no_duplicates hloop
  have hfresh : ∀ {k f}, s.Owes k f → f.requestId ≠ frame.requestId := by
    intro k f hk hsame
    exact hfree ((h.ids hnone _).mpr ⟨k, f, hk, hsame⟩)
  rcases (h.owes_append hloop htaken hanswered).mp howes with hold | ⟨rfl, rfl⟩ <;>
    rcases (h.owes_append hloop htaken hanswered).mp howes' with hold' | ⟨rfl, rfl⟩
  · exact h.single hnone index index' frame₁ frame₂ hold hold' heq
  · exact absurd heq (hfresh hold)
  · exact absurd heq.symm (hfresh hold')
  · rfl

theorem Inv.ids_append (h : s.Inv token) (hloop : s.loop = .select) (htaken : t.taken = s.taken ++ [frame])
    (hanswered : t.answered = s.answered) (hids : t.ids = insert frame.requestId s.ids) {id : Nat} :
    id ∈ t.ids ↔ ∃ index frame', t.Owes index frame' ∧ frame'.requestId = id := by
  rw [hids, Finset.mem_insert, h.ids (h.no_duplicates hloop)]
  constructor
  · rintro (rfl | ⟨index, frame', howes, rfl⟩)
    · exact ⟨_, frame, (h.owes_append hloop htaken hanswered).mpr (Or.inr ⟨rfl, rfl⟩), rfl⟩
    · exact ⟨index, frame', (h.owes_append hloop htaken hanswered).mpr (Or.inl howes), rfl⟩
  · rintro ⟨index, frame', howes, rfl⟩
    rcases (h.owes_append hloop htaken hanswered).mp howes with hold | ⟨-, rfl⟩
    · exact Or.inr ⟨index, frame', hold, rfl⟩
    · exact Or.inl rfl

theorem Inv.fatal_append (h : s.Inv token) (hloop : s.loop = .select) (htaken : t.taken = s.taken ++ [frame])
    {new : List Nat} (hduplicates : t.duplicates = s.duplicates ++ new) (hnew : ∀ index ∈ new, index = s.taken.length)
    {index : Nat} (hfatal : t.Fatal index) :
    index = s.taken.length ∧ (index ∈ new ∨ Broken frame) := by
  rcases hfatal with hmem | ⟨hindex, frame', hframe, hbroken⟩
  · rw [hduplicates, List.mem_append] at hmem
    rcases hmem with hold | hmem
    · exact absurd (Or.inl hold) (h.no_fatal hloop)
    · exact ⟨hnew index hmem, Or.inl hmem⟩
  · rw [htaken, getElem?_append] at hframe
    rcases hframe with hold | ⟨heq, rfl⟩
    · exact absurd (Or.inr ⟨hindex, frame', hold, hbroken⟩) (h.no_fatal hloop)
    · exact ⟨heq, Or.inr hbroken⟩

end Accept

/-- A frame that the loop answers itself. -/
theorem Inv.accept_refused (h : s.Inv token) (hloop : s.loop = .select) {frame : Frame} {t : State}
    {response : Response} {close : Bool} (new : List Nat) (hnew : ∀ index ∈ new, index = s.taken.length)
    (hclose : new ≠ [] ∨ Broken frame → close = true)
    (htaken : t.taken = s.taken ++ [frame]) (htasks : t.tasks = s.tasks) (hresponses : t.responses = s.responses)
    (hlooped : t.loop = .sending response close) (hframe : response.frame = s.taken.length)
    (hrequestId : response.requestId = frame.requestId) (hopcode : response.opcode = 255)
    (hwritten : response.written = true) (hpermits : t.permits + response.weight = s.permits)
    (hids : new = [] → frame.requestId ∉ s.ids ∧ t.ids = insert frame.requestId s.ids)
    (hduplicates : t.duplicates = s.duplicates ++ new) (hanswered : t.answered = s.answered)
    (hdispatched : t.dispatched = s.dispatched) (hfailed : t.failed = s.failed) : t.Inv token where
  welcomed _ := by
    rw [htaken]
    exact (h.select_welcomed hloop).append frame
  young hyoung := by
    rw [hlooped] at hyoung
    cases hyoung
  early hearly := by
    rw [hlooped] at hearly
    rcases hearly with hhello | ⟨rest, accepted, hgreeting⟩
    · cases hhello
    · cases hgreeting
  bound := by
    have hbound := h.bound
    unfold held at hbound ⊢
    rw [hloop] at hbound
    rw [hlooped, htasks, hresponses]
    simp only [Loop.weight] at hbound ⊢
    omega
  task index task htask := by
    rw [htasks] at htask
    obtain ⟨frame', howes, hserves⟩ := h.task index task htask
    exact ⟨frame', (h.owes_append hloop htaken hanswered).mpr (Or.inl howes), hserves⟩
  queued response' hresponse := by
    rw [hresponses] at hresponse
    rw [htasks]
    obtain ⟨hlookup, hpermit, frame', howes, hfor⟩ := h.queued response' hresponse
    exact ⟨hlookup, hpermit, frame', (h.owes_append hloop htaken hanswered).mpr (Or.inl howes), hfor⟩
  sending response' close' hsending := by
    obtain ⟨rfl, rfl⟩ := Loop.sending.inj (hlooped.symm.trans hsending)
    rw [htasks, hresponses]
    refine ⟨?_, hwritten, ?_, frame, (h.owes_append hloop htaken hanswered).mpr (Or.inr ⟨hframe, rfl⟩),
      hrequestId, Or.inr hopcode⟩
    · by_contra hne
      obtain ⟨task, htask⟩ := Option.ne_none_iff_exists'.mp hne
      obtain ⟨frame', howes, -⟩ := h.task _ task htask
      exact howes.lt.ne hframe
    · intro response' hresponse
      obtain ⟨-, -, frame', howes, -⟩ := h.queued response' hresponse
      exact (howes.lt.trans_eq hframe.symm).ne
  ids hnone := by
    rw [hduplicates, List.append_eq_nil_iff] at hnone
    exact fun id => h.ids_append hloop htaken hanswered (hids hnone.2).2
  single hnone := by
    rw [hduplicates, List.append_eq_nil_iff] at hnone
    exact fun _ _ _ _ => h.single_append hloop htaken hanswered (hids hnone.2).1
  apart := by
    unfold Unfinished
    rw [htasks, hresponses]
    exact h.apart
  closing index hfatal := by
    obtain ⟨rfl, hcause⟩ := h.fatal_append hloop htaken hduplicates hnew hfatal
    have hclosing : close = true := hclose (hcause.imp_left List.ne_nil_of_mem)
    rw [hlooped, hclosing, htaken, hdispatched]
    exact ⟨Or.inr (Or.inr ⟨response, rfl⟩), List.length_append, fun hmem => lt_irrefl _ (h.dispatched_lt hmem)⟩
  dispatched index request hmem := by
    rw [hdispatched] at hmem
    obtain ⟨hindex, frame', hframe, hdecode⟩ := h.dispatched index request hmem
    rw [htaken]
    exact ⟨hindex, frame', getElem?_append_of_some hframe, hdecode⟩
  once := hanswered ▸ h.once
  answered index bytes hmem := by
    rw [hanswered] at hmem
    obtain ⟨frame', hframe, hshape⟩ := h.answered index bytes hmem
    rw [htaken]
    exact ⟨frame', getElem?_append_of_some hframe, hshape⟩
  failed := hfailed ▸ h.failed

theorem Inv.no_task (h : s.Inv token) : s.tasks.lookup s.taken.length = none := by
  by_contra hne
  obtain ⟨task, htask⟩ := Option.ne_none_iff_exists'.mp hne
  obtain ⟨frame, howes, -⟩ := h.task _ task htask
  exact lt_irrefl _ howes.lt

/-- A frame whose operation starts. -/
theorem Inv.accept_dispatched (h : s.Inv token) (hloop : s.loop = .select) {frame : Frame} {t : State}
    (hfree : frame.requestId ∉ s.ids) (hpermit : 0 < s.permits) {request : Request}
    (hdecode : decodeRequest frame.opcode frame.body = .ok request)
    (hhello : ∀ version supplied, request ≠ .hello version supplied)
    (htaken : t.taken = s.taken ++ [frame]) (hlooped : t.loop = .select)
    (htasks : t.tasks = s.tasks.insert s.taken.length ⟨frame.requestId, frame.opcode, request, none⟩)
    (hresponses : t.responses = s.responses) (hpermits : t.permits = s.permits - 1)
    (hids : t.ids = insert frame.requestId s.ids) (hduplicates : t.duplicates = s.duplicates)
    (hanswered : t.answered = s.answered)
    (hdispatched : t.dispatched = s.dispatched ++ [(s.taken.length, request)]) (hfailed : t.failed = s.failed) :
    t.Inv token where
  welcomed _ := by
    rw [htaken]
    exact (h.select_welcomed hloop).append frame
  young hyoung := by
    rw [hlooped] at hyoung
    cases hyoung
  early hearly := by
    rw [hlooped] at hearly
    rcases hearly with hhello | ⟨rest, accepted, hgreeting⟩
    · cases hhello
    · cases hgreeting
  bound := by
    have hbound := h.bound
    unfold held at hbound ⊢
    rw [hloop] at hbound
    rw [hlooped, htasks, hresponses, hpermits, Table.size_insert h.no_task]
    omega
  task index task htask := by
    rw [htasks, Table.lookup_insert_ite] at htask
    split_ifs at htask with heq
    · rw [← Option.some.inj htask]
      exact ⟨frame, (h.owes_append hloop htaken hanswered).mpr (Or.inr ⟨heq, rfl⟩), rfl, rfl, hdecode, hhello, nofun⟩
    · obtain ⟨frame', howes, hserves⟩ := h.task index task htask
      exact ⟨frame', (h.owes_append hloop htaken hanswered).mpr (Or.inl howes), hserves⟩
  queued response hresponse := by
    rw [hresponses] at hresponse
    obtain ⟨hlookup, hpermit, frame', howes, hfor⟩ := h.queued response hresponse
    refine ⟨?_, hpermit, frame', (h.owes_append hloop htaken hanswered).mpr (Or.inl howes), hfor⟩
    rw [htasks, Table.lookup_insert_ite, if_neg howes.lt.ne]
    exact hlookup
  sending response close hsending := by
    rw [hlooped] at hsending
    cases hsending
  ids _ _ := h.ids_append hloop htaken hanswered hids
  single _ _ _ _ _ := h.single_append hloop htaken hanswered hfree
  apart := by
    have hold : ∀ {index id}, t.Unfinished index id →
        s.Unfinished index id ∨ (index = s.taken.length ∧ id = frame.requestId) := by
      rintro index id (⟨task, htask, rfl⟩ | hqueued)
      · rw [htasks, Table.lookup_insert_ite] at htask
        split_ifs at htask with heq
        · rw [← Option.some.inj htask]
          exact Or.inr ⟨heq, rfl⟩
        · exact Or.inl (Or.inl ⟨task, htask, rfl⟩)
      · rw [hresponses] at hqueued
        exact Or.inl (Or.inr hqueued)
    have hfresh : ∀ {index}, ¬s.Unfinished index frame.requestId := by
      intro index hun
      obtain ⟨frame', howes, heq⟩ := hun.owes h
      exact hfree ((h.ids (h.no_duplicates hloop) _).mpr ⟨index, frame', howes, heq⟩)
    intro index index' id hun hun'
    rcases hold hun with hun | ⟨rfl, rfl⟩ <;> rcases hold hun' with hun' | ⟨rfl, heq⟩
    · exact h.apart index index' id hun hun'
    · exact absurd (heq ▸ hun) hfresh
    · exact absurd hun' hfresh
    · rfl
  closing index hfatal := by
    obtain ⟨-, hmem | hbroken⟩ :=
      h.fatal_append hloop htaken (hduplicates.trans (List.append_nil _).symm) nofun hfatal
    · cases hmem
    · exact absurd hbroken (not_broken hdecode hhello)
  dispatched index request' hmem := by
    rw [hdispatched, List.mem_append] at hmem
    rcases hmem with hold | hnew
    · obtain ⟨hindex, frame', hframe, hdecode'⟩ := h.dispatched index request' hold
      rw [htaken]
      exact ⟨hindex, frame', getElem?_append_of_some hframe, hdecode'⟩
    · obtain ⟨rfl, rfl⟩ := Prod.mk.inj (List.mem_singleton.mp hnew)
      obtain ⟨hindex, hframe, -⟩ := (h.owes_append hloop htaken hanswered).mpr (Or.inr ⟨rfl, rfl⟩)
      exact ⟨hindex, frame, hframe, hdecode⟩
  once := hanswered ▸ h.once
  answered index bytes hmem := by
    rw [hanswered] at hmem
    obtain ⟨frame', hframe, hshape⟩ := h.answered index bytes hmem
    rw [htaken]
    exact ⟨frame', getElem?_append_of_some hframe, hshape⟩
  failed := hfailed ▸ h.failed

theorem Inv.accept (h : s.Inv token) (hloop : s.loop = .select) (frame : Frame) : (s.accept frame).Inv token := by
  rcases accept_cases frame s with ⟨-, heq⟩ | ⟨hfree, error, hloopError, heq⟩ |
    ⟨hfree, hpermit, request, hdecode, hhello, heq⟩
  · rw [heq]
    exact h.accept_refused hloop [s.taken.length] (fun _ => List.mem_singleton.mp) (fun _ => rfl) rfl rfl
      rfl rfl rfl rfl rfl rfl rfl (fun hnew => nomatch hnew) rfl rfl rfl rfl
  · rw [heq]
    refine h.accept_refused hloop [] nofun (fun hcause => ?_) rfl rfl rfl rfl rfl rfl rfl rfl ?_
      (fun _ => ⟨hfree, rfl⟩) (List.append_nil _).symm rfl rfl rfl
    · exact decide_eq_true (Broken.error (hcause.resolve_left (fun h => h rfl)) hloopError)
    · unfold Response.weight
      dsimp only
      split_ifs with hpermit
      · exact Nat.sub_add_cancel (of_decide_eq_true hpermit)
      · have hnone := of_decide_eq_false (Bool.not_eq_true _ ▸ hpermit)
        omega
  · rw [heq]
    exact h.accept_dispatched hloop hfree hpermit hdecode hhello rfl hloop rfl rfl rfl rfl rfl rfl rfl rfl

end State

end VeloBus.Connection
