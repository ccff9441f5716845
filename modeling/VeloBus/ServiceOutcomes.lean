import VeloBus.HandlerOutcomes
import VeloBus.ServiceModel

/-! What a handler's settlement costs a service: the COMPLETE of its job, and nothing else while every handler ends in a
way that a COMPLETE can tell. -/

namespace VeloBus.Service

open Client (Failure Value Outcome)

/-- A COMPLETE that says how the handler ended, and that the broker reads. -/
def Entry.Faithful : Entry → Prop
  | .took _ _ => True
  | .completed _ _ outcome status output => Client.Tells outcome status output

/-- The jobs a slot got. -/
def jobsOf (slot : Nat) (log : List Entry) : List Rpc.Job :=
  log.filterMap fun
    | .took i job => if i = slot then some job else none
    | .completed _ _ _ _ _ => none

/-- The jobs a slot sent a COMPLETE for. -/
def completionsOf (slot : Nat) (log : List Entry) : List Rpc.Job :=
  log.filterMap fun
    | .took _ _ => none
    | .completed i job _ _ _ => if i = slot then some job else none

/-- The bodies of the COMPLETEs. -/
def completeBodies (log : List Entry) : List Bytes :=
  log.filterMap fun
    | .took _ _ => none
    | .completed _ job _ status output => some (completeBody job status output)

/-- The bodies of the COMPLETE frames among those of the client. -/
def completeFrames (frames : List Bytes) : List Bytes :=
  frames.filterMap fun frame =>
    if Client.frameOpcode (frame.drop 4) = 9 then some (frame.drop 9) else none

def Slot.jobs : Slot → List Rpc.Job
  | executing job => [job]
  | _ => []

/-- The promise that a slot waits for. -/
def Slot.promise : Slot → Option Nat
  | taking promise => some promise
  | completing promise => some promise
  | _ => none

/-! ### The connection -/

theorem completeFrames_envelope {opcode id : Nat} {body frame : Bytes} (hopcode : opcode < 256)
    (h : Client.envelope opcode id body = .ok frame) :
    completeFrames [frame] = if opcode = 9 then [body] else [] := by
  unfold Client.envelope at h
  split_ifs at h with hlong
  rw [← Except.ok.inj h]
  have hdrop : (Bytes.toBe 4 (body.length + 5) ++ Bytes.toBe 1 opcode ++ Bytes.toBe 4 id ++ body).drop 4 =
      Bytes.toBe 1 opcode ++ (Bytes.toBe 4 id ++ body) := by
    rw [List.append_assoc, List.append_assoc]
    exact List.drop_left' (Bytes.length_toBe _ _)
  have hopcode' : Client.frameOpcode (Bytes.toBe 1 opcode ++ (Bytes.toBe 4 id ++ body)) = opcode := by
    unfold Client.frameOpcode
    rw [List.take_left' (Bytes.length_toBe _ _)]
    exact Bytes.ofBe_toBe_of_lt hopcode
  have hbody : (Bytes.toBe 4 (body.length + 5) ++ Bytes.toBe 1 opcode ++ Bytes.toBe 4 id ++ body).drop 9 = body := by
    apply List.drop_left'
    rw [List.length_append, List.length_append, Bytes.length_toBe, Bytes.length_toBe, Bytes.length_toBe]
  unfold completeFrames
  rw [List.filterMap_cons, hdrop, hopcode', hbody]
  split_ifs <;> rfl

theorem completeFrames_append (frames frames' : List Bytes) :
    completeFrames (frames ++ frames') = completeFrames frames ++ completeFrames frames' := List.filterMap_append

/-- The connection of a service in some phase, whose slots wait for `waits` and have sent `bodies`. -/
structure Conn (child : Client.State (Option Rpc.Job)) (phase : Phase) (waits : List Nat) (bodies : List Bytes) :
    Prop where
  inv : child.Inv
  token : child.settings.token.length ≤ 65535
  opening : phase = .opening → child.sent.length ≤ 1 ∧
    (child.stage = .opened → ∀ promise < child.sent.length, promise ∈ child.settled.map Prod.fst)
  registering : ∀ promise, phase = .registering promise → child.stage = .opened ∧
    child.sent.length = promise + 1 ∧ ∀ earlier < promise, earlier ∈ child.settled.map Prod.fst
  serving : phase = .serving → child.stage = .opened
  failed : phase = .failed → child.closed = true
  held : phase = .serving → child.closed = false → ∀ id pending, child.pending.lookup id = some pending →
    pending.promise ∈ waits
  honest : child.closed = false → ∀ promise reason, (promise, .rejected reason) ∈ child.settled →
    ∃ code message, reason = .broker code message
  frames : child.closed = false → completeFrames child.frames = bodies

namespace Conn

variable {child child' : Client.State (Option Rpc.Job)} {phase : Phase} {waits : List Nat} {bodies : List Bytes}

theorem moved (h : Conn child phase waits bodies) (hinv : child'.Inv) (hmoved : child.Moved child') :
    Conn child' phase waits bodies where
  inv := hinv
  token := by
    rw [hmoved.settings]
    exact h.token
  opening hphase := by
    obtain ⟨hlength, hsettled⟩ := h.opening hphase
    rw [hmoved.sent]
    refine ⟨hlength, fun hstage promise hlt => ?_⟩
    apply (hmoved.settled.map Prod.fst).subset
    obtain hopened | ⟨promise', value, hgreeting, hmem⟩ := hmoved.opened hstage
    · exact hsettled hopened promise hlt
    · obtain ⟨rfl, -⟩ := h.inv.greeting promise' hgreeting
      obtain rfl : promise = 0 := by omega
      exact List.mem_map_of_mem hmem
  registering promise hphase := by
    obtain ⟨hstage, hlength, hsettled⟩ := h.registering promise hphase
    rw [hmoved.sent]
    exact ⟨hmoved.kept hstage, hlength, fun earlier hlt => (hmoved.settled.map Prod.fst).subset (hsettled earlier hlt)⟩
  serving hphase := hmoved.kept (h.serving hphase)
  failed hphase := by
    by_contra hopen
    have hclosed := (hmoved.passive (Bool.not_eq_true _ ▸ hopen)).closed
    rw [h.failed hphase] at hclosed
    cases hclosed
  held hphase hopen id pending hlookup := by
    have hpassive := hmoved.passive hopen
    exact h.held hphase hpassive.closed id pending (hpassive.pending id pending hlookup)
  honest hopen promise reason hmem := by
    have hpassive := hmoved.passive hopen
    exact (hpassive.rejected promise reason hmem).elim (h.honest hpassive.closed promise reason) id
  frames hopen := by
    have hpassive := hmoved.passive hopen
    rw [hpassive.frames]
    exact h.frames hpassive.closed

theorem fail (h : Conn child phase waits bodies) {reason : Failure}
    (hreason : ∀ code message, reason ≠ .broker code message) : Conn (child.fail reason) phase waits bodies :=
  h.moved (h.inv.fail hreason) (Client.State.fail_moved reason child)

/-- A promise that is settled is waited for no more. -/
theorem rewait (h : Conn child phase waits bodies) {waits' : List Nat}
    (hwaits : ∀ promise ∈ waits, promise ∈ waits' ∨ promise ∈ child.settled.map Prod.fst) :
    Conn child phase waits' bodies :=
  { h with
    held := fun hphase hopen id pending hlookup =>
      (hwaits _ (h.held hphase hopen id pending hlookup)).resolve_right (h.inv.waiting id pending hlookup) }

/-- A slot that waits for nothing leaves room for its request. -/
theorem room {slots : List Slot} (h : Conn child .serving (slots.filterMap Slot.promise) bodies)
    (hopen : child.closed = false) {slot : Slot} (hslot : slot ∈ slots) (hfree : slot.promise = none) :
    child.pending.size < slots.length := by
  have hsub : child.pending.entries.map (fun e => e.2.promise) ⊆ slots.filterMap Slot.promise := by
    intro promise hmem
    obtain ⟨e, he, rfl⟩ := List.mem_map.mp hmem
    exact h.held rfl hopen e.1 e.2 (Table.mem_entries_iff.mp he)
  have hle := (List.subperm_of_subset h.inv.promises_nodup hsub).length_le
  rw [List.length_map] at hle
  have hlt : (slots.filterMap Slot.promise).length < slots.length :=
    List.length_filterMap_lt_length_iff_exists.mpr ⟨slot, hslot, hfree⟩
  exact lt_of_le_of_lt hle hlt

/-- A slot sends a request. -/
theorem send (h : Conn child .serving waits bodies) {socket : Client.Socket} {opcode : Nat} {body : Bytes}
    {parse : Client.Parser (Option Rpc.Job)} (hopcode : opcode < 256) (hfits : body.length + 5 ≤ Client.maxFrame)
    (hroom : child.closed = false → child.pending.size < child.settings.maxPendingRequests)
    (hnext : child.send socket opcode body parse = some child') {waits' : List Nat}
    (hwaits : ∀ promise ∈ waits, promise ∈ waits') (hnew : child.sent.length ∈ waits') :
    Conn child' .serving waits' (bodies ++ if opcode = 9 then [body] else []) := by
  have hstage := h.serving rfl
  obtain ⟨hsettings, hstage', -, id, hsent⟩ := Client.State.send_kept hnext
  have hissued : child'.closed = false → child.closed = false ∧ ∃ id, child.Issued child' opcode body parse id := by
    intro hopen
    have hopen' := Client.State.send_open hnext hopen
    exact ⟨hopen', Client.State.send_issued hopen' (hroom hopen') hfits hnext hopen⟩
  refine ⟨h.inv.send (Or.inl hstage) hnext, hsettings ▸ h.token, nofun, nofun, fun _ => hstage'.trans hstage, nofun,
    fun _ hopen id pending hlookup => ?_, fun hopen promise reason hmem => ?_, fun hopen => ?_⟩
  · obtain ⟨hopen', id', hid⟩ := hissued hopen
    rw [hid.pending, Table.lookup_insert_ite] at hlookup
    split_ifs at hlookup
    · rw [← Option.some.inj hlookup]
      exact hnew
    · exact hwaits _ (h.held rfl hopen' id pending hlookup)
  · obtain ⟨hopen', id', hid⟩ := hissued hopen
    rw [hid.settled] at hmem
    exact h.honest hopen' promise reason hmem
  · obtain ⟨hopen', id', hid⟩ := hissued hopen
    obtain ⟨frame, hframe, hframes⟩ := hid.frames
    rw [hframes, completeFrames_append, h.frames hopen', completeFrames_envelope hopcode hframe]

/-- HELLO is sent. -/
theorem greet (h : Conn child phase waits bodies) {socket : Client.Socket} (hstage : child.stage = .connected)
    (hnext : child.next none (.greet socket) = some child') : Conn child' phase waits bodies := by
  have hsent : child.sent = [] := h.inv.young (Or.inr hstage)
  have hempty : child.pending = ∅ := by
    apply Client.State.eq_empty_of_lookup
    intro id
    by_contra hne
    obtain ⟨pending, hlookup⟩ := Option.ne_none_iff_exists'.mp hne
    obtain ⟨-, -, since, -, hget⟩ := h.inv.known id pending hlookup
    rw [hsent] at hget
    cases hget
  have hsend : Client.State.send socket 1 child.settings.hello (Client.helloParser none)
    { child with stage := .greeting child.sent.length } = some child' := hnext
  obtain ⟨hsettings, hstage', -, id, hsent'⟩ := Client.State.send_kept hsend
  have hfits : child.settings.hello.length + 5 ≤ Client.maxFrame := by
    have := h.token
    simp only [Client.Settings.hello, List.length_append, Bytes.length_toBe, Client.maxFrame]
    omega
  have hissued : child'.closed = false → child.closed = false ∧ ∃ id, Client.State.Issued
      { child with stage := .greeting child.sent.length } child' 1 child.settings.hello (Client.helloParser none) id := by
    intro hopen
    have hopen' := Client.State.send_open hsend hopen
    refine ⟨hopen', Client.State.send_issued hopen' ?_ hfits hsend hopen⟩
    rw [hempty]
    exact h.inv.limit.1
  have hyoung : ∀ {P : Prop}, child.stage = .opened → P := by
    intro P hopened
    rw [hstage] at hopened
    cases hopened
  refine ⟨h.inv.step (show child.Enabled (.greet socket) from hstage) hnext, hsettings ▸ h.token, fun _ => ⟨?_, fun hopened => ?_⟩,
    fun promise hphase => hyoung (h.registering promise hphase).1, fun hphase => hyoung (h.serving hphase),
    fun hphase => ?_, fun hphase => hyoung (h.serving hphase), fun hopen promise reason hmem => ?_, fun hopen => ?_⟩
  · rw [hsent', hsent]
    exact le_rfl
  · rw [hopened] at hstage'
    cases hstage'
  · by_contra hopen
    have hopen' := (hissued (Bool.not_eq_true _ ▸ hopen)).1
    rw [h.failed hphase] at hopen'
    cases hopen'
  · obtain ⟨hopen', id', hid⟩ := hissued hopen
    rw [hid.settled] at hmem
    exact h.honest hopen' promise reason hmem
  · obtain ⟨hopen', id', hid⟩ := hissued hopen
    obtain ⟨frame, hframe, hframes⟩ := hid.frames
    have hnone : completeFrames [frame] = [] := completeFrames_envelope (by decide) hframe
    rw [hframes, completeFrames_append, hnone, List.append_nil]
    exact h.frames hopen'

/-- What `open`, the socket and its peer do. -/
theorem ambient (h : Conn child phase waits bodies) {op : Client.Op (Option Rpc.Job)} (hop : Ambient op)
    (henabled : child.Enabled op) (hnext : child.next none op = some child') :
    Conn child' phase waits bodies ∧ child'.settings = child.settings ∧
      (child'.closed = false → child.closed = false) := by
  by_cases hgreet : ∃ socket, op = .greet socket
  · obtain ⟨socket, rfl⟩ := hgreet
    have hsend : Client.State.send socket 1 child.settings.hello (Client.helloParser none)
      { child with stage := .greeting child.sent.length } = some child' := hnext
    have hmono := Client.State.send_open hsend
    exact ⟨h.greet henabled hnext, (Client.State.send_kept hsend).1, hmono⟩
  · have hmoved := Client.State.moved_step h.inv henabled (fun socket heq => hgreet ⟨socket, heq⟩)
      (fun socket opcode body parse heq => by
        rw [heq] at hop
        exact hop) hnext
    exact ⟨h.moved (h.inv.step henabled hnext) hmoved, hmoved.settings, fun hopen => (hmoved.passive hopen).closed⟩

/-- When every promise is settled nothing is waited for. -/
theorem settled_all (h : Conn child phase waits bodies)
    (hsettled : ∀ promise < child.sent.length, promise ∈ child.settled.map Prod.fst) : child.pending = ∅ := by
  apply Client.State.eq_empty_of_lookup
  intro id
  by_contra hne
  obtain ⟨pending, hlookup⟩ := Option.ne_none_iff_exists'.mp hne
  obtain ⟨-, -, since, -, hget⟩ := h.inv.known id pending hlookup
  exact h.inv.waiting id pending hlookup (hsettled _ (List.getElem?_eq_some_iff.mp hget).1)

/-- `handle` fails with a closed connection. -/
theorem abandon (h : Conn child phase waits bodies) (hclosed : child.closed = true) : Conn child .failed waits bodies :=
  { h with
    opening := nofun
    registering := nofun
    serving := nofun
    failed := fun _ => hclosed
    held := nofun }

/-- The registration is sent. -/
theorem announce (h : Conn child .opening waits bodies) (hstage : child.stage = .opened) {socket : Client.Socket}
    {registration : Bytes} {parse : Client.Parser (Option Rpc.Job)} (hfits : registration.length + 5 ≤ Client.maxFrame)
    (hsend : child.send socket 6 registration parse = some child') :
    Conn child' (.registering child.sent.length) waits bodies := by
  obtain ⟨hsettings, hstage', hfirst, id, hsent⟩ := Client.State.send_kept hsend
  obtain ⟨-, hsettled⟩ := h.opening rfl
  have hempty := h.settled_all (hsettled hstage)
  have hissued : child'.closed = false →
      child.closed = false ∧ ∃ id, child.Issued child' 6 registration parse id := by
    intro hopen
    have hopen' := Client.State.send_open hsend hopen
    refine ⟨hopen', Client.State.send_issued hopen' ?_ hfits hsend hopen⟩
    rw [hempty]
    exact h.inv.limit.1
  refine ⟨h.inv.send (Or.inl hstage) hsend, hsettings ▸ h.token, nofun, fun promise hphase => ?_, nofun, nofun, nofun,
    fun hopen promise reason hmem => ?_, fun hopen => ?_⟩
  · rw [← Phase.registering.inj hphase, hsent, List.length_append]
    exact ⟨hstage'.trans hstage, rfl, fun earlier hlt => (hfirst.map Prod.fst).subset (hsettled hstage earlier hlt)⟩
  · obtain ⟨hopen', id', hid⟩ := hissued hopen
    rw [hid.settled] at hmem
    exact h.honest hopen' promise reason hmem
  · obtain ⟨hopen', id', hid⟩ := hissued hopen
    obtain ⟨frame, hframe, hframes⟩ := hid.frames
    have hnone : completeFrames [frame] = [] := completeFrames_envelope (by decide) hframe
    rw [hframes, completeFrames_append, hnone, List.append_nil]
    exact h.frames hopen'

end Conn

/-! ### The slots -/

section Slots

variable {slots : List Slot} {i : Nat} {old new : Slot}

theorem mem_waits_set (hold : slots[i]? = some old) {promise : Nat} (h : promise ∈ slots.filterMap Slot.promise) :
    promise ∈ (slots.set i new).filterMap Slot.promise ∨ old.promise = some promise := by
  obtain ⟨slot, hslot, hpromise⟩ := List.mem_filterMap.mp h
  obtain ⟨j, hj⟩ := List.mem_iff_getElem?.mp hslot
  by_cases hij : i = j
  · subst hij
    rw [Option.some.inj (hold.symm.trans hj)]
    exact Or.inr hpromise
  · left
    refine List.mem_filterMap.mpr ⟨slot, List.mem_iff_getElem?.mpr ⟨j, ?_⟩, hpromise⟩
    rw [List.getElem?_set_ne hij, hj]

theorem mem_waits_new (hold : slots[i]? = some old) {promise : Nat} (hnew : new.promise = some promise) :
    promise ∈ (slots.set i new).filterMap Slot.promise :=
  List.mem_filterMap.mpr ⟨new, List.mem_set (List.getElem?_eq_some_iff.mp hold).1 _, hnew⟩

theorem jobs_set (hold : slots[i]? = some old) (j : Nat) :
    ((slots.set i new)[j]?.map Slot.jobs).getD [] =
      if i = j then new.jobs else (slots[j]?.map Slot.jobs).getD [] := by
  by_cases hij : i = j
  · subst hij
    rw [List.getElem?_set_self (List.getElem?_eq_some_iff.mp hold).1, if_pos rfl]
    rfl
  · rw [List.getElem?_set_ne hij, if_neg hij]

end Slots

theorem jobsOf_started (i j : Nat) (slot : Slot) (log : List Entry) :
    jobsOf j (log ++ slot.started i) = jobsOf j log ++ if i = j then slot.jobs else [] := by
  unfold jobsOf
  rw [List.filterMap_append]
  cases slot <;> by_cases hij : i = j <;> simp [Slot.started, Slot.jobs, hij]

theorem jobsOf_completed (i j : Nat) (job : Rpc.Job) (outcome : Outcome) (status : Nat) (output : Bytes)
    (log : List Entry) : jobsOf j (log ++ [.completed i job outcome status output]) = jobsOf j log := by
  unfold jobsOf
  rw [List.filterMap_append]
  exact List.append_nil _

theorem completionsOf_started (i j : Nat) (slot : Slot) (log : List Entry) :
    completionsOf j (log ++ slot.started i) = completionsOf j log := by
  unfold completionsOf
  rw [List.filterMap_append]
  cases slot <;> exact List.append_nil _

theorem completionsOf_completed (i j : Nat) (job : Rpc.Job) (outcome : Outcome) (status : Nat) (output : Bytes)
    (log : List Entry) : completionsOf j (log ++ [.completed i job outcome status output]) =
      completionsOf j log ++ if i = j then [job] else [] := by
  unfold completionsOf
  rw [List.filterMap_append]
  by_cases hij : i = j <;> simp [hij]

theorem completeBodies_started (i : Nat) (slot : Slot) (log : List Entry) :
    completeBodies (log ++ slot.started i) = completeBodies log := by
  unfold completeBodies
  rw [List.filterMap_append]
  cases slot <;> exact List.append_nil _

theorem started_faithful {i : Nat} {slot : Slot} {entry : Entry} (h : entry ∈ slot.started i) : entry.Faithful := by
  cases slot with
  | executing job =>
      rw [List.mem_singleton.mp h]
      trivial
  | _ => cases h

/-! ### The invariant -/

/-- What closes a service from outside: nothing a handler does. -/
def Cause.External : Cause → Prop
  | closed => True
  | lost => True
  | refused reason => ∃ code message, reason = .broker code message
  | escaped _ => False

/-- A slot that goes on, or whose TAKE or COMPLETE the broker refused. -/
def Slot.Alive (slot : Slot) : Prop :=
  slot ≠ .returned ∧ ∀ cause, slot = .threw cause → ∃ code message, cause = .refused (.broker code message)

/-- Every job a slot got is completed, up to the one it is at. -/
def Rounds (slots : List Slot) (log : List Entry) : Prop :=
  ∀ i, jobsOf i log = completionsOf i log ++ (slots[i]?.map Slot.jobs).getD []

structure State.Inv (s : State) (concurrency : Nat) : Prop where
  conn : Conn s.child s.phase (s.slots.filterMap Slot.promise) (completeBodies s.log)
  limit : s.child.settings.maxPendingRequests = concurrency
  serving : s.phase = .serving → s.slots.length = concurrency
  idle : s.phase ≠ .serving → s.slots = []
  lost : s.phase = .serving → s.child.closed = true → s.stopped = true
  closed : s.stopped = true → s.child.closed = true ∧ ∃ cause, s.cause = some cause ∧ cause.External
  alive : s.stopped = false → ∀ slot ∈ s.slots, slot.Alive
  rounds : s.stopped = false → Rounds s.slots s.log
  faithful : ∀ entry ∈ s.log, entry.Faithful

namespace State

variable {s t : State} {n : Nat}

theorem Inv.stop (h : s.Inv n) {cause : Cause} (hcause : s.stopped = false → cause.External) : (s.stop cause).Inv n := by
  unfold State.stop
  split_ifs with hstopped
  · exact h
  · exact {
      conn := h.conn.fail nofun
      limit := (Client.State.fail_settings _ _ ▸ h.limit :)
      serving := h.serving
      idle := h.idle
      lost := fun _ _ => rfl
      closed := fun _ => ⟨Client.State.fail_closed _ _, cause, rfl, hcause (Bool.not_eq_true _ ▸ hstopped)⟩
      alive := nofun
      rounds := nofun
      faithful := h.faithful }

/-- A step that changes the connection, the slots and the log. -/
theorem Inv.follow (h : s.Inv n) {child : Client.State (Option Rpc.Job)} {slots : List Slot} {log : List Entry}
    (hconn : Conn child s.phase (slots.filterMap Slot.promise) (completeBodies log))
    (hsettings : child.settings = s.child.settings) (hmono : child.closed = false → s.child.closed = false)
    (hlength : slots.length = s.slots.length)
    (halive : s.stopped = false → (s.phase = .serving → child.closed = false) → ∀ slot ∈ slots, slot.Alive)
    (hrounds : s.stopped = false → (s.phase = .serving → child.closed = false) → Rounds slots log)
    (hfaithful : ∀ entry ∈ log, entry.Faithful) : Inv { s.follow child with slots := slots, log := log } n := by
  have hidle : s.phase ≠ .serving → slots = [] := by
    intro hphase
    apply List.eq_nil_of_length_eq_zero
    rw [hlength, h.idle hphase]
    rfl
  have hkept : s.stopped = true → child.closed = true := by
    intro hstopped
    by_contra hopen
    have hopen' := hmono (Bool.not_eq_true _ ▸ hopen)
    rw [(h.closed hstopped).1] at hopen'
    cases hopen'
  unfold State.follow
  dsimp only
  split_ifs with hlost
  · obtain ⟨hphase, hclosed⟩ := hlost
    unfold State.stop
    split_ifs with hstopped
    · have hstopped' : s.stopped = true := hstopped
      exact {
        conn := hconn
        limit := hsettings ▸ h.limit
        serving := fun hphase => hlength.trans (h.serving hphase)
        idle := hidle
        lost := fun _ _ => hstopped
        closed := fun _ => ⟨hclosed, (h.closed hstopped').2⟩
        alive := fun hopen => by
          rw [hstopped'] at hopen
          cases hopen
        rounds := fun hopen => by
          rw [hstopped'] at hopen
          cases hopen
        faithful := hfaithful }
    · exact {
        conn := hconn.fail nofun
        limit := by
          dsimp only
          rw [Client.State.fail_settings, hsettings, h.limit]
        serving := fun hphase => hlength.trans (h.serving hphase)
        idle := hidle
        lost := fun _ _ => rfl
        closed := fun _ => ⟨Client.State.fail_closed _ _, .lost, rfl, trivial⟩
        alive := nofun
        rounds := nofun
        faithful := hfaithful }
  · have hopen : s.phase = .serving → child.closed = false := by
      intro hphase
      by_contra hclosed
      exact hlost ⟨hphase, Bool.not_eq_false _ ▸ hclosed⟩
    exact {
      conn := hconn
      limit := hsettings ▸ h.limit
      serving := fun hphase => hlength.trans (h.serving hphase)
      idle := hidle
      lost := fun hphase hclosed => absurd ((hopen hphase).symm.trans hclosed) Bool.false_ne_true
      closed := fun hstopped => ⟨hkept hstopped, (h.closed hstopped).2⟩
      alive := fun hstopped => halive hstopped hopen
      rounds := fun hstopped => hrounds hstopped hopen
      faithful := hfaithful }

/-- A step of a slot that leaves the connection alone. -/
theorem Inv.follow_self (h : s.Inv n) : s.follow s.child = s := by
  unfold State.follow
  dsimp only
  split_ifs with hlost
  · exact if_pos (h.lost hlost.1 hlost.2)
  · rfl

/-- A slot has something to do only in a service that is in use. -/
theorem Inv.serving_of_slot (h : s.Inv n) {i : Nat} {slot : Slot} (hslot : s.slots[i]? = some slot) :
    s.phase = .serving := by
  by_contra hphase
  rw [h.idle hphase] at hslot
  cases hslot

/-- One slot changes, with the connection and the log. -/
theorem Inv.set (h : s.Inv n) {i : Nat} {old : Slot} (new : Slot) (child : Client.State (Option Rpc.Job))
    (log : List Entry) (hold : s.slots[i]? = some old)
    (hconn : Conn child .serving ((s.slots.set i new).filterMap Slot.promise) (completeBodies log))
    (hsettings : child.settings = s.child.settings) (hmono : child.closed = false → s.child.closed = false)
    (halive : s.stopped = false → child.closed = false → new.Alive)
    (hrounds : s.stopped = false → child.closed = false → Rounds (s.slots.set i new) log)
    (hfaithful : ∀ entry ∈ log, entry.Faithful) :
    Inv { (s.follow child).setSlot i new with log := log } n := by
  have hphase := h.serving_of_slot hold
  have hsame : { (s.follow child).setSlot i new with log := log } =
      { s.follow child with slots := s.slots.set i new, log := log } := by
    unfold State.follow
    dsimp only
    split_ifs
    · unfold State.stop
      split_ifs <;> rfl
    · rfl
  rw [hsame]
  apply h.follow (hphase ▸ hconn) hsettings hmono List.length_set _ _ hfaithful
  · intro hstopped hopen slot hmem
    obtain hold' | hnew := List.mem_or_eq_of_mem_set hmem
    · exact h.alive hstopped slot hold'
    · rw [hnew]
      exact halive hstopped (hopen hphase)
  · exact fun hstopped hopen => hrounds hstopped (hopen hphase)

/-- A slot of a closed service returns. -/
theorem Inv.quit (h : s.Inv n) {i : Nat} {old : Slot} (hold : s.slots[i]? = some old) (hfree : old.promise = none)
    (hstopped : s.stopped = true) : (s.setSlot i .returned).Inv n := by
  have hconn := h.serving_of_slot hold ▸ h.conn
  have hrunning : ∀ {P : Prop}, s.stopped = false → P := by
    intro P hrunning
    rw [hstopped] at hrunning
    cases hrunning
  have hset := h.set .returned s.child s.log hold (hconn.rewait fun promise hmem => ?_)
    rfl id hrunning hrunning h.faithful
  · rw [h.follow_self] at hset
    exact hset
  · apply (mem_waits_set hold hmem).imp_right
    rw [hfree]
    nofun

theorem Inv.onFailure (h : s.Inv n) {i : Nat} {cause : Cause} (hslot : s.slots[i]? = some (.threw cause)) :
    ((s.stop cause).setSlot i .returned).Inv n := by
  have hexternal : s.stopped = false → cause.External := by
    intro hrunning
    obtain ⟨code, message, rfl⟩ := (h.alive hrunning _ (List.mem_iff_getElem?.mpr ⟨i, hslot⟩)).2 cause rfl
    exact ⟨code, message, rfl⟩
  have hstop := h.stop hexternal
  have hslots : (s.stop cause).slots = s.slots := by
    unfold State.stop
    split_ifs <;> rfl
  have hstopped : (s.stop cause).stopped = true := by
    unfold State.stop
    split_ifs with hstopped
    · exact hstopped
    · rfl
  exact hstop.quit (hslots ▸ hslot) rfl hstopped

/-- A slot goes on with what its promise was settled with, and may start on a job. -/
theorem Inv.resume (h : s.Inv n) {i promise : Nat} {old : Slot} (new : Slot) {outcome : Client.Settlement (Option Rpc.Job)}
    (hold : s.slots[i]? = some old) (hpromise : old.promise = some promise) (hidle : old.jobs = [])
    (hsettled : (promise, outcome) ∈ s.child.settled)
    (hnew : (∃ reason, outcome = .rejected reason ∧ new = .threw (.refused reason)) ∨
      s.stopped = true ∧ new = .returned ∨ new = .ready ∨ ∃ job, new = .executing job) :
    Inv { s.setSlot i new with log := s.log ++ new.started i } n := by
  have hphase := h.serving_of_slot hold
  have hset := h.set new s.child (s.log ++ new.started i) hold ?_ rfl id ?_ ?_ ?_
  · rw [h.follow_self] at hset
    exact hset
  · rw [completeBodies_started]
    refine (hphase ▸ h.conn).rewait fun promise' hmem => (mem_waits_set hold hmem).imp_right fun hsame => ?_
    rw [← Option.some.inj (hpromise.symm.trans hsame)]
    exact List.mem_map_of_mem hsettled
  · intro hstopped hopen
    obtain ⟨reason, rfl, rfl⟩ | ⟨hstopped', -⟩ | rfl | ⟨job, rfl⟩ := hnew
    · refine ⟨nofun, fun cause hcause => ?_⟩
      obtain ⟨code, message, rfl⟩ := h.conn.honest hopen promise reason hsettled
      exact ⟨code, message, (Slot.threw.inj hcause).symm⟩
    · rw [hstopped] at hstopped'
      cases hstopped'
    · exact ⟨nofun, nofun⟩
    · exact ⟨nofun, nofun⟩
  · intro hstopped _ j
    rw [jobs_set hold, jobsOf_started, completionsOf_started, h.rounds hstopped j]
    by_cases hij : i = j
    · subst hij
      rw [if_pos rfl, if_pos rfl, hold, Option.map_some, Option.getD_some, hidle, List.append_nil]
    · rw [if_neg hij, if_neg hij, List.append_nil]
  · intro entry hmem
    exact (List.mem_append.mp hmem).elim (h.faithful entry) started_faithful

/-- A slot that waits for nothing finds room for a request. -/
theorem Inv.room (h : s.Inv n) {i : Nat} {old : Slot} (hold : s.slots[i]? = some old) (hfree : old.promise = none)
    (hopen : s.child.closed = false) : s.child.pending.size < s.child.settings.maxPendingRequests := by
  have hphase := h.serving_of_slot hold
  have hconn := hphase ▸ h.conn
  rw [h.limit, ← h.serving hphase]
  exact hconn.room hopen (List.mem_iff_getElem?.mpr ⟨i, hold⟩) hfree

/-- A slot sends TAKE or COMPLETE and waits. -/
theorem Inv.request (h : s.Inv n) {i : Nat} {old new : Slot} (hold : s.slots[i]? = some old)
    (hfree : old.promise = none) (hnew : new = .taking s.child.sent.length ∨ new = .completing s.child.sent.length)
    {socket : Client.Socket} {opcode : Nat} {body : Bytes} {parse : Client.Parser (Option Rpc.Job)}
    {child : Client.State (Option Rpc.Job)} {log : List Entry} (hopcode : opcode < 256)
    (hfits : body.length + 5 ≤ Client.maxFrame) (hsend : s.child.send socket opcode body parse = some child)
    (hlog : completeBodies log = completeBodies s.log ++ if opcode = 9 then [body] else [])
    (hrounds : s.stopped = false → Rounds (s.slots.set i new) log) (hfaithful : ∀ entry ∈ log, entry.Faithful) :
    Inv { (s.follow child).setSlot i new with log := log } n := by
  have hpromise : new.promise = some s.child.sent.length := by
    obtain rfl | rfl := hnew <;> rfl
  apply h.set new child log hold _ (Client.State.send_kept hsend).1 (Client.State.send_open hsend) _
    (fun hstopped _ => hrounds hstopped) hfaithful
  · rw [hlog]
    have hconn := h.serving_of_slot hold ▸ h.conn
    apply hconn.send hopcode hfits (h.room hold hfree) hsend _ (mem_waits_new hold hpromise)
    intro promise hmem
    apply (mem_waits_set hold hmem).resolve_right
    rw [hfree]
    nofun
  · intro _ _
    obtain rfl | rfl := hnew <;> exact ⟨nofun, nofun⟩

end State

/-! ### Runs -/

/-- A handler ends in a way that a COMPLETE can tell. -/
def Op.Printable : Op → Prop
  | .settle _ outcome _ => outcome.Printable
  | _ => True

/-- The runs in which every handler does. -/
def printable (setup : Setup) : Transition State Op where
  start := (machine setup).start
  step s op t := op.Printable ∧ s.Step setup op t

/-- There is room for what the broker reads. -/
theorem length_completeBody {outcome : Outcome} {status : Nat} {output : Bytes} (h : Client.Tells outcome status output)
    (job : Rpc.Job) : (completeBody job status output).length + 5 ≤ Client.maxFrame := by
  obtain ⟨⟨-, hfits, -⟩, -, -⟩ := decodeRequest_eq_ok.mp (h.2 0)
  change output.length ≤ 262144 at hfits
  simp only [completeBody, Client.complete, List.length_append, Bytes.length_toBe, Client.maxFrame]
  omega

namespace State

variable {s t : State} {n : Nat} {setup : Setup}

theorem Inv.serve (h : s.Inv n) {promise : Nat} {value : Option Rpc.Job} (hphase : s.phase = .registering promise)
    (hsettled : (promise, .resolved value) ∈ s.child.settled) (hopen : s.child.closed = false) :
    Inv { s with phase := .serving, slots := List.replicate n .ready } n := by
  have hslots : s.slots = [] := by
    apply h.idle
    rw [hphase]
    nofun
  have hrunning : s.stopped = false := by
    by_contra hstopped
    rw [(h.closed (Bool.not_eq_false _ ▸ hstopped)).1] at hopen
    cases hopen
  obtain ⟨hstage, hlength, hearlier⟩ := h.conn.registering promise hphase
  have hempty : s.child.pending = ∅ := by
    apply h.conn.settled_all
    intro promise' hlt
    rw [hlength] at hlt
    obtain hbefore | rfl := Nat.lt_succ_iff_lt_or_eq.mp hlt
    · exact hearlier promise' hbefore
    · exact List.mem_map_of_mem hsettled
  have hready : ∀ slot ∈ List.replicate n Slot.ready, slot = .ready := fun slot hslot =>
    (List.mem_replicate.mp hslot).2
  exact {
    conn := { h.conn with
      opening := nofun
      registering := nofun
      serving := fun _ => hstage
      failed := nofun
      held := fun _ _ id pending hlookup => by
        rw [hempty] at hlookup
        cases hlookup }
    limit := h.limit
    serving := fun _ => List.length_replicate
    idle := fun hphase => absurd rfl hphase
    lost := fun _ hclosed => by
      rw [hopen] at hclosed
      cases hclosed
    closed := h.closed
    alive := fun _ slot hslot => by
      rw [hready slot hslot]
      exact ⟨nofun, nofun⟩
    rounds := fun _ i => by
      have hrounds := h.rounds hrunning i
      rw [hslots] at hrounds
      rw [hrounds, List.getElem?_replicate]
      split_ifs <;> rfl
    faithful := h.faithful }

/-- A service that is not in use yet fails or is closed. -/
theorem Inv.unused (h : s.Inv n) (hslots : s.slots = []) (phase : Phase) (hphase : phase ≠ .serving)
    {child : Client.State (Option Rpc.Job)} {stopped : Bool} {cause : Option Cause}
    (hconn : Conn child phase [] (completeBodies s.log)) (hsettings : child.settings = s.child.settings)
    (hclosed : stopped = true → child.closed = true ∧ ∃ reason, cause = some reason ∧ reason.External)
    (hrunning : stopped = false → s.stopped = false) :
    Inv { s with child := child, phase := phase, stopped := stopped, cause := cause } n where
  conn := by
    dsimp only
    rw [hslots]
    exact hconn
  limit := hsettings ▸ h.limit
  serving heq := absurd heq hphase
  idle _ := hslots
  lost heq := absurd heq hphase
  closed := hclosed
  alive hstopped := h.alive (hrunning hstopped)
  rounds hstopped := h.rounds (hrunning hstopped)
  faithful := h.faithful

theorem Inv.step (h : s.Inv n) (hn : setup.concurrency = .ok n) {op : Op} (hop : op.Printable)
    (hstep : s.Step setup op t) : t.Inv n := by
  cases op with
  | child op =>
      obtain ⟨hambient, child, ⟨henabled, hnext⟩, rfl⟩ := hstep
      obtain ⟨hconn, hsettings, hmono⟩ := h.conn.ambient hambient henabled hnext
      have hsame : s.follow child = { s.follow child with slots := s.slots, log := s.log } := by
        unfold State.follow State.stop
        dsimp only
        split_ifs <;> rfl
      rw [hsame]
      exact h.follow hconn hsettings hmono rfl (fun hstopped _ => h.alive hstopped)
        (fun hstopped _ => h.rounds hstopped) h.faithful
  | announce socket =>
      obtain ⟨hphase, registration, child, hhandle, ⟨henabled, hnext⟩, rfl⟩ := hstep
      have hsend : s.child.send socket 6 registration Client.emptyParser = some child := hnext
      have hslots : s.slots = [] := by
        apply h.idle
        rw [hphase]
        nofun
      have hconn := hphase ▸ h.conn
      rw [hslots] at hconn
      have hmono := Client.State.send_open hsend
      apply h.unused hslots (.registering s.child.sent.length) nofun
        (hconn.announce henabled.1 (Client.handle_ok hhandle).1 hsend) (Client.State.send_kept hsend).1 _ id
      intro hstopped
      refine ⟨?_, (h.closed hstopped).2⟩
      by_contra hopen
      have hopen' := hmono (Bool.not_eq_true _ ▸ hopen)
      rw [(h.closed hstopped).1] at hopen'
      cases hopen'
  | serve =>
      obtain ⟨promise, value, concurrency, hphase, hsettled, hopen, hconcurrency, rfl⟩ := hstep
      obtain rfl := Except.ok.inj (hn.symm.trans hconcurrency)
      exact h.serve hphase hsettled hopen
  | abandon =>
      obtain ⟨hphase, rfl⟩ := hstep
      have hslots : s.slots = [] := by
        apply h.idle
        rintro hserving
        rw [hserving] at hphase
        obtain hphase | ⟨promise, hphase⟩ := hphase <;> cases hphase
      have hconn := h.conn
      rw [hslots] at hconn
      unfold State.stop
      split_ifs with hstopped
      · exact h.unused hslots .failed nofun (hconn.abandon (h.closed hstopped).1) rfl h.closed id
      · have hfail : Conn (s.child.fail (.connectionClosed Client.closedMessage)) s.phase [] (completeBodies s.log) :=
          hconn.fail nofun
        exact h.unused hslots .failed nofun (hfail.abandon (Client.State.fail_closed _ _))
          (Client.State.fail_settings _ _) (fun _ => ⟨Client.State.fail_closed _ _, .closed, rfl, trivial⟩) nofun
  | close =>
      obtain rfl : t = _ := hstep
      split_ifs with hphase
      · have hslots : s.slots = [] := by
          apply h.idle
          rw [hphase]
          nofun
        have hconn := h.conn
        rw [hslots] at hconn
        exact h.unused hslots s.phase (by rw [hphase]; nofun) (hconn.fail nofun) (Client.State.fail_settings _ _)
          (fun hstopped => ⟨Client.State.fail_closed _ _, (h.closed hstopped).2⟩) id
      · exact h.stop fun _ => trivial
  | onFailure slot =>
      obtain ⟨cause, hslot, rfl⟩ := hstep
      exact h.onFailure hslot
  | take slot socket =>
      obtain ⟨hslot, hstep⟩ := hstep
      split_ifs at hstep with hstopped
      · rw [hstep]
        exact h.quit hslot rfl hstopped
      · obtain ⟨child, ⟨-, hnext⟩, rfl⟩ := hstep
        have hsend : s.child.send socket 8 Client.take Client.takenParser = some child := hnext
        have hsame : (s.follow child).setSlot slot (.taking s.child.sent.length) =
            { (s.follow child).setSlot slot (.taking s.child.sent.length) with log := s.log } := by
          unfold State.follow State.stop
          dsimp only
          split_ifs <;> rfl
        rw [hsame]
        apply h.request hslot rfl (Or.inl rfl) (by decide) (by decide) hsend (List.append_nil _).symm _ h.faithful
        intro hrunning j
        rw [jobs_set hslot, h.rounds hrunning j]
        by_cases hj : slot = j
        · subst hj
          rw [if_pos rfl, hslot]
          rfl
        · rw [if_neg hj]
  | taken slot =>
      obtain ⟨promise, outcome, hslot, hsettled, rfl⟩ := hstep
      apply h.resume (.afterTake s.stopped outcome) hslot rfl rfl hsettled
      cases outcome with
      | rejected reason => exact Or.inl ⟨reason, rfl, rfl⟩
      | resolved value =>
          by_cases hstopped : s.stopped = true
          · exact Or.inr (Or.inl ⟨hstopped, if_pos hstopped⟩)
          · cases value with
            | none => exact Or.inr (Or.inr (Or.inl (if_neg hstopped)))
            | some job => exact Or.inr (Or.inr (Or.inr ⟨job, if_neg hstopped⟩))
  | settle slot outcome socket =>
      obtain ⟨job, hslot, hstep⟩ := hstep
      obtain ⟨status, payload, output, hsettle, hwritten, htells⟩ := Client.completed_of_printable hop
      rw [hsettle] at hstep
      dsimp only at hstep
      split_ifs at hstep with hstopped
      · rw [hstep]
        exact h.quit hslot rfl hstopped
      · rw [hwritten] at hstep
        obtain ⟨child, ⟨-, hnext⟩, rfl⟩ := hstep
        have hsend : s.child.send socket 9 (completeBody job status output) Client.emptyParser = some child := hnext
        apply h.request hslot rfl (Or.inr rfl) (by decide) (length_completeBody htells job) hsend
        · unfold completeBodies
          exact List.filterMap_append
        · intro hrunning j
          rw [jobs_set hslot, jobsOf_completed, completionsOf_completed, h.rounds hrunning j]
          by_cases hj : slot = j
          · subst hj
            rw [if_pos rfl, if_pos rfl, hslot]
            exact (List.append_nil _).symm
          · rw [if_neg hj, if_neg hj, List.append_nil]
        · intro entry hmem
          obtain hold | hnew := List.mem_append.mp hmem
          · exact h.faithful entry hold
          · rw [List.mem_singleton.mp hnew]
            exact htells
  | completed slot =>
      obtain ⟨promise, outcome, hslot, hsettled, rfl⟩ := hstep
      have hresume := h.resume (.afterComplete s.stopped outcome) hslot rfl rfl hsettled ?_
      · have hsame : s.setSlot slot (.afterComplete s.stopped outcome) =
            { s.setSlot slot (.afterComplete s.stopped outcome) with
              log := s.log ++ (Slot.afterComplete s.stopped outcome).started slot } := by
          have hnone : (Slot.afterComplete s.stopped outcome).started slot = [] := by
            unfold Slot.afterComplete
            cases outcome with
            | rejected reason => rfl
            | resolved value =>
                dsimp only
                split_ifs <;> rfl
          rw [hnone, List.append_nil]
          rfl
        rw [hsame]
        exact hresume
      · cases outcome with
        | rejected reason => exact Or.inl ⟨reason, rfl, rfl⟩
        | resolved value =>
            by_cases hstopped : s.stopped = true
            · exact Or.inr (Or.inl ⟨hstopped, if_pos hstopped⟩)
            · exact Or.inr (Or.inr (Or.inl (if_neg hstopped)))

theorem new_inv {options : Client.ConnectOptions} {checked : Client.Settings}
    (h : Client.settings { options with maxPendingRequests := .number n } = .ok checked) : (new checked).Inv n := by
  obtain ⟨⟨token, -, htoken, hfits⟩, -, hlimit, -⟩ := Client.settings_ok h
  have hlimit' : (n : ℚ) = checked.maxPendingRequests := Value.number.inj hlimit
  exact {
    conn := {
      inv := Client.State.new_inv h
      token := by
        rw [show (new checked).child.settings.token = checked.token from rfl, htoken, Bytes.length_utf8]
        exact hfits
      opening := fun _ => ⟨Nat.zero_le _, nofun⟩
      registering := nofun
      serving := nofun
      failed := nofun
      held := nofun
      honest := nofun
      frames := fun _ => rfl }
    limit := (Nat.cast_injective hlimit').symm
    serving := nofun
    idle := fun _ => rfl
    lost := nofun
    closed := nofun
    alive := nofun
    rounds := fun _ _ => rfl
    faithful := fun _ hmem => absurd hmem List.not_mem_nil }

theorem printable_inv {s : State} (h : (printable setup).Reachable s) :
    ∃ concurrency, setup.concurrency = .ok concurrency ∧ s.Inv concurrency := by
  apply h.invariant
  · intro s hstart
    obtain ⟨registration, concurrency, checked, -, hconcurrency, hchecked, rfl⟩ := hstart
    exact ⟨concurrency, hconcurrency, new_inv hchecked⟩
  · intro s op t _ hs hstep
    obtain ⟨concurrency, hconcurrency, hinv⟩ := hs
    exact ⟨concurrency, hconcurrency, hinv.step hconcurrency hstep.1 hstep.2⟩

/-- What holds of a service whose handlers all end in a way that a COMPLETE can tell. -/
structure Kept (setup : Setup) (s : State) : Prop where
  /-- No handler closes it. -/
  cause : s.stopped = true → ∃ cause, s.cause = some cause ∧ cause.External
  alive : s.stopped = false → ∀ slot ∈ s.slots, slot.Alive
  rounds : s.stopped = false → Rounds s.slots s.log
  faithful : ∀ entry ∈ s.log, entry.Faithful
  frames : s.child.closed = false → completeFrames s.child.frames = completeBodies s.log
  settles : s.stopped = false → ∀ i job outcome socket, s.slots[i]? = some (.executing job) →
    outcome.Printable →
    ∃ t status output, s.Step setup (.settle i outcome socket) t ∧
      t.slots = s.slots.set i (.completing s.child.sent.length) ∧
      t.log = s.log ++ [.completed i job outcome status output]
  answered : s.stopped = false → ∀ i promise value, s.slots[i]? = some (.completing promise) →
    (promise, .resolved value) ∈ s.child.settled → s.Step setup (.completed i) (s.setSlot i .ready)
  next : s.stopped = false → ∀ i socket, s.slots[i]? = some .ready →
    ∃ t, s.Step setup (.take i socket) t ∧ t.slots = s.slots.set i (.taking s.child.sent.length)

theorem Inv.kept (h : s.Inv n) : s.Kept setup := by
  have hreturns : ∀ (i : Nat) (slot : Slot), s.slots[i]? = some slot → ∀ socket opcode body parse, opcode < 256 →
      ∃ child, s.Calls (.send socket opcode body parse) child := by
    intro i slot hslot socket opcode body parse hopcode
    obtain ⟨child, hnext⟩ := h.conn.inv.returns none (.send socket opcode body parse)
    exact ⟨child, ⟨h.conn.serving (h.serving_of_slot hslot), hopcode⟩, hnext⟩
  have hslots : ∀ child, (s.follow child).slots = s.slots := by
    intro child
    unfold State.follow State.stop
    dsimp only
    split_ifs <;> rfl
  refine ⟨fun hstopped => (h.closed hstopped).2, h.alive, h.rounds, h.faithful, h.conn.frames,
    fun hrunning i job outcome socket hslot houtcome => ?_, fun hrunning i promise value hslot hsettled => ?_,
    fun hrunning i socket hslot => ?_⟩
  · obtain ⟨status, payload, output, hsettle, hwritten, -⟩ := Client.completed_of_printable houtcome
    obtain ⟨child, hcalls⟩ := hreturns i _ hslot socket 9 (completeBody job status output) Client.emptyParser (by decide)
    refine ⟨{ (s.follow child).setSlot i (.completing s.child.sent.length) with
      log := s.log ++ [.completed i job outcome status output] }, status, output, ⟨job, hslot, ?_⟩,
      congrArg (fun slots => slots.set i (.completing s.child.sent.length)) (hslots child), rfl⟩
    rw [hsettle]
    dsimp only
    rw [if_neg (by rw [hrunning]; exact Bool.false_ne_true), hwritten]
    exact ⟨child, hcalls, rfl⟩
  · refine ⟨promise, .resolved value, hslot, hsettled, ?_⟩
    rw [hrunning]
    rfl
  · obtain ⟨child, hcalls⟩ := hreturns i _ hslot socket 8 Client.take Client.takenParser (by decide)
    refine ⟨(s.follow child).setSlot i (.taking s.child.sent.length), ⟨hslot, ?_⟩,
      congrArg (fun slots => slots.set i (.taking s.child.sent.length)) (hslots child)⟩
    rw [if_neg (by rw [hrunning]; exact Bool.false_ne_true)]
    exact ⟨child, hcalls, rfl⟩

end State

namespace Sample

def setup : Setup :=
  ⟨Client.noOptions, .text (Text.ofString "sum"), .function, ⟨.number 1, .undefined, .undefined⟩⟩

def checked : Client.Settings := { Client.defaults with maxPendingRequests := 1 }

def accepts : Client.Socket := fun _ => .accepted

/-- What the connection of a service is after a step. -/
def ambient (op : Client.Op (Option Rpc.Job)) (s : State) : State := s.follow ((s.child.next none op).getD s.child)

/-- HELLO was accepted and the registration is sent. -/
def announced : State :=
  let s := ambient .opened (ambient (.data [129, 0, 0, 0, 1, 0, 1]) (ambient (.greet accepts)
    (ambient .connected (.new checked))))
  { s with
    child := (s.child.send accepts 6 [0, 3, 115, 117, 109, 0, 1, 0, 128] Client.emptyParser).getD s.child
    phase := .registering s.child.sent.length }

/-- The registration was accepted. -/
def served : State :=
  { ambient (.data [134, 0, 0, 0, 2]) announced with phase := .serving, slots := [.ready] }

/-- The slot asks for a job. -/
def asked : State :=
  (served.follow ((served.child.send accepts 8 Client.take Client.takenParser).getD served.child)).setSlot 0
    (.taking served.child.sent.length)

def job : Rpc.Job := ⟨5, 10, [7]⟩

/-- The slot has a job. -/
def busy : State :=
  let s := ambient (.data [136, 0, 0, 0, 3, 1, 0, 0, 0, 0, 0, 0, 0, 5, 0, 0, 0, 10, 0, 0, 0, 1, 7]) asked
  { s.setSlot 0 (.executing job) with log := s.log ++ [.took 0 job] }

theorem calls {s : State} (h : (printable setup).Reachable s) {op : Client.Op (Option Rpc.Job)}
    (hop : s.child.Enabled op) : s.Calls op ((s.child.next none op).getD s.child) := by
  obtain ⟨_, -, hinv⟩ := State.printable_inv h
  obtain ⟨child, hnext⟩ := hinv.conn.inv.returns none op
  refine ⟨hop, ?_⟩
  rw [hnext]
  rfl

theorem ambient_reachable {s : State} (h : (printable setup).Reachable s) (op : Client.Op (Option Rpc.Job))
    (hambient : Ambient op) (hop : s.child.Enabled op) : (printable setup).Reachable (ambient op s) :=
  h.step (l := .child op) ⟨trivial, hambient, _, calls h hop, rfl⟩

theorem served_reachable : (printable setup).Reachable served := by
  have h := Transition.Reachable.of_start (T := printable setup) (s := State.new checked)
    ⟨[0, 3, 115, 117, 109, 0, 1, 0, 128], 1, checked, by decide +kernel, by decide +kernel, by decide +kernel, rfl⟩
  have h := ambient_reachable h .connected trivial ⟨rfl, rfl⟩
  have h := ambient_reachable h (.greet accepts) trivial rfl
  have h := ambient_reachable h (.data [129, 0, 0, 0, 1, 0, 1]) trivial
    ⟨by decide, Nat.le_of_ble_eq_true rfl⟩
  have h := ambient_reachable h .opened trivial ⟨0, none, rfl, by decide⟩
  have h := h.step (l := Op.announce accepts) ⟨trivial, rfl, [0, 3, 115, 117, 109, 0, 1, 0, 128], _,
    by decide +kernel, calls h ⟨rfl, by decide⟩, rfl⟩
  have h := ambient_reachable h (.data [134, 0, 0, 0, 2]) trivial ⟨by decide, Nat.le_of_ble_eq_true rfl⟩
  exact h.step (l := Op.serve) ⟨trivial, 1, none, 1, by decide, by decide,
    by decide, by decide +kernel, rfl⟩

theorem busy_reachable : (printable setup).Reachable busy := by
  have h := served_reachable.step (l := Op.take 0 accepts) ⟨trivial, rfl, _,
    calls served_reachable ⟨by decide, by decide⟩, rfl⟩
  have h := ambient_reachable h
    (.data [136, 0, 0, 0, 3, 1, 0, 0, 0, 0, 0, 0, 0, 5, 0, 0, 0, 10, 0, 0, 0, 1, 7]) trivial
    ⟨by decide, Nat.le_of_ble_eq_true rfl⟩
  exact h.step (l := Op.taken 0) ⟨trivial, 2, .resolved (some job), by decide,
    by decide, rfl⟩

end Sample

/-- The handler throws an `Error`. -/
def Sample.thrown : Outcome := .threw (.error (.text (Text.ofString "no")))

/-- What `String` throws for it. -/
def Sample.unconvertible : Failure := .typeError "Cannot convert object to primitive value"

/-- The handler has thrown such an object. -/
def Sample.lost : State :=
  ((Sample.busy.setSlot 0 (.threw (.escaped Sample.unconvertible))).stop (.escaped Sample.unconvertible)).setSlot 0
    .returned

end VeloBus.Service
