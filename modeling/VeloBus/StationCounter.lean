import VeloBus.LinkServer
import VeloBus.RequestCodec
import VeloBus.StationDesk

/-! The broker's side of a worker: its tasks, the responses that wait for the writer and what was written. -/

namespace VeloBus.Connection

variable {token : String} {s t : State}

theorem State.Inv.task_id (h : s.Inv token) (hduplicates : s.duplicates = []) {index : Nat} {task : Task}
    (htask : s.tasks.lookup index = some task) : task.requestId ∈ s.ids := by
  obtain ⟨frame, howes, hserves⟩ := h.task index task htask
  exact (h.ids hduplicates _).mpr ⟨index, frame, howes, hserves.requestId.symm⟩

theorem State.Inv.task_single (h : s.Inv token) (hduplicates : s.duplicates = []) {index index' : Nat}
    {task task' : Task} (htask : s.tasks.lookup index = some task) (htask' : s.tasks.lookup index' = some task')
    (heq : task.requestId = task'.requestId) : index = index' := by
  obtain ⟨frame, howes, hserves⟩ := h.task index task htask
  obtain ⟨frame', howes', hserves'⟩ := h.task index' task' htask'
  exact h.single hduplicates index index' frame frame' howes howes'
    (hserves.requestId.symm.trans (heq.trans hserves'.requestId))

theorem State.Owes.of_same (htaken : t.taken = s.taken) (hanswered : t.answered = s.answered) {index : Nat}
    {frame : Frame} (h : t.Owes index frame) : s.Owes index frame := by
  unfold State.Owes at h ⊢
  rw [htaken, hanswered] at h
  exact h

theorem State.Owes.unique {index : Nat} {frame frame' : Frame} (h : s.Owes index frame) (h' : s.Owes index frame') :
    frame = frame' := Option.some.inj (h.2.1.symm.trans h'.2.1)

theorem Task.Serves.opcode_eq {task : Task} {index : Nat} {frame : Frame} (h : task.Serves index frame) :
    task.opcode = task.request.opcode := h.opcode.trans (decodeRequest_eq_ok.mp h.request).2.1.symm

theorem Response.answer_requestId (response : Response) : response.answer.requestId = response.requestId :=
  Frame.answer_requestId

end VeloBus.Connection

namespace VeloBus.Station

/-- Neither TAKE nor COMPLETE. -/
def Plain (frame : Frame) : Prop := frame.opcode ≠ 8 ∧ frame.opcode ≠ 9

/-- A written answer to a frame, which is no error if it answers TAKE or COMPLETE. -/
def Kind (frame : Frame) (bytes : Bytes) : Prop :=
  ¬Plain frame → ∃ body, bytes = envelope (frame.opcode ||| 128) frame.requestId body

/-- A task of the worker. -/
structure Desk.Works (d : Desk) (takes : Table Nat Progress) (index : Nat) (task : Connection.Task) : Prop where
  replies : ∀ response, task.response = some response → d.Tells task.opcode response.answer
  register : task.response = none → ∀ route concurrency queueLimit,
    task.request = .register route concurrency queueLimit → concurrency = d.concurrency
  take : task.response = none → ∀ waitMs, task.request = .take waitMs → d.Enlisted ∧
    ∀ take exit, takes.lookup index = some (.taken take exit) →
      ∃ taken, exit = .ok taken ∧ d.Hands (.answer task.requestId) taken
  complete : task.response = none → ∀ id failed payload, task.request = .complete id failed payload →
    d.Enlisted ∧ d.Bears (.complete task.requestId) id ∧ d.Reports id failed payload

/-- What waits for the writer. -/
def Desk.Responds (d : Desk) (server : Connection.State) (response : Connection.Response) : Prop :=
  ∀ frame, server.Owes response.frame frame → d.Tells frame.opcode response.answer

structure Desk.Counter (d : Desk) (server : Connection.State) (takes : Table Nat Progress) : Prop where
  tasks : ∀ index task, server.tasks.lookup index = some task → d.Works takes index task
  queued : ∀ response, server.responses = some response → d.Responds server response
  sending : ∀ response close, server.loop = .sending response close → d.Responds server response
  serves : ∀ index progress, takes.lookup index = some progress → d.sys.Takes d.worker progress.take ∧
    ∃ task waitMs, server.tasks.lookup index = some task ∧ task.response = none ∧ task.request = .take waitMs
  owned : ∀ take, d.sys.Takes d.worker take → ∃ index progress, takes.lookup index = some progress ∧
    progress.take = take
  apart : ∀ index index' progress progress', takes.lookup index = some progress →
    takes.lookup index' = some progress' → progress.take = progress'.take → index = index'
  honest : ∀ index error, (index, error) ∈ server.refused ++ server.failed →
    ∃ frame, server.taken[index]? = some frame ∧ Plain frame
  written : ∀ index bytes, (index, bytes) ∈ server.answered →
    ∃ frame, server.taken[index]? = some frame ∧ Kind frame bytes

namespace Desk

variable {d d' : Desk} {moved : Option Place} {takes takes' : Table Nat Progress} {server server' : Connection.State}
  {token : String}

theorem Works.keeps (hk : d.Keeps d' moved) {index : Nat} {task : Connection.Task} (h : d.Works takes index task)
    (hanswer : some (.answer task.requestId) ≠ moved) (hcomplete : some (.complete task.requestId) ≠ moved)
    (hreply : ∀ response, task.response = some response → response.answer.requestId = task.requestId)
    (htakes : takes'.lookup index = takes.lookup index) : d'.Works takes' index task where
  replies response hresponse := by
    apply hk.tells _ (h.replies response hresponse)
    rw [hreply response hresponse]
    exact hanswer
  register hnone route concurrency queueLimit hrequest := by
    rw [hk.concurrency]
    exact h.register hnone route concurrency queueLimit hrequest
  take hnone waitMs hrequest := by
    obtain ⟨henlisted, hands⟩ := h.take hnone waitMs hrequest
    refine ⟨hk.enlisted henlisted, fun take exit hlookup => ?_⟩
    rw [htakes] at hlookup
    obtain ⟨taken, hexit, hhands⟩ := hands take exit hlookup
    exact ⟨taken, hexit, hk.hands hanswer hhands⟩
  complete hnone id failed payload hrequest := by
    obtain ⟨henlisted, hbears, hreports⟩ := h.complete hnone id failed payload hrequest
    exact ⟨hk.enlisted henlisted, hk.bears _ _ hcomplete hbears, hk.reports hreports⟩

theorem reply_id {index : Nat} {task : Connection.Task} (hinv : server.Inv token)
    (htask : server.tasks.lookup index = some task) {response : Connection.Response}
    (hresponse : task.response = some response) : response.answer.requestId = task.requestId := by
  obtain ⟨frame, -, hserves⟩ := hinv.task index task htask
  rw [response.answer_requestId, (hserves.response response hresponse).2.1.1, hserves.requestId]

/-- A call that is not with a request the connection has leaves. -/
def Away (server : Connection.State) (moved : Option Place) : Prop :=
  ∀ request ∈ server.ids, some (.answer request) ≠ moved ∧ some (.complete request) ≠ moved

theorem Responds.keeps (hk : d.Keeps d' moved) (hinv : server.Inv token) (hduplicates : server.duplicates = [])
    (haway : Away server moved) {response : Connection.Response} (h : d.Responds server response)
    (hfor : ∃ frame, server.Owes response.frame frame ∧ response.For frame) : d'.Responds server response := by
  intro frame howes
  apply hk.tells _ (h frame howes)
  obtain ⟨frame', howes', hfor'⟩ := hfor
  rw [response.answer_requestId, hfor'.1]
  exact (haway _ ((hinv.ids hduplicates _).mpr ⟨_, frame', howes', rfl⟩)).1

theorem Counter.keeps (hk : d.Keeps d' moved) (h : d.Counter server takes)
    (htakes : ∀ take, d'.sys.Takes d'.worker take ↔ d.sys.Takes d.worker take) (hinv : server.Inv token)
    (hduplicates : server.duplicates = []) (haway : Away server moved) : d'.Counter server takes := { h with
  tasks := fun index task htask => by
    obtain ⟨hanswer, hcomplete⟩ := haway _ (hinv.task_id hduplicates htask)
    exact (h.tasks index task htask).keeps hk hanswer hcomplete (fun _ => reply_id hinv htask) rfl
  queued := fun response hresponse =>
    (h.queued response hresponse).keeps hk hinv hduplicates haway (hinv.queued response hresponse).2.2
  sending := fun response close hloop =>
    (h.sending response close hloop).keeps hk hinv hduplicates haway (hinv.sending response close hloop).2.2.2
  serves := fun index progress hlookup => (h.serves index progress hlookup).imp_left (htakes _).mpr
  owned := fun take hTakes => h.owned take ((htakes take).mp hTakes) }

/-! ### Steps of the connection -/

/-- A step that takes no frame, moves no response and ends no task. -/
theorem Counter.of_same (h : d.Counter server takes) (htasks : server'.tasks = server.tasks)
    (hqueued : ∀ response, server'.responses = some response → server.responses = some response)
    (hsending : ∀ response close, server'.loop = .sending response close → server.loop = .sending response close)
    (htaken : server'.taken = server.taken) (hanswered : server'.answered = server.answered)
    (hrefused : server'.refused = server.refused) (hfailed : server'.failed = server.failed) :
    d.Counter server' takes := { h with
  tasks := htasks ▸ h.tasks
  queued := fun response hresponse frame howes =>
    h.queued response (hqueued response hresponse) frame (howes.of_same htaken hanswered)
  sending := fun response close hloop frame howes =>
    h.sending response close (hsending response close hloop) frame (howes.of_same htaken hanswered)
  serves := htasks ▸ h.serves
  honest := by
    rw [hrefused, hfailed, htaken]
    exact h.honest
  written := by
    rw [hanswered, htaken]
    exact h.written }

/-- A task is gone that was not in `take`. -/
theorem Counter.erase (h : d.Counter server takes) {index : Nat} (hfree : takes.lookup index = none)
    (hqueued : ∀ response, server'.responses = some response → d.Responds server response)
    (htasks : server'.tasks = server.tasks.erase index) (hloop : server'.loop = server.loop)
    (htaken : server'.taken = server.taken) (hanswered : server'.answered = server.answered)
    (hrefused : server'.refused = server.refused) (hfailed : server'.failed = server.failed) :
    d.Counter server' takes := { h with
  tasks := fun index' task htask => by
    rw [htasks, Table.lookup_erase_ite] at htask
    split_ifs at htask
    exact h.tasks index' task htask
  queued := fun response hresponse frame howes =>
    hqueued response hresponse frame (howes.of_same htaken hanswered)
  sending := fun response close hsending frame howes =>
    h.sending response close (hloop ▸ hsending) frame (howes.of_same htaken hanswered)
  serves := fun index' progress hlookup => by
    have hne : index' ≠ index := by
      rintro rfl
      rw [hfree] at hlookup
      cases hlookup
    rw [htasks, Table.lookup_erase_ite, if_neg hne]
    exact h.serves index' progress hlookup
  honest := by
    rw [hrefused, hfailed, htaken]
    exact h.honest
  written := by
    rw [hanswered, htaken]
    exact h.written }

theorem Counter.not_taking (h : d.Counter server takes) {index : Nat} {task : Connection.Task}
    (htask : server.tasks.lookup index = some task)
    (hother : task.response ≠ none ∨ ∀ waitMs, task.request ≠ .take waitMs) : takes.lookup index = none := by
  by_contra hne
  obtain ⟨progress, hlookup⟩ := Option.ne_none_iff_exists'.mp hne
  obtain ⟨-, task', waitMs, htask', hnone, hrequest⟩ := h.serves index progress hlookup
  obtain rfl := Option.some.inj (htask.symm.trans htask')
  exact hother.elim (fun hsome => hsome hnone) fun hnot => hnot waitMs hrequest

/-- A refusal of the loop is never about TAKE or COMPLETE. -/
theorem Asks.plain {frame : Frame} (h : d.Asks frame) {error : Error}
    (herror : Connection.State.admitError true (decodeRequest frame.opcode frame.body) = some error) : Plain frame := by
  constructor
  · intro hopcode
    obtain ⟨-, waitMs, hdecode⟩ := h.take hopcode
    rw [hdecode] at herror
    cases herror
  · intro hopcode
    obtain ⟨-, id, failed, payload, hdecode, -⟩ := h.complete hopcode
    rw [hdecode] at herror
    cases herror

theorem getElem?_snoc {α : Type} {l : List α} {a : α} : (l ++ [a])[l.length]? = some a := by
  rw [List.getElem?_append_right le_rfl, Nat.sub_self, List.getElem?_cons_zero]

/-- The task of a request that was let through. -/
theorem Asks.works {frame : Frame} (h : d.Asks frame) {request : Request}
    (hdecode : decodeRequest frame.opcode frame.body = .ok request) {index : Nat} (hfree : takes.lookup index = none) :
    d.Works takes index ⟨frame.requestId, frame.opcode, request, none⟩ := by
  have hopcode : request.opcode = frame.opcode := (decodeRequest_eq_ok.mp hdecode).2.1
  refine ⟨nofun, fun _ route concurrency queueLimit hrequest => ?_, fun _ waitMs hrequest => ?_,
    fun _ id failed payload hrequest => ?_⟩
  · have hregister : request = .register route concurrency queueLimit := hrequest
    rw [hregister] at hopcode hdecode
    obtain ⟨route', queueLimit', hdecode'⟩ := h.register hopcode.symm
    exact (Request.register.inj (Except.ok.inj (hdecode.symm.trans hdecode'))).2.1
  · have htake : request = .take waitMs := hrequest
    rw [htake] at hopcode
    refine ⟨(h.take hopcode.symm).1, fun take exit hlookup => ?_⟩
    rw [hfree] at hlookup
    cases hlookup
  · have hcomplete : request = .complete id failed payload := hrequest
    rw [hcomplete] at hopcode hdecode
    obtain ⟨henlisted, id', failed', payload', hdecode', hbears⟩ := h.complete hopcode.symm
    obtain ⟨rfl, rfl, rfl⟩ := Request.complete.inj (Except.ok.inj (hdecode.symm.trans hdecode'))
    exact ⟨henlisted, hbears⟩

/-- The loop takes a frame. -/
theorem Counter.accept (h : d.Counter server takes) (hinv : server.Inv token) (hloop : server.loop = .select)
    {frame : Frame} (hasks : d.Asks frame) (hfree : frame.requestId ∉ server.ids) (hpermit : 0 < server.permits) :
    d.Counter (server.accept frame) takes := by
  have hbefore : ∀ {index : Nat} {old : Frame}, server.taken[index]? = some old →
      (server.taken ++ [frame])[index]? = some old := Connection.getElem?_append_of_some
  have howed : ∀ (server' : Connection.State) (index : Nat) (frame' : Frame), server'.Owes index frame' →
      server'.taken = server.taken ++ [frame] → server'.answered = server.answered →
      server.Owes index frame' ∨ (index = server.taken.length ∧ frame' = frame) :=
    fun server' index frame' howes htaken hanswered => (hinv.owes_append hloop htaken hanswered).mp howes
  have hqueued : ∀ (server' : Connection.State), server'.responses = server.responses →
      server'.taken = server.taken ++ [frame] → server'.answered = server.answered →
      ∀ response, server'.responses = some response → d.Responds server' response := by
    intro server' hresponses htaken hanswered response hresponse frame' howes
    rw [hresponses] at hresponse
    rcases howed server' _ frame' howes htaken hanswered with hold | ⟨hindex, -⟩
    · exact h.queued response hresponse frame' hold
    · obtain ⟨-, -, frame'', howes'', -⟩ := hinv.queued response hresponse
      exact absurd howes''.lt (hindex ▸ lt_irrefl _)
  rcases Connection.State.accept_cases frame server with ⟨hmem, -⟩ | ⟨-, error, herror, heq⟩ |
    ⟨-, -, request, hdecode, -, heq⟩
  · exact absurd hmem hfree
  · rw [decide_eq_true hpermit] at herror
    have hplain := hasks.plain herror
    rw [heq]
    exact {
      tasks := h.tasks
      queued := hqueued _ rfl rfl rfl
      sending := fun response close hsending frame' howes => by
        obtain ⟨rfl, -⟩ := Connection.Loop.sending.inj hsending
        rcases howed _ _ frame' howes rfl rfl with hold | ⟨-, rfl⟩
        · exact absurd hold.lt (lt_irrefl _)
        · have hcode : ∀ response : Frame, response.opcode = 255 → d.Tells frame'.opcode response := by
            intro response hopcode
            exact ⟨fun _ hok => absurd hopcode hok, fun htake => absurd htake hplain.1,
              fun hcomplete => absurd hcomplete hplain.2⟩
          apply hcode
          exact or_self_iff.mp Frame.answer_opcode
      serves := h.serves
      owned := h.owned
      apart := h.apart
      honest := fun index error' hmem => by
        have hmem' : (index, error') ∈ server.refused ++ [(server.taken.length, error)] ++ server.failed := hmem
        rw [List.append_assoc, List.mem_append, List.singleton_append, List.mem_cons] at hmem'
        rcases hmem' with hold | hnew | hold
        · obtain ⟨frame', hframe, hold'⟩ := h.honest index error' (List.mem_append_left _ hold)
          exact ⟨frame', hbefore hframe, hold'⟩
        · rw [(Prod.mk.inj hnew).1]
          exact ⟨frame, getElem?_snoc, hplain⟩
        · obtain ⟨frame', hframe, hold'⟩ := h.honest index error' (List.mem_append_right _ hold)
          exact ⟨frame', hbefore hframe, hold'⟩
      written := fun index bytes hmem => by
        obtain ⟨frame', hframe, hkind⟩ := h.written index bytes hmem
        exact ⟨frame', hbefore hframe, hkind⟩ }
  · have hnew : takes.lookup server.taken.length = none := by
      by_contra hne
      obtain ⟨progress, hlookup⟩ := Option.ne_none_iff_exists'.mp hne
      obtain ⟨-, task, -, htask, -⟩ := h.serves _ progress hlookup
      obtain ⟨frame', howes, -⟩ := hinv.task _ task htask
      exact absurd howes.lt (lt_irrefl _)
    rw [heq]
    exact {
      tasks := fun index task htask => by
        rw [Table.lookup_insert_ite] at htask
        split_ifs at htask with hindex
        · rw [hindex, ← Option.some.inj htask]
          exact hasks.works hdecode hnew
        · exact h.tasks index task htask
      queued := hqueued _ rfl rfl rfl
      sending := fun response close hsending => by
        have hselect : Connection.Loop.select = .sending response close := hloop.symm.trans hsending
        cases hselect
      serves := fun index progress hlookup => by
        have hne : index ≠ server.taken.length := by
          rintro rfl
          rw [hnew] at hlookup
          cases hlookup
        rw [Table.lookup_insert_ite, if_neg hne]
        exact h.serves index progress hlookup
      owned := h.owned
      apart := h.apart
      honest := fun index error hmem => by
        obtain ⟨frame', hframe, hplain⟩ := h.honest index error hmem
        exact ⟨frame', hbefore hframe, hplain⟩
      written := fun index bytes hmem => by
        obtain ⟨frame', hframe, hkind⟩ := h.written index bytes hmem
        exact ⟨frame', hbefore hframe, hkind⟩ }

/-- A response is written. -/
theorem Counter.retire (h : d.Counter server takes) (hinv : server.Inv token) {response : Connection.Response}
    (hresponse : server.responses = some response) : d.Counter (server.retire response) takes := { h with
  queued := nofun
  sending := fun response' close hloop frame howes =>
    h.sending response' close hloop frame (Connection.State.owes_retire.mp howes).1
  written := fun index bytes hmem => by
    rcases List.mem_append.mp hmem with hold | hnew
    · exact h.written index bytes hold
    · obtain ⟨rfl, rfl⟩ := Prod.mk.inj (List.mem_singleton.mp hnew)
      obtain ⟨-, -, frame, howes, hid, hopcode⟩ := hinv.queued response hresponse
      refine ⟨frame, howes.2.1, fun hserved => ?_⟩
      have htells := h.queued response hresponse frame howes
      have hok : response.answer.opcode ≠ 255 := by
        by_contra hbad
        exact hserved ⟨fun htake => (htells.take htake).1 hbad, fun hcomplete => (htells.complete hcomplete).1 hbad⟩
      have hanswer : response.answer.opcode = response.opcode := Frame.answer_opcode.resolve_right hok
      have hcode : response.opcode = frame.opcode ||| 128 :=
        hopcode.resolve_right fun hbad => hok (hanswer.trans hbad)
      refine ⟨response.answer.body, ?_⟩
      calc response.bytes = response.answer.bytes := Frame.answer_bytes.symm
        _ = envelope response.answer.opcode response.answer.requestId response.answer.body := rfl
        _ = envelope (frame.opcode ||| 128) frame.requestId response.answer.body := by
          rw [hanswer, hcode, response.answer_requestId, hid] }

/-- The first frame is answered. -/
theorem Counter.greet (h : d.Counter server takes) (hinv : server.Inv token) (hloop : server.loop = .hello)
    {frame : Frame} (hfirst : frame.opcode = 1) (input : Bytes) :
    d.Counter ({ server with input := input }.greet token frame) takes := by
  obtain ⟨htaken, hanswered⟩ := hinv.young hloop
  have hfresh := hinv.fresh (Or.inl hloop)
  have hplain : Plain frame := by
    unfold Plain
    rw [hfirst]
    decide
  exact { h with
    queued := fun response hresponse => by
      have hnone : server.responses = some response := hresponse
      rw [hfresh.responses] at hnone
      cases hnone
    sending := nofun
    honest := fun index error hmem => by
      obtain ⟨frame', hframe, -⟩ := h.honest index error hmem
      rw [htaken] at hframe
      cases hframe
    written := fun index bytes hmem => by
      unfold Connection.State.greet at hmem ⊢
      dsimp only at hmem ⊢
      rw [hanswered, htaken] at hmem
      rw [htaken]
      obtain ⟨rfl, -⟩ := Prod.mk.inj (List.mem_singleton.mp hmem)
      exact ⟨frame, rfl, fun hserved => absurd hplain hserved⟩ }

end Desk

end VeloBus.Station
