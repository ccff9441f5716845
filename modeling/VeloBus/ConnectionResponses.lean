import VeloBus.ConnectionMultiplexing

/-! What a response says: every response of a connection is the answer to HELLO, the error with which the loop refused
the frame, or the one result of the operation that the frame started. -/

namespace VeloBus.Connection

/-- The result that an operation ends with in a step. -/
def Op.result : Op → List (Nat × Except Error Bytes)
  | .finish index result => [(index, result)]
  | _ => []

/-- The opcode and the body of the response to a request. -/
def response (opcode : Nat) : Except Error Bytes → Nat × Bytes
  | .ok body => (opcode ||| 128, body)
  | .error error => (255, errorBody error)

theorem reply_eq (index : Nat) (task : Task) (result : Except Error Bytes) : State.reply index task result =
    ⟨index, (response task.opcode result).1, task.requestId, (response task.opcode result).2, true, false⟩ := by
  cases result with
  | ok body => rfl
  | error error => rfl

namespace State

/-- The answer to the first frame. -/
def greeting (token : String) (frame : Frame) : Bytes :=
  match greetError token (decodeRequest frame.opcode frame.body) with
  | some error => responseFrame 255 frame.requestId (errorBody error)
  | none => responseFrame (frame.opcode ||| 128) frame.requestId (Bytes.toBe 2 1)

/-- Why the loop answers a frame itself. -/
def Refuses (frame : Frame) (error : Error) : Prop :=
  error = duplicateError ∨ ∃ permit, admitError permit (decodeRequest frame.opcode frame.body) = some error

/-- Where a response to a frame comes from. -/
inductive Source (s : State) (results : List (Nat × Except Error Bytes)) (index : Nat) : Nat × Bytes → Prop where
  | refused {error : Error} (h : (index, error) ∈ s.refused) : Source s results index (255, errorBody error)
  | result {frame : Frame} {request : Request} {result : Except Error Bytes} (hframe : s.taken[index]? = some frame)
      (hrequest : (index, request) ∈ s.dispatched) (h : (index, result) ∈ results) :
      Source s results index (response frame.opcode result)

/-- More was taken, dispatched, refused and finished. -/
structure Extends (s t : State) : Prop where
  taken : s.taken <+: t.taken
  dispatched : s.dispatched ⊆ t.dispatched
  refused : s.refused ⊆ t.refused

variable {s t : State} {results results' : List (Nat × Except Error Bytes)} {token : String}

theorem Extends.of_same (htaken : t.taken = s.taken) (hdispatched : t.dispatched = s.dispatched)
    (hrefused : t.refused = s.refused) : s.Extends t where
  taken := htaken ▸ List.prefix_rfl
  dispatched := hdispatched ▸ List.Subset.refl _
  refused := hrefused ▸ List.Subset.refl _

theorem Extends.frame (h : s.Extends t) {index : Nat} {frame : Frame} (hframe : s.taken[index]? = some frame) :
    t.taken[index]? = some frame := by
  obtain ⟨later, hlater⟩ := h.taken
  rw [← hlater, List.getElem?_append_left (List.getElem?_eq_some_iff.mp hframe).1]
  exact hframe

theorem Source.mono (hextends : s.Extends t) (hresults : results ⊆ results') {index : Nat} {answer : Nat × Bytes}
    (h : s.Source results index answer) : t.Source results' index answer := by
  cases h with
  | refused h => exact .refused (hextends.refused h)
  | result hframe hrequest h =>
      exact .result (hextends.frame hframe) (hextends.dispatched hrequest) (hresults h)

/-- The bytes are a response to the frame. -/
def Says (token : String) (results : List (Nat × Except Error Bytes)) (s : State) (index : Nat) (bytes : Bytes) :
    Prop :=
  ∃ frame, s.taken[index]? = some frame ∧ (index = 0 ∧ bytes = greeting token frame ∨ ∃ answer,
    bytes = responseFrame answer.1 frame.requestId answer.2 ∧ s.Source results index answer)

theorem Says.mono (hextends : s.Extends t) (hresults : results ⊆ results') {index : Nat} {bytes : Bytes}
    (h : s.Says token results index bytes) : t.Says token results' index bytes := by
  obtain ⟨frame, hframe, hbytes⟩ := h
  refine ⟨frame, hextends.frame hframe, hbytes.imp_right ?_⟩
  rintro ⟨answer, hanswer, hsource⟩
  exact ⟨answer, hanswer, hsource.mono hextends hresults⟩

/-- `results` lists what the operations ended with. -/
structure Traced (token : String) (results : List (Nat × Except Error Bytes)) (s : State) : Prop where
  started : ∀ index task, s.tasks.lookup index = some task → (index, task.request) ∈ s.dispatched
  unfinished : ∀ index task, s.tasks.lookup index = some task → task.response = none → index ∉ results.map Prod.fst
  finished : ∀ index task response, s.tasks.lookup index = some task → task.response = some response →
    ∃ result, (index, result) ∈ results ∧ response = reply index task result
  operations : ∀ index result, (index, result) ∈ results → index ∈ s.dispatched.map Prod.fst
  single : (results.map Prod.fst).Nodup
  refused : ∀ index error, (index, error) ∈ s.refused → index ∉ s.dispatched.map Prod.fst ∧
    ∃ frame, s.taken[index]? = some frame ∧ Refuses frame error
  queued : ∀ response, s.responses = some response →
    s.Source results response.frame (response.opcode, response.body)
  sending : ∀ response close, s.loop = .sending response close →
    s.Source results response.frame (response.opcode, response.body)
  answered : ∀ index bytes, (index, bytes) ∈ s.answered → s.Says token results index bytes

theorem new_traced (token : String) : new.Traced token [] where
  started := nofun
  unfinished := nofun
  finished := nofun
  operations := nofun
  single := List.nodup_nil
  refused := nofun
  queued := nofun
  sending := nofun
  answered := nofun

/-! ### What a step leaves alone -/

/-- A step that takes nothing and finishes nothing: tasks, responses and the answer of the loop are those of before,
or gone. -/
structure Keeps (s t : State) : Prop where
  taken : t.taken = s.taken
  dispatched : t.dispatched = s.dispatched
  refused : t.refused = s.refused
  answered : t.answered = s.answered
  tasks : ∀ index task, t.tasks.lookup index = some task → s.tasks.lookup index = some task
  queued : ∀ response, t.responses = some response → s.responses = some response ∨
    (∃ close, s.loop = .sending response close) ∨ ∃ index task, s.tasks.lookup index = some task ∧
      task.response = some response
  sending : ∀ response close, t.loop = .sending response close → s.loop = .sending response close

/-- What a task waits to send. -/
theorem Traced.source (h : s.Traced token results) (hinv : s.Inv token) {index : Nat} {task : Task}
    {response : Response} (hlookup : s.tasks.lookup index = some task) (hresponse : task.response = some response) :
    s.Source results response.frame (response.opcode, response.body) := by
  obtain ⟨result, hmem, rfl⟩ := h.finished index task response hlookup hresponse
  obtain ⟨frame, howes, hserves⟩ := hinv.task index task hlookup
  rw [reply_eq, hserves.opcode]
  exact .result howes.2.1 (h.started index task hlookup) hmem

theorem Traced.keeps (h : s.Traced token results) (hinv : s.Inv token) (hkeeps : s.Keeps t) :
    t.Traced token results := by
  have hextends : s.Extends t := .of_same hkeeps.taken hkeeps.dispatched hkeeps.refused
  have hsame : results ⊆ results := List.Subset.refl _
  exact {
    started := fun index task hlookup => by
      rw [hkeeps.dispatched]
      exact h.started index task (hkeeps.tasks index task hlookup)
    unfinished := fun index task hlookup => h.unfinished index task (hkeeps.tasks index task hlookup)
    finished := fun index task response hlookup => h.finished index task response (hkeeps.tasks index task hlookup)
    operations := fun index result hmem => by
      rw [hkeeps.dispatched]
      exact h.operations index result hmem
    single := h.single
    refused := fun index error hmem => by
      rw [hkeeps.refused] at hmem
      rw [hkeeps.taken, hkeeps.dispatched]
      exact h.refused index error hmem
    queued := fun response hresponse => by
      apply Source.mono hextends hsame
      rcases hkeeps.queued response hresponse with hold | ⟨close, hsending⟩ | ⟨index, task, hlookup, htask⟩
      · exact h.queued response hold
      · exact h.sending response close hsending
      · exact h.source hinv hlookup htask
    sending := fun response close hsending =>
      (h.sending response close (hkeeps.sending response close hsending)).mono hextends hsame
    answered := fun index bytes hmem => by
      rw [hkeeps.answered] at hmem
      exact (h.answered index bytes hmem).mono hextends hsame }

theorem keeps_dropTask (s : State) (index : Nat) : s.Keeps (s.dropTask index) := by
  unfold dropTask
  split_ifs with hlive
  · exact {
      taken := rfl
      dispatched := rfl
      refused := rfl
      answered := rfl
      tasks := fun index' task hlookup => by
        rw [Table.lookup_erase_ite] at hlookup
        split_ifs at hlookup
        exact hlookup
      queued := fun response hresponse => Or.inl hresponse
      sending := fun response close hsending => hsending }
  · exact ⟨rfl, rfl, rfl, rfl, fun _ _ h => h, fun _ h => Or.inl h, fun _ _ h => h⟩

theorem keeps_closeWriter (s : State) : s.Keeps s.closeWriter where
  taken := rfl
  dispatched := rfl
  refused := rfl
  answered := rfl
  tasks _ _ h := h
  queued := nofun
  sending _ _ h := h

/-- The loop goes on, or returns. -/
theorem keeps_loop (s : State) {loop : Loop} (h : ∀ response close, loop ≠ .sending response close) :
    s.Keeps { s with loop := loop } where
  taken := rfl
  dispatched := rfl
  refused := rfl
  answered := rfl
  tasks _ _ h := h
  queued _ h := Or.inl h
  sending response close hsending := absurd hsending (h response close)

/-! ### Frames, results and answers -/

theorem Traced.greet (h : s.Traced token results) (hinv : s.Inv token) (hloop : s.loop = .hello) (frame : Frame)
    (input : Bytes) : ({ s with input := input }.greet token frame).Traced token results := by
  have hfresh := hinv.fresh (Or.inl hloop)
  obtain ⟨htaken, hanswered⟩ := hinv.young hloop
  have hextends : s.Extends ({ s with input := input }.greet token frame) :=
    ⟨List.prefix_append _ _, List.Subset.refl _, List.Subset.refl _⟩
  exact { h with
    refused := fun index error hmem => by
      obtain ⟨-, frame, hframe, -⟩ := h.refused index error hmem
      rw [htaken] at hframe
      cases hframe
    queued := fun response hresponse => (h.queued response hresponse).mono hextends (List.Subset.refl _)
    sending := nofun
    answered := fun index bytes hmem => by
      rw [State.greet, hanswered, htaken] at hmem
      obtain ⟨rfl, rfl⟩ := Prod.mk.inj (List.mem_singleton.mp hmem)
      refine ⟨frame, ?_, Or.inl ⟨rfl, rfl⟩⟩
      rw [State.greet, htaken]
      rfl }

/-- The loop takes a frame. -/
theorem Traced.took (h : s.Traced token results) {frame : Frame} (htaken : t.taken = s.taken ++ [frame])
    (hextends : s.Extends t) (hanswered : t.answered = s.answered) (hresponses : t.responses = s.responses)
    (hdispatched : ∀ index request, (index, request) ∈ t.dispatched → (index, request) ∈ s.dispatched ∨
      index = s.taken.length ∧ t.refused = s.refused)
    (hrefused : ∀ index error, (index, error) ∈ t.refused → (index, error) ∈ s.refused ∨
      index = s.taken.length ∧ t.dispatched = s.dispatched ∧ Refuses frame error)
    (hinv : s.Inv token)
    (htasks : ∀ index task, t.tasks.lookup index = some task → s.tasks.lookup index = some task ∨
      index = s.taken.length ∧ task.response = none ∧ (index, task.request) ∈ t.dispatched)
    (hsending : ∀ response close, t.loop = .sending response close →
      t.Source results response.frame (response.opcode, response.body)) : t.Traced token results := by
  have hsame : results ⊆ results := List.Subset.refl _
  have hlength : t.taken.length = s.taken.length + 1 := by
    rw [htaken, List.length_append, List.length_singleton]
  have hnew : s.taken.length ∉ results.map Prod.fst := by
    intro hmem
    obtain ⟨⟨index, result⟩, hresult, heq⟩ := List.mem_map.mp hmem
    have hlt := hinv.dispatched_lt (h.operations index result hresult)
    dsimp only at heq
    omega
  have hold : ∀ index, index ∈ s.dispatched.map Prod.fst → index < s.taken.length := fun _ => hinv.dispatched_lt
  exact {
    started := fun index task hlookup => by
      rcases htasks index task hlookup with hbefore | ⟨-, -, hmem⟩
      · exact hextends.dispatched (h.started index task hbefore)
      · exact hmem
    unfinished := fun index task hlookup hresponse => by
      rcases htasks index task hlookup with hbefore | ⟨rfl, -, -⟩
      · exact h.unfinished index task hbefore hresponse
      · exact hnew
    finished := fun index task response hlookup hresponse => by
      rcases htasks index task hlookup with hbefore | ⟨-, hnone, -⟩
      · exact h.finished index task response hbefore hresponse
      · rw [hnone] at hresponse
        cases hresponse
    operations := fun index result hmem =>
      List.map_subset _ hextends.dispatched (h.operations index result hmem)
    single := h.single
    refused := fun index error hmem => by
      rcases hrefused index error hmem with hbefore | ⟨rfl, hsame, hrefuses⟩
      · obtain ⟨hnot, frame', hframe, hrefuses⟩ := h.refused index error hbefore
        refine ⟨fun hmem' => ?_, frame', htaken ▸ getElem?_append_of_some hframe, hrefuses⟩
        obtain ⟨⟨index', request⟩, hentry, rfl⟩ := List.mem_map.mp hmem'
        rcases hdispatched index' request hentry with hearlier | ⟨heq, -⟩
        · exact hnot (List.mem_map_of_mem hearlier)
        · exact absurd heq (List.getElem?_eq_some_iff.mp hframe).1.ne
      · rw [hsame, htaken]
        exact ⟨fun hmem => (hold _ hmem).ne rfl, frame, List.getElem?_concat_length, hrefuses⟩
    queued := fun response hresponse => (h.queued response (hresponses ▸ hresponse)).mono hextends hsame
    sending := hsending
    answered := fun index bytes hmem => by
      rw [hanswered] at hmem
      exact (h.answered index bytes hmem).mono hextends hsame }

theorem Traced.accept (h : s.Traced token results) (hinv : s.Inv token) (hloop : s.loop = .select) (frame : Frame) :
    (s.accept frame).Traced token results := by
  have hgrown : s.taken <+: s.taken ++ [frame] := List.prefix_append _ _
  have hrefuse : ∀ {t : State} {error : Error} {response : Response} {close : Bool},
      t.taken = s.taken ++ [frame] → t.dispatched = s.dispatched →
      t.refused = s.refused ++ [(s.taken.length, error)] → t.answered = s.answered →
      t.responses = s.responses → t.tasks = s.tasks → t.loop = .sending response close →
      response.frame = s.taken.length → (response.opcode, response.body) = (255, errorBody error) →
      Refuses frame error → t.Traced token results := by
    intro t error response close htaken hdispatched hrefused hanswered hresponses htasks hsending hframe hbody hrefuses
    refine h.took htaken ⟨htaken ▸ hgrown, hdispatched ▸ List.Subset.refl _, ?_⟩ hanswered hresponses ?_ ?_ hinv ?_ ?_
    · rw [hrefused]
      exact List.subset_append_left _ _
    · intro index request hmem
      exact Or.inl (hdispatched ▸ hmem)
    · intro index error' hmem
      rw [hrefused] at hmem
      rcases List.mem_append.mp hmem with hold | hnew
      · exact Or.inl hold
      · obtain ⟨rfl, rfl⟩ := Prod.mk.inj (List.mem_singleton.mp hnew)
        exact Or.inr ⟨rfl, hdispatched, hrefuses⟩
    · intro index task hlookup
      exact Or.inl (htasks ▸ hlookup)
    · intro response' close' hsending'
      obtain ⟨rfl, -⟩ := Loop.sending.inj (hsending.symm.trans hsending')
      rw [hframe, hbody]
      apply Source.refused
      rw [hrefused]
      exact List.mem_append_right _ (List.mem_singleton_self _)
  rcases accept_cases frame s with ⟨-, heq⟩ | ⟨-, error, herror, heq⟩ | ⟨-, -, request, -, -, heq⟩
  · rw [heq]
    exact hrefuse rfl rfl rfl rfl rfl rfl rfl rfl rfl (Or.inl rfl)
  · rw [heq]
    exact hrefuse rfl rfl rfl rfl rfl rfl rfl rfl rfl (Or.inr ⟨_, herror⟩)
  · rw [heq]
    refine h.took rfl ⟨hgrown, List.subset_append_left _ _, List.Subset.refl _⟩ rfl rfl ?_ ?_ hinv ?_ ?_
    · intro index request' hmem
      rcases List.mem_append.mp hmem with hold | hnew
      · exact Or.inl hold
      · exact Or.inr ⟨(Prod.mk.inj (List.mem_singleton.mp hnew)).1, rfl⟩
    · exact fun index error hmem => Or.inl hmem
    · intro index task hlookup
      rw [Table.lookup_insert_ite] at hlookup
      split_ifs at hlookup with hindex
      · obtain rfl := Option.some.inj hlookup
        exact Or.inr ⟨hindex, rfl, List.mem_append_right _ (List.mem_singleton.mpr (by rw [hindex]))⟩
      · exact Or.inl hlookup
    · intro response close hsending
      rw [hloop] at hsending
      cases hsending

theorem Traced.finish (h : s.Traced token results) {index : Nat} {task : Task}
    (hlookup : s.tasks.lookup index = some task) (hnone : task.response = none) (result : Except Error Bytes) :
    (s.next token (.finish index result)).Traced token (results ++ [(index, result)]) := by
  have hextends : s.Extends (s.next token (.finish index result)) := .of_same rfl rfl rfl
  have hmore : results ⊆ results ++ [(index, result)] := List.subset_append_left _ _
  have hfresh := h.unfinished index task hlookup hnone
  have htasks : ∀ index' task', (s.next token (.finish index result)).tasks.lookup index' = some task' →
      index' = index ∧ task' = { task with response := some (reply index task result) } ∨
        index' ≠ index ∧ s.tasks.lookup index' = some task' := by
    intro index' task' hlookup'
    simp only [next, Table.lookup_modify] at hlookup'
    split_ifs at hlookup' with hindex
    · subst hindex
      rw [hlookup, Option.map_some] at hlookup'
      exact Or.inl ⟨rfl, (Option.some.inj hlookup').symm⟩
    · exact Or.inr ⟨hindex, hlookup'⟩
  exact {
    started := fun index' task' hlookup' => by
      rcases htasks index' task' hlookup' with ⟨rfl, rfl⟩ | ⟨-, hold⟩
      · exact h.started index' task hlookup
      · exact h.started index' task' hold
    unfinished := fun index' task' hlookup' hresponse => by
      rcases htasks index' task' hlookup' with ⟨rfl, rfl⟩ | ⟨hne, hold⟩
      · cases hresponse
      · rw [List.map_append, List.mem_append, not_or]
        exact ⟨h.unfinished index' task' hold hresponse, fun hmem => hne (List.mem_singleton.mp hmem)⟩
    finished := fun index' task' response hlookup' hresponse => by
      rcases htasks index' task' hlookup' with ⟨rfl, rfl⟩ | ⟨-, hold⟩
      · exact ⟨result, List.mem_append_right _ (List.mem_singleton_self _), (Option.some.inj hresponse).symm⟩
      · obtain ⟨result', hmem, heq⟩ := h.finished index' task' response hold hresponse
        exact ⟨result', hmore hmem, heq⟩
    operations := fun index' result' hmem => by
      rcases List.mem_append.mp hmem with hold | hnew
      · exact h.operations index' result' hold
      · obtain ⟨rfl, -⟩ := Prod.mk.inj (List.mem_singleton.mp hnew)
        exact List.mem_map_of_mem (f := Prod.fst) (h.started index' task hlookup)
    single := by
      rw [List.map_append]
      refine h.single.append (List.nodup_singleton _) fun index' hmem hmem' => hfresh ?_
      obtain rfl : index' = index := List.mem_singleton.mp hmem'
      exact hmem
    refused := h.refused
    queued := fun response hresponse => (h.queued response hresponse).mono hextends hmore
    sending := fun response close hsending => (h.sending response close hsending).mono hextends hmore
    answered := fun index' bytes hmem => (h.answered index' bytes hmem).mono hextends hmore }

theorem Traced.retire (h : s.Traced token results) (hinv : s.Inv token) {response : Response}
    (hresponse : s.responses = some response) : (s.retire response).Traced token results := by
  have hextends : s.Extends (s.retire response) := .of_same rfl rfl rfl
  have hsame : results ⊆ results := List.Subset.refl _
  exact { h with
    queued := nofun
    sending := fun response' close hsending => (h.sending response' close hsending).mono hextends hsame
    answered := fun index bytes hmem => by
      rcases List.mem_append.mp hmem with hold | hnew
      · exact (h.answered index bytes hold).mono hextends hsame
      · obtain ⟨rfl, rfl⟩ := Prod.mk.inj (List.mem_singleton.mp hnew)
        obtain ⟨-, -, frame, howes, hfor⟩ := hinv.queued response hresponse
        refine ⟨frame, howes.2.1, Or.inr ⟨(response.opcode, response.body), ?_, ?_⟩⟩
        · rw [← hfor.1]
          rfl
        · exact (h.queued response hresponse).mono hextends hsame }

/-- The other steps take nothing and finish nothing. -/
theorem keeps_next {connection : Nat} {op : Op} (hop : s.Enabled connection op) :
    (op = .hello ∨ op = .accept ∨ op = .take ∨ ∃ index result, op = .finish index result) ∨
      op.result = [] ∧ s.Keeps (s.next token op) := by
  have hquiet : s.Keeps (s.next token op) → op.result = [] → (op = .hello ∨ op = .accept ∨ op = .take ∨
      ∃ index result, op = .finish index result) ∨ op.result = [] ∧ s.Keeps (s.next token op) :=
    fun hkeeps hnone => Or.inr ⟨hnone, hkeeps⟩
  cases op with
  | receive bytes => exact hquiet ⟨rfl, rfl, rfl, rfl, fun _ _ h => h, fun _ h => Or.inl h, fun _ _ h => h⟩ rfl
  | hello => exact Or.inl (Or.inl rfl)
  | greet count =>
      obtain ⟨rest, accepted, hloop, -⟩ := hop
      refine hquiet ?_ rfl
      simp only [next, hloop]
      exact ⟨rfl, rfl, rfl, rfl, fun _ _ h => h, fun _ h => Or.inl h, fun _ _ h => by cases h⟩
  | greeted =>
      obtain ⟨accepted, hloop⟩ := hop
      refine hquiet ?_ rfl
      cases accepted with
      | true =>
          simp only [next, hloop]
          exact ⟨rfl, rfl, rfl, rfl, fun _ _ h => h, fun _ h => Or.inl h, fun _ _ h => by cases h⟩
      | false =>
          simp only [next, hloop]
          exact keeps_loop s fun _ _ h => by cases h
  | greetFailed => exact hquiet (keeps_loop s fun _ _ h => by cases h) rfl
  | read =>
      obtain ⟨-, frame, rest, hread⟩ := hop
      refine hquiet ?_ rfl
      simp only [next, hread]
      exact ⟨rfl, rfl, rfl, rfl, fun _ _ h => h, fun _ h => Or.inl h, fun _ _ h => h⟩
  | readFailed => exact hquiet ⟨rfl, rfl, rfl, rfl, fun _ _ h => h, fun _ h => Or.inl h, fun _ _ h => h⟩ rfl
  | pass =>
      obtain ⟨⟨frame, hreader⟩, -⟩ := hop
      refine hquiet ?_ rfl
      simp only [next, hreader]
      exact ⟨rfl, rfl, rfl, rfl, fun _ _ h => h, fun _ h => Or.inl h, fun _ _ h => h⟩
  | accept => exact Or.inl (Or.inr (Or.inl rfl))
  | finish index result => exact Or.inl (Or.inr (Or.inr (Or.inr ⟨index, result, rfl⟩)))
  | panic index => exact hquiet { keeps_dropTask s index with } rfl
  | reply index =>
      obtain ⟨task, response, hlookup, hresponse, -⟩ := hop
      refine hquiet ?_ rfl
      simp only [next, hlookup]
      split_ifs with hended
      · exact keeps_dropTask s index
      · exact {
          taken := rfl
          dispatched := rfl
          refused := rfl
          answered := rfl
          tasks := fun index' task' hlookup' => by
            rw [Table.lookup_erase_ite] at hlookup'
            split_ifs at hlookup'
            exact hlookup'
          queued := fun response' hresponse' => Or.inr (Or.inr ⟨index, task, hlookup, hresponse'⟩)
          sending := fun _ _ h => h }
  | send =>
      obtain ⟨⟨response, close, hloop⟩, -⟩ := hop
      refine hquiet ?_ rfl
      simp only [next, hloop]
      split_ifs with hended
      · exact ⟨rfl, rfl, rfl, rfl, fun _ _ h => h, fun _ h => Or.inl h, fun _ _ h => by cases h⟩
      · exact {
          taken := rfl
          dispatched := rfl
          refused := rfl
          answered := rfl
          tasks := fun _ _ h => h
          queued := fun response' hresponse' => by
            obtain rfl := Option.some.inj hresponse'
            exact Or.inr (Or.inl ⟨close, hloop⟩)
          sending := fun _ _ h => by cases h }
  | receipt =>
      obtain ⟨⟨close, hloop⟩, -⟩ := hop
      refine hquiet ?_ rfl
      simp only [next, hloop]
      cases close with
      | true => exact keeps_loop s fun _ _ h => by cases h
      | false => exact keeps_loop s fun _ _ h => by cases h
  | take => exact Or.inl (Or.inr (Or.inr (Or.inl rfl)))
  | put count =>
      obtain ⟨rest, written, hwriter, -⟩ := hop
      refine hquiet ?_ rfl
      simp only [next, hwriter]
      exact ⟨rfl, rfl, rfl, rfl, fun _ _ h => h, fun _ h => Or.inl h, fun _ _ h => h⟩
  | wrote =>
      obtain ⟨written, hwriter⟩ := hop
      refine hquiet ?_ rfl
      simp only [next, hwriter]
      exact ⟨rfl, rfl, rfl, rfl, fun _ _ h => h, fun _ h => Or.inl h, fun _ _ h => h⟩
  | writeFailed => exact hquiet (keeps_closeWriter s) rfl
  | leave => exact hquiet (keeps_loop s fun _ _ h => by cases h) rfl
  | cancel => exact hquiet (keeps_loop s fun _ _ h => by cases h) rfl
  | abortTask index => exact hquiet (keeps_dropTask s index) rfl
  | abortReader => exact hquiet ⟨rfl, rfl, rfl, rfl, fun _ _ h => h, fun _ h => Or.inl h, fun _ _ h => h⟩ rfl
  | abortWriter => exact hquiet (keeps_closeWriter s) rfl

theorem Traced.step (h : s.Traced token results) (hinv : s.Inv token) {connection : Nat} {op : Op}
    (hop : s.Enabled connection op) : (s.next token op).Traced token (results ++ op.result) := by
  rcases keeps_next hop with (rfl | rfl | rfl | ⟨index, result, rfl⟩) | ⟨hnone, hkeeps⟩
  · obtain ⟨hloop, frame, rest, hread⟩ := hop
    simp only [next, hread, Op.result, List.append_nil]
    exact h.greet hinv hloop frame rest
  · obtain ⟨hloop, hsome⟩ := hop
    obtain ⟨frame, hframe⟩ := Option.isSome_iff_exists.mp hsome
    simp only [next, hframe, Op.result, List.append_nil]
    exact h.accept hinv hloop frame
  · obtain ⟨-, hsome⟩ := hop
    obtain ⟨response, hresponse⟩ := Option.isSome_iff_exists.mp hsome
    simp only [next, hresponse, Op.result, List.append_nil]
    exact h.retire hinv hresponse
  · obtain ⟨task, hlookup, hnone, -⟩ := hop
    exact h.finish hlookup hnone result
  · rw [hnone, List.append_nil]
    exact h.keeps hinv hkeeps

/-! ### When a frame is refused -/

variable (token) in
/-- What a step that accepts no frame leaves alone. -/
theorem next_kept {connection : Nat} {op : Op} (hop : s.Enabled connection op) (haccept : op ≠ .accept) :
    (s.next token op).dispatched = s.dispatched ∧ (s.next token op).refused = s.refused ∧
      s.taken <+: (s.next token op).taken := by
  rcases keeps_next hop with (rfl | rfl | rfl | ⟨index, result, rfl⟩) | ⟨-, hkeeps⟩
  · obtain ⟨hloop, frame, rest, hread⟩ := hop
    simp only [next, hread]
    exact ⟨rfl, rfl, List.prefix_append _ _⟩
  · exact absurd rfl haccept
  · obtain ⟨-, hsome⟩ := hop
    obtain ⟨response, hresponse⟩ := Option.isSome_iff_exists.mp hsome
    simp only [next, hresponse]
    exact ⟨rfl, rfl, List.prefix_rfl⟩
  · exact ⟨rfl, rfl, List.prefix_rfl⟩
  · rw [hkeeps.taken]
    exact ⟨hkeeps.dispatched, hkeeps.refused, List.prefix_rfl⟩

variable (token) in
/-- Only the frame just taken starts an operation. -/
theorem dispatched_next {connection : Nat} {op : Op} (hop : s.Enabled connection op) :
    (s.next token op).dispatched = s.dispatched ∨
      ∃ request, (s.next token op).dispatched = s.dispatched ++ [(s.taken.length, request)] := by
  by_cases haccept : op = .accept
  · subst haccept
    obtain ⟨-, hsome⟩ := hop
    obtain ⟨frame, hframe⟩ := Option.isSome_iff_exists.mp hsome
    simp only [next, hframe]
    rcases accept_cases frame s with ⟨-, heq⟩ | ⟨-, error, -, heq⟩ | ⟨-, -, request, -, -, heq⟩
    · rw [heq]
      exact Or.inl rfl
    · rw [heq]
      exact Or.inl rfl
    · rw [heq]
      exact Or.inr ⟨request, rfl⟩
  · exact Or.inl (next_kept token hop haccept).1

/-- An operation is dispatched once. -/
theorem dispatched_nodup (hinv : s.Inv token) {connection : Nat} {op : Op} (hop : s.Enabled connection op)
    (h : (s.dispatched.map Prod.fst).Nodup) : ((s.next token op).dispatched.map Prod.fst).Nodup := by
  rcases dispatched_next token hop with hsame | ⟨request, hmore⟩
  · rw [hsame]
    exact h
  · rw [hmore, List.map_append]
    refine h.append (List.nodup_singleton _) fun index hmem hmem' => ?_
    rw [List.mem_singleton.mp hmem'] at hmem
    exact lt_irrefl _ (hinv.dispatched_lt hmem)

/-- The identifier is that of a frame that waits for its response. -/
def InUse (s : State) (id : Nat) : Prop := ∃ index frame, s.Owes index frame ∧ frame.requestId = id

/-- Why the loop answers itself the frame that it takes. -/
def Due (s : State) (frame : Frame) (error : Error) : Prop :=
  s.InUse frame.requestId ∧ error = duplicateError ∨
    ¬s.InUse frame.requestId ∧ admitError (0 < s.permits) (decodeRequest frame.opcode frame.body) = some error

theorem Inv.inUse (hinv : s.Inv token) (hloop : s.loop = .select) (id : Nat) : id ∈ s.ids ↔ s.InUse id := by
  apply hinv.ids
  by_contra hsome
  obtain ⟨index, hindex⟩ := List.exists_mem_of_ne_nil _ hsome
  rcases (hinv.closing index (Or.inl hindex)).1 with hreturned | hreceipt | ⟨response, hsending⟩
  · rw [hloop] at hreturned
    cases hreturned
  · rw [hloop] at hreceipt
    cases hreceipt
  · rw [hloop] at hsending
    cases hsending

theorem accept_due (hinv : s.Inv token) (hloop : s.loop = .select) {frame : Frame} {index : Nat} {error : Error}
    (h : (index, error) ∈ (s.accept frame).refused) :
    (index, error) ∈ s.refused ∨ index = s.taken.length ∧ s.Due frame error := by
  have hnew : ∀ {error' : Error}, (index, error) ∈ s.refused ++ [(s.taken.length, error')] → s.Due frame error' →
      (index, error) ∈ s.refused ∨ index = s.taken.length ∧ s.Due frame error := by
    intro error' hmem hdue
    refine (List.mem_append.mp hmem).imp_right fun hlast => ?_
    obtain ⟨rfl, rfl⟩ := Prod.mk.inj (List.mem_singleton.mp hlast)
    exact ⟨rfl, hdue⟩
  rcases accept_cases frame s with ⟨hids, heq⟩ | ⟨hids, error', herror, heq⟩ | ⟨-, -, request, -, -, heq⟩
  · rw [heq] at h
    exact hnew h (Or.inl ⟨(hinv.inUse hloop _).mp hids, rfl⟩)
  · rw [heq] at h
    exact hnew h (Or.inr ⟨fun huse => hids ((hinv.inUse hloop _).mpr huse), herror⟩)
  · rw [heq] at h
    exact Or.inl h

end State

/-- A connection with the results of its operations. -/
def traced (token : String) (connection : Nat) : Transition (State × List (Nat × Except Error Bytes)) Op :=
  (machine token connection).observed [] fun _ op results => results ++ op.result

theorem traced_reachable {token : String} {connection : Nat} {s : State} {results : List (Nat × Except Error Bytes)}
    (h : (traced token connection).Reachable (s, results)) : s.Traced token results := by
  refine h.invariant (P := fun s => s.1.Traced token s.2) ?_ ?_
  · rintro ⟨s, results⟩ ⟨rfl, rfl⟩
    exact State.new_traced token
  · rintro ⟨s, results⟩ op ⟨t, results'⟩ hreach hs ⟨⟨hop, rfl⟩, rfl⟩
    exact hs.step (inv hreach.of_observed) hop

/-- The loop took the frame in an earlier state of the run, where this error was due for it. -/
def State.Refused (token : String) (connection : Nat) (s : State) (index : Nat) (frame : Frame) (error : Error) :
    Prop :=
  ∃ earlier ops, (machine token connection).Reachable earlier ∧ earlier.loop = .select ∧ earlier.frames = some frame ∧
    earlier.taken.length = index ∧ earlier.Due frame error ∧ (machine token connection).Run (earlier.accept frame) ops s

theorem refused_due {token : String} {connection : Nat} {s : State} (h : (machine token connection).Reachable s) :
    ∀ index error, (index, error) ∈ s.refused →
      ∃ frame, s.taken[index]? = some frame ∧ s.Refused token connection index frame error := by
  apply h.invariant
  · rintro s rfl index error hmem
    cases hmem
  · rintro s op t hs ih ⟨hop, rfl⟩ index error hmem
    by_cases haccept : op = .accept
    · subst haccept
      have hinv := inv hs
      obtain ⟨hloop, hsome⟩ := hop
      obtain ⟨frame, hframe⟩ := Option.isSome_iff_exists.mp hsome
      have hnext : s.next token .accept = s.accept frame := by
        simp only [State.next, hframe]
      have htaken : (s.accept frame).taken = s.taken ++ [frame] := by
        rcases State.accept_cases frame s with ⟨-, heq⟩ | ⟨-, error, -, heq⟩ | ⟨-, -, request, -, -, heq⟩
        all_goals rw [heq]
      rw [hnext] at hmem ⊢
      rw [htaken]
      rcases State.accept_due hinv hloop hmem with hold | ⟨rfl, hdue⟩
      · obtain ⟨frame', hframe', earlier, ops, hearlier, hselect, htook, hlength, hdue, hrun⟩ := ih index error hold
        have hstep : (machine token connection).step s .accept (s.accept frame) := ⟨⟨hloop, hsome⟩, hnext.symm⟩
        exact ⟨frame', getElem?_append_of_some hframe', earlier, ops ++ [.accept], hearlier, hselect, htook, hlength,
          hdue, hrun.snoc hstep⟩
      · exact ⟨frame, List.getElem?_concat_length, s, [], hs, hloop, hframe, rfl, hdue, .nil⟩
    · obtain ⟨-, hrefused, later, htaken⟩ := State.next_kept token hop haccept
      rw [hrefused] at hmem
      obtain ⟨frame, hframe, earlier, ops, hearlier, hselect, htook, hlength, hdue, hrun⟩ := ih index error hmem
      refine ⟨frame, ?_, earlier, ops ++ [op], hearlier, hselect, htook, hlength, hdue, hrun.snoc ⟨hop, rfl⟩⟩
      rw [← htaken, List.getElem?_append_left (List.getElem?_eq_some_iff.mp hframe).1]
      exact hframe

/-- What the responses of a connection say. -/
structure State.Explained (token : String) (connection : Nat) (results : List (Nat × Except Error Bytes)) (s : State) :
    Prop where
  /-- An operation ends once at most. -/
  once : (results.map Prod.fst).Nodup
  answered : ∀ index bytes, (index, bytes) ∈ s.answered → ∃ frame, s.taken[index]? = some frame ∧
    (index = 0 ∧ bytes = greeting token frame ∨
    (∃ error, s.Refused token connection index frame error ∧ index ∉ s.dispatched.map Prod.fst ∧
      bytes = responseFrame 255 frame.requestId (errorBody error)) ∨
    ∃ request result, decodeRequest frame.opcode frame.body = .ok request ∧ (index, request) ∈ s.dispatched ∧
      (index, result) ∈ results ∧
      bytes = responseFrame (response frame.opcode result).1 frame.requestId (response frame.opcode result).2)

/-- **Every response says what became of its frame.** In every run of a connection, whatever its peer sends and however
its tasks are scheduled, a response is the answer to HELLO, the error that was due for a frame when the loop refused
it, which then started nothing, or the one result of the operation that the frame started. -/
theorem responses_explained {token : String} {connection : Nat} {s : State} {results : List (Nat × Except Error Bytes)}
    (h : (traced token connection).Reachable (s, results)) : s.Explained token connection results := by
  have htraced := traced_reachable h
  refine ⟨htraced.single, fun index bytes hmem => ?_⟩
  obtain ⟨frame, hframe, hgreeting | ⟨answer, hbytes, hsource⟩⟩ := htraced.answered index bytes hmem
  · exact ⟨frame, hframe, Or.inl hgreeting⟩
  refine ⟨frame, hframe, Or.inr ?_⟩
  cases hsource with
  | refused herror =>
      obtain ⟨frame', hframe', hrefused⟩ := refused_due h.of_observed index _ herror
      obtain rfl := Option.some.inj (hframe.symm.trans hframe')
      exact Or.inl ⟨_, hrefused, (htraced.refused index _ herror).1, hbytes⟩
  | result hsame hrequest hresult =>
      obtain rfl := Option.some.inj (hframe.symm.trans hsame)
      obtain ⟨-, frame', hframe', hdecode⟩ := (inv h.of_observed).dispatched index _ hrequest
      obtain rfl := Option.some.inj (hframe.symm.trans hframe')
      exact Or.inr ⟨_, _, hdecode, hrequest, hresult, hbytes⟩

/-- PING was answered. -/
def ponged : State := ((pinged.next "" (.finish 1 (.ok []))).next "" (.reply 1)).next "" .take

theorem ponged_reachable : ∃ results, (traced "" 7).Reachable (ponged, results) := by
  have hstep : ∀ {s : State} {results : List (Nat × Except Error Bytes)}, (traced "" 7).Reachable (s, results) →
      ∀ op, s.Enabled 7 op → (traced "" 7).Reachable (s.next "" op, results ++ op.result) := by
    intro s results h op hop
    exact h.step (l := op) ⟨⟨hop, rfl⟩, rfl⟩
  have hpinged : ∃ results, (traced "" 7).Reachable (pinged, results) := pinged_reachable.observed
  obtain ⟨results, h⟩ := hpinged
  have h := hstep h (.finish 1 (.ok [])) ⟨⟨1, 5, .ping, none⟩, rfl, rfl, nofun⟩
  have h := hstep h (.reply 1) ⟨⟨1, 5, .ping, some ⟨1, 133, 1, [], true, false⟩⟩, _, rfl, rfl, Or.inl rfl⟩
  exact ⟨_, hstep h .take ⟨rfl, rfl⟩⟩

theorem responses_explained_ponged : (1, [0, 0, 0, 5, 133, 0, 0, 0, 1]) ∈ ponged.answered ∧
    ∃ results, ponged.Explained "" 7 results := by
  obtain ⟨results, h⟩ := ponged_reachable
  exact ⟨by decide, results, responses_explained h⟩

end VeloBus.Connection
