import Mathlib.Data.Finset.Card
import VeloBus.ConnectionMultiplexing

/-! The broker's end of a connection whose peer stays within its limit: the loop always has a permit to give,
and what the connection holds moves towards the loop and towards the peer, or is lost with the connection. -/

namespace VeloBus.Connection

/-! ### The loop -/

def Loop.Running (loop : Loop) : Prop := ¬loop.Early ∧ loop ≠ .returned

/-- A connection that has refused nothing for the lack of an identifier or of a permit. -/
structure State.Orderly (s : State) : Prop where
  duplicates : s.duplicates = []
  early : s.loop.Early → s.frames = none ∧ s.reader = .ended ∧ s.writer = .ended
  permits : s.loop.Running → maxInFlight ≤ s.permits + s.ids.card
  queued : ∀ response, s.responses = some response → response.permit = true
  sending : ∀ response close, s.loop = .sending response close → response.permit = true
  refused : ∀ index error, (index, error) ∈ s.refused → error ≠ duplicateError ∧ error ≠ inFlightError
  legal : ∀ frame ∈ s.taken, frame.Legal

/-- A frame the loop takes in a step. -/
def State.Meets (s : State) (frame : Frame) : Op → Prop
  | .hello => ∃ rest, readFrame s.input = .frame frame rest
  | .accept => s.frames = some frame
  | _ => False

theorem not_early_select : ¬Loop.Early .select := by
  rintro (hhello | ⟨rest, accepted, hgreeting⟩)
  · cases hhello
  · cases hgreeting

theorem not_early_returned : ¬Loop.Early .returned := by
  rintro (hhello | ⟨rest, accepted, hgreeting⟩)
  · cases hhello
  · cases hgreeting

theorem not_early_sending {response : Response} {close : Bool} : ¬Loop.Early (.sending response close) := by
  rintro (hhello | ⟨rest, accepted, hgreeting⟩)
  · cases hhello
  · cases hgreeting

theorem not_early_receipt {close : Bool} : ¬Loop.Early (.receipt close) := by
  rintro (hhello | ⟨rest, accepted, hgreeting⟩)
  · cases hhello
  · cases hgreeting

theorem not_running_returned : ¬Loop.Running .returned := fun h => h.2 rfl

theorem admitError_ordinary {request : Except Error Request} (hrequest : Ordinary request) {error : Error}
    (h : State.admitError true request = some error) : error ≠ duplicateError ∧ error ≠ inFlightError := by
  cases request with
  | error error' =>
      rw [← Option.some.inj h]
      exact hrequest error' rfl
  | ok request =>
      cases request with
      | hello version token =>
          rw [← Option.some.inj h]
          decide
      | _ => cases h

namespace State

variable {token : String} {s t : State}

theorem new_orderly : new.Orderly where
  duplicates := rfl
  early _ := ⟨rfl, rfl, rfl⟩
  permits hrunning := absurd (Or.inl rfl) hrunning.1
  queued := nofun
  sending := nofun
  refused := nofun
  legal := nofun

theorem Orderly.returned (h : s.Orderly) : { s with loop := .returned }.Orderly := { h with
  early := fun hearly => absurd hearly not_early_returned
  permits := fun hrunning => absurd hrunning not_running_returned
  sending := nofun }

theorem Orderly.permit (h : s.Orderly) (hloop : s.loop = .select) (hids : s.ids.card < maxInFlight) :
    0 < s.permits := by
  have hrunning : s.loop.Running := by
    rw [hloop]
    exact ⟨not_early_select, nofun⟩
  have hpermits := h.permits hrunning
  omega

theorem Orderly.accept (h : s.Orderly) (hloop : s.loop = .select) {frame : Frame} (hlegal : frame.Legal)
    (hfree : frame.requestId ∉ s.ids) (hids : s.ids.card < maxInFlight) : (s.accept frame).Orderly := by
  have hpermit := h.permit hloop hids
  have hrunning : s.loop.Running := by
    rw [hloop]
    exact ⟨not_early_select, nofun⟩
  have hpermits : maxInFlight ≤ s.permits - 1 + (insert frame.requestId s.ids).card := by
    have hbefore := h.permits hrunning
    rw [Finset.card_insert_of_notMem hfree]
    omega
  have htaken : ∀ frame' ∈ s.taken ++ [frame], frame'.Legal := by
    intro frame' hmem
    rcases List.mem_append.mp hmem with hold | hnew
    · exact h.legal frame' hold
    · rw [List.mem_singleton.mp hnew]
      exact hlegal
  rcases accept_cases frame s with ⟨hmem, -⟩ | ⟨-, error, herror, heq⟩ | ⟨-, -, request, -, -, heq⟩
  · exact absurd hmem hfree
  · rw [heq]
    rw [decide_eq_true hpermit] at herror
    exact { h with
      early := fun hearly => absurd hearly not_early_sending
      permits := fun _ => hpermits
      sending := fun response close hsending => by
        rw [← (Loop.sending.inj hsending).1]
        exact decide_eq_true hpermit
      refused := fun index error' hmem => by
        rcases List.mem_append.mp hmem with hold | hnew
        · exact h.refused index error' hold
        · rw [(Prod.mk.inj (List.mem_singleton.mp hnew)).2]
          exact admitError_ordinary (decodeRequest_ordinary _ _) herror
      legal := htaken }
  · rw [heq]
    exact { h with
      early := fun hearly => absurd (hloop ▸ hearly) not_early_select
      permits := fun _ => hpermits
      legal := htaken }

theorem Orderly.dropTask (h : s.Orderly) (index : Nat) : (s.dropTask index).Orderly := by
  unfold State.dropTask
  split_ifs
  · exact { h with
      permits := fun hrunning => (h.permits hrunning).trans (by dsimp only; omega) }
  · exact h

theorem Orderly.closeWriter (h : s.Orderly) : s.closeWriter.Orderly := { h with
  early := fun hearly => ⟨(h.early hearly).1, (h.early hearly).2.1, rfl⟩
  permits := fun hrunning => by
    have hpermits := h.permits hrunning
    unfold State.closeWriter State.release
    dsimp only
    split_ifs <;> omega
  queued := nofun }

theorem Orderly.retire (h : s.Orderly) {response : Response} (hresponse : s.responses = some response)
    (hidle : s.writer = .idle) : (s.retire response).Orderly := { h with
  early := fun hearly => by
    have hended := (h.early hearly).2.2
    rw [hidle] at hended
    cases hended
  permits := fun hrunning => by
    have hpermits := h.permits hrunning
    have hcard := Finset.pred_card_le_card_erase (s := s.ids) (a := response.requestId)
    unfold State.retire State.release
    dsimp only
    rw [if_pos (h.queued response hresponse)]
    omega
  queued := nofun }

theorem Orderly.reply (h : s.Orderly) {index : Nat} {task : Task} {response : Response}
    (hpermit : response.permit = true) (hresponse : task.response = some response) :
    { s with tasks := s.tasks.erase index, responses := task.response }.Orderly := { h with
  queued := fun response' hqueued => by
    rw [← Option.some.inj (hresponse.symm.trans hqueued)]
    exact hpermit }

theorem Orderly.send (h : s.Orderly) {response : Response} {close : Bool} (hloop : s.loop = .sending response close) :
    { s with loop := .receipt close, responses := some response }.Orderly := { h with
  early := fun hearly => absurd hearly not_early_receipt
  permits := fun _ => h.permits (by rw [hloop]; exact ⟨not_early_sending, nofun⟩)
  queued := fun response' hqueued => by
    rw [← Option.some.inj hqueued]
    exact h.sending response close hloop
  sending := nofun }

theorem Orderly.greet (h : s.Orderly) (hinv : s.Inv token) (hloop : s.loop = .hello) {frame : Frame}
    (hlegal : frame.Legal) (input : Bytes) : ({ s with input := input }.greet token frame).Orderly := { h with
  early := fun _ => h.early (Or.inl hloop)
  permits := fun hrunning => absurd (Or.inr ⟨_, _, rfl⟩) hrunning.1
  sending := nofun
  legal := fun frame' hmem => by
    have htaken := (hinv.young hloop).1
    unfold State.greet at hmem
    rw [htaken] at hmem
    rw [List.mem_singleton.mp hmem]
    exact hlegal }

theorem Orderly.step (h : s.Orderly) (hinv : s.Inv token) {connection : Nat} {op : Op}
    (hop : s.Enabled connection op)
    (hmeets : ∀ frame, s.Meets frame op → frame.Legal ∧ frame.requestId ∉ s.ids ∧ s.ids.card < maxInFlight) :
    (s.next token op).Orderly := by
  cases op with
  | receive bytes => exact { h with }
  | hello =>
      obtain ⟨hloop, frame, rest, hread⟩ := hop
      unfold State.next
      rw [hread]
      exact h.greet hinv hloop (hmeets frame ⟨rest, hread⟩).1 rest
  | greet count =>
      obtain ⟨rest, accepted, hloop, -⟩ := hop
      unfold State.next
      rw [hloop]
      exact { h with
        early := fun _ => h.early (Or.inr ⟨_, _, hloop⟩)
        permits := fun hrunning => absurd (Or.inr ⟨_, _, rfl⟩) hrunning.1
        sending := by simp }
  | greeted =>
      obtain ⟨accepted, hloop⟩ := hop
      unfold State.next
      rw [hloop]
      cases accepted with
      | true => exact { h with
          early := fun hearly => absurd hearly not_early_select
          permits := fun _ => Nat.le_add_right _ _
          sending := fun _ _ hsending => by cases hsending }
      | false => exact h.returned
  | greetFailed => exact h.returned
  | read =>
      obtain ⟨hreading, frame, rest, hread⟩ := hop
      unfold State.next
      rw [hread]
      exact { h with
        early := fun hearly => by
          have hended := (h.early hearly).2.1
          rw [hreading] at hended
          cases hended }
  | readFailed => exact { h with early := fun hearly => ⟨(h.early hearly).1, rfl, (h.early hearly).2.2⟩ }
  | pass =>
      obtain ⟨⟨frame, hreader⟩, -⟩ := hop
      unfold State.next
      rw [hreader]
      exact { h with
        early := fun hearly => by
          have hended := (h.early hearly).2.1
          rw [hreader] at hended
          cases hended }
  | accept =>
      obtain ⟨hloop, hsome⟩ := hop
      obtain ⟨frame, hframe⟩ := Option.isSome_iff_exists.mp hsome
      obtain ⟨hlegal, hfree, hids⟩ := hmeets frame hframe
      unfold State.next
      rw [hframe]
      exact h.accept hloop hlegal hfree hids
  | finish index result => exact { h with }
  | panic index => exact { h.dropTask index with }
  | reply index =>
      obtain ⟨task, response, htask, hresponse, -⟩ := hop
      obtain ⟨frame, -, hserves⟩ := hinv.task index task htask
      simp only [State.next, htask]
      split_ifs
      · exact h.dropTask index
      · exact h.reply (hserves.response response hresponse).2.2.1 hresponse
  | send =>
      obtain ⟨⟨response, close, hloop⟩, -⟩ := hop
      unfold State.next
      rw [hloop]
      dsimp only
      split_ifs
      · exact { h.returned with permits := fun hrunning => absurd hrunning not_running_returned }
      · exact h.send hloop
  | receipt =>
      obtain ⟨⟨close, hloop⟩, -⟩ := hop
      unfold State.next
      rw [hloop]
      cases close with
      | true => exact h.returned
      | false => exact { h with
          early := fun hearly => absurd hearly not_early_select
          permits := fun _ => h.permits (by rw [hloop]; exact ⟨not_early_receipt, by simp⟩)
          sending := by simp }
  | take =>
      obtain ⟨hidle, hsome⟩ := hop
      obtain ⟨response, hresponse⟩ := Option.isSome_iff_exists.mp hsome
      unfold State.next
      rw [hresponse]
      exact h.retire hresponse hidle
  | put count =>
      obtain ⟨rest, written, hwriter, -⟩ := hop
      unfold State.next
      rw [hwriter]
      exact { h with
        early := fun hearly => by
          have hended := (h.early hearly).2.2
          rw [hwriter] at hended
          cases hended }
  | wrote =>
      obtain ⟨written, hwriter⟩ := hop
      unfold State.next
      rw [hwriter]
      exact { h with
        early := fun hearly => by
          have hended := (h.early hearly).2.2
          rw [hwriter] at hended
          cases hended }
  | writeFailed => exact h.closeWriter
  | leave => exact h.returned
  | cancel => exact h.returned
  | abortTask index => exact h.dropTask index
  | abortReader => exact { h with early := fun hearly => ⟨(h.early hearly).1, rfl, (h.early hearly).2.2⟩ }
  | abortWriter => exact h.closeWriter

end State

/-! ### What the connection holds -/

/-- The frame of a response. -/
def Response.answer (response : Response) : Frame := .answer response.opcode response.requestId response.body

def Reader.held : Reader → List Frame
  | .sending frame => [frame]
  | _ => []

def Loop.unwritten : Loop → Bytes
  | .greeting rest _ => rest
  | _ => []

theorem Loop.unwritten_eq_nil {loop : Loop} (h : ¬loop.Early) : loop.unwritten = [] := by
  cases loop with
  | greeting rest accepted => exact absurd (Or.inr ⟨rest, accepted, rfl⟩) h
  | _ => rfl

def Writer.unwritten : Writer → Bytes
  | .writing rest _ => rest
  | _ => []

namespace State

variable {token : String} {s t : State}

/-- The frames on their way from the stream to the loop. -/
def arrived (s : State) : List Frame := s.frames.toList ++ s.reader.held

/-- What the stream has still to take of the responses under way. -/
def unwritten (s : State) : Bytes := s.loop.unwritten ++ s.writer.unwritten

/-- A connection that writes nothing any more. -/
def Silent (s : State) : Prop := s.writer = .ended ∧ ¬s.loop.Early

/-- The steps that take no frame from the stream, take none from the channel and begin no response. -/
structure Quiet (s t : State) : Prop where
  input : t.input = s.input
  arrived : t.arrived.Sublist s.arrived
  ids : t.ids = s.ids
  taken : t.taken = s.taken
  answered : t.answered = s.answered
  output : ∃ gone, t.output ++ t.unwritten ++ gone = s.output ++ s.unwritten ∧ (gone = [] ∨ t.Silent)
  silent : s.Silent → t.Silent

theorem Quiet.of_same (hinput : t.input = s.input) (harrived : t.arrived.Sublist s.arrived) (hids : t.ids = s.ids)
    (htaken : t.taken = s.taken) (hanswered : t.answered = s.answered) (houtput : t.output = s.output)
    (hloop : t.loop = s.loop) (hwriter : t.writer = s.writer) : Quiet s t where
  input := hinput
  arrived := harrived
  ids := hids
  taken := htaken
  answered := hanswered
  output := by
    refine ⟨[], ?_, Or.inl rfl⟩
    unfold State.unwritten
    rw [houtput, hloop, hwriter, List.append_nil]
  silent hsilent := by
    unfold Silent
    rw [hloop, hwriter]
    exact hsilent

theorem Orderly.quiet_returned (h : s.Orderly) : Quiet s { s with loop := .returned } where
  input := rfl
  arrived := List.Sublist.refl _
  ids := rfl
  taken := rfl
  answered := rfl
  output := by
    by_cases hearly : s.loop.Early
    · have hended := (h.early hearly).2.2
      refine ⟨s.unwritten, ?_, Or.inr ⟨hended, not_early_returned⟩⟩
      unfold State.unwritten
      rw [hended]
      simp [Loop.unwritten, Writer.unwritten]
    · refine ⟨[], ?_, Or.inl rfl⟩
      unfold State.unwritten
      rw [Loop.unwritten_eq_nil hearly, List.append_nil]
      rfl
  silent hsilent := ⟨hsilent.1, not_early_returned⟩

theorem quiet_dropTask (index : Nat) : Quiet s (s.dropTask index) := by
  unfold dropTask
  split_ifs
  · exact .of_same rfl (List.Sublist.refl _) rfl rfl rfl rfl rfl rfl
  · exact .of_same rfl (List.Sublist.refl _) rfl rfl rfl rfl rfl rfl

theorem quiet_closeWriter (hloop : ¬s.loop.Early) : Quiet s s.closeWriter where
  input := rfl
  arrived := List.Sublist.refl _
  ids := rfl
  taken := rfl
  answered := rfl
  output := by
    refine ⟨s.writer.unwritten, ?_, Or.inr ⟨rfl, hloop⟩⟩
    unfold State.unwritten closeWriter State.release
    simp [Writer.unwritten]
  silent _ := ⟨rfl, hloop⟩

/-- A step of the loop that takes nothing. -/
theorem quiet_loop {loop : Loop} {responses : Option Response} {permits : Nat} (hbefore : ¬s.loop.Early)
    (hafter : ¬loop.Early) : Quiet s { s with loop := loop, responses := responses, permits := permits } where
  input := rfl
  arrived := List.Sublist.refl _
  ids := rfl
  taken := rfl
  answered := rfl
  output := by
    refine ⟨[], ?_, Or.inl rfl⟩
    unfold State.unwritten
    rw [Loop.unwritten_eq_nil hbefore, Loop.unwritten_eq_nil hafter, List.append_nil]
  silent hsilent := ⟨hsilent.1, hafter⟩

/-- The steps that move a frame or begin a response. -/
def Moves : Op → Prop
  | .receive _ => True
  | .hello => True
  | .read => True
  | .accept => True
  | .take => True
  | _ => False

theorem Orderly.quiet (h : s.Orderly) {connection : Nat} {op : Op} (hop : s.Enabled connection op)
    (hstill : ¬Moves op) : Quiet s (s.next token op) := by
  cases op with
  | receive bytes => exact absurd trivial hstill
  | hello => exact absurd trivial hstill
  | read => exact absurd trivial hstill
  | accept => exact absurd trivial hstill
  | take => exact absurd trivial hstill
  | greet count =>
      obtain ⟨rest, accepted, hloop, -⟩ := hop
      unfold State.next
      rw [hloop]
      exact {
        input := rfl
        arrived := List.Sublist.refl _
        ids := rfl
        taken := rfl
        answered := rfl
        output := by
          refine ⟨[], ?_, Or.inl rfl⟩
          unfold State.unwritten
          rw [hloop, List.append_nil]
          dsimp only [Loop.unwritten]
          rw [← List.append_assoc, List.append_assoc s.output, List.take_append_drop, List.append_assoc]
        silent := fun hsilent => absurd (Or.inr ⟨rest, accepted, hloop⟩) hsilent.2 }
  | greeted =>
      obtain ⟨accepted, hloop⟩ := hop
      have hearly : s.loop.Early := Or.inr ⟨_, _, hloop⟩
      unfold State.next
      rw [hloop]
      cases accepted with
      | true => exact {
          input := rfl
          arrived := List.Sublist.append_left (List.nil_sublist _) _
          ids := rfl
          taken := rfl
          answered := rfl
          output := by
            refine ⟨[], ?_, Or.inl rfl⟩
            unfold State.unwritten
            rw [hloop, (h.early hearly).2.2]
            simp [Loop.unwritten, Writer.unwritten, welcome]
          silent := fun hsilent => absurd hearly hsilent.2 }
      | false => exact h.quiet_returned
  | greetFailed => exact h.quiet_returned
  | readFailed => exact .of_same rfl (List.Sublist.append_left (List.nil_sublist _) _) rfl rfl rfl rfl rfl rfl
  | pass =>
      obtain ⟨⟨frame, hreader⟩, hroom, -⟩ := hop
      have harrived : s.arrived = [frame] := by
        unfold State.arrived
        rw [hreader, hroom]
        rfl
      simp only [State.next, hreader]
      exact .of_same rfl (harrived ▸ List.Sublist.refl _) rfl rfl rfl rfl rfl rfl
  | finish index result => exact .of_same rfl (List.Sublist.refl _) rfl rfl rfl rfl rfl rfl
  | panic index => exact { quiet_dropTask index with }
  | reply index =>
      obtain ⟨task, response, htask, -⟩ := hop
      simp only [State.next, htask]
      split_ifs
      · exact quiet_dropTask index
      · exact .of_same rfl (List.Sublist.refl _) rfl rfl rfl rfl rfl rfl
  | send =>
      obtain ⟨⟨response, close, hloop⟩, -⟩ := hop
      have hearly : ¬s.loop.Early := hloop ▸ not_early_sending
      unfold State.next
      rw [hloop]
      dsimp only
      split_ifs
      · exact quiet_loop hearly not_early_returned
      · exact quiet_loop hearly not_early_receipt
  | receipt =>
      obtain ⟨⟨close, hloop⟩, -⟩ := hop
      have hearly : ¬s.loop.Early := hloop ▸ not_early_receipt
      unfold State.next
      rw [hloop]
      cases close with
      | true => exact quiet_loop hearly not_early_returned
      | false => exact quiet_loop hearly not_early_select
  | put count =>
      obtain ⟨rest, written, hwriter, -⟩ := hop
      unfold State.next
      rw [hwriter]
      exact {
        input := rfl
        arrived := List.Sublist.refl _
        ids := rfl
        taken := rfl
        answered := rfl
        output := by
          have hnone : s.loop.unwritten = [] := by
            apply Loop.unwritten_eq_nil
            intro hearly
            have hended := (h.early hearly).2.2
            rw [hwriter] at hended
            cases hended
          refine ⟨[], ?_, Or.inl rfl⟩
          unfold State.unwritten
          rw [hwriter, hnone, List.append_nil, List.nil_append, List.nil_append]
          dsimp only [Writer.unwritten]
          rw [List.append_assoc, List.take_append_drop]
        silent := fun hsilent => by
          have hended := hsilent.1
          rw [hwriter] at hended
          cases hended }
  | wrote =>
      obtain ⟨written, hwriter⟩ := hop
      unfold State.next
      rw [hwriter]
      exact {
        input := rfl
        arrived := List.Sublist.refl _
        ids := rfl
        taken := rfl
        answered := rfl
        output := by
          refine ⟨[], ?_, Or.inl rfl⟩
          unfold State.unwritten
          rw [hwriter, List.append_nil]
          rfl
        silent := fun hsilent => by
          have hended := hsilent.1
          rw [hwriter] at hended
          cases hended }
  | writeFailed =>
      obtain ⟨rest, written, hwriter⟩ := hop
      apply quiet_closeWriter
      intro hearly
      have hended := (h.early hearly).2.2
      rw [hwriter] at hended
      cases hended
  | leave => exact h.quiet_returned
  | cancel => exact h.quiet_returned
  | abortTask index => exact quiet_dropTask index
  | abortReader => exact .of_same rfl (List.Sublist.append_left (List.nil_sublist _) _) rfl rfl rfl rfl rfl rfl
  | abortWriter => exact quiet_closeWriter (hop ▸ not_early_returned)

/-- A connection that has not read HELLO has written nothing. -/
theorem Orderly.hello_next (horderly : s.Orderly) {connection : Nat} {op : Op}
    (hop : s.Enabled connection op) (hlocal : ∀ bytes, op ≠ .receive bytes) (hhello : (s.next token op).loop = .hello) :
    s.loop = .hello ∧ (s.next token op).output = s.output := by
  have hwriting : ∀ {rest written}, s.loop = .hello → s.writer ≠ .writing rest written := by
    intro rest written hloop hwriter
    have hended := (horderly.early (Or.inl hloop)).2.2
    rw [hwriter] at hended
    cases hended
  cases op with
  | receive bytes => exact absurd rfl (hlocal bytes)
  | hello =>
      obtain ⟨-, frame, rest, hread⟩ := hop
      unfold State.next at hhello
      rw [hread] at hhello
      cases hhello
  | greet count =>
      obtain ⟨rest, accepted, hloop, -⟩ := hop
      unfold State.next at hhello
      rw [hloop] at hhello
      cases hhello
  | greeted =>
      obtain ⟨accepted, hloop⟩ := hop
      unfold State.next at hhello
      rw [hloop] at hhello
      cases accepted <;> cases hhello
  | greetFailed => cases hhello
  | read =>
      obtain ⟨-, frame, rest, hread⟩ := hop
      simp only [State.next, hread] at hhello ⊢
      exact ⟨hhello, trivial⟩
  | readFailed => exact ⟨hhello, rfl⟩
  | pass =>
      obtain ⟨⟨frame, hreader⟩, -⟩ := hop
      simp only [State.next, hreader] at hhello ⊢
      exact ⟨hhello, trivial⟩
  | accept =>
      obtain ⟨hloop, hsome⟩ := hop
      obtain ⟨frame, hframe⟩ := Option.isSome_iff_exists.mp hsome
      simp only [State.next, hframe] at hhello
      rcases State.accept_cases frame s with ⟨-, heq⟩ | ⟨-, error, -, heq⟩ | ⟨-, -, request, -, -, heq⟩
      · rw [heq] at hhello
        cases hhello
      · rw [heq] at hhello
        cases hhello
      · rw [heq] at hhello
        have hselect : s.loop = .hello := hhello
        rw [hloop] at hselect
        cases hselect
  | finish index result => exact ⟨hhello, rfl⟩
  | panic index =>
      simp only [State.next, State.dropTask] at hhello ⊢
      split_ifs at hhello ⊢ <;> exact ⟨hhello, rfl⟩
  | reply index =>
      obtain ⟨task, response, htask, -⟩ := hop
      simp only [State.next, htask, State.dropTask] at hhello ⊢
      split_ifs at hhello ⊢ <;> exact ⟨hhello, rfl⟩
  | send =>
      obtain ⟨⟨response, close, hloop⟩, -⟩ := hop
      unfold State.next at hhello
      rw [hloop] at hhello
      dsimp only at hhello
      split_ifs at hhello
  | receipt =>
      obtain ⟨⟨close, hloop⟩, -⟩ := hop
      unfold State.next at hhello
      rw [hloop] at hhello
      cases close <;> cases hhello
  | take =>
      obtain ⟨hidle, hsome⟩ := hop
      obtain ⟨response, hresponse⟩ := Option.isSome_iff_exists.mp hsome
      unfold State.next at hhello ⊢
      rw [hresponse] at hhello ⊢
      exact ⟨hhello, rfl⟩
  | put count =>
      obtain ⟨rest, written, hwriter, -⟩ := hop
      unfold State.next at hhello
      rw [hwriter] at hhello
      exact absurd hwriter (hwriting hhello)
  | wrote =>
      obtain ⟨written, hwriter⟩ := hop
      unfold State.next at hhello
      rw [hwriter] at hhello
      exact absurd hwriter (hwriting hhello)
  | writeFailed => exact ⟨hhello, rfl⟩
  | leave => cases hhello
  | cancel => cases hhello
  | abortTask index =>
      simp only [State.next, State.dropTask] at hhello ⊢
      split_ifs at hhello ⊢ <;> exact ⟨hhello, rfl⟩
  | abortReader => exact ⟨hhello, rfl⟩
  | abortWriter => exact ⟨hhello, rfl⟩

end State

end VeloBus.Connection
