import VeloBus.ConnectionErrors
import VeloBus.ConnectionInvariant

/-! Requests on one connection are multiplexed: bounded in number, apart by their identifiers, answered once
each, and none is taken after the peer breaks the protocol. -/

namespace VeloBus.Connection

namespace State

variable {token : String} {s : State}

/-! ### Tasks and responses -/

theorem Unfinished.of_responses {t : State} {index id : Nat} (h : t.Unfinished index id)
    (htasks : ∀ task, t.tasks.lookup index = some task →
      ∃ task', s.tasks.lookup index = some task' ∧ task'.requestId = task.requestId)
    (hresponses : t.responses = s.responses ∨ t.responses = none) : s.Unfinished index id := by
  rcases h with ⟨task, htask, rfl⟩ | ⟨response, hresponse, hqueued⟩
  · obtain ⟨task', htask', heq⟩ := htasks task htask
    exact Or.inl ⟨task', htask', heq⟩
  · rcases hresponses with hsame | hnone
    · exact Or.inr ⟨response, hsame ▸ hresponse, hqueued⟩
    · rw [hnone] at hresponse
      cases hresponse

theorem reply_serves {index : Nat} {task : Task} {frame : Frame} (h : task.Serves index frame)
    (result : Except Error Bytes) : { task with response := some (reply index task result) }.Serves index frame :=
  { h with
    response := fun response heq => by
      obtain rfl := Option.some.inj heq
      cases result with
      | ok body => exact ⟨rfl, ⟨h.requestId, Or.inl (congrArg (· ||| 128) h.opcode)⟩, rfl, rfl⟩
      | error error => exact ⟨rfl, ⟨h.requestId, Or.inr rfl⟩, rfl, rfl⟩ }

theorem Inv.finish (h : s.Inv token) {connection index : Nat} {result : Except Error Bytes}
    (hop : s.Enabled connection (.finish index result)) : (s.next token (.finish index result)).Inv token := by
  obtain ⟨task, htask, -, herror⟩ := hop
  have hnone : ∀ k, s.tasks.lookup k = none → (s.tasks.modify index fun task =>
      { task with response := some (reply index task result) }).lookup k = none := by
    intro k hk
    rw [Table.lookup_modify, hk, Option.map_none, ite_self]
  exact { h with
    early := fun hearly => by
      rw [(h.fresh hearly).tasks] at htask
      cases htask
    bound := by
      unfold State.next held
      rw [Table.size_modify]
      exact h.bound
    task := fun k task' hlookup => by
      unfold State.next at hlookup
      rw [Table.lookup_modify] at hlookup
      split_ifs at hlookup with heq
      · rw [heq] at hlookup ⊢
        obtain ⟨before, hbefore, rfl⟩ := Option.map_eq_some_iff.mp hlookup
        obtain ⟨frame, howes, hserves⟩ := h.task index before hbefore
        exact ⟨frame, howes, reply_serves hserves result⟩
      · exact h.task k task' hlookup
    queued := fun response hresponse => ⟨hnone _ (h.queued response hresponse).1, (h.queued response hresponse).2⟩
    sending := fun response close hsending =>
      ⟨hnone _ (h.sending response close hsending).1, (h.sending response close hsending).2⟩
    apart := fun k k' id hun hun' => by
      have hsame : ∀ k task', (s.tasks.modify index fun task =>
          { task with response := some (reply index task result) }).lookup k = some task' →
          ∃ before, s.tasks.lookup k = some before ∧ before.requestId = task'.requestId := by
        intro k task' hlookup
        rw [Table.lookup_modify] at hlookup
        split_ifs at hlookup
        · obtain ⟨before, hbefore, rfl⟩ := Option.map_eq_some_iff.mp hlookup
          exact ⟨before, hbefore, rfl⟩
        · exact ⟨task', hlookup, rfl⟩
      exact h.apart k k' id (hun.of_responses (hsame k) (Or.inl rfl)) (hun'.of_responses (hsame k') (Or.inl rfl))
    failed := fun k error hmem => by
      unfold State.next at hmem
      cases result with
      | ok body => exact h.failed k error hmem
      | error error' =>
          rcases List.mem_append.mp hmem with hold | hnew
          · exact h.failed k error hold
          · obtain ⟨rfl, rfl⟩ := Prod.mk.inj (List.mem_singleton.mp hnew)
            obtain ⟨frame, -, hserves⟩ := h.task k task htask
            exact (herror error rfl).not_protocol hserves.notHello }

theorem Inv.dropTask (h : s.Inv token) (index : Nat) : (s.dropTask index).Inv token := by
  unfold State.dropTask
  split_ifs with hsome
  swap
  · exact h
  obtain ⟨task, htask⟩ := Option.isSome_iff_exists.mp hsome
  have hnone : ∀ k, s.tasks.lookup k = none → (s.tasks.erase index).lookup k = none := by
    intro k hk
    rw [Table.lookup_erase_ite, hk, ite_self]
  have hkept : ∀ k task', (s.tasks.erase index).lookup k = some task' → s.tasks.lookup k = some task' := by
    intro k task' hk
    rw [Table.lookup_erase_ite] at hk
    split_ifs at hk
    exact hk
  exact { h with
    early := fun hearly => by
      rw [(h.fresh hearly).tasks] at htask
      cases htask
    bound := by
      have hbound := h.bound
      have hsize := Table.size_erase htask
      unfold held at hbound ⊢
      dsimp only
      omega
    task := fun k task' hk => h.task k task' (hkept k task' hk)
    queued := fun response hresponse => ⟨hnone _ (h.queued response hresponse).1, (h.queued response hresponse).2⟩
    sending := fun response close hsending =>
      ⟨hnone _ (h.sending response close hsending).1, (h.sending response close hsending).2⟩
    apart := fun k k' id hun hun' => h.apart k k' id
      (hun.of_responses (fun task' hk => ⟨task', hkept k task' hk, rfl⟩) (Or.inl rfl))
      (hun'.of_responses (fun task' hk => ⟨task', hkept k' task' hk, rfl⟩) (Or.inl rfl)) }

theorem Inv.reply (h : s.Inv token) {index : Nat} {task : Task} {response : Response}
    (htask : s.tasks.lookup index = some task) (hresponse : task.response = some response)
    (hroom : s.responses = none) :
    { s with tasks := s.tasks.erase index, responses := task.response }.Inv token := by
  obtain ⟨frame, howes, hserves⟩ := h.task index task htask
  obtain ⟨hframe, hfor, hpermit, hwritten⟩ := hserves.response response hresponse
  have hnone : ∀ k, s.tasks.lookup k = none → (s.tasks.erase index).lookup k = none := by
    intro k hk
    rw [Table.lookup_erase_ite, hk, ite_self]
  have hkept : ∀ k task', (s.tasks.erase index).lookup k = some task' → s.tasks.lookup k = some task' := by
    intro k task' hk
    rw [Table.lookup_erase_ite] at hk
    split_ifs at hk
    exact hk
  have hun : ∀ {k id}, { s with tasks := s.tasks.erase index, responses := task.response }.Unfinished k id →
      s.Unfinished k id := by
    rintro k id (⟨task', hk, rfl⟩ | ⟨response', hqueued, -, rfl, rfl⟩)
    · exact Or.inl ⟨task', hkept k task' hk, rfl⟩
    · obtain rfl := Option.some.inj (hresponse.symm.trans hqueued)
      exact Or.inl ⟨task, hframe ▸ htask, hserves.requestId.trans hfor.1.symm⟩
  exact { h with
    early := fun hearly => by
      rw [(h.fresh hearly).tasks] at htask
      cases htask
    bound := by
      have hbound := h.bound
      have hsize := Table.size_erase htask
      have hweight : response.weight = 1 := by
        unfold Response.weight
        rw [hpermit]
        rfl
      unfold held at hbound ⊢
      rw [hroom] at hbound
      rw [hresponse]
      simp only [Option.elim_none, Option.elim_some, hweight] at hbound ⊢
      omega
    task := fun k task' hk => h.task k task' (hkept k task' hk)
    queued := fun response' hqueued => by
      obtain rfl := Option.some.inj (hresponse.symm.trans hqueued)
      refine ⟨?_, fun _ => hpermit, frame, hframe ▸ howes, hfor⟩
      rw [hframe, Table.lookup_erase_ite, if_pos rfl]
    sending := fun response' close hsending => by
      obtain ⟨hfree, hreceipt, -, hrest⟩ := h.sending response' close hsending
      refine ⟨hnone _ hfree, hreceipt, fun queued hqueued heq => ?_, hrest⟩
      obtain rfl := Option.some.inj (hresponse.symm.trans hqueued)
      rw [← heq, hframe, htask] at hfree
      cases hfree
    apart := fun k k' id hun₁ hun₂ => h.apart k k' id (hun hun₁) (hun hun₂) }

theorem Inv.closeWriter (h : s.Inv token) : s.closeWriter.Inv token := { h with
  early := fun hearly => ⟨(h.early hearly).1, rfl, (h.early hearly).2.2⟩
  bound := by
    have hbound := h.bound
    unfold State.closeWriter State.release held at *
    cases hresponse : s.responses with
    | none =>
        rw [hresponse] at hbound
        exact hbound
    | some response =>
        rw [hresponse] at hbound
        simp only [Option.any_some, Option.elim_some, Option.elim_none, Response.weight] at hbound ⊢
        split_ifs at hbound ⊢ <;> omega
  queued := nofun
  sending := fun response' close hsending =>
    ⟨(h.sending response' close hsending).1, (h.sending response' close hsending).2.1, nofun,
      (h.sending response' close hsending).2.2.2⟩
  apart := fun k k' id hun hun' => h.apart k k' id
    (hun.of_responses (fun task hk => ⟨task, hk, rfl⟩) (Or.inr rfl))
    (hun'.of_responses (fun task hk => ⟨task, hk, rfl⟩) (Or.inr rfl)) }

/-- The loop has handed its response to the writer. -/
theorem Inv.send (h : s.Inv token) {response : Response} {close : Bool} (hloop : s.loop = .sending response close)
    (hroom : s.responses = none) :
    { s with loop := .receipt close, responses := some response }.Inv token := by
  obtain ⟨hfree, hwritten, -, frame, howes, hfor⟩ := h.sending response close hloop
  have hun : ∀ {k id}, { s with loop := .receipt close, responses := some response }.Unfinished k id →
      s.Unfinished k id := by
    rintro k id (htask | ⟨response', hqueued, hnot, -⟩)
    · exact Or.inl htask
    · obtain rfl := Option.some.inj hqueued
      rw [hwritten] at hnot
      cases hnot
  exact { h with
    welcomed := fun _ => h.welcomed <| Or.inl <| by
      rw [hloop]
      refine ⟨?_, nofun⟩
      rintro (hhello | ⟨rest, accepted, hgreeting⟩)
      · cases hhello
      · cases hgreeting
    young := nofun
    early := by
      rintro (hhello | ⟨rest, accepted, hgreeting⟩)
      · cases hhello
      · cases hgreeting
    bound := by
      have hbound := h.bound
      unfold held at hbound ⊢
      rw [hroom, hloop] at hbound
      exact hbound
    queued := fun response' hqueued => by
      obtain rfl := Option.some.inj hqueued
      refine ⟨hfree, fun hnot => ?_, frame, howes, hfor⟩
      rw [hwritten] at hnot
      cases hnot
    sending := nofun
    apart := fun k k' id hun₁ hun₂ => h.apart k k' id (hun hun₁) (hun hun₂)
    closing := fun index hfatal => by
      obtain ⟨hclosing, hrest⟩ := h.closing index hfatal
      refine ⟨?_, hrest⟩
      rw [hloop] at hclosing
      rcases hclosing with hreturned | hreceipt | ⟨response', hsending⟩
      · cases hreturned
      · cases hreceipt
      · rw [(Loop.sending.inj hsending).2]
        exact Or.inr (Or.inl rfl) }

/-- The loop goes on after an error that does not close the connection. -/
theorem Inv.resume (h : s.Inv token) (hloop : s.loop = .receipt false) : { s with loop := .select }.Inv token := { h with
  welcomed := fun _ => h.welcomed <| Or.inl <| by
    rw [hloop]
    refine ⟨?_, nofun⟩
    rintro (hhello | ⟨rest, accepted, hgreeting⟩)
    · cases hhello
    · cases hgreeting
  young := nofun
  early := by
    rintro (hhello | ⟨rest, accepted, hgreeting⟩)
    · cases hhello
    · cases hgreeting
  bound := by
    have hbound := h.bound
    unfold held at hbound ⊢
    rw [hloop] at hbound
    exact hbound
  sending := nofun
  closing := fun index hfatal => by
    have hclosing := (h.closing index hfatal).1
    rw [hloop] at hclosing
    rcases hclosing with hreturned | hreceipt | ⟨response, hsending⟩
    · cases hreturned
    · cases hreceipt
    · cases hsending }

theorem owes_retire {response : Response} {index : Nat} {frame : Frame} :
    (s.retire response).Owes index frame ↔ s.Owes index frame ∧ index ≠ response.frame := by
  unfold Owes retire
  rw [List.map_append, List.mem_append, not_or, List.map_singleton, List.mem_singleton]
  constructor
  · rintro ⟨hindex, hframe, hnot, hne⟩
    exact ⟨⟨hindex, hframe, hnot⟩, hne⟩
  · rintro ⟨⟨hindex, hframe, hnot⟩, hne⟩
    exact ⟨hindex, hframe, hnot, hne⟩

theorem Inv.retire (h : s.Inv token) {response : Response} (hresponse : s.responses = some response) :
    (s.retire response).Inv token := by
  obtain ⟨hfree, hpermit, frame, howes, hfor⟩ := h.queued response hresponse
  exact { h with
    early := fun hearly => by
      rw [(h.fresh hearly).responses] at hresponse
      cases hresponse
    young := fun hyoung => by
      rw [(h.fresh (Or.inl hyoung)).responses] at hresponse
      cases hresponse
    bound := by
      have hbound := h.bound
      unfold State.retire State.release held at *
      rw [hresponse] at hbound
      simp only [Option.elim_some, Option.elim_none, Response.weight] at hbound ⊢
      split_ifs at hbound ⊢ <;> omega
    task := fun index task htask => by
      obtain ⟨frame', howes', hserves⟩ := h.task index task htask
      refine ⟨frame', owes_retire.mpr ⟨howes', fun heq => ?_⟩, hserves⟩
      rw [← heq] at hfree
      exact absurd (hfree.symm.trans htask) nofun
    queued := nofun
    sending := fun response' close hsending => by
      obtain ⟨hfree', hwritten', hapart, frame', howes', hfor'⟩ := h.sending response' close hsending
      exact ⟨hfree', hwritten', nofun, frame', owes_retire.mpr ⟨howes', (hapart response hresponse).symm⟩, hfor'⟩
    ids := fun hnone id => by
      have hids : (s.retire response).ids = s.ids.erase response.requestId := rfl
      rw [hids, Finset.mem_erase, h.ids hnone]
      constructor
      · rintro ⟨hne, index, frame', howes', rfl⟩
        refine ⟨index, frame', owes_retire.mpr ⟨howes', fun heq => ?_⟩, rfl⟩
        rw [heq] at howes'
        obtain rfl := Option.some.inj (howes.2.1.symm.trans howes'.2.1)
        exact hne hfor.1.symm
      · rintro ⟨index, frame', howes', rfl⟩
        obtain ⟨hold, hne⟩ := owes_retire.mp howes'
        exact ⟨fun heq => hne (h.single hnone _ _ _ _ hold howes (heq.trans hfor.1)), index, frame', hold, rfl⟩
    single := fun hnone index index' frame₁ frame₂ howes₁ howes₂ =>
      h.single hnone index index' frame₁ frame₂ (owes_retire.mp howes₁).1 (owes_retire.mp howes₂).1
    apart := fun k k' id hun hun' => h.apart k k' id
      (hun.of_responses (fun task hk => ⟨task, hk, rfl⟩) (Or.inr rfl))
      (hun'.of_responses (fun task hk => ⟨task, hk, rfl⟩) (Or.inr rfl))
    once := by
      have hanswered : (s.retire response).answered = s.answered ++ [(response.frame, response.bytes)] := rfl
      rw [hanswered, List.map_append]
      apply h.once.append (List.nodup_singleton _)
      intro index hmem hmem'
      rw [List.mem_singleton.mp hmem'] at hmem
      exact howes.2.2 hmem
    answered := fun index bytes hmem => by
      rcases List.mem_append.mp hmem with hold | hnew
      · exact h.answered index bytes hold
      · obtain ⟨rfl, rfl⟩ := Prod.mk.inj (List.mem_singleton.mp hnew)
        obtain ⟨opcode, body, heq, hopcode⟩ := responseFrame_eq response.opcode response.requestId response.body
        refine ⟨frame, howes.2.1, opcode, body, heq.trans (by rw [hfor.1]), ?_⟩
        rcases hopcode with rfl | rfl
        · exact hfor.2
        · exact Or.inr rfl }

theorem Inv.step (h : s.Inv token) {connection : Nat} {op : Op} (hop : s.Enabled connection op) :
    (s.next token op).Inv token := by
  cases op with
  | receive bytes => exact { h with }
  | hello =>
      obtain ⟨hloop, frame, rest, hread⟩ := hop
      unfold State.next
      rw [hread]
      exact h.greet hloop frame rest
  | greet count =>
      obtain ⟨rest, accepted, hloop, -⟩ := hop
      unfold State.next
      rw [hloop]
      exact h.greeting hloop _ _
  | greeted =>
      obtain ⟨accepted, hloop⟩ := hop
      unfold State.next
      rw [hloop]
      cases accepted with
      | true => exact h.welcome hloop
      | false => exact h.returned
  | greetFailed => exact h.returned
  | read =>
      obtain ⟨-, frame, rest, hread⟩ := hop
      unfold State.next
      rw [hread]
      exact { h with }
  | readFailed => exact { h with }
  | pass =>
      obtain ⟨⟨frame, hreader⟩, -⟩ := hop
      unfold State.next
      rw [hreader]
      exact { h with }
  | accept =>
      obtain ⟨hloop, hsome⟩ := hop
      obtain ⟨frame, hframe⟩ := Option.isSome_iff_exists.mp hsome
      unfold State.next
      rw [hframe]
      exact h.accept hloop frame
  | finish index result => exact h.finish hop
  | panic index => exact { h.dropTask index with }
  | reply index =>
      obtain ⟨task, response, htask, hresponse, hroom⟩ := hop
      simp only [State.next, htask]
      split_ifs with hended
      · exact h.dropTask index
      · exact h.reply htask hresponse (hroom.resolve_right hended)
  | send =>
      obtain ⟨⟨response, close, hloop⟩, hroom⟩ := hop
      unfold State.next
      rw [hloop]
      dsimp only
      split_ifs with hended
      · exact { h.returned with
          bound := by
            have hbound := h.bound
            unfold State.release held at *
            rw [hloop] at hbound
            simp only [Loop.weight, Response.weight] at hbound ⊢
            split_ifs at hbound ⊢ <;> omega }
      · exact h.send hloop (hroom.resolve_right hended)
  | receipt =>
      obtain ⟨⟨close, hloop⟩, -⟩ := hop
      unfold State.next
      rw [hloop]
      cases close with
      | true => exact h.returned
      | false => exact h.resume hloop
  | take =>
      obtain ⟨-, hsome⟩ := hop
      obtain ⟨response, hresponse⟩ := Option.isSome_iff_exists.mp hsome
      unfold State.next
      rw [hresponse]
      exact h.retire hresponse
  | put count =>
      obtain ⟨rest, written, hwriter, -⟩ := hop
      unfold State.next
      rw [hwriter]
      exact { h with }
  | wrote =>
      obtain ⟨written, hwriter⟩ := hop
      unfold State.next
      rw [hwriter]
      exact { h with }
  | writeFailed => exact h.closeWriter
  | leave => exact h.returned
  | cancel => exact h.returned
  | abortTask index => exact h.dropTask index
  | abortReader => exact { h with }
  | abortWriter => exact h.closeWriter

end State

/-! ### Multiplexing -/

/-- The number of operations that are unfinished or whose response waits for the writer. -/
def State.unfinished (s : State) : Nat :=
  s.tasks.size + if s.responses.any fun response => response.written = false then 1 else 0

/-- What holds of a connection at every moment. -/
structure State.Multiplexed (token : String) (s : State) : Prop where
  welcomed : s.dispatched ≠ [] → Welcomed token s.taken
  inFlight : s.unfinished ≤ 32
  apart : ∀ index index' id, s.Unfinished index id → s.Unfinished index' id → index = index'
  once : (s.answered.map Prod.fst).Nodup
  answered : ∀ index bytes, (index, bytes) ∈ s.answered → ∃ frame, s.taken[index]? = some frame ∧
    ∃ opcode body, bytes = envelope opcode frame.requestId body ∧ (opcode = frame.opcode ||| 128 ∨ opcode = 255)
  ids : s.duplicates = [] → ∀ id, id ∈ s.ids ↔ ∃ index frame, s.Owes index frame ∧ frame.requestId = id
  closing : ∀ index, s.Fatal index → ∀ later request, (later, request) ∈ s.dispatched → later < index
  failed : ∀ index error, (index, error) ∈ s.failed → error.code ≠ Code.protocol

theorem State.Inv.unfinished_le {token : String} {s : State} (h : s.Inv token) : s.unfinished ≤ 32 := by
  have hbound := h.bound
  unfold State.held maxInFlight at hbound
  unfold State.unfinished
  cases hresponse : s.responses with
  | none =>
      rw [hresponse] at hbound
      simp only [Option.any_none, Bool.false_eq_true, if_false, Option.elim_none] at hbound ⊢
      omega
  | some response =>
      rw [hresponse] at hbound
      simp only [Option.any_some, decide_eq_true_eq, Option.elim_some, Response.weight] at hbound ⊢
      have hpermit := (h.queued response hresponse).2.1
      split_ifs with hwritten
      · rw [hpermit hwritten] at hbound
        simp only [if_true] at hbound
        omega
      · split_ifs at hbound <;> omega

theorem inv {token : String} {connection : Nat} {s : State} (h : (machine token connection).Reachable s) :
    s.Inv token := by
  apply h.invariant
  · intro s hstart
    rw [hstart]
    exact State.new_inv
  · intro s op t hreach hs hstep
    rw [hstep.2]
    exact hs.step hstep.1

/-- **One connection, any client.** Nothing is dispatched without a valid HELLO; at most 32 operations are
unfinished at once, under distinct identifiers; a frame has at most one response, with its identifier and its
opcode or that of an error; `ids` are those of the frames that wait for one; and nothing is dispatched after
an identifier in use, a second HELLO or a protocol error. -/
theorem multiplexed (token : String) (connection : Nat) (s : State)
    (h : (machine token connection).Reachable s) : s.Multiplexed token where
  welcomed hdispatched := (inv h).welcomed (Or.inr (Or.inr hdispatched))
  inFlight := (inv h).unfinished_le
  apart := (inv h).apart
  once := (inv h).once
  answered := (inv h).answered
  ids := (inv h).ids
  closing index hfatal later request hmem := by
    obtain ⟨-, hlength, hnot⟩ := (inv h).closing index hfatal
    have hlater := List.mem_map_of_mem (f := Prod.fst) hmem
    have hlt := (inv h).dispatched_lt hlater
    have hne : later ≠ index := fun heq => hnot (heq ▸ hlater)
    dsimp only at hlt
    omega
  failed := (inv h).failed

/-- A client was welcomed and its PING is an operation. -/
def pinged : State :=
  ((((((State.new.next "" (.receive ([0, 0, 0, 9, 1, 0, 0, 0, 1, 0, 1, 0, 0] ++ [0, 0, 0, 5, 5, 0, 0, 0, 1]))).next ""
    .hello).next "" (.greet 11)).next "" .greeted).next "" .read).next "" .pass).next "" .accept

theorem pinged_reachable : (machine "" 7).Reachable pinged := by
  have h := Transition.Reachable.of_start (T := machine "" 7) rfl
  have h := h.step (l := Op.receive ([0, 0, 0, 9, 1, 0, 0, 0, 1, 0, 1, 0, 0] ++ [0, 0, 0, 5, 5, 0, 0, 0, 1])) ⟨trivial, rfl⟩
  have h := h.step (l := Op.hello) ⟨⟨rfl, _, _, rfl⟩, rfl⟩
  have h := h.step (l := Op.greet 11) ⟨⟨_, _, rfl, by decide, by decide⟩, rfl⟩
  have h := h.step (l := Op.greeted) ⟨⟨true, rfl⟩, rfl⟩
  have h := h.step (l := Op.read) ⟨⟨rfl, _, _, rfl⟩, rfl⟩
  have h := h.step (l := Op.pass) ⟨⟨⟨_, rfl⟩, rfl, nofun⟩, rfl⟩
  exact h.step (l := Op.accept) ⟨⟨rfl, rfl⟩, rfl⟩

theorem multiplexed_pinged : pinged.dispatched = [(1, .ping)] ∧ pinged.Multiplexed "" :=
  ⟨rfl, multiplexed "" 7 pinged pinged_reachable⟩

end VeloBus.Connection
