import VeloBus.StationCounter

/-! The steps of the broker's side: the loop, the tasks and what they do at the scheduler. -/

namespace VeloBus.Station

namespace Desk

variable {d d' : Desk} {moved : Option Place} {takes takes' : Table Nat Progress} {server : Connection.State}
  {token : String}

/-- A task has its response, and is in no `take` any more. -/
theorem Counter.finish (h : d.Counter server takes) (hk : d.Keeps d' moved) (hinv : server.Inv token)
    (hduplicates : server.duplicates = []) {index : Nat} {task : Connection.Task}
    (htask : server.tasks.lookup index = some task)
    (haway : ∀ request ∈ server.ids, request ≠ task.requestId →
      some (.answer request) ≠ moved ∧ some (.complete request) ≠ moved)
    {result : Except Error Bytes} (htells : d'.Tells task.opcode (Connection.State.reply index task result).answer)
    (herror : ∀ error, result = .error error → task.opcode ≠ 8 ∧ task.opcode ≠ 9)
    (hlookup : ∀ index', takes'.lookup index' = if index' = index then none else takes.lookup index')
    (htakes : ∀ take, d'.sys.Takes d'.worker take ↔ d.sys.Takes d.worker take ∧
      ∀ progress, takes.lookup index = some progress → progress.take ≠ take) :
    d'.Counter (server.next token (.finish index result)) takes' := by
  obtain ⟨frame, howes, hserves⟩ := hinv.task index task htask
  have hresponds : ∀ response, server.tasks.lookup response.frame = none →
      (∃ frame, server.Owes response.frame frame ∧ response.For frame) → d.Responds server response →
      d'.Responds server response := by
    intro response hfree hfor hold frame' howes'
    obtain ⟨frame'', howes'', hid, -⟩ := hfor
    obtain rfl := howes''.unique howes'
    apply hk.tells _ (hold frame'' howes')
    rw [response.answer_requestId, hid]
    apply (haway _ ((hinv.ids hduplicates _).mpr ⟨_, frame'', howes'', rfl⟩) _).1
    intro heq
    have hindex := hinv.single hduplicates _ _ _ _ howes'' howes (heq.trans hserves.requestId)
    rw [hindex, htask] at hfree
    cases hfree
  exact {
    tasks := fun index' task' htask' => by
      have hmodify : (server.tasks.modify index fun task =>
        { task with response := some (Connection.State.reply index task result) }).lookup index' = some task' := htask'
      rw [Table.lookup_modify] at hmodify
      split_ifs at hmodify with hindex
      · rw [hindex, htask, Option.map_some] at hmodify
        rw [← Option.some.inj hmodify]
        refine ⟨fun response hresponse => ?_, nofun, nofun, nofun⟩
        rw [← Option.some.inj hresponse]
        exact htells
      · have hne : task'.requestId ≠ task.requestId := fun heq =>
          hindex (hinv.task_single hduplicates hmodify htask heq)
        obtain ⟨hanswer, hcomplete⟩ := haway _ (hinv.task_id hduplicates hmodify) hne
        apply (h.tasks index' task' hmodify).keeps hk hanswer hcomplete fun _ => reply_id hinv hmodify
        rw [hlookup, if_neg hindex]
    queued := fun response hresponse =>
      hresponds response (hinv.queued response hresponse).1 (hinv.queued response hresponse).2.2
        (h.queued response hresponse)
    sending := fun response close hloop =>
      hresponds response (hinv.sending response close hloop).1 (hinv.sending response close hloop).2.2.2
        (h.sending response close hloop)
    serves := fun index' progress hprogress => by
      rw [hlookup] at hprogress
      split_ifs at hprogress with hindex
      obtain ⟨hTakes, task', waitMs, htask', hnone, hrequest⟩ := h.serves index' progress hprogress
      refine ⟨(htakes _).mpr ⟨hTakes, fun progress' hprogress' heq => ?_⟩, task', waitMs, ?_, hnone, hrequest⟩
      · exact hindex (h.apart index' index progress progress' hprogress hprogress' heq.symm)
      · have hmodify : (server.tasks.modify index fun task =>
          { task with response := some (Connection.State.reply index task result) }).lookup index' =
            server.tasks.lookup index' := by
          rw [Table.lookup_modify, if_neg hindex]
        exact hmodify.trans htask'
    owned := fun take hTakes => by
      obtain ⟨hold, hnot⟩ := (htakes take).mp hTakes
      obtain ⟨index', progress, hprogress, rfl⟩ := h.owned take hold
      have hindex : index' ≠ index := by
        rintro rfl
        exact hnot progress hprogress rfl
      refine ⟨index', progress, ?_, rfl⟩
      rw [hlookup, if_neg hindex]
      exact hprogress
    apart := fun index₁ index₂ progress₁ progress₂ hprogress₁ hprogress₂ heq => by
      rw [hlookup] at hprogress₁ hprogress₂
      split_ifs at hprogress₁ hprogress₂
      exact h.apart index₁ index₂ progress₁ progress₂ hprogress₁ hprogress₂ heq
    honest := fun index' error hmem => by
      cases result with
      | ok body => exact h.honest index' error hmem
      | error error' =>
          have hmem' : (index', error) ∈ server.refused ++ (server.failed ++ [(index, error')]) := hmem
          rw [← List.append_assoc] at hmem'
          rcases List.mem_append.mp hmem' with hold | hnew
          · exact h.honest index' error hold
          · rw [(Prod.mk.inj (List.mem_singleton.mp hnew)).1]
            have hplain := herror error' rfl
            rw [hserves.opcode] at hplain
            exact ⟨frame, howes.2.1, hplain⟩
    written := h.written }

theorem reply_opcode {index : Nat} {task : Connection.Task} {error : Error} :
    (Connection.State.reply index task (.error error)).answer.opcode = 255 := or_self_iff.mp Frame.answer_opcode

/-- An error says nothing where it answers neither TAKE nor COMPLETE. -/
theorem tells_error {opcode : Nat} {response : Frame} (hcode : response.opcode = 255)
    (hplain : opcode ≠ 8 ∧ opcode ≠ 9) : d.Tells opcode response :=
  ⟨fun _ hok => absurd hcode hok, fun htake => absurd htake hplain.1, fun hcomplete => absurd hcomplete hplain.2⟩

theorem tells_other {opcode : Nat} {response : Frame} (hregister : opcode ≠ 6) (htake : opcode ≠ 8)
    (hcomplete : opcode ≠ 9) : d.Tells opcode response :=
  ⟨fun heq => absurd heq hregister, fun heq => absurd heq htake, fun heq => absurd heq hcomplete⟩

theorem not_scheduled {request : Request} (h : ¬Scheduled request) :
    request.opcode ≠ 6 ∧ request.opcode ≠ 8 ∧ request.opcode ≠ 9 ∧ ∀ waitMs, request ≠ .take waitMs := by
  cases request with
  | register route concurrency queueLimit => exact absurd trivial h
  | take waitMs => exact absurd trivial h
  | complete id failed payload => exact absurd trivial h
  | _ => exact ⟨nofun, nofun, nofun, nofun⟩

/-! ### The loop and the writer -/

/-- The steps of the connection that are not part of another step. -/
theorem Counter.server_step (h : d.Counter server takes) (hinv : server.Inv token)
    (hduplicates : server.duplicates = [])
    {connection : Nat} {op : Connection.Op} (hop : server.Enabled connection op) (hlocal : ∀ bytes, op ≠ .receive bytes)
    (hends : ∀ index result task, op = .finish index result ∨ op = .panic index →
      server.tasks.lookup index = some task → task.response = none → ¬Scheduled task.request)
    (haborts : ∀ index, op ≠ .abortTask index)
    (hmeets : ∀ frame, server.Meets frame op → d.Asks frame ∧ (op = .hello → frame.opcode = 1) ∧
      frame.requestId ∉ server.ids ∧ (op = .accept → 0 < server.permits))
    (hup : (server.next token op).loop ≠ .returned) : d.Counter (server.next token op) takes := by
  cases op with
  | receive bytes => exact absurd rfl (hlocal bytes)
  | hello =>
      obtain ⟨hloop, frame, rest, hread⟩ := hop
      have hfirst := (hmeets frame ⟨rest, hread⟩).2.1 rfl
      unfold Connection.State.next
      rw [hread]
      exact h.greet hinv hloop hfirst rest
  | greet count =>
      obtain ⟨rest, accepted, hloop, -⟩ := hop
      unfold Connection.State.next
      rw [hloop]
      exact h.of_same rfl (fun _ hresponse => hresponse) (by simp) rfl rfl rfl rfl
  | greeted =>
      obtain ⟨accepted, hloop⟩ := hop
      unfold Connection.State.next at hup ⊢
      rw [hloop] at hup ⊢
      cases accepted with
      | true => exact h.of_same rfl (fun _ hresponse => hresponse) (fun _ _ hloop => by cases hloop) rfl rfl rfl rfl
      | false => exact absurd rfl hup
  | greetFailed => exact absurd rfl hup
  | read =>
      obtain ⟨-, frame, rest, hread⟩ := hop
      unfold Connection.State.next
      rw [hread]
      exact h.of_same rfl (fun _ hresponse => hresponse) (fun _ _ hloop => hloop) rfl rfl rfl rfl
  | readFailed => exact h.of_same rfl (fun _ hresponse => hresponse) (fun _ _ hloop => hloop) rfl rfl rfl rfl
  | pass =>
      obtain ⟨⟨frame, hreader⟩, -⟩ := hop
      unfold Connection.State.next
      rw [hreader]
      exact h.of_same rfl (fun _ hresponse => hresponse) (fun _ _ hloop => hloop) rfl rfl rfl rfl
  | accept =>
      obtain ⟨hloop, hsome⟩ := hop
      obtain ⟨frame, hframe⟩ := Option.isSome_iff_exists.mp hsome
      obtain ⟨hasks, -, hfree, hpermit⟩ := hmeets frame hframe
      unfold Connection.State.next
      rw [hframe]
      exact h.accept hinv hloop hasks hfree (hpermit rfl)
  | finish index result =>
      obtain ⟨task, htask, hnone, -⟩ := hop
      obtain ⟨frame, -, hserves⟩ := hinv.task index task htask
      obtain ⟨hregister, htake, hcomplete, hnot⟩ :=
        not_scheduled (hends index result task (Or.inl rfl) htask hnone)
      have hfree := h.not_taking htask (Or.inr hnot)
      rw [← hserves.opcode_eq] at hregister htake hcomplete
      apply h.finish (.refl d) hinv hduplicates htask (fun _ _ _ => ⟨by simp, by simp⟩)
        (tells_other hregister htake hcomplete) (fun _ _ => ⟨htake, hcomplete⟩)
      · intro index'
        split_ifs with hindex
        · rw [hindex]
          exact hfree
        · rfl
      · intro take
        refine ⟨fun hTakes => ⟨hTakes, fun progress hprogress => ?_⟩, And.left⟩
        rw [hfree] at hprogress
        cases hprogress
  | panic index =>
      obtain ⟨task, htask, hnone⟩ := hop
      obtain ⟨-, -, -, hnot⟩ := not_scheduled (hends index (.ok []) task (Or.inr rfl) htask hnone)
      have hdrop : server.dropTask index =
          { server with tasks := server.tasks.erase index, permits := server.permits + 1 } := by
        unfold Connection.State.dropTask
        rw [if_pos (by rw [htask]; rfl)]
      simp only [Connection.State.next, hdrop]
      exact h.erase (h.not_taking htask (Or.inr hnot)) h.queued rfl rfl rfl rfl rfl rfl
  | reply index =>
      obtain ⟨task, response, htask, hresponse, -⟩ := hop
      have hsome : task.response ≠ none := by
        rw [hresponse]
        exact Option.some_ne_none _
      have hdrop : server.dropTask index =
          { server with tasks := server.tasks.erase index, permits := server.permits + 1 } := by
        unfold Connection.State.dropTask
        rw [if_pos (by rw [htask]; rfl)]
      simp only [Connection.State.next, htask]
      split_ifs
      · rw [hdrop]
        exact h.erase (h.not_taking htask (Or.inl hsome)) h.queued rfl rfl rfl rfl rfl rfl
      · have hqueued : ∀ response', task.response = some response' → d.Responds server response' := by
          intro response' hresponse' frame' howes'
          obtain rfl := Option.some.inj (hresponse.symm.trans hresponse')
          obtain ⟨frame, howes, hserves⟩ := hinv.task index task htask
          rw [(hserves.response response hresponse).1] at howes'
          rw [howes'.unique howes, ← hserves.opcode]
          exact (h.tasks index task htask).replies response hresponse
        exact h.erase (h.not_taking htask (Or.inl hsome)) hqueued rfl rfl rfl rfl rfl rfl
  | send =>
      obtain ⟨⟨response, close, hloop⟩, -⟩ := hop
      unfold Connection.State.next at hup ⊢
      rw [hloop] at hup ⊢
      dsimp only at hup ⊢
      split_ifs at hup ⊢
      · exact absurd rfl hup
      · exact { h with
          queued := fun response' hresponse' => by
            rw [← Option.some.inj hresponse']
            exact h.sending response close hloop
          sending := by simp }
  | receipt =>
      obtain ⟨⟨close, hloop⟩, -⟩ := hop
      unfold Connection.State.next at hup ⊢
      rw [hloop] at hup ⊢
      cases close with
      | true => exact absurd rfl hup
      | false => exact h.of_same rfl (fun _ hresponse => hresponse) (by simp) rfl rfl rfl rfl
  | take =>
      obtain ⟨-, hsome⟩ := hop
      obtain ⟨response, hresponse⟩ := Option.isSome_iff_exists.mp hsome
      unfold Connection.State.next
      rw [hresponse]
      exact h.retire hinv hresponse
  | put count =>
      obtain ⟨rest, written, hwriter, -⟩ := hop
      unfold Connection.State.next
      rw [hwriter]
      exact h.of_same rfl (fun _ hresponse => hresponse) (fun _ _ hloop => hloop) rfl rfl rfl rfl
  | wrote =>
      obtain ⟨written, hwriter⟩ := hop
      unfold Connection.State.next
      rw [hwriter]
      exact h.of_same rfl (fun _ hresponse => hresponse) (fun _ _ hloop => hloop) rfl rfl rfl rfl
  | writeFailed => exact h.of_same rfl (fun _ hqueued => by cases hqueued) (fun _ _ hloop => hloop) rfl rfl rfl rfl
  | leave => exact absurd rfl hup
  | cancel => exact absurd rfl hup
  | abortTask index => exact absurd rfl (haborts index)
  | abortReader => exact h.of_same rfl (fun _ hresponse => hresponse) (fun _ _ hloop => hloop) rfl rfl rfl rfl
  | abortWriter => exact h.of_same rfl (fun _ hqueued => by cases hqueued) (fun _ _ hloop => hloop) rfl rfl rfl rfl

end Desk

end VeloBus.Station
