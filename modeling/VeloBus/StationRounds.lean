import VeloBus.StationService

/-! The slots of a service whose connection is up. A job goes from the promise of its TAKE to the slot, and from the
slot into the COMPLETE of its call. -/

namespace VeloBus.Station

open Client (Failure)
open Link (Flow)

namespace State

variable {s : State} {token : String} {worker n : Nat} {bearer bearer' : Nat → Place} {moved : Option Place}
  {child : Client.State (Option Rpc.Job)} {i : Nat} {d : Desk}

/-- A slot changes and the connection does not. -/
theorem Up.turnover (h : s.Up token worker n bearer)
    (hk : (s.desk worker n bearer).Keeps (s.desk worker n bearer') moved)
    {old new : Service.Slot} (hold : s.service.slots[i]? = some old)
    (hmoved : ∀ place, moved = some place →
      place = .slot i ∨ ∃ promise, place = .promise promise ∧ old.promise = some promise)
    (hseat : (s.desk worker n bearer').Seats s.service.child s.service.stopped i new) (hfree : new.promise = none) :
    (s.desk worker n bearer').Bench (s.service.setSlot i new) := by
  apply h.bench.set hk hold hmoved hseat
  intro promise hpromise
  rw [hfree] at hpromise
  cases hpromise

theorem Up.returns (h : s.Up token worker n bearer) {old : Service.Slot} (hold : s.service.slots[i]? = some old) :
    (s.deliver (s.service.setSlot i .returned) s.server.output).Up token worker n bearer := by
  refine h.attend_same (.refl _) (fun _ => ⟨nofun, nofun⟩) ?_ ?_ (h.turnover (.refl _) hold nofun trivial rfl)
  · exact List.Subset.refl _
  · rfl

/-- A `run` that threw did so in a service that was stopped. -/
theorem Up.onFailure (h : s.Up token worker n bearer) {cause : Service.Cause}
    (hslot : s.service.slots[i]? = some (.threw cause)) :
    (s.deliver ((s.service.stop cause).setSlot i .returned) s.server.output).Up token worker n bearer := by
  have hstopped : s.service.stopped = true := h.bench.slots i _ hslot
  unfold Service.State.stop
  rw [if_pos hstopped]
  exact h.returns hslot

/-- A slot sends a request and waits. -/
theorem Up.bench_request (h : s.Up token worker n bearer) (hinv : s.service.Inv n)
    (hk : (s.desk worker n bearer).Keeps d moved) (hmoved : ∀ place, moved = some place → place = .slot i)
    {old new : Service.Slot} (hold : s.service.slots[i]? = some old) {socket : Client.Socket} {opcode : Nat}
    {body : Bytes}
    {parse : Client.Parser (Option Rpc.Job)} (hsend : s.service.child.send socket opcode body parse = some child)
    (hpromise : new.promise = some s.service.child.sent.length)
    (hseat : Asked child s.service.child.sent.length opcode parse →
      (∀ value, (s.service.child.sent.length, .resolved value) ∉ child.settled) →
      ∀ stopped, d.Seats child stopped i new) :
    d.Bench ((s.service.follow child).setSlot i new) := by
  have hclient := hinv.conn.inv
  have hphase := hinv.serving_of_slot hold
  have hopened := hinv.conn.serving hphase
  have hmild := Client.State.send_mild hclient (Or.inl hopened) hsend
  have hstage : s.service.phase = .serving → child.stage ≠ .refused := by
    intro _
    rw [(Client.State.send_kept hsend).2.1, hopened]
    exact nofun
  have hbench := (h.bench.mild hclient hmild (Client.State.send_open hsend) hstage).follow
    (hclient.send (Or.inl hopened) hsend) hstage
  apply hbench.set hk (s.service.slots_follow child ▸ hold) (fun place heq => Or.inl (hmoved place heq))
  · rw [Service.State.follow_child]
    apply hseat (asked_send hsend)
    intro value hmem
    obtain hbefore | ⟨reason, heq, -⟩ := hmild.settled _ _ hmem
    · exact absurd (hclient.issued _ (List.mem_map_of_mem hbefore)) (lt_irrefl _)
    · cases heq
  · intro promise hnew j slot hslot heq
    rw [Service.State.slots_follow] at hslot
    rw [← Option.some.inj (hpromise.symm.trans hnew)] at heq
    exact absurd (h.bench.waits hslot heq) (lt_irrefl _)

theorem Up.take (h : s.Up token worker n bearer) (hinv : s.service.Inv n)
    (hslot : s.service.slots[i]? = some .ready) {socket : Client.Socket}
    (hcalls : s.service.Calls (.send socket 8 Client.take Client.takenParser) child) :
    (s.deliver ((s.service.follow child).setSlot i (.taking s.service.child.sent.length))
      s.server.output).Up token worker n bearer := by
  obtain ⟨⟨hstage, -⟩, hnext⟩ := hcalls
  have hsend : s.service.child.send socket 8 Client.take Client.takenParser = some child := hnext
  have hdecode : decodeRequest 8 Client.take = .ok (.take 1000) :=
    decodeRequest_eq_ok.mpr ⟨⟨by decide, by decide⟩, rfl, rfl⟩
  have hbench : (s.desk worker n bearer).Bench
      ((s.service.follow child).setSlot i (.taking s.service.child.sent.length)) := by
    apply h.bench_request hinv (.refl _) nofun hslot hsend rfl
    intro hasked hfresh _
    exact ⟨hasked, fun value hmem => absurd hmem (hfresh value)⟩
  refine h.attend ?_ (.refl _) (fun _ _ => ⟨nofun, nofun⟩) hbench ?_ ?_
  · exact s.service.log_subset_follow child
  · have hflow := h.sends hinv (.refl _) (fun _ => ⟨nofun, nofun⟩) hstage (by decide) hsend fun id _ =>
      ⟨nofun, fun _ => ⟨h.bench.serving (hinv.serving_of_slot hslot), 1000, hdecode⟩, nofun⟩
    rw [← s.service.follow_child child] at hflow
    exact hflow
  · exact fun hloop => absurd hloop (h.greeted hstage)

/-- A TAKE or COMPLETE is rejected only when the service is stopped. -/
theorem Up.rejected (h : s.Up token worker n bearer) (hinv : s.service.Inv n) {slot : Service.Slot}
    (hslot : s.service.slots[i]? = some slot) {promise opcode : Nat} {parse : Client.Parser (Option Rpc.Job)}
    (hasked : Asked s.service.child promise opcode parse) (hopcode : opcode = 8 ∨ opcode = 9) {reason : Failure}
    (hsettled : (promise, .rejected reason) ∈ s.service.child.settled) : s.service.stopped = true := by
  apply hinv.lost (hinv.serving_of_slot hslot)
  by_contra hopen
  obtain ⟨code, message, rfl⟩ := hinv.conn.honest (Bool.not_eq_true _ ▸ hopen) promise reason hsettled
  obtain ⟨htake, hcomplete⟩ := h.bench.accepted promise code message hsettled opcode parse hasked
  exact hopcode.elim htake hcomplete

theorem completedIds_started (slot : Service.Slot) (log : List Service.Entry) :
    completedIds (log ++ slot.started i) = completedIds log := by
  rw [completedIds_append]
  cases slot <;> exact List.append_nil _

/-- A slot goes on with what its TAKE was settled with. -/
theorem Up.taken (h : s.Up token worker n bearer) (hinv : s.service.Inv n) {promise : Nat}
    (hslot : s.service.slots[i]? = some (.taking promise)) {outcome : Client.Settlement (Option Rpc.Job)}
    (hsettled : (promise, outcome) ∈ s.service.child.settled) :
    ∃ bearer', (s.deliver { s.service.setSlot i (.afterTake s.service.stopped outcome) with
      log := s.service.log ++ (Service.Slot.afterTake s.service.stopped outcome).started i }
      s.server.output).Up token worker n bearer' := by
  obtain ⟨hasked, hands⟩ := h.bench.slots i _ hslot
  have hlog := completedIds_started (i := i) (.afterTake s.service.stopped outcome) s.service.log
  have hgoes : ∀ {bearer' : Nat → Place} {moved : Option Place},
      (s.desk worker n bearer).Keeps (s.desk worker n bearer') moved →
      (∀ place, moved = some place → place = .promise promise) →
      (s.desk worker n bearer').Seats s.service.child s.service.stopped i (.afterTake s.service.stopped outcome) →
      (Service.Slot.afterTake s.service.stopped outcome).promise = none →
      (s.deliver { s.service.setSlot i (.afterTake s.service.stopped outcome) with
        log := s.service.log ++ (Service.Slot.afterTake s.service.stopped outcome).started i }
        s.server.output).Up token worker n bearer' := by
    intro bearer' moved hk hmoved hseat hfree
    have hbench := h.turnover hk hslot (fun place heq => Or.inr ⟨promise, hmoved place heq, rfl⟩) hseat hfree
    refine h.attend_same hk (fun request => ⟨fun heq => ?_, fun heq => ?_⟩) ?_ ?_ ?_
    · cases hmoved _ heq.symm
    · cases hmoved _ heq.symm
    · exact List.subset_append_left _ _
    · rfl
    · exact { hbench with
        once := by
          rw [hlog]
          exact hbench.once
        sent := by
          rw [hlog]
          exact hbench.sent
        worked := fun entry hmem => by
          rcases List.mem_append.mp hmem with hmem | hmem
          · exact hbench.worked entry hmem
          · generalize Service.Slot.afterTake s.service.stopped outcome = slot at hseat hmem
            cases slot with
            | executing job =>
                rw [List.mem_singleton.mp hmem]
                exact (hseat job rfl).2.1
            | _ => cases hmem }
  cases outcome with
  | rejected reason =>
      exact ⟨bearer, hgoes (.refl _) nofun (h.rejected hinv hslot hasked (Or.inl rfl) hsettled) rfl⟩
  | resolved taken =>
      by_cases hstopped : s.service.stopped = true
      · have hafter : Service.Slot.afterTake s.service.stopped (.resolved taken) = .returned := if_pos hstopped
        refine ⟨bearer, hgoes (.refl _) nofun ?_ ?_⟩
        · rw [hafter]
          trivial
        · rw [hafter]
          rfl
      · have hafter : Service.Slot.afterTake s.service.stopped (.resolved taken) = taken.elim .ready .executing := by
          cases taken <;> exact if_neg hstopped
        obtain ⟨bearer', hk, hands'⟩ := carried (hands taken hsettled) nofun (.slot i)
        refine ⟨bearer', hgoes hk (fun place heq => (Option.some.inj heq).symm) ?_ ?_⟩
        · rw [hafter]
          cases taken with
          | none => trivial
          | some job => exact hands'
        · rw [hafter]
          cases taken <;> rfl

/-- A slot sends the COMPLETE of its job. -/
theorem Up.settle (h : s.Up token worker n bearer) (hinv : s.service.Inv n) (hsound : s.sys.Sound) {job : Rpc.Job}
    (hslot : s.service.slots[i]? = some (.executing job)) {outcome : Client.Outcome} {status : Nat} {output : Bytes}
    (htells : Client.Tells outcome status output) {socket : Client.Socket}
    (hcalls : s.service.Calls (.send socket 9 (Service.completeBody job status output) Client.emptyParser) child) :
    ∃ bearer', (s.deliver { (s.service.follow child).setSlot i (.completing s.service.child.sent.length) with
      log := s.service.log ++ [.completed i job outcome status output] }
      s.server.output).Up token worker n bearer' := by
  obtain ⟨⟨hstage, -⟩, hnext⟩ := hcalls
  have hsend : s.service.child.send socket 9 (Service.completeBody job status output) Client.emptyParser = some child :=
    hnext
  have hands : (s.desk worker n bearer).Hands (.slot i) (some job) := h.bench.slots i _ hslot
  obtain ⟨hlegal, -, hruns, hplace⟩ := hands job rfl
  have hcallId : (UInt64.ofNat job.callId).toNat = job.callId := UInt64.toNat_ofNat_of_lt hlegal.callId
  have hdecode : decodeRequest 9 (Service.completeBody job status output) =
      .ok (.complete job.callId (status = 1) output) := by
    rw [Service.completeBody, htells.2, hcallId]
  let search := Client.searchId s.service.child.pending (s.service.child.pending.size + 1) s.service.child.nextRequestId
  let log := s.service.log ++ [.completed i job outcome status output]
  have haway : ∀ request, some (Place.answer request) ≠ some (.slot i) ∧
      some (Place.complete request) ≠ some (.slot i) := by
    intro request
    exact ⟨fun heq => Place.noConfusion (Option.some.inj heq), fun heq => Place.noConfusion (Option.some.inj heq)⟩
  -- The settlement is noted first.
  have hmore : (s.desk worker n bearer).Keeps { s.desk worker n bearer with log := log } none :=
    Desk.keeps_log _ (List.subset_append_left _ _)
  obtain ⟨bearer', hmove, hands'⟩ := carried (hmore.hands (Option.some_ne_none _) hands)
    (fun _ heq => Place.noConfusion heq) (.complete (search.getD 0))
  have hk := hmore.trans hmove
  obtain ⟨-, hhanded, hruns', hplace'⟩ := hands' job rfl
  have hmoved : ∀ place, some (Place.slot i) = some place → place = .slot i := fun place heq =>
    (Option.some.inj heq).symm
  have hbench : Desk.Bench { s.desk worker n bearer' with log := log }
      ((s.service.follow child).setSlot i (.completing s.service.child.sent.length)) :=
    h.bench_request hinv hk hmoved hslot hsend rfl fun hasked _ _ => hasked
  have hlog : completedIds (s.service.log ++ [.completed i job outcome status output]) =
      completedIds s.service.log ++ [job.callId] := completedIds_append _ _
  have hnew : job.callId ∉ completedIds s.service.log := by
    intro hmem
    obtain ⟨-, request, hsent⟩ := h.bench.sent job.callId hmem
    rw [hplace] at hsent
    cases hsent
  have hsame : (s.service.follow child).log = s.service.log := s.service.follow_log child
  refine ⟨bearer', h.attend_log (List.Subset.refl log) hk (fun request _ => haway request) ?_ ?_ fun hloop =>
    absurd hloop (h.greeted hstage)⟩
  · exact { hbench with
      once := by
        rw [hlog]
        exact List.nodup_append.mpr ⟨h.bench.once, List.nodup_singleton _, fun id hid id' hid' heq => by
          rw [List.mem_singleton.mp hid'] at heq
          exact hnew (heq ▸ hid)⟩
      sent := fun id hmem => by
        rw [hlog, List.mem_append, List.mem_singleton] at hmem
        rcases hmem with hold | rfl
        · apply hbench.sent id
          unfold Service.State.setSlot
          rw [hsame]
          exact hold
        · exact ⟨hruns'.spent hsound, _, hplace'⟩
      worked := fun entry hmem => by
        rcases List.mem_append.mp hmem with hmem | hmem
        · apply hbench.worked entry
          unfold Service.State.setSlot
          rw [hsame]
          exact hmem
        · rw [List.mem_singleton.mp hmem]
          exact hhanded }
  · have hflow := h.sends hinv hk haway hstage (by decide) hsend fun id hsearch =>
      ⟨fun h => absurd h (show 9 ≠ 6 by decide), fun h => absurd h (show 9 ≠ 8 by decide), fun _ => by
        refine ⟨hk.enlisted (h.bench.serving (hinv.serving_of_slot hslot)), ?_⟩
        have hfound : search = some id := hsearch
        rw [hfound] at hplace'
        refine ⟨job.callId, _, output, hdecode, ⟨hruns', hplace'⟩, i, job, outcome, ?_, rfl⟩
        rw [htells.flag]
        exact List.mem_append_right _ (List.mem_singleton_self _)⟩
    rw [← s.service.follow_child child] at hflow
    exact hflow

/-- A slot goes on with what its COMPLETE was settled with. -/
theorem Up.completed (h : s.Up token worker n bearer) (hinv : s.service.Inv n) {promise : Nat}
    (hslot : s.service.slots[i]? = some (.completing promise)) {outcome : Client.Settlement (Option Rpc.Job)}
    (hsettled : (promise, outcome) ∈ s.service.child.settled) :
    (s.deliver (s.service.setSlot i (.afterComplete s.service.stopped outcome)) s.server.output).Up token worker n
      bearer := by
  have hasked : Asked s.service.child promise 9 Client.emptyParser := h.bench.slots i _ hslot
  refine h.attend_same (.refl _) (fun _ => ⟨nofun, nofun⟩) ?_ ?_ (h.turnover (.refl _) hslot nofun ?_ ?_)
  · exact List.Subset.refl _
  · rfl
  · cases outcome with
    | rejected reason => exact h.rejected hinv hslot hasked (Or.inr rfl) hsettled
    | resolved value =>
        unfold Service.Slot.afterComplete
        dsimp only
        split_ifs <;> trivial
  · cases outcome with
    | rejected reason => rfl
    | resolved value =>
        unfold Service.Slot.afterComplete
        dsimp only
        split_ifs <;> rfl

end State

end VeloBus.Station
