import VeloBus.StationTasks

/-! What the tasks of REGISTER, TAKE and COMPLETE do at the scheduler. None of them is answered with an error that
TAKE or COMPLETE would have to report. -/

namespace VeloBus.Station

namespace Desk

variable {d d' : Desk} {takes : Table Nat Progress} {server : Connection.State} {token : String} {index : Nat}
  {task : Connection.Task}

/-- A task of another request ends. -/
theorem Counter.finish_other (h : d.Counter server takes) {moved : Option Place} (hk : d.Keeps d' moved)
    (hinv : server.Inv token) (hduplicates : server.duplicates = []) (htask : server.tasks.lookup index = some task)
    (hother : ∀ waitMs, task.request ≠ .take waitMs)
    (haway : ∀ request ∈ server.ids, request ≠ task.requestId →
      some (.answer request) ≠ moved ∧ some (.complete request) ≠ moved)
    {result : Except Error Bytes} (htells : d'.Tells task.opcode (Connection.State.reply index task result).answer)
    (herror : ∀ error, result = .error error → task.opcode ≠ 8 ∧ task.opcode ≠ 9)
    (htakes : ∀ take, d'.sys.Takes d'.worker take ↔ d.sys.Takes d.worker take) :
    d'.Counter (server.next token (.finish index result)) takes := by
  have hfree := h.not_taking htask (Or.inr hother)
  apply h.finish hk hinv hduplicates htask haway htells herror
  · intro index'
    split_ifs with hindex
    · rw [hindex]
      exact hfree
    · rfl
  · intro take
    rw [htakes]
    refine ⟨fun hTakes => ⟨hTakes, fun progress hprogress => ?_⟩, And.left⟩
    rw [hfree] at hprogress
    cases hprogress

/-- Others act on the scheduler. -/
theorem keeps_foreign (h : d.sys.Sound) {op : Rpc.Op} (hop : op.Foreign d.worker d.sys) :
    d.Keeps { d with sys := d.sys.next op } none := by
  apply d.keeps_next h
  · rintro rfl
    exact hop rfl
  · intro id hfinishes
    cases op with
    | complete worker id' failed payload now => exact absurd hfinishes.1 hop
    | disconnect connection => exact absurd hfinishes hop
    | _ => exact hfinishes.elim

/-! ### REGISTER -/

theorem register_exit (s : Rpc.State) (worker : Nat) (route : String) (concurrency queueLimit : Nat) :
    (s.register worker route concurrency queueLimit).2 = .ok () ∨
      ∃ error, (s.register worker route concurrency queueLimit).2 = .error error := by
  rcases Rpc.State.register_cases s worker route concurrency queueLimit with ⟨error, heq⟩ | ⟨-, -, -, heq⟩
  · exact Or.inr ⟨error, by rw [heq]⟩
  · exact Or.inl (by rw [heq])

/-- The result of REGISTER is the end of its task. -/
theorem Counter.register (h : d.Counter server takes) (hsound : d.sys.Sound) (hinv : server.Inv token)
    (hduplicates : server.duplicates = []) (htask : server.tasks.lookup index = some task)
    (hnone : task.response = none) {route : String} {concurrency queueLimit : Nat}
    (hrequest : task.request = .register route concurrency queueLimit) {result : Except Error Bytes}
    (hresult : ∀ body, result = .ok body → (d.sys.rpc.register d.worker route concurrency queueLimit).2 = .ok ()) :
    Counter { d with sys := d.sys.next (.register d.worker route concurrency queueLimit) }
      (server.next token (.finish index result)) takes := by
  obtain ⟨frame, -, hserves⟩ := hinv.task index task htask
  have hopcode : task.opcode = 6 := by
    rw [hserves.opcode_eq, hrequest]
    rfl
  have hk : d.Keeps { d with sys := d.sys.next (.register d.worker route concurrency queueLimit) } none :=
    d.keeps_next hsound nofun fun _ hfinishes => hfinishes.elim
  have hconcurrency : concurrency = d.concurrency :=
    (h.tasks index task htask).register hnone route concurrency queueLimit hrequest
  have hother : ∀ waitMs, task.request ≠ .take waitMs := by
    rw [hrequest]
    exact nofun
  have hplain : task.opcode ≠ 8 ∧ task.opcode ≠ 9 := by
    rw [hopcode]
    decide
  apply h.finish_other hk hinv hduplicates htask hother (fun _ _ _ => ⟨nofun, nofun⟩) _ fun _ _ => hplain
  · exact Rpc.Sys.takes_next nofun nofun hsound
  · cases result with
    | error error => exact tells_error reply_opcode hplain
    | ok body =>
        refine ⟨fun _ _ => ?_, fun htake => absurd htake hplain.1, fun hcomplete => absurd hcomplete hplain.2⟩
        have henlisted := Rpc.Sys.register_enlists (hresult body rfl)
        rw [hconcurrency] at henlisted ⊢
        exact henlisted

/-! ### TAKE -/

/-- A task begins its `take`. -/
theorem Counter.takeStart (h : d.Counter server takes) (hsound : d.sys.Sound)
    (hok : (d.sys.rpc.takeStart d.worker).2 = .ok ()) {waitMs : Nat} (hinv : server.Inv token)
    (hduplicates : server.duplicates = []) (htask : server.tasks.lookup index = some task)
    (hnone : task.response = none) (hrequest : task.request = .take waitMs) (hfree : takes.lookup index = none) :
    Counter { d with sys := d.sys.next (.takeStart d.worker) } server
      (takes.insert index (.taking d.sys.nextTake)) := by
  have hk : d.Keeps { d with sys := d.sys.next (.takeStart d.worker) } none :=
    d.keeps_next hsound nofun fun _ hfinishes => hfinishes.elim
  have htakes := Rpc.Sys.takes_start hok
  have hfresh : ¬d.sys.Takes d.worker d.sys.nextTake := by
    rintro ⟨take, hlookup, -⟩
    exact absurd (hsound.fresh _ take hlookup) (lt_irrefl _)
  have hnew : ∀ index' progress, takes.lookup index' = some progress → progress.take ≠ d.sys.nextTake := by
    intro index' progress hlookup heq
    exact hfresh (heq ▸ (h.serves index' progress hlookup).1)
  exact { h with
    tasks := fun index' task' htask' => by
      have hworks := h.tasks index' task' htask'
      by_cases hindex : index' = index
      · subst hindex
        obtain rfl := Option.some.inj (htask.symm.trans htask')
        refine ⟨fun response hresponse => ?_, hworks.register, fun _ waitMs' hrequest' => ?_,
          fun _ id failed payload hcomplete => ?_⟩
        · rw [hnone] at hresponse
          cases hresponse
        · refine ⟨hk.enlisted (hworks.take hnone waitMs' hrequest').1, fun take exit hlookup => ?_⟩
          rw [Table.lookup_insert_ite, if_pos rfl] at hlookup
          cases hlookup
        · rw [hrequest] at hcomplete
          cases hcomplete
      · apply hworks.keeps hk nofun nofun fun _ => reply_id hinv htask'
        rw [Table.lookup_insert_ite, if_neg hindex]
    queued := fun response hresponse =>
      (h.queued response hresponse).keeps hk hinv hduplicates (fun _ _ => ⟨nofun, nofun⟩)
        (hinv.queued response hresponse).2.2
    sending := fun response close hloop =>
      (h.sending response close hloop).keeps hk hinv hduplicates (fun _ _ => ⟨nofun, nofun⟩)
        (hinv.sending response close hloop).2.2.2
    serves := fun index' progress hlookup => by
      rw [Table.lookup_insert_ite] at hlookup
      split_ifs at hlookup with hindex
      · rw [← Option.some.inj hlookup, hindex]
        exact ⟨(htakes _).mpr (Or.inr rfl), task, waitMs, htask, hnone, hrequest⟩
      · exact (h.serves index' progress hlookup).imp_left fun hTakes => (htakes _).mpr (Or.inl hTakes)
    owned := fun take hTakes => by
      rcases (htakes take).mp hTakes with hold | rfl
      · obtain ⟨index', progress, hlookup, htake⟩ := h.owned take hold
        have hindex : index' ≠ index := by
          rintro rfl
          rw [hfree] at hlookup
          cases hlookup
        exact ⟨index', progress, by rw [Table.lookup_insert_ite, if_neg hindex]; exact hlookup, htake⟩
      · exact ⟨index, _, by rw [Table.lookup_insert_ite, if_pos rfl], rfl⟩
    apart := fun index₁ index₂ progress₁ progress₂ hlookup₁ hlookup₂ heq => by
      rw [Table.lookup_insert_ite] at hlookup₁ hlookup₂
      split_ifs at hlookup₁ hlookup₂ with hindex₁ hindex₂ hindex₂
      · exact hindex₁.trans hindex₂.symm
      · rw [← Option.some.inj hlookup₁] at heq
        exact absurd heq.symm (hnew index₂ progress₂ hlookup₂)
      · rw [← Option.some.inj hlookup₂] at heq
        exact absurd heq (hnew index₁ progress₁ hlookup₁)
      · exact h.apart index₁ index₂ progress₁ progress₂ hlookup₁ hlookup₂ heq }

/-- A step of a `take`. -/
theorem Counter.advance (h : d.Counter server takes) (hk : d.Keeps d' none)
    (htakes : ∀ take, d'.sys.Takes d'.worker take ↔ d.sys.Takes d.worker take) (hinv : server.Inv token)
    (hduplicates : server.duplicates = []) {take : Nat} (hlookup : takes.lookup index = some (.taking take))
    {progress : Progress} (hprogress : progress.take = take)
    (hands : ∀ task, server.tasks.lookup index = some task → ∀ take exit, progress = .taken take exit →
      ∃ taken, exit = .ok taken ∧ d'.Hands (.answer task.requestId) taken) :
    d'.Counter server (takes.insert index progress) := by
  have hkept := h.keeps hk htakes hinv hduplicates fun _ _ => ⟨nofun, nofun⟩
  have hbefore : ∀ index' progress', (takes.insert index progress).lookup index' = some progress' →
      ∃ before, takes.lookup index' = some before ∧ before.take = progress'.take := by
    intro index' progress' hlookup'
    rw [Table.lookup_insert_ite] at hlookup'
    split_ifs at hlookup' with hindex
    · rw [← Option.some.inj hlookup', hindex]
      exact ⟨_, hlookup, hprogress.symm⟩
    · exact ⟨progress', hlookup', rfl⟩
  exact { hkept with
    tasks := fun index' task htask => by
      have hworks := hkept.tasks index' task htask
      by_cases hindex : index' = index
      · subst hindex
        refine ⟨hworks.replies, hworks.register, fun hnone waitMs hrequest => ?_, hworks.complete⟩
        refine ⟨(hworks.take hnone waitMs hrequest).1, fun take' exit hlookup' => ?_⟩
        rw [Table.lookup_insert_ite, if_pos rfl] at hlookup'
        exact hands task htask take' exit (Option.some.inj hlookup')
      · exact hworks.keeps (.refl d') nofun nofun (fun _ => reply_id hinv htask)
          (by rw [Table.lookup_insert_ite, if_neg hindex])
    serves := fun index' progress' hlookup' => by
      obtain ⟨before, hbefore', htake⟩ := hbefore index' progress' hlookup'
      rw [← htake]
      exact hkept.serves index' before hbefore'
    owned := fun take' hTakes => by
      obtain ⟨index', before, hlookup', htake⟩ := hkept.owned take' hTakes
      by_cases hindex : index' = index
      · refine ⟨index, progress, by rw [Table.lookup_insert_ite, if_pos rfl], ?_⟩
        rw [hindex, hlookup] at hlookup'
        rw [← htake, ← Option.some.inj hlookup']
        exact hprogress
      · exact ⟨index', before, by rw [Table.lookup_insert_ite, if_neg hindex]; exact hlookup', htake⟩
    apart := fun index₁ index₂ progress₁ progress₂ hlookup₁ hlookup₂ heq => by
      obtain ⟨before₁, hbefore₁, htake₁⟩ := hbefore index₁ progress₁ hlookup₁
      obtain ⟨before₂, hbefore₂, htake₂⟩ := hbefore index₂ progress₂ hlookup₂
      exact hkept.apart index₁ index₂ before₁ before₂ hbefore₁ hbefore₂ (htake₁.trans (heq.trans htake₂.symm)) }

/-- The guard is dropped and the task has its response. -/
theorem Counter.takeEnd (h : d.Counter server takes) (hsound : d.sys.Sound) (hinv : server.Inv token)
    (hduplicates : server.duplicates = []) {take : Nat} {exit : Rpc.Exit (Option Rpc.Job)}
    (hlookup : takes.lookup index = some (.taken take exit)) :
    ∃ taken, exit = .ok taken ∧ Counter { d with sys := d.sys.next (.takeEnd take) }
      (server.next token (.finish index (.ok (Rpc.encodeTaken taken)))) (takes.erase index) := by
  obtain ⟨-, task, waitMs, htask, hnone, hrequest⟩ := h.serves index _ hlookup
  obtain ⟨frame, -, hserves⟩ := hinv.task index task htask
  have hopcode : task.opcode = 8 := by
    rw [hserves.opcode_eq, hrequest]
    rfl
  obtain ⟨-, hands⟩ := (h.tasks index task htask).take hnone waitMs hrequest
  obtain ⟨taken, rfl, hhands⟩ := hands take exit hlookup
  have hk : d.Keeps { d with sys := d.sys.next (.takeEnd take) } none :=
    d.keeps_next hsound nofun fun _ hfinishes => hfinishes.elim
  refine ⟨taken, rfl, h.finish hk hinv hduplicates htask (fun _ _ _ => ⟨nofun, nofun⟩) ?_ nofun ?_ ?_⟩
  · have hfits := Rpc.encodeTaken_fits fun job hjob => (hhands job hjob).1
    have hanswer : (Connection.State.reply index task (.ok (Rpc.encodeTaken taken))).answer =
        ⟨task.opcode ||| 128, task.requestId, Rpc.encodeTaken taken⟩ := Frame.answer_of_fits hfits
    rw [hanswer, hopcode]
    refine ⟨nofun, fun _ => ⟨nofun, taken, rfl, ?_⟩, nofun⟩
    exact hk.hands nofun hhands
  · exact fun index' => Table.lookup_erase_ite index index' takes
  · intro take'
    have htakes : (d.sys.next (.takeEnd take)).Takes d.worker take' ↔ d.sys.Takes d.worker take' ∧ take' ≠ take :=
      Rpc.Sys.takes_end take'
    refine htakes.trans (and_congr_right fun _ => ⟨fun hne progress hprogress heq => ?_, fun hne heq => ?_⟩)
    · rw [hlookup] at hprogress
      rw [← heq, ← Option.some.inj hprogress] at hne
      exact hne rfl
    · exact hne _ hlookup heq.symm

/-! ### COMPLETE -/

/-- A COMPLETE ends its call. -/
theorem Counter.complete (h : d.Counter server takes) (hsound : d.sys.Sound) (hinv : server.Inv token)
    (hduplicates : server.duplicates = []) (htask : server.tasks.lookup index = some task)
    (hnone : task.response = none) {id now : Nat} {failed : Bool} {payload : Bytes}
    (hrequest : task.request = .complete id failed payload) :
    (d.sys.rpc.complete d.worker id failed payload now).2 = .ok () ∧
      d.Keeps { d with sys := d.sys.next (.complete d.worker id failed payload now) }
        (some (.complete task.requestId)) ∧
      Counter { d with sys := d.sys.next (.complete d.worker id failed payload now) }
        (server.next token (.finish index (.ok []))) takes := by
  obtain ⟨frame, -, hserves⟩ := hinv.task index task htask
  have hopcode : task.opcode = 9 := by
    rw [hserves.opcode_eq, hrequest]
    rfl
  obtain ⟨henlisted, ⟨hruns, hplace⟩, -⟩ := (h.tasks index task htask).complete hnone id failed payload hrequest
  have hk : d.Keeps { d with sys := d.sys.next (.complete d.worker id failed payload now) }
      (some (.complete task.requestId)) := by
    refine d.keeps_next hsound nofun fun id' hfinishes => ?_
    rw [← hfinishes.2]
    exact congrArg some hplace
  have hother : ∀ waitMs, task.request ≠ .take waitMs := by
    rw [hrequest]
    exact nofun
  have hanswer : (Connection.State.reply index task (.ok [])).answer = ⟨task.opcode ||| 128, task.requestId, []⟩ :=
    Frame.answer_of_fits (Nat.zero_le _)
  refine ⟨Rpc.Sys.complete_ok hsound hruns failed payload now, hk, ?_⟩
  refine h.finish_other hk hinv hduplicates htask hother (fun request _ hne => ?_) ?_ nofun
    (Rpc.Sys.takes_next nofun nofun hsound)
  · exact ⟨nofun, fun heq => hne (Place.complete.inj (Option.some.inj heq))⟩
  · rw [hanswer, hopcode]
    exact ⟨nofun, nofun, fun _ => ⟨nofun, rfl⟩⟩

/-! ### Room for a take -/

/-- A task that has not begun its `take` finds room at the scheduler. -/
theorem Counter.takeStart_ok (h : d.Counter server takes) (hsound : d.sys.Sound) (hinv : server.Inv token)
    (hduplicates : server.duplicates = []) (hlimit : server.ids.card ≤ d.concurrency)
    (htask : server.tasks.lookup index = some task) (hnone : task.response = none) {waitMs : Nat}
    (hrequest : task.request = .take waitMs) (hfree : takes.lookup index = none) :
    (d.sys.rpc.takeStart d.worker).2 = .ok () := by
  have hserved : ∀ take, ∃ request, d.sys.Takes d.worker take → ∃ index' progress task',
      takes.lookup index' = some progress ∧ progress.take = take ∧ server.tasks.lookup index' = some task' ∧
        task'.requestId = request := by
    intro take
    by_cases hTakes : d.sys.Takes d.worker take
    · obtain ⟨index', progress, hlookup, htake⟩ := h.owned take hTakes
      obtain ⟨-, task', -, htask', -⟩ := h.serves index' progress hlookup
      exact ⟨task'.requestId, fun _ => ⟨index', progress, task', hlookup, htake, htask', rfl⟩⟩
    · exact ⟨0, fun habsurd => absurd habsurd hTakes⟩
  choose request hrequests using hserved
  let mine := Table.select (fun _ (take : Rpc.Take) => decide (take.worker = d.worker)) d.sys.takes
  have hmine : ∀ take ∈ mine, d.sys.Takes d.worker take := by
    intro take hmem
    obtain ⟨live, hlookup, hworker⟩ := Table.mem_select.mp hmem
    exact ⟨live, hlookup, of_decide_eq_true hworker⟩
  have hnodup : (task.requestId :: mine.map request).Nodup := by
    rw [List.nodup_cons]
    constructor
    · intro hmem
      obtain ⟨take, htake, heq⟩ := List.mem_map.mp hmem
      obtain ⟨index', progress, task', hlookup, -, htask', hid⟩ := hrequests take (hmine take htake)
      have hindex := hinv.task_single hduplicates htask' htask (hid.trans heq)
      rw [hindex, hfree] at hlookup
      cases hlookup
    · apply List.Nodup.map_on _ (Table.nodup_select _ _)
      intro take htake take' htake' heq
      obtain ⟨index₁, progress₁, task₁, hlookup₁, hid₁, htask₁, hrequest₁⟩ := hrequests take (hmine take htake)
      obtain ⟨index₂, progress₂, task₂, hlookup₂, hid₂, htask₂, hrequest₂⟩ := hrequests take' (hmine take' htake')
      obtain rfl := hinv.task_single hduplicates htask₁ htask₂ (hrequest₁.trans (heq.trans hrequest₂.symm))
      rw [← hid₁, ← hid₂, Option.some.inj (hlookup₁.symm.trans hlookup₂)]
  have hsub : task.requestId :: mine.map request ⊆ server.ids.toList := by
    intro id hmem
    rw [Finset.mem_toList]
    rcases List.mem_cons.mp hmem with rfl | hmem
    · exact hinv.task_id hduplicates htask
    · obtain ⟨take, htake, rfl⟩ := List.mem_map.mp hmem
      obtain ⟨index', progress, task', -, -, htask', hid⟩ := hrequests take (hmine take htake)
      rw [← hid]
      exact hinv.task_id hduplicates htask'
  have hlength := (List.subperm_of_subset hnodup hsub).length_le
  rw [List.length_cons, List.length_map, Finset.length_toList] at hlength
  apply Rpc.Sys.takeStart_ok hsound ((h.tasks index task htask).take hnone waitMs hrequest).1
  rw [Table.count_eq_length]
  exact hlength.trans hlimit

end Desk

end VeloBus.Station
