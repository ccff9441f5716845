import VeloBus.RpcSystem

/-! The representation invariant over whole runs: the scheduler keeps `Inv` in every step, and the
waiter count of a worker is the number of its outstanding takes. -/

namespace VeloBus.Rpc

/-- What operations on calls leave alone: connections, budgets, and workers up to their running
counts. -/
structure Frame (s t : State) : Prop where
  connections : t.connections = s.connections
  seats : ∀ w, (t.workers.lookup w).map Worker.seat = (s.workers.lookup w).map Worker.seat
  maxCalls : t.maxCalls = s.maxCalls
  maxBytes : t.maxBytes = s.maxBytes

theorem Frame.refl (s : State) : Frame s s := ⟨rfl, fun _ => rfl, rfl, rfl⟩

theorem Frame.trans {s t u : State} (hst : Frame s t) (htu : Frame t u) : Frame s u :=
  ⟨htu.connections.trans hst.connections, fun w => (htu.seats w).trans (hst.seats w),
    htu.maxCalls.trans hst.maxCalls, htu.maxBytes.trans hst.maxBytes⟩

theorem Shrinks.frame {s t : State} (h : Shrinks s t) : Frame s t :=
  ⟨h.connections, h.seats, h.maxCalls, h.maxBytes⟩

namespace State

theorem notifyRoute_frame (s : State) (name : String) : Frame s (s.notifyRoute name) := by
  obtain ⟨new, heq, -⟩ := notifyRoute_eq s name
  rw [heq]
  exact ⟨rfl, fun _ => rfl, rfl, rfl⟩

theorem expireQueued_frame {s : State} (hs : Inv s) (name : String) (now : Nat) :
    Frame s (s.expireQueued name now) :=
  (expireQueued_settles hs.toCounted name now).shrinks.frame

theorem request_frame {s : State} (hs : Inv s) (caller : Nat) (route : String) (timeoutMs : Nat)
    (payload : Bytes) (expiredAt admittedAt : Nat) :
    Frame s (s.request caller route timeoutMs payload expiredAt admittedAt).1 := by
  have hexpired := expireQueued_frame hs route expiredAt
  have hcases := request_requested hs caller route timeoutMs payload expiredAt admittedAt
  generalize s.request caller route timeoutMs payload expiredAt admittedAt = result at hcases
  cases hcases with
  | disconnected => exact .refl s
  | noService => exact ⟨rfl, fun _ => rfl, rfl, rfl⟩
  | overloaded _ ht =>
      subst ht
      exact hexpired.trans ⟨rfl, fun _ => rfl, rfl, rfl⟩
  | exhausted _ ht =>
      subst ht
      exact hexpired
  | @admitted _ _ call _ ht =>
      subst ht
      have hadmit : Frame (s.expireQueued route expiredAt)
          ((s.expireQueued route expiredAt).accept call) := ⟨rfl, fun _ => rfl, rfl, rfl⟩
      exact (hexpired.trans hadmit).trans (notifyRoute_frame _ route)

theorem handOut_frame (s : State) (name : String) (workerId id : Nat) :
    Frame s (s.handOut name workerId id) := by
  refine ⟨rfl, fun w => ?_, rfl, rfl⟩
  rw [lookup_handOut_workers]
  split_ifs
  · rw [Option.map_map]
    rfl
  · rfl

theorem tryTake_frame {s : State} (hs : Inv s) (workerId expiredAt now : Nat) :
    Frame s (s.tryTake workerId expiredAt now).1 := by
  have hcases := tryTake_polled hs workerId expiredAt now
  generalize s.tryTake workerId expiredAt now = result at hcases
  cases hcases with
  | unregistered => exact .refl s
  | busy => exact .refl s
  | idle _ _ ht => exact ht ▸ expireQueued_frame hs _ _
  | late _ _ ht => exact ht.shrinks.frame
  | job _ _ ht =>
      subst ht
      exact (expireQueued_frame hs _ _).trans (handOut_frame _ _ _ _)

theorem complete_frame (s : State) (workerId id : Nat) (failed : Bool) (payload : Bytes)
    (now : Nat) : Frame s (s.complete workerId id failed payload now).1 := by
  rcases complete_cases s workerId id failed payload now with
    ⟨error, heq, -⟩ | ⟨call, t, -, -, -, hsettle, heq⟩
  · rw [heq]
    exact .refl s
  · rw [heq]
    exact hsettle.shrinks.frame.trans ⟨rfl, fun _ => rfl, rfl, rfl⟩

/-- `disconnect` removes the connection and its worker, and no other. -/
theorem disconnect_seats {s : State} (hs : Inv s) (x : Nat) :
    (s.disconnect x).connections = s.connections.erase x ∧
    (∀ w, ((s.disconnect x).workers.lookup w).map Worker.seat =
      if w = x then none else (s.workers.lookup w).map Worker.seat) ∧
    (s.disconnect x).maxCalls = s.maxCalls ∧ (s.disconnect x).maxBytes = s.maxBytes := by
  have herase : ∀ {t : State}, (∀ w, (t.workers.lookup w).map Worker.seat =
      (s.workers.lookup w).map Worker.seat) → ∀ w, ((t.workers.erase x).lookup w).map Worker.seat =
      if w = x then none else (s.workers.lookup w).map Worker.seat := by
    intro t ht w
    rw [Table.lookup_erase_ite]
    split_ifs
    · rfl
    · exact ht w
  have hcases := disconnect_disconnected hs x
  generalize s.disconnect x = result at hcases
  cases hcases with
  | caller ht _ hw =>
      have hf := ht.shrinks.frame
      refine ⟨hf.connections, fun w => ?_, hf.maxCalls, hf.maxBytes⟩
      rw [hf.seats w]
      split_ifs with hwx
      · subst hwx
        exact Option.map_eq_none_iff.mpr hw
      · rfl
  | @worker t u worker route ht _ hw hu _ _ _ =>
      have hf := ht.shrinks.frame
      have hg := hu.shrinks.frame
      have hn := notifyRoute_frame
        { u with routes := u.routes.modify worker.route (Route.delist x) } worker.route
      exact ⟨hn.connections.trans (hg.connections.trans hf.connections),
        fun w => (hn.seats w).trans ((hg.seats w).trans (herase hf.seats w)),
        hn.maxCalls.trans (hg.maxCalls.trans hf.maxCalls),
        hn.maxBytes.trans (hg.maxBytes.trans hf.maxBytes)⟩
  | lastWorker ht _ _ hu _ _ _ hv _ =>
      have hf := ht.shrinks.frame
      have hg := hu.shrinks.frame
      have hk := hv.shrinks.frame
      exact ⟨hk.connections.trans (hg.connections.trans hf.connections),
        fun w => (hk.seats w).trans ((hg.seats w).trans (herase hf.seats w)),
        hk.maxCalls.trans (hg.maxCalls.trans hf.maxCalls),
        hk.maxBytes.trans (hg.maxBytes.trans hf.maxBytes)⟩

theorem notifyRoute_nextId (s : State) (name : String) : (s.notifyRoute name).nextId = s.nextId := by
  obtain ⟨new, heq, -⟩ := notifyRoute_eq s name
  rw [heq]

theorem disconnect_nextId {s : State} (hs : Inv s) (x : Nat) :
    (s.disconnect x).nextId = s.nextId := by
  have hcases := disconnect_disconnected hs x
  generalize s.disconnect x = result at hcases
  cases hcases with
  | caller ht _ _ => exact ht.shrinks.nextId
  | worker ht _ _ hu _ _ _ =>
      exact (notifyRoute_nextId _ _).trans (hu.shrinks.nextId.trans ht.shrinks.nextId)
  | lastWorker ht _ _ hu _ _ _ hv _ =>
      exact hv.shrinks.nextId.trans (hu.shrinks.nextId.trans ht.shrinks.nextId)

theorem register_inv {s : State} (hs : Inv s) (workerId : Nat) (name : String)
    (concurrency queueLimit : Nat) : Inv (s.register workerId name concurrency queueLimit).1 := by
  rcases register_cases s workerId name concurrency queueLimit with
    ⟨error, heq⟩ | ⟨hconn, hfresh, -, heq⟩
  · rw [heq]
    exact hs
  · rw [heq]
    exact enroll_inv hs hconn hfresh name concurrency queueLimit

theorem expire_inv {s : State} (hs : Inv s) (id : Nat) : Inv (s.expire id) :=
  (expire_settles s id).inv hs

theorem cancel_inv {s : State} (hs : Inv s) (id : Nat) : Inv (s.cancel id) :=
  (cancel_settles s id).inv hs

theorem new_inv (maxCalls maxBytes : Nat) : Inv (State.new maxCalls maxBytes) := by
  refine ⟨⟨rfl, ?_, ?_, ?_, rfl⟩, ⟨?_, ?_, ?_, ?_⟩,
    ⟨Nat.zero_le _, Nat.zero_le _, ?_, ?_, ?_, ?_, ?_, Nat.one_pos⟩, ?_⟩
  all_goals
    intros
    simp_all [State.new]

end State

/-! ### The state of the system -/

/-- The scheduler keeps its invariant, and its waiter counts agree with the outstanding takes. -/
structure Sys.Sound (s : Sys) : Prop where
  inv : Inv s.rpc
  waiters : ∀ w worker, s.rpc.workers.lookup w = some worker →
    worker.pendingTakes = Table.count (fun _ take => take.worker = w) s.takes
  known : ∀ id take, s.takes.lookup id = some take → take.worker ∈ s.everConnected
  registered : ∀ id take, s.takes.lookup id = some take → take.worker ∈ s.rpc.connections →
    ∃ worker, s.rpc.workers.lookup take.worker = some worker
  ever : s.rpc.connections ⊆ s.everConnected
  fresh : ∀ id take, s.takes.lookup id = some take → id < s.nextTake

namespace Sys

theorem new_sound (maxCalls maxBytes : Nat) : (Sys.new maxCalls maxBytes).Sound := by
  refine ⟨State.new_inv maxCalls maxBytes, ?_, ?_, ?_, Finset.empty_subset _, ?_⟩
  all_goals
    intros
    simp_all [Sys.new, State.new]

/-- A step that keeps the workers' seats and moves takes without reassigning them. -/
theorem Sound.frame {s t : Sys} (hs : s.Sound) (hinv : Inv t.rpc) (hframe : Frame s.rpc t.rpc)
    (id : Nat) (g : Take → Take) (hg : ∀ take, (g take).worker = take.worker)
    (htakes : t.takes = s.takes.modify id g) (hnext : t.nextTake = s.nextTake)
    (hever : t.everConnected = s.everConnected) : t.Sound := by
  have hback : ∀ k take, t.takes.lookup k = some take →
      ∃ take₀, s.takes.lookup k = some take₀ ∧ take.worker = take₀.worker := by
    intro k take hk
    rw [htakes, Table.lookup_modify] at hk
    split_ifs at hk
    · obtain ⟨take₀, hk₀, rfl⟩ := Option.map_eq_some_iff.mp hk
      exact ⟨take₀, hk₀, hg take₀⟩
    · exact ⟨take, hk, rfl⟩
  have hseat : ∀ w worker, t.rpc.workers.lookup w = some worker → ∃ worker₀,
      s.rpc.workers.lookup w = some worker₀ ∧ worker₀.seat = worker.seat := by
    intro w worker hw
    have hmap := hframe.seats w
    rw [hw, Option.map_some] at hmap
    exact Option.map_eq_some_iff.mp hmap.symm
  refine ⟨hinv, fun w worker hw => ?_, fun k take hk => ?_, fun k take hk hconn => ?_, ?_,
    fun k take hk => ?_⟩
  · obtain ⟨worker₀, hw₀, heq⟩ := hseat w worker hw
    rw [← Worker.seat_pendingTakes heq, hs.waiters w worker₀ hw₀, htakes, Table.count, Table.count,
      Table.total_modify_same]
    intro take _
    rw [hg]
  · obtain ⟨take₀, hk₀, hworker⟩ := hback k take hk
    rw [hever, hworker]
    exact hs.known k take₀ hk₀
  · obtain ⟨take₀, hk₀, hworker⟩ := hback k take hk
    rw [hframe.connections, hworker] at hconn
    obtain ⟨worker₀, hw₀⟩ := hs.registered k take₀ hk₀ hconn
    have hmap := hframe.seats take₀.worker
    rw [hw₀, Option.map_some] at hmap
    obtain ⟨worker, hw, -⟩ := Option.map_eq_some_iff.mp hmap
    exact ⟨worker, hworker ▸ hw⟩
  · rw [hframe.connections, hever]
    exact hs.ever
  · obtain ⟨take₀, hk₀, -⟩ := hback k take hk
    rw [hnext]
    exact hs.fresh k take₀ hk₀

/-- A step that leaves the takes alone as well. -/
theorem Sound.frame_rpc {s t : Sys} (hs : s.Sound) (hinv : Inv t.rpc) (hframe : Frame s.rpc t.rpc)
    (htakes : t.takes = s.takes) (hnext : t.nextTake = s.nextTake)
    (hever : t.everConnected = s.everConnected) : t.Sound :=
  hs.frame hinv hframe 0 (fun take => take) (fun _ => rfl)
    (htakes.trans (Table.modify_of_fixed fun _ _ => rfl).symm) hnext hever

theorem connected_sound {s : Sys} (hs : s.Sound) {connection : Nat}
    (hnew : connection ∉ s.everConnected) : (s.next (.connected connection)).Sound := by
  refine ⟨State.connected_inv hs.inv connection, hs.waiters, fun k take hk => ?_,
    fun k take hk hconn => ?_, ?_, hs.fresh⟩
  · exact Finset.mem_insert_of_mem (hs.known k take hk)
  · rcases Finset.mem_insert.mp hconn with heq | hconn
    · exact absurd (heq ▸ hs.known k take hk) hnew
    · exact hs.registered k take hk hconn
  · exact Finset.insert_subset_insert _ hs.ever

theorem register_sound {s : Sys} (hs : s.Sound) (workerId : Nat) (name : String)
    (concurrency queueLimit : Nat) :
    (s.next (.register workerId name concurrency queueLimit)).Sound := by
  have hinv := State.register_inv hs.inv workerId name concurrency queueLimit
  rcases State.register_cases s.rpc workerId name concurrency queueLimit with
    ⟨error, heq⟩ | ⟨hconn, hfresh, -, heq⟩
  · have hsame : s.next (.register workerId name concurrency queueLimit) = s := by
      simp only [next, heq]
    rw [hsame]
    exact hs
  · rw [heq] at hinv
    simp only [next, heq]
    refine ⟨hinv, fun w worker hw => ?_, hs.known, fun k take hk hconn' => ?_, hs.ever, hs.fresh⟩
    · rw [State.lookup_enroll_workers] at hw
      split_ifs at hw with hw'
      · subst hw'
        obtain rfl := Option.some.inj hw
        refine (Table.count_eq_zero fun k take hk heq => ?_).symm
        subst heq
        obtain ⟨worker, hw⟩ := hs.registered k take hk hconn
        rw [hfresh] at hw
        cases hw
      · exact hs.waiters w worker hw
    · obtain ⟨worker, hw⟩ := hs.registered k take hk hconn'
      dsimp only
      rw [State.lookup_enroll_workers]
      split_ifs
      · exact ⟨_, rfl⟩
      · exact ⟨worker, hw⟩

theorem takeStart_sound {s : Sys} (hs : s.Sound) (workerId : Nat) :
    (s.next (.takeStart workerId)).Sound := by
  have hinv := State.takeStart_inv hs.inv workerId
  rcases State.takeStart_cases s.rpc workerId with ⟨error, heq⟩ | ⟨worker, hw, -, heq⟩
  · simp only [next, heq, guarded]
    exact ⟨hs.inv, hs.waiters, hs.known, hs.registered, hs.ever,
      fun k take hk => (hs.fresh k take hk).trans (Nat.lt_succ_self _)⟩
  · rw [heq] at hinv
    have hnone : s.takes.lookup s.nextTake = none := by
      cases h : s.takes.lookup s.nextTake with
      | none => rfl
      | some take => exact absurd (hs.fresh _ take h) (lt_irrefl _)
    have hlookup : ∀ k take,
        (s.takes.insert s.nextTake ⟨workerId, .looping, 0⟩).lookup k = some take →
        (k = s.nextTake ∧ take.worker = workerId) ∨ s.takes.lookup k = some take := by
      intro k take hk
      rw [Table.lookup_insert_ite] at hk
      split_ifs at hk with hk'
      · exact Or.inl ⟨hk', (congrArg Take.worker (Option.some.inj hk)).symm⟩
      · exact Or.inr hk
    have hmem := hs.inv.connected workerId worker hw
    have hworkers : ∀ w worker₀, s.rpc.workers.lookup w = some worker₀ →
        ∃ worker', (s.rpc.workers.modify workerId Worker.startTake).lookup w = some worker' := by
      intro w worker₀ hw₀
      rw [Table.lookup_modify, hw₀]
      split_ifs <;> exact ⟨_, rfl⟩
    simp only [next, heq, guarded]
    refine ⟨hinv, fun w worker' hw' => ?_, fun k take hk => ?_, fun k take hk hconn => ?_, hs.ever,
      fun k take hk => ?_⟩
    · rw [Table.count, Table.total_insert _ hnone]
      dsimp only at hw'
      rw [Table.lookup_modify] at hw'
      split_ifs at hw' with hww
      · obtain ⟨worker₀, hw₀, rfl⟩ := Option.map_eq_some_iff.mp hw'
        rw [if_pos hww.symm, Nat.add_comm]
        exact congrArg (· + 1) (hs.waiters w worker₀ hw₀)
      · rw [if_neg (Ne.symm hww), Nat.zero_add]
        exact hs.waiters w worker' hw'
    · rcases hlookup k take hk with ⟨-, rfl⟩ | hk₀
      · exact hs.ever hmem
      · exact hs.known k take hk₀
    · rcases hlookup k take hk with ⟨-, hworker⟩ | hk₀
      · exact hworker ▸ hworkers workerId worker hw
      · obtain ⟨worker₀, hw₀⟩ := hs.registered k take hk₀ hconn
        exact hworkers _ worker₀ hw₀
    · rcases hlookup k take hk with ⟨rfl, -⟩ | hk₀
      · exact Nat.lt_succ_self _
      · exact (hs.fresh k take hk₀).trans (Nat.lt_succ_self _)

theorem takeEnd_sound {s : Sys} (hs : s.Sound) (id : Nat) : (s.next (.takeEnd id)).Sound := by
  cases hlive : s.takes.lookup id with
  | none =>
      have hsame : s.next (.takeEnd id) = s := by simp only [next, hlive]
      rw [hsame]
      exact hs
  | some take =>
      have hnext : s.next (.takeEnd id) =
          { s with rpc := s.rpc.takeGuardDrop take.worker, takes := s.takes.erase id } := by
        simp only [next, hlive]
      rw [hnext]
      have hback : ∀ k take', (s.takes.erase id).lookup k = some take' →
          s.takes.lookup k = some take' := by
        intro k take' hk
        rw [Table.lookup_erase_ite] at hk
        split_ifs at hk
        exact hk
      refine ⟨State.takeGuardDrop_inv hs.inv take.worker, fun w worker' hw' => ?_,
        fun k take' hk => hs.known k take' (hback k take' hk),
        fun k take' hk hconn => ?_, hs.ever, fun k take' hk => hs.fresh k take' (hback k take' hk)⟩
      · have herase := Table.total_erase
          (fun _ (take : Take) => if take.worker = w then 1 else 0) hlive
        dsimp only [State.takeGuardDrop] at hw' ⊢
        rw [Table.lookup_modify] at hw'
        rw [Table.count]
        split_ifs at hw' with hww
        · obtain ⟨worker, hw, rfl⟩ := Option.map_eq_some_iff.mp hw'
          have hcount := hs.waiters w worker hw
          rw [Table.count] at hcount
          rw [if_pos hww.symm] at herase
          simp only [Worker.endTake, hcount]
          omega
        · have hcount := hs.waiters w worker' hw'
          rw [Table.count] at hcount
          rw [if_neg (Ne.symm hww)] at herase
          omega
      · obtain ⟨worker, hw⟩ := hs.registered k take' (hback k take' hk) hconn
        dsimp only [State.takeGuardDrop]
        rw [Table.lookup_modify, hw]
        split_ifs <;> exact ⟨_, rfl⟩

theorem disconnect_sound {s : Sys} (hs : s.Sound) (connection : Nat) :
    (s.next (.disconnect connection)).Sound := by
  obtain ⟨hconns, hseats, -, -⟩ := State.disconnect_seats hs.inv connection
  refine ⟨State.disconnect_inv hs.inv connection, fun w worker hw => ?_, hs.known,
    fun k take hk hconn => ?_, ?_, hs.fresh⟩
  · have hmap := hseats w
    rw [show (s.rpc.disconnect connection).workers.lookup w = some worker from hw] at hmap
    split_ifs at hmap
    · cases hmap
    · obtain ⟨worker₀, hw₀, heq⟩ := Option.map_eq_some_iff.mp hmap.symm
      rw [← Worker.seat_pendingTakes heq]
      exact hs.waiters w worker₀ hw₀
  · change take.worker ∈ (s.rpc.disconnect connection).connections at hconn
    rw [hconns] at hconn
    obtain ⟨hne, hconn⟩ := Finset.mem_erase.mp hconn
    obtain ⟨worker₀, hw₀⟩ := hs.registered k take hk hconn
    have hmap := hseats take.worker
    rw [if_neg hne, hw₀, Option.map_some] at hmap
    obtain ⟨worker, hw, -⟩ := Option.map_eq_some_iff.mp hmap
    exact ⟨worker, hw⟩
  · change (s.rpc.disconnect connection).connections ⊆ s.everConnected
    rw [hconns]
    exact (Finset.erase_subset _ _).trans hs.ever

theorem afterPoll_worker (poll : Exit Poll) (take : Take) :
    (take.afterPoll poll).worker = take.worker := by
  rcases poll with (_ | _ | _) | _ | _ <;> rfl

/-- **Every step keeps the invariant**, whatever the clock shows. -/
theorem next_sound {s : Sys} (hs : s.Sound) {op : Op} (hop : s.Enabled op) : (s.next op).Sound := by
  cases op with
  | connected connection => exact connected_sound hs hop
  | register workerId name concurrency queueLimit => exact register_sound hs _ _ _ _
  | request caller route timeoutMs payload expiredAt admittedAt =>
      exact hs.frame_rpc (State.request_inv hs.inv _ _ _ _ _ _)
        (State.request_frame hs.inv _ _ _ _ _ _) rfl rfl rfl
  | takeStart workerId => exact takeStart_sound hs workerId
  | enable id => exact hs.frame hs.inv (.refl _) id (Take.enable _) (fun _ => rfl) rfl rfl rfl
  | tryTake id expiredAt now =>
      simp only [next]
      cases s.takes.lookup id with
      | none => exact hs
      | some take =>
          exact hs.frame (State.tryTake_inv hs.inv _ _ _) (State.tryTake_frame hs.inv _ _ _)
            id _ (afterPoll_worker _) rfl rfl rfl
  | wake id => exact hs.frame hs.inv (.refl _) id (Take.enter .looping) (fun _ => rfl) rfl rfl rfl
  | takeTimeout id =>
      exact hs.frame hs.inv (.refl _) id (Take.enter .returned) (fun _ => rfl) rfl rfl rfl
  | takeEnd id => exact takeEnd_sound hs id
  | complete workerId id failed payload now =>
      exact hs.frame_rpc (State.complete_inv hs.inv _ _ _ _ _)
        (State.complete_frame _ _ _ _ _ _) rfl rfl rfl
  | expire id now =>
      exact hs.frame_rpc (State.expire_inv hs.inv id)
        (State.expire_settles s.rpc id).shrinks.frame rfl rfl rfl
  | cancel id =>
      exact hs.frame_rpc (State.cancel_inv hs.inv id)
        (State.cancel_settles s.rpc id).shrinks.frame rfl rfl rfl
  | disconnect connection => exact disconnect_sound hs connection

theorem sound {maxCalls maxBytes : Nat} {s : Sys} (h : (anyClock maxCalls maxBytes).Reachable s) :
    s.Sound := by
  refine h.invariant ?_ ?_
  · rintro s rfl
    exact new_sound maxCalls maxBytes
  · rintro s op t - hs ⟨hop, rfl⟩
    exact next_sound hs hop

theorem next_budgets {s : Sys} (hs : s.Sound) (op : Op) :
    (s.next op).rpc.maxCalls = s.rpc.maxCalls ∧ (s.next op).rpc.maxBytes = s.rpc.maxBytes := by
  have hframe : ∀ {t : State}, Frame s.rpc t → t.maxCalls = s.rpc.maxCalls ∧
      t.maxBytes = s.rpc.maxBytes := fun h => ⟨h.maxCalls, h.maxBytes⟩
  cases op with
  | connected connection => exact ⟨rfl, rfl⟩
  | register workerId name concurrency queueLimit =>
      simp only [next]
      rcases State.register_cases s.rpc workerId name concurrency queueLimit with
        ⟨error, heq⟩ | ⟨-, -, -, heq⟩
      · rw [heq]
        exact ⟨rfl, rfl⟩
      · rw [heq]
        exact ⟨rfl, rfl⟩
  | request => exact hframe (State.request_frame hs.inv _ _ _ _ _ _)
  | takeStart workerId =>
      simp only [next]
      rcases State.takeStart_cases s.rpc workerId with ⟨error, heq⟩ | ⟨worker, -, -, heq⟩
      · rw [heq]
        exact ⟨rfl, rfl⟩
      · rw [heq]
        exact ⟨rfl, rfl⟩
  | enable => exact ⟨rfl, rfl⟩
  | tryTake id expiredAt now =>
      simp only [next]
      cases s.takes.lookup id with
      | none => exact ⟨rfl, rfl⟩
      | some take => exact hframe (State.tryTake_frame hs.inv _ _ _)
  | wake => exact ⟨rfl, rfl⟩
  | takeTimeout => exact ⟨rfl, rfl⟩
  | takeEnd id =>
      simp only [next]
      cases s.takes.lookup id with
      | none => exact ⟨rfl, rfl⟩
      | some take => exact ⟨rfl, rfl⟩
  | complete => exact hframe (State.complete_frame _ _ _ _ _ _)
  | expire id now => exact hframe (State.expire_settles s.rpc id).shrinks.frame
  | cancel id => exact hframe (State.cancel_settles s.rpc id).shrinks.frame
  | disconnect connection => exact (State.disconnect_seats hs.inv connection).2.2

theorem budgets {maxCalls maxBytes : Nat} {s : Sys}
    (h : (anyClock maxCalls maxBytes).Reachable s) :
    s.rpc.maxCalls = maxCalls ∧ s.rpc.maxBytes = maxBytes := by
  refine h.invariant (P := fun s => s.rpc.maxCalls = maxCalls ∧ s.rpc.maxBytes = maxBytes) ?_ ?_
  · rintro s rfl
    exact ⟨rfl, rfl⟩
  · rintro s op t hs ⟨hcalls, hbytes⟩ ⟨-, rfl⟩
    obtain ⟨hcalls', hbytes'⟩ := next_budgets (sound hs) op
    exact ⟨hcalls'.trans hcalls, hbytes'.trans hbytes⟩

/-! ### The state a reader sees -/

/-- The maps, queues and counters of a state agree, within the budgets of `Rpc::new`. -/
structure Represented (maxCalls maxBytes : Nat) (s : Sys) : Prop where
  retained : s.rpc.retainedBytes = Table.total (fun _ call => call.retainedBytes) s.rpc.calls
  bytes : s.rpc.retainedBytes ≤ maxBytes
  calls : s.rpc.calls.size ≤ maxCalls
  queued : ∀ id call, s.rpc.calls.lookup id = some call → call.owner = none →
    ∃ route, s.rpc.routes.lookup call.route = some route ∧ route.queue.count id = 1 ∧
      ∀ name other, s.rpc.routes.lookup name = some other → name ≠ call.route → id ∉ other.queue
  owned : ∀ id call w, s.rpc.calls.lookup id = some call → call.owner = some w →
    (∃ worker, s.rpc.workers.lookup w = some worker ∧ worker.route = call.route) ∧
      ∀ name route, s.rpc.routes.lookup name = some route → id ∉ route.queue
  live : ∀ name route, s.rpc.routes.lookup name = some route →
    ∀ id ∈ route.queue, ∃ call, s.rpc.calls.lookup id = some call
  running : ∀ w worker, s.rpc.workers.lookup w = some worker →
    worker.running = Table.count (fun _ call => call.owner = some w) s.rpc.calls ∧
      worker.running ≤ worker.concurrency
  takes : ∀ w worker, s.rpc.workers.lookup w = some worker →
    worker.pendingTakes = Table.count (fun _ take => take.worker = w) s.takes ∧
      worker.pendingTakes ≤ worker.concurrency
  staffed : ∀ name route, s.rpc.routes.lookup name = some route →
    route.workers ≠ [] ∧ route.workers.Nodup ∧
      ∀ w, w ∈ route.workers ↔ ∃ worker, s.rpc.workers.lookup w = some worker ∧ worker.route = name
  routed : ∀ w worker, s.rpc.workers.lookup w = some worker →
    w ∈ s.rpc.connections ∧ ∃ route, s.rpc.routes.lookup worker.route = some route
  queueLimit : ∀ name route, s.rpc.routes.lookup name = some route →
    route.queue.length ≤ route.queueLimit
  ids : ∀ id call, s.rpc.calls.lookup id = some call → 0 < id ∧ id < s.rpc.nextId
  healthy : s.rpc.poisoned = false

/-- **The representation invariant.** It holds after any steps, in any order and at any clock
values, and no step panics under the lock. -/
theorem represented {maxCalls maxBytes : Nat} {s : Sys}
    (h : (anyClock maxCalls maxBytes).Reachable s) : s.Represented maxCalls maxBytes := by
  have hs := sound h
  have hinv := hs.inv
  obtain ⟨hcalls, hbytes⟩ := budgets h
  refine ⟨hinv.retained, hbytes ▸ hinv.bytes, hcalls ▸ hinv.calls, fun id call hlive howner => ?_,
    fun id call w hlive howner => ⟨hinv.owned id call w hlive howner, fun name route hr hid => ?_⟩,
    fun name route hr id hid => ?_, fun w worker hw => ⟨hinv.running w worker hw,
      hinv.slots w worker hw⟩, fun w worker hw => ⟨hs.waiters w worker hw,
      hinv.waiters w worker hw⟩, hinv.staffed, fun w worker hw => ⟨hinv.connected w worker hw,
      hinv.routed w worker hw⟩, hinv.queue, fun id call hlive => ⟨hinv.positive id call hlive,
      hinv.fresh id call hlive⟩, hinv.healthy⟩
  · obtain ⟨route, hr⟩ := hinv.unowned id call hlive howner
    refine ⟨route, hr, ?_, fun name other hother hne hid => ?_⟩
    · have hmem := (hinv.queued call.route route hr id).mpr ⟨call, hlive, howner, rfl⟩
      exact List.count_eq_one_of_mem (hinv.queueNodup hr) hmem
    · obtain ⟨call', hlive', -, hroute⟩ := (hinv.queued name other hother id).mp hid
      obtain rfl := Option.some.inj (hlive.symm.trans hlive')
      exact hne hroute.symm
  · obtain ⟨call', hlive', hnone, -⟩ := (hinv.queued name route hr id).mp hid
    obtain rfl := Option.some.inj (hlive.symm.trans hlive')
    rw [howner] at hnone
    cases hnone
  · obtain ⟨call, hlive, -⟩ := (hinv.queued name route hr id).mp hid
    exact ⟨call, hlive⟩

theorem represented_served : Sys.served.Represented 4 100000 :=
  represented (anyClock_of_steady served_reachable)

end Sys

end VeloBus.Rpc
