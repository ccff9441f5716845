import Mathlib.Data.Int.ConditionallyCompleteOrder
import Mathlib.Data.List.MinMax
import Mathlib.Data.Nat.ModEq
import VeloBus.ClusterAccounts

/-! How a cluster client chooses among its nodes: the first of those with the fewest attempts, in cyclic order from
the cursor. Over a run the cursor makes equal nodes take turns, and one request comes to each node at most once. -/

/-! ### Scans -/

namespace VeloBus.Scan

variable {α : Type*} {p : α → Prop} [DecidablePred p] {f : α → ℤ} {a : α}

/-- A scan that keeps the best element so far. -/
theorem foldl_best (as : List α) (best : Option α) :
    as.foldl (fun best a => if p a ∧ ∀ b ∈ best, f a < f b then some a else best) best =
      (as.filter p).foldl (List.argAux fun b c => f b < f c) best := by
  induction as generalizing best with
  | nil => rfl
  | cons a as ih =>
      rw [List.foldl_cons, ih, List.filter_cons]
      by_cases ha : p a
      · rw [if_pos (decide_eq_true ha), List.foldl_cons]
        congr 1
        cases best with
        | none => simp [ha, List.argAux]
        | some b => simp [ha, List.argAux]
      · rw [if_neg (fun h => ha (of_decide_eq_true h)), if_neg fun h : p a ∧ _ => ha h.1]

/-- The first of the least comes before the others. -/
theorem argmin_filter {as : List α} [DecidableEq α] (h : (as.filter p).argmin f = some a) :
    ∃ before after, as = before ++ a :: after ∧ ∀ b ∈ before, p b → f a < f b := by
  have hmem := List.argmin_mem h
  obtain ⟨before, after, heq, hfirst⟩ := List.eq_append_cons_of_mem (List.mem_of_mem_filter hmem)
  refine ⟨before, after, heq, ?_⟩
  intro b hb hpb
  by_contra hle
  have hbefore : b ∈ before.filter p := List.mem_filter.mpr ⟨hb, decide_eq_true hpb⟩
  have hsplit : as.filter p = before.filter p ++ a :: after.filter p := by
    rw [heq, List.filter_append, List.filter_cons, if_pos (List.mem_filter.mp hmem).2]
  have hindex := List.index_of_argmin (m := a) (a := b) (f := f) h
    (List.mem_filter.mpr ⟨heq ▸ List.mem_append_left _ hb, decide_eq_true hpb⟩) (not_lt.mp hle)
  rw [hsplit, List.idxOf_append_of_mem hbefore, List.idxOf_append_of_notMem fun hin => hfirst (List.mem_of_mem_filter hin),
    List.idxOf_cons_self] at hindex
  have hlt := List.idxOf_lt_length_of_mem hbefore
  omega

end VeloBus.Scan

namespace VeloBus.Cluster

open Client (Failure Value)

namespace State

variable {options : Options} {now : ℚ} {s t u : State}

/-! ### One choice -/

/-- The nodes in cyclic order from the cursor. -/
def order (s : State) : List Nat := (List.range s.nodes.length).map fun offset => (s.cursor + offset) % s.nodes.length

/-- A node that a request may still try. -/
def Eligible (s : State) (tried : List Nat) (n : Nat) : Prop :=
  n ∉ tried ∧ s.connected n = true ∧ s.pendingOf n < 32

instance (s : State) (tried : List Nat) (n : Nat) : Decidable (s.Eligible tried n) := inferInstanceAs (Decidable (_ ∧ _))

/-- The first of the eligible nodes with the fewest attempts. -/
structure Preferred (s : State) (tried : List Nat) (n : Nat) : Prop where
  eligible : s.Eligible tried n
  least : ∀ m, s.Eligible tried m → s.pendingOf n ≤ s.pendingOf m
  first : ∃ before after, s.order = before ++ n :: after ∧
    ∀ m ∈ before, s.Eligible tried m → s.pendingOf n < s.pendingOf m

theorem choose_eq (tried : List Nat) (s : State) :
    s.choose tried = (s.order.filter fun n => s.Eligible tried n).argmin s.pendingOf := by
  unfold List.argmin
  rw [← Scan.foldl_best, order, List.foldl_map]
  unfold choose
  congr 1
  funext best offset
  apply if_congr _ rfl rfl
  unfold Better Eligible
  simp only [and_assoc]

theorem connected_lt {n : Nat} (h : s.connected n = true) : n < s.nodes.length := by
  unfold connected at h
  by_contra hlong
  rw [List.getElem?_eq_none (not_lt.mp hlong)] at h
  cases h

/-- Every node is in the cycle. -/
theorem mem_order {n : Nat} (h : n < s.nodes.length) : n ∈ s.order := by
  have hpositive : 0 < s.nodes.length := (Nat.zero_le n).trans_lt h
  have hcursor := Nat.mod_lt s.cursor hpositive
  rw [order, List.mem_map]
  refine ⟨(n + s.nodes.length - s.cursor % s.nodes.length) % s.nodes.length, ?_, ?_⟩
  · rw [List.mem_range]
    exact Nat.mod_lt _ hpositive
  · calc (s.cursor + (n + s.nodes.length - s.cursor % s.nodes.length) % s.nodes.length) % s.nodes.length
        = (s.cursor % s.nodes.length + (n + s.nodes.length - s.cursor % s.nodes.length)) % s.nodes.length := by
          rw [Nat.add_mod_mod, Nat.mod_add_mod]
      _ = (n + s.nodes.length) % s.nodes.length := by rw [Nat.add_sub_cancel' (by omega)]
      _ = n := by rw [Nat.add_mod_right, Nat.mod_eq_of_lt h]

theorem mem_eligible {tried : List Nat} {n : Nat} :
    n ∈ s.order.filter (fun n => s.Eligible tried n) ↔ s.Eligible tried n := by
  rw [List.mem_filter, decide_eq_true_iff, and_iff_right_iff_imp]
  intro h
  exact mem_order (connected_lt h.2.1)

/-- **Nothing is chosen when no node is eligible.** -/
theorem choose_eq_none (tried : List Nat) (s : State) : s.choose tried = none ↔ ∀ n, ¬s.Eligible tried n := by
  rw [choose_eq, List.argmin_eq_none, List.eq_nil_iff_forall_not_mem]
  simp only [mem_eligible]

/-- **What is chosen is preferred.** -/
theorem choose_preferred {tried : List Nat} {n : Nat} (h : s.choose tried = some n) : s.Preferred tried n := by
  rw [choose_eq] at h
  refine ⟨mem_eligible.mp (List.argmin_mem h), ?_, Scan.argmin_filter h⟩
  intro m hm
  exact List.le_of_mem_argmin (mem_eligible.mpr hm) h

/-! ### The cursor

Only a choice moves it, and the requests change only when one is asked or answered. -/

def wheel (s : State) : Nat × Nat × Table Nat (Request × Attempt) := (s.cursor, s.nodes.length, s.requests)

theorem wheel_eq {cursor length : Nat} {requests : Table Nat (Request × Attempt)} :
    s.wheel = (cursor, length, requests) ↔ s.cursor = cursor ∧ s.nodes.length = length ∧ s.requests = requests := by
  rw [wheel, Prod.mk.injEq, Prod.mk.injEq]

theorem foldl_wheel {α : Type} {f : State → α → State} (hf : ∀ s a, (f s a).wheel = s.wheel) (as : List α) (s : State) :
    (as.foldl f s).wheel = s.wheel := by
  induction as generalizing s with
  | nil => rfl
  | cons a as ih => exact (ih _).trans (hf s a)

@[simp] theorem modifyNode_wheel (n : Nat) (f : NodeState → NodeState) (s : State) : (s.modifyNode n f).wheel = s.wheel := by
  simp [wheel, modifyNode]

@[simp] theorem closeHandle_wheel (h : Nat) (s : State) : (s.closeHandle h).wheel = s.wheel := rfl

@[simp] theorem modifyService_wheel (v : Nat) (f : ClusterService → ClusterService) (s : State) :
    (s.modifyService v f).wheel = s.wheel := rfl

@[simp] theorem closeClient_wheel (c : Nat) (s : State) : (s.closeClient c).wheel = s.wheel := by
  unfold closeClient
  split
  · rfl
  · split_ifs <;> rfl

@[simp] theorem detach_wheel (n v : Nat) (s : State) : (s.detach n v).wheel = s.wheel := by
  unfold detach
  dsimp only
  split
  · rfl
  · split <;> rfl

@[simp] theorem detachAll_wheel (n : Nat) (s : State) : (s.detachAll n).wheel = s.wheel :=
  foldl_wheel (fun s v => detach_wheel n v s) _ s

@[simp] theorem retire_wheel (n c : Nat) (error : Failure) (s : State) :
    (s.retire options now n c error).wheel = s.wheel := by
  unfold retire
  split
  · rfl
  · split_ifs
    · rfl
    · rw [closeClient_wheel, detachAll_wheel, modifyNode_wheel]

@[simp] theorem notify_wheel (c : Nat) (s : State) : (s.notify options now c).wheel = s.wheel := by
  unfold notify
  split
  · rfl
  · split
    · rfl
    · split_ifs
      · exact retire_wheel _ _ _ s
      · rfl

@[simp] theorem update_wheel (c : Nat) (state : Client.State Reply) (s : State) :
    (s.update options now c state).wheel = s.wheel := by
  unfold update
  split
  · rfl
  · split_ifs
    · exact notify_wheel c _
    · rfl

@[simp] theorem attach_wheel (n v : Nat) (s : State) : (s.attach options now n v).wheel = s.wheel := by
  unfold attach
  dsimp only
  split
  · split_ifs
    · rfl
    · rfl
    · split
      · rfl
      · split_ifs
        · rfl
        · split <;> rfl
  · rfl

@[simp] theorem attachAll_wheel (n : Nat) (s : State) : (s.attachAll options now n).wheel = s.wheel :=
  foldl_wheel (fun s v => attach_wheel n v s) _ s

@[simp] theorem adopt_wheel (n v : Nat) (a : Attaching) (h : Nat) (s : State) : (s.adopt n v a h).wheel = s.wheel := by
  unfold adopt
  dsimp only
  split
  · split_ifs <;> rfl
  · rfl

@[simp] theorem follow_wheel (h : Nat) (handle : Handle) (state : Service.State) (s : State) :
    (s.follow options now h handle state).wheel = s.wheel := by
  unfold follow onError
  dsimp only
  split_ifs
  · split
    · rfl
    · split_ifs
      · rfl
      · rw [modifyService_wheel, detach_wheel]
        rfl
  · rfl

@[simp] theorem closeService_wheel (v : Nat) (s : State) : (s.closeService v).wheel = s.wheel := by
  unfold closeService
  split
  · rfl
  · split_ifs
    · rfl
    · exact foldl_wheel (fun s (entry : Sigma fun _ : Nat => Nat) => closeHandle_wheel entry.2 s) _ _

@[simp] theorem connectNode_wheel (n : Nat) (s : State) : (s.connectNode options n).wheel = s.wheel := by
  unfold connectNode
  dsimp only
  split
  · rfl
  · split_ifs
    · rfl
    · split
      · exact modifyNode_wheel _ _ _
      · exact modifyNode_wheel _ _ _

@[simp] theorem ending_wheel (n : Nat) (s : State) : (s.ending n).wheel = s.wheel := modifyNode_wheel _ _ s

@[simp] theorem welcome_wheel (n c : Nat) (s : State) : (s.welcome options now n c).wheel = s.wheel := by
  unfold welcome
  split_ifs
  · rw [ending_wheel, closeClient_wheel]
  · rw [attachAll_wheel, modifyNode_wheel, ending_wheel]

@[simp] theorem connectFailed_wheel (random : ℚ) (n : Nat) (error : Failure) (s : State) :
    (s.connectFailed options now random n error).wheel = s.wheel := by
  unfold connectFailed
  rw [ending_wheel, modifyNode_wheel]

@[simp] theorem release_wheel (n : Nat) (s : State) : (s.release n).wheel = s.wheel := modifyNode_wheel _ _ s

@[simp] theorem occupy_wheel (n : Nat) (s : State) : (s.occupy n).wheel = s.wheel := modifyNode_wheel _ _ s

theorem call_wheel {c : Nat} {body : Except Failure Bytes} {opcode : Nat} {parse : Client.Parser Reply}
    {socket : Client.Socket} {promise : Except Failure Nat}
    (h : s.call options now c body opcode parse socket = some (promise, t)) : t.wheel = s.wheel := by
  obtain ⟨connection, -, ⟨reason, -, rfl, -⟩ | ⟨bytes, state, -, -, -, -, rfl⟩⟩ := call_cases h
  · rfl
  · exact update_wheel c state s

theorem ping_wheel {n c : Nat} {socket : Client.Socket} (h : s.ping options now n c socket = some t) :
    t.wheel = s.wheel := by
  unfold State.ping at h
  split at h
  · cases h
  · rename_i hcall
    rw [← Option.some.inj h]
    exact (call_wheel hcall).trans (occupy_wheel n s)

theorem tick_wheel {sockets : Nat → Client.Socket} (h : s.tick options now sockets = some t) : t.wheel = s.wheel := by
  apply tick_preserves (P := fun u => u.wheel = s.wheel) _ _ _ _ _ rfl h
  · exact fun u n c error hu => (retire_wheel n c error u).trans hu
  · exact fun u n hu => (connectNode_wheel n u).trans hu
  · exact fun u v n c socket hu _ _ hping => (ping_wheel hping).trans hu
  · exact fun u n hu => (attachAll_wheel n u).trans hu
  · exact fun u hu => hu

@[simp] theorem pinged_wheel (n : Nat) (ping : Attempt) (outcome : Client.Settlement Reply) (s : State) :
    (s.pinged options now n ping outcome).wheel = s.wheel := by
  unfold pinged
  cases outcome with
  | resolved value =>
      dsimp only
      rw [attachAll_wheel, release_wheel]
      rfl
  | rejected reason =>
      dsimp only
      rw [attachAll_wheel, release_wheel]
      exact retire_wheel n ping.client reason s

theorem register_wheel {route handler : Value} {handleOptions : Client.HandleOptions}
    (h : s.register options now route handler handleOptions = .ok t) : t.wheel = s.wheel := by
  unfold State.register at h
  simp only [Codec.bind_eq_ok, Codec.pure_eq_ok, Codec.check_eq_ok] at h
  obtain ⟨-, -, -, -, -, -, -, concurrency, -, queueLimit, -, rfl⟩ := h
  exact foldl_wheel (fun s n => attach_wheel n _ s) _ _

@[simp] theorem shutdown_wheel (s : State) : s.shutdown.wheel = s.wheel := by
  unfold shutdown
  split_ifs
  · rfl
  · dsimp only
    rw [foldl_wheel (fun s c => closeClient_wheel c s), foldl_wheel (fun s v => closeService_wheel v s)]
    simp [wheel]

/-- **The other steps leave the cursor and the requests alone.** -/
theorem Step.wheel {op : Op} (h : s.Step options now op t)
    (hrequest : ∀ route payload requestOptions socket, op ≠ .request route payload requestOptions socket)
    (hanswered : ∀ id socket, op ≠ .answered id socket) : t.wheel = s.wheel := by
  cases op with
  | client c op =>
      obtain ⟨connection, state, -, -, -, -, rfl⟩ := h
      exact update_wheel c state s
  | service k op =>
      obtain ⟨handle, state, -, -, hrest⟩ := h
      split at hrest
      · exact hrest.elim
      · rw [hrest.2, follow_wheel]
      · rw [hrest.2, follow_wheel]
      · rw [hrest, follow_wheel]
  | opened =>
      obtain ⟨-, -, rfl⟩ := h
      split_ifs
      · rfl
      · exact shutdown_wheel _
  | connected n random =>
      obtain ⟨-, -, node, attempt, dial, -, -, hrest⟩ := h
      cases dial with
      | invalid reason => rw [show t = _ from hrest, connectFailed_wheel]
      | dialling c =>
          obtain ⟨connection, -, ⟨-, rfl⟩ | ⟨-, -, rfl⟩⟩ := hrest
          · exact welcome_wheel n c s
          · exact connectFailed_wheel random n _ s
      | ending => exact hrest.elim
  | connectEnd n =>
      obtain ⟨node, attempt, -, -, rfl⟩ := h
      exact modifyNode_wheel n _ s
  | notify n =>
      obtain ⟨node, c, -, -, -, rfl⟩ := h
      exact notify_wheel c s
  | tick sockets => exact tick_wheel h.2.2
  | pinged n =>
      obtain ⟨ping, outcome, -, -, rfl⟩ := h
      exact pinged_wheel n ping outcome s
  | ticked =>
      obtain ⟨-, -, rfl⟩ := h
      rfl
  | request route payload requestOptions socket => exact absurd rfl (hrequest _ _ _ _)
  | answered id socket => exact absurd rfl (hanswered _ _)
  | handle route handler handleOptions =>
      obtain ⟨-, hrest⟩ := h
      split at hrest
      · rw [hrest]
      · rename_i next hregister
        rw [hrest]
        exact register_wheel hregister
  | handled v =>
      obtain ⟨-, service, -, rfl⟩ := h
      split_ifs
      · exact closeService_wheel v _
      · rfl
  | attached n v =>
      obtain ⟨service, a, -, -, -, hrest⟩ := h
      split at hrest
      · rw [hrest]
        rfl
      · obtain ⟨handle, -, ⟨-, rfl⟩ | ⟨-, rfl⟩⟩ := hrest
        · exact adopt_wheel n v a _ s
        · rfl
  | attachEnd n v =>
      obtain ⟨service, a, -, -, -, rfl⟩ := h
      rfl
  | closeService v =>
      rw [show t = s.closeService v from h, closeService_wheel]
  | serviceClosed v =>
      obtain ⟨service, -, -, rfl⟩ := h
      rfl
  | close =>
      obtain ⟨-, rfl⟩ := h
      exact shutdown_wheel s
  | clientsClosed =>
      obtain ⟨services, -, -, rfl⟩ := h
      rfl
  | connectingEnded =>
      obtain ⟨attempts, -, -, rfl⟩ := h
      rfl
  | tickingEnded =>
      obtain ⟨-, -, rfl⟩ := h
      simp [State.wheel]

/-! ### A round of a request -/

/-- What a round chooses. -/
def turnOf (tried : List Nat) (s : State) : Option Nat :=
  if tried.length < s.nodes.length then s.choose tried else none

/-- A round leaves, or it comes to the node that it chose. -/
theorem proceed_cases {id : Nat} {request : Request} {socket : Client.Socket}
    (h : s.proceed options now id request socket = some t) :
    (s.turnOf request.tried = none ∧ t = s.leave id (.rejected (s.exhausted request))) ∨
    ∃ n, s.turnOf request.tried = some n ∧
      ((request.deadline ≤ now ∧
          t.wheel = ((n + 1) % s.nodes.length, s.nodes.length, s.requests.erase id)) ∨
        ∃ c promise, t.wheel = ((n + 1) % s.nodes.length, s.nodes.length,
          s.requests.insert id ({ request with tried := n :: request.tried }, ⟨n, c, promise⟩))) := by
  unfold State.proceed at h
  split at h
  · rename_i hnone
    exact Or.inl ⟨hnone, (Option.some.inj h).symm⟩
  · rename_i n hchosen
    refine Or.inr ⟨n, hchosen, ?_⟩
    dsimp only at h
    split_ifs at h with hlate
    · left
      have hpassed : request.deadline - now ≤ ((0 : ℤ) : ℚ) := Int.ceil_le.mp (Int.lt_add_one_iff.mp hlate)
      rw [Int.cast_zero, sub_nonpos] at hpassed
      refine ⟨hpassed, ?_⟩
      rw [← Option.some.inj h]
      rfl
    · right
      split at h
      · cases h
      · rename_i c hclient
        split at h
        · cases h
        · rename_i promise u hcall
          have hwheel : u.wheel = ((n + 1) % s.nodes.length, s.nodes.length, s.requests) :=
            (call_wheel hcall).trans (occupy_wheel n _)
          obtain ⟨hcursor, hlength, hrequests⟩ := wheel_eq.mp hwheel
          refine ⟨c, promise, ?_⟩
          rw [← Option.some.inj h, ← hrequests]
          exact wheel_eq.mpr ⟨hcursor, hlength, rfl⟩

/-- Where a round leaves the cursor. -/
theorem proceed_cursor {id : Nat} {request : Request} {socket : Client.Socket}
    (h : s.proceed options now id request socket = some t) : t.nodes.length = s.nodes.length ∧
      t.cursor = match s.turnOf request.tried with
        | none => s.cursor
        | some n => (n + 1) % s.nodes.length := by
  rcases proceed_cases h with ⟨hnone, rfl⟩ | ⟨n, hsome, ⟨-, hwheel⟩ | ⟨c, promise, hwheel⟩⟩
  · rw [hnone]
    exact ⟨rfl, rfl⟩
  · rw [hsome]
    exact ⟨congrArg (fun w => w.2.1) hwheel, congrArg Prod.fst hwheel⟩
  · rw [hsome]
    exact ⟨congrArg (fun w => w.2.1) hwheel, congrArg Prod.fst hwheel⟩

end State

/-- What lets a request try another node. -/
def Again (reason : Failure) : Prop := (∃ code message, reason = .broker code message ∧ (code = 8 ∨ code = 9)) ∨ reason = .backpressure

namespace State

/-- In this step a round of a request begins, in the state `u`. -/
inductive Rounds (options : Options) (s : State) (now : ℚ) (t : State) : Op → Request → State → Prop where
  | request {route payload : Value} {requestOptions : Client.RequestOptions} {socket : Client.Socket} {snapshot : Bytes}
      {timeoutMs : Nat} (hadmission : s.admission options route payload requestOptions = .ok (snapshot, timeoutMs))
      (hproceed : { s with called := s.called + 1, pending := s.pending + 1 }.proceed options now s.called
        ⟨route, .bytes snapshot, now + timeoutMs, [], none⟩ socket = some t) :
      s.Rounds options now t (.request route payload requestOptions socket)
        ⟨route, .bytes snapshot, now + timeoutMs, [], none⟩ { s with called := s.called + 1, pending := s.pending + 1 }
  | answered {id : Nat} {socket : Client.Socket} {request : Request} {attempt : Attempt} {reason : Failure}
      (hlookup : s.requests.lookup id = some (request, attempt)) (hsettled : s.Settled attempt (.rejected reason))
      (hreason : Again reason)
      (hproceed : (s.release attempt.node).proceed options now id { request with lastError := some reason } socket = some t) :
      s.Rounds options now t (.answered id socket) { request with lastError := some reason } (s.release attempt.node)

variable {options : Options} {now : ℚ} {s t u : State}

/-- A request goes round again, or it has its answer. -/
theorem resume_cases {id : Nat} {request : Request} {attempt : Attempt} {outcome : Client.Settlement Reply}
    {socket : Client.Socket} (h : s.resume options now id request attempt outcome socket = some t) :
    (∃ reason, outcome = .rejected reason ∧ Again reason ∧
      (s.release attempt.node).proceed options now id { request with lastError := some reason } socket = some t) ∨
    t.wheel = (s.cursor, s.nodes.length, s.requests.erase id) := by
  have hends : ∀ (u : State) answer, u.wheel = s.wheel →
      ((u.release attempt.node).leave id answer).wheel = (s.cursor, s.nodes.length, s.requests.erase id) := by
    intro u answer hu
    obtain ⟨hcursor, hlength, hrequests⟩ := wheel_eq.mp ((release_wheel attempt.node u).trans hu)
    rw [← hrequests]
    exact wheel_eq.mpr ⟨hcursor, hlength, rfl⟩
  unfold State.resume at h
  dsimp only at h
  split at h
  · rw [← Option.some.inj h]
    exact Or.inr (hends s _ rfl)
  · split_ifs at h with hcode
    · rw [← Option.some.inj h]
      exact Or.inr (hends s _ rfl)
    · exact Or.inl ⟨_, rfl, Or.inl ⟨_, _, rfl, by omega⟩, h⟩
  · exact Or.inl ⟨_, rfl, Or.inr rfl, h⟩
  · rw [← Option.some.inj h]
    exact Or.inr (hends _ _ (retire_wheel _ _ _ s))

/-- A step begins a round, or it leaves the cursor where it is. -/
theorem Step.rounds {op : Op} (h : s.Step options now op t) :
    (∃ id request socket u, s.Rounds options now t op request u ∧ u.proceed options now id request socket = some t ∧
      u.cursor = s.cursor ∧ u.nodes.length = s.nodes.length) ∨ t.cursor = s.cursor ∧ t.nodes.length = s.nodes.length := by
  by_cases hrequest : ∃ route payload requestOptions socket, op = .request route payload requestOptions socket
  · obtain ⟨route, payload, requestOptions, socket, rfl⟩ := hrequest
    have hasked := h.2
    unfold State.request at hasked
    split at hasked
    · rw [← Option.some.inj hasked]
      exact Or.inr ⟨rfl, rfl⟩
    · rename_i hadmission
      exact Or.inl ⟨_, _, socket, _, .request hadmission hasked, hasked, rfl, rfl⟩
  by_cases hanswered : ∃ id socket, op = .answered id socket
  · obtain ⟨id, socket, rfl⟩ := hanswered
    obtain ⟨request, attempt, outcome, hlookup, hsettled, hresume⟩ := h
    rcases resume_cases hresume with ⟨reason, rfl, hreason, hproceed⟩ | hwheel
    · obtain ⟨hcursor, hlength, -⟩ := wheel_eq.mp (release_wheel attempt.node s)
      exact Or.inl ⟨_, _, socket, _, .answered hlookup hsettled hreason hproceed, hproceed, hcursor, hlength⟩
    · obtain ⟨hcursor, hlength, -⟩ := wheel_eq.mp hwheel
      exact Or.inr ⟨hcursor, hlength⟩
  · have hwheel := h.wheel (fun route payload requestOptions socket heq => hrequest ⟨_, _, _, _, heq⟩)
      fun id socket heq => hanswered ⟨_, _, heq⟩
    obtain ⟨hcursor, hlength, -⟩ := wheel_eq.mp hwheel
    exact Or.inr ⟨hcursor, hlength⟩

/-- What a round chooses is a node. -/
theorem turnOf_lt {tried : List Nat} {n : Nat} (h : s.turnOf tried = some n) : n < s.nodes.length := by
  unfold turnOf at h
  split_ifs at h
  exact connected_lt (choose_some h).2.1

theorem Step.cursor_lt {op : Op} (h : s.Step options now op t) : t.nodes.length = s.nodes.length ∧
    (s.cursor < s.nodes.length → t.cursor < t.nodes.length) := by
  rcases h.rounds with ⟨id, request, socket, u, -, hproceed, hcursor, hlength⟩ | ⟨hcursor, hlength⟩
  · obtain ⟨hnodes, hmoved⟩ := proceed_cursor hproceed
    refine ⟨hnodes.trans hlength, fun hlt => ?_⟩
    rw [hmoved, hnodes]
    cases hturn : u.turnOf request.tried with
    | none => exact hcursor ▸ hlength ▸ hlt
    | some n =>
        apply Nat.mod_lt
        exact (Nat.zero_le n).trans_lt (turnOf_lt hturn)
  · refine ⟨hlength, fun hlt => ?_⟩
    rw [hcursor, hlength]
    exact hlt

/-! ### Runs -/

/-- All nodes are eligible, with equally many attempts. -/
def Even (s : State) : Prop := ∀ n < s.nodes.length, s.Eligible [] n ∧ s.pendingOf n = s.pendingOf 0

/-- A run whose calls of `choose` find the nodes even and nothing tried, with what they return. -/
inductive Rotates (options : Options) : State → List Nat → State → Prop where
  | done (s : State) : Rotates options s [] s
  | quiet {s t u : State} {now : ℚ} {op : Op} {ns : List Nat} (hstep : s.Step options now op t)
      (hquiet : ∀ request v, s.Rounds options now t op request v → v.nodes.length ≤ request.tried.length)
      (h : Rotates options t ns u) : Rotates options s ns u
  | chooses {s t u v : State} {now : ℚ} {op : Op} {request : Request} {n : Nat} {ns : List Nat}
      (hstep : s.Step options now op t) (hrounds : s.Rounds options now t op request v) (htried : request.tried = [])
      (heven : v.Even) (hchoose : v.choose [] = some n) (h : Rotates options t ns u) : Rotates options s (n :: ns) u

/-- Even nodes take turns. -/
theorem Even.choose (heven : s.Even) {n : Nat} (h : s.choose [] = some n) : n = s.cursor % s.nodes.length := by
  obtain ⟨heligible, -, before, after, horder, hfirst⟩ := choose_preferred h
  have hlength : 0 < s.nodes.length := (Nat.zero_le n).trans_lt (connected_lt heligible.2.1)
  have hhead : s.order[0]? = some (s.cursor % s.nodes.length) := by
    simp [order, hlength]
  cases before with
  | nil =>
      rw [horder] at hhead
      exact Option.some.inj hhead
  | cons m before =>
      rw [horder] at hhead
      obtain rfl : m = s.cursor % s.nodes.length := Option.some.inj hhead
      obtain ⟨hm, hsame⟩ := heven _ (Nat.mod_lt s.cursor hlength)
      have hless := hfirst _ List.mem_cons_self hm
      rw [hsame, (heven n (connected_lt heligible.2.1)).2] at hless
      exact absurd hless (lt_irrefl _)

theorem Rounds.same {op : Op} {request : Request} (h : s.Rounds options now t op request u) :
    u.cursor = s.cursor ∧ u.nodes.length = s.nodes.length ∧
      ∃ id socket, u.proceed options now id request socket = some t := by
  cases h with
  | request hadmission hproceed => exact ⟨rfl, rfl, _, _, hproceed⟩
  | answered hlookup hsettled hreason hproceed =>
      obtain ⟨hcursor, hlength, -⟩ := wheel_eq.mp (release_wheel _ s)
      exact ⟨hcursor, hlength, _, _, hproceed⟩

/-- **Even nodes are chosen one after another.** -/
theorem Rotates.cycles {ns : List Nat} (h : Rotates options s ns t) :
    ns = (List.range ns.length).map fun i => (s.cursor + i) % s.nodes.length := by
  induction h with
  | done s => rfl
  | @quiet s t u now op ns hstep hquiet h ih =>
      obtain ⟨hcursor, hlength⟩ : t.cursor = s.cursor ∧ t.nodes.length = s.nodes.length := by
        rcases hstep.rounds with ⟨id, request, socket, v, hrounds, hproceed, hcursor, hlength⟩ | hsame
        · obtain ⟨hnodes, hmoved⟩ := proceed_cursor hproceed
          have hnone : v.turnOf request.tried = none := if_neg (not_lt.mpr (hquiet request v hrounds))
          rw [hnone] at hmoved
          exact ⟨hmoved.trans hcursor, hnodes.trans hlength⟩
        · exact hsame
      rw [hcursor, hlength] at ih
      exact ih
  | @chooses s t u v now op request n ns hstep hrounds htried heven hchoose h ih =>
      obtain ⟨hcursor, hlength, id, socket, hproceed⟩ := hrounds.same
      obtain ⟨hnodes, hmoved⟩ := proceed_cursor hproceed
      have hpositive := connected_lt (choose_some hchoose).2.1
      have hturn : v.turnOf request.tried = some n := by
        rw [htried]
        exact (if_pos ((Nat.zero_le n).trans_lt hpositive)).trans hchoose
      have hn : n = s.cursor % s.nodes.length := by
        rw [heven.choose hchoose, hcursor, hlength]
      rw [hturn] at hmoved
      rw [hmoved, hnodes, hlength] at ih
      rw [List.length_cons, List.range_succ_eq_map, List.map_cons, List.map_map, Nat.add_zero, ← hn]
      conv_lhs => rw [ih]
      congr 1
      apply List.map_congr_left
      intro i _
      rw [Function.comp_apply, hn, Nat.mod_add_mod, Nat.add_assoc, Nat.mod_add_mod, Nat.succ_eq_one_add i]

/-- **As many calls as there are nodes return different nodes.** -/
theorem Rotates.nodup {ns : List Nat} (h : Rotates options s ns t) (hfew : ns.length ≤ s.nodes.length) : ns.Nodup := by
  rw [h.cycles]
  apply List.Nodup.map_on _ List.nodup_range
  intro i hi j hj hij
  rw [List.mem_range] at hi hj
  exact (Nat.ModEq.add_left_cancel' s.cursor hij).eq_of_lt_of_lt (hi.trans_le hfew) (hj.trans_le hfew)

/-! ### The attempts of a request -/

/-- A round of a request leaves the others. -/
theorem proceed_lookup {id other : Nat} {request : Request} {socket : Client.Socket}
    (h : s.proceed options now id request socket = some t) (hother : other ≠ id) :
    t.requests.lookup other = s.requests.lookup other := by
  rcases proceed_cases h with ⟨-, rfl⟩ | ⟨n, -, ⟨-, hwheel⟩ | ⟨c, promise, hwheel⟩⟩
  · exact AList.lookup_erase_ne hother
  · rw [(wheel_eq.mp hwheel).2.2]
    exact AList.lookup_erase_ne hother
  · rw [(wheel_eq.mp hwheel).2.2]
    exact AList.lookup_insert_ne hother

/-- A request that is not asked or answered in a step waits for the same attempt after it. -/
theorem Step.lookup {op : Op} (h : s.Step options now op t) {id : Nat} (hanswered : ∀ socket, op ≠ .answered id socket)
    (hasked : id ≠ s.called) : t.requests.lookup id = s.requests.lookup id := by
  by_cases hrequest : ∃ route payload requestOptions socket, op = .request route payload requestOptions socket
  · obtain ⟨route, payload, requestOptions, socket, rfl⟩ := hrequest
    have hsent := h.2
    unfold State.request at hsent
    split at hsent
    · rw [← Option.some.inj hsent]
    · have hkept := proceed_lookup hsent hasked
      exact hkept
  by_cases hother : ∃ other socket, op = .answered other socket
  · obtain ⟨other, socket, rfl⟩ := hother
    have hne : id ≠ other := by
      rintro rfl
      exact hanswered socket rfl
    obtain ⟨request, attempt, outcome, hlookup, hsettled, hresume⟩ := h
    rcases resume_cases hresume with ⟨reason, -, -, hproceed⟩ | hwheel
    · exact (proceed_lookup hproceed hne).trans (by rw [(wheel_eq.mp (release_wheel attempt.node s)).2.2])
    · rw [(wheel_eq.mp hwheel).2.2]
      exact AList.lookup_erase_ne hne
  · have hwheel := h.wheel (fun route payload requestOptions socket heq => hrequest ⟨_, _, _, _, heq⟩)
      fun other socket heq => hother ⟨_, _, heq⟩
    rw [(wheel_eq.mp hwheel).2.2]

/-- In a run the request `id` has come to the nodes `ns`, and waits for the last of them. Each node before has
refused it with code 8 or 9 within its deadline. -/
inductive Attempts (options : Options) (id : Nat) : List Nat → State → Prop where
  | asked {s t : State} {now : ℚ} {route payload : Value} {requestOptions : Client.RequestOptions} {socket : Client.Socket}
      {request : Request} {attempt : Attempt} (hreachable : (machine options).Reachable s) (hid : s.called = id)
      (hstep : s.Step options now (.request route payload requestOptions socket) t)
      (hlookup : t.requests.lookup id = some (request, attempt)) : Attempts options id [attempt.node] t
  | other {s t : State} {now : ℚ} {op : Op} {ns : List Nat} (h : Attempts options id ns s)
      (hstep : s.Step options now op t) (hop : ∀ socket, op ≠ .answered id socket) : Attempts options id ns t
  | refused {s t : State} {now : ℚ} {socket : Client.Socket} {code : Nat} {message : String} {request next : Request}
      {attempt later : Attempt} {ns : List Nat} (h : Attempts options id ns s)
      (hlookup : s.requests.lookup id = some (request, attempt))
      (hsettled : s.Settled attempt (.rejected (.broker code message))) (hcode : code = 8 ∨ code = 9)
      (hdeadline : now < request.deadline)
      (hresume : s.resume options now id request attempt (.rejected (.broker code message)) socket = some t)
      (hnext : t.requests.lookup id = some (next, later)) : Attempts options id (ns ++ [later.node]) t

/-- What the state keeps of the attempts of a request. -/
structure Tries (id : Nat) (ns : List Nat) (s : State) : Prop where
  waits : ∃ request attempt, s.requests.lookup id = some (request, attempt) ∧ request.tried = ns.reverse ∧ attempt.node ∈ ns
  nodup : ns.Nodup
  nodes : ∀ n ∈ ns, n < s.nodes.length

/-- What a round that goes on adds to them. -/
theorem proceed_tries {id : Nat} {request : Request} {socket : Client.Socket} {ns : List Nat} {next : Request}
    {later : Attempt} (hproceed : s.proceed options now id request socket = some t) (htried : request.tried = ns.reverse)
    (hnodup : ns.Nodup) (hnodes : ∀ n ∈ ns, n < s.nodes.length)
    (hlookup : t.requests.lookup id = some (next, later)) : t.Tries id (ns ++ [later.node]) := by
  rcases proceed_cases hproceed with ⟨-, rfl⟩ | ⟨n, hturn, ⟨-, hwheel⟩ | ⟨c, promise, hwheel⟩⟩
  · rw [State.leave, AList.lookup_erase] at hlookup
    cases hlookup
  · rw [(wheel_eq.mp hwheel).2.2, AList.lookup_erase] at hlookup
    cases hlookup
  · obtain ⟨-, hlength, hrequests⟩ := wheel_eq.mp hwheel
    rw [hrequests, AList.lookup_insert] at hlookup
    obtain ⟨rfl, rfl⟩ := Prod.mk.inj (Option.some.inj hlookup)
    have hlt := turnOf_lt hturn
    unfold turnOf at hturn
    split_ifs at hturn
    have hfresh := (choose_some hturn).1
    rw [htried, List.mem_reverse] at hfresh
    refine ⟨⟨{ request with tried := n :: request.tried }, ⟨n, c, promise⟩, ?_, ?_,
      List.mem_append_right ns (List.mem_singleton.mpr rfl)⟩, ?_, ?_⟩
    · rw [hrequests, AList.lookup_insert]
    · rw [htried, List.reverse_append]
      rfl
    · exact List.Nodup.append hnodup (List.nodup_singleton n) (List.disjoint_singleton.mpr hfresh)
    · intro m hm
      rw [hlength]
      rcases List.mem_append.mp hm with hm | hm
      · exact hnodes m hm
      · rw [List.mem_singleton.mp hm]
        exact hlt

theorem Attempts.tries {id : Nat} {ns : List Nat} (h : Attempts options id ns s) :
    (machine options).Reachable s ∧ s.Tries id ns := by
  induction h with
  | @asked s t now route payload requestOptions socket request attempt hreachable hid hstep hlookup =>
      refine ⟨hreachable.step (l := (now, Op.request route payload requestOptions socket)) hstep, ?_⟩
      have hsent := hstep.2
      unfold State.request at hsent
      split at hsent
      · rename_i reason _
        have hfresh : s.requests.lookup id = none := by
          apply AList.lookup_eq_none.mpr
          intro hmem
          have hknown := (books hreachable).calls.mem_iff.mp (List.mem_append_left _ (AList.mem_keys.mp hmem))
          exact absurd (List.mem_range.mp hknown) (by omega)
        rw [← Option.some.inj hsent, hfresh] at hlookup
        cases hlookup
      · rw [hid] at hsent
        have hnone : ∀ n ∈ ([] : List Nat), n < s.nodes.length := nofun
        exact proceed_tries hsent rfl List.nodup_nil hnone hlookup
  | @other s t now op ns h hstep hop ih =>
      obtain ⟨hreachable, ⟨request, attempt, hlookup, htried, hmem⟩, hnodup, hnodes⟩ := ih
      refine ⟨hreachable.step (l := (now, op)) hstep, ⟨request, attempt, ?_, htried, hmem⟩, hnodup, ?_⟩
      · rw [hstep.lookup hop _]
        · exact hlookup
        · have hmem : id ∈ s.requests.keys := AList.mem_keys.mp (AList.lookup_isSome.mp (by rw [hlookup]; rfl))
          have hknown := (books hreachable).calls.mem_iff.mp (List.mem_append_left _ hmem)
          exact (List.mem_range.mp hknown).ne
      · rw [hstep.cursor_lt.1]
        exact hnodes
  | @refused s t now socket code message request next attempt later ns h hlookup hsettled hcode hdeadline hresume hnext ih =>
      obtain ⟨hreachable, ⟨request', attempt', hlookup', htried, hmem⟩, hnodup, hnodes⟩ := ih
      obtain ⟨rfl, rfl⟩ := Prod.mk.inj (Option.some.inj (hlookup'.symm.trans hlookup))
      refine ⟨hreachable.step (l := (now, Op.answered id socket)) ⟨_, _, _, hlookup, hsettled, hresume⟩, ?_⟩
      rcases resume_cases hresume with ⟨reason, -, -, hproceed⟩ | hwheel
      · apply proceed_tries hproceed htried hnodup _ hnext
        rw [(wheel_eq.mp (release_wheel attempt'.node s)).2.1]
        exact hnodes
      · rw [(wheel_eq.mp hwheel).2.2, AList.lookup_erase] at hnext
        cases hnext

/-- A node gives a place back; the others, and who is connected, stay. -/
theorem release_eligible {n m : Nat} (hne : n ≠ m) (hconnected : s.connected n = true) (hroom : s.pendingOf n < 32) :
    (s.release m).connected n = true ∧ (s.release m).pendingOf n < 32 := by
  constructor
  · rw [← hconnected]
    apply connected_of_place
    · rfl
    · exact place_recount m (fun node => node.pending - 1) s n
  · unfold pendingOf State.release
    rw [getElem?_modifyNode]
    simp only [if_neg hne.symm]
    unfold pendingOf at hroom
    cases hnode : s.nodes[n]? with
    | none => exact (by decide : (0 : Int) < 32)
    | some node =>
        rw [hnode] at hroom
        exact hroom

/-- A round that leaves in time finds every eligible node tried. -/
theorem proceed_exhausted {id : Nat} {request : Request} {socket : Client.Socket}
    (hproceed : s.proceed options now id request socket = some t) (hdeadline : now < request.deadline)
    (hleft : t.requests.lookup id = none) (hnodup : request.tried.Nodup) (hnodes : ∀ n ∈ request.tried, n < s.nodes.length) :
    t = s.leave id (.rejected (s.exhausted request)) ∧
      ∀ n, s.connected n = true → s.pendingOf n < 32 → n ∈ request.tried := by
  rcases proceed_cases hproceed with ⟨hnone, rfl⟩ | ⟨n, -, ⟨hlate, -⟩ | ⟨c, promise, hwheel⟩⟩
  · refine ⟨rfl, fun n hconnected hroom => ?_⟩
    unfold turnOf at hnone
    split_ifs at hnone with hmore
    · by_contra hfresh
      exact (choose_eq_none _ s).mp hnone n ⟨hfresh, hconnected, hroom⟩
    · have hall : request.tried ⊆ List.range s.nodes.length := fun m hm => List.mem_range.mpr (hnodes m hm)
      have hperm := (List.subperm_of_subset hnodup hall).perm_of_length_le (by rw [List.length_range]; exact not_lt.mp hmore)
      exact hperm.mem_iff.mpr (List.mem_range.mpr (connected_lt hconnected))
  · exact absurd hdeadline (not_lt.mpr hlate)
  · rw [(wheel_eq.mp hwheel).2.2, AList.lookup_insert] at hleft
    cases hleft

/-- **A request that is refused everywhere has come once to each node.** -/
theorem Attempts.exhausted {id : Nat} {ns : List Nat} (h : Attempts options id ns s) {socket : Client.Socket} {code : Nat}
    {message : String} {request : Request} {attempt : Attempt} (hlookup : s.requests.lookup id = some (request, attempt))
    (hdeadline : now < request.deadline)
    (hresume : s.resume options now id request attempt (.rejected (.broker code message)) socket = some t)
    (hcode : code = 8 ∨ code = 9) (hleft : t.requests.lookup id = none) :
    (∀ n, s.connected n = true → s.pendingOf n < 32 → ns.count n = 1) ∧
      t.answers = s.answers ++ [(id, .rejected (.failure (.broker code message)))] := by
  obtain ⟨-, ⟨request', attempt', hlookup', htried, hmem⟩, hnodup, hnodes⟩ := h.tries
  obtain ⟨rfl, rfl⟩ := Prod.mk.inj (Option.some.inj (hlookup'.symm.trans hlookup))
  have hproceed : (s.release attempt'.node).proceed options now id
      { request' with lastError := some (.broker code message) } socket = some t := by
    unfold State.resume at hresume
    dsimp only at hresume
    rw [if_neg (by omega)] at hresume
    exact hresume
  obtain ⟨rfl, hall⟩ := proceed_exhausted hproceed hdeadline hleft (by rw [htried, List.nodup_reverse]; exact hnodup)
    (by
      rw [(wheel_eq.mp (release_wheel attempt'.node s)).2.1, htried]
      intro n hn
      exact hnodes n (List.mem_reverse.mp hn))
  refine ⟨fun n hconnected hroom => ?_, rfl⟩
  apply List.count_eq_one_of_mem hnodup
  by_cases hlast : n = attempt'.node
  · rw [hlast]
    exact hmem
  · obtain ⟨hconnected, hroom⟩ := release_eligible hlast hconnected hroom
    have htaken := hall n hconnected hroom
    rw [htried, List.mem_reverse] at htaken
    exact htaken

theorem admission_timeout {route payload : Value} {requestOptions : Client.RequestOptions} {snapshot : Bytes} {timeoutMs : Nat}
    (h : s.admission options route payload requestOptions = .ok (snapshot, timeoutMs)) : 1 ≤ timeoutMs := by
  have hlift : ∀ {value : Except Failure Nat} {n : Nat}, value.mapError Rejection.failure = .ok n → value = .ok n := by
    intro value n hvalue
    cases value with
    | error reason => cases hvalue
    | ok m => rw [Except.ok.inj hvalue]
  unfold State.admission at h
  simp only [Codec.bind_eq_ok, Codec.check_eq_ok] at h
  obtain ⟨-, -, -, h⟩ := h
  cases payload with
  | text value =>
      simp only [Codec.bind_eq_ok, Codec.check_eq_ok] at h
      obtain ⟨bytes, -, -, timeout, htimeout, -, heq⟩ := h
      rw [← (Prod.mk.inj (Except.ok.inj heq)).2]
      exact (Client.integer_ok (hlift htimeout)).2.1
  | bytes value =>
      simp only [Codec.bind_eq_ok, Codec.check_eq_ok] at h
      obtain ⟨bytes, -, -, timeout, htimeout, -, heq⟩ := h
      rw [← (Prod.mk.inj (Except.ok.inj heq)).2]
      exact (Client.integer_ok (hlift htimeout)).2.1
  | _ => cases h

/-- **A request that comes to no node finds none eligible.** -/
theorem request_exhausted {route payload : Value} {requestOptions : Client.RequestOptions} {socket : Client.Socket}
    {snapshot : Bytes} {timeoutMs : Nat} (hadmission : s.admission options route payload requestOptions = .ok (snapshot, timeoutMs))
    (hrequest : s.request options now route payload requestOptions socket = some t)
    (hleft : t.requests.lookup s.called = none) (n : Nat) : ¬(s.connected n = true ∧ s.pendingOf n < 32) := by
  rintro ⟨hconnected, hroom⟩
  unfold State.request at hrequest
  rw [hadmission] at hrequest
  have htimeout : (0 : ℚ) < timeoutMs := by exact_mod_cast admission_timeout hadmission
  obtain ⟨-, hall⟩ := proceed_exhausted hrequest (lt_add_of_pos_right now htimeout) hleft List.nodup_nil nofun
  exact absurd (hall n hconnected hroom) List.not_mem_nil

theorem start_wheel (options : Options) (ns : List Nat) :
    (ns.foldl (fun s n => s.connectNode options n) (new options)).wheel = (0, options.brokers.length, ∅) := by
  rw [foldl_wheel (fun s n => connectNode_wheel n s)]
  unfold wheel new
  rw [List.length_map]

end State

/-- The cursor is a node, of as many as there are brokers. -/
theorem cursor_lt {options : Options} {s : State} (h : (machine options).Reachable s) :
    s.nodes.length = options.brokers.length ∧ (options.brokers ≠ [] → s.cursor < s.nodes.length) := by
  apply h.invariant
  · intro s hs
    obtain ⟨hcursor, hlength, -⟩ := State.wheel_eq.mp (State.start_wheel options (List.range options.brokers.length))
    rw [show s = _ from hs]
    refine ⟨hlength, fun hsome => ?_⟩
    rw [hcursor, hlength]
    exact List.length_pos_iff.mpr hsome
  · intro s event t _ hs hstep
    obtain ⟨hlength, hlt⟩ := State.Step.cursor_lt hstep
    exact ⟨hlength.trans hs.1, fun hsome => hlt (hs.2 hsome)⟩

/-- **Selection is least pending, and rotates.** A call of `choose` returns nothing when no untried connected node has
fewer than 32 attempts, and otherwise the first in cyclic order of the eligible nodes with the fewest. The cursor is an
index. In a run whose calls find all nodes eligible, even and untried, as many calls as there are nodes return
different ones; and a request that is refused by code 8 or 9 in time has come exactly once to each node that is
still eligible when it is rejected. -/
theorem choose_balances (options : Options) :
    (∀ (s : State) (tried : List Nat), (s.choose tried = none ↔ ∀ n, ¬s.Eligible tried n) ∧
      ∀ n, s.choose tried = some n → s.Preferred tried n) ∧
    (∀ s, (machine options).Reachable s → s.nodes.length = options.brokers.length ∧
      (options.brokers ≠ [] → s.cursor < s.nodes.length)) ∧
    (∀ (s : State) (ns : List Nat) (t : State), State.Rotates options s ns t → ns.length ≤ s.nodes.length → ns.Nodup) ∧
    (∀ (s t : State) (now : ℚ) (route payload : Value) (requestOptions : Client.RequestOptions) (socket : Client.Socket)
      (snapshot : Bytes) (timeoutMs : Nat),
      s.admission options route payload requestOptions = .ok (snapshot, timeoutMs) →
      s.Step options now (.request route payload requestOptions socket) t → t.requests.lookup s.called = none →
      ∀ n, ¬(s.connected n = true ∧ s.pendingOf n < 32)) ∧
    ∀ (id : Nat) (ns : List Nat) (s t : State) (now : ℚ) (socket : Client.Socket) (code : Nat) (message : String)
      (request : Request) (attempt : Attempt), State.Attempts options id ns s →
      s.requests.lookup id = some (request, attempt) → s.Settled attempt (.rejected (.broker code message)) →
      code = 8 ∨ code = 9 → now < request.deadline →
      s.resume options now id request attempt (.rejected (.broker code message)) socket = some t →
      t.requests.lookup id = none →
      (∀ n, s.connected n = true → s.pendingOf n < 32 → ns.count n = 1) ∧
        t.answers = s.answers ++ [(id, .rejected (.failure (.broker code message)))] := by
  refine ⟨fun s tried => ⟨State.choose_eq_none tried s, fun n => State.choose_preferred⟩, fun s h => cursor_lt h,
    fun s ns t h => h.nodup, ?_, ?_⟩
  · intro s t now route payload requestOptions socket snapshot timeoutMs hadmission hstep hleft
    exact State.request_exhausted hadmission hstep.2 hleft
  · intro id ns s t now socket code message request attempt h hlookup _ hcode hdeadline hresume hleft
    exact h.exhausted hlookup hdeadline hresume hcode hleft

/-! ### A cluster client with two brokers -/

namespace Pair

open Sample (endpoint accepts atNode checked opened opens connectNode_dials)

def second : Endpoint := ⟨Text.ofString "b", .text (Text.ofString "broker"), .number 7448, .text []⟩

def options : Options := { Sample.options with brokers := [endpoint, second] }

/-- The node of the second broker. -/
def atSecond (client : Option Nat) (connecting : Option Connecting) : NodeState :=
  { atNode client connecting with endpoint := second }

/-- Both nodes dial. -/
def dialling : State := { State.new options with
  nodes := [atNode none (some ⟨0, .dialling 0⟩), atSecond none (some ⟨1, .dialling 1⟩)]
  connections := [⟨0, .new (checked 7447)⟩, ⟨1, .new (checked 7448)⟩]
  attempts := 2 }

theorem dialling_start : (machine options).start dialling := by
  have hsettings : Client.settings (State.connectOptions options endpoint) = .ok (checked 7447) ∧
      Client.settings (State.connectOptions options second) = .ok (checked 7448) := by
    decide +kernel
  change dialling = ((State.new options).connectNode options 0).connectNode options 1
  rw [connectNode_dials (s := .new options) (n := 0) rfl (by decide) hsettings.1]
  symm
  apply connectNode_dials
  · exact show _ = some (atSecond none none) from rfl
  · decide
  · exact hsettings.2

/-- Both are connected, and the cluster client is in use. -/
def ready : State := { dialling with
  nodes := [atNode (some 0) none, atSecond (some 1) none]
  connections := [⟨0, opened 7447⟩, ⟨1, opened 7448⟩]
  phase := .ready
  timer := true }

theorem ready_reachable : (machine options).Reachable ready := by
  have h := opens (c := 0) (n := 0) (.refl options dialling) 0 List.mem_cons_self rfl
  have h := opens (c := 1) (n := 1) h 0 (List.mem_cons_of_mem _ List.mem_cons_self) rfl
  have h := h.step 0 (.connected 0 0) ⟨le_rfl, by decide, _, _, _, rfl, rfl, _, rfl, Or.inl ⟨rfl, rfl⟩⟩
  have h := h.step 0 (.connectEnd 0) ⟨_, _, rfl, rfl, rfl⟩
  have h := h.step 0 (.connected 1 0) ⟨le_rfl, by decide, _, _, _, rfl, rfl, _, rfl, Or.inl ⟨rfl, rfl⟩⟩
  have h := h.step 0 (.connectEnd 1) ⟨_, _, rfl, rfl, rfl⟩
  obtain ⟨events, hrun⟩ := h.step 0 .opened (u := ready) ⟨rfl, rfl, by rw [if_pos (by decide)]; rfl⟩
  exact ⟨_, events, dialling_start, hrun⟩

def route : Value := .text (Text.ofString "route")

/-- The state after the next request is asked. -/
def ask (s : State) : State :=
  (s.request options 0 route (.text []) ⟨.undefined⟩ accepts).getD s

/-- The state after the client of a node has received a frame. -/
def receive (n : Nat) (frame : Bytes) (s : State) : State :=
  s.update options 0 n ((s.connections[n]?.elim (opened 7447) Connection.state).data frame)

/-- What the request `id` waits for. -/
def waited (id : Nat) (s : State) : Request × Attempt :=
  (s.requests.lookup id).getD (⟨.undefined, .undefined, 0, [], none⟩, ⟨0, 0, .ok 0⟩)

/-- The state after it goes on. -/
def goOn (id : Nat) (outcome : Client.Settlement Reply) (s : State) : State :=
  (s.resume options 0 id (waited id s).1 (waited id s).2 outcome accepts).getD s

theorem getD_of_isSome {α : Type} {value : Option α} (h : value.isSome = true) (default : α) :
    value = some (value.getD default) :=
  (Option.getD_of_ne_none (Option.isSome_iff_ne_none.mp h) default).symm

theorem ask_step {s : State} (hready : s.phase = .ready)
    (h : (s.request options 0 route (.text []) ⟨.undefined⟩ accepts).isSome = true) :
    s.Step options 0 (.request route (.text []) ⟨.undefined⟩ accepts) (ask s) :=
  ⟨hready, getD_of_isSome h s⟩

theorem receive_step {s : State} {n : Nat} {frame : Bytes} (hnode : (s.connections[n]?).map Connection.node = some n)
    (hframe : 5 ≤ frame.length ∧ frame.length ≤ Client.maxFrame) :
    s.Step options 0 (.client n (.data frame)) (receive n frame s) := by
  obtain ⟨⟨_, state⟩, hget, rfl⟩ := Option.map_eq_some_iff.mp hnode
  refine ⟨_, _, hget, trivial, hframe, rfl, ?_⟩
  rw [receive, hget]
  rfl

theorem waited_lookup {id : Nat} {s : State} (h : (s.requests.lookup id).isSome = true) :
    s.requests.lookup id = some ((waited id s).1, (waited id s).2) :=
  getD_of_isSome h _

/-- The broker refuses the request. -/
def refusal (code : Nat) : Bytes := [0xff, 0, 0, 0, 2] ++ errorBody ⟨code, "no"⟩

/-- The first node refuses the request, then the second. -/
def once : State := receive 0 (refusal 8) (ask ready)

def moved : State := goOn 0 (.rejected (.broker 8 "no")) once

def twice : State := receive 1 (refusal 9) moved

def rejected : State := goOn 0 (.rejected (.broker 9 "no")) twice

/-- The settlements of the client that an attempt is on. -/
def settlements (s : State) (attempt : Attempt) : List (Nat × Client.Settlement Reply) :=
  (s.connections[attempt.client]?).elim [] fun connection => connection.state.settled

theorem settled_iff {s : State} {attempt : Attempt} {outcome : Client.Settlement Reply} {promise : Nat}
    (hpromise : attempt.promise = .ok promise) :
    s.Settled attempt outcome ↔ (promise, outcome) ∈ settlements s attempt := by
  unfold State.Settled settlements
  rw [hpromise]
  cases s.connections[attempt.client]? with
  | none => simp
  | some connection => simp

/-- What the two refusals are computed from. -/
theorem computed : (ready.request options 0 route (.text []) ⟨.undefined⟩ accepts).isSome = true ∧
    ((waited 0 (ask ready)).2.node = 0 ∧ ((ask ready).requests.lookup 0).isSome = true ∧
      ((ask ready).connections[0]?).map Connection.node = some 0) ∧
    ((waited 0 once).2.promise = .ok 1 ∧ (1, .rejected (.broker 8 "no")) ∈ settlements once (waited 0 once).2 ∧
      (once.requests.lookup 0).isSome = true ∧ 0 < (waited 0 once).1.deadline ∧
      (once.resume options 0 0 (waited 0 once).1 (waited 0 once).2 (.rejected (.broker 8 "no")) accepts).isSome = true) ∧
    (waited 0 moved).2.node = 1 ∧ (moved.requests.lookup 0).isSome = true ∧
      (moved.connections[1]?).map Connection.node = some 1 := by
  decide +kernel

theorem asked_step : ready.Step options 0 (.request route (.text []) ⟨.undefined⟩ accepts) (ask ready) :=
  ask_step rfl computed.1

theorem once_attempts : State.Attempts options 0 [0] once := by
  obtain ⟨-, ⟨hnode, hlookup, hconnection⟩, -⟩ := computed
  have h := State.Attempts.asked ready_reachable (show ready.called = 0 from rfl) asked_step (waited_lookup hlookup)
  rw [hnode] at h
  exact h.other (receive_step hconnection (by decide)) fun _ => by simp

theorem twice_attempts : State.Attempts options 0 [0, 1] twice := by
  obtain ⟨-, -, ⟨hpromise, hrefused, hlookup, hdeadline, hresume⟩, hnode, hnext, hconnection⟩ := computed
  have hsettled : once.Settled (waited 0 once).2 (.rejected (.broker 8 "no")) := (settled_iff hpromise).mpr hrefused
  have h : State.Attempts options 0 [0, (waited 0 moved).2.node] moved :=
    once_attempts.refused (waited_lookup hlookup) hsettled (Or.inl rfl) hdeadline (getD_of_isSome hresume once)
      (waited_lookup hnext)
  rw [hnode] at h
  exact h.other (receive_step hconnection (by decide)) fun _ => by simp

/-- The first node answers instead, and the next request is asked. -/
def replied : State := receive 0 [135, 0, 0, 0, 2, 0, 0, 0, 0] (ask ready)

def served : State := goOn 0 (.resolved (some [])) replied

/-- What `choose` sees when a request is asked. -/
def counted (s : State) : State := { s with called := s.called + 1, pending := s.pending + 1 }

theorem ask_rounds {s : State} (hadmission : s.admission options route (.text []) ⟨.undefined⟩ =
      .ok ([], 5000))
    (h : (s.request options 0 route (.text []) ⟨.undefined⟩ accepts).isSome = true) :
    s.Rounds options 0 (ask s) (.request route (.text []) ⟨.undefined⟩ accepts)
      ⟨route, .bytes [], 0 + (5000 : Nat), [], none⟩ (counted s) := by
  apply State.Rounds.request hadmission
  have hasked : s.request options 0 route (.text []) ⟨.undefined⟩ accepts = some (ask s) :=
    getD_of_isSome h s
  unfold State.request at hasked
  rw [hadmission] at hasked
  exact hasked

theorem rotates : State.Rotates options ready [0, 1] (ask served) := by
  have heven : (counted ready).Even ∧ (counted served).Even := by
    unfold State.Even
    decide +kernel
  have hlookup : replied.requests.lookup 0 = some ((waited 0 replied).1, (waited 0 replied).2) :=
    waited_lookup (by decide +kernel)
  have hpromise : (waited 0 replied).2.promise = .ok 1 := by decide +kernel
  have hsettlements : settlements replied (waited 0 replied).2 = [(0, .resolved none), (1, .resolved (some []))] := by
    decide +kernel
  apply State.Rotates.chooses asked_step (ask_rounds (by decide +kernel) (by decide +kernel)) rfl heven.1
    (by decide)
  apply State.Rotates.quiet (t := replied) (receive_step (by decide +kernel) (by decide))
  · intro request v hrounds
    cases hrounds
  refine State.Rotates.quiet (show replied.Step options 0 (.answered 0 accepts) served from ?_) ?_ ?_
  · refine ⟨_, _, .resolved (some []), hlookup, ?_, getD_of_isSome (by decide) replied⟩
    rw [settled_iff hpromise, hsettlements]
    decide
  · intro request v hrounds
    cases hrounds with
    | answered hlookup' hsettled hreason hproceed =>
        obtain ⟨-, rfl⟩ := Prod.mk.inj (Option.some.inj (hlookup.symm.trans hlookup'))
        rw [settled_iff hpromise, hsettlements] at hsettled
        simp at hsettled
  · have hrounds := ask_rounds (s := served) (by decide +kernel) (by decide +kernel)
    exact .chooses (ask_step (by decide +kernel) (by decide +kernel)) hrounds rfl heven.2 (by decide +kernel) (.done _)

end Pair

theorem choose_balances_refused :
    (Pair.ready.Preferred [] 0 ∧ (Pair.once.release 0).Preferred [0] 1) ∧ Pair.twice.cursor < Pair.twice.nodes.length ∧
      [0, 1].Nodup ∧ ([0, 1].count 0 = 1 ∧ [0, 1].count 1 = 1) ∧
        Pair.rejected.answers = Pair.twice.answers ++ [(0, .rejected (.failure (.broker 9 "no")))] := by
  obtain ⟨hchoose, hcursor, hrotates, -, hrefused⟩ := choose_balances Pair.options
  have hsettled : Pair.twice.Settled (Pair.waited 0 Pair.twice).2 (.rejected (.broker 9 "no")) :=
    (Pair.settled_iff (by decide +kernel : (Pair.waited 0 Pair.twice).2.promise = .ok 1)).mpr (by decide +kernel)
  obtain ⟨hall, hanswers⟩ := hrefused 0 [0, 1] Pair.twice Pair.rejected 0 Sample.accepts 9 "no" _ _ Pair.twice_attempts
    (Pair.waited_lookup (by decide +kernel)) hsettled (Or.inr rfl) (by decide +kernel)
    (Pair.getD_of_isSome (by decide +kernel) Pair.twice) (by decide +kernel)
  exact ⟨⟨(hchoose _ _).2 0 (by decide), (hchoose _ _).2 1 (by decide +kernel)⟩,
    (hcursor _ Pair.twice_attempts.tries.1).2 (by decide), hrotates _ _ _ Pair.rotates (by decide),
    ⟨hall 0 (by decide +kernel) (by decide +kernel), hall 1 (by decide +kernel) (by decide +kernel)⟩, hanswers⟩

end VeloBus.Cluster
