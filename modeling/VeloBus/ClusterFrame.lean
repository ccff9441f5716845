import VeloBus.ClusterModel

/-! What closing clients and attaching services leaves as it is. -/

namespace VeloBus

namespace Service

/-- A stopped service has closed its connection. -/
def State.Sound (s : State) : Prop := s.stopped = true → s.child.closed = true

/-- The connection only closes, and once closed it writes nothing. -/
def State.Declines (s t : State) : Prop :=
  s.child.closed = true → t.child.closed = true ∧ t.child.written = s.child.written

namespace State

variable {s t : State}

theorem stop_written (cause : Cause) (s : State) : (s.stop cause).child.written = s.child.written := by
  unfold stop
  split_ifs
  · rfl
  · exact Client.State.fail_written _ _

theorem Sound.stop_closed (h : s.Sound) (cause : Cause) : (s.stop cause).child.closed = true := by
  unfold stop
  split_ifs with hstopped
  · exact h hstopped
  · exact Client.State.fail_closed _ _

theorem stop_declines (cause : Cause) (s : State) : s.Declines (s.stop cause) := by
  intro hclosed
  refine ⟨?_, stop_written cause s⟩
  unfold stop
  split_ifs
  · exact hclosed
  · exact Client.State.fail_closed _ _

theorem close_written (s : State) : s.close.child.written = s.child.written := by
  unfold close
  split_ifs
  · exact Client.State.fail_written _ _
  · exact stop_written _ _

theorem Sound.close_closed (h : s.Sound) : s.close.child.closed = true := by
  unfold close
  split_ifs
  · exact Client.State.fail_closed _ _
  · exact h.stop_closed _

/-- A step of the connection, and what `follow` makes of it. -/
theorem follow_kept {child : Client.State (Option Rpc.Job)} (hsound : s.Sound)
    (hclosed : s.child.closed = true → child.closed = true ∧ child.written = s.child.written) :
    (s.follow child).Sound ∧ s.Declines (s.follow child) := by
  have hnext : ({ s with child := child } : State).Sound := fun hstopped => (hclosed (hsound hstopped)).1
  unfold follow
  dsimp only
  split_ifs
  · refine ⟨fun _ => hnext.stop_closed _, fun hshut => ⟨hnext.stop_closed _, ?_⟩⟩
    rw [stop_written]
    exact (hclosed hshut).2
  · exact ⟨hnext, hclosed⟩

theorem Calls.shut {op : Client.Op (Option Rpc.Job)} {child : Client.State (Option Rpc.Job)} (h : s.Calls op child)
    (hclosed : s.child.closed = true) : child.closed = true ∧ child.written = s.child.written :=
  Client.State.next_shut hclosed h.2

/-- Every step of a service keeps it sound and lets its connection only close. -/
theorem step_kept {setup : Setup} {op : Op} (hsound : s.Sound) (hstep : s.Step setup op t) :
    t.Sound ∧ s.Declines t := by
  have hsame : ∀ u : State, u.stopped = s.stopped → u.child = s.child → u.Sound ∧ s.Declines u := by
    intro u hstopped hchild
    refine ⟨fun h => ?_, fun h => ?_⟩
    · rw [hchild]
      exact hsound (hstopped ▸ h)
    · rw [hchild]
      exact ⟨h, rfl⟩
  have hstop : ∀ cause (u : State), u.child = (s.stop cause).child → u.Sound ∧ s.Declines u := by
    intro cause u hchild
    refine ⟨fun _ => ?_, fun h => ?_⟩
    · rw [hchild]
      exact hsound.stop_closed cause
    · rw [hchild]
      exact stop_declines cause s h
  cases op with
  | child op =>
      obtain ⟨-, child, hcalls, rfl⟩ := hstep
      exact follow_kept hsound hcalls.shut
  | announce socket =>
      obtain ⟨-, registration, child, -, hcalls, rfl⟩ := hstep
      exact ⟨fun hstopped => (hcalls.shut (hsound hstopped)).1, hcalls.shut⟩
  | serve =>
      obtain ⟨promise, value, concurrency, -, -, -, -, rfl⟩ := hstep
      exact hsame _ rfl rfl
  | abandon =>
      obtain ⟨-, rfl⟩ := hstep
      exact hstop .closed _ rfl
  | close =>
      rw [show t = s.close from hstep]
      refine ⟨fun _ => hsound.close_closed, fun _ => ⟨hsound.close_closed, close_written s⟩⟩
  | onFailure slot =>
      obtain ⟨cause, -, rfl⟩ := hstep
      exact hstop cause _ rfl
  | take slot socket =>
      obtain ⟨-, htaken⟩ := hstep
      split_ifs at htaken with hstopped
      · rw [htaken]
        exact hsame _ rfl rfl
      · obtain ⟨child, hcalls, rfl⟩ := htaken
        exact follow_kept hsound hcalls.shut
  | taken slot =>
      obtain ⟨promise, outcome, -, -, rfl⟩ := hstep
      exact hsame _ rfl rfl
  | settle slot outcome socket =>
      obtain ⟨job, -, ⟨next, rfl⟩ | ⟨status, output, child, hcalls, rfl⟩⟩ := settle_cases hstep
      · exact hsame _ rfl rfl
      · exact follow_kept hsound hcalls.shut
  | completed slot =>
      obtain ⟨promise, outcome, -, -, rfl⟩ := hstep
      exact hsame _ rfl rfl

end State

end Service

namespace Cluster

open Codec
open Client (Failure Value)

/-- How far the cluster client is from `connect` to `close`. -/
structure Control where
  phase : Phase
  timer : Bool
  stopped : Bool
  closing : Option Closing

/-- The requests and pings on their way, the counters beside them, and the calls. -/
structure Accounts where
  pending : Int
  requests : Table Nat (Request × Attempt)
  pings : Table Nat Attempt
  called : Nat
  answers : List (Nat × Answer)

def State.control (s : State) : Control := ⟨s.phase, s.timer, s.stopped, s.closing⟩

def State.accounts (s : State) : Accounts := ⟨s.pending, s.requests, s.pings, s.called, s.answers⟩

def NodeState.shape (node : NodeState) : Endpoint × Option Connecting × Int :=
  (node.endpoint, node.connecting, node.pending)

def Connection.close (connection : Connection) : Connection :=
  { connection with state := connection.state.fail (.connectionClosed Client.closedMessage) }

theorem Connection.close_close (connection : Connection) : connection.close.close = connection.close := by
  unfold Connection.close
  dsimp only
  rw [Client.State.fail_fail]

namespace State

def clientOf (s : State) (n : Nat) : Option Nat := (s.nodes[n]?).bind NodeState.client

/-- What the clients and the services on them have written. -/
def written (s : State) : List (List Bytes) × List (List Bytes) :=
  (s.connections.map fun connection => connection.state.written,
    s.handles.map fun handle => handle.state.child.written)

/-- The services are sound, and one with an open connection is on an open client. -/
def Children (s : State) : Prop :=
  ∀ handle ∈ s.handles, handle.state.Sound ∧ (handle.state.child.closed = false → s.isOpen handle.parent = true)

/-- What closing clients and attaching services leaves: clients are only closed, and a node only loses a client
that is. -/
structure Steady (s t : State) : Prop where
  control : t.control = s.control
  accounts : t.accounts = s.accounts
  connections : ∀ c : Nat, t.connections[c]? = s.connections[c]? ∨
    t.connections[c]? = (s.connections[c]?).map Connection.close
  nodes : ∀ n : Nat, (t.nodes[n]?).map NodeState.shape = (s.nodes[n]?).map NodeState.shape
  clients : ∀ n, t.clientOf n = s.clientOf n ∨
    (t.clientOf n = none ∧ ∀ c, s.clientOf n = some c → t.isOpen c = false)
  children : s.Children → t.Children
  written : s.Children → (∀ c, s.isOpen c = false) → t.written = s.written

variable {s t u : State}

theorem isOpen_iff {c : Nat} :
    s.isOpen c = true ↔ ∃ connection, s.connections[c]? = some connection ∧ connection.state.closed = false := by
  unfold isOpen
  cases s.connections[c]? with
  | none => simp
  | some connection => simp

theorem isOpen_of_some {c : Nat} {connection : Connection} (h : s.connections[c]? = some connection) :
    s.isOpen c = !connection.state.closed := by
  rw [isOpen, h]

theorem isOpen_congr (h : t.connections = s.connections) (c : Nat) : t.isOpen c = s.isOpen c := by
  rw [isOpen, isOpen, h]

theorem connected_iff {n : Nat} : s.connected n = true ↔ ∃ c, s.clientOf n = some c ∧ s.isOpen c = true := by
  unfold connected clientOf
  cases s.nodes[n]? with
  | none => simp
  | some node =>
      cases hclient : node.client with
      | none => simp [hclient]
      | some c => simp [hclient]

theorem isOpen_of_connected {n c : Nat} (h : s.connected n = false) (hclient : s.clientOf n = some c) :
    s.isOpen c = false := by
  by_contra hopen
  rw [connected_iff.mpr ⟨c, hclient, Bool.eq_true_of_not_eq_false hopen⟩] at h
  cases h

theorem Steady.refl (s : State) : s.Steady s where
  control := rfl
  accounts := rfl
  connections _ := Or.inl rfl
  nodes _ := rfl
  clients _ := Or.inl rfl
  children := id
  written _ _ := rfl

/-- No client is opened again. -/
theorem Steady.isOpen (h : s.Steady t) {c : Nat} (hclosed : s.isOpen c = false) : t.isOpen c = false := by
  unfold State.isOpen at hclosed ⊢
  rcases h.connections c with heq | heq
  · rw [heq]
    exact hclosed
  · rw [heq]
    cases s.connections[c]? with
    | none => rfl
    | some connection =>
        have hclosed := Client.State.fail_closed (.connectionClosed Client.closedMessage) connection.state
        simp [Connection.close, hclosed]

theorem Steady.trans (h : s.Steady t) (h' : t.Steady u) : s.Steady u where
  control := h'.control.trans h.control
  accounts := h'.accounts.trans h.accounts
  connections c := by
    rcases h'.connections c with heq' | heq' <;> rcases h.connections c with heq | heq
    · exact Or.inl (heq'.trans heq)
    · exact Or.inr (heq'.trans heq)
    · exact Or.inr (by rw [heq', heq])
    · right
      rw [heq', heq, Option.map_map]
      congr 1
      funext connection
      exact Connection.close_close connection
  nodes n := (h'.nodes n).trans (h.nodes n)
  clients n := by
    rcases h'.clients n with heq' | ⟨hnone', hclosed'⟩
    · rw [heq']
      rcases h.clients n with heq | ⟨hnone, hclosed⟩
      · exact Or.inl heq
      · exact Or.inr ⟨hnone, fun c hc => h'.isOpen (hclosed c hc)⟩
    · right
      refine ⟨hnone', fun c hc => ?_⟩
      rcases h.clients n with heq | ⟨-, hclosed⟩
      · exact hclosed' c (heq.trans hc)
      · exact h'.isOpen (hclosed c hc)
  children := h'.children ∘ h.children
  written hchildren hshut :=
    (h'.written (h.children hchildren) fun c => h.isOpen (hshut c)).trans (h.written hchildren hshut)

theorem Steady.foldl {α : Type} {f : State → α → State} (hf : ∀ (s : State) (a : α), s.Steady (f s a)) (as : List α) (s : State) :
    s.Steady (as.foldl f s) := by
  induction as generalizing s with
  | nil => exact .refl s
  | cons a as ih => exact (hf s a).trans (ih (f s a))

/-- A step that leaves clients, nodes and handles alone. -/
theorem Steady.of_same (hcontrol : t.control = s.control) (haccounts : t.accounts = s.accounts) (hconnections : t.connections = s.connections)
    (hnodes : t.nodes = s.nodes) (hhandles : t.handles = s.handles) : s.Steady t where
  control := hcontrol
  accounts := haccounts
  connections c := Or.inl (by rw [hconnections])
  nodes n := by rw [hnodes]
  clients n := Or.inl (by rw [clientOf, clientOf, hnodes])
  children hchildren handle hmem := by
    rw [hhandles] at hmem
    rw [isOpen_congr hconnections]
    exact hchildren handle hmem
  written _ _ := by rw [State.written, State.written, hconnections, hhandles]

/-! ### Closing -/

theorem map_modify {α β : Type} {f : α → α} {g : α → β} (h : ∀ a, g (f a) = g a) (i : Nat) (as : List α) :
    (as.modify i f).map g = as.map g := by
  apply List.ext_getElem?
  intro j
  rw [List.getElem?_map, List.getElem?_map, List.getElem?_modify]
  cases as[j]? with
  | none => rfl
  | some a =>
      by_cases hij : i = j
      · simp [hij, h]
      · simp [hij]

theorem mem_modify {α : Type} {f : α → α} {i : Nat} {as : List α} {b : α} (h : b ∈ as.modify i f) :
    ∃ a ∈ as, b = a ∨ b = f a := by
  obtain ⟨j, hj⟩ := List.mem_iff_getElem?.mp h
  rw [List.getElem?_modify] at hj
  obtain ⟨a, ha, rfl⟩ := Option.map_eq_some_iff.mp hj
  refine ⟨a, List.mem_of_getElem? ha, ?_⟩
  split_ifs
  · exact Or.inr rfl
  · exact Or.inl rfl

theorem closeHandle_steady (h : Nat) (s : State) : s.Steady (s.closeHandle h) where
  control := rfl
  accounts := rfl
  connections _ := Or.inl rfl
  nodes _ := rfl
  clients _ := Or.inl rfl
  children hchildren handle hmem := by
    obtain ⟨old, hold, rfl | rfl⟩ := mem_modify hmem
    · exact hchildren _ hold
    · obtain ⟨hsound, hopen⟩ := hchildren old hold
      have hclosed : old.state.close.child.closed = true := hsound.close_closed
      refine ⟨fun _ => hclosed, fun hchild => ?_⟩
      exact absurd (hclosed.symm.trans hchild) Bool.false_ne_true.symm
  written _ _ := Prod.ext rfl (map_modify (fun handle => Service.State.close_written handle.state) h s.handles)

theorem getElem?_setConnection (c d : Nat) (state : Client.State Reply) (s : State) :
    (s.setConnection c state).connections[d]? =
      (s.connections[d]?).map fun connection => if c = d then { connection with state := state } else connection := by
  exact List.getElem?_modify _ c s.connections d

theorem isOpen_setConnection_ne {c d : Nat} (h : c ≠ d) (state : Client.State Reply) (s : State) :
    (s.setConnection c state).isOpen d = s.isOpen d := by
  unfold isOpen
  rw [getElem?_setConnection]
  cases s.connections[d]? with
  | none => rfl
  | some connection => simp [h]

theorem isOpen_setConnection {c : Nat} {connection : Connection} (h : s.connections[c]? = some connection)
    (state : Client.State Reply) : (s.setConnection c state).isOpen c = !state.closed := by
  unfold isOpen
  rw [getElem?_setConnection, h]
  simp

/-- A client that closes takes its services with it. -/
theorem Children.closeChildren (hchildren : s.Children) {c : Nat} (state : Client.State Reply) :
    ((s.setConnection c state).closeChildren c).Children := by
  intro handle hmem
  obtain ⟨old, hold, rfl⟩ := List.mem_map.mp hmem
  obtain ⟨hsound, hopen⟩ := hchildren old hold
  split_ifs with hparent
  · have hclosed : old.state.close.child.closed = true := hsound.close_closed
    refine ⟨fun _ => hclosed, fun hchild => ?_⟩
    exact absurd (hclosed.symm.trans hchild) Bool.false_ne_true.symm
  · refine ⟨hsound, fun hchild => ?_⟩
    have hsame := isOpen_setConnection_ne (Ne.symm hparent) state s
    exact hsame.trans (hopen hchild)

theorem closeChildren_written (c : Nat) (s : State) : (s.closeChildren c).written = s.written := by
  refine Prod.ext rfl ?_
  change (s.handles.map _).map _ = s.handles.map _
  rw [List.map_map]
  apply List.map_congr_left
  intro handle _
  by_cases hparent : handle.parent = c
  · simp [hparent, Service.State.close_written]
  · simp [hparent]

theorem closeClient_steady (c : Nat) (s : State) : s.Steady (s.closeClient c) := by
  unfold closeClient
  cases hconnection : s.connections[c]? with
  | none => exact .refl s
  | some connection =>
      dsimp only
      split_ifs with hclosed
      · exact .refl s
      · refine ⟨rfl, rfl, fun d => ?_, fun _ => rfl, fun _ => Or.inl rfl, fun h => h.closeChildren _, fun _ hshut => ?_⟩
        · have hget := getElem?_setConnection c d
            (connection.state.fail (.connectionClosed Client.closedMessage)) s
          by_cases hcd : c = d
          · right
            subst hcd
            apply hget.trans
            rw [hconnection]
            simp [Connection.close]
          · left
            apply hget.trans
            simp [hcd]
        · have hopen := isOpen_iff.mpr ⟨connection, hconnection, Bool.eq_false_of_not_eq_true hclosed⟩
          rw [hshut c] at hopen
          cases hopen

theorem closeClient_closed (c : Nat) (s : State) : (s.closeClient c).isOpen c = false := by
  unfold closeClient
  cases hconnection : s.connections[c]? with
  | none =>
      dsimp only
      rw [isOpen, hconnection]
  | some connection =>
      dsimp only
      split_ifs with hclosed
      · rw [isOpen_of_some hconnection, hclosed]
        rfl
      · have hopen := isOpen_setConnection hconnection
          (connection.state.fail (.connectionClosed Client.closedMessage))
        rw [Client.State.fail_closed] at hopen
        exact hopen

theorem detach_steady (n v : Nat) (s : State) : s.Steady (s.detach n v) := by
  unfold detach
  cases s.registrations[v]? with
  | none => exact .refl s
  | some service =>
      dsimp only
      have hmodified := Steady.of_same (s := s) (t := s.modifyService v fun service =>
        { service with epochs := service.epochs.erase n, handles := service.handles.erase n }) rfl rfl rfl rfl rfl
      cases service.handles.lookup n with
      | none => exact hmodified
      | some h => exact hmodified.trans (closeHandle_steady h _)

theorem detachAll_steady (n : Nat) (s : State) : s.Steady (s.detachAll n) :=
  Steady.foldl (fun s v => detach_steady n v s) _ s

/-- A change of one node that keeps its shape. -/
theorem nodes_modify {n : Nat} {f : NodeState → NodeState} (hf : ∀ node, (f node).shape = node.shape) (s : State)
    (m : Nat) : ((s.modifyNode n f).nodes[m]?).map NodeState.shape = (s.nodes[m]?).map NodeState.shape := by
  rw [← List.getElem?_map, ← List.getElem?_map]
  exact congrArg (·[m]?) (map_modify hf n s.nodes)

theorem getElem?_modifyNode (n m : Nat) (f : NodeState → NodeState) (s : State) :
    (s.modifyNode n f).nodes[m]? = (s.nodes[m]?).map fun node => if n = m then f node else node :=
  List.getElem?_modify f n s.nodes m

theorem clientOf_modify_ne {n m : Nat} (h : n ≠ m) (f : NodeState → NodeState) (s : State) :
    (s.modifyNode n f).clientOf m = s.clientOf m := by
  rw [clientOf, clientOf, getElem?_modifyNode]
  simp [h]

theorem retire_steady (options : Options) (now : ℚ) (n c : Nat) (error : Failure) (s : State) :
    s.Steady (s.retire options now n c error) := by
  unfold retire
  cases hnode : s.nodes[n]? with
  | none => exact .refl s
  | some node =>
      dsimp only
      split_ifs with hclient
      · exact .refl s
      · rw [not_not] at hclient
        generalize hdropped : s.modifyNode n _ = dropped
        have hsteady : dropped.Steady ((dropped.detachAll n).closeClient c) :=
          (detachAll_steady n dropped).trans (closeClient_steady c _)
        have hnone : dropped.clientOf n = none := by
          rw [← hdropped, clientOf, getElem?_modifyNode, hnode]
          simp
        refine ⟨?_, ?_, ?_, ?_, fun m => ?_, fun hchildren => ?_, ?_⟩
        · rw [hsteady.control, ← hdropped]
          rfl
        · rw [hsteady.accounts, ← hdropped]
          rfl
        · rw [← hdropped] at hsteady ⊢
          exact hsteady.connections
        · intro m
          rw [hsteady.nodes m, ← hdropped]
          apply nodes_modify
          intro node
          rfl
        · by_cases hnm : n = m
          · subst hnm
            right
            refine ⟨?_, fun d hd => ?_⟩
            · rcases hsteady.clients n with heq | ⟨heq, -⟩
              · exact heq.trans hnone
              · exact heq
            · rw [clientOf, hnode, Option.bind_some, hclient] at hd
              rw [← Option.some.inj hd]
              exact closeClient_closed c _
          · have hsame : dropped.clientOf m = s.clientOf m := by
              rw [← hdropped]
              exact clientOf_modify_ne hnm _ s
            rw [← hsame]
            exact hsteady.clients m
        · apply hsteady.children
          rw [← hdropped]
          exact hchildren
        · rw [← hdropped] at hsteady ⊢
          exact hsteady.written

theorem notify_steady (options : Options) (now : ℚ) (c : Nat) (s : State) : s.Steady (s.notify options now c) := by
  unfold notify
  cases s.connections[c]? with
  | none => exact .refl s
  | some connection =>
      dsimp only
      cases s.nodes[connection.node]? with
      | none => exact .refl s
      | some node =>
          dsimp only
          split_ifs
          · exact retire_steady _ _ _ _ _ s
          · exact .refl s

/-- A client has moved on, and its services have been closed when it failed. -/
structure Absorbs (s : State) (c : Nat) (connection : Connection) (state : Client.State Reply) (u : State) : Prop where
  control : u.control = s.control
  accounts : u.accounts = s.accounts
  connections : u.connections = (s.setConnection c state).connections
  nodes : u.nodes = s.nodes
  children : (connection.state.closed = true → state.closed = true) → s.Children → u.Children
  written : state.written = connection.state.written → u.written = s.written

theorem setConnection_written {c : Nat} {connection : Connection} (hget : s.connections[c]? = some connection)
    {state : Client.State Reply} (h : state.written = connection.state.written) :
    (s.setConnection c state).written = s.written := by
  refine Prod.ext (List.ext_getElem? fun d => ?_) rfl
  change ((s.setConnection c state).connections.map _)[d]? = (s.connections.map _)[d]?
  rw [List.getElem?_map, List.getElem?_map, getElem?_setConnection]
  by_cases hcd : c = d
  · rw [← hcd, hget]
    simp [h]
  · simp [hcd]

/-- After a client has moved on, its node at most retires it. -/
theorem update_absorbs (options : Options) (now : ℚ) {c : Nat} {connection : Connection}
    (hget : s.connections[c]? = some connection) (state : Client.State Reply) :
    ∃ u, s.Absorbs c connection state u ∧ u.Steady (s.update options now c state) := by
  unfold update
  rw [hget]
  dsimp only
  split_ifs with hfailed
  · refine ⟨(s.setConnection c state).closeChildren c, ⟨rfl, rfl, rfl, rfl, fun _ h => h.closeChildren state,
      fun hwritten => ?_⟩, notify_steady options now c _⟩
    exact (closeChildren_written c _).trans (setConnection_written hget hwritten)
  · refine ⟨s.setConnection c state, ⟨rfl, rfl, rfl, rfl, fun hshut hchildren handle hmem => ?_,
      setConnection_written hget⟩, .refl _⟩
    obtain ⟨hsound, hopen⟩ := hchildren handle hmem
    refine ⟨hsound, fun hchild => ?_⟩
    have hparent := hopen hchild
    by_cases hc : c = handle.parent
    · rw [← hc, isOpen_setConnection hget]
      rw [← hc, isOpen_of_some hget] at hparent
      have hwas : connection.state.closed = false := by simpa using hparent
      have hstill : ¬state.closed = true := fun hclosed => hfailed ⟨hwas, hclosed⟩
      simpa using hstill
    · rw [isOpen_setConnection_ne hc]
      exact hparent

/-- A method of a client throws, or sends its request. -/
theorem call_cases {options : Options} {now : ℚ} {c : Nat} {body : Except Failure Bytes} {opcode : Nat}
    {parse : Client.Parser Reply} {socket : Client.Socket} {promise : Except Failure Nat}
    (h : s.call options now c body opcode parse socket = some (promise, t)) :
    ∃ connection, s.connections[c]? = some connection ∧
      ((∃ reason, promise = .error reason ∧ t = s ∧
          (connection.state.ensureCapacity = .error reason ∨ body = .error reason)) ∨
        ∃ bytes state, connection.state.ensureCapacity = .ok () ∧ body = .ok bytes ∧
          connection.state.send socket opcode bytes parse = some state ∧
          promise = .ok connection.state.sent.length ∧ t = s.update options now c state) := by
  unfold call at h
  cases hget : s.connections[c]? with
  | none =>
      rw [hget] at h
      cases h
  | some connection =>
      rw [hget] at h
      dsimp only at h
      refine ⟨connection, rfl, ?_⟩
      cases hcapacity : connection.state.ensureCapacity with
      | error reason =>
          rw [hcapacity] at h
          obtain ⟨rfl, rfl⟩ := Prod.mk.inj (Option.some.inj h)
          exact Or.inl ⟨reason, rfl, rfl, Or.inl rfl⟩
      | ok value =>
          rw [hcapacity] at h
          cases body with
          | error reason =>
              obtain ⟨rfl, rfl⟩ := Prod.mk.inj (Option.some.inj h)
              exact Or.inl ⟨reason, rfl, rfl, Or.inr rfl⟩
          | ok bytes =>
              dsimp only at h
              cases hsend : connection.state.send socket opcode bytes parse with
              | none =>
                  rw [hsend] at h
                  cases h
              | some state =>
                  rw [hsend] at h
                  obtain ⟨rfl, rfl⟩ := Prod.mk.inj (Option.some.inj h)
                  exact Or.inr ⟨bytes, state, rfl, rfl, hsend, rfl, rfl⟩

/-- `choose` takes a connected node that was not tried and has room. -/
theorem choose_some {tried : List Nat} {n : Nat} (h : s.choose tried = some n) :
    n ∉ tried ∧ s.connected n = true ∧ s.pendingOf n < 32 := by
  have hloop : ∀ (offsets : List Nat) (best : Option Nat),
      (∀ m ∈ best, m ∉ tried ∧ s.connected m = true ∧ s.pendingOf m < 32) →
      ∀ m ∈ offsets.foldl (fun best offset =>
          let n := (s.cursor + offset) % s.nodes.length
          if s.Better tried best n then some n else best) best,
        m ∉ tried ∧ s.connected m = true ∧ s.pendingOf m < 32 := by
    intro offsets
    induction offsets with
    | nil => exact fun best hbest => hbest
    | cons offset offsets ih =>
        intro best hbest
        apply ih
        intro m hm
        dsimp only at hm
        split_ifs at hm with hbetter
        · obtain rfl := Option.some.inj hm
          exact ⟨hbetter.1, hbetter.2.1, hbetter.2.2.1⟩
        · exact hbest m hm
  exact hloop _ none nofun n h

/-! ### Services -/

theorem modifyService_steady (v : Nat) (f : ClusterService → ClusterService) (s : State) :
    s.Steady (s.modifyService v f) := .of_same rfl rfl rfl rfl rfl

theorem attach_steady (options : Options) (now : ℚ) (n v : Nat) (s : State) : s.Steady (s.attach options now n v) := by
  unfold attach
  split
  case h_2 => exact .refl s
  case h_1 service node hservice hnode =>
    split_ifs
    · exact .refl s
    · exact .refl s
    split
    · exact .refl s
    case h_2 c hclient =>
      split_ifs with hclosed
      · exact .refl s
      rw [Bool.not_eq_false] at hclosed
      dsimp only
      split
      · exact .of_same rfl rfl rfl rfl rfl
      · rename_i state hchild
        have hfresh : ∃ checked, state = .new checked := by
          unfold child at hchild
          simp only [bind_eq_ok, pure_eq_ok] at hchild
          obtain ⟨_, -, _, -, checked, -, rfl⟩ := hchild
          exact ⟨checked, rfl⟩
        obtain ⟨checked, rfl⟩ := hfresh
        refine ⟨rfl, rfl, fun _ => Or.inl rfl, fun _ => rfl, fun _ => Or.inl rfl, fun hchildren handle hmem => ?_,
          fun _ hshut => ?_⟩
        · obtain hold | hnew := List.mem_append.mp hmem
          · exact hchildren handle hold
          · obtain rfl := List.mem_singleton.mp hnew
            exact ⟨nofun, fun _ => hclosed⟩
        · rw [hshut c] at hclosed
          cases hclosed

theorem attachAll_steady (options : Options) (now : ℚ) (n : Nat) (s : State) :
    s.Steady (s.attachAll options now n) :=
  Steady.foldl (fun s v => attach_steady options now n v s) _ s

theorem adopt_steady (n v : Nat) (a : Attaching) (h : Nat) (s : State) : s.Steady (s.adopt n v a h) := by
  unfold adopt
  split
  · dsimp only
    split_ifs
    · exact (modifyService_steady _ _ _).trans (closeHandle_steady h _)
    · exact modifyService_steady _ _ _
  · exact .refl s

theorem onError_steady (options : Options) (now : ℚ) (handle : Handle) (s : State) :
    s.Steady (s.onError options now handle) := by
  unfold onError
  split
  · exact .refl s
  · split_ifs
    · exact .refl s
    · exact (detach_steady _ _ s).trans (modifyService_steady _ _ _)

/-- A handle whose connection only closes. -/
theorem follow_steady (options : Options) (now : ℚ) {h : Nat} {handle : Handle} (hget : s.handles[h]? = some handle)
    {state : Service.State} (hsound : handle.state.Sound → state.Sound ∧ handle.state.Declines state) :
    s.Steady (s.follow options now h handle state) := by
  have hmoved : s.Steady { s with
      handles := s.handles.modify h fun handle => { handle with state := state } } := by
    refine ⟨rfl, rfl, fun _ => Or.inl rfl, fun _ => rfl, fun _ => Or.inl rfl, fun hchildren moved hmem => ?_,
      fun hchildren hshut => ?_⟩
    · obtain ⟨j, hj⟩ := List.mem_iff_getElem?.mp hmem
      rw [List.getElem?_modify] at hj
      by_cases hij : h = j
      · rw [← hij, hget] at hj
        simp only [if_pos, Option.map_eq_map, Option.map_some] at hj
        rw [← Option.some.inj hj]
        obtain ⟨hold, hopen⟩ := hchildren handle (List.mem_of_getElem? hget)
        refine ⟨(hsound hold).1, fun hchild => hopen ?_⟩
        cases hclosed : handle.state.child.closed with
        | false => rfl
        | true => exact absurd (((hsound hold).2 hclosed).1.symm.trans hchild) Bool.false_ne_true.symm
      · simp only [hij, if_false, Option.map_eq_map, Option.map_id'] at hj
        exact hchildren moved (List.mem_of_getElem? hj)
    · refine Prod.ext rfl (List.ext_getElem? fun j => ?_)
      change ((s.handles.modify h _).map _)[j]? = (s.handles.map _)[j]?
      rw [List.getElem?_map, List.getElem?_map, List.getElem?_modify]
      by_cases hij : h = j
      · obtain ⟨hold, hopen⟩ := hchildren handle (List.mem_of_getElem? hget)
        have hclosed : handle.state.child.closed = true := by
          by_contra hchild
          have hparent := hopen (Bool.eq_false_of_not_eq_true hchild)
          rw [hshut handle.parent] at hparent
          cases hparent
        rw [← hij, hget]
        simp [((hsound hold).2 hclosed).2]
      · simp [hij]
  unfold follow
  dsimp only
  split_ifs
  · exact hmoved.trans (onError_steady options now handle _)
  · exact hmoved

theorem closeService_steady (v : Nat) (s : State) : s.Steady (s.closeService v) := by
  unfold closeService
  split
  · exact .refl s
  · split_ifs
    · exact .refl s
    · dsimp only
      generalize hstopped : modifyService v _ _ = stopped
      have hsame : s.Steady stopped := by
        rw [← hstopped]
        exact .of_same rfl rfl rfl rfl rfl
      exact hsame.trans (Steady.foldl (fun s (entry : (_ : Nat) × Nat) => closeHandle_steady entry.2 s) _ stopped)

/-! ### Ticks -/

section Ticks

variable {options : Options} {now : ℚ} {P : State → Prop}
  (hretire : ∀ (s : State) (n c : Nat) (error : Failure), P s → P (s.retire options now n c error))
  (hconnect : ∀ (s : State) (n : Nat), P s → P (s.connectNode options n))
  (hping : ∀ (s t : State) (n c : Nat) (socket : Client.Socket), P s → s.clientOf n = some c → s.pendingOf n = 0 →
    s.ping options now n c socket = some t → P t)
  (hattach : ∀ (s : State) (n : Nat), P s → P (s.attachAll options now n))

include hretire hconnect hping hattach

theorem tickNode_preserves {n : Nat} {socket : Client.Socket} (hs : P s)
    (htick : s.tickNode options now socket n = some t) : P t := by
  have hreconnect : ∀ (u : State) (node : NodeState), P u →
      P (if node.retryAt ≤ now then u.connectNode options n else u) := by
    intro u node hu
    split_ifs
    · exact hconnect u n hu
    · exact hu
  unfold State.tickNode at htick
  dsimp only at htick
  split at htick
  · rw [← Option.some.inj htick]
    exact hs
  rename_i node hnode
  split at htick
  · rw [← Option.some.inj htick]
    exact hreconnect s node hs
  rename_i c hclient
  split_ifs at htick with hlost hidle
  · rw [← Option.some.inj htick]
    have hretired := hretire s n c (.other "Connection closed") hs
    split
    · exact hretired
    · exact hreconnect _ _ hretired
  · apply hping s t n c socket hs _ _ htick
    · rw [clientOf, hnode]
      exact hclient
    · rw [pendingOf, hnode]
      exact hidle
  · rw [← Option.some.inj htick]
    exact hattach s n hs

/-- **A tick keeps what retiring, connecting, pinging and attaching keep.** -/
theorem tick_preserves (hticking : ∀ s : State, P s → P { s with ticking := true }) {sockets : Nat → Client.Socket}
    (hs : P s) (htick : s.tick options now sockets = some t) : P t := by
  have hnodes : ∀ (ns : List Nat) (u : State), P u → u.tickNodes options now sockets ns = some t → P t := by
    intro ns
    induction ns with
    | nil =>
        intro u hu hrest
        rw [← Option.some.inj hrest]
        exact hu
    | cons n ns ih =>
        intro u hu hrest
        obtain ⟨v, hnode, hrest⟩ := Option.bind_eq_some_iff.mp hrest
        exact ih v (tickNode_preserves hretire hconnect hping hattach hu hnode) hrest
  unfold State.tick at htick
  dsimp only at htick
  split_ifs at htick
  · rw [← Option.some.inj htick]
    exact hticking s hs
  · exact hnodes _ _ (hticking s hs) htick

end Ticks

end State

end Cluster

end VeloBus
