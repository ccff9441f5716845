import VeloBus.ClusterHandles

/-! Closing a cluster client: an open client always belongs to its node, so that `close` reaches it or the
attempt that dials it does. -/

namespace VeloBus.Cluster

open Codec
open Client (Failure Value)

namespace State

variable {s t u : State} {options : Options} {now : ℚ}

/-- The attempt of a node is in `Client.connect` with a client. -/
def Dials (s : State) (n c : Nat) : Prop :=
  ∃ node attempt, s.nodes[n]? = some node ∧ node.connecting = some ⟨attempt, .dialling c⟩

/-- An open client is the one in use on its node, or the one that its node dials. -/
def Holds (s : State) : Prop := ∀ c connection, s.connections[c]? = some connection → connection.state.closed = false →
  s.clientOf connection.node = some c ∨ s.Dials connection.node c

structure Held (s : State) : Prop where
  holds : s.Holds
  made : ∀ n c, s.clientOf n = some c → c < s.connections.length
  vacant : ∀ n c, s.Dials n c → s.connected n = false
  children : s.Children

structure Tracked (s : State) : Prop extends s.Held where
  early : s.phase = .connecting → s.stopped = false
  stopped : s.stopped = s.closing.isSome
  timer : s.stopped = true → s.timer = false
  idle : s.stopped = true → ∀ n, s.connected n = false
  snapshot : ∀ attempts, s.closing = some (.connecting attempts) → ∀ a ∈ s.underWay, a ∈ attempts
  ended : s.closing = some .ticking ∨ s.closing = some .closed → s.underWay = []

/-- A state with no more attempts, and with no client opened or taken into use. -/
structure Recedes (s t : State) : Prop where
  underWay : t.underWay ⊆ s.underWay
  dials : ∀ n c, t.Dials n c → s.Dials n c
  clients : ∀ n c, t.clientOf n = some c → s.clientOf n = some c
  length : ∀ c, c < t.connections.length ↔ c < s.connections.length
  closed : ∀ c, s.isOpen c = false → t.isOpen c = false
  children : s.Children → t.Children
  holds : s.Holds → t.Holds

/-- An attempt that dials is under way. -/
theorem Dials.underWay {n c : Nat} (h : s.Dials n c) : s.underWay ≠ [] := by
  obtain ⟨node, attempt, hnode, hconnecting⟩ := h
  apply List.ne_nil_of_mem (a := attempt)
  exact List.mem_filterMap.mpr ⟨node, List.mem_of_getElem? hnode, by rw [hconnecting]; rfl⟩

/-- Once the attempts of `close` have ended every client is closed. -/
theorem Tracked.all_closed (h : s.Tracked) (hclosing : s.closing = some .ticking ∨ s.closing = some .closed) (c : Nat) :
    s.isOpen c = false := by
  by_contra hopen
  obtain ⟨connection, hget, hclosed⟩ := isOpen_iff.mp (Bool.eq_true_of_not_eq_false hopen)
  have hstopped : s.stopped = true := by
    rw [h.stopped]
    rcases hclosing with hclosing | hclosing <;> rw [hclosing] <;> rfl
  rcases h.holds c connection hget hclosed with hclient | hdials
  · exact hopen (isOpen_of_connected (h.idle hstopped _) hclient)
  · exact hdials.underWay (h.ended hclosing)

/-! ### Steps that open nothing -/

theorem Steady.dials (h : s.Steady t) {n c : Nat} : t.Dials n c ↔ s.Dials n c := by
  have hshape := h.nodes n
  unfold Dials
  cases hs : s.nodes[n]? with
  | none =>
      rw [hs, Option.map_none, Option.map_eq_none_iff] at hshape
      simp [hshape]
  | some node =>
      rw [hs, Option.map_some, Option.map_eq_some_iff] at hshape
      obtain ⟨node', ht, heq⟩ := hshape
      have hconnecting : node'.connecting = node.connecting := congrArg (fun shape => shape.2.1) heq
      simp [ht, hconnecting]

theorem underWay_of_shapes (h : ∀ n : Nat, (t.nodes[n]?).map NodeState.connecting = (s.nodes[n]?).map NodeState.connecting) :
    t.underWay ⊆ s.underWay := by
  have hmap : t.nodes.map NodeState.connecting = s.nodes.map NodeState.connecting := by
    apply List.ext_getElem?
    intro n
    rw [List.getElem?_map, List.getElem?_map]
    exact h n
  have hsame : ∀ nodes : List NodeState, nodes.filterMap (fun node => node.connecting.map Connecting.attempt) =
      (nodes.map NodeState.connecting).filterMap fun connecting => connecting.map Connecting.attempt := by
    intro nodes
    rw [List.filterMap_map]
    rfl
  rw [underWay, underWay, hsame, hsame, hmap]
  exact List.Subset.refl _

theorem Steady.length (h : s.Steady t) (c : Nat) : c < t.connections.length ↔ c < s.connections.length := by
  have hsome : ∀ connections : List Connection, c < connections.length ↔ (connections[c]?).isSome = true := by
    intro connections
    simp
  rw [hsome, hsome]
  rcases h.connections c with heq | heq
  · rw [heq]
  · rw [heq, Option.isSome_map]

theorem Recedes.connected (h : s.Recedes t) {n : Nat} (hnot : s.connected n = false) : t.connected n = false := by
  by_contra hcontra
  obtain ⟨c, hclient, hopen⟩ := connected_iff.mp (Bool.eq_true_of_not_eq_false hcontra)
  rw [h.closed c (isOpen_of_connected hnot (h.clients n c hclient))] at hopen
  cases hopen

theorem Held.recedes (h : s.Held) (hrecedes : s.Recedes t) : t.Held where
  holds := hrecedes.holds h.holds
  made n c hclient := (hrecedes.length c).mpr (h.made n c (hrecedes.clients n c hclient))
  vacant n c hdials := hrecedes.connected (h.vacant n c (hrecedes.dials n c hdials))
  children := hrecedes.children h.children

theorem Tracked.recedes (h : s.Tracked) (hcontrol : t.control = s.control) (hrecedes : s.Recedes t) : t.Tracked := by
  obtain ⟨hphase, htimer, hstopped, hclosing⟩ : t.phase = s.phase ∧ t.timer = s.timer ∧ t.stopped = s.stopped ∧
      t.closing = s.closing :=
    ⟨congrArg Control.phase hcontrol, congrArg Control.timer hcontrol, congrArg Control.stopped hcontrol,
      congrArg Control.closing hcontrol⟩
  refine ⟨h.toHeld.recedes hrecedes, ?_, ?_, ?_, fun hstop n => ?_, fun attempts heq a ha => ?_, fun hlate => ?_⟩
  · rw [hphase, hstopped]
    exact h.early
  · rw [hstopped, hclosing]
    exact h.stopped
  · rw [hstopped, htimer]
    exact h.timer
  · exact hrecedes.connected (h.idle (hstopped ▸ hstop) n)
  · exact h.snapshot attempts (hclosing ▸ heq) a (hrecedes.underWay ha)
  · have hnone := h.ended (hclosing ▸ hlate)
    apply List.eq_nil_iff_forall_not_mem.mpr
    intro a ha
    have hold := hrecedes.underWay ha
    rw [hnone] at hold
    cases hold

theorem Steady.recedes (h : s.Steady t) : s.Recedes t where
  underWay := by
    apply underWay_of_shapes
    intro n
    have hshape := congrArg (Option.map fun shape : Endpoint × Option Connecting × Int => shape.2.1) (h.nodes n)
    rw [Option.map_map, Option.map_map] at hshape
    exact hshape
  dials n c := h.dials.mp
  clients n c hclient := by
    rcases h.clients n with hsame | ⟨hnone, -⟩
    · exact hsame ▸ hclient
    · rw [hnone] at hclient
      cases hclient
  length := h.length
  closed c := h.isOpen
  children := h.children
  holds hholds c connection hget hopen := by
    have hstill : t.isOpen c = true := isOpen_iff.mpr ⟨connection, hget, hopen⟩
    rcases h.connections c with heq | heq
    · rw [heq] at hget
      rcases hholds c connection hget hopen with hclient | hdials
      · rcases h.clients connection.node with hsame | ⟨-, hlost⟩
        · exact Or.inl (hsame.trans hclient)
        · rw [hlost c hclient] at hstill
          cases hstill
      · exact Or.inr (h.dials.mpr hdials)
    · rw [heq] at hget
      obtain ⟨old, -, rfl⟩ := Option.map_eq_some_iff.mp hget
      rw [Connection.close, Client.State.fail_closed] at hopen
      cases hopen

theorem Tracked.steady (h : s.Tracked) (hsteady : s.Steady t) : t.Tracked :=
  h.recedes hsteady.control hsteady.recedes

/-- The client and the attempt of a node. -/
def place (s : State) (n : Nat) : Option (Option Nat × Option Connecting) :=
  (s.nodes[n]?).map fun node => (node.client, node.connecting)

theorem clientOf_of_place {n : Nat} (h : t.place n = s.place n) : t.clientOf n = s.clientOf n := by
  have hclient : ∀ u : State, u.clientOf n = (u.place n).bind Prod.fst := by
    intro u
    rw [clientOf, place, Option.bind_map]
    rfl
  rw [hclient, hclient, h]

theorem dials_of_place {n c : Nat} (h : t.place n = s.place n) : t.Dials n c ↔ s.Dials n c := by
  have hplace : ∀ u : State, u.Dials n c ↔
      ∃ client attempt, u.place n = some (client, some ⟨attempt, .dialling c⟩) := by
    intro u
    constructor
    · rintro ⟨node, attempt, hnode, hconnecting⟩
      exact ⟨node.client, attempt, by rw [place, hnode, Option.map_some, hconnecting]⟩
    · rintro ⟨client, attempt, hsome⟩
      obtain ⟨node, hnode, heq⟩ := Option.map_eq_some_iff.mp hsome
      exact ⟨node, attempt, hnode, congrArg Prod.snd heq⟩
  rw [hplace, hplace, h]

theorem connected_of_place (hconnections : t.connections = s.connections) {n : Nat} (h : t.place n = s.place n) :
    t.connected n = s.connected n := by
  apply Bool.eq_iff_iff.mpr
  rw [connected_iff, connected_iff, clientOf_of_place h]
  simp only [isOpen_congr hconnections]

theorem underWay_of_places (h : ∀ n, t.place n = s.place n) : t.underWay ⊆ s.underWay := by
  apply underWay_of_shapes
  intro n
  have hplace := congrArg (Option.map Prod.snd) (h n)
  rw [place, place, Option.map_map, Option.map_map] at hplace
  exact hplace

/-- Steps that leave the clients, the services and what a node has to do with them. -/
theorem recedes_of_places (hconnections : t.connections = s.connections) (hhandles : t.handles = s.handles)
    (hplaces : ∀ n, t.place n = s.place n) : s.Recedes t where
  underWay := underWay_of_places hplaces
  dials n c := (dials_of_place (hplaces n)).mp
  clients n c hclient := clientOf_of_place (hplaces n) ▸ hclient
  length c := by rw [hconnections]
  closed c hclosed := (isOpen_congr hconnections c).trans hclosed
  children hchildren handle hmem := by
    rw [isOpen_congr hconnections]
    exact hchildren handle (hhandles ▸ hmem)
  holds hholds c connection hget hopen := by
    rw [clientOf_of_place (hplaces _), dials_of_place (hplaces _)]
    exact hholds c connection (hconnections ▸ hget) hopen

theorem Tracked.of_places (h : s.Tracked) (hcontrol : t.control = s.control) (hconnections : t.connections = s.connections)
    (hhandles : t.handles = s.handles) (hplaces : ∀ n, t.place n = s.place n) : t.Tracked :=
  h.recedes hcontrol (recedes_of_places hconnections hhandles hplaces)

theorem place_modifyNode (n m : Nat) (f : NodeState → NodeState) (s : State) :
    (s.modifyNode n f).place m =
      (s.nodes[m]?).map fun node => ((if n = m then f node else node).client, (if n = m then f node else node).connecting) := by
  rw [place, getElem?_modifyNode, Option.map_map]
  rfl

/-- A node's counter moves. -/
theorem place_recount (n : Nat) (f : NodeState → Int) (s : State) (m : Nat) :
    (s.modifyNode n fun node => { node with pending := f node }).place m = s.place m := by
  rw [place_modifyNode, place]
  congr 1
  funext node
  split_ifs <;> rfl

theorem Tracked.recount (h : s.Tracked) (n : Nat) (f : NodeState → Int) :
    (s.modifyNode n fun node => { node with pending := f node }).Tracked :=
  h.of_places rfl rfl rfl (place_recount n f s)

/-! ### Steps of a client -/

theorem Absorbs.isOpen {c : Nat} {connection : Connection} {state : Client.State Reply}
    (habsorbs : s.Absorbs c connection state u) (hget : s.connections[c]? = some connection)
    (hshut : connection.state.closed = true → state.closed = true) {d : Nat} (hclosed : s.isOpen d = false) :
    u.isOpen d = false := by
  rw [isOpen_congr habsorbs.connections]
  by_cases hcd : c = d
  · rw [← hcd, isOpen_of_some hget] at hclosed
    rw [← hcd, isOpen_setConnection hget, hshut (by simpa using hclosed)]
    rfl
  · rw [isOpen_setConnection_ne hcd]
    exact hclosed

theorem Absorbs.recedes {c : Nat} {connection : Connection} (hget : s.connections[c]? = some connection)
    {state : Client.State Reply} (hshut : connection.state.closed = true → state.closed = true)
    (habsorbs : s.Absorbs c connection state u) : s.Recedes u := by
  have hplaces : ∀ n, u.place n = s.place n := by
    intro n
    rw [place, place, habsorbs.nodes]
  refine ⟨underWay_of_places hplaces, fun n d => (dials_of_place (hplaces n)).mp,
    fun n d hclient => clientOf_of_place (hplaces n) ▸ hclient, fun d => ?_, fun d => habsorbs.isOpen hget hshut,
    habsorbs.children hshut, fun hholds d moved hmoved hopen => ?_⟩
  · rw [habsorbs.connections]
    exact iff_of_eq (congrArg (d < ·) (List.length_modify _ _ _))
  · rw [habsorbs.connections, getElem?_setConnection] at hmoved
    obtain ⟨old, hold, rfl⟩ := Option.map_eq_some_iff.mp hmoved
    rw [clientOf_of_place (hplaces _), dials_of_place (hplaces _)]
    by_cases hcd : c = d
    · rw [← hcd, hget] at hold
      obtain rfl := Option.some.inj hold
      rw [if_pos hcd] at hopen ⊢
      have hwas : connection.state.closed = false := by
        by_contra hclosed
        rw [hshut (Bool.eq_true_of_not_eq_false hclosed)] at hopen
        cases hopen
      rw [← hcd]
      exact hholds c connection hget hwas
    · rw [if_neg hcd] at hopen ⊢
      exact hholds d old hold hopen

theorem Tracked.update (h : s.Tracked) {c : Nat} {connection : Connection} (hget : s.connections[c]? = some connection)
    {state : Client.State Reply} (hshut : connection.state.closed = true → state.closed = true) :
    (s.update options now c state).Tracked := by
  obtain ⟨u, habsorbs, hsteady⟩ := update_absorbs options now hget state
  exact (h.recedes habsorbs.control (habsorbs.recedes hget hshut)).steady hsteady

/-! ### Attempts -/

theorem clientOf_modifyNode {n : Nat} {f : NodeState → NodeState} (hclient : ∀ node, (f node).client = node.client)
    (s : State) (m : Nat) : (s.modifyNode n f).clientOf m = s.clientOf m := by
  rw [clientOf, clientOf, getElem?_modifyNode, Option.bind_map]
  congr 1
  funext node
  change (if n = m then f node else node).client = node.client
  split_ifs
  · exact hclient node
  · rfl

theorem dials_modifyNode {n m c : Nat} {f : NodeState → NodeState}
    (hdial : ∀ node attempt c, (f node).connecting = some ⟨attempt, .dialling c⟩ →
      node.connecting = some ⟨attempt, .dialling c⟩)
    (h : (s.modifyNode n f).Dials m c) : s.Dials m c := by
  obtain ⟨node, attempt, hnode, hconnecting⟩ := h
  rw [getElem?_modifyNode] at hnode
  obtain ⟨old, hold, rfl⟩ := Option.map_eq_some_iff.mp hnode
  split_ifs at hconnecting
  · exact ⟨old, attempt, hold, hdial old attempt c hconnecting⟩
  · exact ⟨old, attempt, hold, hconnecting⟩

/-- The attempt of a node leaves `Client.connect`, or ends. -/
theorem Tracked.settle (h : s.Tracked) {n : Nat} {f : NodeState → NodeState} (hclient : ∀ node, (f node).client = node.client)
    (hending : ∀ node connecting, (f node).connecting = some connecting → connecting.dial = .ending ∧
      ∃ old, node.connecting = some old ∧ old.attempt = connecting.attempt)
    (hclosed : ∀ c, s.Dials n c → s.isOpen c = false) : (s.modifyNode n f).Tracked := by
  have hclients := clientOf_modifyNode (n := n) hclient s
  refine h.recedes (t := s.modifyNode n f) rfl
    ⟨?_, fun m c => dials_modifyNode fun node attempt c heq => Dial.noConfusion (hending node _ heq).1,
      fun m c hc => hclients m ▸ hc, fun _ => Iff.rfl, fun _ => id, id, fun hholds c connection hget hopen => ?_⟩
  · intro a ha
    obtain ⟨node, hnode, heq⟩ := List.mem_filterMap.mp ha
    obtain ⟨connecting, hconnecting, rfl⟩ := Option.map_eq_some_iff.mp heq
    obtain ⟨old, hold, rfl | rfl⟩ := mem_modify hnode
    · exact List.mem_filterMap.mpr ⟨_, hold, heq⟩
    · obtain ⟨-, before, hbefore, hattempt⟩ := hending old connecting hconnecting
      exact List.mem_filterMap.mpr ⟨old, hold, by rw [hbefore, Option.map_some, hattempt]⟩
  · rw [hclients]
    rcases hholds c connection hget hopen with hc | hdials
    · exact Or.inl hc
    · right
      obtain ⟨node, attempt, hnode, hconnecting⟩ := hdials
      by_cases hn : n = connection.node
      · have hlost := hclosed c ⟨node, attempt, hn ▸ hnode, hconnecting⟩
        have hstill : s.isOpen c = true := isOpen_iff.mpr ⟨connection, hget, hopen⟩
        rw [hlost] at hstill
        cases hstill
      · refine ⟨node, attempt, ?_, hconnecting⟩
        rw [getElem?_modifyNode, hnode]
        simp [hn]

theorem Tracked.ending (h : s.Tracked) {n : Nat} (hclosed : ∀ c, s.Dials n c → s.isOpen c = false) :
    (s.ending n).Tracked := by
  refine h.settle (fun _ => rfl) (fun node connecting heq => ?_) hclosed
  obtain ⟨old, hold, rfl⟩ := Option.map_eq_some_iff.mp heq
  exact ⟨rfl, old, hold, rfl⟩

/-- A node with no open client starts an attempt, with the client it made if it made one. -/
theorem Tracked.dial (h : s.Tracked) {n : Nat} {node : NodeState} {dial : Dial} {attempt : Nat}
    (hnode : s.nodes[n]? = some node) (hrunning : s.stopped = false) (hvacant : s.connected n = false)
    (hidle : node.connecting = none) (hhandles : t.handles = s.handles) (hcontrol : t.control = s.control)
    (hnodes : t.nodes = s.nodes.modify n fun node => { node with connecting := some ⟨attempt, dial⟩ })
    (hconnections : t.connections = s.connections ∧ (∀ c, dial ≠ .dialling c) ∨ ∃ fresh, fresh.node = n ∧
      t.connections = s.connections ++ [fresh] ∧ dial = .dialling s.connections.length) : t.Tracked := by
  obtain ⟨hstopped, hclosing⟩ : t.stopped = s.stopped ∧ t.closing = s.closing :=
    ⟨congrArg Control.stopped hcontrol, congrArg Control.closing hcontrol⟩
  have hopening : t.closing = none := by
    have heq := h.stopped
    rw [hrunning] at heq
    rw [hclosing]
    exact Option.not_isSome_iff_eq_none.mp (by rw [← heq]; exact Bool.false_ne_true)
  have hget : ∀ c, c < s.connections.length → t.connections[c]? = s.connections[c]? := by
    intro c hc
    rcases hconnections with ⟨heq, -⟩ | ⟨fresh, -, heq, -⟩ <;> rw [heq]
    exact List.getElem?_append_left hc
  have hopen : ∀ c, c < s.connections.length → t.isOpen c = s.isOpen c := by
    intro c hc
    rw [isOpen, isOpen, hget c hc]
  have hclients : ∀ m, t.clientOf m = s.clientOf m := by
    intro m
    rw [clientOf, clientOf, hnodes, List.getElem?_modify]
    cases s.nodes[m]? with
    | none => rfl
    | some other =>
        change (if n = m then _ else other).client = other.client
        split_ifs <;> rfl
  have hconnected : ∀ m, t.connected m = s.connected m := by
    intro m
    apply Bool.eq_iff_iff.mpr
    rw [connected_iff, connected_iff, hclients]
    apply exists_congr
    intro c
    apply and_congr_right
    intro hc
    rw [hopen c (h.made m c hc)]
  have hothers : ∀ m c, m ≠ n → (t.Dials m c ↔ s.Dials m c) := by
    intro m c hmn
    unfold Dials
    rw [hnodes, List.getElem?_modify]
    simp [Ne.symm hmn]
  refine ⟨⟨fun c connection hc hstill => ?_, fun m c hc => ?_, fun m c hdials => ?_, fun handle hmem => ?_⟩,
    fun _ => hstopped.trans hrunning, ?_, fun hstop => ?_, fun hstop => ?_, fun attempts heq => ?_, fun hlate => ?_⟩
  · rw [hclients]
    by_cases hlt : c < s.connections.length
    · rw [hget c hlt] at hc
      rcases h.holds c connection hc hstill with hclient | hdials
      · exact Or.inl hclient
      · by_cases hn : connection.node = n
        · obtain ⟨busy, before, hbusy, hconnecting⟩ := hdials
          rw [hn, hnode] at hbusy
          rw [← Option.some.inj hbusy, hidle] at hconnecting
          cases hconnecting
        · exact Or.inr ((hothers _ c hn).mpr hdials)
    · right
      rcases hconnections with ⟨heq, -⟩ | ⟨fresh, hfresh, heq, hdial⟩
      · rw [heq] at hc
        exact absurd (List.getElem?_eq_some_iff.mp hc).1 hlt
      · rw [heq, List.getElem?_append_right (not_lt.mp hlt)] at hc
        obtain ⟨hbound, hsingle⟩ := List.getElem?_eq_some_iff.mp hc
        have hlast : c = s.connections.length := by
          rw [List.length_singleton] at hbound
          omega
        rw [List.getElem_singleton] at hsingle
        rw [← hsingle, hfresh]
        refine ⟨{ node with connecting := some ⟨attempt, dial⟩ }, attempt, ?_, ?_⟩
        · rw [hnodes, List.getElem?_modify, hnode]
          simp
        · rw [hdial, hlast]
  · have hlt := h.made m c (hclients m ▸ hc)
    rcases hconnections with ⟨heq, -⟩ | ⟨fresh, -, heq, -⟩ <;> rw [heq]
    · exact hlt
    · rw [List.length_append]
      omega
  · rw [hconnected]
    by_cases hmn : m = n
    · rw [hmn]
      exact hvacant
    · exact h.vacant m c ((hothers m c hmn).mp hdials)
  · obtain ⟨hsound, hparent⟩ := h.children handle (hhandles ▸ hmem)
    refine ⟨hsound, fun hchild => ?_⟩
    have hwas := hparent hchild
    obtain ⟨connection, hc, -⟩ := isOpen_iff.mp hwas
    exact (hopen _ (List.getElem?_eq_some_iff.mp hc).1).trans hwas
  · rw [hstopped, hclosing]
    exact h.stopped
  · rw [hstopped, hrunning] at hstop
    cases hstop
  · rw [hstopped, hrunning] at hstop
    cases hstop
  · rw [hopening] at heq
    cases heq
  · rw [hopening] at hlate
    rcases hlate with heq | heq <;> cases heq

theorem Tracked.running (h : s.Tracked) (hrunning : s.stopped = false) : s.closing = none := by
  have heq := h.stopped
  rw [hrunning] at heq
  exact Option.not_isSome_iff_eq_none.mp (by rw [← heq]; exact Bool.false_ne_true)

theorem Dials.unique {n c d : Nat} (h : s.Dials n c) (h' : s.Dials n d) : c = d := by
  obtain ⟨node, attempt, hnode, hconnecting⟩ := h
  obtain ⟨node', attempt', hnode', hconnecting'⟩ := h'
  rw [hnode] at hnode'
  rw [← Option.some.inj hnode', hconnecting] at hconnecting'
  exact Dial.dialling.inj (congrArg Connecting.dial (Option.some.inj hconnecting'))

/-- A node takes the client that its attempt has opened. -/
theorem Tracked.taken (h : s.Tracked) {n c : Nat} {connection : Connection} (hdials : s.Dials n c)
    (hget : s.connections[c]? = some connection) (hrunning : s.stopped = false) {f : NodeState → NodeState}
    (hclient : ∀ node, (f node).client = some c) (hending : ∀ node, (f node).connecting = node.connecting) :
    ((s.ending n).modifyNode n f).Tracked := by
  have hopening := h.running hrunning
  have hother : ∀ m, m ≠ n → ((s.ending n).modifyNode n f).place m = s.place m := by
    intro m hmn
    rw [place_modifyNode, State.ending, getElem?_modifyNode, place]
    simp [Ne.symm hmn]
  have hsettled : ∀ d, ¬((s.ending n).modifyNode n f).Dials n d := by
    rintro d ⟨node, attempt, hnode, hconnecting⟩
    rw [getElem?_modifyNode, State.ending, getElem?_modifyNode, Option.map_map] at hnode
    obtain ⟨old, -, rfl⟩ := Option.map_eq_some_iff.mp hnode
    simp only [Function.comp_apply, if_true, hending] at hconnecting
    obtain ⟨before, -, hdial⟩ := Option.map_eq_some_iff.mp hconnecting
    cases hdial
  have hnow : ((s.ending n).modifyNode n f).clientOf n = some c := by
    obtain ⟨node, attempt, hnode, -⟩ := hdials
    rw [clientOf, getElem?_modifyNode, State.ending, getElem?_modifyNode, hnode]
    simp [hclient]
  refine ⟨⟨fun d moved hmoved hopen => ?_, fun m d hd => ?_, fun m d hd => ?_, h.children⟩, fun _ => hrunning, h.stopped,
    fun hstop => ?_, fun hstop => ?_, fun attempts heq => ?_, fun hlate => ?_⟩
  · rcases h.holds d moved hmoved hopen with hd | hd
    · by_cases hmn : moved.node = n
      · have hlost := isOpen_of_connected (hmn ▸ h.vacant n c hdials) hd
        have hstill : s.isOpen d = true := isOpen_iff.mpr ⟨moved, hmoved, hopen⟩
        rw [hlost] at hstill
        cases hstill
      · exact Or.inl ((clientOf_of_place (hother _ hmn)).trans hd)
    · by_cases hmn : moved.node = n
      · left
        rw [hmn] at hd ⊢
        rw [hnow, hdials.unique hd]
      · exact Or.inr ((dials_of_place (hother _ hmn)).mpr hd)
  · by_cases hmn : m = n
    · rw [hmn, hnow] at hd
      rw [← Option.some.inj hd]
      exact (List.getElem?_eq_some_iff.mp hget).1
    · exact h.made m d (clientOf_of_place (hother m hmn) ▸ hd)
  · by_cases hmn : m = n
    · exact absurd (hmn ▸ hd) (hsettled d)
    · rw [connected_of_place (s := s) (t := (s.ending n).modifyNode n f) rfl (hother m hmn)]
      exact h.vacant m d ((dials_of_place (hother m hmn)).mp hd)
  · rw [show s.stopped = true from hstop] at hrunning
    cases hrunning
  · rw [show s.stopped = true from hstop] at hrunning
    cases hrunning
  · rw [show s.closing = _ from heq] at hopening
    cases hopening
  · rw [show ((s.ending n).modifyNode n f).closing = none from hopening] at hlate
    rcases hlate with heq | heq <;> cases heq

theorem Tracked.welcome (h : s.Tracked) {n c : Nat} {connection : Connection} (hdials : s.Dials n c)
    (hget : s.connections[c]? = some connection) : (s.welcome options now n c).Tracked := by
  unfold State.welcome
  split_ifs with hstopped
  · have hsteady := closeClient_steady c s
    apply (h.steady hsteady).ending
    intro d hd
    rw [← hdials.unique (hsteady.dials.mp hd)]
    exact closeClient_closed c s
  · have htaken := h.taken hdials hget (Bool.eq_false_of_not_eq_true hstopped) (f := fun node => { node with
      client := some c
      failures := 0
      lastError := none
      unsubscribe := some c }) (fun _ => rfl) (fun _ => rfl)
    exact htaken.steady (attachAll_steady _ _ _ _)

theorem Tracked.connectFailed (h : s.Tracked) {n : Nat} (hclosed : ∀ c, s.Dials n c → s.isOpen c = false) (random : ℚ)
    (error : Failure) : (s.connectFailed options now random n error).Tracked := by
  have hplaces : ∀ f : NodeState → NodeState, (∀ node, (f node).client = node.client) →
      (∀ node, (f node).connecting = node.connecting) → ∀ m, (s.modifyNode n f).place m = s.place m := by
    intro f hclient hconnecting m
    rw [place_modifyNode, place]
    congr 1
    funext node
    split_ifs
    · rw [hclient, hconnecting]
    · rfl
  unfold State.connectFailed
  dsimp only
  generalize hcounted : s.modifyNode n _ = counted
  have hsame : ∀ m, counted.place m = s.place m := by
    rw [← hcounted]
    exact hplaces _ (fun _ => rfl) fun _ => rfl
  have hconnections : counted.connections = s.connections := by
    rw [← hcounted]
    rfl
  have htracked : counted.Tracked := by
    apply h.of_places _ hconnections _ hsame
    · rw [← hcounted]
      rfl
    · rw [← hcounted]
      rfl
  apply htracked.ending
  intro c hc
  rw [isOpen_congr hconnections]
  exact hclosed c ((dials_of_place (hsame n)).mp hc)

theorem Tracked.connectNode (h : s.Tracked) (options : Options) (n : Nat) : (s.connectNode options n).Tracked := by
  unfold State.connectNode
  cases hnode : s.nodes[n]? with
  | none => exact h
  | some node =>
      dsimp only
      split_ifs with hbusy
      · exact h
      simp only [not_or] at hbusy
      obtain ⟨hrunning, hvacant, hidle⟩ := hbusy
      split
      · exact h.dial hnode (Bool.eq_false_of_not_eq_true hrunning) (Bool.eq_false_of_not_eq_true hvacant)
          (Option.not_isSome_iff_eq_none.mp hidle) rfl rfl rfl (Or.inl ⟨rfl, nofun⟩)
      · exact h.dial hnode (Bool.eq_false_of_not_eq_true hrunning) (Bool.eq_false_of_not_eq_true hvacant)
          (Option.not_isSome_iff_eq_none.mp hidle) rfl rfl rfl (Or.inr ⟨_, rfl, rfl, rfl⟩)

/-! ### Ticks and requests -/

theorem Tracked.call (h : s.Tracked) {c : Nat} {body : Except Failure Bytes} {opcode : Nat} {parse : Client.Parser Reply}
    {socket : Client.Socket} {promise : Except Failure Nat}
    (hcall : s.call options now c body opcode parse socket = some (promise, t)) : t.Tracked := by
  obtain ⟨connection, hget, ⟨reason, -, rfl, -⟩ | ⟨bytes, state, -, -, hsend, -, rfl⟩⟩ := call_cases hcall
  · exact h
  · exact h.update hget fun hclosed => (Client.State.send_shut hclosed hsend).1

theorem Tracked.ping (h : s.Tracked) {n c : Nat} {socket : Client.Socket}
    (hping : s.ping options now n c socket = some t) : t.Tracked := by
  unfold State.ping at hping
  split at hping
  · cases hping
  · rename_i promise u hcall
    rw [← Option.some.inj hping]
    exact ((h.recount n _).call hcall).of_places rfl rfl rfl fun _ => rfl

theorem Tracked.tick (h : s.Tracked) {sockets : Nat → Client.Socket} (htick : s.tick options now sockets = some t) :
    t.Tracked := by
  apply tick_preserves _ _ _ _ _ h htick
  · exact fun u n c error hu => hu.steady (retire_steady _ _ n c error u)
  · exact fun u n hu => hu.connectNode options n
  · exact fun u v n c socket hu _ _ hping => hu.ping hping
  · exact fun u n hu => hu.steady (attachAll_steady _ _ n u)
  · exact fun u hu => hu.of_places rfl rfl rfl fun _ => rfl

theorem Tracked.pinged (h : s.Tracked) (n : Nat) (ping : Attempt) (outcome : Client.Settlement Reply) :
    (s.pinged options now n ping outcome).Tracked := by
  have hfinish : ∀ u : State, u.Tracked →
      (({ u with pings := u.pings.erase n }.release n).attachAll options now n).Tracked := by
    intro u hu
    have herased : ({ u with pings := u.pings.erase n } : State).Tracked := hu.of_places rfl rfl rfl fun _ => rfl
    exact (herased.recount n _).steady (attachAll_steady _ _ _ _)
  cases outcome with
  | resolved value => exact hfinish s h
  | rejected reason => exact hfinish _ (h.steady (retire_steady _ _ _ _ _ s))

theorem Tracked.leave (h : s.Tracked) (id : Nat) (answer : Answer) : (s.leave id answer).Tracked :=
  h.of_places rfl rfl rfl fun _ => rfl

theorem Tracked.proceed (h : s.Tracked) {id : Nat} {request : Request} {socket : Client.Socket}
    (hproceed : s.proceed options now id request socket = some t) : t.Tracked := by
  unfold State.proceed at hproceed
  split at hproceed
  · rw [← Option.some.inj hproceed]
    exact h.leave id _
  rename_i n _
  have hchosen : ({ s with cursor := (n + 1) % s.nodes.length } : State).Tracked := h.of_places rfl rfl rfl fun _ => rfl
  dsimp only at hproceed
  split_ifs at hproceed
  · rw [← Option.some.inj hproceed]
    exact hchosen.leave id _
  split at hproceed
  · cases hproceed
  split at hproceed
  · cases hproceed
  · rename_i promise u hcall
    rw [← Option.some.inj hproceed]
    exact ((hchosen.recount n _).call hcall).of_places rfl rfl rfl fun _ => rfl

theorem Tracked.request (h : s.Tracked) {route payload : Value} {requestOptions : Client.RequestOptions}
    {socket : Client.Socket} (hrequest : s.request options now route payload requestOptions socket = some t) :
    t.Tracked := by
  unfold State.request at hrequest
  split at hrequest
  · rw [← Option.some.inj hrequest]
    exact h.of_places rfl rfl rfl fun _ => rfl
  · have hadmitted : ({ s with called := s.called + 1, pending := s.pending + 1 } : State).Tracked :=
      h.of_places rfl rfl rfl fun _ => rfl
    exact hadmitted.proceed hrequest

theorem Tracked.resume (h : s.Tracked) {id : Nat} {request : Request} {attempt : Attempt}
    {outcome : Client.Settlement Reply} {socket : Client.Socket}
    (hresume : s.resume options now id request attempt outcome socket = some t) : t.Tracked := by
  have hreleased := h.recount attempt.node fun node => node.pending - 1
  unfold State.resume at hresume
  dsimp only at hresume
  split at hresume
  · rw [← Option.some.inj hresume]
    exact hreleased.leave id _
  · split_ifs at hresume
    · rw [← Option.some.inj hresume]
      exact hreleased.leave id _
    · exact hreleased.proceed hresume
  · exact hreleased.proceed hresume
  · rw [← Option.some.inj hresume]
    exact ((h.steady (retire_steady _ _ _ _ _ s)).recount attempt.node _).leave id _

theorem Tracked.register (h : s.Tracked) {route handler : Value} {handleOptions : Client.HandleOptions}
    (hregister : s.register options now route handler handleOptions = .ok t) : t.Tracked := by
  unfold State.register at hregister
  simp only [bind_eq_ok, pure_eq_ok, check_eq_ok] at hregister
  obtain ⟨-, -, -, -, -, -, -, concurrency, -, queueLimit, -, rfl⟩ := hregister
  apply Tracked.steady _ (Steady.foldl (fun s n => attach_steady options now n _ s) _ _)
  exact h.of_places rfl rfl rfl fun _ => rfl

/-! ### Close -/

theorem foldl_closed {c : Nat} (cs : List Nat) (s : State) (h : c ∈ cs) :
    (cs.foldl (fun s c => s.closeClient c) s).isOpen c = false := by
  induction cs generalizing s with
  | nil => cases h
  | cons d cs ih =>
      rcases List.mem_cons.mp h with rfl | hmem
      · have hsteady : (s.closeClient c).Steady (cs.foldl (fun s c => s.closeClient c) (s.closeClient c)) :=
          Steady.foldl (fun s c => closeClient_steady c s) cs _
        exact hsteady.isOpen (closeClient_closed c s)
      · exact ih _ hmem

/-- `close` keeps the services it found. -/
theorem shutdown_control (h : s.closing = none) : s.shutdown.control =
    ⟨s.phase, false, true, some (.clients s.services)⟩ := by
  unfold State.shutdown
  rw [h]
  exact (Steady.foldl (fun s c => closeClient_steady c s) _ _).control.trans
    (Steady.foldl (fun s v => closeService_steady v s) _ _).control

/-- `close` reaches every client but those that are being dialled. -/
theorem Tracked.shutdown (h : s.Tracked) (hphase : s.phase ≠ .connecting) : s.shutdown.Tracked := by
  cases hopening : s.closing with
  | some stage =>
      unfold State.shutdown
      rw [if_pos (by rw [hopening]; rfl)]
      exact h
  | none =>
      have hcontrol := shutdown_control hopening
      unfold State.shutdown at hcontrol ⊢
      rw [if_neg (by rw [hopening]; exact Bool.false_ne_true)] at hcontrol ⊢
      dsimp only at hcontrol ⊢
      generalize hstopping : ({ s with
        stopped := true
        timer := false
        closing := some (.clients s.services)
        nodes := _ } : State) = stopping at hcontrol ⊢
      have hheld : stopping.Held := by
        apply h.toHeld.recedes
        rw [← hstopping]
        refine recedes_of_places rfl rfl fun n => ?_
        rw [place, place, List.getElem?_map, Option.map_map]
        rfl
      have hservices : stopping.Steady (s.services.foldl (fun s v => s.closeService v) stopping) :=
        Steady.foldl (fun s v => closeService_steady v s) _ _
      generalize s.services.foldl (fun s v => s.closeService v) stopping = left at hservices hcontrol ⊢
      have hclients : left.Steady ((left.nodes.filterMap NodeState.client).foldl (fun s c => s.closeClient c) left) :=
        Steady.foldl (fun s c => closeClient_steady c s) _ _
      generalize hlast : (left.nodes.filterMap NodeState.client).foldl (fun s c => s.closeClient c) left = last
        at hclients hcontrol ⊢
      obtain ⟨hsame, htimer, hstopped, hclosing⟩ : last.phase = s.phase ∧ last.timer = false ∧ last.stopped = true ∧
          last.closing = some (.clients s.services) :=
        ⟨congrArg Control.phase hcontrol, congrArg Control.timer hcontrol, congrArg Control.stopped hcontrol,
          congrArg Control.closing hcontrol⟩
      refine ⟨(hheld.recedes hservices.recedes).recedes hclients.recedes, fun hconnecting => ?_, ?_, fun _ => htimer,
        fun _ n => ?_, fun attempts heq => ?_, fun hlate => ?_⟩
      · exact absurd (hsame.symm.trans hconnecting) hphase
      · rw [hstopped, hclosing]
        rfl
      · by_contra hconnected
        obtain ⟨c, hclient, hopen⟩ := connected_iff.mp (Bool.eq_true_of_not_eq_false hconnected)
        have hbefore := hclients.recedes.clients n c hclient
        obtain ⟨node, hnode, hc⟩ := Option.bind_eq_some_iff.mp hbefore
        have hclosed := foldl_closed (left.nodes.filterMap NodeState.client) left
          (List.mem_filterMap.mpr ⟨node, List.mem_of_getElem? hnode, hc⟩)
        rw [hlast, hopen] at hclosed
        cases hclosed
      · rw [hclosing] at heq
        cases heq
      · rw [hclosing] at hlate
        rcases hlate with heq | heq <;> cases heq

/-! ### Runs -/

theorem new_tracked (options : Options) : (new options).Tracked := by
  have hnode : ∀ (n : Nat) (node : NodeState), (new options).nodes[n]? = some node → node.client = none ∧ node.connecting = none := by
    intro n node hget
    obtain ⟨endpoint, -, rfl⟩ := List.mem_map.mp (List.mem_of_getElem? hget)
    exact ⟨rfl, rfl⟩
  have hclient : ∀ n, (new options).clientOf n = none := by
    intro n
    unfold clientOf
    cases hget : (new options).nodes[n]? with
    | none => rfl
    | some node => exact (hnode n node hget).1
  refine ⟨⟨fun c connection hget => ?_, fun n c hc => ?_, fun n c hdials => ?_, fun handle hmem => ?_⟩, fun _ => rfl, rfl,
    nofun, nofun, nofun, fun hlate => ?_⟩
  · cases hget
  · rw [hclient] at hc
    cases hc
  · obtain ⟨node, attempt, hget, hconnecting⟩ := hdials
    rw [(hnode n node hget).2] at hconnecting
    cases hconnecting
  · cases hmem
  · rcases hlate with heq | heq <;> cases heq

theorem start_tracked (options : Options) (ns : List Nat) (h : s.Tracked) :
    (ns.foldl (fun s n => s.connectNode options n) s).Tracked := by
  induction ns generalizing s with
  | nil => exact h
  | cons n ns ih => exact ih (h.connectNode options n)

theorem Tracked.step (h : s.Tracked) {op : Op} (hstep : s.Step options now op t) : t.Tracked := by
  cases op with
  | client c op =>
      obtain ⟨connection, state, hget, -, -, hnext, rfl⟩ := hstep
      exact h.update hget fun hclosed => (Client.State.next_shut hclosed hnext).1
  | service k op =>
      obtain ⟨handle, state, hget, hmoved, hrest⟩ := hstep
      have hfollow : (s.follow options now k handle state).Tracked :=
        h.steady (follow_steady options now hget fun hsound => Service.State.step_kept hsound hmoved)
      split at hrest
      · exact hrest.elim
      · rw [hrest.2]
        exact hfollow
      · rw [hrest.2]
        exact hfollow
      · rw [hrest]
        exact hfollow
  | opened =>
      obtain ⟨hphase, -, rfl⟩ := hstep
      have hrunning := h.early hphase
      split_ifs
      · refine ⟨⟨h.holds, h.made, h.vacant, h.children⟩, by simp, h.stopped, fun hstop => ?_, fun hstop => ?_,
          h.snapshot, h.ended⟩
        · rw [show s.stopped = true from hstop] at hrunning
          cases hrunning
        · rw [show s.stopped = true from hstop] at hrunning
          cases hrunning
      · apply Tracked.shutdown _ (Phase.noConfusion ·)
        exact ⟨⟨h.holds, h.made, h.vacant, h.children⟩, by simp, h.stopped, h.timer, h.idle, h.snapshot, h.ended⟩
  | connected n random =>
      obtain ⟨-, -, node, attempt, dial, hnode, hconnecting, hrest⟩ := hstep
      cases dial with
      | invalid reason =>
          rw [show t = _ from hrest]
          apply h.connectFailed
          rintro c ⟨node', attempt', hnode', hconnecting'⟩
          rw [hnode] at hnode'
          rw [← Option.some.inj hnode', hconnecting] at hconnecting'
          cases hconnecting'
      | dialling c =>
          have hdials : s.Dials n c := ⟨node, attempt, hnode, hconnecting⟩
          obtain ⟨connection, hget, ⟨-, rfl⟩ | ⟨hclosed, -, rfl⟩⟩ := hrest
          · exact h.welcome hdials hget
          · apply h.connectFailed
            intro d hd
            rw [← hdials.unique hd, isOpen_of_some hget, hclosed]
            rfl
      | ending => exact hrest.elim
  | connectEnd n =>
      obtain ⟨node, attempt, hnode, hconnecting, rfl⟩ := hstep
      refine h.settle (fun _ => rfl) (fun _ _ heq => ?_) ?_
      · cases heq
      · rintro c ⟨node', attempt', hnode', hconnecting'⟩
        rw [hnode] at hnode'
        rw [← Option.some.inj hnode', hconnecting] at hconnecting'
        cases hconnecting'
  | notify n =>
      obtain ⟨node, c, -, -, -, rfl⟩ := hstep
      exact h.steady (notify_steady options now c s)
  | tick sockets => exact h.tick hstep.2.2
  | pinged n =>
      obtain ⟨ping, outcome, -, -, rfl⟩ := hstep
      exact h.pinged n ping outcome
  | ticked =>
      obtain ⟨-, -, rfl⟩ := hstep
      exact h.of_places rfl rfl rfl fun _ => rfl
  | request route payload requestOptions socket => exact h.request hstep.2
  | answered id socket =>
      obtain ⟨request, attempt, outcome, -, -, hresume⟩ := hstep
      exact h.resume hresume
  | handle route handler handleOptions =>
      obtain ⟨-, hrest⟩ := hstep
      split at hrest
      · rw [hrest]
        exact h
      · rename_i next hregister
        rw [hrest]
        exact h.register hregister
  | handled v =>
      obtain ⟨-, service, -, rfl⟩ := hstep
      have hwaited : ({ s with registering := s.registering.erase v } : State).Tracked :=
        h.of_places rfl rfl rfl fun _ => rfl
      split_ifs
      · exact hwaited.steady (closeService_steady v _)
      · exact hwaited
  | attached n v =>
      obtain ⟨service, a, -, -, -, hrest⟩ := hstep
      split at hrest
      · rw [hrest]
        exact h.steady (modifyService_steady _ _ _)
      · obtain ⟨handle, -, ⟨-, rfl⟩ | ⟨-, rfl⟩⟩ := hrest
        · exact h.steady (adopt_steady _ _ _ _ _)
        · exact h.steady (modifyService_steady _ _ _)
  | attachEnd n v =>
      obtain ⟨service, a, -, -, -, rfl⟩ := hstep
      exact h.steady (modifyService_steady _ _ _)
  | closeService v =>
      rw [show t = s.closeService v from hstep]
      exact h.steady (closeService_steady v s)
  | serviceClosed v =>
      obtain ⟨service, -, -, rfl⟩ := hstep
      exact h.steady (modifyService_steady _ _ _)
  | close =>
      obtain ⟨hphase, rfl⟩ := hstep
      apply h.shutdown
      rw [hphase]
      simp
  | clientsClosed =>
      obtain ⟨services, hclosing, -, rfl⟩ := hstep
      have hstopped := h.stopped
      rw [hclosing] at hstopped
      refine ⟨⟨h.holds, h.made, h.vacant, h.children⟩, h.early, hstopped, h.timer, h.idle, fun attempts heq => ?_, ?_⟩
      · rw [← Closing.connecting.inj (Option.some.inj heq)]
        exact fun a ha => ha
      · rintro (heq | heq) <;> cases heq
  | connectingEnded =>
      obtain ⟨attempts, hclosing, hended, rfl⟩ := hstep
      have hstopped := h.stopped
      rw [hclosing] at hstopped
      refine ⟨⟨h.holds, h.made, h.vacant, h.children⟩, h.early, hstopped, h.timer, h.idle, by simp, fun _ => ?_⟩
      apply List.eq_nil_iff_forall_not_mem.mpr
      intro a ha
      exact hended a ha (h.snapshot attempts hclosing a ha)
  | tickingEnded =>
      obtain ⟨hclosing, -, rfl⟩ := hstep
      have hstopped := h.stopped
      rw [hclosing] at hstopped
      have hclosed := h.all_closed (Or.inl hclosing)
      have hclient : ∀ n, ({ s with
          closing := some .closed
          nodes := s.nodes.map fun node : NodeState => { node with client := none } } : State).clientOf n = none := by
        intro n
        rw [clientOf, List.getElem?_map]
        cases s.nodes[n]? with
        | none => rfl
        | some node => rfl
      refine ⟨⟨fun c connection hget hopen => ?_, fun n c hc => ?_, fun n c hdials => ?_, h.children⟩, h.early, hstopped,
        h.timer, fun _ n => ?_, by simp, fun _ => ?_⟩
      · have hstill : s.isOpen c = true := isOpen_iff.mpr ⟨connection, hget, hopen⟩
        rw [hclosed c] at hstill
        cases hstill
      · rw [hclient] at hc
        cases hc
      · by_contra hconnected
        obtain ⟨d, hd, -⟩ := connected_iff.mp (Bool.eq_true_of_not_eq_false hconnected)
        rw [hclient] at hd
        cases hd
      · by_contra hconnected
        obtain ⟨d, hd, -⟩ := connected_iff.mp (Bool.eq_true_of_not_eq_false hconnected)
        rw [hclient] at hd
        cases hd
      · have hnone := h.ended (Or.inl hclosing)
        rw [underWay] at hnone ⊢
        rw [List.filterMap_map]
        exact hnone

/-! ### The services that `close` found -/

/-- A service that has ended has nothing more to do with its nodes. -/
theorem Tends.ended {service service' : ClusterService} (h : s.Tends service service')
    (hstopped : service.stopped = true)
    (hhandles : service.handles = ∅) (hattaching : service.attaching = ∅) :
    service'.stopped = true ∧ service'.handles = ∅ ∧ service'.attaching = ∅ := by
  have hfree : ∀ n, service.handles.lookup n = none := by
    intro n
    rw [hhandles]
    rfl
  have hidle : ∀ n, service.attaching.lookup n = none := by
    intro n
    rw [hattaching]
    rfl
  have hplace : ∀ n, service'.handles.lookup n = none ∧ service'.attaching.lookup n = none := by
    intro n
    cases h.place n with
    | same hsame hsame' => exact ⟨hsame.trans (hfree n), hsame'.trans (hidle n)⟩
    | left hnone hsame _ => exact ⟨hnone, hsame.trans (hidle n)⟩
    | began a _ _ _ hrunning _ _ => cases hrunning.symm.trans hstopped
    | ended a _ hworking _ _ => cases (hidle n).symm.trans hworking
    | adopted a i _ _ hworking _ _ _ => cases (hidle n).symm.trans hworking
    | gone a _ hworking _ _ => cases (hidle n).symm.trans hworking
  refine ⟨?_, Table.eq_empty fun n => (hplace n).1, Table.eq_empty fun n => (hplace n).2⟩
  rcases h.stopped with hsame | ⟨hstop, -⟩
  · exact hsame.trans hstopped
  · exact hstop

theorem Ended.change {v : Nat} (h : s.Ended v) (hchange : s.Change t) : t.Ended v := by
  obtain ⟨service, hget, hstopped, hfree, hidle⟩ := h
  cases hchange with
  | other _ hregistrations _ => exact ⟨service, hregistrations ▸ hget, hstopped, hfree, hidle⟩
  | closed _ hregistrations _ => exact ⟨service, hregistrations ▸ hget, hstopped, hfree, hidle⟩
  | tended w f htends =>
      have hmodified : (s.modifyService w f).registrations[v]? = some (if w = v then f service else service) := by
        change (s.registrations.modify w f)[v]? = _
        rw [List.getElem?_modify, hget]
        rfl
      refine ⟨_, hmodified, ?_⟩
      split_ifs with hw
      · exact (htends service (hw ▸ hget)).ended hstopped hfree hidle
      · exact ⟨hstopped, hfree, hidle⟩
  | attached n w other a handle hfound hnode hnone hnothing hrunning _ _ _ _ _ _ hregistrations _ =>
      obtain ⟨f, hmodify, -⟩ := hregistrations
      have hw : w ≠ v := by
        rintro rfl
        obtain rfl := Option.some.inj (hget.symm.trans hfound)
        cases hrunning.symm.trans hstopped
      refine ⟨service, ?_, hstopped, hfree, hidle⟩
      rw [hmodify, List.getElem?_modify_ne _ _ hw]
      exact hget
  | registered other concurrency _ _ _ _ hregistrations _ =>
      refine ⟨service, ?_, hstopped, hfree, hidle⟩
      rw [hregistrations, List.getElem?_append_left (List.getElem?_eq_some_iff.mp hget).1]
      exact hget

theorem Ended.changes {v : Nat} (h : s.Ended v) (hchanges : s.Changes t) : t.Ended v := by
  induction hchanges with
  | refl => exact h
  | tail _ hchange ih => exact ih.change hchange

/-- **A service that has ended stays so.** -/
theorem Ended.step {v : Nat} (h : s.Ended v) (hs : s.Housed) {op : Op} (hstep : s.Step options now op t) :
    t.Ended v := by
  by_cases hop : ∃ i op', op = .service i op'
  · obtain ⟨i, op', rfl⟩ := hop
    obtain ⟨handle, state, -, -, hchanges⟩ := service_changes hstep
    have hmoved : (s.setHandle i state).Ended v := h
    exact hmoved.changes hchanges
  · exact h.changes (step_changes hs (fun i op' heq => hop ⟨i, op', heq⟩) hstep)

theorem update_control (c : Nat) (state : Client.State Reply) (s : State) :
    (s.update options now c state).control = s.control := by
  cases hget : s.connections[c]? with
  | none =>
      unfold State.update
      rw [hget]
  | some connection =>
      obtain ⟨u, habsorbs, hsteady⟩ := update_absorbs options now hget state
      exact hsteady.control.trans habsorbs.control

theorem connectNode_control (n : Nat) (s : State) : (s.connectNode options n).control = s.control := by
  unfold connectNode
  dsimp only
  split
  · rfl
  · split_ifs
    · rfl
    · split
      · rfl
      · rfl

theorem welcome_control (n c : Nat) (s : State) : (s.welcome options now n c).control = s.control := by
  unfold welcome
  split_ifs
  · exact (closeClient_steady c s).control
  · exact (attachAll_steady options now n _).control

theorem call_control {c : Nat} {body : Except Failure Bytes} {opcode : Nat} {parse : Client.Parser Reply}
    {socket : Client.Socket} {promise : Except Failure Nat}
    (h : s.call options now c body opcode parse socket = some (promise, t)) : t.control = s.control := by
  obtain ⟨connection, -, ⟨reason, -, rfl, -⟩ | ⟨bytes, state, -, -, -, -, rfl⟩⟩ := call_cases h
  · rfl
  · exact update_control c state s

theorem ping_control {n c : Nat} {socket : Client.Socket} (h : s.ping options now n c socket = some t) :
    t.control = s.control := by
  unfold State.ping at h
  split at h
  · cases h
  · rename_i hcall
    have hcontrol := call_control hcall
    rw [← Option.some.inj h]
    exact hcontrol

theorem tick_control {sockets : Nat → Client.Socket} (h : s.tick options now sockets = some t) :
    t.control = s.control := by
  apply tick_preserves (P := fun u => u.control = s.control) _ _ _ _ _ rfl h
  · exact fun u n c error hu => (retire_steady options now n c error u).control.trans hu
  · exact fun u n hu => (connectNode_control n u).trans hu
  · exact fun u v n c socket hu _ _ hping => (ping_control hping).trans hu
  · exact fun u n hu => (attachAll_steady options now n u).control.trans hu
  · exact fun u hu => hu

theorem pinged_control (n : Nat) (ping : Attempt) (outcome : Client.Settlement Reply) (s : State) :
    (s.pinged options now n ping outcome).control = s.control := by
  cases outcome with
  | resolved value => exact (attachAll_steady options now n _).control
  | rejected reason =>
      exact (attachAll_steady options now n _).control.trans (retire_steady options now n ping.client reason s).control

theorem proceed_control {id : Nat} {request : Request} {socket : Client.Socket}
    (h : s.proceed options now id request socket = some t) : t.control = s.control := by
  unfold State.proceed at h
  split at h
  · rw [← Option.some.inj h]
    rfl
  dsimp only at h
  split_ifs at h
  · rw [← Option.some.inj h]
    rfl
  split at h
  · cases h
  split at h
  · cases h
  · rename_i hcall
    have hcontrol := call_control hcall
    rw [← Option.some.inj h]
    exact hcontrol

theorem request_control {route payload : Value} {requestOptions : Client.RequestOptions} {socket : Client.Socket}
    (h : s.request options now route payload requestOptions socket = some t) : t.control = s.control := by
  unfold State.request at h
  split at h
  · rw [← Option.some.inj h]
    rfl
  · have hcontrol := proceed_control h
    exact hcontrol

theorem resume_control {id : Nat} {request : Request} {attempt : Attempt} {outcome : Client.Settlement Reply}
    {socket : Client.Socket} (h : s.resume options now id request attempt outcome socket = some t) :
    t.control = s.control := by
  unfold State.resume at h
  dsimp only at h
  split at h
  · rw [← Option.some.inj h]
    rfl
  · split_ifs at h
    · rw [← Option.some.inj h]
      rfl
    · have hcontrol := proceed_control h
      exact hcontrol
  · have hcontrol := proceed_control h
    exact hcontrol
  · rw [← Option.some.inj h]
    exact (retire_steady options now attempt.node attempt.client _ s).control

theorem register_control {route handler : Value} {handleOptions : Client.HandleOptions}
    (h : s.register options now route handler handleOptions = .ok t) : t.control = s.control := by
  unfold State.register at h
  simp only [bind_eq_ok, pure_eq_ok, check_eq_ok] at h
  obtain ⟨-, -, -, -, -, -, -, concurrency, -, queueLimit, -, rfl⟩ := h
  exact (Steady.foldl (fun s n => attach_steady options now n _ s) _ _).control

/-- `close` stays with the services it found until they have ended. -/
theorem Tracked.waits (h : s.Tracked) {services : List Nat} (hclosing : s.closing = some (.clients services)) {op : Op}
    (hstep : s.Step options now op t) : t.closing = some (.clients services) ∨ ∀ v ∈ services, t.Ended v := by
  have hsame : t.control = s.control → t.closing = some (.clients services) ∨ ∀ v ∈ services, t.Ended v :=
    fun hcontrol => Or.inl ((congrArg Control.closing hcontrol).trans hclosing)
  cases op with
  | client c op =>
      obtain ⟨connection, state, -, -, -, -, rfl⟩ := hstep
      exact hsame (update_control c state s)
  | service k op =>
      obtain ⟨handle, state, hget, hmoved, hrest⟩ := hstep
      have hfollow : (s.follow options now k handle state).control = s.control :=
        (follow_steady options now hget fun hsound => Service.State.step_kept hsound hmoved).control
      split at hrest
      · exact hrest.elim
      · rw [hrest.2] at hsame ⊢
        exact hsame hfollow
      · rw [hrest.2] at hsame ⊢
        exact hsame hfollow
      · rw [hrest] at hsame ⊢
        exact hsame hfollow
  | opened =>
      have hrunning := h.running (h.early hstep.1)
      cases hrunning.symm.trans hclosing
  | connected n random =>
      obtain ⟨-, -, node, attempt, dial, -, -, hrest⟩ := hstep
      cases dial with
      | invalid reason =>
          rw [show t = _ from hrest]
          exact Or.inl hclosing
      | dialling c =>
          obtain ⟨connection, -, ⟨-, rfl⟩ | ⟨-, -, rfl⟩⟩ := hrest
          · exact hsame (welcome_control n c s)
          · exact Or.inl hclosing
      | ending => exact hrest.elim
  | connectEnd n =>
      obtain ⟨node, attempt, -, -, rfl⟩ := hstep
      exact Or.inl hclosing
  | notify n =>
      obtain ⟨node, c, -, -, -, rfl⟩ := hstep
      exact hsame (notify_steady options now c s).control
  | tick sockets => exact hsame (tick_control hstep.2.2)
  | pinged n =>
      obtain ⟨ping, outcome, -, -, rfl⟩ := hstep
      exact hsame (pinged_control n ping outcome s)
  | ticked =>
      obtain ⟨-, -, rfl⟩ := hstep
      exact Or.inl hclosing
  | request route payload requestOptions socket => exact hsame (request_control hstep.2)
  | answered id socket =>
      obtain ⟨request, attempt, outcome, -, -, hresume⟩ := hstep
      exact hsame (resume_control hresume)
  | handle route handler handleOptions =>
      obtain ⟨-, hrest⟩ := hstep
      split at hrest
      · rw [hrest]
        exact Or.inl hclosing
      · rename_i next hregister
        rw [hrest]
        exact Or.inl ((congrArg Control.closing (register_control hregister)).trans hclosing)
  | handled v =>
      obtain ⟨-, service, -, rfl⟩ := hstep
      split_ifs
      · exact Or.inl ((congrArg Control.closing (closeService_steady v _).control).trans hclosing)
      · exact Or.inl hclosing
  | attached n v =>
      obtain ⟨service, a, -, -, -, hrest⟩ := hstep
      split at hrest
      · rw [hrest]
        exact Or.inl hclosing
      · obtain ⟨handle, -, ⟨-, rfl⟩ | ⟨-, rfl⟩⟩ := hrest
        · exact hsame (adopt_steady n v a _ s).control
        · exact Or.inl hclosing
  | attachEnd n v =>
      obtain ⟨service, a, -, -, -, rfl⟩ := hstep
      exact Or.inl hclosing
  | closeService v =>
      rw [show t = s.closeService v from hstep] at hsame ⊢
      exact hsame (closeService_steady v s).control
  | serviceClosed v =>
      obtain ⟨service, -, -, rfl⟩ := hstep
      exact Or.inl hclosing
  | close =>
      obtain ⟨-, rfl⟩ := hstep
      unfold State.shutdown
      rw [if_pos (by rw [hclosing]; rfl)]
      exact Or.inl hclosing
  | clientsClosed =>
      obtain ⟨found, hearlier, hended, rfl⟩ := hstep
      obtain rfl := Closing.clients.inj (Option.some.inj (hearlier.symm.trans hclosing))
      exact Or.inr hended
  | connectingEnded =>
      obtain ⟨attempts, hlate, -⟩ := hstep
      cases hlate.symm.trans hclosing
  | tickingEnded => cases hstep.1.symm.trans hclosing

/-! ### After close -/

/-- Nothing of the cluster client is open. -/
structure Shut (s : State) : Prop where
  clients : ∀ connection ∈ s.connections, connection.state.closed = true
  children : ∀ handle ∈ s.handles, handle.state.child.closed = true
  services : ∀ service ∈ s.registrations, s.nodesOf service = []

theorem Tracked.shut (h : s.Tracked) (hclosing : s.closing = some .closed) : s.Shut where
  clients connection hmem := by
    obtain ⟨c, hget⟩ := List.mem_iff_getElem?.mp hmem
    by_contra hopen
    have hstill := isOpen_iff.mpr ⟨connection, hget, Bool.eq_false_of_not_eq_true hopen⟩
    rw [h.all_closed (Or.inr hclosing) c] at hstill
    cases hstill
  children handle hmem := by
    by_contra hopen
    have hparent := (h.children handle hmem).2 (Bool.eq_false_of_not_eq_true hopen)
    rw [h.all_closed (Or.inr hclosing) _] at hparent
    cases hparent
  services service _ := by
    apply List.filter_eq_nil_iff.mpr
    intro n _ hconnected
    obtain ⟨c, -, hopen⟩ := connected_iff.mp hconnected
    rw [h.all_closed (Or.inr hclosing) c] at hopen
    cases hopen

/-- A part of a step that writes nothing when every client is closed. -/
structure Silent (s t : State) : Prop where
  closing : t.closing = s.closing
  children : s.Children → t.Children
  closed : (∀ c, s.isOpen c = false) → ∀ c, t.isOpen c = false
  written : s.Children → (∀ c, s.isOpen c = false) → t.written = s.written

theorem Steady.silent (h : s.Steady t) : s.Silent t where
  closing := congrArg Control.closing h.control
  children := h.children
  closed hclosed c := h.isOpen (hclosed c)
  written := h.written

theorem Silent.trans (h : s.Silent t) (h' : t.Silent u) : s.Silent u where
  closing := h'.closing.trans h.closing
  children := h'.children ∘ h.children
  closed hclosed := h'.closed (h.closed hclosed)
  written hchildren hclosed := (h'.written (h.children hchildren) (h.closed hclosed)).trans (h.written hchildren hclosed)

/-- A step that leaves the clients and the services. -/
theorem silent_of_same (hclosing : t.closing = s.closing) (hconnections : t.connections = s.connections)
    (hhandles : t.handles = s.handles) : s.Silent t where
  closing := hclosing
  children hchildren handle hmem := by
    rw [isOpen_congr hconnections]
    exact hchildren handle (hhandles ▸ hmem)
  closed hclosed c := (isOpen_congr hconnections c).trans (hclosed c)
  written _ _ := by rw [State.written, State.written, hconnections, hhandles]

theorem update_silent {c : Nat} {connection : Connection} (hget : s.connections[c]? = some connection)
    {state : Client.State Reply}
    (hshut : connection.state.closed = true → state.closed = true ∧ state.written = connection.state.written) :
    s.Silent (s.update options now c state) := by
  obtain ⟨u, habsorbs, hsteady⟩ := update_absorbs options now hget state
  have hlocal : s.Silent u := by
    refine ⟨congrArg Control.closing habsorbs.control, habsorbs.children fun h => (hshut h).1, fun hclosed d => ?_,
      fun _ hclosed => ?_⟩
    · exact habsorbs.isOpen hget (fun h => (hshut h).1) (hclosed d)
    · have hc := hclosed c
      rw [isOpen_of_some hget] at hc
      exact habsorbs.written (hshut (by simpa using hc)).2
  exact hlocal.trans hsteady.silent

/-- With every client closed no node is left for a request. -/
theorem proceed_silent (hclosed : ∀ c, s.isOpen c = false) {id : Nat} {request : Request} {socket : Client.Socket}
    (hproceed : s.proceed options now id request socket = some t) : s.Silent t := by
  unfold State.proceed at hproceed
  split at hproceed
  · rw [← Option.some.inj hproceed]
    exact silent_of_same rfl rfl rfl
  · rename_i n hchosen
    split_ifs at hchosen
    obtain ⟨-, hconnected, -⟩ := choose_some hchosen
    obtain ⟨c, -, hopen⟩ := connected_iff.mp hconnected
    rw [hclosed c] at hopen
    cases hopen

theorem resume_silent (hclosed : ∀ c, s.isOpen c = false) {id : Nat} {request : Request} {attempt : Attempt}
    {outcome : Client.Settlement Reply} {socket : Client.Socket}
    (hresume : s.resume options now id request attempt outcome socket = some t) : s.Silent t := by
  have hreleased : s.Silent (s.release attempt.node) := silent_of_same rfl rfl rfl
  unfold State.resume at hresume
  dsimp only at hresume
  split at hresume
  · rw [← Option.some.inj hresume]
    exact hreleased.trans (silent_of_same rfl rfl rfl)
  · split_ifs at hresume
    · rw [← Option.some.inj hresume]
      exact hreleased.trans (silent_of_same rfl rfl rfl)
    · exact hreleased.trans (proceed_silent (hreleased.closed hclosed) hresume)
  · exact hreleased.trans (proceed_silent (hreleased.closed hclosed) hresume)
  · rw [← Option.some.inj hresume]
    exact (retire_steady options now attempt.node attempt.client _ s).silent.trans (silent_of_same rfl rfl rfl)

/-- A stopped cluster client rejects a request before it is sent. -/
theorem request_stopped (hstopped : s.stopped = true) (route payload : Value) (requestOptions : Client.RequestOptions)
    (socket : Client.Socket) : s.request options now route payload requestOptions socket = some { s with
      called := s.called + 1
      answers := s.answers ++
        [(s.called, .rejected (.unavailable "Cluster client is closed; request was not sent"))] } := by
  have hadmission : s.admission options route payload requestOptions =
      .error (.unavailable "Cluster client is closed; request was not sent") := by
    unfold admission
    rw [if_pos hstopped]
    rfl
  unfold State.request
  rw [hadmission]

theorem register_stopped (hstopped : s.stopped = true) (route handler : Value) (handleOptions : Client.HandleOptions) :
    s.register options now route handler handleOptions = .error (.unavailable "Cluster client is closed") := by
  unfold State.register
  rw [if_pos hstopped]
  rfl

/-- Once `close` is through, a step writes nothing. -/
theorem Tracked.step_silent (h : s.Tracked) (hclosing : s.closing = some .closed) {op : Op}
    (hstep : s.Step options now op t) : s.Silent t := by
  have hclosed := h.all_closed (Or.inr hclosing)
  have hstopped : s.stopped = true := by
    rw [h.stopped, hclosing]
    rfl
  have hsettled : ∀ (n : Nat) node connecting, s.nodes[n]? = some node → node.connecting ≠ some connecting := by
    intro n node connecting hnode hconnecting
    have hmem : connecting.attempt ∈ s.underWay :=
      List.mem_filterMap.mpr ⟨node, List.mem_of_getElem? hnode, by rw [hconnecting]; rfl⟩
    rw [h.ended (Or.inr hclosing)] at hmem
    cases hmem
  cases op with
  | client c op =>
      obtain ⟨connection, state, hget, -, -, hnext, rfl⟩ := hstep
      exact update_silent hget fun hshut => Client.State.next_shut hshut hnext
  | service k op =>
      obtain ⟨handle, state, hget, hmoved, hrest⟩ := hstep
      have hfollow : s.Silent (s.follow options now k handle state) :=
        (follow_steady options now hget fun hsound => Service.State.step_kept hsound hmoved).silent
      split at hrest
      · exact hrest.elim
      · rw [hrest.2]
        exact hfollow
      · rw [hrest.2]
        exact hfollow
      · rw [hrest]
        exact hfollow
  | opened =>
      have hrunning := h.early hstep.1
      rw [hstopped] at hrunning
      cases hrunning
  | connected n random =>
      obtain ⟨-, -, node, attempt, dial, hnode, hconnecting, -⟩ := hstep
      exact absurd hconnecting (hsettled n node _ hnode)
  | connectEnd n =>
      obtain ⟨node, attempt, hnode, hconnecting, -⟩ := hstep
      exact absurd hconnecting (hsettled n node _ hnode)
  | notify n =>
      obtain ⟨node, c, -, -, -, rfl⟩ := hstep
      exact (notify_steady options now c s).silent
  | tick sockets =>
      have htimer := hstep.1
      rw [h.timer hstopped] at htimer
      cases htimer
  | pinged n =>
      obtain ⟨ping, outcome, -, -, rfl⟩ := hstep
      have hfinish : ∀ u : State, u.Silent
          (({ u with pings := u.pings.erase n }.release n).attachAll options now n) := by
        intro u
        have herased : u.Silent ({ u with pings := u.pings.erase n }.release n) := silent_of_same rfl rfl rfl
        exact herased.trans (attachAll_steady _ _ _ _).silent
      cases outcome with
      | resolved value => exact hfinish s
      | rejected reason => exact (retire_steady options now n ping.client reason s).silent.trans (hfinish _)
  | ticked =>
      obtain ⟨-, -, rfl⟩ := hstep
      exact silent_of_same rfl rfl rfl
  | request route payload requestOptions socket =>
      have hrequest := hstep.2
      rw [request_stopped hstopped] at hrequest
      rw [← Option.some.inj hrequest]
      exact silent_of_same rfl rfl rfl
  | answered id socket =>
      obtain ⟨request, attempt, outcome, -, -, hresume⟩ := hstep
      exact resume_silent hclosed hresume
  | handle route handler handleOptions =>
      have hrest := hstep.2
      rw [register_stopped hstopped] at hrest
      rw [show t = s from hrest]
      exact silent_of_same rfl rfl rfl
  | handled v =>
      obtain ⟨-, service, -, rfl⟩ := hstep
      have hwaited : s.Silent { s with registering := s.registering.erase v } := silent_of_same rfl rfl rfl
      split_ifs
      · exact hwaited.trans (closeService_steady v _).silent
      · exact hwaited
  | attached n v =>
      obtain ⟨service, a, -, -, -, hrest⟩ := hstep
      split at hrest
      · rw [hrest]
        exact (modifyService_steady _ _ _).silent
      · obtain ⟨handle, -, ⟨-, rfl⟩ | ⟨-, rfl⟩⟩ := hrest
        · exact (adopt_steady _ _ _ _ _).silent
        · exact (modifyService_steady _ _ _).silent
  | attachEnd n v =>
      obtain ⟨service, a, -, -, -, rfl⟩ := hstep
      exact (modifyService_steady _ _ _).silent
  | closeService v =>
      rw [show t = s.closeService v from hstep]
      exact (closeService_steady v s).silent
  | serviceClosed v =>
      obtain ⟨service, -, -, rfl⟩ := hstep
      exact (modifyService_steady _ _ _).silent
  | close =>
      obtain ⟨-, rfl⟩ := hstep
      have hagain : s.shutdown = s := by
        unfold State.shutdown
        rw [if_pos (by rw [hclosing]; rfl)]
      rw [hagain]
      exact silent_of_same rfl rfl rfl
  | clientsClosed =>
      obtain ⟨services, hearlier, -⟩ := hstep
      have hlate := hclosing.symm.trans hearlier
      cases hlate
  | connectingEnded =>
      obtain ⟨attempts, hearlier, -⟩ := hstep
      have hlate := hclosing.symm.trans hearlier
      cases hlate
  | tickingEnded =>
      have hlate := hclosing.symm.trans hstep.1
      cases hlate

end State

theorem tracked {options : Options} {s : State} (h : (machine options).Reachable s) : s.Tracked := by
  apply h.invariant
  · intro s hs
    rw [show s = _ from hs]
    exact State.start_tracked options _ (State.new_tracked options)
  · intro s event t _ hs hstep
    exact hs.step hstep

/-- While `close` is under way, or after, the services it found are waited for or have ended. -/
theorem found_ended {options : Options} {s t : State} {services : List Nat} {events : List (ℚ × Op)}
    (h : (machine options).Reachable s) (hclosing : s.closing = some (.clients services))
    (hrun : (machine options).Run s events t) :
    t.closing = some (.clients services) ∨ ∀ v ∈ services, t.Ended v := by
  apply hrun.preserves (A := fun _ => True) _ h (Or.inl hclosing) fun _ _ => trivial
  intro u event w hu hkept _ hstep
  rcases hkept with hwaiting | hended
  · exact (tracked hu).waits hwaiting hstep
  · exact Or.inr fun v hv => (hended v hv).step (housed hu) hstep

/-- **`close` leaves nothing open.** Once its promise is resolved every client the cluster client made is closed, and
every connection of a service with it, no service is registered on a node, and nothing is opened or written from
then on. The services it found have ended. What is called after `close` was is rejected at once. -/
theorem close_leaves_nothing (options : Options) (s : State) (h : (machine options).Reachable s) :
    (s.closing = some .closed → s.Shut ∧ ∀ events t, (machine options).Run s events t →
      t.closing = some .closed ∧ t.Shut ∧ t.written = s.written) ∧
    (s.closing = none → ∀ now t, s.Step options now .close t → ∀ events u, (machine options).Run t events u →
      u.closing = some .closed → ∀ v ∈ s.services, u.Ended v) ∧
    (s.closing ≠ none → ∀ now t,
      (∀ route payload requestOptions socket, s.Step options now (.request route payload requestOptions socket) t →
        t = { s with
          called := s.called + 1
          answers := s.answers ++
            [(s.called, .rejected (.unavailable "Cluster client is closed; request was not sent"))] }) ∧
      ∀ route handler handleOptions, s.Step options now (.handle route handler handleOptions) t → t = s) := by
  refine ⟨fun hclosing => ⟨(tracked h).shut hclosing, fun events t hrun => ?_⟩,
    fun hclosing now t hstep events u hrun hclosed v hv => ?_, fun hclosing now t => ?_⟩
  · have hstays : t.closing = some .closed ∧ t.written = s.written := by
      apply hrun.preserves (A := fun _ => True) _ h ⟨hclosing, rfl⟩ fun _ _ => trivial
      intro u event v hu hkept _ hstep
      have htracked := tracked hu
      have hsilent := htracked.step_silent hkept.1 hstep
      refine ⟨hsilent.closing.trans hkept.1, ?_⟩
      exact (hsilent.written htracked.children (htracked.all_closed (Or.inr hkept.1))).trans hkept.2
    exact ⟨hstays.1, (tracked (h.run hrun)).shut hstays.1, hstays.2⟩
  · have hfound : t.closing = some (.clients s.services) := by
      obtain ⟨-, rfl⟩ := hstep
      exact congrArg Control.closing (State.shutdown_control hclosing)
    rcases found_ended (h.step (l := (now, Op.close)) hstep) hfound hrun with hwaiting | hended
    · cases hwaiting.symm.trans hclosed
    · exact hended v hv
  · have hstopped : s.stopped = true := by
      rw [(tracked h).stopped]
      exact Option.isSome_iff_ne_none.mpr hclosing
    constructor
    · intro route payload requestOptions socket hstep
      have hrequest := hstep.2
      rw [State.request_stopped hstopped] at hrequest
      exact (Option.some.inj hrequest).symm
    · intro route handler handleOptions hstep
      have hrest := hstep.2
      rw [State.register_stopped hstopped] at hrest
      exact hrest

/-! ### A cluster client that is closed while it connects again -/

namespace Sample

def endpoint : Endpoint := ⟨Text.ofString "a", .text (Text.ofString "broker"), .number 7447, .text []⟩

def options : Options := ⟨[endpoint], 1000, 500, 100, 5000, 256⟩

def accepts : Client.Socket := fun _ => .accepted

/-- The ports of two brokers. -/
def ports : List Nat := [7447, 7448]

def checked (port : Nat) : Client.Settings := ⟨Text.ofString "broker", port, [], 1000, 32⟩

/-- The client after HELLO was sent, and after it was accepted. -/
def greeting (port : Nat) : Client.State Reply :=
  (({ Client.State.new (checked port) with stage := .connected }.next none (.greet accepts)).getD (.new (checked port)))

def opened (port : Nat) : Client.State Reply := { (greeting port).data [129, 0, 0, 0, 1, 0, 1] with stage := .opened }

/-- There is a run from one state to another. -/
def Reaches (options : Options) (s t : State) : Prop := ∃ events, (machine options).Run s events t

theorem Reaches.refl (options : Options) (s : State) : Reaches options s s := ⟨[], .nil⟩

theorem Reaches.step {options : Options} {s t u : State} (h : Reaches options s t) (now : ℚ) (op : Op)
    (hstep : t.Step options now op u) : Reaches options s u := by
  obtain ⟨events, hrun⟩ := h
  exact ⟨_, hrun.snoc (l := (now, op)) hstep⟩

/-- A client moves on, and stays open. -/
theorem client_next {options : Options} {s t : State} (h : Reaches options s t) (now : ℚ) {c n : Nat}
    {client next : Client.State Reply} (hget : t.connections[c]? = some ⟨n, client⟩) (op : Client.Op Reply)
    (hambient : Ambient op) (hop : client.Enabled op) (hnext : client.next none op = some next)
    (hopen : next.closed = false) :
    Reaches options s (t.setConnection c next) ∧ (t.setConnection c next).connections[c]? = some ⟨n, next⟩ := by
  constructor
  · apply h.step now (.client c op)
    refine ⟨⟨n, client⟩, next, hget, hambient, hop, hnext, ?_⟩
    unfold State.update
    rw [hget]
    dsimp only
    rw [if_neg]
    rw [hopen]
    exact fun hboth => Bool.false_ne_true hboth.2
  · rw [State.getElem?_setConnection, hget, Option.map_some, if_pos rfl]

theorem setConnection_setConnection (c : Nat) (client next : Client.State Reply) (s : State) :
    (s.setConnection c client).setConnection c next = s.setConnection c next := by
  unfold State.setConnection
  dsimp only
  rw [List.modify_modify_eq]
  rfl

theorem greeting_accepted : ∀ port ∈ ports,
    (greeting port).closed = false ∧ (greeting port).stage = .greeting 0 ∧
      ((greeting port).data [129, 0, 0, 0, 1, 0, 1]).closed = false ∧
      ((greeting port).data [129, 0, 0, 0, 1, 0, 1]).stage = .greeting 0 ∧
      (0, .resolved none) ∈ ((greeting port).data [129, 0, 0, 0, 1, 0, 1]).settled := by
  decide

/-- A client that is made is opened. -/
theorem opens {options : Options} {s t : State} (h : Reaches options s t) (now : ℚ) {c n port : Nat}
    (hport : port ∈ ports) (hget : t.connections[c]? = some ⟨n, .new (checked port)⟩) :
    Reaches options s (t.setConnection c (opened port)) := by
  obtain ⟨hgreeting, hstage, hclosed, hstays, hresolved⟩ := greeting_accepted port hport
  obtain ⟨h, hget⟩ := client_next h now hget .connected trivial ⟨rfl, rfl⟩ rfl rfl
  obtain ⟨h, hget⟩ := client_next h now hget (.greet accepts) trivial rfl
    (show _ = some (greeting port) from rfl) hgreeting
  obtain ⟨h, hget⟩ := client_next h now hget (.data [129, 0, 0, 0, 1, 0, 1]) trivial
    ⟨by decide, Nat.le_of_ble_eq_true rfl⟩ rfl hclosed
  obtain ⟨h, -⟩ := client_next h now hget .opened trivial ⟨0, none, hstays, hresolved⟩
    (show _ = some (opened port) from rfl) hclosed
  rw [setConnection_setConnection, setConnection_setConnection, setConnection_setConnection] at h
  exact h

/-- A free node is dialled. -/
theorem connectNode_dials {options : Options} {s : State} {n : Nat} {node : NodeState} {checked : Client.Settings}
    (hnode : s.nodes[n]? = some node)
    (hfree : ¬(s.stopped = true ∨ s.connected n = true ∨ node.connecting.isSome = true))
    (hsettings : Client.settings (State.connectOptions options node.endpoint) = .ok checked) :
    s.connectNode options n = { s with
      nodes := s.nodes.modify n fun node =>
        { node with connecting := some ⟨s.attempts, .dialling s.connections.length⟩ }
      connections := s.connections ++ [⟨n, .new checked⟩]
      attempts := s.attempts + 1 } := by
  unfold State.connectNode
  rw [hnode]
  dsimp only
  rw [if_neg hfree, hsettings]
  rfl

/-- The only node, with its client and its attempt. -/
def atNode (client : Option Nat) (connecting : Option Connecting) : NodeState :=
  ⟨endpoint, client, connecting, 0, 0, 0, none, client⟩

/-- The node dials. -/
def dialling (client : Client.State Reply) : State := { State.new options with
  nodes := [atNode none (some ⟨0, .dialling 0⟩)]
  connections := [⟨0, client⟩]
  attempts := 1 }

theorem settings_checked : Client.settings (State.connectOptions options endpoint) = .ok (checked 7447) := by
  decide +kernel

theorem dialling_start : (machine options).start (dialling (.new (checked 7447))) :=
  (connectNode_dials (s := .new options) (n := 0) rfl (by decide) settings_checked).symm

/-- The node is connected, and the cluster client in use. -/
def ready : State := { dialling (opened 7447) with
  nodes := [atNode (some 0) none]
  phase := .ready
  timer := true }

theorem ready_reachable : (machine options).Reachable ready := by
  have h : Reaches options (dialling (.new (checked 7447))) (dialling (opened 7447)) :=
    opens (c := 0) (n := 0) (.refl _ _) 0 List.mem_cons_self rfl
  have h := h.step 0 (.connected 0 0) ⟨le_rfl, by decide, _, _, _, rfl, rfl, _, rfl, Or.inl ⟨rfl, rfl⟩⟩
  have h := h.step 0 (.connectEnd 0) ⟨_, _, rfl, rfl, rfl⟩
  obtain ⟨events, hrun⟩ := h.step 0 .opened (u := ready) ⟨rfl, rfl, by rw [if_pos (by decide)]; rfl⟩
  exact ⟨_, events, dialling_start, hrun⟩

def handleOptions : Client.HandleOptions := ⟨.number 1, .undefined, .undefined⟩

/-- A service with one slot, whose handle on the node is opened. -/
def service : ClusterService where
  route := .text (Text.ofString "sum")
  options := ⟨.number 1, .number 128, .undefined⟩
  stopped := false
  handles := ∅
  attaching := AList.insert 0 ⟨0, 0, some 0, false⟩ ∅
  retryAt := ∅
  epochs := AList.insert 0 0 ∅

def setup : Service.Setup := State.serviceSetup options endpoint service

def childSettings : Client.Settings := ⟨Text.ofString "broker", 7447, [], 1000, 1⟩

def registered (state : Service.State) : State := { ready with
  handles := [⟨0, 0, 0, 0, setup, state⟩]
  registrations := [service]
  services := [0]
  registering := [0]
  epoch := 1 }

theorem setup_checked : Client.handle setup.route setup.handler setup.handleOptions =
      .ok [0, 3, 115, 117, 109, 0, 1, 0, 128] ∧ setup.concurrency = .ok 1 ∧
    Client.integer (.number 128) 1 4096 "queueLimit" = .ok 128 ∧
      Client.settings { setup.options with maxPendingRequests := .number 1 } = .ok childSettings := by
  decide +kernel

theorem child_setup : State.child setup = .ok (.new childSettings) := by
  obtain ⟨hregistration, hconcurrency, -, hsettings⟩ := setup_checked
  unfold State.child
  rw [hregistration, hconcurrency]
  exact congrArg (· >>= fun checked => Except.ok (Service.State.new checked)) hsettings

/-- Before it is attached. -/
def unattached : State := { ready with
  registrations := [{ service with attaching := ∅, epochs := ∅ }]
  services := [0]
  registering := [0] }

theorem attach_step : unattached.attach options 0 0 0 = registered (.new childSettings) := by
  have hchild : State.child (State.serviceSetup options (atNode (some 0) none).endpoint
      { service with attaching := ∅, epochs := ∅ }) = .ok (.new childSettings) := child_setup
  have hopen : unattached.isOpen 0 = true := by decide
  have hservice : unattached.registrations[0]? = some { service with attaching := ∅, epochs := ∅ } := rfl
  have hnode : unattached.nodes[0]? = some (atNode (some 0) none) := rfl
  unfold State.attach
  rw [hservice, hnode]
  dsimp only
  rw [hchild, if_neg, if_neg]
  · rfl
  · exact nofun
  · rintro (hstopped | hheld | hlate)
    · cases hstopped
    · cases hheld
    · exact absurd hlate (by decide)

theorem registered_step : ready.register options 0 (.text (Text.ofString "sum")) .function handleOptions =
    .ok (registered (.new childSettings)) := by
  have htopic : Client.topicBytes (.text (Text.ofString "sum")) false = .ok [115, 117, 109] := by decide
  have hconcurrency : Client.integer (.number 1) 1 32 "concurrency" = .ok 1 := setup_checked.2.1
  have hqueue : Client.integer (.number 128) 1 4096 "queueLimit" = .ok 128 := setup_checked.2.2.1
  unfold State.register
  simp only [Codec.bind_eq_ok, Codec.pure_eq_ok, Codec.check_eq_ok]
  refine ⟨nofun, _, congrArg (Except.mapError Rejection.failure) htopic, nofun, ?_, ?_, by decide,
    1, congrArg (Except.mapError Rejection.failure) hconcurrency,
    128, congrArg (Except.mapError Rejection.failure) hqueue, ?_⟩
  · exact fun h => h.1 rfl
  · rintro ⟨v, hv, -⟩
    cases hv
  · exact attach_step

/-- The node has lost its client. -/
def retired : NodeState := { atNode none none with
  lastError := some (.connectionClosed "Nodara peer ended the connection; publication outcome may be unknown")
  retryAt := 0 + (100 : Nat) }

/-- The broker has ended the connection of the node. -/
def lost : State := (registered (.new childSettings)).update options 0 0
  ((opened 7447).fail (.connectionClosed "Nodara peer ended the connection; publication outcome may be unknown"))

/-- A tick dials it again. -/
def redialling : State := { lost with
  nodes := [{ retired with connecting := some ⟨1, .dialling 1⟩ }]
  connections := lost.connections ++ [⟨0, .new (checked 7447)⟩]
  ticking := true
  attempts := 2 }

theorem redialling_reachable : (machine options).Reachable redialling := by
  have h : (machine options).Reachable (registered (.new childSettings)) :=
    ready_reachable.step (l := ((0 : ℚ), Op.handle (.text (Text.ofString "sum")) .function handleOptions))
      ⟨rfl, by rw [registered_step]⟩
  have h : (machine options).Reachable lost :=
    h.step (l := ((0 : ℚ), Op.client 0 .ended)) ⟨⟨0, opened 7447⟩, _, rfl, trivial, trivial, rfl, rfl⟩
  apply h.step (l := ((100 : ℚ), Op.tick fun _ => accepts))
  refine ⟨rfl, rfl, ?_⟩
  have hdial : ({ lost with ticking := true } : State).connectNode options 0 = redialling :=
    connectNode_dials (show _ = some retired from rfl) (by decide) settings_checked
  have hnode : State.tickNode options 100 accepts 0 { lost with ticking := true } = some redialling := by
    change some (if retired.retryAt ≤ 100 then _ else _) = _
    rw [if_pos (by simp [retired]), hdial]
  change (State.tickNode options 100 accepts 0 { lost with ticking := true }).bind _ = _
  rw [hnode]
  rfl

/-- What is left of the handle after the connection is lost. -/
def orphan : Service.State := (Service.State.new childSettings).close

/-- `close` is called, and `attach` has found that its handle failed. -/
def detached : State :=
  ((redialling.shutdown.follow options 100 0 ⟨0, 0, 0, 0, setup, orphan⟩
    { orphan.stop .closed with phase := .failed }).attachFailed options 100 0 0 ⟨0, 0, some 0, false⟩).modifyService 0
      fun service => { service with attaching := service.attaching.erase 0 }

/-- The client that was dialled is opened, and closed at once. -/
def refused : State :=
  (({ detached with closing := some (.connecting [1]) }.setConnection 1 (opened 7447)).welcome options 0 0
    1).modifyNode 0
    fun node => { node with connecting := none }

/-- `close` is through. -/
def closed : State := { refused with
  ticking := false
  closing := some .closed
  nodes := refused.nodes.map fun node : NodeState => { node with client := none } }

theorem closed_reached : Reaches options redialling.shutdown closed := by
  have h := Reaches.refl options redialling.shutdown
  have h := h.step 100 (.service 0 .abandon) ⟨⟨0, 0, 0, 0, setup, orphan⟩, _, rfl, ⟨Or.inl rfl, rfl⟩, rfl⟩
  have h := h.step 100 (.attached 0 0) ⟨_, ⟨0, 0, some 0, false⟩, rfl, rfl, rfl, _, rfl, Or.inr ⟨rfl, rfl⟩⟩
  have h := h.step 100 (.attachEnd 0 0) ⟨_, ⟨0, 0, some 0, true⟩, rfl, rfl, rfl, rfl⟩
  have h : Reaches options redialling.shutdown { detached with closing := some (.connecting [1]) } := by
    refine h.step 100 .clientsClosed ⟨[0], rfl, fun v hv => ?_, rfl⟩
    rw [List.mem_singleton.mp hv]
    exact ⟨_, rfl, rfl, rfl, rfl⟩
  have h := opens (c := 1) (n := 0) h 100 List.mem_cons_self rfl
  have h := h.step 100 (.connected 0 0)
    ⟨le_rfl, by decide, _, 1, .dialling 1, rfl, rfl, _, rfl, Or.inl ⟨rfl, rfl⟩⟩
  have h : Reaches options redialling.shutdown refused := h.step 100 (.connectEnd 0) ⟨_, 1, rfl, rfl, rfl⟩
  have h := h.step 100 .connectingEnded ⟨[1], rfl, by decide, rfl⟩
  have h := h.step 100 .ticked ⟨rfl, rfl, rfl⟩
  exact h.step 100 .tickingEnded ⟨rfl, rfl, rfl⟩

end Sample

theorem close_leaves_nothing_closed : Sample.closed.Shut ∧ Sample.closed.Ended 0 := by
  obtain ⟨events, hrun⟩ := Sample.closed_reached
  have hclose : Sample.redialling.Step Sample.options 100 .close Sample.redialling.shutdown := ⟨rfl, rfl⟩
  have h := Sample.redialling_reachable.step (l := ((100 : ℚ), Op.close)) hclose
  refine ⟨((close_leaves_nothing Sample.options Sample.closed (h.run hrun)).1 rfl).1, ?_⟩
  exact (close_leaves_nothing Sample.options Sample.redialling Sample.redialling_reachable).2.1 rfl 100 _ hclose events _
    hrun rfl 0 List.mem_cons_self

end VeloBus.Cluster
