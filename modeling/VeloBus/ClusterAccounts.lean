import VeloBus.ClientCapacity
import VeloBus.ClusterClosing

/-! The counters of a cluster client: the pool's beside its requests and each node's beside the requests and
pings on it, and why a client whose node has room has room itself. -/

namespace VeloBus.Cluster

open Codec
open Client (Failure Value)

namespace State

variable {s t u : State} {options : Options} {now : ℚ} {w w' : List Attempt} {k : Nat}

/-- What the requests and the pings wait for. -/
def waiting (s : State) : List Attempt :=
  (s.requests.entries.map fun entry => entry.2.2) ++ s.pings.entries.map fun entry => entry.2

/-- The attempts on a node. -/
def onNode (n : Nat) (w : List Attempt) : Nat := w.countP fun attempt => attempt.node = n

/-- The client of an attempt has nothing more to answer for it. -/
def Done (s : State) (attempt : Attempt) : Prop :=
  ∀ (connection : Connection) (promise : Nat), s.connections[attempt.client]? = some connection → attempt.promise = .ok promise →
    ∀ id pending, connection.state.pending.lookup id = some pending → pending.promise ≠ promise

/-- The counters of a state with some attempts and a number of requests. -/
structure Counts (options : Options) (s : State) (w : List Attempt) (k : Nat) : Prop where
  pool : s.pending = k
  limit : s.pending ≤ options.maxPending
  nodes : ∀ (n : Nat) (node : NodeState), s.nodes[n]? = some node → node.pending = onNode n w ∧ node.pending ≤ 32

/-- The clients of a state with some attempts: a request that waits in the client of a node is one of them. -/
structure Backed (s : State) (w : List Attempt) : Prop where
  clients : ∀ (c : Nat) (connection : Connection), s.connections[c]? = some connection → connection.state.Inv ∧ connection.state.Spared ∧
    connection.state.settings.maxPendingRequests = 32
  opened : ∀ n c, s.clientOf n = some c → ∃ connection, s.connections[c]? = some connection ∧
    connection.node = n ∧ connection.state.stage = .opened
  dialled : ∀ n c, s.Dials n c → ∃ connection, s.connections[c]? = some connection ∧ connection.node = n
  placed : ∀ attempt ∈ w, ∃ connection, s.connections[attempt.client]? = some connection ∧
    connection.node = attempt.node
  owned : ∀ (c : Nat) (connection : Connection), s.connections[c]? = some connection → connection.state.stage = .opened →
    ∀ id pending, connection.state.pending.lookup id = some pending →
      ∃ attempt ∈ w, attempt.client = c ∧ attempt.promise = .ok pending.promise
  admitted : ∀ attempt ∈ w, attempt.promise ≠ .error .backpressure

/-- A client waits for no more than what is counted on its node. -/
theorem Backed.size_le (h : s.Backed w) {n c : Nat} {connection : Connection} (hclient : s.clientOf n = some c)
    (hget : s.connections[c]? = some connection) : connection.state.pending.size ≤ onNode n w := by
  obtain ⟨connection', hget', hnode, hstage⟩ := h.opened n c hclient
  rw [hget] at hget'
  obtain rfl := Option.some.inj hget'
  have hledger := (h.clients c connection hget).1.toLedger
  let promises := (w.filter fun attempt => attempt.node = n).filterMap fun attempt => attempt.promise.toOption
  have hsubset : (connection.state.pending.entries.map fun entry => entry.2.promise) ⊆ promises := by
    intro promise hmem
    obtain ⟨entry, hentry, rfl⟩ := List.mem_map.mp hmem
    obtain ⟨attempt, hattempt, hc, hpromise⟩ :=
      h.owned c connection hget hstage entry.1 entry.2 (Table.mem_entries_iff.mp hentry)
    obtain ⟨placed, hplaced, hthere⟩ := h.placed attempt hattempt
    rw [hc, hget] at hplaced
    rw [← Option.some.inj hplaced, hnode] at hthere
    apply List.mem_filterMap.mpr
    exact ⟨attempt, List.mem_filter.mpr ⟨hattempt, decide_eq_true hthere.symm⟩, by rw [hpromise]; rfl⟩
  calc connection.state.pending.size
      = (connection.state.pending.entries.map fun entry => entry.2.promise).length := by
        rw [List.length_map]
        rfl
    _ ≤ promises.length := (List.subperm_of_subset hledger.promises_nodup hsubset).length_le
    _ ≤ (w.filter fun attempt => attempt.node = n).length := List.length_filterMap_le _ _
    _ = onNode n w := (List.countP_eq_length_filter).symm

/-- How the clients of a state follow those of another: each may have sent a request. -/
structure Evolves (s t : State) (sent : Nat → Option Nat) : Prop where
  kept : ∀ (c : Nat) (connection : Connection), s.connections[c]? = some connection → ∃ next, t.connections[c]? = some next ∧
    next.node = connection.node ∧ connection.state.Follows next.state (sent c)
  known : ∀ (c : Nat) (next : Connection), t.connections[c]? = some next → ∃ connection, s.connections[c]? = some connection
  clients : ∀ n c, t.clientOf n = some c → s.clientOf n = some c
  dials : ∀ n c, t.Dials n c → s.Dials n c

theorem Evolves.back {sent : Nat → Option Nat} (h : s.Evolves t sent) {c : Nat} {next : Connection}
    (hget : t.connections[c]? = some next) : ∃ connection, s.connections[c]? = some connection ∧
      next.node = connection.node ∧ connection.state.Follows next.state (sent c) := by
  obtain ⟨connection, hbefore⟩ := h.known c next hget
  obtain ⟨next', hget', hnode, hfollows⟩ := h.kept c connection hbefore
  rw [hget] at hget'
  rw [← Option.some.inj hget'] at hnode hfollows
  exact ⟨connection, hbefore, hnode, hfollows⟩

/-- The requests that were sent are added to the attempts. -/
theorem Backed.evolves {sent : Nat → Option Nat} (h : s.Backed w) (hevolves : s.Evolves t sent) (hold : w ⊆ w')
    (hsent : ∀ c promise, sent c = some promise → ∃ attempt ∈ w', attempt.client = c ∧ attempt.promise = .ok promise)
    (hnew : ∀ attempt ∈ w', attempt ∈ w ∨ attempt.promise ≠ .error .backpressure ∧
      ∃ connection, s.connections[attempt.client]? = some connection ∧ connection.node = attempt.node) :
    t.Backed w' where
  clients c next hget := by
    obtain ⟨connection, hbefore, -, hfollows⟩ := hevolves.back hget
    obtain ⟨-, hspared, hlimit⟩ := h.clients c connection hbefore
    exact ⟨hfollows.inv, hfollows.spared hspared, hfollows.settings ▸ hlimit⟩
  opened n c hclient := by
    obtain ⟨connection, hbefore, hnode, hstage⟩ := h.opened n c (hevolves.clients n c hclient)
    obtain ⟨next, hget, hsame, hfollows⟩ := hevolves.kept c connection hbefore
    exact ⟨next, hget, hsame.trans hnode, hfollows.stage hstage⟩
  dialled n c hdials := by
    obtain ⟨connection, hbefore, hnode⟩ := h.dialled n c (hevolves.dials n c hdials)
    obtain ⟨next, hget, hsame, -⟩ := hevolves.kept c connection hbefore
    exact ⟨next, hget, hsame.trans hnode⟩
  placed attempt hmem := by
    obtain ⟨connection, hbefore, hnode⟩ : ∃ connection, s.connections[attempt.client]? = some connection ∧
        connection.node = attempt.node := by
      rcases hnew attempt hmem with hwas | ⟨-, hplaced⟩
      · exact h.placed attempt hwas
      · exact hplaced
    obtain ⟨next, hget, hsame, -⟩ := hevolves.kept _ connection hbefore
    exact ⟨next, hget, hsame.trans hnode⟩
  owned c next hget hstage id pending hlookup := by
    obtain ⟨connection, hbefore, -, hfollows⟩ := hevolves.back hget
    rcases hfollows.pending hstage id pending hlookup with ⟨hwas, hwaited⟩ | hfresh
    · obtain ⟨attempt, hmem, hrest⟩ := h.owned c connection hbefore hwas id pending hwaited
      exact ⟨attempt, hold hmem, hrest⟩
    · exact hsent c _ hfresh
  admitted attempt hmem := by
    rcases hnew attempt hmem with hwas | ⟨hfine, -⟩
    · exact h.admitted attempt hwas
    · exact hfine

theorem Steady.evolves (hsteady : s.Steady t) (h : s.Backed w) : s.Evolves t fun _ => none where
  kept c connection hget := by
    obtain ⟨hinv, -, -⟩ := h.clients c connection hget
    rcases hsteady.connections c with heq | heq
    · exact ⟨connection, heq.trans hget, rfl, .refl hinv⟩
    · refine ⟨connection.close, by rw [heq, hget]; rfl, rfl, ?_⟩
      exact Client.State.fail_follows hinv nofun nofun
  known c next hget := by
    rcases hsteady.connections c with heq | heq
    · exact ⟨next, heq.symm.trans hget⟩
    · rw [heq] at hget
      obtain ⟨connection, hbefore, -⟩ := Option.map_eq_some_iff.mp hget
      exact ⟨connection, hbefore⟩
  clients := hsteady.recedes.clients
  dials := hsteady.recedes.dials

theorem evolves_of_same (h : s.Backed w) (hconnections : t.connections = s.connections)
    (hclients : ∀ n c, t.clientOf n = some c → s.clientOf n = some c) (hdials : ∀ n c, t.Dials n c → s.Dials n c) :
    s.Evolves t fun _ => none where
  kept c connection hget := ⟨connection, hconnections ▸ hget, rfl, .refl (h.clients c connection hget).1⟩
  known _ next hget := ⟨next, hconnections ▸ hget⟩
  clients := hclients
  dials := hdials

theorem Absorbs.evolves (h : s.Backed w) {c : Nat} {connection : Connection} {state : Client.State Reply}
    {sent : Option Nat} (hget : s.connections[c]? = some connection) (hfollows : connection.state.Follows state sent)
    (habsorbs : s.Absorbs c connection state u) : s.Evolves u fun d => if d = c then sent else none := by
  have hplaces : ∀ n, u.place n = s.place n := by
    intro n
    rw [place, place, habsorbs.nodes]
  refine ⟨fun d before hbefore => ?_, fun d next hnext => ?_, fun n d hclient => clientOf_of_place (hplaces n) ▸ hclient,
    fun n d => (dials_of_place (hplaces n)).mp⟩
  · rw [habsorbs.connections, getElem?_setConnection, hbefore]
    by_cases hcd : c = d
    · rw [← hcd, hget] at hbefore
      obtain rfl := Option.some.inj hbefore
      refine ⟨_, rfl, ?_, ?_⟩
      · simp [hcd]
      · rw [if_pos hcd.symm]
        simpa [hcd] using hfollows
    · refine ⟨before, by simp [hcd], rfl, ?_⟩
      rw [if_neg (Ne.symm hcd)]
      exact .refl (h.clients d before hbefore).1
  · rw [habsorbs.connections, getElem?_setConnection] at hnext
    obtain ⟨before, hbefore, -⟩ := Option.map_eq_some_iff.mp hnext
    exact ⟨before, hbefore⟩

/-- What a step leaves backed that sends nothing. -/
theorem Backed.keeps (h : s.Backed w) (hevolves : s.Evolves t fun _ => none) : t.Backed w :=
  h.evolves hevolves (List.Subset.refl _) nofun fun _ hmem => Or.inl hmem

theorem Backed.steady (h : s.Backed w) (hsteady : s.Steady t) : t.Backed w := h.keeps (hsteady.evolves h)

theorem Backed.of_places (h : s.Backed w) (hconnections : t.connections = s.connections)
    (hplaces : ∀ n, t.place n = s.place n) : t.Backed w :=
  h.keeps (evolves_of_same h hconnections (fun n _ hclient => clientOf_of_place (hplaces n) ▸ hclient)
    fun n _ => (dials_of_place (hplaces n)).mp)

/-- An attempt that its client has answered leaves. -/
theorem Backed.drop (h : s.Backed w) {attempt : Attempt} (hperm : w.Perm (attempt :: w')) (hdone : s.Done attempt) :
    s.Backed w' where
  clients := h.clients
  opened := h.opened
  dialled := h.dialled
  placed other hmem := h.placed other (hperm.mem_iff.mpr (List.mem_cons_of_mem _ hmem))
  owned c connection hget hstage id pending hlookup := by
    obtain ⟨owner, hmem, hc, hpromise⟩ := h.owned c connection hget hstage id pending hlookup
    rcases List.mem_cons.mp (hperm.mem_iff.mp hmem) with rfl | hother
    · rw [← hc] at hget
      exact absurd rfl (hdone connection pending.promise hget hpromise id pending hlookup)
    · exact ⟨owner, hother, hc, hpromise⟩
  admitted other hmem := h.admitted other (hperm.mem_iff.mpr (List.mem_cons_of_mem _ hmem))

theorem Backed.perm (h : s.Backed w) (hperm : w.Perm w') : s.Backed w' where
  clients := h.clients
  opened := h.opened
  dialled := h.dialled
  placed other hmem := h.placed other (hperm.mem_iff.mpr hmem)
  owned c connection hget hstage id pending hlookup := by
    obtain ⟨owner, hmem, hrest⟩ := h.owned c connection hget hstage id pending hlookup
    exact ⟨owner, hperm.mem_iff.mp hmem, hrest⟩
  admitted other hmem := h.admitted other (hperm.mem_iff.mpr hmem)

/-- An attempt that was settled is answered. -/
theorem Backed.done (h : s.Backed w) {attempt : Attempt} {outcome : Client.Settlement Reply}
    (hsettled : s.Settled attempt outcome) : s.Done attempt := by
  intro connection promise hget hpromise id pending hlookup heq
  unfold Settled at hsettled
  rw [hpromise] at hsettled
  obtain ⟨connection', hget', hmem⟩ := hsettled
  rw [hget] at hget'
  obtain rfl := Option.some.inj hget'
  have hwaiting := (h.clients _ connection hget).1.waiting id pending hlookup
  rw [heq] at hwaiting
  exact hwaiting (List.mem_map_of_mem hmem)

theorem Done.steady {attempt : Attempt} (hdone : s.Done attempt) (hsteady : s.Steady t) : t.Done attempt := by
  intro connection promise hget hpromise id pending hlookup
  rcases hsteady.connections attempt.client with heq | heq
  · rw [heq] at hget
    exact hdone connection promise hget hpromise id pending hlookup
  · rw [heq] at hget
    obtain ⟨before, hbefore, rfl⟩ := Option.map_eq_some_iff.mp hget
    exact hdone before promise hbefore hpromise id pending (Client.State.fail_pending hlookup)

/-! ### Counters -/

theorem Counts.of_same (h : s.Counts options w k) (hpending : t.pending = s.pending)
    (hnodes : ∀ n : Nat, (t.nodes[n]?).map NodeState.pending = (s.nodes[n]?).map NodeState.pending) :
    t.Counts options w k where
  pool := hpending.trans h.pool
  limit := hpending ▸ h.limit
  nodes n node hget := by
    have hcounter := hnodes n
    rw [hget, Option.map_some] at hcounter
    obtain ⟨before, hbefore, heq⟩ := Option.map_eq_some_iff.mp hcounter.symm
    exact heq ▸ h.nodes n before hbefore

theorem Counts.steady (h : s.Counts options w k) (hsteady : s.Steady t) : t.Counts options w k := by
  apply h.of_same (congrArg Accounts.pending hsteady.accounts)
  intro n
  have hshape := congrArg (Option.map fun shape : Endpoint × Option Connecting × Int => shape.2.2) (hsteady.nodes n)
  rw [Option.map_map, Option.map_map] at hshape
  exact hshape

theorem Counts.perm (h : s.Counts options w k) (hperm : w.Perm w') : s.Counts options w' k where
  pool := h.pool
  limit := h.limit
  nodes n node hget := by
    rw [onNode, ← hperm.countP_eq]
    exact h.nodes n node hget

theorem Counts.modifyNode (h : s.Counts options w k) {n : Nat} {f : NodeState → NodeState}
    (hnode : ∀ node, s.nodes[n]? = some node → (f node).pending = onNode n w' ∧ (f node).pending ≤ 32)
    (hother : ∀ m, m ≠ n → onNode m w' = onNode m w) : (s.modifyNode n f).Counts options w' k where
  pool := h.pool
  limit := h.limit
  nodes m node hget := by
    rw [getElem?_modifyNode] at hget
    obtain ⟨before, hbefore, rfl⟩ := Option.map_eq_some_iff.mp hget
    by_cases hnm : n = m
    · subst hnm
      rw [if_pos rfl]
      exact hnode before hbefore
    · rw [if_neg hnm, hother m (Ne.symm hnm)]
      exact h.nodes m before hbefore

theorem Counts.occupy (h : s.Counts options w k) (attempt : Attempt) (hroom : s.pendingOf attempt.node < 32) :
    (s.occupy attempt.node).Counts options (attempt :: w) k := by
  apply h.modifyNode
  · intro node hget
    obtain ⟨hcount, -⟩ := h.nodes _ node hget
    rw [pendingOf, hget] at hroom
    dsimp only at hroom ⊢
    rw [onNode, List.countP_cons_of_pos (by simp)]
    rw [onNode] at hcount
    omega
  · intro m hm
    exact List.countP_cons_of_neg (by simpa using Ne.symm hm)

theorem Counts.release (h : s.Counts options w k) {attempt : Attempt} (hperm : w.Perm (attempt :: w')) :
    (s.release attempt.node).Counts options w' k := by
  have hcons := h.perm hperm
  apply hcons.modifyNode
  · intro node hget
    obtain ⟨hcount, hmost⟩ := hcons.nodes _ node hget
    dsimp only
    rw [onNode, List.countP_cons_of_pos (by simp)] at hcount
    rw [onNode]
    omega
  · intro m hm
    exact (List.countP_cons_of_neg (by simpa using Ne.symm hm)).symm

theorem Counts.leave (h : s.Counts options w (k + 1)) (id : Nat) (answer : Answer) :
    (s.leave id answer).Counts options w k where
  pool := by
    have hpool := h.pool
    change s.pending - 1 = k
    omega
  limit := by
    have hlimit := h.limit
    change s.pending - 1 ≤ options.maxPending
    omega
  nodes := h.nodes

theorem Counts.update (h : s.Counts options w k) {c : Nat} {connection : Connection}
    (hget : s.connections[c]? = some connection) (state : Client.State Reply) :
    (s.update options now c state).Counts options w k := by
  obtain ⟨u, habsorbs, hsteady⟩ := update_absorbs options now hget state
  have habsorbed : u.Counts options w k := by
    apply h.of_same (congrArg Accounts.pending habsorbs.accounts)
    intro n
    rw [habsorbs.nodes]
  exact habsorbed.steady hsteady

/-- **A node with room has a client with room.** -/
theorem call_counted (hcounts : s.Counts options w k) (hbacked : s.Backed w) {n c : Nat} (hclient : s.clientOf n = some c)
    (hroom : s.pendingOf n < 32) {body : Except Failure Bytes} (hbody : Client.Checks body) {opcode : Nat}
    {parse : Client.Parser Reply} {socket : Client.Socket} {promise : Except Failure Nat}
    (hcall : (s.occupy n).call options now c body opcode parse socket = some (promise, t)) :
    t.accounts = s.accounts ∧ t.Counts options (⟨n, c, promise⟩ :: w) k ∧ t.Backed (⟨n, c, promise⟩ :: w) := by
  obtain ⟨connection, hget, hnode, hstage⟩ := hbacked.opened n c hclient
  obtain ⟨hinv, hspared, hlimit⟩ := hbacked.clients c connection hget
  have hspace : connection.state.pending.size < connection.state.settings.maxPendingRequests := by
    have hsize := hbacked.size_le hclient hget
    obtain ⟨node, hthere, -⟩ := Option.bind_eq_some_iff.mp hclient
    obtain ⟨hcount, -⟩ := hcounts.nodes n node hthere
    rw [pendingOf, hthere] at hroom
    dsimp only at hroom
    rw [hlimit]
    omega
  have hoccupied : (s.occupy n).Counts options (⟨n, c, promise⟩ :: w) k :=
    hcounts.occupy ⟨n, c, promise⟩ hroom
  have hstill : (s.occupy n).Backed w := hbacked.of_places rfl (place_recount n _ s)
  obtain ⟨connection', hget', hcases⟩ := call_cases hcall
  obtain rfl := Option.some.inj (hget.symm.trans hget')
  rcases hcases with ⟨reason, rfl, rfl, hreason⟩ | ⟨bytes, state, -, -, hsend, rfl, rfl⟩
  · refine ⟨rfl, hoccupied, ?_⟩
    apply hstill.evolves (evolves_of_same hstill rfl (fun _ _ => id) fun _ _ => id) (List.subset_cons_self _ _)
      (by simp)
    intro attempt hmem
    rcases List.mem_cons.mp hmem with rfl | hold
    · refine Or.inr ⟨?_, connection, hget, hnode⟩
      rintro heq
      obtain rfl := Except.error.inj heq
      rcases hreason with hfull | hchecks
      · unfold Client.State.ensureCapacity at hfull
        rw [if_neg (not_le.mpr hspace)] at hfull
        split_ifs at hfull
        exact hspared.reason (Except.error.inj hfull)
      · exact hbody hchecks
    · exact Or.inl hold
  · have hfollows := Client.State.send_follows hinv hstage hspace hsend
    obtain ⟨u, habsorbs, hsteady⟩ := update_absorbs (s := s.occupy n) options now hget state
    refine ⟨hsteady.accounts.trans habsorbs.accounts, hoccupied.update hget state, ?_⟩
    apply Backed.steady _ hsteady
    apply hstill.evolves (habsorbs.evolves hstill hget hfollows) (List.subset_cons_self _ _)
    · intro d promise hsent
      split_ifs at hsent with hd
      refine ⟨⟨n, c, _⟩, List.mem_cons_self, hd.symm, ?_⟩
      rw [← Option.some.inj hsent]
    · intro attempt hmem
      rcases List.mem_cons.mp hmem with rfl | hold
      · exact Or.inr ⟨by simp, connection, hget, hnode⟩
      · exact Or.inl hold

/-! ### Steps -/

/-- The counters and the clients beside what is waited for, and the calls beside their ends. -/
structure Books (options : Options) (s : State) : Prop where
  counts : s.Counts options s.waiting s.requests.size
  backed : s.Backed s.waiting
  calls : (s.requests.keys ++ s.answers.map Prod.fst).Perm (List.range s.called)
  keyed : ∀ n attempt, s.pings.lookup n = some attempt → attempt.node = n

theorem waiting_congr (h : t.accounts = s.accounts) : t.waiting = s.waiting := by
  have hrequests : t.requests = s.requests := congrArg Accounts.requests h
  have hpings : t.pings = s.pings := congrArg Accounts.pings h
  rw [waiting, waiting, hrequests, hpings]

theorem Books.of_accounts (h : s.Books options) (haccounts : t.accounts = s.accounts)
    (hcounts : t.Counts options s.waiting s.requests.size) (hbacked : t.Backed s.waiting) : t.Books options := by
  have hrequests : t.requests = s.requests := congrArg Accounts.requests haccounts
  have hpings : t.pings = s.pings := congrArg Accounts.pings haccounts
  have hcalled : t.called = s.called := congrArg Accounts.called haccounts
  have hanswers : t.answers = s.answers := congrArg Accounts.answers haccounts
  have hwaiting := waiting_congr haccounts
  refine ⟨?_, hwaiting ▸ hbacked, ?_, ?_⟩
  · rw [hwaiting, hrequests]
    exact hcounts
  · rw [hrequests, hcalled, hanswers]
    exact h.calls
  · rw [hpings]
    exact h.keyed

theorem Books.steady (h : s.Books options) (hsteady : s.Steady t) : t.Books options :=
  h.of_accounts hsteady.accounts (h.counts.steady hsteady) (h.backed.steady hsteady)

/-- Steps that leave the clients, the nodes and the attempts. -/
theorem Books.of_same (h : s.Books options) (haccounts : t.accounts = s.accounts)
    (hconnections : t.connections = s.connections) (hnodes : t.nodes = s.nodes) : t.Books options := by
  apply h.of_accounts haccounts
  · apply h.counts.of_same (congrArg Accounts.pending haccounts)
    intro n
    rw [hnodes]
  · apply h.backed.of_places hconnections
    intro n
    rw [place, place, hnodes]

theorem Books.update (h : s.Books options) {c : Nat} {connection : Connection}
    (hget : s.connections[c]? = some connection) {state : Client.State Reply}
    (hfollows : connection.state.Follows state none) : (s.update options now c state).Books options := by
  obtain ⟨u, habsorbs, hsteady⟩ := update_absorbs options now hget state
  have hevolves := habsorbs.evolves h.backed hget hfollows
  simp only [ite_self] at hevolves
  exact h.of_accounts (hsteady.accounts.trans habsorbs.accounts) (h.counts.update hget state)
    ((h.backed.keeps hevolves).steady hsteady)

/-- What an attempt adds to the table it is kept in. -/
theorem perm_insert_ping {n : Nat} (attempt : Attempt) (h : s.pings.lookup n = none) :
    ({ s with pings := s.pings.insert n attempt } : State).waiting.Perm (attempt :: s.waiting) := by
  have hentries : (s.pings.insert n attempt).entries = ⟨n, attempt⟩ :: s.pings.entries :=
    AList.entries_insert_of_notMem (AList.lookup_eq_none.mp h)
  unfold waiting
  dsimp only
  rw [hentries]
  exact List.perm_middle

theorem perm_erase_ping {n : Nat} {attempt : Attempt} (h : s.pings.lookup n = some attempt) :
    s.waiting.Perm (attempt :: ({ s with pings := s.pings.erase n } : State).waiting) := by
  have hperm := (Table.perm_erase_of_lookup h).map fun entry => entry.2
  exact (List.Perm.append_left _ hperm).trans List.perm_middle

theorem perm_erase_request {id : Nat} {request : Request} {attempt : Attempt}
    (h : s.requests.lookup id = some (request, attempt)) :
    s.waiting.Perm (attempt :: ({ s with requests := s.requests.erase id } : State).waiting) := by
  have hperm := (Table.perm_erase_of_lookup h).map fun entry => entry.2.2
  exact List.Perm.append_right _ hperm

theorem Books.ping (h : s.Books options) {n c : Nat} {socket : Client.Socket} (hclient : s.clientOf n = some c)
    (hidle : s.pendingOf n = 0) (hping : s.ping options now n c socket = some t) : t.Books options := by
  unfold State.ping at hping
  split at hping
  · cases hping
  rename_i promise u hcall
  rw [← Option.some.inj hping]
  obtain ⟨haccounts, hcounts, hbacked⟩ :=
    call_counted h.counts h.backed hclient (by rw [hidle]; decide) (by exact nofun) hcall
  have hnone : u.pings.lookup n = none := by
    rw [show u.pings = s.pings from congrArg Accounts.pings haccounts]
    by_contra hsome
    obtain ⟨attempt, hlookup⟩ := Option.ne_none_iff_exists'.mp hsome
    obtain ⟨node, hnode, -⟩ := Option.bind_eq_some_iff.mp hclient
    obtain ⟨hcount, -⟩ := h.counts.nodes n node hnode
    rw [pendingOf, hnode] at hidle
    dsimp only at hidle
    have hpositive : 0 < onNode n s.waiting := by
      apply List.countP_pos_iff.mpr
      refine ⟨attempt, List.mem_append_right _ (List.mem_map.mpr ⟨⟨n, attempt⟩, ?_, rfl⟩), ?_⟩
      · exact Table.mem_entries_iff.mpr hlookup
      · exact decide_eq_true (h.keyed n attempt hlookup)
    omega
  have hperm := perm_insert_ping ⟨n, c, promise⟩ hnone
  rw [waiting_congr haccounts] at hperm
  have hrequests : u.requests = s.requests := congrArg Accounts.requests haccounts
  have hcalled : u.called = s.called := congrArg Accounts.called haccounts
  have hanswers : u.answers = s.answers := congrArg Accounts.answers haccounts
  refine ⟨?_, ?_, ?_, fun m attempt hlookup => ?_⟩
  · have hkept := hcounts.perm hperm.symm
    rw [← hrequests] at hkept
    exact hkept.of_same rfl fun _ => rfl
  · exact (hbacked.perm hperm.symm).of_places rfl fun _ => rfl
  · change (u.requests.keys ++ u.answers.map Prod.fst).Perm (List.range u.called)
    rw [hrequests, hcalled, hanswers]
    exact h.calls
  · change (u.pings.insert n ⟨n, c, promise⟩).lookup m = some attempt at hlookup
    rw [Table.lookup_insert_ite] at hlookup
    split_ifs at hlookup with hm
    · rw [← Option.some.inj hlookup, hm]
    · rw [show u.pings = s.pings from congrArg Accounts.pings haccounts] at hlookup
      exact h.keyed m attempt hlookup

/-- A ping that is settled gives its place back. -/
theorem Books.unping (h : s.Books options) {n : Nat} {ping : Attempt} (hlookup : s.pings.lookup n = some ping)
    (hdone : s.Done ping) : ({ s with pings := s.pings.erase n }.release n).Books options := by
  have hperm := perm_erase_ping hlookup
  have hcounts : ({ s with pings := s.pings.erase n } : State).Counts options s.waiting s.requests.size :=
    h.counts.of_same rfl fun _ => rfl
  have hreleased := hcounts.release hperm
  rw [h.keyed n ping hlookup] at hreleased
  refine ⟨hreleased, ?_, h.calls, fun m attempt hm => ?_⟩
  · apply (h.backed.drop hperm hdone).of_places
    · rfl
    · exact place_recount n _ _
  · apply h.keyed m attempt
    change (s.pings.erase n).lookup m = some attempt at hm
    rw [Table.lookup_erase_ite] at hm
    split_ifs at hm
    exact hm

theorem Books.pinged (h : s.Books options) {n : Nat} {ping : Attempt} {outcome : Client.Settlement Reply}
    (hlookup : s.pings.lookup n = some ping) (hsettled : s.Settled ping outcome) :
    (s.pinged options now n ping outcome).Books options := by
  have hdone := h.backed.done hsettled
  cases outcome with
  | resolved value => exact (h.unping hlookup hdone).steady (attachAll_steady _ _ _ _)
  | rejected reason =>
      have hsteady := retire_steady options now n ping.client reason s
      have hpings : (s.retire options now n ping.client reason).pings = s.pings :=
        congrArg Accounts.pings hsteady.accounts
      have hthere : (s.retire options now n ping.client reason).pings.lookup n = some ping := by
        rw [hpings]
        exact hlookup
      exact ((h.steady hsteady).unping hthere (hdone.steady hsteady)).steady (attachAll_steady _ _ _ _)

/-! ### Requests -/

/-- What is waited for beside a request. -/
def others (id : Nat) (s : State) : List Attempt := ({ s with requests := s.requests.erase id } : State).waiting

/-- The books while a request is between two attempts. -/
structure Between (options : Options) (id : Nat) (s : State) : Prop where
  counts : s.Counts options (s.others id) (Table.size (s.requests.erase id) + 1)
  backed : s.Backed (s.others id)
  calls : (id :: (s.requests.keys.erase id ++ s.answers.map Prod.fst)).Perm (List.range s.called)
  keyed : ∀ n attempt, s.pings.lookup n = some attempt → attempt.node = n

theorem Between.leave {id : Nat} (h : s.Between options id) (answer : Answer) : (s.leave id answer).Books options where
  counts := h.counts.leave id answer
  backed := h.backed.of_places rfl fun _ => rfl
  calls := by
    apply List.Perm.trans _ h.calls
    rw [State.leave, AList.keys_erase, List.map_append, ← List.append_assoc]
    exact List.perm_append_singleton id _
  keyed := h.keyed

theorem Between.proceed {id : Nat} (h : s.Between options id) {request : Request} {socket : Client.Socket}
    (hproceed : s.proceed options now id request socket = some t) : t.Books options := by
  unfold State.proceed at hproceed
  split at hproceed
  · rw [← Option.some.inj hproceed]
    exact h.leave _
  rename_i n hchosen
  split_ifs at hchosen
  obtain ⟨-, -, hroom⟩ := choose_some hchosen
  have hnext : ({ s with cursor := (n + 1) % s.nodes.length } : State).Between options id :=
    ⟨h.counts.of_same rfl fun _ => rfl, h.backed.of_places rfl fun _ => rfl, h.calls, h.keyed⟩
  dsimp only at hproceed
  split_ifs at hproceed
  · rw [← Option.some.inj hproceed]
    exact hnext.leave _
  split at hproceed
  · cases hproceed
  rename_i c hclient
  split at hproceed
  · cases hproceed
  rename_i promise u hcall
  rw [← Option.some.inj hproceed]
  obtain ⟨haccounts, hcounts, hbacked⟩ :=
    call_counted hnext.counts hnext.backed hclient hroom (Client.request_checks _ _ _) hcall
  have hrequests : u.requests = s.requests := congrArg Accounts.requests haccounts
  have hpings : u.pings = s.pings := congrArg Accounts.pings haccounts
  have hcalled : u.called = s.called := congrArg Accounts.called haccounts
  have hanswers : u.answers = s.answers := congrArg Accounts.answers haccounts
  have hothers : u.others id = s.others id := by
    rw [others, others, waiting, waiting, hrequests, hpings]
  refine ⟨?_, ?_, ?_, ?_⟩
  · change State.Counts options _ (_ :: u.others id) (Table.size (u.requests.erase id) + 1)
    rw [hothers, hrequests]
    exact hcounts.of_same rfl fun _ => rfl
  · change State.Backed _ (_ :: u.others id)
    rw [hothers]
    exact hbacked.of_places rfl fun _ => rfl
  · change ((u.requests.insert id _).keys ++ u.answers.map Prod.fst).Perm (List.range u.called)
    rw [AList.keys_insert, hrequests, hcalled, hanswers]
    exact h.calls
  · rw [show ({ u with requests := u.requests.insert id ({ request with tried := n :: request.tried }, ⟨n, c, promise⟩) } :
      State).pings = s.pings from hpings]
    exact h.keyed

/-- A request whose attempt is settled gives its place back. -/
theorem Books.settled (h : s.Books options) {id : Nat} {request : Request} {attempt : Attempt}
    (hlookup : s.requests.lookup id = some (request, attempt)) (hdone : s.Done attempt) :
    (s.release attempt.node).Between options id := by
  have hperm : s.waiting.Perm (attempt :: s.others id) := perm_erase_request hlookup
  have hsize : s.requests.size = Table.size (s.requests.erase id) + 1 :=
    (Table.perm_erase_of_lookup hlookup).length_eq
  have hmem : id ∈ s.requests.keys := AList.mem_keys.mp (AList.lookup_isSome.mp (by rw [hlookup]; rfl))
  have hcalls := ((List.perm_cons_erase hmem).symm.append_right (s.answers.map Prod.fst)).trans h.calls
  have hcounts := h.counts.release hperm
  rw [hsize] at hcounts
  refine ⟨hcounts, ?_, hcalls, h.keyed⟩
  apply (h.backed.drop hperm hdone).of_places
  · rfl
  · exact place_recount _ _ s

theorem Books.resume (h : s.Books options) {id : Nat} {request : Request} {attempt : Attempt}
    {outcome : Client.Settlement Reply} {socket : Client.Socket}
    (hlookup : s.requests.lookup id = some (request, attempt)) (hsettled : s.Settled attempt outcome)
    (hresume : s.resume options now id request attempt outcome socket = some t) : t.Books options := by
  have hdone := h.backed.done hsettled
  have hreleased := h.settled hlookup hdone
  unfold State.resume at hresume
  dsimp only at hresume
  split at hresume
  · rw [← Option.some.inj hresume]
    exact hreleased.leave _
  · split_ifs at hresume
    · rw [← Option.some.inj hresume]
      exact hreleased.leave _
    · exact hreleased.proceed hresume
  · exact hreleased.proceed hresume
  · rename_i error _ _
    rw [← Option.some.inj hresume]
    have hsteady := retire_steady options now attempt.node attempt.client error s
    have hrequests : (s.retire options now attempt.node attempt.client error).requests = s.requests :=
      congrArg Accounts.requests hsteady.accounts
    have hthere : (s.retire options now attempt.node attempt.client error).requests.lookup id = some (request, attempt) := by
      rw [hrequests]
      exact hlookup
    exact ((h.steady hsteady).settled hthere (hdone.steady hsteady)).leave _

/-- Only a request that finds room is admitted. -/
theorem admission_room {route payload : Value} {requestOptions : Client.RequestOptions} {snapshot : Bytes} {timeoutMs : Nat}
    (h : s.admission options route payload requestOptions = .ok (snapshot, timeoutMs)) : s.pending < options.maxPending := by
  unfold admission at h
  simp only [bind_eq_ok, check_eq_ok] at h
  obtain ⟨-, -, -, h⟩ := h
  cases payload with
  | text value =>
      simp only [bind_eq_ok, check_eq_ok] at h
      obtain ⟨bytes, -, -, timeout, -, hroom, -⟩ := h
      exact not_le.mp hroom
  | bytes value =>
      simp only [bind_eq_ok, check_eq_ok] at h
      obtain ⟨bytes, -, -, timeout, -, hroom, -⟩ := h
      exact not_le.mp hroom
  | _ => cases h

theorem Books.request (h : s.Books options) {route payload : Value} {requestOptions : Client.RequestOptions}
    {socket : Client.Socket} (hrequest : s.request options now route payload requestOptions socket = some t) :
    t.Books options := by
  have hcalls : (s.called :: (s.requests.keys ++ s.answers.map Prod.fst)).Perm (List.range (s.called + 1)) := by
    rw [List.range_succ]
    exact (h.calls.cons s.called).trans (List.perm_append_singleton s.called _).symm
  unfold State.request at hrequest
  split at hrequest
  · rw [← Option.some.inj hrequest]
    refine ⟨h.counts.of_same rfl fun _ => rfl, h.backed.of_places rfl fun _ => rfl, ?_, h.keyed⟩
    rw [List.map_append, ← List.append_assoc]
    exact (List.perm_append_singleton s.called _).trans hcalls
  · rename_i snapshot timeoutMs hadmission
    have hroom := admission_room hadmission
    have hfresh : s.called ∉ s.requests.keys := by
      intro hmem
      have hknown := h.calls.mem_iff.mp (List.mem_append_left _ hmem)
      exact lt_irrefl _ (List.mem_range.mp hknown)
    have herase : s.requests.erase s.called = s.requests := AList.ext (List.kerase_of_notMem_keys hfresh)
    apply Between.proceed _ hrequest
    have hothers : ({ s with called := s.called + 1, pending := s.pending + 1 } : State).others s.called = s.waiting := by
      rw [others, waiting, waiting]
      dsimp only
      rw [herase]
    refine ⟨⟨?_, ?_, ?_⟩, ?_, ?_, h.keyed⟩
    · change s.pending + 1 = ((Table.size (s.requests.erase s.called) + 1 : Nat) : Int)
      rw [herase, h.counts.pool]
      rfl
    · exact hroom
    · rw [hothers]
      exact h.counts.nodes
    · rw [hothers]
      exact h.backed.of_places rfl fun _ => rfl
    · rw [List.erase_of_not_mem hfresh]
      exact hcalls

/-! ### Attempts to connect -/

theorem pendings_modifyNode {n : Nat} {f : NodeState → NodeState} (hpending : ∀ node, (f node).pending = node.pending)
    (s : State) (m : Nat) :
    ((s.modifyNode n f).nodes[m]?).map NodeState.pending = (s.nodes[m]?).map NodeState.pending := by
  rw [getElem?_modifyNode, Option.map_map]
  congr 1
  funext node
  change (if n = m then f node else node).pending = node.pending
  split_ifs
  · exact hpending node
  · rfl

/-- The attempt of a node leaves `Client.connect`, or ends. -/
theorem Books.modifyNode (h : s.Books options) {n : Nat} {f : NodeState → NodeState}
    (hclient : ∀ node, (f node).client = node.client) (hpending : ∀ node, (f node).pending = node.pending)
    (hdial : ∀ node attempt c, (f node).connecting = some ⟨attempt, .dialling c⟩ →
      node.connecting = some ⟨attempt, .dialling c⟩) : (s.modifyNode n f).Books options := by
  apply h.of_accounts (t := s.modifyNode n f) rfl
  · exact h.counts.of_same rfl (pendings_modifyNode hpending s)
  · apply h.backed.keeps
    refine evolves_of_same h.backed ?_ ?_ ?_
    · rfl
    · intro m c hc
      rw [clientOf_modifyNode hclient] at hc
      exact hc
    · exact fun m c => dials_modifyNode hdial

theorem ending_dials (node : NodeState) (attempt c : Nat) (h : (node.connecting.map fun connecting =>
    { connecting with dial := .ending }) = some ⟨attempt, .dialling c⟩) :
    node.connecting = some ⟨attempt, .dialling c⟩ := by
  obtain ⟨old, -, heq⟩ := Option.map_eq_some_iff.mp h
  exact Dial.noConfusion (congrArg Connecting.dial heq)

theorem Books.ending (h : s.Books options) (n : Nat) : (s.ending n).Books options :=
  h.modifyNode (fun _ => rfl) (fun _ => rfl) ending_dials

theorem Books.connectFailed (h : s.Books options) (random : ℚ) (n : Nat) (error : Failure) :
    (s.connectFailed options now random n error).Books options := by
  unfold State.connectFailed
  apply Books.ending
  exact h.modifyNode (fun _ => rfl) (fun _ => rfl) fun _ _ _ heq => heq

theorem modifyNode_modifyNode (n : Nat) (f g : NodeState → NodeState) (s : State) :
    (s.modifyNode n f).modifyNode n g = s.modifyNode n (g ∘ f) := by
  unfold State.modifyNode
  rw [List.modify_modify_eq]

/-- A node takes the client that it dialled. -/
theorem Books.taken (h : s.Books options) {n c : Nat} {connection : Connection} (hdials : s.Dials n c)
    (hget : s.connections[c]? = some connection) (hstage : connection.state.stage = .opened) {f : NodeState → NodeState}
    (hclient : ∀ node, (f node).client = some c) (hpending : ∀ node, (f node).pending = node.pending)
    (hdial : ∀ node attempt c, (f node).connecting = some ⟨attempt, .dialling c⟩ →
      node.connecting = some ⟨attempt, .dialling c⟩) : (s.modifyNode n f).Books options := by
  obtain ⟨connection', hget', hnode⟩ := h.backed.dialled n c hdials
  obtain rfl := Option.some.inj (hget.symm.trans hget')
  have hother : ∀ m, m ≠ n → (s.modifyNode n f).place m = s.place m := by
    intro m hm
    rw [place_modifyNode, place]
    simp [Ne.symm hm]
  apply h.of_accounts (t := s.modifyNode n f) rfl
  · exact h.counts.of_same rfl (pendings_modifyNode hpending s)
  · refine ⟨h.backed.clients, fun m d hd => ?_, fun m d hd => ?_, h.backed.placed, h.backed.owned, h.backed.admitted⟩
    · by_cases hm : m = n
      · obtain ⟨node, hthere, hnow⟩ := Option.bind_eq_some_iff.mp hd
        rw [getElem?_modifyNode, hm] at hthere
        obtain ⟨old, -, rfl⟩ := Option.map_eq_some_iff.mp hthere
        rw [if_pos rfl, hclient] at hnow
        rw [← Option.some.inj hnow, hm]
        exact ⟨connection, hget, hnode, hstage⟩
      · exact h.backed.opened m d (clientOf_of_place (hother m hm) ▸ hd)
    · exact h.backed.dialled m d (dials_modifyNode hdial hd)

theorem Books.welcome (h : s.Books options) {n c : Nat} {connection : Connection} (hdials : s.Dials n c)
    (hget : s.connections[c]? = some connection) (hstage : connection.state.stage = .opened) :
    (s.welcome options now n c).Books options := by
  unfold State.welcome
  split_ifs
  · exact (h.steady (closeClient_steady c s)).ending n
  · apply Books.steady _ (attachAll_steady _ _ _ _)
    rw [State.ending, modifyNode_modifyNode]
    exact h.taken hdials hget hstage (fun _ => rfl) (fun _ => rfl) ending_dials

/-- A new client waits for nothing. -/
theorem Backed.dial (h : s.Backed w) {n attempt : Nat} {connectOptions : Client.ConnectOptions}
    {checked : Client.Settings} (hchecked : Client.settings connectOptions = .ok checked)
    (hlimit : connectOptions.maxPendingRequests = .number 32)
    (hconnections : t.connections = s.connections ++ [⟨n, .new checked⟩])
    (hnodes : t.nodes = s.nodes.modify n fun node =>
      { node with connecting := some ⟨attempt, .dialling s.connections.length⟩ }) : t.Backed w := by
  have hnew : t.connections[s.connections.length]? = some ⟨n, .new checked⟩ := by
    rw [hconnections]
    simp
  have hold : ∀ (c : Nat) (connection : Connection), s.connections[c]? = some connection →
      t.connections[c]? = some connection := by
    intro c connection hget
    rw [hconnections, List.getElem?_append_left (List.getElem?_eq_some_iff.mp hget).1, hget]
  have hcases : ∀ (c : Nat) (connection : Connection), t.connections[c]? = some connection →
      s.connections[c]? = some connection ∨ connection = ⟨n, .new checked⟩ := by
    intro c connection hget
    by_cases hlt : c < s.connections.length
    · rw [hconnections, List.getElem?_append_left hlt] at hget
      exact Or.inl hget
    · rw [hconnections, List.getElem?_append_right (not_lt.mp hlt)] at hget
      exact Or.inr (List.mem_singleton.mp (List.mem_of_getElem? hget))
  have hmodified : t.nodes = (s.modifyNode n fun node =>
      { node with connecting := some ⟨attempt, .dialling s.connections.length⟩ }).nodes := hnodes
  refine ⟨fun c connection hget => ?_, fun m c hclient => ?_, fun m c hdials => ?_, fun other hmem => ?_,
    fun c connection hget hstage => ?_, h.admitted⟩
  · rcases hcases c connection hget with hbefore | rfl
    · exact h.clients c connection hbefore
    · refine ⟨Client.State.new_inv hchecked, Client.State.new_spared checked, ?_⟩
      have hgiven := (Client.settings_ok hchecked).maxPendingRequests.1
      rw [hlimit] at hgiven
      exact_mod_cast (Client.Value.number.inj hgiven).symm
  · have hsame : t.clientOf m = s.clientOf m := by
      rw [clientOf, hmodified]
      change (s.modifyNode n _).clientOf m = s.clientOf m
      apply clientOf_modifyNode
      exact fun _ => rfl
    obtain ⟨connection, hget, hrest⟩ := h.opened m c (hsame ▸ hclient)
    exact ⟨connection, hold c connection hget, hrest⟩
  · by_cases hm : n = m
    · obtain ⟨node, before, hthere, hconnecting⟩ := hdials
      rw [hmodified, getElem?_modifyNode] at hthere
      obtain ⟨old, -, rfl⟩ := Option.map_eq_some_iff.mp hthere
      rw [if_pos hm] at hconnecting
      have hc := Dial.dialling.inj (congrArg Connecting.dial (Option.some.inj hconnecting))
      exact ⟨_, hc ▸ hnew, hm⟩
    · have hbefore : s.Dials m c := by
        obtain ⟨node, before, hthere, hconnecting⟩ := hdials
        rw [hmodified, getElem?_modifyNode] at hthere
        simp only [hm, if_false, Option.map_id'] at hthere
        exact ⟨node, before, hthere, hconnecting⟩
      obtain ⟨connection, hget, hnode⟩ := h.dialled m c hbefore
      exact ⟨connection, hold c connection hget, hnode⟩
  · obtain ⟨connection, hget, hnode⟩ := h.placed other hmem
    exact ⟨connection, hold _ connection hget, hnode⟩
  · rcases hcases c connection hget with hbefore | rfl
    · exact h.owned c connection hbefore hstage
    · cases hstage

theorem Books.connectNode (h : s.Books options) (n : Nat) : (s.connectNode options n).Books options := by
  unfold State.connectNode
  cases s.nodes[n]? with
  | none => exact h
  | some node =>
      dsimp only
      split_ifs
      · exact h
      split
      · have hcounted : ({ s with attempts := s.attempts + 1 } : State).Books options := h.of_same rfl rfl rfl
        apply hcounted.modifyNode
        · exact fun _ => rfl
        · exact fun _ => rfl
        · intro before attempt c heq
          exact Dial.noConfusion (congrArg Connecting.dial (Option.some.inj heq))
      · rename_i checked hchecked
        apply h.of_accounts
        · rfl
        · apply h.counts.of_same
          · rfl
          · intro m
            apply pendings_modifyNode
            exact fun _ => rfl
        · exact h.backed.dial hchecked rfl rfl rfl

/-! ### Steps -/

theorem Books.tick (h : s.Books options) {sockets : Nat → Client.Socket} (htick : s.tick options now sockets = some t) :
    t.Books options := by
  apply tick_preserves _ _ _ _ _ h htick
  · exact fun u n c error hu => hu.steady (retire_steady _ _ n c error u)
  · exact fun u n hu => hu.connectNode n
  · exact fun u v n c socket hu hclient hidle hping => hu.ping hclient hidle hping
  · exact fun u n hu => hu.steady (attachAll_steady _ _ n u)
  · exact fun u hu => hu.of_same rfl rfl rfl

theorem Books.register (h : s.Books options) {route handler : Value} {handleOptions : Client.HandleOptions}
    (hregister : s.register options now route handler handleOptions = .ok t) : t.Books options := by
  unfold State.register at hregister
  simp only [bind_eq_ok, pure_eq_ok, check_eq_ok] at hregister
  obtain ⟨-, -, -, -, -, -, -, concurrency, -, queueLimit, -, rfl⟩ := hregister
  apply Books.steady _ (Steady.foldl (fun s n => attach_steady options now n _ s) _ _)
  exact h.of_same rfl rfl rfl

theorem Books.shutdown (h : s.Books options) : s.shutdown.Books options := by
  unfold State.shutdown
  split_ifs
  · exact h
  dsimp only
  generalize hstopping : ({ s with
    stopped := true
    timer := false
    closing := some (.clients s.services)
    nodes := _ } : State) = stopping
  have hbooks : stopping.Books options := by
    rw [← hstopping]
    apply h.of_accounts
    · rfl
    · apply h.counts.of_same
      · rfl
      · intro n
        rw [List.getElem?_map, Option.map_map]
        rfl
    · apply h.backed.of_places
      · rfl
      · intro n
        rw [place, place, List.getElem?_map, Option.map_map]
        rfl
  have hservices : stopping.Steady (s.services.foldl (fun s v => s.closeService v) stopping) :=
    Steady.foldl (fun s v => closeService_steady v s) _ _
  generalize s.services.foldl (fun s v => s.closeService v) stopping = left at hservices ⊢
  have hclients : left.Steady ((left.nodes.filterMap NodeState.client).foldl (fun s c => s.closeClient c) left) :=
    Steady.foldl (fun s c => closeClient_steady c s) _ _
  exact (hbooks.steady hservices).steady hclients

/-- The nodes lose their clients. -/
theorem Books.forget (h : s.Books options) (haccounts : t.accounts = s.accounts)
    (hconnections : t.connections = s.connections)
    (hnodes : t.nodes = s.nodes.map fun node : NodeState => { node with client := none }) : t.Books options := by
  have hget : ∀ n : Nat, t.nodes[n]? = (s.nodes[n]?).map fun node : NodeState => { node with client := none } := by
    intro n
    rw [hnodes, List.getElem?_map]
  apply h.of_accounts haccounts
  · apply h.counts.of_same (congrArg Accounts.pending haccounts)
    intro n
    rw [hget, Option.map_map]
    rfl
  · apply h.backed.keeps
    apply evolves_of_same h.backed hconnections
    · intro n c hclient
      rw [clientOf, hget, Option.bind_map] at hclient
      obtain ⟨node, -, hnone⟩ := Option.bind_eq_some_iff.mp hclient
      cases hnone
    · rintro n c ⟨node, attempt, hnode, hconnecting⟩
      rw [hget] at hnode
      obtain ⟨old, hold, rfl⟩ := Option.map_eq_some_iff.mp hnode
      exact ⟨old, attempt, hold, hconnecting⟩

theorem Books.step (h : s.Books options) {op : Op} (hstep : s.Step options now op t) : t.Books options := by
  cases op with
  | client c op =>
      obtain ⟨connection, state, hget, hambient, henabled, hnext, rfl⟩ := hstep
      apply h.update hget
      apply Client.State.next_follows (h.backed.clients c connection hget).1 henabled _ hnext
      rintro socket opcode body parse rfl
      exact hambient
  | service k op =>
      obtain ⟨handle, state, hget, hmoved, hrest⟩ := hstep
      have hfollow : (s.follow options now k handle state).Books options :=
        h.steady (follow_steady options now hget fun hsound => Service.State.step_kept hsound hmoved)
      split at hrest
      · exact hrest.elim
      · rw [hrest.2]
        exact hfollow
      · rw [hrest.2]
        exact hfollow
      · rw [hrest]
        exact hfollow
  | opened =>
      obtain ⟨-, -, rfl⟩ := hstep
      split_ifs
      · exact h.of_same rfl rfl rfl
      · apply Books.shutdown
        exact h.of_same rfl rfl rfl
  | connected n random =>
      obtain ⟨-, -, node, attempt, dial, hnode, hconnecting, hrest⟩ := hstep
      cases dial with
      | invalid reason =>
          rw [show t = _ from hrest]
          exact h.connectFailed random n reason
      | dialling c =>
          obtain ⟨connection, hget, ⟨hstage, rfl⟩ | ⟨-, -, rfl⟩⟩ := hrest
          · exact h.welcome ⟨node, attempt, hnode, hconnecting⟩ hget hstage
          · exact h.connectFailed random n _
      | ending => exact hrest.elim
  | connectEnd n =>
      obtain ⟨node, attempt, -, -, rfl⟩ := hstep
      apply h.modifyNode
      · exact fun _ => rfl
      · exact fun _ => rfl
      · intro node before c heq
        cases heq
  | notify n =>
      obtain ⟨node, c, -, -, -, rfl⟩ := hstep
      exact h.steady (notify_steady options now c s)
  | tick sockets => exact h.tick hstep.2.2
  | pinged n =>
      obtain ⟨ping, outcome, hlookup, hsettled, rfl⟩ := hstep
      exact h.pinged hlookup hsettled
  | ticked =>
      obtain ⟨-, -, rfl⟩ := hstep
      exact h.of_same rfl rfl rfl
  | request route payload requestOptions socket => exact h.request hstep.2
  | answered id socket =>
      obtain ⟨request, attempt, outcome, hlookup, hsettled, hresume⟩ := hstep
      exact h.resume hlookup hsettled hresume
  | handle route handler handleOptions =>
      obtain ⟨-, hrest⟩ := hstep
      split at hrest
      · rw [hrest]
        exact h
      · rename_i next hregister
        rw [hrest]
        exact h.register hregister
  | handled v =>
      obtain ⟨-, service, -, rfl⟩ := hstep
      have hwaited : ({ s with registering := s.registering.erase v } : State).Books options := h.of_same rfl rfl rfl
      split_ifs
      · exact hwaited.steady (closeService_steady v _)
      · exact hwaited
  | attached n v =>
      obtain ⟨service, a, -, -, -, hrest⟩ := hstep
      split at hrest
      · rw [hrest]
        exact h.steady (modifyService_steady _ _ _)
      · obtain ⟨handle, -, ⟨-, rfl⟩ | ⟨-, rfl⟩⟩ := hrest
        · exact h.steady (adopt_steady _ _ _ _ _)
        · exact h.steady (modifyService_steady _ _ _)
  | attachEnd n v =>
      obtain ⟨service, a, -, -, -, rfl⟩ := hstep
      exact h.steady (modifyService_steady _ _ _)
  | closeService v =>
      rw [show t = s.closeService v from hstep]
      exact h.steady (closeService_steady v s)
  | serviceClosed v =>
      obtain ⟨service, -, -, rfl⟩ := hstep
      exact h.steady (modifyService_steady _ _ _)
  | close =>
      obtain ⟨-, rfl⟩ := hstep
      exact h.shutdown
  | clientsClosed =>
      obtain ⟨services, -, -, rfl⟩ := hstep
      exact h.of_same rfl rfl rfl
  | connectingEnded =>
      obtain ⟨attempts, -, -, rfl⟩ := hstep
      exact h.of_same rfl rfl rfl
  | tickingEnded =>
      obtain ⟨-, -, rfl⟩ := hstep
      exact h.forget rfl rfl rfl

theorem new_books (options : Options) : (new options).Books options := by
  have hnode : ∀ (n : Nat) (node : NodeState), (new options).nodes[n]? = some node →
      node.client = none ∧ node.connecting = none ∧ node.pending = 0 := by
    intro n node hget
    obtain ⟨endpoint, -, rfl⟩ := List.mem_map.mp (List.mem_of_getElem? hget)
    exact ⟨rfl, rfl, rfl⟩
  refine ⟨⟨rfl, Int.natCast_nonneg _, fun n node hget => ?_⟩, ⟨nofun, fun n c hclient => ?_, fun n c hdials => ?_,
    nofun, nofun, nofun⟩, .refl _, nofun⟩
  · rw [(hnode n node hget).2.2]
    exact ⟨rfl, by decide⟩
  · obtain ⟨node, hget, hsome⟩ := Option.bind_eq_some_iff.mp hclient
    rw [(hnode n node hget).1] at hsome
    cases hsome
  · obtain ⟨node, attempt, hget, hconnecting⟩ := hdials
    rw [(hnode n node hget).2.1] at hconnecting
    cases hconnecting

theorem start_books (ns : List Nat) (h : s.Books options) :
    (ns.foldl (fun s n => s.connectNode options n) s).Books options := by
  induction ns generalizing s with
  | nil => exact h
  | cons n ns ih => exact ih (h.connectNode n)

end State

theorem books {options : Options} {s : State} (h : (machine options).Reachable s) : s.Books options := by
  apply h.invariant
  · intro s hs
    rw [show s = _ from hs]
    exact State.start_books _ (State.new_books options)
  · intro s event t _ hs hstep
    exact hs.step hstep

/-- What the counters of a cluster client count. -/
structure State.Accounted (options : Options) (s : State) : Prop where
  /-- The requests of the table are the calls that have no answer yet, and the other calls have one. -/
  calls : (s.requests.keys ++ s.answers.map Prod.fst).Perm (List.range s.called)
  pool : s.pending = s.requests.size ∧ s.pending ≤ options.maxPending
  nodes : ∀ (n : Nat) (node : NodeState), s.nodes[n]? = some node →
    node.pending = State.onNode n s.waiting ∧ node.pending ≤ 32
  clients : ∀ (n : Nat) (node : NodeState) (c : Nat) (connection : Connection), s.nodes[n]? = some node →
    node.client = some c → s.connections[c]? = some connection → connection.state.pending.size ≤ node.pending
  admitted : ∀ attempt ∈ s.waiting, ¬s.Settled attempt (.rejected .backpressure)
  idle : s.waiting = [] → s.pending = 0 ∧ ∀ node ∈ s.nodes, node.pending = 0

/-- **The counters count what is on its way.** The pool counts the requests that were admitted and have no answer, at
most as many as its options allow; a node counts the requests and pings on it, at most 32, and its client waits for
no more, so that it never refuses one for backpressure. When nothing is on its way every counter is 0. -/
theorem accounted (options : Options) (s : State) (h : (machine options).Reachable s) : s.Accounted options := by
  have hbooks := books h
  refine ⟨hbooks.calls, ⟨hbooks.counts.pool, hbooks.counts.limit⟩, hbooks.counts.nodes, ?_, ?_, ?_⟩
  · intro n node c connection hnode hclient hget
    have hsize := hbooks.backed.size_le (n := n) (by rw [State.clientOf, hnode]; exact hclient) hget
    rw [(hbooks.counts.nodes n node hnode).1]
    exact Int.ofNat_le.mpr hsize
  · intro attempt hmem hsettled
    unfold State.Settled at hsettled
    split at hsettled
    · rename_i reason hthrown
      exact hbooks.backed.admitted attempt hmem (by rw [hthrown, Client.Settlement.rejected.inj hsettled])
    · obtain ⟨connection, hget, hrejected⟩ := hsettled
      exact (hbooks.backed.clients _ connection hget).2.1.settled _ hrejected
  · intro hnone
    have hempty := (List.append_eq_nil_iff.mp hnone).1
    refine ⟨?_, fun node hmem => ?_⟩
    · rw [hbooks.counts.pool, Table.size, List.map_eq_nil_iff.mp hempty]
      rfl
    · obtain ⟨n, hnode⟩ := List.mem_iff_getElem?.mp hmem
      rw [(hbooks.counts.nodes n node hnode).1, hnone]
      rfl

namespace Sample

/-- A request is on its way. -/
def asked : State :=
  (ready.request options 0 (.text (Text.ofString "route")) (.text []) ⟨.undefined⟩ accepts).getD ready

theorem asked_reachable : (machine options).Reachable asked := by
  apply ready_reachable.step (l := ((0 : ℚ), Op.request (.text (Text.ofString "route")) (.text []) ⟨.undefined⟩ accepts))
  refine ⟨rfl, ?_⟩
  have hsent : (ready.request options 0 (.text (Text.ofString "route")) (.text []) ⟨.undefined⟩ accepts).isSome = true := by
    decide +kernel
  obtain ⟨t, ht⟩ := Option.isSome_iff_exists.mp hsent
  rw [asked, ht]
  rfl

end Sample

theorem accounted_asked : Sample.asked.Accounted Sample.options :=
  accounted Sample.options Sample.asked Sample.asked_reachable

end VeloBus.Cluster
