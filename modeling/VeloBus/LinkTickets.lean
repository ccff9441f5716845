import VeloBus.LinkModel
import VeloBus.LinkServer

/-! Every identifier in flight between a client and its connection is in one place: with a request that the
loop has not taken, in the set of the connection, or with a response that the client has not read; while the
client is open it waits for each of them. -/

namespace VeloBus.Link

variable {ρ : Type}

/-! ### Identifiers in flight -/

/-- The client waits for the response to a request. -/
def Waits (client : Client.State ρ) (id opcode : Nat) : Prop :=
  ∃ pending, client.pending.lookup id = some pending ∧ pending.opcode = opcode

/-- The requests the loop has not taken and the responses the client has not read. `P` is what holds of each
request, `R` of each response and the opcode of its request. -/
structure Tickets (P : Frame → Prop) (R : Nat → Frame → Prop) (client : Client.State ρ)
    (server : Connection.State) (requests responses : List Frame) : Prop where
  legal : ∀ frame ∈ requests ++ responses, frame.Legal
  unique : ((requests ++ responses).map Frame.requestId).Nodup
  apart : ∀ frame ∈ requests ++ responses, frame.requestId ∉ server.ids
  room : (requests ++ responses).length + server.ids.card ≤ client.settings.maxPendingRequests
  asks : ∀ frame ∈ requests, P frame
  asked : client.closed = false → ∀ frame ∈ requests, Waits client frame.requestId frame.opcode
  owed : client.closed = false → ∀ index frame, server.Owes index frame →
    Waits client frame.requestId frame.opcode
  answered : client.closed = false → ∀ frame ∈ responses, ∃ opcode, Waits client frame.requestId opcode ∧
    (frame.opcode = opcode ||| 128 ∨ frame.opcode = 255) ∧ R opcode frame

namespace Tickets

variable {P P' : Frame → Prop} {R R' : Nat → Frame → Prop} {client client' : Client.State ρ} {server server' : Connection.State} {requests responses : List Frame}

/-- Requests may change places, and be lost. -/
theorem shrink (h : Tickets P R client server requests responses) {requests' : List Frame}
    (hrequests : requests'.Subperm requests) (hids : server'.ids = server.ids)
    (howes : ∀ index frame, server'.Owes index frame → server.Owes index frame) :
    Tickets P R client server' requests' responses := by
  have hflight : (requests' ++ responses).Subperm (requests ++ responses) := hrequests.append (.refl _)
  exact {
    legal := fun frame hmem => h.legal frame (hflight.subset hmem)
    unique := by
      obtain ⟨kept, hperm, hsub⟩ := hflight
      exact (hperm.map Frame.requestId).nodup_iff.mp (h.unique.sublist (hsub.map _))
    apart := fun frame hmem => by
      rw [hids]
      exact h.apart frame (hflight.subset hmem)
    room := by
      rw [hids]
      exact (Nat.add_le_add_right hflight.length_le _).trans h.room
    asks := fun frame hmem => h.asks frame (hrequests.subset hmem)
    asked := fun hopen frame hmem => h.asked hopen frame (hrequests.subset hmem)
    owed := fun hopen index frame hindex => h.owed hopen index frame (howes index frame hindex)
    answered := h.answered }

/-- Nothing is said about a client that is closed. -/
theorem of_client (h : Tickets P R client server requests responses)
    (hsettings : client'.settings = client.settings)
    (hpending : client'.closed = false → client.closed = false ∧ client'.pending = client.pending) :
    Tickets P R client' server requests responses := by
  have hwaits : client'.closed = false → ∀ {id opcode}, Waits client id opcode → Waits client' id opcode := by
    intro hopen id opcode hwaits
    unfold Waits
    rw [(hpending hopen).2]
    exact hwaits
  exact { h with
    room := by
      rw [hsettings]
      exact h.room
    asked := fun hopen frame hmem => hwaits hopen (h.asked (hpending hopen).1 frame hmem)
    owed := fun hopen index frame howes => hwaits hopen (h.owed (hpending hopen).1 index frame howes)
    answered := fun hopen frame hmem => by
      obtain ⟨opcode, hwait, hopcode⟩ := h.answered (hpending hopen).1 frame hmem
      exact ⟨opcode, hwaits hopen hwait, hopcode⟩ }

/-- The loop takes a request. -/
theorem accept {frame : Frame} (h : Tickets P R client server (frame :: requests) responses)
    (hids : server'.ids = insert frame.requestId server.ids)
    (howes : ∀ index frame', server'.Owes index frame' → server.Owes index frame' ∨ frame' = frame) :
    Tickets P R client server' requests responses := by
  have hunique := h.unique
  rw [List.cons_append, List.map_cons, List.nodup_cons] at hunique
  have hfree : frame.requestId ∉ server.ids := h.apart frame List.mem_cons_self
  exact {
    legal := fun frame' hmem => h.legal frame' (List.mem_cons_of_mem _ hmem)
    unique := hunique.2
    apart := fun frame' hmem => by
      rw [hids, Finset.mem_insert, not_or]
      refine ⟨fun heq => hunique.1 ?_, h.apart frame' (List.mem_cons_of_mem _ hmem)⟩
      rw [← heq]
      exact List.mem_map_of_mem hmem
    room := by
      have hroom := h.room
      rw [hids, Finset.card_insert_of_notMem hfree]
      rw [List.cons_append, List.length_cons] at hroom
      omega
    asks := fun frame' hmem => h.asks frame' (List.mem_cons_of_mem _ hmem)
    asked := fun hopen frame' hmem => h.asked hopen frame' (List.mem_cons_of_mem _ hmem)
    owed := fun hopen index frame' hindex => by
      rcases howes index frame' hindex with hold | rfl
      · exact h.owed hopen index frame' hold
      · exact h.asked hopen frame' List.mem_cons_self
    answered := h.answered }

/-- A response goes to the stream. -/
theorem retire (h : Tickets P R client server requests responses) {response : Frame} (hlegal : response.Legal)
    (hmem : response.requestId ∈ server.ids) (hids : server'.ids = server.ids.erase response.requestId)
    (howes : ∀ index frame, server'.Owes index frame → server.Owes index frame)
    (hanswers : client.closed = false → ∃ opcode, Waits client response.requestId opcode ∧
      (response.opcode = opcode ||| 128 ∨ response.opcode = 255) ∧ R opcode response) :
    Tickets P R client server' requests (responses ++ [response]) := by
  have hfresh : response.requestId ∉ (requests ++ responses).map Frame.requestId := by
    intro hmem'
    obtain ⟨frame, hframe, heq⟩ := List.mem_map.mp hmem'
    exact h.apart frame hframe (heq ▸ hmem)
  exact {
    legal := fun frame hframe => by
      rw [← List.append_assoc, List.mem_append, List.mem_singleton] at hframe
      rcases hframe with hold | rfl
      · exact h.legal frame hold
      · exact hlegal
    unique := by
      rw [← List.append_assoc, List.map_append]
      apply h.unique.append (List.nodup_singleton _)
      intro id hid hid'
      rw [List.mem_singleton.mp hid'] at hid
      exact hfresh hid
    apart := fun frame hframe => by
      rw [← List.append_assoc, List.mem_append, List.mem_singleton] at hframe
      rw [hids, Finset.mem_erase, not_and]
      rcases hframe with hold | rfl
      · exact fun _ => h.apart frame hold
      · exact fun hne => absurd rfl hne
    room := by
      have hroom := h.room
      have hcard := Finset.card_erase_add_one hmem
      rw [hids, ← List.append_assoc, List.length_append, List.length_singleton]
      omega
    asks := h.asks
    asked := h.asked
    owed := fun hopen index frame hindex => h.owed hopen index frame (howes index frame hindex)
    answered := fun hopen frame hframe => by
      rcases List.mem_append.mp hframe with hold | hnew
      · exact h.answered hopen frame hold
      · rw [List.mem_singleton.mp hnew]
        exact hanswers hopen }

/-- A request is answered at once. -/
theorem reply {frame response : Frame} (h : Tickets P R client server (frame :: requests) responses)
    (hlegal : response.Legal) (hid : response.requestId = frame.requestId)
    (hopcode : response.opcode = frame.opcode ||| 128 ∨ response.opcode = 255) (hR : R frame.opcode response)
    (hids : server'.ids = server.ids)
    (howes : ∀ index frame, server'.Owes index frame → server.Owes index frame) :
    Tickets P R client server' requests (responses ++ [response]) := by
  have hperm : (requests ++ (responses ++ [response])).Perm (response :: (requests ++ responses)) := by
    rw [← List.append_assoc]
    exact List.perm_append_singleton _ _
  have hunique := h.unique
  rw [List.cons_append, List.map_cons, ← hid] at hunique
  exact {
    legal := fun frame' hmem => by
      rcases List.mem_cons.mp (hperm.mem_iff.mp hmem) with rfl | hold
      · exact hlegal
      · exact h.legal frame' (List.mem_cons_of_mem _ hold)
    unique := (hperm.map Frame.requestId).nodup_iff.mpr hunique
    apart := fun frame' hmem => by
      rw [hids]
      rcases List.mem_cons.mp (hperm.mem_iff.mp hmem) with rfl | hold
      · rw [hid]
        exact h.apart frame List.mem_cons_self
      · exact h.apart frame' (List.mem_cons_of_mem _ hold)
    room := by
      rw [hids, hperm.length_eq]
      exact h.room
    asks := fun frame' hmem => h.asks frame' (List.mem_cons_of_mem _ hmem)
    asked := fun hopen frame' hmem => h.asked hopen frame' (List.mem_cons_of_mem _ hmem)
    owed := fun hopen index frame' hindex => h.owed hopen index frame' (howes index frame' hindex)
    answered := fun hopen frame' hmem => by
      rcases List.mem_append.mp hmem with hold | hnew
      · exact h.answered hopen frame' hold
      · rw [List.mem_singleton.mp hnew, hid]
        exact ⟨frame.opcode, h.asked hopen frame List.mem_cons_self, hopcode, hR⟩ }

theorem Waits.mem {id opcode : Nat} (h : Waits client id opcode) : id ∈ client.pending.keys := by
  obtain ⟨pending, hlookup, -⟩ := h
  exact AList.lookup_isSome.mp (hlookup ▸ rfl)

/-- An open client waits for everything in flight. -/
theorem size_le (h : Tickets P R client server requests responses) (hopen : client.closed = false)
    (hids : ∀ id ∈ server.ids, ∃ index frame, server.Owes index frame ∧ frame.requestId = id) :
    (requests ++ responses).length + server.ids.card ≤ client.pending.size := by
  have hnodup : ((requests ++ responses).map Frame.requestId ++ server.ids.toList).Nodup := by
    apply h.unique.append server.ids.nodup_toList
    intro id hid hid'
    obtain ⟨frame, hframe, rfl⟩ := List.mem_map.mp hid
    exact h.apart frame hframe (Finset.mem_toList.mp hid')
  have hsub : (requests ++ responses).map Frame.requestId ++ server.ids.toList ⊆ client.pending.keys := by
    intro id hid
    rcases List.mem_append.mp hid with hflight | hserver
    · obtain ⟨frame, hframe, rfl⟩ := List.mem_map.mp hflight
      rcases List.mem_append.mp hframe with hrequest | hresponse
      · exact Waits.mem (h.asked hopen frame hrequest)
      · obtain ⟨opcode, hwaits, -⟩ := h.answered hopen frame hresponse
        exact Waits.mem hwaits
    · obtain ⟨index, frame, howes, rfl⟩ := hids id (Finset.mem_toList.mp hserver)
      exact Waits.mem (h.owed hopen index frame howes)
  have hlength := (List.subperm_of_subset hnodup hsub).length_le
  rw [List.length_append, List.length_map, Finset.length_toList, AList.keys, List.keys, List.length_map] at hlength
  exact hlength

/-- The client sends a request. -/
theorem issue (h : Tickets P R client server requests responses) (hopen : client.closed = false)
    (hids : ∀ id ∈ server.ids, ∃ index frame, server.Owes index frame ∧ frame.requestId = id)
    {frame : Frame} {pending : Client.Pending ρ} (hlegal : frame.Legal)
    (hfree : frame.requestId ∉ client.pending.keys) (hopcode : pending.opcode = frame.opcode)
    (hpending : client'.pending = client.pending.insert frame.requestId pending)
    (hsettings : client'.settings = client.settings)
    (hsize : client.pending.size < client.settings.maxPendingRequests) (hP : P frame) : Tickets P R client' server (frame :: requests) responses := by
  have hwaits : ∀ {id opcode}, Waits client id opcode → Waits client' id opcode := by
    intro id opcode hwait
    have hne : id ≠ frame.requestId := fun heq => hfree (heq ▸ Waits.mem hwait)
    unfold Waits
    rw [hpending, Table.lookup_insert_ite, if_neg hne]
    exact hwait
  have hnew : Waits client' frame.requestId frame.opcode := by
    refine ⟨pending, ?_, hopcode⟩
    rw [hpending, Table.lookup_insert_ite, if_pos rfl]
  have hflight : ∀ frame' ∈ requests ++ responses, frame'.requestId ≠ frame.requestId := by
    intro frame' hmem heq
    rcases List.mem_append.mp hmem with hrequest | hresponse
    · exact hfree (heq ▸ Waits.mem (h.asked hopen frame' hrequest))
    · obtain ⟨opcode, hwait, -⟩ := h.answered hopen frame' hresponse
      exact hfree (heq ▸ Waits.mem hwait)
  exact {
    legal := fun frame' hmem => by
      rcases List.mem_cons.mp hmem with rfl | hold
      · exact hlegal
      · exact h.legal frame' hold
    unique := by
      rw [List.cons_append, List.map_cons, List.nodup_cons]
      refine ⟨fun hmem => ?_, h.unique⟩
      obtain ⟨frame', hframe, heq⟩ := List.mem_map.mp hmem
      exact hflight frame' hframe heq
    apart := fun frame' hmem => by
      rcases List.mem_cons.mp hmem with rfl | hold
      · intro hid
        obtain ⟨index, owed, howes, heq⟩ := hids _ hid
        exact hfree (heq ▸ Waits.mem (h.owed hopen index owed howes))
      · exact h.apart frame' hold
    room := by
      have hle := h.size_le hopen hids
      rw [hsettings, List.cons_append, List.length_cons]
      omega
    asks := fun frame' hmem => by
      rcases List.mem_cons.mp hmem with rfl | hold
      · exact hP
      · exact h.asks frame' hold
    asked := fun _ frame' hmem => by
      rcases List.mem_cons.mp hmem with rfl | hold
      · exact hnew
      · exact hwaits (h.asked hopen frame' hold)
    owed := fun _ index frame' howes => hwaits (h.owed hopen index frame' howes)
    answered := fun _ frame' hmem => by
      obtain ⟨opcode, hwait, hresponse⟩ := h.answered hopen frame' hmem
      exact ⟨opcode, hwaits hwait, hresponse⟩ }

/-- The client reads a response. -/
theorem settle {response : Frame} (h : Tickets P R client server requests (response :: responses))
    (hids : ∀ index frame, server.Owes index frame → frame.requestId ∈ server.ids)
    (hsettings : client'.settings = client.settings)
    (hpending : client'.closed = false → client.closed = false ∧
      client'.pending = client.pending.erase response.requestId) : Tickets P R client' server requests responses := by
  have hperm : (requests ++ response :: responses).Perm (response :: (requests ++ responses)) := List.perm_middle
  have hunique := (hperm.map Frame.requestId).nodup_iff.mp h.unique
  rw [List.map_cons, List.nodup_cons] at hunique
  have hold : ∀ frame ∈ requests ++ responses, frame ∈ requests ++ response :: responses := by
    intro frame hmem
    exact hperm.mem_iff.mpr (List.mem_cons_of_mem _ hmem)
  have hkept : client'.closed = false → ∀ {id opcode}, id ≠ response.requestId → Waits client id opcode →
      Waits client' id opcode := by
    intro hopen id opcode hne hwait
    unfold Waits
    rw [(hpending hopen).2, Table.lookup_erase_ite, if_neg hne]
    exact hwait
  have hne : ∀ frame ∈ requests ++ responses, frame.requestId ≠ response.requestId := by
    intro frame hmem heq
    exact hunique.1 (heq ▸ List.mem_map_of_mem hmem)
  exact {
    legal := fun frame hmem => h.legal frame (hold frame hmem)
    unique := hunique.2
    apart := fun frame hmem => h.apart frame (hold frame hmem)
    room := by
      have hroom := h.room
      rw [hperm.length_eq, List.length_cons] at hroom
      rw [hsettings]
      omega
    asks := h.asks
    asked := fun hopen frame hmem =>
      hkept hopen (hne frame (List.mem_append_left _ hmem)) (h.asked (hpending hopen).1 frame hmem)
    owed := fun hopen index frame howes => by
      apply hkept hopen _ (h.owed (hpending hopen).1 index frame howes)
      intro heq
      apply h.apart response (hperm.mem_iff.mpr List.mem_cons_self)
      rw [← heq]
      exact hids index frame howes
    answered := fun hopen frame hmem => by
      obtain ⟨opcode, hwait, hopcode⟩ := h.answered (hpending hopen).1 frame (List.mem_cons_of_mem _ hmem)
      exact ⟨opcode, hkept hopen (hne frame (List.mem_append_right _ hmem)) hwait, hopcode⟩ }

theorem imp (h : Tickets P R client server requests responses) (hP : ∀ frame ∈ requests, P frame → P' frame)
    (hR : ∀ frame ∈ responses, ∀ opcode, R opcode frame → R' opcode frame) :
    Tickets P' R' client server requests responses :=
  { h with
    asks := fun frame hmem => hP frame hmem (h.asks frame hmem)
    answered := fun hopen frame hmem => by
      obtain ⟨opcode, hwait, hopcode, hanswer⟩ := h.answered hopen frame hmem
      exact ⟨opcode, hwait, hopcode, hR frame hmem opcode hanswer⟩ }

end Tickets

end VeloBus.Link
