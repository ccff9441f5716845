import VeloBus.FetchReference
import VeloBus.ProtocolCodec

/-! A reader of a log that does not grow: each fetch moves the cursor or says that there is no more, and with
a budget for the largest record no fetch is refused. -/

namespace VeloBus

/-- The wire size of the largest record a batch can carry. -/
def maxRecordBytes : Nat := 263439

theorem Record.Legal.wireBytes_le {record : Record} (h : record.Legal) : record.wireBytes ≤ maxRecordBytes := by
  have htopic := validateTopic_size h.topic
  have hkey := h.key
  have hpayload := h.payload
  rw [maxPayload] at hpayload
  rw [Record.wireBytes, maxRecordBytes]
  omega

def largest : Record where
  topic := String.ofList (List.replicate 255 'a')
  key := String.ofList (List.replicate 1024 'a')
  payload := List.replicate 262144 0

theorem utf8ByteSize_replicate (n : Nat) : (String.ofList (List.replicate n 'a')).utf8ByteSize = n := by
  induction n with
  | zero => rfl
  | succ n ih =>
      rw [List.replicate_succ', String.ofList_append, String.utf8ByteSize_append, ih]
      rfl

theorem largest_legal : largest.Legal where
  topic := by decide +kernel
  key := (utf8ByteSize_replicate 1024).le
  payload := List.length_replicate.le

theorem wireBytes_largest : largest.wireBytes = maxRecordBytes := by
  have htopic : largest.topic.utf8ByteSize = 255 := utf8ByteSize_replicate 255
  have hkey : largest.key.utf8ByteSize = 1024 := utf8ByteSize_replicate 1024
  have hpayload : largest.payload.length = 262144 := List.length_replicate
  rw [Record.wireBytes, htopic, hkey, hpayload, maxRecordBytes]

namespace Store

/-- Fetches from cursor to cursor while there is more, at most `n` of them. -/
def drain : Nat → Store → Fetch → Except Error (List FetchResult)
  | 0, _, _ => .ok []
  | n + 1, store, request =>
    match store.fetch request with
    | (_, .error error) => .error error
    | (store, .ok result) =>
      if result.hasMore then
        match drain n store { request with after := result.cursor } with
        | .error error => .error error
        | .ok results => .ok (result :: results)
      else .ok [result]

section

variable {store next : Store} {request : Fetch} {result : FetchResult}

/-- Something is selected from every part with a match. -/
theorem found_eq_nil {seen : List Event} (hsorted : seen.Pairwise fun a b => a.sequence < b.sequence)
    (h : request.current seen = []) : request.found seen = [] := by
  cases hlatest : request.latest with
  | false => rwa [Fetch.current, if_neg (by simp [hlatest])] at h
  | true =>
      by_contra hne
      -- No match is newer than the last one.
      obtain ⟨before, event, hfound⟩ : ∃ before event, request.found seen = before ++ [event] :=
        ⟨_, _, (List.dropLast_append_getLast hne).symm⟩
      have hmatches : (request.found seen).Pairwise fun a b => a.sequence < b.sequence :=
        hsorted.sublist List.filter_sublist
      have hlast : event ∈ request.current seen := by
        rw [Fetch.mem_current hlatest, hfound]
        refine ⟨by simp, Or.inr ?_⟩
        intro later hlater _
        rw [hfound, List.pairwise_append] at hmatches
        rcases List.mem_append.mp hlater with hlater | hlater
        · exact Nat.le_of_lt (hmatches.2.2 later hlater event (by simp))
        · rw [List.mem_singleton.mp hlater]
      rw [h] at hlast
      cases hlast

theorem pairwise_part (hnumbered : store.Numbered) (request : Fetch) (n : Nat) :
    (store.part request n).Pairwise fun a b => a.sequence < b.sequence := by
  obtain ⟨records, hevents⟩ := hnumbered
  rw [part, hevents, drop_number, take_number]
  exact pairwise_number _ _

theorem part_succ {k : Nat} {event : Event} (h : store.events[request.after + k]? = some event) :
    store.part request (k + 1) = store.part request k ++ [event] := by
  rw [part, part, List.take_add_one, List.getElem?_drop, h]
  rfl

/-- Where the page is empty and the budget too small, the first match of the window does not fit. -/
theorem Limited.first (hnumbered : store.Numbered) {k : Nat} (hgreatest : IsGreatest (store.reach request) k)
    (h : store.Limited request k) :
    ∃ event, (request.found (store.part request (store.window request))).head? = some event ∧
      request.maxBytes < event.record.wireBytes := by
  obtain ⟨hlt, hempty, event, hevent, hlarge⟩ := h
  have hnone := found_eq_nil (pairwise_part hnumbered request k) hempty
  -- An event that does not match would fit.
  have hmatches : request.matches event.record = true := by
    by_contra hnot
    rw [Bool.not_eq_true] at hnot
    have hmem : k + 1 ∈ store.reach request := by
      refine ⟨hlt, ?_⟩
      intro n hone hn
      by_cases hlast : n = k + 1
      · rw [hlast, part_succ hevent, Fetch.current_concat_of_not hnot, hempty]
        exact ⟨Nat.zero_le _, Nat.zero_le _⟩
      · exact hgreatest.1.2 n hone (by omega)
    exact absurd (hgreatest.2 hmem) (Nat.not_succ_le_self k)
  refine ⟨event, ?_, hlarge⟩
  have hprefix : store.part request (k + 1) <+: store.part request (store.window request) :=
    List.take_prefix_take_left hlt
  obtain ⟨rest, hrest⟩ := hprefix
  rw [← hrest, part_succ hevent, Fetch.found_append, Fetch.found_concat_of_match hmatches, hnone]
  rfl

/-- A fetch from a cursor within the log fails only for an event over the budget. -/
theorem fetch_error (hnumbered : store.Numbered) (hafter : request.after ≤ store.lastSequence) {error : Error}
    (h : store.fetch request = (next, .error error)) :
    error.code = Code.limit ∧
      ∃ event, (request.found (store.part request (store.window request))).head? = some event ∧
        request.maxBytes < event.record.wireBytes := by
  obtain ⟨k, hgreatest, hrefused, hanswered⟩ := fetch_answer hnumbered hafter
  by_cases hlimited : store.Limited request k
  · rw [hrefused hlimited] at h
    cases h
    exact ⟨rfl, hlimited.first hnumbered hgreatest⟩
  · rw [hanswered hlimited] at h
    cases h

/-- With a budget for the largest record no fetch fails. -/
theorem fetch_succeeds (hnumbered : store.Numbered) (hlegal : ∀ event ∈ store.events, event.record.Legal)
    (hafter : request.after ≤ store.lastSequence) (hbytes : maxRecordBytes ≤ request.maxBytes) :
    ∃ next result, store.fetch request = (next, .ok result) := by
  rcases hfetch : store.fetch request with ⟨next, error | result⟩
  · exfalso
    obtain ⟨-, event, hfirst, hlarge⟩ := fetch_error hnumbered hafter hfetch
    have hmem : event ∈ store.events := by
      have hfound := (Fetch.mem_found.mp (List.mem_of_head? hfirst)).1
      exact List.mem_of_mem_drop (List.mem_of_mem_take hfound)
    have hsmall := (hlegal event hmem).wireBytes_le
    omega
  · exact ⟨next, result, rfl⟩

theorem events_of_fetch (h : store.fetch request = (next, .ok result)) : next.events = store.events := by
  obtain ⟨fetched, coalesced, hstore⟩ := fetch_counters store request
  rw [h] at hstore
  have hevents := congrArg Store.events hstore
  exact hevents

/-- The fetches to the end of the log, one for each remaining event at most. -/
theorem drain_ends {remaining : Nat} (hnumbered : store.Numbered)
    (hlegal : ∀ event ∈ store.events, event.record.Legal) (hlimit : 1 ≤ request.limit)
    (hbytes : maxRecordBytes ≤ request.maxBytes) (hafter : request.after < store.lastSequence)
    (hremaining : store.lastSequence - request.after ≤ remaining) :
    ∃ results, results.length ≤ remaining ∧ results.getLast?.map FetchResult.hasMore = some false ∧
      ∀ n, remaining ≤ n → store.drain n request = .ok results := by
  induction remaining generalizing store request with
  | zero => omega
  | succ remaining ih =>
      obtain ⟨next, result, hfetch⟩ := fetch_succeeds hnumbered hlegal (Nat.le_of_lt hafter) hbytes
      have hfetched := fetch_eq_ok hnumbered hfetch
      have hevents := events_of_fetch hfetch
      have hlast : next.lastSequence = store.lastSequence := congrArg List.length hevents
      cases hmore : result.hasMore with
      | false =>
          refine ⟨[result], Nat.succ_le_succ (Nat.zero_le _), by rw [← hmore]; rfl, ?_⟩
          intro n hn
          cases n with
          | zero => omega
          | succ n =>
              rw [drain, hfetch]
              simp only [hmore]
              rfl
      | true =>
          have hmoved := fetch_progress hnumbered hlimit hfetch hmore
          have hbefore : result.cursor < store.lastSequence := by
            have hdecide := hfetched.hasMore
            rw [hmore] at hdecide
            exact of_decide_eq_true hdecide.symm
          have hnumbered' : next.Numbered := by
            obtain ⟨records, hrecords⟩ := hnumbered
            exact ⟨records, hevents.trans hrecords⟩
          have hlimit' : 1 ≤ ({ request with after := result.cursor } : Fetch).limit := hlimit
          obtain ⟨results, hlength, hends, hdrain⟩ := ih hnumbered' (hevents ▸ hlegal) hlimit' hbytes
            (hlast ▸ hbefore) (show next.lastSequence - result.cursor ≤ remaining by omega)
          refine ⟨result :: results, Nat.succ_le_succ hlength, ?_, ?_⟩
          · cases results with
            | nil => cases hends
            | cons second rest => exact hends
          · intro n hn
            cases n with
            | zero => omega
            | succ n =>
                rw [drain, hfetch]
                simp only [hmore, if_true, hdrain n (by omega)]

/-- **Fetching makes progress**: a page with more to come moves the cursor, only an event over the budget is
refused, and a reader whose budget allows every record comes to the end of the log. -/
theorem fetch_advances (hnumbered : store.Numbered) (hlegal : ∀ event ∈ store.events, event.record.Legal)
    (hlimit : 1 ≤ request.limit) (hafter : request.after ≤ store.lastSequence) :
    (∀ next result, store.fetch request = (next, .ok result) → result.hasMore = true →
      request.after < result.cursor) ∧
    (∀ next error, store.fetch request = (next, .error error) → error.code = Code.limit ∧
      ∃ event, (request.found (store.part request (store.window request))).head? = some event ∧
        request.maxBytes < event.record.wireBytes) ∧
    ((∀ record : Record, record.Legal → record.wireBytes ≤ 263439) ∧
      (∃ record : Record, record.Legal ∧ record.wireBytes = 263439) ∧ 263439 < maxFetchBytes) ∧
    (263439 ≤ request.maxBytes →
      (∃ next result, store.fetch request = (next, .ok result) ∧
        (request.after = store.lastSequence → result.hasMore = false)) ∧
      (request.after < store.lastSequence →
        ∃ results, results.length ≤ store.lastSequence - request.after ∧
          results.getLast?.map FetchResult.hasMore = some false ∧
          ∀ n, store.lastSequence - request.after ≤ n → store.drain n request = .ok results)) := by
  refine ⟨?_, ?_, ⟨fun record => Record.Legal.wireBytes_le, ⟨largest, largest_legal, wireBytes_largest⟩, by decide⟩, ?_⟩
  · intro next result hfetch hmore
    exact fetch_progress hnumbered hlimit hfetch hmore
  · intro next error hfetch
    exact fetch_error hnumbered hafter hfetch
  · intro hbytes
    refine ⟨?_, fun hbefore => drain_ends hnumbered hlegal hlimit hbytes hbefore le_rfl⟩
    obtain ⟨next, result, hfetch⟩ := fetch_succeeds hnumbered hlegal hafter hbytes
    refine ⟨next, result, hfetch, ?_⟩
    intro hend
    have hfetched := fetch_eq_ok hnumbered hfetch
    rw [hfetched.hasMore, decide_eq_false_iff_not, not_lt, ← hend]
    exact hfetched.start

/-- Three records read one at a time. -/
theorem fetch_advances_sample :
    ∃ results, results.length ≤ 3 ∧ results.getLast?.map FetchResult.hasMore = some false ∧
      ∀ n, 3 ≤ n → sampleLog.drain n ⟨"*", 0, 1, 263439, false⟩ = .ok results := by
  have hnumbered : sampleLog.Numbered := ⟨_, rfl⟩
  have hlegal : ∀ event ∈ sampleLog.events, event.record.Legal := by
    have hall : ∀ event ∈ sampleLog.events, validateTopic event.record.topic false = .ok () ∧
        event.record.key.utf8ByteSize ≤ 1024 ∧ event.record.payload.length ≤ maxPayload := by decide
    intro event hmem
    obtain ⟨htopic, hkey, hpayload⟩ := hall event hmem
    exact ⟨htopic, hkey, hpayload⟩
  have hlimit : 1 ≤ (⟨"*", 0, 1, 263439, false⟩ : Fetch).limit := le_rfl
  exact ((fetch_advances hnumbered hlegal hlimit (Nat.zero_le _)).2.2.2 le_rfl).2 (by decide)

end

end Store

end VeloBus
