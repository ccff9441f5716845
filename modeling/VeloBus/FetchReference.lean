import VeloBus.FetchBounds
import Mathlib.Order.Bounds.Basic

/-! The fetch loop against its definition: the longest part of the window all of whose starts a page can
hold. The loop keeps its selection as the pages of this definition change, up to the order. -/

namespace VeloBus

namespace Fetch

/-- The events of a part of the log that the request asks for: in mode `latest` those that no later event
has the topic and the key of. -/
def current (request : Fetch) (events : List Event) : List Event :=
  if request.latest then
    (request.found events).filter fun event => event.record.key = "" ∨
      ∀ later ∈ request.found events, slot later = slot event → later.sequence ≤ event.sequence
  else request.found events

/-- The events a page can hold. -/
def Allows (request : Fetch) (events : List Event) : Prop :=
  events.length ≤ request.limit ∧
    (events.map fun event => event.record.wireBytes).sum ≤ request.maxBytes

section

variable {request : Fetch} {seen selected : List Event} {page : Page} {event : Event}

theorem mem_current (hlatest : request.latest = true) :
    event ∈ request.current seen ↔ event ∈ request.found seen ∧ (event.record.key = "" ∨
      ∀ later ∈ request.found seen, slot later = slot event → later.sequence ≤ event.sequence) := by
  rw [current, if_pos hlatest, List.mem_filter, decide_eq_true_eq]

theorem current_sublist (request : Fetch) (seen : List Event) : (request.current seen).Sublist seen := by
  rw [current]
  split_ifs
  · exact List.filter_sublist.trans List.filter_sublist
  · exact List.filter_sublist

theorem current_concat_of_not (hmatches : request.matches event.record = false) :
    request.current (seen ++ [event]) = request.current seen := by
  rw [current, current, found_concat_of_not hmatches]

/-- A summary without rivals is what the definition selects. -/
theorem Merged.perm_current (h : Merged request seen selected)
    (hsorted : seen.Pairwise fun a b => a.sequence < b.sequence)
    (hsingle : request.latest = true → selected.Pairwise fun a b => ¬Rivals a b)
    (hall : request.latest = false → selected = request.found seen) :
    selected.Perm (request.current seen) := by
  cases hlatest : request.latest with
  | false =>
      rw [current, if_neg (by simp [hlatest]), hall hlatest]
  | true =>
      have hseen : seen.Nodup := hsorted.imp fun hlt heq => by
        rw [heq] at hlt
        exact lt_irrefl _ hlt
      apply (List.perm_ext_iff_of_nodup h.nodup (hseen.sublist (current_sublist request seen))).mpr
      intro a
      rw [mem_current hlatest]
      constructor
      · intro ha
        refine ⟨h.summary.subset ha, ?_⟩
        by_cases hkey : a.record.key = ""
        · exact Or.inl hkey
        right
        intro b hb hslot
        by_contra hlater
        rw [not_le] at hlater
        -- The newest event of the slot that is kept is not `a`.
        have hrival : ∃ c ∈ selected, slot c = slot a ∧ a.sequence < c.sequence := by
          by_cases hkept : b ∈ selected
          · exact ⟨b, hkept, hslot, hlater⟩
          · obtain ⟨c, hc, hslot', hlt⟩ := h.summary.superseded b hb hkept
            exact ⟨c, hc, hslot'.trans hslot, hlater.trans hlt⟩
        obtain ⟨c, hc, hslot', hlt⟩ := hrival
        have hne : a ≠ c := by
          intro heq
          rw [heq] at hlt
          exact lt_irrefl _ hlt
        have hsymm : Std.Symm fun x y : Event => ¬Rivals x y := ⟨fun x y hnot hrivals => hnot hrivals.symm⟩
        exact (hsingle hlatest).forall ha hc hne ⟨hkey, hslot'.symm⟩
      · intro ha
        obtain ⟨hfound, hkeyless | hlast⟩ := ha
        · exact h.keyless a hfound hkeyless
        · by_contra hnot
          obtain ⟨b, hb, hslot, hlt⟩ := h.summary.superseded a hfound hnot
          exact absurd (hlast b (h.summary.subset hb) hslot) (not_le.mpr hlt)

end

end Fetch

namespace Store

section

variable {request : Fetch} {records : List Record} {seen rest : List Event} {event : Event} {page : Page}

/-- The loop after the events seen: its page holds what the definition selects, and every start of them
fits. -/
structure Walked (request : Fetch) (seen : List Event) (page : Page) : Prop where
  scanned : Scanned request seen page
  indexed : Fetch.Indexed request page
  sorted : seen.Pairwise fun a b => a.sequence < b.sequence
  coalesced : page.coalesced + page.selected.length = (request.found seen).length

theorem Walked.perm (h : Walked request seen page) : page.selected.Perm (request.current seen) :=
  h.scanned.merged.perm_current h.sorted (fun hlatest => h.indexed.pairwise hlatest) h.scanned.all

theorem Walked.allows_iff (h : Walked request seen page) :
    request.Allows (request.current seen) ↔
      page.selected.length ≤ request.limit ∧ page.wireBytes ≤ request.maxBytes := by
  rw [Fetch.Allows, h.perm.length_eq, h.scanned.sound.bytes, (h.perm.map _).sum_eq]

theorem sorted_of_split (hwindow : number (request.after + 1) records = seen ++ event :: rest) :
    (seen ++ [event]).Pairwise fun a b => a.sequence < b.sequence := by
  have hsorted := pairwise_number (request.after + 1) records
  rw [hwindow, List.append_cons] at hsorted
  exact (List.pairwise_append.mp hsorted).1

theorem Walked.skip (h : Walked request seen page)
    (hwindow : number (request.after + 1) records = seen ++ event :: rest)
    (hmatches : request.matches event.record = false) :
    Walked request (seen ++ [event]) { page with cursor := event.sequence } where
  scanned := h.scanned.skip hwindow hmatches
  indexed := h.indexed
  sorted := sorted_of_split hwindow
  coalesced := by
    rw [Fetch.found_concat_of_not hmatches]
    exact h.coalesced

/-- Whether the event fits or not. -/
theorem Walked.place (h : Walked request seen page)
    (hwindow : number (request.after + 1) records = seen ++ event :: rest)
    (hmatches : request.matches event.record = true) :
    Walked request (seen ++ [event]) (request.place page event) where
  scanned := h.scanned.place hwindow hmatches
  indexed := Fetch.place_indexed h.indexed
  sorted := sorted_of_split hwindow
  coalesced := by
    rw [Fetch.found_concat_of_match hmatches, List.length_append, List.length_singleton, ← h.coalesced]
    cases hreplace : request.replace page event.record with
    | none =>
        simp only [Fetch.place, hreplace, Fetch.select, List.length_append, List.length_singleton]
        omega
    | some index =>
        simp only [Fetch.place, hreplace, Fetch.select, List.length_set]
        omega

theorem walked_start (request : Fetch) : Walked request [] ⟨request.after, [], ∅, 0, 0, false⟩ where
  scanned := scanned_start request
  indexed := fun _ _ _ hold => by cases hold
  sorted := .nil
  coalesced := rfl

/-- An event that does not fit. -/
theorem full_iff (h : page.selected.length ≤ request.limit) :
    request.full page event = true ↔ ¬((request.place page event).selected.length ≤ request.limit ∧
      (request.place page event).wireBytes ≤ request.maxBytes) := by
  rw [Fetch.full, decide_eq_true_eq]
  cases hreplace : request.replace page event.record with
  | none =>
      simp only [Fetch.place, hreplace, Fetch.select, List.length_append, List.length_singleton, true_and]
      omega
  | some index =>
      simp only [Fetch.place, hreplace, Fetch.select, List.length_set, reduceCtorEq, false_and, or_false]
      omega

/-- The loop consumes the window, or stops in front of an event with which the page would not fit. -/
inductive Walk (request : Fetch) (window : List Event) : Except Error Page → Prop where
  | whole {page : Page} (walked : Walked request window page)
      (allowed : ∀ n, n ≤ window.length → request.Allows (request.current (window.take n))) :
      Walk request window (.ok page)
  | stopped {seen rest : List Event} {event : Event} {page : Page} (split : window = seen ++ event :: rest)
      (walked : Walked request seen page)
      (allowed : ∀ n, n ≤ seen.length → request.Allows (request.current (window.take n)))
      (full : ¬request.Allows (request.current (seen ++ [event]))) :
      Walk request window (if page.selected = [] ∧ request.maxBytes < event.record.wireBytes then
        .error ⟨Code.limit, "first eligible event exceeds maxBytes; increase the fetch budget"⟩
        else .ok { page with panicked := (request.place page event).panicked })

/-- The starts of the part seen fit, and then the part with one more event. -/
theorem allowed_concat {window : List Event} (hwindow : window = seen ++ event :: rest)
    (h : ∀ n, n ≤ seen.length → request.Allows (request.current (window.take n)))
    (hnew : request.Allows (request.current (seen ++ [event]))) :
    ∀ n, n ≤ (seen ++ [event]).length → request.Allows (request.current (window.take n)) := by
  intro n hn
  rw [List.length_append, List.length_singleton] at hn
  by_cases hlast : n = seen.length + 1
  · have htake : window.take n = seen ++ [event] := by
      rw [hwindow, hlast, List.append_cons]
      exact List.take_left' (by simp)
    rw [htake]
    exact hnew
  · exact h n (by omega)

theorem walk_scan (request : Fetch) (records : List Record) :
    Walk request (number (request.after + 1) records)
      (request.scan (number (request.after + 1) records) ⟨request.after, [], ∅, 0, 0, false⟩) := by
  set window := number (request.after + 1) records with hrecords
  let I : List Event → Page → Prop := fun seen page => Walked request seen page ∧
    ∀ n, n ≤ seen.length → request.Allows (request.current (window.take n))
  have hskip : ∀ seen event rest page, window = seen ++ event :: rest → I seen page →
      request.matches event.record = false → I (seen ++ [event]) { page with cursor := event.sequence } := by
    intro seen event rest page hwindow hI hmatches
    obtain ⟨hwalked, hallowed⟩ := hI
    refine ⟨hwalked.skip hwindow hmatches, allowed_concat hwindow hallowed ?_⟩
    rw [Fetch.current_concat_of_not hmatches]
    have hseen := hallowed seen.length le_rfl
    rwa [hwindow, List.take_left' rfl] at hseen
  have hplace : ∀ seen event rest page, window = seen ++ event :: rest → I seen page →
      request.matches event.record = true → request.full page event = false →
      I (seen ++ [event]) (request.place page event) := by
    intro seen event rest page hwindow hI hmatches hfull
    obtain ⟨hwalked, hallowed⟩ := hI
    have hplaced := hwalked.place hwindow hmatches
    have hseen := hallowed seen.length le_rfl
    rw [hwindow, List.take_left' rfl] at hseen
    refine ⟨hplaced, allowed_concat hwindow hallowed (hplaced.allows_iff.mpr ?_)⟩
    by_contra hnot
    rw [(full_iff (hwalked.allows_iff.mp hseen).1).mpr hnot] at hfull
    cases hfull
  have hstart : I [] ⟨request.after, [], ∅, 0, 0, false⟩ := by
    refine ⟨walked_start request, ?_⟩
    intro n hn
    obtain rfl := Nat.le_zero.mp hn
    exact (walked_start request).allows_iff.mpr ⟨Nat.zero_le _, Nat.zero_le _⟩
  rcases Fetch.scan_outcome hskip hplace hstart with
    ⟨page, hscan, hwalked, hallowed⟩ | ⟨seen, event, rest, page, hwindow, ⟨hwalked, hallowed⟩, hmatches, hfull, hscan⟩
  · rw [hscan]
    exact .whole hwalked hallowed
  · rw [hscan]
    refine .stopped hwindow hwalked hallowed ?_
    have hseen := hallowed seen.length le_rfl
    rw [hwindow, List.take_left' rfl] at hseen
    rw [(hwalked.place hwindow hmatches).allows_iff]
    exact (full_iff (hwalked.allows_iff.mp hseen).1).mp hfull

/-! ### The fetch -/

/-- The first `n` events after the cursor of a request. -/
def part (store : Store) (request : Fetch) (n : Nat) : List Event := (store.events.drop request.after).take n

/-- How many events a scan may look at. -/
def window (store : Store) (request : Fetch) : Nat := min maxScan (store.lastSequence - request.after)

/-- The numbers of events up to which a page can always hold what the request asks for. -/
def reach (store : Store) (request : Fetch) : Set Nat :=
  {k | k ≤ store.window request ∧
    ∀ n, 1 ≤ n → n ≤ k → request.Allows (request.current (store.part request n))}

/-- The budget is too small for the next event and the page is empty. -/
def Limited (store : Store) (request : Fetch) (k : Nat) : Prop :=
  k < store.window request ∧ request.current (store.part request k) = [] ∧
    ∃ event, store.events[request.after + k]? = some event ∧ request.maxBytes < event.record.wireBytes

/-- The store and the answer after a page of the first `k` events. -/
def reference (store : Store) (request : Fetch) (k : Nat) : Store × Except Error FetchResult :=
  let found := request.found (store.part request k)
  let current := request.current (store.part request k)
  ({ store with
      fetchedRecords := saturatingAdd store.fetchedRecords current.length
      coalescedRecords := saturatingAdd store.coalescedRecords (found.length - current.length) },
    .ok ⟨request.after + k, current, request.after + k < store.lastSequence⟩)

/-- The loop of a fetch runs over numbered events. -/
theorem window_eq {store : Store} (h : store.Numbered) (request : Fetch) :
    ∃ records, (store.events.drop request.after).take maxScan = number (request.after + 1) records ∧
      records.length = store.window request := by
  obtain ⟨records, hevents⟩ := h
  refine ⟨(records.drop request.after).take maxScan, ?_, ?_⟩
  · rw [hevents, drop_number, take_number, Nat.add_comm 1]
  · rw [window, lastSequence, hevents, length_number, List.length_take, List.length_drop]

theorem Walked.mergeSort (h : Walked request seen page) :
    (page.selected.mergeSort fun a b => a.sequence ≤ b.sequence) = request.current seen := by
  have hcurrent : (request.current seen).Pairwise fun a b => a.sequence ≤ b.sequence :=
    (h.sorted.sublist (Fetch.current_sublist request seen)).imp Nat.le_of_lt
  refine List.Perm.eq_of_pairwise ?_ (pairwise_mergeSort page.selected) hcurrent
    ((List.mergeSort_perm _ _).trans h.perm)
  intro a b ha hb hab hba
  have ha : a ∈ request.current seen := h.perm.mem_iff.mp (List.mem_mergeSort.mp ha)
  exact eq_of_sequence_eq h.sorted ((Fetch.current_sublist request seen).subset ha)
    ((Fetch.current_sublist request seen).subset hb) (Nat.le_antisymm hab hba)

/-- A page of the first events answers as the definition does. -/
theorem fetch_page {store : Store} {k : Nat} {panicked : Bool} (hafter : request.after ≤ store.lastSequence)
    (hscan : request.scan ((store.events.drop request.after).take maxScan)
      ⟨request.after, [], ∅, 0, 0, false⟩ = .ok { page with panicked := panicked })
    (hwalked : Walked request (store.part request k) page) (hk : k ≤ store.window request) :
    store.fetch request = store.reference request k := by
  have hcursor : page.cursor = request.after + k := by
    rw [hwalked.scanned.cursor, part, List.length_take, List.length_drop, ← lastSequence]
    rw [window] at hk
    omega
  have hcoalesced : page.coalesced =
      (request.found (store.part request k)).length - (request.current (store.part request k)).length := by
    rw [← hwalked.coalesced, ← hwalked.perm.length_eq]
    omega
  rw [fetch]
  simp only [if_neg (not_lt.mpr hafter), hscan]
  rw [hwalked.mergeSort, hcursor, hcoalesced]
  rfl

/-- An index out of range or a subtraction below zero in front of an event. -/
theorem Scanned.safe (h : Scanned request seen page) (event : Event) :
    (Fetch.previousBytes page (request.replace page event.record)).2 = true ∧
      (Fetch.previousBytes page (request.replace page event.record)).1 ≤ page.wireBytes := by
  have hsafe := (Fetch.place_sound request h.sound event).1.safe
  rw [Fetch.place, Fetch.select_panicked] at hsafe
  simp only [Bool.or_eq_false_iff, Bool.not_eq_false', decide_eq_false_iff_not, not_lt] at hsafe
  exact ⟨hsafe.1.2, hsafe.2⟩

/-- The answer to a fetch from a cursor within the log. -/
theorem fetch_answer {store : Store} (hnumbered : store.Numbered) (hafter : request.after ≤ store.lastSequence) :
    ∃ k, IsGreatest (store.reach request) k ∧
      (store.Limited request k → store.fetch request = (store, .error ⟨Code.limit,
        "first eligible event exceeds maxBytes; increase the fetch budget"⟩)) ∧
      (¬store.Limited request k → store.fetch request = store.reference request k) := by
  obtain ⟨records, hrecords, hlength⟩ := window_eq hnumbered request
  -- The starts of the window are those of the log.
  have htake : ∀ n, n ≤ store.window request →
      (number (request.after + 1) records).take n = store.part request n := by
    intro n hn
    rw [← hrecords, List.take_take, min_eq_left (hn.trans (min_le_left _ _)), part]
  have hwalk := walk_scan request records
  generalize hscan : request.scan (number (request.after + 1) records)
    ⟨request.after, [], ∅, 0, 0, false⟩ = outcome at hwalk
  cases hwalk with
  | @whole page walked allowed =>
      rw [length_number, hlength] at allowed
      have hwhole := htake (store.window request) le_rfl
      rw [← hlength, ← length_number (request.after + 1) records, List.take_length] at hwhole
      rw [hwhole, length_number, hlength] at walked
      refine ⟨store.window request, ⟨⟨le_rfl, ?_⟩, fun k hk => hk.1⟩, ?_, ?_⟩
      · intro n _ hn
        rw [← htake n hn]
        exact allowed n hn
      · intro hlimited
        exact absurd hlimited.1 (lt_irrefl _)
      · intro _
        exact fetch_page hafter (by rw [hrecords]; exact hscan) walked le_rfl
  | @stopped seen rest event page split walked allowed full =>
      have hsplit := congrArg List.length split
      rw [length_number, hlength, List.length_append, List.length_cons] at hsplit
      have hseen : store.part request seen.length = seen := by
        rw [← htake _ (by omega), split, List.take_left' rfl]
      have hnext : store.part request (seen.length + 1) = seen ++ [event] := by
        rw [← htake _ (by omega), split, List.append_cons]
        exact List.take_left' (by simp)
      have hevent : store.events[request.after + seen.length]? = some event := by
        have hget := congrArg (fun events => events[seen.length]?) (hrecords.trans split)
        simp only [List.getElem?_append_right le_rfl, Nat.sub_self, List.getElem?_cons_zero] at hget
        rw [List.getElem?_take_of_lt, List.getElem?_drop] at hget
        · exact hget
        · rw [window] at hsplit
          omega
      have hgreatest : IsGreatest (store.reach request) seen.length := by
        refine ⟨⟨by omega, ?_⟩, ?_⟩
        · intro n _ hn
          rw [← htake n (by omega)]
          exact allowed n hn
        · intro k hk
          by_contra hlong
          rw [not_le] at hlong
          have hfits := hk.2 (seen.length + 1) (by omega) hlong
          rw [hnext] at hfits
          exact full hfits
      have hempty : page.selected = [] ↔ request.current seen = [] := by
        rw [← List.length_eq_zero_iff, ← List.length_eq_zero_iff, walked.perm.length_eq]
      have hlimited : page.selected = [] ∧ request.maxBytes < event.record.wireBytes ↔
          store.Limited request seen.length := by
        rw [Limited, hseen, hempty]
        constructor
        · intro h
          exact ⟨by omega, h.1, event, hevent, h.2⟩
        · intro h
          obtain ⟨-, hnone, event', hevent', hlarge⟩ := h
          rw [hevent] at hevent'
          obtain rfl := Option.some.inj hevent'
          exact ⟨hnone, hlarge⟩
      refine ⟨seen.length, hgreatest, ?_, ?_⟩
      · intro h
        rw [if_pos (hlimited.mpr h)] at hscan
        rw [fetch]
        simp only [if_neg (not_lt.mpr hafter), hrecords, hscan]
      · intro h
        rw [if_neg fun hboth => h (hlimited.mp hboth)] at hscan
        exact fetch_page hafter (by rw [hrecords]; exact hscan) (by rw [hseen]; exact walked) (by omega)

/-- **A fetch answers as its definition says**: the longest start of the window that a page can hold, if
there is any. -/
theorem fetch_reference {store : Store} (hnumbered : store.Numbered) (request : Fetch) :
    (store.fetch request).1.events = store.events ∧
    (store.lastSequence < request.after → store.fetch request =
      (store, .error ⟨Code.cursor, "cursor is beyond this log's high-water mark"⟩)) ∧
    (request.after ≤ store.lastSequence → ∃ k, IsGreatest (store.reach request) k ∧
      (store.Limited request k → store.fetch request = (store, .error ⟨Code.limit,
        "first eligible event exceeds maxBytes; increase the fetch budget"⟩)) ∧
      (¬store.Limited request k → store.fetch request = store.reference request k)) ∧
    ∀ n page (event : Event), request.scan (store.part request (min n maxScan)) ⟨request.after, [], ∅, 0, 0, false⟩ = .ok page →
      (Fetch.previousBytes page (request.replace page event.record)).2 = true ∧
        (Fetch.previousBytes page (request.replace page event.record)).1 ≤ page.wireBytes := by
  refine ⟨?_, ?_, fun hafter => fetch_answer hnumbered hafter, ?_⟩
  · obtain ⟨fetched, coalesced, hstore⟩ := fetch_counters store request
    rw [hstore]
  · intro hafter
    rw [fetch, if_pos hafter]
  · intro n page event hscan
    obtain ⟨records, hrecords, -⟩ := window_eq hnumbered request
    have hpart : store.part request (min n maxScan) = number (request.after + 1) (records.take n) := by
      rw [← take_number, ← hrecords, List.take_take, part]
    rw [hpart] at hscan
    obtain ⟨seen, rest, -, hscanned⟩ := scan_ok hscan
    exact hscanned.safe event

/-- Two updates of a key and a record without one. -/
def sampleLog : Store :=
  { memory 1000 0 with events := number 1 [⟨"a", "k", [1]⟩, ⟨"a", "", []⟩, ⟨"a", "k", [2]⟩] }

def sampleFetch : Fetch := ⟨"a", 0, 2, 100, true⟩

theorem fetch_reference_sample : ∃ k, IsGreatest (sampleLog.reach sampleFetch) k ∧
    sampleLog.fetch sampleFetch = sampleLog.reference sampleFetch k := by
  have hnumbered : sampleLog.Numbered := ⟨_, rfl⟩
  obtain ⟨k, hgreatest, -, hpage⟩ := (fetch_reference hnumbered sampleFetch).2.2.1 (Nat.zero_le _)
  refine ⟨k, hgreatest, hpage ?_⟩
  intro hlimited
  obtain ⟨-, -, event, hevent, hlarge⟩ := hlimited
  have hsmall : ∀ event ∈ sampleLog.events, event.record.wireBytes ≤ sampleFetch.maxBytes := by decide
  exact absurd hlarge (not_lt.mpr (hsmall event (List.mem_of_getElem? hevent)))

end

end Store

end VeloBus
