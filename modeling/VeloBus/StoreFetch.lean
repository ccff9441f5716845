import VeloBus.Compaction
import VeloBus.StoreRecovery
import Mathlib.Algebra.Order.BigOperators.Group.List
import Mathlib.Data.List.Sort

/-! What one fetch returns. The loop reads a window of the log, so its invariant speaks about the
events seen so far; in mode `all` it collects their matches, in mode `latest` a summary of them. -/

namespace VeloBus

namespace Fetch

/-- The page after an event that matches and fits. -/
def place (request : Fetch) (page : Page) (event : Event) : Page :=
  let replace := request.replace page event.record
  let (previousBytes, present) := previousBytes page replace
  select request
    { page with
      panicked := page.panicked || !present || decide (page.wireBytes < previousBytes) }
    event replace (page.wireBytes - previousBytes + event.record.wireBytes)

/-- Whether the loop stops in front of a matching event. -/
def full (request : Fetch) (page : Page) (event : Event) : Bool :=
  let replace := request.replace page event.record
  request.maxBytes < page.wireBytes - (previousBytes page replace).1 + event.record.wireBytes ∨
    (replace = none ∧ page.selected.length = request.limit)

section

variable {request : Fetch}

@[simp] theorem select_panicked (page : Page) (event : Event) (replace : Option Nat)
    (wireBytes : Nat) : (request.select page event replace wireBytes).panicked = page.panicked := by
  cases replace <;> rfl

@[simp] theorem select_cursor (page : Page) (event : Event) (replace : Option Nat) (wireBytes : Nat) :
    (request.select page event replace wireBytes).cursor = event.sequence := by
  cases replace <;> rfl

theorem scan_cons (event : Event) (events : List Event) (page : Page) :
    request.scan (event :: events) page =
      if request.matches event.record = false then
        request.scan events { page with cursor := event.sequence }
      else if request.full page event then
        if page.selected = [] ∧ request.maxBytes < event.record.wireBytes then
          .error ⟨Code.limit, "first eligible event exceeds maxBytes; increase the fetch budget"⟩
        else .ok { page with
          panicked := (request.place page event).panicked }
      else request.scan events (request.place page event) := by
  rw [scan]
  simp only [full, place, select_panicked, decide_eq_true_eq]

/-- **The scan rule.** What holds of an empty page and survives a skipped and a placed event holds at the end
of the window, or where the loop stops in front of an event that does not fit. -/
theorem scan_outcome {I : List Event → Page → Prop} {window : List Event} {page : Page}
    (hskip : ∀ seen event rest page, window = seen ++ event :: rest → I seen page →
      request.matches event.record = false → I (seen ++ [event]) { page with cursor := event.sequence })
    (hplace : ∀ seen event rest page, window = seen ++ event :: rest → I seen page →
      request.matches event.record = true → request.full page event = false →
      I (seen ++ [event]) (request.place page event))
    (hI : I [] page) :
    (∃ page', request.scan window page = .ok page' ∧ I window page') ∨
      ∃ seen event rest page', window = seen ++ event :: rest ∧ I seen page' ∧
        request.matches event.record = true ∧ request.full page' event = true ∧
        request.scan window page =
          if page'.selected = [] ∧ request.maxBytes < event.record.wireBytes then
            .error ⟨Code.limit, "first eligible event exceeds maxBytes; increase the fetch budget"⟩
          else .ok { page' with panicked := (request.place page' event).panicked } := by
  have hsuffix : ∀ seen events page', window = seen ++ events → I seen page' →
      request.scan events page' = request.scan window page →
      (∃ page', request.scan window page = .ok page' ∧ I window page') ∨
        ∃ seen event rest page', window = seen ++ event :: rest ∧ I seen page' ∧
          request.matches event.record = true ∧ request.full page' event = true ∧
          request.scan window page =
            if page'.selected = [] ∧ request.maxBytes < event.record.wireBytes then
              .error ⟨Code.limit, "first eligible event exceeds maxBytes; increase the fetch budget"⟩
            else .ok { page' with panicked := (request.place page' event).panicked } := by
    intro seen events page' hwindow hI h
    induction events generalizing seen page' with
    | nil =>
        rw [List.append_nil] at hwindow
        rw [hwindow] at h ⊢
        exact Or.inl ⟨page', h.symm, hI⟩
    | cons event events ih =>
        have hnext : window = (seen ++ [event]) ++ events := by rw [hwindow, List.append_assoc]; rfl
        rw [scan_cons] at h
        cases hmatches : request.matches event.record with
        | false =>
            rw [if_pos hmatches] at h
            exact ih _ _ hnext (hskip _ _ _ _ hwindow hI hmatches) h
        | true =>
            rw [if_neg (by simp [hmatches])] at h
            cases hfull : request.full page' event with
            | true =>
                rw [if_pos hfull] at h
                exact Or.inr ⟨seen, event, events, page', hwindow, hI, hmatches, hfull, h.symm⟩
            | false =>
                rw [if_neg (by simp [hfull])] at h
                exact ih _ _ hnext (hplace _ _ _ _ hwindow hI hmatches hfull) h
  exact hsuffix [] window page rfl hI rfl

/-- The scan rule for a page that is returned. -/
theorem scan_invariant {I : List Event → Page → Prop} {window : List Event} {page page' : Page}
    (hskip : ∀ seen event rest page, window = seen ++ event :: rest → I seen page →
      request.matches event.record = false → I (seen ++ [event]) { page with cursor := event.sequence })
    (hplace : ∀ seen event rest page, window = seen ++ event :: rest → I seen page →
      request.matches event.record = true → request.full page event = false →
      I (seen ++ [event]) (request.place page event))
    (hstop : ∀ seen event rest page, window = seen ++ event :: rest → I seen page →
      request.matches event.record = true →
      I seen { page with panicked := (request.place page event).panicked })
    (hI : I [] page) (h : request.scan window page = .ok page') :
    ∃ seen rest, window = seen ++ rest ∧ I seen page' := by
  rcases scan_outcome hskip hplace hI with
    ⟨page'', hscan, hwhole⟩ | ⟨seen, event, rest, page'', hwindow, hseen, hmatches, -, hscan⟩
  · rw [hscan] at h
    cases h
    exact ⟨window, [], (List.append_nil _).symm, hwhole⟩
  · rw [hscan] at h
    split_ifs at h
    cases h
    exact ⟨seen, event :: rest, hwindow, hstop _ _ _ _ hwindow hseen hmatches⟩

/-! ### Pages -/

/-- The table of positions points at the events with these keys, and the byte count is exact. -/
structure PageSound (page : Page) : Prop where
  indexed : ∀ topic key index, page.positions.lookup (topic, key) = some index →
    ∃ event, page.selected[index]? = some event ∧ event.record.topic = topic ∧ event.record.key = key
  bytes : page.wireBytes = (page.selected.map fun event => event.record.wireBytes).sum
  safe : page.panicked = false

/-- What `place` does to a sound page: it appends the event or puts it over an older one of its key. -/
inductive Placed (request : Fetch) (page : Page) (event : Event) : Page → Prop where
  | append {page' : Page} (selected : page'.selected = page.selected ++ [event]) :
      Placed request page event page'
  | replaced {page' : Page} (index : Nat) (old : Event) (latest : request.latest = true)
      (key : event.record.key ≠ "") (present : page.selected[index]? = some old)
      (topic : old.record.topic = event.record.topic) (same : old.record.key = event.record.key)
      (selected : page'.selected = page.selected.set index event) : Placed request page event page'

theorem le_sum_of_getElem? {values : List Nat} {index value : Nat} (h : values[index]? = some value) :
    value ≤ values.sum := List.le_sum_of_mem (List.mem_of_getElem? h)

theorem sum_set {values : List Nat} {index old : Nat} (h : values[index]? = some old) (new : Nat) :
    (values.set index new).sum = values.sum - old + new := by
  induction values generalizing index with
  | nil => cases h
  | cons value values ih =>
      cases index with
      | zero =>
          cases h
          rw [List.set_cons_zero, List.sum_cons, List.sum_cons]
          omega
      | succ index =>
          have hle := le_sum_of_getElem? (show values[index]? = some old from h)
          rw [List.set_cons_succ, List.sum_cons, List.sum_cons, ih h]
          omega

theorem place_sound (request : Fetch) {page : Page} (h : PageSound page) (event : Event) :
    PageSound (request.place page event) ∧ Placed request page event (request.place page event) ∧
      (request.place page event).cursor = event.sequence := by
  obtain ⟨hindexed, hbytes, hsafe⟩ := h
  cases hreplace : request.replace page event.record with
  | none =>
      simp only [place, hreplace, previousBytes, select]
      refine ⟨⟨?_, ?_, ?_⟩, .append rfl, trivial⟩
      · intro topic key index hlookup
        by_cases hkeyed : request.latest ∧ event.record.key ≠ ""
        · rw [if_pos hkeyed, Table.lookup_insert_ite] at hlookup
          split_ifs at hlookup with hsame
          · cases hlookup
            obtain ⟨rfl, rfl⟩ := Prod.mk.inj hsame
            exact ⟨event, by simp, rfl, rfl⟩
          · obtain ⟨old, hold, hfields⟩ := hindexed topic key index hlookup
            exact ⟨old, (List.getElem?_append_left (List.getElem?_eq_some_iff.mp hold).1).trans hold, hfields⟩
        · rw [if_neg hkeyed] at hlookup
          obtain ⟨old, hold, hfields⟩ := hindexed topic key index hlookup
          exact ⟨old, (List.getElem?_append_left (List.getElem?_eq_some_iff.mp hold).1).trans hold, hfields⟩
      · simp [hbytes]
      · simp [hsafe]
  | some index =>
      have hkeyed : request.latest ∧ event.record.key ≠ "" := by
        by_contra hnot
        rw [replace, if_neg hnot] at hreplace
        cases hreplace
      have hlookup := hreplace
      rw [replace, if_pos hkeyed] at hlookup
      obtain ⟨old, hold, htopic, hkey⟩ := hindexed _ _ _ hlookup
      have hsize : (page.selected.map fun event => event.record.wireBytes)[index]? =
          some old.record.wireBytes := by rw [List.getElem?_map, hold]; rfl
      have hle := le_sum_of_getElem? hsize
      simp only [place, hreplace, previousBytes, hold, select]
      refine ⟨⟨?_, ?_, ?_⟩, .replaced index old hkeyed.1 hkeyed.2 hold htopic hkey rfl, trivial⟩
      · intro topic key other hother
        obtain ⟨event', hevent', htopic', hkey'⟩ := hindexed topic key other hother
        by_cases hsame : index = other
        · subst hsame
          rw [hold] at hevent'
          cases hevent'
          have hlt := (List.getElem?_eq_some_iff.mp hold).1
          exact ⟨event, by simp [hlt], htopic ▸ htopic', hkey ▸ hkey'⟩
        · exact ⟨event', by rw [List.getElem?_set_ne hsame]; exact hevent', htopic', hkey'⟩
      · rw [List.map_set, sum_set hsize, hbytes]
      · rw [hsafe, hbytes]
        simpa using hle

/-! ### What the loop has seen -/

/-- The two fields of a record that a later record can supersede it by. -/
def slot (event : Event) : String × String := (event.record.topic, event.record.key)

/-- The events with a record that matches. -/
def found (request : Fetch) (events : List Event) : List Event :=
  events.filter fun event => request.matches event.record

theorem found_append (events events' : List Event) :
    request.found (events ++ events') = request.found events ++ request.found events' :=
  List.filter_append ..

theorem mem_found {event : Event} {events : List Event} :
    event ∈ request.found events ↔ event ∈ events ∧ request.matches event.record = true :=
  List.mem_filter

theorem found_concat_of_match {event : Event} (h : request.matches event.record = true)
    (events : List Event) : request.found (events ++ [event]) = request.found events ++ [event] := by
  simp [found, h]

theorem found_concat_of_not {event : Event} (h : request.matches event.record = false)
    (events : List Event) : request.found (events ++ [event]) = request.found events := by
  simp [found, h]

/-- The events selected in mode `latest`. -/
structure Merged (request : Fetch) (seen selected : List Event) : Prop where
  nodup : selected.Nodup
  summary : Compaction.Summary slot (fun a b => a.sequence < b.sequence)
    (request.found seen) selected
  keyless : ∀ event ∈ request.found seen, event.record.key = "" → event ∈ selected

theorem Merged.skip {seen selected : List Event} {event : Event} (h : Merged request seen selected)
    (hmatches : request.matches event.record = false) : Merged request (seen ++ [event]) selected where
  nodup := h.nodup
  summary := by
    rw [found_concat_of_not hmatches]
    exact h.summary
  keyless := by
    rw [found_concat_of_not hmatches]
    exact h.keyless

theorem Merged.place {seen : List Event} {page page' : Page} {event : Event}
    (h : Merged request seen page.selected) (hmatches : request.matches event.record = true)
    (hafter : ∀ event' ∈ seen, event'.sequence < event.sequence) (hplaced : Placed request page event page') :
    Merged request (seen ++ [event]) page'.selected := by
  have hfresh : event ∉ page.selected := by
    intro hmem
    exact lt_irrefl _ (hafter event (mem_found.mp (h.summary.subset hmem)).1)
  have hfound := found_concat_of_match hmatches seen
  cases hplaced with
  | append selected =>
      rw [selected]
      refine ⟨List.nodup_append'.mpr ⟨h.nodup, List.nodup_singleton _, by simpa using hfresh⟩, ?_, ?_⟩
      · rw [hfound]
        exact h.summary.append ⟨List.Subset.refl _, fun a ha hnot => absurd ha hnot⟩
      · rw [hfound]
        intro event' hmem hkey
        rcases List.mem_append.mp hmem with hmem | hmem
        · exact List.mem_append_left _ (h.keyless event' hmem hkey)
        · exact List.mem_append_right _ hmem
  | replaced index old latest key present topic same selected =>
      have hlt := (List.getElem?_eq_some_iff.mp present).1
      have hnew : event ∈ page.selected.set index event := List.mem_set hlt event
      have hold : old ∈ seen := (mem_found.mp (h.summary.subset (List.mem_of_getElem? present))).1
      have hslot : slot event = slot old := by rw [slot, slot, topic, same]
      -- Whatever is not overwritten stays.
      have hstays : ∀ event' ∈ page.selected, event' ≠ old → event' ∈ page.selected.set index event := by
        intro event' hmem hne
        obtain ⟨other, hother⟩ := List.mem_iff_getElem?.mp hmem
        have hindex : index ≠ other := by
          rintro rfl
          rw [present] at hother
          exact hne (Option.some.inj hother).symm
        apply List.mem_of_getElem? (i := other)
        rw [List.getElem?_set_ne hindex]
        exact hother
      rw [selected]
      refine ⟨h.nodup.set hfresh, ⟨?_, ?_⟩, ?_⟩
      · rw [hfound]
        intro event' hmem
        rcases List.mem_or_eq_of_mem_set hmem with hmem | rfl
        · exact List.mem_append_left _ (h.summary.subset hmem)
        · simp
      · rw [hfound]
        intro event' hmem hnot
        have hmem : event' ∈ request.found seen := by
          rcases List.mem_append.mp hmem with hmem | hmem
          · exact hmem
          · rw [List.mem_singleton.mp hmem] at hnot
            exact absurd hnew hnot
        have hbefore := hafter event' (mem_found.mp hmem).1
        by_cases hselected : event' ∈ page.selected
        · have heq : event' = old := by
            by_contra hne
            exact hnot (hstays event' hselected hne)
          exact ⟨event, hnew, by rw [hslot, heq], hbefore⟩
        · obtain ⟨later, hlater, hslot', hlt'⟩ := h.summary.superseded event' hmem hselected
          by_cases heq : later = old
          · exact ⟨event, hnew, by rw [hslot, ← heq, hslot'], hbefore⟩
          · exact ⟨later, hstays later hlater heq, hslot', hlt'⟩
      · rw [hfound]
        intro event' hmem hkey
        rcases List.mem_append.mp hmem with hmem | hmem
        · apply hstays event' (h.keyless event' hmem hkey)
          rintro rfl
          exact key (same ▸ hkey)
        · rw [List.mem_singleton.mp hmem]
          exact hnew

theorem Merged.perm {seen selected selected' : List Event} (h : Merged request seen selected)
    (hperm : selected.Perm selected') : Merged request seen selected' where
  nodup := hperm.nodup h.nodup
  summary := ⟨fun _ hmem => h.summary.subset (hperm.mem_iff.mpr hmem), by
    intro a ha hnot
    obtain ⟨b, hb, hfields⟩ := h.summary.superseded a ha (fun hmem => hnot (hperm.mem_iff.mp hmem))
    exact ⟨b, hperm.mem_iff.mp hb, hfields⟩⟩
  keyless := fun event hmem hkey => hperm.mem_iff.mp (h.keyless event hmem hkey)

end

end Fetch

/-! ### Numbered logs -/

namespace Store

theorem number_cons (first : Nat) (record : Record) (records : List Record) :
    number first (record :: records) = ⟨first, record⟩ :: number (first + 1) records := by
  simp only [number, List.mapIdx_cons, Nat.add_zero, Nat.add_assoc, Nat.add_comm 1]

theorem number_bounds {first : Nat} {records : List Record} {event : Event}
    (h : event ∈ number first records) :
    first ≤ event.sequence ∧ event.sequence < first + records.length := by
  induction records generalizing first with
  | nil => cases h
  | cons record records ih =>
      rw [number_cons, List.mem_cons] at h
      rw [List.length_cons]
      rcases h with rfl | h
      · exact ⟨le_rfl, Nat.lt_add_of_pos_right (Nat.succ_pos _)⟩
      · have := ih h
        omega

theorem pairwise_number (first : Nat) (records : List Record) :
    (number first records).Pairwise fun a b => a.sequence < b.sequence := by
  induction records generalizing first with
  | nil => exact List.Pairwise.nil
  | cons record records ih =>
      rw [number_cons]
      refine List.Pairwise.cons ?_ (ih _)
      intro event hmem
      exact (number_bounds hmem).1

theorem drop_number (first n : Nat) (records : List Record) :
    (number first records).drop n = number (first + n) (records.drop n) := by
  induction n generalizing first records with
  | zero => rfl
  | succ n ih =>
      cases records with
      | nil => rfl
      | cons record records =>
          rw [number_cons, List.drop_succ_cons, List.drop_succ_cons, ih, Nat.add_assoc, Nat.add_comm 1]

theorem take_number (first n : Nat) (records : List Record) :
    (number first records).take n = number first (records.take n) := by
  induction n generalizing first records with
  | zero => rfl
  | succ n ih =>
      cases records with
      | nil => rfl
      | cons record records =>
          rw [number_cons, List.take_succ_cons, List.take_succ_cons, number_cons, ih]

theorem sequence_of_split {first : Nat} {records : List Record} {seen rest : List Event} {event : Event}
    (h : number first records = seen ++ event :: rest) : event.sequence = first + seen.length := by
  have hdrop := congrArg (List.drop seen.length) h
  rw [drop_number, List.drop_left' rfl] at hdrop
  cases hrecords : records.drop seen.length with
  | nil =>
      rw [hrecords] at hdrop
      cases hdrop
  | cons record records =>
      rw [hrecords, number_cons] at hdrop
      rw [← (List.cons.inj hdrop).1]

theorem filter_number_from (first after cursor : Nat) (records : List Record) :
    (number (first + 1) records).filter
        (fun event => after < event.sequence ∧ event.sequence ≤ cursor) =
      ((number (first + 1) records).take (cursor - first)).drop (after - first) := by
  induction records generalizing first with
  | nil => simp [number]
  | cons record records ih =>
      rw [number_cons, List.filter_cons, ih (first + 1)]
      by_cases hcursor : first + 1 ≤ cursor
      · obtain ⟨k, rfl⟩ := Nat.exists_eq_add_of_le hcursor
        rw [show first + 1 + k - first = k + 1 by omega, List.take_succ_cons,
          show first + 1 + k - (first + 1) = k by omega]
        by_cases hafter : after ≤ first
        · have hinside : after < first + 1 ∧ first + 1 ≤ first + 1 + k := by omega
          rw [if_pos (decide_eq_true hinside), Nat.sub_eq_zero_of_le hafter,
            show after - (first + 1) = 0 by omega, List.drop_zero, List.drop_zero]
        · obtain ⟨j, rfl⟩ := Nat.exists_eq_add_of_le (not_le.mp hafter)
          have houtside : ¬(first.succ + j < first + 1 ∧ first + 1 ≤ first + 1 + k) := by omega
          rw [if_neg (by rwa [decide_eq_true_eq]), show first.succ + j - first = j + 1 by omega,
            show first.succ + j - (first + 1) = j by omega, List.drop_succ_cons]
      · have houtside : ¬(after < first + 1 ∧ first + 1 ≤ cursor) := fun h => hcursor h.2
        rw [if_neg (by rwa [decide_eq_true_eq]), show cursor - first = 0 by omega,
          show cursor - (first + 1) = 0 by omega, List.take_zero, List.take_zero, List.drop_nil,
          List.drop_nil]

/-- The events of a log between two sequences are a part of it. -/
theorem filter_number (after cursor : Nat) (records : List Record) :
    (number 1 records).filter (fun event => after < event.sequence ∧ event.sequence ≤ cursor) =
      ((number 1 records).take cursor).drop after := filter_number_from 0 after cursor records

/-- The events have the sequences one, two, and so on. -/
def Numbered (store : Store) : Prop := ∃ records, store.events = number 1 records

theorem eq_of_sequence_eq {events : List Event}
    (h : events.Pairwise fun a b => a.sequence < b.sequence) {a b : Event} (ha : a ∈ events)
    (hb : b ∈ events) (heq : a.sequence = b.sequence) : a = b := by
  have hnodup : (events.map Event.sequence).Nodup :=
    List.pairwise_map.mpr (h.imp fun hlt => Nat.ne_of_lt hlt)
  exact List.inj_on_of_nodup_map hnodup ha hb heq

/-! ### Fetch -/

/-- What the loop keeps: the cursor follows the events seen, and the page selects from them. -/
structure Scanned (request : Fetch) (seen : List Event) (page : Page) : Prop where
  cursor : page.cursor = request.after + seen.length
  sound : Fetch.PageSound page
  merged : request.Merged seen page.selected
  all : request.latest = false → page.selected = request.found seen

/-- What a fetch returns for a store. -/
structure Fetched (store : Store) (request : Fetch) (result : FetchResult) : Prop where
  start : request.after ≤ result.cursor
  cursor_le : result.cursor ≤ store.lastSequence
  window : result.cursor ≤ request.after + maxScan
  hasMore : result.hasMore = decide (result.cursor < store.lastSequence)
  merged : request.Merged ((store.events.take result.cursor).drop request.after) result.events
  all : request.latest = false →
    result.events = request.found ((store.events.take result.cursor).drop request.after)
  ascending : result.events.Pairwise fun a b => a.sequence < b.sequence

section

variable {request : Fetch} {records : List Record} {seen rest : List Event} {event : Event} {page : Page}

theorem Scanned.skip (h : Scanned request seen page)
    (hwindow : number (request.after + 1) records = seen ++ event :: rest)
    (hmatches : request.matches event.record = false) :
    Scanned request (seen ++ [event]) { page with cursor := event.sequence } where
  cursor := by
    simp only [sequence_of_split hwindow, List.length_append, List.length_singleton]
    omega
  sound := ⟨h.sound.indexed, h.sound.bytes, h.sound.safe⟩
  merged := h.merged.skip hmatches
  all := by
    intro hall
    rw [Fetch.found_concat_of_not hmatches]
    exact h.all hall

theorem Scanned.place (h : Scanned request seen page)
    (hwindow : number (request.after + 1) records = seen ++ event :: rest)
    (hmatches : request.matches event.record = true) :
    Scanned request (seen ++ [event]) (request.place page event) := by
  obtain ⟨hsound, hplaced, hcursor⟩ := Fetch.place_sound request h.sound event
  have hafter : ∀ event' ∈ seen, event'.sequence < event.sequence := by
    have hsorted := pairwise_number (request.after + 1) records
    rw [hwindow, List.pairwise_append] at hsorted
    exact fun event' hmem => hsorted.2.2 event' hmem event List.mem_cons_self
  refine ⟨?_, hsound, h.merged.place hmatches hafter hplaced, ?_⟩
  · rw [hcursor, sequence_of_split hwindow, List.length_append, List.length_singleton]
    omega
  · intro hall
    rw [Fetch.found_concat_of_match hmatches, ← h.all hall]
    cases hplaced with
    | append selected => exact selected
    | replaced index old latest key present topic same selected =>
        rw [hall] at latest
        cases latest

/-- The page of a loop that stops in front of an event. -/
theorem Scanned.stop (h : Scanned request seen page) (event : Event) :
    Scanned request seen { page with panicked := (request.place page event).panicked } where
  cursor := h.cursor
  sound := ⟨h.sound.indexed, h.sound.bytes, (Fetch.place_sound request h.sound event).1.safe⟩
  merged := h.merged
  all := h.all

theorem scanned_start (request : Fetch) : Scanned request [] ⟨request.after, [], ∅, 0, 0, false⟩ where
  cursor := rfl
  sound := ⟨nofun, rfl, rfl⟩
  merged := ⟨List.nodup_nil, ⟨List.nil_subset _, nofun⟩, nofun⟩
  all := fun _ => rfl

end

theorem scan_ok {request : Fetch} {records : List Record} {page : Page}
    (h : request.scan (number (request.after + 1) records) ⟨request.after, [], ∅, 0, 0, false⟩ = .ok page) :
    ∃ seen rest, number (request.after + 1) records = seen ++ rest ∧ Scanned request seen page := by
  apply Fetch.scan_invariant (I := Scanned request) ?_ ?_ ?_ (scanned_start request) h
  · intro seen event rest page hwindow hI hmatches
    exact hI.skip hwindow hmatches
  · intro seen event rest page hwindow hI hmatches _
    exact hI.place hwindow hmatches
  · intro seen event rest page _ hI _
    exact hI.stop event

theorem pairwise_mergeSort (events : List Event) :
    (events.mergeSort fun a b => a.sequence ≤ b.sequence).Pairwise fun a b => a.sequence ≤ b.sequence := by
  refine (List.pairwise_mergeSort ?_ ?_ events).imp fun h => of_decide_eq_true h
  · intro a b c hab hbc
    exact decide_eq_true ((of_decide_eq_true hab).trans (of_decide_eq_true hbc))
  · intro a b
    simpa using Nat.le_total a.sequence b.sequence

/-- **A fetch returns the matches of a part of the log that starts at the request's cursor.** -/
theorem fetch_eq_ok {store next : Store} {request : Fetch} {result : FetchResult}
    (hnumbered : store.Numbered) (h : store.fetch request = (next, .ok result)) :
    Fetched store request result := by
  rw [fetch] at h
  simp only at h
  split_ifs at h with hafter
  · cases h
  · split at h
    · cases h
    · rename_i page hscan
      obtain ⟨-, hresult⟩ := Prod.mk.inj h
      obtain rfl := Except.ok.inj hresult
      obtain ⟨records, hevents⟩ := hnumbered
      have hwindow : (store.events.drop request.after).take maxScan =
          number (request.after + 1) ((records.drop request.after).take maxScan) := by
        rw [hevents, drop_number, take_number, Nat.add_comm 1]
      rw [hwindow] at hscan
      obtain ⟨seen, rest, hsplit, hscanned⟩ := scan_ok hscan
      obtain ⟨hcursor, -, hmerged, hall⟩ := hscanned
      -- The events seen are a part of the log.
      have hstart : seen <+: store.events.drop request.after := by
        refine List.IsPrefix.trans ?_ (List.take_prefix maxScan _)
        rw [hwindow, hsplit]
        exact List.prefix_append _ _
      have hseen : (store.events.take page.cursor).drop request.after = seen := by
        rw [hcursor, List.drop_take, Nat.add_sub_cancel_left]
        exact (List.prefix_iff_eq_take.mp hstart).symm
      have hlength : request.after + seen.length ≤ store.lastSequence := by
        have := hstart.length_le
        rw [List.length_drop] at this
        rw [lastSequence] at hafter ⊢
        omega
      have hsorted : seen.Pairwise fun a b => a.sequence < b.sequence := by
        have := pairwise_number (request.after + 1) ((records.drop request.after).take maxScan)
        rw [hsplit] at this
        exact (List.pairwise_append.mp this).1
      have hperm : (page.selected.mergeSort fun a b => a.sequence ≤ b.sequence).Perm page.selected :=
        List.mergeSort_perm _ _
      have hmerged' := hmerged.perm hperm.symm
      have hscanned : seen.length ≤ maxScan := by
        have hlength := congrArg List.length hsplit
        rw [← hwindow, List.length_append, List.length_take] at hlength
        omega
      refine ⟨?_, ?_, ?_, rfl, ?_, ?_, ?_⟩
      · simp only [hcursor]
        omega
      · simp only [hcursor]
        exact hlength
      · simp only [hcursor]
        omega
      · simp only [hseen]
        exact hmerged'
      · intro hlatest
        simp only [hseen, hall hlatest]
        apply List.mergeSort_of_pairwise
        exact (hsorted.sublist List.filter_sublist).imp fun hlt => decide_eq_true (Nat.le_of_lt hlt)
      · refine ((pairwise_mergeSort page.selected).and hmerged'.nodup).imp_of_mem ?_
        rintro a b ha hb ⟨hab, hne⟩
        refine lt_of_le_of_ne hab fun heq => hne ?_
        exact eq_of_sequence_eq hsorted (Fetch.mem_found.mp (hmerged'.summary.subset ha)).1
          (Fetch.mem_found.mp (hmerged'.summary.subset hb)).1 heq

/-! ### The store after a fetch -/

/-- A fetch changes only counters. -/
theorem fetch_counters (store : Store) (request : Fetch) :
    ∃ fetched coalesced, (store.fetch request).1 =
      { store with fetchedRecords := fetched, coalescedRecords := coalesced } := by
  rw [Store.fetch]
  simp only
  split_ifs
  · exact ⟨_, _, rfl⟩
  · split
    · exact ⟨_, _, rfl⟩
    · exact ⟨_, _, rfl⟩

/-- A fetch reads only the events. -/
theorem fetch_of_events {store store' : Store} (h : store.events = store'.events) (request : Fetch) :
    (store.fetch request).2 = (store'.fetch request).2 := by
  have hlast : store.lastSequence = store'.lastSequence := congrArg List.length h
  rw [Store.fetch, Store.fetch]
  simp only [h, hlast]
  split_ifs
  · rfl
  · cases request.scan ((store'.events.drop request.after).take maxScan)
        ⟨request.after, [], ∅, 0, 0, false⟩ with
    | error error => rfl
    | ok page => rfl

end Store

end VeloBus
