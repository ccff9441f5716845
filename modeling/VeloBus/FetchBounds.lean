import VeloBus.StoreFetch

/-! The bounds a fetch keeps: the limit, the byte budget, one event for each key in mode `latest`, and a
cursor that moves whenever there is more. -/

namespace VeloBus

namespace Fetch

variable {request : Fetch} {page : Page} {event : Event}

/-- Two events that mode `latest` does not return together. -/
def Rivals (a b : Event) : Prop := a.record.key ≠ "" ∧ slot a = slot b

theorem Rivals.symm {a b : Event} (h : Rivals a b) : Rivals b a := by
  obtain ⟨hkey, hslot⟩ := h
  have hsame : a.record.key = b.record.key := congrArg Prod.snd hslot
  exact ⟨hsame ▸ hkey, hslot.symm⟩

/-- A sound page within the bounds of its request. -/
structure Fits (request : Fetch) (page : Page) : Prop where
  sound : PageSound page
  positions : request.latest = true → ∀ index event, page.selected[index]? = some event →
    event.record.key ≠ "" → page.positions.lookup (slot event) = some index
  count : page.selected.length ≤ request.limit
  bytes : page.wireBytes ≤ request.maxBytes

theorem getElem?_concat {α : Type} {xs : List α} {x a : α} {index : Nat} (h : (xs ++ [x])[index]? = some a) :
    index < xs.length ∧ xs[index]? = some a ∨ index = xs.length ∧ a = x := by
  rcases Nat.lt_or_ge index xs.length with hindex | hindex
  · rw [List.getElem?_append_left hindex] at h
    exact Or.inl ⟨hindex, h⟩
  · rw [List.getElem?_append_right hindex, List.getElem?_singleton] at h
    split_ifs at h with hzero
    exact Or.inr ⟨by omega, (Option.some.inj h).symm⟩

theorem full_eq_false (h : request.full page event = false) :
    (request.place page event).wireBytes ≤ request.maxBytes ∧
      (request.replace page event.record = none → page.selected.length ≠ request.limit) := by
  simp only [full, decide_eq_false_iff_not, not_or, not_lt, not_and] at h
  refine ⟨?_, h.2⟩
  cases hreplace : request.replace page event.record <;> simpa [place, select, hreplace] using h.1

/-- The table of positions finds every keyed event of the page. -/
def Indexed (request : Fetch) (page : Page) : Prop :=
  request.latest = true → ∀ index event, page.selected[index]? = some event →
    event.record.key ≠ "" → page.positions.lookup (slot event) = some index

theorem place_indexed (h : Indexed request page) : Indexed request (request.place page event) := by
  cases hreplace : request.replace page event.record with
  | none =>
      intro hlatest index old hold hkey
      simp only [place, hreplace, select] at hold ⊢
      rw [replace] at hreplace
      rcases getElem?_concat hold with ⟨hlt', hold⟩ | ⟨rfl, rfl⟩
      · have hlookup := h hlatest index old hold hkey
        split_ifs with hkeyed
        · -- An event placed before is not in the slot of the new one.
          rw [if_pos hkeyed] at hreplace
          rw [Table.lookup_insert_ite, if_neg, hlookup]
          intro hslot
          rw [hslot, hreplace] at hlookup
          cases hlookup
        · exact hlookup
      · rw [if_pos ⟨hlatest, hkey⟩, Table.lookup_insert_ite]
        exact if_pos rfl
  | some index =>
      intro hlatest other old hold hkey
      simp only [place, hreplace, select] at hold ⊢
      have hkeyed : request.latest ∧ event.record.key ≠ "" := by
        by_contra hnot
        rw [replace, if_neg hnot] at hreplace
        cases hreplace
      rw [replace, if_pos hkeyed] at hreplace
      by_cases hsame : index = other
      · subst hsame
        obtain ⟨hlt, -⟩ := List.getElem?_eq_some_iff.mp hold
        rw [List.length_set] at hlt
        rw [List.getElem?_set_self hlt] at hold
        obtain rfl := Option.some.inj hold
        exact hreplace
      · rw [List.getElem?_set_ne hsame] at hold
        exact h hlatest other old hold hkey

/-- Two keyed events of one slot would be at one position. -/
theorem Indexed.pairwise (h : Indexed request page) (hlatest : request.latest = true) :
    page.selected.Pairwise fun a b => ¬Rivals a b := by
  rw [List.pairwise_iff_getElem]
  intro i j hi hj hlt hrivals
  have hkey' := hrivals.symm.1
  obtain ⟨hkey, hslot⟩ := hrivals
  have hfirst := h hlatest i _ (List.getElem?_eq_getElem hi) hkey
  have hsecond := h hlatest j _ (List.getElem?_eq_getElem hj) hkey'
  rw [hslot, hsecond] at hfirst
  exact absurd (Option.some.inj hfirst) (Nat.ne_of_gt hlt)

theorem place_fits (h : Fits request page) (hfull : request.full page event = false) :
    Fits request (request.place page event) := by
  obtain ⟨hbytes, hroom⟩ := full_eq_false hfull
  refine ⟨(place_sound request h.sound event).1, place_indexed h.positions, ?_, hbytes⟩
  have hcount := h.count
  cases hreplace : request.replace page event.record with
  | none =>
      have hlt : page.selected.length < request.limit := lt_of_le_of_ne hcount (hroom hreplace)
      simp only [place, hreplace, select, List.length_append, List.length_singleton]
      exact hlt
  | some index => simpa only [place, hreplace, select, List.length_set] using hcount

/-- The page a fetch starts with. -/
theorem fits_start (request : Fetch) : Fits request ⟨request.after, [], ∅, 0, 0, false⟩ where
  sound := ⟨nofun, rfl, rfl⟩
  positions := fun _ _ _ hold => by cases hold
  count := Nat.zero_le _
  bytes := Nat.zero_le _

theorem scan_fits {window : List Event} {page' : Page} (h : Fits request page)
    (hscan : request.scan window page = .ok page') : Fits request page' := by
  obtain ⟨-, -, -, hfits⟩ := scan_invariant (I := fun _ page => Fits request page)
    (fun _ _ _ _ _ hI _ => ⟨⟨hI.sound.indexed, hI.sound.bytes, hI.sound.safe⟩, hI.positions, hI.count, hI.bytes⟩)
    (fun _ _ _ _ _ hI _ hfull => place_fits hI hfull)
    (fun _ event _ _ _ hI _ => ⟨⟨hI.sound.indexed, hI.sound.bytes,
      (place_sound request hI.sound event).1.safe⟩, hI.positions, hI.count, hI.bytes⟩) h hscan
  exact hfits

theorem Fits.pairwise (h : Fits request page) (hlatest : request.latest = true) :
    page.selected.Pairwise fun a b => ¬Rivals a b := Indexed.pairwise h.positions hlatest

/-! ### Progress -/

theorem scan_cursor {window : List Event} {page' : Page} (h : request.scan window page = .ok page') :
    page'.cursor = page.cursor ∨ ∃ event ∈ window, page'.cursor = event.sequence := by
  induction window generalizing page with
  | nil =>
      cases h
      exact Or.inl rfl
  | cons event events ih =>
      have hplaced : (request.place page event).cursor = event.sequence := select_cursor _ _ _ _
      rw [scan_cons] at h
      split_ifs at h
      · rcases ih h with hcursor | ⟨event', hmem, hcursor⟩
        · exact Or.inr ⟨event, List.mem_cons_self, hcursor⟩
        · exact Or.inr ⟨event', List.mem_cons_of_mem _ hmem, hcursor⟩
      · cases h
        exact Or.inl rfl
      · rcases ih h with hcursor | ⟨event', hmem, hcursor⟩
        · exact Or.inr ⟨event, List.mem_cons_self, hcursor.trans hplaced⟩
        · exact Or.inr ⟨event', List.mem_cons_of_mem _ hmem, hcursor⟩

/-- The first event of a window is skipped, taken, or too large for the budget. -/
theorem scan_first {events : List Event} {page' : Page} (hlimit : 1 ≤ request.limit)
    (h : request.scan (event :: events) ⟨request.after, [], ∅, 0, 0, false⟩ = .ok page') :
    ∃ event' ∈ event :: events, page'.cursor = event'.sequence := by
  have hrest : ∀ page, page.cursor = event.sequence → request.scan events page = .ok page' →
      ∃ event' ∈ event :: events, page'.cursor = event'.sequence := by
    intro page hpage hscan
    rcases scan_cursor hscan with hcursor | ⟨event', hmem, hcursor⟩
    · exact ⟨event, List.mem_cons_self, hcursor.trans hpage⟩
    · exact ⟨event', List.mem_cons_of_mem _ hmem, hcursor⟩
  rw [scan_cons] at h
  split_ifs at h with hmatches hfull hlarge
  · exact hrest _ rfl h
  · -- An empty page is full only for an event over the budget.
    exfalso
    have hnone : request.replace ⟨request.after, [], ∅, 0, 0, false⟩ event.record = none := by
      rw [replace, ite_eq_right_iff]
      exact fun _ => rfl
    simp only [full, hnone, previousBytes, List.length_nil, Nat.zero_sub, Nat.zero_add, true_and,
      decide_eq_true_eq] at hfull
    rcases hfull with hbytes | hzero
    · exact hlarge ⟨rfl, hbytes⟩
    · omega
  · exact hrest _ (select_cursor _ _ _ _) h

end Fetch

namespace Store

variable {store next : Store} {request : Fetch} {result : FetchResult}

/-- What a fetch returns is within its bounds. -/
structure Bounded (request : Fetch) (result : FetchResult) : Prop where
  count : result.events.length ≤ request.limit
  bytes : (result.events.map fun event => event.record.wireBytes).sum ≤ request.maxBytes
  single : request.latest = true → result.events.Pairwise fun a b => ¬Fetch.Rivals a b

theorem fetch_bounded (h : store.fetch request = (next, .ok result)) : Bounded request result := by
  rw [fetch] at h
  simp only at h
  split_ifs at h with hafter
  · cases h
  · split at h
    · cases h
    · rename_i page hscan
      obtain ⟨-, hresult⟩ := Prod.mk.inj h
      obtain rfl := Except.ok.inj hresult
      have hfits := Fetch.scan_fits (Fetch.fits_start request) hscan
      have hperm : (page.selected.mergeSort fun a b => a.sequence ≤ b.sequence).Perm page.selected :=
        List.mergeSort_perm _ _
      refine ⟨?_, ?_, ?_⟩
      · rw [hperm.length_eq]
        exact hfits.count
      · rw [(hperm.map _).sum_eq, ← hfits.sound.bytes]
        exact hfits.bytes
      · intro hlatest
        refine (hperm.pairwise_iff ?_).mpr (hfits.pairwise hlatest)
        intro a b hnot hrivals
        exact hnot hrivals.symm

/-- **A fetch that leaves more has moved its cursor.** -/
theorem fetch_progress (hnumbered : store.Numbered) (hlimit : 1 ≤ request.limit)
    (h : store.fetch request = (next, .ok result)) (hmore : result.hasMore = true) :
    request.after < result.cursor := by
  rw [fetch] at h
  simp only at h
  split_ifs at h with hafter
  · cases h
  · split at h
    · cases h
    · rename_i page hscan
      obtain ⟨-, hresult⟩ := Prod.mk.inj h
      obtain rfl := Except.ok.inj hresult
      by_contra hstuck
      have hlast : page.cursor < store.lastSequence := of_decide_eq_true hmore
      obtain ⟨records, hevents⟩ := hnumbered
      have hwindow : (store.events.drop request.after).take maxScan =
          number (request.after + 1) ((records.drop request.after).take maxScan) := by
        rw [hevents, drop_number, take_number, Nat.add_comm 1]
      rw [hwindow] at hscan
      cases hrecords : (records.drop request.after).take maxScan with
      | nil =>
          have hlength : store.lastSequence = records.length := by
            rw [lastSequence, hevents, length_number]
          have hempty := congrArg List.length hrecords
          rw [List.length_take, List.length_drop, List.length_nil, maxScan] at hempty
          rw [hrecords] at hscan
          cases hscan
          dsimp only at hlast
          omega
      | cons record rest =>
          rw [hrecords, number_cons] at hscan
          obtain ⟨event, hmem, hcursor⟩ := Fetch.scan_first hlimit hscan
          rw [← number_cons] at hmem
          have hbounds := number_bounds hmem
          simp only [hcursor] at hstuck
          omega

end Store

end VeloBus
