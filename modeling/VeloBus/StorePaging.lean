import VeloBus.StoreFetch
import VeloBus.StorePublish
import VeloBus.Transition

/-! A consumer that pages through a log while others publish: the loop of `subscribe`. Each fetch
starts at the cursor of the one before; what a consumer got is compared with the part of the log between
its first cursor and its current one. -/

namespace VeloBus

/-- The stores the program can build. -/
inductive Store.Built (hash : Bytes → UInt32) : Store → Prop where
  | memory (maxRetainedBytes maxWalBytes : Nat) : Built hash (memory maxRetainedBytes maxWalBytes)
  | disk {content : Bytes} {maxRetainedBytes maxWalBytes : Nat} {calls : List Disk.Call} {store : Store}
      (opened : disk hash content maxRetainedBytes maxWalBytes = (calls, .ok store)) : Built hash store
  | publish {store : Store} (records : List Record) (fault : Option Fault) :
      Built hash store → Built hash (store.publish hash records fault).1
  | fetch {store : Store} (request : Fetch) : Built hash store → Built hash (store.fetch request).1

/-- A page a consumer got, with the log it was taken from. -/
structure Delivery where
  log : List Event
  result : FetchResult
deriving DecidableEq, Repr

/-- `published` are the records of all answered publishes, before and during the run. -/
structure Consumer where
  store : Store
  published : List Record
  cursor : Nat
  pages : List Delivery
deriving DecidableEq, Repr

namespace Consumer

/-- `other` is a fetch of somebody else. -/
inductive Op where
  | publish (records : List Record) (fault : Option Fault)
  | other (request : Fetch)
  | fetch (limit maxBytes : Nat)
deriving DecidableEq, Repr

def delivered (consumer : Consumer) : List Event := consumer.pages.flatMap fun page => page.result.events

section

variable (hash : Bytes → UInt32) (topic : String) (latest : Bool)

/-- A fetch that fails leaves the cursor. -/
def next (consumer : Consumer) : Op → Consumer
  | .publish records fault =>
    match consumer.store.publish hash records fault with
    | (store, _, .error _) => { consumer with store := store }
    | (store, _, .ok _) => { consumer with store := store, published := consumer.published ++ records }
  | .other request => { consumer with store := (consumer.store.fetch request).1 }
  | .fetch limit maxBytes =>
    match consumer.store.fetch ⟨topic, consumer.cursor, limit, maxBytes, latest⟩ with
    | (store, .error _) => { consumer with store := store }
    | (store, .ok result) =>
      { consumer with
        store := store
        cursor := result.cursor
        pages := consumer.pages ++ [⟨consumer.store.events, result⟩] }

/-- The limits a fetch request can carry. -/
def Op.Accepted : Op → Prop
  | .fetch limit maxBytes =>
    1 ≤ limit ∧ limit ≤ maxBatch ∧ 1 ≤ maxBytes ∧ maxBytes ≤ maxFetchBytes
  | _ => True

/-- A consumer that starts at a cursor within the log of any store. -/
def paging (start : Nat) : Transition Consumer Op where
  start consumer := consumer.store.Built hash ∧ start ≤ consumer.store.lastSequence ∧
    consumer.published = consumer.store.events.map Event.record ∧ consumer.cursor = start ∧
    consumer.pages = []
  step consumer op consumer' := op.Accepted ∧ consumer' = consumer.next hash topic latest op

end

end Consumer

/-! ### Built stores -/

namespace Store

theorem fetch_events (store : Store) (request : Fetch) :
    (store.fetch request).1.events = store.events := by
  rw [fetch]
  simp only
  split_ifs
  · rfl
  · split <;> rfl

theorem map_record_number (first : Nat) (records : List Record) :
    (number first records).map Event.record = records := by
  induction records generalizing first with
  | nil => rfl
  | cons record records ih => rw [number_cons, List.map_cons, ih]

theorem Numbered.append {store store' : Store} (h : store.Numbered) {records : List Record}
    (hevents : store'.events = store.events ++ number (store.lastSequence + 1) records) :
    store'.Numbered := by
  obtain ⟨log, hlog⟩ := h
  refine ⟨log ++ records, ?_⟩
  rw [hevents, number_append, ← hlog, lastSequence, hlog, length_number, Nat.add_comm]

theorem Built.numbered {hash : Bytes → UInt32} {store : Store} (h : store.Built hash) :
    store.Numbered := by
  induction h with
  | memory => exact ⟨[], rfl⟩
  | disk opened =>
      obtain ⟨log, tail, -, -, rfl⟩ := disk_eq_ok.mp opened
      exact ⟨log.flatten, rfl⟩
  | publish records fault _ ih =>
      rcases publish_events hash _ records fault with ⟨_, _, hevents⟩ | ⟨_, _, hevents⟩
      · obtain ⟨log, hlog⟩ := ih
        exact ⟨log, hevents.trans hlog⟩
      · exact ih.append hevents
  | fetch request _ ih =>
      obtain ⟨log, hlog⟩ := ih
      exact ⟨log, (fetch_events _ request).trans hlog⟩

end Store

namespace Consumer

section

variable {hash : Bytes → UInt32} {topic : String} {latest : Bool} {start : Nat}

/-- The events of a log after one cursor and up to another. -/
def part (events : List Event) (after cursor : Nat) : List Event := (events.take cursor).drop after

theorem part_append {after middle cursor : Nat} (h : after ≤ middle) (h' : middle ≤ cursor)
    (events : List Event) (hlength : middle ≤ events.length) :
    part events after middle ++ part events middle cursor = part events after cursor := by
  have hsplit : events.take cursor = events.take middle ++ (events.take cursor).drop middle := by
    conv_lhs => rw [← List.take_append_drop middle (events.take cursor), List.take_take, min_eq_left h']
  have hdrop : after ≤ (events.take middle).length := by
    rw [List.length_take]
    omega
  rw [part, part, part, hsplit, List.drop_append_of_le_length hdrop, ← hsplit]

theorem part_of_prefix {events events' : List Event} (h : events <+: events') (after : Nat) {cursor : Nat}
    (hcursor : cursor ≤ events.length) : part events' after cursor = part events after cursor := by
  obtain ⟨more, rfl⟩ := h
  rw [part, List.take_append_of_le_length hcursor, part]

/-- The events of interest to a consumer. -/
def wanted (topic : String) (events : List Event) : List Event :=
  events.filter fun event => topic = "*" ∨ topic = event.record.topic

theorem wanted_append (events events' : List Event) :
    wanted topic (events ++ events') = wanted topic events ++ wanted topic events' :=
  List.filter_append ..

theorem pairwise_part {store : Store} (h : store.Numbered) (after cursor : Nat) :
    (part store.events after cursor).Pairwise fun a b => a.sequence < b.sequence := by
  obtain ⟨records, hevents⟩ := h
  rw [part, hevents]
  exact (Store.pairwise_number 1 records).sublist ((List.drop_sublist _ _).trans (List.take_sublist _ _))

/-- The part of a log as the events with sequences between the cursors. -/
theorem part_eq_filter {store : Store} (h : store.Numbered) (after cursor : Nat) :
    part store.events after cursor =
      store.events.filter fun event => after < event.sequence ∧ event.sequence ≤ cursor := by
  obtain ⟨records, hevents⟩ := h
  rw [part, hevents, Store.filter_number]

/-- What a consumer got compared with the log up to its cursor. -/
structure Paged (topic : String) (latest : Bool) (start : Nat) (consumer : Consumer) : Prop where
  published : consumer.store.events = Store.number 1 consumer.published
  start_le : start ≤ consumer.cursor
  cursor_le : consumer.cursor ≤ consumer.store.events.length
  ascending : consumer.delivered.Pairwise fun a b => a.sequence < b.sequence
  summary : Compaction.Summary Fetch.slot (fun a b => a.sequence < b.sequence)
    (wanted topic (part consumer.store.events start consumer.cursor)) consumer.delivered
  keyless : ∀ event ∈ wanted topic (part consumer.store.events start consumer.cursor),
    event.record.key = "" → event ∈ consumer.delivered
  all : latest = false →
    consumer.delivered = wanted topic (part consumer.store.events start consumer.cursor)
  logs : ∀ page ∈ consumer.pages, page.log <+: consumer.store.events
  -- A page without more reaches the end of its log.
  complete : latest = false → ∀ before page after, consumer.pages = before ++ page :: after →
    page.result.hasMore = false →
      (before ++ [page]).flatMap (fun page => page.result.events) = wanted topic (page.log.drop start)

theorem Paged.numbered {consumer : Consumer} (h : Paged topic latest start consumer) :
    consumer.store.Numbered := ⟨consumer.published, h.published⟩

/-- A store with a longer log changes nothing for the consumer. -/
theorem Paged.grow {consumer : Consumer} (h : Paged topic latest start consumer) {store : Store}
    {published : List Record} (hpublished : store.events = Store.number 1 published)
    (hstart : consumer.store.events <+: store.events) :
    Paged topic latest start { consumer with store := store, published := published } := by
  have hpart := part_of_prefix hstart start h.cursor_le
  refine
    { published := hpublished
      start_le := h.start_le
      cursor_le := h.cursor_le.trans hstart.length_le
      ascending := h.ascending
      summary := ?_
      keyless := ?_
      all := ?_
      logs := fun page hpage => (h.logs page hpage).trans hstart
      complete := h.complete }
  all_goals simp only [hpart]
  · exact h.summary
  · exact h.keyless
  · exact h.all

theorem Paged.same {consumer : Consumer} (h : Paged topic latest start consumer) {store : Store}
    (hevents : store.events = consumer.store.events) :
    Paged topic latest start { consumer with store := store } :=
  h.grow (hevents.trans h.published) (hevents ▸ List.prefix_rfl)

/-- One more page. -/
theorem Paged.page {consumer : Consumer} (h : Paged topic latest start consumer) {limit maxBytes : Nat}
    {result : FetchResult}
    (hresult : Store.Fetched consumer.store ⟨topic, consumer.cursor, limit, maxBytes, latest⟩ result)
    {store : Store} (hevents : store.events = consumer.store.events) :
    Paged topic latest start
      { consumer with
        store := store
        cursor := result.cursor
        pages := consumer.pages ++ [⟨consumer.store.events, result⟩] } := by
  obtain ⟨hstart, hcursor, -, hmore, hmerged, hall, hascending⟩ := hresult
  have hparts := part_append h.start_le hstart consumer.store.events h.cursor_le
  have hnew : (⟨topic, consumer.cursor, limit, maxBytes, latest⟩ : Fetch).found
      ((consumer.store.events.take result.cursor).drop consumer.cursor) =
        wanted topic (part consumer.store.events consumer.cursor result.cursor) := rfl
  have hdelivered : delivered { consumer with
      store := store
      cursor := result.cursor
      pages := consumer.pages ++ [⟨consumer.store.events, result⟩] } =
        consumer.delivered ++ result.events := by simp [delivered]
  have hwanted : wanted topic (part store.events start result.cursor) =
      wanted topic (part consumer.store.events start consumer.cursor) ++
        wanted topic (part consumer.store.events consumer.cursor result.cursor) := by
    rw [hevents, ← hparts, wanted_append]
  have hallPages : latest = false →
      consumer.delivered ++ result.events = wanted topic (part consumer.store.events start result.cursor) := by
    intro hlatest
    rw [h.all hlatest, hall hlatest, ← hparts, wanted_append]
    rfl
  refine ⟨hevents.trans h.published, h.start_le.trans hstart, ?_, ?_, ?_, ?_, ?_, ?_, ?_⟩
  · rw [hevents]
    exact hcursor
  · rw [hdelivered, List.pairwise_append]
    refine ⟨h.ascending, hascending, fun a ha b hb => ?_⟩
    -- Earlier pages end where this one starts.
    have ha := (List.mem_filter.mp (h.summary.subset ha)).1
    have hb := (Fetch.mem_found.mp (hmerged.summary.subset hb)).1
    have hsorted := pairwise_part h.numbered start result.cursor
    rw [← hparts, List.pairwise_append] at hsorted
    exact hsorted.2.2 a ha b hb
  · simp only [hdelivered, hwanted]
    exact h.summary.append hmerged.summary
  · simp only [hdelivered, hwanted]
    intro event hmem hkey
    rcases List.mem_append.mp hmem with hmem | hmem
    · exact List.mem_append_left _ (h.keyless event hmem hkey)
    · exact List.mem_append_right _ (hmerged.keyless event hmem hkey)
  · intro hlatest
    rw [hdelivered, hallPages hlatest, hevents]
  · intro page hpage
    rw [hevents]
    rcases List.mem_append.mp hpage with hpage | hpage
    · exact h.logs page hpage
    · rw [List.mem_singleton.mp hpage]
  · intro hlatest before page after hsplit hnone
    rcases List.eq_nil_or_concat' after with rfl | ⟨after, last, rfl⟩
    · obtain ⟨rfl, hpage⟩ := List.append_inj' hsplit rfl
      obtain rfl := (List.cons.inj hpage).1
      rw [hmore, decide_eq_false_iff_not, not_lt] at hnone
      calc
        (consumer.pages ++ [(⟨consumer.store.events, result⟩ : Delivery)]).flatMap
              (fun page => page.result.events)
            = consumer.delivered ++ result.events := hdelivered
        _ = wanted topic (part consumer.store.events start result.cursor) := hallPages hlatest
        _ = wanted topic (consumer.store.events.drop start) := by
            rw [part, List.take_of_length_le hnone]
    · rw [← List.cons_append, ← List.append_assoc] at hsplit
      obtain ⟨hpages, -⟩ := List.append_inj' hsplit rfl
      exact h.complete hlatest before page after hpages hnone

theorem Paged.next {consumer : Consumer} (h : Paged topic latest start consumer) (op : Op) :
    Paged topic latest start (consumer.next hash topic latest op) := by
  cases op with
  | publish records fault =>
      rw [Consumer.next]
      rcases Store.publish_events hash consumer.store records fault with
        ⟨error, hresult, hevents⟩ | ⟨receipt, hresult, hevents⟩
      · split
        · rename_i store calls error' hpublish
          rw [hpublish] at hevents
          exact h.same hevents
        · rename_i hpublish
          rw [hpublish] at hresult
          cases hresult
      · split
        · rename_i hpublish
          rw [hpublish] at hresult
          cases hresult
        · rename_i store calls receipt' hpublish
          rw [hpublish] at hevents
          apply h.grow
          · rw [hevents, Store.number_append, Store.lastSequence, h.published, Store.length_number,
              Nat.add_comm]
          · exact hevents ▸ List.prefix_append _ _
  | other request => exact h.same (Store.fetch_events consumer.store request)
  | fetch limit maxBytes =>
      have hevents := Store.fetch_events consumer.store ⟨topic, consumer.cursor, limit, maxBytes, latest⟩
      rw [Consumer.next]
      split
      · rename_i store error hfetch
        rw [hfetch] at hevents
        exact h.same hevents
      · rename_i store result hfetch
        rw [hfetch] at hevents
        exact h.page (Store.fetch_eq_ok h.numbered hfetch) hevents

theorem paged_reachable {consumer : Consumer}
    (h : (paging hash topic latest start).Reachable consumer) : Paged topic latest start consumer := by
  apply h.invariant (P := Paged topic latest start)
  · rintro consumer ⟨hbuilt, hstart, hpublished, hcursor, hpages⟩
    have hlog : consumer.store.events = Store.number 1 consumer.published := by
      obtain ⟨records, hevents⟩ := hbuilt.numbered
      rw [hpublished, hevents, Store.map_record_number]
    have hempty : part consumer.store.events start consumer.cursor = [] := by
      rw [part, hcursor, List.drop_eq_nil_iff, List.length_take]
      exact min_le_left _ _
    have hnone : consumer.delivered = [] := by rw [delivered, hpages, List.flatMap_nil]
    refine ⟨hlog, hcursor.ge, hcursor.trans_le hstart, ?_, ?_, ?_, ?_, ?_, ?_⟩
    · rw [hnone]
      exact List.Pairwise.nil
    · rw [hnone, hempty]
      exact ⟨List.nil_subset _, nofun⟩
    · rw [hempty]
      exact nofun
    · intro _
      rw [hnone, hempty]
      rfl
    · rw [hpages]
      exact nofun
    · intro _ before page after hsplit
      rw [hpages] at hsplit
      exact absurd hsplit.symm (by simp)
  · rintro consumer op _ _ h ⟨-, rfl⟩
    exact h.next op

/-- The wanted part of a log as the events of the topic with sequences between the cursors. -/
theorem wanted_part (topic : String) {store : Store} (h : store.Numbered) (after cursor : Nat) :
    wanted topic (part store.events after cursor) =
      store.events.filter fun event => after < event.sequence ∧ event.sequence ≤ cursor ∧
        (topic = "*" ∨ topic = event.record.topic) := by
  rw [wanted, part_eq_filter h, List.filter_filter]
  apply List.filter_congr
  intro event _
  simp only [Bool.decide_and]
  grind

theorem wanted_drop {store : Store} (h : store.Numbered) {log : List Event} (hlog : log <+: store.events)
    (after : Nat) :
    wanted topic (log.drop after) = log.filter fun event =>
      after < event.sequence ∧ (topic = "*" ∨ topic = event.record.topic) := by
  obtain ⟨records, hevents⟩ := h
  have hnumber : log = Store.number 1 (records.take log.length) := by
    rw [← Store.take_number, ← hevents]
    exact List.prefix_iff_eq_take.mp hlog
  have hpart : part log after log.length = log.drop after := by rw [part, List.take_length]
  have hstore := wanted_part topic
    (⟨records.take log.length, hnumber⟩ : ({ Store.memory 0 0 with events := log } : Store).Numbered)
    after log.length
  rw [← hpart]
  refine hstore.trans (List.filter_congr fun event hmem => ?_)
  have hle : event.sequence ≤ log.length := by
    rw [hnumber] at hmem
    have := (Store.number_bounds hmem).2
    rw [List.length_take] at this
    omega
  simp [hle]

/-- **Paging in mode `all` delivers every matching event exactly once, in order.** -/
theorem paging_all {consumer : Consumer} (h : (paging hash topic false start).Reachable consumer) :
    consumer.delivered = consumer.store.events.filter (fun event =>
        start < event.sequence ∧ event.sequence ≤ consumer.cursor ∧
          (topic = "*" ∨ topic = event.record.topic)) ∧
      consumer.store.events = Store.number 1 consumer.published ∧
      (consumer.delivered.Pairwise fun a b => a.sequence < b.sequence) ∧
      (∀ page ∈ consumer.pages, page.log <+: consumer.store.events) ∧
      ∀ before page after, consumer.pages = before ++ page :: after → page.result.hasMore = false →
        (before ++ [page]).flatMap (fun page => page.result.events) =
          page.log.filter (fun event =>
            start < event.sequence ∧ (topic = "*" ∨ topic = event.record.topic)) := by
  have hpaged := paged_reachable h
  refine ⟨?_, hpaged.published, hpaged.ascending, hpaged.logs, ?_⟩
  · rw [hpaged.all rfl, wanted_part topic hpaged.numbered]
  · intro before page after hpages hnone
    have hlog := hpaged.logs page (by rw [hpages]; simp)
    rw [hpaged.complete rfl before page after hpages hnone, wanted_drop hpaged.numbered hlog]

theorem reachable_foldl {consumer : Consumer}
    (h : (paging hash topic latest start).Reachable consumer) {ops : List Op}
    (hops : ∀ op ∈ ops, op.Accepted) :
    (paging hash topic latest start).Reachable (ops.foldl (next hash topic latest) consumer) := by
  induction ops generalizing consumer with
  | nil => exact h
  | cons op ops ih =>
      exact ih (h.step (l := op) ⟨hops op List.mem_cons_self, rfl⟩)
        fun op' hmem => hops op' (List.mem_cons_of_mem _ hmem)

/-- Three updates of one key and another topic, read in pages of one event. -/
def sampleOps : List Op :=
  [.publish [⟨"a", "k", [1]⟩, ⟨"b", "", []⟩] none, .fetch 1 100,
    .publish [⟨"a", "k", [2]⟩, ⟨"a", "k", [3]⟩] none, .fetch 1 100]

def sample (latest : Bool) : Consumer :=
  sampleOps.foldl (next (fun _ => 0) "a" latest) ⟨Store.memory 2000 0, [], 0, []⟩

theorem sample_reachable (latest : Bool) :
    (paging (fun _ => 0) "a" latest 0).Reachable (sample latest) := by
  apply reachable_foldl
  · exact .of_start ⟨.memory _ _, le_rfl, rfl, rfl, rfl⟩
  · simp [sampleOps, Op.Accepted, maxBatch, maxFetchBytes]

theorem paging_all_sample :
    (sample false).delivered = [⟨1, ⟨"a", "k", [1]⟩⟩, ⟨3, ⟨"a", "k", [2]⟩⟩] := by
  rw [(paging_all (sample_reachable false)).1]
  decide

/-- **Paging in mode `latest` delivers a summary of the matching events.** -/
theorem paging_latest {consumer : Consumer} (h : (paging hash topic true start).Reachable consumer) :
    let matching := consumer.store.events.filter (fun event =>
      start < event.sequence ∧ event.sequence ≤ consumer.cursor ∧
        (topic = "*" ∨ topic = event.record.topic))
    (consumer.delivered.Pairwise fun a b => a.sequence < b.sequence) ∧
      consumer.delivered.Sublist matching ∧
      (∀ event ∈ matching, event.record.key = "" → event ∈ consumer.delivered) ∧
      (∀ event ∈ matching, event.record.key ≠ "" → event ∉ consumer.delivered →
        ∃ later ∈ consumer.delivered, later.record.topic = event.record.topic ∧
          later.record.key = event.record.key ∧ event.sequence < later.sequence) ∧
      Compaction.values (fun event => (event.record.topic, event.record.key))
          (fun event => event.record.payload) consumer.delivered =
        Compaction.values (fun event => (event.record.topic, event.record.key))
          (fun event => event.record.payload) matching := by
  intro matching
  have hpaged := paged_reachable h
  have hmatching : wanted topic (part consumer.store.events start consumer.cursor) = matching :=
    wanted_part topic hpaged.numbered start consumer.cursor
  have hsummary := hpaged.summary
  have hkeyless := hpaged.keyless
  rw [hmatching] at hsummary hkeyless
  have hsorted : matching.Pairwise fun a b => a.sequence < b.sequence := by
    rw [← hmatching]
    exact (pairwise_part hpaged.numbered start consumer.cursor).sublist List.filter_sublist
  refine ⟨hpaged.ascending, ?_, hkeyless, ?_, ?_⟩
  · have hnodup : consumer.delivered.Nodup := hpaged.ascending.imp fun hlt => by
      rintro rfl
      exact lt_irrefl _ hlt
    have : Std.Antisymm fun a b : Event => a.sequence < b.sequence :=
      ⟨fun a b hab hba => absurd hab (lt_asymm hba)⟩
    exact List.sublist_of_subperm_of_pairwise (List.subperm_of_subset hnodup hsummary.subset)
      hpaged.ascending hsorted
  · intro event hmem _ hnot
    obtain ⟨later, hlater, hslot, hlt⟩ := hsummary.superseded event hmem hnot
    obtain ⟨htopic, hkey⟩ := Prod.mk.inj hslot
    exact ⟨later, hlater, htopic, hkey, hlt⟩
  · have : Std.Asymm fun a b : Event => a.sequence < b.sequence := ⟨fun a b hab => lt_asymm hab⟩
    exact hsummary.values_eq _ hsorted hpaged.ascending

theorem paging_latest_sample :
    Compaction.values (fun event => (event.record.topic, event.record.key))
      (fun event => event.record.payload) (sample true).delivered ("a", "k") = some [3] := by
  rw [(paging_latest (sample_reachable true)).2.2.2.2]
  decide

end

end Consumer

end VeloBus
