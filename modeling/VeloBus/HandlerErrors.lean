import VeloBus.ClientRequests

/-! The error of a handler on its way to the broker: cut after 4096 units, and again after 4096 bytes where a
character ends. -/

namespace VeloBus.Client

/-- `(bytes[end] & 0xc0) === 0x80`; what is not there counts as 0. -/
def inside (bytes : Bytes) : Int → Bool
  | .ofNat place => (bytes[place]?).elim false Bytes.continuation
  | .negSucc _ => false

/-- The loop in `handlerErrorBytes`, with the `end` it is left with. -/
inductive WalksBack (bytes : Bytes) : Int → Int → Prop where
  | stops {place : Int} (h : inside bytes place = false) : WalksBack bytes place place
  | goes {place last : Int} (h : inside bytes place = true) (hrest : WalksBack bytes (place - 1) last) :
      WalksBack bytes place last

theorem inside_ofNat (bytes : Bytes) (place : Nat) : inside bytes place = Bytes.continuation (bytes.getD place 0) := by
  change (bytes[place]?).elim false Bytes.continuation = _
  rw [List.getD_eq_getElem?_getD]
  cases bytes[place]? with
  | none => rfl
  | some b => rfl

/-- The loop comes to an end when the first byte is not inside a character. -/
theorem walksBack_boundary {bytes : Bytes} (hfirst : inside bytes 0 = false) (n : Nat) :
    WalksBack bytes n (Bytes.boundary bytes n) := by
  induction n with
  | zero => exact .stops hfirst
  | succ n ih =>
      rw [Bytes.boundary]
      split_ifs with h
      · apply WalksBack.goes
        · rw [inside_ofNat]
          exact h
        · rw [Nat.cast_succ, add_sub_cancel_right]
          exact ih
      · apply WalksBack.stops
        rw [inside_ofNat]
        exact Bool.eq_false_iff.mpr h

theorem WalksBack.unique {bytes : Bytes} {place last last' : Int} (h : WalksBack bytes place last)
    (h' : WalksBack bytes place last') : last = last' := by
  induction h with
  | stops hstop =>
      cases h' with
      | stops => rfl
      | goes hgo =>
          rw [hstop] at hgo
          cases hgo
  | goes hgo _ ih =>
      cases h' with
      | stops hstop =>
          rw [hgo] at hstop
          cases hstop
      | goes _ hrest => exact ih hrest

/-- What is left of the characters of a text that are too many. -/
theorem take_boundary_longest (cs : List Char) {n : Nat} (hn : n ≤ (cs.flatMap String.utf8EncodeChar).length) :
    ∃ kept, kept <+: cs ∧ (cs.flatMap String.utf8EncodeChar).take (Bytes.boundary (cs.flatMap String.utf8EncodeChar) n) =
        kept.flatMap String.utf8EncodeChar ∧
      ∀ other, other <+: cs → (other.flatMap String.utf8EncodeChar).length ≤ n → other <+: kept := by
  obtain ⟨kept, hkept, htake⟩ := Bytes.take_flatMap_utf8 ((Bytes.boundary_le _ n).trans hn) (Bytes.boundary_eq _ n)
  refine ⟨kept, hkept, htake, ?_⟩
  intro other hother hfits
  rcases List.prefix_or_prefix_of_prefix hother hkept with hshorter | ⟨more, rfl⟩
  · exact hshorter
  · -- More characters would end beyond the boundary.
    have hend := Bytes.le_boundary hfits (Bytes.getD_of_prefix hother)
    have hlength := congrArg List.length htake
    rw [List.length_take, min_eq_left ((Bytes.boundary_le _ n).trans hn)] at hlength
    rw [hlength, List.flatMap_append, List.length_append] at hend
    cases more with
    | nil => rw [List.append_nil]
    | cons c more =>
        obtain ⟨b, bs, hcons, -⟩ := Bytes.head_utf8EncodeChar c
        rw [List.flatMap_cons, hcons, List.length_append, List.length_cons] at hend
        omega

/-- What is sent of a message: some of the characters of its first 4096 units, as many as fit. -/
theorem handlerErrorBytes_longest (message : Text) : ∃ kept, kept <+: Text.chars (message.take 4096) ∧
    handlerErrorBytes message = Bytes.utf8 (String.ofList kept) ∧
    ∀ other, other <+: Text.chars (message.take 4096) → (Bytes.utf8 (String.ofList other)).length ≤ 4096 → other <+: kept := by
  rw [handlerErrorBytes, cut_utf8, Text.toString]
  simp only [Bytes.utf8_ofList]
  split_ifs with hfits
  · exact ⟨_, List.prefix_rfl, rfl, fun other hother _ => hother⟩
  · exact take_boundary_longest _ (not_le.mp hfits).le

/-- The loop that cuts a long message ends, where `handlerErrorBytes` cuts it. -/
theorem handlerErrorBytes_loop (message : Text) (hlong : 4096 < (Bytes.utf8 (Text.toString (message.take 4096))).length)
    (last : Int) : WalksBack (Bytes.utf8 (Text.toString (message.take 4096))) 4096 last ↔
      last = (handlerErrorBytes message).length := by
  have hfirst : inside (Bytes.utf8 (Text.toString (message.take 4096))) 0 = false := by
    unfold Text.toString
    rw [Bytes.utf8_ofList]
    exact (inside_ofNat _ 0).trans (Bytes.getD_of_prefix List.nil_prefix)
  have hwalks := walksBack_boundary hfirst 4096
  have hlength : (handlerErrorBytes message).length = Bytes.boundary (Bytes.utf8 (Text.toString (message.take 4096))) 4096 := by
    rw [handlerErrorBytes, cut_utf8, if_neg (not_le.mpr hlong), List.length_take,
      min_eq_left ((Bytes.boundary_le _ _).trans hlong.le)]
  rw [hlength]
  constructor
  · intro h
    exact h.unique hwalks
  · rintro rfl
    exact hwalks

/-- **Handler errors are cut to what COMPLETE accepts.** The loop ends; what is left has at most 4096 bytes and is
the longest part, at the end of a character, of the encoding of the first 4096 units; and the broker decodes every
completion with status 1 that is sent. -/
theorem handlerErrors_accepted (message : Text) :
    (4096 < (Bytes.utf8 (Text.toString (message.take 4096))).length → ∀ last : Int,
      WalksBack (Bytes.utf8 (Text.toString (message.take 4096))) 4096 last ↔ last = (handlerErrorBytes message).length) ∧
    (handlerErrorBytes message).length ≤ 4096 ∧ (Bytes.fromUtf8 (handlerErrorBytes message)).isSome ∧
    (∃ kept, kept <+: Text.chars (message.take 4096) ∧ handlerErrorBytes message = Bytes.utf8 (String.ofList kept) ∧
      ∀ other, other <+: Text.chars (message.take 4096) → (Bytes.utf8 (String.ofList other)).length ≤ 4096 →
        other <+: kept) ∧
    ∀ (callId : UInt64) (outcome : Outcome) (output : Bytes), settle outcome = .ok (1, .of output) → outcome.Legible →
      decodeRequest 9 (complete callId 1 output) = .ok (.complete callId.toNat true output) := by
  refine ⟨handlerErrorBytes_loop message, (handlerErrorBytes_legal message).1, (handlerErrorBytes_legal message).2,
    handlerErrorBytes_longest message, ?_⟩
  intro callId outcome output hsettle hlegible
  obtain ⟨-, -, hfits, hfailed⟩ := settle_legible hsettle (TypedArray.written_of output) hlegible
  apply decodeRequest_eq_ok.mpr
  exact ⟨⟨callId.toNat_lt, hfits, fun _ => hfailed rfl⟩, rfl, rfl⟩

/-- One byte, and then characters of two. -/
def accented (n : Nat) : Text := 33 :: List.replicate n 0xe9

theorem chars_accented (n : Nat) : Text.chars (accented n) = '!' :: List.replicate n 'é' := by
  have htail : ∀ n, Text.chars (List.replicate n 0xe9) = List.replicate n 'é' := by
    intro n
    induction n with
    | zero => rfl
    | succ n ih =>
        rw [List.replicate_succ, List.replicate_succ, ← ih]
        exact Text.chars_units 'é' _
  rw [accented, ← htail]
  exact Text.chars_units '!' _

theorem length_accented (n : Nat) :
    (Bytes.utf8 (String.ofList ('!' :: List.replicate n 'é'))).length = 1 + 2 * n := by
  have hchar : (String.utf8EncodeChar 'é').length = 2 := rfl
  have hfirst : (String.utf8EncodeChar '!').length = 1 := rfl
  rw [Bytes.utf8_ofList, List.flatMap_cons, List.length_append, hfirst, List.length_flatMap, List.map_replicate,
    List.sum_replicate_nat, hchar, Nat.mul_comm]

/-- The character that the limit is inside of is left out as a whole. -/
theorem length_handlerErrorBytes_accented {n : Nat} (hlong : 2048 ≤ n) (hunits : n < 4096) :
    (handlerErrorBytes (accented n)).length = 4095 := by
  obtain ⟨kept, hkept, hbytes, hmost⟩ := handlerErrorBytes_longest (accented n)
  have hfits := (handlerErrorBytes_legal (accented n)).1
  have htake : (accented n).take 4096 = accented n := by
    apply List.take_of_length_le
    rw [accented, List.length_cons, List.length_replicate]
    omega
  rw [htake, chars_accented] at hkept hmost
  have hleast : ∀ m, 1 + 2 * m ≤ 4096 → '!' :: List.replicate m 'é' <+: kept := by
    intro m hm
    apply hmost
    · rw [List.cons_prefix_cons, List.prefix_replicate_iff, List.length_replicate]
      exact ⟨rfl, by omega, rfl⟩
    · rw [length_accented]
      exact hm
  cases kept with
  | nil => exact absurd (hleast 0 (by decide)).length_le (Nat.not_succ_le_zero _)
  | cons c kept =>
      obtain ⟨rfl, htail⟩ := List.cons_prefix_cons.mp hkept
      have hlength : ∀ m, 1 + 2 * m ≤ 4096 → m ≤ kept.length := by
        intro m hm
        have hle := (hleast m hm).length_le
        rw [List.length_cons, List.length_cons, List.length_replicate] at hle
        exact Nat.le_of_succ_le_succ hle
      have hall := hlength 2047 (by decide)
      rw [hbytes, (List.prefix_replicate_iff.mp htail).2, length_accented] at hfits ⊢
      omega

theorem handlerErrors_accepted_cut : (handlerErrorBytes (accented 2048)).length = 4095 ∧
    decodeRequest 9 (complete 1 1 (handlerErrorBytes (accented 2048))) =
      .ok (.complete 1 true (handlerErrorBytes (accented 2048))) :=
  ⟨length_handlerErrorBytes_accented (by decide) (by decide),
    (handlerErrors_accepted (accented 2048)).2.2.2.2 1 (.threw (.error (.text (accented 2048)))) _ rfl trivial⟩

/-- A unit without its other half is sent as U+FFFD. -/
example : handlerErrorBytes [0xd83d] = [0xef, 0xbf, 0xbd] := by decide

end VeloBus.Client
