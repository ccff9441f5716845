import VeloBus.LinkServer

/-! The loop and the tasks of a connection, from one step to the next: what has returned stays so, what runs was
welcomed, and an operation goes on until it finishes or its task ends. -/

namespace VeloBus.Connection

/-- The operation finishes in the step, or its task ends. -/
def Op.Ends (index : Nat) : Op → Prop
  | .finish index' _ => index' = index
  | .panic index' => index' = index
  | .abortTask index' => index' = index
  | _ => False

namespace State

variable {s : State} {token : String} {connection : Nat} {op : Op}

/-! ### The loop -/

variable (token) in
/-- What a step does to the loop. -/
theorem loop_next (hop : s.Enabled connection op) : (s.next token op).loop = s.loop ∨
    (s.next token op).loop = .returned ∨ s.loop.Early ∧ (s.next token op).loop.Early ∨
    op = .greeted ∧ s.loop = .greeting [] true ∨ s.loop.Running := by
  have hrunning : ∀ {loop : Loop}, s.loop = loop → ¬loop.Early → loop ≠ .returned → s.loop.Running := by
    intro loop hloop hearly hreturned
    rw [hloop]
    exact ⟨hearly, hreturned⟩
  have hdrop : ∀ index, (s.dropTask index).loop = s.loop := by
    intro index
    unfold dropTask
    split_ifs <;> rfl
  cases op with
  | hello =>
      obtain ⟨hloop, frame, rest, hread⟩ := hop
      simp only [next, hread]
      exact Or.inr (Or.inr (Or.inl ⟨Or.inl hloop, Or.inr ⟨_, _, rfl⟩⟩))
  | greet count =>
      obtain ⟨rest, accepted, hloop, -⟩ := hop
      simp only [next, hloop]
      exact Or.inr (Or.inr (Or.inl ⟨Or.inr ⟨_, _, rfl⟩, Or.inr ⟨_, _, rfl⟩⟩))
  | greeted =>
      obtain ⟨accepted, hloop⟩ := hop
      cases accepted with
      | true => exact Or.inr (Or.inr (Or.inr (Or.inl ⟨rfl, hloop⟩)))
      | false =>
          simp only [next, hloop]
          exact Or.inr (Or.inl trivial)
  | greetFailed => exact Or.inr (Or.inl rfl)
  | read =>
      obtain ⟨-, frame, rest, hread⟩ := hop
      simp only [next, hread]
      exact Or.inl trivial
  | pass =>
      obtain ⟨⟨frame, hreader⟩, -⟩ := hop
      simp only [next, hreader]
      exact Or.inl trivial
  | accept => exact Or.inr (Or.inr (Or.inr (Or.inr (hrunning hop.1 not_early_select (by simp)))))
  | panic index => exact Or.inl (hdrop index)
  | reply index =>
      obtain ⟨task, response, htask, -⟩ := hop
      simp only [next, htask]
      split_ifs
      · exact Or.inl (hdrop index)
      · exact Or.inl rfl
  | send =>
      obtain ⟨⟨response, close, hloop⟩, -⟩ := hop
      exact Or.inr (Or.inr (Or.inr (Or.inr (hrunning hloop not_early_sending (by simp)))))
  | receipt =>
      obtain ⟨⟨close, hloop⟩, -⟩ := hop
      exact Or.inr (Or.inr (Or.inr (Or.inr (hrunning hloop not_early_receipt (by simp)))))
  | take =>
      obtain ⟨response, hresponse⟩ := Option.isSome_iff_exists.mp hop.2
      simp only [next, hresponse]
      exact Or.inl rfl
  | put count =>
      obtain ⟨rest, written, hwriter, -⟩ := hop
      simp only [next, hwriter]
      exact Or.inl trivial
  | wrote =>
      obtain ⟨written, hwriter⟩ := hop
      simp only [next, hwriter]
      exact Or.inl trivial
  | leave => exact Or.inr (Or.inl rfl)
  | cancel => exact Or.inr (Or.inl rfl)
  | abortTask index => exact Or.inl (hdrop index)
  | _ => exact Or.inl rfl

/-- A loop that has returned does not come back. -/
theorem returned_next (hop : s.Enabled connection op) (hloop : s.loop = .returned) :
    (s.next token op).loop = .returned := by
  rcases loop_next token hop with hsame | hreturned | ⟨hearly, -⟩ | ⟨-, hgreeting⟩ | hrunning
  · exact hsame.trans hloop
  · exact hreturned
  · exact absurd (hloop ▸ hearly) not_early_returned
  · cases hgreeting.symm.trans hloop
  · exact absurd hloop hrunning.2

/-- A loop that runs was running, or its peer was just welcomed. -/
theorem running_next (hop : s.Enabled connection op) (hrunning : (s.next token op).loop.Running) :
    s.loop.Running ∨ op = .greeted ∧ s.loop = .greeting [] true := by
  rcases loop_next token hop with hsame | hreturned | ⟨-, hearly⟩ | hgreeted | hbefore
  · exact Or.inl (hsame ▸ hrunning)
  · exact absurd hreturned hrunning.2
  · exact absurd hearly hrunning.1
  · exact Or.inr hgreeted
  · exact Or.inl hbefore

/-! ### The tasks -/

/-- An operation that has not finished. -/
def Performs (s : State) (index : Nat) (request : Request) : Prop :=
  ∃ task, s.tasks.lookup index = some task ∧ task.response = none ∧ task.request = request

theorem Inv.performs_lt (h : s.Inv token) {index : Nat} {request : Request} (hperforms : s.Performs index request) :
    index < s.taken.length := by
  obtain ⟨task, hlookup, -⟩ := hperforms
  obtain ⟨frame, howes, -⟩ := h.task index task hlookup
  exact howes.lt

/-- A task that the step does not touch. -/
theorem tasks_next (hop : s.Enabled connection op) {index : Nat} (hends : ¬op.Ends index)
    (hreply : op ≠ .reply index) (haccept : op = .accept → index ≠ s.taken.length) :
    (s.next token op).tasks.lookup index = s.tasks.lookup index := by
  have hdrop : ∀ index', index' ≠ index → (s.dropTask index').tasks.lookup index = s.tasks.lookup index := by
    intro index' hne
    unfold dropTask
    split_ifs
    · exact (Table.lookup_erase_ite ..).trans (if_neg hne.symm)
    · rfl
  cases op with
  | hello =>
      obtain ⟨-, frame, rest, hread⟩ := hop
      simp only [next, hread, greet]
  | greet count =>
      obtain ⟨rest, accepted, hloop, -⟩ := hop
      simp only [next, hloop]
  | greeted =>
      obtain ⟨accepted, hloop⟩ := hop
      cases accepted <;> simp only [next, hloop, welcome]
  | read =>
      obtain ⟨-, frame, rest, hread⟩ := hop
      simp only [next, hread]
  | pass =>
      obtain ⟨⟨frame, hreader⟩, -⟩ := hop
      simp only [next, hreader]
  | accept =>
      obtain ⟨frame, hframe⟩ := Option.isSome_iff_exists.mp hop.2
      simp only [next, hframe]
      rcases accept_cases frame s with ⟨-, heq⟩ | ⟨-, error, -, heq⟩ | ⟨-, -, request, -, -, heq⟩
      · rw [heq]
      · rw [heq]
      · rw [heq, Table.lookup_insert_ite, if_neg (haccept rfl)]
  | finish index' result =>
      simp only [next, Table.lookup_modify]
      exact if_neg fun heq => hends heq.symm
  | panic index' => exact hdrop index' hends
  | reply index' =>
      have hne : index' ≠ index := fun heq => hreply (congrArg Op.reply heq)
      obtain ⟨task, response, htask, -⟩ := hop
      simp only [next, htask]
      split_ifs
      · exact hdrop index' hne
      · exact (Table.lookup_erase_ite ..).trans (if_neg hne.symm)
  | send =>
      obtain ⟨⟨response, close, hloop⟩, -⟩ := hop
      simp only [next, hloop]
      split_ifs <;> rfl
  | receipt =>
      obtain ⟨⟨close, hloop⟩, -⟩ := hop
      simp only [next, hloop]
  | take =>
      obtain ⟨response, hresponse⟩ := Option.isSome_iff_exists.mp hop.2
      simp only [next, hresponse, retire, release]
  | put count =>
      obtain ⟨rest, written, hwriter, -⟩ := hop
      simp only [next, hwriter]
  | wrote =>
      obtain ⟨written, hwriter⟩ := hop
      simp only [next, hwriter]
  | abortTask index' => exact hdrop index' hends
  | _ => rfl

/-- An operation goes on. -/
theorem Performs.next (hinv : s.Inv token) (hop : s.Enabled connection op) {index : Nat} {request : Request}
    (h : s.Performs index request) (hends : ¬op.Ends index) : (s.next token op).Performs index request := by
  have hlt := hinv.performs_lt h
  obtain ⟨task, hlookup, hnone, hrequest⟩ := h
  refine ⟨task, ?_, hnone, hrequest⟩
  rw [tasks_next hop hends ?_ fun _ => hlt.ne]
  · exact hlookup
  · rintro rfl
    -- What a task sends is there.
    obtain ⟨task', response, hlookup', hresponse, -⟩ := hop
    obtain rfl := Option.some.inj (hlookup.symm.trans hlookup')
    rw [hnone] at hresponse
    cases hresponse

/-- An operation was going on, or is that of the frame just taken. -/
theorem Performs.back (hop : s.Enabled connection op) {index : Nat} {request : Request}
    (h : (s.next token op).Performs index request) :
    s.Performs index request ∧ ¬op.Ends index ∨ op = .accept ∧ index = s.taken.length := by
  obtain ⟨task, hlookup, hnone, hrequest⟩ := h
  have hdrop : ∀ {t : State}, (s.dropTask index).tasks = t.tasks → t.tasks.lookup index ≠ some task := by
    intro t heq hsome
    rw [← heq] at hsome
    unfold dropTask at hsome
    split_ifs at hsome with hlive
    · rw [Table.lookup_erase_ite, if_pos rfl] at hsome
      cases hsome
    · exact hlive (Option.isSome_iff_exists.mpr ⟨task, hsome⟩)
  have hends : ¬op.Ends index := by
    intro hends
    cases op with
    | finish index' result =>
        obtain rfl : index' = index := hends
        simp only [State.next, Table.lookup_modify, if_pos] at hlookup
        obtain ⟨task', -, rfl⟩ := Option.map_eq_some_iff.mp hlookup
        cases hnone
    | panic index' =>
        obtain rfl : index' = index := hends
        exact hdrop rfl hlookup
    | abortTask index' =>
        obtain rfl : index' = index := hends
        exact hdrop rfl hlookup
    | _ => exact hends
  by_cases hreply : op = .reply index
  · subst hreply
    obtain ⟨task', response, hlookup', -⟩ := hop
    simp only [State.next, hlookup'] at hlookup
    split_ifs at hlookup
    · exact absurd hlookup (hdrop rfl)
    · rw [Table.lookup_erase_ite, if_pos rfl] at hlookup
      cases hlookup
  by_cases haccept : op = .accept ∧ index = s.taken.length
  · exact Or.inr haccept
  · rw [tasks_next hop hends hreply fun heq hindex => haccept ⟨heq, hindex⟩] at hlookup
    exact Or.inl ⟨⟨task, hlookup, hnone, hrequest⟩, hends⟩

end State

end VeloBus.Connection
