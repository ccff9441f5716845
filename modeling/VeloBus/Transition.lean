import Mathlib.Tactic.TypeStar

/-! Labelled transition systems. A run lists its labels oldest first; an invariant is proved from
one step, with the reachability of the state before the step at hand. -/

structure Transition (σ : Type*) (ℓ : Type*) where
  start : σ → Prop
  step : σ → ℓ → σ → Prop

namespace Transition

variable {σ ℓ : Type*} (T : Transition σ ℓ)

inductive Run (s : σ) : List ℓ → σ → Prop where
  | nil : Run s [] s
  | snoc {ls t l u} : Run s ls t → T.step t l u → Run s (ls ++ [l]) u

def Reachable (t : σ) : Prop := ∃ s ls, T.start s ∧ T.Run s ls t

variable {T}

theorem Reachable.of_start {s : σ} (h : T.start s) : T.Reachable s := ⟨s, [], h, .nil⟩

theorem Reachable.step {s t : σ} {l : ℓ} (h : T.Reachable s) (hstep : T.step s l t) :
    T.Reachable t := by
  obtain ⟨s₀, ls, hs₀, hrun⟩ := h
  exact ⟨s₀, ls ++ [l], hs₀, hrun.snoc hstep⟩

theorem Reachable.run {s t : σ} {ls : List ℓ} (h : T.Reachable s) (hrun : T.Run s ls t) :
    T.Reachable t := by
  induction hrun with
  | nil => exact h
  | snoc _ hstep ih => exact ih.step hstep

/-- **The invariant rule.** What holds at the start and survives every step from a reachable
state holds in every reachable state. -/
theorem Reachable.invariant {P : σ → Prop} (hstart : ∀ s, T.start s → P s)
    (hstep : ∀ s l t, T.Reachable s → P s → T.step s l t → P t) {t : σ} (h : T.Reachable t) :
    P t := by
  obtain ⟨s, ls, hs, hrun⟩ := h
  have hboth : T.Reachable t ∧ P t := by
    induction hrun with
    | nil => exact ⟨.of_start hs, hstart s hs⟩
    | snoc _ hl ih => exact ⟨ih.1.step hl, hstep _ _ _ ih.1 ih.2 hl⟩
  exact hboth.2

/-- **The run rule.** What a state has and every allowed step keeps is kept by every run of
allowed steps. -/
theorem Run.preserves {P : σ → Prop} {A : ℓ → Prop}
    (hstep : ∀ s l t, T.Reachable s → P s → A l → T.step s l t → P t)
    {s t : σ} {ls : List ℓ} (hrun : T.Run s ls t) (hs : T.Reachable s) (hP : P s)
    (hA : ∀ l ∈ ls, A l) : P t := by
  induction hrun with
  | nil => exact hP
  | snoc hrun hl ih =>
      exact hstep _ _ _ (hs.run hrun) (ih fun l hmem => hA l (List.mem_append_left _ hmem))
        (hA _ (by simp)) hl

/-- Dropping a guard only adds runs. -/
theorem Reachable.mono {T' : Transition σ ℓ} (hstart : ∀ s, T.start s → T'.start s)
    (hstep : ∀ s l t, T.step s l t → T'.step s l t) {t : σ} (h : T.Reachable t) :
    T'.Reachable t :=
  h.invariant (fun _ hs => .of_start (hstart _ hs)) fun _ _ _ _ ih hl => ih.step (hstep _ _ _ hl)

/-! ### Projections and histories -/

/-- A map under which every step is a step of another system, or none, takes its runs to runs. -/
theorem Reachable.project {σ' ℓ' : Type*} {T' : Transition σ' ℓ'} (f : σ → σ')
    (hstart : ∀ s, T.start s → T'.Reachable (f s))
    (hstep : ∀ s l t, T.Reachable s → T'.Reachable (f s) → T.step s l t → T'.Reachable (f t)) {t : σ}
    (h : T.Reachable t) : T'.Reachable (f t) := h.invariant hstart hstep

/-- A system beside a history of its runs, which has no say in them. -/
def observed {γ : Type*} (T : Transition σ ℓ) (initial : γ) (observe : σ → ℓ → γ → γ) : Transition (σ × γ) ℓ where
  start s := T.start s.1 ∧ s.2 = initial
  step s l t := T.step s.1 l t.1 ∧ t.2 = observe s.1 l s.2

section Observed

variable {γ : Type*} {initial : γ} {observe : σ → ℓ → γ → γ}

theorem Reachable.of_observed {s : σ × γ} (h : (T.observed initial observe).Reachable s) : T.Reachable s.1 := by
  refine h.project Prod.fst ?_ ?_
  · intro s hs
    exact .of_start hs.1
  · intro s l t _ ih hstep
    exact ih.step hstep.1

/-- Every run has a history. -/
theorem Reachable.observed {s : σ} (h : T.Reachable s) :
    ∃ history, (T.observed initial observe).Reachable (s, history) := by
  refine h.invariant (P := fun s => ∃ history, (T.observed initial observe).Reachable (s, history)) ?_ ?_
  · intro s hs
    exact ⟨initial, .of_start ⟨hs, rfl⟩⟩
  · rintro s l t - ⟨history, ih⟩ hstep
    exact ⟨observe s l history, ih.step ⟨hstep, rfl⟩⟩

end Observed

/-! ### Components -/

/-- What a component does in a step of the whole: a step of its own, or nothing. -/
def Advance (T : Transition σ ℓ) (s : σ) : Option ℓ → σ → Prop
  | some l, t => T.step s l t
  | none, t => t = s

/-- The history of a component after a step of the whole. -/
def record {γ : Type*} (observe : σ → ℓ → γ → γ) (s : σ) (l : Option ℓ) (history : γ) : γ :=
  l.elim history fun l => observe s l history

theorem Reachable.record {γ : Type*} {initial : γ} {observe : σ → ℓ → γ → γ} {s t : σ} {l : Option ℓ} {history : γ}
    (h : (T.observed initial observe).Reachable (s, history)) (hstep : T.Advance s l t) :
    (T.observed initial observe).Reachable (t, record observe s l history) := by
  cases l with
  | none => exact hstep ▸ h
  | some l => exact h.step (l := l) ⟨hstep, rfl⟩

end Transition
