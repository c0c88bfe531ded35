import Mathlib.Tactic.Common

/-!
# Runs of a labelled step relation

A run is kept with its trace: for every step the state it was taken in and its
label. A statement about "every step of every run" is then a statement about
the members of the trace, and an assumption about the environment is a guard
on them.

* `Run.invariant` is the induction rule: what the steps that meet the guard
  preserve holds in every state of a run whose steps all meet it.
* `Run.exists_change` finds the step that makes something true, and
  `Run.count_le` counts the steps that draw on a stock.
* `Run.exists_of_rank` makes a run to a goal out of steps that come closer to it.
* `Run.of_execute` is a run of a computed step function.
-/

namespace Transition

variable {σ ι : Type*} {step : σ → ι → σ → Prop}

/-- `Run step s trace s'`: from `s` the steps of `trace` lead to `s'`. -/
inductive Run (step : σ → ι → σ → Prop) : σ → List (σ × ι) → σ → Prop where
  | nil (s : σ) : Run step s [] s
  | cons {s s' s'' : σ} {l : ι} {trace : List (σ × ι)} :
      step s l s' → Run step s' trace s'' → Run step s ((s, l) :: trace) s''

theorem Run.append {s s' s'' : σ} {tr tr' : List (σ × ι)} (h : Run step s tr s')
    (h' : Run step s' tr' s'') : Run step s (tr ++ tr') s'' := by
  induction h with
  | nil => exact h'
  | cons hstep _ ih => exact .cons hstep (ih h')

/-- A run goes through every step of its trace. -/
theorem Run.split {s s' : σ} {before after : List (σ × ι)} {p : σ × ι}
    (h : Run step s (before ++ p :: after) s') :
    Run step s before p.1 ∧ ∃ t, step p.1 p.2 t ∧ Run step t after s' := by
  induction before generalizing s with
  | nil =>
      cases h with
      | cons hstep hrun => exact ⟨.nil _, _, hstep, hrun⟩
  | cons q before ih =>
      cases h with
      | cons hstep hrun =>
          rcases ih hrun with ⟨hbefore, hrest⟩
          exact ⟨.cons hstep hbefore, hrest⟩

/-- What every guarded step preserves holds at the end of a guarded run, and in
front of each of its steps. -/
theorem Run.invariant (guard : σ → ι → Prop) (Inv : σ → Prop)
    (hstep : ∀ s l s', step s l s' → guard s l → Inv s → Inv s') {s s' : σ}
    {tr : List (σ × ι)} (h : Run step s tr s') (hguard : ∀ p ∈ tr, guard p.1 p.2)
    (hinv : Inv s) : Inv s' ∧ ∀ p ∈ tr, Inv p.1 := by
  induction h with
  | nil => exact ⟨hinv, by simp⟩
  | @cons s t s' l tr hst _ ih =>
      have hinv' := hstep s l t hst (hguard (s, l) (by simp)) hinv
      rcases ih (fun p hp => hguard p (by simp [hp])) hinv' with ⟨hend, hall⟩
      refine ⟨hend, fun p hp => ?_⟩
      rcases List.mem_cons.1 hp with rfl | hp
      · exact hinv
      · exact hall p hp

/-- What every step preserves holds at the end of a run. -/
theorem Run.stable (Inv : σ → Prop) (hstep : ∀ s l s', step s l s' → Inv s → Inv s') {s s' : σ}
    {tr : List (σ × ι)} (h : Run step s tr s') (hinv : Inv s) : Inv s' :=
  (h.invariant (fun _ _ => True) Inv (fun s l s' hst _ => hstep s l s' hst)
    (fun _ _ => trivial) hinv).1

/-- What a run makes true becomes true in one of its steps. -/
theorem Run.exists_change (P : σ → Prop) {s s' : σ} {tr : List (σ × ι)} (h : Run step s tr s')
    (hs : ¬ P s) (hs' : P s') :
    ∃ before p after t, tr = before ++ p :: after ∧ Run step s before p.1 ∧ ¬ P p.1 ∧
      step p.1 p.2 t ∧ P t ∧ Run step t after s' := by
  induction h with
  | nil => exact absurd hs' hs
  | @cons s t s' l tr hst hrun ih =>
      by_cases ht : P t
      · exact ⟨[], (s, l), tr, t, rfl, .nil s, hs, hst, ht, hrun⟩
      · rcases ih ht hs' with ⟨before, p, after, u, htr, hbefore, hp, hpu, hu, hafter⟩
        exact ⟨(s, l) :: before, p, after, u, by rw [htr]; rfl, .cons hst hbefore, hp, hpu, hu,
          hafter⟩

/-- A stock that no step adds to pays for every step that spends one unit of it. -/
theorem Run.count_le (stock : σ → ℕ) (spends : σ × ι → Bool)
    (hstep : ∀ s l s', step s l s' → stock s' + (if spends (s, l) then 1 else 0) ≤ stock s)
    {s s' : σ} {tr : List (σ × ι)} (h : Run step s tr s') :
    stock s' + tr.countP spends ≤ stock s := by
  induction h with
  | nil => simp
  | @cons s t s' l tr hst _ ih =>
      have hpaid := hstep s l t hst
      rw [List.countP_cons]
      omega

/-- If a step that comes closer to the goal is always possible, a run reaches it. -/
theorem Run.exists_of_rank (rank : σ → ℕ) (Inv goal : σ → Prop) (guard : σ → ι → Prop)
    (hstep : ∀ s, Inv s → ¬ goal s → ∃ l s', step s l s' ∧ guard s l ∧ Inv s' ∧ rank s' < rank s)
    {s : σ} (hinv : Inv s) :
    ∃ tr s', Run step s tr s' ∧ (∀ p ∈ tr, guard p.1 p.2) ∧ Inv s' ∧ goal s' := by
  induction hrank : rank s using Nat.strongRecOn generalizing s with
  | ind n ih =>
      by_cases hgoal : goal s
      · exact ⟨[], s, .nil s, by simp, hinv, hgoal⟩
      · rcases hstep s hinv hgoal with ⟨l, t, hst, hg, ht, hlt⟩
        rcases ih (rank t) (hrank ▸ hlt) ht rfl with ⟨tr, s', hrun, hall, hend⟩
        refine ⟨(s, l) :: tr, s', .cons hst hrun, ?_, hend⟩
        intro p hp
        rcases List.mem_cons.1 hp with rfl | hp
        · exact hg
        · exact hall p hp

/-! ## Steps that are computed -/

/-- The run with the given labels, if every step is enabled. -/
def execute (f : σ → ι → Option σ) : σ → List ι → Option (List (σ × ι) × σ)
  | s, [] => some ([], s)
  | s, l :: ls => (f s l).bind fun s' => (execute f s' ls).map fun r => ((s, l) :: r.1, r.2)

/-- A computed run is a run. -/
theorem Run.of_execute {f : σ → ι → Option σ} {ls : List ι} {s s' : σ} {tr : List (σ × ι)}
    (h : execute f s ls = some (tr, s')) : Run (fun s l s' => f s l = some s') s tr s' := by
  induction ls generalizing s tr with
  | nil =>
      simp only [execute, Option.some.injEq, Prod.mk.injEq] at h
      rcases h with ⟨rfl, rfl⟩
      exact .nil s
  | cons l ls ih =>
      simp only [execute, Option.bind_eq_some_iff, Option.map_eq_some_iff, Prod.mk.injEq] at h
      rcases h with ⟨t, ht, ⟨tr', u⟩, hrest, rfl, rfl⟩
      exact .cons ht (ih hrest)

end Transition
