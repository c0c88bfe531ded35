import Mathlib.Data.List.Perm.Basic
import Mathlib.Tactic.Common

/-!
# What holds after a run that may stop early

A run of type `Except ε α` ends with a value or stops with a report. `Ensures`
gives both ends their postcondition.

* `Ensures.bind` runs one step after another: the report of the first step has
  to be good for the whole.
* `Ensures.mono` weakens both postconditions.
* `foldlM_stable` is the induction rule for a loop over a list, and
  `foldlM_perm` says when the order of the list does not matter to such a loop.
-/

namespace Outcome

universe u

variable {ε : Type*} {α β : Type u}

/-- `Q` holds of the value the run ends with, `E` of the report it stops with. -/
def Ensures (Q : α → Prop) (E : ε → Prop) : Except ε α → Prop
  | .ok a => Q a
  | .error e => E e

variable {Q Q' : α → Prop} {R : β → Prop} {E E' : ε → Prop} {x : Except ε α}
  {f : α → Except ε β}

@[simp] theorem ensures_ok {a : α} : Ensures Q E (.ok a : Except ε α) ↔ Q a := Iff.rfl

@[simp] theorem ensures_error {e : ε} : Ensures Q E (.error e : Except ε α) ↔ E e := Iff.rfl

theorem Ensures.mono (h : Ensures Q E x) (hQ : ∀ a, Q a → Q' a) (hE : ∀ e, E e → E' e) :
    Ensures Q' E' x := by
  cases x with
  | ok a => exact hQ a h
  | error e => exact hE e h

theorem Ensures.bind (h : Ensures Q E x) (hf : ∀ a, Q a → Ensures R E (f a)) :
    Ensures R E (x >>= f) := by
  cases x with
  | ok a => exact hf a h
  | error e => exact h

/-- A run that ends with a value went through its first step. -/
theorem bind_eq_ok {b : β} : x >>= f = .ok b ↔ ∃ a, x = .ok a ∧ f a = .ok b := by
  cases x with
  | error e => exact ⟨fun h => (nomatch h), fun ⟨_, h, _⟩ => (nomatch h)⟩
  | ok t =>
      constructor
      · intro h
        exact ⟨t, rfl, h⟩
      · rintro ⟨t', ht, h⟩
        rw [Except.ok.inj ht]
        exact h

theorem toOption_eq_some {a : α} : x.toOption = some a ↔ x = .ok a := by
  cases x with
  | error e => simp [Except.toOption]
  | ok t => simp [Except.toOption]

/-- Two runs end in the same way if they do so at every step. -/
theorem Ensures.and (h : Ensures Q E x) (h' : Ensures Q' E' x) :
    Ensures (fun a => Q a ∧ Q' a) (fun e => E e ∧ E' e) x := by
  cases x with
  | ok a => exact ⟨h, h'⟩
  | error e => exact ⟨h, h'⟩

/-! ## Loops over a list -/

variable {σ ι : Type u} {f : σ → ι → Except ε σ} {s s' : σ} {l l' : List ι}

/-- A loop that ends with a value went through its first step. -/
theorem foldlM_cons_ok {a : ι} :
    (a :: l).foldlM f s = .ok s' ↔ ∃ t, f s a = .ok t ∧ l.foldlM f t = .ok s' := by
  rw [List.foldlM_cons, bind_eq_ok]

/-- What every step preserves holds behind the loop. -/
theorem foldlM_stable (Inv : σ → Prop) (hstep : ∀ s a t, f s a = .ok t → Inv s → Inv t)
    (h : l.foldlM f s = .ok s') (hinv : Inv s) : Inv s' := by
  induction l generalizing s with
  | nil =>
      cases h
      exact hinv
  | cons a l ih =>
      rcases foldlM_cons_ok.1 h with ⟨t, ht, hrest⟩
      exact ih hrest (hstep s a t ht hinv)

/-- If two steps that succeed can be exchanged, a loop that succeeds does so in
every order, and ends the same. -/
theorem foldlM_perm
    (hswap : ∀ s t u a b, f s a = .ok t → f t b = .ok u → ∃ t', f s b = .ok t' ∧ f t' a = .ok u)
    (hperm : l.Perm l') (h : l.foldlM f s = .ok s') : l'.foldlM f s = .ok s' := by
  induction hperm generalizing s with
  | nil => exact h
  | cons a _ ih =>
      rcases foldlM_cons_ok.1 h with ⟨t, ht, hrest⟩
      exact foldlM_cons_ok.2 ⟨t, ht, ih hrest⟩
  | swap a b l =>
      rcases foldlM_cons_ok.1 h with ⟨t, ht, hrest⟩
      rcases foldlM_cons_ok.1 hrest with ⟨u, hu, hrest⟩
      rcases hswap s t u b a ht hu with ⟨t', ht', hu'⟩
      exact foldlM_cons_ok.2 ⟨t', ht', foldlM_cons_ok.2 ⟨u, hu', hrest⟩⟩
  | trans _ _ ih ih' => exact ih' (ih h)

end Outcome
