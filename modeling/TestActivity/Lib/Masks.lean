import Mathlib.Data.List.Basic
import Mathlib.Tactic.Common

/-!
# Masks that are collected

A mask to which one mask after the other is added by `|||`, and what it has in
common with another one.
-/

namespace Masks

variable {w : ℕ}

/-- What is collected has a bit in common with `m` only if one of the masks has. -/
theorem foldl_or_and_eq_zero_iff (a m : BitVec w) (xs : List (BitVec w)) :
    xs.foldl (· ||| ·) a &&& m = 0 ↔ a &&& m = 0 ∧ ∀ x ∈ xs, x &&& m = 0 := by
  induction xs generalizing a with
  | nil => simp
  | cons x xs ih =>
    have hor : (a ||| x) &&& m = 0 ↔ a &&& m = 0 ∧ x &&& m = 0 := by
      rw [BitVec.and_or_distrib_right]
      exact BitVec.or_eq_zero_iff
    rw [List.foldl_cons, ih, hor, List.forall_mem_cons, and_assoc]

/-- Nothing is collected only if there is nothing to collect. -/
theorem foldl_or_eq_zero_iff (a : BitVec w) (xs : List (BitVec w)) :
    xs.foldl (· ||| ·) a = 0 ↔ a = 0 ∧ ∀ x ∈ xs, x = 0 := by
  have h := foldl_or_and_eq_zero_iff a (BitVec.allOnes w) xs
  simpa only [BitVec.and_allOnes] using h

/-- Two masks that are collected from nothing are disjoint when each part of the
one is disjoint from each part of the other. -/
theorem foldl_or_and_foldl_or_eq_zero_iff (xs ys : List (BitVec w)) :
    xs.foldl (· ||| ·) 0 &&& ys.foldl (· ||| ·) 0 = 0 ↔
      ∀ x ∈ xs, ∀ y ∈ ys, x &&& y = 0 := by
  rw [foldl_or_and_eq_zero_iff]
  constructor
  · intro h x hx y hy
    have hx := h.2 x hx
    rw [BitVec.and_comm, foldl_or_and_eq_zero_iff] at hx
    rw [BitVec.and_comm]
    exact hx.2 y hy
  · intro h
    refine ⟨BitVec.zero_and, ?_⟩
    intro x hx
    rw [BitVec.and_comm, foldl_or_and_eq_zero_iff]
    refine ⟨BitVec.zero_and, ?_⟩
    intro y hy
    rw [BitVec.and_comm]
    exact h x hx y hy

end Masks
