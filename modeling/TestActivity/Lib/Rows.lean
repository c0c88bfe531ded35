import Mathlib.Data.List.Basic
import Mathlib.Tactic.Common

/-!
# Rows in a flat list

A flat list is a table of rows: row `i` of width `n` starts at `n * i`. A table
is written row by row (`List.flatMap`) by loops that may fail (`List.mapM` in
`Except`), and read back by the same arithmetic. Where the widths differ, row `i`
starts at the `offset` that the rows before it add up to.

* `getElem?_flatMap` finds a cell of a written row.
* `flatMap_rows` puts the rows of a list together again.
* `drop_offset` finds a row where the widths differ.
* `mapM_ok` and `exists_of_mapM_ok` say when a loop goes through.
-/

namespace Rows

variable {α β ε : Type*}

/-! ## The cells of a table -/

theorem length_flatMap {f : α → List β} {n : ℕ} {l : List α} (hf : ∀ a ∈ l, (f a).length = n) :
    (l.flatMap f).length = n * l.length := by
  induction l with
  | nil => simp
  | cons a l ih =>
      have hrest := ih fun b hb => hf b (by simp [hb])
      rw [List.flatMap_cons, List.length_append, hf a (by simp), hrest, List.length_cons,
        Nat.mul_succ, Nat.add_comm]

/-- Cell `k` of row `i`. -/
theorem getElem?_flatMap {f : α → List β} {n : ℕ} {l : List α} (hf : ∀ a ∈ l, (f a).length = n)
    {k : ℕ} (hk : k < n) (i : ℕ) :
    (l.flatMap f)[n * i + k]? = l[i]?.bind fun a => (f a)[k]? := by
  induction l generalizing i with
  | nil => simp
  | cons a l ih =>
      have hlen : (f a).length = n := hf a (by simp)
      rw [List.flatMap_cons]
      rcases i with _ | i
      · rw [Nat.mul_zero, Nat.zero_add, List.getElem?_append_left (by omega)]
        rfl
      · have hsub : n * (i + 1) + k - n = n * i + k := by
          rw [Nat.mul_succ]
          omega
        rw [List.getElem?_append_right (by rw [Nat.mul_succ]; omega), hlen, hsub]
        exact ih (fun b hb => hf b (by simp [hb])) i

/-- The first `h` rows of a list, put together. -/
theorem flatMap_rows (l : List α) (n h : ℕ) :
    ((List.range h).flatMap fun i => (l.drop (n * i)).take n) = l.take (n * h) := by
  induction h with
  | zero => simp
  | succ h ih => simp [List.range_succ, ih, Nat.mul_succ, List.take_add]

/-! ## Rows of any width -/

/-- Where row `i` starts. -/
def offset (f : α → List β) (l : List α) (i : ℕ) : ℕ := ((l.take i).flatMap f).length

section Offset

variable {f : α → List β} {l : List α} {i : ℕ} {a : α}

/-- The next row starts behind this one. -/
theorem offset_succ (hi : l[i]? = some a) : offset f l (i + 1) = offset f l i + (f a).length := by
  simp [offset, List.take_add_one, hi]

theorem offset_of_length_le (h : l.length ≤ i) : offset f l i = (l.flatMap f).length := by
  rw [offset, List.take_of_length_le h]

/-- The rows in front of row `i`, and the others. -/
theorem flatMap_take_append_drop (f : α → List β) (l : List α) (i : ℕ) :
    (l.take i).flatMap f ++ (l.drop i).flatMap f = l.flatMap f := by
  rw [← List.flatMap_append, List.take_append_drop]

/-- What is found at the start of a row. -/
theorem drop_offset (f : α → List β) (l : List α) (i : ℕ) :
    (l.flatMap f).drop (offset f l i) = (l.drop i).flatMap f := by
  rw [← flatMap_take_append_drop f l i, offset, List.drop_left]

theorem drop_offset_of_getElem? (hi : l[i]? = some a) :
    (l.flatMap f).drop (offset f l i) = f a ++ (l.drop (i + 1)).flatMap f := by
  rcases List.getElem?_eq_some_iff.1 hi with ⟨hlt, rfl⟩
  rw [drop_offset, List.drop_eq_getElem_cons hlt, List.flatMap_cons]

theorem offset_le (f : α → List β) (l : List α) (i : ℕ) :
    offset f l i ≤ (l.flatMap f).length := by
  rw [← flatMap_take_append_drop f l i, offset, List.length_append]
  exact Nat.le_add_right _ _

end Offset

/-! ## Loops that may fail -/

/-- The loop goes through when each of its rounds does. -/
theorem mapM_ok {f : α → Except ε β} {g : α → β} {l : List α}
    (h : ∀ a ∈ l, f a = .ok (g a)) : l.mapM f = .ok (l.map g) := by
  induction l with
  | nil => rfl
  | cons a l ih =>
      rw [List.mapM_cons, h a (by simp), ih fun b hb => h b (by simp [hb])]
      rfl

/-- The loop goes through only when each of its rounds does. -/
theorem exists_of_mapM_ok {f : α → Except ε β} {l : List α} {bs : List β}
    (h : l.mapM f = .ok bs) : ∀ a ∈ l, ∃ b, f a = .ok b := by
  induction l generalizing bs with
  | nil => simp
  | cons a l ih =>
      rw [List.mapM_cons] at h
      rcases hfirst : f a with e | b
      · simp [hfirst, bind, Except.bind] at h
      · rcases hrest : l.mapM f with e | bs'
        · simp [hfirst, hrest, bind, Except.bind] at h
        · intro a' ha'
          rcases List.mem_cons.1 ha' with rfl | ha'
          · exact ⟨b, hfirst⟩
          · exact ih hrest a' ha'

end Rows
