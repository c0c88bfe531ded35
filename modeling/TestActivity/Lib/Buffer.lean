import Mathlib.Data.List.Basic
import Mathlib.Data.Nat.Notation
import Mathlib.Tactic.Common

/-!
# A buffer of fixed size

`slice` takes a range out of a buffer, `blit` overwrites one. As long as a range
lies inside the buffer, `blit` keeps the buffer's size and everything outside
the range.
-/

namespace Buffer

variable {α : Type*}

/-- The `n` cells from `p` on. -/
def slice (db : List α) (p n : ℕ) : List α := (db.drop p).take n

/-- The buffer with `bs` at `p`. -/
def blit (db : List α) (p : ℕ) (bs : List α) : List α :=
  db.take p ++ bs ++ db.drop (p + bs.length)

variable {db bs : List α} {p q n k : ℕ}

@[simp] theorem slice_zero : slice db p 0 = [] := by
  simp [slice]

theorem length_slice (h : p + n ≤ db.length) : (slice db p n).length = n := by
  rw [slice, List.length_take, List.length_drop]
  omega

/-- A range can be taken out in two parts. -/
theorem slice_add : slice db p (n + k) = slice db p n ++ slice db (p + n) k := by
  rw [slice, List.take_add, List.drop_drop]
  rfl

theorem take_slice (h : k ≤ n) : (slice db p n).take k = slice db p k := by
  rw [slice, List.take_take, Nat.min_eq_left h]
  rfl

theorem drop_slice : (slice db p n).drop k = slice db (p + k) (n - k) := by
  rw [slice, List.drop_take, List.drop_drop]
  rfl

theorem length_blit (h : p + bs.length ≤ db.length) : (blit db p bs).length = db.length := by
  simp only [blit, List.length_append, List.length_take, List.length_drop]
  omega

/-- In front of the range nothing changes. -/
theorem slice_blit_before (h : q + n ≤ p) (hp : p ≤ db.length) :
    slice (blit db p bs) q n = slice db q n := by
  unfold slice blit
  rw [List.append_assoc, List.drop_append_of_le_length (by rw [List.length_take]; omega),
    List.take_append_of_le_length (by rw [List.length_drop, List.length_take]; omega),
    List.drop_take, List.take_take, Nat.min_eq_left (by omega)]

/-- The range holds what was put there. -/
theorem slice_blit (hp : p ≤ db.length) : slice (blit db p bs) p bs.length = bs := by
  unfold slice blit
  rw [List.append_assoc, List.drop_left' (by rw [List.length_take]; omega), List.take_left' rfl]

/-- What was put behind the first `p` cells is read on from there. -/
theorem slice_blit_append (hp : p ≤ db.length) (h : k ≤ bs.length) :
    slice (blit db p bs) 0 (p + k) = slice db 0 p ++ bs.take k := by
  rw [slice_add, slice_blit_before (by omega) hp, Nat.zero_add, ← take_slice h, slice_blit hp]

end Buffer
