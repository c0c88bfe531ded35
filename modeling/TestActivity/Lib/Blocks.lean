import Mathlib.Data.List.Basic
import Mathlib.Data.List.Infix
import Mathlib.Data.Nat.Notation
import Mathlib.Tactic.Common

/-!
# Cutting a stream into blocks of one size

`blocks n l` are the full blocks of `n` items at the head of `l`, and `rest n l`
is what they leave.

* `flatten_blocks`: the blocks and the rest make up the list.
* `blocks_unique`: there is no other way to cut it.
* `blocks_append`: who cuts a stream that comes in pieces has to keep no more in
  mind than the rest.
-/

namespace Blocks

variable {α : Type*} {n : ℕ} {l m r : List α} {bs : List (List α)}

/-- The full blocks of `n` items at the head of a list. -/
def blocks (n : ℕ) (l : List α) : List (List α) :=
  (List.range (l.length / n)).map fun i => (l.drop (n * i)).take n

/-- What is left behind the full blocks. -/
def rest (n : ℕ) (l : List α) : List α := l.drop (n * (l.length / n))

theorem blocks_of_lt (h : l.length < n) : blocks n l = [] := by
  simp [blocks, Nat.div_eq_of_lt h]

theorem rest_of_lt (h : l.length < n) : rest n l = l := by
  simp [rest, Nat.div_eq_of_lt h]

theorem div_of_le (hn : 0 < n) (h : n ≤ l.length) : l.length / n = (l.drop n).length / n + 1 := by
  rw [List.length_drop, ← Nat.add_div_right _ hn, Nat.sub_add_cancel h]

/-- One block comes off the front. -/
theorem blocks_of_le (hn : 0 < n) (h : n ≤ l.length) :
    blocks n l = l.take n :: blocks n (l.drop n) := by
  unfold blocks
  rw [div_of_le hn h, List.range_succ_eq_map, List.map_cons, List.map_map]
  congr 1
  apply List.map_congr_left
  intro i _
  simp only [Function.comp, List.drop_drop, Nat.succ_eq_add_one, Nat.mul_add, Nat.mul_one]
  rw [Nat.add_comm]

theorem rest_of_le (hn : 0 < n) (h : n ≤ l.length) : rest n l = rest n (l.drop n) := by
  unfold rest
  rw [div_of_le hn h, List.drop_drop, Nat.mul_add, Nat.mul_one, Nat.add_comm]

@[simp] theorem blocks_nil : blocks n ([] : List α) = [] := by
  simp [blocks]

@[simp] theorem rest_nil : rest n ([] : List α) = [] := by
  simp [rest]

theorem length_blocks : (blocks n l).length = l.length / n := by
  simp [blocks]

theorem length_rest_lt (hn : 0 < n) : (rest n l).length < n := by
  have hmod := Nat.mod_lt l.length hn
  have hdiv := Nat.div_add_mod l.length n
  rw [rest, List.length_drop]
  omega

/-- Every block has its full size. -/
theorem length_of_mem_blocks {b : List α} (hb : b ∈ blocks n l) : b.length = n := by
  unfold blocks at hb
  rcases List.mem_map.1 hb with ⟨i, hi, rfl⟩
  have hlt := List.mem_range.1 hi
  have hle : n * (i + 1) ≤ l.length :=
    (Nat.mul_le_mul_left n hlt).trans (Nat.mul_div_le l.length n)
  rw [List.length_take, List.length_drop]
  rw [Nat.mul_add] at hle
  omega

/-- Nothing is lost in cutting. -/
theorem flatten_blocks (hn : 0 < n) : (blocks n l).flatten ++ rest n l = l := by
  induction hlen : l.length using Nat.strongRecOn generalizing l with
  | ind k ih =>
      by_cases h : l.length < n
      · rw [blocks_of_lt h, rest_of_lt h]
        rfl
      · have hle : n ≤ l.length := by omega
        have htail := ih (l.drop n).length (by rw [List.length_drop]; omega) rfl
        rw [blocks_of_le hn hle, rest_of_le hn hle, List.flatten_cons, List.append_assoc, htail,
          List.take_append_drop]

/-- A block in front of a list is its first block. -/
theorem blocks_cons {b : List α} (hn : 0 < n) (hb : b.length = n) :
    blocks n (b ++ l) = b :: blocks n l ∧ rest n (b ++ l) = rest n l := by
  have hle : n ≤ (b ++ l).length := by rw [List.length_append]; omega
  rw [blocks_of_le hn hle, rest_of_le hn hle, List.take_left' hb, List.drop_left' hb]
  exact ⟨rfl, rfl⟩

/-- Full blocks in front of a list are its first blocks. -/
theorem blocks_flatten_append (hn : 0 < n) (hbs : ∀ b ∈ bs, b.length = n) :
    blocks n (bs.flatten ++ l) = bs ++ blocks n l ∧ rest n (bs.flatten ++ l) = rest n l := by
  induction bs with
  | nil => exact ⟨rfl, rfl⟩
  | cons b bs ih =>
      rcases ih fun b' hb' => hbs b' (by simp [hb']) with ⟨hblocks, hrest⟩
      rcases blocks_cons (l := bs.flatten ++ l) hn (hbs b (by simp)) with ⟨hb, hr⟩
      rw [List.flatten_cons, List.append_assoc, hb, hr, hblocks, hrest]
      exact ⟨rfl, rfl⟩

/-- There is one way to cut a list into full blocks and less than a block. -/
theorem blocks_unique (hbs : ∀ b ∈ bs, b.length = n) (hr : r.length < n) :
    blocks n (bs.flatten ++ r) = bs ∧ rest n (bs.flatten ++ r) = r := by
  rcases blocks_flatten_append (l := r) (Nat.zero_lt_of_lt hr) hbs with ⟨hblocks, hrest⟩
  rw [hblocks, hrest, blocks_of_lt hr, rest_of_lt hr, List.append_nil]
  exact ⟨rfl, rfl⟩

/-- Only the rest of a list meets what follows it. -/
theorem blocks_append (hn : 0 < n) :
    blocks n (l ++ m) = blocks n l ++ blocks n (rest n l ++ m) ∧
      rest n (l ++ m) = rest n (rest n l ++ m) := by
  have h := blocks_flatten_append (l := rest n l ++ m) hn
    fun b hb => length_of_mem_blocks (l := l) hb
  rwa [← List.append_assoc, flatten_blocks hn] at h

end Blocks
