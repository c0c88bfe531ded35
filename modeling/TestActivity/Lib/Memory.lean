import Mathlib.Algebra.Group.Nat.Defs
import Mathlib.Data.List.Basic
import Mathlib.Data.List.GetD
import Mathlib.Tactic.Common

/-!
# A flat memory of cells

A memory gives every address a cell. Addresses are words of `w` bits and wrap
around, so a block of cells is a first address and a length, and an address
`x` belongs to the block at `a` when its distance `x - a` is below the length.

* `write` puts a list of cells into the memory, `read` takes one out.
* `write_append` and `read_append` cut a block in two, which is what a loop
  over a block does.
* For cells of eight bits and addresses of 32, `storeWord` and `loadWord` move
  four cells at a time, the low byte first.
-/

namespace Memory

variable {w : ℕ} {α : Type*}

/-! ## Blocks of cells -/

/-- The memory with the cells `bs` at `a`. -/
def write (m : BitVec w → α) (a : BitVec w) (bs : List α) : BitVec w → α :=
  fun x => bs[(x - a).toNat]?.getD (m x)

/-- The `n` cells at `a`. -/
def read (m : BitVec w → α) (a : BitVec w) (n : ℕ) : List α :=
  (List.range n).map fun i => m (a + BitVec.ofNat w i)

variable {m m' : BitVec w → α} {a b x : BitVec w} {bs cs : List α} {i k n : ℕ}

@[simp] theorem write_nil : write m a [] = m := by
  funext x
  simp [write]

@[simp] theorem length_read : (read m a n).length = n := by
  simp [read]

/-- The distance of the `i`-th cell of a block to its first. -/
theorem toNat_add_sub (h : i < 2 ^ w) : (a + BitVec.ofNat w i - a).toNat = i := by
  rw [BitVec.add_comm, BitVec.add_sub_cancel, BitVec.toNat_ofNat, Nat.mod_eq_of_lt h]

/-- An address is the cell of the block at `a` that its distance names. -/
theorem eq_add_ofNat : x = a + BitVec.ofNat w (x - a).toNat := by
  rw [BitVec.ofNat_toNat, BitVec.setWidth_eq, BitVec.add_comm, BitVec.sub_add_cancel]

/-- Outside the block nothing changes. -/
theorem write_of_le (h : bs.length ≤ (x - a).toNat) : write m a bs x = m x := by
  unfold write
  rw [List.getElem?_eq_none h]
  rfl

/-- Inside the block the cells are the ones written. -/
theorem write_of_lt (h : (x - a).toNat < bs.length) :
    write m a bs x = bs[(x - a).toNat] := by
  unfold write
  rw [List.getElem?_eq_getElem h]
  rfl

theorem write_add_ofNat (h : i < bs.length) (hfit : bs.length ≤ 2 ^ w) :
    write m a bs (a + BitVec.ofNat w i) = bs[i] := by
  have hdist : (a + BitVec.ofNat w i - a).toNat = i := toNat_add_sub (by omega)
  rw [write_of_lt (by omega)]
  simp only [hdist]

/-- The distance to a later cell of the block, for an address behind it. -/
theorem sub_add_of_le (h : n ≤ (x - a).toNat) :
    (x - (a + BitVec.ofNat w n)).toNat = (x - a).toNat - n := by
  have hlt : (x - a).toNat < 2 ^ w := (x - a).isLt
  have hle : BitVec.ofNat w n ≤ x - a := by
    rw [BitVec.le_def, BitVec.toNat_ofNat, Nat.mod_eq_of_lt (by omega)]
    exact h
  rw [← BitVec.sub_sub, BitVec.toNat_sub_of_le hle, BitVec.toNat_ofNat,
    Nat.mod_eq_of_lt (by omega)]

/-- For an address in front of that cell the distance goes around. -/
theorem sub_add_of_lt (h : (x - a).toNat < n) (hn : n < 2 ^ w) :
    (x - (a + BitVec.ofNat w n)).toNat = 2 ^ w - n + (x - a).toNat := by
  rw [← BitVec.sub_sub, BitVec.toNat_sub, BitVec.toNat_ofNat, Nat.mod_eq_of_lt hn,
    Nat.mod_eq_of_lt (by omega)]

/-- A block that is written in two parts. -/
theorem write_append (hfit : bs.length + cs.length ≤ 2 ^ w) :
    write m a (bs ++ cs) = write (write m a bs) (a + BitVec.ofNat w bs.length) cs := by
  funext x
  by_cases hlow : (x - a).toNat < bs.length
  · -- in the first part, which the second one does not reach
    have hfar : cs.length ≤ (x - (a + BitVec.ofNat w bs.length)).toNat := by
      by_cases hcs : cs.length = 0
      · omega
      · rw [sub_add_of_lt hlow (by omega)]
        omega
    rw [write_of_le hfar, write_of_lt hlow, write_of_lt (by rw [List.length_append]; omega)]
    exact List.getElem_append_left hlow
  · unfold write
    rw [sub_add_of_le (by omega), List.getElem?_append_right (by omega),
      List.getElem?_eq_none (l := bs) (by omega)]
    rfl

theorem add_ofNat_add : a + BitVec.ofNat w (n + k) = a + BitVec.ofNat w n + BitVec.ofNat w k := by
  rw [BitVec.ofNat_add, BitVec.add_assoc]

/-- A block that is read in two parts. -/
theorem read_append : read m a (n + k) = read m a n ++ read m (a + BitVec.ofNat w n) k := by
  unfold read
  rw [List.range_add, List.map_append, List.map_map]
  simp only [Function.comp_def, add_ofNat_add]

theorem take_read (h : k ≤ n) : (read m a n).take k = read m a k := by
  obtain ⟨j, rfl⟩ := Nat.exists_eq_add_of_le h
  rw [read_append, List.take_left' length_read]

theorem read_congr (h : ∀ i < n, m (a + BitVec.ofNat w i) = m' (b + BitVec.ofNat w i)) :
    read m a n = read m' b n := by
  apply List.map_congr_left
  intro i hi
  exact h i (List.mem_range.mp hi)

@[simp] theorem getElem_read (h : i < (read m a n).length) :
    (read m a n)[i] = m (a + BitVec.ofNat w i) := by
  simp [read]

/-- What was written is read. -/
theorem read_write (hfit : bs.length ≤ 2 ^ w) : read (write m a bs) a bs.length = bs := by
  apply List.ext_getElem length_read
  intro i _ hi
  rw [getElem_read, write_add_ofNat hi hfit]

/-- A block of the memory is a part of `bs` when each of its cells is. -/
theorem read_eq_slice_iff (h : i + n ≤ bs.length) :
    read m a n = (bs.drop i).take n ↔
      ∀ k < n, some (m (a + BitVec.ofNat w k)) = bs[i + k]? := by
  have hlen : ((bs.drop i).take n).length = n := by
    rw [List.length_take, List.length_drop]
    omega
  constructor
  · intro heq k hk
    have hget := congrArg (fun l : List α => l[k]?) heq
    rw [List.getElem?_eq_getElem (by rw [length_read]; exact hk), getElem_read,
      List.getElem?_take_of_lt hk, List.getElem?_drop] at hget
    exact hget
  · intro hall
    apply List.ext_getElem?
    intro k
    by_cases hk : k < n
    · rw [List.getElem?_eq_getElem (by rw [length_read]; exact hk), getElem_read, hall k hk,
        List.getElem?_take_of_lt hk, List.getElem?_drop]
    · rw [List.getElem?_eq_none (by rw [length_read]; omega),
        List.getElem?_eq_none (by rw [hlen]; omega)]

/-- A part of what was written. -/
theorem read_write_slice (hfit : bs.length ≤ 2 ^ w) (h : i + n ≤ bs.length) :
    read (write m a bs) (a + BitVec.ofNat w i) n = (bs.drop i).take n := by
  apply List.ext_getElem (by simp; omega)
  intro j hj _
  rw [length_read] at hj
  rw [getElem_read, ← add_ofNat_add, write_add_ofNat (by omega) hfit]
  simp

/-- Writing back what is there. -/
theorem write_read : write m a (read m a n) = m := by
  funext x
  by_cases h : (x - a).toNat < n
  · rw [write_of_lt (by simpa using h), getElem_read, ← eq_add_ofNat]
  · rw [write_of_le (by simpa using h)]

/-- Two memories that agree on a block agree after it is cut out of one that
was written somewhere else. -/
theorem read_write_of_le (h : ∀ i < n, bs.length ≤ (b + BitVec.ofNat w i - a).toNat) :
    read (write m a bs) b n = read m b n := by
  apply read_congr
  intro i hi
  exact write_of_le (h i hi)

/-! ## Words of four bytes -/

/-- The bytes of a word, the low one first. -/
def chars (v : BitVec 32) : List (BitVec 8) :=
  [v.extractLsb' 0 8, v.extractLsb' 8 8, v.extractLsb' 16 8, v.extractLsb' 24 8]

/-- The word made of four bytes. -/
def ofChars (bs : List (BitVec 8)) : BitVec 32 :=
  bs.getD 3 0 ++ bs.getD 2 0 ++ bs.getD 1 0 ++ bs.getD 0 0

@[simp] theorem length_chars (v : BitVec 32) : (chars v).length = 4 := rfl

@[simp] theorem ofChars_chars (v : BitVec 32) : ofChars (chars v) = v := by
  apply BitVec.eq_of_getLsbD_eq
  intro i hi
  simp only [ofChars, chars, List.getD_cons_zero, List.getD_cons_succ, BitVec.getLsbD_append,
    BitVec.getLsbD_extractLsb']
  grind

theorem chars_ofChars {bs : List (BitVec 8)} (h : bs.length = 4) : chars (ofChars bs) = bs := by
  match bs, h with
  | [b0, b1, b2, b3], _ =>
      simp only [ofChars, chars, List.getD_cons_zero, List.getD_cons_succ, List.cons.injEq,
        and_true]
      refine ⟨?_, ?_, ?_, ?_⟩ <;>
      · apply BitVec.eq_of_getLsbD_eq
        intro i hi
        simp only [BitVec.getLsbD_extractLsb', BitVec.getLsbD_append]
        grind

/-- Stores a word at `a`. -/
def storeWord (m : BitVec 32 → BitVec 8) (a v : BitVec 32) : BitVec 32 → BitVec 8 :=
  write m a (chars v)

/-- The word at `a`. -/
def loadWord (m : BitVec 32 → BitVec 8) (a : BitVec 32) : BitVec 32 := ofChars (read m a 4)

section Word

variable {m : BitVec 32 → BitVec 8} {a : BitVec 32} {bs : List (BitVec 8)}

theorem storeWord_ofChars (h : bs.length = 4) : storeWord m a (ofChars bs) = write m a bs := by
  rw [storeWord, chars_ofChars h]

theorem chars_loadWord : chars (loadWord m a) = read m a 4 :=
  chars_ofChars length_read

end Word

end Memory
