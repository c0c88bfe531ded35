import Mathlib.Data.Finset.Insert
import Mathlib.Data.Nat.Find
import Mathlib.Data.Set.Finite.Basic
import Mathlib.Tactic.Common

/-!
# A table of descriptors

What a process holds open is a finite set of numbers. A new descriptor is the
lowest number that is not open; closing gives the number back. Closing a number
that is not open is remembered (`misused`): it is the second `close` of a
descriptor, or of somebody else's.

Code that opens and closes in balance leaves the table as it was. The lemmas
say so for one descriptor (`close_alloc`) and for a pair that is closed in
either order (`close_close_allocPair`, `close_close_allocPair'`).
-/

namespace Descriptors

/-- The open numbers, and whether a `close` ever met one that was not open. -/
@[ext] structure Table where
  opened : Finset ℕ
  misused : Bool

namespace Table

variable (t : Table)

theorem exists_closed : ∃ n, n ∉ t.opened := Infinite.exists_notMem_finset t.opened

/-- The number the next descriptor gets. -/
def lowest : ℕ := Nat.find t.exists_closed

theorem lowest_notMem : t.lowest ∉ t.opened := Nat.find_spec t.exists_closed

/-- A call that returns a descriptor: its number, and the table with it. -/
def alloc : ℕ × Table := (t.lowest, { t with opened := insert t.lowest t.opened })

/-- A call that returns two. -/
def allocPair : (ℕ × ℕ) × Table :=
  let (fd0, t) := t.alloc
  let (fd1, t) := t.alloc
  ((fd0, fd1), t)

/-- `close(fd)`. -/
def close (fd : ℕ) : Table :=
  if fd ∈ t.opened then { t with opened := t.opened.erase fd } else { t with misused := true }

theorem close_of_mem {fd : ℕ} (h : fd ∈ t.opened) :
    t.close fd = { t with opened := t.opened.erase fd } := if_pos h

@[simp] theorem mem_alloc : t.alloc.1 ∈ t.alloc.2.opened := by
  simp [alloc]

theorem alloc_notMem : t.alloc.1 ∉ t.opened := t.lowest_notMem

/-- Closing what was just opened leaves no trace. -/
@[simp] theorem close_alloc : t.alloc.2.close t.alloc.1 = t := by
  rw [close_of_mem _ t.mem_alloc]
  unfold alloc
  ext1
  · exact Finset.erase_insert t.lowest_notMem
  · rfl

@[simp] theorem fst_allocPair : t.allocPair.1 = (t.alloc.1, t.alloc.2.alloc.1) := rfl

@[simp] theorem snd_allocPair : t.allocPair.2 = t.alloc.2.alloc.2 := rfl

/-- A pair whose second end is closed first. -/
@[simp] theorem close_close_allocPair :
    (t.allocPair.2.close t.allocPair.1.2).close t.allocPair.1.1 = t := by
  rw [fst_allocPair, snd_allocPair, close_alloc, close_alloc]

/-- A pair whose first end is closed first. -/
@[simp] theorem close_close_allocPair' :
    (t.allocPair.2.close t.allocPair.1.1).close t.allocPair.1.2 = t := by
  have hne : t.alloc.1 ≠ t.alloc.2.alloc.1 := by
    intro h
    apply t.alloc.2.alloc_notMem
    rw [← h]
    exact t.mem_alloc
  have hfirst : t.alloc.1 ∈ t.alloc.2.alloc.2.opened := by
    have hmem := t.mem_alloc
    unfold alloc at hmem ⊢
    exact Finset.mem_insert_of_mem hmem
  have hsecond : t.alloc.2.alloc.1 ∈ t.alloc.2.alloc.2.opened.erase t.alloc.1 :=
    Finset.mem_erase.2 ⟨hne.symm, t.alloc.2.mem_alloc⟩
  rw [fst_allocPair, snd_allocPair, close_of_mem _ hfirst, close_of_mem _ hsecond]
  ext1
  · -- both numbers are new, so erasing them in either order gives the old set
    have hall := congrArg opened (t.close_close_allocPair)
    rw [fst_allocPair, snd_allocPair, close_of_mem _ t.alloc.2.mem_alloc, close_of_mem] at hall
    · rw [Finset.erase_right_comm]
      exact hall
    · exact Finset.mem_erase.2 ⟨hne, hfirst⟩
  · rfl

end Table

end Descriptors
