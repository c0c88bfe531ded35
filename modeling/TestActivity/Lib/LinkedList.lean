import Mathlib.Data.List.Nodup
import Mathlib.Logic.Function.Basic
import Mathlib.Tactic.Common

/-!
# Singly linked lists in a heap

A heap gives an allocated pointer its cell, a value and the pointer to the next
cell. `Seg h p cs q` says that from `p` the cells `cs` lead to `q`; a whole
list is a segment that leads to `none`.

* `Seg.append_iff` cuts a segment in two, which is what a walk along it does.
* `Seg.frame` and `Seg.set` keep a segment over changes of other cells.
* `Seg.relink` redirects the last pointer of a segment, and with it
  `Seg.append_new` puts a cell behind a list and `Seg.remove` takes one out.
-/

namespace LinkedList

variable {P α : Type*}

/-- The cell of every allocated pointer. -/
abbrev Heap (P α : Type*) := P → Option (α × Option P)

/-- From `p` the cells `cs` lead to `q`. -/
def Seg (h : Heap P α) : Option P → List (P × α) → Option P → Prop
  | p, [], q => p = q
  | p, c :: cs, q => p = some c.1 ∧ ∃ next, h c.1 = some (c.2, next) ∧ Seg h next cs q

variable {h h' : Heap P α} {p q : Option P} {c : P × α} {cs ds : List (P × α)}

@[simp] theorem seg_nil : Seg h p [] q ↔ p = q := Iff.rfl

theorem seg_cons :
    Seg h p (c :: cs) q ↔ p = some c.1 ∧ ∃ next, h c.1 = some (c.2, next) ∧ Seg h next cs q :=
  Iff.rfl

/-- A segment in two parts. -/
theorem Seg.append_iff : Seg h p (cs ++ ds) q ↔ ∃ r, Seg h p cs r ∧ Seg h r ds q := by
  induction cs generalizing p with
  | nil => simp
  | cons c cs ih =>
      rw [List.cons_append, seg_cons]
      constructor
      · rintro ⟨hp, next, hcell, hseg⟩
        rcases ih.mp hseg with ⟨r, hcs, hds⟩
        exact ⟨r, ⟨hp, next, hcell, hcs⟩, hds⟩
      · rintro ⟨r, ⟨hp, next, hcell, hcs⟩, hds⟩
        exact ⟨hp, next, hcell, ih.mpr ⟨r, hcs, hds⟩⟩

/-- A segment only depends on its own cells. -/
theorem Seg.frame (hseg : Seg h p cs q) (hsame : ∀ c ∈ cs, h' c.1 = h c.1) : Seg h' p cs q := by
  induction cs generalizing p with
  | nil => exact hseg
  | cons c cs ih =>
      rcases hseg with ⟨hp, next, hcell, hrest⟩
      refine ⟨hp, next, ?_, ih hrest ?_⟩
      · rw [hsame c (List.mem_cons_self ..), hcell]
      · intro d hd
        exact hsame d (List.mem_cons_of_mem _ hd)

/-- Every cell of a segment is allocated. -/
theorem Seg.allocated (hseg : Seg h p cs q) (hc : c ∈ cs) : ∃ next, h c.1 = some (c.2, next) := by
  induction cs generalizing p with
  | nil => simp at hc
  | cons d cs ih =>
      rcases hseg with ⟨_, next, hcell, hrest⟩
      rcases List.mem_cons.mp hc with rfl | hc
      · exact ⟨next, hcell⟩
      · exact ih hrest hc

variable {r : P}

/-- A pointer without a cell is in no segment. -/
theorem Seg.not_mem_of_free (hseg : Seg h p cs q) (hr : h r = none) : r ∉ cs.map Prod.fst := by
  intro hmem
  rcases List.mem_map.mp hmem with ⟨c, hc, rfl⟩
  rcases hseg.allocated hc with ⟨next, hcell⟩
  rw [hr] at hcell
  simp at hcell

variable [DecidableEq P]

/-- A cell outside the segment may be set or freed. -/
theorem Seg.set {cell : Option (α × Option P)} (hseg : Seg h p cs q)
    (hr : r ∉ cs.map Prod.fst) : Seg (Function.update h r cell) p cs q := by
  apply hseg.frame
  intro c hc
  apply Function.update_of_ne
  intro heq
  exact hr (heq ▸ List.mem_map_of_mem hc)

/-- The last pointer of a segment may be redirected. -/
theorem Seg.relink {next : Option P} (hseg : Seg h p (cs ++ [c]) q)
    (hnodup : ((cs ++ [c]).map Prod.fst).Nodup) :
    Seg (Function.update h c.1 (some (c.2, next))) p (cs ++ [c]) next := by
  rw [List.map_append, List.map_singleton, List.nodup_append] at hnodup
  have hnot : c.1 ∉ cs.map Prod.fst := by
    intro hmem
    exact hnodup.2.2 _ hmem _ (List.mem_singleton_self _) rfl
  rcases Seg.append_iff.mp hseg with ⟨r, hcs, hr, _⟩
  refine Seg.append_iff.mpr ⟨r, hcs.set hnot, hr, next, ?_, rfl⟩
  exact Function.update_self ..

/-- A fresh cell behind the last one. -/
theorem Seg.append_new (a : α) (hseg : Seg h p (cs ++ [c]) none)
    (hnodup : ((cs ++ [c]).map Prod.fst).Nodup) (hr : h r = none) :
    Seg (Function.update (Function.update h r (some (a, none))) c.1 (some (c.2, some r))) p
        (cs ++ [c] ++ [(r, a)]) none ∧
      ((cs ++ [c] ++ [(r, a)]).map Prod.fst).Nodup := by
  have hnew := hseg.not_mem_of_free hr
  have hne : r ≠ c.1 := by
    intro heq
    rw [heq] at hnew
    exact hnew (List.mem_map_of_mem (by simp))
  constructor
  · refine Seg.append_iff.mpr ⟨some r, (hseg.set hnew).relink hnodup, rfl, none, ?_, rfl⟩
    show Function.update (Function.update h r _) c.1 _ r = _
    rw [Function.update_of_ne hne, Function.update_self]
  · rw [List.map_append, List.nodup_append]
    refine ⟨hnodup, List.nodup_singleton _, ?_⟩
    intro x hx y hy heq
    rw [List.map_singleton, List.mem_singleton] at hy
    rw [heq, hy] at hx
    exact hnew hx

/-- A cell is taken out: the one before it leads past it, and it is freed. -/
theorem Seg.remove {b : P × α} {next : Option P} (hpre : Seg h p (ds ++ [b]) (some c.1))
    (hrest : Seg h next cs q) (hnodup : ((ds ++ [b] ++ c :: cs).map Prod.fst).Nodup) :
    Seg (Function.update (Function.update h b.1 (some (b.2, next))) c.1 none) p
        (ds ++ [b] ++ cs) q ∧
      ((ds ++ [b] ++ cs).map Prod.fst).Nodup := by
  rw [List.map_append, List.map_cons, List.nodup_middle, List.nodup_cons,
    ← List.map_append] at hnodup
  rcases hnodup with ⟨hc, hothers⟩
  have hparts := hothers
  rw [List.map_append, List.nodup_append] at hparts
  rcases hparts with ⟨hprenodup, _, hdisj⟩
  have hb : b.1 ∉ cs.map Prod.fst := by
    intro hmem
    exact hdisj b.1 (List.mem_map_of_mem (by simp)) b.1 hmem rfl
  exact ⟨(Seg.append_iff.mpr ⟨next, hpre.relink hprenodup, hrest.set hb⟩).set hc, hothers⟩

end LinkedList
