import Mathlib.Data.List.AList
import Mathlib.Data.List.Perm.Basic

/-!
# Maps from keys to lists of values

A `MultiMap` keeps for every key a list of values that belong to it; which key a
value belongs to is fixed, and the map carries the proof that it is kept there.
The order of the entries means nothing, so results about all values are stated
up to permutation.

* `values_add` and `values_touch`: what the two updates do to the values.
* `listed_perm_iff`: a list of keys names the values of the map, each once,
  exactly if it names every key that has values once.
-/

variable {κ ν : Type*} [DecidableEq κ]

/-- For every key the values that belong to it, in the order they came. -/
@[ext] structure MultiMap (key : ν → κ) where
  table : AList fun _ : κ => List ν
  keyed : ∀ k, ∀ vs ∈ table.lookup k, ∀ v ∈ vs, key v = k

namespace MultiMap

variable {key : ν → κ}

/-- No key. -/
def empty : MultiMap key := ⟨∅, by simp⟩

variable (m : MultiMap key)

/-- The values of a key; `none` if it is not in the map. -/
def get (k : κ) : Option (List ν) := m.table.lookup k

/-- The values of a key. -/
def valuesOf (k : κ) : List ν := (m.get k).getD []

/-- All values. -/
def values : List ν := m.table.entries.flatMap fun e => e.2

/-- The map with the key in it. -/
def touch (k : κ) : MultiMap key :=
  if h : k ∈ m.table then m
  else
    ⟨m.table.insert k [], by
      intro k' vs hvs v hv
      by_cases hk : k' = k
      · subst hk
        rw [AList.lookup_insert] at hvs
        rw [← Option.some.inj hvs] at hv
        cases hv
      · rw [AList.lookup_insert_ne hk] at hvs
        exact m.keyed k' vs hvs v hv⟩

theorem keyed_valuesOf {k : κ} {v : ν} (h : v ∈ m.valuesOf k) : key v = k := by
  unfold valuesOf get at h
  cases hk : m.table.lookup k with
  | none =>
      rw [hk] at h
      cases h
  | some vs =>
      rw [hk] at h
      exact m.keyed k vs hk v h

/-- The map with one more value. -/
def add (v : ν) : MultiMap key :=
  ⟨m.table.insert (key v) (m.valuesOf (key v) ++ [v]), by
    intro k vs hvs u hu
    by_cases hk : k = key v
    · subst hk
      rw [AList.lookup_insert] at hvs
      rw [← Option.some.inj hvs] at hu
      rcases List.mem_append.1 hu with hu | hu
      · exact m.keyed_valuesOf hu
      · rw [List.mem_singleton.1 hu]
    · rw [AList.lookup_insert_ne hk] at hvs
      exact m.keyed k vs hvs u hu⟩

@[simp] theorem values_empty : (empty : MultiMap key).values = [] := rfl

theorem get_eq_none_iff {k : κ} : m.get k = none ↔ k ∉ m.table := AList.lookup_eq_none

theorem mem_of_get {k : κ} {vs : List ν} (h : m.get k = some vs) : k ∈ m.table := by
  by_contra hnot
  rw [m.get_eq_none_iff.2 hnot] at h
  cases h

/-! ## The values behind an update -/

@[simp] theorem values_touch (k : κ) : (m.touch k).values = m.values := by
  unfold touch
  split_ifs with h
  · rfl
  · unfold values
    rw [AList.entries_insert_of_notMem h, List.flatMap_cons, List.nil_append]

theorem values_add (v : ν) : (m.add v).values.Perm (m.values ++ [v]) := by
  unfold add values valuesOf get
  rw [AList.entries_insert, List.flatMap_cons]
  by_cases h : key v ∈ m.table
  · rcases List.exists_of_kerase h with ⟨vs, before, after, -, hentries, herase⟩
    have hlookup : m.table.lookup (key v) = some vs := by
      rw [← Option.mem_def, AList.mem_lookup_iff, hentries]
      simp
    rw [hlookup, herase, hentries, Option.getD_some, List.flatMap_append, List.flatMap_append,
      List.flatMap_cons]
    -- the values of the other keys stay where they are
    generalize before.flatMap (fun e => e.2) = bs
    generalize after.flatMap (fun e => e.2) = as
    have hswap : (bs ++ as ++ vs).Perm (bs ++ (vs ++ as)) := by
      rw [List.append_assoc]
      exact List.perm_append_comm.append_left bs
    calc List.Perm (vs ++ [v] ++ (bs ++ as)) (bs ++ as ++ (vs ++ [v])) := List.perm_append_comm
      List.Perm _ (bs ++ as ++ vs ++ [v]) := by rw [List.append_assoc (bs ++ as)]
      List.Perm _ (bs ++ (vs ++ as) ++ [v]) := hswap.append_right [v]
  · rw [AList.lookup_eq_none.2 h, List.kerase_of_notMem_keys h]
    exact List.perm_append_comm

/-! ## Lists of keys -/

/-- All values, key by key. -/
theorem values_eq_flatMap_keys : m.values = m.table.keys.flatMap m.valuesOf := by
  unfold values AList.keys List.keys
  rw [List.flatMap_map]
  apply List.flatMap_congr
  rintro ⟨k, vs⟩ he
  have hlookup : m.table.lookup k = some vs := AList.mem_lookup_iff.2 he
  simp [valuesOf, get, hlookup]

theorem mem_keys_of_valuesOf {k : κ} (h : m.valuesOf k ≠ []) : k ∈ m.table.keys := by
  by_contra hnot
  have hnone : m.get k = none := m.get_eq_none_iff.2 hnot
  exact h (by simp [valuesOf, hnone])

/-- The values of a key are those that belong to it. -/
theorem mem_valuesOf_iff {k : κ} {v : ν} : v ∈ m.valuesOf k ↔ v ∈ m.values ∧ key v = k := by
  rw [values_eq_flatMap_keys, List.mem_flatMap]
  constructor
  · intro h
    exact ⟨⟨k, m.mem_keys_of_valuesOf (List.ne_nil_of_mem h), h⟩, m.keyed_valuesOf h⟩
  · rintro ⟨⟨k', -, h⟩, rfl⟩
    rw [m.keyed_valuesOf h]
    exact h

/-- Keys without values add nothing. -/
theorem flatMap_valuesOf_filter (ks : List κ) :
    (ks.filter fun k => m.valuesOf k ≠ []).flatMap m.valuesOf = ks.flatMap m.valuesOf := by
  induction ks with
  | nil => rfl
  | cons k ks ih =>
      by_cases hk : m.valuesOf k = []
      · rw [List.filter_cons_of_neg (by simp [hk]), ih, List.flatMap_cons, hk, List.nil_append]
      · rw [List.filter_cons_of_pos (by simp [hk]), List.flatMap_cons, ih, List.flatMap_cons]

/-- The values of one key among those a list of keys names. -/
theorem countP_flatMap_valuesOf (ks : List κ) (k : κ) :
    (ks.flatMap m.valuesOf).countP (fun v => key v = k) = ks.count k * (m.valuesOf k).length := by
  induction ks with
  | nil => simp
  | cons k' ks ih =>
      rw [List.flatMap_cons, List.countP_append, ih, List.count_cons]
      by_cases hk : k' = k
      · subst hk
        have hall : (m.valuesOf k').countP (fun v => key v = k') = (m.valuesOf k').length := by
          rw [List.countP_eq_length]
          intro v hv
          simpa using m.keyed_valuesOf hv
        rw [hall]
        simp [Nat.add_mul, Nat.add_comm]
      · have hnone : (m.valuesOf k').countP (fun v => key v = k) = 0 := by
          rw [List.countP_eq_zero]
          intro v hv
          simp [m.keyed_valuesOf hv, hk]
        simp [hnone, hk]

/-- A list of keys names every value once exactly if it names every key that has
values once. -/
theorem listed_perm_iff (ks : List κ) :
    (ks.flatMap m.valuesOf).Perm m.values ↔ ∀ k, m.valuesOf k ≠ [] → ks.count k = 1 := by
  have hnodup : m.table.keys.Nodup := m.table.keys_nodup
  rw [values_eq_flatMap_keys]
  constructor
  · intro hperm k hk
    have hcount := hperm.countP_eq (fun v => key v = k)
    rw [countP_flatMap_valuesOf, countP_flatMap_valuesOf,
      List.count_eq_one_of_mem hnodup (m.mem_keys_of_valuesOf hk)] at hcount
    exact Nat.eq_of_mul_eq_mul_right (List.length_pos_of_ne_nil hk) hcount
  · intro hone
    rw [← m.flatMap_valuesOf_filter ks, ← m.flatMap_valuesOf_filter m.table.keys]
    apply List.Perm.flatMap_right
    apply (List.perm_ext_iff_of_nodup ?_ (hnodup.filter _)).2
    · intro k
      simp only [List.mem_filter, decide_eq_true_eq]
      constructor
      · rintro ⟨-, hk⟩
        exact ⟨m.mem_keys_of_valuesOf hk, hk⟩
      · rintro ⟨-, hk⟩
        refine ⟨?_, hk⟩
        apply List.count_pos_iff.1
        rw [hone k hk]
        exact Nat.one_pos
    · rw [List.nodup_iff_count_le_one]
      intro k
      by_cases hk : m.valuesOf k = []
      · rw [List.count_eq_zero_of_not_mem (by simp [hk])]
        exact Nat.zero_le 1
      · rw [List.count_filter (by simpa using hk), hone k hk]

end MultiMap
