import Mathlib.Data.List.Basic
import Mathlib.Data.List.Infix
import Mathlib.Tactic.Common

/-!
# Terminated strings in a flat memory

A string is stored as its characters followed by one terminator `nul`. This
file is the small theory every reader of such memory needs: what a pointer
denotes (`cstr`), how consecutive strings are walked (`cstrs`), and what a
zero-filled buffer holds when only the beginning of a message has arrived
(`cut`, `fill`).

Nothing here knows what the strings are for. Running off the end of the
memory is `none`.
-/

namespace CString

variable {α : Type*} (nul : α)

/-! ## Tables of strings -/

/-- The memory image of a sequence of strings, each followed by its `nul`. -/
def table (ss : List (List α)) : List α := ss.flatMap fun s => s ++ [nul]

@[simp] theorem table_nil : table nul ([] : List (List α)) = [] := rfl

@[simp] theorem table_cons (s : List α) (ss : List (List α)) :
    table nul (s :: ss) = s ++ nul :: table nul ss := by
  simp [table]

/-- Every string takes at least the cell of its terminator. -/
theorem length_le_table (ss : List (List α)) : ss.length ≤ (table nul ss).length := by
  induction ss with
  | nil => simp
  | cons s ss ih => simp; omega

/-- Empty strings are bare terminators. -/
theorem table_replicate_nil (n : ℕ) :
    table nul (List.replicate n ([] : List α)) = List.replicate n nul := by
  induction n with
  | zero => simp
  | succ n ih => simp [List.replicate_succ, ih]

/-- Behind a string that starts at `off` the memory continues with `rest`. -/
theorem drop_past {mem s rest : List α} {off : ℕ}
    (h : mem.drop off = s ++ nul :: rest) : mem.drop (off + s.length + 1) = rest := by
  have hsplit : mem.drop (off + s.length + 1) = (mem.drop off).drop (s.length + 1) := by
    rw [List.drop_drop, Nat.add_assoc]
  rw [hsplit, h, ← List.drop_drop]
  simp

/-- The same, for a string at the head of the memory. -/
theorem drop_head (s rest : List α) : (s ++ nul :: rest).drop (s.length + 1) = rest := by
  rw [← List.drop_drop, List.drop_left]
  rfl

/-- One cell further. -/
theorem drop_next {mem rest : List α} {off : ℕ} {b : α} (h : mem.drop off = b :: rest) :
    mem[off]? = some b ∧ mem.drop (off + 1) = rest := by
  constructor
  · rw [← List.head?_drop, h]
    rfl
  · rw [← List.drop_drop, h]
    rfl

/-! ## A zero-filled buffer -/

/-- The buffer of `size` cells, cleared, with `bs` written at its head. -/
def fill (size : ℕ) (bs : List α) : List α := bs ++ List.replicate (size - bs.length) nul

/-- `bs` with everything from position `k` on overwritten by `nul`. -/
def cut (k : ℕ) (bs : List α) : List α := bs.take k ++ List.replicate (bs.length - k) nul

theorem length_fill {size : ℕ} {bs : List α} (h : bs.length ≤ size) :
    (fill nul size bs).length = size := by
  simp [fill, h]

@[simp] theorem length_cut (k : ℕ) (bs : List α) : (cut nul k bs).length = bs.length := by
  simp only [cut, List.length_append, List.length_take, List.length_replicate]
  omega

@[simp] theorem cut_zero (bs : List α) : cut nul 0 bs = List.replicate bs.length nul := by
  simp [cut]

theorem cut_of_length_le {k : ℕ} {bs : List α} (h : bs.length ≤ k) : cut nul k bs = bs := by
  simp [cut, List.take_of_length_le h, h]

/-- A cut falls into the first part and goes on into the second. -/
theorem cut_append (k : ℕ) (as bs : List α) :
    cut nul k (as ++ bs) = cut nul k as ++ cut nul (k - as.length) bs := by
  rcases Nat.le_total k as.length with h | h
  · -- the cut ends in `as`: all of `bs` is overwritten
    have hk : k - as.length = 0 := by omega
    have hlen : (as ++ bs).length - k = (as.length - k) + bs.length := by
      simp only [List.length_append]
      omega
    rw [hk, cut_zero, cut, cut, hlen, List.replicate_add, List.take_append_of_le_length h]
    simp
  · rw [cut_of_length_le nul h]
    simp only [cut, List.take_append, List.take_of_length_le h, List.length_append,
      List.append_assoc]
    congr 3
    omega

/-- A cut behind the head keeps it. -/
theorem cut_cons {k : ℕ} (hk : 0 < k) (b : α) (bs : List α) :
    cut nul k (b :: bs) = b :: cut nul (k - 1) bs := by
  rcases Nat.exists_eq_add_of_lt hk with ⟨k, rfl⟩
  simp [cut]

/-- A buffer that received only the first `k` cells of `bs` holds the cut of
`bs`, zero-filled. -/
theorem fill_take (size k : ℕ) (bs : List α) (h : bs.length ≤ size) :
    fill nul size (bs.take k) = fill nul size (cut nul k bs) := by
  have hk : size - (bs.take k).length = (bs.length - k) + (size - bs.length) := by
    simp only [List.length_take]
    omega
  rw [fill, fill, hk, List.replicate_add, length_cut, cut, List.append_assoc]

/-- A cut changes nothing exactly when the cells it overwrites were `nul`. -/
theorem cut_eq_self_iff (k : ℕ) (bs : List α) :
    cut nul k bs = bs ↔ ∀ b ∈ bs.drop k, b = nul := by
  have hsplit : bs = bs.take k ++ bs.drop k := (List.take_append_drop k bs).symm
  constructor
  · intro h
    have hdrop : List.replicate (bs.length - k) nul = bs.drop k := by
      rw [← List.append_cancel_left_eq (bs.take k), List.take_append_drop]
      exact h
    rw [← hdrop]
    exact fun b hb => (List.mem_replicate.1 hb).2
  · intro h
    have hdrop : bs.drop k = List.replicate (bs.length - k) nul := by
      rw [List.eq_replicate_iff]
      exact ⟨by simp, h⟩
    rw [cut, ← hdrop, List.take_append_drop]

/-- A cut string is a shorter string in front of bare terminators. -/
theorem cut_terminated (k : ℕ) (s : List α) :
    cut nul k (s ++ [nul]) = s.take k ++ nul :: List.replicate (s.length - k) nul := by
  rw [cut_append]
  rcases Nat.lt_or_ge s.length k with h | h
  · rw [cut_of_length_le nul (Nat.le_of_lt h), cut_of_length_le nul (by simp; omega),
      List.take_of_length_le (Nat.le_of_lt h), Nat.sub_eq_zero_of_le (Nat.le_of_lt h)]
    simp
  · have hk : k - s.length = 0 := by omega
    rw [hk, cut_zero, cut, List.append_assoc, ← List.replicate_add]
    simp [List.replicate_succ]

/-- A cut table is a table of as many strings in front of bare terminators. -/
theorem cut_table (ss : List (List α)) (hss : ∀ s ∈ ss, nul ∉ s) (k : ℕ) :
    ∃ ss' j, ss'.length = ss.length ∧ (∀ s ∈ ss', nul ∉ s) ∧
      cut nul k (table nul ss) = table nul ss' ++ List.replicate j nul := by
  induction ss generalizing k with
  | nil => exact ⟨[], 0, rfl, by simp, by simp [cut]⟩
  | cons s ss ih =>
      have hs : nul ∉ s.take k := fun h => hss s (by simp) (List.mem_of_mem_take h)
      have hsplit : cut nul k (table nul (s :: ss)) =
          s.take k ++ nul :: List.replicate (s.length - k) nul ++
            cut nul (k - (s.length + 1)) (table nul ss) := by
        have htab : table nul (s :: ss) = (s ++ [nul]) ++ table nul ss := by simp
        rw [htab, cut_append, cut_terminated]
        simp
      rcases Nat.lt_or_ge k (s.length + 1) with h | h
      · -- the cut falls into `s`: all strings behind it are read as empty
        have hk : k - (s.length + 1) = 0 := by omega
        have hle := length_le_table nul ss
        refine ⟨s.take k :: List.replicate ss.length [],
          s.length - k + ((table nul ss).length - ss.length), by simp, ?_, ?_⟩
        · intro t ht
          rcases List.mem_cons.1 ht with rfl | ht
          · exact hs
          · rw [(List.mem_replicate.1 ht).2]
            simp
        · rw [hsplit, hk, cut_zero, table_cons, table_replicate_nil]
          simp only [List.append_assoc, List.cons_append, ← List.replicate_add]
          congr 3
          omega
      · -- `s` is whole: the cut goes on in the strings behind it
        obtain ⟨ss', j, hlen, hall, hcut⟩ :=
          ih (fun t ht => hss t (by simp [ht])) (k - (s.length + 1))
        have hz : s.length - k = 0 := by omega
        refine ⟨s.take k :: ss', j, by simp [hlen], ?_, ?_⟩
        · intro t ht
          rcases List.mem_cons.1 ht with rfl | ht
          · exact hs
          · exact hall t ht
        · rw [hsplit, hcut, hz]
          simp

/-! ## One string -/

variable [DecidableEq α]

/-- The string a pointer to the head of the memory denotes: the characters up
to the first `nul`. `none` means the scan left the memory. -/
def cstr : List α → Option (List α)
  | [] => none
  | b :: bs => if b = nul then some [] else (cstr bs).map (b :: ·)

@[simp] theorem cstr_nil : cstr nul ([] : List α) = none := rfl

@[simp] theorem cstr_nul (rest : List α) : cstr nul (nul :: rest) = some [] := by
  simp [cstr]

/-- A stored string is read back. -/
@[simp] theorem cstr_append {s : List α} (hs : nul ∉ s) (rest : List α) :
    cstr nul (s ++ nul :: rest) = some s := by
  induction s with
  | nil => simp
  | cons b bs ih =>
      have hb : b ≠ nul := fun h => hs (by simp [h])
      have hbs : nul ∉ bs := fun h => hs (List.mem_cons_of_mem _ h)
      simp [cstr, hb, ih hbs]

/-- A string ends at the first `nul` that was stored. -/
theorem cstr_append_nul (s rest : List α) :
    cstr nul (s ++ nul :: rest) = some (s.takeWhile fun b => b ≠ nul) := by
  induction s with
  | nil => simp
  | cons b bs ih =>
      by_cases hb : b = nul
      · simp [hb]
      · simp only [List.cons_append, cstr, hb, if_false, ih, Option.map_some]
        simp [hb]

/-- What was read was stored there, and nothing before the terminator is one. -/
theorem cstr_eq_some {mem s : List α} (h : cstr nul mem = some s) :
    nul ∉ s ∧ ∃ rest, mem = s ++ nul :: rest := by
  induction mem generalizing s with
  | nil => simp at h
  | cons b bs ih =>
      by_cases hb : b = nul
      · subst hb
        have hs : s = [] := by simpa using h.symm
        exact ⟨by simp [hs], bs, by simp [hs]⟩
      · simp only [cstr, hb, if_false, Option.map_eq_some_iff] at h
        rcases h with ⟨t, ht, rfl⟩
        rcases ih ht with ⟨hnul, rest, rfl⟩
        exact ⟨by simp [hnul, Ne.symm hb], rest, by simp⟩

/-- The scan leaves the memory exactly when there is no terminator in it. -/
theorem cstr_eq_none {mem : List α} : cstr nul mem = none ↔ nul ∉ mem := by
  constructor
  · intro h hmem
    rcases List.eq_append_cons_of_mem hmem with ⟨s, rest, rfl, hs⟩
    simp [hs] at h
  · intro h
    cases hc : cstr nul mem with
    | none => rfl
    | some s =>
        rcases cstr_eq_some nul hc with ⟨_, rest, rfl⟩
        exact absurd (by simp) h

/-- A string is determined by the memory that begins with it. -/
theorem terminated_unique {s s' rest rest' : List α} (hs : nul ∉ s) (hs' : nul ∉ s')
    (h : s ++ nul :: rest = s' ++ nul :: rest') : s = s' ∧ rest = rest' := by
  have hsome : some s = some s' := by
    rw [← cstr_append nul hs rest, h, cstr_append nul hs' rest']
  obtain rfl : s = s' := by simpa using hsome
  exact ⟨rfl, by simpa using h⟩

/-! ## Consecutive strings -/

/-- Walk `n` consecutive strings from the offset `off`: the strings, and the
offset behind the last terminator. -/
def cstrs (mem : List α) : ℕ → ℕ → Option (List (List α) × ℕ)
  | 0, off => some ([], off)
  | n + 1, off =>
      (cstr nul (mem.drop off)).bind fun s =>
        (cstrs mem n (off + s.length + 1)).map fun r => (s :: r.1, r.2)

/-- Stored strings are walked: the walk over `table ss` yields `ss` and stops
right behind it. -/
theorem cstrs_table {mem rest : List α} (ss : List (List α)) (hss : ∀ s ∈ ss, nul ∉ s) :
    ∀ {off : ℕ}, mem.drop off = table nul ss ++ rest →
      cstrs nul mem ss.length off = some (ss, off + (table nul ss).length) := by
  induction ss with
  | nil => intro off _; simp [cstrs]
  | cons s ss ih =>
      intro off h
      have hs : nul ∉ s := hss s (by simp)
      have h' : mem.drop off = s ++ nul :: (table nul ss ++ rest) := by simpa using h
      have htail := ih (fun t ht => hss t (by simp [ht])) (drop_past nul h')
      simp only [List.length_cons, cstrs, h', cstr_append nul hs, Option.bind_some, htail,
        Option.map_some, table_cons, List.length_append]
      congr 2
      omega

/-- What was walked was stored there: `cstrs` returns `n` strings, and the
memory from `off` to the returned offset is their table. -/
theorem cstrs_eq_some {mem : List α} {n : ℕ} : ∀ {off off' : ℕ} {ss : List (List α)},
    cstrs nul mem n off = some (ss, off') →
      ss.length = n ∧ (∀ s ∈ ss, nul ∉ s) ∧ off' = off + (table nul ss).length ∧
        mem.drop off = table nul ss ++ mem.drop off' := by
  induction n with
  | zero =>
      intro off off' ss h
      simp only [cstrs, Option.some.injEq, Prod.mk.injEq] at h
      rcases h with ⟨rfl, rfl⟩
      simp
  | succ n ih =>
      intro off off' ss h
      simp only [cstrs, Option.bind_eq_some_iff, Option.map_eq_some_iff, Prod.mk.injEq] at h
      rcases h with ⟨s, hs, ⟨ss', off''⟩, hrec, rfl, rfl⟩
      rcases cstr_eq_some nul hs with ⟨hnul, rest, hmem⟩
      rcases ih hrec with ⟨hlen, hall, hoff, hdrop⟩
      refine ⟨by simp [hlen], ?_, ?_, ?_⟩
      · intro t ht
        rcases List.mem_cons.1 ht with rfl | ht
        · exact hnul
        · exact hall t ht
      · simp only [hoff, table_cons, List.length_append, List.length_cons]
        omega
      · rw [hmem, ← drop_past nul hmem, hdrop]
        simp

end CString
