import Mathlib.Data.List.Basic
import Mathlib.Tactic.Common

/-!
# Reading lines into a buffer

`fgets` stores characters up to and including a newline, and at most one less
than the buffer has room for. `texts` is what it stores call after call. A line
that fits comes as one text, with its newline; where it leaves no room for the
newline, the newline comes as a text of its own.
-/

namespace Lines

variable {α : Type*} [DecidableEq α] (newline : α)

/-- The characters up to a newline, at most `n`, and what is behind them. -/
def readLine : ℕ → List α → List α × List α
  | 0, s => ([], s)
  | _ + 1, [] => ([], [])
  | n + 1, c :: s =>
      if c = newline then ([c], s) else (c :: (readLine n s).1, (readLine n s).2)

/-- `fgets(buff, size, stream)`: what is stored, and what remains of the stream;
`none` at its end. -/
def fgets (size : ℕ) : List α → Option (List α × List α)
  | [] => none
  | c :: s => some (readLine newline (size - 1) (c :: s))

theorem length_readLine (n : ℕ) (s : List α) : (readLine newline n s).2.length ≤ s.length := by
  induction n generalizing s with
  | zero => exact Nat.le_refl _
  | succ n ih =>
      rcases s with _ | ⟨c, s⟩
      · exact Nat.le_refl _
      · rw [readLine]
        split
        · exact Nat.le_succ _
        · exact Nat.le_succ_of_le (ih s)

/-- A call makes the stream shorter. -/
theorem length_fgets {size : ℕ} (hsize : 1 < size) {s t rest : List α}
    (h : fgets newline size s = some (t, rest)) : rest.length < s.length := by
  rcases s with _ | ⟨c, s⟩
  · cases h
  · obtain ⟨n, rfl⟩ := Nat.exists_eq_add_of_lt hsize
    have hroom : 1 + n + 1 - 1 = n + 1 := by omega
    have hle := length_readLine newline n s
    rw [fgets, Option.some.injEq, hroom, readLine] at h
    split at h
    · obtain ⟨rfl, rfl⟩ := Prod.mk.inj h
      exact Nat.lt_succ_self _
    · obtain ⟨rfl, rfl⟩ := Prod.mk.inj h
      exact Nat.lt_succ_of_le hle

/-- What is read was at the head of the stream. -/
theorem readLine_append (n : ℕ) (s : List α) :
    (readLine newline n s).1 ++ (readLine newline n s).2 = s := by
  induction n generalizing s with
  | zero => rfl
  | succ n ih =>
      rcases s with _ | ⟨c, s⟩
      · rfl
      · rw [readLine]
        split
        · rfl
        · rw [List.cons_append, ih]

/-- What stops a call in front of the end of the stream. -/
theorem readLine_stop {n : ℕ} {s : List α} (h : (readLine newline n s).2 ≠ []) :
    n ≤ (readLine newline n s).1.length ∨ newline ∈ (readLine newline n s).1 := by
  induction n generalizing s with
  | zero => exact Or.inl (Nat.zero_le _)
  | succ n ih =>
      rcases s with _ | ⟨c, s⟩
      · exact absurd rfl h
      · rw [readLine] at h ⊢
        split at h
        · rename_i hc
          rw [if_pos hc]
          right
          simp [hc]
        · rename_i hc
          rw [if_neg hc]
          rcases ih h with hlen | hmem
          · left
            exact Nat.succ_le_succ hlen
          · right
            exact List.mem_cons_of_mem _ hmem

/-- What call after call stores, to the end of the stream. -/
def texts {size : ℕ} (hsize : 1 < size) (s : List α) : List (List α) :=
  match _h : fgets newline size s with
  | none => []
  | some (t, rest) => t :: texts hsize rest
termination_by s.length
decreasing_by exact length_fgets newline hsize _h

section Line

variable {newline} {l rest : List α} {n size : ℕ}

/-- A line that has room is read with its newline. -/
theorem readLine_line (hl : newline ∉ l) (hn : l.length < n) :
    readLine newline n (l ++ newline :: rest) = (l ++ [newline], rest) := by
  induction l generalizing n with
  | nil =>
      obtain ⟨n, rfl⟩ := Nat.exists_eq_add_of_lt hn
      simp [readLine]
  | cons c l ih =>
      rw [List.mem_cons, not_or] at hl
      obtain ⟨n, rfl⟩ := Nat.exists_eq_add_of_lt hn
      have hrest := ih (n := l.length + 1 + n) hl.2 (by omega)
      rw [List.length_cons, List.cons_append, readLine, if_neg (Ne.symm hl.1), hrest]
      rfl

/-- Without its newline a line is read as far as there is room. -/
theorem readLine_take (hl : newline ∉ l) (hn : n ≤ l.length) :
    readLine newline n (l ++ rest) = (l.take n, l.drop n ++ rest) := by
  induction l generalizing n with
  | nil =>
      obtain rfl : n = 0 := by simpa using hn
      rfl
  | cons c l ih =>
      rw [List.mem_cons, not_or] at hl
      rcases n with _ | n
      · rfl
      · have hrest := ih hl.2 (Nat.le_of_succ_le_succ hn)
        rw [List.cons_append, readLine, if_neg (Ne.symm hl.1), hrest]
        rfl

/-- At the end of the stream all of a line is read that has room. -/
theorem readLine_end (hl : newline ∉ l) (hn : l.length ≤ n) :
    readLine newline n l = (l, []) := by
  induction l generalizing n with
  | nil =>
      rcases n with _ | n
      · rfl
      · rfl
  | cons c l ih =>
      rw [List.mem_cons, not_or] at hl
      obtain ⟨n, rfl⟩ := Nat.exists_eq_add_of_le hn
      have hrest := ih (n := l.length + n) hl.2 (by omega)
      have hroom : (c :: l).length + n = l.length + n + 1 := by
        rw [List.length_cons]
        omega
      rw [hroom, readLine, if_neg (Ne.symm hl.1), hrest]

variable (hsize : 1 < size)

theorem texts_nil : texts newline hsize ([] : List α) = [] := by
  rw [texts]
  rfl

theorem texts_of_fgets {s t : List α} (h : fgets newline size s = some (t, rest)) :
    texts newline hsize s = t :: texts newline hsize rest := by
  rw [texts]
  split
  · simp_all
  · simp_all

theorem fgets_of_ne_nil {s : List α} (hs : s ≠ []) :
    fgets newline size s = some (readLine newline (size - 1) s) := by
  rcases s with _ | ⟨c, s⟩
  · exact absurd rfl hs
  · rfl

/-- A line that has room for its newline is a text. -/
theorem texts_line (hl : newline ∉ l) (hn : l.length + 1 < size) :
    texts newline hsize (l ++ newline :: rest) =
      (l ++ [newline]) :: texts newline hsize rest := by
  apply texts_of_fgets
  rw [fgets_of_ne_nil (by simp), readLine_line hl (by omega)]

/-- A line that has no room for its newline is a text without it. -/
theorem texts_full (hl : newline ∉ l) (hn : l.length + 1 = size) :
    texts newline hsize (l ++ newline :: rest) =
      l :: [newline] :: texts newline hsize rest := by
  have hroom : size - 1 = l.length := by omega
  have hfirst : texts newline hsize (l ++ newline :: rest) =
      l :: texts newline hsize (newline :: rest) := by
    apply texts_of_fgets
    rw [fgets_of_ne_nil (by simp), hroom, readLine_take hl (Nat.le_refl _)]
    simp
  rw [hfirst]
  congr 1
  exact texts_line (l := []) hsize (by simp) (by simpa using hsize)

/-- The last line may have no newline. -/
theorem texts_end (hl : newline ∉ l) (hne : l ≠ []) (hn : l.length < size) :
    texts newline hsize l = [l] := by
  have hfgets : fgets newline size l = some (l, []) := by
    rw [fgets_of_ne_nil hne, readLine_end hl (by omega)]
  rw [texts_of_fgets hsize hfgets, texts_nil]

end Line

end Lines
