import Mathlib.Data.List.TakeWhile
import Mathlib.Tactic.Common

/-!
# Fields of a line

What the conversions of `scanf` take from a text: `%s` the next word, and `%[^..]` the
characters up to one of a set. A conversion that finds nothing fails, and what stands
behind it is not looked at any more.
-/

namespace Scan

variable {α : Type*}

/-- The characters up to one of a set, and what is behind them; `none` if there are none. -/
def until_ (stop : α → Bool) (s : List α) : Option (List α × List α) :=
  match s.takeWhile (!stop ·) with
  | [] => none
  | field => some (field, s.dropWhile (!stop ·))

/-- The next word: blanks in front of it are skipped. -/
def word (blank : α → Bool) (s : List α) : Option (List α × List α) :=
  until_ blank (s.dropWhile blank)

variable {stop blank : α → Bool} {s field rest : List α}

/-- What is behind the field does not belong to it. -/
def Ends (stop : α → Bool) (rest : List α) : Prop := ∀ c ∈ rest.head?, stop c = true

theorem until_append (hne : field ≠ []) (hfield : ∀ c ∈ field, stop c = false)
    (hrest : Ends stop rest) : until_ stop (field ++ rest) = some (field, rest) := by
  have hall : ∀ c ∈ field, (!stop c) = true := by
    intro c hc
    simp [hfield c hc]
  have htake : (field ++ rest).takeWhile (!stop ·) = field := by
    rw [List.takeWhile_append_of_pos hall]
    cases rest with
    | nil => simp
    | cons c rest =>
        have hc : stop c = true := hrest c rfl
        simp [hc]
  have hdrop : (field ++ rest).dropWhile (!stop ·) = rest := by
    rw [List.dropWhile_append_of_pos hall]
    cases rest with
    | nil => rfl
    | cons c rest =>
        have hc : stop c = true := hrest c rfl
        simp [hc]
  unfold until_
  rw [htake, hdrop]
  cases field with
  | nil => exact absurd rfl hne
  | cons c field => rfl

/-- A word behind blanks is found. -/
theorem word_append {blanks : List α} (hblanks : ∀ c ∈ blanks, blank c = true) (hne : field ≠ [])
    (hfield : ∀ c ∈ field, blank c = false) (hrest : Ends blank rest) :
    word blank (blanks ++ (field ++ rest)) = some (field, rest) := by
  have hskip : (blanks ++ (field ++ rest)).dropWhile blank = field ++ rest := by
    rw [List.dropWhile_append_of_pos hblanks]
    cases field with
    | nil => exact absurd rfl hne
    | cons c field =>
        have hc := hfield c List.mem_cons_self
        simp [hc]
  rw [word, hskip, until_append hne hfield hrest]

/-- There is no word in a text of blanks. -/
theorem word_blank (hs : ∀ c ∈ s, blank c = true) : word blank s = none := by
  have hskip : s.dropWhile blank = [] := List.dropWhile_eq_nil_iff.2 hs
  rw [word, hskip]
  rfl

/-! ## The last separator -/

/-- A separator that is there has a last place. -/
theorem exists_last {c : α} (hmem : c ∈ s) : ∃ front back, s = front ++ c :: back ∧ c ∉ back := by
  rcases List.eq_append_cons_of_mem (List.mem_reverse.2 hmem) with ⟨back, front, hs, hback⟩
  have hreverse := congrArg List.reverse hs
  refine ⟨front.reverse, back.reverse, by simpa using hreverse, ?_⟩
  exact fun hc => hback (List.mem_reverse.1 hc)

/-- What stands in front of the last `c` and behind it; `none` if there is none. -/
def splitLast [DecidableEq α] (c : α) (s : List α) : Option (List α × List α) :=
  match s.reverse.dropWhile (· != c) with
  | [] => none
  | _ :: front => some (front.reverse, (s.reverse.takeWhile (· != c)).reverse)

variable [DecidableEq α] {c : α} {front back : List α}

theorem splitLast_append (hback : c ∉ back) :
    splitLast c (front ++ c :: back) = some (front, back) := by
  have hall : ∀ a ∈ back.reverse, (a != c) = true := by
    intro a ha
    have hne : a ≠ c := fun h => hback (h ▸ List.mem_reverse.1 ha)
    simpa using hne
  have hreverse : (front ++ c :: back).reverse = back.reverse ++ (c :: front.reverse) := by simp
  have hdrop : (front ++ c :: back).reverse.dropWhile (· != c) = c :: front.reverse := by
    rw [hreverse, List.dropWhile_append_of_pos hall]
    simp
  have htake : (front ++ c :: back).reverse.takeWhile (· != c) = back.reverse := by
    rw [hreverse, List.takeWhile_append_of_pos hall]
    simp
  unfold splitLast
  rw [hdrop, htake]
  simp

theorem splitLast_of_notMem (hs : c ∉ s) : splitLast c s = none := by
  have hdrop : s.reverse.dropWhile (· != c) = [] := by
    rw [List.dropWhile_eq_nil_iff]
    intro a ha
    have hne : a ≠ c := fun h => hs (h ▸ List.mem_reverse.1 ha)
    simpa using hne
  unfold splitLast
  rw [hdrop]

end Scan
