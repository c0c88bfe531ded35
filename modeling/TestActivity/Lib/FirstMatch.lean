import Mathlib.Data.List.Basic

/-!
# Scans that stop at the first match

`List.findSome?` answers with the first match of a list. It is a function of
the members alone when all matches of the list are the same (`Agree`); if two
of them differ, the order decides.
-/

namespace FirstMatch

variable {α β : Type*} {f : α → Option β} {l l' : List α}

/-- All matches in the list are the same. -/
def Agree (f : α → Option β) (l : List α) : Prop :=
  ∀ a ∈ l, ∀ b ∈ l, ∀ x y, f a = some x → f b = some y → x = y

theorem Agree.of_mem_iff (h : Agree f l) (hmem : ∀ a, a ∈ l' ↔ a ∈ l) : Agree f l' := by
  intro a ha b hb
  exact h a ((hmem a).1 ha) b ((hmem b).1 hb)

/-- Where the matches agree, any match is the answer. -/
theorem Agree.findSome?_eq_some_iff (h : Agree f l) {x : β} :
    l.findSome? f = some x ↔ ∃ a ∈ l, f a = some x := by
  constructor
  · exact List.exists_of_findSome?_eq_some
  · rintro ⟨a, ha, hx⟩
    have hsome : (l.findSome? f).isSome := by
      rw [List.findSome?_isSome_iff]
      exact ⟨a, ha, by simp [hx]⟩
    rcases Option.isSome_iff_exists.1 hsome with ⟨y, hy⟩
    rcases List.exists_of_findSome?_eq_some hy with ⟨b, hb, hby⟩
    rw [hy, h a ha b hb x y hx hby]

/-- Where the matches agree, the order does not matter. -/
theorem Agree.findSome?_congr (h : Agree f l) (hmem : ∀ a, a ∈ l' ↔ a ∈ l) :
    l'.findSome? f = l.findSome? f := by
  apply Option.ext
  intro x
  rw [(h.of_mem_iff hmem).findSome?_eq_some_iff, h.findSome?_eq_some_iff]
  simp only [hmem]

/-- What stands first is the answer, if it is a match. -/
theorem findSome?_cons_of_some {a : α} {x : β} (h : f a = some x) (l : List α) :
    (a :: l).findSome? f = some x := by
  rw [List.findSome?_cons, h]

end FirstMatch
