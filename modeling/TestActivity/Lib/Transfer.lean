import Mathlib.Data.List.Infix
import Mathlib.Data.List.Nodup
import Mathlib.Tactic.Common

/-!
# Moving a stream into a sink that may accept less

A mover takes one chunk after the other from a source and offers it to a sink.
The sink accepts a non-empty beginning of the chunk, or fails. The mover never
offers the rest of a chunk again; it may also stop on its own after a chunk.

`delivered` is what the sink got. It is always a subsequence of the source
(`delivered_sublist`). When the items of the source are told apart it is the
source up to a point, and all of it in a run without a failure and a stop,
exactly for `LossFree` runs (`faithful_iff`).
-/

namespace Transfer

/-- One hand-over: the chunk, how much of it the sink accepted (`none`: the
sink failed), and whether the mover stops after it. -/
structure Offer (α : Type*) where
  chunk : List α
  accepted : Option ℕ
  stop : Bool
  accepted_bounds : ∀ n, accepted = some n → 0 < n ∧ n ≤ chunk.length

/-- How a run ends. -/
inductive Ending where
  | drained
  | failed
  | stopped
deriving DecidableEq, Repr

variable {α : Type*}

/-- Everything the source has to offer. -/
def source (os : List (Offer α)) : List α := os.flatMap Offer.chunk

/-- What the sink accepted before the run ended. -/
def delivered : List (Offer α) → List α
  | [] => []
  | o :: os =>
      match o.accepted with
      | none => []
      | some n => o.chunk.take n ++ if o.stop then [] else delivered os

/-- Why the run ended. -/
def ending : List (Offer α) → Ending
  | [] => .drained
  | o :: os =>
      match o.accepted with
      | none => .failed
      | some _ => if o.stop then .stopped else ending os

/-- Until the run ends every chunk is accepted whole; only the last chunk in
front of a failing sink, or of a stop, may be accepted in part. -/
def LossFree : List (Offer α) → Prop
  | [] => True
  | o :: os => o.accepted = none ∨ o.stop = true ∨
      (o.accepted = some o.chunk.length ∧ LossFree os) ∨
      (∃ o' os', os = o' :: os' ∧ o'.accepted = none)

/-- The sink got the source up to a point, and all of it if nothing went wrong. -/
def Faithful (os : List (Offer α)) : Prop :=
  delivered os <+: source os ∧
    ((∀ o ∈ os, o.accepted ≠ none ∧ o.stop = false) → delivered os = source os)

@[simp] theorem source_nil : source ([] : List (Offer α)) = [] := rfl

@[simp] theorem source_cons (o : Offer α) (os : List (Offer α)) :
    source (o :: os) = o.chunk ++ source os := rfl

@[simp] theorem delivered_nil : delivered ([] : List (Offer α)) = [] := rfl

theorem delivered_cons_none {o : Offer α} (h : o.accepted = none) (os : List (Offer α)) :
    delivered (o :: os) = [] := by
  simp [delivered, h]

theorem delivered_cons_stop {o : Offer α} {n : ℕ} (h : o.accepted = some n)
    (hs : o.stop = true) (os : List (Offer α)) : delivered (o :: os) = o.chunk.take n := by
  simp [delivered, h, hs]

theorem delivered_cons_some {o : Offer α} {n : ℕ} (h : o.accepted = some n)
    (hs : o.stop = false) (os : List (Offer α)) :
    delivered (o :: os) = o.chunk.take n ++ delivered os := by
  simp [delivered, h, hs]

/-- Nothing is reordered and nothing is delivered twice. -/
theorem delivered_sublist (os : List (Offer α)) : (delivered os).Sublist (source os) := by
  induction os with
  | nil => simp
  | cons o os ih =>
      cases h : o.accepted with
      | none => simp [delivered_cons_none h]
      | some n =>
          cases hs : o.stop with
          | true =>
              rw [delivered_cons_stop h hs]
              exact (List.take_sublist _ _).trans (List.sublist_append_left _ _)
          | false =>
              rw [delivered_cons_some h hs]
              exact (List.take_sublist _ _).append ih

/-- If nothing goes wrong the mover empties the source. -/
theorem ending_of_undisturbed {os : List (Offer α)}
    (h : ∀ o ∈ os, o.accepted ≠ none ∧ o.stop = false) : ending os = .drained := by
  induction os with
  | nil => rfl
  | cons o os ih =>
      rcases h o (by simp) with ⟨ha, hs⟩
      have ih' := ih fun o' ho' => h o' (by simp [ho'])
      cases hacc : o.accepted with
      | none => exact absurd hacc ha
      | some n => simp [ending, hacc, hs, ih']

/-- The sink stays empty only if there was nothing to offer or it failed at once. -/
theorem delivered_eq_nil_iff {os : List (Offer α)} :
    delivered os = [] ↔ os = [] ∨ ∃ o os', os = o :: os' ∧ o.accepted = none := by
  constructor
  · intro h
    cases os with
    | nil => exact Or.inl rfl
    | cons o os =>
        right
        cases ha : o.accepted with
        | none => exact ⟨o, os, rfl, ha⟩
        | some n =>
            exfalso
            have hb := o.accepted_bounds n ha
            have hlen : (o.chunk.take n).length = n := by simp [hb.2]
            have hnil : o.chunk.take n = [] := by
              cases hs : o.stop with
              | true => rwa [delivered_cons_stop ha hs] at h
              | false =>
                  rw [delivered_cons_some ha hs] at h
                  exact (List.append_eq_nil_iff.1 h).1
            rw [hnil] at hlen
            simp at hlen
            omega
  · rintro (rfl | ⟨o, os', rfl, h⟩)
    · rfl
    · exact delivered_cons_none h os'

/-- Behind a chunk that was cut short no later item can be delivered without
leaving a gap. -/
theorem prefix_short_iff {c rest d : List α} {n : ℕ} (hnodup : (c ++ rest).Nodup)
    (hd : ∀ x ∈ d, x ∈ rest) (hn : n < c.length) :
    c.take n ++ d <+: c ++ rest ↔ d = [] := by
  constructor
  · intro h
    have hsplit : c ++ rest = c.take n ++ (c.drop n ++ rest) := by
      rw [← List.append_assoc, List.take_append_drop]
    rw [hsplit, List.prefix_append_right_inj] at h
    cases d with
    | nil => rfl
    | cons x xs =>
        exfalso
        have hx : x ∈ c := by
          rw [List.drop_eq_getElem_cons hn, List.cons_append, List.cons_prefix_cons] at h
          rw [h.1]
          exact List.getElem_mem hn
        exact (List.nodup_append.1 hnodup).2.2 x hx x (hd x (by simp)) rfl
  · rintro rfl
    rw [List.append_nil]
    exact (List.take_prefix n c).trans (List.prefix_append c rest)

/-! ## One hand-over -/

/-- A sink that fails at once got a beginning of the source, the empty one. -/
theorem faithful_cons_none {o : Offer α} (h : o.accepted = none) (os : List (Offer α)) :
    Faithful (o :: os) := by
  constructor
  · rw [delivered_cons_none h]
    exact List.nil_prefix
  · intro hall
    exact absurd h (hall o (by simp)).1

/-- In front of a stop it got a beginning of the chunk. -/
theorem faithful_cons_stop {o : Offer α} {n : ℕ} (h : o.accepted = some n)
    (hs : o.stop = true) (os : List (Offer α)) : Faithful (o :: os) := by
  constructor
  · rw [delivered_cons_stop h hs, source_cons]
    exact (List.take_prefix n _).trans (List.prefix_append _ _)
  · intro hall
    have hgo := (hall o (by simp)).2
    rw [hs] at hgo
    cases hgo

/-- Behind a chunk that was accepted whole the rest of the run decides. -/
theorem faithful_cons_whole {o : Offer α} (h : o.accepted = some o.chunk.length)
    (hs : o.stop = false) (os : List (Offer α)) : Faithful (o :: os) ↔ Faithful os := by
  have hdel : delivered (o :: os) = o.chunk ++ delivered os := by
    rw [delivered_cons_some h hs, List.take_length]
  unfold Faithful
  simp only [hdel, source_cons, List.prefix_append_right_inj, List.append_cancel_left_eq,
    List.forall_mem_cons]
  simp [h, hs]

/-- Behind a chunk that was cut short only a sink that fails at once leaves no
gap. -/
theorem faithful_cons_short {o : Offer α} {os : List (Offer α)} {n : ℕ}
    (hnodup : (source (o :: os)).Nodup) (h : o.accepted = some n) (hs : o.stop = false)
    (hn : n < o.chunk.length) :
    Faithful (o :: os) ↔ ∃ o' os', os = o' :: os' ∧ o'.accepted = none := by
  have hshort : o.chunk.take n ++ delivered os <+: o.chunk ++ source os ↔ delivered os = [] :=
    prefix_short_iff hnodup (fun x hx => (delivered_sublist os).subset hx) hn
  unfold Faithful
  rw [delivered_cons_some h hs, source_cons, hshort]
  constructor
  · intro hfaithful
    rcases delivered_eq_nil_iff.1 hfaithful.1 with rfl | hfail
    · -- the chunk was the last one: all was to be delivered
      have hwhole := hfaithful.2 (by simp [h, hs])
      simp at hwhole
      omega
    · exact hfail
  · intro hfail
    constructor
    · exact delivered_eq_nil_iff.2 (Or.inr hfail)
    · intro hall
      rcases hfail with ⟨o', os', rfl, hnone⟩
      exact absurd hnone (hall o' (by simp)).1

theorem lossFree_cons_whole {o : Offer α} (h : o.accepted = some o.chunk.length)
    (hs : o.stop = false) (os : List (Offer α)) : LossFree (o :: os) ↔ LossFree os := by
  simp only [LossFree, h, hs, reduceCtorEq, Bool.false_eq_true, false_or, true_and]
  constructor
  · intro hfree
    rcases hfree with hrest | ⟨o', os', rfl, hnone⟩
    · exact hrest
    · exact Or.inl hnone
  · exact Or.inl

theorem lossFree_cons_short {o : Offer α} {n : ℕ} (h : o.accepted = some n) (hs : o.stop = false)
    (hn : n < o.chunk.length) (os : List (Offer α)) :
    LossFree (o :: os) ↔ ∃ o' os', os = o' :: os' ∧ o'.accepted = none := by
  have hne : n ≠ o.chunk.length := by omega
  simp [LossFree, h, hs, hne]

/-- The sink got a gapless beginning of a source without repetitions, all of it
when nothing went wrong, exactly for loss-free runs. -/
theorem faithful_iff {os : List (Offer α)} (hnodup : (source os).Nodup) :
    Faithful os ↔ LossFree os := by
  induction os with
  | nil => simp [Faithful, LossFree]
  | cons o os ih =>
      have hrest : (source os).Nodup := (List.nodup_append.1 hnodup).2.1
      cases ha : o.accepted with
      | none => exact iff_of_true (faithful_cons_none ha os) (Or.inl ha)
      | some n =>
          cases hs : o.stop with
          | true => exact iff_of_true (faithful_cons_stop ha hs os) (Or.inr (Or.inl hs))
          | false =>
              rcases Nat.lt_or_ge n o.chunk.length with hn | hn
              · rw [faithful_cons_short hnodup ha hs hn, lossFree_cons_short ha hs hn]
              · have hle := (o.accepted_bounds n ha).2
                obtain rfl : n = o.chunk.length := by omega
                rw [faithful_cons_whole ha hs, lossFree_cons_whole ha hs]
                exact ih hrest

end Transfer
