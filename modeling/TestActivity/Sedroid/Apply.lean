import Mathlib.Data.List.TakeWhile
import TestActivity.Sedroid.Patch

/-!
# Applying a patch

A patch whose `init` has succeeded is applied by `replaceMethod` and
`initFields` for each of its pairs. `applyAll` goes through the entries of
`mPatchMethods`. `addPatch` goes through `getPatchClasses()` and looks each name
up in `mPatchMethods`, whose keys are the patched classes.

`addPatch_agrees_iff` says for which patches the two do the same. The base
class never assigns what `getPatchClasses` returns: `mPatchClasses` is `null`.

The calls go to native code and may throw: `fails` says which of them do.
-/

namespace Sedroid

/-- A call for one pair. -/
inductive Call where
  | replaceMethod (pair : PatchMethod)
  | initFields (clazz : String)
deriving DecidableEq, Repr

/-- The body of both inner loops. -/
def calls (pairs : List PatchMethod) : List Call :=
  pairs.flatMap fun p => [.replaceMethod p, .initFields p.dst.clazz]

/-- The pairs that are passed to `replaceMethod`. -/
def replaced (cs : List Call) : List PatchMethod :=
  cs.filterMap fun
    | .replaceMethod p => some p
    | .initFields _ => none

/-- `entrySet()`, in an order a `HashMap` does not promise. -/
structure EntrySet where
  of : Methods → List (Σ _ : String, List PatchMethod)
  perm : ∀ m, (of m).Perm m.table.entries

/-- The calls `applyAll` makes for a patch. -/
def entryCalls (es : EntrySet) (m : Methods) : List Call :=
  (es.of m).flatMap fun entry => calls entry.2

/-- The calls of the loop over class names in `addPatch`; `false` if it meets a
name that is no key, so that `getSrcDstMethods` returns `null`. -/
def classCalls (m : Methods) : List String → List Call × Bool
  | [] => ([], true)
  | clazz :: classes =>
      match m.get clazz with
      | none => ([], false)
      | some pairs =>
          let (rest, ok) := classCalls m classes
          (calls pairs ++ rest, ok)

/-- The calls of `addPatch` behind `init`, for what `getPatchClasses()` returns. -/
def addCalls (m : Methods) : Option (List String) → List Call × Bool
  | none => ([], false)
  | some classes => classCalls m classes

/-- The calls that are made, from the `n`-th on; `false` if the last one throws. -/
def perform (fails : ℕ → Bool) : ℕ → List Call → List Call × Bool
  | _, [] => ([], true)
  | n, c :: cs =>
      if fails n then ([c], false)
      else
        let (rest, ok) := perform fails (n + 1) cs
        (c :: rest, ok)

/-- What applying a patch leaves behind. -/
structure Applied where
  calls : List Call
  status : Status
  thrown : Bool
deriving DecidableEq, Repr

/-- The body of the outer loop of `applyAll`, for a patch in status `Inited`. -/
def applyPatch (fails : ℕ → Bool) (es : EntrySet) (m : Methods) : Applied :=
  let (made, ok) := perform fails 0 (entryCalls es m)
  if ok then ⟨made, .fixed, false⟩ else ⟨made, .inited, true⟩

/-- `addPatch` behind `patch.mStatus = Patch.Status.Inited`. -/
def addApply (fails : ℕ → Bool) (classes : Option (List String)) (m : Methods) : Applied :=
  let (made, ok) := perform fails 0 (addCalls m classes).1
  if ok && (addCalls m classes).2 then ⟨made, .fixed, false⟩ else ⟨made, .inited, true⟩

/-- `addPatch` for a patch with the given pairs: the pairs afterwards, and what
was applied. -/
def addPatch (r : InitRun) (fails : ℕ → Bool) (classes : Option (List String)) (m : Methods) :
    Methods × Applied :=
  match init r m with
  | (m, .thrown) => (m, ⟨[], .loaded, true⟩)
  | (m, .returned false) => (m, ⟨[], .loaded, false⟩)
  | (m, .returned true) => (m, addApply fails classes m)

/-! ## The calls of each -/

theorem calls_append (ps qs : List PatchMethod) : calls (ps ++ qs) = calls ps ++ calls qs :=
  List.flatMap_append

theorem entryCalls_perm (es : EntrySet) (m : Methods) :
    (entryCalls es m).Perm (calls m.values) := by
  unfold entryCalls MultiMap.values
  rw [calls, List.flatMap_assoc]
  exact (es.perm m).flatMap_right _

/-- The names the loop comes to, up to the first that is no key. -/
def reached (m : Methods) (classes : List String) : List String :=
  classes.takeWhile fun clazz => clazz ∈ m.table

theorem classCalls_fst (m : Methods) (classes : List String) :
    (classCalls m classes).1 = calls ((reached m classes).flatMap m.valuesOf) := by
  induction classes with
  | nil => rfl
  | cons clazz classes ih =>
      unfold reached at ih ⊢
      cases hget : m.get clazz with
      | none =>
          have hmem := m.get_eq_none_iff.1 hget
          simp [classCalls, hget, hmem, calls]
      | some pairs =>
          have hmem := m.mem_of_get hget
          rw [List.takeWhile_cons_of_pos (by simpa using hmem), List.flatMap_cons, calls_append,
            ← ih]
          simp [classCalls, MultiMap.valuesOf, hget]

theorem classCalls_snd_iff (m : Methods) (classes : List String) :
    (classCalls m classes).2 = true ↔ ∀ clazz ∈ classes, clazz ∈ m.table := by
  induction classes with
  | nil => simp [classCalls]
  | cons clazz classes ih =>
      rw [List.forall_mem_cons]
      cases hget : m.get clazz with
      | none =>
          have hmem := m.get_eq_none_iff.1 hget
          simp [classCalls, hget, hmem]
      | some pairs =>
          have hmem := m.mem_of_get hget
          simp [classCalls, hget, hmem, ih]

/-- With every name a key the loop reaches its end. -/
theorem classCalls_of_keys {m : Methods} {classes : List String}
    (h : ∀ clazz ∈ classes, clazz ∈ m.table) :
    classCalls m classes = (calls (classes.flatMap m.valuesOf), true) := by
  have hall : reached m classes = classes :=
    List.takeWhile_eq_self_iff.2 fun clazz hc => by simpa using h clazz hc
  refine Prod.ext ?_ ((classCalls_snd_iff m classes).2 h)
  rw [classCalls_fst, hall]

theorem perform_of_ok {fails : ℕ → Bool} {cs : List Call} {n : ℕ}
    (h : ∀ i < cs.length, fails (n + i) = false) : perform fails n cs = (cs, true) := by
  induction cs generalizing n with
  | nil => rfl
  | cons c cs ih =>
      have hfirst : fails n = false := h 0 (Nat.zero_lt_succ _)
      have hrest : ∀ i < cs.length, fails (n + 1 + i) = false := by
        intro i hi
        rw [Nat.add_assoc, Nat.add_comm 1 i]
        exact h (i + 1) (Nat.succ_lt_succ hi)
      rw [perform, ih hrest]
      simp [hfirst]

theorem perform_snd_iff (fails : ℕ → Bool) (n : ℕ) (cs : List Call) :
    (perform fails n cs).2 = true ↔ ∀ i < cs.length, fails (n + i) = false := by
  constructor
  · intro h
    induction cs generalizing n with
    | nil => simp
    | cons c cs ih =>
        unfold perform at h
        split_ifs at h with hfails
        intro i hi
        cases i with
        | zero => simpa using hfails
        | succ i =>
            have hrest := ih (n + 1) h i (by simpa using hi)
            rw [← hrest]
            congr 1
            omega
  · intro h
    rw [perform_of_ok h]

theorem perform_beginning (fails : ℕ → Bool) (n : ℕ) (cs : List Call) :
    (perform fails n cs).1 <+: cs := by
  induction cs generalizing n with
  | nil => exact List.prefix_refl []
  | cons c cs ih =>
      unfold perform
      split_ifs
      · exact List.prefix_append [c] cs
      · exact List.prefix_cons_inj c |>.2 (ih (n + 1))

/-- Of the pairs of a patch no more is passed on than the loop comes to. -/
theorem replaced_perform (fails : ℕ → Bool) (n : ℕ) (cs : List Call) :
    (replaced (perform fails n cs).1).Sublist (replaced cs) :=
  (perform_beginning fails n cs).sublist.filterMap _

theorem applyPatch_calls (fails : ℕ → Bool) (es : EntrySet) (m : Methods) :
    (applyPatch fails es m).calls = (perform fails 0 (entryCalls es m)).1 := by
  unfold applyPatch
  rcases perform fails 0 (entryCalls es m) with ⟨made, ok⟩
  cases ok <;> rfl

theorem addApply_calls (fails : ℕ → Bool) (classes : Option (List String)) (m : Methods) :
    (addApply fails classes m).calls = (perform fails 0 (addCalls m classes).1).1 := by
  unfold addApply
  rcases perform fails 0 (addCalls m classes).1 with ⟨made, ok⟩
  cases ok <;> cases (addCalls m classes).2 <;> rfl

theorem addApply_status (fails : ℕ → Bool) (classes : Option (List String)) (m : Methods) :
    (addApply fails classes m).status =
      if (addApply fails classes m).thrown then .inited else .fixed := by
  unfold addApply
  rcases perform fails 0 (addCalls m classes).1 with ⟨made, ok⟩
  cases ok <;> cases (addCalls m classes).2 <;> rfl

/-! ## Where they agree -/

/-- `getPatchClasses` returns patched classes only, and each that has a pair
once. -/
def ListsPatched (m : Methods) (classes : Option (List String)) : Prop :=
  ∃ cs, classes = some cs ∧ (∀ clazz ∈ cs, clazz ∈ m.table) ∧
    ∀ clazz, m.valuesOf clazz ≠ [] → cs.count clazz = 1

/-- The pairs can be read off the calls. -/
@[simp] theorem replaced_calls (ps : List PatchMethod) : replaced (calls ps) = ps := by
  induction ps with
  | nil => rfl
  | cons p ps ih =>
      unfold replaced calls at ih ⊢
      simpa using ih

theorem calls_perm_iff (ps qs : List PatchMethod) : (calls ps).Perm (calls qs) ↔ ps.Perm qs := by
  constructor
  · intro h
    rw [← replaced_calls ps, ← replaced_calls qs]
    exact h.filterMap _
  · intro h
    exact h.flatMap_right _

/-- What `applyAll` applies when nothing throws. -/
theorem applyPatch_of_ok (es : EntrySet) (m : Methods) :
    applyPatch (fun _ => false) es m = ⟨entryCalls es m, .fixed, false⟩ := by
  unfold applyPatch
  rw [perform_of_ok fun _ _ => rfl]
  rfl

theorem addApply_fixed_iff (fails : ℕ → Bool) (classes : Option (List String)) (m : Methods) :
    ((addApply fails classes m).status = .fixed ∧ (addApply fails classes m).thrown = false) ↔
      (addCalls m classes).2 = true ∧ ∀ i < (addCalls m classes).1.length, fails i = false := by
  have hperform := perform_snd_iff fails 0 (addCalls m classes).1
  simp only [Nat.zero_add] at hperform
  unfold addApply
  rw [← hperform]
  rcases perform fails 0 (addCalls m classes).1 with ⟨made, ok⟩
  cases ok <;> cases (addCalls m classes).2 <;> simp

theorem addApply_agrees_iff (fails : ℕ → Bool) (classes : Option (List String)) (es : EntrySet)
    (m : Methods) :
    ((addApply fails classes m).calls.Perm (applyPatch (fun _ => false) es m).calls ∧
        (addApply fails classes m).status = .fixed ∧ (addApply fails classes m).thrown = false) ↔
      ListsPatched m classes ∧ ∀ i < (calls m.values).length, fails i = false := by
  rw [addApply_fixed_iff, applyPatch_of_ok]
  constructor
  · rintro ⟨hperm, hkeys, hok⟩
    have hmade : (addApply fails classes m).calls = (addCalls m classes).1 := by
      rw [addApply_calls, perform_of_ok fun i hi => by simpa using hok i hi]
    rw [hmade] at hperm
    cases classes with
    | none => cases hkeys
    | some cs =>
        have hmem := (classCalls_snd_iff m cs).1 hkeys
        have hall : (addCalls m (some cs)).1 = calls (cs.flatMap m.valuesOf) := by
          rw [addCalls, classCalls_of_keys hmem]
        have hvalues := hperm.trans (entryCalls_perm es m)
        rw [hall] at hvalues
        refine ⟨⟨cs, rfl, hmem, (m.listed_perm_iff cs).1 ((calls_perm_iff _ _).1 hvalues)⟩, ?_⟩
        rw [← hvalues.length_eq, ← hall]
        exact hok
  · rintro ⟨⟨cs, rfl, hmem, hone⟩, hok⟩
    have hall : addCalls m (some cs) = (calls (cs.flatMap m.valuesOf), true) :=
      classCalls_of_keys hmem
    have hperm := (calls_perm_iff _ _).2 ((m.listed_perm_iff cs).2 hone)
    rw [hall]
    have hok' : ∀ i < (calls (cs.flatMap m.valuesOf)).length, fails i = false := by
      rw [hperm.length_eq]
      exact hok
    refine ⟨?_, rfl, hok'⟩
    rw [addApply_calls, hall, perform_of_ok fun i hi => by simpa using hok' i hi]
    exact hperm.trans (entryCalls_perm es m).symm

/-- A patch whose `init` succeeds is applied by `addPatch` as by `applyAll`, and
left in status `Fixed` without an exception, exactly if `getPatchClasses` lists
patched classes only, each that has a pair once, and no call throws. -/
theorem addPatch_agrees_iff (r : InitRun) (fails : ℕ → Bool) (classes : Option (List String))
    (es : EntrySet) {m : Methods} (hinit : (init r m).2 = .returned true) :
    ((addPatch r fails classes m).2.calls.Perm
          (applyPatch (fun _ => false) es (init r m).1).calls ∧
        (addPatch r fails classes m).2.status = .fixed ∧
        (addPatch r fails classes m).2.thrown = false) ↔
      ListsPatched (init r m).1 classes ∧
        ∀ i < (calls (init r m).1.values).length, fails i = false := by
  have hadd : (addPatch r fails classes m).2 = addApply fails classes (init r m).1 := by
    unfold addPatch
    split
    · next m' heq =>
        rw [heq] at hinit
        cases hinit
    · next m' heq =>
        rw [heq] at hinit
        cases hinit
    · next m' heq => rw [heq]
  rw [hadd]
  exact addApply_agrees_iff fails classes es (init r m).1

/-- `com.zero.Test` replaces `com.zero.Target.run`. -/
def testPatch : InitRun where
  throws := false
  applies := true
  classes := .listed [("com.zero.Test", .loaded
    [⟨⟨"com.zero.Test", "run", []⟩, some ⟨"com.zero.Target", "run"⟩, .found, true⟩])]

/-- The entries as they stand. -/
def storedOrder : EntrySet := ⟨fun m => m.table.entries, fun _ => List.Perm.refl _⟩

/-- With the patched class in the list it is applied as by `applyAll`. -/
theorem testPatch_listed :
    (addPatch testPatch (fun _ => false) (some ["com.zero.Target"]) .empty).2.calls.Perm
        (applyPatch (fun _ => false) storedOrder (init testPatch .empty).1).calls ∧
      (addPatch testPatch (fun _ => false) (some ["com.zero.Target"]) .empty).2.status = .fixed ∧
      (addPatch testPatch (fun _ => false) (some ["com.zero.Target"]) .empty).2.thrown = false := by
  refine (addPatch_agrees_iff testPatch _ _ storedOrder (by decide)).2 ⟨?_, fun _ _ => rfl⟩
  refine ⟨_, rfl, by decide, ?_⟩
  intro clazz hclazz
  rcases List.exists_mem_of_ne_nil _ hclazz with ⟨pair, hpair⟩
  have hvalues : (init testPatch .empty).1.values =
      [⟨⟨"com.zero.Target", "run", []⟩, ⟨"com.zero.Test", "run", []⟩⟩] := by decide
  rw [MultiMap.mem_valuesOf_iff, hvalues] at hpair
  rcases hpair with ⟨hmem, rfl⟩
  rw [List.mem_singleton.1 hmem]
  rfl

/-- `mPatchClasses` is `null`: `addPatch` throws, and applies nothing. -/
theorem testPatch_null :
    (init testPatch .empty).2 = .returned true ∧
      ¬ ((addPatch testPatch (fun _ => false) none .empty).2.calls.Perm
            (applyPatch (fun _ => false) storedOrder (init testPatch .empty).1).calls ∧
          (addPatch testPatch (fun _ => false) none .empty).2.status = .fixed ∧
          (addPatch testPatch (fun _ => false) none .empty).2.thrown = false) := by
  refine ⟨by decide, ?_⟩
  rintro ⟨-, hfixed, -⟩
  exact absurd hfixed (by decide)

end Sedroid
