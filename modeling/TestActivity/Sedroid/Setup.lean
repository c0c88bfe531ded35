import TestActivity.Lib.Transition
import TestActivity.Sedroid.Apply

/-!
# `addPatch` and `setup` over a whole run

`sPatches` holds patch objects. `addPatch` installs one of them at once; `setup`
loads another, then calls `init` of every patch in the list, then applies those
in status `Inited`, and can stop at each of these points and be called again.

* `Inv`: no pair of a patch is recorded twice or passed to `replaceMethod` twice,
  and a patch below `Inited` has had none passed.
* `applied_once`: it is kept in every run in which no step re-enters a patch
  (`Reenters`). A call of `setup` behind one that stopped half way does.

A step is one call of `addPatch`, or one patch's turn in a loop of `setup`; both
methods are `synchronized`, so nothing comes between the steps of a call.
-/

namespace Sedroid

open Transition

/-- Where the caller of `setup` is. -/
inductive Pc where
  /-- outside both methods -/
  | idle
  /-- in `initPatches`, with the patches that are left -/
  | initPatches (rest : List ℕ)
  /-- in `applyAll`, with the patches that are left -/
  | applyAll (rest : List ℕ)
deriving DecidableEq, Repr

/-- `sPatches`, the patch objects, and what has been done so far. -/
structure State where
  patches : List ℕ
  status : ℕ → Status
  methods : ℕ → Methods
  isSetuped : Bool
  pc : Pc
  /-- the pairs that were passed to `replaceMethod`, by patch -/
  made : List (ℕ × PatchMethod)
  /-- the assignments to `mStatus`, by patch -/
  assigned : List (ℕ × Status)

namespace State

variable (s : State)

/-- `patch.mStatus = status`. -/
def assign (patch : ℕ) (status : Status) : State :=
  { s with
    status := Function.update s.status patch status
    assigned := s.assigned ++ [(patch, status)] }

/-- What `init` leaves in `mPatchMethods`. -/
def record (patch : ℕ) (m : Methods) : State :=
  { s with methods := Function.update s.methods patch m }

/-- A patch was applied, or the attempt threw. -/
def apply (patch : ℕ) (a : Applied) : State :=
  let s := { s with made := s.made ++ (replaced a.calls).map (patch, ·) }
  if a.thrown then s else s.assign patch .fixed

/-- `sPatches.add(patch); patch.mStatus = Patch.Status.Loaded`. -/
def load (patch : ℕ) : State := { s with patches := s.patches ++ [patch] }.assign patch .loaded

/-- `patch.init()`, and the status if it returns `true`. -/
def init (patch : ℕ) (r : InitRun) : State :=
  let (m, ended) := Sedroid.init r (s.methods patch)
  let s := s.record patch m
  if ended = .returned true then s.assign patch .inited else s

/-- `addPatch`. -/
def addPatch (patch : ℕ) (r : InitRun) (fails : ℕ → Bool) (classes : Option (List String)) :
    State :=
  let s := (s.load patch).init patch r
  if r.recorded.2 = .returned true then s.apply patch (addApply fails classes (s.methods patch))
  else s

end State

/-- It is `Sedroid.addPatch` on the patch's own pairs. -/
theorem State.addPatch_eq (s : State) (patch : ℕ) (r : InitRun) (fails : ℕ → Bool)
    (classes : Option (List String)) :
    (s.addPatch patch r fails classes).methods patch =
        (Sedroid.addPatch r fails classes (s.methods patch)).1 ∧
      (s.addPatch patch r fails classes).status patch =
        (Sedroid.addPatch r fails classes (s.methods patch)).2.status ∧
      (s.addPatch patch r fails classes).made =
        s.made ++ (replaced (Sedroid.addPatch r fails classes (s.methods patch)).2.calls).map
          (patch, ·) := by
  have hended := (init_spec r (s.methods patch)).1
  unfold State.addPatch State.init Sedroid.addPatch
  cases hinit : Sedroid.init r (s.methods patch) with
  | mk m ended =>
      rw [hinit] at hended
      -- the classes are only asked for behind an init that succeeded
      cases ended with
      | thrown => simp [State.load, State.assign, State.record, hinit, ← hended, replaced]
      | returned b =>
          cases b with
          | false => simp [State.load, State.assign, State.record, hinit, ← hended, replaced]
          | true =>
              have hstatus := addApply_status fails classes m
              cases hthrown : (addApply fails classes m).thrown with
              | false =>
                  simp [State.load, State.assign, State.record, State.apply, hinit, ← hended,
                    hthrown, hstatus]
              | true =>
                  simp [State.load, State.assign, State.record, State.apply, hinit, ← hended,
                    hthrown, hstatus]

/-- A call of `addPatch`, or a step of a call of `setup`. -/
inductive Label where
  | addPatch (patch : ℕ) (r : InitRun) (fails : ℕ → Bool) (classes : Option (List String))
  | setup
  | init (patch : ℕ) (r : InitRun)
  | apply (patch : ℕ) (fails : ℕ → Bool)
  | next

section Steps

variable (es : EntrySet)

/-- One step. -/
inductive Step : State → Label → State → Prop where
  | addPatch {s : State} {patch : ℕ} {r : InitRun} {fails : ℕ → Bool}
      {classes : Option (List String)} (hpc : s.pc = .idle) :
      Step s (.addPatch patch r fails classes) (s.addPatch patch r fails classes)
  /-- `if (isSetuped)`, or `setupNative` or `loadPatches` fails -/
  | setupReturns {s : State} (hpc : s.pc = .idle) : Step s .setup s
  /-- `loadPatches` has loaded a new object -/
  | setup {s : State} {patch : ℕ} (hpc : s.pc = .idle) (hsetuped : s.isSetuped = false)
      (hpatch : patch ∉ s.patches) (hstatus : s.status patch = .unloaded) :
      Step s .setup { s.load patch with pc := .initPatches (s.patches ++ [patch]) }
  | init {s : State} {patch : ℕ} {rest : List ℕ} {r : InitRun}
      (hpc : s.pc = .initPatches (patch :: rest)) (hended : r.recorded.2 = .returned true) :
      Step s (.init patch r) { s.init patch r with pc := .initPatches rest }
  /-- `init` returns `false`, and `isCurrentProcessApply` too -/
  | initContinues {s : State} {patch : ℕ} {rest : List ℕ} {r : InitRun}
      (hpc : s.pc = .initPatches (patch :: rest)) (hended : r.recorded.2 = .returned false) :
      Step s (.init patch r) { s.init patch r with pc := .initPatches rest }
  /-- `initPatches` returns `false` -/
  | initStops {s : State} {patch : ℕ} {rest : List ℕ} {r : InitRun}
      (hpc : s.pc = .initPatches (patch :: rest)) (hended : r.recorded.2 ≠ .returned true) :
      Step s (.init patch r) { s.init patch r with pc := .idle }
  | initsDone {s : State} (hpc : s.pc = .initPatches []) :
      Step s .next { s with pc := .applyAll s.patches }
  | apply {s : State} {patch : ℕ} {rest : List ℕ} {fails : ℕ → Bool}
      (hpc : s.pc = .applyAll (patch :: rest)) (hstatus : s.status patch = .inited)
      (hok : (applyPatch fails es (s.methods patch)).thrown = false) :
      Step s (.apply patch fails)
        { s.apply patch (applyPatch fails es (s.methods patch)) with pc := .applyAll rest }
  /-- `applyAll` returns `false` -/
  | applyStops {s : State} {patch : ℕ} {rest : List ℕ} {fails : ℕ → Bool}
      (hpc : s.pc = .applyAll (patch :: rest)) (hstatus : s.status patch = .inited)
      (hthrown : (applyPatch fails es (s.methods patch)).thrown = true) :
      Step s (.apply patch fails)
        { s.apply patch (applyPatch fails es (s.methods patch)) with pc := .idle }
  | applyContinues {s : State} {patch : ℕ} {rest : List ℕ}
      (hpc : s.pc = .applyAll (patch :: rest)) (hstatus : s.status patch ≠ .inited) :
      Step s .next { s with pc := .applyAll rest }
  | done {s : State} (hpc : s.pc = .applyAll []) :
      Step s .next { s with isSetuped := true, pc := .idle }

end Steps

/-- Nothing loaded yet. -/
def start : State := ⟨[], fun _ => .unloaded, fun _ => .empty, false, .idle, [], []⟩

/-- A step re-enters a patch: `addPatch` gets one that is `Inited` or `Fixed`;
`init` succeeds on one that is `Fixed`, or records a pair that is recorded
already; a patch is applied that was applied in part; the classes that
`getPatchClasses` lists behind a successful `init` have a pair twice. -/
def Reenters (s : State) : Label → Prop
  | .addPatch patch r _ classes =>
      Status.loaded.ordinal < (s.status patch).ordinal ∨
        ¬ ((s.methods patch).values ++ r.recorded.1).Nodup ∨
        (r.recorded.2 = .returned true ∧ ∃ cs, classes = some cs ∧
          ¬ ((reached (init r (s.methods patch)).1 cs).flatMap
            (init r (s.methods patch)).1.valuesOf).Nodup)
  | .init patch r =>
      (s.status patch = .fixed ∧ r.recorded.2 = .returned true) ∨
        ¬ ((s.methods patch).values ++ r.recorded.1).Nodup
  | .apply patch _ => ∃ pair, (patch, pair) ∈ s.made
  | _ => False

/-- What a run must not do. -/
structure Once (s : State) : Prop where
  /-- no pair of a patch is passed to `replaceMethod` twice -/
  made : s.made.Nodup
  /-- no status is behind an earlier one of the same patch -/
  assigned : s.assigned.Pairwise fun a b => a.1 = b.1 → a.2.ordinal ≤ b.2.ordinal

/-- The invariant. -/
structure Inv (s : State) : Prop extends Once s where
  /-- the current status is the last one -/
  last : ∀ a ∈ s.assigned, a.2.ordinal ≤ (s.status a.1).ordinal
  /-- below `Inited` nothing was applied -/
  fresh : ∀ patch, (s.status patch).ordinal ≤ Status.loaded.ordinal → ∀ pair, (patch, pair) ∉ s.made
  /-- no pair is recorded twice -/
  values : ∀ patch, (s.methods patch).values.Nodup

namespace Inv

variable {s : State}

theorem start : Inv start where
  made := List.nodup_nil
  assigned := List.Pairwise.nil
  last := by simp [Sedroid.start]
  fresh := by simp [Sedroid.start]
  values := by simp [Sedroid.start]

/-- A status that does not go back, and stays below `Inited` only with nothing
applied. -/
theorem assign (h : Inv s) {patch : ℕ} {status : Status}
    (hle : (s.status patch).ordinal ≤ status.ordinal) : Inv (s.assign patch status) where
  made := h.made
  assigned := by
    refine List.pairwise_append.2 ⟨h.assigned, List.pairwise_singleton _ _, ?_⟩
    intro a ha b hb heq
    rw [List.mem_singleton.1 hb] at heq ⊢
    -- an older status of this patch is not above the one it has
    have hlast := h.last a ha
    rw [heq] at hlast
    exact le_trans hlast hle
  last := by
    intro a ha
    rcases List.mem_append.1 ha with ha | ha
    · have hlast := h.last a ha
      by_cases hp : a.1 = patch
      · rw [hp] at hlast
        simpa [State.assign, hp] using le_trans hlast hle
      · simpa [State.assign, hp] using hlast
    · rw [List.mem_singleton.1 ha]
      simp [State.assign]
  fresh := by
    intro p hp
    by_cases heq : p = patch
    · subst heq
      simp only [State.assign, Function.update_self] at hp
      exact h.fresh p (le_trans hle hp)
    · simp only [State.assign, Function.update_of_ne heq] at hp
      exact h.fresh p hp
  values := h.values

theorem record (h : Inv s) {patch : ℕ} {m : Methods} (hm : m.values.Nodup) :
    Inv (s.record patch m) where
  made := h.made
  assigned := h.assigned
  last := h.last
  fresh := h.fresh
  values := by
    intro p
    by_cases heq : p = patch
    · subst heq
      simpa [State.record] using hm
    · simpa [State.record, heq] using h.values p

theorem load (h : Inv s) {patch : ℕ}
    (hle : (s.status patch).ordinal ≤ Status.loaded.ordinal) : Inv (s.load patch) := by
  have hadd : Inv { s with patches := s.patches ++ [patch] } :=
    ⟨⟨h.made, h.assigned⟩, h.last, h.fresh, h.values⟩
  exact hadd.assign hle

theorem init (h : Inv s) {patch : ℕ} {r : InitRun}
    (hfixed : r.recorded.2 = .returned true → s.status patch ≠ .fixed)
    (hnew : ((s.methods patch).values ++ r.recorded.1).Nodup) : Inv (s.init patch r) := by
  have hspec := init_spec r (s.methods patch)
  have hrecord : Inv (s.record patch (Sedroid.init r (s.methods patch)).1) :=
    h.record (hspec.2.nodup_iff.2 hnew)
  unfold State.init
  dsimp only
  split_ifs with hended
  · apply hrecord.assign
    have hne := hfixed (hspec.1.symm.trans hended)
    change (s.status patch).ordinal ≤ Status.inited.ordinal
    revert hne
    cases s.status patch <;> decide
  · exact hrecord

theorem apply (h : Inv s) {patch : ℕ} {a : Applied} (hstatus : s.status patch = .inited)
    (hnone : ∀ pair, (patch, pair) ∉ s.made) (hnodup : (replaced a.calls).Nodup) :
    Inv (s.apply patch a) := by
  have hmade : Inv { s with made := s.made ++ (replaced a.calls).map (patch, ·) } := by
    refine ⟨⟨?_, h.assigned⟩, h.last, ?_, h.values⟩
    · refine List.nodup_append'.2 ⟨h.made, hnodup.map fun _ _ heq => (Prod.mk.inj heq).2, ?_⟩
      intro p hp hq
      rcases List.mem_map.1 hq with ⟨pair, -, rfl⟩
      exact hnone pair hp
    · intro p hp pair hmem
      rcases List.mem_append.1 hmem with hmem | hmem
      · exact h.fresh p hp pair hmem
      · rcases List.mem_map.1 hmem with ⟨pair', -, heq⟩
        rw [← (Prod.mk.inj heq).1] at hp
        simp only [hstatus] at hp
        exact absurd hp (by decide)
  unfold State.apply
  dsimp only
  split_ifs
  · exact hmade
  · apply hmade.assign
    simp only [hstatus]
    decide

/-- A step of the machine alone. -/
theorem goto (h : Inv s) (pc : Pc) : Inv { s with pc := pc } :=
  ⟨⟨h.made, h.assigned⟩, h.last, h.fresh, h.values⟩

end Inv

/-- The pairs `addPatch` comes to are those of the classes it reaches. -/
theorem replaced_addCalls_nodup {m : Methods} {classes : Option (List String)}
    (h : ∀ cs, classes = some cs → ((reached m cs).flatMap m.valuesOf).Nodup) :
    (replaced (addCalls m classes).1).Nodup := by
  cases classes with
  | none => exact List.nodup_nil
  | some cs =>
      rw [addCalls, classCalls_fst, replaced_calls]
      exact h cs rfl

theorem replaced_entryCalls_nodup {es : EntrySet} {m : Methods} (h : m.values.Nodup) :
    (replaced (entryCalls es m)).Nodup := by
  have hperm : (replaced (entryCalls es m)).Perm (replaced (calls m.values)) :=
    (entryCalls_perm es m).filterMap _
  rw [replaced_calls] at hperm
  exact hperm.nodup_iff.2 h

theorem inv_addPatch {s : State} {patch : ℕ} {r : InitRun} {fails : ℕ → Bool}
    {classes : Option (List String)} (hguard : ¬ Reenters s (.addPatch patch r fails classes))
    (hinv : Inv s) : Inv (s.addPatch patch r fails classes) := by
  simp only [Reenters, not_or, not_not, not_exists, not_and] at hguard
  rcases hguard with ⟨hstatus, hnew, hlisted⟩
  have hle : (s.status patch).ordinal ≤ Status.loaded.ordinal := Nat.le_of_not_lt hstatus
  have hload := hinv.load hle
  have hinit : Inv ((s.load patch).init patch r) := by
    apply hload.init _ hnew
    intro _
    simp [State.load, State.assign]
  unfold State.addPatch
  dsimp only
  split_ifs with hended
  · have hresult : (init r (s.methods patch)).2 = .returned true :=
      (init_spec r (s.methods patch)).1.trans hended
    have hmethods : ((s.load patch).init patch r).methods patch = (init r (s.methods patch)).1 := by
      simp [State.init, State.load, State.assign, State.record, hresult]
    apply hinit.apply
    · simp [State.init, State.load, State.assign, State.record, hresult]
    · intro pair hmem
      have hnone := hinv.fresh patch hle pair
      simp [State.init, State.load, State.assign, State.record, hresult, hnone] at hmem
    · rw [addApply_calls, hmethods]
      exact (replaced_addCalls_nodup (hlisted hended)).sublist (replaced_perform fails 0 _)
  · exact hinit

theorem inv_step {es : EntrySet} {s s' : State} {l : Label} (h : Step es s l s')
    (hguard : ¬ Reenters s l) (hinv : Inv s) : Inv s' := by
  -- the guard speaks of the steps that touch a patch
  have hinit : ∀ {patch r}, l = .init patch r → Inv (s.init patch r) := by
    intro patch r hl
    subst hl
    simp only [Reenters, not_or, not_and, not_not] at hguard
    exact hinv.init (fun hended hfixed => hguard.1 hfixed hended) hguard.2
  have happly : ∀ {patch fails}, l = .apply patch fails → s.status patch = .inited →
      Inv (s.apply patch (applyPatch fails es (s.methods patch))) := by
    intro patch fails hl hstatus
    subst hl
    apply hinv.apply hstatus
    · intro pair hmem
      exact hguard ⟨pair, hmem⟩
    · rw [applyPatch_calls]
      exact (replaced_entryCalls_nodup (hinv.values patch)).sublist (replaced_perform fails 0 _)
  cases h with
  | addPatch hpc => exact inv_addPatch hguard hinv
  | setupReturns hpc => exact hinv
  | @setup patch hpc hsetuped hpatch hstatus =>
      refine (hinv.load ?_).goto _
      rw [hstatus]
      decide
  | init hpc hended => exact (hinit rfl).goto _
  | initContinues hpc hended => exact (hinit rfl).goto _
  | initStops hpc hended => exact (hinit rfl).goto _
  | initsDone hpc => exact hinv.goto _
  | apply hpc hstatus hok => exact (happly rfl hstatus).goto _
  | applyStops hpc hstatus hthrown => exact (happly rfl hstatus).goto _
  | applyContinues hpc hstatus => exact hinv.goto _
  | done hpc => exact ⟨⟨hinv.made, hinv.assigned⟩, hinv.last, hinv.fresh, hinv.values⟩

/-- In a run in which no step re-enters a patch, no pair of a patch is passed to
`replaceMethod` twice, and no status goes back. -/
theorem applied_once {es : EntrySet} {s : State} {tr : List (State × Label)}
    (run : Run (Step es) start tr s) (hguard : ∀ p ∈ tr, ¬ Reenters p.1 p.2) :
    Once s ∧ ∀ p ∈ tr, Once p.1 := by
  rcases run.invariant (fun s l => ¬ Reenters s l) Inv (fun _ _ _ => inv_step) hguard .start with
    ⟨hend, hall⟩
  exact ⟨hend.toOnce, fun p hp => (hall p hp).toOnce⟩

/-- `setup` loads a patch, and everything succeeds. -/
theorem setup_once :
    ∃ tr s, Run (Step storedOrder) start tr s ∧ s.isSetuped = true ∧ Once s := by
  have run : Run (Step storedOrder) start _ _ :=
    .cons (.setup rfl rfl (List.not_mem_nil : 0 ∉ []) rfl) <|
    .cons (.init (r := testPatch) rfl (by decide)) <|
    .cons (.initsDone rfl) <|
    .cons (@Step.apply storedOrder _ 0 [] (fun _ => false) rfl rfl (by decide)) <|
    .cons (.done rfl) <|
    .nil _
  refine ⟨_, _, run, rfl, (applied_once run ?_).1⟩
  intro p hp
  simp only [List.mem_cons, List.not_mem_nil, or_false] at hp
  rcases hp with rfl | rfl | rfl | rfl | rfl
  · exact id
  · rintro (⟨hfixed, -⟩ | hnew)
    · exact absurd hfixed (by decide)
    · exact hnew (by decide)
  · exact id
  · rintro ⟨pair, hmem⟩
    exact List.not_mem_nil hmem
  · exact id

/-- `initFields` throws, and `setup` returns `false`; it is called again, and
succeeds. -/
theorem setup_again_not_once :
    ∃ tr s, Run (Step storedOrder) start tr s ∧ s.isSetuped = true ∧ ¬ Once s := by
  refine ⟨_, _,
    .cons (.setup rfl rfl (List.not_mem_nil : 0 ∉ []) rfl) <|
    .cons (.init (r := testPatch) rfl (by decide)) <|
    .cons (.initsDone rfl) <|
    .cons (@Step.applyStops storedOrder _ 0 [] (fun n => n == 1) rfl rfl (by decide)) <|
    .cons (.setup rfl rfl (show 1 ∉ [0] by decide) rfl) <|
    .cons (.init (r := testPatch) rfl (by decide)) <|
    .cons (.init (r := testPatch) rfl (by decide)) <|
    .cons (.initsDone rfl) <|
    .cons (@Step.apply storedOrder _ 0 [1] (fun _ => false) rfl rfl (by decide)) <|
    .cons (@Step.apply storedOrder _ 1 [] (fun _ => false) rfl rfl (by decide)) <|
    .cons (.done rfl) <|
    .nil _, rfl, ?_⟩
  intro honce
  exact absurd honce.made (by decide)

end Sedroid
