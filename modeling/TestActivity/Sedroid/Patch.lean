import TestActivity.Lib.MultiMap

/-!
# A patch and its `init`

A patch names classes whose methods replace methods of the application; an
annotation of such a method says which. `init` looks for them and records the
pairs in `mPatchMethods`, by patched class. It can end early: with `false`, or
with an exception that nobody catches.

`init_spec`: what a run of `init` records depends on the run alone, and is added
to what was recorded before, also when the run ends early.

The reflection calls are inputs. `exception` stands for an `Exception`, which
the handlers catch, and `error` for any other `Throwable`.
-/

namespace Sedroid

/-- `Method`. -/
structure Method where
  /-- `getDeclaringClass()` -/
  clazz : String
  name : String
  params : List String
deriving DecidableEq, Repr

/-- `PatchMethod`. -/
structure PatchMethod where
  src : Method
  dst : Method
deriving DecidableEq, Repr

/-- `mPatchMethods`: the pairs by patched class. -/
abbrev Methods := MultiMap fun m : PatchMethod => m.src.clazz

/-- `Patch.Status`. -/
inductive Status where
  | unloaded
  | loaded
  | inited
  | fixed
deriving DecidableEq, Repr

/-- `ordinal()`. -/
def Status.ordinal : Status → ℕ
  | .unloaded => 0
  | .loaded => 1
  | .inited => 2
  | .fixed => 3

/-! ## What reflection finds -/

/-- The annotation `MethodFix`. -/
structure MethodFix where
  clazz : String
  method : String
deriving DecidableEq, Repr

/-- How `Sedroid.initTargetClass(Class.forName(clz))` ends. -/
inductive SrcClass where
  | found
  | null
  | exception
  | error
deriving DecidableEq, Repr

/-- A method of a patch class. -/
structure DstMethod where
  method : Method
  fix : Option MethodFix
  srcClass : SrcClass
  /-- `getDeclaredMethod` finds the method, with the same parameter types -/
  srcFound : Bool
deriving DecidableEq, Repr

/-- The pair an annotated method stands for. -/
def DstMethod.pair (d : DstMethod) (fix : MethodFix) : PatchMethod :=
  ⟨⟨fix.clazz, fix.method, d.method.params⟩, d.method⟩

/-- How `loadPatchClass` ends. -/
inductive PatchClass where
  | null
  | exception
  | error
  | loaded (methods : List DstMethod)
deriving DecidableEq, Repr

/-- How `initPatchClasses` ends: the names, and what each is loaded as. -/
inductive ClassNames where
  /-- it throws an exception, or returns `null` -/
  | unavailable
  | error
  | listed (classes : List (String × PatchClass))
deriving DecidableEq, Repr

/-- The outcomes of the calls in one run of `init`. -/
structure InitRun where
  /-- `initClassLoader`, `initMetaInfo` or `isCurrentProcessApply` throws -/
  throws : Bool
  applies : Bool
  classes : ClassNames
deriving DecidableEq, Repr

/-- How a call ends. -/
inductive Ended where
  | returned (b : Bool)
  | thrown
deriving DecidableEq, Repr

/-! ## `init` -/

/-- The loop of `initPatchClass` over the declared methods. -/
def initMethods : List DstMethod → Methods → Methods × Ended
  | [], m => (m, .returned true)
  | d :: ds, m =>
      match d.fix with
      | none => initMethods ds m
      | some fix =>
          -- the key is put before the class is looked for
          let m := m.touch fix.clazz
          match d.srcClass with
          | .exception => (m, .returned false)
          | .error => (m, .thrown)
          | .null => (m, .returned false)
          | .found =>
              if fix.method = "" then (m, .returned false)
              else if !d.srcFound then (m, .returned false)
              else initMethods ds (m.add (d.pair fix))

/-- `initPatchClass`. -/
def initPatchClass (c : PatchClass) (m : Methods) : Methods × Ended :=
  match c with
  | .null => (m, .returned false)
  | .exception => (m, .returned false)
  | .error => (m, .thrown)
  | .loaded ds => initMethods ds m

/-- `TextUtils.isEmpty(str.trim())`. -/
def isBlank (str : String) : Bool := str.toList.all fun c => c.toNat ≤ 32

/-- The loop of `init` over the class names. -/
def initClasses : List (String × PatchClass) → Methods → Methods × Ended
  | [], m => (m, .returned true)
  | (str, c) :: cs, m =>
      if isBlank str then initClasses cs m
      else
        match initPatchClass c m with
        | (m, .returned true) => initClasses cs m
        | (m, ended) => (m, ended)

/-- `init`. -/
def init (r : InitRun) (m : Methods) : Methods × Ended :=
  if r.throws then (m, .thrown)
  else if !r.applies then (m, .returned false)
  else
    match r.classes with
    | .unavailable => (m, .returned false)
    | .error => (m, .thrown)
    | .listed cs => initClasses cs m

/-! ## What a run records -/

/-- The pairs of one class, up to where the loop ends. -/
def recordedMethods : List DstMethod → List PatchMethod × Ended
  | [] => ([], .returned true)
  | d :: ds =>
      match d.fix with
      | none => recordedMethods ds
      | some fix =>
          match d.srcClass with
          | .error => ([], .thrown)
          | .found =>
              if fix.method = "" then ([], .returned false)
              else if !d.srcFound then ([], .returned false)
              else (d.pair fix :: (recordedMethods ds).1, (recordedMethods ds).2)
          | _ => ([], .returned false)

/-- The pairs of a patch class. -/
def recordedClass : PatchClass → List PatchMethod × Ended
  | .loaded ds => recordedMethods ds
  | .error => ([], .thrown)
  | _ => ([], .returned false)

/-- The pairs of the listed classes. -/
def recordedClasses : List (String × PatchClass) → List PatchMethod × Ended
  | [] => ([], .returned true)
  | (str, c) :: cs =>
      if isBlank str then recordedClasses cs
      else if (recordedClass c).2 = .returned true then
        ((recordedClass c).1 ++ (recordedClasses cs).1, (recordedClasses cs).2)
      else recordedClass c

/-- The pairs a run finds, in order, and how it ends. -/
def InitRun.recorded (r : InitRun) : List PatchMethod × Ended :=
  if r.throws then ([], .thrown)
  else if !r.applies then ([], .returned false)
  else
    match r.classes with
    | .unavailable => ([], .returned false)
    | .error => ([], .thrown)
    | .listed cs => recordedClasses cs

/-- A call on `m` adds the given pairs and ends as given. -/
def Records (result : Methods × Ended) (m : Methods) (recorded : List PatchMethod × Ended) : Prop :=
  result.2 = recorded.2 ∧ result.1.values.Perm (m.values ++ recorded.1)

theorem Records.nothing (m : Methods) (ended : Ended) : Records (m, ended) m ([], ended) :=
  ⟨rfl, by simp⟩

theorem Records.touched (m : Methods) (clz : String) (ended : Ended) :
    Records (m.touch clz, ended) m ([], ended) :=
  ⟨rfl, by simp⟩

/-- One pair more, and then the rest. -/
theorem Records.cons {result : Methods × Ended} {m : Methods} {pair : PatchMethod} {clz : String}
    {recorded : List PatchMethod × Ended}
    (h : Records result ((m.touch clz).add pair) recorded) :
    Records result m (pair :: recorded.1, recorded.2) := by
  have hvalues := (m.touch clz).values_add pair
  rw [MultiMap.values_touch] at hvalues
  refine ⟨h.1, h.2.trans ?_⟩
  simpa [List.append_assoc] using hvalues.append_right recorded.1

theorem Records.append {result : Methods × Ended} {m m' : Methods} {pairs : List PatchMethod}
    {recorded : List PatchMethod × Ended} (hfirst : m'.values.Perm (m.values ++ pairs))
    (h : Records result m' recorded) : Records result m (pairs ++ recorded.1, recorded.2) := by
  refine ⟨h.1, h.2.trans ?_⟩
  simpa [List.append_assoc] using hfirst.append_right recorded.1

theorem initMethods_spec (ds : List DstMethod) (m : Methods) :
    Records (initMethods ds m) m (recordedMethods ds) := by
  induction ds generalizing m with
  | nil => exact .nothing m _
  | cons d ds ih =>
      unfold initMethods recordedMethods
      cases hfix : d.fix with
      | none => exact ih m
      | some fix =>
          cases hclass : d.srcClass with
          | null => exact .touched m fix.clazz _
          | exception => exact .touched m fix.clazz _
          | error => exact .touched m fix.clazz _
          | found =>
              dsimp only
              split_ifs
              · exact .touched m fix.clazz _
              · exact .touched m fix.clazz _
              · exact .cons (ih _)

theorem initPatchClass_spec (c : PatchClass) (m : Methods) :
    Records (initPatchClass c m) m (recordedClass c) := by
  cases c with
  | loaded ds => exact initMethods_spec ds m
  | _ => exact .nothing m _

theorem initClasses_spec (cs : List (String × PatchClass)) (m : Methods) :
    Records (initClasses cs m) m (recordedClasses cs) := by
  induction cs generalizing m with
  | nil => exact .nothing m _
  | cons head cs ih =>
      rcases head with ⟨str, c⟩
      have hclass := initPatchClass_spec c m
      unfold initClasses recordedClasses
      split_ifs with hblank hend
      · exact ih m
      · rw [← hclass.1] at hend
        split
        · next m' heq =>
            rw [heq] at hclass
            exact .append hclass.2 (ih m')
        · next m' ended hne heq =>
            rw [heq] at hend
            exact absurd hend hne
      · rw [← hclass.1] at hend
        split
        · next m' heq =>
            rw [heq] at hend
            exact absurd rfl hend
        · next m' ended hne heq =>
            rw [heq] at hclass
            exact hclass

/-- A run of `init` adds the pairs it finds to those that are there. -/
theorem init_spec (r : InitRun) (m : Methods) : Records (init r m) m r.recorded := by
  unfold init InitRun.recorded
  split_ifs
  · exact .nothing m _
  · exact .nothing m _
  · cases r.classes with
    | listed cs => exact initClasses_spec cs m
    | _ => exact .nothing m _

end Sedroid
