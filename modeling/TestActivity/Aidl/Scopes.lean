import TestActivity.Aidl.Loader

/-!
# Which variables are declared

A name in Java means a parameter, a field or a variable that was declared before, in
the block of the use or in one around it. The generated code keeps to that except for
`cl`: the stub and the proxy are two methods, but share the note that it is there. A
file in which a proxy uses `cl` of the stub is not compiled at all.
-/

namespace Aidl

/-! ## Scopes -/

mutual

/-- The variables that are used. -/
def Expression.uses : Expression → List String
  | .literal _ => []
  | .variable v => [v.name]
  | .lengthOf v => [v.name]
  | .methodCall obj _ arguments => obj.uses ++ usesAll arguments
  | .staticCall _ _ arguments => usesAll arguments
  | .comparison l _ r => l.uses ++ r.uses
  | .newExpression _ arguments => usesAll arguments
  | .newArray _ size => size.uses
  | .ternary c i e => c.uses ++ (i.uses ++ e.uses)
  | .cast _ e => e.uses
  | .assignment v e _ => v.name :: e.uses

def usesAll : List Expression → List String
  | [] => []
  | e :: es => e.uses ++ usesAll es

end

/-- What can be used behind the statement. -/
def Statement.declares : Statement → List String
  | .variableDeclaration v _ _ => [v.name]
  | _ => []

def declaresAll (sts : List Statement) : List String := sts.flatMap Statement.declares

mutual

/-- Every variable that is used is in scope. -/
def Statement.scoped (scope : List String) : Statement → Bool
  | .expression e => e.uses.all scope.contains
  | .variableDeclaration _ none _ => true
  | .variableDeclaration _ (some e) _ => e.uses.all scope.contains
  | .ifStatement c statements elseif =>
    c.uses.all scope.contains && scopedAll scope statements && scopedAll scope elseif
  | .returnStatement e => e.uses.all scope.contains
  | .tryCatch statements x handler =>
    scopedAll scope statements && scopedAll (scope ++ [x.name]) handler
  | .tryFinally statements handler => scopedAll scope statements && scopedAll scope handler

def scopedAll (scope : List String) : List Statement → Bool
  | [] => true
  | st :: sts => st.scoped scope && scopedAll (scope ++ st.declares) sts

end

/-- The code of the interface uses no variable that it does not declare: `onTransact`
with its parameters, and the methods of the proxy with theirs and the field of the
class. -/
structure Scoped (ms : List Method) : Prop where
  cases : ∀ c ∈ stubCases ms, scopedAll ["code", "data", "reply", "flags"] c.statements = true
  handler : scopedAll ["code", "data", "reply", "flags", "e"] transactCatch = true
  proxies : ∀ m ∈ ms,
    scopedAll ("mRemote" :: m.args.map (·.name)) (proxyStatements m) = true

variable {scope : List String} {sts sts' : List Statement} {t : Ty} {v parcel : Variable}
  {cl : Bool} {i : ℕ} {arg : Arg} {args : List Arg} {m : Method}

@[simp] theorem declaresAll_nil : declaresAll [] = [] := rfl

@[simp] theorem declaresAll_cons (st : Statement) (sts : List Statement) :
    declaresAll (st :: sts) = st.declares ++ declaresAll sts := List.flatMap_cons

@[simp] theorem declaresAll_append (sts sts' : List Statement) :
    declaresAll (sts ++ sts') = declaresAll sts ++ declaresAll sts' := List.flatMap_append

theorem scopedAll_expression (scope : List String) (e : Expression) (sts : List Statement) :
    scopedAll scope (.expression e :: sts) =
      (e.uses.all scope.contains && scopedAll scope sts) := by
  rw [scopedAll, Statement.scoped]
  show (_ && scopedAll (scope ++ []) sts) = _
  rw [List.append_nil]

/-- One piece of code behind another. -/
theorem scopedAll_append (scope : List String) (sts sts' : List Statement) :
    scopedAll scope (sts ++ sts') =
      (scopedAll scope sts && scopedAll (scope ++ declaresAll sts) sts') := by
  induction sts generalizing scope with
  | nil => rw [List.nil_append, scopedAll, Bool.true_and, declaresAll_nil, List.append_nil]
  | cons st sts ih =>
      rw [List.cons_append, scopedAll, scopedAll, ih, Bool.and_assoc, declaresAll_cons,
        List.append_assoc]

/-! ## Marshalling -/

theorem Ty.callParcel_uses (parcel : Variable) (n : ParcelMethod) (arguments : List Expression) :
    (Ty.callParcel parcel n arguments).uses = parcel.name :: usesAll arguments := rfl

@[simp] theorem scopedAll_internalError (scope : List String) (t : Ty) (what : String) :
    scopedAll scope (t.internalError what) = true := rfl

@[simp] theorem declaresAll_internalError (t : Ty) (what : String) :
    declaresAll (t.internalError what) = [] := rfl

theorem generateWriteToParcel_scoped (hv : v.name ∈ scope) (hp : parcel.name ∈ scope)
    (t : Ty) (returnValue : Bool) :
    scopedAll scope (generateWriteToParcel t v parcel returnValue) = true ∧
      declaresAll (generateWriteToParcel t v parcel returnValue) = [] := by
  have hflags (b : Bool) : (Ty.buildWriteToParcelFlags b).uses = [] := rfl
  unfold generateWriteToParcel
  split
  · unfold Ty.writeToParcel
    cases t.cls with
    | genericList creator =>
        dsimp only
        split
        · simp [scopedAll, Statement.scoped, Statement.declares, usesAll, Expression.uses,
            Ty.callParcel_uses, hv, hp]
        · split <;> simp [scopedAll, Statement.scoped, Statement.declares, usesAll,
            Expression.uses, Ty.callParcel_uses, hv, hp]
    | _ =>
        simp [scopedAll, Statement.scoped, Statement.declares, Expression.uses, usesAll,
          Ty.callParcel_uses, Ty.writeFlagged, hflags, hv, hp]
  · split
    · unfold Ty.writeArrayToParcel
      cases t.cls <;> simp [scopedAll, Statement.scoped, Statement.declares, Expression.uses,
        usesAll, Ty.callParcel_uses, hflags, hv, hp]
    · exact ⟨rfl, rfl⟩

/-- What is read with `cl` needs it in scope where the note says that it is there, and
declares it where not. -/
theorem ensureClassLoader_scoped (scope : List String) (e : Expression) (cl needs : Bool)
    (hcl : "cl" ∈ e.uses) (hothers : ∀ x ∈ e.uses, x ≠ "cl" → x ∈ scope) (hneeds : needs = true) :
    scopedAll scope (Ty.ensureClassLoader cl ++ [.expression e]) =
        (!(cl && needs) || scope.contains "cl") ∧
      declaresAll (Ty.ensureClassLoader cl ++ [.expression e]) =
        if !cl && needs then ["cl"] else [] := by
  subst hneeds
  cases cl with
  | false =>
      refine ⟨?_, rfl⟩
      have huses : ∀ x ∈ e.uses, x ∈ scope ++ ["cl"] := fun x hx => by
        by_cases h : x = "cl"
        · simp [h]
        · exact List.mem_append_left _ (hothers x hx h)
      simpa [Ty.ensureClassLoader, scopedAll, Statement.scoped, Statement.declares,
        Expression.uses] using huses
  | true =>
      refine ⟨?_, rfl⟩
      have huses : e.uses.all scope.contains = scope.contains "cl" := by
        rw [Bool.eq_iff_iff, List.all_eq_true]
        refine ⟨fun h => h _ hcl, fun h x hx => ?_⟩
        by_cases hx' : x = "cl"
        · rw [hx', h]
        · exact List.contains_iff_mem.2 (hothers x hx hx')
      simp [Ty.ensureClassLoader, scopedAll, Statement.scoped, huses]

/-- Only a map or a list is read with `cl`. -/
theorem generateCreateFromParcel_scoped (hv : v.name ∈ scope) (hp : parcel.name ∈ scope)
    (t : Ty) (cl : Bool) :
    scopedAll scope (generateCreateFromParcel t v parcel cl).1 =
        (!(cl && t.needsLoader v.dimension) || scope.contains "cl") ∧
      declaresAll (generateCreateFromParcel t v parcel cl).1 =
        if !cl && t.needsLoader v.dimension then ["cl"] else [] := by
  -- maps and lists are the values that are read with `cl`
  have hassign (n : ParcelMethod) {needs : Bool} := ensureClassLoader_scoped scope
    (.assignment v (Ty.callParcel parcel n [Ty.clVariable]) none) cl needs
    (by simp [Expression.uses, Ty.callParcel_uses, usesAll, Ty.clVariable])
    (by simp [Expression.uses, Ty.callParcel_uses, usesAll, Ty.clVariable, hv, hp])
  unfold generateCreateFromParcel Ty.needsLoader
  split
  · next hdim =>
      rw [hdim]
      unfold Ty.createFromParcel
      cases t.cls with
      | map => exact hassign .readHashMap rfl
      | list => exact hassign .readArrayList rfl
      | genericList creator =>
          dsimp only
          split
          · simp [scopedAll, Statement.scoped, Statement.declares, Expression.uses, usesAll,
              Ty.assignParcel, Ty.callParcel_uses, hv, hp]
          · split <;> simp [scopedAll, Statement.scoped, Statement.declares, Expression.uses,
              usesAll, Ty.assignParcel, Ty.callParcel_uses, hv, hp]
      | _ =>
          simp [scopedAll, Statement.scoped, Statement.declares, Expression.uses, usesAll,
            Ty.assignParcel, Ty.createFlagged, Ty.callParcel_uses, hv, hp]
  · next hdim =>
      -- an array is read without `cl`, whatever is in it
      have hzero : (v.dimension == 0) = false := by simpa using hdim
      rw [hzero]
      split
      · unfold Ty.createArrayFromParcel
        cases t.cls <;> simp [scopedAll, Statement.scoped, Statement.declares, Expression.uses,
          usesAll, Ty.assignParcel, Ty.callParcel_uses, hv, hp]
      · simp [scopedAll]

theorem generateReadFromParcel_scoped (hv : v.name ∈ scope) (hp : parcel.name ∈ scope)
    (t : Ty) (cl : Bool) :
    scopedAll scope (generateReadFromParcel t v parcel cl).1 =
        (!(cl && t.needsLoader v.dimension) || scope.contains "cl") ∧
      declaresAll (generateReadFromParcel t v parcel cl).1 =
        if !cl && t.needsLoader v.dimension then ["cl"] else [] := by
  -- maps and lists are the values that are read with `cl`
  have hread (n : ParcelMethod) {needs : Bool} := ensureClassLoader_scoped scope
    (Ty.callParcel parcel n [.variable v, Ty.clVariable]) cl needs
    (by simp [Expression.uses, Ty.callParcel_uses, usesAll, Ty.clVariable])
    (by simp [Expression.uses, Ty.callParcel_uses, usesAll, Ty.clVariable, hv, hp])
  unfold generateReadFromParcel Ty.needsLoader
  split
  · next hdim =>
      rw [hdim]
      unfold Ty.readFromParcel
      cases t.cls with
      | map => exact hread .readMap rfl
      | list => exact hread .readList rfl
      | userData =>
          simp [scopedAll, Statement.scoped, Statement.declares, Expression.uses, usesAll,
            Ty.callParcel_uses, hv, hp]
      | genericList creator =>
          dsimp only
          split
          · simp [scopedAll, Statement.scoped, Statement.declares, Expression.uses, usesAll,
              Ty.callParcel_uses, hv, hp]
          · split <;> simp [scopedAll, Statement.scoped, Statement.declares, Expression.uses,
              usesAll, Ty.callParcel_uses, hv, hp]
      | _ => simp
  · next hdim =>
      have hzero : (v.dimension == 0) = false := by simpa using hdim
      rw [hzero]
      split
      · unfold Ty.readArrayFromParcel
        cases t.cls <;> simp [scopedAll, Statement.scoped, Statement.declares, Expression.uses,
          usesAll, Ty.callParcel_uses, hv, hp]
      · simp [scopedAll]

/-! ## The stub -/

theorem argName_mem_stubArgs {j : ℕ} (hi : i ≤ j) (hj : j < i + args.length) (cl : Bool) :
    argName j ∈ declaresAll (stubArgs i cl args).1 := by
  induction args generalizing i cl with
  | nil => simp at hj; omega
  | cons arg args ih =>
      have hfirst : argName i ∈ declaresAll (stubArg i arg cl).1 := by
        simp [stubArg, Statement.declares, stubVariable]
      have htail : (stubArgs i cl (arg :: args)).1 =
          (stubArg i arg cl).1 ++ (stubArgs (i + 1) (stubArg i arg cl).2 args).1 := rfl
      rw [htail, declaresAll_append, List.mem_append]
      rcases Nat.eq_or_lt_of_le hi with rfl | hlt
      · exact .inl hfirst
      · exact .inr (ih hlt (by rw [List.length_cons] at hj; omega) _)

theorem generateNewArray_scoped (hv : v.name ∈ scope) (hp : parcel.name ∈ scope) (t : Ty) :
    scopedAll scope (generateNewArray t v parcel) = true := by
  simp [generateNewArray, scopedAll, Statement.scoped, Statement.declares, Expression.uses, usesAll,
    Ty.callParcel_uses, hv, hp]

/-- In the stub `cl` is there where the note says so. -/
theorem stubArg_scoped (hdata : "data" ∈ scope) (hcl : cl = true → "cl" ∈ scope) (i : ℕ)
    (arg : Arg) :
    scopedAll scope (stubArg i arg cl).1 = true ∧
      ((stubArg i arg cl).2 = true → "cl" ∈ scope ++ declaresAll (stubArg i arg cl).1) := by
  let v := stubVariable i arg
  have hv : v.name ∈ scope ++ [v.name] := by simp
  have hp : transactData.name ∈ scope ++ [v.name] := List.mem_append_left _ hdata
  have hdeclaration (sts : List Statement) :
      scopedAll scope (.variableDeclaration v none none :: sts) =
        scopedAll (scope ++ [v.name]) sts := by
    rw [scopedAll, Statement.scoped, Bool.true_and, Statement.declares]
  rw [stubArg_loader]
  unfold stubArg
  cases hin : arg.isIn with
  | true =>
      have hcreate := generateCreateFromParcel_scoped hv hp arg.type cl
      refine ⟨(hdeclaration _).trans (hcreate.1.trans ?_), fun h => ?_⟩
      · cases cl with
        | false => rfl
        | true => simp [hcl rfl]
      · have hdeclares : declaresAll (.variableDeclaration v none none ::
            (generateCreateFromParcel arg.type v transactData cl).1) = v.name ::
              if !cl && arg.type.needsLoader arg.dimension then ["cl"] else [] := by
          rw [declaresAll_cons, hcreate.2]
          rfl
        show "cl" ∈ scope ++ declaresAll (.variableDeclaration v none none ::
          (generateCreateFromParcel arg.type v transactData cl).1)
        rw [hdeclares]
        cases cl with
        | true => simp [hcl rfl]
        | false =>
            rw [Bool.true_and, Bool.false_or] at h
            simp [h]
  | false =>
      -- an out argument is a new object, and is not read from the data
      rw [Bool.false_and, Bool.or_false]
      refine ⟨?_, fun h => List.mem_append_left _ (hcl h)⟩
      dsimp only
      rw [if_neg Bool.false_ne_true]
      split
      · rw [hdeclaration]
        simp [scopedAll, Statement.scoped, Expression.uses, usesAll, v]
      · split
        · exact (hdeclaration _).trans (generateNewArray_scoped hv hp _)
        · exact (hdeclaration _).trans rfl

theorem stubArgs_scoped (hdata : "data" ∈ scope) (hcl : cl = true → "cl" ∈ scope) (i : ℕ)
    (args : List Arg) : scopedAll scope (stubArgs i cl args).1 = true := by
  induction args generalizing scope i cl with
  | nil => rfl
  | cons arg args ih =>
      have htail : (stubArgs i cl (arg :: args)).1 =
          (stubArg i arg cl).1 ++ (stubArgs (i + 1) (stubArg i arg cl).2 args).1 := rfl
      rcases stubArg_scoped hdata hcl i arg with ⟨hfirst, hcl'⟩
      rw [htail, scopedAll_append, hfirst, Bool.true_and]
      exact ih (List.mem_append_left _ hdata) hcl' (i + 1)

theorem realCallArgs_uses (hargs : ∀ j, i ≤ j → j < i + args.length → argName j ∈ scope) :
    (usesAll (realCallArgs i args)).all scope.contains = true := by
  induction args generalizing i with
  | nil => rfl
  | cons arg args ih =>
      rw [List.length_cons] at hargs
      have hfirst : scope.contains (argName i) = true :=
        List.contains_iff_mem.2 (hargs i (Nat.le_refl i) (by omega))
      have hrest := ih (i := i + 1) fun j hi hj => hargs j (by omega) (by omega)
      rw [realCallArgs, usesAll, List.all_append, hrest, Bool.and_true]
      simpa [Expression.uses, stubVariable] using hfirst

theorem stubOuts_scoped (hreply : "reply" ∈ scope)
    (hargs : ∀ j, i ≤ j → j < i + args.length → argName j ∈ scope) :
    scopedAll scope (stubOuts i args) = true ∧ declaresAll (stubOuts i args) = [] := by
  induction args generalizing i with
  | nil => exact ⟨rfl, rfl⟩
  | cons arg args ih =>
      rw [List.length_cons] at hargs
      have hv : (stubVariable i arg).name ∈ scope := hargs i (Nat.le_refl i) (by omega)
      have hp : transactReply.name ∈ scope := hreply
      have hrest := ih (i := i + 1) fun j hi hj => hargs j (by omega) (by omega)
      have hwrite := generateWriteToParcel_scoped hv hp arg.type true
      rw [stubOuts, scopedAll_append, declaresAll_append, hrest.2, List.append_nil]
      split
      · rw [hwrite.1, hwrite.2, List.append_nil, hrest.1]
        exact ⟨rfl, rfl⟩
      · rw [declaresAll_nil, List.append_nil, hrest.1]
        exact ⟨rfl, rfl⟩

theorem stubCall_scoped (hreply : "reply" ∈ scope)
    (hargs : ∀ j, 0 ≤ j → j < 0 + m.args.length → argName j ∈ scope) :
    scopedAll scope (stubCall m) = true := by
  have hcall : (realCall m).uses.all scope.contains = true := by
    rw [realCall, Expression.uses, Expression.uses, List.nil_append]
    exact realCallArgs_uses hargs
  have hnone : ∀ scope' : List String, "reply" ∈ scope' →
      scopedAll scope' (noException m) = true ∧ declaresAll (noException m) = [] := by
    intro scope' hreply'
    unfold noException
    split
    · exact ⟨rfl, rfl⟩
    · simp [scopedAll, Statement.scoped, Statement.declares, Expression.uses, usesAll,
        transactReply, hreply']
  unfold stubCall
  split
  · rw [scopedAll_expression, hcall, Bool.true_and]
    exact (hnone _ hreply).1
  · have hscope : "reply" ∈ scope ++ [(stubResult m).name] := List.mem_append_left _ hreply
    have hv : (stubResult m).name ∈ scope ++ [(stubResult m).name] := by simp
    rw [scopedAll, Statement.scoped, hcall, Bool.true_and, Statement.declares, scopedAll_append,
      (hnone _ hscope).1, (hnone _ hscope).2, List.append_nil, Bool.true_and]
    exact (generateWriteToParcel_scoped hv hscope m.returnType true).1

/-- The case of a method uses what it declares and the parameters of `onTransact`. -/
theorem stubStatements_scoped (m : Method) :
    scopedAll ["code", "data", "reply", "flags"] (stubStatements m) = true := by
  let scope := ["code", "data", "reply", "flags"] ++ declaresAll (stubArgs 0 false m.args).1
  have hargs : ∀ j, 0 ≤ j → j < 0 + m.args.length → argName j ∈ scope := fun j hi hj =>
    List.mem_append_right _ (argName_mem_stubArgs hi hj false)
  have hreply : "reply" ∈ scope := List.mem_append_left _ (by decide)
  have htakes : scopedAll ["code", "data", "reply", "flags"] (stubArgs 0 false m.args).1 = true :=
    stubArgs_scoped (by decide) (fun h => absurd h Bool.false_ne_true) 0 m.args
  have houts : scopedAll (scope ++ declaresAll (stubCall m)) (stubOuts 0 m.args) = true :=
    (stubOuts_scoped (List.mem_append_left _ hreply) fun j hi hj =>
      List.mem_append_left _ (hargs j hi hj)).1
  have hreturn : ∀ scope', scopedAll scope' [.returnStatement (.literal .true)] = true :=
    fun _ => rfl
  have henforce : (Expression.methodCall (.variable transactData) .enforceInterface
      [.literal .descriptor]).uses.all ["code", "data", "reply", "flags"].contains = true := by
    decide
  rw [stubStatements, scopedAll_expression, henforce, Bool.true_and, scopedAll_append, htakes,
    Bool.true_and, scopedAll_append, stubCall_scoped hreply hargs, Bool.true_and,
    scopedAll_append, houts, Bool.true_and, hreturn]

/-! ## The proxy -/

theorem proxyArg_scoped (hname : arg.name ∈ scope) (hdata : "_data" ∈ scope) :
    scopedAll scope (proxyArg arg) = true ∧ declaresAll (proxyArg arg) = [] := by
  have hp : proxyData.name ∈ scope := hdata
  have hv : arg.variable.name ∈ scope := hname
  unfold proxyArg
  split
  · simp [scopedAll, Statement.scoped, Statement.declares, Expression.uses, usesAll,
      Ty.callParcel_uses, hv, hp]
  · split
    · exact generateWriteToParcel_scoped hv hp arg.type false
    · exact ⟨rfl, rfl⟩

theorem proxyArgs_scoped (hnames : ∀ arg ∈ args, arg.name ∈ scope) (hdata : "_data" ∈ scope) :
    scopedAll scope (proxyArgs args) = true ∧ declaresAll (proxyArgs args) = [] := by
  induction args with
  | nil => exact ⟨rfl, rfl⟩
  | cons arg args ih =>
      have hfirst := proxyArg_scoped (hnames arg List.mem_cons_self) hdata
      have hrest := ih fun a ha => hnames a (List.mem_cons_of_mem _ ha)
      have hcons : proxyArgs (arg :: args) = proxyArg arg ++ proxyArgs args := List.flatMap_cons
      rw [hcons, scopedAll_append, declaresAll_append, hfirst.1, hfirst.2, List.append_nil, hrest.1,
        hrest.2]
      exact ⟨rfl, rfl⟩

theorem proxyOut_scoped (hname : arg.name ∈ scope) (hreply : "_reply" ∈ scope) (cl : Bool) :
    scopedAll scope (proxyOut cl arg).1 =
        (!(cl && arg.needsLoader) || scope.contains "cl") ∧
      declaresAll (proxyOut cl arg).1 = (if !cl && arg.needsLoader then ["cl"] else []) ∧
      (proxyOut cl arg).2 = (cl || arg.needsLoader) := by
  have hv : arg.variable.name ∈ scope := hname
  have hp : proxyReply.name ∈ scope := hreply
  have hread := generateReadFromParcel_scoped hv hp arg.type cl
  have hloader := generateReadFromParcel_loader arg.type arg.variable proxyReply cl
  unfold proxyOut Arg.needsLoader
  cases arg.isOut with
  | true =>
      rw [if_pos rfl, Bool.true_and]
      exact ⟨hread.1, hread.2, hloader.1⟩
  | false => simp [scopedAll]

/-- The loop over the out and inout parameters finds `cl` where it was declared in the
proxy, but not where the note is from the stub. -/
theorem proxyOuts_scoped (hnames : ∀ arg ∈ args, arg.name ∈ scope) (hreply : "_reply" ∈ scope)
    (cl : Bool) :
    scopedAll scope (proxyOuts cl args).1 =
      (!(cl && args.any Arg.needsLoader) || scope.contains "cl") := by
  induction args generalizing scope cl with
  | nil => simp [proxyOuts, scopedAll]
  | cons arg args ih =>
      rcases proxyOut_scoped (hnames arg List.mem_cons_self) hreply cl with ⟨hfirst, hdeclares, hcl⟩
      have hnames' : ∀ a ∈ args, a.name ∈ scope ++ declaresAll (proxyOut cl arg).1 :=
        fun a ha => List.mem_append_left _ (hnames a (List.mem_cons_of_mem _ ha))
      rw [proxyOuts_cons, scopedAll_append, hfirst, ih hnames' (List.mem_append_left _ hreply),
        hdeclares, hcl, List.any_cons]
      cases cl <;> cases arg.needsLoader <;> cases args.any Arg.needsLoader <;> simp

theorem proxyReceives_scoped (hresult : m.isVoid = false → "_result" ∈ scope)
    (hreply : "_reply" ∈ scope) (cl : Bool) :
    scopedAll scope (proxyReceives m cl).1 =
        (!(cl && m.resultLoader) || scope.contains "cl") ∧
      declaresAll (proxyReceives m cl).1 = (if !cl && m.resultLoader then ["cl"] else []) ∧
      (proxyReceives m cl).2 = (cl || m.resultLoader) := by
  unfold proxyReceives Method.resultLoader
  cases hvoid : m.isVoid with
  | true => simp [scopedAll]
  | false =>
      have hv : (proxyResult m).name ∈ scope := hresult hvoid
      have hp : proxyReply.name ∈ scope := hreply
      have hcreate := generateCreateFromParcel_scoped hv hp m.returnType cl
      have hloader := generateCreateFromParcel_loader m.returnType (proxyResult m) proxyReply cl
      rw [if_neg Bool.false_ne_true, Bool.not_false, Bool.true_and]
      exact ⟨hcreate.1, hcreate.2, hloader.1⟩

theorem proxyReturns_scoped (hnames : ∀ arg ∈ m.args, arg.name ∈ scope)
    (hresult : m.isVoid = false → "_result" ∈ scope)
    (hreply : m.oneway = false → "_reply" ∈ scope) (cl : Bool) :
    scopedAll scope (proxyReturns m cl) =
      (m.oneway || !(cl && m.proxyLoader) || scope.contains "cl") := by
  cases htwoway : m.oneway with
  | true => simp [proxyReturns, htwoway, scopedAll]
  | false =>
      have hreply' := hreply htwoway
      have hread : (Expression.methodCall (.variable proxyReply) .readException []).uses.all
          scope.contains = true := by
        simp [Expression.uses, usesAll, proxyReply, hreply']
      rcases proxyReceives_scoped hresult hreply' cl with ⟨hfirst, hdeclares, hcl⟩
      have hnames' : ∀ arg ∈ m.args, arg.name ∈ scope ++ declaresAll (proxyReceives m cl).1 :=
        fun arg harg => List.mem_append_left _ (hnames arg harg)
      rw [proxyReturns_eq m htwoway, scopedAll_expression, hread, scopedAll_append, hfirst,
        proxyOuts_scoped hnames' (List.mem_append_left _ hreply'), hdeclares, hcl,
        Method.proxyLoader]
      cases cl <;> cases m.resultLoader <;> cases m.args.any Arg.needsLoader <;> simp

theorem proxyTry_scoped (hnames : ∀ arg ∈ m.args, arg.name ∈ scope) (hremote : "mRemote" ∈ scope)
    (hdata : "_data" ∈ scope) (hresult : m.isVoid = false → "_result" ∈ scope)
    (hreply : m.oneway = false → "_reply" ∈ scope) :
    scopedAll scope (proxyTry m) =
      (m.oneway || !(m.stubLoader && m.proxyLoader) || scope.contains "cl") := by
  have htoken : (Expression.methodCall (.variable proxyData) .writeInterfaceToken
      [.literal .descriptor]).uses.all scope.contains = true := by
    simp [Expression.uses, usesAll, proxyData, hdata]
  have hcall : (transactCall m).uses.all scope.contains = true := by
    unfold transactCall
    cases htwoway : m.oneway with
    | true => simp [Expression.uses, usesAll, mRemote, proxyData, hremote, hdata]
    | false =>
        simp [Expression.uses, usesAll, mRemote, proxyData, proxyReply, hremote, hdata,
          hreply htwoway]
  have hargs := proxyArgs_scoped hnames hdata
  have hstub : (stubArgs 0 false m.args).2 = m.stubLoader := by
    rw [stubArgs_loader, Bool.false_or]
    rfl
  rw [proxyTry, scopedAll_expression, htoken, Bool.true_and, scopedAll_append, hargs.1, hargs.2,
    List.append_nil, Bool.true_and, scopedAll_expression, hcall, Bool.true_and, hstub]
  exact proxyReturns_scoped hnames hresult hreply m.stubLoader

/-- The variables that the method of the proxy declares in front of the `try`. -/
def proxyLocals (m : Method) : List String :=
  ["_data"] ++ ((if m.oneway then [] else ["_reply"]) ++ (if m.isVoid then [] else ["_result"]))

/-- The declarations in front of the `try`. -/
theorem proxyStatements_eq (m : Method) : ∃ front, proxyStatements m =
      front ++ (.tryFinally (proxyTry m) (proxyFinally m) ::
        (if m.isVoid then [] else [.returnStatement (.variable (proxyResult m))])) ∧
    (∀ scope, scopedAll scope front = true) ∧ declaresAll front = proxyLocals m := by
  refine ⟨obtainParcel proxyData :: ((if m.oneway then [] else [obtainParcel proxyReply]) ++
    (if m.isVoid then [] else [.variableDeclaration (proxyResult m) none none])), ?_, ?_, ?_⟩
  · simp [proxyStatements]
  · intro scope
    cases m.oneway <;> cases m.isVoid <;> rfl
  · unfold proxyLocals
    cases m.oneway <;> cases m.isVoid <;> rfl

theorem proxyFinally_scoped (hdata : "_data" ∈ scope)
    (hreply : m.oneway = false → "_reply" ∈ scope) :
    scopedAll scope (proxyFinally m) = true := by
  unfold proxyFinally
  cases htwoway : m.oneway with
  | true =>
      simp [scopedAll, Statement.scoped, Expression.uses, usesAll, proxyData, hdata]
  | false =>
      simp [scopedAll, Statement.scoped, Statement.declares, Expression.uses, usesAll, proxyData,
        proxyReply, hdata, hreply htwoway]

/-- The method of the proxy uses what it declares unless it uses `cl` of the stub. -/
theorem proxyStatements_scoped (hcl : ∀ arg ∈ m.args, arg.name ≠ "cl") :
    scopedAll ("mRemote" :: m.args.map (·.name)) (proxyStatements m) =
      (m.oneway || !(m.stubLoader && m.proxyLoader)) := by
  let scope := ("mRemote" :: m.args.map (·.name)) ++ proxyLocals m
  have hnames : ∀ arg ∈ m.args, arg.name ∈ scope := fun arg harg =>
    List.mem_append_left _ (List.mem_cons_of_mem _ (List.mem_map_of_mem harg))
  have hlocal : ∀ x ∈ proxyLocals m, x ∈ scope := fun x hx => List.mem_append_right _ hx
  have hdata : "_data" ∈ scope := hlocal _ (by simp [proxyLocals])
  have hresult : m.isVoid = false → "_result" ∈ scope := fun h =>
    hlocal _ (by simp [proxyLocals, h])
  have hreply : m.oneway = false → "_reply" ∈ scope := fun h =>
    hlocal _ (by simp [proxyLocals, h])
  -- no parameter and no local variable of the proxy has the name
  have hnotcl : scope.contains "cl" = false := by
    have hlocals : "cl" ∉ proxyLocals m := by
      unfold proxyLocals
      cases m.oneway <;> cases m.isVoid <;> decide
    have hargs : "cl" ∉ m.args.map (·.name) := by
      rw [List.mem_map]
      rintro ⟨arg, harg, hname⟩
      exact hcl arg harg hname
    rw [← Bool.not_eq_true, List.contains_iff_mem, List.mem_append, List.mem_cons]
    rintro ((h | h) | h)
    · exact absurd h (by decide)
    · exact hargs h
    · exact hlocals h
  have htry := proxyTry_scoped hnames (List.mem_append_left _ List.mem_cons_self) hdata hresult
    hreply
  rw [hnotcl, Bool.or_false] at htry
  have hreturn : ∀ scope' : List String, scope ⊆ scope' → scopedAll scope'
      (if m.isVoid then [] else [.returnStatement (.variable (proxyResult m))]) = true := by
    intro scope' hsub
    cases hvoid : m.isVoid with
    | true => rfl
    | false =>
        have hmem : "_result" ∈ scope' := hsub (hresult hvoid)
        simp [scopedAll, Statement.scoped, Expression.uses, proxyResult, hmem]
  rcases proxyStatements_eq m with ⟨front, heq, hfront, hlocals⟩
  rw [heq, scopedAll_append, hfront, Bool.true_and, hlocals, scopedAll, Statement.scoped, htry,
    proxyFinally_scoped hdata hreply, Bool.and_true, hreturn _ (List.subset_append_left ..),
    Bool.and_true]

/-! ## The file -/

theorem scoped_iff {ms : List Method} (hcl : ∀ m ∈ ms, ∀ arg ∈ m.args, arg.name ≠ "cl") :
    Scoped ms ↔ ∀ m ∈ ms, m.oneway = true ∨ m.OwnLoader := by
  have hproxy : ∀ m ∈ ms, scopedAll ("mRemote" :: m.args.map (·.name)) (proxyStatements m) = true ↔
      m.oneway = true ∨ m.OwnLoader := by
    intro m hm
    rw [proxyStatements_scoped (hcl m hm), Bool.or_eq_true, Bool.not_eq_true',
      Bool.and_eq_false_iff, Method.OwnLoader]
  constructor
  · intro h m hm
    exact (hproxy m hm).1 (h.proxies m hm)
  · intro h
    refine ⟨?_, by decide, fun m hm => (hproxy m hm).2 (h m hm)⟩
    intro c hc
    rcases List.mem_cons.1 hc with rfl | hc
    · decide
    · rcases List.mem_map.1 hc with ⟨m, -, rfl⟩
      exact stubStatements_scoped m

end Aidl
