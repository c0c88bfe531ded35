import TestActivity.Aidl.Generate

/-!
# The class loader

The stub and the proxy are two methods in Java, but the generator remembers over
both whether it has declared `cl`. So the proxy reads a map or a list with a
variable it does not have where the stub has read one before, and only there.
-/

namespace Aidl

variable {m : Method}

/-- The values that are read with the class loader. -/
def Ty.needsLoader (t : Ty) (dimension : ℕ) : Bool :=
  dimension == 0 && (t.cls == .map || t.cls == .list)

/-- `cl` is declared in the case of the stub. -/
def Method.stubLoader (m : Method) : Bool :=
  m.args.any fun arg => arg.isIn && arg.type.needsLoader arg.dimension

/-- The proxy reads the argument with `cl`. -/
def Arg.needsLoader (arg : Arg) : Bool := arg.isOut && arg.type.needsLoader arg.dimension

/-- The proxy reads the result with `cl`. -/
def Method.resultLoader (m : Method) : Bool := !m.isVoid && m.returnType.needsLoader m.dimension

/-- The method of the proxy reads with `cl`. -/
def Method.proxyLoader (m : Method) : Bool := m.resultLoader || m.args.any Arg.needsLoader

theorem generateCreateFromParcel_loader (t : Ty) (v parcel : Variable) (cl : Bool) :
    (generateCreateFromParcel t v parcel cl).2 = (cl || t.needsLoader v.dimension) ∧
      (t.needsLoader v.dimension = false →
        (generateCreateFromParcel t v parcel cl).1 =
          (generateCreateFromParcel t v parcel false).1) := by
  unfold generateCreateFromParcel Ty.needsLoader
  split
  · next hdim =>
      rw [hdim]
      unfold Ty.createFromParcel
      cases t.cls with
      | genericList creator =>
          dsimp only
          split
          · simp
          · split <;> simp
      | _ => simp
  · next hdim =>
      split <;> simp [hdim]

theorem generateReadFromParcel_loader (t : Ty) (v parcel : Variable) (cl : Bool) :
    (generateReadFromParcel t v parcel cl).2 = (cl || t.needsLoader v.dimension) ∧
      (t.needsLoader v.dimension = false →
        (generateReadFromParcel t v parcel cl).1 =
          (generateReadFromParcel t v parcel false).1) := by
  unfold generateReadFromParcel Ty.needsLoader
  split
  · next hdim =>
      rw [hdim]
      unfold Ty.readFromParcel
      cases t.cls with
      | genericList creator =>
          dsimp only
          split
          · simp
          · split <;> simp
      | _ => simp
  · next hdim =>
      split <;> simp [hdim]

theorem stubArg_loader (i : ℕ) (arg : Arg) (cl : Bool) :
    (stubArg i arg cl).2 = (cl || (arg.isIn && arg.type.needsLoader arg.dimension)) := by
  unfold stubArg
  cases arg.isIn with
  | true => exact (generateCreateFromParcel_loader arg.type (stubVariable i arg) transactData cl).1
  | false =>
      dsimp only
      rw [if_neg Bool.false_ne_true, Bool.false_and, Bool.or_false]
      split
      · rfl
      · split <;> rfl

/-- What the stub leaves of `cl`. -/
theorem stubArgs_loader (i : ℕ) (cl : Bool) (args : List Arg) :
    (stubArgs i cl args).2 =
      (cl || args.any fun arg => arg.isIn && arg.type.needsLoader arg.dimension) := by
  induction args generalizing i cl with
  | nil => rw [stubArgs, List.any_nil, Bool.or_false]
  | cons arg args ih =>
      have htail :
          (stubArgs i cl (arg :: args)).2 = (stubArgs (i + 1) (stubArg i arg cl).2 args).2 := rfl
      rw [htail, ih, stubArg_loader, List.any_cons, Bool.or_assoc]

/-- One round of the loop over the out and inout parameters. -/
def proxyOut (cl : Bool) (arg : Arg) : List Statement × Bool :=
  if arg.isOut then generateReadFromParcel arg.type arg.variable proxyReply cl else ([], cl)

theorem proxyOuts_cons (arg : Arg) (args : List Arg) (cl : Bool) :
    (proxyOuts cl (arg :: args)).1 =
      (proxyOut cl arg).1 ++ (proxyOuts (proxyOut cl arg).2 args).1 := rfl

theorem proxyOut_loader {arg : Arg} (h : arg.needsLoader = false) (cl : Bool) :
    (proxyOut cl arg).1 = (proxyOut false arg).1 ∧ (proxyOut cl arg).2 = cl := by
  unfold proxyOut
  cases hout : arg.isOut with
  | true =>
      rw [Arg.needsLoader, hout, Bool.true_and] at h
      have hread := generateReadFromParcel_loader arg.type arg.variable proxyReply cl
      refine ⟨hread.2 h, hread.1.trans ?_⟩
      have hneeds : arg.type.needsLoader arg.variable.dimension = false := h
      rw [hneeds, Bool.or_false]
  | false => exact ⟨rfl, rfl⟩

theorem proxyOuts_loader {args : List Arg} (h : args.any Arg.needsLoader = false) (cl : Bool) :
    (proxyOuts cl args).1 = (proxyOuts false args).1 := by
  induction args generalizing cl with
  | nil => rfl
  | cons arg args ih =>
      rw [List.any_cons, Bool.or_eq_false_iff] at h
      rw [proxyOuts_cons, proxyOuts_cons, ih h.2, ih h.2 (proxyOut false arg).2,
        (proxyOut_loader h.1 cl).1]

/-- The code of the proxy for the result. -/
def proxyReceives (m : Method) (cl : Bool) : List Statement × Bool :=
  if m.isVoid then ([], cl)
  else generateCreateFromParcel m.returnType (proxyResult m) proxyReply cl

theorem proxyReturns_eq (m : Method) (htwoway : m.oneway = false) (cl : Bool) :
    proxyReturns m cl =
      .expression (.methodCall (.variable proxyReply) .readException []) ::
        ((proxyReceives m cl).1 ++ (proxyOuts (proxyReceives m cl).2 m.args).1) := by
  unfold proxyReturns
  rw [htwoway, if_neg Bool.false_ne_true]
  rfl

theorem proxyReceives_loader {m : Method} (h : m.resultLoader = false) (cl : Bool) :
    (proxyReceives m cl).1 = (proxyReceives m false).1 ∧ (proxyReceives m cl).2 = cl := by
  unfold proxyReceives
  cases hvoid : m.isVoid with
  | true => exact ⟨rfl, rfl⟩
  | false =>
      rw [Method.resultLoader, hvoid, Bool.not_false, Bool.true_and] at h
      have hcreate := generateCreateFromParcel_loader m.returnType (proxyResult m) proxyReply cl
      refine ⟨hcreate.2 h, hcreate.1.trans ?_⟩
      have hneeds : m.returnType.needsLoader (proxyResult m).dimension = false := h
      rw [hneeds, Bool.or_false]

/-- A proxy that reads nothing with `cl` has the same code either way. -/
theorem proxyReturns_loader (m : Method) (h : m.proxyLoader = false) (cl : Bool) :
    proxyReturns m cl = proxyReturns m false := by
  unfold Method.proxyLoader at h
  rw [Bool.or_eq_false_iff] at h
  cases htwoway : m.oneway with
  | true => simp [proxyReturns, htwoway]
  | false =>
      rw [proxyReturns_eq m htwoway, proxyReturns_eq m htwoway, (proxyReceives_loader h.1 cl).1,
        proxyOuts_loader h.2, proxyOuts_loader h.2 (proxyReceives m false).2]

/-- The code of the proxy is that of a method of its own. -/
def Method.OwnLoader (m : Method) : Prop := m.stubLoader = false ∨ m.proxyLoader = false

theorem Method.OwnLoader.proxyReturns (h : m.OwnLoader) :
    proxyReturns m (stubArgs 0 false m.args).2 = proxyReturns m false := by
  rcases h with hstub | hproxy
  · have hcl : (stubArgs 0 false m.args).2 = false := by
      rw [stubArgs_loader, Bool.false_or]
      exact hstub
    rw [hcl]
  · exact proxyReturns_loader m hproxy _

end Aidl
