import TestActivity.Aidl.Stub

/-!
# What no code does

A parcel that a method has at its start it has to its end: no statement makes it
`null`, whatever the framework and the implementation do.
-/

namespace Aidl

open Exec

variable {W O σ α β : Type}

/-- A parcel that is there stays there. -/
def Exec.Keeps (s : String) (x : Exec W O σ α) : Prop :=
  ∀ f, (f.parcels s).isSome → ((x f).2.parcels s).isSome

namespace Exec.Keeps

variable {s : String} {x y : Exec W O σ α} {g : α → Exec W O σ β}

theorem pure (a : α) : Keeps s (Pure.pure a : Exec W O σ α) := fun _ h => h

theorem bind (hx : Keeps s x) (hg : ∀ a, Keeps s (g a)) : Keeps s (x >>= g) := by
  intro f h
  have hf := hx f h
  show ((Exec.bind x g f).2.parcels s).isSome
  unfold Exec.bind
  cases hr : x f with
  | mk r f' =>
      rw [hr] at hf
      cases r with
      | ok a => exact hg a f' hf
      | error e => exact hf

theorem stuck : Keeps s (Exec.stuck : Exec W O σ α) := fun _ h => h

theorem throw (e : Throwable) : Keeps s (Exec.throw e : Exec W O σ α) := fun _ h => h

theorem throwRuntime : Keeps s (Exec.throwRuntime : Exec W O σ α) := throw _

theorem get (v : String) : Keeps s (Exec.get v : Exec W O σ (Value O)) := by
  intro f h
  unfold Exec.get
  split
  · exact h
  · exact h

theorem set (v : String) (a : Value O) : Keeps s (Exec.set v a : Exec W O σ Unit) := fun _ h => h

theorem getParcel (v : String) : Keeps s (Exec.getParcel v : Exec W O σ (Parcel W)) := by
  intro f h
  unfold Exec.getParcel
  split
  · exact h
  · exact h

theorem setParcel (v : String) (p : Parcel W) : Keeps s (Exec.setParcel v p : Exec W O σ Unit) := by
  intro f h
  show (Function.update f.parcels v (some p) s).isSome
  rw [Function.update_apply]
  split
  · rfl
  · exact h

theorem onWorld (g : σ → Except Exit α × σ) : Keeps s (Exec.onWorld g : Exec W O σ α) := by
  intro f h
  exact h

theorem orThrow (a : Option α) : Keeps s (Exec.orThrow a : Exec W O σ α) := by
  cases a with
  | none => exact throwRuntime
  | some a => exact pure a

end Exec.Keeps

variable {s : String} {env : Env W O σ}

theorem parcelCall_keeps (A : Android W O) (parcel : String) (m : ParcelMethod)
    (target : Option String) (vs : List (Value O)) :
    Keeps s (parcelCall A parcel m target vs : Exec W O σ (Value O)) := by
  unfold parcelCall
  refine .bind (.getParcel _) fun p => ?_
  split
  · exact .bind (.orThrow _) fun ws => .bind (.setParcel _ _) fun _ => .pure _
  · exact .bind (.orThrow _) fun r => .bind (.setParcel _ _) fun _ => .pure _
  · refine .bind (.orThrow _) fun r => .bind (.setParcel _ _) fun _ => ?_
    split
    · exact .bind (.set _ _) fun _ => .pure _
    · exact .bind .stuck fun _ => .pure _

theorem userCall_keeps (env : Env W O σ) (name : String) (targets : List String)
    (vs : List (Value O)) : Keeps s (userCall env name targets vs) := by
  intro f h
  unfold userCall
  dsimp only
  split <;>
  · show ((Frame.setAll _ _).parcels s).isSome
    rw [Frame.setAll_parcels]
    exact h

theorem callOn_keeps (env : Env W O σ) (x : String) (name : CallName)
    (arguments : List Expression) : Keeps s (callOn env x name arguments) := by
  unfold callOn
  repeat' first
    | exact .pure _ | exact .stuck | exact .throwRuntime | exact .throw _ | exact .get _
    | exact .set _ _ | exact .getParcel _ | exact .setParcel _ _ | exact .onWorld _
    | exact .orThrow _
    | (refine .bind ?_ fun _ => ?_)
    | split


theorem callStatic_keeps (A : Android W O) (t : Ty) (name : CallName)
    (arguments : List Expression) :
    Keeps s (callStatic A t name arguments : Exec W O σ (Value O)) := by
  unfold callStatic
  repeat' first
    | exact .pure _ | exact .stuck | exact .throwRuntime | exact .get _ | exact .getParcel _
    | exact .setParcel _ _ | exact .orThrow _
    | (refine .bind ?_ fun _ => ?_)
    | split

theorem evalLiteral_keeps (env : Env W O σ) (value : Literal) :
    Keeps s (evalLiteral env value) := by
  cases value <;> first | exact .pure _ | exact .stuck

theorem Exec.Keeps.of_singleton {e : Expression} (h : Keeps s (evalAll env [e])) :
    Keeps s (eval env e) := by
  intro f hf
  have hall := h f hf
  rw [evalAll] at hall
  cases hr : eval env e f with
  | mk r f' =>
      cases r with
      | error exit =>
          rw [bind_error hr] at hall
          exact hall
      | ok x =>
          rw [bind_ok hr] at hall
          exact hall

mutual

theorem eval_keeps (env : Env W O σ) : ∀ e, Keeps s (eval env e)
  | .literal value => by
      rw [eval]
      exact evalLiteral_keeps env value
  | .variable v => by
      rw [eval]
      exact .get _
  | .lengthOf v => by
      rw [eval, evalLength]
      refine .bind (.get _) fun x => ?_
      split
      · exact .pure _
      · exact .throwRuntime
      · exact .stuck
  | .methodCall obj name arguments => by
      have hargs := evalAll_keeps env arguments
      rw [eval.eq_def]
      -- a method of `Parcel`, of the interface, of another object, or none
      split
      all_goals rename_i heq
      all_goals cases heq
      · refine .bind hargs fun vs => ?_
        split
        · exact parcelCall_keeps _ _ _ _ _
        · exact .stuck
      · exact .bind hargs fun vs => userCall_keeps _ _ _ _
      · exact callOn_keeps _ _ _ _
      · exact .stuck
  | .staticCall t name arguments => by
      have hargs := evalAll_keeps env arguments
      rw [eval.eq_def]
      split
      all_goals rename_i heq
      all_goals cases heq
      · -- the argument of `asInterface` is below the list of arguments
        refine .bind (Keeps.of_singleton hargs) fun x => ?_
        unfold asInterface
        split
        · exact .pure _
        · exact .pure _
        · exact .stuck
      · exact callStatic_keeps _ _ _ _
  | .comparison l op r => by
      rw [eval]
      refine .bind (eval_keeps env l) fun x => .bind (eval_keeps env r) fun y => ?_
      rw [evalCompare]
      split
      · exact .pure _
      · exact .stuck
  | .newExpression t arguments => by
      rw [eval]
      unfold newObject
      repeat' first | exact .pure _ | exact .stuck | split
  | .newArray t size => by
      rw [eval]
      refine .bind (eval_keeps env size) fun x => ?_
      unfold newArrayOf
      repeat' first | exact .pure _ | exact .stuck | exact .throwRuntime | split
  | .ternary c i e => by
      rw [eval]
      refine .bind (eval_keeps env c) fun x => ?_
      split
      · split
        · exact eval_keeps env i
        · exact eval_keeps env e
      · exact .stuck
  | .cast t e => by
      rw [eval]
      exact .bind (eval_keeps env e) fun x => .pure _
  | .assignment v e cast => by
      rw [eval]
      exact .bind (eval_keeps env e) fun x => .bind (.set _ _) fun _ => .pure _

theorem evalAll_keeps (env : Env W O σ) : ∀ es, Keeps s (evalAll env es)
  | [] => by
      rw [evalAll]
      exact .pure _
  | e :: es => by
      rw [evalAll]
      exact .bind (eval_keeps env e) fun x => .bind (evalAll_keeps env es) fun xs => .pure _

end


theorem catching_keeps {type : Ty} {x : String} {body handler : Exec W O σ α}
    (hbody : Keeps s body) (hhandler : Keeps s handler) :
    Keeps s (catching type x body handler) := by
  intro f h
  have hf := hbody f h
  unfold catching
  split
  · next e f' heq =>
      rw [heq] at hf
      split
      · exact hhandler _ hf
      · exact hf
  · exact hf

theorem finally_keeps {body : Exec W O σ α} {handler : Exec W O σ Unit}
    (hbody : Keeps s body) (hhandler : Keeps s handler) : Keeps s (finally_ body handler) := by
  intro f h
  have hf := hhandler _ (hbody f h)
  unfold finally_
  dsimp only
  split
  · next heq =>
      rw [heq] at hf
      exact hf
  · next heq =>
      rw [heq] at hf
      exact hf

mutual

theorem exec_keeps (env : Env W O σ) : ∀ st, Keeps s (exec env st)
  | .expression e => by
      rw [exec]
      exact .bind (eval_keeps env e) fun _ => .pure _
  | .variableDeclaration v rvalue cast => by
      rw [exec.eq_def]
      split
      all_goals rename_i heq
      all_goals cases heq
      · exact .pure _
      · exact .bind (.setParcel _ _) fun _ => .pure _
      · exact .bind (eval_keeps env _) fun _ => .bind (.set _ _) fun _ => .pure _
  | .ifStatement c statements elseif => by
      rw [exec]
      refine .bind (eval_keeps env c) fun x => ?_
      split
      · split
        · exact execAll_keeps env statements
        · exact execAll_keeps env elseif
      · exact .stuck
  | .returnStatement e => by
      rw [exec]
      exact .bind (eval_keeps env e) fun _ => .pure _
  | .tryCatch statements x handler => by
      rw [exec]
      exact catching_keeps (execAll_keeps env statements) (execAll_keeps env handler)
  | .tryFinally statements handler => by
      rw [exec]
      exact finally_keeps (execAll_keeps env statements)
        (.bind (execAll_keeps env handler) fun _ => .pure _)

/-- No code makes a parcel `null`. -/
theorem execAll_keeps (env : Env W O σ) : ∀ sts, Keeps s (execAll env sts)
  | [] => by
      rw [execAll]
      exact .pure _
  | st :: sts => by
      rw [execAll]
      refine .bind (exec_keeps env st) fun r => ?_
      split
      · exact .pure _
      · exact execAll_keeps env sts

end

end Aidl
