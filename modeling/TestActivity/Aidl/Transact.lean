import TestActivity.Aidl.Frame

/-!
# Transactions

`onTransact` is a switch over the codes of the methods in a handler for
exceptions. A code selects the case of its method and no other, and an
exception of the implementation becomes a reply that the proxy turns into an
exception again. The handler writes that reply without asking whether there is a
parcel for it: with `null` it throws itself.
-/

namespace Aidl

open Exec

variable {W O σ α : Type}

/-! ## `onTransact` -/

/-- The numbers of `android.os.IBinder`. -/
def FIRST_CALL_TRANSACTION : ℤ := 1
def INTERFACE_TRANSACTION : ℤ := 1598968902

def Case.code (env : Env W O σ) (c : Case) : BitVec 32 :=
  BitVec.ofInt 32 (match c.label with
    | none => INTERFACE_TRANSACTION
    | some method => env.code method)

/-- What a `switch` runs: the cases have no `break`, so behind the statements of
one stand those of the next. -/
def switchStatements (env : Env W O σ) (code : BitVec 32) : List Case → List Statement
  | [] => []
  | c :: cs =>
    if c.code env = code then (c :: cs).flatMap (·.statements) else switchStatements env code cs

/-- The part of `onTransact` in the handler. -/
def handled (env : Env W O σ) (ms : List Method) (code : BitVec 32) :
    Exec W O σ (Option (Value O)) :=
  catching RUNTIME_EXCEPTION_TYPE "e" (execAll env (switchStatements env code (stubCases ms)))
    (execAll env transactCatch)

/-- `onTransact`; `superCall` is that of `android.os.Binder`. -/
def onTransact (env : Env W O σ) (superCall : BitVec 32 → Exec W O σ (Option (Value O)))
    (ms : List Method) (code : BitVec 32) : Exec W O σ (Option (Value O)) := do
  match ← handled env ms code with
  | some v => pure (some v)
  | none => superCall code

/-- The frame of a transaction: the data at its start, and the reply, which is `null`
where nobody waits for one. -/
def transactFrame (data : List W) (reply : Option (Parcel W)) (w : σ) : Frame W O σ where
  vars := fun _ => none
  parcels := Function.update
    (Function.update (fun _ => none) "data" (some { after := data })) "reply" reply
  world := w

theorem transactFrame_data (data : List W) (reply : Option (Parcel W)) (w : σ) :
    (transactFrame data reply w : Frame W O σ).parcels "data" = some { after := data } := rfl

theorem transactFrame_reply (data : List W) (reply : Option (Parcel W)) (w : σ) :
    (transactFrame data reply w : Frame W O σ).parcels "reply" = reply := rfl

variable {env : Env W O σ} {f f' : Frame W O σ} {ms : List Method} {m : Method}
  {superCall : BitVec 32 → Exec W O σ (Option (Value O))} {code : BitVec 32} {p : Parcel W}
  {ws rest : List W} {sts sts' : List Statement}

/-! ## Selecting a case -/

/-- Code that never runs to its end. -/
def Returns (env : Env W O σ) (sts : List Statement) : Prop :=
  ∀ f, (execAll env sts f).1 ≠ .ok none

theorem execAll_append_returns (h : (execAll env sts f).1 ≠ .ok none) (sts' : List Statement) :
    execAll env (sts ++ sts') f = execAll env sts f := by
  induction sts generalizing f with
  | nil => exact absurd rfl h
  | cons st sts ih =>
      rw [execAll] at h
      rw [List.cons_append, execAll, execAll]
      cases hst : exec env st f with
      | mk r f' =>
          cases r with
          | error e => rw [bind_error hst, bind_error hst]
          | ok r =>
              rw [bind_ok hst] at h
              rw [bind_ok hst, bind_ok hst]
              cases r with
              | some v => rfl
              | none => exact ih h

/-- A `return` at the end. -/
theorem returns_append_return (sts : List Statement) (e : Expression) :
    Returns env (sts ++ [.returnStatement e]) := by
  intro f h
  induction sts generalizing f with
  | nil =>
      -- only an exception could go past the `return`
      rw [List.nil_append, execAll, exec] at h
      cases he : eval env e f with
      | mk r f' =>
          cases r with
          | error exit =>
              rw [bind_error (bind_error he)] at h
              cases h
          | ok v =>
              have hst : exec env (.returnStatement e) f = (.ok (some v), f') := by
                rw [exec, bind_ok he]
                rfl
              rw [exec] at hst
              rw [bind_ok hst] at h
              cases h
  | cons st sts ih =>
      rw [List.cons_append, execAll] at h
      cases hst : exec env st f with
      | mk r f' =>
          cases r with
          | error exit =>
              rw [bind_error hst] at h
              cases h
          | ok r =>
              rw [bind_ok hst] at h
              cases r with
              | some v => cases h
              | none => exact ih f' h

theorem stubStatements_returns (env : Env W O σ) (m : Method) : Returns env (stubStatements m) := by
  have heq : stubStatements m = (.expression (.methodCall (.variable transactData) .enforceInterface
      [.literal .descriptor]) :: ((stubArgs 0 false m.args).1 ++ (stubCall m ++
        stubOuts 0 m.args))) ++ [.returnStatement (.literal .true)] := by
    simp [stubStatements]
  rw [heq]
  exact returns_append_return _ _

/-- The codes of the interface: those of the methods differ, and none is that of
the descriptor. -/
structure Env.Distinct (env : Env W O σ) (ms : List Method) : Prop where
  methods : (ms.map fun m => BitVec.ofInt 32 (env.code m.name)).Nodup
  descriptor : ∀ m ∈ ms, BitVec.ofInt 32 (env.code m.name) ≠ BitVec.ofInt 32 INTERFACE_TRANSACTION

theorem switchStatements_hit {c : Case} (h : c.code env = code) (cs : List Case) :
    switchStatements env code (c :: cs) = c.statements ++ cs.flatMap (·.statements) := by
  rw [switchStatements, if_pos h, List.flatMap_cons]

theorem switchStatements_miss {c : Case} (h : c.code env ≠ code) (cs : List Case) :
    switchStatements env code (c :: cs) = switchStatements env code cs := by
  rw [switchStatements, if_neg h]

/-- The code of a method selects its case. -/
theorem switchStatements_method (h : env.Distinct ms) (hm : m ∈ ms) (f : Frame W O σ) :
    execAll env (switchStatements env (BitVec.ofInt 32 (env.code m.name)) (stubCases ms)) f =
      execAll env (stubStatements m) f := by
  have hmiss : descriptorCase.code env ≠ BitVec.ofInt 32 (env.code m.name) :=
    (h.descriptor m hm).symm
  have hnodup := h.methods
  rw [stubCases, switchStatements_miss hmiss]
  clear h
  induction ms with
  | nil => cases hm
  | cons k ms ih =>
      rw [List.map_cons, List.nodup_cons] at hnodup
      rw [List.map_cons]
      rcases List.mem_cons.1 hm with rfl | hm
      · have hhit : Case.code env ⟨some m.name, stubStatements m⟩ =
            BitVec.ofInt 32 (env.code m.name) := rfl
        rw [switchStatements_hit hhit]
        exact execAll_append_returns (stubStatements_returns env m f) _
      · have hne : Case.code env ⟨some k.name, stubStatements k⟩ ≠
            BitVec.ofInt 32 (env.code m.name) :=
          fun heq => hnodup.1 (List.mem_map.2 ⟨m, hm, heq.symm⟩)
        rw [switchStatements_miss hne]
        exact ih hm hnodup.2

/-- Another code selects nothing. -/
theorem switchStatements_other (hdescriptor : code ≠ BitVec.ofInt 32 INTERFACE_TRANSACTION)
    (hmethods : ∀ m ∈ ms, BitVec.ofInt 32 (env.code m.name) ≠ code) :
    switchStatements env code (stubCases ms) = [] := by
  have hmiss : descriptorCase.code env ≠ code := hdescriptor.symm
  rw [stubCases, switchStatements_miss hmiss]
  induction ms with
  | nil => rfl
  | cons k ms ih =>
      have hne : Case.code env ⟨some k.name, stubStatements k⟩ ≠ code :=
        hmethods k List.mem_cons_self
      rw [List.map_cons, switchStatements_miss hne]
      exact ih fun m hm => hmethods m (List.mem_cons_of_mem _ hm)

/-! ## Exceptions -/

/-- What the handler writes over the reply for an exception. -/
def Android.Reports (A : Android W O) (e : Throwable) (ws : List W) : Prop :=
  ∃ ws' ws'', A.write .writeInt [.int (BitVec.ofInt 32 EX_ILLEGAL_ARGUMENT)] = some ws' ∧
    A.write .writeString [.string (A.stackTrace e)] = some ws'' ∧ ws = ws' ++ ws''

theorem Android.Documented.reports {A : Android W O} (hA : A.Documented) (e : Throwable) :
    ∃ ws, A.Reports e ws := by
  rcases hA.int (BitVec.ofInt 32 EX_ILLEGAL_ARGUMENT) with ⟨ws', hws', -⟩
  rcases hA.create .string (.inr ⟨A.stackTrace e, rfl⟩) 0 with ⟨ws'', hws'', -⟩
  exact ⟨_, ws', ws'', hws', hws'', rfl⟩

/-- The handler writes the code of the exception and the stack, from the start of
the reply. -/
theorem transactCatch_run {e : Throwable} (he : f.vars "e" = some e.value)
    (hp : f.parcels "reply" = some p) (hws : env.Reports e ws) :
    ∃ f', execAll env transactCatch f = (.ok (some (.bool true)), f') ∧
      f'.parcels "reply" = some ((p.setDataPosition 0).write ws) ∧ f'.world = f.world := by
  rcases hws with ⟨ws', ws'', hws', hws'', rfl⟩
  let text := "" ++ env.stackTrace e
  -- the frames between the statements
  let f₁ := f.set "pos" (.int 0)
  let f₂ := f₁.setParcel "reply" (p.setDataPosition 0)
  let f₃ := f₂.set "errcode" (.int (BitVec.ofInt 32 EX_ILLEGAL_ARGUMENT))
  let f₄ := f₃.setParcel "reply" ((p.setDataPosition 0).write ws')
  let f₅ := f₄.set "sw" (.stringWriter "")
  let f₆ := f₅.set "pw" (.printWriter "sw")
  let f₇ := f₆.set "sw" (.stringWriter text)
  let f₈ := f₇.set "stack" (.string text)
  let f₉ := f₈.setParcel "reply" (((p.setDataPosition 0).write ws').write ws'')
  have htext : text = env.stackTrace e := String.empty_append
  -- the stack is printed twice: to the log, and into the string
  have hprint : exec env (.expression (.methodCall (.variable ⟨RUNTIME_EXCEPTION_TYPE, "e", 0⟩)
      .printStackTrace [])) f = (.ok none, f) := by
    refine exec_expression_run (x := .null) ?_
    rw [eval_callOn (by simp)]
    rfl
  have hposition : exec env (.expression (.methodCall (.variable transactReply) .setDataPosition
      [.variable ⟨INT_TYPE, "pos", 0⟩])) f₁ = (.ok none, f₂) := by
    have hp₁ : f₁.parcels "reply" = some p := hp
    refine exec_expression_run (x := .null) ?_
    rw [eval_callOn (by simp), callOn]
    refine (bind_ok (getParcel_run hp₁)).trans ?_
    have hpos : f₁.vars "pos" = some (.int 0) := Frame.set_vars_self ..
    exact bind_ok (get_run hpos)
  have hcode : exec env (.expression (Ty.callParcel transactReply .writeInt
      [.variable ⟨INT_TYPE, "errcode", 0⟩])) f₃ = (.ok none, f₄) := by
    have hp₃ : f₃.parcels "reply" = some (p.setDataPosition 0) :=
      Frame.setParcel_parcels_self f₁ "reply" _
    have herrcode : f₃.vars "errcode" = some (.int (BitVec.ofInt 32 EX_ILLEGAL_ARGUMENT)) :=
      Frame.set_vars_self ..
    exact exec_expression_run
      (eval_write rfl (evalAll_cons (eval_variable herrcode) evalAll_nil) hp₃ hws')
  have hstack : exec env (.expression (.methodCall (.variable ⟨RUNTIME_EXCEPTION_TYPE, "e", 0⟩)
      .printStackTrace [.variable ⟨PW_TYPE, "pw", 0⟩])) f₆ = (.ok none, f₇) := by
    have he₆ : f₆.vars "e" = some e.value := he
    have hpw : f₆.vars "pw" = some (.printWriter "sw") := Frame.set_vars_self ..
    have hsw : f₆.vars "sw" = some (.stringWriter "") := Frame.set_vars_self f₄ "sw" _
    refine exec_expression_run (x := .null) ?_
    rw [eval_callOn (by simp), callOn, bind_ok (get_run he₆)]
    refine (bind_ok (get_run hpw)).trans ?_
    exact bind_ok (get_run hsw)
  have hread : eval env (.methodCall (.variable ⟨SW_TYPE, "sw", 0⟩) .toString []) f₇ =
      (.ok (.string text), f₇) := by
    have hsw : f₇.vars "sw" = some (.stringWriter text) := Frame.set_vars_self ..
    rw [eval_callOn (by simp), callOn]
    exact bind_ok (get_run hsw)
  have hwrite : exec env (.expression (Ty.callParcel transactReply .writeString
      [.variable ⟨STRING_TYPE, "stack", 0⟩])) f₈ = (.ok none, f₉) := by
    have hp₈ : f₈.parcels "reply" = some ((p.setDataPosition 0).write ws') :=
      Frame.setParcel_parcels_self f₃ "reply" _
    have hstack : f₈.vars "stack" = some (.string text) := Frame.set_vars_self ..
    rw [← htext] at hws''
    exact exec_expression_run
      (eval_write rfl (evalAll_cons (eval_variable hstack) evalAll_nil) hp₈ hws'')
  refine ⟨f₉, ?_, ?_, rfl⟩
  · have hpos : exec env (.variableDeclaration ⟨INT_TYPE, "pos", 0⟩ (some (.literal (.int 0))) none)
        f = (.ok none, f₁) := exec_declaration none (by simp) rfl
    have herrcode : exec env (.variableDeclaration ⟨INT_TYPE, "errcode", 0⟩
        (some (.literal (.int (-3)))) none) f₂ = (.ok none, f₃) :=
      exec_declaration none (by simp) rfl
    have hsw : exec env (.variableDeclaration ⟨SW_TYPE, "sw", 0⟩
        (some (.newExpression SW_TYPE [])) none) f₄ = (.ok none, f₅) :=
      exec_declaration none (by simp) rfl
    have hpw : exec env (.variableDeclaration ⟨PW_TYPE, "pw", 0⟩
        (some (.newExpression PW_TYPE [.variable ⟨SW_TYPE, "sw", 0⟩])) none) f₅ = (.ok none, f₆) :=
      exec_declaration none (by simp) rfl
    have hdecl : exec env (.variableDeclaration ⟨STRING_TYPE, "stack", 0⟩
        (some (.methodCall (.variable ⟨SW_TYPE, "sw", 0⟩) .toString [])) none) f₇ =
          (.ok none, f₈) := exec_declaration none (by simp) hread
    refine (execAll_cons hprint).trans
      ((execAll_cons hpos).trans ((execAll_cons hposition).trans ?_))
    refine (execAll_cons herrcode).trans ((execAll_cons hcode).trans ((execAll_cons hsw).trans ?_))
    refine (execAll_cons hpw).trans ((execAll_cons hstack).trans ((execAll_cons hdecl).trans ?_))
    refine (execAll_cons ?_).trans ((execAll_cons hwrite).trans rfl)
    rfl
  · rw [← Parcel.write_write]
    exact Frame.setParcel_parcels_self ..

/-! ## A transaction -/

theorem transactCatch_returns (env : Env W O σ) : Returns env transactCatch :=
  returns_append_return (transactCatch.take 11) (.literal .true)

/-- The code of a method runs its case in the handler, and nothing else. -/
theorem onTransact_method (superCall : BitVec 32 → Exec W O σ (Option (Value O)))
    (h : env.Distinct ms) (hm : m ∈ ms) (f : Frame W O σ) :
    onTransact env superCall ms (BitVec.ofInt 32 (env.code m.name)) f =
      catching RUNTIME_EXCEPTION_TYPE "e" (execAll env (stubStatements m))
        (execAll env transactCatch) f := by
  have hhandled : handled env ms (BitVec.ofInt 32 (env.code m.name)) f =
      catching RUNTIME_EXCEPTION_TYPE "e" (execAll env (stubStatements m))
        (execAll env transactCatch) f := by
    unfold handled catching
    rw [switchStatements_method h hm]
  -- a case returns or throws, so that the call of the superclass is not reached
  have hreturns : (catching RUNTIME_EXCEPTION_TYPE "e" (execAll env (stubStatements m))
      (execAll env transactCatch) f).1 ≠ .ok none := by
    have hcase := stubStatements_returns env m f
    unfold catching
    split
    · split
      · exact transactCatch_returns env _
      · intro heq
        cases heq
    · exact hcase
  rw [onTransact]
  cases hr : catching RUNTIME_EXCEPTION_TYPE "e" (execAll env (stubStatements m))
      (execAll env transactCatch) f with
  | mk r f' =>
      rw [hr] at hhandled hreturns
      cases r with
      | error exit => exact bind_error hhandled
      | ok v =>
          cases v with
          | none => exact absurd rfl hreturns
          | some v => exact bind_ok hhandled

/-- The code of the descriptor is answered with it. -/
theorem onTransact_descriptor (superCall : BitVec 32 → Exec W O σ (Option (Value O)))
    (ms : List Method) (hp : f.parcels "reply" = some p)
    (hws : env.write .writeString [.string env.descriptor] = some ws) :
    onTransact env superCall ms (BitVec.ofInt 32 INTERFACE_TRANSACTION) f =
      (.ok (some (.bool true)), f.setParcel "reply" (p.write ws)) := by
  have hwrite : exec env (.expression (Ty.callParcel transactReply .writeString
      [.literal .descriptor])) f = (.ok none, f.setParcel "reply" (p.write ws)) :=
    exec_expression_run (eval_write rfl (evalAll_cons rfl evalAll_nil) hp hws)
  have hcase : execAll env descriptorCase.statements f =
      (.ok (some (.bool true)), f.setParcel "reply" (p.write ws)) :=
    (execAll_cons hwrite).trans rfl
  have hhit : descriptorCase.code env = BitVec.ofInt 32 INTERFACE_TRANSACTION := rfl
  have hhandled : handled env ms (BitVec.ofInt 32 INTERFACE_TRANSACTION) f =
      (.ok (some (.bool true)), f.setParcel "reply" (p.write ws)) := by
    unfold handled catching
    have hreturns : (execAll env descriptorCase.statements f).1 ≠ .ok none := by
      rw [hcase]
      exact fun h => by cases h
    rw [stubCases, switchStatements_hit hhit, execAll_append_returns hreturns, hcase]
  rw [onTransact]
  exact bind_ok hhandled

/-- Another code is left to `android.os.Binder`. -/
theorem onTransact_other (superCall : BitVec 32 → Exec W O σ (Option (Value O)))
    (hdescriptor : code ≠ BitVec.ofInt 32 INTERFACE_TRANSACTION)
    (hmethods : ∀ m ∈ ms, BitVec.ofInt 32 (env.code m.name) ≠ code) (f : Frame W O σ) :
    onTransact env superCall ms code f = superCall code f := by
  have hhandled : handled env ms code f = (.ok none, f) := by
    unfold handled catching
    rw [switchStatements_other hdescriptor hmethods]
    rfl
  rw [onTransact]
  exact bind_ok hhandled

/-- A runtime exception in a case becomes a reply. -/
theorem onTransact_caught {e : Throwable}
    (superCall : BitVec 32 → Exec W O σ (Option (Value O)))
    (h : env.Distinct ms) (hm : m ∈ ms)
    (hrun : execAll env (stubStatements m) f = (.error (.threw e), f')) (he : e.isRuntime)
    (hp : f'.parcels "reply" = some p) (hws : env.Reports e ws) :
    ∃ f'', onTransact env superCall ms (BitVec.ofInt 32 (env.code m.name)) f =
        (.ok (some (.bool true)), f'') ∧
      f''.parcels "reply" = some ((p.setDataPosition 0).write ws) ∧ f''.world = f'.world := by
  have hset : (f'.set "e" e.value).vars "e" = some e.value := Frame.set_vars_self ..
  have hp' : (f'.set "e" e.value).parcels "reply" = some p := hp
  rcases transactCatch_run hset hp' hws with ⟨f'', hcatch, hreply, hworld⟩
  refine ⟨f'', ?_, hreply, hworld⟩
  have hmem : RUNTIME_EXCEPTION_TYPE.qualifiedName ∈ e.classes := he
  rw [onTransact_method superCall h hm, catching, hrun]
  dsimp only
  rw [if_pos hmem, hcatch]

/-- Without a reply the handler throws at its first call of it. -/
theorem transactCatch_null (env : Env W O σ) (hp : f.parcels "reply" = none) :
    ∃ f', execAll env transactCatch f = (.error (.threw (runtimeException "")), f') ∧
      f'.world = f.world := by
  have hprint : exec env (.expression (.methodCall (.variable ⟨RUNTIME_EXCEPTION_TYPE, "e", 0⟩)
      .printStackTrace [])) f = (.ok none, f) := by
    refine exec_expression_run (x := .null) ?_
    rw [eval_callOn (by simp)]
    rfl
  have hpos : exec env (.variableDeclaration ⟨INT_TYPE, "pos", 0⟩ (some (.literal (.int 0))) none)
      f = (.ok none, f.set "pos" (.int 0)) := exec_declaration none (by simp) rfl
  have hposition : exec env (.expression (.methodCall (.variable transactReply) .setDataPosition
      [.variable ⟨INT_TYPE, "pos", 0⟩])) (f.set "pos" (.int 0)) =
        (.error (.threw (runtimeException "")), f.set "pos" (.int 0)) := by
    have hp₁ : (f.set "pos" (.int 0)).parcels "reply" = none := hp
    have hnull : getParcel "reply" (f.set "pos" (.int 0)) =
        (.error (.threw (runtimeException "")), f.set "pos" (.int 0)) := by
      rw [getParcel, hp₁]
    refine exec_expression_error ?_
    rw [eval_callOn (by simp), callOn]
    exact bind_error hnull
  refine ⟨f.set "pos" (.int 0), ?_, rfl⟩
  exact (execAll_cons hprint).trans ((execAll_cons hpos).trans (execAll_cons_error _ hposition))

/-- What was written from the start stands in front of what is left of the old
words. -/
theorem Parcel.content_rewrite (p : Parcel W) (ws : List W) :
    ((p.setDataPosition 0).write ws).content = ws ++ p.content.drop ws.length := by
  simp [Parcel.content, Parcel.write, Parcel.setDataPosition]

/-- A runtime exception of the case is reported, over whatever it had written. -/
theorem onTransact_reports {e : Throwable}
    (superCall : BitVec 32 → Exec W O σ (Option (Value O))) (hA : env.toAndroid.Documented)
    (h : env.Distinct ms) (hm : m ∈ ms) (hreply : (f.parcels "reply").isSome)
    (hrun : execAll env (stubStatements m) f = (.error (.threw e), f')) (he : e.isRuntime) :
    ∃ f'' p rest, onTransact env superCall ms (BitVec.ofInt 32 (env.code m.name)) f =
        (.ok (some (.bool true)), f'') ∧
      f''.parcels "reply" = some p ∧ f''.world = f'.world ∧
      env.readException p.content = some (some (illegalArgument (env.stackTrace e)), rest) := by
  have hkeeps : (f'.parcels "reply").isSome := by
    have hkeeps' := execAll_keeps (s := "reply") env (stubStatements m) f hreply
    rw [hrun] at hkeeps'
    exact hkeeps'
  rcases Option.isSome_iff_exists.1 hkeeps with ⟨p, hp⟩
  rcases hA.reports e with ⟨ws, hws⟩
  rcases onTransact_caught superCall h hm hrun he hp hws with ⟨f'', hon, hreply', hworld⟩
  rcases hws with ⟨ws', ws'', hws', hws'', rfl⟩
  have hread := hA.exception (env.stackTrace e) (p.content.drop (ws' ++ ws'').length) hws' hws''
  rw [← Parcel.content_rewrite] at hread
  exact ⟨f'', _, _, hon, hreply', hworld, hread⟩

/-- A runtime exception does not leave the handler as long as there is a reply. -/
theorem onTransact_escapes {e : Throwable} (hA : env.toAndroid.Documented)
    (h : env.Distinct ms) (hm : m ∈ ms) (hreply : (f.parcels "reply").isSome)
    (hon : (onTransact env superCall ms (BitVec.ofInt 32 (env.code m.name)) f).1 =
      .error (.threw e)) : ¬ e.isRuntime := by
  intro he
  cases hrun : execAll env (stubStatements m) f with
  | mk r f' =>
      have hmethod := onTransact_method superCall h hm f
      rw [catching, hrun] at hmethod
      cases r with
      | ok v =>
          rw [hmethod] at hon
          cases hon
      | error exit =>
          cases exit with
          | stuck =>
              rw [hmethod] at hon
              cases hon
          | threw e' =>
              by_cases he' : e'.isRuntime
              · -- the handler has caught it
                rcases onTransact_reports superCall hA h hm hreply hrun he' with
                  ⟨f'', p, rest, hreports, -⟩
                rw [hreports] at hon
                cases hon
              · -- what the handler does not catch is no runtime exception
                have hmem : RUNTIME_EXCEPTION_TYPE.qualifiedName ∉ e'.classes := he'
                dsimp only at hmethod
                rw [if_neg hmem] at hmethod
                rw [hmethod] at hon
                cases hon
                exact he' he

/-- Whatever words arrive, no runtime exception leaves a transaction with a reply. One
that the case threw has become a reply that throws an `IllegalArgumentException` in the
caller, with the stack as its message. -/
theorem onTransact_reported (hA : env.toAndroid.Documented) (h : env.Distinct ms) (hm : m ∈ ms)
    (data : List W) (p : Parcel W) (w : σ) (e : Throwable) (he : e.isRuntime) :
    (onTransact env superCall ms (BitVec.ofInt 32 (env.code m.name))
        (transactFrame data (some p) w)).1 ≠ .error (.threw e) ∧
      ((execAll env (stubStatements m) (transactFrame data (some p) w)).1 = .error (.threw e) →
        ∃ f' p' rest, onTransact env superCall ms (BitVec.ofInt 32 (env.code m.name))
            (transactFrame data (some p) w) = (.ok (some (.bool true)), f') ∧
          f'.parcels "reply" = some p' ∧
          env.readException p'.content =
            some (some (illegalArgument (env.stackTrace e)), rest)) := by
  refine ⟨fun hon => onTransact_escapes hA h hm rfl hon he, fun hthrow => ?_⟩
  have hrun : execAll env (stubStatements m) (transactFrame data (some p) w) =
      (.error (.threw e), (execAll env (stubStatements m) (transactFrame data (some p) w)).2) := by
    rw [← hthrow]
  rcases onTransact_reports superCall hA h hm rfl hrun he with
    ⟨f', p', rest, hon, hreply, -, hread⟩
  exact ⟨f', p', rest, hon, hreply, hread⟩

/-- A call that is answered. -/
theorem onTransact_run {xs outs : List (Value O)} {w w' : σ} {result : Value O} {ws' : List W}
    (superCall : BitVec 32 → Exec W O σ (Option (Value O)))
    (hA : env.toAndroid.Documented) (h : env.Distinct ms) (hm : m ∈ ms) (hready : m.Ready)
    (hx : Arg.HoldAll m.args xs) (hsends : m.Sends env.toAndroid env.descriptor xs ws)
    (himpl : env.implementation m.name (receivedAll env.toAndroid m.args xs) w =
      (.ok result, outs, w'))
    (hresult : m.Results result) (houts : Arg.HoldAll m.args outs)
    (hreplies : m.Replies env.toAndroid result outs ws') (p : Parcel W) :
    ∃ f', onTransact env superCall ms (BitVec.ofInt 32 (env.code m.name))
        (transactFrame ws (some p) w) = (.ok (some (.bool true)), f') ∧
      f'.parcels "reply" = some (p.write ws') ∧ f'.world = w' := by
  rcases stubStatements_run (f := transactFrame ws (some p) w) hA hready hx hsends
    (transactFrame_data ws _ w) rfl (transactFrame_reply ws _ w) himpl hresult houts hreplies with
    ⟨f', hrun, hreply, hworld⟩
  refine ⟨f', ?_, hreply, hworld⟩
  rw [onTransact_method superCall h hm, catching, hrun]

/-- An exception of the implementation, before anything was written. -/
theorem onTransact_throws {xs outs : List (Value O)} {w w' : σ} {e : Throwable}
    (superCall : BitVec 32 → Exec W O σ (Option (Value O)))
    (hA : env.toAndroid.Documented) (h : env.Distinct ms) (hm : m ∈ ms) (hready : m.Ready)
    (hx : Arg.HoldAll m.args xs) (hsends : m.Sends env.toAndroid env.descriptor xs ws)
    (himpl : env.implementation m.name (receivedAll env.toAndroid m.args xs) w =
      (.error e, outs, w')) (he : e.isRuntime) (p : Parcel W) :
    ∃ f' p' rest, onTransact env superCall ms (BitVec.ofInt 32 (env.code m.name))
        (transactFrame ws (some p) w) = (.ok (some (.bool true)), f') ∧
      f'.parcels "reply" = some p' ∧ f'.world = w' ∧
      env.readException p'.content = some (some (illegalArgument (env.stackTrace e)), rest) := by
  rcases stubStatements_throws (f := transactFrame ws (some p) w) hA hready hx hsends
    (transactFrame_data ws _ w) rfl himpl with ⟨f', hrun, -, hworld⟩
  exact hworld ▸ onTransact_reports superCall hA h hm rfl hrun he

theorem stubOuts_eq_nil {args : List Arg} (h : ∀ arg ∈ args, arg.isOut = false) (i : ℕ) :
    stubOuts i args = [] := by
  induction args generalizing i with
  | nil => rfl
  | cons arg args ih =>
      rw [stubOuts, h arg List.mem_cons_self, if_neg Bool.false_ne_true, List.nil_append]
      exact ih (fun a ha => h a (List.mem_cons_of_mem _ ha)) _

/-- A one-way call has been made when it is over, whatever became of it, and whether
there is a parcel for a reply or not. -/
theorem onTransact_oneway {xs outs : List (Value O)} {w w' : σ} {r : Except Throwable (Value O)}
    (superCall : BitVec 32 → Exec W O σ (Option (Value O))) (hA : env.toAndroid.Documented)
    (h : env.Distinct ms) (hm : m ∈ ms) (hready : m.Ready) (honeway : m.oneway = true)
    (hvoid : m.isVoid = true) (hin : ∀ arg ∈ m.args, arg.isOut = false)
    (hx : Arg.HoldAll m.args xs) (hsends : m.Sends env.toAndroid env.descriptor xs ws)
    (himpl : env.implementation m.name (receivedAll env.toAndroid m.args xs) w = (r, outs, w'))
    (reply : Option (Parcel W)) :
    (onTransact env superCall ms (BitVec.ofInt 32 (env.code m.name))
      (transactFrame ws reply w)).2.world = w' := by
  have hmethod := onTransact_method superCall h hm (transactFrame ws reply w)
  cases r with
  | ok result =>
      -- nothing is written behind the call: no result, no out argument, no header
      rcases stubTakes_run (f := transactFrame ws reply w) hA hready hx hsends
        (transactFrame_data ws _ w) rfl
        (stubCall m ++ (stubOuts 0 m.args ++ [.returnStatement (.literal .true)])) with
        ⟨f₁, hrun₁, hnamed₁, -, hworld₁⟩
      have hcall := realCall_run hnamed₁ ((congrArg _ hworld₁).trans himpl)
      have hrun : execAll env (stubStatements m) (transactFrame ws reply w) =
          (.ok (some (.bool true)), f₁.called m.args outs w') := by
        rw [stubStatements, hrun₁, stubOuts_eq_nil hin, stubCall, if_pos hvoid, noException,
          if_pos honeway]
        exact (execAll_cons (exec_expression_run hcall)).trans rfl
      rw [hmethod, catching, hrun]
      exact Frame.called_world ..
  | error e =>
      rcases stubStatements_throws (f := transactFrame ws reply w) hA hready hx hsends
        (transactFrame_data ws _ w) rfl himpl with ⟨f₁, hrun, hreply, hworld₁⟩
      by_cases he : e.isRuntime
      · have hmem : RUNTIME_EXCEPTION_TYPE.qualifiedName ∈ e.classes := he
        cases reply with
        | some p =>
            -- the handler writes into a reply that nobody reads
            rcases hA.reports e with ⟨ws', hws'⟩
            rcases onTransact_caught superCall h hm hrun he hreply hws' with ⟨f₂, hon, -, hworld₂⟩
            rw [hon]
            exact hworld₂.trans hworld₁
        | none =>
            -- it throws itself, and the driver drops that
            have hreply' : (f₁.set "e" e.value).parcels "reply" = none := hreply
            rcases transactCatch_null env hreply' with ⟨f₂, hcatch, hworld₂⟩
            rw [hmethod, catching, hrun]
            dsimp only
            rw [if_pos hmem, hcatch]
            exact hworld₂.trans hworld₁
      · -- it leaves `onTransact`, and the driver drops it
        have hmem : RUNTIME_EXCEPTION_TYPE.qualifiedName ∉ e.classes := he
        rw [hmethod, catching, hrun]
        dsimp only
        rw [if_neg hmem]
        exact hworld₁

end Aidl
