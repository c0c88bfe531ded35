import TestActivity.Aidl.Driver
import TestActivity.Aidl.Loader

/-!
# The proxy

A call of the proxy's method against the stub, through a driver. A two-way call is
the call of the implementation itself, on copies of what goes in, with the contents
copied back of what goes out; a one-way call leaves a transaction that becomes one.
-/

namespace Aidl

open Exec

variable {W O σ : Type}

/-! ## A call -/

/-- The names of the parameters. -/
def Method.names (m : Method) : List String := m.args.map (·.name)

/-- The names that the method of the proxy uses itself. -/
def proxyNames : List String := ["_data", "_reply", "_result", "cl", "mRemote", "DESCRIPTOR"]

/-- The parameters are told apart, among themselves and from those names. -/
structure Method.WellNamed (m : Method) : Prop where
  nodup : m.names.Nodup
  own : ∀ s ∈ m.names, s ∉ proxyNames

/-- The frame of a method of the proxy for the binder `remote`. -/
def proxyFrame (remote : ℕ) (m : Method) (xs : List (Value O)) (w : σ) : Frame W O σ :=
  Frame.setAll
    { vars := Function.update (fun _ => none) "mRemote" (some (.binder remote))
      parcels := fun _ => none
      world := w }
    (m.names.zip xs)

/-- What came back can be read into the object of the caller. -/
def Arg.Restores (arg : Arg) (x out : Value O) : Prop :=
  arg.isOut = true → ∃ w, arg.wire = some w ∧ w.Restorable x out

/-- What is in the object of the caller after the call. -/
def Arg.after (A : Android W O) (arg : Arg) (x out : Value O) : Value O :=
  if arg.isOut then arg.wire.elim x fun w => w.restored A x out else x

/-- The objects of the caller, and what came back for each. -/
inductive RestoresAll : List Arg → List (Value O) → List (Value O) → Prop where
  | nil : RestoresAll [] [] []
  | cons {arg : Arg} {args : List Arg} {x out : Value O} {xs outs : List (Value O)}
      (h : arg.Restores x out) (hs : RestoresAll args xs outs) :
      RestoresAll (arg :: args) (x :: xs) (out :: outs)

def afterAll (A : Android W O) : List Arg → List (Value O) → List (Value O) → List (Value O)
  | arg :: args, x :: xs, out :: outs => arg.after A x out :: afterAll A args xs outs
  | _, _, _ => []

variable {A : Android W O} {env : Env W O σ} {arg : Arg} {args : List Arg} {x : Value O}
  {xs outs : List (Value O)} {f f' : Frame W O σ} {p : Parcel W} {ws rest : List W} {cl : Bool}
  {m : Method} {ms : List Method} {w w' : σ}

/-! ## Sending -/

theorem Arg.direction_of_not_isIn (h : arg.isIn = false) :
    convertDirection arg.direction = OUT_PARAMETER := by
  revert h
  unfold Arg.isIn
  rcases arg.direction with _ | _ | _ | _ <;>
    simp [convertDirection, IN_PARAMETER, OUT_PARAMETER, INOUT_PARAMETER]

theorem Arg.Holds.array (hx : arg.Holds x) (hdim : arg.dimension ≠ 0) :
    x = .null ∨ ∃ ys, x = .array ys := by
  rcases hx with ⟨w, hw, hx⟩
  rw [Arg.wire, Ty.wire, if_neg hdim] at hw
  split at hw
  · rw [Option.map_eq_some_iff] at hw
    rcases hw with ⟨fmt, hfmt, rfl⟩
    rcases Ty.array_of_holds hfmt hx with hnull | ⟨ys, hys, -⟩
    · exact .inl hnull
    · exact .inr ⟨ys, hys⟩
  · cases hw

/-- One round of the loop over the parameters. -/
theorem proxyArg_run (hx : arg.Holds x) (hv : f.vars arg.name = some x)
    (hsent : arg.sent env.toAndroid x = some ws) (hp : f.parcels "_data" = some p) :
    execAll env (proxyArg arg) f = (.ok none, f.setParcel "_data" (p.write ws)) := by
  unfold Arg.sent at hsent
  unfold proxyArg
  cases hin : arg.isIn with
  | true =>
      rcases hx with ⟨w, hw, hx⟩
      have hdir : ¬ (convertDirection arg.direction = OUT_PARAMETER ∧ arg.dimension ≠ 0) := by
        intro h
        rw [Arg.isIn, h.1] at hin
        cases hin
      rw [hin, if_pos rfl, hw, Option.bind_some] at hsent
      rw [if_neg hdir, if_pos rfl]
      exact generateWriteToParcel_run (v := arg.variable) proxyData hw hx hv hp false hsent
  | false =>
      have hdir := Arg.direction_of_not_isIn hin
      rw [hin, if_neg Bool.false_ne_true] at hsent
      by_cases hdim : arg.dimension = 0
      · -- nothing is sent for a new object
        rw [if_pos hdim] at hsent
        cases hsent
        rw [if_neg fun h => h.2 hdim, if_neg Bool.false_ne_true, Parcel.write_nil,
          Frame.setParcel_self hp]
        rfl
      · -- the length stands for an array
        rw [if_neg hdim] at hsent
        rw [if_pos ⟨hdir, hdim⟩]
        refine execAll_singleton ?_
        rw [exec]
        rcases hx.array hdim with rfl | ⟨ys, rfl⟩
        · refine (bind_ok (eval_comparison (eval_variable hv) rfl rfl)).trans ?_
          exact execAll_singleton (eval_writeInt hp hsent)
        · refine (bind_ok (eval_comparison (eval_variable hv) rfl rfl)).trans ?_
          have hlength : eval env (.lengthOf arg.variable) f =
              (.ok (.int (BitVec.ofNat 32 ys.length)), f) := by
            rw [eval, evalLength]
            exact bind_ok (get_run hv)
          exact execAll_singleton (exec_expression_run
            (eval_write rfl (evalAll_cons hlength evalAll_nil) hp hsent))

/-- The loop over the parameters writes the words of the arguments. -/
theorem proxyArgs_run (env : Env W O σ) (hx : Arg.HoldAll args xs)
    (hnamed : f.Named (args.map (·.name)) xs)
    (hsent : Words (Arg.sent env.toAndroid) args xs ws) (hp : f.parcels "_data" = some p) :
    execAll env (proxyArgs args) f = (.ok none, f.setParcel "_data" (p.write ws)) := by
  induction hsent generalizing f p with
  | nil =>
      rw [Parcel.write_nil, Frame.setParcel_self hp]
      rfl
  | @cons arg args x xs ws ws' hsent _ ih =>
      rcases List.forall₂_cons.1 hx with ⟨hx, hxs⟩
      rcases List.forall₂_cons.1 hnamed with ⟨hv, hvs⟩
      have hnext := ih (f := f.setParcel "_data" (p.write ws)) hxs hvs
        (Frame.setParcel_parcels_self ..)
      rw [Frame.setParcel_setParcel, Parcel.write_write] at hnext
      rw [proxyArgs, List.flatMap_cons]
      exact (execAll_append (proxyArg_run hx hv hsent hp)).trans hnext

/-! ## Receiving -/

theorem Ty.wire_needsLoader {t : Ty} {dimension : ℕ} {wire : Wire}
    (h : t.wire dimension = some wire) : wire.needsLoader = t.needsLoader dimension := by
  unfold Ty.wire at h
  unfold Ty.needsLoader
  split at h
  · next hdim =>
      unfold Ty.wireScalar at h
      split at h
      all_goals try split at h
      all_goals try split at h
      all_goals cases h
      all_goals simp only [*]
      all_goals rfl
  · next hdim =>
      have hzero : (dimension == 0) = false := by simpa using hdim
      rw [hzero]
      split at h
      · rw [Option.map_eq_some_iff] at h
        rcases h with ⟨fmt, hfmt, rfl⟩
        unfold Ty.wireArray at hfmt
        split at hfmt
        all_goals cases hfmt
        all_goals rfl
      · cases h

theorem proxyOut_run {out : Value O} (hA : env.toAndroid.Documented) (hx : arg.Holds out)
    (hrestores : arg.Restores x out) (hname : arg.name ≠ "cl") (hv : f.vars arg.name = some x)
    (hreturned : arg.returned env.toAndroid out = some ws) (hp : f.parcels "_reply" = some p)
    (hafter : p.after = ws ++ rest) (hloader : HasLoader cl f) :
    ∃ f', execAll env (proxyOut cl arg).1 f = (.ok none, f') ∧
      f.Receives f' "_reply" ⟨p.before ++ ws, rest⟩ arg.name (arg.after env.toAndroid x out)
        arg.needsLoader ∧
        HasLoader (proxyOut cl arg).2 f' := by
  unfold Arg.returned at hreturned
  unfold proxyOut Arg.after
  cases hout : arg.isOut with
  | true =>
      rcases hx with ⟨w, hw, hx⟩
      rcases hrestores hout with ⟨w', hw', hrestorable⟩
      cases hw.symm.trans hw'
      rw [hout, if_pos rfl, hw, Option.bind_some] at hreturned
      rw [if_pos rfl, if_pos rfl, hw, Option.elim_some, Arg.needsLoader, hout, Bool.true_and,
        ← Ty.wire_needsLoader hw]
      exact generateReadFromParcel_run (v := arg.variable) proxyReply hA hw hx hrestorable
        hv hreturned hp hafter hloader hname
  | false =>
      rw [hout, if_neg Bool.false_ne_true] at hreturned
      cases hreturned
      rw [if_neg Bool.false_ne_true, if_neg Bool.false_ne_true]
      refine ⟨f, rfl, ⟨hv, ?_, rfl, fun _ _ _ => rfl⟩, hloader⟩
      rw [List.nil_append] at hafter
      rw [List.append_nil, ← hafter, ← hp, Function.update_eq_self]

/-- The loop over the out and inout parameters leaves in the objects of the caller
what came back. -/
theorem proxyOuts_run (hA : env.toAndroid.Documented) (houts : Arg.HoldAll args outs)
    (hrestores : RestoresAll args xs outs) (hnodup : (args.map (·.name)).Nodup)
    (hcl : "cl" ∉ args.map (·.name)) (hnamed : f.Named (args.map (·.name)) xs)
    (hwords : Words (Arg.returned env.toAndroid) args outs ws) (hp : f.parcels "_reply" = some p)
    (hafter : p.after = ws ++ rest) (hloader : HasLoader cl f) :
    ∃ f', execAll env (proxyOuts cl args).1 f = (.ok none, f') ∧
      f'.Named (args.map (·.name)) (afterAll env.toAndroid args xs outs) ∧
      f'.world = f.world ∧
      ∀ s, s ∉ args.map (·.name) → s ≠ "cl" → f'.vars s = f.vars s := by
  induction hwords generalizing f p xs cl with
  | nil =>
      cases hrestores
      exact ⟨f, rfl, .nil, rfl, fun _ _ _ => rfl⟩
  | @cons arg args out outs ws ws' hreturned _ ih =>
      rcases hrestores with _ | ⟨hrestore, hrestores⟩
      rcases List.forall₂_cons.1 houts with ⟨hx, hxs⟩
      rcases List.forall₂_cons.1 hnamed with ⟨hv, hvs⟩
      rw [List.map_cons, List.nodup_cons] at hnodup
      rw [List.map_cons, List.mem_cons, not_or] at hcl
      rw [List.append_assoc] at hafter
      rcases proxyOut_run hA hx hrestore (Ne.symm hcl.1) hv hreturned hp hafter hloader with
        ⟨f₁, hrun₁, hreceives, hloader₁⟩
      -- the first argument leaves the others alone, and the reply where they begin
      have hvs₁ : f₁.Named (args.map (·.name)) _ := Frame.Named.congr hvs fun s hs =>
        hreceives.others s (fun heq => hnodup.1 (heq ▸ hs)) fun _ heq => hcl.2 (heq ▸ hs)
      have hp₁ : f₁.parcels "_reply" = some ⟨p.before ++ ws, ws' ++ rest⟩ := by
        rw [hreceives.parcels, Function.update_self]
      rcases ih hxs hrestores hnodup.2 hcl.2 hvs₁ hp₁ rfl hloader₁ with
        ⟨f₂, hrun₂, hnamed₂, hworld₂, hothers₂⟩
      refine ⟨f₂, ?_, .cons ?_ hnamed₂, hworld₂.trans hreceives.world, fun s hs hs' => ?_⟩
      · rw [proxyOuts_cons]
        exact (execAll_append hrun₁).trans hrun₂
      · rw [hothers₂ _ hnodup.1 (Ne.symm hcl.1), hreceives.value]
      · rw [List.map_cons, List.mem_cons, not_or] at hs
        rw [hothers₂ s hs.2 hs', hreceives.others s hs.1 fun _ => hs']

/-! ## The method of the proxy -/

theorem exec_writeInterfaceToken (hp : f.parcels "_data" = some p) :
    exec env (.expression (.methodCall (.variable proxyData) .writeInterfaceToken
      [.literal .descriptor])) f =
        (.ok none, f.setParcel "_data" (p.write (env.writeInterfaceToken env.descriptor))) := by
  refine exec_expression_run (x := .null) ?_
  rw [eval_callOn (by simp), callOn]
  exact bind_ok (getParcel_run hp)

/-- The parcel with the data of the call, up to the transaction. -/
theorem proxySends_run (env : Env W O σ) (hx : Arg.HoldAll m.args xs) (hnamed : f.Named m.names xs)
    (hsends : m.Sends env.toAndroid env.descriptor xs ws) (hp : f.parcels "_data" = some {})
    (sts : List Statement) :
    execAll env (.expression (.methodCall (.variable proxyData) .writeInterfaceToken
      [.literal .descriptor]) :: (proxyArgs m.args ++ sts)) f =
        execAll env sts (f.setParcel "_data" (Parcel.write {} ws)) := by
  rcases hsends with ⟨ws', hsent, rfl⟩
  have hargs := proxyArgs_run env
    (f := f.setParcel "_data" (Parcel.write {} (env.writeInterfaceToken env.descriptor))) hx hnamed
    hsent (Frame.setParcel_parcels_self ..)
  rw [Frame.setParcel_setParcel, Parcel.write_write] at hargs
  exact (execAll_cons (exec_writeInterfaceToken hp)).trans (execAll_append hargs)

/-- The frame behind a transaction that was answered. -/
def Frame.answered (f : Frame W O σ) (m : Method) (answer : List W) (w : σ) : Frame W O σ :=
  if m.oneway then { f with world := w }
  else Frame.setParcel { f with world := w } "_reply" { after := answer }

theorem eval_transactCall (env : Env W O σ) {remote : ℕ} {answer : List W}
    (hremote : f.vars "mRemote" = some (.binder remote)) (hp : f.parcels "_data" = some p)
    (htransact : env.transact (BitVec.ofInt 32 (env.code m.name)) p.content m.oneway f.world =
      (.ok answer, w)) :
    eval env (transactCall m) f = (.ok (.bool true), f.answered m answer w) := by
  have hworld : ∀ b, m.oneway = b → onWorld (env.transact (BitVec.ofInt 32 (env.code m.name))
      p.content b) f = (.ok answer, { f with world := w }) := by
    intro b hb
    rw [onWorld, ← hb, htransact]
  unfold transactCall Frame.answered
  rw [eval_callOn (by simp)]
  cases honeway : m.oneway with
  | true =>
      refine (bind_ok (get_run hremote)).trans ((bind_ok (getParcel_run hp)).trans ?_)
      exact bind_ok (hworld true honeway)
  | false =>
      refine (bind_ok (get_run hremote)).trans ((bind_ok (getParcel_run hp)).trans ?_)
      exact bind_ok (hworld false honeway)

theorem proxyFinally_run (env : Env W O σ) (m : Method) (f : Frame W O σ) :
    execAll env (proxyFinally m) f = (.ok none, f) := by
  have hrecycle : ∀ v : Variable,
      exec env (.expression (.methodCall (.variable v) .recycle [])) f = (.ok none, f) := by
    intro v
    refine exec_expression_run (x := .null) ?_
    rw [eval_callOn (by simp)]
    rfl
  unfold proxyFinally
  cases m.oneway with
  | true => exact execAll_singleton (hrecycle _)
  | false => exact (execAll_cons (hrecycle _)).trans (execAll_singleton (hrecycle _))

/-- The frame in front of the `try`. -/
def Frame.obtained (f : Frame W O σ) (m : Method) : Frame W O σ :=
  if m.oneway then f.setParcel "_data" {} else (f.setParcel "_data" {}).setParcel "_reply" {}

/-- The declarations in front of the `try`. -/
theorem proxyDeclarations_run (env : Env W O σ) (m : Method) (f : Frame W O σ)
    (sts : List Statement) :
    execAll env (obtainParcel proxyData ::
      ((if m.oneway then [] else [obtainParcel proxyReply]) ++
        ((if m.isVoid then [] else [.variableDeclaration (proxyResult m) none none]) ++ sts))) f =
      execAll env sts (f.obtained m) := by
  have hobtain : ∀ (v : Variable) (f : Frame W O σ),
      exec env (obtainParcel v) f = (.ok none, f.setParcel v.name {}) := by
    intro v f
    rw [obtainParcel, exec]
    rfl
  have hresult : ∀ f : Frame W O σ, execAll env
      ((if m.isVoid then [] else [.variableDeclaration (proxyResult m) none none]) ++ sts) f =
        execAll env sts f := by
    intro f
    cases m.isVoid with
    | true => rfl
    | false => exact execAll_cons rfl
  unfold Frame.obtained
  refine (execAll_cons (hobtain proxyData f)).trans ?_
  cases m.oneway with
  | true => exact hresult _
  | false => exact (execAll_cons (hobtain proxyReply _)).trans (hresult _)

theorem exec_tryFinally {r : Except Exit (Option (Value O))} {sts handler : List Statement}
    (htry : execAll env sts f = (r, f')) (hfinally : execAll env handler f' = (.ok none, f')) :
    exec env (.tryFinally sts handler) f = (r, f') := by
  rw [exec]
  unfold finally_
  rw [htry]
  dsimp only
  rw [bind_ok hfinally]
  rfl

/-- A call that ends well returns the result. -/
theorem proxyStatements_run (x : Value O)
    (htry : execAll env (proxyTry m) (f.obtained m) = (.ok none, f'))
    (hresult : m.isVoid = false → f'.vars "_result" = some x) :
    execAll env (proxyStatements m) f = (.ok (if m.isVoid then none else some x), f') := by
  have hfinally := exec_tryFinally htry (proxyFinally_run env m f')
  rw [proxyStatements, proxyDeclarations_run, execAll_cons hfinally]
  cases hvoid : m.isVoid with
  | true => rfl
  | false =>
      have hreturn : exec env (.returnStatement (.variable (proxyResult m))) f' =
          (.ok (some x), f') := by
        rw [exec]
        exact bind_ok (eval_variable (hresult hvoid))
      rw [if_neg Bool.false_ne_true, execAll]
      exact bind_ok hreturn

/-- One that does not ends in the exception of the `try`. -/
theorem proxyStatements_throws {exit : Exit}
    (htry : execAll env (proxyTry m) (f.obtained m) = (.error exit, f')) :
    execAll env (proxyStatements m) f = (.error exit, f') := by
  have hfinally := exec_tryFinally htry (proxyFinally_run env m f')
  rw [proxyStatements, proxyDeclarations_run]
  exact execAll_cons_error _ hfinally

/-- The exception of the reply is thrown. -/
theorem exec_readException_some {e : Throwable} (hp : f.parcels "_reply" = some p)
    (hread : env.readException p.after = some (some e, rest)) :
    exec env (.expression (.methodCall (.variable proxyReply) .readException [])) f =
      (.error (.threw e), f) := by
  refine exec_expression_error ?_
  rw [eval_callOn (by simp), callOn]
  refine (bind_ok (getParcel_run hp)).trans ?_
  rw [hread]
  rfl

theorem exec_readException_none (hp : f.parcels "_reply" = some p)
    (hread : env.readException p.after = some (none, rest)) :
    exec env (.expression (.methodCall (.variable proxyReply) .readException [])) f =
      (.ok none, f.setParcel "_reply" (p.readTo rest)) := by
  refine exec_expression_run (x := .null) ?_
  rw [eval_callOn (by simp), callOn]
  refine (bind_ok (getParcel_run hp)).trans ?_
  rw [hread]
  rfl

/-- A reply to a two-way call begins with the word that there was no exception. -/
theorem exec_readHeader {wr wo : List W} (hA : env.toAndroid.Documented)
    (htwoway : m.oneway = false)
    (hp : f.parcels "_reply" = some { after := (m.header env.toAndroid ++ wr) ++ wo }) :
    exec env (.expression (.methodCall (.variable proxyReply) .readException [])) f =
      (.ok none, f.setParcel "_reply"
        (Parcel.readTo { after := (m.header env.toAndroid ++ wr) ++ wo } (wr ++ wo))) := by
  have hread :
      env.readException ((m.header env.toAndroid ++ wr) ++ wo) = some (none, wr ++ wo) := by
    rw [Method.header, htwoway, if_neg Bool.false_ne_true, List.append_assoc, hA.noException]
  exact exec_readException_none hp hread

theorem proxyReceives_run {result : Value O} (hA : env.toAndroid.Documented)
    (hresult : m.Results result) (hwords : m.resultWords env.toAndroid result = some ws)
    (hp : f.parcels "_reply" = some p) (hafter : p.after = ws ++ rest) (hloader : HasLoader cl f) :
    ∃ f', execAll env (proxyReceives m cl).1 f = (.ok none, f') ∧
      (m.isVoid = false → f'.vars "_result" = some result) ∧
      f'.parcels "_reply" = some ⟨p.before ++ ws, rest⟩ ∧ f'.world = f.world ∧
      (∀ s, s ≠ "_result" → (m.resultLoader = true → s ≠ "cl") → f'.vars s = f.vars s) ∧
      HasLoader (proxyReceives m cl).2 f' := by
  unfold Method.resultWords at hwords
  unfold proxyReceives
  cases hvoid : m.isVoid with
  | true =>
      rw [hvoid, if_pos rfl] at hwords
      cases hwords
      rw [List.nil_append] at hafter
      refine ⟨f, rfl, fun h => absurd h (by simp), ?_, rfl, fun _ _ _ => rfl, hloader⟩
      rw [List.append_nil, ← hafter, hp]
  | false =>
      rcases hresult.resolve_left (by simp [hvoid]) with ⟨w, hw, hx⟩
      rw [hvoid, if_neg Bool.false_ne_true, hw, Option.bind_some] at hwords
      rcases generateCreateFromParcel_run (v := proxyResult m) proxyReply hA hw hx hwords hp
        hafter hloader (by simp [proxyResult]) with ⟨f', hrun, hreceives, hloader'⟩
      have hneeds : m.resultLoader = w.needsLoader := by
        rw [Method.resultLoader, hvoid, Bool.not_false, Bool.true_and, Ty.wire_needsLoader hw]
      rw [hneeds]
      refine ⟨f', hrun, fun _ => hreceives.value, ?_, hreceives.world, hreceives.others, hloader'⟩
      rw [hreceives.parcels]
      exact Function.update_self ..

/-- The proxy reads the result and what came back. -/
theorem proxyReturns_run (env : Env W O σ) {result : Value O} (hA : env.toAndroid.Documented)
    (htwoway : m.oneway = false) (hnames : m.WellNamed) (hnamed : f.Named m.names xs)
    (hresult : m.Results result) (houts : Arg.HoldAll m.args outs)
    (hrestores : RestoresAll m.args xs outs)
    (hreplies : m.Replies env.toAndroid result outs ws)
    (hp : f.parcels "_reply" = some { after := ws }) :
    ∃ f', execAll env (proxyReturns m false) f = (.ok none, f') ∧
      (m.isVoid = false → f'.vars "_result" = some result) ∧
      f'.Named m.names (afterAll env.toAndroid m.args xs outs) ∧ f'.world = f.world := by
  have hown : ∀ s ∈ proxyNames, s ∉ m.names := fun s hs hmem => hnames.own s hmem hs
  rcases hreplies with ⟨wr, wo, hwr, hwo, rfl⟩
  -- behind the header, which says that there was no exception
  let f₁ := f.setParcel "_reply" (Parcel.readTo { after := (m.header env.toAndroid ++ wr) ++ wo }
    (wr ++ wo))
  have hnone : exec env (.expression (.methodCall (.variable proxyReply) .readException [])) f =
      (.ok none, f₁) := exec_readHeader hA htwoway hp
  have hp₁ : f₁.parcels "_reply" = some (Parcel.readTo
      { after := (m.header env.toAndroid ++ wr) ++ wo } (wr ++ wo)) :=
    Frame.setParcel_parcels_self ..
  have hloader : HasLoader false f₁ := fun h => absurd h Bool.false_ne_true
  rcases proxyReceives_run hA hresult hwr hp₁ rfl hloader with
    ⟨f₂, hrun₂, hresult₂, hp₂, hworld₂, hvars₂, hloader₂⟩
  -- the result is read into a variable that is no parameter
  have hnamed₂ : f₂.Named m.names xs := Frame.Named.congr (f := f) hnamed fun s hs => by
    refine hvars₂ s ?_ fun _ => ?_
    · rintro rfl
      exact hown _ (by decide) hs
    · rintro rfl
      exact hown _ (by decide) hs
  rcases proxyOuts_run hA houts hrestores hnames.nodup (hown _ (by decide)) hnamed₂ hwo hp₂
      (List.append_nil wo).symm hloader₂ with ⟨f₃, hrun₃, hnamed₃, hworld₃, hvars₃⟩
  refine ⟨f₃, ?_, fun hvoid => ?_, hnamed₃, hworld₃.trans hworld₂⟩
  · rw [proxyReturns_eq m htwoway]
    exact (execAll_cons hnone).trans ((execAll_append hrun₂).trans hrun₃)
  · rw [hvars₃ "_result" (hown _ (by decide)) (by decide)]
    exact hresult₂ hvoid

/-! ## The words of a call -/

theorem Words.of_holdAll {enc : Arg → Value O → Option (List W)}
    (henc : ∀ arg x, Arg.Holds arg x → ∃ ws, enc arg x = some ws) (hx : Arg.HoldAll args xs) :
    ∃ ws, Words enc args xs ws := by
  induction hx with
  | nil => exact ⟨[], .nil⟩
  | cons hx _ ih =>
      rcases henc _ _ hx with ⟨ws, hws⟩
      rcases ih with ⟨ws', hws'⟩
      exact ⟨ws ++ ws', .cons hws hws'⟩

theorem Arg.sent_of_holds (hA : A.Documented) (hx : arg.Holds x) :
    ∃ ws, arg.sent A x = some ws := by
  rcases hx with ⟨w, hw, hx⟩
  unfold Arg.sent
  split
  · rcases Wire.words_of_holds hA hx 0 with ⟨ws, hws⟩
    exact ⟨ws, by rw [hw, Option.bind_some, hws]⟩
  · split
    · exact ⟨[], rfl⟩
    · split
      · rcases hA.int _ with ⟨ws, hws, -⟩
        exact ⟨ws, hws⟩
      · rcases hA.int _ with ⟨ws, hws, -⟩
        exact ⟨ws, hws⟩

theorem Arg.returned_of_holds (hA : A.Documented) (hx : arg.Holds x) :
    ∃ ws, arg.returned A x = some ws := by
  rcases hx with ⟨w, hw, hx⟩
  unfold Arg.returned
  split
  · rcases Wire.words_of_holds hA hx 1 with ⟨ws, hws⟩
    exact ⟨ws, by rw [hw, Option.bind_some, hws]⟩
  · exact ⟨[], rfl⟩

theorem Method.sends_of_holdAll (hA : A.Documented) (descriptor : String)
    (hx : Arg.HoldAll m.args xs) : ∃ ws, m.Sends A descriptor xs ws := by
  rcases Words.of_holdAll (fun _ _ h => Arg.sent_of_holds hA h) hx with ⟨ws, hws⟩
  exact ⟨_, ws, hws, rfl⟩

theorem Method.replies_of_results {result : Value O} (hA : A.Documented)
    (hresult : m.Results result) (houts : Arg.HoldAll m.args outs) :
    ∃ ws, m.Replies A result outs ws := by
  rcases Words.of_holdAll (fun _ _ h => Arg.returned_of_holds hA h) houts with ⟨wo, hwo⟩
  have hwr : ∃ wr, m.resultWords A result = some wr := by
    unfold Method.resultWords
    split
    · exact ⟨[], rfl⟩
    · next hvoid =>
        rcases hresult.resolve_left hvoid with ⟨w, hw, hx⟩
        rcases Wire.words_of_holds hA hx 1 with ⟨wr, hwr⟩
        exact ⟨wr, by rw [hw, Option.bind_some, hwr]⟩
  rcases hwr with ⟨wr, hwr⟩
  exact ⟨_, wr, wo, hwr, hwo, rfl⟩

/-! ## Calls -/

theorem proxyFrame_named (hlength : m.args.length = xs.length) (hnames : m.WellNamed) (remote : ℕ)
    (w : σ) : (proxyFrame remote m xs w : Frame W O σ).Named m.names xs :=
  Frame.setAll_named hnames.nodup (by rw [Method.names, List.length_map, hlength]) _

theorem proxyFrame_mRemote (hnames : m.WellNamed) (remote : ℕ) (xs : List (Value O)) (w : σ) :
    (proxyFrame remote m xs w : Frame W O σ).vars "mRemote" = some (.binder remote) := by
  rw [proxyFrame, Frame.setAll_vars_of_notMem fun h => hnames.own _ h (by decide)]
  show Function.update (fun _ => none) "mRemote" (some (Value.binder remote)) "mRemote" = _
  exact Function.update_self ..

@[simp] theorem proxyFrame_world (remote : ℕ) (m : Method) (xs : List (Value O)) (w : σ) :
    (proxyFrame remote m xs w : Frame W O σ).world = w := Frame.setAll_world ..

theorem Frame.obtained_data (f : Frame W O σ) (m : Method) :
    (f.obtained m).parcels "_data" = some {} := by
  unfold Frame.obtained
  cases m.oneway with
  | true => exact Frame.setParcel_parcels_self ..
  | false =>
      rw [if_neg Bool.false_ne_true, Frame.setParcel_parcels_of_ne (by decide)]
      exact Frame.setParcel_parcels_self ..

theorem Frame.obtained_vars (f : Frame W O σ) (m : Method) : (f.obtained m).vars = f.vars := by
  unfold Frame.obtained
  cases m.oneway <;> rfl

theorem Frame.obtained_world (f : Frame W O σ) (m : Method) : (f.obtained m).world = f.world := by
  unfold Frame.obtained
  cases m.oneway <;> rfl

/-- Up to what the proxy reads of the reply, a call is a transaction with the words
of its arguments. -/
theorem proxyTry_run (env : Env W O σ) {answer : List W} (hnames : m.WellNamed)
    (hx : Arg.HoldAll m.args xs) (hsends : m.Sends env.toAndroid env.descriptor xs ws) (remote : ℕ)
    (htransact : env.transact (BitVec.ofInt 32 (env.code m.name)) ws m.oneway w =
      (.ok answer, w')) :
    ∃ f', execAll env (proxyTry m) ((proxyFrame remote m xs w).obtained m) =
        execAll env (proxyReturns m (stubArgs 0 false m.args).2) f' ∧
      f'.vars = (proxyFrame remote m xs w : Frame W O σ).vars ∧ f'.world = w' ∧
      (m.oneway = false → f'.parcels "_reply" = some { after := answer }) := by
  let f := (proxyFrame remote m xs w : Frame W O σ).obtained m
  let f₁ := f.setParcel "_data" (Parcel.write {} ws)
  have hvars : f.vars = (proxyFrame remote m xs w : Frame W O σ).vars := Frame.obtained_vars ..
  have hnamed : f.Named m.names xs :=
    Frame.Named.congr (proxyFrame_named hx.length_eq hnames remote w) fun s _ => by rw [hvars]
  have hremote : f₁.vars "mRemote" = some (.binder remote) := by
    show f.vars "mRemote" = _
    rw [hvars, proxyFrame_mRemote hnames]
  have hworld : f₁.world = w := by
    show f.world = w
    rw [Frame.obtained_world, proxyFrame_world]
  rw [← Parcel.content_write ws, ← hworld] at htransact
  have hcall := eval_transactCall env hremote (Frame.setParcel_parcels_self f "_data" _) htransact
  -- the reply is filled in only if there is one
  refine ⟨f₁.answered m answer w', ?_, ?_, ?_, fun htwoway => ?_⟩
  · have hdata : f.parcels "_data" = some {} := Frame.obtained_data ..
    rw [proxyTry]
    refine (proxySends_run env hx hnamed hsends hdata _).trans ?_
    exact execAll_cons (exec_expression_run hcall)
  · unfold Frame.answered
    split <;> exact hvars
  · unfold Frame.answered
    split <;> rfl
  · unfold Frame.answered
    rw [htwoway, if_neg Bool.false_ne_true]
    exact Frame.setParcel_parcels_self ..

section

variable {superCall : BitVec 32 → Exec W O σ (Option (Value O))} {driver : Driver W σ}
  {b : Binder W σ}

/-- A call through the proxy is the call of the implementation: it is made once,
with what the arguments become on the way, its result is the result, and its
contents of the out and inout arguments go into the objects of the caller. -/
theorem proxy_call {result : Value O} (hdriver : driver.Delivers env superCall ms)
    (hA : env.toAndroid.Documented) (hdistinct : env.Distinct ms)
    (hm : m ∈ ms) (hready : m.Ready) (hnames : m.WellNamed) (hloader : m.OwnLoader)
    (htwoway : m.oneway = false) (hx : Arg.HoldAll m.args xs)
    (himpl : env.implementation m.name (receivedAll env.toAndroid m.args xs) b.world =
      (.ok result, outs, w'))
    (hresult : m.Results result) (houts : Arg.HoldAll m.args outs)
    (hrestores : RestoresAll m.args xs outs) (remote : ℕ) :
    ∃ f', execAll (env.caller driver) (proxyStatements m) (proxyFrame remote m xs b) =
        (.ok (if m.isVoid then none else some result), f') ∧
      f'.Named m.names (afterAll env.toAndroid m.args xs outs) ∧
      f'.world = { b with world := w' } := by
  rcases Method.sends_of_holdAll hA env.descriptor hx with ⟨ws, hsends⟩
  rcases Method.replies_of_results hA hresult houts with ⟨ws', hreplies⟩
  rcases onTransact_run superCall hA hdistinct hm hready hx hsends himpl hresult houts hreplies {}
    with ⟨f₀, hon, hreply, hworld⟩
  have htransact := hdriver.twoway hon hreply
  rw [Parcel.content_write, hworld, ← htwoway] at htransact
  rcases proxyTry_run (env.caller driver) hnames hx hsends remote htransact with
    ⟨f₁, hrun₁, hvars₁, hworld₁, hreply₁⟩
  have hnamed₁ : f₁.Named m.names xs :=
    Frame.Named.congr (proxyFrame_named hx.length_eq hnames remote b) fun s _ => by rw [hvars₁]
  rcases proxyReturns_run (env.caller driver) hA htwoway hnames hnamed₁ hresult houts
    hrestores hreplies (hreply₁ htwoway) with ⟨f₂, hrun₂, hresult₂, hnamed₂, hworld₂⟩
  rw [hloader.proxyReturns, hrun₂] at hrun₁
  exact ⟨f₂, proxyStatements_run result hrun₁ hresult₂, hnamed₂, hworld₂.trans hworld₁⟩

/-- A runtime exception of the implementation is one in the caller, whose objects
stay as they are. -/
theorem proxy_call_throws {e : Throwable} (hdriver : driver.Delivers env superCall ms)
    (hA : env.toAndroid.Documented)
    (hdistinct : env.Distinct ms) (hm : m ∈ ms) (hready : m.Ready) (hnames : m.WellNamed)
    (htwoway : m.oneway = false) (hx : Arg.HoldAll m.args xs)
    (himpl : env.implementation m.name (receivedAll env.toAndroid m.args xs) b.world =
      (.error e, outs, w')) (he : e.isRuntime) (remote : ℕ) :
    ∃ f', execAll (env.caller driver) (proxyStatements m) (proxyFrame remote m xs b) =
        (.error (.threw (illegalArgument (env.stackTrace e))), f') ∧
      f'.Named m.names xs ∧ f'.world = { b with world := w' } := by
  rcases Method.sends_of_holdAll hA env.descriptor hx with ⟨ws, hsends⟩
  rcases onTransact_throws superCall hA hdistinct hm hready hx hsends himpl he {} with
    ⟨f₀, p, rest, hon, hreply, hworld, hread⟩
  have htransact := hdriver.twoway hon hreply
  rw [hworld, ← htwoway] at htransact
  rcases proxyTry_run (env.caller driver) hnames hx hsends remote htransact with
    ⟨f₁, hrun₁, hvars₁, hworld₁, hreply₁⟩
  have hthrow : exec (env.caller driver) (.expression (.methodCall (.variable proxyReply)
      .readException [])) f₁ = (.error (.threw (illegalArgument (env.stackTrace e))), f₁) :=
    exec_readException_some (hreply₁ htwoway) hread
  rw [proxyReturns_eq m htwoway, execAll_cons_error _ hthrow] at hrun₁
  refine ⟨f₁, proxyStatements_throws hrun₁, ?_, hworld₁⟩
  exact Frame.Named.congr (proxyFrame_named hx.length_eq hnames remote b) fun s _ => by rw [hvars₁]

/-- A one-way call leaves its words with the driver and nothing else. -/
theorem proxy_call_oneway (hdriver : driver.Delivers env superCall ms) (hnames : m.WellNamed)
    (honeway : m.oneway = true) (hvoid : m.isVoid = true) (hx : Arg.HoldAll m.args xs)
    (hsends : m.Sends env.toAndroid env.descriptor xs ws) (remote : ℕ) :
    ∃ f', execAll (env.caller driver) (proxyStatements m) (proxyFrame remote m xs b) =
        (.ok none, f') ∧
      f'.Named m.names xs ∧
      f'.world =
        { b with pending := b.pending ++ [(BitVec.ofInt 32 (env.code m.name), ws)] } := by
  have htransact := hdriver.oneway (BitVec.ofInt 32 (env.code m.name)) ws b
  rw [← honeway] at htransact
  rcases proxyTry_run (env.caller driver) hnames hx hsends remote htransact with
    ⟨f₁, hrun₁, hvars₁, hworld₁, -⟩
  have hnil : proxyReturns m (stubArgs 0 false m.args).2 = [] := by
    rw [proxyReturns, if_pos honeway]
  rw [hnil] at hrun₁
  have hcall := proxyStatements_run .null hrun₁ fun h => absurd hvoid (by simp [h])
  rw [if_pos hvoid] at hcall
  refine ⟨f₁, hcall, ?_, hworld₁⟩
  exact Frame.Named.congr (proxyFrame_named hx.length_eq hnames remote b) fun s _ => by rw [hvars₁]

end

end Aidl
