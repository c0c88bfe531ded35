import TestActivity.Aidl.Marshal
import Std.Data.String.ToNat

/-!
# The stub

A case of `onTransact` takes the arguments from the parcel, calls the implementation
and writes the result and the contents of the arguments that go back:
`stubStatements_run`.
-/

namespace Aidl

open Exec

variable {W O σ : Type}

/-! ## The names of the stub's variables -/

theorem argName_inj {i j : ℕ} : argName i = argName j ↔ i = j := by
  constructor
  · intro h
    have hlist := congrArg String.toList h
    simp only [argName, String.toList_append, List.append_cancel_left_eq,
      String.toList_inj] at hlist
    exact Nat.repr_injective hlist
  · rintro rfl
    rfl

/-- The variables of arguments differ from those whose names start otherwise. -/
theorem argName_ne {i : ℕ} {s : String} (h : s.toList.take 4 ≠ "_arg".toList) : argName i ≠ s := by
  rintro rfl
  exact h (by simp [argName])

theorem argName_ne_length {i j : ℕ} : argName i ≠ argName j ++ "_length" := by
  intro h
  have hlist := congrArg String.toList h
  have hmem : '_' ∈ (toString i).toList := by
    simp only [argName, String.toList_append, List.append_assoc,
      List.append_cancel_left_eq] at hlist
    rw [hlist]
    simp
  rw [Nat.toString_eq_ofList_toDigits, String.toList_ofList] at hmem
  exact Nat.underscore_not_in_toDigits hmem

/-! ## Arguments -/

/-- The values that can be read into an object. -/
def Wire.Fillable : Wire → Prop
  | .direct fmt => fmt.filler.isSome
  | .userData _ => True
  | _ => False

def Arg.wire (arg : Arg) : Option Wire := arg.type.wire arg.dimension

/-- An argument that there is code for. `new java.util.Map()` is none. -/
structure Arg.Ready (arg : Arg) : Prop where
  wire : ∃ w, arg.wire = some w ∧ (arg.isOut → w.Fillable)
  new : arg.isIn = false → arg.dimension = 0 → arg.type.cls ≠ .map

/-- The value has the type of the argument. -/
def Arg.Holds (arg : Arg) (x : Value O) : Prop := ∃ w, arg.wire = some w ∧ w.Holds x

/-- The value of `new T()`. -/
def Ty.newValue (A : Android W O) (t : Ty) : Value O :=
  match t.cls with
  | .userData => .userData t.qualifiedName (A.newUserData t.qualifiedName)
  | _ => .list []

/-- What the implementation is called with for a value of the caller: the value,
or, for an argument that only goes back, a new object or a new array of its
length. -/
def Arg.received (A : Android W O) (arg : Arg) (x : Value O) : Value O :=
  if arg.isIn then x
  else if arg.dimension = 0 then arg.type.newValue A
  else
    match x with
    | .array xs => .array (List.replicate xs.length arg.type.defaultValue)
    | _ => .null

/-- The words of an argument on its way to the stub. -/
def Arg.sent (A : Android W O) (arg : Arg) (x : Value O) : Option (List W) :=
  if arg.isIn then arg.wire.bind fun w => w.words A 0 x
  else if arg.dimension = 0 then some []
  else
    match x with
    | .array xs => A.write .writeInt [.int (BitVec.ofNat 32 xs.length)]
    | _ => A.write .writeInt [.int (BitVec.ofInt 32 (-1))]

/-- The words of an argument on its way back. -/
def Arg.returned (A : Android W O) (arg : Arg) (x : Value O) : Option (List W) :=
  if arg.isOut then arg.wire.bind fun w => w.words A 1 x else some []

/-- The words of several values, one behind the other. -/
inductive Words (enc : Arg → Value O → Option (List W)) :
    List Arg → List (Value O) → List W → Prop where
  | nil : Words enc [] [] []
  | cons {arg : Arg} {args : List Arg} {x : Value O} {xs : List (Value O)} {ws ws' : List W}
      (h : enc arg x = some ws) (hs : Words enc args xs ws') :
      Words enc (arg :: args) (x :: xs) (ws ++ ws')

variable {A : Android W O} {env : Env W O σ} {arg : Arg} {args : List Arg} {x : Value O}
  {xs vs : List (Value O)} {f f' : Frame W O σ} {p : Parcel W} {ws rest : List W} {cl : Bool}
  {i : ℕ}

theorem Arg.isIn_or_isOut (arg : Arg) : arg.isIn = true ∨ arg.isOut = true := by
  unfold Arg.isIn Arg.isOut
  rcases arg.direction with _ | _ | _ | _ <;> simp [convertDirection, IN_PARAMETER, OUT_PARAMETER,
    INOUT_PARAMETER]

/-! ### Several variables -/

/-- The variables hold these values. -/
def Frame.Named (f : Frame W O σ) (names : List String) (vs : List (Value O)) : Prop :=
  List.Forall₂ (fun s v => f.vars s = some v) names vs

theorem Frame.Named.congr {names : List String} (h : f.Named names vs)
    (hvars : ∀ s ∈ names, f'.vars s = f.vars s) : f'.Named names vs := by
  induction h with
  | nil => exact .nil
  | cons hs _ ih =>
      refine .cons ((hvars _ List.mem_cons_self).trans hs) (ih fun s hs => ?_)
      exact hvars s (List.mem_cons_of_mem _ hs)

theorem Frame.setAll_vars_of_notMem {names : List String} {s : String} (h : s ∉ names)
    (f : Frame W O σ) (vs : List (Value O)) : (f.setAll (names.zip vs)).vars s = f.vars s := by
  induction names generalizing f vs with
  | nil => rfl
  | cons name names ih =>
      cases vs with
      | nil => rfl
      | cons v vs =>
          rw [List.mem_cons, not_or] at h
          rw [List.zip_cons_cons, Frame.setAll, ih h.2, Frame.set_vars_of_ne h.1]

@[simp] theorem Frame.setAll_parcels (f : Frame W O σ) (xs : List (String × Value O)) :
    (f.setAll xs).parcels = f.parcels := by
  induction xs generalizing f with
  | nil => rfl
  | cons x xs ih => exact ih _

@[simp] theorem Frame.setAll_world (f : Frame W O σ) (xs : List (String × Value O)) :
    (f.setAll xs).world = f.world := by
  induction xs generalizing f with
  | nil => rfl
  | cons x xs ih => exact ih _

theorem Frame.setAll_named {names : List String} (hnodup : names.Nodup)
    (hlength : names.length = vs.length) (f : Frame W O σ) :
    (f.setAll (names.zip vs)).Named names vs := by
  induction names generalizing f vs with
  | nil =>
      cases vs with
      | nil => exact .nil
      | cons v vs => cases hlength
  | cons name names ih =>
      cases vs with
      | nil => cases hlength
      | cons v vs =>
          rcases List.nodup_cons.1 hnodup with ⟨hname, hnodup⟩
          refine .cons ?_ (ih hnodup (Nat.succ.inj hlength) _)
          rw [List.zip_cons_cons, Frame.setAll, Frame.setAll_vars_of_notMem hname,
            Frame.set_vars_self]

/-- The names of the variables of the arguments from `i` on. -/
def stubNames (i : ℕ) : List Arg → List String
  | [] => []
  | _ :: args => argName i :: stubNames (i + 1) args

theorem mem_stubNames {s : String} (h : s ∈ stubNames i args) : ∃ j, i ≤ j ∧ s = argName j := by
  induction args generalizing i with
  | nil => cases h
  | cons arg args ih =>
      rcases List.mem_cons.1 h with rfl | h
      · exact ⟨i, le_rfl, rfl⟩
      · rcases ih h with ⟨j, hj, rfl⟩
        exact ⟨j, by omega, rfl⟩

theorem stubNames_nodup (i : ℕ) (args : List Arg) : (stubNames i args).Nodup := by
  induction args generalizing i with
  | nil => exact List.nodup_nil
  | cons arg args ih =>
      refine List.nodup_cons.2 ⟨fun hmem => ?_, ih _⟩
      rcases mem_stubNames hmem with ⟨j, hj, heq⟩
      have hij := argName_inj.1 heq
      omega

@[simp] theorem stubNames_length (i : ℕ) (args : List Arg) :
    (stubNames i args).length = args.length := by
  induction args generalizing i with
  | nil => rfl
  | cons arg args ih => rw [stubNames, List.length_cons, ih, List.length_cons]

/-! ### One argument -/

/-- The single values that one call reads into an object are maps and lists. -/
theorem Ty.cls_of_fillable {t : Ty} {fmt : Format} (h : t.wireScalar = some (.direct fmt))
    (hfill : fmt.filler.isSome) :
    t.cls = .map ∨ t.cls = .list ∨ ∃ creator, t.cls = .genericList creator := by
  unfold Ty.wireScalar at h
  split at h
  all_goals try split at h
  all_goals try split at h
  all_goals cases h
  all_goals first | exact absurd hfill Bool.false_ne_true | simp [*]

theorem newObject_run (hwire : ∃ w, arg.type.wireScalar = some w ∧ w.Fillable)
    (hmap : arg.type.cls ≠ .map) (A : Android W O) (f : Frame W O σ) :
    newObject A arg.type [] f = (.ok (arg.type.newValue A), f) := by
  rcases hwire with ⟨w, hw, hfill⟩
  have hcls := Ty.cls_of_wire hw
  have hplain : arg.type.cls ≠ .plain := by
    intro h
    simp [Ty.wireScalar, h] at hw
  have hsw : arg.type ≠ SW_TYPE := fun h => hplain (by rw [h]; rfl)
  have hpw : arg.type ≠ PW_TYPE := fun h => hplain (by rw [h]; rfl)
  unfold newObject Ty.newValue
  rw [if_neg hsw, if_neg hpw]
  cases w with
  | direct fmt =>
      have hlist := (Ty.cls_of_fillable hw hfill).resolve_left hmap
      rcases hlist with hlist | ⟨c, hlist⟩ <;>
      · rw [hlist]
        rfl
  | userData q =>
      rw [hcls.1]
      rfl
  | _ => exact absurd hfill (by simp [Wire.Fillable])

/-- What one round of the loop over the arguments leaves: the variable of the
argument holds `v`, and the data is read up to here. -/
structure Frame.Takes (f f' : Frame W O σ) (i : ℕ) (p : Parcel W) (v : Value O) : Prop where
  value : f'.vars (argName i) = some v
  parcels : f'.parcels = Function.update f.parcels "data" (some p)
  world : f'.world = f.world
  others : ∀ j, j ≠ i → f'.vars (argName j) = f.vars (argName j)

theorem Frame.Receives.takes {v : Value O} {loader : Bool}
    (h : f.Receives f' "data" p (argName i) v loader) :
    f.Takes f' i p v where
  value := h.value
  parcels := h.parcels
  world := h.world
  others := fun _ hj => h.others _ (fun heq => hj (argName_inj.1 heq)) fun _ =>
    argName_ne (by decide)

/-- A length that is sent is the one that is read. -/
theorem toInt_ofNat_length {n : ℕ} (h : n < 2 ^ 31) :
    (BitVec.ofNat 32 n).toInt = n ∧ (BitVec.ofNat 32 n).toNat = n := by
  have hnat : (BitVec.ofNat 32 n).toNat = n := by
    rw [BitVec.toNat_ofNat, Nat.mod_eq_of_lt (by omega)]
  refine ⟨?_, hnat⟩
  rw [BitVec.toInt_eq_toNat_of_lt (by omega), hnat]

theorem exec_declaration {e : Expression} {v : Variable} (c : Option Ty)
    (hobtain : ∀ t es, e ≠ .staticCall t .obtain es) (h : eval env e f = (.ok x, f')) :
    exec env (.variableDeclaration v (some e) c) f = (.ok none, f'.set v.name x) := by
  rw [exec, bind_ok h]
  · rfl
  · exact hobtain

theorem eval_comparison {l r : Expression} {op : Op} {y : Value O} {f'' : Frame W O σ} {b : Bool}
    (hl : eval env l f = (.ok x, f')) (hr : eval env r f' = (.ok y, f''))
    (hb : compareValues op x y = some b) :
    eval env (.comparison l op r) f = (.ok (.bool b), f'') := by
  rw [eval, bind_ok hl, bind_ok hr, evalCompare, hb]
  rfl

/-- `generate_new_array`: a negative length makes `null`. -/
theorem generateNewArray_run {n : BitVec 32} {t : Ty} {v : Value O}
    (hA : env.toAndroid.Documented) (hws : env.write .writeInt [.int n] = some ws)
    (hp : f.parcels "data" = some p) (hafter : p.after = ws ++ rest) (hcl : HasLoader cl f)
    (hv : v = if n.toInt < 0 then .null else .array (List.replicate n.toNat t.defaultValue)) :
    ∃ f', execAll env (generateNewArray t (stubVariable i arg) transactData) f = (.ok none, f') ∧
      f.Takes f' i ⟨p.before ++ ws, rest⟩ v ∧ HasLoader cl f' := by
  have hname : argName i ≠ "cl" := argName_ne (by decide)
  have hlength : argName i ++ "_length" ≠ "cl" := by
    intro heq
    have hlist := congrArg String.toList heq
    simp [argName] at hlist
  let f₁ := f.setParcel "data" ⟨p.before ++ ws, rest⟩
  let f₂ := f₁.set (argName i ++ "_length") (.int n)
  have hlen : f₂.vars (argName i ++ "_length") = some (.int n) := Frame.set_vars_self ..
  have hdecl : exec env (.variableDeclaration ⟨INT_TYPE, argName i ++ "_length", 0⟩
      (some (Ty.callParcel transactData .readInt [])) none) f = (.ok none, f₂) :=
    exec_declaration none (by simp [Ty.callParcel])
      (eval_readInt hA hws (show f.parcels transactData.name = some p from hp) hafter)
  have hcompare : eval env (.comparison (.variable ⟨INT_TYPE, argName i ++ "_length", 0⟩) .lt
      (.literal (.int 0))) f₂ = (.ok (.bool (n.toInt < 0)), f₂) :=
    eval_comparison (eval_variable hlen) rfl rfl
  -- the helper variable for the length is no variable of an argument, and not `cl`
  refine ⟨f₂.set (argName i) v, ?_, ⟨Frame.set_vars_self .., rfl, rfl, fun j hj => ?_⟩, ?_⟩
  · refine (execAll_cons hdecl).trans (execAll_singleton ?_)
    rw [exec]
    refine (bind_ok hcompare).trans ?_
    by_cases hneg : n.toInt < 0
    · rw [if_pos hneg] at hv
      rw [hv]
      dsimp only
      rw [if_pos (by simpa using hneg)]
      exact execAll_singleton (exec_assignment rfl)
    · rw [if_neg hneg] at hv
      rw [hv]
      dsimp only
      rw [if_neg (by simpa using hneg)]
      refine execAll_singleton (exec_assignment ?_)
      rw [eval, bind_ok (eval_variable hlen), newArrayOf, if_neg hneg]
      rfl
  · rw [Frame.set_vars_of_ne fun heq => hj (argName_inj.1 heq),
      Frame.set_vars_of_ne argName_ne_length]
    rfl
  · intro h
    rw [Frame.set_vars_of_ne hname.symm, Frame.set_vars_of_ne hlength.symm]
    exact hcl h

theorem Ty.array_of_holds {t : Ty} {fmt : Format} (h : t.wireArray = some fmt)
    (hx : (Wire.direct fmt).Holds x) : x = .null ∨ ∃ xs, x = .array xs ∧ xs.length < 2 ^ 31 := by
  unfold Ty.wireArray at h
  split at h
  all_goals cases h
  all_goals exact hx.imp_right fun ⟨xs, hxs, hlength, _⟩ => ⟨xs, hxs, hlength⟩

/-- One round of the loop over the arguments: the variable of the argument holds
what the implementation is to receive. -/
theorem stubArg_run (hA : env.toAndroid.Documented) (hready : arg.Ready) (hx : arg.Holds x)
    (hsent : arg.sent env.toAndroid x = some ws) (hp : f.parcels "data" = some p)
    (hafter : p.after = ws ++ rest) (hcl : HasLoader cl f) :
    ∃ f', execAll env (stubArg i arg cl).1 f = (.ok none, f') ∧
      f.Takes f' i ⟨p.before ++ ws, rest⟩ (arg.received env.toAndroid x) ∧
        HasLoader (stubArg i arg cl).2 f' := by
  have hname : argName i ≠ "cl" := argName_ne (by decide)
  rcases hx with ⟨w, hw, hx⟩
  have hdecl : exec env (.variableDeclaration (stubVariable i arg) none none) f = (.ok none, f) :=
    rfl
  unfold stubArg
  dsimp only
  rw [execAll_cons hdecl]
  unfold Arg.sent at hsent
  unfold Arg.received
  cases hin : arg.isIn with
  | true =>
      -- what the caller sent
      rw [hin, if_pos rfl, hw, Option.bind_some] at hsent
      rcases generateCreateFromParcel_run (v := stubVariable i arg) transactData hA hw hx hsent
        hp hafter hcl hname with ⟨f', hrun, hreceives, hcl'⟩
      exact ⟨f', hrun, hreceives.takes, hcl'⟩
  | false =>
      rw [hin, if_neg Bool.false_ne_true] at hsent
      have hout : arg.isOut = true := arg.isIn_or_isOut.resolve_left (by simp [hin])
      rw [if_neg Bool.false_ne_true, if_neg Bool.false_ne_true]
      by_cases hdim : arg.dimension = 0
      · -- a new object
        rw [if_pos hdim] at hsent ⊢
        cases hsent
        rw [if_pos hdim]
        rcases hready.wire with ⟨w', hw', hfill⟩
        rw [Arg.wire, Ty.wire, if_pos hdim] at hw'
        have hnew := newObject_run ⟨w', hw', hfill hout⟩ (hready.new hin hdim) env.toAndroid f
        refine ⟨_, execAll_singleton (exec_assignment ?_),
          ⟨Frame.set_vars_self .., ?_, rfl, fun j hj => ?_⟩, ?_⟩
        · rw [eval]
          exact hnew
        · rw [List.nil_append] at hafter
          rw [List.append_nil, ← hafter, Frame.set_parcels, ← hp, Function.update_eq_self]
        · exact Frame.set_vars_of_ne (fun heq => hj (argName_inj.1 heq)) _
        · exact fun h => (Frame.set_vars_of_ne hname.symm _).trans (hcl h)
      · -- a new array, as long as that of the caller
        rw [if_neg hdim] at hsent ⊢
        have hone : arg.dimension = 1 := by
          by_contra hone
          rw [Arg.wire, Ty.wire, if_neg hdim, if_neg hone] at hw
          cases hw
        rw [if_pos hone, if_neg hdim]
        rw [Arg.wire, Ty.wire, if_neg hdim, if_pos hone, Option.map_eq_some_iff] at hw
        rcases hw with ⟨fmt, hfmt, rfl⟩
        rcases Ty.array_of_holds hfmt hx with rfl | ⟨xs, rfl, hlength⟩
        · exact generateNewArray_run hA hsent hp hafter hcl (by rw [if_pos (by decide)])
        · rcases toInt_ofNat_length hlength with ⟨hint, hnat⟩
          refine generateNewArray_run hA hsent hp hafter hcl ?_
          rw [if_neg (by rw [hint]; omega), hnat]
          rfl

/-! ### The call of the implementation -/

/-- The values have the types of the arguments. -/
def Arg.HoldAll (args : List Arg) (xs : List (Value O)) : Prop := List.Forall₂ Arg.Holds args xs

/-- What the implementation is called with. -/
def receivedAll (A : Android W O) (args : List Arg) (xs : List (Value O)) : List (Value O) :=
  List.zipWith (Arg.received A) args xs

/-- The variables of the arguments hold what the implementation is to receive. -/
theorem stubArgs_run (i : ℕ) (cl : Bool) (hA : env.toAndroid.Documented)
    (hready : ∀ arg ∈ args, arg.Ready) (hx : Arg.HoldAll args xs)
    (hsent : Words (Arg.sent env.toAndroid) args xs ws) (hp : f.parcels "data" = some p)
    (hafter : p.after = ws ++ rest) (hcl : HasLoader cl f) :
    ∃ f', execAll env (stubArgs i cl args).1 f = (.ok none, f') ∧
      f'.Named (stubNames i args) (receivedAll env.toAndroid args xs) ∧
      f'.parcels = Function.update f.parcels "data" (some ⟨p.before ++ ws, rest⟩) ∧
      f'.world = f.world ∧ ∀ j, j < i → f'.vars (argName j) = f.vars (argName j) := by
  induction hsent generalizing f p i cl with
  | nil =>
      refine ⟨f, rfl, .nil, ?_, rfl, fun _ _ => rfl⟩
      rw [List.nil_append] at hafter
      rw [List.append_nil, ← hafter, ← hp, Function.update_eq_self]
  | @cons arg args x xs ws ws' hsent _ ih =>
      rcases List.forall₂_cons.1 hx with ⟨hx, hxs⟩
      rw [List.append_assoc] at hafter
      rcases stubArg_run (i := i) hA (hready arg List.mem_cons_self) hx hsent hp hafter hcl with
        ⟨f₁, hrun₁, htakes, hcl₁⟩
      have hp₁ : f₁.parcels "data" = some ⟨p.before ++ ws, ws' ++ rest⟩ := by
        rw [htakes.parcels, Function.update_self]
      rcases ih (i + 1) _ (fun a ha => hready a (List.mem_cons_of_mem _ ha)) hxs hp₁ rfl hcl₁ with
        ⟨f₂, hrun₂, hnamed, hparcels, hworld, hvars⟩
      refine ⟨f₂, ?_, .cons ?_ hnamed, ?_, hworld.trans htakes.world, fun j hj => ?_⟩
      · rw [stubArgs]
        exact (execAll_append hrun₁).trans hrun₂
      · rw [hvars i (by omega), htakes.value]
      · rw [hparcels, htakes.parcels, Function.update_idem, List.append_assoc]
      · rw [hvars j (by omega), htakes.others j (by omega)]

theorem evalAll_realCallArgs (h : f.Named (stubNames i args) vs) :
    evalAll env (realCallArgs i args) f = (.ok vs, f) := by
  induction args generalizing i vs with
  | nil =>
      cases h
      rfl
  | cons arg args ih =>
      rcases List.forall₂_cons_left_iff.1 h with ⟨v, vs, hv, hvs, rfl⟩
      exact evalAll_cons (eval_variable hv) (ih hvs)

theorem filterMap_realCallArgs (i : ℕ) (args : List Arg) :
    (realCallArgs i args).filterMap Expression.var? = stubNames i args := by
  induction args generalizing i with
  | nil => rfl
  | cons arg args ih =>
      rw [realCallArgs, stubNames, ← ih]
      rfl

/-- The frame after the implementation: the objects that were passed have the
contents it left. -/
def Frame.called (f : Frame W O σ) (args : List Arg) (outs : List (Value O)) (w : σ) :
    Frame W O σ :=
  Frame.setAll { f with world := w } ((stubNames 0 args).zip outs)

theorem realCall_run {m : Method} {outs : List (Value O)} {w : σ}
    {result : Except Throwable (Value O)} (hnamed : f.Named (stubNames 0 m.args) vs)
    (himpl : env.implementation m.name vs f.world = (result, outs, w)) :
    eval env (realCall m) f =
      (result.mapError Exit.threw, f.called m.args outs w) := by
  rw [realCall, eval, bind_ok (evalAll_realCallArgs hnamed), userCall, himpl,
    filterMap_realCallArgs]
  cases result <;> rfl

/-! ### What goes back -/

theorem stubOuts_run (env : Env W O σ) (hx : Arg.HoldAll args xs)
    (hnamed : f.Named (stubNames i args) xs)
    (hwords : Words (Arg.returned env.toAndroid) args xs ws) (hp : f.parcels "reply" = some p) :
    execAll env (stubOuts i args) f = (.ok none, f.setParcel "reply" (p.write ws)) := by
  induction hwords generalizing f p i with
  | nil =>
      rw [Parcel.write_nil, Frame.setParcel_self hp]
      rfl
  | @cons arg args x xs ws ws' hreturned _ ih =>
      rcases List.forall₂_cons.1 hx with ⟨⟨w, hw, hx⟩, hxs⟩
      rcases List.forall₂_cons.1 hnamed with ⟨hv, hvs⟩
      have hone : execAll env (if arg.isOut then
          generateWriteToParcel arg.type (stubVariable i arg) transactReply true else []) f =
            (.ok none, f.setParcel "reply" (p.write ws)) := by
        rw [Arg.returned] at hreturned
        cases hout : arg.isOut with
        | true =>
            rw [hout, if_pos rfl, hw, Option.bind_some] at hreturned
            exact generateWriteToParcel_run (v := stubVariable i arg) transactReply hw hx hv hp true
              hreturned
        | false =>
            rw [hout, if_neg Bool.false_ne_true] at hreturned
            cases hreturned
            rw [Parcel.write_nil, Frame.setParcel_self hp]
            rfl
      have hnext := ih (f := f.setParcel "reply" (p.write ws)) hxs hvs
        (Frame.setParcel_parcels_self ..)
      rw [Frame.setParcel_setParcel, Parcel.write_write] at hnext
      rw [stubOuts]
      exact (execAll_append hone).trans hnext

/-- The words of the result. -/
def Method.resultWords (A : Android W O) (m : Method) (result : Value O) : Option (List W) :=
  if m.isVoid then some []
  else (m.returnType.wire m.dimension).bind fun w => w.words A 1 result

/-- The result has the type of the method. -/
def Method.Results (m : Method) (result : Value O) : Prop :=
  m.isVoid = true ∨ ∃ w, m.returnType.wire m.dimension = some w ∧ w.Holds result

/-- The words in front of the result: there was no exception. -/
def Method.header (A : Android W O) (m : Method) : List W :=
  if m.oneway then [] else A.noException

/-- The words of the reply. -/
def Method.Replies (A : Android W O) (m : Method) (result : Value O) (outs : List (Value O))
    (ws : List W) : Prop :=
  ∃ ws' ws'', m.resultWords A result = some ws' ∧ Words (Arg.returned A) m.args outs ws'' ∧
    ws = m.header A ++ ws' ++ ws''

theorem noException_run (m : Method) (hp : f.parcels "reply" = some p) :
    execAll env (noException m) f =
      (.ok none, f.setParcel "reply" (p.write (m.header env.toAndroid))) := by
  unfold noException Method.header
  cases m.oneway with
  | true =>
      rw [if_pos rfl, if_pos rfl, Parcel.write_nil, Frame.setParcel_self hp]
      rfl
  | false =>
      refine execAll_singleton (exec_expression_run (x := .null) ?_)
      rw [eval_callOn (by simp), callOn]
      exact bind_ok (getParcel_run hp)

theorem Frame.called_named {outs : List (Value O)} (hlength : outs.length = args.length)
    (f : Frame W O σ) (w : σ) : (f.called args outs w).Named (stubNames 0 args) outs :=
  Frame.setAll_named (stubNames_nodup 0 args) (by rw [stubNames_length, hlength]) _

@[simp] theorem Frame.called_parcels (f : Frame W O σ) (args : List Arg) (outs : List (Value O))
    (w : σ) : (f.called args outs w).parcels = f.parcels := Frame.setAll_parcels ..

@[simp] theorem Frame.called_world (f : Frame W O σ) (args : List Arg) (outs : List (Value O))
    (w : σ) : (f.called args outs w).world = w := Frame.setAll_world ..

/-- The implementation is called, and its result written behind the word that
there was no exception. -/
theorem stubCall_run {m : Method} {outs : List (Value O)} {w : σ} {result : Value O}
    (hnamed : f.Named (stubNames 0 m.args) vs)
    (himpl : env.implementation m.name vs f.world = (.ok result, outs, w))
    (hresult : m.Results result) (hwords : m.resultWords env.toAndroid result = some ws)
    (hlength : outs.length = m.args.length) (hp : f.parcels "reply" = some p) :
    ∃ f', execAll env (stubCall m) f = (.ok none, f') ∧ f'.Named (stubNames 0 m.args) outs ∧
      f'.parcels =
        Function.update f.parcels "reply" (some (p.write (m.header env.toAndroid ++ ws))) ∧
      f'.world = w := by
  have hcall := realCall_run hnamed himpl
  have hnamed' := Frame.called_named hlength f w
  have hp' : (f.called m.args outs w).parcels "reply" = some p := by
    rw [Frame.called_parcels, hp]
  rw [Method.resultWords] at hwords
  unfold stubCall
  cases hvoid : m.isVoid with
  | true =>
      -- the header alone
      rw [hvoid, if_pos rfl] at hwords
      cases hwords
      refine ⟨_, (execAll_cons (exec_expression_run hcall)).trans (noException_run m hp'), hnamed',
        ?_, ?_⟩
      · rw [List.append_nil, Frame.setParcel, Frame.called_parcels]
      · rw [Frame.setParcel_world, Frame.called_world]
  | false =>
      rcases hresult.resolve_left (by simp [hvoid]) with ⟨wire, hw, hx⟩
      rw [hvoid, if_neg Bool.false_ne_true, hw, Option.bind_some] at hwords
      let f₁ := (f.called m.args outs w).set "_result" result
      have hp₁ : f₁.parcels "reply" = some p := hp'
      let f₂ := f₁.setParcel "reply" (p.write (m.header env.toAndroid))
      have hdecl : exec env (.variableDeclaration (stubResult m) (some (realCall m)) none) f =
          (.ok none, f₁) := exec_declaration none (by simp [realCall]) hcall
      have hv₂ : f₂.vars "_result" = some result :=
        Frame.set_vars_self (f.called m.args outs w) "_result" result
      have hwrite := generateWriteToParcel_run (v := stubResult m) (f := f₂) transactReply
        hw hx hv₂ (Frame.setParcel_parcels_self ..) true hwords
      refine ⟨_, (execAll_cons hdecl).trans ((execAll_append (noException_run m hp₁)).trans hwrite),
        ?_, ?_, Frame.called_world ..⟩
      · -- `_result` is none of the arguments
        refine hnamed'.congr fun s hs => ?_
        rcases mem_stubNames hs with ⟨j, -, rfl⟩
        have hne : argName j ≠ "_result" := argName_ne (by decide)
        exact Frame.set_vars_of_ne hne result
      · rw [Parcel.write_write]
        show Function.update
          (Function.update (f.called m.args outs w).parcels "reply" _) "reply" _ = _
        rw [Function.update_idem, Frame.called_parcels]

/-! ### One method -/

/-- The method has code for all its arguments and its result. -/
structure Method.Ready (m : Method) : Prop where
  args : ∀ arg ∈ m.args, arg.Ready
  result : m.isVoid = true ∨ ∃ w, m.returnType.wire m.dimension = some w

/-- The words of a call. -/
def Method.Sends (A : Android W O) (descriptor : String) (m : Method) (xs : List (Value O))
    (ws : List W) : Prop :=
  ∃ ws', Words (Arg.sent A) m.args xs ws' ∧ ws = A.writeInterfaceToken descriptor ++ ws'

theorem exec_enforceInterface (hA : env.toAndroid.Documented) {d : Parcel W}
    (hd : f.parcels "data" = some d)
    (hafter : d.after = env.writeInterfaceToken env.descriptor ++ ws) :
    exec env (.expression (.methodCall (.variable transactData) .enforceInterface
      [.literal .descriptor])) f =
        (.ok none,
          f.setParcel "data" ⟨d.before ++ env.writeInterfaceToken env.descriptor, ws⟩) := by
  refine exec_expression_run (x := .null) ?_
  rw [eval_callOn (by simp), callOn]
  refine (bind_ok (getParcel_run hd)).trans ?_
  rw [hafter, hA.token]
  show (Except.ok _, f.setParcel "data" (d.readTo ws)) = _
  rw [Parcel.readTo_after hafter]

/-- The arguments are taken up to the call of the implementation. -/
theorem stubTakes_run {m : Method} {d : Parcel W} (hA : env.toAndroid.Documented)
    (hready : m.Ready) (hx : Arg.HoldAll m.args xs)
    (hsends : m.Sends env.toAndroid env.descriptor xs ws)
    (hd : f.parcels "data" = some d) (hafter : d.after = ws) (sts : List Statement) :
    ∃ f', execAll env (.expression (.methodCall (.variable transactData) .enforceInterface
        [.literal .descriptor]) :: ((stubArgs 0 false m.args).1 ++ sts)) f = execAll env sts f' ∧
      f'.Named (stubNames 0 m.args) (receivedAll env.toAndroid m.args xs) ∧
      f'.parcels = Function.update f.parcels "data" (some ⟨d.before ++ ws, []⟩) ∧
      f'.world = f.world := by
  rcases hsends with ⟨ws', hsent, rfl⟩
  rw [execAll_cons (exec_enforceInterface hA hd hafter)]
  have hcl : HasLoader false (f.setParcel "data"
      ⟨d.before ++ env.writeInterfaceToken env.descriptor, ws'⟩) :=
    fun h => absurd h Bool.false_ne_true
  rcases stubArgs_run 0 false hA hready.args hx hsent
      (Frame.setParcel_parcels_self f "data" ⟨_, ws'⟩) (List.append_nil ws').symm hcl with
    ⟨f', hrun, hnamed, hparcels, hworld, -⟩
  refine ⟨f', execAll_append hrun, hnamed, ?_, hworld⟩
  rw [hparcels, List.append_assoc, Frame.setParcel, Function.update_idem]

/-- A call that is answered: the implementation is called with what the caller
sent, and the reply gets its result and what goes back of the arguments. -/
theorem stubStatements_run {m : Method} {d : Parcel W} {outs : List (Value O)} {w : σ}
    {result : Value O} {ws' : List W} (hA : env.toAndroid.Documented) (hready : m.Ready)
    (hx : Arg.HoldAll m.args xs) (hsends : m.Sends env.toAndroid env.descriptor xs ws)
    (hd : f.parcels "data" = some d) (hafter : d.after = ws) (hp : f.parcels "reply" = some p)
    (himpl : env.implementation m.name (receivedAll env.toAndroid m.args xs) f.world =
      (.ok result, outs, w))
    (hresult : m.Results result) (houts : Arg.HoldAll m.args outs)
    (hreplies : m.Replies env.toAndroid result outs ws') :
    ∃ f', execAll env (stubStatements m) f = (.ok (some (.bool true)), f') ∧
      f'.parcels "reply" = some (p.write ws') ∧ f'.world = w := by
  rcases stubTakes_run hA hready hx hsends hd hafter
    (stubCall m ++ (stubOuts 0 m.args ++ [.returnStatement (.literal .true)])) with
    ⟨f₁, hrun₁, hnamed₁, hparcels₁, hworld₁⟩
  have hp₁ : f₁.parcels "reply" = some p := by
    rw [hparcels₁, Function.update_of_ne (by decide), hp]
  rcases hreplies with ⟨wr, wo, hwr, hwo, rfl⟩
  rcases stubCall_run hnamed₁ (hworld₁ ▸ himpl) hresult hwr houts.length_eq.symm hp₁ with
    ⟨f₂, hrun₂, hnamed₂, hparcels₂, hworld₂⟩
  have hp₂ : f₂.parcels "reply" = some (p.write (m.header env.toAndroid ++ wr)) := by
    rw [hparcels₂, Function.update_self]
  have hrun₃ := stubOuts_run env houts hnamed₂ hwo hp₂
  rw [Parcel.write_write] at hrun₃
  refine ⟨_, ?_, Frame.setParcel_parcels_self .., hworld₂⟩
  rw [stubStatements, hrun₁, execAll_append hrun₂, execAll_append hrun₃]
  rfl

theorem exec_expression_error {e : Expression} {exit : Exit}
    (h : eval env e f = (.error exit, f')) :
    exec env (.expression e) f = (.error exit, f') := by
  rw [exec, bind_error h]

theorem exec_declaration_error {e : Expression} {v : Variable} {exit : Exit} (c : Option Ty)
    (hobtain : ∀ t es, e ≠ .staticCall t .obtain es) (h : eval env e f = (.error exit, f')) :
    exec env (.variableDeclaration v (some e) c) f = (.error exit, f') := by
  rw [exec, bind_error h]
  exact hobtain

theorem execAll_cons_error {st : Statement} {exit : Exit} (sts : List Statement)
    (h : exec env st f = (.error exit, f')) : execAll env (st :: sts) f = (.error exit, f') := by
  rw [execAll, bind_error h]

/-- An exception of the implementation ends the case before anything is written. -/
theorem stubStatements_throws {m : Method} {d : Parcel W} {outs : List (Value O)} {w : σ}
    {e : Throwable} (hA : env.toAndroid.Documented) (hready : m.Ready)
    (hx : Arg.HoldAll m.args xs) (hsends : m.Sends env.toAndroid env.descriptor xs ws)
    (hd : f.parcels "data" = some d) (hafter : d.after = ws)
    (himpl : env.implementation m.name (receivedAll env.toAndroid m.args xs) f.world =
      (.error e, outs, w)) :
    ∃ f', execAll env (stubStatements m) f = (.error (.threw e), f') ∧
      f'.parcels "reply" = f.parcels "reply" ∧ f'.world = w := by
  rcases stubTakes_run hA hready hx hsends hd hafter
    (stubCall m ++ (stubOuts 0 m.args ++ [.returnStatement (.literal .true)])) with
    ⟨f₁, hrun₁, hnamed₁, hparcels₁, hworld₁⟩
  have hcall := realCall_run hnamed₁ (hworld₁ ▸ himpl)
  refine ⟨_, ?_, ?_, Frame.called_world f₁ m.args outs w⟩
  · rw [stubStatements, hrun₁, stubCall]
    cases m.isVoid with
    | true => exact execAll_cons_error _ (exec_expression_error hcall)
    | false => exact execAll_cons_error _ (exec_declaration_error none (by simp [realCall]) hcall)
  · rw [Frame.called_parcels, hparcels₁, Function.update_of_ne (by decide)]

end Aidl
