import TestActivity.Aidl.Names
import Mathlib.Data.List.Nodup
import Mathlib.Data.Int.DivMod

/-!
# What the interface compiler accepts

The checks of `aidl.cpp` between the parser and the generator: the declared
types are gathered, every method is looked at with the types its names stand
for, and the methods get their numbers. What comes out are methods with their
types resolved, no two with one name or one number.
-/

namespace Aidl

/-- `in`, `out` or `inout`, where something is written. -/
inductive Direction where
  | in_ | out | inout
deriving DecidableEq, Repr

def IN_PARAMETER : ℕ := 1
def OUT_PARAMETER : ℕ := 2
def INOUT_PARAMETER : ℕ := 3

def convertDirection : Option Direction → ℕ
  | none => IN_PARAMETER
  | some .in_ => IN_PARAMETER
  | some .out => OUT_PARAMETER
  | some .inout => INOUT_PARAMETER

/-- `type_type`. -/
structure TypeName where
  name : String
  dimension : ℕ := 0
deriving DecidableEq, Repr

/-- `arg_type`. -/
structure ArgType where
  direction : Option Direction
  type : TypeName
  name : String
deriving DecidableEq, Repr

/-- `method_type`; `id` is the number behind the equals sign. -/
structure MethodType where
  type : TypeName
  oneway : Bool := false
  name : String
  args : List ArgType
  id : Option ℕ := none
deriving DecidableEq, Repr

/-- `interface_type`, for `INTERFACE_TYPE_BINDER` or `INTERFACE_TYPE_RPC`. -/
structure InterfaceType where
  rpc : Bool := false
  oneway : Bool := false
  package : Option String
  name : String
  items : List MethodType
deriving DecidableEq, Repr

/-- `user_data_type`, with the two bits of `flattening_methods`. -/
structure UserDataType where
  package : Option String
  name : String
  parcelable : Bool := true
  rpcData : Bool := false
deriving DecidableEq, Repr

/-- `document_item_type`. -/
inductive DocumentItem where
  | userData (p : UserDataType)
  | interface (c : InterfaceType)
deriving DecidableEq, Repr

/-! ## Types -/

/-- The types that are added for an interface besides its own. -/
def InterfaceType.inner (c : InterfaceType) : List Ty :=
  (if c.rpc then [".ServiceBase"] else [".Stub", ".Stub.Proxy"]).map fun suffix =>
    Ty.ofPackage (c.package.getD "") (c.name ++ suffix) .generated false false false .plain

def DocumentItem.type : DocumentItem → Ty
  | .userData p => Ty.userDataType (p.package.getD "") p.name false p.parcelable p.rpcData
  | .interface c => Ty.interfaceType (c.package.getD "") c.name false c.oneway

def DocumentItem.inner : DocumentItem → List Ty
  | .userData _ => []
  | .interface c => c.inner

/-- One round of `gather_types`: the error and the table. -/
def gatherType (ns : Namespace) (item : DocumentItem) : Bool × Namespace :=
  match ns.find item.type.qualifiedName with
  | none => (false, item.inner.foldl Namespace.add (ns.add item.type))
  | some old => (old.kind == .builtIn || item.type.kind != old.kind, ns)

/-- `gather_types`. -/
def gatherTypes (ns : Namespace) : List DocumentItem → Bool × Namespace
  | [] => (false, ns)
  | item :: items =>
    let (err, ns) := gatherType ns item
    let (errs, ns) := gatherTypes ns items
    (err || errs, ns)

/-- The type a name stands for at any time after the types are gathered. -/
def Namespace.type (ns : Namespace) (name : String) : Option Ty := (ns.search name).1

/-! ## Methods -/

def matchesKeyword (str : String) : Bool :=
  ["abstract", "assert", "boolean", "break", "byte", "case", "catch", "char", "class", "const",
    "continue", "default", "do", "double", "else", "enum", "extends", "final", "finally", "float",
    "for", "goto", "if", "implements", "import", "instanceof", "int", "interface", "long",
    "native", "new", "package", "private", "protected", "public", "return", "short", "static",
    "strictfp", "super", "switch", "synchronized", "this", "throw", "throws", "transient", "try",
    "void", "volatile", "while", "true", "false", "null"].contains str

/-- The messages of `check_method`, those about a parameter with its number. -/
inductive MethodError where
  | unknownReturnType
  | eventOnlyForRpc
  | returnNotMarshalled
  | returnNotArray
  | returnOneDimension
  | unknownType (index : ℕ)
  | eventAsParameter (index : ℕ)
  | notMarshalled (index : ℕ)
  | eventParametersIn (index : ℕ)
  | declareDirection (index : ℕ)
  | onlyIn (index : ℕ)
  | notArray (index : ℕ)
  | oneDimension (index : ℕ)
  | keyword (index : ℕ)
deriving DecidableEq, Repr

/-- `CanWriteToParcel` or `CanWriteToRpcData`. -/
def Ty.canMarshall (t : Ty) (rpc : Bool) : Bool :=
  if rpc then t.canWriteToRpcData else t.canWriteToParcel

/-- One round of the loop of `check_method` over the parameters. -/
def checkArg (ns : Namespace) (rpc : Bool) (returnType : Ty) (index : ℕ) (arg : ArgType) :
    List MethodError :=
  match ns.type arg.type.name with
  | none => [.unknownType index]
  | some t =>
    if t = EVENT_FAKE_TYPE then [.eventAsParameter index]
    else
      let marshalled := if t.canMarshall rpc then [] else [.notMarshalled index]
      -- `goto next`
      if returnType = EVENT_FAKE_TYPE ∧ convertDirection arg.direction ≠ IN_PARAMETER then
        marshalled ++ [.eventParametersIn index]
      else
        marshalled ++
        (if arg.direction = none ∧ (arg.type.dimension ≠ 0 ∨ t.canBeOut) then
          [.declareDirection index] else []) ++
        (if convertDirection arg.direction ≠ IN_PARAMETER ∧ !t.canBeOut ∧
            arg.type.dimension = 0 then
          [.onlyIn index] else []) ++
        (if arg.type.dimension > 0 ∧ !t.canBeArray then [.notArray index] else []) ++
        (if arg.type.dimension > 1 then [.oneDimension index] else []) ++
        (if matchesKeyword arg.name then [.keyword index] else [])

def checkArgs (ns : Namespace) (rpc : Bool) (returnType : Ty) (index : ℕ) :
    List ArgType → List MethodError
  | [] => []
  | arg :: args =>
    checkArg ns rpc returnType index arg ++ checkArgs ns rpc returnType (index + 1) args

/-- `check_method`. -/
def checkMethod (ns : Namespace) (rpc : Bool) (m : MethodType) : List MethodError :=
  match ns.type m.type.name with
  | none => [.unknownReturnType]
  | some returnType =>
    (if returnType = EVENT_FAKE_TYPE then (if rpc then [] else [.eventOnlyForRpc])
      else if returnType.canMarshall rpc then [] else [.returnNotMarshalled]) ++
    (if m.type.dimension > 0 ∧ !returnType.canBeArray then [.returnNotArray] else []) ++
    (if m.type.dimension > 1 then [.returnOneDimension] else []) ++
    checkArgs ns rpc returnType 1 m.args

/-- The loop of `check_types` over the methods, with the names so far. -/
def checkMethods (ns : Namespace) (rpc : Bool) (methodNames : List String) :
    List MethodType → Bool
  | [] => false
  | m :: ms =>
    (!(checkMethod ns rpc m).isEmpty || methodNames.contains m.name) ||
      checkMethods ns rpc (methodNames ++ [m.name]) ms

/-- `check_types`. -/
def checkTypes (ns : Namespace) : List DocumentItem → Bool
  | [] => false
  | .userData _ :: items => checkTypes ns items
  | .interface c :: items => checkMethods ns c.rpc [] c.items || checkTypes ns items

/-! ## Numbers -/

def MIN_USER_SET_METHOD_ID : ℤ := 0
def MAX_USER_SET_METHOD_ID : ℤ := 16777214

/-- `atoi` of a number, on a machine with a `long` of 64 bits. -/
def atoiOf (n : ℕ) : ℤ :=
  let long : ℕ := if n ≤ 0x7fffffffffffffff then n else 0x7fffffffffffffff
  (long : ℤ).bmod 0x100000000

/-- The first loop of `check_and_assign_method_ids`: the numbers behind the
equals signs, or that there are none; `none` for an error. -/
def checkIds (usedIds : List ℤ) (hasUnassignedIds hasAssignedIds : Bool) :
    List MethodType → Option (List (Option ℤ))
  | [] => some []
  | m :: ms =>
    match m.id with
    | some n =>
      let assignedId := atoiOf n
      if assignedId ∈ usedIds then none
      else if assignedId < MIN_USER_SET_METHOD_ID ∨ MAX_USER_SET_METHOD_ID < assignedId then none
      else if hasUnassignedIds then none
      else (checkIds (assignedId :: usedIds) hasUnassignedIds true ms).map (some assignedId :: ·)
    | none =>
      if hasAssignedIds then none
      else (checkIds usedIds true hasAssignedIds ms).map (none :: ·)

/-- `check_and_assign_method_ids`: the numbers of the methods. -/
def checkAndAssignMethodIds (ms : List MethodType) : Option (List ℤ) :=
  (checkIds [] false false ms).map fun ids =>
    if ids.any (·.isNone) then (List.range ms.length).map (fun newId => ((newId : ℕ) : ℤ))
    else ids.map (·.getD 0)

/-! ## What the checks promise -/

variable {ns : Namespace} {m : MethodType} {ms : List MethodType} {used : List ℤ} {u a : Bool}
  {ids : List (Option ℤ)}

/-- A number that was given is within the bounds and not given before. -/
structure Unused (used : List ℤ) (n : ℤ) : Prop where
  min : MIN_USER_SET_METHOD_ID ≤ n
  max : n ≤ MAX_USER_SET_METHOD_ID
  new : n ∉ used

/-- The loop ends well on numbers for all methods, or for none. -/
theorem checkIds_spec (h : checkIds used u a ms = some ids) :
    ids.length = ms.length ∧
      ((a = false ∧ ∀ i ∈ ids, i = none) ∨
        (ids = [] ∨ u = false) ∧ ∃ ns : List ℤ, ids = ns.map some ∧ ns.Nodup ∧
          ∀ n ∈ ns, Unused used n) := by
  induction ms generalizing used u a ids with
  | nil =>
      cases h
      exact ⟨rfl, .inr ⟨.inl rfl, [], rfl, List.nodup_nil, by simp⟩⟩
  | cons m ms ih =>
      rw [checkIds] at h
      cases hid : m.id with
      | none =>
          -- after a number the loop would have failed, so there was none before
          rw [hid] at h
          dsimp only at h
          split at h
          · cases h
          · next ha =>
              rw [Option.map_eq_some_iff] at h
              rcases h with ⟨rest, hrest, rfl⟩
              rcases ih hrest with ⟨hlength, ⟨-, hnone⟩ | ⟨hnil | hu, -⟩⟩
              · exact ⟨by simp [hlength], .inl ⟨by simpa using ha, by simpa using hnone⟩⟩
              · exact ⟨by simp [hlength], .inl ⟨by simpa using ha, by simp [hnil]⟩⟩
              · exact absurd hu (by simp)
      | some n =>
          -- used before, out of bounds, or behind a method without a number
          rw [hid] at h
          dsimp only at h
          split at h
          · cases h
          split at h
          · cases h
          split at h
          · cases h
          · next hused hbounds hu =>
              rw [Option.map_eq_some_iff] at h
              rcases h with ⟨rest, hrest, rfl⟩
              rcases ih hrest with ⟨hlength, ⟨hfalse, -⟩ | ⟨-, ns, rfl, hnodup, hns⟩⟩
              · exact absurd hfalse (by simp)
              · refine ⟨by simp [← hlength], .inr ⟨.inr (by simpa using hu), atoiOf n :: ns,
                  by rw [List.map_cons], ?_, ?_⟩⟩
                · exact List.nodup_cons.2 ⟨fun hmem => (hns _ hmem).new List.mem_cons_self, hnodup⟩
                · intro k hk
                  rcases List.mem_cons.1 hk with heq | hk
                  · rw [not_or, Int.not_lt, Int.not_lt] at hbounds
                    rw [heq]
                    exact ⟨hbounds.1, hbounds.2, hused⟩
                  · have hk' := hns k hk
                    exact ⟨hk'.min, hk'.max, fun hmem => hk'.new (List.mem_cons_of_mem _ hmem)⟩

/-- The numbers of the methods differ, and none is negative. They stay within
the bounds if there are not more methods than numbers. -/
theorem checkAndAssignMethodIds_spec {ids : List ℤ} (h : checkAndAssignMethodIds ms = some ids) :
    ids.length = ms.length ∧ ids.Nodup ∧ (∀ n ∈ ids, 0 ≤ n) ∧
      (ms.length ≤ 16777215 → ∀ n ∈ ids, n ≤ MAX_USER_SET_METHOD_ID) := by
  rw [checkAndAssignMethodIds, Option.map_eq_some_iff] at h
  rcases h with ⟨found, hfound, rfl⟩
  rcases checkIds_spec hfound with ⟨hlength, hfound⟩
  split
  · -- counted from 0
    have hlt : ∀ n ∈ (List.range ms.length).map (fun newId => ((newId : ℕ) : ℤ)),
        0 ≤ n ∧ n < ms.length := by
      intro n hn
      rcases List.mem_map.1 hn with ⟨k, hk, rfl⟩
      have hk' := List.mem_range.1 hk
      omega
    refine ⟨by simp, ?_, fun n hn => (hlt n hn).1, fun hms n hn => ?_⟩
    · exact List.Nodup.map (fun _ _ heq => Int.ofNat_inj.1 heq) List.nodup_range
    · have hn' := (hlt n hn).2
      show n ≤ 16777214
      omega
  · next hany =>
      rcases hfound with ⟨-, hnone⟩ | ⟨-, ns, rfl, hnodup, hns⟩
      · -- no method at all
        cases found with
        | nil => exact ⟨hlength, by simp, by simp, by simp⟩
        | cons i is =>
            have hi := hnone i List.mem_cons_self
            exact absurd (by simp [hi]) hany
      · have hmap : (ns.map some).map (·.getD 0) = ns := by simp [Function.comp_def]
        rw [hmap]
        exact ⟨by simpa using hlength, hnodup, fun n hn => (hns n hn).min,
          fun _ n hn => (hns n hn).max⟩

/-- The methods that are let through have names of their own. -/
theorem checkMethods_spec {rpc : Bool} {names : List String}
    (h : checkMethods ns rpc names ms = false) :
    (ms.map (·.name)).Nodup ∧ ∀ m ∈ ms, m.name ∉ names ∧ checkMethod ns rpc m = [] := by
  induction ms generalizing names with
  | nil => exact ⟨List.nodup_nil, by simp⟩
  | cons m ms ih =>
      simp only [checkMethods, Bool.or_eq_false_iff, Bool.not_eq_false', List.isEmpty_iff,
        List.contains_eq_mem, decide_eq_false_iff_not] at h
      rcases h with ⟨⟨hcheck, hname⟩, hrest⟩
      rcases ih hrest with ⟨hnodup, hms⟩
      refine ⟨?_, fun k hk => ?_⟩
      · rw [List.map_cons, List.nodup_cons]
        refine ⟨fun hmem => ?_, hnodup⟩
        rcases List.mem_map.1 hmem with ⟨k, hk, heq⟩
        exact (hms k hk).1 (by simp [heq])
      · rcases List.mem_cons.1 hk with rfl | hk
        · exact ⟨hname, hcheck⟩
        · exact ⟨fun hmem => (hms k hk).1 (List.mem_append_left _ hmem), (hms k hk).2⟩

/-- A parameter that is let through, of a method of a binder interface. -/
structure ArgType.Checked (arg : ArgType) (t : Ty) : Prop where
  canWriteToParcel : t.canWriteToParcel = true
  direction : arg.direction = none → arg.type.dimension = 0 ∧ t.canBeOut = false
  canBeOut : convertDirection arg.direction ≠ IN_PARAMETER →
    t.canBeOut = true ∨ arg.type.dimension ≠ 0
  dimension : arg.type.dimension ≤ 1
  canBeArray : arg.type.dimension = 1 → t.canBeArray = true

theorem checkArg_spec {returnType : Ty} {index : ℕ} {arg : ArgType}
    (h : checkArg ns false returnType index arg = []) :
    ∃ t, ns.type arg.type.name = some t ∧ arg.Checked t := by
  unfold checkArg at h
  cases ht : ns.type arg.type.name with
  | none =>
      rw [ht] at h
      cases h
  | some t =>
      rw [ht] at h
      dsimp only at h
      split at h
      · cases h
      split at h
      · exact absurd (List.append_eq_nil_iff.1 h).2 (List.cons_ne_nil _ _)
      · simp only [List.append_eq_nil_iff, ite_eq_right_iff, ite_eq_left_iff,
          List.cons_ne_nil, imp_false, not_and, not_or] at h
        rcases h with ⟨⟨⟨⟨⟨hmarshall, hdir⟩, hout⟩, harray⟩, hdim⟩, -⟩
        have hone : arg.type.dimension ≤ 1 := Nat.not_lt.1 hdim
        refine ⟨t, rfl, ?_, fun hd => ?_, fun hd => ?_, hone, fun hd => ?_⟩
        · simpa [Ty.canMarshall] using hmarshall
        · exact ⟨not_not.1 (hdir hd).1, by simpa using (hdir hd).2⟩
        · by_cases hcan : t.canBeOut = true
          · exact .inl hcan
          · exact .inr (hout hd (by simpa using hcan))
        · by_contra hcan
          exact harray (by omega) (by simpa using hcan)

theorem checkArgs_spec {returnType : Ty} {index : ℕ} {args : List ArgType}
    (h : checkArgs ns false returnType index args = []) :
    ∀ arg ∈ args, ∃ t, ns.type arg.type.name = some t ∧ arg.Checked t := by
  induction args generalizing index with
  | nil => simp
  | cons arg args ih =>
      rw [checkArgs, List.append_eq_nil_iff] at h
      intro k hk
      rcases List.mem_cons.1 hk with rfl | hk
      · exact checkArg_spec h.1
      · exact ih h.2 k hk

end Aidl
