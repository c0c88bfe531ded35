import TestActivity.Aidl.Compile
import TestActivity.Aidl.Scopes
import TestActivity.Aidl.Tokens

/-!
# Calls of an accepted interface

From the text of an interface to what a call of it does: for everything that
`compile_aidl` lets through, the generated proxy and stub, with a driver between them,
are the call of the implementation.
-/

namespace Aidl

variable {W O σ : Type}

/-! ## An interface -/

/-- An interface with arguments that go in and out, and a one-way method. -/
def logInterface : InterfaceType where
  package := some "demo"
  name := "ILog"
  items :=
    [{ type := ⟨"int", 0⟩, name := "append",
       args := [⟨some .in_, ⟨"int", 1⟩, "values"⟩, ⟨some .inout, ⟨"List<String>", 0⟩, "lines"⟩] },
     { type := ⟨"void", 0⟩, oneway := true, name := "clear",
       args := [⟨none, ⟨"int", 0⟩, "level"⟩] }]

def logTypes : Namespace := (gatherTypes (registerBaseTypes {}) [.interface logInterface]).2

/-- Its file alone. -/
def logSources : Sources where
  cwd := "/home/demo"
  readable _ := false
  text _ := none
  parse _ := some ([.interface logInterface], [])

def logOptions : Options where
  inputFileName := "demo/ILog.aidl"

theorem log_compiled :
    compileAidl logSources logOptions = .generate logTypes logInterface [0, 1] := by
  have hparse : logSources.parse logOptions.inputFileName = some ([.interface logInterface], []) :=
    rfl
  have hfiles : checkFilenames logSources.cwd logOptions.inputFileName [.interface logInterface] =
      false := by decide
  have hgather : gatherTypes (registerBaseTypes {}) [.interface logInterface] =
      (false, logTypes) := Prod.ext (by decide +kernel) (by rw [logTypes])
  have htypes : checkTypes logTypes [.interface logInterface] = false := by decide +kernel
  have hids : checkAndAssignMethodIds logInterface.items = some [0, 1] := by decide
  unfold compileAidl
  rw [logOptions, parsePreprocessedFiles]
  dsimp only
  rw [logOptions] at hparse hfiles
  rw [hparse]
  simp only [readImports, checkDocuments, hfiles, List.any_nil, List.flatMap_nil, List.append_nil,
    hgather, htypes, exactlyOneInterface, hids]
  rfl

def appendMethod : Method where
  typeName := "int"
  returnType := INT_TYPE
  dimension := 0
  oneway := false
  name := "append"
  args := [⟨some .in_, INT_TYPE, 1, "values"⟩,
    ⟨some .inout, Ty.genericListType "java.util" "List" [STRING_TYPE], 0, "lines"⟩]

def clearMethod : Method where
  typeName := "void"
  returnType := VOID_TYPE
  dimension := 0
  oneway := true
  name := "clear"
  args := [⟨none, INT_TYPE, 0, "level"⟩]

def logMethods : List Method := [appendMethod, clearMethod]

theorem log_methods :
    logInterface.methods logTypes = some logMethods := by
  decide +kernel

def logEnv : Env (Token ℕ) ℕ ℕ where
  toAndroid := Android.tokens fun _ => 0
  descriptor := "demo.ILog"
  code := transactionCode logInterface.items [0, 1]
  implementation
    | "append", [.array xs, .list lines], n =>
      (.ok (.int (BitVec.ofNat 32 xs.length)),
        [.array xs, .list (lines ++ [.string "appended"])], n + xs.length)
    | "clear", [.int level], _ => (.ok .null, [.int level], 0)
    | _, vs, n => (.error (runtimeException "no such line"), vs, n)
  transact _ _ _ n := (.error .stuck, n)

theorem appendMethod_usable : appendMethod.Usable where
  names := ⟨by decide, by decide⟩
  result := .inr (by decide)
  args := by decide
  map := by decide
  lists := by
    unfold Ty.Listable
    decide

theorem clearMethod_usable : clearMethod.Usable where
  names := ⟨by decide, by decide⟩
  result := .inl ⟨by decide, rfl⟩
  args := by decide
  map := by decide
  lists := by
    unfold Ty.Listable
    decide

/-- `onTransact` of `android.os.Binder` for a code it does not know. -/
def logSuper (_ : BitVec 32) : Exec (Token ℕ) ℕ ℕ (Option (Value ℕ)) := pure (some (.bool false))

def logDriver : Driver (Token ℕ) ℕ := Driver.queue logEnv logSuper logMethods

theorem logDriver_delivers : logDriver.Delivers logEnv logSuper logMethods :=
  Driver.queue_delivers ..

theorem values_holds (values : List (BitVec 32)) (h : values.length < 2 ^ 31) :
    Arg.Holds ⟨some .in_, INT_TYPE, 1, "values"⟩ (.array (values.map .int) : Value ℕ) :=
  ⟨.direct .intArray, rfl, .inr ⟨_, rfl, by simpa using h, by simp⟩⟩

theorem level_holds (level : BitVec 32) :
    Arg.Holds ⟨none, INT_TYPE, 0, "level"⟩ (.int level : Value ℕ) := ⟨.direct .int, rfl, level, rfl⟩

theorem lines_holds (lines : List String) :
    Arg.Holds ⟨some .inout, Ty.genericListType "java.util" "List" [STRING_TYPE], 0, "lines"⟩
      (.list (lines.map .string) : Value ℕ) :=
  ⟨.direct .stringList, by decide, .inr ⟨_, rfl, by simp [IsString]⟩⟩

/-! ## Calls -/

variable {src : Sources} {o : Options} {ns : Namespace} {c : InterfaceType} {ids : List ℤ}
  {m : Method} {ms : List Method} {env : Env W O σ}
  {superCall : BitVec 32 → Exec W O σ (Option (Value O))} {driver : Driver W σ} {b : Binder W σ}
  {xs outs : List (Value O)} {w w' : σ} {result : Value O}

/-- The file that is generated for the interface uses no variable that it does not
declare unless a method with a reply reads a map or a list both in the stub and in the
proxy: then `cl` is missing in the proxy. -/
theorem methods_scoped_iff (hms : c.methods ns = some ms)
    (hcl : ∀ i ∈ c.items, ∀ a ∈ i.args, a.name ≠ "cl") :
    Scoped ms ↔ ¬ ∃ m ∈ ms, m.oneway = false ∧
      (∃ arg ∈ m.args, arg.isIn = true ∧ arg.type.needsLoader arg.dimension = true) ∧
      (m.isVoid = false ∧ m.returnType.needsLoader m.dimension = true ∨
        ∃ arg ∈ m.args, arg.isOut = true ∧ arg.type.needsLoader arg.dimension = true) := by
  -- the parameters keep their names when their types are looked up
  have hnames : ∀ m ∈ ms, ∀ arg ∈ m.args, arg.name ≠ "cl" := by
    intro m hm arg harg
    rcases InterfaceType.methods_spec hms with ⟨oneway, -, hresolve⟩
    rcases (mapM_eq_some hresolve).2 m hm with ⟨i, hi, him⟩
    simp only [MethodType.resolve, Option.bind_eq_some_iff, Option.map_eq_some_iff] at him
    rcases him with ⟨t, -, args, hargs, rfl⟩
    rcases (mapM_eq_some hargs).2 arg harg with ⟨a, ha, haarg⟩
    rw [ArgType.resolve, Option.map_eq_some_iff] at haarg
    rcases haarg with ⟨u, -, rfl⟩
    exact hcl i hi a ha
  have hown : ∀ m : Method, m.OwnLoader ↔
      ¬ ((∃ arg ∈ m.args, arg.isIn = true ∧ arg.type.needsLoader arg.dimension = true) ∧
        (m.isVoid = false ∧ m.returnType.needsLoader m.dimension = true ∨
          ∃ arg ∈ m.args, arg.isOut = true ∧ arg.type.needsLoader arg.dimension = true)) := by
    intro m
    simp only [Method.OwnLoader, ← Bool.not_eq_true, ← not_and_or, Method.stubLoader,
      Method.proxyLoader, Method.resultLoader, Arg.needsLoader, List.any_eq_true, Bool.and_eq_true,
      Bool.or_eq_true, Bool.not_eq_true']
  rw [scoped_iff hnames]
  constructor
  · rintro h ⟨m, hm, htwoway, hshared⟩
    rcases h m hm with honeway | hloader
    · rw [htwoway] at honeway
      cases honeway
    · exact (hown m).1 hloader hshared
  · intro h m hm
    cases htwoway : m.oneway with
    | true => exact .inl rfl
    | false => exact .inr ((hown m).2 fun hshared => h ⟨m, hm, htwoway, hshared⟩)

/-- A method that takes a map and returns one. -/
def mapInterface : InterfaceType where
  package := some "demo"
  name := "IMaps"
  items := [{ type := ⟨"Map", 0⟩, name := "merge", args := [⟨some .in_, ⟨"Map", 0⟩, "other"⟩] }]

def mapTypes : Namespace := (gatherTypes (registerBaseTypes {}) [.interface mapInterface]).2

def mergeMethod : Method where
  typeName := "Map"
  returnType := MAP_TYPE
  dimension := 0
  oneway := false
  name := "merge"
  args := [⟨some .in_, MAP_TYPE, 0, "other"⟩]

/-- The checks let it through. -/
theorem methods_scoped_iff_merge :
    checkTypes mapTypes [.interface mapInterface] = false ∧ ¬ Scoped [mergeMethod] := by
  have hms : mapInterface.methods mapTypes = some [mergeMethod] := by decide +kernel
  refine ⟨by decide +kernel, fun h => ?_⟩
  refine (methods_scoped_iff hms (by decide)).1 h ⟨mergeMethod, List.mem_cons_self, rfl, ?_⟩
  exact ⟨⟨_, List.mem_cons_self, by decide, by decide⟩, .inl ⟨by decide, by decide⟩⟩

/-! ## Transactions -/

/-- Whatever words a transaction with the code of a method brings, no runtime
exception leaves it if it has a parcel for the reply: what the case threw is in there. -/
theorem compiled_caught
    (hcompile : compileAidl src o = .generate ns c ids)
    (hcount : c.items.length ≤ 16777215) (hms : c.methods ns = some ms)
    (hA : env.toAndroid.Documented) (hcode : env.code = transactionCode c.items ids) (hm : m ∈ ms)
    (data : List W) (p : Parcel W) (w : σ) {e : Throwable} (he : e.isRuntime) :
    (onTransact env superCall ms (BitVec.ofInt 32 (env.code m.name))
        (transactFrame data (some p) w)).1 ≠ .error (.threw e) ∧
      ((execAll env (stubStatements m) (transactFrame data (some p) w)).1 = .error (.threw e) →
        ∃ f' p' rest, onTransact env superCall ms (BitVec.ofInt 32 (env.code m.name))
            (transactFrame data (some p) w) = (.ok (some (.bool true)), f') ∧
          f'.parcels "reply" = some p' ∧
          env.readException p'.content =
            some (some (illegalArgument (env.stackTrace e)), rest)) :=
  onTransact_reported hA ((compileAidl_generate hcompile).distinct hms hcount hcode) hm data p w e
    he

/-- A transaction without any data. -/
theorem compiled_caught_nil :
    ∃ f' p' rest, onTransact logEnv logSuper logMethods (BitVec.ofInt 32 (logEnv.code "append"))
        (transactFrame [] (some {}) 0) = (.ok (some (.bool true)), f') ∧
      f'.parcels "reply" = some p' ∧
      logEnv.readException p'.content = some (some (illegalArgument ""), rest) :=
  have he : (runtimeException "").isRuntime := List.mem_cons_self
  (compiled_caught (m := appendMethod) log_compiled (by decide) log_methods
    (Android.tokens_documented _) rfl (List.mem_cons_self ..) [] {} 0 he).2 rfl

/-- Every code has one meaning: that of a method runs its case in the handler, that of
the descriptor is answered, and another one is left to `android.os.Binder`. -/
theorem compiled_dispatch
    (hcompile : compileAidl src o = .generate ns c ids)
    (hcount : c.items.length ≤ 16777215) (hms : c.methods ns = some ms)
    (hcode : env.code = transactionCode c.items ids) (f : Frame W O σ) (code : BitVec 32) :
    (∀ m ∈ ms, 1 ≤ env.code m.name ∧ env.code m.name ≤ 16777215 ∧
      (code = BitVec.ofInt 32 (env.code m.name) →
        onTransact env superCall ms code f =
          catching RUNTIME_EXCEPTION_TYPE "e" (execAll env (stubStatements m))
            (execAll env transactCatch) f)) ∧
    (code = BitVec.ofInt 32 INTERFACE_TRANSACTION →
      ∀ p ws, f.parcels "reply" = some p →
        env.write .writeString [.string env.descriptor] = some ws →
          onTransact env superCall ms code f =
            (.ok (some (.bool true)), f.setParcel "reply" (p.write ws))) ∧
    (code ≠ BitVec.ofInt 32 INTERFACE_TRANSACTION →
      (∀ m ∈ ms, BitVec.ofInt 32 (env.code m.name) ≠ code) →
        onTransact env superCall ms code f = superCall code f) := by
  have haccepted := compileAidl_generate hcompile
  refine ⟨fun m hm => ?_, ?_, fun hdescriptor hmethods => ?_⟩
  · have hbounds := haccepted.code_bounds hms hcount hcode hm
    refine ⟨hbounds.1, hbounds.2, ?_⟩
    rintro rfl
    exact onTransact_method superCall (haccepted.distinct hms hcount hcode) hm f
  · rintro rfl p ws hp hws
    exact onTransact_descriptor superCall ms hp hws
  · exact onTransact_other superCall hdescriptor hmethods f

theorem compiled_dispatch_log :
    onTransact logEnv logSuper logMethods 4 (transactFrame [] (some {}) 0) =
      (.ok (some (.bool false)), transactFrame [] (some {}) 0) :=
  (compiled_dispatch log_compiled (by decide) log_methods rfl _ 4).2.2 (by decide) (by decide)

/-- The searches of the checks and of the generator do not disturb each other,
although each may put a type into the table. -/
theorem compiled_names (hcompile : compileAidl src o = .generate ns c ids)
    (hplain : ∀ t ∈ ns.types, t.Plain) (names : List String) :
    (ns.searchAll names).1 = names.map ns.type ∧
      ∀ name, (ns.searchAll names).2.type name = ns.type name := by
  rcases compileAidl_table hcompile with ⟨items, hitems⟩
  have hbased : ns.Based := by
    rw [hitems]
    exact registerBaseTypes_based.gatherTypes items
  rcases Namespace.searchAll_eq (hbased.sound hplain) names with ⟨hfst, -, hsnd⟩
  exact ⟨hfst, hsnd⟩

theorem compiled_names_log :
    (logTypes.searchAll ["List<String>", "ILog", "List<String>"]).1 =
      [logTypes.type "List<String>", logTypes.type "ILog", logTypes.type "List<String>"] := by
  have hplain : ∀ t ∈ logTypes.types, t.Plain := by
    have hall : ∀ t ∈ logTypes.types, t.qualifiedName.toList.all nameChar = true ∧
        '<' ∉ t.name.toList := by decide +kernel
    intro t ht
    exact ⟨List.all_eq_true.1 (hall t ht).1, (hall t ht).2⟩
  exact (compiled_names log_compiled hplain ["List<String>", "ILog", "List<String>"]).1

end Aidl
