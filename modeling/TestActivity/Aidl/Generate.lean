import TestActivity.Aidl.Check

/-!
# The code that is generated for a binder interface

The trees of `AST.h` and the functions that build them: what each type adds to
a block to write a value to a parcel, to create one from it and to read one
into an object (`Type.cpp`), and from these the case of `onTransact` and the
method of the proxy for one method of the interface (`generate_java_binder.cpp`).
-/

namespace Aidl

/-! ## Trees -/

/-- `Variable`. -/
structure Variable where
  type : Ty
  name : String
  dimension : ℕ := 0
deriving DecidableEq, Repr

/-- The texts of the literal expressions. -/
inductive Literal where
  | null | this | super | true
  | int (n : ℤ)
  /-- `DESCRIPTOR` -/
  | descriptor
  /-- `this.getClass().getClassLoader()` -/
  | classLoader
  /-- the name of a creator -/
  | creator (name : String)
  /-- `Stub.TRANSACTION_` and the name of a method -/
  | transaction (method : String)
  /-- `android.os.IBinder.FLAG_ONEWAY` -/
  | flagOneway
  /-- `android.os.Parcelable.PARCELABLE_WRITE_RETURN_VALUE` -/
  | writeReturnValue
  /-- the comment that stands for code that cannot be generated -/
  | error (what : String)
deriving DecidableEq, Repr

/-- The names of the methods that are called. -/
inductive CallName where
  | parcel (m : ParcelMethod)
  | obtain | recycle | setDataPosition
  | writeInterfaceToken | enforceInterface | writeNoException | readException
  | transact | onTransact | asBinder | asInterface
  | writeToParcel | readFromParcel
  /-- `CREATOR.createFromParcel` -/
  | createFromParcel
  /-- `CHAR_SEQUENCE_CREATOR.createFromParcel` -/
  | createCharSequenceFromParcel
  | printStackTrace | toString | close
  | user (name : String)
deriving DecidableEq, Repr

/-- The operators of `Comparison`. -/
inductive Op where
  | eq | ne | lt
deriving DecidableEq, Repr

/-- `Expression` and the classes derived from it. A method is called on an
expression or on a class. -/
inductive Expression where
  | literal (value : Literal)
  | variable (v : Variable)
  | lengthOf (object : Variable)
  | methodCall (obj : Expression) (name : CallName) (arguments : List Expression)
  | staticCall (clazz : Ty) (name : CallName) (arguments : List Expression)
  | comparison (lvalue : Expression) (op : Op) (rvalue : Expression)
  | newExpression (type : Ty) (arguments : List Expression)
  | newArray (type : Ty) (size : Expression)
  | ternary (condition ifpart elsepart : Expression)
  | cast (type : Ty) (expression : Expression)
  | assignment (lvalue : Variable) (rvalue : Expression) (cast : Option Ty)

/-- `Statement` and the classes derived from it. An `else` always stands without
a condition here, and a `catch` or `finally` directly behind its `try`. -/
inductive Statement where
  | expression (e : Expression)
  | variableDeclaration (lvalue : Variable) (rvalue : Option Expression) (cast : Option Ty)
  | ifStatement (expression : Expression) (statements elseif : List Statement)
  | returnStatement (expression : Expression)
  | tryCatch (statements : List Statement) (exception : Variable) (handler : List Statement)
  | tryFinally (statements handler : List Statement)

/-- `Case`; the label is the name of a method, or that of
`INTERFACE_TRANSACTION`. -/
structure Case where
  label : Option String
  statements : List Statement

/-! ## Marshalling -/

namespace Ty

/-- The comment that a function of `Type` adds when no class has overridden it. -/
def internalError (t : Ty) (what : String) : List Statement :=
  [.expression (.literal (.error ("/* " ++ what ++ " error " ++ t.qualifiedName ++ " */")))]

def buildWriteToParcelFlags (returnValue : Bool) : Expression :=
  .literal (if returnValue then .writeReturnValue else .int 0)

/-- `parcel.name(arguments);` -/
def callParcel (parcel : Variable) (name : ParcelMethod) (arguments : List Expression) :
    Expression :=
  .methodCall (.variable parcel) (.parcel name) arguments

/-- `v = parcel.name(arguments);` -/
def assignParcel (v parcel : Variable) (name : ParcelMethod) (arguments : List Expression) :
    Statement :=
  .expression (.assignment v (callParcel parcel name arguments) none)

/-- What `CharSequenceType` and `UserDataType` write: whether there is an
object, and the object. -/
def writeFlagged (v parcel : Variable) (write : Expression) : List Statement :=
  [.ifStatement (.comparison (.variable v) .ne (.literal .null))
    [.expression (callParcel parcel .writeInt [.literal (.int 1)]), .expression write]
    [.expression (callParcel parcel .writeInt [.literal (.int 0)])]]

/-- The counterpart of `writeFlagged`. -/
def createFlagged (v parcel : Variable) (create : Expression) : List Statement :=
  [.ifStatement (.comparison (.literal (.int 0)) .ne (callParcel parcel .readInt []))
    [.expression (.assignment v create none)]
    [.expression (.assignment v (.literal .null) none)]]

/-- `WriteToParcel`. -/
def writeToParcel (t : Ty) (v parcel : Variable) (returnValue : Bool) : List Statement :=
  match t.cls with
  | .basic marshall _ _ _ _ => [.expression (callParcel parcel marshall [.variable v])]
  | .boolean =>
    [.expression (callParcel parcel .writeInt
      [.ternary (.variable v) (.literal (.int 1)) (.literal (.int 0))])]
  | .char => [.expression (callParcel parcel .writeInt [.cast INT_TYPE (.variable v)])]
  | .string => [.expression (callParcel parcel .writeString [.variable v])]
  | .charSequence =>
    writeFlagged v parcel (.staticCall TEXT_UTILS_TYPE .writeToParcel
      [.variable v, .variable parcel, buildWriteToParcelFlags returnValue])
  | .iBinder => [.expression (callParcel parcel .writeStrongBinder [.variable v])]
  | .map => [.expression (callParcel parcel .writeMap [.variable v])]
  | .list => [.expression (callParcel parcel .writeList [.variable v])]
  | .userData =>
    writeFlagged v parcel (.methodCall (.variable v) .writeToParcel
      [.variable parcel, buildWriteToParcelFlags returnValue])
  | .interface _ =>
    [.expression (callParcel parcel .writeStrongBinder
      [.ternary (.comparison (.variable v) .ne (.literal .null))
        (.methodCall (.variable v) .asBinder []) (.literal .null)])]
  | .genericList creator =>
    if creator = STRING_TYPE.creatorName then
      [.expression (callParcel parcel .writeStringList [.variable v])]
    else if creator = IBINDER_TYPE.creatorName then
      [.expression (callParcel parcel .writeBinderList [.variable v])]
    else
      [.expression (callParcel parcel .writeTypedList [.variable v])]
  | .silent => []
  | .plain => t.internalError "WriteToParcel"

/-- `EnsureClassLoader`: `cl` tells whether the variable was declared before. -/
def ensureClassLoader (cl : Bool) : List Statement :=
  if cl then []
  else
    [.variableDeclaration ⟨CLASSLOADER_TYPE, "cl", 0⟩ (some (.literal .classLoader))
      (some CLASSLOADER_TYPE)]

def clVariable : Expression := .variable ⟨CLASSLOADER_TYPE, "cl", 0⟩

/-- `CreateFromParcel`, with what becomes of `cl`. The class of `asInterface` is
the stub that belongs to the interface. -/
def createFromParcel (t : Ty) (v parcel : Variable) (cl : Bool) : List Statement × Bool :=
  match t.cls with
  | .basic _ unmarshall _ _ _ => ([assignParcel v parcel unmarshall []], cl)
  | .boolean =>
    ([.expression (.assignment v
      (.comparison (.literal (.int 0)) .ne (callParcel parcel .readInt [])) none)], cl)
  | .char => ([.expression (.assignment v (callParcel parcel .readInt []) (some t))], cl)
  | .string => ([assignParcel v parcel .readString []], cl)
  | .charSequence =>
    (createFlagged v parcel
      (.staticCall TEXT_UTILS_TYPE .createCharSequenceFromParcel [.variable parcel]), cl)
  | .iBinder => ([assignParcel v parcel .readStrongBinder []], cl)
  | .map => (ensureClassLoader cl ++ [assignParcel v parcel .readHashMap [clVariable]], true)
  | .list => (ensureClassLoader cl ++ [assignParcel v parcel .readArrayList [clVariable]], true)
  | .userData =>
    (createFlagged v parcel (.staticCall v.type .createFromParcel [.variable parcel]), cl)
  | .interface _ =>
    ([.expression (.assignment v (.staticCall v.type .asInterface
      [callParcel parcel .readStrongBinder []]) none)], cl)
  | .genericList creator =>
    if creator = STRING_TYPE.creatorName then
      ([assignParcel v parcel .createStringArrayList []], cl)
    else if creator = IBINDER_TYPE.creatorName then
      ([assignParcel v parcel .createBinderArrayList []], cl)
    else
      ([assignParcel v parcel .createTypedArrayList [.literal (.creator creator)]], cl)
  | .silent => ([], cl)
  | .plain => (t.internalError "CreateFromParcel", cl)

/-- `ReadFromParcel`. -/
def readFromParcel (t : Ty) (v parcel : Variable) (cl : Bool) : List Statement × Bool :=
  match t.cls with
  | .map =>
    (ensureClassLoader cl ++ [.expression (callParcel parcel .readMap [.variable v, clVariable])],
      true)
  | .list =>
    (ensureClassLoader cl ++ [.expression (callParcel parcel .readList [.variable v, clVariable])],
      true)
  | .userData =>
    ([.ifStatement (.comparison (.literal (.int 0)) .ne (callParcel parcel .readInt []))
      [.expression (.methodCall (.variable v) .readFromParcel [.variable parcel])] []], cl)
  | .genericList creator =>
    if creator = STRING_TYPE.creatorName then
      ([.expression (callParcel parcel .readStringList [.variable v])], cl)
    else if creator = IBINDER_TYPE.creatorName then
      ([.expression (callParcel parcel .readBinderList [.variable v])], cl)
    else
      ([.expression (callParcel parcel .readTypedList
        [.variable v, .literal (.creator creator)])], cl)
  | _ => (t.internalError "ReadFromParcel", cl)

/-- `WriteArrayToParcel`. -/
def writeArrayToParcel (t : Ty) (v parcel : Variable) (returnValue : Bool) : List Statement :=
  match t.cls with
  | .basic _ _ writeArray _ _ => [.expression (callParcel parcel writeArray [.variable v])]
  | .boolean => [.expression (callParcel parcel .writeBooleanArray [.variable v])]
  | .char => [.expression (callParcel parcel .writeCharArray [.variable v])]
  | .string => [.expression (callParcel parcel .writeStringArray [.variable v])]
  | .iBinder => [.expression (callParcel parcel .writeBinderArray [.variable v])]
  | .userData =>
    [.expression (callParcel parcel .writeTypedArray
      [.variable v, buildWriteToParcelFlags returnValue])]
  | _ => t.internalError "WriteArrayToParcel"

/-- `CreateArrayFromParcel`. -/
def createArrayFromParcel (t : Ty) (v parcel : Variable) : List Statement :=
  match t.cls with
  | .basic _ _ _ createArray _ => [assignParcel v parcel createArray []]
  | .boolean => [assignParcel v parcel .createBooleanArray []]
  | .char => [assignParcel v parcel .createCharArray []]
  | .string => [assignParcel v parcel .createStringArray []]
  | .iBinder => [assignParcel v parcel .createBinderArray []]
  | .userData =>
    [assignParcel v parcel .createTypedArray
      [.literal (.creator (v.type.qualifiedName ++ ".CREATOR"))]]
  | _ => t.internalError "CreateArrayFromParcel"

/-- `ReadArrayFromParcel`. -/
def readArrayFromParcel (t : Ty) (v parcel : Variable) : List Statement :=
  match t.cls with
  | .basic _ _ _ _ readArray => [.expression (callParcel parcel readArray [.variable v])]
  | .boolean => [.expression (callParcel parcel .readBooleanArray [.variable v])]
  | .char => [.expression (callParcel parcel .readCharArray [.variable v])]
  | .string => [.expression (callParcel parcel .readStringArray [.variable v])]
  | .iBinder => [.expression (callParcel parcel .readBinderArray [.variable v])]
  | .userData =>
    [.expression (callParcel parcel .readTypedArray
      [.variable v, .literal (.creator (v.type.qualifiedName ++ ".CREATOR"))])]
  | _ => t.internalError "ReadArrayFromParcel"

end Ty

/-! ## Methods -/

/-- An argument with the type its name stands for. -/
structure Arg where
  direction : Option Direction
  type : Ty
  dimension : ℕ
  name : String
deriving DecidableEq, Repr

/-- A method with the types its names stand for. -/
structure Method where
  typeName : String
  returnType : Ty
  dimension : ℕ
  oneway : Bool
  name : String
  args : List Arg
deriving DecidableEq, Repr

def ArgType.resolve (ns : Namespace) (arg : ArgType) : Option Arg :=
  (ns.type arg.type.name).map fun t => ⟨arg.direction, t, arg.type.dimension, arg.name⟩

/-- The calls of `NAMES.Search` in `generate_method`; `oneway` is that of the class of the
proxy. -/
def MethodType.resolve (ns : Namespace) (oneway : Bool) (m : MethodType) : Option Method :=
  (ns.type m.type.name).bind fun t =>
    (m.args.mapM (ArgType.resolve ns)).map fun args =>
      ⟨m.type.name, t, m.type.dimension, oneway || m.oneway, m.name, args⟩

def Arg.isIn (arg : Arg) : Bool := convertDirection arg.direction &&& IN_PARAMETER != 0

def Arg.isOut (arg : Arg) : Bool := convertDirection arg.direction &&& OUT_PARAMETER != 0

/-- The variable of the proxy's parameter. -/
def Arg.variable (arg : Arg) : Variable := ⟨arg.type, arg.name, arg.dimension⟩

def Method.isVoid (m : Method) : Bool := m.typeName == "void"

/-- `generate_new_array`. -/
def generateNewArray (t : Ty) (v parcel : Variable) : List Statement :=
  let len : Variable := ⟨INT_TYPE, v.name ++ "_length", 0⟩
  [.variableDeclaration len (some (Ty.callParcel parcel .readInt [])) none,
    .ifStatement (.comparison (.variable len) .lt (.literal (.int 0)))
      [.expression (.assignment v (.literal .null) none)]
      [.expression (.assignment v (.newArray t (.variable len)) none)]]

/-- `generate_write_to_parcel`. -/
def generateWriteToParcel (t : Ty) (v parcel : Variable) (returnValue : Bool) : List Statement :=
  if v.dimension = 0 then t.writeToParcel v parcel returnValue
  else if v.dimension = 1 then t.writeArrayToParcel v parcel returnValue
  else []

/-- `generate_create_from_parcel`. -/
def generateCreateFromParcel (t : Ty) (v parcel : Variable) (cl : Bool) : List Statement × Bool :=
  if v.dimension = 0 then t.createFromParcel v parcel cl
  else if v.dimension = 1 then (t.createArrayFromParcel v parcel, cl)
  else ([], cl)

/-- `generate_read_from_parcel`. -/
def generateReadFromParcel (t : Ty) (v parcel : Variable) (cl : Bool) : List Statement × Bool :=
  if v.dimension = 0 then t.readFromParcel v parcel cl
  else if v.dimension = 1 then (t.readArrayFromParcel v parcel, cl)
  else ([], cl)

/-! ## The stub -/

def transactData : Variable := ⟨PARCEL_TYPE, "data", 0⟩
def transactReply : Variable := ⟨PARCEL_TYPE, "reply", 0⟩

/-- `stubArgs.Get`. -/
def argName (i : ℕ) : String := "_arg" ++ toString i

def stubVariable (i : ℕ) (arg : Arg) : Variable := ⟨arg.type, argName i, arg.dimension⟩

/-- One round of the loop over the arguments of the stub. -/
def stubArg (i : ℕ) (arg : Arg) (cl : Bool) : List Statement × Bool :=
  let v := stubVariable i arg
  let (body, cl) :=
    if arg.isIn then generateCreateFromParcel arg.type v transactData cl
    else if arg.dimension = 0 then
      ([.expression (.assignment v (.newExpression v.type []) none)], cl)
    else if arg.dimension = 1 then (generateNewArray v.type v transactData, cl)
    else ([], cl)
  (.variableDeclaration v none none :: body, cl)

def stubArgs (i : ℕ) (cl : Bool) : List Arg → List Statement × Bool
  | [] => ([], cl)
  | arg :: args =>
    let (first, cl) := stubArg i arg cl
    let (rest, cl) := stubArgs (i + 1) cl args
    (first ++ rest, cl)

def realCallArgs (i : ℕ) : List Arg → List Expression
  | [] => []
  | arg :: args => .variable (stubVariable i arg) :: realCallArgs (i + 1) args

def realCall (m : Method) : Expression :=
  .methodCall (.literal .this) (.user m.name) (realCallArgs 0 m.args)

def stubResult (m : Method) : Variable := ⟨m.returnType, "_result", m.dimension⟩

/-- The loop over the out parameters. -/
def stubOuts (i : ℕ) : List Arg → List Statement
  | [] => []
  | arg :: args =>
    (if arg.isOut then
      generateWriteToParcel arg.type (stubVariable i arg) transactReply true
    else []) ++ stubOuts (i + 1) args

def noException (m : Method) : List Statement :=
  if m.oneway then []
  else [.expression (.methodCall (.variable transactReply) .writeNoException [])]

/-- The call of the implementation, and what is written of its result. -/
def stubCall (m : Method) : List Statement :=
  if m.isVoid then .expression (realCall m) :: noException m
  else
    .variableDeclaration (stubResult m) (some (realCall m)) none ::
      (noException m ++ generateWriteToParcel m.returnType (stubResult m) transactReply true)

/-- The stub's half of `generate_method`. -/
def stubStatements (m : Method) : List Statement :=
  .expression (.methodCall (.variable transactData) .enforceInterface [.literal .descriptor]) ::
    ((stubArgs 0 false m.args).1 ++ (stubCall m ++ (stubOuts 0 m.args ++
      [.returnStatement (.literal .true)])))

/-! ## The proxy -/

def proxyData : Variable := ⟨PARCEL_TYPE, "_data", 0⟩
def proxyReply : Variable := ⟨PARCEL_TYPE, "_reply", 0⟩
def mRemote : Variable := ⟨IBINDER_TYPE, "mRemote", 0⟩

/-- One round of the loop over the parameters of the proxy. -/
def proxyArg (arg : Arg) : List Statement :=
  if convertDirection arg.direction = OUT_PARAMETER ∧ arg.dimension ≠ 0 then
    [.ifStatement (.comparison (.variable arg.variable) .eq (.literal .null))
      [.expression (Ty.callParcel proxyData .writeInt [.literal (.int (-1))])]
      [.expression (Ty.callParcel proxyData .writeInt [.lengthOf arg.variable])]]
  else if arg.isIn then generateWriteToParcel arg.type arg.variable proxyData false
  else []

def proxyArgs (args : List Arg) : List Statement := args.flatMap proxyArg

/-- The loop over the out and inout parameters of the proxy. -/
def proxyOuts (cl : Bool) : List Arg → List Statement × Bool
  | [] => ([], cl)
  | arg :: args =>
    let (first, cl) :=
      if arg.isOut then generateReadFromParcel arg.type arg.variable proxyReply cl else ([], cl)
    let (rest, cl) := proxyOuts cl args
    (first ++ rest, cl)

def transactCall (m : Method) : Expression :=
  .methodCall (.variable mRemote) .transact
    [.literal (.transaction m.name), .variable proxyData,
      if m.oneway then .literal .null else .variable proxyReply,
      .literal (if m.oneway then .flagOneway else .int 0)]

def proxyResult (m : Method) : Variable := ⟨m.returnType, "_result", m.dimension⟩

/-- The proxy reads the result and the out parameters. `cl` is what the stub has
left: both share the variable. -/
def proxyReturns (m : Method) (cl : Bool) : List Statement :=
  if m.oneway then []
  else
    let (result, cl) :=
      if m.isVoid then ([], cl)
      else generateCreateFromParcel m.returnType (proxyResult m) proxyReply cl
    .expression (.methodCall (.variable proxyReply) .readException []) ::
      (result ++ (proxyOuts cl m.args).1)

def proxyTry (m : Method) : List Statement :=
  .expression (.methodCall (.variable proxyData) .writeInterfaceToken [.literal .descriptor]) ::
    (proxyArgs m.args ++ (.expression (transactCall m) ::
      proxyReturns m (stubArgs 0 false m.args).2))

def proxyFinally (m : Method) : List Statement :=
  (if m.oneway then [] else [.expression (.methodCall (.variable proxyReply) .recycle [])]) ++
    [.expression (.methodCall (.variable proxyData) .recycle [])]

def obtainParcel (v : Variable) : Statement :=
  .variableDeclaration v (some (.staticCall PARCEL_TYPE .obtain [])) none

/-- The proxy's half of `generate_method`. -/
def proxyStatements (m : Method) : List Statement :=
  obtainParcel proxyData ::
    ((if m.oneway then [] else [obtainParcel proxyReply]) ++
      ((if m.isVoid then [] else [.variableDeclaration (proxyResult m) none none]) ++
        (.tryFinally (proxyTry m) (proxyFinally m) ::
          (if m.isVoid then [] else [.returnStatement (.variable (proxyResult m))]))))

/-! ## The class of the stub -/

/-- The handler that `StubClass` puts around the cases. -/
def transactCatch : List Statement :=
  let e : Variable := ⟨RUNTIME_EXCEPTION_TYPE, "e", 0⟩
  let pos : Variable := ⟨INT_TYPE, "pos", 0⟩
  let errcode : Variable := ⟨INT_TYPE, "errcode", 0⟩
  let sw : Variable := ⟨SW_TYPE, "sw", 0⟩
  let pw : Variable := ⟨PW_TYPE, "pw", 0⟩
  let stack : Variable := ⟨STRING_TYPE, "stack", 0⟩
  [.expression (.methodCall (.variable e) .printStackTrace []),
    .variableDeclaration pos (some (.literal (.int 0))) none,
    .expression (.methodCall (.variable transactReply) .setDataPosition [.variable pos]),
    .variableDeclaration errcode (some (.literal (.int (-3)))) none,
    .expression (Ty.callParcel transactReply .writeInt [.variable errcode]),
    .variableDeclaration sw (some (.newExpression SW_TYPE [])) none,
    .variableDeclaration pw (some (.newExpression PW_TYPE [.variable sw])) none,
    .expression (.methodCall (.variable e) .printStackTrace [.variable pw]),
    .variableDeclaration stack (some (.methodCall (.variable sw) .toString [])) none,
    .tryCatch [.expression (.methodCall (.variable sw) .close []),
      .expression (.methodCall (.variable pw) .close [])] ⟨IO_EXCEPTION_TYPE, "e1", 0⟩ [],
    .expression (Ty.callParcel transactReply .writeString [.variable stack]),
    .returnStatement (.literal .true)]

/-- The case of `generate_interface_descriptors`. -/
def descriptorCase : Case where
  label := none
  statements :=
    [.expression (Ty.callParcel transactReply .writeString [.literal .descriptor]),
      .returnStatement (.literal .true)]

/-- The cases of the switch in `onTransact`. -/
def stubCases (ms : List Method) : List Case :=
  descriptorCase :: ms.map fun m => ⟨some m.name, stubStatements m⟩

/-! ## The interface -/

/-- `mOneWay` of the class of the proxy: the word of the type in the table. -/
def InterfaceType.oneWay (ns : Namespace) (c : InterfaceType) : Option Bool :=
  (ns.findIn c.package c.name).bind fun t =>
    match t.cls with
    | .interface oneway => some oneway
    | _ => none

/-- The methods that `generate_binder_interface_class` goes through, with the types their
names stand for. -/
def InterfaceType.methods (ns : Namespace) (c : InterfaceType) : Option (List Method) :=
  (c.oneWay ns).bind fun oneway => c.items.mapM (MethodType.resolve ns oneway)

end Aidl
