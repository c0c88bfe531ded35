import TestActivity.Aidl.Java

/-!
# What one value becomes on the way

`Format` lists the ways in which the methods of `Parcel` belong together: what
writes a value, what creates it again, and what reads it into an object.
`Android.Documented` says that they do. For every type the generated code uses
the methods of one format on both sides, so that what is written is read back:
one lemma for writing, one for creating and one for reading into an object.
-/

namespace Aidl

open Exec

variable {W O σ α β : Type}

/-! ## Formats -/

/-- The values that travel by one call of a method of `Parcel`. -/
inductive Format where
  | byte | int | long | float | double | string | strongBinder | map | list
  | byteArray | intArray | longArray | floatArray | doubleArray | booleanArray | charArray
  | stringArray | binderArray
  | typedArray (creator : String)
  | stringList | binderList
  | typedList (creator : String)
deriving DecidableEq, Repr

namespace Format

def writer : Format → ParcelMethod
  | byte => .writeByte
  | int => .writeInt
  | long => .writeLong
  | float => .writeFloat
  | double => .writeDouble
  | string => .writeString
  | strongBinder => .writeStrongBinder
  | map => .writeMap
  | list => .writeList
  | byteArray => .writeByteArray
  | intArray => .writeIntArray
  | longArray => .writeLongArray
  | floatArray => .writeFloatArray
  | doubleArray => .writeDoubleArray
  | booleanArray => .writeBooleanArray
  | charArray => .writeCharArray
  | stringArray => .writeStringArray
  | binderArray => .writeBinderArray
  | typedArray _ => .writeTypedArray
  | stringList => .writeStringList
  | binderList => .writeBinderList
  | typedList _ => .writeTypedList

def creator : Format → ParcelMethod
  | byte => .readByte
  | int => .readInt
  | long => .readLong
  | float => .readFloat
  | double => .readDouble
  | string => .readString
  | strongBinder => .readStrongBinder
  | map => .readHashMap
  | list => .readArrayList
  | byteArray => .createByteArray
  | intArray => .createIntArray
  | longArray => .createLongArray
  | floatArray => .createFloatArray
  | doubleArray => .createDoubleArray
  | booleanArray => .createBooleanArray
  | charArray => .createCharArray
  | stringArray => .createStringArray
  | binderArray => .createBinderArray
  | typedArray _ => .createTypedArray
  | stringList => .createStringArrayList
  | binderList => .createBinderArrayList
  | typedList _ => .createTypedArrayList

def filler : Format → Option ParcelMethod
  | byte | int | long | float | double | string | strongBinder => none
  | map => some .readMap
  | list => some .readList
  | byteArray => some .readByteArray
  | intArray => some .readIntArray
  | longArray => some .readLongArray
  | floatArray => some .readFloatArray
  | doubleArray => some .readDoubleArray
  | booleanArray => some .readBooleanArray
  | charArray => some .readCharArray
  | stringArray => some .readStringArray
  | binderArray => some .readBinderArray
  | typedArray _ => some .readTypedArray
  | stringList => some .readStringList
  | binderList => some .readBinderList
  | typedList _ => some .readTypedList

/-- The arguments behind the value that is written. -/
def writeArgs (fmt : Format) (flags : BitVec 32) : List (Value O) :=
  match fmt with
  | typedArray _ => [.int flags]
  | _ => []

/-- The arguments of the methods that read, behind the object read into. -/
def createArgs (fmt : Format) : List (Value O) :=
  match fmt with
  | map | list => [.classLoader]
  | typedArray c | typedList c => [.creator c]
  | _ => []

end Format

/-- `null`, or an array of such elements. -/
def ArrayOf (P : Value O → Prop) (v : Value O) : Prop :=
  v = .null ∨ ∃ xs, v = .array xs ∧ xs.length < 2 ^ 31 ∧ ∀ x ∈ xs, P x

/-- `null`, or a list of such elements. -/
def ListOf (P : Value O → Prop) (v : Value O) : Prop :=
  v = .null ∨ ∃ xs, v = .list xs ∧ ∀ x ∈ xs, P x

/-- What `Parcel.writeValue` takes of an element: it throws for the other objects. -/
inductive Writable : Value O → Prop where
  | null : Writable .null
  | bool (b : Bool) : Writable (.bool b)
  | byte (n : BitVec 8) : Writable (.byte n)
  | int (n : BitVec 32) : Writable (.int n)
  | long (n : BitVec 64) : Writable (.long n)
  | float (n : BitVec 32) : Writable (.float n)
  | double (n : BitVec 64) : Writable (.double n)
  | string (s : String) : Writable (.string s)
  | binder (b : ℕ) : Writable (.binder b)
  | map (o : O) : Writable (.map o)
  | userData (q : String) (o : O) : Writable (.userData q o)
  | list {xs : List (Value O)} (h : ∀ x ∈ xs, Writable x) : Writable (.list xs)

def IsString (v : Value O) : Prop := v = .null ∨ ∃ s, v = .string s

def IsBinder (v : Value O) : Prop := v = .null ∨ ∃ b, v = .binder b

/-- `null`, or an object of the class with this name. -/
def IsUserData (q : String) (v : Value O) : Prop := v = .null ∨ ∃ o, v = .userData q o

/-- The objects that the creator creates. -/
def CreatedBy (creator : String) (v : Value O) : Prop :=
  ∃ q, creator = q ++ ".CREATOR" ∧ IsUserData q v

namespace Format

/-- The values of a format. -/
def Holds (fmt : Format) (v : Value O) : Prop :=
  match fmt with
  | byte => ∃ n, v = .byte n
  | int => ∃ n, v = .int n
  | long => ∃ n, v = .long n
  | float => ∃ n, v = .float n
  | double => ∃ n, v = .double n
  | string => IsString v
  | strongBinder => IsBinder v
  | map => v = .null ∨ ∃ o, v = .map o
  | list => ListOf Writable v
  | byteArray => ArrayOf (fun x => ∃ n, x = .byte n) v
  | intArray => ArrayOf (fun x => ∃ n, x = .int n) v
  | longArray => ArrayOf (fun x => ∃ n, x = .long n) v
  | floatArray => ArrayOf (fun x => ∃ n, x = .float n) v
  | doubleArray => ArrayOf (fun x => ∃ n, x = .double n) v
  | booleanArray => ArrayOf (fun x => ∃ b, x = .bool b) v
  | charArray => ArrayOf (fun x => ∃ c, x = .char c) v
  | stringArray => ArrayOf IsString v
  | binderArray => ArrayOf IsBinder v
  | typedArray c => ArrayOf (CreatedBy c) v
  | stringList => ListOf IsString v
  | binderList => ListOf IsBinder v
  | typedList c => ListOf (CreatedBy c) v

end Format

/-- Objects that one can be read into the other: arrays keep their length. -/
def Fits : Value O → Value O → Prop
  | .array xs, .array ys => xs.length = ys.length
  | .list _, .list _ => True
  | .map _, .map _ => True
  | _, _ => False

/-- The content of an object after another was read into it. `readList` and
`readMap` add to what is there. -/
def filled (A : Android W O) (fmt : Format) (old v : Value O) : Value O :=
  match fmt, old, v with
  | .list, .list xs, .list ys => .list (xs ++ ys)
  | .map, .map o, .map o' => .map (A.putAll o o')
  | _, _, v => v

/-- The code of an `IllegalArgumentException`. -/
def EX_ILLEGAL_ARGUMENT : ℤ := -3

def illegalArgument (message : String) : Throwable :=
  ⟨["java.lang.IllegalArgumentException", "java.lang.RuntimeException"], message⟩

/-- What the documentation of the framework promises. -/
structure Android.Documented (A : Android W O) : Prop where
  create (fmt : Format) {v : Value O} (hv : fmt.Holds v) (flags : BitVec 32) :
    ∃ ws, A.write fmt.writer (v :: fmt.writeArgs flags) = some ws ∧
      ∀ rest, A.read fmt.creator fmt.createArgs (ws ++ rest) = some (v, rest)
  fill (fmt : Format) {m : ParcelMethod} (hm : fmt.filler = some m) {old v : Value O}
    (hv : fmt.Holds v) (hfits : Fits old v) (flags : BitVec 32) {ws : List W}
    (hws : A.write fmt.writer (v :: fmt.writeArgs flags) = some ws) (rest : List W) :
    A.read m (old :: fmt.createArgs) (ws ++ rest) = some (filled A fmt old v, rest)
  userData (q : String) (flags : BitVec 32) (o : O) (rest : List W) :
    A.createUserData q (A.writeUserData q flags o ++ rest) = some (o, rest)
  readUserData (q : String) (flags : BitVec 32) (old o : O) (rest : List W) :
    A.readUserData q old (A.writeUserData q flags o ++ rest) = some (o, rest)
  charSequence (flags : BitVec 32) (o : O) (rest : List W) :
    A.createCharSequence (A.writeCharSequence flags o ++ rest) = some (o, rest)
  token (d : String) (rest : List W) :
    A.enforceInterface d (A.writeInterfaceToken d ++ rest) = some rest
  noException (rest : List W) :
    A.readException (A.noException ++ rest) = some (none, rest)
  exception {ws ws' : List W} (message : String) (rest : List W)
    (hws : A.write .writeInt [.int (BitVec.ofInt 32 EX_ILLEGAL_ARGUMENT)] = some ws)
    (hws' : A.write .writeString [.string message] = some ws') :
    A.readException (ws ++ ws' ++ rest) = some (some (illegalArgument message), rest)

/-! ## Types -/

/-- How the values of a type travel. -/
inductive Wire where
  | direct (fmt : Format)
  | boolean
  | char
  | charSequence
  | userData (q : String)
  | interface (q : String)
deriving DecidableEq, Repr

def Ty.wireScalar (t : Ty) : Option Wire :=
  match t.cls with
  | .basic .writeByte .readByte _ _ _ => some (.direct .byte)
  | .basic .writeInt .readInt _ _ _ => some (.direct .int)
  | .basic .writeLong .readLong _ _ _ => some (.direct .long)
  | .basic .writeFloat .readFloat _ _ _ => some (.direct .float)
  | .basic .writeDouble .readDouble _ _ _ => some (.direct .double)
  | .boolean => some .boolean
  | .char => some .char
  | .string => some (.direct .string)
  | .charSequence => some .charSequence
  | .iBinder => some (.direct .strongBinder)
  | .map => some (.direct .map)
  | .list => some (.direct .list)
  | .userData => some (.userData t.qualifiedName)
  | .interface _ => some (.interface t.qualifiedName)
  | .genericList creator =>
    if creator = STRING_TYPE.creatorName then some (.direct .stringList)
    else if creator = IBINDER_TYPE.creatorName then some (.direct .binderList)
    else some (.direct (.typedList creator))
  | _ => none

def Ty.wireArray (t : Ty) : Option Format :=
  match t.cls with
  | .basic _ _ .writeByteArray .createByteArray .readByteArray => some .byteArray
  | .basic _ _ .writeIntArray .createIntArray .readIntArray => some .intArray
  | .basic _ _ .writeLongArray .createLongArray .readLongArray => some .longArray
  | .basic _ _ .writeFloatArray .createFloatArray .readFloatArray => some .floatArray
  | .basic _ _ .writeDoubleArray .createDoubleArray .readDoubleArray => some .doubleArray
  | .boolean => some .booleanArray
  | .char => some .charArray
  | .string => some .stringArray
  | .iBinder => some .binderArray
  | .userData => some (.typedArray (t.qualifiedName ++ ".CREATOR"))
  | _ => none

/-- How the values of a type with so many brackets travel. -/
def Ty.wire (t : Ty) (dimension : ℕ) : Option Wire :=
  if dimension = 0 then t.wireScalar
  else if dimension = 1 then t.wireArray.map .direct
  else none

namespace Wire

/-- The values that travel so. -/
def Holds (w : Wire) (v : Value O) : Prop :=
  match w with
  | direct fmt => fmt.Holds v
  | boolean => ∃ b, v = .bool b
  | char => ∃ c, v = .char c
  | charSequence => v = .null ∨ ∃ o, v = .charSequence o
  | userData q => IsUserData q v
  | interface q => v = .null ∨ ∃ b, v = .interface q b

/-- The words of a value. -/
def words (A : Android W O) (flags : BitVec 32) (w : Wire) (v : Value O) : Option (List W) :=
  match w, v with
  | direct fmt, v => A.write fmt.writer (v :: fmt.writeArgs flags)
  | boolean, .bool b => A.write .writeInt [.int (if b then 1 else 0)]
  | char, .char c => A.write .writeInt [.int (c.setWidth 32)]
  | charSequence, .null => A.write .writeInt [.int 0]
  | charSequence, .charSequence o =>
    (A.write .writeInt [.int 1]).map (· ++ A.writeCharSequence flags o)
  | userData _, .null => A.write .writeInt [.int 0]
  | userData q, .userData _ o => (A.write .writeInt [.int 1]).map (· ++ A.writeUserData q flags o)
  | interface _, .null => A.write .writeStrongBinder [.null]
  | interface _, .interface _ b => A.write .writeStrongBinder [.binder b]
  | _, _ => none

end Wire

/-- The flag for values that are returned. -/
def flagsOf (returnValue : Bool) : BitVec 32 := if returnValue then 1 else 0

variable {A : Android W O} {env : Env W O σ} {fmt : Format} {w : Wire} {t : Ty} {x y : Value O}
  {v parcel : Variable} {f f' : Frame W O σ} {p : Parcel W} {ws rest : List W} {flags : BitVec 32}

/-! ## Methods of `Parcel` -/

variable {m : ParcelMethod} {arguments : List Expression} {vs : List (Value O)}

theorem eval_callParcel (hargs : evalAll env arguments f = (.ok vs, f)) :
    eval env (Ty.callParcel parcel m arguments) f =
      parcelCall env.toAndroid parcel.name m (arguments.head?.bind Expression.var?) vs f := by
  rw [Ty.callParcel, eval, bind_ok hargs]

theorem eval_write (hm : m.mode = .write) (hargs : evalAll env arguments f = (.ok vs, f))
    (hp : f.parcels parcel.name = some p) (hws : env.write m vs = some ws) :
    eval env (Ty.callParcel parcel m arguments) f =
      (.ok .null, f.setParcel parcel.name (p.write ws)) := by
  rw [eval_callParcel hargs, parcelCall, bind_ok (getParcel_run hp), hm]
  dsimp only
  rw [hws]
  rfl

theorem eval_create (hm : m.mode = .create) (hargs : evalAll env arguments f = (.ok vs, f))
    (hp : f.parcels parcel.name = some p) (hread : env.read m vs p.after = some (x, rest)) :
    eval env (Ty.callParcel parcel m arguments) f =
      (.ok x, f.setParcel parcel.name (p.readTo rest)) := by
  rw [eval_callParcel hargs, parcelCall, bind_ok (getParcel_run hp), hm]
  dsimp only
  rw [hread]
  rfl

theorem eval_fill (hm : m.mode = .fill)
    (hargs : evalAll env (.variable v :: arguments) f = (.ok vs, f))
    (hp : f.parcels parcel.name = some p) (hread : env.read m vs p.after = some (x, rest)) :
    eval env (Ty.callParcel parcel m (.variable v :: arguments)) f =
      (.ok .null, (f.setParcel parcel.name (p.readTo rest)).set v.name x) := by
  rw [eval_callParcel hargs, parcelCall, bind_ok (getParcel_run hp), hm]
  dsimp only
  rw [hread]
  rfl

/-- An integer is read back. -/
theorem Android.Documented.int (hA : A.Documented) (n : BitVec 32) :
    ∃ ws, A.write .writeInt [.int n] = some ws ∧
      ∀ rest, A.read .readInt [] (ws ++ rest) = some (.int n, rest) :=
  hA.create .int ⟨n, rfl⟩ 0

theorem eval_writeInt {n : ℤ} (hp : f.parcels parcel.name = some p)
    (hws : env.write .writeInt [.int (BitVec.ofInt 32 n)] = some ws) :
    exec env (.expression (Ty.callParcel parcel .writeInt [.literal (.int n)])) f =
      (.ok none, f.setParcel parcel.name (p.write ws)) :=
  exec_expression_run (eval_write rfl (evalAll_cons rfl evalAll_nil) hp hws)

/-- A test whether there is an object. -/
theorem eval_ne_null (env : Env W O σ) (hv : f.vars v.name = some x) :
    ∃ b, compareValues .ne x .null = some b ∧
      eval env (.comparison (.variable v) .ne (.literal .null)) f = (.ok (.bool b), f) := by
  have hcompare : ∃ b, compareValues .ne x .null = some b := by cases x <;> exact ⟨_, rfl⟩
  rcases hcompare with ⟨b, hb⟩
  refine ⟨b, hb, ?_⟩
  rw [eval, bind_ok (eval_variable hv)]
  show (eval env (.literal .null) >>= fun r => evalCompare .ne x r) f = _
  rw [bind_ok (show eval env (.literal .null) f = (.ok .null, f) from rfl), evalCompare, hb]
  rfl

/-! ## Writing -/

theorem Wire.words_of_holds (hA : A.Documented) (hx : w.Holds x) (flags : BitVec 32) :
    ∃ ws, w.words A flags x = some ws := by
  cases w with
  | direct fmt =>
      rcases hA.create fmt hx flags with ⟨ws, hws, -⟩
      exact ⟨ws, hws⟩
  | boolean =>
      rcases hx with ⟨b, rfl⟩
      rcases hA.int (if b then 1 else 0) with ⟨ws, hws, -⟩
      exact ⟨ws, hws⟩
  | char =>
      rcases hx with ⟨c, rfl⟩
      rcases hA.int (c.setWidth 32) with ⟨ws, hws, -⟩
      exact ⟨ws, hws⟩
  | charSequence =>
      rcases hx with rfl | ⟨o, rfl⟩
      · rcases hA.int 0 with ⟨ws, hws, -⟩
        exact ⟨ws, hws⟩
      · rcases hA.int 1 with ⟨ws, hws, -⟩
        exact ⟨_, by rw [Wire.words, hws, Option.map_some]⟩
  | userData q =>
      rcases hx with rfl | ⟨o, rfl⟩
      · rcases hA.int 0 with ⟨ws, hws, -⟩
        exact ⟨ws, hws⟩
      · rcases hA.int 1 with ⟨ws, hws, -⟩
        exact ⟨_, by rw [Wire.words, hws, Option.map_some]⟩
  | interface q =>
      rcases hx with rfl | ⟨b, rfl⟩
      · rcases hA.create .strongBinder (.inl rfl) 0 with ⟨ws, hws, -⟩
        exact ⟨ws, hws⟩
      · rcases hA.create .strongBinder (.inr ⟨b, rfl⟩) 0 with ⟨ws, hws, -⟩
        exact ⟨ws, hws⟩

theorem exec_writeFlagged_null (hv : f.vars v.name = some .null)
    (hp : f.parcels parcel.name = some p) (hws : env.write .writeInt [.int 0] = some ws)
    (write : Expression) :
    execAll env (Ty.writeFlagged v parcel write) f =
      (.ok none, f.setParcel parcel.name (p.write ws)) := by
  refine execAll_singleton ?_
  rcases eval_ne_null env hv with ⟨b, hb, heval⟩
  cases hb
  rw [exec, bind_ok heval]
  exact execAll_singleton (eval_writeInt hp hws)

theorem exec_writeFlagged {write : Expression} (hv : f.vars v.name = some x)
    (hx : compareValues .ne x .null = some true) (hp : f.parcels parcel.name = some p)
    (hws : env.write .writeInt [.int 1] = some ws)
    (hwrite : eval env write (f.setParcel parcel.name (p.write ws)) = (.ok y, f')) :
    execAll env (Ty.writeFlagged v parcel write) f = (.ok none, f') := by
  refine execAll_singleton ?_
  rcases eval_ne_null env hv with ⟨b, hb, heval⟩
  rw [hx] at hb
  cases hb
  rw [exec, bind_ok heval]
  show execAll env [_, _] f = _
  rw [execAll_cons (eval_writeInt hp hws)]
  exact execAll_singleton (exec_expression_run hwrite)

theorem eval_callOn {name : CallName} {arguments : List Expression}
    (h : ∀ m, name ≠ .parcel m) :
    eval env (.methodCall (.variable v) name arguments) f = callOn env v.name name arguments f := by
  rw [eval]
  exact h

theorem eval_callStatic {name : CallName} {arguments : List Expression} (h : name ≠ .asInterface) :
    eval env (.staticCall t name arguments) f = callStatic env.toAndroid t name arguments f := by
  rw [eval]
  exact fun _ heq _ => h heq

theorem eval_writeUserData {q : String} {o : O} (hv : f.vars v.name = some (.userData q o))
    (hp : f.parcels parcel.name = some p) (returnValue : Bool) :
    eval env (.methodCall (.variable v) .writeToParcel
        [.variable parcel, Ty.buildWriteToParcelFlags returnValue]) f =
      (.ok .null,
        f.setParcel parcel.name (p.write (env.writeUserData q (flagsOf returnValue) o))) := by
  cases returnValue <;>
  · rw [eval_callOn (by simp), Ty.buildWriteToParcelFlags, callOn, bind_ok (get_run hv)]
    dsimp only
    rw [bind_ok (getParcel_run hp)]
    rfl

theorem eval_writeCharSequence {o : O} (hv : f.vars v.name = some (.charSequence o))
    (hp : f.parcels parcel.name = some p) (returnValue : Bool) :
    eval env (.staticCall TEXT_UTILS_TYPE .writeToParcel
        [.variable v, .variable parcel, Ty.buildWriteToParcelFlags returnValue]) f =
      (.ok .null,
        f.setParcel parcel.name (p.write (env.writeCharSequence (flagsOf returnValue) o))) := by
  cases returnValue <;>
  · rw [eval_callStatic (by simp), Ty.buildWriteToParcelFlags, callStatic, bind_ok (get_run hv)]
    dsimp only
    rw [bind_ok (getParcel_run hp)]
    rfl

/-- `v != null ? v.asBinder() : null` -/
theorem eval_binderOf (hv : f.vars v.name = some x) :
    (x = .null → eval env (.ternary (.comparison (.variable v) .ne (.literal .null))
        (.methodCall (.variable v) .asBinder []) (.literal .null)) f = (.ok .null, f)) ∧
      ∀ q b, x = .interface q b →
        eval env (.ternary (.comparison (.variable v) .ne (.literal .null))
          (.methodCall (.variable v) .asBinder []) (.literal .null)) f = (.ok (.binder b), f) := by
  rcases eval_ne_null env hv with ⟨b, hb, heval⟩
  refine ⟨?_, ?_⟩
  · rintro rfl
    cases hb
    rw [eval, bind_ok heval]
    rfl
  · rintro q b rfl
    cases hb
    rw [eval, bind_ok heval]
    show eval env (.methodCall (.variable v) .asBinder []) f = _
    rw [eval_callOn (by simp), callOn, bind_ok (get_run hv)]
    rfl

/-! ## The code of a type -/

/-- The arguments in the code of `createArgs`. -/
def Format.createExpressions (fmt : Format) : List Expression :=
  match fmt with
  | .map | .list => [Ty.clVariable]
  | .typedArray c | .typedList c => [.literal (.creator c)]
  | _ => []

/-- The formats that need a class loader. -/
def Format.needsLoader (fmt : Format) : Bool := fmt == .map || fmt == .list

/-- The declaration of the class loader in front of a format that needs it. -/
def loaderCode (fmt : Format) (cl : Bool) : List Statement :=
  if fmt.needsLoader then Ty.ensureClassLoader cl else []

/-- The code for a single value, if that is one call. -/
theorem Ty.directCode (h : t.wireScalar = some (.direct fmt)) (v parcel : Variable) :
    (∀ returnValue, t.writeToParcel v parcel returnValue =
      [.expression (callParcel parcel fmt.writer [.variable v])]) ∧
    (∀ cl, t.createFromParcel v parcel cl =
      (loaderCode fmt cl ++ [assignParcel v parcel fmt.creator fmt.createExpressions],
        cl || fmt.needsLoader)) ∧
    ∀ m, fmt.filler = some m → ∀ cl, t.readFromParcel v parcel cl =
      (loaderCode fmt cl ++
          [.expression (callParcel parcel m (.variable v :: fmt.createExpressions))],
        cl || fmt.needsLoader) := by
  have hcreators : IBINDER_TYPE.creatorName ≠ STRING_TYPE.creatorName := by decide
  unfold Ty.wireScalar at h
  split at h
  all_goals try split at h
  all_goals try split at h
  all_goals cases h
  all_goals
    refine ⟨fun _ => ?_, fun cl => ?_, fun m hm cl => ?_⟩
    · simp [Ty.writeToParcel, Format.writer, *]
    · simp [Ty.createFromParcel, loaderCode, Format.needsLoader, Format.creator,
        Format.createExpressions, *]
    · cases hm
      try simp [Ty.readFromParcel, loaderCode, Format.needsLoader, Format.createExpressions, *]

theorem Ty.writeArgs_of_wire (h : t.wireScalar = some (.direct fmt)) (flags : BitVec 32) :
    (fmt.writeArgs flags : List (Value O)) = [] := by
  unfold Ty.wireScalar at h
  split at h
  all_goals try split at h
  all_goals try split at h
  all_goals cases h
  all_goals rfl

/-- The code for an array. -/
theorem Ty.arrayCode (env : Env W O σ) (h : t.wireArray = some fmt) (hv : v.type = t)
    (parcel : Variable) :
    (∀ returnValue, ∃ flags, t.writeArrayToParcel v parcel returnValue =
        [.expression (callParcel parcel fmt.writer (.variable v :: flags))] ∧
      ∀ f : Frame W O σ, evalAll env flags f = (.ok (fmt.writeArgs (flagsOf returnValue)), f)) ∧
    t.createArrayFromParcel v parcel = [assignParcel v parcel fmt.creator fmt.createExpressions] ∧
    fmt.needsLoader = false ∧
    ∃ m, fmt.filler = some m ∧ t.readArrayFromParcel v parcel =
      [.expression (callParcel parcel m (.variable v :: fmt.createExpressions))] := by
  unfold Ty.wireArray at h
  split at h
  all_goals cases h
  all_goals
    refine ⟨fun returnValue => ?_, ?_, rfl, _, rfl, ?_⟩
    · simp only [Ty.writeArrayToParcel, *]
      first
        | exact ⟨[], rfl, fun _ => rfl⟩
        | exact ⟨[buildWriteToParcelFlags returnValue], rfl, fun _ => by cases returnValue <;> rfl⟩
    · simp [Ty.createArrayFromParcel, Format.creator, Format.createExpressions, *]
    · simp [Ty.readArrayFromParcel, Format.createExpressions, *]

/-- The types whose code for a single value is not one call. -/
theorem Ty.cls_of_wire (h : t.wireScalar = some w) :
    match w with
    | .direct _ => True
    | .boolean => t.cls = .boolean
    | .char => t.cls = .char
    | .charSequence => t.cls = .charSequence
    | .userData q => t.cls = .userData ∧ q = t.qualifiedName
    | .interface q => (∃ oneway, t.cls = .interface oneway) ∧ q = t.qualifiedName := by
  unfold Ty.wireScalar at h
  split at h
  all_goals try split at h
  all_goals try split at h
  all_goals cases h
  all_goals simp [*]

/-! ## Writing -/

/-- The code for a single value writes the words of its type. -/
theorem writeToParcel_run (hw : t.wireScalar = some w) (hx : w.Holds x)
    (hv : f.vars v.name = some x) (hp : f.parcels parcel.name = some p) (returnValue : Bool)
    (hws : w.words env.toAndroid (flagsOf returnValue) x = some ws) :
    execAll env (t.writeToParcel v parcel returnValue) f =
      (.ok none, f.setParcel parcel.name (p.write ws)) := by
  have hcls := Ty.cls_of_wire hw
  cases w with
  | direct fmt =>
      rw [(Ty.directCode hw v parcel).1]
      rw [Wire.words, Ty.writeArgs_of_wire hw] at hws
      have hm : fmt.writer.mode = .write := by cases fmt <;> rfl
      exact execAll_singleton (exec_expression_run
        (eval_write hm (evalAll_cons (eval_variable hv) evalAll_nil) hp hws))
  | boolean =>
      rcases hx with ⟨b, rfl⟩
      have heval : eval env (.ternary (.variable v) (.literal (.int 1)) (.literal (.int 0))) f =
          (.ok (.int (if b then 1 else 0)), f) := by
        rw [eval, bind_ok (eval_variable hv)]
        cases b <;> rfl
      rw [Ty.writeToParcel, hcls]
      exact execAll_singleton (exec_expression_run
        (eval_write rfl (evalAll_cons heval evalAll_nil) hp hws))
  | char =>
      rcases hx with ⟨c, rfl⟩
      have heval : eval env (.cast INT_TYPE (.variable v)) f = (.ok (.int (c.setWidth 32)), f) := by
        rw [eval, bind_ok (eval_variable hv)]
        rfl
      rw [Ty.writeToParcel, hcls]
      exact execAll_singleton (exec_expression_run
        (eval_write rfl (evalAll_cons heval evalAll_nil) hp hws))
  | charSequence =>
      -- a word says whether there is one; it is written before the object is asked
      rw [Ty.writeToParcel, hcls]
      rcases hx with rfl | ⟨o, rfl⟩
      · exact exec_writeFlagged_null hv hp hws _
      · rw [Wire.words, Option.map_eq_some_iff] at hws
        rcases hws with ⟨ws', hws', rfl⟩
        refine exec_writeFlagged (y := .null) hv rfl hp hws' ?_
        have hp' := Frame.setParcel_parcels_self f parcel.name (p.write ws')
        have hv' :
            (f.setParcel parcel.name (p.write ws')).vars v.name = some (.charSequence o) := hv
        rw [eval_writeCharSequence hv' hp' returnValue, Frame.setParcel_setParcel,
          Parcel.write_write]
  | userData q =>
      rw [Ty.writeToParcel, hcls.1]
      rcases hx with rfl | ⟨o, rfl⟩
      · exact exec_writeFlagged_null hv hp hws _
      · rw [Wire.words, Option.map_eq_some_iff] at hws
        rcases hws with ⟨ws', hws', rfl⟩
        refine exec_writeFlagged (y := .null) hv rfl hp hws' ?_
        have hp' := Frame.setParcel_parcels_self f parcel.name (p.write ws')
        have hv' : (f.setParcel parcel.name (p.write ws')).vars v.name = some (.userData _ o) := hv
        rw [eval_writeUserData hv' hp' returnValue, Frame.setParcel_setParcel, Parcel.write_write]
  | interface q =>
      rcases hcls with ⟨⟨oneway, hcls⟩, rfl⟩
      -- `null` goes as the binder `null`, without a word in front
      rw [Ty.writeToParcel, hcls]
      rcases hx with rfl | ⟨b, rfl⟩
      · exact execAll_singleton (exec_expression_run
          (eval_write rfl (evalAll_cons ((eval_binderOf hv).1 rfl) evalAll_nil) hp hws))
      · exact execAll_singleton (exec_expression_run
          (eval_write rfl (evalAll_cons ((eval_binderOf hv).2 _ b rfl) evalAll_nil) hp hws))

/-- `generate_write_to_parcel` writes the words of the type. -/
theorem generateWriteToParcel_run (parcel : Variable) (hw : v.type.wire v.dimension = some w)
    (hx : w.Holds x) (hv : f.vars v.name = some x) (hp : f.parcels parcel.name = some p)
    (returnValue : Bool) (hws : w.words env.toAndroid (flagsOf returnValue) x = some ws) :
    execAll env (generateWriteToParcel v.type v parcel returnValue) f =
      (.ok none, f.setParcel parcel.name (p.write ws)) := by
  unfold Ty.wire at hw
  unfold generateWriteToParcel
  split at hw
  · next hdim =>
      rw [if_pos hdim]
      exact writeToParcel_run hw hx hv hp returnValue hws
  · next hdim =>
      rw [if_neg hdim]
      split at hw
      · next hdim' =>
          rw [if_pos hdim']
          rw [Option.map_eq_some_iff] at hw
          rcases hw with ⟨fmt, hfmt, rfl⟩
          rcases (Ty.arrayCode env hfmt rfl parcel).1 returnValue with ⟨flags, hcode, hflags⟩
          rw [hcode]
          have hm : fmt.writer.mode = .write := by cases fmt <;> rfl
          exact execAll_singleton (exec_expression_run
            (eval_write hm (evalAll_cons (eval_variable hv) (hflags f)) hp hws))
      · cases hw

/-! ## Creating -/

/-- The values that are read with the class loader. -/
def Wire.needsLoader : Wire → Bool
  | .direct fmt => fmt.needsLoader
  | _ => false

/-- The class loader has been declared where the generator believes so. -/
def HasLoader (cl : Bool) (f : Frame W O σ) : Prop := cl = true → f.vars "cl" = some .classLoader

/-- `s` has received a value that was read from a parcel, with or without the class
loader. -/
structure Frame.Receives (f f' : Frame W O σ) (parcel : String) (p : Parcel W) (s : String)
    (x : Value O) (loader : Bool) : Prop where
  value : f'.vars s = some x
  parcels : f'.parcels = Function.update f.parcels parcel (some p)
  world : f'.world = f.world
  others : ∀ y, y ≠ s → (loader = true → y ≠ "cl") → f'.vars y = f.vars y

theorem Frame.receives_set (f : Frame W O σ) (parcel : String) (p : Parcel W) (s : String)
    (x : Value O) (loader : Bool) :
    f.Receives ((f.setParcel parcel p).set s x) parcel p s x loader where
  value := Frame.set_vars_self ..
  parcels := rfl
  world := rfl
  others := fun _ hy _ => Frame.set_vars_of_ne hy _

theorem HasLoader.set {cl : Bool} (h : HasLoader cl f) {s : String} (hs : s ≠ "cl")
    (parcel : String) (p : Parcel W) (x : Value O) :
    HasLoader cl ((f.setParcel parcel p).set s x) := by
  intro hcl
  rw [Frame.set_vars_of_ne hs.symm]
  exact h hcl

/-- The class loader is declared once. -/
theorem loaderCode_run {cl : Bool} (h : HasLoader cl f) (env : Env W O σ) (fmt : Format) :
    ∃ f', execAll env (loaderCode fmt cl) f = (.ok none, f') ∧
      HasLoader (cl || fmt.needsLoader) f' ∧ f'.parcels = f.parcels ∧ f'.world = f.world ∧
        ∀ y, (fmt.needsLoader = true → y ≠ "cl") → f'.vars y = f.vars y := by
  unfold loaderCode
  cases fmt.needsLoader with
  | false => exact ⟨f, rfl, by simpa using h, rfl, rfl, fun _ _ => rfl⟩
  | true =>
      cases cl with
      | true => exact ⟨f, rfl, by simpa using h, rfl, rfl, fun _ _ => rfl⟩
      | false =>
          exact ⟨f.set "cl" .classLoader, rfl, fun _ => Frame.set_vars_self .., rfl, rfl,
            fun _ hy => Frame.set_vars_of_ne (hy rfl) _⟩

theorem evalAll_createExpressions (h : HasLoader fmt.needsLoader f) (env : Env W O σ) :
    evalAll env fmt.createExpressions f = (.ok fmt.createArgs, f) := by
  cases fmt
  case map => exact evalAll_cons (eval_variable (h rfl)) evalAll_nil
  case list => exact evalAll_cons (eval_variable (h rfl)) evalAll_nil
  all_goals rfl

theorem exec_assignment {e : Expression} (h : eval env e f = (.ok x, f')) :
    exec env (.expression (.assignment v e none)) f = (.ok none, f'.set v.name x) := by
  refine exec_expression_run (x := x) ?_
  rw [eval, bind_ok h]
  rfl

/-- One call creates what the words of a format stand for. -/
theorem assignParcel_run (hA : env.toAndroid.Documented) (hx : fmt.Holds x)
    (hws : env.write fmt.writer (x :: fmt.writeArgs flags) = some ws)
    (hp : f.parcels parcel.name = some p) (hafter : p.after = ws ++ rest)
    (hloader : HasLoader fmt.needsLoader f) :
    execAll env [Ty.assignParcel v parcel fmt.creator fmt.createExpressions] f =
      (.ok none, (f.setParcel parcel.name ⟨p.before ++ ws, rest⟩).set v.name x) := by
  rcases hA.create fmt hx flags with ⟨ws', hws', hread⟩
  rw [hws] at hws'
  cases hws'
  have hm : fmt.creator.mode = .create := by cases fmt <;> rfl
  have hread' : env.read fmt.creator fmt.createArgs p.after = some (x, rest) := by
    rw [hafter]
    exact hread rest
  refine execAll_singleton (exec_assignment ?_)
  rw [eval_create hm (evalAll_createExpressions hloader env) hp hread', Parcel.readTo_after hafter]

theorem eval_readInt {n : BitVec 32} (hA : env.toAndroid.Documented)
    (hws : env.write .writeInt [.int n] = some ws) (hp : f.parcels parcel.name = some p)
    (hafter : p.after = ws ++ rest) :
    eval env (Ty.callParcel parcel .readInt []) f =
      (.ok (.int n), f.setParcel parcel.name ⟨p.before ++ ws, rest⟩) := by
  rcases hA.int n with ⟨ws', hws', hread⟩
  rw [hws] at hws'
  cases hws'
  have hread' : env.read .readInt [] p.after = some (.int n, rest) := by
    rw [hafter]
    exact hread rest
  rw [eval_create rfl evalAll_nil hp hread', Parcel.readTo_after hafter]

/-- The test whether an object follows. -/
theorem eval_zero_ne {n : BitVec 32} (hA : env.toAndroid.Documented)
    (hws : env.write .writeInt [.int n] = some ws) (hp : f.parcels parcel.name = some p)
    (hafter : p.after = ws ++ rest) :
    eval env (.comparison (.literal (.int 0)) .ne (Ty.callParcel parcel .readInt [])) f =
      (.ok (.bool (0 != n)), f.setParcel parcel.name ⟨p.before ++ ws, rest⟩) := by
  rw [eval, bind_ok (show eval env (.literal (.int 0)) f = (.ok (.int 0), f) from rfl),
    bind_ok (eval_readInt hA hws hp hafter)]
  rfl

theorem createFlagged_null {create : Expression} (hA : env.toAndroid.Documented)
    (hws : env.write .writeInt [.int 0] = some ws) (hp : f.parcels parcel.name = some p)
    (hafter : p.after = ws ++ rest) :
    execAll env (Ty.createFlagged v parcel create) f =
      (.ok none, (f.setParcel parcel.name ⟨p.before ++ ws, rest⟩).set v.name .null) := by
  refine execAll_singleton ?_
  rw [exec, bind_ok (eval_zero_ne hA hws hp hafter)]
  exact execAll_singleton (exec_assignment rfl)

theorem createFlagged_run {create : Expression} (hA : env.toAndroid.Documented)
    (hws : env.write .writeInt [.int 1] = some ws) (hp : f.parcels parcel.name = some p)
    (hafter : p.after = ws ++ rest)
    (hcreate : eval env create (f.setParcel parcel.name ⟨p.before ++ ws, rest⟩) = (.ok x, f')) :
    execAll env (Ty.createFlagged v parcel create) f = (.ok none, f'.set v.name x) := by
  refine execAll_singleton ?_
  rw [exec, bind_ok (eval_zero_ne hA hws hp hafter)]
  exact execAll_singleton (exec_assignment hcreate)

theorem eval_createUserData (hA : env.toAndroid.Documented) (t : Ty) (before : List W)
    (flags : BitVec 32) (o : O) (rest : List W) :
    eval env (.staticCall t .createFromParcel [.variable parcel])
        (f.setParcel parcel.name ⟨before, env.writeUserData t.qualifiedName flags o ++ rest⟩) =
      (.ok (.userData t.qualifiedName o), f.setParcel parcel.name
        ⟨before ++ env.writeUserData t.qualifiedName flags o, rest⟩) := by
  rw [eval_callStatic (by simp), callStatic,
    bind_ok (getParcel_run (Frame.setParcel_parcels_self ..)), hA.userData]
  show (Except.ok _, (f.setParcel parcel.name _).setParcel parcel.name (Parcel.readTo _ rest)) = _
  rw [Parcel.readTo_after rfl, Frame.setParcel_setParcel]

theorem eval_createCharSequence (hA : env.toAndroid.Documented) (t : Ty) (before : List W)
    (flags : BitVec 32) (o : O) (rest : List W) :
    eval env (.staticCall t .createCharSequenceFromParcel [.variable parcel])
        (f.setParcel parcel.name ⟨before, env.writeCharSequence flags o ++ rest⟩) =
      (.ok (.charSequence o), f.setParcel parcel.name
        ⟨before ++ env.writeCharSequence flags o, rest⟩) := by
  rw [eval_callStatic (by simp), callStatic,
    bind_ok (getParcel_run (Frame.setParcel_parcels_self ..)), hA.charSequence]
  show (Except.ok _, (f.setParcel parcel.name _).setParcel parcel.name (Parcel.readTo _ rest)) = _
  rw [Parcel.readTo_after rfl, Frame.setParcel_setParcel]

/-- `T.Stub.asInterface(parcel.readStrongBinder())` -/
theorem eval_asInterface (hA : env.toAndroid.Documented) (hx : IsBinder x)
    (hws : env.write .writeStrongBinder [x] = some ws) (hp : f.parcels parcel.name = some p)
    (hafter : p.after = ws ++ rest) :
    eval env (.staticCall t .asInterface [Ty.callParcel parcel .readStrongBinder []]) f =
      asInterface t x (f.setParcel parcel.name ⟨p.before ++ ws, rest⟩) := by
  rcases hA.create .strongBinder hx 0 with ⟨ws', hws', hread⟩
  have hws'' : env.write .writeStrongBinder [x] = some ws' := hws'
  rw [hws] at hws''
  cases hws''
  have hread' : env.read .readStrongBinder [] p.after = some (x, rest) := by
    rw [hafter]
    exact hread rest
  rw [eval, bind_ok (eval_create rfl evalAll_nil hp hread'), Parcel.readTo_after hafter]

/-- The code for a single value creates what its words stand for. -/
theorem createFromParcel_run {cl : Bool} (hA : env.toAndroid.Documented)
    (hw : t.wireScalar = some w) (htype : v.type = t) (hx : w.Holds x)
    (hws : w.words env.toAndroid flags x = some ws) (hp : f.parcels parcel.name = some p)
    (hafter : p.after = ws ++ rest) (hcl : HasLoader cl f) (hname : v.name ≠ "cl") :
    ∃ f', execAll env (t.createFromParcel v parcel cl).1 f = (.ok none, f') ∧
      f.Receives f' parcel.name ⟨p.before ++ ws, rest⟩ v.name x w.needsLoader ∧
        HasLoader (t.createFromParcel v parcel cl).2 f' := by
  have hcls := Ty.cls_of_wire hw
  have hset := f.receives_set parcel.name ⟨p.before ++ ws, rest⟩ v.name x w.needsLoader
  have hloader := hcl.set hname parcel.name ⟨p.before ++ ws, rest⟩ x
  cases w with
  | direct fmt =>
      -- the only kind that may declare `cl` first
      rw [(Ty.directCode hw v parcel).2.1]
      rcases loaderCode_run hcl env fmt with ⟨f₁, hrun, hcl₁, hparcels, hworld, hvars⟩
      have hneeds : HasLoader fmt.needsLoader f₁ := fun h => hcl₁ (by rw [h, Bool.or_true])
      rw [execAll_append hrun, assignParcel_run hA hx hws (hparcels ▸ hp) hafter hneeds]
      refine ⟨_, rfl, ⟨Frame.set_vars_self .., ?_, hworld, fun y hy hy' => ?_⟩,
        hcl₁.set hname _ _ _⟩
      · show Function.update f₁.parcels _ _ = _
        rw [hparcels]
      · rw [Frame.set_vars_of_ne hy]
        exact hvars y hy'
  | boolean =>
      rcases hx with ⟨b, rfl⟩
      rw [Ty.createFromParcel, hcls]
      refine ⟨_, execAll_singleton (exec_assignment (eval_zero_ne hA hws hp hafter)), ?_⟩
      cases b <;> exact ⟨hset, hloader⟩
  | char =>
      rcases hx with ⟨c, rfl⟩
      -- widened to an `int` and cut back, a `char` is the same
      have hcast : castTo t (.int (c.setWidth 32) : Value O) = .char c := by
        simp [castTo, hcls, BitVec.setWidth_setWidth_of_le]
      have heval : eval env (.assignment v (Ty.callParcel parcel .readInt []) (some t)) f =
          (.ok (.char c),
            (f.setParcel parcel.name ⟨p.before ++ ws, rest⟩).set v.name (.char c)) := by
        rw [eval, bind_ok (eval_readInt hA hws hp hafter)]
        simp only [hcast]
        rfl
      rw [Ty.createFromParcel, hcls]
      exact ⟨_, execAll_singleton (exec_expression_run heval), hset, hloader⟩
  | charSequence =>
      rw [Ty.createFromParcel, hcls]
      rcases hx with rfl | ⟨o, rfl⟩
      · exact ⟨_, createFlagged_null hA hws hp hafter, hset, hloader⟩
      · rw [Wire.words, Option.map_eq_some_iff] at hws
        rcases hws with ⟨ws', hws', rfl⟩
        rw [List.append_assoc] at hafter
        have hcreate := createFlagged_run (v := v) hA hws' hp hafter
          (eval_createCharSequence hA TEXT_UTILS_TYPE _ flags o rest)
        rw [List.append_assoc] at hcreate
        exact ⟨_, hcreate, hset, hloader⟩
  | userData q =>
      rcases hcls with ⟨hcls, rfl⟩
      rw [Ty.createFromParcel, hcls]
      rcases hx with rfl | ⟨o, rfl⟩
      · exact ⟨_, createFlagged_null hA hws hp hafter, hset, hloader⟩
      · rw [Wire.words, Option.map_eq_some_iff] at hws
        rcases hws with ⟨ws', hws', rfl⟩
        rw [List.append_assoc] at hafter
        have hcreate := createFlagged_run (v := v) hA hws' hp hafter
          (eval_createUserData hA t _ flags o rest)
        rw [List.append_assoc] at hcreate
        rw [htype]
        exact ⟨_, hcreate, hset, hloader⟩
  | interface q =>
      rcases hcls with ⟨⟨oneway, hcls⟩, rfl⟩
      rw [Ty.createFromParcel, hcls]
      rcases hx with rfl | ⟨b, rfl⟩
      · have heval := eval_asInterface (t := v.type) hA (.inl rfl) hws hp hafter
        exact ⟨_, execAll_singleton (exec_assignment heval), hset, hloader⟩
      · have heval := eval_asInterface (t := v.type) hA (.inr ⟨b, rfl⟩) hws hp hafter
        -- what `asInterface` makes has the class of the type, not of the object
        have hset' : f.Receives _ parcel.name _ v.name (.interface v.type.qualifiedName b) false :=
          f.receives_set parcel.name ⟨p.before ++ ws, rest⟩ v.name _ false
        refine ⟨_, execAll_singleton (exec_assignment heval), ?_, hcl.set hname _ _ _⟩
        rw [htype] at hset' ⊢
        exact hset'

/-- `generate_create_from_parcel` creates what the words stand for. -/
theorem generateCreateFromParcel_run {cl : Bool} (parcel : Variable)
    (hA : env.toAndroid.Documented) (hw : v.type.wire v.dimension = some w) (hx : w.Holds x)
    (hws : w.words env.toAndroid flags x = some ws) (hp : f.parcels parcel.name = some p)
    (hafter : p.after = ws ++ rest) (hcl : HasLoader cl f) (hname : v.name ≠ "cl") :
    ∃ f', execAll env (generateCreateFromParcel v.type v parcel cl).1 f = (.ok none, f') ∧
      f.Receives f' parcel.name ⟨p.before ++ ws, rest⟩ v.name x w.needsLoader ∧
        HasLoader (generateCreateFromParcel v.type v parcel cl).2 f' := by
  unfold Ty.wire at hw
  unfold generateCreateFromParcel
  split at hw
  · next hdim =>
      rw [if_pos hdim]
      exact createFromParcel_run hA hw rfl hx hws hp hafter hcl hname
  · next hdim =>
      rw [if_neg hdim]
      split at hw
      · next hdim' =>
          rw [if_pos hdim']
          rw [Option.map_eq_some_iff] at hw
          rcases hw with ⟨fmt, hfmt, rfl⟩
          rcases Ty.arrayCode env hfmt rfl parcel with ⟨-, hcode, hneeds, -⟩
          have hloader : HasLoader fmt.needsLoader f := fun h => absurd (hneeds ▸ h) (by simp)
          rw [hcode, assignParcel_run hA hx hws hp hafter hloader]
          exact ⟨_, rfl, f.receives_set .., hcl.set hname _ _ _⟩
      · cases hw

/-! ## Reading into an object -/

/-- The value can be read into the object that is there. -/
def Wire.Restorable (w : Wire) (old x : Value O) : Prop :=
  match w with
  | .direct fmt => fmt.filler.isSome ∧ Fits old x
  | .userData q => x = .null ∨ ∃ o o', old = .userData q o ∧ x = .userData q o'
  | _ => False

/-- What is in the object afterwards. -/
def Wire.restored (A : Android W O) (w : Wire) (old x : Value O) : Value O :=
  match w, x with
  | .direct fmt, x => filled A fmt old x
  | _, .null => old
  | _, x => x

theorem fill_run {cl : Bool} {m : ParcelMethod} {old : Value O} (hA : env.toAndroid.Documented)
    (hm : fmt.filler = some m) (hx : fmt.Holds x) (hfits : Fits old x)
    (hold : f.vars v.name = some old)
    (hws : env.write fmt.writer (x :: fmt.writeArgs flags) = some ws)
    (hp : f.parcels parcel.name = some p) (hafter : p.after = ws ++ rest) (hcl : HasLoader cl f)
    (hname : v.name ≠ "cl") :
    ∃ f', execAll env (loaderCode fmt cl ++
        [.expression (Ty.callParcel parcel m (.variable v :: fmt.createExpressions))]) f =
          (.ok none, f') ∧
      f.Receives f' parcel.name ⟨p.before ++ ws, rest⟩ v.name (filled env.toAndroid fmt old x)
        fmt.needsLoader ∧
        HasLoader (cl || fmt.needsLoader) f' := by
  rcases loaderCode_run hcl env fmt with ⟨f₁, hrun, hcl₁, hparcels, hworld, hvars⟩
  have hneeds : HasLoader fmt.needsLoader f₁ := fun h => hcl₁ (by rw [h, Bool.or_true])
  have hmode : m.mode = .fill := by cases fmt <;> cases hm <;> rfl
  have hold₁ : f₁.vars v.name = some old := (hvars _ fun _ => hname).trans hold
  have hread : env.read m (old :: fmt.createArgs) p.after =
      some (filled env.toAndroid fmt old x, rest) := by
    rw [hafter]
    exact hA.fill fmt hm hx hfits flags hws rest
  have heval := eval_fill hmode (evalAll_cons (eval_variable hold₁)
    (evalAll_createExpressions hneeds env)) (hparcels ▸ hp) hread
  rw [Parcel.readTo_after hafter] at heval
  rw [execAll_append hrun]
  refine ⟨_, execAll_singleton (exec_expression_run heval),
    ⟨Frame.set_vars_self .., ?_, hworld, fun y hy hy' => ?_⟩, hcl₁.set hname _ _ _⟩
  · show Function.update f₁.parcels _ _ = _
    rw [hparcels]
  · rw [Frame.set_vars_of_ne hy]
    exact hvars y hy'

theorem eval_readUserData (hA : env.toAndroid.Documented) {q : String} {old : O}
    (hold : f.vars v.name = some (.userData q old)) (parcel : Variable) (before : List W)
    (flags : BitVec 32) (o : O) (rest : List W) :
    eval env (.methodCall (.variable v) .readFromParcel [.variable parcel])
        (f.setParcel parcel.name ⟨before, env.writeUserData q flags o ++ rest⟩) =
      (.ok .null, (f.setParcel parcel.name ⟨before ++ env.writeUserData q flags o, rest⟩).set v.name
        (.userData q o)) := by
  have hold' : (f.setParcel parcel.name
      ⟨before, env.writeUserData q flags o ++ rest⟩).vars v.name = some (.userData q old) := hold
  rw [eval_callOn (by simp), callOn, bind_ok (get_run hold')]
  dsimp only
  rw [bind_ok (getParcel_run (Frame.setParcel_parcels_self ..)), hA.readUserData]
  show (Except.ok _, ((f.setParcel parcel.name _).setParcel parcel.name
    (Parcel.readTo _ rest)).set v.name _) = _
  rw [Parcel.readTo_after rfl, Frame.setParcel_setParcel]

/-- The code of a user class reads an object if one follows. -/
theorem readUserData_run {cl : Bool} {old : Value O} (hA : env.toAndroid.Documented)
    (hcls : v.type.cls = .userData) (hx : (Wire.userData v.type.qualifiedName).Holds x)
    (hfits : (Wire.userData v.type.qualifiedName).Restorable old x)
    (hold : f.vars v.name = some old)
    (hws : (Wire.userData v.type.qualifiedName).words env.toAndroid flags x = some ws)
    (hp : f.parcels parcel.name = some p) (hafter : p.after = ws ++ rest) (hcl : HasLoader cl f)
    (hname : v.name ≠ "cl") :
    ∃ f', execAll env (v.type.readFromParcel v parcel cl).1 f = (.ok none, f') ∧
      f.Receives f' parcel.name ⟨p.before ++ ws, rest⟩ v.name
        ((Wire.userData v.type.qualifiedName).restored env.toAndroid old x) false ∧
        HasLoader (v.type.readFromParcel v parcel cl).2 f' := by
  rw [Ty.readFromParcel, hcls]
  rcases hfits with rfl | ⟨o, o', rfl, rfl⟩
  · -- nothing follows, the object stays as it is
    refine ⟨f.setParcel parcel.name ⟨p.before ++ ws, rest⟩, execAll_singleton ?_,
      ⟨hold, rfl, rfl, fun _ _ _ => rfl⟩, hcl⟩
    rw [exec, bind_ok (eval_zero_ne hA hws hp hafter)]
    rfl
  · rw [Wire.words, Option.map_eq_some_iff] at hws
    rcases hws with ⟨ws', hws', rfl⟩
    rw [List.append_assoc] at hafter
    have hread := eval_readUserData hA hold parcel (p.before ++ ws') flags o' rest
    rw [List.append_assoc] at hread
    have hloader := hcl.set hname parcel.name
      ⟨p.before ++ (ws' ++ env.writeUserData v.type.qualifiedName flags o'), rest⟩
      (.userData v.type.qualifiedName o')
    refine ⟨_, execAll_singleton ?_, f.receives_set .., hloader⟩
    rw [exec, bind_ok (eval_zero_ne hA hws' hp hafter)]
    exact execAll_singleton (exec_expression_run hread)

/-- `generate_read_from_parcel` reads the value into the object. -/
theorem generateReadFromParcel_run {cl : Bool} {old : Value O} (parcel : Variable)
    (hA : env.toAndroid.Documented) (hw : v.type.wire v.dimension = some w) (hx : w.Holds x)
    (hfits : w.Restorable old x)
    (hold : f.vars v.name = some old) (hws : w.words env.toAndroid flags x = some ws)
    (hp : f.parcels parcel.name = some p) (hafter : p.after = ws ++ rest) (hcl : HasLoader cl f)
    (hname : v.name ≠ "cl") :
    ∃ f', execAll env (generateReadFromParcel v.type v parcel cl).1 f = (.ok none, f') ∧
      f.Receives f' parcel.name ⟨p.before ++ ws, rest⟩ v.name (w.restored env.toAndroid old x)
        w.needsLoader ∧
        HasLoader (generateReadFromParcel v.type v parcel cl).2 f' := by
  unfold Ty.wire at hw
  unfold generateReadFromParcel
  split at hw
  · next hdim =>
      rw [if_pos hdim]
      have hcls := Ty.cls_of_wire hw
      cases w with
      | direct fmt =>
          rcases Option.isSome_iff_exists.1 hfits.1 with ⟨m, hm⟩
          rw [(Ty.directCode hw v parcel).2.2 m hm]
          exact fill_run hA hm hx hfits.2 hold hws hp hafter hcl hname
      | userData q =>
          rcases hcls with ⟨hcls, rfl⟩
          exact readUserData_run hA hcls hx hfits hold hws hp hafter hcl hname
      -- the other kinds have no object to read into
      | _ => exact absurd hfits (by simp [Wire.Restorable])
  · next hdim =>
      rw [if_neg hdim]
      split at hw
      · next hdim' =>
          rw [if_pos hdim']
          rw [Option.map_eq_some_iff] at hw
          rcases hw with ⟨fmt, hfmt, rfl⟩
          rcases Ty.arrayCode env hfmt rfl parcel with ⟨-, -, hneeds, m, hm, hcode⟩
          rcases fill_run hA hm hx hfits.2 hold hws hp hafter hcl hname with ⟨f', hrun, hf', hcl'⟩
          rw [loaderCode, hneeds] at hrun
          rw [hcode]
          exact ⟨f', hrun, hf', by simpa [hneeds] using hcl'⟩
      · cases hw

end Aidl
