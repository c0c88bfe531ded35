import TestActivity.Aidl.Generate
import Mathlib.Logic.Function.Basic
import Mathlib.Data.BitVec

/-!
# The meaning of the generated code

The generated code is Java over the classes of Android. A value is what the
code can tell of an object: the content of an array or of a list, the binder
behind an interface. `Android` stands for the framework and the classes of the
user, `Env` also for the implementation of the interface and for the binder
driver. An expression or a statement acts on the variables and the parcels of
its method. Two arguments of a call are two objects: nothing is said of a list
that is passed twice.
-/

namespace Aidl

/-! ## Values -/

/-- Objects of user classes, maps and character sequences are opaque: a user class is
one with a `CREATOR`, and a map one that `writeMap` takes. -/
inductive Value (O : Type) where
  | null
  | bool (b : Bool)
  | byte (n : BitVec 8)
  | char (n : BitVec 16)
  | int (n : BitVec 32)
  | long (n : BitVec 64)
  | float (n : BitVec 32)
  | double (n : BitVec 64)
  | string (s : String)
  | charSequence (o : O)
  | binder (b : ℕ)
  /-- an object of the interface, known by its binder -/
  | interface (name : String) (b : ℕ)
  | map (o : O)
  | userData (name : String) (o : O)
  | array (xs : List (Value O))
  | list (xs : List (Value O))
  | classLoader
  | creator (name : String)
  | stringWriter (text : String)
  /-- a writer into the variable with this name -/
  | printWriter (target : String)
  | throwable (classes : List String) (message : String)

/-- An exception, with the names of its class and of those above it. -/
structure Throwable where
  classes : List String
  message : String
deriving DecidableEq, Repr

def Throwable.isRuntime (e : Throwable) : Prop := RUNTIME_EXCEPTION_TYPE.qualifiedName ∈ e.classes

/-- What the runtime throws of its own. -/
def runtimeException (message : String) : Throwable :=
  ⟨[RUNTIME_EXCEPTION_TYPE.qualifiedName], message⟩

/-- Why a run does not go on: it has no meaning in Java, or an exception. -/
inductive Exit where
  | stuck
  | threw (e : Throwable)
deriving DecidableEq, Repr

variable {W O σ α β : Type}

/-- The framework and the classes of the user. `none` is an exception. -/
structure Android (W O : Type) where
  /-- the words a method of `Parcel` writes for its arguments -/
  write : ParcelMethod → List (Value O) → Option (List W)
  /-- what it reads, and the words behind; for a method that reads into an object,
  its first argument, the new content -/
  read : ParcelMethod → List (Value O) → List W → Option (Value O × List W)
  writeInterfaceToken : String → List W
  enforceInterface : String → List W → Option (List W)
  noException : List W
  readException : List W → Option (Option Throwable × List W)
  writeUserData : String → BitVec 32 → O → List W
  createUserData : String → List W → Option (O × List W)
  readUserData : String → O → List W → Option (O × List W)
  newUserData : String → O
  writeCharSequence : BitVec 32 → O → List W
  createCharSequence : List W → Option (O × List W)
  putAll : O → O → O
  stackTrace : Throwable → String

/-- The framework, the implementation of the interface, and what becomes of a
transaction; `σ` is the state behind the implementation. -/
structure Env (W O σ : Type) extends Android W O where
  descriptor : String
  code : String → ℤ
  /-- the result and the contents of the arguments after the call -/
  implementation : String → List (Value O) → σ → Except Throwable (Value O) × List (Value O) × σ
  /-- the code, the data and whether it is one-way; the reply -/
  transact : BitVec 32 → List W → Bool → σ → Except Exit (List W) × σ

/-- What the methods of `Parcel` do: write, create an object, or read into one. -/
inductive ParcelMode where
  | write | create | fill
deriving DecidableEq, Repr

def ParcelMethod.mode : ParcelMethod → ParcelMode
  | .writeByte | .writeByteArray | .writeInt | .writeIntArray | .writeLong | .writeLongArray
  | .writeFloat | .writeFloatArray | .writeDouble | .writeDoubleArray | .writeBooleanArray
  | .writeCharArray | .writeString | .writeStringArray | .writeStrongBinder | .writeBinderArray
  | .writeMap | .writeList | .writeStringList | .writeBinderList | .writeTypedList
  | .writeTypedArray | .XXX => .write
  | .readByteArray | .readIntArray | .readLongArray | .readFloatArray | .readDoubleArray
  | .readBooleanArray | .readCharArray | .readStringArray | .readBinderArray | .readMap
  | .readList | .readStringList | .readBinderList | .readTypedList | .readTypedArray => .fill
  | _ => .create

/-! ## Running -/

/-- A parcel at its position: the words before it and behind it. -/
structure Parcel (W : Type) where
  before : List W := []
  after : List W := []

namespace Parcel

def content (p : Parcel W) : List W := p.before ++ p.after

/-- Words written at the position replace those behind it. -/
def write (p : Parcel W) (ws : List W) : Parcel W where
  before := p.before ++ ws
  after := p.after.drop ws.length

/-- The position after reading up to `rest`. -/
def readTo (p : Parcel W) (rest : List W) : Parcel W where
  before := p.before ++ p.after.take (p.after.length - rest.length)
  after := rest

def setDataPosition (p : Parcel W) (n : ℕ) : Parcel W where
  before := p.content.take n
  after := p.content.drop n

end Parcel

variable {p : Parcel W} {ws rest : List W}

/-- Writing twice is writing what both write. -/
theorem Parcel.write_write (p : Parcel W) (ws ws' : List W) :
    (p.write ws).write ws' = p.write (ws ++ ws') := by
  simp [Parcel.write]

@[simp] theorem Parcel.write_nil (p : Parcel W) : p.write [] = p := by
  simp [Parcel.write]

/-- What was written to an empty parcel is all of it. -/
theorem Parcel.content_write (ws : List W) : (Parcel.write {} ws).content = ws := by
  simp [Parcel.write, Parcel.content]

theorem Parcel.readTo_after (h : p.after = ws ++ rest) :
    p.readTo rest = ⟨p.before ++ ws, rest⟩ := by
  rw [Parcel.readTo, h, List.length_append, Nat.add_sub_cancel, List.take_left]

structure Frame (W O σ : Type) where
  vars : String → Option (Value O)
  parcels : String → Option (Parcel W)
  world : σ

namespace Frame

def set (f : Frame W O σ) (x : String) (v : Value O) : Frame W O σ :=
  { f with vars := Function.update f.vars x (some v) }

def setParcel (f : Frame W O σ) (x : String) (p : Parcel W) : Frame W O σ :=
  { f with parcels := Function.update f.parcels x (some p) }

/-- The contents of several variables. -/
def setAll (f : Frame W O σ) : List (String × Value O) → Frame W O σ
  | [] => f
  | (x, v) :: rest => (f.set x v).setAll rest

end Frame

variable {f f' : Frame W O σ} {x : Value O}

@[simp] theorem Frame.set_vars_self (f : Frame W O σ) (s : String) (x : Value O) :
    (f.set s x).vars s = some x := Function.update_self ..

theorem Frame.set_vars_of_ne {s s' : String} (h : s' ≠ s) (x : Value O) :
    (f.set s x).vars s' = f.vars s' := Function.update_of_ne h ..

@[simp] theorem Frame.set_parcels (f : Frame W O σ) (s : String) (x : Value O) :
    (f.set s x).parcels = f.parcels := rfl

@[simp] theorem Frame.set_world (f : Frame W O σ) (s : String) (x : Value O) :
    (f.set s x).world = f.world := rfl

@[simp] theorem Frame.setParcel_vars (f : Frame W O σ) (s : String) (p : Parcel W) :
    (f.setParcel s p).vars = f.vars := rfl

@[simp] theorem Frame.setParcel_world (f : Frame W O σ) (s : String) (p : Parcel W) :
    (f.setParcel s p).world = f.world := rfl

@[simp] theorem Frame.setParcel_parcels_self (f : Frame W O σ) (s : String) (p : Parcel W) :
    (f.setParcel s p).parcels s = some p := Function.update_self ..

theorem Frame.setParcel_parcels_of_ne {s s' : String} (h : s' ≠ s) (p : Parcel W) :
    (f.setParcel s p).parcels s' = f.parcels s' := Function.update_of_ne h ..

@[simp] theorem Frame.setParcel_setParcel (f : Frame W O σ) (s : String) (p p' : Parcel W) :
    (f.setParcel s p).setParcel s p' = f.setParcel s p' := by
  simp [Frame.setParcel]

theorem Frame.setParcel_self {s : String} (h : f.parcels s = some p) : f.setParcel s p = f := by
  rw [Frame.setParcel, ← h, Function.update_eq_self]

/-- An exception leaves the variables and parcels as they are. -/
def Exec (W O σ α : Type) : Type := Frame W O σ → Except Exit α × Frame W O σ

namespace Exec

protected def pure (a : α) : Exec W O σ α := fun f => (.ok a, f)

protected def bind (x : Exec W O σ α) (g : α → Exec W O σ β) : Exec W O σ β := fun f =>
  match x f with
  | (.ok a, f') => g a f'
  | (.error e, f') => (.error e, f')

instance : Monad (Exec W O σ) where
  pure := Exec.pure
  bind := Exec.bind

def stuck : Exec W O σ α := fun f => (.error .stuck, f)

def throw (e : Throwable) : Exec W O σ α := fun f => (.error (.threw e), f)

/-- The exception of a method that is called on `null` or given what it does not
take. -/
def throwRuntime : Exec W O σ α := Exec.throw (runtimeException "")

def get (x : String) : Exec W O σ (Value O) := fun f =>
  match f.vars x with
  | some v => (.ok v, f)
  | none => (.error .stuck, f)

def set (x : String) (v : Value O) : Exec W O σ Unit := fun f => (.ok (), f.set x v)

def setAll (xs : List (String × Value O)) : Exec W O σ Unit := fun f => (.ok (), f.setAll xs)

/-- A parcel that is `null` throws. -/
def getParcel (x : String) : Exec W O σ (Parcel W) := fun f =>
  match f.parcels x with
  | some p => (.ok p, f)
  | none => (.error (.threw (runtimeException "")), f)

def setParcel (x : String) (p : Parcel W) : Exec W O σ Unit := fun f => (.ok (), f.setParcel x p)

/-- A function of the state behind the implementation. -/
def onWorld (g : σ → Except Exit α × σ) : Exec W O σ α := fun f =>
  match g f.world with
  | (r, w) => (r, { f with world := w })

/-- `some` goes on, `none` throws. -/
def orThrow : Option α → Exec W O σ α
  | some a => pure a
  | none => throwRuntime

end Exec

open Exec

theorem Exec.bind_ok {e : Exec W O σ α} {a : α} {g : α → Exec W O σ β} (h : e f = (.ok a, f')) :
    (e >>= g) f = g a f' := by
  show Exec.bind e g f = _
  rw [Exec.bind, h]

theorem Exec.bind_error {e : Exec W O σ α} {exit : Exit} {g : α → Exec W O σ β}
    (h : e f = (.error exit, f')) : (e >>= g) f = (.error exit, f') := by
  show Exec.bind e g f = _
  rw [Exec.bind, h]

theorem Exec.get_run {s : String} (h : f.vars s = some x) : get s f = (.ok x, f) := by
  rw [get, h]

theorem Exec.getParcel_run {s : String} (h : f.parcels s = some p) :
    getParcel s f = (.ok p, f) := by
  rw [getParcel, h]

/-! ## Calls -/

def Expression.var? : Expression → Option String
  | .variable v => some v.name
  | _ => none

/-- `parcel.m(vs)`; `target` is the variable of the first argument. -/
def parcelCall (A : Android W O) (parcel : String) (m : ParcelMethod) (target : Option String)
    (vs : List (Value O)) : Exec W O σ (Value O) := do
  let p ← getParcel parcel
  match m.mode with
  | .write =>
    let ws ← orThrow (A.write m vs)
    setParcel parcel (p.write ws)
    pure .null
  | .create =>
    let (v, rest) ← orThrow (A.read m vs p.after)
    setParcel parcel (p.readTo rest)
    pure v
  | .fill =>
    let (v, rest) ← orThrow (A.read m vs p.after)
    setParcel parcel (p.readTo rest)
    match target with
    | some x => set x v
    | none => stuck
    pure .null

/-- `this.name(vs)`: the objects that were passed may have new contents. -/
def userCall (env : Env W O σ) (name : String) (targets : List String) (vs : List (Value O)) :
    Exec W O σ (Value O) := fun f =>
  match env.implementation name vs f.world with
  | (result, outs, w) =>
    let f' := Frame.setAll { f with world := w } (targets.zip outs)
    match result with
    | .ok v => (.ok v, f')
    | .error e => (.error (.threw e), f')

def compareValues : Op → Value O → Value O → Option Bool
  | .lt, .int a, .int b => some (a.toInt < b.toInt)
  | .eq, .int a, .int b => some (a == b)
  | .ne, .int a, .int b => some (a != b)
  | .eq, .null, .null => some true
  | .ne, .null, .null => some false
  | .eq, _, .null => some false
  | .ne, _, .null => some true
  | _, _, _ => none

/-- A cast between `char` and `int`, or one that changes nothing. -/
def castTo (t : Ty) (v : Value O) : Value O :=
  match t.cls, v with
  | .basic .writeInt .., .char c => .int (c.setWidth 32)
  | .char, .int n => .char (n.setWidth 16)
  | _, v => v

/-- The element a new array is filled with. -/
def Ty.defaultValue (t : Ty) : Value O :=
  match t.cls with
  | .basic .writeByte .. => .byte 0
  | .basic .writeInt .. => .int 0
  | .basic .writeLong .. => .long 0
  | .basic .writeFloat .. => .float 0
  | .basic .writeDouble .. => .double 0
  | .boolean => .bool false
  | .char => .char 0
  | _ => .null

/-- `new T(..)`. `java.util.Map` cannot be instantiated. -/
def newObject (A : Android W O) (t : Ty) (arguments : List Expression) : Exec W O σ (Value O) :=
  if t = SW_TYPE then pure (.stringWriter "")
  else if t = PW_TYPE then
    match arguments with
    | [.variable sw] => pure (.printWriter sw.name)
    | _ => stuck
  else
    match t.cls with
    | .list | .genericList _ => pure (.list [])
    | .userData => pure (.userData t.qualifiedName (A.newUserData t.qualifiedName))
    | _ => stuck

def newArrayOf (t : Ty) : Value O → Exec W O σ (Value O)
  | .int n =>
    if n.toInt < 0 then throwRuntime
    else pure (.array (List.replicate n.toNat t.defaultValue))
  | _ => stuck

/-- The calls of a method on a variable, apart from those of `Parcel` and of the
implementation; `vs` are the arguments that are no parcels. -/
def callOn (env : Env W O σ) (x : String) (name : CallName) (arguments : List Expression) :
    Exec W O σ (Value O) :=
  match name, arguments with
  | .recycle, [] => pure .null
  | .setDataPosition, [.variable pos] => do
    let p ← getParcel x
    match ← get pos.name with
    | .int n =>
      setParcel x (p.setDataPosition n.toNat)
      pure .null
    | _ => stuck
  | .writeInterfaceToken, [.literal .descriptor] => do
    let p ← getParcel x
    setParcel x (p.write (env.writeInterfaceToken env.descriptor))
    pure .null
  | .enforceInterface, [.literal .descriptor] => do
    let p ← getParcel x
    let rest ← orThrow (env.enforceInterface env.descriptor p.after)
    setParcel x (p.readTo rest)
    pure .null
  | .writeNoException, [] => do
    let p ← getParcel x
    setParcel x (p.write env.noException)
    pure .null
  | .readException, [] => do
    let p ← getParcel x
    let (e, rest) ← orThrow (env.readException p.after)
    match e with
    | some e => Exec.throw e
    | none =>
      setParcel x (p.readTo rest)
      pure .null
  | .transact, [.literal (.transaction m), .variable data, reply, .literal flags] => do
    let remote ← get x
    let p ← getParcel data.name
    match remote with
    | .binder _ =>
      let answer ← onWorld
        (env.transact (BitVec.ofInt 32 (env.code m)) p.content (flags == .flagOneway))
      match reply with
      | .variable reply => setParcel reply.name { after := answer }
      | _ => pure ()
      pure (.bool true)
    | _ => stuck
  | .asBinder, [] => do
    match ← get x with
    | .interface _ b => pure (.binder b)
    | _ => throwRuntime
  | .writeToParcel, [.variable parcel, .literal flags] => do
    match ← get x with
    | .userData q o =>
      let p ← getParcel parcel.name
      let flags := if flags = .writeReturnValue then 1 else 0
      setParcel parcel.name (p.write (env.writeUserData q flags o))
      pure .null
    | _ => throwRuntime
  | .readFromParcel, [.variable parcel] => do
    match ← get x with
    | .userData q o =>
      let p ← getParcel parcel.name
      let (o, rest) ← orThrow (env.readUserData q o p.after)
      setParcel parcel.name (p.readTo rest)
      set x (.userData q o)
      pure .null
    | _ => throwRuntime
  | .printStackTrace, [] => pure .null
  | .printStackTrace, [.variable pw] => do
    match ← get x, ← get pw.name with
    | .throwable classes message, .printWriter target =>
      match ← get target with
      | .stringWriter text =>
        set target (.stringWriter (text ++ env.stackTrace ⟨classes, message⟩))
        pure .null
      | _ => stuck
    | _, _ => stuck
  | .toString, [] => do
    match ← get x with
    | .stringWriter text => pure (.string text)
    | _ => stuck
  | .close, [] => pure .null
  | _, _ => stuck

/-- The calls of a method of a class. -/
def callStatic (A : Android W O) (t : Ty) (name : CallName) (arguments : List Expression) :
    Exec W O σ (Value O) :=
  match name, arguments with
  | .writeToParcel, [.variable v, .variable parcel, .literal flags] => do
    match ← get v.name with
    | .charSequence o =>
      let p ← getParcel parcel.name
      let flags := if flags = .writeReturnValue then 1 else 0
      setParcel parcel.name (p.write (A.writeCharSequence flags o))
      pure .null
    | _ => throwRuntime
  | .createCharSequenceFromParcel, [.variable parcel] => do
    let p ← getParcel parcel.name
    let (o, rest) ← orThrow (A.createCharSequence p.after)
    setParcel parcel.name (p.readTo rest)
    pure (.charSequence o)
  | .createFromParcel, [.variable parcel] => do
    let p ← getParcel parcel.name
    let (o, rest) ← orThrow (A.createUserData t.qualifiedName p.after)
    setParcel parcel.name (p.readTo rest)
    pure (.userData t.qualifiedName o)
  | _, _ => stuck

/-- `asInterface`: a binder of this process gives its own object, another one a
proxy; both are known by the binder. -/
def asInterface (t : Ty) : Value O → Exec W O σ (Value O)
  | .null => pure .null
  | .binder b => pure (.interface t.qualifiedName b)
  | _ => stuck

def evalLiteral (env : Env W O σ) : Literal → Exec W O σ (Value O)
  | .null => pure .null
  | .true => pure (.bool true)
  | .int n => pure (.int (BitVec.ofInt 32 n))
  | .descriptor => pure (.string env.descriptor)
  | .classLoader => pure .classLoader
  | .creator name => pure (.creator name)
  | .transaction m => pure (.int (BitVec.ofInt 32 (env.code m)))
  | .flagOneway | .writeReturnValue => pure (.int 1)
  | .this | .super | .error _ => stuck

def evalLength (v : Variable) : Exec W O σ (Value O) := do
  match ← get v.name with
  | .array xs => pure (.int (BitVec.ofNat 32 xs.length))
  | .null => throwRuntime
  | _ => stuck

def evalCompare (op : Op) (l r : Value O) : Exec W O σ (Value O) :=
  match compareValues op l r with
  | some b => pure (.bool b)
  | none => stuck

/-! ## Expressions and statements -/

mutual

def eval (env : Env W O σ) : Expression → Exec W O σ (Value O)
  | .literal value => evalLiteral env value
  | .variable v => get v.name
  | .lengthOf v => evalLength v
  | .methodCall obj (.parcel m) arguments => do
    let vs ← evalAll env arguments
    match obj with
    | .variable parcel =>
      parcelCall env.toAndroid parcel.name m (arguments.head?.bind Expression.var?) vs
    | _ => stuck
  | .methodCall (.literal .this) (.user name) arguments => do
    let vs ← evalAll env arguments
    userCall env name (arguments.filterMap Expression.var?) vs
  | .methodCall (.variable x) name arguments => callOn env x.name name arguments
  | .methodCall _ _ _ => stuck
  | .staticCall t .asInterface [e] => do asInterface t (← eval env e)
  | .staticCall t name arguments => callStatic env.toAndroid t name arguments
  | .comparison l op r => do evalCompare op (← eval env l) (← eval env r)
  | .newExpression t arguments => newObject env.toAndroid t arguments
  | .newArray t size => do newArrayOf t (← eval env size)
  | .ternary c i e => do
    match ← eval env c with
    | .bool b => if b then eval env i else eval env e
    | _ => stuck
  | .cast t e => do pure (castTo t (← eval env e))
  | .assignment v e cast => do
    let x ← eval env e
    let x := match cast with
      | some t => castTo t x
      | none => x
    set v.name x
    pure x

def evalAll (env : Env W O σ) : List Expression → Exec W O σ (List (Value O))
  | [] => pure []
  | e :: es => do
    let v ← eval env e
    let vs ← evalAll env es
    pure (v :: vs)

end

variable {env : Env W O σ} {v : Variable}

theorem evalAll_nil : evalAll env [] f = (.ok [], f) := rfl

theorem evalAll_cons {e : Expression} {es : List Expression} {vs : List (Value O)}
    (h : eval env e f = (.ok x, f)) (hs : evalAll env es f = (.ok vs, f)) :
    evalAll env (e :: es) f = (.ok (x :: vs), f) := by
  rw [evalAll, bind_ok h, bind_ok hs]
  rfl

theorem eval_variable (h : f.vars v.name = some x) : eval env (.variable v) f = (.ok x, f) := by
  rw [eval, get_run h]

def Throwable.value (e : Throwable) : Value O := .throwable e.classes e.message

/-- `catch (type x)`. -/
def catching (type : Ty) (x : String) (body handler : Exec W O σ α) : Exec W O σ α := fun f =>
  match body f with
  | (.error (.threw e), f') =>
    if type.qualifiedName ∈ e.classes then handler (f'.set x e.value)
    else (.error (.threw e), f')
  | r => r

/-- `finally`: its exceptions win. -/
def finally_ (body : Exec W O σ α) (handler : Exec W O σ Unit) : Exec W O σ α := fun f =>
  match body f with
  | (r, f') =>
    match handler f' with
    | (.ok _, f'') => (r, f'')
    | (.error e, f'') => (.error e, f'')

mutual

/-- What a statement returns, if it does. -/
def exec (env : Env W O σ) : Statement → Exec W O σ (Option (Value O))
  | .expression e => do
    let _ ← eval env e
    pure none
  | .variableDeclaration _ none _ => pure none
  | .variableDeclaration v (some (.staticCall _ .obtain _)) _ => do
    setParcel v.name {}
    pure none
  | .variableDeclaration v (some e) _ => do
    set v.name (← eval env e)
    pure none
  | .ifStatement c statements elseif => do
    match ← eval env c with
    | .bool b => if b then execAll env statements else execAll env elseif
    | _ => stuck
  | .returnStatement e => do pure (some (← eval env e))
  | .tryCatch statements x handler =>
    catching x.type x.name (execAll env statements) (execAll env handler)
  | .tryFinally statements handler =>
    finally_ (execAll env statements) (do let _ ← execAll env handler)

def execAll (env : Env W O σ) : List Statement → Exec W O σ (Option (Value O))
  | [] => pure none
  | s :: ss => do
    match ← exec env s with
    | some v => pure (some v)
    | none => execAll env ss

end

/-! ## One statement after the other -/

theorem exec_expression_run {e : Expression} (h : eval env e f = (.ok x, f')) :
    exec env (.expression e) f = (.ok none, f') := by
  rw [exec, bind_ok h]
  rfl

theorem execAll_cons {st : Statement} {sts : List Statement} (h : exec env st f = (.ok none, f')) :
    execAll env (st :: sts) f = execAll env sts f' := by
  rw [execAll, bind_ok h]

theorem execAll_singleton {st : Statement} (h : exec env st f = (.ok none, f')) :
    execAll env [st] f = (.ok none, f') := by
  rw [execAll_cons h]
  rfl

/-- One piece of code behind another. -/
theorem execAll_append {sts sts' : List Statement} (h : execAll env sts f = (.ok none, f')) :
    execAll env (sts ++ sts') f = execAll env sts' f' := by
  induction sts generalizing f with
  | nil =>
      cases h
      rfl
  | cons st sts ih =>
      rw [execAll] at h
      rw [List.cons_append, execAll]
      cases hst : exec env st f with
      | mk r f₁ =>
          cases r with
          | error e =>
              rw [bind_error hst] at h
              cases h
          | ok r =>
              rw [bind_ok hst] at h ⊢
              cases r with
              | some a => cases h
              | none => exact ih h

end Aidl
