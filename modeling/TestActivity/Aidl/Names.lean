import Mathlib.Data.List.Nodup
import Mathlib.Data.List.TakeWhile

/-!
# The types of the interface compiler

`Type.cpp` keeps one table of types, `NAMES`. A name in an interface is first a
qualified name, then the name of a class, and last a list of such names between
angle brackets, for which a type is made and put into the table.
-/

namespace Aidl

/-- The methods of `android.os.Parcel` that carry values. `XXX` is what
`VOID_TYPE` has in their place. -/
inductive ParcelMethod where
  | XXX
  | writeByte | readByte | writeByteArray | createByteArray | readByteArray
  | writeInt | readInt | writeIntArray | createIntArray | readIntArray
  | writeLong | readLong | writeLongArray | createLongArray | readLongArray
  | writeFloat | readFloat | writeFloatArray | createFloatArray | readFloatArray
  | writeDouble | readDouble | writeDoubleArray | createDoubleArray | readDoubleArray
  | writeBooleanArray | createBooleanArray | readBooleanArray
  | writeCharArray | createCharArray | readCharArray
  | writeString | readString | writeStringArray | createStringArray | readStringArray
  | writeStrongBinder | readStrongBinder | writeBinderArray | createBinderArray | readBinderArray
  | writeMap | readHashMap | readMap
  | writeList | readArrayList | readList
  | writeStringList | createStringArrayList | readStringList
  | writeBinderList | createBinderArrayList | readBinderList
  | writeTypedList | createTypedArrayList | readTypedList
  | writeTypedArray | createTypedArray | readTypedArray
deriving DecidableEq, Repr

/-- `Type::Kind`. -/
inductive Kind where
  | builtIn | userData | interface | generated
deriving DecidableEq, Repr

/-- The classes derived from `Type`, with the members their functions use.
`plain` stands for those that override nothing, `silent` for those that only
print an internal error. -/
inductive Class where
  | plain
  | silent
  | basic (marshall unmarshall writeArray createArray readArray : ParcelMethod)
  | boolean
  | char
  | string
  | charSequence
  | iBinder
  | map
  | list
  | userData
  | interface (oneway : Bool)
  | genericList (creator : String)
deriving DecidableEq, Repr

/-- `Type`. -/
structure Ty where
  package : String
  name : String
  qualifiedName : String
  kind : Kind
  canWriteToParcel : Bool
  canWriteToRpcData : Bool
  canBeOut : Bool
  cls : Class
deriving DecidableEq, Repr

namespace Ty

/-- The constructor of `Type` with a package. -/
def ofPackage (package name : String) (kind : Kind) (parcel rpc out : Bool) (cls : Class) : Ty where
  package := package
  name := name
  qualifiedName := (if package.isEmpty then "" else package ++ ".") ++ name
  kind := kind
  canWriteToParcel := parcel
  canWriteToRpcData := rpc
  canBeOut := out
  cls := cls

/-- The constructor of `Type` without a package. -/
def ofName (name : String) (kind : Kind) (parcel rpc out : Bool) (cls : Class) : Ty where
  package := ""
  name := name
  qualifiedName := name
  kind := kind
  canWriteToParcel := parcel
  canWriteToRpcData := rpc
  canBeOut := out
  cls := cls

def basicType (name : String)
    (marshall unmarshall writeArray createArray readArray : ParcelMethod) : Ty :=
  ofName name .builtIn true true false
    (.basic marshall unmarshall writeArray createArray readArray)

def userDataType (package name : String) (builtIn parcel rpc : Bool) : Ty :=
  ofPackage package name (if builtIn then .builtIn else .userData) parcel rpc true .userData

def interfaceType (package name : String) (builtIn oneway : Bool) : Ty :=
  ofPackage package name (if builtIn then .builtIn else .interface) true false false
    (.interface oneway)

/-- `CanBeArray`. -/
def canBeArray (t : Ty) : Bool :=
  match t.cls with
  | .basic .. | .boolean | .char | .string | .userData => true
  | _ => false

/-- `CreatorName`. -/
def creatorName (t : Ty) : String :=
  match t.cls with
  | .string | .charSequence => "android.os.Parcel.STRING_CREATOR"
  | .userData => t.qualifiedName ++ ".CREATOR"
  | .genericList _ => "android.os.Parcel.arrayListCreator"
  | _ => ""

/-- The constructor of `GenericListType`. -/
def genericListType (package name : String) (args : List Ty) : Ty where
  package := package
  name := name
  qualifiedName := package ++ "." ++ name ++ "<" ++
    String.intercalate "," (args.map qualifiedName) ++ ">"
  kind := .builtIn
  canWriteToParcel := true
  canWriteToRpcData := true
  canBeOut := true
  cls := .genericList ((args.head?.map creatorName).getD "")

end Ty

def VOID_TYPE : Ty := Ty.basicType "void" .XXX .XXX .XXX .XXX .XXX
def PW_TYPE : Ty := Ty.ofPackage "java.io" "PrintWriter" .builtIn true true false .plain
def SW_TYPE : Ty := Ty.ofPackage "java.io" "StringWriter" .builtIn true true false .plain
def IO_EXCEPTION_TYPE : Ty := Ty.ofPackage "java.io" "IOException" .builtIn false false false .plain
def BOOLEAN_TYPE : Ty := Ty.ofName "boolean" .builtIn true true false .boolean
def BYTE_TYPE : Ty :=
  Ty.basicType "byte" .writeByte .readByte .writeByteArray .createByteArray .readByteArray
def CHAR_TYPE : Ty := Ty.ofName "char" .builtIn true true false .char
def INT_TYPE : Ty :=
  Ty.basicType "int" .writeInt .readInt .writeIntArray .createIntArray .readIntArray
def LONG_TYPE : Ty :=
  Ty.basicType "long" .writeLong .readLong .writeLongArray .createLongArray .readLongArray
def FLOAT_TYPE : Ty :=
  Ty.basicType "float" .writeFloat .readFloat .writeFloatArray .createFloatArray .readFloatArray
def DOUBLE_TYPE : Ty :=
  Ty.basicType "double" .writeDouble .readDouble .writeDoubleArray .createDoubleArray
    .readDoubleArray
def STRING_TYPE : Ty := Ty.ofPackage "java.lang" "String" .builtIn true true false .string
def OBJECT_TYPE : Ty := Ty.ofPackage "java.lang" "Object" .builtIn false false false .plain
def CHAR_SEQUENCE_TYPE : Ty :=
  Ty.ofPackage "java.lang" "CharSequence" .builtIn true true false .charSequence
def MAP_TYPE : Ty := Ty.ofPackage "java.util" "Map" .builtIn true false true .map
def LIST_TYPE : Ty := Ty.ofPackage "java.util" "List" .builtIn true true true .list
def TEXT_UTILS_TYPE : Ty :=
  Ty.ofPackage "android.text" "TextUtils" .builtIn false false false .plain
def REMOTE_EXCEPTION_TYPE : Ty :=
  Ty.ofPackage "android.os" "RemoteException" .builtIn false false false .silent
def RUNTIME_EXCEPTION_TYPE : Ty :=
  Ty.ofPackage "java.lang" "RuntimeException" .builtIn false false false .silent
def IBINDER_TYPE : Ty := Ty.ofPackage "android.os" "IBinder" .builtIn true false false .iBinder
def IINTERFACE_TYPE : Ty :=
  Ty.ofPackage "android.os" "IInterface" .builtIn false false false .silent
def BINDER_NATIVE_TYPE : Ty := Ty.ofPackage "android.os" "Binder" .builtIn false false false .silent
def BINDER_PROXY_TYPE : Ty :=
  Ty.ofPackage "android.os" "BinderProxy" .builtIn false false false .silent
def PARCEL_TYPE : Ty := Ty.ofPackage "android.os" "Parcel" .builtIn false false false .silent
def PARCELABLE_INTERFACE_TYPE : Ty :=
  Ty.ofPackage "android.os" "Parcelable" .builtIn false false false .silent
def CONTEXT_TYPE : Ty := Ty.ofPackage "android.content" "Context" .builtIn false false false .plain
def RPC_DATA_TYPE : Ty := Ty.userDataType "android.support.place.rpc" "RpcData" true true true
/-- The file name and the line stand where two flags are meant. -/
def RPC_ERROR_TYPE : Ty := Ty.userDataType "android.support.place.rpc" "RpcError" true true true
def EVENT_FAKE_TYPE : Ty := Ty.ofName "event" .builtIn false false false .plain
def CLASSLOADER_TYPE : Ty :=
  Ty.ofPackage "java.lang" "ClassLoader" .builtIn false false false .plain

/-! ## The table -/

/-- `Namespace::Generic`. -/
structure Generic where
  package : String
  name : String
  args : ℕ
deriving DecidableEq, Repr

def Generic.qualified (g : Generic) : String := g.package ++ "." ++ g.name

/-- `Namespace`. -/
structure Namespace where
  types : List Ty := []
  generics : List Generic := []

/-- The function of the C library, in the locale `C`. -/
def isSpace (c : Char) : Bool := c == ' ' || '\t' ≤ c && c ≤ '\r'

def normalizeGeneric (s : List Char) : List Char := s.filter (!isSpace ·)

/-- What stands between the commas, up to the closing bracket. -/
def genericArgs (s : List Char) : List String :=
  (s.splitOn ',').map fun piece => String.ofList (piece.takeWhile (· != '>'))

def makeGenericType (package name : String) (args : List Ty) : Option Ty :=
  if package = "java.util" ∧ name = "List" then
    some (Ty.genericListType "java.util" "List" args)
  else
    none

namespace Namespace

/-- `Find`. -/
def find (ns : Namespace) (name : String) : Option Ty :=
  ns.types.find? (·.qualifiedName == name)

/-- `Find` with a package. -/
def findIn (ns : Namespace) (package : Option String) (name : String) : Option Ty :=
  ns.find (package.elim "" (· ++ ".") ++ name)

/-- `Add`. -/
def add (ns : Namespace) (t : Ty) : Namespace :=
  if (ns.find t.qualifiedName).isNone then { ns with types := ns.types ++ [t] } else ns

/-- `AddGenericType`. -/
def addGenericType (ns : Namespace) (package name : String) (args : ℕ) : Namespace :=
  { ns with generics := ns.generics ++ [⟨package, name, args⟩] }

/-- `search_generic`. -/
def searchGeneric (ns : Namespace) (name : String) : Option Generic :=
  (ns.generics.find? (·.qualified == name)).or (ns.generics.find? (·.name == name))

/-- The first half of `Search`, which is all of it for a name without brackets. -/
def searchName (ns : Namespace) (name : String) : Option Ty :=
  (ns.find name).or (ns.types.find? (·.name == name))

/-- The type that is made for a name with brackets. The types between the
brackets are names without brackets: the lexer takes no others. -/
def genericType (ns : Namespace) (name : String) : Option Ty :=
  if '<' ∉ name.toList then none
  else
    let normalized := normalizeGeneric name.toList
    let base := normalized.takeWhile (· != '<')
    (ns.searchGeneric (String.ofList base)).bind fun g =>
      ((genericArgs (normalized.drop (base.length + 1))).mapM ns.searchName).bind fun args =>
        makeGenericType g.package g.name args

/-- `Search`. -/
def search (ns : Namespace) (name : String) : Option Ty × Namespace :=
  match ns.searchName name with
  | some t => (some t, ns)
  | none =>
    match ns.genericType name with
    | none => (none, ns)
    -- put into the table, "so they always get the same object"
    | some t => ((ns.add t).find t.qualifiedName, ns.add t)

/-- A run of searches. -/
def searchAll (ns : Namespace) : List String → List (Option Ty) × Namespace
  | [] => ([], ns)
  | name :: names =>
    let (t, ns) := ns.search name
    let (ts, ns) := ns.searchAll names
    (t :: ts, ns)

end Namespace

/-- The order of `register_base_types`. -/
def baseTypes : List Ty :=
  [VOID_TYPE, PW_TYPE, SW_TYPE, IO_EXCEPTION_TYPE, BOOLEAN_TYPE, BYTE_TYPE, CHAR_TYPE, INT_TYPE,
    LONG_TYPE, FLOAT_TYPE, DOUBLE_TYPE, STRING_TYPE, OBJECT_TYPE, CHAR_SEQUENCE_TYPE, MAP_TYPE,
    LIST_TYPE, TEXT_UTILS_TYPE, REMOTE_EXCEPTION_TYPE, RUNTIME_EXCEPTION_TYPE, IBINDER_TYPE,
    IINTERFACE_TYPE, BINDER_NATIVE_TYPE, BINDER_PROXY_TYPE, PARCEL_TYPE,
    PARCELABLE_INTERFACE_TYPE, CONTEXT_TYPE, RPC_DATA_TYPE, RPC_ERROR_TYPE, EVENT_FAKE_TYPE,
    CLASSLOADER_TYPE]

/-- `register_base_types`. -/
def registerBaseTypes (ns : Namespace) : Namespace :=
  ((baseTypes.foldl Namespace.add ns).addGenericType "java.util" "List" 1).addGenericType
    "java.util" "Map" 2

/-! ## What a name stands for -/

variable {ns ns' : Namespace} {t u : Ty} {args : List Ty} {name : String}

/-- The characters of names without brackets. -/
def nameChar (c : Char) : Bool := !(c == '<' || c == '>' || c == ',' || isSpace c)

/-- A type that was not made for a name with brackets. -/
structure Ty.Plain (t : Ty) : Prop where
  qualifiedName : ∀ c ∈ t.qualifiedName.toList, nameChar c = true
  name : '<' ∉ t.name.toList

/-- The types that were made for a name with brackets. -/
def Namespace.Listed (ns : Namespace) (t : Ty) : Prop :=
  ∃ args, args ≠ [] ∧ (∀ a ∈ args, a ∈ ns.types ∧ a.Plain) ∧
    t = Ty.genericListType "java.util" "List" args

/-- The table at any time: no qualified name stands for two types, and the name
of the class `List` for the plain one. -/
structure Namespace.Sound (ns : Namespace) : Prop where
  nodup : (ns.types.map Ty.qualifiedName).Nodup
  types : ∀ t ∈ ns.types, t.Plain ∨ ns.Listed t
  list : ∃ t, ns.types.find? (·.name == "List") = some t ∧ t.Plain
  generics : ns.generics = [⟨"java.util", "List", 1⟩, ⟨"java.util", "Map", 2⟩]

theorem nameChar_eq {c : Char} (h : nameChar c = true) :
    c ≠ '<' ∧ c ≠ '>' ∧ c ≠ ',' ∧ isSpace c = false := by
  simpa [nameChar, and_assoc] using h

theorem Ty.Plain.lt_notMem (h : t.Plain) : '<' ∉ t.qualifiedName.toList := by
  intro hmem
  exact (nameChar_eq (h.qualifiedName _ hmem)).1 rfl

theorem Ty.Plain.comma_notMem (h : t.Plain) : ',' ∉ t.qualifiedName.toList := by
  intro hmem
  exact (nameChar_eq (h.qualifiedName _ hmem)).2.2.1 rfl

/-- The characters between the brackets. -/
def argChars (args : List Ty) : List Char :=
  List.intercalate [','] (args.map (·.qualifiedName.toList))

theorem genericListType_toList (args : List Ty) :
    (Ty.genericListType "java.util" "List" args).qualifiedName.toList =
      "java.util.List".toList ++ '<' :: (argChars args ++ ['>']) := by
  simp [Ty.genericListType, argChars, String.toList_intercalate, Function.comp_def]

/-- The brackets hold the types in order. -/
theorem splitOn_argChars (hne : args ≠ []) (hplain : ∀ a ∈ args, a.Plain) :
    (argChars args).splitOn ',' = args.map (·.qualifiedName.toList) := by
  refine List.splitOn_intercalate ',' ?_ (by simpa using hne)
  intro l hl
  rcases List.mem_map.1 hl with ⟨a, ha, rfl⟩
  exact (hplain a ha).comma_notMem

theorem Namespace.find_some (h : ns.find name = some t) : t ∈ ns.types ∧ t.qualifiedName = name :=
  ⟨List.mem_of_find?_eq_some h, by simpa using List.find?_some h⟩

/-- A qualified name finds its type. -/
theorem Namespace.Sound.find_eq (h : ns.Sound) (ht : t ∈ ns.types) :
    ns.find t.qualifiedName = some t := by
  have hsome : (ns.find t.qualifiedName).isSome := by
    rw [Namespace.find, List.find?_isSome]
    exact ⟨t, ht, by simp⟩
  rcases Option.isSome_iff_exists.1 hsome with ⟨u, hu⟩
  rcases Namespace.find_some hu with ⟨hmem, hname⟩
  rw [hu, List.inj_on_of_nodup_map h.nodup hmem ht hname]

/-- What is found by a name without a closing bracket was not made for one with
brackets: the class name of those is `List`, and the plain type comes first. -/
theorem Namespace.Sound.searchName_plain (h : ns.Sound) (hname : '>' ∉ name.toList)
    (ht : ns.searchName name = some t) : t ∈ ns.types ∧ t.Plain := by
  rw [searchName, Option.or_eq_some_iff] at ht
  rcases ht with hfind | ⟨-, hfind⟩
  · rcases find_some hfind with ⟨hmem, rfl⟩
    rcases h.types t hmem with hplain | ⟨args, -, -, rfl⟩
    · exact ⟨hmem, hplain⟩
    · exact absurd (by simp [genericListType_toList]) hname
  · have hmem := List.mem_of_find?_eq_some hfind
    refine ⟨hmem, ?_⟩
    rcases h.types t hmem with hplain | ⟨args, -, -, rfl⟩
    · exact hplain
    · have hlist : "List" = name := by simpa [Ty.genericListType] using List.find?_some hfind
      rcases h.list with ⟨u, hu, hplain⟩
      rw [← hlist, hu] at hfind
      exact Option.some.inj hfind ▸ hplain

theorem mem_genericArgs {s : List Char} (h : name ∈ genericArgs s) : '>' ∉ name.toList := by
  rcases List.mem_map.1 h with ⟨piece, -, rfl⟩
  rw [String.toList_ofList]
  intro hmem
  have hall := List.all_eq_true.1 (List.all_takeWhile (p := (· != '>')) (l := piece)) _ hmem
  simp at hall

theorem mapM_eq_some {α β : Type} {f : α → Option β} {xs : List α} {ys : List β}
    (h : xs.mapM f = some ys) : ys.length = xs.length ∧ ∀ y ∈ ys, ∃ x ∈ xs, f x = some y := by
  induction xs generalizing ys with
  | nil =>
      cases h
      exact ⟨rfl, by simp⟩
  | cons x xs ih =>
      simp only [List.mapM_cons, Option.bind_eq_bind, Option.pure_def,
        Option.bind_eq_some_iff, Option.some.injEq] at h
      rcases h with ⟨y, hy, ys, hys, rfl⟩
      rcases ih hys with ⟨hlength, hmem⟩
      refine ⟨by simp [hlength], fun z hz => ?_⟩
      rcases List.mem_cons.1 hz with rfl | hz
      · exact ⟨x, List.mem_cons_self, hy⟩
      · rcases hmem z hz with ⟨w, hw, hfw⟩
        exact ⟨w, List.mem_cons_of_mem _ hw, hfw⟩

theorem mapM_congr {α β : Type} {f g : α → Option β} {xs : List α} (h : ∀ x ∈ xs, f x = g x) :
    xs.mapM f = xs.mapM g := by
  induction xs with
  | nil => rfl
  | cons x xs ih =>
      rw [List.mapM_cons, List.mapM_cons, h x List.mem_cons_self,
        ih fun y hy => h y (List.mem_cons_of_mem _ hy)]

/-- The types that are made have types of the table between their brackets. -/
theorem Namespace.Sound.listed_of_genericType (h : ns.Sound) (ht : ns.genericType name = some t) :
    ns.Listed t := by
  unfold genericType at ht
  split at ht
  · cases ht
  · simp only [Option.bind_eq_some_iff] at ht
    rcases ht with ⟨g, -, args, hargs, hmake⟩
    unfold makeGenericType at hmake
    split at hmake
    · rcases mapM_eq_some hargs with ⟨hlength, hmem⟩
      refine ⟨args, ?_, fun a ha => ?_, (Option.some.inj hmake).symm⟩
      · intro hnil
        rw [hnil] at hlength
        exact List.splitOn_ne_nil _ _
          (List.map_eq_nil_iff.1 (List.length_eq_zero_iff.1 hlength.symm))
      · rcases hmem a ha with ⟨x, hx, hfind⟩
        exact h.searchName_plain (mem_genericArgs hx) hfind
    · cases hmake

/-- Two types made for the same names are the same. -/
theorem Namespace.Sound.listed_inj (h : ns.Sound) (ht : ns.Listed t) (hu : ns.Listed u)
    (heq : t.qualifiedName = u.qualifiedName) : t = u := by
  rcases ht with ⟨args, hne, hargs, rfl⟩
  rcases hu with ⟨args', hne', hargs', rfl⟩
  have hchars : argChars args = argChars args' := by
    have hlist := congrArg String.toList heq
    rw [genericListType_toList, genericListType_toList] at hlist
    simpa using hlist
  have hnames : args.map Ty.qualifiedName = args'.map Ty.qualifiedName := by
    have hsplit := congrArg (List.splitOn ',') hchars
    rw [splitOn_argChars hne fun a ha => (hargs a ha).2,
      splitOn_argChars hne' fun a ha => (hargs' a ha).2] at hsplit
    have hofList := congrArg (List.map String.ofList) hsplit
    simpa [Function.comp_def] using hofList
  have hfind : ∀ as : List Ty, (∀ a ∈ as, a ∈ ns.types ∧ a.Plain) →
      (as.map Ty.qualifiedName).map ns.find = as.map some := by
    intro as has
    rw [List.map_map]
    exact List.map_congr_left fun a ha => h.find_eq (has a ha).1
  have hsome : args.map some = args'.map some := by
    rw [← hfind args hargs, ← hfind args' hargs', hnames]
  rw [List.map_injective_iff.2 (fun _ _ => Option.some.inj) hsome]

theorem Namespace.Listed.lt_mem (h : ns.Listed t) : '<' ∈ t.qualifiedName.toList := by
  rcases h with ⟨args, -, -, rfl⟩
  simp [genericListType_toList]

/-- A type of the table with the name of one that is made is that one. -/
theorem Namespace.Sound.eq_of_listed (h : ns.Sound) (ht : ns.Listed t) (hu : u ∈ ns.types)
    (heq : u.qualifiedName = t.qualifiedName) : u = t := by
  rcases h.types u hu with hplain | hlisted
  · exact absurd (heq ▸ ht.lt_mem) hplain.lt_notMem
  · exact h.listed_inj hlisted ht heq

theorem Namespace.add_of_some (h : ns.find t.qualifiedName = some u) : ns.add t = ns := by
  rw [add, h, Option.isNone_some, if_neg Bool.false_ne_true]

theorem Namespace.add_of_none (h : ns.find t.qualifiedName = none) :
    ns.add t = { ns with types := ns.types ++ [t] } := by
  rw [add, h, Option.isNone_none, if_pos rfl]

theorem Namespace.find_append (ns : Namespace) (t : Ty) (name : String) :
    ({ ns with types := ns.types ++ [t] } : Namespace).find name =
      (ns.find name).or (if t.qualifiedName = name then some t else none) := by
  simp only [find, List.find?_append, List.find?_singleton, beq_iff_eq]

/-- The types that are in the table come first. -/
theorem Namespace.find_add (ns : Namespace) (t : Ty) (name : String) :
    (ns.add t).find name = (ns.find name).or (if t.qualifiedName = name then some t else none) := by
  cases hfind : ns.find t.qualifiedName with
  | none => rw [add_of_none hfind, find_append]
  | some u =>
      rw [add_of_some hfind]
      by_cases hname : t.qualifiedName = name
      · rw [← hname, hfind, Option.some_or]
      · rw [if_neg hname, Option.or_none]

/-- What a name stands for. -/
theorem Namespace.Sound.search_fst (h : ns.Sound) (name : String) :
    (ns.search name).1 = (ns.searchName name).or (ns.genericType name) := by
  unfold search
  split
  · next t ht => rw [ht, Option.some_or]
  · next hname =>
      rw [hname, Option.none_or]
      split
      · next hnone => exact hnone.symm
      · next t ht =>
          rw [ht]
          cases hfind : ns.find t.qualifiedName with
          | none =>
              show (ns.add t).find t.qualifiedName = some t
              rw [add_of_none hfind, find_append, hfind, if_pos rfl, Option.none_or]
          | some u =>
              rcases find_some hfind with ⟨hmem, heq⟩
              show (ns.add t).find t.qualifiedName = some t
              rw [add_of_some hfind, hfind, h.eq_of_listed (h.listed_of_genericType ht) hmem heq]

/-! ## Searches do not disturb each other -/

/-- The table after a type was added: a declared one, or one that was made. -/
theorem Namespace.Sound.append (h : ns.Sound) (ht : t.Plain ∨ ns.Listed t)
    (hfind : ns.find t.qualifiedName = none) :
    ({ ns with types := ns.types ++ [t] } : Namespace).Sound where
  nodup := by
    rw [List.map_append, List.map_singleton, List.nodup_append]
    refine ⟨h.nodup, List.nodup_singleton _, fun a ha b hb hab => ?_⟩
    rcases List.mem_map.1 ha with ⟨u, hu, rfl⟩
    have hnone := h.find_eq hu
    rw [hab, List.mem_singleton.1 hb, hfind] at hnone
    cases hnone
  types := by
    intro u hu
    have hmono : ∀ v, ns.Listed v → Listed { ns with types := ns.types ++ [t] } v := by
      intro v hv
      rcases hv with ⟨args, hne, hargs, rfl⟩
      exact ⟨args, hne, fun a ha => ⟨List.mem_append_left _ (hargs a ha).1, (hargs a ha).2⟩, rfl⟩
    rcases List.mem_append.1 hu with hu | hu
    · exact (h.types u hu).imp_right (hmono u)
    · rw [List.mem_singleton.1 hu]
      exact ht.imp_right (hmono t)
  list := by
    rcases h.list with ⟨u, hu, hplain⟩
    exact ⟨u, by simp only [List.find?_append, hu, Option.some_or], hplain⟩
  generics := h.generics

/-- The table keeps its form, and grows by one type that was made, or not at all. -/
theorem Namespace.Sound.search_snd (h : ns.Sound) (name : String) :
    (ns.search name).2 = ns ∨ ∃ t, ns.Listed t ∧ ns.find t.qualifiedName = none ∧
      ns.genericType name = some t ∧ (ns.search name).2 = { ns with types := ns.types ++ [t] } := by
  unfold search
  split
  · exact .inl rfl
  · split
    · exact .inl rfl
    · next t ht =>
        cases hfind : ns.find t.qualifiedName with
        | none => exact .inr ⟨t, h.listed_of_genericType ht, hfind, ht, add_of_none hfind⟩
        | some u => exact .inl (add_of_some hfind)

theorem Namespace.Sound.search (h : ns.Sound) (name : String) : (ns.search name).2.Sound := by
  rcases h.search_snd name with heq | ⟨t, ht, hfind, -, heq⟩
  · rw [heq]
    exact h
  · rw [heq]
    exact h.append (.inr ht) hfind

/-- A name that is found without making a type is found as before. -/
theorem Namespace.Sound.searchName_append (h : ns.Sound) (ht : ns.Listed t)
    (hname : name ≠ t.qualifiedName ∨ (ns.searchName name).isSome) :
    ({ ns with types := ns.types ++ [t] } : Namespace).searchName name = ns.searchName name := by
  have hclass : ({ ns with types := ns.types ++ [t] } : Namespace).types.find? (·.name == name) =
      ns.types.find? (·.name == name) := by
    rw [List.find?_append, List.find?_singleton]
    split
    · next hlist =>
        -- the class of `t` is `List`, for which the plain type comes first
        rcases ht with ⟨args, -, -, rfl⟩
        have hname' : "List" = name := by simpa [Ty.genericListType] using hlist
        rcases h.list with ⟨u, hu, -⟩
        rw [← hname', hu, Option.some_or]
    · rw [Option.or_none]
  rw [searchName, find_append, hclass, searchName]
  split
  · next heq =>
      cases hfind : ns.find name with
      | some u => rw [Option.some_or, Option.some_or]
      | none =>
          -- a class with this name would have a bracket in it
          rcases hname with hne | hsome
          · exact absurd heq.symm hne
          · rw [searchName, hfind, Option.none_or, List.find?_isSome] at hsome
            rcases hsome with ⟨u, hu, hu'⟩
            have hlt : '<' ∈ u.name.toList := by
              rw [beq_iff_eq.1 hu', ← heq]
              exact ht.lt_mem
            rcases h.types u hu with hplain | ⟨args, -, -, rfl⟩
            · exact absurd hlt hplain.name
            · exact absurd hlt (by simp [Ty.genericListType])
  · rw [Option.or_none]

theorem Namespace.Listed.gt_mem (h : ns.Listed t) : '>' ∈ t.qualifiedName.toList := by
  rcases h with ⟨args, -, -, rfl⟩
  simp [genericListType_toList]

/-- What is made for a name does not depend on what was made before. -/
theorem Namespace.Sound.genericType_append (h : ns.Sound) (ht : ns.Listed t) (name : String) :
    ({ ns with types := ns.types ++ [t] } : Namespace).genericType name = ns.genericType name := by
  have hargs : ∀ s : List Char,
      (genericArgs s).mapM ({ ns with types := ns.types ++ [t] } : Namespace).searchName =
        (genericArgs s).mapM ns.searchName := by
    intro s
    refine mapM_congr fun x hx => h.searchName_append ht (.inl fun heq => ?_)
    exact mem_genericArgs hx (heq ▸ ht.gt_mem)
  unfold genericType
  simp only [hargs]
  rfl

theorem intercalate_concat {α : Type} (sep x y : List α) (xs : List (List α)) :
    List.intercalate sep (xs ++ [x]) ++ y = List.intercalate sep (xs ++ [x ++ y]) := by
  induction xs with
  | nil => simp
  | cons z zs ih =>
      cases zs with
      | nil => simp
      | cons w ws =>
          simp only [List.cons_append, List.intercalate_cons_cons, List.append_assoc] at ih ⊢
          rw [ih]

/-- The names between the brackets are those of the types. -/
theorem genericArgs_argChars (hne : args ≠ []) (hplain : ∀ a ∈ args, a.Plain) :
    genericArgs (argChars args ++ ['>']) = args.map Ty.qualifiedName := by
  have hgt : ∀ a ∈ args, ∀ c ∈ a.qualifiedName.toList, (c != '>') = true := by
    intro a ha c hc
    simpa using (nameChar_eq ((hplain a ha).qualifiedName c hc)).2.1
  rcases List.eq_nil_or_concat args with hnil | ⟨init, a, rfl⟩
  · exact absurd hnil hne
  · rw [List.concat_eq_append] at *
    have hsplit : (argChars (init ++ [a]) ++ ['>']).splitOn ',' =
        init.map (·.qualifiedName.toList) ++ [a.qualifiedName.toList ++ ['>']] := by
      rw [argChars, List.map_append, List.map_singleton, intercalate_concat]
      refine List.splitOn_intercalate ',' ?_ (by simp)
      intro l hl
      rcases List.mem_append.1 hl with hl | hl
      · rcases List.mem_map.1 hl with ⟨b, hb, rfl⟩
        exact (hplain b (List.mem_append_left _ hb)).comma_notMem
      · have hcomma := (hplain a (by simp)).comma_notMem
        rw [List.mem_singleton.1 hl]
        simpa using hcomma
    rw [genericArgs, hsplit, List.map_append, List.map_append, List.map_map]
    congr 1
    · refine List.map_congr_left fun b hb => ?_
      simp only [Function.comp_apply,
        List.takeWhile_eq_self_iff.2 (hgt b (List.mem_append_left _ hb)), String.ofList_toList]
    · rw [List.map_singleton, List.map_singleton, List.takeWhile_append_of_pos (hgt a (by simp)),
        List.takeWhile_cons_of_neg (by simp), List.append_nil, String.ofList_toList]

theorem mem_argChars {c : Char} (h : c ∈ argChars args) :
    c = ',' ∨ ∃ a ∈ args, c ∈ a.qualifiedName.toList := by
  induction args with
  | nil => exact absurd h List.not_mem_nil
  | cons a as ih =>
      cases as with
      | nil => exact .inr ⟨a, List.mem_cons_self, by simpa [argChars] using h⟩
      | cons b bs =>
          rw [argChars, List.map_cons, List.map_cons, List.intercalate_cons_cons,
            List.mem_append, List.mem_append, List.mem_singleton] at h
          rcases h with (h | h) | h
          · exact .inr ⟨a, List.mem_cons_self, h⟩
          · exact .inl h
          · rcases ih h with h | ⟨d, hd, h⟩
            · exact .inl h
            · exact .inr ⟨d, List.mem_cons_of_mem _ hd, h⟩

theorem Namespace.Sound.mapM_searchName (h : ns.Sound) (hargs : ∀ a ∈ args, a ∈ ns.types) :
    (args.map Ty.qualifiedName).mapM ns.searchName = some args := by
  induction args with
  | nil => rfl
  | cons a as ih =>
      have ha : ns.searchName a.qualifiedName = some a := by
        rw [searchName, h.find_eq (hargs a List.mem_cons_self), Option.some_or]
      rw [List.map_cons, List.mapM_cons, ha, ih fun b hb => hargs b (List.mem_cons_of_mem _ hb)]
      rfl

/-- A type that was made is made again for its qualified name. -/
theorem Namespace.Sound.genericType_of_listed (h : ns.Sound) (ht : ns.Listed t) :
    ns.genericType t.qualifiedName = some t := by
  have hlt : ¬ '<' ∉ t.qualifiedName.toList := not_not_intro ht.lt_mem
  rcases ht with ⟨args, hne, hargs, rfl⟩
  have hplain : ∀ a ∈ args, a.Plain := fun a ha => (hargs a ha).2
  have hspace : ∀ c ∈ argChars args, (!isSpace c) = true := by
    intro c hc
    rcases mem_argChars hc with rfl | ⟨a, ha, hc⟩
    · rfl
    · simpa using (nameChar_eq ((hplain a ha).qualifiedName c hc)).2.2.2
  -- the name has no blanks to lose, and its first bracket is the one that was put there
  have hnormal :
      normalizeGeneric (Ty.genericListType "java.util" "List" args).qualifiedName.toList =
        "java.util.List".toList ++ '<' :: (argChars args ++ ['>']) := by
    rw [genericListType_toList, normalizeGeneric, List.filter_append, List.filter_cons,
      List.filter_append, List.filter_eq_self.2 hspace]
    rfl
  have hbase : ("java.util.List".toList ++ '<' :: (argChars args ++ ['>'])).takeWhile (· != '<') =
      "java.util.List".toList := by
    rw [List.takeWhile_append_of_pos (List.all_eq_true.1 (by decide)),
      List.takeWhile_cons_of_neg (by simp), List.append_nil]
  have hdrop : ("java.util.List".toList ++ '<' :: (argChars args ++ ['>'])).drop
      ("java.util.List".toList.length + 1) = argChars args ++ ['>'] := by
    rw [List.drop_length_add_append]
    rfl
  have hgeneric : ns.searchGeneric (String.ofList "java.util.List".toList) =
      some ⟨"java.util", "List", 1⟩ := by
    rw [searchGeneric, h.generics]
    decide
  unfold genericType
  rw [if_neg hlt, hnormal]
  show ((ns.searchGeneric (String.ofList (List.takeWhile (· != '<') _))).bind fun g => _) = _
  rw [hbase, hgeneric, Option.bind_some, hdrop, genericArgs_argChars hne hplain,
    h.mapM_searchName fun a ha => (hargs a ha).1]
  rfl

/-- A search does not change what another name stands for. -/
theorem Namespace.Sound.search_search (h : ns.Sound) (name other : String) :
    ((ns.search other).2.search name).1 = (ns.search name).1 := by
  rcases h.search_snd other with heq | ⟨t, ht, hnew, -, heq⟩
  · rw [heq]
  · rw [heq, (h.append (.inr ht) hnew).search_fst, h.search_fst, h.genericType_append ht]
    by_cases hname : name ≠ t.qualifiedName ∨ (ns.searchName name).isSome
    · rw [h.searchName_append ht hname]
    · -- the name of the type that was made
      rw [not_or, not_not, Option.not_isSome_iff_eq_none] at hname
      rw [hname.2, hname.1, h.genericType_of_listed ht, searchName, find_append, hnew, if_pos rfl]
      rfl

/-- In a run of searches every name stands for what it stood for at first, and
still does afterwards. -/
theorem Namespace.searchAll_eq (h : ns.Sound) (names : List String) :
    (ns.searchAll names).1 = names.map (fun name => (ns.search name).1) ∧
      (ns.searchAll names).2.Sound ∧
        ∀ name, ((ns.searchAll names).2.search name).1 = (ns.search name).1 := by
  induction names generalizing ns with
  | nil => exact ⟨rfl, h, fun _ => rfl⟩
  | cons other names ih =>
      rcases ih (h.search other) with ⟨hfst, hsound, hsnd⟩
      refine ⟨?_, hsound, fun name => (hsnd name).trans (h.search_search name other)⟩
      simp only [searchAll, hfst, List.map_cons]
      rw [List.map_congr_left fun name _ => h.search_search name other]

/-! ## The table that every run starts from -/

theorem registerBaseTypes_types : (registerBaseTypes {}).types = baseTypes := by decide +kernel

theorem registerBaseTypes_generics : (registerBaseTypes {}).generics =
    [⟨"java.util", "List", 1⟩, ⟨"java.util", "Map", 2⟩] := by decide +kernel

theorem baseTypes_nodup : (baseTypes.map Ty.qualifiedName).Nodup := by decide

end Aidl
