import TestActivity.Aidl.Marshal

/-!
# A framework that keeps its documentation

Parcels of tokens: one token for each call that writes, with the value itself. Every
law of `Android.Documented` holds for it, so the laws do not contradict each other.
-/

namespace Aidl

variable {O : Type}

/-- What a call leaves in a parcel. -/
inductive Token (O : Type) where
  | call (m : ParcelMethod) (v : Value O)
  | token (descriptor : String)
  | noException
  | userData (q : String) (o : O)
  | charSequence (o : O)

/-- One format for each method that writes. -/
def Format.all : List Format :=
  [.byte, .int, .long, .float, .double, .string, .strongBinder, .map, .list, .byteArray, .intArray,
    .longArray, .floatArray, .doubleArray, .booleanArray, .charArray, .stringArray, .binderArray,
    .typedArray "", .stringList, .binderList, .typedList ""]

/-- The method that writes what `m` reads. -/
def ParcelMethod.writer (m : ParcelMethod) : Option ParcelMethod :=
  (Format.all.find? fun fmt => fmt.creator == m || fmt.filler == some m).map Format.writer

theorem Format.writer_creator (fmt : Format) : fmt.creator.writer = some fmt.writer := by
  cases fmt <;> rfl

theorem Format.writer_filler {fmt : Format} {m : ParcelMethod} (h : fmt.filler = some m) :
    m.writer = some fmt.writer := by
  cases fmt <;> cases h <;> rfl

/-- The content of an object that another was read into. -/
def ParcelMethod.fill : ParcelMethod → Value O → Value O → Value O
  | .readList, .list xs, .list ys => .list (xs ++ ys)
  | .readMap, .map _, .map o => .map o
  | _, _, v => v

/-- `putAll` replaces the content, and the stack of an exception is its message. -/
def Android.tokens (new : String → O) : Android (Token O) O where
  write m
    | v :: _ => some [.call m v]
    | [] => none
  read m
    | old :: _, .call n v :: rest =>
      if m.writer = some n then
        some (if m.mode = .fill then m.fill old v else v, rest)
      else none
    | [], .call n v :: rest => if m.writer = some n then some (v, rest) else none
    | _, _ => none
  writeInterfaceToken d := [.token d]
  enforceInterface d
    | .token d' :: rest => if d = d' then some rest else none
    | _ => none
  noException := [.noException]
  readException
    | .noException :: rest => some (none, rest)
    | .call .writeInt (.int n) :: .call .writeString (.string s) :: rest =>
      if n = BitVec.ofInt 32 EX_ILLEGAL_ARGUMENT then some (some (illegalArgument s), rest)
      else none
    | _ => none
  writeUserData q _ o := [.userData q o]
  createUserData q
    | .userData q' o :: rest => if q = q' then some (o, rest) else none
    | _ => none
  readUserData q _
    | .userData q' o :: rest => if q = q' then some (o, rest) else none
    | _ => none
  newUserData := new
  writeCharSequence _ o := [.charSequence o]
  createCharSequence
    | .charSequence o :: rest => some (o, rest)
    | _ => none
  putAll _ o := o
  stackTrace e := e.message

theorem Android.tokens_documented (new : String → O) : (Android.tokens new).Documented where
  create fmt v hv flags := by
    refine ⟨[.call fmt.writer v], rfl, fun rest => ?_⟩
    have hmode : fmt.creator.mode ≠ .fill := by
      intro h
      cases fmt <;> cases h
    have hwriter := fmt.writer_creator
    cases hargs : (fmt.createArgs : List (Value O)) with
    | nil =>
        show (if fmt.creator.writer = some fmt.writer then some (v, rest) else none) = _
        rw [if_pos hwriter]
    | cons a as =>
        show (if fmt.creator.writer = some fmt.writer then
          some (if fmt.creator.mode = .fill then _ else v, rest) else none) = _
        rw [if_pos hwriter, if_neg hmode]
  fill fmt m hm old v hv hfits flags ws hws rest := by
    have hmode : m.mode = .fill := by cases fmt <;> cases hm <;> rfl
    cases hws
    show (if m.writer = some fmt.writer then
      some (if m.mode = .fill then m.fill old v else v, rest) else none) = _
    rw [if_pos (Format.writer_filler hm), if_pos hmode]
    have hfilled : m.fill old v = filled (Android.tokens new) fmt old v := by
      cases fmt <;> cases hm <;> first | rfl | (cases old <;> cases v <;> rfl)
    rw [hfilled]
  userData q flags o rest := if_pos rfl
  readUserData q flags old o rest := if_pos rfl
  charSequence flags o rest := rfl
  token d rest := if_pos rfl
  noException rest := rfl
  exception message rest hws hws' := by
    cases hws
    cases hws'
    rfl

end Aidl
