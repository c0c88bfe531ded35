import TestActivity.Aidl.Preprocess

/-!
# The file of a class

An import names a class, and `find_import_file` looks for its file below the import
paths. `check_filename` asks of every file that it ends in the path of what it declares.
The first gives what the second asks for (`findImportFile_checkFilename`).
-/

namespace Aidl

def OS_PATH_SEPARATOR : Char := '/'

/-- The loops that make a path of a name. -/
def slashes (s : List Char) : List Char :=
  s.map fun c => if c = '.' then OS_PATH_SEPARATOR else c

/-- A path that ends in a separator. -/
def closed (path : List Char) : List Char :=
  if path.getLast? = some OS_PATH_SEPARATOR then path else path ++ [OS_PATH_SEPARATOR]

/-- An import path; the empty one is the directory the compiler runs in. -/
def directory (path : List Char) : List Char :=
  if path = [] then ['.', OS_PATH_SEPARATOR] else closed path

/-- `find_import_file`: the first file that can be read. -/
def findImportFile (readable : String → Bool) (importPaths : List String) (given : String) :
    Option String :=
  let expected := slashes given.toList ++ ".aidl".toList
  (importPaths.map fun path => String.ofList (directory path.toList ++ expected)).find? readable

/-- `strcasecmp`, in the locale `C`. -/
def strcasecmp (s t : List Char) : Bool := s.map Char.toLower == t.map Char.toLower

/-- The path that `check_filename` expects a class at. -/
def expectedPath (package : Option String) (name : String) : List Char :=
  slashes (package.elim "" (· ++ ".")).toList ++
    (name.toList.takeWhile (· != '.') ++ ".aidl".toList)

/-- A path from the root. -/
def absolute (cwd filename : String) : List Char :=
  if filename.toList.head? = some OS_PATH_SEPARATOR then filename.toList
  else closed cwd.toList ++ filename.toList

/-- `check_filename`: the error. `OS_CASE_SENSITIVE` is not defined anywhere. -/
def checkFilename (cwd filename : String) (package : Option String) (name : String) : Bool :=
  let fn := absolute cwd filename
  let expected := expectedPath package name
  !(expected.length ≤ fn.length && strcasecmp expected (fn.drop (fn.length - expected.length)))

/-- `check_filenames`. -/
def checkFilenames (cwd filename : String) (items : List DocumentItem) : Bool :=
  items.any fun item => checkFilename cwd filename item.package item.name

variable {readable : String → Bool} {importPaths : List String} {item : DocumentItem}
  {filename : String}

/-- What ends in the path of a class is a file for it. -/
theorem checkFilename_of_suffix (cwd : String) {package : Option String} {name : String}
    (h : expectedPath package name <:+ filename.toList) :
    checkFilename cwd filename package name = false := by
  have habsolute : expectedPath package name <:+ absolute cwd filename := by
    unfold absolute
    split
    · exact h
    · exact h.trans (List.suffix_append _ _)
  rcases habsolute with ⟨front, hfront⟩
  unfold checkFilename
  rw [← hfront]
  simp [strcasecmp]

theorem slashes_append (s t : List Char) : slashes (s ++ t) = slashes s ++ slashes t :=
  List.map_append

/-- A name without dots is its own path. -/
theorem slashes_of_notMem {s : List Char} (h : '.' ∉ s) : slashes s = s := by
  have hsame : slashes s = s.map id := by
    refine List.map_congr_left fun c hc => if_neg ?_
    rintro rfl
    exact h hc
  rw [hsame, List.map_id]

theorem slashes_fullname (hdot : '.' ∉ item.name.toList) :
    slashes item.fullname ++ ".aidl".toList = expectedPath item.package item.name := by
  have hname : item.name.toList.takeWhile (· != '.') = item.name.toList := by
    rw [List.takeWhile_eq_self_iff]
    intro c hc
    have hne : c ≠ '.' := fun heq => hdot (heq ▸ hc)
    simpa using hne
  rw [DocumentItem.fullname, slashes_append, slashes_of_notMem hdot, expectedPath, hname,
    List.append_assoc]

/-- The file that is found for a class is one the class may be in. -/
theorem findImportFile_checkFilename (cwd : String) (hdot : '.' ∉ item.name.toList)
    (hfind : findImportFile readable importPaths (String.ofList item.fullname) = some filename) :
    checkFilename cwd filename item.package item.name = false := by
  have hmem := List.mem_of_find?_eq_some hfind
  rcases List.mem_map.1 hmem with ⟨path, -, rfl⟩
  refine checkFilename_of_suffix cwd ?_
  rw [String.toList_ofList, String.toList_ofList, slashes_fullname hdot]
  exact List.suffix_append _ _

theorem findImportFile_checkFilename_log :
    checkFilename "/home/demo" "aidl/demo/ILog.aidl" (some "demo") "ILog" = false := by
  have hfind : findImportFile (fun _ => true) ["aidl"] (String.ofList
      (DocumentItem.interface { package := some "demo", name := "ILog", items := [] }).fullname) =
        some "aidl/demo/ILog.aidl" := by decide
  have hchecked := findImportFile_checkFilename "/home/demo" (by decide) hfind
  exact hchecked

end Aidl
