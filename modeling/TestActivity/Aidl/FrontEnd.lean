import TestActivity.Aidl.Files

/-!
# The front end

`compile_aidl` as far as the tree it generates from: the preprocessed files fill the
table, the main file and its imports are parsed, and then everything is checked.
-/

namespace Aidl

/-- What `compile_aidl` comes to before anything is written. -/
inductive Compiled where
  | failed
  /-- The arrays of `parse_preprocessed_file` are read before they are written. -/
  | uninitialized
  /-- The items of a parcelable are read as if it were an interface. -/
  | misread
  | onlyParcelable
  | generate (ns : Namespace) (c : InterfaceType) (ids : List ℤ)

/-- The directory of the compiler, which files can be read, the text of a file, and what
the parser makes of one: its items and the classes it imports, if it is well formed and
not empty. -/
structure Sources where
  cwd : String
  readable : String → Bool
  text : String → Option (List Char)
  parse : String → Option (List DocumentItem × List String)

/-- `Options`. -/
structure Options where
  failOnParcelable : Bool := false
  importPaths : List String := []
  preprocessedFiles : List String := []
  inputFileName : String

/-- `exactly_one_interface`: the error and `onlyParcelable`, which is left as it
was by the first two errors. -/
def exactlyOneInterface (failOnParcelable : Bool) : List DocumentItem → Bool × Bool
  | [] => (true, false)
  | item :: items =>
    match items with
    | .interface _ :: _ => (true, false)
    | _ =>
      match item with
      | .userData _ => (failOnParcelable, true)
      | .interface _ => (false, false)

/-- The first loop of `compile_aidl`: the errors and the table. -/
def parsePreprocessedFiles (src : Sources) (ns : Namespace) :
    List String → Option (Bool × Namespace)
  | [] => some (false, ns)
  | s :: ss =>
    match src.text s with
    | none => (parsePreprocessedFiles src ns ss).map fun (_, ns) => (true, ns)
    | some file =>
      match parsePreprocessedFile ns file with
      | none => none
      | some (err, ns) => (parsePreprocessedFiles src ns ss).map fun (errs, ns) => (err || errs, ns)

/-- The loop over the imports: the files of those classes that the table does not have. -/
def readImports (src : Sources) (importPaths : List String) (ns : Namespace) :
    List String → Option (List (String × List DocumentItem))
  | [] => some []
  | neededClass :: rest =>
    if (ns.find neededClass).isSome then readImports src importPaths ns rest
    else
      (findImportFile src.readable importPaths neededClass).bind fun filename =>
        (src.parse filename).bind fun (doc, _) =>
          (readImports src importPaths ns rest).map ((filename, doc) :: ·)

/-- The checks of `compile_aidl`: the names of the files, the declared types, the methods,
and the numbers of the methods of the first item. -/
def checkDocuments (cwd : String) (o : Options) (ns : Namespace) (mainDoc : List DocumentItem)
    (imports : List (String × List DocumentItem)) : Compiled :=
  match mainDoc with
  | [] => .failed
  | item :: _ =>
    let filesErr := checkFilenames cwd o.inputFileName mainDoc ||
      imports.any fun i => checkFilenames cwd i.1 i.2
    let (gatherErr, ns) := gatherTypes ns (mainDoc ++ imports.flatMap (·.2))
    let typesErr := checkTypes ns mainDoc
    let (oneErr, onlyParcelable) := exactlyOneInterface o.failOnParcelable mainDoc
    let err := filesErr || gatherErr || typesErr || oneErr
    if onlyParcelable then
      if err then .failed else .onlyParcelable
    else
      match item with
      | .userData _ => .misread
      | .interface c =>
        match checkAndAssignMethodIds c.items with
        | none => .failed
        | some ids => if err then .failed else .generate ns c ids

/-- `compile_aidl`. -/
def compileAidl (src : Sources) (o : Options) : Compiled :=
  match parsePreprocessedFiles src (registerBaseTypes {}) o.preprocessedFiles with
  | none => .uninitialized
  | some (true, _) => .failed
  | some (false, ns) =>
    match src.parse o.inputFileName with
    | none => .failed
    | some (mainDoc, neededClasses) =>
      match readImports src o.importPaths ns neededClasses with
      | none => .failed
      | some imports => checkDocuments src.cwd o ns mainDoc imports

variable {src : Sources} {o : Options} {ns ns₀ : Namespace} {c : InterfaceType} {ids : List ℤ}
  {mainDoc : List DocumentItem} {imports : List (String × List DocumentItem)} {cwd : String}

/-- The cast of `compile_aidl` meets a parcelable where one stands in front of an
interface, and nowhere else: all errors are only looked at afterwards. -/
theorem checkDocuments_misread_iff :
    checkDocuments cwd o ns mainDoc imports = .misread ↔
      ∃ p c rest, mainDoc = .userData p :: .interface c :: rest := by
  constructor
  · intro h
    unfold checkDocuments at h
    cases mainDoc with
    | nil => cases h
    | cons item items =>
        dsimp only at h
        split at h
        · split at h <;> cases h
        · next honly =>
            cases item with
            | interface c =>
                dsimp only at h
                split at h
                · cases h
                · split at h <;> cases h
            | userData p =>
                -- with anything else behind it, it would have been the only one
                cases items with
                | nil => exact absurd rfl honly
                | cons item' items =>
                    cases item' with
                    | interface c => exact ⟨p, c, items, rfl⟩
                    | userData p' => exact absurd rfl honly
  · rintro ⟨p, c, rest, rfl⟩
    rfl

/-- It comes to the cast when everything in front of the checks went well. -/
theorem compileAidl_misread_iff :
    compileAidl src o = .misread ↔
      ∃ ns p c rest neededClasses,
        parsePreprocessedFiles src (registerBaseTypes {}) o.preprocessedFiles = some (false, ns) ∧
        src.parse o.inputFileName = some (.userData p :: .interface c :: rest, neededClasses) ∧
        (readImports src o.importPaths ns neededClasses).isSome := by
  unfold compileAidl
  constructor
  · intro h
    split at h
    · cases h
    · cases h
    · next ns hns =>
        split at h
        · cases h
        · next mainDoc neededClasses hparse =>
            split at h
            · cases h
            · next imports himports =>
                rcases checkDocuments_misread_iff.1 h with ⟨p, c, rest, rfl⟩
                exact ⟨ns, p, c, rest, neededClasses, hns, hparse, by rw [himports]; rfl⟩
  · rintro ⟨ns, p, c, rest, neededClasses, hns, hparse, himports⟩
    rcases Option.isSome_iff_exists.1 himports with ⟨imports, himports⟩
    rw [hns, hparse]
    dsimp only
    rw [himports]
    exact checkDocuments_misread_iff.2 ⟨p, c, rest, rfl⟩

/-! ## An interface that is let through -/

theorem checkTypes_cons {items : List DocumentItem}
    (h : checkTypes ns (.interface c :: items) = false) :
    checkMethods ns c.rpc [] c.items = false := by
  rw [checkTypes, Bool.or_eq_false_iff] at h
  exact h.1

theorem checkDocuments_generate
    (h : checkDocuments cwd o ns₀ mainDoc imports = .generate ns c ids) :
    ∃ items, gatherTypes ns₀ (.interface c :: items) = (false, ns) ∧
      checkMethods ns c.rpc [] c.items = false ∧ checkAndAssignMethodIds c.items = some ids := by
  unfold checkDocuments at h
  cases mainDoc with
  | nil => cases h
  | cons item items =>
      dsimp only at h
      split at h
      · split at h <;> cases h
      · split at h
        · cases h
        · next c' =>
            split at h
            · cases h
            · next ids' hids =>
                split at h
                · cases h
                · next herr =>
                    rw [Bool.not_eq_true] at herr
                    simp only [Bool.or_eq_false_iff] at herr
                    rw [Compiled.generate.injEq] at h
                    rcases h with ⟨hns, hc, hids'⟩
                    subst hc hids'
                    rw [← hns]
                    exact ⟨_, Prod.ext herr.1.1.2 rfl, checkTypes_cons herr.1.2, hids⟩

/-- What is generated has passed every check, on top of what the preprocessed files
declare. -/
theorem compileAidl_spec (h : compileAidl src o = .generate ns c ids) :
    ∃ ns₀ items,
      parsePreprocessedFiles src (registerBaseTypes {}) o.preprocessedFiles = some (false, ns₀) ∧
      gatherTypes ns₀ (.interface c :: items) = (false, ns) ∧
      checkMethods ns c.rpc [] c.items = false ∧ checkAndAssignMethodIds c.items = some ids := by
  unfold compileAidl at h
  split at h
  · cases h
  · cases h
  · next ns₀ hns =>
      split at h
      · cases h
      · split at h
        · cases h
        · rcases checkDocuments_generate h with ⟨items, hgather, hmethods, hids⟩
          exact ⟨ns₀, items, hns, hgather, hmethods, hids⟩

/-- The preprocessed files declare what their lines can declare. -/
theorem parsePreprocessedFiles_items {files : List String} {err : Bool}
    (h : parsePreprocessedFiles src ns₀ files = some (err, ns)) :
    ∃ items, (∀ item ∈ items, ∃ k package name, item = Keyword.item k package name) ∧
      ns = (gatherTypes ns₀ items).2 := by
  induction files generalizing ns₀ err with
  | nil =>
      cases h
      exact ⟨[], by simp, rfl⟩
  | cons file files ih =>
      rw [parsePreprocessedFiles] at h
      split at h
      · rw [Option.map_eq_some_iff] at h
        rcases h with ⟨r, hr, heq⟩
        cases heq
        exact ih hr
      · split at h
        · cases h
        · next err' ns₁ hfile =>
            rw [Option.map_eq_some_iff] at h
            rcases h with ⟨r, hr, heq⟩
            cases heq
            rcases parsePreprocessedLines_items hfile with ⟨first, hfirst, rfl⟩
            rcases ih hr with ⟨rest, hrest, hns⟩
            refine ⟨first ++ rest, ?_, by rw [gatherTypes_append, hns]⟩
            intro item hitem
            rcases List.mem_append.1 hitem with hitem | hitem
            · exact hfirst item hitem
            · exact hrest item hitem

end Aidl
