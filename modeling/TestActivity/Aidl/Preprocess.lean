import TestActivity.Aidl.Check
import TestActivity.Lib.Lines
import TestActivity.Lib.Scan

/-!
# The preprocessed file

With `--preprocess` the compiler writes a line for the type of each file it is given, and
with `-p` it reads such lines instead of the files. The reader takes a line apart into two
arrays that keep what the last line left in them. `Entry` is what a line is meant to say,
and `readEntries` what becomes of the lines (`parsePreprocessedFile_entries`).
-/

namespace Aidl

/-! ## Reading -/

/-- The characters that end `%[^; \r\n\t]`. -/
def fullnameEnd (c : Char) : Bool := [';', ' ', '\r', '\n', '\t'].contains c

/-- The arrays `type` and `fullname`, `none` as long as nothing was written to them. -/
structure Buffers where
  type : Option (List Char) := none
  fullname : Option (List Char) := none
deriving DecidableEq, Repr

/-- `sscanf(line, "%s %[^; \r\n\t];", type, fullname)`. -/
def scanLine (line : List Char) (b : Buffers) : Buffers :=
  match Scan.word isSpace line with
  | none => b
  | some (type, rest) =>
    match Scan.until_ fullnameEnd (rest.dropWhile isSpace) with
    | none => { b with type := some type }
    | some (fullname, _) => ⟨some type, some fullname⟩

/-- The item of a line; `none` for a "bad type in line". -/
def lineItem (type : List Char) (package : Option String) (name : String) : Option DocumentItem :=
  if type = "parcelable".toList then some (.userData ⟨package, name, true, false⟩)
  else if type = "flattenable".toList then some (.userData ⟨package, name, false, true⟩)
  else if type = "interface".toList then
    some (.interface { package := package, name := name, items := [] })
  else none

/-- The item that the arrays stand for, and what is in them afterwards; `none` if they
are read before they are written. -/
def lineDeclares (b : Buffers) : Option (Option DocumentItem × Buffers) :=
  match b.type, b.fullname with
  | some type, some fullname =>
    match Scan.splitLast '.' fullname with
    | some (packagename, classname) =>
      -- a zero has taken the place of the dot
      some (lineItem type (some (String.ofList packagename)) (String.ofList classname),
        { b with fullname := some packagename })
    | none => some (lineItem type none (String.ofList fullname), b)
  | _, _ => none

/-- The loop of `parse_preprocessed_file`: the error and the table. -/
def parsePreprocessedLines (ns : Namespace) (b : Buffers) :
    List (List Char) → Option (Bool × Namespace)
  | [] => some (false, ns)
  | text :: texts =>
    let line := text.takeWhile (· != '\x00')
    if line = [] ∨ line.take 2 = ['/', '/'] then parsePreprocessedLines ns b texts
    else
      match lineDeclares (scanLine line b) with
      | none => none
      | some (none, _) => some (true, ns)
      -- what `gather_types` returns is overwritten by the next line, and then dropped
      | some (some item, b) => parsePreprocessedLines (gatherType ns item).2 b texts

/-- The size of `line`. -/
def LINE_SIZE : ℕ := 1024

theorem one_lt_lineSize : 1 < LINE_SIZE := by decide

/-- `parse_preprocessed_file`, for the text of a file. -/
def parsePreprocessedFile (ns : Namespace) (file : List Char) : Option (Bool × Namespace) :=
  parsePreprocessedLines ns {} (Lines.texts '\n' one_lt_lineSize file)

/-! ## Writing -/

/-- The line that `preprocess_aidl` writes for the first item of a file. -/
def preprocessLine : DocumentItem → String
  | .userData p =>
    -- the second assignment replaces the first
    (if p.rpcData then "flattenable " else if p.parcelable then "parcelable " else "") ++
      p.package.elim "" (· ++ ".") ++ p.name ++ ";\n"
  | .interface c => "interface " ++ c.package.elim "" (· ++ ".") ++ c.name ++ ";\n"

/-- What `preprocess_aidl` writes. -/
def preprocessAidl (docs : List DocumentItem) : List Char :=
  docs.flatMap fun item => (preprocessLine item).toList

/-! ## What the lines say -/

/-- The words a line may begin with. -/
inductive Keyword where
  | parcelable | flattenable | interface
deriving DecidableEq, Repr

namespace Keyword

def text : Keyword → List Char
  | parcelable => "parcelable".toList
  | flattenable => "flattenable".toList
  | interface => "interface".toList

def item (k : Keyword) (package : Option String) (name : String) : DocumentItem :=
  match k with
  | parcelable => .userData ⟨package, name, true, false⟩
  | flattenable => .userData ⟨package, name, false, true⟩
  | interface => .interface { package := package, name := name, items := [] }

/-- The item with this name: what is in front of the last dot is the package. -/
def declared (k : Keyword) (fullname : List Char) : DocumentItem :=
  match Scan.splitLast '.' fullname with
  | some (package, name) => k.item (some (String.ofList package)) (String.ofList name)
  | none => k.item none (String.ofList fullname)

end Keyword

/-- What a name leaves in the array: its package, or all of it. -/
def packageOf (fullname : List Char) : List Char :=
  match Scan.splitLast '.' fullname with
  | some (package, _) => package
  | none => fullname

/-- A line of a preprocessed file. -/
inductive Entry where
  /-- what is behind the slashes -/
  | comment (text : List Char)
  | blank (text : List Char)
  | declaration (keyword : Keyword) (fullname : List Char)
deriving DecidableEq, Repr

namespace Entry

def text : Entry → List Char
  | comment text => '/' :: '/' :: text
  | blank text => text
  | declaration keyword fullname => keyword.text ++ ' ' :: (fullname ++ [';'])

end Entry

def fileText (es : List Entry) : List Char := es.flatMap fun e => e.text ++ ['\n']

/-- What becomes of the lines. A blank one declares what is left of the name before it,
and there must be one. -/
def readEntries (ns : Namespace) (last : Option (Keyword × List Char)) :
    List Entry → Option Namespace
  | [] => some ns
  | .comment _ :: es => readEntries ns last es
  | .blank _ :: es =>
    match last with
    | none => none
    | some (keyword, fullname) =>
      readEntries (gatherType ns (keyword.declared fullname)).2
        (some (keyword, packageOf fullname)) es
  | .declaration keyword fullname :: es =>
    readEntries (gatherType ns (keyword.declared fullname)).2
      (some (keyword, packageOf fullname)) es

/-- The characters of a name that is read as it was written. -/
def fullnameChar (c : Char) : Bool := !isSpace c && c != ';' && c != '\x00'

/-- The line is what it looks like, and has room. -/
def Entry.Fits (e : Entry) : Prop :=
  e.text.length + 1 < LINE_SIZE ∧
    match e with
    | comment text => '\n' ∉ text
    | blank text => ∀ c ∈ text, isSpace c = true ∧ c ≠ '\n'
    | declaration _ fullname => fullname ≠ [] ∧ ∀ c ∈ fullname, fullnameChar c = true

namespace DocumentItem

def keyword : DocumentItem → Keyword
  | .userData p => if p.rpcData then .flattenable else .parcelable
  | .interface _ => .interface

def package : DocumentItem → Option String
  | .userData p => p.package
  | .interface c => c.package

def name : DocumentItem → String
  | .userData p => p.name
  | .interface c => c.name

def fullname (item : DocumentItem) : List Char :=
  (item.package.elim "" (· ++ ".")).toList ++ item.name.toList

/-- What the reader makes of the line of an item. -/
def preprocessed (item : DocumentItem) : DocumentItem := item.keyword.declared item.fullname

def entry (item : DocumentItem) : Entry := .declaration item.keyword item.fullname

/-- The parser says of every user type what it can be written to. -/
def HasKeyword : DocumentItem → Prop
  | .userData p => p.parcelable = true ∨ p.rpcData = true
  | .interface _ => True

end DocumentItem

/-- The types that an item adds to the table. -/
def DocumentItem.types (item : DocumentItem) : List Ty := item.type :: item.inner

/-- A declaration and the blank lines behind it. -/
structure Paragraph where
  keyword : Keyword
  fullname : List Char
  blanks : List (List Char)

def Paragraph.entries (p : Paragraph) : List Entry :=
  .declaration p.keyword p.fullname :: p.blanks.map .blank

/-- The item with a name, and the items with what is in front of its last dots. -/
def Keyword.outwards (k : Keyword) (fullname : List Char) : ℕ → List DocumentItem
  | 0 => [k.declared fullname]
  | n + 1 => k.declared fullname :: k.outwards (packageOf fullname) n

def Paragraph.items (p : Paragraph) : List DocumentItem :=
  p.keyword.outwards p.fullname p.blanks.length

variable {ns : Namespace} {k : Keyword} {fullname : List Char} {c : Char}

/-! ## One line -/

theorem fullnameChar_eq (h : fullnameChar c = true) :
    isSpace c = false ∧ c ≠ ';' ∧ c ≠ '\x00' := by
  simpa [fullnameChar, and_assoc] using h

/-- A blank is a blank, a tabulator, or one of the four characters behind it. -/
theorem isSpace_of_fullnameEnd (h : fullnameEnd c = true) (hne : c ≠ ';') : isSpace c = true := by
  unfold fullnameEnd at h
  simp only [List.contains_eq_mem, List.mem_cons, List.not_mem_nil, or_false,
    decide_eq_true_eq] at h
  rcases h with rfl | rfl | rfl | rfl | rfl
  · exact absurd rfl hne
  · decide
  · decide
  · decide
  · decide

theorem fullnameEnd_eq_false (h : fullnameChar c = true) : fullnameEnd c = false := by
  have hc := fullnameChar_eq h
  by_contra hend
  have hspace := isSpace_of_fullnameEnd (by simpa using hend) hc.2.1
  rw [hc.1] at hspace
  cases hspace

theorem Keyword.text_char (k : Keyword) : ∀ c ∈ k.text, fullnameChar c = true := by
  cases k with
  | parcelable => exact List.all_eq_true.1 (by decide)
  | flattenable => exact List.all_eq_true.1 (by decide)
  | interface => exact List.all_eq_true.1 (by decide)

theorem Keyword.text_ne_nil (k : Keyword) : k.text ≠ [] := by
  cases k with
  | parcelable => decide
  | flattenable => decide
  | interface => decide

theorem lineItem_text (k : Keyword) (package : Option String) (name : String) :
    lineItem k.text package name = some (k.item package name) := by
  cases k with
  | parcelable => rfl
  | flattenable => rfl
  | interface => rfl

/-- What the arrays hold after a line. -/
def buffersOf (last : Option (Keyword × List Char)) : Buffers where
  type := last.map fun l => l.1.text
  fullname := last.map (·.2)

theorem lineDeclares_buffersOf (k : Keyword) (fullname : List Char) :
    lineDeclares (buffersOf (some (k, fullname))) =
      some (some (k.declared fullname), buffersOf (some (k, packageOf fullname))) := by
  unfold lineDeclares Keyword.declared packageOf
  cases hsplit : Scan.splitLast '.' fullname with
  | none => simp [buffersOf, hsplit, lineItem_text]
  | some parts => simp [buffersOf, hsplit, lineItem_text]

/-- A blank line leaves the arrays as they are. -/
theorem scanLine_blank {text : List Char} (htext : ∀ c ∈ text, isSpace c = true ∧ c ≠ '\n')
    (b : Buffers) : scanLine (text ++ ['\n']) b = b := by
  have hblank : Scan.word isSpace (text ++ ['\n']) = none := by
    apply Scan.word_blank
    intro c hc
    rcases List.mem_append.1 hc with hc | hc
    · exact (htext c hc).1
    · rw [List.mem_singleton.1 hc]
      decide
  rw [scanLine, hblank]

/-- A declaration fills both. -/
theorem scanLine_declaration (hne : fullname ≠ []) (hname : ∀ c ∈ fullname, fullnameChar c = true)
    (b : Buffers) :
    scanLine ((Entry.declaration k fullname).text ++ ['\n']) b =
      buffersOf (some (k, fullname)) := by
  have hline : (Entry.declaration k fullname).text ++ ['\n'] =
      [] ++ (k.text ++ (' ' :: (fullname ++ [';', '\n']))) := by
    simp [Entry.text]
  have htype : Scan.word isSpace ((Entry.declaration k fullname).text ++ ['\n']) =
      some (k.text, ' ' :: (fullname ++ [';', '\n'])) := by
    rw [hline]
    refine Scan.word_append (fun c hc => absurd hc List.not_mem_nil) k.text_ne_nil ?_ ?_
    · intro c hc
      exact (fullnameChar_eq (k.text_char c hc)).1
    · intro c hc
      cases hc
      decide
  have hskip : (' ' :: (fullname ++ [';', '\n'])).dropWhile isSpace = fullname ++ [';', '\n'] := by
    rw [List.dropWhile_cons_of_pos (by decide)]
    cases fullname with
    | nil => exact absurd rfl hne
    | cons c cs =>
        have hc := (fullnameChar_eq (hname c List.mem_cons_self)).1
        simp [hc]
  have hfullname : Scan.until_ fullnameEnd (fullname ++ [';', '\n']) =
      some (fullname, [';', '\n']) := by
    refine Scan.until_append hne (fun c hc => fullnameEnd_eq_false (hname c hc)) ?_
    intro c hc
    cases hc
    decide
  unfold scanLine
  rw [htype]
  dsimp only
  rw [hskip, hfullname]
  rfl

/-! ## The whole file -/

theorem Entry.Fits.newline_notMem {e : Entry} (h : e.Fits) : '\n' ∉ e.text := by
  rcases h with ⟨-, h⟩
  cases e with
  | comment text => simpa [Entry.text] using h
  | blank text =>
      intro hmem
      exact (h _ hmem).2 rfl
  | declaration k fullname =>
      -- a newline is a blank, and the words have none
      intro hmem
      have hchar : ∀ c, fullnameChar c = true → c ≠ '\n' := by
        rintro c hc rfl
        exact absurd hc (by decide)
      simp only [Entry.text, List.mem_append, List.mem_cons, List.not_mem_nil, or_false] at hmem
      rcases hmem with hmem | hmem | hmem | hmem
      · exact hchar _ (k.text_char _ hmem) rfl
      · exact absurd hmem (by decide)
      · exact hchar _ (h.2 _ hmem) rfl
      · exact absurd hmem (by decide)

/-- A line without zeros is the string it is read as. -/
theorem takeWhile_line {line : List Char} (h : ∀ c ∈ line, c ≠ '\x00') :
    line.takeWhile (· != '\x00') = line := by
  rw [List.takeWhile_eq_self_iff]
  intro c hc
  simpa using h c hc

theorem declaration_chars (hname : ∀ c ∈ fullname, fullnameChar c = true) :
    ∀ c ∈ (Entry.declaration k fullname).text ++ ['\n'], c ≠ '\x00' := by
  intro c hc
  simp only [Entry.text, List.mem_append, List.mem_cons, List.not_mem_nil, or_false] at hc
  rcases hc with (hc | rfl | hc | rfl) | rfl
  · exact (fullnameChar_eq (k.text_char c hc)).2.2
  · decide
  · exact (fullnameChar_eq (hname c hc)).2.2
  · decide
  · decide

theorem Keyword.text_head (k : Keyword) : ∃ c cs, k.text = c :: cs ∧ c ≠ '/' := by
  cases k with
  | parcelable => exact ⟨'p', "arcelable".toList, by decide, by decide⟩
  | flattenable => exact ⟨'f', "lattenable".toList, by decide, by decide⟩
  | interface => exact ⟨'i', "nterface".toList, by decide, by decide⟩

/-- A declaration is no comment. -/
theorem Keyword.take_two (k : Keyword) (rest : List Char) :
    (k.text ++ rest).take 2 ≠ ['/', '/'] := by
  rcases k.text_head with ⟨c, cs, htext, hc⟩
  rw [htext, List.cons_append, List.take_succ_cons]
  intro h
  exact hc (List.cons.inj h).1

variable {last : Option (Keyword × List Char)} {texts : List (List Char)} {es : List Entry}

/-- A line that is not skipped declares an item or is the end. -/
theorem parsePreprocessedLines_cons {line : List Char} (hchars : ∀ c ∈ line, c ≠ '\x00')
    (hne : line ≠ []) (hslashes : line.take 2 ≠ ['/', '/']) {b : Buffers}
    (hline : scanLine line b = buffersOf (some (k, fullname))) :
    parsePreprocessedLines ns b (line :: texts) =
      parsePreprocessedLines (gatherType ns (k.declared fullname)).2
        (buffersOf (some (k, packageOf fullname))) texts := by
  have hskip : ¬(line = [] ∨ line.take 2 = ['/', '/']) := not_or.2 ⟨hne, hslashes⟩
  rw [parsePreprocessedLines]
  simp only [takeWhile_line hchars]
  rw [if_neg hskip, hline, lineDeclares_buffersOf]

/-- One line of the file is one entry. -/
theorem parsePreprocessedLines_entries (hes : ∀ e ∈ es, e.Fits) :
    parsePreprocessedLines ns (buffersOf last) (es.map fun e => e.text ++ ['\n']) =
      (readEntries ns last es).map fun ns => (false, ns) := by
  induction es generalizing ns last with
  | nil => rfl
  | cons e es ih =>
      have hrest : ∀ e ∈ es, e.Fits := fun e he => hes e (List.mem_cons_of_mem _ he)
      rcases hes e List.mem_cons_self with ⟨-, hfits⟩
      rw [List.map_cons]
      cases e with
      | comment text =>
          have hskip : ((Entry.comment text).text ++ ['\n']).takeWhile (· != '\x00') =
              '/' :: '/' :: (text ++ ['\n']).takeWhile (· != '\x00') := by simp [Entry.text]
          rw [parsePreprocessedLines]
          simp only [hskip]
          rw [if_pos (.inr rfl), readEntries, ih hrest]
      | blank text =>
          -- neither empty, since the newline is in it, nor a comment
          have hchars : ∀ c ∈ text ++ ['\n'], isSpace c = true := by
            intro c hc
            rcases List.mem_append.1 hc with hc | hc
            · exact (hfits c hc).1
            · rw [List.mem_singleton.1 hc]
              decide
          have hzero : ∀ c ∈ text ++ ['\n'], c ≠ '\x00' := by
            rintro c hc rfl
            exact absurd (hchars _ hc) (by decide)
          have hslashes : (text ++ ['\n']).take 2 ≠ ['/', '/'] := by
            intro htake
            have hmem : '/' ∈ text ++ ['\n'] := List.mem_of_mem_take (htake ▸ List.mem_cons_self)
            exact absurd (hchars _ hmem) (by decide)
          have hscan := scanLine_blank hfits (buffersOf last)
          cases last with
          | none =>
              -- both sides give up: the arrays hold nothing yet
              have hskip : ¬(text ++ ['\n'] = [] ∨ (text ++ ['\n']).take 2 = ['/', '/']) :=
                not_or.2 ⟨by simp, hslashes⟩
              rw [Entry.text, parsePreprocessedLines]
              simp only [takeWhile_line hzero]
              rw [if_neg hskip, hscan]
              rfl
          | some l =>
              rw [Entry.text, parsePreprocessedLines_cons hzero (by simp) hslashes hscan,
                ih hrest, readEntries]
      | declaration k fullname =>
          have hslashes : ((Entry.declaration k fullname).text ++ ['\n']).take 2 ≠ ['/', '/'] := by
            rw [Entry.text, List.append_assoc]
            exact k.take_two _
          rw [parsePreprocessedLines_cons (declaration_chars hfits.2) (by simp) hslashes
            (scanLine_declaration hfits.1 hfits.2 _), ih hrest, readEntries]

/-- `fgets` finds the lines. -/
theorem texts_fileText (hes : ∀ e ∈ es, e.Fits) :
    Lines.texts '\n' one_lt_lineSize (fileText es) = es.map fun e => e.text ++ ['\n'] := by
  induction es with
  | nil => exact Lines.texts_nil one_lt_lineSize
  | cons e es ih =>
      have he := hes e List.mem_cons_self
      have hrest : ∀ e ∈ es, e.Fits := fun e he => hes e (List.mem_cons_of_mem _ he)
      have htext : fileText (e :: es) = e.text ++ '\n' :: fileText es := by simp [fileText]
      rw [htext, Lines.texts_line one_lt_lineSize he.newline_notMem he.1, ih hrest, List.map_cons]

/-- What the characters of a file become is what its lines say. -/
theorem parsePreprocessedFile_entries (hes : ∀ e ∈ es, e.Fits) :
    parsePreprocessedFile ns (fileText es) =
      (readEntries ns none es).map fun ns => (false, ns) := by
  have hlines : parsePreprocessedLines ns (buffersOf none) (es.map fun e => e.text ++ ['\n']) =
      (readEntries ns none es).map fun ns => (false, ns) := parsePreprocessedLines_entries hes
  rw [parsePreprocessedFile, texts_fileText hes]
  exact hlines

/-! ## What is declared -/

variable {item : DocumentItem} {items docs : List DocumentItem} {name : String} {t : Ty}

theorem lineItem_eq_some {type : List Char} {package : Option String}
    (h : lineItem type package name = some item) : ∃ k, item = Keyword.item k package name := by
  unfold lineItem at h
  split at h
  · exact ⟨.parcelable, (Option.some.inj h).symm⟩
  · split at h
    · exact ⟨.flattenable, (Option.some.inj h).symm⟩
    · split at h
      · exact ⟨.interface, (Option.some.inj h).symm⟩
      · cases h

theorem lineDeclares_item {b b' : Buffers} (h : lineDeclares b = some (some item, b')) :
    ∃ k package name, item = Keyword.item k package name := by
  unfold lineDeclares at h
  split at h
  · split at h
    · rw [Option.some.injEq, Prod.mk.injEq] at h
      rcases lineItem_eq_some h.1 with ⟨k, hk⟩
      exact ⟨k, _, _, hk⟩
    · rw [Option.some.injEq, Prod.mk.injEq] at h
      rcases lineItem_eq_some h.1 with ⟨k, hk⟩
      exact ⟨k, _, _, hk⟩
  · cases h

/-- Whatever is in a file, the table grows by items that a line can declare. -/
theorem parsePreprocessedLines_items {b : Buffers} {lines : List (List Char)} {err : Bool}
    {ns' : Namespace} (h : parsePreprocessedLines ns b lines = some (err, ns')) :
    ∃ items, (∀ item ∈ items, ∃ k package name, item = Keyword.item k package name) ∧
      ns' = (gatherTypes ns items).2 := by
  induction lines generalizing ns b with
  | nil =>
      cases h
      exact ⟨[], by simp, rfl⟩
  | cons text lines ih =>
      rw [parsePreprocessedLines] at h
      split at h
      · exact ih h
      · split at h
        · cases h
        · cases h
          exact ⟨[], by simp, rfl⟩
        · next item b' hline =>
            rcases ih h with ⟨items, hitems, hns⟩
            refine ⟨item :: items, ?_, hns⟩
            intro i hi
            rcases List.mem_cons.1 hi with rfl | hi
            · exact lineDeclares_item hline
            · exact hitems i hi

theorem Namespace.find_foldl_add (ts : List Ty) (ns : Namespace) (name : String) :
    (ts.foldl Namespace.add ns).find name =
      (ns.find name).or (ts.find? (·.qualifiedName == name)) := by
  induction ts generalizing ns with
  | nil => simp
  | cons t ts ih =>
      rw [List.foldl_cons, ih, find_add, List.find?_cons, Option.or_assoc]
      by_cases hname : t.qualifiedName = name
      · simp [hname]
      · have hbeq : (t.qualifiedName == name) = false := by simpa using hname
        rw [if_neg hname, Option.none_or, hbeq]

/-- A declared type takes no name away. -/
theorem Namespace.find_gatherType_of_some (item : DocumentItem) (h : ns.find name = some t) :
    (gatherType ns item).2.find name = some t := by
  unfold gatherType
  split
  · rw [find_foldl_add, find_add, h, Option.some_or, Option.some_or]
  · exact h

theorem Namespace.find_gatherTypes_of_some (items : List DocumentItem)
    (h : ns.find name = some t) : (gatherTypes ns items).2.find name = some t := by
  induction items generalizing ns with
  | nil => exact h
  | cons item items ih => exact ih (find_gatherType_of_some item h)

/-- The type that a declared name stands for: the one that was there, or the declared one. -/
theorem Namespace.find_gatherType (ns : Namespace) (item : DocumentItem) :
    (gatherType ns item).2.find item.type.qualifiedName =
      (ns.find item.type.qualifiedName).or (some item.type) := by
  unfold gatherType
  cases hfind : ns.find item.type.qualifiedName with
  | none => simp [find_foldl_add, find_add, hfind]
  | some u => simpa using hfind

/-- Items that do not get in each other's way are all found. -/
theorem Namespace.find_gatherTypes
    (hnew : ∀ t ∈ items.flatMap DocumentItem.types, ns.find t.qualifiedName = none)
    (hnodup : ((items.flatMap DocumentItem.types).map Ty.qualifiedName).Nodup)
    (hitem : item ∈ items) :
    (gatherTypes ns items).2.find item.type.qualifiedName = some item.type := by
  induction items generalizing ns with
  | nil => cases hitem
  | cons other items ih =>
      rw [List.flatMap_cons, List.map_append, List.nodup_append] at hnodup
      have hother : ns.find other.type.qualifiedName = none :=
        hnew _ (List.mem_append_left _ List.mem_cons_self)
      rcases List.mem_cons.1 hitem with rfl | hitem
      · -- what comes behind leaves the name alone
        have hfirst := find_gatherType ns item
        rw [hother, Option.none_or] at hfirst
        exact find_gatherTypes_of_some items hfirst
      · have hgather : (gatherType ns other).2 = other.types.foldl Namespace.add ns := by
          rw [gatherType, hother]
          rfl
        have hrest : ∀ t ∈ items.flatMap DocumentItem.types,
            (gatherType ns other).2.find t.qualifiedName = none := by
          intro t ht
          have hold := hnew t (List.mem_append_right _ ht)
          have hnone : other.types.find? (·.qualifiedName == t.qualifiedName) = none := by
            rw [List.find?_eq_none]
            intro u hu
            have hne := hnodup.2.2 _ (List.mem_map_of_mem hu) _ (List.mem_map_of_mem ht)
            simpa using hne
          rw [hgather, find_foldl_add, hold, hnone, Option.or_none]
        exact ih hrest hnodup.2.1 hitem

/-! ## What was written is read -/

theorem line_toList {keyword : String} (hkeyword : keyword.toList = k.text ++ [' '])
    (package name : String) : (keyword ++ package ++ name ++ ";\n").toList =
      (Entry.declaration k (package.toList ++ name.toList)).text ++ ['\n'] := by
  have hend : ";\n".toList = [';', '\n'] := by decide
  simp only [String.toList_append, hkeyword, hend, Entry.text]
  simp

theorem preprocessLine_eq (h : item.HasKeyword) :
    (preprocessLine item).toList = item.entry.text ++ ['\n'] := by
  cases item with
  | interface c => exact line_toList (k := .interface) (by decide) _ _
  | userData p =>
      unfold preprocessLine DocumentItem.entry DocumentItem.keyword
      dsimp only
      by_cases hrpc : p.rpcData = true
      · rw [if_pos hrpc, if_pos hrpc]
        exact line_toList (by decide) _ _
      · have hparcelable : p.parcelable = true := h.resolve_right hrpc
        rw [if_neg hrpc, if_neg hrpc, if_pos hparcelable]
        exact line_toList (by decide) _ _

theorem preprocessAidl_eq (hdocs : ∀ item ∈ docs, item.HasKeyword) :
    preprocessAidl docs = fileText (docs.map DocumentItem.entry) := by
  rw [preprocessAidl, fileText, List.flatMap_map]
  exact List.flatMap_congr fun item hitem => preprocessLine_eq (hdocs item hitem)

/-- Declarations without blank lines between them. -/
theorem readEntries_docs (docs : List DocumentItem) (last : Option (Keyword × List Char)) :
    readEntries ns last (docs.map DocumentItem.entry) =
      some (gatherTypes ns (docs.map DocumentItem.preprocessed)).2 := by
  induction docs generalizing ns last with
  | nil => rfl
  | cons item docs ih =>
      rw [List.map_cons, DocumentItem.entry, readEntries, ih]
      rfl

/-- The item has a keyword, a name that is read as it was written, and a line that has
room. -/
structure DocumentItem.Written (item : DocumentItem) : Prop where
  hasKeyword : item.HasKeyword
  fits : item.entry.Fits

theorem parsePreprocessedFile_docs (hdocs : ∀ item ∈ docs, item.Written) :
    parsePreprocessedFile ns (preprocessAidl docs) =
      some (false, (gatherTypes ns (docs.map DocumentItem.preprocessed)).2) := by
  have hfits : ∀ e ∈ docs.map DocumentItem.entry, e.Fits := by
    intro e he
    rcases List.mem_map.1 he with ⟨item, hitem, rfl⟩
    exact (hdocs item hitem).fits
  rw [preprocessAidl_eq fun item hitem => (hdocs item hitem).hasKeyword,
    parsePreprocessedFile_entries hfits, readEntries_docs, Option.map_some]

theorem DocumentItem.written_of_all (hkeyword : item.HasKeyword)
    (hroom : item.entry.text.length + 1 < LINE_SIZE) (hne : item.fullname ≠ [])
    (hall : item.fullname.all fullnameChar = true) : item.Written :=
  ⟨hkeyword, hroom, hne, List.all_eq_true.1 hall⟩

/-! ## What is kept -/

theorem Keyword.declared_of_splitLast {package back : List Char}
    (h : Scan.splitLast '.' fullname = some (package, back)) :
    k.declared fullname = k.item (some (String.ofList package)) (String.ofList back) := by
  rw [Keyword.declared, h]

theorem Keyword.item_name (k : Keyword) (package : Option String) (name : String) :
    (k.item package name).type.name = name := by
  cases k with
  | parcelable => rfl
  | flattenable => rfl
  | interface => rfl

theorem Keyword.item_qualifiedName (k : Keyword) (package : Option String) (name : String) :
    (k.item package name).type.qualifiedName =
      (if (package.getD "").isEmpty then "" else package.getD "" ++ ".") ++ name := by
  cases k with
  | parcelable => rfl
  | flattenable => rfl
  | interface => rfl

theorem DocumentItem.type_name (item : DocumentItem) : item.type.name = item.name := by
  cases item with
  | userData p => rfl
  | interface c => rfl

theorem DocumentItem.type_qualifiedName (item : DocumentItem) :
    item.type.qualifiedName =
      (if (item.package.getD "").isEmpty then "" else item.package.getD "" ++ ".") ++
        item.name := by
  cases item with
  | userData p => rfl
  | interface c => rfl

/-- A name without dots stays apart from its package. -/
theorem DocumentItem.preprocessed_eq (hdot : '.' ∉ item.name.toList) :
    item.preprocessed = item.keyword.item item.package item.name := by
  unfold preprocessed fullname
  cases hpackage : item.package with
  | none =>
      have hsplit := Scan.splitLast_of_notMem hdot
      simp [Keyword.declared, hsplit]
  | some package =>
      have happend : Scan.splitLast '.' (package.toList ++ '.' :: item.name.toList) =
          some (package.toList, item.name.toList) := Scan.splitLast_append hdot
      have hsplit : Scan.splitLast '.' ((package ++ ".").toList ++ item.name.toList) =
          some (package.toList, item.name.toList) := by simpa using happend
      rw [Option.elim_some, Keyword.declared_of_splitLast hsplit, String.ofList_toList,
        String.ofList_toList]

/-- A name with a dot does not come back. -/
theorem DocumentItem.preprocessed_name_ne (hdot : '.' ∈ item.name.toList) :
    item.preprocessed.type.name ≠ item.type.name := by
  rcases Scan.exists_last hdot with ⟨front, back, hname, hback⟩
  have hsplit : Scan.splitLast '.' item.fullname =
      some ((item.package.elim "" (· ++ ".")).toList ++ front, back) := by
    rw [fullname, hname, ← List.append_assoc]
    exact Scan.splitLast_append hback
  rw [preprocessed, Keyword.declared_of_splitLast hsplit, Keyword.item_name, type_name]
  intro heq
  have hlist := congrArg String.toList heq
  rw [String.toList_ofList] at hlist
  exact hback (hlist ▸ hdot)

/-- The qualified name is what the line says, unless it begins with a dot. -/
theorem DocumentItem.toList_qualifiedName (hhead : item.fullname.head? ≠ some '.') :
    item.type.qualifiedName.toList = item.fullname := by
  rw [type_qualifiedName, fullname, String.toList_append]
  unfold fullname at hhead
  cases hpackage : item.package with
  | none => simp
  | some package =>
      have hne : package ≠ "" := by
        rintro rfl
        rw [hpackage] at hhead
        exact hhead rfl
      simp [hne]

theorem DocumentItem.preprocessed_qualifiedName (hhead : item.fullname.head? ≠ some '.') :
    item.preprocessed.type.qualifiedName = item.type.qualifiedName := by
  rw [← String.toList_inj, toList_qualifiedName hhead, preprocessed]
  by_cases hdot : '.' ∈ item.fullname
  · rcases Scan.exists_last hdot with ⟨front, back, hfullname, hback⟩
    have hne : front ≠ [] := by
      rintro rfl
      rw [hfullname] at hhead
      exact hhead rfl
    rw [hfullname, Keyword.declared_of_splitLast (Scan.splitLast_append hback),
      Keyword.item_qualifiedName]
    simp [hne]
  · have hsplit := Scan.splitLast_of_notMem hdot
    have hdeclared : item.keyword.declared item.fullname =
        item.keyword.item none (String.ofList item.fullname) := by rw [Keyword.declared, hsplit]
    rw [hdeclared, Keyword.item_qualifiedName]
    simp

/-- What the line of an item tells all of: the name of the class in it has no dot, the
item is not flattenable and parcelable at once, and it is not one-way. -/
def DocumentItem.Kept (item : DocumentItem) : Prop :=
  '.' ∉ item.name.toList ∧
    match item with
    | .userData p => ¬(p.parcelable = true ∧ p.rpcData = true)
    | .interface c => c.oneway = false

theorem DocumentItem.preprocessed_type_iff (h : item.HasKeyword) :
    item.preprocessed.type = item.type ↔ item.Kept := by
  by_cases hdot : '.' ∈ item.name.toList
  · constructor
    · intro heq
      exact absurd (congrArg Ty.name heq) (preprocessed_name_ne hdot)
    · intro hkept
      exact absurd hdot hkept.1
  · rw [preprocessed_eq hdot]
    unfold Kept
    simp only [hdot, not_false_eq_true, true_and]
    cases item with
    | interface c =>
        -- a line has no place for `oneway`
        show Ty.interfaceType (c.package.getD "") c.name false false =
          Ty.interfaceType (c.package.getD "") c.name false c.oneway ↔ c.oneway = false
        constructor
        · intro heq
          have hcls : Class.interface false = Class.interface c.oneway := congrArg Ty.cls heq
          rw [Class.interface.injEq] at hcls
          exact hcls.symm
        · intro honeway
          rw [honeway]
    | userData p =>
        cases hrpc : p.rpcData with
        | true =>
            -- `flattenable` is read as what cannot be written to a parcel
            have hkeyword : (DocumentItem.userData p).keyword = .flattenable := if_pos hrpc
            rw [hkeyword]
            show Ty.userDataType (p.package.getD "") p.name false false true =
              Ty.userDataType (p.package.getD "") p.name false p.parcelable p.rpcData ↔ _
            rw [hrpc]
            constructor
            · intro heq
              have hparcel : false = p.parcelable := congrArg Ty.canWriteToParcel heq
              simp [← hparcel]
            · intro hnot
              have hparcel : p.parcelable = false := by simpa [hrpc] using hnot
              rw [hparcel]
        | false =>
            have hkeyword : (DocumentItem.userData p).keyword = .parcelable :=
              if_neg (Bool.eq_false_iff.1 hrpc)
            have hparcel : p.parcelable = true := h.resolve_right (Bool.eq_false_iff.1 hrpc)
            rw [hkeyword]
            show Ty.userDataType (p.package.getD "") p.name false true false =
              Ty.userDataType (p.package.getD "") p.name false p.parcelable p.rpcData ↔ _
            rw [hrpc, hparcel]
            constructor
            · intro _
              simp [hrpc]
            · intro _
              rfl

/-- A type goes through the file unharmed if its line tells all of it. -/
theorem preprocess_keeps_iff (hdocs : ∀ item ∈ docs, item.Written)
    (hhead : ∀ item ∈ docs, item.fullname.head? ≠ some '.')
    (hnew : ∀ t ∈ (docs.map DocumentItem.preprocessed).flatMap DocumentItem.types,
      ns.find t.qualifiedName = none)
    (hnodup : (((docs.map DocumentItem.preprocessed).flatMap DocumentItem.types).map
      Ty.qualifiedName).Nodup)
    (hitem : item ∈ docs) :
    ∃ ns', parsePreprocessedFile ns (preprocessAidl docs) = some (false, ns') ∧
      (ns'.find item.type.qualifiedName = some item.type ↔ item.Kept) := by
  refine ⟨_, parsePreprocessedFile_docs hdocs, ?_⟩
  rw [← DocumentItem.preprocessed_qualifiedName (hhead item hitem),
    Namespace.find_gatherTypes hnew hnodup (List.mem_map_of_mem hitem), Option.some.injEq,
    DocumentItem.preprocessed_type_iff (hdocs item hitem).hasKeyword]

/-- A flattenable is not kept: it comes back as one that no parcel takes. -/
theorem preprocess_keeps_iff_flattenable :
    ∃ ns', parsePreprocessedFile (registerBaseTypes {})
        (preprocessAidl [.userData ⟨some "demo", "Rect", true, true⟩,
          .interface { package := some "demo", name := "ILog", items := [] }]) = some (false, ns') ∧
      (ns'.find "demo.Rect" = some (Ty.userDataType "demo" "Rect" false true true) ↔
        DocumentItem.Kept (.userData ⟨some "demo", "Rect", true, true⟩)) := by
  refine preprocess_keeps_iff ?_ ?_ ?_ ?_ List.mem_cons_self
  · intro item hitem
    rcases List.mem_cons.1 hitem with rfl | hitem
    · exact DocumentItem.written_of_all (.inl rfl) (by decide) (by decide) (by decide)
    · rw [List.mem_singleton.1 hitem]
      exact DocumentItem.written_of_all trivial (by decide) (by decide) (by decide)
  · decide
  · decide +kernel
  · decide

/-! ## Blank lines -/

theorem gatherTypes_append (ns : Namespace) (is js : List DocumentItem) :
    (gatherTypes ns (is ++ js)).2 = (gatherTypes (gatherTypes ns is).2 js).2 := by
  induction is generalizing ns with
  | nil => rfl
  | cons i is ih => exact ih (gatherType ns i).2

/-- Each blank line declares the package of what was declared before it. -/
theorem readEntries_blanks (blanks : List (List Char)) (ns : Namespace) (fullname : List Char) :
    ∃ left, readEntries (gatherType ns (k.declared fullname)).2 (some (k, packageOf fullname))
        (blanks.map .blank ++ es) =
      readEntries (gatherTypes ns (k.outwards fullname blanks.length)).2 (some (k, left)) es := by
  induction blanks generalizing ns fullname with
  | nil => exact ⟨packageOf fullname, rfl⟩
  | cons blank blanks ih =>
      rcases ih (gatherType ns (k.declared fullname)).2 (packageOf fullname) with ⟨left, hleft⟩
      exact ⟨left, hleft⟩

theorem readEntries_paragraphs (ps : List Paragraph) (ns : Namespace)
    (last : Option (Keyword × List Char)) :
    readEntries ns last (ps.flatMap Paragraph.entries) =
      some (gatherTypes ns (ps.flatMap Paragraph.items)).2 := by
  induction ps generalizing ns last with
  | nil => rfl
  | cons p ps ih =>
      rw [List.flatMap_cons, List.flatMap_cons, gatherTypes_append, Paragraph.entries,
        List.cons_append, readEntries]
      rcases @readEntries_blanks p.keyword (ps.flatMap Paragraph.entries) p.blanks ns
        p.fullname with ⟨left, hleft⟩
      rw [hleft, ih]
      rfl

/-- Lines without any mark declare as well: what is left of the last name. -/
theorem parsePreprocessedFile_paragraphs {ps : List Paragraph}
    (hps : ∀ p ∈ ps, ∀ e ∈ p.entries, e.Fits) :
    parsePreprocessedFile ns (fileText (ps.flatMap Paragraph.entries)) =
      some (false, (gatherTypes ns (ps.flatMap Paragraph.items)).2) := by
  have hfits : ∀ e ∈ ps.flatMap Paragraph.entries, e.Fits := by
    intro e he
    rcases List.mem_flatMap.1 he with ⟨p, hp, he⟩
    exact hps p hp e he
  rw [parsePreprocessedFile_entries hfits, readEntries_paragraphs, Option.map_some]

theorem parsePreprocessedFile_paragraphs_outwards :
    parsePreprocessedFile (registerBaseTypes {}) "interface a.b.C;\n\n \n".toList =
      some (false, (gatherTypes (registerBaseTypes {})
        [Keyword.interface.item (some "a.b") "C", Keyword.interface.item (some "a") "b",
          Keyword.interface.item none "a"]).2) := by
  have hfits : ∀ p ∈ [Paragraph.mk .interface "a.b.C".toList [[], [' ']]],
      ∀ e ∈ p.entries, e.Fits := by
    intro p hp e he
    rw [List.mem_singleton.1 hp] at he
    simp only [Paragraph.entries, List.map_cons, List.map_nil, List.mem_cons,
      List.not_mem_nil, or_false] at he
    rcases he with rfl | rfl | rfl
    · exact ⟨by decide, by decide, List.all_eq_true.1 (by decide)⟩
    · exact ⟨by decide, by simp⟩
    · exact ⟨by decide, by simp [isSpace]⟩
  exact parsePreprocessedFile_paragraphs hfits

end Aidl
