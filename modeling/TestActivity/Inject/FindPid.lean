import TestActivity.Lib.CString
import TestActivity.Lib.Lines
import TestActivity.Su.Toolbox

/-!
# Looking for a process

`find_pid_of` of `inject.c` goes through `/proc` and compares the name with what
`fgets` has stored of `/proc/<pid>/cmdline`. One buffer serves all processes. It
is not initialised, and where a file is empty `fgets` leaves it as it is.

A text that is left over from another process is never the name, for then the
loop would have ended. What the buffer holds at first may be; `finds_iff` says
that this is all that can go wrong.
-/

namespace Inject.FindPid

open Su

/-! ## The loop -/

/-- An entry of `/proc`, and what its `cmdline` gives when the loop gets to it:
the content of the file, unless `fopen` fails. -/
structure Entry where
  d_name : Bytes
  cmdline : Option Bytes
deriving DecidableEq, Repr

/-- `atoi(entry->d_name)`. -/
def Entry.id (e : Entry) : ℤ := atoi e.d_name

/-- `sizeof(cmdline)`. -/
def cmdlineSize : ℕ := 256

/-- The buffer behind `fgets`: a text is stored with its terminator, and at the
end of the file nothing is. -/
def store (cmdline content : Bytes) : Bytes :=
  match Lines.fgets 10 cmdlineSize content with
  | none => cmdline
  | some (text, _) => text ++ 0 :: cmdline.drop (text.length + 1)

/-- `strcmp(process_name, cmdline) == 0`. -/
def strcmp (process_name cmdline : Bytes) : Bool := CString.cstr 0 cmdline == some process_name

/-- The loop over the entries: the one at which it breaks. -/
def scan (process_name : Bytes) : List Entry → Bytes → Option Entry
  | [], _ => none
  | e :: entries, cmdline =>
      if e.id ≠ 0 then
        match e.cmdline with
        | none => scan process_name entries cmdline
        | some content =>
            if strcmp process_name (store cmdline content) then some e
            else scan process_name entries (store cmdline content)
      else scan process_name entries cmdline

/-- `find_pid_of`; `none` are a null pointer and an `opendir` that fails, and
`garbage` is what the buffer holds at first. -/
def find_pid_of (process_name : Option Bytes) (dir : Option (List Entry)) (garbage : Bytes) : ℤ :=
  match process_name, dir with
  | some process_name, some entries => ((scan process_name entries garbage).map Entry.id).getD (-1)
  | _, _ => -1

/-! ## The processes -/

/-- A name that can be looked for. -/
structure ProcessName where
  chars : Bytes
  ne_nil : chars ≠ []
  length_lt : chars.length < 255
  no_newline : 10 ∉ chars
  no_nul : 0 ∉ chars

/-- The first string of a `cmdline`. -/
def firstString (content : Bytes) : Bytes := content.takeWhile fun b => b ≠ 0

/-- The entry is a process whose own first string is the name. -/
def Entry.owns (name : ProcessName) (e : Entry) : Bool :=
  e.id != 0 && e.cmdline.any fun content => firstString content == name.chars

/-- `find_pid_of` as it should be: it returns the first process that has the name,
and -1 if there is none, and it is by its own text that a process matches. -/
structure Finds (name : ProcessName) (entries : List Entry) (garbage : Bytes) : Prop where
  pid : find_pid_of (some name.chars) (some entries) garbage =
    ((entries.find? (Entry.owns name)).map Entry.id).getD (-1)
  own : ∀ e, scan name.chars entries garbage = some e → e.owns name = true

/-! ## What `fgets` leaves in the buffer -/

section Store

variable {name : ProcessName} {cmdline content : Bytes}

theorem firstString_append {text : Bytes} (h : 0 ∉ text) (rest : Bytes) :
    firstString (text ++ rest) = text ++ firstString rest := by
  apply List.takeWhile_append_of_pos
  intro b hb
  rw [decide_eq_true_eq]
  rintro rfl
  exact h hb

/-- The first string of a text is the name only if the one of its file is: the
name neither fills the buffer nor has a newline. -/
theorem firstString_readLine (name : ProcessName) (content : Bytes) :
    firstString (Lines.readLine 10 (cmdlineSize - 1) content).1 = name.chars ↔
      firstString content = name.chars := by
  have happend := Lines.readLine_append 10 (cmdlineSize - 1) content
  have hstop := @Lines.readLine_stop UInt8 _ 10 (cmdlineSize - 1) content
  generalize (Lines.readLine 10 (cmdlineSize - 1) content).1 = text at happend hstop ⊢
  generalize (Lines.readLine 10 (cmdlineSize - 1) content).2 = rest at happend hstop
  subst happend
  by_cases hnul : 0 ∈ text
  · -- the first string ends in the text
    rcases List.eq_append_cons_of_mem hnul with ⟨first, more, rfl, hfirst⟩
    rw [List.append_assoc, firstString_append hfirst, firstString_append hfirst]
    simp [firstString]
  · have htext := firstString_append hnul []
    rw [List.append_nil] at htext
    rw [htext, firstString_append hnul rest]
    rcases rest with _ | ⟨c, rest⟩
    · rfl
    · -- the text was cut: it fills the buffer or ends in a newline, and so is no name
      have hnot : ∀ more, text ++ more ≠ name.chars := by
        intro more hmore
        rcases hstop (List.cons_ne_nil c rest) with hlen | hmem
        · have hlt := name.length_lt
          rw [← hmore, List.length_append] at hlt
          simp only [cmdlineSize] at hlen
          omega
        · exact name.no_newline (by rw [← hmore]; exact List.mem_append_left _ hmem)
      exact iff_of_false (hnot _) (hnot _)

/-- A process matches by what is read of its own file, if anything is. -/
theorem strcmp_store (hne : content ≠ []) :
    strcmp name.chars (store cmdline content) = (firstString content == name.chars) := by
  rw [store, Lines.fgets_of_ne_nil hne]
  simp only [strcmp, CString.cstr_append_nul]
  rw [Bool.eq_iff_iff, beq_iff_eq, beq_iff_eq, Option.some.injEq, ← firstString_readLine]
  rfl

end Store

/-! ## One entry -/

section Scan

variable {name : ProcessName} {cmdline : Bytes} {e : Entry} {entries : List Entry}

/-- An entry of `/proc` whose file the loop gets to read. -/
def Entry.opened (e : Entry) : Bool := e.id != 0 && e.cmdline.isSome

theorem scan_skip (h : e.opened = false) :
    scan name.chars (e :: entries) cmdline = scan name.chars entries cmdline ∧
      e.owns name = false := by
  rw [scan]
  by_cases hid : e.id = 0
  · rw [if_neg (by simpa using hid)]
    exact ⟨rfl, by simp [Entry.owns, hid]⟩
  · rw [if_pos hid]
    rcases he : e.cmdline with _ | content
    · exact ⟨rfl, by simp [Entry.owns, he]⟩
    · simp [Entry.opened, hid, he] at h

/-- An empty file: the buffer is compared as it is. -/
theorem scan_empty (name : ProcessName) (cmdline : Bytes) (entries : List Entry)
    (h : e.opened = true) (he : e.cmdline = some []) :
    scan name.chars (e :: entries) cmdline =
        (if strcmp name.chars cmdline then some e else scan name.chars entries cmdline) ∧
      e.owns name = false := by
  rw [Entry.opened, Bool.and_eq_true, bne_iff_ne] at h
  constructor
  · rw [scan, if_pos h.1, he]
    rfl
  · have hne : firstString [] ≠ name.chars := name.ne_nil.symm
    simp [Entry.owns, he, hne]

/-- Any other file: the process matches if it has the name, and otherwise the
buffer does not hold it. -/
theorem scan_text (name : ProcessName) (cmdline : Bytes) (entries : List Entry)
    {content : Bytes} (h : e.opened = true) (he : e.cmdline = some content)
    (hne : content ≠ []) :
    (e.owns name = true ∧ scan name.chars (e :: entries) cmdline = some e) ∨
      (e.owns name = false ∧ strcmp name.chars (store cmdline content) = false ∧
        scan name.chars (e :: entries) cmdline =
          scan name.chars entries (store cmdline content)) := by
  rw [Entry.opened, Bool.and_eq_true, bne_iff_ne] at h
  have hown : strcmp name.chars (store cmdline content) = e.owns name := by
    rw [strcmp_store hne]
    simp [Entry.owns, he, h.1]
  have hscan : scan name.chars (e :: entries) cmdline =
      if e.owns name then some e else scan name.chars entries (store cmdline content) := by
    rw [scan, if_pos h.1, he, ← hown]
  rcases howns : e.owns name with _ | _
  · right
    rw [howns] at hown hscan
    exact ⟨rfl, hown, hscan⟩
  · left
    rw [howns] at hscan
    exact ⟨rfl, hscan⟩

/-! ## Stale text -/

/-- While the buffer does not hold the name, the first process that has it is
found: the text that a process leaves is not the name unless the process has it. -/
theorem scan_eq_find? (hstale : strcmp name.chars cmdline = false) :
    scan name.chars entries cmdline = entries.find? (Entry.owns name) := by
  induction entries generalizing cmdline with
  | nil => rfl
  | cons e entries ih =>
      rw [List.find?_cons]
      rcases hopened : e.opened with _ | _
      · rcases scan_skip hopened with ⟨hscan, hnot⟩
        rw [hscan, hnot]
        exact ih hstale
      · rcases he : e.cmdline with _ | content
        · simp [Entry.opened, he] at hopened
        · by_cases hne : content = []
          · -- the buffer is compared as it was
            rcases scan_empty name cmdline entries hopened (by rw [he, hne]) with ⟨hscan, hnot⟩
            rw [hscan, hnot, hstale, if_neg Bool.false_ne_true]
            exact ih hstale
          · rcases scan_text name cmdline entries hopened he hne
              with ⟨howns, hscan⟩ | ⟨hnot, hstore, hscan⟩
            · rw [hscan, howns]
            · rw [hscan, hnot]
              exact ih hstore

/-- The first entry whose file can be opened. -/
def firstOpened (entries : List Entry) : Option Entry := entries.find? Entry.opened

/-- What the buffer holds at first is gone with a file that is not empty. -/
theorem scan_of_firstOpened (h : ∀ e, firstOpened entries = some e → e.cmdline ≠ some []) :
    scan name.chars entries cmdline = entries.find? (Entry.owns name) := by
  induction entries with
  | nil => rfl
  | cons e entries ih =>
      rw [List.find?_cons]
      rw [firstOpened, List.find?_cons] at h
      rcases hopened : e.opened with _ | _
      · rcases scan_skip hopened with ⟨hscan, hnot⟩
        rw [hopened] at h
        rw [hscan, hnot]
        exact ih h
      · rw [hopened] at h
        rcases he : e.cmdline with _ | content
        · simp [Entry.opened, he] at hopened
        · have hne : content ≠ [] := by
            rintro rfl
            exact h e rfl he
          rcases scan_text name cmdline entries hopened he hne
            with ⟨howns, hscan⟩ | ⟨hnot, hstore, hscan⟩
          · rw [hscan, howns]
          · rw [hscan, hnot]
            exact scan_eq_find? hstore

/-- A buffer that holds the name at first makes the first process match, if its
file is empty. -/
theorem scan_garbage {first : Entry} (hgarbage : strcmp name.chars cmdline = true)
    (hfirst : firstOpened entries = some first) (hempty : first.cmdline = some []) :
    scan name.chars entries cmdline = some first ∧ first.owns name = false := by
  induction entries with
  | nil => cases hfirst
  | cons e entries ih =>
      rw [firstOpened, List.find?_cons] at hfirst
      rcases hopened : e.opened with _ | _
      · rw [hopened] at hfirst
        rw [(scan_skip hopened).1]
        exact ih hfirst
      · rw [hopened, Option.some.injEq] at hfirst
        subst hfirst
        rcases scan_empty name cmdline entries hopened hempty with ⟨hscan, hnot⟩
        rw [hscan, hgarbage, if_pos rfl]
        exact ⟨rfl, hnot⟩

end Scan

/-- `find_pid_of` is as it should be if and only if it is not the case that the
buffer holds the name at first and the first file that can be opened is empty. -/
theorem finds_iff (name : ProcessName) (entries : List Entry) (garbage : Bytes) :
    Finds name entries garbage ↔
      ¬ (strcmp name.chars garbage = true ∧
        ∃ e, firstOpened entries = some e ∧ e.cmdline = some []) := by
  constructor
  · rintro h ⟨hgarbage, e, hfirst, hempty⟩
    -- it matches by what was in the buffer before the loop
    rcases scan_garbage hgarbage hfirst hempty with ⟨hscan, hnot⟩
    rw [h.own e hscan] at hnot
    cases hnot
  · intro h
    have hscan : scan name.chars entries garbage = entries.find? (Entry.owns name) := by
      rcases hgarbage : strcmp name.chars garbage with _ | _
      · exact scan_eq_find? hgarbage
      · apply scan_of_firstOpened
        intro e hfirst hempty
        exact h ⟨hgarbage, e, hfirst, hempty⟩
    constructor
    case pid => rw [find_pid_of, hscan]
    case own =>
      intro e he
      rw [hscan] at he
      exact List.find?_some he

/-- `main` looks for this process. -/
def servicemanager : ProcessName where
  chars := ascii "/system/bin/servicemanager"
  ne_nil := by decide
  length_lt := by decide
  no_newline := by decide
  no_nul := by decide

/-- A kernel thread has an empty `cmdline`. -/
def kthreadd : Entry := ⟨ascii "2", some []⟩

/-- The name is on the stack, and a process with an empty `cmdline` comes first. -/
theorem not_finds_kthreadd : ¬ Finds servicemanager [kthreadd]
    (CString.fill 0 cmdlineSize (ascii "/system/bin/servicemanager")) := by
  intro h
  have hscan : scan servicemanager.chars [kthreadd]
      (CString.fill 0 cmdlineSize (ascii "/system/bin/servicemanager")) = some kthreadd := by
    decide
  have hown := h.own kthreadd hscan
  rw [(by decide : kthreadd.owns servicemanager = false)] at hown
  cases hown

end Inject.FindPid
