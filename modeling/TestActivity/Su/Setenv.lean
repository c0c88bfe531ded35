import Mathlib.Algebra.Group.Nat.Defs
import Mathlib.Logic.Function.Basic
import TestActivity.Lib.CString
import TestActivity.Lib.Lines
import TestActivity.Su.Io

/-!
# The variables of `init.rc`

`_setenv` reads `/init.rc` line by line and copies the variables that an
`export` sets into the slots of `envp`. It means to stop when it has those that
`flag` asks for, and to skip the others; but `toflag<flag` compares sets of bits
as numbers, `X&flag == 0` is `X & (flag == 0)`, and names are compared without
case and as far as the shorter one goes.

`Assigns` says what an export of a variable is, `Reads` what the code takes for
one, and `Overruns` which lines make it read behind its buffer.
`setting_eq_some_iff` and `setting_eq_none_iff`: so it does.
-/

namespace Su.Setenv

/-! ## A line -/

/-- `isblank`. -/
def isblank (b : UInt8) : Bool := b == 32 || b == 9

/-- `tolower` in the C locale. -/
def tolower (b : UInt8) : UInt8 := if 65 ≤ b ∧ b ≤ 90 then b + 32 else b

/-- `skipblank`; a pointer into the buffer is what is behind it. -/
def skipblank (original : Bytes) : Bytes := original.dropWhile isblank

/-- `tripret`. -/
def tripret (original : Bytes) : Bytes :=
  if original.getLast? = some 10 then original.dropLast else original

/-- `strncasecmp(lit, s, strlen(lit)) == 0`. `none` is a read behind the buffer. -/
def strncasecmp : Bytes → Bytes → Option Bool
  | [], _ => some true
  | _ :: _, [] => none
  | c :: lit, b :: s => if tolower c = tolower b then strncasecmp lit s else some false

/-- The variables that `_setenv` knows. -/
inductive Var where
  | ldLibraryPath
  | path
  | bootclasspath
deriving DecidableEq, Repr

namespace Var

def name : Var → Bytes
  | .ldLibraryPath => ascii "LD_LIBRARY_PATH"
  | .path => ascii "PATH"
  | .bootclasspath => ascii "BOOTCLASSPATH"

/-- `LD_LIBRARY_PATHFLAG`, `PATHFLAG`, `BOOTCLASSPATHFLAG`. -/
def flag : Var → ℕ
  | .ldLibraryPath => 2
  | .path => 4
  | .bootclasspath => 1

/-- The size of the slot in `envp`. -/
def size : Var → ℕ
  | .ldLibraryPath => 256
  | .path => 256
  | .bootclasspath => 1024

end Var

/-- `sizeof(buff)`. -/
def buffSize : ℕ := 2048

/-- The branch that is taken for a name. -/
def branch (name : Bytes) : Option (Option Var) := do
  if ← strncasecmp Var.bootclasspath.name name then return some .bootclasspath
  else if ← strncasecmp Var.ldLibraryPath.name name then return some .ldLibraryPath
  else if ← strncasecmp Var.path.name name then return some .path
  else return none

/-- The name behind an `export`. -/
def exported (buff : Bytes) : Option (Option Bytes) := do
  let temp := skipblank buff
  if ← strncasecmp (ascii "export") temp then
    return some (skipblank (temp.drop ((ascii "export").length + 1)))
  else return none

/-- What is copied for `v` from behind its name. -/
def value (v : Var) (name : Bytes) : Option Bytes :=
  (CString.cstr 0 (skipblank (name.drop (v.name.length + 1)))).map tripret

/-! ## The loop -/

/-- The string that `snprintf` leaves in the slot of `v`. -/
def slot (v : Var) (value : Bytes) : Bytes :=
  (v.name ++ ascii "=" ++ value).take (v.size - 1)

/-- A variable and the string copied for it. -/
abbrev Setting := Var × Bytes

/-- What a line sets if its variable is not skipped: nothing, or a variable.
`none` is a read behind the buffer. -/
def setting (text : Bytes) : Option (Option Setting) := do
  match ← exported (CString.fill 0 buffSize text) with
  | none => return none
  | some name =>
      match ← branch name with
      | none => return none
      | some v => return some (v, ← value v name)

/-- `X&flag == 0`, as it is parsed. -/
def skipped (flag : ℕ) (v : Var) : Bool := v.flag &&& (if flag = 0 then 1 else 0) != 0

/-- The loop over what `fgets` stores: `envp` at its end. -/
def setenvLoop (flag : ℕ) : List Bytes → ℕ → (Var → Bytes) → Option (Var → Bytes)
  | [], _, envp => some envp
  | text :: texts, toflag, envp =>
      if toflag < flag then
        match exported (CString.fill 0 buffSize text) with
        | none => none
        | some none => setenvLoop flag texts toflag envp
        | some (some name) =>
            match branch name with
            | none => none
            | some none => setenvLoop flag texts toflag envp
            | some (some v) =>
                if skipped flag v then setenvLoop flag texts toflag envp
                else
                  match value v name with
                  | none => none
                  | some value =>
                      setenvLoop flag texts (toflag ||| v.flag)
                        (Function.update envp v (slot v value))
      else some envp

/-- `1 < sizeof(buff)`. -/
theorem one_lt_buffSize : 1 < buffSize := by decide

/-- `_setenv` on the content of `/init.rc`. -/
def _setenv (flag : ℕ) (file : Bytes) (envp : Var → Bytes) : Option (Var → Bytes) :=
  setenvLoop flag (Lines.texts 10 one_lt_buffSize file) 0 envp

/-! ## The file -/

/-- The line is an `export` of `v` with the value `x`. -/
inductive Assigns (chars : Bytes) (v : Var) (x : Bytes) : Prop where
  | intro {before gap gap' : Bytes}
      (hchars : chars = before ++ ascii "export" ++ gap ++ v.name ++ gap' ++ x)
      (hbefore : ∀ b ∈ before, isblank b = true)
      (hgap : ∀ b ∈ gap, isblank b = true) (hgap_ne : gap ≠ [])
      (hgap' : ∀ b ∈ gap', isblank b = true) (hgap'_ne : gap' ≠ [])
      (hx : ∃ b rest, x = b :: rest ∧ isblank b = false)

/-- The line begins with `export` and, behind one more character, with the name of
`v`, both in any case; the value is what is behind one more character. There is
room for that in the buffer. -/
inductive Reads (chars : Bytes) (v : Var) : Bytes → Prop where
  | intro {before keyword gap name rest : Bytes} {c : UInt8}
      (hchars : chars = before ++ (keyword ++ c :: (gap ++ (name ++ rest))))
      (hbefore : ∀ b ∈ before, isblank b = true)
      (hkeyword : keyword.map tolower = (ascii "export").map tolower)
      (hgap : ∀ b ∈ gap, isblank b = true)
      (hname : name.map tolower = v.name.map tolower)
      (hroom : rest ≠ [] ∨ chars.length + 1 < buffSize) : Reads chars v (skipblank (rest.drop 1))

/-- The line fills the buffer and ends with the word behind which the code goes on
reading. -/
inductive Overruns (chars : Bytes) : Prop where
  | keyword {before keyword : Bytes} (hchars : chars = before ++ keyword)
      (hbefore : ∀ b ∈ before, isblank b = true)
      (hkeyword : keyword.map tolower = (ascii "export").map tolower)
      (hfull : chars.length + 1 = buffSize)
  | name {v : Var} {before keyword gap name : Bytes} {c : UInt8}
      (hchars : chars = before ++ (keyword ++ c :: (gap ++ name)))
      (hbefore : ∀ b ∈ before, isblank b = true)
      (hkeyword : keyword.map tolower = (ascii "export").map tolower)
      (hgap : ∀ b ∈ gap, isblank b = true)
      (hname : name.map tolower = v.name.map tolower)
      (hfull : chars.length + 1 = buffSize)

/-- A line of the file, without its newline. What it exports fits the slot. -/
structure Line where
  chars : Bytes
  no_newline : 10 ∉ chars
  no_nul : 0 ∉ chars
  length_lt : chars.length < buffSize
  fits : ∀ v x, Assigns chars v x → (v.name ++ ascii "=" ++ x).length < v.size

/-- The lines that end in a newline, and one that may be behind the last newline. -/
structure File where
  ended : List Line
  last : Option Line

def File.lines (f : File) : List Line := f.ended ++ f.last.toList

def File.bytes (f : File) : Bytes :=
  f.ended.flatMap (fun l => l.chars ++ [10]) ++ (f.last.elim [] Line.chars)

/-- What `fgets` stores of a line with its newline. -/
def Line.texts (l : Line) : List Bytes :=
  if l.chars.length + 1 < buffSize then [l.chars ++ [10]] else [l.chars, [10]]

/-- What `fgets` stores of a line at the end of the file. -/
def Line.lastTexts (l : Line) : List Bytes := if l.chars = [] then [] else [l.chars]

def File.texts (f : File) : List Bytes :=
  f.ended.flatMap Line.texts ++ f.last.elim [] Line.lastTexts

theorem texts_bytes (f : File) : Lines.texts 10 one_lt_buffSize f.bytes = f.texts := by
  rcases f with ⟨ended, last⟩
  simp only [File.bytes, File.texts]
  induction ended with
  | nil =>
      rcases last with _ | l
      · exact Lines.texts_nil _
      · simp only [List.flatMap_nil, List.nil_append, Option.elim_some, Line.lastTexts]
        by_cases hne : l.chars = []
        · rw [if_pos hne, hne]
          exact Lines.texts_nil _
        · rw [if_neg hne]
          exact Lines.texts_end _ l.no_newline hne l.length_lt
  | cons l ended ih =>
      simp only [List.flatMap_cons, List.append_assoc, List.cons_append, List.nil_append]
      rw [← ih, Line.texts]
      by_cases hroom : l.chars.length + 1 < buffSize
      · rw [if_pos hroom, Lines.texts_line _ l.no_newline hroom]
        rfl
      · have hfull : l.chars.length + 1 = buffSize := by
          have hlt := l.length_lt
          omega
        rw [if_neg hroom, Lines.texts_full _ l.no_newline hfull]
        rfl

/-! ## What an export sets -/

theorem skipblank_append {gap rest : Bytes} {b : UInt8} (hgap : ∀ b ∈ gap, isblank b = true)
    (hb : isblank b = false) : skipblank (gap ++ b :: rest) = b :: rest := by
  rw [skipblank, List.dropWhile_append_of_pos hgap, List.dropWhile_cons_of_neg (by simp [hb])]

theorem strncasecmp_append {lit s : Bytes} (h : s.map tolower = lit.map tolower) (rest : Bytes) :
    strncasecmp lit (s ++ rest) = some true := by
  induction lit generalizing s with
  | nil => rfl
  | cons c lit ih =>
      rcases s with _ | ⟨b, s⟩
      · cases h
      · rw [List.map_cons, List.map_cons, List.cons.injEq] at h
        rw [List.cons_append, strncasecmp, if_pos h.1.symm]
        exact ih h.2

theorem strncasecmp_cons_of_ne {c b : UInt8} (h : tolower c ≠ tolower b) (lit rest : Bytes) :
    strncasecmp (c :: lit) (b :: rest) = some false := if_neg h

/-- A letter is no blank. -/
theorem isblank_of_tolower {b : UInt8} (h : 97 ≤ tolower b) : isblank b = false := by
  rw [isblank, Bool.or_eq_false_iff, beq_eq_false_iff_ne, beq_eq_false_iff_ne]
  constructor
  · rintro rfl
    exact absurd h (by decide)
  · rintro rfl
    exact absurd h (by decide)

/-- The first letter of a name, in lower case. -/
def Var.initial : Var → UInt8
  | .ldLibraryPath => 108
  | .path => 112
  | .bootclasspath => 98

theorem exists_initial {v : Var} {name : Bytes} (hname : name.map tolower = v.name.map tolower) :
    ∃ b rest, name = b :: rest ∧ tolower b = v.initial := by
  have hhead := congrArg List.head? hname
  have hinitial : (v.name.map tolower).head? = some v.initial := by rcases v <;> decide
  rw [hinitial] at hhead
  rcases name with _ | ⟨b, rest⟩
  · cases hhead
  · exact ⟨b, rest, rfl, by simpa using hhead⟩

/-- A name is told apart from the others by its first letter. -/
theorem branch_append {v : Var} {name : Bytes} (hname : name.map tolower = v.name.map tolower)
    (rest : Bytes) : branch (name ++ rest) = some (some v) := by
  have hsame := strncasecmp_append hname rest
  rcases exists_initial hname with ⟨b, tail, rfl, hb⟩
  have hother {w : Var} (hw : w.initial ≠ v.initial) :
      strncasecmp w.name (b :: tail ++ rest) = some false := by
    rcases exists_initial (v := w) rfl with ⟨c, lit, hlit, hc⟩
    rw [hlit]
    exact strncasecmp_cons_of_ne (by rw [hb, hc]; exact hw) _ _
  unfold branch
  rcases v
  case ldLibraryPath =>
    rw [hother (w := .bootclasspath) (by decide), hsame]
    rfl
  case path =>
    rw [hother (w := .bootclasspath) (by decide), hother (w := .ldLibraryPath) (by decide), hsame]
    rfl
  case bootclasspath =>
    rw [hsame]
    rfl

/-- `tripret` takes a newline away, if there is one. -/
theorem tripret_value {x : Bytes} (hx : 10 ∉ x) :
    tripret x = x ∧ tripret (x ++ [10]) = x := by
  constructor
  · rw [tripret, if_neg]
    intro h
    exact hx (List.mem_of_getLast? h)
  · simp [tripret]

/-- Behind a text the buffer goes on with zeros. -/
theorem exists_fill {text : Bytes} (hlen : text.length < buffSize) :
    ∃ zeros, CString.fill 0 buffSize text = text ++ 0 :: zeros ∧
      (text.length + 1 < buffSize → ∃ zeros', zeros = 0 :: zeros') ∧
      (text.length + 1 = buffSize → zeros = []) := by
  obtain ⟨n, hn⟩ := Nat.exists_eq_add_of_lt hlen
  have hroom : buffSize - text.length = n + 1 := by omega
  refine ⟨List.replicate n 0, ?_, ?_, ?_⟩
  · rw [CString.fill, hroom, List.replicate_succ]
  · intro hlt
    exact ⟨List.replicate (n - 1) 0, by rw [← List.replicate_succ]; congr 1; omega⟩
  · intro hfull
    obtain rfl : n = 0 := by omega
    rfl

/-- What `fgets` may store of the line in the buffer: with its newline, if there is
room for it, or without. -/
structure Stored (chars ending : Bytes) : Prop where
  newline : ending = [] ∨ ending = [10]
  length_lt : (chars ++ ending).length < buffSize

/-- Behind the line the buffer goes on with a newline or a zero, and there is more
of it unless the line fills it. -/
theorem Stored.exists_tail {chars ending : Bytes} (h : Stored chars ending) :
    ∃ b tail, CString.fill 0 buffSize (chars ++ ending) = chars ++ b :: tail ∧
      (b = 0 ∨ b = 10) ∧ (∃ zeros, b :: tail = ending ++ 0 :: zeros) ∧
      (chars.length + 1 < buffSize → ∃ zeros, tail = 0 :: zeros) ∧
      (chars.length + 1 = buffSize → b :: tail = [0]) := by
  rcases exists_fill h.length_lt with ⟨zeros, hfill, hmore, hfull⟩
  have hlen := h.length_lt
  rcases h.newline with rfl | rfl
  · rw [List.append_nil] at hfill hmore hfull ⊢
    refine ⟨0, zeros, hfill, Or.inl rfl, ⟨zeros, rfl⟩, hmore, ?_⟩
    intro hlen
    rw [hfull hlen]
  · refine ⟨10, 0 :: zeros, by rw [hfill]; simp, Or.inr rfl, ⟨zeros, rfl⟩, fun _ => ⟨zeros, rfl⟩,
      ?_⟩
    intro hlen'
    rw [List.length_append, List.length_singleton] at hlen
    omega

/-- Blanks end with the line at the latest. -/
theorem skipblank_tail (s tail : Bytes) {b : UInt8} (hb : b = 0 ∨ b = 10) :
    skipblank (s ++ b :: tail) = skipblank s ++ b :: tail := by
  have hblank : isblank b = false := by rcases hb with rfl | rfl <;> rfl
  induction s with
  | nil => rw [List.nil_append, skipblank, List.dropWhile_cons_of_neg (by simp [hblank])]; rfl
  | cons c s ih =>
      unfold skipblank at ih ⊢
      by_cases hc : isblank c = true
      · rw [List.cons_append, List.dropWhile_cons_of_pos hc, List.dropWhile_cons_of_pos hc, ih]
      · rw [List.cons_append, List.dropWhile_cons_of_neg hc, List.dropWhile_cons_of_neg hc]
        rfl

/-- Neither is a letter of a word that is looked for. -/
def Plainword (lit : Bytes) : Prop := ∀ c ∈ lit, tolower c ≠ 0 ∧ tolower c ≠ 10

theorem Plainword.of_all {lit : Bytes}
    (h : lit.all (fun c => tolower c != 0 && tolower c != 10) = true) : Plainword lit := by
  intro c hc
  have hboth := List.all_eq_true.1 h c hc
  rw [Bool.and_eq_true, bne_iff_ne, bne_iff_ne] at hboth
  exact hboth

theorem plainword_export : Plainword (ascii "export") := .of_all (by decide)

theorem Var.plainword (v : Var) : Plainword v.name := by
  cases v <;> exact .of_all (by decide)

/-- A comparison does not go behind the line: the word is at the head of what is
left of it, in some case, or not. -/
theorem strncasecmp_tail {lit : Bytes} {b : UInt8} (s tail : Bytes) (hb : b = 0 ∨ b = 10)
    (hlit : Plainword lit) :
    (∃ word rest, s = word ++ rest ∧ word.map tolower = lit.map tolower) ∨
      strncasecmp lit (s ++ b :: tail) = some false := by
  induction lit generalizing s with
  | nil => exact Or.inl ⟨[], s, rfl, rfl⟩
  | cons c lit ih =>
      have hc := hlit c List.mem_cons_self
      rcases s with _ | ⟨d, s⟩
      · right
        apply strncasecmp_cons_of_ne
        rcases hb with rfl | rfl
        · exact hc.1
        · exact hc.2
      · by_cases heq : tolower c = tolower d
        · rw [List.cons_append, strncasecmp, if_pos heq]
          rcases ih s (fun c' hc' => hlit c' (List.mem_cons_of_mem _ hc')) with
            ⟨word, rest, rfl, hword⟩ | hno
          · exact Or.inl ⟨d :: word, rest, rfl, by simp [heq, hword]⟩
          · exact Or.inr hno
        · exact Or.inr (strncasecmp_cons_of_ne heq _ _)

/-- A word that begins with a letter ends the blanks in front of it. -/
theorem skipblank_word {before word rest : Bytes} {lit : Bytes} {c : UInt8}
    (hbefore : ∀ b ∈ before, isblank b = true) (hword : word.map tolower = lit.map tolower)
    (hlit : (lit.map tolower).head? = some c) (hc : 97 ≤ c) :
    skipblank (before ++ (word ++ rest)) = word ++ rest := by
  rcases word with _ | ⟨d, word⟩
  · rw [← hword] at hlit
    cases hlit
  · have hd : tolower d = c := by
      rw [← hword] at hlit
      simpa using hlit
    exact skipblank_append hbefore (isblank_of_tolower (hd ▸ hc))

theorem skipblank_export {before keyword rest : Bytes} (hbefore : ∀ b ∈ before, isblank b = true)
    (hkeyword : keyword.map tolower = (ascii "export").map tolower) :
    skipblank (before ++ (keyword ++ rest)) = keyword ++ rest :=
  skipblank_word hbefore hkeyword (c := 101) (by decide) (by decide)

theorem skipblank_name {v : Var} {gap name rest : Bytes} (hgap : ∀ b ∈ gap, isblank b = true)
    (hname : name.map tolower = v.name.map tolower) :
    skipblank (gap ++ (name ++ rest)) = name ++ rest :=
  skipblank_word hgap hname (c := v.initial) (by rcases v <;> decide) (by rcases v <;> decide)

/-- The name behind an `export`, whatever its case. -/
theorem exported_append {before keyword rest : Bytes} (hbefore : ∀ b ∈ before, isblank b = true)
    (hkeyword : keyword.map tolower = (ascii "export").map tolower) :
    exported (before ++ (keyword ++ rest)) = some (some (skipblank (rest.drop 1))) := by
  have hlen : keyword.length = (ascii "export").length := by
    simpa using congrArg List.length hkeyword
  have hdrop : (keyword ++ rest).drop ((ascii "export").length + 1) = rest.drop 1 := by
    rw [← List.drop_drop, List.drop_left' hlen]
  simp only [exported, skipblank_export hbefore hkeyword, strncasecmp_append hkeyword, hdrop]
  rfl

theorem value_append (v : Var) {name rest : Bytes} (hlen : name.length = v.name.length) :
    value v (name ++ rest) = (CString.cstr 0 (skipblank (rest.drop 1))).map tripret := by
  rw [value, ← List.drop_drop, List.drop_left' hlen]

/-- The setting behind an `export` and a name. -/
theorem setting_append {v : Var} {text before keyword gap name rest : Bytes} {c : UInt8}
    (hfill : CString.fill 0 buffSize text =
      before ++ (keyword ++ c :: (gap ++ (name ++ rest))))
    (hbefore : ∀ b ∈ before, isblank b = true)
    (hkeyword : keyword.map tolower = (ascii "export").map tolower)
    (hgap : ∀ b ∈ gap, isblank b = true) (hname : name.map tolower = v.name.map tolower) :
    setting text = ((CString.cstr 0 (skipblank (rest.drop 1))).map tripret).map
      fun x => some (v, x) := by
  have hlen : name.length = v.name.length := by simpa using congrArg List.length hname
  have hexported : exported (CString.fill 0 buffSize text) = some (some (name ++ rest)) := by
    rw [hfill, exported_append hbefore hkeyword]
    simp only [List.drop_succ_cons, List.drop_zero, skipblank_name hgap hname]
  simp only [setting, hexported, Option.bind_eq_bind, Option.bind_some, branch_append hname,
    value_append v hlen]
  rcases (CString.cstr 0 (skipblank (rest.drop 1))).map tripret with _ | x <;> rfl

section Line

variable {chars ending x : Bytes} {v : Var}

/-- What is read of a value is what is left of the line. -/
theorem cstr_rest {rest tail zeros : Bytes} {b : UInt8} (hb : b = 0 ∨ b = 10)
    (hending : ending = [] ∨ ending = [10]) (htail : b :: tail = ending ++ 0 :: zeros)
    (hnul : 0 ∉ rest) (hnewline : 10 ∉ rest) :
    (CString.cstr 0 (skipblank (rest ++ b :: tail))).map tripret = some (skipblank rest) := by
  have hsub : ∀ c ∈ skipblank rest, c ∈ rest := (List.dropWhile_suffix _).subset
  have hnul' : 0 ∉ skipblank rest := fun h => hnul (hsub 0 h)
  have hnewline' : 10 ∉ skipblank rest := fun h => hnewline (hsub 10 h)
  rw [skipblank_tail _ _ hb, htail, ← List.append_assoc]
  have hstring : 0 ∉ skipblank rest ++ ending := by
    rw [List.mem_append, not_or]
    refine ⟨hnul', ?_⟩
    rcases hending with rfl | rfl
    · exact List.not_mem_nil
    · decide
  rw [CString.cstr_append 0 hstring, Option.map_some]
  rcases hending with rfl | rfl
  · rw [List.append_nil, (tripret_value hnewline').1]
  · rw [(tripret_value hnewline').2]

/-- A line that reads as an export of `v` is taken for one. -/
theorem setting_of_reads (h : Reads chars v x) (hstored : Stored chars ending) (hnul : 0 ∉ chars)
    (hnewline : 10 ∉ chars) : setting (chars ++ ending) = some (some (v, x)) := by
  rcases hstored.exists_tail with ⟨b, tail, hfill, hb, ⟨zeros, htail⟩, hmore, -⟩
  rcases h with
    @⟨before, keyword, gap, name, rest, c, hchars, hbefore, hkeyword, hgap, hname, hroom⟩
  have hfill' : CString.fill 0 buffSize (chars ++ ending) =
      before ++ (keyword ++ c :: (gap ++ (name ++ (rest ++ b :: tail)))) := by
    rw [hfill]
    nth_rewrite 1 [hchars]
    simp
  rw [setting_append hfill' hbefore hkeyword hgap hname]
  have hrest : ∀ d ∈ rest, d ∈ chars := by
    intro d hd
    rw [hchars]
    simp [hd]
  rcases rest with _ | ⟨d, rest⟩
  · -- the name ends the line, and a zero follows
    rcases hmore (hroom.resolve_left fun h => h rfl) with ⟨zeros, rfl⟩
    rfl
  · have hvalue := cstr_rest hb hstored.newline htail
      (fun h => hnul (hrest 0 (List.mem_cons_of_mem _ h)))
      (fun h => hnewline (hrest 10 (List.mem_cons_of_mem _ h)))
    simp only [List.cons_append, List.drop_succ_cons, List.drop_zero, hvalue, Option.map_some]

theorem setting_of_overruns (h : Overruns chars) (hstored : Stored chars ending) :
    setting (chars ++ ending) = none := by
  rcases hstored.exists_tail with ⟨b, tail, hfill, -, -, -, hfull⟩
  rcases h with @⟨before, keyword, hchars, hbefore, hkeyword, hlen⟩ |
    @⟨v, before, keyword, gap, name, c, hchars, hbefore, hkeyword, hgap, hname, hlen⟩
  · have hexported : exported (CString.fill 0 buffSize (chars ++ ending)) = some (some []) := by
      rw [hfill, hfull hlen, hchars, List.append_assoc, exported_append hbefore hkeyword]
      rfl
    simp only [setting, hexported]
    rfl
  · have hfill' : CString.fill 0 buffSize (chars ++ ending) =
        before ++ (keyword ++ c :: (gap ++ (name ++ [0]))) := by
      rw [hfill, hfull hlen]
      nth_rewrite 1 [hchars]
      simp
    rw [setting_append hfill' hbefore hkeyword hgap hname]
    rfl

/-- The blanks in front, and what `skipblank` leaves. -/
theorem exists_blanks (s : Bytes) :
    ∃ gap, (∀ b ∈ gap, isblank b = true) ∧ s = gap ++ skipblank s :=
  ⟨s.takeWhile isblank, List.all_eq_true.1 List.all_takeWhile,
    (List.takeWhile_append_dropWhile).symm⟩

/-- No name is found where the line has none. -/
theorem branch_tail {s tail : Bytes} {b : UInt8} (hb : b = 0 ∨ b = 10)
    (hno : ∀ (v : Var) (name rest : Bytes), s = name ++ rest →
      name.map tolower ≠ v.name.map tolower) : branch (s ++ b :: tail) = some none := by
  have hfalse : ∀ v : Var, strncasecmp v.name (s ++ b :: tail) = some false := by
    intro v
    rcases strncasecmp_tail s tail hb v.plainword with
      ⟨name, rest, hs, hname⟩ | hfalse
    · exact absurd hname (hno v name rest hs)
    · exact hfalse
  simp only [branch, hfalse]
  rfl

/-- Any other line is passed over. -/
theorem setting_of_neither (hreads : ∀ v x, ¬ Reads chars v x) (hoverruns : ¬ Overruns chars)
    (hstored : Stored chars ending) : setting (chars ++ ending) = some none := by
  rcases hstored.exists_tail with ⟨b, tail, hfill, hb, -, hmore, -⟩
  have hlen : chars.length < buffSize := by
    have hlt := hstored.length_lt
    rw [List.length_append] at hlt
    omega
  rcases exists_blanks chars with ⟨before, hbefore, hchars⟩
  rcases strncasecmp_tail (skipblank chars) tail hb plainword_export with
    ⟨keyword, rest, hskip, hkeyword⟩ | hfalse
  · rw [hskip] at hchars
    have hexported : exported (CString.fill 0 buffSize (chars ++ ending)) =
        some (some (skipblank ((rest ++ b :: tail).drop 1))) := by
      rw [hfill]
      nth_rewrite 1 [hchars]
      rw [List.append_assoc, List.append_assoc, exported_append hbefore hkeyword]
    have hbranch : branch (skipblank ((rest ++ b :: tail).drop 1)) = some none := by
      rcases rest with _ | ⟨c, rest⟩
      · -- the keyword ends the line, and a zero follows
        have hroom : chars.length + 1 < buffSize := by
          by_contra hfull
          exact hoverruns (.keyword (by simpa using hchars) hbefore hkeyword (by omega))
        rcases hmore hroom with ⟨zeros, rfl⟩
        refine branch_tail (s := []) (Or.inl rfl) ?_
        intro v name rest hnil hname
        obtain ⟨rfl, -⟩ := List.append_eq_nil_iff.1 hnil.symm
        rcases v <;> cases hname
      · rcases exists_blanks rest with ⟨gap, hgap, hrest⟩
        rw [List.cons_append, List.drop_succ_cons, List.drop_zero, skipblank_tail _ _ hb]
        refine branch_tail hb ?_
        intro v name rest' hs hname
        rw [hs] at hrest
        rw [hrest] at hchars
        by_cases hroom : rest' ≠ [] ∨ chars.length + 1 < buffSize
        · exact hreads v _ (.intro hchars hbefore hkeyword hgap hname hroom)
        · rw [not_or, not_not] at hroom
          obtain ⟨rfl, hfull⟩ := hroom
          rw [List.append_nil] at hchars
          exact hoverruns (.name hchars hbefore hkeyword hgap hname (by omega))
    simp only [setting, hexported, Option.bind_eq_bind, Option.bind_some, hbranch]
    rfl
  · have hexported : exported (CString.fill 0 buffSize (chars ++ ending)) = some none := by
      rw [hfill]
      simp only [exported, skipblank_tail chars tail hb, hfalse]
      rfl
    simp only [setting, hexported]
    rfl

variable (hstored : Stored chars ending) (hnul : 0 ∉ chars) (hnewline : 10 ∉ chars)
include hstored hnul hnewline

/-- What a line is taken for, and with which value. -/
theorem setting_eq_some_iff : setting (chars ++ ending) = some (some (v, x)) ↔ Reads chars v x := by
  refine ⟨?_, fun h => setting_of_reads h hstored hnul hnewline⟩
  intro hsetting
  by_cases hoverruns : Overruns chars
  · rw [setting_of_overruns hoverruns hstored] at hsetting
    cases hsetting
  · by_contra hno
    by_cases hreads : ∃ w y, Reads chars w y
    · rcases hreads with ⟨w, y, hreads⟩
      rw [setting_of_reads hreads hstored hnul hnewline] at hsetting
      cases hsetting
      exact hno hreads
    · push Not at hreads
      rw [setting_of_neither hreads hoverruns hstored] at hsetting
      cases hsetting

/-- Where the code reads behind its buffer. -/
theorem setting_eq_none_iff : setting (chars ++ ending) = none ↔ Overruns chars := by
  refine ⟨?_, fun h => setting_of_overruns h hstored⟩
  intro hsetting
  by_contra hoverruns
  by_cases hreads : ∃ w y, Reads chars w y
  · rcases hreads with ⟨w, y, hreads⟩
    rw [setting_of_reads hreads hstored hnul hnewline] at hsetting
    cases hsetting
  · push Not at hreads
    rw [setting_of_neither hreads hoverruns hstored] at hsetting
    cases hsetting

end Line

/-- An export is taken for what it is. -/
theorem Assigns.reads {chars x : Bytes} {v : Var} (h : Assigns chars v x) : Reads chars v x := by
  rcases h with @⟨before, gap, gap', hchars, hbefore, hgap, hgap_ne, hgap', hgap'_ne, b, rest, rfl,
    hb⟩
  rcases gap with _ | ⟨c, gap⟩
  · exact absurd rfl hgap_ne
  rcases gap' with _ | ⟨c', gap'⟩
  · exact absurd rfl hgap'_ne
  have hreads : Reads chars v (skipblank (((c' :: gap') ++ b :: rest).drop 1)) :=
    .intro (by simpa using hchars) hbefore rfl
      (fun d hd => hgap d (List.mem_cons_of_mem _ hd)) rfl (Or.inl (by simp))
  rwa [List.cons_append, List.drop_succ_cons, List.drop_zero,
    skipblank_append (fun d hd => hgap' d (List.mem_cons_of_mem _ hd)) hb] at hreads

end Su.Setenv
