import TestActivity.Lib.Masks
import TestActivity.Su.Toolbox

/-!
# `chattr`

`chattr_main` of `chattr.c` collects its arguments, checks them and goes through
the files. The checks call `bb_show_usage` and `bb_error_msg_and_die`, which here
are the macros of `libbb.h`: the one does nothing and the other prints, and
neither ends the program.

* `parse_eq`: what the arguments are, apart from the masks they are collected in.
* `bad_iff`: which of them the checks reject.
* `harmless_iff`: what is changed does not depend on any check.
-/

namespace Su.Chattr

/-! ## The arguments -/

/-- `unsigned long` and `int`, as far as they are used as masks. -/
abbrev Mask := BitVec 32

def OPT_ADD : Mask := 1
def OPT_REM : Mask := 2
def OPT_SET : Mask := 4
def OPT_SET_VER : Mask := 8

def EXT2_DIRSYNC_FL : Mask := 0x10000

/-- `e2attr_flags_sname_chattr` with `e2attr_flags_value_chattr`. -/
def e2attr_flags : List (UInt8 × Mask) :=
  (ascii "suSDiadAcjtT").zip
    [0x1, 0x2, 0x8, EXT2_DIRSYNC_FL, 0x10, 0x20, 0x40, 0x80, 0x4, 0x4000, 0x8000, 0x20000]

/-- The value of a letter. -/
def letterValue (c : UInt8) : Option Mask := (e2attr_flags.find? (·.1 == c)).map Prod.snd

/-- `struct globals`. -/
structure Globals where
  version : Mask
  af : Mask
  rf : Mask
  flags : Mask
  recursive : Bool
  /-- how often `get_flag` has ended without a `return` -/
  usage : ℕ

/-- `memset(&g, 0, sizeof(g))`. -/
def Globals.zero : Globals := ⟨0, 0, 0, 0, false, 0⟩

section Parse

-- what `get_flag` has for a value when it ends without a `return`
variable (junk : ℕ → Mask)

/-- `get_flag`: behind `bb_show_usage()` it ends without a `return`. -/
def get_flag (usage : ℕ) (c : UInt8) : Mask × ℕ :=
  match letterValue c with
  | some v => (v, usage)
  | none => (junk usage, usage + 1)

/-- `while (*arg) *fl |= get_flag(*arg++)`. -/
def collect : Bytes → Mask → ℕ → Mask × ℕ
  | [], fl, usage => (fl, usage)
  | c :: arg, fl, usage => collect arg (fl ||| (get_flag junk usage c).1) (get_flag junk usage c).2

/-- `decode_arg`; `none` is the return value 0. -/
def decode_arg (g : Globals) : Bytes → Option Globals
  | [] => none
  | opt :: arg =>
      if opt = 45 then
        let (rf, usage) := collect junk arg g.rf g.usage
        some { g with flags := g.flags ||| OPT_REM, rf, usage }
      else if opt = 43 then
        let (af, usage) := collect junk arg g.af g.usage
        some { g with flags := g.flags ||| OPT_ADD, af, usage }
      else if opt = 61 then
        let (af, usage) := collect junk arg g.af g.usage
        some { g with flags := g.flags ||| OPT_SET, af, usage }
      else none

/-- The loop of `chattr_main` over the arguments; what is left are the operands.
`none`: a `-v` is the last argument, and `atoi(NULL)` crashes behind
`bb_show_usage()`. -/
def parse : Globals → List Bytes → Option (Globals × List Bytes)
  | g, [] => some (g, [])
  | g, arg :: argv =>
      if arg = ascii "-R" then parse { g with recursive := true } argv
      else if arg = ascii "-v" then
        match argv with
        | [] => none
        | version :: argv =>
            parse { g with version := .ofInt 32 (atoi version), flags := g.flags ||| OPT_SET_VER }
              argv
      else
        match decode_arg junk g arg with
        | none => some (g, arg :: argv)
        | some g => parse g argv

end Parse

/-! ## The files -/

/-- A file that can be opened: what `fgetflags` gives, unless it fails, and
whether the two other calls succeed. -/
structure Inode where
  flags : Option Mask
  setversionOk : Bool
  setflagsOk : Bool

mutual

/-- What `lstat` and `readdir` give for a path when it is looked at. -/
inductive Node where
  | missing
  | special
  | symlink (i : Inode)
  | regular (i : Inode)
  | directory (i : Inode) (entries : Entries)

/-- The entries of a directory, in the order of `readdir`. -/
inductive Entries where
  | nil
  | cons (d_name : Bytes) (node : Node) (entries : Entries)

end

/-- What the program does. -/
inductive Event where
  | printed (text : Bytes)
  | fsetversion (name : Bytes) (version : Mask)
  | fsetflags (name : Bytes) (flags : Mask)
deriving DecidableEq, Repr

/-- The part of `change_attributes` from `OPT_SET_VER` to `skip_setflags`. -/
def Inode.change (g : Globals) (name : Bytes) (isDir : Bool) (i : Inode) : List Event :=
  let perror (ok : Bool) (what : String) : List Event :=
    if ok then [] else [.printed (ascii what ++ name)]
  let setflags (fsflags : Mask) : List Event :=
    .fsetflags name fsflags :: perror i.setflagsOk "setting flags on "
  (if g.flags &&& OPT_SET_VER ≠ 0 then
      .fsetversion name g.version :: perror i.setversionOk "setting version on "
    else []) ++
  if g.flags &&& OPT_SET ≠ 0 then setflags g.af
  else
    match i.flags with
    | none => perror false "reading flags on "
    | some fsflags =>
        let fsflags := fsflags &&& ~~~g.rf ||| g.af
        setflags (if isDir then fsflags else fsflags &&& ~~~EXT2_DIRSYNC_FL)

/-- `DOT_OR_DOTDOT`. -/
def DOT_OR_DOTDOT (s : Bytes) : Bool := s == ascii "." || s == ascii ".."

mutual

/-- `change_attributes`. -/
def change_attributes (g : Globals) (name : Bytes) : Node → List Event
  | .missing => [.printed (ascii "stat " ++ name)]
  | .special => []
  | .symlink i => if g.recursive then [] else i.change g name false
  | .regular i => i.change g name false
  | .directory i entries =>
      i.change g name true ++ if g.recursive then iterate_on_dir g name entries else []

/-- `iterate_on_dir` with `chattr_dir_proc`. The 1024 bytes for a path are taken to
be enough. -/
def iterate_on_dir (g : Globals) (dir_name : Bytes) : Entries → List Event
  | .nil => []
  | .cons d_name node entries =>
      (if DOT_OR_DOTDOT d_name then []
        else change_attributes g (dir_name ++ ascii "/" ++ d_name) node) ++
      iterate_on_dir g dir_name entries

end

/-! ## `chattr_main` -/

/-- What the checks print. -/
def checks (g : Globals) : List Event :=
  (if g.flags &&& OPT_SET ≠ 0 ∧ g.flags &&& (OPT_ADD ||| OPT_REM) ≠ 0 then
    [.printed (ascii "= is incompatible with - and +")] else []) ++
  (if g.rf &&& g.af ≠ 0 then [.printed (ascii "can't set and unset a flag")] else []) ++
  (if g.flags = 0 then [.printed (ascii "must use '-v', =, - or +")] else [])

/-- The strings up to the first null pointer or to one that cannot be read. -/
def strings : List (Option Bytes) → List Bytes
  | some s :: behind => s :: strings behind
  | _ => []

/-- The names on which `change_attributes` is called. Without an operand the loop
starts at the null pointer that ends `argv` and goes on with what is behind. -/
def visited (operands : List Bytes) (behind : List (Option Bytes)) : List Bytes :=
  if operands = [] then strings behind else operands

/-- What a run meets outside its arguments. -/
structure World where
  /-- what `get_flag` has for a value when it ends without a `return` -/
  junk : ℕ → Mask
  /-- the pointers behind the end of `argv`, up to the next null pointer; `none` is
  one that cannot be read -/
  behind : List (Option Bytes)
  /-- the file that is there under a name, by how many names were looked at before -/
  found : ℕ → Bytes → Node

/-- A run: what it does, and its return value unless it crashes. -/
structure Run where
  events : List Event
  result : Option ℤ

/-- `chattr_main` on the arguments behind `argv[0]`. -/
def chattr_main (w : World) (args : List Bytes) : Run :=
  match parse w.junk .zero args with
  | none => ⟨[], none⟩
  | some (g, operands) =>
      -- `lstat(NULL)` fails, and `printf` has a text for a null pointer
      let null : List Event := if operands = [] then [.printed (ascii "stat (null)")] else []
      let walk := (visited operands w.behind).zipIdx.flatMap fun n =>
        change_attributes g n.1 (w.found n.2 n.1)
      ⟨checks g ++ null ++ walk, if operands = [] ∧ none ∈ w.behind then none else some 0⟩

/-! ## What is asked for -/

/-- An argument in front of the operands. -/
inductive Opt where
  | recursive
  | version (v : Bytes)
  | remove (letters : Bytes)
  | add (letters : Bytes)
  | set (letters : Bytes)
deriving DecidableEq, Repr

/-- A command line: `-R`, `-v VERSION` and attributes, then the operands. -/
structure CommandLine where
  opts : List Opt
  operands : List Bytes
deriving DecidableEq, Repr

/-- Attributes, when the argument begins with an operator. -/
def attributes : Bytes → Option Opt
  | [] => none
  | opt :: letters =>
      if opt = 45 then some (.remove letters)
      else if opt = 43 then some (.add letters)
      else if opt = 61 then some (.set letters)
      else none

/-- The command line, unless the version is missing. -/
def commandLine : List Bytes → Option CommandLine
  | [] => some ⟨[], []⟩
  | arg :: argv =>
      if arg = ascii "-R" then
        (commandLine argv).map fun c => { c with opts := .recursive :: c.opts }
      else if arg = ascii "-v" then
        match argv with
        | [] => none
        | v :: argv => (commandLine argv).map fun c => { c with opts := .version v :: c.opts }
      else
        match attributes arg with
        | none => some ⟨[], arg :: argv⟩
        | some o => (commandLine argv).map fun c => { c with opts := o :: c.opts }

/-- The operator of an argument, as a mask. -/
def Opt.operator : Opt → Mask
  | .recursive => 0
  | .version _ => OPT_SET_VER
  | .remove _ => OPT_REM
  | .add _ => OPT_ADD
  | .set _ => OPT_SET

/-- The letters that are removed. -/
def Opt.removed : Opt → Bytes
  | .remove letters => letters
  | _ => []

/-- The letters that are added or set. -/
def Opt.added : Opt → Bytes
  | .add letters => letters
  | .set letters => letters
  | _ => []

/-- The command line is one of those that are to be rejected. -/
inductive CommandLine.Bad (c : CommandLine) : Prop where
  | setWithOther (l : Bytes) : .set l ∈ c.opts →
      (∃ l, .add l ∈ c.opts ∨ .remove l ∈ c.opts) → Bad c
  | addedAndRemoved (letter : UInt8) : (letterValue letter).isSome →
      letter ∈ c.opts.flatMap Opt.added → letter ∈ c.opts.flatMap Opt.removed → Bad c
  | noOperator : (∀ o ∈ c.opts, o = .recursive) → Bad c
  | unknown (letter : UInt8) : letterValue letter = none →
      letter ∈ c.opts.flatMap Opt.added ∨ letter ∈ c.opts.flatMap Opt.removed → Bad c
  | noOperand : c.operands = [] → Bad c

/-- The arguments are to be rejected. A `-v` at the end of them has no version,
and there is no operand. -/
def Rejected (args : List Bytes) : Prop := ∀ c, commandLine args = some c → c.Bad

/-- The call changes a file. -/
def Event.changes : Event → Bool
  | .printed _ => false
  | .fsetversion _ _ => true
  | .fsetflags _ _ => true

/-- Nothing that is done changes a file. -/
def Harmless (events : List Event) : Prop := ∀ e ∈ events, e.changes = false

/-- `chattr` as it should be: arguments that are to be rejected change no file. -/
def Refuses (w : World) (args : List Bytes) : Prop :=
  Rejected args → Harmless (chattr_main w args).events

/-! ## What is changed -/

/-- A version or `=` is given; neither depends on the flags a file has. -/
def CommandLine.always (c : CommandLine) : Bool :=
  c.opts.any fun o => o.operator &&& (OPT_SET ||| OPT_SET_VER) != 0

/-- `-R` is given. -/
def CommandLine.recursive (c : CommandLine) : Bool := c.opts.contains .recursive

/-- The calls that change a file are made on it. -/
def Inode.touched (c : CommandLine) (i : Inode) : Bool := c.always || i.flags.isSome

mutual

/-- There is something for the command line to change. -/
def Node.touched (c : CommandLine) : Node → Bool
  | .missing => false
  | .special => false
  | .symlink i => !c.recursive && i.touched c
  | .regular i => i.touched c
  | .directory i entries => i.touched c || (c.recursive && entries.touched c)

/-- There is something to change in a directory. -/
def Entries.touched (c : CommandLine) : Entries → Bool
  | .nil => false
  | .cons d_name node entries => (!DOT_OR_DOTDOT d_name && node.touched c) || entries.touched c

end

/-- None of the names that are visited leads to anything to change. -/
def Untouched (w : World) (args : List Bytes) : Prop :=
  ∀ c, commandLine args = some c → ∀ (k : ℕ) (name : Bytes),
    (visited c.operands w.behind)[k]? = some name → (w.found k name).touched c = false

/-! ## The masks of a command line -/

section Masks

variable (junk : ℕ → Mask)

/-- What an argument does to the globals. -/
def Globals.take (g : Globals) : Opt → Globals
  | .recursive => { g with recursive := true }
  | .version v => { g with version := .ofInt 32 (atoi v), flags := g.flags ||| OPT_SET_VER }
  | .remove letters =>
      let (rf, usage) := collect junk letters g.rf g.usage
      { g with flags := g.flags ||| OPT_REM, rf, usage }
  | .add letters =>
      let (af, usage) := collect junk letters g.af g.usage
      { g with flags := g.flags ||| OPT_ADD, af, usage }
  | .set letters =>
      let (af, usage) := collect junk letters g.af g.usage
      { g with flags := g.flags ||| OPT_SET, af, usage }

/-- What `chattr_main` has collected of a command line. -/
def CommandLine.globals (c : CommandLine) : Globals := c.opts.foldl (Globals.take junk) .zero

theorem decode_arg_eq (g : Globals) (arg : Bytes) :
    decode_arg junk g arg = (attributes arg).map (g.take junk) := by
  cases arg with
  | nil => rfl
  | cons opt letters =>
      simp only [decode_arg, attributes]
      split_ifs <;> rfl

theorem parse_foldl (g : Globals) (args : List Bytes) :
    parse junk g args =
      (commandLine args).map fun c => (c.opts.foldl (Globals.take junk) g, c.operands) := by
  induction args using commandLine.induct generalizing g with
  | case1 => rfl
  | case2 argv ih =>
      rw [parse.eq_def, commandLine.eq_def]
      simp only [if_true, ih, Option.map_map]
      rfl
  | case3 hv =>
      rw [parse.eq_def, commandLine.eq_def]
      simp only [if_neg hv, if_true]
      rfl
  | case4 v argv hv ih =>
      rw [parse.eq_def, commandLine.eq_def]
      simp only [if_neg hv, if_true, ih, Option.map_map]
      rfl
  | case5 arg argv hR hv hattr =>
      rw [parse.eq_def, commandLine.eq_def]
      simp only [if_neg hR, if_neg hv, decode_arg_eq, hattr]
      rfl
  | case6 arg argv hR hv o hattr ih =>
      rw [parse.eq_def, commandLine.eq_def]
      simp only [if_neg hR, if_neg hv, decode_arg_eq, hattr, Option.map_some, ih, Option.map_map]
      rfl

/-- `chattr_main` reads the command line and collects its masks. -/
theorem parse_eq (args : List Bytes) :
    parse junk .zero args = (commandLine args).map fun c => (c.globals junk, c.operands) :=
  parse_foldl junk .zero args

variable {junk} {c : CommandLine}

/-- A mask to which every argument adds its own parts. -/
theorem foldl_take {mask : Globals → Mask} {parts : Opt → List Mask} {opts : List Opt}
    (h : ∀ o ∈ opts, ∀ g, mask (g.take junk o) = (parts o).foldl (· ||| ·) (mask g))
    (g : Globals) : mask (opts.foldl (Globals.take junk) g) =
      (opts.flatMap parts).foldl (· ||| ·) (mask g) := by
  induction opts generalizing g with
  | nil => rfl
  | cons o opts ih =>
      rw [List.forall_mem_cons] at h
      rw [List.foldl_cons, ih h.2, h.1, List.flatMap_cons, List.foldl_append]

theorem globals_flags :
    (c.globals junk).flags = (c.opts.flatMap fun o => [o.operator]).foldl (· ||| ·) 0 := by
  refine foldl_take ?_ .zero
  intro o _ g
  rcases o with _ | _ | _ | _ | _
  · exact BitVec.or_zero.symm
  all_goals rfl

theorem globals_flags_and (m : Mask) :
    (c.globals junk).flags &&& m ≠ 0 ↔ ∃ o ∈ c.opts, o.operator &&& m ≠ 0 := by
  rw [globals_flags, Ne, Masks.foldl_or_and_eq_zero_iff]
  simp

theorem globals_set : (c.globals junk).flags &&& OPT_SET ≠ 0 ↔ ∃ l, .set l ∈ c.opts := by
  rw [globals_flags_and]
  constructor
  · rintro ⟨o, ho, hop⟩
    rcases o with _ | _ | _ | _ | l
    case set => exact ⟨l, ho⟩
    all_goals
      simp only [Opt.operator] at hop
      exact absurd (by decide) hop
  · rintro ⟨l, hl⟩
    exact ⟨.set l, hl, (by decide : OPT_SET &&& OPT_SET ≠ 0)⟩

theorem globals_other : (c.globals junk).flags &&& (OPT_ADD ||| OPT_REM) ≠ 0 ↔
    ∃ l, .add l ∈ c.opts ∨ .remove l ∈ c.opts := by
  rw [globals_flags_and]
  constructor
  · rintro ⟨o, ho, hop⟩
    rcases o with _ | _ | l | l | _
    case remove => exact ⟨l, Or.inr ho⟩
    case add => exact ⟨l, Or.inl ho⟩
    all_goals
      simp only [Opt.operator] at hop
      exact absurd (by decide) hop
  · rintro ⟨l, hl | hl⟩
    · exact ⟨.add l, hl, (by decide : OPT_ADD &&& (OPT_ADD ||| OPT_REM) ≠ 0)⟩
    · exact ⟨.remove l, hl, (by decide : OPT_REM &&& (OPT_ADD ||| OPT_REM) ≠ 0)⟩

theorem globals_none : (c.globals junk).flags = 0 ↔ ∀ o ∈ c.opts, o = .recursive := by
  have hop : ∀ o : Opt, o.operator = 0 ↔ o = .recursive := by
    intro o
    rcases o with _ | _ | _ | _ | _ <;> simp [Opt.operator, OPT_SET_VER, OPT_REM, OPT_ADD, OPT_SET]
  rw [globals_flags, Masks.foldl_or_eq_zero_iff]
  simp only [List.mem_flatMap, List.mem_singleton, forall_exists_index, and_imp, true_and]
  constructor
  · intro h o ho
    exact (hop o).1 (h _ o ho rfl)
  · intro h x o ho hx
    rw [hx]
    exact (hop o).2 (h o ho)

theorem globals_always : (c.globals junk).flags &&& (OPT_SET ||| OPT_SET_VER) ≠ 0 ↔
    c.always = true := by
  rw [globals_flags_and, CommandLine.always, List.any_eq_true]
  simp only [bne_iff_ne]

theorem take_recursive (g : Globals) (o : Opt) :
    (g.take junk o).recursive = (g.recursive || Opt.recursive == o) := by
  rcases o with _ | _ | _ | _ | _
  · exact (Bool.or_true _).symm
  all_goals exact (Bool.or_false _).symm

theorem globals_recursive : (c.globals junk).recursive = c.recursive := by
  have h : ∀ (opts : List Opt) (g : Globals), (opts.foldl (Globals.take junk) g).recursive =
      (g.recursive || opts.contains .recursive) := by
    intro opts
    induction opts with
    | nil =>
        intro g
        exact (Bool.or_false _).symm
    | cons o opts ih =>
        intro g
        rw [List.foldl_cons, ih, take_recursive, List.contains_cons, Bool.or_assoc]
  exact h c.opts .zero

/-- The letters that are looked up. -/
def Opt.letters (o : Opt) : Bytes := o.added ++ o.removed

/-- Every letter has a value. -/
def CommandLine.Known (c : CommandLine) : Prop :=
  ∀ o ∈ c.opts, ∀ letter ∈ o.letters, (letterValue letter).isSome = true

theorem not_known_iff : ¬ c.Known ↔ ∃ letter, letterValue letter = none ∧
    (letter ∈ c.opts.flatMap Opt.added ∨ letter ∈ c.opts.flatMap Opt.removed) := by
  unfold CommandLine.Known
  push Not
  simp only [Opt.letters, List.mem_append, List.mem_flatMap, ← exists_or, ← and_or_left]
  constructor
  · rintro ⟨o, ho, letter, hl, hv⟩
    exact ⟨letter, by simpa using hv, o, ho, hl⟩
  · rintro ⟨letter, hv, o, ho, hl⟩
    exact ⟨o, ho, letter, hl, by simp [hv]⟩

theorem collect_usage (letters : Bytes) (fl : Mask) (usage : ℕ) :
    (collect junk letters fl usage).2 = 0 ↔
      usage = 0 ∧ ∀ c ∈ letters, (letterValue c).isSome = true := by
  induction letters generalizing fl usage with
  | nil => simp [collect]
  | cons c letters ih =>
      rw [collect, ih, List.forall_mem_cons, ← and_assoc]
      rcases hc : letterValue c with _ | v <;> simp [get_flag, hc]

theorem collect_mask {letters : Bytes} (h : ∀ c ∈ letters, (letterValue c).isSome = true)
    (fl : Mask) (usage : ℕ) : (collect junk letters fl usage).1 =
      (letters.filterMap letterValue).foldl (· ||| ·) fl := by
  induction letters generalizing fl usage with
  | nil => rfl
  | cons c letters ih =>
      rw [List.forall_mem_cons] at h
      rcases Option.isSome_iff_exists.1 h.1 with ⟨v, hv⟩
      rw [collect, ih h.2, List.filterMap_cons_some hv, List.foldl_cons]
      simp [get_flag, hv]

theorem globals_usage : (c.globals junk).usage = 0 ↔ c.Known := by
  have h : ∀ (opts : List Opt) (g : Globals), (opts.foldl (Globals.take junk) g).usage = 0 ↔
      g.usage = 0 ∧ ∀ o ∈ opts, ∀ letter ∈ o.letters, (letterValue letter).isSome = true := by
    intro opts
    induction opts with
    | nil => intro g; simp
    | cons o opts ih =>
        intro g
        rw [List.foldl_cons, ih, List.forall_mem_cons, ← and_assoc]
        rcases o with _ | _ | _ | _ | _ <;>
          simp [Globals.take, Opt.letters, Opt.added, Opt.removed, collect_usage]
  have hzero : Globals.zero.usage = 0 := rfl
  exact (h c.opts .zero).trans (and_iff_right hzero)

theorem take_af {o : Opt} (h : ∀ letter ∈ o.letters, (letterValue letter).isSome = true)
    (g : Globals) :
    (g.take junk o).af = (o.added.filterMap letterValue).foldl (· ||| ·) g.af := by
  rcases o with _ | _ | _ | letters | letters
  case add => exact collect_mask (fun c hc => h c (List.mem_append_left _ hc)) g.af g.usage
  case set => exact collect_mask (fun c hc => h c (List.mem_append_left _ hc)) g.af g.usage
  all_goals rfl

theorem take_rf {o : Opt} (h : ∀ letter ∈ o.letters, (letterValue letter).isSome = true)
    (g : Globals) :
    (g.take junk o).rf = (o.removed.filterMap letterValue).foldl (· ||| ·) g.rf := by
  rcases o with _ | _ | letters | _ | _
  case remove => exact collect_mask (fun c hc => h c (List.mem_append_right _ hc)) g.rf g.usage
  all_goals rfl

/-- No letter has a bit of another one. -/
theorem e2attr_flags_disjoint {p q : UInt8 × Mask} (hp : p ∈ e2attr_flags)
    (hq : q ∈ e2attr_flags) : p.2 &&& q.2 ≠ 0 ↔ p.1 = q.1 := by
  have hall : (e2attr_flags.all fun p => e2attr_flags.all fun q =>
      decide (p.2 &&& q.2 ≠ 0) == decide (p.1 = q.1)) = true := by
    decide
  have hpq := List.all_eq_true.1 (List.all_eq_true.1 hall p hp) q hq
  exact decide_eq_decide.1 (beq_iff_eq.1 hpq)

theorem mem_of_letterValue {c : UInt8} {v : Mask} (h : letterValue c = some v) :
    (c, v) ∈ e2attr_flags := by
  rcases Option.map_eq_some_iff.1 h with ⟨⟨c', v'⟩, hfind, hv⟩
  have hc : c' = c := by simpa using List.find?_some hfind
  rw [← hc, ← hv]
  exact List.mem_of_find?_eq_some hfind

/-- When every letter is known, a flag is both added and removed if a letter is. -/
theorem globals_both (h : c.Known) : (c.globals junk).rf &&& (c.globals junk).af = 0 ↔
    ∀ letter ∈ c.opts.flatMap Opt.removed, letter ∉ c.opts.flatMap Opt.added := by
  have hrf : (c.globals junk).rf = _ := foldl_take (fun o ho => take_rf (h o ho)) .zero
  have haf : (c.globals junk).af = _ := foldl_take (fun o ho => take_af (h o ho)) .zero
  rw [hrf, haf]
  refine (Masks.foldl_or_and_foldl_or_eq_zero_iff _ _).trans ?_
  constructor
  · intro hdisj letter hr ha
    rcases List.mem_flatMap.1 hr with ⟨o, ho, hro⟩
    rcases List.mem_flatMap.1 ha with ⟨o', ho', hao'⟩
    -- its value is collected in both masks
    rcases Option.isSome_iff_exists.1 (h o ho letter (List.mem_append_right _ hro)) with ⟨v, hv⟩
    have hmem := mem_of_letterValue hv
    refine (e2attr_flags_disjoint hmem hmem).2 rfl (hdisj v ?_ v ?_)
    · exact List.mem_flatMap.2 ⟨o, ho, List.mem_filterMap.2 ⟨letter, hro, hv⟩⟩
    · exact List.mem_flatMap.2 ⟨o', ho', List.mem_filterMap.2 ⟨letter, hao', hv⟩⟩
  · intro hnot x hx y hy
    rcases List.mem_flatMap.1 hx with ⟨o, ho, hxo⟩
    rcases List.mem_flatMap.1 hy with ⟨o', ho', hyo'⟩
    rcases List.mem_filterMap.1 hxo with ⟨r, hr, hvr⟩
    rcases List.mem_filterMap.1 hyo' with ⟨a, ha, hva⟩
    by_contra hne
    have hra : r = a :=
      (e2attr_flags_disjoint (mem_of_letterValue hvr) (mem_of_letterValue hva)).1 hne
    exact hnot r (List.mem_flatMap.2 ⟨o, ho, hr⟩) (List.mem_flatMap.2 ⟨o', ho', hra ▸ ha⟩)

end Masks

/-! ## Which command lines the checks reject -/

section Checks

variable {junk : ℕ → Mask} {c : CommandLine}

theorem checks_ne_nil_iff (g : Globals) : checks g ≠ [] ↔
    (g.flags &&& OPT_SET ≠ 0 ∧ g.flags &&& (OPT_ADD ||| OPT_REM) ≠ 0) ∨
      g.rf &&& g.af ≠ 0 ∨ g.flags = 0 := by
  unfold checks
  split_ifs <;> simp_all

/-- The checks reject the command lines that are to be rejected: one of them prints,
a letter is unknown, or no operand is left. -/
theorem bad_iff : c.Bad ↔ checks (c.globals junk) ≠ [] ∨ (c.globals junk).usage ≠ 0 ∨
    c.operands = [] := by
  rw [checks_ne_nil_iff, globals_set, globals_other, globals_none, Ne, Ne, globals_usage]
  constructor
  · intro h
    by_cases hknown : c.Known
    · rcases h with ⟨l, hl, hother⟩ | ⟨letter, _, ha, hr⟩ | hno | ⟨letter, hv, hl⟩ | hop
      · exact Or.inl (Or.inl ⟨⟨l, hl⟩, hother⟩)
      · refine Or.inl (Or.inr (Or.inl ?_))
        intro hdisj
        exact (globals_both hknown).1 hdisj letter hr ha
      · exact Or.inl (Or.inr (Or.inr hno))
      · exact absurd hknown (not_known_iff.2 ⟨letter, hv, hl⟩)
      · exact Or.inr (Or.inr hop)
    · exact Or.inr (Or.inl hknown)
  · intro h
    by_cases hknown : c.Known
    · rcases h with (⟨⟨l, hl⟩, hother⟩ | hboth | hno) | h | hop
      · exact .setWithOther l hl hother
      · rw [globals_both hknown] at hboth
        push Not at hboth
        rcases hboth with ⟨letter, hr, ha⟩
        rcases List.mem_flatMap.1 hr with ⟨o, ho, hlo⟩
        exact .addedAndRemoved letter (hknown o ho letter (List.mem_append_right _ hlo)) ha hr
      · exact .noOperator hno
      · exact absurd hknown h
      · exact .noOperand hop
    · -- a value that `get_flag` did not return may be in both masks
      rcases not_known_iff.1 hknown with ⟨letter, hv, hl⟩
      exact .unknown letter hv hl

end Checks

/-! ## What a walk changes -/

section Walk

variable {g : Globals} {c : CommandLine}

theorem harmless_append (xs ys : List Event) :
    Harmless (xs ++ ys) ↔ Harmless xs ∧ Harmless ys := List.forall_mem_append

theorem harmless_nil : Harmless [] := by
  intro e he
  cases he

theorem harmless_printed (text : Bytes) : Harmless [.printed text] := by
  intro e he
  rw [List.mem_singleton.1 he]
  rfl

theorem not_harmless_fsetflags (name : Bytes) (flags : Mask) (events : List Event) :
    ¬ Harmless (.fsetflags name flags :: events) := by
  intro h
  have hchanges := h _ (List.mem_cons_self ..)
  cases hchanges

theorem not_harmless_fsetversion (name : Bytes) (version : Mask) (events : List Event) :
    ¬ Harmless (.fsetversion name version :: events) := by
  intro h
  have hchanges := h _ (List.mem_cons_self ..)
  cases hchanges

theorem checks_harmless (g : Globals) : Harmless (checks g) := by
  unfold checks
  simp only [harmless_append]
  refine ⟨⟨?_, ?_⟩, ?_⟩ <;> split
  all_goals first | exact harmless_nil | exact harmless_printed _

/-- A file that can be opened is left as it is only if its flags cannot be read and
neither a version nor `=` is given. -/
theorem change_harmless
    (hg : g.flags &&& (OPT_SET ||| OPT_SET_VER) ≠ 0 ↔ c.always = true)
    (name : Bytes) (isDir : Bool) (i : Inode) :
    Harmless (i.change g name isDir) ↔ i.touched c = false := by
  have hor : g.flags &&& (OPT_SET ||| OPT_SET_VER) = 0 ↔
      g.flags &&& OPT_SET = 0 ∧ g.flags &&& OPT_SET_VER = 0 := by
    rw [BitVec.and_or_distrib_left]
    exact BitVec.or_eq_zero_iff
  unfold Inode.change Inode.touched
  rw [harmless_append]
  by_cases halways : c.always = true
  · have hne := hg.2 halways
    rw [halways, Bool.true_or]
    -- one of the two calls is made, whatever the flags are
    refine iff_of_false ?_ Bool.noConfusion
    rintro ⟨hver, hset⟩
    apply hne
    rw [hor]
    constructor
    · by_contra h
      rw [if_pos h] at hset
      exact not_harmless_fsetflags _ _ _ hset
    · by_contra h
      rw [if_pos h] at hver
      exact not_harmless_fsetversion _ _ _ hver
  · have heq := hor.1 (not_not.1 (mt hg.1 halways))
    rw [if_neg (not_not.2 heq.1), if_neg (not_not.2 heq.2), eq_false_of_ne_true halways,
      Bool.false_or]
    rcases i.flags with _ | fsflags
    · exact iff_of_true ⟨harmless_nil, harmless_printed _⟩ rfl
    · refine iff_of_false ?_ Bool.noConfusion
      rintro ⟨-, h⟩
      exact not_harmless_fsetflags _ _ _ h

mutual

/-- `change_attributes` changes nothing where there is nothing to change. -/
theorem change_attributes_harmless
    (hg : g.flags &&& (OPT_SET ||| OPT_SET_VER) ≠ 0 ↔ c.always = true)
    (hr : g.recursive = c.recursive) (name : Bytes) :
    (n : Node) → (Harmless (change_attributes g name n) ↔ n.touched c = false)
  | .missing => iff_of_true (harmless_printed _) rfl
  | .special => iff_of_true harmless_nil rfl
  | .symlink i => by
      rw [change_attributes, Node.touched, hr]
      rcases c.recursive with _ | _
      · exact change_harmless hg name false i
      · exact iff_of_true harmless_nil rfl
  | .regular i => by
      rw [change_attributes, Node.touched]
      exact change_harmless hg name false i
  | .directory i entries => by
      rw [change_attributes, Node.touched, harmless_append, change_harmless hg name true i,
        Bool.or_eq_false_iff, hr]
      -- the entries are looked at only with `-R`
      refine and_congr_right fun _ => ?_
      rcases c.recursive with _ | _
      · exact iff_of_true harmless_nil rfl
      · exact iterate_on_dir_harmless hg hr name entries

/-- `iterate_on_dir` changes nothing where no entry has anything to change. -/
theorem iterate_on_dir_harmless
    (hg : g.flags &&& (OPT_SET ||| OPT_SET_VER) ≠ 0 ↔ c.always = true)
    (hr : g.recursive = c.recursive) (dir_name : Bytes) :
    (es : Entries) → (Harmless (iterate_on_dir g dir_name es) ↔ es.touched c = false)
  | .nil => iff_of_true harmless_nil rfl
  | .cons d_name node entries => by
      rw [iterate_on_dir, Entries.touched, harmless_append, Bool.or_eq_false_iff,
        iterate_on_dir_harmless hg hr dir_name entries]
      refine and_congr_left fun _ => ?_
      rcases DOT_OR_DOTDOT d_name with _ | _
      · exact change_attributes_harmless hg hr _ node
      · exact iff_of_true harmless_nil rfl

end

/-- Whatever the arguments are, a run changes no file if and only if there is
nothing to change under the names that are visited. -/
theorem harmless_iff (w : World) (args : List Bytes) :
    Harmless (chattr_main w args).events ↔ Untouched w args := by
  unfold chattr_main Untouched
  rw [parse_eq]
  rcases commandLine args with _ | c
  · refine iff_of_true harmless_nil ?_
    intro c hc
    cases hc
  · have hnull : Harmless (if c.operands = [] then [.printed (ascii "stat (null)")] else []) := by
      split
      · exact harmless_printed _
      · exact harmless_nil
    have hwalk : Harmless ((visited c.operands w.behind).zipIdx.flatMap fun n =>
        change_attributes (c.globals w.junk) n.1 (w.found n.2 n.1)) ↔
        ∀ n ∈ (visited c.operands w.behind).zipIdx, (w.found n.2 n.1).touched c = false := by
      unfold Harmless
      rw [List.forall_mem_flatMap]
      refine forall₂_congr fun n _ => ?_
      exact change_attributes_harmless globals_always globals_recursive n.1 _
    -- the checks only print, so that the walk decides
    simp only [Option.map_some, harmless_append, checks_harmless, hnull, true_and, hwalk,
      Option.some.injEq, forall_eq']
    constructor
    · intro h k name hk
      exact h (name, k) (List.mem_zipIdx_iff_getElem?.2 hk)
    · intro h n hn
      exact h n.2 n.1 (List.mem_zipIdx_iff_getElem?.1 hn)

end Walk

/-! ## Rejected arguments -/

/-- The arguments that are to be rejected are those the checks reject. -/
theorem rejected_iff (junk : ℕ → Mask) (args : List Bytes) :
    Rejected args ↔ ∀ g operands, parse junk .zero args = some (g, operands) →
      checks g ≠ [] ∨ g.usage ≠ 0 ∨ operands = [] := by
  unfold Rejected
  rw [parse_eq]
  constructor
  · intro h g operands hparse
    rcases Option.map_eq_some_iff.1 hparse with ⟨c, hc, heq⟩
    cases heq
    exact bad_iff.1 (h c hc)
  · intro h c hc
    rw [hc] at h
    exact bad_iff.2 (h _ _ rfl)

/-- Rejected arguments change no file if and only if there is nothing to change
under the names that are visited nevertheless. -/
theorem refuses_iff (w : World) (args : List Bytes) :
    Refuses w args ↔ (Rejected args → Untouched w args) := by
  unfold Refuses
  rw [harmless_iff]

/-- A file `FILE` whose flags can be read and written. -/
def World.sample : World where
  junk _ := 0
  behind := []
  found _ name := if name = ascii "FILE" then .regular ⟨some 0, true, true⟩ else .missing

/-- `=a` with `+i` is rejected, and sets the flags of the file. -/
theorem not_refuses_sample :
    ¬ Refuses World.sample [ascii "=a", ascii "+i", ascii "FILE"] := by
  intro h
  have hline : commandLine [ascii "=a", ascii "+i", ascii "FILE"] =
      some ⟨[.set (ascii "a"), .add (ascii "i")], [ascii "FILE"]⟩ := by
    decide
  have hrejected : Rejected [ascii "=a", ascii "+i", ascii "FILE"] := by
    intro c hc
    rw [hline, Option.some.injEq] at hc
    subst hc
    exact .setWithOther (ascii "a") (List.mem_cons_self ..) ⟨ascii "i", Or.inl (by simp)⟩
  have hflags : Event.fsetflags (ascii "FILE") 0x30 ∈
      (chattr_main World.sample [ascii "=a", ascii "+i", ascii "FILE"]).events := by
    decide
  have hchanges := h hrejected _ hflags
  cases hchanges

end Su.Chattr
