import Mathlib.Data.Finset.Basic
import Mathlib.Data.Finset.Lattice.Lemmas
import Mathlib.Data.List.Perm.Basic
import Mathlib.Data.Int.Notation
import TestActivity.Lib.Outcome
import TestActivity.Su.Toolbox

/-!
# The operands of `dd`

`jcl` of `dd.c` goes through the `name=value` operands, looks each name up in
`args` and sets globals. The file is compiled with `NO_CONV`, which leaves no
way to ask for a conversion.
-/

namespace Su.Dd

open Outcome

/-! ## What the operands set -/

/-- The `C_` bits of `ddflags`. -/
inductive Flag where
  | ascii | block | bs | cbs | count | ebcdic | files | ibs | if_ | lcase | noerror | notrunc
  | obs | of_ | seek | skip | swab | sync | ucase | unblock | osync | sparse
deriving DecidableEq, Repr

/-- The conversion function `cfunc`. -/
inductive Cfunc where
  | copy
  | block
  | unblock
deriving DecidableEq, Repr

/-- The globals `jcl` sets, with the values they start from. -/
structure Globals where
  ddflags : Finset Flag := ∅
  inName : Option Bytes := none
  outName : Option Bytes := none
  /-- `in.dbsz` and `out.dbsz`, of type `uint64_t` like `cbsz` and the counts -/
  inDbsz : ℕ := 512
  outDbsz : ℕ := 512
  cbsz : ℕ := 0
  inOffset : ℕ := 0
  outOffset : ℕ := 0
  cpyCnt : ℕ := 0
  filesCnt : ℕ := 1
  progress : Bool := false
  /-- a pointer, `NULL` until the second check behind the loop -/
  cfunc : Option Cfunc := none
deriving DecidableEq

/-- How the program ends before the copying starts: with `0` on stdout and
`exit(0)` for `terminated`, and otherwise with `1` and `exit(1)`. -/
inductive Early where
  /-- `getopt` found an option -/
  | usage
  /-- `terminate(0)` -/
  | terminated
  /-- the operand is not in the table, or has no `=` -/
  | unknownOperand (oper : Bytes)
  | noValue (oper : Bytes)
  | illegalCombination (oper : Bytes)
  | convDisabled
  | cbsRequired
  | cbsMeaningless
  | cannotOpenRead
  | filesUnsupported
  | cannotOpenWrite
  | noMemory
  /-- not an end of the program: the value that is stored is indeterminate -/
  | indeterminate
deriving DecidableEq

/-! ## Numbers -/

/-- `sscanf(arg, "%lld", &result)`: the number, which saturates, or what is
returned without one, `0` for a mismatch and `EOF` for the end of the string. -/
def sscanfLld (arg : Bytes) : Except ℤ ℤ :=
  let number (sign : ℤ) (ds : Bytes) : Except ℤ ℤ :=
    if (ds.takeWhile fun b => 48 ≤ b && b ≤ 57) = [] then .error 0
    else .ok (max (-9223372036854775808) (min 9223372036854775807 (sign * digits ds)))
  match arg.dropWhile isSpace with
  | [] => .error (-1)
  | 45 :: ds => number (-1) ds
  | 43 :: ds => number 1 ds
  | ds => number 1 ds

/-- `strsuftoll`: the default is used for a mismatch only; at the end of the
string `result` keeps what the stack had. -/
def strsuftoll (arg : Bytes) (dflt : ℤ) : Except Early ℤ :=
  match sscanfLld arg with
  | .ok result => .ok result
  | .error 0 => .ok dflt
  | .error _ => .error .indeterminate

/-- The conversion of a `long long` to `uint64_t`. -/
def toUint64 (v : ℤ) : ℕ := (v % 18446744073709551616).toNat

/-- The conversion of a `long long` to `u_int`. -/
def toUint (v : ℤ) : ℕ := (v % 4294967296).toNat

/-! ## The setters -/

/-- The setters of `args`. -/
inductive Setter where
  | bs | cbs | conv | count | files | ibs | if_ | obs | of_ | progress | seek | skip
deriving DecidableEq, Repr

def fBs (arg : Bytes) (g : Globals) : Except Early Globals := do
  let v ← strsuftoll arg 1
  .ok { g with inDbsz := toUint64 v, outDbsz := toUint64 v }

def fCbs (arg : Bytes) (g : Globals) : Except Early Globals := do
  let v ← strsuftoll arg 1
  .ok { g with cbsz := toUint64 v }

/-- `fConv` under `NO_CONV`. -/
def fConv (_arg : Bytes) (_g : Globals) : Except Early Globals := .error .convDisabled

def fCount (arg : Bytes) (g : Globals) : Except Early Globals := do
  let v ← strsuftoll arg 0
  if toUint64 v = 0 then .error .terminated else .ok { g with cpyCnt := toUint64 v }

def fFiles (arg : Bytes) (g : Globals) : Except Early Globals := do
  let v ← strsuftoll arg 0
  if toUint v = 0 then .error .terminated else .ok { g with filesCnt := toUint v }

def fIbs (arg : Bytes) (g : Globals) : Except Early Globals :=
  if .bs ∈ g.ddflags then .ok g
  else do
    let v ← strsuftoll arg 1
    .ok { g with inDbsz := toUint64 v }

def fIf (arg : Bytes) (g : Globals) : Except Early Globals := .ok { g with inName := some arg }

def fObs (arg : Bytes) (g : Globals) : Except Early Globals :=
  if .bs ∈ g.ddflags then .ok g
  else do
    let v ← strsuftoll arg 1
    .ok { g with outDbsz := toUint64 v }

def fOf (arg : Bytes) (g : Globals) : Except Early Globals := .ok { g with outName := some arg }

def fSeek (arg : Bytes) (g : Globals) : Except Early Globals := do
  let v ← strsuftoll arg 0
  .ok { g with outOffset := toUint64 v }

def fSkip (arg : Bytes) (g : Globals) : Except Early Globals := do
  let v ← strsuftoll arg 0
  .ok { g with inOffset := toUint64 v }

def fProgress (arg : Bytes) (g : Globals) : Except Early Globals :=
  .ok (if arg.head? = some 48 then g else { g with progress := true })

/-- The function of an entry of `args`. -/
def Setter.run : Setter → Bytes → Globals → Except Early Globals
  | .bs => fBs
  | .cbs => fCbs
  | .conv => fConv
  | .count => fCount
  | .files => fFiles
  | .ibs => fIbs
  | .if_ => fIf
  | .obs => fObs
  | .of_ => fOf
  | .progress => fProgress
  | .seek => fSeek
  | .skip => fSkip

/-- `struct arg`. -/
structure Arg where
  name : Bytes
  f : Setter
  set : Finset Flag
  noset : Finset Flag

/-- `args[]`. -/
def args : List Arg :=
  [⟨ascii "bs", .bs, {.bs}, {.bs, .ibs, .obs, .osync}⟩,
    ⟨ascii "cbs", .cbs, {.cbs}, {.cbs}⟩,
    ⟨ascii "conv", .conv, ∅, ∅⟩,
    ⟨ascii "count", .count, {.count}, {.count}⟩,
    ⟨ascii "files", .files, {.files}, {.files}⟩,
    ⟨ascii "ibs", .ibs, {.ibs}, {.bs, .ibs}⟩,
    ⟨ascii "if", .if_, {.if_}, {.if_}⟩,
    ⟨ascii "obs", .obs, {.obs}, {.bs, .obs}⟩,
    ⟨ascii "of", .of_, {.of_}, {.of_}⟩,
    ⟨ascii "progress", .progress, ∅, ∅⟩,
    ⟨ascii "seek", .seek, {.seek}, {.seek}⟩,
    ⟨ascii "skip", .skip, {.skip}, {.skip}⟩]

/-! ## `jcl` -/

/-- One round of the loop of `jcl`: `oper` is cut at its first `=`. -/
def operand (oper : Bytes) (g : Globals) : Except Early Globals :=
  let name := oper.takeWhile (· ≠ 61)
  match oper.dropWhile (· ≠ 61) with
  | [] => .error (.unknownOperand oper)
  | _ :: arg =>
      if arg = [] then .error (.noValue name)
      else
        match args.find? (·.name == name) with
        | none => .error (.unknownOperand name)
        | some ap =>
            if g.ddflags ∩ ap.noset = ∅ then
              ap.f.run arg { g with ddflags := g.ddflags ∪ ap.set }
            else .error (.illegalCombination name)

/-- The loop of `jcl`. -/
def operands (argv : List Bytes) (g : Globals) : Except Early Globals :=
  argv.foldlM (fun g oper => operand oper g) g

/-- The first check behind the loop: `bs` is turned off by a conversion. -/
def turnOffBs (g : Globals) : Globals :=
  if .bs ∈ g.ddflags ∧ g.ddflags ∩
      {.block, .lcase, .swab, .ucase, .unblock, .osync, .ascii, .ebcdic, .sparse} ≠ ∅ then
    { g with ddflags := g.ddflags.erase .bs ∪ {.ibs, .obs} }
  else g

/-- Whether `jcl` warns that `bs` supersedes `ibs` and `obs`. -/
def supersedes (g : Globals) : Bool :=
  .bs ∈ (turnOffBs g).ddflags ∧ (turnOffBs g).ddflags ∩ {.ibs, .obs} ≠ ∅

/-- The second check: block and unblock require `cbs` and vice versa. -/
def chooseCfunc (g : Globals) : Except Early Globals :=
  if g.ddflags ∩ {.block, .unblock} ≠ ∅ then
    if .cbs ∉ g.ddflags then .error .cbsRequired
    else .ok { g with cfunc := some (if .block ∈ g.ddflags then .block else .unblock) }
  else if .cbs ∈ g.ddflags then
    if g.ddflags ∩ {.ascii, .ebcdic} ≠ ∅ then
      if .ascii ∈ g.ddflags then
        .ok { g with ddflags := g.ddflags ∪ {.unblock}, cfunc := some .unblock }
      else .ok { g with ddflags := g.ddflags ∪ {.block}, cfunc := some .block }
    else .error .cbsMeaningless
  else .ok { g with cfunc := some .copy }

/-- `jcl`. -/
def jcl (argv : List Bytes) : Except Early Globals := do
  let g ← operands argv {}
  chooseCfunc (turnOffBs g)

/-! ## The change an operand makes -/

/-- What an operand that is accepted changes. -/
inductive Change where
  | bs (n : ℕ)
  | cbs (n : ℕ)
  | count (n : ℕ)
  | files (n : ℕ)
  | ibs (n : ℕ)
  | if_ (name : Bytes)
  | obs (n : ℕ)
  | of_ (name : Bytes)
  | progress (on : Bool)
  | seek (n : ℕ)
  | skip (n : ℕ)

/-- The entry of `args` behind a change. -/
def Change.entry : Change → Arg
  | .bs _ => ⟨ascii "bs", .bs, {.bs}, {.bs, .ibs, .obs, .osync}⟩
  | .cbs _ => ⟨ascii "cbs", .cbs, {.cbs}, {.cbs}⟩
  | .count _ => ⟨ascii "count", .count, {.count}, {.count}⟩
  | .files _ => ⟨ascii "files", .files, {.files}, {.files}⟩
  | .ibs _ => ⟨ascii "ibs", .ibs, {.ibs}, {.bs, .ibs}⟩
  | .if_ _ => ⟨ascii "if", .if_, {.if_}, {.if_}⟩
  | .obs _ => ⟨ascii "obs", .obs, {.obs}, {.bs, .obs}⟩
  | .of_ _ => ⟨ascii "of", .of_, {.of_}, {.of_}⟩
  | .progress _ => ⟨ascii "progress", .progress, ∅, ∅⟩
  | .seek _ => ⟨ascii "seek", .seek, {.seek}, {.seek}⟩
  | .skip _ => ⟨ascii "skip", .skip, {.skip}, {.skip}⟩

/-- The fields a change sets. -/
def Change.store : Change → Globals → Globals
  | .bs n, g => { g with inDbsz := n, outDbsz := n }
  | .cbs n, g => { g with cbsz := n }
  | .count n, g => { g with cpyCnt := n }
  | .files n, g => { g with filesCnt := n }
  | .ibs n, g => { g with inDbsz := n }
  | .if_ name, g => { g with inName := some name }
  | .obs n, g => { g with outDbsz := n }
  | .of_ name, g => { g with outName := some name }
  | .progress on, g => { g with progress := g.progress || on }
  | .seek n, g => { g with outOffset := n }
  | .skip n, g => { g with inOffset := n }

/-- A change with its mark in `ddflags`. -/
def Change.apply (c : Change) (g : Globals) : Globals :=
  c.store { g with ddflags := g.ddflags ∪ c.entry.set }

/-- The change a setter makes of its value, unless it ends the program. -/
def Setter.change (s : Setter) (arg : Bytes) : Option Change :=
  let number (dflt : ℤ) : Option ℤ := (strsuftoll arg dflt).toOption
  match s with
  | .bs => (number 1).map fun v => .bs (toUint64 v)
  | .cbs => (number 1).map fun v => .cbs (toUint64 v)
  | .conv => none
  | .count => (number 0).bind fun v => if toUint64 v = 0 then none else some (.count (toUint64 v))
  | .files => (number 0).bind fun v => if toUint v = 0 then none else some (.files (toUint v))
  | .ibs => (number 1).map fun v => .ibs (toUint64 v)
  | .if_ => some (.if_ arg)
  | .obs => (number 1).map fun v => .obs (toUint64 v)
  | .of_ => some (.of_ arg)
  | .progress => some (.progress (arg.head? ≠ some 48))
  | .seek => (number 0).map fun v => .seek (toUint64 v)
  | .skip => (number 0).map fun v => .skip (toUint64 v)

/-- The change an operand stands for. -/
def change (oper : Bytes) : Option Change :=
  match oper.dropWhile (· ≠ 61) with
  | [] => none
  | _ :: arg =>
      if arg = [] then none
      else (args.find? (·.name == oper.takeWhile (· ≠ 61))).bind fun ap => ap.f.change arg

variable {g g' : Globals} {arg oper : Bytes} {c c' : Change} {ap : Arg}

/-- The setters that store a number as it is. -/
theorem number_eq_ok_iff {dflt : ℤ} (mk : ℤ → Change) (hmk : ∀ v, (mk v).entry = ap) :
    (strsuftoll arg dflt >>= fun v =>
        .ok ((mk v).store { g with ddflags := g.ddflags ∪ ap.set })) = .ok g' ↔
      ∃ c, (strsuftoll arg dflt).toOption.map mk = some c ∧ c.entry = ap ∧ g' = c.apply g := by
  simp only [bind_eq_ok, Option.map_eq_some_iff, toOption_eq_some]
  constructor
  · rintro ⟨v, hv, h⟩
    refine ⟨mk v, ⟨v, hv, rfl⟩, hmk v, ?_⟩
    rw [Change.apply, hmk v]
    exact (Except.ok.inj h).symm
  · rintro ⟨_, ⟨v, hv, rfl⟩, hentry, rfl⟩
    refine ⟨v, hv, ?_⟩
    rw [Change.apply, hentry]

/-- The setters for which zero ends the program. -/
theorem positive_eq_ok_iff {dflt : ℤ} (size : ℤ → ℕ) (mk : ℕ → Change)
    (hmk : ∀ n, (mk n).entry = ap) :
    (strsuftoll arg dflt >>= fun v =>
        if size v = 0 then .error Early.terminated
        else .ok ((mk (size v)).store { g with ddflags := g.ddflags ∪ ap.set })) = .ok g' ↔
      ∃ c, ((strsuftoll arg dflt).toOption.bind fun v =>
        if size v = 0 then none else some (mk (size v))) = some c ∧ c.entry = ap ∧
          g' = c.apply g := by
  simp only [bind_eq_ok, Option.bind_eq_some_iff, toOption_eq_some]
  constructor
  · rintro ⟨v, hv, h⟩
    by_cases hzero : size v = 0
    · rw [if_pos hzero] at h
      exact nomatch h
    · rw [if_neg hzero] at h
      refine ⟨mk (size v), ⟨v, hv, if_neg hzero⟩, hmk _, ?_⟩
      rw [Change.apply, hmk]
      exact (Except.ok.inj h).symm
  · rintro ⟨c, ⟨v, hv, h⟩, hentry, rfl⟩
    by_cases hzero : size v = 0
    · rw [if_pos hzero] at h
      exact nomatch h
    · rw [if_neg hzero, Option.some.injEq] at h
      subst h
      refine ⟨v, hv, ?_⟩
      rw [if_neg hzero, Change.apply, hentry]

/-- The setters that store what they are given. -/
theorem store_eq_ok_iff (hc : c.entry = ap) :
    (.ok (c.store { g with ddflags := g.ddflags ∪ ap.set }) : Except Early Globals) = .ok g' ↔
      ∃ c', some c = some c' ∧ c'.entry = ap ∧ g' = c'.apply g := by
  constructor
  · intro h
    refine ⟨c, rfl, hc, ?_⟩
    rw [Change.apply, hc]
    exact (Except.ok.inj h).symm
  · rintro ⟨_, h, hentry, rfl⟩
    rw [← Option.some.inj h, Change.apply, hc]

/-- A setter that succeeds makes its change. -/
theorem run_eq_ok_iff (hap : ap ∈ args) (hno : g.ddflags ∩ ap.noset = ∅) :
    ap.f.run arg { g with ddflags := g.ddflags ∪ ap.set } = .ok g' ↔
      ∃ c, ap.f.change arg = some c ∧ c.entry = ap ∧ g' = c.apply g := by
  -- `ibs` and `obs` find `bs` unset, since their `noset` has it
  have hbs : Flag.bs ∈ ap.noset → Flag.bs ∉ g.ddflags := by
    intro hmem hbs
    have hboth := Finset.mem_inter.2 ⟨hbs, hmem⟩
    rw [hno] at hboth
    exact Finset.notMem_empty _ hboth
  simp only [args, List.mem_cons, List.not_mem_nil, or_false] at hap
  rcases hap with rfl | rfl | rfl | rfl | rfl | rfl | rfl | rfl | rfl | rfl | rfl | rfl
  · exact number_eq_ok_iff (fun v => .bs (toUint64 v)) fun _ => rfl
  · exact number_eq_ok_iff (fun v => .cbs (toUint64 v)) fun _ => rfl
  · simp [Setter.run, fConv, Setter.change]
  · exact positive_eq_ok_iff toUint64 .count fun _ => rfl
  · exact positive_eq_ok_iff toUint .files fun _ => rfl
  · have hunset : Flag.bs ∉ g.ddflags ∪ {Flag.ibs} := by simpa using hbs (by simp)
    show fIbs arg _ = _ ↔ _
    rw [fIbs, if_neg hunset]
    exact number_eq_ok_iff (fun v => .ibs (toUint64 v)) fun _ => rfl
  · exact store_eq_ok_iff (c := .if_ arg) rfl
  · have hunset : Flag.bs ∉ g.ddflags ∪ {Flag.obs} := by simpa using hbs (by simp)
    show fObs arg _ = _ ↔ _
    rw [fObs, if_neg hunset]
    exact number_eq_ok_iff (fun v => .obs (toUint64 v)) fun _ => rfl
  · exact store_eq_ok_iff (c := .of_ arg) rfl
  · refine Iff.trans ?_ (store_eq_ok_iff (c := .progress (arg.head? ≠ some 48)) rfl)
    by_cases h : arg.head? = some 48
    · simp [Setter.run, fProgress, Change.store, h]
    · simp [Setter.run, fProgress, Change.store, h]
  · exact number_eq_ok_iff (fun v => .seek (toUint64 v)) fun _ => rfl
  · exact number_eq_ok_iff (fun v => .skip (toUint64 v)) fun _ => rfl

/-- A change belongs to the entry whose setter makes it. -/
theorem entry_of_change (hap : ap ∈ args) (h : ap.f.change arg = some c) : c.entry = ap := by
  simp only [args, List.mem_cons, List.not_mem_nil, or_false] at hap
  rcases hap with rfl | rfl | rfl | rfl | rfl | rfl | rfl | rfl | rfl | rfl | rfl | rfl
  case inr.inr.inl => exact nomatch h
  case inr.inr.inr.inl | inr.inr.inr.inr.inl =>
    rcases Option.bind_eq_some_iff.1 h with ⟨v, -, hv⟩
    split at hv
    · exact nomatch hv
    · rw [← Option.some.inj hv]
      rfl
  all_goals
    first
    | rw [← Option.some.inj h]; rfl
    | rcases Option.map_eq_some_iff.1 h with ⟨v, -, rfl⟩; rfl

/-- An operand is accepted if it stands for a change that its `noset` allows. -/
theorem operand_eq_ok_iff :
    operand oper g = .ok g' ↔
      ∃ c, change oper = some c ∧ Disjoint g.ddflags c.entry.noset ∧ g' = c.apply g := by
  unfold operand change
  cases oper.dropWhile (· ≠ 61) with
  | nil => simp only [reduceCtorEq, false_and, exists_false]
  | cons _ arg =>
      by_cases harg : arg = []
      · simp only [harg, if_true, reduceCtorEq, false_and, exists_false]
      cases hfind : args.find? (·.name == oper.takeWhile (· ≠ 61)) with
      | none =>
          simp only [harg, hfind, if_false, Option.bind_none, reduceCtorEq, false_and, exists_false]
      | some ap =>
          have hap := List.mem_of_find?_eq_some hfind
          simp only [harg, hfind, if_false, Option.bind_some]
          by_cases hno : g.ddflags ∩ ap.noset = ∅
          · rw [if_pos hno, run_eq_ok_iff hap hno]
            constructor
            · rintro ⟨c, hc, rfl, hg⟩
              exact ⟨c, hc, Finset.disjoint_iff_inter_eq_empty.2 hno, hg⟩
            · rintro ⟨c, hc, -, hg⟩
              exact ⟨c, hc, entry_of_change hap hc, hg⟩
          · rw [if_neg hno]
            constructor
            · intro h
              exact nomatch h
            · rintro ⟨c, hc, hno', -⟩
              rw [entry_of_change hap hc] at hno'
              exact absurd (Finset.disjoint_iff_inter_eq_empty.1 hno') hno

/-! ## The order of the operands -/

@[simp] theorem ddflags_store : (c.store g).ddflags = g.ddflags := by
  cases c <;> rfl

@[simp] theorem ddflags_apply : (c.apply g).ddflags = g.ddflags ∪ c.entry.set := by
  rw [Change.apply, ddflags_store]

/-- `store` does not look at `ddflags`. -/
theorem store_flags (fl : Finset Flag) :
    c.store { g with ddflags := fl } = { c.store g with ddflags := fl } := by
  cases c <;> rfl

/-- Two changes that allow each other set different fields. -/
theorem store_comm (h : Disjoint c.entry.set c'.entry.noset) :
    c.store (c'.store g) = c'.store (c.store g) := by
  cases c <;> cases c' <;>
    first
    | rfl
    | (exfalso; simp [Change.entry] at h; done)
    | simp [Change.store, Bool.or_right_comm]

theorem apply_comm (h : Disjoint c.entry.set c'.entry.noset) :
    c.apply (c'.apply g) = c'.apply (c.apply g) := by
  simp only [Change.apply, store_flags, store_comm h, Finset.union_right_comm g.ddflags c.entry.set]

/-- `set` and `noset` treat two operands the same way in either order. -/
theorem noset_symm (h : Disjoint c.entry.set c'.entry.noset) :
    Disjoint c'.entry.set c.entry.noset := by
  cases c <;> cases c' <;>
    first
    | (exfalso; simp [Change.entry] at h; done)
    | simp [Change.entry]

/-- Two operands that are accepted can be exchanged. -/
theorem operand_swap {g₁ g₂ : Globals} {a b : Bytes} (ha : operand a g = .ok g₁)
    (hb : operand b g₁ = .ok g₂) :
    ∃ g₁', operand b g = .ok g₁' ∧ operand a g₁' = .ok g₂ := by
  rcases operand_eq_ok_iff.1 ha with ⟨c, hc, hno, rfl⟩
  rcases operand_eq_ok_iff.1 hb with ⟨c', hc', hno', rfl⟩
  rw [ddflags_apply, Finset.disjoint_union_left] at hno'
  have hno'' := noset_symm hno'.2
  refine ⟨c'.apply g, operand_eq_ok_iff.2 ⟨c', hc', hno'.1, rfl⟩,
    operand_eq_ok_iff.2 ⟨c, hc, ?_, apply_comm hno''⟩⟩
  rw [ddflags_apply, Finset.disjoint_union_left]
  exact ⟨hno, hno''⟩

/-- Operands that are accepted in one order are accepted in every order, with
the same settings. -/
theorem operands_perm {argv argv' : List Bytes} (hperm : argv.Perm argv')
    (h : operands argv g = .ok g') : operands argv' g = .ok g' :=
  foldlM_perm (fun _ _ _ _ _ ha hb => operand_swap ha hb) hperm h

/-! ## What can be asked for -/

/-- What the operands leave behind: the settings agree with their marks, and
nothing that is marked is a conversion. -/
structure Globals.Marked (g : Globals) : Prop where
  flags : g.ddflags ⊆ {.bs, .cbs, .count, .files, .ibs, .if_, .obs, .of_, .seek, .skip}
  bs : .bs ∈ g.ddflags → g.inDbsz = g.outDbsz ∧ .ibs ∉ g.ddflags ∧ .obs ∉ g.ddflags
  count : .count ∈ g.ddflags ↔ g.cpyCnt ≠ 0
  of_ : .of_ ∈ g.ddflags ↔ g.outName.isSome
  seek : .seek ∉ g.ddflags → g.outOffset = 0

theorem Globals.Marked.initial : ({} : Globals).Marked where
  flags := by simp
  bs := by simp
  count := by simp
  of_ := by simp
  seek := by simp

theorem Globals.Marked.apply (h : g.Marked) (hno : Disjoint g.ddflags c.entry.noset)
    (hcount : ∀ n, c = .count n → n ≠ 0) : (c.apply g).Marked := by
  rcases h with ⟨hflags, hbs, hcnt, hof, hseek⟩
  refine ⟨?_, ?_, ?_, ?_, ?_⟩
  · rw [ddflags_apply, Finset.union_subset_iff]
    refine ⟨hflags, ?_⟩
    cases c <;> simp [Change.entry]
  · cases c <;> simp_all [Change.apply, Change.store, Change.entry]
  · cases c <;> simp_all [Change.apply, Change.store, Change.entry]
  · cases c <;> simp_all [Change.apply, Change.store, Change.entry]
  · cases c <;> simp_all [Change.apply, Change.store, Change.entry]

/-- A count of zero ends the program. -/
theorem change_count_ne {n : ℕ} (h : change oper = some (.count n)) : n ≠ 0 := by
  unfold change at h
  cases hoper : oper.dropWhile (· ≠ 61) with
  | nil => simp only [hoper, reduceCtorEq] at h
  | cons _ arg =>
      simp only [hoper] at h
      split at h
      · exact nomatch h
      rcases Option.bind_eq_some_iff.1 h with ⟨ap, hfind, hap⟩
      have hentry := entry_of_change (List.mem_of_find?_eq_some hfind) hap
      rw [← hentry] at hap
      rcases Option.bind_eq_some_iff.1 hap with ⟨v, -, hv⟩
      split at hv
      · exact nomatch hv
      · injection hv with hv
        injection hv with hv
        rwa [← hv]

theorem Globals.Marked.operands {argv : List Bytes} (h : g.Marked)
    (hok : operands argv g = .ok g') : g'.Marked := by
  refine foldlM_stable Globals.Marked ?_ hok h
  intro g oper t hoper hg
  rcases operand_eq_ok_iff.1 hoper with ⟨c, hc, hno, rfl⟩
  exact hg.apply hno fun n hn => change_count_ne (hn ▸ hc)

/-- Without a conversion `bs` stays on. -/
theorem Globals.Marked.turnOffBs (h : g.Marked) : turnOffBs g = g := by
  have hnone : g.ddflags ∩
      {.block, .lcase, .swab, .ucase, .unblock, .osync, .ascii, .ebcdic, .sparse} = ∅ := by
    refine Finset.disjoint_iff_inter_eq_empty.1 (Finset.disjoint_of_subset_left h.flags ?_)
    simp
  rw [Dd.turnOffBs, hnone]
  simp

/-- The warning that `bs` supersedes `ibs` and `obs` is never given: `noset`
refuses the combination. -/
theorem Globals.Marked.supersedes (h : g.Marked) : supersedes g = false := by
  rw [Dd.supersedes, h.turnOffBs]
  by_cases hbs : Flag.bs ∈ g.ddflags
  · have hsizes := h.bs hbs
    have hnone : g.ddflags ∩ {.ibs, .obs} = ∅ := by
      rw [← Finset.disjoint_iff_inter_eq_empty]
      simp [hsizes.2.1, hsizes.2.2]
    rw [hnone]
    simp
  · simp [hbs]

/-- What the checks behind the loop make of settings without a conversion. -/
theorem Globals.Marked.chooseCfunc (h : g.Marked) :
    chooseCfunc g = .ok g' ↔ .cbs ∉ g.ddflags ∧ g' = { g with cfunc := some .copy } := by
  have hconv : ∀ fl : Finset Flag, Disjoint
      {.bs, .cbs, .count, .files, .ibs, .if_, .obs, .of_, .seek, .skip} fl →
      g.ddflags ∩ fl = ∅ :=
    fun fl hfl =>
      Finset.disjoint_iff_inter_eq_empty.1 (Finset.disjoint_of_subset_left h.flags hfl)
  rw [Dd.chooseCfunc, hconv _ (by simp), hconv _ (by simp)]
  by_cases hcbs : Flag.cbs ∈ g.ddflags
  · simp only [hcbs, ne_eq, not_true_eq_false, if_true, if_false, reduceCtorEq, false_and]
  · simp only [hcbs, ne_eq, not_true_eq_false, not_false_eq_true, if_false, Except.ok.injEq,
      true_and]
    exact eq_comm

/-- `jcl` accepts what its loop accepts, except for `cbs`, and only chooses `def`
behind the loop. -/
theorem jcl_eq_ok_iff {argv : List Bytes} :
    jcl argv = .ok g ↔
      ∃ g₀, operands argv {} = .ok g₀ ∧ .cbs ∉ g₀.ddflags ∧
        g = { g₀ with cfunc := some .copy } := by
  unfold jcl
  rw [bind_eq_ok]
  constructor
  · rintro ⟨g₀, hg₀, h⟩
    have hmarked := Globals.Marked.initial.operands hg₀
    rw [hmarked.turnOffBs] at h
    exact ⟨g₀, hg₀, hmarked.chooseCfunc.1 h⟩
  · rintro ⟨g₀, hg₀, h⟩
    have hmarked := Globals.Marked.initial.operands hg₀
    refine ⟨g₀, hg₀, ?_⟩
    rw [hmarked.turnOffBs]
    exact hmarked.chooseCfunc.2 h

/-- What `jcl` leaves behind. -/
structure Globals.Chosen (g : Globals) : Prop extends g.Marked where
  cfunc : g.cfunc = some .copy

theorem Globals.Chosen.of_jcl {argv : List Bytes} (h : jcl argv = .ok g) : g.Chosen := by
  rcases jcl_eq_ok_iff.1 h with ⟨g₀, hg₀, -, rfl⟩
  have hmarked := Globals.Marked.initial.operands hg₀
  exact ⟨⟨hmarked.flags, hmarked.bs, hmarked.count, hmarked.of_, hmarked.seek⟩, rfl⟩

/-- The order of the operands does not matter to `jcl` once it accepts them. -/
theorem jcl_perm {argv argv' : List Bytes} (hperm : argv.Perm argv') (h : jcl argv = .ok g) :
    jcl argv' = .ok g := by
  rcases jcl_eq_ok_iff.1 h with ⟨g₀, hok, hcbs, hg⟩
  exact jcl_eq_ok_iff.2 ⟨g₀, operands_perm hperm hok, hcbs, hg⟩

/-- Two operands, and the two in the other order. -/
theorem jcl_perm_sample : jcl [ascii "obs=3", ascii "ibs=2"] =
    .ok { ddflags := {.ibs, .obs}, inDbsz := 2, outDbsz := 3, cfunc := some .copy } :=
  jcl_perm (List.Perm.swap (ascii "obs=3") (ascii "ibs=2") []) rfl

/-- Operands that `jcl` accepts ask for no conversion and never for `bs` together
with `ibs` or `obs`, so that behind the loop nothing is turned off, the warning is
not given, and `cfunc` is all that is set. -/
theorem operands_restrained {argv : List Bytes} (h : jcl argv = .ok g) :
    (∃ g₀, operands argv {} = .ok g₀ ∧ turnOffBs g₀ = g₀ ∧ supersedes g₀ = false ∧
        g = { g₀ with cfunc := some .copy }) ∧
      (.bs ∈ g.ddflags → g.inDbsz = g.outDbsz) ∧
      ∀ f, f ∈ g.ddflags →
        f ∈ ({.bs, .count, .files, .ibs, .if_, .obs, .of_, .seek, .skip} : Finset Flag) := by
  rcases jcl_eq_ok_iff.1 h with ⟨g₀, hg₀, hcbs, rfl⟩
  have hmarked := Globals.Marked.initial.operands hg₀
  refine ⟨⟨g₀, hg₀, hmarked.turnOffBs, hmarked.supersedes, rfl⟩,
    fun hbs => (hmarked.bs hbs).1, ?_⟩
  intro f hf
  have hne : f ≠ .cbs := fun hfcbs => hcbs (hfcbs ▸ hf)
  have hmem := hmarked.flags hf
  simp only [Finset.mem_insert, Finset.mem_singleton] at hmem ⊢
  tauto

/-- `if=a bs=2 count=3 seek=1`. -/
def bsGlobals : Globals where
  ddflags := {.if_, .bs, .count, .seek}
  inName := some (ascii "a")
  inDbsz := 2
  outDbsz := 2
  outOffset := 1
  cpyCnt := 3
  cfunc := some .copy

theorem operands_restrained_sample :
    (∃ g₀, operands [ascii "if=a", ascii "bs=2", ascii "count=3", ascii "seek=1"] {} = .ok g₀ ∧
        turnOffBs g₀ = g₀ ∧ supersedes g₀ = false ∧
        bsGlobals = { g₀ with cfunc := some .copy }) ∧
      (.bs ∈ bsGlobals.ddflags → bsGlobals.inDbsz = bsGlobals.outDbsz) ∧
      ∀ f, f ∈ bsGlobals.ddflags →
        f ∈ ({.bs, .count, .files, .ibs, .if_, .obs, .of_, .seek, .skip} : Finset Flag) :=
  operands_restrained
    (show jcl [ascii "if=a", ascii "bs=2", ascii "count=3", ascii "seek=1"] =
      .ok bsGlobals from rfl)

end Su.Dd
