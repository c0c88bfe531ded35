import Mathlib.Data.Int.Basic
import Mathlib.Data.List.TakeWhile
import TestActivity.Su.Io

/-!
# The two command tables

The grandchild of `handle_request` looks a command up before it falls back on
`execv`: `cmd_main` of `toolbox.c` in the table of rewritten tools, and
`directsyscall_main` of `directsyscall.c`, for a SYSCALL_INT request, in the
table of single system calls.

What a tool prints and how it ends is left open (`World.toolMain`), and so is
the answer of the kernel to a system call (`World.sys`).
-/

namespace Su

/-! ## System calls a request can ask for -/

/-- A system call with its arguments. The numbers are what `atoi` made of the
request, in front of the conversion to `mode_t`, `uid_t` or `gid_t`. -/
inductive SysCall where
  | chmod (path : Bytes) (mode : ℤ)
  | chown (path : Bytes) (owner group : ℤ)
  | kill (pid sig : ℤ)
  | mount (source target fstype : Bytes) (flags : ℤ) (data : Bytes)
  | rename (oldpath newpath : Bytes)
  | lstat (path : Bytes)
  | unlink (path : Bytes)
  | rmdir (path : Bytes)
deriving DecidableEq, Repr

/-- How a tool's `main` ends: it returns, it calls `exit`, or there is no exit
status, because a signal ends the process or it does not end. -/
inductive ToolEnd where
  | returned (res : ℤ)
  | exited (status : ℤ)
  | noStatus
deriving DecidableEq, Repr

/-- One run of a tool: what it writes to stdout, as far as it is read, and its
end. -/
structure ToolRun where
  output : Bytes
  ended : ToolEnd
deriving DecidableEq, Repr

/-- One run of a program started by `execv`: its stdout, as far as it is read,
and its exit status, if there is one. -/
structure ProgramRun where
  output : Bytes
  status : Option ℕ
deriving DecidableEq, Repr

/-- The tools of `tools.h`. -/
inductive Tool where
  | mv | chmod | chown | rm | mount | kill | dd | cat | ls | ps | chattr
deriving DecidableEq, Repr

/-- What the device does with a command. -/
structure World where
  /-- the return value of a system call -/
  sys : SysCall → ℤ
  /-- `S_ISDIR` of a successful `lstat` -/
  isDir : Bytes → Bool
  /-- a tool's run on its `argv` -/
  toolMain : Tool → List Bytes → ToolRun
  /-- `-100` stands for "no such tool" and is returned by none of them -/
  toolMain_ne : ∀ t argv, (toolMain t argv).ended ≠ .returned (-100)
  /-- the program `execv` starts on its `argv` and the `putenv` entries
  (`none`: `execv` fails) -/
  execv : List Bytes → List Bytes → Option ProgramRun

/-! ## `cmd_main` -/

/-- `tools[]`. -/
def tools : List (Bytes × Tool) :=
  [(ascii "mv", .mv), (ascii "chmod", .chmod), (ascii "chown", .chown), (ascii "rm", .rm),
    (ascii "mount", .mount), (ascii "kill", .kill), (ascii "dd", .dd), (ascii "cat", .cat),
    (ascii "ls", .ls), (ascii "ps", .ps), (ascii "chattr", .chattr)]

/-- The part of a path behind its last `/`. -/
def baseName (path : Bytes) : Bytes := (path.reverse.takeWhile (· ≠ 47)).reverse

/-- The name that is looked up and the `argv` the tool gets: `@name` as the
first argument names the tool, otherwise the command does. -/
def toolName : List Bytes → Bytes × List Bytes
  | _ :: (64 :: name) :: rest => (name, (64 :: name) :: rest)
  | cmd :: rest => (baseName cmd, cmd :: rest)
  | [] => ([], [])

/-- `cmd_main`: `-100` when the name is not in the table. -/
def cmdMain (w : World) (argv : List Bytes) : ToolRun :=
  let (name, argv') := toolName argv
  match tools.find? (·.1 == name) with
  | some (_, t) => w.toolMain t argv'
  -- the caller goes on with `execv`
  | none => ⟨[], .returned (-100)⟩

/-! ## `directsyscall_main` -/

/-- `isspace`. -/
def isSpace (b : UInt8) : Bool := b == 32 || (9 ≤ b && b ≤ 13)

/-- The value of the digits at the head of a string. -/
def digits (s : Bytes) : ℤ :=
  (s.takeWhile fun b => 48 ≤ b && b ≤ 57).foldl (fun n b => 10 * n + (b.toNat - 48)) 0

/-- `atoi`, `atol`: both are a 32-bit `strtol`, which saturates. -/
def atoi (s : Bytes) : ℤ :=
  let v := match s.dropWhile isSpace with
    | 45 :: ds => - digits ds
    | 43 :: ds => digits ds
    | ds => digits ds
  max (-2147483648) (min 2147483647 v)

/-- The system calls made, in order, and the return value. -/
structure DirectRun where
  calls : List SysCall
  res : ℤ
deriving DecidableEq, Repr

/-- One system call whose return value is returned. -/
def DirectRun.call (w : World) (c : SysCall) : DirectRun := ⟨[c], w.sys c⟩

/-- Too few arguments. -/
def DirectRun.badArgs : DirectRun := ⟨[], -1⟩

/-- `do_chmod`. -/
def doChmod (w : World) : List Bytes → DirectRun
  | _ :: path :: mode :: _ => .call w (.chmod path (atoi mode))
  | _ => .badArgs

/-- `do_rm`: does not remove a directory that is not empty. -/
def doRm (w : World) : List Bytes → DirectRun
  | _ :: path :: _ =>
      if w.sys (.lstat path) < 0 then ⟨[.lstat path], -1⟩
      else
        let c := if w.isDir path then .rmdir path else .unlink path
        ⟨[.lstat path, c], w.sys c⟩
  | _ => .badArgs

/-- `do_chown`. -/
def doChown (w : World) : List Bytes → DirectRun
  | _ :: path :: owner :: group :: _ => .call w (.chown path (atoi owner) (atoi group))
  | _ => .badArgs

/-- `do_kill`. -/
def doKill (w : World) : List Bytes → DirectRun
  | _ :: pid :: sig :: _ => .call w (.kill (atoi pid) (atoi sig))
  | _ => .badArgs

/-- `do_mv`. -/
def doMv (w : World) : List Bytes → DirectRun
  | _ :: oldpath :: newpath :: _ => .call w (.rename oldpath newpath)
  | _ => .badArgs

/-- `do_mount`. -/
def doMount (w : World) : List Bytes → DirectRun
  | _ :: source :: target :: fstype :: flags :: data :: _ =>
      .call w (.mount source target fstype (atoi flags) data)
  | _ => .badArgs

/-- `indices[]`. -/
def indices : List (Bytes × (World → List Bytes → DirectRun)) :=
  [(ascii "chmod", doChmod), (ascii "chown", doChown), (ascii "kill", doKill),
    (ascii "mount", doMount), (ascii "mv", doMv), (ascii "rm", doRm)]

/-- `find_index`: `strncmp` over the length of the table entry, so an entry
matches every name that starts with it. -/
def findIndex (icmd : Bytes) : Option (World → List Bytes → DirectRun) :=
  (indices.find? fun e => e.1.isPrefixOf icmd).map (·.2)

/-- `directsyscall_main`. -/
def directsyscallMain (w : World) (argv : List Bytes) : DirectRun :=
  match argv with
  | [] => .badArgs
  | icmd :: _ =>
      match findIndex icmd with
      | none => .badArgs
      | some f => f w argv

/-! ## What a name dispatches to -/

/-- The names of the system call table. -/
def syscallNames : List Bytes := indices.map (·.1)

/-- The entry `find_index` finds, by its name. -/
def syscallEntry (icmd : Bytes) : Option Bytes :=
  (indices.find? fun e => e.1.isPrefixOf icmd).map (·.1)

/-- The entry `cmd_main` finds, by its name. -/
def toolEntry (argv : List Bytes) : Option Bytes :=
  (tools.find? (·.1 == (toolName argv).1)).map (·.1)

/-- `directsyscall_main` does what the name says: a name of the table makes its
own system call, every other one returns -1 without any, and on names without
a slash `cmd_main` chooses the entry of the same name. -/
structure ExactDispatch (s : Bytes) : Prop where
  named : ∀ e ∈ indices, e.1 = s → ∀ w args,
    directsyscallMain w (s :: args) = e.2 w (s :: args)
  other : s ∉ syscallNames → ∀ w args, directsyscallMain w (s :: args) = ⟨[], -1⟩
  agrees : 47 ∉ s → ∀ args : List Bytes, (∀ arg rest, args = arg :: rest → arg.head? ≠ some 64) →
    ∀ name ∈ syscallNames, syscallEntry s = some name ↔ toolEntry (s :: args) = some name

theorem baseName_eq_self {s : Bytes} (h : 47 ∉ s) : baseName s = s := by
  unfold baseName
  rw [List.takeWhile_eq_self_iff.mpr, List.reverse_reverse]
  intro b hb
  rw [List.mem_reverse] at hb
  simpa using fun heq : b = 47 => h (heq ▸ hb)

/-- Without an `@` argument the command is the name. -/
theorem toolName_cons {s : Bytes} {args : List Bytes}
    (h : ∀ arg rest, args = arg :: rest → arg.head? ≠ some 64) :
    (toolName (s :: args)).1 = baseName s := by
  cases args with
  | nil => rfl
  | cons arg rest =>
      have hhead := h arg rest rfl
      unfold toolName
      split
      · next heq =>
          rw [List.cons.injEq, List.cons.injEq] at heq
          rw [heq.2.1] at hhead
          simp at hhead
      · next heq =>
          rw [List.cons.injEq] at heq
          rw [heq.1]
      · next heq => simp at heq

/-- The device on which every system call succeeds. -/
def World.quiet : World where
  sys := fun _ => 0
  isDir := fun _ => false
  toolMain := fun _ _ => ⟨[], .returned 0⟩
  toolMain_ne := fun _ _ => by simp
  execv := fun _ _ => none

/-- With enough arguments every entry of the table makes a system call. -/
theorem calls_ne_nil (s arg : Bytes) :
    ∀ e ∈ indices, (e.2 .quiet [s, arg, arg, arg, arg, arg]).calls ≠ [] := by
  intro e he
  simp only [indices, List.mem_cons, List.not_mem_nil, or_false] at he
  rcases he with rfl | rfl | rfl | rfl | rfl | rfl <;>
    simp [doChmod, doChown, doKill, doMount, doMv, doRm, DirectRun.call, World.quiet]

/-- A name that only begins like an entry is taken for it. -/
theorem directsyscallMain_of_prefix (w : World) (args : List Bytes) {s : Bytes}
    (h : ∃ name ∈ syscallNames, name <+: s) :
    ∃ e ∈ indices, e.1 <+: s ∧ directsyscallMain w (s :: args) = e.2 w (s :: args) := by
  rcases h with ⟨name, hname, hprefix⟩
  rcases List.mem_map.mp hname with ⟨e, he, rfl⟩
  have hsome : (indices.find? fun e => e.1.isPrefixOf s).isSome := by
    rw [List.find?_isSome]
    exact ⟨e, he, List.isPrefixOf_iff_prefix.mpr hprefix⟩
  rcases Option.isSome_iff_exists.mp hsome with ⟨f, hf⟩
  refine ⟨f, List.mem_of_find?_eq_some hf, ?_, ?_⟩
  · simpa using List.find?_some hf
  · simp [directsyscallMain, findIndex, hf]

theorem syscallEntry_eq_none {s : Bytes} (h : ∀ name ∈ syscallNames, ¬ name <+: s) :
    (indices.find? fun e => e.1.isPrefixOf s) = none := by
  rw [List.find?_eq_none]
  intro e he hprefix
  exact h e.1 (List.mem_map_of_mem he) (List.isPrefixOf_iff_prefix.mp hprefix)

/-- A dispatch by exact names takes no other name that begins like an entry. -/
theorem ExactDispatch.mem_or {s : Bytes} (h : ExactDispatch s) :
    s ∈ syscallNames ∨ ∀ name ∈ syscallNames, ¬ name <+: s := by
  by_contra hno
  rw [not_or] at hno
  rcases hno with ⟨hnot, hprefix⟩
  push Not at hprefix
  rcases directsyscallMain_of_prefix .quiet [s, s, s, s, s] hprefix with
    ⟨e, he, _, hrun⟩
  rw [h.other hnot] at hrun
  exact calls_ne_nil s s e he (by rw [← hrun])

/-- No entry begins like another, so the names of the table are found. -/
theorem ExactDispatch.of_mem {s : Bytes} (h : s ∈ syscallNames) : ExactDispatch s where
  named := by
    intro e he heq w args
    simp only [indices, List.mem_cons, List.not_mem_nil, or_false] at he
    rcases he with rfl | rfl | rfl | rfl | rfl | rfl <;>
    · rw [← heq]
      rfl
  other := fun hnot => absurd h hnot
  agrees := by
    intro hslash args hargs name hname
    unfold toolEntry
    rw [toolName_cons hargs, baseName_eq_self hslash]
    have hsame : ∀ s ∈ syscallNames, syscallEntry s = some s ∧
        (tools.find? (·.1 == s)).map (·.1) = some s := by decide
    rw [(hsame s h).1, (hsame s h).2]

/-- Nothing is done for the others, by either table of names. -/
theorem ExactDispatch.of_unlisted {s : Bytes} (h : ∀ name ∈ syscallNames, ¬ name <+: s) :
    ExactDispatch s where
  named := by
    intro e he heq
    exact absurd (heq ▸ List.prefix_refl e.1) (h e.1 (List.mem_map_of_mem he))
  other := by
    intro _ w args
    simp [directsyscallMain, findIndex, syscallEntry_eq_none h, DirectRun.badArgs]
  agrees := by
    intro hslash args hargs name hname
    unfold toolEntry syscallEntry
    rw [toolName_cons hargs, baseName_eq_self hslash, syscallEntry_eq_none h]
    constructor
    · intro hnone
      simp at hnone
    · intro hsome
      rcases Option.map_eq_some_iff.mp hsome with ⟨e, he, rfl⟩
      have hfound : e.1 = s := by simpa using List.find?_some he
      exact absurd (hfound ▸ List.prefix_refl e.1) (h e.1 hname)

/-- The names that are dispatched exactly: those of the table, and those that
begin like none of them. -/
theorem exactDispatch_iff (s : Bytes) :
    ExactDispatch s ↔ s ∈ syscallNames ∨ ∀ name ∈ syscallNames, ¬ name <+: s := by
  constructor
  · intro h
    exact h.mem_or
  · rintro (hmem | hnone)
    · exact .of_mem hmem
    · exact .of_unlisted hnone

/-- `rmdir` removes what `rm` would. -/
theorem not_exactDispatch_rmdir : ¬ ExactDispatch (ascii "rmdir") := by
  intro h
  rcases h.mem_or with hmem | hnone
  · exact absurd hmem (by decide)
  · exact hnone (ascii "rm") (by decide) (by decide)

end Su
