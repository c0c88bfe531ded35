import Mathlib.Data.Finset.Insert
import TestActivity.Lib.Descriptors
import TestActivity.Su.Jar
import TestActivity.Su.Toolbox

/-!
# `_system`, `_system2`, and what `checksignature` leaves behind

The verifier is started by `_system` and, if its exit status is not 100, once
more by `_system2`, which reads what it prints. Both run in the server's main
process and change what belongs to the whole process: the signal mask, the
disposition of SIGPIPE, the environment, the descriptors. `checksignatureIn` is
`checksignature` together with these effects.

* `checksignatureIn_value`: the effects do not change the answer.
* `checksignature_frame_iff`: when the process is left as it was found. The
  environment is not once a `putenv` has succeeded, in this call or in an earlier
  one: `classpath` lies in the dead frame, and nothing takes the pointer out.

The children, which go on to `execve`, are no part of this process.
-/

namespace Su

open Descriptors

/-! ## What belongs to the whole process -/

/-- `SIGCHLD`. -/
def sigchld : ℕ := 17

/-- What a signal does when it arrives. -/
inductive Disposition where
  | default
  | ignore
  | handled
deriving DecidableEq, Repr

/-- Where the string behind a pointer of `environ` lies. -/
inductive Storage where
  /-- in the stack frame of a `checksignature`, the running one or an earlier one -/
  | frame
  | lasting
deriving DecidableEq, Repr

/-- A pointer of `environ`: the string, and where it lies. -/
structure EnvString where
  text : Bytes
  storage : Storage
deriving DecidableEq, Repr

/-- The part of the process state the code changes. -/
structure Proc where
  mask : Finset ℕ
  /-- the disposition of SIGPIPE -/
  pipe : Disposition
  environ : List EnvString
  fds : Table

namespace Proc

variable (p : Proc)

/-- `sigprocmask(SIG_BLOCK,..)` with SIGCHLD. -/
def block : Proc := { p with mask := insert sigchld p.mask }

/-- `sigprocmask(SIG_UNBLOCK,..)` with SIGCHLD. It is called with a valid set,
so it does not fail. -/
def unblock : Proc := { p with mask := p.mask.erase sigchld }

/-- `close(fd)`. -/
def close (fd : ℕ) : Proc := { p with fds := p.fds.close fd }

/-- `signal(SIGPIPE,SIG_IGN)`. -/
def ignorePipe : Proc := { p with pipe := .ignore }

/-- Two strings of `environ` set the same variable. -/
def sameName (s t : Bytes) : Bool :=
  s.takeWhile (· ≠ 61) == t.takeWhile (· ≠ 61)

/-- `putenv(string)`: the pointer itself enters `environ`, in the place of an
earlier one for the same name. -/
def putenv (ok : Bool) (e : EnvString) : Proc :=
  if ok then { p with environ := e :: p.environ.filter fun f => !sameName f.text e.text } else p

end Proc

/-! ## `_system` -/

/-- The outcomes of the calls in `_system`. -/
structure SystemRun where
  /-- `sigprocmask(SIG_BLOCK,..)` succeeds -/
  blockOk : Bool
  forkOk : Bool
  /-- the status `waitpid` stores; `none` if it fails -/
  wait : Option ℤ

/-- `_system`, in the parent. -/
def system (r : SystemRun) (p : Proc) : ℤ × Proc :=
  if !r.blockOk then (-1, p)
  else
    let p := p.block
    if !r.forkOk then (-1, p)
    else
      -- `status` is still -1 if `waitpid` has failed
      (r.wait.getD (-1), p.unblock)

/-- What a run of `_system` returns. -/
def SystemRun.status (r : SystemRun) : ℤ :=
  if !r.blockOk then -1 else if !r.forkOk then -1 else r.wait.getD (-1)

@[simp] theorem system_fst (r : SystemRun) (p : Proc) : (system r p).1 = r.status := by
  unfold system SystemRun.status
  split_ifs <;> rfl

/-! ## `_system2` -/

/-- The outcomes of the calls in `_system2`. -/
structure System2Run where
  /-- `sigprocmask(SIG_BLOCK,..)` succeeds -/
  blockOk : Bool
  socketpairOk : Bool
  forkOk : Bool
  /-- the `k`-th `select` finds `sockfd[0]` readable -/
  selectReady : ℕ → Bool
  /-- what `readx` returns, of at most 32 bytes -/
  read : ReadResult

/-- `while(k < 3)`: one of three `select` calls finds something to read. -/
def System2Run.selected (r : System2Run) : Bool := (List.range 3).any r.selectReady

/-- `if(len>0) status = atoi(result)`. -/
def printedStatus : ReadResult → ℤ
  | .data (b :: bs) => atoi (b :: bs)
  | _ => -1

/-- `_system2`, in the parent. -/
def system2 (r : System2Run) (p : Proc) : ℤ × Proc :=
  if !r.blockOk then (-1, p)
  else
    let p := p.block
    -- SIGCHLD stays blocked
    if !r.socketpairOk then (-1, p)
    else
      let (sockfd, fds) := p.fds.allocPair
      let p := { p with fds := fds }.ignorePipe
      if !r.forkOk then (-1, ((p.close sockfd.1).close sockfd.2).unblock)
      else
        let p := p.close sockfd.2
        if !r.selected then (-1, (p.close sockfd.1).unblock)
        else (printedStatus r.read, (p.close sockfd.1).unblock)

/-- What a run of `_system2` returns. -/
def System2Run.status (r : System2Run) : ℤ :=
  if !r.blockOk then -1
  else if !r.socketpairOk then -1
  else if !r.forkOk then -1
  else if !r.selected then -1
  else printedStatus r.read

@[simp] theorem system2_fst (r : System2Run) (p : Proc) : (system2 r p).1 = r.status := by
  unfold system2 System2Run.status
  split_ifs <;> rfl

/-! ## `checksignature` -/

/-- The descriptors behind `validatejar`: a failed `open` leads to `close(-1)`,
which closes nothing. -/
def validatejarFds (xdata : Bytes) (file : Option Bytes) (ops : FileOps) (t : Table) : Table :=
  match file with
  | none => t
  | some bs =>
      if !ops.statOk then t
      else if bs.length * 2 ≠ xdata.length then t
      else if !ops.openReadOk then t
      else
        let (fd, t) := t.alloc
        t.close fd

/-- The descriptors behind `extractjar`. -/
def extractjarFds (ops : FileOps) (t : Table) : Table :=
  if !ops.openWriteOk then t
  else
    let (fd, t) := t.alloc
    t.close fd

/-- The descriptors when `checksignature` is about to start the verifier. -/
def prepareJarFds (xdata : Bytes) (file : Option Bytes) (ops : FileOps) (t : Table) : Table :=
  let t := validatejarFds xdata file ops t
  if validatejar xdata file ops then t else extractjarFds ops t

/-- The outcomes of the calls in `checksignature`. -/
structure CheckRun where
  ops : FileOps
  /-- `putenv(classpath)` succeeds -/
  putenvOk : Bool
  first : SystemRun
  second : System2Run

/-- `snprintf(classpath,256,"CLASSPATH=%s",jar_path)`, in the frame. -/
def classpath (jarPath : Bytes) : EnvString :=
  ⟨(ascii "CLASSPATH=" ++ jarPath).take 255, .frame⟩

/-- `if(status!=-1) status = WEXITSTATUS(status)`. -/
def exitOf (status : ℤ) : ℤ := if status ≠ -1 then wexitstatus status else -1

/-- `checksignature`: the file and the answer, and the process it leaves. -/
def checksignatureIn (xdata jarPath : Bytes) (file : Option Bytes) (r : CheckRun) (p : Proc) :
    (Option Bytes × ℤ) × Proc :=
  let (file', started) := prepareJar xdata file r.ops
  let p := { p with fds := prepareJarFds xdata file r.ops p.fds }
  if !started then ((file', -1), p)
  else
    let p := p.putenv r.putenvOk (classpath jarPath)
    let (status, p) := system r.first p
    if exitOf status = 100 then ((file', 0), p)
    else
      let (status, p) := system2 r.second p
      ((file', if status = 100 then 0 else -1), p)

/-- The answer is that of `checksignature`, for a verifier that ends as the two
runs do. -/
theorem checksignatureIn_value (xdata jarPath : Bytes) (file : Option Bytes) (r : CheckRun)
    (p : Proc) :
    (checksignatureIn xdata jarPath file r p).1 =
      checksignature xdata file r.ops ⟨fun _ => r.first.status, fun _ => r.second.status⟩ := by
  unfold checksignatureIn checksignature
  cases hprep : prepareJar xdata file r.ops with
  | mk file' started =>
      cases started with
      | false => rfl
      | true =>
          simp only [Bool.not_true, Bool.false_eq_true, if_false, exitOf, system_fst, system2_fst]
          by_cases hrun : r.first.status = -1
          · simp [hrun]
          · by_cases hexit : wexitstatus r.first.status = 100
            · simp [hrun, hexit]
            · simp [hrun, hexit]

/-! ## The descriptors -/

@[simp] theorem validatejarFds_eq (xdata : Bytes) (file : Option Bytes) (ops : FileOps)
    (t : Table) : validatejarFds xdata file ops t = t := by
  unfold validatejarFds
  cases file with
  | none => rfl
  | some bs =>
      dsimp only
      split_ifs
      · rfl
      · rfl
      · rfl
      · exact t.close_alloc

@[simp] theorem extractjarFds_eq (ops : FileOps) (t : Table) : extractjarFds ops t = t := by
  unfold extractjarFds
  split_ifs
  · rfl
  · exact t.close_alloc

@[simp] theorem prepareJarFds_eq (xdata : Bytes) (file : Option Bytes) (ops : FileOps) (t : Table) :
    prepareJarFds xdata file ops t = t := by
  simp [prepareJarFds]

@[simp] theorem system_fds (r : SystemRun) (p : Proc) : (system r p).2.fds = p.fds := by
  unfold system
  split_ifs <;> rfl

/-- Both ends of the socket pair are closed on every path behind it. -/
@[simp] theorem system2_fds (r : System2Run) (p : Proc) : (system2 r p).2.fds = p.fds := by
  unfold system2
  split_ifs
  · rfl
  · rfl
  · exact p.fds.close_close_allocPair'
  · exact p.fds.close_close_allocPair
  · exact p.fds.close_close_allocPair

@[simp] theorem fds_putenv (p : Proc) (ok : Bool) (e : EnvString) :
    (p.putenv ok e).fds = p.fds := by
  unfold Proc.putenv
  split_ifs <;> rfl

/-- `checksignature` leaves the descriptors as it found them. -/
@[simp] theorem checksignatureIn_fds (xdata jarPath : Bytes) (file : Option Bytes) (r : CheckRun)
    (p : Proc) : (checksignatureIn xdata jarPath file r p).2.fds = p.fds := by
  unfold checksignatureIn
  dsimp only
  split_ifs <;> simp

/-! ## The signal mask -/

/-- The last `sigprocmask` call of a run, if there is one. -/
inductive MaskCall where
  | none
  | block
  | unblock
deriving DecidableEq, Repr

namespace MaskCall

/-- What it makes of a mask. -/
def on : MaskCall → Finset ℕ → Finset ℕ
  | .none, mask => mask
  | .block, mask => insert sigchld mask
  | .unblock, mask => mask.erase sigchld

/-- It changes nothing. -/
def Keeps : MaskCall → Finset ℕ → Prop
  | .none, _ => True
  | .block, mask => sigchld ∈ mask
  | .unblock, mask => sigchld ∉ mask

/-- The last call of two runs in a row. -/
def andThen : MaskCall → MaskCall → MaskCall
  | call, .none => call
  | _, call => call

theorem on_eq_self_iff (call : MaskCall) (mask : Finset ℕ) :
    call.on mask = mask ↔ call.Keeps mask := by
  cases call with
  | none => simp [on, Keeps]
  | block => exact Finset.insert_eq_self
  | unblock => exact Finset.erase_eq_self

/-- Only the last call counts. -/
theorem on_andThen (call call' : MaskCall) (mask : Finset ℕ) :
    (call.andThen call').on mask = call'.on (call.on mask) := by
  cases call' with
  | none => rfl
  | block =>
      cases call with
      | none => rfl
      | block => exact (Finset.insert_idem sigchld mask).symm
      | unblock => ext n; simp [andThen, on]; tauto
  | unblock =>
      cases call with
      | none => rfl
      | block => exact (Finset.erase_insert_eq_erase mask sigchld).symm
      | unblock => ext n; simp [andThen, on]

end MaskCall

/-- `_system` unblocks SIGCHLD, unless its `fork` fails. -/
def SystemRun.maskCall (r : SystemRun) : MaskCall :=
  if !r.blockOk then .none else if !r.forkOk then .block else .unblock

/-- `_system2` unblocks it, unless its `socketpair` fails. -/
def System2Run.maskCall (r : System2Run) : MaskCall :=
  if !r.blockOk then .none else if !r.socketpairOk then .block else .unblock

theorem system_mask (r : SystemRun) (p : Proc) :
    (system r p).2.mask = r.maskCall.on p.mask := by
  unfold system SystemRun.maskCall
  split_ifs
  · rfl
  · rfl
  · exact Finset.erase_insert_eq_erase p.mask sigchld

theorem system2_mask (r : System2Run) (p : Proc) :
    (system2 r p).2.mask = r.maskCall.on p.mask := by
  unfold system2 System2Run.maskCall
  split_ifs
  · rfl
  · rfl
  all_goals exact Finset.erase_insert_eq_erase p.mask sigchld

/-! ## SIGPIPE and the environment -/

@[simp] theorem system_pipe (r : SystemRun) (p : Proc) : (system r p).2.pipe = p.pipe := by
  unfold system
  split_ifs <;> rfl

@[simp] theorem system_environ (r : SystemRun) (p : Proc) :
    (system r p).2.environ = p.environ := by
  unfold system
  split_ifs <;> rfl

/-- Behind its socket pair `_system2` ignores SIGPIPE, for good. -/
theorem system2_pipe (r : System2Run) (p : Proc) :
    (system2 r p).2.pipe = if r.blockOk ∧ r.socketpairOk then .ignore else p.pipe := by
  unfold system2
  cases hblock : r.blockOk with
  | false => simp
  | true =>
      cases hpair : r.socketpairOk with
      | false => simp [Proc.block]
      | true =>
          simp only [Bool.not_true, Bool.false_eq_true, if_false, and_self, if_true]
          split_ifs <;> rfl

@[simp] theorem system2_environ (r : System2Run) (p : Proc) :
    (system2 r p).2.environ = p.environ := by
  unfold system2
  split_ifs <;> rfl

@[simp] theorem putenv_mask (p : Proc) (ok : Bool) (e : EnvString) :
    (p.putenv ok e).mask = p.mask := by
  unfold Proc.putenv
  split_ifs <;> rfl

@[simp] theorem putenv_pipe (p : Proc) (ok : Bool) (e : EnvString) :
    (p.putenv ok e).pipe = p.pipe := by
  unfold Proc.putenv
  split_ifs <;> rfl

/-! ## The frame of `checksignature` -/

/-- No pointer of `environ` leads into the frame of a `checksignature`. The first
call of a process finds it so. -/
def Proc.NoFrame (p : Proc) : Prop := ∀ e ∈ p.environ, e.storage ≠ .frame

/-- The process is left as it was found: the same mask, the same disposition of
SIGPIPE, and no pointer into the frame that is gone. -/
structure Restored (p p' : Proc) : Prop where
  mask : p'.mask = p.mask
  pipe : p'.pipe = p.pipe
  environ : p'.NoFrame

namespace CheckRun

variable (r : CheckRun)

/-- The last `sigprocmask` call behind the start of the verifier. -/
def maskCall : MaskCall :=
  if exitOf r.first.status = 100 then r.first.maskCall
  else r.first.maskCall.andThen r.second.maskCall

/-- The verifier does not exit with 100, and `_system2` gets its socket pair. -/
def IgnoresPipe : Prop :=
  exitOf r.first.status ≠ 100 ∧ r.second.blockOk = true ∧ r.second.socketpairOk = true

end CheckRun

/-- The jar at `jar_path` is not the right one and cannot be replaced. -/
def JarUnavailable (jar : Bytes) (file : Option Bytes) (ops : FileOps) : Prop :=
  ¬ Validated jar file ops ∧ (ops.openWriteOk = false ∨ ops.chmodOk = false)

theorem prepareJar_started_iff (jar : Bytes) (file : Option Bytes) (ops : FileOps) :
    (prepareJar (encodeText jar) file ops).2 = true ↔ ¬ JarUnavailable jar file ops := by
  have hiff : ∀ content, prepareJar (encodeText jar) file ops = (content, true) ↔
      (Validated jar file ops ∧ content = some jar) ∨
        (¬ Validated jar file ops ∧ ops.openWriteOk = true ∧ ops.chmodOk = true ∧
          content = some (kept ops.writeOk 0 jar)) := fun _ => prepareJar_eq_iff
  constructor
  · intro h hun
    rcases (hiff _).1 (Prod.ext rfl h) with ⟨hval, -⟩ | ⟨-, hopen, hchmod, -⟩
    · exact hun.1 hval
    · rcases hun.2 with h' | h'
      · rw [h'] at hopen
        cases hopen
      · rw [h'] at hchmod
        cases hchmod
  · intro h
    by_cases hval : Validated jar file ops
    · rw [(hiff (some jar)).2 (Or.inl ⟨hval, rfl⟩)]
    · unfold JarUnavailable at h
      have hcalls : ops.openWriteOk = true ∧ ops.chmodOk = true := by
        simpa [hval] using h
      rw [(hiff _).2 (Or.inr ⟨hval, hcalls.1, hcalls.2, rfl⟩)]

/-- The process when the verifier is not started. -/
theorem checksignatureIn_of_unavailable {jar : Bytes} {file : Option Bytes} {r : CheckRun}
    (h : JarUnavailable jar file r.ops) (jarPath : Bytes) (p : Proc) :
    (checksignatureIn (encodeText jar) jarPath file r p).2 = p := by
  have hstarted : (prepareJar (encodeText jar) file r.ops).2 = false := by
    rw [← Bool.not_eq_true, prepareJar_started_iff]
    exact not_not.2 h
  unfold checksignatureIn
  simp [hstarted]

/-- The process when it is. -/
theorem checksignatureIn_of_started {jar : Bytes} {file : Option Bytes} {r : CheckRun}
    (h : ¬ JarUnavailable jar file r.ops) (jarPath : Bytes) (p : Proc) :
    let p' := (checksignatureIn (encodeText jar) jarPath file r p).2
    p'.mask = r.maskCall.on p.mask ∧
      p'.environ = (p.putenv r.putenvOk (classpath jarPath)).environ ∧
      (p'.pipe = p.pipe ↔ (r.IgnoresPipe → p.pipe = .ignore)) := by
  have hstarted := (prepareJar_started_iff jar file r.ops).2 h
  unfold checksignatureIn CheckRun.maskCall CheckRun.IgnoresPipe
  simp only [hstarted, Bool.not_true, Bool.false_eq_true, if_false, system_fst, prepareJarFds_eq]
  by_cases hexit : exitOf r.first.status = 100
  · -- the first run answers: `_system2` is not called
    simp [hexit, system_mask]
  · simp only [hexit, if_false, system2_mask, system_mask, putenv_mask, system2_environ,
      system_environ, MaskCall.on_andThen, system2_pipe, system_pipe, putenv_pipe, true_and]
    by_cases hpair : r.second.blockOk = true ∧ r.second.socketpairOk = true
    · rw [if_pos hpair]
      constructor
      · intro h _
        exact h.symm
      · intro h
        exact (h ⟨hexit, hpair⟩).symm
    · simp [hpair]

/-- A `putenv` that succeeds stores the pointer, whatever was there; one that fails
leaves the pointers of earlier calls. -/
theorem noFrame_putenv_iff (p : Proc) (ok : Bool) (jarPath : Bytes) :
    (p.putenv ok (classpath jarPath)).NoFrame ↔ p.NoFrame ∧ ok = false := by
  unfold Proc.putenv
  cases ok with
  | false => simp
  | true =>
      refine iff_of_false ?_ (by simp)
      intro hall
      exact hall (classpath jarPath) (List.mem_cons_self ..) rfl

/-- `checksignature` leaves the process as it found it exactly if no pointer of an
earlier call is in the environment, and the jar cannot be put in place, so that
no verifier is started, or `putenv` fails, the last `sigprocmask` call happens to
agree with the mask on entry, and SIGPIPE is left alone or was ignored before. -/
theorem checksignature_frame_iff (jar jarPath : Bytes) (file : Option Bytes) (r : CheckRun)
    (p : Proc) :
    Restored p (checksignatureIn (encodeText jar) jarPath file r p).2 ↔
      p.NoFrame ∧
        (JarUnavailable jar file r.ops ∨
          (r.putenvOk = false ∧ r.maskCall.Keeps p.mask ∧
            (r.IgnoresPipe → p.pipe = .ignore))) := by
  by_cases hjar : JarUnavailable jar file r.ops
  · rw [checksignatureIn_of_unavailable hjar]
    constructor
    · intro h
      exact ⟨h.environ, Or.inl hjar⟩
    · intro h
      exact ⟨rfl, rfl, h.1⟩
  · obtain ⟨hmask, henv, hpipe⟩ := checksignatureIn_of_started hjar jarPath p
    have hfree := noFrame_putenv_iff p r.putenvOk jarPath
    constructor
    · intro h
      -- the own `putenv` must have failed, for its string is in the frame
      have hput : p.NoFrame ∧ r.putenvOk = false := by
        rw [← hfree, Proc.NoFrame, ← henv]
        exact h.environ
      refine ⟨hput.1, Or.inr ⟨hput.2, ?_, hpipe.1 h.pipe⟩⟩
      rw [← MaskCall.on_eq_self_iff, ← hmask]
      exact h.mask
    · rintro ⟨hlasting, h⟩
      rcases h with h | ⟨hput, hkeeps, hignore⟩
      · exact absurd h hjar
      · constructor
        · rw [hmask, MaskCall.on_eq_self_iff]
          exact hkeeps
        · exact hpipe.2 hignore
        · rw [Proc.NoFrame, henv]
          exact hfree.2 ⟨hlasting, hput⟩

/-- Every call succeeds; the verifier exits with 0 and prints nothing. -/
def silentVerifier : CheckRun where
  ops := ⟨true, true, fun _ => true, true, true, fun _ => true, true, true⟩
  putenvOk := true
  first := ⟨true, true, some 0⟩
  second := ⟨true, true, true, fun _ => true, .eof⟩

/-- The server with no signal blocked and its handler for SIGPIPE. -/
def freshCaller : Proc where
  mask := ∅
  pipe := .handled
  environ := []
  fds := ⟨{0, 1, 2}, false⟩

/-- It is left with SIGPIPE ignored and `classpath` of a dead frame in its
environment. -/
theorem silentVerifier_not_restored :
    ¬ Restored freshCaller
      (checksignatureIn (encodeText [80, 75]) (ascii "/data/auth.jar") none silentVerifier
        freshCaller).2 := by
  intro h
  have hframe := h.environ (classpath (ascii "/data/auth.jar"))
  refine hframe ?_ rfl
  rw [(checksignatureIn_of_started (by simp [JarUnavailable, silentVerifier]) _ _).2.1]
  exact List.mem_cons_self ..

end Su
