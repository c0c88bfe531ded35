import TestActivity.Lib.Transition
import TestActivity.Su.HandleRequest

/-!
# The three processes behind a command

`handle_request` forks a child, whose pid is `pid_in_child`. The child forks
the grandchild and exits at once, so the grandchild is adopted by `init`; it
waits for that and then executes the command.

A run interleaves the rest of `handle_request`, event by event, with the steps
of the two others. When the server gives up it sends SIGKILL to
`pid_in_child`, which is not the process that executes the command
(`worker_not_killed`). `abandoned_settled` says when no command is left
running nevertheless.
-/

namespace Su

open Transition

/-- `pid_t` of a process that exists. -/
abbrev Pid := ℕ

/-- The grandchild. -/
inductive Worker where
  /-- it was not forked -/
  | absent
  /-- `while(getppid() != 1)` -/
  | waiting (pid : Pid)
  /-- `directsyscall_main`, `cmd_main` or `execv` -/
  | executing (pid : Pid)
  | exited (pid : Pid)
deriving DecidableEq, Repr

/-- It is going to execute the command, or executes it. -/
def Worker.Alive : Worker → Prop
  | .waiting _ => True
  | .executing _ => True
  | _ => False

instance : DecidablePred Worker.Alive := fun w => by
  cases w <;> unfold Worker.Alive <;> infer_instance

/-- Its pid, which it keeps until it has exited. -/
def Worker.pid : Worker → Option Pid
  | .absent => none
  | .waiting p => some p
  | .executing p => some p
  | .exited p => some p

/-- The grandchild behind `gcpid = fork()`. -/
def Worker.ofFork : Option Pid → Worker
  | none => .absent
  | some p => .waiting p

@[simp] theorem Worker.pid_ofFork (gcpid : Option Pid) : (Worker.ofFork gcpid).pid = gcpid := by
  cases gcpid <;> rfl

/-- The processes from the moment `pid_in_child = fork()` has returned. -/
structure Procs where
  /-- what `handle_request` has still to do -/
  todo : List Event
  pidInChild : Pid
  /-- the child has neither exited nor been killed -/
  childRuns : Bool
  /-- the child has called `fork` -/
  childForked : Bool
  worker : Worker
  /-- the grandchild was sent SIGKILL -/
  workerKilled : Bool
deriving DecidableEq, Repr

/-- Who takes the next step. -/
inductive ProcStep where
  /-- `handle_request` -/
  | server
  /-- `gcpid = fork()` in the child (`none`: it fails) -/
  | childFork (gcpid : Option Pid)
  | childExit
  /-- the grandchild has been adopted and goes on -/
  | workerStart
  /-- the grandchild ends, for whatever reason -/
  | workerExit
deriving DecidableEq, Repr

/-- `kill(pid,SIGKILL)`: the process that has this pid ends. -/
def Procs.kill (s : Procs) (pid : Pid) : Procs :=
  let hits := s.worker.Alive ∧ s.worker.pid = some pid
  { s with
    childRuns := s.childRuns && pid != s.pidInChild
    worker := if hits then .exited pid else s.worker
    workerKilled := s.workerKilled || decide hits }

/-- One step; `none` if it cannot be taken now. -/
def procStep (s : Procs) : ProcStep → Option Procs
  | .server =>
      match s.todo with
      -- `handle_request` has returned
      | [] => none
      | .killChild :: todo => some { s.kill s.pidInChild with todo := todo }
      | .waitChild :: todo => if s.childRuns then none else some { s with todo := todo }
      | _ :: todo => some { s with todo := todo }
  | .childFork gcpid =>
      -- a new process gets a pid that is not in use
      if s.childRuns && !s.childForked && gcpid != some s.pidInChild then
        some { s with childForked := true, worker := .ofFork gcpid }
      else none
  | .childExit =>
      if s.childRuns && s.childForked then some { s with childRuns := false } else none
  | .workerStart =>
      match s.worker with
      | .waiting p => if s.childRuns then none else some { s with worker := .executing p }
      | _ => none
  | .workerExit =>
      match s.worker with
      | .waiting p => some { s with worker := .exited p }
      | .executing p => some { s with worker := .exited p }
      | _ => none

/-- The steps of a run. -/
abbrev ProcRel (s : Procs) (l : ProcStep) (s' : Procs) : Prop := procStep s l = some s'

/-! ## The call behind the processes -/

/-- A call of `handle_request` that has forked. -/
structure Call where
  req : Bytes
  k : Kernel
  rounds : List (Round UInt8)
  rtype : ResultType
  argc : ℕ
  offset : ℕ
  admitted : admission req k = .forked rtype argc offset

namespace Call

variable (c : Call)

/-- What it does behind the fork. -/
def events : List Event := (stream c.k c.rtype c.rounds).events

/-- That is all it does, but for filling `sockfd`. -/
theorem handleRequest_events :
    (handleRequest c.req c.k c.rounds).events = .fillSockfd :: c.events := by
  simp [handleRequest, c.admitted, Served.after, events]

/-- The server gives up on the command: no output within the select retries, a
failed write to the client, or one of the two caps. -/
def GivesUp : Prop :=
  selected c.k = false ∨ (relayLoop 0 c.k.markOk 0 c.rounds).2 = .writeFailed ∨
    (relayLoop 0 c.k.markOk 0 c.rounds).2 = .capped

/-- Giving up is sending SIGKILL to `pid_in_child`. -/
theorem killChild_mem_iff : .killChild ∈ c.events ↔ c.GivesUp := by
  have hzero : .killChild ∉ reply c.k zero := by
    cases h : c.k.replyWrite <;> simp [reply, h]
  unfold events stream GivesUp
  cases hsel : selected c.k with
  | false => simp [Served.after]
  | true =>
      cases hend : (relayLoop 0 c.k.markOk 0 c.rounds).2 with
      | eof =>
          simp only [Bool.not_true, Bool.false_eq_true, if_false, hend]
          split <;> simp [Served.after, unconditionalSuccess, hzero]
      | writeFailed => simp [hend, Served.after]
      | capped => simp [hend, Served.after]

/-- The processes when `pid_in_child = fork()` has returned `pid`. -/
def start (pid : Pid) : Procs where
  todo := c.events
  pidInChild := pid
  childRuns := true
  childForked := false
  worker := .absent
  workerKilled := false

end Call

/-! ## One step -/

/-- Everything that a step can do. -/
theorem procStep_cases {s s' : Procs} {l : ProcStep} (h : ProcRel s l s') :
    (∃ todo, l = .server ∧ s.todo = .killChild :: todo ∧
        s' = { s.kill s.pidInChild with todo := todo }) ∨
      (∃ e todo, l = .server ∧ s.todo = e :: todo ∧ e ≠ .killChild ∧
        (e = .waitChild → s.childRuns = false) ∧ s' = { s with todo := todo }) ∨
      (∃ gcpid, l = .childFork gcpid ∧ s.childRuns = true ∧ s.childForked = false ∧
        gcpid ≠ some s.pidInChild ∧ s' = { s with childForked := true, worker := .ofFork gcpid }) ∨
      (l = .childExit ∧ s.childRuns = true ∧ s.childForked = true ∧
        s' = { s with childRuns := false }) ∨
      (∃ p, l = .workerStart ∧ s.worker = .waiting p ∧ s.childRuns = false ∧
        s' = { s with worker := .executing p }) ∨
      (∃ p, l = .workerExit ∧ (s.worker = .waiting p ∨ s.worker = .executing p) ∧
        s' = { s with worker := .exited p }) := by
  cases l with
  | server =>
      cases htodo : s.todo with
      | nil => simp [ProcRel, procStep, htodo] at h
      | cons e todo =>
          by_cases hkill : e = .killChild
          · -- the kill acts on a process, any other event of the server on none
            subst hkill
            simp only [ProcRel, procStep, htodo, Option.some.injEq] at h
            exact Or.inl ⟨todo, rfl, rfl, h.symm⟩
          · right; left
            by_cases hwait : e = .waitChild
            · subst hwait
              simp only [ProcRel, procStep, htodo] at h
              split_ifs at h with hruns
              exact ⟨_, todo, rfl, rfl, hkill, fun _ => by simpa using hruns,
                (Option.some.inj h).symm⟩
            · cases e <;> simp_all [ProcRel, procStep]
  | childFork gcpid =>
      simp only [ProcRel, procStep] at h
      split_ifs at h with hcond
      simp only [Bool.and_eq_true, Bool.not_eq_true', bne_iff_ne] at hcond
      rcases hcond with ⟨⟨hruns, hforked⟩, hpid⟩
      exact Or.inr (Or.inr (Or.inl ⟨gcpid, rfl, hruns, hforked, hpid, (Option.some.inj h).symm⟩))
  | childExit =>
      simp only [ProcRel, procStep] at h
      split_ifs at h with hcond
      simp only [Bool.and_eq_true] at hcond
      exact Or.inr (Or.inr (Or.inr (Or.inl ⟨rfl, hcond.1, hcond.2, (Option.some.inj h).symm⟩)))
  | workerStart =>
      cases hw : s.worker with
      | waiting p =>
          simp only [ProcRel, procStep, hw] at h
          split_ifs at h with hruns
          exact Or.inr (Or.inr (Or.inr (Or.inr (Or.inl
            ⟨p, rfl, rfl, by simpa using hruns, (Option.some.inj h).symm⟩))))
      | absent => simp [ProcRel, procStep, hw] at h
      | executing p => simp [ProcRel, procStep, hw] at h
      | exited p => simp [ProcRel, procStep, hw] at h
  | workerExit =>
      cases hw : s.worker with
      | waiting p =>
          simp only [ProcRel, procStep, hw, Option.some.injEq] at h
          exact Or.inr (Or.inr (Or.inr (Or.inr (Or.inr ⟨p, rfl, Or.inl rfl, h.symm⟩))))
      | executing p =>
          simp only [ProcRel, procStep, hw, Option.some.injEq] at h
          exact Or.inr (Or.inr (Or.inr (Or.inr (Or.inr ⟨p, rfl, Or.inr rfl, h.symm⟩))))
      | absent => simp [ProcRel, procStep, hw] at h
      | exited p => simp [ProcRel, procStep, hw] at h

/-- The child does not survive its SIGKILL, and a grandchild with a pid of its
own does not notice it. -/
theorem Procs.kill_eq (s : Procs) (hpid : s.worker.pid ≠ some s.pidInChild) :
    s.kill s.pidInChild = { s with childRuns := false } := by
  simp [Procs.kill, hpid]

/-! ## Who is hit -/

/-- The grandchild has a pid of its own and was not sent SIGKILL. -/
structure WorkerApart (s : Procs) : Prop where
  pid : s.worker.pid ≠ some s.pidInChild
  notKilled : s.workerKilled = false

theorem workerApart_start (c : Call) (pid : Pid) : WorkerApart (c.start pid) :=
  ⟨by simp [Call.start, Worker.pid], rfl⟩

theorem workerApart_step {s s' : Procs} {l : ProcStep} (h : ProcRel s l s')
    (hinv : WorkerApart s) : WorkerApart s' := by
  rcases hinv with ⟨hpid, hnot⟩
  rcases procStep_cases h with ⟨todo, -, -, rfl⟩ | ⟨e, todo, -, -, -, -, rfl⟩ |
    ⟨gcpid, -, -, -, hne, rfl⟩ | ⟨-, -, -, rfl⟩ | ⟨p, -, hw, -, rfl⟩ | ⟨p, -, hw, rfl⟩
  · -- the SIGKILL goes to another pid
    rw [s.kill_eq hpid]
    exact ⟨hpid, hnot⟩
  · exact ⟨hpid, hnot⟩
  · -- the pid of the child is in use
    exact ⟨by simpa using hne, hnot⟩
  · exact ⟨hpid, hnot⟩
  · exact ⟨by simpa [hw, Worker.pid] using hpid, hnot⟩
  · -- an exited grandchild keeps its pid
    refine ⟨?_, hnot⟩
    rcases hw with hw | hw
    · simpa [hw, Worker.pid] using hpid
    · simpa [hw, Worker.pid] using hpid

/-- In no run does the server's SIGKILL reach the grandchild. -/
theorem worker_not_killed {c : Call} {pid : Pid} {tr : List (Procs × ProcStep)} {s : Procs}
    (run : Run ProcRel (c.start pid) tr s) : WorkerApart s :=
  run.stable WorkerApart (fun _ _ _ => workerApart_step) (workerApart_start c pid)

/-! ## Abandoned commands -/

/-- When the server is about to send its SIGKILL, the grandchild was not forked
or has exited. -/
def KillsSettled (s : Procs) (l : ProcStep) : Prop :=
  l = .server → s.todo.head? = some .killChild → ¬ s.worker.Alive

instance (s : Procs) (l : ProcStep) : Decidable (KillsSettled s l) :=
  inferInstanceAs (Decidable (_ → _))

/-- No grandchild is alive, and none can be forked any more. -/
def Dead (s : Procs) : Prop := s.childRuns = false ∧ ¬ s.worker.Alive

theorem dead_step {s s' : Procs} {l : ProcStep} (h : ProcRel s l s') (hdead : Dead s) :
    Dead s' := by
  rcases hdead with ⟨hgone, hnot⟩
  rcases procStep_cases h with ⟨todo, -, -, rfl⟩ | ⟨e, todo, -, -, -, -, rfl⟩ |
    ⟨gcpid, -, hruns, -, -, rfl⟩ | ⟨-, hruns, -, rfl⟩ | ⟨p, -, hw, -, rfl⟩ | ⟨p, -, -, rfl⟩
  · exact ⟨by simp [Procs.kill], by simp [Procs.kill, hnot]⟩
  · exact ⟨hgone, hnot⟩
  · -- there is no child to fork
    rw [hgone] at hruns
    cases hruns
  · exact ⟨rfl, hnot⟩
  · -- there is no grandchild to start
    rw [hw] at hnot
    exact absurd trivial hnot
  · exact ⟨hgone, fun h => h⟩

/-- A settled SIGKILL leaves nobody: the child is hit before it can fork, or the
grandchild has exited. -/
theorem dead_kill {s : Procs} (hnot : ¬ s.worker.Alive) (todo : List Event) :
    Dead { s.kill s.pidInChild with todo := todo } :=
  ⟨by simp [Procs.kill], by simp [Procs.kill, hnot]⟩

/-- The SIGKILL is still to come, or it left nobody. -/
def Settled (s : Procs) : Prop := .killChild ∈ s.todo ∨ Dead s

theorem settled_step {s s' : Procs} {l : ProcStep} (h : ProcRel s l s') (hguard : KillsSettled s l)
    (hinv : Settled s) : Settled s' := by
  rcases hinv with hmem | hdead
  · rcases procStep_cases h with ⟨todo, rfl, htodo, rfl⟩ | ⟨e, todo, -, htodo, hne, -, rfl⟩ |
      ⟨gcpid, -, -, -, -, rfl⟩ | ⟨-, -, -, rfl⟩ | ⟨p, -, -, -, rfl⟩ | ⟨p, -, -, rfl⟩
    · -- the SIGKILL itself, on a settled grandchild
      exact Or.inr (dead_kill (hguard rfl (by rw [htodo]; rfl)) todo)
    · -- any other event leaves it in front
      rw [htodo] at hmem
      rcases List.mem_cons.1 hmem with rfl | hmem
      · exact absurd rfl hne
      · exact Or.inl hmem
    · exact Or.inl hmem
    · exact Or.inl hmem
    · exact Or.inl hmem
    · exact Or.inl hmem
  · exact Or.inr (dead_step h hdead)

/-- With the child gone nothing keeps the server from returning, and what it
does on the way leaves a grandchild with a pid of its own alone. -/
theorem server_returns (s : Procs) (hgone : s.childRuns = false)
    (hpid : s.worker.pid ≠ some s.pidInChild) :
    ∃ tr s', Run ProcRel s tr s' ∧ s'.todo = [] ∧ s'.worker = s.worker ∧
      s'.workerKilled = s.workerKilled := by
  obtain ⟨todo, htodo⟩ : ∃ todo, s.todo = todo := ⟨_, rfl⟩
  induction todo generalizing s with
  | nil => exact ⟨[], s, .nil s, htodo, rfl, rfl⟩
  | cons e todo ih =>
      rcases ih { s with todo := todo } hgone hpid rfl with ⟨tr, s', hrun, hdone⟩
      refine ⟨(s, .server) :: tr, s', .cons ?_ hrun, hdone⟩
      -- `waitpid` does not block any more, and a SIGKILL changes nothing
      have hkill := s.kill_eq hpid
      rw [← hgone] at hkill
      cases e <;> simp [ProcRel, procStep, htodo, hgone, hkill]

/-- Behind a SIGKILL no continuation leaves a command running, exactly if the
grandchild was not forked or had exited before it. -/
theorem kill_settles_iff {c : Call} {pid : Pid} {tr : List (Procs × ProcStep)} {s : Procs}
    (run : Run ProcRel (c.start pid) tr s) (todo : List Event) :
    (∀ tr' s', Run ProcRel { s.kill s.pidInChild with todo := todo } tr' s' → s'.todo = [] →
        ¬ s'.worker.Alive ∨ s'.workerKilled = true) ↔ ¬ s.worker.Alive := by
  have hapart := worker_not_killed run
  constructor
  · intro h halive
    -- the server returns while the grandchild does nothing
    rw [s.kill_eq hapart.pid] at h
    obtain ⟨tr', s', hrun, hdone, hworker, hkilled⟩ :=
      server_returns { s with childRuns := false, todo := todo } rfl hapart.pid
    rcases h tr' s' hrun hdone with hdead | hkill
    · rw [hworker] at hdead
      exact hdead halive
    · rw [hkilled, hapart.notKilled] at hkill
      cases hkill
  · intro hdead tr' s' hrun _
    exact Or.inl (hrun.stable Dead (fun _ _ _ => dead_step) (dead_kill hdead todo)).2

/-- In a run in which the server gives up only on a grandchild that was never
forked or has exited, no abandoned command is running, and none was forked to
run later, when `handle_request` returns. -/
theorem abandoned_settled {c : Call} {pid : Pid} {tr : List (Procs × ProcStep)} {s : Procs}
    (run : Run ProcRel (c.start pid) tr s) (hguard : ∀ p ∈ tr, KillsSettled p.1 p.2)
    (hgives : c.GivesUp) (hreturned : s.todo = []) :
    ¬ s.worker.Alive ∨ s.workerKilled = true := by
  have hstart : Settled (c.start pid) := Or.inl (c.killChild_mem_iff.2 hgives)
  have hend := (run.invariant KillsSettled Settled (fun _ _ _ => settled_step) hguard hstart).1
  rcases hend with hmem | hdead
  · rw [hreturned] at hmem
    cases hmem
  · exact Or.inl hdead.2

/-- The command `a` without arguments, and three `select` calls in vain. -/
def silentCall : Call where
  req := [32, 97, 0, 0, 0]
  k := { willing with selectReady := fun _ => false }
  rounds := []
  rtype := .int
  argc := 0
  offset := 4
  admitted := by decide

/-- The steps that start the command, and those of the server that gives up. -/
def startsCommand : List ProcStep := [.childFork (some 7), .childExit, .workerStart]

/-- A command that ends silently before the server gives up. -/
theorem abandoned_settled_silent :
    ∃ tr s, Run ProcRel (silentCall.start 6) tr s ∧ s.todo = [] ∧
      (¬ s.worker.Alive ∨ s.workerKilled = true) := by
  have hrun : ∃ tr s, execute procStep (silentCall.start 6)
      (startsCommand ++ .workerExit :: List.replicate 7 .server) = some (tr, s) ∧
        (∀ p ∈ tr, KillsSettled p.1 p.2) ∧ s.todo = [] :=
    ⟨_, _, rfl, by decide, by decide⟩
  rcases hrun with ⟨tr, s, hexec, hguard, hreturned⟩
  have run : Run ProcRel (silentCall.start 6) tr s := Run.of_execute hexec
  exact ⟨tr, s, run, hreturned, abandoned_settled run hguard (Or.inl (by decide)) hreturned⟩

/-- A command that is still running: the server returns and leaves it alone. -/
theorem abandoned_running :
    ¬ ∀ tr s, Run ProcRel (silentCall.start 6) tr s → silentCall.GivesUp → s.todo = [] →
        ¬ s.worker.Alive ∨ s.workerKilled = true := by
  intro h
  have hrun : ∃ tr s, execute procStep (silentCall.start 6)
      (startsCommand ++ List.replicate 7 .server) = some (tr, s) ∧
        s.todo = [] ∧ s.worker = .executing 7 ∧ s.workerKilled = false :=
    ⟨_, _, rfl, by decide, by decide, by decide⟩
  rcases hrun with ⟨tr, s, hexec, hreturned, hworker, hkilled⟩
  rcases h tr s (Run.of_execute hexec) (Or.inl (by decide)) hreturned with halive | hkill
  · rw [hworker] at halive
    exact halive trivial
  · rw [hkilled] at hkill
    cases hkill

end Su
