import TestActivity.Su.Relay
import TestActivity.Su.Request
import TestActivity.Su.Toolbox

/-!
# `handle_request`

One call runs in the process `rt_exec` that `run_server` forked for the
client. It checks the request, forks an intermediate child that forks the
grandchild and exits, and relays what the grandchild writes to its stdout.

* `admission` is the part up to the fork: the checks and their `goto failure`.
* `grandchildStage` and `runCommand` are the grandchild.
* `stream` is the part behind the fork: select, relay loop, and the labels
  that end the call.
* `handleRequest` puts them together; its value is the sequence of things the
  process does that a client or a later step can notice.

`Kernel` collects the outcomes of the system calls of one call. `req` is the
memory from the buffer on; leaving it is a crash.
-/

namespace Su

/-- The outcomes of the system calls of one `handle_request`. -/
structure Kernel where
  /-- both `sigaction` calls succeed -/
  sigactionOk : Bool
  socketpairOk : Bool
  /-- `pid_in_child = fork()` succeeds -/
  forkOk : Bool
  /-- `gcpid = fork()` succeeds -/
  innerForkOk : Bool
  /-- the `k`-th `select` finds `sockfd[0]` readable -/
  selectReady : ℕ → Bool
  /-- the end mark of a capped relay reaches the client -/
  markOk : Bool
  /-- what `writex` returns for a reply of the server's own (`none`: negative) -/
  replyWrite : Option ℕ
  replyWrite_pos : ∀ n, replyWrite = some n → 0 < n

/-- What the process does that can be noticed, in order. -/
inductive Event where
  /-- `socketpair` filled `sockfd` -/
  | fillSockfd
  /-- an element of `sockfd` is read -/
  | useSockfd
  /-- bytes the client's socket accepted -/
  | send (bs : Bytes)
  /-- `close(fd)` -/
  | closeClient
  /-- `kill(pid_in_child,SIGKILL)` -/
  | killChild
  /-- `waitpid` -/
  | waitChild
deriving DecidableEq, Repr

/-- How the call ends. -/
inductive Finish where
  | returned (res : ℤ)
  | exited (status : ℤ)
  | crashed
deriving DecidableEq, Repr

/-- A finished call. -/
structure Served where
  events : List Event
  finish : Finish
deriving DecidableEq, Repr

/-! ## Up to the fork -/

/-- How the part up to `pid_in_child = fork()` ends. -/
inductive Admission where
  /-- a read left the memory -/
  | crash
  /-- `goto failure` -/
  | failure (rtype : ResultType)
  /-- `fork` failed -/
  | forkFailed
  /-- the child exists, with the `argc` and `offset` it inherits -/
  | forked (rtype : ResultType) (argc offset : ℕ)
deriving DecidableEq, Repr

/-- The checks of the request, in the order of the source. -/
def admission (req : Bytes) (k : Kernel) : Admission :=
  match req[0]? with
  | none => .crash
  | some t =>
      let rtype := resultType t
      if t = 0 then .failure rtype
      else if !k.sigactionOk then .failure rtype
      else
        match readHeader req with
        | none => .crash
        | some (argc, offset) =>
            -- `char` is unsigned, `argc<0` never holds
            if maxParam < argc then .failure rtype
            else if !k.socketpairOk then .failure rtype
            else if !k.forkOk then .forkFailed
            else .forked rtype argc offset

/-! ## The grandchild -/

/-- What is handed to `directsyscall_main`, `cmd_main` or `execv`: the type,
the argument vector, and the entries `putenv` was called on. -/
structure Exec where
  rtype : ResultType
  params : List Bytes
  envs : List Bytes
deriving DecidableEq, Repr

/-- How far the grandchild gets. -/
inductive GrandchildStage where
  /-- it was never forked -/
  | absent
  /-- a read left the memory -/
  | crashed
  /-- `env_num` is out of range -/
  | badEnvNum
  | execs (e : Exec)
deriving DecidableEq, Repr

/-- The grandchild from its fork to the command. -/
def grandchildStage (req : Bytes) (k : Kernel) : GrandchildStage :=
  match admission req k with
  | .forked rtype argc offset =>
      if k.innerForkOk then
        match grandchildParse req argc offset with
        | none => .crashed
        | some .badEnvNum => .badEnvNum
        | some (.ready params envs) => .execs ⟨rtype, argvOf params, envs⟩
      else .absent
  | _ => .absent

/-- The command the call executes, if any. -/
def executed (req : Bytes) (k : Kernel) : Option Exec :=
  match grandchildStage req k with
  | .execs e => some e
  | _ => none

/-- What becomes of the grandchild: its stdout, whether a command was run, and
the exit status, if there is one. -/
structure CommandRun where
  output : Bytes
  ran : Bool
  status : Option ℕ
deriving DecidableEq, Repr

/-- The status a parent sees of `exit(res)`. -/
def exitStatus (res : ℤ) : ℕ := (res % 256).toNat

/-- `directsyscall_main` for a SYSCALL_INT request, else a tool of the table,
else `execv`. -/
def runCommand (w : World) (e : Exec) : CommandRun :=
  if e.rtype = .syscallInt then
    -- the result is nothing but the exit status
    let dscres := (directsyscallMain w e.params).res
    ⟨[], true, some (exitStatus (if dscres ≠ 0 then -1 else 0))⟩
  else
    let run := cmdMain w e.params
    match run.ended with
    | .noStatus => ⟨run.output, true, none⟩
    | .exited s => ⟨run.output, true, some (exitStatus s)⟩
    | .returned res =>
        if res ≠ -100 then ⟨run.output, true, some (exitStatus res)⟩
        else
          -- no such tool
          match w.execv e.params e.envs with
          | some p => ⟨p.output, true, p.status⟩
          | none => ⟨[], false, some (exitStatus (-1))⟩

/-- The grandchild's run; without a grandchild there is no output. -/
def commandRun (w : World) (req : Bytes) (k : Kernel) : CommandRun :=
  match grandchildStage req k with
  | .absent => ⟨[], false, none⟩
  | .crashed => ⟨[], false, none⟩
  | .badEnvNum => ⟨[], false, some (exitStatus (-1))⟩
  | .execs e => runCommand w e

/-! ## The labels at the end -/

/-- `"-1\n"` with its NUL, four bytes. -/
def minusOne : Bytes := [45, 49, 10, 0]

/-- `"0\n"` with its NUL, three bytes. -/
def zero : Bytes := [48, 10, 0]

/-- `writex(fd, text, ..)`: what the client's socket accepts of the text. -/
def reply (k : Kernel) (text : Bytes) : List Event :=
  match k.replyWrite with
  | none => []
  | some n => [.send (text.take n)]

/-- `stream_failure`. -/
def streamFailure : Served := ⟨[.closeClient, .useSockfd], .returned (-1)⟩

/-- `unconditional_success`. -/
def unconditionalSuccess (k : Kernel) : Served :=
  ⟨reply k zero ++ [.closeClient, .useSockfd], .returned 0⟩

/-- `status_failure`. -/
def statusFailure (k : Kernel) (rtype : ResultType) : Served :=
  if rtype = .int then unconditionalSuccess k
  else ⟨reply k minusOne ++ [.closeClient, .useSockfd], .returned (-1)⟩

/-- `failure`. -/
def failure (k : Kernel) (rtype : ResultType) : Served :=
  if rtype = .stream then streamFailure else statusFailure k rtype

/-! ## Behind the fork -/

/-- Events in front of a served call. -/
def Served.after (s : Served) (es : List Event) : Served := ⟨es ++ s.events, s.finish⟩

/-- `while(k<3)`: one of three `select` calls finds something to read. -/
def selected (k : Kernel) : Bool := (List.range 3).any k.selectReady

/-- `has_send_result`: a first write succeeded. -/
def hasSendResult : List (Round UInt8) → Bool
  | [] => false
  | r :: _ => r.accepted.isSome

/-- From `stream:` to the end of the call. -/
def stream (k : Kernel) (rtype : ResultType) (rounds : List (Round UInt8)) : Served :=
  -- close(sockfd[1]), setsockopt(sockfd[0]), select on sockfd[0]
  let opening := [.useSockfd, .useSockfd, .useSockfd]
  if !selected k then
    -- the third timeout, whatever the type
    streamFailure.after (opening ++ [.killChild, .waitChild])
  else
    let (sent, e) := relayLoop 0 k.markOk 0 rounds
    let relayed := opening ++ [.useSockfd, .send sent]
    match e with
    | .writeFailed => streamFailure.after (relayed ++ [.killChild, .waitChild])
    | .capped =>
        Served.after ⟨[.closeClient, .useSockfd], .returned 0⟩ (relayed ++ [.killChild, .waitChild])
    | .eof =>
        -- no status of the command is looked at
        if rtype = .int && !hasSendResult rounds then
          (unconditionalSuccess k).after (relayed ++ [.waitChild])
        else
          Served.after ⟨[.closeClient, .useSockfd], .returned 0⟩ (relayed ++ [.waitChild])

/-- `handle_request`, with the turns its relay loop makes. -/
def handleRequest (req : Bytes) (k : Kernel) (rounds : List (Round UInt8)) : Served :=
  match admission req k with
  | .crash => ⟨[], .crashed⟩
  | .failure rtype => failure k rtype
  | .forkFailed => ⟨.fillSockfd :: reply k minusOne ++ [.closeClient], .exited (-1)⟩
  | .forked rtype _ _ => (stream k rtype rounds).after [.fillSockfd]

/-- The bytes the client's socket accepts in a sequence of events. -/
def sentBytes (es : List Event) : Bytes :=
  es.flatMap fun
    | .send bs => bs
    | _ => []

/-- The bytes the client receives. -/
def received (s : Served) : Bytes := sentBytes s.events

/-! ## Admission, case by case -/

/-- Every call up to the fork of the grandchild succeeds. -/
def Kernel.Willing (k : Kernel) : Prop :=
  k.sigactionOk = true ∧ k.socketpairOk = true ∧ k.forkOk = true ∧ k.innerForkOk = true

/-- A kernel that refuses nothing. -/
def willing : Kernel where
  sigactionOk := true
  socketpairOk := true
  forkOk := true
  innerForkOk := true
  selectReady := fun _ => true
  markOk := true
  replyWrite := some 4
  replyWrite_pos := by simp

/-- The request is sent to `failure`: its type is 0, the signal handlers cannot
be set, it has too many arguments, or there is no socket pair. -/
def Rejects (req : Bytes) (k : Kernel) (rtype : ResultType) : Prop :=
  ∃ t, req[0]? = some t ∧ rtype = resultType t ∧
    (t = 0 ∨ k.sigactionOk = false ∨
      ∃ argc offset, readHeader req = some (argc, offset) ∧
        (maxParam < argc ∨ k.socketpairOk = false))

/-- The request gets as far as `pid_in_child = fork()`. -/
structure Passes (req : Bytes) (k : Kernel) (t : UInt8) (argc offset : ℕ) : Prop where
  first : req[0]? = some t
  nonzero : t ≠ 0
  sigaction : k.sigactionOk = true
  header : readHeader req = some (argc, offset)
  count : argc ≤ maxParam
  socketpair : k.socketpairOk = true

theorem admission_of_rejects {req : Bytes} {k : Kernel} {rtype : ResultType}
    (h : Rejects req k rtype) : admission req k = .failure rtype := by
  rcases h with ⟨t, ht, rfl, hcase⟩
  by_cases h0 : t = 0
  · simp [admission, ht, h0]
  · cases hsig : k.sigactionOk with
    | false => simp [admission, ht, h0, hsig]
    | true =>
        rcases hcase with hzero | hno | ⟨argc, offset, hhead, hbad⟩
        · exact absurd hzero h0
        · rw [hsig] at hno
          cases hno
        · rcases hbad with hargc | hsock
          · simp [admission, ht, h0, hsig, hhead, hargc]
          · simp [admission, ht, h0, hsig, hhead, hsock]

theorem admission_of_passes {req : Bytes} {k : Kernel} {t : UInt8} {argc offset : ℕ}
    (h : Passes req k t argc offset) :
    admission req k = if k.forkOk then .forked (resultType t) argc offset else .forkFailed := by
  rcases h with ⟨ht, h0, hsig, hhead, hargc, hsock⟩
  have hargc' : ¬ maxParam < argc := by omega
  cases hfork : k.forkOk with
  | true => simp [admission, ht, h0, hsig, hhead, hargc', hsock, hfork]
  | false => simp [admission, ht, h0, hsig, hhead, hargc', hsock, hfork]

/-- There is no fourth way. -/
theorem admission_cases (req : Bytes) (k : Kernel) :
    admission req k = .crash ∨ (∃ rtype, Rejects req k rtype) ∨
      ∃ t argc offset, Passes req k t argc offset := by
  cases ht : req[0]? with
  | none => exact Or.inl (by simp [admission, ht])
  | some t =>
      by_cases hrej : t = 0 ∨ k.sigactionOk = false
      · exact Or.inr (Or.inl ⟨resultType t, t, ht, rfl, by tauto⟩)
      · obtain ⟨h0, hsig⟩ : t ≠ 0 ∧ k.sigactionOk = true := by simpa using hrej
        cases hhead : readHeader req with
        | none => exact Or.inl (by simp [admission, ht, h0, hsig, hhead])
        | some p =>
            right
            by_cases hbad : maxParam < p.1 ∨ k.socketpairOk = false
            · exact Or.inl ⟨resultType t, t, ht, rfl, Or.inr (Or.inr ⟨p.1, p.2, hhead, hbad⟩)⟩
            · obtain ⟨hargc, hsock⟩ : p.1 ≤ maxParam ∧ k.socketpairOk = true := by simpa using hbad
              exact Or.inr ⟨t, p.1, p.2, ht, h0, hsig, hhead, hargc, hsock⟩

/-- What it takes to be forked. -/
theorem admission_eq_forked_iff {req : Bytes} {k : Kernel} {rtype : ResultType} {argc offset : ℕ} :
    admission req k = .forked rtype argc offset ↔
      ∃ t, rtype = resultType t ∧ Passes req k t argc offset ∧ k.forkOk = true := by
  constructor
  · intro h
    rcases admission_cases req k with hcrash | ⟨rtype', hrej⟩ | ⟨t, argc', offset', hpass⟩
    · rw [hcrash] at h
      cases h
    · rw [admission_of_rejects hrej] at h
      cases h
    · rw [admission_of_passes hpass] at h
      split_ifs at h with hfork
      rcases Admission.forked.inj h with ⟨rfl, rfl, rfl⟩
      exact ⟨t, rfl, hpass, hfork⟩
  · rintro ⟨t, rfl, hpass, hfork⟩
    rw [admission_of_passes hpass, if_pos hfork]

/-- A command is executed only by a grandchild that was forked for it. -/
theorem executed_eq_some_iff {req : Bytes} {k : Kernel} {e : Exec} :
    executed req k = some e ↔
      ∃ rtype argc offset params envs, admission req k = .forked rtype argc offset ∧
        k.innerForkOk = true ∧ grandchildParse req argc offset = some (.ready params envs) ∧
        e = ⟨rtype, argvOf params, envs⟩ := by
  unfold executed grandchildStage
  constructor
  · intro h
    split at h
    · next hstage =>
        split at hstage
        · next rtype argc offset hadm =>
            split_ifs at hstage with hinner
            split at hstage
            · cases hstage
            · cases hstage
            · next params envs hparse =>
                cases hstage
                cases h
                exact ⟨rtype, argc, offset, params, envs, hadm, hinner, hparse, rfl⟩
        · cases hstage
    · cases h
  · rintro ⟨rtype, argc, offset, params, envs, hadm, hinner, hparse, rfl⟩
    simp [hadm, hinner, hparse]

/-- What is executed for a spelled-out message: the command with all its
arguments, and the environment up to the first entry without an `=`. -/
theorem executed_image {t n m : UInt8} {cmd : Bytes} {params envs : List Bytes} {rest : Bytes}
    (ht : t ≠ 0) (hcmd : 0 ∉ cmd) (hps : ∀ p ∈ params, 0 ∉ p) (hes : ∀ e ∈ envs, 0 ∉ e)
    (hn : n.toNat = params.length) (hm : m.toNat = envs.length) {k : Kernel} {e : Exec} :
    executed (image t cmd n params m envs ++ rest) k = some e ↔
      k.Willing ∧ params.length ≤ maxParam ∧ envs.length ≤ maxParam ∧
        e = ⟨resultType t, cmd :: params, envs.takeWhile (eqSign ∈ ·)⟩ := by
  set req := image t cmd n params m envs ++ rest with hreq
  have hhead : readHeader req = some (params.length, cmd.length + 3) := by
    rw [hreq, image_append, readHeader_spelled hcmd, hn]
  have hfirst : req[0]? = some t := by
    rw [hreq, image_append]
    rfl
  have hparse : grandchildParse req params.length (cmd.length + 3) =
      some (if maxParam < envs.length then .badEnvNum
        else .ready (argvCells (cmd :: params)) (envs.takeWhile (eqSign ∈ ·))) := by
    rw [hreq, grandchildParse_image hcmd hps hes hm, hm]
  rw [executed_eq_some_iff]
  constructor
  · rintro ⟨rtype, argc, offset, cells, envs', hadm, hinner, hparse', rfl⟩
    -- the header that was read is the one that is spelled out
    obtain ⟨t', rfl, ⟨ht', -, hsig, hhead', hargc, hsock⟩, hfork⟩ := admission_eq_forked_iff.1 hadm
    obtain rfl : t = t' := by simpa [hfirst] using ht'
    obtain ⟨rfl, rfl⟩ : params.length = argc ∧ cmd.length + 3 = offset := by
      simpa [hhead] using hhead'
    rw [hparse, Option.some.injEq] at hparse'
    split_ifs at hparse' with henv
    rcases Parsed.ready.inj hparse' with ⟨rfl, rfl⟩
    exact ⟨⟨hsig, hsock, hfork, hinner⟩, hargc, by omega, by rw [argvOf_argvCells]⟩
  · -- every call succeeds and both counts are in range
    rintro ⟨⟨hsig, hsock, hfork, hinner⟩, hargc, henv, rfl⟩
    have henv' : ¬ maxParam < envs.length := by omega
    exact ⟨resultType t, _, _, argvCells (cmd :: params), envs.takeWhile (eqSign ∈ ·),
      admission_eq_forked_iff.2 ⟨t, rfl, ⟨hfirst, ht, hsig, hhead, hargc, hsock⟩, hfork⟩, hinner,
      by rw [hparse, if_neg henv'], by rw [argvOf_argvCells]⟩

end Su
