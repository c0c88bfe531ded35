import TestActivity.Lib.Transition
import TestActivity.Su.Rtdaemon
import TestActivity.Su.System

/-!
# The accept loop of `rtdaemon`

The parent process over many clients. A turn accepts a connection, looks at
the name of the peer's process and at its signature, reads the request, and
answers a ping or forks.

All paths but one close the connection. `daemon_descriptors_iff` says for which
runs the parent comes back to `accept` with the descriptors it started with:
those in which no `fork` fails. `card_opened_run` counts what is lost.
-/

namespace Su.Rtdaemon

open CString Descriptors Transition

/-! ## The name of the peer's process -/

/-- `is_mobilesafe_process`: what `/proc/<pid>/cmdline` starts with; `none` if it
cannot be opened. -/
def isMobilesafeProcess (cmdline : Option ReadResult) : ℤ :=
  match cmdline with
  | some (.data (b :: bs)) =>
      if (ascii "com.qihoo360.mobilesafe").isPrefixOf (b :: bs) then 0
      else if (ascii "com.qihoo.security").isPrefixOf (b :: bs) then 0
      else -1
  | _ => -1

/-- `get_360_pid`. -/
def get360Pid (pid : ℤ) (cmdline : Option ReadResult) : ℤ :=
  if isMobilesafeProcess cmdline = 0 then pid else -1

/-- The descriptors behind `is_mobilesafe_process`. -/
def isMobilesafeProcessFds (cmdline : Option ReadResult) (t : Table) : Table :=
  match cmdline with
  | none => t
  | some _ =>
      let (fd, t) := t.alloc
      t.close fd

@[simp] theorem isMobilesafeProcessFds_eq (cmdline : Option ReadResult) (t : Table) :
    isMobilesafeProcessFds cmdline t = t := by
  cases cmdline with
  | none => rfl
  | some r => exact t.close_alloc

/-! ## One turn -/

/-- What the parent keeps from turn to turn. -/
structure Daemon where
  /-- the file at `/data/rt_daemon.jar` -/
  jar : Option Bytes
  proc : Proc

/-- `close(fd)`. -/
def Daemon.close (d : Daemon) (fd : ℕ) : Daemon := { d with proc := d.proc.close fd }

/-- The outcomes of the calls in one turn. -/
structure Turn where
  acceptOk : Bool
  /-- `creds.pid`, which is 0 if `getsockopt` has failed -/
  pid : ℤ
  cmdline : Option ReadResult
  check : CheckRun
  read : ReadResult
  forkOk : Bool
  /-- the peer of a ping is gone when it is answered -/
  peerGone : Bool

/-- The check in front of the request, on an accepted connection: the two
results, and the daemon behind it. -/
def daemonCheck (xdata : Bytes) (d : Daemon) (t : Turn) : (ℤ × ℤ) × Daemon :=
  let d := { d with proc := { d.proc with fds := isMobilesafeProcessFds t.cmdline d.proc.fds } }
  let pid360 := get360Pid t.pid t.cmdline
  if pid360 ≤ 0 then ((pid360, -1), d)
  else
    let ((jar, answer), proc) :=
      checksignatureIn xdata (ascii "/data/rt_daemon.jar") d.jar t.check d.proc
    ((pid360, answer), ⟨jar, proc⟩)

/-- One turn of `while(1)`; `none` if the process is killed by SIGPIPE. -/
def daemonTurn (xdata : Bytes) (d : Daemon) (t : Turn) : Option Daemon :=
  if !t.acceptOk then some d
  else
    let (socket, fds) := d.proc.fds.alloc
    let d := { d with proc := { d.proc with fds := fds } }
    let ((pid360, answer), d) := daemonCheck xdata d t
    match serveClient pid360 answer t.read t.forkOk with
    | .untrusted => some (d.close socket)
    | .unread => some (d.close socket)
    | .ping => if t.peerGone ∧ d.proc.pipe = .default then none else some (d.close socket)
    | .forked _ => some (d.close socket)
    -- the connection stays open
    | .forkFailed => some d

/-- What `checksignature` answers in a turn that calls it. -/
def Turn.answer (xdata : Bytes) (d : Daemon) (t : Turn) : ℤ :=
  (checksignature xdata d.jar t.check.ops
    ⟨fun _ => t.check.first.status, fun _ => t.check.second.status⟩).2

/-- A `fork` fails: the caller is trusted, and its request is no ping. -/
structure ForkFails (xdata : Bytes) (d : Daemon) (t : Turn) : Prop where
  acceptOk : t.acceptOk = true
  named : 0 < get360Pid t.pid t.cmdline
  signed : t.answer xdata d = 0
  request : ∃ b bs, t.read = .data (b :: bs) ∧
    strcmpEq (fill 0 reqSize (b :: bs)) (ascii "\n") = false
  forkOk : t.forkOk = false

/-! ## The descriptors of one turn -/

@[simp] theorem Daemon.close_fds (d : Daemon) (fd : ℕ) :
    (d.close fd).proc.fds = d.proc.fds.close fd := rfl

@[simp] theorem daemonCheck_fds (xdata : Bytes) (d : Daemon) (t : Turn) :
    (daemonCheck xdata d t).2.proc.fds = d.proc.fds := by
  unfold daemonCheck
  dsimp only
  split_ifs <;> simp

/-- The request is read only if both checks pass. -/
theorem daemonCheck_trusted_iff (xdata : Bytes) (d : Daemon) (t : Turn) :
    ¬ ((daemonCheck xdata d t).1.1 ≤ 0 ∨ (daemonCheck xdata d t).1.2 ≠ 0) ↔
      0 < get360Pid t.pid t.cmdline ∧ t.answer xdata d = 0 := by
  unfold daemonCheck Turn.answer
  by_cases hpid : get360Pid t.pid t.cmdline ≤ 0
  · simp [hpid]
  · simp only [hpid, if_false, checksignatureIn_value, false_or, ne_eq, not_not]
    exact (and_iff_right (lt_of_not_ge hpid)).symm

theorem serveClient_eq_forkFailed_iff (pid360 checksig : ℤ) (read : ReadResult) (forkOk : Bool) :
    serveClient pid360 checksig read forkOk = .forkFailed ↔
      ¬ (pid360 ≤ 0 ∨ checksig ≠ 0) ∧
        (∃ b bs, read = .data (b :: bs) ∧
          strcmpEq (fill 0 reqSize (b :: bs)) (ascii "\n") = false) ∧
        forkOk = false := by
  unfold serveClient
  by_cases htrust : pid360 ≤ 0 ∨ checksig ≠ 0
  · simp [htrust]
  · rw [if_neg htrust]
    match read with
    | .eof => simp
    | .error _ => simp
    | .data [] => simp
    | .data (b :: bs) =>
        cases hping : strcmpEq (fill 0 reqSize (b :: bs)) (ascii "\n") with
        | true => simp [hping]
        | false => cases forkOk <;> simp [htrust, hping]

/-- For an accepted connection it is the outcome of the turn. The check does not
look at the process state. -/
theorem forkFails_iff {t : Turn} (hacc : t.acceptOk = true) (xdata : Bytes) (d : Daemon)
    (p : Proc) :
    ForkFails xdata d t ↔
      serveClient (daemonCheck xdata { d with proc := p } t).1.1
        (daemonCheck xdata { d with proc := p } t).1.2 t.read t.forkOk = .forkFailed := by
  have htrusted := daemonCheck_trusted_iff xdata { d with proc := p } t
  rw [serveClient_eq_forkFailed_iff, htrusted]
  constructor
  · intro h
    exact ⟨⟨h.named, h.signed⟩, h.request, h.forkOk⟩
  · rintro ⟨⟨hnamed, hsigned⟩, hrequest, hfork⟩
    exact ⟨hacc, hnamed, hsigned, hrequest, hfork⟩

/-- A turn leaves the descriptors as they were, or its `fork` fails and the
connection stays open. -/
theorem daemonTurn_fds {xdata : Bytes} {d d' : Daemon} {t : Turn}
    (h : daemonTurn xdata d t = some d') :
    (ForkFails xdata d t ∧ d'.proc.fds = d.proc.fds.alloc.2) ∨
      (¬ ForkFails xdata d t ∧ d'.proc.fds = d.proc.fds) := by
  unfold daemonTurn at h
  cases hacc : t.acceptOk with
  | false =>
      right
      rw [hacc] at h
      constructor
      · intro hfails
        rw [hfails.acceptOk] at hacc
        cases hacc
      · rw [← Option.some.inj h]
  | true =>
      rw [hacc] at h
      simp only [Bool.not_true, Bool.false_eq_true, if_false] at h
      have hfails := forkFails_iff hacc xdata d { d.proc with fds := d.proc.fds.alloc.2 }
      set d₁ : Daemon := { d with proc := { d.proc with fds := d.proc.fds.alloc.2 } }
      have hfds := daemonCheck_fds xdata d₁ t
      -- the socket has the descriptor that was free, and closing it frees it again
      have hclose : ((daemonCheck xdata d₁ t).2.close d.proc.fds.alloc.1).proc.fds =
          d.proc.fds := by
        rw [Daemon.close_fds, hfds]
        exact d.proc.fds.close_alloc
      cases hserve : serveClient (daemonCheck xdata d₁ t).1.1 (daemonCheck xdata d₁ t).1.2
          t.read t.forkOk with
      | forkFailed =>
          left
          simp only [hserve] at h
          rw [← Option.some.inj h, hfds]
          exact ⟨hfails.2 hserve, rfl⟩
      | ping =>
          right
          simp only [hserve] at h
          split_ifs at h
          rw [← Option.some.inj h, hfails, hserve]
          exact ⟨by simp, hclose⟩
      | _ =>
          right
          simp only [hserve] at h
          rw [← Option.some.inj h, hfails, hserve]
          exact ⟨by simp, hclose⟩

/-! ## Runs -/

/-- The steps of the loop. -/
abbrev TurnRel (xdata : Bytes) (d : Daemon) (t : Turn) (d' : Daemon) : Prop :=
  daemonTurn xdata d t = some d'

open Classical in
/-- Every failed `fork` costs one descriptor, for good. -/
theorem card_opened_run {xdata : Bytes} {d d' : Daemon} {tr : List (Daemon × Turn)}
    (run : Run (TurnRel xdata) d tr d') :
    d'.proc.fds.opened.card =
      d.proc.fds.opened.card + tr.countP fun p => ForkFails xdata p.1 p.2 := by
  induction run with
  | nil => simp
  | @cons d d₁ d' t tr hstep _ ih =>
      rw [ih, List.countP_cons]
      rcases daemonTurn_fds hstep with ⟨hfails, hfds⟩ | ⟨hok, hfds⟩
      · have hcard : d₁.proc.fds.opened.card = d.proc.fds.opened.card + 1 := by
          rw [hfds]
          exact Finset.card_insert_of_notMem d.proc.fds.lowest_notMem
        simp [hcard, hfails]
        omega
      · simp [hfds, hok]

/-- The parent comes back to `accept` each time with exactly the descriptors it
started with, and has closed none of them twice, exactly if no `fork` failed. -/
theorem daemon_descriptors_iff {xdata : Bytes} {d d' : Daemon} {tr : List (Daemon × Turn)}
    (run : Run (TurnRel xdata) d tr d') (hstart : d.proc.fds.misused = false) :
    ((d'.proc.fds.opened = d.proc.fds.opened ∧ d'.proc.fds.misused = false) ∧
        ∀ p ∈ tr, p.1.proc.fds.opened = d.proc.fds.opened ∧ p.1.proc.fds.misused = false) ↔
      ∀ p ∈ tr, ¬ ForkFails xdata p.1 p.2 := by
  constructor
  · rintro ⟨⟨hopened, -⟩, -⟩ p hp hfails
    have hcard := card_opened_run run
    rw [hopened, Nat.left_eq_add, List.countP_eq_zero] at hcard
    exact hcard p hp (by simpa using hfails)
  · intro hok
    refine run.invariant (fun d t => ¬ ForkFails xdata d t)
      (fun d₁ => d₁.proc.fds.opened = d.proc.fds.opened ∧ d₁.proc.fds.misused = false) ?_
      hok ⟨rfl, hstart⟩
    intro d₁ t d₂ hstep hguard hinv
    rcases daemonTurn_fds hstep with ⟨hfails, -⟩ | ⟨-, hfds⟩
    · exact absurd hfails hguard
    · rw [hfds]
      exact hinv

/-- The daemon listening on descriptor 3. -/
def freshDaemon : Daemon := ⟨none, { freshCaller with fds := ⟨{0, 1, 2, 3}, false⟩ }⟩

/-- A trusted client asks for a program, and `fork` fails. -/
def exhausted : Turn where
  acceptOk := true
  pid := 300
  cmdline := some (.data (ascii "com.qihoo360.mobilesafe"))
  check := { silentVerifier with first := ⟨true, true, some 25600⟩ }
  read := .data (ascii "/data/libsu.so")
  forkOk := false
  peerGone := false

theorem exhausted_forkFails : ForkFails (encodeText []) freshDaemon exhausted where
  acceptOk := rfl
  named := by decide
  signed := by decide
  request := ⟨_, _, rfl, by decide⟩
  forkOk := rfl

/-- It is back at `accept` with one descriptor more. -/
theorem exhausted_keeps_socket :
    ∃ d', Run (TurnRel (encodeText [])) freshDaemon [(freshDaemon, exhausted)] d' ∧
      d'.proc.fds.opened ≠ freshDaemon.proc.fds.opened := by
  cases hturn : daemonTurn (encodeText []) freshDaemon exhausted with
  | none =>
      exact absurd hturn (by decide)
  | some d' =>
      have run : Run (TurnRel (encodeText [])) freshDaemon [(freshDaemon, exhausted)] d' :=
        .cons hturn (.nil d')
      refine ⟨d', run, ?_⟩
      rcases daemonTurn_fds hturn with ⟨-, hfds⟩ | ⟨hok, -⟩
      · rw [hfds]
        intro hopened
        apply freshDaemon.proc.fds.alloc_notMem
        rw [← hopened]
        exact freshDaemon.proc.fds.mem_alloc
      · exact absurd exhausted_forkFails hok

/-- The same client, with a child to serve it. -/
def launched : Turn := { exhausted with forkOk := true }

theorem launched_closes_socket :
    ∃ d', Run (TurnRel (encodeText [])) freshDaemon [(freshDaemon, launched)] d' ∧
      d'.proc.fds.opened = {0, 1, 2, 3} ∧ d'.proc.fds.misused = false := by
  cases hturn : daemonTurn (encodeText []) freshDaemon launched with
  | none =>
      exact absurd hturn (by decide)
  | some d' =>
      have run : Run (TurnRel (encodeText [])) freshDaemon [(freshDaemon, launched)] d' :=
        .cons hturn (.nil d')
      refine ⟨d', run, ((daemon_descriptors_iff run rfl).2 ?_).1⟩
      intro p hp hfails
      rw [List.mem_singleton.1 hp] at hfails
      exact absurd hfails.forkOk (by decide)

end Su.Rtdaemon
