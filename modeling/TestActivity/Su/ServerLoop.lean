import TestActivity.Lib.Transition
import TestActivity.Su.Accept
import TestActivity.Su.RunServer
import TestActivity.Su.System

/-!
# The loop of `run_server`

One turn of the main process: `wait_event`, `socket_accept` with the signature
check, the request, and the fork of `handle_request`. The turn carries the list
of trusted users, the jar, and the process state, in which every path opens and
closes its descriptors.

`descriptors_kept` follows the descriptors over a whole run: they are the same
each time the loop is back at `wait_event`, and none was closed twice.
-/

namespace Su

open Descriptors Transition

/-- What the main process keeps from turn to turn. -/
structure Server where
  userList : List Uid
  /-- the file at `jar_path` -/
  jar : Option Bytes
  proc : Proc

/-- `close(fd)`. -/
def Server.close (s : Server) (fd : ℕ) : Server := { s with proc := s.proc.close fd }

/-- What `wait_event` returns. -/
inductive WaitResult where
  /-- 0 -/
  | nothing
  /-- 1 -/
  | client
  /-- 2, and whether the events show that the watched package is gone -/
  | watch (uninstall : Bool)
deriving DecidableEq, Repr

/-- The outcomes of the calls in one turn. -/
structure Turn where
  wait : WaitResult
  attempt : Attempt
  check : CheckRun
  /-- the reads of the request -/
  reads : List ReadResult
  /-- `fork` succeeds -/
  forkOk : Bool

/-- `socket_accept`: the descriptor that is returned, if any. -/
def socketAcceptIn (xdata jarPath : Bytes) (s : Server) (t : Turn) : Option ℕ × Server :=
  if !t.attempt.acceptOk then (none, s)
  else
    let (fd, fds) := s.proc.fds.alloc
    let s := { s with proc := { s.proc with fds := fds } }
    match t.attempt.peer with
    | none => (none, s.close fd)
    | some uid =>
        if uid = aidRoot then (some fd, s)
        -- a listed uid is not checked again
        else if 0 ≤ findUser s.userList uid then (some fd, s)
        else
          let ((jar, answer), proc) := checksignatureIn xdata jarPath s.jar t.check s.proc
          let s := { s with jar := jar, proc := proc }
          if answer = 0 then
            (some fd, { s with userList := addUser s.userList uid t.attempt.mallocOk })
          else (none, s.close fd)

/-- The turn behind `socket_accept`; `none` if the process exits or goes on
waiting for the request. -/
def serveIn (s : Server) (fd : ℕ) (t : Turn) : Option Server :=
  match serveClient t.reads with
  | none => none
  | some .unread => some (s.close fd)
  | some (.served .terminate _) => none
  | some (.served .ping _) => some (s.close fd)
  | some (.served .getversion _) => some (s.close fd)
  | some (.served .handle _) =>
      -- the parent closes its copy, whether or not there is a child
      if t.forkOk then some (s.close fd) else some (s.close fd)

/-- One turn of `while(1)`; `none` if it does not come back to `wait_event`.
`selresult` is never assigned, so a temporary server does not give up. -/
def serverTurn (xdata jarPath : Bytes) (s : Server) (t : Turn) : Option Server :=
  match t.wait with
  | .nothing => some s
  | .watch uninstall => if uninstall then none else some s
  | .client =>
      match socketAcceptIn xdata jarPath s t with
      | (none, s) => some s
      | (some fd, s) => serveIn s fd t

/-! ## The list and the answer -/

/-- What `checksignature` answers in a turn. -/
def Turn.answer (xdata : Bytes) (s : Server) (t : Turn) : ℤ :=
  (checksignature xdata s.jar t.check.ops
    ⟨fun _ => t.check.first.status, fun _ => t.check.second.status⟩).2

/-- Without the process state it is `socketAccept`. -/
theorem socketAcceptIn_value (xdata jarPath : Bytes) (s : Server) (t : Turn) :
    ((socketAcceptIn xdata jarPath s t).2.userList, (socketAcceptIn xdata jarPath s t).1.isSome) =
      socketAccept s.userList (fun _ => t.answer xdata s) t.attempt := by
  unfold socketAcceptIn socketAccept Turn.answer
  cases hok : t.attempt.acceptOk with
  | false => rfl
  | true =>
      cases hpeer : t.attempt.peer with
      | none => rfl
      | some uid =>
          simp only [Bool.not_true, Bool.false_eq_true, if_false, checksignatureIn_value]
          split_ifs <;> rfl

/-! ## The descriptors -/

@[simp] theorem close_fds (s : Server) (fd : ℕ) : (s.close fd).proc.fds = s.proc.fds.close fd := rfl

/-- `socket_accept` closes what it does not return, and returns the only
descriptor it leaves open. -/
theorem socketAcceptIn_fds (xdata jarPath : Bytes) (s : Server) (t : Turn) :
    match socketAcceptIn xdata jarPath s t with
    | (none, s') => s'.proc.fds = s.proc.fds
    | (some fd, s') => s'.proc.fds.close fd = s.proc.fds := by
  unfold socketAcceptIn
  cases hok : t.attempt.acceptOk with
  | false => rfl
  | true =>
      cases hpeer : t.attempt.peer with
      | none => simp
      | some uid =>
          simp only [Bool.not_true, Bool.false_eq_true, if_false]
          split_ifs <;> simp

/-- Behind `socket_accept` every path that comes back closes the connection. -/
theorem serveIn_fds {s s' : Server} {fd : ℕ} {t : Turn} (h : serveIn s fd t = some s') :
    s'.proc.fds = s.proc.fds.close fd := by
  have hs : s' = s.close fd := by
    unfold serveIn at h
    split at h
    · cases h
    · exact (Option.some.inj h).symm
    · cases h
    · exact (Option.some.inj h).symm
    · exact (Option.some.inj h).symm
    · rw [ite_self] at h
      exact (Option.some.inj h).symm
  rw [hs, close_fds]

theorem serverTurn_fds {xdata jarPath : Bytes} {s s' : Server} {t : Turn}
    (h : serverTurn xdata jarPath s t = some s') : s'.proc.fds = s.proc.fds := by
  unfold serverTurn at h
  cases hwait : t.wait with
  | nothing =>
      rw [hwait] at h
      rw [← Option.some.inj h]
  | watch uninstall =>
      rw [hwait] at h
      dsimp only at h
      split_ifs at h
      rw [← Option.some.inj h]
  | client =>
      have hacc := socketAcceptIn_fds xdata jarPath s t
      rw [hwait] at h
      dsimp only at h
      split at h
      · next s₁ heq =>
          rw [heq] at hacc
          rw [← Option.some.inj h]
          exact hacc
      · next fd s₁ heq =>
          rw [heq] at hacc
          rw [serveIn_fds h]
          exact hacc

/-- The steps of the loop. -/
abbrev TurnRel (xdata jarPath : Bytes) (s : Server) (t : Turn) (s' : Server) : Prop :=
  serverTurn xdata jarPath s t = some s'

/-- In every run, each time the main process is at `wait_event` it has exactly
the descriptors open it had the first time, and none was closed twice. -/
theorem descriptors_kept {xdata jarPath : Bytes} {s s' : Server} {tr : List (Server × Turn)}
    (run : Run (TurnRel xdata jarPath) s tr s') (hstart : s.proc.fds.misused = false) :
    (s'.proc.fds.opened = s.proc.fds.opened ∧ s'.proc.fds.misused = false) ∧
      ∀ p ∈ tr, p.1.proc.fds.opened = s.proc.fds.opened ∧ p.1.proc.fds.misused = false := by
  refine run.invariant (fun _ _ => True)
    (fun s₁ => s₁.proc.fds.opened = s.proc.fds.opened ∧ s₁.proc.fds.misused = false) ?_
    (fun _ _ => trivial) ⟨rfl, hstart⟩
  intro s₁ t s₂ hstep _ hinv
  rw [serverTurn_fds hstep]
  exact hinv

/-- A server before its first client. -/
def freshServer : Server := ⟨[], none, freshCaller⟩

/-- A connection from root, with a ping. -/
def rootPing : Turn where
  wait := .client
  attempt := ⟨true, some aidRoot, true⟩
  check := silentVerifier
  reads := [.data (ascii "\n")]
  forkOk := true

/-- An app that is not listed: the jar is written, the verifier prints 100 in its second
run, and the request gets a child. -/
def appRequest : Turn where
  wait := .client
  attempt := ⟨true, some 10068, true⟩
  check := { silentVerifier with second := ⟨true, true, true, fun _ => true, .data (ascii "100")⟩ }
  reads := [.error .eintr, .data rmRequest.encode]
  forkOk := true

/-- The app is served and listed, a ping behind it is answered, and nothing stays
open. -/
theorem descriptors_kept_appRequest :
    ∃ s₁ s₂, Run (TurnRel (encodeText [80, 75]) (ascii "/data/auth.jar")) freshServer
        [(freshServer, appRequest), (s₁, rootPing)] s₂ ∧
      s₂.userList = [10068] ∧ s₂.proc.fds.opened = {0, 1, 2} ∧ s₂.proc.fds.misused = false := by
  have run : Run (TurnRel (encodeText [80, 75]) (ascii "/data/auth.jar")) freshServer
      [(freshServer, appRequest), (_, rootPing)] _ :=
    .cons (show serverTurn _ _ freshServer appRequest = some _ from rfl)
      (.cons (show serverTurn _ _ _ rootPing = some _ from rfl) (.nil _))
  exact ⟨_, _, run, rfl, (descriptors_kept run rfl).1⟩

end Su
