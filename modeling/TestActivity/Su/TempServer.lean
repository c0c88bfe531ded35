import TestActivity.Su.ServerLoop

/-!
# Temporary servers

`run_server` is started for the permanent socket or for a temporary one with a
random name. Only a temporary server may give up by itself: behind a failed
`socket_accept` it closes its socket, waits for its children and exits if
`selresult` is 0.

The loop is that of `ServerLoop`, with the type, `selresult` and the ways it
ends. `select` is called in `wait_event`; the one in `socket_accept`, which
would set `selresult`, is commented out. `temp_server_closes_iff` says in which
runs a temporary server leaves no idle timeout unanswered.
-/

namespace Su

open Transition

/-! ## The loop with its exits -/

/-- `sock_type`. -/
inductive SockType where
  | SOCKET_PERMANENT
  | SOCKET_TEMP
deriving DecidableEq, Repr

/-- What `select` does in `wait_event`: nothing happens for 30 seconds, it
fails, or descriptors are ready, the listening socket or the watch. -/
inductive Select where
  | timedOut
  | failed
  | ready (client : Bool) (watch : Option Bool)
deriving DecidableEq, Repr

/-- `wait_event`. -/
def waitEvent : Select → WaitResult
  | .timedOut => .nothing
  | .failed => .nothing
  | .ready true _ => .client
  | .ready false (some uninstall) => .watch uninstall
  | .ready false none => .nothing

/-- The outcomes of the calls in one turn. -/
structure LoopTurn where
  select : Select
  attempt : Attempt
  check : CheckRun
  reads : List ReadResult
  forkOk : Bool

/-- The turn without its `select`. -/
def LoopTurn.toTurn (t : LoopTurn) : Turn where
  wait := waitEvent t.select
  attempt := t.attempt
  check := t.check
  reads := t.reads
  forkOk := t.forkOk

/-- The wait ended without a client or an event. -/
def LoopTurn.Idle (t : LoopTurn) : Prop := t.select = .timedOut

/-- Where the main process is. -/
inductive Progress where
  /-- in front of `wait_event` -/
  | waiting
  /-- in `readx`, without an answer -/
  | reading
  /-- the watched package is gone -/
  | uninstalled
  /-- a temporary server that gave up -/
  | timedOut
  /-- a client asked for it -/
  | terminated
deriving DecidableEq, Repr

/-- The variables of `run_server`, whether `sserv_fd` is open, and whether all
children have been waited for. -/
structure ServerRun where
  type : SockType
  server : Server
  selresult : ℤ
  listening : Bool
  waitedFor : Bool
  progress : Progress

/-- In front of the loop. -/
def ServerRun.start (type : SockType) (server : Server) : ServerRun where
  type := type
  server := server
  selresult := -1
  listening := true
  waitedFor := false
  progress := .waiting

/-- `socket_accept` with its third parameter, which it leaves alone. -/
def socketAcceptSel (xdata jarPath : Bytes) (s : Server) (t : Turn) (selresult : ℤ) :
    Option ℕ × Server × ℤ :=
  let (fd, s) := socketAcceptIn xdata jarPath s t
  (fd, s, selresult)

/-- The turn behind `socket_accept`. -/
def serveRun (s : ServerRun) (fd : ℕ) (t : Turn) : ServerRun :=
  match serveClient t.reads with
  | none => { s with progress := .reading }
  | some (.served .terminate _) =>
      { s with server := s.server.close fd, listening := false, progress := .terminated }
  | some .unread => { s with server := s.server.close fd }
  | some (.served .ping _) => { s with server := s.server.close fd }
  | some (.served .getversion _) => { s with server := s.server.close fd }
  | some (.served .handle _) => { s with server := s.server.close fd }

/-- One turn of `while(1)`. -/
def loopTurn (xdata jarPath : Bytes) (s : ServerRun) (t : LoopTurn) : ServerRun :=
  match waitEvent t.select with
  | .watch true => { s with listening := false, waitedFor := true, progress := .uninstalled }
  | .watch false => s
  | .nothing => s
  | .client =>
      let (fd, server, selresult) :=
        socketAcceptSel xdata jarPath s.server t.toTurn s.selresult
      let s := { s with server := server, selresult := selresult }
      match fd with
      | none =>
          if s.type = .SOCKET_TEMP ∧ s.selresult = 0 then
            { s with listening := false, waitedFor := true, progress := .timedOut }
          else s
      | some fd => serveRun s fd t.toTurn

/-- The steps of a server that is still in its loop. -/
def LoopRel (xdata jarPath : Bytes) (s : ServerRun) (t : LoopTurn) (s' : ServerRun) : Prop :=
  s.progress = .waiting ∧ loopTurn xdata jarPath s t = s'

variable {xdata jarPath : Bytes} {s s' : ServerRun} {t : LoopTurn}

/-! ## What a turn does -/

theorem serveRun_kept (fd : ℕ) (t : Turn) :
    (serveRun s fd t).selresult = s.selresult ∧
      (s.progress = .waiting → (serveRun s fd t).progress ≠ .timedOut) := by
  unfold serveRun
  split <;> simp +contextual

/-- The process is held up in `readx` while there is no answer to serve. -/
theorem serveRun_reading_iff (hwait : s.progress = .waiting) {fd : ℕ} {t : Turn} :
    (serveRun s fd t).progress = .reading ↔ serveClient t.reads = none := by
  unfold serveRun
  split <;> simp_all

/-- Behind `socket_accept` it is the turn of `ServerLoop`. -/
theorem serveRun_eq (hwait : s.progress = .waiting) (fd : ℕ) (t : Turn) :
    serveIn s.server fd t =
      if (serveRun s fd t).progress = .waiting then some (serveRun s fd t).server else none := by
  unfold serveIn serveRun
  split <;> simp_all

/-- `selresult` keeps its -1, and so nobody gives up. -/
theorem loopTurn_kept (hwait : s.progress = .waiting) (hsel : s.selresult = -1) :
    (loopTurn xdata jarPath s t).selresult = -1 ∧
      (loopTurn xdata jarPath s t).progress ≠ .timedOut := by
  unfold loopTurn
  split
  · exact ⟨hsel, by simp⟩
  · exact ⟨hsel, by simp [hwait]⟩
  · exact ⟨hsel, by simp [hwait]⟩
  · unfold socketAcceptSel
    dsimp only
    split
    · -- `selresult == 0` fails for either type
      have hgive : ¬ (s.type = .SOCKET_TEMP ∧ s.selresult = 0) := by
        intro h
        omega
      rw [if_neg hgive]
      exact ⟨hsel, by simp [hwait]⟩
    · next fd _ =>
        rcases serveRun_kept (s := { s with server := _, selresult := s.selresult }) fd t.toTurn
          with ⟨hkept, hprogress⟩
        exact ⟨hkept.trans hsel, hprogress hwait⟩

/-- An idle timeout changes nothing. -/
theorem loopTurn_idle (h : t.Idle) : loopTurn xdata jarPath s t = s := by
  unfold loopTurn
  rw [h]
  rfl

/-- While it goes on, the turn is that of `ServerLoop`. -/
theorem serverTurn_eq (hwait : s.progress = .waiting) (hsel : s.selresult = -1) :
    serverTurn xdata jarPath s.server t.toTurn =
      if (loopTurn xdata jarPath s t).progress = .waiting then
        some (loopTurn xdata jarPath s t).server
      else none := by
  unfold serverTurn loopTurn
  rw [show t.toTurn.wait = waitEvent t.select from rfl]
  split
  · next hw => simp [hw, hwait]
  · next uninstall hw =>
      cases uninstall with
      | true => simp [hw]
      | false => simp [hw, hwait]
  · next hw =>
      rw [hw]
      unfold socketAcceptSel
      dsimp only
      split
      · next server hacc =>
          rw [hacc]
          simp [hsel, hwait]
      · next fd server hacc =>
          rw [hacc]
          exact serveRun_eq (s := { s with server := server }) hwait fd t.toTurn

/-- A run that is still in the loop is a run of `ServerLoop`. -/
theorem loopRun_serverRun {tr : List (ServerRun × LoopTurn)}
    (run : Run (LoopRel xdata jarPath) s tr s') (hsel : s.selresult = -1)
    (hend : s'.progress = .waiting) :
    Run (TurnRel xdata jarPath) s.server (tr.map fun p => (p.1.server, p.2.toTurn)) s'.server := by
  induction run with
  | nil => exact .nil _
  | @cons s s₁ s₂ t tr hstep run ih =>
      rcases hstep with ⟨hwait, rfl⟩
      have hkept : (loopTurn xdata jarPath s t).selresult = -1 := (loopTurn_kept hwait hsel).1
      -- the next step was taken in front of `wait_event`, or this was the last
      have hnext : (loopTurn xdata jarPath s t).progress = .waiting := by
        cases run with
        | nil => exact hend
        | cons hstep _ => exact hstep.1
      have hturn : TurnRel xdata jarPath s.server t.toTurn (loopTurn xdata jarPath s t).server := by
        unfold TurnRel
        rw [serverTurn_eq hwait hsel, if_pos hnext]
      exact .cons hturn (ih hkept hend)

/-! ## Idle timeouts -/

/-- The socket is closed, the children have been waited for, and the process
has left its loop. -/
structure ServerRun.Exited (s : ServerRun) : Prop where
  closed : s.listening = false
  waitedFor : s.waitedFor = true
  left : s.progress ≠ .waiting ∧ s.progress ≠ .reading

/-- Every idle timeout of the run was followed by the exit. -/
def ClosesWhenIdle (xdata jarPath : Bytes) (tr : List (ServerRun × LoopTurn)) : Prop :=
  ∀ p ∈ tr, p.2.Idle → ∀ s', LoopRel xdata jarPath p.1 p.2 s' → s'.Exited

/-- Behind an idle timeout the server is in front of `wait_event` again. -/
theorem stays_of_idle {start : ServerRun} {tr : List (ServerRun × LoopTurn)}
    (run : Run (LoopRel xdata jarPath) start tr s') {p : ServerRun × LoopTurn} (hp : p ∈ tr)
    (hidle : p.2.Idle) : ¬ ∀ s', LoopRel xdata jarPath p.1 p.2 s' → s'.Exited := by
  intro hexit
  rcases List.append_of_mem hp with ⟨before, after, rfl⟩
  -- a step is only taken in front of `wait_event`
  rcases run.split with ⟨-, _, ⟨hwait, -⟩, -⟩
  have hleft := (hexit p.1 ⟨hwait, loopTurn_idle hidle⟩).left.1
  exact hleft hwait

/-- In every run of a temporary server each idle timeout is followed by the
exit exactly when there is none; and no run ends with the exit behind
`socket_accept`, whatever happens in it. -/
theorem temp_server_closes_iff {server : Server} {tr : List (ServerRun × LoopTurn)}
    (run : Run (LoopRel xdata jarPath) (ServerRun.start .SOCKET_TEMP server) tr s') :
    (ClosesWhenIdle xdata jarPath tr ↔ ∀ p ∈ tr, ¬ p.2.Idle) ∧ s'.progress ≠ .timedOut := by
  constructor
  · constructor
    · intro hcloses p hp hidle
      exact stays_of_idle run hp hidle (hcloses p hp hidle)
    · intro hbusy p hp hidle
      exact absurd hidle (hbusy p hp)
  · have hinv := run.stable (fun s => s.selresult = -1 ∧ s.progress ≠ .timedOut)
      (fun s t s' hstep hinv => by
        rcases hstep with ⟨hwait, rfl⟩
        exact loopTurn_kept hwait hinv.1)
      ⟨rfl, by simp [ServerRun.start]⟩
    exact hinv.2

/-- A turn in which nobody connects for 30 seconds. -/
def idleTurn : LoopTurn where
  select := .timedOut
  attempt := ⟨false, none, false⟩
  check := silentVerifier
  reads := []
  forkOk := false

/-- A temporary server after its first idle timeout. -/
theorem idleTurn_run : Run (LoopRel [] []) (ServerRun.start .SOCKET_TEMP freshServer)
    [(ServerRun.start .SOCKET_TEMP freshServer, idleTurn)]
    (ServerRun.start .SOCKET_TEMP freshServer) :=
  .cons ⟨rfl, loopTurn_idle rfl⟩ (.nil _)

/-- It does not close, and goes on waiting for clients. -/
theorem temp_server_closes_iff_idle :
    ¬ ClosesWhenIdle [] [] [(ServerRun.start .SOCKET_TEMP freshServer, idleTurn)] := by
  intro hcloses
  have hbusy := (temp_server_closes_iff idleTurn_run).1.1 hcloses
  exact hbusy _ List.mem_cons_self rfl

/-- Not every idle timeout of every run is followed by the exit. -/
theorem not_temp_server_closes :
    ¬ ∀ (xdata jarPath : Bytes) (server : Server) (tr : List (ServerRun × LoopTurn))
        (s' : ServerRun),
      Run (LoopRel xdata jarPath) (ServerRun.start .SOCKET_TEMP server) tr s' →
        ClosesWhenIdle xdata jarPath tr := by
  intro h
  have hcloses := h [] [] freshServer _ _ idleTurn_run
  exact stays_of_idle idleTurn_run List.mem_cons_self rfl (hcloses _ List.mem_cons_self rfl)

end Su
