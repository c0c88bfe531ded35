import TestActivity.Su.RunServer

/-!
# `rtdaemon`

The daemon that `init` starts. A trusted client sends the path of a program,
the number of arguments and the arguments; the daemon answers `"\n"` and
replaces its child by the program. A lone newline is a ping.

The parser is a sibling of the one in `handle_request`: one count, at most 5,
and one byte between the count and the arguments that is skipped unread.
-/

namespace Su.Rtdaemon

open CString

/-- The largest argument count the child accepts. -/
def maxArcnt : ℕ := 5

/-- How the child's reading of the request ends. -/
inductive Parsed where
  /-- `arcnt > 5`: `exit(-1)` -/
  | badCount
  /-- `execv(cmd, params)`, with `char* params[arcnt+2]` -/
  | launch (cmd : Bytes) (arcnt : ℕ) (params : List (Option Bytes))
deriving DecidableEq, Repr

/-- The child's parser; `none` is an access behind the end of `req`. -/
def parse (req : Bytes) : Option Parsed := do
  let cmd ← cstr 0 req
  let offset := cmd.length + 1
  let arcnt ← req[offset]?
  if maxArcnt < arcnt.toNat then
    return .badCount
  else
    let (ps, _) ← cstrs 0 req arcnt.toNat (offset + 2)
    return .launch cmd arcnt.toNat (argvCells ps)

/-- What becomes of an accepted connection. -/
inductive Client where
  /-- the caller's package or signature is not trusted -/
  | untrusted
  /-- `read` returned less than 1 -/
  | unread
  | ping
  /-- the child is forked and parses `req` -/
  | forked (req : Bytes)
  | forkFailed
deriving DecidableEq, Repr

/-- One turn of the daemon's loop behind `accept`. -/
def serveClient (pid360 checksig : ℤ) (read : ReadResult) (forkOk : Bool) : Client :=
  if pid360 ≤ 0 ∨ checksig ≠ 0 then .untrusted
  else
    match read with
    | .data (b :: bs) =>
        let req := fill 0 reqSize (b :: bs)
        if strcmpEq req (ascii "\n") then .ping
        else if forkOk then .forked req else .forkFailed
    | _ => .unread

/-- The arguments start two bytes behind the path: the count and one byte that
nobody reads. -/
theorem drop_args (cmd : Bytes) (n : UInt8) (rest : Bytes) :
    (cmd ++ 0 :: n :: rest).drop (cmd.length + 1 + 2) = rest.drop 1 := by
  rw [← List.drop_drop, drop_head]
  rfl

end Su.Rtdaemon
