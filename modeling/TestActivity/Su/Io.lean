import Mathlib.Tactic.Common

/-!
# Bytes and the retrying read

`readx` of `suutil.c` wraps `read`: an `EINTR` or `EAGAIN` is retried,
everything else is returned as it is. In particular a short count is
returned, not continued.

The kernel is a list of results, one for each call in order. A call that has
used up the list without an answer is still in its loop (`none`).
-/

namespace Su

/-- `char` is unsigned on the ABIs the build selects. -/
abbrev Bytes := List UInt8

/-- The bytes of a C string literal. -/
def ascii (s : String) : Bytes := s.toList.map fun c => c.toNat.toUInt8

/-- The values of `errno` the wrapper tells apart. -/
inductive Errno where
  | eintr
  | eagain
  | other
deriving DecidableEq, Repr

/-- What one `read` does: store a non-empty run of bytes, report the end of
the stream, or fail. -/
inductive ReadResult where
  | data (bs : Bytes)
  | eof
  | error (e : Errno)
deriving DecidableEq, Repr

/-- `readx`: the first result that is not a retryable error. -/
def readx : List ReadResult → Option ReadResult
  | [] => none
  | .error .eintr :: rs => readx rs
  | .error .eagain :: rs => readx rs
  | r :: _ => some r

/-- The errors after which the wrapper goes round its loop again. -/
def Retryable (e : Errno) : Prop := e = .eintr ∨ e = .eagain

/-- Retryable errors in front of an answer do not change it. -/
theorem readx_retry {es : List Errno} (hes : ∀ e ∈ es, Retryable e) (rs : List ReadResult) :
    readx (es.map .error ++ rs) = readx rs := by
  induction es with
  | nil => rfl
  | cons e es ih =>
      have ih' := ih fun e' he' => hes e' (by simp [he'])
      rcases hes e (by simp) with rfl | rfl
      · simpa [readx] using ih'
      · simpa [readx] using ih'

end Su
