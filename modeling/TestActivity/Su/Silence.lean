import TestActivity.Su.Relay
import TestActivity.Su.TempServer

/-!
# Silent peers

`socket_accept` and `handle_request` put a receive timeout of `RW_TIMEOUT`
seconds on their sockets, so that a read on a peer that says nothing fails with
`EAGAIN`. `readx` goes round its loop again after such an error, for ever.

`silent_peer_iff` says for which peers that fall silent a call of `readx`
returns to `run_server` and to the relay loop: for those whose silence begins
behind an answer.
-/

namespace Su

/-- The results after which `readx` goes round its loop again. -/
def Retried (r : ReadResult) : Prop := ∃ e, Retryable e ∧ r = .error e

/-- One step of the loop, for any result. -/
theorem readx_cons (r : ReadResult) (rs : List ReadResult) :
    Retried r ∧ readx (r :: rs) = readx rs ∨ ¬ Retried r ∧ readx (r :: rs) = some r := by
  unfold Retried Retryable
  cases r with
  | data bs => exact Or.inr ⟨by simp, rfl⟩
  | eof => exact Or.inr ⟨by simp, rfl⟩
  | error e =>
      cases e with
      | eintr => exact Or.inl ⟨⟨_, Or.inl rfl, rfl⟩, rfl⟩
      | eagain => exact Or.inl ⟨⟨_, Or.inr rfl, rfl⟩, rfl⟩
      | other => exact Or.inr ⟨by simp, rfl⟩

/-- `readx` is in its loop as long as every result is retried. -/
theorem readx_eq_none_iff {rs : List ReadResult} : readx rs = none ↔ ∀ r ∈ rs, Retried r := by
  induction rs with
  | nil => simp [readx]
  | cons r rs ih =>
      rw [List.forall_mem_cons]
      rcases readx_cons r rs with ⟨hretried, hnext⟩ | ⟨hretried, hnext⟩
      · rw [hnext, ih]
        constructor
        · intro h
          exact ⟨hretried, h⟩
        · intro h
          exact h.2
      · rw [hnext]
        constructor
        · intro h
          cases h
        · intro h
          exact absurd h.1 hretried

/-- `run_server` has nothing to serve while `readx` is in its loop. -/
theorem serveClient_eq_none_iff {reads : List ReadResult} :
    serveClient reads = none ↔ readx reads = none := by
  unfold serveClient
  split <;> simp_all

/-! ## One turn of the relay loop -/

/-- Where a turn of the relay loop ends: outside the loop, or in front of the
next `readx` with the new `totalLen`. -/
inductive RelayTurn where
  | left (e : RelayEnd)
  | again (totalLen : ℕ)
deriving DecidableEq, Repr

/-- One turn on the results of the reads, with the outcome of `writex` and the
seconds that have passed; `none` while `readx` has not returned. -/
def relayTurn (accepted : Option ℕ) (elapsed : ℤ) (totalLen : ℕ) (reads : List ReadResult) :
    Option RelayTurn :=
  match readx reads with
  | none => none
  | some .eof => some (.left .eof)
  | some (.error _) => some (.left .eof)
  | some (.data []) => some (.left .eof)
  | some (.data bs) =>
      match accepted with
      | none => some (.left .writeFailed)
      | some _ =>
          if maxOutputBytes < totalLen + bs.length ∨ maxStreamExecTimeout < elapsed then
            some (.left .capped)
          else some (.again (totalLen + bs.length))

/-- The turn is `none` exactly while `readx` is in its loop. -/
theorem relayTurn_eq_none_iff {accepted : Option ℕ} {elapsed : ℤ} {totalLen : ℕ}
    {reads : List ReadResult} :
    relayTurn accepted elapsed totalLen reads = none ↔ readx reads = none := by
  unfold relayTurn
  split
  · next h => simp [h]
  · next h => simp [h]
  · next h => simp [h]
  · next h => simp [h]
  · next h =>
      rw [h]
      split
      · simp
      · split_ifs <;> simp

/-- A turn of `relayLoop`, seen from its reads. -/
theorem relayTurn_round (r : Round UInt8) (totalLen : ℕ) {reads : List ReadResult}
    (hread : readx reads = some (.data r.chunk)) (markOk : Bool) (rs : List (Round UInt8)) :
    ∃ turn, relayTurn r.accepted r.elapsed totalLen reads = some turn ∧
      (relayLoop 0 markOk totalLen (r :: rs)).2 =
        match turn with
        | .left e => e
        | .again total => (relayLoop 0 markOk total rs).2 := by
  have hturn : relayTurn r.accepted r.elapsed totalLen reads =
      match r.accepted with
      | none => some (.left .writeFailed)
      | some _ =>
          if CapHit (totalLen + r.chunk.length) r then some (.left .capped)
          else some (.again (totalLen + r.chunk.length)) := by
    unfold relayTurn
    rw [hread]
    cases hchunk : r.chunk with
    | nil => exact absurd hchunk r.chunk_ne
    | cons b bs => rfl
  rw [hturn, relayLoop]
  cases r.accepted with
  | none => exact ⟨.left .writeFailed, rfl, rfl⟩
  | some n =>
      dsimp only
      by_cases hcap : CapHit (totalLen + r.chunk.length) r
      · rw [if_pos hcap, if_pos hcap]
        exact ⟨.left .capped, rfl, rfl⟩
      · rw [if_neg hcap, if_neg hcap]
        exact ⟨.again _, rfl, rfl⟩

/-! ## Peers that fall silent -/

/-- A peer that says nothing from some read on: every further read times out. -/
structure SilentPeer where
  /-- the results of the reads of one call of `readx`, in order -/
  reads : ℕ → ReadResult
  silentFrom : ℕ
  silent : ∀ i, silentFrom ≤ i → reads i = .error .eagain

namespace SilentPeer

/-- The first `n` results. -/
def first (p : SilentPeer) (n : ℕ) : List ReadResult := (List.range n).map p.reads

/-- The peer does not hold anybody up: after finitely many reads `readx`
returns, `run_server` is past the request of this client, and the relay loop is
past its `readx`. -/
structure Passed (p : SilentPeer) : Prop where
  returned : ∃ n r, readx (p.first n) = some r
  server : ∀ (s : ServerRun) (fd : ℕ) (t : Turn), s.progress = .waiting →
    ∃ n, (serveRun s fd { t with reads := p.first n }).progress ≠ .reading
  relay : ∀ accepted elapsed totalLen, ∃ n turn,
    relayTurn accepted elapsed totalLen (p.first n) = some turn

variable {p : SilentPeer}

/-- `readx` returns exactly when something came before the silence. -/
theorem returned_iff :
    (∃ n r, readx (p.first n) = some r) ↔ ∃ i < p.silentFrom, ¬ Retried (p.reads i) := by
  constructor
  · intro h
    rcases h with ⟨n, r, hread⟩
    -- otherwise every result of the beginning is retried, before and in the silence
    by_contra hsilent
    push Not at hsilent
    have hall : ∀ r ∈ p.first n, Retried r := by
      intro r hr
      rcases List.mem_map.1 hr with ⟨i, -, rfl⟩
      rcases Nat.lt_or_ge i p.silentFrom with hi | hi
      · exact hsilent i hi
      · exact ⟨.eagain, Or.inr rfl, p.silent i hi⟩
    rw [readx_eq_none_iff.2 hall] at hread
    cases hread
  · intro h
    rcases h with ⟨i, -, hanswer⟩
    have hread : readx (p.first (i + 1)) ≠ none := by
      intro hnone
      have hmem : p.reads i ∈ p.first (i + 1) := List.mem_map.2 ⟨i, by simp, rfl⟩
      exact hanswer (readx_eq_none_iff.1 hnone _ hmem)
    rcases Option.ne_none_iff_exists'.1 hread with ⟨r, hr⟩
    exact ⟨i + 1, r, hr⟩

/-- The callers get on when `readx` returns. -/
theorem Passed.of_returned (h : ∃ n r, readx (p.first n) = some r) : p.Passed := by
  refine ⟨h, ?_, ?_⟩
  · intro s fd t hwait
    rcases h with ⟨n, r, hread⟩
    refine ⟨n, ?_⟩
    rw [Ne, serveRun_reading_iff hwait, serveClient_eq_none_iff, hread]
    simp
  · intro accepted elapsed totalLen
    rcases h with ⟨n, r, hread⟩
    have hturn : relayTurn accepted elapsed totalLen (p.first n) ≠ none := by
      rw [Ne, relayTurn_eq_none_iff, hread]
      simp
    rcases Option.ne_none_iff_exists'.1 hturn with ⟨turn, hturn⟩
    exact ⟨n, turn, hturn⟩

end SilentPeer

/-- A peer that falls silent holds nobody up exactly when one of the results in
front of its silence is not an `EINTR` or `EAGAIN`. -/
theorem silent_peer_iff (p : SilentPeer) :
    p.Passed ↔ ∃ i < p.silentFrom, ¬ Retried (p.reads i) := by
  constructor
  · intro h
    exact SilentPeer.returned_iff.1 h.returned
  · intro h
    exact SilentPeer.Passed.of_returned (SilentPeer.returned_iff.2 h)

/-- A client that connects and never sends anything. -/
def neverSends : SilentPeer where
  reads := fun _ => .error .eagain
  silentFrom := 0
  silent := fun _ _ => rfl

/-- `readx` does not return from it. -/
theorem not_silent_peer : ¬ ∀ p : SilentPeer, p.Passed := by
  intro h
  rcases SilentPeer.returned_iff.1 (h neverSends).returned with ⟨i, hi, -⟩
  exact absurd hi (Nat.not_lt_zero i)

end Su
