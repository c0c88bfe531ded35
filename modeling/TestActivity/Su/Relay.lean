import Mathlib.Data.List.Enum
import Mathlib.Data.Int.Basic
import Mathlib.Data.Option.Basic
import TestActivity.Lib.Transfer
import TestActivity.Su.Io

/-!
# The relay loop

`handle_request` copies the command's stdout to the client: read up to 4096
bytes, write them, stop when more than `MAX_OUTPUT_BYTES` were read or more
than `MAX_STREAM_EXEC_TIMEOUT` seconds have passed.

`writex` may return a short count. The loop only looks at its sign, so the
rest of the chunk is dropped. `relay_delivers_iff` says exactly which runs
still deliver the command's output.

The loop never looks at the bytes, so it is generic in them. The statements
about the stream use bytes that carry their position in it.
-/

namespace Su

open Transfer

/-- `MAX_OUTPUT_BYTES`. -/
def maxOutputBytes : ℕ := 1024 * 1024

/-- `MAX_STREAM_EXEC_TIMEOUT`, in seconds. -/
def maxStreamExecTimeout : ℤ := 90

/-- `sizeof(transferbuff)`. -/
def transferSize : ℕ := 4096

/-- One turn of the loop: the bytes `readx` returned, what `writex` returned
for them (`none`: a negative number), and `end.tv_sec-start.tv_sec` after it. -/
structure Round (α : Type*) where
  chunk : List α
  accepted : Option ℕ
  elapsed : ℤ
  chunk_ne : chunk ≠ []
  chunk_le : chunk.length ≤ transferSize
  accepted_bounds : ∀ n, accepted = some n → 0 < n ∧ n ≤ chunk.length

/-- Why the loop was left: `readx` returned 0 or less, `writex` failed, or a
cap was hit. -/
inductive RelayEnd where
  | eof
  | writeFailed
  | capped
deriving DecidableEq, Repr

variable {α : Type*}

/-- `totalLen>MAX_OUTPUT_BYTES||(end.tv_sec-start.tv_sec)>MAX_STREAM_EXEC_TIMEOUT` -/
def CapHit (totalLen : ℕ) (r : Round α) : Prop :=
  maxOutputBytes < totalLen ∨ maxStreamExecTimeout < r.elapsed

instance (totalLen : ℕ) (r : Round α) : Decidable (CapHit totalLen r) :=
  inferInstanceAs (Decidable (_ ∨ _))

theorem not_capHit_iff {totalLen : ℕ} {r : Round α} :
    ¬ CapHit totalLen r ↔ totalLen ≤ maxOutputBytes ∧ r.elapsed ≤ maxStreamExecTimeout := by
  simp [CapHit]

/-- The loop from the moment `totalLen` bytes were read: what the client
receives, and why the loop was left. `endMark` is the byte of `writex(fd,"",1)`,
`markOk` whether that write reached the client. -/
def relayLoop (endMark : α) (markOk : Bool) (totalLen : ℕ) : List (Round α) → List α × RelayEnd
  | [] => ([], .eof)
  | r :: rs =>
      match r.accepted with
      | none => ([], .writeFailed)
      | some n =>
          -- only a negative count is looked at: what is behind `n` is dropped
          let totalLen := totalLen + r.chunk.length
          if CapHit totalLen r then
            (r.chunk.take n ++ if markOk then [endMark] else [], .capped)
          else
            let (sent, e) := relayLoop endMark markOk totalLen rs
            (r.chunk.take n ++ sent, e)

/-- A turn with other bytes of the same number. -/
def Round.map {β : Type*} (f : α → β) (r : Round α) : Round β where
  chunk := r.chunk.map f
  accepted := r.accepted
  elapsed := r.elapsed
  chunk_ne := by simpa using r.chunk_ne
  chunk_le := by simpa using r.chunk_le
  accepted_bounds := by simpa using r.accepted_bounds

section Map

variable {β : Type*} (f : α → β)

@[simp] theorem Round.map_chunk (r : Round α) : (r.map f).chunk = r.chunk.map f := rfl

@[simp] theorem Round.map_accepted (r : Round α) : (r.map f).accepted = r.accepted := rfl

@[simp] theorem capHit_map {totalLen : ℕ} {r : Round α} :
    CapHit totalLen (r.map f) ↔ CapHit totalLen r := Iff.rfl

/-- The loop does not look at the bytes. -/
theorem relayLoop_map (endMark : α) (markOk : Bool) (totalLen : ℕ) (rs : List (Round α)) :
    relayLoop (f endMark) markOk totalLen (rs.map (Round.map f)) =
      ((relayLoop endMark markOk totalLen rs).1.map f,
        (relayLoop endMark markOk totalLen rs).2) := by
  induction rs generalizing totalLen with
  | nil => rfl
  | cons r rs ih =>
      cases ha : r.accepted with
      | none => simp [relayLoop, ha]
      | some n =>
          by_cases hc : CapHit (totalLen + r.chunk.length) r
          · cases markOk <;> simp [relayLoop, ha, hc, List.map_take]
          · simp [relayLoop, ha, hc, ih, List.map_take]

end Map

/-! ## The loop as a transfer -/

/-- The turns as hand-overs: a cap is a stop of the mover. -/
def offers (totalLen : ℕ) : List (Round α) → List (Offer α)
  | [] => []
  | r :: rs =>
      ⟨r.chunk, r.accepted, decide (CapHit (totalLen + r.chunk.length) r), r.accepted_bounds⟩ ::
        offers (totalLen + r.chunk.length) rs

/-- What the loop reads. -/
def output (rs : List (Round α)) : List α := rs.flatMap Round.chunk

@[simp] theorem output_nil : output ([] : List (Round α)) = [] := rfl

@[simp] theorem output_cons (r : Round α) (rs : List (Round α)) :
    output (r :: rs) = r.chunk ++ output rs := rfl

theorem source_offers (rs : List (Round α)) (totalLen : ℕ) :
    source (offers totalLen rs) = output rs := by
  induction rs generalizing totalLen with
  | nil => rfl
  | cons r rs ih => simp [offers, ih]

/-- The ends of a transfer, in the loop's words. -/
def RelayEnd.ofEnding : Ending → RelayEnd
  | .drained => .eof
  | .failed => .writeFailed
  | .stopped => .capped

/-- The loop is the transfer, followed by the end mark when a cap stopped it. -/
theorem relayLoop_eq (endMark : α) (markOk : Bool) (totalLen : ℕ) (rs : List (Round α)) :
    relayLoop endMark markOk totalLen rs =
      (delivered (offers totalLen rs) ++
        (if ending (offers totalLen rs) = .stopped ∧ markOk then [endMark] else []),
        .ofEnding (ending (offers totalLen rs))) := by
  induction rs generalizing totalLen with
  | nil => simp [relayLoop, offers, ending, RelayEnd.ofEnding]
  | cons r rs ih =>
      cases ha : r.accepted with
      | none => simp [relayLoop, offers, delivered, ending, ha, RelayEnd.ofEnding]
      | some n =>
          by_cases hc : CapHit (totalLen + r.chunk.length) r
          · simp [relayLoop, offers, delivered, ending, ha, hc, RelayEnd.ofEnding]
          · simp [relayLoop, offers, delivered, ending, ha, hc, ih]

/-- The loop left because the output was at its end did not fail on a write. -/
theorem accepted_of_eof {endMark : α} {markOk : Bool} {totalLen : ℕ} {r : Round α}
    {rs : List (Round α)} (he : (relayLoop endMark markOk totalLen (r :: rs)).2 = .eof) :
    r.accepted ≠ none := by
  intro ha
  simp [relayLoop, ha] at he

/-! ## Bytes with their position -/

/-- A byte the client receives: the byte, and its position in the command's
output (`none` for the end mark). -/
abbrev Tagged := UInt8 × Option ℕ

/-- The command's output, every byte with its position. -/
def tag (out : Bytes) : List Tagged := out.zipIdx.map fun p => (p.1, some p.2)

/-- The byte of `writex(fd,"",1)`. -/
def endMark : Tagged := (0, none)

@[simp] theorem length_tag (out : Bytes) : (tag out).length = out.length := by
  simp [tag]

/-- Without the positions it is the output again. -/
@[simp] theorem map_fst_tag (out : Bytes) : (tag out).map Prod.fst = out := by
  calc (tag out).map Prod.fst = out.zipIdx.map Prod.fst := by rw [tag, List.map_map]; rfl
    _ = out := List.zipIdx_map_fst 0 out

/-- Every position occurs once. -/
theorem tag_nodup (out : Bytes) : (tag out).Nodup := by
  have hpos : (tag out).map Prod.snd = (List.range out.length).map some := by
    calc (tag out).map Prod.snd = (out.zipIdx.map Prod.snd).map some := by
          rw [tag, List.map_map, List.map_map]; rfl
      _ = (List.range out.length).map some := by
          rw [List.zipIdx_map_snd, List.range_eq_range']
  have hnodup : ((tag out).map Prod.snd).Nodup := by
    rw [hpos]
    exact List.nodup_range.map (fun _ _ h => Option.some.inj h)
  exact hnodup.of_map

/-- The end mark has no position in the output. -/
theorem endMark_not_mem_tag (out : Bytes) : endMark ∉ tag out := by
  simp [tag, endMark]

/-! ## What the client of a stream gets -/

/-- One run of the loop: the command's output, in any chunking, with any
behaviour of the client's socket and any clock. -/
structure StreamRun where
  out : Bytes
  rounds : List (Round Tagged)
  rounds_output : output rounds = tag out
  markOk : Bool

namespace StreamRun

variable (run : StreamRun)

/-- What the client receives. -/
def received : List Tagged := (relayLoop endMark run.markOk 0 run.rounds).1

/-- The output cap or the time cap is hit. -/
def Capped : Prop := (relayLoop endMark run.markOk 0 run.rounds).2 = .capped

/-- No write fails and the time cap is not reached. -/
def Undisturbed : Prop :=
  ∀ r ∈ run.rounds, r.accepted ≠ none ∧ r.elapsed ≤ maxStreamExecTimeout

/-- The client receives a prefix of the output, followed only by the end mark
and only if a cap is hit, and the whole output if it is not too long, no write
fails and the time cap is not reached. -/
def Delivers : Prop :=
  (∃ sent, sent <+: tag run.out ∧
    (run.received = sent ∨ run.Capped ∧ run.received = sent ++ [endMark])) ∧
  (run.out.length ≤ maxOutputBytes → run.Undisturbed → run.received = tag run.out)

end StreamRun

/-- Until a write fails or a cap is hit, every write accepts its whole chunk;
only the chunk in front of a failing write may be accepted in part. -/
def LossFreeRounds (totalLen : ℕ) : List (Round α) → Prop
  | [] => True
  | r :: rs => r.accepted = none ∨ CapHit (totalLen + r.chunk.length) r ∨
      (r.accepted = some r.chunk.length ∧ LossFreeRounds (totalLen + r.chunk.length) rs) ∨
      (∃ r' rs', rs = r' :: rs' ∧ r'.accepted = none)

theorem lossFree_offers_iff (totalLen : ℕ) (rs : List (Round α)) :
    LossFree (offers totalLen rs) ↔ LossFreeRounds totalLen rs := by
  induction rs generalizing totalLen with
  | nil => simp [offers, LossFree, LossFreeRounds]
  | cons r rs ih =>
      have hnext : (∃ o' os', offers (totalLen + r.chunk.length) rs = o' :: os' ∧
          o'.accepted = none) ↔ ∃ r' rs', rs = r' :: rs' ∧ r'.accepted = none := by
        cases rs with
        | nil => simp [offers]
        | cons r' rs' => simp [offers]
      simp only [offers, LossFree, LossFreeRounds, ih, hnext, decide_eq_true_eq]

/-- Nothing goes wrong in the transfer exactly if the output is not too long,
no write fails and the clock stays below the time cap. -/
theorem offers_undisturbed_iff (rs : List (Round α)) (totalLen : ℕ)
    (h0 : totalLen ≤ maxOutputBytes) :
    (∀ o ∈ offers totalLen rs, o.accepted ≠ none ∧ o.stop = false) ↔
      totalLen + (output rs).length ≤ maxOutputBytes ∧
        ∀ r ∈ rs, r.accepted ≠ none ∧ r.elapsed ≤ maxStreamExecTimeout := by
  induction rs generalizing totalLen with
  | nil => simp [offers, h0]
  | cons r rs ih =>
      simp only [offers, List.forall_mem_cons, output_cons, List.length_append,
        decide_eq_false_iff_not, not_capHit_iff]
      constructor
      · rintro ⟨⟨ha, hlen, ht⟩, hall⟩
        rcases (ih (totalLen + r.chunk.length) hlen).1 hall with ⟨hlen', hrest⟩
        exact ⟨by omega, ⟨ha, ht⟩, hrest⟩
      · rintro ⟨hlen, ⟨ha, ht⟩, hrest⟩
        have hlen' : totalLen + r.chunk.length ≤ maxOutputBytes := by omega
        exact ⟨⟨ha, hlen', ht⟩, (ih _ hlen').2 ⟨by omega, hrest⟩⟩

/-- What reaches the client is a subsequence of the output: short writes lose
bytes, but never swap or repeat them. -/
theorem relayLoop_sublist (rs : List (Round α)) (endMark : α) (markOk : Bool) :
    ∃ sent, sent.Sublist (output rs) ∧
      ((relayLoop endMark markOk 0 rs).1 = sent ∨
        (relayLoop endMark markOk 0 rs).1 = sent ++ [endMark]) := by
  refine ⟨delivered (offers 0 rs), ?_, ?_⟩
  · rw [← source_offers rs 0]
    exact delivered_sublist _
  · rw [relayLoop_eq]
    split
    · exact Or.inr rfl
    · exact Or.inl (List.append_nil _)

namespace StreamRun

variable (run : StreamRun)

/-- The client of a run gets what the transfer delivers, and the end mark. -/
theorem received_eq : run.received = delivered (offers 0 run.rounds) ++
    if ending (offers 0 run.rounds) = .stopped ∧ run.markOk then [endMark] else [] := by
  unfold received
  rw [relayLoop_eq]

theorem capped_iff : run.Capped ↔ ending (offers 0 run.rounds) = .stopped := by
  unfold Capped
  rw [relayLoop_eq]
  cases ending (offers 0 run.rounds) <;> simp [RelayEnd.ofEnding]

theorem source_eq_tag : source (offers 0 run.rounds) = tag run.out := by
  rw [source_offers, run.rounds_output]

/-- The end mark is no part of what was delivered. -/
theorem endMark_not_mem_delivered : endMark ∉ delivered (offers 0 run.rounds) := by
  intro h
  have hmem := (delivered_sublist _).subset h
  rw [run.source_eq_tag] at hmem
  exact endMark_not_mem_tag run.out hmem

/-- "A prefix, then at most the end mark" is a statement about the delivered part. -/
theorem prefix_iff :
    (∃ sent, sent <+: tag run.out ∧
      (run.received = sent ∨ run.Capped ∧ run.received = sent ++ [endMark])) ↔
        delivered (offers 0 run.rounds) <+: source (offers 0 run.rounds) := by
  rw [run.source_eq_tag, run.received_eq, run.capped_iff]
  constructor
  · rintro ⟨sent, hpre, h | ⟨_, h⟩⟩
    · -- the end mark cannot be part of a prefix of the output
      split at h
      · have hmem : endMark ∈ sent := by simp [← h]
        exact absurd (hpre.subset hmem) (endMark_not_mem_tag _)
      · rw [List.append_nil] at h
        rwa [h]
    · split at h
      · rwa [List.append_cancel_right h]
      · have hmem : endMark ∈ delivered (offers 0 run.rounds) := by
          rw [List.append_nil] at h
          simp [h]
        exact absurd hmem run.endMark_not_mem_delivered
  · intro hpre
    refine ⟨_, hpre, ?_⟩
    split
    · next h => exact Or.inr ⟨h.1, rfl⟩
    · exact Or.inl (List.append_nil _)

/-- "All of it when nothing goes wrong" is a statement about the delivered part. -/
theorem whole_iff :
    (run.out.length ≤ maxOutputBytes → run.Undisturbed → run.received = tag run.out) ↔
      ((∀ o ∈ offers 0 run.rounds, o.accepted ≠ none ∧ o.stop = false) →
        delivered (offers 0 run.rounds) = source (offers 0 run.rounds)) := by
  have hlen : (output run.rounds).length = run.out.length := by
    rw [run.rounds_output, length_tag]
  rw [offers_undisturbed_iff _ _ (Nat.zero_le _), Nat.zero_add, hlen, and_imp, run.source_eq_tag]
  refine imp_congr_right fun hmax => imp_congr_right fun hund => ?_
  have hend : ending (offers 0 run.rounds) = .drained :=
    ending_of_undisturbed ((offers_undisturbed_iff _ _ (Nat.zero_le _)).2 ⟨by omega, hund⟩)
  rw [run.received_eq, hend]
  simp

end StreamRun

/-- The relay loop delivers the command's output to the client exactly in the
runs in which only the last chunk in front of a failing write, or of a cap, is
accepted in part. -/
theorem relay_delivers_iff (run : StreamRun) : run.Delivers ↔ LossFreeRounds 0 run.rounds := by
  have hnodup : (source (offers 0 run.rounds)).Nodup := by
    rw [run.source_eq_tag]
    exact tag_nodup run.out
  unfold StreamRun.Delivers
  rw [run.prefix_iff, run.whole_iff, ← lossFree_offers_iff,
    ← faithful_iff hnodup, Faithful]

/-- The command prints `abcdef` in two chunks; the client, slow, takes one byte
of the first and all of the second. -/
def slowClient : StreamRun where
  out := ascii "abcdef"
  rounds :=
    [⟨[(97, some 0), (98, some 1), (99, some 2)], some 1, 0, by decide, by decide, by decide⟩,
      ⟨[(100, some 3), (101, some 4), (102, some 5)], some 3, 0, by decide, by decide, by decide⟩]
  rounds_output := by decide
  markOk := true

/-- It receives `adef`. -/
theorem slowClient_loses : ¬ slowClient.Delivers := by
  rintro ⟨⟨sent, hpre, h | ⟨h, _⟩⟩, _⟩
  · rw [← h] at hpre
    exact absurd hpre (by decide)
  · exact absurd h (by unfold StreamRun.Capped; decide)

end Su
