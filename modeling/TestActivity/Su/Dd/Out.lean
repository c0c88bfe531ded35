import TestActivity.Lib.Blocks
import TestActivity.Lib.Buffer
import TestActivity.Su.Dd.Operands

/-!
# `dd_out`

`dd_out` of `dd.c` writes blocks from the front of the buffer and moves what is
left to the front. A block may take several calls of `write`, which may accept
less than they are offered.

Without `C_SPARSE`, which no operand sets, `pending` stays 0 and nothing is
sought on the output.
-/

namespace Su.Dd

open Buffer Blocks Outcome

/-! ## The state -/

/-- What the kernel says to a `write` on the output: how much it takes, at most
what it is offered, or an error. -/
inductive Answer where
  | wrote (n : ℕ)
  /-- `EINTR` -/
  | intr
  | failed
deriving DecidableEq, Repr

/-- How a `read` of the input is served: with `k + 1` bytes at most, or with an
error. -/
inductive Serve where
  | short (k : ℕ)
  | error
deriving DecidableEq, Repr

/-- The input, and how the next reads are served. When the list is used up,
every read gets what it asks for. -/
structure Source where
  data : Bytes
  serves : List Serve
deriving DecidableEq

/-- What the output got, call by call, with `st.out_full`, `st.out_part` and
`st.bytes`. -/
structure Sink where
  written : List Bytes := []
  outFull : ℕ := 0
  outPart : ℕ := 0
  bytes : ℕ := 0
deriving DecidableEq

/-- The buffer, the `IO`s `in` and `out` with pointers into it, the statistics,
and the two ends. -/
structure State where
  db : Bytes
  inDbp : ℕ := 0
  inDbcnt : ℕ := 0
  outDbp : ℕ := 0
  outDbcnt : ℕ := 0
  inFull : ℕ := 0
  inPart : ℕ := 0
  sink : Sink := {}
  src : Source
  answers : List Answer
deriving DecidableEq

/-- Why the copying stops early. All but the last two print `1` and `exit(1)`. -/
inductive Failure where
  | readError
  | endOfDevice
  | writeError
  | seekError
  | skipError
  | fsyncError
  | closeError
  | noConv
  /-- not an exit: an access outside the buffer, or a call through `NULL` -/
  | overrun
  /-- not an exit: the loop goes round for ever -/
  | endless
deriving DecidableEq, Repr

/-- The end of a run that stops early, with what the output got. -/
structure Report where
  why : Failure
  sink : Sink
deriving DecidableEq

/-! ## The loops -/

/-- The conversion to `size_t`, of 32 bits. -/
def toSize (v : ℤ) : ℕ := (v % 4294967296).toNat

/-- A count that is negative as a `ssize_t`: `read` and `write` fail with `EINVAL`. -/
def Oversized (len : ℕ) : Prop := 2147483648 ≤ len

instance : DecidablePred Oversized := fun _ => inferInstanceAs (Decidable (_ ≤ _))

/-- What a call of `write` does to the statistics when it takes `bs` of a block
of `n` bytes. -/
def Sink.took (g : Globals) (n : ℕ) (bs : Bytes) (k : Sink) : Sink where
  written := if bs = [] then k.written else k.written ++ [bs]
  outFull := if bs.length = n ∧ n = g.outDbsz then k.outFull + 1 else k.outFull
  outPart := if bs.length = n ∧ n = g.outDbsz then k.outPart else k.outPart + 1
  bytes := k.bytes + bs.length

/-- The inner loop of `dd_out`: `cnt` bytes of a block of `n` are left, from
`outp` on. When the answers are used up everything is accepted that a call of
`write` can be asked for. -/
def writeBlock (g : Globals) (db : Bytes) (n : ℕ) :
    List Answer → ℕ → ℕ → Sink → Except Report (Sink × List Answer)
  | answers, outp, cnt, k =>
      if Oversized cnt then .error ⟨.writeError, k⟩
      else if db.length < outp + cnt then .error ⟨.overrun, k⟩
      else
        match answers with
        | [] =>
            if cnt = 0 then .error ⟨.endOfDevice, k⟩
            else .ok (k.took g n (slice db outp cnt), [])
        | .failed :: _ => .error ⟨.writeError, k⟩
        | .intr :: answers =>
            if cnt = 0 then .ok (k.took g n [], answers)
            else writeBlock g db n answers outp cnt (k.took g n [])
        | .wrote m :: answers =>
            let nw := min m cnt
            if nw = 0 then .error ⟨.endOfDevice, k⟩
            else if nw = cnt then .ok (k.took g n (slice db outp nw), answers)
            else writeBlock g db n answers (outp + nw) (cnt - nw) (k.took g n (slice db outp nw))

/-- The outer loop of `dd_out`: `dbcnt` bytes are left, and the next block has
`n`. -/
def writeBlocks (g : Globals) (db : Bytes) :
    ℕ → ℕ → ℕ → ℕ → Sink → List Answer → Except Report (ℕ × Sink × List Answer)
  | 0, _, _, _, k, _ => .error ⟨.endless, k⟩
  | fuel + 1, n, outp, dbcnt, k, answers => do
      let (k, answers) ← writeBlock g db n answers outp n k
      if dbcnt - n < g.outDbsz then .ok (dbcnt - n, k, answers)
      else writeBlocks g db fuel g.outDbsz (outp + n) (dbcnt - n) k answers

/-- `dd_out`. -/
def ddOut (g : Globals) (force : Bool) (s : State) : Except Report State := do
  let n := if force then s.outDbcnt else g.outDbsz
  let (dbcnt, k, answers) ← writeBlocks g s.db (s.outDbcnt + 1) n 0 s.outDbcnt s.sink s.answers
  let s := { s with outDbcnt := dbcnt, sink := k, answers := answers }
  if dbcnt = 0 then .ok { s with outDbp := 0 }
  else if dbcnt ≤ s.outDbp ∧ s.outDbp ≤ s.db.length then
    .ok { s with db := blit s.db 0 (slice s.db (s.outDbp - dbcnt) dbcnt), outDbp := dbcnt }
  else .error ⟨.overrun, k⟩

/-! ## What a block leaves behind -/

variable {g : Globals} {s s' : State} {k k' k'' : Sink} {db bs cs : Bytes} {n cnt outp : ℕ}
  {answers answers' : List Answer} {why : Failure}

/-- Everything the output got. -/
def Sink.content (k : Sink) : Bytes := k.written.flatten

/-- The output got `bs`, and `st.bytes` knows of it. -/
structure Sink.Grew (k : Sink) (bs : Bytes) (k' : Sink) : Prop where
  content : k'.content = k.content ++ bs
  bytes : k'.bytes = k.bytes + bs.length

theorem Sink.Grew.refl (k : Sink) : k.Grew [] k where
  content := by simp
  bytes := by simp

theorem Sink.Grew.trans (h : k.Grew bs k') (h' : k'.Grew cs k'') : k.Grew (bs ++ cs) k'' where
  content := by rw [h'.content, h.content, List.append_assoc]
  bytes := by rw [h'.bytes, h.bytes, List.length_append, Nat.add_assoc]

theorem Sink.grew_took (g : Globals) (n : ℕ) (bs : Bytes) (k : Sink) :
    k.Grew bs (k.took g n bs) where
  content := by
    unfold content took
    by_cases h : bs = []
    · simp [h]
    · simp [h]
  bytes := rfl

/-- What is to blame for a failure of `dd_out`: an answer, or the size of the
blocks. -/
def Blamed (g : Globals) (answers : List Answer) (why : Failure) : Prop :=
  why = .writeError ∧ (.failed ∈ answers ∨ Oversized g.outDbsz) ∨
    why = .endOfDevice ∧ .wrote 0 ∈ answers

theorem Blamed.of_suffix (h : Blamed g answers' why) (hs : answers' <:+ answers) :
    Blamed g answers why :=
  h.imp (fun h => ⟨h.1, h.2.imp_left fun h => hs.subset h⟩) fun h => ⟨h.1, hs.subset h.2⟩

/-- How a failure leaves the output that was to get `bs`. -/
structure Report.Cut (g : Globals) (r : Report) (answers : List Answer) (k : Sink) (bs : Bytes) :
    Prop where
  blamed : Blamed g answers r.why
  grew : ∃ cs, cs <+: bs ∧ k.Grew cs r.sink

theorem Report.Cut.later {r : Report} (h : r.Cut g answers' k' cs) (hs : answers' <:+ answers)
    (hk : k.Grew bs k') : r.Cut g answers k (bs ++ cs) where
  blamed := h.blamed.of_suffix hs
  grew := by
    rcases h.grew with ⟨ds, hds, hgrew⟩
    exact ⟨bs ++ ds, List.prefix_append_right_inj bs |>.2 hds, hk.trans hgrew⟩

theorem Report.Cut.mono {r : Report} (h : r.Cut g answers k bs) (hbs : bs <+: cs) :
    r.Cut g answers k cs where
  blamed := h.blamed
  grew := by
    rcases h.grew with ⟨ds, hds, hgrew⟩
    exact ⟨ds, hds.trans hbs, hgrew⟩

/-- A block reaches the output in full and in order, in however many calls. -/
theorem writeBlock_spec (hcnt : 0 < cnt) (hlong : Oversized cnt → Oversized g.outDbsz)
    (hin : outp + cnt ≤ db.length) :
    Ensures
      (fun r => k.Grew (slice db outp cnt) r.1 ∧ r.2 <:+ answers ∧
        (answers = [] → r.1 = k.took g n (slice db outp cnt)))
      (fun r => r.Cut g answers k (slice db outp cnt))
      (writeBlock g db n answers outp cnt k) := by
  have hno : ¬ db.length < outp + cnt := by omega
  by_cases hover : Oversized cnt
  · rw [writeBlock.eq_def]
    simp only [hover, if_true, ensures_error]
    exact ⟨Or.inl ⟨rfl, Or.inr (hlong hover)⟩, [], List.nil_prefix, Sink.Grew.refl k⟩
  induction answers generalizing outp cnt k with
  | nil =>
      rw [writeBlock, if_neg hover, if_neg hno]
      simp only [Nat.ne_of_gt hcnt, if_false]
      exact ⟨Sink.grew_took g n _ k, List.suffix_refl _, fun _ => rfl⟩
  | cons a answers ih =>
      cases a with
      | failed =>
          rw [writeBlock, if_neg hover, if_neg hno]
          refine ⟨Or.inl ⟨rfl, by simp⟩, [], List.nil_prefix, Sink.Grew.refl k⟩
      | intr =>
          -- the same call once more
          rw [writeBlock, if_neg hover, if_neg hno]
          simp only [Nat.ne_of_gt hcnt, if_false]
          refine (ih hcnt hlong hin hno hover).mono ?_ ?_
          · rintro r ⟨hgrew, hs, -⟩
            exact ⟨(Sink.grew_took g n [] k).trans hgrew, hs.trans (List.suffix_cons _ _),
              fun h => absurd h (List.cons_ne_nil _ _)⟩
          · intro r hr
            exact hr.later (List.suffix_cons _ _) (Sink.grew_took g n [] k)
      | wrote m =>
          rw [writeBlock, if_neg hover, if_neg hno]
          by_cases hzero : min m cnt = 0
          · have hm : m = 0 := by omega
            simp only [hzero, if_true, ensures_error]
            exact ⟨Or.inr ⟨rfl, by simp [hm]⟩, [], List.nil_prefix, Sink.Grew.refl k⟩
          by_cases hall : min m cnt = cnt
          · simp only [hall, Nat.ne_of_gt hcnt, if_true, if_false]
            exact ⟨Sink.grew_took g n _ k, List.suffix_cons _ _,
              fun h => absurd h (List.cons_ne_nil _ _)⟩
          · -- a short write: the rest is a block of its own to the induction
            simp only [hzero, hall, if_false]
            have hsplit : slice db outp cnt =
                slice db outp (min m cnt) ++ slice db (outp + min m cnt) (cnt - min m cnt) := by
              rw [← slice_add]
              congr 1
              omega
            rw [hsplit]
            have hrest : outp + min m cnt + (cnt - min m cnt) ≤ db.length := by omega
            have hover' : ¬ Oversized (cnt - min m cnt) :=
              fun h => hover (le_trans h (Nat.sub_le _ _))
            refine (ih (by omega) (fun h => absurd h hover') hrest (by omega) hover').mono ?_ ?_
            · rintro r ⟨hgrew, hs, -⟩
              exact ⟨(Sink.grew_took g n _ k).trans hgrew, hs.trans (List.suffix_cons _ _),
                fun h => absurd h (List.cons_ne_nil _ _)⟩
            · intro r hr
              exact hr.later (List.suffix_cons _ _) (Sink.grew_took g n _ k)

/-- What the output has got when every block was taken in one call. -/
def Sink.tookAll (g : Globals) (bss : List Bytes) (k : Sink) : Sink :=
  bss.foldl (fun k bs => k.took g bs.length bs) k

/-- The outer loop writes the full blocks there are, and stops at the rest. -/
theorem writeBlocks_spec {fuel dbcnt : ℕ} (hobs : 0 < g.outDbsz) (hle : g.outDbsz ≤ dbcnt)
    (hin : outp + dbcnt ≤ db.length) (hfuel : dbcnt < fuel) :
    Ensures
      (fun r => r.1 = (rest g.outDbsz (slice db outp dbcnt)).length ∧
        k.Grew (blocks g.outDbsz (slice db outp dbcnt)).flatten r.2.1 ∧ r.2.2 <:+ answers ∧
        (answers = [] → r.2.1 = k.tookAll g (blocks g.outDbsz (slice db outp dbcnt))))
      (fun r => r.Cut g answers k (slice db outp dbcnt))
      (writeBlocks g db fuel g.outDbsz outp dbcnt k answers) := by
  induction fuel generalizing outp dbcnt k answers with
  | zero => omega
  | succ fuel ih =>
      have hlen : (slice db outp dbcnt).length = dbcnt := length_slice hin
      have hfirst : (slice db outp g.outDbsz).length = g.outDbsz := length_slice (by omega)
      have hsplit : slice db outp dbcnt =
          slice db outp g.outDbsz ++ slice db (outp + g.outDbsz) (dbcnt - g.outDbsz) := by
        rw [← slice_add]
        congr 1
        omega
      have hcut := blocks_cons (l := slice db (outp + g.outDbsz) (dbcnt - g.outDbsz)) hobs hfirst
      rw [← hsplit] at hcut
      have hrest : (slice db (outp + g.outDbsz) (dbcnt - g.outDbsz)).length = dbcnt - g.outDbsz :=
        length_slice (by omega)
      rw [hcut.1, hcut.2]
      rw [writeBlocks]
      refine (writeBlock_spec hobs id (by omega)).mono (fun _ h => h)
        (fun r hr => hr.mono (hsplit ▸ List.prefix_append _ _)) |>.bind ?_
      rintro ⟨k₁, answers₁⟩ ⟨hgrew, hs, hall⟩
      dsimp only
      by_cases hlast : dbcnt - g.outDbsz < g.outDbsz
      · -- less than a block is left, and stays in the buffer
        have hlt := hrest.trans_lt hlast
        rw [if_pos hlast, rest_of_lt hlt, blocks_of_lt hlt, hrest]
        refine ⟨rfl, ?_, hs, fun h => ?_⟩
        · simpa using hgrew
        · rw [Sink.tookAll, List.foldl_cons, hfirst]
          exact hall h
      · rw [if_neg hlast]
        refine (ih (by omega) (by omega) (by omega)).mono ?_ ?_
        · rintro ⟨d, k₂, answers₂⟩ ⟨hd, hgrew₂, hs₂, hall₂⟩
          refine ⟨hd, hgrew.trans hgrew₂, hs₂.trans hs, fun h => ?_⟩
          have hnil : answers₁ = [] := List.suffix_nil.1 (h ▸ hs)
          have hk₁ : k₁ = k.took g g.outDbsz (slice db outp g.outDbsz) := hall h
          rw [hall₂ hnil, hk₁, Sink.tookAll, Sink.tookAll, List.foldl_cons, hfirst]
        · intro r hr
          rw [hsplit]
          exact hr.later hs hgrew

/-- What `dd_out` does: the output gets `bss`, `left` goes to the front of the
buffer, and the rest of the state is not touched. -/
structure Drained (g : Globals) (s : State) (bss : List Bytes) (left : Bytes) (s' : State) :
    Prop where
  outDbcnt : s'.outDbcnt = left.length
  outDbp : s'.outDbp = left.length
  size : s'.db.length = s.db.length
  left : slice s'.db 0 left.length = left
  grew : s.sink.Grew bss.flatten s'.sink
  answers : s'.answers <:+ s.answers
  whole : s.answers = [] → s'.sink = s.sink.tookAll g bss
  frame : s' = { s with
    db := s'.db, outDbp := s'.outDbp, outDbcnt := s'.outDbcnt, sink := s'.sink,
    answers := s'.answers }

/-- `dd_out(0)` writes the full blocks and keeps the rest. -/
theorem ddOut_spec (hobs : 0 < g.outDbsz) (hle : g.outDbsz ≤ s.outDbcnt)
    (hdbp : s.outDbp = s.outDbcnt) (hin : s.outDbcnt ≤ s.db.length) :
    Ensures
      (Drained g s (blocks g.outDbsz (slice s.db 0 s.outDbcnt))
        (rest g.outDbsz (slice s.db 0 s.outDbcnt)))
      (fun r => r.Cut g s.answers s.sink (slice s.db 0 s.outDbcnt))
      (ddOut g false s) := by
  unfold ddOut
  refine (writeBlocks_spec hobs hle (by omega) (by omega)).bind ?_
  rintro ⟨d, k, answers⟩ ⟨hd, hgrew, hs, hall⟩
  have hlen : (slice s.db 0 s.outDbcnt).length = s.outDbcnt := length_slice (by omega)
  -- the pointer is at the end of the data, and the rest in front of it
  have hwhole : rest g.outDbsz (slice s.db 0 s.outDbcnt) = slice s.db (s.outDbp - d) d := by
    rw [hdbp]
    have hrest : rest g.outDbsz (slice s.db 0 s.outDbcnt) =
        slice s.db (0 + g.outDbsz * (s.outDbcnt / g.outDbsz))
          (s.outDbcnt - g.outDbsz * (s.outDbcnt / g.outDbsz)) := by
      rw [← drop_slice, rest, hlen]
    have hmul := Nat.mul_div_le s.outDbcnt g.outDbsz
    have hd' : d = s.outDbcnt - g.outDbsz * (s.outDbcnt / g.outDbsz) := by
      rw [show d = _ from hd, hrest, length_slice (by omega)]
    rw [hrest, hd']
    congr 1
    omega
  by_cases hzero : d = 0
  · subst hzero
    simp only [if_true]
    have hnil : rest g.outDbsz (slice s.db 0 s.outDbcnt) = [] := by rw [hwhole, slice_zero]
    rw [hnil]
    exact ⟨rfl, rfl, rfl, rfl, hgrew, hs, hall, rfl⟩
  · -- the rest is copied to the front of the buffer
    have hdle : d ≤ s.outDbcnt := by
      rw [show d = _ from hd, rest, List.length_drop, hlen]
      omega
    have hpart : (slice s.db (s.outDbp - d) d).length = d := length_slice (by omega)
    have hguard : d ≤ s.outDbp ∧ s.outDbp ≤ s.db.length := by omega
    have hblit : slice (blit s.db 0 (slice s.db (s.outDbp - d) d)) 0 d =
        slice s.db (s.outDbp - d) d := by
      have h := @slice_blit _ s.db (slice s.db (s.outDbp - d) d) 0 (Nat.zero_le _)
      rwa [hpart] at h
    simp only [hzero, if_false]
    rw [if_pos hguard, hwhole]
    exact ⟨hpart.symm, hpart.symm, length_blit (by omega), by rw [hpart, hblit], hgrew, hs, hall,
      rfl⟩

/-- `dd_out(1)` writes what there is, as one block. -/
theorem ddOut_force_spec (hobs : 0 < g.outDbsz) (hpos : 0 < s.outDbcnt)
    (hlong : Oversized s.outDbcnt → Oversized g.outDbsz) (hin : s.outDbcnt ≤ s.db.length) :
    Ensures (Drained g s [slice s.db 0 s.outDbcnt] [])
      (fun r => r.Cut g s.answers s.sink (slice s.db 0 s.outDbcnt))
      (ddOut g true s) := by
  simp only [ddOut, if_true, writeBlocks]
  refine Ensures.bind (Q := fun r => r.1 = 0 ∧ s.sink.Grew (slice s.db 0 s.outDbcnt) r.2.1 ∧
    r.2.2 <:+ s.answers ∧ (s.answers = [] → r.2.1 = s.sink.tookAll g [slice s.db 0 s.outDbcnt]))
    ?_ ?_
  · refine (writeBlock_spec hpos hlong (by omega)).bind ?_
    rintro ⟨k, answers⟩ ⟨hgrew, hs, hall⟩
    have hlen : (slice s.db 0 s.outDbcnt).length = s.outDbcnt := length_slice (by omega)
    simp only [if_true, Nat.sub_self, hobs]
    refine ⟨rfl, hgrew, hs, fun h => ?_⟩
    rw [Sink.tookAll, List.foldl_cons, hlen]
    exact hall h
  · rintro ⟨d, k, answers⟩ ⟨hd, hgrew, hs, hall⟩
    obtain rfl : d = 0 := hd
    refine ⟨rfl, rfl, rfl, rfl, ?_, hs, hall, rfl⟩
    rw [List.flatten_cons, List.flatten_nil, List.append_nil]
    exact hgrew

end Su.Dd
