import TestActivity.Su.Dd.Run

/-!
# The buffer of `dd`

`setup` takes `ibs + obs - 1` bytes for the worst case. That many are enough
(`State.Ready`), and no fewer are: reads of single bytes leave one byte less than
a block of the output in front of a whole block of the input. The size is
computed as a `size_t`, though, and wraps around. Blocks of the input that no
call of `read` can be asked for come to no harm: the first one ends the run.
-/

namespace Su.Dd

open Buffer Blocks Outcome

variable {g : Globals} {m : Machine} {s s' : State} {r : Report} {cap fuel left : ℕ}

/-! ## The worst case -/

/-- The most that a call of `read` gives, however much it is asked for. -/
def readMax : ℕ := 2147479552

theorem not_oversized (h : g.inDbsz ≤ readMax) : ¬ Oversized g.inDbsz := by
  intro hover
  have hge : 2147483648 ≤ g.inDbsz := hover
  have hle : g.inDbsz ≤ 2147479552 := h
  omega

/-- A block that does not fit into the buffer is read over its end. -/
theorem ddInRound_overrun {bs : Bytes} {src : Source} (hg : g.Plain)
    (hmore : ¬ s.enough g) (hread : s.src.read g.inDbsz = (some bs, src)) (hne : bs ≠ [])
    (hfits : s.db.length < s.inDbp + bs.length) :
    ddInRound g s = .error ⟨.overrun, s.sink⟩ := by
  have htake : takeBlock g bs { s with src := src } = .error ⟨.overrun, s.sink⟩ := by
    unfold takeBlock State.fill
    rw [if_neg (Nat.not_le.2 hfits)]
    rfl
  rw [ddInRound_eq hg hmore, hread, afterRead, if_neg hne, htake]
  rfl

/-- The state behind a single byte that does not fill a block of the output. -/
def afterByte (g : Globals) (b : UInt8) (src : Source) (s : State) : State :=
  let t := State.countIn g [b] { s with src := src, db := blit s.db s.inDbp [b] }
  { t with inDbp := s.inDbp + 1, inDbcnt := s.inDbcnt + 1, outDbp := s.inDbp + 1,
           outDbcnt := s.inDbcnt + 1 }

theorem ddInRound_byte {b : UInt8} {src : Source} (hg : g.Plain) (hbs : .bs ∉ g.ddflags)
    (hmore : ¬ s.enough g) (hread : s.src.read g.inDbsz = (some [b], src))
    (hfits : s.inDbp + 1 ≤ s.db.length) (hshort : s.inDbcnt + 1 < g.outDbsz) :
    ddInRound g s = .ok (true, afterByte g b src s) := by
  have hroom : s.inDbp + [b].length ≤ s.db.length := hfits
  have hpart : ¬ g.outDbsz ≤ s.inDbcnt + [b].length := Nat.not_le.2 hshort
  have htake : takeBlock g [b] { s with src := src } = .ok (afterByte g b src s) := by
    unfold takeBlock State.fill
    rw [if_pos hroom]
    simp only [hg.sync, if_false]
    show passOn g 1 _ = _
    rw [passOn, if_neg hbs, callCfunc, hg.cfunc]
    exact if_neg hpart
  rw [ddInRound_eq hg hmore, hread, afterRead, if_neg (List.cons_ne_nil _ _), htake]
  rfl

/-- A source that gives `left` single bytes, and then a whole block. -/
def trickle (g : Globals) (left : ℕ) : Source where
  data := List.replicate (left + g.inDbsz) 0
  serves := List.replicate left (.short 0)

theorem trickle_read_zero (hmax : g.inDbsz ≤ readMax) : (trickle g 0).read g.inDbsz =
    (some (List.replicate g.inDbsz 0), ⟨[], []⟩) := by
  simp [trickle, Source.read, not_oversized hmax]

theorem trickle_read_succ (hin : 0 < g.inDbsz) (hmax : g.inDbsz ≤ readMax) :
    (trickle g (left + 1)).read g.inDbsz = (some [0], trickle g left) := by
  have hone : min (0 + 1) g.inDbsz = 1 := by omega
  simp only [trickle, List.replicate_succ, Source.read, not_oversized hmax, if_false, hone]
  rw [show left + 1 + g.inDbsz = (left + g.inDbsz) + 1 by omega, List.replicate_succ]
  rfl

/-- Single bytes fill the buffer until a block does not fit any more. -/
theorem ddInLoop_overrun (hg : g.Plain) (hmax : g.inDbsz ≤ readMax) (hbs : .bs ∉ g.ddflags)
    (hcount : g.cpyCnt = 0)
    (hcap : s.db.length + 1 < g.inDbsz + g.outDbsz) (hdbp : s.inDbp = s.inDbcnt)
    (hleft : s.inDbcnt + left + 1 = g.outDbsz) (hsrc : s.src = trickle g left)
    (hfuel : left < fuel) : ddInLoop g fuel s = .error ⟨.overrun, s.sink⟩ := by
  have hmore : ∀ t : State, ¬ t.enough g := fun t h => h.1 hcount
  have hin := hg.inDbsz
  induction left generalizing s fuel with
  | zero =>
      obtain ⟨fuel, rfl⟩ : ∃ n, fuel = n + 1 := ⟨fuel - 1, by omega⟩
      -- the last read gives a whole block, for which there is no room
      have hread := hsrc ▸ trickle_read_zero hmax
      have hne : (List.replicate g.inDbsz (0 : UInt8)) ≠ [] := by
        rw [ne_eq, List.replicate_eq_nil_iff]
        omega
      rw [ddInLoop, ddInRound_overrun hg (hmore s) hread hne (by
        rw [List.length_replicate]
        omega)]
      rfl
  | succ left ih =>
      obtain ⟨fuel, rfl⟩ : ∃ n, fuel = n + 1 := ⟨fuel - 1, by omega⟩
      have hread := hsrc ▸ @trickle_read_succ g left hin hmax
      -- a byte more, unless the buffer is too small for this one already
      by_cases hfits : s.inDbp + 1 ≤ s.db.length
      · have hsize : (blit s.db s.inDbp [(0 : UInt8)]).length = s.db.length := length_blit hfits
        rw [ddInLoop, ddInRound_byte hg hbs (hmore s) hread hfits (by omega)]
        refine @ih (afterByte g 0 (trickle g left) s) fuel ?_ ?_ ?_ rfl (by omega)
        · show (blit s.db s.inDbp [(0 : UInt8)]).length + 1 < _
          rw [hsize]
          exact hcap
        · show s.inDbp + 1 = s.inDbcnt + 1
          rw [hdbp]
        · show s.inDbcnt + 1 + left + 1 = g.outDbsz
          omega
      · rw [ddInLoop, ddInRound_overrun hg (hmore s) hread (List.cons_ne_nil _ _)
          (Nat.lt_of_not_le hfits)]
        rfl

/-- The state `dd_in` starts from with a buffer of `cap` bytes. -/
def State.start (cap : ℕ) (src : Source) (answers : List Answer) : State where
  db := List.replicate cap 0
  src := src
  answers := answers

/-- `ibs + obs - 1` bytes are what the buffer needs: no run leaves a buffer of
that size, and some run leaves any smaller one, if a call of `read` can give a
whole block. -/
theorem ddIn_overrun_iff (hg : g.Plain) (hmax : g.inDbsz ≤ readMax) (hbs : .bs ∉ g.ddflags)
    (hcount : g.cpyCnt = 0) (cap : ℕ) :
    (∀ src answers r, ddIn g (State.start cap src answers) = .error r → r.why ≠ .overrun) ↔
      g.inDbsz + g.outDbsz - 1 ≤ cap := by
  have hin := hg.inDbsz
  constructor
  · intro hsafe
    by_contra hsmall
    -- bytes one by one until a block lacks one, and then a whole block
    refine hsafe (trickle g (g.outDbsz - 1)) [] _ (@ddInLoop_overrun g _ _ (g.outDbsz - 1) hg hmax
      hbs hcount ?_ rfl ?_ rfl ?_) rfl
    · show (List.replicate cap (0 : UInt8)).length + 1 < _
      rw [List.length_replicate]
      omega
    · have hout := hg.outDbsz
      show 0 + (g.outDbsz - 1) + 1 = g.outDbsz
      omega
    · simp only [State.start, trickle, List.length_replicate]
      omega
  · intro hcap src answers r hr
    have hready : (State.start cap src answers).Ready g := by
      refine ⟨?_, rfl, rfl, rfl, hg.outDbsz, fun _ => rfl, rfl⟩
      show _ ≤ (List.replicate cap (0 : UInt8)).length + 1
      rw [List.length_replicate]
      omega
    have hspec := ddIn_spec hg hready
    rw [hr, ensures_error] at hspec
    rcases hspec.blamed with hb | ⟨hb, -⟩
    · exact hb.ne.1
    · simp [hb]

/-- The smallest buffer for the default block sizes. -/
theorem ddIn_overrun_iff_default :
    (∀ src answers r,
        ddIn { cfunc := some .copy } (State.start 1023 src answers) = .error r →
          r.why ≠ .overrun) ↔
      ({ cfunc := some .copy } : Globals).inDbsz + ({ cfunc := some .copy } : Globals).outDbsz - 1 ≤
        1023 :=
  ddIn_overrun_iff ⟨by decide, by decide, by decide, rfl, by decide, by decide, by decide⟩
    (by decide) (by decide) rfl 1023

/-! ## The size that wraps around -/

/-- On a file the positioning is exact. -/
theorem position_file (hg : g.Offsets) (hpipe : m.inPipe = false) (hseeks : m.outSeeks = true) :
    position g m s =
      .ok { s with src := { s.src with data := s.src.data.drop (g.inOffset * g.inDbsz) } } := by
  have hskip : skipIn g m s =
      .ok { s with src := { s.src with data := s.src.data.drop (g.inOffset * g.inDbsz) } } := by
    unfold skipIn
    by_cases hzero : g.inOffset = 0
    · rw [if_neg (not_not.2 hzero), hzero, Nat.zero_mul, List.drop_zero]
    · rw [if_pos hzero, posIn, hpipe, if_neg Bool.false_ne_true,
        toInt_mul (Nat.pos_of_ne_zero hzero) hg.inDbsz hg.skip]
      exact if_neg (by omega)
  rw [position, hskip]
  show seekOut g m _ = _
  unfold seekOut
  by_cases hzero : g.outOffset = 0
  · exact if_neg (not_not.2 hzero)
  · have hoff : ¬ outOff g < 0 := by
      rw [outOff, toInt_mul (Nat.pos_of_ne_zero hzero) hg.outDbsz hg.seek]
      omega
    rw [if_pos hzero, posOut, hseeks]
    exact if_neg (by simpa using hoff)

/-- An input of one block behind what is skipped. -/
def oneBlock (g : Globals) : Machine where
  input := some (List.replicate (g.inOffset * g.inDbsz + g.inDbsz) 0)
  output := some []

/-- When the size of the buffer wraps around, a single block does not fit. -/
theorem copy_overrun (hg : g.Plain) (hmax : g.inDbsz ≤ readMax) (hout : g.outDbsz < 4294967296)
    (hwrap : 4294967296 < g.inDbsz + g.outDbsz) (hdb : s.db.length = bufferSize g)
    (hdbp : s.inDbp = 0) (hblocks : s.blocksIn = 0)
    (hsrc : s.src = ⟨List.replicate g.inDbsz 0, []⟩) :
    copy g m s = .error ⟨.overrun, s.sink⟩ := by
  have hin := hg.inDbsz
  have hsize := hg.inSize
  have hmore : ¬ s.enough g := by
    rintro ⟨hne, hle⟩
    omega
  have hread : s.src.read g.inDbsz = (some (List.replicate g.inDbsz 0), ⟨[], []⟩) := by
    rw [hsrc]
    simp [Source.read, not_oversized hmax]
  have hne : (List.replicate g.inDbsz (0 : UInt8)) ≠ [] := by
    rw [ne_eq, List.replicate_eq_nil_iff]
    omega
  have hfits : s.db.length < s.inDbp + (List.replicate g.inDbsz (0 : UInt8)).length := by
    rw [hdb, hdbp, List.length_replicate]
    unfold bufferSize toSize
    omega
  rw [copy, ddIn, ddInLoop, ddInRound_overrun hg hmore hread hne hfits]
  rfl

/-- Where a block is more than a call of `read` takes, the first one is the last. -/
theorem copy_oversized (hg : g.Plain) (hover : Oversized g.inDbsz) (hblocks : s.blocksIn = 0) :
    copy g m s = .error ⟨.readError, s.sink⟩ := by
  have hmore : ¬ s.enough g := by
    rintro ⟨hne, hle⟩
    omega
  have hread : s.src.read g.inDbsz = (none, s.src) := if_pos hover
  have hround : ddInRound g s = .error ⟨.readError, s.sink⟩ := by
    rw [ddInRound_eq hg hmore, hread, afterRead, if_pos hg.noerror]
  rw [copy, ddIn, ddInLoop, hround]
  rfl

/-- Without `skip=` only the output is positioned. -/
theorem position_unskipped (hskip : g.inOffset = 0) :
    Ensures (fun t => t = s) (fun r => r.why = .seekError) (position g m s) := by
  have hin : skipIn g m s = .ok s := if_neg (not_not.2 hskip)
  rw [position, hin]
  show Ensures _ _ (seekOut g m s)
  unfold seekOut posOut
  split
  · split
    · rfl
    · rfl
  · rfl

/-- Blocks that no call of `read` takes let no run leave its buffer, whatever size
that has. -/
theorem Steps.exits_of_oversized {ran : Ran} (hsteps : Steps g m ran) (hg : g.Offsets)
    (hplain : g.Plain) (hover : Oversized g.inDbsz) : ∃ status, ran.ended = .exited status := by
  -- a skipped block would be more than an offset can hold
  have hskip : g.inOffset = 0 := by
    by_contra hne
    have hle := Nat.le_mul_of_pos_left g.inDbsz (Nat.pos_of_ne_zero hne)
    have hge : 2147483648 ≤ g.inDbsz := hover
    have hlt := hg.skip
    omega
  have hblocks : ∀ s, setup g m = .ok s → s.blocksIn = 0 := by
    intro s hs
    unfold setup at hs
    split_ifs at hs
    obtain rfl := Except.ok.inj hs
    rfl
  cases hsteps with
  | @early e h =>
      rw [setup_error h]
      exact ⟨1, rfl⟩
  | @unplaced s r hs h =>
      have hpos := @position_unskipped g m s hskip
      rw [h, ensures_error] at hpos
      exact ⟨1, by simp [Report.ran, hpos]⟩
  | @broken s t r hs ht h =>
      have hpos := @position_unskipped g m s hskip
      rw [ht, ensures_ok] at hpos
      rw [hpos, copy_oversized hplain hover (hblocks s hs)] at h
      obtain rfl := Except.error.inj h
      exact ⟨1, rfl⟩
  | copied => exact ⟨0, rfl⟩

/-- `ibs=1048576 obs=4294000000`: the buffer has 81279 bytes. -/
def hugeGlobals : Globals where
  ddflags := {.ibs, .obs}
  inDbsz := 1048576
  outDbsz := 4294000000
  cfunc := some .copy

end Su.Dd
