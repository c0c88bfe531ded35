import Mathlib.Data.Int.Notation
import TestActivity.Su.Dd.Copy

/-!
# `dd_main`

`setup` of `dd.c` opens the two ends, allocates the buffer and positions the
streams; then the input is copied. What `dd` prints on stdout is a status, `0`
or `1`, which goes behind the data when stdout is the output.
-/

namespace Su.Dd

open Buffer Blocks Outcome

/-! ## The machine -/

/-- The two files and what the calls on them answer. -/
structure Machine where
  /-- the input (`none`: it cannot be opened) -/
  input : Option Bytes
  /-- the input is a pipe -/
  inPipe : Bool := false
  serves : List Serve := []
  /-- the output file in front of the run (`none`: it cannot be opened) -/
  output : Option Bytes
  /-- `lseek` works on the output -/
  outSeeks : Bool := true
  answers : List Answer := []
  /-- `malloc` finds memory -/
  memory : Bool := true
  closing : Closing := {}

/-- The conversion to `int`, `off_t` or `ssize_t`, all of 32 bits. -/
def toInt (v : ℤ) : ℤ := Int.bmod v 4294967296

/-! ## `setup` -/

/-- The size of the only buffer, as `malloc` sees it. -/
def bufferSize (g : Globals) : ℕ := toSize (g.outDbsz + g.inDbsz - 1)

/-- `setup`, up to the allocation of the buffer. -/
def setup (g : Globals) (m : Machine) : Except Early State :=
  if g.inName.isSome ∧ m.input = none then .error .cannotOpenRead
  -- nothing is a tape
  else if 1 < g.filesCnt then .error .filesUnsupported
  else if g.outName.isSome ∧ m.output = none then .error .cannotOpenWrite
  else if !m.memory then .error .noMemory
  else
    .ok { db := List.replicate (bufferSize g) 0, src := ⟨m.input.getD [], m.serves⟩,
          answers := m.answers }

/-- The loop of `pos_in` for a pipe: `bcnt` bytes of a block are to be read, and
`cnt` blocks. -/
def posInPipe (g : Globals) : ℕ → ℤ → ℤ → State → Except Report State
  | 0, _, _, s => .error ⟨.endless, s.sink⟩
  | fuel + 1, bcnt, cnt, s =>
      if cnt = 0 then .ok s
      else
        match s.src.read (toSize bcnt) with
        | (some bs, src) =>
            if bs = [] then .error ⟨.skipError, s.sink⟩
            else do
              let s ← { s with src := src }.fill 0 bs
              let bcnt := toInt (bcnt - bs.length)
              if bcnt = 0 then posInPipe g fuel (toInt g.inDbsz) (toInt (cnt - 1)) s
              else posInPipe g fuel bcnt cnt s
        | (none, src) =>
            if .noerror ∈ g.ddflags then posInPipe g fuel bcnt cnt { s with src := src }
            else .error ⟨.readError, s.sink⟩

/-- `pos_in`; what is no pipe is sought on. -/
def posIn (g : Globals) (m : Machine) (s : State) : Except Report State :=
  if m.inPipe then
    posInPipe g (s.src.rank + 1) (toInt g.inDbsz) (toInt g.inOffset) s
  else
    let off := toInt (toInt g.inOffset * toInt g.inDbsz)
    if off < 0 then .error ⟨.seekError, s.sink⟩
    else .ok { s with src := { s.src with data := s.src.data.drop off.toNat } }

/-- Where `pos_out` moves to. -/
def outOff (g : Globals) : ℤ := toInt (toInt g.outOffset * toInt g.outDbsz)

/-- `pos_out`. -/
def posOut (g : Globals) (m : Machine) (s : State) : Except Report State :=
  if !m.outSeeks ∨ outOff g < 0 then .error ⟨.seekError, s.sink⟩ else .ok s

/-- `if (in.offset) pos_in();` -/
def skipIn (g : Globals) (m : Machine) (s : State) : Except Report State :=
  if g.inOffset ≠ 0 then posIn g m s else .ok s

/-- `if (out.offset) pos_out();` -/
def seekOut (g : Globals) (m : Machine) (s : State) : Except Report State :=
  if g.outOffset ≠ 0 then posOut g m s else .ok s

/-- The positioning in `setup`. -/
def position (g : Globals) (m : Machine) (s : State) : Except Report State := do
  let s ← skipIn g m s
  seekOut g m s

/-- What `dd_main` does behind `setup`. -/
def copy (g : Globals) (m : Machine) (s : State) : Except Report State := do
  let s ← ddIn g s
  ddClose g m.closing s

/-! ## The output file -/

/-- A file cut or extended to `n` bytes. -/
def resize (file : Bytes) (n : ℕ) : Bytes := file.take n ++ List.replicate (n - file.length) 0

/-- A file with `bs` written at `p`. -/
def overwrite (file : Bytes) (p : ℕ) (bs : Bytes) : Bytes :=
  if bs = [] then file else resize file p ++ bs ++ file.drop (p + bs.length)

/-- The output file once it is open: `O_TRUNC` is used without `C_SEEK` and
`C_NOTRUNC`. -/
def opened (g : Globals) (m : Machine) : Bytes :=
  if .seek ∉ g.ddflags ∧ .notrunc ∉ g.ddflags then [] else m.output.getD []

/-- The position `pos_out` leaves the output at. -/
def outPos (g : Globals) : ℕ := if g.outOffset ≠ 0 then (outOff g).toNat else 0

/-- `ftruncate` behind the positioning; the size is computed as `uint64_t`. -/
def truncated (g : Globals) (m : Machine) : Bytes :=
  if .of_ ∈ g.ddflags ∧ .seek ∈ g.ddflags ∧ .notrunc ∉ g.ddflags then
    let size := toInt (toInt g.outOffset * g.outDbsz)
    if size < 0 then opened g m else resize (opened g m) size.toNat
  else opened g m

/-! ## The run -/

/-- What a run leaves behind. -/
structure Ran where
  /-- what can be read from its stdout -/
  stdout : Bytes
  ended : ToolEnd
  /-- the file `of=` names -/
  file : Option Bytes
deriving DecidableEq

/-- The end of a run that does not come to copy anything. -/
def Early.ran (file : Option Bytes) : Early → Ran
  | .terminated => ⟨ascii "0", .exited 0, file⟩
  | .indeterminate => ⟨[], .noStatus, file⟩
  | _ => ⟨ascii "1", .exited 1, file⟩

/-- What a failure puts behind the data on stdout: the status, if stdout is still
open. -/
def Failure.status (toStdout : Bool) : Failure → Bytes
  | .overrun | .endless => []
  | .closeError => if toStdout then [] else ascii "1"
  | _ => ascii "1"

/-- Where the data has gone. -/
def placed (g : Globals) (m : Machine) (bs : Bytes) : Option Bytes :=
  g.outName.map fun _ => overwrite (truncated g m) (outPos g) bs

/-- The end of a run that failed; the file is what the data was placed in. -/
def Report.ran (g : Globals) (file : Option Bytes) (r : Report) : Ran where
  stdout := (if g.outName = none then r.sink.content else []) ++ r.why.status (g.outName = none)
  ended := if r.why = .overrun ∨ r.why = .endless then .noStatus else .exited 1
  file := file

/-- The end of a run that succeeded. When stdout is the output, `dd_close` has
closed it in front of the last `fprintf`. -/
def State.ran (g : Globals) (file : Option Bytes) (s : State) : Ran where
  stdout := if g.outName = none then s.sink.content else ascii "0"
  ended := .exited 0
  file := file

/-- The operands behind the options: `getopt` knows no option. -/
def getoptNone : List Bytes → Option (List Bytes)
  | [] => some []
  | arg :: rest =>
      if arg = ascii "--" then some rest
      else if arg.head? = some 45 ∧ arg ≠ ascii "-" then none
      else some (arg :: rest)

/-- What `of=` names is opened, and perhaps emptied, in front of `malloc`. -/
def earlyFile (g : Globals) (m : Machine) (e : Early) : Option Bytes :=
  if e = .noMemory then g.outName.map fun _ => opened g m else m.output

/-- `dd_main` on the arguments behind the name. -/
def ddMain (argv : List Bytes) (m : Machine) : Ran :=
  match getoptNone argv with
  | none => Early.usage.ran m.output
  | some opers =>
      match jcl opers with
      | .error e => e.ran m.output
      | .ok g =>
          match setup g m with
          | .error e => e.ran (earlyFile g m e)
          | .ok s =>
              match position g m s with
              | .error r => r.ran g (g.outName.map fun _ => opened g m)
              | .ok s =>
                  match copy g m s with
                  | .error r => r.ran g (placed g m r.sink.content)
                  | .ok s => s.ran g (placed g m s.sink.content)

/-! ## Positioning -/

variable {g : Globals} {m : Machine} {s s' : State}

/-- Blocks that are not empty, and offsets that fit into an `off_t`. -/
structure Globals.Offsets (g : Globals) : Prop where
  inDbsz : 0 < g.inDbsz
  outDbsz : 0 < g.outDbsz
  skip : g.inOffset * g.inDbsz < 2147483648
  seek : g.outOffset * g.outDbsz < 2147483648

/-- The size of the buffer fits into a `size_t` as well. -/
structure Globals.Sane (g : Globals) : Prop extends g.Offsets where
  buffer : g.inDbsz + g.outDbsz ≤ 4294967296

theorem toInt_of_lt {n : ℕ} (h : n < 2147483648) : toInt n = n := by
  unfold toInt
  rw [Int.bmod_eq_of_le (by omega) (by omega)]

/-- The offset in bytes is exact if it fits. -/
theorem toInt_mul {n k : ℕ} (hn : 0 < n) (hk : 0 < k) (h : n * k < 2147483648) :
    toInt (toInt n * toInt k) = (n * k : ℕ) := by
  have hn' : n ≤ n * k := Nat.le_mul_of_pos_right n hk
  have hk' : k ≤ n * k := Nat.le_mul_of_pos_left k hn
  rw [toInt_of_lt (by omega), toInt_of_lt (by omega), ← Int.natCast_mul, toInt_of_lt h]

theorem Globals.Chosen.plain_of_sane (h : g.Chosen) (hg : g.Sane) : g.Plain := by
  have hbuf := hg.buffer
  have hout := hg.outDbsz
  exact h.plain hg.inDbsz (by omega) hout

theorem bufferSize_eq (h : g.Sane) : bufferSize g + 1 = g.inDbsz + g.outDbsz := by
  have hin := h.inDbsz
  have hout := h.outDbsz
  have hbuf := h.buffer
  unfold bufferSize toSize
  omega

/-- The buffer that `setup` allocates is in order for the first read. -/
theorem setup_ready (hg : g.Sane) (h : setup g m = .ok s) :
    s.Ready g ∧ s.held = [] ∧ s.sink = {} ∧ s.src = ⟨m.input.getD [], m.serves⟩ ∧
      s.answers = m.answers ∧ s.blocksIn = 0 ∧ g.filesCnt ≤ 1 ∧
      (g.outName.isSome → m.output ≠ none) := by
  unfold setup at h
  split at h
  · exact nomatch h
  split at h
  · exact nomatch h
  split at h
  · exact nomatch h
  split at h
  · exact nomatch h
  · obtain rfl := Except.ok.inj h
    have hsize := bufferSize_eq hg
    refine ⟨⟨?_, rfl, rfl, rfl, hg.outDbsz, fun _ => rfl, rfl⟩, slice_zero, rfl, rfl, rfl, rfl,
      by omega, ?_⟩
    · show _ ≤ (List.replicate _ _).length + 1
      rw [List.length_replicate, hsize]
    · intro hsome hnone
      simp_all

/-- Only the buffer and the input have moved. -/
structure Skipped (s s' : State) : Prop where
  size : s'.db.length = s.db.length
  serves : s'.src.serves <:+ s.src.serves
  frame : s' = { s with db := s'.db, src := s'.src }

theorem Skipped.refl (s : State) : Skipped s s := ⟨rfl, List.suffix_refl _, rfl⟩

theorem Skipped.trans {t : State} (h : Skipped s t) (h' : Skipped t s') : Skipped s s' where
  size := h'.size.trans h.size
  serves := h'.serves.trans h.serves
  frame := by
    rw [h'.frame, h.frame]

/-- `n` bytes of the input are gone. -/
structure SkippedBy (s : State) (n : ℕ) (s' : State) : Prop where
  moved : Skipped s s'
  le : n ≤ s.src.data.length
  data : s'.src.data = s.src.data.drop n

/-- How skipping `n` bytes of the input fails. -/
structure Report.NotSkipped (s : State) (n : ℕ) (r : Report) : Prop where
  sink : r.sink = s.sink
  blamed : r.why = .readError ∧ .error ∈ s.src.serves ∨
    r.why = .skipError ∧ s.src.data.length < n

theorem SkippedBy.after {t : State} {bs : Bytes} {n : ℕ} (h : SkippedBy t n s')
    (hmoved : Skipped s t) (hdata : bs ++ t.src.data = s.src.data) :
    SkippedBy s (bs.length + n) s' where
  moved := hmoved.trans h.moved
  le := by
    rw [← hdata, List.length_append]
    exact Nat.add_le_add_left h.le _
  data := by
    rw [h.data, ← hdata, ← List.drop_drop, List.drop_left]

theorem Report.NotSkipped.after {t : State} {bs : Bytes} {n : ℕ} {r : Report}
    (h : r.NotSkipped t n) (hmoved : Skipped s t) (hdata : bs ++ t.src.data = s.src.data) :
    r.NotSkipped s (bs.length + n) where
  sink := by
    rw [h.sink, hmoved.frame]
  blamed := by
    refine h.blamed.imp (fun hr => ⟨hr.1, hmoved.serves.subset hr.2⟩) fun hr => ⟨hr.1, ?_⟩
    rw [← hdata, List.length_append]
    exact Nat.add_lt_add_left hr.2 _

/-- However the reads cut the input, `pos_in` drops whole blocks of a pipe: with
`bcnt` bytes of the first of `cnt` blocks to go, `cnt * in.dbsz` bytes less what
is gone. -/
theorem posInPipe_spec {fuel bcnt cnt : ℕ} (hnoerror : .noerror ∉ g.ddflags)
    (hsize : g.inDbsz < 2147483648) (hroom : g.inDbsz ≤ s.db.length) (hbcnt : 0 < bcnt)
    (hle : bcnt ≤ g.inDbsz) (hcnt : cnt < 2147483648) (hfuel : s.src.rank < fuel) :
    Ensures (SkippedBy s (cnt * g.inDbsz - (g.inDbsz - bcnt)))
      (Report.NotSkipped s (cnt * g.inDbsz - (g.inDbsz - bcnt)))
      (posInPipe g fuel bcnt cnt s) := by
  -- every read uses up some of the source, so the fuel is never the reason to stop
  induction fuel generalizing bcnt cnt s with
  | zero => omega
  | succ fuel ih =>
      rw [posInPipe]
      by_cases hzero : cnt = 0
      · subst hzero
        simp only [Int.natCast_eq_zero, if_true, Nat.zero_mul, Nat.zero_sub]
        exact ⟨Skipped.refl s, Nat.zero_le _, rfl⟩
      have hcnt0 : ((cnt : ℤ) = 0) = False := by
        rw [Int.natCast_eq_zero, eq_false hzero]
      obtain ⟨c, rfl⟩ : ∃ c, cnt = c + 1 := ⟨cnt - 1, by omega⟩
      have hgoal : (c + 1) * g.inDbsz - (g.inDbsz - bcnt) = c * g.inDbsz + bcnt := by
        rw [Nat.succ_mul]
        omega
      rw [hgoal]
      simp only [hcnt0, if_false, toSize_natCast (n := bcnt) (by omega)]
      rcases hread : s.src.read bcnt with ⟨_ | bs, src⟩
      · rcases Source.read_spec hread with ⟨-, herror⟩
        have hserved : .error ∈ s.src.serves := herror.resolve_right fun hover => by
          have hge : 2147483648 ≤ bcnt := hover
          omega
        simp only [hnoerror, if_false, ensures_error]
        exact ⟨rfl, Or.inl ⟨rfl, hserved⟩⟩
      rcases Source.read_spec hread with ⟨hserves, hdata, ⟨hlen, -⟩, hend, hrank, -⟩
      by_cases hnil : bs = []
      · simp only [hnil, if_true, ensures_error]
        refine ⟨rfl, Or.inr ⟨rfl, ?_⟩⟩
        rw [hend hbcnt hnil, List.length_nil]
        omega
      · have hpos : 0 < bs.length := List.length_pos_iff.2 hnil
        have hfits : 0 + bs.length ≤ s.db.length := by omega
        simp only [hnil, if_false, State.fill, hfits, if_true]
        have hleft : toInt (bcnt - bs.length) = ((bcnt - bs.length : ℕ) : ℤ) := by
          rw [← toInt_of_lt (n := bcnt - bs.length) (by omega)]
          congr 1
          omega
        have hmoved : Skipped s { s with src := src, db := blit s.db 0 bs } :=
          ⟨length_blit hfits, hserves, rfl⟩
        have hcloser : src.rank < fuel := (hrank hnil).trans_le (Nat.le_of_lt_succ hfuel)
        have hroom' : g.inDbsz ≤ (blit s.db 0 bs).length := by rwa [length_blit hfits]
        dsimp only [bind, Except.bind]
        rw [hleft]
        by_cases hblock : bcnt - bs.length = 0
        · -- a block is complete
          rw [if_pos (Int.natCast_eq_zero.2 hblock), toInt_of_lt hsize,
            show ((c + 1 : ℕ) : ℤ) - 1 = (c : ℕ) by omega, toInt_of_lt (n := c) (by omega)]
          have htotal : c * g.inDbsz + bcnt =
              bs.length + (c * g.inDbsz - (g.inDbsz - g.inDbsz)) := by
            omega
          rw [htotal]
          refine (@ih _ g.inDbsz c hroom' (by omega) le_rfl (by omega) hcloser).mono ?_ ?_
          · intro s' hs'
            exact hs'.after hmoved hdata
          · intro r hr
            exact hr.after hmoved hdata
        · -- the rest of the block is read next
          rw [if_neg (mt Int.natCast_eq_zero.1 hblock)]
          have htotal : c * g.inDbsz + bcnt =
              bs.length + ((c + 1) * g.inDbsz - (g.inDbsz - (bcnt - bs.length))) := by
            rw [Nat.succ_mul]
            omega
          rw [htotal]
          refine (@ih _ (bcnt - bs.length) (c + 1) hroom' (by omega) (by omega) hcnt hcloser).mono
            ?_ ?_
          · intro s' hs'
            exact hs'.after hmoved hdata
          · intro r hr
            exact hr.after hmoved hdata

/-- How the positioning fails. -/
def NotPositioned (g : Globals) (m : Machine) (s : State) (r : Report) : Prop :=
  r.sink = s.sink ∧
    (m.inPipe ∧ (r.why = .readError ∧ .error ∈ s.src.serves ∨
        r.why = .skipError ∧ s.src.data.length < g.inOffset * g.inDbsz) ∨
      r.why = .seekError ∧ g.outOffset ≠ 0 ∧ m.outSeeks = false)

/-- The positioning drops the blocks that are to be skipped. A file may end
earlier, a pipe may not. -/
structure Positioned (g : Globals) (m : Machine) (s s' : State) : Prop where
  moved : Skipped s s'
  data : s'.src.data = s.src.data.drop (g.inOffset * g.inDbsz)

theorem posIn_spec (hg : g.Offsets) (hnoerror : .noerror ∉ g.ddflags)
    (hroom : g.inDbsz ≤ s.db.length) (hskip : g.inOffset ≠ 0) :
    Ensures (Positioned g m s) (NotPositioned g m s) (posIn g m s) := by
  have hpos : 0 < g.inOffset := Nat.pos_of_ne_zero hskip
  unfold posIn
  by_cases hpipe : m.inPipe
  · rw [if_pos hpipe]
    have hsize : g.inDbsz < 2147483648 := (Nat.le_mul_of_pos_left _ hpos).trans_lt hg.skip
    have hcount : g.inOffset < 2147483648 := (Nat.le_mul_of_pos_right _ hg.inDbsz).trans_lt hg.skip
    have htotal : g.inOffset * g.inDbsz - (g.inDbsz - g.inDbsz) = g.inOffset * g.inDbsz := by
      omega
    rw [toInt_of_lt hsize, toInt_of_lt hcount]
    have hloop := posInPipe_spec hnoerror hsize hroom hg.inDbsz le_rfl hcount
      (Nat.lt_succ_self s.src.rank)
    rw [htotal] at hloop
    refine hloop.mono ?_ ?_
    · intro s' hs'
      exact ⟨hs'.moved, hs'.data⟩
    · intro r hr
      exact ⟨hr.sink, Or.inl ⟨hpipe, hr.blamed⟩⟩
  · rw [if_neg hpipe, toInt_mul hpos hg.inDbsz hg.skip]
    rw [if_neg (by omega)]
    exact ⟨⟨rfl, List.suffix_refl _, rfl⟩, rfl⟩

theorem position_spec (hg : g.Offsets) (hnoerror : .noerror ∉ g.ddflags)
    (hroom : g.inDbsz ≤ s.db.length) :
    Ensures (Positioned g m s) (NotPositioned g m s) (position g m s) := by
  unfold position
  have hin : Ensures (Positioned g m s) (NotPositioned g m s)
      (skipIn g m s) := by
    unfold skipIn
    by_cases hskip : g.inOffset = 0
    · rw [if_neg (not_not.2 hskip)]
      refine ⟨Skipped.refl s, ?_⟩
      rw [hskip, Nat.zero_mul, List.drop_zero]
    · rw [if_pos hskip]
      exact posIn_spec hg hnoerror hroom hskip
  refine hin.bind ?_
  intro t ht
  unfold seekOut
  by_cases hseek : g.outOffset = 0
  · rw [if_neg (not_not.2 hseek)]
    exact ht
  · have hoff : ¬ outOff g < 0 := by
      rw [outOff, toInt_mul (Nat.pos_of_ne_zero hseek) hg.outDbsz hg.seek]
      omega
    rw [if_pos hseek, posOut]
    by_cases hout : m.outSeeks
    · simp only [hout, hoff, Bool.not_true, Bool.false_eq_true, or_self, if_false]
      exact ht
    · have hout' : m.outSeeks = false := by simpa using hout
      simp only [hout', Bool.not_false, true_or, if_true, ensures_error]
      refine ⟨?_, Or.inr ⟨rfl, hseek, hout'⟩⟩
      rw [ht.moved.frame]

/-! ## Copying -/

/-- How the copying ends early. -/
structure Report.Broken (g : Globals) (m : Machine) (s : State) (r : Report) : Prop where
  blamed : Blamed g s.answers r.why ∨
    r.why = .readError ∧ (.error ∈ s.src.serves ∨ Oversized g.inDbsz) ∨ m.closing.Blamed r.why
  content : r.sink.content <+: s.stream ++ s.src.data
  bytes : r.sink.bytes = r.sink.content.length

/-- What was read is written, and nothing else. -/
theorem copy_spec (hg : g.Plain) (h : s.Ready g) :
    Ensures (fun s' => ∃ pieces t, Copied g s pieces t ∧ Closed g t s')
      (Report.Broken g m s) (copy g m s) := by
  unfold copy
  refine ((ddIn_spec hg h).mono (fun _ ht => ht) ?_).bind ?_
  · intro r hr
    exact ⟨hr.blamed.imp id Or.inl, hr.content, hr.bytes⟩
  · rintro t ⟨pieces, ht⟩
    refine (ddClose_spec hg (ht.ready h)).mono ?_ ?_
    · intro s' hs'
      exact ⟨pieces, t, ht, hs'⟩
    · rintro r ⟨hblamed, hcontent, hbytes⟩
      refine ⟨?_, ?_, hbytes⟩
      · rcases hblamed with hwrite | hclose
        · exact Or.inl (hwrite.of_suffix ht.answers)
        · exact Or.inr (Or.inr hclose)
      · refine hcontent.trans ?_
        rw [ht.stream, ← ht.data, ← List.append_assoc]
        exact List.prefix_append _ _

/-! ## The output file -/

@[simp] theorem length_resize {file : Bytes} {n : ℕ} : (resize file n).length = n := by
  simp only [resize, List.length_append, List.length_take, List.length_replicate]
  omega

@[simp] theorem resize_zero {file : Bytes} : resize file 0 = [] := by
  simp [resize]

theorem resize_self {file : Bytes} {n : ℕ} (h : file.length = n) : resize file n = file := by
  simp [resize, ← h]

theorem overwrite_end {file bs : Bytes} {n : ℕ} (h : file.length = n) :
    overwrite file n bs = file ++ bs := by
  unfold overwrite
  by_cases hbs : bs = []
  · simp [hbs]
  · rw [if_neg hbs, resize_self h, List.drop_eq_nil_of_le (by omega), List.append_nil]

/-- The data stands behind the blocks that were sought over, and nothing stands
behind the data. -/
theorem placed_eq {bs : Bytes} (hg : g.Offsets) (hmarked : g.Marked) (hname : g.outName ≠ none) :
    placed g m bs = some (resize (m.output.getD []) (g.outOffset * g.outDbsz) ++ bs) := by
  have hof : .of_ ∈ g.ddflags := hmarked.of_.2 (Option.isSome_iff_ne_none.2 hname)
  rcases Option.ne_none_iff_exists'.1 hname with ⟨name, hname⟩
  have hnotrunc : Flag.notrunc ∉ g.ddflags := fun hmem => by
    have hflags := hmarked.flags hmem
    simp at hflags
  have hpos : outPos g = g.outOffset * g.outDbsz := by
    unfold outPos
    by_cases hzero : g.outOffset = 0
    · simp [hzero]
    · rw [if_pos hzero, outOff, toInt_mul (Nat.pos_of_ne_zero hzero) hg.outDbsz hg.seek]
      rfl
  rw [placed, hname, Option.map_some, hpos]
  congr 1
  unfold truncated opened
  by_cases hseek : .seek ∈ g.ddflags
  · have hsize : toInt (toInt g.outOffset * g.outDbsz) = (g.outOffset * g.outDbsz : ℕ) := by
      by_cases hzero : g.outOffset = 0
      · rw [hzero, Nat.zero_mul]
        rw [show toInt ((0 : ℕ) : ℤ) = 0 from rfl, Int.zero_mul]
        rfl
      · have hlt := (Nat.le_mul_of_pos_right g.outOffset hg.outDbsz).trans_lt hg.seek
        rw [toInt_of_lt hlt, ← Int.natCast_mul, toInt_of_lt hg.seek]
    simp only [hof, hseek, hnotrunc, not_true_eq_false, not_false_eq_true, and_self, false_and,
      if_true, if_false]
    rw [hsize, if_neg (by omega)]
    exact overwrite_end length_resize
  · rw [hmarked.seek hseek]
    simp only [hseek, hnotrunc, not_false_eq_true, and_self, false_and, and_false, if_true,
      if_false, Nat.zero_mul, resize_zero]
    exact overwrite_end rfl

/-! ## The run -/

/-- The bytes of the input behind what is to be skipped. -/
def wanted (g : Globals) (m : Machine) : Bytes :=
  (m.input.getD []).drop (g.inOffset * g.inDbsz)

/-- What a run has copied: nothing but what was wanted, from its beginning, and
all of it, or the count, when it says so. -/
structure Copies (g : Globals) (m : Machine) (bs : Bytes) (status : ℕ) : Prop where
  content : bs <+: wanted g m
  all : status = 0 → g.cpyCnt = 0 → bs = wanted g m
  count : status = 0 → g.cpyCnt ≠ 0 → m.serves = [] → bs = (wanted g m).take (g.inDbsz * g.cpyCnt)

/-- A run in front of which the buffer is ready copies what it should. -/
theorem copies_of_ok {pieces : List Bytes} {t : State} (hserves : s.src.serves <:+ m.serves)
    (hdata : s.src.data = wanted g m) (hstream : s.stream = []) (hblocks : s.blocksIn = 0)
    (ht : Copied g s pieces t) (hs' : Closed g t s') : Copies g m s'.sink.content 0 := by
  have hcontent : s'.sink.content = pieces.flatten := by
    rw [hs'.content, ht.stream, hstream, List.nil_append]
  have hsplit : pieces.flatten ++ t.src.data = wanted g m := ht.data.trans hdata
  refine ⟨?_, fun _ hcount => ?_, fun _ hcount hnone => ?_⟩
  · rw [hcontent, ← hsplit]
    exact List.prefix_append _ _
  · rcases ht.finished with hend | henough
    · rw [hcontent, ← hsplit, hend, List.append_nil]
    · exact absurd hcount henough.1
  · have hleft := ht.left (List.suffix_nil.1 (hnone ▸ hserves))
    rw [if_neg hcount, hblocks, Nat.sub_zero, hdata] at hleft
    have htake : pieces.flatten ++ t.src.data =
        (wanted g m).take (g.inDbsz * g.cpyCnt) ++ (wanted g m).drop (g.inDbsz * g.cpyCnt) := by
      rw [hsplit, List.take_append_drop]
    rw [hleft] at htake
    rw [hcontent]
    exact List.append_cancel_right htake

/-- The steps of `ddMain` once the operands are accepted. -/
inductive Steps (g : Globals) (m : Machine) : Ran → Prop where
  | early {e : Early} (h : setup g m = .error e) : Steps g m (e.ran (earlyFile g m e))
  | unplaced {s : State} {r : Report} (hs : setup g m = .ok s) (h : position g m s = .error r) :
      Steps g m (r.ran g (g.outName.map fun _ => opened g m))
  | broken {s t : State} {r : Report} (hs : setup g m = .ok s) (ht : position g m s = .ok t)
      (h : copy g m t = .error r) : Steps g m (r.ran g (placed g m r.sink.content))
  | copied {s t u : State} (hs : setup g m = .ok s) (ht : position g m s = .ok t)
      (h : copy g m t = .ok u) : Steps g m (u.ran g (placed g m u.sink.content))

theorem ddMain_steps {argv opers : List Bytes} (hopt : getoptNone argv = some opers)
    (hjcl : jcl opers = .ok g) : Steps g m (ddMain argv m) := by
  unfold ddMain
  rw [hopt]
  dsimp only
  rw [hjcl]
  dsimp only
  cases hs : setup g m with
  | error e => exact .early hs
  | ok s =>
      dsimp only
      cases ht : position g m s with
      | error r => exact .unplaced hs ht
      | ok t =>
          dsimp only
          cases hu : copy g m t with
          | error r => exact .broken hs ht hu
          | ok u => exact .copied hs ht hu

/-- In front of the first read everything is in place. -/
structure Placed (g : Globals) (m : Machine) (t : State) : Prop where
  ready : t.Ready g
  data : t.src.data = wanted g m
  serves : t.src.serves <:+ m.serves
  answers : t.answers = m.answers
  sink : t.sink = {}
  held : t.held = []
  blocksIn : t.blocksIn = 0

theorem Placed.stream {t : State} (h : Placed g m t) : t.stream = [] := by
  rw [State.stream, h.sink, h.held]
  rfl

theorem placed_of_position {t : State} (hg : g.Sane) (hchosen : g.Chosen)
    (hs : setup g m = .ok s) (ht : position g m s = .ok t) : Placed g m t := by
  have hplain := hchosen.plain_of_sane hg
  rcases setup_ready hg hs with ⟨hready, hheld, hsink, hsrc, hanswers, hblocks, -, -⟩
  have hroom : g.inDbsz ≤ s.db.length := by
    have hroom := hready.room
    have hout := hg.outDbsz
    omega
  have hpos := position_spec (m := m) hg.toOffsets hplain.noerror hroom
  rw [ht, ensures_ok] at hpos
  have hframe := hpos.moved.frame
  -- nothing was read before, so the skipping leaves the buffer empty
  have hcnt : s.inDbcnt = 0 := by
    have hlen : s.held.length = s.inDbcnt :=
      length_slice (by have := hready.room; have := hready.short; omega)
    rw [hheld] at hlen
    exact hlen.symm
  have hcnt' : t.inDbcnt = 0 := by
    rw [hframe]
    exact hcnt
  refine ⟨⟨?_, ?_, ?_, ?_, ?_, fun _ => hcnt', ?_⟩, ?_, ?_, ?_, ?_, ?_, ?_⟩
  · rw [hpos.moved.size]
    exact hready.room
  · rw [hframe]
    exact hready.inDbp
  · rw [hframe]
    exact hready.outDbp
  · rw [hframe]
    exact hready.outDbcnt
  · rw [hframe]
    exact hready.short
  · rw [hframe]
    exact hready.bytes
  · rw [hpos.data, hsrc]
    rfl
  · rw [← show s.src.serves = m.serves by rw [hsrc]]
    exact hpos.moved.serves
  · rw [hframe]
    exact hanswers
  · rw [hframe]
    exact hsink
  · rw [State.held, hcnt', slice_zero]
  · rw [hframe]
    exact hblocks

/-- The end of a run that did not copy anything, or that copied `bs`. -/
structure Ends (g : Globals) (m : Machine) (bs : Bytes) (status : ℕ) (ran : Ran) : Prop where
  ended : ran.ended = .exited status
  stdout : g.outName = none →
    ran.stdout = bs ∨ status = 1 ∧ ran.stdout = bs ++ ascii "1"
  text : g.outName ≠ none → ran.stdout = if status = 0 then ascii "0" else ascii "1"
  file : g.outName ≠ none →
    ran.file = some (resize (m.output.getD []) (g.outOffset * g.outDbsz) ++ bs) ∨
      status = 1 ∧ bs = [] ∧ (ran.file = m.output ∨ ran.file = some (opened g m))

theorem setup_error {e : Early} (h : setup g m = .error e) (file : Option Bytes) :
    e.ran file = ⟨ascii "1", .exited 1, file⟩ := by
  unfold setup at h
  split at h
  · cases h
    rfl
  split at h
  · cases h
    rfl
  split at h
  · cases h
    rfl
  split at h
  · cases h
    rfl
  · exact nomatch h

theorem Blamed.ne {answers : List Answer} {why : Failure} (h : Blamed g answers why) :
    why ≠ .overrun ∧ why ≠ .endless := by
  rcases h with ⟨rfl, -⟩ | ⟨rfl, -⟩ <;> simp

theorem Report.Broken.ne {r : Report} (h : r.Broken g m s) :
    r.why ≠ .overrun ∧ r.why ≠ .endless := by
  rcases h.blamed with hb | ⟨hb, -⟩ | ⟨hb, -⟩ | ⟨hb, -⟩
  · exact hb.ne
  all_goals simp [hb]

theorem NotPositioned.ne {r : Report} (h : NotPositioned g m s r) :
    r.why ≠ .overrun ∧ r.why ≠ .endless := by
  rcases h.2 with ⟨-, ⟨hb, -⟩ | ⟨hb, -⟩⟩ | ⟨hb, -⟩
  all_goals simp [hb]

/-- A failure that is an exit prints `1`, unless stdout is the output and closed. -/
theorem Report.ends {r : Report} {file : Option Bytes}
    (hne : r.why ≠ .overrun ∧ r.why ≠ .endless)
    (hfile : g.outName ≠ none →
      file = some (resize (m.output.getD []) (g.outOffset * g.outDbsz) ++ r.sink.content) ∨
        r.sink.content = [] ∧ (file = m.output ∨ file = some (opened g m))) :
    Ends g m r.sink.content 1 (r.ran g file) where
  ended := by
    simp [Report.ran, hne.1, hne.2]
  stdout := by
    intro hname
    simp only [Report.ran, hname, if_true]
    rcases r with ⟨why, sink⟩
    cases why <;> simp_all [Failure.status]
  text := by
    intro hname
    simp only [Report.ran, hname, if_false, List.nil_append]
    rcases r with ⟨why, sink⟩
    cases why <;> simp_all [Failure.status]
  file := by
    intro hname
    exact (hfile hname).imp id fun h => ⟨rfl, h⟩

/-- Every run ends in an exit. -/
theorem Steps.ends {ran : Ran} (hsteps : Steps g m ran) (hg : g.Sane) (hchosen : g.Chosen) :
    ∃ bs status, (status = 0 ∨ status = 1) ∧ Ends g m bs status ran ∧ Copies g m bs status := by
  have hplain := hchosen.plain_of_sane hg
  have hnothing : Copies g m [] 1 :=
    ⟨List.nil_prefix, fun h => (nomatch h), fun h => nomatch h⟩
  cases hsteps with
  | @early e h =>
      -- nothing has been read, let alone written
      refine ⟨[], 1, Or.inr rfl, ?_, hnothing⟩
      rw [setup_error h]
      refine ⟨rfl, fun _ => Or.inr ⟨rfl, rfl⟩, fun _ => rfl, fun hname => Or.inr ⟨rfl, rfl, ?_⟩⟩
      rcases Option.ne_none_iff_exists'.1 hname with ⟨name, hname⟩
      show earlyFile g m e = _ ∨ earlyFile g m e = _
      unfold earlyFile
      by_cases hmem : e = .noMemory
      · exact Or.inr (by rw [if_pos hmem, hname, Option.map_some])
      · exact Or.inl (if_neg hmem)
  | @unplaced s r hs h =>
      -- the buffer is there, but nothing has been written
      rcases setup_ready hg hs with ⟨hready, -, hsink, -⟩
      have hroom : g.inDbsz ≤ s.db.length := by
        have hroom := hready.room
        have hout := hg.outDbsz
        omega
      have hpos := position_spec (m := m) hg.toOffsets hplain.noerror hroom
      rw [h, ensures_error] at hpos
      have hcontent : r.sink.content = [] := by rw [hpos.1, hsink]; rfl
      refine ⟨r.sink.content, 1, Or.inr rfl, Report.ends hpos.ne fun hname => ?_, ?_⟩
      · rcases Option.ne_none_iff_exists'.1 hname with ⟨name, hname⟩
        exact Or.inr ⟨hcontent, Or.inr (by rw [hname, Option.map_some])⟩
      · rw [hcontent]
        exact hnothing
  | @broken s t r hs ht h =>
      -- what was written before the failure is a beginning of the stream
      have hplaced := placed_of_position hg hchosen hs ht
      have hcopy := copy_spec (m := m) hplain hplaced.ready
      rw [h, ensures_error] at hcopy
      refine ⟨r.sink.content, 1, Or.inr rfl, Report.ends hcopy.ne fun hname =>
        Or.inl (placed_eq hg.toOffsets hchosen.toMarked hname), ?_⟩
      have hcontent := hcopy.content
      rw [hplaced.stream, List.nil_append, hplaced.data] at hcontent
      exact ⟨hcontent, fun h => (nomatch h), fun h => nomatch h⟩
  | @copied s t u hs ht h =>
      have hplaced := placed_of_position hg hchosen hs ht
      have hcopy := copy_spec (m := m) hplain hplaced.ready
      rw [h, ensures_ok] at hcopy
      rcases hcopy with ⟨pieces, t', ht', hu⟩
      refine ⟨u.sink.content, 0, Or.inl rfl,
        ⟨rfl, ?_, ?_, fun hname => Or.inl (placed_eq hg.toOffsets hchosen.toMarked hname)⟩,
        copies_of_ok hplaced.serves hplaced.data hplaced.stream hplaced.blocksIn ht' hu⟩
      · intro hname
        exact Or.inl (if_pos hname)
      · intro hname
        exact if_neg hname

/-- Nothing goes wrong on the machine, and a block is not more than a call of
`read` or `write` takes. Writes may still be cut short or interrupted, and reads
may be cut short. -/
structure Machine.Good (g : Globals) (m : Machine) : Prop where
  input : g.inName ≠ none → m.input ≠ none
  files : g.filesCnt ≤ 1
  output : g.outName ≠ none → m.output ≠ none
  memory : m.memory = true
  pipe : m.inPipe = true → g.inOffset * g.inDbsz ≤ (m.input.getD []).length
  seeks : g.outOffset ≠ 0 → m.outSeeks = true
  sizes : ¬ Oversized g.inDbsz ∧ ¬ Oversized g.outDbsz
  reads : .error ∉ m.serves
  writes : .failed ∉ m.answers ∧ .wrote 0 ∉ m.answers
  closing : m.closing.fsyncFails = false ∧ m.closing.closeFails = false

/-- The bytes a run without failures copies. -/
def chosen (g : Globals) (m : Machine) : Bytes :=
  if g.cpyCnt = 0 then wanted g m else (wanted g m).take (g.inDbsz * g.cpyCnt)

/-- What a run without failures leaves behind. -/
def chosenRan (g : Globals) (m : Machine) : Ran :=
  match g.outName with
  | none => ⟨chosen g m, .exited 0, none⟩
  | some _ =>
      ⟨ascii "0", .exited 0,
        some (resize (m.output.getD []) (g.outOffset * g.outDbsz) ++ chosen g m)⟩

theorem Machine.Good.setup (h : m.Good g) : ∃ s, setup g m = .ok s := by
  unfold Dd.setup
  rw [if_neg fun hbad => h.input (Option.isSome_iff_ne_none.1 hbad.1) hbad.2,
    if_neg (Nat.not_lt.2 h.files),
    if_neg fun hbad => h.output (Option.isSome_iff_ne_none.1 hbad.1) hbad.2, h.memory]
  exact ⟨_, rfl⟩

theorem Machine.Good.not_broken {t : State} {r : Report} (h : m.Good g) (ht : Placed g m t)
    (hr : r.Broken g m t) : False := by
  have hblamed := hr.blamed
  rw [ht.answers] at hblamed
  rcases hblamed with (⟨-, hb⟩ | ⟨-, hb⟩) | ⟨-, hb⟩ | (⟨-, hb⟩ | ⟨-, hb⟩)
  · exact hb.elim h.writes.1 h.sizes.2
  · exact h.writes.2 hb
  · exact hb.elim (fun hmem => h.reads (ht.serves.subset hmem)) h.sizes.1
  · rw [h.closing.1] at hb
    exact nomatch hb
  · rw [h.closing.2] at hb
    exact nomatch hb

/-- `if=a of=b ibs=3 obs=4 skip=1 seek=1`. -/
def sampleOperands : List Bytes :=
  [ascii "if=a", ascii "of=b", ascii "ibs=3", ascii "obs=4", ascii "skip=1", ascii "seek=1"]

def sampleGlobals : Globals where
  ddflags := {.if_, .of_, .ibs, .obs, .skip, .seek}
  inName := some (ascii "a")
  outName := some (ascii "b")
  inDbsz := 3
  outDbsz := 4
  inOffset := 1
  outOffset := 1
  cfunc := some .copy

theorem jcl_sample : jcl sampleOperands = .ok sampleGlobals := rfl

theorem sane_sample : sampleGlobals.Sane :=
  ⟨⟨by decide, by decide, by decide, by decide⟩, by decide⟩

/-- Nine bytes, read in pieces and written in pieces. -/
def sampleMachine : Machine where
  input := some [1, 2, 3, 4, 5, 6, 7, 8, 9]
  serves := [.short 0, .short 1]
  output := some [9, 9]
  answers := [.wrote 3, .intr]

end Su.Dd
