import TestActivity.Su.Dd.Out

/-!
# `dd_in`, `def` and `dd_close`

`dd_in` of `dd.c` reads blocks behind what the buffer holds and passes them on:
at once with `C_BS`, and otherwise through `def`, which calls `dd_out` when a
block of the output is full.

* `State.Ready` is what holds in front of every read.
* `ddIn_spec`: what was written, what is held back and what is left of the input
  make up the input, however the reads and the writes go.
-/

namespace Su.Dd

open Buffer Blocks Outcome

/-! ## The functions -/

/-- `read(in.fd, p, len)`: the bytes, or nothing for an error. A count that no call
of `read` takes fails by itself. -/
def Source.read (len : ℕ) (src : Source) : Option Bytes × Source :=
  if Oversized len then (none, src)
  else
    match src with
    | ⟨data, []⟩ => (some (data.take len), ⟨data.drop len, []⟩)
    | ⟨data, .short k :: serves⟩ =>
        (some (data.take (min (k + 1) len)), ⟨data.drop (min (k + 1) len), serves⟩)
    | ⟨data, .error :: serves⟩ => (none, ⟨data, serves⟩)

/-- A store into the buffer. -/
def State.fill (p : ℕ) (bs : Bytes) (s : State) : Except Report State :=
  if p + bs.length ≤ s.db.length then .ok { s with db := blit s.db p bs }
  else .error ⟨.overrun, s.sink⟩

/-- `def`; without a conversion `ctab` is `NULL`. -/
def defCopy (g : Globals) (s : State) : Except Report State :=
  let s := { s with outDbp := s.inDbp, outDbcnt := s.inDbcnt }
  if g.outDbsz ≤ s.inDbcnt then do
    let s ← ddOut g false s
    .ok { s with inDbp := s.outDbp, inDbcnt := s.outDbcnt }
  else .ok s

/-- The call of `cfunc`; `block` and `unblock` are stubs under `NO_CONV`. -/
def callCfunc (g : Globals) (s : State) : Except Report State :=
  match g.cfunc with
  | some .copy => defCopy g s
  | some .block | some .unblock => .error ⟨.noConv, s.sink⟩
  | none => .error ⟨.overrun, s.sink⟩

/-- What `dd_in` does with a block of `in.dbrcnt` bytes. -/
def passOn (g : Globals) (dbrcnt : ℕ) (s : State) : Except Report State :=
  if .bs ∈ g.ddflags then do
    let s ← ddOut g true { s with outDbcnt := s.inDbcnt }
    .ok { s with inDbcnt := 0 }
  else callCfunc g { s with inDbp := s.inDbp + dbrcnt }

/-- What `C_SYNC` fills the buffer with. -/
def padding (g : Globals) : Bytes :=
  List.replicate g.inDbsz (if g.ddflags ∩ {.block, .unblock} ≠ ∅ then 32 else 0)

/-- The count of full and partial input blocks. -/
def State.countIn (g : Globals) (bs : Bytes) (s : State) : State := { s with
  inFull := if bs.length = g.inDbsz then s.inFull + 1 else s.inFull
  inPart := if bs.length = g.inDbsz then s.inPart else s.inPart + 1 }

/-- What `dd_in` does with the bytes of a read. -/
def takeBlock (g : Globals) (bs : Bytes) (s : State) : Except Report State := do
  let s ← s.fill s.inDbp bs
  let dbrcnt := if .sync ∈ g.ddflags then g.inDbsz else bs.length
  passOn g dbrcnt { s.countIn g bs with inDbcnt := s.inDbcnt + dbrcnt }

/-- The `memset` of `dd_in` for `C_SYNC`. -/
def clearBlock (g : Globals) (s : State) : Except Report State :=
  if .sync ∈ g.ddflags then s.fill s.inDbp (padding g) else .ok s

/-- What `dd_in` does with the result of a read, and whether it goes on. -/
def afterRead (g : Globals) (s : State) : Option Bytes × Source → Except Report (Bool × State)
  | (some bs, src) =>
      if bs = [] then .ok (false, { s with src := src })
      else do
        let s ← takeBlock g bs { s with src := src }
        .ok (true, s)
  | (none, src) =>
      if .noerror ∉ g.ddflags then .error ⟨.readError, s.sink⟩
      else if .sync ∉ g.ddflags then .ok (true, { s with src := src })
      else do
        -- read errors count as full blocks
        let s ← passOn g g.inDbsz
          { s with src := src, inDbcnt := s.inDbcnt + g.inDbsz, inFull := s.inFull + 1 }
        .ok (true, s)

/-- A round of the loop of `dd_in`. -/
def ddInRound (g : Globals) (s : State) : Except Report (Bool × State) :=
  if g.cpyCnt ≠ 0 ∧ g.cpyCnt ≤ s.inFull + s.inPart then .ok (false, s)
  else do
    let s ← clearBlock g s
    afterRead g s (s.src.read (toSize g.inDbsz))

/-- The loop of `dd_in`. -/
def ddInLoop (g : Globals) : ℕ → State → Except Report State
  | 0, s => .error ⟨.endless, s.sink⟩
  | fuel + 1, s => do
      let (more, s) ← ddInRound g s
      if more then ddInLoop g fuel s else .ok s

/-- `dd_in`. -/
def ddIn (g : Globals) (s : State) : Except Report State :=
  ddInLoop g (s.src.data.length + s.src.serves.length + 1) s

/-- `def_close`. -/
def defClose (s : State) : State := if s.inDbcnt ≠ 0 then { s with outDbcnt := s.inDbcnt } else s

/-- Whether `fsync` and `close` fail on the output in a way that counts. -/
structure Closing where
  fsyncFails : Bool := false
  closeFails : Bool := false

/-- The end of `dd_close`. -/
def Closing.check (closing : Closing) (s : State) : Except Report State :=
  if closing.fsyncFails then .error ⟨.fsyncError, s.sink⟩
  else if closing.closeFails then .error ⟨.closeError, s.sink⟩
  else .ok s

/-- The last call of `dd_out` in `dd_close`. -/
def flushOut (g : Globals) (s : State) : Except Report State :=
  if s.outDbcnt ≠ 0 then ddOut g true s else .ok s

/-- `dd_close`. -/
def ddClose (g : Globals) (closing : Closing) (s : State) : Except Report State := do
  let s ← match g.cfunc with
    | some .copy => .ok (defClose s)
    | some .block | some .unblock => .error ⟨.noConv, s.sink⟩
    | none => .ok s
  let s ←
    if .osync ∈ g.ddflags ∧ s.outDbcnt < g.outDbsz then do
      let s ← s.fill s.outDbp (List.replicate (g.outDbsz - s.outDbcnt) 0)
      .ok { s with outDbcnt := g.outDbsz }
    else .ok s
  let s ← flushOut g s
  closing.check s

/-! ## One block -/

variable {g : Globals} {s s' : State} {bs : Bytes} {n dbrcnt fuel : ℕ}

/-- What the buffer holds back. -/
def State.held (s : State) : Bytes := slice s.db 0 s.inDbcnt

theorem held_src {src : Source} : ({ s with src := src } : State).held = s.held := rfl

/-- Everything that was read, in the output or in the buffer. -/
def State.stream (s : State) : Bytes := s.sink.content ++ s.held

/-- The settings that operands can lead to, with blocks that are not empty and a
size of the input's that is a `size_t`. -/
structure Globals.Plain (g : Globals) : Prop where
  inDbsz : 0 < g.inDbsz
  inSize : g.inDbsz < 4294967296
  outDbsz : 0 < g.outDbsz
  cfunc : g.cfunc = some .copy
  sync : .sync ∉ g.ddflags
  noerror : .noerror ∉ g.ddflags
  osync : .osync ∉ g.ddflags

theorem Globals.Chosen.plain (h : g.Chosen) (hin : 0 < g.inDbsz) (hsize : g.inDbsz < 4294967296)
    (hout : 0 < g.outDbsz) : g.Plain := by
  have hno : ∀ f, f ∉ ({.bs, .cbs, .count, .files, .ibs, .if_, .obs, .of_, .seek, .skip} :
      Finset Flag) → f ∉ g.ddflags := fun f hf hmem => hf (h.flags hmem)
  exact ⟨hin, hsize, hout, h.cfunc, hno _ (by simp), hno _ (by simp), hno _ (by simp)⟩

/-- What holds in front of every read: less than a block of the output is held
back, at the front of the buffer, and a block of the input fits behind it. -/
structure State.Ready (g : Globals) (s : State) : Prop where
  room : g.inDbsz + g.outDbsz ≤ s.db.length + 1
  inDbp : s.inDbp = s.inDbcnt
  outDbp : s.outDbp = s.inDbcnt
  outDbcnt : s.outDbcnt = s.inDbcnt
  short : s.inDbcnt < g.outDbsz
  unheld : .bs ∈ g.ddflags → s.inDbcnt = 0
  bytes : s.sink.bytes = s.sink.content.length

/-- What `dd_in` writes of `bs` at once, and what it holds back. -/
def cut (g : Globals) (bs : Bytes) : List Bytes × Bytes :=
  if .bs ∈ g.ddflags then ([bs], []) else (blocks g.outDbsz bs, rest g.outDbsz bs)

/-- What becomes of the bytes `bs` at the front of the buffer. -/
structure Passed (g : Globals) (s : State) (bs : Bytes) (s' : State) : Prop where
  ready : s'.Ready g
  stream : s'.stream = s.sink.content ++ bs
  src : s'.src = s.src
  inFull : s'.inFull = s.inFull
  inPart : s'.inPart = s.inPart
  answers : s'.answers <:+ s.answers
  whole : s.answers = [] → s'.sink = s.sink.tookAll g (cut g bs).1 ∧ s'.held = (cut g bs).2

/-- `s` has `bs` at the front of its buffer, the last `dbrcnt` bytes of them new. -/
structure State.Loaded (g : Globals) (dbrcnt : ℕ) (bs : Bytes) (s : State) : Prop where
  room : g.inDbsz + g.outDbsz ≤ s.db.length + 1
  bs : slice s.db 0 s.inDbcnt = bs
  fits : s.inDbcnt ≤ s.db.length
  inDbp : s.inDbp + dbrcnt = s.inDbcnt
  outDbp : s.outDbp = s.inDbp
  new : 0 < dbrcnt
  small : ¬ Oversized dbrcnt
  short : s.inDbp < g.outDbsz
  unheld : .bs ∈ g.ddflags → s.inDbp = 0
  bytes : s.sink.bytes = s.sink.content.length

theorem Sink.Grew.length {k k' : Sink} (h : k.Grew bs k') (hk : k.bytes = k.content.length) :
    k'.bytes = k'.content.length := by
  rw [h.bytes, h.content, List.length_append, hk]

theorem State.Loaded.length (h : s.Loaded g dbrcnt bs) : bs.length = s.inDbcnt := by
  rw [← h.bs, length_slice (by have := h.fits; omega)]

/-- `def` writes the full blocks and holds the rest back. -/
theorem defCopy_spec (hg : g.Plain) (hbs : .bs ∉ g.ddflags) (h : s.Loaded g dbrcnt bs) :
    Ensures (Passed g s bs) (fun r => r.Cut g s.answers s.sink bs)
      (defCopy g { s with inDbp := s.inDbp + dbrcnt }) := by
  have hlen := h.length
  have hcut : cut g bs = (blocks g.outDbsz bs, rest g.outDbsz bs) := if_neg hbs
  unfold defCopy
  by_cases hfull : g.outDbsz ≤ s.inDbcnt
  · simp only [hfull, if_true]
    refine (ddOut_spec hg.outDbsz hfull h.inDbp h.fits).mono (fun _ hs' => hs')
      (fun r hr => h.bs ▸ hr) |>.bind ?_
    intro s' hs'
    simp only [h.bs] at hs'
    have hlt : (rest g.outDbsz bs).length < g.outDbsz := length_rest_lt hg.outDbsz
    -- what is left is moved to the front of the buffer
    have hheld : slice s'.db 0 s'.outDbcnt = rest g.outDbsz bs := by rw [hs'.outDbcnt, hs'.left]
    refine ⟨⟨?_, ?_, ?_, rfl, ?_, fun hmem => absurd hmem hbs, ?_⟩, ?_, ?_, ?_, ?_, hs'.answers, ?_⟩
    · rw [hs'.size]
      exact h.room
    · show s'.outDbp = s'.outDbcnt
      rw [hs'.outDbp, hs'.outDbcnt]
    · show s'.outDbp = s'.outDbcnt
      rw [hs'.outDbp, hs'.outDbcnt]
    · show s'.outDbcnt < _
      rw [hs'.outDbcnt]
      exact hlt
    · exact hs'.grew.length h.bytes
    · show s'.sink.content ++ slice s'.db 0 s'.outDbcnt = _
      rw [hheld, hs'.grew.content, List.append_assoc, flatten_blocks hg.outDbsz]
    · rw [hs'.frame]
    · rw [hs'.frame]
    · rw [hs'.frame]
    · intro hnil
      rw [hcut]
      exact ⟨hs'.whole hnil, hheld⟩
  · simp only [hfull, if_false, ensures_ok]
    have hlt : bs.length < g.outDbsz := by omega
    refine ⟨⟨h.room, h.inDbp, h.inDbp, rfl, Nat.lt_of_not_le hfull, fun hmem => absurd hmem hbs,
      h.bytes⟩, ?_, rfl, rfl, rfl, List.suffix_refl _, ?_⟩
    · show s.sink.content ++ slice s.db 0 s.inDbcnt = _
      rw [h.bs]
    · intro _
      rw [hcut, blocks_of_lt hlt, rest_of_lt hlt]
      exact ⟨rfl, h.bs⟩

/-- A block is passed on without a loss. -/
theorem passOn_spec (hg : g.Plain) (h : s.Loaded g dbrcnt bs) :
    Ensures (Passed g s bs) (fun r => r.Cut g s.answers s.sink bs) (passOn g dbrcnt s) := by
  unfold passOn
  by_cases hbs : .bs ∈ g.ddflags
  · rw [if_pos hbs]
    have hpos : 0 < s.inDbcnt := by
      have hnew := h.new
      have hdbp := h.inDbp
      omega
    -- nothing was held back, so the block is what a read has given
    have hlong : Oversized s.inDbcnt → Oversized g.outDbsz := by
      intro hover
      have hdbp := h.inDbp
      have hzero := h.unheld hbs
      exact absurd ((show s.inDbcnt = dbrcnt by omega) ▸ hover) h.small
    refine (ddOut_force_spec hg.outDbsz hpos hlong h.fits).mono (fun _ hs' => hs')
      (fun r hr => h.bs ▸ hr) |>.bind ?_
    intro s' hs'
    simp only [h.bs] at hs'
    have hcut : cut g bs = ([bs], []) := if_pos hbs
    have hdbp : s'.inDbp = 0 := by
      rw [hs'.frame]
      exact h.unheld hbs
    refine ⟨⟨?_, hdbp, hs'.outDbp, hs'.outDbcnt, hg.outDbsz, fun _ => rfl, ?_⟩, ?_, ?_, ?_, ?_,
      hs'.answers, ?_⟩
    · rw [hs'.size]
      exact h.room
    · exact hs'.grew.length h.bytes
    · show s'.sink.content ++ slice s'.db 0 0 = _
      rw [hs'.grew.content]
      simp
    · rw [hs'.frame]
    · rw [hs'.frame]
    · rw [hs'.frame]
    · intro hnil
      rw [hcut]
      exact ⟨hs'.whole hnil, slice_zero⟩
  · rw [if_neg hbs, callCfunc, hg.cfunc]
    exact defCopy_spec hg hbs h

/-- The blocks that were read. -/
def State.blocksIn (s : State) : ℕ := s.inFull + s.inPart

/-- A block that was read stands behind what was held back. -/
theorem State.Ready.loaded {t : State} (h : s.Ready g) (hne : bs ≠ [])
    (hlen : bs.length ≤ g.inDbsz) (hsmall : ¬ Oversized bs.length)
    (hdb : t.db = blit s.db s.inDbp bs) (hdbcnt : t.inDbcnt = s.inDbcnt + bs.length)
    (hin : t.inDbp = s.inDbp) (hout : t.outDbp = s.outDbp) (hsink : t.sink = s.sink) :
    t.Loaded g bs.length (s.held ++ bs) := by
  have hpos : 0 < bs.length := List.length_pos_iff.2 hne
  have hroom := h.room
  have hdbp := h.inDbp
  have hshort := h.short
  have hsize : t.db.length = s.db.length := by
    rw [hdb, length_blit (by omega)]
  refine ⟨by omega, ?_, by omega, by omega, ?_, hpos, hsmall, by omega, ?_, ?_⟩
  · have hblit := @slice_blit_append _ s.db bs s.inDbp bs.length (by omega) le_rfl
    rw [List.take_length, hdbp] at hblit
    rw [hdb, hdbcnt, hdbp, hblit]
    rfl
  · rw [hout, hin, h.outDbp, hdbp]
  · intro hbs
    rw [hin, hdbp, h.unheld hbs]
  · rw [hsink]
    exact h.bytes

/-- What becomes of a block of the input. -/
structure Took (g : Globals) (s : State) (bs : Bytes) (s' : State) : Prop where
  ready : s'.Ready g
  stream : s'.stream = s.stream ++ bs
  src : s'.src = s.src
  inFull : s'.inFull = if bs.length = g.inDbsz then s.inFull + 1 else s.inFull
  inPart : s'.inPart = if bs.length = g.inDbsz then s.inPart else s.inPart + 1
  answers : s'.answers <:+ s.answers
  whole : s.answers = [] →
    s'.sink = s.sink.tookAll g (cut g (s.held ++ bs)).1 ∧ s'.held = (cut g (s.held ++ bs)).2

theorem Passed.took {t : State} (h : Passed g t (s.held ++ bs) s') (hsink : t.sink = s.sink)
    (hsrc : t.src = s.src) (hanswers : t.answers = s.answers)
    (hin : t.inFull = (s.countIn g bs).inFull ∧ t.inPart = (s.countIn g bs).inPart) :
    Took g s bs s' where
  ready := h.ready
  stream := by rw [h.stream, hsink, State.stream, List.append_assoc]
  src := h.src.trans hsrc
  inFull := h.inFull.trans hin.1
  inPart := h.inPart.trans hin.2
  answers := hanswers ▸ h.answers
  whole := hanswers ▸ hsink ▸ h.whole

theorem takeBlock_spec (hg : g.Plain) (h : s.Ready g) (hne : bs ≠ [])
    (hlen : bs.length ≤ g.inDbsz) (hsmall : ¬ Oversized bs.length) :
    Ensures (Took g s bs) (fun r => r.Cut g s.answers s.sink (s.held ++ bs))
      (takeBlock g bs s) := by
  have hroom : s.inDbp + bs.length ≤ s.db.length := by
    have hroom := h.room
    have hdbp := h.inDbp
    have hshort := h.short
    omega
  simp only [takeBlock, State.fill, hroom, if_true, hg.sync, if_false]
  have hloaded : State.Loaded g bs.length (s.held ++ bs)
      { State.countIn g bs { s with db := blit s.db s.inDbp bs } with
        inDbcnt := s.inDbcnt + bs.length } :=
    h.loaded hne hlen hsmall rfl rfl rfl rfl rfl
  refine (passOn_spec hg hloaded).mono ?_ fun r hr => hr
  intro s' hs'
  exact hs'.took rfl rfl rfl ⟨rfl, rfl⟩

theorem Took.blocksIn (h : Took g s bs s') : s'.blocksIn = s.blocksIn + 1 := by
  rw [State.blocksIn, h.inFull, h.inPart]
  split
  · exact Nat.add_right_comm _ _ _
  · rfl

/-! ## The loop -/

/-- Whether the count that was asked for is reached. -/
def State.enough (g : Globals) (s : State) : Prop := g.cpyCnt ≠ 0 ∧ g.cpyCnt ≤ s.blocksIn

/-- How far the source is from its end. -/
def Source.rank (src : Source) : ℕ := src.data.length + src.serves.length

/-- A read takes bytes off the front, some if there are any, or fails as asked. -/
theorem Source.read_spec {src src' : Source} {res : Option Bytes} {len : ℕ}
    (h : src.read len = (res, src')) :
    src'.serves <:+ src.serves ∧
      match res with
      | none => .error ∈ src.serves ∨ Oversized len
      | some bs => bs ++ src'.data = src.data ∧ (bs.length ≤ len ∧ ¬ Oversized len) ∧
          (0 < len → bs = [] → src.data = []) ∧
          (bs ≠ [] → src'.rank < src.rank) ∧
          (src.serves = [] → bs = src.data.take len) := by
  unfold read at h
  by_cases hover : Oversized len
  · rw [if_pos hover] at h
    cases h
    exact ⟨List.suffix_refl _, Or.inr hover⟩
  rw [if_neg hover] at h
  rcases src with ⟨data, _ | ⟨serve, serves⟩⟩
  · cases h
    refine ⟨List.suffix_refl _, List.take_append_drop _ _, ⟨by simp, hover⟩, ?_, ?_, fun _ => rfl⟩
    · -- an empty answer is the end of the data
      intro hlen hnil
      rcases List.take_eq_nil_iff.1 hnil with hzero | hdata
      · omega
      · exact hdata
    · intro hne
      have hlen : 0 < (data.take len).length := List.length_pos_iff.2 hne
      simp only [rank, List.length_drop, List.length_take] at hlen ⊢
      omega
  · cases serve with
    | short k =>
        cases h
        refine ⟨List.suffix_cons _ _, List.take_append_drop _ _, ⟨by simp, hover⟩, ?_, ?_,
          fun h => nomatch h⟩
        · intro hlen hnil
          rcases List.take_eq_nil_iff.1 hnil with hzero | hdata
          · omega
          · exact hdata
        · intro _
          simp only [rank, List.length_drop, List.length_cons]
          omega
    | error =>
        cases h
        exact ⟨List.suffix_cons _ _, Or.inl (by simp)⟩

/-- How the copying stops early: the output is left with a beginning of what it
was to get, and an answer, a read or the size of the blocks is to blame. -/
structure Report.Stopped (g : Globals) (s : State) (r : Report) : Prop where
  blamed : Blamed g s.answers r.why ∨
    r.why = .readError ∧ (.error ∈ s.src.serves ∨ Oversized g.inDbsz)
  content : r.sink.content <+: s.stream ++ s.src.data
  bytes : r.sink.bytes = r.sink.content.length

/-- How a round ends: it was the last one, at the end of the input or of the
count, or it read `bs`, which was taken. -/
inductive Round (g : Globals) (s : State) : Bool × State → Prop where
  | last {src : Source} (hdata : src.data = s.src.data)
      (hend : s.src.data = [] ∨ s.enough g) : Round g s (false, { s with src := src })
  | block {bs : Bytes} {src : Source} {s' : State} (hread : s.src.read g.inDbsz = (some bs, src))
      (hne : bs ≠ []) (hmore : ¬ s.enough g) (htook : Took g { s with src := src } bs s') :
      Round g s (true, s')

theorem toSize_natCast {n : ℕ} (h : n < 4294967296) : toSize n = n := by
  unfold toSize
  omega

/-- Without `C_SYNC` a round is a read and what follows it. -/
theorem ddInRound_eq (hg : g.Plain) (hmore : ¬ s.enough g) :
    ddInRound g s = afterRead g s (s.src.read g.inDbsz) := by
  have hclear : clearBlock g s = .ok s := if_neg hg.sync
  rw [ddInRound, if_neg (show ¬ (g.cpyCnt ≠ 0 ∧ g.cpyCnt ≤ s.inFull + s.inPart) from hmore), hclear,
    toSize_natCast hg.inSize]
  rfl

theorem ddInRound_spec (hg : g.Plain) (h : s.Ready g) :
    Ensures (Round g s) (fun r => r.Stopped g s) (ddInRound g s) := by
  by_cases hcount : s.enough g
  · rw [ddInRound, if_pos (show g.cpyCnt ≠ 0 ∧ g.cpyCnt ≤ s.inFull + s.inPart from hcount)]
    exact Round.last rfl (Or.inr hcount)
  rw [ddInRound_eq hg hcount]
  rcases hread : s.src.read g.inDbsz with ⟨_ | bs, src⟩
  · -- a read error
    rcases Source.read_spec hread with ⟨-, herror⟩
    rw [afterRead, if_pos hg.noerror]
    exact ⟨Or.inr ⟨rfl, herror⟩, ⟨s.held ++ s.src.data, by rw [State.stream, List.append_assoc]⟩,
      h.bytes⟩
  rcases Source.read_spec hread with ⟨-, hdata, ⟨hlen, hover⟩, hend, -, -⟩
  rw [afterRead]
  by_cases hnil : bs = []
  · -- the end of the input
    rw [if_pos hnil]
    rw [hnil, List.nil_append] at hdata
    exact Round.last hdata (Or.inl (hend hg.inDbsz hnil))
  · -- a block
    rw [if_neg hnil]
    have hready : State.Ready g { s with src := src } :=
      ⟨h.room, h.inDbp, h.outDbp, h.outDbcnt, h.short, h.unheld, h.bytes⟩
    have hsmall : ¬ Oversized bs.length := fun h => hover (le_trans h hlen)
    refine ((takeBlock_spec hg hready hnil hlen hsmall).mono (fun _ hs' => hs') ?_).bind ?_
    · intro r hr
      rcases hr.grew with ⟨cs, hcs, hgrew⟩
      refine ⟨Or.inl hr.blamed, ?_, hgrew.length h.bytes⟩
      rw [hgrew.content, ← hdata, State.stream, List.append_assoc, List.prefix_append_right_inj,
        ← List.append_assoc]
      exact hcs.trans (List.prefix_append _ _)
    · intro s' hs'
      exact Round.block hread hnil hcount hs'

/-- `Copied g s pieces s'`: from `s` on `dd_in` read `pieces` and returned in `s'`. -/
inductive Copied (g : Globals) : State → List Bytes → State → Prop where
  | last {s : State} {src : Source} (hdata : src.data = s.src.data)
      (hend : s.src.data = [] ∨ s.enough g) : Copied g s [] { s with src := src }
  | block {s t s' : State} {bs : Bytes} {src : Source} {pieces : List Bytes}
      (hread : s.src.read g.inDbsz = (some bs, src)) (hne : bs ≠ []) (hmore : ¬ s.enough g)
      (htook : Took g { s with src := src } bs t) (hrest : Copied g t pieces s') :
      Copied g s (bs :: pieces) s'

/-- A later end is an end of the whole. -/
theorem Report.Stopped.later {t : State} {r : Report} {src : Source} (h : r.Stopped g t)
    (hread : s.src.read g.inDbsz = (some bs, src)) (htook : Took g { s with src := src } bs t) :
    r.Stopped g s := by
  rcases Source.read_spec hread with ⟨hserves, hdata, -⟩
  refine ⟨?_, ?_, h.bytes⟩
  · refine h.blamed.imp (fun hb => hb.of_suffix htook.answers) fun hb =>
      ⟨hb.1, hb.2.imp_left fun hmem => ?_⟩
    rw [htook.src] at hmem
    exact hserves.subset hmem
  · have hcontent := h.content
    rw [htook.stream, htook.src, List.append_assoc, hdata] at hcontent
    exact hcontent

theorem ddInLoop_spec (hg : g.Plain) (h : s.Ready g) (hfuel : s.src.rank < fuel) :
    Ensures (fun s' => ∃ pieces, Copied g s pieces s') (fun r => r.Stopped g s)
      (ddInLoop g fuel s) := by
  induction fuel generalizing s with
  | zero => omega
  | succ fuel ih =>
      rw [ddInLoop]
      refine (ddInRound_spec hg h).bind ?_
      intro r hr
      cases hr with
      | last hdata hend => exact ⟨[], .last hdata hend⟩
      | @block bs src t hread hne hmore htook =>
          rcases Source.read_spec hread with ⟨-, -, -, -, hrank, -⟩
          have hcloser : t.src.rank < fuel := by
            rw [htook.src]
            exact (hrank hne).trans_le (Nat.le_of_lt_succ hfuel)
          refine (ih htook.ready hcloser).mono ?_ fun r hr => hr.later hread htook
          rintro s' ⟨pieces, hrest⟩
          exact ⟨bs :: pieces, .block hread hne hmore htook hrest⟩

/-- `dd_in` always comes to an end: it has copied what it read, or stopped with a
part of it written. -/
theorem ddIn_spec (hg : g.Plain) (h : s.Ready g) :
    Ensures (fun s' => ∃ pieces, Copied g s pieces s') (fun r => r.Stopped g s) (ddIn g s) :=
  ddInLoop_spec hg h (Nat.lt_succ_self _)

/-! ## What a run copies -/

variable {pieces : List Bytes}

theorem Copied.ready (h : Copied g s pieces s') (hs : s.Ready g) : s'.Ready g := by
  induction h with
  | last => exact ⟨hs.room, hs.inDbp, hs.outDbp, hs.outDbcnt, hs.short, hs.unheld, hs.bytes⟩
  | block _ _ _ htook _ ih => exact ih htook.ready

/-- What was read is in the output or held back. -/
theorem Copied.stream (h : Copied g s pieces s') : s'.stream = s.stream ++ pieces.flatten := by
  induction h with
  | last => exact (List.append_nil _).symm
  | block _ _ _ htook _ ih =>
      rw [ih, htook.stream, List.flatten_cons, List.append_assoc]
      rfl

/-- What was read came off the front of the input. -/
theorem Copied.data (h : Copied g s pieces s') :
    pieces.flatten ++ s'.src.data = s.src.data := by
  induction h with
  | last hdata _ => exact hdata
  | block hread _ _ htook _ ih =>
      rcases Source.read_spec hread with ⟨-, hdata, -⟩
      rw [List.flatten_cons, List.append_assoc, ih, htook.src, hdata]

theorem Copied.answers (h : Copied g s pieces s') : s'.answers <:+ s.answers := by
  induction h with
  | last => exact List.suffix_refl _
  | block _ _ _ htook _ ih => exact ih.trans htook.answers

theorem Copied.blocksIn (h : Copied g s pieces s') :
    s'.blocksIn = s.blocksIn + pieces.length := by
  induction h with
  | last => rfl
  | @block s t s' bs src pieces _ _ _ htook _ ih =>
      have hblocks : t.blocksIn = s.blocksIn + 1 := htook.blocksIn
      rw [ih, hblocks, List.length_cons]
      omega

/-- The copying goes on to the end of the input, or of the count. -/
theorem Copied.finished (h : Copied g s pieces s') : s'.src.data = [] ∨ s'.enough g := by
  induction h with
  | last hdata hend => exact hend.imp (fun h => hdata.trans h) id
  | block _ _ _ _ _ ih => exact ih

/-- The count is not exceeded. -/
theorem Copied.length_le (h : Copied g s pieces s') (hcount : g.cpyCnt ≠ 0) :
    pieces.length ≤ g.cpyCnt - s.blocksIn := by
  induction h with
  | last => simp
  | @block s t s' bs src pieces _ _ hmore htook _ ih =>
      have hlt : s.blocksIn < g.cpyCnt := by
        by_contra hle
        exact hmore ⟨hcount, by omega⟩
      have hblocks : t.blocksIn = s.blocksIn + 1 := htook.blocksIn
      rw [hblocks] at ih
      rw [List.length_cons]
      omega

/-- When every read gets what it asks for, the count counts blocks of `in.dbsz`. -/
theorem Copied.left (h : Copied g s pieces s') (hserves : s.src.serves = []) :
    s'.src.data =
      if g.cpyCnt = 0 then [] else s.src.data.drop (g.inDbsz * (g.cpyCnt - s.blocksIn)) := by
  induction h with
  | @last s src hdata hend =>
      rw [show ({ s with src := src } : State).src.data = s.src.data from hdata]
      rcases hend with hnil | ⟨hcount, hle⟩
      · simp [hnil]
      · rw [if_neg hcount, Nat.sub_eq_zero_of_le hle, Nat.mul_zero, List.drop_zero]
  | @block s t s' bs src pieces hread _ hmore htook _ ih =>
      rcases Source.read_spec hread with ⟨hsuffix, hdata, -, -, -, hfull⟩
      have hserves' : t.src.serves = [] := by
        rw [htook.src]
        exact List.suffix_nil.1 (hserves ▸ hsuffix)
      -- no read is cut, so each takes a whole block
      have hbs := hfull hserves
      have hsrc : t.src.data = s.src.data.drop g.inDbsz := by
        rw [htook.src]
        have hsplit : bs ++ src.data = s.src.data.take g.inDbsz ++ s.src.data.drop g.inDbsz := by
          rw [hdata, List.take_append_drop]
        rw [hbs] at hsplit
        exact List.append_cancel_left hsplit
      rw [ih hserves', hsrc]
      by_cases hcount : g.cpyCnt = 0
      · rw [if_pos hcount, if_pos hcount]
      · have hlt : s.blocksIn < g.cpyCnt := by
          by_contra hle
          exact hmore ⟨hcount, by omega⟩
        have hblocks : t.blocksIn = s.blocksIn + 1 := htook.blocksIn
        have hsub : g.cpyCnt - s.blocksIn = g.cpyCnt - t.blocksIn + 1 := by omega
        rw [if_neg hcount, if_neg hcount, List.drop_drop, hsub, Nat.mul_add, Nat.mul_one,
          Nat.add_comm g.inDbsz]

theorem Sink.tookAll_append {k : Sink} {bss css : List Bytes} :
    k.tookAll g (bss ++ css) = (k.tookAll g bss).tookAll g css :=
  List.foldl_append

/-- When every write is accepted, the calls of `write` are the full blocks of
the stream: how the reads have cut it does not show. -/
theorem Copied.reblocked {k : Sink} {bs : Bytes} (h : Copied g s pieces s')
    (hobs : 0 < g.outDbsz) (hbs : .bs ∉ g.ddflags) (hanswers : s.answers = [])
    (hsink : s.sink = k.tookAll g (blocks g.outDbsz bs)) (hheld : s.held = rest g.outDbsz bs) :
    s'.sink = k.tookAll g (blocks g.outDbsz (bs ++ pieces.flatten)) ∧
      s'.held = rest g.outDbsz (bs ++ pieces.flatten) := by
  induction h generalizing bs with
  | last =>
      rw [List.flatten_nil, List.append_nil]
      exact ⟨hsink, hheld⟩
  | @block s t s' piece src pieces _ _ _ htook _ ih =>
      have hanswers' : t.answers = [] := List.suffix_nil.1 (hanswers ▸ htook.answers)
      have hwhole := htook.whole hanswers
      have hcut : cut g (s.held ++ piece) =
          (blocks g.outDbsz (s.held ++ piece), rest g.outDbsz (s.held ++ piece)) := if_neg hbs
      rcases blocks_append (l := bs) (m := piece) hobs with ⟨hblocks, hrest⟩
      have hsink' : t.sink = k.tookAll g (blocks g.outDbsz (bs ++ piece)) := by
        rw [hblocks, Sink.tookAll_append, ← hsink, ← hheld]
        exact hwhole.1.trans (by rw [held_src, hcut])
      have hheld' : t.held = rest g.outDbsz (bs ++ piece) := by
        rw [hrest, ← hheld]
        exact hwhole.2.trans (by rw [held_src, hcut])
      have hih := ih hanswers' hsink' hheld'
      rwa [List.append_assoc] at hih

/-- With `C_BS` and no short writes there is a call of `write` for every read. -/
theorem Copied.unbuffered (h : Copied g s pieces s') (hbs : .bs ∈ g.ddflags)
    (hready : s.Ready g) (hanswers : s.answers = []) :
    s'.sink = s.sink.tookAll g pieces ∧ s'.held = [] := by
  induction h with
  | @last s =>
      refine ⟨rfl, ?_⟩
      show slice s.db 0 s.inDbcnt = []
      rw [hready.unheld hbs, slice_zero]
  | @block s t s' piece src pieces _ _ _ htook _ ih =>
      have hanswers' : t.answers = [] := List.suffix_nil.1 (hanswers ▸ htook.answers)
      have hheld : s.held = [] := by
        rw [State.held, hready.unheld hbs, slice_zero]
      have hcut : cut g (s.held ++ piece) = ([piece], []) := by
        rw [hheld]
        exact if_pos hbs
      have hsink : t.sink = s.sink.tookAll g [piece] :=
        (htook.whole hanswers).1.trans (by rw [held_src, hcut])
      rcases ih htook.ready hanswers' with ⟨hih, hlast⟩
      refine ⟨?_, hlast⟩
      rw [hih, hsink, ← Sink.tookAll_append]
      rfl

/-! ## The end -/

/-- `fsync` or `close` is to blame for the failure. -/
def Closing.Blamed (closing : Closing) (why : Failure) : Prop :=
  why = .fsyncError ∧ closing.fsyncFails ∨ why = .closeError ∧ closing.closeFails

theorem defClose_eq (h : s.outDbcnt = s.inDbcnt) : defClose s = s := by
  rcases s with ⟨db, inDbp, inDbcnt, outDbp, outDbcnt, inFull, inPart, sink, src, answers⟩
  obtain rfl : outDbcnt = inDbcnt := h
  exact ite_self _

/-- The last block is written, unless nothing is held back. -/
structure Closed (g : Globals) (s s' : State) : Prop where
  content : s'.sink.content = s.stream
  bytes : s'.sink.bytes = s'.sink.content.length
  inFull : s'.inFull = s.inFull
  inPart : s'.inPart = s.inPart
  whole : s.answers = [] → s'.sink = s.sink.tookAll g (if s.held = [] then [] else [s.held])

/-- `dd_close` writes what is held back, as a block of its own. -/
theorem ddClose_spec {closing : Closing} (hg : g.Plain) (h : s.Ready g) :
    Ensures (Closed g s)
      (fun r => (Dd.Blamed g s.answers r.why ∨ closing.Blamed r.why) ∧
        r.sink.content <+: s.stream ∧ r.sink.bytes = r.sink.content.length)
      (ddClose g closing s) := by
  simp only [ddClose, hg.cfunc, hg.osync, false_and, if_false]
  refine Ensures.bind (Q := fun t => t = s) (defClose_eq h.outDbcnt) ?_
  rintro t rfl
  refine Ensures.bind (Q := fun t' => t' = t) rfl ?_
  rintro t rfl
  refine Ensures.bind (Q := Closed g t) ?_ ?_
  · -- the bytes held back are the beginning of the buffer
    unfold flushOut
    have hbuf : slice t.db 0 t.outDbcnt = t.held := by rw [h.outDbcnt]; rfl
    by_cases hzero : t.outDbcnt = 0
    · have hnil : t.held = [] := by rw [← hbuf, hzero, slice_zero]
      simp only [hzero, ne_eq, not_true_eq_false, if_false, ensures_ok]
      refine ⟨?_, h.bytes, rfl, rfl, fun _ => ?_⟩
      · rw [State.stream, hnil, List.append_nil]
      · rw [if_pos hnil]
        rfl
    · simp only [hzero, ne_eq, not_false_eq_true, if_true]
      have hfits : t.outDbcnt ≤ t.db.length := by
        have hroom := h.room
        have hshort := h.short
        have hcnt := h.outDbcnt
        have hin := hg.inDbsz
        omega
      have hlong : Oversized t.outDbcnt → Oversized g.outDbsz := fun hover =>
        le_trans hover (h.outDbcnt ▸ h.short.le)
      refine (ddOut_force_spec hg.outDbsz (Nat.pos_of_ne_zero hzero) hlong hfits).mono ?_ ?_
      · intro s' hs'
        rw [hbuf] at hs'
        have hcontent : s'.sink.content = t.stream := by
          rw [hs'.grew.content, List.flatten_cons, List.flatten_nil, List.append_nil]
          rfl
        refine ⟨hcontent, hs'.grew.length h.bytes, ?_, ?_, fun hnil => ?_⟩
        · rw [hs'.frame]
        · rw [hs'.frame]
        · have hne : t.held ≠ [] := by
            rw [← hbuf, ← List.length_pos_iff, length_slice (by omega)]
            exact Nat.pos_of_ne_zero hzero
          rw [if_neg hne]
          exact hs'.whole hnil
      · intro r hr
        rw [hbuf] at hr
        rcases hr.grew with ⟨cs, hcs, hgrew⟩
        refine ⟨Or.inl hr.blamed, ?_, hgrew.length h.bytes⟩
        rw [hgrew.content, State.stream, List.prefix_append_right_inj]
        exact hcs
  · -- all is written by now, so a failure here takes nothing away
    intro s' hs'
    have hprefix : s'.sink.content <+: t.stream := hs'.content ▸ List.prefix_refl _
    unfold Closing.check
    by_cases hfsync : closing.fsyncFails
    · simp only [hfsync, if_true, ensures_error]
      exact ⟨Or.inr (Or.inl ⟨rfl, hfsync⟩), hprefix, hs'.bytes⟩
    by_cases hclose : closing.closeFails
    · simp only [hfsync, hclose, if_true]
      exact ⟨Or.inr (Or.inr ⟨rfl, hclose⟩), hprefix, hs'.bytes⟩
    · simp only [hfsync, hclose]
      exact hs'

end Su.Dd
