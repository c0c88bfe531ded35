import TestActivity.Su.Dd.Overrun

/-!
# The records of `dd`

When the kernel takes every block in one call of `write`, the calls are the full
blocks of what is copied, and one for the rest: how the reads have cut the input
does not show in them. With `bs=` there is a call for every read instead.
-/

namespace Su.Dd

open Buffer Blocks Outcome

variable {g : Globals} {m : Machine} {s s' : State} {k : Sink} {bs r : Bytes}
  {bss pieces : List Bytes} {n : ℕ}

/-- The blocks of `n` of a stream with what is left behind them. -/
def records (n : ℕ) (bs : Bytes) : List Bytes :=
  blocks n bs ++ if rest n bs = [] then [] else [rest n bs]

theorem records_eq (hbss : ∀ b ∈ bss, b.length = n) (hr : r.length < n) :
    records n (bss.flatten ++ r) = bss ++ if r = [] then [] else [r] := by
  rcases blocks_unique hbss hr with ⟨hblocks, hrest⟩
  rw [records, hblocks, hrest]

theorem ne_nil_of_mem_records (hn : 0 < n) {b : Bytes} (hb : b ∈ records n bs) : b ≠ [] := by
  rcases List.mem_append.1 hb with hb | hb
  · rw [← List.length_pos_iff, length_of_mem_blocks hb]
    exact hn
  · split at hb
    · exact absurd hb List.not_mem_nil
    · next hne =>
        rw [List.mem_singleton.1 hb]
        exact hne

/-- The full records are counted by the quotient. -/
theorem countP_records (hn : 0 < n) :
    (records n bs).countP (·.length = n) = bs.length / n := by
  have hfull : (blocks n bs).countP (·.length = n) = bs.length / n := by
    rw [← length_blocks (n := n) (l := bs), List.countP_eq_length]
    intro b hb
    simpa using length_of_mem_blocks hb
  have hlast : (if rest n bs = [] then [] else [rest n bs]).countP (·.length = n) = 0 := by
    rw [List.countP_eq_zero]
    intro b hb
    split at hb
    · exact absurd hb List.not_mem_nil
    · have hlt := length_rest_lt (l := bs) hn
      rw [List.mem_singleton.1 hb]
      simp [Nat.ne_of_lt hlt]
  rw [records, List.countP_append, hfull, hlast, Nat.add_zero]

/-- There is a partial record if the size does not divide. -/
theorem countP_records_ne (hn : 0 < n) :
    (records n bs).countP (·.length ≠ n) = if bs.length % n = 0 then 0 else 1 := by
  have hfull : (blocks n bs).countP (·.length ≠ n) = 0 := by
    rw [List.countP_eq_zero]
    intro b hb
    simpa using length_of_mem_blocks hb
  have hlen : (rest n bs).length = bs.length % n := by
    have hdiv := Nat.div_add_mod bs.length n
    rw [rest, List.length_drop]
    omega
  have hlt := length_rest_lt (l := bs) hn
  rw [records, List.countP_append, hfull, Nat.zero_add, ← hlen]
  by_cases hnil : rest n bs = []
  · simp [hnil]
  · have hne : (rest n bs).length ≠ 0 := mt List.length_eq_zero_iff.1 hnil
    simp [hnil, Nat.ne_of_lt hlt]

/-! ## The statistics of the output -/

theorem written_tookAll (hbss : ∀ b ∈ bss, b ≠ []) :
    (k.tookAll g bss).written = k.written ++ bss := by
  induction bss generalizing k with
  | nil => exact (List.append_nil _).symm
  | cons b bss ih =>
      have hb : b ≠ [] := hbss b (by simp)
      rw [Sink.tookAll, List.foldl_cons]
      refine (ih (k := k.took g b.length b) fun b' hb' => hbss b' (by simp [hb'])).trans ?_
      rw [Sink.took, if_neg hb, List.append_assoc]
      rfl

theorem outFull_tookAll :
    (k.tookAll g bss).outFull = k.outFull + bss.countP (·.length = g.outDbsz) := by
  induction bss generalizing k with
  | nil => rfl
  | cons b bss ih =>
      rw [Sink.tookAll, List.foldl_cons]
      refine (ih (k := k.took g b.length b)).trans ?_
      rw [List.countP_cons, Sink.took]
      by_cases hb : b.length = g.outDbsz
      · simp only [hb, true_and, if_true, decide_true]
        omega
      · simp [hb]

theorem outPart_tookAll :
    (k.tookAll g bss).outPart = k.outPart + bss.countP (·.length ≠ g.outDbsz) := by
  induction bss generalizing k with
  | nil => rfl
  | cons b bss ih =>
      rw [Sink.tookAll, List.foldl_cons]
      refine (ih (k := k.took g b.length b)).trans ?_
      rw [List.countP_cons, Sink.took]
      by_cases hb : b.length = g.outDbsz
      · simp [hb]
      · simp only [hb, true_and, if_false, ne_eq, not_false_eq_true, decide_true, if_true]
        omega

/-! ## The statistics of the input -/

theorem Copied.inFull (h : Copied g s pieces s') :
    s'.inFull = s.inFull + pieces.countP (·.length = g.inDbsz) := by
  induction h with
  | last => rfl
  | @block s t s' bs src pieces _ _ _ htook _ ih =>
      rw [ih, htook.inFull, List.countP_cons]
      by_cases hfull : bs.length = g.inDbsz
      · simp only [hfull, if_true, decide_true]
        omega
      · simp [hfull]

theorem Copied.inPart (h : Copied g s pieces s') :
    s'.inPart = s.inPart + pieces.countP (·.length ≠ g.inDbsz) := by
  induction h with
  | last => rfl
  | @block s t s' bs src pieces _ _ _ htook _ ih =>
      rw [ih, htook.inPart, List.countP_cons]
      by_cases hfull : bs.length = g.inDbsz
      · simp [hfull]
      · simp only [hfull, if_false, ne_eq, not_false_eq_true, decide_true, if_true]
        omega

/-- At the end of the input nothing more is read. -/
theorem Copied.pieces_nil (h : Copied g s pieces s') (hdata : s.src.data = []) : pieces = [] := by
  cases h with
  | last => rfl
  | block hread hne =>
      rcases Source.read_spec hread with ⟨-, hsplit, -⟩
      rw [hdata, List.append_eq_nil_iff] at hsplit
      exact absurd hsplit.1 hne

/-- Reads that are not cut are the records of the input. -/
theorem Copied.pieces_eq (h : Copied g s pieces s') (hin : 0 < g.inDbsz)
    (hserves : s.src.serves = []) : pieces = records g.inDbsz pieces.flatten := by
  suffices hcut : ∃ bss r, pieces = bss ++ (if r = [] then [] else [r]) ∧
      (∀ b ∈ bss, b.length = g.inDbsz) ∧ r.length < g.inDbsz by
    rcases hcut with ⟨bss, r, rfl, hbss, hr⟩
    have hflat : (bss ++ if r = [] then [] else [r]).flatten = bss.flatten ++ r := by
      split
      · next hnil => simp [hnil]
      · simp
    rw [hflat, records_eq hbss hr]
  induction h with
  | last => exact ⟨[], [], by simp, by simp, hin⟩
  | @block s t s' bs src pieces hread hne _ htook hrest ih =>
      rcases Source.read_spec hread with ⟨hsuffix, hdata, hlen, -, -, hfull⟩
      have hserves' : t.src.serves = [] := by
        rw [htook.src]
        exact List.suffix_nil.1 (hserves ▸ hsuffix)
      by_cases hsize : bs.length = g.inDbsz
      · rcases ih hserves' with ⟨bss, r, hpieces, hbss, hr⟩
        refine ⟨bs :: bss, r, by rw [hpieces, List.cons_append], ?_, hr⟩
        intro b hb
        rcases List.mem_cons.1 hb with rfl | hb
        · exact hsize
        · exact hbss b hb
      · -- the read was short because the input ends here
        have hend : t.src.data = [] := by
          rw [htook.src]
          have hbs := hfull hserves
          have hshort : s.src.data.length ≤ g.inDbsz := by
            rw [hbs, List.length_take] at hsize
            omega
          rw [List.take_of_length_le hshort] at hbs
          rw [hbs] at hdata
          exact List.append_right_eq_self.1 hdata
        rw [hrest.pieces_nil hend]
        exact ⟨[], bs, by rw [if_neg hne, List.nil_append], by simp, by omega⟩

/-! ## The run -/

/-- What the output and the statistics look like when `bs` was copied in whole
records. -/
structure Recorded (g : Globals) (bs : Bytes) (s : State) : Prop where
  written : s.sink.written = records g.outDbsz bs
  outFull : s.sink.outFull = bs.length / g.outDbsz
  outPart : s.sink.outPart = if bs.length % g.outDbsz = 0 then 0 else 1
  bytes : s.sink.bytes = bs.length

theorem recorded_of_sink (hout : 0 < g.outDbsz) (hbytes : s.sink.bytes = s.sink.content.length)
    (hcontent : s.sink.content = bs)
    (hsink : s.sink = ({} : Sink).tookAll g (records g.outDbsz bs)) : Recorded g bs s where
  written := by
    rw [hsink, written_tookAll fun b hb => ne_nil_of_mem_records hout hb]
    rfl
  outFull := by
    rw [hsink, outFull_tookAll, countP_records hout]
    exact Nat.zero_add _
  outPart := by
    rw [hsink, outPart_tookAll, countP_records_ne hout]
    exact Nat.zero_add _
  bytes := by rw [hbytes, hcontent]

/-- A run that ends well has written the records of what it has copied, if no
write was cut short and, with `bs=`, no read either; and it has read the
records of it, if no read was cut short. -/
theorem copy_records {argv : List Bytes} {t u : State} (hjcl : jcl argv = .ok g) (hg : g.Sane)
    (hs : setup g m = .ok s) (ht : position g m s = .ok t) (hu : copy g m t = .ok u)
    (hanswers : m.answers = []) :
    ((.bs ∉ g.ddflags ∨ m.serves = []) → Recorded g u.sink.content u) ∧
      (m.serves = [] → u.inFull = u.sink.content.length / g.inDbsz ∧
        u.inPart = if u.sink.content.length % g.inDbsz = 0 then 0 else 1) := by
  have hchosen := Globals.Chosen.of_jcl hjcl
  have hplain := hchosen.plain_of_sane hg
  have hplaced := placed_of_position hg hchosen hs ht
  have hcopy := copy_spec (m := m) hplain hplaced.ready
  rw [hu, ensures_ok] at hcopy
  rcases hcopy with ⟨pieces, t', ht', hclosed⟩
  have hstream : t'.stream = pieces.flatten := by
    rw [ht'.stream, hplaced.stream, List.nil_append]
  have hcontent : u.sink.content = pieces.flatten := hclosed.content.trans hstream
  have hnone : t.answers = [] := hplaced.answers.trans hanswers
  have hlast : u.sink = t'.sink.tookAll g (if t'.held = [] then [] else [t'.held]) :=
    hclosed.whole (List.suffix_nil.1 (hnone ▸ ht'.answers))
  have hpieces : m.serves = [] → pieces = records g.inDbsz pieces.flatten := fun hserves =>
    ht'.pieces_eq hg.inDbsz (List.suffix_nil.1 (hserves ▸ hplaced.serves))
  rw [hcontent]
  refine ⟨fun hmode => recorded_of_sink hg.outDbsz hclosed.bytes hcontent ?_, fun hserves => ?_⟩
  · by_cases hbs : .bs ∈ g.ddflags
    · -- a call of `write` for every read
      have hsizes := (hchosen.bs hbs).1
      rcases ht'.unbuffered hbs hplaced.ready hnone with ⟨hsink, hheld⟩
      rw [hlast, hheld, if_pos rfl, hsink, hplaced.sink, ← hsizes,
        ← hpieces (hmode.resolve_left (not_not.2 hbs))]
      rfl
    · have hempty : t.sink = ({} : Sink).tookAll g (blocks g.outDbsz []) := by
        rw [hplaced.sink, blocks_nil]
        rfl
      rcases ht'.reblocked hg.outDbsz hbs hnone hempty (hplaced.held.trans rest_nil.symm) with
        ⟨hsink, hheld⟩
      rw [List.nil_append] at hsink hheld
      rw [hlast, hsink, hheld, ← Sink.tookAll_append]
      rfl
  · have hzero := hplaced.blocksIn
    rw [State.blocksIn, Nat.add_eq_zero_iff] at hzero
    have hfull := ht'.inFull
    have hpart := ht'.inPart
    rw [hzero.1, Nat.zero_add, hpieces hserves, countP_records hg.inDbsz] at hfull
    rw [hzero.2, Nat.zero_add, hpieces hserves, countP_records_ne hg.inDbsz] at hpart
    rw [hclosed.inFull, hclosed.inPart]
    exact ⟨hfull, hpart⟩

/-- `if=a of=b ibs=2 obs=3`. -/
def recordGlobals : Globals where
  ddflags := {.if_, .of_, .ibs, .obs}
  inName := some (ascii "a")
  outName := some (ascii "b")
  inDbsz := 2
  outDbsz := 3
  cfunc := some .copy

/-- Five bytes, the first of them read alone. -/
def recordMachine : Machine where
  input := some [1, 2, 3, 4, 5]
  serves := [.short 0]
  output := some []

/-- The state in front of the copying. -/
def recordStart : State := .start 4 ⟨[1, 2, 3, 4, 5], [.short 0]⟩ []

/-- The state behind it. -/
def recordEnd : State where
  db := [4, 5, 3, 0]
  inDbp := 2
  inDbcnt := 2
  inFull := 2
  inPart := 1
  sink := ⟨[[1, 2, 3], [4, 5]], 1, 1, 5⟩
  src := ⟨[], []⟩
  answers := []

theorem copy_recordStart : copy recordGlobals recordMachine recordStart = .ok recordEnd := by
  decide +kernel

theorem jcl_record :
    jcl [ascii "if=a", ascii "of=b", ascii "ibs=2", ascii "obs=3"] = .ok recordGlobals := rfl

theorem copy_records_sample :
    ((.bs ∉ recordGlobals.ddflags ∨ recordMachine.serves = []) →
        Recorded recordGlobals recordEnd.sink.content recordEnd) ∧
      (recordMachine.serves = [] →
        recordEnd.inFull = recordEnd.sink.content.length / recordGlobals.inDbsz ∧
          recordEnd.inPart =
            if recordEnd.sink.content.length % recordGlobals.inDbsz = 0 then 0 else 1) :=
  copy_records jcl_record ⟨⟨by decide, by decide, by decide, by decide⟩, by decide⟩
    (show setup recordGlobals recordMachine = .ok recordStart from rfl)
    (show position recordGlobals recordMachine recordStart = .ok recordStart from rfl)
    copy_recordStart rfl

end Su.Dd
