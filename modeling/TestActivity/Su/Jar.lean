import TestActivity.Su.XData

/-!
# `checksignature`

Before a client is checked, the jar at `jar_path` is compared with `XDATA`; if
it differs it is unlinked and extracted again, one `write` for every byte. Then
the verifier is started with `CLASSPATH=jar_path`, once for its exit status and
once for what it prints.

No result of `write` is looked at. `launched_jar_iff` says for which outcomes
of the system calls the verifier still runs the jar that was compiled in.

The file at `jar_path` is its content, or `none`. `XDATA` is the text of some
jar, see `XData`.
-/

namespace Su

/-- The outcomes of the system calls on `jar_path`, in the order of the calls. -/
structure FileOps where
  statOk : Bool
  openReadOk : Bool
  /-- the `i`-th `readx` returns the next byte, if there is one -/
  readOk : ℕ → Bool
  unlinkOk : Bool
  openWriteOk : Bool
  /-- the `i`-th `write` returns 1 -/
  writeOk : ℕ → Bool
  /-- `unlink` after a failed extraction -/
  unlinkAgainOk : Bool
  chmodOk : Bool

/-- The loop of `validatejar` behind `open`, on what is left of the file. The
decoded value is compared as an `int`. -/
def validateLoop (readOk : ℕ → Bool) : ℕ → Bool → ℤ → Bytes → Bytes → Bool
  | _, _, _, [], _ => true
  | n, true, _, c :: cs, file => validateLoop readOk n false c.toNat cs file
  | n, false, index, c :: cs, file =>
      let offset := findoffset index
      if offset = -1000 then false
      else
        match file with
        | [] => false
        | b :: file =>
            if readOk n && (c.toNat + offset == b.toNat) then
              validateLoop readOk (n + 1) true index cs file
            else false

/-- `validatejar(path) == 0`. -/
def validatejar (xdata : Bytes) (file : Option Bytes) (ops : FileOps) : Bool :=
  match file with
  | none => false
  | some bs =>
      if !ops.statOk then false
      else if bs.length * 2 ≠ xdata.length then false
      else if !ops.openReadOk then false
      else validateLoop ops.readOk 0 true 121 xdata bs

/-- `extractjar`: the file afterwards, and whether 0 is returned. -/
def extractjar (xdata : Bytes) (file : Option Bytes) (ops : FileOps) : Option Bytes × Bool :=
  if !ops.openWriteOk then (file, false)
  else
    let (bs, ok) := extractLoop ops.writeOk 0 true 121 xdata
    (some bs, ok)

/-- `checksignature` up to the verifier: the file, and whether the verifier is
started. -/
def prepareJar (xdata : Bytes) (file : Option Bytes) (ops : FileOps) : Option Bytes × Bool :=
  if validatejar xdata file ops then (file, true)
  else
    -- neither `unlink` nor the writes are checked
    let unlinked := if ops.unlinkOk then none else file
    let (extracted, ok) := extractjar xdata unlinked ops
    if !ok then (if ops.unlinkAgainOk then none else extracted, false)
    else if !ops.chmodOk then (extracted, false)
    else (extracted, true)

/-- `WEXITSTATUS`. -/
def wexitstatus (status : ℤ) : ℤ := status / 256 % 256

/-- What the verifier answers for a jar: the wait status of its first run (`-1`
if it could not be started), and the number its second run prints. -/
structure Verifier where
  system : Option Bytes → ℤ
  system2 : Option Bytes → ℤ

/-- `checksignature`: 0 if one of the two runs says 100. -/
def checksignature (xdata : Bytes) (file : Option Bytes) (ops : FileOps) (v : Verifier) :
    Option Bytes × ℤ :=
  let (file, started) := prepareJar xdata file ops
  if !started then (file, -1)
  else
    let status := if v.system file ≠ -1 then wexitstatus (v.system file) else -1
    let status := if status ≠ 100 then v.system2 file else status
    (file, if status = 100 then 0 else -1)

/-! ## The comparison -/

section Jar

variable {jar : Bytes} {file : Option Bytes} {ops : FileOps}

/-- The comparison reads the jar byte by byte and finds nothing else. -/
theorem validateLoop_encode (readOk : ℕ → Bool) (bs content : Bytes) (n : ℕ) (index : ℤ) :
    validateLoop readOk n true index (encodeText bs) content = true ↔
      bs <+: content ∧ ∀ i < bs.length, readOk (n + i) = true := by
  induction bs generalizing content n index with
  | nil => simp [validateLoop]
  | cons b bs ih =>
      rcases encodeByte_spec b with ⟨c, d, henc, -, -, hoff, hval⟩
      have hstep : validateLoop readOk n true index (encodeText (b :: bs)) content =
          validateLoop readOk n false c.toNat (d :: encodeText bs) content := by
        rw [encodeText_cons, henc]
        rfl
      rw [hstep]
      cases content with
      | nil => simp [validateLoop]
      | cons b' content =>
          have hbyte : ((d.toNat : ℤ) + findoffset c.toNat == b'.toNat) = decide (b = b') := by
            rw [hval, beq_eq_decide, decide_eq_decide, Int.natCast_inj, UInt8.toNat_inj]
          have ih' := ih content (n + 1) c.toNat
          simp only [Nat.add_assoc, Nat.add_comm 1] at ih'
          rw [validateLoop, if_neg hoff, hbyte, List.cons_prefix_cons]
          simp only [List.length_cons, Nat.forall_lt_succ_left, Nat.add_zero]
          by_cases hr : readOk n = true
          · by_cases hb : b = b'
            · simp [hr, hb, ih']
            · simp [hb]
          · simp [hr]

/-- The file was found to be the jar: it is, and every call on the way worked. -/
def Validated (jar : Bytes) (file : Option Bytes) (ops : FileOps) : Prop :=
  file = some jar ∧ ops.statOk = true ∧ ops.openReadOk = true ∧
    ∀ i < jar.length, ops.readOk i = true

theorem validatejar_iff :
    validatejar (encodeText jar) file ops = true ↔ Validated jar file ops := by
  cases file with
  | none => simp [validatejar, Validated]
  | some content =>
      have hloop := validateLoop_encode ops.readOk jar content 0 121
      simp only [Nat.zero_add] at hloop
      constructor
      · intro h
        simp only [validatejar, length_encodeText] at h
        split_ifs at h with hstat hsize hopen
        rcases hloop.1 h with ⟨hpre, hread⟩
        have hlen : jar.length = content.length := by omega
        obtain rfl := hpre.eq_of_length hlen
        exact ⟨rfl, by simpa using hstat, by simpa using hopen, hread⟩
      · rintro ⟨hfile, hstat, hopen, hread⟩
        obtain rfl := Option.some.inj hfile
        have hsize : content.length * 2 = 2 * content.length := Nat.mul_comm _ _
        simp only [validatejar, length_encodeText, hstat, hopen, hsize, Bool.not_true,
          Bool.false_eq_true, if_false, ne_eq, not_true_eq_false]
        exact hloop.2 ⟨List.prefix_rfl, hread⟩

/-- The file a started verifier finds: the jar that was there, or what the
writes made of it. -/
theorem prepareJar_eq_iff {content : Option Bytes} :
    prepareJar (encodeText jar) file ops = (content, true) ↔
      (Validated jar file ops ∧ content = some jar) ∨
        (¬ Validated jar file ops ∧ ops.openWriteOk = true ∧ ops.chmodOk = true ∧
          content = some (kept ops.writeOk 0 jar)) := by
  by_cases hval : Validated jar file ops
  · have hfile := hval.1
    simp only [prepareJar, validatejar_iff.2 hval, if_true, hval]
    simp [hfile, @eq_comm _ content]
  · have hval' : validatejar (encodeText jar) file ops = false := by
      rw [← Bool.not_eq_true, validatejar_iff]
      exact hval
    cases hopen : ops.openWriteOk <;> cases hchmod : ops.chmodOk <;>
      simp [prepareJar, hval', hval, extractjar, hopen, hchmod, extractLoop_encode,
        @eq_comm _ content]

end Jar

/-- Whenever the verifier is started it runs the decoding of `XDATA`, exactly if
the jar that is there passes the comparison, or it cannot be opened for
writing or made readable, or every `write` of the extraction succeeds. -/
theorem launched_jar_iff (jar : Bytes) (file : Option Bytes) (ops : FileOps) :
    (∀ content, prepareJar (encodeText jar) file ops = (content, true) →
        content = some (extract (encodeText jar)).1) ↔
      Validated jar file ops ∨ ops.openWriteOk = false ∨ ops.chmodOk = false ∨
        ∀ i < jar.length, ops.writeOk i = true := by
  have hkept := kept_eq_self_iff ops.writeOk jar 0
  simp only [Nat.zero_add] at hkept
  simp only [prepareJar_eq_iff, extract_encodeText]
  constructor
  · intro h
    by_cases hval : Validated jar file ops
    · exact Or.inl hval
    · right
      cases hopen : ops.openWriteOk with
      | false => exact Or.inl rfl
      | true =>
          cases hchmod : ops.chmodOk with
          | false => exact Or.inr (Or.inl rfl)
          | true =>
              have hfile := h _ (Or.inr ⟨hval, hopen, hchmod, rfl⟩)
              exact Or.inr (Or.inr (hkept.1 (Option.some.inj hfile)))
  · rintro h content (⟨-, rfl⟩ | ⟨hval, hopen, hchmod, rfl⟩)
    · rfl
    · rcases h with h | h | h | h
      · exact absurd h hval
      · rw [hopen] at h
        cases h
      · rw [hchmod] at h
        cases h
      · rw [hkept.2 h]

/-! ## Extracting and comparing -/

/-- `stat`, `open` and the reads of `validatejar` succeed. -/
structure FileOps.Reads (ops : FileOps) (jar : Bytes) : Prop where
  statOk : ops.statOk = true
  openReadOk : ops.openReadOk = true
  readOk : ∀ i < jar.length, ops.readOk i = true

/-- `open` and the writes of `extractjar` succeed. -/
structure FileOps.Writes (ops : FileOps) (jar : Bytes) : Prop where
  openWriteOk : ops.openWriteOk = true
  writeOk : ∀ i < jar.length, ops.writeOk i = true

/-- With nothing failing the file is the decoding of the text, whatever it was
before. -/
theorem extractjar_of_writes {jar : Bytes} {ops : FileOps} (h : ops.Writes jar)
    (file : Option Bytes) :
    extractjar (encodeText jar) file ops = (some (extract (encodeText jar)).1, true) := by
  have hkept : kept ops.writeOk 0 jar = jar := by
    rw [kept_eq_self_iff]
    intro i hi
    rw [Nat.zero_add]
    exact h.writeOk i hi
  simp [extractjar, h.openWriteOk, extractLoop_encode, hkept, extract_encodeText]

/-- `validatejar` accepts a file exactly when it can read it and the file is,
byte for byte, what `extractjar` writes; so it accepts what was just extracted,
and extracting again changes nothing. -/
theorem validatejar_extractjar (jar : Bytes) (file : Option Bytes) (written : FileOps)
    (hwritten : written.Writes jar) :
    (∀ (content : Bytes) (ops : FileOps),
      validatejar (encodeText jar) (some content) ops = true ↔
        some content = (extractjar (encodeText jar) file written).1 ∧ ops.Reads jar) ∧
    (∀ ops : FileOps, ops.Reads jar →
      validatejar (encodeText jar) (extractjar (encodeText jar) file written).1 ops = true) ∧
    ∀ again : FileOps, again.Writes jar →
      extractjar (encodeText jar) (extractjar (encodeText jar) file written).1 again =
        extractjar (encodeText jar) file written := by
  have hsame := extractjar_of_writes hwritten file
  rw [hsame, extract_encodeText]
  refine ⟨?_, ?_, ?_⟩
  · intro content ops
    rw [validatejar_iff]
    constructor
    · rintro ⟨hfile, hstat, hopen, hread⟩
      exact ⟨hfile, hstat, hopen, hread⟩
    · rintro ⟨hfile, hreads⟩
      exact ⟨hfile, hreads.statOk, hreads.openReadOk, hreads.readOk⟩
  · intro ops hreads
    rw [validatejar_iff]
    exact ⟨rfl, hreads.statOk, hreads.openReadOk, hreads.readOk⟩
  · intro again hagain
    rw [extractjar_of_writes hagain, extract_encodeText]

/-- Nothing fails. -/
def FileOps.granted : FileOps where
  statOk := true
  openReadOk := true
  readOk := fun _ => true
  unlinkOk := true
  openWriteOk := true
  writeOk := fun _ => true
  unlinkAgainOk := true
  chmodOk := true

/-- Four bytes, one of them above 127, in the place of another file. -/
theorem validatejar_extractjar_four :
    FileOps.granted.Writes [80, 200, 3, 4] ∧
    validatejar (encodeText [80, 200, 3, 4])
      (extractjar (encodeText [80, 200, 3, 4]) (some [1]) .granted).1 .granted = true := by
  have hwrites : FileOps.granted.Writes [80, 200, 3, 4] := ⟨rfl, fun _ _ => rfl⟩
  exact ⟨hwrites, (validatejar_extractjar [80, 200, 3, 4] (some [1]) .granted hwrites).2.1
    .granted ⟨rfl, rfl, fun _ _ => rfl⟩⟩

/-- Whom `checksignature` trusts: a client for which the verifier says 100, in
one of its two runs, on the jar that was left at `jar_path`. -/
theorem checksignature_eq_zero_iff {xdata : Bytes} {file : Option Bytes} {ops : FileOps}
    {v : Verifier} :
    (checksignature xdata file ops v).2 = 0 ↔
      ∃ content, prepareJar xdata file ops = (content, true) ∧
        (v.system content ≠ -1 ∧ wexitstatus (v.system content) = 100 ∨
          v.system2 content = 100) := by
  unfold checksignature
  cases hprep : prepareJar xdata file ops with
  | mk content started =>
      cases started with
      | false => simp
      | true =>
          by_cases hrun : v.system content = -1
          · simp [hrun]
          · by_cases hstatus : wexitstatus (v.system content) = 100
            · simp [hrun, hstatus]
            · simp [hrun, hstatus]

/-- With no failing `write` a client is trusted on nothing but the word of the
jar that was compiled in. -/
theorem checksignature_trusts_jar {jar : Bytes} {file : Option Bytes} {ops : FileOps}
    {v : Verifier} (hwrites : ∀ i < jar.length, ops.writeOk i = true)
    (hzero : (checksignature (encodeText jar) file ops v).2 = 0) :
    v.system (some jar) ≠ -1 ∧ wexitstatus (v.system (some jar)) = 100 ∨
      v.system2 (some jar) = 100 := by
  rcases checksignature_eq_zero_iff.1 hzero with ⟨content, hprep, hsays⟩
  have hkept : kept ops.writeOk 0 jar = jar :=
    (kept_eq_self_iff ops.writeOk jar 0).2 fun i hi => by simpa using hwrites i hi
  have hcontent : content = some jar := by
    rcases prepareJar_eq_iff.1 hprep with ⟨-, h⟩ | ⟨-, -, -, h⟩
    · exact h
    · rw [h, hkept]
  rwa [hcontent] at hsays

/-- No jar yet, and the disk is full when the first byte is written. -/
def fullDisk : FileOps where
  statOk := true
  openReadOk := true
  readOk := fun _ => true
  unlinkOk := false
  openWriteOk := true
  writeOk := fun i => i != 0
  unlinkAgainOk := true
  chmodOk := true

/-- The verifier is started on a jar that lost its first byte. -/
theorem fullDisk_launched :
    ¬ ∀ content, prepareJar (encodeText [80, 75, 3, 4]) none fullDisk = (content, true) →
        content = some (extract (encodeText [80, 75, 3, 4])).1 := by
  intro h
  exact absurd (h (some [75, 3, 4]) (by decide)) (by decide)

end Su
