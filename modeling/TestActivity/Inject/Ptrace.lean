import TestActivity.Lib.Memory

/-!
# Reading and writing the memory of the target

`ptrace_readdata` and `ptrace_writedata` of `inject.c` move data to and from
the memory of another process one word at a time. The last word may be partial:
the writer then fetches the word that is there, replaces its first bytes and
puts it back.

Neither function looks at what `ptrace` answers, so each takes the outcomes of
its requests as a parameter: `ok i` tells whether the `i`-th one succeeds.
-/

namespace Inject

open Memory

/-! ## Words and single requests -/

abbrev Byte := BitVec 8
abbrev Word := BitVec 32

/-- A byte string. -/
abbrev Data := List Byte

/-- The memory of a process. -/
abbrev Mem := Word → Byte

/-- What `PTRACE_PEEKTEXT` returns: the word at `src`, or -1. -/
def peektext (ok : Bool) (mem : Mem) (src : Word) : Word :=
  if ok then loadWord mem src else BitVec.ofInt 32 (-1)

/-- What `PTRACE_POKETEXT` leaves in memory. -/
def poketext (ok : Bool) (mem : Mem) (dest val : Word) : Mem :=
  if ok then storeWord mem dest val else mem

/-- Every request succeeds. -/
def allOk : ℕ → Bool := fun _ => true

/-! ## The two loops -/

/-- The word loop of `ptrace_readdata`, with `j` words to go and `i` behind it. -/
def readWords (ok : ℕ → Bool) (mem : Mem) : ℕ → ℕ → Word → Data
  | 0, _, _ => []
  | j + 1, i, src => chars (peektext (ok i) mem src) ++ readWords ok mem j (i + 1) (src + 4)

/-- `ptrace_readdata`: what it puts into `buf`. -/
def ptrace_readdata (ok : ℕ → Bool) (mem : Mem) (src : Word) (size : ℕ) : Data :=
  let j := size / 4
  let remain := size % 4
  let buf := readWords ok mem j 0 src
  if remain > 0 then
    buf ++ (chars (peektext (ok j) mem (src + BitVec.ofNat 32 (4 * j)))).take remain
  else buf

/-- The word loop of `ptrace_writedata`, with `j` words to go and `i` behind it. -/
def writeWords (ok : ℕ → Bool) : ℕ → ℕ → Word → Data → Mem → Mem
  | 0, _, _, _, mem => mem
  | j + 1, i, dest, laddr, mem =>
      writeWords ok j (i + 1) (dest + 4) (laddr.drop 4)
        (poketext (ok i) mem dest (ofChars (laddr.take 4)))

/-- `ptrace_writedata`: the memory it leaves behind. -/
def ptrace_writedata (ok : ℕ → Bool) (mem : Mem) (dest : Word) (data : Data) : Mem :=
  let j := data.length / 4
  let remain := data.length % 4
  let mem' := writeWords ok j 0 dest data mem
  if remain > 0 then
    let dest' := dest + BitVec.ofNat 32 (4 * j)
    let d := chars (peektext (ok j) mem' dest')
    poketext (ok (j + 1)) mem' dest' (ofChars (data.drop (4 * j) ++ d.drop remain))
  else mem'

variable {ok : ℕ → Bool} {mem : Mem} {a x : Word} {data : Data} {i j n : ℕ}

@[simp] theorem peektext_true : peektext true mem a = loadWord mem a := rfl

@[simp] theorem poketext_true {v : Word} : poketext true mem a v = storeWord mem a v := rfl

/-! ## What the loops do -/

theorem add_four (a : Word) : a + 4 = a + BitVec.ofNat 32 4 := rfl

/-- The reading loop collects consecutive words. -/
theorem readWords_allOk : readWords allOk mem j i a = read mem a (4 * j) := by
  induction j generalizing i a with
  | zero => rfl
  | succ j ih =>
      have hsplit : 4 * (j + 1) = 4 + 4 * j := by omega
      rw [readWords, ih, hsplit, read_append, add_four]
      simp only [allOk, peektext_true, chars_loadWord]

/-- What the writing loop leaves in each byte: a word whose request failed
keeps its bytes. -/
theorem writeWords_apply (hlen : 4 * j ≤ data.length) (hfit : 4 * j ≤ 2 ^ 32) :
    writeWords ok j i a data mem x =
      if (x - a).toNat < 4 * j ∧ ok (i + (x - a).toNat / 4) then
        data[(x - a).toNat]?.getD (mem x)
      else mem x := by
  induction j generalizing i a data mem with
  | zero => simp [writeWords]
  | succ j ih =>
      have htake : (data.take 4).length = 4 := by
        rw [List.length_take]
        omega
      rw [writeWords, ih (by rw [List.length_drop]; omega) (by omega), add_four]
      by_cases hfirst : (x - a).toNat < 4
      · -- the word written by this round
        have hquot : (x - a).toNat / 4 = 0 := by omega
        rw [sub_add_of_lt hfirst (by omega), if_neg (by omega), hquot]
        cases hok : ok i with
        | false => simp [poketext]
        | true =>
            rw [poketext_true, storeWord_ofChars htake, write_of_lt (by omega),
              if_pos ⟨by omega, by simp⟩, List.getElem_take,
              List.getElem?_eq_getElem (by omega)]
            rfl
      · -- a later word, which this round does not touch
        have hkeep : poketext (ok i) mem a (ofChars (data.take 4)) x = mem x := by
          cases ok i with
          | false => rfl
          | true =>
              rw [poketext_true, storeWord_ofChars htake]
              exact write_of_le (by omega)
        have hquot : i + 1 + ((x - a).toNat - 4) / 4 = i + (x - a).toNat / 4 := by omega
        have hdata : (data.drop 4)[(x - a).toNat - 4]? = data[(x - a).toNat]? := by
          rw [List.getElem?_drop]
          congr 1
          omega
        have hlt : (x - a).toNat - 4 < 4 * j ↔ (x - a).toNat < 4 * (j + 1) := by omega
        simp only [sub_add_of_le (Nat.le_of_not_lt hfirst), hkeep, hquot, hdata, hlt]

/-- With every request granted the loop writes the block. -/
theorem writeWords_allOk (hlen : 4 * j ≤ data.length) (hfit : 4 * j ≤ 2 ^ 32) :
    writeWords allOk j i a data mem = write mem a (data.take (4 * j)) := by
  funext x
  rw [writeWords_apply hlen hfit]
  simp only [allOk, and_true]
  by_cases h : (x - a).toNat < 4 * j
  · rw [if_pos h, write, List.getElem?_take_of_lt h]
  · rw [if_neg h, write_of_le (by rw [List.length_take]; omega)]

/-- A partial word: its bytes replaced, the rest put back as it was. -/
theorem storeWord_partial (h : data.length ≤ 4) :
    storeWord mem a (ofChars (data ++ (read mem a 4).drop data.length)) = write mem a data := by
  obtain ⟨k, hk⟩ := Nat.exists_eq_add_of_le h
  have hrest : (read mem a 4).drop data.length
      = read mem (a + BitVec.ofNat 32 data.length) k := by
    rw [hk, read_append, List.drop_left' length_read]
  have hlen : (data ++ read mem (a + BitVec.ofNat 32 data.length) k).length = 4 := by
    rw [List.length_append, length_read]
    omega
  have hsame : read mem (a + BitVec.ofNat 32 data.length) k
      = read (write mem a data) (a + BitVec.ofNat 32 data.length) k := by
    symm
    apply read_write_of_le
    intro i hi
    rw [← add_ofNat_add, toNat_add_sub (by omega)]
    omega
  rw [hrest, storeWord_ofChars hlen,
    write_append (by rw [length_read]; omega), hsame, write_read]

/-- `ptrace_writedata` writes the block. -/
theorem ptrace_writedata_allOk (h : data.length < 2 ^ 32) :
    ptrace_writedata allOk mem a data = write mem a data := by
  have hdiv := Nat.div_add_mod data.length 4
  have htake : (data.take (4 * (data.length / 4))).length = 4 * (data.length / 4) := by
    rw [List.length_take]
    omega
  have hwords : writeWords allOk (data.length / 4) 0 a data mem
      = write mem a (data.take (4 * (data.length / 4))) :=
    writeWords_allOk (by omega) (by omega)
  unfold ptrace_writedata
  by_cases hrem : data.length % 4 > 0
  · have htail : (data.drop (4 * (data.length / 4))).length = data.length % 4 := by
      rw [List.length_drop]
      omega
    rw [if_pos hrem, hwords]
    simp only [allOk, peektext_true, poketext_true, chars_loadWord]
    rw [← htail, storeWord_partial (by omega)]
    conv_rhs => rw [← List.take_append_drop (4 * (data.length / 4)) data]
    rw [write_append (by omega), htake]
  · have hall : 4 * (data.length / 4) = data.length := by omega
    rw [if_neg hrem, hwords, hall, List.take_length]

/-- Data of whole words is in place afterwards exactly when each of its words
was written or in place before. -/
theorem read_ptrace_writedata_iff (hwhole : data.length % 4 = 0) (h : data.length ≤ 2 ^ 32) :
    read (ptrace_writedata ok mem a data) a data.length = data ↔
      ∀ i < data.length / 4, ok i = true ∨
        read mem (a + BitVec.ofNat 32 (4 * i)) 4 = (data.drop (4 * i)).take 4 := by
  have hdiv := Nat.div_add_mod data.length 4
  have hbyte : ∀ k < data.length,
      some (ptrace_writedata ok mem a data (a + BitVec.ofNat 32 k)) =
        if ok (k / 4) then data[k]? else some (mem (a + BitVec.ofNat 32 k)) := by
    intro k hk
    unfold ptrace_writedata
    rw [if_neg (by omega), writeWords_apply (by omega) (by omega), toNat_add_sub (by omega),
      Nat.zero_add, List.getElem?_eq_getElem hk]
    by_cases hok : ok (k / 4)
    · rw [if_pos hok, if_pos ⟨by omega, hok⟩]
      rfl
    · rw [if_neg hok, if_neg (fun hand => hok hand.2)]
  -- both sides byte by byte
  have hslice := read_eq_slice_iff (m := ptrace_writedata ok mem a data) (a := a)
    (show 0 + data.length ≤ data.length by omega)
  rw [List.drop_zero, List.take_length] at hslice
  rw [hslice]
  constructor
  · intro hread i hi
    by_cases hok : ok i
    · exact .inl hok
    · -- the word was not written, so what is read was there before
      right
      rw [read_eq_slice_iff (by omega)]
      intro k hk
      have hquot : (4 * i + k) / 4 = i := by omega
      have hat := hread (4 * i + k) (by omega)
      rw [hbyte _ (by omega), hquot, if_neg hok, Nat.zero_add, add_ofNat_add] at hat
      exact hat
  · intro hwords k hk
    rw [hbyte k hk, Nat.zero_add]
    by_cases hok : ok (k / 4)
    · rw [if_pos hok]
    · have hword := (hwords (k / 4) (by omega)).resolve_left hok
      rw [read_eq_slice_iff (by omega)] at hword
      have hat := hword (k % 4) (by omega)
      rw [← add_ofNat_add, Nat.div_add_mod] at hat
      rw [if_neg hok]
      exact hat

/-- `ptrace_readdata` reads the block. -/
theorem ptrace_readdata_allOk : ptrace_readdata allOk mem a n = read mem a n := by
  have hdiv := Nat.div_add_mod n 4
  unfold ptrace_readdata
  by_cases hrem : n % 4 > 0
  · rw [if_pos hrem, readWords_allOk]
    simp only [allOk, peektext_true, chars_loadWord]
    rw [take_read (by omega), ← read_append, hdiv]
  · have hall : 4 * (n / 4) = n := by omega
    rw [if_neg hrem, readWords_allOk, hall]

/-! ## Reading and writing -/

/-- For an address behind `a` the distance is the difference. -/
theorem toNat_sub_of_le {x a : Word} (h : a.toNat ≤ x.toNat) :
    (x - a).toNat = x.toNat - a.toNat :=
  BitVec.toNat_sub_of_le h

theorem le_toNat_sub_of_lt {x a : Word} (h : x.toNat < a.toNat) (hfit : a.toNat + n < 2 ^ 32) :
    n ≤ (x - a).toNat := by
  rw [BitVec.toNat_sub]
  have hx := x.isLt
  have ha := a.isLt
  rw [Nat.mod_eq_of_lt (by omega)]
  omega

/-- The writer puts `data` at `a` and leaves every other byte alone, the reader
returns the bytes that are there, and so reads back what was written. -/
theorem ptrace_readdata_writedata (mem : Mem) (a : Word) (data : Data)
    (h : a.toNat + data.length + 3 < 2 ^ 32) :
    (∀ i (hi : i < data.length),
      ptrace_writedata allOk mem a data (a + BitVec.ofNat 32 i) = data[i]) ∧
    (∀ x : Word, x.toNat < a.toNat ∨ a.toNat + data.length ≤ x.toNat →
      ptrace_writedata allOk mem a data x = mem x) ∧
    (∀ mem' : Mem, (ptrace_readdata allOk mem' a data.length).length = data.length ∧
      ∀ i (hi : i < (ptrace_readdata allOk mem' a data.length).length),
        (ptrace_readdata allOk mem' a data.length)[i] = mem' (a + BitVec.ofNat 32 i)) ∧
    ptrace_readdata allOk (ptrace_writedata allOk mem a data) a data.length = data := by
  rw [ptrace_writedata_allOk (by omega)]
  refine ⟨?_, ?_, ?_, ?_⟩
  · intro i hi
    exact write_add_ofNat hi (by omega)
  · intro x hx
    apply write_of_le
    rcases hx with hx | hx
    · exact le_toNat_sub_of_lt hx (by omega)
    · rw [toNat_sub_of_le (by omega)]
      omega
  · intro mem'
    simp only [ptrace_readdata_allOk]
    exact ⟨length_read, fun i hi => getElem_read hi⟩
  · rw [ptrace_readdata_allOk]
    exact read_write (by omega)

/-- Five bytes at an address that is not a multiple of four. -/
theorem ptrace_readdata_writedata_five :
    (0x1002 : Word).toNat + ([1, 2, 3, 4, 5] : Data).length + 3 < 2 ^ 32 ∧
    ptrace_readdata allOk (ptrace_writedata allOk (fun _ => 0) 0x1002 [1, 2, 3, 4, 5]) 0x1002 5
      = [1, 2, 3, 4, 5] := by
  have hfit : (0x1002 : Word).toNat + ([1, 2, 3, 4, 5] : Data).length + 3 < 2 ^ 32 := by decide
  exact ⟨hfit, (ptrace_readdata_writedata (fun _ => 0) 0x1002 [1, 2, 3, 4, 5] hfit).2.2.2⟩

end Inject
