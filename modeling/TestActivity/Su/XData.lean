import Mathlib.Data.Int.Basic
import TestActivity.Lib.CString
import TestActivity.Su.Io

/-!
# The text `XDATA`

The jar that checks signatures is compiled into the daemons as a C string.
`tools/read.java` writes two characters for every byte of the jar: an index
code, and the byte moved into the letters and digits by the offset that
belongs to the code. `extractjar` reads them back through the table `pairs`.

The two sides have their own tables: ranges in `rank`, index codes in `pairs`.
`rank_spec` is what they have in common, `extract_encode` the round trip.
-/

namespace Su

open CString

/-- The byte an `int` is truncated to: `write(int)` of the encoder,
`buff[0] = val` of the decoder. -/
def lowByte (n : ℤ) : UInt8 := .ofNat (n % 256).toNat

/-! ## The encoder -/

/-- `rank`: the index code, and the offset it stores. -/
def rank (k : ℤ) : ℤ × ℤ :=
  let (k, a, dtype, remedy) :=
    if 128 ≤ k then (k - 128, 65 + 32, 122, -128) else (k, 65, 121, 0)
  if 0 ≤ k ∧ k ≤ 25 then (a, 97 + remedy)
  else if 25 < k ∧ k < 48 then (a + 1, 71 + remedy)
  else if 48 ≤ k ∧ k ≤ 57 then (dtype, remedy)
  else if 57 < k ∧ k < 65 then (a + 2, 39 + remedy)
  else if 65 ≤ k ∧ k ≤ 90 then (dtype, remedy)
  else if 90 < k ∧ k < 97 then (a + 3, 6 + remedy)
  else if 97 ≤ k ∧ k ≤ 122 then (dtype, remedy)
  else if 122 < k ∧ k ≤ 127 then (a + 4, -5 + remedy)
  else (dtype, remedy)

/-- The two characters written for a byte. -/
def encodeByte (b : UInt8) : Bytes :=
  let k : ℤ := b.toNat
  let (c, offset) := rank k
  [lowByte c, lowByte (k + offset)]

/-- The text written for a jar. -/
def encodeText (bs : Bytes) : Bytes := bs.flatMap encodeByte

@[simp] theorem encodeText_nil : encodeText [] = [] := rfl

@[simp] theorem encodeText_cons (b : UInt8) (bs : Bytes) :
    encodeText (b :: bs) = encodeByte b ++ encodeText bs := rfl

/-! ## The decoder -/

/-- `pairs[]`: index code and offset. -/
def pairs : List (ℤ × ℤ) :=
  [(65, -97), (97, -97 + 128), (66, -71), (98, -71 + 128), (67, -39), (99, -39 + 128),
    (68, -6), (100, -6 + 128), (69, 5), (101, 5 + 128), (121, 0), (122, 128)]

/-- `findoffset`: `-1000` if there is no such index code. -/
def findoffset (index : ℤ) : ℤ :=
  match pairs.find? (·.1 == index) with
  | some (_, offset) => offset
  | none => -1000

/-- The loop of `extractjar` behind `open`: `flag` and `index`, and the number
of the next `write`, which may fail. The bytes that reach the file, and whether
the loop comes to its end. -/
def extractLoop (writeOk : ℕ → Bool) : ℕ → Bool → ℤ → Bytes → Bytes × Bool
  | _, _, _, [] => ([], true)
  | total, true, _, c :: cs => extractLoop writeOk total false c.toNat cs
  | total, false, index, c :: cs =>
      let offset := findoffset index
      if offset = -1000 then ([], false)
      else
        -- `total` counts the writes, whether or not they worked
        let (bs, ok) := extractLoop writeOk (total + 1) true index cs
        (if writeOk total then lowByte (c.toNat + offset) :: bs else bs, ok)

/-- What a text decodes to. -/
def extract (text : Bytes) : Bytes × Bool := extractLoop (fun _ => true) 0 true 121 text

/-! ## Characters -/

/-- An ASCII letter or digit. -/
def Alnum (n : ℤ) : Prop := 48 ≤ n ∧ n ≤ 57 ∨ 65 ≤ n ∧ n ≤ 90 ∨ 97 ≤ n ∧ n ≤ 122

instance (n : ℤ) : Decidable (Alnum n) := inferInstanceAs (Decidable (_ ∨ _))

/-- A number that is a byte is not changed by the truncation. -/
theorem toNat_lowByte {n : ℤ} (h0 : 0 ≤ n) (h : n < 256) : ((lowByte n).toNat : ℤ) = n := by
  unfold lowByte
  rw [UInt8.toNat_ofNat']
  omega

theorem toNat_lowByte_of_alnum {n : ℤ} (h : Alnum n) : ((lowByte n).toNat : ℤ) = n :=
  toNat_lowByte (by rcases h with h | h | h <;> omega) (by rcases h with h | h | h <;> omega)

@[simp] theorem lowByte_toNat (b : UInt8) : lowByte b.toNat = b := by
  have h := b.toNat_lt
  have hmod : ((b.toNat : ℤ) % 256).toNat = b.toNat := by omega
  unfold lowByte
  rw [hmod, UInt8.ofNat_toNat]

/-! ## Encoder and decoder agree -/

/-- The decoder's table undoes the offset of every index code the encoder
uses, and both characters are letters or digits. -/
theorem rank_spec {k : ℤ} (h0 : 0 ≤ k) (h : k < 256) :
    findoffset (rank k).1 = -(rank k).2 ∧ Alnum (rank k).1 ∧ Alnum (k + (rank k).2) := by
  by_cases hk : 128 ≤ k
  · simp only [rank, if_pos hk]
    split_ifs
    all_goals refine ⟨by decide, by decide, ?_⟩
    all_goals unfold Alnum; omega
  · simp only [rank, if_neg hk]
    split_ifs
    all_goals refine ⟨by decide, by decide, ?_⟩
    all_goals unfold Alnum; omega

/-- The same for the two characters of a byte. -/
theorem encodeByte_spec (b : UInt8) :
    ∃ c d, encodeByte b = [c, d] ∧ Alnum c.toNat ∧ Alnum d.toNat ∧
      findoffset c.toNat ≠ -1000 ∧ (d.toNat : ℤ) + findoffset c.toNat = b.toNat := by
  have hb : (b.toNat : ℤ) < 256 := by
    have h := b.toNat_lt
    omega
  rcases rank_spec (Int.natCast_nonneg _) hb with ⟨hoff, hc, hd⟩
  have hc' := toNat_lowByte_of_alnum hc
  have hd' := toNat_lowByte_of_alnum hd
  refine ⟨lowByte (rank b.toNat).1, lowByte (b.toNat + (rank b.toNat).2), rfl, by rwa [hc'],
    by rwa [hd'], ?_, ?_⟩
  · -- no offset of the encoder is 1000
    rw [hc', hoff]
    rcases hd with hd | hd | hd <;> omega
  · rw [hd', hc', hoff, Int.add_neg_cancel_right]

/-- What reaches the file if some of the writes fail. -/
def kept (writeOk : ℕ → Bool) : ℕ → Bytes → Bytes
  | _, [] => []
  | total, b :: bs =>
      if writeOk total then b :: kept writeOk (total + 1) bs else kept writeOk (total + 1) bs

/-- The decoder's loop on an encoded jar: every byte is offered to the file,
in order. -/
theorem extractLoop_encode (writeOk : ℕ → Bool) (bs : Bytes) (total : ℕ) (index : ℤ) :
    extractLoop writeOk total true index (encodeText bs) = (kept writeOk total bs, true) := by
  induction bs generalizing total index with
  | nil => rfl
  | cons b bs ih =>
      rcases encodeByte_spec b with ⟨c, d, henc, -, -, hoff, hval⟩
      have hstep : extractLoop writeOk total true index (encodeText (b :: bs)) =
          extractLoop writeOk total false c.toNat (d :: encodeText bs) := by
        rw [encodeText_cons, henc]
        rfl
      rw [hstep, extractLoop, if_neg hoff, ih, hval, lowByte_toNat]
      rfl

theorem length_kept_le (writeOk : ℕ → Bool) (bs : Bytes) (total : ℕ) :
    (kept writeOk total bs).length ≤ bs.length := by
  induction bs generalizing total with
  | nil => simp [kept]
  | cons b bs ih =>
      have hle := ih (total + 1)
      simp only [kept]
      split
      · simpa using hle
      · simp only [List.length_cons]
        omega

/-- The file is complete exactly if no write failed. -/
theorem kept_eq_self_iff (writeOk : ℕ → Bool) (bs : Bytes) (total : ℕ) :
    kept writeOk total bs = bs ↔ ∀ i < bs.length, writeOk (total + i) = true := by
  induction bs generalizing total with
  | nil => simp [kept]
  | cons b bs ih =>
      have ih' := ih (total + 1)
      simp only [Nat.add_assoc, Nat.add_comm 1] at ih'
      simp only [List.length_cons, Nat.forall_lt_succ_left, Nat.add_zero, ← ih', kept]
      cases hw : writeOk total with
      | true => simp
      | false =>
          -- the file is too short
          have hle := length_kept_le writeOk bs (total + 1)
          simp only [Bool.false_eq_true, if_false, false_and, iff_false]
          intro h
          have hlen := congrArg List.length h
          simp only [List.length_cons] at hlen
          omega

theorem encodeText_alnum (bs : Bytes) : ∀ c ∈ encodeText bs, Alnum c.toNat := by
  induction bs with
  | nil => simp
  | cons b bs ih =>
      rcases encodeByte_spec b with ⟨c, d, henc, hc, hd, -⟩
      intro x hx
      rw [encodeText_cons, henc] at hx
      rcases List.mem_cons.1 hx with rfl | hx
      · exact hc
      · rcases List.mem_cons.1 hx with rfl | hx
        · exact hd
        · exact ih x hx

theorem length_encodeText (bs : Bytes) : (encodeText bs).length = 2 * bs.length := by
  induction bs with
  | nil => rfl
  | cons b bs ih =>
      rcases encodeByte_spec b with ⟨c, d, henc, -⟩
      simp only [encodeText_cons, henc, List.length_append, List.length_cons, List.length_nil, ih]
      omega

/-- A text of letters and digits is a C string literal as it stands. -/
theorem not_mem_encodeText {c : UInt8} (hc : ¬ Alnum c.toNat) (bs : Bytes) : c ∉ encodeText bs :=
  fun h => hc (encodeText_alnum bs c h)

/-- With a working disk the decoder gives the jar back. -/
theorem extract_encodeText (bs : Bytes) : extract (encodeText bs) = (bs, true) := by
  have hall := (kept_eq_self_iff (fun _ => true) bs 0).2 fun _ _ => rfl
  unfold extract
  rw [extractLoop_encode, hall]

/-- The round trip of `tools/read.java` and `extractjar`, for every jar: the
text decodes to it, takes two characters a byte, and consists of letters and
digits, so that it has no NUL, quote or backslash and `strlen` is its length. -/
theorem extract_encode (bs : Bytes) :
    extract (encodeText bs) = (bs, true) ∧ (encodeText bs).length = 2 * bs.length ∧
      (∀ c ∈ encodeText bs, Alnum c.toNat) ∧
      0 ∉ encodeText bs ∧ 34 ∉ encodeText bs ∧ 92 ∉ encodeText bs ∧
      ∀ rest, cstr 0 (encodeText bs ++ 0 :: rest) = some (encodeText bs) := by
  have hnul : 0 ∉ encodeText bs := not_mem_encodeText (by decide) bs
  exact ⟨extract_encodeText bs, length_encodeText bs, encodeText_alnum bs, hnul,
    not_mem_encodeText (by decide) bs, not_mem_encodeText (by decide) bs, cstr_append 0 hnul⟩

end Su
