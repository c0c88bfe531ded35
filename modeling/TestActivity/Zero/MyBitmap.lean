import Mathlib.Tactic.Common
import TestActivity.Lib.Rows

/-!
# `MyBitmap`

A picture is written as four bytes a pixel, R, G, B, A, and made again from
such bytes. `covertBitmapToByte` runs its outer loop to `w` and takes the index
of that loop for `y`, so that it reads pixels outside a picture that is not
square. `convertByteToColor` decodes four bytes a pixel, or three where the
length is no multiple of four.
-/

namespace Zero

/-- A colour, a Java `int`: A, R, G, B from the top. -/
abbrev Color := BitVec 32

/-- A Java `byte`. -/
abbrev Byte := BitVec 8

inductive Throwable where
  | illegalArgument
  | arrayIndexOutOfBounds
deriving DecidableEq, Repr

/-! ## `android.graphics.Bitmap` -/

/-- `Bitmap.Config.ARGB_8888`: where `c` was stored, `keep c` is read. The
colours are held multiplied by alpha; what has been read once is kept as it is. -/
structure Config where
  keep : Color → Color
  keep_keep : ∀ c, keep (keep c) = keep c

/-- A picture; pixel `(x, y)` is cell `x` of row `y`. -/
structure Bitmap (config : Config) where
  width : ℕ
  height : ℕ
  pixels : List Color
  width_pos : 0 < width
  height_pos : 0 < height
  length_pixels : pixels.length = width * height
  kept : ∀ c ∈ pixels, config.keep c = c

variable {config : Config}

namespace Bitmap

theorem index_lt (b : Bitmap config) {x y : ℕ} (hx : x < b.width) (hy : y < b.height) :
    b.width * y + x < b.pixels.length := by
  have hrow : b.width * (y + 1) ≤ b.width * b.height := Nat.mul_le_mul_left _ hy
  rw [Nat.mul_succ] at hrow
  rw [b.length_pixels]
  omega

/-- `getPixel`, with the checks it makes. -/
def getPixel (b : Bitmap config) (x y : ℕ) : Except Throwable Color :=
  if h : x < b.width ∧ y < b.height then
    have hlt := b.index_lt h.1 h.2
    .ok b.pixels[b.width * y + x]
  else .error .illegalArgument

/-- The rows a picture takes out of an array. -/
def rows (colors : List Color) (offset stride width height : ℕ) : List Color :=
  (List.range height).flatMap fun y => ((colors.drop offset).drop (stride * y)).take width

theorem length_rows {colors : List Color} {offset stride width height : ℕ}
    (h : offset + stride * (height - 1) + width ≤ colors.length) :
    (rows colors offset stride width height).length = width * height := by
  have hrow : ∀ y ∈ List.range height,
      (((colors.drop offset).drop (stride * y)).take width).length = width := by
    intro y hy
    have hy' : stride * y ≤ stride * (height - 1) :=
      Nat.mul_le_mul_left _ (by have := List.mem_range.1 hy; omega)
    simp only [List.length_take, List.length_drop]
    omega
  rw [rows, Rows.length_flatMap hrow, List.length_range]

/-- `createBitmap`, with the checks it makes. -/
def createBitmap (config : Config) (colors : List Color) (offset stride width height : ℕ) :
    Except Throwable (Bitmap config) :=
  if hsize : 0 < width ∧ 0 < height then
    if stride < width then .error .illegalArgument
    else if hlast : offset + stride * (height - 1) + width ≤ colors.length then
      .ok
        { width := width
          height := height
          pixels := (rows colors offset stride width height).map config.keep
          width_pos := hsize.1
          height_pos := hsize.2
          length_pixels := by rw [List.length_map, length_rows hlast]
          kept := by
            intro c hc
            rcases List.mem_map.1 hc with ⟨c', _, rfl⟩
            exact config.keep_keep c' }
    else .error .arrayIndexOutOfBounds
  else .error .illegalArgument

end Bitmap

/-! ## From bytes to colours -/

/-- `data & 0xff`, the byte widened with its sign. -/
def convertByteToInt (data : Byte) : BitVec 32 := data.signExtend 32 &&& 0xff#32

/-- `data[k]`. -/
def byteAt (data : List Byte) (k : ℕ) : Except Throwable Byte :=
  match data[k]? with
  | some b => .ok b
  | none => .error .arrayIndexOutOfBounds

/-- `COLOR_BYTE`. -/
def colorByte : ℕ := 4

/-- `0xFF000000`. -/
def black : Color := 0xff000000#32

/-- A round of the loop over a whole number of pixels. -/
def pixelOfFour (data : List Byte) (i : ℕ) : Except Throwable Color := do
  let red := convertByteToInt (← byteAt data (i * colorByte + 0))
  let green := convertByteToInt (← byteAt data (i * colorByte + 1))
  let blue := convertByteToInt (← byteAt data (i * colorByte + 2))
  let alpha := convertByteToInt (← byteAt data (i * colorByte + 3))
  return red <<< 16 ||| green <<< 8 ||| blue ||| alpha <<< 24

/-- A round of the other loop. -/
def pixelOfThree (data : List Byte) (i : ℕ) : Except Throwable Color := do
  let red := convertByteToInt (← byteAt data (i * 3))
  let green := convertByteToInt (← byteAt data (i * 3 + 1))
  let blue := convertByteToInt (← byteAt data (i * 3 + 2))
  return red <<< 16 ||| green <<< 8 ||| blue ||| black

/-- `convertByteToColor`; `none` is `null`. -/
def convertByteToColor (data : List Byte) : Except Throwable (Option (List Color)) := do
  let size := data.length
  if size = 0 then
    return none
  else if size % colorByte = 0 then
    let color ← (List.range (size / colorByte)).mapM (pixelOfFour data)
    return some color
  else
    -- there is one more cell than whole pixels, and the loop leaves it out
    let color ← (List.range (size / colorByte + 1 - 1)).mapM (pixelOfThree data)
    return some (color ++ [black])

/-- `createMyBitmap`. -/
def createMyBitmap (config : Config) (data : List Byte) (width height : ℕ) :
    Except Throwable (Option (Bitmap config)) := do
  match ← convertByteToColor data with
  | none => return none
  | some colors => return some (← Bitmap.createBitmap config colors 0 width width height)

/-! ## From a picture to bytes -/

/-- What is written for a pixel. -/
def colorBytes (color : Color) : List Byte :=
  let b := (color &&& 0xff#32).setWidth 8
  let g := (color.sshiftRight 8 &&& 0xff#32).setWidth 8
  let r := (color.sshiftRight 16 &&& 0xff#32).setWidth 8
  let a := (color.sshiftRight 24 &&& 0xff#32).setWidth 8
  [r, g, b, a]

/-- A round of the inner loop. -/
def pixelBytes (bitmap : Bitmap config) (i j : ℕ) : Except Throwable (List Byte) := do
  let color ← bitmap.getPixel j i
  return colorBytes color

/-- A round of the outer loop. -/
def lineBytes (bitmap : Bitmap config) (h i : ℕ) : Except Throwable (List (List Byte)) :=
  (List.range h).mapM (pixelBytes bitmap i)

/-- `covertBitmapToByte`: what the file holds when it returns. -/
def covertBitmapToByte (bitmap : Bitmap config) (w h : ℕ) : Except Throwable (List Byte) := do
  let lines ← (List.range w).mapM (lineBytes bitmap h)
  return lines.flatten.flatten

/-! ## The bytes of a colour -/

/-- The colour with these bytes. -/
def argb (a r g b : Byte) : Color := a ++ r ++ g ++ b

theorem getLsbD_ff (i : ℕ) : (0xff#32).getLsbD i = decide (i < 8) := by
  have h : (0xff#32) = (BitVec.allOnes 8).setWidth 32 := by decide
  rw [h, BitVec.getLsbD_setWidth, BitVec.getLsbD_allOnes]
  by_cases hi : i < 8
  · simp [hi]
    omega
  · simp [hi]

/-- The mask takes the sign away again. -/
theorem convertByteToInt_eq (d : Byte) : convertByteToInt d = d.setWidth 32 := by
  apply BitVec.eq_of_getLsbD_eq
  intro i hi
  simp only [convertByteToInt, BitVec.getLsbD_and, BitVec.getLsbD_signExtend, getLsbD_ff,
    BitVec.getLsbD_setWidth]
  by_cases h : i < 8
  · simp [h]
  · simp [h, BitVec.getLsbD_of_ge d i (by omega)]

theorem getLsbD_shifted (d : Byte) (n : ℕ) {i : ℕ} (hi : i < 32) :
    (convertByteToInt d <<< n).getLsbD i = (decide (n ≤ i) && d.getLsbD (i - n)) := by
  have h : i - n < 32 := by omega
  rw [convertByteToInt_eq, BitVec.getLsbD_shiftLeft, BitVec.getLsbD_setWidth]
  by_cases hn : n ≤ i
  · simp [hi, hn, h]
  · simp [hn]

/-- What is put together by shifts is the colour with these bytes. -/
theorem or_shifted (a r g b : Byte) :
    convertByteToInt r <<< 16 ||| convertByteToInt g <<< 8 ||| convertByteToInt b |||
      convertByteToInt a <<< 24 = argb a r g b := by
  apply BitVec.eq_of_getLsbD_eq
  intro i hi
  have hb := getLsbD_shifted b 0 hi
  rw [BitVec.shiftLeft_zero] at hb
  have hout (d : Byte) (j : ℕ) (hj : 8 ≤ j) : d.getLsbD j = false := BitVec.getLsbD_of_ge d j hj
  simp only [argb, BitVec.getLsbD_or, BitVec.getLsbD_append, getLsbD_shifted _ _ hi, hb]
  -- a bit comes from one of the four bytes, and the others are shifted away from it
  have hbyte : i < 8 ∨ (8 ≤ i ∧ i < 16) ∨ (16 ≤ i ∧ i < 24) ∨ 24 ≤ i := by omega
  rcases hbyte with h | ⟨h, h'⟩ | ⟨h, h'⟩ | h
  all_goals grind

/-- A shift with the sign, and the mask, take one byte out. -/
theorem setWidth_sshiftRight (c : Color) {n : ℕ} (hn : n + 8 ≤ 32) :
    (c.sshiftRight n &&& 0xff#32).setWidth 8 = c.extractLsb' n 8 := by
  apply BitVec.eq_of_getLsbD_eq
  intro i hi
  have h32 : n + i < 32 := by omega
  simp only [BitVec.getLsbD_setWidth, BitVec.getLsbD_and, getLsbD_ff, BitVec.getLsbD_sshiftRight,
    BitVec.getLsbD_extractLsb']
  simp [hi, h32]
  omega

/-- A colour is put together from its bytes. -/
theorem argb_extractLsb' (c : Color) :
    argb (c.extractLsb' 24 8) (c.extractLsb' 16 8) (c.extractLsb' 8 8) (c.extractLsb' 0 8) = c := by
  unfold argb
  rw [BitVec.extractLsb'_append_extractLsb'_eq_extractLsb',
    BitVec.extractLsb'_append_extractLsb'_eq_extractLsb',
    BitVec.extractLsb'_append_extractLsb'_eq_extractLsb']
  · exact BitVec.extractLsb'_eq_self
  all_goals rfl

theorem append_inj {m n : ℕ} {x x' : BitVec m} {y y' : BitVec n} (h : x ++ y = x' ++ y') :
    x = x' ∧ y = y' := by
  have hleft := congrArg (BitVec.extractLsb' n m) h
  have hright := congrArg (BitVec.extractLsb' 0 n) h
  rw [BitVec.extractLsb'_append_eq_left, BitVec.extractLsb'_append_eq_left] at hleft
  rw [BitVec.extractLsb'_append_eq_right, BitVec.extractLsb'_append_eq_right] at hright
  exact ⟨hleft, hright⟩

/-- Colours are the same when their bytes are. -/
theorem argb_inj {a r g b a' r' g' b' : Byte} (h : argb a r g b = argb a' r' g' b') :
    a = a' ∧ r = r' ∧ g = g' ∧ b = b' := by
  rcases append_inj h with ⟨hargb, hb⟩
  rcases append_inj hargb with ⟨harg, hg⟩
  rcases append_inj harg with ⟨ha, hr⟩
  exact ⟨ha, hr, hg, hb⟩

/-! ## What the decoder returns -/

/-- The pixel in the bytes `4 * i` to `4 * i + 3`. -/
def four (data : List Byte) (i : ℕ) : Color :=
  argb (data.getD (4 * i + 3) 0) (data.getD (4 * i) 0) (data.getD (4 * i + 1) 0)
    (data.getD (4 * i + 2) 0)

/-- The opaque pixel in the bytes `3 * i` to `3 * i + 2`. -/
def three (data : List Byte) (i : ℕ) : Color :=
  argb 0xff (data.getD (3 * i) 0) (data.getD (3 * i + 1) 0) (data.getD (3 * i + 2) 0)

theorem byteAt_of_lt {data : List Byte} {k : ℕ} (hk : k < data.length) :
    byteAt data k = .ok (data.getD k 0) := by
  simp [byteAt, hk]

theorem pixelOfFour_of_lt {data : List Byte} {i : ℕ} (hi : 4 * i + 3 < data.length) :
    pixelOfFour data i = .ok (four data i) := by
  have h0 := byteAt_of_lt (show 4 * i < data.length by omega)
  have h1 := byteAt_of_lt (show 4 * i + 1 < data.length by omega)
  have h2 := byteAt_of_lt (show 4 * i + 2 < data.length by omega)
  unfold pixelOfFour four
  rw [← or_shifted, colorByte, Nat.mul_comm i 4, Nat.add_zero, h0, h1, h2, byteAt_of_lt hi]
  rfl

theorem pixelOfThree_of_lt {data : List Byte} {i : ℕ} (hi : 3 * i + 2 < data.length) :
    pixelOfThree data i = .ok (three data i) := by
  have h0 := byteAt_of_lt (show 3 * i < data.length by omega)
  have h1 := byteAt_of_lt (show 3 * i + 1 < data.length by omega)
  have hblack : black = convertByteToInt 0xff <<< 24 := by decide
  unfold pixelOfThree three
  rw [← or_shifted, ← hblack, Nat.mul_comm i 3, h0, h1, byteAt_of_lt hi]
  rfl

theorem convertByteToColor_nil : convertByteToColor [] = .ok none := rfl

/-- A whole number of pixels. -/
theorem convertByteToColor_of_whole {data : List Byte} (hne : data ≠ [])
    (hsize : data.length % 4 = 0) :
    convertByteToColor data = .ok (some ((List.range (data.length / 4)).map (four data))) := by
  have hpos : data.length ≠ 0 := by simpa using hne
  have hloop : (List.range (data.length / 4)).mapM (pixelOfFour data) =
      .ok ((List.range (data.length / 4)).map (four data)) := by
    apply Rows.mapM_ok
    intro i hi
    have hi' := List.mem_range.1 hi
    exact pixelOfFour_of_lt (by omega)
  simp only [convertByteToColor, colorByte, hpos, hsize, if_false, if_true, hloop]
  rfl

/-- One to three bytes too many. -/
theorem convertByteToColor_of_stray {data : List Byte} (hsize : data.length % 4 ≠ 0) :
    convertByteToColor data =
      .ok (some ((List.range (data.length / 4)).map (three data) ++ [black])) := by
  have hpos : data.length ≠ 0 := by
    intro h
    simp [h] at hsize
  have hloop : (List.range (data.length / 4)).mapM (pixelOfThree data) =
      .ok ((List.range (data.length / 4)).map (three data)) := by
    apply Rows.mapM_ok
    intro i hi
    have hi' := List.mem_range.1 hi
    exact pixelOfThree_of_lt (by omega)
  simp only [convertByteToColor, colorByte, hpos, hsize, if_false, Nat.add_sub_cancel, hloop]
  rfl

/-! ## Stray bytes -/

/-- With one to three bytes too many there is one more pixel, black, and the
others are those of the bytes without the stray ones. -/
def StrayIgnored (data : List Byte) : Prop :=
  ∃ color first,
    convertByteToColor data = .ok (some color) ∧
    convertByteToColor (data.take (4 * (data.length / 4))) = .ok first ∧
    color.length = data.length / 4 + 1 ∧
    color.take (data.length / 4) = first.getD [] ∧
    color.getLast? = some black

/-- The bytes without the stray ones. -/
theorem convertByteToColor_take (data : List Byte) :
    ∃ first, convertByteToColor (data.take (4 * (data.length / 4))) = .ok first ∧
      first.getD [] = (List.range (data.length / 4)).map (four data) := by
  have hlen : (data.take (4 * (data.length / 4))).length = 4 * (data.length / 4) := by
    rw [List.length_take]
    omega
  rcases Nat.eq_zero_or_pos (data.length / 4) with hq | hq
  · -- there is no whole pixel, and `null` is returned for no bytes
    refine ⟨none, ?_, ?_⟩
    · rw [hq]
      exact convertByteToColor_nil
    · simp [hq]
  · have hne : data.take (4 * (data.length / 4)) ≠ [] := by
      intro h
      rw [h, List.length_nil] at hlen
      omega
    have hdiv : 4 * (data.length / 4) / 4 = data.length / 4 := by omega
    refine ⟨_, convertByteToColor_of_whole hne (by omega), ?_⟩
    rw [hlen, hdiv, Option.getD_some]
    apply List.map_congr_left
    intro i hi
    have hi' := List.mem_range.1 hi
    have hget (k : ℕ) (hk : k < 4 * (data.length / 4)) :
        (data.take (4 * (data.length / 4))).getD k 0 = data.getD k 0 := by
      rw [List.getD_eq_getElem?_getD, List.getElem?_take_of_lt hk, List.getD_eq_getElem?_getD]
    simp only [four]
    rw [hget _ (by omega), hget _ (by omega), hget _ (by omega), hget _ (by omega)]

/-- The first pixels are right when each of them is read from the right bytes. -/
theorem strayIgnored_iff_pixels {data : List Byte} (hsize : data.length % 4 ≠ 0) :
    StrayIgnored data ↔ ∀ i < data.length / 4, three data i = four data i := by
  have hwhole := convertByteToColor_take data
  rcases hwhole with ⟨first, hfirst, hmap⟩
  have hstray := convertByteToColor_of_stray hsize
  have htake : ((List.range (data.length / 4)).map (three data) ++ [black]).take
      (data.length / 4) = (List.range (data.length / 4)).map (three data) := by
    rw [List.take_append_of_le_length (by simp), List.take_of_length_le (by simp)]
  constructor
  · rintro ⟨color, first', hcolor, hfirst', _, htaken, _⟩ i hi
    obtain rfl : (List.range (data.length / 4)).map (three data) ++ [black] = color := by
      simpa [hstray] using hcolor
    obtain rfl : first = first' := by simpa [hfirst] using hfirst'
    rw [htake, hmap] at htaken
    exact List.map_inj_left.1 htaken i (List.mem_range.2 hi)
  · intro h
    refine ⟨_, first, hstray, hfirst, by simp, ?_, by simp⟩
    rw [htake, hmap]
    apply List.map_congr_left
    intro i hi
    exact h i (List.mem_range.1 hi)

/-- A pixel read with the wrong stride is right when these bytes agree. -/
theorem three_eq_four_iff (data : List Byte) (i : ℕ) :
    three data i = four data i ↔
      data.getD (4 * i + 3) 0 = 0xff ∧
        ∀ c < 3, data.getD (4 * i + c) 0 = data.getD (3 * i + c) 0 := by
  constructor
  · intro h
    rcases argb_inj h with ⟨ha, hr, hg, hb⟩
    refine ⟨ha.symm, ?_⟩
    intro c hc
    have hcase : c = 0 ∨ c = 1 ∨ c = 2 := by omega
    rcases hcase with rfl | rfl | rfl
    · exact hr.symm
    · exact hg.symm
    · exact hb.symm
  · rintro ⟨ha, hrgb⟩
    have hr := hrgb 0 (by omega)
    simp only [Nat.add_zero] at hr
    rw [three, four, ha, hr, hrgb 1 (by omega), hrgb 2 (by omega)]

/-- The pixels agree when every byte behind the first three is `0xff`: byte
`4 * i + c` is compared with an earlier one, down to these. -/
theorem three_eq_four_all_iff (data : List Byte) (q : ℕ) :
    (∀ i < q, three data i = four data i) ↔
      ∀ k, 3 ≤ k → k < 4 * q → data.getD k 0 = 0xff := by
  constructor
  · intro h k
    induction k using Nat.strongRecOn with
    | ind k ih =>
        intro h3 hk
        have hdiv := Nat.div_add_mod k 4
        rcases (three_eq_four_iff data (k / 4)).1 (h (k / 4) (by omega)) with ⟨ha, hrgb⟩
        by_cases hmod : k % 4 = 3
        · rw [hmod] at hdiv
          rw [← hdiv]
          exact ha
        · -- the byte it is compared with is one of those before it
          rw [← hdiv, hrgb (k % 4) (by omega)]
          exact ih (3 * (k / 4) + k % 4) (by omega) (by omega) (by omega)
  · intro h i hi
    -- both sides of each comparison are `0xff`, or the same byte in the first pixel
    rw [three_eq_four_iff]
    refine ⟨h _ (by omega) (by omega), ?_⟩
    intro c hc
    rcases Nat.eq_zero_or_pos i with rfl | hpos
    · rfl
    · rw [h _ (by omega) (by omega), h _ (by omega) (by omega)]

/-- One to three stray bytes leave the pixels as they are if and only if every
byte of the whole pixels behind the first three is `0xff`. -/
theorem strayIgnored_iff {data : List Byte} (hsize : data.length % 4 ≠ 0) :
    StrayIgnored data ↔
      ∀ k, 3 ≤ k → k < 4 * (data.length / 4) → data[k]? = some 0xff := by
  rw [strayIgnored_iff_pixels hsize, three_eq_four_all_iff]
  constructor
  · intro h k h3 hk
    have hlt : k < data.length := by omega
    rw [← h k h3 hk]
    simp [hlt]
  · intro h k h3 hk
    rw [List.getD_eq_getElem?_getD, h k h3 hk, Option.getD_some]

theorem strayIgnored_opaque : StrayIgnored [1, 2, 3, 0xff, 5] := by
  apply (strayIgnored_iff (by decide)).2
  intro k h3 hk
  have hk' : k < 4 := hk
  obtain rfl : k = 3 := by omega
  rfl

/-- A stray byte makes the pixel before it opaque. -/
theorem not_strayIgnored_translucent : ¬ StrayIgnored [1, 2, 3, 4, 5] := by
  rw [strayIgnored_iff_pixels (by decide)]
  decide

/-! ## The round trip -/

/-- The picture is written without a read outside it, four bytes a pixel, and
the picture made of these bytes has the same pixels. -/
def Restored (bitmap : Bitmap config) : Prop :=
  ∃ data,
    covertBitmapToByte bitmap bitmap.width bitmap.height = .ok data ∧
    data.length = 4 * bitmap.width * bitmap.height ∧
    ∃ copy : Bitmap config,
      createMyBitmap config data bitmap.width bitmap.height = .ok (some copy) ∧
      copy.width = bitmap.width ∧ copy.height = bitmap.height ∧
      ∀ x < bitmap.width, ∀ y < bitmap.height, copy.getPixel x y = bitmap.getPixel x y

/-- The outer loop takes its index for `y`: nothing is thrown only where the
picture is a square. -/
theorem square_of_covertBitmapToByte {bitmap : Bitmap config} {data : List Byte}
    (h : covertBitmapToByte bitmap bitmap.width bitmap.height = .ok data) :
    bitmap.width = bitmap.height := by
  have hread : ∀ i < bitmap.width, ∀ j < bitmap.height, j < bitmap.width ∧ i < bitmap.height := by
    -- a read outside would have thrown
    intro i hi j hj
    rcases hlines : (List.range bitmap.width).mapM (lineBytes bitmap bitmap.height) with e | lines
    · simp [covertBitmapToByte, hlines, bind, Except.bind] at h
    · rcases Rows.exists_of_mapM_ok hlines i (List.mem_range.2 hi) with ⟨line, hline⟩
      rcases Rows.exists_of_mapM_ok hline j (List.mem_range.2 hj) with ⟨bytes, hbytes⟩
      by_contra hout
      simp [pixelBytes, Bitmap.getPixel, hout, bind, Except.bind] at hbytes
  have hw := bitmap.width_pos
  have hh := bitmap.height_pos
  -- the last round of both loops
  have hlast := hread (bitmap.width - 1) (by omega) (bitmap.height - 1) (by omega)
  omega

theorem length_colorBytes (c : Color) : (colorBytes c).length = 4 := rfl

/-- Row `i` of a picture is written in a round of the outer loop. -/
theorem lineBytes_of_lt {bitmap : Bitmap config} {i : ℕ} (hi : i < bitmap.height) :
    lineBytes bitmap bitmap.width i =
      .ok (((bitmap.pixels.drop (bitmap.width * i)).take bitmap.width).map colorBytes) := by
  have hlt (j : ℕ) (hj : j < bitmap.width) := bitmap.index_lt hj hi
  have hline : lineBytes bitmap bitmap.width i = .ok ((List.range bitmap.width).map fun j =>
      colorBytes (bitmap.pixels.getD (bitmap.width * i + j) 0)) := by
    apply Rows.mapM_ok
    intro j hj
    have hj' := List.mem_range.1 hj
    simp [pixelBytes, Bitmap.getPixel, hj', hi, hlt j hj', bind, Except.bind, pure, Except.pure]
  rw [hline]
  congr 1
  apply List.ext_getElem?
  intro j
  by_cases hj : j < bitmap.width
  · simp [hj, List.getElem?_take_of_lt hj, hlt j hj]
  · have hle : bitmap.width ≤ j := Nat.le_of_not_lt hj
    rw [List.getElem?_eq_none (by simpa using hle), List.getElem?_eq_none]
    rw [List.length_map]
    exact Nat.le_trans (List.length_take_le _ _) hle

/-- A square is written row by row. -/
theorem covertBitmapToByte_square {bitmap : Bitmap config} (h : bitmap.width = bitmap.height) :
    covertBitmapToByte bitmap bitmap.width bitmap.height =
      .ok (bitmap.pixels.flatMap colorBytes) := by
  have hlines : (List.range bitmap.width).mapM (lineBytes bitmap bitmap.height) =
      .ok ((List.range bitmap.width).map fun i =>
        ((bitmap.pixels.drop (bitmap.width * i)).take bitmap.width).map colorBytes) := by
    apply Rows.mapM_ok
    intro i hi
    rw [← h]
    apply lineBytes_of_lt
    rw [← h]
    exact List.mem_range.1 hi
  have hlen : bitmap.pixels.length = bitmap.width * bitmap.width := by
    rw [bitmap.length_pixels, ← h]
  have hrows := Rows.flatMap_rows bitmap.pixels bitmap.width bitmap.width
  rw [← hlen, List.take_length] at hrows
  rw [covertBitmapToByte, hlines]
  show Except.ok _ = _
  rw [← List.flatMap_def, ← List.map_flatMap, hrows, ← List.flatMap_def]

/-- What was written of a pixel is decoded to it. -/
theorem four_flatMap (cs : List Color) {i : ℕ} {c : Color} (hi : cs[i]? = some c) :
    four (cs.flatMap colorBytes) i = c := by
  have hget (k : ℕ) (hk : k < 4) :
      (cs.flatMap colorBytes).getD (4 * i + k) 0 = (colorBytes c).getD k 0 := by
    rw [List.getD_eq_getElem?_getD,
      Rows.getElem?_flatMap (fun c' _ => length_colorBytes c') hk, hi, Option.bind_some,
      List.getD_eq_getElem?_getD]
  have h0 := hget 0 (by omega)
  rw [Nat.add_zero] at h0
  rw [four, h0, hget 1 (by omega), hget 2 (by omega), hget 3 (by omega)]
  have hlow : (c &&& 0xff#32).setWidth 8 = c.extractLsb' 0 8 := by
    have h := setWidth_sshiftRight c (show 0 + 8 ≤ 32 by omega)
    rwa [BitVec.sshiftRight_zero] at h
  show argb ((c.sshiftRight 24 &&& 0xff#32).setWidth 8) ((c.sshiftRight 16 &&& 0xff#32).setWidth 8)
    ((c.sshiftRight 8 &&& 0xff#32).setWidth 8) ((c &&& 0xff#32).setWidth 8) = c
  rw [hlow, setWidth_sshiftRight c (by omega), setWidth_sshiftRight c (by omega),
    setWidth_sshiftRight c (by omega), argb_extractLsb']

/-- Written pixels are decoded. -/
theorem convertByteToColor_flatMap {cs : List Color} (hne : cs ≠ []) :
    convertByteToColor (cs.flatMap colorBytes) = .ok (some cs) := by
  have hlen : (cs.flatMap colorBytes).length = 4 * cs.length :=
    Rows.length_flatMap fun c _ => length_colorBytes c
  have hpos : 0 < cs.length := List.length_pos_iff.2 hne
  have hne' : cs.flatMap colorBytes ≠ [] := by
    apply List.ne_nil_of_length_pos
    omega
  have hdiv : 4 * cs.length / 4 = cs.length := by omega
  rw [convertByteToColor_of_whole hne' (by omega), hlen, hdiv]
  congr 2
  apply List.ext_getElem
  · simp
  · intro i hi hi'
    rw [List.getElem_map, List.getElem_range]
    exact four_flatMap cs (List.getElem?_eq_getElem hi')

/-- Pictures with the same pixels are read alike. -/
theorem Bitmap.getPixel_congr {b b' : Bitmap config} (hw : b.width = b'.width)
    (hh : b.height = b'.height) (hp : b.pixels = b'.pixels) (x y : ℕ) :
    b.getPixel x y = b'.getPixel x y := by
  simp [Bitmap.getPixel, hw, hh, hp]

/-- A picture is made again from its pixels. -/
theorem createMyBitmap_flatMap (bitmap : Bitmap config) :
    ∃ copy : Bitmap config,
      createMyBitmap config (bitmap.pixels.flatMap colorBytes) bitmap.width bitmap.height =
        .ok (some copy) ∧
      copy.width = bitmap.width ∧ copy.height = bitmap.height ∧ copy.pixels = bitmap.pixels := by
  have hw := bitmap.width_pos
  have hh := bitmap.height_pos
  have hlen := bitmap.length_pixels
  have hne : bitmap.pixels ≠ [] := by
    apply List.ne_nil_of_length_pos
    rw [hlen]
    exact Nat.mul_pos hw hh
  have hlast : 0 + bitmap.width * (bitmap.height - 1) + bitmap.width ≤ bitmap.pixels.length := by
    rw [hlen, Nat.zero_add, ← Nat.mul_succ]
    apply Nat.mul_le_mul_left
    omega
  have hrows : Bitmap.rows bitmap.pixels 0 bitmap.width bitmap.width bitmap.height =
      bitmap.pixels := by
    unfold Bitmap.rows
    rw [List.drop_zero, Rows.flatMap_rows, List.take_of_length_le (by omega)]
  -- the checks of `createBitmap` let them pass
  unfold createMyBitmap
  rw [convertByteToColor_flatMap hne]
  simp only [bind, Except.bind, Bitmap.createBitmap, hw, hh, hlast, Nat.lt_irrefl, and_self,
    dif_pos, if_false, pure, Except.pure]
  refine ⟨_, rfl, rfl, rfl, ?_⟩
  show (Bitmap.rows bitmap.pixels 0 bitmap.width bitmap.width bitmap.height).map config.keep =
    bitmap.pixels
  rw [hrows, List.map_congr_left bitmap.kept]
  exact List.map_id' _

/-- A picture goes through the file if and only if it is a square. -/
theorem restored_iff (bitmap : Bitmap config) :
    Restored bitmap ↔ bitmap.width = bitmap.height := by
  constructor
  · rintro ⟨data, hdata, _⟩
    exact square_of_covertBitmapToByte hdata
  · intro h
    rcases createMyBitmap_flatMap bitmap with ⟨copy, hcopy, hw, hh, hp⟩
    refine ⟨_, covertBitmapToByte_square h, ?_, copy, hcopy, hw, hh, ?_⟩
    · rw [Rows.length_flatMap fun c _ => length_colorBytes c, bitmap.length_pixels, Nat.mul_assoc]
    · intro x _ y _
      exact Bitmap.getPixel_congr hw hh hp x y

/-- Two pixels side by side. -/
def wide : Bitmap ⟨id, fun _ => rfl⟩ := ⟨2, 1, [0, 0], by decide, by decide, rfl, fun _ _ => rfl⟩

/-- The second round of the outer loop reads below them. -/
theorem not_restored_wide : ¬ Restored wide := by
  rintro ⟨data, hdata, _⟩
  have hthrown : covertBitmapToByte wide wide.width wide.height = .error .illegalArgument := by
    decide
  rw [hthrown] at hdata
  cases hdata

end Zero
