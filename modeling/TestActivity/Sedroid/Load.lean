import Mathlib.Data.List.Basic
import TestActivity.Lib.Transition

/-!
# Loading the patch file

`loadPatches` copies the asset `patches/test_patch.dex` into a file and makes a
`DexPatch` of it. `copyStream` writes into the file itself, chunk by chunk, and
what `copyAssetToFile` returns is not looked at: a copy that stops half way
leaves the beginning of the asset, and it is loaded.

* `loadsAsset_iff`: what is loaded is the asset exactly in those calls in which no
  read or write of the copy fails, and nothing else was in the file.
* `whole_run`: in a run of calls none of whose copies is disturbed the file is
  the asset whenever it is there.
-/

namespace Sedroid

open Transition

/-! ## The copy -/

/-- A byte of a file. -/
abbrev Octet := UInt8

/-- `BUF_SIZE`. -/
def bufSize : ℕ := 4096

/-- One round of `copyStream`: how many bytes `read` returns, unless it throws,
and how many of them `write` has written when it throws. -/
inductive Round where
  | moves (n : ℕ)
  | readFails
  | writeFails (n k : ℕ)
deriving DecidableEq, Repr

/-- `read` returns at least one byte, and no more than there are or fit. -/
def chunk (n : ℕ) (source : List Octet) : ℕ := max 1 (min n (min bufSize source.length))

/-- `copyStream`, from round `i`: what is added to the target, and whether it
returns. A `write` that throws has left out at least one byte. The rounds are at
most as many as the bytes of the source. -/
def copyStream (rounds : ℕ → Round) : ℕ → ℕ → List Octet → List Octet × Bool
  -- the last `read` finds the end, unless it throws
  | _, i, [] => ([], rounds i != .readFails)
  | 0, _, _ => ([], false)
  | fuel + 1, i, source =>
      match rounds i with
      | .moves n =>
          let rest := copyStream rounds fuel (i + 1) (source.drop (chunk n source))
          (source.take (chunk n source) ++ rest.1, rest.2)
      | .readFails => ([], false)
      | .writeFails n k => (source.take (min k (chunk n source - 1)), false)

/-- The outcomes of a call of `loadPatches`. -/
structure LoadCall where
  /-- `delete` -/
  deletes : Bool
  /-- `getAssets().open` -/
  opensAsset : Bool
  /-- `new FileOutputStream` -/
  opensTarget : Bool
  rounds : ℕ → Round
  /-- `DexFile.loadDex` accepts what is in the file -/
  loads : Bool

/-- A file: its content, if it is there. -/
abbrev FileState := Option (List Octet)

/-- `copyAssetToFile`: the target behind it, and what it returns. The target is
emptied when it is opened. -/
def copyAssetToFile (asset : List Octet) (c : LoadCall) (target : FileState) : FileState × Bool :=
  if c.opensAsset && c.opensTarget then
    let copy := copyStream c.rounds asset.length 0 asset
    (some copy.1, copy.2)
  else (target, false)

/-! ## The call -/

/-- `delete` in front of the copy, which is made always in a debug build. -/
def refreshed (debug : Bool) (c : LoadCall) (file : FileState) : FileState :=
  if debug && c.deletes then none else file

/-- The file in front of `new DexPatch`. -/
def loadedFile (debug : Bool) (asset : List Octet) (c : LoadCall) (file : FileState) : FileState :=
  if debug then (copyAssetToFile asset c (refreshed debug c file)).1
  else if file.isNone then (copyAssetToFile asset c file).1
  else file

/-- `loadPatches`: the file behind it, and what it returns: whether a `DexPatch`
was made. `loadDex` throws where there is no file. -/
def loadPatches (debug : Bool) (asset : List Octet) (c : LoadCall) (file : FileState) :
    FileState × Bool :=
  (loadedFile debug asset c file, (loadedFile debug asset c file).isSome && c.loads)

/-- What is loaded is the asset. -/
def LoadsAsset (debug : Bool) (asset : List Octet) (c : LoadCall) (file : FileState) : Prop :=
  (loadPatches debug asset c file).2 = true → (loadPatches debug asset c file).1 = some asset

/-! ## Disturbed copies -/

/-- No `read` or `write` throws before the source is at its end. -/
inductive Undisturbed (rounds : ℕ → Round) : ℕ → List Octet → Prop where
  | done (i : ℕ) : Undisturbed rounds i []
  | moves {i n : ℕ} {source : List Octet} (hne : source ≠ []) (hround : rounds i = .moves n)
      (hrest : Undisturbed rounds (i + 1) (source.drop (chunk n source))) :
      Undisturbed rounds i source

theorem chunk_pos (n : ℕ) (source : List Octet) : 0 < chunk n source := by
  unfold chunk
  omega

theorem chunk_le {source : List Octet} (hne : source ≠ []) (n : ℕ) :
    chunk n source ≤ source.length := by
  have hpos := List.length_pos_iff.2 hne
  unfold chunk
  omega

/-- In front of the end, the round goes through and so does what follows. -/
theorem undisturbed_iff {rounds : ℕ → Round} {i : ℕ} {source : List Octet} (hne : source ≠ []) :
    Undisturbed rounds i source ↔
      ∃ n, rounds i = .moves n ∧ Undisturbed rounds (i + 1) (source.drop (chunk n source)) := by
  constructor
  · intro h
    rcases h with _ | ⟨_, hround, hrest⟩
    · exact absurd rfl hne
    · exact ⟨_, hround, hrest⟩
  · rintro ⟨n, hround, hrest⟩
    exact .moves hne hround hrest

/-- A `write` that throws has left out a byte. -/
theorem take_ne_self {source : List Octet} (hne : source ≠ []) (n k : ℕ) :
    source.take (min k (chunk n source - 1)) ≠ source := by
  intro h
  have hlen := congrArg List.length h
  have hpos := chunk_pos n source
  have hle := chunk_le hne n
  rw [List.length_take] at hlen
  omega

/-- The target has the whole source if and only if nothing throws before. -/
theorem copyStream_eq_iff {rounds : ℕ → Round} {fuel : ℕ} :
    ∀ {i : ℕ} {source : List Octet}, source.length ≤ fuel →
      ((copyStream rounds fuel i source).1 = source ↔ Undisturbed rounds i source) := by
  induction fuel with
  | zero =>
      intro i source hfuel
      obtain rfl : source = [] := List.length_eq_zero_iff.1 (Nat.le_zero.1 hfuel)
      exact iff_of_true rfl (.done i)
  | succ fuel ih =>
      intro i source hfuel
      by_cases hne : source = []
      · rw [hne]
        exact iff_of_true rfl (.done i)
      · rw [undisturbed_iff hne]
        rcases source with _ | ⟨b, source⟩
        · exact absurd rfl hne
        · simp only [copyStream]
          rcases hround : rounds i with n | _ | ⟨n, k⟩
          · -- what is left is copied by the rounds that follow
            have hdrop : ((b :: source).drop (chunk n (b :: source))).length ≤ fuel := by
              have hpos := chunk_pos n (b :: source)
              rw [List.length_drop]
              omega
            have hsplit := List.take_append_drop (chunk n (b :: source)) (b :: source)
            simp only [Round.moves.injEq, exists_eq_left', ← ih hdrop]
            constructor
            · intro h
              exact List.append_cancel_left (h.trans hsplit.symm)
            · intro h
              rw [h, hsplit]
          · simp
          · refine iff_of_false (take_ne_self hne n k) ?_
            simp

/-- The call loads nothing but the asset: no read or write of the copy throws; and
where nothing is copied, the file holds the asset or is not there. -/
def Whole (debug : Bool) (asset : List Octet) (c : LoadCall) (file : FileState) : Prop :=
  c.loads = true →
    if debug = true ∨ file = none then
      if c.opensAsset = true ∧ c.opensTarget = true then Undisturbed c.rounds 0 asset
      else refreshed debug c file = none ∨ refreshed debug c file = some asset
    else file = some asset

/-- Where the copy opens both files, it leaves what it has written. -/
theorem copyAssetToFile_opened {asset : List Octet} {c : LoadCall}
    (h : c.opensAsset = true ∧ c.opensTarget = true) (target : FileState) :
    (copyAssetToFile asset c target).1 = some (copyStream c.rounds asset.length 0 asset).1 := by
  simp [copyAssetToFile, h]

theorem copyAssetToFile_unopened {asset : List Octet} {c : LoadCall}
    (h : ¬ (c.opensAsset = true ∧ c.opensTarget = true)) (target : FileState) :
    (copyAssetToFile asset c target).1 = target := by
  rw [copyAssetToFile, if_neg (by simpa using h)]

/-- The file in front of `new DexPatch`, where it is copied and where it is not. -/
theorem loadedFile_eq (debug : Bool) (asset : List Octet) (c : LoadCall) (file : FileState) :
    loadedFile debug asset c file =
      if debug = true ∨ file = none then (copyAssetToFile asset c (refreshed debug c file)).1
      else file := by
  rcases debug with _ | _
  · rcases file with _ | content
    · rfl
    · rfl
  · rfl

theorem loadsAsset_iff (debug : Bool) (asset : List Octet) (c : LoadCall) (file : FileState) :
    LoadsAsset debug asset c file ↔ Whole debug asset c file := by
  unfold LoadsAsset Whole loadPatches
  simp only [loadedFile_eq, Bool.and_eq_true]
  rcases hloads : c.loads with _ | _
  · simp
  · by_cases hcopied : debug = true ∨ file = none
    · simp only [if_pos hcopied, true_implies, and_true]
      by_cases hopened : c.opensAsset = true ∧ c.opensTarget = true
      · rw [if_pos hopened, copyAssetToFile_opened hopened, ← copyStream_eq_iff (Nat.le_refl _)]
        simp
      · rw [if_neg hopened, copyAssetToFile_unopened hopened]
        rcases refreshed debug c file with _ | content
        · simp
        · simp
    · simp only [if_neg hcopied, true_implies, and_true]
      rcases file with _ | content
      · exact absurd (Or.inr rfl) hcopied
      · simp

/-! ## Runs -/

/-- Call after call, with the file in front of each. -/
def trace (debug : Bool) (asset : List Octet) :
    FileState → List LoadCall → List (FileState × LoadCall)
  | _, [] => []
  | file, c :: cs => (file, c) :: trace debug asset (loadPatches debug asset c file).1 cs

/-- A call, as a step between states of the file. -/
def Loads (debug : Bool) (asset : List Octet) (file : FileState) (c : LoadCall)
    (file' : FileState) : Prop := file' = (loadPatches debug asset c file).1

theorem run_trace (debug : Bool) (asset : List Octet) (file : FileState) (cs : List LoadCall) :
    ∃ file', Run (Loads debug asset) file (trace debug asset file cs) file' := by
  induction cs generalizing file with
  | nil => exact ⟨file, .nil file⟩
  | cons c cs ih =>
      rcases ih (loadPatches debug asset c file).1 with ⟨file', hrun⟩
      exact ⟨file', .cons rfl hrun⟩

theorem snd_mem_of_mem_trace {debug : Bool} {asset : List Octet} {file : FileState}
    {cs : List LoadCall} {p : FileState × LoadCall} (hp : p ∈ trace debug asset file cs) :
    p.2 ∈ cs := by
  induction cs generalizing file with
  | nil => cases hp
  | cons c cs ih =>
      rcases List.mem_cons.1 hp with rfl | hp
      · exact List.mem_cons_self
      · exact List.mem_cons_of_mem _ (ih hp)

/-- What is loaded in a run of calls is the asset if and only if no call of the
run loads a disturbed copy, or what was in the file otherwise. -/
theorem run_loadsAsset_iff (debug : Bool) (asset : List Octet) (file : FileState)
    (cs : List LoadCall) :
    (∀ p ∈ trace debug asset file cs, LoadsAsset debug asset p.2 p.1) ↔
      ∀ p ∈ trace debug asset file cs, Whole debug asset p.2 p.1 := by
  simp only [loadsAsset_iff]

/-- The magic of a dex file, the rest of a header, and four bytes behind it. -/
def paddedAsset : List Octet :=
  [100, 101, 120, 10, 48, 51, 53, 0] ++ List.replicate 104 0 ++ List.replicate 4 255

/-- The second `read` throws. -/
def halfCopied : LoadCall :=
  ⟨true, true, true, fun i => if i = 0 then .moves 112 else .readFails, true⟩

/-- What is loaded ends behind the header. -/
theorem not_run_loadsAsset :
    ¬ ∀ p ∈ trace true paddedAsset none [halfCopied], LoadsAsset true paddedAsset p.2 p.1 := by
  intro h
  have hloaded := h (none, halfCopied) List.mem_cons_self rfl
  revert hloaded
  decide

/-- A file that is the asset or not there stays so while no copy is disturbed. -/
theorem sound_step {debug : Bool} {asset : List Octet} {file file' : FileState} {c : LoadCall}
    (h : Loads debug asset file c file')
    (hcopy : c.opensAsset = true ∧ c.opensTarget = true → Undisturbed c.rounds 0 asset)
    (hsound : file = none ∨ file = some asset) : file' = none ∨ file' = some asset := by
  have hrefreshed : refreshed debug c file = none ∨ refreshed debug c file = some asset := by
    unfold refreshed
    split
    · exact Or.inl rfl
    · exact hsound
  rw [h, loadPatches, loadedFile_eq]
  split
  · by_cases hopened : c.opensAsset = true ∧ c.opensTarget = true
    · right
      rw [copyAssetToFile_opened hopened, (copyStream_eq_iff (Nat.le_refl _)).2 (hcopy hopened)]
    · rw [copyAssetToFile_unopened hopened]
      exact hrefreshed
  · exact hsound

/-- In a run none of whose copies is disturbed only the asset is loaded. -/
theorem whole_run {debug : Bool} {asset : List Octet} {file : FileState} {cs : List LoadCall}
    (hsound : file = none ∨ file = some asset)
    (hcopies : ∀ c ∈ cs, c.opensAsset = true ∧ c.opensTarget = true →
      Undisturbed c.rounds 0 asset) :
    ∀ p ∈ trace debug asset file cs, LoadsAsset debug asset p.2 p.1 := by
  rcases run_trace debug asset file cs with ⟨file', hrun⟩
  have hguard : ∀ p ∈ trace debug asset file cs,
      p.2.opensAsset = true ∧ p.2.opensTarget = true → Undisturbed p.2.rounds 0 asset :=
    fun p hp => hcopies p.2 (snd_mem_of_mem_trace hp)
  have hinv := hrun.invariant
    (fun _ c => c.opensAsset = true ∧ c.opensTarget = true → Undisturbed c.rounds 0 asset)
    (fun file => file = none ∨ file = some asset) (fun _ _ _ => sound_step) hguard hsound
  intro p hp hloaded
  have hbehind : (loadPatches debug asset p.2 p.1).1 = none ∨
      (loadPatches debug asset p.2 p.1).1 = some asset :=
    sound_step rfl (hguard p hp) (hinv.2 p hp)
  rcases hbehind with hnone | hasset
  · simp only [loadPatches] at hnone hloaded
    simp [hnone] at hloaded
  · exact hasset

/-- What a release build finds in the file it loads, in every later call. -/
theorem trace_release {asset content : List Octet} {cs : List LoadCall} :
    ∀ p ∈ trace false asset (some content) cs,
      p.1 = some content ∧ loadPatches false asset p.2 p.1 = (some content, p.2.loads) := by
  induction cs with
  | nil => simp [trace]
  | cons c cs ih =>
      intro p hp
      rcases List.mem_cons.1 hp with rfl | hp
      · exact ⟨rfl, rfl⟩
      · exact ih p hp

end Sedroid
