import Mathlib.Data.List.Forall2
import TestActivity.Lib.FirstMatch
import TestActivity.Su.System

/-!
# The verifier

`Authencation.main` looks through the packages of a uid, and through the
signatures of each package whose name starts with `com.qihoo`, for a
certificate it knows. An allowed one is reported as 100, that of the
authorization manager as 90; either ends the search.

`verdict_order_free_iff` says for which tables the report is a function of the
packages and signatures alone, and means that one of them is allowed.

The digest `md5` is a parameter. `DEBUG` only adds to the log.
-/

namespace Su.Authencation

open FirstMatch

/-- A digest as a list of bytes; `none` for `null`. -/
abbrev Digest := Option Bytes

/-- A package of the uid. -/
structure Package where
  name : String
  /-- what `getPackage` finds; `none` if it returns `null`, or no array -/
  signatures : Option (List Bytes)

/-! ## The known certificates -/

/-- `ALLOWED_SIG`. -/
def allowedSig : List (List Char) :=
  ["dc6dbd6e49682a57a8b82889043b93a8", "2731710b7b726b51ab58e8ccbcfeb586",
    "3bd87d5c8d98f7d711eff0d82d8fe7b9", "1d4dcf3a79293e05fa9744444263d048",
    "ca45263bc938da16ef1b069c95e61ba2", "85b6bfbb179f2467bd5e5e53577d8b15",
    "3093dc0f7ce2079d807d78a798231e9b", "fec53268a38f029357056d46098c9384",
    "bb5cf8250d16d684a7b1e28b12780636", "dc27396cf677dd234244dee1e5ff01ed"].map String.toList

/-- `AUTHMGR_SIG`. -/
def authmgrSig : List Char := "12332c1955435e036a5a94df4e188bd7".toList

/-- `table.charAt(b)`. -/
def hexDigit (b : UInt8) : Char := "0123456789abcdef".toList.getD b.toNat '0'

/-- `bytesToHexString`. The masks make the sign of a Java byte irrelevant. -/
def bytesToHexString (bytes : Bytes) : List Char :=
  bytes.flatMap fun (b : UInt8) =>
    [hexDigit ((0x0f : UInt8) &&& b >>> 4), hexDigit ((0x0f : UInt8) &&& b)]

/-- `isSigValid`. -/
def isSigValid : Digest → Bool
  | none => false
  | some sigb => allowedSig.contains (bytesToHexString sigb)

/-- `isSigAuthMgr`. -/
def isSigAuthMgr : Digest → Bool
  | none => false
  | some sigb => bytesToHexString sigb == authmgrSig

/-! ## `main` -/

/-- What the search ends with. -/
inductive Verdict where
  /-- a match: 100 -/
  | matched
  /-- the authorization manager: 90 -/
  | authmgr
deriving DecidableEq, Repr

/-- The exit code. -/
def Verdict.code : Verdict → ℤ
  | .matched => 100
  | .authmgr => 90

/-- The text that is printed. -/
def Verdict.text : Verdict → Bytes
  | .matched => ascii "100\n"
  | .authmgr => ascii "90\n"

section Main

variable (md5 : Bytes → Digest)

/-- `for (Signature sig : sigs)`; `none` if the loop ends without a `return`. -/
def scanSignatures : List Bytes → Option Verdict
  | [] => none
  | sig :: sigs =>
      if isSigValid (md5 sig) then some .matched
      else if isSigAuthMgr (md5 sig) then some .authmgr
      else scanSignatures sigs

/-- `for (String callerPkg : pkgs)`. -/
def scanPackages : List Package → Option Verdict
  | [] => none
  | callerPkg :: pkgs =>
      if "com.qihoo".toList.isPrefixOf callerPkg.name.toList then
        match callerPkg.signatures with
        | none => scanPackages pkgs
        | some sigs =>
            match scanSignatures md5 sigs with
            | some verdict => some verdict
            | none => scanPackages pkgs
      else scanPackages pkgs

/-- The search for a uid. If there are no packages the array is empty or `null`. -/
def verdict (uid : ℤ) (pkgs : List Package) : Option Verdict :=
  if 0 < uid then scanPackages md5 pkgs else none

/-- How the process ends. -/
structure Outcome where
  exit : ℤ
  printed : Bytes
deriving DecidableEq, Repr

/-- `main(uid, _, isExit ? "exit" : "stream")`. -/
def main (uid : ℤ) (isExit : Bool) (pkgs : List Package) : Outcome :=
  match verdict md5 uid pkgs with
  | none => ⟨0, []⟩
  | some v => if isExit then ⟨v.code, []⟩ else ⟨0, v.text⟩

/-! ## Under `checksignature` -/

/-- What the server reads of what was printed. -/
def readPrinted : Bytes → ReadResult
  | [] => .eof
  | b :: bs => .data (b :: bs)

/-- The two runs `checksignature` makes of the verifier in `jar`, each with the
table in the order it is given then. Of another jar nothing is known. -/
def verifier (jar : Option Bytes) (other : Verifier) (uid : ℤ) (pkgs pkgs2 : List Package) :
    Verifier where
  system content :=
    if content = jar then (main md5 uid true pkgs).exit * 256 else other.system content
  system2 content :=
    if content = jar then printedStatus (readPrinted (main md5 uid false pkgs2).printed)
    else other.system2 content

end Main

/-! ## One list of signatures -/

/-- The signatures the search comes to in a package. -/
def considered (p : Package) : List Bytes :=
  if "com.qihoo".toList.isPrefixOf p.name.toList then p.signatures.getD [] else []

section Scan

variable (md5 : Bytes → Digest)

/-- The test of one signature. -/
def grade (sig : Bytes) : Option Verdict :=
  if isSigValid (md5 sig) then some .matched
  else if isSigAuthMgr (md5 sig) then some .authmgr
  else none

theorem scanSignatures_eq (sigs : List Bytes) :
    scanSignatures md5 sigs = sigs.findSome? (grade md5) := by
  induction sigs with
  | nil => rfl
  | cons sig sigs ih =>
      rw [scanSignatures, List.findSome?_cons, ih, grade]
      split_ifs <;> rfl

/-- The two loops are one scan of all signatures that are considered. -/
theorem scanPackages_eq (pkgs : List Package) :
    scanPackages md5 pkgs = (pkgs.flatMap considered).findSome? (grade md5) := by
  induction pkgs with
  | nil => rfl
  | cons p pkgs ih =>
      rw [scanPackages, List.flatMap_cons, List.findSome?_append, ← ih, considered]
      by_cases hname : "com.qihoo".toList.isPrefixOf p.name.toList = true
      · rw [if_pos hname, if_pos hname]
        cases p.signatures with
        | none => rfl
        | some sigs =>
            simp only [scanSignatures_eq, Option.getD_some]
            cases sigs.findSome? (grade md5) <;> rfl
      · rw [if_neg hname, if_neg hname]
        rfl

/-- No certificate is both allowed and the authorization manager's. -/
theorem not_valid_of_authMgr {d : Digest} (h : isSigAuthMgr d = true) : isSigValid d = false := by
  cases d with
  | none => rfl
  | some sigb =>
      have hsig : bytesToHexString sigb = authmgrSig := by simpa [isSigAuthMgr] using h
      rw [isSigValid, hsig]
      decide

theorem grade_eq_matched_iff (sig : Bytes) :
    grade md5 sig = some .matched ↔ isSigValid (md5 sig) = true := by
  unfold grade
  split_ifs <;> simp_all

theorem grade_eq_authmgr_iff (sig : Bytes) :
    grade md5 sig = some .authmgr ↔ isSigAuthMgr (md5 sig) = true := by
  unfold grade
  cases hauth : isSigAuthMgr (md5 sig) with
  | true => simp [not_valid_of_authMgr hauth]
  | false => simp

/-- Some package whose name starts with `com.qihoo` carries such a signature. -/
def Carries (test : Digest → Bool) (pkgs : List Package) : Prop :=
  ∃ sig ∈ pkgs.flatMap considered, test (md5 sig) = true

/-- The answers differ only between an allowed certificate and the manager's. -/
theorem agree_iff (pkgs : List Package) :
    Agree (grade md5) (pkgs.flatMap considered) ↔
      ¬ (Carries md5 isSigValid pkgs ∧ Carries md5 isSigAuthMgr pkgs) := by
  constructor
  · rintro h ⟨⟨a, ha, hvalid⟩, ⟨b, hb, hauth⟩⟩
    have heq := h a ha b hb _ _ ((grade_eq_matched_iff md5 a).2 hvalid)
      ((grade_eq_authmgr_iff md5 b).2 hauth)
    cases heq
  · intro h a ha b hb x y hx hy
    cases x with
    | matched =>
        cases y with
        | matched => rfl
        | authmgr =>
            exact absurd ⟨⟨a, ha, (grade_eq_matched_iff md5 a).1 hx⟩,
              ⟨b, hb, (grade_eq_authmgr_iff md5 b).1 hy⟩⟩ h
    | authmgr =>
        cases y with
        | matched =>
            exact absurd ⟨⟨b, hb, (grade_eq_matched_iff md5 b).1 hy⟩,
              ⟨a, ha, (grade_eq_authmgr_iff md5 a).1 hx⟩⟩ h
        | authmgr => rfl

end Scan

/-! ## The order of the table -/

/-- Two entries for one package: the same signatures in any order. -/
structure Package.Same (p q : Package) : Prop where
  name : p.name = q.name
  signatures : Option.Rel List.Perm p.signatures q.signatures

/-- The same packages in any order, each with its signatures in any order. -/
def Reordered (pkgs pkgs' : List Package) : Prop :=
  ∃ mid, pkgs.Perm mid ∧ List.Forall₂ Package.Same mid pkgs'

theorem Package.Same.refl (p : Package) : p.Same p := by
  refine ⟨rfl, ?_⟩
  cases p.signatures with
  | none => exact .none
  | some sigs => exact .some (List.Perm.refl sigs)

theorem Package.Same.mem_considered {p q : Package} (h : p.Same q) (sig : Bytes) :
    sig ∈ considered p ↔ sig ∈ considered q := by
  unfold considered
  rw [h.name]
  split_ifs
  · have hsigs := h.signatures
    generalize p.signatures = s at hsigs ⊢
    generalize q.signatures = s' at hsigs ⊢
    cases hsigs with
    | none => exact Iff.rfl
    | some hperm => exact hperm.mem_iff
  · exact Iff.rfl

theorem mem_flatMap_of_same {pkgs pkgs' : List Package} (h : List.Forall₂ Package.Same pkgs pkgs')
    (sig : Bytes) : sig ∈ pkgs.flatMap considered ↔ sig ∈ pkgs'.flatMap considered := by
  induction h with
  | nil => exact Iff.rfl
  | cons hsame _ ih =>
      rw [List.flatMap_cons, List.flatMap_cons, List.mem_append, List.mem_append, ih,
        hsame.mem_considered]

/-- A reordered table offers the same signatures. -/
theorem Reordered.mem_iff {pkgs pkgs' : List Package} (h : Reordered pkgs pkgs') (sig : Bytes) :
    sig ∈ pkgs'.flatMap considered ↔ sig ∈ pkgs.flatMap considered := by
  rcases h with ⟨mid, hperm, hsame⟩
  rw [← mem_flatMap_of_same hsame]
  exact (hperm.flatMap_right considered).symm.mem_iff

/-- Any signature that is considered comes first in some order of the table. -/
theorem exists_reordered_cons {pkgs : List Package} {sig : Bytes}
    (h : sig ∈ pkgs.flatMap considered) :
    ∃ pkgs' sigs, Reordered pkgs pkgs' ∧ pkgs'.flatMap considered = sig :: sigs := by
  rcases List.mem_flatMap.1 h with ⟨p, hp, hsig⟩
  rcases List.append_of_mem hp with ⟨before, after, rfl⟩
  unfold considered at hsig
  split_ifs at hsig with hname
  · cases hsigs : p.signatures with
    | none =>
        rw [hsigs] at hsig
        cases hsig
    | some sigs =>
        rw [hsigs] at hsig
        rcases List.append_of_mem hsig with ⟨sigs₁, sigs₂, hsplit⟩
        rw [Option.getD_some] at hsplit
        -- the package to the front, and in it the signature
        set p' : Package := ⟨p.name, some (sig :: (sigs₁ ++ sigs₂))⟩
        refine ⟨p' :: (before ++ after), sigs₁ ++ sigs₂ ++ (before ++ after).flatMap considered,
          ⟨p :: (before ++ after), List.perm_middle, ?_⟩, ?_⟩
        · refine .cons ⟨rfl, ?_⟩ (List.forall₂_same.2 fun q _ => .refl q)
          rw [hsigs, hsplit]
          exact .some List.perm_middle
        · have hp' : considered p' = sig :: (sigs₁ ++ sigs₂) := if_pos hname
          rw [List.flatMap_cons, hp', List.cons_append]
  · cases hsig

/-! ## What the report depends on -/

section Order

variable (md5 : Bytes → Digest)

/-- The outcome tells the verdicts apart. -/
theorem main_eq_iff (uid : ℤ) (isExit : Bool) (pkgs pkgs' : List Package) :
    main md5 uid isExit pkgs = main md5 uid isExit pkgs' ↔
      verdict md5 uid pkgs = verdict md5 uid pkgs' := by
  unfold main
  generalize verdict md5 uid pkgs = v
  generalize verdict md5 uid pkgs' = v'
  rcases v with _ | _ | _ <;> rcases v' with _ | _ | _ <;> cases isExit <;> decide

theorem exit_eq_iff (uid : ℤ) (pkgs : List Package) :
    (main md5 uid true pkgs).exit = 100 ↔ verdict md5 uid pkgs = some .matched := by
  unfold main
  rcases verdict md5 uid pkgs with _ | _ | _ <;> decide

theorem printed_eq_iff (uid : ℤ) (pkgs : List Package) :
    (main md5 uid false pkgs).printed = ascii "100\n" ↔ verdict md5 uid pkgs = some .matched := by
  unfold main
  rcases verdict md5 uid pkgs with _ | _ | _ <;> decide

/-- No allowed signature stands beside one of the authorization manager. For a
uid that is not positive nothing is looked up, and there must be no allowed one. -/
def Unmixed (uid : ℤ) (pkgs : List Package) : Prop :=
  if 0 < uid then ¬ (Carries md5 isSigValid pkgs ∧ Carries md5 isSigAuthMgr pkgs)
  else ¬ Carries md5 isSigValid pkgs

variable {md5}

theorem verdict_of_unmixed {uid : ℤ} {pkgs pkgs' : List Package} (h : Unmixed md5 uid pkgs)
    (hre : Reordered pkgs pkgs') : verdict md5 uid pkgs' = verdict md5 uid pkgs := by
  unfold verdict
  unfold Unmixed at h
  split_ifs at h ⊢
  · rw [scanPackages_eq, scanPackages_eq]
    exact ((agree_iff md5 pkgs).2 h).findSome?_congr hre.mem_iff
  · rfl

theorem verdict_eq_matched_iff {uid : ℤ} {pkgs : List Package} (h : Unmixed md5 uid pkgs) :
    verdict md5 uid pkgs = some .matched ↔ Carries md5 isSigValid pkgs := by
  unfold verdict
  unfold Unmixed at h
  split_ifs at h ⊢
  · rw [scanPackages_eq, ((agree_iff md5 pkgs).2 h).findSome?_eq_some_iff]
    simp only [grade_eq_matched_iff, Carries]
  · exact iff_of_false (by simp) h

/-- The converse: in a mixed table either signature may come first. -/
theorem unmixed_of_orderFree {uid : ℤ} {pkgs : List Package}
    (hfree : ∀ pkgs', Reordered pkgs pkgs' → verdict md5 uid pkgs' = verdict md5 uid pkgs)
    (hmatched : verdict md5 uid pkgs = some .matched ↔ Carries md5 isSigValid pkgs) :
    Unmixed md5 uid pkgs := by
  unfold Unmixed
  split_ifs with huid
  · rintro ⟨⟨a, ha, hvalid⟩, ⟨b, hb, hauth⟩⟩
    rcases exists_reordered_cons ha with ⟨pkgs₁, sigs₁, hre₁, hfirst₁⟩
    rcases exists_reordered_cons hb with ⟨pkgs₂, sigs₂, hre₂, hfirst₂⟩
    have h₁ : verdict md5 uid pkgs₁ = some .matched := by
      rw [verdict, if_pos huid, scanPackages_eq, hfirst₁]
      exact findSome?_cons_of_some ((grade_eq_matched_iff md5 a).2 hvalid) sigs₁
    have h₂ : verdict md5 uid pkgs₂ = some .authmgr := by
      rw [verdict, if_pos huid, scanPackages_eq, hfirst₂]
      exact findSome?_cons_of_some ((grade_eq_authmgr_iff md5 b).2 hauth) sigs₂
    rw [hfree pkgs₁ hre₁, ← hfree pkgs₂ hre₂, h₂] at h₁
    cases h₁
  · intro hvalid
    have hverdict := hmatched.2 hvalid
    rw [verdict, if_neg huid] at hverdict
    cases hverdict

/-- The exit code and the printed text depend on the packages and signatures
alone, say 100 exactly if one of them is allowed, and make `checksignature` a
function of them, exactly if no allowed signature stands beside that of the
authorization manager. -/
theorem verdict_order_free_iff (md5 : Bytes → Digest) (uid : ℤ) (pkgs : List Package) :
    ((∀ isExit pkgs', Reordered pkgs pkgs' →
          main md5 uid isExit pkgs' = main md5 uid isExit pkgs) ∧
        ((main md5 uid true pkgs).exit = 100 ↔ Carries md5 isSigValid pkgs) ∧
        ((main md5 uid false pkgs).printed = ascii "100\n" ↔ Carries md5 isSigValid pkgs) ∧
        ∀ xdata file ops jar other pkgs₁ pkgs₂, Reordered pkgs pkgs₁ → Reordered pkgs pkgs₂ →
          checksignature xdata file ops (verifier md5 jar other uid pkgs₁ pkgs₂) =
            checksignature xdata file ops (verifier md5 jar other uid pkgs pkgs)) ↔
      Unmixed md5 uid pkgs := by
  constructor
  · rintro ⟨hfree, hexit, -, -⟩
    apply unmixed_of_orderFree
    · intro pkgs' hre
      exact (main_eq_iff md5 uid true pkgs' pkgs).1 (hfree true pkgs' hre)
    · rw [← exit_eq_iff, hexit]
  · intro h
    have hfree : ∀ isExit pkgs', Reordered pkgs pkgs' →
        main md5 uid isExit pkgs' = main md5 uid isExit pkgs := by
      intro isExit pkgs' hre
      rw [main_eq_iff]
      exact verdict_of_unmixed h hre
    refine ⟨hfree, ?_, ?_, ?_⟩
    · rw [exit_eq_iff, verdict_eq_matched_iff h]
    · rw [printed_eq_iff, verdict_eq_matched_iff h]
    · intro xdata file ops jar other pkgs₁ pkgs₂ hre₁ hre₂
      unfold verifier
      rw [hfree true pkgs₁ hre₁, hfree false pkgs₂ hre₂]

/-- The digests of an allowed certificate and of the authorization manager's. -/
def twoCertificates (sig : Bytes) : Digest :=
  if sig = [1] then
    some [0xdc, 0x6d, 0xbd, 0x6e, 0x49, 0x68, 0x2a, 0x57, 0xa8, 0xb8, 0x28, 0x89, 0x04, 0x3b, 0x93,
      0xa8]
  else if sig = [2] then
    some [0x12, 0x33, 0x2c, 0x19, 0x55, 0x43, 0x5e, 0x03, 0x6a, 0x5a, 0x94, 0xdf, 0x4e, 0x18, 0x8b,
      0xd7]
  else none

/-- A package with both signatures, in the given order. -/
def mobilesafe (sigs : List Bytes) : Package := ⟨"com.qihoo360.mobilesafe", some sigs⟩

/-- It exits with 100 or with 90, as they come. -/
theorem mobilesafe_ordered :
    Reordered [mobilesafe [[1], [2]]] [mobilesafe [[2], [1]]] ∧
      (main twoCertificates 10068 true [mobilesafe [[1], [2]]]).exit = 100 ∧
      (main twoCertificates 10068 true [mobilesafe [[2], [1]]]).exit = 90 := by
  refine ⟨⟨_, List.Perm.refl _, .cons ⟨rfl, .some (List.Perm.swap ..)⟩ .nil⟩, ?_, ?_⟩
  · decide
  · decide

end Order

end Su.Authencation
