import Mathlib.Data.Int.Basic
import TestActivity.Lib.Transition

/-!
# `socket_accept` and the list of trusted users

A connection is accepted if its peer is root, if its uid is in `user_list`, or
if `checksignature` returns 0 for it; in the last case the uid is added to the
list. Nothing takes a uid off the list: the call of `delete_user` is compiled
out.

The answers of `checksignature` change under the server, as packages come and
go. A run interleaves such changes with connection attempts.
`accepted_trusted_iff` says for which runs every accepted peer is trusted at
the time of its `accept`.
-/

namespace Su

open Transition

/-- `uid_t`. -/
abbrev Uid := UInt32

/-- `AID_ROOT`. -/
def aidRoot : Uid := 0

/-! ## The list -/

/-- The loop of `find_user`, from an entry with the given index on. -/
def findUserFrom (uid : Uid) : List Uid → ℤ → ℤ
  | [], _ => -1
  | current :: next, index => if current = uid then index else findUserFrom uid next (index + 1)

/-- `find_user`: the index of the first entry for `uid`, or `-1`. -/
def findUser (userList : List Uid) (uid : Uid) : ℤ := findUserFrom uid userList 0

/-- `add_user`: a new last entry, if there is memory for it. -/
def addUser (userList : List Uid) (uid : Uid) (mallocOk : Bool) : List Uid :=
  if mallocOk then userList ++ [uid] else userList

theorem findUserFrom_nonneg_iff (uid : Uid) (us : List Uid) {index : ℤ} (h : 0 ≤ index) :
    0 ≤ findUserFrom uid us index ↔ uid ∈ us := by
  induction us generalizing index with
  | nil => simp [findUserFrom]
  | cons u us ih =>
      by_cases hu : u = uid
      · simp [findUserFrom, hu, h]
      · simp [findUserFrom, hu, Ne.symm hu, ih (Int.le_add_one h)]

@[simp] theorem findUser_nonneg_iff {us : List Uid} {uid : Uid} :
    0 ≤ findUser us uid ↔ uid ∈ us :=
  findUserFrom_nonneg_iff uid us (Int.le_refl 0)

@[simp] theorem mem_addUser {us : List Uid} {uid u : Uid} {mallocOk : Bool} :
    u ∈ addUser us uid mallocOk ↔ u ∈ us ∨ (mallocOk = true ∧ u = uid) := by
  cases mallocOk <;> simp [addUser]

/-! ## One attempt -/

/-- The outcomes of the calls in one `socket_accept`. -/
structure Attempt where
  /-- `accept` returns a descriptor -/
  acceptOk : Bool
  /-- the uid of the peer; `none` if `getcredspid` returns a negative pid -/
  peer : Option Uid
  mallocOk : Bool

/-- `socket_accept`: the list afterwards, and whether a descriptor is returned. -/
def socketAccept (userList : List Uid) (checksig : Uid → ℤ) (a : Attempt) : List Uid × Bool :=
  if !a.acceptOk then (userList, false)
  else
    match a.peer with
    | none => (userList, false)
    | some uid =>
        if uid = aidRoot then (userList, true)
        -- a listed uid is not checked again
        else if 0 ≤ findUser userList uid then (userList, true)
        else if checksig uid = 0 then (addUser userList uid a.mallocOk, true)
        else (userList, false)

/-! ## Runs of the server -/

/-- The server's list, and what `checksignature` would answer now. -/
structure Trust where
  userList : List Uid
  checksig : Uid → ℤ

/-- Packages are installed or removed, or somebody connects. -/
inductive TrustEvent where
  | packages (checksig : Uid → ℤ)
  | attempt (a : Attempt)

/-- One step of a run. -/
inductive TrustStep : Trust → TrustEvent → Trust → Prop where
  | packages (s : Trust) (checksig : Uid → ℤ) :
      TrustStep s (.packages checksig) { s with checksig := checksig }
  | attempt (s : Trust) (a : Attempt) :
      TrustStep s (.attempt a) { s with userList := (socketAccept s.userList s.checksig a).1 }

/-- `uid`, not root, connects in this step. -/
def Attempts (p : Trust × TrustEvent) (uid : Uid) : Prop :=
  uid ≠ aidRoot ∧ ∃ a, p.2 = .attempt a ∧ a.acceptOk = true ∧ a.peer = some uid

/-- `uid`, not root, is accepted in this step. -/
def Accepts (p : Trust × TrustEvent) (uid : Uid) : Prop :=
  uid ≠ aidRoot ∧ ∃ a, p.2 = .attempt a ∧ a.peer = some uid ∧
    (socketAccept p.1.userList p.1.checksig a).2 = true

/-- `uid` connects while `checksignature` answers 0, and there is memory to
remember it. -/
def Remembered (p : Trust × TrustEvent) (uid : Uid) : Prop :=
  uid ≠ aidRoot ∧ p.1.checksig uid = 0 ∧
    ∃ a, p.2 = .attempt a ∧ a.acceptOk = true ∧ a.peer = some uid ∧ a.mallocOk = true

/-- Who is accepted: the listed and the trusted. -/
theorem accepts_iff {p : Trust × TrustEvent} {uid : Uid} :
    Accepts p uid ↔ Attempts p uid ∧ (uid ∈ p.1.userList ∨ p.1.checksig uid = 0) := by
  constructor
  · rintro ⟨hroot, a, ha, hpeer, hacc⟩
    unfold socketAccept at hacc
    split_ifs at hacc with hok
    have hok' : a.acceptOk = true := by simpa using hok
    refine ⟨⟨hroot, a, ha, hok', hpeer⟩, ?_⟩
    simp only [hpeer, if_neg hroot, findUser_nonneg_iff] at hacc
    split_ifs at hacc with hmem hsig
    · exact Or.inl hmem
    · exact Or.inr hsig
  · rintro ⟨⟨hroot, a, ha, hok, hpeer⟩, htrust⟩
    refine ⟨hroot, a, ha, hpeer, ?_⟩
    simp only [socketAccept, hok, Bool.not_true, Bool.false_eq_true, if_false, hpeer, if_neg hroot,
      findUser_nonneg_iff]
    split_ifs with hmem hsig
    · rfl
    · rfl
    · exact absurd htrust (by simp [hmem, hsig])

/-- A step adds to the list who is remembered, and nobody else. -/
theorem mem_userList_step {s s' : Trust} {l : TrustEvent} (h : TrustStep s l s') {uid : Uid} :
    uid ∈ s'.userList ↔ uid ∈ s.userList ∨ Remembered (s, l) uid := by
  cases h with
  | packages checksig => simp [Remembered]
  | attempt a =>
      have hrem : Remembered (s, .attempt a) uid ↔ uid ≠ aidRoot ∧ s.checksig uid = 0 ∧
          a.acceptOk = true ∧ a.peer = some uid ∧ a.mallocOk = true := by
        simp [Remembered]
      rw [hrem]
      simp only [socketAccept]
      split_ifs with hok
      · have hok' : a.acceptOk = false := by simpa using hok
        simp [hok']
      · have hok' : a.acceptOk = true := by simpa using hok
        cases hpeer : a.peer with
        | none => simp
        | some peer =>
            simp only [findUser_nonneg_iff, hok', Option.some.injEq, true_and]
            split_ifs with hroot hmem hsig
            · -- root is never added
              constructor
              · exact Or.inl
              · rintro (h | ⟨hne, -, rfl, -⟩)
                · exact h
                · exact absurd hroot hne
            · -- a listed peer is not added a second time
              constructor
              · exact Or.inl
              · rintro (h | ⟨-, -, rfl, -⟩)
                · exact h
                · exact hmem
            · simp only [mem_addUser]
              constructor
              · rintro (h | ⟨hm, rfl⟩)
                · exact Or.inl h
                · exact Or.inr ⟨hroot, hsig, rfl, hm⟩
              · rintro (h | ⟨-, -, rfl, hm⟩)
                · exact Or.inl h
                · exact Or.inr ⟨hm, rfl⟩
            · constructor
              · exact Or.inl
              · rintro (h | ⟨-, hs, rfl, -⟩)
                · exact h
                · exact absurd hs hsig

/-- The list is the history of the run: it holds exactly the uids that were
remembered in one of its steps. -/
theorem mem_userList_run {s s' : Trust} {tr : List (Trust × TrustEvent)}
    (run : Run TrustStep s tr s') {uid : Uid} :
    uid ∈ s'.userList ↔ uid ∈ s.userList ∨ ∃ q ∈ tr, Remembered q uid := by
  induction run with
  | nil => simp
  | cons hstep _ ih =>
      rw [ih, mem_userList_step hstep]
      simp [or_assoc]

/-- If no package change takes the trust of a listed uid away, the listed stay
trusted. -/
theorem listed_trusted {s s' : Trust} {tr : List (Trust × TrustEvent)}
    (run : Run TrustStep s tr s')
    (hkeep : ∀ p ∈ tr, ∀ checksig, p.2 = .packages checksig →
      ∀ uid ∈ p.1.userList, checksig uid = 0)
    (h0 : ∀ uid ∈ s.userList, s.checksig uid = 0) :
    ∀ uid ∈ s'.userList, s'.checksig uid = 0 := by
  refine (run.invariant
    (fun t l => ∀ checksig, l = .packages checksig → ∀ uid ∈ t.userList, checksig uid = 0)
    (fun t => ∀ uid ∈ t.userList, t.checksig uid = 0) ?_ hkeep h0).1
  intro t l t' hstep hguard hinv uid huid
  rcases (mem_userList_step hstep).1 huid with hmem | ⟨-, hsig, a, rfl, -⟩
  · cases hstep with
    | packages checksig => exact hguard checksig rfl uid hmem
    | attempt a => exact hinv uid hmem
  · cases hstep
    exact hsig

/-- In a run of a server that starts with an empty list, every accepted peer is
trusted when it is accepted, exactly if no uid that was once remembered
connects at a time when it is not trusted any more. -/
theorem accepted_trusted_iff {checksig : Uid → ℤ} {tr : List (Trust × TrustEvent)} {s : Trust}
    (run : Run TrustStep ⟨[], checksig⟩ tr s) :
    (∀ p ∈ tr, ∀ uid, Accepts p uid → p.1.checksig uid = 0) ↔
      ∀ before p after uid, tr = before ++ p :: after → Attempts p uid →
        (∃ q ∈ before, Remembered q uid) → p.1.checksig uid = 0 := by
  have hlisted : ∀ {before p after uid}, tr = before ++ p :: after →
      (uid ∈ p.1.userList ↔ ∃ q ∈ before, Remembered q uid) := by
    rintro before p after uid rfl
    rw [mem_userList_run run.split.1]
    simp
  constructor
  · intro h before p after uid htr hatt hrem
    refine h p (by simp [htr]) uid (accepts_iff.2 ⟨hatt, Or.inl ?_⟩)
    exact (hlisted htr).2 hrem
  · intro h p hp uid hacc
    rcases List.append_of_mem hp with ⟨before, after, htr⟩
    rcases accepts_iff.1 hacc with ⟨hatt, hmem | hsig⟩
    · exact h before p after uid htr hatt ((hlisted htr).1 hmem)
    · exact hsig

/-- A client with the uid 10060 connects. -/
def connects : TrustEvent := .attempt ⟨true, some 10060, true⟩

/-- Only the uid 10060 carries an allowed signature. -/
def onlyClient (uid : Uid) : ℤ := if uid = 10060 then 0 else -1

/-- A client that stays trusted may come back. -/
theorem accepted_trusted_twice :
    ∃ tr s, Run TrustStep ⟨[], onlyClient⟩ tr s ∧ tr.map Prod.snd = [connects, connects] ∧
      ∀ p ∈ tr, ∀ uid, Accepts p uid → p.1.checksig uid = 0 := by
  have run : Run TrustStep ⟨[], onlyClient⟩
      [(⟨[], onlyClient⟩, connects), (⟨[10060], onlyClient⟩, connects)] ⟨[10060], onlyClient⟩ :=
    .cons (.attempt _ _) (.cons (.attempt _ _) (.nil _))
  refine ⟨_, _, run, rfl, (accepted_trusted_iff run).2 ?_⟩
  intro before p after uid htr hatt _
  have hp : p ∈ before ++ p :: after := by simp
  rw [← htr] at hp
  have hevent : p.2 = connects ∧ p.1.checksig = onlyClient := by
    simp only [List.mem_cons, List.not_mem_nil, or_false] at hp
    rcases hp with rfl | rfl
    · exact ⟨rfl, rfl⟩
    · exact ⟨rfl, rfl⟩
  rcases hatt with ⟨-, a, ha, -, hpeer⟩
  -- both attempts are the client's, who is trusted throughout
  obtain rfl : a = ⟨true, some 10060, true⟩ := TrustEvent.attempt.inj (ha.symm.trans hevent.1)
  obtain rfl : 10060 = uid := Option.some.inj hpeer
  rw [hevent.2]
  rfl

/-- A client connects, its package is replaced by one of another signer, and the
new one connects under the same uid: it is accepted. -/
theorem replaced_accepted :
    ∃ tr s, Run TrustStep ⟨[], onlyClient⟩ tr s ∧
      ¬ ∀ p ∈ tr, ∀ uid, Accepts p uid → p.1.checksig uid = 0 := by
  refine ⟨[(⟨[], onlyClient⟩, connects), (⟨[10060], onlyClient⟩, .packages fun _ => -1),
    (⟨[10060], fun _ => -1⟩, connects)], ⟨[10060], fun _ => -1⟩,
    .cons (.attempt _ _) (.cons (.packages _ _) (.cons (.attempt _ _) (.nil _))), ?_⟩
  intro h
  have hacc : Accepts (⟨[10060], fun _ => -1⟩, connects) 10060 :=
    ⟨by decide, ⟨true, some 10060, true⟩, rfl, rfl, by decide⟩
  exact absurd (h _ (by simp) 10060 hacc) (by decide)

end Su
