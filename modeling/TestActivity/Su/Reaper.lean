import Mathlib.Data.Finset.Card
import TestActivity.Lib.Transition

/-!
# Children and SIGCHLD

The main process forks a child for every request and one or two for every
signature check. `mainsigchld` runs once for a delivery of SIGCHLD and calls
`waitpid` once. SIGCHLD does not queue: children that exit while it is pending
share one delivery. `_system` and `_system2` block it, and wait for their own
child themselves.

* `Inv`: every exited child that nobody has waited for has a delivery of its
  own, pending or in the handler. The child `_system` waits for needs none.
* `no_zombies`: it is kept, and no zombie stays behind, in every run in which
  no child exits for which there is no delivery left.
* `merges_iff_leaks`: each such exit can leave a zombie behind.
-/

namespace Su.Reaper

open Transition

/-- Where `mainsigchld` is. -/
inductive Handler where
  /-- not running -/
  | idle
  /-- in front of `waitpid(-1,..,WNOHANG)` -/
  | entered
  /-- behind it -/
  | reaped
deriving DecidableEq, Repr

/-- Where the main process is. -/
inductive MainPc where
  /-- anywhere outside `_system` and `_system2` -/
  | loop
  /-- in `_system`, behind `SIG_BLOCK` -/
  | systemBlocked
  /-- at `waitpid(pid,..)` -/
  | systemWait (pid : ℕ)
  /-- in front of `SIG_UNBLOCK` -/
  | systemWaited
  /-- back in `checksignature` -/
  | checked
  /-- in `_system2`, behind `SIG_BLOCK` -/
  | system2Blocked
  /-- reading from the verifier -/
  | system2Read (pid : ℕ)
  /-- behind `SIG_UNBLOCK`, at `waitpid(pid,..)` -/
  | system2Wait (pid : ℕ)
deriving DecidableEq, Repr

/-- The main process and its children. -/
structure State where
  live : Finset ℕ
  /-- exited, and not waited for -/
  zombies : Finset ℕ
  pending : Bool
  /-- SIGCHLD is in the signal mask -/
  blocked : Bool
  handler : Handler
  main : MainPc

namespace State

variable (s : State)

/-- `pid` is no child. -/
def Fresh (pid : ℕ) : Prop := pid ∉ s.live ∧ pid ∉ s.zombies

/-- The child `_system` waits for. -/
def awaited : Finset ℕ :=
  match s.main with
  | .systemWait pid => {pid}
  | _ => ∅

/-- The exited children nobody but the handler will wait for. -/
def owed : ℕ := (s.zombies \ s.awaited).card

/-- The calls of `waitpid` that are on their way in the handler. -/
def deliveries : ℕ := (if s.pending then 1 else 0) + (if s.handler = .entered then 1 else 0)

end State

/-- The steps: of a child, of the signal, of the handler, of the main process. -/
inductive Label where
  | exit (pid : ℕ)
  | deliver
  | handlerWait
  | handlerReturn
  | main
deriving DecidableEq, Repr

/-- One step. The main process does not run beside its handler. -/
inductive Step : State → Label → State → Prop where
  | exit {s : State} {pid : ℕ} (hpid : pid ∈ s.live) :
      Step s (.exit pid)
        { s with live := s.live.erase pid, zombies := insert pid s.zombies, pending := true }
  /-- SIGCHLD is blocked while its handler runs -/
  | deliver {s : State} (hpending : s.pending = true) (hblocked : s.blocked = false)
      (hidle : s.handler = .idle) :
      Step s .deliver { s with pending := false, handler := .entered }
  | handlerReap {s : State} {pid : ℕ} (hentered : s.handler = .entered) (hpid : pid ∈ s.zombies) :
      Step s .handlerWait { s with zombies := s.zombies.erase pid, handler := .reaped }
  /-- `waitpid` returns 0 or -1 -/
  | handlerNone {s : State} (hentered : s.handler = .entered) (hnone : s.zombies = ∅) :
      Step s .handlerWait { s with handler := .reaped }
  | handlerReturn {s : State} (hreaped : s.handler = .reaped) :
      Step s .handlerReturn { s with handler := .idle }
  /-- the child for a request, and the notifier -/
  | fork {s : State} {pid : ℕ} (hidle : s.handler = .idle) (hmain : s.main = .loop)
      (hpid : s.Fresh pid) : Step s .main { s with live := insert pid s.live }
  | systemBlock {s : State} (hidle : s.handler = .idle) (hmain : s.main = .loop) :
      Step s .main { s with blocked := true, main := .systemBlocked }
  | systemBlockFails {s : State} (hidle : s.handler = .idle) (hmain : s.main = .loop) :
      Step s .main { s with main := .checked }
  /-- SIGCHLD stays blocked -/
  | systemForkFails {s : State} (hidle : s.handler = .idle) (hmain : s.main = .systemBlocked) :
      Step s .main { s with main := .checked }
  | systemFork {s : State} {pid : ℕ} (hidle : s.handler = .idle) (hmain : s.main = .systemBlocked)
      (hpid : s.Fresh pid) :
      Step s .main { s with live := insert pid s.live, main := .systemWait pid }
  | systemReap {s : State} {pid : ℕ} (hidle : s.handler = .idle) (hmain : s.main = .systemWait pid)
      (hpid : pid ∈ s.zombies) :
      Step s .main { s with zombies := s.zombies.erase pid, main := .systemWaited }
  /-- `waitpid` is interrupted -/
  | systemNoReap {s : State} {pid : ℕ} (hidle : s.handler = .idle)
      (hmain : s.main = .systemWait pid) (hpid : pid ∉ s.zombies) :
      Step s .main { s with main := .systemWaited }
  | systemUnblock {s : State} (hidle : s.handler = .idle) (hmain : s.main = .systemWaited) :
      Step s .main { s with blocked := false, main := .checked }
  /-- the exit status was 100 -/
  | trusted {s : State} (hidle : s.handler = .idle) (hmain : s.main = .checked) :
      Step s .main { s with main := .loop }
  | system2Block {s : State} (hidle : s.handler = .idle) (hmain : s.main = .checked) :
      Step s .main { s with blocked := true, main := .system2Blocked }
  | system2BlockFails {s : State} (hidle : s.handler = .idle) (hmain : s.main = .checked) :
      Step s .main { s with main := .loop }
  /-- SIGCHLD stays blocked -/
  | socketpairFails {s : State} (hidle : s.handler = .idle) (hmain : s.main = .system2Blocked) :
      Step s .main { s with main := .loop }
  | system2ForkFails {s : State} (hidle : s.handler = .idle) (hmain : s.main = .system2Blocked) :
      Step s .main { s with blocked := false, main := .loop }
  | system2Fork {s : State} {pid : ℕ} (hidle : s.handler = .idle)
      (hmain : s.main = .system2Blocked) (hpid : s.Fresh pid) :
      Step s .main { s with live := insert pid s.live, main := .system2Read pid }
  | system2Unblock {s : State} {pid : ℕ} (hidle : s.handler = .idle)
      (hmain : s.main = .system2Read pid) :
      Step s .main { s with blocked := false, main := .system2Wait pid }
  | system2Reap {s : State} {pid : ℕ} (hidle : s.handler = .idle)
      (hmain : s.main = .system2Wait pid) (hpid : pid ∈ s.zombies) :
      Step s .main { s with zombies := s.zombies.erase pid, main := .loop }
  /-- `waitpid` is interrupted, or the handler has waited for `pid` -/
  | system2NoReap {s : State} {pid : ℕ} (hidle : s.handler = .idle)
      (hmain : s.main = .system2Wait pid) (hpid : pid ∉ s.zombies) :
      Step s .main { s with main := .loop }

/-- The server with its handler in place: whatever children it has are live. -/
def start (live : Finset ℕ) (blocked : Bool) : State := ⟨live, ∅, false, blocked, .idle, .loop⟩

/-- Where no signal can still arrive there is no exited child left. -/
def Tidy (s : State) : Prop :=
  s.pending = false → s.blocked = false → s.handler = .idle → s.zombies = ∅

/-- A child exits while SIGCHLD is pending and every delivery has its child
already; and it is not the one `_system` waits for. -/
def Merges (s : State) : Label → Prop
  | .exit pid => pid ∉ s.awaited ∧ s.pending = true ∧ s.deliveries ≤ s.owed
  | _ => False

/-- The invariant. -/
structure Inv (s : State) : Prop where
  disjoint : ∀ pid ∈ s.live, pid ∉ s.zombies
  unblocked : s.handler ≠ .idle → s.blocked = false
  blocked : s.main = .systemBlocked ∨ (∃ pid, s.main = .systemWait pid) → s.blocked = true
  waiting : ∀ pid, s.main = .system2Wait pid → s.blocked = false
  owed_le : s.owed ≤ s.deliveries

namespace Inv

variable {s : State}

theorem start (live : Finset ℕ) (blocked : Bool) : Inv (start live blocked) where
  disjoint := by simp [Reaper.start]
  unblocked := by simp [Reaper.start]
  blocked := by simp [Reaper.start]
  waiting := by simp [Reaper.start]
  owed_le := by simp [Reaper.start, State.owed]

/-- Unless SIGCHLD is blocked, nobody but the handler waits. -/
theorem owed_eq (h : Inv s) (hblocked : s.blocked = false) : s.owed = s.zombies.card := by
  have hawaited : s.awaited = ∅ := by
    unfold State.awaited
    split
    · next pid hmain =>
        rw [h.blocked (Or.inr ⟨pid, hmain⟩)] at hblocked
        cases hblocked
    · rfl
  rw [State.owed, hawaited, Finset.sdiff_empty]

theorem tidy (h : Inv s) : Tidy s := by
  intro hpending hblocked hidle
  have hle := h.owed_le
  rw [h.owed_eq hblocked, State.deliveries, hpending, hidle] at hle
  simpa using hle

/-- A new child. -/
theorem insert_live (h : Inv s) {pid : ℕ} (hpid : s.Fresh pid) :
    Inv { s with live := insert pid s.live } := by
  refine ⟨?_, h.unblocked, h.blocked, h.waiting, h.owed_le⟩
  intro p hp
  rcases Finset.mem_insert.1 hp with rfl | hp
  · exact hpid.2
  · exact h.disjoint p hp

/-- A zombie that is waited for. -/
theorem erase_zombie (h : Inv s) (pid : ℕ) : Inv { s with zombies := s.zombies.erase pid } := by
  refine ⟨?_, h.unblocked, h.blocked, h.waiting, ?_⟩
  · intro p hp hz
    exact h.disjoint p hp (Finset.mem_of_mem_erase hz)
  · refine le_trans (Finset.card_le_card ?_) h.owed_le
    exact Finset.sdiff_subset_sdiff (Finset.erase_subset pid s.zombies) (Finset.Subset.refl _)

/-- The main process goes on, and `_system` does not wait before or after. -/
theorem goto (h : Inv s) (hidle : s.handler = .idle) {blocked : Bool} {main : MainPc}
    (hfrom : ∀ pid, s.main ≠ .systemWait pid) (hto : ∀ pid, main ≠ .systemWait pid)
    (hblocked : main = .systemBlocked → blocked = true)
    (hwaiting : ∀ pid, main = .system2Wait pid → blocked = false) :
    Inv { s with blocked := blocked, main := main } := by
  refine ⟨h.disjoint, fun hrun => absurd hidle hrun, ?_, hwaiting, ?_⟩
  · rintro (hmain | ⟨pid, hmain⟩)
    · exact hblocked hmain
    · exact absurd hmain (hto pid)
  · have hbefore : s.awaited = ∅ := by
      unfold State.awaited
      split
      · next pid hmain => exact absurd hmain (hfrom pid)
      · rfl
    have hafter : State.awaited { s with blocked := blocked, main := main } = ∅ := by
      unfold State.awaited
      split
      · next pid hmain => exact absurd hmain (hto pid)
      · rfl
    have hle := h.owed_le
    rw [State.owed, hbefore] at hle
    rw [State.owed, hafter]
    exact hle

/-- `_system` starts to wait for a new child. -/
theorem wait (h : Inv s) {pid : ℕ} (hmain : s.main = .systemBlocked) (hpid : s.Fresh pid) :
    Inv { s with live := insert pid s.live, main := .systemWait pid } := by
  refine ⟨(h.insert_live hpid).disjoint, h.unblocked, fun _ => h.blocked (Or.inl hmain), by simp,
    ?_⟩
  refine le_trans (Finset.card_le_card ?_) h.owed_le
  simp [State.awaited, hmain]

/-- It stops: the child has been waited for, or is live. -/
theorem waited (h : Inv s) {pid : ℕ} (hmain : s.main = .systemWait pid)
    (hpid : pid ∉ s.zombies) : Inv { s with main := .systemWaited } := by
  refine ⟨h.disjoint, h.unblocked, by simp, by simp, ?_⟩
  have hle := h.owed_le
  simp only [State.owed, State.awaited, hmain, Finset.sdiff_singleton_eq_erase,
    Finset.erase_eq_of_notMem hpid] at hle
  have hzombies : State.owed { s with main := .systemWaited } = s.zombies.card := by
    simp [State.owed, State.awaited]
  rw [hzombies]
  exact hle

end Inv

/-- What an exit does to the balance. -/
theorem owed_exit {s : State} {pid : ℕ} (hguard : ¬ Merges s (.exit pid)) (hinv : Inv s)
    {s' : State} (hs' : s' = { s with
      live := s.live.erase pid, zombies := insert pid s.zombies, pending := true }) :
    s'.owed ≤ s'.deliveries := by
  have hle := hinv.owed_le
  have hawaited : s'.awaited = s.awaited := by
    rw [hs']
    rfl
  by_cases hmem : pid ∈ s.awaited
  · -- `_system` waits for it
    have hsame : s'.owed = s.owed := by
      rw [State.owed, hawaited, hs', State.owed, Finset.insert_sdiff_of_mem _ hmem]
    have hmore : s.deliveries ≤ s'.deliveries := by
      rw [hs']
      simp only [State.deliveries, if_true]
      split_ifs <;> omega
    omega
  · have hone : s'.owed ≤ s.owed + 1 := by
      rw [State.owed, hawaited, hs', Finset.insert_sdiff_of_notMem _ hmem]
      exact Finset.card_insert_le _ _
    cases hpending : s.pending with
    | false =>
        -- a delivery of its own
        have hmore : s'.deliveries = s.deliveries + 1 := by
          rw [hs']
          simp [State.deliveries, hpending, Nat.add_comm]
        omega
    | true =>
        have hroom : s.owed < s.deliveries := by
          by_contra hfull
          exact hguard ⟨hmem, hpending, by omega⟩
        have hsame : s'.deliveries = s.deliveries := by
          rw [hs']
          simp [State.deliveries, hpending]
        omega

theorem inv_step {s s' : State} {l : Label} (h : Step s l s') (hguard : ¬ Merges s l)
    (hinv : Inv s) : Inv s' := by
  have hle := hinv.owed_le
  cases h with
  | @exit pid hpid =>
      refine ⟨?_, hinv.unblocked, hinv.blocked, hinv.waiting, owed_exit hguard hinv rfl⟩
      intro p hp hz
      rcases Finset.mem_erase.1 hp with ⟨hne, hlive⟩
      rcases Finset.mem_insert.1 hz with heq | hz
      · exact hne heq
      · exact hinv.disjoint p hlive hz
  | deliver hpending hblocked hidle =>
      -- the delivery moves from the pending bit to the handler
      refine ⟨hinv.disjoint, fun _ => hblocked, hinv.blocked, hinv.waiting, ?_⟩
      change s.owed ≤ _
      simpa [State.deliveries, hpending, hidle] using hle
  | @handlerReap pid hentered hpid =>
      have hblocked := hinv.unblocked (by simp [hentered])
      refine ⟨(hinv.erase_zombie pid).disjoint, fun _ => hblocked, hinv.blocked, hinv.waiting, ?_⟩
      -- one delivery and one zombie less
      have hone := Finset.card_erase_add_one hpid
      have hzombies := (hinv.erase_zombie pid).owed_eq hblocked
      rw [hinv.owed_eq hblocked] at hle
      simp only [State.deliveries, hentered, if_true] at hle
      calc State.owed { s with zombies := s.zombies.erase pid, handler := .reaped }
          = (s.zombies.erase pid).card := hzombies
        _ ≤ if s.pending then 1 else 0 := by omega
  | handlerNone hentered hnone =>
      have hblocked := hinv.unblocked (by simp [hentered])
      refine ⟨hinv.disjoint, fun _ => hblocked, hinv.blocked, hinv.waiting, ?_⟩
      simp [State.owed, hnone]
  | handlerReturn hreaped =>
      refine ⟨hinv.disjoint, fun hrun => absurd rfl hrun, hinv.blocked, hinv.waiting, ?_⟩
      change s.owed ≤ _
      simpa [State.deliveries, hreaped] using hle
  | fork hidle hmain hpid => exact hinv.insert_live hpid
  | systemFork hidle hmain hpid => exact hinv.wait hmain hpid
  | @systemReap pid hidle hmain hpid =>
      exact (hinv.erase_zombie pid).waited hmain (Finset.notMem_erase pid s.zombies)
  | systemNoReap hidle hmain hpid => exact hinv.waited hmain hpid
  | @system2Fork pid hidle hmain hpid =>
      have hread : Inv { s with main := .system2Read pid } :=
        hinv.goto hidle (by simp [hmain]) (by simp) (by simp) (by simp)
      exact hread.insert_live hpid
  | @system2Reap pid hidle hmain hpid =>
      exact (hinv.erase_zombie pid).goto hidle (by simp [hmain]) (by simp) (by simp) (by simp)
  | systemBlock hidle hmain
  | systemBlockFails hidle hmain
  | systemForkFails hidle hmain
  | systemUnblock hidle hmain
  | trusted hidle hmain
  | system2Block hidle hmain
  | system2BlockFails hidle hmain
  | socketpairFails hidle hmain
  | system2ForkFails hidle hmain
  | system2Unblock hidle hmain
  | system2NoReap hidle hmain hpid =>
      -- only the place in the code changes
      exact hinv.goto hidle (by simp [hmain]) (by simp) (by simp) (by simp)

/-- In a run without a merged exit no zombie is left in any state in which
SIGCHLD is neither pending nor blocked and its handler does not run. -/
theorem no_zombies {live : Finset ℕ} {blocked : Bool} {s : State} {tr : List (State × Label)}
    (run : Run Step (start live blocked) tr s) (hguard : ∀ p ∈ tr, ¬ Merges p.1 p.2) :
    Tidy s ∧ ∀ p ∈ tr, Tidy p.1 := by
  rcases run.invariant (fun s l => ¬ Merges s l) Inv (fun _ _ _ => inv_step) hguard
    (.start live blocked) with ⟨hend, hall⟩
  exact ⟨hend.tidy, fun p hp => (hall p hp).tidy⟩

/-- Two requests end, the second while the handler of the first runs: both children
are waited for. -/
theorem two_exits_tidy :
    ∃ tr s, Run Step (start ∅ false) tr s ∧ tr.length = 10 ∧ Tidy s ∧ s.zombies = ∅ := by
  have run : Run Step (start ∅ false) _ _ :=
    .cons (.fork rfl rfl (show State.Fresh _ 101 by simp [State.Fresh, start])) <|
    .cons (.fork rfl rfl (show State.Fresh _ 102 by simp [State.Fresh, start])) <|
    .cons (.exit (show 101 ∈ _ by simp [start])) <|
    .cons (.deliver rfl rfl rfl) <|
    .cons (.exit (show 102 ∈ _ by simp [start])) <|
    .cons (.handlerReap rfl (show 101 ∈ _ by simp [start])) <|
    .cons (.handlerReturn rfl) <|
    .cons (.deliver rfl rfl rfl) <|
    .cons (.handlerReap rfl (show 102 ∈ _ by simp [start])) <|
    .cons (.handlerReturn rfl) <|
    .nil _
  have htidy := (no_zombies run (by simp [Merges, start])).1
  exact ⟨_, _, run, rfl, htidy, htidy rfl rfl rfl⟩

/-! ## A merged exit leaves a zombie -/

/-- From here, without another merged exit, a zombie can be left behind. -/
def Leaks (s : State) : Prop :=
  ∃ tr t, Run Step s tr t ∧ (∀ p ∈ tr, ¬ Merges p.1 p.2) ∧ ¬ Tidy t

theorem Leaks.of_step {s s' : State} {l : Label} (h : Step s l s') (hguard : ¬ Merges s l)
    (hleaks : Leaks s') : Leaks s := by
  rcases hleaks with ⟨tr, t, run, hall, hend⟩
  refine ⟨(s, l) :: tr, t, .cons h run, ?_, hend⟩
  intro p hp
  rcases List.mem_cons.1 hp with rfl | hp
  · exact hguard
  · exact hall p hp

theorem Leaks.of_main {s s' : State} (h : Step s .main s') (hleaks : Leaks s') : Leaks s :=
  hleaks.of_step h id

/-- One delivery for two zombies. -/
theorem leaks_unblocked {s : State} (hpending : s.pending = true) (hblocked : s.blocked = false)
    (hidle : s.handler = .idle) (htwo : 2 ≤ s.zombies.card) : Leaks s := by
  obtain ⟨pid, hpid⟩ : s.zombies.Nonempty := Finset.card_pos.1 (by omega)
  have hcard := Finset.card_erase_add_one hpid
  refine .of_step (.deliver hpending hblocked hidle) id
    (.of_step (.handlerReap rfl hpid) id (.of_step (.handlerReturn rfl) id ?_))
  refine ⟨[], _, .nil _, by simp, ?_⟩
  intro htidy
  have hnone : s.zombies.erase pid = ∅ := htidy rfl hblocked rfl
  rw [hnone] at hcard
  simp at hcard
  omega

/-- SIGCHLD does not stay blocked: the next signature check unblocks it, if the
`fork` of `_system2` fails. -/
theorem leaks_checked {s : State} (hpending : s.pending = true) (hidle : s.handler = .idle)
    (hmain : s.main = .checked) (htwo : 2 ≤ s.zombies.card) : Leaks s :=
  .of_main (.system2Block hidle hmain)
    (.of_main (.system2ForkFails hidle rfl) (leaks_unblocked hpending rfl hidle htwo))

theorem leaks_idle {s : State} (hpending : s.pending = true) (hidle : s.handler = .idle)
    (hwaiting : ∀ pid, s.main = .system2Wait pid → s.blocked = false)
    (htwo : 2 ≤ s.owed) : Leaks s := by
  have hle : s.owed ≤ s.zombies.card := Finset.card_le_card Finset.sdiff_subset
  have hzombies : 2 ≤ s.zombies.card := by omega
  cases hmain : s.main with
  | loop =>
      exact .of_main (.systemBlock hidle hmain)
        (.of_main (.systemForkFails hidle rfl) (leaks_checked hpending hidle rfl hzombies))
  | systemBlocked =>
      exact .of_main (.systemForkFails hidle hmain) (leaks_checked hpending hidle rfl hzombies)
  | systemWait pid =>
      have howed : s.owed = (s.zombies.erase pid).card := by
        simp [State.owed, State.awaited, hmain, Finset.sdiff_singleton_eq_erase]
      by_cases hpid : pid ∈ s.zombies
      · have hrest : 2 ≤ (s.zombies.erase pid).card := by omega
        exact .of_main (.systemReap hidle hmain hpid)
          (.of_main (.systemUnblock hidle rfl) (leaks_unblocked hpending rfl hidle hrest))
      · by_cases hlive : pid ∈ s.live
        · -- its own exit is no merged one
          have hguard : ¬ Merges s (.exit pid) := by
            simp [Merges, State.awaited, hmain]
          have hrest : 2 ≤ ((insert pid s.zombies).erase pid).card := by
            rw [Finset.erase_insert hpid]
            exact hzombies
          exact .of_step (.exit hlive) hguard
            (.of_main (.systemReap hidle hmain (Finset.mem_insert_self pid s.zombies))
              (.of_main (.systemUnblock hidle rfl) (leaks_unblocked rfl rfl hidle hrest)))
        · exact .of_main (.systemNoReap hidle hmain hpid)
            (.of_main (.systemUnblock hidle rfl) (leaks_unblocked hpending rfl hidle hzombies))
  | systemWaited =>
      exact .of_main (.systemUnblock hidle hmain) (leaks_unblocked hpending rfl hidle hzombies)
  | checked => exact leaks_checked hpending hidle hmain hzombies
  | system2Blocked =>
      exact .of_main (.system2ForkFails hidle hmain) (leaks_unblocked hpending rfl hidle hzombies)
  | system2Read pid =>
      exact .of_main (.system2Unblock hidle hmain) (leaks_unblocked hpending rfl hidle hzombies)
  | system2Wait pid => exact leaks_unblocked hpending (hwaiting pid hmain) hidle hzombies

/-- More zombies than deliveries: what the handler is about to take is not enough. -/
theorem leaks_surplus {s : State} (hunblocked : s.handler ≠ .idle → s.blocked = false)
    (hwaiting : ∀ pid, s.main = .system2Wait pid → s.blocked = false)
    (hpending : s.pending = true) (hless : s.deliveries < s.owed) : Leaks s := by
  cases hhandler : s.handler with
  | idle =>
      have htwo : 2 ≤ s.owed := by
        simp [State.deliveries, hpending, hhandler] at hless
        omega
      exact leaks_idle hpending hhandler hwaiting htwo
  | reaped =>
      have htwo : 2 ≤ s.owed := by
        simp [State.deliveries, hpending, hhandler] at hless
        omega
      exact .of_step (.handlerReturn hhandler) id (leaks_idle hpending rfl hwaiting htwo)
  | entered =>
      have hthree : 3 ≤ s.owed := by
        simp [State.deliveries, hpending, hhandler] at hless
        omega
      have hle : s.owed ≤ s.zombies.card := Finset.card_le_card Finset.sdiff_subset
      obtain ⟨pid, hpid⟩ : s.zombies.Nonempty := Finset.card_pos.1 (by omega)
      have hcard := Finset.card_erase_add_one hpid
      have hrest : 2 ≤ (s.zombies.erase pid).card := by omega
      have hblocked := hunblocked (by simp [hhandler])
      exact .of_step (.handlerReap hhandler hpid) id
        (.of_step (.handlerReturn rfl) id (leaks_unblocked hpending hblocked rfl hrest))

/-- An exit is a merged one exactly if it is to blame for a zombie: one can stay
behind although no later exit is merged. -/
theorem merges_iff_leaks {s s' : State} {pid : ℕ} (hinv : Inv s) (h : Step s (.exit pid) s') :
    Merges s (.exit pid) ↔ Leaks s' := by
  constructor
  · intro hmerges
    cases h with
    | exit hpid =>
        rcases hmerges with ⟨hawaited, hpending, hfull⟩
        have hnew : pid ∉ s.zombies \ s.awaited := by
          simp [hinv.disjoint pid hpid]
        have howed : State.owed { s with
            live := s.live.erase pid, zombies := insert pid s.zombies, pending := true } =
            s.owed + 1 := by
          change ((insert pid s.zombies) \ s.awaited).card = _
          rw [Finset.insert_sdiff_of_notMem _ hawaited, Finset.card_insert_of_notMem hnew]
          rfl
        have hsame : State.deliveries { s with
            live := s.live.erase pid, zombies := insert pid s.zombies, pending := true } =
            s.deliveries := by
          simp [State.deliveries, hpending]
        refine leaks_surplus hinv.unblocked hinv.waiting rfl ?_
        rw [howed, hsame]
        omega
  · rintro ⟨tr, t, run, hguard, huntidy⟩
    by_contra hmerges
    have hinv' := inv_step h hmerges hinv
    exact huntidy (run.invariant (fun s l => ¬ Merges s l) Inv (fun _ _ _ => inv_step) hguard
      hinv').1.tidy

/-- Two requests end while SIGCHLD is pending, and one of them stays a zombie. -/
theorem two_exits_untidy :
    ∃ tr s, Run Step (start ∅ false) tr s ∧ ¬ Tidy s := by
  refine ⟨_, _,
    .cons (.fork rfl rfl (show State.Fresh _ 101 by simp [State.Fresh, start])) <|
    .cons (.fork rfl rfl (show State.Fresh _ 102 by simp [State.Fresh, start])) <|
    .cons (.exit (show 101 ∈ _ by simp [start])) <|
    .cons (.exit (show 102 ∈ _ by simp [start])) <|
    .cons (.deliver rfl rfl rfl) <|
    .cons (.handlerReap rfl (show 101 ∈ _ by simp [start])) <|
    .cons (.handlerReturn rfl) <|
    .nil _, ?_⟩
  intro htidy
  have hnone := htidy rfl rfl rfl
  revert hnone
  decide

end Su.Reaper
