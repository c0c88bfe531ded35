import TestActivity.Lib.Transition
import TestActivity.CrossProcess.Binders

/-!
# After the server has died

`binderDied` of a wrapper drops its binder; that of the manager only logs, and
`mServerManagerImpl` is never assigned again. So the client recovers from a death
only if it had not obtained a manager yet. And it is answered only by a process
that knows it is the server process.

* `recovers_iff`: in every run, `getService` of an installed service returns an
  interface that reaches a live incarnation exactly if no step of the run was a
  death of a server that the client had a manager binder of (`LosesManager`), and
  the server is running and has found out what it is (`Shared.Serving`).
* `World.Inv.exists_end`: a call can always be brought to its end, whoever has
  the lock.
-/

namespace CrossProcess

open Transition

/-! ## What it means to recover -/

/-- Nobody dies any more, the provider answers, and thread `t` begins no other call. -/
def Quiet (t : ℕ) : Label → Prop
  | .begin t' _ => t' ≠ t
  | .thread _ queryOk => queryOk = true
  | .die => False
  | .restart => True
  | .onCreate _ => True
  | .binderDied _ => True

/-- Whatever the others do, the call of thread `t` can be brought to its end, and
when it ends, `Q` holds. -/
def Completes (t : ℕ) (Q : World → Prop) (w : World) : Prop :=
  ∀ tr v, Run Step w tr v → (∀ p ∈ tr, Quiet t p.2) →
    ((v.threads t).ended = true → Q v) ∧
    ∃ tr' u, Run Step v tr' u ∧ (∀ p ∈ tr', Quiet t p.2) ∧ (u.threads t).ended = true

/-- A `transact` of the wrapper `i` reaches a live incarnation. -/
def Reaches (i t : ℕ) (w : World) : Prop :=
  Completes t (fun u => ∃ k, u.threads t = .reached i k ∧ u.shared.isAlive k = true)
    (w.begin t (.transact i))

/-- `getService(id)`, called by thread `t`, returns an interface by which every
thread reaches a live incarnation. -/
def Recovers (t : ℕ) (id : ℤ) (w : World) : Prop :=
  Completes t
    (fun v => ∃ i, v.threads t = .returned id (some i) ∧
      ∀ t', (v.threads t').ended = true → Reaches i t' v)
    (w.begin t (.getService id))

/-- The client has a manager binder of incarnation `k`, or is about to store it. -/
def World.Holds (w : World) (k : ℕ) : Prop :=
  w.shared.serverManagerImpl = some k ∨ ∃ t g, w.threads t = .queried g k

/-- The server dies while the client has a manager binder. -/
def LosesManager (w : World) (l : Label) : Prop := l = .die ∧ ∃ k, w.Holds k

/-- Every `binderDied` of a dead incarnation has been delivered. -/
def World.Delivered (w : World) : Prop := ∀ p ∈ w.shared.links, w.shared.isAlive p.2 = true

/-! ## Every call comes to an end -/

/-- How many steps are left behind the answer of the manager. -/
def Goal.rank : Goal → ℕ
  | .getService _ => 9
  | .queryLocalInterface _ _ => 0
  | .transact _ => 1

/-- A bound on the steps that a thread has left. -/
def Pc.rank : Pc → ℕ
  | .getService _ => 16
  | .getServerManagerService g => g.rank + 6
  | .queryService g => g.rank + 5
  | .querying g => g.rank + 4
  | .queried g _ => g.rank + 3
  | .linking g _ => g.rank + 2
  | .calling g _ => g.rank + 1
  | .wrapping _ _ => 9
  | .caching _ _ => 8
  | .getInterface _ _ => 7
  | .transact _ => 8
  | .transacting _ _ => 1
  | _ => 0

theorem Goal.rank_failed (g : Goal) : g.failed.rank = 0 := by
  cases g <;> rfl

theorem Goal.rank_obtained (g : Goal) (k : ℕ) : (g.obtained k).rank = g.rank := by
  cases g <;> rfl

theorem Effect.rank_lt {s s' : Shared} {t : ℕ} {queryOk : Bool} {p p' : Pc}
    (h : Effect s t queryOk p s' p') : p'.rank < p.rank := by
  cases h with
  | @fails g =>
      rw [g.rank_failed]
      exact Nat.succ_pos _
  | @obtains g k k' =>
      rw [g.rank_obtained]
      exact Nat.lt_succ_self _
  | @obtainsNothing g =>
      rw [g.rank_failed]
      exact Nat.succ_pos _
  | _ => simp [Pc.rank, Goal.rank]

/-- A thread in a call can make a step unless another one has the lock. -/
theorem exists_step {s : Shared} (t : ℕ) {p : Pc} (hended : p.ended = false)
    (hlock : s.lock = none ∨ p.critical = true) :
    ∃ s' p', step s t true p = some (s', p') := by
  cases p with
  | getService id => cases hc : s.cache id <;> simp [step, hc]
  | getServerManagerService g => cases hm : s.serverManagerImpl <;> simp [step, hm]
  | queryService g =>
      have hfree : s.lock = none := by simpa [Pc.critical] using hlock
      cases hm : s.serverManagerImpl <;> simp [step, hfree, hm]
  | querying g => exact ⟨_, _, rfl⟩
  | queried g k => exact ⟨_, _, rfl⟩
  | linking g k => exact ⟨_, _, rfl⟩
  | calling g k => cases ha : s.managerGetService k (g.serviceId s) <;> simp [step, ha]
  | wrapping id k => exact ⟨_, _, rfl⟩
  | caching id i => exact ⟨_, _, rfl⟩
  | getInterface id i =>
      cases hid : allServices id <;> cases hb : (s.wrappers i).remoteBinderImpl <;>
        simp [step, hid, hb]
  | transact i => cases hb : (s.wrappers i).remoteBinderImpl <;> simp [step, hb]
  | transacting i k => exact ⟨_, _, rfl⟩
  | _ => simp [Pc.ended] at hended

/-- The thread has the lock, or can have it. -/
def World.Unhindered (t : ℕ) (w : World) : Prop :=
  w.shared.lock = none ∨ (w.threads t).critical = true

theorem unhindered_thread {t : ℕ} {w : World} {queryOk : Bool} {s : Shared} {p : Pc}
    (h : Effect w.shared t queryOk (w.threads t) s p) (hw : w.Unhindered t) :
    (w.set t s p).Unhindered t := by
  unfold World.Unhindered at hw ⊢
  rw [World.set_self]
  cases h.locking with
  | outside hp _ hs => exact Or.inl (hs.trans (by simpa [hp] using hw))
  | takes hp' => exact Or.inr hp'
  | keeps _ hp' => exact Or.inr hp'
  | releases _ _ hfree => exact Or.inl hfree

/-- Such a thread can end its call alone. -/
theorem exists_end_alone {t : ℕ} {w : World} (hw : w.Unhindered t) :
    ∃ tr u, Run Step w tr u ∧ (∀ p ∈ tr, p.2 = .thread t true) ∧ u.Unhindered t ∧
      (u.threads t).ended = true := by
  refine Run.exists_of_rank (fun v => (v.threads t).rank) (World.Unhindered t)
    (fun v => (v.threads t).ended = true) (fun _ (l : Label) => l = .thread t true) ?_ hw
  intro v hv hended
  rcases exists_step t (by simpa using hended) hv with ⟨s, p, hstep⟩
  have heff := step_effect hstep
  refine ⟨_, _, .thread hstep, rfl, unhindered_thread heff hv, ?_⟩
  rw [World.set_self]
  exact heff.rank_lt

/-- A step of a thread, and of nobody else. -/
def OfThread (l : Label) : Prop := ∃ t, l = .thread t true

theorem OfThread.quiet {l : Label} (h : OfThread l) (t : ℕ) : Quiet t l := by
  rcases h with ⟨t', rfl⟩
  rfl

/-- Every call can be brought to its end: the thread that has the lock first. -/
theorem World.Inv.exists_end {w : World} (hinv : w.Inv) (t : ℕ) :
    ∃ tr u, Run Step w tr u ∧ (∀ p ∈ tr, OfThread p.2) ∧ (u.threads t).ended = true := by
  cases hlock : w.shared.lock with
  | none =>
      rcases exists_end_alone (t := t) (Or.inl hlock) with ⟨tr, u, hrun, hlabels, -, hend⟩
      exact ⟨tr, u, hrun, fun p hp => ⟨t, hlabels p hp⟩, hend⟩
  | some holder =>
      have hholder := (hinv.lock holder).2 hlock
      rcases exists_end_alone (t := holder) (Or.inr hholder) with ⟨tr, v, hrun, hlabels, hv, hend⟩
      have hfree : v.shared.lock = none := by
        simpa [World.Unhindered, Pc.critical_of_ended hend] using hv
      rcases exists_end_alone (t := t) (Or.inl hfree) with ⟨tr', u, hrun', hlabels', -, hend'⟩
      refine ⟨tr ++ tr', u, hrun.append hrun', ?_, hend'⟩
      intro p hp
      rcases List.mem_append.1 hp with hp | hp
      · exact ⟨holder, hlabels p hp⟩
      · exact ⟨t, hlabels' p hp⟩

/-! ## The manager's incarnation -/

/-- Incarnation `k` of the server is over. -/
def Shared.Dead (s : Shared) (k : ℕ) : Prop :=
  k < s.incarnation ∨ k = s.incarnation ∧ s.alive = false

/-- Every manager binder can be called. -/
def World.Good (w : World) : Prop := ∀ k, w.Holds k → w.shared.isAlive k = true

/-- There is a manager binder of a dead incarnation. -/
def World.Stranded (w : World) : Prop := ∃ k, w.Holds k ∧ w.shared.Dead k

/-- The server is running and has found out that it is the server process. -/
structure Shared.Serving (s : Shared) : Prop where
  alive : s.alive = true
  inServer : s.runInServerProcess = true

/-- Nobody gives out services to the client: it has the manager of a dead
incarnation, or the server does not know what it is. -/
def World.Lost (w : World) : Prop := w.Stranded ∨ ¬ w.shared.Serving

theorem Shared.Dead.isAlive {s : Shared} {k : ℕ} (h : s.Dead k) : s.isAlive k = false := by
  rcases h with hlt | ⟨rfl, halive⟩
  · simp [Shared.isAlive, Nat.ne_of_lt hlt]
  · simp [Shared.isAlive, halive]

theorem Shared.Dead.started {s : Shared} {k : ℕ} (h : s.Dead k) : s.started.Dead k := by
  rcases h with hlt | ⟨rfl, halive⟩
  · exact Or.inl (Nat.lt_of_lt_of_le hlt s.incarnation_le_started)
  · exact Or.inl (by simp [Shared.started, halive])

theorem Shared.isAlive_started {s : Shared} {k : ℕ} (h : s.isAlive k = true) :
    s.started.isAlive k = true := by
  simp only [Shared.isAlive, Bool.and_eq_true, beq_iff_eq] at h
  simp [Shared.isAlive, Shared.started, h.1, h.2]

theorem Shared.isAlive_started_self (s : Shared) :
    s.started.isAlive s.started.incarnation = true := by
  simp [Shared.isAlive, Shared.started]

/-- An incarnation that is started does not know what it is. -/
theorem Shared.serving_started_iff (s : Shared) : s.started.Serving ↔ s.Serving := by
  constructor
  · rintro ⟨-, hserver⟩
    cases halive : s.alive with
    | true => exact ⟨halive, by simpa [runInServerProcess, started, halive] using hserver⟩
    | false => simp [runInServerProcess, started, halive] at hserver
  · rintro ⟨halive, hserver⟩
    exact ⟨rfl, by simpa [runInServerProcess, started, halive] using hserver⟩

theorem Goal.failed_ne_queried (g g' : Goal) (k : ℕ) : g.failed ≠ .queried g' k := by
  cases g <;> simp [Goal.failed]

theorem Goal.obtained_ne_queried (g g' : Goal) (k k' : ℕ) : g.obtained k' ≠ .queried g' k := by
  cases g <;> simp [Goal.obtained]

section Thread

variable {s s' : Shared} {t : ℕ} {queryOk : Bool} {p p' : Pc}

/-- A thread leaves the server alone or starts it. -/
theorem Effect.server (h : Effect s t queryOk p s' p') :
    s'.isAlive = s.isAlive ∧ s'.Dead = s.Dead ∨
      s'.isAlive = s.started.isAlive ∧ s'.Dead = s.started.Dead := by
  cases h with
  | queries => exact Or.inr ⟨rfl, rfl⟩
  | _ => exact Or.inl ⟨rfl, rfl⟩

theorem Effect.isAlive (h : Effect s t queryOk p s' p') {k : ℕ} (hk : s.isAlive k = true) :
    s'.isAlive k = true := by
  rcases h.server with ⟨hs, -⟩ | ⟨hs, -⟩
  · rw [hs, hk]
  · rw [hs, Shared.isAlive_started hk]

theorem Effect.dead (h : Effect s t queryOk p s' p') {k : ℕ} (hk : s.Dead k) : s'.Dead k := by
  rcases h.server with ⟨-, hs⟩ | ⟨-, hs⟩
  · rw [hs]
    exact hk
  · rw [hs]
    exact hk.started

theorem Effect.serving_iff (h : Effect s t queryOk p s' p') : s'.Serving ↔ s.Serving := by
  cases h with
  | queries => exact s.serving_started_iff
  | _ => exact ⟨fun h => ⟨h.alive, h.inServer⟩, fun h => ⟨h.alive, h.inServer⟩⟩

/-- The manager is stored by the thread that has obtained it. -/
theorem Effect.manager (h : Effect s t queryOk p s' p') {k : ℕ}
    (hk : s'.serverManagerImpl = some k) :
    s.serverManagerImpl = some k ∨ ∃ g, p = .queried g k := by
  cases h with
  | @stores g j =>
      cases hk
      exact Or.inr ⟨g, rfl⟩
  | _ => exact Or.inl hk

/-- What a thread obtains is of the incarnation that is running. -/
theorem Effect.queried (h : Effect s t queryOk p s' p') {g : Goal} {k : ℕ}
    (hp' : p' = .queried g k) : s'.isAlive k = true := by
  cases h with
  | queries =>
      cases hp'
      exact s.isAlive_started_self
  | @fails g' => exact absurd hp' (g'.failed_ne_queried g k)
  | @obtainsNothing g' => exact absurd hp' (g'.failed_ne_queried g k)
  | @obtains g' j j' => exact absurd hp' (g'.obtained_ne_queried g k j')
  | _ => cases hp'

end Thread

theorem good_thread {w : World} (hgood : w.Good) {t : ℕ} {queryOk : Bool} {s : Shared} {p : Pc}
    (h : Effect w.shared t queryOk (w.threads t) s p) : (w.set t s p).Good := by
  rintro k (hmanager | ⟨t', g, hg⟩)
  · rcases h.manager hmanager with hold | ⟨g, hg⟩
    · exact h.isAlive (hgood k (Or.inl hold))
    · exact h.isAlive (hgood k (Or.inr ⟨t, g, hg⟩))
  · by_cases ht : t' = t
    · rw [ht, World.set_self] at hg
      exact h.queried hg
    · rw [World.set_of_ne w ht] at hg
      exact h.isAlive (hgood k (Or.inr ⟨t', g, hg⟩))

theorem Call.begin_ne_queried (c : Call) (g : Goal) (k : ℕ) : c.begin ≠ .queried g k := by
  cases c <;> simp [Call.begin]

theorem World.holds_begin {w : World} {t : ℕ} {c : Call} {k : ℕ} (h : (w.begin t c).Holds k) :
    w.Holds k := by
  rcases h with hmanager | ⟨t', g, hg⟩
  · exact Or.inl hmanager
  · by_cases ht : t' = t
    · rw [ht, World.begin_self] at hg
      exact absurd hg (c.begin_ne_queried g k)
    · rw [World.begin_of_ne w ht] at hg
      exact Or.inr ⟨t', g, hg⟩

/-- As long as no server with a known manager dies, every manager binder can be called. -/
theorem good_step {w w' : World} {l : Label} (h : Step w l w') (hguard : ¬ LosesManager w l)
    (hgood : w.Good) : w'.Good := by
  cases h with
  | begin => exact fun k hk => hgood k (World.holds_begin hk)
  | thread hstep => exact good_thread hgood (step_effect hstep)
  | die => exact fun k hk => absurd ⟨rfl, k, hk⟩ hguard
  | restart => exact fun k hk => Shared.isAlive_started (hgood k hk)
  | onCreate => exact hgood
  | binderDied => exact hgood

theorem stranded_step {w w' : World} {l : Label} (h : Step w l w') (hinv : w.Inv)
    (hstranded : w.Stranded) : w'.Stranded := by
  rcases hstranded with ⟨k, hk, hdead⟩
  refine ⟨k, ?_, ?_⟩
  · cases h with
    | @begin t c hended =>
        rcases hk with hmanager | ⟨t', g, hg⟩
        · exact Or.inl hmanager
        · -- the thread that has the binder is in a call, so that another one begins
          have ht : t' ≠ t := by
            rintro rfl
            simp [hg, Pc.ended] at hended
          exact Or.inr ⟨t', g, (World.begin_of_ne w ht _).trans hg⟩
    | @thread t queryOk s p hstep =>
        have heff := step_effect hstep
        rcases hk with hmanager | ⟨t', g, hg⟩
        · exact Or.inl ((heff.extends (hinv.threads t)).manager k hmanager)
        · by_cases ht : t' = t
          · -- it stores the binder, and the manager is known
            rw [← ht, hg] at heff
            cases heff
            exact Or.inl rfl
          · exact Or.inr ⟨t', g, (World.set_of_ne w ht _ _).trans hg⟩
    | die => exact hk
    | restart => exact hk
    | onCreate => exact hk
    | binderDied => exact hk
  · cases h with
    | begin => exact hdead
    | thread hstep => exact (step_effect hstep).dead hdead
    | die =>
        rcases hdead with hlt | ⟨heq, -⟩
        · exact Or.inl hlt
        · exact Or.inr ⟨heq, rfl⟩
    | restart => exact hdead.started
    | onCreate => exact hdead
    | binderDied => exact hdead

/-- The death of a server with a known manager strands the client. -/
theorem LosesManager.stranded {w w' : World} {l : Label} (hloses : LosesManager w l)
    (h : Step w l w') (hinv : w.Inv) : w'.Stranded := by
  rcases hloses with ⟨rfl, k, hk⟩
  cases h with
  | die =>
      refine ⟨k, hk, ?_⟩
      have hle : k ≤ w.shared.incarnation := by
        rcases hk with hmanager | ⟨t, g, hg⟩
        · exact hinv.shared.manager k hmanager
        · have hp := hinv.threads t
          rw [hg] at hp
          exact hp.2.2
      rcases Nat.lt_or_eq_of_le hle with hlt | heq
      · exact Or.inl hlt
      · exact Or.inr ⟨heq, rfl⟩

/-! ## A lost client reaches nobody -/

/-- The threads of the client alone do not change that. -/
theorem lost_step {w w' : World} {l : Label} (h : Step w l w') (hthread : OfThread l)
    (hinv : w.Inv) (hlost : w.Lost) : w'.Lost := by
  rcases hlost with hstranded | hserving
  · exact Or.inl (stranded_step h hinv hstranded)
  · right
    rcases hthread with ⟨t, rfl⟩
    cases h with
    | thread hstep => exact fun h => hserving ((step_effect hstep).serving_iff.1 h)

theorem lost_begin {w w' : World} {t : ℕ} {c : Call} (h : Step w (.begin t c) w') (hinv : w.Inv)
    (hlost : w.Lost) : w'.Lost := by
  rcases hlost with hstranded | hserving
  · exact Or.inl (stranded_step h hinv hstranded)
  · cases h with
    | begin => exact Or.inr hserving

theorem World.Stranded.not_isAlive {w : World} (h : w.Stranded) (hinv : w.Inv) {k : ℕ}
    (hmanager : w.shared.serverManagerImpl = some k) : w.shared.isAlive k = false := by
  rcases h with ⟨j, hstored | ⟨t, g, hg⟩, hdead⟩
  · rw [hmanager] at hstored
    rw [Option.some.inj hstored]
    exact hdead.isAlive
  · have hp := hinv.threads t
    rw [hg] at hp
    have hnone : w.shared.serverManagerImpl = none := hp.2.1
    rw [hnone] at hmanager
    cases hmanager

/-- A binder of a service is of no use to it. -/
theorem World.Lost.not_isAlive {w : World} (h : w.Lost) (hinv : w.Inv) {k : ℕ}
    (hmanager : w.shared.serverManagerImpl = some k) (hserves : w.shared.Serves k) :
    w.shared.isAlive k = false := by
  rcases h with hstranded | hserving
  · exact hstranded.not_isAlive hinv hmanager
  · by_contra halive
    rw [Bool.not_eq_false] at halive
    refine hserving ⟨?_, hserves.inServer halive⟩
    simp only [Shared.isAlive, Bool.and_eq_true] at halive
    exact halive.1

/-- The `transact` of thread `t` was not carried out. -/
def World.Unreached (w : World) (t : ℕ) : Prop := ∀ i k, w.threads t ≠ .reached i k

theorem Effect.reached {s s' : Shared} {t : ℕ} {queryOk : Bool} {p p' : Pc}
    (h : Effect s t queryOk p s' p') {i k : ℕ} (hp' : p' = .reached i k) :
    p = .transacting i k ∧ s.isAlive k = true := by
  cases h with
  | reaches halive =>
      cases hp'
      exact ⟨rfl, halive⟩
  | @fails g => cases g <;> cases hp'
  | @obtains g => cases g <;> cases hp'
  | @obtainsNothing g => cases g <;> cases hp'
  | _ => cases hp'

theorem unreached_step {w w' : World} {l : Label} {t : ℕ} (h : Step w l w') (hinv : w.Inv)
    (hlost : w.Lost) (hun : w.Unreached t) : w'.Unreached t := by
  cases h with
  | @begin t' c =>
      intro i k
      by_cases ht : t = t'
      · rw [ht, World.begin_self]
        cases c <;> simp [Call.begin]
      · rw [World.begin_of_ne w ht]
        exact hun i k
  | @thread t' queryOk s p hstep =>
      intro i k hreached
      by_cases ht : t = t'
      · rw [ht, World.set_self] at hreached
        rcases (step_effect hstep).reached hreached with ⟨htransacting, halive⟩
        have hp := hinv.threads t'
        rw [htransacting] at hp
        rw [hlost.not_isAlive hinv hp.2.1 hp.2.2] at halive
        cases halive
      · rw [World.set_of_ne w ht] at hreached
        exact hun i k hreached
  | _ => exact hun

theorem lost_run {w w' : World} {tr : List (World × Label)} (hrun : Run Step w tr w')
    (hthreads : ∀ p ∈ tr, OfThread p.2) (hinv : w.Inv) (hlost : w.Lost) : w'.Inv ∧ w'.Lost :=
  (hrun.invariant (fun _ l => OfThread l) (fun v => v.Inv ∧ v.Lost)
    (fun _ _ _ hst hthread hv => ⟨inv_step hst hv.1, lost_step hst hthread hv.1 hv.2⟩)
    hthreads ⟨hinv, hlost⟩).1

theorem not_reaches {w : World} (hinv : w.Inv) (hlost : w.Lost) {i t : ℕ}
    (hended : (w.threads t).ended = true) (hi : i < w.shared.next) : ¬ Reaches i t w := by
  intro hreaches
  have hbegin : Step w (.begin t (.transact i)) (w.begin t (.transact i)) := .begin hended hi
  have hun : (w.begin t (.transact i)).Unreached t := by
    intro j k
    rw [World.begin_self]
    simp [Call.begin]
  have hinv' := inv_step hbegin hinv
  -- the threads alone bring the call to its end
  rcases hinv'.exists_end t with ⟨tr, u, hrun, hthreads, hend⟩
  have hu := (hrun.invariant (fun _ l => OfThread l) (fun v => v.Inv ∧ v.Lost ∧ v.Unreached t)
    (fun _ _ _ hst hthread hv =>
      ⟨inv_step hst hv.1, lost_step hst hthread hv.1 hv.2.1, unreached_step hst hv.1 hv.2.1 hv.2.2⟩)
    hthreads ⟨hinv', lost_begin hbegin hinv hlost, hun⟩).1
  rcases (hreaches tr u hrun fun p hp => (hthreads p hp).quiet t).1 hend with ⟨k, hreached, -⟩
  exact hu.2.2 i k hreached

theorem not_recovers {w : World} (hinv : w.Inv) (hlost : w.Lost) {t : ℕ}
    (hended : (w.threads t).ended = true) (id : ℤ) : ¬ Recovers t id w := by
  intro hrecovers
  have hbegin : Step w (.begin t (.getService id)) (w.begin t (.getService id)) :=
    .begin hended trivial
  have hinv' := inv_step hbegin hinv
  rcases hinv'.exists_end t with ⟨tr, v, hrun, hthreads, hend⟩
  have hv := lost_run hrun hthreads hinv' (lost_begin hbegin hinv hlost)
  rcases (hrecovers tr v hrun fun p hp => (hthreads p hp).quiet t).1 hend with
    ⟨i, hreturned, hreaches⟩
  have hp := hv.1.threads t
  rw [hreturned] at hp
  have hhas : v.shared.Has id i := hp i rfl
  exact not_reaches hv.1 hv.2 hend hhas.made (hreaches t hend)

/-! ## Any other client recovers -/

/-- The last call of the thread failed. -/
def Pc.failed : Pc → Bool
  | .returned _ none => true
  | .remoteException _ => true
  | .threw _ => true
  | _ => false

/-- A call of `getService` is one of an installed service. -/
def Call.Installed : Call → Prop
  | .getService id => allServices id = true
  | .transact _ => True

theorem Goal.failed_call (g : Goal) : g.failed.call = some g.call := by
  cases g <;> rfl

theorem Goal.obtained_call (g : Goal) (k : ℕ) : (g.obtained k).call = some g.call := by
  cases g <;> rfl

theorem Goal.obtained_failed (g : Goal) (k : ℕ) : (g.obtained k).failed = false := by
  cases g <;> rfl

/-- The manager is asked for installed services only. -/
theorem Goal.Valid.installed {s : Shared} {g : Goal} (h : g.Valid s) (hs : s.Inv)
    (hcall : g.call.Installed) : allServices (g.serviceId s) = true := by
  cases g with
  | getService id => exact hcall
  | queryLocalInterface id i =>
      have hhas : s.Has id i := h
      exact hhas.serviceId.symm ▸ hhas.installed
  | transact i => exact hs.installed i h

section Thread

variable {s s' : Shared} {t : ℕ} {queryOk : Bool} {p p' : Pc}

/-- A step belongs to the call that the thread is in. -/
theorem Effect.call (h : Effect s t queryOk p s' p') : p'.call = p.call := by
  cases h with
  | @fails g => exact g.failed_call
  | @obtains g k k' => exact g.obtained_call k'
  | @obtainsNothing g => exact g.failed_call
  | _ => rfl

/-- Nothing fails while the manager's incarnation is running. -/
theorem Effect.not_failed (h : Effect s t true p s' p') (hs : s.Inv) (hp : p.Inv s)
    (halive : ∀ k, s.serverManagerImpl = some k → s.isAlive k = true) (hserving : s.Serving)
    {c : Call} (hcall : p.call = some c) (hc : c.Installed) : p'.failed = false := by
  have hanswer : ∀ g k, p = .calling g k → s.managerGetService k (g.serviceId s) = .binder k := by
    rintro g k rfl
    cases hcall
    rw [Shared.managerGetService, halive k hp.2, if_pos rfl, hserving.inServer]
    exact providerGetService_installed (hp.1.installed hs hc) k
  cases h with
  | obtains => exact Goal.obtained_failed _ _
  | fails hquery => cases hquery
  | obtainsNothing h =>
      rw [hanswer _ _ rfl] at h
      rcases h with h | h <;> cases h
  | outOfRange h =>
      rw [hanswer _ _ rfl] at h
      cases h
  | notInstalled hid =>
      have hhas : s.Has _ _ := hp
      rw [hhas.installed] at hid
      cases hid
  | isDead hdead =>
      rw [halive _ hp.2.1] at hdead
      cases hdead
  | _ => rfl

end Thread

/-- A server that knows what it is does so until it dies. -/
theorem serving_step {w w' : World} {l : Label} {t : ℕ} (h : Step w l w') (hquiet : Quiet t l)
    (hserving : w.shared.Serving) : w'.shared.Serving := by
  cases h with
  | begin => exact hserving
  | thread hstep => exact (step_effect hstep).serving_iff.2 hserving
  | die => exact hquiet.elim
  | restart => exact w.shared.serving_started_iff.2 hserving
  | onCreate process halive hfirst =>
      have hserver := hserving.inServer
      simp [Shared.runInServerProcess, hfirst] at hserver
  | binderDied => exact ⟨hserving.alive, hserving.inServer⟩

/-- Thread `t` is in the call `c`, or has ended it without a failure. -/
structure World.OnCourse (w : World) (t : ℕ) (c : Call) : Prop where
  inv : w.Inv
  good : w.Good
  serving : w.shared.Serving
  call : (w.threads t).call = some c
  ok : (w.threads t).failed = false

theorem onCourse_step {w w' : World} {l : Label} {t : ℕ} {c : Call} (hc : c.Installed)
    (h : Step w l w') (hquiet : Quiet t l) (hw : w.OnCourse t c) : w'.OnCourse t c := by
  have hguard : ¬ LosesManager w l := by
    rintro ⟨rfl, -⟩
    exact hquiet
  have hinv := inv_step h hw.inv
  have hgood := good_step h hguard hw.good
  have hserving := serving_step h hquiet hw.serving
  cases h with
  | @begin t' c' =>
      have ht : t ≠ t' := Ne.symm hquiet
      refine ⟨hinv, hgood, hserving, ?_, ?_⟩
      · rw [World.begin_of_ne w ht]
        exact hw.call
      · rw [World.begin_of_ne w ht]
        exact hw.ok
  | @thread t' queryOk s p hstep =>
      -- in a quiet run the provider answers
      have hquery : queryOk = true := hquiet
      subst hquery
      by_cases ht : t = t'
      · subst ht
        have heff := step_effect hstep
        refine ⟨hinv, hgood, hserving, ?_, ?_⟩
        · rw [World.set_self, heff.call]
          exact hw.call
        · rw [World.set_self]
          exact heff.not_failed hw.inv.shared (hw.inv.threads t)
            (fun k hk => hw.good k (Or.inl hk)) hw.serving hw.call hc
      · refine ⟨hinv, hgood, hserving, ?_, ?_⟩
        · rw [World.set_of_ne w ht]
          exact hw.call
        · rw [World.set_of_ne w ht]
          exact hw.ok
  | _ => exact ⟨hinv, hgood, hserving, hw.call, hw.ok⟩

/-- A call that is on course ends on course. -/
theorem World.OnCourse.completes {w : World} {t : ℕ} {c : Call} (hc : c.Installed)
    (hw : w.OnCourse t c) {Q : World → Prop}
    (hQ : ∀ v, v.OnCourse t c → (v.threads t).ended = true → Q v) : Completes t Q w := by
  intro tr v hrun hquiet
  have hv := (hrun.invariant (fun _ l => Quiet t l) (fun u => u.OnCourse t c)
    (fun _ _ _ hst hq hu => onCourse_step hc hst hq hu) hquiet hw).1
  rcases hv.inv.exists_end t with ⟨tr', u, hrun', hthreads, hend⟩
  exact ⟨hQ v hv, tr', u, hrun', fun p hp => (hthreads p hp).quiet t, hend⟩

theorem World.OnCourse.begin {w : World} (hinv : w.Inv) (hgood : w.Good)
    (hserving : w.shared.Serving) {t : ℕ} {c : Call} (hended : (w.threads t).ended = true)
    (hvalid : c.Valid w.shared) : (w.begin t c).OnCourse t c := by
  refine ⟨hinv.begin hended hvalid, fun k hk => hgood k (World.holds_begin hk), hserving, ?_, ?_⟩
  · rw [World.begin_self]
    cases c <;> rfl
  · rw [World.begin_self]
    cases c <;> rfl

theorem reaches_of_good {w : World} (hinv : w.Inv) (hgood : w.Good) (hserving : w.shared.Serving)
    {t i : ℕ} (hended : (w.threads t).ended = true) (hi : i < w.shared.next) : Reaches i t w := by
  have hbegin : (w.begin t (.transact i)).OnCourse t (.transact i) :=
    .begin hinv hgood hserving hended hi
  refine World.OnCourse.completes (c := .transact i) trivial hbegin ?_
  intro u hu hend
  have hp := hu.inv.threads t
  have hcall := hu.call
  have hok := hu.ok
  cases hpc : u.threads t with
  | reached j k =>
      rw [hpc] at hp hcall
      cases hcall
      exact ⟨k, rfl, hu.good k (Or.inl hp)⟩
  | _ => simp_all [Pc.ended, Pc.call, Pc.failed]

theorem recovers_of_good {w : World} (hinv : w.Inv) (hgood : w.Good)
    (hserving : w.shared.Serving) {t : ℕ} {id : ℤ} (hended : (w.threads t).ended = true)
    (hid : allServices id = true) : Recovers t id w := by
  have hbegin : (w.begin t (.getService id)).OnCourse t (.getService id) :=
    .begin hinv hgood hserving hended trivial
  refine World.OnCourse.completes (c := .getService id) hid hbegin ?_
  intro v hv hend
  have hp := hv.inv.threads t
  have hcall := hv.call
  have hok := hv.ok
  cases hpc : v.threads t with
  | returned id' i =>
      rw [hpc] at hp hcall hok
      cases hcall
      cases i with
      | none => cases hok
      | some i =>
          have hhas : v.shared.Has id i := hp i rfl
          exact ⟨i, rfl, fun t' ht' =>
            reaches_of_good hv.inv hv.good hv.serving ht' hhas.made⟩
  | _ => simp_all [Pc.ended, Pc.call, Pc.failed]

theorem World.Good.start (alive : Bool) : (start alive).Good := by
  rintro k (hmanager | ⟨t, g, hg⟩)
  · cases hmanager
  · cases hg

/-- The client recovers from every death but one of a server that it has a manager
binder of, as soon as a server is running that knows what it is; whether
`binderDied` has been delivered makes no difference. -/
theorem recovers_iff {alive : Bool} {w : World} {tr : List (World × Label)}
    (run : Run Step (start alive) tr w) {t : ℕ} (hended : (w.threads t).ended = true) {id : ℤ}
    (hid : allServices id = true) :
    Recovers t id w ↔ (∀ p ∈ tr, ¬ LosesManager p.1 p.2) ∧ w.shared.Serving := by
  have hinv := run.stable World.Inv (fun _ _ _ => inv_step) (.start alive)
  constructor
  · intro hrecovers
    have hfound : ¬ w.Lost := fun hlost => not_recovers hinv hlost hended id hrecovers
    rw [World.Lost, not_or, not_not] at hfound
    refine ⟨fun p hp hloses => ?_, hfound.2⟩
    rcases List.append_of_mem hp with ⟨before, after, rfl⟩
    rcases run.split with ⟨hbefore, v, hstep, hafter⟩
    have hp' := hbefore.stable World.Inv (fun _ _ _ => inv_step) (.start alive)
    have hend := hafter.stable (fun v => v.Inv ∧ v.Stranded)
      (fun _ _ _ hst hv => ⟨inv_step hst hv.1, stranded_step hst hv.1 hv.2⟩)
      ⟨inv_step hstep hp', hloses.stranded hstep hp'⟩
    exact hfound.1 hend.2
  · rintro ⟨hguard, hserving⟩
    have hgood := (run.invariant (fun w l => ¬ LosesManager w l) World.Good
      (fun _ _ _ => good_step) hguard (.start alive)).1
    exact recovers_of_good hinv hgood hserving hended hid

/-- `getCurrentProcessName` in the server. -/
def serverName : Option (List Char) := some "com.zero:server".toList

/-- The server dies before the client has called anything. -/
theorem early_death_recovers :
    ∃ tr w, Run Step (start true) tr w ∧ (∃ p ∈ tr, p.2 = .die) ∧ w.Delivered ∧
      Recovers 0 0 w := by
  have run : Run Step (start true) _ _ :=
    .cons (.onCreate serverName rfl rfl) <|
    .cons (.die rfl) <|
    .cons (.restart rfl) <|
    .cons (.onCreate serverName rfl rfl) <|
    .nil _
  refine ⟨_, _, run, ⟨_, List.mem_cons_of_mem _ List.mem_cons_self, rfl⟩, ?_,
    (recovers_iff run rfl rfl).2 ⟨?_, rfl, ?_⟩⟩
  · simp [World.Delivered, start, Shared.started, Shared.onCreate]
  · simp [LosesManager, World.Holds, start, Shared.onCreate]
  · decide

/-- `getService(0)`, the death, both notices, the restart of a server that knows what
it is: the client stays with the manager of the first incarnation. -/
theorem death_strands :
    ∃ tr w, Run Step (start true) tr w ∧ w.Delivered ∧ w.shared.Serving ∧
      (w.threads 0).ended = true ∧ allServices 0 = true ∧ ¬ Recovers 0 0 w := by
  have turn : ∀ {w s p}, step w.shared 0 true (w.threads 0) = some (s, p) →
      Step w (.thread 0 true) (w.set 0 s p) := .thread
  have run : Run Step (start true) _ _ :=
    .cons (.onCreate serverName rfl rfl) <|
    .cons (.begin (t := 0) (c := .getService 0) rfl trivial) <|
    .cons (turn rfl) <|
    .cons (turn rfl) <|
    .cons (turn rfl) <|
    .cons (turn rfl) <|
    .cons (turn rfl) <|
    .cons (turn rfl) <|
    .cons (turn rfl) <|
    .cons (turn rfl) <|
    .cons (turn rfl) <|
    .cons (turn rfl) <|
    .cons (.die rfl) <|
    .cons (.binderDied (r := .wrapper 0) (k := 0) List.mem_cons_self rfl) <|
    .cons (.binderDied (r := .manager) (k := 0) List.mem_cons_self rfl) <|
    .cons (.restart rfl) <|
    .cons (.onCreate serverName rfl rfl) <|
    .nil _
  have hinv := run.stable World.Inv (fun _ _ _ => inv_step) (.start true)
  refine ⟨_, _, run, ?_, ⟨rfl, by decide⟩, rfl, rfl, not_recovers hinv ?_ rfl 0⟩
  · intro p hp
    cases hp
  · exact Or.inl ⟨0, Or.inl rfl, Or.inl Nat.one_pos⟩

end CrossProcess
