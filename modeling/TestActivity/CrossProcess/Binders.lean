import TestActivity.CrossProcess.ServiceManager

/-!
# Which binders the client has

* `World.Inv`: every binder that a thread or a wrapper has is of the incarnation
  in `mServerManagerImpl`, except the one that the thread in `queryService` has
  obtained and not stored yet; and only an incarnation that knows it is the server
  process has given out the binder of a service.
* `inv_step`: every step keeps it, whoever takes it.
-/

namespace CrossProcess

/-! ## What a step of a thread does -/

/-- The cases of `step`. -/
inductive Effect (s : Shared) (t : ℕ) (queryOk : Bool) : Pc → Shared → Pc → Prop where
  | cached {id : ℤ} {i : ℕ} (hcache : s.cache id = some i) :
      Effect s t queryOk (.getService id) s (.getInterface id i)
  | uncached {id : ℤ} (hcache : s.cache id = none) :
      Effect s t queryOk (.getService id) s (.getServerManagerService (.getService id))
  | known {g : Goal} {k : ℕ} (hmanager : s.serverManagerImpl = some k) :
      Effect s t queryOk (.getServerManagerService g) s (.calling g k)
  | unknown {g : Goal} (hmanager : s.serverManagerImpl = none) :
      Effect s t queryOk (.getServerManagerService g) s (.queryService g)
  | knownNow {g : Goal} {k : ℕ} (hlock : s.lock = none) (hmanager : s.serverManagerImpl = some k) :
      Effect s t queryOk (.queryService g) s (.calling g k)
  | locks {g : Goal} (hlock : s.lock = none) (hmanager : s.serverManagerImpl = none) :
      Effect s t queryOk (.queryService g) { s with lock := some t } (.querying g)
  | queries {g : Goal} (hquery : queryOk = true) :
      Effect s t queryOk (.querying g) s.started (.queried g s.started.incarnation)
  | fails {g : Goal} (hquery : queryOk = false) :
      Effect s t queryOk (.querying g) { s with lock := none } g.failed
  | stores {g : Goal} {k : ℕ} :
      Effect s t queryOk (.queried g k) { s with serverManagerImpl := some k } (.linking g k)
  | links {g : Goal} {k : ℕ} :
      Effect s t queryOk (.linking g k) { s.linkToDeath .manager k with lock := none }
        (.calling g k)
  | obtains {g : Goal} {k k' : ℕ} (hanswer : s.managerGetService k (g.serviceId s) = .binder k') :
      Effect s t queryOk (.calling g k) s (g.obtained k')
  | obtainsNothing {g : Goal} {k : ℕ}
      (hanswer : s.managerGetService k (g.serviceId s) = .remoteException ∨
        s.managerGetService k (g.serviceId s) = .null) :
      Effect s t queryOk (.calling g k) s g.failed
  | outOfRange {g : Goal} {k : ℕ}
      (hanswer : s.managerGetService k (g.serviceId s) = .illegalArgument) :
      Effect s t queryOk (.calling g k) s (.threw g.call)
  | wraps {id : ℤ} {k : ℕ} :
      Effect s t queryOk (.wrapping id k) (s.newWrapper id k) (.caching id s.next)
  | caches {id : ℤ} {i : ℕ} :
      Effect s t queryOk (.caching id i) { s with cache := Function.update s.cache id (some i) }
        (.getInterface id i)
  | notInstalled {id : ℤ} {i : ℕ} (hid : allServices id = false) :
      Effect s t queryOk (.getInterface id i) s (.threw (.getService id))
  | returns {id : ℤ} {i k : ℕ} (hid : allServices id = true)
      (hbinder : (s.wrappers i).remoteBinderImpl = some k) :
      Effect s t queryOk (.getInterface id i) s (.returned id (some i))
  | asksAgain {id : ℤ} {i : ℕ} (hid : allServices id = true)
      (hbinder : (s.wrappers i).remoteBinderImpl = none) :
      Effect s t queryOk (.getInterface id i) s
        (.getServerManagerService (.queryLocalInterface id i))
  | forwards {i k : ℕ} (hbinder : (s.wrappers i).remoteBinderImpl = some k) :
      Effect s t queryOk (.transact i) s (.transacting i k)
  | transactAsks {i : ℕ} (hbinder : (s.wrappers i).remoteBinderImpl = none) :
      Effect s t queryOk (.transact i) s (.getServerManagerService (.transact i))
  | reaches {i k : ℕ} (halive : s.isAlive k = true) :
      Effect s t queryOk (.transacting i k) s (.reached i k)
  | isDead {i k : ℕ} (halive : s.isAlive k = false) :
      Effect s t queryOk (.transacting i k) s (.remoteException i)

theorem step_effect {s s' : Shared} {t : ℕ} {queryOk : Bool} {p p' : Pc}
    (h : step s t queryOk p = some (s', p')) : Effect s t queryOk p s' p' := by
  unfold step at h
  split at h
  · split at h <;> cases h
    · exact .cached (by assumption)
    · exact .uncached (by assumption)
  · split at h <;> cases h
    · exact .known (by assumption)
    · exact .unknown (by assumption)
  · split_ifs at h with hlock
    rw [Bool.not_eq_true, Option.isSome_eq_false_iff, Option.isNone_iff_eq_none] at hlock
    split at h <;> cases h
    · exact .knownNow hlock (by assumption)
    · exact .locks hlock (by assumption)
  · split_ifs at h with hquery <;> cases h
    · exact .queries hquery
    · exact .fails (by simpa using hquery)
  · cases h
    exact .stores
  · cases h
    exact .links
  · split at h <;> cases h
    · exact .obtainsNothing (Or.inl (by assumption))
    · exact .outOfRange (by assumption)
    · exact .obtainsNothing (Or.inr (by assumption))
    · exact .obtains (by assumption)
  · cases h
    exact .wraps
  · cases h
    exact .caches
  · split_ifs at h with hid
    · cases h
      exact .notInstalled (by simpa using hid)
    · split at h <;> cases h
      · exact .returns (by simpa using hid) (by assumption)
      · exact .asksAgain (by simpa using hid) (by assumption)
  · split at h <;> cases h
    · exact .forwards (by assumption)
    · exact .transactAsks (by assumption)
  · split_ifs at h with halive <;> cases h
    · exact .reaches halive
    · exact .isDead (by simpa using halive)
  all_goals cases h

/-! ## The lock -/

/-- The thread has the lock of `queryService`. -/
def Pc.critical : Pc → Bool
  | .querying _ => true
  | .queried _ _ => true
  | .linking _ _ => true
  | _ => false

@[simp] theorem Goal.failed_critical (g : Goal) : g.failed.critical = false := by
  cases g <;> rfl

@[simp] theorem Goal.obtained_critical (g : Goal) (k : ℕ) : (g.obtained k).critical = false := by
  cases g <;> rfl

/-- How a step of thread `t` is related to the lock. -/
inductive Locking (s : Shared) (t : ℕ) (p : Pc) (s' : Shared) (p' : Pc) : Prop where
  | outside (hp : p.critical = false) (hp' : p'.critical = false) (hlock : s'.lock = s.lock)
      (hmanager : s'.serverManagerImpl = s.serverManagerImpl)
  | takes (hp' : p'.critical = true) (hfree : s.lock = none) (hlock : s'.lock = some t)
  | keeps (hp : p.critical = true) (hp' : p'.critical = true) (hlock : s'.lock = s.lock)
  | releases (hp : p.critical = true) (hp' : p'.critical = false) (hfree : s'.lock = none)

theorem Effect.locking {s s' : Shared} {t : ℕ} {queryOk : Bool} {p p' : Pc}
    (h : Effect s t queryOk p s' p') : Locking s t p s' p' := by
  cases h with
  | locks hlock => exact .takes rfl hlock rfl
  | queries => exact .keeps rfl rfl rfl
  | stores => exact .keeps rfl rfl rfl
  | @fails g => exact .releases rfl g.failed_critical rfl
  | links => exact .releases rfl rfl rfl
  | @obtains g k k' => exact .outside rfl (g.obtained_critical k') rfl rfl
  | @obtainsNothing g => exact .outside rfl g.failed_critical rfl rfl
  | _ => exact .outside rfl rfl rfl rfl

/-! ## The invariant -/

/-- The wrapper `i` is one of the installed service `id`. -/
structure Shared.Has (s : Shared) (id : ℤ) (i : ℕ) : Prop where
  made : i < s.next
  serviceId : (s.wrappers i).serviceId = id
  installed : allServices id = true

/-- Incarnation `k` has been started and, if it is running, knows that it is the
server process. -/
structure Shared.Serves (s : Shared) (k : ℕ) : Prop where
  le : k ≤ s.incarnation
  inServer : s.isAlive k = true → s.runInServerProcess = true

/-- The wrapper that the manager is asked for exists. -/
def Goal.Valid (s : Shared) : Goal → Prop
  | .getService _ => True
  | .queryLocalInterface id i => s.Has id i
  | .transact i => i < s.next

/-- What holds of a thread: every binder it has is the manager's. -/
def Pc.Inv (s : Shared) : Pc → Prop
  | .idle => True
  | .getService _ => True
  | .getServerManagerService g => g.Valid s
  | .queryService g => g.Valid s
  | .querying g => g.Valid s ∧ s.serverManagerImpl = none
  | .queried g k => g.Valid s ∧ s.serverManagerImpl = none ∧ k ≤ s.incarnation
  | .linking g k => g.Valid s ∧ s.serverManagerImpl = some k
  | .calling g k => g.Valid s ∧ s.serverManagerImpl = some k
  | .wrapping id k => allServices id = true ∧ s.serverManagerImpl = some k ∧ s.Serves k
  | .caching id i => s.Has id i
  | .getInterface id i => s.Has id i
  | .returned id i => ∀ j ∈ i, s.Has id j
  | .transact i => i < s.next
  | .transacting i k => i < s.next ∧ s.serverManagerImpl = some k ∧ s.Serves k
  | .reached _ k => s.serverManagerImpl = some k
  | .remoteException _ => True
  | .threw _ => True

/-- What holds of the shared fields. -/
structure Shared.Inv (s : Shared) : Prop where
  manager : ∀ k, s.serverManagerImpl = some k → k ≤ s.incarnation
  binder : ∀ i k, (s.wrappers i).remoteBinderImpl = some k →
    s.serverManagerImpl = some k ∧ s.Serves k
  installed : ∀ i < s.next, allServices (s.wrappers i).serviceId = true
  cache : ∀ id i, s.cache id = some i → s.Has id i

/-- What everybody keeps for the others. -/
structure Shared.Extends (s s' : Shared) : Prop where
  manager : ∀ k, s.serverManagerImpl = some k → s'.serverManagerImpl = some k
  serves : ∀ k, s.Serves k → s'.Serves k
  incarnation : s.incarnation ≤ s'.incarnation
  next : s.next ≤ s'.next
  serviceId : ∀ i < s.next, (s'.wrappers i).serviceId = (s.wrappers i).serviceId

/-- The invariant. The thread behind the test in `queryService` has the lock. -/
structure World.Inv (w : World) : Prop where
  shared : w.shared.Inv
  threads : ∀ t, (w.threads t).Inv w.shared
  lock : ∀ t, (w.threads t).critical = true ↔ w.shared.lock = some t

theorem Shared.Has.mono {s s' : Shared} {id : ℤ} {i : ℕ} (h : s.Has id i) (hext : s.Extends s') :
    s'.Has id i :=
  ⟨Nat.lt_of_lt_of_le h.made hext.next, (hext.serviceId i h.made).trans h.serviceId, h.installed⟩

theorem Goal.Valid.mono {s s' : Shared} {g : Goal} (h : g.Valid s) (hext : s.Extends s') :
    g.Valid s' := by
  cases g with
  | getService id => trivial
  | queryLocalInterface id i => exact Shared.Has.mono h hext
  | transact i => exact Nat.lt_of_lt_of_le h hext.next

/-- A thread keeps its invariant while others act, if they leave the manager alone
when it holds the lock. -/
theorem Pc.Inv.mono {s s' : Shared} {p : Pc} (h : p.Inv s) (hext : s.Extends s')
    (hcritical : p.critical = true → s'.serverManagerImpl = s.serverManagerImpl) : p.Inv s' := by
  cases p with
  | getServerManagerService g => exact Goal.Valid.mono h hext
  | queryService g => exact Goal.Valid.mono h hext
  | querying g => exact ⟨h.1.mono hext, (hcritical rfl).trans h.2⟩
  | queried g k =>
      exact ⟨h.1.mono hext, (hcritical rfl).trans h.2.1, Nat.le_trans h.2.2 hext.incarnation⟩
  | linking g k => exact ⟨h.1.mono hext, hext.manager k h.2⟩
  | calling g k => exact ⟨h.1.mono hext, hext.manager k h.2⟩
  | wrapping id k => exact ⟨h.1, hext.manager k h.2.1, hext.serves k h.2.2⟩
  | caching id i => exact Shared.Has.mono h hext
  | getInterface id i => exact Shared.Has.mono h hext
  | returned id i => exact fun j hj => (h j hj).mono hext
  | transact i => exact Nat.lt_of_lt_of_le h hext.next
  | transacting i k =>
      exact ⟨Nat.lt_of_lt_of_le h.1 hext.next, hext.manager k h.2.1, hext.serves k h.2.2⟩
  | reached i k => exact hext.manager k h
  | _ => trivial

theorem Shared.Extends.refl (s : Shared) : s.Extends s :=
  ⟨fun _ h => h, fun _ h => h, Nat.le_refl _, Nat.le_refl _, fun _ _ => rfl⟩

theorem Shared.incarnation_le_started (s : Shared) : s.incarnation ≤ s.started.incarnation := by
  simp only [Shared.started]
  split_ifs <;> omega

/-- An incarnation that is started knows nothing, but none of the earlier ones is
running. -/
theorem Shared.Serves.started {s : Shared} {k : ℕ} (h : s.Serves k) : s.started.Serves k := by
  refine ⟨Nat.le_trans h.le s.incarnation_le_started, ?_⟩
  intro hk
  have hle := h.le
  cases halive : s.alive with
  | true =>
      have hserver := h.inServer (by simpa [isAlive, Shared.started, halive] using hk)
      simpa [runInServerProcess, Shared.started, halive] using hserver
  | false =>
      have heq : k = s.incarnation + 1 := by simpa [isAlive, Shared.started, halive] using hk
      omega

/-- Nothing has been given out before `App.onCreate`. -/
theorem Shared.Serves.onCreate {s : Shared} {k : ℕ} (h : s.Serves k)
    (hfirst : s.curProcessType = none) (process : Option (List Char)) :
    (s.onCreate process).Serves k := by
  refine ⟨h.le, fun hk => ?_⟩
  have hserver := h.inServer hk
  simp [runInServerProcess, hfirst] at hserver

theorem Shared.Serves.die {s : Shared} {k : ℕ} (h : s.Serves k) :
    Shared.Serves { s with alive := false } k :=
  ⟨h.le, by simp [isAlive]⟩

theorem Shared.extends_started (s : Shared) : s.Extends s.started :=
  ⟨fun _ h => h, fun _ h => h.started, s.incarnation_le_started, Nat.le_refl _, fun _ _ => rfl⟩

section Thread

variable {s s' : Shared} {t : ℕ} {queryOk : Bool} {p p' : Pc}

theorem Effect.extends (h : Effect s t queryOk p s' p') (hp : p.Inv s) : s.Extends s' := by
  cases h with
  | queries => exact s.extends_started
  | stores =>
      -- the manager was not known, and only the holder of the lock stores it
      refine ⟨?_, fun _ h => ⟨h.le, h.inServer⟩, Nat.le_refl _, Nat.le_refl _, fun _ _ => rfl⟩
      intro k hk
      rw [hp.2.1] at hk
      cases hk
  | wraps =>
      refine ⟨fun _ h => h, fun _ h => ⟨h.le, h.inServer⟩, Nat.le_refl _, Nat.le_succ _, ?_⟩
      intro i hi
      have hne : i ≠ s.next := Nat.ne_of_lt hi
      simp [Shared.newWrapper, Shared.linkToDeath, Function.update_of_ne hne]
  | _ =>
      exact ⟨fun _ h => h, fun _ h => ⟨h.le, h.inServer⟩, Nat.le_refl _, Nat.le_refl _,
        fun _ _ => rfl⟩

theorem Shared.newWrapper_has {id : ℤ} (hid : allServices id = true) (k : ℕ) :
    (s.newWrapper id k).Has id s.next :=
  ⟨Nat.lt_succ_self _, by simp [Shared.newWrapper, Shared.linkToDeath], hid⟩

theorem Effect.shared (h : Effect s t queryOk p s' p') (hs : s.Inv) (hp : p.Inv s) : s'.Inv := by
  have hext := h.extends hp
  have hcache : ∀ id i, s.cache id = some i → s'.Has id i :=
    fun id i hi => (hs.cache id i hi).mono hext
  have hbinder : ∀ i k, (s.wrappers i).remoteBinderImpl = some k →
      s'.serverManagerImpl = some k ∧ s'.Serves k :=
    fun i k hk => ⟨hext.manager k (hs.binder i k hk).1, hext.serves k (hs.binder i k hk).2⟩
  -- only these steps touch what the invariant speaks of
  cases h with
  | queries =>
      exact ⟨fun k hk => Nat.le_trans (hs.manager k hk) hext.incarnation, hbinder, hs.installed,
        hcache⟩
  | stores =>
      refine ⟨?_, hbinder, hs.installed, hcache⟩
      intro k hk
      cases hk
      exact hp.2.2
  | @wraps id k =>
      refine ⟨hs.manager, ?_, ?_, hcache⟩
      · intro i k' hk
        -- the wrapper is the new one, linked to a manager that serves, or an old one
        by_cases hnew : i = s.next
        · rw [hnew] at hk
          simp only [Shared.newWrapper, Shared.linkToDeath, Function.update_self,
            Option.some.injEq] at hk
          exact hk ▸ ⟨hp.2.1, hext.serves k hp.2.2⟩
        · simp only [Shared.newWrapper, Shared.linkToDeath, Function.update_of_ne hnew] at hk
          exact hbinder i k' hk
      · intro i hi
        rcases Nat.lt_succ_iff_lt_or_eq.1 hi with hold | rfl
        · rw [hext.serviceId i hold]
          exact hs.installed i hold
        · rw [(Shared.newWrapper_has hp.1 k).serviceId]
          exact hp.1
  | @caches id i =>
      refine ⟨hs.manager, hbinder, hs.installed, ?_⟩
      intro id' i' hi
      change Function.update s.cache id (some i) id' = some i' at hi
      by_cases heq : id' = id
      · rw [heq, Function.update_self] at hi
        rw [heq, ← Option.some.inj hi]
        exact Shared.Has.mono hp hext
      · rw [Function.update_of_ne heq] at hi
        exact hcache id' i' hi
  | _ => exact ⟨hs.manager, hbinder, hs.installed, hcache⟩

theorem Goal.Valid.failed {g : Goal} (h : g.Valid s) : g.failed.Inv s := by
  cases g with
  | getService id => simp [Goal.failed, Pc.Inv]
  | queryLocalInterface id i => simpa [Goal.failed, Goal.Valid, Pc.Inv] using h
  | transact i => trivial

theorem Goal.Valid.obtained {g : Goal} {k k' : ℕ} (h : g.Valid s) (hs : s.Inv)
    (hmanager : s.serverManagerImpl = some k)
    (hanswer : s.managerGetService k (g.serviceId s) = .binder k') : (g.obtained k').Inv s := by
  unfold Shared.managerGetService providerGetService at hanswer
  split_ifs at hanswer with halive hserver hrange hid
  cases hanswer
  have hserves : s.Serves k := ⟨hs.manager k hmanager, fun _ => by simpa using hserver⟩
  cases g with
  | getService id => exact ⟨hid, hmanager, hserves⟩
  | queryLocalInterface id i => simpa [Goal.obtained, Goal.Valid, Pc.Inv] using h
  | transact i => exact ⟨h, hmanager, hserves⟩

/-- The thread that makes the step keeps its invariant. -/
theorem Effect.inv (h : Effect s t queryOk p s' p') (hs : s.Inv) (hp : p.Inv s) : p'.Inv s' := by
  have hext := h.extends hp
  cases h with
  | cached hcache => exact hs.cache _ _ hcache
  | uncached => trivial
  | known hmanager => exact ⟨hp, hmanager⟩
  | unknown => exact hp
  | knownNow hlock hmanager => exact ⟨hp, hmanager⟩
  | locks hlock hmanager => exact ⟨Goal.Valid.mono hp hext, hmanager⟩
  | queries => exact ⟨hp.1.mono hext, hp.2, Nat.le_refl _⟩
  | fails => exact (hp.1.mono hext).failed
  | stores => exact ⟨hp.1.mono hext, rfl⟩
  | links => exact ⟨hp.1.mono hext, hp.2⟩
  | obtains hanswer => exact hp.1.obtained hs hp.2 hanswer
  | obtainsNothing => exact hp.1.failed
  | outOfRange => trivial
  | wraps => exact Shared.newWrapper_has hp.1 _
  | caches => exact Shared.Has.mono hp hext
  | notInstalled => trivial
  | returns => simpa [Pc.Inv] using hp
  | asksAgain => exact hp
  | forwards hbinder => exact ⟨hp, hs.binder _ _ hbinder⟩
  | transactAsks => exact hp
  | reaches => exact hp.2.1
  | isDead => trivial

end Thread

/-! ## Steps of the world -/

@[simp] theorem World.set_self (w : World) (t : ℕ) (s : Shared) (p : Pc) :
    (w.set t s p).threads t = p := by
  simp [World.set]

theorem World.set_of_ne (w : World) {t t' : ℕ} (h : t' ≠ t) (s : Shared) (p : Pc) :
    (w.set t s p).threads t' = w.threads t' := by
  simp [World.set, Function.update_of_ne h]

@[simp] theorem World.begin_self (w : World) (t : ℕ) (c : Call) :
    (w.begin t c).threads t = c.begin :=
  w.set_self t w.shared c.begin

theorem World.begin_of_ne (w : World) {t t' : ℕ} (h : t' ≠ t) (c : Call) :
    (w.begin t c).threads t' = w.threads t' :=
  w.set_of_ne h w.shared c.begin

/-- A thread has moved on. -/
theorem World.Inv.set {w : World} (h : w.Inv) {t : ℕ} {s : Shared} {p : Pc} (hs : s.Inv)
    (hp : p.Inv s) (hext : w.shared.Extends s) (hlocking : Locking w.shared t (w.threads t) s p) :
    (w.set t s p).Inv := by
  refine ⟨hs, ?_, ?_⟩
  · intro t'
    by_cases ht : t' = t
    · rw [ht, World.set_self]
      exact hp
    · rw [World.set_of_ne w ht]
      apply (h.threads t').mono hext
      intro hcritical
      -- `t'` has the lock, so that `t` is outside
      have hlock := (h.lock t').1 hcritical
      cases hlocking with
      | outside _ _ _ hmanager => exact hmanager
      | takes _ hfree => simp [hlock] at hfree
      | keeps ht' =>
          rw [(h.lock t).1 ht'] at hlock
          exact absurd (Option.some.inj hlock).symm ht
      | releases ht' =>
          rw [(h.lock t).1 ht'] at hlock
          exact absurd (Option.some.inj hlock).symm ht
  · intro t'
    change ((w.set t s p).threads t').critical = true ↔ s.lock = some t'
    by_cases ht : t' = t
    · rw [ht, World.set_self]
      cases hlocking with
      | outside hout hp' hlock => rw [hlock, ← h.lock t, hout, hp']
      | takes hp' _ hlock => simp [hp', hlock]
      | keeps hin hp' hlock => rw [hlock, ← h.lock t, hin, hp']
      | releases _ hp' hfree => simp [hp', hfree]
    · rw [World.set_of_ne w ht, h.lock t']
      cases hlocking with
      | outside _ _ hlock => rw [hlock]
      | takes _ hfree hlock => simp [hfree, hlock, Ne.symm ht]
      | keeps _ _ hlock => rw [hlock]
      | releases hin _ hfree => simp [(h.lock t).1 hin, hfree, Ne.symm ht]

/-- Neither the server nor a delivery changes what the client relies on. -/
theorem World.Inv.of_shared {w : World} {s : Shared} (h : w.Inv) (hs : s.Inv)
    (hext : w.shared.Extends s) (hlock : s.lock = w.shared.lock)
    (hmanager : s.serverManagerImpl = w.shared.serverManagerImpl) :
    World.Inv { w with shared := s } :=
  ⟨hs, fun t => (h.threads t).mono hext fun _ => hmanager, fun t => by rw [hlock, ← h.lock t]⟩

theorem Call.Valid.begin {s : Shared} {c : Call} (h : c.Valid s) : c.begin.Inv s := by
  cases c with
  | getService id => trivial
  | transact i => exact h

theorem Pc.critical_of_ended {p : Pc} (h : p.ended = true) : p.critical = false := by
  cases p <;> simp_all [Pc.ended, Pc.critical]

theorem World.Inv.begin {w : World} (h : w.Inv) {t : ℕ} {c : Call}
    (hended : (w.threads t).ended = true) (hvalid : c.Valid w.shared) : (w.begin t c).Inv := by
  refine h.set h.shared hvalid.begin (.refl _)
    (.outside (Pc.critical_of_ended hended) ?_ rfl rfl)
  cases c <;> rfl

theorem Shared.Inv.started {s : Shared} (h : s.Inv) : s.started.Inv := by
  have hext := s.extends_started
  exact ⟨fun k hk => Nat.le_trans (h.manager k hk) hext.incarnation,
    fun i k hk => ⟨(h.binder i k hk).1, (h.binder i k hk).2.started⟩, h.installed,
    fun id i hi => (h.cache id i hi).mono hext⟩

theorem Shared.binderDied_serviceId (s : Shared) (r : DeathRecipient) (i : ℕ) :
    ((s.binderDied r).wrappers i).serviceId = (s.wrappers i).serviceId := by
  cases r with
  | manager => rfl
  | wrapper j =>
      by_cases hi : i = j
      · simp [binderDied, hi]
      · simp [binderDied, Function.update_of_ne hi]

theorem Shared.binderDied_remoteBinderImpl (s : Shared) (r : DeathRecipient) {i k : ℕ}
    (h : ((s.binderDied r).wrappers i).remoteBinderImpl = some k) :
    (s.wrappers i).remoteBinderImpl = some k := by
  cases r with
  | manager => exact h
  | wrapper j =>
      by_cases hi : i = j
      · simp [binderDied, hi] at h
      · simpa [binderDied, Function.update_of_ne hi] using h

theorem inv_step {w w' : World} {l : Label} (h : Step w l w') (hinv : w.Inv) : w'.Inv := by
  cases h with
  | begin hended hvalid => exact hinv.begin hended hvalid
  | @thread t queryOk s p hstep =>
      have heff := step_effect hstep
      have hp := hinv.threads t
      exact hinv.set (heff.shared hinv.shared hp) (heff.inv hinv.shared hp) (heff.extends hp)
        heff.locking
  | die =>
      have hext : w.shared.Extends { w.shared with alive := false } :=
        ⟨fun _ h => h, fun _ h => h.die, Nat.le_refl _, Nat.le_refl _, fun _ _ => rfl⟩
      have hs := hinv.shared
      exact hinv.of_shared
        ⟨hs.manager, fun i k hk => ⟨(hs.binder i k hk).1, (hs.binder i k hk).2.die⟩, hs.installed,
          fun id i hi => (hs.cache id i hi).mono hext⟩ hext rfl rfl
  | restart =>
      exact hinv.of_shared hinv.shared.started w.shared.extends_started rfl rfl
  | onCreate process halive hfirst =>
      have hext : w.shared.Extends (w.shared.onCreate process) :=
        ⟨fun _ h => h, fun _ h => h.onCreate hfirst process, Nat.le_refl _, Nat.le_refl _,
          fun _ _ => rfl⟩
      have hs := hinv.shared
      exact hinv.of_shared
        ⟨hs.manager,
          fun i k hk => ⟨(hs.binder i k hk).1, (hs.binder i k hk).2.onCreate hfirst process⟩,
          hs.installed, fun id i hi => (hs.cache id i hi).mono hext⟩ hext rfl rfl
  | @binderDied r k =>
      -- the recipient only loses its reference
      have hext : w.shared.Extends
          { w.shared.binderDied r with links := w.shared.links.erase (r, k) } :=
        ⟨fun _ h => h, fun _ h => ⟨h.le, h.inServer⟩, Nat.le_refl _, Nat.le_refl _,
          fun i _ => w.shared.binderDied_serviceId r i⟩
      have hs := hinv.shared
      refine hinv.of_shared ⟨hs.manager, ?_, ?_, ?_⟩ hext rfl rfl
      · intro i k hk
        have hold := hs.binder i k (w.shared.binderDied_remoteBinderImpl r hk)
        exact ⟨hold.1, hext.serves k hold.2⟩
      · intro i hi
        exact (hext.serviceId i hi).symm ▸ hs.installed i hi
      · intro id i hi
        exact (hs.cache id i hi).mono hext

theorem World.Inv.start (alive : Bool) : (start alive).Inv := by
  refine ⟨⟨?_, ?_, ?_, ?_⟩, fun t => trivial, fun t => ?_⟩ <;>
    simp [CrossProcess.start, Pc.critical]

end CrossProcess
