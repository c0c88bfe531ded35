import Mathlib.Logic.Relation
import TestActivity.CrossProcess.ServiceManager

/-!
# What `getService` returns

`ServiceManager` has the two registries of the code, in which the static block
of `ServiceList` installs the same services. Here the registries of the client
and of the server are any two, and a call of `getService` is followed through
both processes to the value it returns or the exception it throws. The manager is
asked at most once in a call; whether it knows then that it runs in the server
process is left open.

A `RemoteException` is caught in the client. The `IllegalArgumentException` of
the provider and the null dereference in `getInterface` are not.
`meets_iff` says when neither comes about.
-/

namespace CrossProcess

/-! ## The registries -/

/-- `mAllServices`. Only `Service.install` puts a service there, under an id in
the range. -/
structure Registry (σ : Type*) where
  find : ℤ → Option σ
  minId_le : ∀ {id : ℤ} {service : σ}, find id = some service → minId ≤ id
  le_maxId : ∀ {id : ℤ} {service : σ}, find id = some service → id ≤ maxId

variable {σ : Type*}

/-- A registry before anything is installed. -/
def Registry.empty : Registry σ := ⟨fun _ => none, nofun, nofun⟩

/-- `Service.install`; `none` is its `IllegalArgumentException`. -/
def Registry.install (r : Registry σ) (id : ℤ) (service : σ) : Option (Registry σ) :=
  if hrange : id < minId ∨ maxId < id then none
  else if (r.find id).isSome then none
  else
    some
      { find := Function.update r.find id (some service)
        minId_le := by
          intro id' service' h
          by_cases hid : id' = id
          · omega
          · rw [Function.update_of_ne hid] at h
            exact r.minId_le h
        le_maxId := by
          intro id' service' h
          by_cases hid : id' = id
          · omega
          · rw [Function.update_of_ne hid] at h
            exact r.le_maxId h }

/-- `getService` in `ServiceManagerProvider`, in incarnation `k` of the server;
`inServer` is what `App.runInServerProcess()` returns there. -/
def Registry.providerGetService (r : Registry σ) (inServer : Bool) (k : ℕ) (id : ℤ) : Answer :=
  if !inServer then .null
  else if id < minId ∨ maxId < id then .illegalArgument
  else
    match r.find id with
    | some _ => .binder k
    | none => .null

/-! ## The call -/

inductive Throwable where
  | remoteException
  | illegalArgument
  | nullPointer
deriving DecidableEq, Repr

/-- How `ServiceManager.getService` ends. An interface is one of the service that
made it, over a wrapper. -/
inductive Outcome (σ : Type*) where
  | threw (e : Throwable)
  | null
  | interface (service : σ) (wrapper : ℕ)
deriving DecidableEq, Repr

/-- The registry of the client, and the state of the server that an answer depends
on: of the incarnation that runs, or that a query starts, when it is asked. -/
structure Registries (σ : Type*) where
  client : Registry σ
  server : Registry σ
  /-- what `App.runInServerProcess()` returns in the server -/
  inServer : Bool

variable (r : Registries σ) (queryOk : Bool)

/-- The manager's `getService`, called on a binder of incarnation `k`. -/
def Registries.managerGetService (s : Shared) (k : ℕ) (id : ℤ) : Except Throwable (Option ℕ) :=
  if s.isAlive k then
    match r.server.providerGetService r.inServer k id with
    | .remoteException => .error .remoteException
    | .illegalArgument => .error .illegalArgument
    | .null => .ok none
    | .binder k' => .ok (some k')
  else .error .remoteException

/-- `getServerManagerService`. A query starts the server. -/
def getServerManagerService (s : Shared) : Shared × Option ℕ :=
  match s.serverManagerImpl with
  | some k => (s, some k)
  | none =>
      if queryOk then
        let k := s.started.incarnation
        ({ s.started with serverManagerImpl := some k }.linkToDeath .manager k, some k)
      else (s, none)

/-- `getOriginalService`. -/
def getOriginalService (s : Shared) (id : ℤ) : Shared × Except Throwable (Option ℕ) :=
  match getServerManagerService queryOk s with
  | (s', some k) => (s', r.managerGetService s' k id)
  | (s', none) => (s', .ok none)

/-- `ServiceManagerWrapper.getService`: the wrapper it makes. -/
def wrapperGetService (s : Shared) (id : ℤ) : Shared × Except Throwable (Option ℕ) :=
  match getOriginalService r queryOk s id with
  | (s', .ok (some k)) => (s'.newWrapper id k, .ok (some s'.next))
  | (s', .ok none) => (s', .ok none)
  | (s', .error e) => (s', .error e)

/-- `RemoteBinderWrapper.getRemoteBinder`. -/
def getRemoteBinder (s : Shared) (i : ℕ) : Shared × Except Throwable ℕ :=
  match (s.wrappers i).remoteBinderImpl with
  | some k => (s, .ok k)
  | none =>
      match getOriginalService r queryOk s (s.wrappers i).serviceId with
      | (s', .ok (some k)) => (s', .ok k)
      | (s', .ok none) => (s', .error .remoteException)
      | (s', .error e) => (s', .error e)

/-- `asInterface` of a service. A binder of another process has no local
interface, so that a proxy for the wrapper is made unless `queryLocalInterface`
throws; it catches a `RemoteException`. -/
def asInterface (s : Shared) (service : σ) (i : ℕ) : Shared × Outcome σ :=
  match getRemoteBinder r queryOk s i with
  | (s', .ok _) => (s', .interface service i)
  | (s', .error .remoteException) => (s', .interface service i)
  | (s', .error e) => (s', .threw e)

/-- `ServiceList.getInterface`. -/
def getInterface (s : Shared) (id : ℤ) (i : ℕ) : Shared × Outcome σ :=
  match r.client.find id with
  | some service => asInterface r queryOk s service i
  -- the `null` is logged, and then used
  | none => (s, .threw .nullPointer)

/-- `ServiceManager.getService`. -/
def getService (s : Shared) (id : ℤ) : Shared × Outcome σ :=
  match s.cache id with
  | some i => getInterface r queryOk s id i
  | none =>
      match wrapperGetService r queryOk s id with
      | (s', .ok (some i)) =>
          getInterface r queryOk { s' with cache := Function.update s'.cache id (some i) } id i
      | (s', .ok none) => (s', .null)
      | (s', .error .remoteException) => (s', .null)
      | (s', .error e) => (s', .threw e)

/-! ## What the manager answers -/

/-- The manager can be reached: its binder is one of the running server, or there
is none yet and the provider can be queried. -/
def Shared.Available (s : Shared) : Prop :=
  match s.serverManagerImpl with
  | some k => s.isAlive k = true
  | none => queryOk = true

/-- What `getOriginalService` comes to. -/
inductive Asked (s : Shared) (id : ℤ) : Except Throwable (Option ℕ) → Prop where
  | dead (havailable : ¬ s.Available queryOk) : Asked s id (.error .remoteException)
  | missing (havailable : ¬ s.Available queryOk) : Asked s id (.ok none)
  | notInServer (havailable : s.Available queryOk) (hserver : r.inServer = false) :
      Asked s id (.ok none)
  | outOfRange (havailable : s.Available queryOk) (hserver : r.inServer = true)
      (hrange : id < minId ∨ maxId < id) : Asked s id (.error .illegalArgument)
  | notInstalled (havailable : s.Available queryOk) (hserver : r.inServer = true)
      (hrange : minId ≤ id ∧ id ≤ maxId) (hfind : r.server.find id = none) :
      Asked s id (.ok none)
  | installed {service : σ} {k : ℕ} (havailable : s.Available queryOk)
      (hserver : r.inServer = true) (hfind : r.server.find id = some service) :
      Asked s id (.ok (some k))

/-- Fields that asking the manager leaves alone. -/
structure Shared.SameWrappers (s s' : Shared) : Prop where
  wrappers : s'.wrappers = s.wrappers
  next : s'.next = s.next
  cache : s'.cache = s.cache

variable {r queryOk} {s : Shared} {id : ℤ}

theorem getServerManagerService_same : s.SameWrappers (getServerManagerService queryOk s).1 := by
  unfold getServerManagerService
  split
  · exact ⟨rfl, rfl, rfl⟩
  · split
    · exact ⟨rfl, rfl, rfl⟩
    · exact ⟨rfl, rfl, rfl⟩

theorem getOriginalService_same : s.SameWrappers (getOriginalService r queryOk s id).1 := by
  have hsame : s.SameWrappers (getServerManagerService queryOk s).1 :=
    getServerManagerService_same
  unfold getOriginalService
  split
  · simp_all
  · simp_all

/-- A manager that is available is one that answers. -/
theorem getServerManagerService_available (h : s.Available queryOk) :
    ∃ s' k, getServerManagerService queryOk s = (s', some k) ∧ s'.isAlive k = true := by
  unfold Shared.Available at h
  unfold getServerManagerService
  rcases hmanager : s.serverManagerImpl with _ | k
  · rw [hmanager] at h
    simp only at h
    refine ⟨_, _, by rw [if_pos h], ?_⟩
    simp [Shared.linkToDeath, Shared.isAlive, Shared.started]
  · rw [hmanager] at h
    exact ⟨s, k, rfl, h⟩

theorem getServerManagerService_unavailable (h : ¬ s.Available queryOk) :
    getServerManagerService queryOk s = (s, none) ∨
      ∃ k, getServerManagerService queryOk s = (s, some k) ∧ s.isAlive k = false := by
  unfold Shared.Available at h
  unfold getServerManagerService
  rcases hmanager : s.serverManagerImpl with _ | k
  · rw [hmanager] at h
    left
    exact if_neg h
  · rw [hmanager] at h
    right
    exact ⟨k, rfl, by simpa using h⟩

theorem getOriginalService_asked (r : Registries σ) (queryOk : Bool) (s : Shared) (id : ℤ) :
    Asked r queryOk s id (getOriginalService r queryOk s id).2 := by
  unfold getOriginalService
  by_cases h : s.Available queryOk
  · rcases getServerManagerService_available h with ⟨s', k, hmanager, halive⟩
    rw [hmanager]
    simp only [Registries.managerGetService, halive, if_true, Registry.providerGetService]
    cases hserver : r.inServer with
    | false => exact .notInServer h hserver
    | true =>
        simp only [Bool.not_true, Bool.false_eq_true, if_false]
        by_cases hrange : id < minId ∨ maxId < id
        · rw [if_pos hrange]
          exact .outOfRange h hserver hrange
        · rw [if_neg hrange]
          rcases hfind : r.server.find id with _ | service
          · exact .notInstalled h hserver (by omega) hfind
          · exact .installed h hserver hfind
  · rcases getServerManagerService_unavailable h with hmanager | ⟨k, hmanager, hdead⟩
    · rw [hmanager]
      exact .missing h
    · rw [hmanager]
      simp only [Registries.managerGetService, hdead]
      exact .dead h

/-! ## The cache -/

/-- A cached wrapper is one of the id it is cached under, which is in the range:
the provider answered with a binder. -/
structure Shared.Caches (s : Shared) : Prop where
  made : ∀ {id : ℤ} {i : ℕ}, s.cache id = some i → i < s.next
  serviceId : ∀ {id : ℤ} {i : ℕ}, s.cache id = some i → (s.wrappers i).serviceId = id
  range : ∀ {id : ℤ} {i : ℕ}, s.cache id = some i → minId ≤ id ∧ id ≤ maxId

theorem Shared.Caches.same {s' : Shared} (h : s.Caches) (hsame : s.SameWrappers s') :
    s'.Caches := by
  rcases hsame with ⟨hwrappers, hnext, hcache⟩
  constructor
  case made =>
    intro id i hi
    rw [hnext]
    exact h.made (hcache ▸ hi)
  case serviceId =>
    intro id i hi
    rw [hwrappers]
    exact h.serviceId (hcache ▸ hi)
  case range =>
    intro id i hi
    exact h.range (hcache ▸ hi)

/-- A new wrapper is cached under its id. -/
theorem Shared.Caches.newWrapper (h : s.Caches) (hrange : minId ≤ id ∧ id ≤ maxId) (k : ℕ) :
    Shared.Caches { s.newWrapper id k with
      cache := Function.update (s.newWrapper id k).cache id (some s.next) } := by
  -- an entry is the new one, or was there before
  have hcases {id' : ℤ} {i : ℕ} (hi : Function.update s.cache id (some s.next) id' = some i) :
      (id' = id ∧ i = s.next) ∨ s.cache id' = some i := by
    by_cases hid : id' = id
    · left
      rw [hid, Function.update_self, Option.some.injEq] at hi
      exact ⟨hid, hi.symm⟩
    · right
      rwa [Function.update_of_ne hid] at hi
  constructor
  case made =>
    intro id' i hi
    show i < s.next + 1
    rcases hcases hi with ⟨_, rfl⟩ | hi
    · omega
    · have hlt := h.made hi
      omega
  case serviceId =>
    intro id' i hi
    show (Function.update s.wrappers s.next ⟨id, some k⟩ i).serviceId = id'
    rcases hcases hi with ⟨rfl, rfl⟩ | hi
    · rw [Function.update_self]
    · have hlt := h.made hi
      rw [Function.update_of_ne (by omega)]
      exact h.serviceId hi
  case range =>
    intro id' i hi
    rcases hcases hi with ⟨rfl, _⟩ | hi
    · exact hrange
    · exact h.range hi

theorem getRemoteBinder_same (i : ℕ) : s.SameWrappers (getRemoteBinder r queryOk s i).1 := by
  have hsame : s.SameWrappers
      (getOriginalService r queryOk s (s.wrappers i).serviceId).1 := getOriginalService_same
  unfold getRemoteBinder
  split
  · exact ⟨rfl, rfl, rfl⟩
  · split <;> simp_all

theorem getInterface_same (i : ℕ) : s.SameWrappers (getInterface r queryOk s id i).1 := by
  have hsame : s.SameWrappers (getRemoteBinder r queryOk s i).1 := getRemoteBinder_same i
  unfold getInterface asInterface
  split
  · split <;> simp_all
  · exact ⟨rfl, rfl, rfl⟩

/-- What `ServiceManagerWrapper.getService` comes to: a binder it obtained is
wrapped. -/
theorem wrapperGetService_cases (r : Registries σ) (queryOk : Bool) (s : Shared) (id : ℤ) :
    (∃ s' a, s.SameWrappers s' ∧ wrapperGetService r queryOk s id = (s', a) ∧
        Asked r queryOk s id a ∧ ∀ k, a ≠ .ok (some k)) ∨
      ∃ s' service k, s.SameWrappers s' ∧ s.Available queryOk ∧ r.inServer = true ∧
        r.server.find id = some service ∧
        wrapperGetService r queryOk s id = (s'.newWrapper id k, .ok (some s.next)) := by
  have hsame : s.SameWrappers (getOriginalService r queryOk s id).1 := getOriginalService_same
  have hasked := getOriginalService_asked r queryOk s id
  unfold wrapperGetService
  rcases hget : getOriginalService r queryOk s id with ⟨s', a⟩
  rw [hget] at hsame hasked
  rcases a with e | _ | k
  · left
    exact ⟨s', .error e, hsame, rfl, hasked, by simp⟩
  · left
    exact ⟨s', .ok none, hsame, rfl, hasked, by simp⟩
  · right
    rcases hasked with _ | _ | _ | _ | _ | ⟨havailable, hserver, hfind⟩
    have hnext : s'.next = s.next := hsame.next
    exact ⟨s', _, k, hsame, havailable, hserver, hfind, by rw [← hnext]⟩

/-- Every call keeps the cache in order. -/
theorem Shared.Caches.getService (h : s.Caches) : (getService r queryOk s id).1.Caches := by
  unfold CrossProcess.getService
  split
  · exact h.same (getInterface_same _)
  · rcases wrapperGetService_cases r queryOk s id with
      ⟨s', a, hsame, hget, _, hne⟩ | ⟨s', service, k, hsame, _, _, hfind, hget⟩
    · rw [hget]
      rcases a with e | _ | k
      · rcases e
        all_goals exact h.same hsame
      · exact h.same hsame
      · exact absurd rfl (hne k)
    · rw [hget]
      have hcaches := (h.same hsame).newWrapper ⟨r.server.minId_le hfind, r.server.le_maxId hfind⟩ k
      rw [hsame.next] at hcaches
      exact hcaches.same (getInterface_same _)

/-- The fields of the client between two calls. -/
structure Client where
  shared : Shared
  caches : shared.Caches

/-- A client that has not called anything yet. -/
def Client.start (alive : Bool) : Client :=
  ⟨(CrossProcess.start alive).shared, ⟨nofun, nofun, nofun⟩⟩

/-- `ServiceManager.getService`, called in the UI process. -/
def Client.getService (r : Registries σ) (queryOk : Bool) (c : Client) (id : ℤ) :
    Client × Outcome σ :=
  (⟨(CrossProcess.getService r queryOk c.shared id).1, c.caches.getService⟩,
    (CrossProcess.getService r queryOk c.shared id).2)

/-! ## What is returned -/

/-- An interface is made of a wrapper whose id is in the range: the client's
service is found or not. -/
theorem getInterface_of_range {i : ℕ}
    (hrange : minId ≤ (s.wrappers i).serviceId ∧ (s.wrappers i).serviceId ≤ maxId) :
    (getInterface r queryOk s id i).2 =
      match r.client.find id with
      | some service => .interface service i
      | none => .threw .nullPointer := by
  have hasked := getOriginalService_asked r queryOk s (s.wrappers i).serviceId
  unfold getInterface
  rcases r.client.find id with _ | service
  · rfl
  · simp only [asInterface, getRemoteBinder]
    rcases (s.wrappers i).remoteBinderImpl with _ | k
    · rcases hget : getOriginalService r queryOk s (s.wrappers i).serviceId with ⟨s', a⟩
      rw [hget] at hasked
      rcases hasked with _ | _ | _ | ⟨_, _, hout⟩ | _ | _
      · rfl
      · rfl
      · rfl
      · omega
      · rfl
      · rfl
    · rfl

theorem getService_cached (h : s.Caches) {i : ℕ} (hcache : s.cache id = some i) :
    (getService r queryOk s id).2 =
      match r.client.find id with
      | some service => .interface service i
      | none => .threw .nullPointer := by
  unfold getService
  rw [hcache]
  apply getInterface_of_range
  rw [h.serviceId hcache]
  exact h.range hcache

/-- The end of a call that has to ask the manager. -/
inductive Uncached (r : Registries σ) (queryOk : Bool) (s : Shared) (id : ℤ) : Outcome σ → Prop
  where
  | unavailable (havailable : ¬ s.Available queryOk) : Uncached r queryOk s id .null
  | notInServer (havailable : s.Available queryOk) (hserver : r.inServer = false) :
      Uncached r queryOk s id .null
  | outOfRange (havailable : s.Available queryOk) (hserver : r.inServer = true)
      (hrange : id < minId ∨ maxId < id) : Uncached r queryOk s id (.threw .illegalArgument)
  | notInstalled (havailable : s.Available queryOk) (hserver : r.inServer = true)
      (hrange : minId ≤ id ∧ id ≤ maxId) (hfind : r.server.find id = none) :
      Uncached r queryOk s id .null
  | notInClient {service : σ} (havailable : s.Available queryOk) (hserver : r.inServer = true)
      (hfind : r.server.find id = some service) (hclient : r.client.find id = none) :
      Uncached r queryOk s id (.threw .nullPointer)
  | wrapped {service service' : σ} (havailable : s.Available queryOk) (hserver : r.inServer = true)
      (hfind : r.server.find id = some service) (hclient : r.client.find id = some service') :
      Uncached r queryOk s id (.interface service' s.next)

theorem getService_uncached (hcache : s.cache id = none) :
    Uncached r queryOk s id (getService r queryOk s id).2 := by
  unfold getService
  rw [hcache]
  rcases wrapperGetService_cases r queryOk s id with
    ⟨s', a, _, hget, hasked, hne⟩ | ⟨s', service, k, hsame, havailable, hserver, hfind, hget⟩
  · -- no binder was obtained
    simp only [hget]
    rcases hasked with havailable | havailable | ⟨havailable, hserver⟩ |
      ⟨havailable, hserver, hrange⟩ | ⟨havailable, hserver, hrange, hfind⟩ | _
    · exact .unavailable havailable
    · exact .unavailable havailable
    · exact .notInServer havailable hserver
    · exact .outOfRange havailable hserver hrange
    · exact .notInstalled havailable hserver hrange hfind
    · exact absurd rfl (hne _)
  · -- the new wrapper has the id, which is in the range because the server has it
    simp only [hget]
    rw [getInterface_of_range]
    · rcases hclient : r.client.find id with _ | service'
      · exact .notInClient havailable hserver hfind hclient
      · exact .wrapped havailable hserver hfind hclient
    · simp only [Shared.newWrapper, Shared.linkToDeath, ← hsame.next, Function.update_self]
      exact ⟨r.server.minId_le hfind, r.server.le_maxId hfind⟩

/-- An interface is made over the wrapper that it was asked for. -/
theorem getInterface_wrapper {i j : ℕ} {service : σ}
    (h : (getInterface r queryOk s id i).2 = .interface service j) : j = i := by
  unfold getInterface asInterface at h
  split at h
  · split at h
    · cases h
      rfl
    · cases h
      rfl
    · cases h
  · cases h

/-- What is returned is in the cache. -/
theorem getService_interface {i : ℕ} {service : σ}
    (h : (getService r queryOk s id).2 = .interface service i) :
    (getService r queryOk s id).1.cache id = some i := by
  unfold getService at h ⊢
  rcases hcache : s.cache id with _ | j
  · simp only [hcache] at h ⊢
    rcases wrapperGetService_cases r queryOk s id with
      ⟨s', a, _, hget, _, hne⟩ | ⟨s', service', k, _, _, _, _, hget⟩
    · rw [hget] at h
      rcases a with e | _ | k
      · rcases e <;> cases h
      · cases h
      · exact absurd rfl (hne k)
    · rw [hget] at h ⊢
      obtain rfl := getInterface_wrapper h
      rw [(getInterface_same _).cache]
      exact Function.update_self ..
  · simp only [hcache] at h ⊢
    obtain rfl := getInterface_wrapper h
    rw [(getInterface_same _).cache, hcache]

/-- `getService` as it should be: nothing is thrown, what is returned is the
interface of the service that the server has under the id, and it is `null` for
an id out of the range, an id without a service, a dead manager and a missing
one. -/
structure Meets (r : Registries σ) (queryOk : Bool) (c : Client) (id : ℤ) : Prop where
  not_thrown : ∀ e, (c.getService r queryOk id).2 ≠ .threw e
  interface : ∀ service i, (c.getService r queryOk id).2 = .interface service i →
    r.server.find id = some service ∧
      ((c.getService r queryOk id).1.shared.wrappers i).serviceId = id
  outOfRange : id < minId ∨ maxId < id → (c.getService r queryOk id).2 = .null
  notInstalled : r.server.find id = none → (c.getService r queryOk id).2 = .null
  dead : ∀ k, c.shared.serverManagerImpl = some k → c.shared.isAlive k = false →
    (c.getService r queryOk id).2 = .null
  missing : c.shared.serverManagerImpl = none → queryOk = false →
    (c.getService r queryOk id).2 = .null

/-- A manager that cannot be reached is dead or missing. -/
theorem Meets.unavailable {c : Client} (h : Meets r queryOk c id)
    (havailable : ¬ c.shared.Available queryOk) : (c.getService r queryOk id).2 = .null := by
  unfold Shared.Available at havailable
  rcases hmanager : c.shared.serverManagerImpl with _ | k
  · rw [hmanager] at havailable
    exact h.missing hmanager (by simpa using havailable)
  · rw [hmanager] at havailable
    exact h.dead k hmanager (by simpa using havailable)

/-- Where the call ends in `null`, or in the interface of the service in the
server, which can then be asked. -/
theorem meets_of_outcome {c : Client}
    (h : (c.getService r queryOk id).2 = .null ∨
      ∃ service i, (c.getService r queryOk id).2 = .interface service i ∧
        r.server.find id = some service ∧ c.shared.Available queryOk) :
    Meets r queryOk c id := by
  rcases h with h | ⟨service, i, h, hfind, havailable⟩
  · exact ⟨by simp [h], by simp [h], fun _ => h, fun _ => h, fun _ _ _ => h, fun _ _ => h⟩
  · constructor
    case not_thrown => simp [h]
    case interface =>
      intro service' j hj
      obtain ⟨rfl, rfl⟩ : service = service' ∧ i = j := by simpa [h] using hj
      exact ⟨hfind, (c.getService r queryOk id).1.caches.serviceId (getService_interface h)⟩
    case outOfRange =>
      intro hout
      have hmin := r.server.minId_le hfind
      have hmax := r.server.le_maxId hfind
      omega
    case notInstalled =>
      intro hnone
      simp [hnone] at hfind
    case dead =>
      intro k hmanager hdead
      simp [Shared.Available, hmanager, hdead] at havailable
    case missing =>
      intro hmanager hquery
      simp [Shared.Available, hmanager, hquery] at havailable

/-- The client has the service that the server has. -/
def Registries.AgreeAt (r : Registries σ) (id : ℤ) : Prop :=
  ∀ service, r.server.find id = some service → r.client.find id = some service

/-- A manager that can be reached, of a process that knows it is the server. -/
def Answers (r : Registries σ) (queryOk : Bool) (s : Shared) : Prop :=
  s.Available queryOk ∧ r.inServer = true

theorem meets_uncached {c : Client} (hcache : c.shared.cache id = none) :
    Meets r queryOk c id ↔
      (Answers r queryOk c.shared → (minId ≤ id ∧ id ≤ maxId) ∧ r.AgreeAt id) := by
  have huncached : Uncached r queryOk c.shared id (c.getService r queryOk id).2 :=
    getService_uncached hcache
  constructor
  · rintro h ⟨havailable, hserver⟩
    rcases hend : (c.getService r queryOk id).2 with e | _ | ⟨service, i⟩
    · exact absurd hend (h.not_thrown e)
    · rw [hend] at huncached
      rcases huncached with hnot | ⟨_, hnot⟩ | _ | ⟨_, _, hrange, hfind⟩ | _ | _
      · exact absurd havailable hnot
      · simp [hserver] at hnot
      · refine ⟨hrange, ?_⟩
        intro service hservice
        simp [hfind] at hservice
    · have hfound := (h.interface service i hend).1
      rw [hend] at huncached
      rcases huncached with _ | _ | _ | _ | _ | ⟨_, _, _, hclient⟩
      refine ⟨⟨r.server.minId_le hfound, r.server.le_maxId hfound⟩, ?_⟩
      intro service' hservice'
      rw [hclient, ← hfound, hservice']
  · intro hgood
    -- the two ends that throw are excluded
    apply meets_of_outcome
    rcases hend : (c.getService r queryOk id).2 with e | _ | ⟨service, i⟩
    · rw [hend] at huncached
      rcases huncached with _ | _ | ⟨havailable, hserver, hrange⟩ | _ |
        ⟨havailable, hserver, hfind, hclient⟩ | _
      · have hin := (hgood ⟨havailable, hserver⟩).1
        omega
      · have hfound := (hgood ⟨havailable, hserver⟩).2 _ hfind
        simp [hclient] at hfound
    · exact Or.inl rfl
    · right
      rw [hend] at huncached
      rcases huncached with _ | _ | _ | _ | _ | ⟨havailable, hserver, hfind, hclient⟩
      have hfound := (hgood ⟨havailable, hserver⟩).2 _ hfind
      rw [hclient, Option.some.injEq] at hfound
      exact ⟨service, _, rfl, hfound ▸ hfind, havailable⟩

theorem meets_cached {c : Client} {i : ℕ} (hcache : c.shared.cache id = some i) :
    Meets r queryOk c id ↔
      c.shared.Available queryOk ∧ r.server.find id ≠ none ∧ r.AgreeAt id := by
  have hend : (c.getService r queryOk id).2 = _ := getService_cached c.caches hcache
  rcases hclient : r.client.find id with _ | service
  · -- the server cannot have the service alone
    rw [hclient] at hend
    constructor
    · intro h
      exact absurd hend (h.not_thrown _)
    · rintro ⟨_, hne, hagree⟩
      rcases hserver : r.server.find id with _ | service
      · exact absurd hserver hne
      · simp [hagree service hserver] at hclient
  · rw [hclient] at hend
    constructor
    · intro h
      have hserver := (h.interface service i hend).1
      refine ⟨?_, by simp [hserver], ?_⟩
      · -- what is cached is returned even if the manager cannot be reached
        by_contra havailable
        simp [h.unavailable havailable] at hend
      · intro service' hservice'
        rw [hclient, ← hserver, hservice']
    · rintro ⟨havailable, hne, hagree⟩
      apply meets_of_outcome
      right
      rcases hserver : r.server.find id with _ | service'
      · exact absurd hserver hne
      · have hfound := hagree service' hserver
        rw [hclient, Option.some.injEq] at hfound
        exact ⟨service, i, hend, by rw [hfound], havailable⟩

/-- `getService` does as it should if and only if, where the id is not cached and the
manager answers, the id is in the range and the client has the service that the
server has under it; and where the id is cached, the manager can be reached, the
server has a service under it, and the client has the same. -/
theorem meets_iff (r : Registries σ) (queryOk : Bool) (c : Client) (id : ℤ) :
    Meets r queryOk c id ↔
      (c.shared.cache id = none → Answers r queryOk c.shared →
        (minId ≤ id ∧ id ≤ maxId) ∧ r.AgreeAt id) ∧
      (c.shared.cache id ≠ none →
        c.shared.Available queryOk ∧ r.server.find id ≠ none ∧ r.AgreeAt id) := by
  rcases hcache : c.shared.cache id with _ | i
  · rw [meets_uncached hcache]
    simp
  · rw [meets_cached hcache]
    simp

/-! ## The services of `ServiceList` -/

/-- The registry of every process; a service is named by its id. -/
def installed : Registry ℤ where
  find := fun id => if allServices id then some id else none
  minId_le := by
    intro id service h
    simp only [allServices, Bool.or_eq_true, beq_iff_eq, Option.ite_none_right_eq_some] at h
    simp only [minId]
    omega
  le_maxId := by
    intro id service h
    simp only [allServices, Bool.or_eq_true, beq_iff_eq, Option.ite_none_right_eq_some] at h
    simp only [maxId]
    omega

/-- The static block of `ServiceList`; `none`: `install` has thrown. -/
def staticBlock : Option (Registry ℤ) :=
  (Registry.empty.install 0 0).bind (Registry.install · 1 1)

theorem staticBlock_eq : staticBlock = some installed := by
  have hfind : Function.update (Function.update (fun _ => none) 0 (some (0 : ℤ))) 1 (some 1) =
      installed.find := by
    funext id
    by_cases h1 : id = 1
    · rw [h1]
      rfl
    · by_cases h0 : id = 0
      · rw [h0]
        rfl
      · rw [Function.update_of_ne h1, Function.update_of_ne h0]
        simp [installed, allServices, h0, h1]
  simp only [staticBlock, Registry.install, Registry.empty, minId, maxId]
  simp [hfind]

/-- The registries of the code. -/
def bothInstalled (inServer : Bool) : Registries ℤ := ⟨installed, installed, inServer⟩

/-- An id above the range makes a server that knows what it is throw into the client. -/
theorem not_meets_outOfRange : ¬ Meets (bothInstalled true) true (Client.start true) 2000 := by
  intro h
  apply h.not_thrown .illegalArgument
  rfl

/-- With the registries that the static block makes in both processes an id that is
not cached is wrong only where it is out of the range. -/
theorem meets_staticBlock {r : Registries ℤ} (hclient : staticBlock = some r.client)
    (hserver : staticBlock = some r.server) {c : Client} (hcache : c.shared.cache id = none) :
    Meets r queryOk c id ↔ (Answers r queryOk c.shared → minId ≤ id ∧ id ≤ maxId) := by
  have hsame : r.client = r.server := Option.some.inj (hclient.symm.trans hserver)
  have hagree : r.AgreeAt id := by
    intro service hservice
    rw [hsame, hservice]
  rw [meets_uncached hcache]
  simp [hagree]

/-! ## A thread that is alone -/

/-- The thread `t` goes on, and nobody else does. -/
def Moves (t : ℕ) (queryOk : Bool) : Shared × Pc → Shared × Pc → Prop :=
  Relation.ReflTransGen fun a b => step a.1 t queryOk a.2 = some b

theorem moves_step {t : ℕ} {s s' : Shared} {p p' : Pc} {b : Shared × Pc}
    (h : step s t queryOk p = some (s', p')) (hrest : Moves t queryOk (s', p') b) :
    Moves t queryOk (s, p) b :=
  Relation.ReflTransGen.head h hrest

/-- Where a thread gets to that has asked the manager. -/
def Goal.asked (g : Goal) : Except Throwable (Option ℕ) → Pc
  | .ok (some k) => g.obtained k
  | .ok none => g.failed
  | .error .remoteException => g.failed
  | .error _ => .threw g.call

variable {inServer : Bool}

/-- A server that can be asked at once is one that need not be started. -/
theorem Shared.started_runInServerProcess {k : ℕ} (h : s.isAlive k = true) :
    s.started.runInServerProcess = s.runInServerProcess := by
  simp only [isAlive, Bool.and_eq_true] at h
  simp [runInServerProcess, started, h.1]

theorem managerGetService_bothInstalled (s : Shared)
    (hserver : s.started.runInServerProcess = inServer) (k : ℕ) (id : ℤ) (g : Goal) :
    g.asked ((bothInstalled inServer).managerGetService s k id) =
      match s.managerGetService k id with
      | .remoteException => g.failed
      | .illegalArgument => .threw g.call
      | .null => g.failed
      | .binder k' => g.obtained k' := by
  unfold Registries.managerGetService Shared.managerGetService
  by_cases halive : s.isAlive k = true
  · rw [Shared.started_runInServerProcess halive] at hserver
    simp only [halive, if_true, Registry.providerGetService, providerGetService, bothInstalled,
      hserver]
    cases inServer with
    | false => rfl
    | true =>
        simp only [Bool.not_true, Bool.false_eq_true, if_false]
        by_cases hrange : id < minId ∨ maxId < id
        · simp only [hrange, if_true]
          rfl
        · simp only [hrange, if_false, installed]
          by_cases hid : allServices id = true
          · simp only [hid, if_true]
            rfl
          · simp only [hid]
            rfl
  · simp only [halive]
    rfl

theorem step_calling (s : Shared) (hserver : s.started.runInServerProcess = inServer) (t : ℕ)
    (g : Goal) (k : ℕ) :
    step s t queryOk (.calling g k) =
      some (s, g.asked ((bothInstalled inServer).managerGetService s k (g.serviceId s))) := by
  rw [managerGetService_bothInstalled s hserver]
  simp only [step]
  rcases s.managerGetService k (g.serviceId s) with _ | _ | _ | k' <;> rfl

theorem Goal.serviceId_same {s' : Shared} (hsame : s.SameWrappers s') (g : Goal) :
    g.serviceId s' = g.serviceId s := by
  unfold Goal.serviceId
  rw [hsame.wrappers]

/-- Nobody runs `App.onCreate` meanwhile. -/
theorem getServerManagerService_inServer :
    (getServerManagerService queryOk s).1.started.runInServerProcess =
      s.started.runInServerProcess := by
  unfold getServerManagerService
  rcases s.serverManagerImpl with _ | k
  · rcases queryOk with _ | _
    · rfl
    · simp [Shared.linkToDeath, Shared.started, Shared.runInServerProcess]
  · rfl

theorem getOriginalService_inServer :
    (getOriginalService r queryOk s id).1.started.runInServerProcess =
      s.started.runInServerProcess := by
  have hsame : (getServerManagerService queryOk s).1.started.runInServerProcess =
      s.started.runInServerProcess := getServerManagerService_inServer
  unfold getOriginalService
  split <;> simp_all

/-- A thread that is alone asks the manager as `getOriginalService` does. -/
theorem moves_original {t : ℕ} (hlock : s.lock = none)
    (hserver : s.started.runInServerProcess = inServer) (g : Goal) {b : Shared × Pc}
    (hrest : Moves t queryOk
      ((getOriginalService (bothInstalled inServer) queryOk s (g.serviceId s)).1,
        g.asked (getOriginalService (bothInstalled inServer) queryOk s (g.serviceId s)).2) b) :
    Moves t queryOk (s, .getServerManagerService g) b := by
  have hcalling {s' : Shared} {k : ℕ} (hsame : s.SameWrappers s')
      (hserver' : s'.started.runInServerProcess = inServer) (hrest : Moves t queryOk
        (s', g.asked ((bothInstalled inServer).managerGetService s' k (g.serviceId s))) b) :
      Moves t queryOk (s', .calling g k) b := by
    rw [← Goal.serviceId_same hsame] at hrest
    exact moves_step (step_calling s' hserver' t g k) hrest
  have hsame : s.SameWrappers (getServerManagerService queryOk s).1 :=
    getServerManagerService_same
  have hserver' : (getServerManagerService queryOk s).1.started.runInServerProcess = inServer :=
    getServerManagerService_inServer.trans hserver
  unfold getOriginalService at hrest
  unfold getServerManagerService at hrest hsame hserver'
  rcases hmanager : s.serverManagerImpl with _ | k
  · simp only [hmanager] at hrest hsame hserver'
    have hquery : step s t queryOk (.queryService g) =
        some ({ s with lock := some t }, .querying g) := by
      simp [step, hlock, hmanager]
    have hstart : step s t queryOk (.getServerManagerService g) =
        some (s, .queryService g) := by
      simp [step, hmanager]
    refine moves_step hstart ?_
    refine moves_step hquery ?_
    -- the lock is given back
    rcases s with ⟨incarnation, alive, processType, manager, lock, wrappers, next, cache, links⟩
    obtain rfl : lock = none := hlock
    rcases queryOk with _ | _
    · exact moves_step rfl hrest
    · refine moves_step rfl (moves_step rfl (moves_step rfl ?_))
      exact hcalling hsame hserver' hrest
  · simp only [hmanager] at hrest hsame
    have hstart : step s t queryOk (.getServerManagerService g) = some (s, .calling g k) := by
      simp [step, hmanager]
    exact moves_step hstart (hcalling hsame hserver hrest)

/-- Where a call has ended. -/
def Outcome.pc (id : ℤ) : Outcome σ → Pc
  | .threw _ => .threw (.getService id)
  | .null => .returned id none
  | .interface _ i => .returned id (some i)

theorem find_bothInstalled (h : allServices id = true) :
    (bothInstalled inServer).client.find id = some id := by
  simp [bothInstalled, installed, h]

theorem find_bothInstalled_none (h : allServices id = false) :
    (bothInstalled inServer).client.find id = none := by
  simp [bothInstalled, installed, h]

theorem moves_interface {t : ℕ} (hlock : s.lock = none)
    (hserver : s.started.runInServerProcess = inServer) (id : ℤ) (i : ℕ) :
    Moves t queryOk (s, .getInterface id i)
      ((getInterface (bothInstalled inServer) queryOk s id i).1,
        (getInterface (bothInstalled inServer) queryOk s id i).2.pc id) := by
  unfold getInterface
  rcases hid : allServices id with _ | _
  · rw [find_bothInstalled_none hid]
    exact moves_step (by simp [step, hid]; rfl) .refl
  · rw [find_bothInstalled hid]
    simp only [asInterface, getRemoteBinder]
    rcases hbinder : (s.wrappers i).remoteBinderImpl with _ | k
    · have hstart : step s t queryOk (.getInterface id i) =
          some (s, .getServerManagerService (.queryLocalInterface id i)) := by
        simp [step, hid, hbinder]
      refine moves_step hstart ?_
      apply moves_original hlock hserver
      simp only [Goal.serviceId]
      rcases getOriginalService (bothInstalled inServer) queryOk s (s.wrappers i).serviceId with
        ⟨s', e | _ | k⟩
      · rcases e <;> exact .refl
      · exact .refl
      · exact .refl
    · exact moves_step (by simp [step, hid, hbinder]; rfl) .refl

theorem getOriginalService_lock : (getOriginalService r queryOk s id).1.lock = s.lock := by
  unfold getOriginalService getServerManagerService
  rcases s.serverManagerImpl with _ | k
  · rcases queryOk <;> rfl
  · rfl

theorem moves_bothInstalled {t : ℕ} (hlock : s.lock = none)
    (hserver : s.started.runInServerProcess = inServer) (id : ℤ) :
    Moves t queryOk (s, .getService id)
      ((getService (bothInstalled inServer) queryOk s id).1,
        (getService (bothInstalled inServer) queryOk s id).2.pc id) := by
  unfold getService
  rcases hcache : s.cache id with _ | i
  · have hstart : step s t queryOk (.getService id) =
        some (s, .getServerManagerService (.getService id)) := by
      simp [step, hcache]
    refine moves_step hstart ?_
    apply moves_original hlock hserver
    -- the lookup of the manager has left the server as it was, and the lock free
    have hserver' : (getOriginalService (bothInstalled inServer) queryOk s
        id).1.started.runInServerProcess = inServer := getOriginalService_inServer.trans hserver
    have hlock' : (getOriginalService (bothInstalled inServer) queryOk s id).1.lock = s.lock :=
      getOriginalService_lock
    simp only [Goal.serviceId, wrapperGetService]
    rcases hget : getOriginalService (bothInstalled inServer) queryOk s id with ⟨s', e | _ | k⟩
    · rcases e <;> exact .refl
    · exact .refl
    · rw [hget, hlock] at hlock'
      rw [hget] at hserver'
      refine moves_step rfl (moves_step rfl ?_)
      apply moves_interface
      · exact hlock'
      · exact hserver'
  · have hstart : step s t queryOk (.getService id) = some (s, .getInterface id i) := by
      simp [step, hcache]
    exact moves_step hstart (moves_interface hlock hserver id i)

/-- A thread that is alone does what `getService` does, with the registries that the
static block makes, and a server that is asked as it is found or started. -/
theorem moves_getService {r : Registries ℤ} (hclient : staticBlock = some r.client)
    (hserver : staticBlock = some r.server) (hin : s.started.runInServerProcess = r.inServer)
    {t : ℕ} (hlock : s.lock = none) (id : ℤ) :
    Moves t queryOk (s, .getService id)
      ((getService r queryOk s id).1, (getService r queryOk s id).2.pc id) := by
  rcases r with ⟨client, server, inServer⟩
  obtain rfl : installed = client := Option.some.inj (staticBlock_eq.symm.trans hclient)
  obtain rfl : installed = server := Option.some.inj (staticBlock_eq.symm.trans hserver)
  exact moves_bothInstalled hlock hin id

end CrossProcess
