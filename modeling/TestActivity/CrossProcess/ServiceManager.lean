import Mathlib.Data.Int.Notation
import Mathlib.Logic.Function.Basic
import Mathlib.Tactic.Common

/-!
# `ServiceManager`

The client keeps binders of the server process in three places: the manager in
`mServerManagerImpl`, the wrapper of a service in `sCache`, and in the wrapper's
`mRemoteBinderImpl` the binder of the service. A binder belongs to one
incarnation of the server and is of no use once that incarnation is dead.

`getService` and the `transact` of a wrapper are modelled with the steps in which
they read or write one of these, so that the threads of the client, the server
and the deliveries of `binderDied` interleave in any way.

A process publishes its providers before `App.onCreate` has run. So an
incarnation of the server can be asked while it does not know yet that it is the
server process, and then answers `null`.
-/

namespace CrossProcess

/-! ## The server -/

/-- `ServiceList.MIN_ID`. -/
def minId : ℤ := 0

/-- `ServiceList.MAX_ID`. -/
def maxId : ℤ := 1024

/-- The ids in `mAllServices`: the static block of `ServiceList` installs
`StopPackageService` and `TransactionLargeService` in every process. -/
def allServices (id : ℤ) : Bool := id == 0 || id == 1

/-- What a call of a binder of incarnation `k` leads to in the client. -/
inductive Answer where
  | remoteException
  | illegalArgument
  | null
  | binder (k : ℕ)
deriving DecidableEq, Repr

/-- The values of `App.sCurProcessType`. -/
inductive ProcessType where
  | unknown
  | server
  | ui
deriving DecidableEq, Repr

/-- `App.initProcessType`, with what `Util.getCurrentProcessName` returns. -/
def initProcessType (process : Option (List Char)) : ProcessType :=
  match process with
  | none => .unknown
  | some process =>
      if !("com.zero".toList.isPrefixOf process) then .unknown
      else if ":server".toList.isSuffixOf process then .server
      else .ui

/-- `getService` in `ServiceManagerProvider`, in incarnation `k` of the server;
`inServer` is what `App.runInServerProcess()` returns there. -/
def providerGetService (inServer : Bool) (k : ℕ) (id : ℤ) : Answer :=
  if !inServer then .null
  else if id < minId ∨ maxId < id then .illegalArgument
  else if allServices id then .binder k
  else .null

theorem providerGetService_installed {id : ℤ} (hid : allServices id = true) (k : ℕ) :
    providerGetService true k id = .binder k := by
  have hrange : ¬ (id < minId ∨ maxId < id) := by
    simp only [allServices, Bool.or_eq_true, beq_iff_eq] at hid
    simp only [minId, maxId]
    omega
  simp [providerGetService, hrange, hid]

/-! ## The client -/

/-- `RemoteBinderWrapper`; a binder is the incarnation it was obtained from. -/
structure RemoteBinderWrapper where
  serviceId : ℤ
  remoteBinderImpl : Option ℕ
deriving DecidableEq, Repr

/-- Who is told of a death. -/
inductive DeathRecipient where
  | manager
  | wrapper (i : ℕ)
deriving DecidableEq, Repr

/-- The server, and the fields that the threads of the client share. -/
structure Shared where
  /-- the last incarnation of the server -/
  incarnation : ℕ
  alive : Bool
  /-- what `App.onCreate` has made of `sCurProcessType` in the last incarnation;
  `none`: it has not run yet, and the field is `PROCESS_TYPE_UNKOWN` -/
  curProcessType : Option ProcessType
  /-- `mServerManagerImpl` -/
  serverManagerImpl : Option ℕ
  /-- the thread in `queryService`, which is `synchronized` -/
  lock : Option ℕ
  /-- the wrappers made so far are those below `next` -/
  wrappers : ℕ → RemoteBinderWrapper
  next : ℕ
  /-- `sCache` -/
  cache : ℤ → Option ℕ
  /-- registered by `linkToDeath` and not told yet -/
  links : List (DeathRecipient × ℕ)

namespace Shared

variable (s : Shared)

/-- A binder of incarnation `k` can be called. -/
def isAlive (k : ℕ) : Bool := s.alive && k == s.incarnation

/-- `App.runInServerProcess()`, in the last incarnation. -/
def runInServerProcess : Bool := s.curProcessType == some .server

/-- The server is started if it is not running. -/
def started : Shared :=
  { s with
    incarnation := if s.alive then s.incarnation else s.incarnation + 1
    alive := true
    curProcessType := if s.alive then s.curProcessType else none }

/-- `App.onCreate` in the last incarnation. -/
def onCreate (process : Option (List Char)) : Shared :=
  { s with curProcessType := some (initProcessType process) }

/-- `linkToDeath`; the `RemoteException` of a dead binder is caught. -/
def linkToDeath (r : DeathRecipient) (k : ℕ) : Shared :=
  { s with links := if s.isAlive k then (r, k) :: s.links else s.links }

/-- `new RemoteBinderWrapper(serviceId, binder)`. -/
def newWrapper (id : ℤ) (k : ℕ) : Shared :=
  { s with
    wrappers := Function.update s.wrappers s.next ⟨id, some k⟩
    next := s.next + 1 }.linkToDeath (.wrapper s.next) k

/-- `binderDied`. The manager only logs it. -/
def binderDied (r : DeathRecipient) : Shared :=
  { s with
    wrappers :=
      match r with
      | .manager => s.wrappers
      | .wrapper i =>
          Function.update s.wrappers i { s.wrappers i with remoteBinderImpl := none } }

/-- The manager's `getService`, called on a binder of incarnation `k`. -/
def managerGetService (k : ℕ) (id : ℤ) : Answer :=
  if s.isAlive k then providerGetService s.runInServerProcess k id else .remoteException

end Shared

/-- A call that a thread of the client makes. -/
inductive Call where
  /-- `ServiceManager.getService(id)` -/
  | getService (id : ℤ)
  /-- `transact` of a wrapper -/
  | transact (i : ℕ)
deriving DecidableEq, Repr

/-- What the manager is asked for. -/
inductive Goal where
  /-- `ServiceManagerWrapper.getService` -/
  | getService (id : ℤ)
  /-- `getOriginalService`, for the `queryLocalInterface` of the wrapper `i` -/
  | queryLocalInterface (id : ℤ) (i : ℕ)
  /-- `getOriginalService`, for `transact` -/
  | transact (i : ℕ)
deriving DecidableEq, Repr

/-- Where a thread is, or how its last call ended. -/
inductive Pc where
  | idle
  | getService (id : ℤ)
  | getServerManagerService (g : Goal)
  | queryService (g : Goal)
  /-- behind the test of `mServerManagerImpl` in `queryService` -/
  | querying (g : Goal)
  | queried (g : Goal) (k : ℕ)
  /-- behind `mServerManagerImpl = service` -/
  | linking (g : Goal) (k : ℕ)
  /-- in front of `service.getService(serviceId)` -/
  | calling (g : Goal) (k : ℕ)
  /-- in front of `new RemoteBinderWrapper` -/
  | wrapping (id : ℤ) (k : ℕ)
  /-- in front of `putCacheBinder` -/
  | caching (id : ℤ) (i : ℕ)
  | getInterface (id : ℤ) (i : ℕ)
  | returned (id : ℤ) (i : Option ℕ)
  | transact (i : ℕ)
  /-- behind `getRemoteBinder` -/
  | transacting (i k : ℕ)
  /-- `transact` was carried out by incarnation `k` -/
  | reached (i k : ℕ)
  | remoteException (i : ℕ)
  /-- an exception that is no `RemoteException` -/
  | threw (c : Call)
deriving DecidableEq, Repr

/-- The id that the manager is asked for. -/
def Goal.serviceId (s : Shared) : Goal → ℤ
  | .getService id => id
  | .queryLocalInterface _ i => (s.wrappers i).serviceId
  | .transact i => (s.wrappers i).serviceId

/-- The manager is missing, does not answer or answers `null`. -/
def Goal.failed : Goal → Pc
  | .getService id => .returned id none
  -- `queryLocalInterface` catches the exception
  | .queryLocalInterface id i => .returned id (some i)
  | .transact i => .remoteException i

/-- The manager answers with the binder of the service. A binder of another
process has no local interface, so `asInterface` makes a proxy for the wrapper. -/
def Goal.obtained (k : ℕ) : Goal → Pc
  | .getService id => .wrapping id k
  | .queryLocalInterface id i => .returned id (some i)
  | .transact i => .transacting i k

def Goal.call : Goal → Call
  | .getService id => .getService id
  | .queryLocalInterface id _ => .getService id
  | .transact i => .transact i

/-- One step of thread `t`; `queryOk` tells whether the provider can be queried.
`none` if the thread waits for the lock or makes no call. -/
def step (s : Shared) (t : ℕ) (queryOk : Bool) : Pc → Option (Shared × Pc)
  | .getService id =>
      match s.cache id with
      | some i => some (s, .getInterface id i)
      | none => some (s, .getServerManagerService (.getService id))
  | .getServerManagerService g =>
      match s.serverManagerImpl with
      | some k => some (s, .calling g k)
      | none => some (s, .queryService g)
  | .queryService g =>
      if s.lock.isSome then none
      else
        match s.serverManagerImpl with
        | some k => some (s, .calling g k)
        | none => some ({ s with lock := some t }, .querying g)
  | .querying g =>
      if queryOk then some (s.started, .queried g s.started.incarnation)
      else some ({ s with lock := none }, g.failed)
  | .queried g k => some ({ s with serverManagerImpl := some k }, .linking g k)
  | .linking g k => some ({ s.linkToDeath .manager k with lock := none }, .calling g k)
  | .calling g k =>
      match s.managerGetService k (g.serviceId s) with
      | .remoteException => some (s, g.failed)
      | .illegalArgument => some (s, .threw g.call)
      | .null => some (s, g.failed)
      | .binder k' => some (s, g.obtained k')
  | .wrapping id k => some (s.newWrapper id k, .caching id s.next)
  | .caching id i =>
      some ({ s with cache := Function.update s.cache id (some i) }, .getInterface id i)
  | .getInterface id i =>
      -- `mAllServices.get(id)` is `null` for other ids
      if !allServices id then some (s, .threw (.getService id))
      else
        match (s.wrappers i).remoteBinderImpl with
        | some _ => some (s, .returned id (some i))
        | none => some (s, .getServerManagerService (.queryLocalInterface id i))
  | .transact i =>
      match (s.wrappers i).remoteBinderImpl with
      | some k => some (s, .transacting i k)
      | none => some (s, .getServerManagerService (.transact i))
  | .transacting i k => some (s, if s.isAlive k then .reached i k else .remoteException i)
  | .idle => none
  | .returned _ _ => none
  | .reached _ _ => none
  | .remoteException _ => none
  | .threw _ => none

/-- The thread is not in a call. -/
def Pc.ended : Pc → Bool
  | .idle => true
  | .returned _ _ => true
  | .reached _ _ => true
  | .remoteException _ => true
  | .threw _ => true
  | _ => false

/-- The call that the thread makes or has made. -/
def Pc.call : Pc → Option Call
  | .idle => none
  | .getService id => some (.getService id)
  | .getServerManagerService g => some g.call
  | .queryService g => some g.call
  | .querying g => some g.call
  | .queried g _ => some g.call
  | .linking g _ => some g.call
  | .calling g _ => some g.call
  | .wrapping id _ => some (.getService id)
  | .caching id _ => some (.getService id)
  | .getInterface id _ => some (.getService id)
  | .returned id _ => some (.getService id)
  | .transact i => some (.transact i)
  | .transacting i _ => some (.transact i)
  | .reached i _ => some (.transact i)
  | .remoteException i => some (.transact i)
  | .threw c => some c

/-- Where a call begins. -/
def Call.begin : Call → Pc
  | .getService id => .getService id
  | .transact i => .transact i

/-- A `transact` is one of a wrapper that exists. -/
def Call.Valid (s : Shared) : Call → Prop
  | .getService _ => True
  | .transact i => i < s.next

/-! ## Threads, server and deliveries together -/

/-- The server and the client, with its threads. -/
structure World where
  shared : Shared
  threads : ℕ → Pc

/-- Thread `t` has done a step. -/
def World.set (w : World) (t : ℕ) (s : Shared) (p : Pc) : World :=
  ⟨s, Function.update w.threads t p⟩

/-- Thread `t` begins a call. -/
def World.begin (w : World) (t : ℕ) (c : Call) : World := w.set t w.shared c.begin

/-- A step of a thread, of the server, or a delivery of `binderDied`. -/
inductive Label where
  | begin (t : ℕ) (c : Call)
  | thread (t : ℕ) (queryOk : Bool)
  | die
  | restart
  /-- `App.onCreate` of the server; `getCurrentProcessName` returns `process` -/
  | onCreate (process : Option (List Char))
  | binderDied (r : DeathRecipient)
deriving DecidableEq, Repr

/-- One step of anybody. -/
inductive Step : World → Label → World → Prop where
  | begin {w : World} {t : ℕ} {c : Call} (hended : (w.threads t).ended = true)
      (hvalid : c.Valid w.shared) : Step w (.begin t c) (w.begin t c)
  | thread {w : World} {t : ℕ} {queryOk : Bool} {s : Shared} {p : Pc}
      (hstep : step w.shared t queryOk (w.threads t) = some (s, p)) :
      Step w (.thread t queryOk) (w.set t s p)
  | die {w : World} (halive : w.shared.alive = true) :
      Step w .die { w with shared := { w.shared with alive := false } }
  | restart {w : World} (halive : w.shared.alive = false) :
      Step w .restart { w with shared := w.shared.started }
  | onCreate {w : World} (process : Option (List Char)) (halive : w.shared.alive = true)
      (hfirst : w.shared.curProcessType = none) :
      Step w (.onCreate process) { w with shared := w.shared.onCreate process }
  | binderDied {w : World} {r : DeathRecipient} {k : ℕ} (hlink : (r, k) ∈ w.shared.links)
      (hdead : w.shared.isAlive k = false) :
      Step w (.binderDied r)
        { w with
          shared := { w.shared.binderDied r with links := w.shared.links.erase (r, k) } }

/-- A client that has not called anything yet. -/
def start (alive : Bool) : World :=
  ⟨⟨0, alive, none, none, none, fun _ => ⟨0, none⟩, 0, fun _ => none, []⟩, fun _ => .idle⟩

end CrossProcess
