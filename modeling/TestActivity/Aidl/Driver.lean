import TestActivity.Aidl.Transact

/-!
# The binder driver

What stands between a proxy and a stub and is not generated. A driver makes a two-way
transaction at once; a one-way one waits, and the caller does not. `Driver.Delivers`
is what the documentation of `android.os.IBinder` promises of a driver that does not
fail. A transaction is one step here: the implementation is not called by two at once.
-/

namespace Aidl

variable {W O σ : Type}

/-- A binder: the state behind its implementation, and the one-way transactions that
wait, each with its code and its data. -/
structure Binder (W σ : Type) where
  world : σ
  pending : List (BitVec 32 × List W) := []

/-- What becomes of a transaction, and what happens when the driver gets to one that
waits. -/
structure Driver (W σ : Type) where
  transact : BitVec 32 → List W → Bool → Binder W σ → Except Exit (List W) × Binder W σ
  deliver : Binder W σ → Binder W σ

/-- The environment of the caller. -/
def Env.caller (env : Env W O σ) (driver : Driver W σ) : Env W O (Binder W σ) where
  toAndroid := env.toAndroid
  descriptor := env.descriptor
  code := env.code
  implementation name vs b :=
    match env.implementation name vs b.world with
    | (r, outs, w) => (r, outs, { b with world := w })
  transact := driver.transact

section

variable (env : Env W O σ) (superCall : BitVec 32 → Exec W O σ (Option (Value O)))
  (ms : List Method)

/-- A two-way transaction has a parcel for the reply, and its content comes back. The
one-way ones are delivered one after the other, in their order, and nobody asks how
they end; whether they have a parcel for a reply is left open. -/
structure Driver.Delivers (driver : Driver W σ) : Prop where
  twoway {code : BitVec 32} {data : List W} {b : Binder W σ} {f : Frame W O σ} {p : Parcel W}
    (hon : onTransact env superCall ms code (transactFrame data (some {}) b.world) =
      (.ok (some (.bool true)), f))
    (hp : f.parcels "reply" = some p) :
    driver.transact code data false b = (.ok p.content, { b with world := f.world })
  oneway (code : BitVec 32) (data : List W) (b : Binder W σ) :
    driver.transact code data true b = (.ok [], { b with pending := b.pending ++ [(code, data)] })
  deliver (code : BitVec 32) (data : List W) (pending : List (BitVec 32 × List W)) (w : σ) :
    ∃ reply, driver.deliver { world := w, pending := (code, data) :: pending } =
      { world := (onTransact env superCall ms code (transactFrame data reply w)).2.world,
        pending := pending }
  idle (w : σ) : driver.deliver { world := w } = { world := w }

/-- A driver with a queue. One-way transactions get no parcel for a reply. -/
def Driver.queue : Driver W σ where
  transact code data oneway b :=
    if oneway then (.ok [], { b with pending := b.pending ++ [(code, data)] })
    else
      match onTransact env superCall ms code (transactFrame data (some {}) b.world) with
      | (r, f) =>
        (r.map fun _ => (f.parcels "reply").elim [] Parcel.content, { b with world := f.world })
  deliver b :=
    match b.pending with
    | [] => b
    | (code, data) :: pending =>
      { world := (onTransact env superCall ms code (transactFrame data none b.world)).2.world,
        pending := pending }

theorem Driver.queue_delivers : (Driver.queue env superCall ms).Delivers env superCall ms where
  twoway {code data b f p} hon hp := by
    show (match onTransact env superCall ms code (transactFrame data (some {}) b.world) with
      | (r, f) => ((r.map fun _ => (f.parcels "reply").elim [] Parcel.content :
          Except Exit (List W)), ({ b with world := f.world } : Binder W σ))) = _
    rw [hon]
    dsimp only
    rw [hp]
    rfl
  oneway _ _ _ := rfl
  deliver _ _ _ _ := ⟨none, rfl⟩
  idle _ := rfl

end

end Aidl
