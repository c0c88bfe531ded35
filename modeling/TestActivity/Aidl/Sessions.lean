import TestActivity.Aidl.Calls

/-!
# Sessions

Any number of calls, and between them the moments when the driver delivers what
waits. The abstract service is a state and a queue of calls; the binder is the same
state and a queue of transactions. `Matches` says that the transactions are what the
proxy has made of the calls. A turn keeps it and answers the same on both sides
(`turn_matches`), so whole sessions do (`compiled_session`).
-/

namespace Aidl

variable {W O σ : Type}

/-! ## Turns -/

/-- What the caller sees of a call: how it ends, and the arguments afterwards. -/
structure Answer (O : Type) where
  result : Except Exit (Option (Value O))
  args : List (Option (Value O))

/-- A call of a method with these arguments. -/
structure Call (O : Type) where
  method : Method
  args : List (Value O)

/-- A call, or the driver getting to what waits. -/
inductive Turn (O : Type) where
  | call (k : Call O)
  | deliver

/-- The service itself: its state, and the one-way calls that wait for it. -/
structure Service (O σ : Type) where
  world : σ
  waiting : List (Call O) := []

/-- The call of the implementation: values go in as copies. -/
def Call.run (env : Env W O σ) (call : Call O) (w : σ) :
    Except Throwable (Value O) × List (Value O) × σ :=
  env.implementation call.method.name (receivedAll env.toAndroid call.method.args call.args) w

/-- A call that is waited for: contents come back as copies, and an exception comes
back as its text. -/
def Call.answer (env : Env W O σ) (call : Call O) (w : σ) : Answer O :=
  match call.run env w with
  | (.ok result, outs, _) =>
    ⟨.ok (if call.method.isVoid then none else some result),
      (afterAll env.toAndroid call.method.args call.args outs).map some⟩
  | (.error e, _, _) =>
    ⟨.error (.threw (illegalArgument (env.stackTrace e))), call.args.map some⟩

/-- A turn with the service itself. -/
def Turn.direct (env : Env W O σ) : Turn O → Service O σ → Option (Answer O) × Service O σ
  | .call k, s =>
    if k.method.oneway then
      (some ⟨.ok none, k.args.map some⟩, { s with waiting := s.waiting ++ [k] })
    else (some (k.answer env s.world), { s with world := (k.run env s.world).2.2 })
  | .deliver, s =>
    match s.waiting with
    | [] => (none, s)
    | k :: waiting => (none, { world := (k.run env s.world).2.2, waiting := waiting })

/-- A turn with the proxy for the binder `remote`. -/
def Turn.remote (env : Env W O σ) (driver : Driver W σ) (remote : ℕ) :
    Turn O → Binder W σ → Option (Answer O) × Binder W σ
  | .call k, b =>
    match execAll (env.caller driver) (proxyStatements k.method)
      (proxyFrame remote k.method k.args b) with
    | (r, f) => (some ⟨r, k.method.names.map f.vars⟩, f.world)
  | .deliver, b => (none, driver.deliver b)

/-- Turns one after the other. -/
def session {T S α : Type} (step : T → S → α × S) : List T → S → List α × S
  | [], s => ([], s)
  | turn :: turns, s =>
    let (a, s) := step turn s
    let (as, s) := session step turns s
    (a :: as, s)

theorem session_cons {T S α : Type} (step : T → S → α × S) (turn : T) (turns : List T) (s : S) :
    session step (turn :: turns) s =
      ((step turn s).1 :: (session step turns (step turn s).2).1,
        (session step turns (step turn s).2).2) := rfl

/-! ## What fits -/

/-- The call keeps to the types of its method, and so does what the implementation
makes of it if somebody waits for it. -/
structure Call.Fits (env : Env W O σ) (ms : List Method) (call : Call O) (w : σ) : Prop where
  method : call.method ∈ ms
  usable : call.method.Usable
  args : Arg.HoldAll call.method.args call.args
  oneway : call.method.oneway = true →
    call.method.isVoid = true ∧ ∀ arg ∈ call.method.args, arg.isOut = false
  loader : call.method.oneway = false → call.method.OwnLoader
  implementation : call.method.oneway = false →
    match call.run env w with
    | (.ok result, outs, _) => call.method.Results result ∧ Arg.HoldAll call.method.args outs ∧
        RestoresAll call.method.args call.args outs
    | (.error e, _, _) => e.isRuntime

/-- Every call of a session fits where it is made. -/
def SessionFits (env : Env W O σ) (ms : List Method) : List (Turn O) → Service O σ → Prop
  | [], _ => True
  | turn :: turns, s =>
    (∀ call, turn = .call call → call.Fits env ms s.world) ∧
      SessionFits env ms turns (turn.direct env s).2

/-- The transaction that the proxy has made of the one-way call. -/
structure Call.Sent (env : Env W O σ) (ms : List Method) (call : Call O)
    (transaction : BitVec 32 × List W) : Prop where
  method : call.method ∈ ms
  ready : call.method.Ready
  args : Arg.HoldAll call.method.args call.args
  oneway : call.method.oneway = true
  void : call.method.isVoid = true
  out : ∀ arg ∈ call.method.args, arg.isOut = false
  code : transaction.1 = BitVec.ofInt 32 (env.code call.method.name)
  data : call.method.Sends env.toAndroid env.descriptor call.args transaction.2

/-- The binder is in the state of the service, and the calls wait as transactions in
the same order. -/
structure Matches (env : Env W O σ) (ms : List Method) (s : Service O σ) (b : Binder W σ) :
    Prop where
  world : b.world = s.world
  pending : List.Forall₂ (Call.Sent env ms) s.waiting b.pending

variable {env : Env W O σ} {ms : List Method} {driver : Driver W σ}
  {superCall : BitVec 32 → Exec W O σ (Option (Value O))} {s : Service O σ} {b : Binder W σ}
  {call : Call O} {w : σ}

theorem Frame.Named.map_vars {f : Frame W O σ} {names : List String} {vs : List (Value O)}
    (h : f.Named names vs) : names.map f.vars = vs.map some := by
  induction h with
  | nil => rfl
  | cons hs _ ih => rw [List.map_cons, List.map_cons, hs, ih]

/-! ## One turn -/

/-- A call that is waited for has the same answer, and changes the state alone. -/
theorem twoway_remote (hdriver : driver.Delivers env superCall ms) (hA : env.toAndroid.Documented)
    (hdistinct : env.Distinct ms) (hready : call.method.Ready) (hfits : call.Fits env ms b.world)
    (htwoway : call.method.oneway = false) (remote : ℕ) :
    Turn.remote env driver remote (.call call) b =
      (some (call.answer env b.world), { b with world := (call.run env b.world).2.2 }) := by
  -- how the implementation ends decides which result of the proxy applies
  have himplementation := hfits.implementation htwoway
  rw [Turn.remote, Call.answer]
  cases hrun : call.run env b.world with
  | mk r rest =>
      cases rest with
      | mk outs w' =>
          rw [hrun] at himplementation
          cases r with
          | ok result =>
              rcases himplementation with ⟨hresult, houts, hrestores⟩
              rcases proxy_call hdriver hA hdistinct hfits.method hready hfits.usable.names
                (hfits.loader htwoway) htwoway hfits.args hrun hresult houts hrestores remote
                with ⟨f', hcall, hnamed, hworld⟩
              rw [hcall]
              dsimp only
              rw [hnamed.map_vars, hworld]
          | error e =>
              rcases proxy_call_throws hdriver hA hdistinct hfits.method hready
                hfits.usable.names htwoway hfits.args hrun himplementation remote with
                ⟨f', hcall, hnamed, hworld⟩
              rw [hcall]
              dsimp only
              rw [hnamed.map_vars, hworld]

/-- A one-way call leaves a transaction that was sent for it. -/
theorem oneway_remote (hdriver : driver.Delivers env superCall ms) (hA : env.toAndroid.Documented)
    (hready : call.method.Ready) (hfits : call.Fits env ms w)
    (honeway : call.method.oneway = true) (remote : ℕ) (b : Binder W σ) :
    ∃ transaction, call.Sent env ms transaction ∧
      Turn.remote env driver remote (.call call) b =
        (some ⟨.ok none, call.args.map some⟩,
          { b with pending := b.pending ++ [transaction] }) := by
  rcases hfits.oneway honeway with ⟨hvoid, hout⟩
  rcases Method.sends_of_holdAll hA env.descriptor hfits.args with ⟨data, hsends⟩
  rcases proxy_call_oneway (b := b) hdriver hfits.usable.names honeway hvoid hfits.args hsends
    remote with ⟨f', hcall, hnamed, hworld⟩
  refine ⟨(BitVec.ofInt 32 (env.code call.method.name), data),
    ⟨hfits.method, hready, hfits.args, honeway, hvoid, hout, rfl, hsends⟩, ?_⟩
  rw [Turn.remote, hcall]
  dsimp only
  rw [hnamed.map_vars, hworld]

/-- What the driver delivers is the call that has waited longest. -/
theorem deliver_matches (hdriver : driver.Delivers env superCall ms) (hA : env.toAndroid.Documented)
    (hdistinct : env.Distinct ms) (hmatches : Matches env ms s b) :
    Matches env ms (Turn.direct env .deliver s).2 (driver.deliver b) := by
  rcases s with ⟨w, waiting⟩
  rcases b with ⟨w', pending⟩
  rcases hmatches with ⟨hworld, hpending⟩
  cases hworld
  cases hpending with
  | nil =>
      rw [hdriver.idle]
      exact ⟨rfl, .nil⟩
  | @cons call transaction waiting pending hsent hpending =>
      rcases transaction with ⟨code, data⟩
      rcases hdriver.deliver code data pending w with ⟨reply, hdeliver⟩
      have hcode : code = BitVec.ofInt 32 (env.code call.method.name) := hsent.code
      subst hcode
      rw [hdeliver]
      refine ⟨?_, hpending⟩
      exact onTransact_oneway superCall hA hdistinct hsent.method hsent.ready hsent.oneway
        hsent.void hsent.out hsent.args hsent.data rfl reply

/-- A turn has the same answer on both sides, and keeps the states together. -/
theorem turn_matches (hdriver : driver.Delivers env superCall ms) (hA : env.toAndroid.Documented)
    (hdistinct : env.Distinct ms) (hready : ∀ m ∈ ms, m.Usable → m.Ready) {turn : Turn O}
    (hfits : ∀ call, turn = .call call → call.Fits env ms s.world)
    (hmatches : Matches env ms s b) (remote : ℕ) :
    (turn.remote env driver remote b).1 = (turn.direct env s).1 ∧
      Matches env ms (turn.direct env s).2 (turn.remote env driver remote b).2 := by
  cases turn with
  | deliver =>
      have hnone : (Turn.direct env .deliver s).1 = none := by
        rw [Turn.direct]
        split <;> rfl
      exact ⟨hnone.symm, deliver_matches hdriver hA hdistinct hmatches⟩
  | call call =>
      have hfits := hfits call rfl
      have hready := hready call.method hfits.method hfits.usable
      rw [Turn.direct]
      cases honeway : call.method.oneway with
      | true =>
          rcases oneway_remote hdriver hA hready hfits honeway remote b with
            ⟨transaction, hsent, hremote⟩
          rw [hremote, if_pos rfl]
          exact ⟨rfl, hmatches.world, List.rel_append hmatches.pending (.cons hsent .nil)⟩
      | false =>
          rw [← hmatches.world] at hfits
          rw [twoway_remote hdriver hA hdistinct hready hfits honeway remote, hmatches.world,
            if_neg Bool.false_ne_true]
          exact ⟨rfl, rfl, hmatches.pending⟩

/-! ## Whole sessions -/

theorem session_matches (hdriver : driver.Delivers env superCall ms)
    (hA : env.toAndroid.Documented) (hdistinct : env.Distinct ms)
    (hready : ∀ m ∈ ms, m.Usable → m.Ready) {turns : List (Turn O)}
    (hfits : SessionFits env ms turns s) (hmatches : Matches env ms s b) (remote : ℕ) :
    (session (Turn.remote env driver remote) turns b).1 =
        (session (Turn.direct env) turns s).1 ∧
      Matches env ms (session (Turn.direct env) turns s).2
        (session (Turn.remote env driver remote) turns b).2 := by
  induction turns generalizing s b with
  | nil => exact ⟨rfl, hmatches⟩
  | cons turn turns ih =>
      rcases turn_matches hdriver hA hdistinct hready hfits.1 hmatches remote with
        ⟨hanswer, hmatches'⟩
      rcases ih hfits.2 hmatches' with ⟨hanswers, hmatches''⟩
      rw [session_cons, session_cons, hanswer, hanswers]
      exact ⟨rfl, hmatches''⟩

end Aidl
