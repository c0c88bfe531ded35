import TestActivity.Su.RunServer
import TestActivity.Su.Rtdaemon

/-!
# Memory bounds of the request parsers

Both daemons parse whatever a client sends: `handle_request` in a cleared
4096-byte `req`, writing at most `MAX_PARAM+1` cells of `params`, and the
child of `rtdaemon`. `parsers_safe_iff` says for which messages, and which
outcomes of the system calls, they stay inside their arrays, and
`handle_request` leaves `sockfd` alone until `socketpair` has filled it.

An access behind the end of an array ends the defined behaviour, so it counts
even if the code would go on to reject the request.
-/

namespace Su

open CString

/-- What a client sends in one read: 1 to 4096 bytes. -/
structure Message where
  bytes : Bytes
  nonempty : bytes ≠ []
  fits : bytes.length ≤ reqSize

/-- `req` after the read: leaving it is an access at 4096 or behind. -/
def Message.buffer (msg : Message) : Bytes := fill 0 reqSize msg.bytes

@[simp] theorem Message.length_buffer (msg : Message) : msg.buffer.length = reqSize :=
  length_fill 0 msg.fits

/-! ## What the daemons must not do -/

/-- Every use of `sockfd` comes after the event that fills it. -/
def FilledFirst : List Event → Prop
  | [] => True
  | .fillSockfd :: _ => True
  | .useSockfd :: _ => False
  | _ :: es => FilledFirst es

/-- What the grandchild does with its copy of `sockfd`: `close(sockfd[0])` and
`dup2(sockfd[1],STDOUT_FILENO)`, behind what its parents did before the forks. -/
def grandchildSockfd (req : Bytes) (k : Kernel) : List Event :=
  match admission req k with
  | .forked _ _ _ => if k.innerForkOk then [.fillSockfd, .useSockfd, .useSockfd] else []
  | _ => []

/-- The parser of `handle_request` rejects the request, or it reads inside
`req` only and writes inside `params` only. -/
structure SuInBounds (req : Bytes) (k : Kernel) : Prop where
  header : admission req k ≠ .crash
  params : ∀ {rtype argc offset}, admission req k = .forked rtype argc offset →
    k.innerForkOk = true → ∃ cells offset', writeParams req argc offset = some (cells, offset') ∧
      cells.length ≤ maxParam + 1
  envs : ∀ {rtype argc offset}, admission req k = .forked rtype argc offset →
    k.innerForkOk = true → (grandchildParse req argc offset).isSome

/-- A call of `handle_request` that stays in bounds and uses `sockfd` only
after `socketpair` has filled it. -/
structure SuSafe (req : Bytes) (k : Kernel) (rounds : List (Round UInt8)) : Prop where
  inBounds : SuInBounds req k
  filled : FilledFirst (handleRequest req k rounds).events
  grandchildFilled : FilledFirst (grandchildSockfd req k)

/-- The parser of `rtdaemon` rejects the request, or it reads inside `req` only
and writes inside `params[arcnt+2]` only. -/
def RtdaemonSafe (req : Bytes) : Prop :=
  Rtdaemon.parse req = some .badCount ∨
    ∃ cmd arcnt params, Rtdaemon.parse req = some (.launch cmd arcnt params) ∧
      params.length ≤ arcnt + 2

/-! ## The messages that are safe -/

/-- Of the `n` environment entries at the head of `rest`, those up to the first
one without an `=` lie inside. -/
def EnvsInside (n : ℕ) (rest : Bytes) : Prop :=
  ∃ es behind, rest = table 0 es ++ behind ∧ (∀ e ∈ es, 0 ∉ e) ∧ es.length ≤ n ∧
    (es.length = n ∨ ∃ e ∈ es, eqSign ∉ e)

/-- The `n` arguments at the head of `rest`, the number of environment entries,
and the entries `putenv` is asked for lie inside. -/
def ArgsInside (n : ℕ) (rest : Bytes) : Prop :=
  ∃ ps m behind, rest = table 0 ps ++ m :: behind ∧ ps.length = n ∧ (∀ p ∈ ps, 0 ∉ p) ∧
    (m.toNat ≤ maxParam → EnvsInside m.toNat behind)

/-- The request is admitted up to its `socketpair`; if the grandchild gets to
read it, it has at most nine arguments and every section lies inside. -/
def SuBounded (req : Bytes) (k : Kernel) : Prop :=
  k.sigactionOk = true ∧ k.socketpairOk = true ∧
    ∃ t cmd n rest, req = t :: (cmd ++ 0 :: n :: rest) ∧ t ≠ 0 ∧ 0 ∉ cmd ∧ n.toNat ≤ maxParam ∧
      (k.forkOk = true → k.innerForkOk = true → n.toNat < maxParam ∧ ArgsInside n.toNat rest)

/-- The path and the count lie inside, and so do the arguments if there are not
too many. -/
def RtdaemonBounded (req : Bytes) : Prop :=
  ∃ cmd n rest, req = cmd ++ 0 :: n :: rest ∧ 0 ∉ cmd ∧
    (n.toNat ≤ Rtdaemon.maxArcnt →
      ∃ ps behind, rest.drop 1 = table 0 ps ++ behind ∧ ps.length = n.toNat ∧ ∀ p ∈ ps, 0 ∉ p)

/-! ## The environment loop -/

/-- One entry further. -/
theorem envsInside_cons {p rest : Bytes} {n : ℕ} (hp : 0 ∉ p) :
    EnvsInside (n + 1) (p ++ 0 :: rest) ↔ (eqSign ∈ p → EnvsInside n rest) := by
  constructor
  · rintro ⟨es, behind, hmem, hes, hlen, hlast⟩ heq
    cases es with
    | nil => simp at hlast
    | cons e es =>
        rw [table_cons, List.append_assoc, List.cons_append] at hmem
        rcases terminated_unique 0 hp (hes e (by simp)) hmem with ⟨rfl, rfl⟩
        refine ⟨es, behind, rfl, fun x hx => hes x (by simp [hx]), by simpa using hlen, ?_⟩
        rcases hlast with h | ⟨x, hx, hno⟩
        · exact Or.inl (by simpa using h)
        · rcases List.mem_cons.1 hx with rfl | hx
          · exact absurd heq hno
          · exact Or.inr ⟨x, hx, hno⟩
  · intro h
    by_cases heq : eqSign ∈ p
    · rcases h heq with ⟨es, behind, rfl, hes, hlen, hlast⟩
      refine ⟨p :: es, behind, by simp, ?_, by simpa using hlen, ?_⟩
      · intro x hx
        rcases List.mem_cons.1 hx with rfl | hx
        · exact hp
        · exact hes x hx
      · rcases hlast with h | ⟨x, hx, hno⟩
        · exact Or.inl (by simpa using h)
        · exact Or.inr ⟨x, by simp [hx], hno⟩
    · -- the loop stops behind this entry
      exact ⟨[p], rest, by simp, by simpa using hp, by simp, Or.inr ⟨p, by simp, heq⟩⟩

/-- The loop over the environment stays in the buffer exactly if the entries it
looks at do. -/
theorem envLoop_isSome_iff (req : Bytes) (n offset : ℕ) :
    (envLoop req n offset).isSome ↔ EnvsInside n (req.drop offset) := by
  induction n generalizing offset with
  | zero =>
      constructor
      · intro _
        exact ⟨[], req.drop offset, by simp, by simp, by simp, Or.inl rfl⟩
      · intro _
        rfl
  | succ n ih =>
      cases hp : cstr 0 (req.drop offset) with
      | none =>
          -- no terminator: no entry lies inside
          have hnul := (cstr_eq_none 0).1 hp
          constructor
          · intro h
            rw [envLoop, hp] at h
            cases h
          · rintro ⟨es, behind, hmem, -, -, hlast⟩
            cases es with
            | nil => simp at hlast
            | cons e es => simp [hmem] at hnul
      | some p =>
          rcases cstr_eq_some 0 hp with ⟨hnul, rest, hmem⟩
          have hrest := drop_past 0 hmem
          rw [hmem, envsInside_cons hnul, ← hrest, ← ih, envLoop, hp]
          by_cases heq : eqSign ∈ p
          · cases hloop : envLoop req n (offset + p.length + 1) with
            | none => simp [heq, hloop]
            | some ps => simp [heq, hloop]
          · simp [heq]

/-! ## `handle_request` -/

section Su

variable {req : Bytes} {k : Kernel}

/-- The grandchild's reading stays in the buffer exactly if its sections do. -/
theorem grandchildParse_isSome_iff {t n : UInt8} {cmd rest : Bytes} (hcmd : 0 ∉ cmd) :
    (grandchildParse (t :: (cmd ++ 0 :: n :: rest)) n.toNat (cmd.length + 3)).isSome ↔
      ArgsInside n.toNat rest := by
  set req := t :: (cmd ++ 0 :: n :: rest) with hreq
  have hbehind : req.drop (cmd.length + 3) = rest := drop_header
  constructor
  · intro h
    rcases Option.isSome_iff_exists.1 h with ⟨parsed, hparsed⟩
    simp only [grandchildParse, writeParams, paramLoop, Option.bind_eq_bind,
      Option.bind_eq_some_iff, Option.pure_def, Option.some.injEq] at hparsed
    rcases hparsed with ⟨_, ⟨_, -, ⟨ps, off⟩, hwalk, rfl⟩, m, hm, henvs⟩
    rcases cstrs_eq_some 0 hwalk with ⟨hlen, hall, -, hmem⟩
    have hcount : req.drop off = m :: req.drop (off + 1) := by
      rcases List.getElem?_eq_some_iff.1 hm with ⟨hlt, rfl⟩
      exact List.drop_eq_getElem_cons hlt
    refine ⟨ps, m, req.drop (off + 1), ?_, hlen, hall, fun hle => ?_⟩
    · rw [← hcount, ← hmem, hbehind]
    rw [if_neg (by omega)] at henvs
    simp only [Option.bind_eq_some_iff] at henvs
    rcases henvs with ⟨es, hes, -⟩
    rw [← envLoop_isSome_iff, hes]
    rfl
  · rintro ⟨ps, m, behind, rfl, hlen, hall, henvs⟩
    have hargs : writeParams req n.toNat (cmd.length + 3) =
        some (argvCells (cmd :: ps), cmd.length + 3 + (table 0 ps).length) := by
      rw [← hlen]
      exact writeParams_spelled hcmd hall
    have hcount : req.drop (cmd.length + 3 + (table 0 ps).length) = m :: behind := by
      rw [← List.drop_drop, hbehind]
      simp
    rcases drop_next hcount with ⟨hm, hentries⟩
    simp only [grandchildParse, hargs, hm, Option.bind_eq_bind, Option.bind_some]
    split
    · rfl
    · next hle =>
        have hsome := (envLoop_isSome_iff req m.toNat _).2 (hentries ▸ henvs (by omega))
        rcases Option.isSome_iff_exists.1 hsome with ⟨es, hes⟩
        rw [hes]
        rfl

/-- The cells of `params` that are written: the command, the arguments, `NULL`. -/
theorem writeParams_length {argc offset : ℕ} {cells : List (Option Bytes)} {offset' : ℕ}
    (h : writeParams req argc offset = some (cells, offset')) : cells.length = argc + 2 := by
  simp only [writeParams, paramLoop, Option.bind_eq_bind, Option.bind_eq_some_iff, Option.pure_def,
    Option.some.injEq, Prod.mk.injEq] at h
  rcases h with ⟨cmd, -, ⟨ps, off⟩, hwalk, rfl, -⟩
  rcases cstrs_eq_some 0 hwalk with ⟨hlen, -⟩
  simp [argvCells, hlen]

/-- The labels behind `failure` close `sockfd[0]`, whether or not it was filled. -/
theorem failure_not_filledFirst (k : Kernel) (rtype : ResultType) :
    ¬ FilledFirst (failure k rtype).events := by
  cases rtype <;> cases hw : k.replyWrite <;>
    simp [failure, streamFailure, statusFailure, unconditionalSuccess, reply, hw, FilledFirst]

/-- A call that gets past its `socketpair` uses `sockfd` only afterwards; one
that does not uses it nevertheless. -/
theorem handleRequest_filledFirst_iff (hcrash : admission req k ≠ .crash)
    (rounds : List (Round UInt8)) :
    FilledFirst (handleRequest req k rounds).events ↔
      ∀ rtype, admission req k ≠ .failure rtype := by
  unfold handleRequest
  cases hadm : admission req k with
  | crash => exact absurd hadm hcrash
  | failure rtype => simp [failure_not_filledFirst]
  | forkFailed => simp [FilledFirst]
  | forked rtype argc offset => simp [Served.after, FilledFirst]

theorem grandchildSockfd_filledFirst : FilledFirst (grandchildSockfd req k) := by
  unfold grandchildSockfd
  split
  · split <;> trivial
  · trivial

/-- A request that gets to the fork is spelled out that far. -/
theorem passes_iff_spelled {t : UInt8} {argc offset : ℕ} :
    Passes req k t argc offset ↔
      k.sigactionOk = true ∧ k.socketpairOk = true ∧ t ≠ 0 ∧
        ∃ cmd n rest, req = t :: (cmd ++ 0 :: n :: rest) ∧ 0 ∉ cmd ∧ n.toNat ≤ maxParam ∧
          argc = n.toNat ∧ offset = cmd.length + 3 := by
  constructor
  · rintro ⟨ht, h0, hsig, hhead, hargc, hsock⟩
    rcases readHeader_eq_some_iff.1 hhead with ⟨t', cmd, n, rest, rfl, hcmd, rfl, rfl⟩
    obtain rfl : t' = t := by simpa using ht
    exact ⟨hsig, hsock, h0, cmd, n, rest, rfl, hcmd, hargc, rfl, rfl⟩
  · rintro ⟨hsig, hsock, h0, cmd, n, rest, rfl, hcmd, hn, rfl, rfl⟩
    exact ⟨rfl, h0, hsig, readHeader_spelled hcmd, hn, hsock⟩

/-- What the grandchild inherits is what the checks have read. -/
theorem forked_of_passes {t : UInt8} {argc offset argc' offset' : ℕ} {rtype : ResultType}
    (hpass : Passes req k t argc offset) (h : admission req k = .forked rtype argc' offset') :
    k.forkOk = true ∧ argc' = argc ∧ offset' = offset := by
  rw [admission_of_passes hpass] at h
  split_ifs at h with hfork
  rcases Admission.forked.inj h with ⟨-, rfl, rfl⟩
  exact ⟨hfork, rfl, rfl⟩

/-- A request that gets to the fork neither crashes nor is rejected. -/
theorem admission_ne_of_passes {t : UInt8} {argc offset : ℕ} (hpass : Passes req k t argc offset) :
    admission req k ≠ .crash ∧ ∀ rtype, admission req k ≠ .failure rtype := by
  rw [admission_of_passes hpass]
  constructor
  · split <;> simp
  · intro rtype
    split <;> simp

/-- With at most nine arguments and every section inside, so is the parser. -/
theorem suInBounds_of_inside {t n : UInt8} {cmd rest : Bytes} (hcmd : 0 ∉ cmd)
    (hpass : Passes (t :: (cmd ++ 0 :: n :: rest)) k t n.toNat (cmd.length + 3))
    (hinside : k.forkOk = true → k.innerForkOk = true →
      n.toNat < maxParam ∧ ArgsInside n.toNat rest) :
    SuInBounds (t :: (cmd ++ 0 :: n :: rest)) k := by
  constructor
  · exact (admission_ne_of_passes hpass).1
  · intro rtype argc offset hadm hinner
    rcases forked_of_passes hpass hadm with ⟨hfork, rfl, rfl⟩
    rcases hinside hfork hinner with ⟨hlt, hargs⟩
    obtain ⟨parsed, hparsed⟩ := Option.isSome_iff_exists.1
      ((grandchildParse_isSome_iff hcmd).2 hargs)
    unfold grandchildParse at hparsed
    rw [Option.bind_eq_bind, Option.bind_eq_some_iff] at hparsed
    rcases hparsed with ⟨⟨cells, off⟩, hcells, -⟩
    -- the command, at most nine arguments and `NULL` are eleven cells
    exact ⟨cells, off, hcells, by rw [writeParams_length hcells]; omega⟩
  · intro rtype argc offset hadm hinner
    rcases forked_of_passes hpass hadm with ⟨hfork, rfl, rfl⟩
    exact (grandchildParse_isSome_iff hcmd).2 (hinside hfork hinner).2

/-- `handle_request` is safe exactly on bounded requests. -/
theorem suSafe_iff (rounds : List (Round UInt8)) : SuSafe req k rounds ↔ SuBounded req k := by
  constructor
  · intro hsafe
    have hheader := hsafe.inBounds.header
    have hfailure := (handleRequest_filledFirst_iff hheader rounds).1 hsafe.filled
    rcases admission_cases req k with hcrash | ⟨rtype, hrej⟩ | ⟨t, argc, offset, hpass⟩
    · exact absurd hcrash hheader
    · exact absurd (admission_of_rejects hrej) (hfailure rtype)
    · -- only a request that gets to the fork is neither rejected nor a crash
      have hadm := admission_of_passes hpass
      obtain ⟨hsig, hsock, h0, cmd, n, rest, rfl, hcmd, hn, rfl, rfl⟩ := passes_iff_spelled.1 hpass
      refine ⟨hsig, hsock, t, cmd, n, rest, rfl, h0, hcmd, hn, fun hfork hinner => ?_⟩
      rw [hfork, if_pos rfl] at hadm
      rcases hsafe.inBounds.params hadm hinner with ⟨cells, off, hcells, hlen⟩
      rw [writeParams_length hcells] at hlen
      exact ⟨by omega, (grandchildParse_isSome_iff hcmd).1 (hsafe.inBounds.envs hadm hinner)⟩
  · rintro ⟨hsig, hsock, t, cmd, n, rest, rfl, h0, hcmd, hn, hinside⟩
    have hpass : Passes (t :: (cmd ++ 0 :: n :: rest)) k t n.toNat (cmd.length + 3) :=
      passes_iff_spelled.2 ⟨hsig, hsock, h0, cmd, n, rest, rfl, hcmd, hn, rfl, rfl⟩
    rcases admission_ne_of_passes hpass with ⟨hheader, hfailure⟩
    constructor
    · exact suInBounds_of_inside hcmd hpass hinside
    · exact (handleRequest_filledFirst_iff hheader rounds).2 hfailure
    · exact grandchildSockfd_filledFirst

end Su

/-! ## `rtdaemon` -/

/-- The child of `rtdaemon` is safe exactly on bounded requests. -/
theorem rtdaemonSafe_iff {req : Bytes} : RtdaemonSafe req ↔ RtdaemonBounded req := by
  constructor
  · intro h
    obtain ⟨parsed, hparsed⟩ : ∃ parsed, Rtdaemon.parse req = some parsed := by
      rcases h with h | ⟨cmd, arcnt, params, h, -⟩
      · exact ⟨_, h⟩
      · exact ⟨_, h⟩
    simp only [Rtdaemon.parse, Option.bind_eq_bind, Option.bind_eq_some_iff] at hparsed
    rcases hparsed with ⟨cmd, hcmd, n, hn, hrest⟩
    rcases cstr_eq_some 0 hcmd with ⟨hnul, rest, rfl⟩
    have hbehind := drop_head 0 cmd rest
    cases rest with
    | nil => simp at hn
    | cons n' rest =>
        have hcount := (drop_next hbehind).1
        obtain rfl : n' = n := by simpa [hcount] using hn
        refine ⟨cmd, n', rest, rfl, hnul, fun hle => ?_⟩
        rw [if_neg (by omega)] at hrest
        simp only [Option.bind_eq_some_iff] at hrest
        rcases hrest with ⟨⟨ps, off⟩, hwalk, -⟩
        rcases cstrs_eq_some 0 hwalk with ⟨hlen, hall, -, hmem⟩
        exact ⟨ps, _, (Rtdaemon.drop_args cmd n' rest).symm.trans hmem, hlen, hall⟩
  · rintro ⟨cmd, n, rest, rfl, hnul, hargs⟩
    have hcount := (drop_next (drop_head 0 cmd (n :: rest))).1
    have hname : cstr 0 (cmd ++ 0 :: n :: rest) = some cmd := cstr_append 0 hnul _
    by_cases hle : n.toNat ≤ Rtdaemon.maxArcnt
    · -- the count is accepted: the arguments and `NULL` fill `arcnt+1` cells
      rcases hargs hle with ⟨ps, behind, hmem, hlen, hall⟩
      have hwalk := cstrs_table 0 ps hall ((Rtdaemon.drop_args cmd n rest).trans hmem)
      rw [hlen] at hwalk
      refine Or.inr ⟨cmd, n.toNat, argvCells ps, ?_, by simp [argvCells, hlen]⟩
      simp only [Rtdaemon.parse, hname, hcount, Option.bind_eq_bind, Option.bind_some, hwalk]
      exact if_neg (by omega)
    · left
      simp only [Rtdaemon.parse, hname, hcount, Option.bind_eq_bind, Option.bind_some]
      exact if_pos (by omega)

/-! ## Both daemons -/

/-- On a message that reaches them, both parsers stay in bounds and `sockfd` is
used only after it was filled, exactly on bounded messages. -/
theorem parsers_safe_iff (msg : Message) (k : Kernel) (rounds : List (Round UInt8)) :
    ((dispatch msg.buffer = .handle → SuSafe msg.buffer k rounds) ∧
        (strcmpEq msg.buffer (ascii "\n") = false → RtdaemonSafe msg.buffer)) ↔
      (dispatch msg.buffer = .handle → SuBounded msg.buffer k) ∧
        (strcmpEq msg.buffer (ascii "\n") = false → RtdaemonBounded msg.buffer) := by
  rw [suSafe_iff rounds, rtdaemonSafe_iff]

/-- The command `a` with ten arguments, all empty. -/
def tenArguments : Message where
  bytes := [32, 97, 0, 10]
  nonempty := by simp
  fits := by decide

/-- Ten arguments are accepted, but the command, they and the `NULL` are twelve
cells. -/
theorem tenArguments_unsafe :
    ¬ ((dispatch tenArguments.buffer = .handle → SuSafe tenArguments.buffer willing []) ∧
        (strcmpEq tenArguments.buffer (ascii "\n") = false →
          RtdaemonSafe tenArguments.buffer)) := by
  rintro ⟨hsu, -⟩
  have hadm : admission tenArguments.buffer willing = .forked .int 10 4 := by decide
  rcases (hsu (by decide)).inBounds.params hadm rfl with ⟨cells, off, hcells, hlen⟩
  rw [writeParams_length hcells] at hlen
  exact absurd hlen (by decide)

end Su
