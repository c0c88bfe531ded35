import Mathlib.Data.List.TakeWhile
import TestActivity.Lib.CString
import TestActivity.Su.Io

/-!
# The command request

A client of `rt_server` sends one message: a type byte, the command, the
number of arguments, the arguments, the number of environment entries, the
entries. The strings are NUL-terminated, the numbers are single bytes.
`handle_request` walks the message with one running `offset`.

* `image` is the format, `Request` a request together with its bounds.
* `readHeader`, `paramLoop`, `envLoop` and `grandchildParse` are the reader,
  over the memory that starts at `req`. `none` is an access behind its end.
* `grandchildParse_image` is the reader on a spelled-out message,
  `cut_image_command`, `cut_image_params` and `cut_image_envs` say what a
  message turns into when its end never arrived.
-/

namespace Su

open CString

/-! ## The reader -/

/-- `MAX_PARAM`. -/
def maxParam : ℕ := 10

/-- `sizeof(req)`. -/
def reqSize : ℕ := 4096

/-- `result_type`. -/
inductive ResultType where
  | stream
  | int
  | syscallInt
  | undefined
deriving DecidableEq, Repr

/-- The type byte: 64 is a stream, 32 an integer, 16 a direct system call. -/
def resultType (b : UInt8) : ResultType :=
  if b = 64 then .stream
  else if b = 32 then .int
  else if b = 16 then .syscallInt
  else .undefined

/-- `offset = strlen(req+1)+2; argc = req[offset++]`: `argc` and the offset
behind it. -/
def readHeader (req : Bytes) : Option (ℕ × ℕ) := do
  let cmd ← cstr 0 (req.drop 1)
  let offset := cmd.length + 2
  let argc ← req[offset]?
  return (argc.toNat, offset + 1)

/-- `while(i<argc+1){ params[i]=req+offset; offset+=strlen(params[i])+1; i++; }` -/
def paramLoop (req : Bytes) (argc offset : ℕ) : Option (List Bytes × ℕ) :=
  cstrs 0 req argc offset

/-- The character `=`. -/
def eqSign : UInt8 := 61

/-- `while(i<env_num)`: the entries handed to `putenv`. The first entry
without an `=` ends the loop. -/
def envLoop (req : Bytes) : ℕ → ℕ → Option (List Bytes)
  | 0, _ => some []
  | n + 1, offset => do
      let p ← cstr 0 (req.drop offset)
      -- `strchr(p,'=')==NULL` breaks the loop, the rest is not looked at
      if eqSign ∈ p then
        let ps ← envLoop req n (offset + p.length + 1)
        return p :: ps
      else
        return []

/-- The cells of an argument vector: pointers to the strings, then `NULL`. -/
def argvCells (argv : List Bytes) : List (Option Bytes) := argv.map some ++ [none]

/-- The argument vector a callee finds in the cells: it ends at `NULL`. -/
def argvOf : List (Option Bytes) → List Bytes
  | some p :: cells => p :: argvOf cells
  | _ => []

@[simp] theorem argvOf_argvCells (argv : List Bytes) : argvOf (argvCells argv) = argv := by
  induction argv with
  | nil => rfl
  | cons p ps ih => simpa [argvCells, argvOf] using ih

/-- The cells of `params` the grandchild writes, in order (`params[0]=req+1`,
the loop, `params[i]=NULL`), and the offset behind the arguments. -/
def writeParams (req : Bytes) (argc offset : ℕ) : Option (List (Option Bytes) × ℕ) := do
  let cmd ← cstr 0 (req.drop 1)
  let (ps, offset) ← paramLoop req argc offset
  return (argvCells (cmd :: ps), offset)

/-- How the grandchild's reading of the request ends. -/
inductive Parsed where
  /-- `env_num` is out of range: `exit(-1)`. -/
  | badEnvNum
  /-- `params` is complete and `putenv` was called on `envs`, in order. -/
  | ready (params : List (Option Bytes)) (envs : List Bytes)
deriving DecidableEq, Repr

/-- The grandchild's half of the reader, from `params[0]=req+1` to the last
`putenv`, with the `argc` and `offset` it inherited. -/
def grandchildParse (req : Bytes) (argc offset : ℕ) : Option Parsed := do
  let (params, offset) ← writeParams req argc offset
  let envNum ← req[offset]?
  -- `char` is unsigned, `env_num<0` never holds
  if maxParam < envNum.toNat then
    return .badEnvNum
  else
    let envs ← envLoop req envNum.toNat (offset + 1)
    return .ready params envs

/-! ## The format -/

/-- A message with its two count bytes, whatever they are. -/
def image (t : UInt8) (cmd : Bytes) (n : UInt8) (params : List Bytes) (m : UInt8)
    (envs : List Bytes) : Bytes :=
  t :: (cmd ++ 0 :: n :: (table 0 params ++ m :: table 0 envs))

/-- A well-formed request: one of the three types, NUL-free strings, counts
that fit their bytes, and no more bytes than the server's buffer. -/
structure Request where
  rtype : UInt8
  cmd : Bytes
  params : List Bytes
  envs : List Bytes
  rtype_mem : rtype ∈ [16, 32, 64]
  cmd_nul : 0 ∉ cmd
  params_nul : ∀ p ∈ params, 0 ∉ p
  envs_nul : ∀ e ∈ envs, 0 ∉ e
  params_length : params.length < 256
  envs_length : envs.length < 256
  fits : (image rtype cmd (.ofNat params.length) params (.ofNat envs.length) envs).length ≤ reqSize

/-- The bytes a client sends for a request. -/
def Request.encode (r : Request) : Bytes :=
  image r.rtype r.cmd (.ofNat r.params.length) r.params (.ofNat r.envs.length) r.envs

/-- A count below 256 survives the trip through its byte. -/
theorem toNat_count {n : ℕ} (h : n < 256) : (UInt8.ofNat n).toNat = n := by
  simp [h]

/-! ## Reading a spelled-out message -/

section Image

variable {t n m : UInt8} {cmd : Bytes} {params envs : List Bytes} {rest : Bytes}

theorem image_append : image t cmd n params m envs ++ rest =
    t :: (cmd ++ 0 :: n :: (table 0 params ++ m :: (table 0 envs ++ rest))) := by
  simp [image]

/-- The header of anything that starts with a type, a command and a count. -/
theorem readHeader_spelled (hcmd : 0 ∉ cmd) :
    readHeader (t :: (cmd ++ 0 :: n :: rest)) = some (n.toNat, cmd.length + 3) := by
  simp [readHeader, hcmd]

/-- A header is read exactly from such a message. -/
theorem readHeader_eq_some_iff {req : Bytes} {argc offset : ℕ} :
    readHeader req = some (argc, offset) ↔
      ∃ t cmd n rest, req = t :: (cmd ++ 0 :: n :: rest) ∧ 0 ∉ cmd ∧ argc = n.toNat ∧
        offset = cmd.length + 3 := by
  constructor
  · intro h
    cases hcmd : cstr 0 (req.drop 1) with
    | none => simp only [readHeader, hcmd, Option.bind_eq_bind, Option.bind_none, reduceCtorEq] at h
    | some cmd =>
        rcases cstr_eq_some 0 hcmd with ⟨hnul, rest, hmem⟩
        cases req with
        | nil => simp at hmem
        | cons t bs =>
            rw [List.drop_one, List.tail_cons] at hmem
            cases rest with
            | nil =>
                -- the message ends where its count should be
                rw [hmem, readHeader, List.drop_one, List.tail_cons, cstr_append 0 hnul] at h
                simp at h
            | cons n rest =>
                rw [hmem, readHeader_spelled hnul] at h
                simp only [Option.some.injEq, Prod.mk.injEq] at h
                exact ⟨t, cmd, n, rest, by rw [hmem], hnul, h.1.symm, h.2.symm⟩
  · rintro ⟨t, cmd, n, rest, rfl, hnul, rfl, rfl⟩
    exact readHeader_spelled hnul

/-- `putenv` reaches the entries in front of the first one without an `=`. -/
theorem envLoop_table (es : List Bytes) (hes : ∀ e ∈ es, 0 ∉ e) :
    ∀ {req : Bytes} {offset : ℕ}, req.drop offset = table 0 es ++ rest →
      envLoop req es.length offset = some (es.takeWhile (eqSign ∈ ·)) := by
  induction es with
  | nil => intro req offset _; simp [envLoop]
  | cons e es ih =>
      intro req offset h
      have he : 0 ∉ e := hes e (by simp)
      have h' : req.drop offset = e ++ 0 :: (table 0 es ++ rest) := by simpa using h
      have htail := ih (fun x hx => hes x (by simp [hx])) (drop_past 0 h')
      by_cases heq : eqSign ∈ e
      · simp [envLoop, h', he, heq, htail]
      · simp [envLoop, h', he, heq]

/-- Behind the header of a spelled-out message the memory goes on. -/
theorem drop_header :
    (t :: (cmd ++ 0 :: n :: rest)).drop (cmd.length + 3) = rest := by
  have hcount : (t :: (cmd ++ 0 :: n :: rest)).drop (cmd.length + 2) = n :: rest :=
    drop_head 0 (t :: cmd) (n :: rest)
  exact (drop_next hcount).2

/-- The argument vector of a spelled-out message. -/
theorem writeParams_spelled (hcmd : 0 ∉ cmd) (hps : ∀ p ∈ params, 0 ∉ p) :
    writeParams (t :: (cmd ++ 0 :: n :: (table 0 params ++ rest))) params.length (cmd.length + 3) =
      some (argvCells (cmd :: params), cmd.length + 3 + (table 0 params).length) := by
  have hparams : paramLoop (t :: (cmd ++ 0 :: n :: (table 0 params ++ rest))) params.length
      (cmd.length + 3) = some (params, cmd.length + 3 + (table 0 params).length) :=
    cstrs_table 0 params hps drop_header
  simp [writeParams, hcmd, hparams]

/-- The grandchild's reading of a spelled-out message. -/
theorem grandchildParse_image (hcmd : 0 ∉ cmd) (hps : ∀ p ∈ params, 0 ∉ p)
    (hes : ∀ e ∈ envs, 0 ∉ e) (hm : m.toNat = envs.length) :
    grandchildParse (image t cmd n params m envs ++ rest) params.length (cmd.length + 3) =
      some (if maxParam < m.toNat then .badEnvNum
        else .ready (argvCells (cmd :: params)) (envs.takeWhile (eqSign ∈ ·))) := by
  rw [image_append]
  set req := t :: (cmd ++ 0 :: n :: (table 0 params ++ m :: (table 0 envs ++ rest))) with hreq
  have hparams : writeParams req params.length (cmd.length + 3) =
      some (argvCells (cmd :: params), cmd.length + 3 + (table 0 params).length) :=
    writeParams_spelled hcmd hps
  have hbehind : req.drop (cmd.length + 3 + (table 0 params).length) =
      m :: (table 0 envs ++ rest) := by
    rw [← List.drop_drop, hreq, drop_header]
    simp
  rcases drop_next hbehind with ⟨hcount, hentries⟩
  have henvs : envLoop req m.toNat (cmd.length + 3 + (table 0 params).length + 1) =
      some (envs.takeWhile (eqSign ∈ ·)) := by
    rw [hm]
    exact envLoop_table envs hes hentries
  simp only [grandchildParse, hparams, hcount, henvs, Option.bind_eq_bind, Option.bind_some]
  split <;> rfl

/-! ### A message whose end never arrived

Only the first `k` bytes arrived in a cleared buffer. What is there is again a
message, in front of bare NULs. It lost both counts, or the second, or only the
ends of the environment entries. -/

variable {k : ℕ}

/-- The type arrived with the first byte; the cut falls behind it. -/
theorem cut_image (hk : 0 < k) :
    cut 0 k (image t cmd n params m envs) =
      t :: (cut 0 (k - 1) (cmd ++ [0]) ++
        cut 0 (k - 1 - (cmd.length + 1)) (n :: (table 0 params ++ m :: table 0 envs))) := by
  have himage : image t cmd n params m envs =
      t :: ((cmd ++ [0]) ++ n :: (table 0 params ++ m :: table 0 envs)) := by
    simp [image]
  rw [himage, cut_cons 0 hk, cut_append]
  simp

/-- Behind the argument count the cut falls into the arguments, and goes on
behind them. -/
theorem cut_image_count (h : cmd.length + 2 < k) :
    cut 0 k (image t cmd n params m envs) =
      t :: (cmd ++ 0 :: n :: (cut 0 (k - (cmd.length + 3)) (table 0 params) ++
        cut 0 (k - (cmd.length + 3 + (table 0 params).length)) (m :: table 0 envs))) := by
  have hhead : cut 0 (k - 1) (cmd ++ [0]) = cmd ++ [0] := cut_of_length_le 0 (by simp; omega)
  have hargs : k - 1 - (cmd.length + 1) - 1 = k - (cmd.length + 3) := by omega
  have hbehind : k - (cmd.length + 3) - (table 0 params).length =
      k - (cmd.length + 3 + (table 0 params).length) := by omega
  rw [cut_image (by omega), hhead, cut_cons 0 (by omega), cut_append, hargs, hbehind]
  simp

/-- The cut falls into the command, its NUL or the count. -/
theorem cut_image_command (hk : 0 < k) (h : k ≤ cmd.length + 2) :
    ∃ j, cut 0 k (image t cmd n params m envs) =
      image t (cmd.take (k - 1)) 0 [] 0 [] ++ List.replicate j 0 := by
  set rest := table 0 params ++ m :: table 0 envs with hrest
  have hzero : k - 1 - (cmd.length + 1) = 0 := by omega
  -- at least two NULs follow the one of the command: they are read as the counts
  have hnuls : List.replicate (cmd.length - (k - 1)) (0 : UInt8) ++
      List.replicate (n :: rest).length 0 =
        0 :: 0 :: List.replicate (cmd.length - (k - 1) + (rest.length - 1)) 0 := by
    have hlen : 1 ≤ rest.length := by simp [hrest]; omega
    rw [← List.replicate_add, ← List.replicate_succ, ← List.replicate_succ, List.length_cons]
    congr 1
    omega
  refine ⟨cmd.length - (k - 1) + (rest.length - 1), ?_⟩
  rw [cut_image hk, ← hrest, hzero, cut_zero, cut_terminated, List.append_assoc, List.cons_append,
    hnuls]
  simp [image]

/-- The cut falls into the arguments or the second count. -/
theorem cut_image_params (hps : ∀ p ∈ params, 0 ∉ p) (h : cmd.length + 2 < k)
    (h' : k ≤ cmd.length + 3 + (table 0 params).length) :
    ∃ ps j, ps.length = params.length ∧ (∀ p ∈ ps, 0 ∉ p) ∧
      cut 0 k (image t cmd n params m envs) = image t cmd n ps 0 [] ++ List.replicate j 0 := by
  have hzero : k - (cmd.length + 3 + (table 0 params).length) = 0 := by omega
  rcases cut_table 0 params hps (k - (cmd.length + 3)) with ⟨ps, j, hlen, hall, hcut⟩
  refine ⟨ps, j + (table 0 envs).length, hlen, hall, ?_⟩
  rw [cut_image_count h, hzero, cut_zero, hcut]
  simp [image, ← List.replicate_succ, Nat.add_assoc]

/-- The cut falls into the environment entries, or behind them. -/
theorem cut_image_envs (hes : ∀ e ∈ envs, 0 ∉ e)
    (h : cmd.length + 3 + (table 0 params).length < k) :
    ∃ es j, es.length = envs.length ∧ (∀ e ∈ es, 0 ∉ e) ∧
      cut 0 k (image t cmd n params m envs) = image t cmd n params m es ++ List.replicate j 0 := by
  have hargs : cut 0 (k - (cmd.length + 3)) (table 0 params) = table 0 params :=
    cut_of_length_le 0 (by omega)
  rcases cut_table 0 envs hes (k - (cmd.length + 3 + (table 0 params).length) - 1) with
    ⟨es, j, hlen, hall, hcut⟩
  refine ⟨es, j, hlen, hall, ?_⟩
  rw [cut_image_count (by omega), hargs, cut_cons 0 (by omega), hcut]
  simp [image]

end Image

end Su
