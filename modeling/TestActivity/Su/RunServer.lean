import TestActivity.Su.HandleRequest

/-!
# `run_server`: one client

The server reads once into a cleared 4096-byte buffer, answers the three
control messages itself and forks `handle_request` for everything else.

The connection is a stream: one `read` returns some non-empty beginning of
what the client sent. `executed_faithful_iff` says for which requests and
which such beginnings the server executes what was sent or nothing;
`encode_dispatched` is the round trip when the whole request arrives at once.
-/

namespace Su

open CString

/-- `strcmp(req, lit) == 0`. -/
def strcmpEq : Bytes → Bytes → Bool
  | [], _ => false
  | b :: _, [] => b == 0
  | b :: bs, c :: cs => b == c && strcmpEq bs cs

/-- Who answers a request. -/
inductive Branch where
  | terminate
  | ping
  | getversion
  | handle
deriving DecidableEq, Repr

/-- The comparisons with the three control messages. -/
def dispatch (req : Bytes) : Branch :=
  if strcmpEq req (ascii "\n\n") then .terminate
  else if strcmpEq req (ascii "\n") then .ping
  else if strcmpEq req (ascii "VERSION\n") then .getversion
  else .handle

/-- What becomes of an accepted client. -/
inductive Client where
  /-- `readx` returned 0 or less: `-1` is answered -/
  | unread
  /-- the buffer, and who answers it -/
  | served (b : Branch) (req : Bytes)
deriving DecidableEq, Repr

/-- `memset(req,0,..)`, `readx`, and the dispatch; `none` while `readx` waits. -/
def serveClient (reads : List ReadResult) : Option Client :=
  match readx reads with
  | none => none
  | some (.data []) => some .unread
  | some (.data bs) => some (.served (dispatch (fill 0 reqSize bs)) (fill 0 reqSize bs))
  | some _ => some .unread

/-- The command the server executes for a client. `forkOk` is the outcome of
the fork in `run_server`, `k` those of the calls in `handle_request`. -/
def serverExecutes (reads : List ReadResult) (forkOk : Bool) (k : Kernel) : Option Exec :=
  match serveClient reads with
  | some (.served .handle req) => if forkOk then executed req k else none
  | _ => none

/-! ## A request on the wire -/

/-- What a request asks for. -/
def Request.exec (r : Request) : Exec := ⟨resultType r.rtype, r.cmd :: r.params, r.envs⟩

/-- A way the stream hands a message to the server: retried errors, a non-empty
beginning of the message, and whatever comes later. -/
structure Delivery (msg : Bytes) where
  retries : List Errno
  retries_ok : ∀ e ∈ retries, Retryable e
  first : Bytes
  first_ne : first ≠ []
  rest : Bytes
  split : first ++ rest = msg
  later : List ReadResult

/-- The results of the reads on the connection. -/
def Delivery.reads {msg : Bytes} (d : Delivery msg) : List ReadResult :=
  d.retries.map .error ++ .data d.first :: d.later

theorem Delivery.first_eq {msg : Bytes} (d : Delivery msg) : d.first = msg.take d.first.length := by
  calc d.first = (d.first ++ d.rest).take d.first.length := by simp
    _ = msg.take d.first.length := by rw [d.split]

/-- The server sees the beginning that was delivered. -/
theorem Delivery.serveClient_eq {msg : Bytes} (d : Delivery msg) :
    serveClient d.reads =
      some (.served (dispatch (fill 0 reqSize d.first)) (fill 0 reqSize d.first)) := by
  have hread : readx d.reads = some (.data d.first) := by
    unfold Delivery.reads
    rw [readx_retry d.retries_ok]
    rfl
  have hne := d.first_ne
  unfold serveClient
  rw [hread]
  cases hf : d.first with
  | nil => exact absurd hf hne
  | cons b bs => rfl

/-- No control message starts with a request type. -/
theorem dispatch_request {t : UInt8} (ht : t ∈ [16, 32, 64]) (bs : Bytes) :
    dispatch (t :: bs) = .handle := by
  have h10 : (t == 10) = false := by
    revert ht
    simp only [List.mem_cons, List.not_mem_nil, or_false]
    rintro (rfl | rfl | rfl) <;> rfl
  have h86 : (t == 86) = false := by
    revert ht
    simp only [List.mem_cons, List.not_mem_nil, or_false]
    rintro (rfl | rfl | rfl) <;> rfl
  have hterm : ascii "\n\n" = [10, 10] := rfl
  have hping : ascii "\n" = [10] := rfl
  have hver : ascii "VERSION\n" = [86, 69, 82, 83, 73, 79, 78, 10] := rfl
  simp [dispatch, hterm, hping, hver, strcmpEq, h10, h86]

namespace Request

variable (r : Request)

/-- The type of a request is not the terminating NUL. -/
theorem rtype_ne_zero : r.rtype ≠ 0 := by
  intro h
  have hmem := r.rtype_mem
  rw [h] at hmem
  exact absurd hmem (by decide)

/-- A request is dispatched by its first byte, whatever is missing behind it. -/
theorem serveClient_delivery (d : Delivery r.encode) :
    serveClient d.reads = some (.served .handle (fill 0 reqSize d.first)) := by
  have hdispatch : dispatch (fill 0 reqSize d.first) = .handle := by
    cases hf : d.first with
    | nil => exact absurd hf d.first_ne
    | cons b bs =>
        have hb : b = r.rtype := by
          have hsplit := d.split
          rw [hf] at hsplit
          exact (List.cons.inj hsplit).1
        rw [fill, List.cons_append, hb]
        exact dispatch_request r.rtype_mem _
  rw [d.serveClient_eq, hdispatch]

/-! ## The first read decides -/

/-- One of the counts is out of range and has arrived. -/
def RejectedCount (k : ℕ) : Prop :=
  (maxParam < r.params.length ∧ r.cmd.length + 2 < k) ∨
    (maxParam < r.envs.length ∧ r.cmd.length + 3 + (table 0 r.params).length < k)

/-- Nothing but NULs is missing, and the request is one the server can take:
both counts in range, every environment entry with its `=`. -/
def WholeButNuls (k : ℕ) : Prop :=
  (∀ b ∈ r.encode.drop k, b = 0) ∧ r.params.length ≤ maxParam ∧ r.envs.length ≤ maxParam ∧
    ∀ e ∈ r.envs, eqSign ∈ e

/-- The memory `handle_request` parses when `k` bytes of the request arrived. -/
def buffer (k : ℕ) : Bytes := fill 0 reqSize (cut 0 k r.encode)

/-- What the server executes for a request, after the first read. -/
theorem serverExecutes_delivery (d : Delivery r.encode) (forkOk : Bool) (k : Kernel) :
    serverExecutes d.reads forkOk k =
      if forkOk then executed (r.buffer d.first.length) k else none := by
  unfold serverExecutes buffer
  rw [r.serveClient_delivery d, ← fill_take 0 reqSize d.first.length r.encode r.fits, ← d.first_eq]

/-- What the server sees of a request is again a message, in front of NULs. -/
theorem cut_encode {k : ℕ} (hk : 0 < k) :
    ∃ cmd n ps m es j, cut 0 k r.encode =
        image r.rtype cmd n ps m es ++ List.replicate j 0 ∧
      0 ∉ cmd ∧ (∀ p ∈ ps, 0 ∉ p) ∧ (∀ e ∈ es, 0 ∉ e) ∧ n.toNat = ps.length ∧
      m.toNat = es.length ∧ es.length ≤ r.envs.length ∧
      (r.RejectedCount k ↔ maxParam < ps.length ∨ maxParam < es.length) := by
  have hparams := toNat_count r.params_length
  have henvs := toNat_count r.envs_length
  unfold encode RejectedCount
  rcases Nat.lt_or_ge (r.cmd.length + 2) k with hcount | hcount
  · rcases Nat.lt_or_ge (r.cmd.length + 3 + (table 0 r.params).length) k with hnum | hnum
    · -- both counts arrived
      rcases cut_image_envs r.envs_nul hnum with ⟨es, j, hlen, hall, hcut⟩
      refine ⟨_, _, _, _, es, j, hcut, r.cmd_nul, r.params_nul, hall, hparams, ?_, ?_, ?_⟩
      · rw [henvs, hlen]
      · omega
      · omega
    · -- the second count did not arrive
      rcases cut_image_params r.params_nul hcount hnum with ⟨ps, j, hlen, hall, hcut⟩
      refine ⟨_, _, ps, 0, [], j, hcut, r.cmd_nul, hall, by simp, ?_, rfl, by simp, ?_⟩
      · rw [hparams, hlen]
      · simp only [List.length_nil]
        omega
  · -- neither count arrived
    rcases cut_image_command hk hcount with ⟨j, hcut⟩
    refine ⟨_, 0, [], 0, [], j, hcut, ?_, by simp, by simp, rfl, rfl, by simp, ?_⟩
    · intro h0
      exact r.cmd_nul (List.mem_of_mem_take h0)
    · simp only [List.length_nil]
      omega

/-- If what the server sees is the request and NULs, then only NULs are missing. -/
theorem missing_nuls {k j : ℕ} (h : cut 0 k r.encode = r.encode ++ List.replicate j 0) :
    ∀ b ∈ r.encode.drop k, b = 0 := by
  have hlen := congrArg List.length h
  simp only [length_cut, List.length_append, List.length_replicate] at hlen
  obtain rfl : j = 0 := by omega
  rw [List.replicate_zero, List.append_nil] at h
  exact (cut_eq_self_iff 0 k r.encode).1 h

/-- With a count out of range nothing is executed. -/
theorem executed_of_rejectedCount {len : ℕ} (hlen : 0 < len) (h : r.RejectedCount len)
    (k : Kernel) : executed (r.buffer len) k = none := by
  rcases r.cut_encode hlen with ⟨cmd, n, ps, m, es, j, hcut, hcmd, hps, hes, hn, hm, -, hrej⟩
  rw [Option.eq_none_iff_forall_ne_some]
  intro e he
  unfold buffer at he
  rw [hcut, fill, List.append_assoc] at he
  rcases (executed_image r.rtype_ne_zero hcmd hps hes hn hm).1 he with ⟨-, hpsle, hesle, -⟩
  have hcount := hrej.1 h
  omega

/-- With nothing but NULs missing the request itself is executed, if anything. -/
theorem executed_of_wholeButNuls {len : ℕ} (h : r.WholeButNuls len) {k : Kernel} {e : Exec}
    (he : executed (r.buffer len) k = some e) : e = r.exec := by
  rcases h with ⟨hnuls, -, -, heq⟩
  have hall : r.envs.takeWhile (eqSign ∈ ·) = r.envs :=
    List.takeWhile_eq_self_iff.2 fun x hx => by simpa using heq x hx
  rw [buffer, (cut_eq_self_iff 0 len r.encode).2 hnuls, fill, encode] at he
  obtain ⟨-, -, -, rfl⟩ := (executed_image r.rtype_ne_zero r.cmd_nul r.params_nul r.envs_nul
    (toNat_count r.params_length) (toNat_count r.envs_length)).1 he
  rw [hall, exec]

/-- With its counts in range a server that is refused nothing executes
something; if that is the request, nothing but NULs was missing. -/
theorem wholeButNuls_of_executed {len : ℕ} (hlen : 0 < len) (h : ¬ r.RejectedCount len) :
    ∃ e, executed (r.buffer len) willing = some e ∧ (e = r.exec → r.WholeButNuls len) := by
  rcases r.cut_encode hlen with ⟨cmd, n, ps, m, es, j, hcut, hcmd, hps, hes, hn, hm, hle, hrej⟩
  obtain ⟨hpsle, hesle⟩ : ps.length ≤ maxParam ∧ es.length ≤ maxParam := by
    rw [hrej] at h
    omega
  have hwilling : willing.Willing := ⟨rfl, rfl, rfl, rfl⟩
  refine ⟨⟨resultType r.rtype, cmd :: ps, es.takeWhile (eqSign ∈ ·)⟩, ?_, ?_⟩
  · unfold buffer
    rw [hcut, fill, List.append_assoc]
    exact (executed_image r.rtype_ne_zero hcmd hps hes hn hm).2 ⟨hwilling, hpsle, hesle, rfl⟩
  · intro hexec
    simp only [exec, Exec.mk.injEq, List.cons.injEq, true_and] at hexec
    rcases hexec with ⟨⟨rfl, rfl⟩, henvs⟩
    -- no entry was dropped, so every entry has its `=`
    have hsub := List.takeWhile_prefix (l := es) (eqSign ∈ ·)
    obtain rfl : r.envs = es := by
      rw [← henvs] at hle ⊢
      exact hsub.eq_of_length_le hle
    have heq := List.takeWhile_eq_self_iff.1 henvs
    have himage : r.encode = image r.rtype r.cmd n r.params m r.envs := by
      rw [encode, ← hn, ← hm, UInt8.ofNat_toNat, UInt8.ofNat_toNat]
    exact ⟨r.missing_nuls (hcut.trans (by rw [himage])), hpsle, hesle,
      fun x hx => by simpa using heq x hx⟩

end Request

/-- The server executes what was sent, or nothing, exactly when it rejects a
count it has read, or when nothing but NULs of an acceptable request is missing
from the first read. -/
theorem executed_faithful_iff (r : Request) (d : Delivery r.encode) :
    (∀ forkOk k, serverExecutes d.reads forkOk k = none ∨
        serverExecutes d.reads forkOk k = some r.exec) ↔
      r.RejectedCount d.first.length ∨ r.WholeButNuls d.first.length := by
  have hlen : 0 < d.first.length := List.length_pos_of_ne_nil d.first_ne
  simp only [r.serverExecutes_delivery d]
  constructor
  · intro h
    by_cases hcount : r.RejectedCount d.first.length
    · exact Or.inl hcount
    · right
      rcases r.wholeButNuls_of_executed hlen hcount with ⟨e, hrun, hwhole⟩
      have hfaithful := h true willing
      rw [if_pos rfl, hrun] at hfaithful
      rcases hfaithful with hnone | hsome
      · cases hnone
      · exact hwhole (Option.some.inj hsome)
  · intro h forkOk k
    cases forkOk with
    | false => exact Or.inl rfl
    | true =>
        rw [if_pos rfl]
        rcases h with hcount | hwhole
        · exact Or.inl (r.executed_of_rejectedCount hlen hcount k)
        · cases hrun : executed (r.buffer d.first.length) k with
          | none => exact Or.inl rfl
          | some e => exact Or.inr (by rw [r.executed_of_wholeButNuls hwhole hrun])

/-- `rm -r /data/a`, for an integer result. -/
def rmRequest : Request where
  rtype := 32
  cmd := ascii "rm"
  params := [ascii "-r", ascii "/data/a"]
  envs := []
  rtype_mem := by decide
  cmd_nul := by decide
  params_nul := by decide
  envs_nul := by decide
  params_length := by decide
  envs_length := by decide
  fits := by decide

/-- The first read returns the request up to the `/` of its last argument. -/
def rmDelivery : Delivery rmRequest.encode where
  retries := []
  retries_ok := by simp
  first := rmRequest.encode.take 9
  first_ne := by decide
  rest := rmRequest.encode.drop 9
  split := List.take_append_drop 9 _
  later := []

/-- The server executes `rm -r /`. -/
theorem rmDelivery_unfaithful :
    ¬ ∀ forkOk k, serverExecutes rmDelivery.reads forkOk k = none ∨
        serverExecutes rmDelivery.reads forkOk k = some rmRequest.exec := by
  intro h
  have hrun : serverExecutes rmDelivery.reads true willing =
      some ⟨.int, [ascii "rm", ascii "-r", ascii "/"], []⟩ := by decide
  rcases h true willing with h | h
  · rw [hrun] at h
    cases h
  · rw [hrun] at h
    exact absurd h (by decide)

/-! ## The round trip -/

/-- A request that arrives whole, with counts in range and an `=` in every
environment entry, reaches `handle_request` and is parsed into what was
encoded: the vector `[c, p1, .., pn, NULL]` and the entries, in order. -/
theorem encode_dispatched (r : Request) (hparams : r.params.length ≤ maxParam)
    (henvs : r.envs.length ≤ maxParam) (heq : ∀ e ∈ r.envs, eqSign ∈ e)
    (d : Delivery r.encode) (hone : d.first = r.encode) :
    ∃ req argc offset, serveClient d.reads = some (.served .handle req) ∧
      readHeader req = some (argc, offset) ∧ argc ≤ maxParam ∧
      grandchildParse req argc offset =
        some (.ready ((r.cmd :: r.params).map some ++ [none]) r.envs) := by
  have hn := toNat_count r.params_length
  have hm := toNat_count r.envs_length
  have hm' : ¬ maxParam < r.envs.length := by omega
  have hall : r.envs.takeWhile (eqSign ∈ ·) = r.envs :=
    List.takeWhile_eq_self_iff.2 fun e he => by simpa using heq e he
  refine ⟨fill 0 reqSize r.encode, r.params.length, r.cmd.length + 3, ?_, ?_, hparams, ?_⟩
  · rw [r.serveClient_delivery d, hone]
  · rw [fill, Request.encode, image_append, readHeader_spelled r.cmd_nul, hn]
  · rw [fill, Request.encode, grandchildParse_image r.cmd_nul r.params_nul r.envs_nul hm, hm,
      if_neg hm', hall, argvCells]

/-- `rm -r /data/a`, in one read. -/
theorem encode_dispatched_rm :
    ∃ req argc offset, serveClient [.data rmRequest.encode] = some (.served .handle req) ∧
      readHeader req = some (argc, offset) ∧ argc ≤ maxParam ∧
      grandchildParse req argc offset =
        some (.ready [some (ascii "rm"), some (ascii "-r"), some (ascii "/data/a"), none] []) :=
  encode_dispatched rmRequest (by decide) (by decide) (by decide)
    ⟨[], by simp, rmRequest.encode, by decide, [], List.append_nil _, []⟩ rfl

end Su
