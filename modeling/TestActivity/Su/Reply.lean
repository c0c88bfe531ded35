import TestActivity.Su.HandleRequest

/-!
# What the client is told

The reply of a call is written in different places: by the relay of the
command's output, and behind the labels `failure`, `status_failure` and
`unconditional_success`. The exit status of the command is not collected.

* `received_handleRequest` collects what the client receives on every path.
* `zero_reply_sound_iff`: on which paths a zero reply to an INT request means
  that the command was run and ended with status 0. What a command prints counts
  as a zero by what the client's socket takes of it, turn by turn (`Spells`).
* `answered_iff`: when a request other than STREAM is answered at all, and a
  SYSCALL_INT request is answered with the result of its system call.
-/

namespace Su

open Transfer

/-! ## Bytes on every path -/

@[simp] theorem sentBytes_nil : sentBytes [] = [] := rfl

@[simp] theorem sentBytes_append (es es' : List Event) :
    sentBytes (es ++ es') = sentBytes es ++ sentBytes es' := by
  simp [sentBytes]

@[simp] theorem sentBytes_send (bs : Bytes) (es : List Event) :
    sentBytes (.send bs :: es) = bs ++ sentBytes es := by
  simp [sentBytes]

@[simp] theorem sentBytes_cons {e : Event} (he : ∀ bs, e ≠ .send bs) (es : List Event) :
    sentBytes (e :: es) = sentBytes es := by
  cases e with
  | send bs => exact absurd rfl (he bs)
  | fillSockfd => rfl
  | useSockfd => rfl
  | closeClient => rfl
  | killChild => rfl
  | waitChild => rfl

/-- What reaches the client of a reply of the server's own. -/
def replyBytes (k : Kernel) (text : Bytes) : Bytes := sentBytes (reply k text)

theorem replyBytes_eq_nil_iff (k : Kernel) {text : Bytes} (h : text ≠ []) :
    replyBytes k text = [] ↔ k.replyWrite = none := by
  cases hw : k.replyWrite with
  | none => simp [replyBytes, reply, hw]
  | some n =>
      have hpos := k.replyWrite_pos n hw
      have hn : n ≠ 0 := by omega
      simp [replyBytes, reply, hw, hn, h]

@[simp] theorem received_closed (finish : Finish) :
    received ⟨[.closeClient, .useSockfd], finish⟩ = [] := rfl

@[simp] theorem received_streamFailure : received streamFailure = [] := rfl

@[simp] theorem received_unconditionalSuccess (k : Kernel) :
    received (unconditionalSuccess k) = replyBytes k zero := by
  simp [received, unconditionalSuccess, replyBytes]

@[simp] theorem received_after (s : Served) (es : List Event) :
    received (s.after es) = sentBytes es ++ received s := by
  simp [received, Served.after]

/-- Behind `failure`. -/
theorem received_failure (k : Kernel) (rtype : ResultType) :
    received (failure k rtype) =
      match rtype with
      | .stream => []
      | .int => replyBytes k zero
      | _ => replyBytes k minusOne := by
  cases rtype <;> simp [failure, statusFailure, received, replyBytes, streamFailure,
    unconditionalSuccess]

/-- What the client's socket accepts of the command's output. -/
def accepted (rounds : List (Round UInt8)) : Bytes := delivered (offers 0 rounds)

/-- Behind the fork: nothing without a successful `select`; else the output,
the end mark, and the zero of an INT request without output. -/
theorem received_stream (k : Kernel) (rtype : ResultType) (rounds : List (Round UInt8)) :
    received (stream k rtype rounds) =
      if selected k then
        (relayLoop 0 k.markOk 0 rounds).1 ++
          if rtype = .int ∧ rounds = [] then replyBytes k zero else []
      else [] := by
  unfold stream
  cases selected k with
  | false => simp
  | true =>
      cases hend : (relayLoop 0 k.markOk 0 rounds).2 with
      | writeFailed =>
          have hne : rounds ≠ [] := by
            intro hnil
            rw [hnil] at hend
            cases hend
          simp [hend, hne]
      | capped =>
          have hne : rounds ≠ [] := by
            intro hnil
            rw [hnil] at hend
            cases hend
          simp [hend, hne]
      | eof =>
          cases rounds with
          | nil => cases rtype <;> simp [relayLoop, hasSendResult]
          | cons r rs =>
              -- the first write worked, so `has_send_result` is set
              rcases Option.ne_none_iff_exists'.1 (accepted_of_eof hend) with ⟨n, hn⟩
              simp [hend, hasSendResult, hn]

/-- A STREAM request that gets to the relay: its client receives the bytes the
relay loop sends, and nothing else. -/
theorem received_streamRun (run : StreamRun) {k : Kernel} (hsel : selected k = true)
    (hmark : k.markOk = run.markOk) :
    received (stream k .stream (run.rounds.map (Round.map Prod.fst))) =
      run.received.map Prod.fst := by
  have hmap := relayLoop_map (Prod.fst : Tagged → UInt8) endMark run.markOk 0 run.rounds
  have hzero : (endMark : Tagged).1 = 0 := rfl
  rw [hzero] at hmap
  simp [received_stream, hsel, hmark, hmap, StreamRun.received]

/-! ## A zero result -/

/-- What a client reads as the reply: the bytes in front of the first NUL. -/
def replyText (bs : Bytes) : Bytes := bs.takeWhile (· ≠ 0)

/-- The whole reply is the text `0`, with or without its newline. -/
def IsZero (bs : Bytes) : Prop := replyText bs = [48] ∨ replyText bs = [48, 10]

instance (bs : Bytes) : Decidable (IsZero bs) := inferInstanceAs (Decidable (_ ∨ _))

theorem not_isZero_nil : ¬ IsZero [] := by decide

theorem replyText_nul (bs : Bytes) : replyText (bs ++ [0]) = replyText bs := by
  induction bs with
  | nil => rfl
  | cons b bs ih =>
      by_cases hb : b = 0
      · simp [replyText, hb]
      · simpa [replyText, hb] using ih

/-- The end mark is not part of the text. -/
theorem replyText_relay (k : Kernel) (rounds : List (Round UInt8)) :
    replyText (relayLoop 0 k.markOk 0 rounds).1 = replyText (accepted rounds) := by
  rw [relayLoop_eq, accepted]
  split
  · exact replyText_nul _
  · simp

theorem replyText_append {bs : Bytes} (h : 0 ∉ bs) (bs' : Bytes) :
    replyText (bs ++ bs') = bs ++ replyText bs' := by
  unfold replyText
  rw [List.takeWhile_append_of_pos]
  intro b hb
  simpa using ne_of_mem_of_not_mem hb h

theorem replyText_append_of_mem {bs : Bytes} (h : 0 ∈ bs) (bs' : Bytes) :
    replyText (bs ++ bs') = replyText bs := by
  unfold replyText
  rw [List.takeWhile_append, if_neg]
  intro hlen
  have hall := List.takeWhile_eq_self_iff.1
    ((List.takeWhile_prefix (p := fun b : UInt8 => b ≠ 0) (l := bs)).eq_of_length hlen)
  simpa using hall 0 h

theorem replyText_eq_iff {text bs : Bytes} (htext : 0 ∉ text) (hbs : 0 ∈ bs) :
    replyText bs = text ↔ text ++ [0] <+: bs := by
  induction bs generalizing text with
  | nil => simp at hbs
  | cons b bs ih =>
      by_cases hb : b = 0
      · cases text with
        | nil => simp [replyText, hb]
        | cons c text =>
            have hc : c ≠ 0 := by
              rintro rfl
              simp at htext
            simp [replyText, hb, hc]
      · cases text with
        | nil => simp [replyText, hb, Ne.symm hb]
        | cons c text =>
            have hiff : replyText bs = text ↔ text ++ [0] <+: bs :=
              ih (by simp_all) (by simp_all [Ne.symm hb])
            unfold replyText at hiff ⊢
            rw [List.takeWhile_cons_of_pos (by simpa using hb), List.cons_append,
              List.cons_prefix_cons, List.cons.injEq, hiff, eq_comm]

/-- `end.tv_sec-start.tv_sec` is past `MAX_STREAM_EXEC_TIMEOUT`: the turn is the last. -/
def Late (r : Round UInt8) : Prop := maxStreamExecTimeout < r.elapsed

instance (r : Round UInt8) : Decidable (Late r) := inferInstanceAs (Decidable (_ < _))

/-- Turn by turn: what the client's socket takes of the chunks spells `text` to
one who reads up to the first NUL or to the end. -/
inductive Spells : Bytes → List (Round UInt8) → Prop
  /-- the text and a NUL behind it are taken in one turn -/
  | nul {text : Bytes} {r : Round UInt8} {rs : List (Round UInt8)} {n : ℕ}
      (htake : r.accepted = some n) (htext : text ++ [0] <+: r.chunk.take n) : Spells text (r :: rs)
  /-- nothing is taken behind the text: the time is up, the output is at its end,
  or the next write fails -/
  | last {r : Round UInt8} {rs : List (Round UInt8)} {n : ℕ} (htake : r.accepted = some n)
      (htext : 0 ∉ r.chunk.take n) (hlast : Late r ∨ ∀ r' ∈ rs.head?, r'.accepted = none) :
      Spells (r.chunk.take n) (r :: rs)
  /-- a part of the text is taken, and the rest in later turns -/
  | more {text : Bytes} {r : Round UInt8} {rs : List (Round UInt8)} {n : ℕ}
      (htake : r.accepted = some n) (htext : 0 ∉ r.chunk.take n) (htime : ¬ Late r)
      (hrest : Spells text rs) : Spells (r.chunk.take n ++ text) (r :: rs)

theorem delivered_offers_eq_nil_iff (totalLen : ℕ) (rs : List (Round UInt8)) :
    delivered (offers totalLen rs) = [] ↔ ∀ r ∈ rs.head?, r.accepted = none := by
  rw [delivered_eq_nil_iff]
  cases rs with
  | nil => simp [offers]
  | cons r rs => simp [offers]

/-- What the socket takes in a turn is not empty. -/
theorem Round.take_ne_nil {r : Round UInt8} {n : ℕ} (h : r.accepted = some n) :
    r.chunk.take n ≠ [] := by
  have hbounds := r.accepted_bounds n h
  simp only [Ne, List.take_eq_nil_iff]
  rintro (h0 | hnil)
  · omega
  · exact r.chunk_ne hnil

theorem not_spells_nil (text : Bytes) : ¬ Spells text [] := by
  intro h
  cases h

theorem not_spells_failed {text : Bytes} {r : Round UInt8} (h : r.accepted = none)
    (rs : List (Round UInt8)) : ¬ Spells text (r :: rs) := by
  intro hspells
  cases hspells with
  | nul htake => simp [h] at htake
  | last htake => simp [h] at htake
  | more htake => simp [h] at htake

/-- The turn that takes a NUL is the last to count. -/
theorem spells_cons_of_mem {text : Bytes} {r : Round UInt8} {n : ℕ} (h : r.accepted = some n)
    (h0 : 0 ∈ r.chunk.take n) (rs : List (Round UInt8)) :
    Spells text (r :: rs) ↔ text ++ [0] <+: r.chunk.take n := by
  constructor
  · intro hspells
    cases hspells with
    | nul htake htext =>
        obtain rfl := Option.some.inj (h.symm.trans htake)
        exact htext
    | last htake htext =>
        obtain rfl := Option.some.inj (h.symm.trans htake)
        exact absurd h0 htext
    | more htake htext =>
        obtain rfl := Option.some.inj (h.symm.trans htake)
        exact absurd h0 htext
  · exact Spells.nul h

theorem spells_cons_of_notMem {text : Bytes} {r : Round UInt8} {n : ℕ} (h : r.accepted = some n)
    (h0 : 0 ∉ r.chunk.take n) (rs : List (Round UInt8)) :
    Spells text (r :: rs) ↔
      (text = r.chunk.take n ∧ (Late r ∨ ∀ r' ∈ rs.head?, r'.accepted = none)) ∨
        (¬ Late r ∧ ∃ rest, Spells rest rs ∧ text = r.chunk.take n ++ rest) := by
  constructor
  · intro hspells
    cases hspells with
    | nul htake htext =>
        obtain rfl := Option.some.inj (h.symm.trans htake)
        exact absurd (htext.subset (by simp)) h0
    | last htake _ hlast =>
        obtain rfl := Option.some.inj (h.symm.trans htake)
        exact Or.inl ⟨rfl, hlast⟩
    | more htake _ htime hrest =>
        obtain rfl := Option.some.inj (h.symm.trans htake)
        exact Or.inr ⟨htime, _, hrest, rfl⟩
  · rintro (⟨rfl, hlast⟩ | ⟨htime, rest, hrest, rfl⟩)
    · exact Spells.last h h0 hlast
    · exact Spells.more h h0 htime hrest

/-- For a text that is too short for the output cap, it is the text of what the
relay sends. -/
theorem replyText_delivered_iff {text : Bytes} (htext : 0 ∉ text) {totalLen : ℕ}
    {rs : List (Round UInt8)}
    (hcap : totalLen + transferSize * (text.length + 1) ≤ maxOutputBytes) :
    replyText (delivered (offers totalLen rs)) = text ↔
      Spells text rs ∨ (text = [] ∧ ∀ r ∈ rs.head?, r.accepted = none) := by
  induction rs generalizing text totalLen with
  | nil =>
      simp [offers, replyText, not_spells_nil, eq_comm]
  | cons r rs ih =>
      cases hacc : r.accepted with
      | none =>
          have hnil := (delivered_offers_eq_nil_iff totalLen (r :: rs)).2 (by simpa using hacc)
          have hno : ¬ Spells text (r :: rs) := not_spells_failed hacc rs
          simp [hnil, hacc, hno, replyText, eq_comm]
      | some n =>
          have hne := Round.take_ne_nil hacc
          have hlen := r.chunk_le
          have hlate : CapHit (totalLen + r.chunk.length) r ↔ Late r := by
            unfold transferSize at hcap hlen
            exact or_iff_right (by omega)
          have hsend : delivered (offers totalLen (r :: rs)) = r.chunk.take n ++
              if Late r then [] else delivered (offers (totalLen + r.chunk.length) rs) := by
            simp [offers, delivered, hacc, hlate]
          rw [or_iff_left (by simp [hacc]), hsend]
          by_cases h0 : 0 ∈ r.chunk.take n
          · rw [spells_cons_of_mem hacc h0, replyText_append_of_mem h0, replyText_eq_iff htext h0]
          rw [spells_cons_of_notMem hacc h0, replyText_append h0]
          by_cases htime : Late r
          · simp [htime, replyText, eq_comm]
          rw [if_neg htime]
          -- the rest of the text is shorter by what this turn takes
          have hrest : ∀ rest, text = r.chunk.take n ++ rest →
              (replyText (delivered (offers (totalLen + r.chunk.length) rs)) = rest ↔
                Spells rest rs ∨ (rest = [] ∧ ∀ r' ∈ rs.head?, r'.accepted = none)) := by
            intro rest heq
            refine ih (fun hmem => htext (by simp [heq, hmem])) ?_
            have hpos := List.length_pos_of_ne_nil hne
            have htlen : text.length = (r.chunk.take n).length + rest.length := by simp [heq]
            refine le_trans ?_ hcap
            unfold transferSize at hlen ⊢
            omega
          simp only [htime, false_or, not_false_eq_true, true_and]
          constructor
          · intro heq
            rcases (hrest _ heq.symm).1 rfl with hspells | ⟨hnil, hlast⟩
            · exact Or.inr ⟨_, hspells, heq.symm⟩
            · rw [hnil, List.append_nil] at heq
              exact Or.inl ⟨heq.symm, hlast⟩
          · rintro (⟨heq, hlast⟩ | ⟨rest, hspells, heq⟩)
            · rw [(hrest [] (by simpa using heq)).2 (Or.inr ⟨rfl, hlast⟩), List.append_nil, heq]
            · rw [(hrest rest heq).2 (Or.inl hspells), heq]

/-- What the client's socket takes of the output reads as the text `0`. -/
def SpellsZero (rounds : List (Round UInt8)) : Prop :=
  Spells [48] rounds ∨ Spells [48, 10] rounds

theorem isZero_accepted_iff (rounds : List (Round UInt8)) :
    IsZero (accepted rounds) ↔ SpellsZero rounds := by
  have hiff : ∀ text : Bytes, 0 ∉ text → text ≠ [] → text.length ≤ 2 →
      (replyText (accepted rounds) = text ↔ Spells text rounds) := by
    intro text htext hne hlen
    rw [accepted, replyText_delivered_iff htext, or_iff_left (fun h => hne h.1)]
    unfold transferSize maxOutputBytes
    omega
  exact or_congr (hiff [48] (by decide) (by decide) (by decide))
    (hiff [48, 10] (by decide) (by decide) (by decide))

/-- `"0\n"` is a zero result however much of it is accepted. -/
theorem isZero_reply_zero (k : Kernel) : IsZero (replyBytes k zero) ↔ k.replyWrite ≠ none := by
  cases hw : k.replyWrite with
  | none => simp [replyBytes, reply, hw, not_isZero_nil]
  | some n =>
      have hpos := k.replyWrite_pos n hw
      simp only [replyBytes, reply, hw, sentBytes_send, sentBytes_nil, List.append_nil, ne_eq,
        reduceCtorEq, not_false_eq_true, iff_true]
      match n, hpos with
      | 1, _ => decide
      | 2, _ => decide
      | n + 3, _ =>
          rw [List.take_of_length_le (by simp [zero])]
          decide

/-- `"-1\n"` never is. -/
theorem not_isZero_reply_minusOne (k : Kernel) : ¬ IsZero (replyBytes k minusOne) := by
  cases hw : k.replyWrite with
  | none => simp [replyBytes, reply, hw, not_isZero_nil]
  | some n =>
      have hpos := k.replyWrite_pos n hw
      obtain ⟨m, rfl⟩ : ∃ m, n = m + 1 := ⟨n - 1, by omega⟩
      simp [replyBytes, reply, hw, minusOne, IsZero, replyText]

/-! ## The whole call -/

/-- The request gets a child. -/
def Forks (req : Bytes) (k : Kernel) (rtype : ResultType) : Prop :=
  k.forkOk = true ∧ ∃ t argc offset, rtype = resultType t ∧ Passes req k t argc offset

/-- The request gets as far as a `fork` that fails. -/
def ForkFails (req : Bytes) (k : Kernel) : Prop :=
  k.forkOk = false ∧ ∃ t argc offset, Passes req k t argc offset

section Paths

variable {req : Bytes} {k : Kernel} {rtype : ResultType}

theorem rejects_iff : Rejects req k rtype ↔ admission req k = .failure rtype := by
  constructor
  · exact admission_of_rejects
  · intro h
    rcases admission_cases req k with hcrash | ⟨rtype', hrej⟩ | ⟨t, argc, offset, hpass⟩
    · rw [hcrash] at h
      cases h
    · obtain rfl := Admission.failure.inj ((admission_of_rejects hrej).symm.trans h)
      exact hrej
    · rw [admission_of_passes hpass] at h
      split_ifs at h

theorem forks_iff :
    Forks req k rtype ↔ ∃ argc offset, admission req k = .forked rtype argc offset := by
  simp only [admission_eq_forked_iff, Forks]
  constructor
  · rintro ⟨hfork, t, argc, offset, hrtype, hpass⟩
    exact ⟨argc, offset, t, hrtype, hpass, hfork⟩
  · rintro ⟨argc, offset, t, hrtype, hpass, hfork⟩
    exact ⟨hfork, t, argc, offset, hrtype, hpass⟩

theorem forkFails_iff : ForkFails req k ↔ admission req k = .forkFailed := by
  constructor
  · rintro ⟨hfork, t, argc, offset, hpass⟩
    rw [admission_of_passes hpass, hfork, if_neg (by simp)]
  · intro h
    rcases admission_cases req k with hcrash | ⟨rtype', hrej⟩ | ⟨t, argc, offset, hpass⟩
    · rw [hcrash] at h
      cases h
    · rw [admission_of_rejects hrej] at h
      cases h
    · rw [admission_of_passes hpass] at h
      split_ifs at h with hfork
      exact ⟨by simpa using hfork, t, argc, offset, hpass⟩

/-- The type byte decides about the type on every path. -/
theorem Rejects.rtype_eq {t : UInt8} (h : Rejects req k rtype) (ht : req[0]? = some t) :
    rtype = resultType t := by
  rcases h with ⟨t', ht', rfl, -⟩
  rw [Option.some.inj (ht'.symm.trans ht)]

theorem Forks.rtype_eq {t : UInt8} (h : Forks req k rtype) (ht : req[0]? = some t) :
    rtype = resultType t := by
  rcases h with ⟨-, t', argc, offset, rfl, hpass⟩
  rw [Option.some.inj (hpass.first.symm.trans ht)]

/-- What the client receives on every path. -/
theorem received_handleRequest (req : Bytes) (k : Kernel) (rounds : List (Round UInt8)) :
    received (handleRequest req k rounds) =
      match admission req k with
      | .crash => []
      | .failure rtype => received (failure k rtype)
      | .forkFailed => replyBytes k minusOne
      | .forked rtype _ _ => received (stream k rtype rounds) := by
  cases hadm : admission req k with
  | crash => simp [handleRequest, hadm, received]
  | failure rtype => simp [handleRequest, hadm]
  | forkFailed => simp [handleRequest, hadm, received, replyBytes]
  | forked rtype argc offset => simp [handleRequest, hadm]

/-- When the client of an INT request is told zero: the request was rejected,
or nothing was printed, and the reply gets through, or what gets through of the
output is the text `0`. -/
theorem isZero_received_iff (hint : req[0]? = some 32) (rounds : List (Round UInt8)) :
    IsZero (received (handleRequest req k rounds)) ↔
      (Rejects req k .int ∧ k.replyWrite ≠ none) ∨
        (Forks req k .int ∧ selected k = true ∧
          ((rounds = [] ∧ k.replyWrite ≠ none) ∨ IsZero (accepted rounds))) := by
  rw [received_handleRequest, rejects_iff, forks_iff]
  cases hadm : admission req k with
  | crash => simp [not_isZero_nil]
  | failure rtype =>
      obtain rfl : rtype = .int := (rejects_iff.2 hadm).rtype_eq hint
      simp [received_failure, isZero_reply_zero]
  | forkFailed => simp [not_isZero_reply_minusOne]
  | forked rtype argc offset =>
      obtain rfl : rtype = .int := (forks_iff.2 ⟨argc, offset, hadm⟩).rtype_eq hint
      cases hsel : selected k with
      | false => simp [received_stream, hsel, not_isZero_nil]
      | true =>
          by_cases hr : rounds = []
          · -- without output the server sends its own zero
            subst hr
            have hacc : ¬ IsZero (accepted []) := not_isZero_nil
            simp [received_stream, hsel, relayLoop, isZero_reply_zero, hacc]
          · simp [received_stream, hsel, hr, IsZero, replyText_relay]

end Paths

/-- The command of the request is started on the device and ends with status 0:
the tool that `cmd_main` finds under the name, or else the program. -/
inductive EndsWell (w : World) (e : Exec) : Prop
  | tool {name : Bytes} {argv : List Bytes} {entry : Bytes} {t : Tool} {res : ℤ}
      (hname : toolName e.params = (name, argv))
      (hfound : tools.find? (·.1 == name) = some (entry, t))
      (hend : (w.toolMain t argv).ended = .returned res ∨ (w.toolMain t argv).ended = .exited res)
      (hres : res % 256 = 0)
  | program {name : Bytes} {argv : List Bytes} {p : ProgramRun}
      (hname : toolName e.params = (name, argv)) (hfound : tools.find? (·.1 == name) = none)
      (hexec : w.execv e.params e.envs = some p) (hres : p.status = some 0)

/-- A call together with what the command does on the device. -/
structure Exchange where
  req : Bytes
  k : Kernel
  world : World
  rounds : List (Round UInt8)
  /-- the relay reads what the command writes -/
  rounds_output : output rounds = (commandRun world req k).output

namespace Exchange

variable (x : Exchange)

/-- What the client receives. -/
def received : Bytes := Su.received (handleRequest x.req x.k x.rounds)

/-- The command was run and ended with exit status 0. -/
def Succeeded : Prop :=
  (commandRun x.world x.req x.k).ran = true ∧ (commandRun x.world x.req x.k).status = some 0

instance : Decidable x.Succeeded := inferInstanceAs (Decidable (_ ∧ _))

/-- The path the request takes keeps the convention of the zero reply. For a
rejected request the server writes a zero of its own, which must not get through;
for a command without output too, and that one is right if the command ends well;
what a command prints is right if it does not read as a zero or the command ends
well. -/
structure KeepsConvention : Prop where
  rejected : Rejects x.req x.k .int → x.k.replyWrite = none
  silent : Forks x.req x.k .int → selected x.k = true → x.rounds = [] →
    x.k.replyWrite = none ∨ ∃ e, executed x.req x.k = some e ∧ EndsWell x.world e
  prints : Forks x.req x.k .int → selected x.k = true → x.rounds ≠ [] →
    ¬ SpellsZero x.rounds ∨ ∃ e, executed x.req x.k = some e ∧ EndsWell x.world e

/-- `directsyscall_main` was called and returned 0. -/
def DirectReturnsZero : Prop :=
  ∃ e, executed x.req x.k = some e ∧ e.rtype = .syscallInt ∧
    (directsyscallMain x.world e.params).res = 0

/-- The client hears something, and in the case of a SYSCALL_INT request zero
exactly if that is the result. -/
def Answered : Prop :=
  x.received ≠ [] ∧ (x.req[0]? = some 16 → (IsZero x.received ↔ x.DirectReturnsZero))

end Exchange

/-- An executed command has the type of the request. -/
theorem executed_rtype {req : Bytes} {k : Kernel} {e : Exec} {t : UInt8}
    (h : executed req k = some e) (ht : req[0]? = some t) : e.rtype = resultType t := by
  rcases executed_eq_some_iff.1 h with ⟨rtype, argc, offset, params, envs, hadm, -, -, rfl⟩
  exact (forks_iff.2 ⟨argc, offset, hadm⟩).rtype_eq ht

theorem exitStatus_eq_zero_iff (res : ℤ) : exitStatus res = 0 ↔ res % 256 = 0 := by
  unfold exitStatus
  omega

/-- The grandchild's run of a command that is no direct system call. -/
theorem runCommand_iff (w : World) {e : Exec} (he : e.rtype ≠ .syscallInt) :
    ((runCommand w e).ran = true ∧ (runCommand w e).status = some 0) ↔ EndsWell w e := by
  obtain ⟨name, argv, hname⟩ : ∃ name argv, toolName e.params = (name, argv) := ⟨_, _, rfl⟩
  unfold runCommand cmdMain
  rw [if_neg he, hname]
  dsimp only
  cases hfound : tools.find? (·.1 == name) with
  | none =>
      -- no such tool: `execv` decides
      have hprogram : EndsWell w e ↔ ∃ p, w.execv e.params e.envs = some p ∧ p.status = some 0 := by
        constructor
        · intro h
          cases h with
          | tool hname' hfound' =>
              obtain ⟨rfl, rfl⟩ := Prod.mk.inj (hname.symm.trans hname')
              rw [hfound] at hfound'
              cases hfound'
          | program _ _ hexec hres => exact ⟨_, hexec, hres⟩
        · rintro ⟨p, hexec, hres⟩
          exact .program hname hfound hexec hres
      rw [hprogram]
      cases hexec : w.execv e.params e.envs with
      | none => simp
      | some p => simp
  | some entry =>
      obtain ⟨entry, t⟩ := entry
      have htool : EndsWell w e ↔ ∃ res, ((w.toolMain t argv).ended = .returned res ∨
          (w.toolMain t argv).ended = .exited res) ∧ res % 256 = 0 := by
        constructor
        · intro h
          cases h with
          | tool hname' hfound' hend hres =>
              obtain ⟨rfl, rfl⟩ := Prod.mk.inj (hname.symm.trans hname')
              obtain ⟨rfl, rfl⟩ := Prod.mk.inj (Option.some.inj (hfound.symm.trans hfound'))
              exact ⟨_, hend, hres⟩
          | program hname' hfound' =>
              obtain ⟨rfl, rfl⟩ := Prod.mk.inj (hname.symm.trans hname')
              rw [hfound] at hfound'
              cases hfound'
        · rintro ⟨res, hend, hres⟩
          exact .tool hname hfound hend hres
      rw [htool]
      have hne := w.toolMain_ne t argv
      cases hend : (w.toolMain t argv).ended with
      | noStatus => simp
      | exited s => simp [exitStatus_eq_zero_iff]
      | returned res =>
          have hres : res ≠ -100 := by
            rintro rfl
            exact hne hend
          simp [hres, exitStatus_eq_zero_iff]

namespace Exchange

variable (x : Exchange)

/-- Whether the command succeeds is decided by what the request names and by what
the device does with that. -/
theorem succeeded_iff (hint : x.req[0]? = some 32) :
    x.Succeeded ↔ ∃ e, executed x.req x.k = some e ∧ EndsWell x.world e := by
  unfold Succeeded commandRun executed
  cases hstage : grandchildStage x.req x.k with
  | absent => simp
  | crashed => simp
  | badEnvNum => simp
  | execs e =>
      have he : e.rtype ≠ .syscallInt := by
        have hexec : executed x.req x.k = some e := by simp [executed, hstage]
        rw [executed_rtype hexec hint]
        decide
      simpa using runCommand_iff x.world he

/-- No command is run for a rejected request. -/
theorem not_succeeded_of_rejects (h : Rejects x.req x.k .int) : ¬ x.Succeeded := by
  have hadm := admission_of_rejects h
  unfold Succeeded commandRun grandchildStage
  simp [hadm]

end Exchange

/-- A zero reply to an INT request means that the command was run and ended with
status 0 exactly on the paths that keep the convention. -/
theorem zero_reply_sound_iff (x : Exchange) (hint : x.req[0]? = some 32) :
    (IsZero x.received → x.Succeeded) ↔ x.KeepsConvention := by
  have hzero := isZero_received_iff hint x.rounds (k := x.k)
  rw [isZero_accepted_iff] at hzero
  change IsZero x.received ↔ _ at hzero
  rw [hzero]
  constructor
  · intro hsound
    constructor
    · intro hrej
      by_contra hreply
      exact x.not_succeeded_of_rejects hrej (hsound (Or.inl ⟨hrej, hreply⟩))
    · intro hforks hsel hnil
      rw [or_iff_not_imp_left, ← x.succeeded_iff hint]
      intro hreply
      exact hsound (Or.inr ⟨hforks, hsel, Or.inl ⟨hnil, hreply⟩⟩)
    · intro hforks hsel _
      rw [or_iff_not_imp_left, not_not, ← x.succeeded_iff hint]
      intro hspells
      exact hsound (Or.inr ⟨hforks, hsel, Or.inr hspells⟩)
  · rintro ⟨hrejected, hsilent, hprints⟩ (⟨hrej, hreply⟩ | ⟨hforks, hsel, hcase⟩)
    · exact absurd (hrejected hrej) hreply
    · rw [x.succeeded_iff hint]
      rcases hcase with ⟨hnil, hreply⟩ | hspells
      · exact (hsilent hforks hsel hnil).resolve_left hreply
      · refine (hprints hforks hsel ?_).resolve_left (not_not.2 hspells)
        -- who reads nothing has spelled nothing
        rintro hnil
        rw [hnil] at hspells
        exact hspells.elim (not_spells_nil _) (not_spells_nil _)

/-- A device on which every tool ends silently with the given status. -/
def silentDevice (status : ℤ) : World where
  sys := fun _ => 0
  isDir := fun _ => false
  toolMain := fun _ _ => ⟨[], .exited status⟩
  toolMain_ne := by simp
  execv := fun _ _ => none

/-- `cat /none` on it, for an integer result. -/
def catExchange (status : ℤ) : Exchange where
  req := image 32 (ascii "cat") 1 [ascii "/none"] 0 []
  k := willing
  world := silentDevice status
  rounds := []
  rounds_output := by rfl

/-- A `cat` that ends with status 0 is answered with zero, and rightly so. -/
theorem zero_reply_sound_cat : IsZero (catExchange 0).received ∧ (catExchange 0).Succeeded := by
  have hzero : IsZero (catExchange 0).received := by decide
  have hended : ∃ e, executed (catExchange 0).req willing = some e ∧
      EndsWell (silentDevice 0) e :=
    ((catExchange 0).succeeded_iff rfl).1 (by decide)
  have hsound := (zero_reply_sound_iff (catExchange 0) rfl).2
    ⟨fun h => absurd (rejects_iff.1 h) (by decide), fun _ _ _ => Or.inr hended,
      fun _ _ _ => Or.inr hended⟩
  exact ⟨hzero, hsound hzero⟩

/-- One that cannot open its file ends with status 1, and is answered with zero. -/
theorem silent_failure_zero :
    ¬ (IsZero (catExchange 1).received → (catExchange 1).Succeeded) := by
  decide

/-! ## An answer at all -/

theorem resultType_eq_stream_iff {t : UInt8} : resultType t = .stream ↔ t = 64 := by
  unfold resultType
  split_ifs <;> simp_all

/-- The server's own replies are not empty. -/
theorem received_failure_ne_nil {k : Kernel} (hreply : k.replyWrite ≠ none) {rtype : ResultType}
    (hrtype : rtype ≠ .stream) : received (failure k rtype) ≠ [] := by
  have hzero := (replyBytes_eq_nil_iff k (show zero ≠ [] by decide)).not.2 hreply
  have hminus := (replyBytes_eq_nil_iff k (show minusOne ≠ [] by decide)).not.2 hreply
  cases rtype with
  | stream => exact absurd rfl hrtype
  | int => simpa [received_failure] using hzero
  | syscallInt => simpa [received_failure] using hminus
  | undefined => simpa [received_failure] using hminus

/-- If the client takes something of every chunk, it gets something of every
output. -/
theorem accepted_eq_nil_iff {rounds : List (Round UInt8)}
    (hwrites : ∀ r ∈ rounds, r.accepted ≠ none) : accepted rounds = [] ↔ rounds = [] := by
  cases rounds with
  | nil => simp [accepted, offers]
  | cons r rs =>
      have hr : r.accepted ≠ none := hwrites r (by simp)
      simp [accepted, delivered_eq_nil_iff, offers, hr]

theorem relay_eq_nil_iff {rounds : List (Round UInt8)}
    (hwrites : ∀ r ∈ rounds, r.accepted ≠ none) (k : Kernel) :
    (relayLoop 0 k.markOk 0 rounds).1 = [] ↔ rounds = [] := by
  constructor
  · intro h
    rw [relayLoop_eq, List.append_eq_nil_iff] at h
    exact (accepted_eq_nil_iff hwrites).1 h.1
  · rintro rfl
    rfl

/-- Only a call that has forked executes a command. -/
theorem executed_eq_none {req : Bytes} {k : Kernel} (h : ∀ rtype, ¬ Forks req k rtype) :
    executed req k = none := by
  rw [Option.eq_none_iff_forall_ne_some]
  intro e he
  rcases executed_eq_some_iff.1 he with ⟨rtype, argc, offset, params, envs, hadm, -⟩
  exact h rtype (forks_iff.2 ⟨argc, offset, hadm⟩)

/-- A direct system call prints nothing. -/
theorem syscallInt_silent (w : World) {req : Bytes} (k : Kernel) (hsys : req[0]? = some 16) :
    (commandRun w req k).output = [] := by
  unfold commandRun
  cases hstage : grandchildStage req k with
  | absent => rfl
  | crashed => rfl
  | badEnvNum => rfl
  | execs e =>
      have hexec : executed req k = some e := by simp [executed, hstage]
      have hrtype : e.rtype = .syscallInt := executed_rtype hexec hsys
      simp [runCommand, hrtype]

/-- What the call relays is empty only without a `select` that succeeds, or
without output where no zero is sent in its place. -/
theorem received_stream_ne_nil_iff {k : Kernel} (hreply : k.replyWrite ≠ none)
    {rounds : List (Round UInt8)} (hwrites : ∀ r ∈ rounds, r.accepted ≠ none)
    (rtype : ResultType) :
    received (stream k rtype rounds) ≠ [] ↔
      selected k = true ∧ (rtype = .int ∨ rounds ≠ []) := by
  have hzero := (replyBytes_eq_nil_iff k (show zero ≠ [] by decide)).not.2 hreply
  rw [received_stream]
  cases hsel : selected k with
  | false => simp
  | true =>
      rw [if_pos rfl, Ne, List.append_eq_nil_iff, relay_eq_nil_iff hwrites]
      by_cases hint : rtype = .int
      · by_cases hr : rounds = []
        · simp [hint, hr, hzero]
        · simp [hr]
      · simp [hint]

namespace Exchange

variable (x : Exchange)

/-- There is nothing to relay for a direct system call. -/
theorem rounds_eq_nil (hsys : x.req[0]? = some 16) : x.rounds = [] := by
  have hout := x.rounds_output
  rw [syscallInt_silent x.world x.k hsys] at hout
  cases hr : x.rounds with
  | nil => rfl
  | cons r rs =>
      rw [hr, output_cons, List.append_eq_nil_iff] at hout
      exact absurd hout.1 r.chunk_ne

theorem not_directReturnsZero (h : ∀ rtype, ¬ Forks x.req x.k rtype) : ¬ x.DirectReturnsZero := by
  intro hdirect
  rcases hdirect with ⟨e, he, -⟩
  rw [executed_eq_none h] at he
  cases he

/-- A reply of the server's own that is not zero answers a call without a child. -/
theorem answered_of_not_zero (hne : x.received ≠ [])
    (hzero : x.req[0]? = some 16 → ¬ IsZero x.received)
    (hfork : ∀ rtype, ¬ Forks x.req x.k rtype) : x.Answered := by
  refine ⟨hne, ?_⟩
  intro hsys
  exact iff_of_false (hzero hsys) (x.not_directReturnsZero hfork)

/-- A call that crashes closes the connection without a word. -/
theorem not_answered_of_crash (hadm : admission x.req x.k = .crash) : ¬ x.Answered := by
  intro hanswered
  apply hanswered.1
  unfold received
  rw [received_handleRequest, hadm]

theorem answered_of_failure {rtype : ResultType} (htype : x.req[0]? ≠ some 64)
    (hreply : x.k.replyWrite ≠ none) (hadm : admission x.req x.k = .failure rtype) :
    x.Answered := by
  have hrecv : x.received = Su.received (failure x.k rtype) := by
    unfold received
    rw [received_handleRequest, hadm]
  have hrej := rejects_iff.2 hadm
  have hstream : rtype ≠ .stream := by
    rcases hrej with ⟨t, ht, rfl, -⟩
    rw [Ne, resultType_eq_stream_iff]
    rintro rfl
    exact htype ht
  apply x.answered_of_not_zero
  · rw [hrecv]
    exact received_failure_ne_nil hreply hstream
  · intro hsys
    obtain rfl : rtype = .syscallInt := hrej.rtype_eq hsys
    rw [hrecv, received_failure]
    exact not_isZero_reply_minusOne x.k
  · simp [forks_iff, hadm]

theorem answered_of_forkFailed (hreply : x.k.replyWrite ≠ none)
    (hadm : admission x.req x.k = .forkFailed) : x.Answered := by
  have hrecv : x.received = replyBytes x.k minusOne := by
    unfold received
    rw [received_handleRequest, hadm]
  apply x.answered_of_not_zero
  · rw [hrecv]
    exact (replyBytes_eq_nil_iff x.k (by decide)).not.2 hreply
  · intro _
    rw [hrecv]
    exact not_isZero_reply_minusOne x.k
  · simp [forks_iff, hadm]

/-- Behind the fork the relay decides: a SYSCALL_INT request prints nothing, so
what is answered at all is answered as it should be. -/
theorem answered_of_forked_iff {rtype : ResultType} {argc offset : ℕ}
    (hreply : x.k.replyWrite ≠ none) (hwrites : ∀ r ∈ x.rounds, r.accepted ≠ none)
    (hadm : admission x.req x.k = .forked rtype argc offset) :
    x.Answered ↔ selected x.k = true ∧ (rtype = .int ∨ x.rounds ≠ []) := by
  have hrecv : x.received = Su.received (stream x.k rtype x.rounds) := by
    unfold received
    rw [received_handleRequest, hadm]
  have hforks : Forks x.req x.k rtype := forks_iff.2 ⟨argc, offset, hadm⟩
  have hne := received_stream_ne_nil_iff hreply hwrites rtype
  rw [← hrecv] at hne
  rw [← hne]
  constructor
  · exact fun hanswered => hanswered.1
  · intro hrecv_ne
    refine ⟨hrecv_ne, fun hsys => ?_⟩
    exfalso
    obtain rfl : rtype = .syscallInt := hforks.rtype_eq hsys
    rcases (hne.1 hrecv_ne).2 with hint | hprints
    · cases hint
    · exact hprints (x.rounds_eq_nil hsys)

end Exchange

/-- If no write to the client fails, a request that is not of type STREAM is
answered, and a SYSCALL_INT request with the result of its call, exactly if it
is rejected, cannot be given a process, or `select` finds something to read and
it is an INT request or prints something. -/
theorem answered_iff (x : Exchange) (htype : x.req[0]? ≠ some 64)
    (hreply : x.k.replyWrite ≠ none) (hwrites : ∀ r ∈ x.rounds, r.accepted ≠ none) :
    x.Answered ↔ (∃ rtype, Rejects x.req x.k rtype) ∨ ForkFails x.req x.k ∨
      ∃ rtype, Forks x.req x.k rtype ∧ selected x.k = true ∧ (rtype = .int ∨ x.rounds ≠ []) := by
  simp only [rejects_iff, forkFails_iff, forks_iff]
  cases hadm : admission x.req x.k with
  | crash => exact iff_of_false (x.not_answered_of_crash hadm) (by simp)
  | failure rtype =>
      exact iff_of_true (x.answered_of_failure htype hreply hadm) (Or.inl ⟨rtype, rfl⟩)
  | forkFailed =>
      exact iff_of_true (x.answered_of_forkFailed hreply hadm) (Or.inr (Or.inl rfl))
  | forked rtype argc offset =>
      rw [x.answered_of_forked_iff hreply hwrites hadm]
      simp

/-- Any command but a direct system call is answered if it prints nothing. -/
theorem answered_cat : (catExchange 0).Answered :=
  (answered_iff (catExchange 0) (by decide) (by decide) (by decide)).2
    (Or.inr (Or.inr ⟨.int, forks_iff.2 ⟨1, 6, by decide⟩, by decide, Or.inl rfl⟩))

/-- `rm /data/a` as a direct system call, on a device where it succeeds. -/
def directExchange : Exchange where
  req := image 16 (ascii "rm") 1 [ascii "/data/a"] 0 []
  k := willing
  world := silentDevice 0
  rounds := []
  rounds_output := by rfl

/-- It is executed, and the connection is closed without a byte. -/
theorem directExchange_silent : ¬ directExchange.Answered := by
  rintro ⟨hne, -⟩
  exact hne (by decide)

end Su
