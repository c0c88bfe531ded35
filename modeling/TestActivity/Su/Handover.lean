import Mathlib.Data.Finset.Erase
import Mathlib.Data.Finset.Insert
import TestActivity.Lib.Transition
import TestActivity.Su.RunServer

/-!
# A new server takes over from an old one

A new `rt_server` first runs `cleanup_process`: it connects to the old one,
sends the termination request and waits for an answer. Then it binds the fixed
abstract name. The name is taken as long as any process holds a descriptor of
the old listening socket: the old main process, a child between its `fork` and
its `close(serv_fd)`, a process of the signature check until it exits.

`bind_succeeds` says for which runs an answer means that the name is free: the
answer is that of the termination branch, and it is written when no child holds
a copy any more. `answersEarly_iff` is the converse: after any other answer the
`bind` can fail.
-/

namespace Su.Handover

open CString Transition

/-- Where the old main process is. -/
inductive MainPc where
  /-- at `wait_event`, or with another client -/
  | serving
  /-- it has accepted the new server -/
  | attending
  /-- in the termination branch -/
  | terminating
  /-- behind `close(sserv_fd)` -/
  | closed
  | exited
deriving DecidableEq, Repr

/-- Where the new server is, and what it has read of the answer. -/
inductive NewPc where
  | start
  /-- at `readx` in `cleanup_process` -/
  | sent
  /-- in front of `bind` -/
  | cleaned (reply : Bytes)
  | bound (reply : Bytes)
  | refused (reply : Bytes)
deriving DecidableEq, Repr

/-- Both servers, and the children of the old one that hold the descriptor. A
child that has closed its copy plays no part any more. -/
structure World where
  main : MainPc
  /-- `rt_exec` and the notifier, in front of `close(serv_fd)` -/
  execs : Finset ℕ
  /-- processes of the signature check -/
  checks : Finset ℕ
  /-- what the old server has written to the new one -/
  answer : Option Bytes
  new : NewPc

/-- The old main process still has its descriptor. -/
def MainPc.holds : MainPc → Prop
  | .serving => True
  | .attending => True
  | .terminating => True
  | .closed => False
  | .exited => False

/-- Some process holds a descriptor of the socket. -/
def World.Held (w : World) : Prop := w.main.holds ∨ w.execs.Nonempty ∨ w.checks.Nonempty

/-- What `cleanup_process` sends: `sizeof(term)` is the size of a pointer, so
whatever lies behind the literal goes along. -/
def termMessage (behind : Bytes) : Bytes := ascii "\n\n" ++ 0 :: behind

/-- `writex(tfd,"-1\n",4)`. -/
def minusOne : Bytes := ascii "-1\n" ++ [0]

/-- `writex(cli_fd,"\n",2)` in `do_ping`. -/
def pong : Bytes := ascii "\n" ++ [0]

/-- The steps of the old main process, of its children, and of the new server. -/
inductive Label where
  | fork
  | attend
  | read (bs : Bytes)
  | unread
  | closeListening
  | answer
  | die
  | child
  | send
  | readAnswer (bs : Bytes)
  | noAnswer
  | bind
deriving DecidableEq, Repr

/-- One step of any process. -/
inductive Step : World → Label → World → Prop where
  | forkExec {w : World} {pid : ℕ} (hmain : w.main = .serving) :
      Step w .fork { w with execs := insert pid w.execs }
  | forkCheck {w : World} {pid : ℕ} (hmain : w.main = .serving) :
      Step w .fork { w with checks := insert pid w.checks }
  /-- `accept`; the new server is root, so it is not checked -/
  | attend {w : World} (hmain : w.main = .serving) (hnew : w.new = .sent)
      (hanswer : w.answer = none) : Step w .attend { w with main := .attending }
  /-- `readx` returns a beginning of the request -/
  | readTerm {w : World} {bs behind : Bytes} (hmain : w.main = .attending) (hne : bs ≠ [])
      (hpre : bs <+: termMessage behind)
      (hreq : dispatch (fill 0 reqSize bs) = .terminate) :
      Step w (.read bs) { w with main := .terminating }
  | readPing {w : World} {bs behind : Bytes} (hmain : w.main = .attending) (hne : bs ≠ [])
      (hpre : bs <+: termMessage behind)
      (hreq : dispatch (fill 0 reqSize bs) = .ping) :
      Step w (.read bs) { w with main := .serving, answer := some pong }
  /-- `readx` returns 0 or less -/
  | unread {w : World} (hmain : w.main = .attending) :
      Step w .unread { w with main := .serving, answer := some minusOne }
  | closeListening {w : World} (hmain : w.main = .terminating) :
      Step w .closeListening { w with main := .closed }
  | answer {w : World} (hmain : w.main = .closed) :
      Step w .answer { w with main := .exited, answer := some minusOne }
  /-- the uninstall, another client's termination request, a signal -/
  | die {w : World} : Step w .die { w with main := .exited }
  | childCloses {w : World} {pid : ℕ} (hpid : pid ∈ w.execs) :
      Step w .child { w with execs := w.execs.erase pid }
  | checkForks {w : World} {pid pid' : ℕ} (hpid : pid ∈ w.checks) :
      Step w .child { w with checks := insert pid' w.checks }
  | checkExits {w : World} {pid : ℕ} (hpid : pid ∈ w.checks) :
      Step w .child { w with checks := w.checks.erase pid }
  | send {w : World} (hnew : w.new = .start) (hheld : w.Held) : Step w .send { w with new := .sent }
  /-- `connect` or `writex` fails -/
  | sendFails {w : World} (hnew : w.new = .start) : Step w .noAnswer { w with new := .cleaned [] }
  /-- `readx` returns a beginning of the answer -/
  | readAnswer {w : World} {bs text : Bytes} (hnew : w.new = .sent) (hanswer : w.answer = some text)
      (hpre : bs <+: text) : Step w (.readAnswer bs) { w with new := .cleaned bs }
  /-- the connection is closed, or `readx` fails -/
  | noAnswer {w : World} (hnew : w.new = .sent) : Step w .noAnswer { w with new := .cleaned [] }
  | bindSucceeds {w : World} {reply : Bytes} (hnew : w.new = .cleaned reply) (hfree : ¬ w.Held) :
      Step w .bind { w with new := .bound reply }
  | bindFails {w : World} {reply : Bytes} (hnew : w.new = .cleaned reply) (hheld : w.Held) :
      Step w .bind { w with new := .refused reply }

/-- An old server with any children, and a new one that has just been started. -/
def start (execs checks : Finset ℕ) : World := ⟨.serving, execs, checks, none, .start⟩

/-- The old server answers too early: it has read a lone newline, or nothing at
all, or a child still holds the descriptor. -/
def AnswersEarly (w : World) : Label → Prop
  | .read bs => bs.length = 1
  | .unread => True
  | .answer => w.execs.Nonempty ∨ w.checks.Nonempty
  | _ => False

/-! ## The termination request -/

/-- The request is a ping if only its first byte was read. -/
theorem dispatch_term {bs behind : Bytes} (hne : bs ≠ []) (hpre : bs <+: termMessage behind) :
    dispatch (fill 0 reqSize bs) = if bs.length = 1 then .ping else .terminate := by
  have hmsg : termMessage behind = 10 :: 10 :: 0 :: behind := rfl
  have hterm : ascii "\n\n" = [10, 10] := rfl
  have hping : ascii "\n" = [10] := rfl
  rw [hmsg] at hpre
  match bs with
  | [] => exact absurd rfl hne
  | [a] =>
      rcases List.cons_prefix_cons.1 hpre with ⟨rfl, -⟩
      obtain ⟨rest, hfill⟩ : ∃ rest, fill 0 reqSize [10] = (10 : UInt8) :: 0 :: rest :=
        ⟨List.replicate 4094 0, rfl⟩
      rw [hfill]
      simp [dispatch, hterm, hping, strcmpEq]
  | [a, b] =>
      rcases List.cons_prefix_cons.1 hpre with ⟨rfl, hpre₁⟩
      rcases List.cons_prefix_cons.1 hpre₁ with ⟨rfl, -⟩
      obtain ⟨rest, hfill⟩ : ∃ rest, fill 0 reqSize [10, 10] = (10 : UInt8) :: 10 :: 0 :: rest :=
        ⟨List.replicate 4093 0, rfl⟩
      rw [hfill]
      simp [dispatch, hterm, strcmpEq]
  | a :: b :: c :: rest =>
      rcases List.cons_prefix_cons.1 hpre with ⟨rfl, hpre₁⟩
      rcases List.cons_prefix_cons.1 hpre₁ with ⟨rfl, hpre₂⟩
      rcases List.cons_prefix_cons.1 hpre₂ with ⟨rfl, -⟩
      simp [dispatch, hterm, strcmpEq, fill]

/-! ## The name stays free -/

/-- Nobody of the old server holds the descriptor, and nobody will. -/
structure Gone (w : World) : Prop where
  main : w.main = .exited
  execs : w.execs = ∅
  checks : w.checks = ∅

theorem Gone.free {w : World} (h : Gone w) : ¬ w.Held := by
  rintro (hmain | hexecs | hchecks)
  · rw [h.main] at hmain
    exact hmain
  · rw [h.execs] at hexecs
    exact Finset.not_nonempty_empty hexecs
  · rw [h.checks] at hchecks
    exact Finset.not_nonempty_empty hchecks

theorem Gone.step {w w' : World} {l : Label} (hgone : Gone w) (h : Step w l w') : Gone w' := by
  cases h with
  | forkExec hmain => simp [hgone.main] at hmain
  | forkCheck hmain => simp [hgone.main] at hmain
  | attend hmain => simp [hgone.main] at hmain
  | readTerm hmain => simp [hgone.main] at hmain
  | readPing hmain => simp [hgone.main] at hmain
  | unread hmain => simp [hgone.main] at hmain
  | closeListening hmain => simp [hgone.main] at hmain
  | answer hmain => simp [hgone.main] at hmain
  | die => exact ⟨rfl, hgone.execs, hgone.checks⟩
  | childCloses hpid => simp [hgone.execs] at hpid
  | checkForks hpid => simp [hgone.checks] at hpid
  | checkExits hpid => simp [hgone.checks] at hpid
  | _ => exact ⟨hgone.main, hgone.execs, hgone.checks⟩

/-- The invariant: an answer was not written before the name was free. -/
structure Inv (w : World) : Prop where
  answered : w.answer ≠ none → Gone w
  cleaned : ∀ reply, w.new = .cleaned reply → reply ≠ [] → Gone w
  refused : ∀ reply, w.new = .refused reply → reply = []

theorem Inv.start (execs checks : Finset ℕ) : Inv (start execs checks) where
  answered := by simp [Handover.start]
  cleaned := by simp [Handover.start]
  refused := by simp [Handover.start]

theorem inv_step {w w' : World} {l : Label} (h : Step w l w') (hguard : ¬ AnswersEarly w l)
    (hinv : Inv w) : Inv w' := by
  -- whoever acts, the descriptor of a server that is gone stays free
  have hstable : Gone w → Gone w' := fun hgone => hgone.step h
  cases h with
  | @readPing bs behind hmain hne hpre hreq =>
      rw [dispatch_term hne hpre] at hreq
      split_ifs at hreq with hlen
      exact absurd hlen hguard
  | unread hmain => exact absurd trivial hguard
  | answer hmain =>
      simp only [AnswersEarly, not_or, Finset.not_nonempty_iff_eq_empty] at hguard
      have hgone : Gone { w with main := .exited, answer := some minusOne } :=
        ⟨rfl, hguard.1, hguard.2⟩
      exact ⟨fun _ => hgone, fun _ _ _ => hgone, hinv.refused⟩
  | send hnew hheld => exact ⟨fun h => hstable (hinv.answered h), by simp, by simp⟩
  | sendFails hnew => exact ⟨fun h => hstable (hinv.answered h), by simp, by simp⟩
  | noAnswer hnew => exact ⟨fun h => hstable (hinv.answered h), by simp, by simp⟩
  | readAnswer hnew hanswer hpre =>
      have hgone := hstable (hinv.answered (by simp [hanswer]))
      exact ⟨fun _ => hgone, fun _ _ _ => hgone, by simp⟩
  | bindSucceeds hnew hfree => exact ⟨fun h => hstable (hinv.answered h), by simp, by simp⟩
  | @bindFails reply hnew hheld =>
      refine ⟨fun h => hstable (hinv.answered h), by simp, ?_⟩
      intro reply' hreply
      by_contra hne
      rw [← NewPc.refused.inj hreply] at hne
      exact (hinv.cleaned reply hnew hne).free hheld
  | _ =>
      exact ⟨fun h => hstable (hinv.answered h), fun r hr hne => hstable (hinv.cleaned r hr hne),
        hinv.refused⟩

/-- In a run in which the old server does not answer early, a new server that
has read an answer is not refused the name. -/
theorem bind_succeeds {execs checks : Finset ℕ} {w : World} {tr : List (World × Label)}
    (run : Run Step (start execs checks) tr w) (hguard : ∀ p ∈ tr, ¬ AnswersEarly p.1 p.2)
    {reply : Bytes} (hreply : reply ≠ []) :
    w.new ≠ .refused reply ∧ ∀ p ∈ tr, p.1.new ≠ .refused reply := by
  rcases run.invariant (fun w l => ¬ AnswersEarly w l) Inv (fun _ _ _ => inv_step) hguard
    (.start execs checks) with ⟨hend, hall⟩
  exact ⟨fun h => hreply (hend.refused reply h), fun p hp h => hreply ((hall p hp).refused reply h)⟩

/-- No child is left, and the answer is that of the termination branch. -/
theorem terminated_bound :
    ∃ tr w, Run Step (start ∅ ∅) tr w ∧ w.new = .bound minusOne ∧
      w.new ≠ .refused minusOne := by
  have hfree : ¬ World.Held ⟨.exited, ∅, ∅, some minusOne, .cleaned minusOne⟩ :=
    Gone.free ⟨rfl, rfl, rfl⟩
  have hreq : dispatch (fill 0 reqSize (termMessage [])) = _ :=
    dispatch_term (by decide) (List.prefix_refl (termMessage []))
  have run : Run Step (start ∅ ∅) _ _ :=
    .cons (.send rfl (Or.inl trivial)) <|
    .cons (.attend rfl rfl rfl) <|
    .cons (.readTerm rfl (by decide) (List.prefix_refl (termMessage [])) hreq) <|
    .cons (.closeListening rfl) <|
    .cons (.answer rfl) <|
    .cons (.readAnswer rfl rfl (List.prefix_refl minusOne)) <|
    .cons (.bindSucceeds rfl hfree) <|
    .nil _
  refine ⟨_, _, run, rfl, (bind_succeeds run ?_ (by decide)).1⟩
  simp [AnswersEarly, start, termMessage, ascii]

/-! ## An early answer leads to a refusal -/

/-- From here, without another early answer, a new server that has read an answer
can be refused the name. -/
def Refusable (w : World) : Prop :=
  ∃ tr v reply, Run Step w tr v ∧ (∀ p ∈ tr, ¬ AnswersEarly p.1 p.2) ∧ reply ≠ [] ∧
    v.new = .refused reply

theorem refusable_of_held {w : World} {text : Bytes} (hheld : w.Held) (hnew : w.new = .sent)
    (hanswer : w.answer = some text) (htext : text ≠ []) : Refusable w := by
  refine ⟨_, _, text,
    .cons (.readAnswer hnew hanswer (List.prefix_refl text)) <|
    .cons (.bindFails rfl hheld) <|
    .nil _, ?_, htext, rfl⟩
  simp [AnswersEarly]

/-- An answer is early exactly if it is to blame for a refusal: the `bind` can
fail although nothing else goes wrong. -/
theorem answersEarly_iff {w w' : World} {l : Label} (hinv : Inv w) (h : Step w l w')
    (hnew : w.new = .sent) (hbefore : w.answer = none) (hafter : w'.answer ≠ none) :
    AnswersEarly w l ↔ Refusable w' := by
  constructor
  · intro hearly
    cases h with
    | readPing hmain hne hpre hreq =>
        exact refusable_of_held (Or.inl trivial) hnew rfl (by decide)
    | unread hmain => exact refusable_of_held (Or.inl trivial) hnew rfl (by decide)
    | answer hmain => exact refusable_of_held (Or.inr hearly) hnew rfl (by decide)
    | _ => exact absurd hbefore hafter
  · rintro ⟨tr, v, reply, run, hguard, hne, hrefused⟩
    by_contra hearly
    have hend := (run.invariant (fun w l => ¬ AnswersEarly w l) Inv (fun _ _ _ => inv_step) hguard
      (inv_step h hearly hinv)).1
    exact hne (hend.refused reply hrefused)

/-- A client's `rt_exec` child has not closed its copy yet when the old server
answers. -/
theorem slowChild_refused :
    ∃ tr w, Run Step (start ∅ ∅) tr w ∧ w.new = .refused minusOne := by
  have hreq : dispatch (fill 0 reqSize (termMessage [])) = _ :=
    dispatch_term (by decide) (List.prefix_refl (termMessage []))
  have hheld : World.Held ⟨.exited, insert 101 ∅, ∅, some minusOne, .cleaned minusOne⟩ :=
    Or.inr (Or.inl (Finset.insert_nonempty 101 ∅))
  exact ⟨_, _,
    .cons (.forkExec rfl) <|
    .cons (.send rfl (Or.inl trivial)) <|
    .cons (.attend rfl rfl rfl) <|
    .cons (.readTerm rfl (by decide) (List.prefix_refl (termMessage [])) hreq) <|
    .cons (.closeListening rfl) <|
    .cons (.answer rfl) <|
    .cons (.readAnswer rfl rfl (List.prefix_refl minusOne)) <|
    .cons (.bindFails rfl hheld) <|
    .nil _, rfl⟩

end Su.Handover
