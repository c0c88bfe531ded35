import TestActivity.Lib.CString
import TestActivity.Lib.Memory
import TestActivity.Lib.Rows
import TestActivity.Su.Uninstall

/-!
# The loop over the events

What `read` has stored is a sequence of `struct inotify_event`, each of 16 bytes
and the `len` bytes of its name. `run_server` goes from one to the next by
adding up, looks at `watch_path` for each event of the directory `files`, and
leaves the loop when it is gone.

The loop is modelled on the bytes: a read outside the `len` bytes ends it.
`eventLoop_events` says that on the events of the kernel it stays at their
boundaries, and `turn_run` that it takes the steps of the server in `Uninstall`.
-/

namespace Su.Inotify

open Transition Uninstall

/-! ## The bytes -/

/-- The bytes of a word, the low one first. -/
def word (v : BitVec 32) : Bytes := (Memory.chars v).map UInt8.ofBitVec

/-- The word at `k`; `none` is a read outside. -/
def wordAt (buf : Bytes) (k : ℕ) : Option (BitVec 32) :=
  if k + 4 ≤ buf.length then
    some (Memory.ofChars (((buf.drop k).take 4).map UInt8.toBitVec))
  else none

/-- Whether `strcmp` finds the bytes of `s` at `k`. It reads up to the first
difference. -/
def strcmpAt (buf : Bytes) : ℕ → Bytes → Option Bool
  | _, [] => some true
  | k, c :: cs =>
      match buf[k]? with
      | none => none
      | some b => if b = c then strcmpAt buf (k + 1) cs else some false

/-- `mask & IN_ISDIR`. -/
def inIsDir (mask : BitVec 32) : Bool := mask &&& 0x40000000#32 != 0#32

/-- `(event->mask & IN_ISDIR) && strcmp(event->name, "files") == 0`. -/
def isFilesAt (buf : Bytes) (k : ℕ) : Option Bool := do
  let mask ← wordAt buf (k + 4)
  if inIsDir mask then strcmpAt buf (k + 16) (ascii "files" ++ [0]) else some false

/-! ## The loop -/

/-- `index`, and how often `watch_path` has been looked at. -/
structure Pos where
  index : BitVec 32
  asked : ℕ
deriving DecidableEq, Repr

/-- How the loop is left. -/
inductive End where
  /-- `index < len` is false -/
  | over
  | uninstalled
  /-- a read outside the bytes that were stored -/
  | outside
deriving DecidableEq, Repr

inductive Turn where
  | next (p : Pos)
  | stop (e : End)
deriving DecidableEq, Repr

/-- One round of the loop; `fails n` tells whether the `n`-th `stat` fails. -/
def turn (buf : Bytes) (fails : ℕ → Bool) (p : Pos) : Turn :=
  if p.index.slt (BitVec.ofNat 32 buf.length) then
    match isFilesAt buf p.index.toNat with
    | none => .stop .outside
    | some files =>
        if files && fails p.asked then .stop .uninstalled
        else
          match wordAt buf (p.index.toNat + 12) with
          | none => .stop .outside
          | some len =>
              .next ⟨p.index + (16#32 + len), if files then p.asked + 1 else p.asked⟩
  else .stop .over

/-- The loop: the values of `index` it has handled an event at, and how it is
left. `none` if it has not been left after `fuel` rounds. -/
def eventLoop (buf : Bytes) (fails : ℕ → Bool) : ℕ → Pos → Option (List (BitVec 32) × End)
  | 0, _ => none
  | fuel + 1, p =>
      match turn buf fails p with
      | .next p' => (eventLoop buf fails fuel p').map fun r => (p.index :: r.1, r.2)
      | .stop .over => some ([], .over)
      | .stop e => some ([p.index], e)

/-! ## The events -/

/-- `struct inotify_event` as the kernel stores it; `field` are the `len` bytes
behind it. The name of a directory ends in them. -/
structure RawEvent where
  wd : BitVec 32
  mask : BitVec 32
  cookie : BitVec 32
  field : Bytes
  terminated : inIsDir mask = true → 0 ∈ field

def RawEvent.bytes (e : RawEvent) : Bytes :=
  word e.wd ++ word e.mask ++ word e.cookie ++ word (BitVec.ofNat 32 e.field.length) ++ e.field

/-- The event that is handled. -/
def RawEvent.event (e : RawEvent) : Uninstall.Event :=
  ⟨inIsDir e.mask, (CString.cstr 0 e.field).getD []⟩

/-- What a `read` into `buf` may store. -/
structure Events where
  list : List RawEvent
  size : (list.flatMap RawEvent.bytes).length ≤ 1024

namespace Events

variable (es : Events)

def bytes : Bytes := es.list.flatMap RawEvent.bytes

/-- Where the `k`-th event starts. -/
def boundary (k : ℕ) : ℕ := Rows.offset RawEvent.bytes es.list k

/-- How many of the first `k` events are of `files`. -/
def files (k : ℕ) : ℕ := (es.list.take k).countP fun e => e.event.isFiles

/-- The `k`-th event is of `files`, and the `stat` that is made when it is
handled, after one for each event of `files` before it, fails. -/
def FailsAt (fails : ℕ → Bool) (k : ℕ) : Prop :=
  ∃ e, es.list[k]? = some e ∧ e.event.isFiles = true ∧ fails (es.files k) = true

end Events

/-! ## Reading an event -/

@[simp] theorem length_word (v : BitVec 32) : (word v).length = 4 := rfl

theorem word_toBitVec (v : BitVec 32) : (word v).map UInt8.toBitVec = Memory.chars v := rfl

/-- A stored word is read. -/
theorem wordAt_of_drop {buf rest : Bytes} {k : ℕ} {v : BitVec 32}
    (h : buf.drop k = word v ++ rest) : wordAt buf k = some v := by
  have hlen := congrArg List.length h
  rw [List.length_drop, List.length_append, length_word] at hlen
  have hk : k + 4 ≤ buf.length := by omega
  have htake : (word v ++ rest).take 4 = word v := List.take_left' rfl
  rw [wordAt, if_pos hk, h, htake, word_toBitVec, Memory.ofChars_chars]

/-- Stored strings are compared: the terminator is compared as well. -/
theorem strcmpAt_of_drop {buf s rest : Bytes} (hs : 0 ∉ s) {lit : Bytes} (hlit : 0 ∉ lit) {k : ℕ}
    (h : buf.drop k = s ++ 0 :: rest) : strcmpAt buf k (lit ++ [0]) = some (decide (s = lit)) := by
  induction lit generalizing s k with
  | nil =>
      rcases s with _ | ⟨b, s⟩
      · have hget := (CString.drop_next h).1
        simp [strcmpAt, hget]
      · have hget := (CString.drop_next h).1
        have hb : b ≠ 0 := fun hb => hs (by simp [hb])
        simp [strcmpAt, hget, hb]
  | cons c lit ih =>
      rw [List.mem_cons, not_or] at hlit
      rcases s with _ | ⟨b, s⟩
      · have hget := (CString.drop_next h).1
        simp [strcmpAt, hget, hlit.1]
      · rcases CString.drop_next h with ⟨hget, hdrop⟩
        by_cases hb : b = c
        · have hrest := ih (fun hmem => hs (by simp [hmem])) hlit.2 hdrop
          simp [strcmpAt, hget, hb, hrest]
        · simp [strcmpAt, hget, hb]

theorem RawEvent.length_bytes (e : RawEvent) : e.bytes.length = 16 + e.field.length := by
  simp only [RawEvent.bytes, List.length_append, length_word]

section Event

variable {buf rest : Bytes} {k : ℕ} {e : RawEvent}

theorem wordAt_mask (h : buf.drop k = e.bytes ++ rest) : wordAt buf (k + 4) = some e.mask := by
  apply wordAt_of_drop
  -- behind `wd`
  rw [← List.drop_drop, h, RawEvent.bytes]
  simp only [List.append_assoc]
  exact List.drop_left' rfl

theorem wordAt_len (h : buf.drop k = e.bytes ++ rest) :
    wordAt buf (k + 12) = some (BitVec.ofNat 32 e.field.length) := by
  refine wordAt_of_drop (?_ : _ = _ ++ (e.field ++ rest))
  have hsplit : e.bytes ++ rest = (word e.wd ++ word e.mask ++ word e.cookie) ++
      (word (BitVec.ofNat 32 e.field.length) ++ (e.field ++ rest)) := by
    simp only [RawEvent.bytes, List.append_assoc]
  rw [← List.drop_drop, h, hsplit]
  exact List.drop_left' rfl

theorem drop_field (h : buf.drop k = e.bytes ++ rest) :
    buf.drop (k + 16) = e.field ++ rest := by
  have hsplit : e.bytes ++ rest = (word e.wd ++ word e.mask ++ word e.cookie ++
      word (BitVec.ofNat 32 e.field.length)) ++ (e.field ++ rest) := by
    simp only [RawEvent.bytes, List.append_assoc]
  rw [← List.drop_drop, h, hsplit]
  exact List.drop_left' rfl

/-- The test of the loop is the one of the event. -/
theorem isFilesAt_of_drop (h : buf.drop k = e.bytes ++ rest) :
    isFilesAt buf k = some e.event.isFiles := by
  unfold isFilesAt
  rw [wordAt_mask h, Option.bind_eq_bind, Option.bind_some]
  rcases hdir : inIsDir e.mask with _ | _
  · simp [Uninstall.Event.isFiles, RawEvent.event, hdir]
  · -- the name ends inside the event, so `strcmp` stops there
    rcases List.eq_append_cons_of_mem (e.terminated hdir) with ⟨name, pad, hfield, hname⟩
    have hdrop : buf.drop (k + 16) = name ++ 0 :: (pad ++ rest) := by
      rw [drop_field h, hfield]
      simp
    have hlit : 0 ∉ ascii "files" := by decide
    rw [if_pos rfl, strcmpAt_of_drop hname hlit hdrop]
    simp only [Uninstall.Event.isFiles, RawEvent.event, hdir, hfield, CString.cstr_append 0 hname,
      Option.getD_some, Bool.true_and, Bool.beq_eq_decide_eq]

end Event

/-! ## At the boundaries -/

namespace Events

variable {es : Events} {fails : ℕ → Bool} {k : ℕ}

theorem boundary_le : es.boundary k ≤ es.bytes.length := Rows.offset_le _ _ _

theorem drop_boundary {e : RawEvent} (hk : es.list[k]? = some e) :
    es.bytes.drop (es.boundary k) = e.bytes ++ (es.list.drop (k + 1)).flatMap RawEvent.bytes :=
  Rows.drop_offset_of_getElem? hk

/-- An event of `files` is one of those that were asked for. -/
theorem files_succ {e : RawEvent} (hk : es.list[k]? = some e) :
    es.files (k + 1) = if e.event.isFiles then es.files k + 1 else es.files k := by
  rw [files, files, List.take_add_one, hk, List.countP_append]
  rcases hfiles : e.event.isFiles with _ | _
  · simp [hfiles]
  · simp [hfiles]

/-- Where the loop is in front of the `k`-th event. -/
def pos (es : Events) (k : ℕ) : Pos := ⟨BitVec.ofNat 32 (es.boundary k), es.files k⟩

/-- Neither a boundary nor the number of bytes overflows `index`. -/
theorem toNat_index : (es.pos k).index.toNat = es.boundary k := by
  have hle : es.boundary k ≤ 1024 := Nat.le_trans boundary_le es.size
  simp only [pos, BitVec.toNat_ofNat]
  omega

theorem slt_index : (es.pos k).index.slt (BitVec.ofNat 32 es.bytes.length) =
    decide (es.boundary k < es.bytes.length) := by
  have hle : es.boundary k ≤ 1024 := Nat.le_trans boundary_le es.size
  have hsize : es.bytes.length ≤ 1024 := es.size
  have hindex : (es.pos k).index.toInt = es.boundary k := by
    rw [BitVec.toInt_eq_toNat_of_lt, toNat_index]
    rw [toNat_index]
    omega
  have hlen : (BitVec.ofNat 32 es.bytes.length).toInt = es.bytes.length := by
    rw [BitVec.toInt_eq_toNat_of_lt, BitVec.toNat_ofNat]
    · congr 1
      omega
    · rw [BitVec.toNat_ofNat]
      omega
  rw [BitVec.slt_eq_decide, hindex, hlen]
  simp only [Int.ofNat_lt]

/-- Behind the last event the loop is over. -/
theorem turn_of_length_le (hk : es.list.length ≤ k) :
    turn es.bytes fails (es.pos k) = .stop .over := by
  have hend : es.boundary k = es.bytes.length := Rows.offset_of_length_le hk
  have hlt : ¬ es.boundary k < es.bytes.length := by omega
  simp [turn, slt_index, hlt]

/-- A round handles the event at the boundary and goes to the next. -/
theorem turn_pos (fails : ℕ → Bool) {e : RawEvent} (hk : es.list[k]? = some e) :
    turn es.bytes fails (es.pos k) =
      if e.event.isFiles && fails (es.files k) then .stop .uninstalled
      else .next (es.pos (k + 1)) := by
  have hdrop := drop_boundary hk
  have hsucc : es.boundary (k + 1) = es.boundary k + (16 + e.field.length) := by
    rw [← e.length_bytes]
    exact Rows.offset_succ hk
  have hlt : es.boundary k < es.bytes.length := by
    have hle : es.boundary (k + 1) ≤ es.bytes.length := boundary_le
    omega
  have hindex : (es.pos k).index + (16#32 + BitVec.ofNat 32 e.field.length) =
      (es.pos (k + 1)).index := by
    simp only [pos, hsucc, BitVec.ofNat_add]
  -- both reads are inside the event
  rw [turn, slt_index, toNat_index, isFilesAt_of_drop hdrop, wordAt_len hdrop]
  simp only [hlt, decide_true, if_true, hindex]
  have hasked : (es.pos k).asked = es.files k := rfl
  rw [hasked, ← files_succ hk]
  rfl

theorem not_failsAt_of_le (hk : es.list.length ≤ k) : ¬ es.FailsAt fails k := by
  rintro ⟨e, he, _⟩
  rw [List.getElem?_eq_none hk] at he
  cases he

/-- The values of `index` at the events from `k` to before `n`. -/
def indices (es : Events) (k n : ℕ) : List (BitVec 32) :=
  (List.range' k (n - k)).map fun j => (es.pos j).index

theorem indices_self (es : Events) (k : ℕ) : es.indices k k = [] := by
  simp [indices]

theorem indices_cons {n : ℕ} (h : k < n) :
    es.indices k n = (es.pos k).index :: es.indices (k + 1) n := by
  have hsub : n - k = n - (k + 1) + 1 := by omega
  rw [indices, hsub, List.range'_succ]
  rfl

/-- How the loop is left that is in front of the `k`-th event. -/
inductive LeftFrom (es : Events) (fails : ℕ → Bool) (k : ℕ) : List (BitVec 32) → End → Prop where
  | over (hnone : ∀ j, k ≤ j → ¬ es.FailsAt fails j) :
      LeftFrom es fails k (es.indices k es.list.length) .over
  | uninstalled {j : ℕ} (hle : k ≤ j) (hfails : es.FailsAt fails j)
      (hfirst : ∀ i, k ≤ i → i < j → ¬ es.FailsAt fails i) :
      LeftFrom es fails k (es.indices k (j + 1)) .uninstalled

/-- The `k`-th event is handled, and the loop goes on behind it. -/
theorem LeftFrom.cons {visited : List (BitVec 32)} {ending : End} (hk : k < es.list.length)
    (hnot : ¬ es.FailsAt fails k) (h : LeftFrom es fails (k + 1) visited ending) :
    LeftFrom es fails k ((es.pos k).index :: visited) ending := by
  rcases h with hnone | ⟨hle, hfails, hfirst⟩
  · rw [← indices_cons hk]
    apply LeftFrom.over
    intro j hj
    rcases Nat.eq_or_lt_of_le hj with rfl | hj
    · exact hnot
    · exact hnone j hj
  · rw [← indices_cons (by omega)]
    refine .uninstalled (by omega) hfails ?_
    intro i hi hij
    rcases Nat.eq_or_lt_of_le hi with rfl | hi
    · exact hnot
    · exact hfirst i hi hij

/-- From a boundary the loop is left after at most one round for each event. -/
theorem eventLoop_pos (fails : ℕ → Bool) (m : ℕ) :
    ∀ k, k + m = es.list.length → ∃ visited ending, LeftFrom es fails k visited ending ∧
      ∀ fuel, m < fuel → eventLoop es.bytes fails fuel (es.pos k) = some (visited, ending) := by
  induction m with
  | zero =>
      intro k hk
      obtain rfl : k = es.list.length := by omega
      refine ⟨_, _, .over fun j hj => not_failsAt_of_le hj, ?_⟩
      intro fuel hfuel
      obtain ⟨fuel, rfl⟩ := Nat.exists_eq_add_of_lt hfuel
      rw [indices_self, eventLoop, turn_of_length_le (Nat.le_refl _)]
  | succ m ih =>
      intro k hk
      have hlt : k < es.list.length := by omega
      have hget : es.list[k]? = some es.list[k] := List.getElem?_eq_getElem hlt
      have hturn := turn_pos fails hget
      rcases hfails : es.list[k].event.isFiles && fails (es.files k) with _ | _
      · -- the loop goes on behind the event
        rw [hfails, if_neg Bool.false_ne_true] at hturn
        rcases ih (k + 1) (by omega) with ⟨visited, ending, hleft, hloop⟩
        refine ⟨_, _, hleft.cons hlt ?_, ?_⟩
        · rintro ⟨e, he, hfiles, hstat⟩
          obtain rfl : es.list[k] = e := by simpa [hget] using he
          simp [hfiles, hstat] at hfails
        · intro fuel hfuel
          obtain ⟨fuel, rfl⟩ := Nat.exists_eq_add_of_lt hfuel
          rw [eventLoop, hturn]
          simp only [hloop (m + 1 + fuel) (by omega), Option.map_some]
      · -- this is the first event whose `stat` fails
        rw [hfails, if_pos rfl] at hturn
        rw [Bool.and_eq_true] at hfails
        refine ⟨_, _, .uninstalled (Nat.le_refl k) ⟨_, hget, hfails⟩ ?_, ?_⟩
        · intro i hi hik
          omega
        · intro fuel hfuel
          obtain ⟨fuel, rfl⟩ := Nat.exists_eq_add_of_lt hfuel
          rw [eventLoop, hturn, indices_cons (Nat.lt_succ_self k), indices_self]

end Events

/-- On the events of a `read` the loop is left after at most one round for each
of them, never because of a read outside them. It visits their boundaries in
order, and finds the application uninstalled if and only if the `stat` of some
event of `files` fails: it stops at the first such event. -/
theorem eventLoop_events (es : Events) (fails : ℕ → Bool) :
    ∃ visited ending,
      (∀ fuel, es.list.length < fuel →
        eventLoop es.bytes fails fuel ⟨0, 0⟩ = some (visited, ending)) ∧
      ending ≠ .outside ∧
      (ending = .uninstalled ↔ ∃ k, es.FailsAt fails k) ∧
      ∃ n, visited = (List.range n).map (fun k => BitVec.ofNat 32 (es.boundary k)) ∧
        (ending = .over → n = es.list.length) ∧
        (ending = .uninstalled →
          ∃ k, n = k + 1 ∧ es.FailsAt fails k ∧ ∀ j < k, ¬ es.FailsAt fails j) := by
  rcases Events.eventLoop_pos fails es.list.length 0 (Nat.zero_add _) with
    ⟨visited, ending, hleft, hloop⟩
  refine ⟨visited, ending, hloop, ?_⟩
  rcases hleft with hnone | @⟨j, _, hfails, hfirst⟩
  · refine ⟨by simp, ?_, es.list.length, ?_, fun _ => rfl, by simp⟩
    · constructor
      · intro h
        cases h
      · rintro ⟨k, hk⟩
        exact absurd hk (hnone k (Nat.zero_le k))
    · rw [Events.indices, Nat.sub_zero, ← List.range_eq_range']
      rfl
  · refine ⟨by simp, iff_of_true rfl ⟨j, hfails⟩, j + 1, ?_, by simp, ?_⟩
    · rw [Events.indices, Nat.sub_zero, ← List.range_eq_range']
      rfl
    · intro _
      exact ⟨j, rfl, hfails, fun i hi => hfirst i (Nat.zero_le i) hi⟩

/-! ## The steps of the server -/

/-- The server is in front of the `k`-th event. -/
def Events.Looping (es : Events) (k : ℕ) (w : Uninstall.World) : Prop :=
  w.server = .looping ((es.list.drop k).map RawEvent.event)

/-- A round of the loop is the steps of the server up to the next event, where
the `stat` of the round tells whether the directory is there. -/
theorem turn_run {es : Events} {fails : ℕ → Bool} {k : ℕ} {w : Uninstall.World}
    (hw : es.Looping k w) (hstat : fails (es.files k) = !w.present) :
    ∃ tr w', Run Uninstall.Step w tr w' ∧
      match turn es.bytes fails (es.pos k) with
      | .next p => p = es.pos (k + 1) ∧ es.Looping (k + 1) w'
      | .stop .over => w'.server = .waiting
      | .stop .uninstalled => w'.server = .exited
      | .stop .outside => False := by
  unfold Events.Looping at hw
  rcases Nat.lt_or_ge k es.list.length with hk | hk
  · have hget : es.list[k]? = some es.list[k] := List.getElem?_eq_getElem hk
    rw [List.drop_eq_getElem_cons hk, List.map_cons] at hw
    have hnext := Uninstall.Step.next hw
    rw [Events.turn_pos _ hget]
    rcases hfiles : es.list[k].event.isFiles with _ | _
    · rw [hfiles] at hnext
      exact ⟨_, _, .cons hnext (.nil _), rfl, rfl⟩
    · rw [hfiles] at hnext
      -- the `stat` behind the second of sleep
      have hlook := Uninstall.Step.stat (w := { w with
        server := .sleeping ((es.list.drop (k + 1)).map RawEvent.event) }) rfl
      refine ⟨_, _, .cons hnext (.cons hlook (.nil _)), ?_⟩
      rcases hpresent : w.present with _ | _
      · simp [hstat, hpresent]
      · simp [hstat, hpresent, Events.Looping]
  · have hdrop : es.list.drop k = [] := List.drop_eq_nil_of_le hk
    rw [hdrop, List.map_nil] at hw
    refine ⟨_, _, .cons (Uninstall.Step.done hw) (.nil _), ?_⟩
    rw [Events.turn_of_length_le hk]

end Su.Inotify
