import TestActivity.Su.Setenv

/-!
# Which variables are set

The loop of `_setenv` over the lines of a file, and what is in the slots behind
it.

* `sets_iff` says for which files and which `flag` the slots hold what was asked
  for: of the lines that are looked at none may overrun the buffer or read as a
  variable that was not asked for, and the last one that reads as a variable must
  have the value of an export of it (`Plain`).
* `sets_of_exports`: a file of which every line is what it reads as is such a file.
-/

namespace Su.Setenv

/-! ## What is asked for -/

/-- A set of variables, as it is encoded. -/
structure Request where
  flag : ℕ
  pos : 0 < flag
  lt_eight : flag < 8

/-- The variable is in the set. -/
def has (flag : ℕ) (v : Var) : Bool := flag &&& v.flag != 0

/-- The order of `envp`. -/
def Var.all : List Var := [.ldLibraryPath, .path, .bootclasspath]

theorem Var.mem_all (v : Var) : v ∈ Var.all := by
  rcases v <;> simp [Var.all]

/-- `_setenv` as it should be: whatever `envp` holds, it returns with the slots
of the other variables unchanged, and a variable of the set that some line
exports has the value of such a line. -/
def Sets (r : Request) (f : File) : Prop :=
  ∀ envp, ∃ envp', _setenv r.flag f.bytes envp = some envp' ∧
    (∀ v, has r.flag v = false → envp' v = envp v) ∧
    ∀ v, has r.flag v = true → (∃ l ∈ f.lines, ∃ x, Assigns l.chars v x) →
      ∃ l ∈ f.lines, ∃ x, Assigns l.chars v x ∧ envp' v = v.name ++ ascii "=" ++ x

/-- Some variable of the set is read in none of the lines. -/
def Missing (r : Request) (before : List Line) : Prop :=
  ∃ v, has r.flag v = true ∧ ∀ l ∈ before, ∀ x, ¬ Reads l.chars v x

/-- Line `l` is looked at: some variable of the set is still missing in front of it. -/
structure Looks (r : Request) (f : File) (before : List Line) (l : Line) (after : List Line) :
    Prop where
  lines : f.lines = before ++ l :: after
  missing : Missing r before

/-- How much of a value there is room for in the slot of `v`, behind `NAME=`. -/
def Var.room (v : Var) : ℕ := v.size - 1 - (v.name.length + 1)

/-- No line that is looked at overruns the buffer or reads as another variable, and
the last one that reads as a variable that some line exports has, as far as there is
room for it, the value of such a line. -/
structure Plain (r : Request) (f : File) : Prop where
  inside : ∀ before l after, Looks r f before l after → ¬ Overruns l.chars
  requested : ∀ before l after, Looks r f before l after → ∀ v x, Reads l.chars v x →
    has r.flag v = true
  last : ∀ v, has r.flag v = true → (∃ l ∈ f.lines, ∃ x, Assigns l.chars v x) →
    ∀ before l after x, Looks r f before l after → Reads l.chars v x →
      (∀ mid l' rest, Looks r f (before ++ l :: mid) l' rest → ∀ y, ¬ Reads l'.chars v y) →
      ∃ l' ∈ f.lines, Assigns l'.chars v (x.take v.room)

/-! ## What is taken, and the last of it -/

/-- The variable that a text is taken for. -/
def taken (text : Bytes) : Option Var := (setting text).join.map Prod.fst

/-- Each variable of the set has been taken from one of the texts. -/
def complete (flag : ℕ) (done : List Bytes) : Bool :=
  Var.all.all fun v => !has flag v || done.any fun text => taken text == some v

/-- The texts in front of which some variable of the set had not been taken yet,
where `done` are the texts before. -/
def handled (flag : ℕ) : List Bytes → List Bytes → List Bytes
  | _, [] => []
  | done, text :: texts =>
      if complete flag done then [] else text :: handled flag (done ++ [text]) texts

/-- The last value that is copied for `v`. -/
def lastValue (v : Var) (texts : List Bytes) : Option Bytes :=
  (texts.filterMap fun text =>
    (setting text).join.bind fun s => if s.1 = v then some s.2 else none).getLast?

section Taken

variable {flag : ℕ} {v : Var} {text x y : Bytes} {texts done : List Bytes}

theorem taken_eq_some_iff : taken text = some v ↔ ∃ x, setting text = some (some (v, x)) := by
  unfold taken
  rcases setting text with _ | _ | ⟨w, x⟩
  · simp
  · simp
  · simp

theorem lastValue_cons_self (h : setting text = some (some (v, x))) :
    lastValue v (text :: texts) = some ((lastValue v texts).getD x) := by
  simp only [lastValue, List.filterMap_cons, h, Option.join_some, Option.bind_some, if_true,
    List.getLast?_cons]

theorem lastValue_cons_of_ne (h : taken text ≠ some v) :
    lastValue v (text :: texts) = lastValue v texts := by
  rw [Ne, taken_eq_some_iff] at h
  unfold lastValue
  rcases hsetting : setting text with _ | _ | ⟨w, x⟩
  · simp [hsetting]
  · simp [hsetting]
  · have hwv : w ≠ v := by
      rintro rfl
      exact h ⟨x, hsetting⟩
    simp [hsetting, hwv]

theorem lastValue_eq_none_iff : lastValue v texts = none ↔ ∀ text ∈ texts, taken text ≠ some v := by
  induction texts with
  | nil => simp [lastValue]
  | cons text texts ih =>
      rw [List.forall_mem_cons]
      by_cases htaken : taken text = some v
      · rcases taken_eq_some_iff.1 htaken with ⟨x, hx⟩
        simp [lastValue_cons_self hx, htaken]
      · simp [lastValue_cons_of_ne htaken, htaken, ih]

/-- Behind the text with which the set is complete nothing is handled. -/
theorem handled_of_complete (h : complete flag done = true) : handled flag done texts = [] := by
  rcases texts with _ | ⟨text, texts⟩
  · rfl
  · rw [handled, if_pos h]

theorem handled_cons (h : complete flag done = false) :
    handled flag done (text :: texts) = text :: handled flag (done ++ [text]) texts := by
  rw [handled, h, if_neg Bool.false_ne_true]

theorem complete_append (more : List Bytes) (h : complete flag done = true) :
    complete flag (done ++ more) = true := by
  unfold complete at h ⊢
  rw [List.all_eq_true] at h ⊢
  intro v hv
  have hdone := h v hv
  rw [Bool.or_eq_true] at hdone ⊢
  rw [List.any_append, Bool.or_eq_true]
  exact hdone.imp_right Or.inl

/-- What is handled are the first texts, up to the one with which the set is
complete. -/
theorem handled_eq_append_cons_iff {front back : List Bytes} :
    handled flag done texts = front ++ text :: back ↔
      ∃ after, texts = front ++ text :: after ∧ complete flag (done ++ front) = false ∧
        back = handled flag (done ++ front ++ [text]) after := by
  induction front generalizing done texts with
  | nil =>
      rw [List.nil_append, List.append_nil]
      rcases hcomplete : complete flag done with _ | _
      · rcases texts with _ | ⟨t, texts⟩
        · simp [handled]
        · rw [handled_cons hcomplete, List.cons.injEq]
          constructor
          · rintro ⟨rfl, rfl⟩
            exact ⟨texts, rfl, rfl, rfl⟩
          · rintro ⟨after, heq, -, rfl⟩
            obtain ⟨rfl, rfl⟩ := List.cons.inj heq
            exact ⟨rfl, rfl⟩
      · -- with the set complete there is no next text
        simp [handled_of_complete hcomplete]
  | cons t front ih =>
      rcases hcomplete : complete flag done with _ | _
      · rcases texts with _ | ⟨t', texts⟩
        · simp [handled]
        · rw [handled_cons hcomplete, List.cons_append, List.cons.injEq, ih]
          constructor
          · rintro ⟨rfl, after, rfl, hfront, rfl⟩
            exact ⟨after, rfl, by simpa using hfront, by simp⟩
          · rintro ⟨after, heq, hfront, rfl⟩
            obtain ⟨rfl, rfl⟩ := List.cons.inj heq
            exact ⟨rfl, after, rfl, by simpa using hfront, by simp⟩
      · rw [handled_of_complete hcomplete]
        constructor
        · intro h
          cases h
        · rintro ⟨after, -, hfront, -⟩
          rw [complete_append _ hcomplete] at hfront
          cases hfront

theorem handled_of_split {front after : List Bytes}
    (hmissing : complete flag (done ++ front) = false) :
    handled flag done (front ++ text :: after) =
      front ++ text :: handled flag (done ++ front ++ [text]) after :=
  handled_eq_append_cons_iff.2 ⟨after, rfl, hmissing, rfl⟩

/-- The last value is the one of a text behind which no other is taken for `v`. -/
theorem lastValue_eq_some_iff :
    lastValue v texts = some y ↔ ∃ front text back, texts = front ++ text :: back ∧
      setting text = some (some (v, y)) ∧ ∀ t ∈ back, taken t ≠ some v := by
  induction texts with
  | nil => simp [lastValue]
  | cons t texts ih =>
      constructor
      · intro h
        -- the value is of a later text, or of this one if none follows
        by_cases hlater : lastValue v texts = none
        · by_cases htaken : taken t = some v
          · rcases taken_eq_some_iff.1 htaken with ⟨x, hx⟩
            rw [lastValue_cons_self hx, hlater, Option.getD_none, Option.some.injEq] at h
            exact ⟨[], t, texts, rfl, h ▸ hx, lastValue_eq_none_iff.1 hlater⟩
          · rw [lastValue_cons_of_ne htaken, hlater] at h
            cases h
        · have hy : lastValue v texts = some y := by
            rcases Option.ne_none_iff_exists'.1 hlater with ⟨z, hz⟩
            by_cases htaken : taken t = some v
            · rcases taken_eq_some_iff.1 htaken with ⟨x, hx⟩
              rw [lastValue_cons_self hx, hz] at h
              rwa [hz]
            · rwa [lastValue_cons_of_ne htaken] at h
          rcases ih.1 hy with ⟨front, text, back, rfl, htext, hback⟩
          exact ⟨t :: front, text, back, rfl, htext, hback⟩
      · rintro ⟨front, text, back, heq, htext, hback⟩
        rcases front with _ | ⟨t', front⟩
        · obtain ⟨rfl, rfl⟩ := List.cons.inj heq
          rw [lastValue_cons_self htext, lastValue_eq_none_iff.2 hback, Option.getD_none]
        · obtain ⟨rfl, rfl⟩ := List.cons.inj heq
          have hy := ih.2 ⟨front, text, back, rfl, htext, hback⟩
          by_cases htaken : taken t = some v
          · rcases taken_eq_some_iff.1 htaken with ⟨x, hx⟩
            rw [lastValue_cons_self hx, hy, Option.getD_some]
          · rw [lastValue_cons_of_ne htaken, hy]

end Taken

/-! ## Sets of bits -/

/-- A set that is contained in another is the smaller number unless it is the
other. -/
theorem lt_iff_of_subset {a b : ℕ} (ha : a < 8) (hb : b < 8)
    (h : ∀ v, has a v = true → has b v = true) :
    a < b ↔ ∃ v, has b v = true ∧ has a v = false := by
  have hall : ∀ a : Fin 8, ∀ b : Fin 8, (∀ v ∈ Var.all, has a v = true → has b v = true) →
      (a < b ↔ ∃ v ∈ Var.all, has b v = true ∧ has a v = false) := by
    decide
  have hab := hall ⟨a, ha⟩ ⟨b, hb⟩ fun v _ => h v
  rw [Fin.mk_lt_mk] at hab
  rw [hab]
  simp [Var.mem_all]

/-- The flags are different bits. -/
theorem has_or (a : ℕ) (v w : Var) : has (a ||| v.flag) w = (has a w || v == w) := by
  by_cases hvw : v = w
  · have hne : (a ||| v.flag) &&& w.flag ≠ 0 := by
      intro h
      rw [Nat.and_or_distrib_right, hvw, Nat.or_eq_zero_iff, Nat.and_self] at h
      rcases w <;> exact absurd h.2 (by decide)
    simp [has, hvw, hvw ▸ hne]
  · have hzero : v.flag &&& w.flag = 0 := by
      rcases v <;> rcases w <;> first | rfl | exact absurd rfl hvw
    rw [has, Nat.and_or_distrib_right, hzero, Nat.or_zero, has]
    simp [hvw]

theorem or_lt_eight {a : ℕ} (ha : a < 8) (v : Var) : a ||| v.flag < 8 :=
  Nat.or_lt_two_pow (n := 3) ha (by rcases v <;> decide)

/-! ## The loop on the texts -/

theorem complete_iff {flag : ℕ} {done : List Bytes} :
    complete flag done = true ↔
      ∀ v, has flag v = true → ∃ text ∈ done, taken text = some v := by
  simp only [complete, List.all_eq_true, Bool.or_eq_true, Bool.not_eq_true', List.any_eq_true,
    beq_iff_eq]
  constructor
  · intro h v hv
    rcases h v v.mem_all with hnot | hdone
    · rw [hv] at hnot
      cases hnot
    · exact hdone
  · intro h v _
    rcases hv : has flag v with _ | _
    · exact Or.inl rfl
    · exact Or.inr (h v hv)

/-- No `flag` but 0 makes a variable be skipped. -/
theorem not_skipped {flag : ℕ} (hflag : 0 < flag) (v : Var) : skipped flag v = false := by
  have hne : flag ≠ 0 := by omega
  simp [skipped, hne]

section Loop

variable {flag toflag : ℕ} {text : Bytes} {texts done : List Bytes} {envp e : Var → Bytes}

theorem setenvLoop_cons (hflag : 0 < flag) :
    setenvLoop flag (text :: texts) toflag envp =
      if toflag < flag then
        match setting text with
        | none => none
        | some none => setenvLoop flag texts toflag envp
        | some (some (v, value)) =>
            setenvLoop flag texts (toflag ||| v.flag) (Function.update envp v (slot v value))
      else some envp := by
  rw [setenvLoop]
  unfold setting
  rcases exported (CString.fill 0 buffSize text) with _ | _ | name
  · rfl
  · rfl
  · rcases hbranch : branch name with _ | _ | v
    · simp [hbranch]
    · simp [hbranch]
    · rcases hvalue : value v name with _ | x
      · simp [hbranch, hvalue, not_skipped hflag]
      · simp [hbranch, hvalue, not_skipped hflag]

/-- Where the loop is behind `done`, if only variables of the set were taken. -/
structure Behind (flag toflag : ℕ) (done : List Bytes) : Prop where
  has_iff : ∀ v, has toflag v = true ↔ ∃ text ∈ done, taken text = some v
  requested : ∀ v, has toflag v = true → has flag v = true
  lt_eight : toflag < 8

theorem Behind.start (flag : ℕ) : Behind flag 0 [] := by
  constructor
  case has_iff => simp [has]
  case requested => simp [has]
  case lt_eight => decide

/-- The comparison of the loop says whether the set is complete. -/
theorem Behind.lt_iff (h : Behind flag toflag done) (hflag : flag < 8) :
    toflag < flag ↔ complete flag done = false := by
  rw [lt_iff_of_subset h.lt_eight hflag h.requested, ← Bool.not_eq_true, complete_iff]
  constructor
  · rintro ⟨v, hv, hnot⟩ hall
    rw [(h.has_iff v).2 (hall v hv)] at hnot
    cases hnot
  · intro hnot
    push Not at hnot
    rcases hnot with ⟨v, hv, hnone⟩
    refine ⟨v, hv, ?_⟩
    rw [← Bool.not_eq_true, h.has_iff]
    rintro ⟨text, hmem, htaken⟩
    exact hnone text hmem htaken

/-- While the set is not complete a text is handled. -/
theorem Behind.loop_cons (h : Behind flag toflag done) (hpos : 0 < flag) (hflag : flag < 8)
    (hcomplete : complete flag done = false) :
    setenvLoop flag (text :: texts) toflag envp =
      match setting text with
      | none => none
      | some none => setenvLoop flag texts toflag envp
      | some (some (v, value)) =>
          setenvLoop flag texts (toflag ||| v.flag) (Function.update envp v (slot v value)) := by
  rw [setenvLoop_cons hpos, if_pos ((h.lt_iff hflag).2 hcomplete)]

theorem Behind.loop_complete (h : Behind flag toflag done) (hpos : 0 < flag) (hflag : flag < 8)
    (hcomplete : complete flag done = true) :
    setenvLoop flag texts toflag envp = some envp := by
  have hnot : ¬ toflag < flag := by
    rw [h.lt_iff hflag, hcomplete]
    exact Bool.noConfusion
  rcases texts with _ | ⟨text, texts⟩
  · rfl
  · rw [setenvLoop_cons hpos, if_neg hnot]

/-- A line that sets nothing. -/
theorem Behind.nothing (h : Behind flag toflag done) (htext : setting text = some none) :
    Behind flag toflag (done ++ [text]) := by
  have htaken : taken text = none := by simp [taken, htext]
  constructor
  case has_iff =>
    intro v
    rw [h.has_iff]
    simp [or_and_right, exists_or, htaken]
  case requested => exact h.requested
  case lt_eight => exact h.lt_eight

/-- A line that sets a variable of the set. -/
theorem Behind.variable {v : Var} {x : Bytes} (h : Behind flag toflag done)
    (htext : setting text = some (some (v, x))) (hv : has flag v = true) :
    Behind flag (toflag ||| v.flag) (done ++ [text]) := by
  have htaken : taken text = some v := by simp [taken, htext]
  constructor
  case has_iff =>
    intro w
    rw [has_or, Bool.or_eq_true, h.has_iff]
    simp [or_and_right, exists_or, htaken]
  case requested =>
    intro w hw
    rw [has_or, Bool.or_eq_true, beq_iff_eq] at hw
    rcases hw with hw | rfl
    · exact h.requested w hw
    · exact hv
  case lt_eight => exact or_lt_eight h.lt_eight v

/-- What a line copies. -/
def copy (envp : Var → Bytes) (text : Bytes) : Var → Bytes :=
  match setting text with
  | some (some (v, x)) => Function.update envp v (slot v x)
  | _ => envp

/-- The loop goes through the texts that are handled if nothing is wrong with
them. -/
theorem setenvLoop_handled (hpos : 0 < flag) (hflag : flag < 8)
    (h : Behind flag toflag done)
    (hinside : ∀ text ∈ handled flag done texts, setting text ≠ none)
    (hrequested : ∀ text ∈ handled flag done texts, ∀ v, taken text = some v →
      has flag v = true) :
    setenvLoop flag texts toflag envp = some ((handled flag done texts).foldl copy envp) := by
  induction texts generalizing toflag done envp with
  | nil => rfl
  | cons text texts ih =>
      rcases hcomplete : complete flag done with _ | _
      · rw [handled_cons hcomplete, List.forall_mem_cons] at hinside hrequested
        rw [h.loop_cons hpos hflag hcomplete, handled_cons hcomplete, List.foldl_cons]
        -- the text sets nothing, or a variable that is asked for
        rcases hsetting : setting text with _ | _ | ⟨v, x⟩
        · exact absurd hsetting hinside.1
        · rw [copy, hsetting]
          exact ih (h.nothing hsetting) hinside.2 hrequested.2
        · have hv := hrequested.1 v (taken_eq_some_iff.2 ⟨x, hsetting⟩)
          rw [copy, hsetting]
          exact ih (h.variable hsetting hv) hinside.2 hrequested.2
      · rw [h.loop_complete hpos hflag hcomplete, handled_of_complete hcomplete]
        rfl

/-! ## What is wrong stays wrong -/

theorem slot_ne_nil (v : Var) (x : Bytes) : slot v x ≠ [] := by
  intro h
  have hlen := congrArg List.length h
  rw [slot, List.length_take, List.length_nil] at hlen
  simp only [List.length_append] at hlen
  have hname : 0 < v.name.length := by rcases v <;> decide
  have hsize : 1 < v.size := by rcases v <;> decide
  omega

/-- A slot that holds something goes on holding something. -/
theorem setenvLoop_ne_nil (hpos : 0 < flag) {v : Var} (h : envp v ≠ [])
    (hend : setenvLoop flag texts toflag envp = some e) : e v ≠ [] := by
  induction texts generalizing toflag envp with
  | nil =>
      rw [setenvLoop, Option.some.injEq] at hend
      rwa [← hend]
  | cons text texts ih =>
      rw [setenvLoop_cons hpos] at hend
      split at hend
      · rcases hsetting : setting text with _ | _ | ⟨w, x⟩
        · simp [hsetting] at hend
        · rw [hsetting] at hend
          exact ih h hend
        · rw [hsetting] at hend
          refine ih ?_ hend
          by_cases hvw : v = w
          · rw [hvw, Function.update_self]
            exact slot_ne_nil w x
          · rwa [Function.update_of_ne hvw]
      · rw [Option.some.injEq] at hend
        rwa [← hend]

/-- A text that is taken for another variable leaves something in its slot. -/
theorem setenvLoop_stray (hpos : 0 < flag) (hflag : flag < 8) (h : Behind flag toflag done)
    (hstray : ∃ text ∈ handled flag done texts, setting text = none ∨
      ∃ v, taken text = some v ∧ has flag v = false)
    (hend : setenvLoop flag texts toflag envp = some e) :
    ∃ v, has flag v = false ∧ e v ≠ [] := by
  induction texts generalizing toflag done envp with
  | nil =>
      rcases hstray with ⟨text, hmem, _⟩
      simp [handled] at hmem
  | cons text texts ih =>
      rcases hcomplete : complete flag done with _ | _
      · rw [handled_cons hcomplete] at hstray
        rw [h.loop_cons hpos hflag hcomplete] at hend
        -- if it is not this text, it is a later one
        have hlater (hnot : ¬ (setting text = none ∨
              ∃ v, taken text = some v ∧ has flag v = false)) :
            ∃ t ∈ handled flag (done ++ [text]) texts, setting t = none ∨
              ∃ v, taken t = some v ∧ has flag v = false := by
          rcases hstray with ⟨t, hmem, ht⟩
          rcases List.mem_cons.1 hmem with rfl | hmem
          · exact absurd ht hnot
          · exact ⟨t, hmem, ht⟩
        rcases hsetting : setting text with _ | _ | ⟨v, x⟩
        · simp [hsetting] at hend
        · rw [hsetting] at hend
          exact ih (h.nothing hsetting) (hlater (by simp [hsetting, taken])) hend
        · rw [hsetting] at hend
          rcases hv : has flag v with _ | _
          · -- the slot is filled, and no later text empties it
            refine ⟨v, hv, setenvLoop_ne_nil hpos ?_ hend⟩
            rw [Function.update_self]
            exact slot_ne_nil v x
          · exact ih (h.variable hsetting hv) (hlater (by simp [hsetting, taken, hv])) hend
      · rcases hstray with ⟨t, hmem, _⟩
        rw [handled_of_complete hcomplete] at hmem
        cases hmem

/-- What the slots hold behind texts: the last value copied. -/
theorem foldl_copy (v : Var) :
    texts.foldl copy envp v = ((lastValue v texts).map (slot v)).getD (envp v) := by
  induction texts generalizing envp with
  | nil => rfl
  | cons text texts ih =>
      rw [List.foldl_cons, ih]
      by_cases htaken : taken text = some v
      · rcases taken_eq_some_iff.1 htaken with ⟨x, hx⟩
        rw [lastValue_cons_self hx, copy, hx]
        rcases lastValue v texts with _ | y
        · exact Function.update_self ..
        · rfl
      · rw [lastValue_cons_of_ne htaken]
        congr 1
        rw [taken_eq_some_iff] at htaken
        unfold copy
        rcases hsetting : setting text with _ | _ | ⟨w, x⟩
        · rfl
        · rfl
        · apply Function.update_of_ne
          rintro rfl
          exact htaken ⟨x, hsetting⟩

end Loop

/-! ## The lines -/

theorem Line.stored (l : Line) : Stored l.chars [] :=
  ⟨Or.inl rfl, by rw [List.append_nil]; exact l.length_lt⟩

theorem Line.setting_eq_some_iff (l : Line) {v : Var} {x : Bytes} :
    setting l.chars = some (some (v, x)) ↔ Reads l.chars v x := by
  have hiff := Setenv.setting_eq_some_iff (v := v) (x := x) l.stored l.no_nul l.no_newline
  rwa [List.append_nil] at hiff

theorem Line.setting_eq_none_iff (l : Line) : setting l.chars = none ↔ Overruns l.chars := by
  have hiff := Setenv.setting_eq_none_iff l.stored l.no_nul l.no_newline
  rwa [List.append_nil] at hiff

theorem Line.taken_eq_some_iff (l : Line) {v : Var} :
    taken l.chars = some v ↔ ∃ x, Reads l.chars v x := by
  simp only [Setenv.taken_eq_some_iff, l.setting_eq_some_iff]

/-- The newline makes no difference. -/
theorem Line.setting_append (l : Line) {ending : Bytes} (h : Stored l.chars ending) :
    setting (l.chars ++ ending) = setting l.chars := by
  rcases hsetting : setting l.chars with _ | _ | ⟨v, x⟩
  · rw [Setenv.setting_eq_none_iff h l.no_nul l.no_newline, ← l.setting_eq_none_iff, hsetting]
  · apply setting_of_neither ?_ ?_ h
    · intro v x hreads
      rw [← l.setting_eq_some_iff, hsetting] at hreads
      cases hreads
    · intro hoverruns
      rw [← l.setting_eq_none_iff, hsetting] at hoverruns
      cases hoverruns
  · rw [Setenv.setting_eq_some_iff h l.no_nul l.no_newline, ← l.setting_eq_some_iff, hsetting]

/-- An empty line, with or without its newline. -/
theorem setting_empty {ending : Bytes} (h : Stored [] ending) : setting ending = some none := by
  rw [← List.nil_append ending]
  refine setting_of_neither ?_ ?_ h
  · rintro v x ⟨hchars, -, -, -, -, -⟩
    simp at hchars
  · rintro (⟨-, -, -, hfull⟩ | ⟨-, -, -, -, -, hfull⟩) <;> cases hfull

section Lines

variable {flag toflag : ℕ} {text text' : Bytes} {texts texts' : List Bytes} {envp : Var → Bytes}

/-- A text that sets nothing may as well be left out. -/
theorem setenvLoop_nothing (hflag : 0 < flag) (h : setting text = some none) :
    setenvLoop flag (text :: texts) toflag envp = setenvLoop flag texts toflag envp := by
  rw [setenvLoop_cons hflag, h]
  dsimp only
  split
  · rfl
  · rename_i hstop
    rcases texts with _ | ⟨t, texts⟩
    · rfl
    · rw [setenvLoop_cons hflag, if_neg hstop]

theorem setenvLoop_congr (hflag : 0 < flag) (hhead : setting text = setting text')
    (htail : ∀ toflag envp,
      setenvLoop flag texts toflag envp = setenvLoop flag texts' toflag envp) :
    setenvLoop flag (text :: texts) toflag envp =
      setenvLoop flag (text' :: texts') toflag envp := by
  rw [setenvLoop_cons hflag, setenvLoop_cons hflag, hhead]
  rcases setting text' with _ | _ | ⟨v, x⟩ <;> simp only [htail]

/-- What is stored of a line has the effect of the line. -/
theorem setenvLoop_line (hflag : 0 < flag) (l : Line)
    (htail : ∀ toflag envp,
      setenvLoop flag texts toflag envp = setenvLoop flag texts' toflag envp) :
    setenvLoop flag (l.texts ++ texts) toflag envp =
      setenvLoop flag (l.chars :: texts') toflag envp := by
  unfold Line.texts
  split
  · rename_i hroom
    exact setenvLoop_congr hflag (l.setting_append ⟨Or.inr rfl, by simpa using hroom⟩) htail
  · refine setenvLoop_congr hflag rfl fun toflag envp => ?_
    have hnewline : setting [10] = some none := setting_empty ⟨Or.inr rfl, by decide⟩
    exact (setenvLoop_nothing hflag hnewline).trans (htail toflag envp)

/-- The loop over the texts of a file is the loop over its lines. -/
theorem setenvLoop_texts (hflag : 0 < flag) (f : File) :
    setenvLoop flag f.texts toflag envp =
      setenvLoop flag (f.lines.map Line.chars) toflag envp := by
  rcases f with ⟨ended, last⟩
  simp only [File.texts, File.lines]
  induction ended generalizing toflag envp with
  | nil =>
      rcases last with _ | l
      · rfl
      · simp only [Option.elim_some, Line.lastTexts, List.flatMap_nil, List.nil_append,
          Option.toList_some, List.map_cons, List.map_nil]
        split
        · rename_i hempty
          rw [hempty, setenvLoop_nothing hflag (setting_empty ⟨Or.inl rfl, by decide⟩)]
        · rfl
  | cons l ended ih =>
      simp only [List.flatMap_cons, List.append_assoc, List.cons_append, List.map_cons]
      exact setenvLoop_line hflag l fun _ _ => ih

end Lines

/-! ## When it works -/

section Plain

variable {r : Request} {f : File} {v : Var} {x : Bytes}

theorem complete_map_iff {before : List Line} :
    complete r.flag (before.map Line.chars) = false ↔ Missing r before := by
  rw [← Bool.not_eq_true, complete_iff]
  simp only [List.mem_map, exists_exists_and_eq_and, Line.taken_eq_some_iff]
  unfold Missing
  push Not
  rfl

/-- What is handled are the lines that are looked at. -/
theorem mem_handled_iff {text : Bytes} :
    text ∈ handled r.flag [] (f.lines.map Line.chars) ↔
      ∃ before l after, Looks r f before l after ∧ l.chars = text := by
  constructor
  · intro hmem
    rcases List.append_of_mem hmem with ⟨front, back, heq⟩
    rcases handled_eq_append_cons_iff.1 heq with ⟨after, hlines, hmissing, -⟩
    rcases List.map_eq_append_iff.1 hlines with ⟨before, rest, hsplit, rfl, hrest⟩
    rcases List.map_eq_cons_iff.1 hrest with ⟨l, after', rfl, rfl, rfl⟩
    exact ⟨before, l, after', ⟨hsplit, complete_map_iff.1 (by simpa using hmissing)⟩, rfl⟩
  · rintro ⟨before, l, after, ⟨hsplit, hmissing⟩, rfl⟩
    rw [hsplit, List.map_append, List.map_cons,
      handled_of_split (by simpa using complete_map_iff.2 hmissing)]
    simp

/-- The last value copied is the one of the last line that is looked at and reads as
the variable. -/
theorem lastValue_handled_iff :
    lastValue v (handled r.flag [] (f.lines.map Line.chars)) = some x ↔
      ∃ before l after, Looks r f before l after ∧ Reads l.chars v x ∧
        ∀ mid l' rest, Looks r f (before ++ l :: mid) l' rest → ∀ y, ¬ Reads l'.chars v y := by
  rw [lastValue_eq_some_iff]
  constructor
  · rintro ⟨front, text, back, heq, htext, hback⟩
    rcases handled_eq_append_cons_iff.1 heq with ⟨after, hlines, hmissing, rfl⟩
    rcases List.map_eq_append_iff.1 hlines with ⟨before, rest, hsplit, rfl, hrest⟩
    rcases List.map_eq_cons_iff.1 hrest with ⟨l, after', rfl, rfl, rfl⟩
    refine ⟨before, l, after', ⟨hsplit, complete_map_iff.1 (by simpa using hmissing)⟩,
      l.setting_eq_some_iff.1 htext, ?_⟩
    rintro mid l' rest ⟨hsplit', hmissing'⟩ y hreads
    -- the later line is handled, too
    have hafter : after' = mid ++ l' :: rest := by
      rw [hsplit, List.append_assoc, List.cons_append] at hsplit'
      exact (List.cons.inj (List.append_cancel_left hsplit')).2
    refine hback l'.chars ?_ (l'.taken_eq_some_iff.2 ⟨y, hreads⟩)
    rw [hafter, List.map_append, List.map_cons,
      handled_of_split (by simpa using complete_map_iff.2 hmissing')]
    simp
  · rintro ⟨before, l, after, ⟨hsplit, hmissing⟩, hreads, hlast⟩
    rw [hsplit, List.map_append, List.map_cons,
      handled_of_split (by simpa using complete_map_iff.2 hmissing)]
    refine ⟨_, _, _, rfl, l.setting_eq_some_iff.2 hreads, ?_⟩
    intro text hmem htaken
    rcases List.append_of_mem hmem with ⟨front, back, heq⟩
    rcases handled_eq_append_cons_iff.1 heq with ⟨after', hafter, hmissing', -⟩
    rcases List.map_eq_append_iff.1 hafter with ⟨mid, rest, rfl, rfl, hrest⟩
    rcases List.map_eq_cons_iff.1 hrest with ⟨l', rest', rfl, rfl, rfl⟩
    rcases l'.taken_eq_some_iff.1 htaken with ⟨y, hy⟩
    refine hlast mid l' rest' ⟨by rw [hsplit]; simp, ?_⟩ y hy
    exact complete_map_iff.1 (by simpa using hmissing')

/-- What there is room for is stored. -/
theorem slot_eq (v : Var) (x : Bytes) : slot v x = v.name ++ ascii "=" ++ x.take v.room := by
  have hlen : (v.name ++ ascii "=").length = v.name.length + 1 := by
    rw [List.length_append]
    rfl
  have hsize : v.name.length + 1 ≤ v.size - 1 := by rcases v <;> decide
  rw [slot, List.take_append, hlen, List.take_of_length_le (by omega)]
  rfl

theorem setenv_eq (r : Request) (f : File) (envp : Var → Bytes) :
    _setenv r.flag f.bytes envp = setenvLoop r.flag (f.lines.map Line.chars) 0 envp := by
  rw [_setenv, texts_bytes, setenvLoop_texts r.pos]

/-- With the slots empty at first, what is in them afterwards was copied. -/
theorem plain_of_sets (h : Sets r f) : Plain r f := by
  have hstart := Behind.start r.flag
  rcases h fun _ => [] with ⟨e, he, hothers, hexported⟩
  rw [setenv_eq] at he
  -- a stray line would fill a slot that has to stay empty
  have hclean : ¬ ∃ text ∈ handled r.flag [] (f.lines.map Line.chars), setting text = none ∨
      ∃ v, taken text = some v ∧ has r.flag v = false := by
    intro hstray
    rcases setenvLoop_stray r.pos r.lt_eight hstart hstray he with ⟨v, hv, hne⟩
    exact hne (hothers v hv)
  have hinside : ∀ text ∈ handled r.flag [] (f.lines.map Line.chars), setting text ≠ none := by
    intro text hmem hnone
    exact hclean ⟨text, hmem, Or.inl hnone⟩
  have hrequested : ∀ text ∈ handled r.flag [] (f.lines.map Line.chars), ∀ v,
      taken text = some v → has r.flag v = true := by
    intro text hmem v htaken
    by_contra hv
    exact hclean ⟨text, hmem, Or.inr ⟨v, htaken, by simpa using hv⟩⟩
  rw [setenvLoop_handled r.pos r.lt_eight hstart hinside hrequested, Option.some.injEq] at he
  constructor
  case inside =>
    intro before l after hlooks hoverruns
    exact hinside _ (mem_handled_iff.2 ⟨before, l, after, hlooks, rfl⟩)
      (l.setting_eq_none_iff.2 hoverruns)
  case requested =>
    intro before l after hlooks v x hreads
    exact hrequested _ (mem_handled_iff.2 ⟨before, l, after, hlooks, rfl⟩) v
      (l.taken_eq_some_iff.2 ⟨x, hreads⟩)
  case last =>
    intro v hv hsome before l after x hlooks hreads hlater
    rcases hexported v hv hsome with ⟨l', hl', y, hassigns, hslot⟩
    have hlast := lastValue_handled_iff.2 ⟨before, l, after, hlooks, hreads, hlater⟩
    rw [← he, foldl_copy, hlast, Option.map_some, Option.getD_some, slot_eq] at hslot
    rw [List.append_cancel_left hslot]
    exact ⟨l', hl', hassigns⟩

/-- A text that is taken for a variable of the set is handled, or the variable had
been taken before. -/
theorem exists_handled {flag : ℕ} {v : Var} (hv : has flag v = true) {texts : List Bytes}
    (done : List Bytes) (h : ∃ text ∈ texts, taken text = some v) :
    ∃ text ∈ done ++ handled flag done texts, taken text = some v := by
  induction texts generalizing done with
  | nil =>
      rcases h with ⟨text, hmem, _⟩
      cases hmem
  | cons text texts ih =>
      rcases hcomplete : complete flag done with _ | _
      · rw [handled_cons hcomplete]
        rcases h with ⟨t, hmem, ht⟩
        rcases List.mem_cons.1 hmem with rfl | hmem
        · exact ⟨t, by simp, ht⟩
        · have hrest := ih (done ++ [text]) ⟨t, hmem, ht⟩
          simpa using hrest
      · rcases complete_iff.1 hcomplete v hv with ⟨t, hmem, ht⟩
        exact ⟨t, by simp [hmem], ht⟩

theorem sets_of_plain (h : Plain r f) : Sets r f := by
  have hinside : ∀ text ∈ handled r.flag [] (f.lines.map Line.chars), setting text ≠ none := by
    intro text hmem hnone
    rcases mem_handled_iff.1 hmem with ⟨before, l, after, hlooks, rfl⟩
    exact h.inside before l after hlooks (l.setting_eq_none_iff.1 hnone)
  have hrequested : ∀ text ∈ handled r.flag [] (f.lines.map Line.chars), ∀ v,
      taken text = some v → has r.flag v = true := by
    intro text hmem v htaken
    rcases mem_handled_iff.1 hmem with ⟨before, l, after, hlooks, rfl⟩
    rcases l.taken_eq_some_iff.1 htaken with ⟨x, hreads⟩
    exact h.requested before l after hlooks v x hreads
  intro envp
  refine ⟨(handled r.flag [] (f.lines.map Line.chars)).foldl copy envp, ?_, ?_, ?_⟩
  · rw [setenv_eq, setenvLoop_handled r.pos r.lt_eight (Behind.start r.flag) hinside hrequested]
  · intro v hv
    have hnone : lastValue v (handled r.flag [] (f.lines.map Line.chars)) = none := by
      rw [lastValue_eq_none_iff]
      intro text hmem htaken
      have hrequested := hrequested text hmem v htaken
      rw [hv] at hrequested
      cases hrequested
    rw [foldl_copy, hnone]
    rfl
  · rintro v hv ⟨l, hl, x, hassigns⟩
    -- the export is read, so that something is stored
    have htaken : taken l.chars = some v := l.taken_eq_some_iff.2 ⟨x, hassigns.reads⟩
    rcases exists_handled hv [] ⟨_, List.mem_map_of_mem hl, htaken⟩ with ⟨text, htext, htaken⟩
    rcases hlast : lastValue v (handled r.flag [] (f.lines.map Line.chars)) with _ | y
    · exact absurd htaken (lastValue_eq_none_iff.1 hlast text htext)
    · rcases lastValue_handled_iff.1 hlast with ⟨before, l', after, hlooks, hreads, hlater⟩
      rcases h.last v hv ⟨l, hl, x, hassigns⟩ before l' after y hlooks hreads hlater with
        ⟨l'', hl'', hassigns''⟩
      refine ⟨l'', hl'', _, hassigns'', ?_⟩
      rw [foldl_copy, hlast, Option.map_some, Option.getD_some, slot_eq]

end Plain

/-- `_setenv` sets what is asked for, and nothing else, if and only if nothing is
wrong with the lines up to the one with which the set is complete. -/
theorem sets_iff (r : Request) (f : File) : Sets r f ↔ Plain r f :=
  ⟨plain_of_sets, sets_of_plain⟩

/-- A file of which no line overruns the buffer, and whatever reads as a variable is
an export of it and is asked for, is read as it should be. -/
theorem sets_of_exports {r : Request} {f : File} (hinside : ∀ l ∈ f.lines, ¬ Overruns l.chars)
    (hexports : ∀ l ∈ f.lines, ∀ v x, Reads l.chars v x →
      has r.flag v = true ∧ Assigns l.chars v x) : Sets r f := by
  have hmem : ∀ {before l after}, Looks r f before l after → l ∈ f.lines := by
    intro before l after hlooks
    rw [hlooks.lines]
    simp
  apply sets_of_plain
  constructor
  case inside => exact fun before l after hlooks => hinside l (hmem hlooks)
  case requested => exact fun before l after hlooks v x hreads =>
    (hexports l (hmem hlooks) v x hreads).1
  case last =>
    intro v hv _ before l after x hlooks hreads _
    have hassigns := (hexports l (hmem hlooks) v x hreads).2
    have hfits := l.fits v x hassigns
    have hroom : x.length ≤ v.room := by
      have hequals : (ascii "=").length = 1 := rfl
      simp only [List.length_append, hequals] at hfits
      unfold Var.room
      omega
    rw [List.take_of_length_le hroom]
    exact ⟨l, hmem hlooks, hassigns⟩

/-! ## A name that begins with another -/

theorem Assigns.length_le {chars x : Bytes} {v : Var} (h : Assigns chars v x) :
    (v.name ++ ascii "=" ++ x).length + 7 ≤ chars.length := by
  rcases h with @⟨before, gap, gap', hchars, _, _, hgap_ne, _, hgap'_ne, _⟩
  have hexport : (ascii "export").length = 6 := rfl
  have hgap_len := List.length_pos_iff.2 hgap_ne
  have hgap'_len := List.length_pos_iff.2 hgap'_ne
  have hequals : (ascii "=").length = 1 := rfl
  rw [hchars]
  simp only [List.length_append]
  omega

/-- A value follows a blank. -/
theorem Assigns.blank_before {chars x : Bytes} {v : Var} (h : Assigns chars v x) :
    ∃ b, chars[chars.length - (x.length + 1)]? = some b ∧ isblank b = true := by
  rcases h with @⟨before, gap, gap', rfl, _, _, _, hgap', hgap'_ne, _⟩
  refine ⟨gap'.getLast hgap'_ne, ?_, hgap' _ (List.getLast_mem hgap'_ne)⟩
  have hlen := List.length_pos_iff.2 hgap'_ne
  rw [List.append_assoc, List.getElem?_append_right (by simp only [List.length_append]; omega),
    List.getElem?_append_left (by simp only [List.length_append]; omega),
    List.getLast_eq_getElem, List.getElem?_eq_some_iff]
  simp only [List.length_append]
  refine ⟨by omega, ?_⟩
  congr 1
  omega

/-- A line too short to fill a slot. -/
def Line.short (chars : Bytes) (no_newline : 10 ∉ chars) (no_nul : 0 ∉ chars)
    (hlen : chars.length < 256) : Line where
  chars := chars
  no_newline := no_newline
  no_nul := no_nul
  length_lt := Nat.lt_trans hlen (by decide)
  fits := by
    intro v x h
    have hle := h.length_le
    have hsize : 256 ≤ v.size := by rcases v <;> decide
    omega

/-- `PATH` is set, and then a variable that begins with it. -/
def pathext : File :=
  ⟨[.short (ascii "export PATH /bin") (by decide) (by decide) (by decide),
    .short (ascii "export PATHEXT sh") (by decide) (by decide) (by decide)], none⟩

def allFlags : Request := ⟨7, by decide, by decide⟩

/-- The second line reads as `PATH`: the slot holds `PATH=XT sh`. -/
theorem not_sets_pathext : ¬ Sets allFlags pathext := by
  intro h
  have hplain := plain_of_sets h
  have hpath : ∃ l ∈ pathext.lines, ∃ x, Assigns l.chars .path x := by
    refine ⟨_, List.mem_cons_self, ascii "/bin", ?_⟩
    have hchars : ascii "export PATH /bin" =
        [] ++ ascii "export" ++ ascii " " ++ Var.path.name ++ ascii " " ++ ascii "/bin" := rfl
    have hblank : ∀ b ∈ ascii " ", isblank b = true := by
      intro b hb
      rw [List.mem_singleton.1 hb]
      rfl
    exact .intro hchars (List.forall_mem_nil _) hblank (by decide) hblank (by decide)
      ⟨47, _, rfl, rfl⟩
  have hlast : lastValue .path (handled allFlags.flag [] (pathext.lines.map Line.chars)) =
      some (ascii "XT sh") := by
    decide
  rcases lastValue_handled_iff.1 hlast with ⟨before, l, after, hlooks, hreads, hlater⟩
  rcases hplain.last .path rfl hpath before l after _ hlooks hreads hlater with ⟨l', hl', hassigns⟩
  rw [show (ascii "XT sh").take Var.path.room = ascii "XT sh" from by decide] at hassigns
  -- the value would follow a blank, but it follows an `E` or a `H`
  rcases hassigns.blank_before with ⟨b, hb, hblank⟩
  rcases List.mem_cons.1 hl' with rfl | hl'
  · obtain rfl : (72 : UInt8) = b := Option.some.inj hb
    cases hblank
  · obtain rfl := List.mem_singleton.1 hl'
    obtain rfl : (69 : UInt8) = b := Option.some.inj hb
    cases hblank

end Su.Setenv
