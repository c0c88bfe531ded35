import Mathlib.Data.List.Nodup
import Mathlib.Data.List.Perm.Basic
import TestActivity.Lib.Transition
import TestActivity.Su.Io

/-!
# The watch on the application's directory

`run_server` watches `watch_path` for deletions. An uninstaller deletes the
entries of the directory, in any order, and then the directory itself; each
deletion queues an event. When the event of the sub-directory `files` is read,
the server sleeps one second and then looks, once, whether `watch_path` is
still there.

`exited_iff` says for which runs the server is gone when the directory is gone
and every event has been handled: there was a sub-directory `files`, and the
deletion was over when its event was looked into. How long the second takes
beside the uninstaller is not fixed: its steps fall before or behind the
`stat`.
-/

namespace Su.Uninstall

open Transition

/-- `struct inotify_event`: whether `mask` has `IN_ISDIR`, and `name`. -/
structure Event where
  isDir : Bool
  name : Bytes
deriving DecidableEq, Repr

/-- `(event->mask & IN_ISDIR) && strcmp(event->name, "files") == 0`. -/
def Event.isFiles (e : Event) : Bool := e.isDir && e.name == ascii "files"

/-- `IN_IGNORED`: the watch goes with its directory. -/
def ignored : Event := ⟨false, []⟩

/-- Where `run_server` is. -/
inductive ServerPc where
  /-- at `wait_event` -/
  | waiting
  /-- in the loop over the events it has read -/
  | looping (events : List Event)
  /-- asleep for an event of `files`, with the events behind it -/
  | sleeping (events : List Event)
  | exited
deriving DecidableEq, Repr

/-- The directory, the event queue, and the server. An entry is kept as the
event its deletion queues. -/
structure World where
  /-- `watch_path` exists -/
  present : Bool
  entries : List Event
  queue : List Event
  server : ServerPc
deriving DecidableEq, Repr

/-- The steps of the uninstaller and of the server. -/
inductive Label where
  | deleteEntry (e : Event)
  | deleteDirectory
  /-- `wait_event` returns 0 or 1, or `read` fails: the loop goes round -/
  | turn
  /-- a client sends the termination request -/
  | terminate
  /-- `read` returns the first `n` events: as many as fit -/
  | read (n : ℕ)
  /-- the next round of the loop over the events -/
  | next
  /-- `stat(watch_path, ..)` behind `sleep(1)` -/
  | stat
deriving DecidableEq, Repr

/-- One step of either process. -/
inductive Step : World → Label → World → Prop where
  | deleteEntry {w : World} {e : Event} (hpresent : w.present = true) (hmem : e ∈ w.entries) :
      Step w (.deleteEntry e) { w with entries := w.entries.erase e, queue := w.queue ++ [e] }
  | deleteDirectory {w : World} (hpresent : w.present = true) (hempty : w.entries = []) :
      Step w .deleteDirectory { w with present := false, queue := w.queue ++ [ignored] }
  | turn {w : World} (hserver : w.server = .waiting) : Step w .turn w
  | terminate {w : World} (hserver : w.server = .waiting) :
      Step w .terminate { w with server := .exited }
  | read {w : World} {n : ℕ} (hserver : w.server = .waiting) (hpos : 0 < n)
      (hle : n ≤ w.queue.length) :
      Step w (.read n)
        { w with queue := w.queue.drop n, server := .looping (w.queue.take n) }
  | next {w : World} {e : Event} {events : List Event}
      (hserver : w.server = .looping (e :: events)) :
      Step w .next
        { w with server := if e.isFiles then .sleeping events else .looping events }
  | done {w : World} (hserver : w.server = .looping []) :
      Step w .next { w with server := .waiting }
  | stat {w : World} {events : List Event} (hserver : w.server = .sleeping events) :
      Step w .stat { w with server := if w.present then .looping events else .exited }

/-- An installed package: the entries have different names. -/
structure Installed where
  entries : List Event
  nodup : (entries.map Event.name).Nodup

/-- The server waits, and nothing has been deleted. -/
def Installed.world (i : Installed) : World := ⟨true, i.entries, [], .waiting⟩

/-- Every queued event has been handled; the queue goes with the server. -/
def Handled (w : World) : Prop := w.server = .exited ∨ (w.queue = [] ∧ w.server = .waiting)

/-! ## Events of `files` -/

/-- The events of `files` the server has read and not yet looked into. -/
def ServerPc.files : ServerPc → ℕ
  | .looping events => events.countP Event.isFiles
  | .sleeping events => events.countP Event.isFiles + 1
  | _ => 0

/-- The events of `files` that are still to come or not yet looked into. -/
def World.files (w : World) : ℕ :=
  w.entries.countP Event.isFiles + w.queue.countP Event.isFiles + w.server.files

/-- A `stat` that finds the directory. -/
def statSurvives (p : World × Label) : Bool := p.2 == .stat && p.1.present

/-- No step adds an event of `files`, and a `stat` that finds the directory uses
one up. Only the end of the server drops any besides. -/
theorem files_step {w w' : World} {l : Label} (h : Step w l w') :
    w'.files + (if statSurvives (w, l) then 1 else 0) = w.files ∨
      w'.server = .exited ∧ statSurvives (w, l) = false ∧ w'.files ≤ w.files := by
  cases h with
  | @deleteEntry e hpresent hmem =>
      left
      have hcount := (List.perm_cons_erase hmem).countP_eq Event.isFiles
      rw [List.countP_cons] at hcount
      simp only [World.files, List.countP_append, List.countP_singleton]
      simp [statSurvives]
      omega
  | deleteDirectory hpresent hempty =>
      left
      simp [World.files, statSurvives, ignored, Event.isFiles]
  | turn hserver =>
      left
      simp [statSurvives]
  | terminate hserver =>
      right
      simp [World.files, statSurvives, hserver, ServerPc.files]
  | @read n hserver hpos hle =>
      left
      have hsplit := congrArg (List.countP Event.isFiles) (List.take_append_drop n w.queue)
      rw [List.countP_append] at hsplit
      simp only [World.files, hserver, ServerPc.files]
      simp [statSurvives]
      omega
  | @next e events hserver =>
      left
      cases hfiles : e.isFiles with
      | true => simp [World.files, statSurvives, hserver, ServerPc.files, hfiles]
      | false => simp [World.files, statSurvives, hserver, ServerPc.files, hfiles]
  | done hserver =>
      left
      simp [World.files, statSurvives, hserver, ServerPc.files]
  | @stat events hserver =>
      cases hpresent : w.present with
      | true =>
          left
          simp [World.files, statSurvives, hserver, ServerPc.files, hpresent, Nat.add_assoc]
      | false =>
          right
          simp [World.files, statSurvives, hserver, ServerPc.files, hpresent]

/-- Nothing is left in a directory that is gone. -/
def Emptied (w : World) : Prop := w.present = false → w.entries = []

theorem emptied_step {w w' : World} {l : Label} (h : Step w l w') (hinv : Emptied w) :
    Emptied w' := by
  cases h with
  | deleteEntry hpresent hmem =>
      intro hgone
      rw [hpresent] at hgone
      cases hgone
  | deleteDirectory hpresent hempty =>
      intro _
      exact hempty
  | _ => exact hinv

/-- How the server ends. -/
theorem exited_step {w w' : World} {l : Label} (h : Step w l w') (hw : w.server ≠ .exited)
    (hw' : w'.server = .exited) :
    l = .terminate ∨ (l = .stat ∧ w.present = false ∧ 0 < w.files) := by
  cases h with
  | terminate hserver => exact Or.inl rfl
  | @stat events hserver =>
      right
      cases hpresent : w.present with
      | true => simp [hpresent] at hw'
      | false =>
          refine ⟨rfl, rfl, ?_⟩
          simp only [World.files, hserver, ServerPc.files]
          omega
  | read hserver hpos hle => cases hw'
  | @next e events hserver =>
      dsimp only at hw'
      split_ifs at hw'
  | done hserver => cases hw'
  | _ => exact absurd hw' hw

/-- A server that is gone takes no step. -/
theorem exited_stable {w w' : World} {l : Label} (h : Step w l w') (hw : w.server = .exited) :
    w'.server = .exited ∧ l ≠ .stat := by
  cases h with
  | deleteEntry hpresent hmem => exact ⟨hw, by simp⟩
  | deleteDirectory hpresent hempty => exact ⟨hw, by simp⟩
  | turn hserver => exact ⟨hw, by simp⟩
  | terminate hserver => exact ⟨rfl, by simp⟩
  | read hserver hpos hle => simp [hserver] at hw
  | next hserver => simp [hserver] at hw
  | done hserver => simp [hserver] at hw
  | stat hserver => simp [hserver] at hw

/-! ## Runs -/

theorem files_world_le (i : Installed) : i.world.files ≤ 1 := by
  have hname : ∀ e ∈ i.entries, e.isFiles = true → e.name = ascii "files" := by
    intro e _ he
    simp only [Event.isFiles, Bool.and_eq_true, beq_iff_eq] at he
    exact he.2
  have hle : i.entries.countP Event.isFiles ≤ (i.entries.map Event.name).count (ascii "files") := by
    rw [List.count, List.countP_map]
    apply List.countP_mono_left
    intro e he hf
    simp [hname e he hf]
  have hnodup := List.nodup_iff_count_le_one.1 i.nodup (ascii "files")
  simp only [World.files, Installed.world, ServerPc.files, List.countP_nil]
  omega

theorem files_world_pos_iff (i : Installed) :
    0 < i.world.files ↔ ⟨true, ascii "files"⟩ ∈ i.entries := by
  simp only [World.files, Installed.world, ServerPc.files, List.countP_nil, Nat.add_zero,
    List.countP_pos_iff]
  constructor
  · rintro ⟨⟨isDir, name⟩, hmem, hfiles⟩
    simp only [Event.isFiles, Bool.and_eq_true, beq_iff_eq] at hfiles
    rw [hfiles.1, hfiles.2] at hmem
    exact hmem
  · intro hmem
    exact ⟨_, hmem, by simp [Event.isFiles]⟩

/-- If every `stat` finds the directory gone, the event of `files` ends the
server. -/
theorem exited_of_stat_gone {w w' : World} {tr : List (World × Label)} (run : Run Step w tr w')
    (hfiles : 0 < w.files) (hstat : ∀ p ∈ tr, p.2 = .stat → p.1.present = false)
    (hemptied : Emptied w) (hgone : w'.present = false) (hhandled : Handled w') :
    w'.server = .exited := by
  have hinv := run.invariant (fun w l => l = .stat → w.present = false)
    (fun w => (0 < w.files ∨ w.server = .exited) ∧ Emptied w) (by
      intro u l v hstep hguard hu
      refine ⟨?_, emptied_step hstep hu.2⟩
      rcases hu.1 with hpos | hexit
      · rcases files_step hstep with hcount | hexit
        · left
          have hspent : statSurvives (u, l) = false := by
            by_cases hl : l = .stat
            · simp [statSurvives, hguard hl]
            · simp [statSurvives, hl]
          simp [hspent] at hcount
          omega
        · exact Or.inr hexit.1
      · exact Or.inr (exited_stable hstep hexit).1)
    hstat ⟨Or.inl hfiles, hemptied⟩
  rcases hinv.1 with ⟨hpos | hexit, hempty⟩
  · rcases hhandled with hexit | ⟨hqueue, hwait⟩
    · exact hexit
    · -- nothing is left that could be an event of `files`
      simp [World.files, hempty hgone, hqueue, hwait, ServerPc.files] at hpos
  · exact hexit

/-- A `stat` that ends the server is the only one of the run. -/
theorem stat_gone_of_exited {w w' : World} {tr : List (World × Label)} (run : Run Step w tr w')
    (hone : w.files ≤ 1) (hstart : w.server ≠ .exited) (hexit : w'.server = .exited) :
    (∃ p ∈ tr, p.2 = .terminate) ∨
      (0 < w.files ∧ ∀ p ∈ tr, p.2 = .stat → p.1.present = false) := by
  rcases run.exists_change (·.server = .exited) hstart hexit with
    ⟨before, p, after, u, rfl, hbefore, hp, hstep, hu, hafter⟩
  rcases exited_step hstep hp hu with hterm | ⟨hl, hgone, hpos⟩
  · exact Or.inl ⟨p, by simp, hterm⟩
  · right
    have hpaid := hbefore.count_le World.files statSurvives (by
      intro a l b hab
      rcases files_step hab with h | ⟨-, hspent, h⟩
      · exact Nat.le_of_eq h
      · simpa [hspent] using h)
    have hnone : before.countP statSurvives = 0 := by omega
    refine ⟨by omega, ?_⟩
    intro q hq hqstat
    rcases List.mem_append.1 hq with hq | hq
    · -- in front of it every `stat` would have used up an event of `files`
      have hspent := List.countP_eq_zero.1 hnone q hq
      simpa [statSurvives, hqstat] using hspent
    · rcases List.mem_cons.1 hq with rfl | hq
      · exact hgone
      · -- behind it the server takes no step
        rcases List.append_of_mem hq with ⟨after₁, after₂, rfl⟩
        rcases hafter.split with ⟨hafter₁, v, hv, -⟩
        have hdown := hafter₁.stable (·.server = .exited)
          (fun _ _ _ hst h => (exited_stable hst h).1) hu
        exact absurd hqstat (exited_stable hv hdown).2

/-- A termination request ends the server. -/
theorem exited_of_terminate {w w' : World} {tr : List (World × Label)} (run : Run Step w tr w')
    {p : World × Label} (hp : p ∈ tr) (hterm : p.2 = .terminate) : w'.server = .exited := by
  rcases List.append_of_mem hp with ⟨before, after, rfl⟩
  rcases run.split with ⟨-, v, hv, hafter⟩
  rw [hterm] at hv
  cases hv
  exact hafter.stable (·.server = .exited) (fun _ _ _ hst h => (exited_stable hst h).1) rfl

/-- When the directory is gone and every event has been handled, the server is
gone too exactly if it was sent a termination request, or the directory had a
sub-directory `files` and each `stat` came after the whole deletion. Otherwise
it still waits for clients. -/
theorem exited_iff (i : Installed) {w : World} {tr : List (World × Label)}
    (run : Run Step i.world tr w) (hgone : w.present = false) (hhandled : Handled w) :
    w.server ≠ .waiting ↔
      (∃ p ∈ tr, p.2 = .terminate) ∨
        (⟨true, ascii "files"⟩ ∈ i.entries ∧
          ∀ p ∈ tr, p.2 = .stat → p.1.present = false) := by
  constructor
  · intro hwait
    have hexit : w.server = .exited := hhandled.resolve_right fun h => hwait h.2
    rw [← files_world_pos_iff]
    exact stat_gone_of_exited run (files_world_le i) (by simp [Installed.world]) hexit
  · intro h
    have hexit : w.server = .exited := by
      rcases h with ⟨p, hp, hterm⟩ | ⟨hfiles, hstat⟩
      · exact exited_of_terminate run hp hterm
      · exact exited_of_stat_gone run ((files_world_pos_iff i).2 hfiles) hstat
          (fun h => by simp [Installed.world] at h) hgone hhandled
    rw [hexit]
    decide

/-- `files` and `lib`. -/
def twoDirectories : Installed where
  entries := [⟨true, ascii "files"⟩, ⟨true, ascii "lib"⟩]
  nodup := by decide

/-- The deletion is over before the server looks: the server exits. -/
theorem quickUninstall_exits :
    ∃ tr w, Run Step twoDirectories.world tr w ∧ w.present = false ∧ Handled w ∧
      w.server ≠ .waiting := by
  have run : Run Step twoDirectories.world _ _ :=
    .cons (.deleteEntry (e := ⟨true, ascii "files"⟩) rfl (by decide)) <|
    .cons (.read (n := 1) rfl (by decide) (by decide)) <|
    .cons (.next (e := ⟨true, ascii "files"⟩) rfl) <|
    .cons (.deleteEntry (e := ⟨true, ascii "lib"⟩) rfl (by decide)) <|
    .cons (.deleteDirectory rfl (by decide)) <|
    .cons (.stat rfl) <|
    .nil _
  have hstat := (exited_iff twoDirectories run rfl (Or.inl rfl)).2 (Or.inr ⟨by decide, by decide⟩)
  exact ⟨_, _, run, rfl, Or.inl rfl, hstat⟩

/-- The server looks while `lib` is still being deleted, and waits for clients of
a package that is gone. -/
theorem slowUninstall_survives :
    ∃ tr w, Run Step twoDirectories.world tr w ∧ w.present = false ∧ Handled w ∧
      w.server = .waiting := by
  refine ⟨_, _,
    .cons (.deleteEntry (e := ⟨true, ascii "files"⟩) rfl (by decide)) <|
    .cons (.read (n := 1) rfl (by decide) (by decide)) <|
    .cons (.next (e := ⟨true, ascii "files"⟩) rfl) <|
    .cons (.stat rfl) <|
    .cons (.done rfl) <|
    .cons (.deleteEntry (e := ⟨true, ascii "lib"⟩) rfl (by decide)) <|
    .cons (.deleteDirectory rfl (by decide)) <|
    .cons (.read (n := 2) rfl (by decide) (by decide)) <|
    .cons (.next (e := ⟨true, ascii "lib"⟩) rfl) <|
    .cons (.next (e := ignored) rfl) <|
    .cons (.done rfl) <|
    .nil _, rfl, Or.inr ⟨by decide, by decide⟩, rfl⟩

end Su.Uninstall
