import TestActivity.Lib.LinkedList
import TestActivity.Lib.Transition
import TestActivity.Su.Accept

/-!
# `user_list` in memory

`add_user`, `delete_user` and `find_user` of `su.c` on the cells of the list,
with the pointers they walk with. A run is any sequence of calls from the empty
list, where `add_user` is called for a uid that `find_user` does not find.

A walk takes an amount of fuel and is `none` if that runs out or a pointer
without a cell is followed; a call returns if it does with enough fuel
(`Ends`). `Represents` connects the cells with the list of uids that the other
modules use, and with it every call returns.
-/

namespace Su

open LinkedList Transition

/-! ## The functions -/

/-- A pointer to a `struct myuser`. -/
abbrev Ptr := ℕ

/-- The allocated cells and the variable `user_list`. -/
structure UserHeap where
  heap : Heap Ptr Uid
  user_list : Option Ptr

/-- The loop of `add_user`: where `parent` ends. -/
def lastUser (heap : Heap Ptr Uid) : ℕ → Option Ptr → Option Ptr → Option (Option Ptr)
  | 0, _, _ => none
  | _ + 1, parent, none => some parent
  | fuel + 1, _, some current =>
      match heap current with
      | none => none
      | some cell => lastUser heap fuel (some current) cell.2

/-- `add_user`, with what `malloc` returns. -/
def add_user (fuel : ℕ) (s : UserHeap) (uid : Uid) (malloc : Option Ptr) : Option UserHeap :=
  match lastUser s.heap fuel s.user_list s.user_list with
  | none => none
  | some parent =>
      match malloc with
      | none => some s
      | some new =>
          let heap := Function.update s.heap new (some (uid, none))
          match parent with
          | none => some { heap := heap, user_list := some new }
          | some parent =>
              match heap parent with
              | none => none
              | some cell =>
                  some { s with heap := Function.update heap parent (some (cell.1, some new)) }

/-- The loop of `delete_user`. -/
def unlinkUser (s : UserHeap) (uid : Uid) : ℕ → Option Ptr → Option Ptr → Option UserHeap
  | 0, _, _ => none
  | _ + 1, _, none => some s
  | fuel + 1, parent, some current =>
      match s.heap current with
      | none => none
      | some cell =>
          if cell.1 = uid then
            match parent with
            | none => none
            | some parent =>
                match s.heap parent with
                | none => none
                | some before =>
                    let heap := Function.update s.heap parent (some (before.1, cell.2))
                    some { s with heap := Function.update heap current none }
          else unlinkUser s uid fuel (some current) cell.2

/-- `delete_user`. -/
def delete_user (fuel : ℕ) (s : UserHeap) (uid : Uid) : Option UserHeap :=
  match s.user_list with
  | none => unlinkUser s uid fuel none none
  | some head =>
      match s.heap head with
      | none => none
      | some cell =>
          if cell.1 = uid then
            some { heap := Function.update s.heap head none, user_list := cell.2 }
          else unlinkUser s uid fuel (some head) (some head)

/-- The loop of `find_user`. -/
def indexOfUser (heap : Heap Ptr Uid) (uid : Uid) : ℕ → Option Ptr → ℤ → Option ℤ
  | 0, _, _ => none
  | _ + 1, none, _ => some (-1)
  | fuel + 1, some current, index =>
      match heap current with
      | none => none
      | some cell =>
          if cell.1 = uid then some index else indexOfUser heap uid fuel cell.2 (index + 1)

/-- `find_user`. -/
def find_user (fuel : ℕ) (s : UserHeap) (uid : Uid) : Option ℤ :=
  indexOfUser s.heap uid fuel s.user_list 0

/-- With enough fuel the call returns `r`. -/
def Ends {α : Type} (call : ℕ → Option α) (r : α) : Prop :=
  ∃ enough, ∀ fuel, enough < fuel → call fuel = some r

theorem Ends.unique {α : Type} {call : ℕ → Option α} {r r' : α} (h : Ends call r)
    (h' : Ends call r') : r = r' := by
  rcases h with ⟨n, hn⟩
  rcases h' with ⟨n', hn'⟩
  have hr := hn (n + n' + 1) (by omega)
  rw [hn' (n + n' + 1) (by omega)] at hr
  exact (Option.some.inj hr).symm

/-! ## Cells and uids -/

/-- The cells of the list, each once, with the uids `us`. -/
def Represents (s : UserHeap) (us : List Uid) : Prop :=
  ∃ cs, Seg s.heap s.user_list cs none ∧ (cs.map Prod.fst).Nodup ∧ cs.map Prod.snd = us

theorem represents_nil (heap : Heap Ptr Uid) : Represents ⟨heap, none⟩ [] :=
  ⟨[], rfl, List.nodup_nil, rfl⟩

variable {s s' : UserHeap} {us : List Uid} {uid : Uid} {fuel : ℕ}
  {p q parent : Option Ptr} {cs ds : List (Ptr × Uid)}

/-- `find_user` sees the list of uids. -/
theorem indexOfUser_seg {heap : Heap Ptr Uid} {index : ℤ} (hseg : Seg heap p cs none)
    (hfuel : cs.length < fuel) :
    indexOfUser heap uid fuel p index = some (findUserFrom uid (cs.map Prod.snd) index) := by
  induction cs generalizing p fuel index with
  | nil =>
      rcases Nat.exists_eq_add_one_of_ne_zero (by omega : fuel ≠ 0) with ⟨n, rfl⟩
      rw [seg_nil.mp hseg]
      rfl
  | cons c cs ih =>
      rcases hseg with ⟨rfl, next, hcell, hrest⟩
      rw [List.length_cons] at hfuel
      rcases Nat.exists_eq_add_one_of_ne_zero (by omega : fuel ≠ 0) with ⟨n, rfl⟩
      simp only [indexOfUser, hcell, List.map_cons, findUserFrom]
      by_cases huid : c.2 = uid
      · rw [if_pos huid, if_pos huid]
      · rw [if_neg huid, if_neg huid, ih hrest (by omega)]

theorem find_user_ends (h : Represents s us) :
    Ends (fun fuel => find_user fuel s uid) (findUser us uid) := by
  rcases h with ⟨cs, hseg, _, rfl⟩
  exact ⟨cs.length, fun fuel hfuel => indexOfUser_seg hseg hfuel⟩

/-- The walk of `add_user` ends at the last cell. -/
theorem lastUser_seg {heap : Heap Ptr Uid} {c : Ptr × Uid} (hseg : Seg heap p (cs ++ [c]) none)
    (hfuel : cs.length + 1 < fuel) : lastUser heap fuel parent p = some (some c.1) := by
  induction cs generalizing p fuel parent with
  | nil =>
      rcases hseg with ⟨rfl, next, hcell, hrest⟩
      rw [List.length_nil] at hfuel
      obtain ⟨n, rfl⟩ : ∃ n, fuel = n + 2 := ⟨fuel - 2, by omega⟩
      rw [seg_nil.mp hrest] at hcell
      simp [lastUser, hcell]
  | cons d cs ih =>
      rcases hseg with ⟨rfl, next, hcell, hrest⟩
      rw [List.length_cons] at hfuel
      rcases Nat.exists_eq_add_one_of_ne_zero (by omega : fuel ≠ 0) with ⟨n, rfl⟩
      simp only [lastUser, hcell]
      exact ih hrest (by omega)

/-- `add_user` puts a new cell at the end, if `malloc` gives one. -/
theorem add_user_ends (h : Represents s us) (uid : Uid) (malloc : Option Ptr)
    (hfresh : ∀ new, malloc = some new → s.heap new = none) :
    ∃ s', Ends (fun fuel => add_user fuel s uid malloc) s' ∧
      Represents s' (addUser us uid malloc.isSome) := by
  rcases h with ⟨cs, hseg, hnodup, rfl⟩
  rcases List.eq_nil_or_concat cs with rfl | ⟨ds, d, rfl⟩
  · -- the list is empty: `parent` is still NULL
    have hnull : s.user_list = none := seg_nil.mp hseg
    have hlast : ∀ fuel, 0 < fuel → lastUser s.heap fuel s.user_list s.user_list = some none := by
      intro fuel hfuel
      obtain ⟨n, rfl⟩ : ∃ n, fuel = n + 1 := ⟨fuel - 1, by omega⟩
      rw [hnull]
      rfl
    cases malloc with
    | none =>
        refine ⟨s, ⟨0, ?_⟩, [], hseg, hnodup, rfl⟩
        intro fuel hfuel
        simp [add_user, hlast fuel hfuel]
    | some new =>
        refine ⟨⟨Function.update s.heap new (some (uid, none)), some new⟩, ⟨0, ?_⟩,
          [(new, uid)], ⟨rfl, none, ?_, rfl⟩, by simp, rfl⟩
        · intro fuel hfuel
          simp [add_user, hlast fuel hfuel]
        · exact Function.update_self ..
  · rw [List.concat_eq_append] at hseg hnodup ⊢
    have hlast : ∀ fuel, ds.length + 1 < fuel →
        lastUser s.heap fuel s.user_list s.user_list = some (some d.1) := by
      intro fuel hfuel
      exact lastUser_seg hseg hfuel
    cases malloc with
    | none =>
        refine ⟨s, ⟨ds.length + 1, ?_⟩, ds ++ [d], hseg, hnodup, rfl⟩
        intro fuel hfuel
        simp [add_user, hlast fuel hfuel]
    | some new =>
        rcases hseg.allocated (List.mem_append_right _ (List.mem_singleton_self d)) with
          ⟨next, hcell⟩
        have hne : d.1 ≠ new := by
          intro heq
          rw [heq, hfresh new rfl] at hcell
          simp at hcell
        have hcell' : Function.update s.heap new (some (uid, none)) d.1 = some (d.2, next) := by
          rw [Function.update_of_ne hne, hcell]
        rcases hseg.append_new uid hnodup (hfresh new rfl) with ⟨hseg', hnodup'⟩
        refine ⟨⟨Function.update (Function.update s.heap new (some (uid, none))) d.1
          (some (d.2, some new)), s.user_list⟩, ⟨ds.length + 1, ?_⟩, _, hseg', hnodup', ?_⟩
        · intro fuel hfuel
          simp only [add_user, hlast fuel hfuel, hcell']
        · simp [addUser]

/-- The loop of `delete_user` behind the cells it has passed: it takes out the
first cell of the uid and joins the two sides. -/
theorem unlinkUser_seg {b : Ptr × Uid} (hpre : Seg s.heap s.user_list (ds ++ [b]) p)
    (hseg : Seg s.heap p cs none) (hnodup : ((ds ++ [b] ++ cs).map Prod.fst).Nodup)
    (hnot : uid ∉ (ds ++ [b]).map Prod.snd) :
    ∃ s', (∀ fuel, cs.length < fuel → unlinkUser s uid fuel (some b.1) p = some s') ∧
      Represents s' (((ds ++ [b] ++ cs).map Prod.snd).erase uid) := by
  induction cs generalizing ds b p with
  | nil =>
      rw [seg_nil.mp hseg] at hpre ⊢
      rw [List.append_nil] at hnodup ⊢
      refine ⟨s, ?_, ds ++ [b], hpre, hnodup, ?_⟩
      · intro fuel hfuel
        obtain ⟨n, rfl⟩ : ∃ n, fuel = n + 1 := ⟨fuel - 1, by omega⟩
        rfl
      · rw [List.erase_of_not_mem hnot]
  | cons c cs ih =>
      rcases hseg with ⟨rfl, next, hcell, hrest⟩
      by_cases huid : c.2 = uid
      · rcases hpre.allocated (List.mem_append_right _ (List.mem_singleton_self b)) with
          ⟨before, hb⟩
        rcases hpre.remove hrest hnodup with ⟨hseg', hnodup'⟩
        refine ⟨⟨Function.update (Function.update s.heap b.1 (some (b.2, next))) c.1 none,
          s.user_list⟩, ?_, _, hseg', hnodup', ?_⟩
        · intro fuel hfuel
          obtain ⟨n, rfl⟩ : ∃ n, fuel = n + 1 := ⟨fuel - 1, by omega⟩
          simp only [unlinkUser, hcell, if_pos huid, hb]
        · have huids : (ds ++ [b] ++ c :: cs).map Prod.snd
              = (ds ++ [b]).map Prod.snd ++ uid :: cs.map Prod.snd := by
            rw [List.map_append, List.map_cons, huid]
          rw [huids, List.erase_append_right _ hnot, List.erase_cons_head, List.map_append]
      · have hmove : ds ++ [b] ++ c :: cs = (ds ++ [b]) ++ [c] ++ cs := by simp
        have hnot' : uid ∉ ((ds ++ [b]) ++ [c]).map Prod.snd := by
          rw [List.map_append, List.mem_append, not_or, List.map_singleton, List.mem_singleton]
          exact ⟨hnot, Ne.symm huid⟩
        rw [hmove] at hnodup ⊢
        rcases ih (Seg.append_iff.mpr ⟨_, hpre, rfl, next, hcell, rfl⟩) hrest hnodup hnot' with
          ⟨s', hs', hrep⟩
        refine ⟨s', ?_, hrep⟩
        intro fuel hfuel
        obtain ⟨n, rfl⟩ : ∃ n, fuel = n + 1 := ⟨fuel - 1, by omega⟩
        simp only [unlinkUser, hcell, if_neg huid]
        exact hs' n (by rw [List.length_cons] at hfuel; omega)

/-- `delete_user` takes the first cell of the uid out. -/
theorem delete_user_ends (h : Represents s us) (uid : Uid) :
    ∃ s', Ends (fun fuel => delete_user fuel s uid) s' ∧ Represents s' (us.erase uid) := by
  rcases h with ⟨cs, hseg, hnodup, rfl⟩
  cases cs with
  | nil =>
      have hnull : s.user_list = none := seg_nil.mp hseg
      refine ⟨s, ⟨0, ?_⟩, [], hseg, hnodup, rfl⟩
      intro fuel hfuel
      obtain ⟨n, rfl⟩ : ∃ n, fuel = n + 1 := ⟨fuel - 1, by omega⟩
      simp [delete_user, hnull, unlinkUser]
  | cons c cs =>
      rcases hseg with ⟨hhead, next, hcell, hrest⟩
      rw [List.map_cons, List.nodup_cons] at hnodup
      by_cases huid : c.2 = uid
      · -- the head is the cell
        refine ⟨⟨Function.update s.heap c.1 none, next⟩, ⟨0, ?_⟩, cs, ?_, ?_, ?_⟩
        · intro fuel _
          simp only [delete_user, hhead, hcell, if_pos huid]
        · exact hrest.set hnodup.1
        · exact hnodup.2
        · rw [List.map_cons, huid, List.erase_cons_head]
      · -- the loop passes the head first
        have hpre : Seg s.heap s.user_list ([] ++ [c]) next :=
          Seg.append_iff.mpr ⟨_, rfl, hhead, next, hcell, rfl⟩
        rcases unlinkUser_seg hpre hrest (by simpa using hnodup)
          (by simpa using Ne.symm huid) with ⟨s', hs', hrep⟩
        refine ⟨s', ⟨cs.length + 1, ?_⟩, hrep⟩
        intro fuel hfuel
        obtain ⟨n, rfl⟩ : ∃ n, fuel = n + 1 := ⟨fuel - 1, by omega⟩
        simp only [delete_user, hhead, hcell, if_neg huid, unlinkUser]
        exact hs' n (by omega)

/-! ## Histories -/

/-- A call of `add_user` with what `malloc` returns, or of `delete_user`. -/
inductive ListOp where
  | add (uid : Uid) (malloc : Option Ptr)
  | delete (uid : Uid)
deriving DecidableEq, Repr

/-- A call and what it does. `add_user` is called for a uid that is not found,
and `malloc` returns memory that is free. -/
inductive ListStep : UserHeap → ListOp → UserHeap → Prop where
  | add {s s' : UserHeap} {uid : Uid} {malloc : Option Ptr} {index : ℤ}
      (hfind : Ends (fun fuel => find_user fuel s uid) index) (hneg : index < 0)
      (hfresh : ∀ new, malloc = some new → s.heap new = none)
      (hadd : Ends (fun fuel => add_user fuel s uid malloc) s') : ListStep s (.add uid malloc) s'
  | delete {s s' : UserHeap} {uid : Uid}
      (hdelete : Ends (fun fuel => delete_user fuel s uid) s') : ListStep s (.delete uid) s'

/-- The uids of the calls of `add_user` that obtained memory and were not
followed by a `delete_user`, in the order of these calls. -/
def remaining : List ListOp → List Uid
  | [] => []
  | .add uid malloc :: ops =>
      if malloc.isSome ∧ .delete uid ∉ ops then uid :: remaining ops else remaining ops
  | .delete _ :: ops => remaining ops

/-- The latest `add_user` of the uid that obtained memory is more recent than
the latest `delete_user`. -/
def Trusted (uid : Uid) (ops : List ListOp) : Prop :=
  ∃ before after new, ops = before ++ .add uid (some new) :: after ∧ .delete uid ∉ after

theorem trusted_cons {u : Uid} {op : ListOp} {ops : List ListOp} :
    Trusted u (op :: ops) ↔
      (∃ new, op = .add u (some new) ∧ .delete u ∉ ops) ∨ Trusted u ops := by
  constructor
  · rintro ⟨before, after, new, heq, hafter⟩
    cases before with
    | nil =>
        rw [List.nil_append, List.cons.injEq] at heq
        rw [heq.1, heq.2]
        exact .inl ⟨new, rfl, hafter⟩
    | cons op' before =>
        rw [List.cons_append, List.cons.injEq] at heq
        exact .inr ⟨before, after, new, heq.2, hafter⟩
  · rintro (⟨new, rfl, hafter⟩ | ⟨before, after, new, rfl, hafter⟩)
    · exact ⟨[], ops, new, rfl, hafter⟩
    · exact ⟨op :: before, after, new, rfl, hafter⟩

theorem mem_remaining {u : Uid} {ops : List ListOp} : u ∈ remaining ops ↔ Trusted u ops := by
  induction ops with
  | nil =>
      constructor
      · intro h
        simp [remaining] at h
      · rintro ⟨before, after, new, heq, _⟩
        simp at heq
  | cons op ops ih =>
      rw [trusted_cons, ← ih]
      cases op with
      | add v malloc =>
          simp only [remaining, ListOp.add.injEq]
          by_cases hkeep : malloc.isSome ∧ .delete v ∉ ops
          · rw [if_pos hkeep, List.mem_cons]
            rcases Option.isSome_iff_exists.mp hkeep.1 with ⟨new, rfl⟩
            constructor
            · rintro (rfl | hmem)
              · exact .inl ⟨new, ⟨rfl, rfl⟩, hkeep.2⟩
              · exact .inr hmem
            · rintro (⟨_, ⟨rfl, _⟩, _⟩ | hmem)
              · exact .inl rfl
              · exact .inr hmem
          · rw [if_neg hkeep]
            constructor
            · exact .inr
            · rintro (⟨new, ⟨rfl, rfl⟩, hafter⟩ | hmem)
              · exact absurd ⟨rfl, hafter⟩ hkeep
              · exact hmem
      | delete v => simp [remaining]

theorem remaining_add (ops : List ListOp) (u : Uid) (malloc : Option Ptr) :
    remaining (ops ++ [.add u malloc]) = addUser (remaining ops) u malloc.isSome := by
  induction ops with
  | nil => cases malloc <;> simp [remaining, addUser]
  | cons op ops ih =>
      cases op with
      | add v m =>
          simp only [List.cons_append, remaining, ih, List.mem_append, List.mem_singleton,
            reduceCtorEq, or_false]
          by_cases hkeep : m.isSome ∧ .delete v ∉ ops
          · rw [if_pos hkeep, if_pos hkeep]
            cases malloc <;> simp [addUser]
          · rw [if_neg hkeep, if_neg hkeep]
      | delete v => exact ih

theorem remaining_delete (ops : List ListOp) (u : Uid) :
    remaining (ops ++ [.delete u]) = (remaining ops).filter (· != u) := by
  induction ops with
  | nil => rfl
  | cons op ops ih =>
      cases op with
      | add v m =>
          simp only [List.cons_append, remaining, ih, List.mem_append, List.mem_singleton,
            ListOp.delete.injEq, not_or]
          by_cases hkeep : m.isSome ∧ .delete v ∉ ops
          · by_cases hv : v = u
            · rw [if_neg (fun h => h.2.2 hv), if_pos hkeep, List.filter_cons_of_neg (by simp [hv])]
            · rw [if_pos ⟨hkeep.1, hkeep.2, hv⟩, if_pos hkeep,
                List.filter_cons_of_pos (by simp [hv])]
          · rw [if_neg (fun h => hkeep ⟨h.1, h.2.1⟩), if_neg hkeep]
      | delete v => exact ih

/-- The position `find_user` returns. -/
theorem findUserFrom_eq {us : List Uid} {u : Uid} {index : ℤ} (h : u ∈ us) :
    findUserFrom u us index = index + us.idxOf u := by
  induction us generalizing index with
  | nil => simp at h
  | cons v us ih =>
      unfold findUserFrom
      by_cases hv : v = u
      · rw [if_pos hv, hv, List.idxOf_cons_self]
        simp
      · have hmem := (List.mem_cons.mp h).resolve_left (Ne.symm hv)
        rw [if_neg hv, ih hmem, List.idxOf_cons_ne _ hv]
        omega

/-- One call: the uids stay those of the history, each once. -/
theorem ListStep.represents {op : ListOp} {ops : List ListOp} (h : ListStep s op s')
    (hrep : Represents s (remaining ops)) (hnodup : (remaining ops).Nodup) :
    Represents s' (remaining (ops ++ [op])) ∧ (remaining (ops ++ [op])).Nodup := by
  cases h with
  | @add _ u malloc index hfind hneg hfresh hadd =>
      rcases add_user_ends hrep u malloc hfresh with ⟨t, ht, hrept⟩
      have hindex := hfind.unique (find_user_ends hrep)
      have hnot : u ∉ remaining ops := by
        rw [← findUser_nonneg_iff, ← hindex]
        omega
      rw [hadd.unique ht, remaining_add]
      refine ⟨hrept, ?_⟩
      cases malloc with
      | none => exact hnodup
      | some new =>
          have hconcat := hnodup.concat hnot
          rw [List.concat_eq_append] at hconcat
          exact hconcat
  | @delete _ u hdelete =>
      rcases delete_user_ends hrep u with ⟨t, ht, hrept⟩
      rw [hdelete.unique ht, remaining_delete, ← List.Nodup.erase_eq_filter hnodup]
      exact ⟨hrept, hnodup.erase u⟩

/-- Any number of calls. -/
theorem run_represents {tr : List (UserHeap × ListOp)} (h : Run ListStep s tr s')
    (ops : List ListOp) (hrep : Represents s (remaining ops)) (hnodup : (remaining ops).Nodup) :
    Represents s' (remaining (ops ++ tr.map Prod.snd)) ∧
      (remaining (ops ++ tr.map Prod.snd)).Nodup := by
  induction h generalizing ops with
  | nil => simpa using ⟨hrep, hnodup⟩
  | cons hstep _ ih =>
      rcases hstep.represents hrep hnodup with ⟨hrep', hnodup'⟩
      have hrest := ih _ hrep' hnodup'
      rw [List.append_assoc] at hrest
      exact hrest

/-- The list after any history that starts with an empty list. -/
structure ListSpec (s : UserHeap) (ops : List ListOp) (us : List Uid) : Prop where
  /-- its cells hold the uids that remain, in the order they were added, each once -/
  represents : Represents s us
  eq_remaining : us = remaining ops
  nodup : us.Nodup
  /-- `find_user` finds the uids that were added and not deleted since, at their places -/
  find : ∀ u, ∃ i, Ends (fun fuel => find_user fuel s u) i ∧
    (0 ≤ i ↔ Trusted u ops) ∧ (0 ≤ i → i = us.idxOf u ∧ us[i.toNat]? = some u)
  /-- `delete_user` takes out this uid and leaves the others in their order -/
  delete : ∀ u, ∃ s', Ends (fun fuel => delete_user fuel s u) s' ∧
    Represents s' (us.filter (· != u))
  /-- `add_user` puts it at the end, or changes nothing without memory -/
  add : ∀ u malloc, (∀ new, malloc = some new → s.heap new = none) →
    ∃ s', Ends (fun fuel => add_user fuel s u malloc) s' ∧
      Represents s' (if malloc.isSome then us ++ [u] else us)

/-- After every sequence of calls from the empty list, whichever allocations
fail. -/
theorem user_list_history {heap : Heap Ptr Uid} {tr : List (UserHeap × ListOp)}
    (h : Run ListStep ⟨heap, none⟩ tr s) :
    ListSpec s (tr.map Prod.snd) (remaining (tr.map Prod.snd)) := by
  rcases run_represents h [] (represents_nil heap) List.nodup_nil with ⟨hrep, hnodup⟩
  rw [List.nil_append] at hrep hnodup
  constructor
  case represents => exact hrep
  case eq_remaining => rfl
  case nodup => exact hnodup
  case find =>
    intro u
    refine ⟨_, find_user_ends hrep, ?_, ?_⟩
    · rw [findUser_nonneg_iff, mem_remaining]
    · intro hpos
      have hmem := findUser_nonneg_iff.mp hpos
      have hidx : findUser (remaining (tr.map Prod.snd)) u
          = (remaining (tr.map Prod.snd)).idxOf u := by
        unfold findUser
        rw [findUserFrom_eq hmem, Int.zero_add]
      rw [hidx]
      refine ⟨rfl, ?_⟩
      rw [Int.toNat_natCast, List.getElem?_idxOf hmem]
  case delete =>
    intro u
    rcases delete_user_ends hrep u with ⟨t, ht, hrept⟩
    rw [hnodup.erase_eq_filter] at hrept
    exact ⟨t, ht, hrept⟩
  case add =>
    intro u malloc hfresh
    exact add_user_ends hrep u malloc hfresh

/-- The list with one cell, and with a second one. -/
def UserHeap.one : UserHeap := ⟨Function.update (fun _ => none) 1 (some (7, none)), some 1⟩
def UserHeap.two : UserHeap :=
  ⟨Function.update (Function.update UserHeap.one.heap 2 (some (8, none))) 1 (some (7, some 2)),
    some 1⟩

/-- Two uids are added and the first is deleted again. -/
theorem user_list_history_two :
    Run ListStep ⟨fun _ => none, none⟩
      [(⟨fun _ => none, none⟩, .add 7 (some 1)), (.one, .add 8 (some 2)), (.two, .delete 7)]
      ⟨Function.update UserHeap.two.heap 1 none, some 2⟩ ∧
    ListSpec ⟨Function.update UserHeap.two.heap 1 none, some 2⟩
      [.add 7 (some 1), .add 8 (some 2), .delete 7] [8] := by
  have hends : ∀ {α : Type} {call : ℕ → Option α} {r : α}, (∀ n, call (n + 3) = some r) →
      Ends call r := by
    intro α call r h
    refine ⟨2, ?_⟩
    intro fuel hfuel
    obtain ⟨n, rfl⟩ : ∃ n, fuel = n + 3 := ⟨fuel - 3, by omega⟩
    exact h n
  have hrun : Run ListStep ⟨fun _ => none, none⟩
      [(⟨fun _ => none, none⟩, .add 7 (some 1)), (.one, .add 8 (some 2)), (.two, .delete 7)]
      ⟨Function.update UserHeap.two.heap 1 none, some 2⟩ := by
    refine .cons (.add (hends (r := -1) fun _ => rfl) (by decide) ?_ (hends fun _ => rfl))
      (.cons (.add (hends (r := -1) fun _ => rfl) (by decide) ?_ (hends fun _ => rfl))
        (.cons (.delete (hends fun _ => rfl)) (.nil _)))
    · intro new _
      rfl
    · intro new hnew
      rw [← Option.some.inj hnew]
      rfl
  exact ⟨hrun, user_list_history hrun⟩

end Su
