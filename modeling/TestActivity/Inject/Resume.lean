import Mathlib.Tactic.IntervalCases
import TestActivity.Inject.Process

/-!
# The target runs the payload

When every step of `inject_remote_process` succeeds the target is detached at
the start of the payload. What it does from there on is execution of the bytes
in its memory, as `Arm.Step` describes it: the stub calls `dlopen`, `dlsym`, the
hook and `dlclose`, which return as the procedure call standard asks, and then
loads the saved registers.
-/

namespace Inject

open Memory

/-! ## A target that was injected -/

/-- Registers of a stopped process: `pc` is the address of an instruction of
the state it is in. -/
structure Stopped where
  regs : PtRegs
  arm : thumb (regs ARM_cpsr) = false → (regs ARM_pc).toNat % 4 = 0
  halfword : thumb (regs ARM_cpsr) = true → (regs ARM_pc).toNat % 2 = 0

/-- An injection in which every step succeeds: the target as it was attached
and as the call of `mmap` left it, with the region `mmap` returned. -/
structure Session where
  locals : Locals
  maps : Fin 4 → Maps
  before : Target
  firstStop : Target
  attached : Stopped
  attachedMem : Mem
  mmapRegs : PtRegs
  mmapMem : Mem
  region : Mapping

variable (s : Session) (args : Args)

/-- Every request is granted. -/
def Session.env : Env where
  locals := s.locals
  maps := s.maps
  before := s.before
  attach := true
  firstStop := s.firstStop
  syscall := true
  secondStop := ⟨s.attached.regs, s.attachedMem, none, .stopped⟩
  getregs := true
  call := .granted
    ⟨Function.update s.mmapRegs ARM_r0 s.region.base, s.mmapMem, some s.region, .stopped⟩
  getregs' := true
  write := allOk
  setregs := true
  detach := true

/-- A process as the processor sees it. -/
def armState (t : Target) : Arm.State where
  reg := fun r => t.regs (core r)
  cpsr := t.regs ARM_cpsr
  mem := t.mem

/-- The state in which the target goes on. -/
def Session.start : Arm.State := armState (inject_remote_process s.env args).2

/-- The payload in front of the parameter of the hook. -/
def Session.keep (x : Word) : Prop := (x - s.region.code).toNat < inject_param

/-- The target starts the payload in ARM state; the payload can always finish;
and when it does, the target has the registers, the flags and the instruction
set back that it was attached with. -/
structure Session.Resumes : Prop where
  detached : (inject_remote_process s.env args).2.status = .detached
  pc : (s.start args).reg Arm.pc = s.region.code
  arm : (s.start args).thumb = false
  finishes : ∀ u, Relation.ReflTransGen (Arm.Step s.keep) (s.start args) u →
    ∃ v, Arm.Leaves s.keep u v
  regs : ∀ v, Arm.Leaves s.keep (s.start args) v →
    ∀ r : Fin 16, v.reg r = s.attached.regs (core r)
  flags : ∀ v, Arm.Leaves s.keep (s.start args) v →
    v.flags = (s.attached.regs ARM_cpsr).extractLsb' 27 5
  thumb : ∀ v, Arm.Leaves s.keep (s.start args) v →
    v.thumb = thumb (s.attached.regs ARM_cpsr)

variable {s : Session} {args : Args}

/-! ## The state at the start -/

/-- The target the function leaves behind. -/
theorem Session.target_eq :
    (inject_remote_process s.env args).2 =
      ⟨startRegs s.attached.regs s.region.code,
        injected s.region s.mmapMem s.locals.inject_start (imports s.env) s.attached.regs args,
        some s.region, .detached⟩ := by
  have hcalled : s.env.called := ⟨rfl, rfl, rfl, rfl, rfl, rfl⟩
  have hbase : s.env.mmapStop.regs ARM_r0 = s.region.base := rfl
  rw [inject_of_called hcalled]
  show place s.env args _ _ _ = _
  rw [place_of_granted rfl rfl, hbase]
  rfl

theorem Session.start_reg (r : Fin 16) :
    (s.start args).reg r = startRegs s.attached.regs s.region.code (core r) := by
  unfold Session.start
  rw [Session.target_eq]
  rfl

theorem Session.start_mem :
    (s.start args).mem =
      injected s.region s.mmapMem s.locals.inject_start (imports s.env) s.attached.regs args := by
  unfold Session.start armState
  rw [Session.target_eq]

theorem Session.start_thumb : (s.start args).thumb = thumb (s.attached.regs ARM_cpsr) := by
  unfold Session.start
  rw [Session.target_eq]
  rfl

/-! ## A place in the stub -/

/-- The places the `k`-th instruction of the stub leads to. -/
def next (k : ℕ) : List ℕ :=
  if k = 5 then [18, 6]
  else if k = 10 then [15, 11]
  else if k = 14 then [18, 15]
  else if k = 21 then []
  else [k + 1]

/-- The branches of the stub go to its labels, everything else goes on. -/
theorem targets_stub {k : ℕ} (h : k < stub.length) (a : Word) :
    stub[k].targets (a + BitVec.ofNat 32 (4 * k)) =
      (next k).map fun j => a + BitVec.ofNat 32 (4 * j) := by
  have hlen : k < 22 := h
  interval_cases k <;> simp [stub, next, Arm.Instr.targets, ldrLabel, beqLabel, BitVec.add_assoc]

/-- Every step goes forward. -/
theorem lt_of_mem_next {j k : ℕ} (h : k < 22) (hj : j ∈ next k) : k < j ∧ j < 22 := by
  have hall : ∀ k < 22, ∀ j ∈ next k, k < j ∧ j < 22 := by decide
  exact hall k h j hj

/-- The last four instructions are reached one from the other. -/
theorem restore_of_mem_next {j k : ℕ} (h : k < 22) (hj : j ∈ next k) :
    (j = 19 → k = 18) ∧ (j = 20 → k = 19) ∧ (j = 21 → k = 20) := by
  have hall : ∀ k < 22, ∀ j ∈ next k, (j = 19 → k = 18) ∧ (j = 20 → k = 19) ∧
      (j = 21 → k = 20) := by decide
  exact hall k h j hj

/-- `u` is in front of the `k`-th instruction of the stub, and what the last
instructions have loaded so far is what was saved. -/
structure At (s : Session) (args : Args) (k : ℕ) (u : Arm.State) : Prop where
  lt : k < stub.length
  arm : u.thumb = false
  pc : u.reg Arm.pc = s.region.code + BitVec.ofNat 32 (4 * k)
  mem : ∀ x, s.keep x → u.mem x = (s.start args).mem x
  cpsr : k = 19 → u.reg Arm.r1 = s.attached.regs ARM_cpsr
  flags : k = 20 ∨ k = 21 → u.flags = (s.attached.regs ARM_cpsr).extractLsb' 27 5
  sp : k = 21 → u.reg Arm.sp = s.region.code + BitVec.ofNat 32 saved_r0_pc

section Places

variable {k o n : ℕ} {u v : Arm.State}

/-- The code of the stub has not changed. -/
theorem At.read_eq (h : At s args k u) (hin : o + n ≤ inject_param) :
    read u.mem (s.region.code + BitVec.ofNat 32 o) n =
      (fillArea s.locals.inject_start s.region.code (imports s.env) s.attached.regs args).get
        o n := by
  have hparam : inject_param = 0x39C := rfl
  rw [← read_injected s.region s.mmapMem (by omega), ← Session.start_mem]
  apply read_congr
  intro i hi
  apply h.mem
  show (_ - s.region.code).toNat < inject_param
  rw [← add_ofNat_add, toNat_add_sub (by omega)]
  omega

theorem At.loadWord_eq {w : Word} (h : At s args k u) (hin : o + 4 ≤ inject_param)
    (hget : (fillArea s.locals.inject_start s.region.code (imports s.env) s.attached.regs
      args).get o 4 = chars w) :
    loadWord u.mem (s.region.code + BitVec.ofNat 32 o) = w := by
  unfold loadWord
  rw [h.read_eq hin, hget, ofChars_chars]

/-- So the instruction at `pc` is the one that was assembled. -/
theorem At.fetch (h : At s args k u) (hk : k < stub.length) : u.fetch = some stub[k] := by
  have hlen : stub.length = 22 := rfl
  have hparam : inject_param = 0x39C := rfl
  unfold Arm.State.fetch
  rw [if_neg (by simp [h.arm]), h.pc, h.loadWord_eq (by omega) (get_stub hk),
    Arm.decode_encode]

/-- Addresses of instructions are even. -/
theorem At.even (h : At s args k u) : (u.reg Arm.pc + 4).getLsbD 0 = false := by
  have halign := s.region.aligned
  have hcode := s.region.toNat_code
  have hlen : stub.length = 22 := rfl
  have hlt := h.lt
  have hnext : u.reg Arm.pc + 4 = s.region.code + BitVec.ofNat 32 (4 * (k + 1)) := by
    rw [h.pc, Nat.mul_add, add_ofNat_add]
    rfl
  rw [hnext, Arm.getLsbD_zero_eq, toNat_code_add (by omega)]
  simp only [decide_eq_false_iff_not]
  omega

/-- The literal of a load that stands at `here`. -/
theorem At.literal {w : Word} (h : At s args k u) (here label : ℕ) (hhere : 4 * k = here)
    (hlabel : here + 8 ≤ label) (hin : label + 4 ≤ inject_param)
    (hget : (fillArea s.locals.inject_start s.region.code (imports s.env) s.attached.regs
      args).get label 4 = chars w) :
    loadWord u.mem
      (u.reg Arm.pc + 8 + (BitVec.ofNat 12 (label - (here + 8))).setWidth 32) = w := by
  have hparam : inject_param = 0x39C := rfl
  have haddr : u.reg Arm.pc + 8 + (BitVec.ofNat 12 (label - (here + 8))).setWidth 32
      = s.region.code + BitVec.ofNat 32 label := by
    have hsmall : (BitVec.ofNat 12 (label - (here + 8))).setWidth 32
        = BitVec.ofNat 32 (label - (here + 8)) := by
      apply BitVec.eq_of_toNat_eq
      rw [BitVec.toNat_setWidth, BitVec.toNat_ofNat, BitVec.toNat_ofNat]
      omega
    have hsum : label = here + 8 + (label - (here + 8)) := by omega
    rw [h.pc, hsmall, hhere]
    conv_rhs => rw [hsum, add_ofNat_add, add_ofNat_add]
    rfl
  rw [haddr, h.loadWord_eq hin hget]

/-- A step leads to one of the next places. -/
theorem At.step (h : At s args k u) (hstep : Arm.Step s.keep u v) :
    ∃ j ∈ next k, At s args j v := by
  have hlen : stub.length = 22 := rfl
  have hlt := h.lt
  rcases hstep.flow (h.fetch h.lt) h.even with ⟨hpc, harm, hmem⟩
  rw [h.pc, targets_stub] at hpc
  rcases List.mem_map.mp hpc with ⟨j, hj, hjpc⟩
  rcases restore_of_mem_next (by omega) hj with ⟨h19, h20, h21⟩
  refine ⟨j, hj, ?_⟩
  constructor
  -- the first four parts hold at every place, the others are about one instruction
  case lt => exact (lt_of_mem_next (by omega) hj).2
  case arm => exact harm
  case pc => exact hjpc.symm
  case mem =>
    intro x hx
    rw [hmem x hx, h.mem x hx]
  case cpsr =>
    -- ldr r1, _saved_cpsr_s
    intro heq
    have hk := h19 heq
    subst hk
    have hexec : Arm.exec (ldrLabel 0x48 Arm.r1 _saved_cpsr_s) u = some v :=
      hstep.exec (h.fetch h.lt) (by intro rm; simp [ldrLabel])
    rw [(Arm.exec_ldr hexec).1]
    exact h.literal 0x48 _saved_cpsr_s rfl (by decide) (by decide) get_saved_cpsr
  case flags =>
    intro heq
    rcases heq with heq | heq
    · -- msr cpsr_cf, r1
      have hk := h20 heq
      subst hk
      have hexec : Arm.exec (.msr Arm.r1) u = some v :=
        hstep.exec (h.fetch h.lt) (by intro rm; simp)
      rw [Arm.exec_msr hexec, h.cpsr rfl]
    · -- ldr sp, _saved_r0_pc_s
      have hk := h21 heq
      subst hk
      have hexec : Arm.exec (ldrLabel 0x50 Arm.sp _saved_r0_pc_s) u = some v :=
        hstep.exec (h.fetch h.lt) (by intro rm; simp [ldrLabel])
      rw [← h.flags (.inl rfl), Arm.State.flags, (Arm.exec_ldr hexec).2]
      rfl
  case sp =>
    intro heq
    have hk := h21 heq
    subst hk
    have hexec : Arm.exec (ldrLabel 0x50 Arm.sp _saved_r0_pc_s) u = some v :=
      hstep.exec (h.fetch h.lt) (by intro rm; simp [ldrLabel])
    rw [(Arm.exec_ldr hexec).1]
    exact h.literal 0x50 _saved_r0_pc_s rfl (by decide) (by decide) get_saved_r0_pc

/-- So do all its steps. -/
theorem At.steps (h : At s args k u)
    (hsteps : Relation.ReflTransGen (Arm.Step s.keep) u v) : ∃ j, At s args j v := by
  induction hsteps with
  | refl => exact ⟨k, h⟩
  | tail _ hstep ih =>
      rcases ih with ⟨j, hj⟩
      rcases hj.step hstep with ⟨i, _, hi⟩
      exact ⟨i, hi⟩

/-- The saved registers are still there. -/
theorem At.loadRegs (h : At s args 21 u) (r : Fin 16) :
    Arm.loadRegs u.mem (u.reg Arm.sp) r = s.attached.regs (core r) := by
  have hsaved : saved_r0_pc = 0x29C := rfl
  have hparam : inject_param = 0x39C := rfl
  have hlt : r.val <
      (List.ofFn fun r : Fin 16 => s.attached.regs (core r)).length := by
    rw [List.length_ofFn]
    exact r.isLt
  have hget : (fillArea s.locals.inject_start s.region.code (imports s.env) s.attached.regs
      args).get (saved_r0_pc + 4 * r.val) 4
        = chars (s.attached.regs (core r)) := by
    rw [← Area.take_drop_get (by omega : 4 * r.val + 4 ≤ 64), get_saved_regs]
    unfold regsImage
    rw [take_drop_flatMap_chars hlt, List.getElem_ofFn]
  unfold Arm.loadRegs
  rw [h.sp rfl, ← add_ofNat_add, h.loadWord_eq (by omega) hget]

/-- Every instruction of the stub but the last is followed by another. -/
theorem plain_stub {k : ℕ} (h : k < stub.length) (hne : k ≠ 21) : stub[k].plain = true := by
  have hall : ∀ i : Fin 22, i.val ≠ 21 → (stub.get i).plain = true := by decide
  exact hall ⟨k, h⟩ hne

/-- The payload can finish from every place. -/
theorem At.leaves (h : At s args k u) (hthumb : thumb (s.attached.regs ARM_cpsr) = false) :
    ∃ v, Arm.Leaves s.keep u v := by
  have hlen : stub.length = 22 := rfl
  -- by the number of instructions up to the last one
  induction hd : 21 - k using Nat.strongRecOn generalizing k u with
  | ind d ih =>
      by_cases hlast : k = 21
      · subst hlast
        have hpc := h.loadRegs Arm.pc
        have hfetch : u.fetch = some (.ldm Arm.sp) := h.fetch h.lt
        have halign : (Arm.loadRegs u.mem (u.reg Arm.sp) Arm.pc).toNat % 4 = 0 := by
          rw [hpc]
          exact s.attached.arm hthumb
        rcases Arm.exists_exec_ldm (by decide) halign with ⟨v, hexec⟩
        exact ⟨v, .mk .refl hfetch hexec⟩
      · have hlt := h.lt
        rcases Arm.Step.exists_of_plain s.keep (h.fetch h.lt) (plain_stub h.lt hlast) with
          ⟨w, hstep⟩
        rcases h.step hstep with ⟨j, hj, hw⟩
        have hforward := lt_of_mem_next (by omega) hj
        rcases ih (21 - j) (by omega) hw rfl with ⟨v, hv⟩
        exact ⟨v, hv.extend (.single hstep)⟩

/-- And it does so by the last instruction, with what was saved. -/
theorem At.restored (h : At s args k u) (hv : Arm.Leaves s.keep u v) :
    ∃ w, At s args 21 w ∧ Arm.exec (.ldm Arm.sp) w = some v := by
  cases hv with
  | mk hsteps hfetch hexec =>
      rcases h.steps hsteps with ⟨j, hj⟩
      -- only the last instruction is not plain
      have hinstr := Option.some.inj ((hj.fetch hj.lt).symm.trans hfetch)
      have hlast : j = 21 := by
        by_contra hne
        have hplain := plain_stub hj.lt hne
        rw [hinstr] at hplain
        simp [Arm.Instr.plain] at hplain
      subst hlast
      have hsp : Arm.Instr.ldm Arm.sp = .ldm _ := hinstr
      rw [← hsp] at hexec
      exact ⟨_, hj, hexec⟩

end Places

/-- The target starts at the first instruction, if it is in ARM state. -/
theorem At.start (hthumb : thumb (s.attached.regs ARM_cpsr) = false) :
    At s args 0 (s.start args) where
  lt := by decide
  arm := by rw [Session.start_thumb, hthumb]
  pc := by
    rw [Session.start_reg]
    show startRegs s.attached.regs s.region.code ARM_pc = _
    rw [startRegs_pc]
    exact (BitVec.add_zero _).symm
  mem := fun _ _ => rfl
  cpsr := by
    intro h
    omega
  flags := by
    intro h
    omega
  sp := by
    intro h
    omega

/-- The target resumes as it was attached exactly when it was attached in ARM
state: the T flag of the saved cpsr stays in the registers the payload is
started with. -/
theorem resumes_iff_arm (s : Session) (args : Args) :
    s.Resumes args ↔ thumb (s.attached.regs ARM_cpsr) = false := by
  constructor
  · intro h
    rw [← Session.start_thumb]
    exact h.arm
  · intro hthumb
    have hstart : At s args 0 (s.start args) := At.start hthumb
    have halign := s.attached.arm hthumb
    have heven : (s.attached.regs ARM_pc).getLsbD 0 = false := by
      rw [Arm.getLsbD_zero_eq]
      simp only [decide_eq_false_iff_not]
      omega
    constructor
    case detached => rw [Session.target_eq]
    case pc =>
      rw [Session.start_reg]
      exact startRegs_pc _ _
    case arm => exact hstart.arm
    case finishes =>
      intro u hsteps
      rcases hstart.steps hsteps with ⟨k, hk⟩
      exact hk.leaves hthumb
    case regs =>
      intro v hv r
      rcases hstart.restored hv with ⟨w, hw, hexec⟩
      rcases Arm.exec_ldm hexec with ⟨hregs, hpc, _, _⟩
      by_cases hr : r = Arm.pc
      · rw [hr, hpc, hw.loadRegs]
        exact Arm.and_not_one heven
      · rw [hregs r hr, hw.loadRegs]
    case flags =>
      intro v hv
      rcases hstart.restored hv with ⟨w, hw, hexec⟩
      rw [(Arm.exec_ldm hexec).2.2.2, hw.flags (.inr rfl)]
    case thumb =>
      intro v hv
      rcases hstart.restored hv with ⟨w, hw, hexec⟩
      rw [(Arm.exec_ldm hexec).2.2.1, hw.loadRegs, hthumb]
      exact heven

/-- A process that was stopped in Thumb state, at 0x8002. -/
def Stopped.thumbSample : Stopped where
  regs := Function.update (Function.update (fun _ => 0) ARM_pc 0x8002) ARM_cpsr 0x30
  arm := by
    intro h
    exact absurd h (by decide)
  halfword := by
    intro _
    decide

/-- It does not start the payload in ARM state. -/
theorem not_resumes_thumb :
    ¬ Session.Resumes
      ⟨⟨0x1000, 0x2000, 0x3000, 0x4000, 0x10000⟩, fun _ => ⟨none, none⟩, .zeros, .zeros,
        .thumbSample, fun _ => 0, fun _ => 0, fun _ => 0, .sample⟩
      ⟨path "/sdcard/libinjectso.so", path "hook_entry", path "I'm parameter!"⟩ := by
  intro h
  have harm := h.arm
  rw [Session.start_thumb] at harm
  exact absurd harm (by decide)

end Inject
