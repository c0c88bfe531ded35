import Mathlib.Data.Int.Notation
import TestActivity.Lib.Arm
import TestActivity.Inject.Ptrace

/-!
# Calling a function in the target

`ptrace_call` of `inject.c` makes a stopped process call a function: the first
four parameters go into registers, the others below the stack pointer, `pc`
takes the address, and its lowest bit chooses between the ARM and the Thumb
instruction set. The return address is 0, so the process stops again, with a
fault, when the function returns.
-/

namespace Inject

open Memory

/-! ## Registers and the target -/

/-- `struct pt_regs`: r0 to r15, cpsr and orig_r0. -/
abbrev PtRegs := Fin 18 → Word

abbrev ARM_r0 : Fin 18 := 0
abbrev ARM_sp : Fin 18 := 13
abbrev ARM_lr : Fin 18 := 14
abbrev ARM_pc : Fin 18 := 15
abbrev ARM_cpsr : Fin 18 := 16

/-- The place of a core register among them. -/
abbrev core (r : Arm.Reg) : Fin 18 := r.castLE (by omega)

/-- `CPSR_T_MASK`. -/
def CPSR_T_MASK : Word := 1 <<< 5

/-- The T flag of a program status register. -/
def thumb (cpsr : Word) : Bool := cpsr.getLsbD 5

/-- A region of 0x4000 bytes that `mmap` made: whole pages, below the end of
the address space. -/
structure Mapping where
  base : Word
  aligned : base.toNat % 0x1000 = 0
  fits : base.toNat + 0x4000 < 2 ^ 32

/-- How the target stands to its tracer. -/
inductive Status where
  | untraced
  | stopped
  | running
  | detached
deriving DecidableEq, Repr

/-- The target process, with the region that `mmap` made in it, if any. -/
structure Target where
  regs : PtRegs
  mem : Mem
  region : Option Mapping
  status : Status

/-- `ptrace_setregs`. -/
def ptrace_setregs (ok : Bool) (regs : PtRegs) (t : Target) : ℤ × Target :=
  if ok then (0, { t with regs := regs }) else (-1, t)

/-- `ptrace_continue`. -/
def ptrace_continue (ok : Bool) (t : Target) : ℤ × Target :=
  if ok then (0, { t with status := .running }) else (-1, t)

/-! ## The call -/

/-- The register loop after `i` rounds. -/
def regParams (params : List Word) (regs : PtRegs) : ℕ → PtRegs
  | 0 => regs
  | i + 1 => Function.update (regParams params regs i) (Fin.ofNat 18 i) (params.getD i 0)

/-- The parameters that do not fit into registers, pushed onto the stack. -/
def pushParams (ok : ℕ → Bool) (params : List Word) (regs : PtRegs) (mem : Mem) :
    PtRegs × Mem :=
  let i := min params.length 4
  if i < params.length then
    let sp := regs ARM_sp - BitVec.ofNat 32 ((params.length - i) * 4)
    (Function.update regs ARM_sp sp,
      ptrace_writedata ok mem sp ((params.drop i).flatMap chars))
  else (regs, mem)

/-- `pc`, the T flag and `lr` for a call of `addr`. -/
def enterAt (addr : Word) (regs : PtRegs) : PtRegs :=
  let regs := Function.update regs ARM_pc addr
  let regs :=
    if regs ARM_pc &&& 1 ≠ 0 then
      let regs := Function.update regs ARM_pc (regs ARM_pc &&& ~~~1)
      Function.update regs ARM_cpsr (regs ARM_cpsr ||| CPSR_T_MASK)
    else
      Function.update regs ARM_cpsr (regs ARM_cpsr &&& ~~~CPSR_T_MASK)
  Function.update regs ARM_lr 0

/-- The outcomes of the requests of `ptrace_call`, and the state the target is
in when `waitpid` returns. -/
structure CallOutcome where
  poke : ℕ → Bool
  setregs : Bool
  cont : Bool
  stop : Target

/-- `ptrace_call` up to the moment the target runs again: what it returns if it
fails before, the registers and the target. -/
def ptrace_call.resume (o : CallOutcome) (addr : Word) (params : List Word) (regs : PtRegs)
    (t : Target) : ℤ × PtRegs × Target :=
  let regs := regParams params regs (min params.length 4)
  let pushed := pushParams o.poke params regs t.mem
  let regs := enterAt addr pushed.1
  let t := { t with mem := pushed.2 }
  let set := ptrace_setregs o.setregs regs t
  if set.1 = -1 then (-1, regs, set.2) else
  let run := ptrace_continue o.cont set.2
  if run.1 = -1 then (-1, regs, run.2) else (0, regs, run.2)

/-- `ptrace_call`: after `waitpid` the target is stopped in a state of its own. -/
def ptrace_call (o : CallOutcome) (addr : Word) (params : List Word) (regs : PtRegs)
    (t : Target) : ℤ × PtRegs × Target :=
  let called := ptrace_call.resume o addr params regs t
  if called.1 = -1 then called else (0, called.2.1, { o.stop with status := .stopped })

/-! ## What the parts leave in registers and memory -/

section Parts

variable {params : List Word} {regs : PtRegs} {mem : Mem} {addr : Word} {i n : ℕ}

/-- The loop sets the registers it has come by. -/
theorem regParams_of_lt (hn : n ≤ 4) (h : i < n) :
    regParams params regs n (Fin.ofNat 18 i) = params.getD i 0 := by
  induction n with
  | zero => omega
  | succ n ih =>
      rw [regParams]
      by_cases hi : i = n
      · rw [hi, Function.update_self]
      · have hne : Fin.ofNat 18 i ≠ Fin.ofNat 18 n := by
          intro heq
          have := congrArg Fin.val heq
          simp only [Fin.ofNat] at this
          omega
        rw [Function.update_of_ne hne]
        exact ih (by omega) (by omega)

/-- It leaves the others alone. -/
theorem regParams_of_le {r : Fin 18} (hn : n ≤ 4) (h : n ≤ r.val) :
    regParams params regs n r = regs r := by
  induction n with
  | zero => rfl
  | succ n ih =>
      have hne : r ≠ Fin.ofNat 18 n := by
        intro heq
        have := congrArg Fin.val heq
        simp only [Fin.ofNat] at this
        omega
      rw [regParams, Function.update_of_ne hne]
      exact ih (by omega) (by omega)

/-- Words in memory order take four bytes each. -/
theorem length_flatMap_chars (ws : List Word) : (ws.flatMap chars).length = 4 * ws.length := by
  induction ws with
  | nil => rfl
  | cons w ws ih =>
      rw [List.flatMap_cons, List.length_append, ih, length_chars, List.length_cons]
      omega

/-- The `i`-th word of a block of words. -/
theorem take_drop_flatMap_chars {ws : List Word} (h : i < ws.length) :
    ((ws.flatMap chars).drop (4 * i)).take 4 = chars ws[i] := by
  induction ws generalizing i with
  | nil => simp at h
  | cons w ws ih =>
      cases i with
      | zero =>
          rw [List.flatMap_cons]
          exact List.take_left' (length_chars w)
      | succ i =>
          have hdrop : 4 * (i + 1) = (chars w).length + 4 * i := by
            rw [length_chars]
            omega
          rw [List.flatMap_cons, hdrop, ← List.drop_drop, List.drop_left,
            List.getElem_cons_succ]
          exact ih (by simpa using h)

/-- The words at `a` when a block of words was written there. -/
theorem loadWord_write_chars {a : Word} {ws : List Word} (hfit : 4 * ws.length ≤ 2 ^ 32)
    (h : i < ws.length) :
    loadWord (write mem a (ws.flatMap chars)) (a + BitVec.ofNat 32 (4 * i)) = ws[i] := by
  have hlen := length_flatMap_chars ws
  unfold loadWord
  rw [read_write_slice (by omega) (by omega), take_drop_flatMap_chars h, ofChars_chars]

end Parts

/-! ## The instruction set bit -/

section Bits

variable {v : Word}

theorem getLsbD_mask (b : ℕ) : CPSR_T_MASK.getLsbD b = decide (b = 5) := by
  have hmask : CPSR_T_MASK = BitVec.twoPow 32 5 := rfl
  rw [hmask, BitVec.getLsbD_twoPow]
  grind

theorem getLsbD_set (b : ℕ) : (v ||| CPSR_T_MASK).getLsbD b = (v.getLsbD b || b == 5) := by
  rw [BitVec.getLsbD_or, getLsbD_mask]
  rfl

theorem getLsbD_clear {b : ℕ} (hb : b < 32) :
    (v &&& ~~~CPSR_T_MASK).getLsbD b = (v.getLsbD b && b != 5) := by
  rw [BitVec.getLsbD_and, BitVec.getLsbD_not, getLsbD_mask, decide_eq_true hb]
  rfl

end Bits

/-- The instruction set bit of `cpsr` for a call of `addr`. -/
def cpsrFor (addr cpsr : Word) : Word :=
  if addr &&& 1 ≠ 0 then cpsr ||| CPSR_T_MASK else cpsr &&& ~~~CPSR_T_MASK

theorem thumb_cpsrFor (addr cpsr : Word) : thumb (cpsrFor addr cpsr) = addr.getLsbD 0 := by
  unfold cpsrFor thumb
  by_cases hodd : addr &&& 1 = 0
  · rw [if_neg (not_not.mpr hodd), getLsbD_clear (by omega), Arm.and_one_eq_zero.mp hodd]
    exact Bool.and_false _
  · rw [if_pos hodd, getLsbD_set]
    rw [Arm.and_one_eq_zero, Bool.not_eq_false] at hodd
    rw [hodd]
    exact Bool.or_true _

theorem getLsbD_cpsrFor (addr cpsr : Word) {b : ℕ} (hb : b < 32) (hne : b ≠ 5) :
    (cpsrFor addr cpsr).getLsbD b = cpsr.getLsbD b := by
  have hbeq : (b == 5) = false := beq_eq_false_iff_ne.mpr hne
  unfold cpsrFor
  by_cases hodd : addr &&& 1 = 0
  · rw [if_neg (not_not.mpr hodd), getLsbD_clear hb, bne, hbeq]
    exact Bool.and_true _
  · rw [if_pos hodd, getLsbD_set, hbeq]
    exact Bool.or_false _

/-- `enterAt` sets three registers. -/
theorem enterAt_eq (addr : Word) (regs : PtRegs) :
    enterAt addr regs =
      Function.update
        (Function.update (Function.update regs ARM_pc (addr &&& ~~~1)) ARM_cpsr
          (cpsrFor addr (regs ARM_cpsr)))
        ARM_lr 0 := by
  have hne : ARM_cpsr ≠ ARM_pc := by decide
  unfold enterAt cpsrFor
  simp only [Function.update_self]
  by_cases hodd : addr &&& 1 = 0
  · rw [if_neg (not_not.mpr hodd), if_neg (not_not.mpr hodd),
      Arm.and_not_one (Arm.and_one_eq_zero.mp hodd), Function.update_of_ne hne]
  · rw [if_pos hodd, if_pos hodd, Function.update_idem, Function.update_of_ne hne]

section Entered

variable {addr : Word} {regs : PtRegs} {r : Fin 18}

theorem enterAt_cpsr : enterAt addr regs ARM_cpsr = cpsrFor addr (regs ARM_cpsr) := by
  rw [enterAt_eq, Function.update_of_ne (by decide), Function.update_self]

theorem enterAt_pc : enterAt addr regs ARM_pc = addr &&& ~~~1 := by
  rw [enterAt_eq, Function.update_of_ne (by decide), Function.update_of_ne (by decide),
    Function.update_self]

theorem enterAt_of_ne (hlr : r ≠ ARM_lr) (hpc : r ≠ ARM_pc) (hcpsr : r ≠ ARM_cpsr) :
    enterAt addr regs r = regs r := by
  rw [enterAt_eq, Function.update_of_ne hlr, Function.update_of_ne hcpsr,
    Function.update_of_ne hpc]

theorem enterAt_sp : enterAt addr regs ARM_sp = regs ARM_sp :=
  enterAt_of_ne (by decide) (by decide) (by decide)

end Entered

/-! ## The calling convention -/

/-- Every request of `ptrace_call` succeeds. -/
def CallOutcome.granted (stop : Target) : CallOutcome :=
  { poke := allOk, setregs := true, cont := true, stop := stop }

/-- The target `t'` runs at the entry of the function at `addr`, called with
`params` from the registers `regs` and the memory `mem`. -/
structure CallConvention (addr : Word) (params : List Word) (regs : PtRegs) (mem : Mem)
    (t' : Target) : Prop where
  running : t'.status = .running
  /-- The first four parameters are in r0 to r3. -/
  inRegs : ∀ i (hi : i < params.length), i < 4 → t'.regs (Fin.ofNat 18 i) = params[i]
  /-- The stack pointer is lowered by the size of the others. -/
  sp : (t'.regs ARM_sp).toNat + 4 * (params.length - 4) = (regs ARM_sp).toNat
  /-- The others are on the stack. -/
  onStack : ∀ k (hk : 4 + k < params.length),
    loadWord t'.mem (t'.regs ARM_sp + BitVec.ofNat 32 (4 * k)) = params[4 + k]
  pc : t'.regs ARM_pc = addr &&& ~~~1
  instructionSet : thumb (t'.regs ARM_cpsr) = addr.getLsbD 0
  lr : t'.regs ARM_lr = 0
  /-- The rest of cpsr, the other registers and the other memory are as before. -/
  cpsr : ∀ b < 32, b ≠ 5 → (t'.regs ARM_cpsr).getLsbD b = (regs ARM_cpsr).getLsbD b
  others : ∀ r : Fin 18, min params.length 4 ≤ r.val → r ≠ ARM_sp → r ≠ ARM_lr →
    r ≠ ARM_pc → r ≠ ARM_cpsr → t'.regs r = regs r
  memory : ∀ x : Word, x.toNat < (t'.regs ARM_sp).toNat ∨ (regs ARM_sp).toNat ≤ x.toNat →
    t'.mem x = mem x

/-- What `pushParams` leaves, when the stack has room: the stack pointer and the
words behind it. -/
theorem pushParams_allOk {params : List Word} {regs : PtRegs} {mem : Mem}
    (hsp : 4 * (params.length - 4) ≤ (regs ARM_sp).toNat) :
    pushParams allOk params regs mem =
      (Function.update regs ARM_sp
          (regs ARM_sp - BitVec.ofNat 32 (4 * (params.length - 4))),
        write mem (regs ARM_sp - BitVec.ofNat 32 (4 * (params.length - 4)))
          ((params.drop 4).flatMap chars)) := by
  have hlt := (regs ARM_sp).isLt
  unfold pushParams
  by_cases h : min params.length 4 < params.length
  · have hmin : min params.length 4 = 4 := by omega
    have hlen := length_flatMap_chars (params.drop 4)
    rw [List.length_drop] at hlen
    have hfit : ((params.drop 4).flatMap chars).length < 2 ^ 32 := by omega
    rw [if_pos h, hmin, Nat.mul_comm]
    simp only [ptrace_writedata_allOk hfit]
  · have hzero : params.length - 4 = 0 := by omega
    have hnil : params.drop 4 = [] := List.drop_eq_nil_of_le (by omega)
    rw [if_neg h, hzero, hnil]
    simp

/-- An address that is lowered without wrapping around. -/
theorem toNat_sub_ofNat {a : Word} {n : ℕ} (h : n ≤ a.toNat) :
    (a - BitVec.ofNat 32 n).toNat = a.toNat - n := by
  have hlt := a.isLt
  have hle : BitVec.ofNat 32 n ≤ a := by
    rw [BitVec.le_def, BitVec.toNat_ofNat, Nat.mod_eq_of_lt (by omega)]
    exact h
  rw [BitVec.toNat_sub_of_le hle, BitVec.toNat_ofNat, Nat.mod_eq_of_lt (by omega)]

/-- The registers and the memory in which `ptrace_call` resumes the target. -/
theorem resume_granted {stop t : Target} {addr : Word} {params : List Word} {regs : PtRegs}
    (hsp : 4 * (params.length - 4) ≤ (regs ARM_sp).toNat) :
    ptrace_call.resume (.granted stop) addr params regs t =
      (0, enterAt addr (Function.update (regParams params regs (min params.length 4)) ARM_sp
          (regs ARM_sp - BitVec.ofNat 32 (4 * (params.length - 4)))),
        { t with
          regs := enterAt addr (Function.update (regParams params regs (min params.length 4))
            ARM_sp (regs ARM_sp - BitVec.ofNat 32 (4 * (params.length - 4)))),
          mem := write t.mem (regs ARM_sp - BitVec.ofNat 32 (4 * (params.length - 4)))
            ((params.drop 4).flatMap chars),
          status := .running }) := by
  have hkeep : regParams params regs (min params.length 4) ARM_sp = regs ARM_sp :=
    regParams_of_le (by omega) (by show min params.length 4 ≤ 13; omega)
  have hpush : pushParams allOk params (regParams params regs (min params.length 4)) t.mem =
      (Function.update (regParams params regs (min params.length 4)) ARM_sp
        (regs ARM_sp - BitVec.ofNat 32 (4 * (params.length - 4))),
      write t.mem (regs ARM_sp - BitVec.ofNat 32 (4 * (params.length - 4)))
        ((params.drop 4).flatMap chars)) := by
    rw [pushParams_allOk (by rw [hkeep]; exact hsp), hkeep]
  unfold ptrace_call.resume
  simp only [CallOutcome.granted, hpush, ptrace_setregs, ptrace_continue]
  rfl

/-- When every request succeeds and the stack has room, the target resumes at
the entry of the function, called as the convention asks. -/
theorem ptrace_call_convention (stop t : Target) (addr : Word) (params : List Word)
    (regs : PtRegs) (hsp : 4 * (params.length - 4) ≤ (regs ARM_sp).toNat) :
    (ptrace_call.resume (.granted stop) addr params regs t).1 = 0 ∧
    CallConvention addr params regs t.mem
      (ptrace_call.resume (.granted stop) addr params regs t).2.2 := by
  have hlt := (regs ARM_sp).isLt
  have hsub := toNat_sub_ofNat hsp
  have hlen := length_flatMap_chars (params.drop 4)
  rw [List.length_drop] at hlen
  -- r0 to r3 come from the loop, sp from the push, pc, cpsr and lr from `enterAt`
  rw [resume_granted hsp]
  refine ⟨rfl, ?_⟩
  constructor
  case running => rfl
  case inRegs =>
    intro i hi h4
    have hne : ∀ r : Fin 18, 13 ≤ r.val → Fin.ofNat 18 i ≠ r := by
      intro r hr heq
      have hval := congrArg Fin.val heq
      simp only [Fin.ofNat] at hval
      omega
    show enterAt addr _ _ = _
    rw [enterAt_of_ne (hne _ (by decide)) (hne _ (by decide)) (hne _ (by decide)),
      Function.update_of_ne (hne _ (by decide)), regParams_of_lt (by omega) (by omega),
      List.getD_eq_getElem _ _ hi]
  case sp =>
    show (enterAt addr _ ARM_sp).toNat + _ = _
    rw [enterAt_sp, Function.update_self, hsub]
    omega
  case onStack =>
    intro k hk
    have hk' : k < (params.drop 4).length := by
      rw [List.length_drop]
      omega
    show loadWord (write t.mem _ _) (enterAt addr _ ARM_sp + _) = _
    rw [enterAt_sp, Function.update_self,
      loadWord_write_chars (by rw [List.length_drop]; omega) hk', List.getElem_drop]
  case pc =>
    show enterAt addr _ ARM_pc = _
    rw [enterAt_pc]
  case instructionSet =>
    show thumb (enterAt addr _ ARM_cpsr) = _
    rw [enterAt_cpsr, thumb_cpsrFor]
  case lr => rfl
  case cpsr =>
    intro b hb hne
    show (enterAt addr _ ARM_cpsr).getLsbD b = _
    rw [enterAt_cpsr, getLsbD_cpsrFor _ _ hb hne, Function.update_of_ne (by decide),
      regParams_of_le (by omega) (by show min params.length 4 ≤ 16; omega)]
  case others =>
    intro r hr hsp' hlr hpc hcpsr
    show enterAt addr _ r = _
    rw [enterAt_of_ne hlr hpc hcpsr, Function.update_of_ne hsp',
      regParams_of_le (by omega) hr]
  case memory =>
    -- the pushed words end where the stack pointer was
    intro x hx
    show write t.mem _ _ x = _
    change x.toNat < (enterAt addr _ ARM_sp).toNat ∨ _ at hx
    rw [enterAt_sp, Function.update_self, hsub] at hx
    apply write_of_le
    rcases hx with hx | hx
    · exact le_toNat_sub_of_lt (by rw [hsub]; exact hx) (by rw [hsub]; omega)
    · rw [toNat_sub_of_le (by rw [hsub]; omega), hsub]
      omega

/-- Six parameters, as `mmap` takes them, and a Thumb address. -/
theorem ptrace_call_convention_six :
    4 * (([0, 0x4000, 7, 0x22, 0, 0] : List Word).length - 4)
      ≤ ((fun _ => 0x1000 : PtRegs) ARM_sp).toNat ∧
    CallConvention 0x8001 [0, 0x4000, 7, 0x22, 0, 0] (fun _ => 0x1000) (fun _ => 0)
      (ptrace_call.resume (.granted ⟨fun _ => 0, fun _ => 0, none, .stopped⟩) 0x8001
        [0, 0x4000, 7, 0x22, 0, 0] (fun _ => 0x1000)
        ⟨fun _ => 0x1000, fun _ => 0, none, .stopped⟩).2.2 := by
  have hsp : 4 * (([0, 0x4000, 7, 0x22, 0, 0] : List Word).length - 4)
      ≤ ((fun _ => 0x1000 : PtRegs) ARM_sp).toNat := by decide
  exact ⟨hsp, (ptrace_call_convention ⟨fun _ => 0, fun _ => 0, none, .stopped⟩
    ⟨fun _ => 0x1000, fun _ => 0, none, .stopped⟩ 0x8001 _ (fun _ => 0x1000) hsp).2⟩

end Inject
