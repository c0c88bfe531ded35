import Mathlib.Logic.Relation
import Mathlib.Logic.Function.Basic
import TestActivity.Lib.Memory

/-!
# A fragment of the ARM instruction set

Seven instructions of the ARM (not Thumb) instruction set: load a word relative
to `pc`, call through a register, subtract and set the flags, branch if the
zero flag is set, move a register, write the flags, and load all sixteen
registers from memory. `encode` is the assembler for them and `decode` reads an
instruction word back.

A piece of code is entered from outside, calls functions outside and leaves by
loading every register. `Step` is one instruction of it, where a call counts as
one step that ends when the callee has returned (`Returns`), and `Leaves` a
whole passage through the code. `Step.flow` is all a control flow argument
needs: where one step can lead, and that it stays in ARM state.
-/

namespace Arm

open Memory

/-! ## State -/

abbrev Word := BitVec 32

abbrev Reg := Fin 16

abbrev r0 : Reg := 0
abbrev r1 : Reg := 1
abbrev r3 : Reg := 3
abbrev r4 : Reg := 4
abbrev sp : Reg := 13
abbrev lr : Reg := 14
abbrev pc : Reg := 15

/-- The registers, the program status register and the memory. In front of
every instruction `reg pc` is the address of that instruction. -/
structure State where
  reg : Reg → Word
  cpsr : Word
  mem : Word → BitVec 8

/-- Thumb state rather than ARM state. -/
def State.thumb (s : State) : Bool := s.cpsr.getLsbD 5

/-- The Z flag. -/
def State.zero (s : State) : Bool := s.cpsr.getLsbD 30

/-- The flags N, Z, C, V and Q. -/
def State.flags (s : State) : BitVec 5 := s.cpsr.extractLsb' 27 5

/-- What an instruction reads from a register: `pc` is two instructions ahead. -/
def State.operand (s : State) (r : Reg) : Word := if r = pc then s.reg pc + 8 else s.reg r

/-- The return address of a call. -/
def State.link (s : State) : State :=
  { s with reg := Function.update s.reg lr (s.reg pc + 4) }

/-- The state behind an instruction that sets `r`. -/
def State.set (s : State) (r : Reg) (v : Word) : State :=
  { s with reg := Function.update (Function.update s.reg r v) pc (s.reg pc + 4) }

/-- The status register in the state that the lowest bit of an address asks for. -/
def interwork (cpsr target : Word) : Word :=
  (cpsr.extractLsb' 6 26 ++ target.extractLsb' 0 1) ++ cpsr.extractLsb' 0 5

/-- A branch that may change the instruction set. -/
def State.branch (s : State) (target : Word) : State :=
  { s with
    reg := Function.update s.reg pc (target &&& ~~~1), cpsr := interwork s.cpsr target }

/-! ## The lowest bit of an address -/

section Bits

variable {v : Word}

theorem and_one_eq_zero : v &&& 1 = 0 ↔ v.getLsbD 0 = false := by
  have hone : (1 : Word) = BitVec.twoPow 32 0 := rfl
  have hne : BitVec.twoPow 32 0 ≠ 0 := by decide
  rw [hone, BitVec.and_twoPow]
  by_cases hbit : v.getLsbD 0
  · rw [if_pos hbit]
    exact ⟨fun h => absurd h hne, fun h => absurd hbit (by rw [h]; decide)⟩
  · rw [if_neg hbit]
    exact ⟨fun _ => by simpa using hbit, fun _ => rfl⟩

theorem getLsbD_one (b : ℕ) : (1 : Word).getLsbD b = decide (b = 0) := by
  have hone : (1 : Word) = BitVec.twoPow 32 0 := rfl
  rw [hone, BitVec.getLsbD_twoPow]
  grind

/-- An even address keeps its value when the lowest bit is cleared. -/
theorem and_not_one (h : v.getLsbD 0 = false) : v &&& ~~~1 = v := by
  apply BitVec.eq_of_getLsbD_eq
  intro b hb
  rw [BitVec.getLsbD_and, BitVec.getLsbD_not, getLsbD_one]
  by_cases hz : b = 0
  · rw [hz, h]
    rfl
  · simp [hz, hb]

/-- The lowest bit as a remainder. -/
theorem getLsbD_zero_eq : v.getLsbD 0 = decide (v.toNat % 2 = 1) := by
  rw [BitVec.getLsbD, Nat.testBit_zero]

theorem thumb_interwork (cpsr target : Word) :
    (interwork cpsr target).getLsbD 5 = target.getLsbD 0 := by
  simp only [interwork, BitVec.getLsbD_append, BitVec.getLsbD_extractLsb']
  grind

theorem flags_interwork (cpsr target : Word) :
    (interwork cpsr target).extractLsb' 27 5 = cpsr.extractLsb' 27 5 := by
  apply BitVec.eq_of_getLsbD_eq
  intro b hb
  simp only [interwork, BitVec.getLsbD_append, BitVec.getLsbD_extractLsb']
  grind

end Bits

/-! ## Instructions -/

inductive Instr where
  /-- `ldr rt, [pc, #imm]` -/
  | ldr (rt : Reg) (imm : BitVec 12)
  /-- `blx rm` -/
  | blx (rm : Reg)
  /-- `subs rd, rn, #imm` -/
  | subs (rd rn : Reg) (imm : BitVec 8)
  /-- `beq`, by a number of instructions -/
  | beq (off : BitVec 24)
  /-- `mov rd, rm` -/
  | mov (rd rm : Reg)
  /-- `msr cpsr_cf, rm` -/
  | msr (rm : Reg)
  /-- `ldmfd rn, {r0-pc}` -/
  | ldm (rn : Reg)
deriving DecidableEq, Repr

/-- The field of a register. -/
def Reg.field (r : Reg) : BitVec 4 := BitVec.ofFin r

/-- The register of a field. -/
def Reg.ofField (f : BitVec 4) : Reg := f.toFin

@[simp] theorem Reg.ofField_field (r : Reg) : Reg.ofField (Reg.field r) = r := rfl

/-- An instruction word by its fields. -/
def fields (op : BitVec 12) (n d : BitVec 4) (imm : BitVec 12) : Word := op ++ n ++ d ++ imm

/-- The instruction word, with the condition "always" except for `beq`. -/
def encode : Instr → Word
  | .ldr rt imm => fields 0xE59 0xF (Reg.field rt) imm
  | .blx rm => fields 0xE12 0xF 0xF (0xF3#8 ++ Reg.field rm)
  | .subs rd rn imm => fields 0xE25 (Reg.field rn) (Reg.field rd) (0#4 ++ imm)
  | .beq off => 0x0A#8 ++ off
  | .mov rd rm => fields 0xE1A 0 (Reg.field rd) (0#8 ++ Reg.field rm)
  | .msr rm => fields 0xE12 0x9 0xF (0#8 ++ Reg.field rm)
  | .ldm rn => fields 0xE89 (Reg.field rn) 0xF 0xFFF

/-- The instruction of an instruction word, if it belongs to the fragment. -/
def decode (w : Word) : Option Instr :=
  let op := w.extractLsb' 20 12
  let n := w.extractLsb' 16 4
  let d := w.extractLsb' 12 4
  let imm := w.extractLsb' 0 12
  if w.extractLsb' 24 8 = 0x0A then some (.beq (w.extractLsb' 0 24))
  else if op = 0xE59 ∧ n = 0xF then some (.ldr (Reg.ofField d) imm)
  else if op = 0xE12 ∧ n = 0xF ∧ d = 0xF ∧ imm.extractLsb' 4 8 = 0xF3 then
    some (.blx (Reg.ofField (imm.extractLsb' 0 4)))
  else if op = 0xE25 ∧ imm.extractLsb' 8 4 = 0 then
    some (.subs (Reg.ofField d) (Reg.ofField n) (imm.extractLsb' 0 8))
  else if op = 0xE1A ∧ n = 0 ∧ imm.extractLsb' 4 8 = 0 then
    some (.mov (Reg.ofField d) (Reg.ofField (imm.extractLsb' 0 4)))
  else if op = 0xE12 ∧ n = 0x9 ∧ d = 0xF ∧ imm.extractLsb' 4 8 = 0 then
    some (.msr (Reg.ofField (imm.extractLsb' 0 4)))
  else if op = 0xE89 ∧ d = 0xF ∧ imm = 0xFFF then some (.ldm (Reg.ofField n))
  else none

section Fields

theorem extract_high {n k : ℕ} (x : BitVec n) (y : BitVec k) :
    (x ++ y).extractLsb' k n = x := by
  apply BitVec.eq_of_getLsbD_eq
  intro i hi
  simp [BitVec.getLsbD_append, hi]

theorem extract_low {n k : ℕ} (x : BitVec n) (y : BitVec k) :
    (x ++ y).extractLsb' 0 k = y := by
  apply BitVec.eq_of_getLsbD_eq
  intro i hi
  simp [BitVec.getLsbD_append, hi]

variable (op imm : BitVec 12) (n d : BitVec 4)

@[simp] theorem fields_top : (fields op n d imm).extractLsb' 24 8 = op.extractLsb' 4 8 := by
  apply BitVec.eq_of_getLsbD_eq
  intro i hi
  simp only [fields, BitVec.getLsbD_extractLsb', BitVec.getLsbD_append]
  grind

@[simp] theorem fields_op : (fields op n d imm).extractLsb' 20 12 = op := by
  apply BitVec.eq_of_getLsbD_eq
  intro i hi
  simp only [fields, BitVec.getLsbD_extractLsb', BitVec.getLsbD_append]
  grind

@[simp] theorem fields_n : (fields op n d imm).extractLsb' 16 4 = n := by
  apply BitVec.eq_of_getLsbD_eq
  intro i hi
  simp only [fields, BitVec.getLsbD_extractLsb', BitVec.getLsbD_append]
  grind

@[simp] theorem fields_d : (fields op n d imm).extractLsb' 12 4 = d := by
  apply BitVec.eq_of_getLsbD_eq
  intro i hi
  simp only [fields, BitVec.getLsbD_extractLsb', BitVec.getLsbD_append]
  grind

@[simp] theorem fields_imm : (fields op n d imm).extractLsb' 0 12 = imm :=
  extract_low _ _

end Fields

/-- What the assembler wrote is read back. -/
theorem decode_encode (i : Instr) : decode (encode i) = some i := by
  have hhigh : ∀ (x : BitVec 8) (f : BitVec 4), BitVec.extractLsb' (n := 12) 4 8 (x ++ f) = x :=
    extract_high
  have hlow : ∀ (x : BitVec 8) (f : BitVec 4), BitVec.extractLsb' (n := 12) 0 4 (x ++ f) = f :=
    extract_low
  cases i with
  | ldr rt imm => simp [encode, decode]
  | blx rm => simp [encode, decode, hhigh, hlow]
  | subs rd rn imm =>
      have hzero : BitVec.extractLsb' (n := 12) 8 4 (0#4 ++ imm) = 0#4 := extract_high _ _
      have himm : BitVec.extractLsb' (n := 12) 0 8 (0#4 ++ imm) = imm := extract_low _ _
      simp [encode, decode, hzero, himm]
  | beq off =>
      have htop : BitVec.extractLsb' (n := 32) 24 8 (0x0A#8 ++ off) = 0x0A#8 :=
        extract_high _ _
      have hoff : BitVec.extractLsb' (n := 32) 0 24 (0x0A#8 ++ off) = off := extract_low _ _
      simp [encode, decode, htop, hoff]
  | mov rd rm => simp [encode, decode, hhigh, hlow]
  | msr rm => simp [encode, decode, hhigh, hlow]
  | ldm rn => simp [encode, decode]

/-! ## Execution -/

/-- The flags after `a - b`. -/
def subFlags (a b : Word) : BitVec 4 :=
  let r := a - b
  let n := r.getLsbD 31
  let z := r == 0
  let c := decide (b ≤ a)
  let v := a.getLsbD 31 != b.getLsbD 31 && a.getLsbD 31 != n
  BitVec.ofBool n ++ BitVec.ofBool z ++ BitVec.ofBool c ++ BitVec.ofBool v

/-- The registers as they lie at `a`. -/
def loadRegs (mem : Word → BitVec 8) (a : Word) (r : Reg) : Word :=
  loadWord mem (a + BitVec.ofNat 32 (4 * r.val))

/-- One instruction in ARM state. Where the architecture leaves the result
open, or the instruction would set `pc` other than by a branch, there is none.
In user mode `msr` writes the flags and nothing else of the register. -/
def exec (i : Instr) (s : State) : Option State :=
  match i with
  | .ldr rt imm =>
      if rt = pc then none
      else some (s.set rt (loadWord s.mem (s.reg pc + 8 + imm.setWidth 32)))
  | .blx rm => some (s.link.branch (s.operand rm))
  | .subs rd rn imm =>
      if rd = pc then none
      else
        let a := s.operand rn
        let b := imm.setWidth 32
        some { s.set rd (a - b) with cpsr := subFlags a b ++ s.cpsr.extractLsb' 0 28 }
  | .beq off =>
      let target := if s.zero then s.reg pc + 8 + (off.signExtend 32 <<< 2) else s.reg pc + 4
      some { s with reg := Function.update s.reg pc target }
  | .mov rd rm => if rd = pc then none else some (s.set rd (s.operand rm))
  | .msr rm =>
      if rm = pc then none
      else
        some { s with
          reg := Function.update s.reg pc (s.reg pc + 4),
          cpsr := (s.reg rm).extractLsb' 27 5 ++ s.cpsr.extractLsb' 0 27 }
  | .ldm rn =>
      if rn = pc then none
      else
        let loaded := loadRegs s.mem (s.reg rn)
        if loaded pc &&& 3 = 2 then none
        else some ({ s with reg := loaded }.branch (loaded pc))

/-- The instruction at `pc`. -/
def State.fetch (s : State) : Option Instr :=
  if s.thumb then none else decode (loadWord s.mem (s.reg pc))

/-- What the procedure call standard promises when a function, entered in `s`,
has returned: it is back at the return address in the state its lowest bit
asks for, and the stack pointer, r4 to r11 and the memory of the caller (`keep`)
are as before. -/
structure Returns (keep : Word → Prop) (s s' : State) : Prop where
  pc : s'.reg pc = s.reg lr &&& ~~~1
  thumb : s'.thumb = (s.reg lr).getLsbD 0
  sp : s'.reg sp = s.reg sp
  saved : ∀ r : Reg, 4 ≤ r.val → r.val ≤ 11 → s'.reg r = s.reg r
  mem : ∀ x, keep x → s'.mem x = s.mem x

/-- One step of code that owns the memory `keep`: an instruction, or a call
together with what the callee does. -/
inductive Step (keep : Word → Prop) : State → State → Prop where
  | instr {s s' : State} {i : Instr} (hfetch : s.fetch = some i) (hcall : ∀ rm, i ≠ .blx rm)
      (hldm : ∀ rn, i ≠ .ldm rn) (hexec : exec i s = some s') : Step keep s s'
  | call {s t s' : State} {rm : Reg} (hfetch : s.fetch = some (.blx rm))
      (hexec : exec (.blx rm) s = some t) (hret : Returns keep t s') : Step keep s s'

/-- A passage through the code: steps, and the instruction that loads every
register, `pc` with them. -/
inductive Leaves (keep : Word → Prop) : State → State → Prop where
  | mk {s t s' : State} {rn : Reg} (hsteps : Relation.ReflTransGen (Step keep) s t)
      (hfetch : t.fetch = some (.ldm rn)) (hexec : exec (.ldm rn) t = some s') :
      Leaves keep s s'

/-! ## Where a step leads -/

/-- The addresses an instruction at `a` can lead to. -/
def Instr.targets (a : Word) : Instr → List Word
  | .beq off => [a + 8 + (off.signExtend 32 <<< 2), a + 4]
  | .ldm _ => []
  | _ => [a + 4]

section Flow

variable {keep : Word → Prop} {s t s' : State} {i : Instr} {r : Reg} {v : Word}

theorem fetch_arm (h : s.fetch = some i) : s.thumb = false := by
  unfold State.fetch at h
  by_cases hthumb : s.thumb
  · rw [if_pos hthumb] at h
    simp at h
  · simpa using hthumb

@[simp] theorem set_pc : (s.set r v).reg pc = s.reg pc + 4 := by
  simp [State.set]

theorem set_self (h : r ≠ pc) : (s.set r v).reg r = v := by
  simp [State.set, h]

@[simp] theorem branch_pc : (s.branch v).reg pc = v &&& ~~~1 := by
  simp [State.branch]

theorem branch_reg (h : r ≠ pc) : (s.branch v).reg r = s.reg r := by
  simp [State.branch, h]

theorem branch_thumb : (s.branch v).thumb = v.getLsbD 0 := thumb_interwork _ _

theorem branch_flags : (s.branch v).flags = s.flags := flags_interwork _ _

theorem link_reg (h : r ≠ lr) : s.link.reg r = s.reg r := by
  simp [State.link, h]

@[simp] theorem link_lr : s.link.reg lr = s.reg pc + 4 := by
  simp [State.link]

/-- A function may return at once. -/
theorem Returns.at_once : Returns keep s (s.branch (s.reg lr)) where
  pc := branch_pc
  thumb := branch_thumb
  sp := branch_reg (by decide)
  saved := by
    intro r _ hr
    apply branch_reg
    intro heq
    rw [heq] at hr
    exact absurd hr (by decide)
  mem := fun _ _ => rfl

@[simp] theorem set_mem : (s.set r v).mem = s.mem := rfl

@[simp] theorem set_cpsr : (s.set r v).cpsr = s.cpsr := rfl

/-- What the instructions that neither call nor load every register do to `pc`,
the instruction set and memory. -/
theorem exec_flow (hcall : ∀ rm, i ≠ .blx rm) (hldm : ∀ rn, i ≠ .ldm rn)
    (h : exec i s = some s') :
    s'.reg pc ∈ i.targets (s.reg pc) ∧ s'.thumb = s.thumb ∧ s'.mem = s.mem := by
  cases i with
  | ldr rt imm =>
      simp only [exec, Option.ite_none_left_eq_some, Option.some.injEq] at h
      rw [← h.2]
      simp [Instr.targets, State.thumb]
  | blx rm => exact absurd rfl (hcall rm)
  | subs rd rn imm =>
      simp only [exec, Option.ite_none_left_eq_some, Option.some.injEq] at h
      rw [← h.2]
      refine ⟨by simp [Instr.targets], ?_, rfl⟩
      simp only [State.thumb, BitVec.getLsbD_append, BitVec.getLsbD_extractLsb']
      grind
  | beq off =>
      simp only [exec, Option.some.injEq] at h
      rw [← h]
      refine ⟨?_, rfl, rfl⟩
      by_cases hz : s.zero
      · simp [Instr.targets, hz]
      · simp [Instr.targets, hz]
  | mov rd rm =>
      simp only [exec, Option.ite_none_left_eq_some, Option.some.injEq] at h
      rw [← h.2]
      simp [Instr.targets, State.thumb]
  | msr rm =>
      simp only [exec, Option.ite_none_left_eq_some, Option.some.injEq] at h
      rw [← h.2]
      refine ⟨by simp [Instr.targets], ?_, rfl⟩
      simp only [State.thumb, BitVec.getLsbD_append, BitVec.getLsbD_extractLsb']
      grind
  | ldm rn => exact absurd rfl (hldm rn)

/-- A load sets its register and nothing of the flags. -/
theorem exec_ldr {rt : Reg} {imm : BitVec 12} (h : exec (.ldr rt imm) s = some s') :
    s'.reg rt = loadWord s.mem (s.reg pc + 8 + imm.setWidth 32) ∧ s'.cpsr = s.cpsr := by
  simp only [exec, Option.ite_none_left_eq_some, Option.some.injEq] at h
  rw [← h.2]
  exact ⟨set_self h.1, rfl⟩

/-- The flags come from the register. -/
theorem exec_msr {rm : Reg} (h : exec (.msr rm) s = some s') :
    s'.flags = (s.reg rm).extractLsb' 27 5 := by
  simp only [exec, Option.ite_none_left_eq_some, Option.some.injEq] at h
  rw [← h.2]
  exact extract_high _ _

/-- A call leaves the address of the next instruction in `lr`. -/
theorem exec_blx {rm : Reg} (h : exec (.blx rm) s = some t) :
    t.reg lr = s.reg pc + 4 ∧ t.reg sp = s.reg sp ∧ t.mem = s.mem := by
  simp only [exec, Option.some.injEq] at h
  rw [← h]
  refine ⟨?_, ?_, rfl⟩
  · rw [branch_reg (by decide), link_lr]
  · rw [branch_reg (by decide), link_reg (by decide)]

/-- One step goes to a target of its instruction, in ARM state, and keeps the
memory of the code. -/
theorem Step.flow (h : Step keep s s') (hfetch : s.fetch = some i)
    (heven : (s.reg pc + 4).getLsbD 0 = false) :
    s'.reg pc ∈ i.targets (s.reg pc) ∧ s'.thumb = false ∧ ∀ x, keep x → s'.mem x = s.mem x := by
  have harm := fetch_arm hfetch
  cases h with
  | instr hj hcall hldm hexec =>
      have hij := Option.some.inj (hj.symm.trans hfetch)
      rw [hij] at hcall hldm hexec
      rcases exec_flow hcall hldm hexec with ⟨hpc, hthumb, hmem⟩
      exact ⟨hpc, hthumb.trans harm, fun x _ => congrFun hmem x⟩
  | call hj hexec hret =>
      have hij := Option.some.inj (hj.symm.trans hfetch)
      rcases exec_blx hexec with ⟨hlr, _, hmem⟩
      refine ⟨?_, ?_, ?_⟩
      · rw [hret.pc, hlr, and_not_one heven, ← hij]
        simp [Instr.targets]
      · rw [hret.thumb, hlr, heven]
      · intro x hx
        rw [hret.mem x hx, hmem]

/-- A step at an instruction that is no call is that instruction. -/
theorem Step.exec (h : Step keep s s') (hfetch : s.fetch = some i)
    (hcall : ∀ rm, i ≠ .blx rm) : exec i s = some s' := by
  cases h with
  | instr hj _ _ hexec =>
      rw [← Option.some.inj (hj.symm.trans hfetch)]
      exact hexec
  | call hj _ _ => exact absurd (Option.some.inj (hfetch.symm.trans hj)) (hcall _)

/-- The instructions that do not set `pc` as a result. -/
def Instr.plain : Instr → Bool
  | .ldr rt _ => rt != pc
  | .blx _ => true
  | .subs rd _ _ => rd != pc
  | .beq _ => true
  | .mov rd _ => rd != pc
  | .msr rm => rm != pc
  | .ldm _ => false

/-- There is a step at every plain instruction. -/
theorem Step.exists_of_plain (keep : Word → Prop) (hfetch : s.fetch = some i)
    (hplain : i.plain = true) : ∃ s', Step keep s s' := by
  cases i with
  | ldr rt imm =>
      have hne : rt ≠ pc := by simpa [Instr.plain] using hplain
      exact ⟨_, .instr hfetch (by simp) (by simp) (if_neg hne)⟩
  | blx rm =>
      exact ⟨_, .call hfetch rfl .at_once⟩
  | subs rd rn imm =>
      have hne : rd ≠ pc := by simpa [Instr.plain] using hplain
      exact ⟨_, .instr hfetch (by simp) (by simp) (if_neg hne)⟩
  | beq off => exact ⟨_, .instr hfetch (by simp) (by simp) rfl⟩
  | mov rd rm =>
      have hne : rd ≠ pc := by simpa [Instr.plain] using hplain
      exact ⟨_, .instr hfetch (by simp) (by simp) (if_neg hne)⟩
  | msr rm =>
      have hne : rm ≠ pc := by simpa [Instr.plain] using hplain
      exact ⟨_, .instr hfetch (by simp) (by simp) (if_neg hne)⟩
  | ldm rn => simp [Instr.plain] at hplain

/-- The instruction that loads every register: the registers come from memory,
the flags stay. -/
theorem exec_ldm {rn : Reg} (h : exec (.ldm rn) s = some s') :
    (∀ r, r ≠ pc → s'.reg r = loadRegs s.mem (s.reg rn) r) ∧
    s'.reg pc = loadRegs s.mem (s.reg rn) pc &&& ~~~1 ∧
    s'.thumb = (loadRegs s.mem (s.reg rn) pc).getLsbD 0 ∧ s'.flags = s.flags := by
  simp only [exec, Option.ite_none_left_eq_some, Option.some.injEq] at h
  rw [← h.2.2]
  refine ⟨?_, ?_, ?_, ?_⟩
  · intro r hr
    exact branch_reg hr
  · exact branch_pc
  · exact branch_thumb
  · exact branch_flags

/-- It does load them when the address it loads into `pc` is a multiple of four. -/
theorem exists_exec_ldm {rn : Reg} (hrn : rn ≠ pc)
    (halign : (loadRegs s.mem (s.reg rn) pc).toNat % 4 = 0) :
    ∃ s', exec (.ldm rn) s = some s' := by
  have hnot : ¬ loadRegs s.mem (s.reg rn) pc &&& 3 = 2 := by
    intro heq
    have hval := congrArg BitVec.toNat heq
    rw [BitVec.toNat_and] at hval
    have hmod := Nat.and_two_pow_sub_one_eq_mod (loadRegs s.mem (s.reg rn) pc).toNat 2
    have hthree : (3 : Word).toNat = 2 ^ 2 - 1 := rfl
    have htwo : (2 : Word).toNat = 2 := rfl
    rw [hthree, hmod, htwo] at hval
    omega
  unfold exec
  simp only [if_neg hrn, if_neg hnot]
  exact ⟨_, rfl⟩

/-- A passage may begin earlier. -/
theorem Leaves.extend {u : State} (hsteps : Relation.ReflTransGen (Step keep) s t)
    (h : Leaves keep t u) : Leaves keep s u := by
  cases h with
  | mk hrest hfetch hexec => exact .mk (hsteps.trans hrest) hfetch hexec

end Flow

end Arm
