import TestActivity.Inject.Call

/-!
# The payload

`shellcode.s` is a stub that calls `dlopen`, `dlsym` and the hook and then
reloads the registers of the target. Behind its instructions lie nine words
that `inject_remote_process` fills in, and behind `_inject_end_s` 0x400 bytes of
space for two strings, the saved registers and the parameter of the hook. The
first 0x400 bytes from `_inject_start_s` on are copied into the target.

The local memory from `_inject_start_s` on is an `Area`: a byte for every
distance to that label.
-/

namespace Inject

open Memory

/-! ## The stub -/

/-- The distances of the labels to `_inject_start_s`. -/
def _dlopen_addr_s : ℕ := 0x58
def _dlopen_param1_s : ℕ := 0x5C
def _dlopen_param2_s : ℕ := 0x60
def _dlsym_addr_s : ℕ := 0x64
def _dlsym_param2_s : ℕ := 0x68
def _dlclose_addr_s : ℕ := 0x6C
def _inject_function_param_s : ℕ := 0x70
def _saved_cpsr_s : ℕ := 0x74
def _saved_r0_pc_s : ℕ := 0x78
def _inject_end_s : ℕ := 0x7C

/-- `ldr rt, label`, assembled at `here`. -/
def ldrLabel (here : ℕ) (rt : Arm.Reg) (label : ℕ) : Arm.Instr :=
  .ldr rt (BitVec.ofNat 12 (label - (here + 8)))

/-- `beq label`, assembled at `here`. -/
def beqLabel (here label : ℕ) : Arm.Instr := .beq (BitVec.ofNat 24 ((label - (here + 8)) / 4))

/-- The instructions of `_inject_start_s`. The labels `1` and `2` are at 0x3C
and 0x48. -/
def stub : List Arm.Instr :=
  [ -- dlopen
   ldrLabel 0x00 Arm.r1 _dlopen_param2_s,
   ldrLabel 0x04 Arm.r0 _dlopen_param1_s,
   ldrLabel 0x08 Arm.r3 _dlopen_addr_s,
   .blx Arm.r3,
   .subs Arm.r4 Arm.r0 0,
   beqLabel 0x14 0x48,
   -- dlsym
   ldrLabel 0x18 Arm.r1 _dlsym_param2_s,
   ldrLabel 0x1C Arm.r3 _dlsym_addr_s,
   .blx Arm.r3,
   .subs Arm.r3 Arm.r0 0,
   beqLabel 0x28 0x3C,
   -- call our function
   ldrLabel 0x2C Arm.r0 _inject_function_param_s,
   .blx Arm.r3,
   .subs Arm.r0 Arm.r0 0,
   beqLabel 0x38 0x48,
   -- 1: dlclose
   .mov Arm.r0 Arm.r4,
   ldrLabel 0x40 Arm.r3 _dlclose_addr_s,
   .blx Arm.r3,
   -- 2: restore context
   ldrLabel 0x48 Arm.r1 _saved_cpsr_s,
   .msr Arm.r1,
   ldrLabel 0x50 Arm.sp _saved_r0_pc_s,
   .ldm Arm.sp]

/-- The words behind the instructions, as assembled. -/
def stubWords : List Word :=
  [0x11111111, 0x11111111, 0x2, 0x11111111, 0x11111111, 0x11111111, 0x11111111, 0x11111111,
   0x11111111]

/-- `_inject_start_s` up to `_inject_end_s`. -/
def stubImage : Data := (stub.map Arm.encode ++ stubWords).flatMap chars

theorem length_stubImage : stubImage.length = _inject_end_s := by
  unfold stubImage
  rw [length_flatMap_chars]
  rfl

/-! ## The local area -/

abbrev Area := ℕ → Byte

/-- The stub and the space behind it. -/
def Area.assembled : Area := fun k => stubImage.getD k 0

/-- The area with `bs` at `off`. -/
def Area.put (area : Area) (off : ℕ) (bs : Data) : Area :=
  fun k => if off ≤ k then bs[k - off]?.getD (area k) else area k

/-- The `n` bytes at `off`. -/
def Area.get (area : Area) (off n : ℕ) : Data := (List.range n).map fun i => area (off + i)

/-- What `strcpy` copies: the string up to its NUL, and the NUL. -/
def cString (s : Data) : Data := s.takeWhile (· ≠ 0) ++ [0]

/-! ## Filling it in -/

/-- `MAX_PATH`. -/
def MAX_PATH : ℕ := 0x100

/-- `REMOTE_ADDR`. -/
def REMOTE_ADDR (addr local_base remote_base : Word) : Word := addr + remote_base - local_base

/-- `code_length`. -/
def code_length : ℕ := _inject_end_s

def dlopen_param1 : ℕ := code_length + 0x20
def dlsym_param2 : ℕ := dlopen_param1 + MAX_PATH
def saved_r0_pc : ℕ := dlsym_param2 + MAX_PATH
def inject_param : ℕ := saved_r0_pc + MAX_PATH

/-- The arguments of `inject_remote_process`: two strings and `param_size`
bytes. -/
structure Args where
  library_path : Data
  function_name : Data
  param : Data

/-- The addresses of the linker's functions in the target. -/
structure Imports where
  dlopen : Word
  dlsym : Word
  dlclose : Word

/-- r0 to r15 in memory order. -/
def regsImage (regs : PtRegs) : Data :=
  (List.ofFn fun r : Fin 16 => regs (core r)).flatMap chars

section Fill

variable (local_code_ptr remote_code_ptr : Word) (imports : Imports) (original_regs : PtRegs)
  (args : Args)

/-- The address of a part of the area in the target. -/
def remoteAddr (off : ℕ) : Word :=
  REMOTE_ADDR (local_code_ptr + BitVec.ofNat 32 off) local_code_ptr remote_code_ptr

/-- The area when everything is filled in. -/
def fillArea : Area :=
  let area := Area.assembled
  let area := area.put _dlopen_addr_s (chars imports.dlopen)
  let area := area.put _dlsym_addr_s (chars imports.dlsym)
  let area := area.put _dlclose_addr_s (chars imports.dlclose)
  -- dlopen parameter 1: library name
  let area := area.put dlopen_param1 (cString args.library_path)
  let area := area.put _dlopen_param1_s
    (chars (remoteAddr local_code_ptr remote_code_ptr dlopen_param1))
  -- dlsym parameter 2: function name
  let area := area.put dlsym_param2 (cString args.function_name)
  let area := area.put _dlsym_param2_s
    (chars (remoteAddr local_code_ptr remote_code_ptr dlsym_param2))
  -- saved cpsr
  let area := area.put _saved_cpsr_s (chars (original_regs ARM_cpsr))
  -- saved r0-pc
  let area := area.put saved_r0_pc (regsImage original_regs)
  let area := area.put _saved_r0_pc_s
    (chars (remoteAddr local_code_ptr remote_code_ptr saved_r0_pc))
  -- inject function parameter
  let area := area.put inject_param args.param
  area.put _inject_function_param_s
    (chars (remoteAddr local_code_ptr remote_code_ptr inject_param))

/-- The 0x400 bytes that are copied into the target. -/
def payload : Data :=
  (fillArea local_code_ptr remote_code_ptr imports original_regs args).get 0 0x400

end Fill

/-! ## Reading the area -/

section Area

variable {area : Area} {off o n : ℕ} {bs : Data}

@[simp] theorem Area.length_get : (area.get off n).length = n := by
  simp [Area.get]

theorem Area.get_congr {area' : Area} (h : ∀ i < n, area (off + i) = area' (off + i)) :
    area.get off n = area'.get off n := by
  apply List.map_congr_left
  intro i hi
  exact h i (List.mem_range.mp hi)

/-- What was put is there. -/
theorem Area.get_put_self : (area.put off bs).get off bs.length = bs := by
  apply List.ext_getElem Area.length_get
  intro i hi hi'
  simp [Area.get, Area.put, hi']

/-- Elsewhere nothing changes. -/
theorem Area.get_put_of_disjoint (h : o + n ≤ off ∨ off + bs.length ≤ o) :
    (area.put off bs).get o n = area.get o n := by
  apply Area.get_congr
  intro i hi
  unfold Area.put
  by_cases hle : off ≤ o + i
  · rw [if_pos hle, List.getElem?_eq_none (by omega)]
    rfl
  · exact if_neg hle

/-- Something was put further back. -/
theorem Area.get_put_of_le (h : o + n ≤ off) : (area.put off bs).get o n = area.get o n :=
  Area.get_put_of_disjoint (.inl h)

@[simp] theorem Area.get_put_word {v : Word} : (area.put off (chars v)).get off 4 = chars v :=
  Area.get_put_self

/-- Another word. -/
theorem Area.get_put_word_of_ne {v : Word} (h : o + n ≤ off ∨ off + 4 ≤ o) :
    (area.put off (chars v)).get o n = area.get o n :=
  Area.get_put_of_disjoint h

/-- A part of a part. -/
theorem Area.take_drop_get {k m : ℕ} (h : k + m ≤ n) :
    ((area.get off n).drop k).take m = area.get (off + k) m := by
  apply List.ext_getElem
  · simp only [List.length_take, List.length_drop, Area.length_get]
    omega
  · intro i hi hi'
    simp [Area.get, Nat.add_assoc]

/-- The stub in the area as it was assembled. -/
theorem Area.get_assembled (h : o + n ≤ stubImage.length) :
    Area.assembled.get o n = (stubImage.drop o).take n := by
  apply List.ext_getElem
  · simp only [List.length_take, List.length_drop, Area.length_get]
    omega
  · intro i hi hi'
    rw [Area.length_get] at hi
    have hin : o + i < stubImage.length := by omega
    simp [Area.get, Area.assembled, hin]

end Area

section Filled

variable {local_code_ptr remote_code_ptr : Word} {imports : Imports} {regs : PtRegs}
  {args : Args}

/-- A part of the area keeps its distance to the code. -/
theorem remoteAddr_eq (off : ℕ) :
    remoteAddr local_code_ptr remote_code_ptr off = remote_code_ptr + BitVec.ofNat 32 off := by
  unfold remoteAddr REMOTE_ADDR
  bv_omega

/-- In front of the words nothing is filled in. -/
theorem get_code {o n : ℕ} (h : o + n ≤ _dlopen_addr_s) :
    (fillArea local_code_ptr remote_code_ptr imports regs args).get o n
      = Area.assembled.get o n := by
  unfold fillArea
  iterate 12 rw [Area.get_put_of_le (Nat.le_trans h (by decide))]

/-- The instructions are copied as they are. -/
theorem get_stub {k : ℕ} (h : k < stub.length) :
    (fillArea local_code_ptr remote_code_ptr imports regs args).get (4 * k) 4
      = chars (Arm.encode stub[k]) := by
  have hlen : stub.length = 22 := rfl
  have hword : _dlopen_addr_s = 4 * 22 := rfl
  have hend : stubImage.length = 4 * 31 := length_stubImage
  have hwords : k < (stub.map Arm.encode ++ stubWords).length := by
    rw [List.length_append, List.length_map]
    omega
  rw [get_code (by omega), Area.get_assembled (by omega)]
  unfold stubImage
  rw [take_drop_flatMap_chars hwords, List.getElem_append_left (by simpa using h),
    List.getElem_map]

/-! The words and the saved registers, whatever the lengths of the strings and
of the parameter are. -/

theorem get_dlopen_param1 :
    (fillArea local_code_ptr remote_code_ptr imports regs args).get _dlopen_param1_s 4
      = chars (remote_code_ptr + BitVec.ofNat 32 dlopen_param1) := by
  simp (disch := decide) only [fillArea, Area.get_put_word, Area.get_put_of_le,
    remoteAddr_eq]

theorem get_dlsym_param2 :
    (fillArea local_code_ptr remote_code_ptr imports regs args).get _dlsym_param2_s 4
      = chars (remote_code_ptr + BitVec.ofNat 32 dlsym_param2) := by
  simp (disch := decide) only [fillArea, Area.get_put_word, Area.get_put_of_le,
    remoteAddr_eq]

theorem get_inject_function_param :
    (fillArea local_code_ptr remote_code_ptr imports regs args).get _inject_function_param_s 4
      = chars (remote_code_ptr + BitVec.ofNat 32 inject_param) := by
  simp (disch := decide) only [fillArea, Area.get_put_word, remoteAddr_eq]

theorem get_saved_cpsr :
    (fillArea local_code_ptr remote_code_ptr imports regs args).get _saved_cpsr_s 4
      = chars (regs ARM_cpsr) := by
  simp (disch := decide) only [fillArea, Area.get_put_word, Area.get_put_word_of_ne,
    Area.get_put_of_le]

theorem get_saved_r0_pc :
    (fillArea local_code_ptr remote_code_ptr imports regs args).get _saved_r0_pc_s 4
      = chars (remote_code_ptr + BitVec.ofNat 32 saved_r0_pc) := by
  simp (disch := decide) only [fillArea, Area.get_put_word, Area.get_put_word_of_ne,
    Area.get_put_of_le, remoteAddr_eq]

theorem length_regsImage (regs : PtRegs) : (regsImage regs).length = 64 := by
  unfold regsImage
  rw [length_flatMap_chars, List.length_ofFn]

theorem get_saved_regs :
    (fillArea local_code_ptr remote_code_ptr imports regs args).get saved_r0_pc 64
      = regsImage regs := by
  have hself : ∀ area : Area, (area.put saved_r0_pc (regsImage regs)).get saved_r0_pc 64
      = regsImage regs := by
    intro area
    rw [← length_regsImage regs, Area.get_put_self]
  simp (disch := decide) only [fillArea, Area.get_put_word_of_ne, Area.get_put_of_le, hself]

theorem get_param :
    (fillArea local_code_ptr remote_code_ptr imports regs args).get inject_param
      args.param.length = args.param := by
  unfold fillArea
  rw [Area.get_put_word_of_ne (.inr (by decide)), Area.get_put_self]

/-- The function name, when it stops in front of the saved registers. -/
theorem get_function_name (h : (cString args.function_name).length ≤ MAX_PATH) :
    (fillArea local_code_ptr remote_code_ptr imports regs args).get dlsym_param2
      (cString args.function_name).length = cString args.function_name := by
  have hend : dlsym_param2 + (cString args.function_name).length ≤ saved_r0_pc := by
    unfold saved_r0_pc
    omega
  unfold fillArea
  rw [Area.get_put_word_of_ne (.inr (by decide)),
    Area.get_put_of_le (Nat.le_trans hend (by decide)),
    Area.get_put_word_of_ne (.inr (by decide)), Area.get_put_of_le hend,
    Area.get_put_word_of_ne (.inr (by decide)), Area.get_put_word_of_ne (.inr (by decide)),
    Area.get_put_self]

/-- The library name, when it stops in front of the function name. -/
theorem get_library_path (h : (cString args.library_path).length ≤ MAX_PATH) :
    (fillArea local_code_ptr remote_code_ptr imports regs args).get dlopen_param1
      (cString args.library_path).length = cString args.library_path := by
  have hend : dlopen_param1 + (cString args.library_path).length ≤ dlsym_param2 := by
    unfold dlsym_param2
    omega
  unfold fillArea
  rw [Area.get_put_word_of_ne (.inr (by decide)),
    Area.get_put_of_le (Nat.le_trans hend (by decide)),
    Area.get_put_word_of_ne (.inr (by decide)),
    Area.get_put_of_le (Nat.le_trans hend (by decide)),
    Area.get_put_word_of_ne (.inr (by decide)), Area.get_put_word_of_ne (.inr (by decide)),
    Area.get_put_of_le hend, Area.get_put_word_of_ne (.inr (by decide)), Area.get_put_self]

end Filled

/-! ## The payload in the target -/

/-- `remote_code_ptr` for the region that `mmap` made. -/
def Mapping.code (m : Mapping) : Word := m.base + 0x3C00

/-- The memory of the target when the payload has been written, every request
succeeding. -/
def injected (m : Mapping) (mem : Mem) (local_code_ptr : Word) (imports : Imports)
    (original_regs : PtRegs) (args : Args) : Mem :=
  ptrace_writedata allOk mem m.code
    (payload local_code_ptr m.code imports original_regs args)

section Injected

variable {m : Mapping} {mem : Mem} {local_code_ptr : Word} {imports : Imports} {regs : PtRegs}
  {args : Args} {o n : ℕ}

theorem Mapping.toNat_code (m : Mapping) : m.code.toNat = m.base.toNat + 0x3C00 := by
  have hfits := m.fits
  unfold Mapping.code
  rw [BitVec.toNat_add]
  exact Nat.mod_eq_of_lt (by show m.base.toNat + 0x3C00 < 2 ^ 32; omega)

/-- A part of the copied bytes has the address it had in the area. -/
theorem toNat_code_add (h : o ≤ 0x400) :
    (m.code + BitVec.ofNat 32 o).toNat = m.code.toNat + o := by
  have hfits := m.fits
  have hcode := m.toNat_code
  rw [BitVec.toNat_add, BitVec.toNat_ofNat, Nat.mod_eq_of_lt (b := 2 ^ 32) (by omega),
    Nat.mod_eq_of_lt (by omega)]

@[simp] theorem length_payload {r : Word} :
    (payload local_code_ptr r imports regs args).length = 0x400 := Area.length_get

/-- The copied bytes are those of the area. -/
theorem read_injected (m : Mapping) (mem : Mem) (h : o + n ≤ 0x400) :
    read (injected m mem local_code_ptr imports regs args) (m.code + BitVec.ofNat 32 o) n
      = (fillArea local_code_ptr m.code imports regs args).get o n := by
  unfold injected
  rw [ptrace_writedata_allOk (by rw [length_payload]; omega),
    read_write_slice (by rw [length_payload]; omega) (by rw [length_payload]; omega)]
  unfold payload
  rw [Area.take_drop_get h, Nat.zero_add]

/-- A word of the area. -/
theorem loadWord_injected {v : Word} (h : o + 4 ≤ 0x400)
    (hget : (fillArea local_code_ptr m.code imports regs args).get o 4 = chars v) :
    loadWord (injected m mem local_code_ptr imports regs args) (m.code + BitVec.ofNat 32 o)
      = v := by
  unfold loadWord
  rw [read_injected m mem h, hget, ofChars_chars]

end Injected

/-! ## The layout -/

/-- Data in the memory of the target: where a word of the stub says it is, and
what should be there. -/
structure Part where
  addr : Word
  data : Data

/-- The address `x` belongs to the part. -/
def Part.Covers (p : Part) (x : ℕ) : Prop :=
  p.addr.toNat ≤ x ∧ x < p.addr.toNat + p.data.length

/-- The four parts of the payload, each at the address that its word in the
target's copy of the stub holds. -/
def parts (m : Mapping) (mem' : Mem) (regs : PtRegs) (args : Args) : List Part :=
  [⟨loadWord mem' (m.code + BitVec.ofNat 32 _dlopen_param1_s), cString args.library_path⟩,
   ⟨loadWord mem' (m.code + BitVec.ofNat 32 _dlsym_param2_s), cString args.function_name⟩,
   ⟨loadWord mem' (m.code + BitVec.ofNat 32 _saved_r0_pc_s), regsImage regs⟩,
   ⟨loadWord mem' (m.code + BitVec.ofNat 32 _inject_function_param_s), args.param⟩]

/-- The parts do not overlap, lie inside the 0x400 bytes copied and inside the
mapping, and hold their data. -/
structure LaidOut (m : Mapping) (mem' : Mem) (ps : List Part) : Prop where
  disjoint : ps.Pairwise fun p q => ∀ x, ¬ (p.Covers x ∧ q.Covers x)
  copied : ∀ p ∈ ps, m.code.toNat ≤ p.addr.toNat ∧
    p.addr.toNat + p.data.length ≤ m.code.toNat + 0x400
  mapped : ∀ p ∈ ps, m.base.toNat ≤ p.addr.toNat ∧
    p.addr.toNat + p.data.length ≤ m.base.toNat + 0x4000
  holds : ∀ p ∈ ps, read mem' p.addr p.data.length = p.data

section Layout

variable {m : Mapping} {mem : Mem} {local_code_ptr : Word} {imports : Imports} {regs : PtRegs}
  {args : Args}

/-- The addresses in the words of the stub. -/
theorem parts_injected :
    parts m (injected m mem local_code_ptr imports regs args) regs args =
      [⟨m.code + BitVec.ofNat 32 dlopen_param1, cString args.library_path⟩,
       ⟨m.code + BitVec.ofNat 32 dlsym_param2, cString args.function_name⟩,
       ⟨m.code + BitVec.ofNat 32 saved_r0_pc, regsImage regs⟩,
       ⟨m.code + BitVec.ofNat 32 inject_param, args.param⟩] := by
  unfold parts
  rw [loadWord_injected (by decide) get_dlopen_param1,
    loadWord_injected (by decide) get_dlsym_param2,
    loadWord_injected (by decide) get_saved_r0_pc,
    loadWord_injected (by decide) get_inject_function_param]

/-- The parts fit: each string leaves its MAX_PATH bytes, and the parameter the
100 that are left of the 0x400. -/
structure Args.Fits (args : Args) : Prop where
  library_path : (cString args.library_path).length ≤ MAX_PATH
  function_name : (cString args.function_name).length ≤ MAX_PATH
  param : args.param.length ≤ 100

theorem cString_length_pos (s : Data) : 0 < (cString s).length := by
  simp [cString]

/-- The addresses of the parts as numbers. -/
theorem toNat_parts :
    (m.code + BitVec.ofNat 32 dlopen_param1).toNat = m.code.toNat + 0x9C ∧
    (m.code + BitVec.ofNat 32 dlsym_param2).toNat = m.code.toNat + 0x19C ∧
    (m.code + BitVec.ofNat 32 saved_r0_pc).toNat = m.code.toNat + 0x29C ∧
    (m.code + BitVec.ofNat 32 inject_param).toNat = m.code.toNat + 0x39C :=
  ⟨toNat_code_add (by decide), toNat_code_add (by decide), toNat_code_add (by decide),
    toNat_code_add (by decide)⟩

/-- What fits is laid out. -/
theorem Args.Fits.laidOut (h : args.Fits) :
    LaidOut m (injected m mem local_code_ptr imports regs args)
      (parts m (injected m mem local_code_ptr imports regs args) regs args) := by
  rcases toNat_parts (m := m) with ⟨h1, h2, h3, h4⟩
  rcases h with ⟨hlib, hfn, hparam⟩
  have hcode := m.toNat_code
  have hregs : (regsImage regs).length = 64 := length_regsImage regs
  have hmax : MAX_PATH = 0x100 := rfl
  have hcopied : ∀ p ∈ parts m (injected m mem local_code_ptr imports regs args) regs args,
      m.code.toNat ≤ p.addr.toNat ∧ p.addr.toNat + p.data.length ≤ m.code.toNat + 0x400 := by
    rw [parts_injected]
    simp only [List.mem_cons, List.not_mem_nil, or_false, forall_eq_or_imp, forall_eq]
    omega
  constructor
  case disjoint =>
    rw [parts_injected]
    simp only [List.pairwise_cons, List.mem_cons, List.not_mem_nil, or_false, forall_eq_or_imp,
      forall_eq, Part.Covers, IsEmpty.forall_iff, implies_true, List.Pairwise.nil, and_true]
    refine ⟨⟨?_, ?_, ?_⟩, ⟨?_, ?_⟩, ?_⟩ <;>
    · intro x
      omega
  case copied => exact hcopied
  case mapped =>
    intro p hp
    have hp' := hcopied p hp
    omega
  case holds =>
    rw [parts_injected]
    simp only [List.mem_cons, List.not_mem_nil, or_false, forall_eq_or_imp, forall_eq]
    refine ⟨?_, ?_, ?_, ?_⟩
    · rw [read_injected m mem (by show 0x9C + _ ≤ 0x400; omega), get_library_path hlib]
    · rw [read_injected m mem (by show 0x19C + _ ≤ 0x400; omega), get_function_name hfn]
    · rw [hregs, read_injected m mem (by show 0x29C + _ ≤ 0x400; omega), get_saved_regs]
    · rw [read_injected m mem (by show 0x39C + _ ≤ 0x400; omega), get_param]

/-- What is laid out fits. -/
theorem LaidOut.fits (h : LaidOut m (injected m mem local_code_ptr imports regs args)
    (parts m (injected m mem local_code_ptr imports regs args) regs args)) : args.Fits := by
  rw [parts_injected] at h
  have hcode := m.toNat_code
  have hfits := m.fits
  rcases toNat_parts (m := m) with ⟨h1, h2, h3, h4⟩
  have hdisj := h.disjoint
  simp only [List.pairwise_cons, List.mem_cons, List.not_mem_nil, or_false, forall_eq_or_imp,
    forall_eq] at hdisj
  rcases hdisj with ⟨⟨hlib, _⟩, ⟨hfn, _⟩, _⟩
  constructor
  · -- a longer path runs into the function name
    by_contra hlong
    apply hlib (m.code.toNat + 0x19C)
    simp only [Part.Covers, h1, h2, MAX_PATH] at hlong ⊢
    have hpos := cString_length_pos args.function_name
    omega
  · -- a longer name runs into the saved registers
    by_contra hlong
    apply hfn (m.code.toNat + 0x29C)
    simp only [Part.Covers, h2, h3, length_regsImage, MAX_PATH] at hlong ⊢
    omega
  · have hcopied := (h.copied ⟨m.code + BitVec.ofNat 32 inject_param, args.param⟩ (by simp)).2
    simp only [h4] at hcopied
    omega

end Layout

/-- The parts are laid out exactly when they fit: nothing checks that they do,
and the copy ends 100 bytes behind the place of the parameter. -/
theorem laidOut_iff_fits (m : Mapping) (mem : Mem) (local_code_ptr : Word) (imports : Imports)
    (regs : PtRegs) (args : Args) :
    LaidOut m (injected m mem local_code_ptr imports regs args)
      (parts m (injected m mem local_code_ptr imports regs args) regs args) ↔
    (cString args.library_path).length ≤ MAX_PATH ∧
      (cString args.function_name).length ≤ MAX_PATH ∧ args.param.length ≤ 100 := by
  constructor
  · intro h
    rcases h.fits with ⟨hlib, hfn, hparam⟩
    exact ⟨hlib, hfn, hparam⟩
  · rintro ⟨hlib, hfn, hparam⟩
    exact Args.Fits.laidOut ⟨hlib, hfn, hparam⟩

/-- A region at 0x40000000. -/
def Mapping.sample : Mapping where
  base := 0x40000000
  aligned := by decide
  fits := by decide

/-- A parameter of 101 bytes is not copied whole. -/
theorem not_laidOut_long_param :
    ¬ LaidOut .sample
      (injected .sample (fun _ => 0) 0x10000 ⟨0, 0, 0⟩ (fun _ => 0)
        ⟨[97], [98], List.replicate 101 7⟩)
      (parts .sample
        (injected .sample (fun _ => 0) 0x10000 ⟨0, 0, 0⟩ (fun _ => 0)
          ⟨[97], [98], List.replicate 101 7⟩) (fun _ => 0)
        ⟨[97], [98], List.replicate 101 7⟩) := by
  intro h
  have hparam := h.fits.param
  rw [List.length_replicate] at hparam
  omega

end Inject
