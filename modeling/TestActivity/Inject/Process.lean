import Mathlib.Data.List.Infix
import TestActivity.Inject.Payload

/-!
# Injecting into a process

`inject_remote_process` of `inject.c`: attach, make the target call `mmap`,
write the payload into the new region and let the target go at its start.

The outcome of every step the function cannot decide is a field of `Env`: what
each `ptrace` request answers, the state in which the target stops, what `mmap`
made, and what the maps files say. After the first call of `ptrace_getregs` a
failure leads to `exit`, which neither writes the registers back nor detaches.
-/

namespace Inject

open Memory

/-! ## Addresses in the target -/

/-- A line of a maps file: the number in front of its first `-`, and its text. -/
structure MapLine where
  start : Word
  text : Data

/-- `get_module_base`, on the lines of the maps file if it could be opened. -/
def get_module_base (maps : Option (List MapLine)) (module_name : Data) : Word :=
  match maps with
  | none => 0
  | some lines =>
      match lines.find? fun line => decide (module_name <:+: line.text) with
      | none => 0
      | some line => if line.start = 0x8000 then 0 else line.start

/-- The maps files of the two processes at the time of a call. -/
structure Maps where
  self : Option (List MapLine)
  target : Option (List MapLine)

/-- `get_remote_addr`. -/
def get_remote_addr (maps : Maps) (module_name : Data) (local_addr : Word) : Word :=
  let local_handle := get_module_base maps.self module_name
  let remote_handle := get_module_base maps.target module_name
  local_addr + remote_handle - local_handle

/-- A path as bytes. -/
def path (s : String) : Data := s.toList.map fun c => BitVec.ofNat 8 c.toNat

def libc_path : Data := path "/system/lib/libc.so"
def linker_path : Data := path "/system/bin/linker"

/-! ## The outcomes of the steps -/

/-- Addresses in the injecting process. -/
structure Locals where
  mmap : Word
  dlopen : Word
  dlsym : Word
  dlclose : Word
  inject_start : Word

structure Env where
  locals : Locals
  /-- The maps files at the four calls of `get_remote_addr`. -/
  maps : Fin 4 → Maps
  /-- The target when it is left alone. -/
  before : Target
  /-- `PTRACE_ATTACH`, and the state in which it stops the target. -/
  attach : Bool
  firstStop : Target
  /-- `PTRACE_SYSCALL`, and the next stop. -/
  syscall : Bool
  secondStop : Target
  getregs : Bool
  /-- The call of `mmap`; the stop it ends with has the region that was made. -/
  call : CallOutcome
  getregs' : Bool
  /-- `PTRACE_POKETEXT` for each word of the payload. -/
  write : ℕ → Bool
  setregs : Bool
  detach : Bool

/-! ## The function -/

/-- `ptrace_attach`. -/
def ptrace_attach (e : Env) : ℤ × Target :=
  if !e.attach then (-1, { e.before with status := .untraced })
  else if !e.syscall then (-1, { e.firstStop with status := .stopped })
  else (0, { e.secondStop with status := .stopped })

/-- `ptrace_getregs`: 0 and the registers, or -1. -/
def ptrace_getregs (ok : Bool) (t : Target) : ℤ × PtRegs :=
  if ok then (0, t.regs) else (-1, t.regs)

/-- `ptrace_detach`. -/
def ptrace_detach (ok : Bool) (t : Target) : ℤ × Target :=
  if ok then (0, { t with status := .detached }) else (-1, t)

/-- The parameters of `mmap`: 0x4000 bytes, PROT_READ | PROT_WRITE | PROT_EXEC,
MAP_ANONYMOUS | MAP_PRIVATE. -/
def mmapParams : List Word := [0, 0x4000, 7, 0x22, 0, 0]

/-- The addresses that go into the stub. -/
def imports (e : Env) : Imports where
  dlopen := get_remote_addr (e.maps 1) linker_path e.locals.dlopen
  dlsym := get_remote_addr (e.maps 2) linker_path e.locals.dlsym
  dlclose := get_remote_addr (e.maps 3) linker_path e.locals.dlclose

/-- The registers the target is left with. -/
def startRegs (original_regs : PtRegs) (remote_code_ptr : Word) : PtRegs :=
  Function.update (Function.update original_regs ARM_sp remote_code_ptr) ARM_pc remote_code_ptr

/-- The part behind the call of `mmap`, which looks at no result: write the
payload, set the registers, detach. -/
def place (e : Env) (args : Args) (original_regs regs : PtRegs) (t : Target) : Target :=
  let map_base := regs ARM_r0
  let remote_code_ptr := map_base + 0x3C00
  let code := payload e.locals.inject_start remote_code_ptr (imports e) original_regs args
  let t := { t with mem := ptrace_writedata e.write t.mem remote_code_ptr code }
  let t := (ptrace_setregs e.setregs (startRegs original_regs remote_code_ptr) t).2
  (ptrace_detach e.detach t).2

/-- `inject_remote_process`: what it returns, and the target. -/
def inject_remote_process (e : Env) (args : Args) : ℤ × Target :=
  let attached := ptrace_attach e
  -- EXIT_SUCCESS
  if attached.1 = -1 then (0, attached.2) else
  let t := attached.2
  let got := ptrace_getregs e.getregs t
  if got.1 = -1 then (-1, t) else
  let original_regs := got.2
  let mmap_addr := get_remote_addr (e.maps 0) libc_path e.locals.mmap
  let called := ptrace_call e.call mmap_addr mmapParams original_regs t
  if called.1 = -1 then (-1, called.2.2) else
  let t := called.2.2
  let got := ptrace_getregs e.getregs' t
  if got.1 = -1 then (-1, t) else
  (0, place e args original_regs got.2 t)

/-! ## The two ways it ends -/

/-- The registers of the target when it was stopped. -/
def originalRegs (e : Env) : PtRegs := if e.syscall then e.secondStop.regs else e.firstStop.regs

/-- The steps whose results are looked at all succeed. -/
def Env.called (e : Env) : Prop :=
  e.attach = true ∧ e.syscall = true ∧ e.getregs = true ∧ e.call.setregs = true ∧
    e.call.cont = true ∧ e.getregs' = true

/-- The target when `mmap` has returned. -/
def Env.mmapStop (e : Env) : Target := { e.call.stop with status := .stopped }

variable {e : Env} {args : Args}

/-- A call either fails, with the target not detached, or ends with the stop. -/
theorem ptrace_call_cases (o : CallOutcome) (addr : Word) (params : List Word) (regs : PtRegs)
    (t : Target) :
    (o.setregs = true ∧ o.cont = true ∧ (ptrace_call o addr params regs t).1 = 0 ∧
      (ptrace_call o addr params regs t).2.2 = { o.stop with status := .stopped }) ∨
    (¬ (o.setregs = true ∧ o.cont = true) ∧ (ptrace_call o addr params regs t).1 = -1 ∧
      (ptrace_call o addr params regs t).2.2.status = t.status) := by
  unfold ptrace_call ptrace_call.resume ptrace_setregs ptrace_continue
  by_cases hset : o.setregs
  · by_cases hcont : o.cont
    · left
      simp [hset, hcont]
    · right
      simp [hset, hcont]
  · right
    simp [hset]

/-- When one of those steps fails, the target is not detached; and either the
function says 0 or the target had been attached. -/
theorem inject_of_not_called (args : Args) (h : ¬ e.called) :
    (inject_remote_process e args).2.status ≠ .detached ∧
    ((inject_remote_process e args).1 = 0 ∨ e.attach = true) := by
  unfold inject_remote_process ptrace_attach
  by_cases hattach : e.attach
  · by_cases hsyscall : e.syscall
    · by_cases hget : e.getregs
      · rcases ptrace_call_cases e.call
          (get_remote_addr (e.maps 0) libc_path e.locals.mmap) mmapParams e.secondStop.regs
          { e.secondStop with status := .stopped } with
          ⟨hset, hcont, hret, hstop⟩ | ⟨_, hret, hstatus⟩
        · -- `mmap` was called, so the second `ptrace_getregs` fails
          have hget' : e.getregs' = false := by
            by_contra hne
            exact h ⟨hattach, hsyscall, hget, hset, hcont, by simpa using hne⟩
          simp [hattach, hsyscall, hget, ptrace_getregs, hret, hstop, hget']
        · simp [hattach, hsyscall, hget, ptrace_getregs, hret, hstatus]
      · simp [hattach, hsyscall, hget, ptrace_getregs]
    · simp [hattach, hsyscall]
  · simp [hattach]

/-- When they succeed, the function returns 0, whatever the rest does. -/
theorem inject_of_called (h : e.called) :
    inject_remote_process e args =
      (0, place e args e.secondStop.regs e.mmapStop.regs e.mmapStop) := by
  rcases h with ⟨hattach, hsyscall, hget, hset, hcont, hget'⟩
  rcases ptrace_call_cases e.call (get_remote_addr (e.maps 0) libc_path e.locals.mmap)
      mmapParams e.secondStop.regs { e.secondStop with status := .stopped } with
    ⟨_, _, hret, hstop⟩ | ⟨hno, _, _⟩
  · unfold inject_remote_process ptrace_attach
    simp [hattach, hsyscall, hget, ptrace_getregs, hret, hstop, hget', Env.mmapStop]
  · exact absurd ⟨hset, hcont⟩ hno

/-! ## All or nothing -/

/-- The code the target gets when `m` is the region. -/
def Env.code (e : Env) (args : Args) (m : Mapping) : Data :=
  payload e.locals.inject_start m.code (imports e) e.secondStop.regs args

/-- `mmap` really made a region and returned it, the payload is in it, and the
target goes on at the payload. -/
def Injected (e : Env) (args : Args) (t : Target) : Prop :=
  ∃ m : Mapping, e.mmapStop.region = some m ∧ m.base = e.mmapStop.regs ARM_r0 ∧
    read t.mem m.code 0x400 = e.code args m ∧ t.regs ARM_pc = m.code ∧ t.status = .detached

/-- The function returns 0 only after an injection, and a target it had
attached and not injected has its registers back and is detached. -/
def AllOrNothing (e : Env) (args : Args) : Prop :=
  let r := inject_remote_process e args
  (r.1 = 0 → Injected e args r.2) ∧
  (e.attach = true → ¬ Injected e args r.2 →
    r.2.regs = originalRegs e ∧ r.2.status = .detached)

/-- The words of the payload arrive in the region: each is written, or was
there already. -/
def Env.Written (e : Env) (args : Args) (m : Mapping) : Prop :=
  ∀ i < 0x100, e.write i = true ∨
    read e.mmapStop.mem (m.code + BitVec.ofNat 32 (4 * i)) 4
      = ((e.code args m).drop (4 * i)).take 4

/-- Nothing goes wrong: the requests up to the second `ptrace_getregs` are
granted, `mmap` makes a region and returns it, the payload arrives, the
registers are set, and the target is detached. -/
structure Env.Granted (e : Env) (args : Args) : Prop where
  called : e.called
  mapped : ∃ m : Mapping, e.mmapStop.region = some m ∧ m.base = e.mmapStop.regs ARM_r0 ∧
    e.Written args m ∧ (e.setregs = true ∨ e.mmapStop.regs ARM_pc = m.code)
  detach : e.detach = true

/-- What `place` leaves behind. -/
theorem place_spec (e : Env) (args : Args) (original_regs : PtRegs) (t : Target) :
    (place e args original_regs t.regs t).mem =
        ptrace_writedata e.write t.mem (t.regs ARM_r0 + 0x3C00)
          (payload e.locals.inject_start (t.regs ARM_r0 + 0x3C00) (imports e) original_regs
            args) ∧
    (place e args original_regs t.regs t).regs =
        (if e.setregs then startRegs original_regs (t.regs ARM_r0 + 0x3C00) else t.regs) ∧
    ((place e args original_regs t.regs t).status = .detached ↔
      e.detach = true ∨ t.status = .detached) := by
  unfold place ptrace_setregs ptrace_detach
  by_cases hset : e.setregs
  · by_cases hdet : e.detach
    · simp [hset, hdet]
    · simp [hset, hdet]
  · by_cases hdet : e.detach
    · simp [hset, hdet]
    · simp [hset, hdet]

/-- What it leaves when the last two requests are granted. -/
theorem place_of_granted {original_regs regs : PtRegs} {t : Target}
    (hset : e.setregs = true) (hdetach : e.detach = true) :
    place e args original_regs regs t =
      ⟨startRegs original_regs (regs ARM_r0 + 0x3C00),
        ptrace_writedata e.write t.mem (regs ARM_r0 + 0x3C00)
          (payload e.locals.inject_start (regs ARM_r0 + 0x3C00) (imports e) original_regs args),
        t.region, .detached⟩ := by
  simp only [place, ptrace_setregs, ptrace_detach, hset, hdetach, if_true]

theorem startRegs_pc (regs : PtRegs) (r : Word) : startRegs regs r ARM_pc = r := by
  simp [startRegs]

/-- The bytes of the region are the payload exactly when each word arrives. -/
theorem read_place_iff {m : Mapping} (hbase : m.base = e.mmapStop.regs ARM_r0) :
    read (place e args e.secondStop.regs e.mmapStop.regs e.mmapStop).mem m.code 0x400
      = e.code args m ↔ e.Written args m := by
  rcases place_spec e args e.secondStop.regs e.mmapStop with ⟨hmem, _, _⟩
  have hlen : (e.code args m).length = 0x400 := length_payload
  have hiff : read (ptrace_writedata e.write e.mmapStop.mem m.code (e.code args m)) m.code
      (e.code args m).length = e.code args m ↔ _ :=
    read_ptrace_writedata_iff (by rw [hlen]) (by rw [hlen]; omega)
  rw [hlen] at hiff
  rw [hmem, ← hbase]
  exact hiff

/-- After the call of `mmap`, the injection is what the later steps make it. -/
theorem injected_place_iff :
    Injected e args (place e args e.secondStop.regs e.mmapStop.regs e.mmapStop) ↔
      (∃ m : Mapping, e.mmapStop.region = some m ∧ m.base = e.mmapStop.regs ARM_r0 ∧
        e.Written args m ∧ (e.setregs = true ∨ e.mmapStop.regs ARM_pc = m.code)) ∧
      e.detach = true := by
  rcases place_spec e args e.secondStop.regs e.mmapStop with ⟨_, hregs, hstatus⟩
  have hstopped : e.mmapStop.status ≠ .detached := by simp [Env.mmapStop]
  have hdet : (place e args e.secondStop.regs e.mmapStop.regs e.mmapStop).status = .detached ↔
      e.detach = true := by
    rw [hstatus]
    exact or_iff_left hstopped
  have hpc : ∀ m : Mapping, m.base = e.mmapStop.regs ARM_r0 →
      ((place e args e.secondStop.regs e.mmapStop.regs e.mmapStop).regs ARM_pc = m.code ↔
        e.setregs = true ∨ e.mmapStop.regs ARM_pc = m.code) := by
    intro m hbase
    rw [hregs, ← hbase]
    by_cases hset : e.setregs
    · rw [if_pos hset, startRegs_pc]
      exact ⟨fun _ => .inl hset, fun _ => rfl⟩
    · rw [if_neg hset]
      exact ⟨.inr, fun h => h.resolve_left hset⟩
  constructor
  · rintro ⟨m, hregion, hbase, hread, hat, hstat⟩
    exact ⟨⟨m, hregion, hbase, (read_place_iff hbase).mp hread, (hpc m hbase).mp hat⟩,
      hdet.mp hstat⟩
  · rintro ⟨⟨m, hregion, hbase, hwritten, hset⟩, hdetach⟩
    exact ⟨m, hregion, hbase, (read_place_iff hbase).mpr hwritten, (hpc m hbase).mpr hset,
      hdet.mpr hdetach⟩

/-- All or nothing, when a result is looked at and is a failure: never. -/
theorem not_allOrNothing (h : ¬ e.called) : ¬ AllOrNothing e args := by
  rcases inject_of_not_called args h with ⟨hstatus, hreport⟩
  have hnot : ¬ Injected e args (inject_remote_process e args).2 := by
    rintro ⟨m, _, _, _, _, hdetached⟩
    exact hstatus hdetached
  rintro ⟨hzero, hback⟩
  -- a 0 promises the injection, and an attached target must have been detached
  rcases hreport with hret | hattach
  · exact hnot (hzero hret)
  · exact hstatus (hback hattach hnot).2

/-- All or nothing forces every step to succeed. -/
theorem AllOrNothing.granted (h : AllOrNothing e args) : e.Granted args := by
  have hcalled : e.called := by
    by_contra hno
    exact not_allOrNothing hno h
  have hinj := h.1
  rw [inject_of_called hcalled] at hinj
  rcases injected_place_iff.mp (hinj rfl) with ⟨hmapped, hdetach⟩
  exact ⟨hcalled, hmapped, hdetach⟩

/-- The function injects all or nothing exactly when nothing goes wrong: there
is no step whose failure it cleans up after. -/
theorem allOrNothing_iff_granted (e : Env) (args : Args) :
    AllOrNothing e args ↔ e.Granted args := by
  constructor
  · intro h
    exact h.granted
  · intro h
    have hinj : Injected e args (inject_remote_process e args).2 := by
      rw [inject_of_called h.called]
      exact injected_place_iff.mpr ⟨h.mapped, h.detach⟩
    exact ⟨fun _ => hinj, fun _ hno => absurd hinj hno⟩

/-- Every request is granted. -/
def Env.ofStops (before secondStop mmapStop : Target) (write : ℕ → Bool) : Env where
  locals := ⟨0x1000, 0x2000, 0x3000, 0x4000, 0x10000⟩
  maps := fun _ => ⟨none, none⟩
  before := before
  attach := true
  firstStop := before
  syscall := true
  secondStop := secondStop
  getregs := true
  call := .granted mmapStop
  getregs' := true
  write := write
  setregs := true
  detach := true

/-- A target that is stopped with its registers full of zeros. -/
def Target.zeros : Target := ⟨fun _ => 0, fun _ => 0, none, .stopped⟩

/-- `mmap` fails in the target and returns -ENOMEM, so that no word can be
written: the function returns 0 all the same. -/
theorem not_allOrNothing_mmap_fails :
    ¬ AllOrNothing
      (.ofStops .zeros .zeros { Target.zeros with regs := fun _ => BitVec.ofInt 32 (-12) }
        fun _ => false)
      ⟨path "/sdcard/libinjectso.so", path "hook_entry", path "I'm parameter!"⟩ := by
  intro h
  rcases h.granted.mapped with ⟨m, hregion, _⟩
  simp [Env.mmapStop, Env.ofStops, CallOutcome.granted, Target.zeros] at hregion

end Inject
