import Dendy.Bus.Tick

/-!
# Work RAM as a mirrored store

The CPU is not among the sources, but `CPU.Tick(b)` and `CPU.Reset(b)` take the bus as a memory and reach it only
through `Read` and `Write`. Such a CPU is one whose cycle and reset are programs of reads and writes (`Access`), run
on the bus by `runAccess`, which goes through `read` and `write` and logs every write it makes; `CPUProgram O` says
that the CPU of `O` is one, and every pair of programs makes one (`withCPU`).

A run of `Write`, `Read`, `Tick` and `Reset` calls (`runCalls`) logs every `Write` made in it, the CPU's during a
tick or a reset included. RAM after the run is the initial RAM with the logged writes to `$0000–$1FFF` stored in
their mirrored cells (`runCalls_ram`): writes above `$1FFF`, OAM DMA, reads, the PPU, the cartridge, the interrupt
lines and `Reset` leave it alone. So a read of `$0000–$1FFF` returns the data of the most recent logged write to the
same cell, or the cell's initial byte (`read_ram_most_recent_write`).
-/

namespace Dendy

namespace Bus

/-- A CPU cycle or the CPU's reset as the bus sees it: reads, continued by the byte each returns; writes; and changes
to the CPU's own state, which may look at that state first. -/
inductive Access (C : Type)
  | done (instrComplete : Bool)
  | read (addr : UInt16) (k : UInt8 → Access C)
  | write (addr : UInt16) (data : UInt8) (k : Access C)
  | update (f : CPUState C → CPUState C) (k : Access C)
  | get (k : CPUState C → Access C)

variable {D : Devices} (O : Ops D)

/-- Runs a CPU program on the bus through `read` and `write`: the bus after it, whether it completed an
instruction, and the writes it made, in order. -/
def runAccess (b : Bus D) : Access D.CPU → Option (Bus D × Bool × List (UInt16 × UInt8))
  | .done instr => some (b, instr, [])
  | .read addr k => (read O b addr).bind fun (v, b) => runAccess b (k v)
  | .write addr data k => (write O b addr data).bind fun b =>
      (runAccess b k).map fun (b, instr, ws) => (b, instr, (addr, data) :: ws)
  | .update f k => runAccess { b with cpu := f b.cpu } k
  | .get k => runAccess b (k b.cpu)

/-- The CPU of `O` reaches the bus only through `Read` and `Write`: its cycle and its reset are programs over the bus,
chosen from the CPU's state when they start. -/
structure CPUProgram where
  cycle : CPUState D.CPU → Access D.CPU
  reset : CPUState D.CPU → Access D.CPU
  cpuTick_eq : ∀ b, O.cpuTick b = (runAccess O b (cycle b.cpu)).map fun r => (r.1, r.2.1)
  cpuReset_eq : ∀ b, O.cpuReset b = (runAccess O b (reset b.cpu)).map (·.1)

/-- A write to `$0000–$1FFF` stores its byte in the mirrored cell; any other write leaves RAM alone. -/
def storeRAM (ram : Fin 0x800 → UInt8) (w : UInt16 × UInt8) : Fin 0x800 → UInt8 :=
  if w.1 ≤ 0x1FFF then Function.update ram (ramIndex w.1) w.2 else ram

def ramAfter (ram : Fin 0x800 → UInt8) (ws : List (UInt16 × UInt8)) : Fin 0x800 → UInt8 :=
  ws.foldl storeRAM ram

@[simp] theorem ramAfter_nil (ram : Fin 0x800 → UInt8) : ramAfter ram [] = ram := rfl
@[simp] theorem ramAfter_cons (ram : Fin 0x800 → UInt8) (w : UInt16 × UInt8) (ws : List (UInt16 × UInt8)) :
    ramAfter ram (w :: ws) = ramAfter (storeRAM ram w) ws := rfl
@[simp] theorem ramAfter_append (ram : Fin 0x800 → UInt8) (ws ws' : List (UInt16 × UInt8)) :
    ramAfter ram (ws ++ ws') = ramAfter (ramAfter ram ws) ws' := List.foldl_append _ _ _ _

/-! ### What each access changes -/

/-- A write changes RAM as `storeRAM` says, OAM DMA included, and leaves the tick counter alone. -/
theorem write_eq_some {b b' : Bus D} {addr : UInt16} {data : UInt8} (h : write O b addr data = some b') :
    b'.ram = storeRAM b.ram (addr, data) ∧ b'.cycles = b.cycles := by
  unfold write at h
  by_cases h1 : addr ≤ 0x1FFF
  · rw [if_pos h1] at h; cases h; exact ⟨(if_pos h1).symm, rfl⟩
  rw [if_neg h1] at h
  rw [storeRAM, if_neg h1]
  by_cases h2 : addr ≤ 0x3FFF
  · rw [if_pos h2] at h; cases h; exact ⟨rfl, rfl⟩
  rw [if_neg h2] at h
  by_cases h3 : addr = 0x4014
  · rw [if_pos h3] at h; exact ⟨(transferOAM_halt O h).2.2, (transferOAM_halt O h).2.1⟩
  rw [if_neg h3] at h
  split_ifs at h <;> cases h <;> exact ⟨rfl, rfl⟩

/-- A CPU program changes RAM by its logged writes only, and leaves the tick counter alone. -/
theorem runAccess_eq_some {b b' : Bus D} {p : Access D.CPU} {instr : Bool} {ws : List (UInt16 × UInt8)}
    (h : runAccess O b p = some (b', instr, ws)) : b'.ram = ramAfter b.ram ws ∧ b'.cycles = b.cycles := by
  induction p generalizing b ws with
  | done i => cases h; exact ⟨rfl, rfl⟩
  | read addr k ih =>
    obtain ⟨⟨v, b₁⟩, h₁, h₂⟩ := Option.bind_eq_some.mp h
    obtain ⟨ppu, joy1, joy2, rfl⟩ := read_eq_some O h₁
    exact (ih v h₂ :)
  | write addr data k ih =>
    obtain ⟨b₁, h₁, h₂⟩ := Option.bind_eq_some.mp h
    obtain ⟨⟨b₂, i, ws'⟩, h₃, h₄⟩ := Option.map_eq_some'.mp h₂
    cases h₄
    obtain ⟨hram, hcyc⟩ := write_eq_some O h₁
    obtain ⟨hram', hcyc'⟩ := ih h₃
    exact ⟨by rw [hram', hram, ramAfter_cons], hcyc'.trans hcyc⟩
  | update f k ih => exact (ih h :)
  | get k ih => exact ih _ h

/-! ### CPUs made of programs -/

/-- The devices of `O` with the CPU whose cycle and reset are the given programs. -/
def withCPU (cycle reset : CPUState D.CPU → Access D.CPU) : Ops D :=
  { O with
    cpuTick := fun b => (runAccess O b (cycle b.cpu)).map fun r => (r.1, r.2.1)
    cpuReset := fun b => (runAccess O b (reset b.cpu)).map (·.1)
    cpuTick_cycles := fun _ _ h => by
      obtain ⟨_, hr, rfl⟩ := Option.map_eq_some'.mp h
      exact (runAccess_eq_some O hr).2 }

section WithCPU

variable (cycle reset : CPUState D.CPU → Access D.CPU)

theorem read_withCPU : read (withCPU O cycle reset) = read O := rfl
theorem write_withCPU : write (withCPU O cycle reset) = write O := rfl

/-- `Read` and `Write` use the PPU, the cartridge and the zapper only, so a program runs the same whatever the CPU. -/
theorem runAccess_withCPU (b : Bus D) (p : Access D.CPU) :
    runAccess (withCPU O cycle reset) b p = runAccess O b p := by
  induction p generalizing b with
  | done i => rfl
  | read addr k ih => simp only [runAccess, read_withCPU, ih]
  | write addr data k ih => simp only [runAccess, write_withCPU, ih]
  | update f k ih => simp only [runAccess, ih]
  | get k ih => simp only [runAccess, ih]

def withCPU_program : CPUProgram (withCPU O cycle reset) where
  cycle := cycle
  reset := reset
  cpuTick_eq b := by rw [runAccess_withCPU]; rfl
  cpuReset_eq b := by rw [runAccess_withCPU]; rfl

end WithCPU

/-! ### Runs of calls -/

inductive BusCall
  | write (addr : UInt16) (data : UInt8)
  | read (addr : UInt16)
  | tick
  | reset
  deriving DecidableEq, Repr

variable {O} (P : CPUProgram O)

/-- The writes the CPU makes during a tick: those of its cycle, when the counter reaches a multiple of 3. -/
def tickWrites (b : Bus D) : List (UInt16 × UInt8) :=
  let b := { b with cycles := b.cycles + 1, ppu := O.ppuTick b.ppu }
  if b.cycles % 3 = 0 then ((runAccess O b (P.cycle b.cpu)).map (·.2.2)).getD [] else []

def resetWrites (b : Bus D) : List (UInt16 × UInt8) :=
  ((runAccess O { b with cart := O.cartReset b.cart } (P.reset b.cpu)).map (·.2.2)).getD []

/-- A run of calls: the bus after it, and every `Write` made in it in order, the calls' own and the CPU's. -/
def runCalls (b : Bus D) : List BusCall → Option (Bus D × List (UInt16 × UInt8))
  | [] => some (b, [])
  | .write addr data :: cs =>
    (write O b addr data).bind fun b => (runCalls b cs).map fun (b, ws) => (b, (addr, data) :: ws)
  | .read addr :: cs => (read O b addr).bind fun (_, b) => runCalls b cs
  | .tick :: cs => (tick O b).bind fun (b', _) => (runCalls b' cs).map fun (b'', ws) => (b'', tickWrites P b ++ ws)
  | .reset :: cs => (reset O b).bind fun b' => (runCalls b' cs).map fun (b'', ws) => (b'', resetWrites P b ++ ws)

theorem tick_ram {b b' : Bus D} {info : TickInfo} {calls : List Call} (h : tick O b = some (b', info, calls)) :
    b'.ram = ramAfter b.ram (tickWrites P b) := by
  obtain ⟨⟨a, instr, cs⟩, ha, h⟩ := Option.map_eq_some'.mp h
  cases h
  simp only [drainFrame_ram, drainScanline_ram, drainNMI_ram]
  unfold advance at ha
  unfold tickWrites
  dsimp only at ha ⊢
  split_ifs at ha ⊢
  · rw [P.cpuTick_eq, Option.map_map] at ha
    obtain ⟨⟨b₂, i, ws⟩, hr, h⟩ := Option.map_eq_some'.mp ha
    cases h
    rw [hr]
    exact (runAccess_eq_some O hr).1
  · cases ha; rfl

theorem reset_ram {b b' : Bus D} (h : reset O b = some b') : b'.ram = ramAfter b.ram (resetWrites P b) := by
  obtain ⟨b₁, h₁, h₂⟩ := Option.bind_eq_some.mp h
  cases h₂
  rw [P.cpuReset_eq] at h₁
  obtain ⟨⟨b₂, i, ws⟩, hr, h⟩ := Option.map_eq_some'.mp h₁
  cases h
  rw [resetWrites, hr]
  exact (runAccess_eq_some O hr).1

/-- RAM after a run is the initial RAM with the run's logged writes stored. -/
theorem runCalls_ram {b b' : Bus D} {cs : List BusCall} {ws : List (UInt16 × UInt8)}
    (h : runCalls P b cs = some (b', ws)) : b'.ram = ramAfter b.ram ws := by
  induction cs generalizing b ws with
  | nil => cases h; rfl
  | cons c cs ih =>
    cases c with
    | write addr data =>
      obtain ⟨b₁, h₁, h₂⟩ := Option.bind_eq_some.mp h
      obtain ⟨⟨b₂, ws'⟩, h₃, h₄⟩ := Option.map_eq_some'.mp h₂
      cases h₄
      rw [ih h₃, (write_eq_some O h₁).1, ramAfter_cons]
    | read addr =>
      obtain ⟨⟨v, b₁⟩, h₁, h₂⟩ := Option.bind_eq_some.mp h
      obtain ⟨ppu, joy1, joy2, rfl⟩ := read_eq_some O h₁
      exact (ih h₂ :)
    | tick =>
      obtain ⟨⟨b₁, info, calls⟩, h₁, h₂⟩ := Option.bind_eq_some.mp h
      obtain ⟨⟨b₂, ws'⟩, h₃, h₄⟩ := Option.map_eq_some'.mp h₂
      cases h₄
      rw [ih h₃, tick_ram P h₁, ramAfter_append]
    | reset =>
      obtain ⟨b₁, h₁, h₂⟩ := Option.bind_eq_some.mp h
      obtain ⟨⟨b₂, ws'⟩, h₃, h₄⟩ := Option.map_eq_some'.mp h₂
      cases h₄
      rw [ih h₃, reset_ram P h₁, ramAfter_append]

/-! ### The mirrored store -/

/-- From the spec: the data of the most recent write `(b, d)` of a log with `b ≤ 0x1FFF` and
`b mod 0x800 = a mod 0x800`. -/
def mostRecentWrite (ws : List (UInt16 × UInt8)) (a : UInt16) : Option UInt8 :=
  (ws.reverse.find? fun w => w.1 ≤ 0x1FFF && w.1.toNat % 0x800 == a.toNat % 0x800).map (·.2)

/-- A cell of RAM after a log of writes holds the data of the most recent write to it, or what it held before. -/
theorem ramAfter_ramIndex (ram : Fin 0x800 → UInt8) (ws : List (UInt16 × UInt8)) (a : UInt16) :
    ramAfter ram ws (ramIndex a) = (mostRecentWrite ws a).getD (ram (ramIndex a)) := by
  induction ws generalizing ram with
  | nil => rfl
  | cons w ws ih =>
    rw [ramAfter_cons, ih]
    simp only [mostRecentWrite, List.reverse_cons, List.find?_append, List.find?_singleton, Option.map_or]
    cases (ws.reverse.find? fun w => w.1 ≤ 0x1FFF && w.1.toNat % 0x800 == a.toNat % 0x800) with
    | some w' => rfl
    | none =>
      have hcell : ramIndex a = ramIndex w.1 ↔ w.1.toNat % 0x800 = a.toNat % 0x800 := by
        rw [Fin.ext_iff, eq_comm]; rfl
      by_cases h1 : w.1 ≤ 0x1FFF <;> by_cases h2 : w.1.toNat % 0x800 = a.toNat % 0x800 <;>
        simp [storeRAM, Function.update_apply, hcell, h1, h2]

/-- Work RAM is a mirrored store: after any run of calls, a read of `$0000–$1FFF` returns, and changes nothing, the
data of the most recent write to the same cell mod `$0800`, the CPU's writes included, or what the cell held before. -/
theorem read_ram_most_recent_write {b₀ b : Bus D} {cs : List BusCall} {ws : List (UInt16 × UInt8)}
    (h : runCalls P b₀ cs = some (b, ws)) {a : UInt16} (ha : a ≤ 0x1FFF) :
    read O b a = some ((mostRecentWrite ws a).getD (b₀.ram (ramIndex a)), b) := by
  rw [read, if_pos ha, runCalls_ram P h, ramAfter_ramIndex]

def storeOps : Ops unitDevices := withCPU busyOps (fun _ => .write 0x0805 7 (.done true)) (fun _ => .done false)

def storeProgram : CPUProgram storeOps := withCPU_program busyOps _ _

def storeCalls : List BusCall := [.tick, .write 0x2000 1, .write 0x4020 3, .reset]

theorem read_ram_most_recent_write_store :
    ∃ b ws, runCalls storeProgram idleBus storeCalls = some (b, ws) ∧ (0x1805 : UInt16) ≤ 0x1FFF ∧
      read storeOps b 0x1805 = some (7, b) :=
  ⟨_, _, rfl, by decide, @read_ram_most_recent_write _ _ storeProgram idleBus _ storeCalls _ rfl _ (by decide)⟩

end Bus

end Dendy
