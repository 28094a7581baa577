import Dendy.Word

/-!
# The bus and its devices

`Bus` of `nes/bus.go`: 2 KiB of work RAM, the CPU, the PPU, the cartridge, two joystick ports and an optional zapper,
and the master tick counter. The CPU, the PPU, the cartridge and the zapper are not among the sources; they are
abstract here, each a state and the calls the bus makes on it (`Ops`), with what the bus itself touches made
explicit: the CPU's `Halt` counter and the PPU's NMI request line and one-shot completion flags.

The joystick is modelled from the spec's strobe-and-shift protocol (`input` is not among the sources either): while
the strobe is high a read returns button A; a high-to-low strobe latches the buttons into a shift register; each read
then returns bit 0 and shifts in a 1.

A Go panic is `none`. The disassembly sink is left out: it writes a trace of executed instructions and changes no
state of the console.
-/

namespace Dendy

/-- `input.Joystick`, from the spec: the buttons held, the strobe bit last written, and the shift register. -/
structure Joystick where
  buttons : UInt8
  strobe : Bool
  register : UInt8
  deriving DecidableEq, Repr

namespace Joystick

def read (j : Joystick) : UInt8 × Joystick :=
  if j.strobe then (j.buttons &&& 1, j)
  else (j.register &&& 1, { j with register := (j.register >>> 1) ||| 0x80 })

def write (j : Joystick) (data : UInt8) : Joystick :=
  let strobe := data &&& 1 = 1
  if j.strobe ∧ ¬strobe then { j with strobe, register := j.buttons } else { j with strobe }

end Joystick

/-- The CPU as the bus sees it: its own state, and `Halt`, the cycles it still has to skip (OAM DMA adds to it). -/
structure CPUState (C : Type) where
  core : C
  halt : Nat

/-- The PPU as the bus sees it: its own state, the NMI request line and the two one-shot completion flags, which the
bus reads and clears on every tick. -/
structure PPUState (P : Type) where
  core : P
  requestNMI : Bool
  scanlineComplete : Bool
  frameComplete : Bool

/-- The state types of the devices on the bus that are not among the sources. -/
structure Devices where
  CPU : Type
  PPU : Type
  Cart : Type
  Zapper : Type

structure Bus (D : Devices) where
  ram : Fin 0x800 → UInt8
  cpu : CPUState D.CPU
  ppu : PPUState D.PPU
  cart : D.Cart
  joy1 : Option Joystick
  joy2 : Option Joystick
  zapper : Option D.Zapper
  cycles : UInt64

/-- The calls the bus makes on its devices; a cartridge read and the CPU's accesses may panic. The CPU reaches the bus
only through `Read` and `Write`, which leave the tick counter alone (`cpuTick_cycles`). -/
structure Ops (D : Devices) where
  ppuRead : PPUState D.PPU → UInt16 → UInt8 × PPUState D.PPU
  ppuWrite : PPUState D.PPU → UInt16 → UInt8 → PPUState D.PPU
  ppuWriteOAM : PPUState D.PPU → UInt8 → PPUState D.PPU
  ppuTick : PPUState D.PPU → PPUState D.PPU
  ppuReset : PPUState D.PPU → PPUState D.PPU
  cpuTick : Bus D → Option (Bus D × Bool)
  cpuReset : Bus D → Option (Bus D)
  triggerNMI : CPUState D.CPU → CPUState D.CPU
  triggerIRQ : CPUState D.CPU → CPUState D.CPU
  readPRG : D.Cart → UInt16 → Option UInt8
  writePRG : D.Cart → UInt16 → UInt8 → D.Cart
  scanline : D.Cart → D.Cart × Bool
  cartReset : D.Cart → D.Cart
  zapperRead : D.Zapper → UInt8
  cpuTick_cycles : ∀ b r, cpuTick b = some r → r.1.cycles = b.cycles

end Dendy
