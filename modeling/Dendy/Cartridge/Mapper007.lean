import Dendy.Word

/-!
# The AxROM cartridge (iNES mapper 7)

`Mapper007` of `ines/mapper007.go`. A CPU write anywhere in `$8000–$FFFF` loads one register: bits 0–2 select the
32 KiB PRG bank seen at `$8000`, bit 4 the single-screen nametable. Pattern memory is addressed modulo its length and
written only when the cartridge carries CHR RAM. The saved state is the two bank registers, one byte each.

A Go panic (a slice index out of range, an integer division by zero, the invalid mirror mode) is `none`; the
warnings the code logs for unhandled addresses leave the state as it was.
-/

namespace Dendy

/-- The part of the iNES image (`ines.ROM`) the mapper reads: program ROM, pattern memory, and whether pattern
memory is RAM. -/
structure ROM where
  PRG : List UInt8
  CHR : List UInt8
  chrRAM : Bool

/-- The nametable arrangements of `ines.MirrorMode` this mapper selects. -/
inductive MirrorMode
  | single0
  | single1
  deriving DecidableEq, Repr

structure Mapper007 where
  rom : ROM
  prgBank : UInt8
  chrBank : UInt8

/-- Go's `a % b` on `int`: a division by zero panics. -/
def goMod (a b : Nat) : Option Nat := if b = 0 then none else some (a % b)

@[simp] theorem goMod_of_pos {a b : Nat} (h : 0 < b) : goMod a b = some (a % b) := by
  simp [goMod, Nat.pos_iff_ne_zero.mp h]

namespace Mapper007

def newMapper7 (rom : ROM) : Mapper007 := { rom, prgBank := 0, chrBank := 0 }

def mirrorMode (m : Mapper007) : Option MirrorMode :=
  if m.chrBank = 0 then some .single0
  else if m.chrBank = 1 then some .single1
  else none -- panic("mapper7: invalid mirror mode")

def reset (m : Mapper007) : Mapper007 := { m with prgBank := 0, chrBank := 0 }

def writePRG (m : Mapper007) (addr : UInt16) (data : UInt8) : Mapper007 :=
  if 0x8000 ≤ addr ∧ addr ≤ 0xFFFF then { m with chrBank := (data &&& 0x10) >>> 4, prgBank := data &&& 0x07 }
  else m

def readPRG (m : Mapper007) (addr : UInt16) : Option UInt8 :=
  if 0x8000 ≤ addr ∧ addr ≤ 0xFFFF then
    let offset := (addr - 0x8000).toNat % 0x8000
    m.rom.PRG[m.prgBank.toNat * 0x8000 + offset]?
  else some 0

def writeCHR (m : Mapper007) (addr : UInt16) (data : UInt8) : Option Mapper007 :=
  if !m.rom.chrRAM then some m
  else if addr ≤ 0x1FFF then do
    let i ← goMod addr.toNat m.rom.CHR.length
    some { m with rom := { m.rom with CHR := m.rom.CHR.set i data } }
  else some m

def readCHR (m : Mapper007) (addr : UInt16) : Option UInt8 :=
  if addr ≤ 0x1FFF then do
    let i ← goMod addr.toNat m.rom.CHR.length
    m.rom.CHR[i]?
  else some 0

/-- The bytes `SaveState` writes. -/
def saveState (m : Mapper007) : List UInt8 := [m.prgBank, m.chrBank]

/-- `LoadState` reads the two registers and hands back the rest of the stream; a short stream is an error. -/
def loadState (m : Mapper007) : List UInt8 → Option (Mapper007 × List UInt8)
  | prgBank :: chrBank :: rest => some ({ m with prgBank, chrBank }, rest)
  | _ => none

/-- The calls a program makes on the cartridge through the bus and the PPU. -/
inductive Op
  | reset
  | writePRG (addr : UInt16) (data : UInt8)
  | readPRG (addr : UInt16)
  | writeCHR (addr : UInt16) (data : UInt8)
  | readCHR (addr : UInt16)

/-- One call; a read leaves the state as it was, unless it panics. -/
def apply (m : Mapper007) : Op → Option Mapper007
  | .reset => some m.reset
  | .writePRG addr data => some (m.writePRG addr data)
  | .readPRG addr => (m.readPRG addr).map fun _ => m
  | .writeCHR addr data => m.writeCHR addr data
  | .readCHR addr => (m.readCHR addr).map fun _ => m

def run (m : Mapper007) (ops : List Op) : Option Mapper007 := ops.foldlM apply m

@[simp] theorem run_nil (m : Mapper007) : m.run [] = some m := rfl

@[simp] theorem run_cons (m : Mapper007) (o : Op) (ops : List Op) :
    m.run (o :: ops) = (m.apply o).bind (·.run ops) := rfl

@[simp] theorem newMapper7_prgBank (rom : ROM) : (newMapper7 rom).prgBank = 0 := rfl
@[simp] theorem newMapper7_chrBank (rom : ROM) : (newMapper7 rom).chrBank = 0 := rfl
@[simp] theorem reset_prgBank (m : Mapper007) : m.reset.prgBank = 0 := rfl
@[simp] theorem reset_chrBank (m : Mapper007) : m.reset.chrBank = 0 := rfl
@[simp] theorem reset_rom (m : Mapper007) : m.reset.rom = m.rom := rfl

theorem writePRG_eq (m : Mapper007) (addr : UInt16) (data : UInt8) :
    m.writePRG addr data =
      if 0x8000 ≤ addr then { m with chrBank := (data &&& 0x10) >>> 4, prgBank := data &&& 0x07 } else m := by
  simp [writePRG, UInt16.le_FFFF]

@[simp] theorem writePRG_rom (m : Mapper007) (addr : UInt16) (data : UInt8) :
    (m.writePRG addr data).rom = m.rom := by
  rw [writePRG_eq]; split <;> rfl

/-- A CHR write changes pattern memory only. -/
theorem writeCHR_banks {m m' : Mapper007} {addr : UInt16} {data : UInt8} (h : m.writeCHR addr data = some m') :
    m'.prgBank = m.prgBank ∧ m'.chrBank = m.chrBank ∧ m'.rom.PRG = m.rom.PRG := by
  unfold writeCHR at h
  split at h
  · cases h; exact ⟨rfl, rfl, rfl⟩
  · split at h
    · obtain ⟨i, -, hm⟩ := Option.bind_eq_some.mp h
      cases hm; exact ⟨rfl, rfl, rfl⟩
    · cases h; exact ⟨rfl, rfl, rfl⟩

theorem loadState_saveState (m m' : Mapper007) (rest : List UInt8) :
    m.loadState (m'.saveState ++ rest) =
      some ({ m with prgBank := m'.prgBank, chrBank := m'.chrBank }, rest) := rfl

end Mapper007

end Dendy
