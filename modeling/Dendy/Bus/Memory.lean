import Dendy.Bus.Devices

/-!
# Bus reads and writes

`Bus.Read`, `Bus.Write`, `Bus.transferOAM` and `Bus.Reset`. Each address goes to the first device whose range it
falls in, in the order of the `switch`:

* `$0000–$1FFF` work RAM, mirrored every `$0800`; `$2000–$3FFF` the PPU registers;
* `$4014` the PPU for a read, OAM DMA for a write; `$4016` joystick 1 for a read, the strobe of both for a write;
* every other address up to `$4017`: joystick 2, else the zapper, else 0 for a read; nothing for a write;
* `$4018–$401F` 0 and nothing (`read_reserved`); from `$4020` on the cartridge.

The case `addr <= 0x4017` comes after `$4014` and `$4016` only, so a read of an APU register in `$4000–$4015` reads
joystick 2 and shifts its register (`read_apu_reads_joy2`). OAM DMA copies the page through `Read` and then adds 513
to `Halt`, rounding to even on the new `Halt`, not on the cycle count (`transferOAM_halt`); from a page of work RAM,
mirrored like every RAM address, it hands the PPU the page's 256 bytes in order and changes nothing else
(`transferOAM_ramPage`).
-/

namespace Dendy

namespace Bus

variable {D : Devices} (O : Ops D)

/-- `addr % 0x0800`, the RAM cell of a mirrored address. -/
def ramIndex (addr : UInt16) : Fin 0x800 := ⟨addr.toNat % 0x800, Nat.mod_lt _ (by decide)⟩

/-- The read of `$4017` and of the addresses that fall through to its case: joystick 2, else the zapper, else 0. -/
def readPort2 (b : Bus D) : UInt8 × Bus D :=
  match b.joy2, b.zapper with
  | some j, _ => (j.read.1, { b with joy2 := some j.read.2 })
  | none, some z => (O.zapperRead z, b)
  | none, none => (0, b)

def read (b : Bus D) (addr : UInt16) : Option (UInt8 × Bus D) :=
  if addr ≤ 0x1FFF then some (b.ram (ramIndex addr), b)
  else if addr ≤ 0x3FFF then some ((O.ppuRead b.ppu addr).1, { b with ppu := (O.ppuRead b.ppu addr).2 })
  else if addr = 0x4014 then some ((O.ppuRead b.ppu addr).1, { b with ppu := (O.ppuRead b.ppu addr).2 })
  else if addr = 0x4016 then
    b.joy1.map fun j => (j.read.1, { b with joy1 := some j.read.2 }) -- a nil Joy1 panics
  else if addr ≤ 0x4017 then some (readPort2 O b)
  else if addr ≤ 0x401F then some (0, b)
  else (O.readPRG b.cart addr).map fun v => (v, b)

/-- One pass of the DMA loop: `PPU.WriteOAM(b.Read(addr))`. -/
def copyOAMByte (memAddr : UInt16) (b : Bus D) (i : Nat) : Option (Bus D) :=
  (read O b (memAddr + i.toUInt16)).map fun (v, b) => { b with ppu := O.ppuWriteOAM b.ppu v }

def transferOAM (b : Bus D) (addr : UInt8) : Option (Bus D) := do
  let memAddr := addr.toUInt16 <<< 8
  let b ← (List.range 256).foldlM (copyOAMByte O memAddr) b
  let halt := b.cpu.halt + 513
  some { b with cpu := { b.cpu with halt := if halt % 2 = 1 then halt + 1 else halt } }

def write (b : Bus D) (addr : UInt16) (data : UInt8) : Option (Bus D) :=
  if addr ≤ 0x1FFF then some { b with ram := Function.update b.ram (ramIndex addr) data }
  else if addr ≤ 0x3FFF then some { b with ppu := O.ppuWrite b.ppu addr data }
  else if addr = 0x4014 then transferOAM O b data
  else if addr = 0x4016 then
    some { b with joy1 := b.joy1.map (·.write data), joy2 := b.joy2.map (·.write data) }
  else if addr ≤ 0x4017 then some b
  else if addr ≤ 0x401F then some b
  else some { b with cart := O.writePRG b.cart addr data }

def reset (b : Bus D) : Option (Bus D) := do
  let b ← O.cpuReset { b with cart := O.cartReset b.cart }
  some { b with ppu := O.ppuReset b.ppu, cycles := 0 }

/-! ### What a read changes -/

/-- A read changes nothing but the PPU and the joysticks. -/
theorem read_eq_some {b b' : Bus D} {addr : UInt16} {v : UInt8} (h : read O b addr = some (v, b')) :
    ∃ ppu joy1 joy2, b' = { b with ppu, joy1, joy2 } := by
  unfold read at h
  by_cases h1 : addr ≤ 0x1FFF
  · rw [if_pos h1] at h; cases h; exact ⟨_, _, _, rfl⟩
  rw [if_neg h1] at h
  by_cases h2 : addr ≤ 0x3FFF
  · rw [if_pos h2] at h; cases h; exact ⟨_, _, _, rfl⟩
  rw [if_neg h2] at h
  by_cases h3 : addr = 0x4014
  · rw [if_pos h3] at h; cases h; exact ⟨_, _, _, rfl⟩
  rw [if_neg h3] at h
  by_cases h4 : addr = 0x4016
  · rw [if_pos h4] at h
    obtain ⟨j, -, h⟩ := Option.map_eq_some'.mp h
    cases h; exact ⟨_, _, _, rfl⟩
  rw [if_neg h4] at h
  by_cases h5 : addr ≤ 0x4017
  · rw [if_pos h5, readPort2] at h
    split at h <;> cases h <;> exact ⟨_, _, _, rfl⟩
  rw [if_neg h5] at h
  by_cases h6 : addr ≤ 0x401F
  · rw [if_pos h6] at h; cases h; exact ⟨_, _, _, rfl⟩
  rw [if_neg h6] at h
  obtain ⟨_, -, h⟩ := Option.map_eq_some'.mp h
  cases h; exact ⟨_, _, _, rfl⟩

/-- Every address of `$4000–$4017` but `$4014` and `$4016` falls through to the case of `$4017`. -/
theorem read_of_port2 (b : Bus D) {addr : UInt16} (hlo : 0x4000 ≤ addr) (hhi : addr ≤ 0x4017)
    (h14 : addr ≠ 0x4014) (h16 : addr ≠ 0x4016) : read O b addr = some (readPort2 O b) := by
  simp only [UInt16.le_iff_toNat_le, Ne, UInt16.eq_iff_toNat_eq, UInt16.toNat_ofNat'] at hlo hhi h14 h16
  rw [read, if_neg, if_neg, if_neg, if_neg, if_pos] <;>
    simp only [UInt16.le_iff_toNat_le, UInt16.eq_iff_toNat_eq, UInt16.toNat_ofNat'] <;> omega

/-- The reserved addresses `$4018–$401F` read 0 and change nothing. -/
theorem read_reserved (b : Bus D) {addr : UInt16} (hlo : 0x4018 ≤ addr) (hhi : addr ≤ 0x401F) :
    read O b addr = some (0, b) := by
  simp only [UInt16.le_iff_toNat_le, UInt16.toNat_ofNat'] at hlo hhi
  rw [read, if_neg, if_neg, if_neg, if_neg, if_neg, if_pos] <;>
    simp only [UInt16.le_iff_toNat_le, UInt16.eq_iff_toNat_eq, UInt16.toNat_ofNat'] <;> omega

/-- A read of `$4000`, an APU register, reads joystick 2: with a pressed A button latched in the shift register, it
returns 1 and shifts the register. -/
theorem read_apu_reads_joy2 (b : Bus D) :
    read O { b with joy2 := some ⟨0, false, 1⟩ } 0x4000 =
      some (1, { b with joy2 := some ⟨0, false, 0x80⟩ }) := by
  rw [read_of_port2 O _ (by decide) (by decide) (by decide) (by decide)]
  rfl

/-! ### OAM DMA -/

theorem oamAddr_toNat (d : UInt8) {i : Nat} (hi : i < 256) :
    ((d.toUInt16 <<< 8) + i.toUInt16).toNat = d.toNat * 256 + i := by
  have hd := d.toNat_lt_size
  simp only [UInt8.size] at hd
  rw [UInt16.toNat_add_toUInt16 (by rw [UInt8.toUInt16_shiftLeft_eight]; omega), UInt8.toUInt16_shiftLeft_eight]

theorem foldlM_copyOAMByte {m : UInt16} {is : List Nat} {b b' : Bus D}
    (h : is.foldlM (copyOAMByte O m) b = some b') : ∃ ppu joy1 joy2, b' = { b with ppu, joy1, joy2 } := by
  induction is generalizing b with
  | nil => cases h; exact ⟨_, _, _, rfl⟩
  | cons i is ih =>
    obtain ⟨b₁, h₁, h₂⟩ := Option.bind_eq_some.mp h
    obtain ⟨⟨v, b₀⟩, hr, rfl⟩ := Option.map_eq_some'.mp h₁
    obtain ⟨p₀, j₀, k₀, rfl⟩ := read_eq_some O hr
    obtain ⟨p, j, k, rfl⟩ := ih h₂
    exact ⟨p, j, k, rfl⟩

/-- OAM DMA adds 513 to `Halt`, and one more exactly when that leaves `Halt` odd: when `Halt` was even, whatever the
cycle count. -/
theorem transferOAM_halt {b b' : Bus D} {d : UInt8} (h : transferOAM O b d = some b') :
    b'.cpu.halt = b.cpu.halt + 513 + (if b.cpu.halt % 2 = 0 then 1 else 0) ∧ b'.cycles = b.cycles ∧
      b'.ram = b.ram := by
  obtain ⟨b₁, h₁, h₂⟩ := Option.bind_eq_some.mp h
  obtain ⟨p, j, k, rfl⟩ := foldlM_copyOAMByte O h₁
  cases h₂
  refine ⟨?_, rfl, rfl⟩
  dsimp only
  split_ifs <;> omega

theorem foldlM_copyOAMByte_ram {d : UInt8} (hd : d.toNat < 0x20) {is : List Nat} (his : ∀ i ∈ is, i < 256)
    (b : Bus D) : ∃ b', is.foldlM (copyOAMByte O (d.toUInt16 <<< 8)) b = some b' := by
  induction is generalizing b with
  | nil => exact ⟨b, rfl⟩
  | cons i is ih =>
    have hi := his i (List.mem_cons_self _ _)
    have hram : (d.toUInt16 <<< 8) + i.toUInt16 ≤ 0x1FFF := by
      rw [UInt16.le_iff_toNat_le, oamAddr_toNat d hi]
      simp only [UInt16.toNat_ofNat']
      omega
    obtain ⟨b', h'⟩ := ih (fun j hj => his j (List.mem_cons_of_mem _ hj))
      { b with ppu := O.ppuWriteOAM b.ppu (b.ram (ramIndex ((d.toUInt16 <<< 8) + i.toUInt16))) }
    exact ⟨b', by rw [List.foldlM_cons, copyOAMByte, read, if_pos hram]; exact h'⟩

/-- The 256 bytes of page `d` of the address space below `$2000`: work RAM from cell `256 d` on, mirrored every
`$0800`. -/
def ramPage (ram : Fin 0x800 → UInt8) (d : Nat) : List UInt8 :=
  (List.range 256).map fun i => ram ⟨(d * 256 + i) % 0x800, Nat.mod_lt _ (by decide)⟩

theorem foldlM_copyOAMByte_page {d : UInt8} (hd : d.toNat < 0x20) {is : List Nat} (his : ∀ i ∈ is, i < 256)
    (b : Bus D) :
    is.foldlM (copyOAMByte O (d.toUInt16 <<< 8)) b =
      some { b with ppu := List.foldl O.ppuWriteOAM b.ppu
                             (is.map fun i => b.ram ⟨(d.toNat * 256 + i) % 0x800, Nat.mod_lt _ (by decide)⟩) } := by
  induction is generalizing b with
  | nil => rfl
  | cons i is ih =>
    have hi := his i (List.mem_cons_self _ _)
    have hram : (d.toUInt16 <<< 8) + i.toUInt16 ≤ 0x1FFF := by
      rw [UInt16.le_iff_toNat_le, oamAddr_toNat d hi]
      simp only [UInt16.toNat_ofNat']
      omega
    have hcell : ramIndex ((d.toUInt16 <<< 8) + i.toUInt16) =
        ⟨(d.toNat * 256 + i) % 0x800, Nat.mod_lt _ (by decide)⟩ :=
      Fin.ext (by simp only [ramIndex, oamAddr_toNat d hi])
    rw [List.foldlM_cons, copyOAMByte, read, if_pos hram, Option.map_some', Option.bind_eq_bind, Option.some_bind,
      hcell, ih (fun j hj => his j (List.mem_cons_of_mem _ hj))]
    rfl

/-- OAM DMA from a page of work RAM hands the PPU the page's 256 bytes in order and adds 513 to `Halt`, one more when
`Halt` was even; nothing else of the bus changes. -/
theorem transferOAM_ramPage (b : Bus D) {d : UInt8} (hd : d.toNat < 0x20) :
    transferOAM O b d = some { b with ppu := (ramPage b.ram d.toNat).foldl O.ppuWriteOAM b.ppu,
                                      cpu := { b.cpu with halt := b.cpu.halt + 513 +
                                                                  if b.cpu.halt % 2 = 0 then 1 else 0 } } := by
  have hloop := foldlM_copyOAMByte_page O hd (fun i hi => List.mem_range.mp hi : ∀ i ∈ List.range 256, i < 256) b
  simp only [transferOAM, hloop, Option.bind_eq_bind, Option.some_bind, Option.some.injEq]
  rw [ramPage]
  congr 2
  split_ifs <;> omega

/-- Devices whose PPU keeps the bytes written to OAM, in order, and does nothing else. -/
def oamLog : Devices := ⟨Unit, List UInt8, Unit, Unit⟩

def oamLogOps : Ops oamLog where
  ppuRead p _ := (0, p)
  ppuWrite p _ _ := p
  ppuWriteOAM p v := { p with core := List.append p.core [v] }
  ppuTick p := p
  ppuReset p := p
  cpuTick b := some (b, false)
  cpuReset b := some b
  triggerNMI c := c
  triggerIRQ c := c
  readPRG _ _ := some 0
  writePRG c _ _ := c
  scanline c := (c, false)
  cartReset c := c
  zapperRead _ := 0
  cpuTick_cycles _ _ h := by cases h; rfl

theorem transferOAM_ramPage_mirror :
    (0x0A : UInt8).toNat < 0x20 ∧
      (transferOAM oamLogOps ⟨fun i => i.val.toUInt8, ⟨(), 0⟩, ⟨[], false, false, false⟩, (), none, none, none, 0⟩
          0x0A).map (·.ppu) =
        some ((ramPage (fun i => i.val.toUInt8) 2).foldl oamLogOps.ppuWriteOAM ⟨[], false, false, false⟩) := by
  have hpage : ramPage (fun i => i.val.toUInt8) (0x0A : UInt8).toNat = ramPage (fun i => i.val.toUInt8) 2 := by
    refine List.map_congr_left fun i _ => ?_
    show Nat.toUInt8 ((10 * 256 + i) % 0x800) = Nat.toUInt8 ((2 * 256 + i) % 0x800)
    rw [show (10 * 256 + i) % 0x800 = (2 * 256 + i) % 0x800 by omega]
  refine ⟨by decide, ?_⟩
  rw [transferOAM_ramPage _ _ (by decide), Option.map_some', hpage]

theorem write_oamDMA_halt_even_cycles (b : Bus D) :
    (write O { b with cpu := { b.cpu with halt := 0 }, cycles := 0 } 0x4014 0x02).map (·.cpu.halt) = some 514 := by
  obtain ⟨b₁, h₁⟩ := foldlM_copyOAMByte_ram O (d := 0x02) (by decide)
    (fun i hi => List.mem_range.mp hi : ∀ i ∈ List.range 256, i < 256)
    { b with cpu := { b.cpu with halt := 0 }, cycles := 0 }
  obtain ⟨b', h'⟩ : ∃ b', transferOAM O { b with cpu := { b.cpu with halt := 0 }, cycles := 0 } 0x02 = some b' :=
    ⟨_, by unfold transferOAM; dsimp only; rw [h₁]; rfl⟩
  rw [write, if_neg (by decide), if_neg (by decide), if_pos rfl, h', Option.map_some', (transferOAM_halt O h').1]
  rfl

end Bus

end Dendy
