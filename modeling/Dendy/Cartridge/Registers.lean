import Dendy.Cartridge.Mapper007

/-!
# AxROM registers, save states and bounds

* (registers) along every run from `newMapper7`, loads of saved states included, `prgBank` and `chrBank` are the low
  three bits and bit 4 of the byte last written to `$8000–$FFFF`, so `mirrorMode` never panics;
* (save state) `loadState` of the bytes `saveState` wrote consumes exactly those bytes and brings back both
  registers, hence every PRG read and the mirror mode; pattern RAM is not in the saved bytes, and a CHR write made
  after the save survives the load;
* (pattern memory) over every run, pattern RAM is the initial pattern memory with the run's CHR writes to
  `$0000–$1FFF` stored at their address modulo its length, so a read returns the data of the most recent write to the
  same place (`readCHR_most_recent_write`); pattern ROM never changes;
* (bounds) pattern memory is addressed modulo its length, so CHR accesses are total on a non-empty CHR
  (`readCHR_isSome`, `writeCHR_isSome`); the PRG bank is not reduced modulo the number of banks, so PRG reads are in
  range on a ROM of eight banks (`readPRG_isSome_of_eight_banks`) and a ROM with fewer is read past its end
  (`readPRG_past_last_bank`).
-/

namespace Dendy

namespace Mapper007

/-! ### The bank register -/

/-- The byte last written to the bank register, after one call. -/
def Op.bankWrite : Op → UInt8 → UInt8
  | .reset, _ => 0
  | .writePRG addr data, v => if 0x8000 ≤ addr then data else v
  | _, v => v

/-- `m` is reached from `newMapper7 rom` by calls and loads of saved states, and `v` is the byte last written to the
bank register since the last reset. -/
inductive Reachable (rom : ROM) : Mapper007 → UInt8 → Prop
  | init : Reachable rom (newMapper7 rom) 0
  | op {m m' : Mapper007} {v : UInt8} (o : Op) :
      Reachable rom m v → m.apply o = some m' → Reachable rom m' (o.bankWrite v)
  | load {m m₀ m' : Mapper007} {v v₀ : UInt8} {rest rest' : List UInt8} :
      Reachable rom m v → Reachable rom m₀ v₀ → m.loadState (m₀.saveState ++ rest) = some (m', rest') →
      Reachable rom m' v₀

private theorem nat_bit_four (n : Nat) :
    (n &&& 16) >>> 4 = (n >>> 4) &&& 1 ∧ n &&& 16 = ((n >>> 4) &&& 1) <<< 4 := by
  have h16 : (16 : Nat) = 2 ^ 4 := rfl
  have h1 : (1 : Nat) = 2 ^ 0 := rfl
  constructor <;> apply Nat.eq_of_testBit_eq <;> intro i
  · rw [Nat.testBit_shiftRight, Nat.testBit_and, Nat.testBit_and, Nat.testBit_shiftRight, h16, h1,
      Nat.testBit_two_pow, Nat.testBit_two_pow]
    cases i <;> simp
  · rw [Nat.testBit_shiftLeft, Nat.testBit_and, Nat.testBit_and, Nat.testBit_shiftRight, h16, h1,
      Nat.testBit_two_pow, Nat.testBit_two_pow]
    by_cases h : i = 4
    · subst h; simp
    · by_cases h' : 4 ≤ i
      · simp [h, h', show ¬0 = i - 4 by omega, Ne.symm h]
      · simp [h, h', Ne.symm h]

private theorem bank_bits (v : UInt8) :
    (v &&& 0x10) >>> 4 = (v >>> 4) &&& 1 ∧ ((v >>> 4) &&& 1 = 0 ↔ v &&& 0x10 = 0) ∧
      ((v >>> 4) &&& 1 = 0 ∨ (v >>> 4) &&& 1 = 1) := by
  obtain ⟨h1, h2⟩ := nat_bit_four v.toNat
  have e : ∀ a b : UInt8, a = b ↔ a.toNat = b.toNat := fun _ _ => ⟨congrArg _, UInt8.toNat.inj⟩
  have e1 : ((v >>> 4) &&& 1).toNat = (v.toNat >>> 4) &&& 1 := rfl
  have e2 : (v &&& 0x10).toNat = v.toNat &&& 16 := rfl
  have one : (1 : UInt8).toNat = 1 := rfl
  refine ⟨(e _ _).mpr h1, ?_, ?_⟩
  · simp only [e, e1, e2, h2, Nat.shiftLeft_eq, Nat.and_one_is_mod, UInt8.toNat_zero]
    omega
  · simp only [e, e1, Nat.and_one_is_mod, UInt8.toNat_zero, one]
    omega

/-- How the registers stand in terms of the last bank write. -/
def BanksOf (m : Mapper007) (v : UInt8) : Prop := m.prgBank = v &&& 0x07 ∧ m.chrBank = (v >>> 4) &&& 1

private theorem banksOf_zero {m : Mapper007} (hp : m.prgBank = 0) (hc : m.chrBank = 0) : BanksOf m 0 :=
  ⟨hp.trans rfl, hc.trans rfl⟩

private theorem banksOf_apply {m m' : Mapper007} {v : UInt8} (o : Op) (h : BanksOf m v)
    (ho : m.apply o = some m') : BanksOf m' (o.bankWrite v) := by
  cases o with
  | reset => cases ho; exact banksOf_zero rfl rfl
  | writePRG addr data =>
    cases ho
    simp only [Op.bankWrite, writePRG_eq]
    split
    · exact ⟨rfl, (bank_bits data).1⟩
    · exact h
  | readPRG addr => obtain ⟨_, -, rfl⟩ := Option.map_eq_some'.mp ho; exact h
  | writeCHR addr data =>
    obtain ⟨hp, hc, -⟩ := writeCHR_banks ho
    exact ⟨hp.trans h.1, hc.trans h.2⟩
  | readCHR addr => obtain ⟨_, -, rfl⟩ := Option.map_eq_some'.mp ho; exact h

theorem banksOf_of_reachable {rom : ROM} {m : Mapper007} {v : UInt8} (h : Reachable rom m v) : BanksOf m v := by
  induction h with
  | init => exact banksOf_zero rfl rfl
  | op o _ ho ih => exact banksOf_apply o ih ho
  | load _ _ hl _ ih₀ =>
    rw [loadState_saveState] at hl
    cases hl
    exact ih₀

theorem mirrorMode_of_banksOf {m : Mapper007} {v : UInt8} (h : BanksOf m v) :
    m.mirrorMode = some (if v &&& 0x10 = 0 then .single0 else .single1) := by
  obtain ⟨-, h0, h01⟩ := bank_bits v
  unfold mirrorMode
  rw [h.2]
  rcases h01 with e | e
  · simp [e, h0.mp e]
  · have h1 : ¬v &&& 0x10 = 0 := fun h' => absurd ((h0.mpr h').symm.trans e) (by decide)
    simp [e, h1]

/-- The bank registers follow the last bank write, and the mirror mode is the single screen named by its bit 4. -/
theorem banks_follow_last_write {rom : ROM} {m : Mapper007} {v : UInt8} (h : Reachable rom m v) :
    m.prgBank = v &&& 0x07 ∧ m.chrBank = (v >>> 4) &&& 1 ∧
      m.mirrorMode = some (if v &&& 0x10 = 0 then .single0 else .single1) :=
  have hb := banksOf_of_reachable h
  ⟨hb.1, hb.2, mirrorMode_of_banksOf hb⟩

theorem banks_follow_last_write_example :
    let rom : ROM := ⟨[], [], true⟩
    Reachable rom ((newMapper7 rom).writePRG 0x8000 0x13) 0x13 ∧
      ((newMapper7 rom).writePRG 0x8000 0x13).prgBank = 0x13 &&& 0x07 ∧
      ((newMapper7 rom).writePRG 0x8000 0x13).chrBank = ((0x13 : UInt8) >>> 4) &&& 1 ∧
      ((newMapper7 rom).writePRG 0x8000 0x13).mirrorMode =
        some (if (0x13 : UInt8) &&& 0x10 = 0 then .single0 else .single1) :=
  have h : Reachable ⟨[], [], true⟩ ((newMapper7 ⟨[], [], true⟩).writePRG 0x8000 0x13) 0x13 :=
    Reachable.op (.writePRG 0x8000 0x13) Reachable.init rfl
  ⟨h, banks_follow_last_write h⟩

/-! ### Save states -/

theorem apply_PRG {m m' : Mapper007} {o : Op} (h : m.apply o = some m') : m'.rom.PRG = m.rom.PRG := by
  cases o with
  | writeCHR addr data => exact (writeCHR_banks h).2.2
  | readPRG addr | readCHR addr => obtain ⟨_, -, rfl⟩ := Option.map_eq_some'.mp h; rfl
  | reset | writePRG addr data => cases h; simp

theorem run_PRG {m m' : Mapper007} {ops : List Op} (h : m.run ops = some m') : m'.rom.PRG = m.rom.PRG := by
  induction ops generalizing m with
  | nil => cases h; rfl
  | cons o ops ih =>
    obtain ⟨m₁, h₁, h₂⟩ := Option.bind_eq_some.mp h
    exact (ih h₂).trans (apply_PRG h₁)

theorem readPRG_congr {m m' : Mapper007} (hp : m.rom.PRG = m'.rom.PRG) (hb : m.prgBank = m'.prgBank)
    (addr : UInt16) : m.readPRG addr = m'.readPRG addr := by
  simp only [readPRG, hp, hb]

theorem mirrorMode_congr {m m' : Mapper007} (h : m.chrBank = m'.chrBank) : m.mirrorMode = m'.mirrorMode := by
  simp only [mirrorMode, h]

/-- Loading the bytes saved from `m`, after any run of calls from `m` to `m'`, consumes exactly those bytes and
brings back every PRG read and the mirror mode of `m`; CHR reads stay those of `m'`. -/
theorem loadState_restores_banks {m m' : Mapper007} {ops : List Op} (h : m.run ops = some m')
    (rest : List UInt8) :
    ∃ m'', m'.loadState (m.saveState ++ rest) = some (m'', rest) ∧
      (∀ addr, m''.readPRG addr = m.readPRG addr) ∧ m''.mirrorMode = m.mirrorMode ∧
      ∀ addr, m''.readCHR addr = m'.readCHR addr :=
  have hp : m'.rom.PRG = m.rom.PRG := run_PRG h
  ⟨{ m' with prgBank := m.prgBank, chrBank := m.chrBank }, loadState_saveState m' m rest,
    readPRG_congr hp rfl, mirrorMode_congr rfl, fun _ => rfl⟩

theorem loadState_restores_banks_example :
    let m := newMapper7 ⟨[0xEA], [0], true⟩
    m.run [.writePRG 0x8000 0x10] = some (m.writePRG 0x8000 0x10) ∧
      ∃ m'', (m.writePRG 0x8000 0x10).loadState (m.saveState ++ []) = some (m'', []) ∧
        (∀ addr, m''.readPRG addr = m.readPRG addr) ∧ m''.mirrorMode = m.mirrorMode ∧
        ∀ addr, m''.readCHR addr = (m.writePRG 0x8000 0x10).readCHR addr :=
  ⟨rfl, @loadState_restores_banks _ _ [.writePRG 0x8000 0x10] rfl []⟩

/-- With CHR RAM, a read of `$0000–$1FFF` returns the byte last written there. -/
theorem readCHR_writeCHR {m m' : Mapper007} {addr : UInt16} {data : UInt8} (h : m.writeCHR addr data = some m')
    (hram : m.rom.chrRAM = true) (ha : addr ≤ 0x1FFF) : m'.readCHR addr = some data := by
  simp only [writeCHR, hram, Bool.not_true, if_neg Bool.false_ne_true, if_pos ha] at h
  obtain ⟨i, hi, hm⟩ := Option.bind_eq_some.mp h
  cases hm
  have hpos : 0 < m.rom.CHR.length := by
    unfold goMod at hi
    split at hi
    · cases hi
    · omega
  rw [goMod_of_pos hpos] at hi
  cases hi
  simp [readCHR, ha, goMod_of_pos hpos, Nat.mod_lt _ hpos]

/-- A one-bank AxROM image with 8 KiB of pattern RAM, all bytes zero. -/
def blankCart : ROM := ⟨List.replicate 0x8000 0, List.replicate 0x2000 0, true⟩

theorem readCHR_blankCart {addr : UInt16} (ha : addr ≤ 0x1FFF) : (newMapper7 blankCart).readCHR addr = some 0 := by
  have hlt : addr.toNat < 0x2000 := Nat.lt_of_le_of_lt (UInt16.le_iff_toNat_le.mp ha) (by decide)
  have hlen : blankCart.CHR.length = 0x2000 := List.length_replicate _ _
  have hget : ∀ i < 0x2000, blankCart.CHR[i]? = some 0 := fun i hi => by
    rw [blankCart, List.getElem?_replicate, if_pos hi]
  have hmod : goMod addr.toNat blankCart.CHR.length = some addr.toNat := by
    rw [hlen, goMod_of_pos (by decide), Nat.mod_eq_of_lt hlt]
  show (if addr ≤ 0x1FFF then (goMod addr.toNat blankCart.CHR.length).bind fun i => blankCart.CHR[i]? else some 0) =
    some 0
  rw [if_pos ha, hmod, Option.some_bind, hget _ hlt]

/-- A pattern RAM byte written after the save survives the load. -/
theorem loadState_keeps_chr_written_after_save :
    ∃ m' m'', (newMapper7 blankCart).run [.writeCHR 0 1] = some m' ∧
      m'.loadState (newMapper7 blankCart).saveState = some (m'', []) ∧
      m''.readCHR 0 ≠ (newMapper7 blankCart).readCHR 0 := by
  have hlen : (newMapper7 blankCart).rom.CHR.length = 0x2000 := List.length_replicate _ _
  have hram : (newMapper7 blankCart).rom.chrRAM = true := rfl
  have hw : (newMapper7 blankCart).writeCHR 0 1 =
      some { newMapper7 blankCart with rom := { blankCart with CHR := blankCart.CHR.set 0 1 } } := by
    unfold writeCHR
    rw [hram, if_neg (by decide), if_pos (by decide), hlen, goMod_of_pos (by decide)]
    rfl
  refine ⟨_, _, by rw [run_cons, apply, hw, Option.some_bind, run_nil], rfl, ?_⟩
  rw [show ∀ m'' : Mapper007, m''.readCHR 0 = _ from fun _ => rfl, readCHR_writeCHR hw rfl (by decide),
    readCHR_blankCart (by decide)]
  decide

/-! ### Pattern memory as a store -/

/-- The CHR writes of a run, in order. -/
def chrWrites : List Op → List (UInt16 × UInt8)
  | [] => []
  | .writeCHR addr data :: ops => (addr, data) :: chrWrites ops
  | _ :: ops => chrWrites ops

/-- A CHR write to `$0000–$1FFF` stores its byte at its address modulo the length of pattern memory. -/
def storeCHR (chr : List UInt8) (w : UInt16 × UInt8) : List UInt8 :=
  if w.1 ≤ 0x1FFF then chr.set (w.1.toNat % chr.length) w.2 else chr

/-- The data of the most recent write of `ws` to `$0000–$1FFF` at the same place as `addr`, in pattern memory of
`len` bytes. -/
def lastCHRWrite (len : Nat) (ws : List (UInt16 × UInt8)) (addr : UInt16) : Option UInt8 :=
  (ws.reverse.find? fun w => w.1 ≤ 0x1FFF && w.1.toNat % len == addr.toNat % len).map (·.2)

@[simp] theorem length_storeCHR (chr : List UInt8) (w : UInt16 × UInt8) : (storeCHR chr w).length = chr.length := by
  unfold storeCHR; split <;> simp

theorem length_foldl_storeCHR (chr : List UInt8) (ws : List (UInt16 × UInt8)) :
    (ws.foldl storeCHR chr).length = chr.length := by
  induction ws generalizing chr with
  | nil => rfl
  | cons w ws ih => rw [List.foldl_cons, ih, length_storeCHR]

theorem getElem?_foldl_storeCHR {chr : List UInt8} (hlen : 0 < chr.length) (ws : List (UInt16 × UInt8))
    (addr : UInt16) :
    (ws.foldl storeCHR chr)[addr.toNat % chr.length]? =
      (lastCHRWrite chr.length ws addr).or chr[addr.toNat % chr.length]? := by
  induction ws generalizing chr with
  | nil => rfl
  | cons w ws ih =>
    rw [List.foldl_cons, ← length_storeCHR chr w, ih (by rwa [length_storeCHR]), length_storeCHR]
    simp only [lastCHRWrite, List.reverse_cons, List.find?_append, List.find?_singleton, Option.map_or]
    cases (ws.reverse.find? fun w => w.1 ≤ 0x1FFF && w.1.toNat % chr.length == addr.toNat % chr.length) with
    | some w' => rfl
    | none =>
      simp only [Option.map_none', Option.none_or, storeCHR]
      by_cases hw : w.1 ≤ 0x1FFF <;> by_cases he : w.1.toNat % chr.length = addr.toNat % chr.length <;>
        simp [hw, he, List.getElem?_set, Nat.mod_lt _ hlen]

theorem apply_CHR {m m' : Mapper007} {o : Op} (h : m.apply o = some m') :
    m'.rom.chrRAM = m.rom.chrRAM ∧
      m'.rom.CHR = if m.rom.chrRAM then (chrWrites [o]).foldl storeCHR m.rom.CHR else m.rom.CHR := by
  have hkeep : m.rom.CHR = if m.rom.chrRAM then m.rom.CHR else m.rom.CHR := (ite_self _).symm
  cases o with
  | reset => cases h; exact ⟨rfl, hkeep⟩
  | writePRG addr data => cases h; rw [writePRG_rom]; exact ⟨rfl, hkeep⟩
  | readPRG addr => obtain ⟨_, -, rfl⟩ := Option.map_eq_some'.mp h; exact ⟨rfl, hkeep⟩
  | readCHR addr => obtain ⟨_, -, rfl⟩ := Option.map_eq_some'.mp h; exact ⟨rfl, hkeep⟩
  | writeCHR addr data =>
    simp only [apply, writeCHR] at h
    cases hram : m.rom.chrRAM
    · simp only [hram, Bool.not_false, if_true, Option.some.injEq] at h
      cases h
      simp [hram]
    simp only [hram, Bool.not_true, Bool.false_eq_true, if_false] at h
    simp only [chrWrites, List.foldl_cons, List.foldl_nil, storeCHR, if_true]
    split at h
    · obtain ⟨i, hi, ⟨⟩⟩ := Option.bind_eq_some.mp h
      unfold goMod at hi
      split at hi
      · cases hi
      · cases hi; simp [hram, ‹addr ≤ 0x1FFF›]
    · cases h; simp [hram, ‹¬addr ≤ 0x1FFF›]

/-- Over a run, pattern RAM is the initial pattern memory with the run's CHR writes stored in order; pattern ROM does
not change. -/
theorem run_CHR {m m' : Mapper007} {ops : List Op} (h : m.run ops = some m') :
    m'.rom.chrRAM = m.rom.chrRAM ∧
      m'.rom.CHR = if m.rom.chrRAM then (chrWrites ops).foldl storeCHR m.rom.CHR else m.rom.CHR := by
  induction ops generalizing m with
  | nil => cases h; simp [chrWrites]
  | cons o ops ih =>
    obtain ⟨m₁, h₁, h₂⟩ := Option.bind_eq_some.mp h
    obtain ⟨hram₁, hchr₁⟩ := apply_CHR h₁
    obtain ⟨hram, hchr⟩ := ih h₂
    refine ⟨hram.trans hram₁, ?_⟩
    rw [hchr, hram₁, hchr₁]
    split
    · cases o <;> rfl
    · rfl

theorem readCHR_eq {m : Mapper007} (hlen : 0 < m.rom.CHR.length) {addr : UInt16} (ha : addr ≤ 0x1FFF) :
    m.readCHR addr = m.rom.CHR[addr.toNat % m.rom.CHR.length]? := by
  simp [readCHR, ha, goMod_of_pos hlen]

/-- Pattern memory is a mirrored store: over every run, a read of `$0000–$1FFF` returns the data of the most recent
CHR write to the same place, with CHR RAM, or else what it read before the run. -/
theorem readCHR_most_recent_write {m m' : Mapper007} {ops : List Op} (h : m.run ops = some m')
    (hlen : 0 < m.rom.CHR.length) {addr : UInt16} (ha : addr ≤ 0x1FFF) :
    m'.readCHR addr =
      if m.rom.chrRAM then (lastCHRWrite m.rom.CHR.length (chrWrites ops) addr).or (m.readCHR addr)
      else m.readCHR addr := by
  obtain ⟨-, hchr⟩ := run_CHR h
  have hlen' : 0 < m'.rom.CHR.length := by
    rw [hchr]; split
    · rwa [length_foldl_storeCHR]
    · exact hlen
  rw [readCHR_eq hlen' ha, readCHR_eq hlen ha, hchr]
  split
  · rw [length_foldl_storeCHR, getElem?_foldl_storeCHR hlen]
  · rfl

theorem readCHR_most_recent_write_mirrored :
    ∃ m', (newMapper7 ⟨[], List.replicate 16 0, true⟩).run [.writeCHR 0x0013 7, .writeCHR 0x2003 9] = some m' ∧
      0 < (newMapper7 ⟨[], List.replicate 16 0, true⟩).rom.CHR.length ∧ (0x0003 : UInt16) ≤ 0x1FFF ∧
      m'.readCHR 0x0003 =
        (if (newMapper7 ⟨[], List.replicate 16 0, true⟩).rom.chrRAM then
          (lastCHRWrite 16 (chrWrites [.writeCHR 0x0013 7, .writeCHR 0x2003 9]) 0x0003).or
            ((newMapper7 ⟨[], List.replicate 16 0, true⟩).readCHR 0x0003)
        else (newMapper7 ⟨[], List.replicate 16 0, true⟩).readCHR 0x0003) ∧
      m'.readCHR 0x0003 = some 7 :=
  ⟨_, rfl, by decide, by decide, by refine readCHR_most_recent_write ?_ (by decide) (by decide); rfl, rfl⟩

/-! ### Bounds -/

/-- With pattern memory present, CHR reads never panic. -/
theorem readCHR_isSome {m : Mapper007} (h : 0 < m.rom.CHR.length) (addr : UInt16) : (m.readCHR addr).isSome := by
  unfold readCHR
  split
  · simp [goMod_of_pos h, Nat.mod_lt _ h]
  · rfl

/-- With pattern memory present, CHR writes never panic. -/
theorem writeCHR_isSome {m : Mapper007} (h : 0 < m.rom.CHR.length) (addr : UInt16) (data : UInt8) :
    (m.writeCHR addr data).isSome := by
  unfold writeCHR
  split
  · rfl
  · split
    · simp [goMod_of_pos h]
    · rfl

private theorem getElem?_isSome_iff {xs : List UInt8} {i : Nat} : xs[i]?.isSome ↔ i < xs.length := by
  by_cases hi : i < xs.length
  · simp [List.getElem?_eq_getElem hi, hi]
  · simp [List.getElem?_eq_none (Nat.le_of_not_lt hi), hi]

/-- A read of `$8000–$FFFF` is in range exactly when the selected bank lies inside program ROM. -/
theorem readPRG_isSome_iff {m : Mapper007} {addr : UInt16} (h : 0x8000 ≤ addr) :
    (m.readPRG addr).isSome ↔ m.prgBank.toNat * 0x8000 + (addr.toNat - 0x8000) < m.rom.PRG.length := by
  have hlt := UInt16.toNat_lt addr
  have hsub : (addr - 0x8000).toNat = addr.toNat - 0x8000 := UInt16.toNat_sub_of_le _ _ h
  have hmod : (addr.toNat - 0x8000) % 0x8000 = addr.toNat - 0x8000 := Nat.mod_eq_of_lt (by omega)
  simp [readPRG, h, UInt16.le_FFFF, hsub, hmod, getElem?_isSome_iff]

theorem Reachable.PRG {rom : ROM} {m : Mapper007} {v : UInt8} (h : Reachable rom m v) : m.rom.PRG = rom.PRG := by
  induction h with
  | init => rfl
  | op o _ ho ih => exact (apply_PRG ho).trans ih
  | load _ _ hl ih _ =>
    rw [loadState_saveState] at hl
    cases hl
    exact ih

/-- On a ROM of eight banks every PRG read is in range: the register holds at most bank 7. -/
theorem readPRG_isSome_of_eight_banks {rom : ROM} {m : Mapper007} {v : UInt8} (h : Reachable rom m v)
    (hprg : rom.PRG.length = 8 * 0x8000) (addr : UInt16) : (m.readPRG addr).isSome := by
  by_cases ha : 0x8000 ≤ addr
  · have hbank : m.prgBank.toNat ≤ 7 := by
      rw [(banksOf_of_reachable h).1, UInt8.and_toNat]
      exact Nat.and_le_right
    rw [readPRG_isSome_iff ha, h.PRG, hprg]
    have := UInt16.toNat_lt addr
    have := UInt16.le_iff_toNat_le.mp ha
    change _ < 8 * 32768
    change 32768 ≤ _ at this
    omega
  · simp [readPRG, ha]

/-- Bank 1 of a one-bank ROM: the read indexes past the end of `PRG`. -/
theorem readPRG_past_last_bank :
    ((newMapper7 blankCart).writePRG 0x8000 1).readPRG 0x8000 = none := by
  rw [← Option.not_isSome_iff_eq_none, readPRG_isSome_iff (by decide), writePRG_rom]
  simp only [writePRG_eq, newMapper7, if_pos (show (0x8000 : UInt16) ≤ 0x8000 by decide), blankCart,
    List.length_replicate]
  decide

end Mapper007

end Dendy
