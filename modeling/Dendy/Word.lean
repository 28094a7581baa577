import Mathlib.Algebra.Group.Nat.Basic
import Mathlib.Data.Nat.Defs
import Mathlib.Logic.Function.Basic
import Mathlib.Tactic.SplitIfs

/-!
# Machine words

The emulator counts frames in `uint32`, master ticks in `uint64`, and decodes addresses in `uint16`. The model keeps
those types; the facts below move a comparison or an increment of a word to its value in `Nat`, where `omega` works.
-/

namespace Dendy

theorem UInt16.le_iff_toNat_le {a b : UInt16} : a ≤ b ↔ a.toNat ≤ b.toNat := by
  rw [UInt16.le_def, BitVec.le_def]; rfl

theorem UInt16.toNat_lt (a : UInt16) : a.toNat < 65536 := a.toNat_lt_size

theorem UInt16.le_FFFF (a : UInt16) : a ≤ 0xFFFF :=
  UInt16.le_iff_toNat_le.mpr (Nat.le_of_lt_succ (UInt16.toNat_lt a))

theorem UInt16.eq_iff_toNat_eq {a b : UInt16} : a = b ↔ a.toNat = b.toNat :=
  ⟨congrArg _, UInt16.toNat.inj⟩

@[simp] theorem UInt16.toNat_ofNat' {n : Nat} : (no_index (OfNat.ofNat n : UInt16)).toNat = n % 65536 := rfl

/-- `uint16(d) << 8`, the first address of page `d`. -/
theorem UInt8.toUInt16_shiftLeft_eight (d : UInt8) : (d.toUInt16 <<< 8).toNat = d.toNat * 256 := by
  have hd := d.toNat_lt_size
  show (UInt16.shiftLeft _ _).toNat = _
  simp only [UInt16.shiftLeft, UInt16.toNat, BitVec.toNat_shiftLeft, Nat.shiftLeft_eq]
  simp [UInt8.toUInt16, Nat.toUInt16, UInt16.ofNat, UInt16.mod, UInt8.size] at *
  omega

theorem UInt16.toNat_add_toUInt16 {a : UInt16} {i : Nat} (h : a.toNat + i < 65536) :
    (a + i.toUInt16).toNat = a.toNat + i := by
  have h' : a.toBitVec.toNat + i < 65536 := h
  show (a.toBitVec + BitVec.ofNat 16 i).toNat = a.toBitVec.toNat + i
  rw [BitVec.toNat_add, BitVec.toNat_ofNat]
  omega

theorem UInt32.lt_iff_toNat_lt {a b : UInt32} : a < b ↔ a.toNat < b.toNat := by
  rw [UInt32.lt_def, BitVec.lt_def]; rfl

theorem UInt32.eq_iff_toNat_eq {a b : UInt32} : a = b ↔ a.toNat = b.toNat :=
  ⟨congrArg _, UInt32.toNat.inj⟩

theorem UInt32.toNat_add_one (a : UInt32) : (a + 1).toNat = (a.toNat + 1) % 2 ^ 32 := by
  rw [UInt32.add_def]; simp [UInt32.toNat, BitVec.toNat_add]

/-- A `uint32` increment that does not wrap to zero adds one to the value. -/
theorem UInt32.toNat_add_one_of_ne {a : UInt32} (h : a + 1 ≠ 0) : (a + 1).toNat = a.toNat + 1 := by
  have hlt := a.toNat_lt_size
  rw [Ne, UInt32.eq_iff_toNat_eq, UInt32.toNat_add_one] at h
  rw [UInt32.toNat_add_one]
  simp only [UInt32.toNat_zero, UInt32.size] at h hlt
  omega

/-- A `uint32` below its largest value does not wrap to zero on an increment. -/
theorem UInt32.add_one_ne_zero {a : UInt32} (h : a.toNat + 1 < 2 ^ 32) : a + 1 ≠ 0 := by
  rw [Ne, UInt32.eq_iff_toNat_eq, UInt32.toNat_add_one, Nat.mod_eq_of_lt h]
  simp

/-- Nor does a `uint32` below another one. -/
theorem UInt32.add_one_ne_zero_of_lt {a b : UInt32} (h : a < b) : a + 1 ≠ 0 := by
  have hb := b.toNat_lt_size
  rw [UInt32.lt_iff_toNat_lt] at h
  exact UInt32.add_one_ne_zero (by simp only [UInt32.size] at hb; omega)

@[simp] theorem Nat.toUInt32_toNat (n : Nat) : n.toUInt32.toNat = n % 2 ^ 32 := rfl

theorem UInt64.eq_iff_toNat_eq {a b : UInt64} : a = b ↔ a.toNat = b.toNat :=
  ⟨congrArg _, UInt64.toNat.inj⟩

@[simp] theorem UInt64.toNat_ofNat' {n : Nat} : (no_index (OfNat.ofNat n : UInt64)).toNat = n % 2 ^ 64 := rfl

theorem UInt64.toNat_add_one (a : UInt64) : (a + 1).toNat = (a.toNat + 1) % 2 ^ 64 := by
  rw [UInt64.add_def]; simp [UInt64.toNat, BitVec.toNat_add]

end Dendy
