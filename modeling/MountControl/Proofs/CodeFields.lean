import Mathlib.Algebra.Group.Nat.Defs
import MountControl.Request.Code

namespace MountControl

namespace RequestCode

/-- A field is the word shifted down by the field's place, without the bits above it. -/
theorem toNat_field (code : RequestCode) (f : CodeField) :
    (code.field f).toNat = code.raw.toNat / 2 ^ f.shift.toNat % 2 ^ f.bits.toNat := by
  have hmask : f.mask.toNat = 2 ^ f.bits.toNat - 1 := by cases f <;> rfl
  have hshift : f.shift.toNat % 32 = f.shift.toNat := by cases f <;> rfl
  rw [field, UInt32.toNat_and, UInt32.toNat_shiftRight, hmask, hshift,
    Nat.and_two_pow_sub_one_eq_mod, Nat.shiftRight_eq_div_pow]

theorem toNat_size (code : RequestCode) :
    code.size.toNat = code.raw.toNat / 2 ^ 16 % 2 ^ 14 :=
  code.toNat_field .size

def directionDigit (code : RequestCode) : Nat :=
  code.raw.toNat / 2 ^ 30

theorem directionDigit_lt (code : RequestCode) : code.directionDigit < 4 := by
  have h := code.raw.toNat_lt
  unfold directionDigit
  omega

/-- The four directions, by the number that stands for them. -/
theorem direction_cases (code : RequestCode) :
    (code.directionDigit = 0 ∧ code.direction = .none) ∨
      (code.directionDigit = 1 ∧ code.direction = .write) ∨
      (code.directionDigit = 2 ∧ code.direction = .read) ∨
      (code.directionDigit = 3 ∧ code.direction = .readWrite) := by
  have hlt := code.directionDigit_lt
  have hdigit : ((code.raw >>> CodeField.direction.shift) &&& 3).toNat = code.directionDigit := by
    rw [UInt32.toNat_and, UInt32.toNat_shiftRight]
    change (code.raw.toNat >>> 30) &&& (2 ^ 2 - 1) = code.directionDigit
    rw [Nat.and_two_pow_sub_one_eq_mod, Nat.shiftRight_eq_div_pow]
    exact Nat.mod_eq_of_lt hlt
  have heq (n : UInt32) : (code.raw >>> CodeField.direction.shift) &&& 3 = n ↔
      code.directionDigit = n.toNat := by
    rw [← UInt32.toNat_inj, hdigit]
  simp only [direction, Direction.ofBits, heq]
  rcases (by omega : code.directionDigit = 0 ∨ code.directionDigit = 1 ∨
    code.directionDigit = 2 ∨ code.directionDigit = 3) with h | h | h | h <;> simp [h]

theorem hasPayload_iff (code : RequestCode) :
    code.direction.hasPayload ↔ code.directionDigit ≠ 0 := by
  rcases code.direction_cases with ⟨h, hd⟩ | ⟨h, hd⟩ | ⟨h, hd⟩ | ⟨h, hd⟩ <;> rw [h, hd] <;> decide

/-- Input is sent if the lower of the two bits is set. -/
theorem sendsInput_iff (code : RequestCode) :
    code.direction.sendsInput ↔ code.directionDigit % 2 = 1 := by
  rcases code.direction_cases with ⟨h, hd⟩ | ⟨h, hd⟩ | ⟨h, hd⟩ | ⟨h, hd⟩ <;> rw [h, hd] <;> decide

/-- Output is returned if the higher of the two bits is set. -/
theorem returnsOutput_iff (code : RequestCode) :
    code.direction.returnsOutput ↔ 2 ≤ code.directionDigit := by
  rcases code.direction_cases with ⟨h, hd⟩ | ⟨h, hd⟩ | ⟨h, hd⟩ | ⟨h, hd⟩ <;> rw [h, hd] <;> decide

end RequestCode

end MountControl
