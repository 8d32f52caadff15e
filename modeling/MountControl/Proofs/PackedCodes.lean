import MountControl.Proofs.CodeFields

namespace MountControl

theorem Direction.bits_injective {d d' : Direction} (h : d.bits.toNat = d'.bits.toNat) :
    d = d' := by
  cases d <;> cases d' <;> first | rfl | exact absurd h (by decide)

theorem Direction.bits_lt (d : Direction) : d.bits.toNat < 4 := by
  cases d <;> decide

structure CodeFields where
  direction : Direction
  type : UInt32
  number : UInt32
  size : UInt32

namespace CodeFields

/-- The value of a field as a number; a direction counts by the bits that stand for it. -/
def value (x : CodeFields) : CodeField → Nat
  | .number => x.number.toNat
  | .type => x.type.toNat
  | .size => x.size.toNat
  | .direction => x.direction.bits.toNat

structure Fits (x : CodeFields) : Prop where
  type : x.type.toNat < 2 ^ 8
  number : x.number.toNat < 2 ^ 8
  size : x.size.toNat < 2 ^ 14

/-- The first field that does not fit, in the order type, number, size, with its value and the
width that it should have. -/
inductive Overflows (x : CodeFields) : ProtocolFault → Prop
  | type (h : 2 ^ 8 ≤ x.type.toNat) : Overflows x (.fieldOverflow .type x.type 8)
  | number (htype : x.type.toNat < 2 ^ 8) (h : 2 ^ 8 ≤ x.number.toNat) :
      Overflows x (.fieldOverflow .number x.number 8)
  | size (htype : x.type.toNat < 2 ^ 8) (hnumber : x.number.toNat < 2 ^ 8)
      (h : 2 ^ 14 ≤ x.size.toNat) : Overflows x (.fieldOverflow .size x.size 14)

def pack? (x : CodeFields) : Except ProtocolFault RequestCode :=
  RequestCode.pack? x.direction x.type x.number x.size

def pack (x : CodeFields) : Except WideField RequestCode :=
  RequestCode.pack x.direction x.type x.number x.size

def assemble (x : CodeFields) : RequestCode :=
  RequestCode.assemble x.direction x.type x.number x.size

def total (x : CodeFields) : Nat :=
  x.direction.bits.toNat * 2 ^ 30 + x.size.toNat * 2 ^ 16 + x.type.toNat * 2 ^ 8 + x.number.toNat

variable {x : CodeFields}

theorem Fits.not_overflows {fault : ProtocolFault} (h : x.Fits) : ¬ x.Overflows fault := by
  intro hover
  cases hover with
  | type htype => exact Nat.not_le_of_lt h.type htype
  | number _ hnumber => exact Nat.not_le_of_lt h.number hnumber
  | size _ _ hsize => exact Nat.not_le_of_lt h.size hsize

/-- The fault is that of the first field that overflows. -/
theorem Overflows.unique {fault fault' : ProtocolFault} (h : x.Overflows fault)
    (h' : x.Overflows fault') : fault = fault' := by
  cases h <;> cases h' <;> first | rfl | omega

/-- Nothing is lost where the shifted fields are put together, since each ends where the next
begins. -/
theorem toNat_assemble (h : x.Fits) : x.assemble.raw.toNat = x.total := by
  have hdirection := x.direction.bits_lt
  have htype := h.type
  have hnumber := h.number
  have hsize := h.size
  have hkept (n k : Nat) (hn : n * 2 ^ k < 2 ^ 32) : n <<< k % 2 ^ 32 = n * 2 ^ k := by
    rw [Nat.shiftLeft_eq, Nat.mod_eq_of_lt hn]
  have hput (n k low : Nat) (hlow : low < 2 ^ k) : n * 2 ^ k ||| low = n * 2 ^ k + low := by
    rw [← Nat.shiftLeft_eq, Nat.shiftLeft_add_eq_or_of_lt hlow]
  have hraw : x.assemble.raw.toNat =
      ((x.direction.bits.toNat <<< 30 % 2 ^ 32 ||| x.type.toNat <<< 8 % 2 ^ 32) |||
        x.number.toNat <<< 0 % 2 ^ 32) ||| x.size.toNat <<< 16 % 2 ^ 32 := by
    change (_ ||| _ ||| _ ||| _ : UInt32).toNat = _
    simp only [UInt32.toNat_or, UInt32.toNat_shiftLeft]
    rfl
  rw [hraw, hkept _ 30 (by omega), hkept _ 8 (by omega), hkept _ 0 (by omega),
    hkept _ 16 (by omega), Nat.pow_zero, Nat.mul_one]
  -- the size comes last in the word's definition, but its place is above the type's
  rw [Nat.or_assoc, Nat.or_assoc, ← Nat.or_assoc (x.type.toNat * 2 ^ 8), hput _ 8 _ hnumber,
    Nat.or_comm (x.type.toNat * 2 ^ 8 + x.number.toNat), hput _ 16 _ (by omega),
    hput _ 30 _ (by omega), total]
  omega

end CodeFields

namespace RequestCode

variable {f : SizedField} {v : UInt32} {place : CodeField}

/-- A value has nothing left above a width just if it is below that power of two. -/
theorem shiftRight_bits_eq_zero_iff : v >>> place.bits = 0 ↔ v.toNat < 2 ^ place.bits.toNat := by
  have hshift : place.bits.toNat % 32 = place.bits.toNat := by cases place <;> rfl
  rw [← UInt32.toNat_inj, UInt32.toNat_shiftRight, hshift, Nat.shiftRight_eq_div_pow]
  exact Nat.div_eq_zero_iff_lt (Nat.two_pow_pos _)

theorem checkField_of_lt (place : CodeField) (h : v.toNat < 2 ^ place.bits.toNat) :
    checkField f v place = .ok () :=
  if_pos (shiftRight_bits_eq_zero_iff.mpr h)

theorem checkField_of_le (place : CodeField) (h : 2 ^ place.bits.toNat ≤ v.toNat) :
    checkField f v place = .error (.fieldOverflow f v place.bits.toNat) :=
  if_neg (mt shiftRight_bits_eq_zero_iff.mp (Nat.not_lt_of_le h))

/-- A value is above a field's mask just if it does not fit its width. -/
theorem mask_lt_iff : place.mask < v ↔ 2 ^ place.bits.toNat ≤ v.toNat := by
  have hmask : place.mask.toNat + 1 = 2 ^ place.bits.toNat := by cases place <;> rfl
  rw [UInt32.lt_iff_toNat_lt, ← hmask]
  exact Iff.rfl

end RequestCode

namespace CodeFields

open RequestCode

variable {x : CodeFields} {code : RequestCode}

def Agree : Except WideField RequestCode → Except ProtocolFault RequestCode → Prop
  | .ok code, .ok code' => code = code'
  | .error w, .error (.fieldOverflow f _ _) => w.field = f
  | _, _ => False

/-- Either all fields fit and are put together, or both ways of packing stop at the first that does
not. -/
theorem pack_cases (x : CodeFields) :
    (x.Fits ∧ x.pack? = .ok x.assemble ∧ x.pack = .ok x.assemble) ∨
      ∃ fault, x.Overflows fault ∧ x.pack? = .error fault ∧ Agree x.pack (.error fault) := by
  have hwide (place : CodeField) (v : UInt32) (h : ¬ v.toNat < 2 ^ place.bits.toNat) :
      place.mask < v := mask_lt_iff.mpr (Nat.le_of_not_lt h)
  have hnarrow (place : CodeField) (v : UInt32) (h : v.toNat < 2 ^ place.bits.toNat) :
      ¬ place.mask < v := mt mask_lt_iff.mp (Nat.not_le_of_lt h)
  unfold pack? pack RequestCode.pack? RequestCode.pack
  -- field by field, in the order in which they are checked
  by_cases htype : x.type.toNat < 2 ^ 8
  case neg =>
    refine .inr ⟨_, .type (Nat.le_of_not_lt htype), ?_⟩
    rw [checkField_of_le .type (Nat.le_of_not_lt htype), if_pos (hwide .type _ htype)]
    exact ⟨rfl, rfl⟩
  rw [checkField_of_lt .type htype, if_neg (hnarrow .type _ htype)]
  by_cases hnumber : x.number.toNat < 2 ^ 8
  case neg =>
    refine .inr ⟨_, .number htype (Nat.le_of_not_lt hnumber), ?_⟩
    rw [checkField_of_le .number (Nat.le_of_not_lt hnumber), if_pos (hwide .number _ hnumber)]
    exact ⟨rfl, rfl⟩
  rw [checkField_of_lt .number hnumber, if_neg (hnarrow .number _ hnumber)]
  by_cases hsize : x.size.toNat < 2 ^ 14
  case neg =>
    refine .inr ⟨_, .size htype hnumber (Nat.le_of_not_lt hsize), ?_⟩
    rw [checkField_of_le .size (Nat.le_of_not_lt hsize), if_pos (hwide .size _ hsize)]
    exact ⟨rfl, rfl⟩
  rw [checkField_of_lt .size hsize, if_neg (hnarrow .size _ hsize)]
  exact .inl ⟨⟨htype, hnumber, hsize⟩, rfl, rfl⟩

theorem Agree.of_pack_cases (x : CodeFields) : Agree x.pack x.pack? := by
  rcases x.pack_cases with ⟨-, hchecked, hpacked⟩ | ⟨fault, -, hchecked, hagree⟩
  · rw [hchecked, hpacked]
    exact rfl
  · rw [hchecked]
    exact hagree

/-- Packing fails just by the first field that overflows. -/
theorem pack?_eq_error_iff {fault : ProtocolFault} :
    x.pack? = .error fault ↔ x.Overflows fault := by
  rcases x.pack_cases with ⟨hfits, hchecked, -⟩ | ⟨fault', hover, hchecked, -⟩
  · rw [hchecked]
    exact iff_of_false nofun hfits.not_overflows
  · rw [hchecked, Except.error.injEq]
    constructor
    · rintro rfl
      exact hover
    · exact hover.unique

end CodeFields

namespace RequestCode

variable {code : RequestCode}

def fields (code : RequestCode) : CodeFields where
  direction := code.direction
  type := code.type
  number := code.number
  size := code.size

theorem toNat_type (code : RequestCode) : code.type.toNat = code.raw.toNat / 2 ^ 8 % 2 ^ 8 :=
  code.toNat_field .type

theorem toNat_number (code : RequestCode) : code.number.toNat = code.raw.toNat / 2 ^ 0 % 2 ^ 8 :=
  code.toNat_field .number

theorem toNat_bits_direction (code : RequestCode) :
    code.direction.bits.toNat = code.directionDigit := by
  rcases code.direction_cases with ⟨h, hd⟩ | ⟨h, hd⟩ | ⟨h, hd⟩ | ⟨h, hd⟩ <;> rw [h, hd] <;> rfl

theorem value_fields (code : RequestCode) (f : CodeField) :
    code.fields.value f = (code.field f).toNat := by
  cases f with
  | number | type | size => rfl
  | direction =>
    change code.direction.bits.toNat = (code.field .direction).toNat
    rw [toNat_bits_direction, toNat_field]
    exact (Nat.mod_eq_of_lt code.directionDigit_lt).symm

theorem fits_fields (code : RequestCode) : code.fields.Fits := by
  have hwidth (f : CodeField) : (code.field f).toNat < 2 ^ f.bits.toNat := by
    rw [toNat_field]
    exact Nat.mod_lt _ (Nat.two_pow_pos _)
  exact ⟨hwidth .type, hwidth .number, hwidth .size⟩

/-- A word is the sum of its fields. -/
theorem total_fields (code : RequestCode) : code.fields.total = code.raw.toNat := by
  have hdirection : code.fields.direction.bits.toNat = code.raw.toNat / 2 ^ 30 :=
    code.toNat_bits_direction
  have hsize : code.fields.size.toNat = _ := code.toNat_size
  have htype : code.fields.type.toNat = _ := code.toNat_type
  have hnumber : code.fields.number.toNat = _ := code.toNat_number
  rw [CodeFields.total, hdirection, hsize, htype, hnumber]
  omega

/-- A word is the sum of its fields. -/
theorem eq_of_total {code' : RequestCode} (h : code.raw.toNat = code'.raw.toNat) :
    code = code' := by
  cases code
  cases code'
  exact congrArg RequestCode.mk (UInt32.toNat_inj.mp h)

/-- A bit of the word is a bit of the field whose place it is in. -/
theorem testBit_raw (code : RequestCode) (f : CodeField) {k : Nat} (hk : k < f.bits.toNat) :
    code.raw.toNat.testBit (f.shift.toNat + k) = (code.fields.value f).testBit k := by
  rw [value_fields, toNat_field, Nat.testBit_mod_two_pow, Nat.testBit_div_two_pow,
    decide_eq_true hk, Bool.true_and, Nat.add_comm]

end RequestCode

/-- Every bit of a word is in the place of a field. -/
theorem CodeField.exists_place (i : Fin 32) :
    ∃ (f : CodeField) (k : Nat), k < f.bits.toNat ∧ i = f.shift.toNat + k := by
  have hi := i.isLt
  have hshift : CodeField.number.shift.toNat = 0 ∧ CodeField.type.shift.toNat = 8 ∧
      CodeField.size.shift.toNat = 16 ∧ CodeField.direction.shift.toNat = 30 := by decide
  have hbits : CodeField.number.bits.toNat = 8 ∧ CodeField.type.bits.toNat = 8 ∧
      CodeField.size.bits.toNat = 14 ∧ CodeField.direction.bits.toNat = 2 := by decide
  by_cases hnumber : (i : Nat) < 8
  · exact ⟨.number, i, by omega, by omega⟩
  by_cases htype : (i : Nat) < 16
  · exact ⟨.type, i - 8, by omega, by omega⟩
  by_cases hsize : (i : Nat) < 30
  · exact ⟨.size, i - 16, by omega, by omega⟩
  · exact ⟨.direction, i - 30, by omega, by omega⟩

namespace CodeFields

open RequestCode

variable {x : CodeFields} {code : RequestCode}

/-- Fields that fit are read back from the word they are put in. -/
theorem fields_assemble (h : x.Fits) : x.assemble.fields = x := by
  have htotal := toNat_assemble h
  have hdirection := x.direction.bits_lt
  have htype := h.type
  have hnumber := h.number
  have hsize := h.size
  unfold total at htotal
  have hd : x.assemble.direction = x.direction := by
    apply Direction.bits_injective
    rw [toNat_bits_direction, directionDigit]
    omega
  have ht : x.assemble.type = x.type := by
    rw [← UInt32.toNat_inj, toNat_type]
    omega
  have hn : x.assemble.number = x.number := by
    rw [← UInt32.toNat_inj, toNat_number]
    omega
  have hs : x.assemble.size = x.size := by
    rw [← UInt32.toNat_inj, toNat_size]
    omega
  rw [fields, hd, ht, hn, hs]

/-- It succeeds just if all fields fit, with the word that has these fields. -/
theorem pack?_eq_ok_iff : x.pack? = .ok code ↔ x.Fits ∧ code.fields = x := by
  rcases x.pack_cases with ⟨hfits, hchecked, -⟩ | ⟨fault, hover, hchecked, -⟩
  · rw [hchecked, Except.ok.injEq]
    constructor
    · rintro rfl
      exact ⟨hfits, fields_assemble hfits⟩
    · rintro ⟨-, hfields⟩
      -- two words with the same fields are the same sum
      apply eq_of_total
      rw [toNat_assemble hfits, ← hfields, total_fields]
  · rw [hchecked]
    exact iff_of_false nofun fun h => h.1.not_overflows hover

end CodeFields

namespace RequestCode

/-- Packing and taking out the fields are inverse to each other. Four fields that fit are packed
into the one word that has them, and others are refused at the first that does not fit; each bit of
the word is a bit of one field. The ways of packing agree, and the fields of any word can be packed
into that word. -/
theorem packing_inverts_fields :
    (∀ (x : CodeFields) (code : RequestCode), x.pack? = .ok code ↔ x.Fits ∧ code.fields = x) ∧
    (∀ (x : CodeFields) (fault : ProtocolFault), x.pack? = .error fault ↔ x.Overflows fault) ∧
    (∀ i : Fin 32, ∃ (f : CodeField) (k : Nat), i = f.shift.toNat + k ∧
      ∀ (x : CodeFields) (code : RequestCode), x.pack? = .ok code →
        code.raw.toNat.testBit i = (x.value f).testBit k) ∧
    (∀ x : CodeFields, CodeFields.Agree x.pack x.pack?) ∧
    (∀ type number size : UInt32,
      CodeFields.Agree (io type number) (pack? .none type number 0) ∧
      CodeFields.Agree (ior type number size) (pack? .read type number size) ∧
      CodeFields.Agree (iow type number size) (pack? .write type number size) ∧
      CodeFields.Agree (iowr type number size) (pack? .readWrite type number size)) ∧
    (∀ raw : UInt32, (fields ⟨raw⟩).Fits ∧ (fields ⟨raw⟩).pack? = .ok ⟨raw⟩) := by
  refine ⟨fun x code => CodeFields.pack?_eq_ok_iff, fun x fault => CodeFields.pack?_eq_error_iff,
    ?_, CodeFields.Agree.of_pack_cases, ?_, ?_⟩
  · intro i
    obtain ⟨f, k, hk, hi⟩ := CodeField.exists_place i
    refine ⟨f, k, hi, ?_⟩
    intro x code hcode
    obtain ⟨-, rfl⟩ := CodeFields.pack?_eq_ok_iff.mp hcode
    rw [hi, testBit_raw code f hk]
  · intro type number size
    have hagree (direction : Direction) (size : UInt32) :
        CodeFields.Agree (pack direction type number size) (pack? direction type number size) :=
      .of_pack_cases ⟨direction, type, number, size⟩
    exact ⟨hagree .none 0, hagree .read size, hagree .write size, hagree .readWrite size⟩
  · intro raw
    have hfits := fits_fields ⟨raw⟩
    exact ⟨hfits, CodeFields.pack?_eq_ok_iff.mpr ⟨hfits, rfl⟩⟩

/-- The largest fields of all fill the whole word. -/
example : (⟨.readWrite, 0xFF, 0xFF, 0x3FFF⟩ : CodeFields).pack?.toOption = some ⟨0xFFFFFFFF⟩ := by
  decide

end RequestCode

end MountControl
