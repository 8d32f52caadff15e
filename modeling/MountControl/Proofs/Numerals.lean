import Mathlib.Algebra.Group.Nat.Defs
import Mathlib.Data.List.TakeWhile
import MountControl.Number.Binary64
import MountControl.Proofs.FallibleSteps
import MountControl.Proofs.LowerCaseText

namespace MountControl

structure Spells (digits : List Char) (n : Nat) : Prop where
  nonempty : digits ≠ []
  allDigits : ∀ c ∈ digits, c.isDigit = true
  value : decimalValue digits = n

def Numeral (s : String) (n : Nat) : Prop :=
  ∃ digits, Spells digits n ∧ (s.toList = digits ∨ s.toList = '+' :: digits)

def MinusNumeral (s : String) (n : Nat) : Prop :=
  ∃ digits, Spells digits n ∧ s.toList = '-' :: digits

section Digits

variable {limit n m : Nat} {beyond : NumeralFault} {digits cs : List Char} {c : Char} {s : String}

def valueOnto (n : Nat) (digits : List Char) : Nat :=
  digits.foldl (fun n c => n * 10 + digitValue c) n

theorem valueOnto_cons (n : Nat) (c : Char) (digits : List Char) :
    valueOnto n (c :: digits) = valueOnto (n * 10 + digitValue c) digits := by
  rw [valueOnto, List.foldl_cons, ← valueOnto]

/-- Each digit multiplies what was read so far by ten at least. -/
theorem pow_le_valueOnto (n : Nat) (digits : List Char) :
    n * 10 ^ digits.length ≤ valueOnto n digits := by
  induction digits generalizing n with
  | nil => exact Nat.le_of_eq (Nat.mul_one n)
  | cons c digits ih =>
    rw [valueOnto_cons]
    calc n * 10 ^ (digits.length + 1) = n * 10 * 10 ^ digits.length := by
          rw [Nat.pow_succ, Nat.mul_assoc, Nat.mul_comm 10]
      _ ≤ (n * 10 + digitValue c) * 10 ^ digits.length :=
          Nat.mul_le_mul_right _ (Nat.le_add_right _ _)
      _ ≤ valueOnto (n * 10 + digitValue c) digits := ih _

theorem le_valueOnto (n : Nat) (digits : List Char) : n ≤ valueOnto n digits :=
  Nat.le_trans (Nat.le_mul_of_pos_right n (Nat.pow_pos (by decide))) (pow_le_valueOnto n digits)

/-- Digits are read just if all are digits and their value keeps to the limit, though the limit is
checked at every digit. -/
theorem readDigits_eq_ok_iff (hn : n ≤ limit) :
    readDigits limit beyond n cs = .ok m ↔
      (∀ c ∈ cs, c.isDigit = true) ∧ valueOnto n cs = m ∧ m ≤ limit := by
  induction cs generalizing n with
  | nil =>
    constructor
    · rintro ⟨⟩
      exact ⟨nofun, rfl, hn⟩
    · rintro ⟨-, rfl, -⟩
      rfl
  | cons c cs ih =>
    rw [readDigits, List.forall_mem_cons, valueOnto_cons]
    by_cases hc : c.isDigit = true
    · rw [if_pos hc]
      dsimp only
      by_cases hnext : n * 10 + digitValue c ≤ limit
      · rw [if_pos hnext, ih hnext]
        exact ⟨fun ⟨hcs, h⟩ => ⟨⟨hc, hcs⟩, h⟩, fun ⟨⟨_, hcs⟩, h⟩ => ⟨hcs, h⟩⟩
      · -- the digits that follow can only make the number larger
        rw [if_neg hnext]
        refine iff_of_false nofun ?_
        rintro ⟨-, rfl, hle⟩
        exact hnext (Nat.le_trans (le_valueOnto _ cs) hle)
    · rw [if_neg hc]
      exact iff_of_false nofun fun h => hc h.1.1

theorem readDigits_zero_eq_ok_iff (hcs : cs ≠ []) :
    readDigits limit beyond 0 cs = .ok m ↔ Spells cs m ∧ m ≤ limit := by
  rw [readDigits_eq_ok_iff (Nat.zero_le limit)]
  constructor
  · rintro ⟨hdigits, hvalue, hle⟩
    exact ⟨⟨hcs, hdigits, hvalue⟩, hle⟩
  · rintro ⟨hspells, hle⟩
    exact ⟨hspells.allDigits, hspells.value, hle⟩

theorem Spells.head_isDigit (h : Spells (c :: cs) n) : c.isDigit = true :=
  h.allDigits c List.mem_cons_self

/-- A number without a minus sign is read from its digits, with one plus sign before them at most.
-/
theorem readUnsigned_eq_ok_iff :
    readUnsigned limit cs = .ok m ↔
      (∃ digits, Spells digits m ∧ (cs = digits ∨ cs = '+' :: digits)) ∧ m ≤ limit := by
  unfold readUnsigned
  split
  case h_1 =>
    refine iff_of_false nofun ?_
    rintro ⟨⟨digits, hspells, rfl | h⟩, -⟩
    · exact hspells.nonempty rfl
    · cases h
  case h_2 =>
    refine iff_of_false nofun ?_
    rintro ⟨⟨digits, hspells, rfl | h⟩, -⟩
    · exact absurd hspells.head_isDigit (by decide)
    · cases h
      exact hspells.nonempty rfl
  case h_3 rest hrest =>
    rw [readDigits_zero_eq_ok_iff fun h => hrest h]
    constructor
    · rintro ⟨hspells, hle⟩
      exact ⟨⟨rest, hspells, .inr rfl⟩, hle⟩
    · rintro ⟨⟨digits, hspells, rfl | h⟩, hle⟩
      · exact absurd hspells.head_isDigit (by decide)
      · cases h
        exact ⟨hspells, hle⟩
  case h_4 hnil hsign hplus =>
    rw [readDigits_zero_eq_ok_iff fun h => hnil h]
    constructor
    · rintro ⟨hspells, hle⟩
      exact ⟨⟨cs, hspells, .inl rfl⟩, hle⟩
    · rintro ⟨⟨digits, hspells, rfl | h⟩, hle⟩
      · exact ⟨hspells, hle⟩
      · exact absurd h (hplus digits)

theorem Spells.exists_cons (h : Spells digits n) : ∃ c cs, digits = c :: cs :=
  List.exists_cons_of_ne_nil h.nonempty

/-- Digits spell one number. -/
theorem Spells.unique (h : Spells digits n) (h' : Spells digits m) : n = m :=
  h.value.symm.trans h'.value

theorem Spells.ne_sign (h : Spells (c :: cs) n) : c ≠ '+' ∧ c ≠ '-' := by
  have hdigit := h.head_isDigit
  constructor <;>
  · rintro rfl
    exact absurd hdigit (by decide)

theorem Numeral.unique (h : Numeral s n) (h' : Numeral s m) : n = m := by
  obtain ⟨digits, hspells, hs⟩ := h
  obtain ⟨digits', hspells', hs'⟩ := h'
  rcases hs with hs | hs <;> rcases hs' with hs' | hs' <;> rw [hs] at hs'
  · subst hs'
    exact hspells.unique hspells'
  · subst hs'
    exact absurd rfl hspells.ne_sign.1
  · subst hs'
    exact absurd rfl hspells'.ne_sign.1
  · cases hs'
    exact hspells.unique hspells'

theorem MinusNumeral.unique (h : MinusNumeral s n) (h' : MinusNumeral s m) : n = m := by
  obtain ⟨digits, hspells, hs⟩ := h
  obtain ⟨digits', hspells', hs'⟩ := h'
  rw [hs] at hs'
  cases hs'
  exact hspells.unique hspells'

/-- No text is a numeral both with and without a minus sign. -/
theorem Numeral.not_minus (h : Numeral s n) : ¬ MinusNumeral s m := by
  rintro ⟨digits', hspells', hs'⟩
  obtain ⟨digits, hspells, hs | hs⟩ := h
  · rw [hs] at hs'
    subst hs'
    exact hspells.ne_sign.2 rfl
  · rw [hs] at hs'
    cases hs'

theorem map_lift_eq_ok_iff {ε α : Type} {x : Except ε Nat} {f : Int → α} {b : α} :
    (x >>= fun n => pure (n : Int)).map f = .ok b ↔ ∃ n : Nat, x = .ok n ∧ f n = b := by
  cases x <;> simp [bind, Except.bind, pure, Except.pure, Except.map]

/-- The texts of 64-bit words are the numbers in their range. -/
theorem readWord64_eq_ok_iff {n : UInt64} : readWord64 s = .ok n ↔ Numeral s n.toNat := by
  rw [readWord64, map_eq_ok_iff]
  constructor
  · rintro ⟨m, hm, rfl⟩
    obtain ⟨hnumeral, hle⟩ := readUnsigned_eq_ok_iff.mp hm
    rw [UInt64.toNat_ofNat_of_lt' (Nat.lt_succ_of_le hle)]
    exact hnumeral
  · intro h
    have hlt := n.toNat_lt
    refine ⟨n.toNat, readUnsigned_eq_ok_iff.mpr ⟨h, by omega⟩, UInt64.ofNat_toNat⟩

/-- The texts of signed 64-bit words are the numbers in their range, with a minus sign below zero.
-/
theorem readInt64_eq_ok_iff {i : Int} :
    readInt64 s = .ok i ↔
      (∃ n : Nat, Numeral s n ∧ n < 2 ^ 63 ∧ i = n) ∨
        ∃ n : Nat, MinusNumeral s n ∧ n ≤ 2 ^ 63 ∧ i = -n := by
  unfold readInt64 readSigned Numeral MinusNumeral
  generalize s.toList = cs
  split
  case h_1 =>
    refine iff_of_false nofun ?_
    rintro (⟨n, ⟨digits, hspells, rfl | h⟩, -⟩ | ⟨n, ⟨digits, hspells, h⟩, -⟩)
    · exact absurd hspells.head_isDigit (by decide)
    · cases h
    · cases h
      exact hspells.nonempty rfl
  case h_2 rest hrest =>
    rw [map_lift_eq_ok_iff]
    constructor
    · rintro ⟨n, hn, rfl⟩
      obtain ⟨hspells, hle⟩ := (readDigits_zero_eq_ok_iff fun h => hrest h).mp hn
      exact .inr ⟨n, ⟨rest, hspells, rfl⟩, hle, rfl⟩
    · rintro (⟨n, ⟨digits, hspells, rfl | h⟩, -⟩ | ⟨n, ⟨digits, hspells, h⟩, hle, rfl⟩)
      · exact absurd hspells.head_isDigit (by decide)
      · cases h
      · cases h
        exact ⟨n, (readDigits_zero_eq_ok_iff fun h => hrest h).mpr ⟨hspells, hle⟩, rfl⟩
  case h_3 hsign hminus =>
    rw [map_eq_ok_iff]
    constructor
    · rintro ⟨n, hn, rfl⟩
      obtain ⟨hnumeral, hle⟩ := readUnsigned_eq_ok_iff.mp hn
      exact .inl ⟨n, hnumeral, by omega, rfl⟩
    · rintro (⟨n, hnumeral, hlt, rfl⟩ | ⟨n, ⟨digits, -, h⟩, -⟩)
      · exact ⟨n, readUnsigned_eq_ok_iff.mpr ⟨hnumeral, by omega⟩, rfl⟩
      · exact absurd h (hminus digits)

theorem toNat_bounds_of_isDigit (h : c.isDigit = true) :
    '0'.toNat ≤ c.toNat ∧ c.toNat ≤ '9'.toNat := by
  simpa [Char.isDigit, UInt32.le_iff_toNat_le] using h

theorem toLower_of_isDigit (h : c.isDigit = true) : c.toLower = c := by
  apply toLower_of_lt
  exact Nat.lt_of_le_of_lt (toNat_bounds_of_isDigit h).2 (by decide)

theorem digitValue_pos (h : c.isDigit = true) (hzero : c ≠ '0') : 0 < digitValue c := by
  obtain ⟨hlow, -⟩ := toNat_bounds_of_isDigit h
  have hne : c.toNat ≠ '0'.toNat := fun heq => hzero (Char.toNat_inj.mp heq)
  unfold digitValue
  omega

theorem valueOnto_dropZeros (digits : List Char) :
    valueOnto 0 (digits.dropWhile (· == '0')) = valueOnto 0 digits := by
  induction digits with
  | nil => rfl
  | cons c digits ih =>
    by_cases hc : c = '0'
    · subst hc
      rw [List.dropWhile_cons_of_pos (by rfl), ih, valueOnto_cons]
      rfl
    · rw [List.dropWhile_cons_of_neg (by simpa using hc)]

/-- A number has not many digits after its leading zeros. -/
theorem Spells.length_dropZeros_le (h : Spells digits n) (hlimit : n < 10 ^ limit) :
    (digits.dropWhile (· == '0')).length ≤ limit := by
  have hvalue : valueOnto 0 (digits.dropWhile (· == '0')) = n := by
    rw [valueOnto_dropZeros]
    exact h.value
  cases hdrop : digits.dropWhile (· == '0') with
  | nil => exact Nat.zero_le limit
  | cons c rest =>
    have hmem : c ∈ digits := (List.dropWhile_sublist _).subset (hdrop ▸ List.mem_cons_self)
    have hc : c ≠ '0' := by
      have hhead := List.head?_dropWhile_not (· == '0') digits
      rw [hdrop] at hhead
      simpa using hhead
    -- the first digit that is left counts for at least a power of ten
    have hpos := digitValue_pos (h.allDigits c hmem) hc
    rw [hdrop, valueOnto_cons, Nat.zero_mul, Nat.zero_add] at hvalue
    have hle := pow_le_valueOnto (digitValue c) rest
    rw [hvalue] at hle
    have hpow : 10 ^ rest.length < 10 ^ limit :=
      calc 10 ^ rest.length ≤ digitValue c * 10 ^ rest.length := Nat.le_mul_of_pos_left _ hpos
        _ ≤ n := hle
        _ < 10 ^ limit := hlimit
    have hlt := (Nat.pow_lt_pow_iff_right (by decide)).mp hpow
    exact hlt

end Digits

namespace Binary64

variable {n : Nat} {digits cs : List Char} {c : Char} {s : String}

/-- The word that a number above the signed ones is read as: the nearest multiple of 2048, ties to
an even one, or the last word. -/
def nearestWord (n : Nat) : Nat :=
  min 0xFFFFFFFFFFFFFFFF (roundDiv n 2048 * 2048)

/-- Below the limit of words, those that a float keeps are the multiples of 2048 and the greatest
one. -/
theorem nearestWord_eq_self_iff (h : n < 2 ^ 64) :
    nearestWord n = n ↔ n % 2048 = 0 ∨ n = 2 ^ 64 - 1 := by
  unfold nearestWord roundDiv
  dsimp only
  split <;> omega

/-- The exponent of a large word is fixed by its length in bits. -/
theorem exponentFor_of_large (hlow : 2 ^ 63 ≤ n) (hhigh : n < 2 ^ 64) : exponentFor n 1 = 11 := by
  have hlog : Nat.log2 n = 63 := (Nat.log2_eq_iff (by omega)).mpr ⟨hlow, hhigh⟩
  -- the guess leaves 54 bits, one too many
  have hbits : ¬ n / 1024 < 0x20000000000000 := by omega
  have hguess : ((Nat.log2 n : Nat) : Int) - (Nat.log2 1 : Nat) - 53 = 10 := by
    rw [hlog]
    rfl
  have hscaled : scaled n 1 10 = (n, 1024) := rfl
  unfold exponentFor
  dsimp only
  rw [hguess, hscaled, if_neg hbits]
  rfl

theorem roundDiv_le (num den : Nat) : roundDiv num den ≤ num / den + 1 := by
  unfold roundDiv
  dsimp only
  split <;> omega

theorem ofFraction_of_large (hlow : 2 ^ 63 ≤ n) (hhigh : n < 2 ^ 64) :
    ofFraction false n 1 = finite false (roundDiv n 2048) 11 := by
  have hscaled : scaled n 1 11 = (n, 2048) := rfl
  have hexceeds : exceeds (roundDiv n 2048) 11 = false := by
    -- rounding up may take a bit more, which is far from the largest exponent
    have hle := roundDiv_le n 2048
    have hbits : Nat.log2 (roundDiv n 2048) < 54 := by
      by_cases hzero : roundDiv n 2048 = 0
      · rw [hzero]
        decide
      · rw [Nat.log2_lt hzero]
        omega
    have hlarge : ¬ (1024 : Int) ≤ (Nat.log2 (roundDiv n 2048) : Int) + 11 := by omega
    rw [exceeds, decide_eq_false hlarge, Bool.and_false]
  unfold ofFraction
  rw [if_neg (by omega), exponentFor_of_large hlow hhigh]
  dsimp only
  rw [hscaled]
  dsimp only
  rw [hexceeds]
  rfl

theorem ofDecimal_of_large (hlow : 2 ^ 63 ≤ n) (hhigh : n < 2 ^ 64) {length : Nat}
    (hlength : length ≤ 20) :
    ofDecimal false n length 0 = finite false (roundDiv n 2048) 11 := by
  unfold ofDecimal
  rw [if_neg (by omega), if_neg (by omega), if_neg (by omega), if_neg (by decide)]
  have hpow : n * Nat.pow 10 (0 : Int).toNat = n := Nat.mul_one n
  rw [hpow, ofFraction_of_large hlow hhigh]

theorem readMagnitude_of_spells (h : Spells digits n) (hlow : 2 ^ 63 ≤ n) (hhigh : n < 2 ^ 64) :
    readMagnitude false digits = some (finite false (roundDiv n 2048) 11) := by
  have hwhole : takeDigits digits = (digits, []) := by
    have htake := List.takeWhile_eq_self_iff.mpr h.allDigits
    have hdrop := List.dropWhile_eq_nil_iff.mpr h.allDigits
    rw [takeDigits, htake, hdrop]
  have hempty : digits.isEmpty = false := List.isEmpty_eq_false_iff.mpr h.nonempty
  have hlength := h.length_dropZeros_le (show n < 10 ^ 20 by omega)
  unfold readMagnitude
  rw [hwhole]
  dsimp only
  rw [List.append_nil, hempty, h.value]
  exact congrArg some (ofDecimal_of_large hlow hhigh hlength)

def readUnsigned? (negative : Bool) (cs : List Char) : Option Binary64 :=
  let word := String.ofList (cs.map Char.toLower)
  if word = "inf" ∨ word = "infinity" then some (infinite negative)
  else if word = "nan" then some nan
  else readMagnitude negative cs

theorem read?_of_plus (hs : s.toList = '+' :: cs) : read? s = readUnsigned? false cs := by
  unfold read?
  rw [hs]
  rfl

theorem read?_of_unsigned (hs : s.toList = c :: cs) (hplus : c ≠ '+') (hminus : c ≠ '-') :
    read? s = readUnsigned? false (c :: cs) := by
  unfold read?
  rw [hs]
  split
  case h_1 negative rest heq =>
    split at heq
    case h_1 hcs =>
      cases hcs
      exact absurd rfl hminus
    case h_2 hcs =>
      cases hcs
      exact absurd rfl hplus
    case h_3 =>
      cases heq
      rfl

theorem readUnsigned?_of_spells (h : Spells digits n) (hlow : 2 ^ 63 ≤ n) (hhigh : n < 2 ^ 64) :
    readUnsigned? false digits = some (finite false (roundDiv n 2048) 11) := by
  obtain ⟨c, cs, rfl⟩ := h.exists_cons
  have hdigit : c.isDigit = true := h.head_isDigit
  -- no name of a number begins with a digit
  have hword (name : List Char) (hname : name.head?.map Char.isDigit = some false) :
      String.ofList ((c :: cs).map Char.toLower) ≠ String.ofList name := by
    intro heq
    have hlist := String.ofList_injective heq
    rw [← hlist, List.map_cons, List.head?_cons, toLower_of_isDigit hdigit, Option.map_some,
      hdigit] at hname
    cases hname
  have hinf : ¬ (String.ofList ((c :: cs).map Char.toLower) = "inf" ∨
      String.ofList ((c :: cs).map Char.toLower) = "infinity") := by
    rintro (heq | heq)
    · exact hword ['i', 'n', 'f'] rfl heq
    · exact hword ['i', 'n', 'f', 'i', 'n', 'i', 't', 'y'] rfl heq
  unfold readUnsigned?
  dsimp only
  rw [if_neg hinf, if_neg (hword ['n', 'a', 'n'] rfl)]
  exact readMagnitude_of_spells h hlow hhigh

/-- A number above the signed words is read as the nearest one with 53 bits. -/
theorem read?_of_numeral (h : Numeral s n) (hlow : 2 ^ 63 ≤ n) (hhigh : n < 2 ^ 64) :
    read? s = some (finite false (roundDiv n 2048) 11) := by
  obtain ⟨digits, hspells, hs | hs⟩ := h
  · obtain ⟨c, cs, rfl⟩ := hspells.exists_cons
    rw [read?_of_unsigned hs hspells.ne_sign.1 hspells.ne_sign.2]
    exact readUnsigned?_of_spells hspells hlow hhigh
  · rw [read?_of_plus hs]
    exact readUnsigned?_of_spells hspells hlow hhigh

/-- Back as a word, the float of a large numeral is the nearest word that a float can be. -/
theorem roundToNat_of_large (n : Nat) :
    (finite false (roundDiv n 2048) 11).roundToNat 0xFFFFFFFFFFFFFFFF = nearestWord n := by
  have hshift : (11 : Int).toNat = 11 := rfl
  rw [roundToNat, if_neg (by decide), hshift, Nat.shiftLeft_eq, nearestWord]

/-- Digits or a point come first in a number that is written out. -/
theorem readMagnitude_eq_none (hdigit : c.isDigit = false) (hpoint : c ≠ '.') (negative : Bool) :
    readMagnitude negative (c :: cs) = none := by
  have hnone : takeDigits (c :: cs) = ([], c :: cs) := by
    have hneg : ¬ c.isDigit = true := by rw [hdigit]; decide
    rw [takeDigits, List.takeWhile_cons_of_neg hneg, List.dropWhile_cons_of_neg hneg]
  unfold readMagnitude
  rw [hnone]
  dsimp only
  split
  case h_1 fraction rest heq =>
    cases heq
    exact absurd rfl hpoint
  case h_2 => rfl

end Binary64

end MountControl
