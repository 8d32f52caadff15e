import Mathlib.Data.List.TakeWhile
import MountControl.Proofs.FallibleSteps
import MountControl.Proofs.JsonScalars

namespace MountControl

theorem digitChar_toNat_sub {d : Char} (hd : d.isDigit = true) :
    Nat.digitChar (d.toNat - '0'.toNat) = d := by
  have hrange : 48 ≤ d.toNat ∧ d.toNat ≤ 57 := Char.isDigit_iff_toNat.mp hd
  have hback : (Nat.digitChar (d.toNat - 48)).toNat = 48 + (d.toNat - 48) :=
    Nat.toNat_digitChar_of_lt_ten (by omega)
  apply Char.toNat_inj.mp
  change (Nat.digitChar (d.toNat - 48)).toNat = d.toNat
  omega

theorem toNat_sub_lt_ten {d : Char} (hd : d.isDigit = true) : d.toNat - '0'.toNat < 10 := by
  have hrange : 48 ≤ d.toNat ∧ d.toNat ≤ 57 := Char.isDigit_iff_toNat.mp hd
  change d.toNat - 48 < 10
  omega

/-- Digits after the first one are appended to those of the number they continue. -/
theorem toDigits_ofDigitChars_append {n : Nat} (hn : 0 < n) {ds : List Char}
    (hds : ∀ d ∈ ds, d.isDigit = true) :
    Nat.toDigits 10 (Nat.ofDigitChars 10 ds n) = Nat.toDigits 10 n ++ ds := by
  induction ds generalizing n with
  | nil => rw [Nat.ofDigitChars_nil, List.append_nil]
  | cons d ds ih =>
    have hd := hds d List.mem_cons_self
    have hlt := toNat_sub_lt_ten hd
    -- a number that is not zero stays so, whatever digit follows
    rw [Nat.ofDigitChars_cons, ih (by omega) fun e he => hds e (List.mem_cons_of_mem _ he),
      ← Nat.toDigits_append_toDigits (by decide) hn hlt, Nat.toDigits_of_lt_base hlt,
      digitChar_toNat_sub hd, List.append_assoc, List.singleton_append]

/-- Digits without a zero in front are those of the number that they make. -/
theorem toDigits_ofDigitChars {d : Char} {ds : List Char} (hzero : d ≠ '0')
    (hds : ∀ e ∈ d :: ds, e.isDigit = true) :
    Nat.toDigits 10 (Nat.ofDigitChars 10 (d :: ds) 0) = d :: ds := by
  have hd := hds d List.mem_cons_self
  have hrange : 48 ≤ d.toNat ∧ d.toNat ≤ 57 := Char.isDigit_iff_toNat.mp hd
  have hne : d.toNat ≠ 48 := fun h => hzero (Char.toNat_inj.mp h)
  have hpos : 0 < 10 * 0 + (d.toNat - '0'.toNat) := by
    change 0 < 10 * 0 + (d.toNat - 48)
    omega
  have hlt : 10 * 0 + (d.toNat - '0'.toNat) < 10 := by
    rw [Nat.mul_zero, Nat.zero_add]
    exact toNat_sub_lt_ten hd
  -- the first digit makes a number of its own, which the others continue
  rw [Nat.ofDigitChars_cons,
    toDigits_ofDigitChars_append hpos fun e he => hds e (List.mem_cons_of_mem _ he),
    Nat.toDigits_of_lt_base hlt, Nat.mul_zero, Nat.zero_add, digitChar_toNat_sub hd,
    List.singleton_append]

namespace Json

/-! ## The grammar -/

def Digits (ds : List Char) : Prop :=
  ds ≠ [] ∧ ∀ d ∈ ds, d.isDigit = true

inductive IsWhole : List Char → Prop
  | zero : IsWhole ['0']
  | digits {d ds} (hzero : d ≠ '0') (hds : Digits (d :: ds)) : IsWhole (d :: ds)

inductive IsFraction : List Char → Prop
  | none : IsFraction []
  | digits {ds} (hds : Digits ds) : IsFraction ('.' :: ds)

inductive IsExponent : List Char → Prop
  | none : IsExponent []
  | digits {e sign ds} (he : e = 'e' ∨ e = 'E') (hsign : sign ∈ [[], ['+'], ['-']])
      (hds : Digits ds) : IsExponent (e :: (sign ++ ds))

inductive IsUnsigned : List Char → Prop
  | parts {whole fraction exponent} (hw : IsWhole whole) (hf : IsFraction fraction)
      (he : IsExponent exponent) : IsUnsigned (whole ++ (fraction ++ exponent))

inductive IsNumber : List Char → Prop
  | unsigned {cs} (h : IsUnsigned cs) : IsNumber cs
  | negative {cs} (h : IsUnsigned cs) : IsNumber ('-' :: cs)

/-! ## Passing over numbers -/

section Skipping

variable {cs ds rest whole fraction exponent : List Char}

theorem Digits.exists_cons (h : Digits ds) : ∃ d tail, ds = d :: tail ∧ d.isDigit = true := by
  obtain ⟨hne, hall⟩ := h
  cases ds with
  | nil => exact absurd rfl hne
  | cons d tail => exact ⟨d, tail, rfl, hall d List.mem_cons_self⟩

theorem skipDigits_append (h : Digits ds) (hrest : ∀ c ∈ rest.head?, c.isDigit = false) :
    skipDigits (ds ++ rest) = .ok rest := by
  obtain ⟨d, tail, rfl, hd⟩ := h.exists_cons
  have hdrop : ((d :: tail) ++ rest).dropWhile Char.isDigit = rest := by
    rw [List.dropWhile_append_of_pos h.2]
    cases rest with
    | nil => rfl
    | cons c rest => exact List.dropWhile_cons_of_neg (by rw [hrest c rfl]; decide)
  rw [skipDigits, hdrop]
  exact if_pos hd

/-- An exponent is skipped as a whole, or nothing where there is none. -/
theorem skipScale_append (h : IsExponent exponent) (hrest : Ends rest) :
    skipScale (exponent ++ rest) = .ok rest := by
  cases h with
  | none => exact skipScale_ends hrest
  | @digits e sign ds he hsign hds =>
    have hskip := skipDigits_append hds fun c hc => (hrest c hc).1
    simp only [List.mem_cons, List.not_mem_nil, or_false] at hsign
    rcases hsign with rfl | rfl | rfl
    · -- a digit is not a sign
      obtain ⟨d, tail, rfl, hd⟩ := hds.exists_cons
      have hplus : d ≠ '+' := ne_of_isDigit hd (by decide)
      have hminus : d ≠ '-' := ne_of_isDigit hd (by decide)
      simp only [List.nil_append, List.cons_append] at hskip ⊢
      simpa [skipScale, he, hplus, hminus] using hskip
    · simpa [skipScale, he] using hskip
    · simpa [skipScale, he] using hskip

theorem head_exponent (h : IsExponent exponent) (hrest : Ends rest) :
    ∀ c ∈ (exponent ++ rest).head?, c.isDigit = false ∧ c ≠ '.' := by
  intro c hc
  cases h with
  | none =>
    obtain ⟨hdigit, hdot, -⟩ := hrest c hc
    exact ⟨hdigit, hdot⟩
  | digits he hsign hds =>
    obtain rfl := Option.some.inj hc
    rcases he with rfl | rfl
    · decide
    · decide

theorem head_fraction (hf : IsFraction fraction) (he : IsExponent exponent) (hrest : Ends rest) :
    ∀ c ∈ (fraction ++ (exponent ++ rest)).head?, c.isDigit = false := by
  intro c hc
  cases hf with
  | none => exact (head_exponent he hrest c hc).1
  | digits hds =>
    obtain rfl := Option.some.inj hc
    decide

def skipFraction : List Char → Except Fault (List Char)
  | '.' :: rest => skipDigits rest >>= skipScale
  | rest => skipScale rest

theorem skipNumber_whole (h : IsWhole whole) (hcs : ∀ c ∈ cs.head?, c.isDigit = false) :
    skipNumber (whole ++ cs) = skipFraction cs := by
  cases h with
  | zero =>
    have hhead : (cs.head?.map Char.isDigit).getD false = false := by
      cases cs with
      | nil => rfl
      | cons c cs => exact hcs c rfl
    simp [skipNumber, hhead, bind, Except.bind]
    rfl
  | digits hzero hds =>
    have hskip := skipDigits_append hds hcs
    rw [List.cons_append] at hskip ⊢
    simp [skipNumber, hzero, hskip, bind, Except.bind]
    rfl

/-- A fraction is skipped with the exponent behind it. -/
theorem skipFraction_append (hf : IsFraction fraction) (he : IsExponent exponent)
    (hrest : Ends rest) : skipFraction (fraction ++ (exponent ++ rest)) = .ok rest := by
  have hscale := skipScale_append he hrest
  have hhead := head_exponent he hrest
  cases hf with
  | none =>
    rw [List.nil_append, skipFraction]
    · exact hscale
    · -- what follows the whole part is not taken for a fraction
      intro after heq
      exact (hhead '.' (by rw [heq]; rfl)).2 rfl
  | digits hds =>
    rw [List.cons_append, skipFraction, skipDigits_append hds fun c hc => (hhead c hc).1]
    exact hscale

/-- A number without a sign is skipped up to its end. -/
theorem skipNumber_unsigned (h : IsUnsigned cs) (hrest : Ends rest) :
    skipNumber (cs ++ rest) = .ok rest := by
  obtain ⟨hw, hf, he⟩ := h
  rw [List.append_assoc, List.append_assoc, skipNumber_whole hw (head_fraction hf he hrest)]
  exact skipFraction_append hf he hrest

theorem IsUnsigned.exists_cons (h : IsUnsigned cs) :
    ∃ d tail, cs = d :: tail ∧ d.isDigit = true := by
  obtain ⟨hw, -, -⟩ := h
  cases hw with
  | zero => exact ⟨_, _, rfl, by decide⟩
  | digits hzero hds => exact ⟨_, _, rfl, hds.2 _ List.mem_cons_self⟩

end Skipping

/-! ## Reading whole numbers -/

section Reading

variable {cs rest : List Char} {n significand extra : Nat} {base : Int} {negative : Bool}

theorem eq_other_of_realNumber {number : Number}
    (h : (realNumber significand base).map (·, cs) = .ok (number, rest)) : number = .other := by
  obtain ⟨number', hreal, hpair⟩ := map_eq_ok_iff.mp h
  cases hpair
  unfold realNumber at hreal
  split_ifs at hreal
  exact (Except.ok.inj hreal).symm

/-- A number with an exponent is none of the whole ones, whatever its value. -/
theorem eq_other_of_readExponent {number : Number}
    (h : readExponent significand base cs = .ok (number, rest)) : number = .other := by
  unfold readExponent at h
  dsimp only at h
  split_ifs at h
  · exact (congrArg Prod.fst (Except.ok.inj h)).symm
  · exact eq_other_of_realNumber h
  · exact eq_other_of_realNumber h

theorem eq_other_of_readScale {number : Number}
    (h : readScale significand base cs = .ok (number, rest)) : number = .other := by
  cases cs with
  | nil => exact eq_other_of_realNumber h
  | cons c cs =>
    rw [readScale] at h
    split_ifs at h
    · exact eq_other_of_readExponent h
    · exact eq_other_of_realNumber h

/-- A number that is read as a natural one has neither a fraction nor an exponent. -/
theorem eq_of_readFraction
    (h : readFraction negative significand extra cs = .ok (.natural n, rest)) :
    negative = false ∧ extra = 0 ∧ n = significand ∧ rest = cs ∧
      ∀ c ∈ cs.head?, c ≠ '.' ∧ c ≠ 'e' ∧ c ≠ 'E' := by
  unfold readFraction at h
  split at h
  · dsimp only at h
    split_ifs at h
    cases eq_other_of_readScale h
  · next hdot =>
    split_ifs at h with hscale hsign hword
    · cases eq_other_of_readScale h
    · -- only here is the number a whole one, and nothing after its digits has been looked at
      cases h
      simp only [Bool.or_eq_true, decide_eq_true_eq, not_or, not_not] at hscale
      obtain ⟨⟨hextra, he⟩, hE⟩ := hscale
      refine ⟨by simpa using hsign, hextra, rfl, rfl, ?_⟩
      intro c hc
      refine ⟨?_, fun heq => he (heq ▸ hc), fun heq => hE (heq ▸ hc)⟩
      rintro rfl
      obtain ⟨tail, htail⟩ := List.head?_eq_some_iff.mp hc
      exact hdot tail htail
    · cases h
    · cases h

theorem eq_of_absorb {m : Nat} (h : absorb n cs = (m, [])) : m = Nat.ofDigitChars 10 cs n := by
  induction cs generalizing n with
  | nil =>
    cases h
    rfl
  | cons c cs ih =>
    rw [absorb] at h
    split_ifs at h
    · rw [ih h, Nat.ofDigitChars_cons, Nat.mul_comm]
      rfl
    · cases h

/-- The digits of a number are a number in JSON. -/
theorem isNumber_toDigits (n : Nat) : IsNumber (Nat.toDigits 10 n) := by
  rcases toDigits_zero_or n with ⟨-, hds⟩ | ⟨d, ds, hds, hd, hzero⟩
  · rw [hds]
    exact .unsigned (.parts .zero .none .none)
  · have hall : Digits (d :: ds) :=
      ⟨List.cons_ne_nil d ds, fun e he => isDigit_of_mem_decimal (hds ▸ he)⟩
    have hnumber : IsNumber ((d :: ds) ++ ([] ++ [])) :=
      .unsigned (.parts (.digits hzero hall) .none .none)
    rw [hds]
    rwa [List.append_nil, List.append_nil] at hnumber

/-- What is read as a whole number was its digits, and the number goes no further. -/
theorem eq_of_readNumber (h : readNumber negative cs = .ok (.natural n, rest)) :
    negative = false ∧ cs = Nat.toDigits 10 n ++ rest ∧ Ends rest := by
  cases cs with
  | nil => cases h
  | cons c cs =>
    rw [readNumber] at h
    split_ifs at h with hzero hdigit hc
    · -- after a zero there was no digit
      obtain ⟨hsign, -, rfl, rfl, hends⟩ := eq_of_readFraction h
      subst hzero
      refine ⟨hsign, rfl, ?_⟩
      intro d hd
      refine ⟨?_, hends d hd⟩
      rw [hd] at hdigit
      simpa using hdigit
    · -- all the digits in front were taken, and none of them was too much for the word
      dsimp only [Binary64.takeDigits] at h
      generalize habsorb : absorb 0 ((c :: cs).takeWhile Char.isDigit) = taken at h
      obtain ⟨m, left⟩ := taken
      obtain ⟨hsign, hleft, rfl, hrest, hends⟩ := eq_of_readFraction h
      obtain rfl := List.eq_nil_of_length_eq_zero hleft
      obtain rfl := eq_of_absorb habsorb
      subst hrest
      have hall : ∀ d ∈ (c :: cs).takeWhile Char.isDigit, d.isDigit = true :=
        fun d hd => List.mem_takeWhile_imp hd
      have hsplit :
          (c :: cs).takeWhile Char.isDigit ++ (c :: cs).dropWhile Char.isDigit = c :: cs :=
        List.takeWhile_append_dropWhile
      have hstop := List.head?_dropWhile_not Char.isDigit (c :: cs)
      rw [List.takeWhile_cons_of_pos hc] at hall hsplit ⊢
      rw [toDigits_ofDigitChars hzero hall]
      refine ⟨hsign, hsplit.symm, ?_⟩
      intro d hd
      refine ⟨?_, hends d hd⟩
      rw [hd] at hstop
      exact hstop

end Reading

end Json

end MountControl
