import Mathlib.Data.List.Basic
import MountControl.Json.Record
import MountControl.Json.Writer

namespace MountControl

/-- Only zero is written with a zero in front. -/
theorem head_toDigits_ne_zero {n : Nat} (hn : n ≠ 0) : (Nat.toDigits 10 n).head? ≠ some '0' := by
  induction n using Nat.strongRecOn with
  | ind n ih =>
    by_cases hlt : n < 10
    · rw [Nat.toDigits_of_lt_base hlt, List.head?_cons]
      intro h
      exact hn (Nat.digitChar_eq_zero.mp (Option.some.inj h))
    · -- the first digit is that of the number without its last one
      have hne : Nat.toDigits 10 (n / 10) ≠ [] := Nat.toDigits_ne_nil
      rw [Nat.toDigits_of_base_le (by decide) (by omega), List.head?_append_of_ne_nil _ hne]
      exact ih (n / 10) (by omega) (by omega)

namespace Json

def Ends (rest : List Char) : Prop :=
  ∀ c ∈ rest.head?, c.isDigit = false ∧ c ≠ '.' ∧ c ≠ 'e' ∧ c ≠ 'E'

def Reads {α : Type} (read : Reader α) (text : List Char) (a : α) : Prop :=
  ∀ rest, Ends rest → read (text ++ rest) = .ok (a, rest)

theorem skipSpace_cons {c : Char} (hc : isSpace c = false) (cs : List Char) :
    skipSpace (c :: cs) = c :: cs :=
  List.dropWhile_cons_of_neg (by rw [hc]; decide)

/-! ## Strings -/

theorem toList_quote (s : String) :
    (quote s).toList = '"' :: (s.toList.flatMap escapeChar ++ ['"']) := by
  rw [quote, String.toList_ofList, List.cons_append]

inductive Form : Char → List Char → Prop
  | short {c d : Char} (h : shortEscape? d = some c) (hd : ' ' ≤ d) : Form c ['\\', d]
  | numbered {c : Char} (hc : c < ' ') : Form c
    ['\\', 'u', '0', '0', Nat.digitChar (c.toNat / 16), Nat.digitChar (c.toNat % 16)]
  | plain {c : Char} (hquote : c ≠ '"') (hslash : c ≠ '\\') (hc : ' ' ≤ c) : Form c [c]

theorem zeroPadded_hexadecimal : ∀ n < 32, zeroPadded 2 (hexadecimal n) =
    [Nat.digitChar (n / 16), Nat.digitChar (n % 16)] := by
  decide

/-- Every character is written as itself, as one letter behind a backslash, or by its number. -/
theorem form_escapeChar (c : Char) : Form c (escapeChar c) := by
  unfold escapeChar
  split_ifs with hquote hslash hback htab hline hform hreturn hcontrol
  · subst hquote
    exact .short rfl (by decide)
  · subst hslash
    exact .short rfl (by decide)
  · subst hback
    exact .short rfl (by decide)
  · subst htab
    exact .short rfl (by decide)
  · subst hline
    exact .short rfl (by decide)
  · subst hform
    exact .short rfl (by decide)
  · subst hreturn
    exact .short rfl (by decide)
  · have hlt : c.toNat < 32 := hcontrol
    rw [zeroPadded_hexadecimal _ hlt]
    exact .numbered hcontrol
  · exact .plain hquote hslash (Char.not_lt.mp hcontrol)

section Escapes

variable (paired : Bool) (tail : List Char)

theorem readStringAt_short {c d : Char} (h : shortEscape? d = some c) :
    readStringAt paired .plain ('\\' :: d :: tail) =
      pushChar c (readStringAt paired .plain tail) := by
  -- what follows a `u` would be digits
  have hu : d ≠ 'u' := by
    rintro rfl
    have hnone : shortEscape? 'u' = none := by decide
    cases hnone.symm.trans h
  simp [readStringAt, hu, h]

/-- A numbered escape below the surrogates stands for its character. -/
theorem readStringAt_numbered {a b : Char} {x y : Nat} (ha : hexValue? a = some x)
    (hb : hexValue? b = some y) (hlt : x * 16 + y < 0xD800) :
    readStringAt paired .plain ('\\' :: 'u' :: '0' :: '0' :: a :: b :: tail) =
      pushChar (Char.ofNat (x * 16 + y)) (readStringAt paired .plain tail) := by
  have hzero : hexValue? '0' = some 0 := by decide
  have hunit : pairUnit none (x * 16 + y) = some (.inl (Char.ofNat (x * 16 + y))) := by
    rw [pairUnit, if_neg (by omega), if_neg (by omega)]
  simp only [readStringAt, hzero, ha, hb, hunit, Nat.zero_mul, Nat.zero_add]
  cases paired <;> rfl

theorem hexValue?_digitChar : ∀ n < 16, hexValue? (Nat.digitChar n) = some n := by
  decide

/-- A character is read back from the form it has inside a string. -/
theorem readStringAt_escapeChar (c : Char) :
    readStringAt paired .plain (escapeChar c ++ tail) =
      pushChar c (readStringAt paired .plain tail) := by
  have hform := form_escapeChar c
  generalize escapeChar c = form at hform
  cases hform with
  | short h hd => exact readStringAt_short paired tail h
  | numbered hc =>
    have hlt : c.toNat < 32 := hc
    have hhigh := hexValue?_digitChar (c.toNat / 16) (by omega)
    have hlow := hexValue?_digitChar (c.toNat % 16) (by omega)
    have hvalue : c.toNat / 16 * 16 + c.toNat % 16 = c.toNat := by omega
    have hread := readStringAt_numbered paired tail hhigh hlow (by omega)
    rwa [hvalue, Char.ofNat_toNat] at hread
  | plain hquote hslash hc =>
    have hcontrol : ¬ c < ' ' := Char.not_lt.mpr hc
    rw [List.singleton_append, readStringAt, if_neg hquote, if_neg hslash, if_neg hcontrol]

end Escapes

theorem readStringAt_escaped (paired : Bool) (cs rest : List Char) :
    readStringAt paired .plain (cs.flatMap escapeChar ++ '"' :: rest) = .ok (cs, rest) := by
  induction cs with
  | nil => rfl
  | cons c cs ih =>
    rw [List.flatMap_cons, List.append_assoc, readStringAt_escapeChar, ih]
    rfl

/-- What was escaped is read back. -/
theorem readStringBody_escaped (s : String) (rest : List Char) :
    readStringBody (s.toList.flatMap escapeChar ++ '"' :: rest) = .ok (s, rest) := by
  rw [readStringBody, readStringAt_escaped]
  exact congrArg (fun s => Except.ok (s, rest)) (String.ofList_toList)

/-- A string that is written is read back as it was. -/
theorem reads_quote (s : String) : Reads readString (quote s).toList s := by
  intro rest _
  rw [toList_quote, List.cons_append, List.append_assoc, readString, skipSpace_cons (by decide)]
  exact readStringBody_escaped s rest

theorem readName_quote {α : Type} {names : List (String × α)} {s : String} {a : α}
    (ha : names.lookup s = some a) : Reads (readName names) (quote s).toList a := by
  intro rest _
  rw [toList_quote, List.cons_append, List.append_assoc, readName, skipSpace_cons (by decide)]
  simp only [List.singleton_append, readStringBody_escaped, bind, Except.bind, ha]

/-- Nothing inside a string is written as a control character. -/
theorem le_of_mem_escapeChar {c d : Char} (hd : d ∈ escapeChar c) : ' ' ≤ d := by
  have hdigit : ∀ n < 16, ' ' ≤ Nat.digitChar n := by decide
  have hform := form_escapeChar c
  generalize escapeChar c = form at hform hd
  cases hform with
  | short h he =>
    rcases List.mem_pair.mp hd with rfl | rfl
    · decide
    · exact he
  | numbered hc =>
    have hlt : c.toNat < 32 := hc
    simp only [List.mem_cons, List.not_mem_nil, or_false] at hd
    rcases hd with rfl | rfl | rfl | rfl | rfl | rfl
    · decide
    · decide
    · decide
    · decide
    · exact hdigit _ (by omega)
    · exact hdigit _ (by omega)
  | plain hquote hslash hc => exact List.mem_singleton.mp hd ▸ hc

def Printable (s : String) : Prop :=
  ∀ c ∈ s.toList, ' ' ≤ c

/-- No control character is written as itself. -/
theorem printable_quote (s : String) : Printable (quote s) := by
  intro d hd
  rw [toList_quote] at hd
  simp only [List.mem_cons, List.mem_append, List.mem_flatMap, List.not_mem_nil, or_false] at hd
  rcases hd with rfl | ⟨c, -, hd⟩ | rfl
  · decide
  · exact le_of_mem_escapeChar hd
  · decide

/-! ## Whole numbers -/

theorem head_isDigit_of_ends {rest : List Char} (hrest : Ends rest) :
    (rest.head?.map Char.isDigit).getD false = false := by
  cases rest with
  | nil => rfl
  | cons c rest => exact (hrest c rfl).1

theorem isDigit_of_mem_decimal {n : Nat} {c : Char} (hc : c ∈ Nat.toDigits 10 n) :
    c.isDigit = true :=
  Nat.isDigit_of_mem_toDigits (by decide) (by decide) hc

theorem dropWhile_toDigits (n : Nat) {rest : List Char} (hrest : Ends rest) :
    (Nat.toDigits 10 n ++ rest).dropWhile Char.isDigit = rest := by
  rw [List.dropWhile_append_of_pos fun c hc => isDigit_of_mem_decimal hc]
  cases rest with
  | nil => rfl
  | cons c rest =>
    have hc := (hrest c rfl).1
    exact List.dropWhile_cons_of_neg (by rw [hc]; decide)

theorem takeWhile_toDigits (n : Nat) {rest : List Char} (hrest : Ends rest) :
    (Nat.toDigits 10 n ++ rest).takeWhile Char.isDigit = Nat.toDigits 10 n := by
  rw [List.takeWhile_append_of_pos fun c hc => isDigit_of_mem_decimal hc]
  cases rest with
  | nil => exact List.append_nil _
  | cons c rest =>
    have hc := (hrest c rfl).1
    rw [List.takeWhile_cons_of_neg (by rw [hc]; decide), List.append_nil]

theorem le_ofDigitChars (n : Nat) (ds : List Char) : n ≤ Nat.ofDigitChars 10 ds n := by
  rw [Nat.ofDigitChars_eq_ofDigitChars_zero]
  have hpow : 0 < 10 ^ ds.length := Nat.pow_pos (by decide)
  exact Nat.le_trans (Nat.le_mul_of_pos_left n hpow) (Nat.le_add_right _ _)

/-- Digits are taken as long as the value they make is a 64-bit word. -/
theorem absorb_digits (n : Nat) (ds : List Char)
    (h : Nat.ofDigitChars 10 ds n < 0x10000000000000000) :
    absorb n ds = (Nat.ofDigitChars 10 ds n, []) := by
  induction ds generalizing n with
  | nil => rw [absorb, Nat.ofDigitChars_nil]
  | cons c ds ih =>
    have hnext : n * 10 + digitValue c = 10 * n + (c.toNat - '0'.toNat) := by
      rw [Nat.mul_comm]
      rfl
    rw [Nat.ofDigitChars_cons, ← hnext] at h ⊢
    -- the value only grows from digit to digit, so it has not passed the limit before the end
    have hlt := Nat.lt_of_le_of_lt (le_ofDigitChars (n * 10 + digitValue c) ds) h
    rw [absorb, if_pos hlt]
    exact ih _ h

theorem readFraction_ends (n : Nat) {rest : List Char} (hrest : Ends rest) :
    readFraction false n 0 rest = .ok (.natural n, rest) := by
  unfold readFraction
  cases rest with
  | nil => rfl
  | cons c rest =>
    obtain ⟨-, hdot, he, hE⟩ := hrest c rfl
    simp [hdot, he, hE]

section Digits

variable {n : Nat} {rest : List Char}

theorem toDigits_zero_or (n : Nat) : n = 0 ∧ Nat.toDigits 10 n = ['0'] ∨
    ∃ c ds, Nat.toDigits 10 n = c :: ds ∧ c.isDigit = true ∧ c ≠ '0' := by
  by_cases hn : n = 0
  · subst hn
    exact Or.inl ⟨rfl, rfl⟩
  · right
    have hhead := head_toDigits_ne_zero hn
    cases hds : Nat.toDigits 10 n with
    | nil => exact absurd hds Nat.toDigits_ne_nil
    | cons c ds =>
      have hdigit : c.isDigit = true := isDigit_of_mem_decimal (hds ▸ List.mem_cons_self)
      rw [hds] at hhead
      exact ⟨c, ds, rfl, hdigit, fun hc => hhead (congrArg some hc)⟩

/-- The digits of a number below the limit are read back as that number. -/
theorem readNumber_toDigits (hn : n < 0x10000000000000000) (hrest : Ends rest) :
    readNumber false (Nat.toDigits 10 n ++ rest) = .ok (.natural n, rest) := by
  have habsorb := absorb_digits 0 (Nat.toDigits 10 n) (by rwa [Nat.ofDigitChars_ten_toDigits])
  rw [Nat.ofDigitChars_ten_toDigits] at habsorb
  -- a zero in front has a rule of its own, which allows no digit after it
  rcases toDigits_zero_or n with ⟨rfl, hds⟩ | ⟨c, ds, hds, hc, hzero⟩
  · rw [hds, List.singleton_append, readNumber, if_pos rfl, head_isDigit_of_ends hrest]
    exact readFraction_ends 0 hrest
  · have htake := takeWhile_toDigits n hrest
    have hdrop := dropWhile_toDigits n hrest
    rw [hds] at htake hdrop habsorb ⊢
    rw [List.cons_append] at htake hdrop ⊢
    rw [readNumber, if_neg hzero, if_pos hc, Binary64.takeDigits, htake, hdrop]
    dsimp only
    rw [habsorb]
    exact readFraction_ends n hrest

theorem ne_of_isDigit {c d : Char} (hc : c.isDigit = true) (hd : d.isDigit = false) : c ≠ d := by
  rintro rfl
  cases hc.symm.trans hd

theorem isSpace_of_isDigit {c : Char} (hc : c.isDigit = true) : isSpace c = false := by
  have hblank : c ≠ ' ' := ne_of_isDigit hc (by decide)
  have hline : c ≠ '\n' := ne_of_isDigit hc (by decide)
  have htab : c ≠ '\t' := ne_of_isDigit hc (by decide)
  have hreturn : c ≠ '\r' := ne_of_isDigit hc (by decide)
  simp [isSpace, hblank, hline, htab, hreturn]

theorem toDigits_eq_cons (n : Nat) : ∃ c ds, Nat.toDigits 10 n = c :: ds ∧ c.isDigit = true := by
  rcases toDigits_zero_or n with ⟨-, hds⟩ | ⟨c, ds, hds, hc, -⟩
  · exact ⟨_, _, hds, by decide⟩
  · exact ⟨c, ds, hds, hc⟩

theorem le_of_isDigit {c : Char} (hc : c.isDigit = true) : ' ' ≤ c := by
  have hzero : '0' ≤ c := (Char.isDigit_iff_toNat.mp hc).1
  exact Char.le_trans (by decide) hzero

theorem printable_toString (n : Nat) : Printable (toString n) := by
  intro c hc
  rw [Nat.toString_eq_ofList_toDigits, String.toList_ofList] at hc
  exact le_of_isDigit (isDigit_of_mem_decimal hc)

/-- A number that is written is read back. -/
theorem reads_toString {limit : Nat} (hlimit : limit < 0x10000000000000000) (hn : n ≤ limit) :
    Reads (readWord limit) (toString n).toList n := by
  intro rest hrest
  have hread := readNumber_toDigits (Nat.lt_of_le_of_lt hn hlimit) hrest
  obtain ⟨c, ds, hds, hc⟩ := toDigits_eq_cons n
  have hminus : c ≠ '-' := ne_of_isDigit hc (by decide)
  rw [Nat.toString_eq_ofList_toDigits, String.toList_ofList, readWord]
  rw [hds, List.cons_append] at hread ⊢
  rw [skipSpace_cons (isSpace_of_isDigit hc)]
  dsimp only
  rw [if_neg hminus, if_pos hc, hread]
  exact if_pos hn

theorem skipScale_ends (hrest : Ends rest) : skipScale rest = .ok rest := by
  cases rest with
  | nil => rfl
  | cons c rest =>
    obtain ⟨-, -, he, hE⟩ := hrest c rfl
    simp [skipScale, he, hE]

end Digits

end Json

end MountControl
