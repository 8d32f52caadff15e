import MountControl.Proofs.FallibleSteps
import MountControl.Proofs.JsonScalars

namespace MountControl.Json

def escapes : List (Char × Char) :=
  [('"', '"'), ('\\', '\\'), ('/', '/'), ('b', '\x08'), ('f', '\x0c'), ('n', '\n'), ('r', '\r'),
    ('t', '\t')]

inductive HexWord : List Char → Nat → Prop
  | digits {a b c d : Char} {w x y z : Nat} (ha : hexValue? a = some w) (hb : hexValue? b = some x)
    (hc : hexValue? c = some y) (hd : hexValue? d = some z) :
    HexWord [a, b, c, d] (((w * 16 + x) * 16 + y) * 16 + z)

inductive StringPiece : List Char → Prop
  | plain {c} (hc : ' ' ≤ c) (hquote : c ≠ '"') (hslash : c ≠ '\\') : StringPiece [c]
  | short {d c} (hd : (d, c) ∈ escapes) : StringPiece ['\\', d]
  | numbered {ds u} (hu : HexWord ds u) : StringPiece ('\\' :: 'u' :: ds)

inductive StringBody : List Char → Prop
  | nil : StringBody []
  | cons {piece cs} (hp : StringPiece piece) (h : StringBody cs) : StringBody (piece ++ cs)

/-- The ways to write a character in a string: as it is, by a short escape, by its number, or by the
two halves of a surrogate pair. -/
inductive Spelling : List Char → Char → Prop
  | plain {c} (hc : ' ' ≤ c) (hquote : c ≠ '"') (hslash : c ≠ '\\') : Spelling [c] c
  | short {d c} (hd : (d, c) ∈ escapes) : Spelling ['\\', d] c
  | numbered {ds u} (hu : HexWord ds u) (hsingle : u < 0xD800 ∨ 0xE000 ≤ u) :
    Spelling ('\\' :: 'u' :: ds) (Char.ofNat u)
  | pair {ds high ds' low} (hu : HexWord ds high) (hu' : HexWord ds' low)
    (hhigh : 0xD800 ≤ high ∧ high < 0xDC00) (hlow : 0xDC00 ≤ low ∧ low < 0xE000) :
    Spelling ('\\' :: 'u' :: (ds ++ '\\' :: 'u' :: ds'))
      (Char.ofNat (0x10000 + (high - 0xD800) * 0x400 + (low - 0xDC00)))

inductive Decodes : List Char → List Char → Prop
  | nil : Decodes [] []
  | cons {spelt c cs text} (hs : Spelling spelt c) (h : Decodes cs text) :
    Decodes (spelt ++ cs) (c :: text)

/-- What can be decoded is well formed as the body of a string. -/
theorem Decodes.stringBody {body text : List Char} (h : Decodes body text) : StringBody body := by
  induction h with
  | nil => exact .nil
  | cons hs _ ih =>
    cases hs with
    | plain hc hquote hslash => exact .cons (.plain hc hquote hslash) ih
    | short hd => exact .cons (.short hd) ih
    | numbered hu _ => exact .cons (.numbered hu) ih
    | @pair ds high ds' low hu hu' _ _ =>
      have hboth := StringBody.cons (.numbered hu) (.cons (.numbered hu') ih)
      simpa using hboth

/-- The letters that stand for a character behind a backslash are those of the table. -/
theorem shortEscape?_eq_some_iff {c d : Char} : shortEscape? d = some c ↔ (d, c) ∈ escapes := by
  have hall : ∀ e ∈ escapes, shortEscape? e.1 = some e.2 := by decide
  constructor
  · intro h
    unfold shortEscape? at h
    split_ifs at h with h1 h2 h3 h4 h5 h6 h7 h8
    all_goals
      subst_vars
      rw [← Option.some.inj h]
      decide
  · intro h
    exact hall _ h

/-! ## Numbered escapes -/

section Numbered

variable {paired : Bool} {high : Option Nat} {c : Char} {cs ds text rest : List Char} {u : Nat}
  {a : List Char × List Char}

theorem pushChar_eq_ok_iff {r : Except Fault (List Char × List Char)} :
    pushChar c r = .ok (text, rest) ↔ ∃ tail, r = .ok (tail, rest) ∧ text = c :: tail := by
  unfold pushChar
  rw [map_eq_ok_iff]
  constructor
  · rintro ⟨⟨tail, rest'⟩, hr, hpair⟩
    cases hpair
    exact ⟨tail, hr, rfl⟩
  · rintro ⟨tail, hr, rfl⟩
    exact ⟨(tail, rest), hr, rfl⟩

def afterUnit (paired : Bool) (high : Option Nat) (u : Nat) (cs : List Char) :
    Except Fault (List Char × List Char) :=
  if paired then
    match pairUnit high u with
    | some (.inl ch) => pushChar ch (readStringAt true .plain cs)
    | some (.inr half) => readStringAt true (.afterHigh half) cs
    | none => .error .malformed
  else pushChar (Char.ofNat u) (readStringAt false .plain cs)

theorem readStringAt_digit {count value d : Nat} (hd : hexValue? c = some d) (hcount : count < 3) :
    readStringAt paired (.digits high count value) (c :: cs) =
      readStringAt paired (.digits high (count + 1) (value * 16 + d)) cs := by
  rw [readStringAt, hd]
  exact if_pos hcount

theorem readStringAt_lastDigit {value d : Nat} (hd : hexValue? c = some d) :
    readStringAt paired (.digits high 3 value) (c :: cs) =
      afterUnit paired high (value * 16 + d) cs := by
  rw [readStringAt, hd]
  cases paired <;> rfl

/-- Four hexadecimal digits make a unit. -/
theorem readStringAt_hexWord (hu : HexWord ds u) :
    readStringAt paired (.digits high 0 0) (ds ++ cs) = afterUnit paired high u cs := by
  obtain ⟨ha, hb, hc, hd⟩ := hu
  simp only [List.cons_append, List.nil_append]
  rw [readStringAt_digit ha (by decide), readStringAt_digit hb (by decide),
    readStringAt_digit hc (by decide), readStringAt_lastDigit hd, Nat.zero_mul, Nat.zero_add]

theorem readStringAt_numbered_hexWord (hu : HexWord ds u) :
    readStringAt paired .plain ('\\' :: 'u' :: (ds ++ cs)) = afterUnit paired none u cs := by
  rw [← readStringAt_hexWord hu]
  rfl

theorem readStringAt_afterHigh_hexWord {half : Nat} (hu : HexWord ds u) :
    readStringAt true (.afterHigh half) ('\\' :: 'u' :: (ds ++ cs)) =
      afterUnit true (some half) u cs := by
  rw [← readStringAt_hexWord hu]
  rfl

theorem exists_digit_of_readStringAt {count value : Nat}
    (h : readStringAt paired (.digits high count value) cs = .ok a) :
    ∃ c d tail, cs = c :: tail ∧ hexValue? c = some d := by
  cases cs with
  | nil => cases h
  | cons c tail =>
    cases hd : hexValue? c with
    | none =>
      rw [readStringAt, hd] at h
      cases h
    | some d => exact ⟨c, d, tail, rfl, hd⟩

/-- A reader that gets past a numbered escape has found four digits. -/
theorem exists_hexWord_of_readStringAt
    (h : readStringAt paired (.digits high 0 0) cs = .ok a) :
    ∃ ds u tail, HexWord ds u ∧ cs = ds ++ tail := by
  obtain ⟨c₁, w, cs, rfl, hw⟩ := exists_digit_of_readStringAt h
  rw [readStringAt_digit hw (by decide)] at h
  obtain ⟨c₂, x, cs, rfl, hx⟩ := exists_digit_of_readStringAt h
  rw [readStringAt_digit hx (by decide)] at h
  obtain ⟨c₃, y, cs, rfl, hy⟩ := exists_digit_of_readStringAt h
  rw [readStringAt_digit hy (by decide)] at h
  obtain ⟨c₄, z, cs, rfl, hz⟩ := exists_digit_of_readStringAt h
  exact ⟨_, _, cs, .digits hw hx hy hz, rfl⟩

/-- A reader that gets past the first half of a pair has found another numbered escape. -/
theorem exists_hexWord_of_afterHigh {half : Nat}
    (h : readStringAt true (.afterHigh half) cs = .ok a) :
    ∃ ds u tail, HexWord ds u ∧ cs = '\\' :: 'u' :: (ds ++ tail) := by
  cases cs with
  | nil => cases h
  | cons c cs =>
    by_cases hslash : c = '\\'
    · subst hslash
      cases cs with
      | nil => cases h
      | cons d cs =>
        by_cases hd : d = 'u'
        · subst hd
          have hdigits : readStringAt true (.digits (some half) 0 0) cs = .ok a := h
          obtain ⟨ds, u, tail, hu, rfl⟩ := exists_hexWord_of_readStringAt hdigits
          exact ⟨ds, u, tail, hu, rfl⟩
        · simp [readStringAt, hd] at h
    · simp [readStringAt, hslash] at h

end Numbered

/-! ## Whole strings -/

section Strings

variable {piece spelt body text rest : List Char} {c : Char}

theorem readStringAt_plain (paired : Bool) (hc : ' ' ≤ c) (hquote : c ≠ '"') (hslash : c ≠ '\\')
    (cs : List Char) :
    readStringAt paired .plain (c :: cs) = pushChar c (readStringAt paired .plain cs) := by
  rw [readStringAt, if_neg hquote, if_neg hslash, if_neg (Char.not_lt.mpr hc)]

/-- A piece of a string that is only passed over may be half of a pair. -/
theorem readStringAt_piece (h : StringPiece piece) (cs : List Char) :
    ∃ c, readStringAt false .plain (piece ++ cs) = pushChar c (readStringAt false .plain cs) := by
  cases h with
  | plain hc hquote hslash => exact ⟨_, readStringAt_plain false hc hquote hslash cs⟩
  | short hd => exact ⟨_, readStringAt_short false cs (shortEscape?_eq_some_iff.mpr hd)⟩
  | numbered hu => exact ⟨_, readStringAt_numbered_hexWord hu⟩

/-- A well-formed body is read to its end where halves of pairs are let pass. -/
theorem exists_readStringAt_of_stringBody (h : StringBody body) (rest : List Char) :
    ∃ text, readStringAt false .plain (body ++ '"' :: rest) = .ok (text, rest) := by
  induction h with
  | nil => exact ⟨[], rfl⟩
  | @cons piece cs hp _ ih =>
    obtain ⟨text, ih⟩ := ih
    obtain ⟨c, hc⟩ := readStringAt_piece hp (cs ++ '"' :: rest)
    rw [List.append_assoc, hc, ih]
    exact ⟨c :: text, rfl⟩

/-- A well-formed body is skipped up to the mark that closes it. -/
theorem skipStringBody_of_stringBody (h : StringBody body) (rest : List Char) :
    skipStringBody (body ++ '"' :: rest) = .ok rest := by
  obtain ⟨text, htext⟩ := exists_readStringAt_of_stringBody h rest
  rw [skipStringBody, htext]
  rfl

/-- A character is read from each of its spellings. -/
theorem readStringAt_spelling (h : Spelling spelt c) (cs : List Char) :
    readStringAt true .plain (spelt ++ cs) = pushChar c (readStringAt true .plain cs) := by
  cases h with
  | plain hc hquote hslash => exact readStringAt_plain true hc hquote hslash cs
  | short hd => exact readStringAt_short true cs (shortEscape?_eq_some_iff.mpr hd)
  | @numbered ds u hu hsingle =>
    have hunit : pairUnit none u = some (.inl (Char.ofNat u)) := by
      rw [pairUnit, if_neg (by omega), if_neg (by omega)]
    rw [List.cons_append, List.cons_append, readStringAt_numbered_hexWord hu, afterUnit, if_pos rfl,
      hunit]
  | @pair ds high ds' low hu hu' hhigh hlow =>
    have hfirst : pairUnit none high = some (.inr high) := by
      rw [pairUnit, if_neg (by omega), if_pos (by omega)]
    have hsecond : pairUnit (some high) low =
        some (.inl (Char.ofNat (0x10000 + (high - 0xD800) * 0x400 + (low - 0xDC00)))) := by
      rw [pairUnit, if_pos (by omega)]
    rw [List.cons_append, List.cons_append, List.append_assoc, List.cons_append, List.cons_append,
      readStringAt_numbered_hexWord hu, afterUnit, if_pos rfl, hfirst]
    dsimp only
    rw [readStringAt_afterHigh_hexWord hu', afterUnit, if_pos rfl, hsecond]

/-- A unit by itself is a character, the first half of a pair, or no good. -/
theorem pairUnit_none_cases (u : Nat) : pairUnit none u = none ∨
    ((u < 0xD800 ∨ 0xE000 ≤ u) ∧ pairUnit none u = some (.inl (Char.ofNat u))) ∨
    ((0xD800 ≤ u ∧ u < 0xDC00) ∧ pairUnit none u = some (.inr u)) := by
  unfold pairUnit
  dsimp only
  split_ifs with hlow hhigh
  · exact .inl rfl
  · exact .inr (.inr ⟨by omega, rfl⟩)
  · exact .inr (.inl ⟨by omega, rfl⟩)

/-- A reader that wants the text has come to the end of the string, or to a spelling. -/
theorem readStringAt_plain_cases {cs : List Char} {a : List Char × List Char}
    (h : readStringAt true .plain cs = .ok a) :
    (∃ rest, cs = '"' :: rest) ∨ ∃ spelt c tail, Spelling spelt c ∧ cs = spelt ++ tail := by
  cases cs with
  | nil => cases h
  | cons c cs =>
    by_cases hquote : c = '"'
    · exact .inl ⟨cs, by rw [hquote]⟩
    right
    by_cases hslash : c = '\\'
    · subst hslash
      cases cs with
      | nil => cases h
      | cons d cs =>
        by_cases hd : d = 'u'
        · subst hd
          have hdigits : readStringAt true (.digits none 0 0) cs = .ok a := h
          obtain ⟨ds, u, tail, hu, rfl⟩ := exists_hexWord_of_readStringAt hdigits
          rw [readStringAt_numbered_hexWord hu, afterUnit, if_pos rfl] at h
          rcases pairUnit_none_cases u with hnone | ⟨hsingle, -⟩ | ⟨hhigh, hhalf⟩
          · rw [hnone] at h
            cases h
          · exact ⟨_, _, tail, .numbered hu hsingle, rfl⟩
          · rw [hhalf] at h
            obtain ⟨ds', low, tail, hu', rfl⟩ := exists_hexWord_of_afterHigh h
            dsimp only at h
            rw [readStringAt_afterHigh_hexWord hu', afterUnit, if_pos rfl] at h
            by_cases hlow : 0xDC00 ≤ low ∧ low < 0xE000
            · exact ⟨_, _, tail, .pair hu hu' hhigh hlow, by simp⟩
            · have hnone : pairUnit (some u) low = none := by rw [pairUnit, if_neg (by omega)]
              rw [hnone] at h
              cases h
        · cases hshort : shortEscape? d with
          | none => simp [readStringAt, hd, hshort] at h
          | some e => exact ⟨_, e, cs, .short (shortEscape?_eq_some_iff.mp hshort), rfl⟩
    · by_cases hcontrol : c < ' '
      · simp [readStringAt, hquote, hslash, hcontrol] at h
      · exact ⟨[c], c, cs, .plain (Char.not_lt.mp hcontrol) hquote hslash, rfl⟩

theorem Spelling.length_pos (h : Spelling spelt c) : 0 < spelt.length := by
  cases h <;> exact Nat.succ_pos _

/-- What is read as a text was a string that stands for it. -/
theorem exists_decodes_of_readStringAt {cs : List Char}
    (h : readStringAt true .plain cs = .ok (text, rest)) :
    ∃ body, cs = body ++ '"' :: rest ∧ Decodes body text := by
  -- a spelling takes several characters at once, so the induction is on the length of the text
  induction hn : cs.length using Nat.strongRecOn generalizing cs text with
  | ind n ih =>
    rcases readStringAt_plain_cases h with ⟨rest', rfl⟩ | ⟨spelt, c, tail, hs, rfl⟩
    · cases h
      exact ⟨[], rfl, .nil⟩
    · rw [readStringAt_spelling hs] at h
      obtain ⟨text, htail, rfl⟩ := pushChar_eq_ok_iff.mp h
      have hpos := hs.length_pos
      have hshorter : tail.length < n := by
        rw [List.length_append] at hn
        omega
      obtain ⟨body, rfl, hbody⟩ := ih tail.length hshorter htail rfl
      exact ⟨spelt ++ body, (List.append_assoc _ _ _).symm, .cons hs hbody⟩

/-- A string is read as what it stands for. -/
theorem readStringAt_of_decodes (h : Decodes body text) (rest : List Char) :
    readStringAt true .plain (body ++ '"' :: rest) = .ok (text, rest) := by
  induction h with
  | nil => rfl
  | cons hs _ ih =>
    rw [List.append_assoc, readStringAt_spelling hs, ih]
    rfl

/-- A string ends at one place only. -/
theorem stringBody_append_inj {body' rest' : List Char} (h : StringBody body)
    (h' : StringBody body') (heq : body ++ '"' :: rest = body' ++ '"' :: rest') :
    body = body' ∧ rest = rest' := by
  have hskip := skipStringBody_of_stringBody h rest
  rw [heq, skipStringBody_of_stringBody h' rest'] at hskip
  obtain rfl := Except.ok.inj hskip
  exact ⟨List.append_cancel_right heq, rfl⟩

/-- Between the quotes of a string a reader finds the text that it stands for, if there is one. -/
theorem readStringBody_eq_ok_iff (h : StringBody body) {name : String} {rest' : List Char} :
    readStringBody (body ++ '"' :: rest) = .ok (name, rest') ↔
      Decodes body name.toList ∧ rest' = rest := by
  unfold readStringBody
  rw [map_eq_ok_iff]
  constructor
  · rintro ⟨⟨text, after⟩, htext, hpair⟩
    cases hpair
    obtain ⟨body', heq, hbody⟩ := exists_decodes_of_readStringAt htext
    obtain ⟨rfl, rfl⟩ := stringBody_append_inj h hbody.stringBody heq
    rw [String.toList_ofList]
    exact ⟨hbody, rfl⟩
  · rintro ⟨hbody, rfl⟩
    exact ⟨_, readStringAt_of_decodes hbody rest', congrArg (·, rest') String.ofList_toList⟩

/-- A body decodes to a text just if the reader reads that text from it, up to the closing mark. -/
theorem decodes_iff : Decodes body text ↔
    readStringAt true .plain (body ++ ['"']) = .ok (text, []) := by
  constructor
  · intro h
    exact readStringAt_of_decodes h []
  · intro h
    obtain ⟨body', heq, hbody⟩ := exists_decodes_of_readStringAt h
    exact List.append_cancel_right heq ▸ hbody

/-- A body decodes to one text at most. -/
theorem Decodes.unique {text' : List Char} (h : Decodes body text) (h' : Decodes body text') :
    text = text' := by
  have hread := decodes_iff.mp h
  rw [decodes_iff.mp h'] at hread
  cases hread
  rfl

instance (body text : List Char) : Decidable (Decodes body text) :=
  decidable_of_iff _ decodes_iff.symm

end Strings

end MountControl.Json
