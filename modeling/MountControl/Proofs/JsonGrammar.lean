import Mathlib.Data.List.DropRight
import MountControl.Proofs.JsonNumbers
import MountControl.Proofs.JsonStrings

/-!
The values of JSON as texts: words, numbers, strings, and arrays and objects of further values, with
white space between the tokens. Every value is passed over as a whole, however deep it goes.
-/

namespace MountControl.Json

/-! ## The grammar -/

def Spaces (w : List Char) : Prop :=
  ∀ c ∈ w, isSpace c = true

instance (w : List Char) : Decidable (Spaces w) :=
  List.decidableBAll (fun c => isSpace c = true) w

theorem spaces_nil : Spaces [] := by
  decide

structure Element where
  before : List Char
  value : List Char
  after : List Char
  spaces_before : Spaces before := by decide
  spaces_after : Spaces after := by decide

/-- A member of an object: what stands between the quotes of its name, with the white space around
the string, and its value. -/
structure Member where
  before : List Char
  name : List Char
  between : List Char
  element : Element
  spaces_before : Spaces before := by decide
  spaces_between : Spaces between := by decide
  stringBody : StringBody name

def Member.HasName (m : Member) (name : String) : Prop :=
  Decodes m.name name.toList

instance (m : Member) (name : String) : Decidable (m.HasName name) :=
  inferInstanceAs (Decidable (Decodes _ _))

def Element.text (e : Element) : List Char :=
  e.before ++ (e.value ++ e.after)

def Member.text (m : Member) : List Char :=
  m.before ++ '"' :: (m.name ++ '"' :: (m.between ++ ':' :: m.element.text))

def arrayText (inner : List Char) (es : List Element) : List Char :=
  '[' :: (inner ++ ([','].intercalate (es.map Element.text) ++ [']']))

def objectText (inner : List Char) (ms : List Member) : List Char :=
  '\x7b' :: (inner ++ ([','].intercalate (ms.map Member.text) ++ ['\x7d']))

inductive IsValue : List Char → Prop
  | word {w} (hw : w ∈ [['n', 'u', 'l', 'l'], ['t', 'r', 'u', 'e'], ['f', 'a', 'l', 's', 'e']]) :
      IsValue w
  | number {cs} (hn : IsNumber cs) : IsValue cs
  | string {body} (hb : StringBody body) : IsValue ('"' :: (body ++ ['"']))
  | array {inner es} (hs : Spaces inner) (hes : ∀ e ∈ es, IsValue e.value) :
      IsValue (arrayText inner es)
  | object {inner ms} (hs : Spaces inner) (hms : ∀ m ∈ ms, IsValue m.element.value) :
      IsValue (objectText inner ms)

/-! ## White space -/

section Spaces

variable {w cs rest : List Char}

/-- White space in front is dropped with the white space behind it. -/
theorem skipSpace_append (hw : Spaces w) (cs : List Char) : skipSpace (w ++ cs) = skipSpace cs :=
  List.dropWhile_append_of_pos hw

theorem skipSpace_spaces (hw : Spaces w) : skipSpace w = [] := by
  have hskip := skipSpace_append hw []
  rwa [List.append_nil] at hskip

theorem skipSpace_skipSpace (cs : List Char) : skipSpace (skipSpace cs) = skipSpace cs :=
  List.dropWhile_idempotent _ cs

/-- What passes over white space first may as well be given a text without it. -/
theorem ignore_spaces {β : Type} {f : List Char → β} (hf : ∀ cs, f (skipSpace cs) = f cs)
    (hw : Spaces w) (cs : List Char) : f (w ++ cs) = f cs := by
  rw [← hf, skipSpace_append hw, hf]

theorem skipValueIn_skipSpace (fuel : Nat) (cs : List Char) :
    skipValueIn fuel (skipSpace cs) = skipValueIn fuel cs := by
  cases fuel with
  | zero => rfl
  | succ fuel => rw [skipValueIn, skipValueIn, skipSpace_skipSpace]

theorem skipElementsIn_skipSpace (fuel : Nat) (cs : List Char) :
    skipElementsIn fuel (skipSpace cs) = skipElementsIn fuel cs := by
  cases fuel with
  | zero => rfl
  | succ fuel => rw [skipElementsIn, skipElementsIn, skipValueIn_skipSpace]

theorem skipMembersIn_skipSpace (fuel : Nat) (cs : List Char) :
    skipMembersIn fuel (skipSpace cs) = skipMembersIn fuel cs := by
  cases fuel with
  | zero => rfl
  | succ fuel => rw [skipMembersIn, skipMembersIn, skipSpace_skipSpace]

theorem ends_cons {c : Char} (hdigit : c.isDigit = false) (hc : c ∉ ['.', 'e', 'E'])
    (cs : List Char) : Ends (c :: cs) := by
  intro d hd
  obtain rfl := Option.some.inj hd
  simpa [hdigit] using hc

theorem ends_append (hw : Spaces w) (hrest : Ends rest) : Ends (w ++ rest) := by
  cases w with
  | nil => exact hrest
  | cons c w =>
    have hc := hw c List.mem_cons_self
    simp only [isSpace, Bool.or_eq_true, decide_eq_true_eq] at hc
    rcases hc with ((rfl | rfl) | rfl) | rfl
    · exact ends_cons (by decide) (by decide) _
    · exact ends_cons (by decide) (by decide) _
    · exact ends_cons (by decide) (by decide) _
    · exact ends_cons (by decide) (by decide) _

end Spaces

/-! ## Passing over values -/

section Values

variable {v inner rest : List Char} {es : List Element} {ms : List Member}

def Skipped (text : List Char) : Prop :=
  ∀ fuel, 2 * text.length < fuel → ∀ rest, Ends rest → skipValueIn fuel (text ++ rest) = .ok rest

/-- A value that is skipped in front of one text is skipped in front of every text that does not go
on with it. -/
theorem skipValue_append {text : List Char} (h : Skipped text) (hrest : Ends rest) :
    skipValue (text ++ rest) = .ok rest := by
  apply h _ _ _ hrest
  rw [List.length_append]
  omega

def partsOnto (rest : List Char) : (first : Bool) → List (List Char) → List Char
  | _, [] => rest
  | first, part :: parts => (if first then [] else [',']) ++ (part ++ partsOnto rest false parts)

theorem intercalate_append (rest : List Char) (parts : List (List Char)) :
    [','].intercalate parts ++ rest = partsOnto rest true parts := by
  cases parts with
  | nil => rfl
  | cons part parts =>
    induction parts generalizing part with
    | nil =>
      rw [List.intercalate_singleton]
      rfl
    | cons next parts ih =>
      rw [List.intercalate_cons_cons, List.append_assoc, List.append_assoc, ih next]
      rfl

theorem arrayText_append (inner : List Char) (es : List Element) (rest : List Char) :
    arrayText inner es ++ rest =
      '[' :: (inner ++ partsOnto (']' :: rest) true (es.map Element.text)) := by
  simp [arrayText, ← intercalate_append]

theorem objectText_append (inner : List Char) (ms : List Member) (rest : List Char) :
    objectText inner ms ++ rest =
      '\x7b' :: (inner ++ partsOnto ('\x7d' :: rest) true (ms.map Member.text)) := by
  simp [objectText, ← intercalate_append]

theorem ends_partsOnto (h : Ends rest) (parts : List (List Char)) :
    Ends (partsOnto rest false parts) := by
  cases parts with
  | nil => exact h
  | cons part parts => exact ends_cons (by decide) (by decide) _

theorem Member.text_append (m : Member) (rest : List Char) :
    m.text ++ rest =
      m.before ++ '"' :: (m.name ++ '"' :: (m.between ++ ':' :: (m.element.text ++ rest))) := by
  simp [Member.text]

theorem Element.text_append (e : Element) (rest : List Char) :
    e.text ++ rest = e.before ++ (e.value ++ (e.after ++ rest)) := by
  simp [Element.text]

/-- A value starts with neither white space nor the mark that closes an array. -/
theorem IsValue.exists_cons (h : IsValue v) :
    ∃ c cs, v = c :: cs ∧ isSpace c = false ∧ c ≠ ']' := by
  cases h with
  | word hw =>
    simp only [List.mem_cons, List.not_mem_nil, or_false] at hw
    rcases hw with rfl | rfl | rfl
    · exact ⟨_, _, rfl, by decide⟩
    · exact ⟨_, _, rfl, by decide⟩
    · exact ⟨_, _, rfl, by decide⟩
  | number hn =>
    cases hn with
    | unsigned h =>
      obtain ⟨d, tail, rfl, hd⟩ := h.exists_cons
      exact ⟨d, tail, rfl, isSpace_of_isDigit hd, ne_of_isDigit hd (by decide)⟩
    | negative h => exact ⟨_, _, rfl, by decide⟩
  | string hb => exact ⟨_, _, rfl, by decide⟩
  | array hs hes => exact ⟨_, _, rfl, by decide⟩
  | object hs hms => exact ⟨_, _, rfl, by decide⟩

theorem skipValueIn_digit {c : Char} (hc : c.isDigit = true) (fuel : Nat) (cs : List Char) :
    skipValueIn (fuel + 1) (c :: cs) = skipNumber (c :: cs) := by
  have hn : c ≠ 'n' := ne_of_isDigit hc (by decide)
  have ht : c ≠ 't' := ne_of_isDigit hc (by decide)
  have hf : c ≠ 'f' := ne_of_isDigit hc (by decide)
  have hminus : c ≠ '-' := ne_of_isDigit hc (by decide)
  rw [skipValueIn, skipSpace_cons (isSpace_of_isDigit hc)]
  simp only [hn, ht, hf, hminus, hc, if_true, if_false]

/-- Every number of the grammar is skipped as a whole. -/
theorem skipped_number (h : IsNumber v) : Skipped v := by
  intro fuel hfuel rest hrest
  obtain ⟨fuel, rfl⟩ := Nat.exists_eq_succ_of_ne_zero (Nat.ne_zero_of_lt hfuel)
  cases h with
  | unsigned h =>
    have hskip := skipNumber_unsigned h hrest
    obtain ⟨d, tail, rfl, hd⟩ := h.exists_cons
    rw [List.cons_append] at hskip ⊢
    rw [skipValueIn_digit hd, hskip]
  | negative h =>
    rw [List.cons_append, skipValueIn, skipSpace_cons (by decide)]
    exact skipNumber_unsigned h hrest

/-- Every string whose body is well formed is skipped as a whole. -/
theorem skipped_string {body : List Char} (h : StringBody body) :
    Skipped ('"' :: (body ++ ['"'])) := by
  intro fuel hfuel rest _
  obtain ⟨fuel, rfl⟩ := Nat.exists_eq_succ_of_ne_zero (Nat.ne_zero_of_lt hfuel)
  rw [List.cons_append, List.append_assoc, skipValueIn, skipSpace_cons (by decide)]
  exact skipStringBody_of_stringBody h rest

def PartSkipped (skip : Nat → List Char → Except Fault (List Char)) (close : Char)
    (part : List Char) : Prop :=
  ∀ fuel, 2 * part.length < fuel → ∀ rest,
    skip (fuel + 1) (part ++ ',' :: rest) = skip fuel rest ∧
      skip (fuel + 1) (part ++ close :: rest) = .ok rest

/-- Every part takes some of the text, and so the fuel lasts for all of them. -/
theorem skip_partsOnto {skip : Nat → List Char → Except Fault (List Char)} {close : Char}
    {part : List Char} {parts : List (List Char)} {fuel : Nat}
    (hparts : ∀ p ∈ part :: parts, PartSkipped skip close p)
    (hfuel : 2 * (partsOnto [close] true (part :: parts)).length < fuel) :
    skip fuel (partsOnto (close :: rest) true (part :: parts)) = .ok rest := by
  -- the first part stands apart, since the comma goes with the part before it
  induction parts generalizing part fuel with
  | nil =>
    obtain ⟨fuel, rfl⟩ := Nat.exists_eq_succ_of_ne_zero (Nat.ne_zero_of_lt hfuel)
    simp only [partsOnto, if_true, List.nil_append, List.length_append, List.length_cons,
      List.length_nil] at hfuel
    exact (hparts part List.mem_cons_self fuel (by omega) rest).2
  | cons next parts ih =>
    obtain ⟨fuel, rfl⟩ := Nat.exists_eq_succ_of_ne_zero (Nat.ne_zero_of_lt hfuel)
    have hlength : (partsOnto [close] true (part :: next :: parts)).length =
        part.length + ((partsOnto [close] true (next :: parts)).length + 1) := by
      rw [partsOnto, if_pos rfl, List.nil_append, List.length_append]
      rfl
    have hpart := hparts part List.mem_cons_self fuel (by omega)
      (partsOnto (close :: rest) true (next :: parts))
    calc skip (fuel + 1) (partsOnto (close :: rest) true (part :: next :: parts))
        = skip fuel (partsOnto (close :: rest) true (next :: parts)) := hpart.1
      _ = .ok rest := ih (fun p hp => hparts p (List.mem_cons_of_mem _ hp)) (by omega)

/-- A value is skipped with the white space around it, given fuel for its length. -/
theorem skipValueIn_element {e : Element} {fuel : Nat} (hv : Skipped e.value)
    (hfuel : 2 * e.text.length < fuel) (hrest : Ends rest) :
    skipValueIn fuel (e.text ++ rest) = .ok (e.after ++ rest) := by
  have hshorter : 2 * e.value.length < fuel := by
    simp only [Element.text, List.length_append] at hfuel
    omega
  rw [Element.text_append, ignore_spaces (skipValueIn_skipSpace fuel) e.spaces_before]
  exact hv fuel hshorter _ (ends_append e.spaces_after hrest)

def skipAfterElement (fuel : Nat) (cs : List Char) : Except Fault (List Char) :=
  match skipSpace cs with
  | ',' :: rest => skipElementsIn fuel rest
  | ']' :: rest => .ok rest
  | rest => .error (unexpected rest)

theorem partSkipped_element {e : Element} (hv : Skipped e.value) :
    PartSkipped skipElementsIn ']' e.text := by
  intro fuel hfuel rest
  have hsteps (cs : List Char) :
      skipElementsIn (fuel + 1) cs = skipValueIn fuel cs >>= skipAfterElement fuel := rfl
  have hstep (tail : List Char) (htail : Ends tail) :
      skipElementsIn (fuel + 1) (e.text ++ tail) = skipAfterElement fuel tail := by
    rw [hsteps, skipValueIn_element hv hfuel htail]
    simp only [bind, Except.bind, skipAfterElement, skipSpace_append e.spaces_after]
  exact ⟨hstep _ (ends_cons (by decide) (by decide) rest),
    hstep _ (ends_cons (by decide) (by decide) rest)⟩

def skipAfterMember (fuel : Nat) (cs : List Char) : Except Fault (List Char) :=
  match skipSpace cs with
  | ',' :: rest => skipMembersIn fuel rest
  | '\x7d' :: rest => .ok rest
  | rest => .error (unexpected rest)

def skipFromColon (fuel : Nat) (cs : List Char) : Except Fault (List Char) :=
  match skipSpace cs with
  | ':' :: rest => skipValueIn fuel rest >>= skipAfterMember fuel
  | rest => .error (unexpected rest)

/-- A member of an object is skipped from its name to the mark behind its value. -/
theorem partSkipped_member {m : Member} (hv : Skipped m.element.value) :
    PartSkipped skipMembersIn '\x7d' m.text := by
  intro fuel hfuel rest
  have hshorter : 2 * m.element.text.length < fuel := by
    simp only [Member.text, List.length_append, List.length_cons] at hfuel
    omega
  have hsteps (cs : List Char) :
      skipMembersIn (fuel + 1) ('"' :: cs) = skipStringBody cs >>= skipFromColon fuel := rfl
  have hcolon (cs : List Char) :
      skipFromColon fuel (':' :: cs) = skipValueIn fuel cs >>= skipAfterMember fuel := rfl
  have hbetween (cs : List Char) :
      skipFromColon fuel (m.between ++ cs) = skipFromColon fuel cs := by
    rw [skipFromColon, skipFromColon, skipSpace_append m.spaces_between]
  have hstep (tail : List Char) (htail : Ends tail) :
      skipMembersIn (fuel + 1) (m.text ++ tail) = skipAfterMember fuel tail := by
    rw [Member.text_append, ignore_spaces (skipMembersIn_skipSpace _) m.spaces_before, hsteps,
      skipStringBody_of_stringBody m.stringBody]
    simp only [bind, Except.bind, hbetween]
    rw [hcolon, skipValueIn_element hv hshorter htail]
    simp only [bind, Except.bind, skipAfterMember, skipSpace_append m.element.spaces_after]
  exact ⟨hstep _ (ends_cons (by decide) (by decide) rest),
    hstep _ (ends_cons (by decide) (by decide) rest)⟩

theorem skipSpace_member (m : Member) (rest : List Char) :
    skipSpace (m.text ++ rest) =
      '"' :: (m.name ++ '"' :: (m.between ++ ':' :: (m.element.text ++ rest))) := by
  have hquote : isSpace '"' = false := by decide
  rw [Member.text_append, skipSpace_append m.spaces_before, skipSpace_cons hquote]

/-- An element does not start like the end of the array. -/
theorem skipSpace_element {e : Element} (h : IsValue e.value) (rest : List Char) :
    ∃ c cs, e.value = c :: cs ∧ c ≠ ']' ∧
      skipSpace (e.text ++ rest) = c :: (cs ++ (e.after ++ rest)) ∧
        skipSpace (c :: (cs ++ (e.after ++ rest))) = c :: (cs ++ (e.after ++ rest)) := by
  obtain ⟨c, cs, hc, hspace, hclose⟩ := h.exists_cons
  have hstay := skipSpace_cons hspace (cs ++ (e.after ++ rest))
  refine ⟨c, cs, hc, hclose, ?_, hstay⟩
  rw [Element.text_append, skipSpace_append e.spaces_before, hc]
  exact hstay

/-- An array is skipped if its elements are. -/
theorem skipped_arrayText (hs : Spaces inner)
    (hes : ∀ e ∈ es, IsValue e.value ∧ Skipped e.value) : Skipped (arrayText inner es) := by
  intro fuel hfuel rest _
  obtain ⟨fuel, rfl⟩ := Nat.exists_eq_succ_of_ne_zero (Nat.ne_zero_of_lt hfuel)
  have hparts : ∀ p ∈ es.map Element.text, PartSkipped skipElementsIn ']' p := by
    intro p hp
    obtain ⟨e, he, rfl⟩ := List.mem_map.mp hp
    exact partSkipped_element (hes e he).2
  have hlength := congrArg List.length (arrayText_append inner es [])
  rw [List.append_nil, List.length_cons, List.length_append] at hlength
  rw [arrayText_append, skipValueIn, skipSpace_cons (by decide)]
  cases es with
  | nil =>
    have hclose : skipSpace (inner ++ ']' :: rest) = ']' :: rest := skipSpace_append hs _
    simp [partsOnto, hclose]
  | cons e es =>
    rw [List.map_cons] at hparts hlength ⊢
    have hskip : skipElementsIn fuel
        (partsOnto (']' :: rest) true (e.text :: es.map Element.text)) = .ok rest :=
      skip_partsOnto hparts (by omega)
    have hfirst : partsOnto (']' :: rest) true (e.text :: es.map Element.text) =
        e.text ++ partsOnto (']' :: rest) false (es.map Element.text) := rfl
    -- the array is not taken for an empty one
    obtain ⟨c, cs, -, hclose, hc, -⟩ := skipSpace_element (hes e List.mem_cons_self).1
      (partsOnto (']' :: rest) false (es.map Element.text))
    rw [hfirst] at hskip ⊢
    rw [← skipElementsIn_skipSpace, hc] at hskip
    simp [skipSpace_append hs, hc, hclose, hskip]

/-- An object is skipped if the values of its members are. -/
theorem skipped_objectText (hs : Spaces inner) (hms : ∀ m ∈ ms, Skipped m.element.value) :
    Skipped (objectText inner ms) := by
  intro fuel hfuel rest _
  obtain ⟨fuel, rfl⟩ := Nat.exists_eq_succ_of_ne_zero (Nat.ne_zero_of_lt hfuel)
  have hparts : ∀ p ∈ ms.map Member.text, PartSkipped skipMembersIn '\x7d' p := by
    intro p hp
    obtain ⟨m, hm, rfl⟩ := List.mem_map.mp hp
    exact partSkipped_member (hms m hm)
  have hlength := congrArg List.length (objectText_append inner ms [])
  rw [List.append_nil, List.length_cons, List.length_append] at hlength
  rw [objectText_append, skipValueIn, skipSpace_cons (by decide)]
  cases ms with
  | nil =>
    have hclose : skipSpace (inner ++ '\x7d' :: rest) = '\x7d' :: rest := skipSpace_append hs _
    simp [partsOnto, hclose]
  | cons m ms =>
    rw [List.map_cons] at hparts hlength ⊢
    -- the fuel of the object is more than twice the length of what is between its braces
    have hskip : skipMembersIn fuel
        (partsOnto ('\x7d' :: rest) true (m.text :: ms.map Member.text)) = .ok rest :=
      skip_partsOnto hparts (by omega)
    have hfirst : partsOnto ('\x7d' :: rest) true (m.text :: ms.map Member.text) =
        m.text ++ partsOnto ('\x7d' :: rest) false (ms.map Member.text) := rfl
    rw [hfirst] at hskip ⊢
    rw [← skipMembersIn_skipSpace, skipSpace_member] at hskip
    simp [skipSpace_append hs, skipSpace_member, hskip]

/-- Every well-formed value is passed over, with whatever it holds. -/
theorem IsValue.skipped (h : IsValue v) : Skipped v := by
  -- the induction is on the grammar, so the values in an array or object are passed over already
  induction h with
  | word hw =>
    intro fuel hfuel rest _
    obtain ⟨fuel, rfl⟩ := Nat.exists_eq_succ_of_ne_zero (Nat.ne_zero_of_lt hfuel)
    simp only [List.mem_cons, List.not_mem_nil, or_false] at hw
    rcases hw with rfl | rfl | rfl
    · rfl
    · rfl
    · rfl
  | number hn => exact skipped_number hn
  | string hb => exact skipped_string hb
  | array hs hes ih => exact skipped_arrayText hs fun e he => ⟨hes e he, ih e he⟩
  | object hs hms ih => exact skipped_objectText hs ih

end Values

end MountControl.Json
