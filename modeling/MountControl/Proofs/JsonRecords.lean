import MountControl.Proofs.JsonGrammar

namespace MountControl.Json

/-! ## One value -/

/-- A reader takes a well-formed value just if it has the form of one of its own, and nothing else
of the text. -/
def Exact {α : Type} (read : Reader α) (form : α → List Char) : Prop :=
  ∀ e : Element, IsValue e.value → ∀ tail, Ends tail → ∀ a rest,
    read (e.text ++ tail) = .ok (a, rest) ↔ e.value = form a ∧ rest = e.after ++ tail

theorem Exact.value {α : Type} {read : Reader α} {form : α → List Char} (h : Exact read form)
    {e : Element} {tail rest : List Char} {a : α} (he : IsValue e.value) (htail : Ends tail) :
    read (e.value ++ (e.after ++ tail)) = .ok (a, rest) ↔
      e.value = form a ∧ rest = e.after ++ tail := by
  have hbare := h ⟨[], e.value, e.after, by decide, e.spaces_after⟩ he tail htail a rest
  rwa [Element.text_append] at hbare

section Words

variable {limit n : Nat} {cs rest : List Char}

theorem readWord_skipSpace (limit : Nat) (cs : List Char) :
    readWord limit (skipSpace cs) = readWord limit cs := by
  rw [readWord, readWord, skipSpace_skipSpace]

/-- A word is read from its decimal digits only, without a sign, a fraction or zeros in front. -/
theorem eq_of_readWord (h : readWord limit cs = .ok (n, rest)) :
    skipSpace cs = Nat.toDigits 10 n ++ rest ∧ n ≤ limit ∧ Ends rest := by
  rw [readWord] at h
  split at h
  · cases h
  · next c tail hspace =>
    split_ifs at h with hminus hdigit
    · obtain ⟨⟨number, after⟩, hnumber, hwithin⟩ := bind_eq_ok_iff.mp h
      cases number with
      | natural m => cases (eq_of_readNumber hnumber).1
      | negative m => cases hwithin
      | other => cases hwithin
    · obtain ⟨⟨number, after⟩, hnumber, hwithin⟩ := bind_eq_ok_iff.mp h
      cases number with
      | natural m =>
        dsimp only at hwithin
        split_ifs at hwithin with hm
        cases hwithin
        obtain ⟨-, hdigits, hends⟩ := eq_of_readNumber hnumber
        exact ⟨hspace.trans hdigits, hm, hends⟩
      | negative m => cases hwithin
      | other => cases hwithin

/-- The digits of a number within the limit are read as that number. -/
theorem readWord_digits (hlimit : limit < 0x10000000000000000) (hn : n ≤ limit)
    (hrest : Ends rest) : readWord limit (Nat.toDigits 10 n ++ rest) = .ok (n, rest) := by
  have hread := reads_toString hlimit hn rest hrest
  rwa [Nat.toString_eq_ofList_toDigits, String.toList_ofList] at hread

/-- A well-formed value is read as a word if it is the word's digits, and only then. -/
theorem readWord_element {e : Element} {tail : List Char} (hlimit : limit < 0x10000000000000000)
    (he : IsValue e.value) (htail : Ends tail) :
    readWord limit (e.text ++ tail) = .ok (n, rest) ↔
      e.value = Nat.toDigits 10 n ∧ n ≤ limit ∧ rest = e.after ++ tail := by
  have hends := ends_append e.spaces_after htail
  rw [Element.text_append, ignore_spaces (readWord_skipSpace limit) e.spaces_before]
  constructor
  · intro h
    obtain ⟨hdigits, hn, hrest⟩ := eq_of_readWord h
    obtain ⟨c, cs, hc, hspace, -⟩ := he.exists_cons
    rw [hc, List.cons_append, skipSpace_cons hspace, ← List.cons_append, ← hc] at hdigits
    -- the value and the digits begin at the same place, so what passes over both ends at the same
    have hnumber : IsValue (Nat.toDigits 10 n) := .number (isNumber_toDigits n)
    have hvalue := skipValue_append he.skipped hends
    rw [hdigits, skipValue_append hnumber.skipped hrest] at hvalue
    obtain rfl := Except.ok.inj hvalue
    exact ⟨List.append_cancel_right hdigits, hn, rfl⟩
  · rintro ⟨hdigits, hn, rfl⟩
    rw [hdigits]
    exact readWord_digits hlimit hn hends

end Words

/-! ## Members -/

section Members

variable {κ ν : Type}

/-- What a reader of records takes from the members of an object: a member with one of the names is
read if the name was not seen before, and any other member counts for nothing. -/
inductive Gathered (names : List (String × κ)) (form : ν → List Char) :
    List κ → List Member → List (κ × ν) → Prop
  | nil {seen} : Gathered names form seen [] []
  | named {seen m ms name key v vals} (hname : m.HasName name)
      (hkey : names.lookup name = some key) (hseen : key ∉ seen) (hv : m.element.value = form v)
      (h : Gathered names form (key :: seen) ms vals) :
      Gathered names form seen (m :: ms) ((key, v) :: vals)
  | other {seen m ms name vals} (hname : m.HasName name)
      (hkey : names.lookup name = none) (h : Gathered names form seen ms vals) :
      Gathered names form seen (m :: ms) vals

variable [DecidableEq κ] {names : List (String × κ)} {read : κ → Reader ν} {form : ν → List Char}
  {seen : List κ} {ms : List Member} {vals : List (κ × ν)} {tail rest : List Char}

theorem skipSign_append {sign : Char} (hsign : isSpace sign = false) {w : List Char} (hw : Spaces w)
    (cs : List Char) : skipSign sign (w ++ sign :: cs) = .ok cs := by
  rw [skipSign, skipSpace_append hw, skipSpace_cons hsign]
  exact if_pos rfl

theorem readMembers_skipSpace (fuel : Nat) (seen : List κ) (first : Bool) (cs : List Char) :
    readMembers names read fuel seen first (skipSpace cs) =
      readMembers names read fuel seen first cs := by
  cases fuel with
  | zero => rfl
  | succ fuel => rw [readMembers, readMembers, skipSpace_skipSpace]

def readFromName (names : List (String × κ)) (read : κ → Reader ν) (fuel : Nat) (seen : List κ) :
    Reader (List (κ × ν)) := fun cs => do
  let (name, rest) ← readStringBody cs
  match names.lookup name with
  | some key =>
    if key ∈ seen then .error .mismatched
    else
      let (value, rest) ← read key (← skipSign ':' rest)
      let (values, rest) ← readMembers names read fuel (key :: seen) false rest
      .ok ((key, value) :: values, rest)
  | none =>
    let rest ← skipValue (← skipSign ':' rest)
    readMembers names read fuel seen false rest

/-- A member is read from its name on, with the white space before it dropped. -/
theorem readMembers_member (m : Member) (fuel : Nat) (seen : List κ) (first : Bool) :
    readMembers names read (fuel + 1) seen first
        ((if first then [] else [',']) ++ (m.text ++ tail)) =
      readFromName names read fuel seen
        (m.name ++ '"' :: (m.between ++ ':' :: (m.element.text ++ tail))) := by
  cases first with
  | true =>
    rw [if_pos rfl, List.nil_append, readMembers, skipSpace_member]
    rfl
  | false =>
    have hcomma : isSpace ',' = false := by decide
    have hsign : skipSign ',' (',' :: (m.text ++ tail)) = .ok (m.text ++ tail) := rfl
    simp [readMembers, skipSpace_cons hcomma, skipComma, hsign, skipSpace_member, bind, Except.bind]
    rfl

section Steps

variable {m : Member} {name : String} {key : κ} {fuel : Nat}

/-- A member is read only if its name can be decoded. -/
theorem exists_hasName_of_readFromName {a : List (κ × ν) × List Char}
    (h : readFromName names read fuel seen (m.name ++ '"' :: tail) = .ok a) :
    ∃ name, m.HasName name := by
  obtain ⟨⟨name, after⟩, hname, -⟩ := bind_eq_ok_iff.mp h
  exact ⟨name, ((readStringBody_eq_ok_iff m.stringBody).mp hname).1⟩

theorem readMembers_after (e : Element) (seen : List κ) :
    readMembers names read fuel seen false (e.after ++ tail) =
      readMembers names read fuel seen false tail :=
  ignore_spaces (readMembers_skipSpace fuel seen false) e.spaces_after tail

/-- A member that no name of the record stands for is passed over. -/
theorem readFromName_of_none (hname : m.HasName name) (hkey : names.lookup name = none)
    (hm : IsValue m.element.value) (htail : Ends tail) :
    readFromName names read fuel seen
        (m.name ++ '"' :: (m.between ++ ':' :: (m.element.text ++ tail))) =
      readMembers names read fuel seen false tail := by
  have hcolon : isSpace ':' = false := by decide
  have hsign := skipSign_append hcolon m.spaces_between (m.element.text ++ tail)
  have hskip : skipValue (m.element.text ++ tail) = .ok (m.element.after ++ tail) := by
    apply skipValueIn_element hm.skipped _ htail
    rw [List.length_append]
    omega
  rw [readFromName, (readStringBody_eq_ok_iff m.stringBody).mpr ⟨hname, rfl⟩]
  simp only [hkey, hsign, hskip, readMembers_after, bind, Except.bind]

/-- A member of the record is read if it was not seen before and its value has the right form. -/
theorem readFromName_of_some (hname : m.HasName name) (hkey : names.lookup name = some key)
    (hread : Exact (read key) form) (hm : IsValue m.element.value) (htail : Ends tail) :
    readFromName names read fuel seen
        (m.name ++ '"' :: (m.between ++ ':' :: (m.element.text ++ tail))) = .ok (vals, rest) ↔
      key ∉ seen ∧ ∃ v vals', m.element.value = form v ∧
        readMembers names read fuel (key :: seen) false tail = .ok (vals', rest) ∧
          vals = (key, v) :: vals' := by
  have hcolon : isSpace ':' = false := by decide
  have hsign := skipSign_append hcolon m.spaces_between (m.element.text ++ tail)
  have hsteps : readFromName names read fuel seen
        (m.name ++ '"' :: (m.between ++ ':' :: (m.element.text ++ tail))) =
      if key ∈ seen then .error .mismatched
      else read key (m.element.text ++ tail) >>= fun (v, rest) =>
        readMembers names read fuel (key :: seen) false rest >>= fun (vals, rest) =>
          .ok ((key, v) :: vals, rest) := by
    rw [readFromName, (readStringBody_eq_ok_iff m.stringBody).mpr ⟨hname, rfl⟩]
    simp only [hkey, hsign, bind, Except.bind]
  rw [hsteps]
  by_cases hseen : key ∈ seen
  · rw [if_pos hseen]
    constructor
    · intro h
      cases h
    · intro h
      exact absurd hseen h.1
  · rw [if_neg hseen, bind_eq_ok_iff]
    constructor
    · rintro ⟨⟨v, after⟩, hv, hlater⟩
      obtain ⟨hform, rfl⟩ := (hread m.element hm tail htail v after).mp hv
      obtain ⟨⟨vals', after⟩, hvals, hpair⟩ := bind_eq_ok_iff.mp hlater
      cases hpair
      rw [readMembers_after] at hvals
      exact ⟨hseen, v, vals', hform, hvals, rfl⟩
    · rintro ⟨-, v, vals', hform, hvals, rfl⟩
      have hv := (hread m.element hm tail htail v _).mpr ⟨hform, rfl⟩
      refine ⟨_, hv, bind_eq_ok_iff.mpr ⟨(vals', rest), ?_, rfl⟩⟩
      rw [readMembers_after, hvals]

end Steps

/-- The members of an object are read if their names can be, no name of the record comes twice and
every value under one has its form; and then what they give is read. -/
theorem readMembers_eq_ok_iff {fuel : Nat} {first : Bool} (hread : ∀ key, Exact (read key) form)
    (hms : ∀ m ∈ ms, IsValue m.element.value) (hfuel : ms.length < fuel) :
    readMembers names read fuel seen first
        (partsOnto ('\x7d' :: tail) first (ms.map Member.text)) = .ok (vals, rest) ↔
      Gathered names form seen ms vals ∧ rest = tail := by
  -- from member to member the fuel, the names seen and the values that are left change
  induction ms generalizing fuel first seen vals with
  | nil =>
    obtain ⟨fuel, rfl⟩ := Nat.exists_eq_succ_of_ne_zero (Nat.ne_zero_of_lt hfuel)
    have hend : readMembers names read (fuel + 1) seen first ('\x7d' :: tail) =
        .ok ([], tail) := rfl
    rw [List.map_nil, partsOnto, hend]
    constructor
    · intro h
      cases h
      exact ⟨.nil, rfl⟩
    · rintro ⟨⟨⟩, rfl⟩
      rfl
  | cons m ms ih =>
    obtain ⟨fuel, rfl⟩ := Nat.exists_eq_succ_of_ne_zero (Nat.ne_zero_of_lt hfuel)
    have hends : Ends (partsOnto ('\x7d' :: tail) false (ms.map Member.text)) :=
      ends_partsOnto (ends_cons (by decide) (by decide) tail) _
    have hlater (seen : List κ) (vals : List (κ × ν)) :
        readMembers names read fuel seen false
            (partsOnto ('\x7d' :: tail) false (ms.map Member.text)) = .ok (vals, rest) ↔
          Gathered names form seen ms vals ∧ rest = tail :=
      ih (fun m hm => hms m (List.mem_cons_of_mem _ hm)) (Nat.lt_of_succ_lt_succ hfuel)
    have hm := hms m List.mem_cons_self
    rw [List.map_cons, partsOnto, readMembers_member]
    constructor
    · intro h
      -- without a name that can be read there is no reading on
      obtain ⟨name, hname⟩ := exists_hasName_of_readFromName h
      cases hkey : names.lookup name with
      | none =>
        rw [readFromName_of_none hname hkey hm hends, hlater] at h
        exact ⟨.other hname hkey h.1, h.2⟩
      | some key =>
        rw [readFromName_of_some hname hkey (hread key) hm hends] at h
        obtain ⟨hseen, v, vals, hform, hvals, rfl⟩ := h
        obtain ⟨hgathered, hrest⟩ := (hlater _ _).mp hvals
        exact ⟨.named hname hkey hseen hform hgathered, hrest⟩
    · rintro ⟨hvals, hrest⟩
      cases hvals with
      | @named _ _ _ name key v vals hname hkey hseen hform h =>
        have hgathered := (hlater _ _).mpr ⟨h, hrest⟩
        exact (readFromName_of_some hname hkey (hread key) hm hends).mpr
          ⟨hseen, v, vals, hform, hgathered, rfl⟩
      | other hname hkey h =>
        rw [readFromName_of_none hname hkey hm hends]
        exact (hlater _ _).mpr ⟨h, hrest⟩

theorem length_lt_length_members (ms : List Member) (first : Bool) (tail : List Char) :
    ms.length < (partsOnto ('\x7d' :: tail) first (ms.map Member.text)).length := by
  induction ms generalizing first with
  | nil => exact Nat.succ_pos _
  | cons m ms ih =>
    have hlater := ih false
    simp only [List.map_cons, partsOnto, Member.text, List.length_append, List.length_cons]
    omega

end Members

/-! ## Elements -/

section Elements

variable {κ ν : Type}

inductive Aligned (form : ν → List Char) : List κ → List Element → List (κ × ν) → Prop
  | nil {order} : Aligned form order [] []
  | cons {key order e es v vals} (hv : e.value = form v) (h : Aligned form order es vals) :
      Aligned form (key :: order) (e :: es) ((key, v) :: vals)

variable {read : κ → Reader ν} {form : ν → List Char} {order : List κ} {key : κ}
  {es : List Element} {vals : List (κ × ν)} {tail rest : List Char}

theorem readElements_skipSpace (order : List κ) (first : Bool) (cs : List Char) :
    readElements read order first (skipSpace cs) = readElements read order first cs := by
  cases order with
  | nil => rw [readElements, readElements, skipSpace_skipSpace]
  | cons key order => rw [readElements, readElements, skipSpace_skipSpace]

theorem readElements_element {e : Element} (he : IsValue e.value) (first : Bool) :
    readElements read (key :: order) first ((if first then [] else [',']) ++ (e.text ++ tail)) =
      read key (e.value ++ (e.after ++ tail)) >>= fun (v, rest) =>
        readElements read order false rest >>= fun (vals, rest) =>
          .ok ((key, v) :: vals, rest) := by
  obtain ⟨c, cs, hc, hclose, hskip, hstay⟩ := skipSpace_element he tail
  rw [hc, List.cons_append]
  cases first with
  | true =>
    rw [if_pos rfl, List.nil_append, readElements, hskip]
    simp [skipComma, hstay, hclose, bind, Except.bind]
  | false =>
    have hcomma : isSpace ',' = false := by decide
    have hsign : skipSign ',' (',' :: (e.text ++ tail)) = .ok (e.text ++ tail) := rfl
    simp [readElements, skipSpace_cons hcomma, skipComma, hsign, hskip, hclose, bind, Except.bind]

/-- There is no reading on where the names are used up. -/
theorem readElements_nil {e : Element} (he : IsValue e.value) (first : Bool) :
    readElements read [] first ((if first then [] else [',']) ++ (e.text ++ tail)) =
      .error .malformed := by
  obtain ⟨c, cs, -, hclose, hskip, -⟩ := skipSpace_element he tail
  cases first with
  | true =>
    rw [if_pos rfl, List.nil_append, readElements, hskip]
    simp [hclose, unexpected]
  | false => rfl

theorem readElements_close (order : List κ) (first : Bool) (tail : List Char) :
    readElements read order first (']' :: tail) = .ok ([], tail) := by
  cases order with
  | nil => rfl
  | cons key order => rfl

/-- The elements of an array are read as the values of the names in order, if there are not too many
of them and every one has its form. -/
theorem readElements_eq_ok_iff {first : Bool} (hread : ∀ key, Exact (read key) form)
    (hes : ∀ e ∈ es, IsValue e.value) :
    readElements read order first (partsOnto (']' :: tail) first (es.map Element.text)) =
        .ok (vals, rest) ↔
      Aligned form order es vals ∧ rest = tail := by
  induction es generalizing order first vals with
  | nil =>
    rw [List.map_nil, partsOnto, readElements_close]
    constructor
    · intro h
      cases h
      exact ⟨.nil, rfl⟩
    · rintro ⟨⟨⟩, rfl⟩
      rfl
  | cons e es ih =>
    have he := hes e List.mem_cons_self
    have hends : Ends (partsOnto (']' :: tail) false (es.map Element.text)) :=
      ends_partsOnto (ends_cons (by decide) (by decide) tail) _
    rw [List.map_cons, partsOnto]
    cases order with
    | nil =>
      rw [readElements_nil he]
      constructor
      · intro h
        cases h
      · rintro ⟨⟨⟩, -⟩
    | cons key order =>
      have hlater (vals : List (κ × ν)) : readElements read order false
          (e.after ++ partsOnto (']' :: tail) false (es.map Element.text)) = .ok (vals, rest) ↔
            Aligned form order es vals ∧ rest = tail := by
        rw [ignore_spaces (readElements_skipSpace order false) e.spaces_after]
        exact ih fun e he => hes e (List.mem_cons_of_mem _ he)
      rw [readElements_element he, bind_eq_ok_iff]
      constructor
      · rintro ⟨⟨v, after⟩, hv, hrest⟩
        obtain ⟨hform, rfl⟩ := ((hread key).value he hends).mp hv
        obtain ⟨⟨vals, after⟩, hvals, hpair⟩ := bind_eq_ok_iff.mp hrest
        cases hpair
        obtain ⟨haligned, rfl⟩ := (hlater vals).mp hvals
        exact ⟨.cons hform haligned, rfl⟩
      · rintro ⟨haligned, rfl⟩
        cases haligned with
        | @cons _ _ _ _ v vals hform h =>
          have hv := ((hread key).value he hends).mpr ⟨hform, rfl⟩
          have hvals := (hlater vals).mpr ⟨h, rfl⟩
          exact ⟨_, hv, bind_eq_ok_iff.mpr ⟨_, hvals, rfl⟩⟩

end Elements

/-! ## Whole records -/

section Record

variable {κ ν : Type} [DecidableEq κ] {names : List (String × κ)} {read : κ → Reader ν}
  {form : ν → List Char} {w inner tail rest : List Char} {vals : List (κ × ν)}

theorem readRecord_skipSpace (cs : List Char) :
    readRecord names read (skipSpace cs) = readRecord names read cs := by
  rw [readRecord, readRecord, skipSpace_skipSpace]

/-- A record in the form of an object is read member by member up to its closing brace. -/
theorem readRecord_objectText {ms : List Member} (hread : ∀ key, Exact (read key) form)
    (hw : Spaces w) (hinner : Spaces inner) (hms : ∀ m ∈ ms, IsValue m.element.value) :
    readRecord names read (w ++ (objectText inner ms ++ tail)) = .ok (vals, rest) ↔
      Gathered names form [] ms vals ∧ rest = tail := by
  have hfuel : ms.length <
      (inner ++ partsOnto ('\x7d' :: tail) true (ms.map Member.text)).length := by
    have hlength := length_lt_length_members ms true tail
    rw [List.length_append]
    omega
  have hstart (cs : List Char) : readRecord names read ('\x7b' :: cs) =
      readMembers names read cs.length [] true cs := rfl
  rw [ignore_spaces readRecord_skipSpace hw, objectText_append, hstart,
    ignore_spaces (readMembers_skipSpace _ [] true) hinner]
  exact readMembers_eq_ok_iff hread hms hfuel

/-- A record in the form of an array is read place by place. -/
theorem readRecord_arrayText {es : List Element} (hread : ∀ key, Exact (read key) form)
    (hw : Spaces w) (hinner : Spaces inner) (hes : ∀ e ∈ es, IsValue e.value) :
    readRecord names read (w ++ (arrayText inner es ++ tail)) = .ok (vals, rest) ↔
      Aligned form (names.map (·.2)) es vals ∧ rest = tail := by
  have hstart (cs : List Char) : readRecord names read ('[' :: cs) =
      readElements read (names.map (·.2)) true cs := rfl
  rw [ignore_spaces readRecord_skipSpace hw, arrayText_append, hstart,
    ignore_spaces (readElements_skipSpace _ true) hinner]
  exact readElements_eq_ok_iff hread hes

end Record

/-- A text is read if a reader takes it up to white space. -/
theorem readText_eq_ok_iff {α : Type} {read : Reader α} {text : String} {a : α} :
    readText read text = .ok a ↔
      ∃ rest, read text.toList = .ok (a, rest) ∧ skipSpace rest = [] := by
  rw [readText, bind_eq_ok_iff]
  constructor
  · rintro ⟨⟨value, rest⟩, hread, hend⟩
    dsimp only at hend
    split_ifs at hend with hempty
    cases hend
    exact ⟨rest, hread, List.isEmpty_iff.mp hempty⟩
  · rintro ⟨rest, hread, hend⟩
    refine ⟨(a, rest), hread, ?_⟩
    dsimp only
    rw [hend]
    rfl

/-! ## What members give -/

def valuesOf (ms : List Member) (name : String) : List (List Char) :=
  (ms.filter fun m => m.HasName name).map fun m => m.element.value

/-- A name has one decoding. -/
theorem Member.HasName.unique {m : Member} {name name' : String} (h : m.HasName name)
    (h' : m.HasName name') : name = name' :=
  String.toList_inj.mp (Decodes.unique h h')

section Gathered

variable {κ ν : Type} {names : List (String × κ)} {nameOf : κ → String} {form : ν → List Char}
  {seen : List κ} {m : Member} {ms : List Member} {vals : List (κ × ν)} {name : String}

theorem valuesOf_cons_of_hasName (h : m.HasName name) :
    valuesOf (m :: ms) name = m.element.value :: valuesOf ms name := by
  simp [valuesOf, h]

theorem valuesOf_cons_of_not (h : ¬ m.HasName name) :
    valuesOf (m :: ms) name = valuesOf ms name := by
  simp [valuesOf, h]

/-- Whatever was gathered, each name could be decoded. -/
theorem Gathered.hasName (h : Gathered names form seen ms vals) :
    ∀ m ∈ ms, ∃ name, m.HasName name := by
  induction h with
  | nil => exact nofun
  | named hname _ _ _ _ ih => exact List.forall_mem_cons.mpr ⟨⟨_, hname⟩, ih⟩
  | other hname _ _ ih => exact List.forall_mem_cons.mpr ⟨⟨_, hname⟩, ih⟩

/-- A member for another key, or for none, adds nothing to the values of a key. -/
theorem valuesOf_cons_of_lookup_ne {key : κ}
    (hnames : ∀ name key, names.lookup name = some key ↔ name = nameOf key) (hname : m.HasName name)
    (hkey : names.lookup name ≠ some key) :
    valuesOf (m :: ms) (nameOf key) = valuesOf ms (nameOf key) := by
  apply valuesOf_cons_of_not
  intro h'
  exact hkey ((hnames name key).mpr (hname.unique h'))

/-- Members have, under the name of each key, the value that is wanted for it and no other, and
nothing is wanted for a key seen before. -/
def HoldJust (nameOf : κ → String) (form : ν → List Char) (seen : List κ) (ms : List Member)
    (wanted : κ → Option ν) : Prop :=
  ∀ key, valuesOf ms (nameOf key) = (wanted key).toList.map form ∧ (key ∈ seen → wanted key = none)

variable [DecidableEq κ]

/-- What was gathered under a name is the one value under it. -/
theorem Gathered.holdJust (hnames : ∀ name key, names.lookup name = some key ↔ name = nameOf key)
    (h : Gathered names form seen ms vals) :
    HoldJust nameOf form seen ms fun key => vals.lookup key := by
  intro key
  induction h with
  | nil => exact ⟨rfl, fun _ => rfl⟩
  | @named seen m ms name key' v vals hname hkey hseen hv h ih =>
    obtain ⟨hvals, hnone⟩ := ih
    dsimp only at hvals hnone ⊢
    -- the key that is read here is seen from here on, so the members after it have nothing for it
    by_cases heq : key = key'
    · subst heq
      obtain rfl := (hnames name key).mp hkey
      rw [valuesOf_cons_of_hasName hname, hvals, hnone List.mem_cons_self, hv,
        List.lookup_cons_self]
      exact ⟨rfl, fun hmem => absurd hmem hseen⟩
    · have hother : names.lookup name ≠ some key := by
        rw [hkey]
        exact fun h => heq (Option.some.inj h).symm
      rw [valuesOf_cons_of_lookup_ne hnames hname hother, hvals, List.lookup_cons,
        beq_false_of_ne heq]
      exact ⟨rfl, fun hmem => hnone (List.mem_cons_of_mem _ hmem)⟩
  | @other seen m ms name vals hname hkey h ih =>
    have hother : names.lookup name ≠ some key := by
      rw [hkey]
      nofun
    rwa [valuesOf_cons_of_lookup_ne hnames hname hother]

/-- A member of the record has the value that is wanted for its key, and then nothing more is wanted
for it of the members that follow. -/
theorem HoldJust.of_named {key : κ} {wanted : κ → Option ν}
    (hnames : ∀ name key, names.lookup name = some key ↔ name = nameOf key)
    (h : HoldJust nameOf form seen (m :: ms) wanted) (hname : m.HasName name)
    (hkey : names.lookup name = some key) :
    key ∉ seen ∧ ∃ v, wanted key = some v ∧ m.element.value = form v ∧
      HoldJust nameOf form (key :: seen) ms (Function.update wanted key none) := by
  obtain rfl := (hnames name key).mp hkey
  obtain ⟨hvalue, hseen⟩ := h key
  rw [valuesOf_cons_of_hasName hname] at hvalue
  cases hv : wanted key with
  | none =>
    rw [hv] at hvalue
    cases hvalue
  | some v =>
    rw [hv] at hvalue
    obtain ⟨hform, hnomore⟩ := List.cons.inj hvalue
    refine ⟨?_, v, rfl, hform, ?_⟩
    · intro hmem
      cases hv.symm.trans (hseen hmem)
    · intro k
      by_cases hk : k = key
      · subst hk
        rw [Function.update_self]
        exact ⟨hnomore, fun _ => rfl⟩
      · have hother : names.lookup (nameOf key) ≠ some k := by
          rw [hkey]
          exact fun h => hk (Option.some.inj h).symm
        obtain ⟨hvalue, hnone⟩ := h k
        rw [Function.update_of_ne hk, ← valuesOf_cons_of_lookup_ne hnames hname hother]
        exact ⟨hvalue, fun hmem => hnone (List.mem_of_ne_of_mem hk hmem)⟩

/-- Members that hold just the wanted values, each once, can be gathered. -/
theorem exists_gathered_of_holdJust
    (hnames : ∀ name key, names.lookup name = some key ↔ name = nameOf key) {wanted : κ → Option ν}
    (hms : ∀ m ∈ ms, ∃ name, m.HasName name) (h : HoldJust nameOf form seen ms wanted) :
    ∃ vals, Gathered names form seen ms vals ∧ ∀ key, vals.lookup key = wanted key := by
  induction ms generalizing seen wanted with
  | nil =>
    refine ⟨[], .nil, fun key => ?_⟩
    cases hkey : wanted key with
    | none => rfl
    | some v =>
      have hvalue := (h key).1
      rw [hkey] at hvalue
      cases hvalue
  | cons m ms ih =>
    obtain ⟨⟨name, hname⟩, hms⟩ := List.forall_mem_cons.mp hms
    cases hkey : names.lookup name with
    | none =>
      have hleft : HoldJust nameOf form seen ms wanted := by
        intro key
        have hother : names.lookup name ≠ some key := by
          rw [hkey]
          nofun
        rw [← valuesOf_cons_of_lookup_ne hnames hname hother]
        exact h key
      obtain ⟨vals, hgathered, hvals⟩ := ih hms hleft
      exact ⟨vals, .other hname hkey hgathered, hvals⟩
    | some key =>
      obtain ⟨hseen, v, hv, hform, hleft⟩ := h.of_named hnames hname hkey
      obtain ⟨vals, hgathered, hvals⟩ := ih hms hleft
      refine ⟨(key, v) :: vals, .named hname hkey hseen hform hgathered, fun k => ?_⟩
      by_cases hk : k = key
      · rw [hk, List.lookup_cons_self, hv]
      · rw [List.lookup_cons, beq_false_of_ne hk, hvals k, Function.update_of_ne hk]

/-- Values are gathered as wanted just if every name can be read and each key has the one value that
is wanted for it, or none. -/
theorem exists_gathered_iff (hnames : ∀ name key, names.lookup name = some key ↔ name = nameOf key)
    {wanted : κ → Option ν} :
    (∃ vals, Gathered names form seen ms vals ∧ ∀ key, vals.lookup key = wanted key) ↔
      (∀ m ∈ ms, ∃ name, m.HasName name) ∧ HoldJust nameOf form seen ms wanted := by
  constructor
  · rintro ⟨vals, h, hwanted⟩
    refine ⟨h.hasName, fun key => ?_⟩
    rw [← hwanted key]
    exact h.holdJust hnames key
  · rintro ⟨hms, h⟩
    exact exists_gathered_of_holdJust hnames hms h

end Gathered

/-- Elements are aligned as wanted just if there is one for every name, in its form. -/
theorem exists_aligned_iff {κ ν : Type} [DecidableEq κ] {form : ν → List Char} {order : List κ}
    {es : List Element} {wanted : κ → ν} (horder : order.Nodup) :
    (∃ vals, Aligned form order es vals ∧ ∀ key ∈ order, vals.lookup key = some (wanted key)) ↔
      es.map Element.value = order.map fun key => form (wanted key) := by
  induction order generalizing es with
  | nil =>
    constructor
    · rintro ⟨vals, ⟨⟩, -⟩
      rfl
    · intro h
      obtain rfl := List.map_eq_nil_iff.mp h
      exact ⟨[], .nil, nofun⟩
  | cons key order ih =>
    obtain ⟨hnot, horder⟩ := List.nodup_cons.mp horder
    have hne {k : κ} (hk : k ∈ order) : k ≠ key := fun h => hnot (h ▸ hk)
    constructor
    · rintro ⟨vals, h, hwanted⟩
      obtain ⟨hkey, hlater⟩ := List.forall_mem_cons.mp hwanted
      cases h with
      | nil => cases hkey
      | @cons _ _ e es v vals hform h =>
        rw [List.lookup_cons_self] at hkey
        obtain rfl := Option.some.inj hkey
        have hvals := (ih horder).mp ⟨vals, h, fun k hk => by
          rw [← hlater k hk, List.lookup_cons, beq_false_of_ne (hne hk)]⟩
        rw [List.map_cons, List.map_cons, hform, hvals]
    · intro h
      obtain ⟨e, es, rfl, hform, hvals⟩ := List.map_eq_cons_iff.mp h
      obtain ⟨vals, haligned, hlater⟩ := (ih horder).mpr hvals
      refine ⟨(key, wanted key) :: vals, .cons hform haligned, ?_⟩
      rw [List.forall_mem_cons]
      refine ⟨List.lookup_cons_self, fun k hk => ?_⟩
      rw [List.lookup_cons, beq_false_of_ne (hne hk)]
      exact hlater k hk

end MountControl.Json
