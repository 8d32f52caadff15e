import MountControl.Proofs.JsonGrammar

namespace MountControl.Json

/-! ## Splitting an object -/

def readRaw : Reader String := fun cs => do
  let rest ← skipValue cs
  return (String.ofList (cs.take (cs.length - rest.length)), rest)

def splitMembers : (fuel : Nat) → (first : Bool) → Reader (List (String × String))
  | 0, _, _ => .error .truncated
  | fuel + 1, first, cs =>
    match skipSpace cs with
    | '\x7d' :: rest => .ok ([], rest)
    | [] => .error .truncated
    | c :: rest => do
      let rest ← skipComma first (c :: rest)
      match skipSpace rest with
      | '"' :: rest =>
        let (name, rest) ← readStringBody rest
        let (value, rest) ← readRaw (← skipSign ':' rest)
        let (members, rest) ← splitMembers fuel false rest
        .ok ((name, value) :: members, rest)
      | rest => .error (unexpected rest)

def readObject : Reader (List (String × String)) := fun cs =>
  match skipSpace cs with
  | '\x7b' :: rest => splitMembers rest.length true rest
  | rest => .error (mismatch rest)

/-! ## The text of an object -/

/-- Members as they are written before a text, with the closing brace between. Each but the first
follows a comma. -/
def membersOnto (rest : List Char) : (first : Bool) → List (String × String) → List Char
  | _, [] => '\x7d' :: rest
  | first, (name, value) :: members =>
    (if first then [] else [',']) ++ '"' :: (name.toList.flatMap escapeChar ++
      '"' :: ':' :: (value.toList ++ membersOnto rest false members))

variable {rest : List Char} {name value : String} {members : List (String × String)}

theorem toList_member_append (m : String × String) (rest : List Char) :
    (quote m.1 ++ ":" ++ m.2).toList ++ rest =
      '"' :: (m.1.toList.flatMap escapeChar ++ '"' :: ':' :: (m.2.toList ++ rest)) := by
  simp [toList_quote]

theorem toList_intercalate_append (rest : List Char) (m : String × String)
    (members : List (String × String)) :
    (String.intercalate "," ((m :: members).map fun m => quote m.1 ++ ":" ++ m.2)).toList ++
      '\x7d' :: rest = membersOnto rest true (m :: members) := by
  induction members generalizing m with
  | nil =>
    rw [List.map_singleton, String.intercalate_singleton, toList_member_append]
    rfl
  | cons m' members ih =>
    have hrest := ih m'
    rw [List.map_cons] at hrest
    rw [List.map_cons, List.map_cons, String.intercalate_cons_cons, String.toList_append,
      String.toList_append, List.append_assoc, List.append_assoc, toList_member_append, hrest]
    rfl

/-- The text of an object, with what follows it, as braces and members. -/
theorem toList_object_append (members : List (String × String)) (rest : List Char) :
    (object members).toList ++ rest = '\x7b' :: membersOnto rest true members := by
  cases members with
  | nil => rfl
  | cons m members =>
    rw [← toList_intercalate_append]
    simp [object]

theorem length_lt_length_membersOnto (rest : List Char) (first : Bool)
    (members : List (String × String)) :
    members.length < (membersOnto rest first members).length := by
  induction members generalizing first with
  | nil => exact Nat.succ_pos _
  | cons m members ih =>
    have hrest := ih false
    simp only [membersOnto, List.length_append, List.length_cons]
    omega

theorem ends_membersOnto (rest : List Char) (members : List (String × String)) :
    Ends (membersOnto rest false members) := by
  cases members with
  | nil => exact ends_cons (by decide) (by decide) _
  | cons m members => exact ends_cons (by decide) (by decide) _

theorem le_of_mem_membersOnto {first : Bool} {c : Char} (hms : ∀ m ∈ members, Printable m.2)
    (hc : c ∈ membersOnto [] first members) : ' ' ≤ c := by
  induction members generalizing first with
  | nil =>
    rw [List.mem_singleton.mp hc]
    decide
  | cons m members ih =>
    simp only [membersOnto, List.mem_append, List.mem_cons, List.mem_flatMap] at hc
    rcases hc with hc | rfl | ⟨d, -, hc⟩ | rfl | rfl | hc | hc
    · cases first with
      | true => cases hc
      | false =>
        rw [List.mem_singleton.mp hc]
        decide
    · decide
    · exact le_of_mem_escapeChar hc
    · decide
    · decide
    · exact hms m List.mem_cons_self c hc
    · exact ih (fun m hm => hms m (List.mem_cons_of_mem _ hm)) hc

theorem printable_object (hms : ∀ m ∈ members, Printable m.2) : Printable (object members) := by
  intro c hc
  rw [← List.append_nil (object members).toList, toList_object_append] at hc
  rcases List.mem_cons.mp hc with rfl | hc
  · decide
  · exact le_of_mem_membersOnto hms hc

/-! ## Passing over values -/

/-- A value that can be skipped is read back raw, as it was written. -/
theorem readRaw_append (h : Skipped value.toList) (hrest : Ends rest) :
    readRaw (value.toList ++ rest) = .ok (value, rest) := by
  have hlength : (value.toList ++ rest).length - rest.length = value.toList.length := by
    rw [List.length_append, Nat.add_sub_cancel]
  rw [readRaw, skipValue_append h hrest]
  simp only [bind, Except.bind, pure, Except.pure]
  rw [hlength, List.take_left, String.ofList_toList]

theorem stringBody_escaped (cs : List Char) : StringBody (cs.flatMap escapeChar) :=
  (decodes_iff.mpr (readStringAt_escaped true cs [])).stringBody

theorem skipped_quote (s : String) : Skipped (quote s).toList := by
  rw [toList_quote]
  exact (IsValue.string (stringBody_escaped s.toList)).skipped

theorem skipped_toString (n : Nat) : Skipped (toString n).toList := by
  rw [Nat.toString_eq_ofList_toDigits, String.toList_ofList]
  exact (IsValue.number (isNumber_toDigits n)).skipped

def written (m : String × String) : Member where
  before := []
  name := m.1.toList.flatMap escapeChar
  between := []
  element := ⟨[], m.2.toList, [], spaces_nil, spaces_nil⟩
  spaces_before := spaces_nil
  spaces_between := spaces_nil
  stringBody := stringBody_escaped m.1.toList

theorem membersOnto_eq_partsOnto (rest : List Char) (first : Bool)
    (members : List (String × String)) :
    membersOnto rest first members =
      partsOnto ('\x7d' :: rest) first ((members.map written).map Member.text) := by
  induction members generalizing first with
  | nil => rfl
  | cons m members ih =>
    rw [membersOnto, ih false, List.map_cons, List.map_cons, partsOnto, Member.text_append,
      Element.text_append]
    rfl

/-- An object that is written can be skipped, whatever its names are. -/
theorem skipped_object (hms : ∀ m ∈ members, Skipped m.2.toList) :
    Skipped (object members).toList := by
  have htext : (object members).toList = objectText [] (members.map written) := by
    have hobject := toList_object_append members []
    rwa [membersOnto_eq_partsOnto, List.append_nil, ← List.nil_append (partsOnto _ _ _),
      ← objectText_append, List.append_nil] at hobject
  rw [htext]
  apply skipped_objectText spaces_nil
  intro m hm
  obtain ⟨m', hm', rfl⟩ := List.mem_map.mp hm
  exact hms m' hm'

/-! ## Reading members -/

theorem splitMembers_succ {fuel : Nat} {first : Bool} (h : Skipped value.toList) :
    splitMembers (fuel + 1) first (membersOnto rest first ((name, value) :: members)) =
      (splitMembers fuel false (membersOnto rest false members)).map fun (members, rest) =>
        ((name, value) :: members, rest) := by
  have hquote : isSpace '"' = false := by decide
  have hcolon : isSpace ':' = false := by decide
  have hcomma : isSpace ',' = false := by decide
  have hraw := readRaw_append h (ends_membersOnto rest members)
  cases first <;>
    simp [membersOnto, splitMembers, skipSpace_cons hquote, skipSpace_cons hcolon,
      skipSpace_cons hcomma, skipComma, skipSign, readStringBody_escaped, hraw, Except.map, bind,
      Except.bind]

/-- The members of an object are split as they were joined. -/
theorem splitMembers_membersOnto {fuel : Nat} (first : Bool)
    (hms : ∀ m ∈ members, Skipped m.2.toList) (hfuel : members.length < fuel) :
    splitMembers fuel first (membersOnto rest first members) = .ok (members, rest) := by
  induction members generalizing fuel first with
  | nil =>
    obtain ⟨fuel, rfl⟩ := Nat.exists_eq_succ_of_ne_zero (Nat.ne_zero_of_lt hfuel)
    rfl
  | cons m members ih =>
    obtain ⟨fuel, rfl⟩ := Nat.exists_eq_succ_of_ne_zero (Nat.ne_zero_of_lt hfuel)
    rw [splitMembers_succ (hms m List.mem_cons_self),
      ih false (fun m hm => hms m (List.mem_cons_of_mem _ hm)) (Nat.lt_of_succ_lt_succ hfuel)]
    rfl

/-- An object is split into the members it was written of. -/
theorem reads_object (hms : ∀ m ∈ members, Skipped m.2.toList) :
    Reads readObject (object members).toList members := by
  intro rest _
  rw [toList_object_append, readObject, skipSpace_cons (by decide)]
  exact splitMembers_membersOnto true hms (length_lt_length_membersOnto rest true members)

section Record

variable {κ ν : Type} [DecidableEq κ] {names : List (String × κ)} {read : κ → Reader ν}
  {nameOf textOf : κ → String} {valueOf : κ → ν}

/-- A member with a known name that was not seen before is read, and its name is seen from then on.
-/
theorem readMembers_succ {fuel : Nat} {first : Bool} {seen : List κ} {key : κ} {v : ν}
    (hname : names.lookup name = some key) (hseen : key ∉ seen)
    (hread : Reads (read key) value.toList v) :
    readMembers names read (fuel + 1) seen first
        (membersOnto rest first ((name, value) :: members)) =
      (readMembers names read fuel (key :: seen) false (membersOnto rest false members)).map
        fun (values, rest) => ((key, v) :: values, rest) := by
  have hquote : isSpace '"' = false := by decide
  have hcolon : isSpace ':' = false := by decide
  have hcomma : isSpace ',' = false := by decide
  have hvalue := hread _ (ends_membersOnto rest members)
  cases first <;>
    simp [membersOnto, readMembers, skipSpace_cons hquote, skipSpace_cons hcolon,
      skipSpace_cons hcomma, skipComma, skipSign, readStringBody_escaped, hname, hseen, hvalue,
      Except.map, bind, Except.bind]

/-- The members of a record that is written are read back, in the order in which they were written.
-/
theorem readMembers_membersOnto {fuel : Nat} {first : Bool} {seen keys : List κ}
    (hnames : ∀ k ∈ keys, names.lookup (nameOf k) = some k)
    (hread : ∀ k ∈ keys, Reads (read k) (textOf k).toList (valueOf k)) (hkeys : keys.Nodup)
    (hseen : ∀ k ∈ keys, k ∉ seen) (hfuel : keys.length < fuel) :
    readMembers names read fuel seen first
        (membersOnto rest first (keys.map fun k => (nameOf k, textOf k))) =
      .ok (keys.map fun k => (k, valueOf k), rest) := by
  induction keys generalizing fuel first seen with
  | nil =>
    obtain ⟨fuel, rfl⟩ := Nat.exists_eq_succ_of_ne_zero (Nat.ne_zero_of_lt hfuel)
    rfl
  | cons key keys ih =>
    obtain ⟨fuel, rfl⟩ := Nat.exists_eq_succ_of_ne_zero (Nat.ne_zero_of_lt hfuel)
    obtain ⟨hnot, hkeys⟩ := List.nodup_cons.mp hkeys
    -- the key that is read now is seen from here on, and does not come again
    have hlater : ∀ k ∈ keys, k ∉ key :: seen := by
      intro k hk hmem
      rcases List.mem_cons.mp hmem with rfl | hmem
      · exact hnot hk
      · exact hseen k (List.mem_cons_of_mem _ hk) hmem
    rw [List.map_cons, readMembers_succ (hnames key List.mem_cons_self)
        (hseen key List.mem_cons_self) (hread key List.mem_cons_self),
      ih (fun k hk => hnames k (List.mem_cons_of_mem _ hk))
        (fun k hk => hread k (List.mem_cons_of_mem _ hk)) hkeys hlater
        (Nat.lt_of_succ_lt_succ hfuel)]
    rfl

/-- A record is read back from an object of all its members. -/
theorem readRecord_object {keys : List κ} (hnames : ∀ k ∈ keys, names.lookup (nameOf k) = some k)
    (hread : ∀ k ∈ keys, Reads (read k) (textOf k).toList (valueOf k)) (hkeys : keys.Nodup) :
    Reads (readRecord names read) (object (keys.map fun k => (nameOf k, textOf k))).toList
      (keys.map fun k => (k, valueOf k)) := by
  intro rest _
  have hfuel := length_lt_length_membersOnto rest true (keys.map fun k => (nameOf k, textOf k))
  rw [List.length_map] at hfuel
  rw [toList_object_append, readRecord, skipSpace_cons (by decide)]
  exact readMembers_membersOnto hnames hread hkeys (fun k _ => List.not_mem_nil) hfuel

end Record

section Text

variable {α : Type} {read : Reader α} {text : String} {a : α}

/-- What a reader takes for a value is read from a text of it alone. -/
theorem readText_of_reads (h : Reads read text.toList a) : readText read text = .ok a := by
  have hread := h [] nofun
  rw [List.append_nil] at hread
  rw [readText, hread]
  rfl

theorem readText_line_of_reads (h : Reads read text.toList a) :
    readText read (text ++ "\n") = .ok a := by
  have hends : Ends ['\n'] := by
    rintro c hc
    cases hc
    decide
  have hnewline : (text ++ "\n").toList = text.toList ++ ['\n'] := String.toList_append
  rw [readText, hnewline, h _ hends]
  rfl

end Text

end MountControl.Json
