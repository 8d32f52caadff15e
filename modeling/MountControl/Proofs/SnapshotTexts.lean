import MountControl.Proofs.JsonRecords
import MountControl.Proofs.ReadableReport

namespace MountControl

namespace Json

structure ObjectText where
  before : List Char
  inner : List Char
  members : List Member
  after : List Char
  spaces_before : Spaces before := by decide
  spaces_inner : Spaces inner := by decide
  spaces_after : Spaces after := by decide
  values : ∀ m ∈ members, IsValue m.element.value

def ObjectText.text (o : ObjectText) : String :=
  String.ofList (o.before ++ (objectText o.inner o.members ++ o.after))

structure ArrayText where
  before : List Char
  inner : List Char
  elements : List Element
  after : List Char
  spaces_before : Spaces before := by decide
  spaces_inner : Spaces inner := by decide
  spaces_after : Spaces after := by decide
  values : ∀ e ∈ elements, IsValue e.value

def ArrayText.text (a : ArrayText) : String :=
  String.ofList (a.before ++ (arrayText a.inner a.elements ++ a.after))

end Json

namespace Snapshot

open Json

variable {vals : List (PoolCounter × UInt32)} {s : Snapshot}

/-- A list makes a snapshot just if it has each of the counters. -/
theorem ofList?_eq_some_iff : ofList? vals = some s ↔ ∀ c, vals.lookup c = some (s.get c) := by
  constructor
  · intro h
    simp only [ofList?, bind, pure, Option.bind_eq_some_iff, Option.some.injEq] at h
    obtain ⟨a, ha, b, hb, c, hc, d, hd, e, he, rfl⟩ := h
    intro counter
    cases counter with
    | inUseShort => exact ha
    | inUseLong => exact hb
    | inUseOneTime => exact hc
    | freeShort => exact hd
    | freeLong => exact he
  · intro h
    simp only [ofList?, h]
    rfl

def readCounter : Reader UInt32 := fun cs =>
  (readWord 0xFFFFFFFF cs).map fun (n, rest) => (.ofNat n, rest)

/-- A value is read as a counter if it is a plain number of 32 bits, and only then. -/
theorem exact_readCounter : Exact readCounter fun w => decimal w.toNat := by
  intro e he tail htail w rest
  unfold readCounter
  rw [map_eq_ok_iff]
  constructor
  · rintro ⟨⟨n, rest'⟩, hread, hpair⟩
    cases hpair
    obtain ⟨hvalue, hn, rfl⟩ := (readWord_element (by decide) he htail).mp hread
    -- within the limit nothing is lost when the number becomes a word
    have hlt : n < 2 ^ 32 := Nat.lt_succ_of_le hn
    refine ⟨?_, rfl⟩
    dsimp only
    rw [UInt32.toNat_ofNat_of_lt' hlt]
    exact hvalue
  · rintro ⟨hvalue, rfl⟩
    have hbound : w.toNat ≤ 0xFFFFFFFF := Nat.le_of_lt_succ w.toNat_lt
    have hread := (readWord_element (by decide) he htail).mpr ⟨hvalue, hbound, rfl⟩
    exact ⟨_, hread, congrArg (·, e.after ++ tail) UInt32.ofNat_toNat⟩

/-- A snapshot is read from a record that has a value for each counter. -/
theorem fromJson_eq_ok_iff {cs rest : List Char} : fromJson cs = .ok (s, rest) ↔
    ∃ vals, readRecord PoolCounter.byName (fun _ => readCounter) cs = .ok (vals, rest) ∧
      ∀ c, vals.lookup c = some (s.get c) := by
  constructor
  · intro h
    obtain ⟨⟨vals, rest'⟩, hrecord, hlist⟩ := bind_eq_ok_iff.mp h
    dsimp only at hlist
    split at hlist
    · next s' hs =>
      cases hlist
      exact ⟨vals, hrecord, ofList?_eq_some_iff.mp hs⟩
    · cases hlist
  · rintro ⟨vals, hrecord, hvals⟩
    apply bind_eq_ok_iff.mpr
    refine ⟨_, hrecord, ?_⟩
    dsimp only
    rw [ofList?_eq_some_iff.mpr hvals]

/-- An object is read as a snapshot just if every name in it can be read and it has one value for
each counter, the counter's digits. -/
theorem readText_objectText_iff (o : ObjectText) (s : Snapshot) :
    readText fromJson o.text = .ok s ↔
      (∀ m ∈ o.members, ∃ name, m.HasName name) ∧
        ∀ c : PoolCounter, valuesOf o.members c.name = [decimal (s.get c).toNat] := by
  have hrecord (vals : List (PoolCounter × UInt32)) (rest : List Char) :
      readRecord PoolCounter.byName (fun _ => readCounter) o.text.toList = .ok (vals, rest) ↔
        Gathered PoolCounter.byName (fun w => decimal w.toNat) [] o.members vals ∧
          rest = o.after := by
    rw [ObjectText.text, String.toList_ofList]
    exact readRecord_objectText (fun _ => exact_readCounter) o.spaces_before o.spaces_inner o.values
  have hgathered : (∃ vals,
      Gathered PoolCounter.byName (fun w => decimal w.toNat) [] o.members vals ∧
        ∀ c, vals.lookup c = some (s.get c)) ↔
      (∀ m ∈ o.members, ∃ name, m.HasName name) ∧
        ∀ c : PoolCounter, valuesOf o.members c.name = [decimal (s.get c).toNat] := by
    rw [exists_gathered_iff PoolCounter.lookup_byName_iff]
    simp [HoldJust]
  rw [← hgathered, readText_eq_ok_iff]
  simp only [fromJson_eq_ok_iff, hrecord]
  constructor
  · rintro ⟨rest, ⟨vals, ⟨h, -⟩, hvals⟩, -⟩
    exact ⟨vals, h, hvals⟩
  · rintro ⟨vals, h, hvals⟩
    exact ⟨o.after, ⟨vals, ⟨h, rfl⟩, hvals⟩, skipSpace_spaces o.spaces_after⟩

/-- An array is read as a snapshot just if its values are the digits of the counters in order. -/
theorem readText_arrayText_iff (a : ArrayText) (s : Snapshot) :
    readText fromJson a.text = .ok s ↔
      a.elements.map Element.value = PoolCounter.all.map fun c => decimal (s.get c).toNat := by
  have hrecord (vals : List (PoolCounter × UInt32)) (rest : List Char) :
      readRecord PoolCounter.byName (fun _ => readCounter) a.text.toList = .ok (vals, rest) ↔
        Aligned (fun w => decimal w.toNat) PoolCounter.all a.elements vals ∧ rest = a.after := by
    rw [ArrayText.text, String.toList_ofList]
    exact readRecord_arrayText (fun _ => exact_readCounter) a.spaces_before a.spaces_inner a.values
  have haligned : (∃ vals, Aligned (fun w => decimal w.toNat) PoolCounter.all a.elements vals ∧
      ∀ c ∈ PoolCounter.all, vals.lookup c = some (s.get c)) ↔
      a.elements.map Element.value = PoolCounter.all.map fun c => decimal (s.get c).toNat :=
    exists_aligned_iff (by decide)
  rw [← haligned, readText_eq_ok_iff]
  simp only [fromJson_eq_ok_iff, hrecord]
  constructor
  · rintro ⟨rest, ⟨vals, ⟨h, -⟩, hvals⟩, -⟩
    exact ⟨vals, h, fun c _ => hvals c⟩
  · rintro ⟨vals, h, hvals⟩
    exact ⟨a.after, ⟨vals, ⟨h, rfl⟩, fun c => hvals c c.mem_all⟩, skipSpace_spaces a.spaces_after⟩

/-- However a snapshot is written, it is read as itself, and nothing else is taken for one. An
object is read if its names can be and every counter has one value in it, the counter's digits, and
an array if it has these in order; an object in which a counter is missing, comes twice or has any
other value is refused; and what is written as JSON is read back. -/
theorem fromJson_ignores_presentation :
    (∀ (o : ObjectText) (s : Snapshot), readText fromJson o.text = .ok s ↔
      (∀ m ∈ o.members, ∃ name, m.HasName name) ∧
        ∀ c : PoolCounter, valuesOf o.members c.name = [decimal (s.get c).toNat]) ∧
    (∀ (a : ArrayText) (s : Snapshot), readText fromJson a.text = .ok s ↔
      a.elements.map Element.value = PoolCounter.all.map fun c => decimal (s.get c).toNat) ∧
    (∀ (o : ObjectText) (c : PoolCounter),
      (valuesOf o.members c.name).length ≠ 1 ∨
          (∃ v ∈ valuesOf o.members c.name, ∀ w : UInt32, v ≠ decimal w.toNat) →
        ∃ fault, readText fromJson o.text = .error fault) ∧
    ∀ s : Snapshot, readText fromJson s.toJson = .ok s := by
  refine ⟨readText_objectText_iff, readText_arrayText_iff, ?_,
    fun s => readText_of_reads s.reads_toJson⟩
  intro o c hbad
  cases hread : readText fromJson o.text with
  | error fault => exact ⟨fault, rfl⟩
  | ok s =>
    -- a reading would give every counter its one value
    have hvalue := ((readText_objectText_iff o s).mp hread).2 c
    rw [hvalue] at hbad
    rcases hbad with hlength | ⟨v, hv, hother⟩
    · exact absurd rfl hlength
    · exact absurd (List.mem_singleton.mp hv) (hother (s.get c))

def lineOf (name : String) (value : List Char) (h : StringBody name.toList) : Member where
  before := ['\n']
  name := name.toList
  between := []
  element := { before := [' '], value := value, after := [] }
  stringBody := h

theorem stringBody_of_readStringAt {cs : List Char} (text : String)
    (h : readStringAt true .plain (cs ++ ['"']) = .ok (text.toList, [])) : StringBody cs :=
  (decodes_iff.mpr h).stringBody

/-- The counters in an order of their own, one under an escaped name, and among them a list that
holds the name of a counter. -/
def scattered : ObjectText where
  before := [' ']
  inner := []
  members :=
    [lineOf "free_long" (decimal 4294967295) (stringBody_of_readStringAt "free_long" rfl),
      lineOf "x" (arrayText [] [{
        before := []
        value := objectText [] [lineOf "in_use_long" ['n', 'u', 'l', 'l']
          (stringBody_of_readStringAt "in_use_long" rfl)]
        after := [] }]) (stringBody_of_readStringAt "x" rfl),
      lineOf "in_use_one_time" (decimal 3) (stringBody_of_readStringAt "in_use_one_time" rfl),
      lineOf "\\u0069n_use_short" (decimal 1) (stringBody_of_readStringAt "in_use_short" rfl),
      lineOf "free_short" (decimal 4) (stringBody_of_readStringAt "free_short" rfl),
      lineOf "in_use_long" (decimal 2) (stringBody_of_readStringAt "in_use_long" rfl)]
  after := ['\n']
  values := by
    have hdigits (n : Nat) : IsValue (decimal n) := .number (isNumber_toDigits n)
    have hnull : IsValue ['n', 'u', 'l', 'l'] := .word List.mem_cons_self
    simp only [List.forall_mem_cons, lineOf]
    refine ⟨hdigits _, ?_, hdigits _, hdigits _, hdigits _, hdigits _, nofun⟩
    apply IsValue.array (by decide)
    rw [List.forall_mem_singleton]
    apply IsValue.object (by decide)
    rw [List.forall_mem_singleton]
    exact hnull

theorem fromJson_scattered : readText fromJson scattered.text = .ok ⟨1, 2, 3, 4, 4294967295⟩ := by
  apply (fromJson_ignores_presentation.1 scattered _).mpr
  constructor
  · simp only [scattered, List.forall_mem_cons]
    exact ⟨⟨"free_long", by decide⟩, ⟨"x", by decide⟩, ⟨"in_use_one_time", by decide⟩,
      ⟨"in_use_short", by decide⟩, ⟨"free_short", by decide⟩, ⟨"in_use_long", by decide⟩, nofun⟩
  · have hall : ∀ c ∈ PoolCounter.all, valuesOf scattered.members c.name =
        [decimal ((⟨1, 2, 3, 4, 4294967295⟩ : Snapshot).get c).toNat] := by decide
    exact fun c => hall c c.mem_all

end Snapshot

end MountControl
