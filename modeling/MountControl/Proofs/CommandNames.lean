import Mathlib.Data.List.DropRight
import Mathlib.Data.List.Forall2
import MountControl.Control.Dispatch
import MountControl.Proofs.LowerCaseText
import MountControl.Proofs.NameTables

namespace MountControl

namespace CodePointSet

variable {lo hi : Nat} {rest : List Nat} {c : Char}

/-- Membership in a set is decided by its first run of code points, or by the runs after it. -/
theorem contains_cons_cons (hle : lo ≤ hi) (hrest : ∀ b ∈ rest, hi ≤ b) :
    contains ⟨lo :: hi :: rest⟩ c = true ↔
      (lo ≤ c.toNat ∧ c.toNat < hi) ∨ contains ⟨rest⟩ c = true := by
  -- below the first run's end no later run has begun
  have hbelow (h : c.toNat < hi) : contains ⟨rest⟩ c = false := by
    cases rest with
    | nil => rfl
    | cons b rest =>
      have hb : hi ≤ b := hrest b List.mem_cons_self
      have hfar : ¬ b ≤ c.toNat := by omega
      simp [contains, hfar]
  by_cases hlo : lo ≤ c.toNat
  · by_cases hhi : hi ≤ c.toNat
    · have hnot : ¬ c.toNat < hi := by omega
      simp [contains, hlo, hhi, hnot]
      omega
    · rw [hbelow (by omega)]
      simp [contains, hlo, hhi, Nat.not_le.mp hhi]
  · rw [hbelow (by omega)]
    simp [contains, hlo]

end CodePointSet

def whiteSpace : List Nat :=
  [0x9, 0xA, 0xB, 0xC, 0xD, 0x20, 0x85, 0xA0, 0x1680, 0x2000, 0x2001, 0x2002, 0x2003, 0x2004,
    0x2005, 0x2006, 0x2007, 0x2008, 0x2009, 0x200A, 0x2028, 0x2029, 0x202F, 0x205F, 0x3000]

theorem isBlank_iff (c : Char) : isBlank c = true ↔ c.toNat ∈ whiteSpace := by
  unfold isBlank blanks
  iterate 10 rw [CodePointSet.contains_cons_cons (by decide) (by decide)]
  have hempty : CodePointSet.contains ⟨[]⟩ c = false := rfl
  simp only [hempty, whiteSpace, List.mem_cons, List.not_mem_nil, Bool.false_eq_true, or_false]
  omega

/-- A text without blanks is what is left when those around it are trimmed. -/
theorem trim_append {before word after : List Char} (hb : ∀ c ∈ before, isBlank c = true)
    (hw : ∀ c ∈ word, isBlank c = false) (ha : ∀ c ∈ after, isBlank c = true) :
    trim (before ++ word ++ after) = word := by
  have hright : (word ++ after).rdropWhile isBlank = word := by
    have hlast : word.rdropWhile isBlank = word := by
      apply List.rdropWhile_eq_self_iff.mpr
      intro hne
      rw [hw _ (List.getLast_mem hne)]
      decide
    have hreverse : ∀ c ∈ after.reverse, isBlank c = true := by
      intro c hc
      exact ha c (List.mem_reverse.mp hc)
    rw [List.rdropWhile, List.reverse_append, List.dropWhile_append_of_pos hreverse]
    exact hlast
  unfold trim
  rw [List.append_assoc, List.dropWhile_append_of_pos hb]
  cases word with
  | nil =>
    rw [List.nil_append, List.dropWhile_eq_nil_iff.mpr ha]
    rfl
  | cons c cs =>
    have hc : isBlank c = false := hw c List.mem_cons_self
    rw [List.cons_append, List.dropWhile_cons_of_neg (by simp [hc])]
    exact hright

/-- Trimming takes white space from both ends. -/
theorem exists_trim (cs : List Char) : ∃ before after, cs = before ++ trim cs ++ after ∧
    (∀ c ∈ before, isBlank c = true) ∧ ∀ c ∈ after, isBlank c = true := by
  refine ⟨cs.takeWhile isBlank, (cs.dropWhile isBlank).rtakeWhile isBlank, ?_, ?_, ?_⟩
  · have hright : trim cs ++ (cs.dropWhile isBlank).rtakeWhile isBlank = cs.dropWhile isBlank :=
      List.rdropWhile_append_rtakeWhile ..
    rw [List.append_assoc, hright, List.takeWhile_append_dropWhile]
  · intro c hc
    exact List.mem_takeWhile_imp hc
  · intro c hc
    exact List.mem_rtakeWhile_imp hc

def SameLetter (c d : Char) : Prop :=
  c = d ∨ ∃ k < 26, (c.toNat = 0x41 + k ∧ d.toNat = 0x61 + k) ∨
    (c.toNat = 0x61 + k ∧ d.toNat = 0x41 + k)

/-- Letters are the same but for case just if ASCII lower case makes them equal. -/
theorem sameLetter_iff {c d : Char} : SameLetter c d ↔ c.toLower = d.toLower := by
  rw [← Char.toNat_inj, toNat_toLower, toNat_toLower, SameLetter, ← Char.toNat_inj]
  constructor
  · intro h
    rcases h with heq | ⟨k, hk, ⟨hc, hd⟩ | ⟨hc, hd⟩⟩ <;> split <;> split <;> omega
  · intro h
    by_cases heq : c.toNat = d.toNat
    · exact .inl heq
    · -- just one of the two is a capital, and the other its small form
      right
      by_cases hc : 0x41 ≤ c.toNat ∧ c.toNat ≤ 0x5A
      · rw [if_pos hc] at h
        refine ⟨c.toNat - 0x41, by omega, .inl ⟨by omega, ?_⟩⟩
        split at h <;> omega
      · rw [if_neg hc] at h
        refine ⟨d.toNat - 0x41, ?_, .inr ⟨?_, ?_⟩⟩ <;> split at h <;> omega

theorem forall₂_sameLetter_iff {cs ds : List Char} :
    List.Forall₂ SameLetter cs ds ↔ cs.map Char.toLower = ds.map Char.toLower := by
  rw [← List.forall₂_eq_eq_eq, List.forall₂_map_left_iff, List.forall₂_map_right_iff]
  constructor
  · intro h
    exact h.imp fun _ _ => sameLetter_iff.mp
  · intro h
    exact h.imp fun _ _ => sameLetter_iff.mpr

theorem toLower_of_isBlank {c : Char} (h : isBlank c = true) : c.toLower = c := by
  have hmem := (isBlank_iff c).mp h
  apply toLower_of_not_capital
  simp only [whiteSpace, List.mem_cons, List.not_mem_nil, or_false] at hmem
  omega

namespace Operation

variable {op : Operation} {text : String}

/-- A text spells an operation: it is the name in letters of either case, with white space before
and after it. -/
def SpelledBy (op : Operation) (text : String) : Prop :=
  ∃ before word after, text.toList = before ++ word ++ after ∧
    (∀ c ∈ before, c.toNat ∈ whiteSpace) ∧ List.Forall₂ SameLetter word op.name.toList ∧
    ∀ c ∈ after, c.toNat ∈ whiteSpace

theorem toList_name_toLower (op : Operation) :
    op.name.toList.map Char.toLower = op.name.toList := by
  cases op <;> decide

theorem isBlank_of_mem_name {d : Char} (hd : d ∈ op.name.toList) : isBlank d = false := by
  have hall : ∀ op ∈ all, op.name.toList.all (fun d => !isBlank d) = true := by decide
  simpa using List.all_eq_true.mp (hall op op.mem_all) d hd

/-- Neither name has a `k`, the one letter that is a small form of something beyond ASCII. -/
theorem lower_eq_name_iff {s : String} :
    lower s = op.name ↔ s.toList.map Char.toLower = op.name.toList := by
  have hall : ∀ op ∈ all,
      op.name.toList.all (fun d => d.toNat < 128 && d != 'k') = true := by decide
  have h := lower_eq_iff (s := s) op.name.toList (hall op op.mem_all)
  rwa [String.ofList_toList] at h

/-- No spelling of a name has white space in it, so that trimming stops at its ends. -/
theorem isBlank_of_spells {word : List Char} (h : word.map Char.toLower = op.name.toList) :
    ∀ c ∈ word, isBlank c = false := by
  intro c hc
  apply Bool.eq_false_iff.mpr
  intro hblank
  have hmem : c.toLower ∈ op.name.toList := by
    rw [← h]
    exact List.mem_map_of_mem hc
  rw [toLower_of_isBlank hblank] at hmem
  exact absurd (hblank.symm.trans (isBlank_of_mem_name hmem)) (by decide)

/-- The text in lower case is the name just if the text spells it: no letter outside ASCII becomes
one of a name. -/
theorem namedBy_iff_spelledBy : op.NamedBy text ↔ op.SpelledBy text := by
  unfold NamedBy SpelledBy
  rw [lower_eq_name_iff, String.toList_ofList]
  simp only [← isBlank_iff, forall₂_sameLetter_iff, toList_name_toLower]
  constructor
  · intro h
    obtain ⟨before, after, htext, hb, ha⟩ := exists_trim text.toList
    exact ⟨before, trim text.toList, after, htext, hb, h, ha⟩
  · rintro ⟨before, word, after, htext, hb, hword, ha⟩
    rw [htext, trim_append hb (isBlank_of_spells hword) ha]
    exact hword

/-- A text is refused if it names no operation, and then the refusal holds it as it was given. -/
theorem ofText_eq_error_iff :
    ofText text = .error (.unknownOperation text) ↔ ∀ op : Operation, ¬ op.NamedBy text := by
  constructor
  · intro h op hn
    rw [ofText_eq_ok_iff.mpr hn] at h
    cases h
  · intro h
    obtain ⟨fault, hfault⟩ := ofText_error_of_unnamed h
    unfold ofText at hfault ⊢
    split
    · rename_i op hop
      rw [hop] at hfault
      cases hfault
    · rfl

/-- A text is read as an operation just if it spells it, and any other text is refused and told of
as it is. So a command does not depend on how its name is spelled. -/
theorem ofText_iff_spelled (text : String) :
    (∀ op, ofText text = .ok op ↔ op.SpelledBy text) ∧
      (ofText text = .error (.unknownOperation text) ↔ ∀ op : Operation, ¬ op.SpelledBy text) ∧
      ∀ (op : Operation) (text' : String), op.SpelledBy text → op.SpelledBy text' →
        ∀ (t : Transport) (driver : Driver) (mount : Path),
          t.execute driver text mount = t.execute driver text' mount := by
  refine ⟨?_, ?_, ?_⟩
  · intro op
    rw [← namedBy_iff_spelledBy, ofText_eq_ok_iff]
  · simp only [← namedBy_iff_spelledBy]
    exact ofText_eq_error_iff
  · intro op text' h h' t driver mount
    have hread : ofText text = .ok op := ofText_eq_ok_iff.mpr (namedBy_iff_spelledBy.mpr h)
    have hread' : ofText text' = .ok op := ofText_eq_ok_iff.mpr (namedBy_iff_spelledBy.mpr h')
    rw [Transport.execute, Transport.execute, hread, hread']

/-- The small form of a dotted capital I is two characters, the first of them a plain one. -/
example : ofText "show_connectİons" = .error (.unknownOperation "show_connectİons") := by
  decide

end Operation

end MountControl
