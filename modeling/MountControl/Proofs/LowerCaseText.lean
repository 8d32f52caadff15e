import Mathlib.Data.List.Chain
import MountControl.Text.LowerCase

/-!
Lower case of text in ASCII, and of text that begins with a character before the capitals. Nothing
beyond ASCII has a small form wholly in ASCII but the sign for the unit of temperature, so a name
without a `k` is the lower case of no other text than it is in ASCII. No small form has a capital in
it, so what is in lower case stays as it is.
-/

namespace MountControl

variable {c : Char} {cs : List Char} {s : String}

/-- ASCII lower case moves the capitals by 32 and leaves the rest. -/
theorem toNat_toLower (c : Char) :
    c.toLower.toNat = if 0x41 ≤ c.toNat ∧ c.toNat ≤ 0x5A then c.toNat + 32 else c.toNat := by
  have hiff : (c.val ≥ 'A'.val ∧ c.val ≤ 'Z'.val) ↔ 0x41 ≤ c.toNat ∧ c.toNat ≤ 0x5A :=
    and_congr UInt32.le_iff_toNat_le UInt32.le_iff_toNat_le
  by_cases h : 0x41 ≤ c.toNat ∧ c.toNat ≤ 0x5A
  · have hsmall : c.toLower.val = c.val + 32 := congrArg Char.val (dif_pos (hiff.mpr h))
    have hle : c.val.toNat ≤ 0x5A := h.2
    have hsum : (c.val + 32).toNat = (c.val.toNat + 32) % 2 ^ 32 := UInt32.toNat_add _ _
    rw [if_pos h, Char.toNat, hsmall, hsum]
    change (c.val.toNat + 32) % 2 ^ 32 = c.val.toNat + 32
    omega
  · have hkept : c.toLower = c := dif_neg fun hcapital => h (hiff.mp hcapital)
    rw [if_neg h, hkept]

theorem toNat_lt_of_isAlphanum (h : c.isAlphanum = true) : c.toNat < 128 := by
  -- each of the three ranges ends within ASCII
  have hrange {last : UInt32} (hc : c.val ≤ last) (hlast : last.toNat < 128) : c.toNat < 128 :=
    Nat.lt_of_le_of_lt (UInt32.le_iff_toNat_le.mp hc) hlast
  rcases Bool.or_eq_true_iff.mp h with halpha | hdigit
  · rcases Bool.or_eq_true_iff.mp halpha with hupper | hlower
    · have hbounds : 'A'.val ≤ c.val ∧ c.val ≤ 'Z'.val := of_decide_eq_true hupper
      exact hrange hbounds.2 (by decide)
    · have hlast : c.val ≤ 'z'.val := of_decide_eq_true (Bool.and_eq_true_iff.mp hlower).2
      exact hrange hlast (by decide)
  · have hlast : c.val ≤ '9'.val := of_decide_eq_true (Bool.and_eq_true_iff.mp hdigit).2
    exact hrange hlast (by decide)

theorem toLower_of_not_capital (h : ¬ (0x41 ≤ c.toNat ∧ c.toNat ≤ 0x5A)) : c.toLower = c := by
  rw [← Char.toNat_inj, toNat_toLower, if_neg h]

theorem lowerChar_of_ascii (h : c.toNat < 128) : lowerChar c = [c.toLower] :=
  if_pos h

theorem toLower_of_lt (h : c.toNat < 0x41) : c.toLower = c := by
  apply toLower_of_not_capital
  omega

theorem lowerChar_of_lt (h : c.toNat < 0x41) : lowerChar c = [c] := by
  have hascii : c.toNat < 128 := by omega
  rw [lowerChar_of_ascii hascii, toLower_of_lt h]

/-- Lower case keeps the first character of a text if it comes before the capitals. -/
theorem head?_lower (hs : s.toList = c :: cs) (h : c.toNat < 0x41) :
    (lower s).toList.head? = some c := by
  have hsigma : c ≠ 'Σ' := by
    rintro rfl
    exact absurd h (by decide)
  rw [lower, hs, lowerFrom, if_neg hsigma, lowerChar_of_lt h, String.toList_ofList]
  rfl

theorem lower_ne_of_head (hs : s.toList = c :: cs) (h : c.toNat < 0x41) {d : Char}
    (hd : 0x41 ≤ d.toNat) (ds : List Char) : lower s ≠ String.ofList (d :: ds) := by
  intro heq
  have hhead := head?_lower hs h
  rw [heq, String.toList_ofList, List.head?_cons] at hhead
  have hsame : d = c := Option.some.inj hhead
  rw [hsame] at hd
  omega

/-- Text in ASCII becomes lower case letter by letter, without regard to what comes before. -/
theorem lowerFrom_of_ascii (before : List Char) (h : ∀ c ∈ cs, c.toNat < 128) :
    lowerFrom before cs = cs.map Char.toLower := by
  induction cs generalizing before with
  | nil => rfl
  | cons c cs ih =>
    obtain ⟨hc, hcs⟩ := List.forall_mem_cons.mp h
    have hsigma : c ≠ 'Σ' := by
      rintro rfl
      exact absurd hc (by decide)
    rw [lowerFrom, if_neg hsigma, lowerChar_of_ascii hc, ih _ hcs]
    rfl

theorem lt_of_toLower_lt (h : c.toLower.toNat < 128) : c.toNat < 128 := by
  rw [toNat_toLower] at h
  split at h <;> omega

/-- A name in ASCII is in lower case what its characters are. -/
theorem lower_of_map_toLower (name : List Char) (hname : name.all (·.toNat < 128) = true)
    (h : String.ofList (s.toList.map Char.toLower) = String.ofList name) :
    lower s = String.ofList name := by
  have hascii : ∀ c ∈ s.toList, c.toNat < 128 := by
    intro c hc
    apply lt_of_toLower_lt
    have hmem : c.toLower ∈ name := by
      rw [← String.ofList_injective h]
      exact List.mem_map_of_mem hc
    exact of_decide_eq_true (List.all_eq_true.mp hname c.toLower hmem)
  rw [lower, lowerFrom_of_ascii [] hascii, h]

/-- Beyond ASCII the small letters lie beyond ASCII too, and are characters. The one exception is
the sign for the unit of temperature, which has a plain `k`. -/
theorem CapitalRun.small_of_mem : ∀ r ∈ capitalRuns,
    (r.first = 0x212A ∧ r.last = 0x212A ∧ r.offset = -8383) ∨
      (128 ≤ r.first + r.offset ∧ r.last + r.offset < 0xD800) ∨
        (0xE000 ≤ r.first + r.offset ∧ r.last + r.offset < 0x110000) := by
  decide +kernel

theorem toNat_ofNat_of_isValidChar {n : Nat} (h : n.isValidChar) : (Char.ofNat n).toNat = n := by
  rw [Char.ofNat, dif_pos h]
  rfl

theorem CapitalRun.bounds_of_find {r : CapitalRun}
    (hfind : capitalRuns.find? (·.covers c.toNat) = some r) :
    r ∈ capitalRuns ∧ r.first ≤ c.toNat ∧ c.toNat ≤ r.last ∧ (c.toNat - r.first) % r.step = 0 := by
  have hcovers := List.find?_some hfind
  simp only [CapitalRun.covers, Bool.and_eq_true, decide_eq_true_eq, beq_iff_eq] at hcovers
  exact ⟨List.mem_of_find?_eq_some hfind, hcovers.1.1, hcovers.1.2, hcovers.2⟩

/-- What a run makes of a capital is the character under the number that lies the offset away. -/
theorem CapitalRun.toNat_small {r : CapitalRun}
    (hfind : capitalRuns.find? (·.covers c.toNat) = some r) :
    ((Char.ofNat (c.toNat + r.offset).toNat).toNat : Int) = c.toNat + r.offset := by
  obtain ⟨hmem, hfirst, hlast, -⟩ := bounds_of_find hfind
  have hvalid : 0 ≤ c.toNat + r.offset ∧ (c.toNat + r.offset).toNat.isValidChar := by
    rcases small_of_mem r hmem with ⟨hfirst', hlast', hoffset⟩ | hlow | hhigh
    · exact ⟨by omega, .inl (by omega)⟩
    · exact ⟨by omega, .inl (by omega)⟩
    · exact ⟨by omega, .inr (by omega)⟩
  rw [toNat_ofNat_of_isValidChar hvalid.2, Int.toNat_of_nonneg hvalid.1]

/-- The small letter of a capital in a run is beyond ASCII, but for the one exception. -/
theorem CapitalRun.small_of_find {r : CapitalRun}
    (hfind : capitalRuns.find? (·.covers c.toNat) = some r) :
    128 ≤ (Char.ofNat (c.toNat + r.offset).toNat).toNat ∨
      Char.ofNat (c.toNat + r.offset).toNat = 'k' := by
  obtain ⟨hmem, hfirst, hlast, -⟩ := bounds_of_find hfind
  have hsmall := toNat_small hfind
  rcases small_of_mem r hmem with ⟨hfirst', hlast', hoffset⟩ | hlow | hhigh
  · have hk : (c.toNat + r.offset).toNat = 0x6B := by omega
    rw [hk]
    exact .inr rfl
  · exact .inl (by omega)
  · exact .inl (by omega)

/-- A character beyond ASCII has a small form with a character beyond ASCII in it, or the letter
`k`. -/
theorem exists_mem_lowerChar (h : 128 ≤ c.toNat) : ∃ d ∈ lowerChar c, 128 ≤ d.toNat ∨ d = 'k' := by
  rw [lowerChar, if_neg (Nat.not_lt.mpr h)]
  split
  · exact ⟨'\u0307', by decide, .inl (by decide)⟩
  split
  · rename_i r hfind
    exact ⟨_, List.mem_singleton_self _, CapitalRun.small_of_find hfind⟩
  · exact ⟨c, List.mem_singleton_self c, .inl h⟩

/-- No run of a list covers any of the numbers in a range, or with `alternate` any second one. The
runs are in order, so what comes after the range needs no look. -/
def avoided (low high : Nat) (alternate : Bool) : List CapitalRun → Bool
  | [] => true
  | ⟨first, last, step, _⟩ :: runs =>
    match Nat.blt high first with
    | true => true
    | false =>
      match Nat.blt last low with
      | true => avoided low high alternate runs
      | false =>
        alternate && step == 2 && (low + first) % 2 == 1 && avoided low high alternate runs

theorem not_covers_of_avoided {low high n : Nat} {alternate : Bool} {runs : List CapitalRun}
    (hsorted : runs.Pairwise fun r r' => r.first ≤ r'.first)
    (h : avoided low high alternate runs = true) (hlow : low ≤ n) (hhigh : n ≤ high)
    (heven : alternate = true → (n - low) % 2 = 0) : ∀ r ∈ runs, r.covers n = false := by
  induction runs with
  | nil => simp
  | cons r runs ih =>
    obtain ⟨hfirst, hrest⟩ := List.pairwise_cons.mp hsorted
    have hbefore (r' : CapitalRun) (hr' : n < r'.first) : r'.covers n = false := by
      simp only [CapitalRun.covers, Bool.and_eq_false_iff, decide_eq_false_iff_not]
      exact .inl (.inl (Nat.not_le.mpr hr'))
    rw [avoided] at h
    split at h
    · rename_i hbeforeRun
      have hn : n < r.first := Nat.lt_of_le_of_lt hhigh (Nat.blt_eq.mp hbeforeRun)
      exact List.forall_mem_cons.mpr
        ⟨hbefore r hn, fun r' hr' => hbefore r' (Nat.lt_of_lt_of_le hn (hfirst r' hr'))⟩
    split at h
    · rename_i hafter
      have hn : r.last < n := Nat.lt_of_lt_of_le (Nat.blt_eq.mp hafter) hlow
      refine List.forall_mem_cons.mpr ⟨?_, ih hrest h⟩
      simp only [CapitalRun.covers, Bool.and_eq_false_iff, decide_eq_false_iff_not]
      exact .inl (.inr (Nat.not_le.mpr hn))
    · simp only [Bool.and_eq_true, beq_iff_eq] at h
      obtain ⟨⟨⟨halternate, hstep⟩, hodd⟩, hlater⟩ := h
      refine List.forall_mem_cons.mpr ⟨?_, ih hrest hlater⟩
      -- the capitals of the run alternate with the numbers in the range
      have hn := heven halternate
      apply Bool.eq_false_iff.mpr
      intro hcovers
      simp only [CapitalRun.covers, Bool.and_eq_true, decide_eq_true_eq, beq_iff_eq, hstep]
        at hcovers
      omega

def CapitalRun.isAvoidedBy (r : CapitalRun) (runs : List CapitalRun) : Bool :=
  avoided (r.first + r.offset).toNat (r.last + r.offset).toNat (r.step == 2 || r.first == r.last)
    runs

/-- No small letter is a capital of any run, nor the capital with a dot. -/
theorem CapitalRun.isAvoidedBy_of_mem : ∀ r ∈ capitalRuns,
    r.isAvoidedBy capitalRuns = true ∧ r.isAvoidedBy [⟨0x130, 0x130, 1, 0⟩] = true := by
  decide +kernel

theorem capitalRuns_sorted : capitalRuns.Pairwise fun r r' => r.first ≤ r'.first := by
  have hchain : (capitalRuns.map (·.first)).IsChain (· ≤ ·) := by decide +kernel
  exact List.pairwise_map.mp (List.isChain_iff_pairwise.mp hchain)

theorem CapitalRun.not_covers_of_isAvoidedBy {r : CapitalRun} {runs : List CapitalRun} {d : Char}
    (hsorted : runs.Pairwise fun r r' => r.first ≤ r'.first) (h : r.isAvoidedBy runs = true)
    (hfind : capitalRuns.find? (·.covers c.toNat) = some r)
    (hd : (d.toNat : Int) = c.toNat + r.offset) : ∀ r' ∈ runs, r'.covers d.toNat = false := by
  obtain ⟨hmem, hfirst, hlast, hstep⟩ := bounds_of_find hfind
  have hpositive : 0 ≤ r.first + r.offset := by
    rcases small_of_mem r hmem with ⟨hfirst', -, hoffset⟩ | ⟨hlow, -⟩ | ⟨hhigh, -⟩ <;> omega
  apply not_covers_of_avoided hsorted h
  · omega
  · omega
  · intro halternate
    rw [Bool.or_eq_true, beq_iff_eq, beq_iff_eq] at halternate
    rcases halternate with htwo | hsingle
    · rw [htwo] at hstep
      omega
    · omega

/-- A character is its own lower case, wherever it stands. -/
def IsSmall (c : Char) : Prop :=
  c ≠ 'Σ' ∧ lowerChar c = [c]

theorem isSmall_of_ascii (h : c.toNat < 128) (hsmall : c.toLower = c) : IsSmall c := by
  constructor
  · rintro rfl
    exact absurd h (by decide)
  · rw [lowerChar_of_ascii h, hsmall]

theorem isSmall_of_not_covers (h : 128 ≤ c.toNat) (hdot : c ≠ 'İ')
    (hcovers : ∀ r ∈ capitalRuns, r.covers c.toNat = false) : IsSmall c := by
  have hnone : capitalRuns.find? (·.covers c.toNat) = none := by
    apply List.find?_eq_none.mpr
    intro r hr
    rw [hcovers r hr]
    exact Bool.false_ne_true
  constructor
  · rintro rfl
    have hsigma : capitalRuns.find? (·.covers 'Σ'.toNat) ≠ none := by decide +kernel
    exact hsigma hnone
  · rw [lowerChar, if_neg (Nat.not_lt.mpr h), if_neg hdot, hnone]

/-- Whatever stands in a small form is small itself. -/
theorem isSmall_of_mem_lowerChar {d : Char} (hsigma : c ≠ 'Σ') (hd : d ∈ lowerChar c) :
    IsSmall d := by
  by_cases hascii : c.toNat < 128
  · rw [lowerChar_of_ascii hascii] at hd
    rw [List.mem_singleton.mp hd]
    have hlower := toNat_toLower c
    apply isSmall_of_ascii
    · split at hlower <;> omega
    · apply toLower_of_not_capital
      split at hlower <;> omega
  rw [lowerChar, if_neg hascii] at hd
  by_cases hdot : c = 'İ'
  · rw [if_pos hdot] at hd
    rcases List.mem_cons.mp hd with rfl | hd
    · exact isSmall_of_ascii (by decide) rfl
    · rw [List.mem_singleton.mp hd]
      exact ⟨by decide, by decide +kernel⟩
  rw [if_neg hdot] at hd
  cases hfind : capitalRuns.find? (·.covers c.toNat) with
  | none =>
    rw [hfind] at hd
    rw [List.mem_singleton.mp hd]
    exact ⟨hsigma, by rw [lowerChar, if_neg hascii, if_neg hdot, hfind]⟩
  | some r =>
    rw [hfind] at hd
    obtain ⟨havoided, hdotted⟩ := CapitalRun.isAvoidedBy_of_mem r (List.mem_of_find?_eq_some hfind)
    have hsmall := CapitalRun.toNat_small hfind
    have hkind := CapitalRun.small_of_find hfind
    rw [← List.mem_singleton.mp hd] at hsmall hkind
    rcases hkind with hge | rfl
    · apply isSmall_of_not_covers hge
      · rintro rfl
        have hnot := CapitalRun.not_covers_of_isAvoidedBy (List.pairwise_singleton _ _) hdotted
          hfind hsmall
        exact absurd (List.forall_mem_singleton.mp hnot) (by decide)
      · exact CapitalRun.not_covers_of_isAvoidedBy capitalRuns_sorted havoided hfind hsmall
    · exact isSmall_of_ascii (by decide) rfl

/-- Nothing that comes out of lower case is a capital. -/
theorem isSmall_of_mem_lowerFrom {d : Char} {before : List Char} (hd : d ∈ lowerFrom before cs) :
    IsSmall d := by
  have hfinal : ∀ d ∈ ['ς'], IsSmall d :=
    List.forall_mem_singleton.mpr ⟨by decide, by decide +kernel⟩
  have hinner : ∀ d ∈ ['σ'], IsSmall d :=
    List.forall_mem_singleton.mpr ⟨by decide, by decide +kernel⟩
  induction cs generalizing before with
  | nil => cases hd
  | cons c cs ih =>
    rw [lowerFrom] at hd
    rcases List.mem_append.mp hd with hhead | hrest
    · split at hhead
      · split at hhead
        · exact hfinal d hhead
        · exact hinner d hhead
      · rename_i hsigma
        exact isSmall_of_mem_lowerChar hsigma hhead
    · exact ih hrest

theorem lowerFrom_of_isSmall (before : List Char) (h : ∀ c ∈ cs, IsSmall c) :
    lowerFrom before cs = cs := by
  induction cs generalizing before with
  | nil => rfl
  | cons c cs ih =>
    obtain ⟨⟨hsigma, hc⟩, hcs⟩ := List.forall_mem_cons.mp h
    rw [lowerFrom, if_neg hsigma, hc, ih _ hcs]
    rfl

theorem lower_of_isSmall (h : ∀ c ∈ s.toList, IsSmall c) : lower s = s := by
  rw [lower, lowerFrom_of_isSmall [] h, String.ofList_toList]

theorem isSmall_of_mem_lower {d : Char} (hd : d ∈ (lower s).toList) : IsSmall d := by
  rw [lower, String.toList_ofList] at hd
  exact isSmall_of_mem_lowerFrom hd

/-- Lower case is not changed by lower case. -/
theorem lower_lower (s : String) : lower (lower s) = lower s :=
  lower_of_isSmall fun _ hd => isSmall_of_mem_lower hd

/-- The same goes for its place in a text, where a capital sigma has two small forms. -/
theorem exists_mem_lowerFrom (h : 128 ≤ c.toNat) (before after : List Char) :
    ∃ d ∈ lowerFrom before (c :: after), 128 ≤ d.toNat ∨ d = 'k' := by
  rw [lowerFrom]
  by_cases hsigma : c = 'Σ'
  · rw [if_pos hsigma]
    cases meetsCased before && !meetsCased after
    · exact ⟨'σ', List.mem_cons_self, .inl (by decide)⟩
    · exact ⟨'ς', List.mem_cons_self, .inl (by decide)⟩
  · rw [if_neg hsigma]
    obtain ⟨d, hd, hout⟩ := exists_mem_lowerChar h
    exact ⟨d, List.mem_append_left _ hd, hout⟩

/-- A text whose lower case is in ASCII and has no `k` is itself in ASCII. -/
theorem ascii_of_lowerFrom (before : List Char)
    (h : ∀ d ∈ lowerFrom before cs, d.toNat < 128 ∧ d ≠ 'k') : ∀ c ∈ cs, c.toNat < 128 := by
  induction cs generalizing before with
  | nil => simp
  | cons c cs ih =>
    have hc : c.toNat < 128 := by
      apply Nat.lt_of_not_le
      intro hbeyond
      obtain ⟨d, hd, hout⟩ := exists_mem_lowerFrom hbeyond before cs
      obtain ⟨hascii, hk⟩ := h d hd
      rcases hout with hge | heq
      · omega
      · exact hk heq
    have hcs : ∀ c ∈ cs, c.toNat < 128 := by
      apply ih (c :: before)
      intro d hd
      rw [lowerFrom] at h
      exact h d (List.mem_append_right _ hd)
    exact List.forall_mem_cons.mpr ⟨hc, hcs⟩

/-- A name in ASCII without a `k` is the lower case of just those texts that it is in ASCII. -/
theorem lower_eq_iff (name : List Char)
    (hname : name.all (fun d => d.toNat < 128 && d != 'k') = true) :
    lower s = String.ofList name ↔ s.toList.map Char.toLower = name := by
  have hplain : ∀ d ∈ name, d.toNat < 128 ∧ d ≠ 'k' := by
    intro d hd
    simpa using List.all_eq_true.mp hname d hd
  constructor
  · intro h
    have hlower : lowerFrom [] s.toList = name := String.ofList_injective h
    have hascii : ∀ c ∈ s.toList, c.toNat < 128 := ascii_of_lowerFrom [] (by rwa [hlower])
    rw [← lowerFrom_of_ascii [] hascii, hlower]
  · intro h
    have hall : name.all (·.toNat < 128) = true := by
      apply List.all_eq_true.mpr
      intro d hd
      exact decide_eq_true (hplain d hd).1
    exact lower_of_map_toLower name hall (congrArg String.ofList h)

end MountControl
