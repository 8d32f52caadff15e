import MountControl.Proofs.ArgumentLines
import MountControl.Proofs.LayeredSettings
import MountControl.Proofs.Numerals

/-!
The time limit as a text, in the environment and on the command line. The flag takes numbers only.
The variable is guessed at: a truth value, a signed number or a floating-point number, so that some
texts become limits that are no numbers, and large numbers are rounded.
-/

namespace MountControl

/-- A text that nothing takes for a time limit: no number in range, no truth value, no zero with a
minus sign, and no floating-point number but for a whole one below zero. -/
structure Malformed (s : String) : Prop where
  numeral : ∀ n, Numeral s n → 2 ^ 64 ≤ n
  truth : SettingValue.truthWord? (lower s) = none
  zero : ¬ MinusNumeral s 0
  float : Binary64.read? s ≠ none → ∃ n, MinusNumeral s n ∧ n ≤ 2 ^ 63

section TruthWords

variable {c : Char} {cs : List Char} {s : String}

theorem truthWord?_of_head (hs : s.toList = c :: cs) (h : c.toNat < 0x41) :
    SettingValue.truthWord? (lower s) = none := by
  have hne {d : Char} (hd : 0x41 ≤ d.toNat) (ds : List Char) : lower s ≠ String.ofList (d :: ds) :=
    lower_ne_of_head hs h hd ds
  have hnot_true : lower s ∉ ["true", "on", "yes"] := by
    simp only [List.mem_cons, List.not_mem_nil, or_false, not_or]
    exact ⟨hne (by decide : 0x41 ≤ 't'.toNat) ['r', 'u', 'e'],
      hne (by decide : 0x41 ≤ 'o'.toNat) ['n'], hne (by decide : 0x41 ≤ 'y'.toNat) ['e', 's']⟩
  have hnot_false : lower s ∉ ["false", "off", "no"] := by
    simp only [List.mem_cons, List.not_mem_nil, or_false, not_or]
    exact ⟨hne (by decide : 0x41 ≤ 'f'.toNat) ['a', 'l', 's', 'e'],
      hne (by decide : 0x41 ≤ 'o'.toNat) ['f', 'f'], hne (by decide : 0x41 ≤ 'n'.toNat) ['o']⟩
  rw [SettingValue.truthWord?, if_neg hnot_true, if_neg hnot_false]

/-- No truth value is a floating-point number as well. -/
theorem truthWord?_of_read? {x : Binary64} (h : Binary64.read? s = some x) :
    SettingValue.truthWord? (lower s) = none := by
  cases hs : s.toList with
  | nil =>
    have hempty : Binary64.read? s = none := by
      rw [String.toList_eq_nil_iff.mp hs]
      decide
    rw [hempty] at h
    cases h
  | cons c cs =>
    -- a number in digits begins before the capitals, and one by name is another word
    by_cases hlow : c.toNat < 0x41
    · exact truthWord?_of_head hs hlow
    · have hplus : c ≠ '+' := by rintro rfl; exact hlow (by decide)
      have hminus : c ≠ '-' := by rintro rfl; exact hlow (by decide)
      have hpoint : c ≠ '.' := by rintro rfl; exact hlow (by decide)
      have hdigit : c.isDigit = false := by
        refine Bool.eq_false_iff.mpr fun hdigit => hlow ?_
        exact Nat.lt_of_le_of_lt (toNat_bounds_of_isDigit hdigit).2 (by decide)
      rw [Binary64.read?_of_unsigned hs hplus hminus, ← hs, Binary64.readUnsigned?] at h
      split at h
      case isTrue hname =>
        rcases hname with hname | hname
        · rw [lower_of_map_toLower ['i', 'n', 'f'] (by decide) hname]
          decide
        · rw [lower_of_map_toLower ['i', 'n', 'f', 'i', 'n', 'i', 't', 'y'] (by decide) hname]
          decide
      case isFalse =>
        split at h
        case isTrue hname =>
          rw [lower_of_map_toLower ['n', 'a', 'n'] (by decide) hname]
          decide
        case isFalse =>
          rw [hs, Binary64.readMagnitude_eq_none hdigit hpoint] at h
          cases h

end TruthWords

section Heads

variable {s : String} {n : Nat}

/-- A signed or unsigned number begins with a character before the capitals. -/
theorem Numeral.head_lt (h : Numeral s n) : ∃ c cs, s.toList = c :: cs ∧ c.toNat < 0x41 := by
  obtain ⟨digits, hspells, hs | hs⟩ := h
  · obtain ⟨c, cs, rfl⟩ := hspells.exists_cons
    have hbounds := toNat_bounds_of_isDigit hspells.head_isDigit
    exact ⟨c, cs, hs, Nat.lt_of_le_of_lt hbounds.2 (by decide)⟩
  · exact ⟨'+', digits, hs, by decide⟩

theorem MinusNumeral.head_lt (h : MinusNumeral s n) :
    ∃ c cs, s.toList = c :: cs ∧ c.toNat < 0x41 := by
  obtain ⟨digits, -, hs⟩ := h
  exact ⟨'-', digits, hs, by decide⟩

end Heads

namespace Environment

variable {s : String} {n : Nat}

/-- A text that begins below the letters is no truth word: it is read as an integer, as a float or
as text. -/
theorem readValue_of_head (h : ∃ c cs, s.toList = c :: cs ∧ c.toNat < 0x41) :
    readValue s = match readInt64 s with
      | .ok n => .integer n
      | .error _ => match Binary64.read? s with
        | some x => .float x
        | none => .text s := by
  obtain ⟨c, cs, hs, hc⟩ := h
  have htrue : lower s ≠ "true" :=
    lower_ne_of_head hs hc (by decide : 0x41 ≤ 't'.toNat) ['r', 'u', 'e']
  have hfalse : lower s ≠ "false" :=
    lower_ne_of_head hs hc (by decide : 0x41 ≤ 'f'.toNat) ['a', 'l', 's', 'e']
  unfold readValue
  dsimp only
  refine (if_neg htrue).trans ((if_neg hfalse).trans ?_)
  cases readInt64 s <;> rfl

theorem readValue_of_small (h : Numeral s n) (hsmall : n < 2 ^ 63) : readValue s = .integer n := by
  have hread : readInt64 s = .ok n := readInt64_eq_ok_iff.mpr (.inl ⟨n, h, hsmall, rfl⟩)
  rw [readValue_of_head h.head_lt, hread]

theorem readValue_of_minus (h : MinusNumeral s n) (hsmall : n ≤ 2 ^ 63) :
    readValue s = .integer (-n) := by
  have hread : readInt64 s = .ok (-n : Int) := readInt64_eq_ok_iff.mpr (.inr ⟨n, h, hsmall, rfl⟩)
  rw [readValue_of_head h.head_lt, hread]

/-- A numeral too large for a signed word is read as the nearest float. -/
theorem readValue_of_large (h : Numeral s n) (hlow : 2 ^ 63 ≤ n) (hhigh : n < 2 ^ 64) :
    readValue s = .float (.finite false (Binary64.roundDiv n 2048) 11) := by
  have hunread : ∀ i, readInt64 s ≠ .ok i := by
    intro i hi
    obtain ⟨m, hm, hsmall, -⟩ | ⟨m, hm, -⟩ := readInt64_eq_ok_iff.mp hi
    · exact absurd (h.unique hm) (by omega)
    · exact h.not_minus hm
  rw [readValue_of_head h.head_lt, Binary64.read?_of_numeral h hlow hhigh]
  cases hread : readInt64 s with
  | error e => rfl
  | ok i => exact absurd hread (hunread i)

end Environment

namespace Settings

variable {tree : FileTree} {cwd : Path} {order : HashOrder} {s : String}

def limitVariable : String :=
  "IFUSE_CTL_TIMEOUT_MS"

def variableWord (s : String) : Except TypeFault UInt64 :=
  SettingValue.toWord64 SettingName.timeoutMs.text
    (.scalar (Environment.readValue s) Environment.origin)

def limitEnvironment (s : String) : SystemEnvironment :=
  Environment.encoded [(limitVariable, s)]

/-- Without a file and with only the variable of the time limit, that is all there is to load. -/
theorem load_limitEnvironment (tree : FileTree) (cwd : Path) (order : HashOrder) (s : String) :
    load tree cwd none (limitEnvironment s) order =
      ((variableWord s).map fun n => { initial with timeoutMs := some n }).mapError .invalid := by
  let value : SettingValue := .scalar (Environment.readValue s) Environment.origin
  have hkey : Environment.settingKey? limitVariable = some "timeout_ms" := by decide
  have hsettings : Environment.settings [(limitVariable, s)] = [("timeout_ms", value)] := by
    rw [Environment.settings, List.foldl_cons]
    dsimp only
    rw [hkey]
    rfl
  have hvariables : variableEntries (limitEnvironment s) = .ok [("timeout_ms", value)] := by
    rw [variableEntries, limitEnvironment, SystemEnvironment.texts?_encoded]
    exact congrArg Except.ok hsettings
  -- there is only one order of one entry, and of none
  have hfile : order.arrange [] = [] := List.Perm.eq_nil (order.arranges [])
  have henvironment : order.environment [("timeout_ms", value)] = [("timeout_ms", value)] :=
    List.perm_singleton.mp (order.environment_perm _)
  have hcopy : order.copying.arrange [("timeout_ms", value)] = [("timeout_ms", value)] :=
    List.perm_singleton.mp (order.copying.arranges _)
  have horder : order.settings [("timeout_ms", value)] = [("timeout_ms", value)] :=
    List.perm_singleton.mp (order.settings_perm _)
  have hoverlay : overlay [("timeout_ms", value)] (.table []) =
      .ok (.table [("timeout_ms", value)]) := rfl
  have hassignment : readAssignment "timeout_ms" value =
      ((variableWord s).map some).map (some ∘ .timeoutMs) := rfl
  have hcollect : collect tree cwd none (limitEnvironment s) order =
      .ok (.table [("timeout_ms", value)]) := by
    unfold collect
    rw [hvariables]
    change (overlay (order.arrange []) (.table [])).bind
      (overlay (order.environment [("timeout_ms", value)])) = _
    rw [hfile, henvironment]
    exact hoverlay
  unfold load
  rw [hcollect]
  change (overlay (order.copying.arrange [("timeout_ms", value)]) (.table []) >>= fun copy =>
    (ofEntries initial (order.settings copy.entries)).mapError SettingsFault.invalid) = _
  rw [hcopy, hoverlay]
  change (ofEntries initial (order.settings [("timeout_ms", value)])).mapError _ = _
  rw [horder, ofEntries, hassignment]
  cases variableWord s <;> rfl

def VariableGives (tree : FileTree) (cwd : Path) (order : HashOrder) (s : String) (n : UInt64) :
    Prop :=
  ∃ settings, load tree cwd none (limitEnvironment s) order = .ok settings ∧
    settings.timeoutMs = some n

def VariableRefused (tree : FileTree) (cwd : Path) (order : HashOrder) (s : String) : Prop :=
  ∃ fault, load tree cwd none (limitEnvironment s) order = .error (.invalid fault)

/-- What the settings come to with the variable alone is what its word is read as. -/
theorem variableGives_iff {n : UInt64} :
    VariableGives tree cwd order s n ↔ variableWord s = .ok n := by
  rw [VariableGives, load_limitEnvironment]
  cases variableWord s with
  | error fault =>
    refine iff_of_false ?_ nofun
    rintro ⟨settings, hload, -⟩
    cases hload
  | ok m =>
    constructor
    · rintro ⟨settings, hload, hlimit⟩
      cases hload
      exact congrArg Except.ok (Option.some.inj hlimit)
    · rintro ⟨⟩
      exact ⟨_, rfl, rfl⟩

/-- The variable gives one limit at most, in whichever order the settings are kept. -/
theorem VariableGives.unique {n m : UInt64} (h : VariableGives tree cwd order s n)
    (h' : VariableGives tree cwd order s m) : n = m :=
  Except.ok.inj ((variableGives_iff.mp h).symm.trans (variableGives_iff.mp h'))

theorem variableRefused_iff :
    VariableRefused tree cwd order s ↔ ∃ fault, variableWord s = .error fault := by
  rw [VariableRefused, load_limitEnvironment]
  cases variableWord s with
  | error fault => exact iff_of_true ⟨fault, rfl⟩ ⟨fault, rfl⟩
  | ok n =>
    refine iff_of_false ?_ ?_
    · rintro ⟨fault, hload⟩
      cases hload
    · rintro ⟨fault, hload⟩
      cases hload

theorem VariableGives.not_refused {n : UInt64} (h : VariableGives tree cwd order s n) :
    ¬ VariableRefused tree cwd order s := by
  intro hrefused
  obtain ⟨fault, hfault⟩ := variableRefused_iff.mp hrefused
  cases hfault.symm.trans (variableGives_iff.mp h)

/-- A number that the signed words hold is read as it is. -/
theorem variableWord_of_small {n : UInt64} (h : Numeral s n.toNat) (hsmall : n.toNat < 2 ^ 63) :
    variableWord s = .ok n := by
  have hnonneg : ¬ (n.toNat : Int) < 0 := by omega
  rw [variableWord, Environment.readValue_of_small h hsmall, SettingValue.toWord64, if_neg hnonneg,
    Int.toNat_natCast, UInt64.ofNat_toNat]

/-- A number beyond the signed words is rounded. -/
theorem variableWord_of_large {n : Nat} (h : Numeral s n) (hlow : 2 ^ 63 ≤ n) (hhigh : n < 2 ^ 64) :
    variableWord s = .ok (.ofNat (Binary64.nearestWord n)) := by
  rw [variableWord, Environment.readValue_of_large h hlow hhigh, SettingValue.toWord64,
    Binary64.roundToNat_of_large]

/-- A number with a minus sign is refused, unless it is zero. -/
theorem variableWord_of_minus {n : Nat} (h : MinusNumeral s n) (hsmall : n ≤ 2 ^ 63) :
    (n = 0 ∧ variableWord s = .ok 0) ∨ (n ≠ 0 ∧ ∃ fault, variableWord s = .error fault) := by
  rw [variableWord, Environment.readValue_of_minus h hsmall]
  by_cases hzero : n = 0
  · subst hzero
    exact .inl ⟨rfl, rfl⟩
  · have hnegative : -(n : Int) < 0 := by omega
    refine .inr ⟨hzero, ?_⟩
    rw [SettingValue.toWord64, if_pos hnegative]
    exact ⟨_, rfl⟩

theorem readInt64_error_of_unsigned (hnumeral : ∀ n, Numeral s n → 2 ^ 64 ≤ n)
    (hminus : ∀ n, MinusNumeral s n → 2 ^ 63 < n) : ∃ e, readInt64 s = .error e := by
  cases hread : readInt64 s with
  | error e => exact ⟨e, rfl⟩
  | ok i =>
    obtain ⟨n, hn, hsmall, -⟩ | ⟨n, hn, hsmall, -⟩ := readInt64_eq_ok_iff.mp hread
    · exact absurd (hnumeral n hn) (by omega)
    · exact absurd (hminus n hn) (by omega)

/-- A truth value stands for 1 or 0. -/
theorem variableWord_of_truthWord {b : Bool} (h : SettingValue.truthWord? (lower s) = some b) :
    variableWord s = .ok (if b then 1 else 0) := by
  -- it begins with a letter, so that it is no number of any kind
  have hhead : ¬ ∃ c cs, s.toList = c :: cs ∧ c.toNat < 0x41 := by
    rintro ⟨c, cs, hs, hc⟩
    rw [truthWord?_of_head hs hc] at h
    cases h
  have hfloat : Binary64.read? s = none := by
    cases hread : Binary64.read? s with
    | none => rfl
    | some x =>
      rw [truthWord?_of_read? hread] at h
      cases h
  obtain ⟨e, hint⟩ := readInt64_error_of_unsigned (s := s)
    (fun n hn => absurd hn.head_lt hhead) (fun n hn => absurd hn.head_lt hhead)
  unfold variableWord Environment.readValue
  dsimp only
  by_cases htrue : lower s = "true"
  · rw [htrue] at h
    obtain rfl : true = b := Option.some.inj h
    rw [if_pos htrue]
    rfl
  by_cases hfalse : lower s = "false"
  · rw [hfalse] at h
    obtain rfl : false = b := Option.some.inj h
    rw [if_neg htrue, if_pos hfalse]
    rfl
  rw [if_neg htrue, if_neg hfalse, hint, hfloat]
  change SettingValue.toWord64 SettingName.timeoutMs.text (.scalar (.text s) _) = _
  rw [SettingValue.toWord64, h]

/-- What is neither a signed word nor a truth value is taken for a floating-point number, or left as
a text. -/
theorem readValue_of_other (hword : SettingValue.truthWord? (lower s) = none)
    (hnumeral : ∀ n, Numeral s n → 2 ^ 64 ≤ n) (hminus : ∀ n, MinusNumeral s n → 2 ^ 63 < n) :
    Environment.readValue s = match Binary64.read? s with
      | some x => .float x
      | none => .text s := by
  obtain ⟨e, hint⟩ := readInt64_error_of_unsigned hnumeral hminus
  have htrue : lower s ≠ "true" := by
    intro heq
    rw [heq] at hword
    cases hword
  have hfalse : lower s ≠ "false" := by
    intro heq
    rw [heq] at hword
    cases hword
  unfold Environment.readValue
  dsimp only
  refine (if_neg htrue).trans ((if_neg hfalse).trans ?_)
  generalize readInt64 s = result at hint
  subst hint
  cases Binary64.read? s <;> rfl

/-- A text that is no integer but a float counts as that float, rounded. -/
theorem variableWord_of_float {x : Binary64} (hfloat : Binary64.read? s = some x)
    (hnumeral : ∀ n, Numeral s n → 2 ^ 64 ≤ n) (hminus : ∀ n, MinusNumeral s n → 2 ^ 63 < n) :
    variableWord s = .ok (.ofNat (x.roundToNat 0xFFFFFFFFFFFFFFFF)) := by
  rw [variableWord, readValue_of_other (truthWord?_of_read? hfloat) hnumeral hminus, hfloat]
  rfl

/-- A text that is neither is refused. -/
theorem variableWord_of_other (hword : SettingValue.truthWord? (lower s) = none)
    (hfloat : Binary64.read? s = none) (hnumeral : ∀ n, Numeral s n → 2 ^ 64 ≤ n)
    (hminus : ∀ n, MinusNumeral s n → 2 ^ 63 < n) : ∃ fault, variableWord s = .error fault := by
  have hunread : ∃ e, readWord64 s = .error e := by
    cases hread : readWord64 s with
    | error e => exact ⟨e, rfl⟩
    | ok n =>
      have hle := hnumeral n.toNat (readWord64_eq_ok_iff.mp hread)
      have hlt := n.toNat_lt
      omega
  obtain ⟨e, hread⟩ := hunread
  rw [variableWord, readValue_of_other hword hnumeral hminus, hfloat]
  change ∃ fault, SettingValue.toWord64 _ (.scalar (.text s) _) = .error fault
  rw [SettingValue.toWord64, hword]
  dsimp only
  rw [hread]
  exact ⟨_, rfl⟩

end Settings

namespace CommandLine

variable {s : String}

def limitFlag (s : String) : ArgumentLine where
  line := [.positional ⟨Utf8.encode "reset_cache", by decide⟩,
    .positional ⟨Utf8.encode "/mnt", by decide⟩,
    .option (.attached .timeoutMs (Utf8.encode s) (by decide))]
  distinct := List.nodup_singleton _

def FlagGives (s : String) (n : UInt64) : Prop :=
  ∃ i, ofArguments (limitFlag s).arguments none = .ok (.run i) ∧ i.timeoutMs = some n

def FlagRefused (s : String) : Prop :=
  ∀ i, ofArguments (limitFlag s).arguments none ≠ .ok (.run i)

theorem invocation?_limitFlag (s : String) :
    (limitFlag s).invocation? none = (readWord64 s).toOption.map fun n =>
      ⟨"reset_cache", Utf8.encode "/mnt", [], some n, false, none, ⟨none, none, none⟩⟩ := by
  have hread : (ArgumentValue.read .timeoutMs (Utf8.encode s)).toOption =
      (readWord64 s).toOption.map .timeoutMs := by
    rw [ArgumentValue.read, Reading.readText, Utf8.decode?_encode]
    dsimp only [bind, Except.bind]
    cases readWord64 s <;> rfl
  have hvalues : Argument.valuesFrom 0 (limitFlag s).line =
      [some (.command "reset_cache"), some (.mount (Utf8.encode "/mnt")),
        (readWord64 s).toOption.map .timeoutMs] := by
    rw [← hread]
    rfl
  rw [ArgumentLine.invocation?, hvalues]
  cases readWord64 s <;> rfl

/-- The command line with the flag is read as that of a run with the limit. -/
theorem ofArguments_limitFlag_iff {i : Invocation} :
    ofArguments (limitFlag s).arguments none = .ok (.run i) ↔
      (limitFlag s).invocation? none = some i :=
  Reading.eq_run_iff_of_yields (ofArguments_of_line (limitFlag s) none)

/-- The flag takes the numbers that are 64-bit words, and gives them as they are. -/
theorem flagGives_iff {n : UInt64} : FlagGives s n ↔ Numeral s n.toNat := by
  simp only [FlagGives, ofArguments_limitFlag_iff, invocation?_limitFlag]
  rw [← readWord64_eq_ok_iff]
  cases readWord64 s with
  | error e =>
    refine iff_of_false ?_ nofun
    rintro ⟨i, hi, -⟩
    cases hi
  | ok m =>
    constructor
    · rintro ⟨i, hi, hlimit⟩
      cases hi
      exact congrArg Except.ok (Option.some.inj hlimit)
    · rintro ⟨⟩
      exact ⟨_, rfl, rfl⟩

/-- The flag refuses everything but the numerals of words. -/
theorem flagRefused_iff : FlagRefused s ↔ ∀ n, Numeral s n → 2 ^ 64 ≤ n := by
  constructor
  · intro hrefused n hn
    refine Nat.le_of_not_lt fun hlt => ?_
    have hback : (UInt64.ofNat n).toNat = n := UInt64.toNat_ofNat_of_lt' hlt
    obtain ⟨i, hi, -⟩ := flagGives_iff.mpr (hback.symm ▸ hn)
    exact hrefused i hi
  · intro hnumeral i hi
    rw [ofArguments_limitFlag_iff, invocation?_limitFlag] at hi
    cases hread : readWord64 s with
    | error e =>
      rw [hread] at hi
      cases hi
    | ok n =>
      have hle := hnumeral n.toNat (readWord64_eq_ok_iff.mp hread)
      have hlt := n.toNat_lt
      omega

end CommandLine

open Settings CommandLine

/-- A text of a time limit is read alike from the variable and from the flag: as the same number
from both, or by neither. -/
structure LimitReadAlike (tree : FileTree) (cwd : Path) (order : HashOrder) (s : String) :
    Prop where
  given : ∀ n, VariableGives tree cwd order s n ↔ FlagGives s n
  refused : FlagRefused s → VariableRefused tree cwd order s

/-- A number that the variable gives as it is: a signed word, a multiple of 2048, or the last word.
-/
def KeptByVariable (n : Nat) : Prop :=
  n < 2 ^ 63 ∨ n % 2048 = 0 ∨ n = 2 ^ 64 - 1

structure LimitReadings (tree : FileTree) (cwd : Path) (order : HashOrder) (s : String) :
    Prop where
  flag : ∀ n, FlagGives s n ↔ Numeral s n.toNat
  small : ∀ n : UInt64, Numeral s n.toNat → n.toNat < 2 ^ 63 → VariableGives tree cwd order s n
  large : ∀ n, Numeral s n → 2 ^ 63 ≤ n → n < 2 ^ 64 →
    VariableGives tree cwd order s (.ofNat (Binary64.nearestWord n))
  truth : ∀ b, SettingValue.truthWord? (lower s) = some b →
    VariableGives tree cwd order s (if b then 1 else 0)
  minusZero : MinusNumeral s 0 → VariableGives tree cwd order s 0
  minus : ∀ n, MinusNumeral s n → n ≠ 0 → n ≤ 2 ^ 63 → VariableRefused tree cwd order s
  float : ∀ x, Binary64.read? s = some x → FlagRefused s →
    (∀ n, MinusNumeral s n → 2 ^ 63 < n) →
      VariableGives tree cwd order s (.ofNat (x.roundToNat 0xFFFFFFFFFFFFFFFF))
  malformed : Malformed s → VariableRefused tree cwd order s
  alike : LimitReadAlike tree cwd order s ↔
    (∃ n, Numeral s n ∧ n < 2 ^ 64 ∧ KeptByVariable n) ∨ Malformed s

section Agreement

variable {tree : FileTree} {cwd : Path} {order : HashOrder} {s : String} {n : Nat}

theorem variableGives_of_small {n : UInt64} (h : Numeral s n.toNat) (hsmall : n.toNat < 2 ^ 63) :
    VariableGives tree cwd order s n :=
  variableGives_iff.mpr (variableWord_of_small h hsmall)

theorem variableGives_of_large (h : Numeral s n) (hlow : 2 ^ 63 ≤ n) (hhigh : n < 2 ^ 64) :
    VariableGives tree cwd order s (.ofNat (Binary64.nearestWord n)) :=
  variableGives_iff.mpr (variableWord_of_large h hlow hhigh)

theorem variableGives_of_minusZero (h : MinusNumeral s 0) : VariableGives tree cwd order s 0 := by
  obtain ⟨-, hword⟩ | ⟨hne, -⟩ := variableWord_of_minus h (Nat.zero_le _)
  · exact variableGives_iff.mpr hword
  · exact absurd rfl hne

theorem variableRefused_of_minus (h : MinusNumeral s n) (hne : n ≠ 0) (hsmall : n ≤ 2 ^ 63) :
    VariableRefused tree cwd order s := by
  obtain ⟨hzero, -⟩ | ⟨-, hfault⟩ := variableWord_of_minus h hsmall
  · exact absurd hzero hne
  · exact variableRefused_iff.mpr hfault

theorem variableGives_of_float {x : Binary64} (hfloat : Binary64.read? s = some x)
    (hrefused : FlagRefused s) (hminus : ∀ n, MinusNumeral s n → 2 ^ 63 < n) :
    VariableGives tree cwd order s (.ofNat (x.roundToNat 0xFFFFFFFFFFFFFFFF)) :=
  variableGives_iff.mpr (variableWord_of_float hfloat (flagRefused_iff.mp hrefused) hminus)

theorem Malformed.variableRefused (h : Malformed s) : VariableRefused tree cwd order s := by
  by_cases hminus : ∃ n, MinusNumeral s n ∧ n ≤ 2 ^ 63
  · obtain ⟨n, hn, hsmall⟩ := hminus
    have hne : n ≠ 0 := by
      rintro rfl
      exact h.zero hn
    exact variableRefused_of_minus hn hne hsmall
  · have hfloat : Binary64.read? s = none :=
      Classical.byContradiction fun hread => hminus (h.float hread)
    have hbeyond (n : Nat) (hn : MinusNumeral s n) : 2 ^ 63 < n :=
      Nat.lt_of_not_le fun hsmall => hminus ⟨n, hn, hsmall⟩
    exact variableRefused_iff.mpr (variableWord_of_other h.truth hfloat h.numeral hbeyond)

/-- A word that survives its way through a float is given as it is. -/
theorem variableGives_of_kept (h : Numeral s n) (hhigh : n < 2 ^ 64) (hkept : KeptByVariable n) :
    VariableGives tree cwd order s (.ofNat n) := by
  have hback : (UInt64.ofNat n).toNat = n := UInt64.toNat_ofNat_of_lt' hhigh
  by_cases hsmall : n < 2 ^ 63
  · apply variableGives_of_small
    · rwa [hback]
    · rwa [hback]
  · have hexact : Binary64.nearestWord n = n := by
      apply (Binary64.nearestWord_eq_self_iff hhigh).mpr
      exact hkept.resolve_left hsmall
    have hgives : VariableGives tree cwd order s (.ofNat (Binary64.nearestWord n)) :=
      variableGives_of_large h (by omega) hhigh
    rwa [hexact] at hgives

theorem limitReadAlike_of_kept (h : Numeral s n) (hhigh : n < 2 ^ 64) (hkept : KeptByVariable n) :
    LimitReadAlike tree cwd order s := by
  have hback : (UInt64.ofNat n).toNat = n := UInt64.toNat_ofNat_of_lt' hhigh
  have hvariable : VariableGives tree cwd order s (.ofNat n) := variableGives_of_kept h hhigh hkept
  have hflag : FlagGives s (.ofNat n) := flagGives_iff.mpr (hback.symm ▸ h)
  constructor
  case given =>
    intro m
    constructor
    · intro hm
      exact hvariable.unique hm ▸ hflag
    · intro hm
      have heq : n = m.toNat := h.unique (flagGives_iff.mp hm)
      have hm' : UInt64.ofNat n = m := by rw [heq, UInt64.ofNat_toNat]
      exact hm' ▸ hvariable
  case refused =>
    intro hrefused
    exact absurd (flagRefused_iff.mp hrefused n h) (by omega)

theorem Malformed.limitReadAlike (h : Malformed s) : LimitReadAlike tree cwd order s := by
  constructor
  case given =>
    intro n
    refine iff_of_false ?_ ?_
    · intro hgives
      exact hgives.not_refused h.variableRefused
    · intro hgives
      have hle := h.numeral n.toNat (flagGives_iff.mp hgives)
      have hlt := n.toNat_lt
      omega
  case refused => exact fun _ => h.variableRefused

/-- Flag and variable agree on no other text. -/
theorem kept_or_malformed_of_alike (h : LimitReadAlike tree cwd order s) :
    (∃ n, Numeral s n ∧ n < 2 ^ 64 ∧ KeptByVariable n) ∨ Malformed s := by
  by_cases hnumber : ∃ n, Numeral s n ∧ n < 2 ^ 64
  · -- the flag gives the number, so the variable has kept it
    obtain ⟨n, hn, hhigh⟩ := hnumber
    refine .inl ⟨n, hn, hhigh, ?_⟩
    by_cases hsmall : n < 2 ^ 63
    · exact .inl hsmall
    · have hgives : VariableGives tree cwd order s (.ofNat (Binary64.nearestWord n)) :=
        variableGives_of_large hn (by omega) hhigh
      have hword : Binary64.nearestWord n < 2 ^ 64 := by
        unfold Binary64.nearestWord
        omega
      have hback : (UInt64.ofNat (Binary64.nearestWord n)).toNat = Binary64.nearestWord n :=
        UInt64.toNat_ofNat_of_lt' hword
      have hflag := flagGives_iff.mp ((h.given _).mp hgives)
      rw [hback] at hflag
      exact .inr ((Binary64.nearestWord_eq_self_iff hhigh).mp (hflag.unique hn))
  · -- the flag refuses the text, so the variable has refused it
    have hnumeral (n : Nat) (hn : Numeral s n) : 2 ^ 64 ≤ n :=
      Nat.le_of_not_lt fun hlt => hnumber ⟨n, hn, hlt⟩
    have hflag : FlagRefused s := flagRefused_iff.mpr hnumeral
    have hvariable : VariableRefused tree cwd order s := h.refused hflag
    refine .inr ?_
    constructor
    case numeral => exact hnumeral
    case truth =>
      refine Option.eq_none_iff_forall_ne_some.mpr fun b hb => ?_
      exact (variableGives_iff.mpr (variableWord_of_truthWord hb)).not_refused hvariable
    case zero =>
      intro hzero
      exact (variableGives_of_minusZero hzero).not_refused hvariable
    case float =>
      intro hread
      obtain ⟨x, hx⟩ := Option.ne_none_iff_exists'.mp hread
      refine Classical.byContradiction fun hminus => ?_
      have hbeyond (n : Nat) (hn : MinusNumeral s n) : 2 ^ 63 < n :=
        Nat.lt_of_not_le fun hsmall => hminus ⟨n, hn, hsmall⟩
      exact (variableGives_of_float hx hflag hbeyond).not_refused hvariable

end Agreement

/-- The flag takes numbers and nothing else. The variable also takes truth values, zero with a minus
sign and floating-point numbers, and rounds what is beyond the signed words. -/
theorem limit_readings (tree : FileTree) (cwd : Path) (order : HashOrder) (s : String) :
    LimitReadings tree cwd order s := by
  constructor
  case flag => exact fun n => flagGives_iff
  case small => exact fun n => variableGives_of_small
  case large => exact fun n => variableGives_of_large
  case truth => exact fun b hb => variableGives_iff.mpr (variableWord_of_truthWord hb)
  case minusZero => exact variableGives_of_minusZero
  case minus => exact fun n => variableRefused_of_minus
  case float => exact fun x => variableGives_of_float
  case malformed => exact Malformed.variableRefused
  case alike =>
    constructor
    · exact kept_or_malformed_of_alike
    · rintro (⟨n, hn, hhigh, hkept⟩ | hmalformed)
      · exact limitReadAlike_of_kept hn hhigh hkept
      · exact hmalformed.limitReadAlike

/-- What is no number takes the limit away, and a number beyond the signed words loses its last
digit; the flag refuses the one and keeps the other. -/
theorem limit_read_apart :
    let cwd : Path := [Path.slash]
    let large := "9223372036854775809"
    (VariableGives ⟨[]⟩ cwd .asListed "nan" 0 ∧ FlagRefused "nan" ∧
        ¬ LimitReadAlike ⟨[]⟩ cwd .asListed "nan") ∧
      VariableGives ⟨[]⟩ cwd .asListed large 9223372036854775808 ∧
        FlagGives large 9223372036854775809 ∧
        ¬ LimitReadAlike ⟨[]⟩ cwd .asListed large := by
  intro cwd large
  have hnan : VariableGives ⟨[]⟩ cwd .asListed "nan" 0 :=
    ⟨⟨some 0, false, none, none⟩, eq_ok_of_toOption (by decide +kernel), rfl⟩
  have hrefused : FlagRefused "nan" := by
    intro i hi
    have hnone : (ofArguments (limitFlag "nan").arguments none).toOption = none := by
      decide
    rw [hi] at hnone
    cases hnone
  have hlarge : VariableGives ⟨[]⟩ cwd .asListed large 9223372036854775808 :=
    ⟨⟨some 9223372036854775808, false, none, none⟩, eq_ok_of_toOption (by decide +kernel), rfl⟩
  have hflag : FlagGives large 9223372036854775809 :=
    ⟨⟨"reset_cache", Utf8.encode "/mnt", [], some 9223372036854775809, false, none,
      ⟨none, none, none⟩⟩, eq_ok_of_toOption (by decide), rfl⟩
  refine ⟨⟨hnan, hrefused, ?_⟩, hlarge, hflag, ?_⟩
  · intro halike
    exact hnan.not_refused (halike.refused hrefused)
  · intro halike
    have hsame : VariableGives ⟨[]⟩ cwd .asListed large 9223372036854775809 :=
      (halike.given _).mpr hflag
    exact absurd (hlarge.unique hsame) (by decide)

end MountControl
