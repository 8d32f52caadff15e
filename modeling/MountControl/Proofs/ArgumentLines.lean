import MountControl.Proofs.ExitStatus
import MountControl.Proofs.ReadyReadings
import MountControl.Proofs.Utf8Text

namespace MountControl

structure PlainArgument where
  bytes : Bytes
  undashed : bytes.head? ≠ some Token.dash

/-- An option as it is used: the switch by itself, an option with a value attached, or an option
with its value as the argument that follows. -/
inductive OptionUse
  | switch
  | attached (p : Parameter) (value : Bytes) (isOption : p ∈ Parameter.options)
  | apart (p : Parameter) (value : PlainArgument) (isOption : p ∈ Parameter.options)
      (takesValue : p ≠ .json)

namespace OptionUse

def parameter : OptionUse → Parameter
  | switch => .json
  | attached p _ _ => p
  | apart p _ _ _ => p

def dashed (p : Parameter) : Bytes :=
  Token.dash :: Token.dash :: Utf8.encode p.longName

def arguments : OptionUse → List Bytes
  | switch => [dashed .json]
  | attached p value _ => [dashed p ++ Token.equals :: value]
  | apart p value _ _ => [dashed p, value.bytes]

/-- What is read of an option. The switch takes no value. -/
def value? : OptionUse → Option ArgumentValue
  | switch => some .json
  | attached p value _ => if p = .json then none else (ArgumentValue.read p value).toOption
  | apart p value _ _ => (ArgumentValue.read p value.bytes).toOption

theorem parameter_mem_options (u : OptionUse) : u.parameter ∈ Parameter.options := by
  cases u with
  | switch => decide
  | attached p value isOption => exact isOption
  | apart p value isOption _ => exact isOption

end OptionUse

namespace Token

theorem ofBytes_plain (a : PlainArgument) : ofBytes a.bytes = .plain a.bytes :=
  ofBytes_of_undashed a.undashed

theorem ofBytes_dashed : ∀ p ∈ Parameter.options,
    ofBytes (OptionUse.dashed p) = .long (Utf8.encode p.longName) none := by
  decide

theorem longName_equals_free : ∀ p ∈ Parameter.options,
    ∀ b ∈ Utf8.encode p.longName, decide (b ≠ equals) = true := by
  decide +kernel

/-- An option with its value behind an equals sign is taken apart at the first such sign, which no
name of an option has. -/
theorem ofBytes_attached {p : Parameter} (hp : p ∈ Parameter.options) (value : Bytes) :
    ofBytes (OptionUse.dashed p ++ equals :: value) =
      .long (Utf8.encode p.longName) (some value) := by
  have hequals := longName_equals_free p hp
  have hne : Utf8.encode p.longName ++ equals :: value ≠ [] :=
    List.append_ne_nil_of_right_ne_nil _ (List.cons_ne_nil _ _)
  rw [OptionUse.dashed, List.cons_append, List.cons_append, ofBytes, if_pos ⟨rfl, rfl⟩, if_neg hne,
    List.dropWhile_append_of_pos hequals, List.takeWhile_append_of_pos hequals]
  simp

end Token

namespace Reading

variable {r : Reading} {p : Parameter} {n : Nat} {later : List Parameter}

theorem takeLong_switch (r : Reading) :
    r.takeLong (Utf8.encode Parameter.json.longName) none =
      (r.settle.mapError .usage >>= fun r => (r.give .json [[]]).mapError .usage) := by
  unfold takeLong
  rw [Utf8.decode?_encode]
  rfl

theorem takeLong_switch_attached (r : Reading) (value : Bytes) :
    r.takeLong (Utf8.encode Parameter.json.longName) (some value) =
      .error (.usage (.unexpectedValue "--json" (Utf8.lossy value))) := by
  unfold takeLong
  rw [Utf8.decode?_encode]
  rfl

/-- An option with its value attached is kept at once, after what was pending. -/
theorem takeLong_attached (r : Reading) (hp : p ∈ Parameter.options) (hvalue : p ≠ .json)
    (value : Bytes) :
    r.takeLong (Utf8.encode p.longName) (some value) =
      (r.settle.mapError .usage >>= fun r => (r.give p [value]).mapError .usage) := by
  unfold takeLong
  rw [Utf8.decode?_encode]
  cases p
  case command | mount | extra => exact absurd hp (by decide)
  case json => exact absurd rfl hvalue
  all_goals rfl

/-- An option without a value is left pending, so that the next argument can be its value. -/
theorem takeLong_apart (r : Reading) (hp : p ∈ Parameter.options) (hvalue : p ≠ .json) :
    r.takeLong (Utf8.encode p.longName) none =
      (r.settle.mapError .usage).map fun r => { r with pending := some (p, []) } := by
  unfold takeLong
  rw [Utf8.decode?_encode]
  cases p
  case command | mount | extra => exact absurd hp (by decide)
  case json => exact absurd rfl hvalue
  all_goals rfl

/-- The argument after an option that awaits its value. -/
theorem take_awaited (hparsing : r.onlyPositionals = false) (hp : p ∈ Parameter.options)
    (hpending : r.pending = some (p, [])) (a : PlainArgument) :
    r.take a.bytes = .ok { r with pending := some (p, [a.bytes]) } := by
  have hawaits : r.awaitsValue = true := by
    rw [awaitsValue, hpending]
    exact Bool.and_eq_true_iff.mpr ⟨decide_eq_true hp, rfl⟩
  exact take_of_awaited hparsing (Token.ofBytes_plain a) hawaits hpending

/-- A positional argument settles what was pending and takes the next place. -/
theorem Ready.positional_advances (h : r.Ready n (Parameter.ofPosition n :: later))
    (a : PlainArgument) :
    Advances (n + 1) later
      (keep? r.outcome (ArgumentValue.read (Parameter.ofPosition n) a.bytes).toOption)
      (r.take a.bytes) := by
  rw [take_of_isPositional (.inr ⟨Token.ofBytes_plain a, h.not_awaitsValue⟩)]
  exact h.takePositional_advances a.bytes

/-- An option with all of its arguments is kept, however it is written. -/
theorem Ready.option_advances (u : OptionUse) (h : r.Ready n (u.parameter :: later)) :
    Advances n later (keep? r.outcome u.value?) (u.arguments.foldlM take r) := by
  cases u with
  | switch =>
    have htake : OptionUse.switch.arguments.foldlM take r =
        (r.settle.mapError .usage >>= fun r => (r.give .json [[]]).mapError .usage) := by
      have hbytes := Token.ofBytes_dashed .json (by decide)
      rw [OptionUse.arguments, List.foldlM_cons, take_of_long h.parsing hbytes, takeLong_switch]
      exact bind_pure _
    rw [htake]
    apply h.advances_of_settle
    intro r' hready hidle
    exact hready.give_advances hidle []
  | attached p value isOption =>
    have htake : (OptionUse.attached p value isOption).arguments.foldlM take r =
        r.takeLong (Utf8.encode p.longName) (some value) := by
      have hbytes := Token.ofBytes_attached isOption value
      rw [OptionUse.arguments, List.foldlM_cons, take_of_long h.parsing hbytes]
      exact bind_pure _
    rw [htake, OptionUse.value?]
    by_cases hswitch : p = .json
    · subst hswitch
      rw [takeLong_switch_attached, if_pos rfl]
      cases r.outcome <;> rfl
    · rw [takeLong_attached r isOption hswitch, if_neg hswitch]
      apply h.advances_of_settle
      intro r' hready hidle
      exact hready.give_advances hidle value
  | apart p value isOption takesValue =>
    have htake : (OptionUse.apart p value isOption takesValue).arguments.foldlM take r =
        (r.settle.mapError .usage >>= fun r =>
          take { r with pending := some (p, []) } value.bytes) := by
      have hbytes := Token.ofBytes_dashed p isOption
      rw [OptionUse.arguments, List.foldlM_cons, take_of_long h.parsing hbytes,
        takeLong_apart r isOption takesValue]
      cases r.settle with
      | error e => rfl
      | ok r' => exact bind_pure (take { r' with pending := some (p, []) } value.bytes)
    rw [htake]
    apply h.advances_of_settle
    intro r' hready hidle
    have hawaited := take_awaited (r := { r' with pending := some (p, []) }) hready.parsing isOption
      rfl value
    rw [hawaited]
    exact hready.collect_advances hidle value.bytes hready.position

end Reading

inductive Argument
  | positional (a : PlainArgument)
  | option (u : OptionUse)

namespace Argument

def arguments : Argument → List Bytes
  | positional a => [a.bytes]
  | option u => u.arguments

def positional? : Argument → Option PlainArgument
  | positional a => some a
  | option _ => none

def option? : Argument → Option OptionUse
  | positional _ => none
  | option u => some u

def parametersFrom (n : Nat) : List Argument → List Parameter
  | [] => []
  | positional _ :: line => .ofPosition n :: parametersFrom (n + 1) line
  | option u :: line => u.parameter :: parametersFrom n line

def valuesFrom (n : Nat) : List Argument → List (Option ArgumentValue)
  | [] => []
  | positional a :: line =>
    (ArgumentValue.read (.ofPosition n) a.bytes).toOption :: valuesFrom (n + 1) line
  | option u :: line => u.value? :: valuesFrom n line

end Argument

structure ArgumentLine where
  line : List Argument
  distinct : ((line.filterMap Argument.option?).map OptionUse.parameter).Nodup

namespace ArgumentLine

def positionals (x : ArgumentLine) : List PlainArgument :=
  x.line.filterMap Argument.positional?

def options (x : ArgumentLine) : List OptionUse :=
  x.line.filterMap Argument.option?

def arguments (x : ArgumentLine) : List Bytes :=
  x.line.flatMap Argument.arguments

end ArgumentLine

namespace Reading

open Argument

variable {r : Reading} {n : Nat} {later : List Parameter} {target : Option Reading}
  {line : List Argument}

theorem foldl_keep?_none (vs : List (Option ArgumentValue)) : vs.foldl keep? none = none := by
  induction vs with
  | nil => rfl
  | cons v vs ih => exact ih

/-- Reading a line comes to keeping its values one after the other. -/
theorem Ready.line_advances (h : r.Ready n (parametersFrom n line)) :
    ∃ m, Advances m [] ((valuesFrom n line).foldl keep? r.outcome)
      ((line.flatMap Argument.arguments).foldlM take r) := by
  -- what is left of the line after a step that advanced
  have hrest (line : List Argument) (m : Nat) (target : Option Reading)
      (result : Except EarlyStop Reading) (hstep : Advances m (parametersFrom m line) target result)
      (ih : ∀ r : Reading, r.Ready m (parametersFrom m line) →
        ∃ k, Advances k [] ((valuesFrom m line).foldl keep? r.outcome)
          ((line.flatMap Argument.arguments).foldlM take r)) :
      ∃ k, Advances k [] ((valuesFrom m line).foldl keep? target)
        (result >>= (line.flatMap Argument.arguments).foldlM take) := by
    rcases result with (_ | _ | e) | r'
    · exact hstep.elim
    · exact hstep.elim
    · obtain rfl : target = none := hstep
      exact ⟨0, foldl_keep?_none _⟩
    · obtain ⟨hready, rfl⟩ : r'.Ready m _ ∧ r'.outcome = target := hstep
      exact ih r' hready
  induction line generalizing n r with
  | nil => exact ⟨n, h, rfl⟩
  | cons x line ih =>
    rw [List.flatMap_cons, List.foldlM_append]
    cases x with
    | positional a =>
      have htake : (Argument.positional a).arguments.foldlM take r = r.take a.bytes :=
        bind_pure (r.take a.bytes)
      rw [htake]
      exact hrest line (n + 1) _ _ (h.positional_advances a) fun r' => ih
    | option u => exact hrest line n _ _ (h.option_advances u) fun r' => ih

/-- What a line gives is one of its options or stands in a place. -/
theorem mem_parametersFrom {p : Parameter} (h : p ∈ parametersFrom n line) :
    p ∈ (line.filterMap Argument.option?).map OptionUse.parameter ∨
      ∃ m, n ≤ m ∧ p = .ofPosition m := by
  induction line generalizing n with
  | nil => cases h
  | cons x line ih =>
    cases x with
    | positional a =>
      rcases List.mem_cons.mp h with rfl | hrest
      · exact .inr ⟨n, Nat.le_refl n, rfl⟩
      · obtain hoption | ⟨m, hm, rfl⟩ := ih hrest
        · exact .inl hoption
        · exact .inr ⟨m, by omega, rfl⟩
    | option u =>
      have hoptions : (Argument.option u :: line).filterMap Argument.option? =
          u :: line.filterMap Argument.option? := rfl
      rw [hoptions, List.map_cons]
      rcases List.mem_cons.mp h with rfl | hrest
      · exact .inl List.mem_cons_self
      · obtain hoption | hposition := ih hrest
        · exact .inl (List.mem_cons_of_mem _ hoption)
        · exact .inr hposition

theorem ofPosition_not_option (n : Nat) : Parameter.ofPosition n ∉ Parameter.options := by
  rcases n with _ | _ | n
  · decide
  · decide
  · exact (by decide : Parameter.extra ∉ Parameter.options)

theorem mem_options_of_mem_map {us : List OptionUse} {p : Parameter}
    (h : p ∈ us.map OptionUse.parameter) : p ∈ Parameter.options := by
  obtain ⟨u, -, rfl⟩ := List.mem_map.mp h
  exact u.parameter_mem_options

/-- On a line without repeated options only the last positional parameter comes up again. -/
theorem pairwise_parametersFrom
    (h : ((line.filterMap Argument.option?).map OptionUse.parameter).Nodup) :
    (parametersFrom n line).Pairwise fun p q => p = q → p = .extra := by
  induction line generalizing n with
  | nil => exact List.Pairwise.nil
  | cons x line ih =>
    cases x with
    | positional a =>
      refine List.pairwise_cons.mpr ⟨?_, ih h⟩
      rintro q hq rfl
      obtain hoption | ⟨m, hm, heq⟩ := mem_parametersFrom hq
      · exact absurd (mem_options_of_mem_map hoption) (ofPosition_not_option n)
      · -- the command and the mount have a position of their own each
        rcases n with _ | _ | n
        · obtain ⟨m, rfl⟩ : ∃ k, m = k + 1 := ⟨m - 1, by omega⟩
          rcases m <;> cases heq
        · obtain ⟨m, rfl⟩ : ∃ k, m = k + 2 := ⟨m - 2, by omega⟩
          cases heq
        · rfl
    | option u =>
      obtain ⟨hnew, hrest⟩ : u.parameter ∉ (line.filterMap Argument.option?).map
          OptionUse.parameter ∧ _ := List.nodup_cons.mp h
      refine List.pairwise_cons.mpr ⟨?_, ih hrest⟩
      rintro q hq rfl
      obtain hoption | ⟨m, hm, heq⟩ := mem_parametersFrom hq
      · exact absurd hoption hnew
      · exact absurd (heq ▸ u.parameter_mem_options) (ofPosition_not_option m)

/-- Nothing is read at first, so all that is to come is fresh. -/
theorem ready_initial (hdistinct : later.Pairwise fun p q => p = q → p = .extra) :
    initial.Ready 0 later := by
  constructor
  case parsing | position => rfl
  case collected | unrepeated | fresh | config => nofun
  case distinct => exact hdistinct

def withConfig (r : Reading) (config : Option Bytes) : Option Reading :=
  match config, r.config with
  | some value, none => keep? (some r) (ArgumentValue.read .config value).toOption
  | _, _ => some r

def invocation? (r : Reading) : Option Invocation :=
  match r.command, r.mount with
  | some command, some mount =>
    some ⟨command, mount, r.extras, r.timeoutMs, r.json, r.config, r.logging⟩
  | _, _ => none

end Reading

def ArgumentLine.invocation? (x : ArgumentLine) (config : Option Bytes) : Option Invocation := do
  let r ← (Argument.valuesFrom 0 x.line).foldl Reading.keep? (some .initial)
  let r ← r.withConfig config
  r.invocation?

namespace Reading

variable {r : Reading} {n : Nat} {config : Option Bytes}

/-- A settings file from the environment is read as one from the command line. -/
theorem Ready.fillConfig_eq (h : r.Ready n []) (config : Option Bytes) :
    (r.fillConfig config).toOption.map bare = r.bare.withConfig config := by
  unfold fillConfig withConfig
  change _ = match config, r.config with
    | some value, none => keep? (some r.bare) (ArgumentValue.read .config value).toOption
    | _, _ => some r.bare
  cases hfile : r.config with
  | some path => cases config <;> rfl
  | none =>
    cases config with
    | none => rfl
    | some value =>
      have hnew : Parameter.config ∉ r.given := fun hmem => h.config hmem hfile
      have hgive := give_eq (List.cons_ne_nil value [])
        (fun hmem : Parameter.config ∈ r.given => absurd hmem hnew)
      dsimp only
      rw [hgive, foldlM_store, keepAll_singleton]
      rfl

def Yields (o : Option Invocation) : Except UsageError CommandLine → Prop
  | .ok (.run i) => o = some i
  | .error _ | .ok .nothing => o = none
  | _ => False

theorem eq_run_iff_of_yields {o : Option Invocation} {result : Except UsageError CommandLine}
    (h : Yields o result) {i : Invocation} : result = .ok (.run i) ↔ o = some i := by
  rcases result with e | (i' | _ | _ | _)
  · have hnone : o = none := h
    rw [hnone]
    exact iff_of_false nofun nofun
  · have hsome : o = some i' := h
    rw [hsome, Except.ok.injEq, CommandLine.run.injEq, Option.some.injEq]
  · exact h.elim
  · exact h.elim
  · have hnone : o = none := h
    rw [hnone]
    exact iff_of_false nofun nofun

/-- A run is asked for just where both a command and a mount were given. -/
theorem finish_yields (r : Reading) : Yields r.bare.invocation? r.finish := by
  change Yields (match r.command, r.mount with
    | some command, some mount =>
      some ⟨command, mount, r.extras, r.timeoutMs, r.json, r.config, r.logging⟩
    | _, _ => none) r.finish
  unfold finish
  cases r.command with
  | none =>
    dsimp only
    split <;> rfl
  | some command => cases r.mount <;> rfl

end Reading

/-- A line comes to the invocation that keeping its values comes to. -/
theorem CommandLine.ofArguments_of_line (x : ArgumentLine) (config : Option Bytes) :
    Reading.Yields (x.invocation? config) (CommandLine.ofArguments x.arguments config) := by
  have hready : Reading.initial.Ready 0 (Argument.parametersFrom 0 x.line) :=
    Reading.ready_initial (Reading.pairwise_parametersFrom x.distinct)
  obtain ⟨m, hadvances⟩ := hready.line_advances
  rw [Reading.outcome_of_idle (by rfl)] at hadvances
  change Reading.Advances m [] ((Argument.valuesFrom 0 x.line).foldl Reading.keep? (some .initial))
    (x.arguments.foldlM Reading.take Reading.initial) at hadvances
  rw [CommandLine.ofArguments, ArgumentLine.invocation?]
  generalize (Argument.valuesFrom 0 x.line).foldl Reading.keep? (some .initial) = target
    at hadvances
  generalize x.arguments.foldlM Reading.take Reading.initial = result at hadvances
  rcases result with (_ | _ | e) | r
  · exact hadvances.elim
  · exact hadvances.elim
  · obtain rfl : target = none := hadvances
    rfl
  · obtain ⟨hready, rfl⟩ : r.Ready m [] ∧ r.outcome = target := hadvances
    dsimp only
    cases hsettle : r.settle with
    | error e =>
      rw [Reading.outcome_of_unsettled hsettle]
      rfl
    | ok r' =>
      obtain ⟨hready', -⟩ := hready.settle hsettle
      rw [Reading.outcome_of_settled hsettle]
      dsimp only [bind, Option.bind, Except.bind]
      rw [← hready'.fillConfig_eq config]
      cases r'.fillConfig config with
      | error e => rfl
      | ok filled => exact filled.finish_yields

namespace Launch

/-- A line is understood as what keeping its values comes to, or refused. -/
theorem readArguments_of_line (l : Launch) (x : ArgumentLine) :
    ({ l with arguments := x.arguments } : Launch).readArguments =
      match x.invocation? (l.environmentValue? configVariable) with
      | some i => .ok i
      | none => .error .usage := by
  have hyields := CommandLine.ofArguments_of_line x (l.environmentValue? configVariable)
  -- the environment is looked at, and that is the launch's own
  have henvironment :
      ({ l with arguments := x.arguments } : Launch).environmentValue? configVariable =
        l.environmentValue? configVariable := rfl
  unfold readArguments
  rw [henvironment]
  dsimp only
  generalize CommandLine.ofArguments x.arguments (l.environmentValue? configVariable) = result
    at hyields
  rcases result with e | (i | _ | _ | _)
  · have heq : x.invocation? (l.environmentValue? configVariable) = none := hyields
    rw [heq]
  · have heq : x.invocation? (l.environmentValue? configVariable) = some i := hyields
    rw [heq]
  · exact hyields.elim
  · exact hyields.elim
  · have heq : x.invocation? (l.environmentValue? configVariable) = none := hyields
    rw [heq]

end Launch

end MountControl
