import Mathlib.Data.List.Nodup
import MountControl.Proofs.ArgumentLines

namespace MountControl

namespace Reading

open Argument

variable {r : Reading} {n : Nat} {target : Option Reading} {v w : Option ArgumentValue}
  {line : List Argument}

/-- Values for different parameters go into different fields. -/
theorem keep_comm {v w : ArgumentValue} (h : v.parameter ≠ w.parameter) (r : Reading) :
    (r.keep v).keep w = (r.keep w).keep v := by
  cases v <;> cases w <;> first | rfl | exact absurd rfl h

def Apart (v w : Option ArgumentValue) : Prop :=
  ∀ a ∈ v, ∀ b ∈ w, a.parameter ≠ b.parameter

/-- What is kept of two arguments does not depend on their order, whether or not it can be kept at
all. -/
theorem keep?_comm (h : Apart v w) (target : Option Reading) :
    keep? (keep? target v) w = keep? (keep? target w) v := by
  rcases target with _ | r
  · rfl
  rcases v with _ | a
  · cases w <;> rfl
  rcases w with _ | b
  · rfl
  exact congrArg some (keep_comm (h a rfl b rfl) r)

/-- An argument may be moved past any number of others that are for other parameters. -/
theorem foldl_keep?_comm {vs : List (Option ArgumentValue)} (h : ∀ v ∈ vs, Apart w v)
    (target : Option Reading) :
    vs.foldl keep? (keep? target w) = keep? (vs.foldl keep? target) w := by
  induction vs generalizing target with
  | nil => rfl
  | cons v vs ih =>
    have hhead : Apart w v := h v List.mem_cons_self
    have htail : ∀ v ∈ vs, Apart w v := fun v hv => h v (List.mem_cons_of_mem _ hv)
    rw [List.foldl_cons, List.foldl_cons, keep?_comm hhead, ih htail]

def positionalValues (n : Nat) : List PlainArgument → List (Option ArgumentValue)
  | [] => []
  | a :: positionals =>
    (ArgumentValue.read (.ofPosition n) a.bytes).toOption :: positionalValues (n + 1) positionals

theorem parameter_of_mem_positionalValues {positionals : List PlainArgument}
    (hv : v ∈ positionalValues n positionals) {a : ArgumentValue} (ha : a ∈ v) :
    a.parameter ∉ Parameter.options := by
  induction positionals generalizing n with
  | nil => cases hv
  | cons b positionals ih =>
    rcases List.mem_cons.mp hv with rfl | hrest
    · rw [ArgumentValue.parameter_of_mem_read ha]
      exact ofPosition_not_option n
    · exact ih hrest

end Reading

theorem OptionUse.parameter_of_value? {u : OptionUse} {a : ArgumentValue} (h : a ∈ u.value?) :
    a.parameter = u.parameter := by
  cases u with
  | switch =>
    cases h
    rfl
  | attached p value isOption =>
    rw [value?] at h
    split at h
    · cases h
    · exact ArgumentValue.parameter_of_mem_read h
  | apart p value _ _ => exact ArgumentValue.parameter_of_mem_read h

namespace Reading

open Argument

variable {r : Reading} {n : Nat} {target : Option Reading} {line : List Argument}

/-- Keeping the values of a line comes to keeping those of its options last. -/
theorem foldl_valuesFrom (n : Nat) (line : List Argument) (target : Option Reading) :
    (valuesFrom n line).foldl keep? target =
      (line.filterMap Argument.option?).foldl (fun target u => keep? target u.value?)
        ((positionalValues n (line.filterMap Argument.positional?)).foldl keep? target) := by
  induction line generalizing n target with
  | nil => rfl
  | cons x line ih =>
    cases x with
    | positional a => exact ih (n + 1) _
    | option u =>
      have hapart : ∀ v ∈ positionalValues n (line.filterMap Argument.positional?),
          Apart u.value? v := by
        intro v hv a ha b hb heq
        have hoption : a.parameter ∈ Parameter.options := by
          rw [OptionUse.parameter_of_value? ha]
          exact u.parameter_mem_options
        exact parameter_of_mem_positionalValues hv hb (heq ▸ hoption)
      -- the value of the option can as well be kept after those of the positional arguments
      have hmoved := foldl_keep?_comm hapart target
      refine (ih n (keep? target u.value?)).trans ?_
      rw [hmoved]
      rfl

/-- Options of different parameters can be kept in any order. -/
theorem foldl_options_perm {us us' : List OptionUse} (hperm : us.Perm us')
    (hdistinct : (us.map OptionUse.parameter).Nodup) (target : Option Reading) :
    us.foldl (fun target u => keep? target u.value?) target =
      us'.foldl (fun target u => keep? target u.value?) target := by
  apply hperm.foldl_eq'
  intro u hu u' hu' target
  by_cases heq : u.parameter = u'.parameter
  · rw [List.inj_on_of_nodup_map hdistinct hu hu' heq]
  · apply keep?_comm
    intro a ha b hb
    rw [OptionUse.parameter_of_value? ha, OptionUse.parameter_of_value? hb]
    exact heq

end Reading

/-- Two lines have the same positional arguments in the same order, and the same options. -/
structure ArgumentLine.Interleaves (x y : ArgumentLine) : Prop where
  positionals : x.positionals = y.positionals
  options : x.options.Perm y.options

/-- Two lines with the same positional arguments in order and the same options in any order ask for
the same run, if they ask for one. -/
theorem ArgumentLine.Interleaves.invocation?_eq {x y : ArgumentLine} (h : x.Interleaves y)
    (config : Option Bytes) : x.invocation? config = y.invocation? config := by
  have hpositionals : x.line.filterMap Argument.positional? =
      y.line.filterMap Argument.positional? := h.positionals
  have hvalues : (Argument.valuesFrom 0 x.line).foldl Reading.keep? (some .initial) =
      (Argument.valuesFrom 0 y.line).foldl Reading.keep? (some .initial) := by
    rw [Reading.foldl_valuesFrom, Reading.foldl_valuesFrom, hpositionals]
    exact Reading.foldl_options_perm h.options x.distinct _
  rw [invocation?, invocation?, hvalues]

/-- However options and positional arguments are interleaved, the command line is understood in the
same way, or refused with status 2. -/
theorem Launch.readArguments_of_interleaved (l : Launch) {x y : ArgumentLine}
    (h : x.Interleaves y) :
    (∃ i, ({ l with arguments := x.arguments } : Launch).readArguments = .ok i ∧
      ({ l with arguments := y.arguments } : Launch).readArguments = .ok i) ∨
    (({ l with arguments := x.arguments } : Launch).run.exitCode = 2 ∧
      ({ l with arguments := y.arguments } : Launch).run.exitCode = 2 ∧
      ({ l with arguments := x.arguments } : Launch).readArguments = .error .usage ∧
      ({ l with arguments := y.arguments } : Launch).readArguments = .error .usage) := by
  have hx := l.readArguments_of_line x
  have hy := l.readArguments_of_line y
  rw [← h.invocation?_eq] at hy
  cases hi : x.invocation? (l.environmentValue? configVariable) with
  | some i =>
    rw [hi] at hx hy
    exact .inl ⟨i, hx, hy⟩
  | none =>
    rw [hi] at hx hy
    exact .inr ⟨(run_of_unread hx).2, (run_of_unread hy).2, hx, hy⟩

/-- Options between, before and after the positional arguments, and all of them at the ends. -/
theorem Launch.readArguments_of_scattered_options :
    let command : Argument := .positional ⟨Utf8.encode "Reset_Cache", by decide⟩
    let mount : Argument := .positional ⟨Utf8.encode "/mnt/irods", by decide⟩
    let first : Argument := .positional ⟨Utf8.encode "a", by decide⟩
    let second : Argument := .positional ⟨Utf8.encode "b", by decide⟩
    let limit : Argument := .option (.attached .timeoutMs (Utf8.encode "5") (by decide))
    let level : Argument :=
      .option (.apart .logLevel ⟨Utf8.encode "debug", by decide⟩ (by decide) (by decide))
    let json : Argument := .option .switch
    let x : ArgumentLine := ⟨[level, command, limit, mount, first, json, second], by decide⟩
    let y : ArgumentLine := ⟨[json, command, mount, first, second, limit, level], by decide⟩
    let l : Launch := ⟨[], Environment.encoded [(configVariable, "ctl.toml")], [Path.slash], ⟨[]⟩,
      fun _ _ => .reply 0 [], .unbounded, .asListed⟩
    let i : Invocation := ⟨"Reset_Cache", Utf8.encode "/mnt/irods", ["a", "b"], some 5, true,
      some (Utf8.encode "ctl.toml"), ⟨some .debug, none, none⟩⟩
    x.Interleaves y ∧ ({ l with arguments := x.arguments } : Launch).readArguments = .ok i ∧
      ({ l with arguments := y.arguments } : Launch).readArguments = .ok i := by
  intro command mount first second limit level json x y l i
  have hinterleaves : x.Interleaves y := by
    constructor
    case positionals => rfl
    case options => exact List.reverse_perm y.options
  have hx : ({ l with arguments := x.arguments } : Launch).readArguments = .ok i := by
    have hread : x.invocation? (l.environmentValue? configVariable) = some i := by
      decide
    rw [readArguments_of_line, hread]
  refine ⟨hinterleaves, hx, ?_⟩
  obtain ⟨i', hx', hy⟩ | ⟨-, -, hx', -⟩ := l.readArguments_of_interleaved hinterleaves
  · obtain rfl : i = i' := Except.ok.inj (hx.symm.trans hx')
    exact hy
  · cases hx.symm.trans hx'

end MountControl
