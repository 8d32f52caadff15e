import MountControl.CommandLine.Invocation

namespace MountControl

inductive ArgumentValue
  | command (name : String)
  | mount (path : Path)
  | extra (text : String)
  | timeoutMs (n : UInt64)
  | json
  | config (path : Path)
  | logLevel (level : Severity)
  | logFormat (format : LogFormat)
  | logFile (path : Path)

namespace ArgumentValue

def parameter : ArgumentValue → Parameter
  | command _ => .command
  | mount _ => .mount
  | extra _ => .extra
  | timeoutMs _ => .timeoutMs
  | json => .json
  | config _ => .config
  | logLevel _ => .logLevel
  | logFormat _ => .logFormat
  | logFile _ => .logFile

def read (p : Parameter) (bytes : Bytes) : Except UsageError ArgumentValue :=
  match p with
  | .command => (Reading.readText bytes).map command
  | .mount => (Reading.readPath p bytes).map mount
  | .extra => (Reading.readText bytes).map extra
  | .timeoutMs => do
    let text ← Reading.readText bytes
    match readWord64 text with
    | .ok n => return timeoutMs n
    | .error fault => throw (.badNumber p text fault)
  | .json => return json
  | .config => (Reading.readPath p bytes).map config
  | .logLevel => (Reading.readChoice p Severity.byName bytes).map logLevel
  | .logFormat => (Reading.readChoice p LogFormat.byName bytes).map logFormat
  | .logFile => (Reading.readPath p bytes).map logFile

theorem parameter_of_read {p : Parameter} {bytes : Bytes} {v : ArgumentValue}
    (h : read p bytes = .ok v) : v.parameter = p := by
  unfold read at h
  cases p
  case timeoutMs =>
    dsimp only [bind, Except.bind] at h
    cases htext : Reading.readText bytes with
    | error e => rw [htext] at h; cases h
    | ok text =>
      rw [htext] at h
      dsimp only at h
      cases hn : readWord64 text with
      | error fault => rw [hn] at h; cases h
      | ok n => rw [hn] at h; cases h; rfl
  case json => cases h; rfl
  case command | extra =>
    dsimp only at h
    generalize Reading.readText bytes = x at h
    cases x <;> cases h
    rfl
  case mount | config | logFile =>
    dsimp only at h
    generalize Reading.readPath _ bytes = x at h
    cases x <;> cases h
    rfl
  case logLevel =>
    dsimp only at h
    generalize Reading.readChoice _ Severity.byName bytes = x at h
    cases x <;> cases h
    rfl
  case logFormat =>
    dsimp only at h
    generalize Reading.readChoice _ LogFormat.byName bytes = x at h
    cases x <;> cases h
    rfl

theorem parameter_of_mem_read {p : Parameter} {bytes : Bytes} {v : ArgumentValue}
    (h : v ∈ (read p bytes).toOption) : v.parameter = p := by
  cases hread : read p bytes with
  | error e =>
    rw [hread] at h
    cases h
  | ok v' =>
    rw [hread] at h
    have hv : v' = v := Option.some.inj h
    exact hv ▸ parameter_of_read hread

end ArgumentValue

namespace Reading

variable {r r' : Reading} {p : Parameter} {v : ArgumentValue} {bytes : Bytes}

def keep (r : Reading) : ArgumentValue → Reading
  | .command name => { r with command := some name }
  | .mount path => { r with mount := some path }
  | .extra text => { r with extras := r.extras ++ [text] }
  | .timeoutMs n => { r with timeoutMs := some n }
  | .json => { r with json := true }
  | .config path => { r with config := some path }
  | .logLevel level => { r with logging := { r.logging with level := some level } }
  | .logFormat format => { r with logging := { r.logging with format := some format } }
  | .logFile path => { r with logging := { r.logging with file := some path } }

/-- To store is to read, which may fail, and then to keep. -/
theorem store_eq (r : Reading) (p : Parameter) (bytes : Bytes) :
    r.store p bytes = (ArgumentValue.read p bytes).map r.keep := by
  unfold store ArgumentValue.read
  cases p
  case timeoutMs =>
    dsimp only
    cases htext : readText bytes with
    | error e => rfl
    | ok text =>
      dsimp only [bind, Except.bind]
      cases readWord64 text <;> rfl
  case json => rfl
  case command | extra => dsimp only; cases readText bytes <;> rfl
  case mount | config | logFile => dsimp only; cases readPath _ bytes <;> rfl
  case logLevel => dsimp only; cases readChoice _ Severity.byName bytes <;> rfl
  case logFormat => dsimp only; cases readChoice _ LogFormat.byName bytes <;> rfl

def bare (r : Reading) : Reading :=
  { r with given := [], pending := none, positionals := 0, onlyPositionals := false }

def outcome (r : Reading) : Option Reading :=
  r.settle.toOption.map bare

def keep? (o : Option Reading) (v : Option ArgumentValue) : Option Reading :=
  o.bind fun r => v.map r.keep

def keepAll (p : Parameter) (values : List Bytes) (o : Option Reading) : Option Reading :=
  values.foldl (fun o bytes => keep? o (ArgumentValue.read p bytes).toOption) o

theorem bare_keep (r : Reading) (v : ArgumentValue) : (r.keep v).bare = r.bare.keep v := by
  cases v <;> rfl

theorem keepAll_none (p : Parameter) (values : List Bytes) : keepAll p values none = none := by
  induction values with
  | nil => rfl
  | cons bytes values ih => exact ih

theorem keepAll_singleton (p : Parameter) (bytes : Bytes) (o : Option Reading) :
    keepAll p [bytes] o = keep? o (ArgumentValue.read p bytes).toOption :=
  rfl

theorem keepAll_concat (p : Parameter) (values : List Bytes) (bytes : Bytes) (o : Option Reading) :
    keepAll p (values ++ [bytes]) o =
      keep? (keepAll p values o) (ArgumentValue.read p bytes).toOption := by
  rw [keepAll, List.foldl_append]
  rfl

theorem outcome_of_idle (h : r.pending = none) : r.outcome = some r.bare := by
  rw [outcome, settle, h]
  rfl

/-- A reading comes to what it has once it is settled. -/
theorem outcome_of_settled (h : r.settle = .ok r') : r.outcome = some r'.bare := by
  rw [outcome, h]
  rfl

theorem outcome_of_unsettled {e : UsageError} (h : r.settle = .error e) : r.outcome = none := by
  rw [outcome, h]
  rfl

structure Frame (r r' : Reading) : Prop where
  given : r'.given = r.given
  pending : r'.pending = r.pending
  positionals : r'.positionals = r.positionals
  onlyPositionals : r'.onlyPositionals = r.onlyPositionals
  config : r.config ≠ none → r'.config ≠ none

theorem Frame.refl (r : Reading) : Frame r r :=
  ⟨rfl, rfl, rfl, rfl, id⟩

theorem Frame.trans {r₁ r₂ r₃ : Reading} (h : Frame r₁ r₂) (h' : Frame r₂ r₃) : Frame r₁ r₃ where
  given := h'.given.trans h.given
  pending := h'.pending.trans h.pending
  positionals := h'.positionals.trans h.positionals
  onlyPositionals := h'.onlyPositionals.trans h.onlyPositionals
  config := h'.config ∘ h.config

theorem frame_keep (r : Reading) (v : ArgumentValue) : Frame r (r.keep v) := by
  cases v
  case config path => exact ⟨rfl, rfl, rfl, rfl, fun _ => nofun⟩
  all_goals exact ⟨rfl, rfl, rfl, rfl, id⟩

theorem config_keep_of_parameter (h : v.parameter = .config) : (r.keep v).config ≠ none := by
  cases v <;> cases h
  nofun

/-- Storing values one by one keeps them all. -/
theorem foldlM_store (p : Parameter) (values : List Bytes) (r : Reading) :
    (values.foldlM (fun r bytes => store r p bytes) r).toOption.map bare =
      keepAll p values (some r.bare) := by
  -- on the values: after an error neither side keeps anything more
  induction values generalizing r with
  | nil => rfl
  | cons bytes values ih =>
    rw [List.foldlM_cons, store_eq]
    change _ = keepAll p values (keep? (some r.bare) (ArgumentValue.read p bytes).toOption)
    cases ArgumentValue.read p bytes with
    | error e => exact (keepAll_none p values).symm
    | ok v =>
      change _ = keepAll p values (some (r.bare.keep v))
      rw [← bare_keep]
      exact ih (r.keep v)

/-- Storing values changes the fields that hold them and none of those that steer the reading; a
settings file, once named, stays named. -/
theorem frame_foldlM_store {values : List Bytes}
    (h : values.foldlM (fun r bytes => store r p bytes) r = .ok r') :
    Frame r r' ∧ (p = .config → values ≠ [] → r'.config ≠ none) := by
  induction values generalizing r with
  | nil =>
    cases h
    exact ⟨Frame.refl _, fun _ hne => absurd rfl hne⟩
  | cons bytes values ih =>
    rw [List.foldlM_cons, store_eq] at h
    cases hread : ArgumentValue.read p bytes with
    | error e =>
      rw [hread] at h
      cases h
    | ok v =>
      rw [hread] at h
      obtain ⟨hframe, -⟩ := ih h
      refine ⟨(frame_keep r v).trans hframe, fun hp _ => ?_⟩
      have hv := ArgumentValue.parameter_of_read hread
      exact hframe.config (config_keep_of_parameter (hv.trans hp))

end Reading

end MountControl
