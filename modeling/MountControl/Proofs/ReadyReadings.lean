import MountControl.Proofs.ArgumentSteps

namespace MountControl

namespace Parameter

def ofPosition : Nat → Parameter
  | 0 => command
  | 1 => mount
  | _ => extra

theorem ofPosition_min (n : Nat) : ofPosition (min n 2) = ofPosition n := by
  rcases n with _ | _ | n
  · rfl
  · rfl
  · rw [Nat.min_eq_right (Nat.le_add_left 2 n)]
    rfl

theorem ofPosition_eq_extra_iff {n : Nat} : ofPosition n = extra ↔ 2 ≤ n := by
  rcases n with _ | _ | n
  · decide
  · decide
  · exact iff_of_true rfl (Nat.le_add_left 2 n)

end Parameter

namespace Reading

variable {r r' : Reading} {p : Parameter} {n n' : Nat} {later : List Parameter}
  {values : List Bytes} {bytes : Bytes} {target : Option Reading} {v : Option ArgumentValue}

def claimed (r : Reading) : List Parameter :=
  (r.pending.map Prod.fst).toList ++ r.given

/-- A command line is read so far, after a number of positional arguments and with parameters that
are still to come: nothing is given twice, and nothing awaits its value. -/
structure Ready (r : Reading) (n : Nat) (later : List Parameter) : Prop where
  parsing : r.onlyPositionals = false
  position : min r.positionals 2 = min n 2
  collected : ∀ p values, r.pending = some (p, values) → values ≠ []
  unrepeated : ∀ p values, r.pending = some (p, values) → p ∈ r.given → p = .extra
  fresh : ∀ p ∈ later, p ∈ r.claimed → p = .extra
  distinct : later.Pairwise fun p q => p = q → p = .extra
  config : .config ∈ r.given → r.config ≠ none

/-- What the next step makes of a reading: it goes on with what was to be kept, or stops with an
error in the use of the command line where that cannot be kept. -/
def Advances (n : Nat) (later : List Parameter) (target : Option Reading) :
    Except EarlyStop Reading → Prop
  | .ok r => r.Ready n later ∧ r.outcome = target
  | .error (.usage _) => target = none
  | .error _ => False

theorem claimed_of_idle (hidle : r.pending = none) : r.claimed = r.given := by
  rw [claimed, hidle]
  rfl

theorem Ready.fresh_of_idle (h : r.Ready n (p :: later)) (hidle : r.pending = none) :
    p ∈ r.given → p = .extra := by
  intro hgiven
  apply h.fresh p List.mem_cons_self
  rw [claimed_of_idle hidle]
  exact hgiven

/-- Giving a parameter its values takes none of those that are still to come. -/
theorem Ready.fresh_after (h : r.Ready n (p :: later)) (hidle : r.pending = none) {q : Parameter}
    (hq : q ∈ later) (hgiven : q ∈ p :: r.given) : q = .extra := by
  rcases List.mem_cons.mp hgiven with rfl | hgiven
  · exact (List.pairwise_cons.mp h.distinct).1 q hq rfl
  · apply h.fresh q (List.mem_cons_of_mem p hq)
    rw [claimed_of_idle hidle]
    exact hgiven

theorem Ready.tail (h : r.Ready n (p :: later)) : r.Ready n later :=
  { h with
    fresh := fun q hq => h.fresh q (List.mem_cons_of_mem p hq)
    distinct := (List.pairwise_cons.mp h.distinct).2 }

/-- A parameter that is still to come may be given its values. -/
theorem Ready.give (h : r.Ready n (p :: later)) (hidle : r.pending = none) (hvalues : values ≠ []) :
    (r.give p values).toOption.map bare = keepAll p values (some r.bare) ∧
      ∀ r', r.give p values = .ok r' → r'.Ready n later ∧ r'.pending = none := by
  rw [give_eq hvalues (h.fresh_of_idle hidle)]
  refine ⟨foldlM_store p values _, ?_⟩
  intro r' hr'
  obtain ⟨hframe, hconfig⟩ := frame_foldlM_store hr'
  have hpending : r'.pending = none := hframe.pending.trans hidle
  refine ⟨?_, hpending⟩
  constructor
  case parsing => exact hframe.onlyPositionals.trans h.parsing
  case position =>
    rw [hframe.positionals]
    exact h.position
  case collected | unrepeated =>
    intro q values hq
    rw [hpending] at hq
    cases hq
  case fresh =>
    intro q hq hclaimed
    rw [claimed_of_idle hpending, hframe.given] at hclaimed
    exact h.fresh_after hidle hq hclaimed
  case distinct => exact h.tail.distinct
  case config =>
    intro hmem
    rw [hframe.given] at hmem
    rcases List.mem_cons.mp hmem with hp | hgiven
    · exact hconfig hp.symm hvalues
    · exact hframe.config (h.config hgiven)

/-- The values that were collected for a parameter are set aside. -/
theorem Ready.idle (h : r.Ready n later) (hpending : r.pending = some (p, values)) :
    ({ r with pending := none } : Reading).Ready n (p :: later) := by
  have hclaimed : r.claimed = p :: r.given := by
    rw [claimed, hpending]
    rfl
  constructor
  case parsing => exact h.parsing
  case position => exact h.position
  case collected | unrepeated => nofun
  case fresh =>
    intro q hq hgiven
    rcases List.mem_cons.mp hq with rfl | hq
    · exact h.unrepeated q values hpending hgiven
    · apply h.fresh q hq
      rw [hclaimed]
      exact List.mem_cons_of_mem p hgiven
  case distinct =>
    refine List.pairwise_cons.mpr ⟨?_, h.distinct⟩
    rintro q hq rfl
    apply h.fresh p hq
    rw [hclaimed]
    exact List.mem_cons_self
  case config => exact h.config

/-- What is pending counts as kept already. -/
theorem Ready.outcome_of_pending (h : r.Ready n later) (hpending : r.pending = some (p, values)) :
    r.outcome = keepAll p values (some r.bare) := by
  have hgive := (h.idle hpending).give rfl (h.collected p values hpending)
  rw [outcome, settle, hpending]
  exact hgive.1

/-- A reading that is ready can be settled and is ready still. -/
theorem Ready.settle (h : r.Ready n later) (hr' : r.settle = .ok r') :
    r'.Ready n later ∧ r'.pending = none := by
  rw [Reading.settle] at hr'
  cases hpending : r.pending with
  | none =>
    rw [hpending] at hr'
    cases hr'
    exact ⟨h, hpending⟩
  | some pending =>
    obtain ⟨p, values⟩ := pending
    rw [hpending] at hr'
    have hgive := (h.idle hpending).give rfl (h.collected p values hpending)
    exact hgive.2 r' hr'

/-- A step that settles the collected values first. -/
theorem Ready.advances_of_settle {f : Reading → Except EarlyStop Reading} (h : r.Ready n later)
    (hf : ∀ r', r'.Ready n later → r'.pending = none →
      Advances n' (later.drop 1) (keep? (some r'.bare) v) (f r')) :
    Advances n' (later.drop 1) (keep? r.outcome v) (r.settle.mapError .usage >>= f) := by
  cases hsettle : r.settle with
  | error e =>
    rw [outcome_of_unsettled hsettle]
    rfl
  | ok r' =>
    obtain ⟨hready, hidle⟩ := h.settle hsettle
    rw [outcome_of_settled hsettle]
    exact hf r' hready hidle

/-- An option that is given its value at once. -/
theorem Ready.give_advances (h : r.Ready n (p :: later)) (hidle : r.pending = none)
    (bytes : Bytes) :
    Advances n later (keep? (some r.bare) (ArgumentValue.read p bytes).toOption)
      ((r.give p [bytes]).mapError .usage) := by
  obtain ⟨hkept, hready⟩ := h.give hidle (List.cons_ne_nil bytes [])
  rw [keepAll_singleton] at hkept
  rw [← hkept]
  cases hgive : r.give p [bytes] with
  | error e => rfl
  | ok r' =>
    obtain ⟨hready, hidle'⟩ := hready r' hgive
    exact ⟨hready, outcome_of_idle hidle'⟩

/-- A parameter whose value is collected for later. -/
theorem Ready.collect_advances (h : r.Ready n (p :: later)) (hidle : r.pending = none)
    (bytes : Bytes) {k : Nat} (hk : min k 2 = min n' 2) :
    Advances n' later (keep? (some r.bare) (ArgumentValue.read p bytes).toOption)
      (.ok { r with pending := some (p, [bytes]), positionals := k }) := by
  have hready : ({ r with pending := some (p, [bytes]), positionals := k } : Reading).Ready n'
      later := by
    constructor
    case parsing => exact h.parsing
    case position => exact hk
    case collected =>
      rintro q values ⟨⟩
      exact List.cons_ne_nil bytes []
    case unrepeated =>
      rintro q values ⟨⟩
      exact h.fresh_of_idle hidle
    case fresh =>
      intro q hq hclaimed
      exact h.fresh_after hidle hq hclaimed
    case distinct => exact h.tail.distinct
    case config => exact h.config
  exact ⟨hready, hready.outcome_of_pending rfl⟩

/-- The next place is known from the number of positional arguments. -/
theorem Ready.nextPositional_eq (h : r.Ready n later) :
    r.nextPositional = Parameter.ofPosition n := by
  have hnext : r.nextPositional = Parameter.ofPosition r.positionals := by
    unfold nextPositional
    rcases r.positionals with _ | _ | _ <;> rfl
  rw [hnext, ← Parameter.ofPosition_min r.positionals, h.position, Parameter.ofPosition_min]

theorem Ready.not_awaitsValue (h : r.Ready n later) : r.awaitsValue = false := by
  unfold awaitsValue
  split
  case h_1 p values hpending =>
    have hne := h.collected p values hpending
    rw [List.isEmpty_eq_false_iff.mpr hne, Bool.and_false]
  case h_2 => rfl

/-- One more of the arguments that are collected together. -/
theorem Ready.takePositional_advances_of_collecting (h : r.Ready n (.extra :: later))
    (hextra : Parameter.ofPosition n = .extra) (hpending : r.pending = some (.extra, values))
    (bytes : Bytes) :
    Advances (n + 1) later (keep? r.outcome (ArgumentValue.read .extra bytes).toOption)
      ((r.takePositional bytes).mapError .usage) := by
  have hnext : r.nextPositional = .extra := h.nextPositional_eq.trans hextra
  have hready : ({ r with pending := some (.extra, values ++ [bytes]) } : Reading).Ready (n + 1)
      later := by
    constructor
    case parsing => exact h.parsing
    case position =>
      -- both counts are past the mount already
      have htwo : 2 ≤ n := Parameter.ofPosition_eq_extra_iff.mp hextra
      have hposition := h.position
      change min r.positionals 2 = _
      omega
    case collected =>
      rintro q values' ⟨⟩
      exact List.append_ne_nil_of_right_ne_nil values (List.cons_ne_nil bytes [])
    case unrepeated =>
      rintro q values' ⟨⟩ -
      rfl
    case fresh =>
      have hfresh := h.tail.fresh
      rw [claimed, hpending] at hfresh
      exact hfresh
    case distinct => exact h.tail.distinct
    case config => exact h.config
  rw [takePositional_of_gathers hnext hpending, h.outcome_of_pending hpending, ← keepAll_concat]
  exact ⟨hready, hready.outcome_of_pending rfl⟩

/-- A positional argument. -/
theorem Ready.takePositional_advances (h : r.Ready n (Parameter.ofPosition n :: later))
    (bytes : Bytes) :
    Advances (n + 1) later
      (keep? r.outcome (ArgumentValue.read (Parameter.ofPosition n) bytes).toOption)
      ((r.takePositional bytes).mapError .usage) := by
  by_cases hgathers : r.Gathers
  · obtain ⟨hnext, values, hpending⟩ := hgathers
    have hextra : Parameter.ofPosition n = .extra := h.nextPositional_eq.symm.trans hnext
    rw [hextra] at h ⊢
    exact h.takePositional_advances_of_collecting hextra hpending bytes
  · let collect (r' : Reading) : Reading :=
      { r' with
        pending := some (Parameter.ofPosition n, [bytes]), positionals := r'.positionals + 1 }
    have hsteps : (r.takePositional bytes).mapError EarlyStop.usage =
        (r.settle.mapError .usage >>= fun r' => .ok (collect r')) := by
      rw [takePositional_of_apart hgathers, h.nextPositional_eq]
      cases r.settle <;> rfl
    rw [hsteps]
    apply h.advances_of_settle
    intro r' hready hidle
    apply hready.collect_advances hidle
    have hposition := hready.position
    omega

end Reading

end MountControl
