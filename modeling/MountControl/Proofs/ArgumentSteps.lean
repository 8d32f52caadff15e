import MountControl.Proofs.ArgumentValues
import MountControl.Proofs.FallibleSteps

namespace MountControl

namespace Token

theorem ofBytes_eq_plain {arg bytes : Bytes} (h : ofBytes arg = .plain bytes) : bytes = arg := by
  unfold ofBytes at h
  split at h
  · split at h
    · split at h
      · cases h
      · split at h <;> cases h
    · split at h
      · cases h
      · exact (Token.plain.inj h).symm
  · exact (Token.plain.inj h).symm

theorem ofBytes_of_undashed {arg : Bytes} (h : arg.head? ≠ some dash) :
    ofBytes arg = .plain arg := by
  rcases arg with _ | ⟨a, _ | ⟨b, rest⟩⟩
  · rfl
  · rfl
  · have ha : a ≠ dash := fun heq => h (congrArg some heq)
    rw [ofBytes, if_neg fun hboth => ha hboth.1, if_neg ha]

end Token

namespace Reading

variable {r r' s s' : Reading} {arg : Bytes} {p : Parameter} {values : List Bytes}

/-- The option of a long name, with the value that is attached to it. The switch takes none, and
stands for an empty one. -/
def longOption? (name : String) (value : Option Bytes) : Option (Parameter × Option Bytes) :=
  match Parameter.ofLongName? name, value with
  | some .json, none => some (.json, some [])
  | some .json, some _ => none
  | some p, value => some (p, value)
  | none, _ => none

def option? (arg : Bytes) : Option (Parameter × Option Bytes) :=
  match Token.ofBytes arg with
  | .long name value => (Utf8.decode? name).bind fun name => longOption? name value
  | _ => none

def begin (r : Reading) (p : Parameter) (value : Option Bytes) : Except UsageError Reading :=
  match value with
  | some bytes => r.give p [bytes]
  | none => .ok { r with pending := some (p, []) }

def IsPositional (r : Reading) (arg : Bytes) : Prop :=
  r.onlyPositionals = true ∨ Token.ofBytes arg = .plain arg ∧ r.awaitsValue = false

def Gathers (r : Reading) : Prop :=
  r.nextPositional = .extra ∧ ∃ values, r.pending = some (.extra, values)

inductive Takes (r : Reading) (arg : Bytes) : Reading → Prop
  | awaited {p : Parameter} {values : List Bytes} (hparsing : r.onlyPositionals = false)
      (hplain : Token.ofBytes arg = .plain arg) (hawaits : r.awaitsValue = true)
      (hpending : r.pending = some (p, values)) : Takes r arg { r with pending := some (p, [arg]) }
  | gathered {values : List Bytes} (hpositional : r.IsPositional arg)
      (hnext : r.nextPositional = .extra) (hpending : r.pending = some (.extra, values)) :
      Takes r arg { r with pending := some (.extra, values ++ [arg]) }
  | placed {s : Reading} (hpositional : r.IsPositional arg) (hapart : ¬ r.Gathers)
      (hsettle : r.settle = .ok s) :
      Takes r arg
        { s with pending := some (r.nextPositional, [arg]), positionals := s.positionals + 1 }
  | ended (hparsing : r.onlyPositionals = false) (htoken : Token.ofBytes arg = .endOfOptions) :
      Takes r arg { r with onlyPositionals := true }
  | begun {p : Parameter} {value : Option Bytes} {s s' : Reading}
      (hparsing : r.onlyPositionals = false) (hoption : option? arg = some (p, value))
      (hsettle : r.settle = .ok s) (hbegin : s.begin p value = .ok s') : Takes r arg s'

/-- An extra argument joins the ones gathered so far. -/
theorem takePositional_of_gathers (hnext : r.nextPositional = .extra)
    (hpending : r.pending = some (.extra, values)) :
    r.takePositional arg = .ok { r with pending := some (.extra, values ++ [arg]) } := by
  unfold takePositional
  rw [hnext, hpending]

/-- Any other positional argument settles what is pending and is left pending in its turn. -/
theorem takePositional_of_apart (h : ¬ r.Gathers) :
    r.takePositional arg = (r.settle.map fun s =>
      { s with pending := some (r.nextPositional, [arg]), positionals := s.positionals + 1 }) := by
  unfold takePositional
  split
  case h_1 values hnext hpending => exact absurd ⟨hnext, values, hpending⟩ h
  case h_2 => cases r.settle <;> rfl

theorem take_of_onlyPositionals (h : r.onlyPositionals = true) :
    r.take arg = (r.takePositional arg).mapError .usage := by
  rw [take, if_pos h]

theorem take_of_isPositional (h : r.IsPositional arg) :
    r.take arg = (r.takePositional arg).mapError .usage := by
  by_cases hparsing : r.onlyPositionals = true
  · exact take_of_onlyPositionals hparsing
  · obtain ⟨hplain, hawaits⟩ := h.resolve_left hparsing
    have htake : r.takePlain arg = r.takePositional arg := by
      unfold takePlain
      rw [hawaits]
      split
      case h_1 heq => cases heq
      case h_2 => rfl
    rw [take, if_neg hparsing, hplain, ← htake]

/-- An argument without dashes is the value of the option that waits for one. -/
theorem take_of_awaited (hparsing : r.onlyPositionals = false)
    (hplain : Token.ofBytes arg = .plain arg) (hawaits : r.awaitsValue = true)
    (hpending : r.pending = some (p, values)) :
    r.take arg = .ok { r with pending := some (p, [arg]) } := by
  have htake : r.takePlain arg = .ok { r with pending := some (p, [arg]) } := by
    unfold takePlain
    rw [hawaits, hparsing, hpending]
    rfl
  have hnot : ¬ r.onlyPositionals = true := by
    rw [hparsing]
    exact Bool.false_ne_true
  rw [take, if_neg hnot, hplain]
  change (r.takePlain arg).mapError EarlyStop.usage = _
  rw [htake]
  rfl

theorem take_of_long {name : Bytes} {value : Option Bytes} (hparsing : r.onlyPositionals = false)
    (htoken : Token.ofBytes arg = .long name value) : r.take arg = r.takeLong name value := by
  rw [take, hparsing, htoken]
  rfl

theorem longName_of_ofLongName? {text : String} (h : Parameter.ofLongName? text = some p) :
    p.longName = text := by
  have hfound := List.find?_some h
  exact beq_iff_eq.mp hfound

/-- A long option, once found under its name, settles what is pending and is begun. -/
theorem takeLong_of_option {name : Bytes} {text : String} {given value : Option Bytes}
    (hdecode : Utf8.decode? name = some text) (hoption : longOption? text given = some (p, value)) :
    r.takeLong name given = (r.settle >>= fun s => s.begin p value).mapError .usage := by
  unfold longOption? at hoption
  cases hname : Parameter.ofLongName? text with
  | none =>
    rw [hname] at hoption
    cases hoption
  | some q =>
    have hq : q ∈ Parameter.options := List.mem_of_find?_eq_some hname
    rw [hname] at hoption
    unfold takeLong
    rw [hdecode, ← longName_of_ofLongName? hname]
    -- by the option, since its name is compared with those of the requests
    cases q with
    | command | mount | extra => exact absurd hq (by decide)
    | json =>
      cases given with
      | none =>
        cases hoption
        cases r.settle <;> rfl
      | some bytes => cases hoption
    | timeoutMs | config | logLevel | logFormat | logFile =>
      cases given <;> cases hoption <;> cases r.settle <;> rfl

theorem take_of_option {value : Option Bytes} (hparsing : r.onlyPositionals = false)
    (hoption : option? arg = some (p, value)) :
    r.take arg = (r.settle >>= fun s => s.begin p value).mapError .usage := by
  unfold option? at hoption
  split at hoption
  case h_2 => cases hoption
  case h_1 name given htoken =>
    obtain ⟨text, hdecode, hlong⟩ := Option.bind_eq_some_iff.mp hoption
    rw [take_of_long hparsing htoken, takeLong_of_option hdecode hlong]

theorem exists_longOption {text : String} {given : Option Bytes}
    (hname : Parameter.ofLongName? text = some p) (hgiven : p = .json → given = none) :
    ∃ value, longOption? text given = some (p, value) := by
  unfold longOption?
  rw [hname]
  cases p with
  | json =>
    rw [hgiven rfl]
    exact ⟨_, rfl⟩
  | _ => cases given <;> exact ⟨_, rfl⟩

/-- A long option is gone past only if there is one of that name. -/
theorem exists_option_of_takeLong {name : Bytes} {given : Option Bytes}
    (h : r.takeLong name given = .ok r') :
    ∃ text p value, Utf8.decode? name = some text ∧ longOption? text given = some (p, value) := by
  have hknown {text : String} {p : Parameter}
      (heq : (Utf8.decode? name).map (fun s => (s, Parameter.ofLongName? s)) = some (text, some p))
      (hgiven : p = .json → given = none) :
      ∃ text p value, Utf8.decode? name = some text ∧ longOption? text given = some (p, value) := by
    obtain ⟨text', hdecode, hpair⟩ := Option.map_eq_some_iff.mp heq
    obtain ⟨value, hvalue⟩ := exists_longOption (Prod.mk.inj hpair).2 hgiven
    exact ⟨text', p, value, hdecode, hvalue⟩
  unfold takeLong at h
  cases hsettle : r.settle with
  | error e =>
    rw [hsettle] at h
    split at h <;> cases h
  | ok s =>
    rw [hsettle] at h
    split at h
    case h_1 | h_2 | h_3 | h_4 | h_5 | h_9 => cases h
    case h_6 heq => exact hknown heq fun _ => rfl
    case h_7 hnot heq => exact hknown heq fun hp => absurd hp hnot
    case h_8 heq => exact hknown heq fun _ => rfl

/-- No short option lets a reading go on: those for help and for the version stop it, and there are
no others. -/
theorem takeShort_ne_ok (letters : Bytes) : r.takeShort letters ≠ .ok r' := by
  intro h
  unfold takeShort at h
  cases hsettle : r.settle with
  | error e =>
    rw [hsettle] at h
    split at h <;> cases h
  | ok s =>
    rw [hsettle] at h
    split at h <;> cases h

theorem takes_of_isPositional (hpositional : r.IsPositional arg) (h : r.take arg = .ok r') :
    r.Takes arg r' := by
  rw [take_of_isPositional hpositional] at h
  have htake := mapError_eq_ok_iff.mp h
  by_cases hgathers : r.Gathers
  · obtain ⟨hnext, values, hpending⟩ := hgathers
    rw [takePositional_of_gathers hnext hpending] at htake
    cases htake
    exact .gathered hpositional hnext hpending
  · rw [takePositional_of_apart hgathers] at htake
    obtain ⟨s, hsettle, rfl⟩ := map_eq_ok_iff.mp htake
    exact .placed hpositional hgathers hsettle

theorem takes_of_option {value : Option Bytes} (hparsing : r.onlyPositionals = false)
    (hoption : option? arg = some (p, value)) (h : r.take arg = .ok r') : r.Takes arg r' := by
  rw [take_of_option hparsing hoption] at h
  obtain ⟨s, hsettle, hbegin⟩ := bind_eq_ok_iff.mp (mapError_eq_ok_iff.mp h)
  exact .begun hparsing hoption hsettle hbegin

/-- Every step that succeeds is one of the ways of `Takes`. -/
theorem takes_of_take (h : r.take arg = .ok r') : r.Takes arg r' := by
  by_cases honly : r.onlyPositionals = true
  · exact takes_of_isPositional (.inl honly) h
  have hparsing : r.onlyPositionals = false := Bool.eq_false_iff.mpr honly
  cases htoken : Token.ofBytes arg with
  | endOfOptions =>
    rw [take, if_neg honly, htoken] at h
    cases h
    exact .ended hparsing htoken
  | long name given =>
    have hlong := h
    rw [take_of_long hparsing htoken] at hlong
    obtain ⟨text, p, value, hdecode, hvalue⟩ := exists_option_of_takeLong hlong
    have hoption : option? arg = some (p, value) := by
      rw [option?, htoken]
      exact Option.bind_eq_some_iff.mpr ⟨text, hdecode, hvalue⟩
    exact takes_of_option hparsing hoption h
  | short letters =>
    rw [take, if_neg honly, htoken] at h
    exact absurd h (takeShort_ne_ok letters)
  | plain bytes =>
    obtain rfl := Token.ofBytes_eq_plain htoken
    cases hawaits : r.awaitsValue with
    | false => exact takes_of_isPositional (.inr ⟨htoken, hawaits⟩) h
    | true =>
      cases hpending : r.pending with
      | none =>
        rw [awaitsValue, hpending] at hawaits
        cases hawaits
      | some pending =>
        rw [take_of_awaited hparsing htoken hawaits hpending] at h
        cases h
        exact .awaited hparsing htoken hawaits hpending

/-- Conversely each of them is a step that succeeds. -/
theorem take_of_takes (h : r.Takes arg r') : r.take arg = .ok r' := by
  cases h with
  | awaited hparsing hplain hawaits hpending =>
    exact take_of_awaited hparsing hplain hawaits hpending
  | gathered hpositional hnext hpending =>
    rw [take_of_isPositional hpositional, takePositional_of_gathers hnext hpending]
    rfl
  | placed hpositional hapart hsettle =>
    rw [take_of_isPositional hpositional, takePositional_of_apart hapart, hsettle]
    rfl
  | ended hparsing htoken =>
    rw [take, hparsing, htoken]
    rfl
  | begun hparsing hoption hsettle hbegin =>
    rw [take_of_option hparsing hoption]
    exact mapError_eq_ok_iff.mpr (bind_eq_ok_iff.mpr ⟨_, hsettle, hbegin⟩)

/-- An argument is taken in one of these ways, and in each of them it is. -/
theorem take_eq_ok_iff : r.take arg = .ok r' ↔ r.Takes arg r' :=
  ⟨takes_of_take, take_of_takes⟩

theorem nextPositional_eq_extra_iff : r.nextPositional = .extra ↔ 2 ≤ r.positionals := by
  unfold nextPositional
  rcases r.positionals with _ | _ | n
  · exact iff_of_false nofun (by omega)
  · exact iff_of_false nofun (by omega)
  · exact iff_of_true rfl (by omega)

theorem nextPositional_eq_mount_iff : r.nextPositional = .mount ↔ r.positionals = 1 := by
  unfold nextPositional
  rcases r.positionals with _ | _ | n
  · exact iff_of_false nofun (by omega)
  · exact iff_of_true rfl rfl
  · exact iff_of_false nofun (by omega)

theorem give_eq (hvalues : values ≠ []) (hfresh : p ∈ r.given → p = .extra) :
    r.give p values =
      values.foldlM (fun r bytes => store r p bytes) { r with given := p :: r.given } := by
  have hnew : ¬ (p ≠ .extra ∧ p ∈ r.given) := fun ⟨hp, hmem⟩ => hp (hfresh hmem)
  rw [give, if_neg hvalues, if_neg hnew]

/-- A parameter is given by at least one value, at most once unless it gathers, and each value has
to be readable. -/
theorem give_eq_ok_iff : r.give p values = .ok s ↔
    values ≠ [] ∧ ¬ (p ≠ .extra ∧ p ∈ r.given) ∧
      values.foldlM (fun r bytes => store r p bytes) { r with given := p :: r.given } = .ok s := by
  rw [give]
  by_cases hvalues : values = []
  · rw [if_pos hvalues]
    exact iff_of_false nofun fun h => h.1 hvalues
  by_cases hrepeated : p ≠ .extra ∧ p ∈ r.given
  · rw [if_neg hvalues, if_pos hrepeated]
    exact iff_of_false nofun fun h => h.2.1 hrepeated
  · rw [if_neg hvalues, if_neg hrepeated]
    exact ⟨fun h => ⟨hvalues, hrepeated, h⟩, fun h => h.2.2⟩

/-- What keeping one value preserves of two readings, storing values preserves. -/
theorem foldlM_store_sim {R : Reading → Reading → Prop}
    (hkeep : ∀ r r' v, ArgumentValue.parameter v = p → R r r' → R (r.keep v) (r'.keep v))
    (hr : R r r') (h : values.foldlM (fun r bytes => store r p bytes) r = .ok s) :
    ∃ s', values.foldlM (fun r bytes => store r p bytes) r' = .ok s' ∧ R s s' := by
  -- on the values: a value is read without regard to the reading, so both sides read it alike
  induction values generalizing r r' with
  | nil =>
    cases h
    exact ⟨r', rfl, hr⟩
  | cons bytes values ih =>
    rw [List.foldlM_cons, store_eq] at h ⊢
    cases hread : ArgumentValue.read p bytes with
    | error e =>
      rw [hread] at h
      cases h
    | ok v =>
      rw [hread] at h
      exact ih (hkeep r r' v (ArgumentValue.parameter_of_read hread) hr) h

theorem mount_keep {v : ArgumentValue} (h : v.parameter ≠ .mount) :
    (r.keep v).mount = r.mount := by
  cases v
  case mount => exact absurd rfl h
  all_goals rfl

structure Gives (r : Reading) (p : Parameter) (r' : Reading) : Prop where
  pending : r'.pending = r.pending
  positionals : r'.positionals = r.positionals
  onlyPositionals : r'.onlyPositionals = r.onlyPositionals
  mount : p ≠ .mount → r'.mount = r.mount

/-- Giving a parameter leaves the places alone, and the mount if it is for another one. -/
theorem gives_of_give (h : r.give p values = .ok s) : Gives r p s := by
  obtain ⟨-, -, hfold⟩ := give_eq_ok_iff.mp h
  obtain ⟨hframe, -⟩ := frame_foldlM_store hfold
  refine ⟨hframe.pending, hframe.positionals, hframe.onlyPositionals, fun hp => ?_⟩
  have hkeep (t t' : Reading) (v : ArgumentValue) (hv : v.parameter = p)
      (ht : t = t' ∧ t.mount = r.mount) :
      t.keep v = t'.keep v ∧ (t.keep v).mount = r.mount := by
    have hother : v.parameter ≠ .mount := fun heq => hp (hv.symm.trans heq)
    exact ⟨congrArg (keep · v) ht.1, (mount_keep hother).trans ht.2⟩
  let start : Reading := { r with given := p :: r.given }
  have hstart : start = start ∧ start.mount = r.mount := ⟨rfl, rfl⟩
  obtain ⟨-, -, -, hmount⟩ := foldlM_store_sim hkeep hstart hfold
  exact hmount

structure Settled (r s : Reading) : Prop where
  pending : s.pending = none
  positionals : s.positionals = r.positionals
  onlyPositionals : s.onlyPositionals = r.onlyPositionals
  mount : (∀ values, r.pending ≠ some (.mount, values)) → s.mount = r.mount

theorem settle_of_pending (hpending : r.pending = some (p, values)) :
    r.settle = ({ r with pending := none } : Reading).give p values := by
  rw [settle, hpending]

/-- Settling ends what was pending and leaves the places alone; it can set the mount only if that
was pending. -/
theorem settled_of_settle (h : r.settle = .ok s) : Settled r s := by
  cases hpending : r.pending with
  | none =>
    rw [settle, hpending] at h
    cases h
    exact ⟨hpending, rfl, rfl, fun _ => rfl⟩
  | some pending =>
    obtain ⟨p, values⟩ := pending
    rw [settle_of_pending hpending] at h
    have hgives := gives_of_give h
    refine ⟨hgives.pending, hgives.positionals, hgives.onlyPositionals, fun hmount => ?_⟩
    apply hgives.mount
    intro hp
    exact hmount values (hp ▸ hpending)

theorem awaitsValue_of_settle (h : r.settle = .ok s) : r.awaitsValue = false := by
  unfold awaitsValue
  split
  case h_1 p values hpending =>
    rw [settle_of_pending hpending] at h
    obtain ⟨hvalues, -, -⟩ := give_eq_ok_iff.mp h
    rw [List.isEmpty_eq_false_iff.mpr hvalues, Bool.and_false]
  case h_2 => rfl

/-- What holds of every reading of the beginning of a command line: what is collected after the
mount is not empty, and the mount is the second positional argument. -/
structure Regular (r : Reading) : Prop where
  collected : ∀ values, r.pending = some (.extra, values) → values ≠ []
  placed : r.mount ≠ none ∨ (∃ values, r.pending = some (.mount, values)) → 2 ≤ r.positionals

theorem regular_initial : Regular initial where
  collected := nofun
  placed := by
    rintro (h | ⟨values, h⟩)
    · exact absurd rfl h
    · cases h

/-- Settling what is pending keeps a reading regular. -/
theorem Regular.settle (h : r.Regular) (hs : r.settle = .ok s) : s.Regular := by
  have hsettled := settled_of_settle hs
  constructor
  · intro values hpending
    rw [hsettled.pending] at hpending
    cases hpending
  · rintro (hmount | ⟨values, hpending⟩)
    · rw [hsettled.positionals]
      apply h.placed
      by_cases hpending : ∃ values, r.pending = some (.mount, values)
      · exact .inr hpending
      · rw [hsettled.mount fun values hvalues => hpending ⟨values, hvalues⟩] at hmount
        exact .inl hmount
    · rw [hsettled.pending] at hpending
      cases hpending

theorem mem_options_of_option {value : Option Bytes} (h : option? arg = some (p, value)) :
    p ∈ Parameter.options := by
  unfold option? at h
  split at h
  case h_2 => cases h
  case h_1 name given htoken =>
    obtain ⟨text, -, hlong⟩ := Option.bind_eq_some_iff.mp h
    unfold longOption? at hlong
    have hfound {q : Parameter} (hq : Parameter.ofLongName? text = some q) :
        q ∈ Parameter.options := List.mem_of_find?_eq_some hq
    split at hlong
    case h_1 => cases hlong; decide
    case h_2 | h_4 => cases hlong
    case h_3 hq _ _ => cases hlong; exact hfound hq

theorem regular_of_begin {value : Option Bytes} (h : r.Regular) (hidle : r.pending = none)
    (hp : p ∈ Parameter.options) (hbegin : r.begin p value = .ok s) : s.Regular := by
  have hmount : p ≠ .mount := by
    rintro rfl
    exact absurd hp (by decide)
  have hextra : p ≠ .extra := by
    rintro rfl
    exact absurd hp (by decide)
  cases value with
  | none =>
    cases hbegin
    constructor
    · rintro values ⟨⟩
      exact absurd rfl hextra
    · rintro (hgiven | ⟨values, ⟨⟩⟩)
      · exact h.placed (.inl hgiven)
      · exact absurd rfl hmount
  | some bytes =>
    have hgives := gives_of_give hbegin
    have hidle' : s.pending = none := hgives.pending.trans hidle
    constructor
    · intro values heq
      rw [hidle'] at heq
      cases heq
    · rintro (hgiven | ⟨values, heq⟩)
      · rw [hgives.mount hmount] at hgiven
        rw [hgives.positionals]
        exact h.placed (.inl hgiven)
      · rw [hidle'] at heq
        cases heq

/-- Each step keeps a reading regular. In particular the mount is pending or known only after two
places were taken. -/
theorem regular_of_takes (h : r.Regular) (htake : r.Takes arg r') : r'.Regular := by
  -- only a positional argument can be the mount, and only an option can await its value
  cases htake with
  | awaited hparsing hplain hawaits hpending =>
    rename_i p values
    have hoption : p ∈ Parameter.options := by
      rw [awaitsValue, hpending] at hawaits
      exact of_decide_eq_true (Bool.and_eq_true_iff.mp hawaits).1
    constructor
    · rintro values' ⟨⟩
      exact List.cons_ne_nil _ _
    · rintro (hmount | ⟨values', hmount⟩)
      · exact h.placed (.inl hmount)
      · cases hmount
        exact absurd hoption (by decide)
  | gathered hpositional hnext hpending =>
    refine ⟨?_, fun _ => nextPositional_eq_extra_iff.mp hnext⟩
    rintro values' ⟨⟩
    exact List.append_ne_nil_of_right_ne_nil _ (List.cons_ne_nil _ _)
  | placed hpositional hapart hsettle =>
    rename_i s
    have hs := h.settle hsettle
    constructor
    · rintro values' heq
      cases (Prod.mk.inj (Option.some.inj heq)).2
      exact List.cons_ne_nil _ _
    · rintro (hmount | ⟨values', heq⟩)
      · exact Nat.le_succ_of_le (hs.placed (.inl hmount))
      · have hone := nextPositional_eq_mount_iff.mp (Prod.mk.inj (Option.some.inj heq)).1
        change 2 ≤ s.positionals + 1
        have hkept := (settled_of_settle hsettle).positionals
        omega
  | ended hparsing htoken => exact ⟨h.collected, h.placed⟩
  | begun hparsing hoption hsettle hbegin =>
    have hidle := (settled_of_settle hsettle).pending
    exact regular_of_begin (h.settle hsettle) hidle (mem_options_of_option hoption) hbegin

/-- So does a run of steps, from the beginning of a line to any place in it. -/
theorem regular_of_foldlM {args : List Bytes} (h : r.Regular)
    (hread : args.foldlM take r = .ok r') :
    r'.Regular := by
  induction args generalizing r with
  | nil =>
    cases hread
    exact h
  | cons arg args ih =>
    obtain ⟨next, htake, hrest⟩ := foldlM_cons_eq_ok_iff.mp hread
    exact ih (regular_of_takes h (take_eq_ok_iff.mp htake)) hrest

/-- Past the mount further positional arguments are extra. -/
theorem nextPositional_of_takes (hnext : r.nextPositional = .extra) (htake : r.Takes arg r') :
    r'.nextPositional = .extra := by
  have htwo := nextPositional_eq_extra_iff.mp hnext
  apply nextPositional_eq_extra_iff.mpr
  cases htake with
  | awaited | gathered | ended => exact htwo
  | placed hpositional hapart hsettle =>
    rename_i s
    have hkept := (settled_of_settle hsettle).positionals
    change 2 ≤ s.positionals + 1
    omega
  | begun hparsing hoption hsettle hbegin =>
    rename_i p value s
    have hkept := (settled_of_settle hsettle).positionals
    cases value with
    | none =>
      cases hbegin
      change 2 ≤ s.positionals
      omega
    | some bytes =>
      rw [(gives_of_give hbegin).positionals]
      omega

/-- What is collected cannot be settled in the end unless it can be settled before the rest. -/
theorem settle_of_gathered {e : UsageError} (hpending : r.pending = some (p, values))
    (hvalues : values ≠ []) (h : r.settle = .error e) (more : List Bytes) :
    ∃ e', ({ r with pending := some (p, values ++ more) } : Reading).settle = .error e' := by
  cases hsettle : ({ r with pending := some (p, values ++ more) } : Reading).settle with
  | error e' => exact ⟨e', rfl⟩
  | ok s =>
    rw [settle_of_pending rfl] at hsettle
    obtain ⟨-, hnew, hfold⟩ := give_eq_ok_iff.mp hsettle
    -- the values before the rest are stored first, and then without an error
    rw [List.foldlM_append] at hfold
    rw [settle_of_pending hpending] at h
    cases hfirst : values.foldlM (fun r bytes => store r p bytes)
        { ({ r with pending := none } : Reading) with given := p :: r.given } with
    | error e' =>
      have hfails : (values.foldlM (fun r bytes => store r p bytes)
        { ({ r with pending := none } : Reading) with given := p :: r.given } >>= fun s =>
          more.foldlM (fun r bytes => store r p bytes) s) = .ok s := hfold
      rw [hfirst] at hfails
      cases hfails
    | ok s' =>
      have hgive := give_eq_ok_iff.mpr ⟨hvalues, hnew, hfirst⟩
      cases h.symm.trans hgive

end Reading

end MountControl
