import MountControl.Proofs.ArgumentSteps
import MountControl.Proofs.ExitStatus

/-!
Positional arguments after the mount. They are read as text, so one that is no text is refused with
the whole command line; all others leave a trace in the log only.
-/

namespace MountControl

namespace Reading

variable {r r' s s' next : Reading} {arg : Bytes} {args values : List Bytes} {p : Parameter}

def core (r : Reading) : Reading :=
  { r with
    extras := [], given := r.given.filter (· ≠ .extra), positionals := 0, onlyPositionals := false }

theorem core_keep_of_ne {v : ArgumentValue} (hv : v.parameter ≠ .extra) :
    (r.keep v).core = r.core.keep v := by
  cases v
  case extra => exact absurd rfl hv
  all_goals rfl

theorem core_keep (v : ArgumentValue) (h : r.core = r'.core) :
    (r.keep v).core = (r'.keep v).core := by
  by_cases hv : v.parameter = .extra
  · cases v <;> cases hv
    exact h
  · rw [core_keep_of_ne hv, core_keep_of_ne hv, h]

theorem core_claim (p : Parameter) (h : r.core = r'.core) :
    ({ r with given := p :: r.given } : Reading).core =
      ({ r' with given := p :: r'.given } : Reading).core := by
  have hclaim (t : Reading) : ({ t with given := p :: t.given } : Reading).core =
      { t.core with given := [p].filter (· ≠ .extra) ++ t.core.given } := by
    rw [core, core, List.filter_cons, List.filter_cons]
    by_cases hp : p = .extra <;> simp [hp]
  rw [hclaim r, hclaim r', h]

theorem core_collect (pending : Option (Parameter × List Bytes)) (h : r.core = r'.core) :
    ({ r with pending := pending } : Reading).core =
      ({ r' with pending := pending } : Reading).core :=
  congrArg (fun t => ({ t with pending := pending } : Reading)) h

theorem pending_of_core (h : r.core = r'.core) : r.pending = r'.pending :=
  congrArg (fun t => t.pending) h

theorem given_of_core (h : r.core = r'.core) (hp : p ≠ .extra) : p ∈ r.given ↔ p ∈ r'.given := by
  have hmem (t : Reading) : p ∈ t.core.given ↔ p ∈ t.given := by
    rw [core, List.mem_filter]
    exact and_iff_left (decide_eq_true hp)
  rw [← hmem r, ← hmem r', h]

theorem awaitsValue_of_core (h : r.core = r'.core) : r.awaitsValue = r'.awaitsValue := by
  rw [awaitsValue, awaitsValue, pending_of_core h]

/-- Readings with the same core take the same parameters, and keep the same core. -/
theorem give_core (h : r.core = r'.core) (hgive : r.give p values = .ok s) :
    ∃ s', r'.give p values = .ok s' ∧ s.core = s'.core := by
  obtain ⟨hvalues, hnew, hfold⟩ := give_eq_ok_iff.mp hgive
  obtain ⟨s', hfold', hs⟩ := foldlM_store_sim (R := fun t t' => t.core = t'.core)
    (fun t t' v _ ht => core_keep v ht) (core_claim p h) hfold
  refine ⟨s', give_eq_ok_iff.mpr ⟨hvalues, ?_, hfold'⟩, hs⟩
  rintro ⟨hp, hgiven⟩
  exact hnew ⟨hp, (given_of_core h hp).mpr hgiven⟩

/-- What is pending is settled alike by readings with the same core. -/
theorem settle_core (h : r.core = r'.core) (hsettle : r.settle = .ok s) :
    ∃ s', r'.settle = .ok s' ∧ s.core = s'.core := by
  cases hpending : r.pending with
  | none =>
    have hpending' : r'.pending = none := (pending_of_core h).symm.trans hpending
    rw [settle, hpending] at hsettle
    cases hsettle
    refine ⟨r', ?_, h⟩
    rw [settle, hpending']
  | some pending =>
    obtain ⟨p, values⟩ := pending
    have hpending' : r'.pending = some (p, values) := (pending_of_core h).symm.trans hpending
    rw [settle_of_pending hpending] at hsettle
    rw [settle_of_pending hpending']
    exact give_core (core_collect none h) hsettle

theorem begin_core {value : Option Bytes} (h : r.core = r'.core)
    (hbegin : r.begin p value = .ok s) :
    ∃ s', r'.begin p value = .ok s' ∧ s.core = s'.core := by
  cases value with
  | none =>
    cases hbegin
    exact ⟨_, rfl, core_collect _ h⟩
  | some bytes => exact give_core h hbegin

structure Collecting (r : Reading) : Prop where
  next : r.nextPositional = .extra
  pending : ∃ values, r.pending = some (.extra, values) ∧ values ≠ []

theorem Collecting.awaitsValue (h : r.Collecting) : r.awaitsValue = false := by
  obtain ⟨values, hpending, -⟩ := h.pending
  rw [Reading.awaitsValue, hpending]
  rfl

theorem Collecting.gathers (h : r.Collecting) : r.Gathers := by
  obtain ⟨values, hpending, -⟩ := h.pending
  exact ⟨h.next, values, hpending⟩

/-- Storing an extra argument can fail only by its bytes, and does not touch the core. -/
theorem store_extra (r : Reading) (arg : Bytes) :
    ∃ f : String → Reading,
      r.store .extra arg = (readText arg).map f ∧ ∀ t, (f t).core = r.core := by
  refine ⟨fun t => { r with extras := r.extras ++ [t] }, ?_, fun t => rfl⟩
  unfold store
  cases readText arg <;> rfl

/-- One more positional argument after the mount, where everything before it can be settled, is
collected, and makes no difference in the end but by being no text. -/
theorem take_extra (hnext : r.nextPositional = .extra) (hpositional : r.IsPositional arg)
    (hsettle : r.settle = .ok s) :
    ∃ next f, r.take arg = .ok next ∧ next.Collecting ∧
      next.onlyPositionals = r.onlyPositionals ∧ next.settle = (readText arg).map f ∧
      ∀ t, (f t).core = s.core := by
  -- it joins the extra arguments before it, or comes after something that has to be settled first
  by_cases hgathers : r.Gathers
  · obtain ⟨-, values, hpending⟩ := hgathers
    have htakes := Takes.gathered hpositional hnext hpending
    have hvalues : values ++ [arg] ≠ [] :=
      List.append_ne_nil_of_right_ne_nil _ (List.cons_ne_nil _ _)
    obtain ⟨f, hstore, hcore⟩ := store_extra s arg
    refine ⟨_, f, take_of_takes htakes, ⟨hnext, _, rfl, hvalues⟩, rfl, ?_, hcore⟩
    rw [settle_of_pending hpending] at hsettle
    obtain ⟨-, -, hfold⟩ := give_eq_ok_iff.mp hsettle
    rw [settle_of_pending rfl, give_eq hvalues fun _ => rfl, List.foldlM_append, ← hstore]
    refine (congrArg (· >>= _) hfold).trans ?_
    exact bind_pure (s.store .extra arg)
  · have htakes := Takes.placed hpositional hgathers hsettle
    have hsettled := settled_of_settle hsettle
    have hplaced := nextPositional_of_takes hnext htakes
    rw [hnext] at htakes hplaced
    let start : Reading :=
      { s with pending := none, positionals := s.positionals + 1, given := .extra :: s.given }
    obtain ⟨f, hstore, hcore⟩ := store_extra start arg
    refine ⟨_, f, take_of_takes htakes, ⟨hplaced, _, rfl, List.cons_ne_nil _ _⟩,
      hsettled.onlyPositionals, ?_, fun t => ?_⟩
    · rw [settle_of_pending rfl, give_eq (List.cons_ne_nil _ _) fun _ => rfl, ← hstore]
      exact bind_pure (start.store .extra arg)
    · have hidle : ({ s with pending := none } : Reading) = s := by
        rw [← hsettled.pending]
      calc (f t).core
        _ = start.core := hcore t
        _ = ({ s with pending := none } : Reading).core := rfl
        _ = s.core := by rw [hidle]

/-- Two readings past the mount that come to the same but for extra arguments: nothing else sets
them apart, or the second still collects these where the first has to settle something. -/
structure Parallel (r r' : Reading) : Prop where
  next : r.nextPositional = .extra
  next' : r'.nextPositional = .extra
  parsing : r.onlyPositionals = r'.onlyPositionals
  same : r.core = r'.core ∨
    r.awaitsValue = false ∧ r'.Collecting ∧
      ∃ s s', r.settle = .ok s ∧ r'.settle = .ok s' ∧ s.core = s'.core

theorem Parallel.refl (hnext : r.nextPositional = .extra) : Parallel r r :=
  ⟨hnext, hnext, rfl, .inl rfl⟩

/-- Whether an argument is positional depends on what steers the reading. -/
theorem isPositional_congr (arg : Bytes) (hparsing : r.onlyPositionals = r'.onlyPositionals)
    (hawaits : r.awaitsValue = r'.awaitsValue) : r.IsPositional arg ↔ r'.IsPositional arg := by
  rw [IsPositional, IsPositional, hparsing, hawaits]

theorem onlyPositionals_of_begin {value : Option Bytes} (hbegin : r.begin p value = .ok s) :
    s.onlyPositionals = r.onlyPositionals := by
  cases value with
  | none =>
    cases hbegin
    rfl
  | some bytes => exact (gives_of_give hbegin).onlyPositionals

/-- Two readings that take the same argument, and come to the same by it. -/
theorem Parallel.of_takes (h : Parallel r r') (htakes : r.Takes arg s) (htakes' : r'.Takes arg s')
    (hparsing : s.onlyPositionals = s'.onlyPositionals) (hcore : s.core = s'.core) :
    ∃ s', r'.take arg = .ok s' ∧ Parallel s s' :=
  ⟨s', take_eq_ok_iff.mpr htakes', nextPositional_of_takes h.next htakes,
    nextPositional_of_takes h.next' htakes', hparsing, .inl hcore⟩

/-- An option after two readings that are settled alike. -/
theorem Parallel.of_begun {t t' : Reading} {value : Option Bytes} (h : Parallel r r')
    (hparsing : r.onlyPositionals = false) (hoption : option? arg = some (p, value))
    (hsettle : r.settle = .ok t) (hsettle' : r'.settle = .ok t') (hcore : t.core = t'.core)
    (hbegin : t.begin p value = .ok s) : ∃ s', r'.take arg = .ok s' ∧ Parallel s s' := by
  obtain ⟨s', hbegin', hs⟩ := begin_core hcore hbegin
  have hparsing' : r'.onlyPositionals = false := h.parsing.symm.trans hparsing
  refine h.of_takes (.begun hparsing hoption hsettle hbegin)
    (.begun hparsing' hoption hsettle' hbegin') ?_ hs
  rw [onlyPositionals_of_begin hbegin, onlyPositionals_of_begin hbegin',
    (settled_of_settle hsettle).onlyPositionals, (settled_of_settle hsettle').onlyPositionals,
    h.parsing]

/-- The same argument after readings that nothing but extra arguments sets apart: the second takes
it in the way the first does. -/
theorem Parallel.step_of_core (h : Parallel r r') (hcore : r.core = r'.core)
    (htakes : r.Takes arg s) : ∃ s', r'.take arg = .ok s' ∧ Parallel s s' := by
  have hpending := pending_of_core hcore
  have hawaits := awaitsValue_of_core hcore
  have hpositional := isPositional_congr arg h.parsing hawaits
  have htakes' := htakes
  cases htakes with
  | awaited hparsing hplain hawaited hvalues =>
    rw [h.parsing] at hparsing
    rw [hawaits] at hawaited
    rw [hpending] at hvalues
    exact h.of_takes htakes' (.awaited hparsing hplain hawaited hvalues) h.parsing
      (core_collect _ hcore)
  | gathered hplain _ hvalues =>
    rw [hpending] at hvalues
    exact h.of_takes htakes' (.gathered (hpositional.mp hplain) h.next' hvalues) h.parsing
      (core_collect _ hcore)
  | placed hplain hapart hsettle =>
    obtain ⟨t', hsettle', ht⟩ := settle_core hcore hsettle
    have hapart' : ¬ r'.Gathers := by
      rintro ⟨-, values, hvalues⟩
      rw [← hpending] at hvalues
      exact hapart ⟨h.next, values, hvalues⟩
    refine h.of_takes htakes' (.placed (hpositional.mp hplain) hapart' hsettle') ?_ ?_
    · have hkept := (settled_of_settle hsettle).onlyPositionals
      have hkept' := (settled_of_settle hsettle').onlyPositionals
      exact hkept.trans (h.parsing.trans hkept'.symm)
    · rw [h.next, h.next']
      exact core_collect (some (.extra, [arg])) ht
  | ended hparsing htoken =>
    rw [h.parsing] at hparsing
    exact h.of_takes htakes' (.ended hparsing htoken) rfl hcore
  | begun hparsing hoption hsettle hbegin =>
    obtain ⟨t', hsettle', ht⟩ := settle_core hcore hsettle
    exact h.of_begun hparsing hoption hsettle hsettle' ht hbegin

/-- One step of two readings side by side, the first of which can be settled afterwards. -/
theorem Parallel.step (h : Parallel r r') (htake : r.Takes arg s)
    (hlater : s.awaitsValue = false → ∃ t, s.settle = .ok t) :
    ∃ s', r'.take arg = .ok s' ∧ Parallel s s' := by
  rcases h.same with hcore | ⟨hawaits, hcollecting, t, t', hsettle, hsettle', hcore⟩
  · exact h.step_of_core hcore htake
  have hpositional := isPositional_congr arg h.parsing
    (hawaits.trans hcollecting.awaitsValue.symm)
  by_cases hplain : r.IsPositional arg
  · -- both collect the argument, and it is a text since the first can be settled
    obtain ⟨u, f, hu, hucollecting, huparsing, husettle, hf⟩ := take_extra h.next hplain hsettle
    obtain ⟨u', f', hu', hucollecting', huparsing', husettle', hf'⟩ :=
      take_extra h.next' (hpositional.mp hplain) hsettle'
    cases hu.symm.trans (take_eq_ok_iff.mpr htake)
    obtain ⟨v, hv⟩ := hlater hucollecting.awaitsValue
    refine ⟨u', hu', hucollecting.next, hucollecting'.next, ?_,
      .inr ⟨hucollecting.awaitsValue, hucollecting', ?_⟩⟩
    · rw [huparsing, huparsing', h.parsing]
    · cases hread : readText arg with
      | error e =>
        rw [husettle, hread] at hv
        cases hv
      | ok text =>
        rw [hread] at husettle husettle'
        refine ⟨f text, f' text, husettle, husettle', ?_⟩
        rw [hf, hf', hcore]
  cases htake with
  | awaited hparsing htoken hawaited hpending =>
    rw [hawaits] at hawaited
    cases hawaited
  | gathered hgathered _ _ => exact absurd hgathered hplain
  | placed hplaced _ _ => exact absurd hplaced hplain
  | ended hparsing htoken =>
    have hparsing' : r'.onlyPositionals = false := h.parsing.symm.trans hparsing
    have hended : r.core = ({ r with onlyPositionals := true } : Reading).core := rfl
    have hended' : r'.core = ({ r' with onlyPositionals := true } : Reading).core := rfl
    obtain ⟨v, hv, htv⟩ := settle_core hended hsettle
    obtain ⟨v', hv', htv'⟩ := settle_core hended' hsettle'
    refine ⟨_, take_eq_ok_iff.mpr (.ended hparsing' htoken), h.next, h.next', rfl,
      .inr ⟨hawaits, ⟨hcollecting.next, hcollecting.pending⟩, v, v', hv, hv', ?_⟩⟩
    exact htv.symm.trans (hcore.trans htv')
  | begun hparsing hoption hbegun hbegin =>
    cases hsettle.symm.trans hbegun
    exact h.of_begun hparsing hoption hsettle hsettle' hcore hbegin

/-- Where the rest of a command line can be read and settled, what comes before it can be, unless it
ends with an option that awaits its value. -/
theorem exists_settle (hregular : r.Regular) (hawaits : r.awaitsValue = false)
    (hread : args.foldlM take r = .ok next) (hsettle : next.settle = .ok s) :
    ∃ t, r.settle = .ok t := by
  -- on the arguments: all but two kinds of them settle what is pending, and these two leave it
  -- pending for the next
  induction args generalizing r with
  | nil =>
    cases hread
    exact ⟨s, hsettle⟩
  | cons arg args ih =>
    obtain ⟨u, htake, hrest⟩ := foldlM_cons_eq_ok_iff.mp hread
    have htakes := take_eq_ok_iff.mp htake
    have huregular := regular_of_takes hregular htakes
    cases htakes with
    | awaited _ _ hawaited _ =>
      rw [hawaits] at hawaited
      cases hawaited
    | gathered hpositional hnext hpending =>
      rename_i values
      have hvalues := hregular.collected values hpending
      obtain ⟨t, ht⟩ := ih huregular rfl hrest
      cases hfails : r.settle with
      | ok t => exact ⟨t, rfl⟩
      | error e =>
        obtain ⟨e', he'⟩ := settle_of_gathered hpending hvalues hfails [arg]
        cases ht.symm.trans he'
    | placed hpositional hapart hplaced => exact ⟨_, hplaced⟩
    | ended hparsing htoken =>
      obtain ⟨t, ht⟩ := ih huregular hawaits hrest
      have hended : ({ r with onlyPositionals := true } : Reading).core = r.core := rfl
      obtain ⟨t', ht', -⟩ := settle_core hended ht
      exact ⟨t', ht'⟩
    | begun hparsing hoption hbegun hbegin => exact ⟨_, hbegun⟩

/-- Where one of two parallel readings can be settled, so can the other, to the same core. -/
theorem Parallel.settle (h : Parallel r r') (hsettle : r.settle = .ok s) :
    ∃ s', r'.settle = .ok s' ∧ s.core = s'.core := by
  rcases h.same with hcore | ⟨-, -, t, t', ht, ht', hcore⟩
  · exact settle_core hcore hsettle
  · cases ht.symm.trans hsettle
    exact ⟨t', ht', hcore⟩

/-- Two readings side by side to the end of a command line that the first can be settled after. -/
theorem Parallel.run (h : Parallel r r') (hregular : r.Regular)
    (hread : args.foldlM take r = .ok next) (hsettle : next.settle = .ok s) :
    ∃ next' s', args.foldlM take r' = .ok next' ∧ next'.settle = .ok s' ∧ s.core = s'.core := by
  -- on the arguments, with the first reading regular, so that it can be settled after each of them
  induction args generalizing r r' with
  | nil =>
    cases hread
    obtain ⟨s', hs', hcore⟩ := h.settle hsettle
    exact ⟨r', s', rfl, hs', hcore⟩
  | cons arg args ih =>
    obtain ⟨u, htake, hrest⟩ := foldlM_cons_eq_ok_iff.mp hread
    have htakes := take_eq_ok_iff.mp htake
    have huregular := regular_of_takes hregular htakes
    obtain ⟨u', htake', hparallel⟩ := h.step htakes
      fun hawaits => exists_settle huregular hawaits hrest hsettle
    obtain ⟨next', s', hread', hsettle', hcore⟩ := ih hparallel huregular hrest
    refine ⟨next', s', ?_, hsettle', hcore⟩
    rw [List.foldlM_cons, htake']
    exact hread'

structure Doomed (r : Reading) : Prop where
  collecting : r.Collecting
  unsettled : ∃ e, r.settle = .error e

/-- Neither the help nor the version is shown while something cannot be settled. -/
theorem usage_of_take_error {e : UsageError} {stop : EarlyStop} (hsettle : r.settle = .error e)
    (h : r.take arg = .error stop) : ∃ e', stop = .usage e' := by
  have husage {x : Except UsageError Reading} (hx : x.mapError EarlyStop.usage = .error stop) :
      ∃ e', stop = .usage e' := by
    obtain ⟨e', -, rfl⟩ := mapError_eq_error_iff.mp hx
    exact ⟨e', rfl⟩
  unfold take at h
  split at h
  · exact husage h
  · split at h
    · cases h
    · unfold takeLong at h
      rw [hsettle] at h
      split at h <;> cases h <;> exact ⟨_, rfl⟩
    · unfold takeShort at h
      rw [hsettle] at h
      split at h <;> cases h <;> exact ⟨_, rfl⟩
    · exact husage h

/-- A reading with extra arguments that cannot be settled never recovers: a step fails with a usage
error or leaves it doomed. -/
theorem Doomed.step (h : r.Doomed) (arg : Bytes) :
    (∃ e, r.take arg = .error (.usage e)) ∨ ∃ next, r.take arg = .ok next ∧ next.Doomed := by
  obtain ⟨e, hsettle⟩ := h.unsettled
  cases htake : r.take arg with
  | error stop =>
    obtain ⟨e', rfl⟩ := usage_of_take_error hsettle htake
    exact .inl ⟨e', rfl⟩
  | ok next =>
    refine .inr ⟨next, rfl, ?_⟩
    obtain ⟨values, hpending, hvalues⟩ := h.collecting.pending
    cases take_eq_ok_iff.mp htake with
    | awaited _ _ hawaited _ =>
      rw [h.collecting.awaitsValue] at hawaited
      cases hawaited
    | gathered hpositional hnext hpending' =>
      cases hpending.symm.trans hpending'
      refine ⟨⟨hnext, _, rfl, ?_⟩, settle_of_gathered hpending hvalues hsettle [arg]⟩
      exact List.append_ne_nil_of_right_ne_nil _ (List.cons_ne_nil _ _)
    | placed hpositional hapart _ => exact absurd h.collecting.gathers hapart
    | ended hparsing htoken =>
      -- the mark settles nothing, so what could not be settled before cannot be after it
      refine ⟨⟨h.collecting.next, h.collecting.pending⟩, ?_⟩
      cases hended : ({ r with onlyPositionals := true } : Reading).settle with
      | error e' => exact ⟨e', rfl⟩
      | ok s =>
        have hcore : ({ r with onlyPositionals := true } : Reading).core = r.core := rfl
        obtain ⟨s', hs', -⟩ := settle_core hcore hended
        cases hsettle.symm.trans hs'
    | begun _ _ hbegun _ => cases hsettle.symm.trans hbegun

/-- The rest of a line does not make up for it either. -/
theorem Doomed.run (h : r.Doomed) (args : List Bytes) :
    (∃ e, args.foldlM take r = .error (.usage e)) ∨
      ∃ next, args.foldlM take r = .ok next ∧ next.Doomed := by
  induction args generalizing r with
  | nil => exact .inr ⟨r, rfl, h⟩
  | cons arg args ih =>
    rw [List.foldlM_cons]
    rcases h.step arg with ⟨e, htake⟩ | ⟨next, htake, hnext⟩
    · rw [htake]
      exact .inl ⟨e, rfl⟩
    · rw [htake]
      exact ih hnext

/-- An extra argument makes no difference, or is no text. -/
theorem Parallel.extra (h : Parallel r r') (hsettle : r.settle = .ok s)
    (harg : arg.head? ≠ some Token.dash) :
    ∃ next, r'.take arg = .ok next ∧ ((Utf8.decode? arg).isSome → Parallel r next) ∧
      (Utf8.decode? arg = none → next.Doomed) := by
  obtain ⟨s', hsettle', hcore⟩ := h.settle hsettle
  have hpositional : r'.IsPositional arg :=
    .inr ⟨Token.ofBytes_of_undashed harg, awaitsValue_of_settle hsettle'⟩
  obtain ⟨next, f, htake, hcollecting, hparsing, hnext, hf⟩ :=
    take_extra h.next' hpositional hsettle'
  refine ⟨next, htake, fun htext => ?_, fun htext => ?_⟩
  · obtain ⟨text, htext⟩ := Option.isSome_iff_exists.mp htext
    rw [readText, htext] at hnext
    refine ⟨h.next, hcollecting.next, h.parsing.trans hparsing.symm, .inr ?_⟩
    exact ⟨awaitsValue_of_settle hsettle, hcollecting, s, f text, hsettle, hnext,
      hcore.trans (hf text).symm⟩
  · rw [readText, htext] at hnext
    exact ⟨hcollecting, _, hnext⟩

/-- Extra arguments that are text keep two readings parallel; one that is not dooms the reading that
holds it. -/
theorem Parallel.extras {extras : List Bytes} (h : Parallel r r') (hsettle : r.settle = .ok s)
    (hextras : ∀ x ∈ extras, x.head? ≠ some Token.dash) :
    ((∀ x ∈ extras, (Utf8.decode? x).isSome) →
      ∃ next, extras.foldlM take r' = .ok next ∧ Parallel r next) ∧
    ((∃ x ∈ extras, Utf8.decode? x = none) →
      (∃ e, extras.foldlM take r' = .error (.usage e)) ∨
        ∃ next, extras.foldlM take r' = .ok next ∧ next.Doomed) := by
  induction extras generalizing r' with
  | nil =>
    refine ⟨fun _ => ⟨r', rfl, h⟩, ?_⟩
    rintro ⟨x, hx, -⟩
    cases hx
  | cons x extras ih =>
    obtain ⟨hx, hrest⟩ := List.forall_mem_cons.mp hextras
    obtain ⟨next, htake, htext, hnone⟩ := h.extra hsettle hx
    rw [List.foldlM_cons, htake]
    constructor
    · intro hall
      obtain ⟨hfirst, hlater⟩ := List.forall_mem_cons.mp hall
      exact (ih (htext hfirst) hrest).1 hlater
    · intro hsome
      by_cases hfirst : Utf8.decode? x = none
      · exact (hnone hfirst).run extras
      · have hlater : ∃ y ∈ extras, Utf8.decode? y = none := by
          obtain ⟨y, hy, hynone⟩ := hsome
          rcases List.mem_cons.mp hy with rfl | hy
          · exact absurd hynone hfirst
          · exact ⟨y, hy, hynone⟩
        exact (ih (htext (Option.isSome_iff_ne_none.mpr hfirst)) hrest).2 hlater

theorem fillConfig_core {config : Option Bytes} (h : r.core = r'.core)
    (hfill : r.fillConfig config = .ok s) :
    ∃ s', r'.fillConfig config = .ok s' ∧ s.core = s'.core := by
  have hconfig : r.config = r'.config := congrArg (fun t => t.config) h
  unfold fillConfig at hfill ⊢
  rw [← hconfig]
  split at hfill
  · exact give_core h hfill
  · cases hfill
    exact ⟨r', rfl, h⟩

/-- Readings with the same core end in the same invocation but for the extras. -/
theorem finish_core {i : Invocation} (h : r.core = r'.core) (hfinish : r.finish = .ok (.run i)) :
    r'.finish = .ok (.run { i with extras := r'.extras }) := by
  have hcommand : r.command = r'.command := congrArg (fun t => t.command) h
  have hmount : r.mount = r'.mount := congrArg (fun t => t.mount) h
  have htimeout : r.timeoutMs = r'.timeoutMs := congrArg (fun t => t.timeoutMs) h
  have hjson : r.json = r'.json := congrArg (fun t => t.json) h
  have hconfig : r.config = r'.config := congrArg (fun t => t.config) h
  have hlogging : r.logging = r'.logging := congrArg (fun t => t.logging) h
  unfold finish at hfinish ⊢
  rw [hcommand, hmount, htimeout, hjson, hconfig, hlogging] at hfinish
  split at hfinish
  · cases hfinish
    rfl
  · cases hfinish
  · split at hfinish <;> cases hfinish

end Reading

namespace CommandLine

variable {args : List Bytes} {config : Option Bytes} {i : Invocation} {r : Reading}

/-- A command line that is understood is read, settled, filled up and finished. -/
theorem ofArguments_eq_run_iff : ofArguments args config = .ok (.run i) ↔
    ∃ r s t, args.foldlM Reading.take Reading.initial = .ok r ∧ r.settle = .ok s ∧
      s.fillConfig config = .ok t ∧ t.finish = .ok (.run i) := by
  unfold ofArguments
  cases hread : args.foldlM Reading.take Reading.initial with
  | error stop =>
    refine iff_of_false ?_ fun ⟨_, _, _, h, _⟩ => nomatch h
    cases stop <;> nofun
  | ok r =>
    change (r.settle >>= fun s => s.fillConfig config >>= fun t => t.finish) = _ ↔ _
    simp only [bind_eq_ok_iff]
    constructor
    · rintro ⟨s, hsettle, t, hfill, hfinish⟩
      exact ⟨r, s, t, rfl, hsettle, hfill, hfinish⟩
    · rintro ⟨_, s, t, ⟨⟩, hsettle, hfill, hfinish⟩
      exact ⟨s, hsettle, t, hfill, hfinish⟩

theorem ofArguments_of_usage {e : UsageError}
    (h : args.foldlM Reading.take Reading.initial = .error (.usage e)) :
    ofArguments args config = .error e := by
  rw [ofArguments, h]

theorem ofArguments_of_unsettled {e : UsageError}
    (h : args.foldlM Reading.take Reading.initial = .ok r) (hsettle : r.settle = .error e) :
    ofArguments args config = .error e := by
  rw [ofArguments, h]
  dsimp only
  rw [hsettle]
  rfl

/-- The reading of a beginning of a command line has come past the mount, and no option awaits its
value. -/
def AfterMount (front : List Bytes) : Prop :=
  ∃ r, front.foldlM Reading.take Reading.initial = .ok r ∧ r.nextPositional = .extra ∧
    r.awaitsValue = false

/-- A line that asks for a run has come past its mount in the end. -/
theorem afterMount_of_run (h : ofArguments args config = .ok (.run i)) : AfterMount args := by
  obtain ⟨r, s, t, hread, hsettle, hfill, hfinish⟩ := ofArguments_eq_run_iff.mp h
  refine ⟨r, hread, ?_, Reading.awaitsValue_of_settle hsettle⟩
  have hregular := (Reading.regular_of_foldlM Reading.regular_initial hread).settle hsettle
  have hfilled : t.mount = s.mount := by
    unfold Reading.fillConfig at hfill
    split at hfill
    · exact (Reading.gives_of_give hfill).mount (by decide)
    · cases hfill
      rfl
  have hmount : s.mount ≠ none := by
    intro hnone
    rw [Reading.finish, hfilled, hnone] at hfinish
    split at hfinish
    case h_1 heq => cases heq
    case h_2 => cases hfinish
    case h_3 => split at hfinish <;> cases hfinish
  apply Reading.nextPositional_eq_extra_iff.mpr
  rw [← (Reading.settled_of_settle hsettle).positionals]
  exact hregular.placed (.inl hmount)

/-- Extra arguments that are texts are kept apart from everything else that a command line asks for;
one that is no text is refused. -/
theorem ofArguments_insert_extras {front back extras : List Bytes}
    (h : ofArguments (front ++ back) config = .ok (.run i)) (hfront : AfterMount front)
    (hextras : ∀ x ∈ extras, x.head? ≠ some Token.dash) :
    ((∀ x ∈ extras, (Utf8.decode? x).isSome) →
      ∃ texts, ofArguments (front ++ extras ++ back) config =
        .ok (.run { i with extras := texts })) ∧
    ((∃ x ∈ extras, Utf8.decode? x = none) →
      ∃ e, ofArguments (front ++ extras ++ back) config = .error e) := by
  obtain ⟨r, hr, hnext, hawaits⟩ := hfront
  obtain ⟨u, s, t, hread, hsettle, hfill, hfinish⟩ := ofArguments_eq_run_iff.mp h
  have hregular := Reading.regular_of_foldlM Reading.regular_initial hr
  have hback : back.foldlM Reading.take r = .ok u := by
    rw [List.foldlM_append, hr] at hread
    exact hread
  obtain ⟨v, hv⟩ := Reading.exists_settle hregular hawaits hback hsettle
  obtain ⟨hkept, hrefused⟩ := (Reading.Parallel.refl hnext).extras hv hextras
  have hsplit : (front ++ extras ++ back).foldlM Reading.take Reading.initial =
      (extras.foldlM Reading.take r >>= fun next => back.foldlM Reading.take next) := by
    rw [List.append_assoc, List.foldlM_append, hr]
    change (extras ++ back).foldlM Reading.take r = _
    rw [List.foldlM_append]
  constructor
  · intro htexts
    obtain ⟨next, hnext, hparallel⟩ := hkept htexts
    obtain ⟨u', s', hread', hsettle', hcore⟩ := hparallel.run hregular hback hsettle
    obtain ⟨t', hfill', hcore'⟩ := Reading.fillConfig_core hcore hfill
    rw [hnext] at hsplit
    exact ⟨t'.extras, ofArguments_eq_run_iff.mpr
      ⟨u', s', t', hsplit.trans hread', hsettle', hfill', Reading.finish_core hcore' hfinish⟩⟩
  · intro hnone
    rcases hrefused hnone with ⟨e, herror⟩ | ⟨next, hnext, hdoomed⟩
    · rw [herror] at hsplit
      exact ⟨e, ofArguments_of_usage hsplit⟩
    · rw [hnext] at hsplit
      rcases hdoomed.run back with ⟨e, herror⟩ | ⟨last, hlast, hdoomed'⟩
      · exact ⟨e, ofArguments_of_usage (hsplit.trans herror)⟩
      · obtain ⟨e, hunsettled⟩ := hdoomed'.unsettled
        exact ⟨e, ofArguments_of_unsettled (hsplit.trans hlast) hunsettled⟩

end CommandLine

/-- Two runs with the same exit status, the same standard output and the same calls of the driver.
-/
structure Run.Agrees (r r' : Run) : Prop where
  exitCode : r.exitCode = r'.exitCode
  output : r.output = r'.output
  events : r.events = r'.events

namespace Launch

variable {l : Launch} {i : Invocation}

theorem agrees_fail (log log' : LogState) (output : Bytes) (events : List Event)
    (fault : RunFault) : (fail log output events fault).Agrees (fail log' output events fault) :=
  ⟨rfl, rfl, rfl⟩

/-- The extras of an invocation have no part in what its command does. -/
theorem command_agrees (l : Launch) (i : Invocation) (extras : List String) (settings : Settings)
    (log : LogState) : (l.command { i with extras := extras } settings log).Agrees
      (l.command i settings log) := by
  unfold command
  dsimp only
  generalize Transport.execute _ _ _ _ = exchange
  split
  · exact agrees_fail _ _ _ _ _
  · exact agrees_fail _ _ _ _ _
  · exact agrees_fail _ _ _ _ _
  · split
    · exact agrees_fail _ _ _ _ _
    · exact ⟨rfl, rfl, rfl⟩

/-- They have no part in the settings and the log that come before either. -/
theorem perform_agrees (l : Launch) (i : Invocation) (extras : List String) :
    (l.perform { i with extras := extras }).Agrees (l.perform i) := by
  unfold perform
  dsimp only
  split
  · exact agrees_fail _ _ _ _ _
  · split
    · exact agrees_fail _ _ _ _ _
    · exact command_agrees _ _ _ _ _

def withArguments (l : Launch) (args : List Bytes) : Launch :=
  { l with arguments := args }

theorem command_withArguments (l : Launch) (args : List Bytes) (i : Invocation)
    (settings : Settings) (log : LogState) :
    (l.withArguments args).command i settings log = l.command i settings log := by
  have hcwd : (l.withArguments args).cwd = l.cwd := rfl
  have hdriver : (l.withArguments args).driver log.files = l.driver log.files := rfl
  have hwrite : (l.withArguments args).writeReport = l.writeReport := rfl
  rw [command, command, hcwd, hdriver, hwrite]

/-- Once read, the arguments themselves are not looked at again. -/
theorem perform_withArguments (l : Launch) (args : List Bytes) (i : Invocation) :
    (l.withArguments args).perform i = l.perform i := by
  have hcwd : (l.withArguments args).cwd = l.cwd := rfl
  have hfiles : (l.withArguments args).files = l.files := rfl
  have henv : (l.withArguments args).environment = l.environment := rfl
  have hvalue : (l.withArguments args).environmentValue? = l.environmentValue? := rfl
  have horder : (l.withArguments args).order = l.order := rfl
  simp only [perform, hcwd, hfiles, henv, hvalue, horder, command_withArguments]

theorem write_nothing (s : Sink) : (s.write none [[]]).accepted = [] := by
  unfold Sink.write
  split
  · rfl
  · exact List.take_nil

/-- A command line that is refused leaves nothing on standard output, and the mount alone. -/
theorem run_of_usage {e : UsageError}
    (h : CommandLine.ofArguments l.arguments (l.environmentValue? configVariable) = .error e) :
    l.run.exitCode = 2 ∧ l.run.output = [] ∧ l.run.events = [] := by
  rw [run, h]
  exact ⟨rfl, write_nothing l.output, rfl⟩

theorem readArguments_eq_ok_iff : l.readArguments = .ok i ↔
    CommandLine.ofArguments l.arguments (l.environmentValue? configVariable) = .ok (.run i) := by
  unfold readArguments
  split
  case h_1 heq => simp [heq]
  case h_2 heq => simp [heq]
  case h_3 heq => simp [heq]
  case h_4 heq => simp [heq]
  case h_5 heq => simp [heq]

/-- Extra arguments of a command line that runs a command, wherever they stand after the mount, have
no influence on the exit status, standard output and the calls of the driver as long as all of them
are texts. If one of them is no text, the command line is refused instead. -/
theorem run_with_extra_arguments (h : l.readArguments = .ok i) :
    CommandLine.AfterMount l.arguments ∧
      ∀ front back extras, l.arguments = front ++ back → CommandLine.AfterMount front →
        (∀ x ∈ extras, x.head? ≠ some Token.dash) →
          let r := (l.withArguments (front ++ extras ++ back)).run
          ((∀ x ∈ extras, (Utf8.decode? x).isSome) → r.Agrees l.run) ∧
            ((∃ x ∈ extras, Utf8.decode? x = none) →
              r.exitCode = 2 ∧ r.output = [] ∧ r.events = []) := by
  have hline := readArguments_eq_ok_iff.mp h
  refine ⟨CommandLine.afterMount_of_run hline, ?_⟩
  intro front back extras hargs hfront hextras r
  rw [hargs] at hline
  obtain ⟨hkept, hrefused⟩ := CommandLine.ofArguments_insert_extras hline hfront hextras
  constructor
  · intro htexts
    obtain ⟨texts, hline'⟩ := hkept htexts
    have hread' : (l.withArguments (front ++ extras ++ back)).readArguments =
        .ok { i with extras := texts } := readArguments_eq_ok_iff.mpr hline'
    have hrun := run_of_read hread'
    rw [perform_withArguments] at hrun
    change (l.withArguments (front ++ extras ++ back)).run.Agrees l.run
    rw [hrun, run_of_read h]
    exact perform_agrees l i texts
  · intro hnone
    obtain ⟨e, hline'⟩ := hrefused hnone
    have hrefusal : CommandLine.ofArguments (l.withArguments (front ++ extras ++ back)).arguments
        ((l.withArguments (front ++ extras ++ back)).environmentValue? configVariable) =
          .error e := hline'
    exact run_of_usage hrefusal

/-- Two texts, one of them empty, between the mount and an option, and a byte that is no text in
their place. -/
theorem run_with_extra_arguments_before_option :
    let front := [Utf8.encode "Reset_Cache", Utf8.encode "/"]
    let back := [Utf8.encode "--json", Utf8.encode "a"]
    let l : Launch :=
      ⟨front ++ back, [], [Path.slash], ⟨[]⟩, fun _ _ => .reply 0 [], .unbounded, .asListed⟩
    let i : Invocation :=
      ⟨"Reset_Cache", [Path.slash], ["a"], none, true, none, ⟨none, none, none⟩⟩
    l.readArguments = .ok i ∧ CommandLine.AfterMount front ∧
      (l.withArguments (front ++ [Utf8.encode "b", []] ++ back)).run.Agrees l.run ∧
      (l.withArguments (front ++ [[0xFF]] ++ back)).run.exitCode = 2 := by
  intro front back l i
  have hread : l.readArguments = .ok i := by
    apply readArguments_eq_ok_iff.mpr
    decide
  have hfront : CommandLine.AfterMount front := by
    have hshort : CommandLine.ofArguments front none =
        .ok (.run ⟨"Reset_Cache", [Path.slash], [], none, false, none, ⟨none, none, none⟩⟩) := by
      decide
    exact CommandLine.afterMount_of_run hshort
  obtain ⟨-, hinsert⟩ := run_with_extra_arguments hread
  have htexts := hinsert front back [Utf8.encode "b", []] rfl hfront (by decide)
  have hbyte := hinsert front back [[0xFF]] rfl hfront (by decide)
  exact ⟨hread, hfront, htexts.1 (by decide), (hbyte.2 (by decide)).1⟩

/-- One byte that is no text after the mount, and a run that would report success is refused before
the driver is called. -/
theorem run_refused_by_extra_byte :
    let l : Launch := ⟨[Utf8.encode "reset_cache", Utf8.encode "/"], [], [Path.slash], ⟨[]⟩,
      fun _ _ => .reply 0 [], .unbounded, .asListed⟩
    let r := (l.withArguments (l.arguments ++ [[0xFF]])).run
    l.run.exitCode = 0 ∧ l.run.output = Utf8.encode "reset cache: /\nDone!\n" ∧
      l.run.events.filterMap Event.code? = [Operation.resetCache.code] ∧
      r.exitCode = 2 ∧ r.output = [] ∧ r.events = [] := by
  decide

end Launch

end MountControl
