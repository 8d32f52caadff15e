import Mathlib.Data.List.Forall2
import MountControl.Control.Session
import MountControl.Proofs.Exchange

namespace MountControl

namespace Step

/-- The request code of a step; the command of an unknown name has none. -/
def code? (s : Step) : Option RequestCode :=
  match s.action with
  | .execute command =>
    match Operation.ofText command with
    | .ok op => some op.code
    | .error _ => none
  | .run op => some op.code
  | .invoke code _ => some code

/-- The input of a step; operations send none. -/
def input (s : Step) : Option Bytes :=
  match s.action with
  | .invoke _ input => input
  | _ => none

structure Opens (t : Transport) (s : Step) (path : Path) (code : RequestCode)
    (visible : Option Bytes) : Prop where
  named : s.code? = some code
  buffered : ∃ buffer,
    transferBuffer code s.input = .ok buffer ∧ visible = visibleBuffer code buffer
  resolved : resolveMount t.cwd s.mount = .ok path
  granted : s.driver.opening path = none

def calledCode? (t : Transport) (s : Step) : Option RequestCode :=
  s.code?.filter fun code =>
    match transferBuffer code s.input, resolveMount t.cwd s.mount with
    | .ok _, .ok path => (s.driver.opening path).isNone
    | _, _ => false

/-- A step opens one path, with one call. -/
theorem Opens.unique {t : Transport} {s : Step} {path path' : Path} {code code' : RequestCode}
    {visible visible' : Option Bytes} (h : s.Opens t path code visible)
    (h' : s.Opens t path' code' visible') : path = path' ∧ code = code' ∧ visible = visible' := by
  have hcode : code = code' := Option.some.inj (h.named.symm.trans h'.named)
  subst hcode
  obtain ⟨buffer, hb, rfl⟩ := h.buffered
  obtain ⟨buffer', hb', rfl⟩ := h'.buffered
  cases hb.symm.trans hb'
  cases h.resolved.symm.trans h'.resolved
  exact ⟨rfl, rfl, rfl⟩

theorem Opens.calledCode? {t : Transport} {s : Step} {path : Path} {code : RequestCode}
    {visible : Option Bytes} (h : s.Opens t path code visible) : s.calledCode? t = some code := by
  obtain ⟨buffer, hb, _⟩ := h.buffered
  simp only [Step.calledCode?, h.named, hb, h.resolved, h.granted, Option.filter_some,
    Option.isNone_none, if_true]

theorem opens_of_calledCode? {t : Transport} {s : Step} {code : RequestCode}
    (h : s.calledCode? t = some code) : ∃ path visible, s.Opens t path code visible := by
  obtain ⟨hc, h⟩ := Option.filter_eq_some_iff.mp h
  cases hb : transferBuffer code s.input with
  | error e => simp only [hb, Bool.false_eq_true] at h
  | ok buffer =>
    cases hp : resolveMount t.cwd s.mount with
    | error e => simp only [hb, hp, Bool.false_eq_true] at h
    | ok path =>
      simp only [hb, hp, Option.isNone_iff_eq_none] at h
      exact ⟨path, _, hc, ⟨buffer, hb, rfl⟩, hp, h⟩

end Step

namespace Event

def isClose : Event → Bool
  | closed => true
  | _ => false

def code? : Event → Option RequestCode
  | called code _ => some code
  | _ => none

end Event

/-- The ways in which the events of a step can run: the mount is left alone; the root cannot be
opened; the call ends and the root is closed before the return; or the caller gives up before. -/
inductive Shape
  | untouched
  | unopened (path : Path)
  | completed (path : Path) (code : RequestCode) (visible : Option Bytes)
  | abandoned (path : Path) (code : RequestCode) (visible : Option Bytes)

namespace Shape

def events : Shape → List Event
  | untouched => [.returned]
  | unopened path => [.opened path, .returned]
  | completed path code visible =>
    [.opened path, .called code visible, .closed, .returned]
  | abandoned path code visible =>
    [.opened path, .called code visible, .returned, .closed]

/-- The events tell their shape. -/
theorem events_injective {a b : Shape} (h : a.events = b.events) : a = b := by
  cases a <;> cases b <;> simp_all [events]

def code? : Shape → Option RequestCode
  | completed _ code _ | abandoned _ code _ => some code
  | _ => none

theorem filterMap_code?_events (shape : Shape) :
    shape.events.filterMap Event.code? = shape.code?.toList := by
  cases shape <;> rfl

theorem countP_isClose_events (shape : Shape) :
    shape.events.countP Event.isClose = shape.code?.toList.length := by
  cases shape <;> rfl

/-- A call comes right after the attempt to open the root, which succeeded. -/
theorem events_eq_append_called {shape : Shape} {before after : List Event} {code : RequestCode}
    {visible : Option Bytes} (h : shape.events = before ++ .called code visible :: after) :
    ∃ path, before = [.opened path] ∧
      (shape = .completed path code visible ∨ shape = .abandoned path code visible) := by
  cases shape with
  -- of the events only the second can be a call
  | untouched | unopened path =>
    rcases before with _ | ⟨a, _ | ⟨b, before⟩⟩ <;> simp [events] at h
  | completed path c v | abandoned path c v =>
    rcases before with _ | ⟨a, _ | ⟨b, _ | ⟨c', _ | ⟨d, before⟩⟩⟩⟩ <;> simp [events] at h
    obtain ⟨rfl, ⟨rfl, rfl⟩, _⟩ := h
    exact ⟨path, rfl, by simp⟩

end Shape

def TellsOfEnd (r : Except Halt StepResult) : Prop :=
  match r with
  | .error (.failure (.invalidCommand _)) => False
  | .error (.failure (.payloadTooLarge _ _ _)) => False
  | .error (.failure (.mountUnavailable _ _)) => False
  | .error (.failure (.timedOut _ _)) => False
  | _ => True

inductive Verdict (t : Transport) (s : Step) : Shape → Except Halt StepResult → Prop
  | unknown {text} (h : s.code? = none) :
    Verdict t s .untouched (.error (.failure (.invalidCommand text)))
  | tooLong {code size actual} (hc : s.code? = some code)
    (h : transferBuffer code s.input = .error (.payloadTooLarge code size actual)) :
    Verdict t s .untouched (.error (.failure (.payloadTooLarge code size actual)))
  | nowhere (h : s.mount = []) :
    Verdict t s .untouched (.error (.failure (.mountUnavailable [] .emptyPath)))
  | unopened {path cause} (hp : resolveMount t.cwd s.mount = .ok path)
    (ho : s.driver.opening path = some cause) :
    Verdict t s (.unopened path) (.error (.failure (.mountUnavailable path cause)))
  | abandoned {path code visible limit} (h : s.Opens t path code visible)
    (hl : t.limit = some limit) (ha : s.driver.answer code visible = .silence) :
    Verdict t s (.abandoned path code visible) (.error (.failure (.timedOut code limit)))
  | completed {path code visible r} (h : s.Opens t path code visible)
    (ha : t.limit = none ∨ s.driver.answer code visible ≠ .silence) (hr : TellsOfEnd r) :
    Verdict t s (.completed path code visible) r

namespace Verdict

variable {t : Transport} {s : Step} {shape : Shape} {r : Except Halt StepResult}

/-- The root is opened just in the shapes that call the driver, with the path, code and buffer that
they show. -/
theorem opens_iff (v : Verdict t s shape r) {path : Path} {code : RequestCode}
    {visible : Option Bytes} : s.Opens t path code visible ↔
      shape = .completed path code visible ∨ shape = .abandoned path code visible := by
  cases v with
  | unknown h =>
    refine ⟨fun ho => ?_, by rintro (h | h) <;> cases h⟩
    cases h.symm.trans ho.named
  | tooLong hc h =>
    refine ⟨fun ho => ?_, by rintro (h | h) <;> cases h⟩
    cases Option.some.inj (hc.symm.trans ho.named)
    obtain ⟨buffer, hb, _⟩ := ho.buffered
    cases h.symm.trans hb
  | nowhere h =>
    refine ⟨fun ho => ?_, by rintro (h | h) <;> cases h⟩
    have hp := ho.resolved
    rw [h, resolveMount_nil] at hp
    cases hp
  | unopened hp hc =>
    refine ⟨fun ho => ?_, by rintro (h | h) <;> cases h⟩
    cases hp.symm.trans ho.resolved
    cases hc.symm.trans ho.granted
  | abandoned h _ _ =>
    constructor
    · intro ho
      obtain ⟨rfl, rfl, rfl⟩ := h.unique ho
      exact .inr rfl
    · rintro (he | he) <;> cases he
      exact h
  | completed h _ _ =>
    constructor
    · intro ho
      obtain ⟨rfl, rfl, rfl⟩ := h.unique ho
      exact .inl rfl
    · rintro (he | he) <;> cases he
      exact h

theorem calledCode? (v : Verdict t s shape r) : s.calledCode? t = shape.code? := by
  cases hs : s.calledCode? t with
  | some code =>
    obtain ⟨path, visible, ho⟩ := Step.opens_of_calledCode? hs
    rcases v.opens_iff.mp ho with rfl | rfl <;> rfl
  | none =>
    cases v with
    | abandoned h _ _ | completed h _ _ => cases hs.symm.trans h.calledCode?
    | _ => rfl

theorem untouched_iff (v : Verdict t s shape r) : shape = .untouched ↔
    (∃ text, r = .error (.failure (.invalidCommand text))) ∨
      (∃ code size actual, r = .error (.failure (.payloadTooLarge code size actual))) ∨
      s.mount = [] ∧ r = .error (.failure (.mountUnavailable [] .emptyPath)) := by
  cases v with
  | unknown h => simp
  | tooLong hc h => simp
  | nowhere h => simp [h]
  | unopened hp ho => simp [resolveMount_ne_nil hp]
  | abandoned h hl ha => simp
  | completed h ha hr =>
    refine ⟨fun he => (by cases he), ?_⟩
    rintro (⟨text, rfl⟩ | ⟨code, size, actual, rfl⟩ | ⟨_, rfl⟩) <;> exact hr.elim

theorem unopened_iff (v : Verdict t s shape r) (path : Path) : shape = .unopened path ↔
    s.mount ≠ [] ∧ ∃ cause, r = .error (.failure (.mountUnavailable path cause)) := by
  cases v with
  | unknown h => simp
  | tooLong hc h => simp
  | nowhere h => simp [h]
  | unopened hp ho => simp [resolveMount_ne_nil hp]
  | abandoned h hl ha => simp
  | completed h ha hr =>
    refine ⟨fun he => (by cases he), ?_⟩
    rintro ⟨_, cause, rfl⟩
    exact hr.elim

/-- A call is abandoned just if the result is a time-out. -/
theorem abandoned_iff (v : Verdict t s shape r) :
    (∃ path code visible, shape = .abandoned path code visible) ↔
      ∃ code limit, r = .error (.failure (.timedOut code limit)) := by
  cases v with
  | completed h ha hr =>
    constructor
    · rintro ⟨path, code, visible, he⟩
      cases he
    · rintro ⟨code, limit, rfl⟩
      exact hr.elim
  | _ => simp

/-- The caller gives up just if there is a limit and the driver is silent, and it tells of both. -/
theorem timedOut_iff (v : Verdict t s shape r) (code : RequestCode) (limit : Duration) :
    r = .error (.failure (.timedOut code limit)) ↔ t.limit = some limit ∧
      ∃ path visible, s.Opens t path code visible ∧ s.driver.answer code visible = .silence := by
  constructor
  · intro hr
    obtain ⟨path, code', visible, rfl⟩ := v.abandoned_iff.mpr ⟨code, limit, hr⟩
    cases v with
    | abandoned h hl ha =>
      cases hr
      exact ⟨hl, path, visible, h, ha⟩
  · rintro ⟨hl, path, visible, ho, ha⟩
    rcases v.opens_iff.mp ho with rfl | rfl
    · cases v with
      | completed h hwait hr =>
        rcases hwait with hnone | hspeaks
        · cases hl.symm.trans hnone
        · exact absurd ha hspeaks
    · cases v with
      | abandoned h hl' ha' =>
        cases hl.symm.trans hl'
        rfl

/-- A call is completed just if the result tells of its end. -/
theorem completed_iff (v : Verdict t s shape r) :
    (∃ path code visible, shape = .completed path code visible) ↔ TellsOfEnd r := by
  cases v with
  | completed h ha hr => simp [hr]
  | _ => simp [TellsOfEnd]

end Verdict

/-- The result of a step whose code is known follows that of its invocation: what stops the
invocation stops the step, and a reply leads to an end that tells of it. -/
structure Follows (x : Exchange Reply) (y : Exchange StepResult) : Prop where
  events : y.events = x.events
  halted : ∀ h, x.result = .error h → y.result = .error h
  replied : ∀ r, x.result = .ok r → TellsOfEnd y.result

namespace Transport

theorem run_events (t : Transport) (driver : Driver) (op : Operation) (mount : Path) :
    (t.run driver op mount).events = (t.invoke driver mount op.code none).events := by
  unfold run
  dsimp only
  split
  · rfl
  · split <;> rfl

theorem run_of_halt {t : Transport} {driver : Driver} {op : Operation} {mount : Path} {halt : Halt}
    (h : (t.invoke driver mount op.code none).result = .error halt) :
    (t.run driver op mount).result = .error halt := by
  simp only [run, h]

/-- The result of an operation that was replied to is what its check and decoding say. -/
theorem run_of_reply {t : Transport} {driver : Driver} {op : Operation} {mount : Path}
    {reply : Reply} (h : (t.invoke driver mount op.code none).result = .ok reply) :
    (t.run driver op mount).result = (reply.check op >>= op.decode).mapError .failure := by
  simp only [run, h]
  cases reply.check op >>= op.decode <;> rfl

theorem execute_of_unknown {t : Transport} {driver : Driver} {command : String} {mount : Path}
    {fault : ProtocolFault} (h : Operation.ofText command = .error fault) :
    t.execute driver command mount =
      ⟨.error (.failure (.invalidCommand command)), [.returned], []⟩ := by
  simp only [execute, h]

theorem execute_of_known {t : Transport} {driver : Driver} {command : String} {mount : Path}
    {op : Operation} (h : Operation.ofText command = .ok op) :
    t.execute driver command mount = t.run driver op mount := by
  simp only [execute, h]

/-- The check of a reply and the reading of its data fail only with errors that tell of a call. -/
theorem tellsOfEnd_of_check {op : Operation} {reply : Reply} {e : ControlError}
    (h : (reply.check op >>= op.decode) = .error e) : TellsOfEnd (.error (.failure e)) := by
  unfold Reply.check at h
  split at h
  · cases op with
    | resetCache => cases h
    | showConnections =>
      have hdecode : Operation.showConnections.decode reply.data = .error e := h
      unfold Operation.decode at hdecode
      dsimp only at hdecode
      split at hdecode
      · cases hdecode
      · cases hdecode
        trivial
  · cases h
    trivial

/-- An operation has the events of its call, and fails where the call does. -/
theorem run_follows (t : Transport) (driver : Driver) (op : Operation) (mount : Path) :
    Follows (t.invoke driver mount op.code none) ((t.run driver op mount).map .outcome) where
  events := t.run_events driver op mount
  halted := by
    intro halt h
    rw [Exchange.map, run_of_halt h]
    rfl
  replied := by
    intro reply h
    rw [Exchange.map, run_of_reply h]
    cases hcheck : reply.check op >>= op.decode with
    | error e => exact tellsOfEnd_of_check hcheck
    | ok outcome => trivial

/-- A step whose code is known does what an invocation with that code does. -/
theorem perform_follows (t : Transport) {s : Step} {code : RequestCode} (h : s.code? = some code) :
    Follows (t.invoke s.driver s.mount code s.input) (t.perform s) := by
  obtain ⟨mount, driver, action⟩ := s
  cases action with
  | execute command =>
    simp only [Step.code?] at h
    cases hop : Operation.ofText command with
    | error fault =>
      rw [hop] at h
      cases h
    | ok op =>
      rw [hop] at h
      cases h
      simp only [perform, execute_of_known hop, Step.input]
      exact t.run_follows driver op mount
  | run op =>
    cases h
    exact t.run_follows driver op mount
  | invoke code' input =>
    cases h
    simp only [perform, Step.input]
    generalize t.invoke driver mount code input = x
    obtain ⟨result, events, notes⟩ := x
    cases result with
    | error halt => exact ⟨rfl, fun h hh => by cases hh; rfl, fun r hr => by cases hr⟩
    | ok reply => exact ⟨rfl, fun h hh => (by cases hh), fun r hr => trivial⟩

theorem perform_of_unknown (t : Transport) {s : Step} (h : s.code? = none) :
    ∃ text, (t.perform s).result = .error (.failure (.invalidCommand text)) ∧
      (t.perform s).events = [.returned] := by
  obtain ⟨mount, driver, action⟩ := s
  cases action with
  | execute command =>
    simp only [Step.code?] at h
    cases hop : Operation.ofText command with
    | error fault =>
      simp only [perform, execute_of_unknown hop]
      exact ⟨command, rfl, rfl⟩
    | ok op =>
      rw [hop] at h
      cases h
  | run op => cases h
  | invoke code input => cases h

/-- The caller of a call that was made gives up, or it waits until the root is closed. -/
theorem conclude_cases (limit : Option Duration) (code : RequestCode) (buffer : Bytes)
    (answer : Answer) :
    (∃ d, limit = some d ∧ answer = .silence ∧ conclude limit code buffer answer = .gaveUp d) ∨
      ((limit = none ∨ answer ≠ .silence) ∧
        (conclude limit code buffer answer).ending = [.closed, .returned] ∧
        ∀ h, (conclude limit code buffer answer).result code = .error h →
          TellsOfEnd (.error h)) := by
  cases answer with
  | reply status data =>
    exact .inr ⟨.inr (by simp), rfl, fun h hh => (by cases hh)⟩
  | refuse cause =>
    exact .inr ⟨.inr (by simp), rfl, fun h hh => (by cases hh; trivial)⟩
  | silence =>
    cases limit with
    | some d => exact .inl ⟨d, rfl, rfl, rfl⟩
    | none => exact .inr ⟨.inl rfl, rfl, fun h hh => (by cases hh)⟩
  | abort message =>
    refine .inr ⟨.inr (by simp), ?_⟩
    cases limit with
    | some d => exact ⟨rfl, fun h hh => (by cases hh; trivial)⟩
    | none => exact ⟨rfl, fun h hh => (by cases hh; trivial)⟩

/-- Every step has a shape, and its result goes with the shape. -/
theorem perform_verdict (t : Transport) (s : Step) :
    ∃ shape, (t.perform s).events = shape.events ∧ Verdict t s shape (t.perform s).result := by
  cases hc : s.code? with
  | none =>
    obtain ⟨text, hr, he⟩ := t.perform_of_unknown hc
    exact ⟨.untouched, he, hr ▸ .unknown hc⟩
  | some code =>
    obtain ⟨hevents, hhalted, hreplied⟩ := t.perform_follows hc
    rw [hevents]
    cases hb : transferBuffer code s.input with
    | error e =>
      rw [invoke_of_refused_input hb] at hhalted ⊢
      rw [hhalted _ rfl]
      obtain ⟨bytes, _, _, _, rfl⟩ := transferBuffer_error hb
      exact ⟨.untouched, rfl, .tooLong hc hb⟩
    | ok buffer =>
      cases hp : resolveMount t.cwd s.mount with
      | error e =>
        rw [invoke_of_unresolved hb hp] at hhalted ⊢
        rw [hhalted _ rfl]
        obtain ⟨hm, rfl⟩ := resolveMount_error hp
        exact ⟨.untouched, rfl, .nowhere hm⟩
      | ok path =>
        cases ho : s.driver.opening path with
        | some cause =>
          rw [invoke_of_unopened hb hp ho] at hhalted ⊢
          rw [hhalted _ rfl]
          exact ⟨.unopened path, rfl, .unopened hp ho⟩
        | none =>
          rw [invoke_of_opened hb hp ho] at hhalted hreplied ⊢
          dsimp only at hhalted hreplied ⊢
          have hopens : s.Opens t path code (visibleBuffer code buffer) :=
            ⟨hc, ⟨buffer, hb, rfl⟩, hp, ho⟩
          -- the close and the return change places if the caller gives up
          rcases conclude_cases t.limit code buffer
            (s.driver.answer code (visibleBuffer code buffer)) with
            ⟨d, hl, ha, hcon⟩ | ⟨hwait, hend, hfail⟩
          · rw [hcon] at hhalted ⊢
            rw [hhalted _ rfl]
            exact ⟨.abandoned path code _, rfl, .abandoned hopens hl ha⟩
          · refine ⟨.completed path code _, by rw [hend]; rfl, .completed hopens hwait ?_⟩
            cases hr : (conclude t.limit code buffer
              (s.driver.answer code (visibleBuffer code buffer))).result code with
            | error halt =>
              rw [hhalted halt hr]
              exact hfail halt hr
            | ok reply => exact hreplied reply hr

end Transport

/-- What can be said of a step of a session by its events and its result. -/
structure EventLaw (t : Transport) (s : Step) (x : Exchange StepResult) : Prop where
  /-- The events have a shape; a root that is opened is the step's own, and if that succeeds it sees
  the step's own call. -/
  shape : ∃ shape : Shape, x.events = shape.events ∧
    (∀ path, .opened path ∈ x.events → resolveMount t.cwd s.mount = .ok path) ∧
    ∀ path code visible, s.Opens t path code visible ↔
      shape = .completed path code visible ∨ shape = .abandoned path code visible
  untouched_iff : x.events = [.returned] ↔
    (∃ text, x.result = .error (.failure (.invalidCommand text))) ∨
      (∃ code size actual, x.result = .error (.failure (.payloadTooLarge code size actual))) ∨
      s.mount = [] ∧ x.result = .error (.failure (.mountUnavailable [] .emptyPath))
  unopened_iff : ∀ path, x.events = [.opened path, .returned] ↔
    s.mount ≠ [] ∧ ∃ cause, x.result = .error (.failure (.mountUnavailable path cause))
  abandoned_iff :
    (∃ path code visible,
      x.events = [.opened path, .called code visible, .returned, .closed]) ↔
      ∃ code limit, x.result = .error (.failure (.timedOut code limit))
  timedOut_iff : ∀ code limit, x.result = .error (.failure (.timedOut code limit)) ↔
    t.limit = some limit ∧
      ∃ path visible, s.Opens t path code visible ∧ s.driver.answer code visible = .silence
  completed_iff :
    (∃ path code visible,
      x.events = [.opened path, .called code visible, .closed, .returned]) ↔ TellsOfEnd x.result

theorem Verdict.opened_mem {t : Transport} {s : Step} {shape : Shape} {r : Except Halt StepResult}
    (v : Verdict t s shape r) {path : Path} (h : .opened path ∈ shape.events) :
    resolveMount t.cwd s.mount = .ok path := by
  cases v with
  | unknown | tooLong | nowhere => simp [Shape.events] at h
  | unopened hp ho =>
    simp [Shape.events] at h
    exact h ▸ hp
  | abandoned ho _ _ | completed ho _ _ =>
    simp [Shape.events] at h
    exact h ▸ ho.resolved

/-- Every step, whatever it asks for, obeys the law. -/
theorem Transport.perform_eventLaw (t : Transport) (s : Step) : EventLaw t s (t.perform s) := by
  obtain ⟨shape, hevents, v⟩ := t.perform_verdict s
  have hshape (other : Shape) : (t.perform s).events = other.events ↔ shape = other := by
    rw [hevents]
    exact ⟨Shape.events_injective, congrArg Shape.events⟩
  exact {
    shape := ⟨shape, hevents, fun path h => v.opened_mem (hevents ▸ h), fun _ _ _ => v.opens_iff⟩
    untouched_iff := (hshape .untouched).trans v.untouched_iff
    unopened_iff := fun path => (hshape (.unopened path)).trans (v.unopened_iff path)
    abandoned_iff := by
      rw [← v.abandoned_iff]
      exact exists_congr fun path => exists_congr fun code => exists_congr fun visible =>
        hshape (.abandoned path code visible)
    timedOut_iff := v.timedOut_iff
    completed_iff := by
      rw [← v.completed_iff]
      exact exists_congr fun path => exists_congr fun code => exists_congr fun visible =>
        hshape (.completed path code visible) }

namespace Transport

def trace (t : Transport) (steps : List Step) : List Event :=
  (t.session steps).flatMap (·.events)

theorem trace_cons (t : Transport) (s : Step) (steps : List Step) :
    t.trace (s :: steps) = (t.perform s).events ++ t.trace steps :=
  rfl

/-- The calls of a session are those of the steps whose root was opened, in order. -/
theorem filterMap_code?_trace (t : Transport) (steps : List Step) :
    (t.trace steps).filterMap Event.code? = steps.filterMap (Step.calledCode? t) := by
  induction steps with
  | nil => rfl
  | cons s steps ih =>
    obtain ⟨shape, hevents, v⟩ := t.perform_verdict s
    rw [trace_cons, List.filterMap_append, ih, hevents, shape.filterMap_code?_events,
      ← v.calledCode?, List.filterMap_cons]
    cases s.calledCode? t <;> rfl

theorem countP_isClose_trace (t : Transport) (steps : List Step) :
    (t.trace steps).countP Event.isClose = (steps.filterMap (Step.calledCode? t)).length := by
  induction steps with
  | nil => rfl
  | cons s steps ih =>
    obtain ⟨shape, hevents, v⟩ := t.perform_verdict s
    rw [trace_cons, List.countP_append, ih, hevents, shape.countP_isClose_events,
      ← v.calledCode?, List.filterMap_cons]
    cases s.calledCode? t with
    | none => exact Nat.zero_add _
    | some code => exact Nat.add_comm _ _

/-- A call of a session comes right after its step has opened the root. -/
theorem called_of_trace (t : Transport) {steps : List Step} {before after : List Event}
    {code : RequestCode} {visible : Option Bytes}
    (h : t.trace steps = before ++ .called code visible :: after) :
    ∃ earlier path, before = earlier ++ [.opened path] ∧
      ∃ s ∈ steps, s.Opens t path code visible := by
  induction steps generalizing before with
  | nil => simp [trace, session] at h
  | cons s steps ih =>
    obtain ⟨shape, hevents, v⟩ := t.perform_verdict s
    rw [trace_cons, hevents, List.append_eq_append_iff] at h
    -- the call is one of a later step, or of this one
    rcases h with ⟨between, hbefore, hrest⟩ | ⟨between, hshape, hrest⟩
    · obtain ⟨earlier, path, rfl, s', hs', ho⟩ := ih hrest
      exact ⟨shape.events ++ earlier, path, by rw [hbefore, List.append_assoc], s',
        List.mem_cons_of_mem _ hs', ho⟩
    · cases between with
      | nil =>
        have hfirst : t.trace steps = [] ++ .called code visible :: after := hrest.symm
        obtain ⟨earlier, path, hearlier, _⟩ := ih hfirst
        simp at hearlier
      | cons e between =>
        cases hrest
        obtain ⟨path, rfl, hcalls⟩ := Shape.events_eq_append_called hshape
        exact ⟨[], path, rfl, s, List.mem_cons_self, v.opens_iff.mpr hcalls⟩

/-- Every step of a session keeps to the law of its events; and over the whole session there is one
call with the step's own code, and one close, for each root that was opened, and no call without. -/
theorem session_events_lawful (t : Transport) (steps : List Step) :
    List.Forall₂ (EventLaw t) steps (t.session steps) ∧
      (t.trace steps).filterMap Event.code? = steps.filterMap (Step.calledCode? t) ∧
      (t.trace steps).countP Event.isClose = (steps.filterMap (Step.calledCode? t)).length ∧
      ∀ before code visible after, t.trace steps = before ++ .called code visible :: after →
        ∃ earlier path, before = earlier ++ [.opened path] ∧
          ∃ s ∈ steps, s.Opens t path code visible := by
  refine ⟨?_, t.filterMap_code?_trace steps, t.countP_isClose_trace steps,
    fun _ _ _ _ h => t.called_of_trace h⟩
  rw [session, List.forall₂_map_right_iff, List.forall₂_same]
  intro s _
  exact t.perform_eventLaw s

end Transport

end MountControl
