import MountControl.Program
import MountControl.Proofs.DeviceReturns

namespace MountControl

namespace Sink

/-- Writing that starts without a fault ends without one just if all the pieces were accepted. -/
theorem write_fault_eq_none_iff (s : Sink) (ps : List Bytes) :
    (s.write none ps).fault = none ↔ (s.write none ps).accepted = ps.flatten := by
  induction ps generalizing s with
  | nil => exact ⟨fun _ => rfl, fun _ => rfl⟩
  | cons piece ps ih =>
    unfold write
    by_cases hfits : s.fits piece.length
    · rw [if_pos hfits]
      dsimp only
      rw [ih, List.flatten_cons, List.append_cancel_left_eq]
    · rw [if_neg hfits]
      refine ⟨fun h => (by cases h), fun h => ?_⟩
      -- a piece that does not fit is cut, so less was accepted than the whole
      obtain ⟨room, hroom⟩ : ∃ room, s.room = some room := by
        cases hr : s.room with
        | none => exact absurd (by simp only [fits, hr]) hfits
        | some room => exact ⟨room, rfl⟩
      have hlt : room < piece.length := by
        simpa only [fits, hroom, decide_eq_true_eq, Nat.not_le] using hfits
      have hlength := congrArg List.length h
      simp only [hroom, Option.getD_some, List.length_take, List.flatten_cons,
        List.length_append] at hlength
      omega

end Sink

/-- The stage at which a run ends before the driver is called: the command line is wrong or only
asks for the help or the version; the settings break off or fail to load; the log cannot be set up;
the command is unknown; the mount has no absolute path, or cannot be opened at it. -/
inductive Stop
  | usage
  | asked
  | broken
  | settings
  | log
  | command
  | unresolved
  | unopened (path : Path)

namespace Stop

def exitCode : Stop → UInt8
  | usage => 2
  | asked => 0
  | broken => 101
  | settings => 1
  | log => 1
  | command => 2
  | unresolved => 3
  | unopened _ => 3

def events : Stop → List Event
  | command | unresolved => [.returned]
  | unopened path => [.opened path, .returned]
  | _ => []

theorem filterMap_code?_events (stop : Stop) : stop.events.filterMap Event.code? = [] := by
  cases stop <;> rfl

/-- To stop early is a success only where help or the version was asked for. -/
theorem exitCode_eq_zero_iff (stop : Stop) : stop.exitCode = 0 ↔ stop = asked := by
  cases stop <;> simp [exitCode]

end Stop

/-- The exit status is 0 just if standard output took the whole of a rendering, and 1 otherwise. -/
def Run.Reports (r : Run) (rendering : Rendering) : Prop :=
  (r.exitCode = 0 ↔
    rendering.fault = none ∧ r.output = (rendering.pieces.map Utf8.encode).flatten) ∧
    (r.exitCode = 0 ∨ r.exitCode = 1)

structure Preparation where
  invocation : Invocation
  settings : Settings
  log : LogState
  operation : Operation
  path : Path

namespace Launch

variable {l : Launch} {stop : Stop} {i : Invocation} {settings : Settings} {log : LogState}
  {op : Operation} {path : Path}

def readArguments (l : Launch) : Except Stop Invocation :=
  match CommandLine.ofArguments l.arguments (l.environmentValue? configVariable) with
  | .error _ | .ok .nothing => .error .usage
  | .ok (.help _) | .ok .version => .error .asked
  | .ok (.run i) => .ok i

def readSettings (l : Launch) (i : Invocation) : Except Stop Settings :=
  match Settings.load l.files l.cwd i.config l.environment l.order with
  | .error (.underflow _) | .error .variableNotText => .error .broken
  | .error _ => .error .settings
  | .ok loaded => .ok (loaded.withOverrides i.timeoutMs i.json)

def openLog (l : Launch) (i : Invocation) (settings : Settings) : Except Stop LogState :=
  match (LogState.initial l.files).setUp (Path.components l.cwd)
      ((l.environmentValue? LogState.filterVariable).bind Utf8.decode?) component
      (i.logging.orElse settings.logLevel settings.logFormat) with
  | (_, .error _) => .error .log
  | (log, .ok ()) => .ok log

def findOperation (i : Invocation) : Except Stop Operation :=
  match Operation.ofText i.command with
  | .error _ => .error .command
  | .ok op => .ok op

def openMount (l : Launch) (i : Invocation) (log : LogState) : Except Stop Path :=
  match resolveMount l.cwd i.mount with
  | .error _ => .error .unresolved
  | .ok path =>
    match log.files.openDirectory (Path.components l.cwd) path with
    | some _ => .error (.unopened path)
    | none => .ok path

def prepare (l : Launch) : Except Stop Preparation := do
  let i ← l.readArguments
  let settings ← l.readSettings i
  let log ← l.openLog i settings
  let op ← findOperation i
  let path ← l.openMount i log
  return ⟨i, settings, log, op, path⟩

/-- A command line that cannot be read ends the run before anything else is touched. -/
theorem run_of_unread (h : l.readArguments = .error stop) :
    l.run.events = stop.events ∧ l.run.exitCode = stop.exitCode := by
  unfold readArguments at h
  unfold run
  dsimp only
  cases hline : CommandLine.ofArguments l.arguments (l.environmentValue? configVariable) with
  | error e =>
    rw [hline] at h
    cases h
    exact ⟨rfl, rfl⟩
  | ok line =>
    rw [hline] at h
    cases line with
    | run i => cases h
    | help long | version | nothing =>
      cases h
      exact ⟨rfl, rfl⟩

theorem run_of_read (h : l.readArguments = .ok i) : l.run = l.perform i := by
  unfold readArguments at h
  unfold run
  dsimp only
  cases hline : CommandLine.ofArguments l.arguments (l.environmentValue? configVariable) with
  | error e =>
    rw [hline] at h
    cases h
  | ok line =>
    rw [hline] at h
    cases line with
    | run i => cases h; rfl
    | help long | version | nothing => cases h

theorem perform_of_unset (h : l.readSettings i = .error stop) :
    (l.perform i).events = stop.events ∧ (l.perform i).exitCode = stop.exitCode := by
  unfold readSettings at h
  unfold perform
  dsimp only
  cases hload : Settings.load l.files l.cwd i.config l.environment l.order with
  | error fault =>
    rw [hload] at h
    cases fault <;> cases h <;> exact ⟨rfl, rfl⟩
  | ok loaded =>
    rw [hload] at h
    cases h

/-- With the settings read, the log decides whether the command is reached. -/
theorem perform_of_set (h : l.readSettings i = .ok settings) :
    (∀ stop, l.openLog i settings = .error stop →
      (l.perform i).events = stop.events ∧ (l.perform i).exitCode = stop.exitCode) ∧
    ∀ log, l.openLog i settings = .ok log → l.perform i = l.command i settings log := by
  unfold readSettings at h
  unfold perform openLog
  dsimp only
  cases hload : Settings.load l.files l.cwd i.config l.environment l.order with
  | error fault =>
    rw [hload] at h
    cases fault <;> cases h
  | ok loaded =>
    rw [hload] at h
    cases h
    dsimp only
    rcases (LogState.initial l.files).setUp _ _ _ _ with ⟨log, fault | ⟨⟩⟩
    · exact ⟨fun stop h => (by cases h; exact ⟨rfl, rfl⟩), fun log h => (by cases h)⟩
    · exact ⟨fun stop h => (by cases h), fun log h => (by cases h; rfl)⟩

@[simp] theorem fail_exitCode (log : LogState) (output : Bytes) (events : List Event)
    (fault : RunFault) : (fail log output events fault).exitCode = fault.exitCode := rfl

@[simp] theorem fail_output (log : LogState) (output : Bytes) (events : List Event)
    (fault : RunFault) : (fail log output events fault).output = output := rfl

@[simp] theorem fail_events (log : LogState) (output : Bytes) (events : List Event)
    (fault : RunFault) : (fail log output events fault).events = events := rfl

def transport (l : Launch) (settings : Settings) : Transport where
  cwd := l.cwd
  limit := settings.timeout?.map .ofMilliseconds

def exchange (l : Launch) (i : Invocation) (settings : Settings) (log : LogState) :
    Exchange Outcome :=
  (l.transport settings).execute (l.driver log.files) i.command i.mount

theorem command_events (l : Launch) (i : Invocation) (settings : Settings) (log : LogState) :
    (l.command i settings log).events = (l.exchange i settings log).events := by
  unfold command exchange transport
  dsimp only
  generalize Transport.execute _ _ _ _ = x
  obtain ⟨result, events, notes⟩ := x
  split
  · rw [fail_events]
  · rw [fail_events]
  · rw [fail_events]
  · split
    · rw [fail_events]
    · rfl

/-- A failed exchange gives the run the exit code of its error. -/
theorem command_of_failure {e : ControlError}
    (h : (l.exchange i settings log).result = .error (.failure e)) :
    (l.command i settings log).exitCode = e.exitCode := by
  unfold command
  unfold exchange transport at h
  dsimp only
  generalize Transport.execute _ _ _ _ = x at h
  obtain ⟨result, events, notes⟩ := x
  cases h
  dsimp only
  rw [fail_exitCode]
  rfl

/-- A report is written without a fault just if it can be rendered and was accepted as a whole. -/
theorem writeReport_fault_eq_none_iff (l : Launch) (report : Report) (format : ReportFormat) :
    (l.writeReport report format).fault = none ↔ (report.render format).fault = none ∧
      (l.writeReport report format).accepted =
        ((report.render format).pieces.map Utf8.encode).flatten := by
  unfold writeReport
  generalize report.render format = rendering
  obtain ⟨ps, fault⟩ := rendering
  cases fault with
  | some fault => simp
  | none =>
    simp only [true_and]
    exact l.output.write_fault_eq_none_iff (ps.map Utf8.encode)

/-- An outcome is reported, and the exit code tells whether the report could be written. -/
theorem command_of_outcome {outcome : Outcome}
    (h : (l.exchange i settings log).result = .ok outcome)
    (hp : resolveMount l.cwd i.mount = .ok path) :
    (l.command i settings log).Reports
      ((Report.ofOutcome outcome path).render (if settings.json then .json else .text)) := by
  have hwrite := l.writeReport_fault_eq_none_iff (Report.ofOutcome outcome path)
    (if settings.json then .json else .text)
  have hexit : ∀ fault, (RunFault.output fault).exitCode = 1 := fun _ => rfl
  unfold exchange transport at h
  unfold Run.Reports command
  dsimp only
  generalize Transport.execute _ _ _ _ = x at h
  obtain ⟨result, events, notes⟩ := x
  cases h
  rw [hp]
  dsimp only
  generalize l.writeReport _ _ = written at hwrite ⊢
  obtain ⟨accepted, fault⟩ := written
  cases fault with
  | some fault =>
    simp only [reduceCtorEq, false_iff] at hwrite
    simp [hexit, hwrite]
  | none =>
    obtain ⟨hrendered, hwhole⟩ := hwrite.mp rfl
    exact ⟨⟨fun _ => ⟨hrendered, hwhole⟩, fun _ => rfl⟩, .inl rfl⟩

theorem command_of_unnamed (h : findOperation i = .error stop) :
    (l.command i settings log).events = stop.events ∧
      (l.command i settings log).exitCode = stop.exitCode := by
  unfold findOperation at h
  cases hop : Operation.ofText i.command with
  | error fault =>
    rw [hop] at h
    cases h
    have hx : l.exchange i settings log =
        ⟨.error (.failure (.invalidCommand i.command)), [.returned], []⟩ :=
      Transport.execute_of_unknown hop
    have hresult := congrArg Exchange.result hx
    exact ⟨by rw [command_events, hx]; rfl, command_of_failure hresult⟩
  | ok op =>
    rw [hop] at h
    cases h

theorem operation_of_named (h : findOperation i = .ok op) :
    Operation.ofText i.command = .ok op := by
  unfold findOperation at h
  split at h
  · cases h
  · rename_i hop
    cases h
    exact hop

theorem exchange_of_named (l : Launch) (settings : Settings) (log : LogState)
    (h : findOperation i = .ok op) : l.exchange i settings log =
      (l.transport settings).run (l.driver log.files) op i.mount :=
  Transport.execute_of_known (operation_of_named h)

/-- A mount that cannot be opened ends the run before the call. -/
theorem command_of_unmounted (hop : findOperation i = .ok op)
    (h : l.openMount i log = .error stop) :
    (l.command i settings log).events = stop.events ∧
      (l.command i settings log).exitCode = stop.exitCode := by
  have hx := exchange_of_named l settings log hop
  unfold openMount at h
  cases hp : resolveMount l.cwd i.mount with
  | error e =>
    rw [hp] at h
    cases h
    obtain ⟨_, rfl⟩ := resolveMount_error hp
    obtain ⟨hresult, hevents⟩ :=
      (l.transport settings).run_of_unresolved (l.driver log.files) op hp
    rw [← hx] at hresult hevents
    exact ⟨by rw [command_events, hevents]; rfl, command_of_failure hresult⟩
  | ok path =>
    rw [hp] at h
    dsimp only at h
    cases ho : log.files.openDirectory (Path.components l.cwd) path with
    | some cause =>
      rw [ho] at h
      cases h
      obtain ⟨hresult, hevents⟩ :=
        (l.transport settings).run_of_unopened (l.driver log.files) op hp ho
      rw [← hx] at hresult hevents
      exact ⟨by rw [command_events, hevents]; rfl, command_of_failure hresult⟩
    | none =>
      rw [ho] at h
      cases h

theorem opened_of_mounted (h : l.openMount i log = .ok path) :
    resolveMount l.cwd i.mount = .ok path ∧ (l.driver log.files).opening path = none := by
  unfold openMount at h
  cases hp : resolveMount l.cwd i.mount with
  | error e =>
    rw [hp] at h
    cases h
  | ok path' =>
    rw [hp] at h
    dsimp only at h
    split at h
    · cases h
    · rename_i ho
      cases h
      exact ⟨rfl, ho⟩

/-- A run stops in its preparation or goes on to the command with all that was prepared. -/
theorem run_of_prepare (l : Launch) :
    (∃ stop, l.prepare = .error stop ∧ l.run.events = stop.events ∧
      l.run.exitCode = stop.exitCode) ∨
    ∃ a, l.prepare = .ok a ∧ l.run = l.command a.invocation a.settings a.log ∧
      findOperation a.invocation = .ok a.operation ∧
      l.openMount a.invocation a.log = .ok a.path := by
  simp only [prepare, bind, Except.bind, pure, Except.pure]
  -- one stage after the other: if it fails the run ends there, and else it is that of the rest
  cases hread : l.readArguments with
  | error stop => exact .inl ⟨stop, rfl, run_of_unread hread⟩
  | ok i =>
    rw [run_of_read hread]
    dsimp only
    cases hset : l.readSettings i with
    | error stop => exact .inl ⟨stop, rfl, perform_of_unset hset⟩
    | ok settings =>
      obtain ⟨hunlogged, hlogged⟩ := perform_of_set hset
      dsimp only
      cases hlog : l.openLog i settings with
      | error stop => exact .inl ⟨stop, rfl, hunlogged stop hlog⟩
      | ok log =>
        rw [hlogged log hlog]
        dsimp only
        cases hop : findOperation i with
        | error stop => exact .inl ⟨stop, rfl, command_of_unnamed hop⟩
        | ok op =>
          dsimp only
          cases hmount : l.openMount i log with
          | error stop => exact .inl ⟨stop, rfl, command_of_unmounted hop hmount⟩
          | ok path =>
            exact .inr ⟨⟨i, settings, log, op, path⟩, rfl, rfl, hop, hmount⟩

end Launch

/-- What a run comes to once a device was called: it is called once, with the operation's own code,
and the exit status says how the device returned and whether the report was taken. -/
structure Concluded (a : Preparation) (returned : DeviceReturn) (r : Run) : Prop where
  called : r.events.filterMap Event.code? = [a.operation.code]
  refused : ∀ errno data, returned = .value (-1) errno data → r.exitCode = 4
  failed : ∀ v errno data, returned = .value v errno data → v ≠ -1 → v ≠ 0 → r.exitCode = 5
  overtaken : returned = .never → a.settings.timeout? ≠ none → r.exitCode = 6
  reported : ∀ errno data, returned = .value 0 errno data →
    ∃ outcome, a.operation.decode (Reference.output a.operation.code none data) = .ok outcome ∧
      r.Reports ((Report.ofOutcome outcome a.path).render
        (if a.settings.json then .json else .text))

namespace Launch

variable {l : Launch} {i : Invocation} {settings : Settings} {log : LogState}
  {op : Operation} {path : Path}

/-- What the device returns decides how a prepared run is concluded. -/
theorem command_concluded (device : RequestCode → Option Bytes → DeviceReturn)
    (hop : findOperation i = .ok op) (hmount : l.openMount i log = .ok path) :
    Concluded ⟨i, settings, log, op, path⟩ (device op.code (Reference.entry op.code none))
      ((l.onDevice device).command i settings log) := by
  obtain ⟨hp, ho⟩ := opened_of_mounted hmount
  have hx := exchange_of_named (l.onDevice device) settings log hop
  -- the device changes neither what is opened nor from which directory
  have hp' : resolveMount ((l.onDevice device).transport settings).cwd i.mount = .ok path := hp
  have ho' : ((l.onDevice device).driver log.files).opening path = none := ho
  have hanswer : ((l.onDevice device).driver log.files).answer op.code
      (Reference.entry op.code none) = (device op.code (Reference.entry op.code none)).answer := rfl
  constructor
  case called =>
    rw [command_events, hx]
    exact Transport.run_calls _ _ op hp' ho'
  case refused =>
    intro errno data hd
    rw [hd] at hanswer
    have hresult := Transport.run_of_refuse _ _ op hp' ho' hanswer
    rw [← hx] at hresult
    exact command_of_failure hresult
  case failed =>
    intro v errno data hd hminus hzero
    rw [hd, DeviceReturn.answer, if_neg hminus] at hanswer
    have hresult := Transport.run_of_status _ _ op hp' ho' hanswer hzero
    rw [← hx] at hresult
    exact command_of_failure hresult
  case overtaken =>
    intro hd hlimit
    obtain ⟨ms, hms⟩ := Option.ne_none_iff_exists'.mp hlimit
    rw [hd] at hanswer
    have hl : ((l.onDevice device).transport settings).limit = some (.ofMilliseconds ms) :=
      congrArg (Option.map Duration.ofMilliseconds) hms
    have hresult := Transport.run_of_silence _ _ op hp' ho' hl hanswer
    rw [← hx] at hresult
    exact command_of_failure hresult
  case reported =>
    intro errno data hd
    obtain ⟨outcome, hdecode⟩ := op.decode_output data
    rw [hd] at hanswer
    have hresult := Transport.run_of_success _ _ op hp' ho' hanswer hdecode
    rw [← hx] at hresult
    exact ⟨outcome, hdecode, command_of_outcome hresult hp⟩

/-- A run calls the device at most once, and just if all the stages before the call succeed; without
a call the first stage that fails decides the exit status, with one what the device returns. -/
theorem run_exitCode (l : Launch) (device : RequestCode → Option Bytes → DeviceReturn) :
    let r := (l.onDevice device).run
    (r.events.filterMap Event.code?).length ≤ 1 ∧
      (r.events.filterMap Event.code? ≠ [] ↔ ∃ a, l.prepare = .ok a) ∧
      (∀ stop, l.prepare = .error stop →
        r.events = stop.events ∧ r.exitCode = stop.exitCode ∧ (r.exitCode = 0 ↔ stop = .asked)) ∧
      ∀ a, l.prepare = .ok a →
        Concluded a (device a.operation.code (Reference.entry a.operation.code none)) r := by
  intro r
  rcases (l.onDevice device).run_of_prepare with
    ⟨stop, hprepare, hevents, hexit⟩ | ⟨a, hprepare, hrun, hop, hmount⟩
  · have hstop : l.prepare = .error stop := hprepare
    have hcalls : r.events.filterMap Event.code? = [] := by
      rw [← stop.filterMap_code?_events, ← hevents]
    refine ⟨?_, ?_, ?_, ?_⟩
    · rw [hcalls]
      exact Nat.zero_le _
    · simp only [hcalls, hstop, ne_eq, not_true_eq_false, reduceCtorEq, exists_false]
    · intro other hother
      cases hstop.symm.trans hother
      exact ⟨hevents, hexit, by rw [hexit]; exact stop.exitCode_eq_zero_iff⟩
    · intro a ha
      cases hstop.symm.trans ha
  · have hok : l.prepare = .ok a := hprepare
    have hconcluded : Concluded a
        (device a.operation.code (Reference.entry a.operation.code none)) r := by
      simp only [r, hrun]
      exact command_concluded (l := l) device hop hmount
    have hcalls := hconcluded.called
    refine ⟨?_, ?_, ?_, ?_⟩
    · rw [hcalls]
      exact Nat.le_refl _
    · simp only [hcalls, hok, ne_eq, List.cons_ne_nil, not_false_eq_true, Except.ok.injEq,
        exists_eq']
    · intro stop hstop
      cases hok.symm.trans hstop
    · intro other hother
      cases hok.symm.trans hother
      exact hconcluded

end Launch

end MountControl
