import MountControl.Proofs.ExitStatus
import MountControl.Proofs.ReadableReport

namespace MountControl

namespace Utf8

theorem encode_join (texts : List String) :
    encode (String.join texts) = (texts.map encode).flatten := by
  induction texts with
  | nil => rfl
  | cons s texts ih => rw [String.join_cons, encode_append, ih, List.map_cons, List.flatten_cons]

end Utf8

namespace Report

def plainLines (r : Report) : List String :=
  [r.operation.title ++ ": " ++ r.mount.display] ++
    (r.connections.toList.flatMap fun s =>
      PoolCounter.all.map fun c => c.caption ++ ": " ++ toString (s.get c).toNat) ++
    ["Done!"]

/-- The whole of a report. In JSON there is one only on a mount that is a text. -/
def whole? (r : Report) : ReportFormat → Option String
  | .text => some (String.join (r.plainLines.map (· ++ "\n")))
  | .json => (Utf8.decode? r.mount).map fun mount => r.line mount ++ "\n"

def opening (r : Report) : String :=
  "\x7b\"command\":" ++ r.operation.toJson ++ ",\"mount\":"

variable {r : Report} {format : ReportFormat} {text : String}

/-- Only a report in JSON on a mount that is not text cannot be written whole. -/
theorem whole?_eq_none_iff :
    r.whole? format = none ↔ format = .json ∧ Utf8.decode? r.mount = none := by
  cases format with
  | text => simp [whole?]
  | json => simp [whole?]

theorem join_lines_ends_line (lines : List String) (last : String) :
    ∃ body, String.join ((lines ++ [last]).map (· ++ "\n")) = body ++ "\n" := by
  refine ⟨String.join (lines.map (· ++ "\n")) ++ last, ?_⟩
  rw [List.map_append, String.join_append, String.append_assoc]
  rfl

theorem whole?_ends_line (h : r.whole? format = some text) : ∃ body, text = body ++ "\n" := by
  cases format with
  | text =>
    obtain ⟨body, hbody⟩ := join_lines_ends_line _ "Done!"
    exact ⟨body, (Option.some.inj h).symm.trans hbody⟩
  | json =>
    obtain ⟨mount, -, htext⟩ := Option.map_eq_some_iff.mp h
    exact ⟨_, htext.symm⟩

theorem encode_opening_ne_nil (r : Report) : Utf8.encode r.opening ≠ [] := by
  rw [opening, String.append_assoc, Utf8.encode_append]
  exact List.append_ne_nil_of_left_ne_nil (by decide) _

theorem plain_pieces (r : Report) : (r.plain.pieces.map Utf8.encode).flatten =
    Utf8.encode (String.join (r.plainLines.map (· ++ "\n"))) := by
  rw [← Utf8.encode_join]
  apply congrArg Utf8.encode
  cases hr : r.connections with
  | none => simp [plain, plainLines, hr, String.append_assoc]
  | some s =>
    simp [plain, plainLines, counterLines, hr, String.append_assoc, Function.comp_def]

/-- Where the mount is not text, the opening of the object is already written when this shows. -/
theorem json_pieces_of_undecoded (h : Utf8.decode? r.mount = none) :
    r.json.fault = some .pathNotText ∧
      (r.json.pieces.map Utf8.encode).flatten = Utf8.encode r.opening := by
  rw [json, h]
  refine ⟨rfl, ?_⟩
  rw [← Utf8.encode_join, opening]
  simp [String.append_assoc]

/-- A sink that takes everything gets the whole of a report, if there is one. -/
theorem write_unbounded_of_whole (h : r.whole? format = some text) :
    r.write format Sink.unbounded = ⟨Utf8.encode text, none⟩ := by
  rw [write, Sink.unbounded_write]
  cases format with
  | text => exact congrArg (Written.mk · none) ((plain_pieces r).trans (by rw [Option.some.inj h]))
  | json =>
    obtain ⟨mount, hmount, rfl⟩ := Option.map_eq_some_iff.mp h
    obtain ⟨hfault, hpieces⟩ := json_pieces hmount
    exact congrArg₂ Written.mk hpieces hfault

/-- Of a report that cannot be whole its opening is left behind. -/
theorem write_unbounded_of_not_whole (h : r.whole? format = none) :
    r.write format Sink.unbounded = ⟨Utf8.encode r.opening, some .pathNotText⟩ := by
  obtain ⟨rfl, hmount⟩ := whole?_eq_none_iff.mp h
  obtain ⟨hfault, hpieces⟩ := json_pieces_of_undecoded hmount
  rw [write, Sink.unbounded_write]
  exact congrArg₂ Written.mk hpieces hfault

end Report

namespace Launch

variable {l : Launch} {i : Invocation} {settings : Settings} {log : LogState} {outcome : Outcome}
  {path : Path} {stop : Stop}

def unlimited (l : Launch) : Launch :=
  { l with output := .unbounded }

/-- A run gets as far as an outcome, which is to be reported on a mount. -/
structure Achieves (l : Launch) (i : Invocation) (settings : Settings) (log : LogState)
    (outcome : Outcome) (path : Path) : Prop where
  read : l.readArguments = .ok i
  loaded : l.readSettings i = .ok settings
  logged : l.openLog i settings = .ok log
  exchanged : (l.exchange i settings log).result = .ok outcome
  resolved : resolveMount l.cwd i.mount = .ok path

def formatFor (settings : Settings) : ReportFormat :=
  if settings.json then .json else .text

theorem formatFor_eq_json_iff : formatFor settings = .json ↔ settings.json = true := by
  cases h : settings.json <;> simp [formatFor, h]

theorem writeReport_unlimited (l : Launch) (r : Report) (format : ReportFormat) :
    l.unlimited.writeReport r format = r.write format Sink.unbounded := by
  unfold writeReport Report.write unlimited
  dsimp only
  rw [Sink.unbounded_write, Sink.unbounded_write]
  cases (r.render format).fault <;> rfl

/-- What is left on standard output is a report only if there is an outcome. -/
theorem output_command_of_error {halt : Halt}
    (h : (l.exchange i settings log).result = .error halt) :
    (l.command i settings log).output = [] := by
  unfold exchange transport at h
  unfold command
  dsimp only
  generalize Transport.execute _ _ _ _ = x at h
  obtain ⟨result, events, notes⟩ := x
  cases h
  cases halt <;> rfl

theorem output_command_of_unresolved {e : ControlError}
    (h : resolveMount l.cwd i.mount = .error e) :
    (l.command i settings log).output = [] := by
  unfold command
  dsimp only
  rw [h]
  generalize Transport.execute _ _ _ _ = x
  obtain ⟨result, events, notes⟩ := x
  cases result with
  | error halt => cases halt <;> rfl
  | ok outcome => rfl

/-- A run whose exchange succeeds writes its report and fails just if that does. -/
theorem command_of_written (h : (l.exchange i settings log).result = .ok outcome)
    (hp : resolveMount l.cwd i.mount = .ok path) :
    let written := l.writeReport (Report.ofOutcome outcome path) (formatFor settings)
    (l.command i settings log).output = written.accepted ∧
      (l.command i settings log).exitCode = if written.fault = none then 0 else 1 := by
  unfold exchange transport at h
  unfold command formatFor
  dsimp only
  generalize Transport.execute _ _ _ _ = x at h
  obtain ⟨result, events, notes⟩ := x
  cases h
  rw [hp]
  dsimp only
  generalize l.writeReport _ _ = written
  obtain ⟨accepted, fault⟩ := written
  cases fault <;> exact ⟨rfl, rfl⟩

/-- What a run achieves is what its command does. -/
theorem Achieves.run_eq (h : l.Achieves i settings log outcome path) :
    l.run = l.command i settings log := by
  rw [run_of_read h.read]
  exact (perform_of_set h.loaded).2 log h.logged

/-- A run that does not get past its arguments writes nothing, unless it was asked for help or the
version. -/
theorem output_run_of_unread (h : l.readArguments = .error stop) :
    l.run.output = [] ∨ l.run.exitCode = 0 := by
  unfold readArguments at h
  unfold run
  dsimp only
  have hnil (s : Sink) : (s.write none [Utf8.encode ""]).accepted = [] := by
    have hfits : s.fits (Utf8.encode "").length = true := by
      cases hroom : s.room with
      | none => simp only [Sink.fits, hroom]
      | some room => simp only [Sink.fits, hroom]; exact decide_eq_true (Nat.zero_le room)
    rw [Sink.write, if_pos hfits]
    rfl
  cases hline : CommandLine.ofArguments l.arguments (l.environmentValue? configVariable) with
  | error e => exact .inl (hnil l.output)
  | ok line =>
    rw [hline] at h
    cases line with
    | run i => cases h
    | nothing => exact .inl (hnil l.output)
    | help long | version => exact .inr rfl

theorem output_perform_of_unlogged
    (h : ∀ settings log, l.readSettings i = .ok settings → l.openLog i settings ≠ .ok log) :
    (l.perform i).output = [] := by
  unfold readSettings openLog at h
  unfold perform
  dsimp only
  cases hload : Settings.load l.files l.cwd i.config l.environment l.order with
  | error fault => rfl
  | ok loaded =>
    rw [hload] at h
    have hunset := h (loaded.withOverrides i.timeoutMs i.json)
    dsimp only
    generalize (LogState.initial l.files).setUp _ _ _ _ = x at hunset ⊢
    obtain ⟨log, fault | ⟨⟩⟩ := x
    · rfl
    · exact absurd rfl (hunset log rfl)

/-- A failing run that leaves anything on standard output got as far as an outcome. -/
theorem achieves_of_output (hexit : l.run.exitCode ≠ 0) (h : l.run.output ≠ []) :
    ∃ i settings log outcome path, l.Achieves i settings log outcome path := by
  cases hread : l.readArguments with
  | error stop =>
    rcases output_run_of_unread hread with hnil | hzero
    · exact absurd hnil h
    · exact absurd hzero hexit
  | ok i =>
    rw [run_of_read hread] at h
    obtain ⟨settings, log, hset, hlog⟩ :
        ∃ settings log, l.readSettings i = .ok settings ∧ l.openLog i settings = .ok log := by
      by_contra hnot
      apply h
      apply output_perform_of_unlogged
      intro settings log hset hlog
      exact hnot ⟨settings, log, hset, hlog⟩
    rw [(perform_of_set hset).2 log hlog] at h
    cases hresult : (l.exchange i settings log).result with
    | error halt => exact absurd (output_command_of_error hresult) h
    | ok outcome =>
      cases hp : resolveMount l.cwd i.mount with
      | error e => exact absurd (output_command_of_unresolved hp) h
      | ok path => exact ⟨i, settings, log, outcome, path, hread, hset, hlog, hresult, hp⟩

/-- Where standard output takes everything, what a run leaves there is the report as it is written.
-/
theorem Achieves.written (h : l.Achieves i settings log outcome path) :
    let written := (Report.ofOutcome outcome path).write (formatFor settings) Sink.unbounded
    l.unlimited.run.output = written.accepted ∧
      l.unlimited.run.exitCode = if written.fault = none then 0 else 1 := by
  intro written
  -- none of the stages looks at the output
  have hu : l.unlimited.Achieves i settings log outcome path :=
    ⟨h.read, h.loaded, h.logged, h.exchanged, h.resolved⟩
  have hwritten := command_of_written hu.exchanged hu.resolved
  rw [writeReport_unlimited] at hwritten
  rw [hu.run_eq]
  exact hwritten

/-- With a sink that takes everything, a report that can be whole is whole. -/
theorem Achieves.written_whole (h : l.Achieves i settings log outcome path) {text : String}
    (hwhole : (Report.ofOutcome outcome path).whole? (formatFor settings) = some text) :
    l.unlimited.run.exitCode = 0 ∧ l.unlimited.run.output = Utf8.encode text := by
  obtain ⟨houtput, hexit⟩ := h.written
  rw [Report.write_unbounded_of_whole hwhole] at houtput hexit
  dsimp only at houtput hexit
  exact ⟨hexit.trans (if_pos rfl), houtput⟩

/-- Of a report that cannot be whole the opening is left, and the run fails. -/
theorem Achieves.written_opening (h : l.Achieves i settings log outcome path)
    (hwhole : (Report.ofOutcome outcome path).whole? (formatFor settings) = none) :
    l.unlimited.run.exitCode = 1 ∧
      l.unlimited.run.output = Utf8.encode (Report.ofOutcome outcome path).opening := by
  obtain ⟨houtput, hexit⟩ := h.written
  rw [Report.write_unbounded_of_not_whole hwhole] at houtput hexit
  dsimp only at houtput hexit
  exact ⟨hexit.trans (if_neg (Option.some_ne_none _)), houtput⟩

/-- A failing run leaves something on a standard output that takes everything just if it came to an
outcome and was to report it in JSON on a mount that is no text. -/
theorem fails_with_output_iff (l : Launch) :
    l.unlimited.run.exitCode ≠ 0 ∧ l.unlimited.run.output ≠ [] ↔
      ∃ i settings log outcome path, l.Achieves i settings log outcome path ∧
        settings.json = true ∧ Utf8.decode? path = none := by
  constructor
  · rintro ⟨hexit, houtput⟩
    obtain ⟨i, settings, log, outcome, path, hu⟩ := achieves_of_output hexit houtput
    have h : l.Achieves i settings log outcome path :=
      ⟨hu.read, hu.loaded, hu.logged, hu.exchanged, hu.resolved⟩
    refine ⟨i, settings, log, outcome, path, h, ?_⟩
    cases hwhole : (Report.ofOutcome outcome path).whole? (formatFor settings) with
    | some text => exact absurd (h.written_whole hwhole).1 hexit
    | none =>
      obtain ⟨hformat, hmount⟩ := Report.whole?_eq_none_iff.mp hwhole
      exact ⟨formatFor_eq_json_iff.mp hformat, hmount⟩
  · rintro ⟨i, settings, log, outcome, path, h, hjson, hmount⟩
    have hwhole : (Report.ofOutcome outcome path).whole? (formatFor settings) = none :=
      Report.whole?_eq_none_iff.mpr ⟨formatFor_eq_json_iff.mpr hjson, hmount⟩
    obtain ⟨hexit, houtput⟩ := h.written_opening hwhole
    rw [hexit, houtput]
    exact ⟨by decide, Report.encode_opening_ne_nil _⟩

end Launch

/-- On a sink that takes everything a report is written as a whole, up to its last newline, except
that a report in JSON on a mount that is no text fails after its beginning. The same goes for the
report of a run, and a failing run leaves nothing on standard output but such a beginning. -/
theorem report_whole_unless_undecoded (outcome : Outcome) (path : Path) (format : ReportFormat)
    (l : Launch) :
    let r := Report.ofOutcome outcome path
    let written := r.write format Sink.unbounded
    ((r.whole? format = none ↔ format = .json ∧ Utf8.decode? path = none) ∧
      (∀ text, r.whole? format = some text →
        written = ⟨Utf8.encode text, none⟩ ∧ ∃ body, text = body ++ "\n") ∧
      (r.whole? format = none →
        written = ⟨Utf8.encode r.opening, some .pathNotText⟩ ∧ Utf8.encode r.opening ≠ [])) ∧
    (∀ i settings log, l.Achieves i settings log outcome path →
      (∀ text, r.whole? (Launch.formatFor settings) = some text →
        l.unlimited.run.exitCode = 0 ∧ l.unlimited.run.output = Utf8.encode text) ∧
      (r.whole? (Launch.formatFor settings) = none →
        l.unlimited.run.exitCode = 1 ∧ l.unlimited.run.output = Utf8.encode r.opening)) ∧
    (l.unlimited.run.exitCode ≠ 0 ∧ l.unlimited.run.output ≠ [] ↔
      ∃ i settings log outcome path, l.Achieves i settings log outcome path ∧
        settings.json = true ∧ Utf8.decode? path = none) := by
  intro r written
  refine ⟨⟨Report.whole?_eq_none_iff, ?_, ?_⟩, ?_, l.fails_with_output_iff⟩
  · intro text htext
    exact ⟨Report.write_unbounded_of_whole htext, Report.whole?_ends_line htext⟩
  · intro hnone
    exact ⟨Report.write_unbounded_of_not_whole hnone, r.encode_opening_ne_nil⟩
  · intro i settings log h
    constructor
    · intro text htext
      exact h.written_whole htext
    · intro hnone
      exact h.written_opening hnone

/-- A report in JSON on a directory whose name is no text: the beginning is written, and the run
that wrote it fails. -/
theorem undecoded_mount_report_cut :
    let path : Path := [Path.slash, 0xFF]
    let cut := Utf8.encode "\x7b\"command\":\"reset_cache\",\"mount\":"
    let l : Launch :=
      { arguments := [Utf8.encode "reset_cache", path, Utf8.encode "--json"]
        environment := []
        cwd := [Path.slash]
        files := ⟨[([[0xFF]], .directory)]⟩
        answer := fun _ _ => .reply 0 []
        output := .unbounded }
    (Report.ofOutcome .cacheReset path).write .json Sink.unbounded = ⟨cut, some .pathNotText⟩ ∧
      cut ≠ [] ∧ l.run.exitCode = 1 ∧ l.run.output = cut := by
  decide

end MountControl
