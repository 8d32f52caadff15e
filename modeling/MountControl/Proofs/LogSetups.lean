import MountControl.Log.Recorder
import MountControl.Proofs.GrowingTrees

namespace MountControl

structure LogRequest where
  component : String
  options : LogOptions

def LogRequest.recorder (q : LogRequest) (filterText : Option String) (d : LogDestination) :
    Recorder where
  filter := (LogState.chooseFilter filterText q.component q.options.effectiveLevel).1
  format := q.options.effectiveFormat
  destination := d

namespace Recorder

def line (r : Recorder) (n : Note) : LogDestination × LogLine :=
  (r.destination,
    ({ n with span := n.span.filter r.filter.keepsSpan } : Note).render r.format
      (r.destination = .standardError))

def lines (r : Recorder) (notes : List Note) : List (LogDestination × LogLine) :=
  (notes.filter r.filter.admits).map r.line

variable {r : Recorder} {n : Note} {notes : List Note}

theorem lines_cons_of_admits (h : r.filter.admits n) :
    r.lines (n :: notes) = r.line n :: r.lines notes := by
  rw [lines, List.filter_cons_of_pos h, List.map_cons]
  rfl

theorem lines_cons_of_not_admits (h : ¬ r.filter.admits n) :
    r.lines (n :: notes) = r.lines notes := by
  rw [lines, List.filter_cons_of_neg h]
  rfl

theorem destination_of_mem_lines {line : LogDestination × LogLine} (h : line ∈ r.lines notes) :
    line.1 = r.destination := by
  obtain ⟨n, -, rfl⟩ := List.mem_map.mp h
  rfl

end Recorder

namespace LogState

variable {files : FileTree} {cwd : Location} {filterText : Option String} {s s' : LogState}
  {q : LogRequest} {qs : List LogRequest} {d : LogDestination} {path : Path} {k : Nat}

def OpensFile (files : FileTree) (cwd : Location) (path : Path) (loc : Location) : Prop :=
  ∃ made opened, makeParents files cwd path = (made, .ok ()) ∧
    made.openForAppending cwd path = .ok (opened, loc)

/-- A request can be served: it wants its lines on standard error, or its file can be opened. -/
def Serves (files : FileTree) (cwd : Location) (q : LogRequest) (d : LogDestination) : Prop :=
  match q.options.file with
  | none => d = .standardError
  | some path => ∃ loc, d = .file loc ∧ OpensFile files cwd path loc

theorem grows_makeParents (files : FileTree) (cwd : Location) (path : Path) :
    files.Grows (makeParents files cwd path).1 := by
  unfold makeParents
  split
  · exact FileTree.grows_makeDirectories _ _ _ _
  · exact FileTree.Grows.refl files

/-- Opening a log file only adds to the files, and does so too where it fails half-way. -/
theorem grows_openFile (files : FileTree) (cwd : Location) (path : Path) :
    files.Grows (openFile files cwd path).1 := by
  have hparents := grows_makeParents files cwd path
  unfold openFile
  rcases hmade : makeParents files cwd path with ⟨made, e | ⟨⟩⟩
  · rw [hmade] at hparents
    exact hparents
  · rw [hmade] at hparents
    dsimp only
    cases hopen : made.openForAppending cwd path with
    | error e => exact hparents
    | ok opened => exact hparents.trans (FileTree.grows_openForAppending hopen).1

/-- A log file is opened just if its directories can be made and then it can be. -/
theorem openFile_eq_ok_iff {loc : Location} :
    (openFile files cwd path).2 = .ok loc ↔ OpensFile files cwd path loc := by
  unfold openFile OpensFile
  rcases makeParents files cwd path with ⟨made, e | ⟨⟩⟩
  · simp
  · dsimp only
    cases hopen : made.openForAppending cwd path with
    | error e => simp [hopen]
    | ok opened =>
      obtain ⟨opened, loc'⟩ := opened
      simp [hopen]

theorem file?_of_openFile {loc : Location} (h : (openFile files cwd path).2 = .ok loc) :
    ∃ content, (openFile files cwd path).1.file? loc = some content := by
  obtain ⟨made, opened, hmade, hopen⟩ := openFile_eq_ok_iff.mp h
  rw [openFile, hmade]
  dsimp only
  rw [hopen]
  exact (FileTree.grows_openForAppending hopen).2

theorem grows_chooseDestination (files : FileTree) (cwd : Location) (file : Option Path) :
    files.Grows (chooseDestination files cwd file).1 := by
  cases file with
  | none => exact FileTree.Grows.refl files
  | some path => exact grows_openFile files cwd path

theorem file?_of_chooseDestination {file : Option Path} {loc : Location}
    (h : (chooseDestination files cwd file).2 = .ok (.file loc)) :
    ∃ content, (chooseDestination files cwd file).1.file? loc = some content := by
  cases file with
  | none => cases h
  | some path =>
    change (openFile files cwd path).2.map LogDestination.file = .ok (.file loc) at h
    change ∃ content, (openFile files cwd path).1.file? loc = some content
    cases hopen : (openFile files cwd path).2 with
    | error e =>
      rw [hopen] at h
      cases h
    | ok opened =>
      rw [hopen] at h
      cases h
      exact file?_of_openFile hopen

/-- A destination is found just if the request can be served by it. -/
theorem chooseDestination_eq_ok_iff :
    (chooseDestination files cwd q.options.file).2 = .ok d ↔ Serves files cwd q d := by
  unfold Serves
  cases q.options.file with
  | none => exact ⟨fun h => (Except.ok.inj h).symm, fun h => congrArg _ h.symm⟩
  | some path =>
    change ((openFile files cwd path).2.map LogDestination.file) = .ok d ↔ _
    simp only [← openFile_eq_ok_iff]
    cases (openFile files cwd path).2 with
    | error e => simp [Except.map]
    | ok loc => simp [Except.map, eq_comm]

/-- A request changes nothing but the log's setup, and adds to the files at most. -/
theorem files_setUp (s : LogState) (cwd : Location) (filterText : Option String) (q : LogRequest) :
    (s.setUp cwd filterText q.component q.options).1.files =
      (chooseDestination s.files cwd q.options.file).1 := by
  unfold setUp
  rcases chooseDestination s.files cwd q.options.file with ⟨files, e | d⟩
  · rfl
  · dsimp only
    split <;> rfl

theorem lines_setUp (s : LogState) (cwd : Location) (filterText : Option String) (q : LogRequest) :
    (s.setUp cwd filterText q.component q.options).1.lines = s.lines := by
  unfold setUp
  rcases chooseDestination s.files cwd q.options.file with ⟨files, e | d⟩
  · rfl
  · dsimp only
    split <;> rfl

/-- With a recorder in place every further request is refused, and the recorder stays. -/
theorem setUp_of_recorder {r : Recorder} (cwd : Location) (filterText : Option String)
    (q : LogRequest) (h : s.recorder = some r) :
    (s.setUp cwd filterText q.component q.options).1.recorder = some r ∧
      (s.setUp cwd filterText q.component q.options).2 ≠ .ok () := by
  unfold setUp
  rcases chooseDestination s.files cwd q.options.file with ⟨files, e | d⟩
  · exact ⟨h, nofun⟩
  · dsimp only
    rw [h]
    exact ⟨rfl, nofun⟩

/-- The first request that can be served puts its recorder in place. -/
theorem setUp_of_served (filterText : Option String) (h : s.recorder = none)
    (hd : Serves s.files cwd q d) :
    (s.setUp cwd filterText q.component q.options).1.recorder = some (q.recorder filterText d) ∧
      (s.setUp cwd filterText q.component q.options).2 = .ok () := by
  have hchosen := chooseDestination_eq_ok_iff.mpr hd
  unfold setUp
  generalize chooseDestination s.files cwd q.options.file = choice at hchosen
  obtain ⟨files, result⟩ := choice
  cases hchosen
  dsimp only
  rw [h]
  exact ⟨rfl, rfl⟩

/-- One that cannot be served leaves the log without a recorder. -/
theorem setUp_of_unserved (filterText : Option String) (h : s.recorder = none)
    (hd : ∀ d, ¬ Serves s.files cwd q d) :
    (s.setUp cwd filterText q.component q.options).1.recorder = none ∧
      (s.setUp cwd filterText q.component q.options).2 ≠ .ok () := by
  have hchosen (d : LogDestination) := mt chooseDestination_eq_ok_iff.mp (hd d)
  unfold setUp
  generalize chooseDestination s.files cwd q.options.file = choice at hchosen
  obtain ⟨files, e | d⟩ := choice
  · exact ⟨h, nofun⟩
  · exact absurd rfl (hchosen d)

/-- A process asks for its log time and again; each request is answered. -/
def setUpAll (cwd : Location) (filterText : Option String) :
    LogState → List LogRequest → LogState × List (Except LogFault Unit)
  | s, [] => (s, [])
  | s, q :: qs =>
    let first := s.setUp cwd filterText q.component q.options
    let rest := setUpAll cwd filterText first.1 qs
    (rest.1, first.2 :: rest.2)

/-- The first request that can be served, with its position and where its lines go, among the files
as those before it have left them. -/
inductive FirstServed (cwd : Location) (filterText : Option String) :
    LogState → List LogRequest → Nat → LogRequest → LogDestination → Prop
  | here {s : LogState} {q : LogRequest} {qs : List LogRequest} {d : LogDestination}
      (h : Serves s.files cwd q d) : FirstServed cwd filterText s (q :: qs) 0 q d
  | later {s : LogState} {q q' : LogRequest} {qs : List LogRequest} {d : LogDestination} {k : Nat}
      (hunserved : ∀ d, ¬ Serves s.files cwd q d)
      (hrest : FirstServed cwd filterText (s.setUp cwd filterText q.component q.options).1 qs k q'
        d) :
      FirstServed cwd filterText s (q :: qs) (k + 1) q' d

/-- A request is served by one destination at most. -/
theorem Serves.unique {d' : LogDestination} (h : Serves files cwd q d)
    (h' : Serves files cwd q d') :
    d = d' :=
  Except.ok.inj
    ((chooseDestination_eq_ok_iff.mpr h).symm.trans (chooseDestination_eq_ok_iff.mpr h'))

theorem FirstServed.position_unique {k' : Nat} {q' : LogRequest} {d' : LogDestination}
    (h : FirstServed cwd filterText s qs k q d) (h' : FirstServed cwd filterText s qs k' q' d') :
    k = k' := by
  induction h generalizing k' with
  | here hserved =>
    cases h' with
    | here => rfl
    | later hunserved => exact absurd hserved (hunserved _)
  | later hunserved hrest ih =>
    cases h' with
    | here hserved => exact absurd hserved (hunserved _)
    | later hunserved' hrest' => exact congrArg (· + 1) (ih hrest')

theorem length_setUpAll : (setUpAll cwd filterText s qs).2.length = qs.length := by
  induction qs generalizing s with
  | nil => rfl
  | cons q qs ih => exact congrArg (· + 1) ih

theorem lines_setUpAll : (setUpAll cwd filterText s qs).1.lines = s.lines := by
  induction qs generalizing s with
  | nil => rfl
  | cons q qs ih => exact ih.trans (lines_setUp s cwd filterText q)

/-- Over all requests, served or not, the files only grow. -/
theorem grows_setUpAll : s.files.Grows (setUpAll cwd filterText s qs).1.files := by
  induction qs generalizing s with
  | nil => exact FileTree.Grows.refl s.files
  | cons q qs ih =>
    refine FileTree.Grows.trans ?_ ih
    rw [files_setUp]
    exact grows_chooseDestination _ _ _

/-- Once the log is set up, it stays so and every further request fails. -/
theorem setUpAll_of_recorder {r : Recorder} (h : s.recorder = some r) :
    (setUpAll cwd filterText s qs).1.recorder = some r ∧
      ∀ result ∈ (setUpAll cwd filterText s qs).2, result ≠ .ok () := by
  induction qs generalizing s with
  | nil => exact ⟨h, nofun⟩
  | cons q qs ih =>
    obtain ⟨hrecorder, hfirst⟩ := setUp_of_recorder cwd filterText q h
    obtain ⟨hlast, hrest⟩ := ih hrecorder
    refine ⟨hlast, ?_⟩
    intro result hresult
    rcases List.mem_cons.mp hresult with rfl | hmem
    · exact hfirst
    · exact hrest result hmem

/-- The first request that is served is answered with success, and the recorder is its own ever
after. -/
theorem setUpAll_of_firstServed (h : s.recorder = none)
    (hfirst : FirstServed cwd filterText s qs k q d) :
    (setUpAll cwd filterText s qs).1.recorder = some (q.recorder filterText d) ∧
      (setUpAll cwd filterText s qs).2[k]? = some (.ok ()) := by
  induction hfirst with
  | here hserved =>
    obtain ⟨hrecorder, hok⟩ := setUp_of_served filterText h hserved
    refine ⟨(setUpAll_of_recorder hrecorder).1, ?_⟩
    rw [setUpAll, List.getElem?_cons_zero, hok]
  | later hunserved _ ih =>
    exact ih (setUp_of_unserved filterText h hunserved).1

/-- Only the first request that can be served succeeds. -/
theorem firstServed_of_ok (h : s.recorder = none)
    (hok : (setUpAll cwd filterText s qs).2[k]? = some (.ok ())) :
    ∃ q d, FirstServed cwd filterText s qs k q d := by
  induction qs generalizing s k with
  | nil => cases hok
  | cons q qs ih =>
    -- the request at the head is the first to be served, or leaves that to the rest
    by_cases hserved : ∃ d, Serves s.files cwd q d
    · obtain ⟨d, hd⟩ := hserved
      cases k with
      | zero => exact ⟨q, d, .here hd⟩
      | succ k =>
        -- the log is set up by then
        have hset := setUp_of_served filterText h hd
        rw [setUpAll, List.getElem?_cons_succ] at hok
        exact absurd rfl ((setUpAll_of_recorder hset.1).2 _ (List.mem_of_getElem? hok))
    · have hunserved (d : LogDestination) (hd : Serves s.files cwd q d) : False := hserved ⟨d, hd⟩
      have hunset := setUp_of_unserved filterText h hunserved
      cases k with
      | zero =>
        rw [setUpAll, List.getElem?_cons_zero] at hok
        exact absurd (Option.some.inj hok) hunset.2
      | succ k =>
        rw [setUpAll, List.getElem?_cons_succ] at hok
        obtain ⟨q', d, hrest⟩ := ih hunset.1 hok
        exact ⟨q', d, .later hunserved hrest⟩

/-- The file that the lines go to is there in the end. -/
theorem file?_setUpAll_of_firstServed {loc : Location}
    (hfirst : FirstServed cwd filterText s qs k q (.file loc)) :
    ∃ content, (setUpAll cwd filterText s qs).1.files.file? loc = some content := by
  generalize hd : LogDestination.file loc = d at hfirst
  induction hfirst with
  | @here s q qs d hserved =>
    subst hd
    have hopened := chooseDestination_eq_ok_iff.mpr hserved
    obtain ⟨content, hcontent⟩ := file?_of_chooseDestination hopened
    rw [← files_setUp s cwd filterText q] at hcontent
    refine ⟨content, ?_⟩
    exact (grows_setUpAll (s := (s.setUp cwd filterText q.component q.options).1)).file?_of_some
      hcontent
  | later _ _ ih => exact ih hd

theorem recorder_setUpAll_of_unserved (h : s.recorder = none)
    (hnone : ∀ k q d, ¬ FirstServed cwd filterText s qs k q d) :
    (setUpAll cwd filterText s qs).1.recorder = none := by
  induction qs generalizing s with
  | nil => exact h
  | cons q qs ih =>
    have hunserved (d : LogDestination) (hd : Serves s.files cwd q d) : False :=
      hnone 0 q d (.here hd)
    apply ih (setUp_of_unserved filterText h hunserved).1
    intro k q' d hrest
    exact hnone (k + 1) q' d (.later hunserved hrest)

/-- A recorder adds its lines for the notes, in their order, to those there were. -/
theorem recordAll_of_recorder {r : Recorder} (h : s.recorder = some r) (notes : List Note) :
    s.recordAll notes = { s with lines := s.lines ++ r.lines notes } := by
  unfold recordAll
  induction notes generalizing s with
  | nil =>
    change s = { s with lines := s.lines ++ [] }
    rw [List.append_nil]
  | cons n notes ih =>
    rw [List.foldl_cons]
    by_cases hadmits : r.filter.admits n
    · have hstep : s.record n = { s with lines := s.lines ++ [r.line n] } := by
        rw [record, h]
        exact if_pos hadmits
      rw [hstep, ih (by exact h), Recorder.lines_cons_of_admits hadmits]
      dsimp only
      rw [List.append_assoc, List.singleton_append]
    · have hstep : s.record n = s := by
        rw [record, h]
        exact if_neg hadmits
      rw [hstep, ih h, Recorder.lines_cons_of_not_admits hadmits]

theorem recordAll_of_no_recorder (h : s.recorder = none) (notes : List Note) :
    s.recordAll notes = s := by
  unfold recordAll
  induction notes with
  | nil => rfl
  | cons n notes ih =>
    have hstep : s.record n = s := by rw [record, h]
    rw [List.foldl_cons, hstep, ih]

theorem files_recordAll (s : LogState) (notes : List Note) :
    (s.recordAll notes).files = s.files := by
  cases hr : s.recorder with
  | none => rw [recordAll_of_no_recorder hr]
  | some r => rw [recordAll_of_recorder hr]

def written (s : LogState) (loc : Location) : Bytes :=
  (s.linesAt (.file loc)).flatMap fun line => Utf8.encode (line.text ++ "\n")

def content? (s : LogState) (loc : Location) : Option Bytes :=
  (s.files.file? loc).map (· ++ s.written loc)

theorem written_of_ne {r : Recorder} {notes : List Note} {loc : Location}
    (h : s.lines = r.lines notes) (hne : r.destination ≠ .file loc) : s.written loc = [] := by
  have hempty : (r.lines notes).filter (·.1 = .file loc) = [] := by
    apply List.filter_eq_nil_iff.mpr
    intro line hline heq
    have hdest := Recorder.destination_of_mem_lines hline
    exact hne (hdest.symm.trans (of_decide_eq_true heq))
  rw [written, linesAt, h, hempty]
  rfl

theorem written_of_silent {loc : Location} (h : s.lines = []) : s.written loc = [] := by
  rw [written, linesAt, h]
  rfl

end LogState

open LogState

/-- What becomes of requests for the log and of the notes taken after them: the answers, the lines,
and the content of the files. -/
structure LogHistory (files : FileTree) (cwd : Location) (filterText : Option String)
    (qs : List LogRequest) (answers : List (Except LogFault Unit)) (notes : List Note)
    (s : LogState) : Prop where
  answered : answers.length = qs.length
  first : ∀ k, answers[k]? = some (.ok ()) ↔
    ∃ q d, FirstServed cwd filterText (initial files) qs k q d
  once : ∀ j k : Nat, answers[j]? = some (.ok ()) →
    answers[k]? = some (.ok ()) → j = k
  recorded : ∀ k q d, FirstServed cwd filterText (initial files) qs k q d →
    s.lines = (q.recorder filterText d).lines notes
  silent : (∀ k : Nat, answers[k]? ≠ some (.ok ())) → s.lines = []
  kept : ∀ loc old, files.file? loc = some old → s.content? loc = some (old ++ s.written loc)
  created : ∀ loc content, files.file? loc = none → s.content? loc = some content →
    content = s.written loc
  opened : ∀ k q loc, FirstServed cwd filterText (initial files) qs k q (.file loc) →
    ∃ content, s.content? loc = some content
  elsewhere : ∀ loc, s.written loc ≠ [] →
    ∃ k q, FirstServed cwd filterText (initial files) qs k q (.file loc)

/-- Of all requests for the log of a process the first that can be served succeeds and no other. The
notes taken afterwards are recorded as it asked, and the other requests write to no file. -/
theorem log_set_up_by_first_served (files : FileTree) (cwd : Location) (filterText : Option String)
    (qs : List LogRequest) (notes : List Note) :
    LogHistory files cwd filterText qs (setUpAll cwd filterText (initial files) qs).2 notes
      ((setUpAll cwd filterText (initial files) qs).1.recordAll notes) := by
  have hfresh : (initial files).recorder = none := rfl
  have hgrows : files.Grows (setUpAll cwd filterText (initial files) qs).1.files :=
    grows_setUpAll (s := initial files)
  have hlines : (setUpAll cwd filterText (initial files) qs).1.lines = [] :=
    lines_setUpAll (s := initial files)
  have hfirst (k : Nat) : (setUpAll cwd filterText (initial files) qs).2[k]? = some (.ok ()) ↔
      ∃ q d, FirstServed cwd filterText (initial files) qs k q d :=
    ⟨firstServed_of_ok hfresh, fun ⟨q, d, h⟩ => (setUpAll_of_firstServed hfresh h).2⟩
  have hrecorded (k : Nat) (q : LogRequest) (d : LogDestination)
      (h : FirstServed cwd filterText (initial files) qs k q d) :
      ((setUpAll cwd filterText (initial files) qs).1.recordAll notes).lines =
        (q.recorder filterText d).lines notes := by
    rw [recordAll_of_recorder (setUpAll_of_firstServed hfresh h).1, hlines]
    exact List.nil_append _
  have hsilent (h : ∀ k q d, ¬ FirstServed cwd filterText (initial files) qs k q d) :
      ((setUpAll cwd filterText (initial files) qs).1.recordAll notes).lines = [] := by
    rw [recordAll_of_no_recorder (recorder_setUpAll_of_unserved hfresh h), hlines]
  have hfiles : ((setUpAll cwd filterText (initial files) qs).1.recordAll notes).files =
      (setUpAll cwd filterText (initial files) qs).1.files := files_recordAll _ notes
  constructor
  case answered => exact length_setUpAll
  case first => exact hfirst
  case once =>
    intro j k hj hk
    obtain ⟨q, d, h⟩ := (hfirst j).mp hj
    obtain ⟨q', d', h'⟩ := (hfirst k).mp hk
    exact h.position_unique h'
  case recorded => exact hrecorded
  case silent =>
    intro h
    exact hsilent fun k q d hserved => h k ((hfirst k).mpr ⟨q, d, hserved⟩)
  case kept =>
    intro loc old hold
    rw [content?, hfiles, hgrows.file?_of_some hold]
    rfl
  case created =>
    intro loc content hnone hcontent
    rw [content?, hfiles] at hcontent
    obtain ⟨old, hold, rfl⟩ := Option.map_eq_some_iff.mp hcontent
    rw [hgrows.file?_of_none hnone hold]
    rfl
  case opened =>
    intro k q loc h
    obtain ⟨content, hcontent⟩ := file?_setUpAll_of_firstServed h
    rw [content?, hfiles, hcontent]
    exact ⟨_, rfl⟩
  case elsewhere =>
    intro loc hwritten
    -- every line is written where the first request served wants it, and without one there is none
    refine Classical.byContradiction fun hnot => hwritten ?_
    by_cases hserved : ∃ k q d, FirstServed cwd filterText (initial files) qs k q d
    · obtain ⟨k, q, d, h⟩ := hserved
      refine written_of_ne (hrecorded k q d h) ?_
      rintro rfl
      exact hnot ⟨k, q, h⟩
    · refine written_of_silent (hsilent ?_)
      intro k q d h
      exact hserved ⟨k, q, d, h⟩

end MountControl
