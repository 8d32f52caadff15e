import MountControl.Proofs.WholeReports

namespace MountControl

def Written.within (whole : Written) (room : Nat) (refusal : WriteFault) : Written :=
  if whole.accepted.length ≤ room then whole
  else ⟨whole.accepted.take room, some (if refusal.interrupts then .endless else refusal)⟩

/-- How all of some bytes are written where there is room for so many, and the room left then, call
by call. A call offers what there still is. It takes some of it while there is room, though maybe
less than there is room for, and is refused afterwards. -/
inductive WritesAll (refusal : WriteFault) : Nat → Bytes → Nat → Written → Prop
  | done {room} : WritesAll refusal room [] room ⟨[], none⟩
  | taken {room room' part bytes w} (hpart : part ≠ [])
      (again : WritesAll refusal room bytes room' w) :
      WritesAll refusal (part.length + room) (part ++ bytes) room' ⟨part ++ w.accepted, w.fault⟩
  | interrupted {room' bytes w} (hbytes : bytes ≠ []) (hrefusal : refusal.interrupts)
      (again : WritesAll refusal 0 bytes room' w) :
      WritesAll refusal 0 bytes room' w
  | refused {bytes} (hbytes : bytes ≠ []) (hrefusal : ¬ refusal.interrupts) :
      WritesAll refusal 0 bytes 0 ⟨[], some refusal⟩

/-- How pieces are written one after the other. The first fault ends it; if there is none, it ends
with `atEnd`. -/
inductive Delivers (refusal : WriteFault) (atEnd : Option WriteFault) :
    Nat → List Bytes → Written → Prop
  | finished {room} : Delivers refusal atEnd room [] ⟨[], atEnd⟩
  | broken {room room' piece pieces accepted fault}
      (h : WritesAll refusal room piece room' ⟨accepted, some fault⟩) :
      Delivers refusal atEnd room (piece :: pieces) ⟨accepted, some fault⟩
  | followed {room room' piece pieces accepted w}
      (h : WritesAll refusal room piece room' ⟨accepted, none⟩)
      (rest : Delivers refusal atEnd room' pieces w) :
      Delivers refusal atEnd room (piece :: pieces) ⟨accepted ++ w.accepted, w.fault⟩

variable {refusal : WriteFault} {atEnd : Option WriteFault} {room room' : Nat}
  {piece bytes : Bytes} {pieces : List Bytes} {w : Written}

namespace Written

theorem within_of_le (h : w.accepted.length ≤ room) : w.within room refusal = w :=
  if_pos h

theorem within_of_lt (h : room < w.accepted.length) : w.within room refusal =
    ⟨w.accepted.take room, some (if refusal.interrupts then .endless else refusal)⟩ :=
  if_neg (Nat.not_le.mpr h)

/-- What is taken within a limit is what fits into it. -/
theorem accepted_within (w : Written) (room : Nat) (refusal : WriteFault) :
    (w.within room refusal).accepted = w.accepted.take room := by
  by_cases h : w.accepted.length ≤ room
  · rw [within_of_le h, List.take_of_length_le h]
  · rw [within_of_lt (Nat.not_le.mp h)]

/-- Nothing goes wrong within a limit just if nothing does without one and all of it fits. -/
theorem fault_within_eq_none_iff :
    (w.within room refusal).fault = none ↔ w.fault = none ∧ w.accepted.length ≤ room := by
  by_cases h : w.accepted.length ≤ room
  · rw [within_of_le h, and_iff_left h]
  · rw [within_of_lt (Nat.not_le.mp h)]
    exact iff_of_false (Option.some_ne_none _) fun hwhole => h hwhole.2

/-- Writing that ends on a sink with room for everything comes to no end only if it is cut by a
refusal that interrupts. -/
theorem fault_within_ne_endless_iff (h : w.fault ≠ some .endless) :
    (w.within room refusal).fault ≠ some .endless ↔
      (refusal.interrupts → w.accepted.length ≤ room) := by
  by_cases hle : w.accepted.length ≤ room
  · rw [within_of_le hle]
    exact iff_of_true h fun _ => hle
  · rw [within_of_lt (Nat.not_le.mp hle)]
    by_cases hrefusal : refusal.interrupts
    · rw [if_pos hrefusal]
      exact iff_of_false (fun hne => hne rfl) fun hroom => hle (hroom hrefusal)
    · rw [if_neg hrefusal]
      refine iff_of_true ?_ fun hinterrupts => absurd hinterrupts hrefusal
      intro heq
      rw [Option.some.inj heq] at hrefusal
      exact hrefusal rfl

/-- A piece that fits is taken, and there is so much less room for what follows. -/
theorem within_append_of_le (h : piece.length ≤ room) :
    (⟨piece ++ bytes, atEnd⟩ : Written).within room refusal =
      let rest := (⟨bytes, atEnd⟩ : Written).within (room - piece.length) refusal
      ⟨piece ++ rest.accepted, rest.fault⟩ := by
  have hlength : (piece ++ bytes).length = piece.length + bytes.length := List.length_append
  by_cases hbytes : bytes.length ≤ room - piece.length
  · have hfits : (piece ++ bytes).length ≤ room := by omega
    rw [within_of_le hfits, within_of_le hbytes]
  · have hcut : room < (piece ++ bytes).length := by omega
    rw [within_of_lt hcut, within_of_lt (Nat.not_le.mp hbytes)]
    dsimp only
    rw [List.take_append, List.take_of_length_le h]

/-- In a piece that does not fit the writing ends. -/
theorem within_append_of_lt (h : room < piece.length) :
    (⟨piece ++ bytes, atEnd⟩ : Written).within room refusal =
      ⟨piece.take room, some (if refusal.interrupts then .endless else refusal)⟩ := by
  have hlength : (piece ++ bytes).length = piece.length + bytes.length := List.length_append
  have hcut : room < (piece ++ bytes).length := by omega
  rw [within_of_lt hcut]
  dsimp only
  rw [List.take_append_of_le_length (Nat.le_of_lt h)]

end Written

/-- A sink with room for so many bytes takes the pieces as one text, cut where the room ends. -/
theorem Sink.limited_write (room : Nat) (refusal : WriteFault) (atEnd : Option WriteFault)
    (pieces : List Bytes) : (⟨some room, refusal⟩ : Sink).write atEnd pieces =
      (⟨pieces.flatten, atEnd⟩ : Written).within room refusal := by
  induction pieces generalizing room with
  | nil => rw [List.flatten_nil, Written.within_of_le (Nat.zero_le room), write]
  | cons piece pieces ih =>
    have hfits : (⟨some room, refusal⟩ : Sink).fits piece.length = decide (piece.length ≤ room) :=
      rfl
    have hafter : (⟨some room, refusal⟩ : Sink).after piece.length =
        ⟨some (room - piece.length), refusal⟩ := rfl
    rw [List.flatten_cons, write, hfits, hafter, ih]
    by_cases h : piece.length ≤ room
    · rw [if_pos (decide_eq_true h), Written.within_append_of_le h]
    · rw [if_neg (by simpa using h), Written.within_append_of_lt (Nat.not_le.mp h)]
      rfl

example : (⟨some 2, .device .noSpace⟩ : Sink).write none [[1, 2], [3]] =
    ⟨[1, 2], some (.device .noSpace)⟩ := by
  decide

namespace WritesAll

/-- However much the single calls take, all of the bytes are written if there is room for them, and
else as many as there is room for. -/
theorem full_or_cut (h : WritesAll refusal room bytes room' w) :
    (bytes.length ≤ room ∧ room' = room - bytes.length ∧ w = ⟨bytes, none⟩) ∨
      (room < bytes.length ∧ ¬ refusal.interrupts ∧ w = ⟨bytes.take room, some refusal⟩) := by
  induction h with
  | done => exact .inl ⟨Nat.zero_le _, rfl, rfl⟩
  | @taken room room' part bytes w hpart again ih =>
    have hlength : (part ++ bytes).length = part.length + bytes.length := List.length_append
    rcases ih with ⟨hle, hroom', rfl⟩ | ⟨hlt, hrefusal, rfl⟩
    · exact .inl ⟨by omega, by omega, rfl⟩
    · refine .inr ⟨by omega, hrefusal, ?_⟩
      rw [List.take_length_add_append]
  | interrupted hbytes hrefusal again ih => exact ih
  | refused hbytes hrefusal => exact .inr ⟨List.length_pos_iff.mpr hbytes, hrefusal, rfl⟩

/-- What fits can be taken by one call. -/
theorem of_le (h : bytes.length ≤ room) :
    WritesAll refusal room bytes (room - bytes.length) ⟨bytes, none⟩ := by
  by_cases hbytes : bytes = []
  · subst hbytes
    exact .done
  · have hone : WritesAll refusal (bytes.length + (room - bytes.length)) (bytes ++ [])
        (room - bytes.length) ⟨bytes ++ [], none⟩ := .taken hbytes .done
    rwa [List.append_nil, Nat.add_sub_of_le h] at hone

/-- What does not fit can be taken in part by one call, and the next one be refused. -/
theorem of_lt (h : room < bytes.length) (hrefusal : ¬ refusal.interrupts) :
    WritesAll refusal room bytes 0 ⟨bytes.take room, some refusal⟩ := by
  have hlast : WritesAll refusal 0 (bytes.drop room) 0 ⟨[], some refusal⟩ := by
    apply refused _ hrefusal
    rw [← List.length_pos_iff, List.length_drop]
    omega
  cases room with
  | zero => exact hlast
  | succ room =>
    have hlength : (bytes.take (room + 1)).length = room + 1 := by
      rw [List.length_take]
      omega
    have hpart : bytes.take (room + 1) ≠ [] := by
      rw [← List.length_pos_iff, hlength]
      exact Nat.succ_pos room
    have hboth := taken hpart hlast
    rwa [hlength, List.take_append_drop, List.append_nil] at hboth

end WritesAll

namespace Delivers

/-- However the calls divide the bytes, the end is the same; and where a refusal only interrupts,
there is an end only if all bytes fit. -/
theorem outcome (h : Delivers refusal atEnd room pieces w) :
    w = (⟨pieces.flatten, atEnd⟩ : Written).within room refusal ∧
      (refusal.interrupts → pieces.flatten.length ≤ room) := by
  -- a piece is full and leaves the next ones so much less room, or it is cut and the last
  induction h with
  | finished => exact ⟨(Written.within_of_le (Nat.zero_le _)).symm, fun _ => Nat.zero_le _⟩
  | broken h =>
    rcases h.full_or_cut with ⟨-, -, hw⟩ | ⟨hlt, hrefusal, hw⟩
    · cases hw
    · rw [List.flatten_cons, Written.within_append_of_lt hlt, hw, if_neg hrefusal]
      exact ⟨rfl, fun hinterrupts => absurd hinterrupts hrefusal⟩
  | followed h rest ih =>
    obtain ⟨hrest, hroom⟩ := ih
    rcases h.full_or_cut with ⟨hle, hroom', hw⟩ | ⟨-, -, hw⟩
    · cases hw
      rw [hroom'] at hrest hroom
      rw [List.flatten_cons, Written.within_append_of_le hle, ← hrest]
      refine ⟨rfl, ?_⟩
      intro hinterrupts
      have hfits := hroom hinterrupts
      rw [List.length_append]
      omega
    · cases hw

/-- Conversely that end is reached, by calls that take all they can. -/
theorem of_room (hroom : refusal.interrupts → pieces.flatten.length ≤ room) :
    Delivers refusal atEnd room pieces
      ((⟨pieces.flatten, atEnd⟩ : Written).within room refusal) := by
  induction pieces generalizing room with
  | nil =>
    rw [List.flatten_nil, Written.within_of_le (Nat.zero_le room)]
    exact .finished
  | cons piece pieces ih =>
    have hlength : (piece ++ pieces.flatten).length = piece.length + pieces.flatten.length :=
      List.length_append
    rw [List.flatten_cons] at hroom ⊢
    by_cases h : piece.length ≤ room
    · rw [Written.within_append_of_le h]
      apply followed (WritesAll.of_le h)
      apply ih
      intro hinterrupts
      have hfits := hroom hinterrupts
      omega
    · have hlt : room < piece.length := Nat.not_le.mp h
      have hrefusal : ¬ refusal.interrupts := by
        intro hinterrupts
        have hfits := hroom hinterrupts
        omega
      rw [Written.within_append_of_lt hlt, if_neg hrefusal]
      exact broken (WritesAll.of_lt hlt hrefusal)

end Delivers

/-- Pieces come to what their text comes to. Where there is more than there is room for, and a
refusal only interrupts, the writing does not come to an end. -/
theorem delivers_iff : Delivers refusal atEnd room pieces w ↔
    w = (⟨pieces.flatten, atEnd⟩ : Written).within room refusal ∧
      (refusal.interrupts → pieces.flatten.length ≤ room) := by
  constructor
  · intro h
    exact h.outcome
  · rintro ⟨rfl, hroom⟩
    exact .of_room hroom

namespace Report

/-- A report to a limited sink is the report to an unbounded one, cut. -/
theorem write_limited (r : Report) (format : ReportFormat) (room : Nat) (refusal : WriteFault) :
    r.write format ⟨some room, refusal⟩ =
      (r.write format Sink.unbounded).within room refusal := by
  rw [write, write, Sink.limited_write, Sink.unbounded_write]

/-- A sink without a limit keeps no writer waiting. -/
theorem write_unbounded_ends (r : Report) (format : ReportFormat) :
    (r.write format Sink.unbounded).fault ≠ some .endless := by
  cases hwhole : r.whole? format with
  | some text =>
    rw [write_unbounded_of_whole hwhole]
    intro hfault
    cases hfault
  | none =>
    rw [write_unbounded_of_not_whole hwhole]
    intro hfault
    cases hfault

/-- Where there is room for so many bytes, a report is written up to there, wherever that falls. A
text that is cut ends with the refusal, and a whole one as it does on a sink that takes everything;
so the writing succeeds just if it does there and there is room for all of it. The one exception is
a refusal that interrupts: once the room is used up, the sink is called for ever. All this is so for
every writer with that room, whatever pieces the text comes in and however much of them each call
takes. -/
theorem limited_report_cut (r : Report) (format : ReportFormat) (room : Nat)
    (refusal : WriteFault) :
    let whole := r.write format Sink.unbounded
    let cut := r.write format ⟨some room, refusal⟩
    cut.accepted = whole.accepted.take room ∧
      (cut.fault = none ↔ whole.fault = none ∧ whole.accepted.length ≤ room) ∧
      (room < whole.accepted.length →
        cut.fault = some (if refusal.interrupts then .endless else refusal)) ∧
      (whole.accepted.length ≤ room → cut.fault = whole.fault) ∧
      ∀ pieces w, pieces.flatten = whole.accepted →
        (Delivers refusal whole.fault room pieces w ↔ w = cut ∧ cut.fault ≠ some .endless) := by
  intro whole cut
  have hcut : cut = whole.within room refusal := r.write_limited format room refusal
  have hends : whole.fault ≠ some .endless := r.write_unbounded_ends format
  rw [hcut]
  refine ⟨whole.accepted_within room refusal, Written.fault_within_eq_none_iff, ?_, ?_, ?_⟩
  · intro hlt
    rw [Written.within_of_lt hlt]
  · intro hle
    rw [Written.within_of_le hle]
  · intro pieces w htext
    rw [delivers_iff, htext, Written.fault_within_ne_endless_iff hends]

/-- After "res" the writer is interrupted, and again at every further call, so that it never gets to
report it. -/
theorem interrupted_report_unending :
    let report := ofOutcome .cacheReset (Utf8.encode "/m")
    let refusal := WriteFault.device Errno.interrupted
    let whole := report.write .text Sink.unbounded
    let cut := report.write .text ⟨some 3, refusal⟩
    3 < whole.accepted.length ∧ cut.fault = some .endless ∧ cut.fault ≠ some refusal ∧
      ∀ w, ¬ Delivers refusal whole.fault 3 [whole.accepted] w := by
  intro report refusal whole cut
  have hlt : 3 < whole.accepted.length := by decide
  refine ⟨hlt, by decide, by decide, ?_⟩
  intro w h
  have hroom := (delivers_iff.mp h).2 rfl
  rw [List.flatten_singleton] at hroom
  omega

end Report

namespace Launch

variable {l : Launch} {i : Invocation} {settings : Settings} {log : LogState} {outcome : Outcome}
  {path : Path}

theorem writeReport_limited (r : Report) (format : ReportFormat)
    (hroom : l.output = ⟨some room, refusal⟩) :
    let whole := r.write format Sink.unbounded
    (l.writeReport r format).accepted = whole.accepted.take room ∧
      ((l.writeReport r format).fault = none ↔
        whole.fault = none ∧ whole.accepted.length ≤ room) := by
  have hlimited := Sink.limited_write room refusal none ((r.render format).pieces.map Utf8.encode)
  rw [← hroom] at hlimited
  unfold writeReport
  dsimp only
  rw [Report.write, Sink.unbounded_write, hlimited]
  cases (r.render format).fault with
  | none => exact ⟨Written.accepted_within _ _ _, Written.fault_within_eq_none_iff⟩
  | some fault =>
    -- the fault of the report is found first, as what is written is only refused at the end
    refine ⟨Written.accepted_within _ _ _, ?_⟩
    exact iff_of_false (Option.some_ne_none _) fun hwhole => Option.some_ne_none _ hwhole.1

/-- A standard output that takes so many bytes gets so much of the report of a run. The run succeeds
just if the report does on a sink that takes everything and there is room for all of it. -/
theorem Achieves.limited (h : l.Achieves i settings log outcome path)
    (hroom : l.output = ⟨some room, refusal⟩) :
    let whole := (Report.ofOutcome outcome path).write (formatFor settings) Sink.unbounded
    l.run.output = whole.accepted.take room ∧
      (l.run.exitCode = 0 ↔ whole.fault = none ∧ whole.accepted.length ≤ room) := by
  intro whole
  obtain ⟨houtput, hexit⟩ := command_of_written h.exchanged h.resolved
  obtain ⟨haccepted, hfault⟩ :=
    writeReport_limited (Report.ofOutcome outcome path) (formatFor settings) hroom
  rw [h.run_eq]
  refine ⟨houtput.trans haccepted, ?_⟩
  rw [hexit, ← hfault]
  split
  · exact iff_of_true rfl ‹_›
  · exact iff_of_false (by decide) ‹_›

end Launch

end MountControl
