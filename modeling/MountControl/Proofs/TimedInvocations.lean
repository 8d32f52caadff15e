import Mathlib.Tactic.Simproc.ExistsAndEq
import MountControl.Proofs.Courses

namespace MountControl.Timed

open Transport (Conclusion conclude)

def work (h : List Mark) : List Mark :=
  h.filter fun m => match m with
    | .returned _ => false
    | _ => true

inductive Work (cwd : Path) (q : Request) : List Mark → Prop
  | nothing : Work cwd q []
  | unopened (path : Path) (cause : SystemError) : Work cwd q [.unopened path cause]
  | unstarted (path : Path) : Work cwd q [.opened path, .closed]
  | worked {path buffer} (ho : q.Opens cwd path buffer) (worker : Worker) :
    Work cwd q (.opened path :: worker.marks q buffer)

theorem work_marks (q : Request) (buffer : Bytes) (worker : Worker) :
    work (worker.marks q buffer) = worker.marks q buffer := by
  cases worker <;> rfl

theorem work_opened_marks (q : Request) (path : Path) (buffer : Bytes) (worker : Worker) :
    work (.opened path :: worker.marks q buffer) = .opened path :: worker.marks q buffer := by
  cases worker <;> rfl

theorem work_append (h h' : List Mark) : work (h ++ h') = work h ++ work h' :=
  List.filter_append ..

theorem work_returned (before after : List Mark) (r : Except Halt Reply) :
    work (before ++ .returned r :: after) = work (before ++ after) := by
  rw [work_append, work_append]
  rfl

theorem Early.work {cwd : Path} {q : Request} {r : Except Halt Reply} {h : List Mark}
    (he : Early cwd q r h) : Timed.work h = h ∧ Work cwd q h := by
  cases he with
  | rejected _ => exact ⟨rfl, .nothing⟩
  | unopened _ _ => exact ⟨rfl, .unopened _ _⟩
  | unstarted _ _ => exact ⟨rfl, .unstarted _⟩

/-- On its course, a task has done no more than one piece of work for its request. -/
theorem Course.work {cwd : Path} {limit : Duration} {t : Task} {h : List Mark}
    (hc : Course cwd limit t h) : Work cwd t.request (Timed.work h) := by
  have hworked {q : Request} {path : Path} {buffer : Bytes} (ho : q.Opens cwd path buffer)
      (worker : Worker) : Work cwd q (Timed.work (.opened path :: worker.marks q buffer)) := by
    rw [work_opened_marks]
    exact .worked ho worker
  cases hc with
  | begun => exact .nothing
  | early he => exact he.work.1.symm ▸ he.work.2
  | earlyBack he =>
    rw [work_returned, List.append_nil, he.work.1]
    exact he.work.2
  | holding ho => exact hworked ho .absent
  | waiting ho hw hp => exact hworked ho _
  | settled ho hw hd => exact hworked ho _
  | settledBack ho hw hd =>
    rw [work_returned, List.append_nil]
    exact hworked ho _
  | late ho hw => exact hworked ho _
  | lateBack ho hw hm =>
    rw [work_returned, List.cons_append, ← hm]
    exact hworked ho _

theorem countP_work {p : Mark → Bool} (hp : ∀ r, p (.returned r) = false) (h : List Mark) :
    (work h).countP p = h.countP p := by
  rw [work, List.countP_filter]
  apply List.countP_congr
  intro m _
  cases m with
  | returned r => simp only [hp, Bool.and_false, Bool.false_eq_true]
  | unopened | opened | called | answered | closed => simp only [Bool.and_true]

theorem mem_work {m : Mark} (hm : ∀ r, m ≠ .returned r) (h : List Mark) :
    m ∈ work h ↔ m ∈ h := by
  rw [work, List.mem_filter]
  cases m with
  | returned r => exact absurd rfl (hm r)
  | unopened | opened | called | answered | closed => simp only [and_true]

theorem work_split {m : Mark} (hm : ∀ r, m ≠ .returned r) (before after : List Mark) :
    work (before ++ m :: after) = work before ++ m :: work after := by
  rw [work_append]
  cases m with
  | returned r => exact absurd rfl (hm r)
  | unopened | opened | called | answered | closed => rfl

namespace Work

variable {cwd : Path} {q : Request} {h : List Mark}

theorem calls_le_one (hw : Work cwd q h) : h.countP Mark.isCall ≤ 1 := by
  cases hw with
  | nothing | unopened | unstarted => simp [Mark.isCall]
  | worked _ worker => cases worker <;> simp [Worker.marks, List.countP_cons, Mark.isCall]

theorem closes_le_one (hw : Work cwd q h) : h.countP Mark.isClose ≤ 1 := by
  cases hw with
  | nothing | unopened | unstarted => simp [Mark.isClose]
  | worked _ worker => cases worker <;> simp [Worker.marks, List.countP_cons, Mark.isClose]

/-- A close comes after the call, if there is one, has begun and ended. -/
theorem close_last (hw : Work cwd q h) {before after : List Mark}
    (hs : h = before ++ .closed :: after) :
    after = [] ∧ before.countP Mark.isCall = before.countP Mark.isAnswer := by
  cases hw with
  | nothing => simp at hs
  | unopened => simp [List.cons_eq_append_iff] at hs
  | unstarted =>
    simp [List.cons_eq_append_iff] at hs
    obtain ⟨rfl, rfl⟩ := hs
    exact ⟨rfl, rfl⟩
  | worked _ worker =>
    cases worker with
    | absent | ready | calling | called => simp [Worker.marks, List.cons_eq_append_iff] at hs
    | closed | sent | ended =>
      simp [Worker.marks, List.cons_eq_append_iff] at hs
      obtain ⟨rfl, rfl⟩ := hs
      exact ⟨rfl, rfl⟩

/-- The root is open before anything else is done with it. -/
theorem opened_first (hw : Work cwd q h) {m : Mark} (hm : m.isCall ∨ m.isClose)
    {before after : List Mark} (hs : h = before ++ m :: after) :
    ∃ path, .opened path ∈ before := by
  cases before with
  | nil =>
    cases hw with
    | nothing => cases hs
    | unopened | unstarted | worked =>
      obtain ⟨rfl, _⟩ := List.cons.inj hs
      cases hm <;> contradiction
  | cons first rest =>
    cases hw with
    | nothing => cases hs
    | unopened => simp at hs
    | unstarted | worked =>
      obtain ⟨rfl, _⟩ := List.cons.inj hs
      exact ⟨_, List.mem_cons_self⟩

/-- The call is that of the request, with its own buffer. -/
theorem called_own (hw : Work cwd q h) {code : RequestCode} {visible : Option Bytes}
    (hm : .called code visible ∈ h) :
    code = q.code ∧ ∃ path buffer, q.prepare cwd = .ok (path, buffer) ∧
      visible = q.visible buffer := by
  cases hw with
  | nothing | unopened | unstarted => simp at hm
  | worked ho worker =>
    cases worker with
    | absent | ready => simp [Worker.marks] at hm
    | calling | called | closed | sent | ended =>
      simp [Worker.marks] at hm
      exact ⟨hm.1, _, _, ho.prepared, hm.2⟩

theorem answered_own (hw : Work cwd q h) {c : Conclusion} (hm : .answered c ∈ h) :
    ∃ path buffer, q.prepare cwd = .ok (path, buffer) ∧ c = q.conclusion buffer := by
  cases hw with
  | nothing | unopened | unstarted => simp at hm
  | worked ho worker =>
    cases worker with
    | absent | ready | calling => simp [Worker.marks] at hm
    | called | closed | sent | ended =>
      simp [Worker.marks] at hm
      exact ⟨_, _, ho.prepared, hm⟩

end Work

theorem returned_not_mem_work (r : Except Halt Reply) (h : List Mark) : .returned r ∉ work h := by
  intro hm
  cases (List.mem_filter.mp hm).2

theorem returned_last {h before after : List Mark} {r s : Except Halt Reply} (hw : work h = h)
    (hs : h ++ [.returned s] = before ++ .returned r :: after) :
    before = h ∧ r = s ∧ after = [] := by
  rcases List.eq_nil_or_concat after with rfl | ⟨rest, m, rfl⟩
  · obtain ⟨rfl, hr⟩ := List.append_inj' hs rfl
    cases hr
    exact ⟨rfl, rfl, rfl⟩
  · rw [List.concat_eq_append, ← List.cons_append, ← List.append_assoc] at hs
    obtain ⟨hh, _⟩ := List.append_inj' hs rfl
    refine absurd ?_ (returned_not_mem_work r h)
    rw [hw, hh]
    exact List.mem_append_right _ List.mem_cons_self

/-- A caller comes back before a worker was started, or after a worker that is done with its root,
or because its time ran out. -/
theorem Course.returned {cwd : Path} {limit : Duration} {t : Task} {h before after : List Mark}
    {r : Except Halt Reply} (hc : Course cwd limit t h) (hs : h = before ++ .returned r :: after) :
    Early cwd t.request r before ∨
      (∃ path buffer, t.request.Opens cwd path buffer ∧ r = t.request.settlement buffer ∧
        before = .opened path :: Worker.ended.marks t.request buffer) ∨
      r = (Conclusion.gaveUp limit).result t.request.code := by
  -- a history in which the caller is not back yet is nothing but work on the root
  have hmem : Mark.returned r ∈ h := hs ▸ List.mem_append_right _ List.mem_cons_self
  have hnone {h' : List Mark} (hw : Timed.work h' = h') : Mark.returned r ∉ h' :=
    hw ▸ returned_not_mem_work r h'
  cases hc with
  | begun => cases hmem
  | early he => exact absurd hmem (hnone he.work.1)
  | earlyBack he =>
    obtain ⟨rfl, rfl, _⟩ := returned_last he.work.1 hs
    exact Or.inl he
  | holding => exact absurd hmem (hnone rfl)
  | waiting => exact absurd hmem (hnone (work_opened_marks ..))
  | settled => exact absurd hmem (hnone (work_opened_marks ..))
  | @settledBack q path buffer worker slot ho hw hd =>
    obtain ⟨rfl, rfl, _⟩ := returned_last (work_opened_marks ..) hs
    have hfull : worker.marks q buffer = Worker.ended.marks q buffer := by
      cases worker with
      | sent | ended => rfl
      | absent | ready | calling | called | closed => cases hd
    exact Or.inr (Or.inl ⟨path, buffer, ho, rfl, by rw [hfull]⟩)
  | late => exact absurd hmem (hnone (work_opened_marks ..))
  | @lateBack q path buffer worker slot early rest ho hw hm =>
    have hpart : Mark.returned r ∉ early ++ rest := hm ▸ hnone (work_marks q buffer worker)
    rw [List.mem_append] at hpart
    simp only [List.cons_append, List.mem_cons, List.mem_append, Mark.returned.injEq,
      reduceCtorEq, false_or] at hmem
    rcases hmem with hm | rfl | hm
    · exact absurd (Or.inl hm) hpart
    · exact Or.inr (Or.inr rfl)
    · exact absurd (Or.inr hm) hpart

/-- Whether a result says what came of the call: a reply, a refusal by the driver, or a worker that
ended without a message. -/
def TellsOfCall (q : Request) (r : Except Halt Reply) : Prop :=
  (∃ reply, r = .ok reply) ∨ (∃ code cause, r = .error (.failure (.protocolRejected code cause))) ∨
    r = Conclusion.workerDied.result q.code

/-- What the history of an invocation keeps to. -/
structure Orderly (cwd : Path) (q : Request) (h : List Mark) : Prop where
  calls_le_one : h.countP Mark.isCall ≤ 1
  closes_le_one : h.countP Mark.isClose ≤ 1
  /-- The root is open when the call begins and when it is closed. -/
  opened_first : ∀ before m after, h = before ++ m :: after → (m.isCall ∨ m.isClose) →
    ∃ path, .opened path ∈ before
  /-- No call begins after the close, and none is still going on then. -/
  close_last : ∀ before after, h = before ++ .closed :: after →
    after.countP Mark.isCall = 0 ∧ before.countP Mark.isCall = before.countP Mark.isAnswer
  /-- The call is made with the request's own code and buffer. -/
  called_own : ∀ code visible, .called code visible ∈ h →
    code = q.code ∧ ∃ path buffer, q.prepare cwd = .ok (path, buffer) ∧ visible = q.visible buffer
  /-- What comes of the call is what the request's own driver makes of it. -/
  answered_own : ∀ c, .answered c ∈ h →
    ∃ path buffer, q.prepare cwd = .ok (path, buffer) ∧ c = q.conclusion buffer
  /-- A caller that returns with word of the call returns after the close. -/
  closed_before_return : ∀ before r after, h = before ++ .returned r :: after → TellsOfCall q r →
    .closed ∈ before
  /-- The status and the data that are returned are those that the invocation's own call left. -/
  reply_own : ∀ before reply after, h = before ++ .returned (.ok reply) :: after →
    ∃ buffer, .answered (.answered reply.status buffer) ∈ before ∧
      reply.data = if q.code.direction.returnsOutput then buffer else []
  /-- The error that is returned with a refusal is that of the invocation's own call. -/
  refusal_own : ∀ before code cause after,
    h = before ++ .returned (.error (.failure (.protocolRejected code cause))) :: after →
      code = q.code ∧ .answered (.refused cause) ∈ before

/-- A reply has the status and the data of the driver's answer. -/
theorem Request.settlement_ok {q : Request} {buffer : Bytes} {reply : Reply}
    (h : q.settlement buffer = .ok reply) :
    ∃ left, q.conclusion buffer = .answered reply.status left ∧
      reply.data = if q.code.direction.returnsOutput then left else [] := by
  unfold settlement at h
  rcases q.conclusion_shape buffer with ⟨status, left, hc⟩ | ⟨cause, hc⟩ | ⟨m, hc⟩
  · rw [hc] at h
    cases h
    exact ⟨left, hc, rfl⟩
  · rw [hc] at h
    cases h
  · rw [hc] at h
    cases h

theorem Request.settlement_rejected {q : Request} {buffer : Bytes} {code : RequestCode}
    {cause : SystemError}
    (h : q.settlement buffer = .error (.failure (.protocolRejected code cause))) :
    code = q.code ∧ q.conclusion buffer = .refused cause := by
  unfold settlement at h
  rcases q.conclusion_shape buffer with ⟨status, left, hc⟩ | ⟨cause, hc⟩ | ⟨m, hc⟩
  · rw [hc] at h
    cases h
  · rw [hc] at h
    cases h
    exact ⟨rfl, hc⟩
  · rw [hc] at h
    cases h

/-- No reply comes before the call. -/
theorem Early.no_reply {cwd : Path} {q : Request} {reply : Reply} {h : List Mark} :
    ¬ Early cwd q (.ok reply) h := by
  intro he
  cases he

theorem Early.no_refusal {cwd : Path} {q : Request} {code : RequestCode} {cause : SystemError}
    {h : List Mark} : ¬ Early cwd q (.error (.failure (.protocolRejected code cause))) h := by
  intro he
  cases he with
  | rejected hp =>
    rcases Request.prepare_error_shape hp with ⟨_, _, he⟩ | ⟨_, _, he⟩ <;> cases he

theorem Early.closed_of_tells {cwd : Path} {q : Request} {r : Except Halt Reply} {h : List Mark}
    (he : Early cwd q r h) (ht : TellsOfCall q r) : .closed ∈ h := by
  rcases ht with ⟨reply, rfl⟩ | ⟨code, cause, rfl⟩ | rfl
  · exact absurd he Early.no_reply
  · exact absurd he Early.no_refusal
  · generalize hr : Conclusion.workerDied.result q.code = r at he
    cases he with
    | rejected hp =>
      rcases Request.prepare_error_shape hp with ⟨_, _, rfl⟩ | ⟨_, _, rfl⟩ <;> cases hr
    | unopened => cases hr
    | unstarted => exact List.mem_cons_of_mem _ List.mem_cons_self

/-- A task on its course has an orderly history. -/
theorem Course.orderly {cwd : Path} {limit : Duration} {t : Task} {h : List Mark}
    (hc : Course cwd limit t h) : Orderly cwd t.request h where
  calls_le_one := by
    rw [← countP_work (fun _ => rfl)]
    exact hc.work.calls_le_one
  closes_le_one := by
    rw [← countP_work (fun _ => rfl)]
    exact hc.work.closes_le_one
  opened_first := by
    intro before m after hs hm
    have hr : ∀ r, m ≠ .returned r := by
      rintro r rfl
      cases hm <;> contradiction
    obtain ⟨path, hp⟩ := hc.work.opened_first hm (by rw [hs, work_split hr])
    exact ⟨path, (mem_work (by simp) before).mp hp⟩
  close_last := by
    intro before after hs
    obtain ⟨hafter, hbefore⟩ := hc.work.close_last (by rw [hs, work_split (by simp)])
    refine ⟨?_, ?_⟩
    · rw [← countP_work (fun _ => rfl), hafter]
      rfl
    · rw [countP_work (fun _ => rfl), countP_work (fun _ => rfl)] at hbefore
      exact hbefore
  called_own := by
    intro code visible hm
    exact hc.work.called_own ((mem_work (by simp) h).mpr hm)
  answered_own := by
    intro c hm
    exact hc.work.answered_own ((mem_work (by simp) h).mpr hm)
  closed_before_return := by
    intro before r after hs ht
    rcases hc.returned hs with he | ⟨path, buffer, _, _, rfl⟩ | rfl
    · exact he.closed_of_tells ht
    · simp [Worker.marks]
    · rcases ht with ⟨_, hr⟩ | ⟨_, _, hr⟩ | hr <;> cases hr
  reply_own := by
    intro before reply after hs
    rcases hc.returned hs with he | ⟨path, buffer, _, hr, rfl⟩ | hr
    · exact absurd he Early.no_reply
    · obtain ⟨left, hleft, hdata⟩ := Request.settlement_ok hr.symm
      exact ⟨left, by simp [Worker.marks, hleft], hdata⟩
    · cases hr
  refusal_own := by
    intro before code cause after hs
    rcases hc.returned hs with he | ⟨path, buffer, _, hr, rfl⟩ | hr
    · exact absurd he Early.no_refusal
    · obtain ⟨hcode, hcause⟩ := Request.settlement_rejected hr.symm
      exact ⟨hcode, by simp [Worker.marks, hcause]⟩
    · cases hr

/-- A worker that was started carries what belongs to its own request. -/
theorem Course.worker_sound {cwd : Path} {limit : Duration} {t : Task} {h : List Mark}
    (hc : Course cwd limit t h) (hw : t.worker ≠ .absent) :
    ∃ buffer, t.worker.Sound t.request buffer t.slot := by
  cases hc with
  | begun | early | earlyBack | holding => exact absurd rfl hw
  | waiting _ hs _ | settled _ hs _ | settledBack _ hs _ | late _ hs | lateBack _ hs _ =>
    exact ⟨_, hs⟩

/-- A worker that has not ended can always go on; above all it is never kept from sending. -/
theorem Course.worker_can_step {cwd : Path} {limit : Duration} {t : Task} {h : List Mark}
    (hc : Course cwd limit t h) (hw : t.worker ≠ .absent) (he : t.worker ≠ .ended) :
    ∃ mark t', t.WorkerStep mark t' := by
  obtain ⟨buffer, hs⟩ := hc.worker_sound hw
  obtain ⟨q, caller, worker, slot⟩ := t
  cases worker with
  | absent => exact absurd rfl hw
  | ready b => exact ⟨_, _, .call⟩
  | calling b => exact ⟨_, _, .answer⟩
  | called c => exact ⟨_, _, .close⟩
  | closed c =>
    obtain ⟨hq, hn⟩ := hs
    cases hn
    by_cases hb : ∃ m, c = .brokeOff m
    · obtain ⟨m, rfl⟩ := hb
      exact ⟨_, _, .unwind⟩
    · have hsends : ∀ m, c ≠ .brokeOff m := fun m hm => hb ⟨m, hm⟩
      by_cases hback : ∃ r, caller = .back r
      · obtain ⟨r, rfl⟩ := hback
        exact ⟨_, _, .discard hsends (by simp)⟩
      · exact ⟨_, _, .deliver hsends fun r hr => hback ⟨r, hr⟩⟩
  | sent => exact ⟨_, _, .exit⟩
  | ended => exact absurd rfl he

/-- Once the caller is back and no worker is at work, a root that was opened has been closed. -/
theorem Course.closed_once {cwd : Path} {limit : Duration} {t : Task} {h : List Mark}
    (hc : Course cwd limit t h) {path : Path} (ho : .opened path ∈ h) (hb : t.isBack)
    (hd : t.worker = .absent ∨ t.worker.isDone) : h.countP Mark.isClose = 1 := by
  rw [← countP_work (fun _ => rfl)]
  have hdone {q : Request} {root : Path} {buffer : Bytes} {worker : Worker} (hd : worker.isDone) :
      (.opened root :: worker.marks q buffer : List Mark).countP Mark.isClose = 1 := by
    cases worker with
    | sent | ended => rfl
    | absent | ready | calling | called | closed => cases hd
  have hwork : .opened path ∈ Timed.work h := (mem_work (by simp) h).mpr ho
  cases hc with
  | begun | early | holding | waiting | settled | late => cases hb
  | earlyBack he =>
    rw [work_returned, List.append_nil, he.work.1] at hwork ⊢
    cases he with
    | rejected | unopened => simp at hwork
    | unstarted => rfl
  | settledBack _ _ hdw =>
    rw [work_returned, List.append_nil, work_opened_marks]
    exact hdone hdw
  | @lateBack _ _ _ worker _ _ _ _ hs hm =>
    -- a caller that gave up has started its worker
    have hworker : worker.isDone := by
      rcases hd with rfl | hd
      · exact hs.elim
      · exact hd
    rw [work_returned, List.cons_append, ← hm, work_opened_marks]
    exact hdone hworker

namespace World.Reachable

variable {cwd : Path} {limit : Duration} {t t' : Task} {trace : List (Nat × Mark)}
  {mark : Option Mark}

theorem first (cwd : Path) (limit : Duration) (q : Request) :
    Reachable cwd limit ⟨[.start q], []⟩ :=
  initial.step (.begin q fun _ ht => by cases ht)

theorem caller (h : Reachable cwd limit ⟨[t], trace⟩) (hs : t.CallerStep cwd limit mark t') :
    Reachable cwd limit ⟨[t'], trace ++ mark.toList.map (0, ·)⟩ :=
  h.step (.caller (i := 0) rfl hs)

theorem worker (h : Reachable cwd limit ⟨[t], trace⟩) (hs : t.WorkerStep mark t') :
    Reachable cwd limit ⟨[t'], trace ++ mark.toList.map (0, ·)⟩ :=
  h.step (.worker (i := 0) rfl hs)

variable {q : Request} {path : Path} {buffer : Bytes}

/-- The worker has made the call and the caller waits. -/
theorem calling (limit : Duration) (ho : q.Opens cwd path buffer) :
    Reachable cwd limit ⟨[⟨q, .waiting, .calling buffer, none⟩],
      [(0, .opened path), (0, .called q.code (q.visible buffer))]⟩ :=
  (((first cwd limit q).caller (.grant ho.prepared ho.granted)).caller .start).worker .call

/-- The worker has finished its call and closed the root while the caller waits. -/
theorem closed (limit : Duration) (ho : q.Opens cwd path buffer) :
    Reachable cwd limit ⟨[⟨q, .waiting, .closed (q.conclusion buffer), none⟩],
      [(0, .opened path), (0, .called q.code (q.visible buffer)),
        (0, .answered (q.conclusion buffer)), (0, .closed)]⟩ :=
  ((calling limit ho).worker .answer).worker .close

/-- The caller has taken the worker's message and is back. -/
theorem answered (limit : Duration) (ho : q.Opens cwd path buffer)
    (hb : ∀ m, q.conclusion buffer ≠ .brokeOff m) :
    Reachable cwd limit ⟨[⟨q, .back ((q.conclusion buffer).result q.code), .sent, none⟩],
      [(0, .opened path), (0, .called q.code (q.visible buffer)),
        (0, .answered (q.conclusion buffer)), (0, .closed),
        (0, .returned ((q.conclusion buffer).result q.code))]⟩ :=
  (((closed limit ho).worker (.deliver hb (by simp))).caller .take).caller .leave

/-- An invocation may be carried out from beginning to end while the worker of the one before it,
whose time ran out, is in its call; that worker closes its root after the later one is done. -/
theorem overtaken (limit : Duration) {a b : Request} {pa pb : Path}
    {ba bb : Bytes} (ha : a.Opens cwd pa ba) (hb : b.Opens cwd pb bb)
    (hm : ∀ m, b.conclusion bb ≠ .brokeOff m) :
    Reachable cwd limit
      ⟨[⟨a, .back ((Conclusion.gaveUp limit).result a.code), .closed (a.conclusion ba), none⟩,
        ⟨b, .back ((b.conclusion bb).result b.code), .sent, none⟩],
      [(0, .opened pa), (0, .called a.code (a.visible ba)),
        (0, .returned ((Conclusion.gaveUp limit).result a.code)),
        (1, .opened pb), (1, .called b.code (b.visible bb)), (1, .answered (b.conclusion bb)),
        (0, .answered (a.conclusion ba)), (1, .closed),
        (1, .returned ((b.conclusion bb).result b.code)), (0, .closed)]⟩ := by
  have habandoned := ((calling limit ha).caller .timeOut).caller .leave
  have hbegun := habandoned.step (.begin b (by simp [Task.isBack]))
  have hopened := hbegun.step (.caller (i := 1) rfl (.grant hb.prepared hb.granted))
  have hstarted := hopened.step (.caller (i := 1) rfl .start)
  have hcalled := hstarted.step (.worker (i := 1) rfl .call)
  have hanswered := hcalled.step (.worker (i := 1) rfl .answer)
  have hlate := hanswered.step (.worker (i := 0) rfl .answer)
  have hclosed := hlate.step (.worker (i := 1) rfl .close)
  have hsent := hclosed.step (.worker (i := 1) rfl (.deliver hm (by simp)))
  have htaken := hsent.step (.caller (i := 1) rfl .take)
  have hback := htaken.step (.caller (i := 1) rfl .leave)
  exact hback.step (.worker (i := 0) rfl .close)

end World.Reachable

/-- The running invocation is one of the runs of its steps: it has the result and the events of a
caller whose worker is prompt, or of one whose time runs out if the driver stays silent. -/
theorem invoke_is_run (cwd : Path) (limit : Duration) (q : Request) :
    let x := Transport.invoke ⟨cwd, some limit⟩ q.driver q.mount q.code q.input
    ∃ t trace, World.Reachable cwd limit ⟨[t], trace⟩ ∧ t.request = q ∧
      t.caller = .back x.result ∧
      (World.history ⟨[t], trace⟩ 0).filterMap Mark.event? = x.events := by
  intro x
  cases hb : transferBuffer q.code q.input with
  | error e =>
    have hx : x = ⟨.error (.failure e), [.returned], []⟩ := Transport.invoke_of_refused_input hb
    have hprep : q.prepare cwd = .error e := by simp only [Request.prepare, hb]
    have hrun := ((World.Reachable.first cwd limit q).caller (.reject hprep)).caller .leave
    exact ⟨_, _, hrun, rfl, by rw [hx], by rw [hx]; rfl⟩
  | ok buffer =>
    cases hp : resolveMount cwd q.mount with
    | error e =>
      have hx : x = ⟨.error (.failure e), [.returned], []⟩ := Transport.invoke_of_unresolved hb hp
      have hprep : q.prepare cwd = .error e := by simp only [Request.prepare, hb, hp]
      have hrun := ((World.Reachable.first cwd limit q).caller (.reject hprep)).caller .leave
      exact ⟨_, _, hrun, rfl, by rw [hx], by rw [hx]; rfl⟩
    | ok path =>
      have hprep : q.prepare cwd = .ok (path, buffer) := by simp only [Request.prepare, hb, hp]
      cases hopen : q.driver.opening path with
      | some cause =>
        have hx : x = ⟨.error (.failure (.mountUnavailable path cause)),
            [.opened path, .returned], []⟩ := Transport.invoke_of_unopened hb hp hopen
        have hrun :=
          ((World.Reachable.first cwd limit q).caller (.refuse hprep hopen)).caller .leave
        exact ⟨_, _, hrun, rfl, by rw [hx], by rw [hx]; rfl⟩
      | none =>
        have hopens : q.Opens cwd path buffer := ⟨hprep, hopen⟩
        have hx := Transport.invoke_of_opened (t := ⟨cwd, some limit⟩) hb hp hopen
        -- unless the call is silent or breaks off, the worker is taken to be prompt
        have hanswered {c : Conclusion} (hc : q.conclusion buffer = c) (hm : ∀ m, c ≠ .brokeOff m)
            (hl : conclude (some limit) q.code buffer
              (q.driver.answer q.code (visibleBuffer q.code buffer)) = c)
            (he : c.ending = [.closed, .returned]) :
            ∃ t trace, World.Reachable cwd limit ⟨[t], trace⟩ ∧ t.request = q ∧
              t.caller = .back x.result ∧
              (World.history ⟨[t], trace⟩ 0).filterMap Mark.event? = x.events := by
          subst hc
          refine ⟨_, _, World.Reachable.answered limit hopens hm, rfl, ?_, ?_⟩
          · simp only [x, hx, hl]
          · simp only [x, hx, hl, he]
            rfl
        cases ha : q.driver.answer q.code (visibleBuffer q.code buffer) with
        | reply status data =>
          refine hanswered ?_ ?_ (by rw [ha]) rfl
          · simp only [Request.conclusion, Request.visible, ha, conclude]
          · simp [conclude]
        | refuse cause =>
          refine hanswered ?_ ?_ (by rw [ha]) rfl
          · simp only [Request.conclusion, Request.visible, ha, conclude]
          · simp [conclude]
        | silence =>
          have hrun := ((((World.Reachable.calling limit hopens).caller
            .timeOut).caller .leave).worker .answer).worker .close
          refine ⟨_, _, hrun, rfl, ?_, ?_⟩
          · simp only [x, hx, ha, conclude]
          · simp only [x, hx, ha, conclude, Conclusion.ending]
            rfl
        | abort message =>
          have hq : q.conclusion buffer = .brokeOff message := by
            simp only [Request.conclusion, Request.visible, ha, conclude]
          have hclosed := World.Reachable.closed limit hopens
          rw [hq] at hclosed
          have hrun := ((hclosed.worker .unwind).caller .disconnect).caller .leave
          refine ⟨_, _, hrun, rfl, ?_, ?_⟩
          · simp only [x, hx, ha, conclude]
          · simp only [x, hx, ha, conclude, Conclusion.ending]
            rfl

/-- Whatever the order of the steps of the callers and of all workers still running, every
invocation has an orderly history; no worker is ever stuck outside its call; and once the caller is
back and the worker done, an opened root has been closed exactly once. -/
theorem reachable_history_orderly {cwd : Path} {limit : Duration} {w : World}
    (hw : World.Reachable cwd limit w) {i : Nat} {t : Task} (hi : w.tasks[i]? = some t) :
    Orderly cwd t.request (w.history i) ∧
      (t.worker ≠ .absent → t.worker ≠ .ended → ∃ mark t', t.WorkerStep mark t') ∧
      ∀ path, .opened path ∈ w.history i → t.isBack → (t.worker = .absent ∨ t.worker.isDone) →
        (w.history i).countP Mark.isClose = 1 := by
  have hc : Course cwd limit t (w.history i) := hw.sound.course i t hi
  refine ⟨hc.orderly, hc.worker_can_step, ?_⟩
  intro path ho hb hd
  exact hc.closed_once ho hb hd

/-- The second of two invocations is back with its reply while the worker of the first, whose time
ran out, has only just closed its root. -/
theorem abandoned_worker_history_orderly :
    ∃ w t u, World.Reachable [Path.slash] ⟨50⟩ w ∧ w.tasks = [t, u] ∧
      t.caller = .back (.error (.failure (.timedOut ⟨0x8004EE01⟩ ⟨50⟩))) ∧
      u.caller = .back (.ok ⟨7, [1, 2, 0, 0]⟩) ∧
      Orderly [Path.slash] t.request (w.history 0) ∧
      Orderly [Path.slash] u.request (w.history 1) := by
  have ha : Request.Opens [Path.slash] ⟨⟨fun _ => none, fun _ _ => .silence⟩, [Path.slash],
      ⟨0x8004EE01⟩, none⟩ [Path.slash] [0, 0, 0, 0] := ⟨rfl, rfl⟩
  have hb : Request.Opens [Path.slash] ⟨⟨fun _ => none, fun _ _ => .reply 7 [1, 2]⟩, [Path.slash],
      ⟨0x8004EE01⟩, none⟩ [Path.slash] [0, 0, 0, 0] := ⟨rfl, rfl⟩
  have hrun := World.Reachable.overtaken ⟨50⟩ ha hb (by simp [Request.conclusion, conclude])
  exact ⟨_, _, _, hrun, rfl, rfl, rfl, (reachable_history_orderly hrun (i := 0) rfl).1,
    (reachable_history_orderly hrun (i := 1) rfl).1⟩

end MountControl.Timed
