import MountControl.Proofs.SessionEvents
import MountControl.Proofs.TimedInvocations

namespace MountControl

def Answer.IsGiven : Answer → Prop
  | reply _ _ => True
  | refuse _ => True
  | silence => False
  | abort _ => False

def Step.IsAnswered (s : Step) : Prop :=
  ∀ code, s.code? = some code → ∀ buffer, (s.driver.answer code buffer).IsGiven

namespace Transport

theorem conclude_of_given (limit : Option Duration) (code : RequestCode) (buffer : Bytes)
    {answer : Answer} (h : answer.IsGiven) :
    conclude limit code buffer answer = conclude none code buffer answer := by
  cases answer with
  | reply status data => rfl
  | refuse cause => rfl
  | silence => exact h.elim
  | abort message => exact h.elim

variable {cwd : Path} {driver : Driver} {mount : Path}

/-- A limit has no part in an invocation that is answered. -/
theorem invoke_of_given {code : RequestCode} (limit : Option Duration) (input : Option Bytes)
    (h : ∀ buffer, (driver.answer code buffer).IsGiven) :
    invoke ⟨cwd, limit⟩ driver mount code input = invoke ⟨cwd, none⟩ driver mount code input := by
  unfold invoke
  cases transferBuffer code input with
  | error e => rfl
  | ok buffer =>
    dsimp only
    cases resolveMount cwd mount with
    | error e => rfl
    | ok path =>
      dsimp only
      cases driver.opening path with
      | some cause => rfl
      | none =>
        dsimp only
        rw [conclude_of_given limit code buffer (h _)]

theorem run_of_given {op : Operation} (limit : Option Duration)
    (h : ∀ buffer, (driver.answer op.code buffer).IsGiven) :
    run ⟨cwd, limit⟩ driver op mount = run ⟨cwd, none⟩ driver op mount := by
  unfold run
  rw [invoke_of_given limit none h]

theorem perform_of_answered {s : Step} (limit : Option Duration) (h : s.IsAnswered) :
    perform ⟨cwd, limit⟩ s = perform ⟨cwd, none⟩ s := by
  obtain ⟨mount, driver, action⟩ := s
  cases action with
  | execute command =>
    cases hop : Operation.ofText command with
    | error fault => simp only [perform, execute_of_unknown hop]
    | ok op =>
      have hcode : Step.code? ⟨mount, driver, .execute command⟩ = some op.code := by
        simp only [Step.code?, hop]
      simp only [perform, execute_of_known hop]
      rw [run_of_given limit (h op.code hcode)]
  | run op =>
    simp only [perform]
    rw [run_of_given limit (h op.code rfl)]
  | invoke code input =>
    simp only [perform]
    rw [invoke_of_given limit input (h code rfl)]

end Transport

namespace Timed

open Transport (Conclusion conclude)

/-- The step by which a caller stops waiting, or finds that no worker can be started. -/
inductive Task.GivesUp (limit : Duration) : Task → Task → Prop
  | timeOut {q worker slot} :
    GivesUp limit ⟨q, .waiting, worker, slot⟩
      ⟨q, .leaving ((Conclusion.gaveUp limit).result q.code), worker, slot⟩
  | startFails {q path buffer worker slot cause} :
    GivesUp limit ⟨q, .holding path buffer, worker, slot⟩
      ⟨q, .leaving (.error (.failure (.workerFailed q.code cause))), worker, slot⟩

/-- The worlds that come about while the caller of one invocation does not give up: once it has
started its worker, it takes the worker's message before its time runs out. -/
inductive World.Patient (cwd : Path) (limit : Duration) (i : Nat) : World → Prop
  | initial : Patient cwd limit i .initial
  | step {w w'} (h : Patient cwd limit i w) (hs : World.Step cwd limit w w')
    (hk : ∀ t t', w.tasks[i]? = some t → w'.tasks[i]? = some t' → ¬ t.GivesUp limit t') :
    Patient cwd limit i w'

def Request.blocking (cwd : Path) (q : Request) : Exchange Reply :=
  Transport.invoke ⟨cwd, none⟩ q.driver q.mount q.code q.input

def Request.IsAnswered (q : Request) : Prop :=
  ∀ buffer, (q.driver.answer q.code buffer).IsGiven

def seen (h : List Mark) : List Event :=
  h.filterMap Mark.event?

theorem seen_append (h h' : List Mark) : seen (h ++ h') = seen h ++ seen h' :=
  List.filterMap_append

def TellsOfGivingUp (r : Except Halt Reply) : Prop :=
  match r with
  | .error (.failure (.timedOut _ _)) => True
  | .error (.failure (.workerFailed _ _)) => True
  | _ => False

def Caller.result? : Caller → Option (Except Halt Reply)
  | leaving r => some r
  | back r => some r
  | _ => none

/-- Who gives up returns a time-out or the failure of a worker. -/
theorem Task.GivesUp.tells {limit : Duration} {t t' : Task} (h : t.GivesUp limit t')
    {r : Except Halt Reply} (hr : t'.caller.result? = some r) : TellsOfGivingUp r := by
  cases h with
  | timeOut =>
    cases hr
    trivial
  | startFails =>
    cases hr
    trivial

namespace Request

variable {cwd : Path} {q : Request}

theorem prepare_ok {path : Path} {buffer : Bytes} (h : q.prepare cwd = .ok (path, buffer)) :
    transferBuffer q.code q.input = .ok buffer ∧ resolveMount cwd q.mount = .ok path := by
  unfold prepare at h
  cases hb : transferBuffer q.code q.input with
  | error e =>
    rw [hb] at h
    cases h
  | ok buffer' =>
    cases hp : resolveMount cwd q.mount with
    | error e =>
      simp only [hb, hp] at h
      cases h
    | ok path' =>
      simp only [hb, hp] at h
      cases h
      exact ⟨rfl, rfl⟩

theorem blocking_of_rejected {e : ControlError} (h : q.prepare cwd = .error e) :
    q.blocking cwd = ⟨.error (.failure e), [.returned], []⟩ := by
  unfold prepare at h
  cases hb : transferBuffer q.code q.input with
  | error e' =>
    rw [hb] at h
    cases h
    exact Transport.invoke_of_refused_input hb
  | ok buffer =>
    cases hp : resolveMount cwd q.mount with
    | error e' =>
      simp only [hb, hp] at h
      cases h
      exact Transport.invoke_of_unresolved hb hp
    | ok path =>
      simp only [hb, hp] at h
      cases h

theorem blocking_of_unopened {path : Path} {buffer : Bytes} {cause : SystemError}
    (h : q.prepare cwd = .ok (path, buffer)) (ho : q.driver.opening path = some cause) :
    q.blocking cwd =
      ⟨.error (.failure (.mountUnavailable path cause)), [.opened path, .returned], []⟩ := by
  obtain ⟨hb, hp⟩ := prepare_ok h
  exact Transport.invoke_of_unopened hb hp ho

/-- A driver that answers replies or refuses. -/
theorem conclusion_of_answered (ha : q.IsAnswered) (buffer : Bytes) :
    (∃ status after, q.conclusion buffer = .answered status after) ∨
      ∃ cause, q.conclusion buffer = .refused cause := by
  have hgiven := ha (q.visible buffer)
  unfold conclusion
  cases h : q.driver.answer q.code (q.visible buffer) with
  | reply status data => exact Or.inl ⟨_, _, rfl⟩
  | refuse cause => exact Or.inr ⟨_, rfl⟩
  | silence =>
    rw [h] at hgiven
    exact hgiven.elim
  | abort message =>
    rw [h] at hgiven
    exact hgiven.elim

theorem conclusion_ne_brokeOff (ha : q.IsAnswered) (buffer : Bytes) (m : String) :
    q.conclusion buffer ≠ .brokeOff m := by
  rcases conclusion_of_answered ha buffer with ⟨status, after, h⟩ | ⟨cause, h⟩
  · simp [h]
  · simp [h]

/-- The message of a worker never tells of giving up. -/
theorem conclusion_not_givingUp (q : Request) (buffer : Bytes) :
    ¬ TellsOfGivingUp ((q.conclusion buffer).result q.code) := by
  rcases q.conclusion_shape buffer with ⟨status, after, h⟩ | ⟨cause, h⟩ | ⟨m, h⟩
  · rw [h]
    exact id
  · rw [h]
    exact id
  · rw [h]
    exact id

/-- Without a limit the call is made, the root closed and the caller back, in this order. -/
theorem Opens.blocking {path : Path} {buffer : Bytes} (ho : q.Opens cwd path buffer)
    (ha : q.IsAnswered) :
    (q.blocking cwd).result = (q.conclusion buffer).result q.code ∧
      (q.blocking cwd).events =
        [.opened path, .called q.code (q.visible buffer), .closed, .returned] := by
  obtain ⟨hb, hp⟩ := prepare_ok ho.prepared
  have hx := Transport.invoke_of_opened (t := ⟨cwd, none⟩) hb hp ho.granted
  have hend : (q.conclusion buffer).ending = [.closed, .returned] := by
    rcases conclusion_of_answered ha buffer with ⟨status, after, h⟩ | ⟨cause, h⟩
    · rw [h]
      rfl
    · rw [h]
      rfl
  constructor
  · rw [Request.blocking, hx]
    rfl
  · rw [Request.blocking, hx]
    change [Event.opened path, .called q.code (q.visible buffer)] ++
      (q.conclusion buffer).ending = _
    rw [hend]
    rfl

end Request

namespace World

variable {cwd : Path} {limit : Duration} {i : Nat} {w w' : World}

/-- A step of a world begins an invocation, leaves it alone, or is a step of its own. -/
theorem Step.task_cases (hs : Step cwd limit w w') {t' : Task} (hi : w'.tasks[i]? = some t') :
    (∃ q, t' = .start q) ∨ w.tasks[i]? = some t' ∨
      ∃ t mark, w.tasks[i]? = some t ∧
        (t.CallerStep cwd limit mark t' ∨ t.WorkerStep mark t') := by
  have hset {j : Nat} {t u : Task} (hj : w.tasks[j]? = some t)
      (hu : (w.tasks.set j u)[i]? = some t') :
      w.tasks[i]? = some t' ∨ w.tasks[i]? = some t ∧ u = t' := by
    have hlt : j < w.tasks.length := (List.getElem?_eq_some_iff.mp hj).1
    by_cases hij : j = i
    · subst hij
      rw [List.getElem?_set_self hlt] at hu
      exact Or.inr ⟨hj, Option.some.inj hu⟩
    · rw [List.getElem?_set_ne hij] at hu
      exact Or.inl hu
  cases hs with
  | begin q _ =>
    rcases Nat.lt_or_ge i w.tasks.length with hlt | hge
    · rw [List.getElem?_append_left hlt] at hi
      exact Or.inr (Or.inl hi)
    · rw [List.getElem?_append_right hge, List.getElem?_singleton] at hi
      split at hi
      · exact Or.inl ⟨q, (Option.some.inj hi).symm⟩
      · cases hi
  | caller hj hc =>
    rcases hset hj hi with hsame | ⟨hown, rfl⟩
    · exact Or.inr (Or.inl hsame)
    · exact Or.inr (Or.inr ⟨_, _, hown, Or.inl hc⟩)
  | worker hj hc =>
    rcases hset hj hi with hsame | ⟨hown, rfl⟩
    · exact Or.inr (Or.inl hsame)
    · exact Or.inr (Or.inr ⟨_, _, hown, Or.inr hc⟩)

theorem Patient.reachable (hw : Patient cwd limit i w) : Reachable cwd limit w := by
  induction hw with
  | initial => exact .initial
  | step _ hs _ ih => exact ih.step hs

/-- An invocation is never taken back, and its caller keeps a result that it has. -/
theorem Step.result_kept (hs : Step cwd limit w w') {t : Task} (hi : w.tasks[i]? = some t) :
    ∃ t', w'.tasks[i]? = some t' ∧
      ∀ r, t.caller.result? = some r → t'.caller.result? = some r := by
  have hset {j : Nat} {u v : Task} (hj : w.tasks[j]? = some u)
      (hr : ∀ r, u.caller.result? = some r → v.caller.result? = some r) :
      ∃ t', (w.tasks.set j v)[i]? = some t' ∧
        ∀ r, t.caller.result? = some r → t'.caller.result? = some r := by
    have hlt : j < w.tasks.length := (List.getElem?_eq_some_iff.mp hj).1
    by_cases hij : j = i
    · subst hij
      cases hi.symm.trans hj
      exact ⟨v, List.getElem?_set_self hlt, hr⟩
    · exact ⟨t, (List.getElem?_set_ne hij).trans hi, fun _ => id⟩
  cases hs with
  | begin q _ =>
    have hlt : i < w.tasks.length := (List.getElem?_eq_some_iff.mp hi).1
    exact ⟨t, (List.getElem?_append_left hlt).trans hi, fun _ => id⟩
  | caller hj hc =>
    apply hset hj
    intro r hr
    cases hc with
    | leave => exact hr
    | reject | refuse | grant | start | startFails | take | timeOut | disconnect => cases hr
  | worker hj hc =>
    apply hset hj
    intro r hr
    rwa [hc.caller_eq]

/-- As long as a caller has no result, it has not given up, whatever the order of the steps. -/
theorem Reachable.patient (hw : Reachable cwd limit w)
    (hn : ∀ t, w.tasks[i]? = some t → t.caller.result? = none) : Patient cwd limit i w := by
  induction hw with
  | initial => exact .initial
  | step h hs ih =>
    refine .step (ih ?_) hs ?_
    · intro t ht
      obtain ⟨t', ht', hr⟩ := hs.result_kept ht
      apply Option.eq_none_iff_forall_ne_some.mpr
      intro r hresult
      cases (hr r hresult).symm.trans (hn t' ht')
    · intro t t' _ ht' hg
      have hnone := hn t' ht'
      cases hg with
      | timeOut => cases hnone
      | startFails => cases hnone

/-- A patient caller whose driver answers never has a result that tells of giving up. -/
theorem Patient.not_givingUp (hw : Patient cwd limit i w) {t : Task} (hi : w.tasks[i]? = some t)
    (ha : t.request.IsAnswered) {r : Except Halt Reply} (hr : t.caller.result? = some r) :
    ¬ TellsOfGivingUp r := by
  induction hw generalizing t with
  | initial => cases hi
  | step h hs hk ih =>
    rcases hs.task_cases hi with ⟨q, rfl⟩ | hsame | ⟨t₀, mark, ht₀, hc | hc⟩
    · cases hr
    · exact ih hsame ha hr
    · have hcourse := h.reachable.sound.course i t₀ ht₀
      generalize World.history _ i = history at hcourse
      have hkeeps := hk t₀ t ht₀ hi
      cases hc with
      | reject hp =>
        cases hr
        rcases Request.prepare_error_shape hp with ⟨_, _, rfl⟩ | ⟨_, _, rfl⟩
        · exact id
        · exact id
      | refuse hp ho =>
        cases hr
        exact id
      | grant => cases hr
      | start => cases hr
      | startFails cause => exact absurd .startFails hkeeps
      | take =>
        cases hr
        cases hcourse with
        | waiting ho hw hp =>
          obtain ⟨_, rfl, _⟩ := hw.message
          exact Request.conclusion_not_givingUp _ _
      | timeOut => exact absurd .timeOut hkeeps
      | disconnect =>
        -- the channel is closed without a message only if the call broke off
        cases hcourse with
        | waiting ho hw hp =>
          obtain ⟨m, hm⟩ := hp rfl rfl
          exact absurd hm (Request.conclusion_ne_brokeOff ha _ m)
      | leave => exact ih ht₀ ha hr
    · rw [hc.request_eq] at ha
      rw [hc.caller_eq] at hr
      exact ih ht₀ ha hr

end World

section Refinement

variable {cwd : Path} {limit : Duration} {q : Request} {path : Path} {buffer : Bytes}

/-- A return before the call, other than by giving up, is the blocking one too. -/
theorem Early.blocking {r : Except Halt Reply} {h : List Mark} (he : Early cwd q r h)
    (hr : ¬ TellsOfGivingUp r) :
    (q.blocking cwd).result = r ∧ (q.blocking cwd).events = seen h ++ [.returned] := by
  cases he with
  | rejected hp =>
    rw [Request.blocking_of_rejected hp]
    exact ⟨rfl, rfl⟩
  | unopened hp ho =>
    rw [Request.blocking_of_unopened hp ho]
    exact ⟨rfl, rfl⟩
  | unstarted ho cause => exact absurd trivial hr

/-- What a worker shows comes in the order of the blocking call. -/
theorem seen_marks_initial (q : Request) (path : Path) (buffer : Bytes) (worker : Worker) :
    seen (.opened path :: worker.marks q buffer) <+:
      [.opened path, .called q.code (q.visible buffer), .closed, .returned] := by
  cases worker with
  | absent | ready => exact ⟨[.called q.code (q.visible buffer), .closed, .returned], rfl⟩
  | calling | called => exact ⟨[.closed, .returned], rfl⟩
  | closed | sent | ended => exact ⟨[.returned], rfl⟩

/-- Once the worker is done, what was seen of it is an opening, a call and a closing. -/
theorem seen_marks_done {worker : Worker} (hd : worker.isDone) :
    seen (.opened path :: worker.marks q buffer) =
      [.opened path, .called q.code (q.visible buffer), .closed] := by
  cases worker with
  | sent | ended => rfl
  | absent | ready | calling | called | closed => cases hd

theorem Request.settlement_of_answered (ha : q.IsAnswered) (buffer : Bytes) :
    q.settlement buffer = (q.conclusion buffer).result q.code :=
  Request.settlement_of_message (Request.conclusion_ne_brokeOff ha buffer)

/-- A history shows the beginning of what the blocking call shows, and all of it once the caller is
back, with the same result. -/
theorem Course.blocking {t : Task} {h : List Mark} (hc : Course cwd limit t h)
    (ha : t.request.IsAnswered)
    (hr : ∀ r, t.caller.result? = some r → ¬ TellsOfGivingUp r) :
    seen h <+: (t.request.blocking cwd).events ∧
      ∀ r, t.caller = .back r →
        (t.request.blocking cwd).result = r ∧ (t.request.blocking cwd).events = seen h := by
  have hreturned (h : List Mark) (r : Except Halt Reply) :
      seen (h ++ [.returned r]) = seen h ++ [.returned] := seen_append h [.returned r]
  cases hc with
  | begun => exact ⟨List.nil_prefix, fun r hb => (by cases hb)⟩
  | early he =>
    obtain ⟨_, hevents⟩ := he.blocking (hr _ rfl)
    exact ⟨⟨[.returned], hevents.symm⟩, fun r hb => (by cases hb)⟩
  | earlyBack he =>
    obtain ⟨hresult, hevents⟩ := he.blocking (hr _ rfl)
    rw [hreturned, ← hevents]
    refine ⟨List.prefix_refl _, ?_⟩
    intro r hb
    cases hb
    exact ⟨hresult, rfl⟩
  | holding ho =>
    rw [(ho.blocking ha).2]
    exact ⟨seen_marks_initial _ _ _ .absent, fun r hb => (by cases hb)⟩
  | waiting ho hw hp =>
    rw [(ho.blocking ha).2]
    exact ⟨seen_marks_initial _ _ _ _, fun r hb => (by cases hb)⟩
  | settled ho hw hd =>
    rw [(ho.blocking ha).2]
    exact ⟨seen_marks_initial _ _ _ _, fun r hb => (by cases hb)⟩
  | settledBack ho hw hd =>
    obtain ⟨hresult, hevents⟩ := ho.blocking ha
    rw [hreturned, seen_marks_done hd, hevents]
    refine ⟨List.prefix_refl _, ?_⟩
    intro r hb
    cases hb
    rw [hresult, Request.settlement_of_answered ha]
    exact ⟨rfl, rfl⟩
  | late => exact absurd trivial (hr _ rfl)
  | lateBack => exact absurd trivial (hr _ rfl)

end Refinement

section Progress

variable {cwd : Path} {limit : Duration} {t t' : Task} {mark : Option Mark}

def Task.remaining (t : Task) : Nat :=
  let ofCaller := match t.caller with
    | .begun => 10
    | .holding _ _ => 9
    | .waiting => 2
    | .leaving _ => 1
    | .back _ => 0
  let ofWorker := match t.worker with
    | .absent => 0
    | .ready _ => 6
    | .calling _ => 5
    | .called _ => 4
    | .closed _ => 3
    | .sent => 2
    | .ended => 1
  ofCaller + ofWorker

/-- Every step brings a task nearer to its end. -/
theorem Task.remaining_lt (h : t.CallerStep cwd limit mark t' ∨ t.WorkerStep mark t') :
    t'.remaining < t.remaining := by
  rcases h with hc | hc
  · cases hc <;> simp [Task.remaining]
  · cases hc <;> simp [Task.remaining]

theorem Task.WorkerStep.not_givesUp (h : t.WorkerStep mark t') : ¬ t.GivesUp limit t' := by
  intro hg
  have hcaller := h.caller_eq
  cases hg with
  | timeOut => cases hcaller
  | startFails => cases hcaller

/-- A caller that is not back yet can go on, or its worker can, without giving up. -/
theorem Course.can_go_on {h : List Mark} (hc : Course cwd limit t h) (hb : ¬ t.isBack) :
    ∃ mark t', (t.CallerStep cwd limit mark t' ∨ t.WorkerStep mark t') ∧
      ¬ t.GivesUp limit t' := by
  cases hc with
  | begun q =>
    cases hp : q.prepare cwd with
    | error e => exact ⟨_, _, Or.inl (.reject hp), fun hg => by cases hg⟩
    | ok prepared =>
      obtain ⟨path, buffer⟩ := prepared
      cases ho : q.driver.opening path with
      | some cause => exact ⟨_, _, Or.inl (.refuse hp ho), fun hg => by cases hg⟩
      | none => exact ⟨_, _, Or.inl (.grant hp ho), fun hg => by cases hg⟩
  | early | settled | late => exact ⟨_, _, Or.inl .leave, fun hg => by cases hg⟩
  | holding => exact ⟨_, _, Or.inl .start, fun hg => by cases hg⟩
  | @waiting q path buffer worker slot ho hw hp =>
    by_cases he : worker = .ended
    · subst he
      cases slot with
      | none => exact ⟨_, _, Or.inl .disconnect, fun hg => by cases hg⟩
      | some c =>
        refine ⟨_, _, Or.inl .take, fun hg => ?_⟩
        obtain ⟨_, rfl, _⟩ := hw.message
        exact q.conclusion_not_givingUp buffer (hg.tells rfl)
    · have habsent : worker ≠ .absent := by
        rintro rfl
        exact hw
      have hc : Course cwd limit ⟨q, .waiting, worker, slot⟩ _ := .waiting ho hw hp
      obtain ⟨mark, t', hs⟩ := hc.worker_can_step habsent he
      exact ⟨mark, t', Or.inr hs, hs.not_givesUp⟩
  | earlyBack | settledBack | lateBack => exact absurd rfl hb

end Progress

theorem Request.blocking_events {cwd : Path} {q : Request} (ha : q.IsAnswered) :
    ∃ before, (q.blocking cwd).events = before ++ [.returned] ∧ .returned ∉ before := by
  cases hp : q.prepare cwd with
  | error e =>
    rw [Request.blocking_of_rejected hp]
    exact ⟨[], rfl, by simp⟩
  | ok prepared =>
    obtain ⟨path, buffer⟩ := prepared
    cases ho : q.driver.opening path with
    | some cause =>
      rw [Request.blocking_of_unopened hp ho]
      exact ⟨[.opened path], rfl, by simp⟩
    | none =>
      have hopens : q.Opens cwd path buffer := ⟨hp, ho⟩
      rw [(hopens.blocking ha).2]
      exact ⟨[.opened path, .called q.code (q.visible buffer), .closed], rfl, by simp⟩

structure KeepsToBlocking (cwd : Path) (limit : Duration) (t : Task) (h : List Mark) : Prop where
  /-- What has been seen of it is the beginning of what the call without a limit shows. -/
  seen_prefix : seen h <+: (t.request.blocking cwd).events
  /-- That call shows nothing after its return. -/
  return_last : ∃ before, (t.request.blocking cwd).events = before ++ [.returned] ∧
    .returned ∉ before
  /-- A caller that is back has the result of that call, and all of it has been seen. -/
  back : ∀ r, t.caller = .back r →
    (t.request.blocking cwd).result = r ∧ (t.request.blocking cwd).events = seen h
  /-- One that is not back yet need not give up to get on. -/
  can_go_on : ¬ t.isBack → ∃ mark t',
    (t.CallerStep cwd limit mark t' ∨ t.WorkerStep mark t') ∧ ¬ t.GivesUp limit t'
  /-- It cannot go on for ever. -/
  remaining_lt : ∀ mark t', t.CallerStep cwd limit mark t' ∨ t.WorkerStep mark t' →
    t'.remaining < t.remaining

/-- Whatever the order of the steps, an invocation whose caller takes the message in time comes to
the same as without a limit; and so does every session whose drivers answer. -/
theorem patient_invocation_eq_blocking (cwd : Path) (limit : Duration) :
    (∀ i w t, World.Patient cwd limit i w → w.tasks[i]? = some t → t.request.IsAnswered →
      KeepsToBlocking cwd limit t (w.history i)) ∧
    ∀ steps : List Step, (∀ s ∈ steps, s.IsAnswered) →
      (⟨cwd, some limit⟩ : Transport).session steps =
        (⟨cwd, none⟩ : Transport).session steps := by
  constructor
  · intro i w t hw hi ha
    have hc : Course cwd limit t (w.history i) := hw.reachable.sound.course i t hi
    obtain ⟨hseen, hback⟩ := hc.blocking ha fun r hr => hw.not_givingUp hi ha hr
    exact {
      seen_prefix := hseen
      return_last := Request.blocking_events ha
      back := hback
      can_go_on := hc.can_go_on
      remaining_lt := fun mark t' hs => Task.remaining_lt hs }
  · intro steps h
    apply List.map_congr_left
    intro s hs
    exact Transport.perform_of_answered (some limit) (h s hs)

/-- A patient invocation may be carried out from beginning to end while the worker of one before it,
whose time ran out, is in its call. -/
theorem World.Patient.overtaking {cwd : Path} (limit : Duration) {a b : Request} {pa pb : Path}
    {ba bb : Bytes} (ha : a.Opens cwd pa ba) (hb : b.Opens cwd pb bb) (hg : b.IsAnswered) :
    World.Patient cwd limit 1
      ⟨[⟨a, .back ((Conclusion.gaveUp limit).result a.code), .calling ba, none⟩,
        ⟨b, .back ((b.conclusion bb).result b.code), .sent, none⟩],
      [(0, .opened pa), (0, .called a.code (a.visible ba)),
        (0, .returned ((Conclusion.gaveUp limit).result a.code)),
        (1, .opened pb), (1, .called b.code (b.visible bb)), (1, .answered (b.conclusion bb)),
        (1, .closed), (1, .returned ((b.conclusion bb).result b.code))]⟩ := by
  have habandoned := ((World.Reachable.calling limit ha).caller .timeOut).caller .leave
  have hbegun := habandoned.step (.begin b (by simp [Task.isBack]))
  have hopened := hbegun.step (.caller (i := 1) rfl (.grant hb.prepared hb.granted))
  have hstarted := hopened.step (.caller (i := 1) rfl .start)
  have hcalled := hstarted.step (.worker (i := 1) rfl .call)
  have hanswered := hcalled.step (.worker (i := 1) rfl .answer)
  have hclosed := hanswered.step (.worker (i := 1) rfl .close)
  have hsent := hclosed.step
    (.worker (i := 1) rfl (.deliver (Request.conclusion_ne_brokeOff hg bb) (by simp)))
  have hwaiting := hsent.patient (i := 1) fun t ht => by
    cases ht
    rfl
  have htaken := hwaiting.step (.caller (i := 1) rfl .take) fun t t' _ ht' hgives => by
    cases ht'
    exact b.conclusion_not_givingUp bb (hgives.tells rfl)
  exact htaken.step (.caller (i := 1) rfl .leave) fun t t' _ ht' hgives => by
    cases ht'
    exact b.conclusion_not_givingUp bb (hgives.tells rfl)

/-- The second of two invocations takes its message in time, while the worker of the first, whose
time ran out, is still in its call. -/
theorem overtaking_invocation_eq_blocking :
    ∃ w t, World.Patient [Path.slash] ⟨50⟩ 1 w ∧ w.tasks[1]? = some t ∧ t.request.IsAnswered ∧
      t.caller = .back (.ok ⟨7, [1, 2, 0, 0]⟩) ∧
      KeepsToBlocking [Path.slash] ⟨50⟩ t (w.history 1) := by
  have ha : Request.Opens [Path.slash] ⟨⟨fun _ => none, fun _ _ => .silence⟩, [Path.slash],
      ⟨0x8004EE01⟩, none⟩ [Path.slash] [0, 0, 0, 0] := ⟨rfl, rfl⟩
  have hb : Request.Opens [Path.slash] ⟨⟨fun _ => none, fun _ _ => .reply 7 [1, 2]⟩, [Path.slash],
      ⟨0x8004EE01⟩, none⟩ [Path.slash] [0, 0, 0, 0] := ⟨rfl, rfl⟩
  have hrun := World.Patient.overtaking ⟨50⟩ ha hb fun _ => trivial
  exact ⟨_, _, hrun, rfl, fun _ => trivial, rfl,
    (patient_invocation_eq_blocking _ _).1 1 _ _ hrun rfl fun _ => trivial⟩

end Timed

end MountControl
