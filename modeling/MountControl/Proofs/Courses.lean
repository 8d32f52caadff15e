import MountControl.Control.Timed
import MountControl.Proofs.Exchange

/-!
The histories that an invocation can have at each stage of its caller and of its worker. A step of
either leads from one of them to another, so every world that is reached has only such histories.
-/

namespace MountControl.Timed

open Transport (Conclusion conclude)

namespace Request

structure Opens (cwd : Path) (q : Request) (path : Path) (buffer : Bytes) : Prop where
  prepared : q.prepare cwd = .ok (path, buffer)
  granted : q.driver.opening path = none

def settlement (q : Request) (buffer : Bytes) : Except Halt Reply :=
  match q.conclusion buffer with
  | .brokeOff _ => Conclusion.workerDied.result q.code
  | c => c.result q.code

/-- Before a worker is started a request can fail in two ways only: by its input or by its path. -/
theorem prepare_error_shape {cwd : Path} {q : Request} {e : ControlError}
    (h : q.prepare cwd = .error e) :
    (∃ size actual, e = .payloadTooLarge q.code size actual) ∨
      ∃ path cause, e = .mountUnavailable path cause := by
  unfold prepare at h
  cases hb : transferBuffer q.code q.input with
  | error e' =>
    rw [hb] at h
    cases h
    obtain ⟨_, _, _, _, he⟩ := transferBuffer_error hb
    exact Or.inl ⟨_, _, he⟩
  | ok buffer =>
    cases hp : resolveMount cwd q.mount with
    | error e' =>
      simp only [hb, hp] at h
      cases h
      exact Or.inr ⟨_, _, (resolveMount_error hp).2⟩
    | ok path =>
      simp only [hb, hp] at h
      cases h

/-- A call that nobody stops waiting for answers, is refused, or breaks off. -/
theorem conclusion_shape (q : Request) (buffer : Bytes) :
    (∃ status after, q.conclusion buffer = .answered status after) ∨
      (∃ cause, q.conclusion buffer = .refused cause) ∨
      ∃ message, q.conclusion buffer = .brokeOff message := by
  unfold conclusion conclude
  cases q.driver.answer q.code (q.visible buffer) with
  | reply status data => exact Or.inl ⟨_, _, rfl⟩
  | refuse cause => exact Or.inr (Or.inl ⟨_, rfl⟩)
  | silence => exact Or.inl ⟨_, _, rfl⟩
  | abort message => exact Or.inr (Or.inr ⟨_, rfl⟩)

end Request

namespace Worker

def marks (q : Request) (buffer : Bytes) : Worker → List Mark
  | absent | ready _ => []
  | calling _ => [.called q.code (q.visible buffer)]
  | called _ => [.called q.code (q.visible buffer), .answered (q.conclusion buffer)]
  | closed _ | sent | ended =>
    [.called q.code (q.visible buffer), .answered (q.conclusion buffer), .closed]

def isDone : Worker → Bool
  | sent | ended => true
  | _ => false

/-- A worker that has been started carries what belongs to its own request, and its channel holds
nothing but the outcome of its own call. -/
def Sound (q : Request) (buffer : Bytes) (slot : Option Conclusion) : Worker → Prop
  | absent => False
  | ready b | calling b => b = buffer ∧ slot = none
  | called c | closed c => c = q.conclusion buffer ∧ slot = none
  | sent => (∀ m, q.conclusion buffer ≠ .brokeOff m) ∧
      (slot = none ∨ slot = some (q.conclusion buffer))
  | ended => slot = none ∨
      (∀ m, q.conclusion buffer ≠ .brokeOff m) ∧ slot = some (q.conclusion buffer)

end Worker

inductive Early (cwd : Path) (q : Request) : Except Halt Reply → List Mark → Prop
  | rejected {e} (h : q.prepare cwd = .error e) : Early cwd q (.error (.failure e)) []
  | unopened {path buffer cause} (h : q.prepare cwd = .ok (path, buffer))
    (ho : q.driver.opening path = some cause) :
    Early cwd q (.error (.failure (.mountUnavailable path cause))) [.unopened path cause]
  | unstarted {path buffer} (h : q.Opens cwd path buffer) (cause : SystemError) :
    Early cwd q (.error (.failure (.workerFailed q.code cause))) [.opened path, .closed]

/-- The histories that an invocation can have at each stage. A caller that waits for the worker
returns after everything else; one whose time runs out may return between any two marks. -/
inductive Course (cwd : Path) (limit : Duration) : Task → List Mark → Prop
  | begun (q : Request) : Course cwd limit (.start q) []
  | early {q r h} (he : Early cwd q r h) : Course cwd limit ⟨q, .leaving r, .absent, none⟩ h
  | earlyBack {q r h} (he : Early cwd q r h) :
    Course cwd limit ⟨q, .back r, .absent, none⟩ (h ++ [.returned r])
  | holding {q path buffer} (ho : q.Opens cwd path buffer) :
    Course cwd limit ⟨q, .holding path buffer, .absent, none⟩ [.opened path]
  | waiting {q path buffer worker slot} (ho : q.Opens cwd path buffer)
    (hw : worker.Sound q buffer slot)
    (hp : worker.isDone → slot = none → ∃ m, q.conclusion buffer = .brokeOff m) :
    Course cwd limit ⟨q, .waiting, worker, slot⟩ (.opened path :: worker.marks q buffer)
  | settled {q path buffer worker slot} (ho : q.Opens cwd path buffer)
    (hw : worker.Sound q buffer slot) (hd : worker.isDone) :
    Course cwd limit ⟨q, .leaving (q.settlement buffer), worker, slot⟩
      (.opened path :: worker.marks q buffer)
  | settledBack {q path buffer worker slot} (ho : q.Opens cwd path buffer)
    (hw : worker.Sound q buffer slot) (hd : worker.isDone) :
    Course cwd limit ⟨q, .back (q.settlement buffer), worker, slot⟩
      (.opened path :: worker.marks q buffer ++ [.returned (q.settlement buffer)])
  | late {q path buffer worker slot} (ho : q.Opens cwd path buffer)
    (hw : worker.Sound q buffer slot) :
    Course cwd limit ⟨q, .leaving ((Conclusion.gaveUp limit).result q.code), worker, slot⟩
      (.opened path :: worker.marks q buffer)
  | lateBack {q path buffer worker slot before after} (ho : q.Opens cwd path buffer)
    (hw : worker.Sound q buffer slot) (hm : worker.marks q buffer = before ++ after) :
    Course cwd limit ⟨q, .back ((Conclusion.gaveUp limit).result q.code), worker, slot⟩
      (.opened path :: before ++
        .returned ((Conclusion.gaveUp limit).result q.code) :: after)

namespace Task.WorkerStep

variable {t t' : Task} {mark : Option Mark}

theorem request_eq (h : t.WorkerStep mark t') : t'.request = t.request := by
  cases h <;> rfl

theorem caller_eq (h : t.WorkerStep mark t') : t'.caller = t.caller := by
  cases h <;> rfl

/-- A step of the worker adds its mark to those on the root, and the worker still carries only what
belongs to its own request. -/
theorem sound (h : t.WorkerStep mark t') {buffer : Bytes}
    (hs : t.worker.Sound t.request buffer t.slot) :
    t'.worker.Sound t.request buffer t'.slot ∧
      t'.worker.marks t.request buffer = t.worker.marks t.request buffer ++ mark.toList := by
  cases h with
  | call =>
    obtain ⟨rfl, hn⟩ := hs
    exact ⟨⟨rfl, hn⟩, rfl⟩
  | answer =>
    obtain ⟨rfl, hn⟩ := hs
    exact ⟨⟨rfl, hn⟩, rfl⟩
  | close => exact ⟨hs, rfl⟩
  | deliver hc _ =>
    exact ⟨⟨fun m hm => hc m (hs.1.trans hm), Or.inr (congrArg some hs.1)⟩, rfl⟩
  | discard hc _ =>
    exact ⟨⟨fun m hm => hc m (hs.1.trans hm), Or.inl hs.2⟩, rfl⟩
  | unwind =>
    obtain ⟨_, hn⟩ := hs
    exact ⟨Or.inl hn, rfl⟩
  | exit =>
    obtain ⟨hc, hn | hn⟩ := hs
    · exact ⟨Or.inl hn, rfl⟩
    · exact ⟨Or.inr ⟨hc, hn⟩, rfl⟩

/-- A worker that is done leaves no more marks and stays done. -/
theorem done (h : t.WorkerStep mark t') (hd : t.worker.isDone) :
    mark = none ∧ t'.worker.isDone := by
  cases h with
  | exit => exact ⟨rfl, rfl⟩
  | call | answer | close | deliver | discard | unwind => cases hd

/-- While the caller waits, a worker is done with an empty channel only after its call broke off. -/
theorem pending (h : t.WorkerStep mark t') (hw : t.caller = .waiting) {buffer : Bytes}
    (hs : t.worker.Sound t.request buffer t.slot)
    (hp : t.worker.isDone → t.slot = none → ∃ m, t.request.conclusion buffer = .brokeOff m) :
    t'.worker.isDone → t'.slot = none → ∃ m, t.request.conclusion buffer = .brokeOff m := by
  intro hd hn
  cases h with
  | call | answer | close => cases hd
  | deliver => cases hn
  | discard _ hcaller => exact absurd hw hcaller
  | unwind => exact ⟨_, hs.1.symm⟩
  | exit => exact hp rfl hn

end Task.WorkerStep

section Steps

variable {cwd : Path} {limit : Duration}

/-- A step of the worker leads from one possible history to another. -/
theorem Course.worker_step {t t' : Task} {mark : Option Mark} {h : List Mark}
    (hc : Course cwd limit t h) (hs : t.WorkerStep mark t') :
    Course cwd limit t' (h ++ mark.toList) := by
  obtain ⟨q', caller', worker', slot'⟩ := t'
  have hq := hs.request_eq
  have hcaller := hs.caller_eq
  cases hc with
  -- as long as no worker was started there is none that could make a step
  | begun q => cases hs
  | early he => cases hs
  | earlyBack he => cases hs
  | holding ho => cases hs
  | waiting ho hw hp =>
    cases hq
    cases hcaller
    obtain ⟨hsound, hmarks⟩ := hs.sound hw
    simp only [List.cons_append, ← hmarks]
    exact .waiting ho hsound (hs.pending rfl hw hp)
  | settled ho hw hd =>
    cases hq
    cases hcaller
    obtain ⟨hsound, hmarks⟩ := hs.sound hw
    simp only [List.cons_append, ← hmarks]
    exact .settled ho hsound (hs.done hd).2
  | settledBack ho hw hd =>
    cases hq
    cases hcaller
    obtain ⟨hsound, hmarks⟩ := hs.sound hw
    obtain ⟨rfl, hdone⟩ := hs.done hd
    simp only [Option.toList_none, List.append_nil] at hmarks ⊢
    rw [← hmarks]
    exact .settledBack ho hsound hdone
  | late ho hw =>
    cases hq
    cases hcaller
    obtain ⟨hsound, hmarks⟩ := hs.sound hw
    simp only [List.cons_append, ← hmarks]
    exact .late ho hsound
  | lateBack ho hw hm =>
    cases hq
    cases hcaller
    obtain ⟨hsound, hmarks⟩ := hs.sound hw
    -- the return stays where it is: the new mark goes to the end of what comes after it
    rw [hm, List.append_assoc] at hmarks
    simp only [List.cons_append, List.append_assoc]
    exact .lateBack ho hsound hmarks

/-- A message that is taken is the outcome of the worker's own call, which did not break off. -/
theorem Worker.Sound.message {q : Request} {buffer : Bytes} {c : Conclusion} {worker : Worker}
    (h : worker.Sound q buffer (some c)) :
    worker.isDone ∧ c = q.conclusion buffer ∧ ∀ m, q.conclusion buffer ≠ .brokeOff m := by
  cases worker with
  | absent => exact h.elim
  | ready b => cases h.2
  | calling b => cases h.2
  | called c => cases h.2
  | closed c => cases h.2
  | sent =>
    obtain ⟨hb, hn | hn⟩ := h
    · cases hn
    · exact ⟨rfl, Option.some.inj hn, hb⟩
  | ended =>
    obtain hn | ⟨hb, hn⟩ := h
    · cases hn
    · exact ⟨rfl, Option.some.inj hn, hb⟩

/-- Taking the message leaves the worker with an empty channel. -/
theorem Worker.Sound.emptied {q : Request} {buffer : Bytes} {c : Conclusion} {worker : Worker}
    (h : worker.Sound q buffer (some c)) : worker.Sound q buffer none := by
  cases worker with
  | absent => exact h.elim
  | ready b => cases h.2
  | calling b => cases h.2
  | called c => cases h.2
  | closed c => cases h.2
  | sent => exact ⟨h.1, Or.inl rfl⟩
  | ended => exact Or.inl rfl

/-- Unless the driver breaks off, a request comes to what the conclusion of its call says. -/
theorem Request.settlement_of_message {q : Request} {buffer : Bytes}
    (hb : ∀ m, q.conclusion buffer ≠ .brokeOff m) :
    q.settlement buffer = (q.conclusion buffer).result q.code := by
  unfold settlement
  split
  · rename_i m hm
    exact absurd hm (hb m)
  · rfl

/-- A driver that breaks off in its worker is a worker that died. -/
theorem Request.settlement_of_brokeOff {q : Request} {buffer : Bytes} {m : String}
    (hb : q.conclusion buffer = .brokeOff m) :
    q.settlement buffer = Conclusion.workerDied.result q.code := by
  simp only [settlement, hb]

/-- A step of the caller leads from one possible history to another. -/
theorem Course.caller_step {t t' : Task} {mark : Option Mark} {h : List Mark}
    (hc : Course cwd limit t h) (hs : t.CallerStep cwd limit mark t') :
    Course cwd limit t' (h ++ mark.toList) := by
  cases hs with
  | reject hp =>
    cases hc with
    | begun => exact .early (.rejected hp)
  | refuse hp ho =>
    cases hc with
    | begun => exact .early (.unopened hp ho)
  | grant hp ho =>
    cases hc with
    | begun => exact .holding ⟨hp, ho⟩
  | start =>
    cases hc with
    | holding ho => exact .waiting ho ⟨rfl, rfl⟩ (by simp [Worker.isDone])
  | startFails cause =>
    cases hc with
    | holding ho => exact .early (.unstarted ho cause)
  | take =>
    cases hc with
    | waiting ho hw hp =>
      obtain ⟨hd, rfl, hb⟩ := hw.message
      rw [← Request.settlement_of_message hb, Option.toList_none, List.append_nil]
      exact .settled ho hw.emptied hd
  | timeOut =>
    cases hc with
    | waiting ho hw hp =>
      rw [Option.toList_none, List.append_nil]
      exact .late ho hw
  | disconnect =>
    cases hc with
    | waiting ho hw hp =>
      obtain ⟨m, hm⟩ := hp rfl rfl
      rw [← Request.settlement_of_brokeOff hm, Option.toList_none, List.append_nil]
      exact .settled ho hw rfl
  | leave =>
    cases hc with
    | early he => exact .earlyBack he
    | settled ho hw hd => exact .settledBack ho hw hd
    | late ho hw => exact .lateBack ho hw (List.append_nil _).symm

end Steps

namespace World

/-- The marks of a step go to the history of its own invocation and to no other. -/
theorem history_append (tasks tasks' : List Task) (trace : List (Nat × Mark)) (i j : Nat)
    (mark : Option Mark) :
    history ⟨tasks', trace ++ mark.toList.map (j, ·)⟩ i =
      history ⟨tasks, trace⟩ i ++ if j = i then mark.toList else [] := by
  unfold history
  cases mark with
  | none => simp
  | some m =>
    by_cases hij : j = i
    · simp [hij, List.filter_append]
    · simp [hij, List.filter_append]

/-- Every invocation has a history that is possible at its stage, and only invocations leave
marks. -/
structure Sound (cwd : Path) (limit : Duration) (w : World) : Prop where
  course : ∀ i t, w.tasks[i]? = some t → Course cwd limit t (w.history i)
  marked : ∀ p ∈ w.trace, p.1 < w.tasks.length

variable {cwd : Path} {limit : Duration}

theorem history_eq_nil_of_length_le {w : World} (h : w.Sound cwd limit) {i : Nat}
    (hi : w.tasks.length ≤ i) : w.history i = [] := by
  have hf : w.trace.filter (·.1 = i) = [] := by
    apply List.filter_eq_nil_iff.mpr
    intro p hp
    have hlt := h.marked p hp
    simp only [decide_eq_true_eq]
    omega
  rw [history, hf, List.map_nil]

/-- A step of one invocation leaves the others as they are. -/
theorem Sound.set {w : World} (h : w.Sound cwd limit) {i : Nat} {t t' : Task} {mark : Option Mark}
    (hi : w.tasks[i]? = some t)
    (hc : Course cwd limit t (w.history i) → Course cwd limit t' (w.history i ++ mark.toList)) :
    Sound cwd limit ⟨w.tasks.set i t', w.trace ++ mark.toList.map (i, ·)⟩ := by
  have hlt : i < w.tasks.length := (List.getElem?_eq_some_iff.mp hi).1
  constructor
  · intro j u hj
    rw [history_append w.tasks]
    by_cases hij : i = j
    · subst hij
      rw [List.getElem?_set_self hlt] at hj
      cases hj
      simpa only [if_true] using hc (h.course i t hi)
    · rw [List.getElem?_set_ne hij] at hj
      simpa only [if_neg hij, List.append_nil] using h.course j u hj
  · intro p hp
    rw [List.length_set]
    rcases List.mem_append.mp hp with hp | hp
    · exact h.marked p hp
    · obtain ⟨m, _, rfl⟩ := List.mem_map.mp hp
      exact hlt

/-- Every step of a world keeps it sound: the task that moves stays on its course, and the others
have their histories as before. -/
theorem Sound.step {w w' : World} (h : w.Sound cwd limit) (hs : Step cwd limit w w') :
    w'.Sound cwd limit := by
  cases hs with
  | begin q _ =>
    constructor
    · intro i t hi
      change Course cwd limit t (w.history i)
      rcases Nat.lt_trichotomy i w.tasks.length with hlt | heq | hgt
      · rw [List.getElem?_append_left hlt] at hi
        exact h.course i t hi
      -- the new invocation has no history yet, because only invocations leave marks
      · subst heq
        rw [history_eq_nil_of_length_le h (Nat.le_refl _)]
        simp only [List.getElem?_concat_length, Option.some.injEq] at hi
        subst hi
        exact .begun q
      · have hnone : (w.tasks ++ [Task.start q])[i]? = none := by
          apply List.getElem?_eq_none
          simp only [List.length_append, List.length_singleton]
          omega
        rw [hnone] at hi
        cases hi
    · intro p hp
      have hlt := h.marked p hp
      simp only [List.length_append, List.length_singleton]
      omega
  | caller hi hs => exact h.set hi fun hc => hc.caller_step hs
  | worker hi hs => exact h.set hi fun hc => hc.worker_step hs

/-- So every world that can be reached is sound. -/
theorem Reachable.sound {w : World} (h : Reachable cwd limit w) : w.Sound cwd limit := by
  induction h with
  | initial => exact ⟨fun i t hi => (by cases hi), fun p hp => (by cases hp)⟩
  | step _ hs ih => exact ih.step hs

end World

end MountControl.Timed
