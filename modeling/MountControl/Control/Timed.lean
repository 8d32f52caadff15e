import MountControl.Control.Transport

/-!
Invocations with a time limit, step by step. The caller opens the mount and starts a worker that
owns the open root from then on; the worker makes the call, closes the root and sends what came of
the call on a channel of its own. A caller that gives up leaves its worker behind, so the workers of
earlier invocations may still be running while later ones are carried out.
-/

namespace MountControl.Timed

open Transport (Conclusion conclude)

structure Request where
  driver : Driver
  mount : Path
  code : RequestCode
  input : Option Bytes

namespace Request

def prepare (cwd : Path) (q : Request) : Except ControlError (Path × Bytes) :=
  match transferBuffer q.code q.input with
  | .error e => .error e
  | .ok buffer =>
    match resolveMount cwd q.mount with
    | .error e => .error e
    | .ok path => .ok (path, buffer)

def visible (q : Request) (buffer : Bytes) : Option Bytes :=
  visibleBuffer q.code buffer

def conclusion (q : Request) (buffer : Bytes) : Conclusion :=
  conclude none q.code buffer (q.driver.answer q.code (q.visible buffer))

end Request

/-- What leaves a mark in an invocation: an attempt to open the root, the beginning and the end of
the call, the close of the root, and the caller's return. -/
inductive Mark
  | unopened (path : Path) (cause : SystemError)
  | opened (path : Path)
  | called (code : RequestCode) (buffer : Option Bytes)
  | answered (conclusion : Conclusion)
  | closed
  | returned (result : Except Halt Reply)

namespace Mark

def isCall : Mark → Bool
  | called _ _ => true
  | _ => false

def isAnswer : Mark → Bool
  | answered _ => true
  | _ => false

def isClose : Mark → Bool
  | closed => true
  | _ => false

/-- The event that can be seen from outside; the end of a call is not seen. -/
def event? : Mark → Option Event
  | unopened path _ | opened path => some (.opened path)
  | called code buffer => some (.called code buffer)
  | answered _ => none
  | closed => some .closed
  | returned _ => some .returned

end Mark

/-- How far the caller has come: it has done nothing yet, holds the open root, waits for the worker,
knows how the invocation ends, or is back. -/
inductive Caller
  | begun
  | holding (path : Path) (buffer : Bytes)
  | waiting
  | leaving (result : Except Halt Reply)
  | back (result : Except Halt Reply)

/-- How far the worker has come: it was not started, owns the root before, during and after the
call, has closed the root, has sent its message, or has ended and dropped its end of the channel. -/
inductive Worker
  | absent
  | ready (buffer : Bytes)
  | calling (buffer : Bytes)
  | called (conclusion : Conclusion)
  | closed (conclusion : Conclusion)
  | sent
  | ended
  deriving DecidableEq

structure Task where
  request : Request
  caller : Caller
  worker : Worker
  slot : Option Conclusion

namespace Task

def start (q : Request) : Task :=
  ⟨q, .begun, .absent, none⟩

def isBack (t : Task) : Bool :=
  match t.caller with
  | .back _ => true
  | _ => false

/-- A step of the caller, with the mark that it leaves. The time may run out at any moment of the
wait; the channel is seen to be closed once the worker has ended and no message is left. -/
inductive CallerStep (cwd : Path) (limit : Duration) : Task → Option Mark → Task → Prop
  | reject {q worker slot e} (h : q.prepare cwd = .error e) :
    CallerStep cwd limit ⟨q, .begun, worker, slot⟩ none
      ⟨q, .leaving (.error (.failure e)), worker, slot⟩
  | refuse {q worker slot path buffer cause} (h : q.prepare cwd = .ok (path, buffer))
    (ho : q.driver.opening path = some cause) :
    CallerStep cwd limit ⟨q, .begun, worker, slot⟩ (some (.unopened path cause))
      ⟨q, .leaving (.error (.failure (.mountUnavailable path cause))), worker, slot⟩
  | grant {q worker slot path buffer} (h : q.prepare cwd = .ok (path, buffer))
    (ho : q.driver.opening path = none) :
    CallerStep cwd limit ⟨q, .begun, worker, slot⟩ (some (.opened path))
      ⟨q, .holding path buffer, worker, slot⟩
  | start {q path buffer slot} :
    CallerStep cwd limit ⟨q, .holding path buffer, .absent, slot⟩ none
      ⟨q, .waiting, .ready buffer, slot⟩
  -- the root is moved into the thread's work, which is dropped with it if no thread can be started
  | startFails {q path buffer worker slot} (cause : SystemError) :
    CallerStep cwd limit ⟨q, .holding path buffer, worker, slot⟩ (some .closed)
      ⟨q, .leaving (.error (.failure (.workerFailed q.code cause))), worker, slot⟩
  | take {q worker c} :
    CallerStep cwd limit ⟨q, .waiting, worker, some c⟩ none
      ⟨q, .leaving (c.result q.code), worker, none⟩
  | timeOut {q worker slot} :
    CallerStep cwd limit ⟨q, .waiting, worker, slot⟩ none
      ⟨q, .leaving ((Conclusion.gaveUp limit).result q.code), worker, slot⟩
  | disconnect {q} :
    CallerStep cwd limit ⟨q, .waiting, .ended, none⟩ none
      ⟨q, .leaving (Conclusion.workerDied.result q.code), .ended, none⟩
  | leave {q result worker slot} :
    CallerStep cwd limit ⟨q, .leaving result, worker, slot⟩ (some (.returned result))
      ⟨q, .back result, worker, slot⟩

/-- A step of the worker, with the mark that it leaves. A call that breaks off unwinds the worker:
the root is closed on the way, and the channel is dropped without a message. -/
inductive WorkerStep : Task → Option Mark → Task → Prop
  | call {q caller buffer slot} :
    WorkerStep ⟨q, caller, .ready buffer, slot⟩ (some (.called q.code (q.visible buffer)))
      ⟨q, caller, .calling buffer, slot⟩
  | answer {q caller buffer slot} :
    WorkerStep ⟨q, caller, .calling buffer, slot⟩ (some (.answered (q.conclusion buffer)))
      ⟨q, caller, .called (q.conclusion buffer), slot⟩
  | close {q caller c slot} :
    WorkerStep ⟨q, caller, .called c, slot⟩ (some .closed) ⟨q, caller, .closed c, slot⟩
  -- the channel has one place: while the caller's end is there, sending waits until it is free
  | deliver {q caller c} (hc : ∀ m, c ≠ .brokeOff m) (hb : ∀ r, caller ≠ .back r) :
    WorkerStep ⟨q, caller, .closed c, none⟩ none ⟨q, caller, .sent, some c⟩
  | discard {q caller c slot} (hc : ∀ m, c ≠ .brokeOff m) (hw : caller ≠ .waiting) :
    WorkerStep ⟨q, caller, .closed c, slot⟩ none ⟨q, caller, .sent, slot⟩
  | unwind {q caller m slot} :
    WorkerStep ⟨q, caller, .closed (.brokeOff m), slot⟩ none ⟨q, caller, .ended, slot⟩
  | exit {q caller slot} :
    WorkerStep ⟨q, caller, .sent, slot⟩ none ⟨q, caller, .ended, slot⟩

end Task

/-- The invocations made so far with one transport, in order, and the marks that they and their
workers have left, each with the number of its invocation. -/
structure World where
  tasks : List Task
  trace : List (Nat × Mark)

namespace World

def initial : World :=
  ⟨[], []⟩

def history (w : World) (i : Nat) : List Mark :=
  (w.trace.filter (·.1 = i)).map (·.2)

/-- A step of a world: the next invocation begins once the caller is back from all before it, or an
invocation's caller or worker makes a step. -/
inductive Step (cwd : Path) (limit : Duration) : World → World → Prop
  | begin {w} (q : Request) (h : ∀ t ∈ w.tasks, t.isBack) :
    Step cwd limit w ⟨w.tasks ++ [.start q], w.trace⟩
  | caller {w i t mark t'} (h : w.tasks[i]? = some t) (hs : t.CallerStep cwd limit mark t') :
    Step cwd limit w ⟨w.tasks.set i t', w.trace ++ mark.toList.map (i, ·)⟩
  | worker {w i t mark t'} (h : w.tasks[i]? = some t) (hs : t.WorkerStep mark t') :
    Step cwd limit w ⟨w.tasks.set i t', w.trace ++ mark.toList.map (i, ·)⟩

inductive Reachable (cwd : Path) (limit : Duration) : World → Prop
  | initial : Reachable cwd limit initial
  | step {w w'} (h : Reachable cwd limit w) (hs : Step cwd limit w w') : Reachable cwd limit w'

end World

end MountControl.Timed
