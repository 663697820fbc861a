/-
# McDaemon.RootPa.LockTimer — the lock, its timers and the session, at single accesses.

Every service object has a timer of its own for the one lock that all of them share, and opens and
closes a session of its own.  Its two methods exclude each other; the task of a timer does not
exclude anything, and once it has begun it is not stopped by being cancelled.

A step is one access to the lock, to the session or to its flag, or one call of a timer.
-/
import McDaemon.RootPa.ServiceLock

namespace McDaemon.RootPa.Timer

open McDaemon.Lib

/-- `LOCK_TIMEOUT_MS` -/
def lockTimeoutMs : Nat := 300000

/-! ## Timers -/

/-- What a task does next. -/
inductive TaskStage
  | scheduled
  /-- `lock_.set` -/
  | freeing
  /-- It reads `sessionOpened_`. -/
  | checking
  /-- `closeSession` -/
  | closing
  /-- It resets `sessionOpened_`. -/
  | clearing
  /-- It has ended, or was cancelled before it began. -/
  | ended
deriving DecidableEq, Repr

/-- The task has begun and not ended. -/
def TaskStage.running : TaskStage → Bool
  | .freeing | .checking | .closing | .clearing => true
  | .scheduled | .ended => false

/-- A task with the service object it belongs to and the time it is scheduled for. -/
structure Task (S : Type) where
  service : S
  due : Nat
  stage : TaskStage
deriving DecidableEq, Repr

/-- `TimerTask.cancel` and `Timer.cancel` -/
def Task.cancel {S : Type} (t : Task S) : Task S :=
  if t.stage = .scheduled then { t with stage := .ended } else t

/-! ## Service objects -/

/-- What the method that is running does next.  A tenure counts how often the lock has been taken
when it was free. -/
inductive Call
  /-- `compareAndSet`, in `acquireLock`. -/
  | acquiring (uid : UInt32) (openSession : Bool)
  /-- `lock_.get` -/
  | rechecking (uid : UInt32)
  /-- It reads `sessionOpened_`. -/
  | opening (openSession : Bool) (tenure : Nat)
  /-- `openSession` -/
  | entering (tenure : Nat)
  /-- It sets `sessionOpened_`. -/
  | opened
  /-- It cancels the timer. -/
  | replacing
  | scheduling
  /-- `lock_.get`, in `releaseLock`. -/
  | releasing (uid : UInt32) (closeSession : Bool)
  /-- `compareAndSet` -/
  | freeing (uid : UInt32) (closeSession : Bool)
  /-- It reads `sessionOpened_`. -/
  | closing (closeSession : Bool)
  /-- `closeSession` -/
  | leaving
  /-- It resets `sessionOpened_`. -/
  | closed
  /-- It cancels the timer. -/
  | cancelling
deriving DecidableEq, Repr

/-- An `acquireLock` that has succeeded, up to its timer. -/
def Call.granted : Call → Bool
  | .opening _ _ | .entering _ | .opened | .replacing | .scheduling => true
  | _ => false

/-- A `releaseLock` that has found the lock free or freed it. -/
def Call.freed : Call → Bool
  | .closing _ | .leaving | .closed | .cancelling => true
  | _ => false

/-- The call is certain to cancel the timer. -/
def Call.cancels : Call → Bool
  | .scheduling => false
  | call => call.granted || call.freed

/-- The uid a call has been made with. -/
def Call.uid : Call → Option UInt32
  | .acquiring uid _ | .rechecking uid | .releasing uid _ | .freeing uid _ => some uid
  | _ => none

/-- The tenure for which a call is about to open the session. -/
def Call.tenure : Call → Option Nat
  | .opening _ tenure | .entering tenure => some tenure
  | _ => none

/-- A service object.  `session` is whether the session is open, and `sessionFor` the tenure for
which it was opened, or found open, last. -/
structure ServiceObject where
  call : Option Call
  returned : Option CommandResult
  sessionOpened : Bool
  session : Bool
  sessionFor : Option Nat
  timer : Option Nat
deriving DecidableEq, Repr

/-- The lock, the time, the service objects and the tasks of all timers; with the number of the
tenure, and when `acquireLock` has succeeded last. -/
structure TimedLock (S : Type) where
  lock : UInt32
  now : Nat
  objects : S → ServiceObject
  tasks : List (Task S)
  tenure : Nat
  acquired : Nat

namespace TimedLock

abbrev taskAt {S : Type} (c : TimedLock S) (i : Nat) : Option (Task S) := c.tasks[i]?

variable {S : Type} [DecidableEq S]

def put (c : TimedLock S) (s : S) (o : ServiceObject) : TimedLock S :=
  { c with objects := fun r => if r = s then o else c.objects r }

/-- The method goes on with `call`. -/
def goOn (c : TimedLock S) (s : S) (call : Call) : TimedLock S :=
  c.put s { c.objects s with call := some call }

/-- The method returns. -/
def answer (c : TimedLock S) (s : S) (result : CommandResult) : TimedLock S :=
  c.put s { c.objects s with call := none, returned := some result }

/-- The timer of a service object is cancelled, if it has one. -/
def cancel (c : TimedLock S) (s : S) : TimedLock S :=
  { c with tasks := match (c.objects s).timer with
      | some i => c.tasks.modify i Task.cancel
      | none => c.tasks }

/-- A new timer. -/
def schedule (c : TimedLock S) (s : S) : TimedLock S :=
  { c with tasks := c.tasks ++ [Task.mk s (c.now + lockTimeoutMs) .scheduled] }.put s
    { c.objects s with timer := some c.tasks.length, call := none, returned := some .ok }

/-- The next step of `BaseService.acquireLock` or `BaseService.releaseLock`. -/
def stepCall (c : TimedLock S) (s : S) : Call → TimedLock S
  | .acquiring uid openSession =>
    if c.lock = lockFree then
      { c with lock := uid, tenure := c.tenure + 1, acquired := c.now }.goOn s
        (.opening openSession (c.tenure + 1))
    else c.goOn s (.rechecking uid)
  | .rechecking uid =>
    if c.lock = uid then { c with acquired := c.now }.goOn s .replacing else c.answer s .lock
  | .opening openSession tenure =>
    if openSession then
      if (c.objects s).sessionOpened then
        c.put s { c.objects s with sessionFor := some tenure, call := some .replacing }
      else c.goOn s (.entering tenure)
    else c.goOn s .replacing
  | .entering tenure =>
    c.put s { c.objects s with session := true, sessionFor := some tenure, call := some .opened }
  | .opened => c.put s { c.objects s with sessionOpened := true, call := some .replacing }
  | .replacing => (c.cancel s).goOn s .scheduling
  | .scheduling => c.schedule s
  | .releasing uid closeSession =>
    c.goOn s (if c.lock = lockFree then .closing closeSession else .freeing uid closeSession)
  | .freeing uid closeSession =>
    if c.lock = uid then { c with lock := lockFree }.goOn s (.closing closeSession)
    else c.answer s .lock
  | .closing closeSession =>
    c.goOn s (if closeSession && (c.objects s).sessionOpened then .leaving else .cancelling)
  | .leaving => c.put s { c.objects s with session := false, call := some .closed }
  | .closed => c.put s { c.objects s with sessionOpened := false, call := some .cancelling }
  | .cancelling =>
    (c.cancel s).put s
      { c.objects s with timer := none, call := none, returned := some .ok }

def setTask (c : TimedLock S) (i : Nat) (t : Task S) (stage : TaskStage) : TimedLock S :=
  { c with tasks := c.tasks.set i { t with stage } }

/-- The next step of a task. -/
def stepTask (c : TimedLock S) (i : Nat) (t : Task S) : TaskStage → Option (TimedLock S)
  | .scheduled => if t.due ≤ c.now then some (c.setTask i t .freeing) else none
  | .freeing => some ({ c with lock := lockFree }.setTask i t .checking)
  | .checking =>
    some (c.setTask i t (if (c.objects t.service).sessionOpened then .closing else .ended))
  | .closing =>
    some ((c.put t.service { c.objects t.service with session := false }).setTask i t .clearing)
  | .clearing =>
    some ((c.put t.service { c.objects t.service with sessionOpened := false }).setTask i t .ended)
  | .ended => none

/-! ## Runs -/

inductive Action (S : Type)
  | acquireLock (s : S) (uid : UInt32) (openSession : Bool)
  | releaseLock (s : S) (uid : UInt32) (closeSession : Bool)
  | call (s : S)
  | task (i : Nat)
  | wait (ms : Nat)
deriving DecidableEq, Repr

/-- A method begins when no other one of the object is running. -/
def begin (c : TimedLock S) (s : S) (uid : UInt32) (call : Call) : Option (TimedLock S) :=
  if (c.objects s).call = none then
    some (if uid = lockFree then c.answer s .illegalArgument else c.goOn s call)
  else none

def step (c : TimedLock S) : Action S → Option (TimedLock S)
  | .acquireLock s uid openSession => c.begin s uid (.acquiring uid openSession)
  | .releaseLock s uid closeSession => c.begin s uid (.releasing uid closeSession)
  | .call s => (c.objects s).call.map (c.stepCall s)
  | .task i => (c.taskAt i).bind fun t => c.stepTask i t t.stage
  | .wait ms => some { c with now := c.now + ms }

end TimedLock

end McDaemon.RootPa.Timer
