/-
# McDaemon.RootPa.ServiceLock — the lock of the content management services.

One static integer locks content management for the Provisioning, Developer and Oem services.  It
is taken and released by the clients of the Provisioning service, by every query, by the requests
that start a provisioning thread, by the callbacks of that thread and by a timer.

The machine interleaves all of these.  A step is one access to the lock or to a field that several
threads use; that the methods of a service object exclude each other only rules runs out, and a
timer may fire at any time.
-/
import McDaemon.Lib.Machine

namespace McDaemon.RootPa

open McDaemon.Lib

/-- The services that share `lock_`. -/
inductive Service
  | provisioning
  | developer
  | oem
deriving DecidableEq, Repr

def Service.all : List Service := [.provisioning, .developer, .oem]

/-- The requests that start a provisioning thread. -/
inductive Request
  | doProvisioning
  | installTrustlet
  | unregisterRootContainer
deriving DecidableEq, Repr

def Request.service : Request → Service
  | .doProvisioning => .provisioning
  | .installTrustlet => .developer
  | .unregisterRootContainer => .oem

/-- A call that is on its way. -/
inductive Call
  /-- `executeCmpCommands` behind its check. -/
  | executing (uid : UInt32)
  /-- A query with the lock in hand. -/
  | querying (uid : UInt32)
  /-- A request that has been granted the lock. -/
  | requested (r : Request) (uid : UInt32)
  /-- It has written its uid to `doProvisioningLockSuid_`. -/
  | noted (r : Request) (uid : UInt32)
  /-- It has set `obj_`, and is about to create its thread. -/
  | entered (r : Request) (uid : UInt32)
  /-- It is about to release what `doProvisioningLockSuid_` says. -/
  | unlocking (r : Request)
  | releasing (r : Request) (uid : UInt32)
  /-- It is about to reset `doProvisioningLockSuid_`. -/
  | clearing (r : Request)
deriving DecidableEq, Repr

/-- The uid of a request that has the lock and may start a thread. -/
def Call.pending : Call → Option UInt32
  | .requested _ uid | .noted _ uid | .entered _ uid => some uid
  | _ => none

/-- The uid of a request. -/
def Call.uid : Call → Option UInt32
  | .requested _ uid | .noted _ uid | .entered _ uid | .releasing _ uid => some uid
  | _ => none

/-- Where a provisioning thread is.  In a callback it works on the service that `obj_` named. -/
inductive Stage
  | running
  | calling (s : Service) (exiting : Bool)
  | refreshing (s : Service) (uid : UInt32) (exiting : Bool)
  | leaving (s : Service)
  | releasing (s : Service) (uid : UInt32)
  | clearing (s : Service)
  | detaching
deriving DecidableEq, Repr

def Stage.uid : Stage → Option UInt32
  | .refreshing _ uid _ | .releasing _ uid => some uid
  | _ => none

/-- The thread is in its `THREAD_EXITING` callback. -/
def Stage.exiting : Stage → Bool
  | .running => false
  | .calling _ exiting | .refreshing _ _ exiting => exiting
  | .leaving _ | .releasing _ _ | .clearing _ | .detaching => true

/-- A provisioning thread, with the uid that its request was granted the lock under, and whether a
lock timeout has intervened. -/
structure Thread where
  uid : UInt32
  timedOut : Bool
  stage : Stage
deriving DecidableEq, Repr

/-- No timeout has intervened, and the thread has not come to its last callback. -/
def Thread.guarded (t : Thread) : Bool := !t.timedOut && !t.stage.exiting

def Thread.uids (t : Thread) : List UInt32 := t.uid :: t.stage.uid.toList

/-- `lock_`, the field `doProvisioningLockSuid_` of each service, the object that callbacks go to,
what is on its way, and the uids that the lock has been granted to. -/
structure LockState where
  lock : UInt32
  suid : Service → UInt32
  obj : Option Service
  calls : List Call
  threads : List Thread
  granted : List UInt32

def lockFree : UInt32 := 0

def unlocked : LockState := ⟨lockFree, fun _ => 0, none, [], [], []⟩

inductive CommandResult
  | ok
  | illegalArgument
  | lock
deriving DecidableEq, Repr

namespace LockState

/-! ## The lock -/

/-- `BaseService.acquireLock`. -/
def acquireLock (c : LockState) (uid : UInt32) : CommandResult × LockState :=
  if uid = lockFree then (.illegalArgument, c)
  else if c.lock = lockFree then (.ok, { c with lock := uid, granted := uid :: c.granted })
  else if c.lock = uid then (.ok, c)
  else (.lock, c)

/-- `BaseService.releaseLock`. -/
def releaseLock (c : LockState) (uid : UInt32) : CommandResult × LockState :=
  if uid = lockFree then (.illegalArgument, c)
  else if c.lock = lockFree then (.ok, c)
  else if c.lock = uid then (.ok, { c with lock := lockFree })
  else (.lock, c)

/-- `BaseService.locked`. -/
def locked (c : LockState) (uid : UInt32) : Bool := c.lock ≠ uid ∧ uid ≠ lockFree

/-- The task of the timer. -/
def timeout (c : LockState) : LockState :=
  { c with lock := lockFree, threads := c.threads.map fun t => { t with timedOut := true } }

def setSuid (c : LockState) (s : Service) (uid : UInt32) : LockState :=
  { c with suid := fun t => if t = s then uid else c.suid t }

/-! ## Uids in use -/

/-- The uids of requests and their threads. -/
def provisioningUids (c : LockState) : List UInt32 :=
  c.calls.filterMap Call.uid ++ (c.threads.flatMap Thread.uids ++ Service.all.map c.suid)

/-- A client does not use a uid that a service has drawn. -/
def Foreign (c : LockState) (uid : UInt32) : Prop :=
  uid ≠ lockFree → uid ∉ c.provisioningUids ∧ .querying uid ∉ c.calls

instance (c : LockState) (uid : UInt32) : Decidable (c.Foreign uid) :=
  inferInstanceAs (Decidable (_ → _))

/-- A uid that a service draws is not zero, and nobody else uses it. -/
def Fresh (c : LockState) (uid : UInt32) : Prop :=
  uid ≠ lockFree ∧ uid ≠ c.lock ∧ uid ∉ c.provisioningUids ∧ .querying uid ∉ c.calls ∧
    .executing uid ∉ c.calls

instance (c : LockState) (uid : UInt32) : Decidable (c.Fresh uid) :=
  inferInstanceAs (Decidable (_ ∧ _))

/-! ## Calls -/

/-- A new call. -/
def enter (c : LockState) (call : Call) : LockState := { c with calls := c.calls ++ [call] }

/-- The call goes on as `next`, or returns. -/
def proceed (c : LockState) (i : Nat) (next : Option Call) : LockState :=
  match next with
  | some call => { c with calls := c.calls.set i call }
  | none => { c with calls := c.calls.eraseIdx i }

/-- What a request does when no thread was created: `doProvisioning` and `unregisterRootContainer`
release the lock, `installTrustlet` does not. -/
def afterFailure : Request → Option Call
  | .doProvisioning => some (.unlocking .doProvisioning)
  | .installTrustlet => none
  | .unregisterRootContainer => some (.unlocking .unregisterRootContainer)

/-- What it does when its thread is running: `unregisterRootContainer` releases the lock. -/
def afterStart : Request → Option Call
  | .doProvisioning | .installTrustlet => none
  | .unregisterRootContainer => some (.unlocking .unregisterRootContainer)

/-- The next step of a call.  `ok` tells whether `setupProxy` and the JNI wrapper get as far as
`obj_`, and then whether the thread is created. -/
def stepCall (c : LockState) (i : Nat) (ok : Bool) : Call → LockState
  | .executing _ => c.proceed i none
  | .querying uid => (c.releaseLock uid).2.proceed i none
  | .requested r uid => (c.setSuid r.service uid).proceed i (some (.noted r uid))
  | .noted r uid =>
    if ok then { c with obj := some r.service }.proceed i (some (.entered r uid))
    else c.proceed i (afterFailure r)
  | .entered r uid =>
    if ok then
      { c with threads := c.threads ++ [Thread.mk uid false .running] }.proceed i (afterStart r)
    else c.proceed i (afterFailure r)
  | .unlocking r => c.proceed i (some (.releasing r (c.suid r.service)))
  | .releasing r uid =>
    (c.releaseLock uid).2.proceed i (if r = .doProvisioning then some (.clearing r) else none)
  | .clearing r => (c.setSuid r.service 0).proceed i none

/-! ## Provisioning threads -/

/-- The thread goes on to `next`, or ends. -/
def moveTo (c : LockState) (i : Nat) (t : Thread) (next : Option Stage) : LockState :=
  match next with
  | some stage => { c with threads := c.threads.set i { t with stage } }
  | none => { c with threads := c.threads.eraseIdx i }

/-- `stateUpdateCallback`, as far as the object that is called. -/
def callback (c : LockState) (i : Nat) (t : Thread) (exiting : Bool) : LockState :=
  match c.obj with
  | some s => c.moveTo i t (some (.calling s exiting))
  | none => if exiting then c.moveTo i t none else c

/-- The next step of `provisioningStateCallback`: it acquires the lock, and if the thread exits
releases it again. -/
def stepThread (c : LockState) (i : Nat) (t : Thread) : Stage → Option LockState
  | .running => none
  | .calling s exiting => some (c.moveTo i t (some (.refreshing s (c.suid s) exiting)))
  | .refreshing s uid exiting =>
    some ((c.acquireLock uid).2.moveTo i t (some (if exiting then .leaving s else .running)))
  | .leaving s => some (c.moveTo i t (some (.releasing s (c.suid s))))
  | .releasing s uid => some ((c.releaseLock uid).2.moveTo i t (some (.clearing s)))
  | .clearing s => some ((c.setSuid s 0).moveTo i t (some .detaching))
  | .detaching => some ({ c with obj := none }.moveTo i t none)

/-! ## Runs -/

inductive Action
  /-- A client of the Provisioning service. -/
  | acquireLock (uid : UInt32)
  | releaseLock (uid : UInt32)
  | executeCmpCommands (uid : UInt32)
  /-- `isRootContainerRegistered`, `isSPContainerRegistered`, `getVersion`, `getDeviceId`,
  `getSPContainerStructure` or `getSPContainerState`, with the uid that it draws. -/
  | query (uid : UInt32)
  | request (r : Request) (uid : UInt32)
  | call (i : Nat) (ok : Bool)
  | callback (i : Nat) (exiting : Bool)
  | thread (i : Nat)
  | timeout
deriving DecidableEq, Repr

/-- A call with a uid of its own starts if it gets the lock. -/
def start (c : LockState) (uid : UInt32) (call : Call) : LockState :=
  if (c.acquireLock uid).1 = .ok then (c.acquireLock uid).2.enter call else c

def step (c : LockState) : Action → Option LockState
  | .acquireLock uid => if c.Foreign uid then some (c.acquireLock uid).2 else none
  | .releaseLock uid => if c.Foreign uid then some (c.releaseLock uid).2 else none
  | .executeCmpCommands uid =>
    if c.Foreign uid then
      some (if c.locked uid then c else c.enter (.executing uid))
    else none
  | .query uid => if c.Fresh uid then some (c.start uid (.querying uid)) else none
  | .request r uid => if c.Fresh uid then some (c.start uid (.requested r uid)) else none
  | .call i ok => c.calls[i]?.map fun call => c.stepCall i ok call
  | .callback i exiting =>
    c.threads[i]?.bind fun t => if t.stage = .running then some (c.callback i t exiting) else none
  | .thread i => c.threads[i]?.bind fun t => c.stepThread i t t.stage
  | .timeout => some c.timeout

end LockState

def lockMachine : Machine LockState LockState.Action where
  init := (· = unlocked)
  step := LockState.step

end McDaemon.RootPa
