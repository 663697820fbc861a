/-
# McDaemon.Proxy.ClientCalls — the calls of the proxy client, step by step.

A call of the proxy client finds a connection by its session id and keeps the pointer, while the
lock of the list is released again.  The exchanges on a connection take turns, by two mutexes that
are part of it, and a notify holds a third one across its exchange.  A call that closes the session,
or finds the connection broken, has it deleted by session id, and asks nobody whether the connection
is still in use.
-/
import Mathlib.Tactic.SplitIfs
import McDaemon.Lib.Ledger
import McDaemon.Lib.Machine
import McDaemon.Proxy.BufferTables

namespace McDaemon.Proxy.ClientCalls

open McDaemon.Lib

/-! ## The calls -/

/-- The calls on a session.  Of the buffers that have an address, a map looks at the lengths and an
unmap at the secure addresses before the exchange. -/
inductive Method where
  | closeSession
  | notify
  | waitNotification (timeout : Int)
  | map (lengths : List Nat)
  | unmap (svas : List Nat)
  | getError
  | gpRequestCancellation
deriving DecidableEq, Repr

/-- How `ClientConnection::call` comes back: with a response, complete or not, with the error of the
method, or with `is_broken_` set.  `timeout` tells that `errno` is `ETIME`, and `buffers` how many
buffers of the response, or of the request of an unmap, are found in the session. -/
inductive Outcome where
  | done (complete : Bool) (buffers : Nat)
  | refused (timeout : Bool) (buffers : Nat)
  | broken (timeout : Bool)
deriving DecidableEq, Repr

def Outcome.buffers : Outcome → Nat
  | .done _ n | .refused _ n => n
  | .broken _ => 0

/-- What a call that has found its connection does next.  The phases from `lockQueue` to
`unlockComm` are those of `ClientConnection::call`. -/
inductive Phase where
  | readSession
  | lockBuffers
  | lockQueue
  | lockComm
  | unlockQueue
  | exchange
  | unlockComm (o : Outcome)
  | checkBroken (o : Outcome)
  | deleteConnection
  | update (buffers : Nat)
  | updateBuffer (more : Nat)
  | unlockBuffers
deriving DecidableEq, Repr

/-- A call is about to look for its connection, has found it, or has returned. -/
inductive Stage where
  | finding
  | found (connection : Nat) (phase : Phase)
  | returned
deriving DecidableEq, Repr

/-- A call; `timeoutLeft` is that of the loop of a wait. -/
structure Call where
  method : Method
  sid : UInt32
  timeoutLeft : Int
  stage : Stage
deriving DecidableEq, Repr

/-- `timeout_max`, in milliseconds. -/
def timeoutMax : Int := 1000

/-- `request.partial()` in a round of the loop of a wait, where `left` is `timeout_left` before the
round. -/
def waitsPartially (timeout left : Int) : Bool := timeout < 0 || timeoutMax < left

/-- `timeout_left` behind a round that was partial. -/
def leftBehind (timeout left : Int) : Int := if timeout < 0 then left else left - timeoutMax

namespace Method

/-- What the call does once it has its connection; `none` when it returns for its arguments. -/
def first : Method → Option Phase
  | .notify => some .readSession
  | .map lengths => if lengths.any (bufferLengthMax < ·) then none else some .lockQueue
  | .unmap svas => if svas.contains 0 then none else some .lockQueue
  | _ => some .lockQueue

/-- The way out: a notify has a `lock_guard` on the mutex of the buffers. -/
def leave (m : Method) : Option Phase := if m = .notify then some .unlockBuffers else none

/-- What the call does with a response. -/
def answered (m : Method) (complete : Bool) (buffers : Nat) : Option Phase :=
  match m with
  | .closeSession => some .deleteConnection
  | .notify => m.leave
  | .waitNotification _ => some (.update buffers)
  | .map lengths => if complete then some (.update lengths.length) else none
  -- the first buffer that is not found ends the loop
  | .unmap svas => some (.update (min (buffers + 1) svas.length))
  | .getError | .gpRequestCancellation => none

/-- What the call does with an error when the connection is not broken; a wait updates the buffers
all the same. -/
def givesUp (m : Method) (o : Outcome) : Option Phase :=
  match m with
  | .waitNotification _ => some (.update o.buffers)
  | _ => m.leave

end Method

namespace Call

def isPartial (call : Call) : Bool :=
  match call.method with
  | .waitNotification timeout => waitsPartially timeout call.timeoutLeft
  | _ => false

def nextTimeout (call : Call) : Int :=
  match call.method with
  | .waitNotification timeout => leftBehind timeout call.timeoutLeft
  | _ => call.timeoutLeft

/-- A wait tries again after a partial timeout. -/
def retries (call : Call) : Outcome → Bool
  | .done _ _ => false
  | .refused timeout _ | .broken timeout => timeout && call.isPartial

end Call

/-! ## The connections -/

/-- `ClientConnection` with its `Session`: the id, and who holds the three mutexes. -/
structure ClientConnection where
  sid : UInt32
  isBroken : Bool
  queueMutex : Option Nat
  commMutex : Option Nat
  buffersMutex : Option Nat
deriving DecidableEq, Repr

/-- A call touches connections, or deletes one. -/
inductive Event where
  | touches (call : Nat) (connections : List Nat)
  | deletes (call : Nat) (connection : Nat)
deriving DecidableEq, Repr

/-- The connections that were ever made, by number, `SessionConnectionsList::connections_`, the
calls, and what has happened to the connections. -/
structure ProxyClient where
  made : List ClientConnection
  connections : List Nat
  calls : List Call
  log : List Event
deriving DecidableEq, Repr

/-- What a phase makes of the connection and of the call; `next` is `none` when it returns. -/
structure Turn where
  connection : ClientConnection
  timeoutLeft : Int
  next : Option Phase

/-- One phase of call `k` on its connection `x`, other than `deleteConnection`. -/
def turn (k : Nat) (call : Call) (x : ClientConnection) (o : Outcome) : Phase → Option Turn
  | .readSession => some ⟨x, call.timeoutLeft, some .lockBuffers⟩
  | .lockBuffers =>
    if x.buffersMutex = none then
      some ⟨{ x with buffersMutex := some k }, call.timeoutLeft, some .lockQueue⟩
    else none
  | .lockQueue =>
    if x.queueMutex = none then
      some ⟨{ x with queueMutex := some k }, call.timeoutLeft, some .lockComm⟩
    else none
  | .lockComm =>
    if x.commMutex = none then
      some ⟨{ x with commMutex := some k }, call.timeoutLeft, some .unlockQueue⟩
    else none
  | .unlockQueue => some ⟨{ x with queueMutex := none }, call.timeoutLeft, some .exchange⟩
  | .exchange =>
    match o with
    | .broken _ => some ⟨{ x with isBroken := true }, call.timeoutLeft, some (.unlockComm o)⟩
    | _ => some ⟨x, call.timeoutLeft, some (.unlockComm o)⟩
  | .unlockComm o =>
    let x := { x with commMutex := none }
    match o with
    | .done complete buffers => some ⟨x, call.timeoutLeft, call.method.answered complete buffers⟩
    | _ =>
      if call.retries o then some ⟨x, call.nextTimeout, some .lockQueue⟩
      else some ⟨x, call.timeoutLeft, some (.checkBroken o)⟩
  | .checkBroken o =>
    if x.isBroken then some ⟨x, call.timeoutLeft, some .deleteConnection⟩
    else some ⟨x, call.timeoutLeft, call.method.givesUp o⟩
  | .update 0 => some ⟨x, call.timeoutLeft, none⟩
  | .update (n + 1) => some ⟨x, call.timeoutLeft, some (.updateBuffer n)⟩
  -- a buffer is looked for, added or removed under the mutex of the buffers
  | .updateBuffer n =>
    if x.buffersMutex = none then
      match n with
      | 0 => some ⟨x, call.timeoutLeft, none⟩
      | n + 1 => some ⟨x, call.timeoutLeft, some (.updateBuffer n)⟩
    else none
  | .unlockBuffers => some ⟨{ x with buffersMutex := none }, call.timeoutLeft, none⟩
  | .deleteConnection => none

/-- The stage of a call on connection `c` that goes on with `next`. -/
def stageOf (c : Nat) : Option Phase → Stage
  | none => .returned
  | some p => .found c p

namespace ProxyClient

def hasSid (s : ProxyClient) (sid : UInt32) (c : Nat) : Bool := s.made[c]?.any (·.sid = sid)

/-- The connection that a search for a session id comes to. -/
def lookup (s : ProxyClient) (sid : UInt32) : Option Nat := s.connections.find? (s.hasSid sid)

/-- The connections whose session a search for an id looks at. -/
def lookedAt (s : ProxyClient) (sid : UInt32) : List Nat :=
  s.connections.take (s.connections.findIdx (s.hasSid sid) + 1)

def note (s : ProxyClient) (e : Event) : ProxyClient := { s with log := s.log ++ [e] }

def setCall (s : ProxyClient) (k : Nat) (call : Call) : ProxyClient :=
  { s with calls := s.calls.set k call }

/-- `SessionConnectionsList::find`, and the checks of the arguments behind it. -/
def find (s : ProxyClient) (k : Nat) (call : Call) : ProxyClient :=
  (s.note (.touches k (s.lookedAt call.sid))).setCall k
    { call with
      stage := (s.lookup call.sid).elim .returned fun c => stageOf c call.method.first }

/-- `SessionConnectionsList::deleteConnection`, in a call on connection `c`. -/
def deleteConnection (s : ProxyClient) (k : Nat) (call : Call) (c : Nat) : ProxyClient :=
  let looked := s.note (.touches k (s.lookedAt call.sid))
  let deleted :=
    match s.lookup call.sid with
    | none => looked
    | some d => { looked.note (.deletes k d) with connections := s.connections.erase d }
  deleted.setCall k { call with stage := stageOf c call.method.leave }

/-- Call `k` goes through a phase on connection `c`. -/
def goOn (s : ProxyClient) (k : Nat) (call : Call) (c : Nat) (p : Phase) (o : Outcome) :
    Option ProxyClient :=
  match s.made[c]? with
  | none => none
  | some x =>
    (turn k call x o p).map fun t =>
      ({ s with made := s.made.set c t.connection }.note (.touches k [c])).setCall k
        { call with timeoutLeft := t.timeoutLeft, stage := stageOf c t.next }

/-- Call `k` takes its next step; `o` is what an exchange comes back with. -/
def advance (s : ProxyClient) (k : Nat) (o : Outcome) : Option ProxyClient :=
  match s.calls[k]? with
  | none => none
  | some call =>
    match call.stage with
    | .finding => some (s.find k call)
    | .found c .deleteConnection => some (s.deleteConnection k call c)
    | .found c p => s.goOn k call c p o
    | .returned => none

/-- A session is opened and its connection put on the list (`push_back`), a call begins, or a call
takes a step. -/
inductive Action where
  | opened (sid : UInt32)
  | calls (method : Method) (sid : UInt32)
  | advances (call : Nat) (o : Outcome)
deriving DecidableEq, Repr

def step (s : ProxyClient) : Action → Option ProxyClient
  | .opened sid =>
    some { s with
      made := s.made ++ [⟨sid, false, none, none, none⟩]
      connections := s.connections ++ [s.made.length] }
  | .calls method sid =>
    let timeoutLeft := match method with
      | .waitNotification timeout => timeout
      | _ => 0
    some { s with calls := s.calls ++ [⟨method, sid, timeoutLeft, .finding⟩] }
  | .advances k o => s.advance k o

/-- A client without sessions. -/
def fresh : ProxyClient := ⟨[], [], [], []⟩

end ProxyClient

/-- One proxy client and all its calls. -/
def callMachine : Machine ProxyClient ProxyClient.Action where
  init := fun s => s = ProxyClient.fresh
  step := ProxyClient.step

end McDaemon.Proxy.ClientCalls
