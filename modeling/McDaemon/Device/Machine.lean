/-
# McDaemon.Device.Machine — the daemon's device as a machine.

The sections of the operations, interleaved.  Whatever needs `mutex_mcp` starts only when `mcp` is
idle and then owns it until it is idle again; the interrupt handler, the notification sockets and
the secure world step at any time.
-/
import McDaemon.Lib.Machine
import McDaemon.Device.Operations

namespace McDaemon.Device

open McDaemon.Lib

/-- The client commands that run under `mutex_mcp`. -/
inductive Command where
  | openDevice (deviceId : UInt32)
  | closeDevice
  | openSession (c : OpenCommand)
  | closeSession (sessionId : UInt32)
  | mapBulk (c : MapCommand)
  | unmapBulk (c : UnmapCommand)
deriving DecidableEq, Repr

/-- Steps that `mutex_mcp` does not order. -/
inductive Concurrent where
  /-- The interrupt handler takes a notification of the secure world. -/
  | irq (n : Notification)
  | nqConnect (conn : Conn) (c : NqConnectCommand)
  | nqFlush
  | notify (conn : Conn) (sessionId : UInt32)
  | loadToken
  /-- The secure world takes a notification from the ring. -/
  | taken
deriving DecidableEq, Repr

inductive Action where
  | command (conn : Conn) (c : Command)
  | drop (conn : Conn)
  | checkLoad
  | taExit
  /-- The next round of the loop that the holder of `mutex_mcp` is in. -/
  | round
  /-- The holder of `mutex_mcp` comes back from `waitMcpNotification`. -/
  | wake (w : McpWake) (new : NewSession)
  | concurrent (c : Concurrent)
deriving DecidableEq, Repr

namespace DeviceState

/-- `handleCommand`, on the commands that take `mutex_mcp`. -/
def handleCommand (s : DeviceState) (conn : Conn) : Command → DeviceState
  | .openDevice deviceId => s.processOpenDevice conn deviceId
  | .closeDevice => s.processCloseDevice conn
  | .openSession c => s.processOpenSession conn c
  | .closeSession sessionId => s.processCloseSession conn sessionId
  | .mapBulk c => s.processMapBulkBuf conn c
  | .unmapBulk c => s.processUnmapBulkBuf conn c

/-- The section after an exchange, by the operation that waited. -/
def afterWait (s : DeviceState) (new : NewSession) (rsp : Option McpResponse) :
    McpThread → Option DeviceState
  | .openWait conn ld c => some (s.openSessionAnswer conn ld c new rsp)
  | .closeWait caller p retry => some (s.closeSessionAnswer caller p retry rsp)
  | .mapWait conn p c _ => some (s.mapBulkAnswer conn p c rsp)
  | .unmapWait conn p c => some (s.unmapBulkAnswer conn p c rsp)
  | .checkLoadWait => some (s.goto .idle)
  | .taExitWait p => some (s.taExitAnswer p rsp)
  | .idle | .openDrain .. | .closeLoop .. | .taExitLoop | .aborted => none

/-- The next round of a loop, by the operation that loops. -/
def nextRound (s : DeviceState) : McpThread → Option DeviceState
  | .openDrain conn p rsp unregister => some (s.openSessionDrain conn p rsp unregister)
  | .closeLoop conn drop => some (s.closeRound conn drop)
  | .taExitLoop => some s.taExitRound
  | .idle | .openWait .. | .closeWait .. | .mapWait .. | .unmapWait .. | .checkLoadWait
  | .taExitWait .. | .aborted => none

/-- One step outside `mutex_mcp`.  NQ_CONNECT and NOTIFY share a lock, which the former keeps
until the queue is flushed. -/
def concurrentStep (s : DeviceState) : Concurrent → Option DeviceState
  | .irq n => some (s.handleIrq n)
  | .nqConnect conn c => if s.nq = none then some (s.processNqConnect conn c) else none
  | .nqFlush => s.nq.map fun f => s.processQueuedNotifications f.p
  | .notify conn sessionId => if s.nq = none then some (s.processNotify conn sessionId) else none
  | .loadToken => some s.clearNotifications
  | .taken =>
    match s.nqOut with
    | [] => none
    | _ :: ns => some { s with nqOut := ns }

def step (s : DeviceState) : Action → Option DeviceState
  | .command conn c => if s.mcp = .idle then some (s.handleCommand conn c) else none
  | .drop conn => if s.mcp = .idle then some (s.dropConnection conn) else none
  | .checkLoad =>
    if s.mcp = .idle then some (s.clearNotifications.mshNotifyAndWait .checkLoad .checkLoadWait)
    else none
  | .taExit =>
    if s.mcp = .idle ∧ 0 < s.taExitWakeups then
      some { s with taExitWakeups := s.taExitWakeups - 1, mcp := .taExitLoop }
    else none
  | .round => s.nextRound s.mcp
  | .wake w new => do
    let (rsp, s) ← waitMcpNotification s w
    s.afterWait new rsp s.mcp
  | .concurrent c => if s.mcp = .aborted then none else s.concurrentStep c

/-- The client on whose behalf a step is taken, if any. -/
def actor (s : DeviceState) : Action → Option Conn
  | .command conn _ | .drop conn => some conn
  | .round | .wake .. => s.mcp.client?
  | .concurrent (.nqConnect conn _) | .concurrent (.notify conn _) => some conn
  | .concurrent .nqFlush => s.nq.map NqFlush.conn
  | .checkLoad | .taExit | .concurrent _ => none

end DeviceState

/-- The device of a running daemon. -/
def machine : Machine DeviceState Action where
  init := fun s => ∃ mciReused, s = DeviceState.started mciReused
  step := DeviceState.step

end McDaemon.Device
