/-
# McDaemon.Device.State — the daemon's device object and the sections of its operations.

`MobiCoreDevice` and the threads that work on it.  An operation that talks to the secure world is
cut where other threads can interleave: at `waitMcpNotification`, between two rounds of a loop
that does not hold the list lock, and nowhere else.  Each section below is the code between two
such points, under the name of the operation it is part of; the thread that holds `mutex_mcp` is
the one a value of `McpThread` describes.

Calls that leave the daemon (kernel module, sockets) are recorded in `effects`, newest first.
-/
import McDaemon.Lib.PtrList
import McDaemon.Device.Session

namespace McDaemon.Device

open McDaemon.Lib

/-! ## Requests -/

/-- The blob that an open shares with the secure world. -/
structure LoadData where
  len : UInt32
  gpLevel : UInt32
deriving DecidableEq, Repr

/-- What the kernel module answers while one command runs. -/
structure KmodAnswers where
  findContiguousWsm : Option (UInt64 × UInt32) := none
  findWsmL2 : UInt64 := 0
  lockWsmL2 : Bool := true
  registerWsmL2 : Bool := true
  unregisterWsmL2 : Bool := true
deriving DecidableEq, Repr

/-- An open command; `load` is what the registry found for it. -/
structure OpenCommand where
  load : Option LoadData
  tciHandle : UInt32
  tciLen : UInt32
  tciOffset : UInt32
  kmod : KmodAnswers
deriving DecidableEq, Repr

/-- `MC_DRV_CMD_MAP_BULK_BUF_struct`. -/
structure MapCommand where
  sessionId : UInt32
  handle : UInt32
  offsetPayload : UInt32
  lenBulkMem : UInt32
  kmod : KmodAnswers
deriving DecidableEq, Repr

/-- `MC_DRV_CMD_UNMAP_BULK_BUF_struct`. -/
structure UnmapCommand where
  sessionId : UInt32
  handle : UInt32
  secureVirtualAdr : UInt32
  lenBulkMem : UInt32
deriving DecidableEq, Repr

/-- `MC_DRV_CMD_NQ_CONNECT_struct`. -/
structure NqConnectCommand where
  deviceId : UInt32
  sessionId : UInt32
  deviceSessionId : UInt32
  sessionMagic : UInt32
deriving DecidableEq, Repr

/-- `mcDrvRspOpenSessionPayload_t`. -/
structure OpenSessionPayload where
  deviceSessionId : UInt32
  sessionId : UInt32
  sessionMagic : UInt32
deriving DecidableEq, Repr

/-- How a WSM is described to the secure world. -/
inductive WsmType where
  | invalid
  | contiguous
  | l2
deriving DecidableEq, Repr

/-- The TCI fields of an open message. -/
structure TciBuffer where
  wsmTypeTci : WsmType
  adrTciBuffer : UInt64
  ofsTciBuffer : UInt32
deriving DecidableEq, Repr

/-- The part of `mcpMessage` that a command writes. -/
inductive McpCommand where
  | openSession (tci : TciBuffer) (lenTciBuffer lenLoadData : UInt32)
  | closeSession (sessionId : UInt32)
  | map (sessionId : UInt32) (adrBuffer : UInt64) (ofsBuffer lenBuffer : UInt32)
  | unmap (sessionId secureVirtualAdr lenVirtualBuffer : UInt32)
  | checkLoad
deriving DecidableEq, Repr

/-! ## Effects -/

/-- A call that leaves the daemon, or a change of a session that outlives the session.  Sessions
are named by their pointers. -/
inductive Effect where
  /-- A successful `lockWsmL2`. -/
  | lockWsm (handle : UInt32)
  /-- `unlockWsmL2`, with the session on whose behalf it is called. -/
  | unlockWsm (handle : UInt32) (onBehalf : Option Nat)
  /-- The lock taken last on this handle now counts for the session: its TCI, or a map that
  succeeded. -/
  | credited (p : Nat) (handle : UInt32)
  | queued (p : Nat) (sessionId : UInt32) (n : Notification)
  | forwarded (p : Nat) (sessionId : UInt32) (conn : Conn) (n : Notification)
  | removed (p : Nat)
  | mcp (c : McpCommand)
  | answered (conn : Conn) (code : McResult)
  | answeredOpen (conn : Conn) (rsp : OpenSessionPayload)
  | answeredMap (conn : Conn) (sessionId secureVirtualAdr : UInt32)
  | detachedConnection (conn : Conn)
  | deletedConnection (conn : Conn)
  | cleanupWsm
deriving DecidableEq, Repr

/-! ## The device -/

/-- Who called `closeSession`: a client's command, or the loop of `close` for a connection that
closes its device (`drop = false`) or is gone (`drop = true`). -/
inductive CloseCaller where
  | client (conn : Conn)
  | device (conn : Conn) (drop : Bool)
deriving DecidableEq, Repr

def CloseCaller.conn : CloseCaller → Conn
  | .client conn => conn
  | .device conn _ => conn

/-- Where the holder of `mutex_mcp` stands. -/
inductive McpThread where
  | idle
  | openWait (conn : Conn) (ld : LoadData) (c : OpenCommand)
  | openDrain (conn : Conn) (p : Nat) (rsp : OpenSessionPayload) (unregisterWsmL2 : Bool)
  | closeWait (caller : CloseCaller) (p : Nat) (retry : Bool)
  | closeLoop (conn : Conn) (drop : Bool)
  | mapWait (conn : Conn) (p : Nat) (c : MapCommand) (added : Bool)
  | unmapWait (conn : Conn) (p : Nat) (c : UnmapCommand)
  | checkLoadWait
  | taExitLoop
  | taExitWait (p : Nat)
  /-- A failed assertion ended the process. -/
  | aborted
deriving DecidableEq, Repr

/-- The client for which the holder of `mutex_mcp` works. -/
def McpThread.client? : McpThread → Option Conn
  | .openWait conn .. | .openDrain conn .. | .closeLoop conn _ | .mapWait conn ..
  | .unmapWait conn .. => some conn
  | .closeWait caller .. => some caller.conn
  | .idle | .checkLoadWait | .taExitLoop | .taExitWait _ | .aborted => none

/-- `processNqConnect` after its answer, in `processQueuedNotifications`. -/
structure NqFlush where
  conn : Conn
  p : Nat
deriving DecidableEq, Repr

/-- `MobiCoreDevice`.  `connectionData` lists the connections that the device is registered with,
`mcpSignals` and `taExitWakeups` count the signals not waited for yet, `nqOut` is the
notification ring towards the secure world.  `nqTested` says whether the flush has tested its session
for a connection, and `crashed` whether it has then used a session or a connection that was gone;
what the other threads would still do is kept in the runs beyond that. -/
structure DeviceState where
  trustletSessions : PtrList TrustletSession
  notifications : List Notification
  notifySessionRemoved : Bool
  mcFault : Bool
  mcpSignals : Nat
  taExitWakeups : Nat
  connectionData : List Conn
  nqOut : List Notification
  mcp : McpThread
  nq : Option NqFlush
  nqTested : Bool
  crashed : Bool
  effects : List Effect

namespace DeviceState

/-- The device after `start`; `mciReused` tells whether it took over an old MCI buffer. -/
def started (mciReused : Bool) : DeviceState where
  trustletSessions := .empty
  notifications := []
  notifySessionRemoved := mciReused
  mcFault := false
  mcpSignals := 0
  taExitWakeups := 0
  connectionData := []
  nqOut := []
  mcp := .idle
  nq := none
  nqTested := false
  crashed := false
  effects := []

@[simp] def emit (s : DeviceState) (e : Effect) : DeviceState :=
  { s with effects := e :: s.effects }

@[simp] def goto (s : DeviceState) (pc : McpThread) : DeviceState := { s with mcp := pc }

@[simp] def modify (s : DeviceState) (p : Nat) (f : TrustletSession → TrustletSession) :
    DeviceState :=
  { s with trustletSessions := s.trustletSessions.modify p f }

/-- `writeResult`, after which the thread has released `mutex_mcp`. -/
@[simp] def answer (s : DeviceState) (conn : Conn) (code : McResult) : DeviceState :=
  (s.emit (.answered conn code)).goto .idle

/-- `getTrustletSession`: the first session with this id. -/
def getTrustletSession (s : DeviceState) (sessionId : UInt32) : Option Nat :=
  s.trustletSessions.find? fun v => v.sessionId == sessionId

/-- `findSession`: look up by id, then check the owner. -/
def findSession (s : DeviceState) (conn : Conn) (sessionId : UInt32) : Option Nat :=
  match s.getTrustletSession sessionId with
  | none => none
  | some p =>
    match s.trustletSessions.get? p with
    | none => none
    | some v => if v.deviceConnection = some conn then some p else none

/-- `putNotification`: nothing when the ring is full. -/
@[simp] def putNotification (s : DeviceState) (n : Notification) : DeviceState :=
  { s with nqOut := if s.nqOut.length < nqNumElems then s.nqOut ++ [n] else s.nqOut }

/-- `TrustZoneDevice::notify`. -/
@[simp] def notifySession (s : DeviceState) (sessionId : UInt32) : DeviceState :=
  s.putNotification ⟨sessionId, 0⟩

/-- Write a command into `mcpMessage`, notify the secure world, and wait at `pc`. -/
@[simp] def mshNotifyAndWait (s : DeviceState) (c : McpCommand) (pc : McpThread) : DeviceState :=
  ((s.emit (.mcp c)).notifySession sidMcp).goto pc

end DeviceState

/-! ## Answers of the secure world -/

/-- What ends a wait in `waitMcpNotification`: a signal, after which `mcpMessage` reads as `rsp`;
no signal in any of the rounds, or a halted secure world; a signal after a handler thread died. -/
inductive McpWake where
  | notified (rsp : McpResponse)
  | silent
  | exiting
deriving DecidableEq, Repr

/-- `waitMcpNotification`, with the message found on success.  After a fault it does not wait. -/
def waitMcpNotification (s : DeviceState) (w : McpWake) :
    Option (Option McpResponse × DeviceState) :=
  if s.mcFault then some (none, s)
  else
    match w with
    | .notified rsp =>
      if s.mcpSignals = 0 then none
      else some (some rsp, { s with mcpSignals := s.mcpSignals - 1 })
    | .silent => some (none, { s with mcFault := true })
    | .exiting =>
      if s.mcpSignals = 0 then none
      else some (none, { s with mcpSignals := s.mcpSignals - 1 })

/-- How open, map, unmap and check-load read the answer. -/
def exchangeResult (cmdId : UInt32) : Option McpResponse → Except McResult McpResponse
  | none => .error mcDrvErrDaemonMciError
  | some rsp =>
    if rsp.rspId ≠ (cmdId ||| flagResponse) then .error mcDrvErrDaemonMciError
    else if rsp.result ≠ mcMcpRetOk then .error (makeMcDrvMcpError rsp.result)
    else .ok rsp

/-- `sendSessionCloseCmd`: the secure world's code as it stands. -/
def sendSessionCloseCmd : Option McpResponse → McResult
  | none => mcDrvErrDaemonMciError
  | some rsp =>
    if rsp.rspId ≠ (mcMcpCmdCloseSession ||| flagResponse) then mcDrvErrDaemonMciError
    else rsp.result

/-- `closeSessionInternal`. -/
def closeSessionInternal (rsp : Option McpResponse) : McResult :=
  let mcRet := sendSessionCloseCmd rsp
  if mcRet = mcMcpRetOk then mcRet else makeMcDrvMcpError mcRet

end McDaemon.Device
