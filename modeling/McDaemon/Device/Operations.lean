/-
# McDaemon.Device.Operations — open, close, map, unmap, notify and clean-up, section by section.

The sections of `MobiCoreDevice`'s operations and of the daemon's handlers that call them, in the
order of the source.  Every section is a function of the device state; one that ends in a wait
says so by the value it leaves in `mcp`.
-/
import McDaemon.Device.State

namespace McDaemon.Device

open McDaemon.Lib

/-! ## Opening a session -/

/-- What `new TrustletSession` gets from the allocator and from `rand()`. -/
structure NewSession where
  deviceSessionId : UInt32
  sessionMagic : UInt32
deriving DecidableEq, Repr

namespace OpenCommand

/-- Whether the open comes with a TCI that is looked up and locked. -/
def hasTci (c : OpenCommand) : Bool := c.tciHandle ≠ 0 && c.tciLen ≠ 0

/-- The TCI buffer and its length as the kernel module knows it. -/
def findTci (c : OpenCommand) : Option (TciBuffer × UInt32) :=
  if c.hasTci then
    match c.kmod.findContiguousWsm with
    | some (tci, len) => some (⟨.contiguous, tci, 0⟩, len)
    | none =>
      -- the length of a mapping that is not contiguous is taken from the client
      if c.kmod.findWsmL2 ≠ 0 then some (⟨.l2, c.kmod.findWsmL2, c.tciOffset⟩, c.tciLen) else none
  else some (⟨.invalid, 0, c.tciOffset⟩, 0)

/-- The code that an open which failed with `code` answers, after its blob is no longer shared. -/
def returnCode (c : OpenCommand) (code : McResult) : McResult :=
  if c.kmod.unregisterWsmL2 then code else mcDrvErrDaemonKmodError

end OpenCommand

/-- The session that an accepted open creates, with its TCI recorded. -/
def newSession (conn : Conn) (ld : LoadData) (c : OpenCommand) (new : NewSession)
    (sessionId : UInt32) : TrustletSession :=
  let v := { TrustletSession.new new.deviceSessionId new.sessionMagic conn sessionId with
    gpLevel := ld.gpLevel }
  if c.hasTci then { v with buffers := (v.buffers.addBulkBuff ⟨ld.len, c.tciHandle, 0⟩).2 } else v

namespace DeviceState

/-- The calls on the TCI of an open, when it has one. -/
def lockTci (s : DeviceState) (c : OpenCommand) : DeviceState :=
  if c.hasTci then s.emit (.lockWsm c.tciHandle) else s

def unlockTci (s : DeviceState) (c : OpenCommand) : DeviceState :=
  if c.hasTci then s.emit (.unlockWsm c.tciHandle none) else s

/-- `openSession` up to its exchange. -/
def openSession (s : DeviceState) (conn : Conn) (ld : LoadData) (c : OpenCommand) :
    DeviceState :=
  match c.findTci with
  | none => s.answer conn (c.returnCode mcDrvErrDaemonWsmHandleNotFound)
  | some (tci, len) =>
    if c.hasTci && !c.kmod.lockWsmL2 then
      s.answer conn (c.returnCode mcDrvErrDaemonWsmHandleNotFound)
    else if (c.tciHandle ≠ 0 && c.tciLen = 0) || c.tciLen > len then
      -- a TCI that was locked stays locked
      (s.lockTci c).answer conn (c.returnCode mcDrvErrTciGreaterThanWsm)
    else
      { s.lockTci c with notifications := [] }.mshNotifyAndWait
        (.openSession tci c.tciLen ld.len) (.openWait conn ld c)

/-- `processOpenSession` and `processOpenTrustlet`, up to the exchange of `openSession`. -/
def processOpenSession (s : DeviceState) (conn : Conn) (c : OpenCommand) : DeviceState :=
  if conn ∉ s.connectionData then s.answer conn mcDrvErrDaemonDeviceNotOpen
  else
    match c.load with
    | none => s.answer conn mcDrvErrTrustletNotFound
    | some ld =>
      if c.kmod.registerWsmL2 then s.openSession conn ld c
      else s.answer conn mcDrvErrDaemonKmodError

/-- The lock of the TCI now counts for the session. -/
def creditTci (s : DeviceState) (c : OpenCommand) (p : Nat) : DeviceState :=
  if c.hasTci then s.emit (.credited p c.tciHandle) else s

/-- `openSession` after its exchange, up to the loop over the parked notifications. -/
def openSessionAnswer (s : DeviceState) (conn : Conn) (ld : LoadData) (c : OpenCommand)
    (new : NewSession) (rsp : Option McpResponse) : DeviceState :=
  match exchangeResult mcMcpCmdOpenSession rsp with
  | .error e => (s.unlockTci c).answer conn (c.returnCode e)
  | .ok r =>
    let p := s.trustletSessions.fresh
    let s := { s with trustletSessions :=
      s.trustletSessions.push (newSession conn ld c new r.sessionId) }
    (s.creditTci c p).goto
      (.openDrain conn p ⟨new.deviceSessionId, r.sessionId, new.sessionMagic⟩
        c.kmod.unregisterWsmL2)

/-- `queueNotification` on the session behind `p`. -/
def queueNotification (s : DeviceState) (p : Nat) (n : Notification) : DeviceState :=
  match s.trustletSessions.get? p with
  | none => s
  | some v =>
    let s := s.modify p fun v => v.queueNotification n
    if v.accepts n then s.emit (.queued p v.sessionId n) else s

/-- One round of the loop at the end of `openSession`, and the handler's answer after it. -/
def openSessionDrain (s : DeviceState) (conn : Conn) (p : Nat) (rsp : OpenSessionPayload)
    (unregisterWsmL2 : Bool) : DeviceState :=
  match s.notifications with
  | n :: ns => { s.queueNotification p n with notifications := ns }
  | [] =>
    if unregisterWsmL2 then (s.emit (.answeredOpen conn rsp)).goto .idle
    else s.answer conn mcDrvErrDaemonKmodError

/-! ## Closing sessions and devices -/

/-- `delete` on a connection pointer. -/
def deleteConnection (s : DeviceState) : Option Conn → DeviceState
  | none => s
  | some conn => s.emit (.deletedConnection conn)

/-- The return from `closeSession`: the handler answers, the loop of `close` only logs. -/
def closeSessionReturn (s : DeviceState) (caller : CloseCaller) (code : McResult) : DeviceState :=
  match caller with
  | .client conn => s.answer conn code
  | .device conn drop => s.goto (.closeLoop conn drop)

/-- `closeSession`, first part: a GP session is cut off from its client before the exchange. -/
def disconnectGp (s : DeviceState) (p : Nat) (v : TrustletSession) : DeviceState :=
  if v.gpLevel = 1 then
    (s.deleteConnection v.notificationConnection).modify p fun v =>
      { v with deviceConnection := none, notificationConnection := none, sessionState := .closeSend }
  else s

/-- `closeSession` up to its exchange. -/
def closeSession (s : DeviceState) (caller : CloseCaller) (sessionId : UInt32) : DeviceState :=
  match s.findSession caller.conn sessionId with
  | none => s.closeSessionReturn caller mcDrvErrDaemonUnknownSession
  | some p =>
    match s.trustletSessions.get? p with
    | none => s.closeSessionReturn caller mcDrvErrDaemonUnknownSession
    | some v =>
      (s.disconnectGp p v).mshNotifyAndWait (.closeSession v.sessionId) (.closeWait caller p false)

/-- The loop of `freeSession` over `popBulkBuff`, on the recorded buffers in map order. -/
def unlockBuffers (s : DeviceState) (p : Nat) : List CWsm → DeviceState
  | [] => s
  | w :: ws => (s.emit (.unlockWsm w.handle (some p))).unlockBuffers p ws

/-- Take a session off the list and delete it. -/
def removeSession (s : DeviceState) (p : Nat) (v : TrustletSession) : DeviceState :=
  ({ s with trustletSessions := s.trustletSessions.remove p }.emit (.removed p)).deleteConnection
    v.notificationConnection

/-- `freeSession`. -/
def freeSession (s : DeviceState) (p : Nat) (v : TrustletSession) : DeviceState :=
  (s.unlockBuffers p v.buffers.entries).removeSession p v

/-- `closeSession` after an exchange; `retry` tells the second one. -/
def closeSessionAnswer (s : DeviceState) (caller : CloseCaller) (p : Nat) (retry : Bool)
    (rsp : Option McpResponse) : DeviceState :=
  match s.trustletSessions.get? p with
  | none => s.goto .aborted -- a dangling pointer; `mutex_mcp` keeps others from removing it
  | some v =>
    let mcRet := closeSessionInternal rsp
    if retry && mcRet ≠ mcMcpRetOk then s.goto .aborted
    else if v.gpLevel = 1 ∧ mcRet = makeMcDrvMcpError mcMcpRetErrCloseTaskFailed then
      if v.sessionState = .taDead then
        s.mshNotifyAndWait (.closeSession v.sessionId) (.closeWait caller p true)
      else s.closeSessionReturn caller mcMcpRetOk
    else if mcRet ≠ mcMcpRetOk then s.closeSessionReturn caller (makeMcDrvMcpError mcRet)
    else (s.freeSession p v).closeSessionReturn caller mcMcpRetOk

/-- `processCloseSession`. -/
def processCloseSession (s : DeviceState) (conn : Conn) (sessionId : UInt32) : DeviceState :=
  if conn ∉ s.connectionData then s.answer conn mcDrvErrDaemonDeviceNotOpen
  else s.closeSession (.client conn) sessionId

/-- `processOpenDevice`. -/
def processOpenDevice (s : DeviceState) (conn : Conn) (deviceId : UInt32) : DeviceState :=
  if conn ∈ s.connectionData then s.answer conn mcDrvErrDeviceAlreadyOpen
  else if deviceId ≠ mcDeviceIdDefault then s.answer conn mcDrvErrUnknownDevice
  else { s with connectionData := conn :: s.connectionData }.answer conn mcDrvOk

/-- `processCloseDevice`, up to the loop of `close`. -/
def processCloseDevice (s : DeviceState) (conn : Conn) : DeviceState :=
  if conn ∉ s.connectionData then s.answer conn mcDrvErrDaemonDeviceNotOpen
  else s.goto (.closeLoop conn false)

/-- `dropConnection`, up to the loop of `close`. -/
def dropConnection (s : DeviceState) (conn : Conn) : DeviceState :=
  if conn ∉ s.connectionData then s else s.goto (.closeLoop conn true)

/-- The end of `close`, and the answer when a client waits for one. -/
def closeReturn (s : DeviceState) (conn : Conn) (drop : Bool) : DeviceState :=
  let s := { s.emit .cleanupWsm with
    connectionData := s.connectionData.filter fun c => c ≠ conn }
  if drop then s.goto .idle else s.answer conn mcDrvOk

/-- The session that the loop of `close` finds, searching from the back. -/
def lastOwned (s : DeviceState) (conn : Conn) : Option Nat :=
  s.trustletSessions.findRev? fun v => v.deviceConnection == some conn

/-- One round of the loop of `close`. -/
def closeRound (s : DeviceState) (conn : Conn) (drop : Bool) : DeviceState :=
  match s.lastOwned conn with
  | none => s.closeReturn conn drop
  | some p =>
    match s.trustletSessions.get? p with
    | none => s.closeReturn conn drop
    | some v => s.closeSession (.device conn drop) v.sessionId

/-! ## Mapping and unmapping -/

/-- `mapBulk` up to its exchange.  The buffer is recorded first; a refusal is not looked at. -/
def mapBulk (s : DeviceState) (conn : Conn) (c : MapCommand) : DeviceState :=
  match s.findSession conn c.sessionId with
  | none => s.answer conn mcDrvErrDaemonUnknownSession
  | some p =>
    match s.trustletSessions.get? p with
    | none => s.answer conn mcDrvErrDaemonUnknownSession
    | some v =>
      let w : CWsm := ⟨c.lenBulkMem, c.handle, c.kmod.findWsmL2⟩
      (s.modify p fun v => { v with buffers := (v.buffers.addBulkBuff w).2 }).mshNotifyAndWait
        (.map c.sessionId c.kmod.findWsmL2 c.offsetPayload c.lenBulkMem)
        (.mapWait conn p c (v.buffers.addBulkBuff w).1)

/-- `processMapBulkBuf` up to the exchange of `mapBulk`.  Once locked, the handle stays locked on
every error path. -/
def processMapBulkBuf (s : DeviceState) (conn : Conn) (c : MapCommand) : DeviceState :=
  if conn ∉ s.connectionData then s.answer conn mcDrvErrDaemonDeviceNotOpen
  else if !c.kmod.lockWsmL2 then s.answer conn mcDrvErrDaemonWsmHandleNotFound
  else if c.kmod.findWsmL2 = 0 then
    (s.emit (.lockWsm c.handle)).answer conn mcDrvErrDaemonWsmHandleNotFound
  else (s.emit (.lockWsm c.handle)).mapBulk conn c

/-- `mapBulk` and `processMapBulkBuf` after the exchange. -/
def mapBulkAnswer (s : DeviceState) (conn : Conn) (p : Nat) (c : MapCommand)
    (rsp : Option McpResponse) : DeviceState :=
  match exchangeResult mcMcpCmdMap rsp with
  | .error e => s.answer conn e
  | .ok r =>
    ((s.emit (.credited p c.handle)).emit
      (.answeredMap conn c.sessionId r.secureVirtualAdr)).goto .idle

/-- `processUnmapBulkBuf` and `unmapBulk` up to the exchange. -/
def processUnmapBulkBuf (s : DeviceState) (conn : Conn) (c : UnmapCommand) : DeviceState :=
  if conn ∉ s.connectionData then s.answer conn mcDrvErrDaemonDeviceNotOpen
  else
    match s.findSession conn c.sessionId with
    | none => s.answer conn mcDrvErrDaemonUnknownSession
    | some p =>
      match s.trustletSessions.get? p with
      | none => s.answer conn mcDrvErrDaemonUnknownSession
      | some v =>
        if v.buffers.findBulkBuff c.handle c.lenBulkMem then
          s.mshNotifyAndWait (.unmap c.sessionId c.secureVirtualAdr c.lenBulkMem)
            (.unmapWait conn p c)
        else s.answer conn mcDrvErrDaemonWsmHandleNotFound

/-- `unmapBulk` and `processUnmapBulkBuf` after the exchange. -/
def unmapBulkAnswer (s : DeviceState) (conn : Conn) (p : Nat) (c : UnmapCommand)
    (rsp : Option McpResponse) : DeviceState :=
  match exchangeResult mcMcpCmdUnmap rsp with
  | .error e => s.answer conn e
  | .ok _ =>
    ((s.modify p fun v => { v with buffers := (v.buffers.removeBulkBuff c.handle).2 }).emit
      (.unlockWsm c.handle (some p))).answer conn mcDrvOk

/-! ## Clean-up of dead sessions -/

/-- The session that the scan of `handleTaExit` finds. -/
def firstDead (s : DeviceState) : Option Nat :=
  s.trustletSessions.find? fun v => v.sessionState == .taDead

/-- One round of the loop of `handleTaExit`, up to its exchange. -/
def taExitRound (s : DeviceState) : DeviceState :=
  match s.firstDead with
  | none => s.goto .idle
  | some p =>
    match s.trustletSessions.get? p with
    | none => s.goto .idle
    | some v => s.mshNotifyAndWait (.closeSession v.sessionId) (.taExitWait p)

/-- `handleTaExit` after the exchange: on success the session is deleted with what it holds. -/
def taExitAnswer (s : DeviceState) (p : Nat) (rsp : Option McpResponse) : DeviceState :=
  match s.trustletSessions.get? p with
  | none => s.goto .aborted
  | some v =>
    if closeSessionInternal rsp = mcDrvOk then (s.removeSession p v).goto .taExitLoop
    else s.goto .taExitLoop

/-! ## Notifications -/

/-- `handleIrq` for one notification of the secure world. -/
def handleIrq (s : DeviceState) (n : Notification) : DeviceState :=
  if n.sessionId = sidMcp then { s with mcpSignals := s.mcpSignals + 1 }
  else
    match s.getTrustletSession n.sessionId with
    | none =>
      let s := { s with notifications := s.notifications ++ [n] }
      let s := if s.notifySessionRemoved then s.notifySession n.sessionId else s
      { s with notifySessionRemoved := false }
    | some p =>
      match s.trustletSessions.get? p with
      | none => s
      | some v =>
        match v.notificationConnection with
        | some conn => s.emit (.forwarded p v.sessionId conn n)
        | none =>
          let s := s.queueNotification p n
          if v.deviceConnection = none then { s with taExitWakeups := s.taExitWakeups + 1 } else s

/-- `registerTrustletConnection`: the first session that the three values name. -/
def registerTrustletConnection (s : DeviceState) (c : NqConnectCommand) : Option Nat :=
  s.trustletSessions.find? fun v =>
    v.deviceSessionId == c.deviceSessionId && v.sessionMagic == c.sessionMagic &&
      v.sessionId == c.sessionId

/-- `processNqConnect` up to the end of the section under the list lock. -/
def processNqConnect (s : DeviceState) (conn : Conn) (c : NqConnectCommand) : DeviceState :=
  if conn ∈ s.connectionData then s.emit (.answered conn mcDrvErrNqFailed)
  else
    let s := s.emit (.detachedConnection conn)
    if c.deviceId ≠ mcDeviceIdDefault then s.emit (.answered conn mcDrvErrUnknownDevice)
    else
      match s.registerTrustletConnection c with
      | none => s.emit (.answered conn mcDrvErrUnknown)
      | some p =>
        { (s.modify p fun v => { v with notificationConnection := some conn }).emit
            (.answered conn mcDrvOk) with nq := some ⟨conn, p⟩, nqTested := false }

/-- The flush goes through a pointer to a session that has been deleted, or through `NULL`. -/
def crash (s : DeviceState) : DeviceState := { s with nq := none, crashed := true }

/-- One round of `processQueuedNotifications`: the test for a connection, which is made once, or the
next turn of its loop. -/
def processQueuedNotifications (s : DeviceState) (p : Nat) : DeviceState :=
  match s.trustletSessions.get? p with
  | none => s.crash
  | some v =>
    if s.nqTested = false then
      if v.notificationConnection = none then { s with nq := none } else { s with nqTested := true }
    else
      match v.notifications, v.notificationConnection with
      | [], _ => { s with nq := none }
      | _ :: _, none => s.crash
      | n :: ns, some conn =>
        (s.modify p fun v => { v with notifications := ns }).emit
          (.forwarded p v.sessionId conn n)

/-- `processNotify` and `MobiCoreDevice::notify`; there is no answer. -/
def processNotify (s : DeviceState) (conn : Conn) (sessionId : UInt32) : DeviceState :=
  if conn ∉ s.connectionData then s
  else
    match s.findSession conn sessionId with
    | none => s
    | some _ => s.notifySession sessionId

/-- The effect of `checkLoad` and of `loadToken` on the parked notifications. -/
def clearNotifications (s : DeviceState) : DeviceState := { s with notifications := [] }

end DeviceState

end McDaemon.Device
