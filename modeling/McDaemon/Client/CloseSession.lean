/-
# McDaemon.Client.CloseSession — closing a session from the client's side.

Closing a session is what a failing open would have to do with what it has brought about so far: the
daemon is told to close, and the destructor of the session object takes every handle it knows out of
the kernel module.  After an open that has succeeded, a close that succeeds restores the session
list, the registered handles and the sessions of the daemon.
-/
import McDaemon.Client.OpenAtomicity

namespace McDaemon.Client

open McDaemon.Lib
open McDaemon.Lib.Attempt

/-- What the kernel module, the socket and the daemon do during one close. -/
structure CloseAnswers where
  sendCommand : Bool
  /-- The daemon closes the session. -/
  closed : Bool
  response : List UInt8
  unregisterWsmL2 : UInt32 → Bool

/-- `Device::resolveSessionId`. -/
def Device.resolveSessionId (device : Device) (sessionId : UInt32) : Option Session :=
  device.sessionList.find? (·.sessionId = sessionId)

/-- `Device::removeSession`. -/
def Device.removeSession (device : Device) (sessionId : UInt32) : Device :=
  { device with sessionList := device.sessionList.eraseP (·.sessionId = sessionId) }

/-- `Session::~Session`, as far as the kernel module is concerned.  A handle that it does not let go
of is passed over. -/
def unregisterAll (a : CloseAnswers) (session : Session) (registered : List UInt32) : List UInt32 :=
  session.bulkBufferDescriptors.foldl (fun registered bulkBuf =>
    if a.unregisterWsmL2 bulkBuf.handle then registered.erase bulkBuf.handle else registered)
    registered

/-- `CHECK_SESSION`. -/
def checkSession (session : Option Session) : Call Session :=
  match session with
  | none => throw mcDrvErrUnknownSession
  | some session => pure session

/-- The loop body of `mcCloseSession_`. -/
def closeSession (a : CloseAnswers) (sessionId : UInt32) : Call Unit := do
  let device ← checkDevice
  let session ← checkSession (device.resolveSessionId sessionId)
  sendToDaemon a.sendCommand (.closeSession sessionId)
  modify fun w =>
    { w with daemonSessions :=
        if a.closed then w.daemonSessions.erase sessionId else w.daemonSessions }
  let mcResult := mcResultOf (← recvFromDaemon a.response 4)
  if mcResult ≠ mcDrvOk then throw mcDrvErrUnknownDevice
  modify fun w =>
    { w with
      device := w.device.map (·.removeSession sessionId)
      registered := unregisterAll a session w.registered }

/-- `mcCloseSession_`.  A dead connection invalidates the device. -/
def mcCloseSession_ (a : CloseAnswers) (sessionId : UInt32) : Call Unit :=
  tryCatch (closeSession a sessionId) fun mcResult => do
    if mcResult = mcDrvErrSocketWrite ∨ mcResult = mcDrvErrSocketRead then
      modify fun w => { w with device := w.device.map ({ · with isValid := false }) }
    throw mcResult

/-- The daemon closes what it is told to, and the kernel module lets go of every handle. -/
structure CloseAnswers.Accept (a : CloseAnswers) : Prop where
  sendCommand : a.sendCommand = true
  closed : a.closed = true
  response : Arrives a.response 4 ∧ mcResultOf (a.response.take 4) = mcDrvOk
  unregisterWsmL2 : ∀ handle, a.unregisterWsmL2 handle = true

/-- Where the kernel module lets go of every handle, those that have been registered last are gone
again. -/
theorem unregisterAll_append {a : CloseAnswers} (ha : ∀ handle, a.unregisterWsmL2 handle = true)
    {sessionId : UInt32} {bulkBuf : Option BulkBufferDescriptor} {registered : List UInt32}
    (hfresh : ∀ b ∈ bulkBuf, b.handle ∉ registered) :
    unregisterAll a ⟨sessionId, bulkBuf.toList⟩
      (registered ++ bulkBuf.toList.map (·.handle)) = registered := by
  cases bulkBuf with
  | none => exact List.append_nil registered
  | some b =>
    have hb : b.handle ∉ registered := hfresh b rfl
    show (if a.unregisterWsmL2 b.handle then (registered ++ [b.handle]).erase b.handle
      else registered ++ [b.handle]) = registered
    rw [if_pos (ha b.handle), List.erase_append_right _ hb]
    simp

/-- The session object and the session in the daemon go by the id; every handle goes that the
object knows. -/
theorem closeSession_ends {a : CloseAnswers} {w : World} {sessionId : UInt32} {device : Device}
    {session : Session} (ha : a.Accept) (hdevice : w.device = some device)
    (hsession : device.resolveSessionId sessionId = some session) {P : Unit → World → Prop}
    {Q : McResult → World → Prop} :
    Ends P Q (mcCloseSession_ a sessionId) w ↔
      P () { w with
        device := some (device.removeSession sessionId)
        registered := unregisterAll a session w.registered
        daemonSessions := w.daemonSessions.erase sessionId
        sent := w.sent ++ [.closeSession sessionId] } := by
  obtain ⟨hread, hok⟩ := ha.response
  unfold mcCloseSession_ closeSession
  rw [ends_tryCatch, ends_bind, ends_checkDevice, hdevice]
  dsimp only
  rw [hsession]
  simp [checkSession, ends_sendToDaemon, ends_recvFromDaemon 4, ha.sendCommand, ha.closed, hread,
    hok, hdevice]

/-- **Closing undoes opening.** For a session id and a handle that were not in use before. -/
theorem close_undoes_open {call : OpenCall} {a : Answers} {c : CloseAnswers} {w : World}
    (hopen : (call.run a w).1 = mcDrvOk) (hc : c.Accept)
    (htold : a.opened = some (call.run a w).2.sessionId)
    (hid : ∀ device, w.device = some device →
      device.resolveSessionId (call.run a w).2.sessionId = none)
    (hsession : (call.run a w).2.sessionId ∉ w.daemonSessions)
    (hhandle : ∀ handle, a.registerWsmL2 = .ok handle → handle ∉ w.registered) :
    Ends (fun _ t => Undone w t) (fun _ _ => False)
      (mcCloseSession_ c (call.run a w).2.sessionId) (call.run a w).2 := by
  obtain ⟨device, bulkBuf, hdevice, hbulkBuf, hafter, hregistered, hsessions⟩ :=
    OpenCall.opened_of_ok hopen
  have hnone : device.sessionList.find? (·.sessionId = (call.run a w).2.sessionId) = none :=
    hid device hdevice
  have hfind : (device.createNewSession (call.run a w).2.sessionId bulkBuf).resolveSessionId
      (call.run a w).2.sessionId = some ⟨(call.run a w).2.sessionId, bulkBuf.toList⟩ := by
    simp [Device.resolveSessionId, Device.createNewSession, hnone]
  rw [closeSession_ends hc hafter hfind]
  constructor
  · -- no other session goes by the id, so the new one is the one that is removed
    have hother : ∀ session ∈ device.sessionList,
        ¬ decide (session.sessionId = (call.run a w).2.sessionId) = true := by
      exact List.find?_eq_none.mp hnone
    rw [hdevice]
    show some (List.eraseP _ _) = some device.sessionList
    rw [Device.createNewSession, List.eraseP_append_right _ hother]
    simp
  · show unregisterAll c _ (call.run a w).2.registered = w.registered
    rw [hregistered]
    exact unregisterAll_append hc.unregisterWsmL2 fun b hb => hhandle b.handle (hbulkBuf b hb)
  · show (call.run a w).2.daemonSessions.erase _ = w.daemonSessions
    rw [hsessions, htold, List.erase_append_right _ hsession]
    simp

end McDaemon.Client
