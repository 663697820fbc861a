/-
# McDaemon.Client.OpenSession — opening a session from the client's side.

An open call takes up to four steps that leave something behind: the TCI is registered with the
kernel module, the daemon opens the session, a second connection is set up for notifications, and
the device gets a session object.  After each of them the next one may fail, and the call returns.
What a failing call has done is then left as it is: the descriptor of the TCI is deleted, but its
handle stays registered, and the daemon is not told.
-/
import McDaemon.Api
import McDaemon.Lib.Attempt
import McDaemon.Lib.Bytes
import McDaemon.Registry.Container

namespace McDaemon.Client

open McDaemon.Lib
open McDaemon.Lib.Attempt
open McDaemon.Registry (Uuid Spid)

/-! ## Devices and sessions of the client -/

/-- An address of the caller.  0 is `NULL`. -/
abbrev Addr := UInt64

/-- `CWsm`, a contiguous buffer that has been allocated for the caller. -/
structure CWsm where
  virtAddr : Addr
  len : UInt32
  handle : UInt32
deriving DecidableEq, Repr

/-- `BulkBufferDescriptor`.  It has no destructor. -/
structure BulkBufferDescriptor where
  virtAddr : Addr
  sVirtualAddr : UInt32
  len : UInt32
  handle : UInt32
deriving DecidableEq, Repr

/-- `Session`. -/
structure Session where
  sessionId : UInt32
  bulkBufferDescriptors : List BulkBufferDescriptor
deriving DecidableEq, Repr

/-- `Device`. -/
structure Device where
  sessionList : List Session
  wsmL2List : List CWsm
  isValid : Bool
deriving DecidableEq, Repr

/-- The commands the client has sent, without their ids. -/
inductive Request
  | openSession (deviceId : UInt32) (uuid : Uuid) (tci handle len : UInt32)
  | openTrustlet (deviceId : UInt32) (spid : Spid) (trustletLen tci handle len : UInt32)
  | openTrustedApp (deviceId : UInt32) (uuid : Uuid) (tci handle len : UInt32)
  | trustletData (bytes : List UInt8)
  | nqConnect (deviceId sessionId deviceSessionId sessionMagic : UInt32)
  | closeSession (sessionId : UInt32)
deriving DecidableEq, Repr

/-- What a call finds and leaves: the caller's device (`none` is `NULL`) and `*sessionId`, the
handles registered with the kernel module, the sessions open in the daemon, and what has been
sent. -/
structure World where
  device : Option Device
  sessionId : UInt32
  registered : List UInt32
  daemonSessions : List UInt32
  sent : List Request
deriving DecidableEq, Repr

/-- A call of the client library. -/
abbrev Call := Attempt World McResult

/-- `Device::findContiguousWsm`. -/
def Device.findContiguousWsm (device : Device) (virtAddr : Addr) : Option CWsm :=
  if virtAddr = 0 then none else device.wsmL2List.find? (virtAddr = ·.virtAddr)

/-- `Device::createNewSession`, and `Session::addBulkBuf` of a buffer that is registered. -/
def Device.createNewSession (device : Device) (sessionId : UInt32)
    (bulkBuf : Option BulkBufferDescriptor) : Device :=
  { device with sessionList := device.sessionList ++ [⟨sessionId, bulkBuf.toList⟩] }

/-! ## What the others answer -/

/-- What the kernel module, the sockets and the daemon do during one open call.  What a read gets is
a list of bytes, empty when the read fails. -/
structure Answers where
  /-- The handle of the TCI, or an error. -/
  registerWsmL2 : Except McResult UInt32
  sendCommand : Bool
  sendTrustlet : Bool
  /-- The session that the daemon opens on the command, if it does. -/
  opened : Option UInt32
  response : List UInt8
  payload : List UInt8
  /-- What the variable of the payload holds before it is read. -/
  stack : List UInt8
  connect : Bool
  sendNqConnect : Bool
  nqResponse : List UInt8

/-- `CHECK_DEVICE`. -/
def checkDevice : Call Device := do
  match (← get).device with
  | none => throw mcDrvErrDaemonDeviceNotOpen
  | some device => pure device

/-- `CHECK_NOT_NULL`. -/
def checkNotNull {α : Type} (x : Option α) : Call α :=
  match x with
  | none => throw mcDrvErrNullPointer
  | some a => pure a

/-- `SEND_TO_DAEMON`. -/
def sendToDaemon (sent : Bool) (r : Request) : Call Unit := do
  if sent = false then throw mcDrvErrSocketWrite
  modify fun w => { w with sent := w.sent ++ [r] }

/-- `RECV_FROM_DAEMON` into a structure of `size` bytes.  As many bytes as a header has are taken
for any structure. -/
def recvFromDaemon (got : List UInt8) (size : Nat) : Call (List UInt8) := do
  let read := got.take size
  if read = [] then throw mcDrvErrSocketRead
  if read.length ≠ size ∧ read.length ≠ 4 then throw mcDrvErrSocketLength
  pure read

/-- A result code off the wire. -/
def mcResultOf (bytes : List UInt8) : McResult := UInt32.ofNat (ofLe bytes)

/-- `Device::mapBulkBuf`. -/
def mapBulkBuf (a : Answers) (buf : Addr) (len : UInt32) : Call BulkBufferDescriptor :=
  match a.registerWsmL2 with
  | .error ret => throw ret
  | .ok handle => do
    modify fun w => { w with registered := w.registered ++ [handle] }
    pure ⟨buf, 0, len, handle⟩

/-- The daemon gets the whole of an open command. -/
def daemonOpens (a : Answers) : Call Unit :=
  modify fun w => { w with daemonSessions := w.daemonSessions ++ a.opened.toList }

/-! ## The open calls -/

/-- How an open call reports what the daemon answered. -/
def openError (mcResult : McResult) : McResult :=
  if mcDrvErrorMajor mcResult ≠ mcDrvErrMcpError then mcResult
  else
    let mcpResult := mcDrvErrorMcp mcResult
    if mcpResult = mcMcpRetErrWrongPublicKey then mcDrvErrWrongPublicKey
    else if mcpResult = mcMcpRetErrContainerTypeMismatch then mcDrvErrContainerTypeMismatch
    else if mcpResult = mcMcpRetErrContainerLocked then mcDrvErrContainerLocked
    else if mcpResult = mcMcpRetErrSpNoChild then mcDrvErrSpNoChild
    else if mcpResult = mcMcpRetErrTlNoChild then mcDrvErrTlNoChild
    else if mcpResult = mcMcpRetErrUnwrapRootFailed then mcDrvErrUnwrapRootFailed
    else if mcpResult = mcMcpRetErrUnwrapSpFailed then mcDrvErrUnwrapSpFailed
    else if mcpResult = mcMcpRetErrUnwrapTrustletFailed then mcDrvErrUnwrapTrustletFailed
    else mcDrvErrMcpError

/-- The handle the daemon gets for the TCI, and the descriptor of the TCI if it has been mapped.
`maps`: a TCI in no contiguous buffer is mapped. -/
def tciHandle (a : Answers) (maps : Bool) (device : Device) (tci : Addr) (len : UInt32) :
    Call (UInt32 × Option BulkBufferDescriptor) := do
  match device.findContiguousWsm tci with
  | none =>
    if maps then
      -- the kernel module's own error is not passed on
      let bulkBuf ← tryCatch (mapBulkBuf a tci len) fun _ => throw mcDrvErrWsmNotFound
      pure (bulkBuf.handle, some bulkBuf)
    else
      if len ≠ 0 then throw mcDrvErrTciGreaterThanWsm
      pure (0, none)
  | some pWsm =>
    if pWsm.len < len then throw mcDrvErrTciGreaterThanWsm
    pure (pWsm.handle, none)

/-- What the open calls do once the command is sent. -/
def connectSession (a : Answers) (bulkBuf : Option BulkBufferDescriptor) : Call Unit := do
  let mcResult := mcResultOf (← recvFromDaemon a.response 4)
  if mcResult ≠ mcDrvOk then throw (openError mcResult)
  let read ← recvFromDaemon a.payload 12
  let rsp := read ++ a.stack.drop read.length
  let sessionId := UInt32.ofNat (ofLe (rsp.take 4))
  let deviceSessionId := UInt32.ofNat (ofLe ((rsp.drop 4).take 4))
  let sessionMagic := UInt32.ofNat (ofLe ((rsp.drop 8).take 4))
  modify fun w => { w with sessionId := sessionId }
  -- from here on the daemon has a session that only a second connection makes usable
  if a.connect = false then throw mcDrvErrSocketConnect
  sendToDaemon a.sendNqConnect (.nqConnect 0 sessionId deviceSessionId sessionMagic)
  let mcResult := mcResultOf (← recvFromDaemon a.nqResponse 4)
  if mcResult ≠ mcDrvOk then throw mcResult
  modify fun w => { w with device := w.device.map (·.createNewSession sessionId bulkBuf) }

/-- `(uint32_t)((uintptr_t)tci & 0xFFF)`. -/
def pageOffset (tci : Addr) : UInt32 := (tci &&& 0xfff).toUInt32

/-- An open call that names a UUID, with the command it sends. -/
def openByUuid (command : UInt32 → Uuid → UInt32 → UInt32 → UInt32 → Request) (a : Answers)
    (uuid : Option Uuid) (tci : Addr) (len : UInt32) : Call Unit := do
  let device ← checkDevice
  let uuid ← checkNotNull uuid
  if len > mcMaxTciLen then throw mcDrvErrTciTooBig
  let (handle, bulkBuf) ← tciHandle a (tci ≠ 0 ∧ len ≠ 0) device tci len
  sendToDaemon a.sendCommand (command 0 uuid (pageOffset tci) handle len)
  daemonOpens a
  connectSession a bulkBuf

/-- `mcOpenSession_`. -/
def mcOpenSession_ : Answers → Option Uuid → Addr → UInt32 → Call Unit :=
  openByUuid .openSession

/-- `mcOpenGPTA_`. -/
def mcOpenGPTA_ : Answers → Option Uuid → Addr → UInt32 → Call Unit :=
  openByUuid .openTrustedApp

/-- The trustlet has been sent, which an empty one always is. -/
def trustletSent (a : Answers) (tlen : UInt32) : Bool := a.sendTrustlet || tlen == 0

/-- `writeData` of `len` bytes: the length as an `int`, or -1. -/
def writeData (sent : Bool) (len : UInt32) : Int32 := if sent then len.toInt32 else -1

/-- `mcOpenTrustlet_`.  From 2 GiB on the length of what has been sent is taken for an error. -/
def mcOpenTrustlet_ (a : Answers) (spid : Spid) (trustlet : Option (List UInt8)) (tlen : UInt32)
    (tci : Addr) (len : UInt32) : Call Unit := do
  let device ← checkDevice
  let trustlet ← checkNotNull trustlet
  if tci = 0 then throw mcDrvErrNullPointer
  if len > mcMaxTciLen then throw mcDrvErrTciTooBig
  let (handle, bulkBuf) ← tciHandle a true device tci len
  sendToDaemon a.sendCommand (.openTrustlet 0 spid tlen (pageOffset tci) handle len)
  if trustletSent a tlen then
    -- now the command is complete, whatever the length makes of it below
    modify fun w => { w with sent := w.sent ++ [.trustletData (trustlet.take tlen.toNat)] }
    daemonOpens a
  if writeData (trustletSent a tlen) tlen < 0 then throw mcDrvErrSocketWrite
  connectSession a bulkBuf

/-- No handle for the TCI: it is longer than its contiguous buffer, the kernel module does not
register it, or there is none. -/
def TciRefused (a : Answers) (maps : Bool) (device : Device) (tci : Addr) (len : UInt32) : Prop :=
  match device.findContiguousWsm tci with
  | some pWsm => pWsm.len < len
  | none => if maps = true then ∃ ret, a.registerWsmL2 = .error ret else len ≠ 0

/-- The open calls with their arguments. -/
inductive OpenCall
  | session (uuid : Option Uuid) (tci : Addr) (len : UInt32)
  | trustlet (spid : Spid) (data : Option (List UInt8)) (tlen : UInt32) (tci : Addr)
      (len : UInt32)
  | gpta (uuid : Option Uuid) (tci : Addr) (len : UInt32)
deriving DecidableEq, Repr

namespace OpenCall

def body (a : Answers) : OpenCall → Call Unit
  | session uuid tci len => mcOpenSession_ a uuid tci len
  | trustlet spid data tlen tci len => mcOpenTrustlet_ a spid data tlen tci len
  | gpta uuid tci len => mcOpenGPTA_ a uuid tci len

/-- The result code of an open call, and what it leaves. -/
def run (call : OpenCall) (a : Answers) (w : World) : McResult × World :=
  match start (call.body a) w with
  | (.ok _, t) => (mcDrvOk, t)
  | (.error e, t) => (e, t)

def tci : OpenCall → Addr
  | session _ tci _ | gpta _ tci _ | trustlet _ _ _ tci _ => tci

def len : OpenCall → UInt32
  | session _ _ len | gpta _ _ len | trustlet _ _ _ _ len => len

/-- A pointer is `NULL` that must not be. -/
def NullArgument : OpenCall → Prop
  | session uuid _ _ | gpta uuid _ _ => uuid = none
  | trustlet _ data _ tci _ => data = none ∨ tci = 0

/-- A TCI in no contiguous buffer is mapped. -/
def mapsTci : OpenCall → Bool
  | session _ tci len | gpta _ tci len => tci ≠ 0 ∧ len ≠ 0
  | trustlet _ _ _ _ _ => true

/-- The TCI has to be registered with the kernel module. -/
def Maps (call : OpenCall) (w : World) : Prop :=
  ∃ device, w.device = some device ∧ device.findContiguousWsm call.tci = none ∧
    call.mapsTci = true

/-- Turned down before the daemon is asked: for an argument, or by the kernel module. -/
def Refused (call : OpenCall) (a : Answers) (w : World) : Prop :=
  call.NullArgument ∨ mcMaxTciLen < call.len ∨
    match w.device with
    | none => True
    | some device => TciRefused a call.mapsTci device call.tci call.len

/-- The daemon gets the whole command. -/
def commandSent (a : Answers) : OpenCall → Bool
  | session _ _ _ | gpta _ _ _ => a.sendCommand
  | trustlet _ _ tlen _ _ => a.sendCommand && trustletSent a tlen

/-- The length of the trustlet is one that an `int` holds. -/
def FitsInt : OpenCall → Prop
  | session _ _ _ | gpta _ _ _ => True
  | trustlet _ _ tlen _ _ => tlen < 0x80000000

/-- The daemon opens no session. -/
def NothingOpened (call : OpenCall) (a : Answers) : Prop :=
  call.commandSent a = false ∨ a.opened = none

end OpenCall

/-! ## How the steps end -/

/-- A read into `size` bytes gets all of them, or as many as a header has. -/
def Arrives (got : List UInt8) (size : Nat) : Prop :=
  (got.take size).length = size ∨ (got.take size).length = 4

/-- Everything behind the command succeeds. -/
structure Answers.Accept (a : Answers) : Prop where
  response : Arrives a.response 4 ∧ mcResultOf (a.response.take 4) = mcDrvOk
  payload : Arrives a.payload 12
  connect : a.connect = true
  sendNqConnect : a.sendNqConnect = true
  nqResponse : Arrives a.nqResponse 4 ∧ mcResultOf (a.nqResponse.take 4) = mcDrvOk

/-- All goes well once the TCI has its handle. -/
def OpenCall.Succeeds (call : OpenCall) (a : Answers) : Prop :=
  call.commandSent a = true ∧ call.FitsInt ∧ a.Accept

theorem openError_ne_ok {mcResult : McResult} (h : mcResult ≠ mcDrvOk) :
    openError mcResult ≠ mcDrvOk := by
  have hite : ∀ {c : Prop} [Decidable c] {a b : McResult}, a ≠ mcDrvOk → b ≠ mcDrvOk →
      (if c then a else b) ≠ mcDrvOk := by
    intro c _ a b ha hb
    split
    · exact ha
    · exact hb
  unfold openError
  apply hite h
  dsimp only
  repeat' apply hite
  all_goals decide

/-- `writeData` reports an error where it has failed, and where its length is no `int`. -/
theorem writeData_neg_iff {sent : Bool} {len : UInt32} :
    writeData sent len < 0 ↔ sent = false ∨ ¬ len < 0x80000000 := by
  cases sent with
  | false => simp [writeData]
  | true =>
    have hint : len.toInt32.toInt = len.toBitVec.toInt := rfl
    have hlen := len.toNat_lt
    rw [writeData, if_pos rfl, Int32.lt_iff_toInt_lt, hint, BitVec.toInt_eq_toNat_cond,
      UInt32.lt_iff_toNat_lt]
    simp only [UInt32.toNat_toBitVec, Int32.toInt_zero, Bool.true_eq_false, false_or,
      UInt32.reduceToNat]
    split_ifs
    · omega
    · omega

section Steps

variable {α : Type} {P : α → World → Prop} {Q : McResult → World → Prop} {a : Answers} {w : World}

theorem ends_checkDevice {P : Device → World → Prop} : Ends P Q checkDevice w ↔
    match w.device with
    | none => Q mcDrvErrDaemonDeviceNotOpen w
    | some device => P device w := by
  unfold checkDevice
  rw [ends_bind, ends_get]
  cases w.device with
  | none => exact ends_throw
  | some device => exact ends_pure

theorem ends_checkNotNull {x : Option α} : Ends P Q (checkNotNull x) w ↔
    match x with
    | none => Q mcDrvErrNullPointer w
    | some a => P a w := by
  cases x with
  | none => exact ends_throw
  | some a => exact ends_pure

theorem ends_sendToDaemon {P : Unit → World → Prop} {sent : Bool} {r : Request} :
    Ends P Q (sendToDaemon sent r) w ↔
      (sent = true → P () { w with sent := w.sent ++ [r] }) ∧
        (sent = false → Q mcDrvErrSocketWrite w) := by
  unfold sendToDaemon
  cases sent with
  | true => simp
  | false => simp

theorem ends_recvFromDaemon {P : List UInt8 → World → Prop} {got : List UInt8} (size : Nat)
    (hsize : 0 < size) : Ends P Q (recvFromDaemon got size) w ↔
      (Arrives got size → P (got.take size) w) ∧
        (¬ Arrives got size → Q mcDrvErrDaemonUnreachable w) := by
  have hempty : got.take size = [] → ¬ Arrives got size := by
    intro h
    simp [Arrives, h, hsize.ne]
  have hcut : (got.take size).length ≠ size ∧ (got.take size).length ≠ 4 ↔ ¬ Arrives got size :=
    not_or.symm
  simp only [recvFromDaemon, ends_bind, ends_ite, ends_throw, ends_pure, hcut, not_not]
  by_cases hread : got.take size = []
  · simp [hread, hempty hread]
  · simp [hread, and_comm]

theorem ends_mapBulkBuf {P : BulkBufferDescriptor → World → Prop} {buf : Addr} {len : UInt32} :
    Ends P Q (mapBulkBuf a buf len) w ↔
      match a.registerWsmL2 with
      | .error ret => Q ret w
      | .ok handle =>
        P ⟨buf, 0, len, handle⟩ { w with registered := w.registered ++ [handle] } := by
  unfold mapBulkBuf
  cases a.registerWsmL2 with
  | error ret => exact ends_throw
  | ok handle => simp only [ends_bind, ends_modify, ends_pure]

/-- What a failing call leaves of the TCI: nothing where it has only been looked up, and where it
has been mapped, a handle that nobody knows any more. -/
theorem ends_tciHandle {P : UInt32 × Option BulkBufferDescriptor → World → Prop} {maps : Bool}
    {device : Device} {tci : Addr} {len : UInt32} : Ends P Q (tciHandle a maps device tci len) w ↔
      match device.findContiguousWsm tci with
      | some pWsm =>
        (pWsm.len < len → Q mcDrvErrTciGreaterThanWsm w) ∧
          (¬ pWsm.len < len → P (pWsm.handle, none) w)
      | none =>
        if maps = true then
          match a.registerWsmL2 with
          | .error _ => Q mcDrvErrWsmNotFound w
          | .ok handle => P (handle, some ⟨tci, 0, len, handle⟩)
              { w with registered := w.registered ++ [handle] }
        else (len ≠ 0 → Q mcDrvErrTciGreaterThanWsm w) ∧ (¬ len ≠ 0 → P (0, none) w) := by
  unfold tciHandle
  cases device.findContiguousWsm tci with
  | some pWsm => simp only [ends_bind, ends_ite, ends_throw, ends_pure]
  | none =>
    cases maps with
    | true =>
      simp only [if_true, ends_bind, ends_tryCatch, ends_mapBulkBuf, ends_throw, ends_pure]
    | false => simp only [Bool.false_eq_true, if_false, ends_bind, ends_ite, ends_throw, ends_pure]

end Steps

end McDaemon.Client
