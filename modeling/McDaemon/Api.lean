/-
# McDaemon.Api — result codes, MCP commands and notifications.

The numeric vocabulary that the client API, the daemon and the secure world share.  Several
daemon codes are defined as aliases in the API header; they are aliases here too, so that two
codes are equal exactly when the header makes them equal.
-/
import Mathlib.Init

namespace McDaemon

/-! ## Driver result codes -/

/-- `mcResult_t`. -/
abbrev McResult := UInt32

def mcDrvOk : McResult := 0x00000000
def mcDrvErrOutOfResources : McResult := 0x00000004
def mcDrvErrUnknown : McResult := 0x00000006
def mcDrvErrUnknownDevice : McResult := 0x00000007
def mcDrvErrUnknownSession : McResult := 0x00000008
def mcDrvErrInvalidOperation : McResult := 0x00000009
def mcDrvErrNoFreeMemory : McResult := 0x0000000c
def mcDrvErrSessionPending : McResult := 0x0000000e
def mcDrvErrDaemonUnreachable : McResult := 0x0000000f
def mcDrvErrInvalidDeviceFile : McResult := 0x00000010
def mcDrvErrInvalidParameter : McResult := 0x00000011
def mcDrvErrNqFailed : McResult := 0x00000016
def mcDrvErrWrongPublicKey : McResult := 0x00000019
def mcDrvErrContainerTypeMismatch : McResult := 0x0000001a
def mcDrvErrContainerLocked : McResult := 0x0000001b
def mcDrvErrSpNoChild : McResult := 0x0000001c
def mcDrvErrTlNoChild : McResult := 0x0000001d
def mcDrvErrUnwrapRootFailed : McResult := 0x0000001e
def mcDrvErrUnwrapSpFailed : McResult := 0x0000001f
def mcDrvErrUnwrapTrustletFailed : McResult := 0x00000020
def mcDrvErrDaemonDeviceNotOpen : McResult := 0x00000021
def mcDrvErrTaHeaderError : McResult := 0x00000021
def mcDrvErrTaAttestationError : McResult := 0x00000022

abbrev mcDrvErrDeviceAlreadyOpen : McResult := mcDrvErrInvalidOperation
abbrev mcDrvErrTrustletNotFound : McResult := mcDrvErrInvalidDeviceFile
abbrev mcDrvErrDaemonKmodError : McResult := mcDrvErrDaemonUnreachable
abbrev mcDrvErrDaemonMciError : McResult := mcDrvErrDaemonUnreachable
abbrev mcDrvErrMcpError : McResult := mcDrvErrDaemonUnreachable
abbrev mcDrvErrDaemonSocket : McResult := mcDrvErrDaemonUnreachable
abbrev mcDrvErrSocketConnect : McResult := mcDrvErrDaemonUnreachable
abbrev mcDrvErrSocketWrite : McResult := mcDrvErrDaemonUnreachable
abbrev mcDrvErrSocketRead : McResult := mcDrvErrDaemonUnreachable
abbrev mcDrvErrSocketLength : McResult := mcDrvErrDaemonUnreachable
abbrev mcDrvErrNullPointer : McResult := mcDrvErrInvalidParameter
abbrev mcDrvErrTciTooBig : McResult := mcDrvErrInvalidParameter
abbrev mcDrvErrWsmNotFound : McResult := mcDrvErrInvalidParameter
abbrev mcDrvErrDaemonWsmHandleNotFound : McResult := mcDrvErrInvalidParameter
abbrev mcDrvErrTciGreaterThanWsm : McResult := mcDrvErrInvalidParameter
abbrev mcDrvErrDaemonUnknownSession : McResult := mcDrvErrUnknownSession

/-- `MAKE_MC_DRV_MCP_ERROR`: a secure-world code in the upper part of a driver code. -/
def makeMcDrvMcpError (mcpCode : UInt32) : McResult :=
  mcDrvErrMcpError ||| ((mcpCode &&& 0x000fffff) <<< 8)

/-- `MC_DRV_ERROR_MAJOR`: the driver's part of a code. -/
def mcDrvErrorMajor (ecode : McResult) : UInt32 := ecode &&& 0xff

/-- `MC_DRV_ERROR_MCP`: the secure world's part of a code. -/
def mcDrvErrorMcp (ecode : McResult) : UInt32 := (ecode >>> 8) &&& 0xff

/-- `MC_DEVICE_ID_DEFAULT`. -/
def mcDeviceIdDefault : UInt32 := 0

/-- `MC_MAX_TCI_LEN`. -/
def mcMaxTciLen : UInt32 := 0x100000

/-! ## MobiCore Control Protocol -/

def mcMcpRetOk : UInt32 := 0
def mcMcpRetErrWrongPublicKey : UInt32 := 16
def mcMcpRetErrContainerTypeMismatch : UInt32 := 17
def mcMcpRetErrContainerLocked : UInt32 := 18
def mcMcpRetErrSpNoChild : UInt32 := 19
def mcMcpRetErrTlNoChild : UInt32 := 20
def mcMcpRetErrUnwrapRootFailed : UInt32 := 21
def mcMcpRetErrUnwrapSpFailed : UInt32 := 22
def mcMcpRetErrUnwrapTrustletFailed : UInt32 := 23
def mcMcpRetErrCloseTaskFailed : UInt32 := 28

def mcMcpCmdOpenSession : UInt32 := 0x00000001
def mcMcpCmdCloseSession : UInt32 := 0x00000003
def mcMcpCmdMap : UInt32 := 0x00000004
def mcMcpCmdUnmap : UInt32 := 0x00000005

/-- `FLAG_RESPONSE`: set in the command id of an answer. -/
def flagResponse : UInt32 := 0x80000000

/-- The session id under which the secure world's own control channel is notified. -/
def sidMcp : UInt32 := 0

/-- What the daemon reads of an MCP answer: the response header, and the fields of the open and
map answers that follow it. -/
structure McpResponse where
  rspId : UInt32
  result : UInt32
  sessionId : UInt32
  secureVirtualAdr : UInt32
deriving DecidableEq, Repr

/-! ## Notifications -/

/-- `notification_t`. -/
structure Notification where
  sessionId : UInt32
  payload : Int32
deriving DecidableEq, Repr

/-- `NQ_NUM_ELEMS`: slots in each direction of the notification queue. -/
def nqNumElems : Nat := 16

/-- A `Connection` object of the daemon, by name. -/
abbrev Conn := Nat

@[simp] theorem daemonUnreachable_ne_ok : mcDrvErrDaemonUnreachable ≠ mcDrvOk := by decide

@[simp] theorem invalidParameter_ne_ok : mcDrvErrInvalidParameter ≠ mcDrvOk := by decide

@[simp] theorem deviceNotOpen_ne_ok : mcDrvErrDaemonDeviceNotOpen ≠ mcDrvOk := by decide

/-- `MAKE_MC_DRV_MCP_ERROR` never yields the success code, whatever the secure world said. -/
theorem makeMcDrvMcpError_ne_ok (c : UInt32) : makeMcDrvMcpError c ≠ mcDrvOk := by
  intro h
  have hmajor : mcDrvErrMcpError = 0 := (UInt32.or_eq_zero_iff.mp h).1
  exact absurd hmajor (by decide)

end McDaemon
