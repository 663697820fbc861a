/-
# McDaemon.Daemon.Command — the commands that `readCommand` lets through, and their wire format.

A command is its 4-byte id, a fixed part, and for the commands that carry a trustlet or a
registry object as many bytes of data as a length field in the fixed part says.
-/
import McDaemon.Api
import McDaemon.Lib.Bytes

namespace McDaemon.Daemon

open McDaemon.Lib

/-- The commands of the driver protocol that the daemon handles. -/
inductive DrvCommand
  | openDevice
  | closeDevice
  | nqConnect
  | openSession
  | closeSession
  | notify
  | mapBulkBuf
  | unmapBulkBuf
  | getVersion
  | getMobiCoreVersion
  | openTrustlet
  | openTrustedApp
  | regStoreAuthToken
  | regReadAuthToken
  | regDeleteAuthToken
  | regReadRootCont
  | regWriteRootCont
  | regDeleteRootCont
  | regReadSpCont
  | regWriteSpCont
  | regDeleteSpCont
  | regReadTlCont
  | regWriteTlCont
  | regDeleteTlCont
  | regWriteSoData
  | regStoreTaBlob
deriving DecidableEq, Repr

/-- `MC_DRV_CMD_*` and `MC_DRV_REG_*`. -/
def DrvCommand.commandId : DrvCommand → UInt32
  | .openDevice => 2
  | .closeDevice => 3
  | .nqConnect => 4
  | .openSession => 5
  | .closeSession => 6
  | .notify => 7
  | .mapBulkBuf => 8
  | .unmapBulkBuf => 9
  | .getVersion => 10
  | .getMobiCoreVersion => 11
  | .openTrustlet => 12
  | .openTrustedApp => 13
  | .regStoreAuthToken => 0x100000
  | .regReadAuthToken => 0x100001
  | .regDeleteAuthToken => 0x100002
  | .regReadRootCont => 0x100003
  | .regWriteRootCont => 0x100004
  | .regDeleteRootCont => 0x100005
  | .regReadSpCont => 0x100006
  | .regWriteSpCont => 0x100007
  | .regDeleteSpCont => 0x100008
  | .regReadTlCont => 0x100009
  | .regWriteTlCont => 0x10000A
  | .regDeleteTlCont => 0x10000B
  | .regWriteSoData => 0x10000C
  | .regStoreTaBlob => 0x10000D

/-- The commands in the order of their ids. -/
def DrvCommand.all : List DrvCommand :=
  [.openDevice, .closeDevice, .nqConnect, .openSession, .closeSession, .notify, .mapBulkBuf,
   .unmapBulkBuf, .getVersion, .getMobiCoreVersion, .openTrustlet, .openTrustedApp,
   .regStoreAuthToken, .regReadAuthToken, .regDeleteAuthToken, .regReadRootCont,
   .regWriteRootCont, .regDeleteRootCont, .regReadSpCont, .regWriteSpCont, .regDeleteSpCont,
   .regReadTlCont, .regWriteTlCont, .regDeleteTlCont, .regWriteSoData, .regStoreTaBlob]

/-- The command with an id; `PING`, `GET_INFO` and unknown ids have none. -/
def DrvCommand.ofId (id : Nat) : Option DrvCommand :=
  DrvCommand.all.find? fun c => c.commandId.toNat = id

theorem DrvCommand.ofId_commandId (c : DrvCommand) : DrvCommand.ofId c.commandId.toNat = some c := by
  cases c <;> decide

/-! ## Wire format -/

/-- The ids that a registry command carries before its object: an spid, or a uuid and an spid. -/
def DrvCommand.idFields : DrvCommand → List Nat
  | .regReadSpCont | .regWriteSpCont | .regDeleteSpCont | .regStoreTaBlob => [4]
  | .regReadTlCont | .regWriteTlCont | .regDeleteTlCont => [16, 4]
  | _ => []

/-- The commands that `processRegistryWriteData` handles. -/
def DrvCommand.isRegistryWrite : DrvCommand → Bool
  | .regStoreAuthToken | .regWriteRootCont | .regWriteSpCont | .regWriteTlCont | .regWriteSoData
  | .regStoreTaBlob => true
  | _ => false

/-- The length of the fixed part that follows the id. -/
def DrvCommand.fixedSize (c : DrvCommand) : Nat :=
  match c with
  | .openDevice => 4
  | .closeDevice | .getVersion | .getMobiCoreVersion => 0
  | .nqConnect => 16
  | .openSession | .openTrustedApp => 32
  | .openTrustlet => 24
  | .closeSession | .notify => 4
  | .mapBulkBuf => 20
  | .unmapBulkBuf => 16
  | _ => (if c.isRegistryWrite then 4 else 0) + c.idFields.sum

/-- The number of data bytes that the fixed part announces. -/
def DrvCommand.dataSize (c : DrvCommand) (fixed : List UInt8) : Nat :=
  if c = .openTrustlet then ofLe ((fixed.drop 8).take 4)
  else if c.isRegistryWrite then ofLe (fixed.take 4)
  else 0

/-- A well-formed command of a client. -/
structure WireCommand where
  command : DrvCommand
  fixed : List UInt8
  data : List UInt8
  length_fixed : fixed.length = command.fixedSize
  length_data : data.length = command.dataSize fixed

/-- The command as the client sends it. -/
def WireCommand.bytes (w : WireCommand) : List UInt8 :=
  le32 w.command.commandId ++ (w.fixed ++ w.data)

end McDaemon.Daemon
