/-
# McDaemon.Proxy.Messages — the messages between the proxy client and the proxy server.

The generated classes of `mc.pb.cpp`, each as a table of its fields.  A field that has not been set
is `none`; what a class does not know stays in `unknownFields`.  Classes of the same shape have one
table.
-/
import McDaemon.Lib.Varint

namespace McDaemon.Proxy.Messages

open McDaemon.Lib

/-! ## The runtime -/

/-- The streams with the types of the fields.  `bytes` is also that of a string. -/
structure Runtime extends WireRuntime where
  bool : Codec Bool
  uint32 : Codec UInt32
  uint64 : Codec UInt64
  sint32 : Codec Int32
  enum : Codec Int32
  bytes : Codec (List UInt8)

/-- What is documented of them.  An `enum` is read from a varint of 32 bits as well. -/
structure Runtime.Documented (R : Runtime) : Prop where
  streams : R.toWireRuntime.Documented
  bool : R.bool.Lawful
  uint32 : R.uint32.Lawful
  uint64 : R.uint64.Lawful
  sint32 : R.sint32.Lawful
  enum : R.enum.Lawful
  bytes : R.bytes.Lawful
  enum_varint32 : ∀ value rest,
    R.enum.read (R.writeVarint32 value.toUInt32 ++ rest) = some (value, rest)

/-- Wire types. -/
def varintType : UInt32 := 0
def delimitedType : UInt32 := 2

/-- `LoginType`. -/
inductive LoginType where
  | loginPublic
  | loginUser
  | loginGroup
  | loginApplication
  | loginUserApplication
  | loginGroupApplication
deriving DecidableEq, Repr

namespace LoginType

def toInt : LoginType → Int32
  | .loginPublic => 0
  | .loginUser => 1
  | .loginGroup => 2
  | .loginApplication => 4
  | .loginUserApplication => 5
  | .loginGroupApplication => 6

/-- `LoginType_IsValid`, with the value. -/
def ofInt (value : Int32) : Option LoginType :=
  if value = 0 then some .loginPublic
  else if value = 1 then some .loginUser
  else if value = 2 then some .loginGroup
  else if value = 4 then some .loginApplication
  else if value = 5 then some .loginUserApplication
  else if value = 6 then some .loginGroupApplication
  else none

theorem ofInt_toInt (t : LoginType) : ofInt t.toInt = some t := by cases t <;> rfl

end LoginType

variable (R : Runtime)

section

variable {M S : Type} (number tag : UInt32) (required : Bool)

def bytesField (get : M → Option (List UInt8)) (set : List UInt8 → M → M) : WireField M :=
  .single R.toWireRuntime number delimitedType tag required R.bytes get set

def boolField (get : M → Option Bool) (set : Bool → M → M) : WireField M :=
  .single R.toWireRuntime number varintType tag required R.bool get set

def uint32Field (get : M → Option UInt32) (set : UInt32 → M → M) : WireField M :=
  .single R.toWireRuntime number varintType tag required R.uint32 get set

def uint64Field (get : M → Option UInt64) (set : UInt64 → M → M) : WireField M :=
  .single R.toWireRuntime number varintType tag required R.uint64 get set

def sint32Field (get : M → Option Int32) (set : Int32 → M → M) : WireField M :=
  .single R.toWireRuntime number varintType tag required R.sint32 get set

def loginTypeField (get : M → Option LoginType) (set : LoginType → M → M)
    (addUnknown : List UInt8 → M → M) : WireField M :=
  .enum R.toWireRuntime number varintType tag required R.enum LoginType.toInt LoginType.ofInt get
    set addUnknown

def buffersField (sub : MessageClass S) (get : M → List S) (append : List S → M → M) :
    WireField M :=
  .messages R.toWireRuntime number delimitedType tag sub get append

end

/-! ## The classes -/

/-- A class without fields: `CloseSessionResponse`, `NotifyResponse`, `UnmapResponse`,
`GetVersionRequest` and `GpRequestCancellationResponse`. -/
structure Empty where
  unknownFields : List UInt8 := []
deriving DecidableEq, Repr

def Empty.cls : MessageClass Empty where
  empty := {}
  fields := []
  unknown := Empty.unknownFields
  setUnknown w m := { m with unknownFields := w }

/-- A class with a session id: `OpenSessionResponse`, `OpenTrustletResponse`,
`CloseSessionRequest`, `GetErrorRequest` and `GpRequestCancellationRequest`. -/
structure SessionId where
  id : Option UInt32 := none
  unknownFields : List UInt8 := []
deriving DecidableEq, Repr

def SessionId.cls : MessageClass SessionId where
  empty := {}
  fields := [uint32Field R 1 8 true SessionId.id fun a m => { m with id := some a }]
  unknown := SessionId.unknownFields
  setUnknown w m := { m with unknownFields := w }

structure OpenSessionRequest where
  uuid : Option (List UInt8) := none
  isGpUuid : Option Bool := none
  tci : Option (List UInt8) := none
  loginType : Option LoginType := none
  loginData : Option (List UInt8) := none
  unknownFields : List UInt8 := []
deriving DecidableEq, Repr

def OpenSessionRequest.addUnknown (w : List UInt8) (m : OpenSessionRequest) :
    OpenSessionRequest :=
  { m with unknownFields := m.unknownFields ++ w }

def OpenSessionRequest.cls : MessageClass OpenSessionRequest where
  empty := {}
  fields := [
    bytesField R 1 10 true OpenSessionRequest.uuid fun a m => { m with uuid := some a },
    boolField R 2 16 true OpenSessionRequest.isGpUuid fun a m => { m with isGpUuid := some a },
    bytesField R 3 26 false OpenSessionRequest.tci fun a m => { m with tci := some a },
    loginTypeField R 4 32 true OpenSessionRequest.loginType
      (fun a m => { m with loginType := some a }) OpenSessionRequest.addUnknown,
    bytesField R 5 42 true OpenSessionRequest.loginData
      fun a m => { m with loginData := some a }]
  unknown := OpenSessionRequest.unknownFields
  setUnknown w m := { m with unknownFields := w }

structure OpenTrustletRequest where
  spid : Option UInt32 := none
  trustapp : Option (List UInt8) := none
  tci : Option (List UInt8) := none
  unknownFields : List UInt8 := []
deriving DecidableEq, Repr

def OpenTrustletRequest.cls : MessageClass OpenTrustletRequest where
  empty := {}
  fields := [
    uint32Field R 1 8 true OpenTrustletRequest.spid fun a m => { m with spid := some a },
    bytesField R 2 18 true OpenTrustletRequest.trustapp fun a m => { m with trustapp := some a },
    bytesField R 3 26 false OpenTrustletRequest.tci fun a m => { m with tci := some a }]
  unknown := OpenTrustletRequest.unknownFields
  setUnknown w m := { m with unknownFields := w }

/-- The contents of a buffer: `NotifyRequest_Buffers` and `WaitNotificationResponse_Buffers`. -/
structure BufferData where
  sva : Option UInt64 := none
  data : Option (List UInt8) := none
  unknownFields : List UInt8 := []
deriving DecidableEq, Repr

def BufferData.cls : MessageClass BufferData where
  empty := {}
  fields := [
    uint64Field R 1 8 true BufferData.sva fun a m => { m with sva := some a },
    bytesField R 2 18 true BufferData.data fun a m => { m with data := some a }]
  unknown := BufferData.unknownFields
  setUnknown w m := { m with unknownFields := w }

structure NotifyRequest where
  sid : Option UInt32 := none
  tci : Option (List UInt8) := none
  buffers : List BufferData := []
  unknownFields : List UInt8 := []
deriving DecidableEq, Repr

def NotifyRequest.cls : MessageClass NotifyRequest where
  empty := {}
  fields := [
    uint32Field R 1 8 true NotifyRequest.sid fun a m => { m with sid := some a },
    bytesField R 2 18 false NotifyRequest.tci fun a m => { m with tci := some a },
    buffersField R 3 26 (BufferData.cls R) NotifyRequest.buffers
      fun l m => { m with buffers := m.buffers ++ l }]
  unknown := NotifyRequest.unknownFields
  setUnknown w m := { m with unknownFields := w }

structure WaitNotificationRequest where
  sid : Option UInt32 := none
  timeout : Option Int32 := none
  isPartial : Option Bool := none
  unknownFields : List UInt8 := []
deriving DecidableEq, Repr

def WaitNotificationRequest.cls : MessageClass WaitNotificationRequest where
  empty := {}
  fields := [
    uint32Field R 1 8 true WaitNotificationRequest.sid fun a m => { m with sid := some a },
    sint32Field R 2 16 true WaitNotificationRequest.timeout
      fun a m => { m with timeout := some a },
    boolField R 3 24 true WaitNotificationRequest.isPartial
      fun a m => { m with isPartial := some a }]
  unknown := WaitNotificationRequest.unknownFields
  setUnknown w m := { m with unknownFields := w }

structure WaitNotificationResponse where
  tci : Option (List UInt8) := none
  buffers : List BufferData := []
  unknownFields : List UInt8 := []
deriving DecidableEq, Repr

def WaitNotificationResponse.cls : MessageClass WaitNotificationResponse where
  empty := {}
  fields := [
    bytesField R 1 10 false WaitNotificationResponse.tci fun a m => { m with tci := some a },
    buffersField R 2 18 (BufferData.cls R) WaitNotificationResponse.buffers
      fun l m => { m with buffers := m.buffers ++ l }]
  unknown := WaitNotificationResponse.unknownFields
  setUnknown w m := { m with unknownFields := w }

/-- `MapRequest_Buffers`. -/
structure BufferSize where
  len : Option UInt32 := none
  flags : Option UInt32 := none
  unknownFields : List UInt8 := []
deriving DecidableEq, Repr

def BufferSize.cls : MessageClass BufferSize where
  empty := {}
  fields := [
    uint32Field R 1 8 true BufferSize.len fun a m => { m with len := some a },
    uint32Field R 2 16 true BufferSize.flags fun a m => { m with flags := some a }]
  unknown := BufferSize.unknownFields
  setUnknown w m := { m with unknownFields := w }

/-- The address of a buffer: `MapResponse_Buffers` and `UnmapRequest_Buffers`. -/
structure BufferAddress where
  sva : Option UInt64 := none
  unknownFields : List UInt8 := []
deriving DecidableEq, Repr

def BufferAddress.cls : MessageClass BufferAddress where
  empty := {}
  fields := [uint64Field R 1 8 true BufferAddress.sva fun a m => { m with sva := some a }]
  unknown := BufferAddress.unknownFields
  setUnknown w m := { m with unknownFields := w }

structure MapRequest where
  sid : Option UInt32 := none
  buffers : List BufferSize := []
  unknownFields : List UInt8 := []
deriving DecidableEq, Repr

def MapRequest.cls : MessageClass MapRequest where
  empty := {}
  fields := [
    uint32Field R 1 8 true MapRequest.sid fun a m => { m with sid := some a },
    buffersField R 2 18 (BufferSize.cls R) MapRequest.buffers
      fun l m => { m with buffers := m.buffers ++ l }]
  unknown := MapRequest.unknownFields
  setUnknown w m := { m with unknownFields := w }

structure MapResponse where
  buffers : List BufferAddress := []
  unknownFields : List UInt8 := []
deriving DecidableEq, Repr

def MapResponse.cls : MessageClass MapResponse where
  empty := {}
  fields := [
    buffersField R 1 10 (BufferAddress.cls R) MapResponse.buffers
      fun l m => { m with buffers := m.buffers ++ l }]
  unknown := MapResponse.unknownFields
  setUnknown w m := { m with unknownFields := w }

structure UnmapRequest where
  sid : Option UInt32 := none
  buffers : List BufferAddress := []
  unknownFields : List UInt8 := []
deriving DecidableEq, Repr

def UnmapRequest.cls : MessageClass UnmapRequest where
  empty := {}
  fields := [
    uint32Field R 1 8 true UnmapRequest.sid fun a m => { m with sid := some a },
    buffersField R 2 18 (BufferAddress.cls R) UnmapRequest.buffers
      fun l m => { m with buffers := m.buffers ++ l }]
  unknown := UnmapRequest.unknownFields
  setUnknown w m := { m with unknownFields := w }

structure GetErrorResponse where
  exitCode : Option Int32 := none
  unknownFields : List UInt8 := []
deriving DecidableEq, Repr

def GetErrorResponse.cls : MessageClass GetErrorResponse where
  empty := {}
  fields := [
    sint32Field R 1 8 true GetErrorResponse.exitCode fun a m => { m with exitCode := some a }]
  unknown := GetErrorResponse.unknownFields
  setUnknown w m := { m with unknownFields := w }

structure GetVersionResponse where
  productId : Option (List UInt8) := none
  mci : Option UInt32 := none
  so : Option UInt32 := none
  mclf : Option UInt32 := none
  container : Option UInt32 := none
  mcConfig : Option UInt32 := none
  tlApi : Option UInt32 := none
  drApi : Option UInt32 := none
  nwd : Option UInt32 := none
  unknownFields : List UInt8 := []
deriving DecidableEq, Repr

def GetVersionResponse.cls : MessageClass GetVersionResponse where
  empty := {}
  fields := [
    bytesField R 1 10 true GetVersionResponse.productId fun a m => { m with productId := some a },
    uint32Field R 2 16 true GetVersionResponse.mci fun a m => { m with mci := some a },
    uint32Field R 3 24 true GetVersionResponse.so fun a m => { m with so := some a },
    uint32Field R 4 32 true GetVersionResponse.mclf fun a m => { m with mclf := some a },
    uint32Field R 5 40 true GetVersionResponse.container fun a m => { m with container := some a },
    uint32Field R 6 48 true GetVersionResponse.mcConfig fun a m => { m with mcConfig := some a },
    uint32Field R 7 56 true GetVersionResponse.tlApi fun a m => { m with tlApi := some a },
    uint32Field R 8 64 true GetVersionResponse.drApi fun a m => { m with drApi := some a },
    uint32Field R 9 72 true GetVersionResponse.nwd fun a m => { m with nwd := some a }]
  unknown := GetVersionResponse.unknownFields
  setUnknown w m := { m with unknownFields := w }

/-! ## The messages of a method -/

/-- `RpcMethod`. -/
inductive RpcMethod where
  | openSession
  | openTrustlet
  | closeSession
  | notify
  | wait
  | map
  | unmap
  | getError
  | getVersion
  | gpRequestCancellation
deriving DecidableEq, Repr

/-- Which way a message goes. -/
inductive Side where
  | request
  | response
deriving DecidableEq, Repr

/-- The class of the messages of a method. -/
def Message : Side → RpcMethod → Type
  | .request, .openSession => OpenSessionRequest
  | .request, .openTrustlet => OpenTrustletRequest
  | .request, .closeSession => SessionId
  | .request, .notify => NotifyRequest
  | .request, .wait => WaitNotificationRequest
  | .request, .map => MapRequest
  | .request, .unmap => UnmapRequest
  | .request, .getError => SessionId
  | .request, .getVersion => Empty
  | .request, .gpRequestCancellation => SessionId
  | .response, .openSession => SessionId
  | .response, .openTrustlet => SessionId
  | .response, .closeSession => Empty
  | .response, .notify => Empty
  | .response, .wait => WaitNotificationResponse
  | .response, .map => MapResponse
  | .response, .unmap => Empty
  | .response, .getError => GetErrorResponse
  | .response, .getVersion => GetVersionResponse
  | .response, .gpRequestCancellation => Empty

/-- Its table. -/
def cls : (side : Side) → (method : RpcMethod) → MessageClass (Message side method)
  | .request, .openSession => OpenSessionRequest.cls R
  | .request, .openTrustlet => OpenTrustletRequest.cls R
  | .request, .closeSession => SessionId.cls R
  | .request, .notify => NotifyRequest.cls R
  | .request, .wait => WaitNotificationRequest.cls R
  | .request, .map => MapRequest.cls R
  | .request, .unmap => UnmapRequest.cls R
  | .request, .getError => SessionId.cls R
  | .request, .getVersion => Empty.cls
  | .request, .gpRequestCancellation => SessionId.cls R
  | .response, .openSession => SessionId.cls R
  | .response, .openTrustlet => SessionId.cls R
  | .response, .closeSession => Empty.cls
  | .response, .notify => Empty.cls
  | .response, .wait => WaitNotificationResponse.cls R
  | .response, .map => MapResponse.cls R
  | .response, .unmap => Empty.cls
  | .response, .getError => GetErrorResponse.cls R
  | .response, .getVersion => GetVersionResponse.cls R
  | .response, .gpRequestCancellation => Empty.cls

variable (side : Side) (method : RpcMethod)

/-- `SerializeToString`. -/
def serializeToString (m : Message side method) : List UInt8 := (cls R side method).serialize m

/-- `ByteSize`. -/
def byteSize (m : Message side method) : Nat := (cls R side method).byteSize m

/-- `IsInitialized`. -/
def isInitialized (m : Message side method) : Bool := (cls R side method).isInitialized m

/-- `MergeFrom`.  The fields are merged in the order of the table; no two of them share data. -/
def mergeFrom (source m : Message side method) : Message side method :=
  (cls R side method).mergeFrom source m

/-- `ParseFromString`. -/
def parseFromString (bs : List UInt8) : Option (Message side method) :=
  (cls R side method).parse R.toWireRuntime bs

end McDaemon.Proxy.Messages
