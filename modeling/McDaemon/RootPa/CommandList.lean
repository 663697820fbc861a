/-
# McDaemon.RootPa.CommandList — the commands of a request, and the results they are answered with.

A request of the service enabler is a list of commands.  Uploads are executed while the document is
parsed; commands for the content management trustlet are collected, and executed as a batch behind
that.  The results of the batch come first in the response, then those of the uploads.

A command carries with it what becomes of it when it is executed.  Allocations succeed.
-/
import McDaemon.Api
import McDaemon.RootPa.Base64

namespace McDaemon.RootPa.Commands

/-- `rootpaerror_t`, as far as commands return it. -/
inductive RootpaError
  | ok
  | commandNotSupported
  | commandExecution
  | registry
  | mobicoreConnection
  | outOfMemory
  | internal
  | xml
  | registryObjectNotAvailable
deriving DecidableEq, Repr

def errorCodeToString : RootpaError → String
  | .commandNotSupported => "COMMAND_NOT_SUPPORTED_ERROR"
  | .registry => "REGISTRY_ERROR"
  | .mobicoreConnection => "MOBICORE_CONNECTION_ERROR"
  | .outOfMemory => "OUT_OF_MEMORY_ERROR"
  | .internal => "INTERNAL_ERROR"
  | .xml => "XML_ERROR"
  | .registryObjectNotAvailable => "REGISTRY_OBJECT_NOT_AVAILABLE"
  -- the service enabler does not know the code of a failed execution
  | .ok | .commandExecution => "INTERNAL_ERROR"

/-! ## Execution in the secure world -/

/-- How the last round of the loop of `executeOneCmpCommand` ends: `mcMap` fails, a container that
the command needs cannot be read, the transmission fails (and the trustlet has been notified or
not), the trustlet does not say that it needs a larger buffer, the buffer cannot be exchanged for a
larger one, or there is a response. -/
inductive Round
  | notMapped (mcRet : McResult)
  | notPrepared (mcRet : McResult)
  | notTransmitted (notified : Bool) (lasterror : McResult)
  | notUnderstood
  | notUnmapped (mcRet : McResult)
  | answered
deriving DecidableEq, Repr

namespace Round

def ret : Round → RootpaError
  | .notPrepared mcRet =>
    if mcRet = mcDrvErrInvalidDeviceFile then .registryObjectNotAvailable else .registry
  | .notMapped _ | .notTransmitted _ _ | .notUnderstood | .notUnmapped _ => .mobicoreConnection
  | .answered => .ok

def intRet : Round → UInt32
  | .notMapped mcRet | .notPrepared mcRet | .notTransmitted _ mcRet | .notUnmapped mcRet => mcRet
  | .notUnderstood | .answered => 0

/-- The trustlet has been notified in this round. -/
def transmits : Round → Bool
  | .notMapped _ | .notPrepared _ => false
  | .notTransmitted notified _ => notified
  | .notUnderstood | .notUnmapped _ | .answered => true

end Round

/-- The response of the trustlet: whether it is one to the command, its first element if that lies
inside the buffer, its return code, and what `storeContainers` makes of it. -/
structure Answer where
  valid : Bool
  content : Option (List UInt8)
  returnCode : UInt32
  stored : McResult
deriving DecidableEq, Repr

/-- What becomes of a CMP command: whether the content management knows it, the rounds that end with
a request for a larger buffer, the last round, the response, and whether the buffer can be unmapped
in the end. -/
structure CmpExecution where
  supported : Bool
  retries : Nat
  last : Round
  answer : Answer
  unmaps : Bool
deriving DecidableEq, Repr

/-- The trustlet gets to see the command. -/
def CmpExecution.transmits (e : CmpExecution) : Bool := e.retries > 0 || e.last.transmits

/-- The header and the content of a response to a CMP command. -/
structure CmpResponse where
  id : UInt32
  ignoreError : Bool
  ret : RootpaError
  intRet : UInt32
  content : Option (List UInt8)
deriving DecidableEq, Repr

/-- A response behind the `memset`. -/
def CmpResponse.blank : CmpResponse := ⟨0, false, .ok, 0, none⟩

/-- What takes effect outside of RootPA. -/
inductive Operation
  /-- The content management trustlet gets a command. -/
  | cmpCommand (content : List UInt8)
  /-- `regWriteAuthToken` -/
  | authToken (container : List UInt8) (mcRet : McResult)
  /-- The callback is told to install a trustlet. -/
  | trustlet (container : List UInt8)
deriving DecidableEq, Repr

def handleResponse (a : Answer) (rsp : CmpResponse) : RootpaError × CmpResponse :=
  if !a.valid then (.commandExecution, { rsp with ret := .commandExecution })
  else
    match a.content with
    | none => (.internal, { rsp with ret := .internal })
    | some bytes =>
      if a.returnCode ≠ 0 then
        (.commandExecution, { rsp with content := some bytes, intRet := a.returnCode })
      else if a.stored = mcDrvOk then (.ok, { rsp with content := some bytes })
      else
        let ret := if a.stored = 0xffffffff then .internal else .registry
        (ret, { rsp with content := some bytes, intRet := a.stored, ret := ret })

/-- The end of `executeOneCmpCommand`: the buffer is unmapped, and the response gets the result
unless it has one. -/
def CmpExecution.finish (e : CmpExecution) (p : RootpaError × CmpResponse) :
    RootpaError × CmpResponse :=
  let ret := if e.unmaps then p.1 else .mobicoreConnection
  (ret, if p.2.ret = .ok then { p.2 with ret := ret } else p.2)

def executeOneCmpCommand (content : List UInt8) (e : CmpExecution) (rsp : CmpResponse) :
    RootpaError × CmpResponse :=
  if content.length < 4 then (.internal, rsp)
  else if !e.supported then (.commandNotSupported, rsp)
  else if e.last.ret ≠ .ok then
    e.finish (e.last.ret, { rsp with ret := e.last.ret, intRet := e.last.intRet })
  else e.finish (handleResponse e.answer { rsp with ret := .ok, intRet := 0 })

/-- What `executeOneCmpCommand` hands to the trustlet. -/
def cmpOperations (content : List UInt8) (e : CmpExecution) : List Operation :=
  if content.length < 4 || !e.supported || !e.transmits then [] else [.cmpCommand content]

/-! ## Commands -/

inductive CommandType
  | cmp
  | soUpload
  | tltUpload
  | unknown
deriving DecidableEq, Repr

/-- A `command` element: its attributes, the text of its `commandValue`, and what becomes of it when
it is executed, in the secure world or in the registry. -/
structure Command where
  type : CommandType
  id : Int32
  ignoreError : Option String
  commandValue : Option String
  cmp : CmpExecution
  regWriteAuthToken : McResult
deriving DecidableEq, Repr

/-- Whether there is a session already, what opening one ends with (an error or not), and whether
somebody has registered for callbacks. -/
structure Surroundings where
  handle : Bool
  tltChannelOpen : Option McResult
  callbackP : Bool
deriving DecidableEq, Repr

/-- There is a session for the batch. -/
def Surroundings.session (s : Surroundings) : Bool := s.handle || s.tltChannelOpen.isNone

namespace Command

/-- `getCommandId`, as the `uint32_t` that it is stored in. -/
def getCommandId (c : Command) : UInt32 := c.id.toUInt32

def getCommandIgnoreError (c : Command) : Bool := c.ignoreError = some "true"

/-- The command is an upload. -/
def isUpload (c : Command) : Bool := c.type = .soUpload || c.type = .tltUpload

def isCmp (c : Command) : Bool := c.type = .cmp

/-- The bytes of the value.  None if it is missing or does not decode. -/
def data (c : Command) : List UInt8 :=
  match c.commandValue with
  | none => []
  | some text => base64DecodeStringRemoveEndZero text

end Command

/-- A CMP command in the batch, with what becomes of it. -/
structure CmpCommand where
  id : UInt32
  ignoreError : Bool
  content : List UInt8
  execution : CmpExecution
deriving DecidableEq, Repr

/-- An upload that has been executed. -/
structure CommonMessage where
  id : UInt32
  ignoreError : Bool
  ret : RootpaError
  intRet : UInt32
deriving DecidableEq, Repr

/-- What has been collected from the document, and what has been done on the way. -/
structure Parsed where
  ret : RootpaError
  cmpCommands : Option (List CmpCommand)
  uploadCommands : List CommonMessage
  operations : List Operation
deriving DecidableEq, Repr

/-- A command without a value leaves its slot to the next one. -/
def extractCmpCommand (cmpCommands : Option (List CmpCommand)) (c : Command) : List CmpCommand :=
  match c.commandValue with
  | none => cmpCommands.getD []
  | some _ =>
    cmpCommands.getD [] ++ [⟨c.getCommandId, c.getCommandIgnoreError, c.data, c.cmp⟩]

def uploadTrustlet (s : Surroundings) : RootpaError :=
  if s.callbackP then .ok else .commandNotSupported

def uploadSo (regRet : McResult) : RootpaError :=
  if regRet ≠ mcDrvOk then .registry else .ok

def handleUploadCommand (s : Surroundings) (c : Command) : CommonMessage :=
  match c.commandValue with
  | none => ⟨0, false, .xml, 0⟩
  | some _ =>
    -- a value that does not decode is uploaded all the same
    if c.type = .tltUpload then
      ⟨c.getCommandId, c.getCommandIgnoreError, uploadTrustlet s, 0⟩
    else ⟨c.getCommandId, c.getCommandIgnoreError, uploadSo c.regWriteAuthToken,
      c.regWriteAuthToken⟩

/-- What an upload does outside of RootPA. -/
def uploadOperations (s : Surroundings) (c : Command) : List Operation :=
  match c.commandValue with
  | none => []
  | some _ =>
    if c.type = .tltUpload then if s.callbackP then [.trustlet c.data] else []
    else [.authToken c.data c.regWriteAuthToken]

/-- The `switch` over the type of a command. -/
def Parsed.take (s : Surroundings) (p : Parsed) (c : Command) : Parsed :=
  match c.type with
  | .cmp =>
    { p with
      cmpCommands := some (extractCmpCommand p.cmpCommands c)
      ret := if extractCmpCommand p.cmpCommands c = [] then .outOfMemory else p.ret }
  | .soUpload | .tltUpload =>
    { p with
      uploadCommands := p.uploadCommands ++ [handleUploadCommand s c]
      operations := p.operations ++ uploadOperations s c }
  | .unknown => p

/-- The last upload has failed. -/
def Parsed.lastUploadFails (p : Parsed) : Bool :=
  p.uploadCommands.getLast?.any fun m => m.ret ≠ .ok

/-- The loop is left behind `c`. -/
def Parsed.breaks (p : Parsed) (c : Command) : Bool :=
  p.ret = .outOfMemory || (!c.isCmp && !c.getCommandIgnoreError && p.lastUploadFails)

def parseCommands (s : Surroundings) : Parsed → List Command → Parsed
  | p, [] => p
  | p, c :: rest =>
    if (p.take s c).breaks c then p.take s c else parseCommands s (p.take s c) rest

/-! ## The batch -/

/-- What a batch ends with: the return code, a response for every command, and what has been done. -/
structure Batch where
  ret : RootpaError
  responses : List CmpResponse
  operations : List Operation
deriving DecidableEq, Repr

/-- The batch behind a command. -/
def Batch.behind (b : Batch) (rsp : CmpResponse) (operations : List Operation) : Batch :=
  { b with responses := rsp :: b.responses, operations := operations ++ b.operations }

/-- The loop of `executeContentManagementCommands`. -/
def executeBatch : RootpaError → List CmpCommand → Batch
  | ret, [] => ⟨ret, [], []⟩
  | ret, m :: rest =>
    let rsp : CmpResponse := { CmpResponse.blank with id := m.id, ignoreError := m.ignoreError }
    if m.content.length > 0 then
      let r := executeOneCmpCommand m.content m.execution rsp
      let operations := cmpOperations m.content m.execution
      if r.1 ≠ .ok then
        let rsp := if r.2.ret = .ok then { r.2 with ret := r.1 } else r.2
        if !m.ignoreError then ⟨r.1, rsp :: rest.map fun _ => CmpResponse.blank, operations⟩
        else (executeBatch r.1 rest).behind rsp operations
      else (executeBatch ret rest).behind r.2 operations
    else
      -- an empty command is only logged
      (executeBatch ret rest).behind rsp []

def executeContentManagementCommands (s : Surroundings) (commands : List CmpCommand) : Batch :=
  if s.session then executeBatch .ok commands
  else ⟨.mobicoreConnection, commands.map fun _ => CmpResponse.blank, []⟩

/-! ## The response -/

inductive Outcome
  | resultValue (text : String)
  | resultError (errorCode : String) (errorDetail : Option UInt32)
deriving DecidableEq, Repr

/-- A `commandResult` element, with the number that its `id` is printed as. -/
structure CommandResult where
  id : Nat
  outcome : Outcome
deriving DecidableEq, Repr

def CommandResult.isError (r : CommandResult) : Bool :=
  match r.outcome with
  | .resultValue _ => false
  | .resultError _ _ => true

def addCommandResultData (id : UInt32) (commandResult : Option String) (errorCode : RootpaError)
    (errorDetail : UInt32) : CommandResult :=
  -- `%u` of the `uint32_t`
  ⟨id.toNat,
    match commandResult with
    | some text => .resultValue text
    | none =>
      .resultError (errorCodeToString errorCode) (if errorDetail ≠ 0 then some errorDetail else none)⟩

def cmpResult (r : CmpResponse) : CommandResult :=
  addCommandResultData r.id
    (if r.ret = .commandExecution ∨ r.ret = .ok then r.content.map base64EncodeAddEndZero else none)
    r.ret r.intRet

def handleCmpResponses : List CmpResponse → List CommandResult
  | [] => []
  | r :: rest =>
    cmpResult r :: if r.ret ≠ .ok ∧ !r.ignoreError then [] else handleCmpResponses rest

def uploadResult (m : CommonMessage) : CommandResult :=
  addCommandResultData m.id (if m.ret = .ok then some (base64EncodeAddEndZero [0]) else none)
    m.ret m.intRet

def handleUploadResponses : List CommonMessage → List CommandResult
  | [] => []
  | m :: rest =>
    uploadResult m :: if m.ret ≠ .ok ∧ !m.ignoreError then [] else handleUploadResponses rest

/-- What is left of a request: the return code, the `commandResultList` if there is one, and what
has been done. -/
structure Handled where
  ret : RootpaError
  commandResultList : Option (List CommandResult)
  operations : List Operation
deriving DecidableEq, Repr

/-- The batch, if the document has a CMP command. -/
def Parsed.execute (s : Surroundings) (p : Parsed) : Batch :=
  match p.cmpCommands with
  | none => ⟨.ok, [], []⟩
  | some commands => executeContentManagementCommands s commands

/-- The end of `handleCommandAndFillResponse`. -/
def Parsed.respond (s : Surroundings) (p : Parsed) : Handled :=
  let batch := p.execute s
  let ret := if batch.ret ≠ .ok then batch.ret else p.ret
  { ret := ret
    commandResultList :=
      if ret = .outOfMemory then none
      else some (handleCmpResponses batch.responses ++ handleUploadResponses p.uploadCommands)
    operations := p.operations ++ batch.operations }

def handleCommandAndFillResponse (s : Surroundings) (commands : List Command) : Handled :=
  (parseCommands s ⟨.ok, none, [], []⟩ commands).respond s

end McDaemon.RootPa.Commands
