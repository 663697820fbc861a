/-
# McDaemon.Daemon.RegistryCommands — the handlers of the registry commands, byte for byte.

A handler takes the arguments of a registry operation off the stream, calls the operation and
answers with its result.  `Daemon.Framing` has the reading alone, field by field; here the fields
become arguments, and the answer is given with all its bytes.  The answer to a read carries a
buffer of the handler, whether the operation has written to it or not.
-/
import McDaemon.Daemon.Framing
import McDaemon.Lib.Reader
import McDaemon.Registry.AuthToken
import McDaemon.Registry.Cleanup
import McDaemon.Registry.TaBlob

namespace McDaemon.Daemon

open McDaemon.Lib
open McDaemon.Lib.Reader
open McDaemon.Registry
open McDaemon.Daemon.Framing (Stream Turn getData getFields ConnState)

/-! ## Calls -/

/-- An operation of the registry with its arguments. -/
inductive RegistryCall
  | storeAuthToken (so : List UInt8)
  | readAuthToken
  | deleteAuthToken
  | storeRoot (so : List UInt8)
  | readRoot
  | cleanupRoot
  | storeSp (spid : Spid) (so : List UInt8)
  | readSp (spid : Spid)
  | cleanupSp (spid : Spid)
  | storeTrustletCon (uuid : Uuid) (spid : Spid) (so : List UInt8)
  | readTrustletCon (uuid : Uuid) (spid : Spid)
  | cleanupTrustlet (uuid : Uuid) (spid : Spid)
  | storeData (so : List UInt8)
  | storeTABlob (spid : Spid) (blob : List UInt8)
deriving DecidableEq

/-- The command that asks for an operation. -/
def RegistryCall.command : RegistryCall → DrvCommand
  | .storeAuthToken _ => .regStoreAuthToken
  | .readAuthToken => .regReadAuthToken
  | .deleteAuthToken => .regDeleteAuthToken
  | .storeRoot _ => .regWriteRootCont
  | .readRoot => .regReadRootCont
  | .cleanupRoot => .regDeleteRootCont
  | .storeSp _ _ => .regWriteSpCont
  | .readSp _ => .regReadSpCont
  | .cleanupSp _ => .regDeleteSpCont
  | .storeTrustletCon _ _ _ => .regWriteTlCont
  | .readTrustletCon _ _ => .regReadTlCont
  | .cleanupTrustlet _ _ => .regDeleteTlCont
  | .storeData _ => .regWriteSoData
  | .storeTABlob _ _ => .regStoreTaBlob

/-! ## Receiving -/

def spidOf (bytes : List UInt8) : Spid := UInt32.ofNat (ofLe bytes)

/-- `getData`; a handler that comes up short leaves its result at the initial value. -/
def getField (len : Nat) : Reader UInt8 McResult (List UInt8) := take len mcDrvErrInvalidOperation

def getSpid : Reader UInt8 McResult Spid := do
  let bytes ← getField 4
  pure (spidOf bytes)

def getUuid : Reader UInt8 McResult Uuid := do
  let bytes ← getField 16
  pure (uuidOf bytes)

section Receive

variable (turn : Turn)

/-- `processRegistryReadData` up to the call of the registry. -/
def receiveReadData (c : DrvCommand) : Reader UInt8 McResult RegistryCall := do
  require turn.permitted mcDrvErrInvalidOperation
  match c with
  | .regReadAuthToken => pure .readAuthToken
  | .regReadRootCont => pure .readRoot
  | .regReadSpCont =>
    let spid ← getSpid
    pure (.readSp spid)
  | .regReadTlCont =>
    let uuid ← getUuid
    let spid ← getSpid
    pure (.readTrustletCon uuid spid)
  | _ => fail mcDrvErrInvalidOperation

/-- The switch of `processRegistryWriteData`, up to the call of the registry. -/
def receiveObject (c : DrvCommand) (soSize : Nat) : Reader UInt8 McResult RegistryCall :=
  match c with
  | .regStoreAuthToken => do
    let so ← getField soSize
    pure (.storeAuthToken so)
  | .regWriteRootCont => do
    let so ← getField soSize
    pure (.storeRoot so)
  | .regWriteSpCont => do
    let spid ← getSpid
    let so ← getField soSize
    pure (.storeSp spid so)
  | .regWriteTlCont => do
    let uuid ← getUuid
    let spid ← getSpid
    let so ← getField soSize
    pure (.storeTrustletCon uuid spid so)
  | .regWriteSoData => do
    let so ← getField soSize
    pure (.storeData so)
  | .regStoreTaBlob => do
    let spid ← getSpid
    -- the blob gets a buffer of its own
    require turn.mallocBlob mcDrvErrNoFreeMemory
    let blob ← getField soSize
    pure (.storeTABlob spid blob)
  | _ => fail mcDrvErrInvalidOperation

/-- `processRegistryWriteData` up to the call of the registry. -/
def receiveWriteData (c : DrvCommand) : Reader UInt8 McResult RegistryCall := do
  require turn.permitted mcDrvErrInvalidOperation
  let soSize ← getField 4
  require turn.malloc mcDrvErrNoFreeMemory
  receiveObject turn c (ofLe soSize)

/-- `processRegistryDeleteData` up to the call of the registry. -/
def receiveDeleteData (c : DrvCommand) : Reader UInt8 McResult RegistryCall := do
  require turn.permitted mcDrvErrInvalidOperation
  match c with
  | .regDeleteAuthToken => pure .deleteAuthToken
  | .regDeleteRootCont => pure .cleanupRoot
  | .regDeleteSpCont =>
    let spid ← getSpid
    pure (.cleanupSp spid)
  | .regDeleteTlCont =>
    let uuid ← getUuid
    let spid ← getSpid
    pure (.cleanupTrustlet uuid spid)
  | _ => fail mcDrvErrInvalidOperation

/-- The commands that `processRegistryReadData` handles. -/
def isRegistryRead : DrvCommand → Bool
  | .regReadAuthToken | .regReadRootCont | .regReadSpCont | .regReadTlCont => true
  | _ => false

theorem isRegistryWrite_of_read {c : DrvCommand} (h : isRegistryRead c = true) :
    c.isRegistryWrite = false := by
  cases c <;> first | rfl | cases h

/-- The handler of a registry command up to the call of the registry. -/
def receive (c : DrvCommand) : Reader UInt8 McResult RegistryCall :=
  if c.isRegistryWrite then receiveWriteData turn c
  else if isRegistryRead c then receiveReadData turn c
  else receiveDeleteData turn c

/-- A command with its id in front, as `readCommand` and then the handler take it. -/
def receiveCommand : Reader UInt8 McResult RegistryCall := do
  let id ← take 4 mcDrvErrDaemonSocket
  match DrvCommand.ofId (ofLe id) with
  | none => fail mcDrvErrDaemonSocket
  | some c => receive turn c

end Receive

/-! ## Answering a read -/

/-- `MAX_DATA_SIZE`. -/
def maxDataSize : Nat := 512

/-- The buffers of `processRegistryReadData`, with what is on the stack where they are. -/
structure Frame where
  buf : Vector UInt8 maxDataSize
  auth : Vector UInt8 sizeofAuthTokenCont

/-- What the handler has when the switch is done: the result, the buffer and the length. -/
structure Filled where
  code : McResult
  buf : List UInt8
  len : Nat

/-- A read operation overwrites the front of its buffer and the length, or neither. -/
def fill {n : Nat} (buf : Vector UInt8 n) : Except McResult (List UInt8) → Filled
  | .ok bs => ⟨mcDrvOk, bs ++ buf.toList.drop bs.length, bs.length⟩
  | .error code => ⟨code, buf.toList, n⟩

/-- The end of `processRegistryReadData`: the result, and unless it is that of a refused command
the buffer as far as the length says. -/
def answer (f : Filled) : List UInt8 :=
  le32 f.code ++ (if f.code ≠ mcDrvErrInvalidOperation then f.buf.take f.len else [])

/-- What surrounds the handlers: the round, the stack frame of a read, the environment, the
secure world's check of a TA blob, the memory behind the blob, and the operations of the registry
that are left open here. -/
structure Surroundings where
  turn : Turn
  frame : Frame
  authTokenPath : Option (List String)
  loadCheck : Spid → List UInt8 → McResult
  heap : Memory
  other : Fs → RegistryCall → McResult × Fs

section Handlers

variable (sur : Surroundings)

/-- The call of the registry in `processRegistryReadData`. -/
def readInto (s : Fs) : RegistryCall → Filled
  | .readAuthToken => fill sur.frame.auth (mcRegistryReadAuthToken sur.authTokenPath s)
  | .readRoot => fill sur.frame.buf (mcRegistryReadRoot s maxDataSize)
  | .readSp spid => fill sur.frame.buf (mcRegistryReadSp s spid maxDataSize)
  | .readTrustletCon uuid spid =>
    fill sur.frame.buf (mcRegistryReadTrustletCon s uuid spid maxDataSize)
  | _ => ⟨mcDrvErrInvalidOperation, sur.frame.buf.toList, maxDataSize⟩

def processRegistryReadData (s : Fs) (c : DrvCommand) (stream : Stream) : List UInt8 × Stream :=
  match receiveReadData sur.turn c stream with
  | (.error code, rest) => (answer ⟨code, sur.frame.buf.toList, maxDataSize⟩, rest)
  | (.ok call, rest) => (answer (readInto sur s call), rest)

/-- A TA blob in its buffer. -/
def inHeap (blob : List UInt8) : Memory := fun i => blob.getD i (sur.heap i)

/-- The call of the registry in `processRegistryWriteData`.  That a token or a root container is
passed on to the secure world afterwards has no part in the answer. -/
def store (s : Fs) : RegistryCall → McResult × Fs
  | .storeAuthToken so => mcRegistryStoreAuthToken sur.authTokenPath s so
  | .storeRoot so => mcRegistryStoreRoot s so
  | .storeSp spid so => mcRegistryStoreSp s spid so
  | .storeTrustletCon uuid spid so => mcRegistryStoreTrustletCon s uuid spid so
  | .storeTABlob spid blob =>
    if sur.loadCheck spid blob ≠ mcDrvOk then (sur.loadCheck spid blob, s)
    else (mcRegistryStoreTABlob s spid (inHeap sur blob) (UInt32.ofNat blob.length)).2
  | call => sur.other s call

def processRegistryWriteData (s : Fs) (c : DrvCommand) (stream : Stream) :
    List UInt8 × Fs × Stream :=
  match receiveWriteData sur.turn c stream with
  | (.error code, rest) => (le32 code, s, rest)
  | (.ok call, rest) =>
    let (code, s) := store sur s call
    (le32 code, s, rest)

/-- The call of the registry in `processRegistryDeleteData`. -/
def cleanUp (s : Fs) : RegistryCall → McResult × Fs
  | .cleanupRoot => mcRegistryCleanupRoot s
  | .cleanupSp spid => mcRegistryCleanupSp s spid
  | .cleanupTrustlet uuid spid => mcRegistryCleanupTrustlet s uuid spid
  | call => sur.other s call

def processRegistryDeleteData (s : Fs) (c : DrvCommand) (stream : Stream) :
    List UInt8 × Fs × Stream :=
  match receiveDeleteData sur.turn c stream with
  | (.error code, rest) => (le32 code, s, rest)
  | (.ok call, rest) =>
    let (code, s) := cleanUp sur s call
    (le32 code, s, rest)

/-- The handler of a registry command. -/
def handleRegistryCommand (s : Fs) (c : DrvCommand) (stream : Stream) :
    List UInt8 × Fs × Stream :=
  if c.isRegistryWrite then processRegistryWriteData sur s c stream
  else if isRegistryRead c then
    let (reply, rest) := processRegistryReadData sur s c stream
    (reply, s, rest)
  else processRegistryDeleteData sur s c stream

end Handlers

/-! ## Reading field by field -/

section Follows

variable {α γ : Type} {r : Reader UInt8 McResult α} {f : α → Reader UInt8 McResult γ}
  {fields more : List Nat} {len : Nat} {s : Stream}

/-- The reader takes fields of these lengths, one after another. -/
def Follows (r : Reader UInt8 McResult α) (fields : List Nat) : Prop :=
  ∀ s, ((r s).1.isOk, (r s).2) = getFields fields s

theorem getFields_concat (fields more : List Nat) (s : Stream) :
    getFields (fields ++ more) s = (match getFields fields s with
      | (false, t) => (false, t)
      | (true, t) => getFields more t) := by
  induction fields generalizing s with
  | nil => rfl
  | cons len fields ih =>
    rw [List.cons_append, getFields, getFields]
    cases getData len s with
    | mk got t =>
      cases got with
      | none => rfl
      | some bytes => exact ih t

theorem follows_pure {a : α} : Follows (pure a) [] := fun _ => rfl

theorem follows_getField : Follows (getField len) [len] := by
  intro s
  unfold getField take getFields getData Framing.readData
  dsimp only
  split_ifs
  · rfl
  · rfl

theorem Follows.bind (hr : Follows r fields) (hf : ∀ a, Follows (f a) more) :
    Follows (r >>= f) (fields ++ more) := by
  intro s
  rw [getFields_concat, ← hr s, bind_apply]
  cases r s with
  | mk result t =>
    cases result with
    | error e => rfl
    | ok a => exact hf a t

theorem Follows.give {g : α → γ} (hr : Follows r fields) :
    Follows (r >>= fun a => pure (g a)) fields := by
  have hpure : Follows (r >>= fun a => pure (g a)) (fields ++ []) := hr.bind fun _ => follows_pure
  rwa [List.append_nil] at hpure

theorem follows_getSpid : Follows getSpid [4] := follows_getField.give

theorem follows_getUuid : Follows getUuid [16] := follows_getField.give

end Follows

section Rest

variable {turn : Turn} {conn : ConnState} {s : Stream}

theorem getField_apply (len : Nat) (s : Stream) :
    getField len s = (match getData len s with
      | (none, t) => (.error mcDrvErrInvalidOperation, t)
      | (some bytes, t) => (.ok bytes, t)) := by
  unfold getField take getData Framing.readData
  dsimp only
  split_ifs
  · rfl
  · rfl

theorem receive_of_refused (c : DrvCommand) (hp : turn.permitted = false) (s : Stream) :
    receive turn c s = (.error mcDrvErrInvalidOperation, s) := by
  have hreq : (require turn.permitted mcDrvErrInvalidOperation : Reader UInt8 McResult Unit) s =
      (.error mcDrvErrInvalidOperation, s) := by
    rw [hp]
    rfl
  unfold receive receiveWriteData receiveReadData receiveDeleteData
  split_ifs
  · exact bind_of_error hreq
  · exact bind_of_error hreq
  · exact bind_of_error hreq

theorem follows_receive_query {c : DrvCommand} (hc : Framing.isRegistryQuery c = true)
    (hp : turn.permitted = true) : Follows (receive turn c) c.idFields := by
  unfold receive receiveReadData receiveDeleteData
  rw [hp]
  cases c with
  | regReadAuthToken | regReadRootCont | regDeleteAuthToken | regDeleteRootCont => exact follows_pure
  | regReadSpCont | regDeleteSpCont => exact follows_getSpid.give
  | regReadTlCont | regDeleteTlCont => exact follows_getUuid.bind fun _ => follows_getSpid.give
  | _ => cases hc

theorem follows_receiveObject {c : DrvCommand} (hc : c.isRegistryWrite = true)
    (hblob : c = .regStoreTaBlob → turn.mallocBlob = true) (soSize : Nat) :
    Follows (receiveObject turn c soSize) (c.idFields ++ [soSize]) := by
  unfold receiveObject
  cases c with
  | regStoreAuthToken | regWriteRootCont | regWriteSoData => exact follows_getField.give
  | regWriteSpCont => exact follows_getSpid.bind fun _ => follows_getField.give
  | regWriteTlCont =>
    exact follows_getUuid.bind fun _ => follows_getSpid.bind fun _ => follows_getField.give
  | regStoreTaBlob =>
    rw [hblob rfl]
    exact follows_getSpid.bind fun _ => follows_getField.give
  | _ => cases hc

theorem receive_query_rest {c : DrvCommand} (hc : Framing.isRegistryQuery c = true)
    (s : Stream) : (receive turn c s).2 = (Framing.processRegistryReadData conn turn c s).rest := by
  rw [Framing.processRegistryReadData]
  cases hp : turn.permitted with
  | false => rw [receive_of_refused c hp, if_pos rfl]
  | true =>
    rw [if_neg Bool.true_eq_false.mp, ← follows_receive_query hc hp s]
    cases (receive turn c s).1.isOk
    · rfl
    · rfl

theorem receive_write_rest {c : DrvCommand} (hc : c.isRegistryWrite = true) (s : Stream) :
    (receive turn c s).2 = (Framing.processRegistryWriteData conn turn c s).rest := by
  rw [Framing.processRegistryWriteData]
  cases hp : turn.permitted with
  | false => rw [receive_of_refused c hp, if_pos rfl]
  | true =>
    have hreceive : receive turn c = (do
        let soSize ← getField 4
        require turn.malloc mcDrvErrNoFreeMemory
        receiveObject turn c (ofLe soSize)) := by
      rw [receive, if_pos hc, receiveWriteData, hp]
      rfl
    rw [if_neg Bool.true_eq_false.mp, hreceive, bind_apply, getField_apply]
    -- both take the size first, then make room, then take the object
    cases getData 4 s with
    | mk got t =>
      cases got with
      | none => rfl
      | some soSize =>
        dsimp only
        cases turn.malloc with
        | false => rfl
        | true =>
          show (receiveObject turn c (ofLe soSize) t).2 = _
          by_cases hblob : c = .regStoreTaBlob ∧ turn.mallocBlob = false
          · -- the blob's own buffer is missing, so only the spid is read
            obtain ⟨rfl, hb⟩ := hblob
            have hspid := follows_getSpid t
            rw [receiveObject, hb, bind_apply]
            dsimp only [DrvCommand.idFields]
            rw [← hspid]
            cases getSpid t with
            | mk result u => cases result <;> rfl
          · have hread := follows_receiveObject hc (fun h => by
              by_contra hb
              exact hblob ⟨h, Bool.eq_false_iff.mpr hb⟩) (ofLe soSize) t
            rw [getFields_concat] at hread
            rw [if_neg Bool.true_eq_false.mp]
            cases hids : getFields c.idFields t with
            | mk ok u =>
              rw [hids] at hread
              cases ok with
              | false => exact congrArg Prod.snd hread
              | true =>
                dsimp only at hread ⊢
                rw [if_neg hblob]
                rw [getFields] at hread
                cases hdata : getData (ofLe soSize) u with
                | mk data v =>
                  rw [hdata] at hread
                  cases data with
                  | none => exact congrArg Prod.snd hread
                  | some so => exact congrArg Prod.snd hread

/-- **The two models of the handlers agree** on what is left in the stream. -/
theorem receive_rest {c : DrvCommand} (hc : c.isRegistryWrite ∨ Framing.isRegistryQuery c)
    (s : Stream) :
    ∃ o, Framing.handleCommand conn turn c s = some o ∧ o.rest = (receive turn c s).2 := by
  rcases hc with hw | hq
  · exact ⟨_, Framing.handleCommand_of_write hw s, (receive_write_rest hw s).symm⟩
  · exact ⟨_, Framing.handleCommand_of_query hq s, (receive_query_rest hq s).symm⟩

/-- The results of a handler that does not get as far as the registry. -/
def NotReached (code : McResult) : Prop :=
  code = mcDrvErrInvalidOperation ∨ code = mcDrvErrNoFreeMemory

theorem refuses_getField {len : Nat} : Refuses (getField len) NotReached :=
  refuses_take (.inl rfl)

theorem refuses_getSpid : Refuses getSpid NotReached :=
  refuses_getField.bind fun _ => refuses_pure

theorem refuses_getUuid : Refuses getUuid NotReached :=
  refuses_getField.bind fun _ => refuses_pure

theorem refuses_receive (c : DrvCommand) : Refuses (receive turn c) NotReached := by
  have hfail : Refuses (fail mcDrvErrInvalidOperation : Reader UInt8 McResult RegistryCall)
      NotReached := refuses_fail (.inl rfl)
  have hobject : ∀ (len : Nat) (g : List UInt8 → RegistryCall),
      Refuses (getField len >>= fun so => pure (g so)) NotReached := fun len g =>
    refuses_getField.bind fun _ => refuses_pure
  have hpermitted : Refuses (require turn.permitted mcDrvErrInvalidOperation :
      Reader UInt8 McResult Unit) NotReached := refuses_require (.inl rfl)
  unfold receive
  split_ifs
  · refine hpermitted.bind fun _ => refuses_getField.bind fun soSize =>
      (refuses_require (.inr rfl)).bind fun _ => ?_
    unfold receiveObject
    split
    · exact hobject _ _
    · exact hobject _ _
    · exact refuses_getSpid.bind fun _ => hobject _ _
    · exact refuses_getUuid.bind fun _ => refuses_getSpid.bind fun _ => hobject _ _
    · exact hobject _ _
    · exact refuses_getSpid.bind fun _ => (refuses_require (.inr rfl)).bind fun _ => hobject _ _
    · exact hfail
  · refine hpermitted.bind fun _ => ?_
    split
    · exact refuses_pure
    · exact refuses_pure
    · exact refuses_getSpid.bind fun _ => refuses_pure
    · exact refuses_getUuid.bind fun _ => refuses_getSpid.bind fun _ => refuses_pure
    · exact hfail
  · refine hpermitted.bind fun _ => ?_
    split
    · exact refuses_pure
    · exact refuses_pure
    · exact refuses_getSpid.bind fun _ => refuses_pure
    · exact refuses_getUuid.bind fun _ => refuses_getSpid.bind fun _ => refuses_pure
    · exact hfail

theorem receiveCommand_append (c : DrvCommand) (s : Stream) :
    receiveCommand turn (le32 c.commandId ++ s) = receive turn c s := by
  rw [receiveCommand, bind_of_ok (reads_take (length_le32 c.commandId) s)]
  rw [ofLe_le32, DrvCommand.ofId_commandId]

end Rest

end McDaemon.Daemon
