/-
# McDaemon.Daemon.Framing — what the handlers take off a client's byte stream.

`readCommand` and the handlers read from one stream without any framing of their own, so the
daemon is in sync with its client only while every handler takes exactly the bytes of its command,
also when it refuses it.  The handlers are given here as far as reading goes: their checks up to
the last read, and one result for all that follows.
-/
import Mathlib.Tactic.ByContra
import Mathlib.Tactic.SplitIfs
import McDaemon.Daemon.Command

namespace McDaemon.Daemon.Framing

open McDaemon.Lib

/-! ## Reading -/

abbrev Stream := List UInt8

/-- `Connection::readData`, which gets all bytes that it asks for when they are there. -/
def readData (len : Nat) (s : Stream) : List UInt8 × Stream := (s.take len, s.drop len)

/-- `RECV_PAYLOAD_FROM_CLIENT` and `getData`: all bytes or an error.  A read comes up short only
at the end of the stream, and the next one then finds the connection closed. -/
def getData (len : Nat) (s : Stream) : Option (List UInt8) × Stream :=
  let (got, s) := readData len s
  if got.length = len then (some got, s) else (none, s)

/-- `getData` for one field after another. -/
def getFields : List Nat → Stream → Bool × Stream
  | [], s => (true, s)
  | len :: fields, s =>
    match getData len s with
    | (none, s) => (false, s)
    | (some _, s) => getFields fields s

/-! ## Handlers -/

/-- What the handlers keep about a connection: whether a device is open on it, and whether it has
become a notification channel, which the command loop no longer reads. -/
structure ConnState where
  device : Bool
  detached : Bool
deriving DecidableEq, Repr

/-- The surroundings of one round: whether MobiCore has faulted, what is on the stack where a
short header is read to, whether the client may use the registry, which allocations succeed, and
what the handler answers once it has read its command. -/
structure Turn where
  mcFault : Bool
  stack : List UInt8
  permitted : Bool
  malloc : Bool
  mallocBlob : Bool
  result : McResult
deriving DecidableEq, Repr

/-- The answer of a handler (`NOTIFY` has none), the connection and the stream after it. -/
structure Outcome where
  reply : Option McResult
  conn : ConnState
  rest : Stream
deriving DecidableEq, Repr

section Handlers

variable (conn : ConnState) (turn : Turn)

def processOpenDevice (s : Stream) : Outcome :=
  match getData 4 s with
  | (none, s) => ⟨some mcDrvErrDaemonSocket, conn, s⟩
  | (some cmd, s) =>
    if conn.device then ⟨some mcDrvErrDeviceAlreadyOpen, conn, s⟩
    else if ofLe cmd = mcDeviceIdDefault.toNat then
      ⟨some mcDrvOk, { conn with device := true }, s⟩
    else ⟨some mcDrvErrUnknownDevice, conn, s⟩

def processCloseDevice (s : Stream) : Outcome :=
  if conn.device then ⟨some mcDrvOk, { conn with device := false }, s⟩
  else ⟨some mcDrvErrDaemonDeviceNotOpen, conn, s⟩

/-- A command with a fixed payload for an open device. -/
def deviceCommand (len : Nat) (s : Stream) : Outcome :=
  match getData len s with
  | (none, s) => ⟨some mcDrvErrDaemonSocket, conn, s⟩
  | (some _, s) =>
    if conn.device then ⟨some turn.result, conn, s⟩
    else ⟨some mcDrvErrDaemonDeviceNotOpen, conn, s⟩

def processOpenSession (s : Stream) : Outcome := deviceCommand conn turn 32 s

def processCloseSession (s : Stream) : Outcome := deviceCommand conn turn 4 s

def processMapBulkBuf (s : Stream) : Outcome := deviceCommand conn turn 20 s

def processUnmapBulkBuf (s : Stream) : Outcome := deviceCommand conn turn 16 s

def processGetMobiCoreVersion (s : Stream) : Outcome :=
  if conn.device then ⟨some turn.result, conn, s⟩
  else ⟨some mcDrvErrDaemonDeviceNotOpen, conn, s⟩

def processGetVersion (s : Stream) : Outcome := ⟨some mcDrvOk, conn, s⟩

/-- The trustlet follows the payload.  It is read after the device check and the allocation, and
the loop that reads it spins for ever at the end of the stream. -/
def processOpenTrustlet (s : Stream) : Option Outcome :=
  match getData 24 s with
  | (none, s) => some ⟨some mcDrvErrDaemonSocket, conn, s⟩
  | (some cmd, s) =>
    if conn.device = false then some ⟨some mcDrvErrDaemonDeviceNotOpen, conn, s⟩
    else if turn.malloc = false then some ⟨some mcDrvErrDaemonSocket, conn, s⟩
    else
      match getData (ofLe ((cmd.drop 8).take 4)) s with
      | (none, _) => none
      | (some _, s) => some ⟨some turn.result, conn, s⟩

/-- The connection is taken out of the command loop before the device id is looked at. -/
def processNqConnect (s : Stream) : Outcome :=
  match getData 16 s with
  | (none, s) => ⟨some mcDrvErrDaemonSocket, conn, s⟩
  | (some cmd, s) =>
    if conn.device then ⟨some mcDrvErrNqFailed, conn, s⟩
    else if ofLe (cmd.take 4) = mcDeviceIdDefault.toNat then
      ⟨some turn.result, { conn with detached := true }, s⟩
    else ⟨some mcDrvErrUnknownDevice, { conn with detached := true }, s⟩

def processNotify (s : Stream) : Outcome := ⟨none, conn, (getData 4 s).2⟩

def processRegistryReadData (c : DrvCommand) (s : Stream) : Outcome :=
  if turn.permitted = false then ⟨some mcDrvErrInvalidOperation, conn, s⟩
  else
    match getFields c.idFields s with
    | (false, s) => ⟨some mcDrvErrInvalidOperation, conn, s⟩
    | (true, s) => ⟨some turn.result, conn, s⟩

def processRegistryDeleteData (c : DrvCommand) (s : Stream) : Outcome :=
  processRegistryReadData conn turn c s

def processRegistryWriteData (c : DrvCommand) (s : Stream) : Outcome :=
  if turn.permitted = false then ⟨some mcDrvErrInvalidOperation, conn, s⟩
  else
    match getData 4 s with
    | (none, s) => ⟨some mcDrvErrInvalidOperation, conn, s⟩
    | (some soSize, s) =>
      if turn.malloc = false then ⟨some mcDrvErrNoFreeMemory, conn, s⟩
      else
        match getFields c.idFields s with
        | (false, s) => ⟨some mcDrvErrInvalidOperation, conn, s⟩
        | (true, s) =>
          -- the TA blob gets a second buffer of the same size
          if c = .regStoreTaBlob ∧ turn.mallocBlob = false then
            ⟨some mcDrvErrNoFreeMemory, conn, s⟩
          else
            match getData (ofLe soSize) s with
            | (none, s) => ⟨some mcDrvErrInvalidOperation, conn, s⟩
            | (some _, s) => ⟨some turn.result, conn, s⟩

/-- `MobiCoreDriverDaemon::handleCommand`; `none` when the handler does not return. -/
def handleCommand (c : DrvCommand) (s : Stream) : Option Outcome :=
  match c with
  | .openDevice => some (processOpenDevice conn s)
  | .closeDevice => some (processCloseDevice conn s)
  | .openSession => some (processOpenSession conn turn s)
  | .openTrustlet => processOpenTrustlet conn turn s
  | .openTrustedApp => some (processOpenSession conn turn s)
  | .closeSession => some (processCloseSession conn turn s)
  | .nqConnect => some (processNqConnect conn turn s)
  | .notify => some (processNotify conn s)
  | .mapBulkBuf => some (processMapBulkBuf conn turn s)
  | .unmapBulkBuf => some (processUnmapBulkBuf conn turn s)
  | .getVersion => some (processGetVersion conn s)
  | .getMobiCoreVersion => some (processGetMobiCoreVersion conn turn s)
  | .regStoreAuthToken => some (processRegistryWriteData conn turn .regStoreAuthToken s)
  | .regWriteRootCont => some (processRegistryWriteData conn turn .regWriteRootCont s)
  | .regWriteSpCont => some (processRegistryWriteData conn turn .regWriteSpCont s)
  | .regWriteTlCont => some (processRegistryWriteData conn turn .regWriteTlCont s)
  | .regWriteSoData => some (processRegistryWriteData conn turn .regWriteSoData s)
  | .regStoreTaBlob => some (processRegistryWriteData conn turn .regStoreTaBlob s)
  | .regReadAuthToken => some (processRegistryReadData conn turn .regReadAuthToken s)
  | .regReadRootCont => some (processRegistryReadData conn turn .regReadRootCont s)
  | .regReadSpCont => some (processRegistryReadData conn turn .regReadSpCont s)
  | .regReadTlCont => some (processRegistryReadData conn turn .regReadTlCont s)
  | .regDeleteAuthToken => some (processRegistryDeleteData conn turn .regDeleteAuthToken s)
  | .regDeleteRootCont => some (processRegistryDeleteData conn turn .regDeleteRootCont s)
  | .regDeleteSpCont => some (processRegistryDeleteData conn turn .regDeleteSpCont s)
  | .regDeleteTlCont => some (processRegistryDeleteData conn turn .regDeleteTlCont s)

/-- `MobiCoreDriverDaemon::readCommand`; `none` drops the connection.  A header that comes up
short keeps the bytes that were on the stack. -/
def readCommand (s : Stream) : Option (DrvCommand × Stream) :=
  if turn.mcFault then none
  else
    let (got, rest) := readData 4 s
    if got = [] then none
    else (DrvCommand.ofId (ofLe ((got ++ turn.stack.drop got.length).take 4))).map
      fun c => (c, rest)

/-- One round of the client loop: a command is read and handled. -/
def clientRound (s : Stream) : Option (DrvCommand × ConnState × Stream) :=
  if conn.detached then none
  else
    match readCommand turn s with
    | none => none
    | some (c, s) => (handleCommand conn turn c s).map fun o => (c, o.conn, o.rest)

end Handlers

/-! ## What a command takes -/

/-- The commands that `processRegistryReadData` and `processRegistryDeleteData` handle. -/
def isRegistryQuery : DrvCommand → Bool
  | .regReadAuthToken | .regReadRootCont | .regReadSpCont | .regReadTlCont
  | .regDeleteAuthToken | .regDeleteRootCont | .regDeleteSpCont | .regDeleteTlCont => true
  | _ => false

/-- How many of the bytes that follow its id the handler of a command takes. -/
def taken (conn : ConnState) (w : WireCommand) (turn : Turn) : Nat :=
  if w.command = .openTrustlet then
    if conn.device ∧ turn.malloc then w.fixed.length + w.data.length else w.fixed.length
  else if w.command.isRegistryWrite then
    if turn.permitted = false then 0
    else if turn.malloc = false then 4
    else if w.command = .regStoreTaBlob ∧ turn.mallocBlob = false then w.fixed.length
    else w.fixed.length + w.data.length
  else if isRegistryQuery w.command then
    if turn.permitted then w.fixed.length else 0
  else w.fixed.length

/-- The connection after a command. -/
def connAfter (conn : ConnState) (c : DrvCommand) (fixed : Stream) : ConnState :=
  match c with
  | .openDevice =>
    { conn with device := conn.device || decide (ofLe fixed = mcDeviceIdDefault.toNat) }
  | .closeDevice => { conn with device := false }
  | .nqConnect => { conn with detached := conn.detached || !conn.device }
  | _ => conn

section Taken

variable {conn : ConnState} {turn : Turn} {a fixed data rest : Stream}

theorem getData_append {len : Nat} (h : a.length = len) :
    getData len (a ++ rest) = (some a, rest) := by
  subst h
  simp [getData, readData]

theorem getFields_append {fields : List Nat} (h : a.length = fields.sum) :
    getFields fields (a ++ rest) = (true, rest) := by
  induction fields generalizing a with
  | nil =>
    obtain rfl := List.length_eq_zero_iff.mp h
    rfl
  | cons len fields ih =>
    rw [List.sum_cons] at h
    have htake : (a.take len).length = len := by
      rw [List.length_take]
      omega
    have hdrop : (a.drop len).length = fields.sum := by
      rw [List.length_drop]
      omega
    rw [← List.take_append_drop len a, List.append_assoc, getFields, getData_append htake]
    exact ih hdrop

theorem deviceCommand_append {len : Nat} (h : fixed.length = len) :
    ∃ r, deviceCommand conn turn len (fixed ++ rest) = ⟨r, conn, rest⟩ := by
  rw [deviceCommand, getData_append h]
  dsimp only
  split_ifs
  · exact ⟨_, rfl⟩
  · exact ⟨_, rfl⟩

theorem processRegistryReadData_append (conn : ConnState) (turn : Turn) (rest : Stream)
    {c : DrvCommand} (h : fixed.length = c.idFields.sum) :
    ∃ r, processRegistryReadData conn turn c (fixed ++ rest) =
      ⟨r, conn, fixed.drop (if turn.permitted then fixed.length else 0) ++ rest⟩ := by
  rw [processRegistryReadData, getFields_append h]
  cases turn.permitted
  · exact ⟨_, rfl⟩
  · exact ⟨turn.result, by simp⟩

theorem processOpenTrustlet_append (h : fixed.length = 24)
    (hdata : data.length = ofLe ((fixed.drop 8).take 4)) :
    ∃ r, processOpenTrustlet conn turn (fixed ++ (data ++ rest)) = some ⟨r, conn,
      (fixed ++ data).drop (if conn.device ∧ turn.malloc then fixed.length + data.length
        else fixed.length) ++ rest⟩ := by
  rw [processOpenTrustlet, getData_append h]
  dsimp only
  rw [getData_append hdata]
  cases hdevice : conn.device
  · exact ⟨some mcDrvErrDaemonDeviceNotOpen, by simp⟩
  · cases hmalloc : turn.malloc
    · exact ⟨some mcDrvErrDaemonSocket, by simp⟩
    · refine ⟨some turn.result, ?_⟩
      rw [← List.length_append]
      simp

theorem processRegistryWriteData_append (conn : ConnState) (turn : Turn) (rest : Stream)
    {c : DrvCommand} (h : fixed.length = 4 + c.idFields.sum)
    (hdata : data.length = ofLe (fixed.take 4)) :
    ∃ r, processRegistryWriteData conn turn c (fixed ++ (data ++ rest)) = ⟨r, conn,
      (fixed ++ data).drop (if turn.permitted = false then 0
        else if turn.malloc = false then 4
        else if c = .regStoreTaBlob ∧ turn.mallocBlob = false then fixed.length
        else fixed.length + data.length) ++ rest⟩ := by
  have hsize : (fixed.take 4).length = 4 := by
    rw [List.length_take]
    omega
  have hids : (fixed.drop 4).length = c.idFields.sum := by
    rw [List.length_drop]
    omega
  have hread : getData 4 (fixed ++ (data ++ rest)) =
      (some (fixed.take 4), fixed.drop 4 ++ (data ++ rest)) := by
    conv_lhs => rw [← List.take_append_drop 4 fixed, List.append_assoc]
    exact getData_append hsize
  rw [processRegistryWriteData, hread]
  dsimp only
  rw [getFields_append hids]
  dsimp only
  rw [getData_append hdata]
  dsimp only
  have hdrop : (fixed ++ data).drop 4 = fixed.drop 4 ++ data :=
    List.drop_append_of_le_length (by omega)
  split_ifs
  · exact ⟨some mcDrvErrInvalidOperation, by simp⟩
  · exact ⟨some mcDrvErrNoFreeMemory, by rw [hdrop, List.append_assoc]⟩
  · exact ⟨some mcDrvErrNoFreeMemory, by simp⟩
  · refine ⟨some turn.result, ?_⟩
    rw [← List.length_append]
    simp

theorem processOpenDevice_append (h : fixed.length = 4) :
    ∃ r, processOpenDevice conn (fixed ++ rest) =
      ⟨r, connAfter conn .openDevice fixed, rest⟩ := by
  rw [processOpenDevice, getData_append h, connAfter]
  obtain ⟨device, detached⟩ := conn
  cases device
  · by_cases hid : ofLe fixed = mcDeviceIdDefault.toNat
    · exact ⟨some mcDrvOk, by simp [hid]⟩
    · exact ⟨some mcDrvErrUnknownDevice, by simp [hid]⟩
  · exact ⟨some mcDrvErrDeviceAlreadyOpen, by simp⟩

theorem processNqConnect_append (h : fixed.length = 16) :
    ∃ r, processNqConnect conn turn (fixed ++ rest) =
      ⟨r, connAfter conn .nqConnect fixed, rest⟩ := by
  rw [processNqConnect, getData_append h, connAfter]
  obtain ⟨device, detached⟩ := conn
  cases device
  · dsimp only
    by_cases hid : ofLe (fixed.take 4) = mcDeviceIdDefault.toNat
    · exact ⟨some turn.result, by simp [hid]⟩
    · exact ⟨some mcDrvErrUnknownDevice, by simp [hid]⟩
  · exact ⟨some mcDrvErrNqFailed, by simp⟩

/-- Registry writes go to one handler. -/
theorem handleCommand_of_write {c : DrvCommand} (hc : c.isRegistryWrite = true) (s : Stream) :
    handleCommand conn turn c s = some (processRegistryWriteData conn turn c s) := by
  cases c <;> first | rfl | cases hc

theorem handleCommand_of_query {c : DrvCommand} (hc : isRegistryQuery c = true) (s : Stream) :
    handleCommand conn turn c s = some (processRegistryReadData conn turn c s) := by
  cases c <;> first | rfl | cases hc

theorem fixedSize_of_write {c : DrvCommand} (hc : c.isRegistryWrite = true) :
    c.fixedSize = 4 + c.idFields.sum := by
  cases c <;> first | rfl | cases hc

theorem fixedSize_of_query {c : DrvCommand} (hc : isRegistryQuery c = true) :
    c.fixedSize = c.idFields.sum := by
  cases c <;> first | rfl | cases hc

/-- Only `OPEN_TRUSTLET` and the registry writes carry data. -/
theorem data_eq_nil {w : WireCommand} (htl : w.command ≠ .openTrustlet)
    (hw : w.command.isRegistryWrite = false) : w.data = [] := by
  have hlen := w.length_data
  rw [DrvCommand.dataSize, if_neg htl, hw] at hlen
  exact List.length_eq_zero_iff.mp hlen

/-- The commands without data and without registry ids. -/
theorem handleCommand_plain {c : DrvCommand} (hfixed : fixed.length = c.fixedSize)
    (htl : c ≠ .openTrustlet) (hw : c.isRegistryWrite = false) (hq : isRegistryQuery c = false) :
    ∃ r, handleCommand conn turn c (fixed ++ rest) = some ⟨r, connAfter conn c fixed, rest⟩ := by
  have hnone : c.fixedSize = 0 → fixed = [] := fun h =>
    List.length_eq_zero_iff.mp (hfixed.trans h)
  have hdevice : ∀ len, c.fixedSize = len →
      ∃ r, deviceCommand conn turn len (fixed ++ rest) = ⟨r, conn, rest⟩ := fun len h =>
    deviceCommand_append (hfixed.trans h)
  cases c with
  | openDevice => exact (processOpenDevice_append hfixed).imp fun _ hr => congrArg some hr
  | nqConnect => exact (processNqConnect_append hfixed).imp fun _ hr => congrArg some hr
  | closeDevice =>
    rw [hnone rfl]
    obtain ⟨device, detached⟩ := conn
    cases device
    · exact ⟨some mcDrvErrDaemonDeviceNotOpen, rfl⟩
    · exact ⟨some mcDrvOk, rfl⟩
  | openSession => exact (hdevice 32 rfl).imp fun _ hr => congrArg some hr
  | openTrustedApp => exact (hdevice 32 rfl).imp fun _ hr => congrArg some hr
  | closeSession => exact (hdevice 4 rfl).imp fun _ hr => congrArg some hr
  | mapBulkBuf => exact (hdevice 20 rfl).imp fun _ hr => congrArg some hr
  | unmapBulkBuf => exact (hdevice 16 rfl).imp fun _ hr => congrArg some hr
  | notify =>
    refine ⟨none, congrArg some ?_⟩
    show processNotify conn (fixed ++ rest) = _
    rw [processNotify, getData_append (show fixed.length = 4 from hfixed)]
    rfl
  | getVersion =>
    rw [hnone rfl]
    exact ⟨some mcDrvOk, rfl⟩
  | getMobiCoreVersion =>
    rw [hnone rfl]
    show ∃ r, some (processGetMobiCoreVersion conn turn rest) = _
    rw [processGetMobiCoreVersion]
    split_ifs
    · exact ⟨_, rfl⟩
    · exact ⟨_, rfl⟩
  | openTrustlet => exact absurd rfl htl
  | regStoreAuthToken | regWriteRootCont | regWriteSpCont | regWriteTlCont | regWriteSoData
  | regStoreTaBlob => cases hw
  | _ => cases hq

/-- **What a handler takes.** Whatever follows a command in the stream, its handler returns, takes
the first `taken` of the bytes after the id, and leaves the connection as `connAfter` says. -/
theorem handleCommand_takes (conn : ConnState) (turn : Turn) (rest : Stream) (w : WireCommand) :
    ∃ r, handleCommand conn turn w.command (w.fixed ++ (w.data ++ rest)) = some ⟨r,
      connAfter conn w.command w.fixed,
      (w.fixed ++ w.data).drop (taken conn w turn) ++ rest⟩ := by
  have hfixed := w.length_fixed
  have hdata := w.length_data
  have hplain : w.command ≠ .openDevice → w.command ≠ .closeDevice → w.command ≠ .nqConnect →
      connAfter conn w.command w.fixed = conn := by
    intro hopen hclose hnq
    unfold connAfter
    split
    · contradiction
    · contradiction
    · contradiction
    · rfl
  rw [taken]
  by_cases htl : w.command = .openTrustlet
  · rw [if_pos htl, hplain (by simp [htl]) (by simp [htl]) (by simp [htl])]
    rw [htl] at hfixed hdata ⊢
    exact processOpenTrustlet_append hfixed hdata
  · rw [if_neg htl]
    cases hw : w.command.isRegistryWrite
    · rw [if_neg Bool.false_ne_true, data_eq_nil htl hw, List.nil_append, List.append_nil]
      cases hq : isRegistryQuery w.command
      · rw [if_neg Bool.false_ne_true, List.drop_length, List.nil_append]
        exact handleCommand_plain hfixed htl hw hq
      · have hids := hfixed.trans (fixedSize_of_query hq)
        obtain ⟨r, hr⟩ := processRegistryReadData_append conn turn rest hids
        rw [handleCommand_of_query hq, hr, if_pos rfl, hplain]
        · exact ⟨r, rfl⟩
        all_goals
          intro hc
          rw [hc] at hq
          cases hq
    · rw [DrvCommand.dataSize, if_neg htl, if_pos hw] at hdata
      have hids := hfixed.trans (fixedSize_of_write hw)
      obtain ⟨r, hr⟩ := processRegistryWriteData_append conn turn rest hids hdata
      rw [handleCommand_of_write hw, hr, if_pos rfl, hplain]
      · exact ⟨r, rfl⟩
      all_goals
        intro hc
        rw [hc] at hw
        cases hw

end Taken

/-! ## Staying in sync -/

/-- The handler of the command gets as far as its last byte: a trustlet finds a device open and
its buffer allocated, a registry write is permitted and its buffers are allocated, a registry
command with an id is permitted.  Where nothing is left to read, the exit does no harm. -/
def ReadsWhole (conn : ConnState) (w : WireCommand) (turn : Turn) : Prop :=
  (w.command = .openTrustlet → conn.device ∧ turn.malloc ∨ w.data = []) ∧
  (w.command.isRegistryWrite → turn.permitted ∧
    (turn.malloc ∨ w.command.idFields = [] ∧ w.data = []) ∧
    (w.command = .regStoreTaBlob → turn.mallocBlob ∨ w.data = [])) ∧
  (isRegistryQuery w.command → turn.permitted ∨ w.command.idFields = [])

instance (conn : ConnState) (w : WireCommand) (turn : Turn) : Decidable (ReadsWhole conn w turn) :=
  inferInstanceAs (Decidable (_ ∧ _ ∧ _))

/-- The round finds the connection in the command loop and MobiCore alive. -/
def KeptOpen (conn : ConnState) (_ : WireCommand) (turn : Turn) : Prop :=
  conn.detached = false ∧ turn.mcFault = false

theorem length_bytes (w : WireCommand) : w.bytes.length = 4 + (w.fixed.length + w.data.length) := by
  rw [WireCommand.bytes, List.length_append, length_le32, List.length_append]

theorem sum_idFields_eq_zero (c : DrvCommand) : c.idFields.sum = 0 ↔ c.idFields = [] := by
  cases c <;> decide

theorem length_le_taken_iff (conn : ConnState) (w : WireCommand) (turn : Turn) :
    w.bytes.length ≤ 4 + taken conn w turn ↔ ReadsWhole conn w turn := by
  have hfixed := w.length_fixed
  have hnil : w.data = [] ↔ w.data.length = 0 := List.length_eq_zero_iff.symm
  have hids := sum_idFields_eq_zero w.command
  rw [length_bytes, taken, ReadsWhole, hnil]
  -- what is taken depends on whether the command loads, or writes or queries the registry
  by_cases htl : w.command = .openTrustlet
  · simp only [htl, DrvCommand.isRegistryWrite, isRegistryQuery, if_true, true_implies,
      Bool.false_eq_true, false_implies, and_true]
    split_ifs with h
    · simp only [h, and_self, true_or, Nat.le_refl]
    · simp only [h, false_or]
      omega
  · cases hw : w.command.isRegistryWrite
    · have hdata : w.data.length = 0 := hnil.mp (data_eq_nil htl hw)
      cases hq : isRegistryQuery w.command
      · simp only [htl, hdata, if_false, false_implies, Bool.false_eq_true, and_self, iff_true]
        omega
      · have hlen := fixedSize_of_query hq
        cases turn.permitted
        · simp only [htl, hdata, ← hids, if_false, if_true, false_implies, true_implies,
            Bool.false_eq_true, false_or, true_and]
          omega
        · simp only [htl, hdata, if_false, if_true, false_implies, Bool.false_eq_true, true_or,
            implies_true, and_self, iff_true]
          omega
    · have hlen := fixedSize_of_write hw
      have hq : isRegistryQuery w.command = false := by
        cases hc : w.command <;> rw [hc] at hw <;> first | rfl | cases hw
      simp only [htl, hq, if_false, if_true, false_implies, true_implies, Bool.false_eq_true,
        true_and, and_true, ← hids]
      have hblob : w.command = .regStoreTaBlob → w.command.idFields.sum = 4 := fun hc => by
        rw [hc]
        rfl
      cases turn.permitted
      · simp only [if_true, Bool.false_eq_true, false_and, iff_false]
        omega
      · cases turn.malloc
        · simp only [if_true, if_false, Bool.true_eq_false, Bool.false_eq_true, false_or, true_and]
          constructor
          · intro h
            exact ⟨by omega, fun hc => .inr (by omega)⟩
          · rintro ⟨⟨hsum, hdata⟩, -⟩
            omega
        · simp only [if_false, Bool.true_eq_false, true_or, true_and]
          split_ifs with hc
          · simp only [hc.1, hc.2, true_implies, Bool.false_eq_true, false_or]
            omega
          · simp only [Nat.le_refl, true_iff]
            intro hblob
            left
            by_contra hfalse
            exact hc ⟨hblob, Bool.eq_false_iff.mpr hfalse⟩

/-- A header that is all there is read whatever is on the stack. -/
theorem readCommand_append {turn : Turn} (hfault : turn.mcFault = false) (c : DrvCommand)
    (rest : Stream) : readCommand turn (le32 c.commandId ++ rest) = some (c, rest) := by
  have hid : (le32 c.commandId ++ turn.stack.drop (le32 c.commandId).length).take 4 =
      le32 c.commandId := List.take_left' (length_le32 _)
  rw [readCommand, hfault, if_neg Bool.false_ne_true, readData, List.take_left' (length_le32 _),
    List.drop_left' (length_le32 _)]
  dsimp only
  rw [if_neg (by simp [le32]), hid, ofLe_le32, DrvCommand.ofId_commandId]
  rfl

/-- One round on a command that is followed by anything. -/
theorem clientRound_bytes (conn : ConnState) (w : WireCommand) (turn : Turn) (rest : Stream)
    (h : KeptOpen conn w turn) :
    clientRound conn turn (w.bytes ++ rest) = some (w.command,
      connAfter conn w.command w.fixed, w.bytes.drop (4 + taken conn w turn) ++ rest) := by
  obtain ⟨hopen, hfault⟩ := h
  have hread : readCommand turn (w.bytes ++ rest) =
      some (w.command, w.fixed ++ (w.data ++ rest)) := by
    rw [WireCommand.bytes, List.append_assoc, List.append_assoc]
    exact readCommand_append hfault w.command _
  obtain ⟨r, hr⟩ := handleCommand_takes conn turn rest w
  rw [clientRound, hopen, if_neg Bool.false_ne_true, hread]
  dsimp only
  rw [hr]
  show some (w.command, connAfter conn w.command w.fixed,
    (w.fixed ++ w.data).drop (taken conn w turn) ++ rest) = _
  rw [← List.drop_drop, WireCommand.bytes, List.drop_left' (length_le32 _)]

/-- The connection in which the next command finds it. -/
def nextConn (conn : ConnState) (w : WireCommand) (_ : Turn) : ConnState :=
  connAfter conn w.command w.fixed

/-- **Framing of the command loop.** On a concatenation of well-formed commands the loop decodes
exactly these commands, each with exactly its own bytes, and nothing is left over, if and only if
every handler gets as far as the last byte of its command. -/
theorem framing_iff_readsWhole {conn : ConnState} {cmds : List (WireCommand × Turn)}
    (hopen : Along nextConn KeptOpen conn cmds) :
    serve clientRound conn (cmds.map Prod.snd) (cmds.flatMap fun p => p.1.bytes) =
        (cmds.map fun p => (p.1.command, p.1.bytes), []) ↔
      Along nextConn ReadsWhole conn cmds := by
  have hframe : serve clientRound conn (cmds.map Prod.snd) (cmds.flatMap fun p => p.1.bytes) =
      (cmds.map fun p => (p.1.command, p.1.bytes), []) ↔
        Along nextConn (fun conn w turn => w.bytes.length ≤ 4 + taken conn w turn) conn cmds :=
    serve_eq_iff (fun conn w turn rest h => clientRound_bytes conn w turn rest h) hopen
  rw [hframe]
  simp only [length_le_taken_iff]

/-- A round in which everything succeeds. -/
def fairTurn : Turn := ⟨false, [], true, true, true, mcDrvOk⟩

/-- A trustlet of eight bytes that happen to be two `GET_VERSION` commands. -/
def trustletCommand : WireCommand where
  command := .openTrustlet
  fixed := le32 0 ++ le32 7 ++ le32 8 ++ le32 0 ++ le32 0 ++ le32 0
  data := le32 10 ++ le32 10
  length_fixed := rfl
  length_data := rfl

def openDeviceCommand : WireCommand where
  command := .openDevice
  fixed := le32 0
  data := []
  length_fixed := rfl
  length_data := rfl

/-- On a connection with an open device the trustlet is read as data. -/
theorem framing_trustlet :
    serve clientRound ⟨false, false⟩ [fairTurn, fairTurn]
        (openDeviceCommand.bytes ++ (trustletCommand.bytes ++ [])) =
      ([(.openDevice, openDeviceCommand.bytes), (.openTrustlet, trustletCommand.bytes)], []) := by
  have hopen : Along nextConn KeptOpen ⟨false, false⟩
      [(openDeviceCommand, fairTurn), (trustletCommand, fairTurn)] :=
    ⟨⟨rfl, rfl⟩, ⟨rfl, rfl⟩, trivial⟩
  refine (framing_iff_readsWhole hopen).mpr ⟨?_, ?_, trivial⟩
  · decide
  · decide

/-- Without a device the trustlet's bytes are left in the stream, and the loop goes on to execute
them as commands. -/
theorem framing_noDevice :
    serve clientRound ⟨false, false⟩ [fairTurn] trustletCommand.bytes ≠
        ([(.openTrustlet, trustletCommand.bytes)], []) ∧
      serve clientRound ⟨false, false⟩ [fairTurn, fairTurn, fairTurn] trustletCommand.bytes =
        ([(.openTrustlet, trustletCommand.bytes.take 28), (.getVersion, le32 10),
          (.getVersion, le32 10)], []) := by
  have hrun : serve clientRound ⟨false, false⟩ [fairTurn, fairTurn, fairTurn]
      trustletCommand.bytes = ([(.openTrustlet, trustletCommand.bytes.take 28),
        (.getVersion, le32 10), (.getVersion, le32 10)], []) := by decide
  refine ⟨fun h => ?_, hrun⟩
  exact absurd (congrArg Prod.snd h) (by decide)

end McDaemon.Daemon.Framing
