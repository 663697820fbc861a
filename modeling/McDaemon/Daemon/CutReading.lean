/-
# McDaemon.Daemon.CutReading — the command loop on a stream that arrives in pieces.

The handlers of `Framing` once more, as programs of single reads and of loops: `readCommand` takes
whatever one read returns, `RECV_PAYLOAD_FROM_CLIENT` insists on all of it, `getData` and the loop
that reads a trustlet go on until they have everything.  On a stream without cuts they are the
handlers of `Framing`.
-/
import McDaemon.Daemon.Framing
import McDaemon.Lib.Cuts

namespace McDaemon.Daemon.CutReading

open McDaemon.Lib
open Framing (ConnState Turn Outcome)

/-! ## Reading -/

/-- `RECV_PAYLOAD_FROM_CLIENT`. -/
def recvPayload (len : Nat) : Reads UInt8 (Option (List UInt8)) :=
  .once len (fun rlen => rlen = len) fun
    | .field bs => .done (some bs)
    | _ => .done none

/-- `getData`. -/
def getData (len : Nat) : Reads UInt8 (Option (List UInt8)) :=
  .all len fun
    | .field bs => .done (some bs)
    | _ => .done none

/-- `getData` for one field after another. -/
def getFields : List Nat → Reads UInt8 Bool
  | [] => .done true
  | len :: fields => (getData len).bind fun
    | none => .done false
    | some _ => getFields fields

/-! ## Handlers -/

/-- The answer of a handler, and the connection after it; `none` when it does not return. -/
abbrev Handled := Option (Option McResult × ConnState)

section Handlers

variable (conn : ConnState) (turn : Turn)

/-- The handler answers. -/
def answer (result : McResult) (conn : ConnState) : Reads UInt8 Handled :=
  .done (some (some result, conn))

def processOpenDevice : Reads UInt8 Handled :=
  (recvPayload 4).bind fun
    | none => answer mcDrvErrDaemonSocket conn
    | some cmd =>
      if conn.device then answer mcDrvErrDeviceAlreadyOpen conn
      else if ofLe cmd = mcDeviceIdDefault.toNat then answer mcDrvOk { conn with device := true }
      else answer mcDrvErrUnknownDevice conn

def processCloseDevice : Reads UInt8 Handled :=
  if conn.device then answer mcDrvOk { conn with device := false }
  else answer mcDrvErrDaemonDeviceNotOpen conn

/-- A command with a fixed payload for an open device. -/
def deviceCommand (len : Nat) : Reads UInt8 Handled :=
  (recvPayload len).bind fun
    | none => answer mcDrvErrDaemonSocket conn
    | some _ =>
      if conn.device then answer turn.result conn else answer mcDrvErrDaemonDeviceNotOpen conn

def processOpenSession : Reads UInt8 Handled := deviceCommand conn turn 32

def processCloseSession : Reads UInt8 Handled := deviceCommand conn turn 4

def processMapBulkBuf : Reads UInt8 Handled := deviceCommand conn turn 20

def processUnmapBulkBuf : Reads UInt8 Handled := deviceCommand conn turn 16

def processGetMobiCoreVersion : Reads UInt8 Handled :=
  if conn.device then answer turn.result conn else answer mcDrvErrDaemonDeviceNotOpen conn

def processGetVersion : Reads UInt8 Handled := answer mcDrvOk conn

/-- The loop that reads the trustlet adds up what it gets, and spins for ever at the end of the
stream. -/
def processOpenTrustlet : Reads UInt8 Handled :=
  (recvPayload 24).bind fun
    | none => answer mcDrvErrDaemonSocket conn
    | some cmd =>
      if conn.device = false then answer mcDrvErrDaemonDeviceNotOpen conn
      else if turn.malloc = false then answer mcDrvErrDaemonSocket conn
      else
        (getData (ofLe ((cmd.drop 8).take 4))).bind fun
          | none => .done none
          | some _ => answer turn.result conn

def processNqConnect : Reads UInt8 Handled :=
  (recvPayload 16).bind fun
    | none => answer mcDrvErrDaemonSocket conn
    | some cmd =>
      if conn.device then answer mcDrvErrNqFailed conn
      else if ofLe (cmd.take 4) = mcDeviceIdDefault.toNat then
        answer turn.result { conn with detached := true }
      else answer mcDrvErrUnknownDevice { conn with detached := true }

/-- A short notification is dropped without a word. -/
def processNotify : Reads UInt8 Handled :=
  (recvPayload 4).bind fun _ => .done (some (none, conn))

def processRegistryReadData (c : DrvCommand) : Reads UInt8 Handled :=
  if turn.permitted = false then answer mcDrvErrInvalidOperation conn
  else
    (getFields c.idFields).bind fun
      | false => answer mcDrvErrInvalidOperation conn
      | true => answer turn.result conn

def processRegistryDeleteData (c : DrvCommand) : Reads UInt8 Handled :=
  processRegistryReadData conn turn c

def processRegistryWriteData (c : DrvCommand) : Reads UInt8 Handled :=
  if turn.permitted = false then answer mcDrvErrInvalidOperation conn
  else
    (getData 4).bind fun
      | none => answer mcDrvErrInvalidOperation conn
      | some soSize =>
        if turn.malloc = false then answer mcDrvErrNoFreeMemory conn
        else
          (getFields c.idFields).bind fun
            | false => answer mcDrvErrInvalidOperation conn
            | true =>
              if c = .regStoreTaBlob ∧ turn.mallocBlob = false then
                answer mcDrvErrNoFreeMemory conn
              else
                (getData (ofLe soSize)).bind fun
                  | none => answer mcDrvErrInvalidOperation conn
                  | some _ => answer turn.result conn

/-- `MobiCoreDriverDaemon::handleCommand`. -/
def handleCommand (c : DrvCommand) : Reads UInt8 Handled :=
  match c with
  | .openDevice => processOpenDevice conn
  | .closeDevice => processCloseDevice conn
  | .openSession => processOpenSession conn turn
  | .openTrustlet => processOpenTrustlet conn turn
  | .openTrustedApp => processOpenSession conn turn
  | .closeSession => processCloseSession conn turn
  | .nqConnect => processNqConnect conn turn
  | .notify => processNotify conn
  | .mapBulkBuf => processMapBulkBuf conn turn
  | .unmapBulkBuf => processUnmapBulkBuf conn turn
  | .getVersion => processGetVersion conn
  | .getMobiCoreVersion => processGetMobiCoreVersion conn turn
  | .regStoreAuthToken => processRegistryWriteData conn turn .regStoreAuthToken
  | .regWriteRootCont => processRegistryWriteData conn turn .regWriteRootCont
  | .regWriteSpCont => processRegistryWriteData conn turn .regWriteSpCont
  | .regWriteTlCont => processRegistryWriteData conn turn .regWriteTlCont
  | .regWriteSoData => processRegistryWriteData conn turn .regWriteSoData
  | .regStoreTaBlob => processRegistryWriteData conn turn .regStoreTaBlob
  | .regReadAuthToken => processRegistryReadData conn turn .regReadAuthToken
  | .regReadRootCont => processRegistryReadData conn turn .regReadRootCont
  | .regReadSpCont => processRegistryReadData conn turn .regReadSpCont
  | .regReadTlCont => processRegistryReadData conn turn .regReadTlCont
  | .regDeleteAuthToken => processRegistryDeleteData conn turn .regDeleteAuthToken
  | .regDeleteRootCont => processRegistryDeleteData conn turn .regDeleteRootCont
  | .regDeleteSpCont => processRegistryDeleteData conn turn .regDeleteSpCont
  | .regDeleteTlCont => processRegistryDeleteData conn turn .regDeleteTlCont

/-- `MobiCoreDriverDaemon::readCommand` takes what one read returns, whatever its length; the rest
of the header is what was on the stack. -/
def readCommand : Reads UInt8 (Option DrvCommand) :=
  if turn.mcFault then .done none
  else
    .once 4 (fun _ => true) fun
      | .field got =>
        .done (DrvCommand.ofId (ofLe ((got ++ turn.stack.drop got.length).take 4)))
      | _ => .done none

end Handlers

/-- The client loop, with the commands that it has handled and its answers. -/
def clientLoop : ConnState → List Turn → List (DrvCommand × Option McResult) →
    Reads UInt8 (List (DrvCommand × Option McResult))
  | _, [], served => .done served
  | conn, turn :: turns, served =>
    if conn.detached then .done served
    else
      (readCommand turn).bind fun
        | none => .done served
        | some c =>
          (handleCommand conn turn c).bind fun
            | none => .done served
            | some (reply, conn) => clientLoop conn turns (served ++ [(c, reply)])

/-! ## Without cuts -/

section Uncut

variable {conn : ConnState} {turn : Turn} {s : Framing.Stream} {α : Type}

/-- The result of a handler with what it leaves in the stream. -/
def outcome (r : Reading UInt8 Handled) : Option Outcome :=
  r.result.map fun handled => ⟨handled.1, handled.2, r.rest⟩

theorem read_recvPayload {len : Nat} (hlen : 0 < len) (s : Framing.Stream) :
    ∃ trace, (recvPayload len).read s =
      ⟨trace, (Framing.getData len s).1, (Framing.getData len s).2⟩ := by
  unfold recvPayload Reads.read Reads.judge Framing.getData Framing.readData
  dsimp only
  by_cases hall : (s.take len).length = len
  · have hsome : (s.take len).length ≠ 0 := by omega
    rw [if_neg hsome, if_pos hall, if_pos (decide_eq_true hall)]
    exact ⟨_, rfl⟩
  · have hrefuse : ¬ decide ((s.take len).length = len) = true := fun h =>
      hall (of_decide_eq_true h)
    rw [if_neg hall, if_neg hrefuse]
    split_ifs
    · exact ⟨_, rfl⟩
    · exact ⟨_, rfl⟩

theorem read_getData (len : Nat) (s : Framing.Stream) :
    ∃ trace, (getData len).read s =
      ⟨trace, (Framing.getData len s).1, (Framing.getData len s).2⟩ := by
  unfold getData Reads.read Reads.judgeAll Framing.getData Framing.readData
  dsimp only
  split_ifs
  · exact ⟨_, rfl⟩
  · exact ⟨_, rfl⟩

theorem outcome_of_read {p : Reads UInt8 α} {f : α → Reads UInt8 Handled} {a : α}
    {rest : Framing.Stream} (h : ∃ trace, p.read s = ⟨trace, a, rest⟩) :
    outcome ((p.bind f).read s) = outcome ((f a).read rest) := by
  obtain ⟨trace, h⟩ := h
  rw [Reads.read_bind, h]
  rfl

theorem read_getFields (fields : List Nat) (s : Framing.Stream) :
    ∃ trace, (getFields fields).read s =
      ⟨trace, (Framing.getFields fields s).1, (Framing.getFields fields s).2⟩ := by
  induction fields generalizing s with
  | nil => exact ⟨[], rfl⟩
  | cons len fields ih =>
    obtain ⟨trace, hread⟩ := read_getData len s
    unfold getFields Framing.getFields
    rw [Reads.read_bind, hread]
    rcases Framing.getData len s with ⟨_ | got, rest⟩
    · exact ⟨trace ++ [], rfl⟩
    · obtain ⟨more, hmore⟩ := ih rest
      refine ⟨trace ++ more, ?_⟩
      show (_ : Reading UInt8 Bool) = _
      dsimp only
      rw [hmore]

theorem outcome_processOpenDevice : outcome ((processOpenDevice conn).read s) =
    some (Framing.processOpenDevice conn s) := by
  unfold processOpenDevice Framing.processOpenDevice
  rw [outcome_of_read (read_recvPayload (by decide) s)]
  rcases Framing.getData 4 s with ⟨_ | cmd, rest⟩
  · rfl
  · dsimp only
    split_ifs <;> rfl

theorem outcome_deviceCommand {len : Nat} (hlen : 0 < len) :
    outcome ((deviceCommand conn turn len).read s) =
      some (Framing.deviceCommand conn turn len s) := by
  unfold deviceCommand Framing.deviceCommand
  rw [outcome_of_read (read_recvPayload hlen s)]
  rcases Framing.getData len s with ⟨_ | cmd, rest⟩
  · rfl
  · dsimp only
    split_ifs <;> rfl

theorem outcome_processOpenTrustlet : outcome ((processOpenTrustlet conn turn).read s) =
    Framing.processOpenTrustlet conn turn s := by
  unfold processOpenTrustlet Framing.processOpenTrustlet
  rw [outcome_of_read (read_recvPayload (by decide) s)]
  rcases Framing.getData 24 s with ⟨_ | cmd, rest⟩
  · rfl
  · dsimp only
    split_ifs
    · rfl
    · rfl
    · rw [outcome_of_read (read_getData _ rest)]
      rcases Framing.getData (ofLe ((cmd.drop 8).take 4)) rest with ⟨_ | data, rest⟩
      · rfl
      · rfl

theorem outcome_processNqConnect : outcome ((processNqConnect conn turn).read s) =
    some (Framing.processNqConnect conn turn s) := by
  unfold processNqConnect Framing.processNqConnect
  rw [outcome_of_read (read_recvPayload (by decide) s)]
  rcases Framing.getData 16 s with ⟨_ | cmd, rest⟩
  · rfl
  · dsimp only
    split_ifs <;> rfl

theorem outcome_processRegistryReadData (c : DrvCommand) :
    outcome ((processRegistryReadData conn turn c).read s) =
      some (Framing.processRegistryReadData conn turn c s) := by
  unfold processRegistryReadData Framing.processRegistryReadData
  split_ifs
  · rfl
  · rw [outcome_of_read (read_getFields _ s)]
    rcases Framing.getFields c.idFields s with ⟨_ | _, rest⟩
    · rfl
    · rfl

theorem outcome_processRegistryWriteData (c : DrvCommand) :
    outcome ((processRegistryWriteData conn turn c).read s) =
      some (Framing.processRegistryWriteData conn turn c s) := by
  unfold processRegistryWriteData Framing.processRegistryWriteData
  by_cases hpermitted : turn.permitted = false
  · rw [if_pos hpermitted, if_pos hpermitted]
    rfl
  rw [if_neg hpermitted, if_neg hpermitted, outcome_of_read (read_getData _ s)]
  rcases Framing.getData 4 s with ⟨_ | soSize, rest⟩
  · rfl
  dsimp only
  by_cases hmalloc : turn.malloc = false
  · rw [if_pos hmalloc, if_pos hmalloc]
    rfl
  rw [if_neg hmalloc, if_neg hmalloc, outcome_of_read (read_getFields _ rest)]
  rcases Framing.getFields c.idFields rest with ⟨_ | _, rest⟩
  · rfl
  dsimp only
  by_cases hblob : c = .regStoreTaBlob ∧ turn.mallocBlob = false
  · rw [if_pos hblob, if_pos hblob]
    rfl
  rw [if_neg hblob, if_neg hblob, outcome_of_read (read_getData _ rest)]
  rcases Framing.getData (ofLe soSize) rest with ⟨_ | data, rest⟩
  · rfl
  · rfl

/-- **Without cuts** the programs are the handlers of `Framing`. -/
theorem outcome_handleCommand (conn : ConnState) (turn : Turn) (c : DrvCommand)
    (s : Framing.Stream) :
    outcome ((handleCommand conn turn c).read s) = Framing.handleCommand conn turn c s := by
  cases c with
  | openDevice => exact outcome_processOpenDevice
  | openTrustlet => exact outcome_processOpenTrustlet
  | nqConnect => exact outcome_processNqConnect
  | openSession | openTrustedApp | closeSession | mapBulkBuf | unmapBulkBuf =>
    exact outcome_deviceCommand (by decide)
  | notify => exact outcome_of_read (read_recvPayload (by decide) s)
  | closeDevice =>
    show outcome ((processCloseDevice conn).read s) = some (Framing.processCloseDevice conn s)
    unfold processCloseDevice Framing.processCloseDevice
    split_ifs <;> rfl
  | getVersion => rfl
  | getMobiCoreVersion =>
    show outcome ((processGetMobiCoreVersion conn turn).read s) =
      some (Framing.processGetMobiCoreVersion conn turn s)
    unfold processGetMobiCoreVersion Framing.processGetMobiCoreVersion
    split_ifs <;> rfl
  | regStoreAuthToken | regWriteRootCont | regWriteSpCont | regWriteTlCont | regWriteSoData
  | regStoreTaBlob => exact outcome_processRegistryWriteData _
  | regReadAuthToken | regReadRootCont | regReadSpCont | regReadTlCont | regDeleteAuthToken
  | regDeleteRootCont | regDeleteSpCont | regDeleteTlCont =>
    exact outcome_processRegistryReadData _

theorem read_readCommand (turn : Turn) (s : Framing.Stream) :
    Framing.readCommand turn s = ((readCommand turn).read s).result.map fun c =>
      (c, ((readCommand turn).read s).rest) := by
  unfold Framing.readCommand readCommand Framing.readData
  split_ifs with hfault
  · rfl
  · unfold Reads.read Reads.judge
    dsimp only
    by_cases hnil : s.take 4 = []
    · rw [if_pos hnil, hnil]
      rfl
    · have hlen : (s.take 4).length ≠ 0 := fun h => hnil (List.length_eq_zero_iff.mp h)
      rw [if_neg hnil, if_neg hlen, if_pos rfl]
      rfl

theorem read_clientRound (h : ¬ conn.detached = true) :
    Framing.clientRound conn turn s = ((readCommand turn).read s).result.bind fun c =>
      (outcome ((handleCommand conn turn c).read ((readCommand turn).read s).rest)).map fun o =>
        (c, o.conn, o.rest) := by
  unfold Framing.clientRound
  rw [if_neg h, read_readCommand]
  cases ((readCommand turn).read s).result with
  | none => rfl
  | some c =>
    dsimp only [Option.map, Option.bind]
    rw [outcome_handleCommand]

/-- Without cuts the loop handles the commands that `serve` decodes. -/
theorem result_clientLoop (conn : ConnState) (turns : List Turn)
    (served : List (DrvCommand × Option McResult)) (s : Framing.Stream) :
    ((clientLoop conn turns served).read s).result.map Prod.fst =
      served.map Prod.fst ++ (serve Framing.clientRound conn turns s).1.map Prod.fst := by
  induction turns generalizing conn served s with
  | nil => exact (List.append_nil _).symm
  | cons turn turns ih =>
    unfold clientLoop serve
    by_cases hdetached : conn.detached = true
    · have hround : Framing.clientRound conn turn s = none := if_pos hdetached
      rw [if_pos hdetached, hround]
      exact (List.append_nil _).symm
    rw [if_neg hdetached, Reads.read_bind, read_clientRound hdetached]
    obtain ⟨trace, _ | c, rest⟩ := (readCommand turn).read s
    · exact (List.append_nil _).symm
    dsimp only [Option.bind]
    rw [Reads.read_bind]
    obtain ⟨more, _ | ⟨reply, conn⟩, rest⟩ := (handleCommand conn turn c).read rest
    · exact (List.append_nil _).symm
    show ((clientLoop conn turns (served ++ [(c, reply)])).read rest).result.map Prod.fst =
      served.map Prod.fst ++ (c :: (serve Framing.clientRound conn turns rest).1.map Prod.fst)
    rw [ih, List.map_append, List.append_assoc]
    rfl

end Uncut

/-! ## Care -/

section Careful

variable {conn : ConnState} {turn : Turn} {α : Type}

/-- No refusal is of interest. -/
abbrev Whatever : Handled → Prop := fun _ => True

theorem quits_recvPayload {len : Nat} (hlen : 0 < len) : (recvPayload len).Quits (· = none) := by
  refine ⟨hlen, decide_eq_true rfl, ⟨none, rfl, rfl⟩, fun e => ?_⟩
  cases e <;> trivial

theorem quits_getData (len : Nat) : (getData len).Quits fun _ => False := by
  intro e
  cases e <;> trivial

theorem quits_getFields (fields : List Nat) : (getFields fields).Quits fun _ => False := by
  induction fields with
  | nil => trivial
  | cons len fields ih =>
    apply (quits_getData len).bind
    · rintro (_ | got)
      · trivial
      · exact ih
    · exact fun _ h => h.elim

/-- A handler that reads its payload and answers. -/
theorem quits_payload {len : Nat} (hlen : 0 < len) {f : Option (List UInt8) → Reads UInt8 Handled}
    {handled : Handled} (hnone : f none = .done handled)
    (hsome : ∀ cmd, (f (some cmd)).Quits Whatever) :
    ((recvPayload len).bind f).Quits Whatever := by
  apply (quits_recvPayload hlen).bind
  · rintro (_ | cmd)
    · rw [hnone]
      trivial
    · exact hsome cmd
  · rintro _ rfl
    exact ⟨handled, trivial, hnone⟩

theorem quits_processRegistryReadData (c : DrvCommand) :
    (processRegistryReadData conn turn c).Quits Whatever := by
  unfold processRegistryReadData
  split_ifs
  · trivial
  · apply (quits_getFields _).bind
    · rintro (_ | _) <;> trivial
    · exact fun _ h => h.elim

theorem quits_processRegistryWriteData (c : DrvCommand) :
    (processRegistryWriteData conn turn c).Quits Whatever := by
  unfold processRegistryWriteData
  by_cases hpermitted : turn.permitted = false
  · rw [if_pos hpermitted]
    trivial
  rw [if_neg hpermitted]
  apply (quits_getData _).bind _ fun _ h => h.elim
  rintro (_ | soSize)
  · trivial
  dsimp only
  by_cases hmalloc : turn.malloc = false
  · rw [if_pos hmalloc]
    trivial
  rw [if_neg hmalloc]
  apply (quits_getFields _).bind _ fun _ h => h.elim
  rintro (_ | _)
  · trivial
  dsimp only
  by_cases hblob : c = .regStoreTaBlob ∧ turn.mallocBlob = false
  · rw [if_pos hblob]
    trivial
  rw [if_neg hblob]
  apply (quits_getData _).bind _ fun _ h => h.elim
  rintro (_ | data) <;> trivial

/-- A handler that refuses its payload reads nothing more. -/
theorem quits_handleCommand (conn : ConnState) (turn : Turn) (c : DrvCommand) :
    (handleCommand conn turn c).Quits Whatever := by
  cases c with
  | openDevice =>
    apply quits_payload (by decide) rfl
    intro cmd
    dsimp only
    split_ifs <;> trivial
  | nqConnect =>
    apply quits_payload (by decide) rfl
    intro cmd
    dsimp only
    split_ifs <;> trivial
  | openTrustlet =>
    apply quits_payload (by decide) rfl
    intro cmd
    dsimp only
    split_ifs
    · trivial
    · trivial
    · apply (quits_getData _).bind _ fun _ h => h.elim
      rintro (_ | data) <;> trivial
  | openSession | openTrustedApp | closeSession | mapBulkBuf | unmapBulkBuf =>
    apply quits_payload (by decide) rfl
    intro cmd
    dsimp only
    split_ifs <;> trivial
  | notify => exact quits_payload (by decide) rfl fun _ => trivial
  | closeDevice =>
    show (processCloseDevice conn).Quits Whatever
    unfold processCloseDevice
    split_ifs <;> trivial
  | getVersion => trivial
  | getMobiCoreVersion =>
    show (processGetMobiCoreVersion conn turn).Quits Whatever
    unfold processGetMobiCoreVersion
    split_ifs <;> trivial
  | regStoreAuthToken | regWriteRootCont | regWriteSpCont | regWriteTlCont | regWriteSoData
  | regStoreTaBlob => exact quits_processRegistryWriteData _
  | regReadAuthToken | regReadRootCont | regReadSpCont | regReadTlCont | regDeleteAuthToken
  | regDeleteRootCont | regDeleteSpCont | regDeleteTlCont =>
    exact quits_processRegistryReadData _

theorem quits_readCommand (turn : Turn) : (readCommand turn).Quits (· = none) := by
  unfold readCommand
  split_ifs
  · trivial
  · refine ⟨by decide, rfl, ⟨none, rfl, rfl⟩, fun e => ?_⟩
    cases e <;> trivial

/-- The loop is at a header, or it has ended. -/
theorem notices_clientLoop (conn : ConnState) (turns : List Turn)
    (served : List (DrvCommand × Option McResult)) : (clientLoop conn turns served).Notices := by
  cases turns with
  | nil => exact Reads.notices_done
  | cons turn turns =>
    unfold clientLoop readCommand
    by_cases hdetached : conn.detached = true
    · rw [if_pos hdetached]
      exact Reads.notices_done
    rw [if_neg hdetached]
    by_cases hfault : turn.mcFault = true
    · rw [if_pos hfault]
      exact Reads.notices_done
    rw [if_neg hfault]
    exact Reads.notices_once (by decide)

theorem careful_clientLoop (conn : ConnState) (turns : List Turn)
    (served : List (DrvCommand × Option McResult)) : (clientLoop conn turns served).Careful := by
  induction turns generalizing conn served with
  | nil => trivial
  | cons turn turns ih =>
    unfold clientLoop
    split_ifs
    · trivial
    · apply (quits_readCommand turn).careful_bind
      · rintro (_ | c)
        · trivial
        · apply (quits_handleCommand conn turn c).careful_bind
          · rintro (_ | ⟨reply, conn⟩)
            · trivial
            · exact ih conn _
          · rintro (_ | ⟨reply, conn⟩) -
            · exact Reads.notices_done
            · exact notices_clientLoop conn turns _
      · rintro _ rfl
        exact Reads.notices_done

end Careful

end McDaemon.Daemon.CutReading
