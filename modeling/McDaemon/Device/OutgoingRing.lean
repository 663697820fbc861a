/-
# McDaemon.Device.OutgoingRing — notifications towards the secure world, and the ones that are lost.

Whoever sends a notification calls `putNotification` three calls down, which returns nothing and
drops it when the ring is full.  `notify` answers MC_DRV_OK all the same, and `mshNotifyAndWait`
waits for an answer to a command that the secure world never hears of.  Clients fill the ring as
fast as they like: nothing looks at it before a notification is sent.
-/
import McDaemon.Device.Machine
import McDaemon.Device.NotificationFifo

namespace McDaemon.Device

open McDaemon.Lib

/-! ## What is sent -/

/-- The ring of the device is the list of what is pending in the ring that it shares. -/
theorem nqOut_putNotification {s : DeviceState} {q : Ring Notification 4}
    (h : s.nqOut = q.pending) (n : Notification) :
    (s.putNotification n).nqOut = (NotificationQueue.putNotification q n).pending := by
  rw [NotificationQueue.pending_putNotification, DeviceState.putNotification, h]
  rfl

/-- The holder of `mutex_mcp` is in `waitMcpNotification`. -/
def McpThread.waits : McpThread → Bool
  | .openWait .. | .closeWait .. | .mapWait .. | .unmapWait .. | .checkLoadWait
  | .taExitWait .. => true
  | .idle | .openDrain .. | .closeLoop .. | .taExitLoop | .aborted => false

namespace DeviceState

/-- `MobiCoreDevice::notify`. -/
def notify (s : DeviceState) (conn : Conn) (sessionId : UInt32) : McResult × DeviceState :=
  match s.findSession conn sessionId with
  | none => (mcDrvErrDaemonUnknownSession, s)
  | some _ => (mcDrvOk, s.notifySession sessionId)

theorem processNotify_eq (s : DeviceState) (conn : Conn) (sessionId : UInt32) :
    s.processNotify conn sessionId =
      if conn ∉ s.connectionData then s else (s.notify conn sessionId).2 := by
  unfold processNotify notify
  cases s.findSession conn sessionId <;> rfl

end DeviceState

/-- The device, and whether `loadToken` is in its exchange.  The registry commands call it under
their own mutex, so it is there once at most, and overlaps with whoever holds `mutex_mcp`. -/
structure SendingState where
  device : DeviceState
  loadTokenWaits : Bool

inductive SendingAction where
  | device (a : Action)
  | loadToken
  | loadTokenWake (w : McpWake)
deriving DecidableEq, Repr

def SendingState.step (s : SendingState) : SendingAction → Option SendingState
  | .device a => (s.device.step a).map fun t => { s with device := t }
  | .loadToken =>
    if s.loadTokenWaits then none
    else (s.device.step (.concurrent .loadToken)).map fun t => ⟨t.notifySession sidMcp, true⟩
  | .loadTokenWake w =>
    if s.loadTokenWaits then (waitMcpNotification s.device w).map fun x => ⟨x.2, false⟩ else none

/-- A running daemon; `checkMobiCoreVersion` has fetched the version before the servers start, so
that `getMobiCoreVersion` makes no exchange any more. -/
def sendingMachine : Machine SendingState SendingAction where
  init := fun s => machine.init s.device ∧ s.loadTokenWaits = false
  step := SendingState.step

/-- The session whose notification a step from `s` to `t` tells to have sent: `notify` returns
MC_DRV_OK, or `mshNotifyAndWait` starts to wait, which it does not after a fault. -/
def reportedSent (s t : SendingState) : SendingAction → Option UInt32
  | .device (.concurrent (.notify conn sessionId)) =>
    if conn ∈ s.device.connectionData ∧ (s.device.notify conn sessionId).1 = mcDrvOk then
      some sessionId
    else none
  | .device (.concurrent _) | .loadTokenWake _ => none
  | .device _ => if t.device.mcp.waits && !t.device.mcFault then some sidMcp else none
  | .loadToken => if t.device.mcFault then none else some sidMcp

/-- A notification that a step tells to have sent has been appended to the ring. -/
def Appended (s : SendingState) (a : SendingAction) : Prop :=
  ∀ t sessionId, s.step a = some t → reportedSent s t a = some sessionId →
    t.device.nqOut = s.device.nqOut ++ [⟨sessionId, 0⟩]

/-- The ring has room when a step sends. -/
def RoomLeft (s : SendingState) (a : SendingAction) : Prop :=
  ∀ t sessionId, s.step a = some t → reportedSent s t a = some sessionId →
    s.device.nqOut.length < nqNumElems

/-! ## Sections -/

/-- From `s` to `t`, a section of an operation has sent one MCP notification if it waits at its end,
and has left the ring alone otherwise. -/
def SendsIfWaits (s t : DeviceState) : Prop :=
  t.nqOut = if t.mcp.waits then (s.notifySession sidMcp).nqOut else s.nqOut

theorem SendsIfWaits.quiet {s t : DeviceState} (hpc : t.mcp.waits = false)
    (hout : t.nqOut = s.nqOut) : SendsIfWaits s t := by
  rw [SendsIfWaits, hpc, hout]
  rfl

theorem SendsIfWaits.exchange {s s' : DeviceState} {c : McpCommand} {pc : McpThread}
    (hpc : pc.waits = true) (hout : s'.nqOut = s.nqOut) :
    SendsIfWaits s (s'.mshNotifyAndWait c pc) := by
  simp [SendsIfWaits, hpc, hout]

theorem SendsIfWaits.of_nqOut {s s' t : DeviceState} (h : SendsIfWaits s' t)
    (hout : s'.nqOut = s.nqOut) : SendsIfWaits s t := by
  simpa [SendsIfWaits, hout] using h

namespace DeviceState

theorem nqOut_lockTci (s : DeviceState) (c : OpenCommand) : (s.lockTci c).nqOut = s.nqOut := by
  unfold lockTci
  split <;> rfl

theorem nqOut_unlockTci (s : DeviceState) (c : OpenCommand) :
    (s.unlockTci c).nqOut = s.nqOut := by
  unfold unlockTci
  split <;> rfl

theorem nqOut_creditTci (s : DeviceState) (c : OpenCommand) (p : Nat) :
    (s.creditTci c p).nqOut = s.nqOut := by
  unfold creditTci
  split <;> rfl

theorem nqOut_queueNotification (s : DeviceState) (p : Nat) (n : Notification) :
    (s.queueNotification p n).nqOut = s.nqOut := by
  unfold queueNotification
  cases s.trustletSessions.get? p with
  | none => rfl
  | some v =>
    dsimp only
    split <;> rfl

theorem nqOut_deleteConnection (s : DeviceState) (conn : Option Conn) :
    (s.deleteConnection conn).nqOut = s.nqOut := by
  cases conn <;> rfl

theorem nqOut_disconnectGp (s : DeviceState) (p : Nat) (v : TrustletSession) :
    (s.disconnectGp p v).nqOut = s.nqOut := by
  unfold disconnectGp
  split
  · exact nqOut_deleteConnection s v.notificationConnection
  · rfl

theorem nqOut_unlockBuffers (s : DeviceState) (p : Nat) (ws : List CWsm) :
    (s.unlockBuffers p ws).nqOut = s.nqOut := by
  induction ws generalizing s with
  | nil => rfl
  | cons w ws ih =>
    rw [unlockBuffers, ih]
    rfl

theorem nqOut_removeSession (s : DeviceState) (p : Nat) (v : TrustletSession) :
    (s.removeSession p v).nqOut = s.nqOut :=
  nqOut_deleteConnection _ _

theorem nqOut_freeSession (s : DeviceState) (p : Nat) (v : TrustletSession) :
    (s.freeSession p v).nqOut = s.nqOut :=
  (nqOut_removeSession _ p v).trans (nqOut_unlockBuffers s p _)

/-! ### Open -/

theorem openSession_sends (s : DeviceState) (conn : Conn) (ld : LoadData) (c : OpenCommand) :
    SendsIfWaits s (s.openSession conn ld c) := by
  unfold openSession
  split
  · exact .quiet rfl rfl
  · split_ifs
    · exact .quiet rfl rfl
    · exact .quiet rfl (nqOut_lockTci s c)
    · exact .exchange rfl (nqOut_lockTci s c)

theorem processOpenSession_sends (s : DeviceState) (conn : Conn) (c : OpenCommand) :
    SendsIfWaits s (s.processOpenSession conn c) := by
  unfold processOpenSession
  split
  · exact .quiet rfl rfl
  · cases c.load with
    | none => exact .quiet rfl rfl
    | some ld =>
      dsimp only
      split
      · exact openSession_sends s conn ld c
      · exact .quiet rfl rfl

theorem openSessionAnswer_sends (s : DeviceState) (conn : Conn) (ld : LoadData) (c : OpenCommand)
    (new : NewSession) (rsp : Option McpResponse) :
    SendsIfWaits s (s.openSessionAnswer conn ld c new rsp) := by
  unfold openSessionAnswer
  split
  · exact .quiet rfl (nqOut_unlockTci s c)
  · exact .quiet rfl (nqOut_creditTci _ c _)

/-! ### Close -/

theorem closeSessionReturn_sends {s t : DeviceState} (caller : CloseCaller) (code : McResult)
    (hout : t.nqOut = s.nqOut) : SendsIfWaits s (t.closeSessionReturn caller code) := by
  cases caller with
  | client conn => exact .quiet rfl hout
  | device conn drop => exact .quiet rfl hout

theorem closeSession_sends (s : DeviceState) (caller : CloseCaller) (sessionId : UInt32) :
    SendsIfWaits s (s.closeSession caller sessionId) := by
  unfold closeSession
  split
  · exact closeSessionReturn_sends caller _ rfl
  · split
    · exact closeSessionReturn_sends caller _ rfl
    · exact .exchange rfl (nqOut_disconnectGp s _ _)

theorem closeSessionAnswer_sends (s : DeviceState) (caller : CloseCaller) (p : Nat) (retry : Bool)
    (rsp : Option McpResponse) : SendsIfWaits s (s.closeSessionAnswer caller p retry rsp) := by
  unfold closeSessionAnswer
  split
  · exact .quiet rfl rfl
  · dsimp only
    split_ifs
    · exact .quiet rfl rfl
    · exact .exchange rfl rfl
    · exact closeSessionReturn_sends caller _ rfl
    · exact closeSessionReturn_sends caller _ rfl
    · exact closeSessionReturn_sends caller _ (nqOut_freeSession s p _)

theorem closeRound_sends (s : DeviceState) (conn : Conn) (drop : Bool) :
    SendsIfWaits s (s.closeRound conn drop) := by
  have hreturn : SendsIfWaits s (s.closeReturn conn drop) := by
    unfold closeReturn
    cases drop with
    | true => exact .quiet rfl rfl
    | false => exact .quiet rfl rfl
  unfold closeRound
  split
  · exact hreturn
  · split
    · exact hreturn
    · exact closeSession_sends s _ _

/-! ### Map and unmap -/

theorem mapBulk_sends (s : DeviceState) (conn : Conn) (c : MapCommand) :
    SendsIfWaits s (s.mapBulk conn c) := by
  unfold mapBulk
  split
  · exact .quiet rfl rfl
  · split
    · exact .quiet rfl rfl
    · exact .exchange rfl rfl

theorem processMapBulkBuf_sends (s : DeviceState) (conn : Conn) (c : MapCommand) :
    SendsIfWaits s (s.processMapBulkBuf conn c) := by
  unfold processMapBulkBuf
  split
  · exact .quiet rfl rfl
  · split
    · exact .quiet rfl rfl
    · split
      · exact .quiet rfl rfl
      · exact (mapBulk_sends _ conn c).of_nqOut rfl

theorem processUnmapBulkBuf_sends (s : DeviceState) (conn : Conn) (c : UnmapCommand) :
    SendsIfWaits s (s.processUnmapBulkBuf conn c) := by
  unfold processUnmapBulkBuf
  split
  · exact .quiet rfl rfl
  · split
    · exact .quiet rfl rfl
    · split
      · exact .quiet rfl rfl
      · split
        · exact .exchange rfl rfl
        · exact .quiet rfl rfl

/-! ### Steps -/

theorem handleCommand_sends (s : DeviceState) (conn : Conn) (c : Command) :
    SendsIfWaits s (s.handleCommand conn c) := by
  cases c with
  | openDevice deviceId =>
    simp only [handleCommand, processOpenDevice]
    split_ifs <;> exact .quiet rfl rfl
  | closeDevice =>
    simp only [handleCommand, processCloseDevice]
    split_ifs <;> exact .quiet rfl rfl
  | openSession c => exact processOpenSession_sends s conn c
  | closeSession sessionId =>
    simp only [handleCommand, processCloseSession]
    split
    · exact .quiet rfl rfl
    · exact closeSession_sends s _ sessionId
  | mapBulk c => exact processMapBulkBuf_sends s conn c
  | unmapBulk c => exact processUnmapBulkBuf_sends s conn c

theorem afterWait_sends {s t : DeviceState} {new : NewSession} {rsp : Option McpResponse}
    {pc : McpThread} (h : s.afterWait new rsp pc = some t) : SendsIfWaits s t := by
  cases pc with
  | openWait conn ld c =>
    cases h
    exact openSessionAnswer_sends s conn ld c new rsp
  | closeWait caller p retry =>
    cases h
    exact closeSessionAnswer_sends s caller p retry rsp
  | mapWait conn p c added =>
    cases h
    unfold mapBulkAnswer
    split <;> exact .quiet rfl rfl
  | unmapWait conn p c =>
    cases h
    unfold unmapBulkAnswer
    split <;> exact .quiet rfl rfl
  | checkLoadWait =>
    cases h
    exact .quiet rfl rfl
  | taExitWait p =>
    cases h
    unfold taExitAnswer
    split
    · exact .quiet rfl rfl
    · split
      · exact .quiet rfl (nqOut_removeSession s p _)
      · exact .quiet rfl rfl
  | idle | openDrain conn p rsp u | closeLoop conn drop | taExitLoop | aborted => cases h

theorem nextRound_sends {s t : DeviceState} {pc : McpThread} (hpc : s.mcp = pc)
    (h : s.nextRound pc = some t) : SendsIfWaits s t := by
  cases pc with
  | openDrain conn p rsp u =>
    cases h
    unfold openSessionDrain
    split
    · next n ns _ =>
      have hmcp : (s.queueNotification p n).mcp = s.mcp := by
        unfold queueNotification
        cases s.trustletSessions.get? p with
        | none => rfl
        | some v =>
          dsimp only
          split <;> rfl
      exact .quiet (by simp [hmcp, hpc, McpThread.waits]) (nqOut_queueNotification s p n)
    · split <;> exact .quiet rfl rfl
  | closeLoop conn drop =>
    cases h
    exact closeRound_sends s conn drop
  | taExitLoop =>
    cases h
    unfold taExitRound
    split
    · exact .quiet rfl rfl
    · split
      · exact .quiet rfl rfl
      · exact .exchange rfl rfl
  | idle | openWait conn ld c | closeWait caller p retry | mapWait conn p c added
  | unmapWait conn p c | checkLoadWait | taExitWait p | aborted => cases h

/-- **What a step of the holder sends.** -/
theorem step_sends {s t : DeviceState} {a : Action} (h : s.step a = some t)
    (ha : ∀ c, a ≠ .concurrent c) : SendsIfWaits s t := by
  cases a with
  | command conn c =>
    obtain ⟨-, h⟩ := Option.ite_none_right_eq_some.mp h
    cases h
    exact handleCommand_sends s conn c
  | drop conn =>
    obtain ⟨hidle, h⟩ := Option.ite_none_right_eq_some.mp h
    cases h
    unfold dropConnection
    split
    · exact .quiet (by rw [hidle]; rfl) rfl
    · exact .quiet rfl rfl
  | checkLoad =>
    obtain ⟨-, h⟩ := Option.ite_none_right_eq_some.mp h
    cases h
    exact .exchange rfl rfl
  | taExit =>
    obtain ⟨-, h⟩ := Option.ite_none_right_eq_some.mp h
    cases h
    exact .quiet rfl rfl
  | round => exact nextRound_sends rfl h
  | wake w new =>
    obtain ⟨⟨rsp, s'⟩, hwait, h⟩ := Option.bind_eq_some_iff.mp h
    have hout : s'.nqOut = s.nqOut := by
      unfold waitMcpNotification at hwait
      split at hwait
      · cases hwait; rfl
      · cases w with
        | notified r =>
          obtain ⟨-, hwait⟩ := Option.ite_none_left_eq_some.mp hwait
          cases hwait; rfl
        | silent => cases hwait; rfl
        | exiting =>
          obtain ⟨-, hwait⟩ := Option.ite_none_left_eq_some.mp hwait
          cases hwait; rfl
    exact (afterWait_sends h).of_nqOut hout
  | concurrent c => exact absurd rfl (ha c)

end DeviceState

/-! ## Every send -/

/-- What a step tells to have sent, it has handed to `putNotification`, and nothing else. -/
theorem nqOut_of_reportedSent {s t : SendingState} {a : SendingAction} {sessionId : UInt32}
    (h : s.step a = some t) (hsent : reportedSent s t a = some sessionId) :
    t.device.nqOut = (s.device.notifySession sessionId).nqOut := by
  cases a with
  | loadToken =>
    obtain ⟨-, h⟩ := Option.ite_none_left_eq_some.mp h
    obtain ⟨t', ht, rfl⟩ := Option.map_eq_some_iff.mp h
    obtain ⟨-, hsent⟩ := Option.ite_none_left_eq_some.mp hsent
    obtain rfl := Option.some.inj hsent
    obtain ⟨-, ht⟩ := Option.ite_none_left_eq_some.mp ht
    cases ht
    rfl
  | loadTokenWake w => cases hsent
  | device a =>
    obtain ⟨t', ht, rfl⟩ := Option.map_eq_some_iff.mp h
    by_cases ha : ∃ c, a = .concurrent c
    · obtain ⟨c, rfl⟩ := ha
      cases c with
      | notify conn sid =>
        obtain ⟨⟨hopen, hok⟩, hsent⟩ := Option.ite_none_right_eq_some.mp hsent
        obtain rfl := Option.some.inj hsent
        obtain ⟨-, ht⟩ := Option.ite_none_left_eq_some.mp ht
        obtain ⟨-, ht⟩ := Option.ite_none_right_eq_some.mp ht
        obtain rfl := Option.some.inj ht
        show (s.device.processNotify conn sid).nqOut = _
        rw [DeviceState.processNotify_eq, if_neg (not_not.mpr hopen)]
        unfold DeviceState.notify at hok ⊢
        cases hfind : s.device.findSession conn sid with
        | none =>
          rw [hfind] at hok
          have hcode : mcDrvErrDaemonUnknownSession = mcDrvOk := hok
          exact absurd hcode (by decide)
        | some p => rfl
      | irq n | nqConnect conn c | nqFlush | loadToken | taken => cases hsent
    · have hsends := DeviceState.step_sends ht fun c heq => ha ⟨c, heq⟩
      have hwaits : t'.mcp.waits = true ∧ sessionId = sidMcp := by
        cases a with
        | concurrent c => exact absurd ⟨c, rfl⟩ ha
        | _ =>
          obtain ⟨hw, hsent⟩ := Option.ite_none_right_eq_some.mp hsent
          exact ⟨(Bool.and_eq_true_iff.mp hw).1, (Option.some.inj hsent).symm⟩
      obtain ⟨hw, rfl⟩ := hwaits
      rwa [SendsIfWaits, if_pos hw] at hsends

theorem appended_iff_roomLeft (s : SendingState) (a : SendingAction) :
    Appended s a ↔ RoomLeft s a := by
  have hput : ∀ n, (s.device.putNotification n).nqOut = s.device.nqOut ++ [n] ↔
      s.device.nqOut.length < nqNumElems := by
    intro n
    show (if _ then _ else _) = _ ↔ _
    split_ifs with hroom
    · simp [hroom]
    · simp [hroom]
  refine forall₂_congr fun t sessionId => forall₂_congr fun h hsent => ?_
  rw [nqOut_of_reportedSent h hsent]
  exact hput ⟨sessionId, 0⟩

/-- **No silent loss.**  In every run, each notification that `notify` or `mshNotifyAndWait` tells
to have sent is in the ring exactly when each of them finds fewer than `NQ_NUM_ELEMS` pending. -/
theorem runMeets_appended_iff (s : SendingState) (as : List SendingAction) :
    sendingMachine.RunMeets Appended s as ↔ sendingMachine.RunMeets RoomLeft s as := by
  have heq : Appended = RoomLeft := by
    funext s a
    exact propext (appended_iff_roomLeft s a)
  rw [heq]

/-- Client 1 opens a session and notifies it sixteen times; the secure world has taken the MCP
notification of the open, and none of these. -/
def floodRun : List SendingAction :=
  [.device (.command 1 (.openDevice 0)),
   .device (.command 1 (.openSession ⟨some ⟨100, 0⟩, 0, 0, 0, {}⟩)),
   .device (.concurrent .taken),
   .device (.concurrent (.irq ⟨sidMcp, 0⟩)),
   .device (.wake (.notified ⟨mcMcpCmdOpenSession ||| flagResponse, mcMcpRetOk, 5, 0⟩)
     ⟨0x1000, 77⟩),
   .device .round] ++
  List.replicate 16 (.device (.concurrent (.notify 1 5)))

/-- The next NOTIFY is lost, and so is the command with which the client closes its session. -/
theorem not_appended_flooded :
    ∃ s, machine.init s ∧
      ¬ sendingMachine.RunMeets Appended ⟨s, false⟩
        (floodRun ++ [.device (.concurrent (.notify 1 5))]) ∧
      ¬ sendingMachine.RunMeets Appended ⟨s, false⟩
        (floodRun ++ [.device (.command 1 (.closeSession 5))]) := by
  refine ⟨.started false, ⟨false, rfl⟩, fun h => ?_, fun h => ?_⟩
  · have hrun : sendingMachine.run ⟨.started false, false⟩ floodRun = some _ := rfl
    have happended := (h.of_append hrun).1 _ 5 rfl rfl
    exact absurd (congrArg List.length happended) (by decide)
  · have hrun : sendingMachine.run ⟨.started false, false⟩ floodRun = some _ := rfl
    have happended := (h.of_append hrun).1 _ sidMcp rfl rfl
    exact absurd (congrArg List.length happended) (by decide)

end McDaemon.Device
