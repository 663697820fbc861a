/-
# McDaemon.Device.Frame — connections and parked notifications, step by step.

Beside the sessions themselves, which `Evolves` is about, a step adds to the record of calls, may
delete the notification connection of a session, and may change the queue of notifications that no
session has claimed.  Here is which steps do which: only an NQ_CONNECT hands a connection to a
session, a session gives its connection up by deleting it, and the queue of unclaimed
notifications is filled by the interrupt handler, drained by an open, and cleared by a few
operations.
-/
import McDaemon.Device.Evolution

namespace McDaemon.Device

open McDaemon.Lib

/-! ## Frames -/

/-- The connection that a call deletes. -/
def Effect.deletes? : Effect → Option Conn
  | .deletedConnection conn => some conn
  | _ => none

/-- How many sessions have this connection for their notifications. -/
def heldBy (l : PtrList TrustletSession) (conn : Conn) : Nat :=
  l.count fun v => v.notificationConnection == some conn

/-- How often a connection was deleted. -/
def deletions (es : List Effect) (conn : Conn) : Nat :=
  es.countP fun e => e.deletes? == some conn

/-- From `s` to `t` calls are added to the record, and the connections that sessions give up are
deleted. -/
structure Conserves (s t : DeviceState) : Prop where
  grows : s.effects <:+ t.effects
  connections : ∀ conn, heldBy t.trustletSessions conn + deletions t.effects conn =
    heldBy s.trustletSessions conn + deletions s.effects conn

/-- The same, and the unclaimed notifications stay as they are. -/
structure Frame (s t : DeviceState) : Prop extends Conserves s t where
  parked : t.notifications = s.notifications

section Rules

variable {s s' t : DeviceState}

theorem Conserves.trans (h : Conserves s s') (h' : Conserves s' t) : Conserves s t where
  grows := h.grows.trans h'.grows
  connections := fun conn => (h'.connections conn).trans (h.connections conn)

theorem Frame.trans (h : Frame s s') (h' : Frame s' t) : Frame s t where
  toConserves := h.toConserves.trans h'.toConserves
  parked := h'.parked.trans h.parked

theorem Frame.conserves (h : Frame s s') (h' : Conserves s' t) : Conserves s t :=
  h.toConserves.trans h'

/-- No call is made. -/
theorem Conserves.same (hs : t.trustletSessions = s.trustletSessions)
    (he : t.effects = s.effects) : Conserves s t where
  grows := ⟨[], he.symm⟩
  connections := fun conn => by rw [hs, he]

/-- One call is made, and it deletes nothing. -/
theorem Conserves.emit {e : Effect} (hs : t.trustletSessions = s.trustletSessions)
    (he : t.effects = e :: s.effects) (hdel : e.deletes? = none) : Conserves s t where
  grows := by rw [he]; exact List.suffix_cons e _
  connections := fun conn => by
    rw [hs, he, deletions, List.countP_cons, hdel]
    rfl

theorem Frame.same (hs : t.trustletSessions = s.trustletSessions) (he : t.effects = s.effects)
    (hn : t.notifications = s.notifications) : Frame s t := ⟨.same hs he, hn⟩

theorem Frame.emit {e : Effect} (hs : t.trustletSessions = s.trustletSessions)
    (he : t.effects = e :: s.effects) (hdel : e.deletes? = none)
    (hn : t.notifications = s.notifications) : Frame s t := ⟨.emit hs he hdel, hn⟩

/-- A session is written that keeps its connection. -/
theorem Frame.modify (s : DeviceState) (p : Nat) {f : TrustletSession → TrustletSession}
    (hf : ∀ v, (f v).notificationConnection = v.notificationConnection) :
    Frame s (s.modify p f) := by
  refine ⟨⟨List.suffix_refl _, fun conn => ?_⟩, rfl⟩
  have hheld : heldBy (s.trustletSessions.modify p f) conn = heldBy s.trustletSessions conn :=
    PtrList.count_modify_eq fun v _ => by rw [hf v]
  show heldBy (s.trustletSessions.modify p f) conn + _ = _
  rw [hheld]
  rfl

end Rules

/-! ## The sections -/

namespace DeviceState

theorem queueNotification_frame (s : DeviceState) (p : Nat) (n : Notification) :
    Frame s (s.queueNotification p n) := by
  unfold queueNotification
  cases s.trustletSessions.get? p with
  | none => exact .same rfl rfl rfl
  | some v =>
    have hwrite : Frame s (s.modify p fun v => v.queueNotification n) :=
      .modify s p fun _ => rfl
    dsimp only
    split
    · exact hwrite.trans (.emit rfl rfl rfl rfl)
    · exact hwrite

theorem mshNotifyAndWait_frame (s : DeviceState) (c : McpCommand) (pc : McpThread) :
    Frame s (s.mshNotifyAndWait c pc) := .emit rfl rfl rfl rfl

theorem lockTci_frame (s : DeviceState) (c : OpenCommand) : Frame s (s.lockTci c) := by
  unfold lockTci
  split
  · exact .emit rfl rfl rfl rfl
  · exact .same rfl rfl rfl

theorem unlockTci_frame (s : DeviceState) (c : OpenCommand) : Frame s (s.unlockTci c) := by
  unfold unlockTci
  split
  · exact .emit rfl rfl rfl rfl
  · exact .same rfl rfl rfl

theorem creditTci_frame (s : DeviceState) (c : OpenCommand) (p : Nat) :
    Frame s (s.creditTci c p) := by
  unfold creditTci
  split
  · exact .emit rfl rfl rfl rfl
  · exact .same rfl rfl rfl

/-- An open either answers or clears the unclaimed notifications on its way to the exchange. -/
theorem processOpenSession_conserves (s : DeviceState) (conn : Conn) (c : OpenCommand) :
    Conserves s (s.processOpenSession conn c) ∧
      ((s.processOpenSession conn c).notifications = s.notifications ∨
        (s.processOpenSession conn c).notifications = []) := by
  have hanswer : ∀ code, Conserves s (s.answer conn code) := fun code => .emit rfl rfl rfl
  have hopen : ∀ ld, Conserves s (s.openSession conn ld c) ∧
      ((s.openSession conn ld c).notifications = s.notifications ∨
        (s.openSession conn ld c).notifications = []) := by
    intro ld
    have hl := lockTci_frame s c
    unfold openSession
    repeat' split
    · exact ⟨hanswer _, .inl rfl⟩
    · exact ⟨hanswer _, .inl rfl⟩
    · exact ⟨hl.conserves (.emit rfl rfl rfl), .inl hl.parked⟩
    · exact ⟨hl.conserves (.emit rfl rfl rfl), .inr rfl⟩
  unfold processOpenSession
  repeat' split
  · exact ⟨hanswer _, .inl rfl⟩
  · exact ⟨hanswer _, .inl rfl⟩
  · exact hopen _
  · exact ⟨hanswer _, .inl rfl⟩

theorem newSession_notificationConnection (conn : Conn) (ld : LoadData) (c : OpenCommand)
    (new : NewSession) (sessionId : UInt32) :
    (newSession conn ld c new sessionId).notificationConnection = none := by
  unfold newSession
  dsimp only
  split <;> rfl

theorem openSessionAnswer_frame (s : DeviceState) (conn : Conn) (ld : LoadData) (c : OpenCommand)
    (new : NewSession) (rsp : Option McpResponse) :
    Frame s (s.openSessionAnswer conn ld c new rsp) := by
  unfold openSessionAnswer
  cases exchangeResult mcMcpCmdOpenSession rsp with
  | error e => exact (unlockTci_frame s c).trans (.emit rfl rfl rfl rfl)
  | ok r =>
    let s₁ := { s with
      trustletSessions := s.trustletSessions.push (newSession conn ld c new r.sessionId) }
    have hpush : Frame s s₁ := by
      refine ⟨⟨List.suffix_refl _, fun conn' => ?_⟩, rfl⟩
      show heldBy (s.trustletSessions.push _) conn' + _ = _
      rw [heldBy, PtrList.count_push, newSession_notificationConnection]
      rfl
    exact hpush.trans ((creditTci_frame s₁ c _).trans (.same rfl rfl rfl))

theorem openSessionDrain_conserves (s : DeviceState) (conn : Conn) (p : Nat)
    (rsp : OpenSessionPayload) (u : Bool) : Conserves s (s.openSessionDrain conn p rsp u) := by
  unfold openSessionDrain
  split
  · exact (queueNotification_frame s p _).conserves (.same rfl rfl)
  · cases u
    · exact .emit rfl rfl rfl
    · exact .emit rfl rfl rfl

theorem closeSessionReturn_frame (s : DeviceState) (caller : CloseCaller) (code : McResult) :
    Frame s (s.closeSessionReturn caller code) := by
  cases caller with
  | client conn => exact .emit rfl rfl rfl rfl
  | device conn drop => exact .same rfl rfl rfl

/-- `delete` on the connection of a session, whatever happens to the session. -/
theorem deletions_deleteConnection (s : DeviceState) (o : Option Conn) (conn : Conn) :
    deletions (s.deleteConnection o).effects conn =
      deletions s.effects conn + if o == some conn then 1 else 0 := by
  cases o with
  | none => rfl
  | some conn' =>
    show deletions (.deletedConnection conn' :: s.effects) conn = _
    rw [deletions, List.countP_cons]
    rfl

theorem deleteConnection_grows (s : DeviceState) (o : Option Conn) :
    s.effects <:+ (s.deleteConnection o).effects := by
  cases o with
  | none => exact List.suffix_refl _
  | some conn => exact List.suffix_cons _ _

theorem deleteConnection_sessions (s : DeviceState) (o : Option Conn) :
    (s.deleteConnection o).trustletSessions = s.trustletSessions ∧
      (s.deleteConnection o).notifications = s.notifications := by
  cases o with
  | none => exact ⟨rfl, rfl⟩
  | some conn => exact ⟨rfl, rfl⟩

theorem disconnectGp_frame {s : DeviceState} {p : Nat} {v : TrustletSession}
    (hp : s.trustletSessions.get? p = some v) : Frame s (s.disconnectGp p v) := by
  unfold disconnectGp
  split
  · obtain ⟨hs, hn⟩ := deleteConnection_sessions s v.notificationConnection
    refine ⟨⟨deleteConnection_grows s _, fun conn => ?_⟩, hn⟩
    have hcount := PtrList.count_modify (fun v : TrustletSession =>
      { v with deviceConnection := none, notificationConnection := none, sessionState := .closeSend })
      (fun v => v.notificationConnection == some conn) hp
    show heldBy ((s.deleteConnection _).trustletSessions.modify p _) conn +
      deletions (s.deleteConnection _).effects conn = _
    rw [hs, deletions_deleteConnection]
    simp only [heldBy, Option.none_beq_some, Bool.false_eq_true, if_false] at hcount ⊢
    omega
  · exact .same rfl rfl rfl

theorem closeSession_frame (s : DeviceState) (caller : CloseCaller) (sessionId : UInt32) :
    Frame s (s.closeSession caller sessionId) := by
  unfold closeSession
  split
  · exact closeSessionReturn_frame s caller _
  · split
    · exact closeSessionReturn_frame s caller _
    · next v hv => exact (disconnectGp_frame hv).trans (mshNotifyAndWait_frame _ _ _)

theorem unlockBuffers_frame (s : DeviceState) (p : Nat) (ws : List CWsm) :
    Frame s (s.unlockBuffers p ws) := by
  induction ws generalizing s with
  | nil => exact .same rfl rfl rfl
  | cons w ws ih =>
    have hfirst : Frame s (s.emit (.unlockWsm w.handle (some p))) := .emit rfl rfl rfl rfl
    exact hfirst.trans (ih _)

theorem removeSession_frame {s : DeviceState} {p : Nat} {v : TrustletSession}
    (hp : s.trustletSessions.get? p = some v) : Frame s (s.removeSession p v) := by
  let s₁ := { s with trustletSessions := s.trustletSessions.remove p }.emit (.removed p)
  obtain ⟨hs, hn⟩ := deleteConnection_sessions s₁ v.notificationConnection
  refine ⟨⟨(List.suffix_cons _ _).trans (deleteConnection_grows s₁ _), fun conn => ?_⟩, hn⟩
  have hcount := PtrList.count_remove (q := fun v => v.notificationConnection == some conn) hp
  have hdel : deletions s₁.effects conn = deletions s.effects conn := by
    show deletions (.removed p :: s.effects) conn = _
    rw [deletions, List.countP_cons]
    rfl
  show heldBy (s₁.deleteConnection _).trustletSessions conn +
    deletions (s₁.deleteConnection _).effects conn = _
  rw [hs, deletions_deleteConnection, hdel]
  show (s.trustletSessions.remove p).count _ + _ = _
  simp only [heldBy]
  omega

theorem freeSession_frame {s : DeviceState} {p : Nat} {v : TrustletSession}
    (hp : s.trustletSessions.get? p = some v) : Frame s (s.freeSession p v) := by
  have hp' : (s.unlockBuffers p v.buffers.entries).trustletSessions.get? p = some v := by
    rw [(unlockBuffers_changes s p v.buffers.entries).sessions]
    exact hp
  exact (unlockBuffers_frame s p _).trans (removeSession_frame hp')

theorem closeSessionAnswer_frame (s : DeviceState) (caller : CloseCaller) (p : Nat) (retry : Bool)
    (rsp : Option McpResponse) : Frame s (s.closeSessionAnswer caller p retry rsp) := by
  unfold closeSessionAnswer
  split
  · exact .same rfl rfl rfl
  · next v hv =>
    dsimp only
    split
    · exact .same rfl rfl rfl
    split
    · split
      · exact .emit rfl rfl rfl rfl
      · exact closeSessionReturn_frame s caller _
    split
    · exact closeSessionReturn_frame s caller _
    · exact (freeSession_frame hv).trans (closeSessionReturn_frame _ caller _)

theorem closeReturn_frame (s : DeviceState) (conn : Conn) (drop : Bool) :
    Frame s (s.closeReturn conn drop) := by
  have hclean : Frame s (s.emit .cleanupWsm) := .emit rfl rfl rfl rfl
  cases drop with
  | true => exact hclean.trans (.same rfl rfl rfl)
  | false => exact hclean.trans (.emit rfl rfl rfl rfl)

theorem closeRound_frame (s : DeviceState) (conn : Conn) (drop : Bool) :
    Frame s (s.closeRound conn drop) := by
  unfold closeRound
  split
  · exact closeReturn_frame s conn drop
  · split
    · exact closeReturn_frame s conn drop
    · exact closeSession_frame s _ _

theorem processMapBulkBuf_frame (s : DeviceState) (conn : Conn) (c : MapCommand) :
    Frame s (s.processMapBulkBuf conn c) := by
  have hlock : Frame s (s.emit (.lockWsm c.handle)) := .emit rfl rfl rfl rfl
  unfold processMapBulkBuf
  split
  · exact .emit rfl rfl rfl rfl
  split
  · exact .emit rfl rfl rfl rfl
  split
  · exact hlock.trans (.emit rfl rfl rfl rfl)
  · refine hlock.trans ?_
    unfold mapBulk
    split
    · exact .emit rfl rfl rfl rfl
    · next p _ =>
      split
      · exact .emit rfl rfl rfl rfl
      · let w : CWsm := ⟨c.lenBulkMem, c.handle, c.kmod.findWsmL2⟩
        have hwrite : Frame (s.emit (.lockWsm c.handle)) ((s.emit (.lockWsm c.handle)).modify p
            fun v => { v with buffers := (v.buffers.addBulkBuff w).2 }) :=
          .modify _ p fun _ => rfl
        exact hwrite.trans (.emit rfl rfl rfl rfl)

theorem mapBulkAnswer_frame (s : DeviceState) (conn : Conn) (p : Nat) (c : MapCommand)
    (rsp : Option McpResponse) : Frame s (s.mapBulkAnswer conn p c rsp) := by
  unfold mapBulkAnswer
  split
  · exact .emit rfl rfl rfl rfl
  · have hcredit : Frame s (s.emit (.credited p c.handle)) := .emit rfl rfl rfl rfl
    exact hcredit.trans (.emit rfl rfl rfl rfl)

theorem processUnmapBulkBuf_frame (s : DeviceState) (conn : Conn) (c : UnmapCommand) :
    Frame s (s.processUnmapBulkBuf conn c) := by
  unfold processUnmapBulkBuf
  split
  · exact .emit rfl rfl rfl rfl
  split
  · exact .emit rfl rfl rfl rfl
  split
  · exact .emit rfl rfl rfl rfl
  split
  · exact .emit rfl rfl rfl rfl
  · exact .emit rfl rfl rfl rfl

theorem unmapBulkAnswer_frame (s : DeviceState) (conn : Conn) (p : Nat) (c : UnmapCommand)
    (rsp : Option McpResponse) : Frame s (s.unmapBulkAnswer conn p c rsp) := by
  unfold unmapBulkAnswer
  split
  · exact .emit rfl rfl rfl rfl
  · have hwrite : Frame s (s.modify p fun v =>
        { v with buffers := (v.buffers.removeBulkBuff c.handle).2 }) := .modify s p fun _ => rfl
    have hunlock : Frame s ((s.modify p fun v =>
        { v with buffers := (v.buffers.removeBulkBuff c.handle).2 }).emit
          (.unlockWsm c.handle (some p))) := hwrite.trans (.emit rfl rfl rfl rfl)
    exact hunlock.trans (.emit rfl rfl rfl rfl)

theorem taExitRound_frame (s : DeviceState) : Frame s s.taExitRound := by
  unfold taExitRound
  split
  · exact .same rfl rfl rfl
  split
  · exact .same rfl rfl rfl
  · exact .emit rfl rfl rfl rfl

theorem taExitAnswer_frame (s : DeviceState) (p : Nat) (rsp : Option McpResponse) :
    Frame s (s.taExitAnswer p rsp) := by
  unfold taExitAnswer
  split
  · exact .same rfl rfl rfl
  · next v hv =>
    split
    · exact (removeSession_frame hv).trans (.same rfl rfl rfl)
    · exact .same rfl rfl rfl

theorem processQueuedNotifications_frame (s : DeviceState) (p : Nat) :
    Frame s (s.processQueuedNotifications p) := by
  unfold processQueuedNotifications
  split
  · exact .same rfl rfl rfl
  split
  · split <;> exact .same rfl rfl rfl
  split
  · exact .same rfl rfl rfl
  · exact .same rfl rfl rfl
  · next n ns _ _ _ =>
    have hwrite : Frame s (s.modify p fun v => { v with notifications := ns }) :=
      .modify s p fun _ => rfl
    exact hwrite.trans (.emit rfl rfl rfl rfl)

theorem processNotify_frame (s : DeviceState) (conn : Conn) (sessionId : UInt32) :
    Frame s (s.processNotify conn sessionId) := by
  unfold processNotify
  split
  · exact .same rfl rfl rfl
  split <;> exact .same rfl rfl rfl

/-! ## The interrupt handler -/

/-- The session to which `handleIrq` hands a notification. -/
def reaches (s : DeviceState) (n : Notification) : Option Nat :=
  if n.sessionId = sidMcp then none else s.getTrustletSession n.sessionId

theorem reaches_spec {s : DeviceState} {n : Notification} {p : Nat} (h : s.reaches n = some p) :
    n.sessionId ≠ sidMcp ∧ s.getTrustletSession n.sessionId = some p ∧
      ∃ v, s.trustletSessions.get? p = some v ∧ v.sessionId = n.sessionId := by
  unfold reaches at h
  split at h
  · cases h
  · next hid =>
    obtain ⟨v, hv, heq⟩ := PtrList.find?_spec h
    exact ⟨hid, h, v, hv, beq_iff_eq.mp heq⟩

end DeviceState

/-- What `handleIrq` does with a notification. -/
inductive Handles (s : DeviceState) (n : Notification) (t : DeviceState) : Prop where
  | mcp (hid : n.sessionId = sidMcp) (hq : Quiet s t) (hf : Frame s t) : Handles s n t
  | parked (hid : n.sessionId ≠ sidMcp) (hnone : s.reaches n = none) (hq : Quiet s t)
      (hc : Conserves s t) (hn : t.notifications = s.notifications ++ [n]) : Handles s n t
  | queued {p : Nat} {v : TrustletSession} (hp : s.reaches n = some p)
      (hv : s.trustletSessions.get? p = some v) (hconn : v.notificationConnection = none)
      (hc : Changes s t (s.trustletSessions.modify p fun v => v.queueNotification n)
        (if v.accepts n then [.queued p v.sessionId n] else [])) (hf : Frame s t) : Handles s n t
  | forwarded {p : Nat} {v : TrustletSession} {conn : Conn} (hp : s.reaches n = some p)
      (hv : s.trustletSessions.get? p = some v) (hconn : v.notificationConnection = some conn)
      (hc : Changes s t s.trustletSessions [.forwarded p v.sessionId conn n]) (hf : Frame s t) :
      Handles s n t

namespace DeviceState

theorem handleIrq_handles (s : DeviceState) (n : Notification) : Handles s n (s.handleIrq n) := by
  unfold handleIrq
  split
  · next hid => exact .mcp hid ⟨rfl, rfl, rfl⟩ (.same rfl rfl rfl)
  next hid =>
  have hreaches : s.reaches n = s.getTrustletSession n.sessionId := if_neg hid
  cases hfind : s.getTrustletSession n.sessionId with
  | none =>
    rw [hfind] at hreaches
    dsimp only
    split
    · exact .parked hid hreaches ⟨rfl, rfl, rfl⟩ (.same rfl rfl) rfl
    · exact .parked hid hreaches ⟨rfl, rfl, rfl⟩ (.same rfl rfl) rfl
  | some p =>
    obtain ⟨v, hv, -⟩ := PtrList.find?_spec hfind
    rw [hfind] at hreaches
    simp only [hv]
    cases hconn : v.notificationConnection with
    | some conn =>
      exact .forwarded hreaches hv hconn ⟨rfl, rfl, rfl⟩ (.emit rfl rfl rfl rfl)
    | none =>
      obtain ⟨⟨hs, hc, hnq⟩, -⟩ := queueNotification_changes hv n
      have hf := queueNotification_frame s p n
      dsimp only
      split
      · exact .queued hreaches hv hconn ⟨hs, hc, hnq⟩ (hf.trans (.same rfl rfl rfl))
      · exact .queued hreaches hv hconn ⟨hs, hc, hnq⟩ hf

theorem Handles.conserves {s t : DeviceState} {n : Notification} (h : Handles s n t) :
    Conserves s t := by
  cases h with
  | mcp _ _ hf => exact hf.toConserves
  | parked _ _ _ hc _ => exact hc
  | queued _ _ _ _ hf => exact hf.toConserves
  | forwarded _ _ _ _ hf => exact hf.toConserves

/-! ## The step -/

theorem handleCommand_conserves (s : DeviceState) (conn : Conn) (c : Command) :
    Conserves s (s.handleCommand conn c) ∧
      ((s.handleCommand conn c).notifications = s.notifications ∨
        (∃ o, c = .openSession o) ∧ (s.handleCommand conn c).notifications = []) := by
  have hframe : ∀ {t}, Frame s t → Conserves s t ∧
      (t.notifications = s.notifications ∨ (∃ o, c = .openSession o) ∧ t.notifications = []) :=
    fun hf => ⟨hf.toConserves, .inl hf.parked⟩
  cases c with
  | openDevice deviceId =>
    apply hframe
    show Frame s (s.processOpenDevice conn deviceId)
    unfold processOpenDevice
    split
    · exact .emit rfl rfl rfl rfl
    split
    · exact .emit rfl rfl rfl rfl
    · exact .emit rfl rfl rfl rfl
  | closeDevice =>
    apply hframe
    show Frame s (s.processCloseDevice conn)
    unfold processCloseDevice
    split
    · exact .emit rfl rfl rfl rfl
    · exact .same rfl rfl rfl
  | openSession o =>
    obtain ⟨hc, hn | hn⟩ := processOpenSession_conserves s conn o
    · exact ⟨hc, .inl hn⟩
    · exact ⟨hc, .inr ⟨⟨o, rfl⟩, hn⟩⟩
  | closeSession sessionId =>
    apply hframe
    show Frame s (s.processCloseSession conn sessionId)
    unfold processCloseSession
    split
    · exact .emit rfl rfl rfl rfl
    · exact closeSession_frame s _ sessionId
  | mapBulk c => exact hframe (processMapBulkBuf_frame s conn c)
  | unmapBulk c => exact hframe (processUnmapBulkBuf_frame s conn c)

theorem waitMcpNotification_frame {s s' : DeviceState} {w : McpWake} {rsp : Option McpResponse}
    (h : waitMcpNotification s w = some (rsp, s')) : Frame s s' := by
  unfold waitMcpNotification at h
  repeat' split at h
  all_goals cases h
  all_goals exact .same rfl rfl rfl

theorem wake_frame {s t : DeviceState} {w : McpWake} {new : NewSession}
    (h : s.step (.wake w new) = some t) : Frame s t := by
  obtain ⟨⟨rsp, s'⟩, hw, h⟩ := Option.bind_eq_some_iff.mp h
  refine (waitMcpNotification_frame hw).trans ?_
  change s'.afterWait new rsp s'.mcp = some t at h
  unfold afterWait at h
  split at h
  · cases h
    exact openSessionAnswer_frame s' _ _ _ new rsp
  · cases h
    exact closeSessionAnswer_frame s' _ _ _ rsp
  · cases h
    exact mapBulkAnswer_frame s' _ _ _ rsp
  · cases h
    exact unmapBulkAnswer_frame s' _ _ _ rsp
  · cases h
    exact .same rfl rfl rfl
  · cases h
    exact taExitAnswer_frame s' _ rsp
  all_goals cases h

/-- What a step does to the queue of unclaimed notifications. -/
inductive Parks (s : DeviceState) : Action → DeviceState → Prop where
  | same {a : Action} {t : DeviceState} (hn : t.notifications = s.notifications) : Parks s a t
  | parked {n : Notification} {t : DeviceState} (hid : n.sessionId ≠ sidMcp)
      (hnone : s.reaches n = none) (hn : t.notifications = s.notifications ++ [n]) :
      Parks s (.concurrent (.irq n)) t
  | drained {conn : Conn} {p : Nat} {rsp : OpenSessionPayload} {u : Bool} {n : Notification}
      {t : DeviceState} (hpc : s.mcp = .openDrain conn p rsp u)
      (hn : s.notifications = n :: t.notifications) : Parks s .round t
  /-- The start of an open or of a check-load, and the load of a token. -/
  | cleared {a : Action} {t : DeviceState} (hn : t.notifications = []) : Parks s a t

theorem round_conserves {s t : DeviceState} (h : s.step .round = some t) :
    Conserves s t ∧ Parks s .round t := by
  change s.nextRound s.mcp = some t at h
  cases hpc : s.mcp with
  | openDrain conn p rsp u =>
    rw [hpc] at h
    cases h
    refine ⟨openSessionDrain_conserves s conn p rsp u, ?_⟩
    cases hn : s.notifications with
    | nil =>
      apply Parks.same
      simp only [openSessionDrain, hn]
      cases u
      · exact hn
      · exact hn
    | cons n ns =>
      have ht : (s.openSessionDrain conn p rsp u).notifications = ns := by
        simp only [openSessionDrain, hn]
      exact .drained hpc (by rw [ht, hn])
  | closeLoop conn drop =>
    rw [hpc] at h
    cases h
    have hf := closeRound_frame s conn drop
    exact ⟨hf.toConserves, .same hf.parked⟩
  | taExitLoop =>
    rw [hpc] at h
    cases h
    have hf := taExitRound_frame s
    exact ⟨hf.toConserves, .same hf.parked⟩
  | idle | openWait conn ld c | closeWait caller p retry | mapWait conn p c added
  | unmapWait conn p c | checkLoadWait | taExitWait p | aborted =>
    rw [hpc] at h
    cases h

/-- What becomes of the connection of an NQ_CONNECT: it stays with its client, it is taken from
its client and given to nobody, or it goes to a session. -/
inductive Connects (s : DeviceState) (conn : Conn) (c : NqConnectCommand) (t : DeviceState) :
    Prop where
  | kept (hopen : conn ∈ s.connectionData) (hf : Frame s t)
      (hs : t.trustletSessions = s.trustletSessions)
      (hrec : ∃ code, t.effects = .answered conn code :: s.effects) : Connects s conn c t
  | lost (hopen : conn ∉ s.connectionData)
      (hnone : c.deviceId ≠ mcDeviceIdDefault ∨ s.registerTrustletConnection c = none)
      (hf : Frame s t) (hs : t.trustletSessions = s.trustletSessions)
      (hrec : ∃ code, code ≠ mcDrvOk ∧
        t.effects = .answered conn code :: .detachedConnection conn :: s.effects) :
      Connects s conn c t
  | given {p : Nat} {v : TrustletSession} (hopen : conn ∉ s.connectionData)
      (hid : c.deviceId = mcDeviceIdDefault) (hreg : s.registerTrustletConnection c = some p)
      (hv : s.trustletSessions.get? p = some v)
      (hs : t.trustletSessions =
        s.trustletSessions.modify p fun v => { v with notificationConnection := some conn })
      (hrec : t.effects = .answered conn mcDrvOk :: .detachedConnection conn :: s.effects)
      (hn : t.notifications = s.notifications) : Connects s conn c t

theorem processNqConnect_connects (s : DeviceState) (conn : Conn) (c : NqConnectCommand) :
    Connects s conn c (s.processNqConnect conn c) := by
  have hdetach : Frame s (s.emit (.detachedConnection conn)) := .emit rfl rfl rfl rfl
  unfold processNqConnect
  split
  · next hopen => exact .kept hopen (.emit rfl rfl rfl rfl) rfl ⟨_, rfl⟩
  next hopen =>
  dsimp only
  split
  · next hid =>
    exact .lost hopen (.inl hid) (hdetach.trans (.emit rfl rfl rfl rfl)) rfl
      ⟨_, by decide, rfl⟩
  next hid =>
  cases hreg : (s.emit (.detachedConnection conn)).registerTrustletConnection c with
  | none =>
    exact .lost hopen (.inr hreg) (hdetach.trans (.emit rfl rfl rfl rfl)) rfl
      ⟨_, by decide, rfl⟩
  | some p =>
    obtain ⟨v, hv, -⟩ := PtrList.find?_spec hreg
    exact .given hopen (not_not.mp hid) hreg hv rfl rfl rfl

/-- Every step but an NQ_CONNECT. -/
theorem step_conserves {s t : DeviceState} {a : Action} (h : s.step a = some t)
    (ha : ∀ conn c, a ≠ .concurrent (.nqConnect conn c)) : Conserves s t ∧ Parks s a t := by
  have hframe : Frame s t → Conserves s t ∧ Parks s a t :=
    fun hf => ⟨hf.toConserves, .same hf.parked⟩
  cases a with
  | command conn c =>
    simp only [step] at h
    split at h
    · cases h
      obtain ⟨hc, hn | ⟨-, hn⟩⟩ := handleCommand_conserves s conn c
      · exact ⟨hc, .same hn⟩
      · exact ⟨hc, .cleared hn⟩
    · cases h
  | drop conn =>
    simp only [step] at h
    split at h
    · cases h
      apply hframe
      unfold dropConnection
      split
      · exact .same rfl rfl rfl
      · exact .same rfl rfl rfl
    · cases h
  | checkLoad =>
    simp only [step] at h
    split at h
    · cases h
      exact ⟨.emit rfl rfl rfl, .cleared rfl⟩
    · cases h
  | taExit =>
    simp only [step] at h
    split at h
    · cases h
      exact hframe (.same rfl rfl rfl)
    · cases h
  | round => exact round_conserves h
  | wake w new => exact hframe (wake_frame h)
  | concurrent c =>
    simp only [step] at h
    split at h
    · cases h
    cases c with
    -- only an interrupt parks a notification
    | irq n =>
      cases h
      have hh := handleIrq_handles s n
      refine ⟨Handles.conserves hh, ?_⟩
      cases hh with
      | mcp _ _ hf => exact .same hf.parked
      | parked hid hnone _ _ hn => exact .parked hid hnone hn
      | queued _ _ _ _ hf => exact .same hf.parked
      | forwarded _ _ _ _ hf => exact .same hf.parked
    | nqConnect conn c => exact absurd rfl (ha conn c)
    | nqFlush =>
      obtain ⟨f, -, rfl⟩ := Option.map_eq_some_iff.mp h
      exact hframe (processQueuedNotifications_frame s f.p)
    | notify conn sessionId =>
      simp only [concurrentStep] at h
      split at h
      · cases h
        exact hframe (processNotify_frame s conn sessionId)
      · cases h
    | loadToken =>
      cases h
      exact ⟨.same rfl rfl, .cleared rfl⟩
    | taken =>
      simp only [concurrentStep] at h
      split at h
      · cases h
      · cases h
        exact hframe (.same rfl rfl rfl)

/-- An NQ_CONNECT, as a step of the machine. -/
theorem nqConnect_step {s t : DeviceState} {conn : Conn} {c : NqConnectCommand}
    (h : s.step (.concurrent (.nqConnect conn c)) = some t) : Connects s conn c t := by
  simp only [step, concurrentStep] at h
  split at h
  · cases h
  split at h
  · rw [← Option.some.inj h]
    exact processNqConnect_connects s conn c
  · cases h

/-- No step takes a call back, and each treats the unclaimed notifications in one of four ways. -/
theorem step_parks {s t : DeviceState} {a : Action} (h : s.step a = some t) :
    s.effects <:+ t.effects ∧ Parks s a t := by
  by_cases ha : ∃ conn c, a = .concurrent (.nqConnect conn c)
  · obtain ⟨conn, c, rfl⟩ := ha
    cases nqConnect_step h with
    | kept _ hf => exact ⟨hf.grows, .same hf.parked⟩
    | lost _ _ hf _ => exact ⟨hf.grows, .same hf.parked⟩
    | given _ _ _ _ _ hrec hn =>
      rw [hrec]
      exact ⟨(List.suffix_cons _ _).trans (List.suffix_cons _ _), .same hn⟩
  · obtain ⟨hc, hp⟩ := step_conserves h fun conn c heq => ha ⟨conn, c, heq⟩
    exact ⟨hc.grows, hp⟩

theorem sessionCalls_grow {s t : DeviceState} {a : Action} (h : s.step a = some t) :
    s.sessionCalls <:+ t.sessionCalls := (step_parks h).1.filter _

end DeviceState

end McDaemon.Device
