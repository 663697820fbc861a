/-
# McDaemon.Device.Evolution — what one step does to the sessions.

The sections of the operations are unfolded here and nowhere else: `step_evolves` sorts the steps
of the machine by what they do to the session list and to the calls made for a session, with the
facts under which they do it.  An invariant of the sessions is then a case analysis over
`Evolves`.
-/
import McDaemon.Device.Machine

namespace McDaemon.Device

open McDaemon.Lib

/-! ## Changes -/

/-- The effects that concern one session. -/
def Effect.aboutSession : Effect → Bool
  | .unlockWsm _ (some _) | .credited .. | .queued .. | .forwarded .. | .removed _ => true
  | _ => false

namespace DeviceState

/-- The calls made for a session, newest first. -/
def sessionCalls (s : DeviceState) : List Effect := s.effects.filter Effect.aboutSession

theorem mem_sessionCalls {s : DeviceState} {e : Effect} :
    e ∈ s.sessionCalls ↔ e ∈ s.effects ∧ e.aboutSession = true := List.mem_filter

end DeviceState

/-- From `s` to `t` the session list becomes `l` and the calls `es` are made for sessions. -/
structure Touches (s t : DeviceState) (l : PtrList TrustletSession) (es : List Effect) : Prop where
  sessions : t.trustletSessions = l
  calls : t.sessionCalls = es ++ s.sessionCalls

/-- The same for a step that is none of NQ_CONNECT's. -/
structure Changes (s t : DeviceState) (l : PtrList TrustletSession) (es : List Effect) : Prop where
  sessions : t.trustletSessions = l
  calls : t.sessionCalls = es ++ s.sessionCalls
  nq : t.nq = s.nq

theorem Changes.touches {s t : DeviceState} {l : PtrList TrustletSession} {es : List Effect}
    (h : Changes s t l es) : Touches s t l es := ⟨h.sessions, h.calls⟩

/-- Nothing happens to any session. -/
abbrev Quiet (s t : DeviceState) : Prop := Changes s t s.trustletSessions []

theorem Quiet.changes {s s' t : DeviceState} {l : PtrList TrustletSession} {es : List Effect}
    (hq : Quiet s s') (hc : Changes s' t l es) : Changes s t l es :=
  ⟨hc.sessions, hc.calls.trans (congrArg (es ++ ·) hq.calls), hc.nq.trans hq.nq⟩

theorem Quiet.trans {s s' t : DeviceState} (hq : Quiet s s') (hq' : Quiet s' t) : Quiet s t :=
  hq.changes ⟨hq'.sessions.trans hq.sessions, hq'.calls, hq'.nq⟩

/-- The session whose pointer the holder of `mutex_mcp` keeps over a wait or a round. -/
def McpThread.session? : McpThread → Option Nat
  | .openDrain _ p _ _ | .closeWait _ p _ | .mapWait _ p _ _ | .unmapWait _ p _
  | .taExitWait p => some p
  | .idle | .openWait .. | .closeLoop .. | .checkLoadWait | .taExitLoop | .aborted => none

/-- The handle under which a map has recorded its buffer, while the secure world has not yet
answered. -/
def McpThread.mapping? : McpThread → Option (Nat × UInt32)
  | .mapWait _ p c true => some (p, c.handle)
  | _ => none

/-- The calls of `freeSession`, newest first. -/
def freeCalls (p : Nat) (v : TrustletSession) : List Effect :=
  .removed p :: (v.buffers.entries.map fun w => Effect.unlockWsm w.handle (some p)).reverse

/-- What a step does to the sessions.  The holder of `mutex_mcp` is described in the state before
the step by `s.mcp` and after it by `t.mcp`. -/
inductive Evolves (s : DeviceState) : Action → DeviceState → Prop where
  /-- A step beside the holder of `mutex_mcp` that no session notices. -/
  | beside {a : Action} {t : DeviceState} (hq : Quiet s t) (hpc : t.mcp = s.mcp) : Evolves s a t
  /-- The holder of `mutex_mcp` goes on, or lets it go, without a session in hand. -/
  | moved {a : Action} {t : DeviceState} (hq : Quiet s t) (hfrom : s.mcp.mapping? = none)
      (hto : t.mcp.session? = none) : Evolves s a t
  | opened {w : McpWake} {new : NewSession} {t : DeviceState} {conn : Conn} {ld : LoadData}
      {c : OpenCommand} {r : McpResponse} (hpc : s.mcp = .openWait conn ld c)
      (hc : Changes s t (s.trustletSessions.push (newSession conn ld c new r.sessionId))
        (if c.hasTci then [.credited s.trustletSessions.fresh c.tciHandle] else []))
      (hto : ∃ rsp u, t.mcp = .openDrain conn s.trustletSessions.fresh rsp u) :
      Evolves s (.wake w new) t
  /-- A parked notification goes to the session that is being opened. -/
  | drained {t : DeviceState} {conn : Conn} {p : Nat} {rsp : OpenSessionPayload} {u : Bool}
      {v : TrustletSession} {n : Notification} {ns : List Notification}
      (hpc : s.mcp = .openDrain conn p rsp u) (hn : s.notifications = n :: ns)
      (hp : s.trustletSessions.get? p = some v)
      (hc : Changes s t (s.trustletSessions.modify p fun v => v.queueNotification n)
        (if v.accepts n then [.queued p v.sessionId n] else []))
      (hto : t.mcp = s.mcp) : Evolves s .round t
  /-- A notification goes to the session it names, which has no notification socket. -/
  | queued {t : DeviceState} {p : Nat} {v : TrustletSession} {n : Notification}
      (hp : s.trustletSessions.get? p = some v) (hid : n.sessionId = v.sessionId)
      (hconn : v.notificationConnection = none)
      (hc : Changes s t (s.trustletSessions.modify p fun v => v.queueNotification n)
        (if v.accepts n then [.queued p v.sessionId n] else []))
      (hto : t.mcp = s.mcp) : Evolves s (.concurrent (.irq n)) t
  /-- A notification goes to the socket of the session it names. -/
  | forwarded {t : DeviceState} {p : Nat} {v : TrustletSession} {n : Notification} {conn : Conn}
      (hp : s.trustletSessions.get? p = some v) (hid : n.sessionId = v.sessionId)
      (hconn : v.notificationConnection = some conn)
      (hc : Changes s t s.trustletSessions [.forwarded p v.sessionId conn n])
      (hto : t.mcp = s.mcp) : Evolves s (.concurrent (.irq n)) t
  | flushed {t : DeviceState} {f : NqFlush} {v : TrustletSession} {n : Notification}
      {ns : List Notification} {conn : Conn} (hnq : s.nq = some f)
      (hp : s.trustletSessions.get? f.p = some v) (hn : v.notifications = n :: ns)
      (hconn : v.notificationConnection = some conn)
      (hc : Changes s t (s.trustletSessions.modify f.p fun v => { v with notifications := ns })
        [.forwarded f.p v.sessionId conn n])
      (hto : t.mcp = s.mcp) : Evolves s (.concurrent .nqFlush) t
  | flushEnd {t : DeviceState} (hc : Touches s t s.trustletSessions []) (hnq : t.nq = none)
      (hto : t.mcp = s.mcp) : Evolves s (.concurrent .nqFlush) t
  | attached {t : DeviceState} {conn : Conn} {c : NqConnectCommand} {p : Nat}
      (hp : s.registerTrustletConnection c = some p)
      (hc : Touches s t
        (s.trustletSessions.modify p fun v => { v with notificationConnection := some conn }) [])
      (hnq : t.nq = some ⟨conn, p⟩) (hto : t.mcp = s.mcp) :
      Evolves s (.concurrent (.nqConnect conn c)) t
  /-- A client's close, or a round of `close`, has cut a GP session off. -/
  | disconnected {a : Action} {t : DeviceState} {caller : CloseCaller} {p : Nat}
      {v : TrustletSession} (hp : s.trustletSessions.get? p = some v)
      (howner : v.deviceConnection = some caller.conn) (hgp : v.gpLevel = 1)
      (hactor : s.actor a = some caller.conn) (hfrom : s.mcp.session? = none)
      (hc : Changes s t (s.trustletSessions.modify p fun v =>
        { v with deviceConnection := none, notificationConnection := none,
                 sessionState := .closeSend }) [])
      (hto : t.mcp = .closeWait caller p false) : Evolves s a t
  /-- The same for a session that is not GP: nothing changes before the exchange. -/
  | closing {a : Action} {t : DeviceState} {caller : CloseCaller} {p : Nat}
      {v : TrustletSession} (hp : s.trustletSessions.get? p = some v)
      (howner : v.deviceConnection = some caller.conn) (hgp : v.gpLevel ≠ 1)
      (hactor : s.actor a = some caller.conn) (hfrom : s.mcp.session? = none) (hq : Quiet s t)
      (hto : t.mcp = .closeWait caller p false) : Evolves s a t
  | retried {w : McpWake} {new : NewSession} {t : DeviceState} {caller : CloseCaller} {p : Nat}
      {retry : Bool} (hpc : s.mcp = .closeWait caller p retry) (hq : Quiet s t)
      (hto : t.mcp = .closeWait caller p true) : Evolves s (.wake w new) t
  | freed {w : McpWake} {new : NewSession} {t : DeviceState} {caller : CloseCaller} {p : Nat}
      {retry : Bool} {v : TrustletSession} (hpc : s.mcp = .closeWait caller p retry)
      (hp : s.trustletSessions.get? p = some v)
      (hc : Changes s t (s.trustletSessions.remove p) (freeCalls p v))
      (hto : t.mcp.session? = none) : Evolves s (.wake w new) t
  /-- A map has recorded its buffer, or found the handle taken. -/
  | recorded {a : Action} {t : DeviceState} {conn : Conn} {p : Nat} {c : MapCommand}
      {v : TrustletSession} {m : CWsm} (hm : m.handle = c.handle)
      (hp : s.trustletSessions.get? p = some v) (howner : v.deviceConnection = some conn)
      (hactor : s.actor a = some conn) (hfrom : s.mcp.session? = none)
      (hc : Changes s t (s.trustletSessions.modify p fun v =>
        { v with buffers := (v.buffers.addBulkBuff m).2 }) [])
      (hto : t.mcp = .mapWait conn p c (v.buffers.addBulkBuff m).1) : Evolves s a t
  | mapped {w : McpWake} {new : NewSession} {s' t : DeviceState} {conn : Conn} {p : Nat}
      {c : MapCommand} {added : Bool} {rsp : Option McpResponse} {r : McpResponse}
      (hpc : s.mcp = .mapWait conn p c added) (hw : waitMcpNotification s w = some (rsp, s'))
      (hr : exchangeResult mcMcpCmdMap rsp = .ok r)
      (hc : Changes s t s.trustletSessions [.credited p c.handle])
      (hto : t.mcp = .idle) : Evolves s (.wake w new) t
  | mapRejected {w : McpWake} {new : NewSession} {s' t : DeviceState} {conn : Conn} {p : Nat}
      {c : MapCommand} {added : Bool} {rsp : Option McpResponse} {e : McResult}
      (hpc : s.mcp = .mapWait conn p c added) (hw : waitMcpNotification s w = some (rsp, s'))
      (hr : exchangeResult mcMcpCmdMap rsp = .error e) (hq : Quiet s t)
      (hto : t.mcp = .idle) : Evolves s (.wake w new) t
  | unmapping {a : Action} {t : DeviceState} {conn : Conn} {p : Nat} {c : UnmapCommand}
      {v : TrustletSession} (hp : s.trustletSessions.get? p = some v)
      (howner : v.deviceConnection = some conn) (hh : c.handle ∈ v.buffers.handles)
      (hactor : s.actor a = some conn) (hfrom : s.mcp.session? = none) (hq : Quiet s t)
      (hto : t.mcp = .unmapWait conn p c) :
      Evolves s a t
  | unmapped {w : McpWake} {new : NewSession} {t : DeviceState} {conn : Conn} {p : Nat}
      {c : UnmapCommand} (hpc : s.mcp = .unmapWait conn p c)
      (hc : Changes s t (s.trustletSessions.modify p fun v =>
        { v with buffers := (v.buffers.removeBulkBuff c.handle).2 })
        [.unlockWsm c.handle (some p)])
      (hto : t.mcp = .idle) : Evolves s (.wake w new) t
  | reaping {t : DeviceState} {p : Nat} {v : TrustletSession}
      (hp : s.trustletSessions.get? p = some v) (hdead : v.sessionState = .taDead)
      (hfrom : s.mcp = .taExitLoop) (hq : Quiet s t) (hto : t.mcp = .taExitWait p) :
      Evolves s .round t
  /-- The clean-up of dead sessions deletes a session. -/
  | reaped {w : McpWake} {new : NewSession} {s' t : DeviceState} {p : Nat} {v : TrustletSession}
      {rsp : Option McpResponse} (hpc : s.mcp = .taExitWait p)
      (hw : waitMcpNotification s w = some (rsp, s'))
      (hr : closeSessionInternal rsp = mcDrvOk) (hp : s.trustletSessions.get? p = some v)
      (hc : Changes s t (s.trustletSessions.remove p) [.removed p])
      (hto : t.mcp = .taExitLoop) : Evolves s (.wake w new) t

/-! ## The sections -/

namespace DeviceState

theorem findSession_spec {s : DeviceState} {conn : Conn} {sessionId : UInt32} {p : Nat}
    (h : s.findSession conn sessionId = some p) :
    ∃ v, s.trustletSessions.get? p = some v ∧ v.sessionId = sessionId ∧
      v.deviceConnection = some conn := by
  unfold findSession at h
  cases hid : s.getTrustletSession sessionId with
  | none => rw [hid] at h; cases h
  | some q =>
    obtain ⟨v, hv, heq⟩ := PtrList.find?_spec hid
    simp only [hid, hv] at h
    split at h
    · rename_i howner
      cases h
      exact ⟨v, hv, by simpa using heq, howner⟩
    · cases h

theorem lockTci_quiet (s : DeviceState) (c : OpenCommand) : Quiet s (s.lockTci c) := by
  unfold lockTci
  split <;> exact ⟨rfl, rfl, rfl⟩

theorem unlockTci_quiet (s : DeviceState) (c : OpenCommand) : Quiet s (s.unlockTci c) := by
  unfold unlockTci
  split <;> exact ⟨rfl, rfl, rfl⟩

theorem creditTci_changes (s : DeviceState) (c : OpenCommand) (p : Nat) :
    Changes s (s.creditTci c p) s.trustletSessions
      (if c.hasTci then [.credited p c.tciHandle] else []) := by
  unfold creditTci
  split <;> exact ⟨rfl, rfl, rfl⟩

/-- An open command ends its first section in its exchange or back in the dispatcher. -/
theorem processOpenSession_quiet (s : DeviceState) (conn : Conn) (c : OpenCommand) :
    Quiet s (s.processOpenSession conn c) ∧
      (s.processOpenSession conn c).mcp.session? = none := by
  have hopen : ∀ ld, Quiet s (s.openSession conn ld c) ∧
      (s.openSession conn ld c).mcp.session? = none := by
    intro ld
    have hl := lockTci_quiet s c
    unfold openSession
    repeat' split
    · exact ⟨⟨rfl, rfl, rfl⟩, rfl⟩
    · exact ⟨⟨rfl, rfl, rfl⟩, rfl⟩
    · exact ⟨hl.trans ⟨rfl, rfl, rfl⟩, rfl⟩
    · exact ⟨hl.trans ⟨rfl, rfl, rfl⟩, rfl⟩
  unfold processOpenSession
  repeat' split
  · exact ⟨⟨rfl, rfl, rfl⟩, rfl⟩
  · exact ⟨⟨rfl, rfl, rfl⟩, rfl⟩
  · exact hopen _
  · exact ⟨⟨rfl, rfl, rfl⟩, rfl⟩

theorem closeSessionReturn_quiet (s : DeviceState) (caller : CloseCaller) (code : McResult) :
    Quiet s (s.closeSessionReturn caller code) ∧
      (s.closeSessionReturn caller code).mcp.session? = none := by
  cases caller <;> exact ⟨⟨rfl, rfl, rfl⟩, rfl⟩

theorem closeReturn_quiet (s : DeviceState) (conn : Conn) (drop : Bool) :
    Quiet s (s.closeReturn conn drop) ∧ (s.closeReturn conn drop).mcp.session? = none := by
  cases drop <;> exact ⟨⟨rfl, rfl, rfl⟩, rfl⟩

theorem queueNotification_changes {s : DeviceState} {p : Nat} {v : TrustletSession}
    (hp : s.trustletSessions.get? p = some v) (n : Notification) :
    Changes s (s.queueNotification p n)
        (s.trustletSessions.modify p fun v => v.queueNotification n)
        (if v.accepts n then [.queued p v.sessionId n] else []) ∧
      (s.queueNotification p n).mcp = s.mcp := by
  simp only [queueNotification, hp]
  split <;> exact ⟨⟨rfl, rfl, rfl⟩, rfl⟩

theorem unlockBuffers_changes (s : DeviceState) (p : Nat) (ws : List CWsm) :
    Changes s (s.unlockBuffers p ws) s.trustletSessions
      (ws.map fun w => Effect.unlockWsm w.handle (some p)).reverse := by
  induction ws generalizing s with
  | nil => exact ⟨rfl, rfl, rfl⟩
  | cons w ws ih =>
    obtain ⟨hs, hc, hnq⟩ := ih (s.emit (.unlockWsm w.handle (some p)))
    refine ⟨hs, ?_, hnq⟩
    have hemit : (s.emit (.unlockWsm w.handle (some p))).sessionCalls =
        .unlockWsm w.handle (some p) :: s.sessionCalls := rfl
    rw [unlockBuffers, hc, hemit]
    simp

theorem removeSession_changes (s : DeviceState) (p : Nat) (v : TrustletSession) :
    Changes s (s.removeSession p v) (s.trustletSessions.remove p) [.removed p] := by
  unfold removeSession
  cases v.notificationConnection <;> exact ⟨rfl, rfl, rfl⟩

theorem freeSession_changes (s : DeviceState) (p : Nat) (v : TrustletSession) :
    Changes s (s.freeSession p v) (s.trustletSessions.remove p) (freeCalls p v) := by
  obtain ⟨hs, hc, hnq⟩ := unlockBuffers_changes s p v.buffers.entries
  obtain ⟨hs', hc', hnq'⟩ := removeSession_changes (s.unlockBuffers p v.buffers.entries) p v
  refine ⟨by rw [freeSession, hs', hs], ?_, hnq'.trans hnq⟩
  rw [freeSession, hc', hc]
  rfl

/-- `closeSession` up to its exchange, for a client or for the loop of `close`. -/
theorem closeSession_evolves {s : DeviceState} {a : Action} (caller : CloseCaller)
    (hactor : s.actor a = some caller.conn) (hpc : s.mcp.session? = none) (sessionId : UInt32) :
    Evolves s a (s.closeSession caller sessionId) := by
  have hmapping : s.mcp.mapping? = none := by
    cases hs : s.mcp <;> simp_all [McpThread.session?, McpThread.mapping?]
  unfold closeSession
  cases hfind : s.findSession caller.conn sessionId with
  | none =>
    obtain ⟨hq, hto⟩ := closeSessionReturn_quiet s caller mcDrvErrDaemonUnknownSession
    exact .moved hq hmapping hto
  | some p =>
    obtain ⟨v, hv, -, howner⟩ := findSession_spec hfind
    simp only [hv]
    by_cases hgp : v.gpLevel = 1
    · refine .disconnected hv howner hgp hactor hpc ?_ rfl
      rw [disconnectGp, if_pos hgp]
      cases v.notificationConnection <;> exact ⟨rfl, rfl, rfl⟩
    · refine .closing hv howner hgp hactor hpc ?_ rfl
      rw [disconnectGp, if_neg hgp]
      exact ⟨rfl, rfl, rfl⟩

theorem closeSessionAnswer_evolves {s s' : DeviceState} {w : McpWake} {new : NewSession}
    {caller : CloseCaller} {p : Nat} {retry : Bool} (hpc : s.mcp = .closeWait caller p retry)
    (hs : Quiet s s') (rsp : Option McpResponse) :
    Evolves s (.wake w new) (s'.closeSessionAnswer caller p retry rsp) := by
  have hmapping : s.mcp.mapping? = none := by rw [hpc]; rfl
  unfold closeSessionAnswer
  cases hv : s'.trustletSessions.get? p with
  | none => exact .moved (hs.trans ⟨rfl, rfl, rfl⟩) hmapping rfl
  | some v =>
    dsimp only
    split
    · exact .moved (hs.trans ⟨rfl, rfl, rfl⟩) hmapping rfl
    split
    · split
      · exact .retried hpc (hs.trans ⟨rfl, rfl, rfl⟩) rfl
      · obtain ⟨hq, hto⟩ := closeSessionReturn_quiet s' caller mcMcpRetOk
        exact .moved (hs.trans hq) hmapping hto
    split
    · obtain ⟨hq, hto⟩ := closeSessionReturn_quiet s' caller
        (makeMcDrvMcpError (closeSessionInternal rsp))
      exact .moved (hs.trans hq) hmapping hto
    · have hc := freeSession_changes s' p v
      obtain ⟨hq, hto⟩ := closeSessionReturn_quiet (s'.freeSession p v) caller mcMcpRetOk
      rw [hs.sessions] at hv hc
      have hall := hs.changes hc
      exact .freed hpc hv
        ⟨hq.sessions.trans hall.sessions, hq.calls.trans hall.calls, hq.nq.trans hall.nq⟩ hto

theorem openSessionAnswer_evolves {s s' : DeviceState} {w : McpWake} {new : NewSession}
    {conn : Conn} {ld : LoadData} {c : OpenCommand} (hpc : s.mcp = .openWait conn ld c)
    (hs : Quiet s s') (rsp : Option McpResponse) :
    Evolves s (.wake w new) (s'.openSessionAnswer conn ld c new rsp) := by
  unfold openSessionAnswer
  cases hr : exchangeResult mcMcpCmdOpenSession rsp with
  | error e =>
    have hl := unlockTci_quiet s' c
    exact .moved (hs.trans (hl.trans ⟨rfl, rfl, rfl⟩)) (by rw [hpc]; rfl) rfl
  | ok r =>
    let s₁ := { s' with trustletSessions :=
      s'.trustletSessions.push (newSession conn ld c new r.sessionId) }
    obtain ⟨hl, hc, hnq⟩ := creditTci_changes s₁ c s'.trustletSessions.fresh
    refine .opened (r := r) hpc ?_ ⟨_, _, by rw [← hs.sessions]; rfl⟩
    rw [← hs.sessions]
    exact hs.changes ⟨hl, hc, hnq⟩

theorem openSessionDrain_evolves {s : DeviceState} {conn : Conn} {p : Nat}
    {rsp : OpenSessionPayload} {u : Bool} (hpc : s.mcp = .openDrain conn p rsp u) :
    Evolves s .round (s.openSessionDrain conn p rsp u) := by
  have hmapping : s.mcp.mapping? = none := by rw [hpc]; rfl
  unfold openSessionDrain
  cases hn : s.notifications with
  | nil => cases u <;> exact .moved ⟨rfl, rfl, rfl⟩ hmapping rfl
  | cons n ns =>
    cases hv : s.trustletSessions.get? p with
    | none =>
      have hs : s.queueNotification p n = s := by simp only [queueNotification, hv]
      simp only [hs]
      exact .beside ⟨rfl, rfl, rfl⟩ rfl
    | some v =>
      obtain ⟨⟨hs, hc, hnq⟩, hto⟩ := queueNotification_changes hv n
      exact .drained hpc hn hv ⟨hs, hc, hnq⟩ hto

theorem processMapBulkBuf_evolves {s : DeviceState} {a : Action} {conn : Conn}
    (hactor : s.actor a = some conn) (hpc : s.mcp = .idle) (c : MapCommand) :
    Evolves s a (s.processMapBulkBuf conn c) := by
  have hsession : s.mcp.session? = none := by rw [hpc]; rfl
  have hmapping : s.mcp.mapping? = none := by rw [hpc]; rfl
  unfold processMapBulkBuf
  split
  · exact .moved ⟨rfl, rfl, rfl⟩ hmapping rfl
  split
  · exact .moved ⟨rfl, rfl, rfl⟩ hmapping rfl
  split
  · exact .moved ⟨rfl, rfl, rfl⟩ hmapping rfl
  · unfold mapBulk
    cases hfind : (s.emit (.lockWsm c.handle)).findSession conn c.sessionId with
    | none => exact .moved ⟨rfl, rfl, rfl⟩ hmapping rfl
    | some p =>
      obtain ⟨v, hv, -, howner⟩ := findSession_spec hfind
      simp only [hv]
      exact .recorded (m := ⟨c.lenBulkMem, c.handle, c.kmod.findWsmL2⟩) rfl hv howner hactor
        hsession ⟨rfl, rfl, rfl⟩ rfl

theorem mapBulkAnswer_evolves {s s' : DeviceState} {w : McpWake} {new : NewSession}
    {conn : Conn} {p : Nat} {c : MapCommand} {added : Bool} {rsp : Option McpResponse}
    (hpc : s.mcp = .mapWait conn p c added) (hw : waitMcpNotification s w = some (rsp, s'))
    (hs : Quiet s s') : Evolves s (.wake w new) (s'.mapBulkAnswer conn p c rsp) := by
  unfold mapBulkAnswer
  cases hr : exchangeResult mcMcpCmdMap rsp with
  | error e => exact .mapRejected hpc hw hr (hs.trans ⟨rfl, rfl, rfl⟩) rfl
  | ok r => exact .mapped hpc hw hr ⟨hs.sessions, congrArg (List.cons _) hs.calls, hs.nq⟩ rfl

theorem processUnmapBulkBuf_evolves {s : DeviceState} {a : Action} {conn : Conn}
    (hactor : s.actor a = some conn) (hpc : s.mcp = .idle) (c : UnmapCommand) :
    Evolves s a (s.processUnmapBulkBuf conn c) := by
  have hsession : s.mcp.session? = none := by rw [hpc]; rfl
  have hmapping : s.mcp.mapping? = none := by rw [hpc]; rfl
  unfold processUnmapBulkBuf
  split
  · exact .moved ⟨rfl, rfl, rfl⟩ hmapping rfl
  cases hfind : s.findSession conn c.sessionId with
  | none => exact .moved ⟨rfl, rfl, rfl⟩ hmapping rfl
  | some p =>
    obtain ⟨v, hv, -, howner⟩ := findSession_spec hfind
    simp only [hv]
    split
    · rename_i hf
      exact .unmapping hv howner (BulkBuffs.mem_handles_of_findBulkBuff hf) hactor hsession
        ⟨rfl, rfl, rfl⟩ rfl
    · exact .moved ⟨rfl, rfl, rfl⟩ hmapping rfl

theorem unmapBulkAnswer_evolves {s s' : DeviceState} {w : McpWake} {new : NewSession}
    {conn : Conn} {p : Nat} {c : UnmapCommand} (hpc : s.mcp = .unmapWait conn p c)
    (hs : Quiet s s') (rsp : Option McpResponse) :
    Evolves s (.wake w new) (s'.unmapBulkAnswer conn p c rsp) := by
  unfold unmapBulkAnswer
  cases exchangeResult mcMcpCmdUnmap rsp with
  | error e => exact .moved (hs.trans ⟨rfl, rfl, rfl⟩) (by rw [hpc]; rfl) rfl
  | ok r =>
    refine .unmapped hpc ?_ rfl
    rw [← hs.sessions]
    exact hs.changes ⟨rfl, rfl, rfl⟩

theorem taExitRound_evolves {s : DeviceState} (hpc : s.mcp = .taExitLoop) :
    Evolves s .round s.taExitRound := by
  have hmapping : s.mcp.mapping? = none := by rw [hpc]; rfl
  unfold taExitRound
  cases hfind : s.firstDead with
  | none => exact .moved ⟨rfl, rfl, rfl⟩ hmapping rfl
  | some p =>
    obtain ⟨v, hv, hdead⟩ := PtrList.find?_spec hfind
    simp only [hv]
    exact .reaping hv (by simpa using hdead) hpc ⟨rfl, rfl, rfl⟩ rfl

theorem taExitAnswer_evolves {s s' : DeviceState} {w : McpWake} {new : NewSession} {p : Nat}
    {rsp : Option McpResponse} (hpc : s.mcp = .taExitWait p)
    (hw : waitMcpNotification s w = some (rsp, s')) (hs : Quiet s s') :
    Evolves s (.wake w new) (s'.taExitAnswer p rsp) := by
  have hmapping : s.mcp.mapping? = none := by rw [hpc]; rfl
  unfold taExitAnswer
  cases hv : s'.trustletSessions.get? p with
  | none => exact .moved (hs.trans ⟨rfl, rfl, rfl⟩) hmapping rfl
  | some v =>
    dsimp only
    split
    · rename_i hr
      have hc := removeSession_changes s' p v
      rw [hs.sessions] at hv hc
      have hall := hs.changes hc
      exact .reaped hpc hw hr hv ⟨hall.sessions, hall.calls, hall.nq⟩ rfl
    · exact .moved (hs.trans ⟨rfl, rfl, rfl⟩) hmapping rfl

theorem handleIrq_evolves (s : DeviceState) (n : Notification) :
    Evolves s (.concurrent (.irq n)) (s.handleIrq n) := by
  unfold handleIrq
  split
  · exact .beside ⟨rfl, rfl, rfl⟩ rfl
  cases hfind : s.getTrustletSession n.sessionId with
  | none =>
    dsimp only
    split <;> exact .beside ⟨rfl, rfl, rfl⟩ rfl
  | some p =>
    obtain ⟨v, hv, hid⟩ := PtrList.find?_spec hfind
    have hid : n.sessionId = v.sessionId := (beq_iff_eq.mp hid).symm
    simp only [hv]
    cases hconn : v.notificationConnection with
    | some conn => exact .forwarded hv hid hconn ⟨rfl, rfl, rfl⟩ rfl
    | none =>
      obtain ⟨⟨hs, hc, hnq⟩, hto⟩ := queueNotification_changes hv n
      dsimp only
      split <;> exact .queued hv hid hconn ⟨hs, hc, hnq⟩ hto

theorem processNqConnect_evolves (s : DeviceState) (conn : Conn) (c : NqConnectCommand) :
    Evolves s (.concurrent (.nqConnect conn c)) (s.processNqConnect conn c) := by
  unfold processNqConnect
  split
  · exact .beside ⟨rfl, rfl, rfl⟩ rfl
  dsimp only
  split
  · exact .beside ⟨rfl, rfl, rfl⟩ rfl
  cases hreg : (s.emit (.detachedConnection conn)).registerTrustletConnection c with
  | none => exact .beside ⟨rfl, rfl, rfl⟩ rfl
  | some p => exact .attached hreg ⟨rfl, rfl⟩ rfl rfl

theorem processQueuedNotifications_evolves {s : DeviceState} {f : NqFlush} (hnq : s.nq = some f) :
    Evolves s (.concurrent .nqFlush) (s.processQueuedNotifications f.p) := by
  unfold processQueuedNotifications
  cases hv : s.trustletSessions.get? f.p with
  | none => exact .flushEnd ⟨rfl, rfl⟩ rfl rfl
  | some v =>
    dsimp only
    split
    · split
      · exact .flushEnd ⟨rfl, rfl⟩ rfl rfl
      · exact .beside ⟨rfl, rfl, rfl⟩ rfl
    split
    · exact .flushEnd ⟨rfl, rfl⟩ rfl rfl
    · exact .flushEnd ⟨rfl, rfl⟩ rfl rfl
    · next n ns conn hn hconn => exact .flushed hnq hv hn hconn ⟨rfl, rfl, rfl⟩ rfl

theorem processNotify_quiet (s : DeviceState) (conn : Conn) (sessionId : UInt32) :
    Quiet s (s.processNotify conn sessionId) ∧ (s.processNotify conn sessionId).mcp = s.mcp := by
  unfold processNotify
  split
  · exact ⟨⟨rfl, rfl, rfl⟩, rfl⟩
  split <;> exact ⟨⟨rfl, rfl, rfl⟩, rfl⟩

/-! ## The step -/

theorem handleCommand_evolves {s : DeviceState} (hpc : s.mcp = .idle) (conn : Conn)
    (c : Command) : Evolves s (.command conn c) (s.handleCommand conn c) := by
  have hsession : s.mcp.session? = none := by rw [hpc]; rfl
  have hmapping : s.mcp.mapping? = none := by rw [hpc]; rfl
  cases c with
  | openDevice deviceId =>
    simp only [handleCommand, processOpenDevice]
    split
    · exact .moved ⟨rfl, rfl, rfl⟩ hmapping rfl
    split <;> exact .moved ⟨rfl, rfl, rfl⟩ hmapping rfl
  | closeDevice =>
    simp only [handleCommand, processCloseDevice]
    split <;> exact .moved ⟨rfl, rfl, rfl⟩ hmapping rfl
  | openSession c =>
    obtain ⟨hq, hto⟩ := processOpenSession_quiet s conn c
    exact .moved hq hmapping hto
  | closeSession sessionId =>
    simp only [handleCommand, processCloseSession]
    split
    · exact .moved ⟨rfl, rfl, rfl⟩ hmapping rfl
    · exact closeSession_evolves (.client conn) rfl hsession sessionId
  | mapBulk c => exact processMapBulkBuf_evolves rfl hpc c
  | unmapBulk c => exact processUnmapBulkBuf_evolves rfl hpc c

theorem waitMcpNotification_spec {s s' : DeviceState} {w : McpWake} {rsp : Option McpResponse}
    (h : waitMcpNotification s w = some (rsp, s')) : Quiet s s' ∧ s'.mcp = s.mcp := by
  unfold waitMcpNotification at h
  repeat' split at h
  all_goals cases h
  all_goals exact ⟨⟨rfl, rfl, rfl⟩, rfl⟩

theorem wake_evolves {s t : DeviceState} {w : McpWake} {new : NewSession}
    (h : s.step (.wake w new) = some t) : Evolves s (.wake w new) t := by
  obtain ⟨⟨rsp, s'⟩, hw, h⟩ := Option.bind_eq_some_iff.mp h
  obtain ⟨hq, hto⟩ := waitMcpNotification_spec hw
  change s'.afterWait new rsp s'.mcp = some t at h
  rw [hto] at h
  cases hpc : s.mcp with
  | idle | openDrain conn p r u | closeLoop conn drop | taExitLoop | aborted =>
    rw [hpc] at h
    cases h
  | openWait conn ld c =>
    rw [hpc] at h
    cases h
    exact openSessionAnswer_evolves hpc hq rsp
  | closeWait caller p retry =>
    rw [hpc] at h
    cases h
    exact closeSessionAnswer_evolves hpc hq rsp
  | mapWait conn p c added =>
    rw [hpc] at h
    cases h
    exact mapBulkAnswer_evolves hpc hw hq
  | unmapWait conn p c =>
    rw [hpc] at h
    cases h
    exact unmapBulkAnswer_evolves hpc hq rsp
  | checkLoadWait =>
    rw [hpc] at h
    cases h
    exact .moved (hq.trans ⟨rfl, rfl, rfl⟩) (by rw [hpc]; rfl) rfl
  | taExitWait p =>
    rw [hpc] at h
    cases h
    exact taExitAnswer_evolves hpc hw hq

theorem round_evolves {s t : DeviceState} (h : s.step .round = some t) :
    Evolves s .round t := by
  change s.nextRound s.mcp = some t at h
  cases hpc : s.mcp with
  | openDrain conn p rsp u =>
    rw [hpc] at h
    cases h
    exact openSessionDrain_evolves hpc
  | closeLoop conn drop =>
    rw [hpc] at h
    cases h
    have hsession : s.mcp.session? = none := by rw [hpc]; rfl
    have hmapping : s.mcp.mapping? = none := by rw [hpc]; rfl
    have hactor : s.actor .round = some conn := by simp [actor, hpc, McpThread.client?]
    unfold closeRound
    obtain ⟨hq, hto⟩ := closeReturn_quiet s conn drop
    cases hlast : s.lastOwned conn with
    | none => exact .moved hq hmapping hto
    | some p =>
      obtain ⟨v, hv, -⟩ := PtrList.findRev?_spec hlast
      simp only [hv]
      exact closeSession_evolves (.device conn drop) hactor hsession v.sessionId
  | taExitLoop =>
    rw [hpc] at h
    cases h
    exact taExitRound_evolves hpc
  | idle | openWait conn ld c | closeWait caller p retry | mapWait conn p c added
  | unmapWait conn p c | checkLoadWait | taExitWait p | aborted =>
    rw [hpc] at h
    cases h

theorem concurrent_evolves {s t : DeviceState} {c : Concurrent}
    (h : s.concurrentStep c = some t) : Evolves s (.concurrent c) t := by
  cases c with
  | irq n =>
    cases h
    exact handleIrq_evolves s n
  | nqConnect conn c =>
    simp only [concurrentStep] at h
    split at h
    · cases h
      exact processNqConnect_evolves s conn c
    · cases h
  | nqFlush =>
    obtain ⟨f, hnq, rfl⟩ := Option.map_eq_some_iff.mp h
    exact processQueuedNotifications_evolves hnq
  | notify conn sessionId =>
    simp only [concurrentStep] at h
    split at h
    · cases h
      obtain ⟨hq, hto⟩ := processNotify_quiet s conn sessionId
      exact .beside hq hto
    · cases h
  | loadToken =>
    cases h
    exact .beside ⟨rfl, rfl, rfl⟩ rfl
  | taken =>
    simp only [concurrentStep] at h
    split at h
    · cases h
    · cases h
      exact .beside ⟨rfl, rfl, rfl⟩ rfl

/-- A step beside the holder of `mutex_mcp` leaves it where it is, and changes neither the list nor
whose a session is. -/
structure Beside (s t : DeviceState) : Prop where
  mcp : t.mcp = s.mcp
  mcFault : t.mcFault = s.mcFault
  sessions : t.trustletSessions = s.trustletSessions ∨
    ∃ p f, t.trustletSessions = s.trustletSessions.modify p f ∧ ∀ v : TrustletSession,
      (f v).sessionId = v.sessionId ∧ (f v).deviceConnection = v.deviceConnection ∧
        (f v).gpLevel = v.gpLevel

theorem queueNotification_beside (s : DeviceState) (p : Nat) (n : Notification) :
    Beside s (s.queueNotification p n) := by
  unfold queueNotification
  cases s.trustletSessions.get? p with
  | none => exact ⟨rfl, rfl, .inl rfl⟩
  | some v =>
    dsimp only
    split <;> exact ⟨rfl, rfl, .inr ⟨p, fun v => v.queueNotification n, rfl,
      fun v => ⟨rfl, rfl, rfl⟩⟩⟩

theorem handleIrq_beside (s : DeviceState) (n : Notification) : Beside s (s.handleIrq n) := by
  unfold handleIrq
  split
  · exact ⟨rfl, rfl, .inl rfl⟩
  cases s.getTrustletSession n.sessionId with
  | none =>
    dsimp only
    split <;> exact ⟨rfl, rfl, .inl rfl⟩
  | some p =>
    dsimp only
    cases s.trustletSessions.get? p with
    | none => exact ⟨rfl, rfl, .inl rfl⟩
    | some v =>
      dsimp only
      cases v.notificationConnection with
      | some conn => exact ⟨rfl, rfl, .inl rfl⟩
      | none =>
        obtain ⟨hmcp, hfault, hs⟩ := queueNotification_beside s p n
        dsimp only
        split <;> exact ⟨hmcp, hfault, hs⟩

theorem concurrentStep_beside {s t : DeviceState} {c : Concurrent}
    (h : s.concurrentStep c = some t) : Beside s t := by
  cases c with
  | irq n =>
    cases h
    exact handleIrq_beside s n
  | nqConnect conn c =>
    simp only [concurrentStep] at h
    split at h
    · cases h
      unfold processNqConnect
      split
      · exact ⟨rfl, rfl, .inl rfl⟩
      dsimp only
      split
      · exact ⟨rfl, rfl, .inl rfl⟩
      split
      · exact ⟨rfl, rfl, .inl rfl⟩
      · exact ⟨rfl, rfl, .inr ⟨_, fun v => { v with notificationConnection := some conn }, rfl,
          fun v => ⟨rfl, rfl, rfl⟩⟩⟩
    · cases h
  | nqFlush =>
    obtain ⟨f, -, rfl⟩ := Option.map_eq_some_iff.mp h
    unfold processQueuedNotifications
    split
    · exact ⟨rfl, rfl, .inl rfl⟩
    split
    · split <;> exact ⟨rfl, rfl, .inl rfl⟩
    split
    · exact ⟨rfl, rfl, .inl rfl⟩
    · exact ⟨rfl, rfl, .inl rfl⟩
    · next n ns conn _ _ =>
      exact ⟨rfl, rfl, .inr ⟨f.p, fun v => { v with notifications := ns }, rfl,
        fun v => ⟨rfl, rfl, rfl⟩⟩⟩
  | notify conn sessionId =>
    simp only [concurrentStep] at h
    split at h
    · cases h
      unfold processNotify
      split
      · exact ⟨rfl, rfl, .inl rfl⟩
      split <;> exact ⟨rfl, rfl, .inl rfl⟩
    · cases h
  | loadToken =>
    cases h
    exact ⟨rfl, rfl, .inl rfl⟩
  | taken =>
    simp only [concurrentStep] at h
    split at h
    · cases h
    · cases h
      exact ⟨rfl, rfl, .inl rfl⟩

/-- **Inversion.** Every step of the machine is one of the cases of `Evolves`. -/
theorem step_evolves {s t : DeviceState} {a : Action} (h : s.step a = some t) :
    Evolves s a t := by
  cases a with
  | command conn c =>
    simp only [step] at h
    split at h
    · rename_i hpc
      cases h
      exact handleCommand_evolves hpc conn c
    · cases h
  | drop conn =>
    simp only [step] at h
    split at h
    · rename_i hpc
      have hmapping : s.mcp.mapping? = none := by rw [hpc]; rfl
      cases h
      unfold dropConnection
      split
      · exact .beside ⟨rfl, rfl, rfl⟩ rfl
      · exact .moved ⟨rfl, rfl, rfl⟩ hmapping rfl
    · cases h
  | checkLoad =>
    simp only [step] at h
    split at h
    · rename_i hpc
      cases h
      exact .moved ⟨rfl, rfl, rfl⟩ (by rw [hpc]; rfl) rfl
    · cases h
  | taExit =>
    simp only [step] at h
    split at h
    · rename_i hpc
      cases h
      exact .moved ⟨rfl, rfl, rfl⟩ (by rw [hpc.1]; rfl) rfl
    · cases h
  | round => exact round_evolves h
  | wake w new => exact wake_evolves h
  | concurrent c =>
    simp only [step] at h
    split at h
    · cases h
    · exact concurrent_evolves h

end DeviceState

end McDaemon.Device
