/-
# McDaemon.Device.Lifecycle — one session, step by step.

`Evolves` says what a step does to the list; here the same is said about one session of it.  A
session is created by an open; from then on a step leaves it alone, queues a notification for it,
takes one off its queue, attaches a notification socket, cuts it off from its client, or changes
its buffers.  Its id, its names and its GP level never change.
-/
import McDaemon.Device.Frame

namespace McDaemon.Device

open McDaemon.Lib

namespace DeviceState

/-- The notification that a step passes to `queueNotification`, and the session it is passed to:
by the interrupt handler, or by the drain of an open. -/
def queues (s : DeviceState) : Action → Option (Nat × TrustletSession × Notification)
  | .concurrent (.irq n) => do
    let p ← s.reaches n
    let v ← s.trustletSessions.get? p
    if v.notificationConnection = none then some (p, v, n) else none
  | .round =>
    match s.mcp, s.notifications with
    | .openDrain _ p _ _, n :: _ => (s.trustletSessions.get? p).map fun v => (p, v, n)
    | _, _ => none
  | _ => none

end DeviceState

/-- What a step makes of the session behind `q`. -/
inductive SessionEvolves (s t : DeviceState) (a : Action) (q : Nat) (v : TrustletSession) :
    TrustletSession → Prop where
  | same : SessionEvolves s t a q v v
  | queued {n : Notification} (hq : s.queues a = some (q, v, n)) :
      SessionEvolves s t a q v (v.queueNotification n)
  | flushed {n : Notification} {ns : List Notification} (hn : v.notifications = n :: ns) :
      SessionEvolves s t a q v { v with notifications := ns }
  | attached {conn : Conn} {c : NqConnectCommand} (ha : a = .concurrent (.nqConnect conn c))
      (hrec : t.effects = .answered conn mcDrvOk :: .detachedConnection conn :: s.effects) :
      SessionEvolves s t a q v { v with notificationConnection := some conn }
  | disconnected {caller : CloseCaller} (howner : v.deviceConnection = some caller.conn)
      (hgp : v.gpLevel = 1) (hfrom : s.mcp.session? = none)
      (hto : t.mcp = .closeWait caller q false) :
      SessionEvolves s t a q v
        { v with deviceConnection := none, notificationConnection := none,
                 sessionState := .closeSend }
  | buffers {b : BulkBuffs} : SessionEvolves s t a q v { v with buffers := b }

namespace DeviceState

theorem queues_of_reaches {s : DeviceState} {n : Notification} {p : Nat} {v : TrustletSession}
    (hp : s.reaches n = some p) (hv : s.trustletSessions.get? p = some v)
    (hconn : v.notificationConnection = none) :
    s.queues (.concurrent (.irq n)) = some (p, v, n) := by
  simp [queues, hp, hv, hconn]

/-- What becomes of the session that a notification is queued for. -/
theorem queued_step {s t : DeviceState} {a : Action} (h : s.step a = some t) {p : Nat}
    {v : TrustletSession} {n : Notification} (hq : s.queues a = some (p, v, n)) :
    s.trustletSessions.get? p = some v ∧ Touches s t
      (s.trustletSessions.modify p fun v => v.queueNotification n)
      (if v.accepts n then [.queued p v.sessionId n] else []) := by
  cases a with
  | concurrent c =>
    cases c with
    -- an interrupt queues what there is no connection for
    | irq m =>
      simp only [queues, Option.bind_eq_bind, Option.bind_eq_some_iff] at hq
      obtain ⟨q, hp, u, hu, hq⟩ := hq
      split at hq
      · next hconn =>
        cases hq
        simp only [step] at h
        split at h
        · cases h
        have hh := handleIrq_handles s n
        rw [Option.some.inj h] at hh
        cases hh with
        | mcp hid => exact absurd hid (reaches_spec hp).1
        | parked _ hnone =>
          rw [hp] at hnone
          cases hnone
        | queued hp' hu' _ hc =>
          cases hp.symm.trans hp'
          cases hu.symm.trans hu'
          exact ⟨hu, hc.touches⟩
        | forwarded hp' hu' hconn' =>
          cases hp.symm.trans hp'
          cases hu.symm.trans hu'
          rw [hconn] at hconn'
          cases hconn'
      · cases hq
    | nqConnect conn c => cases hq
    | nqFlush => cases hq
    | notify conn sessionId => cases hq
    | loadToken => cases hq
    | taken => cases hq
  | round =>
    simp only [queues] at hq
    split at hq
    -- the drain behind an open queues what came before the session was known
    · next conn q rsp u m ms hpc hn =>
      obtain ⟨w, hw, heq⟩ := Option.map_eq_some_iff.mp hq
      cases heq
      change s.nextRound s.mcp = some t at h
      rw [hpc] at h
      cases h
      obtain ⟨hs, hc, -⟩ := (queueNotification_changes hw n).1
      simp only [openSessionDrain, hn]
      exact ⟨hw, hs, hc⟩
    · cases hq
  | command conn c => cases hq
  | drop conn => cases hq
  | checkLoad => cases hq
  | taExit => cases hq
  | wake w new => cases hq

/-- Pointers are never handed out twice. -/
theorem fresh_mono {s t : DeviceState} {a : Action} (h : s.step a = some t) :
    s.trustletSessions.fresh ≤ t.trustletSessions.fresh := by
  have hsame : ∀ {l es}, Touches s t l es → s.trustletSessions.fresh ≤ l.fresh →
      s.trustletSessions.fresh ≤ t.trustletSessions.fresh := by
    intro l es hc hle
    rw [hc.sessions]
    exact hle
  cases step_evolves h with
  | beside hq | moved hq | closing _ _ _ _ _ hq | retried _ hq | mapRejected _ _ _ hq
  | unmapping _ _ _ _ _ hq | reaping _ _ _ hq => exact hsame hq.touches (Nat.le_refl _)
  | flushEnd hc | attached _ hc => exact hsame hc (Nat.le_refl _)
  | opened _ hc => exact hsame hc.touches (Nat.le_succ _)
  | forwarded _ _ _ hc | mapped _ _ _ hc | drained _ _ _ hc | queued _ _ _ hc
  | flushed _ _ _ _ hc | disconnected _ _ _ _ _ hc | freed _ _ hc | recorded _ _ _ _ _ hc
  | unmapped _ hc | reaped _ _ _ _ hc => exact hsame hc.touches (Nat.le_refl _)

/-- A session that is there after a step was created by it, or was there before. -/
theorem session_evolves {s t : DeviceState} {a : Action} {q : Nat} {w : TrustletSession}
    (h : s.step a = some t) (hw : t.trustletSessions.get? q = some w) :
    (q = s.trustletSessions.fresh ∧ ∃ conn ld c new sessionId,
      s.mcp = .openWait conn ld c ∧ w = newSession conn ld c new sessionId) ∨
    ∃ v, s.trustletSessions.get? q = some v ∧ SessionEvolves s t a q v w := by
  have hsame : t.trustletSessions = s.trustletSessions →
      ∃ v, s.trustletSessions.get? q = some v ∧ SessionEvolves s t a q v w := by
    intro hs
    exact ⟨w, by rw [← hs]; exact hw, .same⟩
  -- a write to the session behind `p`
  have hwrite : ∀ {p v f}, s.trustletSessions.get? p = some v →
      t.trustletSessions = s.trustletSessions.modify p f →
      (p = q → SessionEvolves s t a q v (f v)) →
      ∃ v, s.trustletSessions.get? q = some v ∧ SessionEvolves s t a q v w := by
    intro p v f hv hs hf
    rw [hs, PtrList.get?_modify] at hw
    split at hw
    · next heq =>
      subst heq
      rw [hv] at hw
      obtain rfl : f v = w := Option.some.inj hw
      exact ⟨v, hv, hf rfl⟩
    · exact ⟨w, hw, .same⟩
  have hremove : ∀ {p}, t.trustletSessions = s.trustletSessions.remove p →
      ∃ v, s.trustletSessions.get? q = some v ∧ SessionEvolves s t a q v w := by
    intro p hs
    rw [hs, PtrList.get?_remove] at hw
    split at hw
    · cases hw
    · exact ⟨w, hw, .same⟩
  -- `Evolves` does not say that the interrupt handler takes the first session with an id
  by_cases hirq : ∃ n, a = .concurrent (.irq n)
  · obtain ⟨n, rfl⟩ := hirq
    simp only [step] at h
    split at h
    · cases h
    right
    have hh := handleIrq_handles s n
    rw [Option.some.inj h] at hh
    cases hh with
    | mcp _ hq | parked _ _ hq => exact hsame hq.sessions
    | queued hp hv hconn hc =>
      refine hwrite hv hc.sessions ?_
      rintro rfl
      exact .queued (queues_of_reaches hp hv hconn)
    | forwarded _ _ _ hc => exact hsame hc.sessions
  by_cases hnq : ∃ conn c, a = .concurrent (.nqConnect conn c)
  · obtain ⟨conn, c, rfl⟩ := hnq
    right
    cases nqConnect_step h with
    | kept _ _ hs => exact hsame hs
    | lost _ _ _ hs => exact hsame hs
    | given _ _ _ hv hs hrec => exact hwrite hv hs fun _ => .attached rfl hrec
  cases step_evolves h with
  | beside hq | moved hq | closing _ _ _ _ _ hq | retried _ hq | mapRejected _ _ _ hq
  | unmapping _ _ _ _ _ hq | reaping _ _ _ hq => exact .inr (hsame hq.sessions)
  | mapped _ _ _ hc => exact .inr (hsame hc.sessions)
  | flushEnd hc => exact .inr (hsame hc.sessions)
  | @opened _ new _ conn ld c r hpc hc =>
    rw [hc.sessions, PtrList.get?_push] at hw
    split at hw
    · next heq =>
      exact .inl ⟨heq, conn, ld, c, new, r.sessionId, hpc, (Option.some.inj hw).symm⟩
    · exact .inr ⟨w, hw, .same⟩
  | @drained _ conn p rsp u v n ns hpc hn hv hc =>
    refine .inr (hwrite hv hc.sessions ?_)
    rintro rfl
    exact .queued (by simp [queues, hpc, hn, hv])
  | queued => exact absurd ⟨_, rfl⟩ hirq
  | forwarded => exact absurd ⟨_, rfl⟩ hirq
  | flushed _ hv hn _ hc => exact .inr (hwrite hv hc.sessions fun _ => .flushed hn)
  | attached => exact absurd ⟨_, _, rfl⟩ hnq
  | disconnected hv howner hgp _ hfrom hc hto =>
    refine .inr (hwrite hv hc.sessions ?_)
    rintro rfl
    exact .disconnected howner hgp hfrom hto
  | freed _ _ hc => exact .inr (hremove hc.sessions)
  | recorded _ hv _ _ _ hc => exact .inr (hwrite hv hc.sessions fun _ => .buffers)
  | @unmapped _ _ _ conn p c _ hc =>
    cases hv : s.trustletSessions.get? p with
    | none =>
      rw [hc.sessions, PtrList.get?_modify] at hw
      split at hw
      · next heq =>
        rw [heq, hv] at hw
        cases hw
      · exact .inr ⟨w, hw, .same⟩
    | some v => exact .inr (hwrite hv hc.sessions fun _ => .buffers)
  | reaped _ _ _ _ hc => exact .inr (hremove hc.sessions)

end DeviceState

/-- The state, the owner and the GP level of the session that an open creates. -/
theorem newSession_spec (conn : Conn) (ld : LoadData) (c : OpenCommand) (new : NewSession)
    (sessionId : UInt32) :
    (newSession conn ld c new sessionId).sessionState = .taRunning ∧
      (newSession conn ld c new sessionId).deviceConnection = some conn ∧
      (newSession conn ld c new sessionId).notifications = [] := by
  unfold newSession
  dsimp only
  split
  · exact ⟨rfl, rfl, rfl⟩
  · exact ⟨rfl, rfl, rfl⟩

namespace SessionEvolves

variable {s t : DeviceState} {a : Action} {q : Nat} {v w : TrustletSession}

/-- A session's client is the one that opened it, or gone. -/
theorem owner (h : SessionEvolves s t a q v w) :
    w.deviceConnection = v.deviceConnection ∨ w.deviceConnection = none := by
  cases h with
  | disconnected => exact .inr rfl
  | same | queued | flushed | attached | buffers => exact .inl rfl

theorem gpLevel (h : SessionEvolves s t a q v w) : w.gpLevel = v.gpLevel := by
  cases h <;> rfl

theorem sessionId (h : SessionEvolves s t a q v w) : w.sessionId = v.sessionId := by
  cases h <;> rfl

/-- Outside the exchange of its close a session keeps its client. -/
theorem owner_eq (h : SessionEvolves s t a q v w)
    (hclosing : ∀ caller retry, t.mcp ≠ .closeWait caller q retry) :
    w.deviceConnection = v.deviceConnection := by
  cases h with
  | disconnected _ _ _ hto => exact absurd hto (hclosing _ _)
  | same | queued | flushed | attached | buffers => rfl

/-- Outside the exchange of its close a dead session stays dead. -/
theorem dead_of_dead (h : SessionEvolves s t a q v w)
    (hclosing : ∀ caller retry, t.mcp ≠ .closeWait caller q retry)
    (hv : v.sessionState = .taDead) : w.sessionState = .taDead := by
  cases h with
  | disconnected _ _ _ hto => exact absurd hto (hclosing _ _)
  | queued =>
    show TrustletSession.stateAfter _ _ = _
    rw [TrustletSession.stateAfter, if_pos hv]
  | same | flushed | attached | buffers => exact hv

/-- Who marks a session dead: a notification that is queued for it. -/
theorem dead (h : SessionEvolves s t a q v w) (hw : w.sessionState = .taDead) :
    v.sessionState = .taDead ∨ ∃ n, s.queues a = some (q, v, n) ∧ v.exits n = true := by
  cases h with
  | same | flushed | attached | buffers => exact .inl hw
  | disconnected => cases hw
  | @queued n hq =>
    by_cases hdead : v.sessionState = .taDead
    · exact .inl hdead
    · refine .inr ⟨n, hq, ?_⟩
      by_contra hexits
      have hstate : v.stateAfter n = v.sessionState := by
        rw [TrustletSession.stateAfter, if_neg hdead, if_neg hexits]
      exact hdead (hstate.symm.trans hw)

end SessionEvolves

/-! ## The life of a GP session -/

/-- A GP session is opened for client `conn`, and answered with `sessionId`. -/
def openGp (conn : Conn) (sessionId addr : UInt32) : List Action :=
  [.command conn (.openDevice 0),
   .command conn (.openSession ⟨some ⟨100, 1⟩, 0, 0, 0, {}⟩),
   .concurrent (.irq ⟨sidMcp, 0⟩),
   .wake (.notified ⟨mcMcpCmdOpenSession ||| flagResponse, mcMcpRetOk, sessionId, 0⟩) ⟨addr, 77⟩,
   .round]

/-- The exchange of a CLOSE_SESSION that is answered with `result`. -/
def closeExchange (result : UInt32) : List Action :=
  [.concurrent (.irq ⟨sidMcp, 0⟩),
   .wake (.notified ⟨mcMcpCmdCloseSession ||| flagResponse, result, 0, 0⟩) ⟨0, 0⟩]

/-- The client of session 5 closes it while its task still runs; the task ends later, and the
session is cleaned up. -/
def reclaimRun : List Action :=
  openGp 1 5 0x1000 ++ .command 1 (.closeSession 5) ::
    closeExchange mcMcpRetErrCloseTaskFailed ++
    [.concurrent (.irq ⟨5, 1⟩), .taExit, .round] ++ closeExchange mcMcpRetOk

end McDaemon.Device
