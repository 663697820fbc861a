/-
# McDaemon.Device.Orphan — dead sessions that the clean-up does not find.

A GP session that its client has closed stays on the list when its task has not ended yet; the
exit notification of the task then marks it dead, and the clean-up finds it.  The mark is missed
when the notification came before the close, which overwrites the state of the session, or when it
goes to a notification socket that somebody attaches after the close.  The runs without such an
orphan are exactly those in which neither happens.
-/
import McDaemon.Device.Lifecycle

namespace McDaemon.Device

open McDaemon.Lib

/-! ## Orphans -/

/-- The session whose exit a call announces: the exit notification is queued for it, or sent to
its client. -/
def Effect.exitOf? : Effect → Option Nat
  | .queued p _ n | .forwarded p _ _ n => if n.payload = 0 then none else some p
  | _ => none

/-- An exit notification has reached the session. -/
def ExitReceived (s : DeviceState) (p : Nat) : Prop :=
  ∃ e ∈ s.sessionCalls, e.exitOf? = some p

/-- The exchange of the session's own close is going on. -/
def DeviceState.closing (s : DeviceState) (p : Nat) : Prop :=
  ∃ caller retry, s.mcp = .closeWait caller p retry

/-- Outside the exchange of its close, a GP session that has no client any more and whose exit has
been announced is marked dead. -/
def NoOrphan (s : DeviceState) : Prop :=
  ∀ p v, s.trustletSessions.get? p = some v → v.gpLevel = 1 → v.deviceConnection = none →
    ExitReceived s p → ¬ s.closing p → v.sessionState = .taDead

/-- A step does not miss a death.  An exit notification for a session that is closed and not
marked dead finds no notification socket attached, unless the close is still going on; and the
close of a session whose exit was announced before ends in success, or with the session marked
dead during the exchange. -/
def RecordsExit (s : DeviceState) : Action → Prop
  | .concurrent (.irq n) =>
    ∀ p v, s.reaches n = some p → s.trustletSessions.get? p = some v → v.exits n = true →
      v.deviceConnection = none → v.sessionState ≠ .taDead →
        v.notificationConnection = none ∨ s.closing p
  | .wake w _ =>
    ∀ p v, s.closing p → s.trustletSessions.get? p = some v → v.gpLevel = 1 →
      v.deviceConnection = none → v.sessionState ≠ .taDead → ExitReceived s p →
        ∀ rsp s', waitMcpNotification s w = some (rsp, s') →
          closeSessionInternal rsp = mcMcpRetOk
  | _ => True

/-- No orphan, and every notification in a session's queue is on record as queued for it. -/
structure DeathsRecorded (s : DeviceState) : Prop where
  noOrphan : NoOrphan s
  queue : ∀ p v n, s.trustletSessions.get? p = some v → n ∈ v.notifications →
    Effect.queued p v.sessionId n ∈ s.sessionCalls

/-! ## What a step does about an exit -/

theorem Effect.exitOf?_queued {p q : Nat} {sessionId : UInt32} {n : Notification}
    (h : (Effect.queued q sessionId n).exitOf? = some p) : q = p ∧ n.payload ≠ 0 := by
  simp only [Effect.exitOf?] at h
  split at h
  · cases h
  · next hpay => exact ⟨Option.some.inj h, hpay⟩

theorem Effect.exitOf?_forwarded {p q : Nat} {sessionId : UInt32} {conn : Conn}
    {n : Notification} (h : (Effect.forwarded q sessionId conn n).exitOf? = some p) :
    q = p ∧ n.payload ≠ 0 := by
  have hq : (Effect.queued q sessionId n).exitOf? = some p := h
  exact Effect.exitOf?_queued hq

theorem ExitReceived.mono {s t : DeviceState} {p : Nat} (h : s.sessionCalls ⊆ t.sessionCalls)
    (hexit : ExitReceived s p) : ExitReceived t p := by
  obtain ⟨e, he, hexitOf⟩ := hexit
  exact ⟨e, h he, hexitOf⟩

namespace DeviceState

variable {s t : DeviceState} {a : Action}

/-- The holder of `mutex_mcp` leaves a wait only by waking up. -/
theorem closing_of_step (h : s.step a = some t) (ha : ∀ w new, a ≠ .wake w new) {p : Nat}
    (hclosing : s.closing p) : t.closing p := by
  obtain ⟨caller, retry, hpc⟩ := hclosing
  refine ⟨caller, retry, ?_⟩
  cases a with
  | wake w new => exact absurd rfl (ha w new)
  | concurrent c =>
    simp only [step] at h
    split at h
    · cases h
    · rw [(concurrentStep_beside h).mcp, hpc]
  | round =>
    change s.nextRound s.mcp = some t at h
    rw [hpc] at h
    cases h
  | command conn c =>
    simp only [step, hpc] at h
    cases h
  | drop conn =>
    simp only [step, hpc] at h
    cases h
  | checkLoad =>
    simp only [step, hpc] at h
    cases h
  | taExit =>
    simp only [step, hpc] at h
    cases h

/-- A close that succeeds takes the session off the list; one that does not leaves the list alone,
and waits again only for a dead session. -/
theorem wake_of_closing {w : McpWake} {new : NewSession} (h : s.step (.wake w new) = some t)
    {p : Nat} {v : TrustletSession} (hclosing : s.closing p)
    (hv : s.trustletSessions.get? p = some v) :
    ∃ rsp s', waitMcpNotification s w = some (rsp, s') ∧
      (closeSessionInternal rsp = mcMcpRetOk → t.trustletSessions.get? p = none) ∧
      (closeSessionInternal rsp ≠ mcMcpRetOk →
        t.trustletSessions = s.trustletSessions ∧ s.sessionCalls ⊆ t.sessionCalls ∧
          (v.sessionState ≠ .taDead → ¬ t.closing p)) := by
  obtain ⟨caller, retry, hpc⟩ := hclosing
  obtain ⟨⟨rsp, s'⟩, hw, h⟩ := Option.bind_eq_some_iff.mp h
  obtain ⟨hq, hto⟩ := waitMcpNotification_spec hw
  refine ⟨rsp, s', hw, ?_⟩
  change s'.afterWait new rsp s'.mcp = some t at h
  rw [hto, hpc] at h
  cases h
  have hcalls : s.sessionCalls ⊆ s'.sessionCalls := by
    rw [hq.calls]
    exact fun e he => he
  -- the return to the caller touches no session, and closes none
  have hreturn : ∀ code, (s'.closeSessionReturn caller code).trustletSessions =
      s.trustletSessions ∧ s.sessionCalls ⊆ (s'.closeSessionReturn caller code).sessionCalls ∧
        (v.sessionState ≠ .taDead → ¬ (s'.closeSessionReturn caller code).closing p) := by
    intro code
    obtain ⟨hr, hfree⟩ := closeSessionReturn_quiet s' caller code
    refine ⟨hr.sessions.trans hq.sessions, ?_, ?_⟩
    · rw [hr.calls]
      exact hcalls
    · rintro - ⟨caller', retry', hpc'⟩
      rw [hpc'] at hfree
      cases hfree
  show (_ → (s'.closeSessionAnswer caller p retry rsp).trustletSessions.get? p = none) ∧ _
  rw [← hq.sessions] at hv
  constructor
  · intro hok
    have hnotFailed : mcMcpRetOk ≠ makeMcDrvMcpError mcMcpRetErrCloseTaskFailed := by decide
    simp only [closeSessionAnswer, hv, hok, ne_eq, not_true_eq_false, decide_false, Bool.and_false,
      Bool.false_eq_true, if_false, hnotFailed, and_false]
    obtain ⟨hr, -⟩ := closeSessionReturn_quiet (s'.freeSession p v) caller mcMcpRetOk
    rw [hr.sessions, (freeSession_changes s' p v).sessions, PtrList.get?_remove, if_pos rfl]
  · intro hfail
    simp only [closeSessionAnswer, hv]
    split
    · refine ⟨hq.sessions, hcalls, ?_⟩
      rintro - ⟨caller', retry', hpc'⟩
      cases hpc'
    split
    · split
      · next hdead => exact ⟨hq.sessions, hcalls, fun hne => absurd hdead hne⟩
      · exact hreturn _
    · exact hreturn _

/-- Calls that announce no exit add none. -/
theorem exitReceived_of_touches {l : PtrList TrustletSession} {es : List Effect}
    (hc : Touches s t l es) (hes : ∀ e ∈ es, e.exitOf? = none) {p : Nat}
    (hexit : ExitReceived t p) : ExitReceived s p := by
  obtain ⟨e, he, hexitOf⟩ := hexit
  rw [hc.calls] at he
  refine ⟨e, (List.mem_append.mp he).resolve_left fun hnew => ?_, hexitOf⟩
  rw [hes e hnew] at hexitOf
  cases hexitOf

/-- Of one call, it is the call that announces the exit, or the exit is not new. -/
theorem exitReceived_of_call {l : PtrList TrustletSession} {e : Effect} (hc : Touches s t l [e])
    {p : Nat} (hexit : ExitReceived t p) : e.exitOf? = some p ∨ ExitReceived s p := by
  obtain ⟨e', he, hexitOf⟩ := hexit
  rw [hc.calls] at he
  rcases List.mem_append.mp he with hnew | hold
  · rw [List.mem_singleton.mp hnew] at hexitOf
    exact .inl hexitOf
  · exact .inr ⟨e', hold, hexitOf⟩

/-- A notification that goes to the queue of a session announces the exit of this session. -/
theorem exitReceived_of_queues {q : Nat} {v : TrustletSession} {m : Notification}
    (hq : s.queues a = some (q, v, m))
    (hc : Touches s t (s.trustletSessions.modify q fun v => v.queueNotification m)
      (if v.accepts m then [.queued q v.sessionId m] else [])) {p : Nat}
    (hexit : ExitReceived t p) :
    ExitReceived s p ∨ ∃ v n, s.queues a = some (p, v, n) ∧ n.payload ≠ 0 := by
  split at hc
  · rcases exitReceived_of_call hc hexit with hexitOf | hold
    · obtain ⟨rfl, hpay⟩ := Effect.exitOf?_queued hexitOf
      exact .inr ⟨v, m, hq, hpay⟩
    · exact .inl hold
  · exact .inl (exitReceived_of_touches hc (by simp) hexit)

/-- What a step adds to the announcements of an exit: a notification that is queued, or one that
the interrupt handler sends to the client. -/
theorem exitReceived_step (hi : DeathsRecorded s) (h : s.step a = some t) {p : Nat}
    (hexit : ExitReceived t p) : ExitReceived s p ∨
      (∃ v n, s.queues a = some (p, v, n) ∧ n.payload ≠ 0) ∨
      ∃ v n, a = .concurrent (.irq n) ∧ s.reaches n = some p ∧
        s.trustletSessions.get? p = some v ∧ v.notificationConnection ≠ none ∧
        n.payload ≠ 0 ∧ t.trustletSessions = s.trustletSessions := by
  by_cases hirq : ∃ m, a = .concurrent (.irq m)
  · obtain ⟨m, rfl⟩ := hirq
    simp only [step] at h
    split at h
    · cases h
    have hh := handleIrq_handles s m
    rw [Option.some.inj h] at hh
    cases hh with
    | mcp _ hq | parked _ _ hq => exact .inl (exitReceived_of_touches hq.touches (by simp) hexit)
    | queued hp hv hconn hc =>
      exact (exitReceived_of_queues (queues_of_reaches hp hv hconn) hc.touches hexit).imp_right .inl
    | forwarded hp hv hconn hc =>
      rcases exitReceived_of_call hc.touches hexit with hexitOf | hold
      · obtain ⟨rfl, hpay⟩ := Effect.exitOf?_forwarded hexitOf
        refine .inr (.inr ⟨_, m, rfl, hp, hv, ?_, hpay, hc.sessions⟩)
        rw [hconn]
        exact Option.some_ne_none _
      · exact .inl hold
  -- apart from interrupts, the drain of an open queues an exit, and a flush forwards one
  cases step_evolves h with
  | beside hq | moved hq | closing _ _ _ _ _ hq | retried _ hq | mapRejected _ _ _ hq
  | unmapping _ _ _ _ _ hq | reaping _ _ _ hq =>
    exact .inl (exitReceived_of_touches hq.touches (by simp) hexit)
  | disconnected _ _ _ _ _ hc | recorded _ _ _ _ _ hc =>
    exact .inl (exitReceived_of_touches hc.touches (by simp) hexit)
  | flushEnd hc => exact .inl (exitReceived_of_touches hc (by simp) hexit)
  | attached _ hc => exact .inl (exitReceived_of_touches hc (by simp) hexit)
  | mapped _ _ _ hc | unmapped _ hc | reaped _ _ _ _ hc =>
    refine .inl (exitReceived_of_touches hc.touches (fun e he => ?_) hexit)
    rw [List.mem_singleton.mp he]
    rfl
  | opened _ hc =>
    refine .inl (exitReceived_of_touches hc.touches (fun e he => ?_) hexit)
    split at he
    · rw [List.mem_singleton.mp he]
      rfl
    · cases he
  | drained hpc hn hv hc =>
    refine (exitReceived_of_queues ?_ hc.touches hexit).imp_right .inl
    simp [queues, hpc, hn, hv]
  | queued => exact absurd ⟨_, rfl⟩ hirq
  | forwarded => exact absurd ⟨_, rfl⟩ hirq
  | flushed _ hv hn _ hc =>
    rcases exitReceived_of_call hc.touches hexit with hexitOf | hold
    · -- what is taken off the queue was queued before
      obtain ⟨rfl, -⟩ := Effect.exitOf?_forwarded hexitOf
      exact .inl ⟨_, hi.queue _ _ _ hv (by rw [hn]; exact List.mem_cons_self), hexitOf⟩
    · exact .inl hold
  | freed _ _ hc =>
    refine .inl (exitReceived_of_touches hc.touches (fun e he => ?_) hexit)
    rcases List.mem_cons.mp he with rfl | he
    · rfl
    · obtain ⟨w, -, rfl⟩ := List.mem_map.mp (List.mem_reverse.mp he)
      rfl

end DeviceState

/-! ## Runs -/

namespace DeathsRecorded

variable {s t : DeviceState} {a : Action}

theorem step_queue (hi : DeathsRecorded s) (h : s.step a = some t) (p : Nat)
    (w : TrustletSession) (n : Notification) (hw : t.trustletSessions.get? p = some w)
    (hn : n ∈ w.notifications) : Effect.queued p w.sessionId n ∈ t.sessionCalls := by
  have hgrow : s.sessionCalls ⊆ t.sessionCalls := (DeviceState.sessionCalls_grow h).subset
  rcases DeviceState.session_evolves h hw with ⟨-, conn, ld, c, new, id, -, rfl⟩ | ⟨v, hv, he⟩
  · rw [(newSession_spec conn ld c new id).2.2] at hn
    cases hn
  · cases he with
    | same => exact hgrow (hi.queue p w n hv hn)
    | attached | disconnected | buffers => exact hgrow (hi.queue p v n hv hn)
    | flushed hm => exact hgrow (hi.queue p v n hv (by rw [hm]; exact List.mem_cons_of_mem _ hn))
    | @queued m hq =>
      obtain ⟨-, hc⟩ := DeviceState.queued_step h hq
      change n ∈ (if v.accepts m then v.notifications ++ [m] else v.notifications) at hn
      show Effect.queued p v.sessionId n ∈ _
      split at hn
      · next haccepts =>
        rcases List.mem_append.mp hn with hold | hnew
        · exact hgrow (hi.queue p v n hv hold)
        · rw [List.mem_singleton.mp hnew, hc.calls, if_pos haccepts]
          exact List.mem_append_left _ (List.mem_singleton_self _)
      · exact hgrow (hi.queue p v n hv hn)

theorem step_noOrphan (hi : DeathsRecorded s) (h : s.step a = some t) (hr : RecordsExit s a) :
    NoOrphan t := by
  intro p w hw hgp hdetached hexit hnot
  have hclosing : ∀ caller retry, t.mcp ≠ .closeWait caller p retry :=
    fun caller retry hto => hnot ⟨caller, retry, hto⟩
  rcases DeviceState.session_evolves h hw with ⟨-, conn, ld, c, new, id, -, rfl⟩ | ⟨v, hv, he⟩
  · rw [(newSession_spec conn ld c new id).2.1] at hdetached
    cases hdetached
  rw [he.gpLevel] at hgp
  rw [he.owner_eq hclosing] at hdetached
  rcases DeviceState.exitReceived_step hi h hexit with
    hold | ⟨v', n, hq, hpay⟩ | ⟨v', n, rfl, hp, hv', hconn, hpay, hs⟩
  · by_cases hdead : v.sessionState = .taDead
    · exact he.dead_of_dead hclosing hdead
    by_cases hsclosing : s.closing p
    · -- the exchange of the close ends here, and only a success would have been in time
      have hwake : ∃ wk new, a = .wake wk new := by
        by_contra hne
        push Not at hne
        exact hnot (DeviceState.closing_of_step h hne hsclosing)
      obtain ⟨wk, new, rfl⟩ := hwake
      obtain ⟨rsp, s', hwait, hok, -⟩ := DeviceState.wake_of_closing h hsclosing hv
      have hres := hr p v hsclosing hv hgp hdetached hdead hold rsp s' hwait
      rw [hok hres] at hw
      cases hw
    · exact absurd (hi.noOrphan p v hv hgp hdetached hold hsclosing) hdead
  · -- queued now, and accepted as an exit
    obtain ⟨hv', hc⟩ := DeviceState.queued_step h hq
    obtain rfl : v = v' := Option.some.inj (hv.symm.trans hv')
    rw [hc.sessions, PtrList.get?_modify, if_pos rfl, hv] at hw
    rw [← Option.some.inj hw]
    have hexits : v.exits n = true := by simp [TrustletSession.exits, hgp, hpay]
    show v.stateAfter n = .taDead
    rw [TrustletSession.stateAfter, if_pos hexits, ite_self]
  · -- sent to a client that attached after the close
    obtain rfl : v = v' := Option.some.inj (hv.symm.trans hv')
    rw [hs, hv] at hw
    obtain rfl : v = w := Option.some.inj hw
    by_contra hdead
    have hexits : v.exits n = true := by simp [TrustletSession.exits, hgp, hpay]
    rcases hr p v hp hv hexits hdetached hdead with hnone | hsclosing
    · exact hconn hnone
    · exact hnot (DeviceState.closing_of_step h (fun _ _ heq => by cases heq) hsclosing)

theorem step (hi : DeathsRecorded s) (h : s.step a = some t) (hr : RecordsExit s a) :
    DeathsRecorded t where
  noOrphan := hi.step_noOrphan h hr
  queue := hi.step_queue h

end DeathsRecorded

end McDaemon.Device
