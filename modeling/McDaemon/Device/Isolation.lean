/-
# McDaemon.Device.Isolation — which session a notification of the secure world reaches.

The interrupt handler finds the session by the id in the notification, so what it queues or
forwards is addressed correctly.  A notification for an unknown id is parked in one queue of the
device, and the next open drains that queue into the session it creates without looking at the
id.  The runs in which no notification reaches a session it does not name are exactly the runs in
which the drain meets none that the new session takes and that carries another id.
-/
import McDaemon.Device.Evolution

namespace McDaemon.Device

open McDaemon.Lib

/-! ## Isolation -/

/-- A notification is handed only to a session that it names. -/
def Effect.Addressed : Effect → Prop
  | .queued _ sessionId n => n.sessionId = sessionId
  | .forwarded _ sessionId _ n => n.sessionId = sessionId
  | _ => True

/-- The session holds only notifications that name it, and was marked dead by one of them. -/
structure SessionIsolated (calls : List Effect) (p : Nat) (v : TrustletSession) : Prop where
  queue : ∀ n ∈ v.notifications, n.sessionId = v.sessionId
  dead : v.sessionState = .taDead → ∃ n, Effect.queued p v.sessionId n ∈ calls ∧ n.payload ≠ 0

/-- Isolation of a session list with the calls made so far. -/
structure Isolated (l : PtrList TrustletSession) (calls : List Effect) : Prop where
  sessions : ∀ p v, l.get? p = some v → SessionIsolated calls p v
  calls : ∀ e ∈ calls, e.Addressed

/-- Every notification that sits in a session's queue, was queued for a session or was forwarded
through one carries the id of that session, and a session is marked dead by such a notification
only. -/
def NotificationIsolation (s : DeviceState) : Prop := Isolated s.trustletSessions s.sessionCalls

/-- The round of `openSession`'s drain hands on a notification that names the new session, or one
that the session does not take. -/
def DrainsOwn (s : DeviceState) : Action → Prop
  | .round =>
    match s.mcp, s.notifications with
    | .openDrain _ p _ _, n :: _ =>
      match s.trustletSessions.get? p with
      | some v => v.accepts n = true → n.sessionId = v.sessionId
      | none => True
    | _, _ => True
  | _ => True

/-! ## Isolation under the operations on sessions -/

theorem SessionIsolated.mono {calls es : List Effect} {p : Nat} {v : TrustletSession}
    (h : SessionIsolated calls p v) : SessionIsolated (es ++ calls) p v := by
  refine ⟨h.queue, fun hdead => ?_⟩
  obtain ⟨n, hn, hpay⟩ := h.dead hdead
  exact ⟨n, List.mem_append_right _ hn, hpay⟩

/-- An exit notification is never dropped by a session that is not dead yet. -/
theorem TrustletSession.accepts_of_dead {v : TrustletSession} {n : Notification}
    (h : v.stateAfter n = .taDead) (hv : v.sessionState ≠ .taDead) :
    v.accepts n = true ∧ n.payload ≠ 0 := by
  have hexits : v.exits n = true := by
    by_contra hex
    simp only [stateAfter, if_neg hv, if_neg hex] at h
    exact hv h
  refine ⟨by simp [accepts, hv, h], ?_⟩
  simp only [exits, Bool.and_eq_true, bne_iff_ne] at hexits
  exact hexits.2

theorem SessionIsolated.queueNotification {calls : List Effect} {p : Nat} {v : TrustletSession}
    {n : Notification} (h : SessionIsolated calls p v)
    (hn : v.accepts n = true →
      n.sessionId = v.sessionId ∧ Effect.queued p v.sessionId n ∈ calls) :
    SessionIsolated calls p (v.queueNotification n) := by
  constructor
  · intro m hm
    simp only [TrustletSession.queueNotification] at hm ⊢
    split at hm
    · rename_i hacc
      rcases List.mem_append.mp hm with hm | hm
      · exact h.queue m hm
      · rw [List.mem_singleton.mp hm]
        exact (hn hacc).1
    · exact h.queue m hm
  · intro hdead
    by_cases hv : v.sessionState = .taDead
    · exact h.dead hv
    · obtain ⟨hacc, hpay⟩ := TrustletSession.accepts_of_dead hdead hv
      exact ⟨n, (hn hacc).2, hpay⟩

namespace Isolated

variable {l : PtrList TrustletSession} {calls : List Effect}

theorem calls_append (h : Isolated l calls) {es : List Effect} (hes : ∀ e ∈ es, e.Addressed) :
    Isolated l (es ++ calls) where
  sessions := fun p v hv => (h.sessions p v hv).mono
  calls := fun e he => (List.mem_append.mp he).elim (hes e) (h.calls e)

theorem modify (h : Isolated l calls) (p : Nat) (f : TrustletSession → TrustletSession)
    (hf : ∀ v, l.get? p = some v → SessionIsolated calls p (f v)) :
    Isolated (l.modify p f) calls where
  sessions := by
    intro q w hq
    rw [PtrList.get?_modify] at hq
    split at hq
    · rename_i heq
      subst heq
      obtain ⟨v, hv, rfl⟩ := Option.map_eq_some_iff.mp hq
      exact hf v hv
    · exact h.sessions q w hq
  calls := h.calls

theorem push (h : Isolated l calls) {v : TrustletSession} (hv : SessionIsolated calls l.fresh v) :
    Isolated (l.push v) calls where
  sessions := by
    intro q w hq
    rw [PtrList.get?_push] at hq
    split at hq
    · rename_i heq
      cases hq
      exact heq ▸ hv
    · exact h.sessions q w hq
  calls := h.calls

theorem remove (h : Isolated l calls) (p : Nat) : Isolated (l.remove p) calls where
  sessions := by
    intro q w hq
    rw [PtrList.get?_remove] at hq
    split at hq
    · cases hq
    · exact h.sessions q w hq
  calls := h.calls

/-- Queueing a notification that names the session, if the session takes it at all. -/
theorem queueNotification (h : Isolated l calls) {p : Nat} {v : TrustletSession}
    {n : Notification} (hp : l.get? p = some v)
    (hn : v.accepts n = true → n.sessionId = v.sessionId) :
    Isolated (l.modify p fun v => v.queueNotification n)
      ((if v.accepts n then [.queued p v.sessionId n] else []) ++ calls) := by
  have hcalls : Isolated l ((if v.accepts n then [.queued p v.sessionId n] else []) ++ calls) := by
    refine h.calls_append fun e he => ?_
    split at he
    · rename_i hacc
      rw [List.mem_singleton.mp he]
      exact hn hacc
    · cases he
  refine hcalls.modify p _ fun w hw => ?_
  obtain rfl : v = w := Option.some.inj (hp.symm.trans hw)
  refine (hcalls.sessions p v hp).queueNotification fun hacc => ⟨hn hacc, ?_⟩
  simp [hacc]

end Isolated

/-! ## Steps and runs -/

/-- The session an open creates has nothing queued and runs. -/
theorem newSession_isolated (calls : List Effect) (p : Nat) (conn : Conn) (ld : LoadData)
    (c : OpenCommand) (new : NewSession) (sessionId : UInt32) :
    SessionIsolated calls p (newSession conn ld c new sessionId) := by
  unfold newSession
  dsimp only
  split
  · exact ⟨by simp [TrustletSession.new], by simp [TrustletSession.new]⟩
  · exact ⟨by simp [TrustletSession.new], by simp [TrustletSession.new]⟩

theorem Evolves.isolation {s t : DeviceState} {a : Action} (h : Evolves s a t)
    (hi : NotificationIsolation s) (hd : DrainsOwn s a) : NotificationIsolation t := by
  -- a step that leaves the list alone and makes correctly addressed calls
  have hsame : ∀ {es}, Touches s t s.trustletSessions es → (∀ e ∈ es, e.Addressed) →
      NotificationIsolation t := by
    intro es hc hes
    rw [NotificationIsolation, hc.sessions, hc.calls]
    exact hi.calls_append hes
  -- a step that writes one session, leaving it isolated, and makes correctly addressed calls
  have hwrite : ∀ {p f es}, Touches s t (s.trustletSessions.modify p f) es →
      (∀ e ∈ es, e.Addressed) →
      (∀ v, SessionIsolated s.sessionCalls p v → SessionIsolated s.sessionCalls p (f v)) →
      NotificationIsolation t := by
    intro p f es hc hes hf
    rw [NotificationIsolation, hc.sessions, hc.calls]
    exact (hi.modify p f fun v hv => hf v (hi.sessions p v hv)).calls_append hes
  cases h with
  | beside hq | moved hq | closing _ _ _ _ _ hq | retried _ hq | mapRejected _ _ _ hq
  | unmapping _ _ _ _ _ hq | reaping _ _ _ hq => exact hsame hq.touches (by simp)
  | flushEnd hc => exact hsame hc (by simp)
  | opened _ hc =>
    rw [NotificationIsolation, hc.sessions, hc.calls]
    refine (hi.push (newSession_isolated ..)).calls_append fun e he => ?_
    split at he
    · rw [List.mem_singleton.mp he]
      trivial
    · cases he
  | drained hpc hn hp hc =>
    rw [NotificationIsolation, hc.sessions, hc.calls]
    refine hi.queueNotification hp ?_
    simpa only [DrainsOwn, hpc, hn, hp] using hd
  | queued hp hid _ hc =>
    rw [NotificationIsolation, hc.sessions, hc.calls]
    exact hi.queueNotification hp fun _ => hid
  | forwarded _ hid _ hc => exact hsame hc.touches (by simpa [Effect.Addressed] using hid)
  | @flushed _ f v n ns conn _ hp hn _ hc =>
    rw [NotificationIsolation, hc.sessions, hc.calls]
    have hv := hi.sessions _ _ hp
    refine Isolated.calls_append (hi.modify _ _ fun w hw => ?_) ?_
    · obtain rfl : v = w := Option.some.inj (hp.symm.trans hw)
      exact ⟨fun m hm => hv.queue m (by rw [hn]; exact List.mem_cons_of_mem _ hm), hv.dead⟩
    · simpa [Effect.Addressed] using hv.queue n (by rw [hn]; exact List.mem_cons_self)
  | attached _ hc => exact hwrite hc (by simp) fun v hv => ⟨hv.queue, hv.dead⟩
  | disconnected _ _ _ _ _ hc =>
    exact hwrite hc.touches (by simp) fun v hv => ⟨hv.queue, fun hdead => by cases hdead⟩
  | freed _ _ hc =>
    rw [NotificationIsolation, hc.sessions, hc.calls]
    refine (hi.remove _).calls_append fun e he => ?_
    rcases List.mem_cons.mp he with rfl | he
    · trivial
    · obtain ⟨w, -, rfl⟩ := List.mem_map.mp (List.mem_reverse.mp he)
      trivial
  | recorded _ _ _ _ _ hc =>
    exact hwrite hc.touches (by simp) fun v hv => ⟨hv.queue, hv.dead⟩
  | mapped _ _ _ hc => exact hsame hc.touches (by simp [Effect.Addressed])
  | unmapped _ hc =>
    exact hwrite hc.touches (by simp [Effect.Addressed]) fun v hv => ⟨hv.queue, hv.dead⟩
  | reaped _ _ _ _ hc =>
    rw [NotificationIsolation, hc.sessions, hc.calls]
    exact (hi.remove _).calls_append (by simp [Effect.Addressed])

theorem started_isolation (mciReused : Bool) :
    NotificationIsolation (DeviceState.started mciReused) where
  sessions := fun p v hv => by cases hv
  calls := fun e he => by cases he

/-- Calls once made stay on record. -/
theorem Evolves.sessionCalls_suffix {s t : DeviceState} {a : Action} (h : Evolves s a t) :
    s.sessionCalls <:+ t.sessionCalls := by
  have hc : ∀ {l es}, Touches s t l es → s.sessionCalls <:+ t.sessionCalls :=
    fun hc => ⟨_, hc.calls.symm⟩
  cases h with
  | beside hq | moved hq | closing _ _ _ _ _ hq | retried _ hq | mapRejected _ _ _ hq
  | unmapping _ _ _ _ _ hq | reaping _ _ _ hq => exact hc hq.touches
  | opened _ h | drained _ _ _ h | queued _ _ _ h | forwarded _ _ _ h | flushed _ _ _ _ h
  | disconnected _ _ _ _ _ h | freed _ _ h | recorded _ _ _ _ _ h | mapped _ _ _ h
  | unmapped _ h | reaped _ _ _ _ h => exact hc h.touches
  | flushEnd h | attached _ h => exact hc h

/-- A drain that hands on a foreign notification puts it on record. -/
theorem drain_breaks_isolation {s t : DeviceState} {a : Action} (h : s.step a = some t)
    (hd : ¬ DrainsOwn s a) : ∃ e ∈ t.sessionCalls, ¬ e.Addressed := by
  cases a with
  | round =>
    change s.nextRound s.mcp = some t at h
    cases hpc : s.mcp with
    | openDrain conn p rsp u =>
      cases hn : s.notifications with
      | nil => simp [DrainsOwn, hpc, hn] at hd
      | cons n ns =>
        cases hv : s.trustletSessions.get? p with
        | none => simp [DrainsOwn, hpc, hn, hv] at hd
        | some v =>
          simp only [DrainsOwn, hpc, hn, hv, Classical.not_imp] at hd
          obtain ⟨hacc, hid⟩ := hd
          rw [hpc] at h
          cases h
          refine ⟨.queued p v.sessionId n, ?_, hid⟩
          simp [DeviceState.openSessionDrain, hn, DeviceState.queueNotification, hv, hacc,
            DeviceState.mem_sessionCalls, Effect.aboutSession]
    | _ => simp [DrainsOwn, hpc] at hd
  | _ => exact absurd trivial hd

/-- **Notification isolation.** A run keeps it up to its last state exactly when no round of an
open's drain gives the new session a notification that names another. -/
theorem notificationIsolation_iff_drainsOwn {mciReused : Bool} {as : List Action}
    {t : DeviceState} (h : machine.run (DeviceState.started mciReused) as = some t) :
    NotificationIsolation t ↔ machine.RunMeets DrainsOwn (DeviceState.started mciReused) as := by
  constructor
  · intro hi
    refine machine.runMeets_of_not_bad (B := fun u => ∃ e ∈ u.sessionCalls, ¬ e.Addressed)
      (fun _ _ _ hs hd => drain_breaks_isolation hs hd) ?_ h ?_
    · rintro u a u' hs ⟨e, he, hne⟩
      exact ⟨e, (DeviceState.step_evolves hs).sessionCalls_suffix.subset he, hne⟩
    · rintro ⟨e, he, hne⟩
      exact hne (hi.calls e he)
  · intro hd
    exact machine.inv_of_run (fun _ _ _ hi hd hs => (DeviceState.step_evolves hs).isolation hi hd)
      (started_isolation mciReused) hd h

/-- Client 1 opens a GP session.  While the secure world works on it, an exit notification for
session 9 arrives, which the daemon does not know; the open is then answered with session 5, and
client 2 attaches to that. -/
def misdeliveredRun : List Action :=
  [.command 1 (.openDevice 0),
   .command 1 (.openSession ⟨some ⟨100, 1⟩, 0, 0, 0, {}⟩),
   .concurrent (.irq ⟨9, 1⟩),
   .concurrent (.irq ⟨sidMcp, 0⟩),
   .wake (.notified ⟨mcMcpCmdOpenSession ||| flagResponse, mcMcpRetOk, 5, 0⟩) ⟨0x1000, 77⟩,
   .round,
   .round,
   .concurrent (.nqConnect 2 ⟨0, 5, 0x1000, 77⟩),
   .concurrent .nqFlush,
   .concurrent .nqFlush]

/-- The exit of session 9 marks session 5 dead and is forwarded to the client of session 5. -/
theorem notificationIsolation_misdelivered :
    ∃ t, machine.run (DeviceState.started false) misdeliveredRun = some t ∧
      (t.trustletSessions.get? 0).map (fun v => (v.sessionId, v.sessionState)) =
        some (5, .taDead) ∧
      Effect.forwarded 0 5 2 ⟨9, 1⟩ ∈ t.effects ∧ ¬ NotificationIsolation t := by
  refine ⟨_, rfl, by decide, by decide, fun hi => ?_⟩
  have haddressed := hi.calls (.forwarded 0 5 2 ⟨9, 1⟩) (by decide)
  exact absurd haddressed (by decide : ¬ (9 : UInt32) = 5)

/-- A run whose opens drain only what belongs to them. -/
def deliveredRun : List Action :=
  [.command 1 (.openDevice 0),
   .command 1 (.openSession ⟨some ⟨100, 1⟩, 0, 0, 0, {}⟩),
   .concurrent (.irq ⟨5, 0⟩),
   .concurrent (.irq ⟨sidMcp, 0⟩),
   .wake (.notified ⟨mcMcpCmdOpenSession ||| flagResponse, mcMcpRetOk, 5, 0⟩) ⟨0x1000, 77⟩,
   .round]

theorem notificationIsolation_delivered :
    ∃ t, machine.run (DeviceState.started false) deliveredRun = some t ∧
      NotificationIsolation t := by
  have hrun : machine.run (DeviceState.started false) deliveredRun = some _ := rfl
  refine ⟨_, hrun, (notificationIsolation_iff_drainsOwn hrun).mpr ?_⟩
  exact ⟨trivial, trivial, trivial, trivial, trivial, fun _ => rfl, trivial⟩

end McDaemon.Device
