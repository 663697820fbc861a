/-
# McDaemon.Device.Reclaim — whom the clean-up of dead sessions takes a session from.

The TA-exit handler is woken up for a session whose client is gone, but it looks for any session
that is marked dead.  A session is marked dead by an exit notification that is queued for it, also
while its client has not attached a notification socket yet and is still there.  As long as no
exit notification is queued for a session with a client, the clean-up leaves every client its
sessions.
-/
import McDaemon.Device.Lifecycle

namespace McDaemon.Device

open McDaemon.Lib

/-! ## Sparing the attached -/

/-- The TA-exit handler does not turn to a session that has a client, and nobody but that client
takes it off the list. -/
def SparesAttached (s : DeviceState) (a : Action) : Prop :=
  ∀ t p v conn, s.step a = some t → s.trustletSessions.get? p = some v →
    v.deviceConnection = some conn →
      t.mcp ≠ .taExitWait p ∧ (t.trustletSessions.get? p = none → s.actor a = some conn)

/-- An exit notification is queued for a GP session only when its client is gone. -/
def MarksDetached (s : DeviceState) (a : Action) : Prop :=
  ∀ p v n, s.queues a = some (p, v, n) → v.exits n = true → v.deviceConnection = none

instance (s : DeviceState) (a : Action) : Decidable (MarksDetached s a) :=
  match h : s.queues a with
  | none => isTrue fun p v n hq => by
    rw [h] at hq
    cases hq
  | some (p, v, n) =>
    decidable_of_iff (v.exits n = true → v.deviceConnection = none) ⟨fun himp p' v' n' hq => by
      rw [h] at hq
      cases hq
      exact himp, fun hm => hm p v n h⟩

/-- The dead have no client, the TA-exit handler is at a session without one, and a close at a
session that belongs to nobody else. -/
structure Reclaimable (s : DeviceState) : Prop where
  dead : ∀ p v, s.trustletSessions.get? p = some v → v.sessionState = .taDead →
    v.deviceConnection = none
  reaping : ∀ p v, s.mcp = .taExitWait p → s.trustletSessions.get? p = some v →
    v.deviceConnection = none
  closing : ∀ caller p retry v, s.mcp = .closeWait caller p retry →
    s.trustletSessions.get? p = some v →
      v.deviceConnection = none ∨ v.deviceConnection = some caller.conn

/-! ## Steps and runs -/

namespace DeviceState

/-- The TA-exit handler turns to dead sessions. -/
theorem reaping_step {s t : DeviceState} {a : Action} {p : Nat} (h : s.step a = some t)
    (ht : t.mcp = .taExitWait p) : s.mcp = .taExitWait p ∨
      ∃ v, s.trustletSessions.get? p = some v ∧ v.sessionState = .taDead := by
  cases step_evolves h with
  | beside _ hto => exact .inl (hto ▸ ht)
  | drained _ _ _ _ hto | queued _ _ _ _ hto | forwarded _ _ _ _ hto | flushed _ _ _ _ _ hto
  | flushEnd _ _ hto | attached _ _ _ hto => exact .inl (hto ▸ ht)
  | moved _ _ hto | freed _ _ _ hto =>
    rw [ht] at hto
    cases hto
  | opened _ _ hto =>
    obtain ⟨_, _, hto⟩ := hto
    cases hto.symm.trans ht
  | disconnected _ _ _ _ _ _ hto | closing _ _ _ _ _ _ hto | retried _ _ hto
  | recorded _ _ _ _ _ _ hto | mapped _ _ _ _ hto | mapRejected _ _ _ _ hto
  | unmapping _ _ _ _ _ _ hto | unmapped _ _ hto | reaped _ _ _ _ _ hto =>
    cases hto.symm.trans ht
  | reaping hv hdead _ _ hto =>
    cases hto.symm.trans ht
    exact .inr ⟨_, hv, hdead⟩

/-- A close turns to the sessions of its caller. -/
theorem closing_step {s t : DeviceState} {a : Action} {caller : CloseCaller} {p : Nat}
    {retry : Bool} (h : s.step a = some t) (ht : t.mcp = .closeWait caller p retry) :
    (∃ r, s.mcp = .closeWait caller p r) ∨
      ∃ v, s.trustletSessions.get? p = some v ∧ v.deviceConnection = some caller.conn := by
  cases step_evolves h with
  | beside _ hto => exact .inl ⟨_, hto ▸ ht⟩
  | drained _ _ _ _ hto | queued _ _ _ _ hto | forwarded _ _ _ _ hto | flushed _ _ _ _ _ hto
  | flushEnd _ _ hto | attached _ _ _ hto => exact .inl ⟨_, hto ▸ ht⟩
  | moved _ _ hto | freed _ _ _ hto =>
    rw [ht] at hto
    cases hto
  | opened _ _ hto =>
    obtain ⟨_, _, hto⟩ := hto
    cases hto.symm.trans ht
  | retried hpc _ hto =>
    cases hto.symm.trans ht
    exact .inl ⟨_, hpc⟩
  | disconnected hv howner _ _ _ _ hto | closing hv howner _ _ _ _ hto =>
    cases hto.symm.trans ht
    exact .inr ⟨_, hv, howner⟩
  | recorded _ _ _ _ _ _ hto | mapped _ _ _ _ hto | mapRejected _ _ _ _ hto
  | unmapping _ _ _ _ _ _ hto | unmapped _ _ hto | reaping _ _ _ _ hto
  | reaped _ _ _ _ _ hto =>
    cases hto.symm.trans ht

/-- A session leaves the list by a close or by the clean-up. -/
theorem removed_step {s t : DeviceState} {a : Action} {p : Nat} {v : TrustletSession}
    (h : s.step a = some t) (hv : s.trustletSessions.get? p = some v)
    (ht : t.trustletSessions.get? p = none) :
    (∃ caller retry, s.mcp = .closeWait caller p retry ∧ s.actor a = some caller.conn) ∨
      s.mcp = .taExitWait p := by
  have hsame : t.trustletSessions = s.trustletSessions → False := by
    intro hs
    rw [hs, hv] at ht
    cases ht
  have hwrite : ∀ {q f}, t.trustletSessions = s.trustletSessions.modify q f → False := by
    intro q f hs
    rw [hs, PtrList.get?_modify, hv] at ht
    split at ht <;> cases ht
  have hremove : ∀ {q}, t.trustletSessions = s.trustletSessions.remove q → p = q := by
    intro q hs
    rw [hs, PtrList.get?_remove] at ht
    split at ht
    · assumption
    · rw [hv] at ht
      cases ht
  cases step_evolves h with
  | beside hq | moved hq | closing _ _ _ _ _ hq | retried _ hq | mapRejected _ _ _ hq
  | unmapping _ _ _ _ _ hq | reaping _ _ _ hq => exact (hsame hq.sessions).elim
  | forwarded _ _ _ hc | mapped _ _ _ hc => exact (hsame hc.sessions).elim
  | flushEnd hc => exact (hsame hc.sessions).elim
  | opened _ hc =>
    rw [hc.sessions, PtrList.get?_push] at ht
    split at ht
    · cases ht
    · rw [hv] at ht
      cases ht
  | drained _ _ _ hc | queued _ _ _ hc | flushed _ _ _ _ hc | disconnected _ _ _ _ _ hc
  | recorded _ _ _ _ _ hc | unmapped _ hc => exact (hwrite hc.sessions).elim
  | attached _ hc => exact (hwrite hc.sessions).elim
  | freed hpc _ hc =>
    obtain rfl := hremove hc.sessions
    refine .inl ⟨_, _, hpc, ?_⟩
    rw [actor, hpc]
    rfl
  | reaped hpc _ _ _ hc =>
    obtain rfl := hremove hc.sessions
    exact .inr hpc

end DeviceState

namespace Reclaimable

variable {s t : DeviceState} {a : Action}

/-- A session that is there after a step and has no client had none before, or loses it now. -/
theorem detached_of_step (h : s.step a = some t) {p : Nat} {v w : TrustletSession}
    (hv : s.trustletSessions.get? p = some v) (hdetached : v.deviceConnection = none)
    (hw : t.trustletSessions.get? p = some w) : w.deviceConnection = none := by
  rcases DeviceState.session_evolves h hw with ⟨hfresh, -⟩ | ⟨v', hv', he⟩
  · rw [hfresh, PtrList.get?_fresh] at hv
    cases hv
  · obtain rfl : v = v' := Option.some.inj (hv.symm.trans hv')
    rcases he.owner with howner | hnone
    · rw [howner, hdetached]
    · exact hnone

theorem step (hi : Reclaimable s) (h : s.step a = some t) (hm : MarksDetached s a) :
    Reclaimable t := by
  constructor
  · intro p w hw hdead
    rcases DeviceState.session_evolves h hw with ⟨-, conn, ld, c, new, id, -, rfl⟩ | ⟨v, hv, he⟩
    · rw [(newSession_spec conn ld c new id).1] at hdead
      cases hdead
    · rcases he.dead hdead with hdead | ⟨n, hqueues, hexits⟩
      · exact detached_of_step h hv (hi.dead p v hv hdead) hw
      · exact detached_of_step h hv (hm p v n hqueues hexits) hw
  · intro p w ht hw
    rcases DeviceState.reaping_step h ht with hpc | ⟨v, hv, hdead⟩
    · rcases DeviceState.session_evolves h hw with ⟨-, conn, ld, c, new, id, hopen, -⟩ | ⟨v, hv, -⟩
      · cases hpc.symm.trans hopen
      · exact detached_of_step h hv (hi.reaping p v hpc hv) hw
    · exact detached_of_step h hv (hi.dead p v hv hdead) hw
  · intro caller p retry w ht hw
    -- the session was the caller's, or nobody's, and can only have lost its client since
    have hkeep : ∀ v, s.trustletSessions.get? p = some v →
        v.deviceConnection = none ∨ v.deviceConnection = some caller.conn →
          w.deviceConnection = none ∨ w.deviceConnection = some caller.conn := by
      intro v hv howner
      rcases DeviceState.session_evolves h hw with ⟨hfresh, -⟩ | ⟨v', hv', he⟩
      · rw [hfresh, PtrList.get?_fresh] at hv
        cases hv
      · obtain rfl : v = v' := Option.some.inj (hv.symm.trans hv')
        rcases he.owner with hsame | hnone
        · rw [hsame]
          exact howner
        · exact .inl hnone
    rcases DeviceState.closing_step h ht with ⟨r, hpc⟩ | ⟨v, hv, howner⟩
    · rcases DeviceState.session_evolves h hw with ⟨-, conn, ld, c, new, id, hopen, -⟩ | ⟨v, hv, -⟩
      · cases hpc.symm.trans hopen
      · exact hkeep v hv (hi.closing caller p r v hpc hv)
    · exact hkeep v hv (.inr howner)

theorem sparesAttached (hi : Reclaimable s) (a : Action) : SparesAttached s a := by
  intro t p v conn h hv howner
  constructor
  · intro ht
    have hnone : v.deviceConnection = none := by
      rcases DeviceState.reaping_step h ht with hpc | ⟨v', hv', hdead⟩
      · exact hi.reaping p v hpc hv
      · obtain rfl : v = v' := Option.some.inj (hv.symm.trans hv')
        exact hi.dead p v hv hdead
    rw [hnone] at howner
    cases howner
  · intro hgone
    rcases DeviceState.removed_step h hv hgone with ⟨caller, retry, hpc, hactor⟩ | hpc
    · rcases hi.closing caller p retry v hpc hv with hnone | hcaller
      · rw [hnone] at howner
        cases howner
      · obtain rfl : caller.conn = conn := Option.some.inj (hcaller.symm.trans howner)
        exact hactor
    · have hnone := hi.reaping p v hpc hv
      rw [hnone] at howner
      cases howner

end Reclaimable

theorem started_reclaimable (mciReused : Bool) : Reclaimable (DeviceState.started mciReused) where
  dead := fun p v hv => by cases hv
  reaping := fun p v _ hv => by cases hv
  closing := fun caller p retry v _ hv => by cases hv

/-- **No reclaim of an attached client.** In every run in which no exit notification is queued for
a GP session that still has a client, the TA-exit handler turns only to sessions whose client is
gone, and a session with a client is taken off the list on that client's behalf only. -/
theorem sparesAttached_of_marksDetached {mciReused : Bool} {as : List Action}
    (hm : machine.RunMeets MarksDetached (DeviceState.started mciReused) as) :
    machine.RunMeets SparesAttached (DeviceState.started mciReused) as :=
  machine.runMeets_of_inv (I := Reclaimable) (fun _ _ _ hi hm h => hi.step h hm)
    (fun _ a hi _ => hi.sparesAttached a) (started_reclaimable mciReused) hm

theorem sparesAttached_reclaim :
    machine.RunMeets SparesAttached (DeviceState.started false) reclaimRun := by
  apply sparesAttached_of_marksDetached
  decide

/-- The task of client 1 ends before client 1 has attached its notification socket; then session 6
of client 2 is cleaned up. -/
def attachedRun : List Action :=
  openGp 1 5 0x1000 ++ openGp 2 6 0x2000 ++ .concurrent (.irq ⟨5, 1⟩) ::
    .command 2 (.closeSession 6) :: closeExchange mcMcpRetErrCloseTaskFailed ++
    [.concurrent (.irq ⟨6, 1⟩), .taExit]

/-- The TA-exit handler turns to the session of client 1, which is still there, and deletes it. -/
theorem sparesAttached_attached :
    (∃ s t, machine.run (DeviceState.started false) attachedRun = some s ∧
      (s.trustletSessions.get? 0).map TrustletSession.deviceConnection = some (some 1) ∧
      machine.run s (.round :: closeExchange mcMcpRetOk) = some t ∧
      t.trustletSessions.get? 0 = none) ∧
    ¬ machine.RunMeets SparesAttached (DeviceState.started false) (attachedRun ++ [.round]) := by
  have hrun : machine.run (DeviceState.started false) attachedRun = some _ := rfl
  refine ⟨⟨_, _, hrun, rfl, rfl, rfl⟩, fun h => ?_⟩
  have hround := (h.of_append hrun).1
  exact (hround _ 0 _ 1 rfl rfl rfl).1 rfl

end McDaemon.Device
