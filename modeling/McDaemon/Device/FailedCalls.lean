/-
# McDaemon.Device.FailedCalls — what is left of an open that fails.

A call is its sections with the steps that others take while it waits for the secure world; those
touch neither a lock nor the list of the sessions, nor anybody's buffers.  An open locks its TCI
before it has compared the lengths.
-/
import Mathlib.Algebra.Ring.Int.Defs
import McDaemon.Device.Evolution

namespace McDaemon.Device

open McDaemon.Lib

/-! ## Locks -/

/-- What a call of the kernel module does to the lock count of a handle. -/
def Effect.locks (h : UInt32) : Effect → Int
  | .lockWsm k => if k = h then 1 else 0
  | .unlockWsm k _ => if k = h then -1 else 0
  | _ => 0

namespace DeviceState

/-- The locks on a handle that have been taken and not released. -/
def outstanding (s : DeviceState) (h : UInt32) : Int := (s.effects.map (Effect.locks h)).sum

/-- `trustletSessions`, which is a list of pointers. -/
def sessionList (s : DeviceState) : List Nat := s.trustletSessions.entries.map Prod.fst

/-- The buffer map of a session. -/
def buffersOf (s : DeviceState) (p : Nat) : Option BulkBuffs :=
  (s.trustletSessions.get? p).map TrustletSession.buffers

theorem outstanding_emit (s : DeviceState) (e : Effect) (h : UInt32) :
    (s.emit e).outstanding h = e.locks h + s.outstanding h := rfl

theorem outstanding_lockWsm (s : DeviceState) (h : UInt32) :
    (s.emit (.lockWsm h)).outstanding h = 1 + s.outstanding h := by
  rw [outstanding_emit]
  simp [Effect.locks]

theorem buffersOf_modify (s : DeviceState) (p q : Nat) (f : TrustletSession → TrustletSession)
    (hf : ∀ v, (f v).buffers = v.buffers) : (s.modify p f).buffersOf q = s.buffersOf q := by
  show ((s.trustletSessions.modify p f).get? q).map _ = (s.trustletSessions.get? q).map _
  rw [PtrList.get?_modify]
  split_ifs
  · rw [Option.map_map]
    exact Option.map_congr fun v _ => hf v
  · rfl

theorem sessionList_modify (s : DeviceState) (p : Nat) (f : TrustletSession → TrustletSession) :
    (s.modify p f).sessionList = s.sessionList := by
  show (List.map _ s.trustletSessions.entries).map Prod.fst = _
  rw [List.map_map]
  refine List.map_congr_left fun e _ => ?_
  show (if e.1 = p then (e.1, f e.2) else e).1 = e.1
  split_ifs <;> rfl

end DeviceState

open DeviceState

/-! ## Steps of others -/

/-- From `s` to `t` no lock is taken or released, and the sessions keep their buffers. -/
structure Untouched (s t : DeviceState) : Prop where
  locks : ∀ h, t.outstanding h = s.outstanding h
  sessions : t.sessionList = s.sessionList
  buffers : ∀ q, t.buffersOf q = s.buffersOf q

section Untouched

variable {s t u : DeviceState}

theorem Untouched.refl (s : DeviceState) : Untouched s s := ⟨fun _ => rfl, rfl, fun _ => rfl⟩

theorem Untouched.trans (h : Untouched s t) (h' : Untouched t u) : Untouched s u where
  locks := fun k => (h'.locks k).trans (h.locks k)
  sessions := h'.sessions.trans h.sessions
  buffers := fun q => (h'.buffers q).trans (h.buffers q)

/-- Only the calls and the sessions matter. -/
theorem Untouched.of_eq (heffects : t.effects = s.effects)
    (hsessions : t.trustletSessions = s.trustletSessions) : Untouched s t where
  locks := fun h => by rw [outstanding, outstanding, heffects]
  sessions := by rw [sessionList, sessionList, hsessions]
  buffers := fun q => by rw [buffersOf, buffersOf, hsessions]

theorem untouched_emit (s : DeviceState) {e : Effect} (he : ∀ h, e.locks h = 0) :
    Untouched s (s.emit e) where
  locks := fun h => by rw [outstanding_emit, he, Int.zero_add]
  sessions := rfl
  buffers := fun _ => rfl

theorem untouched_modify (s : DeviceState) (p : Nat) {f : TrustletSession → TrustletSession}
    (hf : ∀ v, (f v).buffers = v.buffers) : Untouched s (s.modify p f) where
  locks := fun _ => rfl
  sessions := sessionList_modify s p f
  buffers := fun q => buffersOf_modify s p q f hf

theorem untouched_answer (s : DeviceState) (conn : Conn) (code : McResult) :
    Untouched s (s.answer conn code) :=
  (untouched_emit s fun _ => rfl).trans (.of_eq rfl rfl)

theorem untouched_queueNotification (s : DeviceState) (p : Nat) (n : Notification) :
    Untouched s (s.queueNotification p n) := by
  unfold queueNotification
  cases s.trustletSessions.get? p with
  | none => exact .refl s
  | some v =>
    have hqueued : Untouched s (s.modify p fun v => v.queueNotification n) :=
      untouched_modify s p fun _ => rfl
    dsimp only
    split_ifs
    · exact hqueued.trans (untouched_emit _ fun _ => rfl)
    · exact hqueued

theorem untouched_handleIrq (s : DeviceState) (n : Notification) : Untouched s (s.handleIrq n) := by
  unfold handleIrq
  split_ifs
  · exact .of_eq rfl rfl
  cases s.getTrustletSession n.sessionId with
  | none =>
    dsimp only
    split_ifs <;> exact .of_eq rfl rfl
  | some p =>
    dsimp only
    cases s.trustletSessions.get? p with
    | none => exact .refl s
    | some v =>
      dsimp only
      cases v.notificationConnection with
      | some conn => exact untouched_emit s fun _ => rfl
      | none =>
        have hqueued := untouched_queueNotification s p n
        dsimp only
        split_ifs
        · exact hqueued.trans (.of_eq rfl rfl)
        · exact hqueued

theorem untouched_processNqConnect (s : DeviceState) (conn : Conn) (c : NqConnectCommand) :
    Untouched s (s.processNqConnect conn c) := by
  unfold processNqConnect
  split
  · exact untouched_emit s fun _ => rfl
  have hdetached : Untouched s (s.emit (.detachedConnection conn)) := untouched_emit s fun _ => rfl
  dsimp only
  split
  · exact hdetached.trans (untouched_emit _ fun _ => rfl)
  split
  · exact hdetached.trans (untouched_emit _ fun _ => rfl)
  · next p _ =>
    have hattached := untouched_modify (s.emit (.detachedConnection conn)) p
      (f := fun v => { v with notificationConnection := some conn }) fun _ => rfl
    have hanswered := untouched_emit ((s.emit (.detachedConnection conn)).modify p
      fun v => { v with notificationConnection := some conn }) (e := .answered conn mcDrvOk)
      fun _ => rfl
    exact hdetached.trans (hattached.trans (hanswered.trans (.of_eq rfl rfl)))

theorem untouched_processQueuedNotifications (s : DeviceState) (p : Nat) :
    Untouched s (s.processQueuedNotifications p) := by
  unfold processQueuedNotifications
  split
  · exact .of_eq rfl rfl
  split
  · split <;> exact .of_eq rfl rfl
  split
  · exact .of_eq rfl rfl
  · exact .of_eq rfl rfl
  · next ns _ _ _ =>
    exact (untouched_modify s p (f := fun v => { v with notifications := ns }) fun _ => rfl).trans
      (untouched_emit _ fun _ => rfl)

theorem untouched_concurrentStep {c : Concurrent} (h : s.concurrentStep c = some t) :
    Untouched s t := by
  cases c with
  | irq n =>
    obtain rfl := Option.some.inj h
    exact untouched_handleIrq s n
  | nqConnect conn c =>
    obtain rfl := Option.some.inj (Option.ite_none_right_eq_some.mp h).2
    exact untouched_processNqConnect s conn c
  | nqFlush =>
    obtain ⟨f, -, rfl⟩ := Option.map_eq_some_iff.mp h
    exact untouched_processQueuedNotifications s f.p
  | notify conn sessionId =>
    obtain rfl := Option.some.inj (Option.ite_none_right_eq_some.mp h).2
    unfold processNotify
    split
    · exact .refl s
    split <;> exact .of_eq rfl rfl
  | loadToken =>
    obtain rfl := Option.some.inj h
    exact .of_eq rfl rfl
  | taken =>
    simp only [concurrentStep] at h
    split at h
    · cases h
    · obtain rfl := Option.some.inj h
      exact .of_eq rfl rfl

/-- Others step beside a call that waits. -/
def waitBeside (s : DeviceState) (others : List Concurrent) : Option DeviceState :=
  machine.run s (others.map .concurrent)

theorem waitBeside_untouched {others : List Concurrent} (h : waitBeside s others = some t) :
    Untouched s t ∧ t.mcFault = s.mcFault := by
  induction others generalizing s with
  | nil =>
    obtain rfl := Option.some.inj h
    exact ⟨.refl s, rfl⟩
  | cons c others ih =>
    obtain ⟨r, hr, hrest⟩ := machine.run_cons_elim h
    have hstep : s.concurrentStep c = some r := (Option.ite_none_left_eq_some.mp hr).2
    obtain ⟨huntouched, hfault⟩ := ih hrest
    exact ⟨(untouched_concurrentStep hstep).trans huntouched,
      hfault.trans (concurrentStep_beside hstep).mcFault⟩

/-- The end of a wait, and what it finds. -/
theorem waitMcpNotification_untouched {w : McpWake} {rsp : Option McpResponse}
    (h : waitMcpNotification s w = some (rsp, t)) :
    Untouched s t ∧ ∀ r, rsp = some r ↔ s.mcFault = false ∧ w = .notified r := by
  unfold waitMcpNotification at h
  cases hfault : s.mcFault with
  | true =>
    rw [hfault, if_pos rfl] at h
    obtain ⟨rfl, rfl⟩ := Prod.mk.inj (Option.some.inj h)
    exact ⟨.refl s, by simp⟩
  | false =>
    rw [hfault, if_neg Bool.false_ne_true] at h
    cases w with
    | notified r =>
      obtain ⟨rfl, rfl⟩ := Prod.mk.inj (Option.some.inj (Option.ite_none_left_eq_some.mp h).2)
      exact ⟨.of_eq rfl rfl, by simp⟩
    | silent =>
      obtain ⟨rfl, rfl⟩ := Prod.mk.inj (Option.some.inj h)
      exact ⟨.of_eq rfl rfl, by simp⟩
    | exiting =>
      obtain ⟨rfl, rfl⟩ := Prod.mk.inj (Option.some.inj (Option.ite_none_left_eq_some.mp h).2)
      exact ⟨.of_eq rfl rfl, by simp⟩

end Untouched

/-! ## Opening -/

/-- The code with which `openSession` comes back before its exchange. -/
def OpenCommand.refusal (c : OpenCommand) : Option McResult :=
  match c.findTci with
  | none => some mcDrvErrDaemonWsmHandleNotFound
  | some (_, len) =>
    if c.hasTci && !c.kmod.lockWsmL2 then some mcDrvErrDaemonWsmHandleNotFound
    else if (c.tciHandle ≠ 0 && c.tciLen = 0) || c.tciLen > len then
      some mcDrvErrTciGreaterThanWsm
    else none

/-- The code with which `openSession` comes back after its exchange. -/
def openSessionResult (rsp : Option McpResponse) : McResult :=
  match exchangeResult mcMcpCmdOpenSession rsp with
  | .error e => e
  | .ok _ => mcDrvOk

/-- A call of `openSession`: its code, and the state up to the parked notifications. -/
def DeviceState.openSessionCall (s : DeviceState) (conn : Conn) (ld : LoadData) (c : OpenCommand)
    (others : List Concurrent) (w : McpWake) (new : NewSession) :
    Option (McResult × DeviceState) :=
  match c.refusal with
  | some code => some (code, s.openSession conn ld c)
  | none => do
    let s ← waitBeside (s.openSession conn ld c) others
    let (rsp, s) ← waitMcpNotification s w
    some (openSessionResult rsp, s.openSessionAnswer conn ld c new rsp)

/-- An open that fails leaves the locks and the list of the sessions as they were. -/
def FailsClean (s : DeviceState) (conn : Conn) (ld : LoadData) (c : OpenCommand) : Prop :=
  ∀ others w new code t, s.openSessionCall conn ld c others w new = some (code, t) →
    code ≠ mcDrvOk → (∀ h, t.outstanding h = s.outstanding h) ∧ t.sessionList = s.sessionList

/-- The TCI is contiguous and shorter than the client says. -/
def OpenCommand.TciTooShort (c : OpenCommand) : Prop :=
  c.hasTci = true ∧ c.kmod.lockWsmL2 = true ∧
    ∃ tci len, c.kmod.findContiguousWsm = some (tci, len) ∧ len < c.tciLen

section Opening

variable {s t : DeviceState} {conn : Conn} {ld : LoadData} {c : OpenCommand}

/-- The length of a TCI that is not contiguous is the one that the client gave. -/
theorem OpenCommand.tciTooShort_iff {tci : TciBuffer} {len : UInt32}
    (h : c.findTci = some (tci, len)) :
    c.TciTooShort ↔ c.hasTci = true ∧ c.kmod.lockWsmL2 = true ∧ len < c.tciLen := by
  unfold findTci at h
  unfold TciTooShort
  by_cases htci : c.hasTci = true
  · rw [if_pos htci] at h
    cases hfind : c.kmod.findContiguousWsm with
    | some found =>
      obtain ⟨adr, contiguous⟩ := found
      rw [hfind] at h
      obtain ⟨rfl, rfl⟩ := Prod.mk.inj (Option.some.inj h)
      simp
    | none =>
      rw [hfind] at h
      obtain ⟨-, h⟩ := Option.ite_none_right_eq_some.mp h
      obtain ⟨-, rfl⟩ := Prod.mk.inj (Option.some.inj h)
      simp [UInt32.lt_irrefl]
  · simp [htci]

theorem OpenCommand.not_tciTooShort_of_none (h : c.findTci = none) : ¬ c.TciTooShort := by
  rintro ⟨htci, -, tci, len, hfind, -⟩
  rw [findTci, if_pos htci, hfind] at h
  cases h

/-- A TCI that is too short is refused. -/
theorem OpenCommand.not_tciTooShort (h : c.refusal = none) : ¬ c.TciTooShort := by
  intro hshort
  unfold refusal at h
  cases hfind : c.findTci with
  | none => exact not_tciTooShort_of_none hfind hshort
  | some found =>
    obtain ⟨tci, len⟩ := found
    obtain ⟨-, -, hlen⟩ := (tciTooShort_iff hfind).mp hshort
    rw [hfind] at h
    dsimp only at h
    split_ifs at h with hlock hbad
    simp [hlen] at hbad

variable (s conn ld) in
/-- A refusal leaves the TCI locked exactly if it is too short. -/
theorem openSession_of_refusal {code : McResult} (h : c.refusal = some code) :
    (¬ c.TciTooShort ∧ s.openSession conn ld c = s.answer conn (c.returnCode code)) ∨
      (c.TciTooShort ∧ code = mcDrvErrTciGreaterThanWsm ∧
        s.openSession conn ld c =
          (s.emit (.lockWsm c.tciHandle)).answer conn (c.returnCode code)) := by
  unfold OpenCommand.refusal at h
  unfold DeviceState.openSession
  cases hfind : c.findTci with
  | none =>
    rw [hfind] at h
    obtain rfl := Option.some.inj h
    exact .inl ⟨OpenCommand.not_tciTooShort_of_none hfind, rfl⟩
  | some found =>
    obtain ⟨tci, len⟩ := found
    rw [hfind] at h
    have hshort := OpenCommand.tciTooShort_iff hfind
    dsimp only at h ⊢
    by_cases hlock : (c.hasTci && !c.kmod.lockWsmL2) = true
    · rw [if_pos hlock] at h ⊢
      obtain rfl := Option.some.inj h
      refine .inl ⟨fun hleft => ?_, rfl⟩
      simp [(hshort.mp hleft).1, (hshort.mp hleft).2.1] at hlock
    · rw [if_neg hlock] at h ⊢
      obtain ⟨hlen, h⟩ := Option.ite_none_right_eq_some.mp h
      obtain rfl := Option.some.inj h
      rw [if_pos hlen]
      unfold lockTci
      by_cases htci : c.hasTci = true
      · -- both arguments are there, so it is the length
        rw [if_pos htci]
        refine .inr ⟨hshort.mpr ⟨htci, by simpa [htci] using hlock, ?_⟩, rfl, rfl⟩
        have hgiven : c.tciHandle ≠ 0 ∧ c.tciLen ≠ 0 := by
          simpa [OpenCommand.hasTci] using htci
        simpa [hgiven.2] using hlen
      · rw [if_neg htci]
        exact .inl ⟨fun hleft => htci (hshort.mp hleft).1, rfl⟩

/-- An open that goes on to its exchange has locked its TCI, if there is one. -/
theorem outstanding_openSession (h : c.refusal = none) (k : UInt32) :
    (s.openSession conn ld c).outstanding k = (s.lockTci c).outstanding k ∧
      (s.openSession conn ld c).sessionList = s.sessionList := by
  unfold OpenCommand.refusal at h
  unfold DeviceState.openSession
  cases hfind : c.findTci with
  | none =>
    rw [hfind] at h
    cases h
  | some found =>
    obtain ⟨tci, len⟩ := found
    rw [hfind] at h
    dsimp only at h ⊢
    split_ifs at h ⊢
    refine ⟨?_, ?_⟩
    · exact outstanding_emit _ _ k |>.trans (Int.zero_add _)
    · unfold lockTci
      split_ifs <;> rfl

/-- An exchange that fails releases the TCI. -/
theorem outstanding_openSessionAnswer {e : McResult} {new : NewSession}
    {rsp : Option McpResponse} (h : exchangeResult mcMcpCmdOpenSession rsp = .error e)
    (k : UInt32) :
    (s.openSessionAnswer conn ld c new rsp).outstanding k = (s.unlockTci c).outstanding k ∧
      (s.openSessionAnswer conn ld c new rsp).sessionList = s.sessionList := by
  unfold openSessionAnswer
  rw [h]
  refine ⟨(untouched_answer (s.unlockTci c) conn _).locks k,
    (untouched_answer (s.unlockTci c) conn _).sessions.trans ?_⟩
  unfold unlockTci
  split_ifs <;> rfl

theorem outstanding_lockTci (k : UInt32) : (s.lockTci c).outstanding k =
    (if c.hasTci then (Effect.lockWsm c.tciHandle).locks k else 0) + s.outstanding k := by
  unfold lockTci
  split_ifs
  · rfl
  · rw [Int.zero_add]

theorem outstanding_unlockTci (k : UInt32) : (s.unlockTci c).outstanding k =
    (if c.hasTci then (Effect.unlockWsm c.tciHandle none).locks k else 0) + s.outstanding k := by
  unfold unlockTci
  split_ifs
  · rfl
  · rw [Int.zero_add]

theorem lock_add_unlock (h k : UInt32) (p : Option Nat) :
    (Effect.unlockWsm h p).locks k + (Effect.lockWsm h).locks k = 0 := by
  show (if h = k then (-1 : Int) else 0) + (if h = k then 1 else 0) = 0
  split_ifs <;> rfl

/-- A call that fails behind its exchange has released what it had locked. -/
theorem openSessionCall_of_exchange {others : List Concurrent} {w : McpWake} {new : NewSession}
    {code : McResult} (hnone : c.refusal = none)
    (h : s.openSessionCall conn ld c others w new = some (code, t)) (hcode : code ≠ mcDrvOk) :
    (∀ k, t.outstanding k = s.outstanding k) ∧ t.sessionList = s.sessionList := by
  unfold openSessionCall at h
  rw [hnone] at h
  obtain ⟨u, hu, h⟩ := Option.bind_eq_some_iff.mp h
  obtain ⟨⟨rsp, v⟩, hv, h⟩ := Option.bind_eq_some_iff.mp h
  obtain ⟨rfl, rfl⟩ := Prod.mk.inj (Option.some.inj h)
  obtain ⟨e, he⟩ : ∃ e, exchangeResult mcMcpCmdOpenSession rsp = .error e := by
    cases hresult : exchangeResult mcMcpCmdOpenSession rsp with
    | error e => exact ⟨e, rfl⟩
    | ok r =>
      rw [openSessionResult, hresult] at hcode
      exact absurd rfl hcode
  have hwait := (waitBeside_untouched hu).1.trans (waitMcpNotification_untouched hv).1
  refine ⟨fun k => ?_, ?_⟩
  · have hlocked : (s.openSession conn ld c).outstanding k = (s.lockTci c).outstanding k :=
      (outstanding_openSession hnone k).1
    rw [outstanding_lockTci] at hlocked
    rw [(outstanding_openSessionAnswer he k).1, outstanding_unlockTci, hwait.locks k, hlocked]
    have hzero := lock_add_unlock c.tciHandle k none
    split_ifs <;> omega
  · rw [(outstanding_openSessionAnswer he 0).2, hwait.sessions]
    exact (outstanding_openSession hnone 0).2

/-- **An open that fails leaves no lock behind** unless its TCI is contiguous and too short. -/
theorem failsClean_iff : FailsClean s conn ld c ↔ ¬ c.TciTooShort := by
  cases hrefusal : c.refusal with
  | none =>
    exact iff_of_true (fun others w new code t h hcode =>
      openSessionCall_of_exchange hrefusal h hcode) (OpenCommand.not_tciTooShort hrefusal)
  | some code =>
    have hcall : ∀ others w new, s.openSessionCall conn ld c others w new =
        some (code, s.openSession conn ld c) := by
      intro others w new
      unfold openSessionCall
      rw [hrefusal]
    rcases openSession_of_refusal s conn ld hrefusal with ⟨hnot, heq⟩ | ⟨hshort, rfl, heq⟩
    · refine iff_of_true (fun others w new e t h _ => ?_) hnot
      rw [hcall] at h
      obtain ⟨-, rfl⟩ := Prod.mk.inj (Option.some.inj h)
      rw [heq]
      have hanswer := untouched_answer s conn (c.returnCode code)
      exact ⟨hanswer.locks, hanswer.sessions⟩
    · refine iff_of_false (fun hclean => ?_) (not_not.mpr hshort)
      have hsame := (hclean [] .silent ⟨0, 0⟩ _ _ (hcall [] .silent ⟨0, 0⟩) (by decide)).1
      have hlocks := hsame c.tciHandle
      rw [heq, (untouched_answer _ conn _).locks, outstanding_lockWsm] at hlocks
      omega

end Opening

/-- A TCI of two bytes in a contiguous buffer of one. -/
def shortTci : OpenCommand where
  load := none
  tciHandle := 1
  tciLen := 2
  tciOffset := 0
  kmod := { findContiguousWsm := some (0x1000, 1) }

/-- It is refused, and stays locked. -/
theorem not_failsClean_shortTci : ¬ FailsClean (DeviceState.started false) 0 ⟨104, 0⟩ shortTci := by
  intro hclean
  have hcall : (DeviceState.started false).openSessionCall 0 ⟨104, 0⟩ shortTci [] .silent ⟨0, 0⟩ =
      some (mcDrvErrTciGreaterThanWsm, (DeviceState.started false).openSession 0 ⟨104, 0⟩ shortTci) :=
    rfl
  have hlocks := (hclean [] .silent ⟨0, 0⟩ _ _ hcall (by decide)).1 1
  revert hlocks
  decide

end McDaemon.Device
