/-
# McDaemon.Device.FailedMap — what is left of a map that fails.

The daemon locks the buffer first and never releases it on the way out; the device records the
buffer before the secure world has agreed.  So a map that fails behind its lock leaves it behind.
-/
import McDaemon.Device.FailedCalls

namespace McDaemon.Device

open McDaemon.Lib
open DeviceState

/-- A call of `processMapBulkBuf`, with what others do while it waits. -/
def DeviceState.mapBulkCall (s : DeviceState) (conn : Conn) (c : MapCommand)
    (others : List Concurrent) (w : McpWake) : Option DeviceState :=
  match (s.processMapBulkBuf conn c).mcp with
  | .mapWait _ p _ _ => do
    let t ← waitBeside (s.processMapBulkBuf conn c) others
    let (rsp, t) ← waitMcpNotification t w
    some (t.mapBulkAnswer conn p c rsp)
  | _ => some (s.processMapBulkBuf conn c)

/-- The client has been told of an error. -/
def AnswersError (t : DeviceState) (conn : Conn) : Prop :=
  ∃ code, code ≠ mcDrvOk ∧ t.effects.head? = some (.answered conn code)

/-- An error means that the locks and the buffers of the sessions are as they were. -/
def MapsAtomically (s t : DeviceState) (conn : Conn) : Prop :=
  AnswersError t conn →
    (∀ h, t.outstanding h = s.outstanding h) ∧ ∀ p, t.buffersOf p = s.buffersOf p

/-- The secure world is up and answers that it has mapped the buffer. -/
def MapAccepted (s : DeviceState) (w : McpWake) : Prop :=
  s.mcFault = false ∧
    ∃ r, w = .notified r ∧ r.rspId = (mcMcpCmdMap ||| flagResponse) ∧ r.result = mcMcpRetOk

/-- What the map asks for is there, and the secure world agrees. -/
structure MapGranted (s : DeviceState) (conn : Conn) (c : MapCommand) (w : McpWake) : Prop where
  resolved : c.kmod.findWsmL2 ≠ 0
  session : s.findSession conn c.sessionId ≠ none
  accepted : MapAccepted s w

section Mapping

variable {s t : DeviceState} {conn : Conn} {c : MapCommand} {others : List Concurrent}
  {w : McpWake}

theorem exchangeResult_ok_iff {cmdId : UInt32} {rsp : Option McpResponse} {r : McpResponse} :
    exchangeResult cmdId rsp = .ok r ↔
      rsp = some r ∧ r.rspId = (cmdId ||| flagResponse) ∧ r.result = mcMcpRetOk := by
  unfold exchangeResult
  cases rsp with
  | none => simp
  | some q =>
    dsimp only
    split_ifs with hid hresult
    · simp only [Option.some.injEq, false_iff]
      rintro ⟨rfl, hid', -⟩
      exact hid hid'
    · simp only [Option.some.injEq, false_iff]
      rintro ⟨rfl, -, hresult'⟩
      exact hresult hresult'
    · simp only [Except.ok.injEq, Option.some.injEq]
      constructor
      · rintro rfl
        exact ⟨rfl, not_not.mp hid, not_not.mp hresult⟩
      · exact And.left

theorem exchangeResult_error {cmdId : UInt32} {rsp : Option McpResponse} {e : McResult}
    (h : exchangeResult cmdId rsp = .error e) : e ≠ mcDrvOk := by
  unfold exchangeResult at h
  split at h
  · cases h
    exact daemonUnreachable_ne_ok
  · split_ifs at h
    · cases h
      exact daemonUnreachable_ne_ok
    · cases h
      exact makeMcDrvMcpError_ne_ok _

theorem answersError_answer (s : DeviceState) (conn : Conn) {code : McResult}
    (h : code ≠ mcDrvOk) : AnswersError (s.answer conn code) conn :=
  ⟨code, h, rfl⟩

/-- A refusal before the lock leaves everything as it was. -/
theorem mapsAtomically_answer (s : DeviceState) (conn : Conn) (code : McResult) :
    MapsAtomically s (s.answer conn code) conn := by
  intro _
  have hanswer := untouched_answer s conn code
  exact ⟨hanswer.locks, hanswer.buffers⟩

/-- An error behind the lock leaves it. -/
theorem not_mapsAtomically {h : UInt32} (herror : AnswersError t conn)
    (hlocks : t.outstanding h = 1 + s.outstanding h) : ¬ MapsAtomically s t conn := by
  intro hatomic
  have hsame := (hatomic herror).1 h
  omega

/-- Recording a buffer is no business of the kernel's. -/
theorem outstanding_mapBulk {p : Nat} {v : TrustletSession}
    (hfind : s.findSession conn c.sessionId = some p) (hp : s.trustletSessions.get? p = some v)
    (h : UInt32) : (s.mapBulk conn c).outstanding h = s.outstanding h ∧
      (s.mapBulk conn c).mcFault = s.mcFault ∧
      (s.mapBulk conn c).mcp = .mapWait conn p c (v.buffers.addBulkBuff
        ⟨c.lenBulkMem, c.handle, c.kmod.findWsmL2⟩).1 := by
  unfold mapBulk
  rw [hfind]
  dsimp only
  rw [hp]
  exact ⟨Int.zero_add _, rfl, rfl⟩

/-- Behind the lock, an error of whatever kind is answered with the lock taken. -/
theorem mapBulkAnswer_error {p : Nat} {rsp : Option McpResponse} {e : McResult}
    (h : exchangeResult mcMcpCmdMap rsp = .error e) (k : UInt32) :
    AnswersError (s.mapBulkAnswer conn p c rsp) conn ∧
      (s.mapBulkAnswer conn p c rsp).outstanding k = s.outstanding k := by
  unfold mapBulkAnswer
  rw [h]
  exact ⟨answersError_answer s conn (exchangeResult_error h), (untouched_answer s conn e).locks k⟩

theorem mapBulkAnswer_ok {p : Nat} {rsp : Option McpResponse} {r : McpResponse}
    (h : exchangeResult mcMcpCmdMap rsp = .ok r) :
    ¬ AnswersError (s.mapBulkAnswer conn p c rsp) conn := by
  rintro ⟨code, -, hhead⟩
  unfold mapBulkAnswer at hhead
  rw [h] at hhead
  cases hhead

/-- A map behind its lock: all is well exactly if it goes through. -/
theorem mapBulkCall_locked (hconn : conn ∈ s.connectionData) (hlock : c.kmod.lockWsmL2 = true)
    (h : s.mapBulkCall conn c others w = some t) :
    MapsAtomically s t conn ↔ MapGranted s conn c w := by
  have hbegin : s.processMapBulkBuf conn c =
      if c.kmod.findWsmL2 = 0 then
        (s.emit (.lockWsm c.handle)).answer conn mcDrvErrDaemonWsmHandleNotFound
      else (s.emit (.lockWsm c.handle)).mapBulk conn c := by
    unfold processMapBulkBuf
    rw [if_neg (not_not.mpr hconn), if_neg (by simp [hlock])]
  have hlocked := outstanding_lockWsm s c.handle
  -- an answer at once is an error with the lock taken
  have hrefused : ∀ code, code ≠ mcDrvOk →
      s.processMapBulkBuf conn c = (s.emit (.lockWsm c.handle)).answer conn code →
      ¬ MapsAtomically s t conn := by
    intro code hcode heq
    unfold mapBulkCall at h
    rw [heq] at h
    obtain rfl := Option.some.inj h
    refine not_mapsAtomically (answersError_answer _ conn hcode) (h := c.handle) ?_
    rw [(untouched_answer _ conn code).locks, hlocked]
  by_cases hresolved : c.kmod.findWsmL2 = 0
  · rw [if_pos hresolved] at hbegin
    exact iff_of_false (hrefused _ (by decide) hbegin) fun hgranted => hgranted.resolved hresolved
  rw [if_neg hresolved] at hbegin
  have hsession : (s.emit (.lockWsm c.handle)).findSession conn c.sessionId =
      s.findSession conn c.sessionId := rfl
  cases hfind : s.findSession conn c.sessionId with
  | none =>
    refine iff_of_false (hrefused mcDrvErrDaemonUnknownSession (by decide) ?_)
      fun hgranted => hgranted.session hfind
    rw [hbegin, mapBulk, hsession, hfind]
  | some p =>
    obtain ⟨v, hp⟩ : ∃ v, s.trustletSessions.get? p = some v := by
      unfold findSession at hfind
      split at hfind
      · cases hfind
      · split at hfind
        · cases hfind
        · next q v hv =>
          obtain ⟨-, heq⟩ := Option.ite_none_right_eq_some.mp hfind
          exact ⟨v, Option.some.inj heq ▸ hv⟩
    have hmap := outstanding_mapBulk (s := s.emit (.lockWsm c.handle)) (hsession.trans hfind) hp
    obtain ⟨hmapLocks, hmapFault, hmapWait⟩ := hmap c.handle
    unfold mapBulkCall at h
    rw [hbegin, hmapWait] at h
    obtain ⟨u, hu, h⟩ := Option.bind_eq_some_iff.mp h
    obtain ⟨⟨rsp, x⟩, hx, h⟩ := Option.bind_eq_some_iff.mp h
    obtain rfl := Option.some.inj h
    obtain ⟨huUntouched, huFault⟩ := waitBeside_untouched hu
    obtain ⟨hxUntouched, hrsp⟩ := waitMcpNotification_untouched hx
    have hfault : u.mcFault = s.mcFault := huFault.trans hmapFault
    cases hresult : exchangeResult mcMcpCmdMap rsp with
    | ok r =>
      obtain ⟨rfl, hid, hok⟩ := exchangeResult_ok_iff.mp hresult
      obtain ⟨hup, rfl⟩ := (hrsp r).mp rfl
      refine iff_of_true (fun herror => absurd herror (mapBulkAnswer_ok hresult)) ?_
      exact ⟨hresolved, by rw [hfind]; exact nofun, hfault ▸ hup, r, rfl, hid, hok⟩
    | error e =>
      obtain ⟨herror, hlocks⟩ : AnswersError (x.mapBulkAnswer conn p c rsp) conn ∧
          (x.mapBulkAnswer conn p c rsp).outstanding c.handle = x.outstanding c.handle :=
        mapBulkAnswer_error hresult c.handle
      refine iff_of_false (not_mapsAtomically herror (h := c.handle) ?_) fun hgranted => ?_
      · rw [hlocks, hxUntouched.locks, huUntouched.locks, hmapLocks, hlocked]
      · obtain ⟨hup, r, rfl, hid, hok⟩ := hgranted.accepted
        have hread := (hrsp r).mpr ⟨hfault.trans hup, rfl⟩
        rw [exchangeResult_ok_iff.mpr ⟨hread, hid, hok⟩] at hresult
        cases hresult

/-- **Maps are not atomic.**  One that is answered leaves everything as it was on an error exactly
if it did not get as far as the lock, or if there is no error. -/
theorem mapsAtomically_iff (h : s.mapBulkCall conn c others w = some t) :
    MapsAtomically s t conn ↔
      conn ∉ s.connectionData ∨ c.kmod.lockWsmL2 = false ∨ MapGranted s conn c w := by
  by_cases hconn : conn ∈ s.connectionData
  · cases hlock : c.kmod.lockWsmL2 with
    | true =>
      rw [mapBulkCall_locked hconn hlock h]
      simp [hconn]
    | false =>
      refine iff_of_true ?_ (.inr (.inl rfl))
      have hbegin : s.processMapBulkBuf conn c =
          s.answer conn mcDrvErrDaemonWsmHandleNotFound := by
        unfold processMapBulkBuf
        rw [if_neg (not_not.mpr hconn), if_pos (by simp [hlock])]
      unfold mapBulkCall at h
      rw [hbegin] at h
      obtain rfl := Option.some.inj h
      exact mapsAtomically_answer s conn _
  · refine iff_of_true ?_ (.inl hconn)
    have hbegin : s.processMapBulkBuf conn c = s.answer conn mcDrvErrDaemonDeviceNotOpen := by
      unfold processMapBulkBuf
      rw [if_pos hconn]
    unfold mapBulkCall at h
    rw [hbegin] at h
    obtain rfl := Option.some.inj h
    exact mapsAtomically_answer s conn _

end Mapping

/-- A client with a device and no session maps a buffer. -/
def strayMap : MapCommand where
  sessionId := 1
  handle := 7
  offsetPayload := 0
  lenBulkMem := 4096
  kmod := { findWsmL2 := 0x1000 }

def openedDevice : DeviceState := { DeviceState.started false with connectionData := [0] }

/-- A client that has no device locks nothing. -/
theorem mapsAtomically_noDevice :
    MapsAtomically (DeviceState.started false)
      ((DeviceState.started false).processMapBulkBuf 0 strayMap) 0 := by
  have hcall : (DeviceState.started false).mapBulkCall 0 strayMap [] .silent =
      some ((DeviceState.started false).processMapBulkBuf 0 strayMap) := rfl
  exact (mapsAtomically_iff hcall).mpr (.inl (by decide))

/-- There is no such session, and the buffer stays locked. -/
theorem not_mapsAtomically_strayMap :
    openedDevice.mapBulkCall 0 strayMap [] .silent =
        some (openedDevice.processMapBulkBuf 0 strayMap) ∧
      ¬ MapsAtomically openedDevice (openedDevice.processMapBulkBuf 0 strayMap) 0 := by
  refine ⟨rfl, fun hatomic => ?_⟩
  have hlocks := (hatomic ⟨mcDrvErrDaemonUnknownSession, by decide, rfl⟩).1 7
  revert hlocks
  decide

end McDaemon.Device
