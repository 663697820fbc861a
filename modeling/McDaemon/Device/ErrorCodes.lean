/-
# McDaemon.Device.ErrorCodes — how the secure world's result codes reach the client.

Every operation of the device that makes an exchange turns its outcome into one `mcResult_t`: the
code of the secure world goes into the MCP part of MC_DRV_ERR_MCP_ERROR, and an exchange without a
proper answer is MC_DRV_ERR_DAEMON_MCI_ERROR alone.  Six of the seven share one ladder.  Closing a
session has its own: it answers OK when the clean-up of a GP session is put off, and it wraps what
`closeSessionInternal` has wrapped already.
-/
import McDaemon.Device.Operations
import Mathlib.Data.Nat.Bitwise

namespace McDaemon

/-! ## Parts of a code -/

/-- `MAKE_MC_DRV_MCP_ERROR` as arithmetic: twenty bits of the code, above the driver's byte. -/
theorem toNat_makeMcDrvMcpError (c : UInt32) :
    (makeMcDrvMcpError c).toNat = 256 * (c.toNat % 1048576) + 15 := by
  have hmask : (0x000fffff : UInt32).toNat = 2 ^ 20 - 1 := rfl
  have height : (8 : UInt32).toNat % 32 = 8 := rfl
  have hmajor : mcDrvErrMcpError.toNat = 15 := rfl
  have hlt : (c.toNat % 2 ^ 20) <<< 8 < 2 ^ 32 := by
    rw [Nat.shiftLeft_eq]
    omega
  have hadd := Nat.shiftLeft_add_eq_or_of_lt (show 15 < 2 ^ 8 by omega) (c.toNat % 2 ^ 20)
  rw [makeMcDrvMcpError, UInt32.toNat_or, UInt32.toNat_shiftLeft, UInt32.toNat_and, hmask, height,
    hmajor, Nat.and_two_pow_sub_one_eq_mod, Nat.mod_eq_of_lt hlt, Nat.or_comm, ← hadd,
    Nat.shiftLeft_eq]
  omega

theorem toNat_mcDrvErrorMajor (e : McResult) : (mcDrvErrorMajor e).toNat = e.toNat % 256 := by
  have hmask : (0xff : UInt32).toNat = 2 ^ 8 - 1 := rfl
  rw [mcDrvErrorMajor, UInt32.toNat_and, hmask, Nat.and_two_pow_sub_one_eq_mod]

theorem toNat_mcDrvErrorMcp (e : McResult) : (mcDrvErrorMcp e).toNat = e.toNat / 256 % 256 := by
  have hmask : (0xff : UInt32).toNat = 2 ^ 8 - 1 := rfl
  have height : (8 : UInt32).toNat % 32 = 8 := rfl
  rw [mcDrvErrorMcp, UInt32.toNat_and, UInt32.toNat_shiftRight, hmask, height,
    Nat.and_two_pow_sub_one_eq_mod, Nat.shiftRight_eq_div_pow]

/-- A wrapped code is an MCP error. -/
theorem major_makeMcDrvMcpError (c : UInt32) :
    mcDrvErrorMajor (makeMcDrvMcpError c) = mcDrvErrMcpError := by
  have hmajor : mcDrvErrMcpError.toNat = 15 := rfl
  apply UInt32.toNat_inj.mp
  rw [toNat_mcDrvErrorMajor, toNat_makeMcDrvMcpError, hmajor]
  omega

/-- The MCP part of a wrapped code is the low byte of the code. -/
theorem mcp_makeMcDrvMcpError (c : UInt32) :
    mcDrvErrorMcp (makeMcDrvMcpError c) = mcDrvErrorMajor c := by
  apply UInt32.toNat_inj.mp
  rw [toNat_mcDrvErrorMcp, toNat_makeMcDrvMcpError, toNat_mcDrvErrorMajor]
  omega

theorem major_of_lt {c : UInt32} (h : c < 256) : mcDrvErrorMajor c = c := by
  have hlt : c.toNat < 256 := UInt32.lt_iff_toNat_lt.mp h
  apply UInt32.toNat_inj.mp
  rw [toNat_mcDrvErrorMajor, Nat.mod_eq_of_lt hlt]

def mcMcpCmdGetMobiCoreVersion : UInt32 := 0x00000009
def mcMcpCmdLoadToken : UInt32 := 0x0000000b
def mcMcpCmdCheckLoadTa : UInt32 := 0x0000000c

namespace Device.MobiCoreDevice

/-! ## The operations, from the answer on -/

/-- The ladder behind an exchange. -/
def resultCode (cmdId : UInt32) (rsp : Option McpResponse) : McResult :=
  match exchangeResult cmdId rsp with
  | .error e => e
  | .ok _ => mcDrvOk

/-- `MobiCoreDevice::openSession`. -/
def openSession : Option McpResponse → McResult := resultCode mcMcpCmdOpenSession

/-- `MobiCoreDevice::checkLoad`. -/
def checkLoad : Option McpResponse → McResult := resultCode mcMcpCmdCheckLoadTa

/-- `MobiCoreDevice::mapBulk`. -/
def mapBulk : Option McpResponse → McResult := resultCode mcMcpCmdMap

/-- `MobiCoreDevice::unmapBulk`. -/
def unmapBulk : Option McpResponse → McResult := resultCode mcMcpCmdUnmap

/-- `MobiCoreDevice::getMobiCoreVersion`, when no version has been fetched before. -/
def getMobiCoreVersion : Option McpResponse → McResult := resultCode mcMcpCmdGetMobiCoreVersion

/-- `MobiCoreDevice::loadToken`. -/
def loadToken : Option McpResponse → McResult := resultCode mcMcpCmdLoadToken

/-- `MobiCoreDevice::closeSession` on a session as it is when the first exchange is over; `again` is
the outcome of the second exchange if there is one.  `none` is the failed assertion. -/
def closeSession (v : TrustletSession) (rsp again : Option McpResponse) : Option McResult :=
  let mcRet := closeSessionInternal rsp
  if v.gpLevel = 1 ∧ mcRet = makeMcDrvMcpError mcMcpRetErrCloseTaskFailed then
    if v.sessionState = .taDead then
      if closeSessionInternal again = mcMcpRetOk then some mcMcpRetOk else none
    else some mcMcpRetOk
  else if mcRet ≠ mcMcpRetOk then some (makeMcDrvMcpError mcRet)
  else some mcMcpRetOk

/-- The operations that share the ladder. -/
inductive Operation where
  | openSession
  | checkLoad
  | mapBulk
  | unmapBulk
  | getMobiCoreVersion
  | loadToken
deriving DecidableEq, Repr

def Operation.cmdId : Operation → UInt32
  | .openSession => mcMcpCmdOpenSession
  | .checkLoad => mcMcpCmdCheckLoadTa
  | .mapBulk => mcMcpCmdMap
  | .unmapBulk => mcMcpCmdUnmap
  | .getMobiCoreVersion => mcMcpCmdGetMobiCoreVersion
  | .loadToken => mcMcpCmdLoadToken

def Operation.result : Operation → Option McpResponse → McResult
  | .openSession => MobiCoreDevice.openSession
  | .checkLoad => MobiCoreDevice.checkLoad
  | .mapBulk => MobiCoreDevice.mapBulk
  | .unmapBulk => MobiCoreDevice.unmapBulk
  | .getMobiCoreVersion => MobiCoreDevice.getMobiCoreVersion
  | .loadToken => MobiCoreDevice.loadToken

theorem Operation.result_eq (op : Operation) : op.result = resultCode op.cmdId := by
  cases op <;> rfl

/-! ## In the sections of the device -/

section Sections

variable (s : DeviceState) (conn : Conn) {p : Nat} {rsp : Option McpResponse}

theorem exchangeResult_of_resultCode {cmdId : UInt32} (h : resultCode cmdId rsp ≠ mcDrvOk) :
    exchangeResult cmdId rsp = .error (resultCode cmdId rsp) := by
  unfold resultCode at h ⊢
  cases hres : exchangeResult cmdId rsp with
  | error e => rfl
  | ok r =>
    rw [hres] at h
    exact absurd rfl h

theorem openSessionAnswer_eq (ld : LoadData) (c : OpenCommand) (new : NewSession)
    (h : openSession rsp ≠ mcDrvOk) : s.openSessionAnswer conn ld c new rsp =
      (s.unlockTci c).answer conn (c.returnCode (openSession rsp)) := by
  rw [DeviceState.openSessionAnswer, exchangeResult_of_resultCode h]
  rfl

theorem mapBulkAnswer_eq (c : MapCommand) (h : mapBulk rsp ≠ mcDrvOk) :
    s.mapBulkAnswer conn p c rsp = s.answer conn (mapBulk rsp) := by
  rw [DeviceState.mapBulkAnswer, exchangeResult_of_resultCode h]
  rfl

theorem unmapBulkAnswer_eq (c : UnmapCommand) (h : unmapBulk rsp ≠ mcDrvOk) :
    s.unmapBulkAnswer conn p c rsp = s.answer conn (unmapBulk rsp) := by
  rw [DeviceState.unmapBulkAnswer, exchangeResult_of_resultCode h]
  rfl

/-- A close that goes through one exchange returns the code to its caller. -/
theorem closeSessionAnswer_eq {v : TrustletSession} (hv : s.trustletSessions.get? p = some v)
    (caller : CloseCaller) {again : Option McpResponse} {code : McResult}
    (hcode : closeSession v rsp again = some code)
    (honce : ¬ (v.gpLevel = 1 ∧ v.sessionState = .taDead ∧
      closeSessionInternal rsp = makeMcDrvMcpError mcMcpRetErrCloseTaskFailed)) :
    ∃ t : DeviceState,
      s.closeSessionAnswer caller p false rsp = t.closeSessionReturn caller code := by
  unfold closeSession at hcode
  dsimp only at hcode
  rw [DeviceState.closeSessionAnswer, hv]
  simp only [Bool.false_and, Bool.false_eq_true, if_false]
  split_ifs at hcode ⊢ with hgp hdead
  · exact absurd ⟨hgp.1, hdead, hgp.2⟩ honce
  · exact ⟨s, by rw [← Option.some.inj hcode]⟩
  · exact ⟨s, by rw [← Option.some.inj hcode]⟩
  · exact ⟨s.freeSession p v, by rw [← Option.some.inj hcode]⟩

end Sections

/-! ## What survives -/

/-- The code that an operation returns tells how its exchange ended: an error of the secure world is
in the MCP part, and an exchange that failed locally leaves that part empty. -/
structure Survives (cmdId : UInt32) (rsp : Option McpResponse) (code : McResult) : Prop where
  answered : ∀ r, rsp = some r → r.rspId = cmdId ||| flagResponse → r.result ≠ mcMcpRetOk →
    r.result < 256 → mcDrvErrorMajor code = mcDrvErrMcpError ∧ mcDrvErrorMcp code = r.result
  failed : (∀ r, rsp = some r → r.rspId ≠ cmdId ||| flagResponse) → mcDrvErrorMcp code = 0

/-- A close returns OK when the secure world puts the closing of a GP session off, either at once or
after a second exchange that has to succeed, and an MCP error for every other code; the code that
`closeSessionInternal` returns tells which one. -/
structure CloseReports (v : TrustletSession) (rsp again : Option McpResponse) : Prop where
  deferred : ∀ r, rsp = some r → r.rspId = mcMcpCmdCloseSession ||| flagResponse →
    r.result = mcMcpRetErrCloseTaskFailed → v.gpLevel = 1 →
    closeSession v rsp again =
      if v.sessionState = .taDead ∧ closeSessionInternal again ≠ mcMcpRetOk then none
      else some mcMcpRetOk
  answered : ∀ r, rsp = some r → r.rspId = mcMcpCmdCloseSession ||| flagResponse →
    r.result ≠ mcMcpRetOk → r.result < 256 →
    mcDrvErrorMajor (closeSessionInternal rsp) = mcDrvErrMcpError ∧
      mcDrvErrorMcp (closeSessionInternal rsp) = r.result ∧
      (v.gpLevel = 1 ∧ r.result = mcMcpRetErrCloseTaskFailed ∨
        ∃ code, closeSession v rsp again = some code ∧ mcDrvErrorMajor code = mcDrvErrMcpError)

theorem resultCode_survives (cmdId : UInt32) (rsp : Option McpResponse) :
    Survives cmdId rsp (resultCode cmdId rsp) where
  answered := by
    rintro r rfl hid hresult hlt
    have hcode : resultCode cmdId (some r) = makeMcDrvMcpError r.result := by
      simp only [resultCode, exchangeResult, hid, ne_eq, not_true_eq_false, if_false, hresult,
        not_false_eq_true, if_true]
    rw [hcode]
    exact ⟨major_makeMcDrvMcpError _, (mcp_makeMcDrvMcpError _).trans (major_of_lt hlt)⟩
  failed := by
    intro hno
    have hcode : resultCode cmdId rsp = mcDrvErrDaemonMciError := by
      cases rsp with
      | none => rfl
      | some r =>
        have hid := hno r rfl
        simp only [resultCode, exchangeResult, ne_eq, hid, not_false_eq_true, if_true]
    rw [hcode]
    rfl

/-- What `closeSessionInternal` makes of an answer with an error. -/
theorem closeSessionInternal_answered {r : McpResponse}
    (hid : r.rspId = mcMcpCmdCloseSession ||| flagResponse) (hresult : r.result ≠ mcMcpRetOk) :
    closeSessionInternal (some r) = makeMcDrvMcpError r.result := by
  simp only [closeSessionInternal, sendSessionCloseCmd, ne_eq, hid, not_true_eq_false, if_false,
    hresult]

/-- Two codes below 256 are told apart when they are wrapped. -/
theorem makeMcDrvMcpError_inj {c d : UInt32} (hc : c < 256) (hd : d < 256)
    (h : makeMcDrvMcpError c = makeMcDrvMcpError d) : c = d := by
  have hmcp := congrArg mcDrvErrorMcp h
  rwa [mcp_makeMcDrvMcpError, mcp_makeMcDrvMcpError, major_of_lt hc, major_of_lt hd] at hmcp

theorem closeSession_reports (v : TrustletSession) (rsp again : Option McpResponse) :
    CloseReports v rsp again where
  deferred := by
    rintro r rfl hid hresult hgp
    have hcode : closeSessionInternal (some r) = makeMcDrvMcpError mcMcpRetErrCloseTaskFailed := by
      rw [closeSessionInternal_answered hid (by rw [hresult]; decide), hresult]
    unfold closeSession
    dsimp only
    rw [hcode, if_pos ⟨hgp, rfl⟩]
    by_cases hdead : v.sessionState = .taDead
    · by_cases hok : closeSessionInternal again = mcMcpRetOk
      · simp [hdead, hok]
      · simp [hdead, hok]
    · simp [hdead]
  answered := by
    rintro r rfl hid hresult hlt
    have hcode := closeSessionInternal_answered hid hresult
    refine ⟨?_, ?_, ?_⟩
    · rw [hcode, major_makeMcDrvMcpError]
    · rw [hcode, mcp_makeMcDrvMcpError, major_of_lt hlt]
    · by_cases hdefer : v.gpLevel = 1 ∧ r.result = mcMcpRetErrCloseTaskFailed
      · exact .inl hdefer
      · refine .inr ⟨makeMcDrvMcpError (makeMcDrvMcpError r.result), ?_,
          major_makeMcDrvMcpError _⟩
        have hdifferent : ¬ (v.gpLevel = 1 ∧
            makeMcDrvMcpError r.result = makeMcDrvMcpError mcMcpRetErrCloseTaskFailed) := by
          rintro ⟨hgp, heq⟩
          exact hdefer ⟨hgp, makeMcDrvMcpError_inj hlt (by decide) heq⟩
        have herror : makeMcDrvMcpError r.result ≠ mcMcpRetOk := makeMcDrvMcpError_ne_ok _
        unfold closeSession
        dsimp only
        rw [hcode, if_neg hdifferent, if_pos herror]

/-- **Error codes survive.**  Of open, check-load, map, unmap, get-version and load-token every
error of the secure world reaches the caller, and no local failure looks like one; a close tells
that the secure world refused it, unless the clean-up of a GP session is put off. -/
theorem codes_survive (op : Operation) (v : TrustletSession) (rsp again : Option McpResponse) :
    Survives op.cmdId rsp (op.result rsp) ∧ CloseReports v rsp again := by
  rw [op.result_eq]
  exact ⟨resultCode_survives op.cmdId rsp, closeSession_reports v rsp again⟩

/-- A running GP session, and the answer that its task cannot be closed yet. -/
def runningSession : TrustletSession :=
  { TrustletSession.new 0x1000 77 1 5 with gpLevel := 1, sessionState := .closeSend }

def closeTaskFailed : McpResponse :=
  ⟨mcMcpCmdCloseSession ||| flagResponse, mcMcpRetErrCloseTaskFailed, 0, 0⟩

theorem not_survives_closeTaskFailed :
    ∃ code, closeSession runningSession (some closeTaskFailed) none = some code ∧
      ¬ Survives mcMcpCmdCloseSession (some closeTaskFailed) code := by
  refine ⟨mcMcpRetOk, by decide, fun h => ?_⟩
  have hmajor := (h.answered closeTaskFailed rfl rfl (by decide) (by decide)).1
  exact absurd hmajor (by decide)

/-- A close that fails otherwise wraps what `closeSessionInternal` returned: its MCP part is the
driver's own MC_DRV_ERR_MCP_ERROR, whatever the exchange ended with. -/
theorem closeSession_wrapsTwice {v : TrustletSession} {rsp : Option McpResponse}
    (again : Option McpResponse) (hfail : closeSessionInternal rsp ≠ mcMcpRetOk)
    (hdifferent : ¬ (v.gpLevel = 1 ∧
      closeSessionInternal rsp = makeMcDrvMcpError mcMcpRetErrCloseTaskFailed)) :
    ∃ code, closeSession v rsp again = some code ∧ mcDrvErrorMcp code = mcDrvErrMcpError := by
  have hwrapped : ∃ c, closeSessionInternal rsp = makeMcDrvMcpError c := by
    unfold closeSessionInternal at hfail ⊢
    dsimp only at hfail ⊢
    split_ifs at hfail ⊢ with hok
    · exact absurd hok hfail
    · exact ⟨_, rfl⟩
  obtain ⟨c, hc⟩ := hwrapped
  refine ⟨makeMcDrvMcpError (closeSessionInternal rsp), ?_, ?_⟩
  · unfold closeSession
    dsimp only
    rw [if_neg hdifferent, if_pos hfail]
  · rw [mcp_makeMcDrvMcpError, hc, major_makeMcDrvMcpError]

end Device.MobiCoreDevice

end McDaemon
