/-
# McDaemon.Client.GpSessions — the table of GP sessions beside the device.

The driver client keeps the TCI of every GP session that it has opened, so that a cancellation can
be written there.  The device keeps its own list of sessions.  Both lists are changed together when
a session is opened or closed, but a device that goes takes only its own list with it: a close on a
dead daemon deletes the device with its sessions, and an open replaces it.  What is left in the
table then is written to when a later session has the same id.
-/
import McDaemon.Client.DriverMap
import McDaemon.Lib.Machine

namespace McDaemon.Client.GpTable

open McDaemon.Lib
open McDaemon.Client.Bulk (Errno setErrnoFromMcresult)

/-! ## State -/

/-- A session of the device; a GP session has a TCI. -/
structure DeviceSession where
  id : UInt32
  gp : Option Addr
deriving DecidableEq, Repr

/-- `Impl::GpSession`. -/
structure GpSession where
  id : UInt32
  tci : Addr
deriving DecidableEq, Repr

/-- `DriverClient::Impl`: the table, and the sessions of the device, if there is one. -/
structure DriverClient where
  gpSessions : List GpSession
  device : Option (List DeviceSession)
deriving DecidableEq, Repr

/-- What a call leaves: `errno` where it fails, the client, and the TCIs that it has written to. -/
structure Outcome where
  errno : Option Errno
  client : DriverClient
  cancelled : List Addr
deriving DecidableEq, Repr

/-! ## The calls -/

/-- `DriverClient::open`: a new device takes the place of whatever there was. -/
def openDevice (s : DriverClient) (mcResult : McResult) : Outcome :=
  if mcResult ≠ mcDrvOk then ⟨setErrnoFromMcresult mcResult, s, []⟩
  else ⟨none, { s with device := some [] }, []⟩

/-- `mcCloseDevice_`; `answer` is what comes of the exchange with a daemon that is alive. -/
def mcCloseDevice_ (device : Option (List DeviceSession)) (alive : Bool) (answer : McResult) :
    McResult :=
  match device with
  | none => mcDrvErrDaemonDeviceNotOpen
  | some sessions =>
    if alive = false then mcDrvErrDaemonUnreachable
    else if sessions ≠ [] then mcDrvErrSessionPending
    else answer

/-- `DriverClient::close`. -/
def close (s : DriverClient) (alive : Bool) (answer : McResult) : Outcome :=
  let mcResult := mcCloseDevice_ s.device alive answer
  ⟨setErrnoFromMcresult mcResult,
    if mcResult ≠ mcDrvErrSessionPending then { s with device := none } else s, []⟩

/-- `mcOpenGPTA_`, `mcOpenSession_` and `mcOpenTrustlet_`: the session that has been opened is on
the list of the device. -/
def mcOpen (s : DriverClient) (gp : Option Addr) (mcResult : McResult) (sid : UInt32) :
    McResult × DriverClient :=
  match s.device with
  | none => (mcDrvErrDaemonDeviceNotOpen, s)
  | some sessions =>
    if mcResult ≠ mcDrvOk then (mcResult, s)
    else (mcDrvOk, { s with device := some (sessions ++ [⟨sid, gp⟩]) })

/-- `DriverClient::openSession`; `gp` is the TCI of a GP session. -/
def openSession (s : DriverClient) (loginPublic : Bool) (gp : Option Addr) (mcResult : McResult)
    (sid : UInt32) : Outcome :=
  if loginPublic = false then ⟨some .EINVAL, s, []⟩
  else
    let (mcResult, s) := mcOpen s gp mcResult sid
    if mcResult ≠ mcDrvOk then ⟨setErrnoFromMcresult mcResult, s, []⟩
    else
      match gp with
      | none => ⟨none, s, []⟩
      | some tci => ⟨none, { s with gpSessions := s.gpSessions ++ [⟨sid, tci⟩] }, []⟩

/-- `DriverClient::openTrustlet`. -/
def openTrustlet (s : DriverClient) (mcResult : McResult) (sid : UInt32) : Outcome :=
  let (mcResult, s) := mcOpen s none mcResult sid
  ⟨setErrnoFromMcresult mcResult, s, []⟩

/-- `mcCloseSession_`; `answer` is what comes of the exchange. -/
def mcCloseSession_ (s : DriverClient) (sid : UInt32) (answer : McResult) :
    McResult × DriverClient :=
  match s.device with
  | none => (mcDrvErrDaemonDeviceNotOpen, s)
  | some sessions =>
    if sessions.find? (·.id = sid) = none then (mcDrvErrUnknownSession, s)
    else if answer ≠ mcDrvOk then (answer, s)
    else (mcDrvOk, { s with device := some (sessions.eraseP (·.id = sid)) })

/-- `DriverClient::closeSession`. -/
def closeSession (s : DriverClient) (sid : UInt32) (answer : McResult) : Outcome :=
  let (mcResult, s) := mcCloseSession_ s sid answer
  if mcResult ≠ mcDrvOk then ⟨setErrnoFromMcresult mcResult, s, []⟩
  else ⟨none, { s with gpSessions := s.gpSessions.eraseP (·.id = sid) }, []⟩

/-- `mcNotify_`. -/
def mcNotify_ (s : DriverClient) (sid : UInt32) (sent : Bool) : McResult :=
  match s.device with
  | none => mcDrvErrDaemonDeviceNotOpen
  | some sessions =>
    if sessions.find? (·.id = sid) = none then mcDrvErrUnknownSession
    else if sent = false then mcDrvErrSocketWrite
    else mcDrvOk

/-- `DriverClient::gpRequestCancellation`: every entry with the id is written to. -/
def gpRequestCancellation (s : DriverClient) (sid : UInt32) (sent : Bool) : Outcome :=
  let found := (s.gpSessions.filter (·.id = sid)).map GpSession.tci
  if found = [] then ⟨some .ENOENT, s, []⟩
  else ⟨setErrnoFromMcresult (mcNotify_ s sid sent), s, found⟩

/-! ## Runs -/

/-- A call, with what the kernel module and the daemon make of it. -/
inductive Call
  | openDevice (mcResult : McResult)
  | close (alive : Bool) (answer : McResult)
  | openSession (loginPublic : Bool) (gp : Option Addr) (mcResult : McResult) (sid : UInt32)
  | openTrustlet (mcResult : McResult) (sid : UInt32)
  | closeSession (sid : UInt32) (answer : McResult)
  | gpRequestCancellation (sid : UInt32) (sent : Bool)
deriving DecidableEq, Repr

def Call.outcome (s : DriverClient) : Call → Outcome
  | .openDevice mcResult => GpTable.openDevice s mcResult
  | .close alive answer => GpTable.close s alive answer
  | .openSession loginPublic gp mcResult sid => GpTable.openSession s loginPublic gp mcResult sid
  | .openTrustlet mcResult sid => GpTable.openTrustlet s mcResult sid
  | .closeSession sid answer => GpTable.closeSession s sid answer
  | .gpRequestCancellation sid sent => GpTable.gpRequestCancellation s sid sent

def DriverClient.init : DriverClient := ⟨[], none⟩

def gpMachine : Machine DriverClient Call where
  init := fun s => s = .init
  step := fun s c => some (c.outcome s).client

/-- The device has one session with an id, a GP session with the TCI. -/
def IsOpen (s : DriverClient) (sid : UInt32) (tci : Addr) : Prop :=
  ∃ sessions, s.device = some sessions ∧ sessions.filter (·.id = sid) = [⟨sid, some tci⟩]

/-- Every entry of the table is that of a GP session that is open, and no two have the same id. -/
structure Follows (s : DriverClient) : Prop where
  nodup : (s.gpSessions.map GpSession.id).Nodup
  isOpen : ∀ g ∈ s.gpSessions, IsOpen s g.id g.tci

/-- A cancellation is written to the one session that is open with the id, if at all. -/
def CancelsOwn (s : DriverClient) : Call → Prop
  | .gpRequestCancellation sid sent =>
    (gpRequestCancellation s sid sent).cancelled = [] ∨
      ∃ tci, IsOpen s sid tci ∧ (gpRequestCancellation s sid sent).cancelled = [tci]
  | _ => True

/-- The device goes only when the table is empty, and the daemon gives no id that is in use: for a
GP session none that the device has, for another none that is in the table. -/
def Careful (s : DriverClient) : Call → Prop
  | .openDevice mcResult => mcResult = mcDrvOk → s.gpSessions = []
  | .close alive _ => alive = false → s.gpSessions = []
  | .openSession loginPublic gp mcResult sid =>
    loginPublic = true → mcResult = mcDrvOk → ∀ sessions, s.device = some sessions →
      if gp.isSome then sid ∉ sessions.map DeviceSession.id
      else sid ∉ s.gpSessions.map GpSession.id
  | .openTrustlet mcResult sid =>
    mcResult = mcDrvOk → s.device.isSome → sid ∉ s.gpSessions.map GpSession.id
  | _ => True

/-! ## Opening and closing a session -/

section Sessions

variable {s : DriverClient} {sessions : List DeviceSession} {sid id : UInt32} {tci : Addr}
  {gp : Option Addr} {table : List GpSession}

theorem isOpen_iff (h : s.device = some sessions) :
    IsOpen s id tci ↔ sessions.filter (·.id = id) = [⟨id, some tci⟩] := by
  simp [IsOpen, h]

theorem filter_eq_nil_iff : sessions.filter (·.id = id) = [] ↔
    id ∉ sessions.map DeviceSession.id := by
  simp [List.filter_eq_nil_iff]

/-- The id of an entry of the table is one of the device. -/
theorem Follows.mem_device (h : Follows s) (hdevice : s.device = some sessions)
    (hid : id ∈ s.gpSessions.map GpSession.id) : id ∈ sessions.map DeviceSession.id := by
  obtain ⟨g, hg, rfl⟩ := List.mem_map.mp hid
  have hopen := (isOpen_iff hdevice).mp (h.isOpen g hg)
  by_contra hnot
  rw [filter_eq_nil_iff.mpr hnot] at hopen
  simp at hopen

/-- An empty table follows whatever the device has. -/
theorem follows_of_nil (h : s.gpSessions = []) : Follows s where
  nodup := by simp [h]
  isOpen := by simp [h]

/-- Without a device, the table is empty. -/
theorem Follows.nil_of_none (h : Follows s) (hdevice : s.device = none) : s.gpSessions = [] := by
  refine List.eq_nil_iff_forall_not_mem.mpr fun g hg => ?_
  obtain ⟨sessions, hsome, -⟩ := h.isOpen g hg
  simp [hdevice] at hsome

/-- A device without sessions has an empty table. -/
theorem Follows.nil_of_empty (h : Follows s) (hdevice : s.device = some []) :
    s.gpSessions = [] := by
  refine List.eq_nil_iff_forall_not_mem.mpr fun g hg => ?_
  have hopen := (isOpen_iff hdevice).mp (h.isOpen g hg)
  simp at hopen

/-- A session more on the device: the others with the same id are no longer alone. -/
theorem isOpen_append (hdevice : s.device = some (sessions ++ [⟨sid, gp⟩])) :
    IsOpen s id tci ↔
      if sid = id then id ∉ sessions.map DeviceSession.id ∧ gp = some tci
      else sessions.filter (·.id = id) = [⟨id, some tci⟩] := by
  rw [isOpen_iff hdevice, List.filter_append]
  by_cases hid : sid = id
  · subst hid
    rw [if_pos rfl, ← filter_eq_nil_iff]
    cases hfilter : sessions.filter (·.id = sid) with
    | nil => simp
    | cons x rest => simp
  · rw [if_neg hid]
    simp [hid]

/-- **A GP session more.** -/
theorem follows_gp_iff (h : Follows s) (hdevice : s.device = some sessions) :
    Follows ⟨s.gpSessions ++ [⟨sid, tci⟩], some (sessions ++ [⟨sid, some tci⟩])⟩ ↔
      sid ∉ sessions.map DeviceSession.id := by
  constructor
  · intro hnew
    have hopen := hnew.isOpen ⟨sid, tci⟩ (by simp)
    rw [isOpen_append rfl, if_pos rfl] at hopen
    exact hopen.1
  · intro hfresh
    have hnot : sid ∉ s.gpSessions.map GpSession.id := fun hmem => hfresh (h.mem_device hdevice hmem)
    constructor
    · rw [List.map_append, List.nodup_append]
      refine ⟨h.nodup, List.nodup_singleton _, fun a ha b hb heq => hnot ?_⟩
      have hb : b = sid := List.mem_singleton.mp hb
      exact hb ▸ heq ▸ ha
    · intro g hg
      rw [isOpen_append rfl]
      rcases List.mem_append.mp hg with hg | hg
      · have hne : sid ≠ g.id := fun heq => hnot (heq ▸ List.mem_map_of_mem hg)
        rw [if_neg hne]
        exact (isOpen_iff hdevice).mp (h.isOpen g hg)
      · rw [List.mem_singleton.mp hg, if_pos rfl]
        exact ⟨hfresh, rfl⟩

/-- **Another session more.** -/
theorem follows_other_iff (h : Follows s) (hdevice : s.device = some sessions) :
    Follows ⟨s.gpSessions, some (sessions ++ [⟨sid, none⟩])⟩ ↔
      sid ∉ s.gpSessions.map GpSession.id := by
  constructor
  · intro hnew hmem
    obtain ⟨g, hg, rfl⟩ := List.mem_map.mp hmem
    have hopen := hnew.isOpen g hg
    rw [isOpen_append rfl, if_pos rfl] at hopen
    exact absurd hopen.2 (by simp)
  · intro hfresh
    refine ⟨h.nodup, fun g hg => ?_⟩
    have hne : sid ≠ g.id := by
      rintro rfl
      exact hfresh (List.mem_map_of_mem hg)
    rw [isOpen_append rfl, if_neg hne]
    exact (isOpen_iff hdevice).mp (h.isOpen g hg)

theorem map_eraseP (table : List GpSession) (sid : UInt32) :
    (table.eraseP (·.id = sid)).map GpSession.id = (table.map GpSession.id).erase sid := by
  induction table with
  | nil => rfl
  | cons g table ih =>
    by_cases hg : g.id = sid
    · simp [hg]
    · rw [List.eraseP_cons_of_neg (by simpa using hg), List.map_cons, List.map_cons,
        List.erase_cons_tail (by simpa using hg), ih]

theorem filter_eraseP (hne : sid ≠ id) (sessions : List DeviceSession) :
    (sessions.eraseP (·.id = sid)).filter (·.id = id) = sessions.filter (·.id = id) := by
  induction sessions with
  | nil => rfl
  | cons x sessions ih =>
    by_cases hx : x.id = sid
    · simp [hx, hne]
    · rw [List.eraseP_cons_of_neg (by simpa using hx), List.filter_cons, List.filter_cons, ih]

/-- **A session less**, from both lists. -/
theorem Follows.erase (h : Follows s) (hdevice : s.device = some sessions) (sid : UInt32) :
    Follows ⟨s.gpSessions.eraseP (·.id = sid), some (sessions.eraseP (·.id = sid))⟩ where
  nodup := by
    rw [map_eraseP]
    exact h.nodup.erase sid
  isOpen := by
    intro g hg
    have hmem : g.id ∈ (s.gpSessions.map GpSession.id).erase sid := by
      rw [← map_eraseP]
      exact List.mem_map_of_mem hg
    have hne : sid ≠ g.id := fun heq => (h.nodup.mem_erase_iff.mp hmem).1 heq.symm
    rw [isOpen_iff rfl, filter_eraseP hne]
    exact (isOpen_iff hdevice).mp (h.isOpen g (List.mem_of_mem_eraseP hg))

end Sessions

/-! ## Steps and runs -/

section Steps

variable {s : DriverClient}

/-- What follows the device is cancelled where it should be. -/
theorem Follows.cancelsOwn (h : Follows s) (c : Call) : CancelsOwn s c := by
  cases c with
  | gpRequestCancellation sid sent =>
    show (gpRequestCancellation s sid sent).cancelled = [] ∨ _
    unfold gpRequestCancellation
    cases hfilter : s.gpSessions.filter (·.id = sid) with
    | nil => simp
    | cons g rest =>
      have hg : g ∈ s.gpSessions.filter (·.id = sid) := by simp [hfilter]
      obtain ⟨hmem, hid⟩ := List.mem_filter.mp hg
      obtain rfl : g.id = sid := of_decide_eq_true hid
      -- a second entry would have the same id
      have hrest : rest = [] := by
        have hnodup : ((g :: rest).map GpSession.id).Nodup := by
          rw [← hfilter]
          exact h.nodup.sublist (List.Sublist.map _ List.filter_sublist)
        refine List.eq_nil_iff_forall_not_mem.mpr fun g' hg' => ?_
        rw [List.map_cons, List.nodup_cons] at hnodup
        have hid' : g'.id = g.id := by
          have hmem' : g' ∈ s.gpSessions.filter (·.id = g.id) := by simp [hfilter, hg']
          exact of_decide_eq_true (List.mem_filter.mp hmem').2
        exact hnodup.1 (hid' ▸ List.mem_map_of_mem hg')
      refine .inr ⟨g.tci, h.isOpen g hmem, ?_⟩
      simp [hrest]
  | _ => trivial

/-- A new device comes without sessions. -/
theorem follows_openDevice_iff (h : Follows s) (mcResult : McResult) :
    Follows (openDevice s mcResult).client ↔ (mcResult = mcDrvOk → s.gpSessions = []) := by
  unfold openDevice
  by_cases hok : mcResult = mcDrvOk
  · rw [if_neg (not_not_intro hok)]
    constructor
    · intro hnew _
      exact hnew.nil_of_empty rfl
    · intro hnil
      exact follows_of_nil (hnil hok)
  · rw [if_pos hok]
    exact iff_of_true h fun heq => absurd heq hok

/-- A device with a daemon that is alive has no sessions when it goes. -/
theorem Follows.nil_of_closed (h : Follows s) {alive : Bool} {answer : McResult}
    (hgone : mcCloseDevice_ s.device alive answer ≠ mcDrvErrSessionPending)
    (hdead : alive = false → s.gpSessions = []) : s.gpSessions = [] := by
  cases hdevice : s.device with
  | none => exact h.nil_of_none hdevice
  | some sessions =>
    by_cases halive : alive = false
    · exact hdead halive
    · rw [hdevice, mcCloseDevice_, if_neg halive] at hgone
      by_cases hempty : sessions = []
      · exact h.nil_of_empty (hempty ▸ hdevice)
      · rw [if_pos hempty] at hgone
        exact absurd rfl hgone

/-- Closing the device, which a dead daemon does not keep from going. -/
theorem follows_close_iff (h : Follows s) (alive : Bool) (answer : McResult) :
    Follows (if mcCloseDevice_ s.device alive answer ≠ mcDrvErrSessionPending then
      { s with device := none } else s) ↔ (alive = false → s.gpSessions = []) := by
  by_cases hpending : mcCloseDevice_ s.device alive answer = mcDrvErrSessionPending
  · -- the device stays, and the daemon is alive
    rw [if_neg (not_not_intro hpending)]
    refine iff_of_true h fun hdead => ?_
    cases hdevice : s.device with
    | none => exact h.nil_of_none hdevice
    | some sessions =>
      rw [hdevice, mcCloseDevice_, if_pos hdead] at hpending
      exact absurd hpending (by decide)
  · rw [if_pos hpending]
    constructor
    · intro hnew _
      exact hnew.nil_of_none rfl
    · intro hdead
      exact follows_of_nil (h.nil_of_closed hpending hdead)

/-- **Each call.** The table follows the device behind a call exactly if the call is careful. -/
theorem follows_step_iff (h : Follows s) (c : Call) : Follows (c.outcome s).client ↔ Careful s c := by
  cases c with
  | openDevice mcResult => exact follows_openDevice_iff h mcResult
  | close alive answer => exact follows_close_iff h alive answer
  | openSession loginPublic gp mcResult sid =>
    show Follows (openSession s loginPublic gp mcResult sid).client ↔ Careful s (.openSession _ _ _ _)
    unfold openSession mcOpen Careful
    cases loginPublic with
    | false => simp [h]
    | true =>
      cases hdevice : s.device with
      | none => simp [h]
      | some sessions =>
        by_cases hok : mcResult = mcDrvOk
        · cases gp with
          | none => simpa [hok] using follows_other_iff h hdevice
          | some tci => simpa [hok] using follows_gp_iff h hdevice
        · simp [hok, h]
  | openTrustlet mcResult sid =>
    show Follows (openTrustlet s mcResult sid).client ↔ Careful s (.openTrustlet _ _)
    unfold openTrustlet mcOpen Careful
    cases hdevice : s.device with
    | none => simp [h]
    | some sessions =>
      by_cases hok : mcResult = mcDrvOk
      · simpa [hok] using follows_other_iff h hdevice
      · simp [hok, h]
  | closeSession sid answer =>
    have hunknown : mcDrvErrUnknownSession ≠ mcDrvOk := by decide
    refine iff_of_true ?_ trivial
    show Follows (closeSession s sid answer).client
    unfold closeSession mcCloseSession_
    cases hdevice : s.device with
    | none => simpa using h
    | some sessions =>
      by_cases hfind : sessions.find? (·.id = sid) = none
      · simpa [hfind, hunknown] using h
      · by_cases hok : answer = mcDrvOk
        · simpa [hfind, hok] using h.erase hdevice sid
        · simpa [hfind, hok] using h
  | gpRequestCancellation sid sent =>
    refine iff_of_true ?_ trivial
    show Follows (gpRequestCancellation s sid sent).client
    unfold gpRequestCancellation
    by_cases hfound : (s.gpSessions.filter (·.id = sid)).map GpSession.tci = []
    · simpa only [hfound, if_true] using h
    · simpa only [hfound, if_false] using h

end Steps

/-- **When the table follows the device.** -/
theorem follows_iff (calls : List Call) :
    (gpMachine.RunStays Follows .init calls ∧ gpMachine.RunMeets CancelsOwn .init calls) ↔
      gpMachine.RunMeets Careful .init calls := by
  obtain ⟨t, hrun⟩ := gpMachine.exists_run (fun s c => ⟨_, rfl⟩) .init calls
  refine gpMachine.runStays_and_runMeets_iff (fun s hs => hs) (fun s c t hs hstep hc => ?_)
    (fun s c t hs hstep ht _ => ?_) (follows_of_nil rfl) hrun
  · obtain rfl := Option.some.inj hstep
    exact ⟨(follows_step_iff hs c).mpr hc, hs.cancelsOwn c⟩
  · obtain rfl := Option.some.inj hstep
    exact (follows_step_iff hs c).mp ht

/-- A GP session is open when the daemon dies; the device is closed and opened again, and the new
daemon gives the same id to the next GP session. -/
def reopened : List Call :=
  [.openDevice mcDrvOk, .openSession true (some 0x1000) mcDrvOk 1, .close false mcDrvOk,
    .openDevice mcDrvOk, .openSession true (some 0x2000) mcDrvOk 1, .gpRequestCancellation 1 true]

/-- The cancellation is written into both TCIs. -/
theorem not_follows_reopened : ¬ (gpMachine.RunStays Follows .init reopened ∧
    gpMachine.RunMeets CancelsOwn .init reopened) := by
  rintro ⟨-, -, -, -, -, -, hcancels, -⟩
  have hboth : (gpRequestCancellation ⟨[⟨1, 0x1000⟩, ⟨1, 0x2000⟩], some [⟨1, some 0x2000⟩]⟩ 1
      true).cancelled = [0x1000, 0x2000] := by decide
  rcases hcancels with hnone | ⟨tci, -, hone⟩
  · exact absurd (hboth.symm.trans hnone) (by decide)
  · have hlength := congrArg List.length (hboth.symm.trans hone)
    simp at hlength

end McDaemon.Client.GpTable
