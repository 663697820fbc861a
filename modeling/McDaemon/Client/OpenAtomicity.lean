/-
# McDaemon.Client.OpenAtomicity — what a failing open leaves behind.

The steps of an open call are taken one by one, with the condition under which each of its exits
leaves no trace.  Behind the command a failing call leaves what was there when the command had been
sent, so what matters is whether a handle had been registered by then and whether the daemon opened
a session on the command.  A call that succeeds has made a session object that knows the handle.
-/
import McDaemon.Client.OpenSession

namespace McDaemon.Client

open McDaemon.Lib
open McDaemon.Lib.Attempt
open McDaemon.Registry (Uuid Spid)

/-! ## The exits -/

/-- A failing call leaves no trace: no session object, no registered handle, no session in the
daemon. -/
structure Undone (before after : World) : Prop where
  sessionList : after.device.map Device.sessionList = before.device.map Device.sessionList
  registered : after.registered = before.registered
  daemonSessions : after.daemonSessions = before.daemonSessions

section Steps

variable {α : Type} {P : α → World → Prop} {Q : McResult → World → Prop} {a : Answers} {w : World}

/-- What the caller is told and what is sent are no trace. -/
theorem undone_told {before : World} {sessionId : UInt32} {sent : List Request} :
    Undone before { w with sessionId := sessionId, sent := sent } ↔ Undone before w := by
  constructor
  · intro h
    exact ⟨h.sessionList, h.registered, h.daemonSessions⟩
  · intro h
    exact ⟨h.sessionList, h.registered, h.daemonSessions⟩

/-- Behind the command only the session object is made, and only when nothing can fail any more:
for what a failing call leaves it matters what was there when the command had been sent. -/
theorem ends_connectSession {before : World} {bulkBuf : Option BulkBufferDescriptor} :
    Ends (fun _ _ => True) (fun e t => e ≠ mcDrvOk → Undone before t) (connectSession a bulkBuf) w ↔
      a.Accept ∨ Undone before w := by
  have hopen : ∀ c : McResult, (c ≠ mcDrvOk → openError c ≠ mcDrvOk → False) ↔ c = mcDrvOk := by
    intro c
    constructor
    · intro h
      by_contra hc
      exact h hc (openError_ne_ok hc)
    · intro hc hne
      exact absurd hc hne
  have hunreachable : (mcDrvErrDaemonUnreachable ≠ mcDrvOk → False) ↔ False := by decide
  simp only [connectSession, ends_bind, ends_recvFromDaemon 4 (by decide),
    ends_recvFromDaemon 12 (by decide), ends_ite, ends_throw, ends_modify,
    ends_sendToDaemon, undone_told]
  by_cases hundone : Undone before w
  · simp [hundone]
  · -- Every exit before the session object is closed to a failing call.
    simp only [hundone, hopen, hunreachable, or_false]
    constructor
    · -- one exit after the other, in the order of the code
      rintro ⟨h, hresponse⟩
      obtain ⟨hok, h⟩ := h (of_not_not hresponse)
      obtain ⟨h, hpayload⟩ := h (not_not_intro hok)
      obtain ⟨hconnect, h⟩ := h (of_not_not hpayload)
      obtain ⟨h, hsend⟩ := h hconnect
      obtain ⟨h, hnq⟩ := h (Bool.eq_true_of_not_eq_false hsend)
      obtain ⟨hnqOk, -⟩ := h (of_not_not hnq)
      exact {
        response := ⟨of_not_not hresponse, hok⟩
        payload := of_not_not hpayload
        connect := Bool.eq_true_of_not_eq_false hconnect
        sendNqConnect := Bool.eq_true_of_not_eq_false hsend
        nqResponse := ⟨of_not_not hnq, of_not_not fun hne => hnqOk hne hne⟩ }
    · intro h
      simp [h.response, h.payload, h.connect, h.sendNqConnect, h.nqResponse]

/-- An exit behind the command leaves no trace exactly when the daemon has opened nothing. -/
theorem undone_opened {before : World} (h : w.daemonSessions = before.daemonSessions) {sent} :
    Undone before { w with daemonSessions := w.daemonSessions ++ a.opened.toList, sent := sent } ↔
      Undone before w ∧ a.opened = none := by
  constructor
  · intro hundone
    have hopened : w.daemonSessions ++ a.opened.toList = w.daemonSessions :=
      hundone.daemonSessions.trans h.symm
    refine ⟨⟨hundone.sessionList, hundone.registered, h⟩, ?_⟩
    exact Option.toList_eq_nil_iff.mp (List.append_right_eq_self.mp hopened)
  · rintro ⟨hundone, hnone⟩
    refine ⟨hundone.sessionList, hundone.registered, ?_⟩
    simp [hnone, h]

/-- The mapped TCI is registered for good. -/
theorem not_undone_registered {handle : UInt32} :
    ¬ Undone w { w with registered := w.registered ++ [handle] } := by
  intro h
  have hnil : [handle] = [] := List.append_right_eq_self.mp h.registered
  cases hnil

theorem undone_refl : Undone w w := ⟨rfl, rfl, rfl⟩

/-- What a call does with the handle of its TCI: `rest` succeeds if `c` holds, and otherwise it
leaves no trace if `d` holds and there was none. -/
theorem ends_tciHandle_bind {maps : Bool} {device : Device} {tci : Addr} {len : UInt32}
    {rest : UInt32 × Option BulkBufferDescriptor → Call Unit} {c d : Prop}
    (hrest : ∀ p v, v.daemonSessions = w.daemonSessions →
      (Ends (fun _ _ => True) (fun e t => e ≠ mcDrvOk → Undone w t) (rest p) v ↔
        c ∨ Undone w v ∧ d)) :
    Ends (fun _ _ => True) (fun e t => e ≠ mcDrvOk → Undone w t)
        (tciHandle a maps device tci len >>= rest) w ↔
      TciRefused a maps device tci len ∨
      c ∨ ¬ (device.findContiguousWsm tci = none ∧ maps = true) ∧ d := by
  have hplain : ∀ p,
      Ends (fun _ _ => True) (fun e t => e ≠ mcDrvOk → Undone w t) (rest p) w ↔ c ∨ d := by
    intro p
    rw [hrest p w rfl, and_iff_right undone_refl]
  rw [ends_bind, ends_tciHandle, TciRefused]
  cases device.findContiguousWsm tci with
  | some pWsm =>
    by_cases hlen : pWsm.len < len
    · simp [hlen, undone_refl]
    · simp [hlen, hplain]
  | none =>
    cases maps with
    | false =>
      by_cases hlen : len = 0
      · simp [hlen, hplain]
      · simp [hlen, undone_refl]
    | true =>
      cases a.registerWsmL2 with
      | error ret => simp [undone_refl]
      | ok handle =>
        -- behind the registration only success is left
        simp [hrest, not_undone_registered]

/-- The exits of an open call that names a UUID, behind its TCI. -/
theorem ends_openByUuid_rest {before : World} {r : Request}
    {bulkBuf : Option BulkBufferDescriptor} (h : w.daemonSessions = before.daemonSessions) :
    Ends (fun _ _ => True) (fun e t => e ≠ mcDrvOk → Undone before t)
        (do
          sendToDaemon a.sendCommand r
          daemonOpens a
          connectSession a bulkBuf) w ↔
      (a.sendCommand = true ∧ a.Accept) ∨
        Undone before w ∧ (a.sendCommand = false ∨ a.opened = none) := by
  simp only [ends_bind, ends_sendToDaemon, daemonOpens, ends_modify, ends_connectSession,
    undone_opened h]
  cases a.sendCommand with
  | true => simp
  | false => simp [show mcDrvErrSocketWrite ≠ mcDrvOk by decide]

/-- The exits of `mcOpenTrustlet_` behind its TCI. -/
theorem ends_openTrustlet_rest {before : World} {r : Request} {tlen : UInt32} {data : List UInt8}
    {bulkBuf : Option BulkBufferDescriptor} (h : w.daemonSessions = before.daemonSessions) :
    Ends (fun _ _ => True) (fun e t => e ≠ mcDrvOk → Undone before t)
        (do
          sendToDaemon a.sendCommand r
          if trustletSent a tlen then
            modify fun w => { w with sent := w.sent ++ [.trustletData (data.take tlen.toNat)] }
            daemonOpens a
          if writeData (trustletSent a tlen) tlen < 0 then throw mcDrvErrSocketWrite
          connectSession a bulkBuf) w ↔
      ((a.sendCommand && trustletSent a tlen) = true ∧ tlen < 0x80000000 ∧ a.Accept) ∨
        Undone before w ∧
          ((a.sendCommand && trustletSent a tlen) = false ∨ a.opened = none) := by
  have hwrite : mcDrvErrSocketWrite ≠ mcDrvOk := by decide
  simp only [ends_bind, ends_sendToDaemon, daemonOpens, ends_ite, ends_throw, ends_modify,
    ends_connectSession, undone_opened h, undone_told, writeData_neg_iff]
  cases a.sendCommand with
  | false => simp [hwrite]
  | true =>
    cases trustletSent a tlen with
    | false => simp [hwrite]
    | true =>
      -- all is sent, and the length may still be taken for an error
      by_cases htlen : tlen < 0x80000000
      · simp [htlen]
      · simp [htlen, hwrite]

theorem ends_openByUuid {command : UInt32 → Uuid → UInt32 → UInt32 → UInt32 → Request}
    {uuid : Option Uuid} {tci : Addr} {len : UInt32} :
    Ends (fun _ _ => True) (fun e t => e ≠ mcDrvOk → Undone w t)
        (openByUuid command a uuid tci len) w ↔
      (OpenCall.session uuid tci len).Refused a w ∨ (OpenCall.session uuid tci len).Succeeds a ∨
        ¬ (OpenCall.session uuid tci len).Maps w ∧
          (OpenCall.session uuid tci len).NothingOpened a := by
  unfold openByUuid OpenCall.Refused
  rw [ends_bind, ends_checkDevice]
  cases hdevice : w.device with
  | none => simp [undone_refl]
  | some device =>
    dsimp only
    rw [ends_bind, ends_checkNotNull]
    cases uuid with
    | none => simp [undone_refl, OpenCall.NullArgument]
    | some uuid =>
      dsimp only
      by_cases hlen : mcMaxTciLen < len
      · simp [hlen, undone_refl, OpenCall.len]
      · rw [if_neg hlen, ends_tciHandle_bind (fun p v hv => ends_openByUuid_rest hv)]
        simp [OpenCall.NullArgument, OpenCall.len, hlen, OpenCall.tci, OpenCall.mapsTci,
          OpenCall.Succeeds, OpenCall.commandSent, OpenCall.FitsInt, OpenCall.Maps, hdevice,
          OpenCall.NothingOpened]

theorem ends_mcOpenTrustlet {spid : Spid} {data : Option (List UInt8)} {tlen : UInt32}
    {tci : Addr} {len : UInt32} :
    Ends (fun _ _ => True) (fun e t => e ≠ mcDrvOk → Undone w t)
        (mcOpenTrustlet_ a spid data tlen tci len) w ↔
      (OpenCall.trustlet spid data tlen tci len).Refused a w ∨
        (OpenCall.trustlet spid data tlen tci len).Succeeds a ∨
        ¬ (OpenCall.trustlet spid data tlen tci len).Maps w ∧
          (OpenCall.trustlet spid data tlen tci len).NothingOpened a := by
  unfold mcOpenTrustlet_ OpenCall.Refused
  rw [ends_bind, ends_checkDevice]
  cases hdevice : w.device with
  | none => simp [undone_refl]
  | some device =>
    dsimp only
    rw [ends_bind, ends_checkNotNull]
    cases data with
    | none => simp [undone_refl, OpenCall.NullArgument]
    | some data =>
      dsimp only
      by_cases htci : tci = 0
      · simp [htci, undone_refl, OpenCall.NullArgument]
      · rw [if_neg htci]
        by_cases hlen : mcMaxTciLen < len
        · simp [hlen, undone_refl, OpenCall.len]
        · rw [if_neg hlen, ends_tciHandle_bind (fun p v hv => ends_openTrustlet_rest hv)]
          simp [OpenCall.NullArgument, htci, OpenCall.len, hlen, OpenCall.tci, OpenCall.mapsTci,
            OpenCall.Succeeds, OpenCall.commandSent, OpenCall.FitsInt, OpenCall.Maps, hdevice,
            OpenCall.NothingOpened]

/-! ## Successful calls -/

/-- What a call has brought about that succeeds: a session object under the id that the caller is
told, which knows the handle if one has been registered, and whatever the daemon has opened. -/
def Opened (a : Answers) (before after : World) : Prop :=
  ∃ (device : Device) (bulkBuf : Option BulkBufferDescriptor),
    before.device = some device ∧
    (∀ b ∈ bulkBuf, a.registerWsmL2 = .ok b.handle) ∧
    after.device = some (device.createNewSession after.sessionId bulkBuf) ∧
    after.registered = before.registered ++ bulkBuf.toList.map (·.handle) ∧
    after.daemonSessions = before.daemonSessions ++ a.opened.toList

theorem ends_connectSession_opened {before : World} {device : Device}
    {bulkBuf : Option BulkBufferDescriptor} (hsome : before.device = some device)
    (hbulkBuf : ∀ b ∈ bulkBuf, a.registerWsmL2 = .ok b.handle)
    (hdevice : w.device = before.device)
    (hregistered : w.registered = before.registered ++ bulkBuf.toList.map (·.handle))
    (hsessions : w.daemonSessions = before.daemonSessions ++ a.opened.toList) :
    Ends (fun _ t => Opened a before t) (fun e t => e ≠ mcDrvOk ∧ t.device = before.device)
      (connectSession a bulkBuf) w := by
  simp only [connectSession, ends_bind, ends_recvFromDaemon 4 (by decide),
    ends_recvFromDaemon 12 (by decide), ends_ite, ends_throw, ends_modify,
    ends_sendToDaemon, hdevice, and_true]
  have hopened : ∀ sessionId sent, Opened a before
      { w with
        device := some (device.createNewSession sessionId bulkBuf)
        sessionId := sessionId
        sent := sent } := by
    intro sessionId sent
    exact ⟨device, bulkBuf, hsome, hbulkBuf, rfl, hregistered, hsessions⟩
  simp +contextual [hsome, hopened, openError_ne_ok]

/-- What a call does with its TCI registers at most the handle that `rest` is told of. -/
theorem ends_tciHandle_opened {maps : Bool} {device : Device} {tci : Addr} {len : UInt32}
    {rest : UInt32 × Option BulkBufferDescriptor → Call Unit}
    (hrest : ∀ p v, (∀ b ∈ p.2, a.registerWsmL2 = .ok b.handle) → v.device = w.device →
      v.registered = w.registered ++ p.2.toList.map (·.handle) →
      v.daemonSessions = w.daemonSessions →
      Ends (fun _ t => Opened a w t) (fun e t => e ≠ mcDrvOk ∧ t.device = w.device) (rest p) v) :
    Ends (fun _ t => Opened a w t) (fun e t => e ≠ mcDrvOk ∧ t.device = w.device)
      (tciHandle a maps device tci len >>= rest) w := by
  have hplain : ∀ handle, Ends (fun _ t => Opened a w t)
      (fun e t => e ≠ mcDrvOk ∧ t.device = w.device) (rest (handle, none)) w := by
    intro handle
    exact hrest _ w (fun b hb => nomatch hb) rfl (List.append_nil _).symm rfl
  rw [ends_bind, ends_tciHandle]
  cases device.findContiguousWsm tci with
  | some pWsm => simp [hplain]
  | none =>
    cases maps with
    | false => simp [hplain]
    | true =>
      cases hregister : a.registerWsmL2 with
      | error ret => simp
      | ok handle => simp [hrest, hregister]

theorem ends_openByUuid_opened {command : UInt32 → Uuid → UInt32 → UInt32 → UInt32 → Request}
    {uuid : Option Uuid} {tci : Addr} {len : UInt32} :
    Ends (fun _ t => Opened a w t) (fun e t => e ≠ mcDrvOk ∧ t.device = w.device)
      (openByUuid command a uuid tci len) w := by
  unfold openByUuid
  rw [ends_bind, ends_checkDevice]
  split
  · exact ⟨deviceNotOpen_ne_ok, rfl⟩
  · next device hsome =>
    rw [ends_bind, ends_checkNotNull]
    split
    · exact ⟨invalidParameter_ne_ok, rfl⟩
    · split_ifs with hlen
      · simp
      · apply ends_tciHandle_opened
        intro p v hbulkBuf hdevice hregistered hsessions
        simp only [ends_bind, ends_sendToDaemon, daemonOpens, ends_modify]
        constructor
        · intro _
          apply ends_connectSession_opened hsome hbulkBuf
          · exact hdevice
          · exact hregistered
          · simp [hsessions]
        · intro _
          exact ⟨daemonUnreachable_ne_ok, hdevice⟩

theorem ends_mcOpenTrustlet_opened {spid : Spid} {data : Option (List UInt8)} {tlen : UInt32}
    {tci : Addr} {len : UInt32} :
    Ends (fun _ t => Opened a w t) (fun e t => e ≠ mcDrvOk ∧ t.device = w.device)
      (mcOpenTrustlet_ a spid data tlen tci len) w := by
  unfold mcOpenTrustlet_
  rw [ends_bind, ends_checkDevice]
  split
  · exact ⟨deviceNotOpen_ne_ok, rfl⟩
  · next device hsome =>
    rw [ends_bind, ends_checkNotNull]
    split
    · exact ⟨invalidParameter_ne_ok, rfl⟩
    · by_cases htci : tci = 0
      · simp [htci]
      · rw [if_neg htci]
        by_cases hlen : mcMaxTciLen < len
        · simp [hlen]
        · rw [if_neg hlen]
          apply ends_tciHandle_opened
          intro p v hbulkBuf hdevice hregistered hsessions
          simp only [ends_bind, ends_sendToDaemon, daemonOpens, ends_ite, ends_throw, ends_modify,
            writeData_neg_iff]
          have hfail := And.intro daemonUnreachable_ne_ok hdevice
          refine ⟨fun _ => ⟨fun hsent => ⟨fun _ => hfail, fun _ => ?_⟩, fun hsent => ?_⟩,
            fun _ => hfail⟩
          · apply ends_connectSession_opened hsome hbulkBuf
            · exact hdevice
            · exact hregistered
            · simp [hsessions]
          · simp [hsent, hdevice]

end Steps

/-! ## Atomicity -/

namespace OpenCall

theorem body_opened (call : OpenCall) (a : Answers) (w : World) :
    Ends (fun _ t => Opened a w t) (fun e t => e ≠ mcDrvOk ∧ t.device = w.device) (call.body a) w := by
  cases call with
  | session uuid tci len => exact ends_openByUuid_opened
  | trustlet spid data tlen tci len => exact ends_mcOpenTrustlet_opened
  | gpta uuid tci len => exact ends_openByUuid_opened

theorem undone_iff_ends {call : OpenCall} {a : Answers} {w : World} :
    ((call.run a w).1 ≠ mcDrvOk → Undone w (call.run a w).2) ↔
      Ends (fun _ _ => True) (fun e t => e ≠ mcDrvOk → Undone w t) (call.body a) w := by
  unfold run Ends
  rcases start (call.body a) w with ⟨_ | _, t⟩
  · rfl
  · simp

/-- **A failing open leaves no trace in three cases only.** It has been turned down before the
daemon was asked; or nothing else fails, so that it does not fail; or its TCI was not mapped and
the daemon opened no session. -/
theorem open_atomic_iff (call : OpenCall) (a : Answers) (w : World) :
    ((call.run a w).1 ≠ mcDrvOk → Undone w (call.run a w).2) ↔
      call.Refused a w ∨ call.Succeeds a ∨ ¬ call.Maps w ∧ call.NothingOpened a := by
  rw [undone_iff_ends]
  cases call with
  | session uuid tci len => exact ends_openByUuid
  | trustlet spid data tlen tci len => exact ends_mcOpenTrustlet
  | gpta uuid tci len => exact ends_openByUuid

/-- A run ends as its body does. -/
theorem run_ends {P : World → Prop} {Q : McResult → World → Prop} {call : OpenCall} {a : Answers}
    {w : World} (h : Ends (fun _ => P) Q (call.body a) w) :
    (call.run a w).1 = mcDrvOk ∧ P (call.run a w).2 ∨ Q (call.run a w).1 (call.run a w).2 := by
  unfold Ends at h
  unfold run
  rcases hstart : start (call.body a) w with ⟨_ | _, t⟩
  · rw [hstart] at h
    exact Or.inr h
  · rw [hstart] at h
    exact Or.inl ⟨rfl, h⟩

/-- Whatever fails, the device is left alone. -/
theorem device_of_failure {call : OpenCall} {a : Answers} {w : World}
    (h : (call.run a w).1 ≠ mcDrvOk) : (call.run a w).2.device = w.device := by
  rcases run_ends (call.body_opened a w) with ⟨hok, -⟩ | ⟨-, hdevice⟩
  · exact absurd hok h
  · exact hdevice

/-- **A successful open.** The new session object knows every handle that has been registered. -/
theorem opened_of_ok {call : OpenCall} {a : Answers} {w : World}
    (h : (call.run a w).1 = mcDrvOk) : Opened a w (call.run a w).2 := by
  rcases run_ends (call.body_opened a w) with ⟨-, hopened⟩ | ⟨hne, -⟩
  · exact hopened
  · exact absurd h hne

/-- Nothing open, nothing registered. -/
def freshWorld : World :=
  { device := some ⟨[], [], true⟩, sessionId := 0, registered := [], daemonSessions := [],
    sent := [] }

/-- The kernel module registers the TCI under handle 7 and the daemon opens session 3, but it does
not take the second connection. -/
def secondConnectionFails : Answers :=
  { registerWsmL2 := .ok 7, sendCommand := true, sendTrustlet := true, opened := some 3,
    response := le32 mcDrvOk, payload := le32 3 ++ le32 1 ++ le32 0x55, stack := [],
    connect := false, sendNqConnect := false, nqResponse := [] }

theorem failing_open_leaves_trace :
    ((session (some (Vector.replicate 16 1)) 0x1000 0x800).run secondConnectionFails freshWorld).1 =
        mcDrvErrSocketConnect ∧
      ¬ Undone freshWorld ((session (some (Vector.replicate 16 1)) 0x1000 0x800).run
        secondConnectionFails freshWorld).2 := by
  constructor
  · decide
  · intro h
    exact absurd h.registered (by decide)

end OpenCall

end McDaemon.Client
