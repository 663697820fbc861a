/-
# McDaemon.Device.CloseLoop — the search-and-close loop behind a dropped client.

`close` looks for a session of its connection, from the back of the list, and hands the id of the
one it finds to `closeSession`, until none is left.  A round makes progress when the session found
under that id belongs to the connection and is a GP session, which is disowned before the
exchange, or is closed by the secure world at once.  Otherwise the list is as before and the loop
goes round for ever.
-/
import McDaemon.Device.Evolution

namespace McDaemon.Device

open McDaemon.Lib

/-! ## The loop -/

/-- The sessions that `conn` owns. -/
def owned (conn : Conn) (s : DeviceState) : Nat :=
  s.trustletSessions.count fun v => v.deviceConnection == some conn

/-- What happens while `closeSession` waits: steps of the other threads, then its wake-up. -/
structure Exchange where
  others : List Concurrent
  wake : McpWake

/-- Wait through one exchange. -/
def DeviceState.await (s : DeviceState) (e : Exchange) : Option DeviceState :=
  machine.run s (e.others.map Action.concurrent ++ [.wake e.wake ⟨0, 0⟩])

/-- The rest of `closeSession` after its first exchange: it may try again. -/
def DeviceState.secondAttempt (s : DeviceState) (e : Exchange) : Option DeviceState :=
  match s.mcp with
  | .closeWait .. => s.await e
  | _ => some s

/-- One round of the loop of `close`: the search, and `closeSession` with its exchange, or with
both when it tries again.  No round starts when the search finds nothing. -/
def closeIteration (s : DeviceState) (e : Exchange × Exchange) : Option DeviceState :=
  match s.mcp with
  | .closeLoop conn _ =>
    if s.lastOwned conn = none then none
    else
      (machine.step s .round).bind fun s =>
        match s.mcp with
        | .closeWait .. => (s.await e.1).bind fun s => s.secondAttempt e.2
        | _ => some s
  | _ => none

/-- The secure world closes a session at the first attempt. -/
def ClosedAtOnce (s : DeviceState) (w : McpWake) : Prop :=
  s.mcFault = false ∧ ∃ rsp, w = .notified rsp ∧
    rsp.rspId = mcMcpCmdCloseSession ||| flagResponse ∧ rsp.result = mcMcpRetOk

/-- A round makes progress: the last session of `conn` has an id under which the list has, first, a
session of `conn`, and that is a GP session or is closed at once. -/
def Closes (conn : Conn) (s : DeviceState) (w : McpWake) : Prop :=
  ∃ p v q x, s.lastOwned conn = some p ∧ s.trustletSessions.get? p = some v ∧
    s.getTrustletSession v.sessionId = some q ∧ s.trustletSessions.get? q = some x ∧
    x.deviceConnection = some conn ∧ (x.gpLevel = 1 ∨ ClosedAtOnce s w)

/-! ## Waiting -/

/-- The other threads have run: the holder is where it was, and nobody's sessions have changed. -/
structure Waited (s t : DeviceState) : Prop where
  mcp : t.mcp = s.mcp
  mcFault : t.mcFault = s.mcFault
  owned : ∀ conn, owned conn t = owned conn s
  sessions : ∀ p v, s.trustletSessions.get? p = some v → ∃ w,
    t.trustletSessions.get? p = some w ∧ w.deviceConnection = v.deviceConnection ∧
      w.gpLevel = v.gpLevel

theorem Waited.refl (s : DeviceState) : Waited s s where
  mcp := rfl
  mcFault := rfl
  owned := fun _ => rfl
  sessions := fun _ v hv => ⟨v, hv, rfl, rfl⟩

theorem Waited.trans {s t u : DeviceState} (h : Waited s t) (h' : Waited t u) : Waited s u where
  mcp := h'.mcp.trans h.mcp
  mcFault := h'.mcFault.trans h.mcFault
  owned := fun conn => (h'.owned conn).trans (h.owned conn)
  sessions := by
    intro p v hv
    obtain ⟨w, hw, howner, hgp⟩ := h.sessions p v hv
    obtain ⟨x, hx, howner', hgp'⟩ := h'.sessions p w hw
    exact ⟨x, hx, howner'.trans howner, hgp'.trans hgp⟩

theorem waited_of_beside {s t : DeviceState} (h : DeviceState.Beside s t) : Waited s t := by
  obtain ⟨hmcp, hfault, hs | ⟨p, f, hs, hf⟩⟩ := h
  · refine ⟨hmcp, hfault, fun conn => ?_, fun p v hv => ⟨v, hs ▸ hv, rfl, rfl⟩⟩
    rw [owned, owned, hs]
  · refine ⟨hmcp, hfault, fun conn => ?_, fun q v hv => ?_⟩
    · rw [owned, owned, hs]
      exact PtrList.count_modify_eq fun v _ => by rw [(hf v).2.1]
    · rw [hs, PtrList.get?_modify]
      by_cases hq : q = p
      · rw [if_pos hq, hv]
        exact ⟨f v, rfl, (hf v).2.1, (hf v).2.2⟩
      · rw [if_neg hq]
        exact ⟨v, hv, rfl, rfl⟩

theorem run_concurrent_waited {s t : DeviceState} {others : List Concurrent}
    (h : machine.run s (others.map Action.concurrent) = some t) : Waited s t := by
  induction others generalizing s with
  | nil =>
    cases h
    exact .refl _
  | cons c others ih =>
    obtain ⟨u, hu, ht⟩ := machine.run_cons_elim h
    refine Waited.trans (waited_of_beside ?_) (ih ht)
    change (if s.mcp = .aborted then none else s.concurrentStep c) = some u at hu
    split at hu
    · cases hu
    · exact DeviceState.concurrentStep_beside hu

/-- A wait ends in the section after it, in a state the other threads have left. -/
theorem await_elim {s t : DeviceState} {e : Exchange} (h : s.await e = some t) :
    ∃ u u' rsp, Waited s u ∧ waitMcpNotification u e.wake = some (rsp, u') ∧
      u'.afterWait ⟨0, 0⟩ rsp s.mcp = some t := by
  obtain ⟨u, hu, ht⟩ := (machine.run_append).mp h
  obtain ⟨t', ht', hnil⟩ := machine.run_cons_elim ht
  cases hnil
  have hwaited := run_concurrent_waited hu
  obtain ⟨⟨rsp, u'⟩, hw, ht'⟩ := Option.bind_eq_some_iff.mp ht'
  have hmcp := (DeviceState.waitMcpNotification_spec hw).2
  refine ⟨u, u', rsp, hwaited, hw, ?_⟩
  rw [← hwaited.mcp, ← hmcp]
  exact ht'

theorem closeSessionInternal_eq_ok {rsp : Option McpResponse} :
    closeSessionInternal rsp = mcMcpRetOk ↔ ∃ r, rsp = some r ∧
      r.rspId = mcMcpCmdCloseSession ||| flagResponse ∧ r.result = mcMcpRetOk := by
  have hcode : closeSessionInternal rsp = mcMcpRetOk ↔ sendSessionCloseCmd rsp = mcMcpRetOk := by
    unfold closeSessionInternal
    dsimp only
    split
    · exact Iff.rfl
    · rename_i hne
      exact ⟨fun heq => absurd heq (makeMcDrvMcpError_ne_ok _), fun heq => absurd heq hne⟩
  have hmci : mcDrvErrDaemonMciError ≠ mcMcpRetOk := by decide
  rw [hcode]
  cases rsp with
  | none =>
    constructor
    · exact fun heq => absurd heq hmci
    · rintro ⟨r, ⟨⟩, -⟩
  | some r =>
    by_cases hid : r.rspId = mcMcpCmdCloseSession ||| flagResponse
    · simp [sendSessionCloseCmd, hid]
    · simp [sendSessionCloseCmd, hid, hmci]

/-- After a wait, the daemon reads success exactly when the secure world closed the session. -/
theorem closedAtOnce_iff {s u u' : DeviceState} {w : McpWake} {rsp : Option McpResponse}
    (hs : Waited s u) (hw : waitMcpNotification u w = some (rsp, u')) :
    closeSessionInternal rsp = mcMcpRetOk ↔ ClosedAtOnce s w := by
  rw [closeSessionInternal_eq_ok, ClosedAtOnce, ← hs.mcFault]
  unfold waitMcpNotification at hw
  cases hfault : u.mcFault with
  | true =>
    rw [hfault, if_pos rfl] at hw
    cases hw
    simp
  | false =>
    rw [hfault, if_neg Bool.false_ne_true] at hw
    cases w with
    | notified r =>
      dsimp only at hw
      split at hw
      · cases hw
      · cases hw
        simp
    | silent =>
      cases hw
      simp
    | exiting =>
      dsimp only at hw
      split at hw
      · cases hw
      · cases hw
        simp

/-! ## One round -/

/-- Where the holder can be after `closeSession` for the loop. -/
def AfterClose (conn : Conn) (drop : Bool) (s : DeviceState) : Prop :=
  s.mcp = .closeLoop conn drop ∨ s.mcp = .aborted

/-- `closeSession` after an exchange: the session goes exactly when the secure world closed it, and
only a GP session is tried a second time. -/
theorem closeSessionAnswer_spec {s : DeviceState} {conn : Conn} {drop : Bool} {p : Nat}
    {retry : Bool} {v : TrustletSession} (hv : s.trustletSessions.get? p = some v)
    (rsp : Option McpResponse) {t : DeviceState}
    (ht : s.closeSessionAnswer (.device conn drop) p retry rsp = t) :
    (closeSessionInternal rsp = mcMcpRetOk ∧
        t.trustletSessions = s.trustletSessions.remove p ∧ AfterClose conn drop t) ∨
      (closeSessionInternal rsp ≠ mcMcpRetOk ∧ t.trustletSessions = s.trustletSessions ∧
        (AfterClose conn drop t ∨
          (retry = false ∧ v.gpLevel = 1 ∧ t.mcp = .closeWait (.device conn drop) p true))) := by
  subst ht
  simp only [DeviceState.closeSessionAnswer, hv]
  by_cases hok : closeSessionInternal rsp = mcMcpRetOk
  · left
    have hcode : ¬ mcMcpRetOk = makeMcDrvMcpError mcMcpRetErrCloseTaskFailed :=
      fun heq => makeMcDrvMcpError_ne_ok _ heq.symm
    simp only [hok, ne_eq, not_true_eq_false, decide_false, Bool.and_false, Bool.false_eq_true,
      if_false, hcode, and_false]
    refine ⟨trivial, ?_, .inl rfl⟩
    exact (DeviceState.freeSession_changes s p v).sessions
  · right
    refine ⟨hok, ?_⟩
    split
    · exact ⟨rfl, .inl (.inr rfl)⟩
    · rename_i hretry
      have hretry : retry = false := by simpa [hok] using hretry
      split
      · rename_i hgp
        split
        · exact ⟨rfl, .inr ⟨hretry, hgp.1, rfl⟩⟩
        · exact ⟨rfl, .inl (.inl rfl)⟩
      · exact ⟨rfl, .inl (.inl rfl)⟩

theorem owned_remove {s t : DeviceState} (conn : Conn) {p : Nat} {v : TrustletSession}
    (hv : s.trustletSessions.get? p = some v)
    (ht : t.trustletSessions = s.trustletSessions.remove p) :
    owned conn t + (if v.deviceConnection = some conn then 1 else 0) = owned conn s := by
  have hcount := PtrList.count_remove (q := fun v => v.deviceConnection == some conn) hv
  rw [owned, owned, ht]
  simpa only [beq_iff_eq] using hcount

theorem owned_eq {s t : DeviceState} (conn : Conn)
    (ht : t.trustletSessions = s.trustletSessions) : owned conn t = owned conn s := by
  rw [owned, owned, ht]

/-- The exchanges of a round whose session is disowned already. -/
theorem await_disowned {s t : DeviceState} {conn : Conn} {drop retry : Bool} {p : Nat}
    {v : TrustletSession} {e : Exchange} (hmcp : s.mcp = .closeWait (.device conn drop) p retry)
    (hv : s.trustletSessions.get? p = some v) (howner : v.deviceConnection = none)
    (ht : s.await e = some t) :
    owned conn t = owned conn s ∧
      (AfterClose conn drop t ∨
        (retry = false ∧ t.mcp = .closeWait (.device conn drop) p true ∧
          ∃ w, t.trustletSessions.get? p = some w ∧ w.deviceConnection = none)) := by
  obtain ⟨u, u', rsp, hwaited, hw, hafter⟩ := await_elim ht
  obtain ⟨w, hw', hwowner, -⟩ := hwaited.sessions p v hv
  have hu' := (DeviceState.waitMcpNotification_spec hw).1.sessions
  rw [hmcp] at hafter
  have hw' : u'.trustletSessions.get? p = some w := by rw [hu', hw']
  have hnone : ¬ w.deviceConnection = some conn := by
    rw [hwowner, howner]
    exact (Option.some_ne_none conn).symm
  have hsame : owned conn u' = owned conn s := (owned_eq conn hu').trans (hwaited.owned conn)
  rcases closeSessionAnswer_spec hw' rsp (Option.some.inj hafter) with
    ⟨-, hremove, hpc⟩ | ⟨-, hsessions, hpc⟩
  · have hcount := owned_remove conn hw' hremove
    rw [if_neg hnone] at hcount
    exact ⟨hcount.trans hsame, .inl hpc⟩
  · refine ⟨(owned_eq conn hsessions).trans hsame, ?_⟩
    rcases hpc with hpc | ⟨hretry, -, hpc⟩
    · exact .inl hpc
    · exact .inr ⟨hretry, hpc, w, by rw [hsessions, hw'], hwowner.trans howner⟩

/-- The exchange of a round for a session that is not GP. -/
theorem await_legacy {s t : DeviceState} {conn : Conn} {drop : Bool} {p : Nat}
    {v : TrustletSession} {e : Exchange} (hmcp : s.mcp = .closeWait (.device conn drop) p false)
    (hv : s.trustletSessions.get? p = some v) (howner : v.deviceConnection = some conn)
    (hgp : v.gpLevel ≠ 1) (ht : s.await e = some t) :
    AfterClose conn drop t ∧ (ClosedAtOnce s e.wake → owned conn t + 1 = owned conn s) ∧
      (¬ ClosedAtOnce s e.wake → owned conn t = owned conn s) := by
  obtain ⟨u, u', rsp, hwaited, hw, hafter⟩ := await_elim ht
  obtain ⟨w, hw', hwowner, hwgp⟩ := hwaited.sessions p v hv
  have hu' := (DeviceState.waitMcpNotification_spec hw).1.sessions
  rw [hmcp] at hafter
  have hw' : u'.trustletSessions.get? p = some w := by rw [hu', hw']
  have hsame : owned conn u' = owned conn s := (owned_eq conn hu').trans (hwaited.owned conn)
  have hiff := closedAtOnce_iff hwaited hw
  rcases closeSessionAnswer_spec hw' rsp (Option.some.inj hafter) with
    ⟨hok, hremove, hpc⟩ | ⟨hok, hsessions, hpc⟩
  · have hcount := owned_remove conn hw' hremove
    rw [if_pos (hwowner.trans howner), hsame] at hcount
    exact ⟨hpc, fun _ => hcount, fun hno => absurd (hiff.mp hok) hno⟩
  · refine ⟨?_, fun hclosed => absurd (hiff.mpr hclosed) hok, fun _ => ?_⟩
    · rcases hpc with hpc | ⟨-, hgp', -⟩
      · exact hpc
      · exact absurd (hwgp.symm.trans hgp') hgp
    · exact (owned_eq conn hsessions).trans hsame

theorem findSession_eq_some {s : DeviceState} {conn : Conn} {sessionId : UInt32} {q : Nat} :
    s.findSession conn sessionId = some q ↔ s.getTrustletSession sessionId = some q ∧
      ∃ x, s.trustletSessions.get? q = some x ∧ x.deviceConnection = some conn := by
  unfold DeviceState.findSession
  cases hid : s.getTrustletSession sessionId with
  | none => simp
  | some r =>
    obtain ⟨x, hx, -⟩ := PtrList.find?_spec hid
    simp only [hx, Option.some.injEq]
    constructor
    · intro h
      split at h
      · rename_i howner
        cases h
        exact ⟨rfl, x, hx, howner⟩
      · cases h
    · rintro ⟨rfl, y, hy, howner⟩
      obtain rfl := Option.some.inj (hx.symm.trans hy)
      rw [if_pos howner]

theorem disconnectGp_sessions {s : DeviceState} {p : Nat} {v : TrustletSession}
    (hgp : v.gpLevel = 1) :
    (s.disconnectGp p v).trustletSessions = s.trustletSessions.modify p fun v =>
      { v with deviceConnection := none, notificationConnection := none,
               sessionState := .closeSend } := by
  rw [DeviceState.disconnectGp, if_pos hgp]
  cases v.notificationConnection <;> rfl

theorem secondAttempt_of_afterClose {s t : DeviceState} {conn : Conn} {drop : Bool}
    {e : Exchange} (hs : AfterClose conn drop s) (ht : s.secondAttempt e = some t) : t = s := by
  rcases hs with hs | hs
  · simpa [DeviceState.secondAttempt, hs, eq_comm] using ht
  · simpa [DeviceState.secondAttempt, hs, eq_comm] using ht

/-- A round on a GP session takes the session from the connection before its first exchange. -/
theorem round_gp {s s₁ s₂ t : DeviceState} {conn : Conn} {drop : Bool} {q : Nat}
    {x : TrustletSession} {e : Exchange × Exchange} (hs₂ : s₁.await e.1 = some s₂)
    (ht : s₂.secondAttempt e.2 = some t) (hx : s.trustletSessions.get? q = some x)
    (howner : x.deviceConnection = some conn)
    (hs₁ : s₁.trustletSessions = s.trustletSessions.modify q fun v =>
      { v with deviceConnection := none, notificationConnection := none,
               sessionState := .closeSend })
    (hmcp : s₁.mcp = .closeWait (.device conn drop) q false) :
    AfterClose conn drop t ∧ owned conn t + 1 = owned conn s := by
  have hself : s₁.trustletSessions.get? q = some { x with
      deviceConnection := none, notificationConnection := none, sessionState := .closeSend } := by
    rw [hs₁, PtrList.get?_modify, if_pos rfl, hx]
    rfl
  have hless : owned conn s₁ + 1 = owned conn s := by
    rw [owned, owned, hs₁]
    exact PtrList.count_modify_lt hx (by simp [howner]) (by simp)
  obtain ⟨hsame, hpc⟩ := await_disowned hmcp hself rfl hs₂
  rcases hpc with hpc | ⟨-, hretry, w, hw, hnone⟩
  · obtain rfl := secondAttempt_of_afterClose hpc ht
    exact ⟨hpc, by rw [hsame, hless]⟩
  · simp only [DeviceState.secondAttempt, hretry] at ht
    obtain ⟨hsame', hpc'⟩ := await_disowned hretry hw hnone ht
    refine ⟨?_, by rw [hsame', hsame, hless]⟩
    rcases hpc' with hpc' | ⟨⟨⟩, -⟩
    exact hpc'

/-- A round on another session takes it from the connection when it is closed at once. -/
theorem round_legacy {s s₁ s₂ t : DeviceState} {conn : Conn} {drop : Bool} {q : Nat}
    {x : TrustletSession} {e : Exchange × Exchange} (hs₂ : s₁.await e.1 = some s₂)
    (ht : s₂.secondAttempt e.2 = some t) (hx : s.trustletSessions.get? q = some x)
    (howner : x.deviceConnection = some conn) (hgp : x.gpLevel ≠ 1)
    (hs₁ : s₁.trustletSessions = s.trustletSessions) (hfault : s₁.mcFault = s.mcFault)
    (hmcp : s₁.mcp = .closeWait (.device conn drop) q false) :
    AfterClose conn drop t ∧ (owned conn t < owned conn s ↔ ClosedAtOnce s e.1.wake) := by
  obtain ⟨hpc, hyes, hno⟩ := await_legacy hmcp (by rw [hs₁, hx]) howner hgp hs₂
  obtain rfl := secondAttempt_of_afterClose hpc ht
  have hsame : owned conn s₁ = owned conn s := owned_eq conn hs₁
  have hclosed : ClosedAtOnce s₁ e.1.wake ↔ ClosedAtOnce s e.1.wake := by
    rw [ClosedAtOnce, ClosedAtOnce, hfault]
  rw [hsame, hclosed] at hyes hno
  refine ⟨hpc, ?_⟩
  by_cases hc : ClosedAtOnce s e.1.wake
  · have hlt := hyes hc
    exact iff_of_true (by omega) hc
  · have heq := hno hc
    exact iff_of_false (by omega) hc

/-- **One round.** It comes back to the loop, or ends the process, and it has taken a session from
the connection exactly when it met the condition. -/
theorem closeIteration_spec {s t : DeviceState} {conn : Conn} {drop : Bool}
    {e : Exchange × Exchange} (hmcp : s.mcp = .closeLoop conn drop)
    (ht : closeIteration s e = some t) :
    AfterClose conn drop t ∧ (owned conn t < owned conn s ↔ Closes conn s e.1.wake) := by
  simp only [closeIteration, hmcp] at ht
  cases hlast : s.lastOwned conn with
  | none =>
    rw [hlast, if_pos rfl] at ht
    cases ht
  | some p =>
    obtain ⟨v, hv, -⟩ := PtrList.findRev?_spec hlast
    have hround : machine.step s .round =
        some (s.closeSession (.device conn drop) v.sessionId) := by
      change s.nextRound s.mcp = _
      rw [hmcp]
      simp only [DeviceState.nextRound, DeviceState.closeRound, hlast, hv]
    rw [hlast, if_neg (Option.some_ne_none p), hround, Option.bind_some] at ht
    -- the condition speaks of the session that `findSession` finds under the id
    have hcloses : Closes conn s e.1.wake ↔ ∃ q x, s.findSession conn v.sessionId = some q ∧
        s.trustletSessions.get? q = some x ∧ (x.gpLevel = 1 ∨ ClosedAtOnce s e.1.wake) := by
      constructor
      · rintro ⟨p', v', q, x, hlast', hv', hid, hx, howner, hor⟩
        obtain rfl := Option.some.inj (hlast.symm.trans hlast')
        obtain rfl := Option.some.inj (hv.symm.trans hv')
        exact ⟨q, x, findSession_eq_some.mpr ⟨hid, x, hx, howner⟩, hx, hor⟩
      · rintro ⟨q, x, hfind, hx, hor⟩
        obtain ⟨hid, y, hy, howner⟩ := findSession_eq_some.mp hfind
        obtain rfl := Option.some.inj (hx.symm.trans hy)
        exact ⟨p, v, q, x, hlast, hv, hid, hx, howner, hor⟩
    rw [hcloses]
    cases hfind : s.findSession conn v.sessionId with
    | none =>
      simp only [DeviceState.closeSession, CloseCaller.conn, hfind] at ht
      cases ht
      refine ⟨.inl rfl, ⟨fun hlt => absurd hlt (Nat.lt_irrefl _), ?_⟩⟩
      rintro ⟨q, x, ⟨⟩, -⟩
    | some q =>
      obtain ⟨hid, x, hx, howner⟩ := findSession_eq_some.mp hfind
      have hcond : (∃ q' x', some q = some q' ∧ s.trustletSessions.get? q' = some x' ∧
          (x'.gpLevel = 1 ∨ ClosedAtOnce s e.1.wake)) ↔
          (x.gpLevel = 1 ∨ ClosedAtOnce s e.1.wake) := by
        constructor
        · rintro ⟨q', x', heq, hx', hor⟩
          cases heq
          obtain rfl := Option.some.inj (hx.symm.trans hx')
          exact hor
        · exact fun hor => ⟨q, x, rfl, hx, hor⟩
      rw [hcond]
      simp only [DeviceState.closeSession, CloseCaller.conn, hfind, hx] at ht
      obtain ⟨s₂, hs₂, ht⟩ := Option.bind_eq_some_iff.mp ht
      by_cases hgp : x.gpLevel = 1
      · have hs₁ := disconnectGp_sessions (s := s) (p := q) hgp
        obtain ⟨hpc, hless⟩ := round_gp hs₂ ht hx howner hs₁ rfl
        exact ⟨hpc, iff_of_true (by omega) (.inl hgp)⟩
      · have hs₁ : s.disconnectGp q x = s := by rw [DeviceState.disconnectGp, if_neg hgp]
        rw [hs₁] at hs₂
        obtain ⟨hpc, hiff⟩ := round_legacy hs₂ ht hx howner hgp rfl rfl rfl
        exact ⟨hpc, hiff.trans ⟨.inr, fun hor => hor.resolve_left hgp⟩⟩

/-! ## The whole loop -/

/-- A loop that is still running is still the loop of the same connection. -/
theorem loopState_afterClose {s u : DeviceState} {conn : Conn} {drop : Bool}
    (hmcp : s.mcp = .closeLoop conn drop) {es : Nat → Exchange × Exchange} {n : Nat}
    (hu : loopState closeIteration s es n = some u) : AfterClose conn drop u := by
  refine loopState_inv closeIteration (I := AfterClose conn drop) (.inl hmcp) ?_ hu
  intro k u t hu ht
  rcases hu with hu | hu
  · exact (closeIteration_spec hu ht).1
  · simp [closeIteration, hu] at ht

/-- **Dropping a client ends.** From every state in which the loop of `close` starts, and for all
answers and steps of other threads, each round takes a session from the connection and the loop
ends, exactly when each round meets the condition. -/
theorem close_ends_iff_closes {s : DeviceState} {conn : Conn} {drop : Bool}
    (hmcp : s.mcp = .closeLoop conn drop) (es : Nat → Exchange × Exchange) :
    ((∀ n u t, loopState closeIteration s es n = some u → closeIteration u (es n) = some t →
        owned conn t < owned conn u) ∧ ∃ n, loopState closeIteration s es n = none) ↔
      ∀ n u, loopState closeIteration s es n = some u → (closeIteration u (es n)).isSome = true →
        Closes conn u (es n).1.wake := by
  have hround : ∀ n u t, loopState closeIteration s es n = some u →
      closeIteration u (es n) = some t →
      (owned conn t < owned conn u ↔ Closes conn u (es n).1.wake) := by
    intro n u t hu ht
    rcases loopState_afterClose hmcp hu with hpc | hpc
    · exact (closeIteration_spec hpc ht).2
    · simp [closeIteration, hpc] at ht
  constructor
  · rintro ⟨hdec, -⟩ n u hu hsome
    obtain ⟨t, ht⟩ := Option.isSome_iff_exists.mp hsome
    exact (hround n u t hu ht).mp (hdec n u t hu ht)
  · intro hcloses
    have hdec : ∀ n u t, loopState closeIteration s es n = some u →
        closeIteration u (es n) = some t → owned conn t < owned conn u := by
      intro n u t hu ht
      exact (hround n u t hu ht).mpr (hcloses n u hu (by rw [ht]; rfl))
    exact ⟨hdec, loop_ends closeIteration hdec⟩

/-- Client 1 has opened session 5 with the given GP level, and is gone. -/
def droppedRun (gpLevel : UInt32) : List Action :=
  [.command 1 (.openDevice 0),
   .command 1 (.openSession ⟨some ⟨100, gpLevel⟩, 0, 0, 0, {}⟩),
   .concurrent (.irq ⟨sidMcp, 0⟩),
   .wake (.notified ⟨mcMcpCmdOpenSession ||| flagResponse, mcMcpRetOk, 5, 0⟩) ⟨0x1000, 77⟩,
   .round,
   .drop 1]

def droppedState (gpLevel : UInt32) : DeviceState :=
  (machine.run (DeviceState.started false) (droppedRun gpLevel)).getD (DeviceState.started false)

/-- The secure world answers every CLOSE_SESSION with `code`. -/
def answering (code : UInt32) (_ : Nat) : Exchange × Exchange :=
  let e : Exchange := ⟨[.irq ⟨sidMcp, 0⟩],
    .notified ⟨mcMcpCmdCloseSession ||| flagResponse, code, 0, 0⟩⟩
  (e, e)

/-- The list of a client whose only session is not GP. -/
def legacyList : PtrList TrustletSession :=
  PtrList.empty.push (newSession 1 ⟨100, 0⟩ ⟨some ⟨100, 0⟩, 0, 0, 0, {}⟩ ⟨0x1000, 77⟩ 5)

/-- The loop is running and the session is still in the list. -/
def Stuck (s : DeviceState) : Prop :=
  s.mcp = .closeLoop 1 true ∧ s.mcFault = false ∧ s.trustletSessions = legacyList

theorem Stuck.round {s : DeviceState} (h : Stuck s) (n : Nat) :
    ∃ t, closeIteration s (answering mcMcpRetErrCloseTaskFailed n) = some t ∧ Stuck t := by
  obtain ⟨l, ns, removed, fault, signals, wakeups, conns, out, pc, nq, effects⟩ := s
  obtain ⟨hpc, hfault, hl⟩ := h
  dsimp only at hpc hfault hl
  subst hpc hfault hl
  exact ⟨_, rfl, rfl, rfl, rfl⟩

theorem Stuck.loopState {s : DeviceState} (h : Stuck s) (n : Nat) :
    ∃ u, loopState closeIteration s (answering mcMcpRetErrCloseTaskFailed) n = some u ∧
      Stuck u := by
  induction n with
  | zero => exact ⟨s, rfl, h⟩
  | succ n ih =>
    obtain ⟨u, hu, hstuck⟩ := ih
    obtain ⟨t, ht, hstuck'⟩ := hstuck.round n
    exact ⟨t, Option.bind_eq_some_iff.mpr ⟨u, hu, ht⟩, hstuck'⟩

/-- A session that is not GP and that the secure world does not close keeps the loop going for
ever. -/
theorem close_never_ends :
    machine.run (DeviceState.started false) (droppedRun 0) = some (droppedState 0) ∧
      (droppedState 0).mcp = .closeLoop 1 true ∧
      ∀ n, ∃ u, owned 1 u = 1 ∧
        loopState closeIteration (droppedState 0) (answering mcMcpRetErrCloseTaskFailed) n =
          some u := by
  refine ⟨rfl, rfl, fun n => ?_⟩
  have hstuck : Stuck (droppedState 0) := ⟨rfl, rfl, rfl⟩
  obtain ⟨u, hu, -, -, hl⟩ := hstuck.loopState n
  refine ⟨u, ?_, hu⟩
  rw [owned, hl]
  rfl

/-- The same client with a GP session: one round, and the loop ends. -/
theorem close_ends_gp :
    ∃ n, loopState closeIteration (droppedState 1) (answering mcMcpRetErrCloseTaskFailed) n =
      none := by
  have hstart : (droppedState 1).mcp = .closeLoop 1 true := rfl
  refine ((close_ends_iff_closes hstart _).mpr fun n u hu hsome => ?_).2
  have hu : u = droppedState 1 ∨ ∀ e, closeIteration u e = none := by
    refine loopState_inv closeIteration (I := fun u => u = droppedState 1 ∨
      ∀ e, closeIteration u e = none) (.inl rfl) (fun k u t hu ht => ?_) hu
    rcases hu with rfl | hu
    · cases ht
      exact .inr fun e => rfl
    · rw [hu] at ht
      cases ht
  rcases hu with rfl | hu
  · exact ⟨0, _, 0, _, rfl, rfl, rfl, rfl, rfl, .inl rfl⟩
  · rw [hu] at hsome
    cases hsome

end McDaemon.Device
