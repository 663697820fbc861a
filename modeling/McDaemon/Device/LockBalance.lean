/-
# McDaemon.Device.LockBalance — the kernel locks taken and released for a session.

A lock taken for a session is counted when it becomes the session's: for its TCI when the open
succeeds, for a bulk buffer when the map succeeds.  What the daemon will release at the end is the
buffer map, so the books balance as long as the map mirrors the locks.  Three steps break that: a
map of a handle that is recorded already and is accepted, a map that records its handle and is
rejected, and the clean-up of a dead session that still has buffers.
-/
import Mathlib.Data.List.Count
import McDaemon.Device.Evolution

namespace McDaemon.Device

open McDaemon.Lib

/-! ## The books -/

/-- Locks on `h` that count for session `p`. -/
def credits (s : DeviceState) (p : Nat) (h : UInt32) : Nat :=
  s.sessionCalls.count (.credited p h)

/-- Unlocks of `h` on behalf of session `p`. -/
def releases (s : DeviceState) (p : Nat) (h : UInt32) : Nat :=
  s.sessionCalls.count (.unlockWsm h (some p))

/-- A map that recorded its handle and waits for its answer. -/
def pending (s : DeviceState) (p : Nat) (h : UInt32) : Nat :=
  if s.mcp.mapping? = some (p, h) then 1 else 0

/-- Whether the session's buffer map has the handle. -/
def held (v : TrustletSession) (h : UInt32) : Nat := if h ∈ v.buffers.handles then 1 else 0

/-- **Lock balance.** For a session that has left the list, every handle was unlocked as often as
it was locked for the session's TCI and its successful maps. -/
def LockBalance (s : DeviceState) : Prop :=
  ∀ p, Effect.removed p ∈ s.effects → ∀ h, releases s p h = credits s p h

/-- The step keeps the buffer map and the locks together: a map is accepted exactly when it
recorded its handle, and a dead session is deleted only without buffers. -/
def BalancedStep (s : DeviceState) : Action → Prop
  | .wake w _ =>
    match waitMcpNotification s w with
    | none => True
    | some (rsp, _) =>
      match s.mcp with
      | .mapWait _ _ _ added => (exchangeResult mcMcpCmdMap rsp).isOk = added
      | .taExitWait p => closeSessionInternal rsp = mcDrvOk →
          ∀ v, s.trustletSessions.get? p = some v → v.buffers.handles = []
      | _ => True
  | _ => True

/-- The handle that the holder of `mutex_mcp` maps or unmaps. -/
def McpThread.handle? : McpThread → Option UInt32
  | .mapWait _ _ c _ => some c.handle
  | .unmapWait _ _ c => some c.handle
  | _ => none

/-- The invariant behind the balance. -/
structure Ledger (s : DeviceState) : Prop where
  listed : ∀ p v, s.trustletSessions.get? p = some v → ∀ h,
    credits s p h + pending s p h = releases s p h + held v h
  gone : ∀ p, s.trustletSessions.get? p = none → ∀ h, credits s p h = releases s p h
  removed : ∀ p, Effect.removed p ∈ s.sessionCalls →
    p < s.trustletSessions.fresh ∧ s.trustletSessions.get? p = none
  inHand : ∀ p, s.mcp.session? = some p → ∃ v, s.trustletSessions.get? p = some v ∧
    ∀ h, s.mcp.handle? = some h → h ∈ v.buffers.handles

theorem Ledger.lockBalance {s : DeviceState} (hl : Ledger s) : LockBalance s := by
  intro p hp h
  have hmem : Effect.removed p ∈ s.sessionCalls := DeviceState.mem_sessionCalls.mpr ⟨hp, rfl⟩
  exact (hl.gone p (hl.removed p hmem).2 h).symm

/-! ## Counting calls -/

theorem credits_of_touches {s t : DeviceState} {l : PtrList TrustletSession} {es : List Effect}
    (hc : Touches s t l es) (p : Nat) (h : UInt32) :
    credits t p h = es.count (.credited p h) + credits s p h := by
  rw [credits, hc.calls, List.count_append, credits]

theorem releases_of_touches {s t : DeviceState} {l : PtrList TrustletSession} {es : List Effect}
    (hc : Touches s t l es) (p : Nat) (h : UInt32) :
    releases t p h = es.count (.unlockWsm h (some p)) + releases s p h := by
  rw [releases, hc.calls, List.count_append, releases]

/-- A call that the books take down. -/
def Effect.booked : Effect → Bool
  | .credited .. | .unlockWsm .. | .removed _ => true
  | _ => false

theorem count_eq_zero_of_not_booked {es : List Effect} {e : Effect} (he : e.booked = true)
    (hes : ∀ x ∈ es, x.booked = false) : es.count e = 0 := by
  refine List.count_eq_zero.mpr fun hmem => ?_
  rw [hes e hmem] at he
  cases he

/-- The final unlocks release each recorded buffer of the session once. -/
theorem count_unlock_freeCalls (p q : Nat) (v : TrustletSession) (h : UInt32) :
    (freeCalls p v).count (.unlockWsm h (some q)) = if q = p then held v h else 0 := by
  have hcount : ∀ ws : List CWsm,
      (ws.map fun w => Effect.unlockWsm w.handle (some p)).count (.unlockWsm h (some q)) =
        if q = p then (ws.map CWsm.handle).count h else 0 := by
    intro ws
    induction ws with
    | nil => simp
    | cons w ws ih =>
      rw [List.map_cons, List.count_cons, ih, List.map_cons, List.count_cons]
      by_cases hq : q = p
      · simp [hq]
      · simp [hq, Ne.symm hq]
  rw [freeCalls, List.count_cons, List.count_reverse, hcount]
  have hnodup := List.Nodup.count (a := h) v.buffers.nodup_handles
  simp only [BulkBuffs.handles] at hnodup
  simp [held, BulkBuffs.handles, hnodup]

theorem count_credited_freeCalls (p q : Nat) (v : TrustletSession) (h : UInt32) :
    (freeCalls p v).count (.credited q h) = 0 := by
  refine List.count_eq_zero.mpr fun hmem => ?_
  rcases List.mem_cons.mp hmem with hmem | hmem
  · cases hmem
  · obtain ⟨w, -, hw⟩ := List.mem_map.mp (List.mem_reverse.mp hmem)
    cases hw

/-! ## Steps -/

/-- A step that books nothing, keeps every buffer map and settles no map in progress. -/
theorem Ledger.frame {s t : DeviceState} {l : PtrList TrustletSession} {es : List Effect}
    (hl : Ledger s) (hc : Touches s t l es) (hes : ∀ e ∈ es, e.booked = false)
    (hbuffers : ∀ q, (l.get? q).map (fun v => v.buffers) =
      (s.trustletSessions.get? q).map fun v => v.buffers)
    (hfresh : l.fresh = s.trustletSessions.fresh) (hmapping : t.mcp.mapping? = s.mcp.mapping?)
    (hhand : ∀ p, t.mcp.session? = some p → ∃ v, s.trustletSessions.get? p = some v ∧
      ∀ h, t.mcp.handle? = some h → h ∈ v.buffers.handles) : Ledger t := by
  have hcredits : ∀ p h, credits t p h = credits s p h := by
    intro p h
    rw [credits_of_touches hc, count_eq_zero_of_not_booked rfl hes, Nat.zero_add]
  have hreleases : ∀ p h, releases t p h = releases s p h := by
    intro p h
    rw [releases_of_touches hc, count_eq_zero_of_not_booked rfl hes, Nat.zero_add]
  -- a session of the new list is one of the old list with the same buffers
  have hback : ∀ q w, l.get? q = some w →
      ∃ v, s.trustletSessions.get? q = some v ∧ v.buffers = w.buffers := by
    intro q w hw
    have hq := hbuffers q
    rw [hw] at hq
    exact Option.map_eq_some_iff.mp hq.symm
  have hnone : ∀ q, l.get? q = none ↔ s.trustletSessions.get? q = none := by
    intro q
    rw [← Option.map_eq_none_iff (f := fun v : TrustletSession => v.buffers), hbuffers,
      Option.map_eq_none_iff]
  refine ⟨?_, ?_, ?_, ?_⟩
  · intro p w hw h
    rw [hc.sessions] at hw
    obtain ⟨v, hv, hbuf⟩ := hback p w hw
    have hbook := hl.listed p v hv h
    rw [hcredits, hreleases, pending, hmapping]
    simpa only [pending, held, hbuf] using hbook
  · intro p hp h
    rw [hc.sessions, hnone] at hp
    rw [hcredits, hreleases]
    exact hl.gone p hp h
  · intro p hp
    rw [hc.calls] at hp
    rcases List.mem_append.mp hp with hp | hp
    · cases hes _ hp
    · obtain ⟨hlt, hgone⟩ := hl.removed p hp
      rw [hc.sessions]
      exact ⟨hfresh ▸ hlt, (hnone p).mpr hgone⟩
  · intro p hp
    obtain ⟨v, hv, hh⟩ := hhand p hp
    have hq := hbuffers p
    rw [hv] at hq
    obtain ⟨w, hw, hbuf⟩ := Option.map_eq_some_iff.mp hq
    rw [hc.sessions]
    exact ⟨w, hw, fun h hmem => hbuf ▸ hh h hmem⟩

/-- Writing a session without touching its buffers. -/
theorem get?_modify_buffers (l : PtrList TrustletSession) (p q : Nat)
    {f : TrustletSession → TrustletSession} (hf : ∀ v, (f v).buffers = v.buffers) :
    ((l.modify p f).get? q).map (fun v => v.buffers) = (l.get? q).map fun v => v.buffers := by
  rw [PtrList.get?_modify]
  split
  · rw [Option.map_map]
    exact congrArg (Option.map · (l.get? q)) (funext hf)
  · rfl

/-- The session that an open creates starts with its TCI lock credited and recorded. -/
theorem Ledger.opened {s t : DeviceState} {conn : Conn} {ld : LoadData} {c : OpenCommand}
    {new : NewSession} {sessionId : UInt32} {rsp : OpenSessionPayload} {u : Bool} (hl : Ledger s)
    (hmapping : s.mcp.mapping? = none)
    (hc : Touches s t (s.trustletSessions.push (newSession conn ld c new sessionId))
      (if c.hasTci then [.credited s.trustletSessions.fresh c.tciHandle] else []))
    (hto : t.mcp = .openDrain conn s.trustletSessions.fresh rsp u) : Ledger t := by
  have hreleases : ∀ p h, releases t p h = releases s p h := by
    intro p h
    rw [releases_of_touches hc]
    split <;> simp
  -- the new session is credited with the handle of its TCI, and holds that
  have hcredits : ∀ p h, credits t p h =
      credits s p h + if p = s.trustletSessions.fresh then
        held (newSession conn ld c new sessionId) h else 0 := by
    intro p h
    rw [credits_of_touches hc, Nat.add_comm]
    unfold newSession held
    by_cases htci : c.hasTci = true
    · by_cases hp : p = s.trustletSessions.fresh
      · by_cases hh : c.tciHandle = h
        · simp [htci, hp, hh, BulkBuffs.mem_handles_addBulkBuff]
        · simp [htci, hp, hh, Ne.symm hh, BulkBuffs.mem_handles_addBulkBuff, TrustletSession.new]
      · simp [htci, hp, Ne.symm hp]
    · simp [htci, TrustletSession.new]
  have hpending : ∀ p h, pending t p h = 0 := by
    intro p h
    simp [pending, hto, McpThread.mapping?]
  have hpending' : ∀ p h, pending s p h = 0 := by
    intro p h
    simp [pending, hmapping]
  refine ⟨?_, ?_, ?_, ?_⟩
  · intro p w hw h
    rw [hc.sessions, PtrList.get?_push] at hw
    rw [hcredits, hreleases, hpending]
    split at hw
    · rename_i hp
      subst hp
      cases hw
      have hbook := hl.gone _ s.trustletSessions.get?_fresh h
      simp only [if_true]
      omega
    · rename_i hp
      have hbook := hl.listed p w hw h
      rw [hpending'] at hbook
      simpa only [if_neg hp, Nat.add_zero] using hbook
  · intro p hp h
    rw [hc.sessions, PtrList.get?_push] at hp
    split at hp
    · cases hp
    · rename_i hne
      rw [hcredits, hreleases, if_neg hne]
      exact hl.gone p hp h
  · intro p hp
    have hp : Effect.removed p ∈ s.sessionCalls := by
      rw [hc.calls] at hp
      rcases List.mem_append.mp hp with hp | hp
      · split at hp <;> simp at hp
      · exact hp
    obtain ⟨hlt, hgone⟩ := hl.removed p hp
    rw [hc.sessions, PtrList.get?_push, if_neg (Nat.ne_of_lt hlt)]
    exact ⟨Nat.lt_succ_of_lt hlt, hgone⟩
  · intro p hp
    rw [hto] at hp ⊢
    obtain rfl : s.trustletSessions.fresh = p := Option.some.inj hp
    rw [hc.sessions, PtrList.get?_push, if_pos rfl]
    exact ⟨_, rfl, fun h hh => by cases hh⟩

/-- A step that concerns the books of one listed session only. -/
theorem Ledger.settle {s t : DeviceState} {p : Nat} {v : TrustletSession} (hl : Ledger s)
    (hp : s.trustletSessions.get? p = some v)
    (hfresh : t.trustletSessions.fresh = s.trustletSessions.fresh)
    (hothers : ∀ q, q ≠ p → t.trustletSessions.get? q = s.trustletSessions.get? q)
    (hbooks : ∀ q, q ≠ p → ∀ h, credits t q h = credits s q h ∧
      releases t q h = releases s q h ∧ pending t q h = pending s q h)
    (hlisted : ∀ w, t.trustletSessions.get? p = some w → ∀ h,
      credits t p h + pending t p h = releases t p h + held w h)
    (hgone : t.trustletSessions.get? p = none → ∀ h, credits t p h = releases t p h)
    (hremoved : ∀ q, Effect.removed q ∈ t.sessionCalls →
      (q = p ∧ t.trustletSessions.get? p = none) ∨ Effect.removed q ∈ s.sessionCalls)
    (hhand : ∀ q, t.mcp.session? = some q → ∃ w, t.trustletSessions.get? q = some w ∧
      ∀ h, t.mcp.handle? = some h → h ∈ w.buffers.handles) : Ledger t := by
  refine ⟨?_, ?_, ?_, hhand⟩
  · intro q w hw h
    by_cases hq : q = p
    · subst hq
      exact hlisted w hw h
    · rw [hothers q hq] at hw
      obtain ⟨hcr, hre, hpe⟩ := hbooks q hq h
      rw [hcr, hre, hpe]
      exact hl.listed q w hw h
  · intro q hw h
    by_cases hq : q = p
    · subst hq
      exact hgone hw h
    · rw [hothers q hq] at hw
      obtain ⟨hcr, hre, -⟩ := hbooks q hq h
      rw [hcr, hre]
      exact hl.gone q hw h
  · intro q hq
    rw [hfresh]
    rcases hremoved q hq with ⟨rfl, hnone⟩ | hold
    · exact ⟨PtrList.lt_fresh_of_get? hp, hnone⟩
    · obtain ⟨hlt, hnone⟩ := hl.removed q hold
      have hne : q ≠ p := by
        rintro rfl
        rw [hp] at hnone
        cases hnone
      exact ⟨hlt, (hothers q hne).trans hnone⟩

theorem pending_eq_zero {s : DeviceState} (h : s.mcp.mapping? = none) (p : Nat) (x : UInt32) :
    pending s p x = 0 := by
  simp [pending, h]

theorem mapping?_of_session? {pc : McpThread} (h : pc.session? = none) : pc.mapping? = none := by
  cases pc <;> simp_all [McpThread.session?, McpThread.mapping?]

theorem Ledger.recorded {s t : DeviceState} {conn : Conn} {p : Nat} {c : MapCommand}
    {v : TrustletSession} {m : CWsm} (hl : Ledger s) (hm : m.handle = c.handle)
    (hp : s.trustletSessions.get? p = some v) (hfrom : s.mcp.session? = none)
    (hc : Touches s t (s.trustletSessions.modify p fun v =>
      { v with buffers := (v.buffers.addBulkBuff m).2 }) [])
    (hto : t.mcp = .mapWait conn p c (v.buffers.addBulkBuff m).1) : Ledger t := by
  have hcredits : ∀ q h, credits t q h = credits s q h := fun q h => by
    rw [credits_of_touches hc, List.count_nil, Nat.zero_add]
  have hreleases : ∀ q h, releases t q h = releases s q h := fun q h => by
    rw [releases_of_touches hc, List.count_nil, Nat.zero_add]
  have hidle := pending_eq_zero (mapping?_of_session? hfrom)
  -- the session now has the handle, and the map that is under way accounts for it
  have hself : t.trustletSessions.get? p =
      some { v with buffers := (v.buffers.addBulkBuff m).2 } := by
    rw [hc.sessions, PtrList.get?_modify, if_pos rfl, hp]
    rfl
  refine hl.settle hp ?_ (fun q hq => ?_) (fun q hq h => ?_) (fun w hw h => ?_) (fun hnone => ?_)
    (fun q hq => ?_) (fun q hq => ?_)
  · rw [hc.sessions]
    rfl
  · rw [hc.sessions, PtrList.get?_modify, if_neg hq]
  · refine ⟨hcredits q h, hreleases q h, ?_⟩
    rw [hidle, pending, hto]
    cases (v.buffers.addBulkBuff m).1 <;> simp [McpThread.mapping?, Ne.symm hq]
  · obtain rfl := Option.some.inj (hself.symm.trans hw)
    have hbook := hl.listed p v hp h
    rw [hidle] at hbook
    rw [hcredits, hreleases, pending, hto]
    by_cases hin : m.handle ∈ v.buffers.handles
    · -- the handle is recorded already: nothing is added and nothing is pending
      rw [BulkBuffs.addBulkBuff_of_mem hin]
      simpa [McpThread.mapping?] using hbook
    · have hadded := (BulkBuffs.addBulkBuff_fst v.buffers m).mpr hin
      rw [hadded]
      by_cases hh : h = m.handle
      · subst hh
        simp only [held, if_neg hin] at hbook
        simp only [held, BulkBuffs.mem_handles_addBulkBuff, McpThread.mapping?, hm, true_or,
          if_true]
        rw [hm] at hbook
        omega
      · have hne : ¬ c.handle = h := fun heq => hh (heq ▸ hm.symm)
        simp only [held, BulkBuffs.mem_handles_addBulkBuff, McpThread.mapping?, hh, false_or,
          Option.some.injEq, Prod.mk.injEq, hne, and_false, if_false]
        simpa only [held] using hbook
  · rw [hself] at hnone
    cases hnone
  · rw [hc.calls] at hq
    exact .inr hq
  · rw [hto] at hq ⊢
    obtain rfl : p = q := Option.some.inj hq
    refine ⟨_, hself, fun h hh => ?_⟩
    obtain rfl : c.handle = h := Option.some.inj hh
    exact (BulkBuffs.mem_handles_addBulkBuff ..).mpr (.inl hm.symm)

/-- An accepted map settles the handle that it recorded. -/
theorem Ledger.mapped {s t : DeviceState} {conn : Conn} {p : Nat} {c : MapCommand}
    (hl : Ledger s) (hpc : s.mcp = .mapWait conn p c true)
    (hc : Touches s t s.trustletSessions [.credited p c.handle]) (hto : t.mcp = .idle) :
    Ledger t := by
  obtain ⟨v, hp, -⟩ := hl.inHand p (by rw [hpc]; rfl)
  have hreleases : ∀ q h, releases t q h = releases s q h := fun q h => by
    simp [releases_of_touches hc]
  have hidle := pending_eq_zero (s := t) (by rw [hto]; rfl)
  refine hl.settle hp (by rw [hc.sessions]) (fun q _ => by rw [hc.sessions]) (fun q hq h => ?_)
    (fun w hw h => ?_) (fun hnone => ?_) (fun q hq => ?_) (fun q hq => ?_)
  · refine ⟨?_, hreleases q h, ?_⟩
    · simp [credits_of_touches hc, Ne.symm hq]
    · rw [hidle]
      simp [pending, hpc, McpThread.mapping?, Ne.symm hq]
  · rw [hc.sessions] at hw
    have hbook := hl.listed p w hw h
    have hcredits : credits t p h = credits s p h + pending s p h := by
      rw [credits_of_touches hc, Nat.add_comm]
      by_cases hh : c.handle = h
      · simp [pending, hpc, McpThread.mapping?, hh]
      · simp [pending, hpc, McpThread.mapping?, hh]
    rw [hidle, hcredits, hreleases]
    exact hbook
  · rw [hc.sessions, hp] at hnone
    cases hnone
  · rw [hc.calls] at hq
    exact .inr (by simpa using hq)
  · rw [hto] at hq
    cases hq

/-- An accepted unmap takes the handle out of the map and unlocks it. -/
theorem Ledger.unmapped {s t : DeviceState} {conn : Conn} {p : Nat} {c : UnmapCommand}
    (hl : Ledger s) (hpc : s.mcp = .unmapWait conn p c)
    (hc : Touches s t (s.trustletSessions.modify p fun v =>
      { v with buffers := (v.buffers.removeBulkBuff c.handle).2 })
      [.unlockWsm c.handle (some p)])
    (hto : t.mcp = .idle) : Ledger t := by
  obtain ⟨v, hp, hin⟩ := hl.inHand p (by rw [hpc]; rfl)
  have hin : c.handle ∈ v.buffers.handles := hin c.handle (by rw [hpc]; rfl)
  have hcredits : ∀ q h, credits t q h = credits s q h := fun q h => by
    simp [credits_of_touches hc]
  have hidle := pending_eq_zero (s := t) (by rw [hto]; rfl)
  have hidle' := pending_eq_zero (s := s) (by rw [hpc]; rfl)
  have hself : t.trustletSessions.get? p =
      some { v with buffers := (v.buffers.removeBulkBuff c.handle).2 } := by
    rw [hc.sessions, PtrList.get?_modify, if_pos rfl, hp]
    rfl
  refine hl.settle hp ?_ (fun q hq => ?_) (fun q hq h => ?_) (fun w hw h => ?_) (fun hnone => ?_)
    (fun q hq => ?_) (fun q hq => ?_)
  · rw [hc.sessions]
    rfl
  · rw [hc.sessions, PtrList.get?_modify, if_neg hq]
  · refine ⟨hcredits q h, ?_, by rw [hidle, hidle']⟩
    simp [releases_of_touches hc, Ne.symm hq]
  · obtain rfl := Option.some.inj (hself.symm.trans hw)
    have hbook := hl.listed p v hp h
    rw [hidle'] at hbook
    rw [hidle, hcredits, releases_of_touches hc]
    by_cases hh : h = c.handle
    · subst hh
      simp only [held, if_pos hin] at hbook
      simp only [held, BulkBuffs.mem_handles_removeBulkBuff, ne_eq, not_true_eq_false, false_and,
        if_false, List.count_singleton_self]
      omega
    · have hcount : [Effect.unlockWsm c.handle (some p)].count (.unlockWsm h (some p)) = 0 := by
        simp [Ne.symm hh]
      simp only [held, BulkBuffs.mem_handles_removeBulkBuff, ne_eq, hh, not_false_eq_true,
        true_and, hcount, Nat.zero_add]
      simpa only [held] using hbook
  · rw [hself] at hnone
    cases hnone
  · rw [hc.calls] at hq
    exact .inr (by simpa using hq)
  · rw [hto] at hq
    cases hq

/-- A session leaves the list after its buffers have been unlocked, each once. -/
theorem Ledger.gone_of_remove {s t : DeviceState} {p : Nat} {v : TrustletSession}
    {es : List Effect} (hl : Ledger s) (hp : s.trustletSessions.get? p = some v)
    (hfrom : s.mcp.mapping? = none) (hc : Touches s t (s.trustletSessions.remove p) es)
    (hcredits : ∀ q h, es.count (.credited q h) = 0)
    (hreleases : ∀ q h, es.count (.unlockWsm h (some q)) = if q = p then held v h else 0)
    (hremoved : ∀ q, Effect.removed q ∈ es → q = p) (hto : t.mcp.session? = none) :
    Ledger t := by
  have hidle := pending_eq_zero (s := t) (mapping?_of_session? hto)
  have hidle' := pending_eq_zero hfrom
  have hnone : t.trustletSessions.get? p = none := by
    rw [hc.sessions, PtrList.get?_remove, if_pos rfl]
  refine hl.settle hp ?_ (fun q hq => ?_) (fun q hq h => ?_) (fun w hw h => ?_) (fun _ h => ?_)
    (fun q hq => ?_) (fun q hq => ?_)
  · rw [hc.sessions]
    rfl
  · rw [hc.sessions, PtrList.get?_remove, if_neg hq]
  · rw [credits_of_touches hc, releases_of_touches hc, hcredits, hreleases, if_neg hq, hidle,
      hidle']
    simp
  · rw [hnone] at hw
    cases hw
  · have hbook := hl.listed p v hp h
    rw [hidle'] at hbook
    rw [credits_of_touches hc, releases_of_touches hc, hcredits, hreleases, if_pos rfl]
    omega
  · rw [hc.calls] at hq
    rcases List.mem_append.mp hq with hq | hq
    · exact .inl ⟨hremoved q hq, hnone⟩
    · exact .inr hq
  · rw [hto] at hq
    cases hq

theorem Ledger.step {s t : DeviceState} {a : Action} (hl : Ledger s) (h : Evolves s a t)
    (hb : BalancedStep s a) : Ledger t := by
  -- the holder of `mutex_mcp` is where it was
  have hstay : t.mcp = s.mcp → ∀ p, t.mcp.session? = some p →
      ∃ v, s.trustletSessions.get? p = some v ∧
        ∀ h, t.mcp.handle? = some h → h ∈ v.buffers.handles := fun hto => hto ▸ hl.inHand
  -- a write to one session that leaves its buffers alone
  have hwrite : ∀ {p f es}, Touches s t (s.trustletSessions.modify p f) es →
      (∀ v, (f v).buffers = v.buffers) → (∀ e ∈ es, e.booked = false) → t.mcp = s.mcp →
      Ledger t := by
    intro p f es hc hf hes hto
    exact hl.frame hc hes (fun q => get?_modify_buffers _ p q hf) rfl (by rw [hto]) (hstay hto)
  -- no session is written, and the holder now has `p` in hand, without a handle
  have htake : ∀ {p v}, Quiet s t → s.trustletSessions.get? p = some v →
      s.mcp.mapping? = none → t.mcp.session? = some p → t.mcp.mapping? = none →
      t.mcp.handle? = none → Ledger t := by
    intro p v hq hp hfrom hsession hmapping hhandle
    refine hl.frame hq.touches (by simp) (fun q => rfl) rfl (hmapping.trans hfrom.symm) ?_
    intro q hto
    obtain rfl := Option.some.inj (hsession.symm.trans hto)
    exact ⟨v, hp, fun h hh => by rw [hhandle] at hh; cases hh⟩
  cases h with
  | beside hq hto =>
    exact hl.frame hq.touches (by simp) (fun q => rfl) rfl (by rw [hto]) (hstay hto)
  | moved hq hfrom hto =>
    refine hl.frame hq.touches (by simp) (fun q => rfl) rfl
      ((mapping?_of_session? hto).trans hfrom.symm) fun p hp => ?_
    rw [hto] at hp
    cases hp
  | opened hpc hc hto =>
    obtain ⟨rsp, u, hto⟩ := hto
    exact hl.opened (by rw [hpc]; rfl) hc.touches hto
  | drained _ _ _ hc hto =>
    refine hwrite hc.touches (fun v => rfl) (fun e he => ?_) hto
    split at he
    · rw [List.mem_singleton.mp he]
      rfl
    · cases he
  | queued _ _ _ hc hto =>
    refine hwrite hc.touches (fun v => rfl) (fun e he => ?_) hto
    split at he
    · rw [List.mem_singleton.mp he]
      rfl
    · cases he
  | forwarded _ _ _ hc hto =>
    exact hl.frame hc.touches (by simp [Effect.booked]) (fun q => rfl) rfl (by rw [hto])
      (hstay hto)
  | flushed _ _ _ _ hc hto =>
    exact hwrite hc.touches (fun v => rfl) (by simp [Effect.booked]) hto
  | flushEnd hc _ hto =>
    exact hl.frame hc (by simp) (fun q => rfl) rfl (by rw [hto]) (hstay hto)
  | attached _ hc _ hto => exact hwrite hc (fun v => rfl) (by simp) hto
  | @disconnected _ _ caller p v hp _ _ _ hfrom hc hto =>
    refine hl.frame hc.touches (by simp) (fun q => get?_modify_buffers _ p q fun v => rfl) rfl
      (by rw [hto, mapping?_of_session? hfrom]; rfl) fun q hq => ?_
    rw [hto] at hq ⊢
    obtain rfl : p = q := Option.some.inj hq
    exact ⟨v, hp, fun h hh => by cases hh⟩
  | closing hp _ _ _ hfrom hq hto =>
    exact htake hq hp (mapping?_of_session? hfrom) (by rw [hto]; rfl) (by rw [hto]; rfl)
      (by rw [hto]; rfl)
  | retried hpc hq hto =>
    obtain ⟨v, hp, -⟩ := hl.inHand _ (by rw [hpc]; rfl)
    exact htake hq hp (by rw [hpc]; rfl) (by rw [hto]; rfl) (by rw [hto]; rfl) (by rw [hto]; rfl)
  | @freed _ _ _ _ p _ v hpc hp hc hto =>
    refine hl.gone_of_remove hp (by rw [hpc]; rfl) hc.touches
      (fun q h => count_credited_freeCalls p q v h) (fun q h => count_unlock_freeCalls p q v h)
      (fun q hq => ?_) hto
    rcases List.mem_cons.mp hq with hq | hq
    · cases hq
      rfl
    · obtain ⟨w, -, hw⟩ := List.mem_map.mp (List.mem_reverse.mp hq)
      cases hw
  | recorded hm hp _ _ hfrom hc hto => exact hl.recorded hm hp hfrom hc.touches hto
  | mapped hpc hw hr hc hto =>
    simp only [BalancedStep, hw, hpc, hr] at hb
    obtain rfl : true = _ := hb
    exact hl.mapped hpc hc.touches hto
  | mapRejected hpc hw hr hq hto =>
    simp only [BalancedStep, hw, hpc, hr] at hb
    obtain rfl : false = _ := hb
    refine hl.frame hq.touches (by simp) (fun q => rfl) rfl (by rw [hto, hpc]; rfl) fun p hp => ?_
    rw [hto] at hp
    cases hp
  | @unmapping _ _ conn p c v hp _ hh _ hfrom hq hto =>
    refine hl.frame hq.touches (by simp) (fun q => rfl) rfl
      (by rw [hto, mapping?_of_session? hfrom]; rfl) fun q hsession => ?_
    rw [hto] at hsession ⊢
    obtain rfl : p = q := Option.some.inj hsession
    refine ⟨v, hp, fun h heq => ?_⟩
    obtain rfl : c.handle = h := Option.some.inj heq
    exact hh
  | unmapped hpc hc hto => exact hl.unmapped hpc hc.touches hto
  | reaping hp _ hfrom hq hto =>
    exact htake hq hp (by rw [hfrom]; rfl) (by rw [hto]; rfl) (by rw [hto]; rfl)
      (by rw [hto]; rfl)
  | @reaped _ _ _ _ p v _ hpc hw hr hp hc hto =>
    simp only [BalancedStep, hw, hpc] at hb
    have hempty : v.buffers.handles = [] := hb hr v hp
    refine hl.gone_of_remove hp (by rw [hpc]; rfl) hc.touches (fun q h => by simp)
      (fun q h => ?_) (fun q hq => ?_) (by rw [hto]; rfl)
    · simp [held, hempty]
    · simpa using hq

theorem started_ledger (mciReused : Bool) : Ledger (DeviceState.started mciReused) where
  listed := fun p v hv => by cases hv
  gone := fun _ _ _ => rfl
  removed := fun _ hp => by cases hp
  inHand := fun _ hp => by cases hp

/-- **Locks balance at teardown.** In every run whose maps are accepted exactly when they record
their handle, and whose dead sessions are deleted without buffers, each session that has left the
list was unlocked as often as it was locked, handle by handle. -/
theorem lockBalance_of_balancedSteps {mciReused : Bool} {as : List Action} {t : DeviceState}
    (h : machine.run (DeviceState.started mciReused) as = some t)
    (hb : machine.RunMeets BalancedStep (DeviceState.started mciReused) as) : LockBalance t :=
  (machine.inv_of_run (fun _ _ _ hl hb hs => Ledger.step hl (DeviceState.step_evolves hs) hb)
    (started_ledger mciReused) hb h).lockBalance

/-- A GP session with a TCI is closed while its task still runs, and ends later. -/
def taExitRun : List Action :=
  [.command 1 (.openDevice 0),
   .command 1 (.openSession ⟨some ⟨100, 1⟩, 8, 16, 0, { findWsmL2 := 4096 }⟩),
   .concurrent (.irq ⟨sidMcp, 0⟩),
   .wake (.notified ⟨mcMcpCmdOpenSession ||| flagResponse, mcMcpRetOk, 5, 0⟩) ⟨0x1000, 77⟩,
   .round,
   .command 1 (.closeSession 5),
   .concurrent (.irq ⟨sidMcp, 0⟩),
   .wake (.notified ⟨mcMcpCmdCloseSession ||| flagResponse, mcMcpRetErrCloseTaskFailed, 5, 0⟩)
     ⟨0, 0⟩,
   .concurrent (.irq ⟨5, 1⟩),
   .taExit,
   .round,
   .concurrent (.irq ⟨sidMcp, 0⟩),
   .wake (.notified ⟨mcMcpCmdCloseSession ||| flagResponse, mcMcpRetOk, 5, 0⟩) ⟨0, 0⟩]

/-- The clean-up deletes the session, and the lock on its TCI is never released. -/
theorem lockBalance_taExit :
    ∃ t, machine.run (DeviceState.started false) taExitRun = some t ∧
      Effect.removed 0 ∈ t.effects ∧ credits t 0 8 = 1 ∧ releases t 0 8 = 0 ∧
      ¬ LockBalance t := by
  refine ⟨_, rfl, by decide, by decide, by decide, fun hl => ?_⟩
  exact absurd (hl 0 (by decide) 8) (by decide)

/-- A session with a TCI and one bulk buffer is opened and closed. -/
def mapRun : List Action :=
  [.command 1 (.openDevice 0),
   .command 1 (.openSession ⟨some ⟨100, 0⟩, 8, 16, 0, { findWsmL2 := 4096 }⟩),
   .concurrent (.irq ⟨sidMcp, 0⟩),
   .wake (.notified ⟨mcMcpCmdOpenSession ||| flagResponse, mcMcpRetOk, 5, 0⟩) ⟨0x1000, 77⟩,
   .round,
   .command 1 (.mapBulk ⟨5, 9, 0, 32, { findWsmL2 := 8192 }⟩),
   .concurrent (.irq ⟨sidMcp, 0⟩),
   .wake (.notified ⟨mcMcpCmdMap ||| flagResponse, mcMcpRetOk, 5, 0x2000⟩) ⟨0, 0⟩,
   .command 1 (.closeSession 5),
   .concurrent (.irq ⟨sidMcp, 0⟩),
   .wake (.notified ⟨mcMcpCmdCloseSession ||| flagResponse, mcMcpRetOk, 5, 0⟩) ⟨0, 0⟩]

theorem lockBalance_mapRun :
    ∃ t, machine.run (DeviceState.started false) mapRun = some t ∧
      Effect.removed 0 ∈ t.effects ∧ LockBalance t := by
  have hrun : machine.run (DeviceState.started false) mapRun = some _ := rfl
  refine ⟨_, hrun, by decide, lockBalance_of_balancedSteps hrun ?_⟩
  exact ⟨trivial, trivial, trivial, trivial, trivial, trivial, trivial, rfl, trivial, trivial,
    trivial, trivial⟩

end McDaemon.Device
