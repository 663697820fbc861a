/-
# McDaemon.Device.TaExitLoop — one wake-up of the clean-up of dead sessions.

`handleTaExit` scans the list for a dead session, from the front, and sends a CLOSE_SESSION for the
one it finds, until a scan finds none; it holds `mutex_mcp` all the while.  A session whose close
fails is logged as "could not be closed yet" and stays where it is, so the next scan finds it
again.  The pass ends exactly when no refusal is for good: behind every attempt there is one that
the secure world grants.
-/
import Mathlib.Data.Nat.Init
import McDaemon.Device.CloseLoop
import McDaemon.Device.Lifecycle

namespace McDaemon.Device

open McDaemon.Lib

/-! ## The loop -/

/-- What happens around one round: steps of the other threads before the scan, then the exchange of
the session that the scan finds. -/
structure TaExitInput where
  before : List Concurrent
  exchange : Exchange

/-- The state in which the scan of a round runs. -/
def DeviceState.scanned (s : DeviceState) (i : TaExitInput) : Option DeviceState :=
  machine.run s (i.before.map Action.concurrent)

/-- One round of the loop of `handleTaExit`; no round starts when the scan finds nothing. -/
def taExitIteration (s : DeviceState) (i : TaExitInput) : Option DeviceState :=
  (s.scanned i).bind fun s =>
    if s.firstDead = none then none
    else (machine.step s .round).bind fun s => s.await i.exchange

/-- The scan of round `n` runs, in state `w`. -/
def Scans (s : DeviceState) (inputs : Nat → TaExitInput) (n : Nat) (w : DeviceState) : Prop :=
  ∃ u, loopState taExitIteration s inputs n = some u ∧ u.scanned (inputs n) = some w

/-- The inputs are steps that the machine can take: no round gets stuck before its end. -/
def Feasible (s : DeviceState) (inputs : Nat → TaExitInput) : Prop :=
  ∀ n u, loopState taExitIteration s inputs n = some u → ∃ w, u.scanned (inputs n) = some w ∧
    (w.firstDead = none ∨ (taExitIteration u (inputs n)).isSome = true)

/-- The session behind `p` is dead. -/
def DeadAt (s : DeviceState) (p : Nat) : Prop :=
  ∃ v, s.trustletSessions.get? p = some v ∧ v.sessionState = .taDead

/-- The pass ends: some scan finds nothing, the next section releases `mutex_mcp`, and every session
that was dead at a scan has been attempted at that scan or after it. -/
def CleansUp (s : DeviceState) (inputs : Nat → TaExitInput) : Prop :=
  ∃ n w, Scans s inputs n w ∧ w.firstDead = none ∧ machine.step w .round = some (w.goto .idle) ∧
    ∀ k v p, k ≤ n → Scans s inputs k v → DeadAt v p →
      ∃ m x, k ≤ m ∧ m < n ∧ Scans s inputs m x ∧ x.firstDead = some p

/-- No refusal is for good: behind every attempt, or at it, the secure world closes a session. -/
def NeverRefusedForGood (s : DeviceState) (inputs : Nat → TaExitInput) : Prop :=
  ∀ n w, Scans s inputs n w → w.firstDead ≠ none →
    ∃ m x, n ≤ m ∧ Scans s inputs m x ∧ x.firstDead ≠ none ∧
      ClosedAtOnce x (inputs m).exchange.wake

/-! ## Beside the loop -/

/-- The other threads have run: the holder is where it was, no session is gone, and the dead ones
are dead. -/
structure Undisturbed (s t : DeviceState) : Prop where
  waited : Waited s t
  count : t.trustletSessions.count (fun _ => true) = s.trustletSessions.count fun _ => true
  dead : ∀ p, DeadAt s p → DeadAt t p

theorem Undisturbed.refl (s : DeviceState) : Undisturbed s s where
  waited := .refl s
  count := rfl
  dead := fun _ h => h

theorem Undisturbed.trans {s t u : DeviceState} (h : Undisturbed s t) (h' : Undisturbed t u) :
    Undisturbed s u where
  waited := h.waited.trans h'.waited
  count := h'.count.trans h.count
  dead := fun p hp => h'.dead p (h.dead p hp)

theorem undisturbed_of_concurrent {s t : DeviceState} {c : Concurrent} (hmcp : s.mcp = .taExitLoop ∨
    ∃ p, s.mcp = .taExitWait p) (h : machine.step s (.concurrent c) = some t) :
    Undisturbed s t := by
  have hb : DeviceState.Beside s t := by
    change (if s.mcp = .aborted then none else s.concurrentStep c) = some t at h
    split at h
    · cases h
    · exact DeviceState.concurrentStep_beside h
  refine ⟨waited_of_beside hb, ?_, ?_⟩
  · obtain ⟨-, -, hs | ⟨p, f, hs, -⟩⟩ := hb
    · rw [hs]
    · rw [hs]
      exact PtrList.count_modify_eq fun _ _ => rfl
  · rintro p ⟨v, hv, hdead⟩
    obtain ⟨w, hw, -⟩ := (waited_of_beside hb).sessions p v hv
    refine ⟨w, hw, ?_⟩
    have hstep : s.step (.concurrent c) = some t := h
    rcases DeviceState.session_evolves hstep hw with ⟨hfresh, -⟩ | ⟨v', hv', hev⟩
    · have hlt := PtrList.lt_fresh_of_get? hv
      omega
    · obtain rfl := Option.some.inj (hv.symm.trans hv')
      refine hev.dead_of_dead (fun caller retry hwait => ?_) hdead
      rw [hb.mcp] at hwait
      rcases hmcp with hmcp | ⟨q, hmcp⟩ <;> rw [hmcp] at hwait <;> cases hwait

theorem run_concurrent_undisturbed {s t : DeviceState} {others : List Concurrent}
    (hmcp : s.mcp = .taExitLoop ∨ ∃ p, s.mcp = .taExitWait p)
    (h : machine.run s (others.map Action.concurrent) = some t) : Undisturbed s t := by
  induction others generalizing s with
  | nil =>
    cases h
    exact .refl _
  | cons c others ih =>
    obtain ⟨u, hu, ht⟩ := machine.run_cons_elim h
    have hstep := undisturbed_of_concurrent hmcp hu
    refine hstep.trans (ih ?_ ht)
    rw [hstep.waited.mcp]
    exact hmcp

/-! ## One round -/

theorem firstDead_eq_none {s : DeviceState} : s.firstDead = none ↔ ∀ p, ¬ DeadAt s p := by
  rw [DeviceState.firstDead, PtrList.find?_eq_none_iff]
  simp only [DeadAt, beq_eq_false_iff_ne, ne_eq, not_exists, not_and]

theorem deadAt_of_firstDead {s : DeviceState} {p : Nat} (h : s.firstDead = some p) :
    DeadAt s p := by
  obtain ⟨v, hv, hdead⟩ := PtrList.find?_spec h
  exact ⟨v, hv, by simpa using hdead⟩

/-- A scan that finds nothing is the last: the next section releases `mutex_mcp`. -/
theorem round_of_firstDead_eq_none {s : DeviceState} (hmcp : s.mcp = .taExitLoop)
    (h : s.firstDead = none) : machine.step s .round = some (s.goto .idle) := by
  show s.nextRound s.mcp = _
  simp only [hmcp, DeviceState.nextRound, DeviceState.taExitRound, h]

/-- What one round does to the list: the session that it attempts is gone exactly when the secure
world closed it, and nothing else is. -/
structure TaExitRound (s : DeviceState) (i : TaExitInput) (t : DeviceState) (w : DeviceState)
    (p : Nat) : Prop where
  scanned : s.scanned i = some w
  found : w.firstDead = some p
  mcp : t.mcp = .taExitLoop
  closed : ClosedAtOnce w i.exchange.wake →
    t.trustletSessions.count (fun _ => true) + 1 = s.trustletSessions.count fun _ => true
  refused : ¬ ClosedAtOnce w i.exchange.wake →
    t.trustletSessions.count (fun _ => true) = s.trustletSessions.count fun _ => true
  dead : ∀ q, DeadAt w q → q ≠ p ∨ ¬ ClosedAtOnce w i.exchange.wake → DeadAt t q

/-- `handleTaExit` after an exchange. -/
theorem taExitAnswer_spec {s : DeviceState} {p : Nat} {v : TrustletSession}
    (hv : s.trustletSessions.get? p = some v) (rsp : Option McpResponse) :
    (s.taExitAnswer p rsp).mcp = .taExitLoop ∧
      (closeSessionInternal rsp = mcDrvOk →
        (s.taExitAnswer p rsp).trustletSessions = s.trustletSessions.remove p) ∧
      (closeSessionInternal rsp ≠ mcDrvOk →
        (s.taExitAnswer p rsp).trustletSessions = s.trustletSessions) := by
  simp only [DeviceState.taExitAnswer, hv]
  by_cases hok : closeSessionInternal rsp = mcDrvOk
  · rw [if_pos hok]
    exact ⟨rfl, fun _ => (DeviceState.removeSession_changes s p v).sessions,
      fun hno => absurd hok hno⟩
  · rw [if_neg hok]
    exact ⟨rfl, fun hyes => absurd hyes hok, fun _ => rfl⟩

/-- **One round.** -/
theorem taExitIteration_spec {s t : DeviceState} {i : TaExitInput} (hmcp : s.mcp = .taExitLoop)
    (ht : taExitIteration s i = some t) : ∃ w p, TaExitRound s i t w p := by
  obtain ⟨w, hscan, ht⟩ := Option.bind_eq_some_iff.mp ht
  have hbefore := run_concurrent_undisturbed (.inl hmcp) hscan
  have hwmcp : w.mcp = .taExitLoop := by rw [hbefore.waited.mcp, hmcp]
  obtain ⟨hsome, ht⟩ := Option.ite_none_left_eq_some.mp ht
  obtain ⟨p, hp⟩ := Option.ne_none_iff_exists'.mp hsome
  obtain ⟨v, hv, -⟩ := PtrList.find?_spec hp
  -- the section before the exchange writes the command and leaves the list alone
  let x := w.mshNotifyAndWait (.closeSession v.sessionId) (.taExitWait p)
  have hround : machine.step w .round = some x := by
    show w.nextRound w.mcp = _
    simp only [hwmcp, DeviceState.nextRound, DeviceState.taExitRound, hp, hv]
    rfl
  rw [hround, Option.bind_some] at ht
  obtain ⟨y, hy, hwake⟩ := (machine.run_append).mp ht
  obtain ⟨t', ht', hnil⟩ := machine.run_cons_elim hwake
  cases hnil
  have hduring : Undisturbed x y := run_concurrent_undisturbed (.inr ⟨p, rfl⟩) hy
  obtain ⟨⟨rsp, z⟩, hz, ht'⟩ := Option.bind_eq_some_iff.mp ht'
  obtain ⟨hzq, hzmcp⟩ := DeviceState.waitMcpNotification_spec hz
  have hzs : z.trustletSessions = y.trustletSessions := hzq.sessions
  obtain ⟨v', hv', -⟩ := hduring.waited.sessions p v hv
  have hpc : z.mcp = .taExitWait p := by rw [hzmcp, hduring.waited.mcp]; rfl
  have hanswer : z.taExitAnswer p rsp = t := by
    dsimp only at ht'
    rw [hpc] at ht'
    exact Option.some.inj ht'
  have hzv : z.trustletSessions.get? p = some v' := by rw [hzs, hv']
  obtain ⟨htmcp, hclosed, hrefused⟩ := taExitAnswer_spec hzv rsp
  rw [hanswer] at htmcp hclosed hrefused
  have hiff : closeSessionInternal rsp = mcDrvOk ↔ ClosedAtOnce w i.exchange.wake :=
    closedAtOnce_iff (s := x) hduring.waited hz
  rw [ne_eq, hiff] at hrefused
  rw [hiff] at hclosed
  have hcount : z.trustletSessions.count (fun _ => true) =
      s.trustletSessions.count fun _ => true := by
    rw [hzs, hduring.count]
    exact hbefore.count
  have hdead : ∀ q, DeadAt w q → DeadAt z q := by
    intro q hq
    obtain ⟨u, hu, hstate⟩ := hduring.dead q hq
    exact ⟨u, by rw [hzs, hu], hstate⟩
  refine ⟨w, p, hscan, hp, htmcp, fun hc => ?_, fun hc => ?_, fun q hq hor => ?_⟩
  · rw [hclosed hc, ← hcount]
    simpa using PtrList.count_remove (q := fun _ => true) hzv
  · rw [hrefused hc, hcount]
  · obtain ⟨u, hu, hstate⟩ := hdead q hq
    by_cases hc : ClosedAtOnce w i.exchange.wake
    · refine ⟨u, ?_, hstate⟩
      rw [hclosed hc, PtrList.get?_remove, if_neg (hor.resolve_right fun h => h hc), hu]
    · exact ⟨u, by rw [hrefused hc, hu], hstate⟩

/-! ## The whole pass -/

section Pass

variable {s : DeviceState} {inputs : Nat → TaExitInput}

theorem loopState_mcp (hmcp : s.mcp = .taExitLoop) {n : Nat} {u : DeviceState}
    (hu : loopState taExitIteration s inputs n = some u) : u.mcp = .taExitLoop := by
  refine loopState_inv taExitIteration (I := fun u => u.mcp = .taExitLoop) hmcp ?_ hu
  intro k u t hu ht
  obtain ⟨w, p, hround⟩ := taExitIteration_spec hu ht
  exact hround.mcp

theorem Scans.unique {n : Nat} {w w' : DeviceState} (h : Scans s inputs n w)
    (h' : Scans s inputs n w') : w = w' := by
  obtain ⟨u, hu, hw⟩ := h
  obtain ⟨u', hu', hw'⟩ := h'
  obtain rfl := Option.some.inj (hu.symm.trans hu')
  exact Option.some.inj (hw.symm.trans hw')

/-- A round of the pass, told from the state after it. -/
theorem round_of_succ (hmcp : s.mcp = .taExitLoop) {n : Nat} {t : DeviceState}
    (ht : loopState taExitIteration s inputs (n + 1) = some t) :
    ∃ u w p, loopState taExitIteration s inputs n = some u ∧ Scans s inputs n w ∧
      TaExitRound u (inputs n) t w p := by
  obtain ⟨u, hu, ht⟩ := Option.bind_eq_some_iff.mp ht
  obtain ⟨w, p, hround⟩ := taExitIteration_spec (loopState_mcp hmcp hu) ht
  exact ⟨u, w, p, hu, ⟨u, hu, hround.scanned⟩, hround⟩

/-- A scan that finds a session is followed by its attempt. -/
theorem round_of_scans (hmcp : s.mcp = .taExitLoop) (hfeas : Feasible s inputs) {n : Nat}
    {w : DeviceState} (hw : Scans s inputs n w) (hfound : w.firstDead ≠ none) :
    ∃ u t p, loopState taExitIteration s inputs n = some u ∧
      loopState taExitIteration s inputs (n + 1) = some t ∧
      TaExitRound u (inputs n) t w p := by
  obtain ⟨u, hu, hscan⟩ := hw
  obtain ⟨w', hscan', hor⟩ := hfeas n u hu
  obtain rfl := Option.some.inj (hscan.symm.trans hscan')
  obtain ⟨t, ht⟩ := Option.isSome_iff_exists.mp (hor.resolve_left hfound)
  obtain ⟨w', p, hround⟩ := taExitIteration_spec (loopState_mcp hmcp hu) ht
  obtain rfl := Option.some.inj (hscan.symm.trans hround.scanned)
  exact ⟨u, t, p, hu, Option.bind_eq_some_iff.mpr ⟨u, hu, ht⟩, hround⟩

/-- No round adds a session. -/
theorem count_le (hmcp : s.mcp = .taExitLoop) {n m : Nat} (hle : n ≤ m) {u t : DeviceState}
    (hu : loopState taExitIteration s inputs n = some u)
    (ht : loopState taExitIteration s inputs m = some t) :
    t.trustletSessions.count (fun _ => true) ≤ u.trustletSessions.count fun _ => true := by
  induction m, hle using Nat.le_induction generalizing t with
  | base =>
    obtain rfl := Option.some.inj (hu.symm.trans ht)
    exact Nat.le_refl _
  | succ m hle ih =>
    obtain ⟨v, w, p, hv, -, hround⟩ := round_of_succ hmcp ht
    have hprev := ih hv
    by_cases hc : ClosedAtOnce w (inputs m).exchange.wake
    · have hless := hround.closed hc
      omega
    · have hsame := hround.refused hc
      omega

/-- A session that was dead at a scan is dead at every later one, unless it was attempted. -/
theorem attempted_or_dead (hmcp : s.mcp = .taExitLoop) {k n p : Nat} (hle : k ≤ n)
    {v w : DeviceState} (hv : Scans s inputs k v) (hdead : DeadAt v p)
    (hw : Scans s inputs n w) :
    (∃ m x, k ≤ m ∧ m < n ∧ Scans s inputs m x ∧ x.firstDead = some p) ∨ DeadAt w p := by
  induction n, hle using Nat.le_induction generalizing w with
  | base =>
    obtain rfl := hv.unique hw
    exact .inr hdead
  | succ n hle ih =>
    obtain ⟨t, ht, hscan⟩ := hw
    obtain ⟨u, x, q, hu, hx, hround⟩ := round_of_succ hmcp ht
    rcases ih hx with ⟨m, y, hkm, hmn, hy, hfound⟩ | hxdead
    · exact .inl ⟨m, y, hkm, Nat.lt_succ_of_lt hmn, hy, hfound⟩
    · by_cases hq : p = q
      · exact .inl ⟨n, x, hle, Nat.lt_succ_self n, hx, by rw [hq, hround.found]⟩
      · have hbefore := run_concurrent_undisturbed (.inl hround.mcp) hscan
        exact .inr (hbefore.dead p (hround.dead p hxdead (.inl hq)))

/-- While every close is refused, some session is dead at every scan. -/
theorem dead_of_refused (hmcp : s.mcp = .taExitLoop) {n m : Nat} (hle : n ≤ m)
    (hrefused : ∀ k x, n ≤ k → Scans s inputs k x → x.firstDead ≠ none →
      ¬ ClosedAtOnce x (inputs k).exchange.wake)
    {w x : DeviceState} (hw : Scans s inputs n w) (hfound : w.firstDead ≠ none)
    (hx : Scans s inputs m x) : x.firstDead ≠ none := by
  induction m, hle using Nat.le_induction generalizing x with
  | base =>
    obtain rfl := hw.unique hx
    exact hfound
  | succ m hle ih =>
    obtain ⟨t, ht, hscan⟩ := hx
    obtain ⟨u, y, q, hu, hy, hround⟩ := round_of_succ hmcp ht
    have hyfound := ih hy
    have hydead := deadAt_of_firstDead hround.found
    have htdead := hround.dead q hydead (.inr (hrefused m y hle hy hyfound))
    have hbefore := run_concurrent_undisturbed (.inl hround.mcp) hscan
    exact fun hnone => firstDead_eq_none.mp hnone q (hbefore.dead q htdead)

/-- When no refusal is for good, the pass comes to a scan that finds nothing. -/
theorem scan_finds_nothing (hmcp : s.mcp = .taExitLoop) (hfeas : Feasible s inputs)
    (hgood : NeverRefusedForGood s inputs) {n : Nat} {u : DeviceState}
    (hu : loopState taExitIteration s inputs n = some u) :
    ∃ m w, Scans s inputs m w ∧ w.firstDead = none := by
  -- a granted close takes a session off the list, and none comes in
  induction hc : u.trustletSessions.count (fun _ => true) using Nat.strong_induction_on
    generalizing n u with
  | _ c ih =>
    obtain ⟨w, hw, -⟩ := hfeas n u hu
    by_cases hnone : w.firstDead = none
    · exact ⟨n, w, ⟨u, hu, hw⟩, hnone⟩
    · obtain ⟨m, x, hnm, hx, hfound, hclosed⟩ := hgood n w ⟨u, hu, hw⟩ hnone
      obtain ⟨v, t, p, hv, ht, hround⟩ := round_of_scans hmcp hfeas hx hfound
      have hle := count_le hmcp hnm hu hv
      have hless := hround.closed hclosed
      exact ih _ (by omega) ht rfl

end Pass

/-- **The clean-up pass ends.** From every state in which the loop of `handleTaExit` starts, and for
all steps of the other threads and answers of the secure world, the pass ends and has attempted
every dead session, exactly when no refusal is for good. -/
theorem cleansUp_iff_neverRefusedForGood {s : DeviceState} (hmcp : s.mcp = .taExitLoop)
    (inputs : Nat → TaExitInput) (hfeas : Feasible s inputs) :
    CleansUp s inputs ↔ NeverRefusedForGood s inputs := by
  constructor
  · rintro ⟨N, w', hw', hnone, -, -⟩ n w hw hfound
    by_contra hno
    have hrefused : ∀ k x, n ≤ k → Scans s inputs k x → x.firstDead ≠ none →
        ¬ ClosedAtOnce x (inputs k).exchange.wake :=
      fun k x hk hx hx' hclosed => hno ⟨k, x, hk, hx, hx', hclosed⟩
    by_cases hN : n ≤ N
    · exact dead_of_refused hmcp hN hrefused hw hfound hw' hnone
    · -- the pass was over before the scan
      obtain ⟨u, hu, -⟩ := hw
      obtain ⟨t, ht⟩ := loopState_of_le taExitIteration (Nat.lt_of_not_le hN) hu
      obtain ⟨v, x, q, hv, hx, hround⟩ := round_of_succ hmcp ht
      obtain rfl := hw'.unique hx
      rw [hround.found] at hnone
      cases hnone
  · intro hgood
    obtain ⟨n, w, hw, hnone⟩ := scan_finds_nothing hmcp hfeas hgood (n := 0) rfl
    have hwmcp : w.mcp = .taExitLoop := by
      obtain ⟨u, hu, hscan⟩ := hw
      have humcp := loopState_mcp hmcp hu
      rw [(run_concurrent_undisturbed (.inl humcp) hscan).waited.mcp, humcp]
    refine ⟨n, w, hw, hnone, round_of_firstDead_eq_none hwmcp hnone, fun k v p hk hv hdead => ?_⟩
    rcases attempted_or_dead hmcp hk hv hdead hw with hattempted | hwdead
    · exact hattempted
    · exact absurd hwdead (firstDead_eq_none.mp hnone p)

/-- The client of GP session 5 closes it while its task still runs; the task ends later, and wakes
`handleTaExit` up. -/
def orphanedRun : List Action :=
  openGp 1 5 0x1000 ++ .command 1 (.closeSession 5) ::
    closeExchange mcMcpRetErrCloseTaskFailed ++ [.concurrent (.irq ⟨5, 1⟩), .taExit]

def orphanedState : DeviceState :=
  (machine.run (DeviceState.started false) orphanedRun).getD (DeviceState.started false)

/-- The secure world answers every CLOSE_SESSION of the pass with `code`. -/
def exitAnswering (code : UInt32) (n : Nat) : TaExitInput := ⟨[], (answering code n).1⟩

/-- The list with the dead session alone. -/
def orphanedList : PtrList TrustletSession := orphanedState.trustletSessions

/-- The pass is running and the dead session is still in the list. -/
def StuckExit (s : DeviceState) : Prop :=
  s.mcp = .taExitLoop ∧ s.mcFault = false ∧ s.trustletSessions = orphanedList

theorem StuckExit.round {s : DeviceState} (h : StuckExit s) (n : Nat) :
    ∃ t, taExitIteration s (exitAnswering mcMcpRetErrCloseTaskFailed n) = some t ∧
      StuckExit t := by
  obtain ⟨l, ns, removed, fault, signals, wakeups, conns, out, pc, nq, effects⟩ := s
  obtain ⟨hpc, hfault, hl⟩ := h
  dsimp only at hpc hfault hl
  subst hpc hfault hl
  exact ⟨_, rfl, rfl, rfl, rfl⟩

theorem StuckExit.loopState {s : DeviceState} (h : StuckExit s) (n : Nat) :
    ∃ u, loopState taExitIteration s (exitAnswering mcMcpRetErrCloseTaskFailed) n = some u ∧
      StuckExit u := by
  induction n with
  | zero => exact ⟨s, rfl, h⟩
  | succ n ih =>
    obtain ⟨u, hu, hstuck⟩ := ih
    obtain ⟨t, ht, hstuck'⟩ := hstuck.round n
    exact ⟨t, Option.bind_eq_some_iff.mpr ⟨u, hu, ht⟩, hstuck'⟩

/-- A dead session whose close is refused each time keeps the pass going for ever. -/
theorem taExit_never_ends :
    machine.run (DeviceState.started false) orphanedRun = some orphanedState ∧
      orphanedState.mcp = .taExitLoop ∧
      Feasible orphanedState (exitAnswering mcMcpRetErrCloseTaskFailed) ∧
      (∀ n, (loopState taExitIteration orphanedState
        (exitAnswering mcMcpRetErrCloseTaskFailed) n).isSome = true) ∧
      ¬ CleansUp orphanedState (exitAnswering mcMcpRetErrCloseTaskFailed) := by
  have hstuck : StuckExit orphanedState := ⟨rfl, rfl, rfl⟩
  refine ⟨rfl, rfl, fun n u hu => ?_, fun n => ?_, ?_⟩
  · obtain ⟨u', hu', hstuck'⟩ := hstuck.loopState n
    obtain rfl := Option.some.inj (hu.symm.trans hu')
    obtain ⟨t, ht, -⟩ := hstuck'.round n
    exact ⟨u, rfl, .inr (by rw [ht]; rfl)⟩
  · obtain ⟨u, hu, -⟩ := hstuck.loopState n
    rw [hu]
    rfl
  · rintro ⟨n, w, ⟨u, hu, hscan⟩, hnone, -⟩
    obtain ⟨u', hu', -, -, hl⟩ := hstuck.loopState n
    obtain rfl := Option.some.inj (hu.symm.trans hu')
    cases hscan
    rw [DeviceState.firstDead, hl] at hnone
    cases hnone

/-- The same session, closed at the first attempt. -/
theorem cleansUp_granted : CleansUp orphanedState (exitAnswering mcMcpRetOk) := by
  have hrounds : ∀ n u, loopState taExitIteration orphanedState (exitAnswering mcMcpRetOk) n =
      some u → (u = orphanedState ∧ n = 0) ∨ u.firstDead = none := by
    intro n
    induction n with
    | zero =>
      rintro u ⟨⟩
      exact .inl ⟨rfl, rfl⟩
    | succ n ih =>
      intro t ht
      obtain ⟨u, hu, ht⟩ := Option.bind_eq_some_iff.mp ht
      rcases ih u hu with ⟨rfl, rfl⟩ | hnone
      · cases ht
        exact .inr rfl
      · -- the scan before this round has found nothing
        have hend : taExitIteration u (exitAnswering mcMcpRetOk n) = none := if_pos hnone
        rw [hend] at ht
        cases ht
  refine (cleansUp_iff_neverRefusedForGood rfl _ fun n u hu => ?_).mpr fun n w hw hfound => ?_
  · rcases hrounds n u hu with ⟨rfl, rfl⟩ | hnone
    · exact ⟨_, rfl, .inr rfl⟩
    · exact ⟨u, rfl, .inl hnone⟩
  · obtain ⟨u, hu, hscan⟩ := hw
    cases hscan
    rcases hrounds n w hu with ⟨rfl, rfl⟩ | hnone
    · exact ⟨0, _, Nat.le_refl 0, ⟨_, rfl, rfl⟩, hfound, rfl, _, rfl, rfl, rfl⟩
    · exact absurd hnone hfound

end McDaemon.Device
