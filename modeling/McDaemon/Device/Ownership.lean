/-
# McDaemon.Device.Ownership — a client's commands and the sessions of other clients.

A session is foreign to a connection that does not own it and has no command at work on it.  It
stays foreign along every run, and nothing that is done for the connection changes what the
session is to its own client.  The one thing a connection can do to a foreign session is to name
it exactly in an NQ_CONNECT.
-/
import McDaemon.Device.Evolution

namespace McDaemon.Device

open McDaemon.Lib

/-- What a session is to the client that owns it. -/
structure SessionView where
  sessionState : TsState
  deviceConnection : Option Conn
  buffers : List CWsm
deriving DecidableEq, Repr

def TrustletSession.view (v : TrustletSession) : SessionView where
  sessionState := v.sessionState
  deviceConnection := v.deviceConnection
  buffers := v.buffers.entries

/-- The session is or was in the list, `conn` does not own it, and no command of `conn` has it in
hand. -/
structure Foreign (conn : Conn) (p : Nat) (s : DeviceState) : Prop where
  known : p < s.trustletSessions.fresh
  owner : ∀ v, s.trustletSessions.get? p = some v → v.deviceConnection ≠ some conn
  notBusy : s.mcp.client? = some conn → s.mcp.session? ≠ some p

/-- `conn` asks for the notifications of `p` and knows all three values that name it. -/
def Presents (conn : Conn) (p : Nat) (s : DeviceState) (a : Action) : Prop :=
  ∃ c v, a = .concurrent (.nqConnect conn c) ∧ s.trustletSessions.get? p = some v ∧
    v.deviceSessionId = c.deviceSessionId ∧ v.sessionMagic = c.sessionMagic ∧
    v.sessionId = c.sessionId

/-- What a step taken for `conn` may do to `p`: nothing that its client sees, and nothing at all
unless an NQ_CONNECT of `conn` to `p` is in progress. -/
structure Spares (conn : Conn) (p : Nat) (s t : DeviceState) (a : Action) : Prop where
  view : (t.trustletSessions.get? p).map TrustletSession.view =
    (s.trustletSessions.get? p).map TrustletSession.view
  same : ¬ Presents conn p s a → s.nq ≠ some ⟨conn, p⟩ →
    t.trustletSessions.get? p = s.trustletSessions.get? p

theorem Spares.of_eq {conn : Conn} {p : Nat} {s t : DeviceState} {a : Action}
    (h : t.trustletSessions.get? p = s.trustletSessions.get? p) : Spares conn p s t a :=
  ⟨congrArg _ h, fun _ _ => h⟩

/-! ## Foreign sessions stay foreign -/

theorem Foreign.of_modify {conn : Conn} {p q : Nat} {s t : DeviceState}
    {f : TrustletSession → TrustletSession} (hf : Foreign conn p s)
    (hs : t.trustletSessions = s.trustletSessions.modify q f)
    (hview : ∀ v, (f v).deviceConnection = none ∨ (f v).deviceConnection = v.deviceConnection)
    (hbusy : t.mcp.client? = some conn → t.mcp.session? ≠ some p) : Foreign conn p t where
  known := by
    rw [hs]
    exact hf.known
  owner := by
    intro w hw
    rw [hs, PtrList.get?_modify] at hw
    split at hw
    · obtain ⟨v, hv, rfl⟩ := Option.map_eq_some_iff.mp hw
      rcases hview v with h | h
      · rw [h]
        exact (Option.some_ne_none conn).symm
      · rw [h]
        exact hf.owner v hv
    · exact hf.owner w hw
  notBusy := hbusy

theorem Foreign.of_eq {conn : Conn} {p : Nat} {s t : DeviceState} (hf : Foreign conn p s)
    (hs : t.trustletSessions = s.trustletSessions)
    (hbusy : t.mcp.client? = some conn → t.mcp.session? ≠ some p) : Foreign conn p t where
  known := hs ▸ hf.known
  owner := hs ▸ hf.owner
  notBusy := hbusy

theorem Foreign.of_remove {conn : Conn} {p q : Nat} {s t : DeviceState} (hf : Foreign conn p s)
    (hs : t.trustletSessions = s.trustletSessions.remove q)
    (hbusy : t.mcp.client? = some conn → t.mcp.session? ≠ some p) : Foreign conn p t where
  known := by
    rw [hs]
    exact hf.known
  owner := by
    intro v hv
    rw [hs, PtrList.get?_remove] at hv
    split at hv
    · cases hv
    · exact hf.owner v hv
  notBusy := hbusy

/-- A command of `conn` that finds a session by its owner does not find a foreign one. -/
theorem Foreign.ne_of_owner {conn conn' : Conn} {p q : Nat} {s : DeviceState}
    {v : TrustletSession} (hf : Foreign conn p s) (hq : s.trustletSessions.get? q = some v)
    (howner : v.deviceConnection = some conn') (hconn : conn' = conn) : q ≠ p := by
  rintro rfl
  exact hf.owner v hq (hconn ▸ howner)

theorem Foreign.step {conn : Conn} {p : Nat} {s t : DeviceState} {a : Action}
    (hf : Foreign conn p s) (h : Evolves s a t) : Foreign conn p t := by
  -- the holder of `mutex_mcp` is where it was, or has nothing in hand
  have hstay : t.mcp = s.mcp → t.mcp.client? = some conn → t.mcp.session? ≠ some p :=
    fun hto => hto ▸ hf.notBusy
  have hfree : t.mcp.session? = none → t.mcp.client? = some conn → t.mcp.session? ≠ some p := by
    intro hto _
    rw [hto]
    exact (Option.some_ne_none p).symm
  cases h with
  | beside hq hto => exact hf.of_eq hq.sessions (hstay hto)
  | moved hq _ hto => exact hf.of_eq hq.sessions (hfree hto)
  | opened _ hc hto =>
    obtain ⟨rsp, u, hto⟩ := hto
    have hne : s.trustletSessions.fresh ≠ p := Nat.ne_of_gt hf.known
    refine ⟨?_, fun v hv => ?_, fun _ => ?_⟩
    · rw [hc.sessions]
      exact Nat.lt_succ_of_lt hf.known
    · rw [hc.sessions, PtrList.get?_push, if_neg hne.symm] at hv
      exact hf.owner v hv
    · rw [hto]
      exact fun heq => hne (Option.some.inj heq)
  | drained _ _ _ hc hto => exact hf.of_modify hc.sessions (fun v => .inr rfl) (hstay hto)
  | queued _ _ _ hc hto => exact hf.of_modify hc.sessions (fun v => .inr rfl) (hstay hto)
  | forwarded _ _ _ hc hto => exact hf.of_eq hc.sessions (hstay hto)
  | flushed _ _ _ _ hc hto => exact hf.of_modify hc.sessions (fun v => .inr rfl) (hstay hto)
  | flushEnd hc _ hto => exact hf.of_eq hc.sessions (hstay hto)
  | attached _ hc _ hto => exact hf.of_modify hc.sessions (fun v => .inr rfl) (hstay hto)
  | disconnected hq howner _ _ _ hc hto =>
    refine hf.of_modify hc.sessions (fun v => .inl rfl) fun hconn heq => ?_
    rw [hto] at hconn heq
    exact hf.ne_of_owner hq howner (Option.some.inj hconn) (Option.some.inj heq)
  | closing hq howner _ _ _ hc hto =>
    refine hf.of_eq hc.sessions fun hconn heq => ?_
    rw [hto] at hconn heq
    exact hf.ne_of_owner hq howner (Option.some.inj hconn) (Option.some.inj heq)
  | retried hpc hq hto =>
    refine hf.of_eq hq.sessions ?_
    have hbusy := hf.notBusy
    rw [hpc] at hbusy
    rw [hto]
    exact hbusy
  | freed _ _ hc hto => exact hf.of_remove hc.sessions (hfree hto)
  | recorded _ hq howner _ _ hc hto =>
    refine hf.of_modify hc.sessions (fun v => .inr rfl) fun hconn heq => ?_
    rw [hto] at hconn heq
    exact hf.ne_of_owner hq howner (Option.some.inj hconn) (Option.some.inj heq)
  | mapped _ _ _ hc hto => exact hf.of_eq hc.sessions (hfree (by rw [hto]; rfl))
  | mapRejected _ _ _ hq hto => exact hf.of_eq hq.sessions (hfree (by rw [hto]; rfl))
  | unmapping hq howner _ _ _ hc hto =>
    refine hf.of_eq hc.sessions fun hconn heq => ?_
    rw [hto] at hconn heq
    exact hf.ne_of_owner hq howner (Option.some.inj hconn) (Option.some.inj heq)
  | unmapped _ hc hto =>
    exact hf.of_modify hc.sessions (fun v => .inr rfl) (hfree (by rw [hto]; rfl))
  | reaping _ _ _ hq hto =>
    refine hf.of_eq hq.sessions fun hconn => ?_
    rw [hto] at hconn
    cases hconn
  | reaped _ _ _ _ hc hto => exact hf.of_remove hc.sessions (hfree (by rw [hto]; rfl))

/-! ## Steps and runs -/

/-- Only the end of an NQ_CONNECT's locked section puts it in progress. -/
theorem Evolves.nq {s t : DeviceState} {a : Action} {conn : Conn} {p : Nat}
    (h : Evolves s a t) (ha : ¬ Presents conn p s a) (hs : s.nq ≠ some ⟨conn, p⟩) :
    t.nq ≠ some ⟨conn, p⟩ := by
  cases h with
  | beside hq | moved hq | closing _ _ _ _ _ hq | retried _ hq | mapRejected _ _ _ hq
  | unmapping _ _ _ _ _ hq | reaping _ _ _ hq => rwa [hq.nq]
  | opened _ hc | drained _ _ _ hc | queued _ _ _ hc | forwarded _ _ _ hc | flushed _ _ _ _ hc
  | disconnected _ _ _ _ _ hc | freed _ _ hc | recorded _ _ _ _ _ hc | mapped _ _ _ hc
  | unmapped _ hc | reaped _ _ _ _ hc => rwa [hc.nq]
  | flushEnd _ hnq => simp [hnq]
  | attached hreg _ hnq =>
    rw [hnq]
    intro heq
    cases heq
    obtain ⟨v, hv, hkeys⟩ := PtrList.find?_spec hreg
    simp only [Bool.and_eq_true, beq_iff_eq] at hkeys
    exact ha ⟨_, v, rfl, hv, hkeys.1.1, hkeys.1.2, hkeys.2⟩

end McDaemon.Device
