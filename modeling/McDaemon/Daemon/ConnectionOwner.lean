/-
# McDaemon.Daemon.ConnectionOwner — who owns the connection of a client.

A connection belongs to its client until an NQ_CONNECT hands it to a session, and is deleted with
its owner.  The hand-over takes the connection from the client first and looks for the session
afterwards; when there is none, or when the session has a connection already, a connection is left
without an owner.  References, holders and deletions of a connection add up to one in every run in
which an NQ_CONNECT finds a session without a connection.
-/
import McDaemon.Daemon.Server
import McDaemon.Device.Frame

namespace McDaemon.Daemon

open McDaemon.Lib McDaemon.Device

/-! ## The account of a connection -/

namespace ServerState

/-- The clients that have the connection. -/
def references (s : ServerState) (conn : Conn) : Nat :=
  s.clients.count fun c => c.connection == some conn

/-- The owners of a connection: clients, and sessions that have it for their notifications. -/
def owners (s : ServerState) (conn : Conn) : Nat :=
  s.references conn + heldBy s.device.trustletSessions conn

/-- How often a connection was deleted, with a session or with a client. -/
def deleted (s : ServerState) (conn : Conn) : Nat :=
  deletions s.device.effects conn + s.reaped.count conn

/-- A connection that a client of the socket server was made with. -/
def IsClientConnection (s : ServerState) (conn : Conn) : Prop :=
  conn < s.next ∧ conn ∉ s.peers

end ServerState

/-- Every live connection has exactly one owner, and a deleted one has none. -/
def OwnedOnce (s : ServerState) : Prop :=
  ∀ conn, s.IsClientConnection conn →
    (s.deleted conn = 0 → s.owners conn = 1) ∧ (s.deleted conn ≠ 0 → s.owners conn = 0)

/-- An NQ_CONNECT that takes a connection from its client has a session for it, and takes no
client's connection from that session. -/
def FindsOwner (s : ServerState) : Device.Action → Prop
  | .concurrent (.nqConnect conn c) =>
    conn ∉ s.device.connectionData →
      (conn ∉ s.peers → c.deviceId = mcDeviceIdDefault ∧
        s.device.registerTrustletConnection c ≠ none) ∧
      ∀ p v old, c.deviceId = mcDeviceIdDefault →
        s.device.registerTrustletConnection c = some p →
          s.device.trustletSessions.get? p = some v →
            v.notificationConnection = some old → old ∈ s.peers
  | _ => True

/-- The same for a step of the server. -/
def KeepsOwner (s : ServerState) : ServerAction → Prop
  | .handle a | .device a => FindsOwner s a
  | _ => True

/-- Owners and deletions of a client's connection add up to one, and to nothing before the
connection is made. -/
def Owned (s : ServerState) : Prop :=
  ∀ conn, conn ∉ s.peers → s.owners conn + s.deleted conn = if conn < s.next then 1 else 0

theorem Owned.ownedOnce {s : ServerState} (h : Owned s) : OwnedOnce s := by
  rintro conn ⟨hlt, hpeer⟩
  have haccount := h conn hpeer
  rw [if_pos hlt] at haccount
  constructor
  · intro hzero
    omega
  · intro hne
    omega

/-- A step that leaves the account of every connection alone. -/
theorem Owned.of_eq {s t : ServerState} (h : Owned s)
    (heq : ∀ conn, conn ∉ s.peers →
      t.owners conn + t.deleted conn = s.owners conn + s.deleted conn)
    (hnext : t.next = s.next) (hpeers : t.peers = s.peers) : Owned t := by
  intro conn hpeer
  rw [hpeers] at hpeer
  rw [heq conn hpeer, hnext]
  exact h conn hpeer

/-! ## Steps of the device -/

namespace ServerState

theorem references_pos {s : ServerState} {p : Nat} {c : Client} {conn : Conn}
    (hc : s.clients.get? p = some c) (hconn : c.connection = some conn) :
    s.references conn ≠ 0 := by
  intro hzero
  have hnone := (PtrList.count_eq_zero_iff _ _).mp hzero p c hc
  rw [hconn, beq_self_eq_true] at hnone
  cases hnone

theorem heldBy_pos {l : PtrList TrustletSession} {p : Nat} {v : TrustletSession} {conn : Conn}
    (hv : l.get? p = some v) (hconn : v.notificationConnection = some conn) :
    heldBy l conn ≠ 0 := by
  intro hzero
  have hnone := (PtrList.count_eq_zero_iff _ _).mp hzero p v hv
  rw [hconn, beq_self_eq_true] at hnone
  cases hnone

/-- A detached connection has one reference less, the others have what they had. -/
theorem references_detachConnection (s : ServerState) (conn x : Conn) :
    (s.detachConnection conn).references x +
      (if x = conn ∧ s.references conn ≠ 0 then 1 else 0) = s.references x := by
  unfold detachConnection
  split
  · next hnone =>
    have hzero : s.references conn = 0 :=
      (PtrList.count_eq_zero_iff _ _).mpr ((PtrList.find?_eq_none_iff _ _).mp hnone)
    rw [if_neg fun h => h.2 hzero, Nat.add_zero]
  · next p hfind =>
    obtain ⟨c, hc, hconn⟩ := PtrList.find?_spec hfind
    have hconn : c.connection = some conn := beq_iff_eq.mp hconn
    have hcount := PtrList.count_modify (fun c : Client => { c with connection := none })
      (fun c => c.connection == some x) hc
    have hpos := references_pos hc hconn
    simp only [hconn, Option.none_beq_some, Bool.false_eq_true, if_false, Nat.add_zero] at hcount
    by_cases hx : x = conn
    · rw [if_pos ⟨hx, hpos⟩]
      rw [if_pos (by rw [hx]; exact beq_self_eq_true _)] at hcount
      exact hcount
    · have hne : (some conn == some x) = false := beq_eq_false_iff_ne.mpr fun h =>
        hx (Option.some.inj h).symm
      rw [if_neg fun h => hx h.1]
      rw [hne] at hcount
      exact hcount

/-- A detach changes nothing but the clients. -/
theorem detachConnection_frame (s : ServerState) (d : DeviceState) (conn : Conn) :
    ∃ l, s.detachConnection conn = { s with clients := l } ∧
      { s with device := d }.detachConnection conn = { s with device := d, clients := l } := by
  cases hfind : s.clients.find? fun c => c.connection == some conn with
  | none => exact ⟨s.clients, by simp only [detachConnection, hfind],
      by simp only [detachConnection, hfind]⟩
  | some p => exact ⟨_, by simp only [detachConnection, hfind]; rfl,
      by simp only [detachConnection, hfind]⟩

/-- What a step of the device leaves alone in the server. -/
theorem deviceStep_spec {s t : ServerState} {a : Device.Action} (h : s.deviceStep a = some t) :
    s.device.step a = some t.device ∧ t.next = s.next ∧ t.peers = s.peers ∧
      t.reaped = s.reaped ∧ (∀ x, t.references x = match s.detachedBy a with
        | some conn => (s.detachConnection conn).references x
        | none => s.references x) := by
  obtain ⟨d, hd, rfl⟩ := Option.map_eq_some_iff.mp h
  cases s.detachedBy a with
  | none => exact ⟨hd, rfl, rfl, rfl, fun _ => rfl⟩
  | some conn =>
    obtain ⟨l, hl, hl'⟩ := detachConnection_frame s d conn
    dsimp only
    rw [hl', hl]
    exact ⟨hd, rfl, rfl, rfl, fun _ => rfl⟩

/-- A step that is no NQ_CONNECT leaves the account alone. -/
theorem account_of_conserves {s t : ServerState} {a : Device.Action}
    (h : s.deviceStep a = some t) (ha : ∀ conn c, a ≠ .concurrent (.nqConnect conn c))
    (x : Conn) : t.owners x + t.deleted x = s.owners x + s.deleted x := by
  obtain ⟨hd, -, -, hreaped, href⟩ := deviceStep_spec h
  have hdetached : s.detachedBy a = none := by
    unfold detachedBy
    split
    · exact absurd rfl (ha _ _)
    · rfl
  have hrefs := href x
  rw [hdetached] at hrefs
  have hconserves := (DeviceState.step_conserves hd ha).1.connections x
  simp only [owners, deleted, hrefs, hreaped]
  omega

/-- An NQ_CONNECT that leaves the connection with its client leaves every account alone. -/
theorem account_of_kept {s t : ServerState} {conn : Conn} {c : NqConnectCommand}
    (h : s.deviceStep (.concurrent (.nqConnect conn c)) = some t)
    (hopen : conn ∈ s.device.connectionData) (x : Conn) :
    t.owners x + t.deleted x = s.owners x + s.deleted x := by
  obtain ⟨hd, -, -, hreaped, href⟩ := deviceStep_spec h
  have hrefs := href x
  rw [detachedBy, if_pos hopen] at hrefs
  cases DeviceState.nqConnect_step hd with
  | kept _ hf =>
    have hconserves := hf.connections x
    simp only [owners, deleted, hrefs, hreaped]
    omega
  | lost hclosed => exact absurd hopen hclosed
  | given hclosed => exact absurd hopen hclosed

/-- An NQ_CONNECT that finds no session takes the connection from its client for nothing. -/
theorem account_of_lost {s t : ServerState} {conn : Conn} {c : NqConnectCommand}
    (h : s.deviceStep (.concurrent (.nqConnect conn c)) = some t)
    (hclosed : conn ∉ s.device.connectionData)
    (hnone : c.deviceId ≠ mcDeviceIdDefault ∨ s.device.registerTrustletConnection c = none)
    (x : Conn) :
    t.owners x + (if x = conn ∧ s.references conn ≠ 0 then 1 else 0) = s.owners x ∧
      t.deleted x = s.deleted x ∧
      heldBy t.device.trustletSessions x = heldBy s.device.trustletSessions x := by
  obtain ⟨hd, -, -, hreaped, href⟩ := deviceStep_spec h
  have hrefs := href x
  rw [detachedBy, if_neg hclosed] at hrefs
  dsimp only at hrefs
  have hdetach := references_detachConnection s conn x
  cases DeviceState.nqConnect_step hd with
  | kept hopen => exact absurd hopen hclosed
  | lost _ _ hf hs =>
    have hconserves := hf.connections x
    rw [hs] at hconserves
    simp only [owners, deleted, hrefs, hreaped, hs]
    refine ⟨?_, ?_, trivial⟩
    · omega
    · omega
  | given _ hid hreg =>
    rcases hnone with hne | hnone
    · exact absurd hid hne
    · rw [hreg] at hnone
      cases hnone

/-- An NQ_CONNECT that finds a session takes the connection from its client, and from the session
the one that it had. -/
theorem account_of_given {s t : ServerState} {conn : Conn} {c : NqConnectCommand} {p : Nat}
    {v : TrustletSession} (h : s.deviceStep (.concurrent (.nqConnect conn c)) = some t)
    (hclosed : conn ∉ s.device.connectionData) (hid : c.deviceId = mcDeviceIdDefault)
    (hreg : s.device.registerTrustletConnection c = some p)
    (hv : s.device.trustletSessions.get? p = some v) (x : Conn) :
    t.owners x + (if x = conn ∧ s.references conn ≠ 0 then 1 else 0) +
        (if v.notificationConnection = some x then 1 else 0) =
      s.owners x + (if x = conn then 1 else 0) ∧ t.deleted x = s.deleted x := by
  obtain ⟨hd, -, -, hreaped, href⟩ := deviceStep_spec h
  have hrefs := href x
  rw [detachedBy, if_neg hclosed] at hrefs
  dsimp only at hrefs
  have hdetach := references_detachConnection s conn x
  cases DeviceState.nqConnect_step hd with
  | kept hopen => exact absurd hopen hclosed
  | lost _ hnone =>
    rcases hnone with hne | hnone
    · exact absurd hid hne
    · rw [hreg] at hnone
      cases hnone
  | @given p' v' _ _ hreg' hv' hs hrec =>
    obtain rfl : p = p' := Option.some.inj (hreg.symm.trans hreg')
    obtain rfl : v = v' := Option.some.inj (hv.symm.trans hv')
    have hcount := PtrList.count_modify
      (fun v : TrustletSession => { v with notificationConnection := some conn })
      (fun v => v.notificationConnection == some x) hv
    have hheld : heldBy t.device.trustletSessions x +
        (if v.notificationConnection = some x then 1 else 0) =
          heldBy s.device.trustletSessions x + if x = conn then 1 else 0 := by
      have hside : (if conn = x then 1 else 0) = if x = conn then 1 else 0 :=
        if_congr eq_comm rfl rfl
      simp only [beq_iff_eq, Option.some.injEq, hside] at hcount
      rw [hs]
      exact hcount
    have hdel : deletions t.device.effects x = deletions s.device.effects x := by
      rw [hrec]
      simp [deletions, Effect.deletes?]
    simp only [owners, deleted, hrefs, hreaped, hdel]
    refine ⟨?_, trivial⟩
    omega

end ServerState

section DeviceSteps

variable {s t : ServerState} {a : Device.Action}

/-- A device step that finds an owner for the connection it moves keeps the account. -/
theorem Owned.deviceStep (hi : Owned s) (h : s.deviceStep a = some t) (hfinds : FindsOwner s a)
    (href : ∀ conn c, a = .concurrent (.nqConnect conn c) → conn ∉ s.peers →
      s.references conn ≠ 0) : Owned t := by
  obtain ⟨-, hnext, hpeers, -⟩ := ServerState.deviceStep_spec h
  by_cases hnq : ∃ conn c, a = .concurrent (.nqConnect conn c)
  · obtain ⟨conn, c, rfl⟩ := hnq
    have href := href conn c rfl
    refine hi.of_eq (fun x hx => ?_) hnext hpeers
    by_cases hopen : conn ∈ s.device.connectionData
    · exact ServerState.account_of_kept h hopen x
    obtain ⟨hsession, hold⟩ := hfinds hopen
    by_cases hfound : c.deviceId = mcDeviceIdDefault ∧
        s.device.registerTrustletConnection c ≠ none
    · obtain ⟨hid, hreg⟩ := hfound
      obtain ⟨p, hreg⟩ := Option.ne_none_iff_exists'.mp hreg
      obtain ⟨v, hv, -⟩ := PtrList.find?_spec hreg
      obtain ⟨howners, hdeleted⟩ := ServerState.account_of_given h hopen hid hreg hv x
      have hkept : v.notificationConnection ≠ some x :=
        fun heq => hx (hold p v x hid hreg hv heq)
      rw [if_neg hkept] at howners
      by_cases hxc : x = conn
      · rw [if_pos ⟨hxc, href (hxc ▸ hx)⟩, if_pos hxc] at howners
        omega
      · rw [if_neg fun h => hxc h.1, if_neg hxc] at howners
        omega
    · have hpeer : conn ∈ s.peers := by
        by_contra hne
        exact hfound (hsession hne)
      have hnone : c.deviceId ≠ mcDeviceIdDefault ∨
          s.device.registerTrustletConnection c = none := by
        rw [not_and_or, not_not] at hfound
        exact hfound
      obtain ⟨howners, hdeleted, -⟩ := ServerState.account_of_lost h hopen hnone x
      have hxc : x ≠ conn := fun heq => hx (heq ▸ hpeer)
      rw [if_neg fun h => hxc h.1] at howners
      omega
  · exact hi.of_eq (fun x _ => ServerState.account_of_conserves h
      (fun conn c heq => hnq ⟨conn, c, heq⟩) x) hnext hpeers

/-- A device step after which every connection still has its owner has found one for the
connection it moved. -/
theorem findsOwner_of_ownedOnce (hi : Owned s) (h : s.deviceStep a = some t)
    (href : ∀ conn c, a = .concurrent (.nqConnect conn c) → conn ∉ s.peers →
      s.references conn ≠ 0) (ht : OwnedOnce t) : FindsOwner s a := by
  obtain ⟨-, hnext, hpeers, -⟩ := ServerState.deviceStep_spec h
  -- a live connection of which nothing is left
  have hlost : ∀ x, x ∉ s.peers → s.owners x = 1 → t.owners x = 0 → t.deleted x = s.deleted x →
      False := by
    intro x hx howned hzero hdeleted
    have haccount := hi x hx
    have hlt : x < s.next := by
      by_contra hge
      rw [if_neg hge] at haccount
      omega
    rw [if_pos hlt] at haccount
    have hclient : t.IsClientConnection x := by
      refine ⟨?_, ?_⟩
      · rw [hnext]
        exact hlt
      · rw [hpeers]
        exact hx
    have hone := (ht x hclient).1 (by omega)
    omega
  have hlimit : ∀ x, x ∉ s.peers → s.owners x + s.deleted x ≤ 1 := by
    intro x hx
    have haccount := hi x hx
    split_ifs at haccount <;> omega
  by_cases hnq : ∃ conn c, a = .concurrent (.nqConnect conn c)
  · obtain ⟨conn, c, rfl⟩ := hnq
    intro hopen
    constructor
    · intro hpeer
      by_contra hfound
      have hnone : c.deviceId ≠ mcDeviceIdDefault ∨
          s.device.registerTrustletConnection c = none := by
        rw [not_and_or, not_not] at hfound
        exact hfound
      obtain ⟨howners, hdeleted, -⟩ := ServerState.account_of_lost h hopen hnone conn
      have hpos := href conn c rfl hpeer
      rw [if_pos ⟨rfl, hpos⟩] at howners
      have hle := hlimit conn hpeer
      exact hlost conn hpeer (by omega) (by omega) hdeleted
    · intro p v old hid hreg hv hold
      by_contra hpeer
      obtain ⟨howners, hdeleted⟩ := ServerState.account_of_given h hopen hid hreg hv old
      have hheld := ServerState.heldBy_pos hv hold
      have hle := hlimit old hpeer
      have hsplit : s.owners old =
          s.references old + heldBy s.device.trustletSessions old := rfl
      have hne : old ≠ conn := by
        rintro rfl
        have hpos := href old c rfl hpeer
        omega
      rw [if_neg fun h => hne h.1, if_neg hne, if_pos hold] at howners
      exact hlost old hpeer (by omega) (by omega) hdeleted
  · unfold FindsOwner
    split
    · exact absurd ⟨_, _, rfl⟩ hnq
    · trivial

end DeviceSteps

/-! ## Steps of the server -/

section Steps

variable {s t : ServerState}

/-- A client is written that keeps its connection. -/
theorem owners_modify {l : PtrList Client} {p : Nat} {f : Client → Client}
    (hl : t.clients = l.modify p f) (hs : s.clients = l) (hd : t.device = s.device)
    (hf : ∀ c, (f c).connection = c.connection) (conn : Conn) : t.owners conn = s.owners conn := by
  have hcount : (l.modify p f).count (fun c => c.connection == some conn) =
      l.count fun c => c.connection == some conn :=
    PtrList.count_modify_eq fun c _ => by rw [hf c]
  simp only [ServerState.owners, ServerState.references, hl, hs, hd, hcount]

theorem Owned.modify (hi : Owned s) {p : Nat} {f : Client → Client}
    (hl : t.clients = s.clients.modify p f) (hf : ∀ c, (f c).connection = c.connection)
    (hd : t.device = s.device) (hreaped : t.reaped = s.reaped) (hnext : t.next = s.next)
    (hpeers : t.peers = s.peers) : Owned t := by
  refine hi.of_eq (fun conn _ => ?_) hnext hpeers
  rw [owners_modify hl rfl hd hf conn]
  simp only [ServerState.deleted, hd, hreaped]

theorem popped_spec {p : Nat} {c : Client} {s' : ServerState}
    (h : s.popped = some (p, c, s')) :
    s.clients.get? p = some c ∧ ∃ ps, s' = { s with queue := ps } := by
  unfold ServerState.popped at h
  split at h
  · obtain ⟨c', hc, heq⟩ := Option.map_eq_some_iff.mp h
    cases heq
    exact ⟨hc, _, rfl⟩
  · cases h

/-- The worker handles a command of a client that has its connection. -/
theorem handle_spec {a : Device.Action} (h : s.step (.handle a) = some t) :
    ∃ ps w t', { s with queue := ps }.deviceStep a = some t' ∧ t = { t' with worker := w } ∧
      ∀ conn c, a = .concurrent (.nqConnect conn c) → s.references conn ≠ 0 := by
  obtain ⟨⟨p, c, s'⟩, hpop, h⟩ := Option.bind_eq_some_iff.mp h
  obtain ⟨hc, ps, rfl⟩ := popped_spec hpop
  dsimp only at h
  split at h
  · cases h
  unfold ServerState.runCommand at h
  split at h
  · cases h
  · next conn hconn =>
    split at h
    · next hcommand =>
      obtain ⟨t', ht, rfl⟩ := Option.map_eq_some_iff.mp h
      refine ⟨ps, _, t', ht, rfl, ?_⟩
      rintro conn' c' rfl
      obtain rfl : conn' = conn := Option.some.inj hcommand
      exact ServerState.references_pos hc hconn
    · cases h

theorem device_spec {a : Device.Action} (h : s.step (.device a) = some t) :
    s.deviceStep a = some t ∧
      ∀ conn c, a = .concurrent (.nqConnect conn c) → conn ∈ s.peers := by
  simp only [ServerState.step] at h
  split at h
  · next hnone =>
    refine ⟨h, ?_⟩
    rintro conn c rfl
    cases hnone
  · next conn hsome =>
    split at h
    · next hpeer =>
      refine ⟨h, ?_⟩
      rintro conn' c rfl
      obtain rfl : conn' = conn := Option.some.inj hsome
      exact hpeer
    · cases h

/-- A step of the device in which no connection changes hands. -/
theorem Owned.deviceStep_other (hi : Owned s) {a : Device.Action}
    (h : s.deviceStep a = some t) (ha : ∀ conn c, a ≠ .concurrent (.nqConnect conn c)) :
    Owned t := by
  obtain ⟨-, hnext, hpeers, -⟩ := ServerState.deviceStep_spec h
  exact hi.of_eq (fun x _ => ServerState.account_of_conserves h ha x) hnext hpeers

theorem Owned.exit (hi : Owned s) (p : Nat) : Owned (s.exit p) :=
  hi.modify (f := fun c => { c with exiting := true, locked := false }) rfl (fun _ => rfl)
    rfl rfl rfl rfl

theorem Owned.unlock (hi : Owned s) (p : Nat) : Owned (s.unlock p) :=
  hi.modify (f := fun c => { c with locked := false }) rfl (fun _ => rfl) rfl rfl rfl rfl

theorem Owned.enqueue (hi : Owned s) (p : Nat) (dead : Bool) : Owned (s.enqueue p dead) :=
  hi.modify (f := fun c => { c with dead := dead, locked := true }) rfl (fun _ => rfl)
    rfl rfl rfl rfl

theorem Owned.accept (hi : Owned s) :
    Owned { s with clients := s.clients.push (.new s.next), next := s.next + 1 } := by
  intro conn hpeer
  have haccount := hi conn hpeer
  have hcount := PtrList.count_push s.clients (.new s.next)
    fun c => c.connection == some conn
  show (s.clients.push (.new s.next)).count _ + _ + _ = if conn < s.next + 1 then 1 else 0
  rw [hcount]
  simp only [ServerState.owners, ServerState.references, ServerState.deleted] at haccount ⊢
  by_cases heq : conn = s.next
  · subst heq
    rw [if_neg (Nat.lt_irrefl s.next)] at haccount
    have hnew : ((Client.new s.next).connection == some s.next) = true :=
      beq_self_eq_true (some s.next)
    rw [if_pos (Nat.lt_succ_self s.next), if_pos hnew]
    omega
  · have hne : ¬ ((Client.new s.next).connection == some conn) = true := by
      intro h
      exact heq (Option.some.inj (beq_iff_eq.mp h)).symm
    have hlt : conn < s.next + 1 ↔ conn < s.next :=
      Nat.lt_succ_iff_lt_or_eq.trans (or_iff_left heq)
    rw [if_neg hne, if_congr hlt rfl rfl]
    omega

theorem Owned.connectPeer (hi : Owned s) :
    Owned { s with peers := s.next :: s.peers, next := s.next + 1 } := by
  intro conn hpeer
  obtain ⟨hne, hpeer⟩ := not_or.mp (fun h => hpeer (List.mem_cons.mpr h))
  have hlt : conn < s.next + 1 ↔ conn < s.next :=
    Nat.lt_succ_iff_lt_or_eq.trans (or_iff_left hne)
  show s.owners conn + s.deleted conn = if conn < s.next + 1 then 1 else 0
  rw [if_congr hlt rfl rfl]
  exact hi conn hpeer

/-- A client that goes takes the connection that it still has with it. -/
theorem Owned.deleteClient (hi : Owned s) {p : Nat} {c : Client}
    (hc : s.clients.get? p = some c) : Owned (s.deleteClient p c) := by
  refine hi.of_eq (fun conn _ => ?_) rfl rfl
  have hcount := PtrList.count_remove (q := fun c : Client => c.connection == some conn) hc
  have hreaped : (c.connection.toList ++ s.reaped).count conn =
      (if c.connection == some conn then 1 else 0) + s.reaped.count conn := by
    rw [List.count_append]
    congr 1
    cases c.connection with
    | none => rfl
    | some conn' => simp [List.count_singleton]
  simp only [ServerState.owners, ServerState.deleted, ServerState.references,
    ServerState.deleteClient, hreaped]
  omega

/-- **One step of the server.** -/
theorem Owned.step (hi : Owned s) {a : ServerAction} (h : s.step a = some t)
    (hk : KeepsOwner s a) : Owned t := by
  cases a with
  | accept =>
    cases h
    exact hi.accept
  | connectPeer =>
    cases h
    exact hi.connectPeer
  | receive p =>
    obtain ⟨c, -, h⟩ := Option.bind_eq_some_iff.mp h
    split at h
    · cases h
    · cases h
      exact hi.enqueue p _
  | notify p sessionId =>
    obtain ⟨c, -, h⟩ := Option.bind_eq_some_iff.mp h
    obtain ⟨conn, -, h⟩ := Option.bind_eq_some_iff.mp h
    split at h
    · cases h
    · exact hi.deviceStep_other h fun _ _ heq => by cases heq
  | hangUp p =>
    obtain ⟨c, -, h⟩ := Option.bind_eq_some_iff.mp h
    split at h
    · cases h
    · cases h
      exact hi.enqueue p _
  | handle a =>
    obtain ⟨ps, w, t', ht, rfl, href⟩ := handle_spec h
    have hi' : Owned { s with queue := ps } := hi
    have ht' : Owned t' := hi'.deviceStep ht hk fun conn c ha _ => href conn c ha
    exact ht'
  -- the worker takes a connection off the queue before it looks at what it is for
  | handleOther =>
    obtain ⟨⟨p, c, s'⟩, hpop, h⟩ := Option.bind_eq_some_iff.mp h
    obtain ⟨-, ps, rfl⟩ := popped_spec hpop
    have hi' : Owned { s with queue := ps } := hi
    dsimp only at h
    split at h
    · cases h
    · cases h
      exact hi'.unlock p
  | handled =>
    simp only [ServerState.step] at h
    split at h
    · split at h
      · cases h
      · cases h
        exact hi.unlock _
    · cases h
  | handleDead =>
    obtain ⟨⟨p, c, s'⟩, hpop, h⟩ := Option.bind_eq_some_iff.mp h
    obtain ⟨-, ps, rfl⟩ := popped_spec hpop
    have hi' : Owned { s with queue := ps } := hi
    dsimp only at h
    split at h
    · unfold ServerState.runDead at h
      split at h
      · cases h
        exact hi'.exit p
      · next conn _ =>
        obtain ⟨t', ht, rfl⟩ := Option.map_eq_some_iff.mp h
        have hdrop : ∀ conn' c, Device.Action.drop conn ≠ .concurrent (.nqConnect conn' c) :=
          fun _ _ heq => by cases heq
        have ht' : Owned t' := hi'.deviceStep_other ht hdrop
        exact ht'
    · cases h
  | dropped =>
    simp only [ServerState.step] at h
    split at h
    · split at h
      · cases h
      · cases h
        exact hi.exit _
    · cases h
  | reap p =>
    obtain ⟨c, hc, h⟩ := Option.bind_eq_some_iff.mp h
    split at h
    · cases h
      exact hi.deleteClient hc
    · cases h
  | device a =>
    obtain ⟨ht, hpeer⟩ := device_spec h
    exact hi.deviceStep ht hk fun conn c ha hne => absurd (hpeer conn c ha) hne

/-- A step that loses a connection leaves it without an owner. -/
theorem keepsOwner_of_ownedOnce (hi : Owned s) {a : ServerAction} (h : s.step a = some t)
    (ht : OwnedOnce t) : KeepsOwner s a := by
  cases a with
  | handle a =>
    obtain ⟨ps, w, t', ht', rfl, href⟩ := handle_spec h
    have hi' : Owned { s with queue := ps } := hi
    have hones : OwnedOnce t' := ht
    have hfinds : FindsOwner { s with queue := ps } a :=
      findsOwner_of_ownedOnce hi' ht' (fun conn c ha _ => href conn c ha) hones
    exact hfinds
  | device a =>
    obtain ⟨ht', hpeer⟩ := device_spec h
    exact findsOwner_of_ownedOnce hi ht' (fun conn c ha hne => absurd (hpeer conn c ha) hne) ht
  | accept | connectPeer | receive | notify | hangUp | handleOther | handled | handleDead
  | dropped | reap => trivial

end Steps

/-- **Connection ownership.** In a run of the server every live connection of a client has exactly
one owner, in every state, if and only if every NQ_CONNECT that takes a connection from its client
finds a session for it, and a session from which it takes no other client's connection. -/
theorem ownedOnce_iff_keepsOwner {mciReused : Bool} {as : List ServerAction} {s : ServerState}
    (hrun : serverMachine.run (ServerState.started mciReused) as = some s) :
    serverMachine.RunStays OwnedOnce (ServerState.started mciReused) as ↔
      serverMachine.RunMeets KeepsOwner (ServerState.started mciReused) as := by
  apply Machine.runStays_iff_runMeets (I := Owned)
  · intro s hi
    exact hi.ownedOnce
  · intro s a t hi h hk
    exact hi.step h hk
  · intro s a t hi h ht
    exact keepsOwner_of_ownedOnce hi h ht
  · intro conn _
    exact (if_neg (Nat.not_lt_zero conn)).symm
  · exact hrun

/-- A command of the client behind `p`, from its receipt to its end. -/
def commandRun (p : Nat) (a : Device.Action) (steps : List Device.Action) : List ServerAction :=
  .receive p :: .handle a :: steps.map .device ++ [.handled]

/-- The first client opens session 5, and a second one becomes its notification socket. -/
def socketRun : List ServerAction :=
  .accept :: commandRun 0 (.command 0 (.openDevice 0)) [] ++
    commandRun 0 (.command 0 (.openSession ⟨some ⟨100, 0⟩, 0, 0, 0, {}⟩))
      [.concurrent (.irq ⟨sidMcp, 0⟩),
       .wake (.notified ⟨mcMcpCmdOpenSession ||| flagResponse, mcMcpRetOk, 5, 0⟩) ⟨0x1000, 77⟩,
       .round] ++
    .accept :: commandRun 1 (.concurrent (.nqConnect 1 ⟨mcDeviceIdDefault, 5, 0x1000, 77⟩))
      [.concurrent .nqFlush, .concurrent .nqFlush]

/-- The second client is deleted without its connection, which the close of the session deletes. -/
def handOverRun : List ServerAction :=
  socketRun ++ [.hangUp 1, .handleDead, .reap 1] ++
    commandRun 0 (.command 0 (.closeSession 5))
      [.concurrent (.irq ⟨sidMcp, 0⟩),
       .wake (.notified ⟨mcMcpCmdCloseSession ||| flagResponse, mcMcpRetOk, 0, 0⟩) ⟨0, 0⟩]

theorem ownedOnce_handOver :
    serverMachine.RunStays OwnedOnce (ServerState.started false) handOverRun := by
  have hrun : serverMachine.run (ServerState.started false) handOverRun = some _ := rfl
  refine (ownedOnce_iff_keepsOwner hrun).mpr ?_
  refine ⟨trivial, trivial, trivial, trivial, trivial, trivial, trivial, trivial, trivial,
    trivial, trivial, trivial, ?_, trivial, trivial, trivial, trivial, trivial, trivial, trivial,
    trivial, trivial, trivial, trivial, trivial⟩
  intro _
  refine ⟨fun _ => ⟨rfl, ?_⟩, ?_⟩
  · exact Option.some_ne_none 0
  · intro p v old _ hreg hv hold
    cases hreg
    cases hv
    cases hold

/-- A client asks for the notifications of a session that there is not. -/
def lostRun : List ServerAction :=
  .accept :: commandRun 0 (.concurrent (.nqConnect 0 ⟨mcDeviceIdDefault, 9, 0, 0⟩)) []

/-- The client is answered with an error and has lost its connection; nobody else has it. -/
theorem ownedOnce_lost :
    (∃ s, serverMachine.run (ServerState.started false) lostRun = some s ∧
      s.IsClientConnection 0 ∧ s.deleted 0 = 0 ∧ s.owners 0 = 0 ∧
      .answered 0 mcDrvErrUnknown ∈ s.device.effects) ∧
    ¬ serverMachine.RunStays OwnedOnce (ServerState.started false) lostRun := by
  have hrun : serverMachine.run (ServerState.started false) lostRun = some _ := rfl
  have hclient : ∀ s, serverMachine.run (ServerState.started false) lostRun = some s →
      s.IsClientConnection 0 := by
    intro s hs
    cases hrun.symm.trans hs
    exact ⟨Nat.zero_lt_one, List.not_mem_nil⟩
  refine ⟨⟨_, hrun, hclient _ hrun, rfl, rfl, List.mem_cons_self⟩, fun hstays => ?_⟩
  have howned := ((hstays.last hrun) 0 (hclient _ hrun)).1 rfl
  cases howned

end McDaemon.Daemon
