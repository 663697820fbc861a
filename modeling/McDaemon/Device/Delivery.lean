/-
# McDaemon.Device.Delivery — in which order a session's notifications reach its client.

A notification on its way to a client is parked in the device while its session is being opened,
queued in the session until the client has attached its notification socket, or written to the
socket at once.  The switch from one way to the next takes several sections, and a notification
that arrives in between can overtake those that are still on the older way.  Delivery is in order
in every run in which no notification finds others of its session on an older way.
-/
import McDaemon.Device.Lifecycle

namespace McDaemon.Device

open McDaemon.Lib

/-! ## What is received, handed on and written -/

/-- The notification that a call writes to the socket of the session behind `p`. -/
def Effect.writes? (p : Nat) : Effect → Option Notification
  | .forwarded q _ _ n => if q = p then some n else none
  | _ => none

/-- The notifications in the queue of the session behind `p`. -/
def waiting (l : PtrList TrustletSession) (p : Nat) : List Notification :=
  match l.get? p with
  | some v => v.notifications
  | none => []

namespace DeviceState

/-- The notifications written to the sockets of a session, in order. -/
def written (s : DeviceState) (p : Nat) : List Notification :=
  (s.sessionCalls.filterMap (Effect.writes? p)).reverse

/-- The session that is being opened, and takes the parked notifications. -/
def draining (s : DeviceState) (p : Nat) : Prop :=
  ∃ conn rsp u, s.mcp = .openDrain conn p rsp u

/-- The notification that a step hands to a session which does not refuse it. -/
def handed (s : DeviceState) (a : Action) : Option (Nat × Notification) :=
  match s.queues a with
  | some (p, v, n) => if v.accepts n then some (p, n) else none
  | none =>
    match a with
    | .concurrent (.irq n) => (s.reaches n).map fun p => (p, n)
    | _ => none

/-- The same for one session. -/
def handedNow (s : DeviceState) (a : Action) (p : Nat) : List Notification :=
  match s.handed a with
  | some (q, n) => if q = p then [n] else []
  | none => []

end DeviceState

/-- What `getNotification` has returned, and what was handed to the sessions, in order. -/
structure Receipts where
  returned : List Notification
  handed : List (Nat × Notification)

namespace Receipts

def empty : Receipts := ⟨[], []⟩

/-- The notifications handed to the session behind `p`. -/
def handedTo (r : Receipts) (p : Nat) : List Notification :=
  r.handed.filterMap fun x => if x.1 = p then some x.2 else none

end Receipts

/-- The notification that the interrupt handler takes in a step. -/
def Action.returned : Action → List Notification
  | .concurrent (.irq n) => [n]
  | _ => []

/-- What a step adds to the receipts. -/
def receive (s : DeviceState) (a : Action) (r : Receipts) : Receipts where
  returned := r.returned ++ a.returned
  handed := r.handed ++ (s.handed a).toList

/-- The device with its receipts. -/
def receivingMachine : Machine (DeviceState × Receipts) Action :=
  machine.withHistory receive .empty

/-- An NQ_CONNECT on this connection has been answered with success. -/
def Connected (es : List Effect) (conn : Conn) : Prop :=
  ∃ older, .answered conn mcDrvOk :: .detachedConnection conn :: older <:+ es

/-- The notifications of a session are written in the order in which they were returned, each that
was handed to the session is written once or still waits behind those, and none is written before
the NQ_CONNECT is answered. -/
structure Delivers (x : DeviceState × Receipts) : Prop where
  inOrder : ∀ p, (x.1.written p).Sublist x.2.returned
  once : ∀ p, x.1.written p <+: x.2.handedTo p ∧ ∀ v, x.1.trustletSessions.get? p = some v →
    x.2.handedTo p = x.1.written p ++ v.notifications
  answered : ∀ p sessionId conn n older,
    .forwarded p sessionId conn n :: older <:+ x.1.effects → Connected older conn

/-- A notification finds none of its session on an older way: none in the queue when it goes to the
socket, and none parked while the session is being opened. -/
def FindsTurn (s : DeviceState) : Action → Prop
  | .concurrent (.irq n) =>
    ∀ p v, s.handed (.concurrent (.irq n)) = some (p, n) →
      s.trustletSessions.get? p = some v →
        (v.notificationConnection ≠ none → v.notifications = []) ∧
          (s.draining p → s.notifications = [])
  | _ => True

/-! ## Queues -/

section Waiting

variable {l : PtrList TrustletSession} {p q : Nat} {v : TrustletSession}
  {f : TrustletSession → TrustletSession}

theorem waiting_of_get? (hv : l.get? p = some v) : waiting l p = v.notifications := by
  simp only [waiting, hv]

theorem waiting_of_none (hp : l.get? p = none) : waiting l p = [] := by
  simp only [waiting, hp]

theorem waiting_fresh : waiting l l.fresh = [] := waiting_of_none (PtrList.get?_fresh l)

theorem waiting_modify (hv : l.get? q = some v) :
    waiting (l.modify q f) p = if q = p then (f v).notifications else waiting l p := by
  by_cases hp : q = p
  · subst hp
    simp only [waiting, PtrList.get?_modify, if_pos, hv, Option.map_some]
  · have hp' : p ≠ q := Ne.symm hp
    simp only [waiting, PtrList.get?_modify, if_neg hp, if_neg hp']

theorem waiting_modify_eq (hf : ∀ v, (f v).notifications = v.notifications) :
    waiting (l.modify q f) p = waiting l p := by
  cases hv : l.get? q with
  | none =>
    rw [waiting, PtrList.get?_modify, waiting]
    split_ifs with hp
    · rw [hp, hv]
      rfl
    · rfl
  | some v =>
    rw [waiting_modify hv]
    split_ifs with hp
    · rw [← hp, waiting_of_get? hv, hf v]
    · rfl

theorem waiting_push (hv : v.notifications = []) : waiting (l.push v) p = waiting l p := by
  by_cases hp : p = l.fresh
  · rw [hp, waiting_fresh, waiting, PtrList.get?_push, if_pos rfl]
    exact hv
  · simp only [waiting, PtrList.get?_push, if_neg hp]

theorem waiting_remove (hp : p ≠ q) : waiting (l.remove q) p = waiting l p := by
  simp only [waiting, PtrList.get?_remove, if_neg hp]

end Waiting

/-! ## One step -/

/-- What a step does for one session: what is handed to it goes behind what was written and what
waits, or the session is taken off the list. -/
inductive Passes (s t : DeviceState) (a : Action) (p : Nat) : Prop where
  | kept (h : t.written p ++ waiting t.trustletSessions p =
      s.written p ++ waiting s.trustletSessions p ++ s.handedNow a p) : Passes s t a p
  | removed (hgone : t.trustletSessions.get? p = none) (hw : t.written p = s.written p)
      (hn : s.handedNow a p = []) : Passes s t a p

namespace DeviceState

variable {s t : DeviceState} {a : Action}

theorem written_of_touches {l : PtrList TrustletSession} {es : List Effect} {p : Nat}
    (hc : Touches s t l es) (hes : ∀ e ∈ es, e.writes? p = none) : t.written p = s.written p := by
  have hnone : es.filterMap (Effect.writes? p) = [] := List.filterMap_eq_nil_iff.mpr hes
  rw [written, hc.calls, List.filterMap_append, hnone, List.nil_append, written]

theorem written_of_forwarded {l : PtrList TrustletSession} {q : Nat} {sessionId : UInt32}
    {conn : Conn} {n : Notification} (hc : Touches s t l [.forwarded q sessionId conn n])
    (p : Nat) : t.written p = s.written p ++ if q = p then [n] else [] := by
  rw [written, hc.calls, List.filterMap_append, List.reverse_append]
  by_cases hq : q = p
  · simp [Effect.writes?, written, hq]
  · simp [Effect.writes?, written, hq]

/-- Where a notification comes from that a step hands to a session. -/
theorem handed_spec {p : Nat} {n : Notification} (h : s.handed a = some (p, n)) :
    a = .concurrent (.irq n) ∧ s.reaches n = some p ∨
      a = .round ∧ s.draining p ∧ ∃ ns, s.notifications = n :: ns := by
  unfold handed at h
  split at h
  · next q v m hq =>
    split at h
    · cases h
      cases a with
      | concurrent c =>
        cases c with
        | irq m =>
          simp only [queues, Option.bind_eq_bind, Option.bind_eq_some_iff] at hq
          obtain ⟨q, hp, u, -, hq⟩ := hq
          split at hq
          · cases hq
            exact .inl ⟨rfl, hp⟩
          · cases hq
        | nqConnect | nqFlush | notify | loadToken | taken => cases hq
      | round =>
        simp only [queues] at hq
        split at hq
        · next conn q rsp u m ms hpc hn =>
          obtain ⟨w, -, heq⟩ := Option.map_eq_some_iff.mp hq
          cases heq
          exact .inr ⟨rfl, ⟨conn, rsp, u, hpc⟩, ms, hn⟩
        · cases hq
      | command | drop | checkLoad | taExit | wake => cases hq
    · cases h
  · split at h
    · obtain ⟨q, hp, heq⟩ := Option.map_eq_some_iff.mp h
      cases heq
      exact .inl ⟨rfl, hp⟩
    · cases h

theorem handedNow_of_none (h : s.handed a = none) (p : Nat) : s.handedNow a p = [] := by
  simp only [handedNow, h]

/-- A notification is passed to `queueNotification`. -/
theorem queued_passes (h : s.step a = some t) {q : Nat} {v : TrustletSession} {n : Notification}
    (hq : s.queues a = some (q, v, n)) (p : Nat) : Passes s t a p := by
  obtain ⟨hv, hc⟩ := queued_step h hq
  have hwritten : t.written p = s.written p := by
    refine written_of_touches hc fun e he => ?_
    split at he
    · rw [List.mem_singleton.mp he]
      rfl
    · cases he
  have hhanded : s.handed a = if v.accepts n then some (q, n) else none := by
    simp only [handed, hq]
  apply Passes.kept
  rw [hwritten, List.append_assoc, List.append_cancel_left_eq, hc.sessions, waiting_modify hv,
    handedNow, hhanded]
  by_cases hp : q = p
  · rw [if_pos hp, ← hp, waiting_of_get? hv]
    simp only [TrustletSession.queueNotification]
    split <;> simp
  · rw [if_neg hp]
    cases v.accepts n with
    | true =>
      show _ = _ ++ (if q = p then [n] else [])
      rw [if_neg hp, List.append_nil]
    | false => exact (List.append_nil _).symm

/-- The interrupt handler parks a notification, or writes it to a socket. -/
theorem irq_passes {n : Notification} (h : s.step (.concurrent (.irq n)) = some t)
    (hturn : FindsTurn s (.concurrent (.irq n))) (hq : s.queues (.concurrent (.irq n)) = none)
    (p : Nat) : Passes s t (.concurrent (.irq n)) p := by
  have hhanded : s.handed (.concurrent (.irq n)) = (s.reaches n).map fun p => (p, n) := by
    simp only [handed, hq]
  simp only [step] at h
  split at h
  · cases h
  have hh := handleIrq_handles s n
  rw [Option.some.inj h] at hh
  apply Passes.kept
  have hparked : s.reaches n = none → Quiet s t → t.written p ++ waiting t.trustletSessions p =
      s.written p ++ waiting s.trustletSessions p ++ s.handedNow (.concurrent (.irq n)) p := by
    intro hnone hquiet
    rw [hnone] at hhanded
    rw [written_of_touches hquiet.touches (by simp), hquiet.sessions, handedNow_of_none hhanded,
      List.append_nil]
  cases hh with
  | mcp hid hquiet => exact hparked (if_pos hid) hquiet
  | parked _ hnone hquiet => exact hparked hnone hquiet
  | queued hp hv hconn =>
    rw [queues_of_reaches hp hv hconn] at hq
    cases hq
  | @forwarded q v conn hp hv hconn hc =>
    rw [hp] at hhanded
    have hempty : v.notifications = [] := by
      refine (hturn q v hhanded hv).1 ?_
      rw [hconn]
      exact Option.some_ne_none conn
    rw [written_of_forwarded hc.touches, hc.sessions, handedNow, hhanded]
    show _ = _ ++ _ ++ (if q = p then [n] else [])
    by_cases hpq : q = p
    · rw [← hpq, waiting_of_get? hv, hempty, List.append_nil, List.append_nil]
    · rw [if_neg hpq, List.append_nil, List.append_nil]

/-- **One step of one session.** -/
theorem step_passes (h : s.step a = some t) (hturn : FindsTurn s a) (p : Nat) :
    Passes s t a p := by
  cases hq : s.queues a with
  | some x => exact queued_passes h hq p
  | none =>
  by_cases hirq : ∃ n, a = .concurrent (.irq n)
  · obtain ⟨n, rfl⟩ := hirq
    exact irq_passes h hturn hq p
  -- nothing is handed out
  have hnow : s.handedNow a p = [] := by
    apply handedNow_of_none
    simp only [handed, hq]
    split
    · exact absurd ⟨_, rfl⟩ hirq
    · rfl
  have hkept : t.written p ++ waiting t.trustletSessions p =
      s.written p ++ waiting s.trustletSessions p → Passes s t a p := by
    intro heq
    apply Passes.kept
    rw [hnow, List.append_nil, heq]
  have hsame : ∀ {l es}, Touches s t l es → (∀ e ∈ es, e.writes? p = none) →
      waiting l p = waiting s.trustletSessions p → Passes s t a p := by
    intro l es hc hes hl
    apply hkept
    rw [written_of_touches hc hes, hc.sessions, hl]
  have hremove : ∀ {q es}, Touches s t (s.trustletSessions.remove q) es →
      (∀ e ∈ es, e.writes? p = none) → Passes s t a p := by
    intro q es hc hes
    by_cases hp : p = q
    · refine .removed ?_ (written_of_touches hc hes) hnow
      rw [hc.sessions, PtrList.get?_remove, if_pos hp]
    · exact hsame hc hes (waiting_remove hp)
  cases step_evolves h with
  | beside hquiet | moved hquiet | closing _ _ _ _ _ hquiet | retried _ hquiet
  | mapRejected _ _ _ hquiet | unmapping _ _ _ _ _ hquiet | reaping _ _ _ hquiet =>
    exact hsame hquiet.touches (by simp) rfl
  | flushEnd hc => exact hsame hc (by simp) rfl
  | mapped _ _ _ hc => exact hsame hc.touches (by simp [Effect.writes?]) rfl
  | opened _ hc =>
    refine hsame hc.touches (fun e he => ?_) (waiting_push (newSession_spec _ _ _ _ _).2.2)
    split at he
    · rw [List.mem_singleton.mp he]
      rfl
    · cases he
  | drained hpc hn hv => simp [queues, hpc, hn, hv] at hq
  | queued => exact absurd ⟨_, rfl⟩ hirq
  | forwarded => exact absurd ⟨_, rfl⟩ hirq
  | @flushed _ f v n ns conn _ hv hn _ hc =>
    apply hkept
    rw [written_of_forwarded hc.touches, hc.sessions, waiting_modify hv]
    by_cases hp : f.p = p
    · rw [if_pos hp, if_pos hp, ← hp, waiting_of_get? hv, hn, List.append_assoc]
      rfl
    · rw [if_neg hp, if_neg hp, List.append_nil]
  | attached _ hc => exact hsame hc (by simp) (waiting_modify_eq fun _ => rfl)
  | disconnected _ _ _ _ _ hc | recorded _ _ _ _ _ hc =>
    exact hsame hc.touches (by simp) (waiting_modify_eq fun _ => rfl)
  | unmapped _ hc =>
    exact hsame hc.touches (by simp [Effect.writes?]) (waiting_modify_eq fun _ => rfl)
  | freed _ _ hc =>
    refine hremove hc.touches fun e he => ?_
    rcases List.mem_cons.mp he with rfl | he
    · rfl
    · obtain ⟨w, -, rfl⟩ := List.mem_map.mp (List.mem_reverse.mp he)
      rfl
  | reaped _ _ _ _ hc => exact hremove hc.touches (by simp [Effect.writes?])

/-- Only a session that has a socket writes to it. -/
theorem step_writes (h : s.step a = some t) {p : Nat} {sessionId : UInt32} {conn : Conn}
    {n : Notification} (hw : .forwarded p sessionId conn n ∈ t.sessionCalls) :
    .forwarded p sessionId conn n ∈ s.sessionCalls ∨
      ∃ v, s.trustletSessions.get? p = some v ∧ v.notificationConnection = some conn := by
  have hold : ∀ {l es}, Touches s t l es → (∀ e ∈ es, e ≠ .forwarded p sessionId conn n) →
      .forwarded p sessionId conn n ∈ s.sessionCalls := by
    intro l es hc hes
    rw [hc.calls] at hw
    exact (List.mem_append.mp hw).resolve_left fun he => hes _ he rfl
  have hone : ∀ {l q v conn' m}, Touches s t l [.forwarded q v.sessionId conn' m] →
      s.trustletSessions.get? q = some v → v.notificationConnection = some conn' →
      .forwarded p sessionId conn n ∈ s.sessionCalls ∨
        ∃ v, s.trustletSessions.get? p = some v ∧ v.notificationConnection = some conn := by
    intro l q v conn' m hc hv hconn
    rw [hc.calls] at hw
    rcases List.mem_append.mp hw with hnew | hmem
    · cases List.mem_singleton.mp hnew
      exact .inr ⟨v, hv, hconn⟩
    · exact .inl hmem
  cases step_evolves h with
  | beside hquiet | moved hquiet | closing _ _ _ _ _ hquiet | retried _ hquiet
  | mapRejected _ _ _ hquiet | unmapping _ _ _ _ _ hquiet | reaping _ _ _ hquiet =>
    exact .inl (hold hquiet.touches (by simp))
  | flushEnd hc | attached _ hc => exact .inl (hold hc (by simp))
  | mapped _ _ _ hc | disconnected _ _ _ _ _ hc | recorded _ _ _ _ _ hc | unmapped _ hc
  | reaped _ _ _ _ hc => exact .inl (hold hc.touches (by simp))
  | opened _ hc | drained _ _ _ hc | queued _ _ _ hc =>
    refine .inl (hold hc.touches fun e he => ?_)
    split at he
    · rw [List.mem_singleton.mp he]
      simp
    · cases he
  | forwarded hv _ hconn hc | flushed _ hv _ hconn hc => exact hone hc.touches hv hconn
  | freed _ _ hc =>
    refine .inl (hold hc.touches fun e he => ?_)
    rcases List.mem_cons.mp he with rfl | he
    · simp
    · obtain ⟨w, -, rfl⟩ := List.mem_map.mp (List.mem_reverse.mp he)
      simp

/-- What a session is handed, it is handed while it is on the list. -/
theorem handed_live {p : Nat} {n : Notification} (h : s.handed a = some (p, n)) :
    ∃ v, s.trustletSessions.get? p = some v := by
  rcases handed_spec h with ⟨-, hp⟩ | ⟨rfl, -, -⟩
  · obtain ⟨-, -, v, hv, -⟩ := reaches_spec hp
    exact ⟨v, hv⟩
  · unfold handed at h
    split at h
    · next q v m hq =>
      split at h
      · cases h
        simp only [queues] at hq
        split at hq
        · obtain ⟨w, hw, heq⟩ := Option.map_eq_some_iff.mp hq
          cases heq
          exact ⟨_, hw⟩
        · cases hq
      · cases h
    · cases h

theorem handedNow_cases (s : DeviceState) (a : Action) (p : Nat) :
    s.handedNow a p = [] ∨ ∃ n, s.handed a = some (p, n) ∧ s.handedNow a p = [n] := by
  unfold handedNow
  split
  · next q n hh =>
    split_ifs with hq
    · exact .inr ⟨n, by rw [hh, hq], rfl⟩
    · exact .inl rfl
  · exact .inl rfl

theorem handedNow_of_gone {p : Nat} (hp : s.trustletSessions.get? p = none) :
    s.handedNow a p = [] := by
  refine (handedNow_cases s a p).resolve_right ?_
  rintro ⟨n, hh, -⟩
  obtain ⟨v, hv⟩ := handed_live hh
  rw [hp] at hv
  cases hv

/-- The parked notifications go to the session that was opened last. -/
theorem draining_step (h : s.step a = some t) {p : Nat} (ht : t.draining p) :
    s.draining p ∨ p = s.trustletSessions.fresh := by
  obtain ⟨conn, rsp, u, ht⟩ := ht
  cases step_evolves h with
  | beside _ hto => exact .inl ⟨conn, rsp, u, hto ▸ ht⟩
  | drained _ _ _ _ hto | queued _ _ _ _ hto | forwarded _ _ _ _ hto | flushed _ _ _ _ _ hto
  | flushEnd _ _ hto | attached _ _ _ hto => exact .inl ⟨conn, rsp, u, hto ▸ ht⟩
  | moved _ _ hto | freed _ _ _ hto =>
    rw [ht] at hto
    cases hto
  | opened _ _ hto =>
    obtain ⟨_, _, hto⟩ := hto
    cases hto.symm.trans ht
    exact .inr rfl
  | disconnected _ _ _ _ _ _ hto | closing _ _ _ _ _ _ hto | retried _ _ hto
  | recorded _ _ _ _ _ _ hto | mapped _ _ _ _ hto | mapRejected _ _ _ _ hto
  | unmapping _ _ _ _ _ _ hto | unmapped _ _ hto | reaping _ _ _ _ hto
  | reaped _ _ _ _ _ hto =>
    cases hto.symm.trans ht

/-- A round of the loop at the end of an open takes the first parked notification. -/
theorem drain_step {p : Nat} {n : Notification} {ns : List Notification}
    (h : s.step .round = some t) (hp : s.draining p) (hn : s.notifications = n :: ns) :
    t.notifications = ns := by
  obtain ⟨conn, rsp, u, hpc⟩ := hp
  change s.nextRound s.mcp = some t at h
  rw [hpc] at h
  cases h
  simp only [openSessionDrain, hn]

end DeviceState

theorem Connected.mono {es es' : List Effect} {conn : Conn} (h : es <:+ es')
    (hc : Connected es conn) : Connected es' conn := by
  obtain ⟨older, hold⟩ := hc
  exact ⟨older, hold.trans h⟩

/-- A suffix of a concatenation begins in its first part or is a suffix of the second. -/
theorem suffix_append_cases {e : Effect} {older new old : List Effect}
    (h : e :: older <:+ new ++ old) : e ∈ new ∧ old <:+ older ∨ e :: older <:+ old := by
  induction new with
  | nil => exact .inr h
  | cons x new ih =>
    rcases List.suffix_cons_iff.mp h with heq | hrest
    · cases heq
      exact .inl ⟨List.mem_cons_self, List.suffix_append _ _⟩
    · rcases ih hrest with ⟨hmem, hsuffix⟩ | hold
      · exact .inl ⟨List.mem_cons_of_mem _ hmem, hsuffix⟩
      · exact .inr hold

theorem receive_handedTo (s : DeviceState) (a : Action) (r : Receipts) (p : Nat) :
    (receive s a r).handedTo p = r.handedTo p ++ s.handedNow a p := by
  simp only [Receipts.handedTo, receive, List.filterMap_append, DeviceState.handedNow,
    List.append_cancel_left_eq]
  cases s.handed a with
  | none => rfl
  | some x =>
    by_cases hp : x.1 = p
    · simp [hp]
    · simp [hp]

/-! ## Runs -/

/-- Everything that was handed out or is parked was returned in this order, and the parked
notifications come behind what the session was handed that is being opened. -/
structure InTurn (s : DeviceState) (r : Receipts) : Prop where
  parked : s.notifications.Sublist r.returned
  handed : ∀ p, (r.handedTo p).Sublist r.returned
  draining : ∀ p, s.draining p → (r.handedTo p ++ s.notifications).Sublist r.returned

/-- What was handed to a session is written or waits. -/
structure Accounted (s : DeviceState) (r : Receipts) : Prop where
  fresh : ∀ p, s.trustletSessions.fresh ≤ p → s.written p = [] ∧ r.handedTo p = []
  written : ∀ p, s.written p <+: r.handedTo p
  live : ∀ p v, s.trustletSessions.get? p = some v →
    r.handedTo p = s.written p ++ v.notifications

/-- A session has a socket only after its NQ_CONNECT was answered, and so has what was written. -/
structure Answered (s : DeviceState) : Prop where
  sockets : ∀ p v conn, s.trustletSessions.get? p = some v →
    v.notificationConnection = some conn → Connected s.effects conn
  writes : ∀ p sessionId conn n older,
    .forwarded p sessionId conn n :: older <:+ s.effects → Connected older conn

section Steps

variable {s t : DeviceState} {a : Action} {r : Receipts}

/-- What is parked has been returned, in this order. -/
theorem InTurn.parked_step (hi : InTurn s r) (h : s.step a = some t) :
    t.notifications.Sublist (receive s a r).returned := by
  have hgrow : r.returned.Sublist (receive s a r).returned := List.sublist_append_left _ _
  cases (DeviceState.step_parks h).2 with
  | same hn =>
    rw [hn]
    exact hi.parked.trans hgrow
  | parked _ _ hn =>
    rw [hn]
    exact hi.parked.append (List.Sublist.refl _)
  | drained _ hn =>
    have htail : t.notifications.Sublist s.notifications := by
      rw [hn]
      exact List.sublist_cons_self _ _
    exact (htail.trans hi.parked).trans hgrow
  | cleared hn =>
    rw [hn]
    exact List.nil_sublist _

/-- What a session is handed has been returned, in this order. -/
theorem InTurn.handed_step (hi : InTurn s r) (p : Nat) :
    ((receive s a r).handedTo p).Sublist (receive s a r).returned := by
  have hgrow : r.returned.Sublist (receive s a r).returned := List.sublist_append_left _ _
  rw [receive_handedTo]
  rcases DeviceState.handedNow_cases s a p with hnow | ⟨n, hh, hnow⟩
  · rw [hnow, List.append_nil]
    exact (hi.handed p).trans hgrow
  · rw [hnow]
    rcases DeviceState.handed_spec hh with ⟨rfl, -⟩ | ⟨rfl, hd, ns, hn⟩
    · exact (hi.handed p).append (List.Sublist.refl _)
    · -- the first of those that are parked behind it
      have hbehind := hi.draining p hd
      rw [hn] at hbehind
      have hfirst : [n].Sublist (n :: ns) := (List.nil_sublist ns).cons_cons n
      exact (((List.Sublist.refl _).append hfirst).trans hbehind).trans hgrow

/-- While a session is being opened, what is parked stays behind what the session was handed. -/
theorem InTurn.draining_step (hi : InTurn s r) (h : s.step a = some t) (hturn : FindsTurn s a)
    {p : Nat} (hd : s.draining p) :
    ((receive s a r).handedTo p ++ t.notifications).Sublist (receive s a r).returned := by
  have hgrow : r.returned.Sublist (receive s a r).returned := List.sublist_append_left _ _
  have hparks := (DeviceState.step_parks h).2
  have hbehind := hi.draining p hd
  rw [receive_handedTo]
  rcases DeviceState.handedNow_cases s a p with hnow | ⟨n, hh, hnow⟩
  · rw [hnow, List.append_nil]
    cases hparks with
    | same hn =>
      rw [hn]
      exact hbehind.trans hgrow
    | parked _ _ hn =>
      rw [hn, ← List.append_assoc]
      exact hbehind.append (List.Sublist.refl _)
    | @drained _ _ _ _ n _ _ hn =>
      rw [hn] at hbehind
      have htail : t.notifications.Sublist (n :: t.notifications) := List.sublist_cons_self _ _
      exact (((List.Sublist.refl _).append htail).trans hbehind).trans hgrow
    | cleared hn =>
      rw [hn, List.append_nil]
      exact (hi.handed p).trans hgrow
  · rw [hnow]
    rcases DeviceState.handed_spec hh with ⟨rfl, hreaches⟩ | ⟨rfl, -, ns, hn⟩
    · -- nothing is parked, so nothing is overtaken
      obtain ⟨v, hv⟩ := DeviceState.handed_live hh
      have hnil : s.notifications = [] := (hturn p v hh hv).2 hd
      have hnil' : t.notifications = [] := by
        cases hparks with
        | same hn => rw [hn, hnil]
        | parked _ hnone =>
          rw [hreaches] at hnone
          cases hnone
        | cleared hn => exact hn
      rw [hnil', List.append_nil]
      exact (hi.handed p).append (List.Sublist.refl _)
    · rw [DeviceState.drain_step h hd hn, List.append_assoc]
      rw [hn] at hbehind
      exact hbehind.trans hgrow

theorem InTurn.step (hi : InTurn s r) (hfresh : r.handedTo s.trustletSessions.fresh = [])
    (h : s.step a = some t) (hturn : FindsTurn s a) : InTurn t (receive s a r) := by
  refine ⟨hi.parked_step h, hi.handed_step, fun p hp => ?_⟩
  rcases DeviceState.draining_step h hp with hd | rfl
  · exact hi.draining_step h hturn hd
  · -- the session is made in this step
    rw [receive_handedTo, hfresh, DeviceState.handedNow_of_gone (PtrList.get?_fresh _)]
    exact hi.parked_step h

/-- A session that was not there was handed nothing, and what it has is what was written for it. -/
theorem handedTo_of_gone (h : s.step a = some t) (hturn : FindsTurn s a) {p : Nat}
    (hp : s.trustletSessions.get? p = none) :
    (receive s a r).handedTo p = r.handedTo p ∧
        t.written p ++ waiting t.trustletSessions p = s.written p ∨
      t.trustletSessions.get? p = none ∧ (receive s a r).handedTo p = r.handedTo p ∧
        t.written p = s.written p := by
  have hnow := DeviceState.handedNow_of_gone (a := a) hp
  have hhanded : (receive s a r).handedTo p = r.handedTo p := by
    rw [receive_handedTo, hnow, List.append_nil]
  cases DeviceState.step_passes h hturn p with
  | kept heq =>
    rw [hnow, waiting_of_none hp, List.append_nil, List.append_nil] at heq
    exact .inl ⟨hhanded, heq⟩
  | removed ht hw => exact .inr ⟨ht, hhanded, hw⟩

/-- A session that stays has what it had and what it is handed now. -/
theorem Accounted.handedTo_of_live (hi : Accounted s r) (h : s.step a = some t)
    (hturn : FindsTurn s a) {p : Nat} {v : TrustletSession}
    (hv : s.trustletSessions.get? p = some v) :
    (receive s a r).handedTo p = t.written p ++ waiting t.trustletSessions p ∨
      t.trustletSessions.get? p = none ∧ (receive s a r).handedTo p = r.handedTo p ∧
        t.written p = s.written p := by
  rw [receive_handedTo]
  cases DeviceState.step_passes h hturn p with
  | kept heq =>
    left
    rw [heq, hi.live p v hv, waiting_of_get? hv]
  | removed ht hw hn =>
    right
    rw [hn, List.append_nil]
    exact ⟨ht, rfl, hw⟩

theorem Accounted.step (hi : Accounted s r) (h : s.step a = some t) (hturn : FindsTurn s a) :
    Accounted t (receive s a r) := by
  refine ⟨fun p hp => ?_, fun p => ?_, fun p w hw => ?_⟩
  · have hp' : s.trustletSessions.fresh ≤ p := Nat.le_trans (DeviceState.fresh_mono h) hp
    obtain ⟨hwritten, hhanded⟩ := hi.fresh p hp'
    have hnone : s.trustletSessions.get? p = none := by
      by_contra hne
      obtain ⟨v, hv⟩ := Option.ne_none_iff_exists'.mp hne
      have hlt := PtrList.lt_fresh_of_get? hv
      omega
    rcases handedTo_of_gone (r := r) h hturn hnone with ⟨hh, hw⟩ | ⟨-, hh, hw⟩
    · rw [hwritten] at hw
      exact ⟨(List.append_eq_nil_iff.mp hw).1, hh.trans hhanded⟩
    · exact ⟨hw.trans hwritten, hh.trans hhanded⟩
  · cases hs : s.trustletSessions.get? p with
    | none =>
      rcases handedTo_of_gone (r := r) h hturn hs with ⟨hh, hw⟩ | ⟨-, hh, hw⟩
      · have hprefix : t.written p <+: s.written p := ⟨_, hw⟩
        rw [hh]
        exact hprefix.trans (hi.written p)
      · rw [hh, hw]
        exact hi.written p
    | some v =>
      rcases hi.handedTo_of_live h hturn hs with hh | ⟨-, hh, hw⟩
      · rw [hh]
        exact List.prefix_append _ _
      · rw [hh, hw]
        exact hi.written p
  · rw [← waiting_of_get? hw]
    cases hs : s.trustletSessions.get? p with
    | none =>
      rcases handedTo_of_gone (r := r) h hturn hs with ⟨hh, hwritten⟩ | ⟨ht, -⟩
      · rcases DeviceState.session_evolves h hw with ⟨rfl, -⟩ | ⟨v, hv, -⟩
        · obtain ⟨hnil, hhanded⟩ := hi.fresh _ (Nat.le_refl _)
          rw [hh, hwritten, hnil, hhanded]
        · rw [hs] at hv
          cases hv
      · rw [hw] at ht
        cases ht
    | some v =>
      rcases hi.handedTo_of_live h hturn hs with hh | ⟨ht, -⟩
      · exact hh
      · rw [hw] at ht
        cases ht

theorem Answered.step (hi : Answered s) (h : s.step a = some t) : Answered t := by
  have hgrow := (DeviceState.step_parks h).1
  refine ⟨fun p w conn hw hconn => ?_, fun p sessionId conn n older holder => ?_⟩
  · rcases DeviceState.session_evolves h hw with ⟨-, conn', ld, c, new, id, -, rfl⟩ | ⟨v, hv, he⟩
    · rw [DeviceState.newSession_notificationConnection] at hconn
      cases hconn
    · cases he with
      | attached ha hrec =>
        cases hconn
        exact ⟨s.effects, ⟨[], hrec.symm⟩⟩
      | disconnected => cases hconn
      | same => exact (hi.sockets p w conn hv hconn).mono hgrow
      | queued | flushed | buffers => exact (hi.sockets p v conn hv hconn).mono hgrow
  · obtain ⟨new, hnew⟩ := hgrow
    rw [← hnew] at holder
    rcases suffix_append_cases holder with ⟨hmem, hsuffix⟩ | hold
    · have hcall : Effect.forwarded p sessionId conn n ∈ t.sessionCalls := by
        refine DeviceState.mem_sessionCalls.mpr ⟨?_, rfl⟩
        rw [← hnew]
        exact List.mem_append_left _ hmem
      rcases DeviceState.step_writes h hcall with hbefore | ⟨v, hv, hconn⟩
      · -- the same was written before
        obtain ⟨hmem', -⟩ := DeviceState.mem_sessionCalls.mp hbefore
        obtain ⟨newer, rest, hsplit⟩ := List.append_of_mem hmem'
        have hrest : .forwarded p sessionId conn n :: rest <:+ s.effects := ⟨newer, hsplit.symm⟩
        have hconnected := hi.writes p sessionId conn n rest hrest
        exact hconnected.mono (((List.suffix_cons _ _).trans hrest).trans hsuffix)
      · exact (hi.sockets p v conn hv hconn).mono hsuffix
    · exact hi.writes p sessionId conn n older hold

end Steps

/-- **Delivery in order.** In every run in which no notification finds others of its session on an
older way, the notifications of each session are written to its socket in the order in which the
secure world sent them, each once, and none before the NQ_CONNECT is answered. -/
theorem delivers_of_findsTurn {mciReused : Bool} {as : List Action}
    (hturn : machine.RunMeets FindsTurn (DeviceState.started mciReused) as) :
    receivingMachine.RunStays Delivers (DeviceState.started mciReused, .empty) as := by
  apply receivingMachine.runStays_of_inv
    (I := fun x => InTurn x.1 x.2 ∧ Accounted x.1 x.2 ∧ Answered x.1)
    (G := fun x a => FindsTurn x.1 a)
  · rintro ⟨s, r⟩ ⟨hturn, haccounted, hanswered⟩
    refine ⟨fun p => ?_, fun p => ⟨haccounted.written p, haccounted.live p⟩, hanswered.writes⟩
    exact (haccounted.written p).sublist.trans (hturn.handed p)
  · rintro ⟨s, r⟩ a ⟨t, r'⟩ ⟨hi, haccounted, hanswered⟩ hstep hfinds
    obtain ⟨h, rfl⟩ := machine.withHistory_step receive .empty hstep
    have hfresh := (haccounted.fresh _ (Nat.le_refl _)).2
    exact ⟨hi.step hfresh h hfinds, haccounted.step h hfinds, hanswered.step h⟩
  · refine ⟨⟨List.Sublist.refl _, fun p => List.Sublist.refl _, ?_⟩, ⟨fun p _ => ⟨rfl, rfl⟩,
      fun p => List.prefix_rfl, ?_⟩, ?_, ?_⟩
    · rintro p ⟨conn, rsp, u, hpc⟩
      cases hpc
    · intro p v hv
      cases hv
    · intro p v conn hv
      cases hv
    · intro p sessionId conn n older holder
      cases List.suffix_nil.mp holder
  · exact machine.runMeets_withHistory receive .empty .empty hturn

/-- Client 1 opens session 5, whose first notification comes during the open and the second one
before the notification socket. -/
def attachRun : List Action :=
  [.command 1 (.openDevice 0),
   .command 1 (.openSession ⟨some ⟨100, 0⟩, 0, 0, 0, {}⟩),
   .concurrent (.irq ⟨5, 1⟩),
   .concurrent (.irq ⟨sidMcp, 0⟩),
   .wake (.notified ⟨mcMcpCmdOpenSession ||| flagResponse, mcMcpRetOk, 5, 0⟩) ⟨0x1000, 77⟩,
   .round, .round,
   .concurrent (.irq ⟨5, 2⟩),
   .concurrent (.nqConnect 2 ⟨mcDeviceIdDefault, 5, 0x1000, 77⟩)]

/-- The third notification comes when the queue is flushed. -/
def deliveryRun : List Action :=
  attachRun ++ List.replicate 4 (.concurrent .nqFlush) ++ [.concurrent (.irq ⟨5, 3⟩)]

theorem delivers_flushed :
    receivingMachine.RunStays Delivers (DeviceState.started false, .empty) deliveryRun := by
  apply delivers_of_findsTurn
  refine ⟨trivial, trivial, ?_, ?_, trivial, trivial, trivial, ?_, trivial, trivial, trivial,
    trivial, trivial, ?_, trivial⟩
  · intro p v hh
    cases hh
  · intro p v hh
    cases hh
  · intro p v hh hv
    cases hh
    cases hv
    refine ⟨fun hne => absurd rfl hne, ?_⟩
    rintro ⟨conn, rsp, u, hpc⟩
    cases hpc
  · intro p v hh hv
    cases hh
    cases hv
    refine ⟨fun _ => rfl, ?_⟩
    rintro ⟨conn, rsp, u, hpc⟩
    cases hpc

/-- The third notification comes between the answer of the NQ_CONNECT and the flush. -/
def overtakingRun : List Action :=
  attachRun ++ .concurrent (.irq ⟨5, 3⟩) :: List.replicate 4 (.concurrent .nqFlush)

theorem delivers_overtaken :
    (∃ s, machine.run (DeviceState.started false) overtakingRun = some s ∧
      s.written 0 = [⟨5, 3⟩, ⟨5, 1⟩, ⟨5, 2⟩]) ∧
    ¬ receivingMachine.RunStays Delivers (DeviceState.started false, .empty) overtakingRun := by
  refine ⟨⟨_, rfl, rfl⟩, fun hstays => ?_⟩
  have hrun : receivingMachine.run (DeviceState.started false, .empty) overtakingRun = some _ :=
    rfl
  have horder := (hstays.last hrun).inOrder 0
  have hsorted : ¬ List.Sublist [(⟨5, 3⟩ : Notification), ⟨5, 1⟩, ⟨5, 2⟩]
      [⟨5, 1⟩, ⟨sidMcp, 0⟩, ⟨5, 2⟩, ⟨5, 3⟩] := by decide
  exact hsorted horder

end McDaemon.Device
