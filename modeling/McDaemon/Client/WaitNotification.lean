/-
# McDaemon.Client.WaitNotification — waiting for a notification.

One loop waits for the first notification of a session and takes the others that are there: after
the first read that comes back the timeout is 0.  What a read that yields no notification means
depends on whether there has been one before, and a counter of 32 bits tells.  After 2^32
notifications it is 0 again, and the call fails as if there had been none.
-/
import McDaemon.Client.CutReading
import McDaemon.Lib.KeyedList

namespace McDaemon.Client.Wait

open McDaemon.Lib
open McDaemon.Client.CutReading (mcDrvErrNotification mcDrvErrTimeout mcDrvInfoNotification)

def mcDrvErrInterruptedBySignal : McResult := 0x00000023

/-- `MC_INFINITE_TIMEOUT` and `MC_INFINITE_TIMEOUT_INTERRUPTIBLE`. -/
def mcInfiniteTimeout : Int32 := -1
def mcInfiniteTimeoutInterruptible : Int32 := -2

/-! ## Reading -/

/-- What `select` and `recv` give when a notification is to be read: an error, and whether `errno`
is `EINTR`; nothing within the timeout; another descriptor; a whole notification; or fewer bytes,
none at the end of the stream. -/
inductive ReadOutcome
  | selectFails (eintr : Bool)
  | notReady
  | notSet
  | recvFails (eintr : Bool)
  | cut (bytes : Fin 8)
  | notification (n : Notification)
deriving DecidableEq, Repr

namespace ReadOutcome

/-- What `Connection::readData` returns. -/
def numRead : ReadOutcome → Int
  | selectFails _ => -1
  | notReady => -2
  | notSet => 1
  | recvFails _ => -1
  | cut bytes => bytes
  | notification _ => 8

/-- `errno` is `EINTR` after a read that returns -1. -/
def eintr : ReadOutcome → Bool
  | selectFails eintr => eintr
  | recvFails eintr => eintr
  | _ => false

/-- The read has been interrupted. -/
def Interrupted (r : ReadOutcome) : Prop := r.numRead = -1 ∧ r.eintr = true

instance (r : ReadOutcome) : Decidable r.Interrupted := inferInstanceAs (Decidable (_ ∧ _))

/-- The notification that has been consumed, if one has. -/
def consumed : ReadOutcome → Option Notification
  | notification n => some n
  | _ => none

end ReadOutcome

/-! ## `mcWaitNotification_` -/

/-- `Session`, as far as notifications are concerned. -/
structure NqSession where
  sessionId : UInt32
  lastErr : Int32
deriving DecidableEq, Repr

/-- `Device`. -/
structure NqDevice where
  sessionList : List NqSession
  isValid : Bool
deriving DecidableEq, Repr

/-- `Device::resolveSessionId`. -/
def NqDevice.resolveSessionId (device : NqDevice) (sessionId : UInt32) : Option NqSession :=
  KeyedList.get NqSession.sessionId sessionId device.sessionList

/-- `Session::setErrorInfo` of the session with an id. -/
def NqDevice.setErrorInfo (device : NqDevice) (sessionId : UInt32) (err : Int32) : NqDevice :=
  { device with
    sessionList := KeyedList.modify NqSession.sessionId sessionId ({ · with lastErr := err })
      device.sessionList }

/-- How a wait ends, and the outcomes of the reads that it has not come to. -/
structure Waited where
  mcResult : McResult
  device : Option NqDevice
  unread : List ReadOutcome
deriving DecidableEq, Repr

/-- The loop of `mcWaitNotification_`; `none` where it is still waiting when the outcomes are used
up. -/
def waitLoop (device : NqDevice) (sessionId : UInt32) :
    Int32 → UInt32 → List ReadOutcome → Option Waited
  | _, _, [] => none
  | timeout, count, r :: unread =>
    if r.Interrupted ∧ timeout = mcInfiniteTimeout then
      waitLoop device sessionId timeout count unread
    else if r.Interrupted ∧ timeout = mcInfiniteTimeoutInterruptible then
      some ⟨mcDrvErrInterruptedBySignal, some device, unread⟩
    else if count = 0 ∧ r.numRead = -2 then some ⟨mcDrvErrTimeout, some device, unread⟩
    else if count = 0 ∧ r.numRead = 0 then
      some ⟨mcDrvErrNotification, some { device with isValid := false }, unread⟩
    else
      -- from here on the timeout is 0
      match r.consumed with
      | none =>
        if count = 0 then some ⟨mcDrvErrNotification, some device, unread⟩
        else some ⟨mcDrvOk, some device, unread⟩
      | some notification =>
        if notification.payload ≠ 0 then
          some ⟨mcDrvInfoNotification,
            some (device.setErrorInfo sessionId notification.payload), unread⟩
        else waitLoop device sessionId 0 (count + 1) unread

/-- `mcWaitNotification_`. -/
def mcWaitNotification_ (device : Option NqDevice) (sessionId : UInt32) (timeout : Int32)
    (reads : List ReadOutcome) : Option Waited :=
  match device with
  | none => some ⟨mcDrvErrDaemonDeviceNotOpen, none, reads⟩
  | some device =>
    match device.resolveSessionId sessionId with
    | none => some ⟨mcDrvErrUnknownSession, some device, reads⟩
    | some _ => waitLoop device sessionId timeout 0 reads

/-! ## What a wait is to tell -/

/-- The last error of a session. -/
def lastErr (device : Option NqDevice) (sessionId : UInt32) : Option Int32 :=
  (device.bind (·.resolveSessionId sessionId)).map NqSession.lastErr

/-- A wait neither invents nor hides events.  `done` is what it has read. -/
structure Tells (timeout : Int32) (sessionId : UInt32) (done : List ReadOutcome) (out : Waited) :
    Prop where
  ok : out.mcResult = mcDrvOk ↔
    done.filterMap ReadOutcome.consumed ≠ [] ∧
      ∀ n ∈ done.filterMap ReadOutcome.consumed, n.payload = 0
  info : out.mcResult = mcDrvInfoNotification ↔
    ∃ n ∈ done.filterMap ReadOutcome.consumed, n.payload ≠ 0
  infoLast : ∀ n ∈ done.filterMap ReadOutcome.consumed, n.payload ≠ 0 →
    done.getLast? = some (.notification n) ∧ lastErr out.device sessionId = some n.payload
  other : out.mcResult ≠ mcDrvOk → out.mcResult ≠ mcDrvInfoNotification →
    done.filterMap ReadOutcome.consumed = []
  timedOut : out.mcResult = mcDrvErrTimeout →
    ∃ front, done = front ++ [.notReady] ∧ ∀ r ∈ front, r.Interrupted
  infinite : timeout = mcInfiniteTimeout → out.mcResult ≠ mcDrvOk →
    ∀ r, done.getLast? = some r → ¬ r.Interrupted

/-- Whatever a wait returns, it tells what has come. -/
def WaitTells (device : Option NqDevice) (sessionId : UInt32) (timeout : Int32)
    (reads : List ReadOutcome) : Prop :=
  ∀ out, mcWaitNotification_ device sessionId timeout reads = some out →
    ∃ done, reads = done ++ out.unread ∧ Tells timeout sessionId done out

/-- What a wait goes past: interruptions, if it is infinite, and then notifications without an exit
code. -/
structure Passes (timeout : Int32) (reads interrupted : List ReadOutcome)
    (notifications : List Notification) (unread : List ReadOutcome) : Prop where
  split : reads = interrupted ++ (notifications.map ReadOutcome.notification ++ unread)
  all : ∀ r ∈ interrupted, r.Interrupted
  infinite : interrupted ≠ [] → timeout = mcInfiniteTimeout
  payloads : ∀ n ∈ notifications, n.payload = 0

/-- The wait goes past so many notifications that the counter is 0 again, and then there is a read
that yields none. -/
def CounterWraps (device : Option NqDevice) (sessionId : UInt32) (timeout : Int32)
    (reads : List ReadOutcome) : Prop :=
  (device.bind (·.resolveSessionId sessionId)).isSome ∧
  ∃ interrupted notifications r unread,
    Passes timeout reads interrupted notifications (r :: unread) ∧
    notifications ≠ [] ∧ 2 ^ 32 ∣ notifications.length ∧ r.consumed = none

/-! ## The loop -/

section Loop

variable {device : NqDevice} {sessionId : UInt32} {timeout : Int32} {count : UInt32}
  {r : ReadOutcome} {unread : List ReadOutcome} {out : Waited}

theorem consumed_of_interrupted (h : r.Interrupted) : r.consumed = none := by
  cases r with
  | notification n =>
    have hnumRead : (8 : Int) = -1 := h.1
    omega
  | _ => rfl

theorem consumed_eq_some_iff {n : Notification} : r.consumed = some n ↔ r = .notification n := by
  cases r with
  | notification m => simp [ReadOutcome.consumed]
  | _ => simp [ReadOutcome.consumed]

theorem numRead_eq_iff : r.numRead = -2 ↔ r = .notReady := by
  cases r with
  | cut bytes =>
    have hne : ((bytes : Nat) : Int) ≠ -2 := by omega
    exact iff_of_false hne (by simp)
  | _ => simp [ReadOutcome.numRead]

theorem not_interrupted_notification (n : Notification) :
    ¬ (ReadOutcome.notification n).Interrupted := by
  intro h
  have hnumRead : (8 : Int) = -1 := h.1
  omega

/-- An infinite wait goes on where it is interrupted. -/
theorem waitLoop_interrupted {interrupted : List ReadOutcome} (h : ∀ r ∈ interrupted, r.Interrupted)
    (htimeout : interrupted ≠ [] → timeout = mcInfiniteTimeout) :
    waitLoop device sessionId timeout count (interrupted ++ unread) =
      waitLoop device sessionId timeout count unread := by
  induction interrupted with
  | nil => rfl
  | cons r interrupted ih =>
    obtain rfl := htimeout (List.cons_ne_nil _ _)
    have hr : r.Interrupted := h r List.mem_cons_self
    rw [List.cons_append, waitLoop, if_pos ⟨hr, rfl⟩]
    exact ih (fun r' hr' => h r' (List.mem_cons_of_mem _ hr')) fun _ => rfl

theorem waitLoop_notification {n : Notification} (h : n.payload = 0) :
    waitLoop device sessionId timeout count (.notification n :: unread) =
      waitLoop device sessionId 0 (count + 1) unread := by
  have hnot := not_interrupted_notification n
  simp [waitLoop, hnot, ReadOutcome.numRead, ReadOutcome.consumed, h]

/-- Notifications without an exit code are counted. -/
theorem waitLoop_notifications {notifications : List Notification}
    (h : ∀ n ∈ notifications, n.payload = 0) :
    waitLoop device sessionId timeout count
        (notifications.map ReadOutcome.notification ++ unread) =
      waitLoop device sessionId (if notifications = [] then timeout else 0)
        (count + UInt32.ofNat notifications.length) unread := by
  induction notifications generalizing timeout count with
  | nil => simp
  | cons n notifications ih =>
    have hn : n.payload = 0 := h n List.mem_cons_self
    rw [List.map_cons, List.cons_append, waitLoop_notification hn,
      ih fun n' hn' => h n' (List.mem_cons_of_mem _ hn')]
    have hcount : count + 1 + UInt32.ofNat notifications.length =
        count + UInt32.ofNat (n :: notifications).length := by
      rw [List.length_cons, UInt32.ofNat_add, add_assoc, add_comm 1]
      rfl
    rw [hcount, ite_self, if_neg (List.cons_ne_nil _ _)]

/-- The loop goes past what it passes, with the counter as it is then. -/
theorem waitLoop_passes {reads interrupted : List ReadOutcome} {notifications : List Notification}
    (h : Passes timeout reads interrupted notifications unread) :
    waitLoop device sessionId timeout count reads =
      waitLoop device sessionId (if notifications = [] then timeout else 0)
        (count + UInt32.ofNat notifications.length) unread := by
  rw [h.split, waitLoop_interrupted h.all h.infinite, waitLoop_notifications h.payloads]

theorem waitLoop_exitCode {n : Notification} (h : n.payload ≠ 0) :
    waitLoop device sessionId timeout count (.notification n :: unread) =
      some ⟨mcDrvInfoNotification, some (device.setErrorInfo sessionId n.payload), unread⟩ := by
  have hnot := not_interrupted_notification n
  simp [waitLoop, hnot, ReadOutcome.numRead, ReadOutcome.consumed, h]

/-- A result that tells of no notification. -/
def Failure (mcResult : McResult) : Prop :=
  mcResult ≠ mcDrvOk ∧ mcResult ≠ mcDrvInfoNotification

theorem failure_interrupted : Failure mcDrvErrInterruptedBySignal := ⟨by decide, by decide⟩

theorem failure_timeout : Failure mcDrvErrTimeout := ⟨by decide, by decide⟩

theorem failure_notification : Failure mcDrvErrNotification := ⟨by decide, by decide⟩

/-- A read that yields none ends the wait, and the counter says how. -/
theorem waitLoop_none (hr : r.consumed = none)
    (hagain : ¬ (r.Interrupted ∧ timeout = mcInfiniteTimeout)) :
    ∃ out, waitLoop device sessionId timeout count (r :: unread) = some out ∧
      out.unread = unread ∧
      (count ≠ 0 → timeout = 0 → out.mcResult = mcDrvOk) ∧
      (count = 0 → Failure out.mcResult ∧ (out.mcResult = mcDrvErrTimeout → r = .notReady)) := by
  have hinterrupted : mcDrvErrInterruptedBySignal ≠ mcDrvErrTimeout := by decide
  have hnotification : mcDrvErrNotification ≠ mcDrvErrTimeout := by decide
  rw [waitLoop, if_neg hagain]
  by_cases hsignal : r.Interrupted ∧ timeout = mcInfiniteTimeoutInterruptible
  · rw [if_pos hsignal]
    refine ⟨_, rfl, rfl, fun _ h0 => ?_,
      fun _ => ⟨failure_interrupted, fun heq => absurd heq hinterrupted⟩⟩
    exact absurd (h0.symm.trans hsignal.2) (by decide)
  rw [if_neg hsignal]
  by_cases htimedOut : count = 0 ∧ r.numRead = -2
  · rw [if_pos htimedOut]
    exact ⟨_, rfl, rfl, fun hne => absurd htimedOut.1 hne,
      fun _ => ⟨failure_timeout, fun _ => numRead_eq_iff.mp htimedOut.2⟩⟩
  rw [if_neg htimedOut]
  by_cases hclosed : count = 0 ∧ r.numRead = 0
  · rw [if_pos hclosed]
    exact ⟨_, rfl, rfl, fun hne => absurd hclosed.1 hne,
      fun _ => ⟨failure_notification, fun heq => absurd heq hnotification⟩⟩
  rw [if_neg hclosed, hr]
  dsimp only
  by_cases hcount : count = 0
  · rw [if_pos hcount]
    exact ⟨_, rfl, rfl, fun hne => absurd hcount hne,
      fun _ => ⟨failure_notification, fun heq => absurd heq hnotification⟩⟩
  · rw [if_neg hcount]
    exact ⟨_, rfl, rfl, fun _ _ => rfl, fun h0 => absurd h0 hcount⟩

/-- **A wait that comes back.** There is one read on which it ends. -/
theorem exists_last {reads : List ReadOutcome}
    (h : waitLoop device sessionId timeout count reads = some out) :
    ∃ interrupted notifications r,
      Passes timeout reads interrupted notifications (r :: out.unread) ∧
      ¬ (r.Interrupted ∧ (if notifications = [] then timeout else 0) = mcInfiniteTimeout) ∧
      (∀ n, r.consumed = some n → n.payload ≠ 0) := by
  induction reads generalizing timeout count with
  | nil => simp [waitLoop] at h
  | cons r unread ih =>
    by_cases hagain : r.Interrupted ∧ timeout = mcInfiniteTimeout
    · -- interrupted, and the wait starts over
      rw [waitLoop, if_pos hagain] at h
      obtain ⟨interrupted, notifications, r', hpasses, hlast⟩ := ih h
      refine ⟨r :: interrupted, notifications, r', ⟨?_, ?_, fun _ => hagain.2, hpasses.payloads⟩,
        hlast⟩
      · rw [hpasses.split]
        rfl
      · exact List.forall_mem_cons.mpr ⟨hagain.1, hpasses.all⟩
    · by_cases hzero : ∃ n, r = .notification n ∧ n.payload = 0
      · obtain ⟨n, rfl, hn⟩ := hzero
        rw [waitLoop_notification hn] at h
        obtain ⟨interrupted, notifications, r', hpasses, hlast⟩ := ih h
        have hnone : interrupted = [] := by
          by_contra hne
          exact absurd (hpasses.infinite hne) (by decide)
        subst hnone
        refine ⟨[], n :: notifications, r', ⟨?_, by simp, by simp, ?_⟩, ?_, hlast.2⟩
        · rw [hpasses.split]
          rfl
        · exact List.forall_mem_cons.mpr ⟨hn, hpasses.payloads⟩
        · rw [if_neg (List.cons_ne_nil _ _)]
          simpa using hlast.1
      · -- the loop ends on this read
        have hpayload : ∀ n, r.consumed = some n → n.payload ≠ 0 :=
          fun n hn hn0 => hzero ⟨n, consumed_eq_some_iff.mp hn, hn0⟩
        have hunread : out.unread = unread := by
          cases hr : r.consumed with
          | none =>
            obtain ⟨out', hout', hunread', -⟩ := waitLoop_none hr hagain
            exact Option.some.inj (h.symm.trans hout') ▸ hunread'
          | some n =>
            rw [consumed_eq_some_iff.mp hr, waitLoop_exitCode (hpayload n hr)] at h
            exact Option.some.inj h ▸ rfl
        exact ⟨[], [], r, ⟨by simp [hunread], by simp, by simp, by simp⟩, by simpa using hagain,
          hpayload⟩

end Loop

/-! ## What the wait tells -/

section Tells

variable {device : NqDevice} {sessionId : UInt32} {timeout : Int32} {reads interrupted unread :
  List ReadOutcome} {notifications : List Notification} {r : ReadOutcome} {out : Waited}

theorem consumed_interrupted (h : ∀ r ∈ interrupted, r.Interrupted) :
    interrupted.filterMap ReadOutcome.consumed = [] :=
  List.filterMap_eq_nil_iff.mpr fun r hr => consumed_of_interrupted (h r hr)

theorem consumed_map (notifications : List Notification) :
    (notifications.map ReadOutcome.notification).filterMap ReadOutcome.consumed = notifications := by
  rw [List.filterMap_map]
  exact List.filterMap_some

/-- What has been consumed by a wait that goes past some reads and ends on `r`. -/
theorem Passes.consumed (h : Passes timeout reads interrupted notifications unread) :
    (interrupted ++ (notifications.map ReadOutcome.notification ++ [r])).filterMap
      ReadOutcome.consumed = notifications ++ r.consumed.toList := by
  rw [List.filterMap_append, List.filterMap_append, consumed_interrupted h.all, consumed_map]
  cases hr : r.consumed with
  | none => simp [hr]
  | some n => simp [hr]

theorem getLast_done : (interrupted ++ (notifications.map ReadOutcome.notification ++ [r])).getLast? =
    some r := by
  simp

theorem lastErr_setErrorInfo {err : Int32} (h : (device.resolveSessionId sessionId).isSome) :
    lastErr (some (device.setErrorInfo sessionId err)) sessionId = some err := by
  obtain ⟨session, hsession⟩ := Option.isSome_iff_exists.mp h
  have hsession' : KeyedList.get NqSession.sessionId sessionId device.sessionList = some session :=
    hsession
  show ((KeyedList.get _ _ (KeyedList.modify _ _ _ _)).map _) = _
  rw [KeyedList.get_modify fun _ => by rfl, if_pos rfl, hsession']
  rfl

theorem ofNat_eq_zero_iff (n : Nat) : (0 : UInt32) + UInt32.ofNat n = 0 ↔ 2 ^ 32 ∣ n := by
  rw [zero_add, ← UInt32.toNat_inj, UInt32.toNat_ofNat']
  exact Nat.dvd_iff_mod_eq_zero.symm

/-- A wait that reads nothing. -/
theorem tells_nothing {mcResult : McResult} (hfailure : Failure mcResult)
    (htimeout : mcResult ≠ mcDrvErrTimeout) (device : Option NqDevice) :
    Tells timeout sessionId [] ⟨mcResult, device, unread⟩ where
  ok := iff_of_false hfailure.1 fun h => h.1 rfl
  info := iff_of_false hfailure.2 (by simp)
  infoLast := by simp
  other := fun _ _ => rfl
  timedOut := fun heq => absurd heq htimeout
  infinite := by simp

/-- The wait ends on a notification with an exit code. -/
theorem tells_exitCode {n : Notification} (hfound : (device.resolveSessionId sessionId).isSome)
    (h : Passes timeout reads interrupted notifications (.notification n :: unread))
    (hn : n.payload ≠ 0) :
    Tells timeout sessionId
      (interrupted ++ (notifications.map ReadOutcome.notification ++ [.notification n]))
      ⟨mcDrvInfoNotification, some (device.setErrorInfo sessionId n.payload), unread⟩ := by
  have hconsumed : (interrupted ++ (notifications.map ReadOutcome.notification ++
      [ReadOutcome.notification n])).filterMap ReadOutcome.consumed = notifications ++ [n] :=
    h.consumed
  have hinfo : mcDrvInfoNotification ≠ mcDrvOk := by decide
  have htimeout : mcDrvInfoNotification ≠ mcDrvErrTimeout := by decide
  constructor
  · rw [hconsumed]
    refine iff_of_false hinfo fun h0 => hn (h0.2 n ?_)
    simp
  · rw [hconsumed]
    exact iff_of_true rfl ⟨n, by simp, hn⟩
  · rw [hconsumed]
    intro m hm hm0
    have hmn : m = n := by
      rcases List.mem_append.mp hm with hm | hm
      · exact absurd (h.payloads m hm) hm0
      · exact List.mem_singleton.mp hm
    subst hmn
    refine ⟨?_, lastErr_setErrorInfo hfound⟩
    simp
  · intro _ hne
    exact absurd rfl hne
  · intro heq
    exact absurd heq htimeout
  · intro _ _ r hr
    rw [getLast_done, Option.some.injEq] at hr
    subst hr
    exact not_interrupted_notification n

/-- The wait ends on a read that yields no notification, with the counter not at 0 again. -/
theorem tells_none (h : Passes timeout reads interrupted notifications (r :: unread))
    (hr : r.consumed = none)
    (hagain : ¬ (r.Interrupted ∧ (if notifications = [] then timeout else 0) = mcInfiniteTimeout))
    (hok : notifications ≠ [] → out.mcResult = mcDrvOk)
    (hfails : notifications = [] →
      Failure out.mcResult ∧ (out.mcResult = mcDrvErrTimeout → r = .notReady)) :
    Tells timeout sessionId
      (interrupted ++ (notifications.map ReadOutcome.notification ++ [r])) out := by
  have hconsumed : (interrupted ++ (notifications.map ReadOutcome.notification ++
      [r])).filterMap ReadOutcome.consumed = notifications := by
    rw [h.consumed, hr]
    exact List.append_nil notifications
  have hinfo : mcDrvOk ≠ mcDrvInfoNotification := by decide
  have htimeout : mcDrvOk ≠ mcDrvErrTimeout := by decide
  -- with a notification before it the read ends the wait, without one the wait has failed
  by_cases hnone : notifications = []
  · obtain ⟨hfailure, htimedOut⟩ := hfails hnone
    constructor
    · rw [hconsumed]
      exact iff_of_false hfailure.1 fun h0 => h0.1 hnone
    · rw [hconsumed, hnone]
      exact iff_of_false hfailure.2 (by simp)
    · rw [hconsumed, hnone]
      simp
    · intro _ _
      rw [hconsumed, hnone]
    · intro heq
      refine ⟨interrupted, ?_, h.all⟩
      rw [hnone, htimedOut heq]
      rfl
    · intro hinfinite _ r' hr'
      rw [if_pos hnone] at hagain
      rw [getLast_done, Option.some.injEq] at hr'
      subst hr'
      exact fun hinterrupted => hagain ⟨hinterrupted, hinfinite⟩
  · have hres := hok hnone
    constructor
    · rw [hconsumed]
      exact iff_of_true hres ⟨hnone, h.payloads⟩
    · rw [hconsumed, hres]
      refine iff_of_false hinfo ?_
      rintro ⟨n, hn, hn0⟩
      exact hn0 (h.payloads n hn)
    · rw [hconsumed]
      intro n hn hn0
      exact absurd (h.payloads n hn) hn0
    · intro hne
      exact absurd hres hne
    · rw [hres]
      exact fun heq => absurd heq htimeout
    · intro _ hne
      exact absurd hres hne

/-- Where the counter wraps, the wait comes back as if nothing had come. -/
theorem not_waitTells_of_wraps {device : Option NqDevice}
    (h : CounterWraps device sessionId timeout reads) :
    ¬ WaitTells device sessionId timeout reads := by
  obtain ⟨hfound, interrupted, notifications, r, unread, hpasses, hne, hdvd, hr⟩ := h
  obtain ⟨session, hsession⟩ := Option.isSome_iff_exists.mp hfound
  obtain ⟨device, rfl, hresolve⟩ := Option.bind_eq_some_iff.mp hsession
  have hagain : ¬ (r.Interrupted ∧ (0 : Int32) = mcInfiniteTimeout) :=
    fun h0 => absurd h0.2 (by decide)
  obtain ⟨out, hout, hunread, -, hfails⟩ :=
    (waitLoop_none hr hagain : ∃ out, waitLoop device sessionId 0 0 (r :: unread) = some out ∧ _)
  have hwait : mcWaitNotification_ (some device) sessionId timeout reads = some out := by
    show (match device.resolveSessionId sessionId with
      | none => some _
      | some _ => waitLoop device sessionId timeout 0 reads) = _
    rw [hresolve, ← hout]
    dsimp only
    rw [waitLoop_passes hpasses, if_neg hne, (ofNat_eq_zero_iff _).mpr hdvd]
  intro htells
  obtain ⟨done, hdone, htell⟩ := htells out hwait
  have hsplit : done = interrupted ++ (notifications.map ReadOutcome.notification ++ [r]) := by
    refine (List.append_left_inj out.unread).mp ?_
    rw [← hdone, hpasses.split, hunread]
    simp
  obtain ⟨hfailure, -⟩ := hfails rfl
  have hnone := htell.other hfailure.1 hfailure.2
  rw [hsplit, hpasses.consumed, hr] at hnone
  exact hne (by simpa using hnone)

/-- **When a wait neither invents nor hides events.** -/
theorem waitTells_iff (device : Option NqDevice) (sessionId : UInt32) (timeout : Int32)
    (reads : List ReadOutcome) :
    WaitTells device sessionId timeout reads ↔ ¬ CounterWraps device sessionId timeout reads := by
  refine ⟨fun htells hwraps => not_waitTells_of_wraps hwraps htells, fun hwraps out hout => ?_⟩
  have hnotOpen : Failure mcDrvErrDaemonDeviceNotOpen := ⟨by decide, by decide⟩
  have hunknown : Failure mcDrvErrUnknownSession := ⟨by decide, by decide⟩
  cases device with
  | none =>
    obtain rfl := Option.some.inj hout
    exact ⟨[], rfl, tells_nothing hnotOpen (by decide) none⟩
  | some device =>
    cases hresolve : device.resolveSessionId sessionId with
    | none =>
      simp only [mcWaitNotification_, hresolve, Option.some.injEq] at hout
      subst hout
      exact ⟨[], rfl, tells_nothing hunknown (by decide) (some device)⟩
    | some session =>
      simp only [mcWaitNotification_, hresolve] at hout
      obtain ⟨interrupted, notifications, r, hpasses, hagain, hpayload⟩ := exists_last hout
      refine ⟨interrupted ++ (notifications.map ReadOutcome.notification ++ [r]), ?_, ?_⟩
      · rw [hpasses.split]
        simp
      · rw [waitLoop_passes hpasses] at hout
        cases hr : r.consumed with
        | some n =>
          obtain rfl := consumed_eq_some_iff.mp hr
          rw [waitLoop_exitCode (hpayload n hr)] at hout
          rw [← Option.some.inj hout]
          exact tells_exitCode (by simp [hresolve]) hpasses (hpayload n hr)
        | none =>
          obtain ⟨out', hout', hunread, hok, hfails⟩ := waitLoop_none hr hagain
          obtain rfl := Option.some.inj (hout.symm.trans hout')
          refine tells_none hpasses hr hagain (fun hne => hok ?_ (if_neg hne)) fun hnone =>
            hfails (by rw [hnone]; rfl)
          rw [Ne, ofNat_eq_zero_iff]
          intro hdvd
          exact hwraps ⟨by simp [hresolve], interrupted, notifications, r, out.unread, hpasses, hne,
            hdvd, hr⟩

end Tells

/-- The device of a session that has 2^32 notifications waiting, all without an exit code. -/
def flooded : Option NqDevice := some ⟨[⟨1, 0⟩], true⟩

/-- All are read, and the wait reports a timeout. -/
theorem not_waitTells : ¬ WaitTells flooded 1 mcInfiniteTimeout
    ((List.replicate (2 ^ 32) ⟨1, 0⟩).map ReadOutcome.notification ++ [.notReady]) := by
  apply not_waitTells_of_wraps
  refine ⟨rfl, [], List.replicate (2 ^ 32) ⟨1, 0⟩, .notReady, [], ⟨rfl, by simp, by simp, ?_⟩, ?_,
    ?_, rfl⟩
  · intro n hn
    rw [List.eq_of_mem_replicate hn]
  · intro hnil
    have hlength := congrArg List.length hnil
    rw [List.length_replicate] at hlength
    exact absurd hlength (by decide)
  · rw [List.length_replicate]

end McDaemon.Client.Wait
