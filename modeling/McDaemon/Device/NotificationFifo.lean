/-
# McDaemon.Device.NotificationFifo — the notification ring is a bounded queue.

Both directions of `NotificationQueue` are rings with free-running counters: one side only puts, the
other only gets.  Seen from outside, a ring is the list of its pending notifications, and neither
its size nor where its counters stand can be told from its answers.
-/
import McDaemon.Api
import McDaemon.Lib.FileSteps
import McDaemon.Lib.Ring

namespace McDaemon.Device.NotificationQueue

open McDaemon.Lib

variable {k : Fin 32}

/-- `NotificationQueue::putNotification`: it returns nothing, also when the ring is full. -/
def putNotification (q : Ring Notification k) (n : Notification) : Ring Notification k :=
  (q.put n).getD q

/-- `NotificationQueue::getNotification`: the slot it returns a pointer to, or NULL. -/
def getNotification (q : Ring Notification k) :
    Option (Fin (2 ^ k.val)) × Ring Notification k :=
  match q.get? with
  | some (p, t) => (some p, t)
  | none => (none, q)

/-- A call on a ring. -/
inductive QueueCall where
  | putNotification (n : Notification)
  | getNotification
deriving DecidableEq, Repr

/-- What a call returns, with the pointer followed, and the ring after it. -/
def call (q : Ring Notification k) : QueueCall → Option Notification × Ring Notification k
  | .putNotification n => (none, putNotification q n)
  | .getNotification =>
    let (p, t) := getNotification q
    (p.map t.read, t)

/-- The same call on a list with room for `capacity` notifications, the oldest first. -/
def fifoCall (capacity : Nat) (l : List Notification) :
    QueueCall → Option Notification × List Notification
  | .putNotification n => (none, if l.length < capacity then l ++ [n] else l)
  | .getNotification => (l.head?, l.tail)

theorem pending_putNotification (q : Ring Notification k) (n : Notification) :
    (putNotification q n).pending =
      if q.pending.length < 2 ^ k.val then q.pending ++ [n] else q.pending := by
  cases hput : q.put n with
  | none =>
    rw [putNotification, hput, if_neg (Ring.put_eq_none.mp hput)]
    rfl
  | some t =>
    have hspace : q.pending.length < 2 ^ k.val := by
      by_contra hfull
      rw [Ring.put_eq_none.mpr hfull] at hput
      cases hput
    rw [putNotification, hput, if_pos hspace]
    exact Ring.pending_put hput

/-- One call on a ring is the call on its pending notifications. -/
theorem fifoCall_pending (q : Ring Notification k) (c : QueueCall) :
    fifoCall (2 ^ k.val) q.pending c = ((call q c).1, (call q c).2.pending) := by
  cases c with
  | putNotification n =>
    simp only [fifoCall, call, pending_putNotification]
  | getNotification =>
    cases hget : q.get? with
    | none =>
      have hempty : q.pending = [] := Ring.get?_eq_none.mp hget
      simp [fifoCall, call, getNotification, hget, hempty]
    | some x =>
      obtain ⟨p, t⟩ := x
      simp [fifoCall, call, getNotification, hget, Ring.pending_get? hget]

/-- **The ring is a bounded FIFO.**  Whatever its size and its counters are, every sequence of calls
on a ring is answered as the list of its pending notifications answers it, and leaves what the list
then is. -/
theorem serveAll_call (q : Ring Notification k) (cs : List QueueCall) :
    serveAll (fifoCall (2 ^ k.val)) q.pending cs =
      ((serveAll call q cs).1, (serveAll call q cs).2.pending) := by
  apply serveAll_refines (I := fun _ => True)
  · intro q c _
    trivial
  · intro q c _
    exact fifoCall_pending q c
  · trivial

/-- The counters wrap between two gets. -/
example : (serveAll call (⟨4294967295, 4294967295, #v[⟨0, 0⟩, ⟨0, 0⟩]⟩ : Ring Notification 1)
    [.putNotification ⟨1, 0⟩, .putNotification ⟨2, 0⟩, .putNotification ⟨3, 0⟩, .getNotification,
      .getNotification, .getNotification]).1 =
    [none, none, none, some ⟨1, 0⟩, some ⟨2, 0⟩, none] := by
  decide

end McDaemon.Device.NotificationQueue
