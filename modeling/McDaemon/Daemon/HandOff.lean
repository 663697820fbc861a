/-
# McDaemon.Daemon.HandOff — what becomes of the commands and the clients.

A client is away from the worker, in the queue, or with the worker at some place of its loop, and
what may be owed to it follows from that: a command that has been read and not handled, or that its
connection is dropped.  A client that has been deleted has no thread any more and is away from the
worker, so nobody looks at it again.  What is owed to a client comes about by the steps of the worker
and of the clients' own threads, in whatever order these are taken.
-/
import McDaemon.Daemon.ClientThreads
import McDaemon.Lib.Progress

namespace McDaemon.Daemon.Threads

open McDaemon.Lib

namespace ServerState

/-! ## What is handed off -/

/-- The client is in the queue or with the worker. -/
def Waits (s : ServerState) (c : Nat) : Prop := some c ∈ s.queue ∨ s.worker.client = some c

/-- The worker waits for a client to be queued, or for a thread that has pushed its client to come
to wait. -/
def Goes (s : ServerState) : Prop :=
  s.stepWorker = none → s.worker = .stopped ∨ s.worker = .popping ∧ s.queue = [] ∨
    ∃ c, s.worker = .unlocking c ∧ s.stepClient c (s.client c) ≠ none

/-- A client is in the queue with no `NULL` before it, or is about to be put into a queue without
one, and the worker has not been stopped; or the worker has got it. -/
inductive Comes (s : ServerState) (c : Nat) : Prop
  | queueing (stage : (s.client c).stage = .queueing) (queue : none ∉ s.queue)
      (worker : s.worker ≠ .stopped)
  | queued (front rest : List (Option Nat)) (queue : s.queue = front ++ some c :: rest)
      (front : none ∉ front) (worker : s.worker ≠ .stopped)
  | taken (worker : s.worker.client = some c)

/-- The steps of the worker and of the threads of the clients, other than reading. -/
def Works : Action → Prop
  | .worker | .client _ => True
  | _ => False

/-- What comes of a client `x` that the worker has to do with: what it has read has been handled,
and it reads again, or it has ended, dropped once or detached. -/
structure Attended (x y : Client) : Prop where
  received : y.received = x.received
  handled : y.handled = x.received
  stage : y.stage = if x.dead then .ended else .reading
  drops : x.dead = true → y.drops = if y.connection = none then [] else [y.received.length]

end ServerState

/-! ## The invariant -/

/-- What the worker is to a client. -/
inductive Role
  | away
  | queued
  | chosen
  | dropping
  | exiting
  | handling (commandId : UInt32)
  | unlocking
deriving DecidableEq

def roleOf (worker : Worker) (queue : List (Option Nat)) (c : Nat) : Role :=
  if worker.client = some c then
    match worker with
    | .popping | .stopped => .away
    | .chosen _ => .chosen
    | .dropping _ => .dropping
    | .exiting _ => .exiting
    | .handling _ _ commandId => .handling commandId
    | .unlocking _ => .unlocking
  else if some c ∈ queue then .queued else .away

namespace Client

/-- The thread has pushed the client, and is locked. -/
def Locked (x : Client) : Prop := x.stage = .pushed ∨ x.stage = .waiting ∧ x.locked = true

/-- Nothing has happened to the client yet that would end it. -/
structure Living (x : Client) : Prop where
  dead : x.dead = false
  exiting : x.exiting = false
  drops : x.drops = []

/-- What the drops of a client come to. -/
def dropsDue (x : Client) : List Nat := if x.connection = none then [] else [x.received.length]

/-- The worker has to do something for the client: to handle its command, or to drop it. -/
structure Owed (x : Client) : Prop where
  exiting : x.exiting = false
  drops : x.drops = []
  commands : x.received = if x.dead then x.handled else x.handled ++ [x.commandId]

/-- The worker has done everything for the client. -/
structure Served (x : Client) : Prop where
  commands : x.received = x.handled
  living : x.dead = false → x.Living
  dead : x.dead = true → x.exiting = true ∧ x.drops = x.dropsDue

end Client

/-- A client as it is when the worker is to it what the role says. -/
inductive ClientOk : Role → Client → Prop
  | idle {x : Client} (stage : x.stage = .absent ∨ x.stage = .created ∨ x.stage = .reading)
      (living : x.Living) (commands : x.received = x.handled) : ClientOk .away x
  | queueing {x : Client} (stage : x.stage = .queueing) (owed : x.Owed) : ClientOk .away x
  | released {x : Client} (stage : x.stage = .waiting) (locked : x.locked = false)
      (served : x.Served) : ClientOk .away x
  | ended {x : Client} (stage : x.stage = .ended) (dead : x.dead = true) (served : x.Served) :
      ClientOk .away x
  | queued {x : Client} (locked : x.Locked) (owed : x.Owed) : ClientOk .queued x
  | chosen {x : Client} (locked : x.Locked) (owed : x.Owed) : ClientOk .chosen x
  | dropping {x : Client} (locked : x.Locked) (owed : x.Owed) (dead : x.dead = true)
      (connection : x.connection ≠ none) : ClientOk .dropping x
  | exiting {x : Client} (locked : x.Locked) (dead : x.dead = true) (exiting : x.exiting = false)
      (drops : x.drops = x.dropsDue) (commands : x.received = x.handled) : ClientOk .exiting x
  | handling {x : Client} (locked : x.Locked) (owed : x.Owed) (dead : x.dead = false) :
      ClientOk (.handling x.commandId) x
  | unlocking {x : Client} (locked : x.Locked) (served : x.Served) : ClientOk .unlocking x

theorem ClientOk.inTurn {r : Role} {x : Client} (h : ClientOk r x) : x.received = x.handled ∨
    x.received = x.handled ++ [x.commandId] ∧ (x.stage = .queueing ∨ r ≠ .away) := by
  have howed : x.Owed → (x.stage = .queueing ∨ r ≠ .away) → x.received = x.handled ∨
      x.received = x.handled ++ [x.commandId] ∧ (x.stage = .queueing ∨ r ≠ .away) := by
    intro howed hplace
    have hcommands := howed.commands
    split at hcommands
    · exact .inl hcommands
    · exact .inr ⟨hcommands, hplace⟩
  cases h with
  | idle _ _ commands => exact .inl commands
  | queueing stage owed => exact howed owed (.inl stage)
  | released _ _ served => exact .inl served.commands
  | ended _ _ served => exact .inl served.commands
  | queued _ owed => exact howed owed (.inr nofun)
  | chosen _ owed => exact howed owed (.inr nofun)
  | dropping _ owed _ _ => exact howed owed (.inr nofun)
  | exiting _ _ _ _ commands => exact .inl commands
  | handling _ owed _ => exact howed owed (.inr nofun)
  | unlocking _ served => exact .inl served.commands

theorem dropsDue_cases (x : Client) : x.dropsDue = [] ∨ x.dropsDue = [x.received.length] := by
  unfold Client.dropsDue
  split
  · exact .inl rfl
  · exact .inr rfl

theorem ClientOk.drops {r : Role} {x : Client} (h : ClientOk r x) :
    x.drops = [] ∨ x.drops = [x.received.length] := by
  have hserved : x.Served → x.drops = [] ∨ x.drops = [x.received.length] := by
    intro hserved
    cases hdead : x.dead with
    | true =>
      rw [(hserved.dead hdead).2]
      exact dropsDue_cases x
    | false => exact .inl (hserved.living hdead).drops
  cases h with
  | idle _ living _ => exact .inl living.drops
  | queueing _ owed => exact .inl owed.drops
  | released _ _ served => exact hserved served
  | ended _ _ served => exact hserved served
  | queued _ owed => exact .inl owed.drops
  | chosen _ owed => exact .inl owed.drops
  | dropping _ owed _ _ => exact .inl owed.drops
  | exiting _ _ _ drops _ =>
    rw [drops]
    exact dropsDue_cases x
  | handling _ owed _ => exact .inl owed.drops
  | unlocking _ served => exact hserved served

theorem Client.Locked.stage {x : Client} (h : x.Locked) : x.stage = .pushed ∨ x.stage = .waiting :=
  h.imp_right And.left

/-- A client that is made or that reads is away from the worker, and has nothing on its way. -/
theorem ClientOk.of_idle {r : Role} {x : Client} (h : ClientOk r x)
    (hstage : x.stage = .absent ∨ x.stage = .created ∨ x.stage = .reading) :
    r = .away ∧ x.Living ∧ x.received = x.handled := by
  cases h with
  | idle _ living commands => exact ⟨rfl, living, commands⟩
  | queueing stage => rw [stage] at hstage; simp at hstage
  | released stage => rw [stage] at hstage; simp at hstage
  | ended stage => rw [stage] at hstage; simp at hstage
  | queued locked | chosen locked | dropping locked | exiting locked | handling locked
  | unlocking locked =>
    rcases locked.stage with stage | stage <;> rw [stage] at hstage <;> simp at hstage

/-- A client that the worker has to do with is locked. -/
theorem ClientOk.locked {r : Role} {x : Client} (h : ClientOk r x) (hr : r ≠ .away) :
    x.Locked := by
  cases h with
  | idle | queueing | released | ended => exact absurd rfl hr
  | queued locked | chosen locked | dropping locked | exiting locked | handling locked
  | unlocking locked => exact locked

theorem roleOf_ne_away {worker : Worker} {queue : List (Option Nat)} {c : Nat} :
    roleOf worker queue c ≠ .away ↔ some c ∈ queue ∨ worker.client = some c := by
  unfold roleOf
  by_cases hworker : worker.client = some c
  · rw [if_pos hworker]
    cases worker <;> simp_all [Worker.client]
  · rw [if_neg hworker]
    by_cases hqueue : some c ∈ queue <;> simp [hqueue, hworker]

namespace ServerState

/-- The clients, their places at the worker, and the queue. -/
structure Placed (client : Nat → Client) (queue : List (Option Nat)) (worker : Worker) : Prop where
  ok : ∀ c, ClientOk (roleOf worker queue c) (client c)
  own : ∀ c k, (client c).connection = some k → k = c
  once : (queue.filterMap id).Nodup
  taken : ∀ c, worker.client = some c → some c ∉ queue
  handling : ∀ c k commandId, worker = .handling c (some k) commandId → k = c

/-- The main thread has the clients that it goes through. -/
def Reaps (s : ServerState) : MainThread → Prop
  | .selecting | .stopped => True
  | .starting c => c ∈ s.clients ∧ (s.client c).stage = .created
  | .reaping rest => rest ⊆ s.clients ∧ rest.Nodup
  | .joining c rest => rest ⊆ s.clients ∧ rest.Nodup ∧ c ∉ s.clients ∧ c ∉ objects.gone s.log

/-- The list of the clients, and those that have been deleted. -/
structure Alive (s : ServerState) : Prop where
  made : ∀ c, s.made ≤ c → s.client c = .absent
  nodup : s.clients.Nodup
  listed : ∀ c ∈ s.clients, c < s.made ∧ c ∉ objects.gone s.log
  gone : ∀ c ∈ objects.gone s.log, (s.client c).stage = .ended
  safe : objects.Safe s.log
  reaps : s.Reaps s.main

structure Inv (s : ServerState) : Prop where
  placed : Placed s.client s.queue s.worker
  alive : s.Alive

end ServerState

end McDaemon.Daemon.Threads
