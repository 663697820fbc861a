/-
# McDaemon.Device.NotificationQueue — the ring of notifications from the secure world.

`getNotification` hands out a pointer into the ring and gives the slot back in the same step; the
interrupt handler then reads through the pointer several times.  The secure world puts whenever
there is space.  What the handler reads is what was put for the position it took, as long as the
ring does not fill up behind its back.
-/
import McDaemon.Api
import McDaemon.Lib.Machine
import McDaemon.Lib.Ring

namespace McDaemon.Device

open McDaemon.Lib

/-! ## The handler -/

/-- A read through the pointer that `getNotification` returned. -/
inductive Use where
  | sessionId
  | payload
  | whole
deriving DecidableEq, Repr

/-- What a read finds. -/
inductive Seen where
  | sessionId (v : UInt32)
  | payload (v : Int32)
  | whole (n : Notification)
deriving DecidableEq, Repr

def Use.of (u : Use) (n : Notification) : Seen :=
  match u with
  | .sessionId => .sessionId n.sessionId
  | .payload => .payload n.payload
  | .whole => .whole n

/-- Where a notification goes once its session has been looked up: into the device's queue (and
back to the secure world), into the session's queue or not, or to the notification socket.
`queueNotification` looks at the payload for GP sessions only. -/
inductive Route where
  | unknown (notifyBack : Bool)
  | queued (gp : Bool)
  | dropped (gp : Bool)
  | forwarded
deriving DecidableEq, Repr

/-- The reads on each of the ways. -/
def Route.uses : Route → List Use
  | .unknown notifyBack => if notifyBack then [.whole, .sessionId] else [.whole]
  | .queued gp => if gp then [.payload, .whole] else [.whole]
  | .dropped gp => if gp then [.payload] else []
  | .forwarded => [.whole]

/-- Where the loop of `handleIrq` stands: before `getNotification`, before the test for the MCP
session, before the look-up of the session, or with these reads still to come. -/
inductive IrqHandler (k : Fin 32) where
  | idle
  | testing (p : Fin (2 ^ k.val))
  | lookingUp (p : Fin (2 ^ k.val))
  | routed (p : Fin (2 ^ k.val)) (uses : List Use)
deriving DecidableEq, Repr

/-- The slot that the handler has a pointer to. -/
def IrqHandler.slot? {k : Fin 32} : IrqHandler k → Option (Fin (2 ^ k.val))
  | .idle => none
  | .testing p | .lookingUp p | .routed p _ => some p

/-- A read with the number of the notification that it is about. -/
structure Sighting where
  position : Nat
  use : Use
  seen : Seen
deriving DecidableEq, Repr

/-- The queue and its handler.  `puts` lists what the secure world has put, `taken` counts what
`getNotification` has returned, and `sightings` are the reads, newest first. -/
structure QueueState (k : Fin 32) where
  nq : Ring Notification k
  handler : IrqHandler k
  puts : List Notification
  taken : Nat
  sightings : List Sighting

inductive QueueAction where
  /-- The secure world puts a notification. -/
  | put (n : Notification)
  /-- The handler calls `getNotification` and gets one. -/
  | getNotification
  /-- The next read of the handler; `r` is the way it finds after the look-up. -/
  | use (r : Route)
deriving DecidableEq, Repr

namespace QueueState

variable {k : Fin 32}

/-- The handler of an empty queue. -/
def started (nq : Ring Notification k) : QueueState k where
  nq := nq
  handler := .idle
  puts := []
  taken := 0
  sightings := []

/-- Read through the pointer, and go on at `next`. -/
def look (s : QueueState k) (p : Fin (2 ^ k.val)) (u : Use) (next : IrqHandler k) :
    QueueState k :=
  { s with handler := next, sightings := ⟨s.taken - 1, u, u.of (s.nq.read p)⟩ :: s.sightings }

/-- The next read of the handler. -/
def use (s : QueueState k) (r : Route) : Option (QueueState k) :=
  match s.handler with
  | .idle => none
  | .testing p =>
    if (s.nq.read p).sessionId = sidMcp then some (s.look p .sessionId .idle)
    else some (s.look p .sessionId (.lookingUp p))
  | .lookingUp p => some (s.look p .sessionId (.routed p r.uses))
  | .routed _ [] => some { s with handler := .idle }
  | .routed p (u :: us) => some (s.look p u (.routed p us))

def step (s : QueueState k) : QueueAction → Option (QueueState k)
  | .put n => (s.nq.put n).map fun nq => { s with nq := nq, puts := s.puts ++ [n] }
  | .getNotification =>
    if s.handler = .idle then
      s.nq.get?.map fun (p, nq) => { s with nq := nq, handler := .testing p, taken := s.taken + 1 }
    else none
  | .use r => s.use r

end QueueState

/-- The queue with its handler, from any empty ring. -/
def queueMachine (k : Fin 32) : Machine (QueueState k) QueueAction where
  init := fun s => ∃ nq, nq.writeCnt = nq.readCnt ∧ s = QueueState.started nq
  step := QueueState.step

/-! ## Who owns a slot -/

/-- The read found what was put at its position. -/
def Sighting.Correct (puts : List Notification) (x : Sighting) : Prop :=
  ∃ n, puts[x.position]? = some n ∧ x.seen = x.use.of n

/-- The ring still holds what was not taken, every read so far found what was put for the
notification it is about, and so will the next one. -/
structure SlotOwnership {k : Fin 32} (base : UInt32) (s : QueueState k) : Prop where
  ring : s.nq.Holds base s.puts s.taken
  sightings : ∀ x ∈ s.sightings, x.Correct s.puts
  held : ∀ p, s.handler.slot? = some p → ∃ i, s.taken = i + 1 ∧ p = Ring.slotAt k base i ∧
    s.puts[i]? = some (s.nq.read p)

/-- While the handler has a pointer into the ring, a put leaves one slot free, or puts the same
notification once more. -/
def LeavesSlot {k : Fin 32} (s : QueueState k) : QueueAction → Prop
  | .put n => ∀ p, s.handler.slot? = some p → s.nq.used = ringSize k - 1 → n = s.nq.read p
  | _ => True

section Steps

variable {k : Fin 32} {base : UInt32} {s t : QueueState k}

theorem Sighting.Correct.append {puts : List Notification} {x : Sighting} (h : x.Correct puts)
    (n : Notification) : x.Correct (puts ++ [n]) := by
  obtain ⟨m, hm, hseen⟩ := h
  obtain ⟨hlt, -⟩ := List.getElem?_eq_some_iff.mp hm
  exact ⟨m, by rw [List.getElem?_append_left hlt, hm], hseen⟩

/-- A read through the handler's pointer. -/
theorem SlotOwnership.look (h : SlotOwnership base s) {p : Fin (2 ^ k.val)}
    (hp : s.handler.slot? = some p) (u : Use) {next : IrqHandler k}
    (hnext : next.slot? = none ∨ next.slot? = some p) : SlotOwnership base (s.look p u next) := by
  obtain ⟨i, htaken, hslot, hputs⟩ := h.held p hp
  refine ⟨h.ring, ?_, ?_⟩
  · intro x hx
    rcases List.mem_cons.mp hx with rfl | hx
    · have hpos : s.taken - 1 = i := by omega
      exact ⟨s.nq.read p, by rw [hpos]; exact hputs, rfl⟩
    · exact h.sightings x hx
  · intro q hq
    have hqp : q = p := by
      rcases hnext with hnone | hsome
      · exact absurd (hnone.symm.trans hq) (Option.some_ne_none q).symm
      · exact Option.some.inj (hq.symm.trans hsome)
    subst hqp
    exact ⟨i, htaken, hslot, hputs⟩

theorem SlotOwnership.use (h : SlotOwnership base s) {r : Route} (ht : s.use r = some t) :
    SlotOwnership base t := by
  unfold QueueState.use at ht
  split at ht
  · cases ht
  · next p hpc =>
    have hp : s.handler.slot? = some p := by rw [hpc]; rfl
    split at ht
    · cases ht
      exact h.look hp _ (.inl rfl)
    · cases ht
      exact h.look hp _ (.inr rfl)
  · next p hpc =>
    have hp : s.handler.slot? = some p := by rw [hpc]; rfl
    cases ht
    exact h.look hp _ (.inr rfl)
  · cases ht
    refine ⟨h.ring, h.sightings, ?_⟩
    intro p hp
    cases hp
  · next p u us hpc =>
    have hp : s.handler.slot? = some p := by rw [hpc]; rfl
    cases ht
    exact h.look hp _ (.inr rfl)

theorem SlotOwnership.getNotification (h : SlotOwnership base s)
    (ht : s.step .getNotification = some t) : SlotOwnership base t := by
  simp only [QueueState.step] at ht
  split at ht
  · obtain ⟨⟨p, nq⟩, hget, rfl⟩ := Option.map_eq_some_iff.mp ht
    obtain ⟨hp, hlt, hring, hread⟩ := h.ring.get? hget
    refine ⟨hring, h.sightings, ?_⟩
    intro q hq
    obtain rfl : p = q := Option.some.inj hq
    refine ⟨s.taken, rfl, hp, ?_⟩
    show s.puts[s.taken]? = some (nq.read p)
    rw [hread, hp, h.ring.slots s.taken hlt (Nat.le_refl _), List.getElem?_eq_getElem hlt]
  · cases ht

/-- What a put does to the slot that the handler has a pointer to. -/
theorem SlotOwnership.read_put (h : SlotOwnership base s) {n : Notification}
    {nq : Ring Notification k} (hput : s.nq.put n = some nq) {p : Fin (2 ^ k.val)}
    (hp : s.handler.slot? = some p) :
    nq.read p = if s.nq.used = ringSize k - 1 then n else s.nq.read p := by
  obtain ⟨hspace, -, -, hread⟩ := Ring.put_eq_some hput
  obtain ⟨i, htaken, hslot, -⟩ := h.held p hp
  have hring := h.ring
  rw [htaken] at hring
  rw [hread, hslot]
  simp only [hring.index_eq_iff hspace]

theorem SlotOwnership.put (h : SlotOwnership base s) {n : Notification}
    (ht : s.step (.put n) = some t) (hleaves : LeavesSlot s (.put n)) : SlotOwnership base t := by
  obtain ⟨nq, hput, rfl⟩ := Option.map_eq_some_iff.mp ht
  refine ⟨h.ring.put hput, fun x hx => (h.sightings x hx).append n, ?_⟩
  intro p hp
  obtain ⟨i, htaken, hslot, hputs⟩ := h.held p hp
  obtain ⟨hlt, -⟩ := List.getElem?_eq_some_iff.mp hputs
  have hsame : nq.read p = s.nq.read p := by
    rw [h.read_put hput hp]
    split_ifs with hfull
    · exact hleaves p hp hfull
    · rfl
  refine ⟨i, htaken, hslot, ?_⟩
  show (s.puts ++ [n])[i]? = some (nq.read p)
  rw [hsame, List.getElem?_append_left hlt, hputs]

/-- A put into the slot that the handler has a pointer to is seen through it. -/
theorem leavesSlot_of_held (h : SlotOwnership base s) {n : Notification}
    (ht : s.step (.put n) = some t) (hstays : SlotOwnership base t) : LeavesSlot s (.put n) := by
  obtain ⟨nq, hput, rfl⟩ := Option.map_eq_some_iff.mp ht
  intro p hp hfull
  obtain ⟨i, htaken, -, hputs⟩ := h.held p hp
  obtain ⟨j, htaken', -, hputs'⟩ := hstays.held p hp
  obtain rfl : i = j := by
    have htaken' : s.taken = j + 1 := htaken'
    omega
  obtain ⟨hlt, -⟩ := List.getElem?_eq_some_iff.mp hputs
  have hsame : (s.puts ++ [n])[i]? = some (nq.read p) := hputs'
  rw [List.getElem?_append_left hlt, hputs] at hsame
  have hread : nq.read p = n := by rw [h.read_put hput hp, if_pos hfull]
  exact hread.symm.trans (Option.some.inj hsame).symm

end Steps

/-- **Slot ownership.** From an empty ring, every use of a notification finds what was put for its
position, and nothing is overwritten, lost or handled twice, exactly as long as no put fills the
ring with another notification while the handler works on one. -/
theorem slotOwnership_iff_leavesSlot {k : Fin 32} {nq : Ring Notification k}
    (hempty : nq.writeCnt = nq.readCnt) {as : List QueueAction} {u : QueueState k}
    (hrun : (queueMachine k).run (.started nq) as = some u) :
    (queueMachine k).RunStays (SlotOwnership nq.readCnt) (.started nq) as ↔
      (queueMachine k).RunMeets LeavesSlot (.started nq) as := by
  apply Machine.runStays_iff_runMeets (I := SlotOwnership nq.readCnt)
  · intro s h
    exact h
  · intro s a t h hs hleaves
    cases a with
    | put n => exact h.put hs hleaves
    | getNotification => exact h.getNotification hs
    | use r => exact h.use hs
  · intro s a t h hs hstays
    cases a with
    | put n => exact leavesSlot_of_held h hs hstays
    | getNotification => trivial
    | use r => trivial
  · refine ⟨Ring.holds_nil hempty, ?_, ?_⟩
    · intro x hx
      cases hx
    · intro p hp
      cases hp
  · exact hrun

/-- The ring that the daemon sets up: `NQ_NUM_ELEMS` slots. -/
def freshQueue : Ring Notification 4 := ⟨0, 0, Vector.replicate 16 ⟨0, 0⟩⟩

/-- One notification is taken and forwarded, while the next one is put. -/
def forwardRun : List QueueAction :=
  [.put ⟨5, 0⟩, .getNotification, .put ⟨7, 1⟩, .use .forwarded, .use .forwarded, .use .forwarded]

theorem slotOwnership_forwarded :
    (queueMachine 4).RunStays (SlotOwnership freshQueue.readCnt) (.started freshQueue)
      forwardRun := by
  have hrun : (queueMachine 4).run (.started freshQueue) forwardRun = some _ := rfl
  apply (slotOwnership_iff_leavesSlot rfl hrun).mpr
  refine ⟨?_, trivial, ?_, trivial, trivial, trivial, trivial⟩
  · intro p hp
    cases hp
  · intro p hp hfull
    exact absurd hfull (by decide)

/-- The secure world fills the ring right after `getNotification` has given the slot back. -/
def overtakenRun : List QueueAction :=
  [.put ⟨5, 0⟩, .getNotification] ++ List.replicate 16 (.put ⟨7, 1⟩) ++ [.use .forwarded]

theorem slotOwnership_overtaken :
    ¬ (queueMachine 4).RunStays (SlotOwnership freshQueue.readCnt) (.started freshQueue)
      overtakenRun := by
  intro hstays
  have hrun : (queueMachine 4).run (.started freshQueue) overtakenRun = some _ := rfl
  obtain ⟨n, hn, hseen⟩ :=
    (hstays.last hrun).sightings ⟨0, .sessionId, .sessionId 7⟩ (by decide)
  obtain rfl : (⟨5, 0⟩ : Notification) = n := Option.some.inj hn
  exact absurd hseen (by decide)

end McDaemon.Device
