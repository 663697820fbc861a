/-
# McDaemon.Common.CSemaphore — the counting semaphore, over all interleavings.

Every function of the class runs under `m_mutex`, which a condition wait lets go of, so a step is
the code of one thread from the mutex to the next wait or to the return.  A blocked thread comes
back because of a signal, because its time is up, or for no reason, and then competes for the
mutex with everybody else.
-/
import Mathlib.Data.Int.Init
import Mathlib.Tactic.SplitIfs
import McDaemon.Lib.Machine

namespace McDaemon.Common

open McDaemon.Lib

/-! ## The semaphore -/

/-- A value as an `int` holds it. -/
def cInt (x : Int) : Int := x.bmod 0x100000000

/-- `INT_MAX`. -/
def intMax : Int := 2147483647

/-- A thread in `wait()`, or in `wait(int sec)` when `timed`. -/
structure Waiter where
  thread : Nat
  timed : Bool
deriving DecidableEq, Repr

/-- `CSemaphore`, with the threads inside a condition wait and those that came back from one
without having the mutex yet (`rc` of `pthread_cond_timedwait` tells whether they timed out).
`signals` and `successes` count the calls of `signal` and the waits that returned success. -/
structure CSemaphore where
  waitersCount : Int
  count : Int
  blocked : List Waiter
  awake : List (Waiter × Bool)
  signals : Nat
  successes : Nat
deriving DecidableEq, Repr

inductive SemAction where
  /-- A thread calls `wait()` or `wait(int sec)` and gets the mutex. -/
  | wait (w : Waiter)
  /-- A thread that came back from its condition wait gets the mutex again. -/
  | resume (w : Waiter) (timedOut : Bool)
  /-- A thread calls `signal`; `pthread_cond_signal` takes one of the blocked threads. -/
  | signal (woken : Option Waiter)
  | wouldWait
  | spurious (w : Waiter)
  | timeout (w : Waiter)
deriving DecidableEq, Repr

namespace CSemaphore

/-- The constructor. -/
def new (size : Int) : CSemaphore where
  waitersCount := 0
  count := size
  blocked := []
  awake := []
  signals := 0
  successes := 0

/-- Whether a thread is inside a wait. -/
def isWaiting (s : CSemaphore) (thread : Nat) : Bool :=
  s.blocked.any (fun w => w.thread == thread) || s.awake.any fun w => w.1.thread == thread

/-- The return of a wait that succeeded. -/
def take (s : CSemaphore) : CSemaphore :=
  { s with waitersCount := s.waitersCount - 1, count := cInt (s.count - 1),
           successes := s.successes + 1 }

/-- The condition wait, which lets the mutex go. -/
def block (s : CSemaphore) (w : Waiter) : CSemaphore := { s with blocked := s.blocked ++ [w] }

/-- `wait()` and `wait(int sec)` up to the condition wait, or to the return. -/
def wait (s : CSemaphore) (w : Waiter) : CSemaphore :=
  let s := { s with waitersCount := s.waitersCount + 1 }
  if s.count = 0 then s.block w else s.take

/-- `wait()` and `wait(int sec)` after the condition wait.  Only the former looks at the count
again. -/
def resume (s : CSemaphore) (w : Waiter) (timedOut : Bool) : CSemaphore :=
  if w.timed then
    if timedOut then { s with waitersCount := s.waitersCount - 1 } else s.take
  else if s.count = 0 then s.block w
  else s.take

/-- A blocked thread comes back from its condition wait. -/
def unblock (s : CSemaphore) (w : Waiter) (timedOut : Bool) : CSemaphore :=
  { s with blocked := s.blocked.erase w, awake := s.awake ++ [(w, timedOut)] }

/-- `signal`, with the thread that `pthread_cond_signal` wakes. -/
def signal (s : CSemaphore) (woken : Option Waiter) : CSemaphore :=
  let s := match woken with
    | some w => s.unblock w false
    | none => s
  { s with count := cInt (s.count + 1), signals := s.signals + 1 }

/-- `wouldWait`. -/
def wouldWait (s : CSemaphore) : Bool := s.count = 0

/-- The choices of `pthread_cond_signal`: one of the blocked threads if there is any, and nobody
when `signal` does not call it. -/
def canWake (s : CSemaphore) : Option Waiter → Bool
  | some w => 0 < s.waitersCount && s.blocked.contains w
  | none => s.waitersCount ≤ 0 || s.blocked.isEmpty

def step (s : CSemaphore) : SemAction → Option CSemaphore
  | .wait w => if s.isWaiting w.thread then none else some (s.wait w)
  | .resume w timedOut =>
    if (w, timedOut) ∈ s.awake then
      some ({ s with awake := s.awake.erase (w, timedOut) }.resume w timedOut)
    else none
  | .signal woken => if s.canWake woken then some (s.signal woken) else none
  | .wouldWait => some s
  | .spurious w => if w ∈ s.blocked then some (s.unblock w false) else none
  | .timeout w => if w ∈ s.blocked ∧ w.timed then some (s.unblock w true) else none

end CSemaphore

/-- A semaphore that starts at `size`, with any number of threads. -/
def semaphore (size : Int) : Machine CSemaphore SemAction where
  init := fun s => s = CSemaphore.new size
  step := CSemaphore.step

/-! ## Counting -/

/-- The count is not negative, and no wait has succeeded for which there was no signal. -/
def Counts (size : Int) (s : CSemaphore) : Prop :=
  0 ≤ s.count ∧ (s.successes : Int) ≤ size + s.signals

/-- A timed wait that was not timed out still finds a count when it has the mutex again, and a
signal does not find the largest `int`. -/
def FindsCount (s : CSemaphore) : SemAction → Prop
  | .resume w timedOut => w.timed = true → timedOut = false → s.count ≠ 0
  | .signal _ => s.count ≠ intMax
  | _ => True

/-- The count is what the signals have added and the successful waits have taken. -/
structure Accounted (size : Int) (s : CSemaphore) : Prop where
  nonneg : 0 ≤ s.count
  le_max : s.count ≤ intMax
  sum : s.count + s.successes = size + s.signals

theorem Accounted.counts {size : Int} {s : CSemaphore} (h : Accounted size s) :
    Counts size s := by
  have hsum := h.sum
  have hnonneg := h.nonneg
  exact ⟨hnonneg, by omega⟩

/-- The same count, signals and successes. -/
theorem Accounted.of_eq {size : Int} {s t : CSemaphore} (h : Accounted size s)
    (hcount : t.count = s.count) (hsignals : t.signals = s.signals)
    (hsuccesses : t.successes = s.successes) : Accounted size t := by
  obtain ⟨hnonneg, hmax, hsum⟩ := h
  exact ⟨by omega, by omega, by omega⟩

theorem cInt_of_le {x : Int} (hlow : 0 ≤ x) (hhigh : x ≤ intMax) : cInt x = x := by
  have hmax : intMax = 2147483647 := rfl
  rw [cInt]
  apply Int.bmod_eq_of_le
  · omega
  · omega

/-- A count that is taken when there is none goes below zero. -/
theorem take_count_neg {s : CSemaphore} (h : s.count = 0) : s.take.count = -1 := by
  show cInt (s.count - 1) = -1
  rw [h]
  rfl

theorem Accounted.take {size : Int} {s : CSemaphore} (h : Accounted size s)
    (hcount : s.count ≠ 0) : Accounted size s.take := by
  obtain ⟨hnonneg, hmax, hsum⟩ := h
  have htake : s.take.count = s.count - 1 := cInt_of_le (by omega) (by omega)
  have hsuccesses : s.take.successes = s.successes + 1 := rfl
  have hsignals : s.take.signals = s.signals := rfl
  exact ⟨by omega, by omega, by omega⟩

theorem signal_spec (s : CSemaphore) (woken : Option Waiter) :
    (s.signal woken).count = cInt (s.count + 1) ∧ (s.signal woken).signals = s.signals + 1 ∧
      (s.signal woken).successes = s.successes := by
  cases woken with
  | none => exact ⟨rfl, rfl, rfl⟩
  | some w => exact ⟨rfl, rfl, rfl⟩

theorem Accounted.signal {size : Int} {s : CSemaphore} (h : Accounted size s)
    (hcount : s.count ≠ intMax) (woken : Option Waiter) : Accounted size (s.signal woken) := by
  obtain ⟨hnonneg, hmax, hsum⟩ := h
  obtain ⟨hs, hsignals, hsuccesses⟩ := signal_spec s woken
  rw [cInt_of_le (by omega) (by omega)] at hs
  exact ⟨by omega, by omega, by omega⟩

theorem Accounted.wait {size : Int} {s : CSemaphore} (h : Accounted size s) (w : Waiter) :
    Accounted size (s.wait w) := by
  unfold CSemaphore.wait
  dsimp only
  split_ifs with hcount
  · exact h.of_eq rfl rfl rfl
  · have hs : Accounted size { s with waitersCount := s.waitersCount + 1 } :=
      h.of_eq rfl rfl rfl
    exact hs.take hcount

theorem Accounted.resume {size : Int} {s : CSemaphore} (h : Accounted size s) {w : Waiter}
    {timedOut : Bool} (hcount : w.timed = true → timedOut = false → s.count ≠ 0) :
    Accounted size (s.resume w timedOut) := by
  unfold CSemaphore.resume
  split_ifs with htimed hout hzero
  · exact h.of_eq rfl rfl rfl
  · exact h.take (hcount htimed (Bool.eq_false_iff.mpr hout))
  · exact h.of_eq rfl rfl rfl
  · exact h.take hzero

/-- A step that finds its count keeps the account. -/
theorem Accounted.step {size : Int} {s t : CSemaphore} {a : SemAction} (h : Accounted size s)
    (hs : s.step a = some t) (hfinds : FindsCount s a) : Accounted size t := by
  cases a with
  | wait w =>
    simp only [CSemaphore.step] at hs
    split_ifs at hs
    cases hs
    exact h.wait w
  | resume w timedOut =>
    simp only [CSemaphore.step] at hs
    split_ifs at hs
    cases hs
    have hrest : Accounted size { s with awake := s.awake.erase (w, timedOut) } :=
      h.of_eq rfl rfl rfl
    exact hrest.resume hfinds
  | signal woken =>
    simp only [CSemaphore.step] at hs
    split_ifs at hs
    cases hs
    exact h.signal hfinds woken
  | wouldWait =>
    cases hs
    exact h
  | spurious w =>
    simp only [CSemaphore.step] at hs
    split_ifs at hs
    cases hs
    exact h.of_eq rfl rfl rfl
  | timeout w =>
    simp only [CSemaphore.step] at hs
    split_ifs at hs
    cases hs
    exact h.of_eq rfl rfl rfl

/-- A step that does not find its count leaves a negative one. -/
theorem findsCount_of_nonneg {s t : CSemaphore} {a : SemAction} (hs : s.step a = some t)
    (ht : 0 ≤ t.count) : FindsCount s a := by
  cases a with
  | resume w timedOut =>
    intro htimed hout hcount
    simp only [CSemaphore.step] at hs
    split_ifs at hs
    cases hs
    have htake : ({ s with awake := s.awake.erase (w, timedOut) }.resume w timedOut).count = -1 := by
      rw [CSemaphore.resume, if_pos htimed, hout, if_neg Bool.false_ne_true]
      exact take_count_neg hcount
    omega
  | signal woken =>
    intro hcount
    simp only [CSemaphore.step] at hs
    split_ifs at hs
    cases hs
    have hover : (s.signal woken).count = -2147483648 := by
      rw [(signal_spec s woken).1, hcount]
      rfl
    omega
  | wait w => trivial
  | wouldWait => trivial
  | spurious w => trivial
  | timeout w => trivial

/-- **The semaphore's count.** Along a run the count stays nonnegative, and the successful waits
within the initial count and the signals, if and only if no timed wait comes back without being
timed out when there is nothing to take, and no signal overflows the count. -/
theorem counts_iff_findsCount {size : Int} (hlow : 0 ≤ size) (hhigh : size ≤ intMax)
    {as : List SemAction} {u : CSemaphore}
    (hrun : (semaphore size).run (.new size) as = some u) :
    (semaphore size).RunStays (Counts size) (.new size) as ↔
      (semaphore size).RunMeets FindsCount (.new size) as := by
  apply Machine.runStays_iff_runMeets (I := Accounted size)
  · intro s h
    exact h.counts
  · intro s a t h hs hfinds
    exact h.step hs hfinds
  · intro s a t _ hs ht
    exact findsCount_of_nonneg hs ht.1
  · exact ⟨hlow, hhigh, rfl⟩
  · exact hrun

/-- A timed wait is signalled and gets the mutex before anybody else. -/
def signalledRun : List SemAction :=
  [.wait ⟨1, true⟩, .signal (some ⟨1, true⟩), .resume ⟨1, true⟩ false]

theorem counts_signalled : (semaphore 0).RunStays (Counts 0) (.new 0) signalledRun := by
  have hrun : (semaphore 0).run (.new 0) signalledRun = some ⟨0, 0, [], [], 1, 1⟩ := by decide
  apply (counts_iff_findsCount (by decide) (by decide) hrun).mpr
  refine ⟨trivial, ?_, ?_, trivial⟩
  · show (0 : Int) ≠ intMax
    decide
  · intro _ _
    show (1 : Int) ≠ 0
    decide

/-- A thread that comes to the semaphore between the signal and the return of the waiter takes the
count, and the waiter takes another one. -/
def stolenRun : List SemAction :=
  [.wait ⟨1, true⟩, .signal (some ⟨1, true⟩), .wait ⟨2, true⟩, .resume ⟨1, true⟩ false]

theorem counts_stolen : (semaphore 0).run (.new 0) stolenRun = some ⟨0, -1, [], [], 1, 2⟩ ∧
    ¬ (semaphore 0).RunStays (Counts 0) (.new 0) stolenRun := by
  have hrun : (semaphore 0).run (.new 0) stolenRun = some ⟨0, -1, [], [], 1, 2⟩ := by decide
  refine ⟨hrun, fun hstays => ?_⟩
  have hcount : Counts 0 ⟨0, -1, [], [], 1, 2⟩ := hstays.last hrun
  exact absurd hcount.1 (by decide)

end McDaemon.Common
