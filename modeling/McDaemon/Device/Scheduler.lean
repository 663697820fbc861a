/-
# McDaemon.Device.Scheduler — the CPU time of the secure world, over all interleavings.

The scheduler thread hands the CPU over while the secure world asks for it, and sleeps on its
semaphore while it does not.  It is woken by the interrupt handler, once for each interrupt of the
secure world, and by whoever sends an N-SIQ.  The secure world asks for CPU time while it runs, and
from outside together with an interrupt.
-/
import McDaemon.Lib.Machine

namespace McDaemon.Device.Scheduler

open McDaemon.Lib

/-- `SCHEDULING_FREQ`. -/
def schedulingFreq : Nat := 5

/-- A call into the secure world. -/
inductive Switch where
  | yield
  | nsiq
deriving DecidableEq, Repr

/-- Where the scheduler thread is in `schedule`: at the head of the loop, in `sleep` and behind it,
at the time slice, at the `wakeup` of its own N-SIQ, and at the end. -/
inductive SchedulerPhase where
  | decides
  | sleeps
  | woken
  | slices
  | wakes
  | terminated
deriving DecidableEq, Repr

/-- Where the interrupt handler is in `handleIrq`: in `waitSsiq`, in the loop over the notifications,
at an N-SIQ in it and at its `wakeup`, at the `wakeup` behind the loop, and at the end. -/
inductive IrqPhase where
  | waits
  | drains
  | renotifies
  | rewakes
  | wakes
  | failed
deriving DecidableEq, Repr

/-- `idle` is the flag of the secure world, `ssiq` an interrupt that the handler has not waited for
yet, `semaphore` the count of the scheduler's semaphore, `wakers` the other threads between an N-SIQ
and its `wakeup`. -/
structure State where
  idle : Bool
  timeslice : Nat
  scheduler : SchedulerPhase
  irq : IrqPhase
  semaphore : Nat
  terminate : Bool
  ssiq : Bool
  notifications : Nat
  wakers : Nat
  switches : List Switch
deriving DecidableEq, Repr

/-- The result of a fast call, and what the secure world leaves the flag at. -/
structure Call where
  ok : Bool
  idle : Bool
deriving DecidableEq, Repr

inductive Action where
  | decide
  | sleep
  | check
  | switch (c : Call)
  | wakeSelf
  | waitSsiq (ok : Bool)
  | notification (renotify : Bool)
  | drained
  | renotify (c : Call)
  | rewake
  | irqWakes
  | notify (c : Call)
  | terminate
  | wakerWakes
  | swdInterrupts (idle : Bool) (notifications : Nat)
  | swdIdles
deriving DecidableEq, Repr

namespace State

/-- The secure world runs unless the call fails. -/
def runs (s : State) (c : Call) : State := if c.ok then { s with idle := c.idle } else s

/-- `DeviceScheduler::wakeup`. -/
def wakeup (s : State) : State := { s with semaphore := s.semaphore + 1 }

/-- The head of the loop in `schedule`. -/
def decide (s : State) : Option State :=
  if s.scheduler = .decides then
    some { s with scheduler := if s.idle then .sleeps else .slices }
  else none

/-- `DeviceScheduler::sleep`. -/
def sleep (s : State) : Option State :=
  if s.scheduler = .sleeps ∧ 0 < s.semaphore then
    some { s with scheduler := .woken, semaphore := s.semaphore - 1 }
  else none

/-- `DeviceScheduler::shouldTerminate`. -/
def check (s : State) : Option State :=
  if s.scheduler = .woken then
    some { s with scheduler := if s.terminate then .terminated else .decides }
  else none

/-- The rest of the loop in `schedule`: an N-SIQ once the slice has expired, or the slice is used
up a bit. -/
def switch (s : State) (c : Call) : Option State :=
  if s.scheduler = .slices then
    if s.timeslice = 0 then
      some { s.runs c with
        timeslice := schedulingFreq
        scheduler := if c.ok then .wakes else .terminated
        switches := s.switches ++ [.nsiq] }
    else
      some { s.runs c with
        timeslice := s.timeslice - 1
        scheduler := if c.ok then .decides else .terminated
        switches := s.switches ++ [.yield] }
  else none

/-- The end of the scheduler's own `nsiq`. -/
def wakeSelf (s : State) : Option State :=
  if s.scheduler = .wakes then some { s.wakeup with scheduler := .decides } else none

def waitSsiq (s : State) (ok : Bool) : Option State :=
  if s.irq = .waits then
    if ok then if s.ssiq then some { s with irq := .drains, ssiq := false } else none
    else some { s with irq := .failed }
  else none

/-- One notification.  The first one for a session that is not known any more is answered. -/
def notification (s : State) (renotify : Bool) : Option State :=
  if s.irq = .drains ∧ 0 < s.notifications then
    some { s with
      notifications := s.notifications - 1
      irq := if renotify then .renotifies else .drains }
  else none

def drained (s : State) : Option State :=
  if s.irq = .drains ∧ s.notifications = 0 then some { s with irq := .wakes } else none

/-- `nsiq` in the loop over the notifications. -/
def renotify (s : State) (c : Call) : Option State :=
  if s.irq = .renotifies then
    some { s.runs c with irq := if c.ok then .rewakes else .drains }
  else none

def rewake (s : State) : Option State :=
  if s.irq = .rewakes then some { s.wakeup with irq := .drains } else none

def irqWakes (s : State) : Option State :=
  if s.irq = .wakes then some { s.wakeup with irq := .waits } else none

/-- `nsiq` on another thread. -/
def notify (s : State) (c : Call) : State :=
  if c.ok then { s.runs c with wakers := s.wakers + 1 } else s

def wakerWakes (s : State) : Option State :=
  if 0 < s.wakers then some { s.wakeup with wakers := s.wakers - 1 } else none

def step (s : State) : Action → Option State
  | .decide => s.decide
  | .sleep => s.sleep
  | .check => s.check
  | .switch c => s.switch c
  | .wakeSelf => s.wakeSelf
  | .waitSsiq ok => s.waitSsiq ok
  | .notification renotify => s.notification renotify
  | .drained => s.drained
  | .renotify c => s.renotify c
  | .rewake => s.rewake
  | .irqWakes => s.irqWakes
  | .notify c => some (s.notify c)
  -- `terminate` and the `wakeup` behind it
  | .terminate => some { s with terminate := true, wakers := s.wakers + 1 }
  | .wakerWakes => s.wakerWakes
  | .swdInterrupts idle notifications =>
    some { s with
      idle := idle
      ssiq := true
      notifications := s.notifications + notifications }
  | .swdIdles => some { s with idle := true }

/-- The threads have just been started.  An N-SIQ may have been sent before. -/
structure Started (s : State) : Prop where
  timeslice : s.timeslice = schedulingFreq
  scheduler : s.scheduler = .decides
  irq : s.irq = .waits
  terminate : s.terminate = false
  switches : s.switches = []

end State

def machine : Machine State Action where
  init := State.Started
  step := State.step

end McDaemon.Device.Scheduler
