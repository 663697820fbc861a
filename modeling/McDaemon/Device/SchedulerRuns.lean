/-
# McDaemon.Device.SchedulerRuns — the secure world gets its CPU time, and no wake-up is lost.

The order of the calls into the secure world is fixed: it depends neither on when the secure world
is idle nor on who wakes the scheduler up.  A scheduler that sleeps while the secure world asks for
CPU time has a wake-up coming, from the interrupt handler or from another thread.
-/
import McDaemon.Device.Scheduler
import McDaemon.Lib.Progress
import Mathlib.Tactic.SplitIfs

namespace McDaemon.Device.Scheduler

open McDaemon.Lib

variable {s t : State} {a : Action}

/-! ## What a step does -/

/-- The steps, one for each branch of the threads. -/
inductive Step (s : State) : Action → State → Prop
  | decide (h : s.scheduler = .decides) :
      Step s .decide { s with scheduler := if s.idle then .sleeps else .slices }
  | sleep (h : s.scheduler = .sleeps) (hsem : 0 < s.semaphore) :
      Step s .sleep { s with scheduler := .woken, semaphore := s.semaphore - 1 }
  | check (h : s.scheduler = .woken) :
      Step s .check { s with scheduler := if s.terminate then .terminated else .decides }
  | nsiq (c : Call) (h : s.scheduler = .slices) (hslice : s.timeslice = 0) :
      Step s (.switch c) { s.runs c with
        timeslice := schedulingFreq
        scheduler := if c.ok then .wakes else .terminated
        switches := s.switches ++ [.nsiq] }
  | yield (c : Call) (h : s.scheduler = .slices) (hslice : s.timeslice ≠ 0) :
      Step s (.switch c) { s.runs c with
        timeslice := s.timeslice - 1
        scheduler := if c.ok then .decides else .terminated
        switches := s.switches ++ [.yield] }
  | wakeSelf (h : s.scheduler = .wakes) :
      Step s .wakeSelf { s.wakeup with scheduler := .decides }
  | ssiq (h : s.irq = .waits) (hssiq : s.ssiq = true) :
      Step s (.waitSsiq true) { s with irq := .drains, ssiq := false }
  | ssiqFails (h : s.irq = .waits) : Step s (.waitSsiq false) { s with irq := .failed }
  | notification (renotify : Bool) (h : s.irq = .drains) (hpos : 0 < s.notifications) :
      Step s (.notification renotify) { s with
        notifications := s.notifications - 1
        irq := if renotify then .renotifies else .drains }
  | drained (h : s.irq = .drains) (hnone : s.notifications = 0) :
      Step s .drained { s with irq := .wakes }
  | renotify (c : Call) (h : s.irq = .renotifies) :
      Step s (.renotify c) { s.runs c with irq := if c.ok then .rewakes else .drains }
  | rewake (h : s.irq = .rewakes) : Step s .rewake { s.wakeup with irq := .drains }
  | irqWakes (h : s.irq = .wakes) : Step s .irqWakes { s.wakeup with irq := .waits }
  | notify (c : Call) (hok : c.ok = true) :
      Step s (.notify c) { s with idle := c.idle, wakers := s.wakers + 1 }
  | notifyFails (c : Call) (hok : c.ok = false) : Step s (.notify c) s
  | terminate : Step s .terminate { s with terminate := true, wakers := s.wakers + 1 }
  | wakerWakes (h : 0 < s.wakers) : Step s .wakerWakes { s.wakeup with wakers := s.wakers - 1 }
  | swdInterrupts (idle : Bool) (notifications : Nat) :
      Step s (.swdInterrupts idle notifications) { s with
        idle := idle
        ssiq := true
        notifications := s.notifications + notifications }
  | swdIdles : Step s .swdIdles { s with idle := true }

theorem step_spec (hstep : s.step a = some t) : Step s a t := by
  cases a with
  | decide =>
    obtain ⟨h, hstep⟩ := Option.ite_none_right_eq_some.mp hstep
    cases hstep
    exact .decide h
  | sleep =>
    obtain ⟨⟨h, hsem⟩, hstep⟩ := Option.ite_none_right_eq_some.mp hstep
    cases hstep
    exact .sleep h hsem
  | check =>
    obtain ⟨h, hstep⟩ := Option.ite_none_right_eq_some.mp hstep
    cases hstep
    exact .check h
  | switch c =>
    obtain ⟨h, hstep⟩ := Option.ite_none_right_eq_some.mp hstep
    by_cases hslice : s.timeslice = 0
    · rw [if_pos hslice] at hstep
      cases hstep
      exact .nsiq c h hslice
    · rw [if_neg hslice] at hstep
      cases hstep
      exact .yield c h hslice
  | wakeSelf =>
    obtain ⟨h, hstep⟩ := Option.ite_none_right_eq_some.mp hstep
    cases hstep
    exact .wakeSelf h
  | waitSsiq ok =>
    obtain ⟨h, hstep⟩ := Option.ite_none_right_eq_some.mp hstep
    cases ok with
    | true =>
      obtain ⟨hssiq, hstep⟩ := Option.ite_none_right_eq_some.mp hstep
      cases hstep
      exact .ssiq h hssiq
    | false =>
      cases hstep
      exact .ssiqFails h
  | notification renotify =>
    obtain ⟨⟨h, hpos⟩, hstep⟩ := Option.ite_none_right_eq_some.mp hstep
    cases hstep
    exact .notification renotify h hpos
  | drained =>
    obtain ⟨⟨h, hnone⟩, hstep⟩ := Option.ite_none_right_eq_some.mp hstep
    cases hstep
    exact .drained h hnone
  | renotify c =>
    obtain ⟨h, hstep⟩ := Option.ite_none_right_eq_some.mp hstep
    cases hstep
    exact .renotify c h
  | rewake =>
    obtain ⟨h, hstep⟩ := Option.ite_none_right_eq_some.mp hstep
    cases hstep
    exact .rewake h
  | irqWakes =>
    obtain ⟨h, hstep⟩ := Option.ite_none_right_eq_some.mp hstep
    cases hstep
    exact .irqWakes h
  | notify c =>
    obtain ⟨ok, idle⟩ := c
    cases ok with
    | true =>
      cases hstep
      exact .notify ⟨true, idle⟩ rfl
    | false =>
      cases hstep
      exact .notifyFails ⟨false, idle⟩ rfl
  | terminate =>
    cases hstep
    exact .terminate
  | wakerWakes =>
    obtain ⟨h, hstep⟩ := Option.ite_none_right_eq_some.mp hstep
    cases hstep
    exact .wakerWakes h
  | swdInterrupts idle notifications =>
    cases hstep
    exact .swdInterrupts idle notifications
  | swdIdles =>
    cases hstep
    exact .swdIdles

section Runs

variable (s : State) (c : Call)

@[simp] theorem runs_switches : (s.runs c).switches = s.switches := by
  unfold State.runs
  split_ifs <;> rfl

@[simp] theorem runs_timeslice : (s.runs c).timeslice = s.timeslice := by
  unfold State.runs
  split_ifs <;> rfl

@[simp] theorem runs_scheduler : (s.runs c).scheduler = s.scheduler := by
  unfold State.runs
  split_ifs <;> rfl

@[simp] theorem runs_irq : (s.runs c).irq = s.irq := by
  unfold State.runs
  split_ifs <;> rfl

@[simp] theorem runs_semaphore : (s.runs c).semaphore = s.semaphore := by
  unfold State.runs
  split_ifs <;> rfl

@[simp] theorem runs_terminate : (s.runs c).terminate = s.terminate := by
  unfold State.runs
  split_ifs <;> rfl

@[simp] theorem runs_ssiq : (s.runs c).ssiq = s.ssiq := by
  unfold State.runs
  split_ifs <;> rfl

@[simp] theorem runs_notifications : (s.runs c).notifications = s.notifications := by
  unfold State.runs
  split_ifs <;> rfl

@[simp] theorem runs_wakers : (s.runs c).wakers = s.wakers := by
  unfold State.runs
  split_ifs <;> rfl

end Runs

/-! ## The order of the calls -/

/-- The call number `i`: an N-SIQ behind every `SCHEDULING_FREQ` yields. -/
def turn (i : Nat) : Switch := if i % (schedulingFreq + 1) = schedulingFreq then .nsiq else .yield

/-- The calls so far, with the time slice that is left of the round. -/
structure InTurn (s : State) : Prop where
  switches : s.switches = (List.range s.switches.length).map turn
  timeslice : s.timeslice + s.switches.length % (schedulingFreq + 1) = schedulingFreq

/-- The next call, and the time slice behind it. -/
theorem InTurn.call {x : Switch} (h : InTurn s) (hx : turn s.switches.length = x)
    (hswitches : t.switches = s.switches ++ [x])
    (hslice : t.timeslice + (s.switches.length + 1) % (schedulingFreq + 1) = schedulingFreq) :
    InTurn t := by
  have hlength : t.switches.length = s.switches.length + 1 := by
    rw [hswitches, List.length_append, List.length_singleton]
  constructor
  · rw [hlength, List.range_succ, List.map_append, ← h.switches, List.map_singleton, hx, hswitches]
  · rw [hlength, hslice]

/-- A step that calls nothing. -/
theorem InTurn.of_eq (h : InTurn s) (hswitches : t.switches = s.switches)
    (hslice : t.timeslice = s.timeslice) : InTurn t := by
  constructor
  · rw [hswitches]
    exact h.switches
  · rw [hswitches, hslice]
    exact h.timeslice

theorem InTurn.step (h : InTurn s) (hstep : Step s a t) : InTurn t := by
  have hslice := h.timeslice
  simp only [schedulingFreq] at hslice
  cases hstep with
  | nsiq c _ hzero =>
    refine h.call (x := .nsiq) (if_pos ?_) rfl ?_
    · simp only [schedulingFreq]
      omega
    · simp only [schedulingFreq]
      omega
  | yield c _ hpos =>
    refine h.call (x := .yield) (if_neg ?_) rfl ?_
    · simp only [schedulingFreq]
      omega
    · simp only [schedulingFreq]
      omega
  | renotify c => exact h.of_eq (runs_switches s c) (runs_timeslice s c)
  | _ => exact h.of_eq rfl rfl

/-- **The order of the calls.** In every run, whoever wakes the scheduler up and however often the
secure world is idle in between, the scheduler yields `SCHEDULING_FREQ` times, sends an N-SIQ, and
so on. -/
theorem switches_in_turn (h : machine.Reachable s) :
    s.switches = (List.range s.switches.length).map turn := by
  obtain ⟨s₀, as, h₀, hrun⟩ := h
  have hstarted : InTurn s₀ := by
    constructor
    · rw [h₀.switches]
      rfl
    · rw [h₀.switches, h₀.timeslice]
      rfl
  have hstep : ∀ s a t, InTurn s → True → machine.step s a = some t → InTurn t :=
    fun _ _ _ h _ hstep => h.step (step_spec hstep)
  exact (machine.inv_of_run hstep hstarted (Machine.runMeets_true _ _ as) hrun).switches

/-- The threads have been started while the secure world is idle. -/
def idleAtFirst : State where
  idle := true
  timeslice := schedulingFreq
  scheduler := .decides
  irq := .waits
  semaphore := 0
  terminate := false
  ssiq := false
  notifications := 0
  wakers := 0
  switches := []

theorem idleAtFirst_started : idleAtFirst.Started := ⟨rfl, rfl, rfl, rfl, rfl⟩

/-- The scheduler has been woken up, and has yielded. -/
def yielded : State := { idleAtFirst with idle := false, timeslice := 4, switches := [.yield] }

theorem yielded_of_run :
    machine.run idleAtFirst [.decide, .swdInterrupts false 0, .waitSsiq true, .drained, .irqWakes,
      .sleep, .check, .decide, .switch ⟨true, false⟩] = some yielded := rfl

theorem switches_in_turn_yielded :
    yielded.switches = (List.range yielded.switches.length).map turn :=
  switches_in_turn ⟨idleAtFirst, _, idleAtFirst_started, yielded_of_run⟩

/-! ## Wake-ups -/

/-- A scheduler that sleeps while the secure world asks for CPU time will be woken up, unless the
interrupt handler has failed; and so will one that has been told to terminate. -/
structure WakesUp (s : State) : Prop where
  asked : s.scheduler = .sleeps → s.idle = false →
    0 < s.semaphore ∨ s.ssiq = true ∨ s.irq ≠ .waits ∨ 0 < s.wakers
  told : s.terminate = true → s.scheduler ≠ .terminated →
    s.scheduler = .woken ∨ 0 < s.semaphore ∨ 0 < s.wakers

theorem WakesUp.step (h : WakesUp s) (hstep : Step s a t) : WakesUp t := by
  obtain ⟨hasked, htold⟩ := h
  cases hstep with
  | decide h =>
    constructor
    · -- it goes to sleep because it has found the secure world idle
      intro hsleeps hidle
      dsimp only at hsleeps hidle
      rw [hidle] at hsleeps
      cases hsleeps
    · intro hterm _
      rcases htold hterm (by rw [h]; nofun) with hwoken | hcoming
      · rw [h] at hwoken
        cases hwoken
      · exact .inr hcoming
  | nsiq c h => constructor <;> grind [State.runs]
  | yield c h => constructor <;> grind [State.runs]
  | renotify c h => constructor <;> grind [State.runs]
  | wakeSelf h => constructor <;> grind [State.wakeup]
  | rewake h => constructor <;> grind [State.wakeup]
  | irqWakes h => constructor <;> grind [State.wakeup]
  | wakerWakes h => constructor <;> grind [State.wakeup]
  | notifyFails c => exact ⟨hasked, htold⟩
  | _ => constructor <;> grind

theorem wakesUp_of_reachable (h : machine.Reachable s) : WakesUp s := by
  obtain ⟨s₀, as, h₀, hrun⟩ := h
  have hstarted : WakesUp s₀ := by
    constructor
    · intro hsleeps
      rw [h₀.scheduler] at hsleeps
      cases hsleeps
    · intro hterm
      rw [h₀.terminate] at hterm
      cases hterm
  have hstep : ∀ s a t, WakesUp s → True → machine.step s a = some t → WakesUp t :=
    fun _ _ _ h _ hstep => h.step (step_spec hstep)
  exact machine.inv_of_run hstep hstarted (Machine.runMeets_true _ _ as) hrun

/-! ## Progress -/

/-- What the threads do by themselves. -/
def Action.work : Action → Bool
  | .waitSsiq ok => ok
  | .notify _ | .terminate | .swdInterrupts _ _ | .swdIdles => false
  | _ => true

/-- The steps of the interrupt handler to its next `waitSsiq`. -/
def IrqPhase.left : IrqPhase → Nat
  | .waits | .failed => 0
  | .wakes => 1
  | .drains => 2
  | .rewakes => 3
  | .renotifies => 4

/-- The work that is left of the threads, with that of the scheduler as given. -/
def State.left (scheduler : SchedulerPhase → Nat) (s : State) : Nat :=
  scheduler s.scheduler + s.irq.left + 3 * s.notifications + (if s.ssiq then 3 else 0) + s.wakers

/-- The actions of the scheduler thread. -/
def Action.isScheduler : Action → Bool
  | .decide | .sleep | .check | .switch _ | .wakeSelf => true
  | _ => false

/-- The other threads have less to do after each of their steps. -/
theorem left_lt (w : SchedulerPhase → Nat) (ha : a.work = true) (hother : a.isScheduler = false)
    (hstep : Step s a t) : t.left w < s.left w := by
  cases hstep with
  | decide | sleep | check | nsiq | yield | wakeSelf => cases hother
  | ssiqFails | notify | notifyFails | terminate | swdInterrupts | swdIdles => cases ha
  | notification renotify h hpos =>
    cases renotify <;> grind [State.left, IrqPhase.left]
  | renotify c h =>
    cases hok : c.ok <;> grind [State.left, IrqPhase.left, State.runs]
  | ssiq | drained => grind [State.left, IrqPhase.left]
  | rewake | irqWakes | wakerWakes => grind [State.left, IrqPhase.left, State.wakeup]

/-- Nobody else makes the scheduler's calls. -/
theorem other_keeps (hother : a.isScheduler = false) (hstep : Step s a t) :
    t.switches = s.switches ∧ t.terminate = s.terminate ∨ a = .terminate := by
  cases hstep with
  | decide | sleep | check | nsiq | yield | wakeSelf => cases hother
  | renotify c => exact .inl ⟨runs_switches s c, runs_terminate s c⟩
  | terminate => exact .inr rfl
  | _ => exact .inl ⟨rfl, rfl⟩

theorem work_irq (ha : a.work = true) (hirq : s.irq ≠ .failed) (hstep : Step s a t) :
    t.irq ≠ .failed := by
  cases hstep with
  | ssiqFails => cases ha
  | nsiq c | yield c => exact runs_irq s c ▸ hirq
  | notification renotify => cases renotify <;> nofun
  | renotify c => cases hok : c.ok <;> nofun
  | ssiq | drained | rewake | irqWakes => nofun
  | _ => exact hirq

/-- The interrupt handler goes on until its next `waitSsiq`. -/
theorem irq_can_move (hwaits : s.irq ≠ .waits) (hfailed : s.irq ≠ .failed) :
    ∃ a t, a.work = true ∧ s.step a = some t := by
  cases hirq : s.irq with
  | waits => exact absurd hirq hwaits
  | failed => exact absurd hirq hfailed
  | drains =>
    by_cases hnone : s.notifications = 0
    · exact ⟨.drained, _, rfl, if_pos ⟨hirq, hnone⟩⟩
    · exact ⟨.notification false, _, rfl, if_pos ⟨hirq, Nat.pos_of_ne_zero hnone⟩⟩
  | renotifies => exact ⟨.renotify ⟨false, false⟩, _, rfl, if_pos hirq⟩
  | rewakes => exact ⟨.rewake, _, rfl, if_pos hirq⟩
  | wakes => exact ⟨.irqWakes, _, rfl, if_pos hirq⟩

/-- A scheduler that does not sleep can go on. -/
theorem scheduler_can_move (hsleeps : s.scheduler ≠ .sleeps) (hends : s.scheduler ≠ .terminated) :
    ∃ a t, a.work = true ∧ s.step a = some t := by
  cases hscheduler : s.scheduler with
  | sleeps => exact absurd hscheduler hsleeps
  | terminated => exact absurd hscheduler hends
  | decides => exact ⟨.decide, _, rfl, if_pos hscheduler⟩
  | woken => exact ⟨.check, _, rfl, if_pos hscheduler⟩
  | wakes => exact ⟨.wakeSelf, _, rfl, if_pos hscheduler⟩
  | slices =>
    by_cases hslice : s.timeslice = 0
    · exact ⟨.switch ⟨false, false⟩, _, rfl, (if_pos hscheduler).trans (if_pos hslice)⟩
    · exact ⟨.switch ⟨false, false⟩, _, rfl, (if_pos hscheduler).trans (if_neg hslice)⟩

/-- How far the scheduler is from a call, while the secure world asks for CPU time. -/
def SchedulerPhase.toCall : SchedulerPhase → Nat
  | .terminated => 0
  | .slices => 1
  | .decides => 2
  | .woken | .wakes => 3
  | .sleeps => 4

/-- How far it is from its end, once it has been told to terminate and the secure world is idle. -/
def SchedulerPhase.toEnd : SchedulerPhase → Nat
  | .terminated => 0
  | .woken => 1
  | .sleeps => 2
  | .decides => 3
  | .wakes => 4
  | .slices => 5

/-- The scheduler comes closer to a call, makes one, or ends. -/
theorem toCall_lt (hidle : s.idle = false) (ha : a.isScheduler = true) (hstep : Step s a t) :
    s.switches.length < t.switches.length ∨
      t.switches = s.switches ∧ t.left SchedulerPhase.toCall < s.left SchedulerPhase.toCall := by
  cases hstep with
  | nsiq | yield =>
    left
    rw [List.length_append]
    exact Nat.lt_succ_self _
  | decide h | sleep h =>
    right
    grind [State.left, SchedulerPhase.toCall]
  | check h =>
    right
    cases hterm : s.terminate <;> grind [State.left, SchedulerPhase.toCall]
  | wakeSelf h =>
    right
    grind [State.left, SchedulerPhase.toCall, State.wakeup]
  | _ => cases ha

/-- The scheduler comes closer to its end, or ends. -/
theorem toEnd_lt (hidle : s.idle = true) (hterm : s.terminate = true) (ha : a.isScheduler = true)
    (hstep : Step s a t) :
    t.terminate = true ∧ t.left SchedulerPhase.toEnd < s.left SchedulerPhase.toEnd := by
  cases hstep with
  | decide h | sleep h | check h => grind [State.left, SchedulerPhase.toEnd]
  | wakeSelf h => grind [State.left, SchedulerPhase.toEnd, State.wakeup]
  | nsiq c h | yield c h =>
    cases hok : c.ok <;> grind [State.left, SchedulerPhase.toEnd, State.runs]
  | _ => cases ha

/-- **The secure world gets its CPU time.** From every reachable state in which it asks for CPU
time, the threads come to a call into it, in whatever order they run, unless it has become idle in
the meantime or the scheduler has ended; the interrupt handler must not have failed. -/
theorem gets_cpu_time (h : machine.Reachable s) (hirq : s.irq ≠ .failed) :
    machine.Inevitable (fun a => a.work = true)
      (fun t => s.switches.length < t.switches.length ∨ t.idle = true ∨
        t.scheduler = .terminated) s := by
  refine Machine.inevitable_of_measure
    (I := fun t => WakesUp t ∧ t.irq ≠ .failed ∧ t.switches = s.switches)
    (State.left SchedulerPhase.toCall) ?_ ?_ ⟨wakesUp_of_reachable h, hirq, rfl⟩
  · rintro t ⟨hwakes, hirq, -⟩ hnot
    obtain ⟨-, hasks, hends⟩ := not_or.mp hnot |>.imp_right not_or.mp
    by_cases hsleeps : t.scheduler = .sleeps
    · rcases hwakes.asked hsleeps (Bool.eq_false_iff.mpr hasks) with hsem | hssiq | hwaits | hwakers
      · exact ⟨.sleep, _, rfl, if_pos ⟨hsleeps, hsem⟩⟩
      · by_cases hwaits : t.irq = .waits
        · exact ⟨.waitSsiq true, _, rfl, (if_pos hwaits).trans (if_pos hssiq)⟩
        · exact irq_can_move hwaits hirq
      · exact irq_can_move hwaits hirq
      · exact ⟨.wakerWakes, _, rfl, if_pos hwakers⟩
    · exact scheduler_can_move hsleeps hends
  · rintro t a u ⟨hwakes, hirq, hswitches⟩ hnot ha hstep
    have hspec := step_spec hstep
    have hidle : t.idle = false := Bool.eq_false_iff.mpr fun h => hnot (.inr (.inl h))
    have hinv := And.intro (hwakes.step hspec) (work_irq ha hirq hspec)
    cases hscheduler : a.isScheduler with
    | true =>
      rcases toCall_lt hidle hscheduler hspec with hcall | ⟨hsame, hlt⟩
      · exact .inl (.inl (hswitches ▸ hcall))
      · exact .inr ⟨⟨hinv.1, hinv.2, hsame.trans hswitches⟩, hlt⟩
    | false =>
      rcases other_keeps hscheduler hspec with ⟨hsame, -⟩ | rfl
      · exact .inr ⟨⟨hinv.1, hinv.2, hsame.trans hswitches⟩, left_lt _ ha hscheduler hspec⟩
      · cases ha

/-- The scheduler sleeps, and then there is an interrupt of the secure world with a notification. -/
def interrupted : State :=
  { idleAtFirst with scheduler := .sleeps, idle := false, ssiq := true, notifications := 1 }

theorem gets_cpu_time_interrupted :
    machine.Inevitable (fun a => a.work = true)
      (fun t => interrupted.switches.length < t.switches.length ∨ t.idle = true ∨
        t.scheduler = .terminated) interrupted :=
  gets_cpu_time ⟨idleAtFirst, [.decide, .swdInterrupts false 1], idleAtFirst_started, rfl⟩ nofun

/-- **The scheduler ends.** A scheduler that has been told to terminate does so in whatever order
the threads run, unless the secure world asks for CPU time before that. -/
theorem terminates (h : machine.Reachable s) (hterm : s.terminate = true) :
    machine.Inevitable (fun a => a.work = true)
      (fun t => t.scheduler = .terminated ∨ t.idle = false) s := by
  refine Machine.inevitable_of_measure (I := fun t => WakesUp t ∧ t.terminate = true)
    (State.left SchedulerPhase.toEnd) ?_ ?_ ⟨wakesUp_of_reachable h, hterm⟩
  · rintro t ⟨hwakes, hterm⟩ hnot
    obtain ⟨hends, -⟩ := not_or.mp hnot
    by_cases hsleeps : t.scheduler = .sleeps
    · rcases hwakes.told hterm hends with hwoken | hsem | hwakers
      · rw [hsleeps] at hwoken
        cases hwoken
      · exact ⟨.sleep, _, rfl, if_pos ⟨hsleeps, hsem⟩⟩
      · exact ⟨.wakerWakes, _, rfl, if_pos hwakers⟩
    · exact scheduler_can_move hsleeps hends
  · rintro t a u ⟨hwakes, hterm⟩ hnot ha hstep
    have hspec := step_spec hstep
    have hidle : t.idle = true := eq_true_of_ne_false fun h => hnot (.inr h)
    have hwakes' := hwakes.step hspec
    cases hscheduler : a.isScheduler with
    | true =>
      obtain ⟨hterm', hlt⟩ := toEnd_lt hidle hterm hscheduler hspec
      exact .inr ⟨⟨hwakes', hterm'⟩, hlt⟩
    | false =>
      rcases other_keeps hscheduler hspec with ⟨-, hsame⟩ | rfl
      · exact .inr ⟨⟨hwakes', hsame.trans hterm⟩, left_lt _ ha hscheduler hspec⟩
      · cases ha

/-- The scheduler sleeps, and then it is told to terminate. -/
def told : State := { idleAtFirst with scheduler := .sleeps, terminate := true, wakers := 1 }

theorem terminates_told :
    machine.Inevitable (fun a => a.work = true)
      (fun t => t.scheduler = .terminated ∨ t.idle = false) told :=
  terminates ⟨idleAtFirst, [.decide, .terminate], idleAtFirst_started, rfl⟩ rfl

end McDaemon.Device.Scheduler
