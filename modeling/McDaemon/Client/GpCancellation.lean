/-
# McDaemon.Client.GpCancellation — cancellations on their way to the TCI.

A request to cancel an operation looks at `started`, which tells whether the operation has been set
up and not been unwound, and then goes down to the driver client, which writes `isCancelled` into the
TCI of the session.  The operations of a session take turns at the TCI, and what is set there is for
the one whose turn it is.  The setup of the next operation clears the flag, so a request that comes
before that is lost, and one that comes behind it hits the next operation.
-/
import Mathlib.Logic.Function.Basic
import McDaemon.Client.GpBalance
import McDaemon.Lib.Machine

namespace McDaemon.Client.GpCancel

open McDaemon.Lib
open McDaemon.Client.Gp (setupOperation unwindOperation SetupAnswers Tci teecSuccess)

/-! ## State -/

/-- `TEEC_Operation`, as far as cancellations are concerned, with the number that the operation has
among those of the session which it has last been set up for. -/
structure Operation where
  started : UInt32
  number : Nat
deriving DecidableEq, Repr

/-- Who has `mutex_tci`: nobody, an operation that has been set up and not been unwound, or a call
that has unwound its operation.  An operation without a `TEEC_Operation` cannot be cancelled. -/
inductive Phase
  | free
  | inProgress (number : Nat) (operation : Option Nat)
  | unwound
deriving DecidableEq, Repr

/-- The operation that is in progress. -/
def Phase.current : Phase → Option Nat
  | .inProgress number _ => some number
  | _ => none

/-- `isCancelled` is set for an operation, while another one or none may be in progress. -/
structure Cancellation where
  request : Nat
  inProgress : Option Nat
deriving DecidableEq, Repr

/-- A GP session.  `registered` tells that the driver client has it in its table, `begun` counts its
operations, `inFlight` are the operations that there are requests for which have passed their check,
and `log` is when `isCancelled` was set. -/
structure GpSession where
  active : Bool
  registered : Bool
  phase : Phase
  begun : Nat
  operations : Nat → Operation
  isCancelled : Bool
  inFlight : List Nat
  log : List Cancellation

/-- A session that has just been opened. -/
def opened : GpSession := ⟨true, true, .free, 0, fun _ => ⟨0, 0⟩, false, [], []⟩

namespace GpSession

def setOperation (s : GpSession) (k : Nat) (op : Operation) : GpSession :=
  { s with operations := Function.update s.operations k op }

/-- Write to `started`. -/
def setStarted (s : GpSession) (k : Nat) (started : UInt32) : GpSession :=
  s.setOperation k { s.operations k with started := started }

/-! ## Steps -/

/-- `_TEEC_SetupOperation`; where it fails it has unwound the operation.  Without a `TEEC_Operation`
it does not fail. -/
def setup (s : GpSession) (operation : Option Nat) (succeeds : Bool) : GpSession :=
  let s := { s with isCancelled := false, begun := s.begun + 1 }
  match operation with
  | none => { s with phase := .inProgress (s.begun - 1) none }
  | some k =>
    if succeeds then
      { s.setOperation k ⟨1, s.begun - 1⟩ with phase := .inProgress (s.begun - 1) (some k) }
    else { s.setOperation k ⟨2, s.begun - 1⟩ with phase := .unwound }

/-- `_TEEC_UnwindOperation`. -/
def unwind (s : GpSession) (operation : Option Nat) : GpSession :=
  match operation with
  | none => { s with phase := .unwound }
  | some k => { s.setStarted k 2 with phase := .unwound }

/-- The check of `TEEC_RequestCancellation`. -/
def check (s : GpSession) (k : Nat) : GpSession :=
  if 1 < (s.operations k).started then s
  else if s.active then
    { s.setStarted k 2 with inFlight := s.inFlight ++ [(s.operations k).number] }
  else s.setStarted k 2

/-- The locked body of `DriverClient::gpRequestCancellation`. -/
def deliver (s : GpSession) (n : Nat) : GpSession :=
  let s := { s with inFlight := s.inFlight.erase n }
  if s.registered then { s with isCancelled := true, log := s.log ++ [⟨n, s.phase.current⟩] } else s

end GpSession

/-- `prepare` is the application, which clears `started` before it uses a `TEEC_Operation`, again or
for the first time.  `close` is `_TEEC_CloseSession` behind an operation; the driver client forgets
the session unless it cannot be closed. -/
inductive Action
  | prepare (operation : Nat)
  | setup (operation : Option Nat) (succeeds : Bool)
  | unwind (number : Nat)
  | unlock
  | close (forgotten : Bool)
  | check (operation : Nat)
  | deliver (number : Nat)
deriving DecidableEq, Repr

namespace GpSession

/-- The operation that has been set up with a `TEEC_Operation` is in progress. -/
def uses (s : GpSession) (k : Nat) : Bool :=
  match s.phase with
  | .inProgress _ operation => operation = some k
  | _ => false

def step (s : GpSession) : Action → Option GpSession
  | .prepare k => if s.uses k then none else some (s.setStarted k 0)
  | .setup operation succeeds =>
    -- a session that is not active has no TCI any more
    if s.phase = .free ∧ s.active = true then some (s.setup operation succeeds) else none
  | .unwind n =>
    match s.phase with
    | .inProgress number operation => if number = n then some (s.unwind operation) else none
    | _ => none
  | .unlock => if s.phase = .unwound then some { s with phase := .free } else none
  | .close forgotten =>
    if s.phase = .unwound then
      some { s with phase := .free, active := false, registered := s.registered && !forgotten }
    else none
  -- a request spins as long as the operation has not been started
  | .check k => if (s.operations k).started = 0 then none else some (s.check k)
  | .deliver n => if n ∈ s.inFlight then some (s.deliver n) else none

end GpSession

/-- One GP session, with the threads that use it. -/
def cancelMachine : Machine GpSession Action where
  init := (· = opened)
  step := GpSession.step

/-! ## What a cancellation is to reach -/

/-- `isCancelled` is set while the operation is in progress that the request was made for, and then
stays set for as long as that is in progress. -/
structure ReachesOwn (s : GpSession) : Prop where
  own : ∀ c ∈ s.log, c.inProgress = some c.request
  kept : ∀ c ∈ s.log, c.inProgress = s.phase.current → s.phase.current = some c.request →
    s.isCancelled = true

/-- A request is delivered behind `_TEEC_UnwindOperation` of its operation, and the session has not
been forgotten in between. -/
def Late (as : List Action) : Prop :=
  ∃ pre mid post n, as = pre ++ .unwind n :: (mid ++ .deliver n :: post) ∧ .close true ∉ mid

theorem Late.append {as : List Action} (h : Late as) (bs : List Action) : Late (as ++ bs) := by
  obtain ⟨pre, mid, post, n, rfl, hclose⟩ := h
  exact ⟨pre, mid, post ++ bs, n, by simp, hclose⟩

/-! ## The operations -/

section Refines

variable {tci : Tci} {op : Gp.Operation} {answers : SetupAnswers}

/-- A setup clears the flag. -/
theorem setupOperation_isCancelled (tci : Tci) (op : Gp.Operation) (answers : SetupAnswers) :
    (setupOperation tci (some op) answers).tci.operation.isCancelled = false := by
  unfold setupOperation
  dsimp only
  generalize (Gp.Setup.loop { op with started := 1 }).mapBuffers answers = setup
  by_cases hresult : setup.result ≠ teecSuccess
  · rw [if_pos hresult]
    rfl
  · rw [if_neg hresult]
    rfl

theorem unwindOperation_started (tci : Tci) (op : Gp.Operation) (copyValues : Bool) :
    (unwindOperation tci (some op) copyValues).operation.map Gp.Operation.started = some 2 := by
  unfold unwindOperation
  dsimp only
  split_ifs
  · rfl
  · rfl
  · rfl

/-- A setup leaves `started` at 1, or where it fails at 2. -/
theorem setupOperation_accepted (h : (setupOperation tci (some op) answers).result = teecSuccess) :
    (setupOperation tci (some op) answers).operation.map Gp.Operation.started = some 1 := by
  rw [Gp.operation_of_accepted h]
  rfl

theorem setupOperation_refused (h : (setupOperation tci (some op) answers).result ≠ teecSuccess) :
    (setupOperation tci (some op) answers).operation.map Gp.Operation.started = some 2 := by
  unfold setupOperation at h ⊢
  dsimp only at h ⊢
  generalize (Gp.Setup.loop { op with started := 1 }).mapBuffers answers = setup at h ⊢
  by_cases hresult : setup.result ≠ teecSuccess
  · rw [if_pos hresult]
    exact unwindOperation_started _ _ _
  · rw [if_neg hresult] at h
    exact absurd rfl h

/-- What `setup` does to `started` is what `_TEEC_SetupOperation` does. -/
theorem started_setup (s : GpSession) (k : Nat) (tci : Tci) (op : Gp.Operation)
    (answers : SetupAnswers) :
    (setupOperation tci (some op) answers).operation.map Gp.Operation.started =
      some ((s.setup (some k)
        (decide ((setupOperation tci (some op) answers).result = teecSuccess))).operations
          k).started := by
  by_cases h : (setupOperation tci (some op) answers).result = teecSuccess
  · rw [setupOperation_accepted h, decide_eq_true h]
    simp [GpSession.setup, GpSession.setOperation]
  · rw [setupOperation_refused h, decide_eq_false h]
    simp [GpSession.setup, GpSession.setOperation]

/-- And what it does to the flag. -/
theorem isCancelled_setup (s : GpSession) (k : Nat) (succeeds : Bool) (tci : Tci)
    (op : Gp.Operation) (answers : SetupAnswers) :
    (s.setup (some k) succeeds).isCancelled =
      (setupOperation tci (some op) answers).tci.operation.isCancelled := by
  rw [setupOperation_isCancelled]
  cases succeeds with
  | true => rfl
  | false => rfl

/-- The same for `unwind` and `_TEEC_UnwindOperation`. -/
theorem started_unwind (s : GpSession) (k : Nat) (tci : Tci) (op : Gp.Operation)
    (copyValues : Bool) :
    (unwindOperation tci (some op) copyValues).operation.map Gp.Operation.started =
      some ((s.unwind (some k)).operations k).started := by
  rw [unwindOperation_started]
  simp [GpSession.unwind, GpSession.setStarted, GpSession.setOperation]

end Refines

/-! ## One step -/

section Step

variable {s t : GpSession} {a : Action}

theorem setStarted_operations (s : GpSession) (k j : Nat) (started : UInt32) :
    (s.setStarted k started).operations j =
      if j = k then { s.operations k with started := started } else s.operations j := by
  by_cases hj : j = k
  · subst hj
    simp [GpSession.setStarted, GpSession.setOperation]
  · simp [GpSession.setStarted, GpSession.setOperation, hj]

/-- What a step does to the log and to the table of the driver client: a delivery to a session that
is in the table appends to the log, and only closing a session takes it out of the table. -/
theorem step_log (h : GpSession.step s a = some t) :
    (t.log = s.log ∧ (t.registered = s.registered ∨ a = .close true)) ∨
    ∃ n ∈ s.inFlight, a = .deliver n ∧ s.registered = true ∧
      t = { s with inFlight := s.inFlight.erase n, isCancelled := true,
                   log := s.log ++ [⟨n, s.phase.current⟩] } := by
  cases a with
  | prepare k =>
    simp only [GpSession.step] at h
    split_ifs at h
    cases h
    exact Or.inl ⟨rfl, Or.inl rfl⟩
  | setup operation succeeds =>
    simp only [GpSession.step] at h
    split_ifs at h
    cases h
    left
    unfold GpSession.setup
    split
    · exact ⟨rfl, Or.inl rfl⟩
    · split
      · exact ⟨rfl, Or.inl rfl⟩
      · exact ⟨rfl, Or.inl rfl⟩
  | unwind n =>
    simp only [GpSession.step] at h
    split at h
    · split_ifs at h
      cases h
      left
      unfold GpSession.unwind
      split
      · exact ⟨rfl, Or.inl rfl⟩
      · exact ⟨rfl, Or.inl rfl⟩
    · cases h
  | unlock =>
    simp only [GpSession.step] at h
    split_ifs at h
    cases h
    exact Or.inl ⟨rfl, Or.inl rfl⟩
  | close forgotten =>
    simp only [GpSession.step] at h
    split_ifs at h
    cases h
    cases forgotten with
    | false => exact Or.inl ⟨rfl, Or.inl (Bool.and_true s.registered)⟩
    | true => exact Or.inl ⟨rfl, Or.inr rfl⟩
  | check k =>
    simp only [GpSession.step] at h
    split_ifs at h
    cases h
    left
    unfold GpSession.check
    split_ifs
    · exact ⟨rfl, Or.inl rfl⟩
    · exact ⟨rfl, Or.inl rfl⟩
    · exact ⟨rfl, Or.inl rfl⟩
  | deliver n =>
    simp only [GpSession.step] at h
    split_ifs at h with hmem
    cases h
    unfold GpSession.deliver
    by_cases hregistered : s.registered = true
    · exact Or.inr ⟨n, hmem, rfl, hregistered, by simp [hregistered]⟩
    · exact Or.inl ⟨by simp [hregistered], Or.inl (by simp [hregistered])⟩

/-- What has been set stays in the log. -/
theorem log_of_run {as : List Action} (hrun : cancelMachine.run s as = some t) {c : Cancellation}
    (hc : c ∈ s.log) : c ∈ t.log := by
  refine cancelMachine.inv_of_actions (I := fun (_ : List Action) s => c ∈ s.log) ?_ [] hc hrun
  intro _ s a t hs ht
  rcases step_log ht with ⟨hlog, -⟩ | ⟨n, -, -, -, rfl⟩
  · rwa [hlog]
  · exact List.mem_append_left _ hs

/-- A session stays in the table of the driver client until it is closed. -/
theorem registered_of_run {as : List Action} (hrun : cancelMachine.run s as = some t)
    (hs : s.registered = true) (hclose : .close true ∉ as) : t.registered = true := by
  have hkept : t.registered = true ∨ .close true ∈ [] ++ as := by
    refine cancelMachine.inv_of_actions
      (I := fun as s => s.registered = true ∨ .close true ∈ as) ?_ [] (Or.inl hs) hrun
    intro as s a t hs ht
    rcases hs with hs | hclosed
    · rcases step_log ht with ⟨-, hsame | rfl⟩ | ⟨n, -, -, -, rfl⟩
      · exact Or.inl (hsame.trans hs)
      · exact Or.inr (by simp)
      · exact Or.inl hs
    · exact Or.inr (List.mem_append_left _ hclosed)
  exact hkept.resolve_right hclose

end Step

/-! ## Where requests and operations are -/

/-- What holds of a session and of all that has happened to it: an operation is in progress as long
as `started` is 1, and one that a request is on its way for is in progress or has been unwound. -/
structure Inv (as : List Action) (s : GpSession) : Prop where
  started : ∀ k, (s.operations k).started = 1 →
    s.phase = .inProgress (s.operations k).number (some k)
  begun : ∀ n, s.phase.current = some n → n < s.begun
  unwound : ∀ n, .unwind n ∈ as → n < s.begun ∧ s.phase.current ≠ some n
  flight : ∀ n ∈ s.inFlight, s.phase.current = some n ∨ .unwind n ∈ as
  inactive : s.active = false → s.phase = .free
  forgotten : s.registered = false → s.active = false
  closed : .close true ∈ as → s.registered = false
  logged : ∀ c ∈ s.log, ∀ n, c.inProgress = some n → n < s.begun
  kept : ∀ c ∈ s.log, c.inProgress = s.phase.current → s.phase.current ≠ none →
    s.isCancelled = true
  late : ∀ c ∈ s.log, c.inProgress = some c.request ∨ Late as

/-- An action that neither unwinds an operation nor closes the session. -/
def Action.Leaves (a : Action) : Prop := (∀ n, a ≠ .unwind n) ∧ ∀ forgotten, a ≠ .close forgotten

section Inv

variable {as : List Action} {s t : GpSession} {a : Action}

theorem inv_opened : Inv [] opened where
  started k h := by
    have hne : (0 : UInt32) ≠ 1 := by decide
    exact absurd h hne
  begun n h := by simp [opened, Phase.current] at h
  unwound := by simp
  flight := by simp [opened]
  inactive h := by simp [opened] at h
  forgotten h := by simp [opened] at h
  closed := by simp
  logged := by simp [opened]
  kept := by simp [opened]
  late := by simp [opened]

theorem unwind_mem_iff (h : a.Leaves) (n : Nat) : .unwind n ∈ as ++ [a] ↔ .unwind n ∈ as := by
  have hne : ¬ Action.unwind n = a := fun heq => h.1 n heq.symm
  simp [hne]

theorem close_mem_iff (h : a.Leaves) (forgotten : Bool) :
    .close forgotten ∈ as ++ [a] ↔ .close forgotten ∈ as := by
  have hne : ¬ Action.close forgotten = a := fun heq => h.2 forgotten heq.symm
  simp [hne]

theorem late_snoc (h : ∀ c ∈ s.log, c.inProgress = some c.request ∨ Late as) (hlog : t.log = s.log) :
    ∀ c ∈ t.log, c.inProgress = some c.request ∨ Late (as ++ [a]) := by
  intro c hc
  rw [hlog] at hc
  exact (h c hc).imp id fun hlate => hlate.append [a]

/-- A step that only touches `TEEC_Operation`s that are not in use, and sends requests for the
operation that is in progress. -/
theorem Inv.quiet (h : Inv as s) (ha : a.Leaves) {operations : Nat → Operation}
    {inFlight : List Nat}
    (hoperations : ∀ k, (operations k).started = 1 → operations k = s.operations k)
    (hflight : ∀ n ∈ inFlight, n ∈ s.inFlight ∨ s.phase.current = some n) :
    Inv (as ++ [a]) { s with operations := operations, inFlight := inFlight } where
  started k hk := by
    have hsame := hoperations k hk
    dsimp only at hk ⊢
    rw [hsame] at hk ⊢
    exact h.started k hk
  begun := h.begun
  unwound n hn := h.unwound n ((unwind_mem_iff ha n).mp hn)
  flight n hn := by
    rcases hflight n hn with hold | hnow
    · exact (h.flight n hold).imp id (unwind_mem_iff ha n).mpr
    · exact Or.inl hnow
  inactive := h.inactive
  forgotten := h.forgotten
  closed hc := h.closed ((close_mem_iff ha true).mp hc)
  logged := h.logged
  kept := h.kept
  late := late_snoc h.late rfl

/-- A step behind which no operation is in progress. -/
theorem Inv.leave (h : Inv as s) {operations : Nat → Operation} {phase : Phase}
    {active registered : Bool} (hphase : phase.current = none)
    (hcurrent : ∀ n, s.phase.current = some n ↔ a = .unwind n)
    (hoperations : ∀ k, (operations k).started ≠ 1) (hinactive : active = false → phase = .free)
    (hforgotten : registered = false → active = false)
    (hclosed : .close true ∈ as ++ [a] → registered = false) :
    Inv (as ++ [a]) { s with
      operations := operations, phase := phase, active := active, registered := registered } where
  started k hk := absurd hk (hoperations k)
  begun n hn := by
    rw [show ({ s with phase := phase } : GpSession).phase.current = none from hphase] at hn
    simp at hn
  unwound n hn := by
    refine ⟨?_, ?_⟩
    · rcases List.mem_append.mp hn with hn | hn
      · exact (h.unwound n hn).1
      · exact h.begun n ((hcurrent n).mpr (List.mem_singleton.mp hn).symm)
    · dsimp only
      rw [hphase]
      exact Option.some_ne_none n |>.symm
  flight n hn := by
    -- whatever was in progress is the operation that is being unwound
    right
    rcases h.flight n hn with hnow | hold
    · rw [(hcurrent n).mp hnow]
      simp
    · exact List.mem_append_left _ hold
  inactive := hinactive
  forgotten := hforgotten
  closed := hclosed
  logged := h.logged
  kept c hc hsame hne := absurd hphase hne
  late := late_snoc h.late rfl

theorem started_setStarted {k j : Nat} {started : UInt32} (hne : started ≠ 1)
    (h : ((s.setStarted k started).operations j).started = 1) :
    j ≠ k ∧ (s.setStarted k started).operations j = s.operations j := by
  rw [setStarted_operations] at h ⊢
  by_cases hj : j = k
  · rw [if_pos hj] at h
    exact absurd h hne
  · exact ⟨hj, if_neg hj⟩

theorem Inv.prepare (h : Inv as s) (k : Nat) : Inv (as ++ [.prepare k]) (s.setStarted k 0) :=
  h.quiet ⟨by simp, by simp⟩ (fun j hj => (started_setStarted (by decide) hj).2) fun n hn => Or.inl hn

theorem Inv.check (h : Inv as s) {k : Nat} (hstarted : (s.operations k).started ≠ 0) :
    Inv (as ++ [.check k]) (s.check k) := by
  have hleaves : (Action.check k).Leaves := ⟨by simp, by simp⟩
  unfold GpSession.check
  split_ifs with hover hactive
  · exact h.quiet hleaves (fun j _ => rfl) fun n hn => Or.inl hn
  · refine h.quiet hleaves (fun j hj => (started_setStarted (by decide) hj).2) fun n hn => ?_
    rcases List.mem_append.mp hn with hn | hn
    · exact Or.inl hn
    · -- the operation has been started and not been unwound
      have hone : (s.operations k).started = 1 := by
        rw [UInt32.lt_iff_toNat_lt] at hover
        have hzero : (s.operations k).started.toNat ≠ 0 := fun h0 => hstarted (UInt32.toNat_inj.mp h0)
        apply UInt32.toNat_inj.mp
        show _ = 1
        have hover' : ¬ 1 < (s.operations k).started.toNat := hover
        omega
      right
      rw [List.mem_singleton.mp hn, h.started k hone]
      rfl
  · exact h.quiet hleaves (fun j hj => (started_setStarted (by decide) hj).2) fun n hn => Or.inl hn

theorem Inv.not_started (h : Inv as s) (hcurrent : s.phase.current = none) (k : Nat) :
    (s.operations k).started ≠ 1 := by
  intro hk
  rw [h.started k hk] at hcurrent
  simp [Phase.current] at hcurrent

theorem Inv.unwind (h : Inv as s) {n : Nat} {operation : Option Nat}
    (hphase : s.phase = .inProgress n operation) :
    Inv (as ++ [.unwind n]) (s.unwind operation) := by
  have hcurrent : ∀ m, s.phase.current = some m ↔ Action.unwind n = .unwind m := by
    intro m
    rw [hphase]
    simp [Phase.current]
  have hactive : s.active = false → Phase.unwound = .free := by
    intro hinactive
    have hfree := h.inactive hinactive
    rw [hphase] at hfree
    cases hfree
  have hclosed : .close true ∈ as ++ [Action.unwind n] → s.registered = false := by
    intro hc
    exact h.closed (by simpa using hc)
  unfold GpSession.unwind
  cases operation with
  | none =>
    refine h.leave rfl hcurrent (fun k hk => ?_) hactive h.forgotten hclosed
    have hsame := h.started k hk
    rw [hphase] at hsame
    cases hsame
  | some j =>
    refine h.leave rfl hcurrent (fun k hk => ?_) hactive h.forgotten hclosed
    obtain ⟨hkj, hold⟩ := started_setStarted (by decide) hk
    have hsame := h.started k (hold ▸ hk)
    rw [hphase] at hsame
    have hjk : j = k := Option.some.inj (Phase.inProgress.inj hsame).2
    exact hkj hjk.symm

theorem Inv.unlock (h : Inv as s) (hphase : s.phase = .unwound) :
    Inv (as ++ [.unlock]) { s with phase := .free } := by
  have hnone : s.phase.current = none := by
    rw [hphase]
    rfl
  refine h.leave rfl ?_ (h.not_started hnone) (fun _ => rfl) h.forgotten fun hc =>
    h.closed (by simpa using hc)
  rw [hnone]
  simp

theorem Inv.close (h : Inv as s) (hphase : s.phase = .unwound) (forgotten : Bool) :
    Inv (as ++ [.close forgotten])
      { s with phase := .free, active := false, registered := s.registered && !forgotten } := by
  have hnone : s.phase.current = none := by
    rw [hphase]
    rfl
  refine h.leave rfl ?_ (h.not_started hnone) (fun _ => rfl) (fun _ => rfl) fun hc => ?_
  · rw [hnone]
    simp
  · rcases List.mem_append.mp hc with hc | hc
    · rw [h.closed hc]
      rfl
    · rw [← Action.close.inj (List.mem_singleton.mp hc)]
      exact Bool.and_false _

/-- A delivery behind the unwinding of the operation, to a session that has not been forgotten. -/
theorem Inv.late_of_unwound (h : Inv as s) {n : Nat} (hregistered : s.registered = true)
    (hgone : .unwind n ∈ as) : Late (as ++ [.deliver n]) := by
  obtain ⟨pre, mid, rfl⟩ := List.append_of_mem hgone
  refine ⟨pre, mid, [], n, by simp, fun hclose => ?_⟩
  have hclosed := h.closed (List.mem_append_right _ (List.mem_cons_of_mem _ hclose))
  rw [hregistered] at hclosed
  cases hclosed

theorem Inv.deliver (h : Inv as s) {n : Nat} (hmem : n ∈ s.inFlight) :
    Inv (as ++ [.deliver n]) (s.deliver n) := by
  have hleaves : (Action.deliver n).Leaves := ⟨by simp, by simp⟩
  have hquiet : Inv (as ++ [.deliver n])
      { s with operations := s.operations, inFlight := s.inFlight.erase n } :=
    h.quiet hleaves (fun _ _ => rfl) fun m hm => Or.inl (List.mem_of_mem_erase hm)
  show Inv _ (if s.registered = true then _ else _)
  by_cases hregistered : s.registered = true
  · rw [if_pos hregistered]
    -- the flag is set by this step, and the log is longer by its entry
    refine ⟨hquiet.started, hquiet.begun, hquiet.unwound, hquiet.flight, hquiet.inactive,
      hquiet.forgotten, hquiet.closed, ?_, fun _ _ _ _ => rfl, ?_⟩
    · intro c hc m hm
      rcases List.mem_append.mp hc with hc | hc
      · exact h.logged c hc m hm
      · rw [List.mem_singleton.mp hc] at hm
        exact h.begun m hm
    · intro c hc
      rcases List.mem_append.mp hc with hc | hc
      · exact hquiet.late c hc
      · rw [List.mem_singleton.mp hc]
        exact (h.flight n hmem).imp id (h.late_of_unwound hregistered)
  · rw [if_neg hregistered]
    exact hquiet

/-- A step with which an operation of the session begins. -/
theorem Inv.begin (h : Inv as s) (ha : a.Leaves) (hphase : s.phase = .free)
    (hactive : s.active = true) {operations : Nat → Operation} {phase : Phase}
    (hcurrent : ∀ n, phase.current = some n → n = s.begun)
    (hstarted : ∀ k, (operations k).started = 1 → phase = .inProgress (operations k).number (some k)) :
    Inv (as ++ [a]) { s with
      operations := operations, phase := phase, begun := s.begun + 1, isCancelled := false } where
  started := hstarted
  begun n hn := by
    rw [hcurrent n hn]
    exact Nat.lt_succ_self _
  unwound n hn := by
    have hlt := (h.unwound n ((unwind_mem_iff ha n).mp hn)).1
    refine ⟨Nat.lt_succ_of_lt hlt, fun hn' => ?_⟩
    have heq := hcurrent n hn'
    omega
  flight n hn := by
    right
    rcases h.flight n hn with hnow | hgone
    · rw [hphase] at hnow
      simp [Phase.current] at hnow
    · exact (unwind_mem_iff ha n).mpr hgone
  inactive hinactive := by
    rw [show s.active = false from hinactive] at hactive
    cases hactive
  forgotten := h.forgotten
  closed hc := h.closed ((close_mem_iff ha true).mp hc)
  logged c hc n hn := Nat.lt_succ_of_lt (h.logged c hc n hn)
  -- the number is new, so nothing has been set while it was in progress
  kept c hc hsame hne := by
    obtain ⟨n, hn⟩ := Option.ne_none_iff_exists'.mp hne
    have hlt := h.logged c hc n (hsame.trans hn)
    have heq := hcurrent n hn
    omega
  late := late_snoc h.late rfl

theorem Inv.setup (h : Inv as s) (hphase : s.phase = .free) (hactive : s.active = true)
    (operation : Option Nat) (succeeds : Bool) :
    Inv (as ++ [.setup operation succeeds]) (s.setup operation succeeds) := by
  have hleaves : (Action.setup operation succeeds).Leaves := ⟨by simp, by simp⟩
  have hnone : s.phase.current = none := by
    rw [hphase]
    rfl
  have hothers : ∀ (op : Operation) (k j : Nat),
      (Function.update s.operations k op j).started = 1 → j = k := by
    intro op k j hj
    by_contra hne
    rw [Function.update_of_ne hne] at hj
    exact h.not_started hnone j hj
  unfold GpSession.setup
  cases operation with
  | none =>
    have hcurrent : ∀ n, (Phase.inProgress s.begun none).current = some n → n = s.begun :=
      fun n hn => (Option.some.inj hn).symm
    refine h.begin hleaves hphase hactive hcurrent fun k hk => ?_
    exact absurd hk (h.not_started hnone k)
  | some k =>
    cases succeeds with
    | true =>
      have hcurrent : ∀ n, (Phase.inProgress s.begun (some k)).current = some n → n = s.begun :=
        fun n hn => (Option.some.inj hn).symm
      have hstarted : ∀ j, (Function.update s.operations k ⟨1, s.begun⟩ j).started = 1 →
          Phase.inProgress s.begun (some k) =
            .inProgress (Function.update s.operations k ⟨1, s.begun⟩ j).number (some j) := by
        intro j hj
        obtain rfl := hothers _ k j hj
        simp
      exact h.begin hleaves hphase hactive hcurrent hstarted
    | false =>
      have hcurrent : ∀ n, Phase.unwound.current = some n → n = s.begun :=
        fun n hn => nomatch hn
      have hstarted : ∀ j, (Function.update s.operations k ⟨2, s.begun⟩ j).started = 1 →
          Phase.unwound =
            .inProgress (Function.update s.operations k ⟨2, s.begun⟩ j).number (some j) := by
        intro j hj
        obtain rfl := hothers _ k j hj
        rw [Function.update_self] at hj
        have hne : (2 : UInt32) ≠ 1 := by decide
        exact absurd hj hne
      exact h.begin hleaves hphase hactive hcurrent hstarted

theorem Inv.step (h : Inv as s) (ht : cancelMachine.step s a = some t) : Inv (as ++ [a]) t := by
  have ht' : GpSession.step s a = some t := ht
  cases a with
  | prepare k =>
    simp only [GpSession.step] at ht'
    split_ifs at ht'
    obtain rfl := Option.some.inj ht'
    exact h.prepare k
  | setup operation succeeds =>
    simp only [GpSession.step] at ht'
    split_ifs at ht' with hcond
    obtain rfl := Option.some.inj ht'
    exact h.setup hcond.1 hcond.2 operation succeeds
  | unwind n =>
    simp only [GpSession.step] at ht'
    split at ht'
    · rename_i number operation hphase
      split_ifs at ht' with hnumber
      obtain rfl := Option.some.inj ht'
      exact h.unwind (hnumber ▸ hphase)
    · cases ht'
  | unlock =>
    simp only [GpSession.step] at ht'
    split_ifs at ht' with hphase
    obtain rfl := Option.some.inj ht'
    exact h.unlock hphase
  | close forgotten =>
    simp only [GpSession.step] at ht'
    split_ifs at ht' with hphase
    obtain rfl := Option.some.inj ht'
    exact h.close hphase forgotten
  | check k =>
    simp only [GpSession.step] at ht'
    split_ifs at ht' with hstarted
    obtain rfl := Option.some.inj ht'
    exact h.check hstarted
  | deliver n =>
    simp only [GpSession.step] at ht'
    split_ifs at ht' with hmem
    obtain rfl := Option.some.inj ht'
    exact h.deliver hmem

theorem inv_of_run (hrun : cancelMachine.run opened as = some s) : Inv as s :=
  cancelMachine.inv_of_actions (fun _ _ _ _ h ht => h.step ht) [] inv_opened hrun

/-- The delivery that comes behind the unwinding of its operation is in the log as one that has hit
another operation or none. -/
theorem logged_of_late (hrun : cancelMachine.run opened as = some t) (hlate : Late as) :
    ∃ c ∈ t.log, c.inProgress ≠ some c.request := by
  obtain ⟨pre, mid, post, n, rfl, hclose⟩ := hlate
  obtain ⟨before, hpre, hrest⟩ := cancelMachine.run_append.mp hrun
  obtain ⟨unwound, hunwind, hrest⟩ := cancelMachine.run_cons_elim hrest
  obtain ⟨s, hmid, hrest⟩ := cancelMachine.run_append.mp hrest
  obtain ⟨delivered, hdeliver, hpost⟩ := cancelMachine.run_cons_elim hrest
  have hinv : Inv (pre ++ .unwind n :: mid) s :=
    inv_of_run (cancelMachine.run_append.mpr ⟨before, hpre, cancelMachine.run_cons hunwind hmid⟩)
  -- an operation that has been unwound does not come back
  have hother : s.phase.current ≠ some n := (hinv.unwound n (by simp)).2
  -- an operation is unwound in a session that the driver client has
  have hbefore : before.registered = true := by
    by_contra hforgotten
    have hfree := (inv_of_run hpre).inactive
      ((inv_of_run hpre).forgotten (Bool.eq_false_iff.mpr hforgotten))
    have hunwind' : GpSession.step before (.unwind n) = some unwound := hunwind
    simp [GpSession.step, hfree] at hunwind'
  have hregistered : s.registered = true := by
    refine registered_of_run (cancelMachine.run_cons hunwind hmid) hbefore fun hc => hclose ?_
    simpa using hc
  refine ⟨⟨n, s.phase.current⟩, log_of_run hpost ?_, hother⟩
  have hdeliver' : GpSession.step s (.deliver n) = some delivered := hdeliver
  simp only [GpSession.step] at hdeliver'
  split_ifs at hdeliver'
  cases hdeliver'
  simp [GpSession.deliver, hregistered]

end Inv

/-- **A cancellation reaches its own operation.** Behind every interleaving of operations and requests
for them, `isCancelled` has only been set for the operation in progress, and is still set for it,
just when no request has been delivered behind the unwinding of its operation. -/
theorem reachesOwn_iff {as : List Action} {t : GpSession}
    (hrun : cancelMachine.run opened as = some t) : ReachesOwn t ↔ ¬ Late as := by
  constructor
  · -- the entry of the late delivery contradicts the first half
    intro h hlate
    obtain ⟨c, hc, hother⟩ := logged_of_late hrun hlate
    exact hother (h.own c hc)
  · intro hlate
    have hinv := inv_of_run hrun
    refine ⟨fun c hc => (hinv.late c hc).resolve_right hlate, fun c hc hsame hcurrent => ?_⟩
    exact hinv.kept c hc hsame (by simp [hcurrent])

/-- A request that arrives while its operation is in progress. -/
theorem reachesOwn_inTime :
    ∃ t, cancelMachine.run opened
        [.setup (some 0) true, .check 0, .deliver 0, .unwind 0, .unlock] = some t ∧
      t.log = [⟨0, some 0⟩] ∧
      ¬ Late [.setup (some 0) true, .check 0, .deliver 0, .unwind 0, .unlock] := by
  refine ⟨_, rfl, rfl, (reachesOwn_iff rfl).mp ⟨?_, ?_⟩⟩
  · intro c hc
    rw [List.mem_singleton.mp hc]
    rfl
  · intro c hc
    rw [List.mem_singleton.mp hc]
    intro hsame
    cases hsame

/-- A request for the first operation passes its check in time, and is delivered when the second
operation of the session is in progress. -/
theorem not_reachesOwn :
    ¬ ∀ as t, cancelMachine.run opened as = some t → ReachesOwn t := by
  intro h
  have hown := (h [.setup (some 0) true, .check 0, .unwind 0, .unlock, .setup (some 1) true,
    .deliver 0] _ rfl).own ⟨0, some 1⟩ (List.mem_singleton.mpr rfl)
  cases hown

end McDaemon.Client.GpCancel
