/-
# McDaemon.Client.GpSession — commands on one session from several threads.

`TEEC_InvokeCommand` looks at `active`, then takes `mutex_tci` and uses the page that the session
points to.  A call that fails behind the setup clears `active` and deletes the page, under the same
mutex.  A call that has passed the look by then, and waits for the mutex, does not look again: it
gets the mutex and a session without a page.
-/
import Mathlib.Data.List.Induction
import Mathlib.Tactic.SplitIfs
import McDaemon.Client.GpIsolation
import McDaemon.Lib.Machine

namespace McDaemon.Client.Gp

open McDaemon.Lib

/-! ## Calling the TA -/

def taExitCodeFinished : UInt32 := 303
def errInvalidSid : UInt32 := 0xFFFFFFFC
def errSidNotActive : UInt32 := 0xFFFFFFFB

/-- How `client.waitNotification` returns: `comm` stands for `ECOMM`, with what `client.getError`
leaves in `err.value`. -/
inductive WaitAnswer where
  | notified
  | comm (value : UInt32)
  | failed
deriving DecidableEq, Repr

/-- What one call of the TA meets. -/
structure CallAnswers where
  setup : SetupAnswers
  notify : Bool
  secureWorld : Tci → Tci
  wait : WaitAnswer

/-- `teecError` before phase 2. -/
def CallAnswers.teecError (answers : CallAnswers) : TeecResult :=
  if answers.notify = false then teecErrorCommunication
  else
    match answers.wait with
    | .notified => teecSuccess
    | .failed => teecErrorCommunication
    | .comm value =>
      if value = taExitCodeFinished then teecSuccess
      else if value = errInvalidSid ∨ value = errSidNotActive then teecErrorCommunication
      else teecErrorTargetDead

/-- How `_TEEC_CallTA` returns, with the page, and whether it has closed the session and deleted
the page. -/
structure Called where
  tci : Tci
  operation : Option Operation
  result : TeecResult
  closed : Bool

/-- `_TEEC_CallTA`. -/
def callTA (tci : Tci) (operation : Option Operation) (answers : CallAnswers) : Called :=
  let r := setupOperation tci operation answers.setup
  if r.result ≠ teecSuccess then ⟨r.tci, r.operation, r.result, false⟩
  else
    let tci := if answers.notify then answers.secureWorld r.tci else r.tci
    let u := unwindOperation tci r.operation (answers.teecError = teecSuccess)
    ⟨tci, u.operation, answers.teecError, answers.teecError ≠ teecSuccess⟩

/-! ## The session -/

/-- `TEEC_Session_IMP`; a page that is deleted leaves `NULL`. -/
structure SessionImp where
  active : Bool
  tci : Option Tci

/-- Who uses the session: an invoked command, or `TEEC_CloseSession`. -/
inductive User where
  | invoke (c : Nat)
  | close
deriving DecidableEq, Repr

/-- A user works on the page, deletes it, or returns. -/
inductive GpEvent where
  | used (user : User)
  | unmapped (user : User)
  | returned (user : User) (code : TeecResult)
deriving DecidableEq, Repr

/-- The session, the calls that have looked at `active` and wait for the mutex, the calls that have
returned, and what has happened, in order.  A process that works on a page that is not there
faults. -/
structure GpState where
  session : SessionImp
  waiting : List Nat
  done : List Nat
  faulted : Bool
  events : List GpEvent

/-- The steps of the calls; `critical` is all that a call does under the mutex. -/
inductive GpAction where
  | check (c : Nat)
  | critical (c : Nat) (commandId : UInt32) (operation : Option Operation) (answers : CallAnswers)
  | closeSession (answers : CallAnswers)

namespace GpState

/-- The session after `TEEC_OpenSession`. -/
def opened (tci : Tci) : GpState where
  session := ⟨true, some tci⟩
  waiting := []
  done := []
  faulted := false
  events := []

/-- A call returns. -/
def return_ (s : GpState) (c : Nat) (code : TeecResult) : GpState :=
  { s with
    waiting := s.waiting.filter fun d => d ≠ c
    done := c :: s.done
    events := s.events ++ [.returned (.invoke c) code] }

/-- The look at `active` of `TEEC_InvokeCommand`. -/
def check (s : GpState) (c : Nat) : GpState :=
  if s.session.active then { s with waiting := c :: s.waiting }
  else s.return_ c teecErrorBadState

/-- `_TEEC_CloseSession` and `_TEEC_DeleteTci`. -/
def closeAndDelete (s : GpState) (user : User) : GpState :=
  { s with session := ⟨false, none⟩, events := s.events ++ [.unmapped user] }

/-- `TEEC_InvokeCommand` from the lock to the unlock, and its return. -/
def critical (s : GpState) (c : Nat) (commandId : UInt32) (operation : Option Operation)
    (answers : CallAnswers) : GpState :=
  let s := { s with events := s.events ++ [GpEvent.used (.invoke c)] }
  match s.session.tci with
  | none => { s with faulted := true }
  | some tci =>
    let tci := { tci with operation := { tci.operation with commandId := commandId, type := 2 } }
    let r := callTA tci operation answers
    if r.closed then (s.closeAndDelete (.invoke c)).return_ c r.result
    else
      { s with session := ⟨s.session.active, some r.tci⟩ }.return_ c
        (if r.result ≠ teecSuccess then r.result else r.tci.returnStatus)

/-- `TEEC_CloseSession`. -/
def closeSession (s : GpState) (answers : CallAnswers) : GpState :=
  if s.session.active then
    let s := { s with events := s.events ++ [GpEvent.used .close] }
    match s.session.tci with
    | none => { s with faulted := true }
    | some tci =>
      let tci := { tci with operation := { tci.operation with type := 3 } }
      let r := callTA tci none answers
      -- a call that fails has closed the session, another one leaves it to be closed here
      if r.closed then s.closeAndDelete .close
      else { s with session := ⟨s.session.active, some r.tci⟩ }.closeAndDelete .close
  else s

def step (s : GpState) : GpAction → Option GpState
  | .check c =>
    if s.faulted ∨ c ∈ s.waiting ∨ c ∈ s.done then none else some (s.check c)
  | .critical c commandId operation answers =>
    if s.faulted ∨ c ∉ s.waiting then none else some (s.critical c commandId operation answers)
  | .closeSession answers =>
    if s.faulted ∨ s.waiting ≠ [] then none else some (s.closeSession answers)

end GpState

/-- One open session and its callers. -/
def gpMachine : Machine GpState GpAction where
  init := fun s => ∃ tci, s = GpState.opened tci
  step := GpState.step

/-! ## The property and its condition -/

/-- Behind a deletion nobody works on the page, and who returns there returns an error. -/
def Respects : GpEvent → GpEvent → Prop
  | .unmapped _, .used _ => False
  | .unmapped _, .returned _ code => code ≠ teecSuccess
  | _, _ => True

def Safe (s : GpState) : Prop := s.events.Pairwise Respects

/-- The step closes the session. -/
def GpAction.Closes : GpAction → Prop
  | .check _ => False
  | .critical _ _ operation answers =>
    SetupAccepts operation answers.setup ∧ answers.teecError ≠ teecSuccess
  | .closeSession _ => True

/-- No call that gets the mutex has seen the session closed since its look at `active`. -/
def NobodyWaits (as : List GpAction) : Prop :=
  ∀ before c mid commandId operation answers after,
    as = before ++ .check c :: (mid ++ .critical c commandId operation answers :: after) →
      ∀ x ∈ mid, ¬ x.Closes

/-! ## One step -/

theorem callTA_closed_iff (tci : Tci) (operation : Option Operation) (answers : CallAnswers) :
    (callTA tci operation answers).closed = true ↔
      SetupAccepts operation answers.setup ∧ answers.teecError ≠ teecSuccess := by
  rw [← setupOperation_success_iff tci]
  unfold callTA
  dsimp only
  by_cases h : (setupOperation tci operation answers.setup).result = teecSuccess
  · rw [if_neg fun hne => hne h]
    simp [h]
  · rw [if_pos h]
    simp [h]

theorem callTA_result_of_closed {tci : Tci} {operation : Option Operation}
    {answers : CallAnswers} (h : (callTA tci operation answers).closed = true) :
    (callTA tci operation answers).result ≠ teecSuccess := by
  have hclosed := (callTA_closed_iff tci operation answers).mp h
  have hresult := (setupOperation_success_iff tci operation answers.setup).mpr hclosed.1
  unfold callTA
  dsimp only
  rw [if_neg fun hne => hne hresult]
  exact hclosed.2

/-- What holds of the session while its calls come and go. -/
structure GpInv (s : GpState) : Prop where
  mapped : s.session.active = true ↔ s.session.tci ≠ none
  deleted : s.session.active = false ↔ ∃ user, .unmapped user ∈ s.events
  apart : ∀ c ∈ s.waiting, c ∉ s.done
  fault : s.faulted = true → s.session.tci = none
  safe : s.faulted = false ↔ Safe s

theorem opened_inv (tci : Tci) : GpInv (GpState.opened tci) where
  mapped := by simp [GpState.opened]
  deleted := by simp [GpState.opened]
  apart := by simp [GpState.opened]
  fault := by simp [GpState.opened]
  safe := by simp [GpState.opened, Safe]

/-- Events behind which everything is in order stay so when an error is returned. -/
theorem safe_returned {events : List GpEvent} (h : events.Pairwise Respects) {user : User}
    {code : TeecResult} (hcode : (∃ user, .unmapped user ∈ events) → code ≠ teecSuccess) :
    (events ++ [GpEvent.returned user code]).Pairwise Respects := by
  rw [List.pairwise_append]
  refine ⟨h, List.pairwise_singleton _ _, fun a ha b hb => ?_⟩
  rw [List.mem_singleton.mp hb]
  cases a with
  | used | returned => exact trivial
  | unmapped u => exact hcode ⟨u, ha⟩

/-- The page can be worked on as long as nobody has deleted it. -/
theorem safe_used_iff {events : List GpEvent} (user : User) :
    (events ++ [GpEvent.used user]).Pairwise Respects ↔
      events.Pairwise Respects ∧ ¬ ∃ user, .unmapped user ∈ events := by
  rw [List.pairwise_append]
  constructor
  · rintro ⟨h, -, hall⟩
    exact ⟨h, fun ⟨u, hu⟩ => hall _ hu _ (List.mem_singleton.mpr rfl)⟩
  · rintro ⟨h, hno⟩
    refine ⟨h, List.pairwise_singleton _ _, fun a ha b hb => ?_⟩
    rw [List.mem_singleton.mp hb]
    cases a with
    | used | returned => exact trivial
    | unmapped u => exact hno ⟨u, ha⟩

theorem safe_unmapped {events : List GpEvent} (h : events.Pairwise Respects) {user : User} :
    (events ++ [GpEvent.unmapped user]).Pairwise Respects := by
  rw [List.pairwise_append]
  refine ⟨h, List.pairwise_singleton _ _, fun a ha b hb => ?_⟩
  rw [List.mem_singleton.mp hb]
  cases a <;> exact trivial

/-- A step that works on a page that is there: the session goes with `closes`, and the call, if it
is one, returns. -/
theorem GpInv.afterUse {s t : GpState} (hs : GpInv s) (user : User) {closes : Prop}
    (hmapped : s.session.tci ≠ none) (hfault : t.faulted = s.faulted) (hnf : s.faulted = false)
    (hactive : t.session.active = true ↔ s.session.active = true ∧ ¬ closes)
    (htci : t.session.tci ≠ none ↔ ¬ closes) (hapart : ∀ c ∈ t.waiting, c ∉ t.done)
    (hevents : (closes ∧ ∃ rest, t.events = s.events ++ [.used user] ++ [.unmapped user] ++ rest ∧
        (rest = [] ∨ ∃ code, rest = [.returned user code] ∧ code ≠ teecSuccess)) ∨
      (¬ closes ∧ ∃ code, t.events = s.events ++ [.used user] ++ [.returned user code])) :
    GpInv t := by
  have hsactive := hs.mapped.mpr hmapped
  have hnone : ¬ ∃ user, .unmapped user ∈ s.events := by
    intro h
    have hfalse := hs.deleted.mpr h
    rw [hsactive] at hfalse
    cases hfalse
  have hused := (safe_used_iff user).mpr ⟨hs.safe.mp hnf, hnone⟩
  refine ⟨?_, ?_, hapart, ?_, ?_⟩
  · rw [hactive, htci]
    exact ⟨And.right, fun h => ⟨hsactive, h⟩⟩
  · rw [← Bool.not_eq_true, hactive]
    rcases hevents with ⟨hc, rest, hev, -⟩ | ⟨hc, code, hev⟩
    · refine iff_of_true (fun h => h.2 hc) ⟨user, ?_⟩
      simp [hev]
    · refine iff_of_false (fun h => h ⟨hsactive, hc⟩) ?_
      rintro ⟨u, hu⟩
      rw [hev] at hu
      refine hnone ⟨u, ?_⟩
      simpa using hu
  · intro hf
    rw [hfault, hnf] at hf
    cases hf
  · rw [hfault, hnf]
    refine iff_of_true rfl ?_
    unfold Safe
    rcases hevents with ⟨-, rest, hev, hrest⟩ | ⟨-, code, hev⟩
    · rw [hev]
      rcases hrest with rfl | ⟨code, rfl, hcode⟩
      · rw [List.append_nil]
        exact safe_unmapped hused
      · exact safe_returned (safe_unmapped hused) fun _ => hcode
    · rw [hev]
      refine safe_returned hused fun ⟨u, hu⟩ => absurd ⟨u, ?_⟩ hnone
      simpa using hu

/-- A call that returns is no longer waiting. -/
theorem GpInv.apart_return {s : GpState} (hs : GpInv s) (c : Nat) :
    ∀ d ∈ s.waiting.filter fun d => d ≠ c, d ∉ c :: s.done := by
  intro d hd
  obtain ⟨hd, hne⟩ := List.mem_filter.mp hd
  rw [List.mem_cons, not_or]
  exact ⟨by simpa using hne, hs.apart d hd⟩

theorem check_inv {s : GpState} (hs : GpInv s) (hnf : s.faulted = false) {c : Nat}
    (hc : c ∉ s.done) :
    GpInv (s.check c) ∧ ((s.check c).session.active = true ↔ s.session.active = true) := by
  unfold GpState.check
  by_cases hactive : s.session.active = true
  · rw [if_pos hactive]
    refine ⟨⟨hs.mapped, hs.deleted, fun d hd => ?_, hs.fault, hs.safe⟩, Iff.rfl⟩
    rcases List.mem_cons.mp hd with rfl | hd
    · exact hc
    · exact hs.apart d hd
  · rw [if_neg hactive]
    have hbad : teecErrorBadState ≠ teecSuccess := by decide
    refine ⟨⟨hs.mapped, ?_, hs.apart_return c, hs.fault, ?_⟩, Iff.rfl⟩
    · show s.session.active = false ↔ ∃ user, .unmapped user ∈ s.events ++ [_]
      rw [hs.deleted]
      simp
    · exact iff_of_true hnf (safe_returned (hs.safe.mp hnf) fun _ => hbad)

/-- What a call does under the mutex. -/
theorem critical_cases (s : GpState) (c : Nat) (commandId : UInt32) (operation : Option Operation)
    (answers : CallAnswers) :
    (s.session.tci = none ∧ s.critical c commandId operation answers =
        { s with events := s.events ++ [.used (.invoke c)], faulted := true }) ∨
      (s.session.tci ≠ none ∧
        (SetupAccepts operation answers.setup ∧ answers.teecError ≠ teecSuccess) ∧
        ∃ code, code ≠ teecSuccess ∧ s.critical c commandId operation answers =
          ({ s with session := ⟨false, none⟩, events := s.events ++ [.used (.invoke c)] ++
            [.unmapped (.invoke c)] } : GpState).return_ c code) ∨
      (s.session.tci ≠ none ∧
        ¬ (SetupAccepts operation answers.setup ∧ answers.teecError ≠ teecSuccess) ∧
        ∃ tci code, s.critical c commandId operation answers =
          ({ s with session := ⟨s.session.active, some tci⟩,
                    events := s.events ++ [.used (.invoke c)] } : GpState).return_ c code) := by
  cases htci : s.session.tci with
  | none => exact .inl ⟨rfl, by simp only [GpState.critical, htci]⟩
  | some tci =>
    right
    let tci' := { tci with operation := { tci.operation with commandId := commandId, type := 2 } }
    have hiff := callTA_closed_iff tci' operation answers
    by_cases hclosed : (callTA tci' operation answers).closed = true
    · refine .inl ⟨Option.some_ne_none tci, hiff.mp hclosed, _, callTA_result_of_closed hclosed, ?_⟩
      simp only [GpState.critical, htci]
      exact if_pos hclosed
    · refine .inr ⟨Option.some_ne_none tci, fun h => hclosed (hiff.mpr h),
        (callTA tci' operation answers).tci, ?code, ?equation⟩
      case equation =>
        simp only [GpState.critical, htci]
        exact if_neg hclosed

theorem critical_inv {s : GpState} (hs : GpInv s) (hnf : s.faulted = false) (c : Nat)
    (commandId : UInt32) (operation : Option Operation) (answers : CallAnswers) :
    GpInv (s.critical c commandId operation answers) ∧
      ((s.critical c commandId operation answers).session.active = true ↔
        s.session.active = true ∧
          ¬ (SetupAccepts operation answers.setup ∧ answers.teecError ≠ teecSuccess)) := by
  rcases critical_cases s c commandId operation answers with
    ⟨htci, heq⟩ | ⟨htci, hcloses, code, hcode, heq⟩ | ⟨htci, hopen, tci, code, heq⟩
  · have hinactive : ¬ s.session.active = true := fun h => hs.mapped.mp h htci
    have hdeleted := hs.deleted.mp (Bool.eq_false_iff.mpr hinactive)
    rw [heq]
    refine ⟨⟨hs.mapped, ?_, hs.apart, fun _ => htci, ?_⟩, iff_of_false hinactive fun h =>
      hinactive h.1⟩
    · show s.session.active = false ↔ ∃ user, .unmapped user ∈ s.events ++ [_]
      rw [hs.deleted]
      simp
    · refine iff_of_false (fun h => nomatch h) fun hsafe => ?_
      exact ((safe_used_iff _).mp hsafe).2 hdeleted
  · have hactive : ¬ (s.critical c commandId operation answers).session.active = true := by
      rw [heq]
      exact Bool.false_ne_true
    have hiff := iff_of_false hactive fun h : s.session.active = true ∧
      ¬ (SetupAccepts operation answers.setup ∧ answers.teecError ≠ teecSuccess) => h.2 hcloses
    refine ⟨hs.afterUse (.invoke c) htci ?_ hnf hiff ?_ ?_ (.inl
      ⟨hcloses, [.returned (.invoke c) code], ?_, .inr ⟨code, rfl, hcode⟩⟩), hiff⟩
    · rw [heq]
      rfl
    · rw [heq]
      exact iff_of_false (fun h => h rfl) fun h => h hcloses
    · rw [heq]
      exact hs.apart_return c
    · rw [heq]
      rfl
  · have hiff : (s.critical c commandId operation answers).session.active = true ↔
        s.session.active = true ∧
          ¬ (SetupAccepts operation answers.setup ∧ answers.teecError ≠ teecSuccess) := by
      rw [heq]
      exact ⟨fun h => ⟨h, hopen⟩, And.left⟩
    refine ⟨hs.afterUse (.invoke c) htci ?_ hnf hiff ?_ ?_ (.inr ⟨hopen, code, ?_⟩), hiff⟩
    · rw [heq]
      rfl
    · rw [heq]
      exact iff_of_true (Option.some_ne_none tci) hopen
    · rw [heq]
      exact hs.apart_return c
    · rw [heq]
      rfl

theorem closeSession_inv {s : GpState} (hs : GpInv s) (hnf : s.faulted = false)
    (answers : CallAnswers) : GpInv (s.closeSession answers) ∧
      ¬ (s.closeSession answers).session.active = true := by
  by_cases hactive : s.session.active = true
  · have htci := hs.mapped.mp hactive
    have heq : s.closeSession answers =
        ({ s with session := ⟨false, none⟩,
                  events := s.events ++ [.used .close] ++ [.unmapped .close] } : GpState) := by
      obtain ⟨tci, htci⟩ := Option.ne_none_iff_exists'.mp htci
      simp only [GpState.closeSession, if_pos hactive, htci]
      split
      · rfl
      · rfl
    rw [heq]
    have hiff : (false = true) ↔ s.session.active = true ∧ ¬ True :=
      iff_of_false Bool.false_ne_true fun h => h.2 trivial
    refine ⟨hs.afterUse .close htci rfl hnf hiff ?_ hs.apart (.inl
      ⟨trivial, [], (List.append_nil _).symm, .inl rfl⟩), Bool.false_ne_true⟩
    exact iff_of_false (fun h => h rfl) fun h => h trivial
  · have heq : s.closeSession answers = s := if_neg hactive
    rw [heq]
    exact ⟨hs, hactive⟩

/-- **One step.** It keeps the invariant, and the session stays active unless the step closes
it. -/
theorem step_inv {s t : GpState} {a : GpAction} (hs : GpInv s)
    (h : gpMachine.step s a = some t) :
    GpInv t ∧ (t.session.active = true ↔ s.session.active = true ∧ ¬ a.Closes) := by
  cases a with
  | check c =>
    obtain ⟨hguard, h⟩ := Option.ite_none_left_eq_some.mp h
    obtain rfl := Option.some.inj h
    rw [not_or, not_or] at hguard
    obtain ⟨hinv, hactive⟩ := check_inv hs (Bool.eq_false_iff.mpr hguard.1) hguard.2.2
    exact ⟨hinv, hactive.trans ⟨fun h => ⟨h, id⟩, And.left⟩⟩
  | critical c commandId operation answers =>
    obtain ⟨hguard, h⟩ := Option.ite_none_left_eq_some.mp h
    obtain rfl := Option.some.inj h
    rw [not_or] at hguard
    exact critical_inv hs (Bool.eq_false_iff.mpr hguard.1) c commandId operation answers
  | closeSession answers =>
    obtain ⟨hguard, h⟩ := Option.ite_none_left_eq_some.mp h
    obtain rfl := Option.some.inj h
    rw [not_or] at hguard
    obtain ⟨hinv, hinactive⟩ := closeSession_inv hs (Bool.eq_false_iff.mpr hguard.1) answers
    exact ⟨hinv, iff_of_false hinactive fun h => h.2 trivial⟩

/-! ## Whole runs -/

theorem run_inv {s t : GpState} {as : List GpAction} (hs : GpInv s)
    (h : gpMachine.run s as = some t) :
    GpInv t ∧ (t.session.active = true ↔ s.session.active = true ∧ ∀ x ∈ as, ¬ x.Closes) := by
  induction as generalizing s with
  | nil =>
    cases h
    exact ⟨hs, by simp⟩
  | cons a as ih =>
    obtain ⟨u, hu, ht⟩ := gpMachine.run_cons_elim h
    obtain ⟨hinv, hactive⟩ := step_inv hs hu
    obtain ⟨hinv', hactive'⟩ := ih hinv ht
    refine ⟨hinv', ?_⟩
    rw [hactive', hactive, List.forall_mem_cons, and_assoc]

/-- Who waits has been waiting, or has just seen the session active. -/
theorem waiting_of_step {s t : GpState} {a : GpAction} (h : s.step a = some t) {c : Nat}
    (hc : c ∈ t.waiting) :
    c ∈ s.waiting ∨ (a = .check c ∧ s.session.active = true) := by
  cases a with
  | check d =>
    obtain ⟨-, h⟩ := Option.ite_none_left_eq_some.mp h
    obtain rfl := Option.some.inj h
    unfold GpState.check at hc
    by_cases hactive : s.session.active = true
    · rw [if_pos hactive] at hc
      rcases List.mem_cons.mp hc with rfl | hc
      · exact .inr ⟨rfl, hactive⟩
      · exact .inl hc
    · rw [if_neg hactive] at hc
      exact .inl (List.mem_filter.mp hc).1
  | critical d commandId operation answers =>
    obtain ⟨-, h⟩ := Option.ite_none_left_eq_some.mp h
    obtain rfl := Option.some.inj h
    left
    rcases critical_cases s d commandId operation answers with
      ⟨-, heq⟩ | ⟨-, -, code, -, heq⟩ | ⟨-, -, tci, code, heq⟩
    · rw [heq] at hc
      exact hc
    · rw [heq] at hc
      exact (List.mem_filter.mp hc).1
    · rw [heq] at hc
      exact (List.mem_filter.mp hc).1
  | closeSession answers =>
    obtain ⟨hguard, h⟩ := Option.ite_none_left_eq_some.mp h
    obtain rfl := Option.some.inj h
    left
    unfold GpState.closeSession at hc
    split at hc
    · dsimp only at hc
      split at hc
      · exact hc
      · split at hc
        · exact hc
        · exact hc
    · exact hc

/-- A process that has faulted takes no step. -/
theorem step_of_faulted {s : GpState} (hs : s.faulted = true) (a : GpAction) :
    s.step a = none := by
  cases a with
  | check c => exact if_pos (.inl hs)
  | critical c commandId operation answers => exact if_pos (.inl hs)
  | closeSession answers => exact if_pos (.inl hs)

theorem not_faulted_of_run {s t : GpState} {as : List GpAction}
    (h : gpMachine.run s as = some t) (ht : t.faulted = false) : s.faulted = false := by
  cases as with
  | nil =>
    cases h
    exact ht
  | cons a as =>
    obtain ⟨u, hu, -⟩ := gpMachine.run_cons_elim h
    by_contra hs
    have hnone : gpMachine.step s a = none := step_of_faulted (by simpa using hs) a
    rw [hnone] at hu
    cases hu

/-- Who waits has seen the session active. -/
theorem waiting_of_run {tci : Tci} {t : GpState} {as : List GpAction}
    (h : gpMachine.run (.opened tci) as = some t) {c : Nat} (hc : c ∈ t.waiting) :
    ∃ before mid u, as = before ++ .check c :: mid ∧
      gpMachine.run (.opened tci) before = some u ∧ u.session.active = true := by
  induction as using List.reverseRecOn generalizing t with
  | nil =>
    cases h
    cases hc
  | append_singleton as a ih =>
    obtain ⟨u, hu, ht⟩ := gpMachine.run_append.mp h
    obtain ⟨t', ht', hnil⟩ := gpMachine.run_cons_elim ht
    cases hnil
    rcases waiting_of_step ht' hc with hwaits | ⟨rfl, hactive⟩
    · obtain ⟨before, mid, v, rfl, hv, hactive⟩ := ih hu hwaits
      exact ⟨before, mid ++ [a], v, by simp, hv, hactive⟩
    · exact ⟨as, [], u, rfl, hu, hactive⟩

/-- What a process faults on: a call that gets the mutex when the page is gone. -/
theorem critical_of_faulted {tci : Tci} {t : GpState} {as : List GpAction}
    (h : gpMachine.run (.opened tci) as = some t) (hfault : t.faulted = true) :
    ∃ before c commandId operation answers u,
      as = before ++ [.critical c commandId operation answers] ∧
      gpMachine.run (.opened tci) before = some u ∧ c ∈ u.waiting ∧ u.session.tci = none := by
  -- a session that has faulted does no further step, so only the last one can have done it
  induction as using List.reverseRecOn generalizing t with
  | nil =>
    cases h
    cases hfault
  | append_singleton as a ih =>
    obtain ⟨u, hu, ht⟩ := gpMachine.run_append.mp h
    obtain ⟨t', ht', hnil⟩ := gpMachine.run_cons_elim ht
    cases hnil
    have hinv := (run_inv (opened_inv tci) hu).1
    cases a with
    | check c =>
      obtain ⟨hguard, ht'⟩ := Option.ite_none_left_eq_some.mp ht'
      obtain rfl := Option.some.inj ht'
      have hsame : (u.check c).faulted = u.faulted := by
        unfold GpState.check
        split <;> rfl
      rw [hsame] at hfault
      exact absurd (.inl hfault) hguard
    | critical c commandId operation answers =>
      obtain ⟨hguard, ht'⟩ := Option.ite_none_left_eq_some.mp ht'
      obtain rfl := Option.some.inj ht'
      rcases critical_cases u c commandId operation answers with
        ⟨htci, heq⟩ | ⟨-, -, code, -, heq⟩ | ⟨-, -, tci, code, heq⟩
      · rw [not_or, not_not] at hguard
        exact ⟨as, c, commandId, operation, answers, u, rfl, hu, hguard.2, htci⟩
      · rw [heq] at hfault
        exact absurd (.inl hfault) hguard
      · rw [heq] at hfault
        exact absurd (.inl hfault) hguard
    | closeSession answers =>
      obtain ⟨hguard, ht'⟩ := Option.ite_none_left_eq_some.mp ht'
      obtain rfl := Option.some.inj ht'
      rw [not_or] at hguard
      have hnf := Bool.eq_false_iff.mpr hguard.1
      have hafter := (closeSession_inv hinv hnf answers).1
      exfalso
      unfold GpState.closeSession at hfault
      split at hfault
      · rename_i hactive
        obtain ⟨tci, htci⟩ := Option.ne_none_iff_exists'.mp (hinv.mapped.mp hactive)
        simp only [htci] at hfault
        split at hfault
        · exact hguard.1 hfault
        · exact hguard.1 hfault
      · exact hguard.1 hfault

/-- **Concurrent use of a session.** In every run of any number of calls on an open session, with
any outcomes, nobody works on the page behind its deletion, and every call that comes too late
returns an error, exactly when no call that gets the mutex has seen the session closed since it
looked at `active`. -/
theorem safe_iff_nobodyWaits {tci : Tci} {as : List GpAction} {t : GpState}
    (h : gpMachine.run (.opened tci) as = some t) : Safe t ↔ NobodyWaits as := by
  have hinv := (run_inv (opened_inv tci) h).1
  rw [← hinv.safe]
  constructor
  · rintro hnf before c mid commandId operation answers after rfl
    obtain ⟨u, hu, h⟩ := gpMachine.run_append.mp h
    obtain ⟨v, hv, h⟩ := gpMachine.run_cons_elim h
    obtain ⟨w, hw, h⟩ := gpMachine.run_append.mp h
    obtain ⟨x, hx, h⟩ := gpMachine.run_cons_elim h
    have huinv := (run_inv (opened_inv tci) hu).1
    obtain ⟨hvinv, hvactive⟩ := step_inv huinv hv
    obtain ⟨hwinv, hwactive⟩ := run_inv hvinv hw
    have hxnf := not_faulted_of_run h hnf
    obtain ⟨hguard, hx⟩ := Option.ite_none_left_eq_some.mp hx
    obtain rfl := Option.some.inj hx
    -- the call has found the page, so the session was active all the while
    rcases critical_cases w c commandId operation answers with
      ⟨-, heq⟩ | ⟨htci, -⟩ | ⟨htci, -⟩
    · rw [heq] at hxnf
      cases hxnf
    · exact (hwactive.mp (hwinv.mapped.mpr htci)).2
    · exact (hwactive.mp (hwinv.mapped.mpr htci)).2
  · intro hwaits
    by_contra hfault
    obtain ⟨before, c, commandId, operation, answers, u, rfl, hu, hc, htci⟩ :=
      critical_of_faulted h (by simpa using hfault)
    obtain ⟨before, mid, v, rfl, hv, hactive⟩ := waiting_of_run hu hc
    obtain ⟨v', hv', hu⟩ := gpMachine.run_append.mp hu
    obtain rfl := Option.some.inj (hv.symm.trans hv')
    obtain ⟨w, hw, hu⟩ := gpMachine.run_cons_elim hu
    have hvinv := (run_inv (opened_inv tci) hv).1
    obtain ⟨hwinv, hwactive⟩ := step_inv hvinv hw
    obtain ⟨huinv, huactive⟩ := run_inv hwinv hu
    have hmid := hwaits before c mid commandId operation answers [] (by simp)
    have hstill : u.session.active = true := 
      huactive.mpr ⟨hwactive.mpr ⟨hactive, fun h => h⟩, hmid⟩
    exact huinv.mapped.mp hstill htci

/-- A call without an operation, on a TA that has died. -/
def deadTaAnswers : CallAnswers :=
  ⟨⟨false, none⟩, true, id, .comm 300⟩

/-- Two calls look at `active`; the TA dies in the first, and the second gets the mutex. -/
def deadTaRun : List GpAction :=
  [.check 1, .check 2, .critical 1 7 none deadTaAnswers, .critical 2 7 none deadTaAnswers]

/-- The second call finds no page. -/
theorem safe_not_deadTa : ∃ t, gpMachine.run (.opened .fresh) deadTaRun = some t ∧
    t.faulted = true ∧ ¬ Safe t := by
  have hrun : ∃ t, gpMachine.run (.opened .fresh) deadTaRun = some t ∧ t.faulted = true :=
    ⟨_, rfl, rfl⟩
  obtain ⟨t, ht, hfault⟩ := hrun
  refine ⟨t, ht, hfault, fun hsafe => ?_⟩
  have hnf := (run_inv (opened_inv .fresh) ht).1.safe.mpr hsafe
  rw [hfault] at hnf
  cases hnf

/-- One call after the other: the second is refused at its look. -/
theorem safe_oneByOne : ∃ t, gpMachine.run (.opened .fresh)
    [.check 1, .critical 1 7 none deadTaAnswers, .check 2] = some t ∧ Safe t := by
  have hrun : ∃ t, gpMachine.run (.opened .fresh)
      [.check 1, .critical 1 7 none deadTaAnswers, .check 2] = some t := ⟨_, rfl⟩
  obtain ⟨t, ht⟩ := hrun
  refine ⟨t, ht, (safe_iff_nobodyWaits ht).mpr ?_⟩
  rintro before c mid commandId operation answers after heq x hx
  -- the only call that gets the mutex does so right behind its look
  match before, mid, heq with
  | [], [], _ => cases hx
  | [], [_], heq => simp at heq
  | [], _ :: _ :: _, heq => simp at heq
  | [_], _, heq => simp at heq
  | [_, _], _, heq => simp at heq
  | _ :: _ :: _ :: _, _, heq => simp at heq

end McDaemon.Client.Gp
