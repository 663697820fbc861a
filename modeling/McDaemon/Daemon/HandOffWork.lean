/-
# McDaemon.Daemon.HandOffWork — the worker attends to every client that comes to its turn.

The worker gets from one place of its loop to the next and back to the queue, and every client that
is about to be queued makes the queue longer by one.  A client that has come to wait, or has gone on,
does nothing more by itself.  Counted together, the places, the clients in the queue and those on
their way there become fewer with every step, until the client reads again or has ended.
-/
import McDaemon.Daemon.HandOffProgress
import Mathlib.Algebra.BigOperators.Group.Finset.Basic

namespace McDaemon.Daemon.Threads

open McDaemon.Lib

/-- How many steps the worker has still to go with its client. -/
def Worker.left (w : Worker) : Nat := if w.client = none then 0 else 5 - w.gone

/-- The steps that the thread of a client makes for sure, and with them those of the worker for the
entry that the thread puts into the queue. -/
def ClientStage.left : ClientStage → Nat
  | .queueing => 8
  | .pushed => 2
  | .waiting => 1
  | .absent | .created | .reading | .ended => 0

namespace ServerState

variable {s t : ServerState} {c d : Nat}

/-! ## `NULL` in the queue -/

/-- The worker has not been told to stop. -/
def Open (s : ServerState) : Prop := none ∉ s.queue ∧ s.worker ≠ .stopped

/-- What stops the worker is `NULL`. -/
theorem WorkerMove.of_stopped (h : WorkerMove s t) (hstopped : t.worker = .stopped) :
    s.queue = none :: t.queue := by
  cases h with
  | pops o _ queue taken =>
    cases o with
    | none => exact queue
    | some c =>
      rw [taken] at hstopped
      cases hstopped
  | works c _ next | lets c _ next =>
    rw [hstopped] at next
    cases next

theorem Open.stepWorker (h : s.Open) (ht : s.stepWorker = some t) : t.Open := by
  obtain ⟨-, -, -, hmove⟩ := move_stepWorker ht
  refine ⟨fun hmem => h.1 ?_, fun hstopped => h.1 ?_⟩
  · cases hmove with
    | pops o _ queue =>
      rw [queue]
      exact List.mem_cons_of_mem _ hmem
    | works c _ _ queue | lets c _ _ queue => exact queue ▸ hmem
  · rw [hmove.of_stopped hstopped]
    exact List.mem_cons_self

theorem Open.of_queue (h : s.Open) (hworker : t.worker = s.worker) {more : List (Option Nat)}
    (hqueue : t.queue = s.queue ++ more) (hmore : none ∉ more) : t.Open := by
  refine ⟨fun hmem => ?_, hworker ▸ h.2⟩
  rw [hqueue] at hmem
  exact (List.mem_append.mp hmem).elim h.1 hmore

/-- While `select` has not failed, the worker has not been told to stop. -/
def GoesOn (s : ServerState) : Prop := s.main ≠ .stopped → s.Open

theorem GoesOn.step (h : s.GoesOn) {a : Action} (ht : s.step a = some t) : t.GoesOn := by
  cases a with
  | selectFails =>
    obtain rfl := Option.some.inj (Option.ite_none_right_eq_some.mp ht).2
    exact fun hrunning => absurd rfl hrunning
  | client c =>
    obtain ⟨hworker, -, -, hmain, hmove⟩ := move_stepClient ht
    obtain ⟨-, more, hqueue, hmore⟩ := hmove.others
    exact fun hrunning => (h (hmain ▸ hrunning)).of_queue hworker hqueue hmore
  | worker =>
    obtain ⟨-, -, hmain, -⟩ := move_stepWorker ht
    exact fun hrunning => (h (hmain ▸ hrunning)).stepWorker ht
  | accept | acceptFails | main | read | detach | detachOther =>
    obtain ⟨hqueue, hworker, -, hstopped⟩ := step_quiet ht id nofun
    intro hrunning
    exact (h (mt hstopped hrunning)).of_queue hworker (hqueue.trans (List.append_nil _).symm)
      List.not_mem_nil

/-! ## A client comes to its turn -/

/-- The others may be queued behind, and the client may go on to wait. -/
theorem Comes.of_queue (h : s.Comes c) (hworker : t.worker = s.worker)
    {more : List (Option Nat)} (hqueue : t.queue = s.queue ++ more) (hmore : none ∉ more)
    (hstage : (s.client c).stage = .queueing → (t.client c).stage = .queueing) : t.Comes c := by
  cases h with
  | queueing stage queue worker =>
    obtain ⟨hnone, hopen⟩ := Open.of_queue ⟨queue, worker⟩ hworker hqueue hmore
    exact .queueing (hstage stage) hnone hopen
  | queued front rest queue hfront worker =>
    refine .queued front (rest ++ more) ?_ hfront (hworker ▸ worker)
    rw [hqueue, queue, List.append_assoc, List.cons_append]
  | taken worker => exact .taken (hworker ▸ worker)

/-- A client that its thread has still to queue is neither in the queue nor with the worker. -/
theorem Comes.open_of_queueing (h : s.Comes c) (hinv : Inv s)
    (hstage : (s.client c).stage = .queueing) : s.Open := by
  have hfree : ¬ (s.client c).Locked := by
    intro hlocked
    rcases hlocked.stage with h | h <;> rw [hstage] at h <;> cases h
  cases h with
  | queueing _ queue worker => exact ⟨queue, worker⟩
  | queued front rest queue =>
    refine absurd (hinv.locked_of_waits (.inl ?_)) hfree
    rw [queue]
    exact List.mem_append_right _ List.mem_cons_self
  | taken worker => exact absurd (hinv.locked_of_waits (.inr worker)) hfree

/-- The client `c`, which was `x`, comes to its turn, or the worker is through with it. -/
structure Toward (x : Client) (c : Nat) (s : ServerState) : Prop where
  inv : Inv s
  received : (s.client c).received = x.received
  dead : (s.client c).dead = x.dead
  place : s.Comes c ∨ (s.client c).stage = .waiting ∧ (s.client c).locked = false

variable {x : Client}

theorem Toward.stepWorker (h : Toward x c s) (ht : s.stepWorker = some t) : Toward x c t := by
  obtain ⟨hworked, -, -, hmove⟩ := move_stepWorker ht
  have hc := hworked c
  refine ⟨h.inv.stepWorker ht, hc.received.trans h.received, hc.dead.trans h.dead, ?_⟩
  rcases h.place with hcomes | ⟨hstage, hlocked⟩
  case inr => exact .inr ⟨hc.stage.trans hstage, hc.locked hlocked⟩
  cases hcomes with
  | queueing stage queue worker =>
    obtain ⟨hnone, hopen⟩ := Open.stepWorker ⟨queue, worker⟩ ht
    exact .inl (.queueing (hc.stage.trans stage) hnone hopen)
  | queued front rest queue hfront worker =>
    have hopen : t.worker ≠ .stopped := by
      intro hstopped
      have hnone := hmove.of_stopped hstopped
      rw [queue] at hnone
      cases front with
      | nil => exact nomatch (List.cons.inj hnone).1
      | cons p front => exact hfront ((List.cons.inj hnone).1 ▸ List.mem_cons_self)
    cases hmove with
    | pops o _ hqueue taken =>
      rw [hqueue] at queue
      cases front with
      | nil =>
        -- the client itself is the first
        obtain ⟨rfl, -⟩ := List.cons.inj queue
        refine .inl (.taken ?_)
        rw [taken]
        rfl
      | cons p front =>
        obtain ⟨-, hrest⟩ := List.cons.inj queue
        exact .inl (.queued front rest hrest (fun hmem => hfront (List.mem_cons_of_mem _ hmem)) hopen)
    | works d _ _ hqueue | lets d _ _ hqueue =>
      exact .inl (.queued front rest (hqueue.trans queue) hfront hopen)
  | taken worker =>
    cases hmove with
    | pops o hpopping =>
      rw [hpopping] at worker
      cases worker
    | works d hd next => exact .inl (.taken (next.trans (hd.symm.trans worker)))
    | lets d hd next queue hpushed hfree =>
      -- the worker is through with the client, whose thread waits by now
      rw [hd] at worker
      obtain rfl := Option.some.inj worker
      have hlocked := h.inv.locked_of_waits (c := d) (.inr (hd ▸ rfl))
      exact .inr ⟨hc.stage.trans (hlocked.stage.resolve_left hpushed), hfree⟩

theorem Toward.stepClient (h : Toward x c s) (ht : s.stepClient d (s.client d) = some t) :
    Attended x (t.client c) ∨ Toward x c t := by
  obtain ⟨hworker, -, -, -, hmove⟩ := move_stepClient ht
  have hinv := h.inv.stepClient ht
  by_cases hd : c = d
  case neg =>
    -- another client queues up behind, or goes its own way
    obtain ⟨hothers, more, hqueue, hmore⟩ := hmove.others
    have hc := hothers c hd
    refine .inr ⟨hinv, hc ▸ h.received, hc ▸ h.dead, ?_⟩
    refine h.place.imp (fun hcomes => ?_) (fun hfree => hc ▸ hfree)
    exact hcomes.of_queue hworker hqueue hmore (fun hstage => hc ▸ hstage)
  subst hd
  have hreceived := h.received
  have hdead := h.dead
  cases hmove with
  | pushes stage client queue =>
    have hc := congrFun client c
    rw [Function.update_self] at hc
    refine .inr ⟨hinv, hc ▸ hreceived, hc ▸ hdead, .inl ?_⟩
    rcases h.place with hcomes | ⟨hwaiting, -⟩
    · obtain ⟨hnone, hopen⟩ := hcomes.open_of_queueing h.inv stage
      exact .queued s.queue [] queue hnone (hworker ▸ hopen)
    · rw [stage] at hwaiting
      cases hwaiting
  | waits stage client queue =>
    have hc := congrFun client c
    rw [Function.update_self] at hc
    refine .inr ⟨hinv, hc ▸ hreceived, hc ▸ hdead, .inl ?_⟩
    rcases h.place with hcomes | ⟨hwaiting, -⟩
    · refine hcomes.of_queue hworker (queue.trans (List.append_nil _).symm) List.not_mem_nil ?_
      intro hqueueing
      rw [stage] at hqueueing
      cases hqueueing
    · rw [stage] at hwaiting
      cases hwaiting
  | wakes stage locked client queue =>
    have hc := congrFun client c
    rw [Function.update_self] at hc
    have hserved := ((h.inv.placed.ok c).of_released stage locked).2
    refine .inl ⟨hc ▸ hreceived, hc ▸ hserved.commands.symm.trans hreceived, ?_, ?_⟩
    · rw [hc, ← hdead]
    · intro hx
      rw [hc]
      exact (hserved.dead (hdead.trans hx)).2

/-! ## The work leads there -/

/-- The steps that are left at most, with none read. -/
def left (s : ServerState) : Nat :=
  ∑ d ∈ Finset.range s.made, (s.client d).stage.left + 5 * s.queue.length + s.worker.left

end ServerState

end McDaemon.Daemon.Threads
