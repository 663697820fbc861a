/-
# McDaemon.Daemon.HandOffProgress — how long a command waits for the worker.

The place of a client in the queue, and whether the worker is busy, come to a number of rounds.  No
step makes it more: the others queue up behind, the worker takes the first, and when it lets go of a
client it has gone round once more.  What the worker and the threads of the clients can do is said
once, and what becomes of the queue follows from it.
-/
import McDaemon.Daemon.HandOffRuns

namespace McDaemon.Daemon.Threads

open McDaemon.Lib

/-- How many steps of its round the worker has gone. -/
def Worker.gone : Worker → Nat
  | .popping => 0
  | .chosen _ | .stopped => 1
  | .dropping _ => 2
  | .exiting _ | .handling _ _ _ => 3
  | .unlocking _ => 4

namespace ServerState

variable {s t : ServerState} {c d : Nat}

/-! ## What a step does to a client -/

/-- The commands of a client that have been handled stay so, and while it is locked none is read. -/
structure Keeps (s t : ServerState) (c : Nat) : Prop where
  handled : (s.client c).handled <+: (t.client c).handled
  received : (s.client c).Locked → (t.client c).received = (s.client c).received

theorem Keeps.of_eq (h : t.client c = s.client c) : Keeps s t c :=
  ⟨h ▸ List.prefix_refl _, fun _ => h ▸ rfl⟩

theorem keeps_put {d : Nat} {x : Client} (ht : t.client = Function.update s.client d x)
    (hhandled : (s.client d).handled <+: x.handled)
    (hreceived : (s.client d).Locked → x.received = (s.client d).received) : Keeps s t c := by
  by_cases hc : c = d
  · subst hc
    have hx : t.client c = x := by rw [ht, Function.update_self]
    exact ⟨hx ▸ hhandled, hx ▸ hreceived⟩
  · exact .of_eq (by rw [ht, Function.update_of_ne hc])

theorem keeps_read {d : Nat} (hstage : (s.client d).stage = .reading) (answer : Option UInt32) :
    Keeps s (s.read d (s.client d) answer) c := by
  have hfree : ¬ (s.client d).Locked := by
    intro hlocked
    rcases hlocked.stage with h | h <;> rw [hstage] at h <;> cases h
  cases answer with
  | none => exact keeps_put rfl (List.prefix_refl _) (fun _ => rfl)
  | some commandId =>
    show Keeps s (ite _ _ _) c
    by_cases hnotify : commandId = DrvCommand.notify.commandId
    · rw [if_pos hnotify]
      exact keeps_put rfl (List.prefix_refl _) (fun _ => rfl)
    · rw [if_neg hnotify]
      exact keeps_put rfl (List.prefix_refl _) (fun hlocked => absurd hlocked hfree)

theorem keeps_stepClient {d : Nat} (ht : s.stepClient d (s.client d) = some t) : Keeps s t c := by
  unfold ServerState.stepClient at ht
  cases hstage : (s.client d).stage with
  | queueing | pushed =>
    rw [hstage] at ht
    obtain rfl := Option.some.inj ht
    exact keeps_put rfl (List.prefix_refl _) (fun _ => rfl)
  | waiting =>
    rw [hstage] at ht
    obtain rfl := Option.some.inj (Option.ite_none_left_eq_some.mp ht).2
    exact keeps_put rfl (List.prefix_refl _) (fun _ => rfl)
  | absent | created | reading | ended =>
    rw [hstage] at ht
    cases ht

theorem keeps_stepWorker (ht : s.stepWorker = some t) : Keeps s t c := by
  unfold ServerState.stepWorker at ht
  cases hworker : s.worker with
  | popping =>
    rw [hworker] at ht
    cases hqueue : s.queue with
    | nil =>
      rw [hqueue] at ht
      cases ht
    | cons o queue =>
      rw [hqueue] at ht
      cases o with
      | none | some d =>
        obtain rfl := Option.some.inj ht
        exact .of_eq rfl
  | handling d conn commandId =>
    rw [hworker] at ht
    obtain rfl := Option.some.inj ht
    exact keeps_put rfl (List.prefix_append _ _) (fun _ => rfl)
  | chosen d | dropping d | exiting d =>
    rw [hworker] at ht
    obtain rfl := Option.some.inj ht
    exact keeps_put rfl (List.prefix_refl _) (fun _ => rfl)
  | unlocking d =>
    rw [hworker] at ht
    obtain rfl := Option.some.inj (Option.ite_none_left_eq_some.mp ht).2
    exact keeps_put rfl (List.prefix_refl _) (fun _ => rfl)
  | stopped =>
    rw [hworker] at ht
    cases ht

theorem keeps_stepMain {ok : Bool} (ht : s.stepMain ok = some t) : Keeps s t c := by
  unfold ServerState.stepMain at ht
  cases hmain : s.main with
  | starting d =>
    rw [hmain] at ht
    obtain rfl := Option.some.inj ht
    exact keeps_put rfl (List.prefix_refl _) (fun _ => rfl)
  | reaping rest =>
    rw [hmain] at ht
    cases rest with
    | nil =>
      obtain rfl := Option.some.inj ht
      exact .of_eq rfl
    | cons d rest =>
      obtain rfl := Option.some.inj ht
      refine keeps_put (x := s.client d) ?_ (List.prefix_refl _) (fun _ => rfl)
      unfold ServerState.put
      split <;> rfl
  | joining d rest =>
    rw [hmain] at ht
    obtain rfl := Option.some.inj (Option.ite_none_right_eq_some.mp ht).2
    exact .of_eq rfl
  | selecting | stopped =>
    rw [hmain] at ht
    cases ht

theorem keeps_detachConnection (conn : Nat) : Keeps s (s.detachConnection conn) c := by
  cases hfind : s.clients.find? (fun c => (s.client c).connection == some conn) with
  | none =>
    refine .of_eq ?_
    unfold ServerState.detachConnection
    rw [hfind]
  | some f =>
    refine keeps_put (x := { s.client f with connection := none }) ?_ (List.prefix_refl _)
      (fun _ => rfl)
    unfold ServerState.detachConnection
    rw [hfind]

theorem keeps_step (h : Inv s) {a : Action} (ht : s.step a = some t) (c : Nat) :
    Keeps s t c := by
  cases a with
  | accept commandId locked =>
    obtain rfl := Option.some.inj (Option.ite_none_right_eq_some.mp ht).2
    have habsent := h.alive.made s.made (Nat.le_refl _)
    refine keeps_put rfl ?_ (fun _ => ?_) <;> rw [habsent]
    · exact List.prefix_refl _
    · rfl
  | acceptFails | selectFails =>
    obtain rfl := Option.some.inj (Option.ite_none_right_eq_some.mp ht).2
    exact .of_eq rfl
  | main ok => exact keeps_stepMain ht
  | read d answer =>
    obtain ⟨hstage, ht⟩ := Option.ite_none_right_eq_some.mp ht
    obtain rfl := Option.some.inj ht
    exact keeps_read hstage _
  | client d => exact keeps_stepClient ht
  | worker => exact keeps_stepWorker ht
  | detach =>
    obtain ⟨-, conn, -, -, rfl⟩ := step_detach ht
    exact keeps_detachConnection conn
  | detachOther =>
    obtain rfl := Option.some.inj (Option.ite_none_right_eq_some.mp ht).2
    exact .of_eq rfl

/-! ## What a step of the worker does -/

/-- What the worker does to a client changes neither what it has read nor where its thread is. -/
structure Worked (x y : Client) : Prop where
  stage : y.stage = x.stage
  received : y.received = x.received
  dead : y.dead = x.dead
  locked : x.locked = false → y.locked = false

/-- The worker takes the first of the queue, goes on with its client, or lets go of it. -/
inductive WorkerMove (s t : ServerState) : Prop
  | pops (o : Option Nat) (worker : s.worker = .popping) (queue : s.queue = o :: t.queue)
      (taken : t.worker = o.elim .stopped .chosen) (rounds : t.rounds = s.rounds)
  | works (c : Nat) (worker : s.worker.client = some c) (next : t.worker.client = some c)
      (queue : t.queue = s.queue) (gone : s.worker.gone < t.worker.gone)
      (rounds : t.rounds = s.rounds)
  | lets (c : Nat) (worker : s.worker = .unlocking c) (next : t.worker = .popping)
      (queue : t.queue = s.queue) (stage : (s.client c).stage ≠ .pushed)
      (locked : (t.client c).locked = false) (rounds : t.rounds = s.rounds + 1)

theorem worked_put {x : Client} (ht : t.client = Function.update s.client d x)
    (hx : Worked (s.client d) x) (c : Nat) : Worked (s.client c) (t.client c) := by
  rw [ht]
  by_cases hc : c = d
  · subst hc
    rw [Function.update_self]
    exact hx
  · rw [Function.update_of_ne hc]
    exact ⟨rfl, rfl, rfl, id⟩

theorem move_stepWorker (ht : s.stepWorker = some t) :
    (∀ c, Worked (s.client c) (t.client c)) ∧ t.made = s.made ∧ t.main = s.main ∧
      WorkerMove s t := by
  unfold ServerState.stepWorker at ht
  cases hworker : s.worker with
  | popping =>
    rw [hworker] at ht
    cases hqueue : s.queue with
    | nil =>
      rw [hqueue] at ht
      cases ht
    | cons o queue =>
      rw [hqueue] at ht
      cases o with
      | none | some d =>
        obtain rfl := Option.some.inj ht
        exact ⟨fun _ => ⟨rfl, rfl, rfl, id⟩, rfl, rfl, .pops _ hworker hqueue rfl rfl⟩
  | chosen d =>
    rw [hworker] at ht
    obtain rfl := Option.some.inj ht
    -- it keeps the client, whichever way it goes on
    have hnext : ∀ (p q : Prop) [Decidable p] [Decidable q] (conn : Option Nat) (commandId : UInt32),
        (if p then if q then Worker.exiting d else .dropping d
          else .handling d conn commandId).client = some d ∧
        (Worker.chosen d).gone < (if p then if q then Worker.exiting d else .dropping d
          else .handling d conn commandId).gone := by
      intro p q _ _ conn commandId
      split
      · split <;> exact ⟨rfl, by simp only [Worker.gone]; omega⟩
      · exact ⟨rfl, by simp only [Worker.gone]; omega⟩
    refine ⟨worked_put rfl ⟨rfl, rfl, rfl, id⟩, rfl, rfl,
      .works d (by rw [hworker]; rfl) (hnext _ _ _ _).1 rfl ?_ rfl⟩
    rw [hworker]
    exact (hnext _ _ _ _).2
  | dropping d | exiting d | handling d conn commandId =>
    rw [hworker] at ht
    obtain rfl := Option.some.inj ht
    refine ⟨worked_put rfl ⟨rfl, rfl, rfl, id⟩, rfl, rfl,
      .works d (by rw [hworker]; rfl) rfl rfl ?_ rfl⟩
    rw [hworker]
    exact Nat.lt_succ_self _
  | unlocking d =>
    rw [hworker] at ht
    obtain ⟨hstage, ht⟩ := Option.ite_none_left_eq_some.mp ht
    obtain rfl := Option.some.inj ht
    refine ⟨worked_put rfl ⟨rfl, rfl, rfl, fun _ => rfl⟩, rfl, rfl,
      .lets d hworker rfl rfl hstage ?_ rfl⟩
    exact congrArg Client.locked (Function.update_self d _ s.client)
  | stopped =>
    rw [hworker] at ht
    cases ht

/-! ## What a step of a client's thread does -/

/-- The thread queues its client, comes to wait, or goes on. -/
inductive ClientMove (s t : ServerState) (c : Nat) : Prop
  | pushes (stage : (s.client c).stage = .queueing)
      (client : t.client = Function.update s.client c { s.client c with stage := .pushed })
      (queue : t.queue = s.queue ++ [some c])
  | waits (stage : (s.client c).stage = .pushed)
      (client : t.client =
        Function.update s.client c { s.client c with locked := true, stage := .waiting })
      (queue : t.queue = s.queue)
  | wakes (stage : (s.client c).stage = .waiting) (locked : (s.client c).locked = false)
      (client : t.client = Function.update s.client c
        { s.client c with stage := if (s.client c).dead then .ended else .reading })
      (queue : t.queue = s.queue)

theorem move_stepClient (ht : s.stepClient c (s.client c) = some t) :
    t.worker = s.worker ∧ t.rounds = s.rounds ∧ t.made = s.made ∧ t.main = s.main ∧
      ClientMove s t c := by
  unfold ServerState.stepClient at ht
  cases hstage : (s.client c).stage with
  | queueing =>
    rw [hstage] at ht
    obtain rfl := Option.some.inj ht
    exact ⟨rfl, rfl, rfl, rfl, .pushes hstage rfl rfl⟩
  | pushed =>
    rw [hstage] at ht
    obtain rfl := Option.some.inj ht
    exact ⟨rfl, rfl, rfl, rfl, .waits hstage rfl rfl⟩
  | waiting =>
    rw [hstage] at ht
    obtain ⟨hlocked, ht⟩ := Option.ite_none_left_eq_some.mp ht
    obtain rfl := Option.some.inj ht
    exact ⟨rfl, rfl, rfl, rfl, .wakes hstage (Bool.eq_false_iff.mpr hlocked) rfl rfl⟩
  | absent | created | reading | ended =>
    rw [hstage] at ht
    cases ht

/-- The others are left alone, and no `NULL` is put into the queue. -/
theorem ClientMove.others (h : ClientMove s t d) :
    (∀ c, c ≠ d → t.client c = s.client c) ∧ ∃ more, t.queue = s.queue ++ more ∧ none ∉ more := by
  cases h with
  | pushes _ client queue =>
    refine ⟨fun c hc => ?_, [some d], queue, by simp⟩
    rw [client, Function.update_of_ne hc]
  | waits _ client queue | wakes _ _ client queue =>
    refine ⟨fun c hc => ?_, [], by rw [queue, List.append_nil], List.not_mem_nil⟩
    rw [client, Function.update_of_ne hc]

/-! ## What the other threads leave alone -/

theorem stepMain_keeps {ok : Bool} (ht : s.stepMain ok = some t) :
    s.main ≠ .stopped ∧ t.queue = s.queue ∧ t.worker = s.worker ∧ t.rounds = s.rounds := by
  unfold ServerState.stepMain at ht
  cases hmain : s.main with
  | starting d =>
    rw [hmain] at ht
    obtain rfl := Option.some.inj ht
    exact ⟨nofun, rfl, rfl, rfl⟩
  | reaping rest =>
    rw [hmain] at ht
    cases rest with
    | nil =>
      obtain rfl := Option.some.inj ht
      exact ⟨nofun, rfl, rfl, rfl⟩
    | cons d rest =>
      obtain rfl := Option.some.inj ht
      refine ⟨nofun, ?_⟩
      unfold ServerState.put
      split <;> exact ⟨rfl, rfl, rfl⟩
  | joining d rest =>
    rw [hmain] at ht
    obtain rfl := Option.some.inj (Option.ite_none_right_eq_some.mp ht).2
    exact ⟨nofun, rfl, rfl, rfl⟩
  | selecting | stopped =>
    rw [hmain] at ht
    cases ht

theorem read_keeps (c : Nat) (x : Client) (answer : Option UInt32) :
    (s.read c x answer).queue = s.queue ∧ (s.read c x answer).worker = s.worker ∧
      (s.read c x answer).rounds = s.rounds ∧ (s.read c x answer).main = s.main := by
  unfold ServerState.read
  split
  · exact ⟨rfl, rfl, rfl, rfl⟩
  · split <;> exact ⟨rfl, rfl, rfl, rfl⟩

/-- The queue and the worker are left alone by all but the worker, the threads that queue their
clients, and the end of the main thread. -/
theorem step_quiet {a : Action} (ht : s.step a = some t) (hworks : ¬ Works a)
    (hselect : a ≠ .selectFails) : t.queue = s.queue ∧ t.worker = s.worker ∧ t.rounds = s.rounds ∧
      (s.main = .stopped → t.main = .stopped) := by
  cases a with
  | accept | acceptFails =>
    obtain ⟨hmain, ht⟩ := Option.ite_none_right_eq_some.mp ht
    obtain rfl := Option.some.inj ht
    refine ⟨rfl, rfl, rfl, fun hstopped => ?_⟩
    rw [hmain] at hstopped
    cases hstopped
  | selectFails => exact absurd rfl hselect
  | main ok =>
    obtain ⟨hmain, hqueue, hworker, hrounds⟩ := stepMain_keeps ht
    exact ⟨hqueue, hworker, hrounds, fun hstopped => absurd hstopped hmain⟩
  | read c answer =>
    obtain rfl := Option.some.inj (Option.ite_none_right_eq_some.mp ht).2
    obtain ⟨hqueue, hworker, hrounds, hmain⟩ := read_keeps (s := s) c (s.client c)
      (if (s.client c).connection = none then none else answer)
    exact ⟨hqueue, hworker, hrounds, hmain.trans⟩
  | client | worker => exact absurd trivial hworks
  | detach =>
    obtain ⟨-, conn, -, -, rfl⟩ := step_detach ht
    exact ⟨rfl, rfl, rfl, id⟩
  | detachOther =>
    obtain rfl := Option.some.inj (Option.ite_none_right_eq_some.mp ht).2
    exact ⟨rfl, rfl, rfl, id⟩

/-! ## What a step does to the queue -/

/-- The worker stays where it is, or takes the first of the queue, or lets go of its client. -/
inductive Turn (s t : ServerState) : Prop
  | stays (more : List (Option Nat)) (queue : t.queue = s.queue ++ more)
      (worker : t.worker.client = s.worker.client) (rounds : t.rounds = s.rounds)
  | takes (o : Option Nat) (worker : s.worker.client = none) (queue : s.queue = o :: t.queue)
      (taken : t.worker.client = o) (rounds : t.rounds = s.rounds)
  | lets (c : Nat) (worker : s.worker = .unlocking c) (queue : t.queue = s.queue)
      (free : t.worker.client = none) (rounds : t.rounds = s.rounds + 1)

theorem Turn.of_eq (hqueue : t.queue = s.queue) (hworker : t.worker.client = s.worker.client)
    (hrounds : t.rounds = s.rounds) : Turn s t :=
  .stays [] (by rw [hqueue, List.append_nil]) hworker hrounds

theorem turn_stepWorker (ht : s.stepWorker = some t) : Turn s t := by
  obtain ⟨-, -, -, hmove⟩ := move_stepWorker ht
  cases hmove with
  | pops o worker queue taken rounds =>
    refine .takes o (by rw [worker]; rfl) queue ?_ rounds
    rw [taken]
    cases o <;> rfl
  | works c worker next queue _ rounds => exact .of_eq queue (next.trans worker.symm) rounds
  | lets c worker next queue _ _ rounds => exact .lets c worker queue (by rw [next]; rfl) rounds

theorem turn_step {a : Action} (ht : s.step a = some t) : Turn s t := by
  cases a with
  | selectFails =>
    obtain rfl := Option.some.inj (Option.ite_none_right_eq_some.mp ht).2
    exact .stays [none] rfl rfl rfl
  | client c =>
    obtain ⟨hworker, hrounds, -, -, hmove⟩ := move_stepClient ht
    obtain ⟨-, more, hqueue, -⟩ := hmove.others
    exact .stays more hqueue (congrArg Worker.client hworker) hrounds
  | worker => exact turn_stepWorker ht
  | accept | acceptFails | main | read | detach | detachOther =>
    obtain ⟨hqueue, hworker, hrounds, -⟩ := step_quiet ht id nofun
    exact .of_eq hqueue (congrArg Worker.client hworker) hrounds

/-! ## How long a command waits -/

/-- The rounds that the worker goes until it is free. -/
def busy (s : ServerState) : Nat := if s.worker.client = none then 0 else 1

/-- The commands `R` of a client have been handled, or will have been when the worker has gone `due`
rounds: the client is at some place in the queue, or the worker has got it. -/
inductive Due (R : List UInt32) (c due : Nat) (s : ServerState) : Prop
  | handled (handled : R <+: (s.client c).handled)
  | queued (k : Nat) (place : s.queue[k]? = some (some c)) (received : (s.client c).received = R)
      (rounds : s.rounds + k + s.busy + 1 ≤ due)
  | taken (worker : s.worker.client = some c) (received : (s.client c).received = R)
      (rounds : s.rounds + 1 ≤ due)

theorem Inv.locked_of_waits (h : Inv s) (hwaits : s.Waits c) : (s.client c).Locked :=
  (h.placed.ok c).locked (roleOf_ne_away.mpr hwaits)

/-- When the worker lets go of a client, the commands of the client have been handled. -/
theorem Inv.handled_of_unlocking (h : Inv s) (hworker : s.worker = .unlocking c) :
    (s.client c).received = (s.client c).handled := by
  have hok := h.worker_ok hworker rfl (r := .unlocking) (if_pos rfl)
  cases hok with
  | unlocking _ served => exact served.commands

variable {R : List UInt32} {due : Nat}

theorem Due.step (h : Inv s) (hdue : Due R c due s) {a : Action} (ht : s.step a = some t) :
    Due R c due t := by
  have hkeeps := keeps_step h ht c
  cases hdue with
  | handled handled => exact .handled (handled.trans hkeeps.handled)
  | queued k place received rounds =>
    have hlocked := h.locked_of_waits (.inl (List.mem_of_getElem? place))
    have hreceived := (hkeeps.received hlocked).trans received
    cases turn_step ht with
    | stays more queue worker rounds' =>
      refine .queued k ?_ hreceived ?_
      · rw [queue]
        exact (List.getElem?_append_left (List.getElem?_eq_some_iff.mp place).1).trans place
      · unfold busy at rounds ⊢
        rw [worker]
        omega
    | takes o worker queue taken rounds' =>
      have hbusy : s.busy = 0 := if_pos worker
      rw [queue] at place
      cases k with
      | zero =>
        -- the worker has taken the client itself
        refine .taken (taken.trans (Option.some.inj place)) hreceived ?_
        omega
      | succ k =>
        refine .queued k place hreceived ?_
        unfold busy
        split <;> omega
    | lets d worker queue free rounds' =>
      have hbusy : s.busy = 1 := if_neg (by rw [worker]; exact nofun)
      have hfree : t.busy = 0 := if_pos free
      refine .queued k (queue ▸ place) hreceived ?_
      omega
  | taken worker received rounds =>
    have hlocked := h.locked_of_waits (.inr worker)
    have hreceived := (hkeeps.received hlocked).trans received
    cases turn_step ht with
    | stays more queue worker' rounds' =>
      exact .taken (worker'.trans worker) hreceived (by omega)
    | takes o worker' queue taken rounds' =>
      rw [worker'] at worker
      cases worker
    | lets d worker' queue free rounds' =>
      -- the worker is through with the client
      rw [worker'] at worker
      obtain rfl := Option.some.inj worker
      have hhandled := h.handled_of_unlocking worker'
      refine .handled ?_
      rw [← received, hhandled]
      exact hkeeps.handled

theorem goes (s : ServerState) : s.Goes := by
  intro hnone
  unfold stepWorker at hnone
  cases hworker : s.worker with
  | popping =>
    rw [hworker] at hnone
    cases hqueue : s.queue with
    | nil => exact .inr (.inl ⟨rfl, rfl⟩)
    | cons o queue =>
      rw [hqueue] at hnone
      cases o <;> cases hnone
  | unlocking c =>
    rw [hworker] at hnone
    by_cases hpushed : (s.client c).stage = .pushed
    · refine .inr (.inr ⟨c, rfl, ?_⟩)
      unfold stepClient
      rw [hpushed]
      exact nofun
    · exact absurd ((if_neg hpushed).symm.trans hnone) nofun
  | stopped => exact .inl rfl
  | chosen c | dropping c | exiting c | handling c conn commandId =>
    rw [hworker] at hnone
    cases hnone

end ServerState

end McDaemon.Daemon.Threads
