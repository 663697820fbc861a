/-
# McDaemon.Lib.Exchange — threads that exchange commands over one shared buffer.

A thread that has a command for its peer writes it into the buffer, notifies the peer, waits for
the peer's signal and reads the response from the same buffer.  Mutexes are to keep the exchanges
apart: each kind of command has a mutex that guards it.  A `Script` is what a handler does with
the mutexes and the buffer, statement by statement, and `Script.check` types scripts: mutexes are
released in order, an exchange is never left half-way, and a command is written only under its
guard.

What typed scripts buy: a thread in an exchange holds the guard of its command.  So the only
commands that can get in each other's way are those with different guards, and a run is free of
clashes exactly when no command is written while an exchange with another guard is in flight.
-/
import Mathlib.Data.List.Basic
import Mathlib.Logic.Function.Basic
import Mathlib.Tactic.SplitIfs
import McDaemon.Lib.Machine

namespace McDaemon.Lib

universe u v w x

/-! ## Scripts -/

/-- What is left of a handler, as far as mutexes and the buffer go. -/
inductive Script (M : Type u) (C : Type v)
  | done
  | lock (m : M) (k : Script M C)
  | unlock (m : M) (k : Script M C)
  | write (c : C) (k : Script M C)
  | notify (k : Script M C)
  | await (answered failed : Script M C)
  | read (k : Script M C)
  | giveUp (k : Script M C)
  | branch (a b : Script M C)
  | exchanges (c : C) (k : Script M C)

/-- How far an exchange has come. -/
inductive Stage
  | written
  | sent
  | answered
  | failed
deriving DecidableEq, Repr

namespace Script

variable {M : Type u} {C : Type v}

/-- One exchange: the response is read when the wait succeeds, and given up when it fails. -/
def exchange (c : C) (k : Script M C) : Script M C :=
  .write c (.notify (.await (.read k) (.giveUp k)))

variable [DecidableEq M] (guard : C → M)

/-- The typing of scripts, from the mutexes held (the newest first) and the exchange in flight. -/
def check : List M → Option (C × Stage) → Script M C → Bool
  | held, p, .done => held.isEmpty && p.isNone
  | held, p, .lock m k => p.isNone && check (m :: held) none k
  | held, p, .unlock m k => p.isNone && held.head? == some m && check held.tail none k
  | held, p, .write c k => p.isNone && decide (guard c ∈ held) && check held (some (c, .written)) k
  | held, p, .notify k =>
    match p with
    | some (c, .written) => check held (some (c, .sent)) k
    | _ => false
  | held, p, .await a f =>
    match p with
    | some (c, .sent) => check held (some (c, .answered)) a && check held (some (c, .failed)) f
    | _ => false
  | held, p, .read k =>
    match p with
    | some (_, .answered) => check held none k
    | _ => false
  | held, p, .giveUp k =>
    match p with
    | some (_, .written) | some (_, .failed) => check held none k
    | _ => false
  | held, p, .branch a b => check held p a && check held p b
  | held, p, .exchanges c k => p.isNone && decide (guard c ∈ held) && check held none k

variable {guard} {held : List M} {p : Option (C × Stage)} {m : M} {c : C} {k a b : Script M C}

attribute [local simp] check

theorem check_lock : check guard held p (.lock m k) = true ↔
    p = none ∧ check guard (m :: held) none k = true := by
  simp [check]

theorem check_unlock (h : check guard held p (.unlock m k) = true) :
    p = none ∧ ∃ rest, held = m :: rest ∧ check guard rest none k = true := by
  simp only [check, Bool.and_eq_true, Option.isNone_iff_eq_none, beq_iff_eq] at h
  obtain ⟨⟨hp, hhead⟩, hk⟩ := h
  cases held with
  | nil => cases hhead
  | cons n rest =>
    obtain rfl : n = m := Option.some.inj hhead
    exact ⟨hp, rest, rfl, hk⟩

theorem check_write : check guard held p (.write c k) = true ↔
    p = none ∧ guard c ∈ held ∧ check guard held (some (c, .written)) k = true := by
  simp [check, and_assoc]

theorem check_notify (h : check guard held p (.notify k) = true) :
    ∃ c, p = some (c, .written) ∧ check guard held (some (c, .sent)) k = true := by
  unfold check at h
  split at h
  · exact ⟨_, rfl, h⟩
  · cases h

theorem check_await (h : check guard held p (.await a b) = true) :
    ∃ c, p = some (c, .sent) ∧ check guard held (some (c, .answered)) a = true ∧
      check guard held (some (c, .failed)) b = true := by
  unfold check at h
  split at h
  · rw [Bool.and_eq_true] at h
    exact ⟨_, rfl, h⟩
  · cases h

theorem check_read (h : check guard held p (.read k) = true) :
    ∃ c, p = some (c, .answered) ∧ check guard held none k = true := by
  unfold check at h
  split at h
  · exact ⟨_, rfl, h⟩
  · cases h

theorem check_giveUp (h : check guard held p (.giveUp k) = true) :
    ∃ c st, p = some (c, st) ∧ (st = .written ∨ st = .failed) ∧
      check guard held none k = true := by
  unfold check at h
  split at h
  · exact ⟨_, _, rfl, .inl rfl, h⟩
  · exact ⟨_, _, rfl, .inr rfl, h⟩
  · cases h

theorem check_branch : check guard held p (.branch a b) = true ↔
    check guard held p a = true ∧ check guard held p b = true := by
  simp [check]

theorem check_exchanges : check guard held p (.exchanges c k) = true ↔
    p = none ∧ guard c ∈ held ∧ check guard held none k = true := by
  simp [check, and_assoc]

theorem check_exchange : check guard held p (exchange c k) = true ↔
    p = none ∧ guard c ∈ held ∧ check guard held none k = true := by
  simp [exchange, check, and_assoc]

end Script

/-! ## The bus -/

/-- An exchange in flight: its command, its number, and how far it has come. -/
structure Exchange (C : Type v) where
  command : C
  serial : Nat
  stage : Stage

/-- An exchange as the typing of scripts sees it. -/
def Exchange.view {C : Type v} (e : Exchange C) : C × Stage := (e.command, e.stage)

/-- What the buffer holds: the command of exchange `serial`, or the response to it. -/
structure Slot where
  serial : Nat
  answered : Bool
deriving DecidableEq, Repr

/-- The threads, the mutexes, the buffer and the signals of one bus. -/
structure BusState (T : Type w) (M : Type u) (C : Type v) where
  script : T → Script M C
  owner : M → Option T
  exchange : T → Option (Exchange C)
  next : Nat
  buffer : Option Slot
  notified : Nat
  signals : Nat
  fault : Bool

/-- Requests with their scripts, the guard of each command, and which thread takes up which
request (the last argument says whether the peer has faulted). -/
structure Bus (T : Type w) (M : Type u) (C : Type v) (R : Type x) where
  guard : C → M
  script : R → Script M C
  takes : T → R → Bool → Bool

/-- A thread takes a request or executes its next statement, a wait ends without an answer, or
the peer answers. -/
inductive BusAction (T : Type w) (R : Type x)
  | start (t : T) (r : R)
  | advance (t : T) (choice : Bool)
  | silent (t : T)
  | exiting (t : T)
  | answer

namespace BusState

variable {T : Type w} {M : Type u} {C : Type v} {R : Type x}
variable [DecidableEq T] [DecidableEq M]

/-- All threads idle, all mutexes free, nothing sent. -/
def idle : BusState T M C where
  script := fun _ => .done
  owner := fun _ => none
  exchange := fun _ => none
  next := 0
  buffer := none
  notified := 0
  signals := 0
  fault := false

/-- Thread `t` continues with `k` and has `x` in flight. -/
def goto (s : BusState T M C) (t : T) (k : Script M C) (x : Option (Exchange C)) :
    BusState T M C :=
  { s with
    script := Function.update s.script t k
    exchange := Function.update s.exchange t x }

/-- Move the exchange of `t` on. -/
def staged (s : BusState T M C) (t : T) (st : Stage) : Option (Exchange C) :=
  (s.exchange t).map fun e => { e with stage := st }

/-- The next statement of thread `t`. -/
def advance (s : BusState T M C) (t : T) (choice : Bool) : Option (BusState T M C) :=
  match s.script t with
  | .done => none
  | .lock m k =>
    if s.owner m = none then
      some { s.goto t k (s.exchange t) with owner := Function.update s.owner m (some t) }
    else none
  | .unlock m k =>
    some { s.goto t k (s.exchange t) with owner := Function.update s.owner m none }
  | .write c k =>
    some { s.goto t k (some ⟨c, s.next, .written⟩) with
      next := s.next + 1, buffer := some ⟨s.next, false⟩ }
  | .notify k => some { s.goto t k (s.staged t .sent) with notified := s.notified + 1 }
  | .await a f =>
    if s.fault then some (s.goto t f (s.staged t .failed))
    else if s.signals = 0 then none
    else some { s.goto t a (s.staged t .answered) with signals := s.signals - 1 }
  | .read k => some (s.goto t k none)
  | .giveUp k => some (s.goto t k none)
  | .branch a b => some (s.goto t (if choice then a else b) (s.exchange t))
  | .exchanges c k =>
    some (s.goto t (if choice then .exchange c (.exchanges c k) else k) (s.exchange t))

/-- A wait that ends without an answer: the peer is silent for too long, which counts as a fault,
or the process is going down and the signal only ends the wait. -/
def abandon (s : BusState T M C) (t : T) (exiting : Bool) : Option (BusState T M C) :=
  match s.script t with
  | .await _ f =>
    if s.fault then none
    else if exiting then
      if s.signals = 0 then none
      else some { s.goto t f (s.staged t .failed) with signals := s.signals - 1 }
    else some { s.goto t f (s.staged t .failed) with fault := true }
  | _ => none

/-- The peer takes one notification and answers the command that it finds in the buffer. -/
def answer (s : BusState T M C) : Option (BusState T M C) :=
  if s.notified = 0 then none
  else some { s with
    notified := s.notified - 1
    signals := s.signals + 1
    buffer := s.buffer.map fun b => { b with answered := true } }

end BusState

namespace Bus

variable {T : Type w} {M : Type u} {C : Type v} {R : Type x}
variable [DecidableEq T] [DecidableEq M] (B : Bus T M C R)

def step (s : BusState T M C) : BusAction T R → Option (BusState T M C)
  | .start t r =>
    match s.script t with
    | .done => if B.takes t r s.fault then some (s.goto t (B.script r) (s.exchange t)) else none
    | _ => none
  | .advance t choice => s.advance t choice
  | .silent t => s.abandon t false
  | .exiting t => s.abandon t true
  | .answer => s.answer

/-- The machine of a bus, which starts with all threads idle. -/
def machine : Machine (BusState T M C) (BusAction T R) where
  init := fun s => s = .idle
  step := B.step

/-- The step does not cut into an exchange: a command is written while no other thread waits for
or has still to read a response, and the response read is the one to the reader's own command. -/
def Undisturbed (s : BusState T M C) : BusAction T R → Prop
  | .advance t _ =>
    match s.script t with
    | .write _ _ => ∀ u, u ≠ t → s.exchange u = none
    | .read _ => ∃ e, s.exchange t = some e ∧ s.buffer = some ⟨e.serial, true⟩
    | _ => True
  | _ => True

/-- The step does not write a command while an exchange with another guard is in flight. -/
def SameGuard (s : BusState T M C) : BusAction T R → Prop
  | .advance t _ =>
    match s.script t with
    | .write c _ => ∀ u e, u ≠ t → s.exchange u = some e → B.guard e.command = B.guard c
    | _ => True
  | _ => True

end Bus

namespace BusState

variable {T : Type w} {M : Type u} {C : Type v}

/-- The exchange of a thread as the typing of scripts sees it. -/
def phase (s : BusState T M C) (t : T) : Option (C × Stage) := (s.exchange t).map Exchange.view

theorem phase_eq_none {s : BusState T M C} {t : T} : s.phase t = none ↔ s.exchange t = none := by
  simp [phase]

theorem phase_eq_some {s : BusState T M C} {t : T} {c : C} {st : Stage} :
    s.phase t = some (c, st) ↔ ∃ n, s.exchange t = some ⟨c, n, st⟩ := by
  rw [phase, Option.map_eq_some_iff]
  constructor
  · rintro ⟨⟨c', n, st'⟩, he, heq⟩
    obtain ⟨rfl, rfl⟩ := Prod.mk.inj heq
    exact ⟨n, he⟩
  · rintro ⟨n, he⟩
    exact ⟨_, he, rfl⟩

/-- The scripts and exchanges of the threads other than `t` are untouched. -/
structure Beside (s s' : BusState T M C) (t : T) : Prop where
  script : ∀ u, u ≠ t → s'.script u = s.script u
  exchange : ∀ u, u ≠ t → s'.exchange u = s.exchange u

variable [DecidableEq T] (s : BusState T M C) {t u : T} {k : Script M C} {x : Option (Exchange C)}

@[simp] theorem goto_script : (s.goto t k x).script = Function.update s.script t k := rfl

@[simp] theorem goto_exchange : (s.goto t k x).exchange = Function.update s.exchange t x := rfl

@[simp] theorem goto_owner : (s.goto t k x).owner = s.owner := rfl

theorem Beside.of_goto {s s' : BusState T M C}
    (hscript : s'.script = Function.update s.script t k)
    (hexchange : s'.exchange = Function.update s.exchange t x) : s.Beside s' t where
  script := fun u hu => by rw [hscript, Function.update_of_ne hu]
  exchange := fun u hu => by rw [hexchange, Function.update_of_ne hu]

end BusState

/-! ## Lock discipline -/

namespace Bus

variable {T : Type w} {M : Type u} {C : Type v} {R : Type x} [DecidableEq M] {B : Bus T M C R}

/-- Thread `t` holds exactly the mutexes `held`, its script is well typed from there, and the
guard of its exchange is one of them. -/
structure Follows (B : Bus T M C R) (s : BusState T M C) (t : T) (held : List M) : Prop where
  nodup : held.Nodup
  owned : ∀ m, s.owner m = some t ↔ m ∈ held
  typed : (s.script t).check B.guard held (s.phase t) = true
  guarded : ∀ e, s.exchange t = some e → B.guard e.command ∈ held

/-- Every thread keeps the lock discipline. -/
def Disciplined (B : Bus T M C R) (s : BusState T M C) : Prop := ∀ t, ∃ held, B.Follows s t held

/-- A step of thread `t` that leaves the others' mutexes alone keeps their discipline. -/
theorem Disciplined.update {s s' : BusState T M C} (hd : B.Disciplined s) {t : T} {held : List M}
    (ht : B.Follows s' t held) (hbeside : s.Beside s' t)
    (howner : ∀ u, u ≠ t → ∀ m, s'.owner m = some u ↔ s.owner m = some u) :
    B.Disciplined s' := by
  intro u
  by_cases hu : u = t
  · exact ⟨held, hu ▸ ht⟩
  · obtain ⟨held', h⟩ := hd u
    refine ⟨held', h.nodup, fun m => (howner u hu m).trans (h.owned m), ?_, fun e he => ?_⟩
    · rw [hbeside.script u hu, BusState.phase, hbeside.exchange u hu]
      exact h.typed
    · rw [hbeside.exchange u hu] at he
      exact h.guarded e he

theorem Follows.lock {s s' : BusState T M C} {t : T} {held : List M} {m : M} {k : Script M C}
    (h : B.Follows s t held) (hs : s.script t = .lock m k) (hfree : s.owner m = none)
    (hs' : s'.script t = k) (hx : s'.exchange t = s.exchange t)
    (howner : s'.owner = Function.update s.owner m (some t)) :
    B.Follows s' t (m :: held) := by
  have htyped := h.typed
  rw [hs, Script.check_lock] at htyped
  have hnone := BusState.phase_eq_none.mp htyped.1
  refine ⟨?_, fun n => ?_, ?_, fun e he => ?_⟩
  · refine List.nodup_cons.mpr ⟨fun hmem => ?_, h.nodup⟩
    rw [(h.owned m).mpr hmem] at hfree
    cases hfree
  · rw [howner, List.mem_cons]
    by_cases hn : n = m
    · subst hn
      simp
    · rw [Function.update_of_ne hn, h.owned n]
      simp [hn]
  · rw [hs', BusState.phase, hx, hnone]
    exact htyped.2
  · rw [hx, hnone] at he
    cases he

theorem Follows.unlock {s r : BusState T M C} {t : T} {held : List M} {m : M} {k : Script M C}
    (h : B.Follows s t held) (hs : s.script t = .unlock m k)
    (hs' : r.script t = k) (hx : r.exchange t = s.exchange t)
    (howner : r.owner = Function.update s.owner m none) :
    s.owner m = some t ∧ ∃ rest, B.Follows r t rest := by
  have htyped := h.typed
  rw [hs] at htyped
  obtain ⟨hp, rest, rfl, hk⟩ := Script.check_unlock htyped
  have hnone := BusState.phase_eq_none.mp hp
  have hnodup := List.nodup_cons.mp h.nodup
  refine ⟨(h.owned m).mpr List.mem_cons_self, rest, hnodup.2, fun n => ?_, ?_, fun e he => ?_⟩
  · rw [howner]
    by_cases hn : n = m
    · subst hn
      simpa using hnodup.1
    · rw [Function.update_of_ne hn, h.owned n, List.mem_cons]
      simp [hn]
  · rw [hs', BusState.phase, hx, hnone]
    exact hk
  · rw [hx, hnone] at he
    cases he

theorem idle_disciplined (B : Bus T M C R) : B.Disciplined .idle := by
  intro t
  refine ⟨[], List.nodup_nil, fun m => ?_, rfl, fun e he => nomatch he⟩
  simp [BusState.idle]

variable [DecidableEq T]

/-- A statement that takes and releases no mutex goes from typed to typed. -/
theorem Follows.moves {s r : BusState T M C} {t : T} {held : List M} {k : Script M C}
    {x : Option (Exchange C)} (h : B.Follows s t held)
    (hscript : r.script = Function.update s.script t k)
    (hexchange : r.exchange = Function.update s.exchange t x) (howner : r.owner = s.owner)
    (htyped : k.check B.guard held (x.map Exchange.view) = true)
    (hguarded : ∀ e, x = some e → B.guard e.command ∈ held) :
    (∃ held', B.Follows r t held') ∧ s.Beside r t ∧
      ∀ u, u ≠ t → ∀ m, r.owner m = some u ↔ s.owner m = some u := by
  refine ⟨⟨held, h.nodup, fun m => ?_, ?_, fun e he => ?_⟩, .of_goto hscript hexchange,
    fun u _ m => by rw [howner]⟩
  · rw [howner]
    exact h.owned m
  · rw [BusState.phase, hscript, hexchange, Function.update_self, Function.update_self]
    exact htyped
  · rw [hexchange, Function.update_self] at he
    exact hguarded e he

/-- A statement that moves the thread's exchange on goes from typed to typed. -/
theorem Follows.moves_staged {s s' : BusState T M C} {t : T} {held : List M} {k : Script M C}
    {c : C} {st st' : Stage} (h : B.Follows s t held) (hp : s.phase t = some (c, st))
    (hscript : s'.script = Function.update s.script t k)
    (hexchange : s'.exchange = Function.update s.exchange t (s.staged t st'))
    (howner : s'.owner = s.owner) (htyped : k.check B.guard held (some (c, st')) = true) :
    (∃ held', B.Follows s' t held') ∧ s.Beside s' t ∧
      ∀ u, u ≠ t → ∀ m, s'.owner m = some u ↔ s.owner m = some u := by
  obtain ⟨n, hn⟩ := BusState.phase_eq_some.mp hp
  have hstaged : s.staged t st' = some ⟨c, n, st'⟩ := by
    rw [BusState.staged, hn]
    rfl
  rw [hstaged] at hexchange
  refine h.moves hscript hexchange howner htyped fun e he => ?_
  obtain rfl := Option.some.inj he
  exact h.guarded ⟨c, n, st⟩ hn

/-- The next statement of a thread that keeps the lock discipline: it still does, and nobody
else's mutexes change. -/
theorem Follows.advance {s s' : BusState T M C} {t : T} {held : List M} {choice : Bool}
    (h : B.Follows s t held) (hs : s.advance t choice = some s') :
    (∃ held', B.Follows s' t held') ∧ s.Beside s' t ∧
      ∀ u, u ≠ t → ∀ m, s'.owner m = some u ↔ s.owner m = some u := by
  have htyped := h.typed
  -- the check of a script leaves the check of what comes behind its first instruction
  unfold BusState.advance at hs
  cases hscript : s.script t with
  | done => rw [hscript] at hs; cases hs
  | lock m k =>
    simp only [hscript] at hs
    split at hs
    · rename_i hfree
      cases hs
      refine ⟨⟨_, h.lock hscript hfree (by simp) (by simp) rfl⟩, .of_goto rfl rfl,
        fun u hu n => ?_⟩
      by_cases hn : n = m
      · subst hn
        simp [hfree, Ne.symm hu]
      · simp [hn]
    · cases hs
  | unlock m k =>
    simp only [hscript] at hs
    cases hs
    obtain ⟨hmine, hrest⟩ := h.unlock (r := { s.goto t k (s.exchange t) with
      owner := Function.update s.owner m none }) hscript (by simp) (by simp) rfl
    refine ⟨hrest, .of_goto rfl rfl, fun u hu n => ?_⟩
    by_cases hn : n = m
    · subst hn
      simp [hmine, Ne.symm hu]
    · simp [hn]
  | write c k =>
    simp only [hscript] at hs
    cases hs
    rw [hscript, Script.check_write] at htyped
    refine h.moves rfl rfl rfl htyped.2.2 fun e he => ?_
    obtain rfl := Option.some.inj he
    exact htyped.2.1
  | notify k =>
    simp only [hscript] at hs
    cases hs
    rw [hscript] at htyped
    obtain ⟨c, hp, hk⟩ := Script.check_notify htyped
    exact h.moves_staged hp rfl rfl rfl hk
  | await a f =>
    simp only [hscript] at hs
    rw [hscript] at htyped
    obtain ⟨c, hp, ha, hf⟩ := Script.check_await htyped
    split at hs
    · cases hs
      exact h.moves_staged hp rfl rfl rfl hf
    · split at hs
      · cases hs
      · cases hs
        exact h.moves_staged hp rfl rfl rfl ha
  | read k =>
    simp only [hscript] at hs
    cases hs
    rw [hscript] at htyped
    obtain ⟨c, -, hk⟩ := Script.check_read htyped
    exact h.moves rfl rfl rfl hk fun e he => nomatch he
  | giveUp k =>
    simp only [hscript] at hs
    cases hs
    rw [hscript] at htyped
    obtain ⟨c, st, -, -, hk⟩ := Script.check_giveUp htyped
    exact h.moves rfl rfl rfl hk fun e he => nomatch he
  | branch a b =>
    simp only [hscript] at hs
    cases hs
    rw [hscript, Script.check_branch] at htyped
    refine h.moves rfl rfl rfl ?_ h.guarded
    cases choice
    · exact htyped.2
    · exact htyped.1
  | exchanges c k =>
    simp only [hscript] at hs
    cases hs
    rw [hscript, Script.check_exchanges] at htyped
    obtain ⟨hp, hmem, hk⟩ := htyped
    refine h.moves rfl rfl rfl ?_ h.guarded
    rw [show (s.exchange t).map Exchange.view = none from hp]
    cases choice
    · exact hk
    · refine Script.check_exchange.mpr ⟨rfl, hmem, ?_⟩
      exact Script.check_exchanges.mpr ⟨rfl, hmem, hk⟩

/-- A wait that ends without an answer keeps the lock discipline too. -/
theorem Follows.abandon {s s' : BusState T M C} {t : T} {held : List M} {exiting : Bool}
    (h : B.Follows s t held) (hs : s.abandon t exiting = some s') :
    (∃ held', B.Follows s' t held') ∧ s.Beside s' t ∧
      ∀ u, u ≠ t → ∀ m, s'.owner m = some u ↔ s.owner m = some u := by
  have htyped := h.typed
  unfold BusState.abandon at hs
  split at hs
  · rename_i a f hscript
    rw [hscript] at htyped
    obtain ⟨c, hp, -, hf⟩ := Script.check_await htyped
    split_ifs at hs
    · cases hs
      exact h.moves_staged hp rfl rfl rfl hf
    · cases hs
      exact h.moves_staged hp rfl rfl rfl hf
  · cases hs

/-- **Lock discipline.** A bus all of whose scripts are well typed keeps the discipline. -/
theorem Disciplined.step {s s' : BusState T M C} {a : BusAction T R} (hd : B.Disciplined s)
    (hscripts : ∀ r, (B.script r).check B.guard [] none = true) (hs : B.step s a = some s') :
    B.Disciplined s' := by
  cases a with
  | start t r =>
    obtain ⟨held, h⟩ := hd t
    unfold Bus.step at hs
    dsimp only at hs
    split at hs
    · rename_i hscript
      split_ifs at hs
      cases hs
      -- a thread without a script holds nothing and has nothing in flight
      have htyped := h.typed
      rw [hscript] at htyped
      simp only [Script.check, Bool.and_eq_true, List.isEmpty_iff, Option.isNone_iff_eq_none]
        at htyped
      obtain ⟨rfl, hp⟩ := htyped
      have hgo : (B.script r).check B.guard [] ((s.exchange t).map Exchange.view) = true := by
        rw [show (s.exchange t).map Exchange.view = none from hp]
        exact hscripts r
      obtain ⟨⟨_, h'⟩, hbeside, howner⟩ := h.moves (r := s.goto t (B.script r) (s.exchange t))
        rfl rfl rfl hgo h.guarded
      exact hd.update h' hbeside howner
    · cases hs
  | advance t choice =>
    obtain ⟨held, h⟩ := hd t
    obtain ⟨⟨_, h'⟩, hbeside, howner⟩ := h.advance hs
    exact hd.update h' hbeside howner
  | silent t =>
    obtain ⟨held, h⟩ := hd t
    obtain ⟨⟨_, h'⟩, hbeside, howner⟩ := h.abandon hs
    exact hd.update h' hbeside howner
  | exiting t =>
    obtain ⟨held, h⟩ := hd t
    obtain ⟨⟨_, h'⟩, hbeside, howner⟩ := h.abandon hs
    exact hd.update h' hbeside howner
  | answer =>
    change s.answer = some s' at hs
    unfold BusState.answer at hs
    split_ifs at hs
    cases hs
    intro t
    obtain ⟨held, h⟩ := hd t
    exact ⟨held, h.nodup, h.owned, h.typed, h.guarded⟩

end Bus

/-! ## Exchanges apart -/

namespace BusState

variable {T : Type w} {M : Type u} {C : Type v}

/-- No notification and no signal is under way (after a fault nobody waits for one). -/
def Quiet (s : BusState T M C) : Prop := s.fault = true ∨ s.notified = 0 ∧ s.signals = 0

/-- The buffer and the signals are where the exchange left them. -/
def Fits (s : BusState T M C) (e : Exchange C) : Prop :=
  match e.stage with
  | .written => s.fault = true ∨ s.notified = 0 ∧ s.signals = 0 ∧ s.buffer = some ⟨e.serial, false⟩
  | .sent => s.fault = true ∨
      s.notified + s.signals = 1 ∧ s.buffer = some ⟨e.serial, decide (s.signals = 1)⟩
  | .answered => s.fault = false ∧ s.notified = 0 ∧ s.signals = 0 ∧
      s.buffer = some ⟨e.serial, true⟩
  | .failed => s.Quiet

/-- One exchange at a time, and the bus is where it left it. -/
structure Settled (s : BusState T M C) : Prop where
  alone : ∀ t u e f, s.exchange t = some e → s.exchange u = some f → t = u
  quiet : (∀ t, s.exchange t = none) → s.Quiet
  fits : ∀ t e, s.exchange t = some e → s.Fits e

theorem idle_settled : (idle : BusState T M C).Settled where
  alone := fun _ _ _ _ he => nomatch he
  quiet := fun _ => .inr ⟨rfl, rfl⟩
  fits := fun _ _ he => nomatch he

theorem Settled.others {s : BusState T M C} (hs : s.Settled) {t : T} {e : Exchange C}
    (he : s.exchange t = some e) : ∀ u, u ≠ t → s.exchange u = none := by
  intro u hu
  cases hf : s.exchange u with
  | none => rfl
  | some f => exact absurd (hs.alone u t f e hf he) hu

/-- Nothing but scripts and mutexes changes. -/
theorem Settled.congr {s s' : BusState T M C} (hs : s.Settled) (hx : s'.exchange = s.exchange)
    (hb : s'.buffer = s.buffer) (hn : s'.notified = s.notified) (hg : s'.signals = s.signals)
    (hf : s'.fault = s.fault) : s'.Settled := by
  have hquiet : s'.Quiet ↔ s.Quiet := by rw [Quiet, Quiet, hn, hg, hf]
  refine ⟨?_, ?_, fun t e he => ?_⟩
  · rw [hx]
    exact hs.alone
  · rw [hx]
    exact fun hnone => hquiet.mpr (hs.quiet hnone)
  · rw [hx] at he
    have hfits := hs.fits t e he
    unfold Fits at hfits ⊢
    rw [hb, hn, hg, hf, hquiet]
    exact hfits

theorem Settled.answer {s s' : BusState T M C} (hs : s.Settled) (h : s.answer = some s') :
    s'.Settled := by
  unfold BusState.answer at h
  split_ifs at h with hn
  cases h
  refine ⟨hs.alone, fun hnone => ?_, fun t e he => ?_⟩
  · rcases hs.quiet hnone with hfault | hquiet
    · exact .inl hfault
    · exact absurd hquiet.1 hn
  · have hfits := hs.fits t e he
    unfold Fits Quiet at hfits ⊢
    cases hstage : e.stage with
    | written =>
      rw [hstage] at hfits
      rcases hfits with hfault | hfits
      · exact .inl hfault
      · exact absurd hfits.1 hn
    | sent =>
      rw [hstage] at hfits
      rcases hfits with hfault | ⟨hone, hbuffer⟩
      · exact .inl hfault
      · -- the one token was the notification, and now it is the signal
        have hsignals : s.signals = 0 := by omega
        refine .inr ⟨by dsimp only; omega, ?_⟩
        simp [hbuffer, hsignals]
    | answered =>
      rw [hstage] at hfits
      exact absurd hfits.2.1 hn
    | failed =>
      rw [hstage] at hfits
      rcases hfits with hfault | hquiet
      · exact .inl hfault
      · exact absurd hquiet.1 hn

variable [DecidableEq T]

/-- One thread has an exchange in flight, the others have none. -/
theorem Settled.single {s s' : BusState T M C} {t : T} {e : Exchange C}
    (hothers : ∀ u, u ≠ t → s.exchange u = none)
    (hx : s'.exchange = Function.update s.exchange t (some e)) (hfits : s'.Fits e) :
    s'.Settled := by
  have hsome : ∀ u f, s'.exchange u = some f → u = t ∧ e = f := by
    intro u f hf
    rw [hx] at hf
    by_cases hu : u = t
    · subst hu
      rw [Function.update_self] at hf
      exact ⟨rfl, Option.some.inj hf⟩
    · rw [Function.update_of_ne hu, hothers u hu] at hf
      cases hf
  refine ⟨fun u v f g hf hg => ?_, fun hnone => ?_, fun u f hf => ?_⟩
  · rw [(hsome u f hf).1, (hsome v g hg).1]
  · have ht := hnone t
    rw [hx, Function.update_self] at ht
    cases ht
  · rw [← (hsome u f hf).2]
    exact hfits

/-- No thread has an exchange in flight any more. -/
theorem Settled.ended {s s' : BusState T M C} {t : T}
    (hothers : ∀ u, u ≠ t → s.exchange u = none)
    (hx : s'.exchange = Function.update s.exchange t none) (hquiet : s'.Quiet) :
    s'.Settled := by
  have hnone : ∀ u, s'.exchange u = none := by
    intro u
    rw [hx]
    by_cases hu : u = t
    · rw [hu, Function.update_self]
    · rw [Function.update_of_ne hu, hothers u hu]
  refine ⟨fun u _ f _ hf => ?_, fun _ => hquiet, fun u f hf => ?_⟩
  · rw [hnone u] at hf
    cases hf
  · rw [hnone u] at hf
    cases hf

end BusState

namespace Bus

variable {T : Type w} {M : Type u} {C : Type v} {R : Type x} [DecidableEq M] [DecidableEq T]
variable {B : Bus T M C R}

/-- While commands are written one guard at a time, a thread that writes finds nobody else's
exchange in flight. -/
theorem Disciplined.clear {s : BusState T M C} (hd : B.Disciplined s) {t : T} {choice : Bool}
    {c : C} {k : Script M C} (hscript : s.script t = .write c k)
    (hG : B.SameGuard s (.advance t choice)) : ∀ u, s.exchange u = none := by
  obtain ⟨held, h⟩ := hd t
  have htyped := h.typed
  rw [hscript, Script.check_write] at htyped
  intro u
  by_cases hu : u = t
  · rw [hu]
    exact BusState.phase_eq_none.mp htyped.1
  · cases he : s.exchange u with
    | none => rfl
    | some e =>
      exfalso
      have hguard : B.guard e.command = B.guard c := by
        simp only [SameGuard, hscript] at hG
        exact hG u e hu he
      obtain ⟨held', h'⟩ := hd u
      have howner : s.owner (B.guard c) = some t := (h.owned _).mpr htyped.2.1
      have howner' : s.owner (B.guard e.command) = some u := (h'.owned _).mpr (h'.guarded e he)
      rw [hguard, howner] at howner'
      exact hu (Option.some.inj howner').symm

theorem Disciplined.settled_advance {s s' : BusState T M C} {t : T} {choice : Bool}
    (hd : B.Disciplined s) (hset : s.Settled) (hG : B.SameGuard s (.advance t choice))
    (hs : s.advance t choice = some s') : s'.Settled := by
  obtain ⟨held, h⟩ := hd t
  have htyped := h.typed
  have hclear := fun c k hscript => hd.clear (c := c) (k := k) hscript hG
  -- the thread's own exchange does not change
  have hstay : Function.update s.exchange t (s.exchange t) = s.exchange :=
    Function.update_eq_self t s.exchange
  have hstaged : ∀ {c n st st'}, s.exchange t = some ⟨c, n, st⟩ →
      s.staged t st' = some ⟨c, n, st'⟩ := fun {c n st st'} he => by
    rw [BusState.staged, he]
    rfl
  unfold BusState.advance at hs
  cases hscript : s.script t with
  | done => rw [hscript] at hs; cases hs
  | lock m k =>
    simp only [hscript] at hs
    split_ifs at hs
    cases hs
    exact hset.congr hstay rfl rfl rfl rfl
  | unlock m k =>
    simp only [hscript] at hs
    cases hs
    exact hset.congr hstay rfl rfl rfl rfl
  | write c k =>
    simp only [hscript] at hs
    cases hs
    have hnone := hclear c k hscript
    refine .single (fun u _ => hnone u) rfl ?_
    rcases hset.quiet hnone with hfault | ⟨hn, hg⟩
    · exact .inl hfault
    · exact .inr ⟨hn, hg, rfl⟩
  | notify k =>
    simp only [hscript] at hs
    cases hs
    rw [hscript] at htyped
    obtain ⟨c, hp, -⟩ := Script.check_notify htyped
    obtain ⟨n, he⟩ := BusState.phase_eq_some.mp hp
    refine .single (hset.others he) (by rw [BusState.goto_exchange, hstaged he]) ?_
    rcases hset.fits t _ he with hfault | ⟨hn, hg, hb⟩
    · exact .inl hfault
    · refine .inr ⟨?_, ?_⟩
      · show s.notified + 1 + s.signals = 1
        omega
      · show s.buffer = some ⟨n, decide (s.signals = 1)⟩
        simp [hb, hg]
  | await a f =>
    simp only [hscript] at hs
    rw [hscript] at htyped
    obtain ⟨c, hp, -, -⟩ := Script.check_await htyped
    obtain ⟨n, he⟩ := BusState.phase_eq_some.mp hp
    split_ifs at hs with hfault hsignals
    · cases hs
      refine .single (hset.others he) (by rw [BusState.goto_exchange, hstaged he]) ?_
      exact (Or.inl hfault : s.Quiet)
    · cases hs
      refine .single (hset.others he) (by rw [BusState.goto_exchange, hstaged he]) ?_
      rcases hset.fits t _ he with hfault' | ⟨hone, hb⟩
      · exact absurd hfault' hfault
      · have hsig : s.signals = 1 := by omega
        refine ⟨Bool.eq_false_iff.mpr hfault, ?_, ?_, ?_⟩
        · show s.notified = 0
          omega
        · show s.signals - 1 = 0
          omega
        · show s.buffer = some ⟨n, true⟩
          simpa [hsig] using hb
  | read k =>
    simp only [hscript] at hs
    cases hs
    rw [hscript] at htyped
    obtain ⟨c, hp, -⟩ := Script.check_read htyped
    obtain ⟨n, he⟩ := BusState.phase_eq_some.mp hp
    obtain ⟨-, hn, hg, -⟩ := hset.fits t _ he
    exact .ended (hset.others he) rfl (.inr ⟨hn, hg⟩)
  | giveUp k =>
    simp only [hscript] at hs
    cases hs
    rw [hscript] at htyped
    obtain ⟨c, st, hp, hst, -⟩ := Script.check_giveUp htyped
    obtain ⟨n, he⟩ := BusState.phase_eq_some.mp hp
    refine .ended (hset.others he) rfl ?_
    have hfits := hset.fits t _ he
    rcases hst with rfl | rfl
    · rcases hfits with hfault | ⟨hn, hg, -⟩
      · exact .inl hfault
      · exact .inr ⟨hn, hg⟩
    · exact hfits
  | branch a b =>
    simp only [hscript] at hs
    cases hs
    exact hset.congr hstay rfl rfl rfl rfl
  | exchanges c k =>
    simp only [hscript] at hs
    cases hs
    exact hset.congr hstay rfl rfl rfl rfl

theorem Disciplined.settled_abandon {s s' : BusState T M C} {t : T} {exiting : Bool}
    (hd : B.Disciplined s) (hset : s.Settled) (hs : s.abandon t exiting = some s') :
    s'.Settled := by
  obtain ⟨held, h⟩ := hd t
  have htyped := h.typed
  unfold BusState.abandon at hs
  split at hs
  · rename_i a f hscript
    rw [hscript] at htyped
    obtain ⟨c, hp, -, -⟩ := Script.check_await htyped
    obtain ⟨n, he⟩ := BusState.phase_eq_some.mp hp
    have hstaged : s.staged t .failed = some ⟨c, n, .failed⟩ := by
      rw [BusState.staged, he]
      rfl
    rw [hstaged] at hs
    split_ifs at hs with hfault hexit hsignals
    · cases hs
      refine .single (hset.others he) rfl ?_
      rcases hset.fits t _ he with hfault' | ⟨hone, -⟩
      · exact absurd hfault' hfault
      · -- the wait used up the only signal
        refine .inr ⟨?_, ?_⟩
        · show s.notified = 0
          omega
        · show s.signals - 1 = 0
          omega
    · cases hs
      exact .single (hset.others he) rfl (Or.inl rfl)
  · cases hs

theorem Disciplined.settled_step {s s' : BusState T M C} {a : BusAction T R}
    (hd : B.Disciplined s) (hset : s.Settled) (hG : B.SameGuard s a)
    (hs : B.step s a = some s') : s'.Settled := by
  cases a with
  | start t r =>
    unfold Bus.step at hs
    dsimp only at hs
    split at hs
    · split_ifs at hs
      cases hs
      exact hset.congr (Function.update_eq_self t s.exchange) rfl rfl rfl rfl
    · cases hs
  | advance t choice => exact hd.settled_advance hset hG hs
  | silent t => exact hd.settled_abandon hset hs
  | exiting t => exact hd.settled_abandon hset hs
  | answer => exact hset.answer hs

theorem Disciplined.undisturbed {s : BusState T M C} {a : BusAction T R} (hd : B.Disciplined s)
    (hset : s.Settled) (hG : B.SameGuard s a) : Undisturbed s a := by
  cases a with
  | advance t choice =>
    unfold Undisturbed
    dsimp only
    split
    · rename_i c k hscript
      exact fun u _ => hd.clear hscript hG u
    · rename_i k hscript
      obtain ⟨held, h⟩ := hd t
      have htyped := h.typed
      rw [hscript] at htyped
      obtain ⟨c, hp, -⟩ := Script.check_read htyped
      obtain ⟨n, he⟩ := BusState.phase_eq_some.mp hp
      exact ⟨_, he, (hset.fits t _ he).2.2.2⟩
    · trivial
  | _ => trivial

/-- **Exclusion.** On a bus all of whose scripts are well typed, no exchange of a run is disturbed
exactly when no command is written while an exchange with another guard is in flight. -/
theorem undisturbed_iff_sameGuard
    (hscripts : ∀ r, (B.script r).check B.guard [] none = true) (as : List (BusAction T R)) :
    B.machine.RunMeets Undisturbed .idle as ↔ B.machine.RunMeets B.SameGuard .idle as := by
  constructor
  · refine B.machine.runMeets_of_inv (I := fun _ => True) (fun _ _ _ _ _ _ => trivial)
      (fun s a _ hU => ?_) trivial
    cases a with
    | advance t choice =>
      unfold SameGuard
      dsimp only
      split
      · rename_i c k hscript
        intro u e hu he
        simp only [Undisturbed, hscript] at hU
        rw [hU u hu] at he
        cases he
      · trivial
    | _ => trivial
  · refine B.machine.runMeets_of_inv (I := fun s => B.Disciplined s ∧ s.Settled)
      (fun s a s' hI hG hs => ?_) (fun s a hI hG => hI.1.undisturbed hI.2 hG)
      ⟨idle_disciplined B, BusState.idle_settled⟩
    exact ⟨hI.1.step hscripts hs, hI.1.settled_step hI.2 hG hs⟩

end Bus

end McDaemon.Lib
