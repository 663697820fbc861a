/-
# McDaemon.Daemon.HandOffMoves — what the hand-off of one client takes.

Every step moves one client on at most: its own thread, the worker or the main thread does.  The
others stay what they are to the worker, and those that are being deleted stay where they are.
-/
import McDaemon.Daemon.HandOff
import Mathlib.Data.List.Perm.Basic

namespace McDaemon.Daemon.Threads

open McDaemon.Lib

/-! ## One client -/

section Clients

variable {r : Role} {x : Client}

theorem ClientOk.of_queueing (h : ClientOk r x) (hstage : x.stage = .queueing) :
    r = .away ∧ x.Owed := by
  cases h with
  | idle stage => rw [hstage] at stage; simp at stage
  | queueing _ owed => exact ⟨rfl, owed⟩
  | released stage => rw [hstage] at stage; cases stage
  | ended stage => rw [hstage] at stage; cases stage
  | queued locked | chosen locked | dropping locked | exiting locked | handling locked
  | unlocking locked =>
    rcases locked.stage with stage | stage <;> rw [hstage] at stage <;> cases stage

theorem ClientOk.of_released (h : ClientOk r x) (hstage : x.stage = .waiting)
    (hlocked : x.locked = false) : r = .away ∧ x.Served := by
  have hnot : ¬ x.Locked := by
    rintro (stage | ⟨-, locked⟩)
    · rw [hstage] at stage
      cases stage
    · rw [hlocked] at locked
      cases locked
  cases h with
  | idle stage => rw [hstage] at stage; simp at stage
  | queueing stage => rw [hstage] at stage; cases stage
  | released _ _ served => exact ⟨rfl, served⟩
  | ended stage => rw [hstage] at stage; cases stage
  | queued locked | chosen locked | dropping locked | exiting locked | handling locked
  | unlocking locked => exact absurd locked hnot

/-- The thread comes to wait, and whatever the worker does with the client meanwhile goes on. -/
theorem ClientOk.wait (h : ClientOk r x) (hstage : x.stage = .pushed) :
    ClientOk r { x with locked := true, stage := .waiting } := by
  have hlocked : Client.Locked { x with locked := true, stage := .waiting } := .inr ⟨rfl, rfl⟩
  cases h with
  | idle stage => rw [hstage] at stage; simp at stage
  | queueing stage => rw [hstage] at stage; cases stage
  | released stage => rw [hstage] at stage; cases stage
  | ended stage => rw [hstage] at stage; cases stage
  | queued _ owed => exact .queued hlocked { owed with }
  | chosen _ owed => exact .chosen hlocked { owed with }
  | dropping _ owed dead connection => exact .dropping hlocked { owed with } dead connection
  | exiting _ dead exiting drops commands => exact .exiting hlocked dead exiting drops commands
  | handling _ owed dead =>
    exact .handling (x := { x with locked := true, stage := .waiting }) hlocked { owed with } dead
  | unlocking _ served =>
    exact .unlocking hlocked
      { served with living := fun hdead => { served.living hdead with } }

/-- The thread is told to go on: it reads the next command, or ends. -/
theorem Client.Served.wake (h : x.Served) :
    ClientOk .away { x with stage := if x.dead then .ended else .reading } := by
  by_cases hdead : x.dead = true
  · rw [if_pos hdead]
    exact .ended rfl hdead
      ⟨h.commands, fun hlive => absurd (hdead.symm.trans hlive) nofun, h.dead⟩
  · rw [if_neg hdead]
    exact .idle (.inr (.inr rfl)) { h.living (Bool.eq_false_iff.mpr hdead) with } h.commands

theorem ClientOk.drop (h : ClientOk .dropping x) :
    ClientOk .exiting { x with drops := x.drops ++ [x.handled.length] } := by
  cases h with
  | dropping locked owed dead connection =>
    have hcommands : x.received = x.handled := by
      have hcommands := owed.commands
      rwa [if_pos dead] at hcommands
    refine .exiting locked dead owed.exiting ?_ hcommands
    show x.drops ++ [x.handled.length] = ite _ _ _
    rw [if_neg connection, owed.drops, ← hcommands]
    rfl

theorem ClientOk.exit (h : ClientOk .exiting x) :
    ClientOk .unlocking { x with exiting := true } := by
  cases h with
  | exiting locked dead _ drops commands =>
    exact .unlocking locked
      ⟨commands, fun hlive => absurd (dead.symm.trans hlive) nofun, fun _ => ⟨rfl, drops⟩⟩

theorem ClientOk.handle {commandId : UInt32} (h : ClientOk (.handling commandId) x) :
    ClientOk .unlocking { x with handled := x.handled ++ [commandId] } := by
  cases h with
  | handling locked owed dead =>
    have hcommands := owed.commands
    rw [if_neg (by simp [dead])] at hcommands
    exact .unlocking locked ⟨hcommands, fun _ => ⟨dead, owed.exiting, owed.drops⟩,
      fun hdead => absurd (dead.symm.trans hdead) nofun⟩

theorem ClientOk.unlock (h : ClientOk .unlocking x) (hstage : x.stage ≠ .pushed) :
    ClientOk .away { x with locked := false } := by
  cases h with
  | unlocking locked served =>
    exact .released (locked.resolve_left hstage).1 rfl
      { served with living := fun hlive => { served.living hlive with } }

/-- What the worker turns to, when it has taken a client out of the queue. -/
theorem ClientOk.choose (h : ClientOk .chosen x) {c : Nat} :
    ClientOk (roleOf (if x.dead then if x.connection = none then .exiting c else .dropping c
      else .handling c x.connection x.commandId) [] c) x := by
  cases h with
  | chosen locked owed =>
    by_cases hdead : x.dead = true
    · rw [if_pos hdead]
      by_cases hconn : x.connection = none
      · have hcommands := owed.commands
        rw [if_pos hdead] at hcommands
        rw [if_pos hconn, show roleOf (.exiting c) [] c = .exiting from if_pos rfl]
        refine .exiting locked hdead owed.exiting (owed.drops.trans ?_) hcommands
        exact (if_pos hconn).symm
      · rw [if_neg hconn, show roleOf (.dropping c) [] c = .dropping from if_pos rfl]
        exact .dropping locked owed hdead hconn
    · rw [if_neg hdead, show roleOf (.handling c x.connection x.commandId) [] c =
        .handling x.commandId from if_pos rfl]
      exact .handling locked owed (Bool.eq_false_iff.mpr hdead)

/-- The thread of the client has started and not ended. -/
def Client.Running (x : Client) : Prop :=
  x.stage ≠ .absent ∧ x.stage ≠ .created ∧ x.stage ≠ .ended

theorem Client.Locked.running (h : x.Locked) : x.Running := by
  rcases h.stage with stage | stage <;> exact ⟨by simp [stage], by simp [stage], by simp [stage]⟩

end Clients

namespace ServerState

/-! ## Placing -/

section Placing

variable {client : Nat → Client} {queue queue' : List (Option Nat)} {worker worker' : Worker}
  {c : Nat} {x : Client}

theorem Placed.put (h : Placed client queue worker)
    (hroles : ∀ r, r ≠ c → roleOf worker' queue' r = roleOf worker queue r)
    (hok : ClientOk (roleOf worker' queue' c) x)
    (hown : ∀ k, x.connection = some k → k = c)
    (honce : (queue'.filterMap id).Nodup)
    (htaken : ∀ r, worker'.client = some r → some r ∉ queue')
    (hhandling : ∀ r k commandId, worker' = .handling r (some k) commandId → k = r) :
    Placed (Function.update client c x) queue' worker' where
  ok := by
    intro r
    by_cases hr : r = c
    · subst hr
      rw [Function.update_self]
      exact hok
    · rw [Function.update_of_ne hr, hroles r hr]
      exact h.ok r
  own := by
    intro r k hk
    by_cases hr : r = c
    · subst hr
      rw [Function.update_self] at hk
      exact hown k hk
    · rw [Function.update_of_ne hr] at hk
      exact h.own r k hk
  once := honce
  taken := htaken
  handling := hhandling

/-- A step of the thread of a client that is nothing to the worker. -/
theorem Placed.update (h : Placed client queue worker) (hok : ClientOk (roleOf worker queue c) x)
    (hown : ∀ k, x.connection = some k → k = c) :
    Placed (Function.update client c x) queue worker :=
  h.put (fun _ _ => rfl) hok hown h.once h.taken h.handling

theorem roleOf_away (h : roleOf worker queue c = .away) :
    some c ∉ queue ∧ worker.client ≠ some c :=
  not_or.mp fun hwaits => roleOf_ne_away.mpr hwaits h

theorem roleOf_of_client (h : worker.client = some c) (queue : List (Option Nat)) :
    roleOf worker queue c = roleOf worker [] c := by
  unfold roleOf
  rw [if_pos h, if_pos h]

/-- What the worker is to the others depends only on the queue, as far as they are in it. -/
theorem roleOf_congr {r : Nat} (hqueue : some r ∈ queue' ↔ some r ∈ queue)
    (hworker : worker.client ≠ some r) (hworker' : worker'.client ≠ some r) :
    roleOf worker' queue' r = roleOf worker queue r := by
  unfold roleOf
  rw [if_neg hworker, if_neg hworker']
  by_cases h : some r ∈ queue
  · rw [if_pos h, if_pos (hqueue.mpr h)]
  · rw [if_neg h, if_neg fun h' => h (hqueue.mp h')]

theorem roleOf_push {r : Nat} (hr : r ≠ c) :
    roleOf worker (queue ++ [some c]) r = roleOf worker queue r := by
  unfold roleOf
  by_cases hworker : worker.client = some r
  · rw [if_pos hworker, if_pos hworker]
  · rw [if_neg hworker, if_neg hworker]
    simp [hr]

/-- The thread pushes its client. -/
theorem Placed.push (h : Placed client queue worker) (haway : roleOf worker queue c = .away)
    (hlocked : x.Locked) (howed : x.Owed) (hown : x.connection = (client c).connection) :
    Placed (Function.update client c x) (queue ++ [some c]) worker := by
  obtain ⟨hqueue, hworker⟩ := roleOf_away haway
  have hown' : ∀ k, x.connection = some k → k = c := hown ▸ h.own c
  refine h.put (fun r hr => roleOf_push hr) ?_ hown' ?_ (fun r hr => ?_) h.handling
  · unfold roleOf
    rw [if_neg hworker, if_pos (by simp)]
    exact .queued hlocked howed
  · rw [List.filterMap_append]
    refine List.nodup_append.mpr ⟨h.once, by simp, fun a ha b hb => ?_⟩
    rintro rfl
    obtain ⟨o, ho, hoa⟩ := List.mem_filterMap.mp ha
    have hac : a = c := by simpa using hb
    rw [show o = some a from hoa, hac] at ho
    exact hqueue ho
  · rw [List.mem_append, not_or]
    refine ⟨h.taken r hr, fun hrc => ?_⟩
    rw [List.mem_singleton, Option.some.injEq] at hrc
    exact hworker (hrc ▸ hr)

/-- The worker goes on with the client that it has. -/
theorem Placed.work {r : Role} (h : Placed client queue worker)
    (hworker : worker.client = some c) (hworker' : worker'.client = some c)
    (hrole : roleOf worker' [] c = r) (hok : ClientOk r x)
    (hown : x.connection = (client c).connection)
    (hhandling : ∀ r k commandId, worker' = .handling r (some k) commandId → k = r) :
    Placed (Function.update client c x) queue worker' := by
  have hown' : ∀ k, x.connection = some k → k = c := hown ▸ h.own c
  refine h.put (fun r hr => roleOf_congr Iff.rfl ?_ ?_) ?_ hown' h.once ?_ hhandling
  · rw [hworker]
    exact fun heq => hr (Option.some.inj heq).symm
  · rw [hworker']
    exact fun heq => hr (Option.some.inj heq).symm
  · rw [roleOf_of_client hworker', hrole]
    exact hok
  · intro r hr
    exact h.taken r (hworker.trans (hworker'.symm.trans hr))

/-- The worker lets go of its client. -/
theorem Placed.release (h : Placed client queue (.unlocking c)) (hok : ClientOk .away x)
    (hown : x.connection = (client c).connection) :
    Placed (Function.update client c x) queue .popping := by
  have hown' : ∀ k, x.connection = some k → k = c := hown ▸ h.own c
  refine h.put (fun r hr => roleOf_congr Iff.rfl ?_ nofun) ?_ hown' h.once nofun nofun
  · exact fun heq => hr (Option.some.inj heq).symm
  · unfold roleOf
    rw [if_neg nofun, if_neg (h.taken c rfl)]
    exact hok

theorem Placed.pop (h : Placed client (some c :: queue) .popping) :
    Placed client queue (.chosen c) where
  ok := by
    intro r
    have hok := h.ok r
    have honce := List.nodup_cons.mp h.once
    unfold roleOf at hok
    rw [if_neg nofun] at hok
    unfold roleOf
    by_cases hr : c = r
    · subst hr
      rw [if_pos List.mem_cons_self] at hok
      rw [if_pos (show (Worker.chosen c).client = some c from rfl)]
      cases hok with
      | queued locked owed => exact .chosen locked owed
    · have hworker : (Worker.chosen c).client ≠ some r := fun heq => hr (Option.some.inj heq)
      rw [if_neg hworker]
      simpa [Ne.symm hr] using hok
  own := h.own
  once := (List.nodup_cons.mp h.once).2
  taken := by
    rintro r ⟨⟩ hmem
    exact (List.nodup_cons.mp h.once).1 (List.mem_filterMap.mpr ⟨_, hmem, rfl⟩)
  handling := nofun

theorem Placed.halt (h : Placed client (none :: queue) .popping) :
    Placed client queue .stopped where
  ok := by
    intro r
    have heq : roleOf .stopped queue r = roleOf .popping (none :: queue) r :=
      roleOf_congr (by simp) nofun nofun
    rw [heq]
    exact h.ok r
  own := h.own
  once := h.once
  taken := nofun
  handling := nofun

theorem Placed.pushNull (h : Placed client queue worker) :
    Placed client (queue ++ [none]) worker where
  ok := by
    intro r
    have heq : roleOf worker (queue ++ [none]) r = roleOf worker queue r := by
      unfold roleOf
      by_cases hworker : worker.client = some r
      · rw [if_pos hworker, if_pos hworker]
      · rw [if_neg hworker, if_neg hworker]
        simp
    rw [heq]
    exact h.ok r
  own := h.own
  once := by
    rw [List.filterMap_append]
    simpa using h.once
  taken := fun r hr => by simpa using h.taken r hr
  handling := h.handling

end Placing

/-! ## Deleting -/

section Deleting

variable {s : ServerState} {c : Nat} {x : Client}

@[simp] theorem gone_uses (log : List Event) (cs : List Nat) :
    objects.gone (log ++ [.uses cs]) = objects.gone log := by
  rw [Ledger.gone_append, Ledger.gone_singleton]
  exact List.append_nil _

theorem safe_uses {log : List Event} {cs : List Nat} (h : objects.Safe log)
    (hcs : ∀ c ∈ cs, c ∉ objects.gone log) : objects.Safe (log ++ [.uses cs]) :=
  Ledger.safe_snoc.mpr ⟨h, hcs⟩

theorem Alive.not_gone (h : s.Alive) (hc : (s.client c).stage ≠ .ended) :
    c ∉ objects.gone s.log :=
  fun hgone => hc (h.gone c hgone)

/-- Clients that have not been deleted may be looked at. -/
theorem Alive.uses (h : s.Alive) {cs : List Nat} (hcs : ∀ c ∈ cs, c ∉ objects.gone s.log) :
    Alive { s with log := s.log ++ [.uses cs] } := by
  have hgone := gone_uses s.log cs
  refine ⟨h.made, h.nodup, fun r hr => ?_, fun r hr => ?_, safe_uses h.safe hcs, ?_⟩
  · refine ⟨(h.listed r hr).1, fun hr' => (h.listed r hr).2 ?_⟩
    exact hgone ▸ hr'
  · exact h.gone r (hgone ▸ hr)
  · have hreaps := h.reaps
    show Reaps _ s.main
    cases hmain : s.main with
    | selecting | stopped => trivial
    | starting d | reaping rest =>
      rw [hmain] at hreaps
      exact hreaps
    | joining d rest =>
      rw [hmain] at hreaps
      refine ⟨hreaps.1, hreaps.2.1, hreaps.2.2.1, fun hd => hreaps.2.2.2 ?_⟩
      exact hgone ▸ hd

/-- A client whose thread is running is none that the main thread makes or deletes. -/
theorem Alive.update (h : s.Alive) (hc : (s.client c).Running) (queue : List (Option Nat))
    (worker : Worker) (rounds : Nat) (x : Client) :
    Alive { s with queue, worker, rounds, client := Function.update s.client c x } := by
  have hsame : ∀ r, (s.client r).stage = .absent ∨ (s.client r).stage = .created ∨
      (s.client r).stage = .ended → Function.update s.client c x r = s.client r := by
    intro r hr
    refine Function.update_of_ne ?_ x s.client
    rintro rfl
    rcases hr with hr | hr | hr
    · exact hc.1 hr
    · exact hc.2.1 hr
    · exact hc.2.2 hr
  refine ⟨fun r hr => ?_, h.nodup, h.listed, fun r hr => ?_, h.safe, ?_⟩
  · have habsent := h.made r hr
    refine (hsame r (.inl ?_)).trans habsent
    rw [habsent]
    rfl
  · have hended := h.gone r hr
    show (Function.update s.client c x r).stage = _
    rw [hsame r (.inr (.inr hended))]
    exact hended
  · have hreaps := h.reaps
    show Reaps _ s.main
    cases hmain : s.main with
    | selecting | stopped => trivial
    | starting d =>
      rw [hmain] at hreaps
      refine ⟨hreaps.1, ?_⟩
      show (Function.update s.client c x d).stage = _
      rw [hsame d (.inr (.inl hreaps.2))]
      exact hreaps.2
    | reaping rest | joining d rest =>
      rw [hmain] at hreaps
      exact hreaps

theorem Alive.put (h : s.Alive) (hc : (s.client c).Running) (queue : List (Option Nat))
    (worker : Worker) (rounds : Nat) (x : Client) :
    Alive ({ s with queue, worker, rounds }.put c x) := by
  have huses : ∀ r ∈ [c], r ∉ objects.gone s.log := by
    intro r hr
    rw [List.mem_singleton.mp hr]
    exact h.not_gone hc.2.2
  exact (h.uses huses).update hc queue worker rounds x

end Deleting

end ServerState

end McDaemon.Daemon.Threads
