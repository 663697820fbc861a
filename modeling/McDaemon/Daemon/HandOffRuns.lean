/-
# McDaemon.Daemon.HandOffRuns — the invariant of the hand-off along runs.

The thread of a client, the worker and the main thread keep it with every step.  No other client is
exiting than one that the worker has done with, and no other has ended.
-/
import McDaemon.Daemon.HandOffMoves

namespace McDaemon.Daemon.Threads

open McDaemon.Lib

namespace ServerState

/-! ## Steps -/

section Steps

variable {s t : ServerState} {c : Nat}

theorem Inv.read (h : Inv s) (hstage : (s.client c).stage = .reading)
    (answer : Option UInt32) : Inv (s.read c (s.client c) answer) := by
  obtain ⟨haway, hliving, hcommands⟩ := (h.placed.ok c).of_idle (.inr (.inr hstage))
  have hrunning : (s.client c).Running := ⟨by simp [hstage], by simp [hstage], by simp [hstage]⟩
  have hput : ∀ x, ClientOk .away x → x.connection = (s.client c).connection →
      Inv (s.put c x) := fun x hx hown =>
    ⟨h.placed.update (haway ▸ hx) (hown ▸ h.placed.own c),
      h.alive.put hrunning s.queue s.worker s.rounds x⟩
  cases answer with
  | none => exact hput _ (.queueing rfl ⟨hliving.exiting, hliving.drops, hcommands⟩) rfl
  | some commandId =>
    show Inv (ite _ _ _)
    by_cases hnotify : commandId = DrvCommand.notify.commandId
    · rw [if_pos hnotify]
      exact hput _ (.idle (.inr (.inr hstage)) { hliving with } hcommands) rfl
    · rw [if_neg hnotify]
      refine hput _ (.queueing rfl ⟨hliving.exiting, hliving.drops, ?_⟩) rfl
      show (s.client c).received ++ [commandId] = ite ((s.client c).dead = true) _ _
      rw [hliving.dead, hcommands]
      rfl

theorem Inv.stepClient (h : Inv s) (ht : s.stepClient c (s.client c) = some t) : Inv t := by
  have hok := h.placed.ok c
  unfold ServerState.stepClient at ht
  cases hstage : (s.client c).stage with
  | queueing =>
    rw [hstage] at ht
    obtain rfl := Option.some.inj ht
    obtain ⟨haway, howed⟩ := hok.of_queueing hstage
    have hrunning : (s.client c).Running :=
      ⟨by simp [hstage], by simp [hstage], by simp [hstage]⟩
    exact ⟨h.placed.push haway (.inl rfl) { howed with } rfl,
      h.alive.put hrunning (s.queue ++ [some c]) s.worker s.rounds _⟩
  | pushed =>
    rw [hstage] at ht
    obtain rfl := Option.some.inj ht
    have hrunning : (s.client c).Running :=
      ⟨by simp [hstage], by simp [hstage], by simp [hstage]⟩
    exact ⟨h.placed.update (hok.wait hstage) (h.placed.own c),
      h.alive.put hrunning s.queue s.worker s.rounds _⟩
  | waiting =>
    rw [hstage] at ht
    obtain ⟨hlocked, ht⟩ := Option.ite_none_left_eq_some.mp ht
    obtain rfl := Option.some.inj ht
    obtain ⟨haway, hserved⟩ := hok.of_released hstage (Bool.not_eq_true _ ▸ hlocked)
    have hrunning : (s.client c).Running :=
      ⟨by simp [hstage], by simp [hstage], by simp [hstage]⟩
    refine ⟨h.placed.update ?_ (h.placed.own c), h.alive.put hrunning s.queue s.worker s.rounds _⟩
    rw [haway]
    exact hserved.wake
  | absent | created | reading | ended =>
    rw [hstage] at ht
    cases ht

theorem Inv.worker_ok (h : Inv s) {worker : Worker} {r : Role} (hworker : s.worker = worker)
    (htaken : worker.client = some c) (hrole : roleOf worker [] c = r) :
    ClientOk r (s.client c) := by
  have hok := h.placed.ok c
  rwa [hworker, roleOf_of_client htaken, hrole] at hok

theorem Inv.worker_locked (h : Inv s) (hworker : s.worker.client = some c) :
    (s.client c).Locked :=
  (h.placed.ok c).locked (roleOf_ne_away.mpr (.inr hworker))

theorem Inv.stepWorker (h : Inv s) (ht : s.stepWorker = some t) : Inv t := by
  unfold ServerState.stepWorker at ht
  have hplaced := h.placed
  cases hworker : s.worker with
  | popping =>
    rw [hworker] at ht hplaced
    cases hqueue : s.queue with
    | nil =>
      rw [hqueue] at ht
      cases ht
    | cons o queue =>
      rw [hqueue] at ht hplaced
      -- an entry without a client tells the worker to stop
      cases o with
      | none =>
        obtain rfl := Option.some.inj ht
        exact ⟨hplaced.halt, { h.alive with }⟩
      | some c =>
        obtain rfl := Option.some.inj ht
        exact ⟨hplaced.pop, { h.alive with }⟩
  | chosen c =>
    have htaken : s.worker.client = some c := by rw [hworker]; rfl
    have hlocked := h.worker_locked htaken
    have hok := h.worker_ok hworker rfl (if_pos rfl)
    rw [hworker] at ht
    obtain rfl := Option.some.inj ht
    refine ⟨h.placed.work htaken ?_ rfl (ClientOk.choose hok) rfl ?_,
      h.alive.put hlocked.running s.queue _ s.rounds _⟩
    · split
      · split <;> rfl
      · rfl
    · -- the handler is called for the connection that the client has got
      intro r k commandId heq
      split at heq
      · split at heq <;> cases heq
      · obtain ⟨rfl, hconn, -⟩ := Worker.handling.inj heq
        exact h.placed.own c k hconn
  | dropping c =>
    have htaken : s.worker.client = some c := by rw [hworker]; rfl
    have hlocked := h.worker_locked htaken
    have hok := h.worker_ok hworker rfl (if_pos rfl)
    rw [hworker] at ht
    obtain rfl := Option.some.inj ht
    exact ⟨h.placed.work htaken rfl (if_pos rfl) (ClientOk.drop hok) rfl nofun,
      h.alive.put hlocked.running s.queue _ s.rounds _⟩
  | exiting c =>
    have htaken : s.worker.client = some c := by rw [hworker]; rfl
    have hlocked := h.worker_locked htaken
    have hok := h.worker_ok hworker rfl (if_pos rfl)
    rw [hworker] at ht
    obtain rfl := Option.some.inj ht
    exact ⟨h.placed.work htaken rfl (if_pos rfl) (ClientOk.exit hok) rfl nofun,
      h.alive.put hlocked.running s.queue _ s.rounds _⟩
  | handling c conn commandId =>
    have htaken : s.worker.client = some c := by rw [hworker]; rfl
    have hlocked := h.worker_locked htaken
    have hok := h.worker_ok hworker rfl (if_pos rfl)
    rw [hworker] at ht
    obtain rfl := Option.some.inj ht
    exact ⟨h.placed.work htaken rfl (if_pos rfl) (ClientOk.handle hok) rfl nofun,
      h.alive.put hlocked.running s.queue _ s.rounds _⟩
  | unlocking c =>
    have htaken : s.worker.client = some c := by rw [hworker]; rfl
    have hlocked := h.worker_locked htaken
    have hok := h.worker_ok hworker rfl (if_pos rfl)
    rw [hworker] at ht hplaced
    obtain ⟨hstage, ht⟩ := Option.ite_none_left_eq_some.mp ht
    obtain rfl := Option.some.inj ht
    exact ⟨hplaced.release (ClientOk.unlock hok hstage) rfl,
      h.alive.put hlocked.running s.queue _ (s.rounds + 1) _⟩
  | stopped =>
    rw [hworker] at ht
    cases ht

theorem Inv.accept (h : Inv s) (commandId : UInt32) (locked : Bool) :
    Inv ({ s with
      made := s.made + 1
      clients := s.clients ++ [s.made]
      main := .starting s.made }.put s.made (.new s.made commandId locked)) := by
  have habsent := h.alive.made s.made (Nat.le_refl _)
  have hgone : s.made ∉ objects.gone s.log := by
    refine h.alive.not_gone ?_
    rw [habsent]
    exact nofun
  have haway := ((h.placed.ok s.made).of_idle (.inl (by rw [habsent]; rfl))).1
  have hlog := gone_uses s.log [s.made]
  refine ⟨h.placed.update ?_ ?_, fun r hr => ?_, ?_, fun r hr => ?_, fun r hr => ?_, ?_, ?_⟩
  · rw [haway]
    exact .idle (.inr (.inl rfl)) ⟨rfl, rfl, rfl⟩ rfl
  · exact fun k hk => (Option.some.inj hk).symm
  · have hr' : s.made + 1 ≤ r := hr
    refine (Function.update_of_ne ?_ _ s.client).trans (h.alive.made r ?_) <;> omega
  · refine List.nodup_append.mpr ⟨h.alive.nodup, by simp, fun a ha b hb => ?_⟩
    have hlt := (h.alive.listed a ha).1
    rw [List.mem_singleton.mp hb]
    omega
  · show r < s.made + 1 ∧ r ∉ objects.gone (s.log ++ [.uses [s.made]])
    rw [hlog]
    rcases List.mem_append.mp hr with hold | hnew
    · obtain ⟨hlt, hr'⟩ := h.alive.listed r hold
      exact ⟨by omega, hr'⟩
    · rw [List.mem_singleton.mp hnew]
      exact ⟨by omega, hgone⟩
  · have hr' : r ∈ objects.gone s.log := hlog ▸ hr
    show (Function.update s.client s.made _ r).stage = _
    rw [Function.update_of_ne (fun heq : r = s.made => hgone (heq ▸ hr'))]
    exact h.alive.gone r hr'
  · refine safe_uses h.alive.safe fun r hr => ?_
    rw [List.mem_singleton.mp hr]
    exact hgone
  · refine ⟨List.mem_append_right _ (by simp), ?_⟩
    show (Function.update s.client s.made _ s.made).stage = _
    rw [Function.update_self]
    rfl

/-- The main thread goes on to what it has the clients for. -/
theorem Alive.go (h : s.Alive) {main : MainThread} (hreaps : s.Reaps main) :
    Alive { s with main } :=
  { h with reaps := hreaps }

theorem Inv.starts (h : Inv s) (hmain : s.main = .starting c) (ok : Bool) :
    Inv ({ s with main := .reaping s.clients }.put c
      { s.client c with stage := if ok then .reading else .created }) := by
  have hreaps := h.alive.reaps
  rw [hmain] at hreaps
  obtain ⟨hmem, hcreated⟩ := hreaps
  obtain ⟨haway, hliving, hcommands⟩ := (h.placed.ok c).of_idle (.inr (.inl hcreated))
  have hgone := (h.alive.listed c hmem).2
  have huses : ∀ r ∈ [c], r ∉ objects.gone s.log := by
    intro r hr
    rw [List.mem_singleton.mp hr]
    exact hgone
  have halive := h.alive.uses huses
  refine ⟨h.placed.update ?_ (h.placed.own c), fun r hr => ?_, halive.nodup, halive.listed,
    fun r hr => ?_, halive.safe, List.Subset.refl _, h.alive.nodup⟩
  · rw [haway]
    refine .idle ?_ { hliving with } hcommands
    cases ok with
    | true => exact .inr (.inr rfl)
    | false => exact .inr (.inl rfl)
  · have hlt := (h.alive.listed c hmem).1
    have hr' : s.made ≤ r := hr
    refine (Function.update_of_ne ?_ _ s.client).trans (h.alive.made r hr')
    omega
  · have hr' : r ∈ objects.gone s.log := (gone_uses s.log [c]) ▸ hr
    show (Function.update s.client c _ r).stage = _
    rw [Function.update_of_ne (fun heq : r = c => hgone (heq ▸ hr'))]
    exact h.alive.gone r hr'

/-- The main thread looks whether a client is exiting, and takes it off the list if so. -/
theorem Inv.reaps (h : Inv s) {rest : List Nat} (hmain : s.main = .reaping (c :: rest)) :
    Inv ((if (s.client c).exiting then
      { s with clients := s.clients.erase c, main := .joining c rest }
    else { s with main := .reaping rest }).put c (s.client c)) := by
  have hreaps := h.alive.reaps
  rw [hmain] at hreaps
  obtain ⟨hsubset, hnodup⟩ := hreaps
  obtain ⟨hnot, hrest⟩ := List.nodup_cons.mp hnodup
  obtain ⟨hmem, hsub⟩ := List.cons_subset.mp hsubset
  have huses : ∀ r ∈ [c], r ∉ objects.gone s.log := by
    intro r hr
    rw [List.mem_singleton.mp hr]
    exact (h.alive.listed c hmem).2
  have halive := h.alive.uses huses
  have hgone := gone_uses s.log [c]
  unfold ServerState.put
  by_cases hexiting : (s.client c).exiting = true
  · rw [if_pos hexiting, Function.update_eq_self]
    refine ⟨h.placed, halive.made, halive.nodup.erase c, fun r hr => ?_, halive.gone, halive.safe,
      fun r hr => ?_, hrest, ?_, ?_⟩
    · exact halive.listed r (List.mem_of_mem_erase hr)
    · refine (h.alive.nodup.mem_erase_iff).mpr ⟨?_, hsub hr⟩
      rintro rfl
      exact hnot hr
    · exact fun hc => h.alive.nodup.not_mem_erase hc
    · exact fun hc => (h.alive.listed c hmem).2 (hgone ▸ hc)
  · rw [if_neg hexiting, Function.update_eq_self]
    exact ⟨h.placed, halive.go ⟨hsub, hrest⟩⟩

/-- The thread has ended, so the client is nothing to anybody. -/
theorem Inv.deletes (h : Inv s) {rest : List Nat} (hmain : s.main = .joining c rest)
    (hended : (s.client c).stage = .ended) :
    Inv { s with main := .reaping rest, log := s.log ++ [.deletes c] } := by
  have hreaps := h.alive.reaps
  rw [hmain] at hreaps
  obtain ⟨hsub, hrest, hlist, hnot⟩ := hreaps
  have hgone : objects.gone (s.log ++ [.deletes c]) = objects.gone s.log ++ [c] := by
    rw [Ledger.gone_append, Ledger.gone_singleton]
    rfl
  refine ⟨h.placed, h.alive.made, h.alive.nodup, fun r hr => ?_, fun r hr => ?_, ?_, hsub, hrest⟩
  · refine ⟨(h.alive.listed r hr).1, fun hr' => ?_⟩
    rw [hgone, List.mem_append, List.mem_singleton] at hr'
    rcases hr' with hold | rfl
    · exact (h.alive.listed r hr).2 hold
    · exact hlist hr
  · rw [hgone, List.mem_append, List.mem_singleton] at hr
    rcases hr with hold | rfl
    · exact h.alive.gone r hold
    · exact hended
  · refine Ledger.safe_snoc.mpr ⟨h.alive.safe, fun r hr => ?_⟩
    rw [List.mem_singleton.mp hr]
    exact hnot

theorem Inv.stepMain (h : Inv s) {ok : Bool} (ht : s.stepMain ok = some t) : Inv t := by
  unfold ServerState.stepMain at ht
  cases hmain : s.main with
  | starting c =>
    rw [hmain] at ht
    obtain rfl := Option.some.inj ht
    exact h.starts hmain ok
  | reaping rest =>
    rw [hmain] at ht
    cases rest with
    | nil =>
      obtain rfl := Option.some.inj ht
      exact ⟨h.placed, h.alive.go trivial⟩
    | cons c rest =>
      obtain rfl := Option.some.inj ht
      exact h.reaps hmain
  | joining c rest =>
    rw [hmain] at ht
    obtain ⟨hended, ht⟩ := Option.ite_none_right_eq_some.mp ht
    obtain rfl := Option.some.inj ht
    exact h.deletes hmain hended
  | selecting | stopped =>
    rw [hmain] at ht
    cases ht

/-- The connection that is taken away is that of the client whose command is being handled. -/
theorem Inv.detachConnection (h : Inv s) {conn : Nat} {commandId : UInt32}
    (hworker : s.worker = .handling c (some conn) commandId) : Inv (s.detachConnection conn) := by
  have huses : ∀ r ∈ upTo (fun _ c => (s.client c).connection == some conn) [] s.clients,
      r ∉ objects.gone s.log := by
    intro r hr
    exact (h.alive.listed r (upTo_sublist.mem hr)).2
  have halive := h.alive.uses huses
  unfold ServerState.detachConnection
  cases hfind : s.clients.find? (fun c => (s.client c).connection == some conn) with
  | none => exact ⟨h.placed, halive⟩
  | some f =>
    have hconn : (s.client f).connection = some conn := by simpa using List.find?_some hfind
    obtain rfl : f = c := by
      rw [← h.placed.own f conn hconn]
      exact h.placed.handling c conn commandId hworker
    have htaken : s.worker.client = some f := by rw [hworker]; rfl
    have hrunning := (h.worker_locked htaken).running
    refine ⟨h.placed.update ?_ nofun, halive.update hrunning s.queue s.worker s.rounds _⟩
    have hok := h.placed.ok f
    rw [hworker, roleOf_of_client rfl, show roleOf (.handling f (some conn) commandId) [] f =
      .handling commandId from if_pos rfl] at hok ⊢
    cases hok with
    | handling locked owed dead =>
      exact .handling (x := { s.client f with connection := none }) locked { owed with } dead

/-- `NQ_CONNECT` is the command that the worker is handling. -/
theorem step_detach (ht : s.step .detach = some t) : ∃ c conn commandId,
    s.worker = .handling c (some conn) commandId ∧ t = s.detachConnection conn := by
  unfold ServerState.step at ht
  cases hworker : s.worker with
  | handling c conn commandId =>
    cases conn with
    | none =>
      simp only [hworker] at ht
      cases ht
    | some conn =>
      simp only [hworker] at ht
      exact ⟨c, conn, commandId, rfl,
        (Option.some.inj (Option.ite_none_right_eq_some.mp ht).2).symm⟩
  | popping | chosen _ | dropping _ | exiting _ | unlocking _ | stopped =>
    simp only [hworker] at ht
    cases ht

theorem Inv.step (h : Inv s) {a : Action} (ht : s.step a = some t) : Inv t := by
  cases a with
  | accept commandId locked =>
    obtain rfl := Option.some.inj (Option.ite_none_right_eq_some.mp ht).2
    exact h.accept commandId locked
  | acceptFails =>
    obtain rfl := Option.some.inj (Option.ite_none_right_eq_some.mp ht).2
    exact ⟨h.placed, h.alive.go ⟨List.Subset.refl _, h.alive.nodup⟩⟩
  | selectFails =>
    obtain rfl := Option.some.inj (Option.ite_none_right_eq_some.mp ht).2
    exact ⟨h.placed.pushNull, { h.alive.go (show s.Reaps .stopped from trivial) with }⟩
  | main ok => exact h.stepMain ht
  | read c answer =>
    obtain ⟨hstage, ht⟩ := Option.ite_none_right_eq_some.mp ht
    obtain rfl := Option.some.inj ht
    exact h.read hstage _
  | client c => exact h.stepClient ht
  | worker => exact h.stepWorker ht
  | detach =>
    obtain ⟨c, conn, commandId, hworker, rfl⟩ := step_detach ht
    exact h.detachConnection hworker
  | detachOther =>
    obtain rfl := Option.some.inj (Option.ite_none_right_eq_some.mp ht).2
    exact ⟨h.placed, h.alive.uses fun c hc => (h.alive.listed c hc).2⟩

end Steps

end ServerState

end McDaemon.Daemon.Threads
