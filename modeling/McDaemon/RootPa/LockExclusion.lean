/-
# McDaemon.RootPa.LockExclusion — who has the content management lock.

A step is `Orderly` when it keeps clear of the ways in which the lock is lost under somebody's
feet: a command with the uid 0, which the check lets through; a release or a timeout between the
check and the command; a timeout before the thread of a request has started; and a release of
whatever `doProvisioningLockSuid_` happens to name, when that is the uid of a running thread.
Along orderly steps commands run under their own lock, and so do provisioning threads.
-/
import McDaemon.RootPa.ServiceLock
import Mathlib.Tactic.SplitIfs

namespace McDaemon.RootPa

open McDaemon.Lib
open LockState (Action)

/-! ## Exclusion -/

/-- A command that reaches the native layer does so under the lock, and its uid was granted it. -/
def ReachesLocked (c : LockState) : Action → Prop
  | .call i _ => ∀ uid, c.calls[i]? = some (.executing uid) → c.lock = uid ∧ uid ∈ c.granted
  | _ => True

/-- A provisioning thread has the lock, and nobody else is granted it. -/
def HoldsLock (c : LockState) : Prop :=
  ∀ t ∈ c.threads, t.guarded = true →
    c.lock = t.uid ∧ ∀ uid, (c.acquireLock uid).1 = .ok → uid = t.uid

/-! ## Orderly steps -/

/-- A request that is about to start its thread, or a thread, counts on the lock of `uid`. -/
def Relied (c : LockState) (uid : UInt32) : Prop :=
  (∃ call ∈ c.calls, call.pending = some uid) ∨ ∃ t ∈ c.threads, t.guarded = true ∧ t.uid = uid

instance (c : LockState) (uid : UInt32) : Decidable (Relied c uid) :=
  inferInstanceAs (Decidable (_ ∨ _))

/-- Where a release takes what `doProvisioningLockSuid_` said, nobody counts on it. -/
def Orderly (c : LockState) : Action → Prop
  | .executeCmpCommands uid => uid ≠ lockFree
  | .releaseLock uid => .executing uid ∉ c.calls
  | .timeout => ∀ call ∈ c.calls, call.pending = none ∧ ∀ uid, call ≠ .executing uid
  | .call i _ => ∀ r uid, c.calls[i]? = some (.releasing r uid) → ¬ Relied c uid
  | .thread i => ∀ t ∈ c.threads[i]?, ∀ s uid, t.stage = .releasing s uid → ¬ Relied c uid
  | _ => True

/-! ## The invariant -/

structure LockInv (c : LockState) : Prop where
  granted : c.lock ≠ lockFree → c.lock ∈ c.granted
  executing : ∀ uid, .executing uid ∈ c.calls →
    uid ≠ lockFree ∧ c.lock = uid ∧ uid ∉ c.provisioningUids ∧ .querying uid ∉ c.calls
  querying : ∀ uid, .querying uid ∈ c.calls → uid ≠ lockFree ∧ uid ∉ c.provisioningUids
  pending : ∀ call ∈ c.calls, ∀ uid, call.pending = some uid → uid ≠ lockFree ∧ c.lock = uid
  guarded : ∀ t ∈ c.threads, t.guarded = true → t.uid ≠ lockFree ∧ c.lock = t.uid

section Inv

variable {c d : LockState} {uid : UInt32}

theorem mem_provisioningUids : uid ∈ c.provisioningUids ↔
    (∃ call ∈ c.calls, call.uid = some uid) ∨ (∃ t ∈ c.threads, uid ∈ t.uids) ∨
      ∃ s, c.suid s = uid := by
  unfold LockState.provisioningUids
  rw [List.mem_append, List.mem_append, List.mem_filterMap, List.mem_flatMap, List.mem_map]
  have hall : (∃ s ∈ Service.all, c.suid s = uid) ↔ ∃ s, c.suid s = uid := by
    constructor
    · rintro ⟨s, -, hs⟩
      exact ⟨s, hs⟩
    · rintro ⟨s, hs⟩
      exact ⟨s, by cases s <;> decide, hs⟩
  rw [hall]

theorem pending_uid {call : Call} (h : call.pending = some uid) : call.uid = some uid := by
  cases call <;> first | exact h | cases h

/-- **Frame rule.** A step that leaves the lock alone, and puts nothing new on the way but calls
and threads that count on nothing new, keeps the invariant. -/
theorem LockInv.frame (h : LockInv c) (hlock : d.lock = c.lock) (hgranted : d.granted = c.granted)
    (hexecuting : ∀ uid, Call.executing uid ∈ d.calls → Call.executing uid ∈ c.calls)
    (hquerying : ∀ uid, Call.querying uid ∈ d.calls → Call.querying uid ∈ c.calls)
    (hpending : ∀ uid, Relied d uid → Relied c uid)
    (huids : ∀ uid ∈ d.provisioningUids, uid = lockFree ∨ uid ∈ c.provisioningUids) :
    LockInv d where
  granted := by
    rw [hlock, hgranted]
    exact h.granted
  executing := by
    intro uid hin
    obtain ⟨hfree, hheld, hprov, hquery⟩ := h.executing uid (hexecuting uid hin)
    refine ⟨hfree, hlock.trans hheld, fun hd => ?_, fun hd => hquery (hquerying uid hd)⟩
    rcases huids uid hd with hzero | hc
    · exact hfree hzero
    · exact hprov hc
  querying := by
    intro uid hin
    obtain ⟨hfree, hprov⟩ := h.querying uid (hquerying uid hin)
    refine ⟨hfree, fun hd => ?_⟩
    rcases huids uid hd with hzero | hc
    · exact hfree hzero
    · exact hprov hc
  pending := by
    intro call hin uid hpend
    rw [hlock]
    rcases hpending uid (.inl ⟨call, hin, hpend⟩) with ⟨call', hin', hpend'⟩ | ⟨t, ht, hguard, rfl⟩
    · exact h.pending call' hin' uid hpend'
    · exact h.guarded t ht hguard
  guarded := by
    intro t ht hguard
    rw [hlock]
    rcases hpending t.uid (.inr ⟨t, ht, hguard, rfl⟩) with ⟨call, hin, hpend⟩ | ⟨t', ht', hguard', heq⟩
    · exact h.pending call hin t.uid hpend
    · rw [← heq]
      exact h.guarded t' ht' hguard'

/-! ## The lock -/

@[simp] theorem acquireLock_calls (c : LockState) (uid : UInt32) :
    (c.acquireLock uid).2.calls = c.calls := by
  unfold LockState.acquireLock
  split_ifs <;> rfl

@[simp] theorem acquireLock_threads (c : LockState) (uid : UInt32) :
    (c.acquireLock uid).2.threads = c.threads := by
  unfold LockState.acquireLock
  split_ifs <;> rfl

@[simp] theorem acquireLock_suid (c : LockState) (uid : UInt32) :
    (c.acquireLock uid).2.suid = c.suid := by
  unfold LockState.acquireLock
  split_ifs <;> rfl

@[simp] theorem releaseLock_calls (c : LockState) (uid : UInt32) :
    (c.releaseLock uid).2.calls = c.calls := by
  unfold LockState.releaseLock
  split_ifs <;> rfl

@[simp] theorem releaseLock_threads (c : LockState) (uid : UInt32) :
    (c.releaseLock uid).2.threads = c.threads := by
  unfold LockState.releaseLock
  split_ifs <;> rfl

@[simp] theorem releaseLock_suid (c : LockState) (uid : UInt32) :
    (c.releaseLock uid).2.suid = c.suid := by
  unfold LockState.releaseLock
  split_ifs <;> rfl

/-- Whoever is granted the lock has it then, and it was free or already his. -/
theorem acquireLock_ok (h : (c.acquireLock uid).1 = .ok) :
    uid ≠ lockFree ∧ (c.acquireLock uid).2.lock = uid ∧ (c.lock = lockFree ∨ c.lock = uid) := by
  unfold LockState.acquireLock at h ⊢
  by_cases hzero : uid = lockFree
  · rw [if_pos hzero] at h
    cases h
  rw [if_neg hzero] at h ⊢
  by_cases hfree : c.lock = lockFree
  · rw [if_pos hfree]
    exact ⟨hzero, rfl, .inl hfree⟩
  rw [if_neg hfree] at h ⊢
  by_cases hown : c.lock = uid
  · rw [if_pos hown]
    exact ⟨hzero, hown, .inr hown⟩
  · rw [if_neg hown] at h
    cases h

theorem LockInv.holdsLock (h : LockInv c) : HoldsLock c := by
  intro t ht hguard
  obtain ⟨hfree, hheld⟩ := h.guarded t ht hguard
  refine ⟨hheld, fun uid hok => ?_⟩
  obtain ⟨-, -, hlock | hlock⟩ := acquireLock_ok hok
  · exact absurd (hheld.symm.trans hlock) hfree
  · exact hlock.symm.trans hheld

/-- While the lock is free, nobody counts on it. -/
theorem LockInv.acquireLock (h : LockInv c) (uid : UInt32) : LockInv (c.acquireLock uid).2 := by
  unfold LockState.acquireLock
  by_cases hzero : uid = lockFree
  · rw [if_pos hzero]
    exact h
  rw [if_neg hzero]
  by_cases hfree : c.lock = lockFree
  · rw [if_pos hfree]
    exact {
      granted := fun _ => List.mem_cons_self
      executing := fun u hin =>
        absurd ((h.executing u hin).2.1.symm.trans hfree) (h.executing u hin).1
      querying := h.querying
      pending := fun call hin u hpend =>
        absurd ((h.pending call hin u hpend).2.symm.trans hfree) (h.pending call hin u hpend).1
      guarded := fun t ht hguard =>
        absurd ((h.guarded t ht hguard).2.symm.trans hfree) (h.guarded t ht hguard).1 }
  rw [if_neg hfree]
  split_ifs
  · exact h
  · exact h

/-- A release of a uid that nobody counts on. -/
theorem LockInv.releaseLock (h : LockInv c) (hexecuting : .executing uid ∉ c.calls)
    (hrelied : ¬ Relied c uid) : LockInv (c.releaseLock uid).2 := by
  unfold LockState.releaseLock
  split_ifs with hzero hfree hown
  · exact h
  · exact h
  · exact {
      granted := fun hlock => absurd rfl hlock
      executing := by
        intro u hin
        have hu := (h.executing u hin).2.1
        rw [← hu, hown] at hin
        exact absurd hin hexecuting
      querying := h.querying
      pending := by
        intro call hin u hpend
        have hu := (h.pending call hin u hpend).2
        rw [← hu, hown] at hpend
        exact absurd (.inl ⟨call, hin, hpend⟩) hrelied
      guarded := by
        intro t ht hguard
        have hu := (h.guarded t ht hguard).2
        exact absurd (.inr ⟨t, ht, hguard, hu.symm.trans hown⟩) hrelied }
  · exact h

theorem LockInv.timeout (h : LockInv c)
    (hcalls : ∀ call ∈ c.calls, call.pending = none ∧ ∀ uid, call ≠ .executing uid) :
    LockInv c.timeout := by
  have huids : ∀ uid, uid ∈ c.timeout.provisioningUids ↔ uid ∈ c.provisioningUids := by
    intro uid
    rw [mem_provisioningUids, mem_provisioningUids]
    have hthreads : (∃ t ∈ c.timeout.threads, uid ∈ t.uids) ↔ ∃ t ∈ c.threads, uid ∈ t.uids := by
      unfold LockState.timeout
      simp [Thread.uids]
    rw [hthreads]
    rfl
  exact {
    granted := fun hlock => absurd rfl hlock
    executing := fun uid hin => absurd rfl ((hcalls _ hin).2 uid)
    querying := fun uid hin => ⟨(h.querying uid hin).1, fun hd =>
      (h.querying uid hin).2 ((huids uid).mp hd)⟩
    pending := by
      intro call hin uid hpend
      rw [(hcalls call hin).1] at hpend
      cases hpend
    guarded := by
      intro t ht hguard
      obtain ⟨t', -, rfl⟩ := List.mem_map.mp ht
      cases hguard }

/-! ## Fields -/

theorem LockInv.setSuid (h : LockInv c) (s : Service)
    (huid : uid = lockFree ∨ uid ∈ c.provisioningUids) : LockInv (c.setSuid s uid) := by
  refine h.frame (d := c.setSuid s uid) rfl rfl (fun _ hin => hin) (fun _ hin => hin)
    (fun _ hr => hr) fun u hu => ?_
  rcases mem_provisioningUids.mp hu with hcall | hthread | ⟨t, ht⟩
  · exact .inr (mem_provisioningUids.mpr (.inl hcall))
  · exact .inr (mem_provisioningUids.mpr (.inr (.inl hthread)))
  · by_cases hts : t = s
    · have hu' : (if t = s then uid else c.suid t) = u := ht
      rw [if_pos hts] at hu'
      rwa [← hu']
    · have hu' : (if t = s then uid else c.suid t) = u := ht
      rw [if_neg hts] at hu'
      exact .inr (mem_provisioningUids.mpr (.inr (.inr ⟨t, hu'⟩)))

theorem LockInv.setObj (h : LockInv c) (obj : Option Service) : LockInv { c with obj := obj } :=
  h.frame rfl rfl (fun _ hin => hin) (fun _ hin => hin) (fun _ hr => hr) fun _ hu => .inr hu

theorem mem_proceed {i : Nat} {next : Option Call} {call : Call}
    (h : call ∈ (c.proceed i next).calls) : call ∈ c.calls ∨ next = some call := by
  cases next with
  | none => exact .inl (List.mem_of_mem_eraseIdx h)
  | some new =>
    rcases List.mem_or_eq_of_mem_set h with hin | rfl
    · exact .inl hin
    · exact .inr rfl

theorem proceed_eq (c : LockState) (i : Nat) (next : Option Call) :
    (c.proceed i next).lock = c.lock ∧ (c.proceed i next).granted = c.granted ∧
      (c.proceed i next).threads = c.threads ∧ (c.proceed i next).suid = c.suid := by
  cases next with
  | none => exact ⟨rfl, rfl, rfl, rfl⟩
  | some call => exact ⟨rfl, rfl, rfl, rfl⟩

/-- A call goes on. -/
theorem LockInv.proceed (h : LockInv c) {i : Nat} {next : Option Call}
    (hnext : ∀ call, next = some call → (∀ u, call ≠ .executing u) ∧ (∀ u, call ≠ .querying u) ∧
      (∀ u, call.pending = some u → Relied c u) ∧
      ∀ u, call.uid = some u → u = lockFree ∨ u ∈ c.provisioningUids) :
    LockInv (c.proceed i next) := by
  obtain ⟨hlock, hgranted, hthreads, hsuid⟩ := proceed_eq c i next
  apply h.frame hlock hgranted
  · intro u hin
    rcases mem_proceed hin with hin | hnew
    · exact hin
    · exact absurd rfl ((hnext _ hnew).1 u)
  · intro u hin
    rcases mem_proceed hin with hin | hnew
    · exact hin
    · exact absurd rfl ((hnext _ hnew).2.1 u)
  · rintro u (⟨call, hin, hpend⟩ | hthread)
    · rcases mem_proceed hin with hin | hnew
      · exact .inl ⟨call, hin, hpend⟩
      · exact (hnext _ hnew).2.2.1 u hpend
    · rw [hthreads] at hthread
      exact .inr hthread
  · intro u hu
    rcases mem_provisioningUids.mp hu with ⟨call, hin, huid⟩ | hrest
    · rcases mem_proceed hin with hin | hnew
      · exact .inr (mem_provisioningUids.mpr (.inl ⟨call, hin, huid⟩))
      · exact (hnext _ hnew).2.2.2 u huid
    · rw [hthreads, hsuid] at hrest
      exact .inr (mem_provisioningUids.mpr (.inr hrest))

/-- A call returns. -/
theorem LockInv.returns (h : LockInv c) (i : Nat) : LockInv (c.proceed i none) :=
  h.proceed fun _ hnone => nomatch hnone

theorem mem_moveTo {i : Nat} {t t' : Thread} {next : Option Stage}
    (h : t' ∈ (c.moveTo i t next).threads) :
    t' ∈ c.threads ∨ ∃ stage, next = some stage ∧ t' = { t with stage } := by
  cases next with
  | none => exact .inl (List.mem_of_mem_eraseIdx h)
  | some stage =>
    rcases List.mem_or_eq_of_mem_set h with hin | heq
    · exact .inl hin
    · exact .inr ⟨stage, rfl, heq⟩

theorem moveTo_eq (c : LockState) (i : Nat) (t : Thread) (next : Option Stage) :
    (c.moveTo i t next).lock = c.lock ∧ (c.moveTo i t next).granted = c.granted ∧
      (c.moveTo i t next).calls = c.calls ∧ (c.moveTo i t next).suid = c.suid := by
  cases next with
  | none => exact ⟨rfl, rfl, rfl, rfl⟩
  | some stage => exact ⟨rfl, rfl, rfl, rfl⟩

/-- A thread goes on; it does not come back from its last callback. -/
theorem LockInv.moveTo (h : LockInv c) {i : Nat} {t : Thread} (ht : t ∈ c.threads)
    {next : Option Stage}
    (hnext : ∀ stage, next = some stage → (stage.exiting = false → t.stage.exiting = false) ∧
      ∀ u, stage.uid = some u → u = lockFree ∨ u ∈ c.provisioningUids) :
    LockInv (c.moveTo i t next) := by
  obtain ⟨hlock, hgranted, hcalls, hsuid⟩ := moveTo_eq c i t next
  apply h.frame hlock hgranted
  · intro u hin
    rwa [hcalls] at hin
  · intro u hin
    rwa [hcalls] at hin
  · rintro u (hcall | ⟨t', ht', hguard, huid⟩)
    · rw [hcalls] at hcall
      exact .inl hcall
    · rcases mem_moveTo ht' with hin | ⟨stage, hstage, rfl⟩
      · exact .inr ⟨t', hin, hguard, huid⟩
      · refine .inr ⟨t, ht, ?_, huid⟩
        have hexit := (hnext stage hstage).1
        unfold Thread.guarded at hguard ⊢
        rw [Bool.and_eq_true, Bool.not_eq_true', Bool.not_eq_true'] at hguard ⊢
        exact ⟨hguard.1, hexit hguard.2⟩
  · intro u hu
    rcases mem_provisioningUids.mp hu with hcall | ⟨t', ht', huid⟩ | hs
    · rw [hcalls] at hcall
      exact .inr (mem_provisioningUids.mpr (.inl hcall))
    · rcases mem_moveTo ht' with hin | ⟨stage, hstage, rfl⟩
      · exact .inr (mem_provisioningUids.mpr (.inr (.inl ⟨t', hin, huid⟩)))
      · rcases List.mem_cons.mp huid with rfl | harg
        · exact .inr (mem_provisioningUids.mpr (.inr (.inl ⟨t, ht, List.mem_cons_self⟩)))
        · exact (hnext stage hstage).2 u (Option.mem_toList.mp harg)
    · rw [hsuid] at hs
      exact .inr (mem_provisioningUids.mpr (.inr (.inr hs)))

/-! ## Steps -/

theorem mem_enter {call call' : Call} :
    call' ∈ (c.enter call).calls ↔ call' ∈ c.calls ∨ call' = call := by
  unfold LockState.enter
  rw [List.mem_append, List.mem_singleton]

theorem provisioningUids_enter {call : Call} :
    uid ∈ (c.enter call).provisioningUids ↔ uid ∈ c.provisioningUids ∨ call.uid = some uid := by
  rw [mem_provisioningUids, mem_provisioningUids]
  simp only [mem_enter, or_and_right, exists_or, exists_eq_left]
  exact or_right_comm

@[simp] theorem provisioningUids_acquireLock (c : LockState) (uid : UInt32) :
    (c.acquireLock uid).2.provisioningUids = c.provisioningUids := by
  unfold LockState.provisioningUids
  rw [acquireLock_calls, acquireLock_threads, acquireLock_suid]

/-- **Entry rule.** A new call keeps the invariant when what it counts on is so. -/
theorem LockInv.enter (h : LockInv c) {call : Call}
    (hexecuting : ∀ u, call = .executing u →
      u ≠ lockFree ∧ c.lock = u ∧ u ∉ c.provisioningUids ∧ .querying u ∉ c.calls)
    (hquerying : ∀ u, call = .querying u →
      u ≠ lockFree ∧ u ∉ c.provisioningUids ∧ .executing u ∉ c.calls)
    (hpending : ∀ u, call.pending = some u → u ≠ lockFree ∧ c.lock = u)
    (huid : ∀ u, call.uid = some u → .executing u ∉ c.calls ∧ .querying u ∉ c.calls) :
    LockInv (c.enter call) where
  granted := h.granted
  executing := by
    intro u hin
    rw [provisioningUids_enter]
    rcases mem_enter.mp hin with hin | hnew
    · obtain ⟨hfree, hheld, hprov, hquery⟩ := h.executing u hin
      refine ⟨hfree, hheld, ?_, fun hq => ?_⟩
      · rintro (hu | hu)
        · exact hprov hu
        · exact (huid u hu).1 hin
      · rcases mem_enter.mp hq with hq | hnew
        · exact hquery hq
        · exact (hquerying u hnew.symm).2.2 hin
    · obtain ⟨hfree, hheld, hprov, hquery⟩ := hexecuting u hnew.symm
      subst hnew
      refine ⟨hfree, hheld, ?_, fun hq => ?_⟩
      · rintro (hu | hu)
        · exact hprov hu
        · cases hu
      · rcases mem_enter.mp hq with hq | hnew
        · exact hquery hq
        · cases hnew
  querying := by
    intro u hin
    rw [provisioningUids_enter]
    rcases mem_enter.mp hin with hin | hnew
    · obtain ⟨hfree, hprov⟩ := h.querying u hin
      refine ⟨hfree, ?_⟩
      rintro (hu | hu)
      · exact hprov hu
      · exact (huid u hu).2 hin
    · obtain ⟨hfree, hprov, -⟩ := hquerying u hnew.symm
      subst hnew
      refine ⟨hfree, ?_⟩
      rintro (hu | hu)
      · exact hprov hu
      · cases hu
  pending := by
    intro call' hin u hpend
    rcases mem_enter.mp hin with hin | rfl
    · exact h.pending call' hin u hpend
    · exact hpending u hpend
  guarded := h.guarded

/-- A query starts under the lock. -/
theorem LockInv.query (h : LockInv c) (hfresh : c.Fresh uid) :
    LockInv (c.start uid (.querying uid)) := by
  obtain ⟨hzero, -, hprov, -, hexecuting⟩ := hfresh
  unfold LockState.start
  split_ifs
  · apply (h.acquireLock uid).enter
    · nofun
    · rintro _ ⟨⟩
      rw [provisioningUids_acquireLock, acquireLock_calls]
      exact ⟨hzero, hprov, hexecuting⟩
    · nofun
    · nofun
  · exact h

/-- So does a request. -/
theorem LockInv.request (h : LockInv c) (r : Request) (hfresh : c.Fresh uid) :
    LockInv (c.start uid (.requested r uid)) := by
  obtain ⟨hzero, -, -, hquerying, hexecuting⟩ := hfresh
  unfold LockState.start
  split_ifs with hok
  · apply (h.acquireLock uid).enter
    · nofun
    · nofun
    · rintro _ ⟨⟩
      exact ⟨hzero, (acquireLock_ok hok).2.1⟩
    · rintro _ ⟨⟩
      rw [acquireLock_calls]
      exact ⟨hexecuting, hquerying⟩
  · exact h

/-- A command passes the check. -/
theorem LockInv.executeCmpCommands (h : LockInv c) (hforeign : c.Foreign uid)
    (hzero : uid ≠ lockFree) (hlocked : ¬ c.locked uid = true) :
    LockInv (c.enter (.executing uid)) := by
  obtain ⟨hprov, hquery⟩ := hforeign hzero
  have hheld : c.lock = uid := by
    by_contra hne
    exact hlocked (decide_eq_true ⟨hne, hzero⟩)
  apply h.enter
  · rintro _ ⟨⟩
    exact ⟨hzero, hheld, hprov, hquery⟩
  · nofun
  · nofun
  · nofun

/-- Nobody counts on the uid of a query or of a client but its owner. -/
theorem not_relied (hprov : uid ∉ c.provisioningUids) : ¬ Relied c uid := by
  rintro (⟨call, hin, hpend⟩ | ⟨t, ht, -, rfl⟩)
  · exact hprov (mem_provisioningUids.mpr (.inl ⟨call, hin, pending_uid hpend⟩))
  · exact hprov (mem_provisioningUids.mpr (.inr (.inl ⟨t, ht, List.mem_cons_self⟩)))

/-- A release of what `doProvisioningLockSuid_` said does not hit a command. -/
theorem LockInv.not_executing (h : LockInv c) (hprov : uid ∈ c.provisioningUids) :
    .executing uid ∉ c.calls := fun hin => (h.executing uid hin).2.2.1 hprov

theorem LockInv.afterFailure (h : LockInv c) (i : Nat) (r : Request) :
    LockInv (c.proceed i (LockState.afterFailure r)) := by
  apply h.proceed
  intro call hcall
  cases r <;> cases hcall <;> exact ⟨nofun, nofun, nofun, nofun⟩

theorem LockInv.stepCall (h : LockInv c) {i : Nat} {call : Call} (hcall : c.calls[i]? = some call)
    (hreleasing : ∀ r uid, call = .releasing r uid → ¬ Relied c uid) (ok : Bool) :
    LockInv (c.stepCall i ok call) := by
  have hin : call ∈ c.calls := List.mem_of_getElem? hcall
  have hprov : ∀ u, call.uid = some u → u ∈ c.provisioningUids := fun u hu =>
    mem_provisioningUids.mpr (.inl ⟨call, hin, hu⟩)
  cases call with
  | executing uid => exact h.returns i
  | querying uid =>
    -- the uid of a query is none that provisioning relies on
    apply LockInv.returns
    apply h.releaseLock
    · exact fun hexec => (h.executing uid hexec).2.2.2 hin
    · exact not_relied (h.querying uid hin).2
  | requested r uid =>
    have huid : uid ∈ c.provisioningUids := hprov uid rfl
    show LockInv ((c.setSuid r.service uid).proceed i (some (.noted r uid)))
    apply (h.setSuid r.service (.inr huid)).proceed
    rintro _ ⟨⟩
    refine ⟨nofun, nofun, ?_, ?_⟩
    · rintro _ ⟨⟩
      exact .inl ⟨_, hin, rfl⟩
    · rintro _ ⟨⟩
      exact .inr (mem_provisioningUids.mpr (.inl ⟨_, hin, rfl⟩))
  | noted r uid =>
    unfold LockState.stepCall
    split_ifs
    · apply (h.setObj (some r.service)).proceed
      rintro _ ⟨⟩
      refine ⟨nofun, nofun, ?_, ?_⟩
      · rintro _ ⟨⟩
        exact .inl ⟨_, hin, rfl⟩
      · rintro _ ⟨⟩
        exact .inr (hprov uid rfl)
    · exact h.afterFailure i r
  | entered r uid =>
    unfold LockState.stepCall
    split_ifs
    · -- the thread takes over what the request counted on
      have hthread : LockInv { c with threads := c.threads ++ [Thread.mk uid false .running] } := by
        refine h.frame (d := { c with threads := c.threads ++ [Thread.mk uid false .running] }) rfl
          rfl (fun _ hu => hu) (fun _ hu => hu) ?_ ?_
        · rintro u (hcall | ⟨t, ht, hguard, rfl⟩)
          · exact .inl hcall
          · rcases List.mem_append.mp ht with ht | hnew
            · exact .inr ⟨t, ht, hguard, rfl⟩
            · rw [List.mem_singleton.mp hnew]
              exact .inl ⟨_, hin, rfl⟩
        · intro u hu
          rcases mem_provisioningUids.mp hu with hcall | ⟨t, ht, huid⟩ | hs
          · exact .inr (mem_provisioningUids.mpr (.inl hcall))
          · rcases List.mem_append.mp ht with ht | hnew
            · exact .inr (mem_provisioningUids.mpr (.inr (.inl ⟨t, ht, huid⟩)))
            · rw [List.mem_singleton.mp hnew] at huid
              rw [List.mem_singleton.mp huid]
              exact .inr (hprov uid rfl)
          · exact .inr (mem_provisioningUids.mpr (.inr (.inr hs)))
      apply hthread.proceed
      intro call hnext
      cases r <;> cases hnext
      exact ⟨nofun, nofun, nofun, nofun⟩
    · exact h.afterFailure i r
  | unlocking r =>
    show LockInv (c.proceed i (some (.releasing r (c.suid r.service))))
    apply h.proceed
    rintro _ ⟨⟩
    refine ⟨nofun, nofun, nofun, ?_⟩
    rintro _ ⟨⟩
    exact .inr (mem_provisioningUids.mpr (.inr (.inr ⟨r.service, rfl⟩)))
  | releasing r uid =>
    apply LockInv.proceed
    · exact h.releaseLock (h.not_executing (hprov uid rfl)) (hreleasing r uid rfl)
    · intro call hnext
      obtain ⟨-, ⟨⟩⟩ := Option.ite_none_right_eq_some.mp hnext
      exact ⟨nofun, nofun, nofun, nofun⟩
  | clearing r => exact (h.setSuid r.service (.inl rfl)).returns i

theorem LockInv.callback (h : LockInv c) {i : Nat} {t : Thread} (ht : t ∈ c.threads)
    (hrunning : t.stage = .running) (exiting : Bool) : LockInv (c.callback i t exiting) := by
  unfold LockState.callback
  cases c.obj with
  | some s =>
    apply h.moveTo ht
    rintro _ ⟨⟩
    refine ⟨fun _ => ?_, nofun⟩
    rw [hrunning]
    rfl
  | none =>
    dsimp only
    split_ifs
    · exact h.moveTo ht fun _ hnone => nomatch hnone
    · exact h

theorem LockInv.stepThread (h : LockInv c) {i : Nat} {t : Thread} (ht : t ∈ c.threads)
    (hreleasing : ∀ s uid, t.stage = .releasing s uid → ¬ Relied c uid)
    (hstep : c.stepThread i t t.stage = some d) : LockInv d := by
  obtain ⟨uid, timedOut, stage⟩ := t
  have hprov : ∀ u, stage.uid = some u → u ∈ c.provisioningUids := fun u hu =>
    mem_provisioningUids.mpr (.inr (.inl ⟨_, ht, List.mem_cons_of_mem _
      (Option.mem_toList.mpr hu)⟩))
  cases stage with
  | running => cases hstep
  | calling s exiting =>
    cases hstep
    apply h.moveTo ht
    rintro _ ⟨⟩
    refine ⟨id, ?_⟩
    rintro _ ⟨⟩
    exact .inr (mem_provisioningUids.mpr (.inr (.inr ⟨s, rfl⟩)))
  | refreshing s u exiting =>
    cases hstep
    apply (h.acquireLock u).moveTo (by rwa [acquireLock_threads])
    rintro _ ⟨⟩
    cases exiting
    · exact ⟨fun _ => rfl, nofun⟩
    · exact ⟨nofun, nofun⟩
  | leaving s =>
    cases hstep
    apply h.moveTo ht
    rintro _ ⟨⟩
    refine ⟨nofun, ?_⟩
    rintro _ ⟨⟩
    exact .inr (mem_provisioningUids.mpr (.inr (.inr ⟨s, rfl⟩)))
  | releasing s u =>
    cases hstep
    have hc := h.releaseLock (h.not_executing (hprov u rfl)) (hreleasing s u rfl)
    apply hc.moveTo (by rwa [releaseLock_threads])
    rintro _ ⟨⟩
    exact ⟨nofun, nofun⟩
  | clearing s =>
    cases hstep
    apply (h.setSuid s (.inl rfl)).moveTo ht
    rintro _ ⟨⟩
    exact ⟨nofun, nofun⟩
  | detaching =>
    cases hstep
    exact (h.setObj none).moveTo ht fun _ hnone => nomatch hnone

/-- **Steps.** An orderly step keeps the invariant. -/
theorem LockInv.step (h : LockInv c) {a : Action} (hstep : c.step a = some d)
    (horderly : Orderly c a) : LockInv d := by
  cases a with
  | acquireLock uid =>
    obtain ⟨-, ⟨⟩⟩ := Option.ite_none_right_eq_some.mp hstep
    exact h.acquireLock uid
  | releaseLock uid =>
    obtain ⟨hforeign, ⟨⟩⟩ := Option.ite_none_right_eq_some.mp hstep
    by_cases hzero : uid = lockFree
    · have hsame : (c.releaseLock uid).2 = c := by
        unfold LockState.releaseLock
        rw [if_pos hzero]
      rw [hsame]
      exact h
    · exact h.releaseLock horderly (not_relied (hforeign hzero).1)
  | executeCmpCommands uid =>
    obtain ⟨hforeign, ⟨⟩⟩ := Option.ite_none_right_eq_some.mp hstep
    split_ifs with hlocked
    · exact h
    · exact h.executeCmpCommands hforeign horderly hlocked
  | query uid =>
    obtain ⟨hfresh, ⟨⟩⟩ := Option.ite_none_right_eq_some.mp hstep
    exact h.query hfresh
  | request r uid =>
    obtain ⟨hfresh, ⟨⟩⟩ := Option.ite_none_right_eq_some.mp hstep
    exact h.request r hfresh
  | call i ok =>
    obtain ⟨call, hcall, rfl⟩ := Option.map_eq_some_iff.mp hstep
    apply h.stepCall hcall _ ok
    rintro r uid rfl
    exact horderly r uid hcall
  | callback i exiting =>
    obtain ⟨t, ht, hsome⟩ := Option.bind_eq_some_iff.mp hstep
    obtain ⟨hrunning, ⟨⟩⟩ := Option.ite_none_right_eq_some.mp hsome
    exact h.callback (List.mem_of_getElem? ht) hrunning exiting
  | thread i =>
    obtain ⟨t, ht, hsome⟩ := Option.bind_eq_some_iff.mp hstep
    exact h.stepThread (List.mem_of_getElem? ht) (horderly t ht) hsome
  | timeout =>
    cases hstep
    exact h.timeout horderly

theorem LockInv.reachesLocked (h : LockInv c) (a : Action) : ReachesLocked c a := by
  cases a with
  | call i ok =>
    intro uid hcall
    obtain ⟨hfree, hheld, -⟩ := h.executing uid (List.mem_of_getElem? hcall)
    have hgranted := h.granted (by rwa [hheld])
    rw [hheld] at hgranted
    exact ⟨hheld, hgranted⟩
  | _ => trivial

theorem unlocked_inv : LockInv unlocked where
  granted := fun h => absurd rfl h
  executing := nofun
  querying := nofun
  pending := nofun
  guarded := nofun

end Inv

/-! ## Runs -/

/-- **Exclusive use.** In a run of orderly steps every provisioning thread has the lock from its
start to its last callback, so that nobody else is granted it, and every command reaches the native
layer under the lock that was granted to its uid. -/
theorem exclusive_of_orderly {as : List Action} (h : lockMachine.RunMeets Orderly unlocked as) :
    lockMachine.RunStays HoldsLock unlocked as ∧
      lockMachine.RunMeets ReachesLocked unlocked as := by
  have hkeep : ∀ s a t, LockInv s → Orderly s a → lockMachine.step s a = some t → LockInv t :=
    fun s a t hs horderly ht => hs.step ht horderly
  constructor
  · exact lockMachine.runStays_of_inv (fun _ hs => hs.holdsLock)
      (fun s a t hs ht horderly => hkeep s a t hs horderly ht) unlocked_inv h
  · exact lockMachine.runMeets_of_inv hkeep (fun _ a hs _ => hs.reachesLocked a) unlocked_inv h

/-- A client executes commands; then a provisioning thread starts, reports once and exits. -/
theorem exclusive_inTurn :
    lockMachine.RunStays HoldsLock unlocked
        [.acquireLock 7, .executeCmpCommands 7, .call 0 true, .releaseLock 7,
          .request .doProvisioning 5, .call 0 true, .call 0 true, .call 0 true, .callback 0 false,
          .thread 0, .thread 0, .callback 0 true, .thread 0, .thread 0, .thread 0, .thread 0] ∧
      lockMachine.RunMeets ReachesLocked unlocked
        [.acquireLock 7, .executeCmpCommands 7, .call 0 true, .releaseLock 7,
          .request .doProvisioning 5, .call 0 true, .call 0 true, .call 0 true, .callback 0 false,
          .thread 0, .thread 0, .callback 0 true, .thread 0, .thread 0, .thread 0, .thread 0] := by
  refine exclusive_of_orderly ⟨trivial, ?_, nofun, List.not_mem_nil, trivial, nofun, nofun, nofun,
    trivial, ?_, ?_, trivial, ?_, ?_, ?_, ?_, trivial⟩
  · show (7 : UInt32) ≠ lockFree
    decide
  · rintro _ ⟨⟩ _ _ ⟨⟩
  · rintro _ ⟨⟩ _ _ ⟨⟩
  · rintro _ ⟨⟩ _ _ ⟨⟩
  · rintro _ ⟨⟩ _ _ ⟨⟩
  · rintro _ ⟨⟩ _ _ ⟨⟩
  · rintro _ ⟨⟩ _ _ ⟨⟩
    decide

/-- The uid 0 passes the check while another client has the lock, and a root unregistration gives
the lock away while its thread is running. -/
theorem lock_lost :
    ¬ lockMachine.RunMeets ReachesLocked unlocked
        [.acquireLock 7, .executeCmpCommands 0, .call 0 true] ∧
      ¬ lockMachine.RunStays HoldsLock unlocked
        [.request .unregisterRootContainer 5, .call 0 true, .call 0 true, .call 0 true,
          .call 0 true, .call 0 true] := by
  constructor
  · rintro ⟨-, -, hreaches, -⟩
    exact absurd (hreaches 0 rfl).1 (by decide)
  · rintro ⟨-, -, -, -, -, -, hholds⟩
    exact absurd (hholds ⟨5, false, .running⟩ List.mem_cons_self rfl).1 (by decide)

end McDaemon.RootPa
