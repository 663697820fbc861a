/-
# McDaemon.RootPa.LockTimeout — whom a timeout hits.

A step is `Orderly` when it keeps clear of the ways in which a timer or a release hits somebody
else: the lock is acquired through one object while a timer of another one runs on or a task has
begun; it is released past a session that is open elsewhere, or that stays open; a task begins while
its own object is about to cancel it.  Along orderly steps a timer frees the lock of a holder who
has not asked for it for as long as the timeout says, and sessions last as long as their holders.
-/
import McDaemon.RootPa.LockTimer
import Mathlib.Data.Fintype.Defs

namespace McDaemon.RootPa.Timer

open McDaemon.Lib

namespace TimedLock

variable {S : Type}

/-! ## The timeout and the sessions -/

/-- A task that frees the lock of a holder does so when the last `acquireLock` that succeeded, which
is the holder's, is long enough ago. -/
def TimesOut (c : TimedLock S) : Action S → Prop
  | .task i => ∀ t ∈ c.taskAt i, t.stage = .freeing → c.lock ≠ lockFree →
      c.acquired + lockTimeoutMs ≤ c.now
  | _ => True

/-- The method that is running has been granted the lock, and has not started its timer. -/
def Granted (c : TimedLock S) (s : S) : Prop := (c.objects s).call.any Call.granted = true

/-- The method that is running is certain to cancel the timer of its object. -/
def Doomed (c : TimedLock S) (s : S) : Prop := (c.objects s).call.any Call.cancels = true

/-- A task that may still free the lock. -/
def Armed (c : TimedLock S) (t : Task S) : Prop :=
  t.stage = .freeing ∨ t.stage = .scheduled ∧ ¬ c.Doomed t.service

/-- A timer of the object is running, or will be. -/
def Live (c : TimedLock S) (s : S) : Prop :=
  c.Granted s ∨ ∃ t ∈ c.tasks, t.service = s ∧ c.Armed t

/-- The method is about to be granted the lock. -/
def Succeeds (c : TimedLock S) : Call → Prop
  | .acquiring _ _ => c.lock = lockFree
  | .rechecking uid => c.lock = uid
  | _ => False

/-- No timer but that of the object itself runs on. -/
def Clear (c : TimedLock S) (s : S) : Prop :=
  (∀ r, r ≠ s → ¬ c.Live r) ∧ ∀ t ∈ c.tasks, t.stage.running = false

/-- A release of the lock leaves no session behind, and no `acquireLock` in the middle. -/
def Sole (c : TimedLock S) (s : S) (closeSession : Bool) : Prop :=
  (∀ r, r ≠ s → (c.objects r).sessionOpened = false ∧ ¬ c.Granted r) ∧
    ((c.objects s).sessionOpened = true → closeSession = true)

def OrderlyCall (c : TimedLock S) (s : S) (call : Call) : Prop :=
  (c.Succeeds call → c.Clear s) ∧
    ∀ closeSession, call = .freeing c.lock closeSession → c.Sole s closeSession

/-- The lock is acquired when no timer of another object runs on and no task has begun; it is
released when no other object has a session or is just being granted the lock, and a session of this
one is closed with it; and a task does not begin when its object is about to cancel it. -/
def Orderly (c : TimedLock S) : Action S → Prop
  | .call s => ∀ call ∈ (c.objects s).call, c.OrderlyCall s call
  | .task i => ∀ t ∈ c.taskAt i, t.stage = .scheduled → ¬ c.Doomed t.service
  | _ => True

section Decidable

variable [DecidableEq S] (c : TimedLock S)

instance (s : S) : Decidable (c.Granted s) := inferInstanceAs (Decidable (_ = _))

instance (s : S) : Decidable (c.Doomed s) := inferInstanceAs (Decidable (_ = _))

instance (t : Task S) : Decidable (c.Armed t) := inferInstanceAs (Decidable (_ ∨ _ ∧ ¬ _))

instance (s : S) : Decidable (c.Live s) := inferInstanceAs (Decidable (_ ∨ ∃ t ∈ _, _ ∧ _))

instance (call : Call) : Decidable (c.Succeeds call) :=
  match call with
  | .acquiring _ _ => inferInstanceAs (Decidable (_ = _))
  | .rechecking _ => inferInstanceAs (Decidable (_ = _))
  | .opening _ _ | .entering _ | .opened | .replacing | .scheduling | .releasing _ _
  | .freeing _ _ | .closing _ | .leaving | .closed | .cancelling => .isFalse not_false

variable [Fintype S]

instance (s : S) : Decidable (c.Clear s) :=
  inferInstanceAs (Decidable ((∀ r, r ≠ s → ¬ _) ∧ ∀ t ∈ _, _))

instance (s : S) (closeSession : Bool) : Decidable (c.Sole s closeSession) :=
  inferInstanceAs (Decidable ((∀ r, r ≠ s → _ ∧ ¬ _) ∧ (_ → _)))

instance (s : S) (call : Call) : Decidable (c.OrderlyCall s call) :=
  inferInstanceAs (Decidable ((_ → _) ∧ ∀ _, _ → _))

instance (a : Action S) : Decidable (c.Orderly a) :=
  match a with
  | .call _ => inferInstanceAs (Decidable (∀ call ∈ _, c.OrderlyCall _ call))
  | .task _ => inferInstanceAs (Decidable (∀ t ∈ _, _ → ¬ _))
  | .acquireLock _ _ _ | .releaseLock _ _ _ | .wait _ => .isTrue trivial

end Decidable

/-! ## The invariant -/

/-- What holds of one object, with the lock, the tenure and the tasks as they are. -/
structure ObjectOk (lock : UInt32) (tenure : Nat) (tasks : List (Task S)) (s : S)
    (o : ServiceObject) : Prop where
  uid : o.call.bind Call.uid ≠ some lockFree
  /-- The flag says whether the session is open, but in the middle of opening and closing it. -/
  marked : o.session = true → o.sessionOpened = true ∨ o.call = some .opened
  flagged : o.sessionOpened = true → o.session = true ∨ o.call = some .closed ∨
    ∃ t ∈ tasks, t.service = s ∧ t.stage = .clearing
  opened : o.call = some .opened → o.session = true
  closed : o.call = some .closed → o.session = false
  clearing : ∀ t ∈ tasks, t.service = s → t.stage = .clearing → o.session = false
  opening : ∀ k, o.call.bind Call.tenure = some k →
    k = tenure ∧ o.session = false ∧ o.sessionOpened = false
  past : ∀ k, o.sessionFor = some k → k ≤ tenure
  current : lock ≠ lockFree → o.sessionFor = some tenure →
    o.session = true ∧ o.call.any Call.freed = false
  closes : o.session = true → (lock ≠ lockFree ∧ o.sessionFor = some tenure) ∨
    o.call = some (.closing true) ∨ o.call = some .leaving ∨
    ∃ t ∈ tasks, t.service = s ∧ (t.stage = .checking ∨ t.stage = .closing)

structure Inv (c : TimedLock S) : Prop where
  object : ∀ s, ObjectOk c.lock c.tenure c.tasks s (c.objects s)
  /-- An object has one scheduled task at most. -/
  timer : ∀ i t, c.taskAt i = some t → t.stage = .scheduled →
    (c.objects t.service).timer = some i
  own : ∀ s i, (c.objects s).timer = some i → ∃ t, c.taskAt i = some t ∧ t.service = s
  due : ∀ t ∈ c.tasks, t.stage = .freeing → t.due ≤ c.now
  acquired : c.acquired ≤ c.now
  granted : ∀ s, c.Granted s → c.lock ≠ lockFree ∧ ∀ t ∈ c.tasks,
    t.stage = .ended ∨ t.stage = .scheduled ∧ c.Doomed t.service
  idle : c.lock ≠ lockFree → ∀ t ∈ c.tasks, t.stage.running = true → t.stage = .freeing
  /-- While the lock is held, the timer of one object runs at most, and not too short. -/
  live : c.lock ≠ lockFree → ∀ r s, c.Live r → c.Live s → r = s
  armed : c.lock ≠ lockFree → ∀ s, (c.objects s).sessionFor = some c.tenure → c.Live s
  fresh : c.lock ≠ lockFree → ∀ t ∈ c.tasks, c.Armed t → c.acquired + lockTimeoutMs ≤ t.due

section States

variable {c : TimedLock S} {s : S} {o : ServiceObject} {lock : UInt32} {tenure : Nat}
  {tasks : List (Task S)}

theorem granted_iff {call : Call} (hcall : (c.objects s).call = some call) :
    c.Granted s ↔ call.granted = true := by
  unfold Granted
  rw [hcall]
  rfl

theorem doomed_iff {call : Call} (hcall : (c.objects s).call = some call) :
    c.Doomed s ↔ call.cancels = true := by
  unfold Doomed
  rw [hcall]
  rfl

/-- The timers do not see the difference between two states of an object. -/
structure Alike (o p : ServiceObject) : Prop where
  timer : p.timer = o.timer
  granted : p.call.any Call.granted = o.call.any Call.granted
  cancels : p.call.any Call.cancels = o.call.any Call.cancels

/-- A method that goes on from one call to another, when that is nothing for the session. -/
structure Moves (lock : UInt32) (session : Bool) (x y : Option Call) : Prop where
  uid : x.bind Call.uid ≠ some lockFree → y.bind Call.uid ≠ some lockFree
  settled : (x ≠ some .opened ∧ x ≠ some .closed) ∧ y ≠ some .opened ∧ y ≠ some .closed
  opening : ∀ k, y.bind Call.tenure = some k → x.bind Call.tenure = some k
  freed : y.any Call.freed = true → x.any Call.freed = true ∨ lock = lockFree
  closes : session = true → x = some (.closing true) ∨ x = some .leaving →
    y = some (.closing true) ∨ y = some .leaving

theorem ObjectOk.move (h : ObjectOk lock tenure tasks s o) {y : Option Call}
    (hm : Moves lock o.session o.call y) (result : Option CommandResult) :
    ObjectOk lock tenure tasks s { o with call := y, returned := result } where
  uid := hm.uid h.uid
  marked := fun hs => .inl ((h.marked hs).resolve_right hm.settled.1.1)
  flagged := fun hflag => (h.flagged hflag).imp_right fun hrest =>
    .inr (hrest.resolve_left hm.settled.1.2)
  opened := fun hcall => absurd hcall hm.settled.2.1
  closed := fun hcall => absurd hcall hm.settled.2.2
  clearing := h.clearing
  opening := fun k hk => h.opening k (hm.opening k hk)
  past := h.past
  current := by
    intro hlock hfor
    obtain ⟨hsession, hfreed⟩ := h.current hlock hfor
    refine ⟨hsession, Bool.eq_false_iff.mpr fun hcall => ?_⟩
    rcases hm.freed hcall with hold | hfree
    · rw [hfreed] at hold
      cases hold
    · exact hlock hfree
  closes := by
    intro hs
    rcases h.closes hs with hcurrent | hcall | hcall | htask
    · exact .inl hcurrent
    · exact .inr ((hm.closes hs (.inl hcall)).imp_right .inl)
    · exact .inr ((hm.closes hs (.inr hcall)).imp_right .inl)
    · exact .inr (.inr (.inr htask))

/-- An object that does not take part when a tenure begins. -/
theorem ObjectOk.newTenure (h : ObjectOk lockFree tenure tasks s o)
    (hgranted : ¬ o.call.any Call.granted = true) (uid : UInt32) :
    ObjectOk uid (tenure + 1) tasks s o where
  uid := h.uid
  marked := h.marked
  flagged := h.flagged
  opened := h.opened
  closed := h.closed
  clearing := h.clearing
  opening := by
    intro k hk
    exfalso
    obtain ⟨call, hcall, htenure⟩ := Option.bind_eq_some_iff.mp hk
    rw [hcall] at hgranted
    cases call with
    | opening _ _ | entering _ => exact hgranted rfl
    | _ => cases htenure
  past := fun k hk => Nat.le_succ_of_le (h.past k hk)
  current := by
    intro _ hfor
    have hle := h.past _ hfor
    omega
  closes := fun hs => .inr ((h.closes hs).resolve_left fun hcurrent => hcurrent.1 rfl)

/-- An object does not see changes of tasks that have nothing to do with sessions. -/
theorem ObjectOk.tasks_congr (h : ObjectOk lock tenure tasks s o) {tasks' : List (Task S)}
    (hmem : ∀ t, t.service = s → t.stage = .checking ∨ t.stage = .closing ∨ t.stage = .clearing →
      (t ∈ tasks' ↔ t ∈ tasks)) : ObjectOk lock tenure tasks' s o where
  uid := h.uid
  marked := h.marked
  flagged := by
    intro hflag
    refine (h.flagged hflag).imp_right (Or.imp_right ?_)
    rintro ⟨t, ht, hts, hstage⟩
    exact ⟨t, (hmem t hts (.inr (.inr hstage))).mpr ht, hts, hstage⟩
  opened := h.opened
  closed := h.closed
  clearing := fun t ht hts hstage =>
    h.clearing t ((hmem t hts (.inr (.inr hstage))).mp ht) hts hstage
  opening := h.opening
  past := h.past
  current := h.current
  closes := by
    intro hs
    refine (h.closes hs).imp_right (Or.imp_right (Or.imp_right ?_))
    rintro ⟨t, ht, hts, hstage⟩
    exact ⟨t, (hmem t hts (hstage.imp_right .inl)).mpr ht, hts, hstage⟩

/-- An object that is left alone when the lock becomes free. -/
theorem ObjectOk.free (h : ObjectOk lock tenure tasks s o)
    (hcloses : o.session = true → o.call = some (.closing true) ∨ o.call = some .leaving ∨
      ∃ t ∈ tasks, t.service = s ∧ (t.stage = .checking ∨ t.stage = .closing)) :
    ObjectOk lockFree tenure tasks s o :=
  { h with
    current := fun hfree => absurd rfl hfree
    closes := fun hs => .inr (hcloses hs) }

/-- What is left of the invariant while the lock is free. -/
theorem Inv.of_free (hlock : c.lock = lockFree)
    (hobject : ∀ s, ObjectOk c.lock c.tenure c.tasks s (c.objects s))
    (htimer : ∀ i t, c.taskAt i = some t → t.stage = .scheduled →
      (c.objects t.service).timer = some i)
    (hown : ∀ s i, (c.objects s).timer = some i → ∃ t, c.taskAt i = some t ∧ t.service = s)
    (hdue : ∀ t ∈ c.tasks, t.stage = .freeing → t.due ≤ c.now) (hacquired : c.acquired ≤ c.now)
    (hgranted : ∀ s, ¬ c.Granted s) : Inv c where
  object := hobject
  timer := htimer
  own := hown
  due := hdue
  acquired := hacquired
  granted := fun s hs => absurd hs (hgranted s)
  idle := fun h => absurd hlock h
  live := fun h => absurd hlock h
  armed := fun h => absurd hlock h
  fresh := fun h => absurd hlock h

theorem Inv.not_granted (h : Inv c) (hlock : c.lock = lockFree) (s : S) : ¬ c.Granted s :=
  fun hs => (h.granted s hs).1 hlock

/-- While the lock is free, a session is open only where it is just being closed. -/
theorem Inv.session_free (h : Inv c) (hlock : c.lock = lockFree) (hrunning : ∀ t ∈ c.tasks,
    t.stage.running = false) (hfreed : (c.objects s).call.any Call.freed = false) :
    (c.objects s).session = false ∧ (c.objects s).sessionOpened = false := by
  have htask : ∀ stage : TaskStage, stage.running = true →
      ¬ ∃ t ∈ c.tasks, t.service = s ∧ t.stage = stage := by
    rintro stage hstage ⟨t, ht, -, rfl⟩
    rw [hrunning t ht] at hstage
    cases hstage
  have hcall : ∀ call, (c.objects s).call = some call → call.freed = false := by
    intro call hcall
    rw [hcall] at hfreed
    exact hfreed
  have hsession : (c.objects s).session = false := by
    by_contra hopen
    rcases (h.object s).closes (Bool.not_eq_false _ ▸ hopen) with
      hcurrent | hclosing | hleaving | ⟨t, ht, hts, hstage | hstage⟩
    · exact hcurrent.1 hlock
    · exact absurd (hcall _ hclosing) nofun
    · exact absurd (hcall _ hleaving) nofun
    · exact htask .checking rfl ⟨t, ht, hts, hstage⟩
    · exact htask .closing rfl ⟨t, ht, hts, hstage⟩
  refine ⟨hsession, ?_⟩
  by_contra hflag
  rcases (h.object s).flagged (Bool.not_eq_false _ ▸ hflag) with hopen | hclosed | hclearing
  · rw [hsession] at hopen
    cases hopen
  · exact absurd (hcall _ hclosed) nofun
  · exact htask .clearing rfl hclearing

/-- The lock is free while a task is behind freeing it. -/
theorem Inv.free_of_running (h : Inv c) {t : Task S} (ht : t ∈ c.tasks)
    (hrunning : t.stage.running = true) (hfreeing : t.stage ≠ .freeing) : c.lock = lockFree := by
  by_contra hlock
  exact hfreeing (h.idle hlock t ht hrunning)

theorem Inv.wait (h : Inv c) (ms : Nat) : Inv { c with now := c.now + ms } :=
  { h with
    due := fun t ht hfreeing => Nat.le_add_right_of_le (h.due t ht hfreeing)
    acquired := Nat.le_add_right_of_le h.acquired }

theorem Inv.timesOut (h : Inv c) (a : Action S) : c.TimesOut a := by
  cases a with
  | task i =>
    intro t hi hfreeing hlock
    have ht : t ∈ c.tasks := List.mem_of_getElem? hi
    exact Nat.le_trans (h.fresh hlock t ht (.inl hfreeing)) (h.due t ht hfreeing)
  | _ => trivial

end States

/-! ## Changing one object -/

section Put

variable [DecidableEq S] {c : TimedLock S} {s : S} {o : ServiceObject} {lock : UInt32}
  {tenure : Nat} {tasks : List (Task S)}

theorem objects_put_self (c : TimedLock S) (s : S) (o : ServiceObject) :
    (c.put s o).objects s = o := if_pos rfl

theorem objects_put_ne (c : TimedLock S) {s r : S} (o : ServiceObject) (h : r ≠ s) :
    (c.put s o).objects r = c.objects r := if_neg h

theorem put_objects (c : TimedLock S) (s : S) : c.put s (c.objects s) = c := by
  have hsame : (fun r => if r = s then c.objects s else c.objects r) = c.objects := by
    funext r
    by_cases hr : r = s
    · rw [if_pos hr, hr]
    · rw [if_neg hr]
  show { c with objects := _ } = c
  rw [hsame]

theorem granted_put_ne {r : S} (h : r ≠ s) : (c.put s o).Granted r ↔ c.Granted r := by
  unfold Granted
  rw [objects_put_ne c o h]

theorem doomed_put_ne {r : S} (h : r ≠ s) : (c.put s o).Doomed r ↔ c.Doomed r := by
  unfold Doomed
  rw [objects_put_ne c o h]

theorem granted_put_self : (c.put s o).Granted s ↔ o.call.any Call.granted = true := by
  unfold Granted
  rw [objects_put_self]

theorem doomed_put_self : (c.put s o).Doomed s ↔ o.call.any Call.cancels = true := by
  unfold Doomed
  rw [objects_put_self]

/-- One object is as the rest of the state demands, and the others have not changed. -/
theorem object_put (h : ∀ r, r ≠ s → ObjectOk lock tenure tasks r (c.objects r))
    (hok : ObjectOk lock tenure tasks s o) (r : S) :
    ObjectOk lock tenure tasks r ((c.put s o).objects r) := by
  by_cases hr : r = s
  · rw [hr, objects_put_self]
    exact hok
  · rw [objects_put_ne c o hr]
    exact h r hr

namespace Alike

theorem granted_put (h : Alike (c.objects s) o) (r : S) :
    (c.put s o).Granted r ↔ c.Granted r := by
  by_cases hr : r = s
  · rw [hr, granted_put_self, h.granted]
    rfl
  · exact granted_put_ne hr

theorem doomed_put (h : Alike (c.objects s) o) (r : S) :
    (c.put s o).Doomed r ↔ c.Doomed r := by
  by_cases hr : r = s
  · rw [hr, doomed_put_self, h.cancels]
    rfl
  · exact doomed_put_ne hr

theorem armed_put (h : Alike (c.objects s) o) (t : Task S) :
    (c.put s o).Armed t ↔ c.Armed t :=
  or_congr_right (and_congr_right fun _ => not_congr (h.doomed_put _))

theorem live_put (h : Alike (c.objects s) o) (r : S) : (c.put s o).Live r ↔ c.Live r :=
  or_congr (h.granted_put r) (exists_congr fun t => and_congr_right fun _ =>
    and_congr_right fun _ => h.armed_put t)

end Alike

theorem timer_put (h : Inv c) (htimer : o.timer = (c.objects s).timer) {i : Nat} {t : Task S}
    (ht : c.taskAt i = some t) (hstage : t.stage = .scheduled) :
    ((c.put s o).objects t.service).timer = some i := by
  by_cases hr : t.service = s
  · rw [hr, objects_put_self, htimer, ← hr]
    exact h.timer i t ht hstage
  · rw [objects_put_ne c o hr]
    exact h.timer i t ht hstage

theorem timer_goOn (h : Inv c) {call : Call} {i : Nat} {t : Task S} (ht : c.taskAt i = some t)
    (hstage : t.stage = .scheduled) : ((c.goOn s call).objects t.service).timer = some i :=
  timer_put (o := { c.objects s with call := some call }) h rfl ht hstage

theorem own_put (h : Inv c) (htimer : o.timer = (c.objects s).timer) {i : Nat} {r : S}
    (hr : ((c.put s o).objects r).timer = some i) : ∃ t, c.taskAt i = some t ∧ t.service = r := by
  refine h.own r i ?_
  by_cases hrs : r = s
  · subst hrs
    rw [objects_put_self] at hr
    exact htimer.symm.trans hr
  · rwa [objects_put_ne c o hrs] at hr

theorem own_goOn (h : Inv c) {call : Call} {i : Nat} {r : S}
    (hr : ((c.goOn s call).objects r).timer = some i) :
    ∃ t, c.taskAt i = some t ∧ t.service = r :=
  own_put (o := { c.objects s with call := some call }) h rfl hr

/-- A step that changes one object, and nothing for the timers. -/
theorem Inv.put (h : Inv c) (halike : Alike (c.objects s) o)
    (hok : ObjectOk c.lock c.tenure c.tasks s o)
    (hfor : o.sessionFor = (c.objects s).sessionFor ∨ c.Granted s) : Inv (c.put s o) where
  object := object_put (fun r _ => h.object r) hok
  timer := fun _ _ ht hstage => timer_put h halike.timer ht hstage
  own := fun _ _ htimer => own_put h halike.timer htimer
  due := h.due
  acquired := h.acquired
  granted := by
    intro r hr
    obtain ⟨hlock, htasks⟩ := h.granted r ((halike.granted_put r).mp hr)
    refine ⟨hlock, fun t ht => ?_⟩
    rw [halike.doomed_put]
    exact htasks t ht
  idle := h.idle
  live := by
    intro hlock r r' hr hr'
    exact h.live hlock r r' ((halike.live_put r).mp hr) ((halike.live_put r').mp hr')
  armed := by
    intro hlock r hr
    rw [halike.live_put]
    by_cases hrs : r = s
    · subst hrs
      rw [objects_put_self] at hr
      rcases hfor with hfor | hgranted
      · exact h.armed hlock r (hfor ▸ hr)
      · exact .inl hgranted
    · rw [objects_put_ne c o hrs] at hr
      exact h.armed hlock r hr
  fresh := fun hlock t ht harmed => h.fresh hlock t ht ((halike.armed_put t).mp harmed)

theorem Inv.move (h : Inv c) {x y : Option Call} (hcall : (c.objects s).call = x)
    (hm : Moves c.lock (c.objects s).session x y)
    (hgranted : y.any Call.granted = x.any Call.granted)
    (hcancels : y.any Call.cancels = x.any Call.cancels) (result : Option CommandResult) :
    Inv (c.put s { c.objects s with call := y, returned := result }) := by
  subst hcall
  exact h.put ⟨rfl, hgranted, hcancels⟩ ((h.object s).move hm result) (.inl rfl)

theorem Inv.goOn (h : Inv c) {x : Option Call} {y : Call} (hcall : (c.objects s).call = x)
    (hm : Moves c.lock (c.objects s).session x (some y)) (hgranted : y.granted = x.any Call.granted)
    (hcancels : y.cancels = x.any Call.cancels) : Inv (c.goOn s y) :=
  h.move hcall hm hgranted hcancels (c.objects s).returned

theorem Inv.answer (h : Inv c) {x : Option Call} (hcall : (c.objects s).call = x)
    (hm : Moves c.lock (c.objects s).session x none) (hgranted : x.any Call.granted = false)
    (hcancels : x.any Call.cancels = false) (result : CommandResult) : Inv (c.answer s result) :=
  h.move hcall hm hgranted.symm hcancels.symm (some result)

theorem Inv.begin (h : Inv c) {d : TimedLock S} {uid : UInt32} {call : Call}
    (hkind : (∃ o, call = .acquiring uid o) ∨ ∃ o, call = .releasing uid o)
    (hd : c.begin s uid call = some d) : Inv d := by
  unfold TimedLock.begin at hd
  obtain ⟨hnone, hd⟩ := Option.ite_none_right_eq_some.mp hd
  obtain rfl := Option.some.inj hd
  by_cases huid : uid = lockFree
  · rw [if_pos huid]
    exact h.answer hnone (by constructor <;> simp) rfl rfl .illegalArgument
  · rw [if_neg huid]
    rcases hkind with ⟨o, rfl⟩ | ⟨o, rfl⟩
    · exact h.goOn hnone (by constructor <;> simp [Call.uid, Call.tenure, Call.freed, huid]) rfl rfl
    · exact h.goOn hnone (by constructor <;> simp [Call.uid, Call.tenure, Call.freed, huid]) rfl rfl

end Put

end TimedLock

end McDaemon.RootPa.Timer
