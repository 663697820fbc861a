/-
# McDaemon.RootPa.LockTimeoutCalls — the invariant of the timers through a call.

An `acquireLock` that is granted the lock keeps the other timers out of the way, and one that ends
leaves one timer behind; a `releaseLock` that frees it leaves no session.
-/
import McDaemon.RootPa.LockTimeout

namespace McDaemon.RootPa.Timer

open McDaemon.Lib

namespace TimedLock

variable {S : Type}

/-! ## Cancelling -/

section Cancel

variable {c : TimedLock S} {s : S}

theorem taskAt_cancel (c : TimedLock S) (s : S) (i : Nat) : (c.cancel s).taskAt i =
    if (c.objects s).timer = some i then (c.taskAt i).map Task.cancel else c.taskAt i := by
  unfold cancel taskAt
  cases htimer : (c.objects s).timer with
  | none => rw [if_neg nofun]
  | some j =>
    show (c.tasks.modify j Task.cancel)[i]? = _
    by_cases hij : j = i
    · rw [if_pos (congrArg some hij), hij, List.getElem?_modify_eq]
      rfl
    · rw [if_neg fun h => hij (Option.some.inj h), List.getElem?_modify_ne _ _ hij]

theorem cancel_of_scheduled {t : Task S} (h : t.stage = .scheduled) : t.cancel.stage = .ended := by
  unfold Task.cancel
  rw [if_pos h]

theorem cancel_of_not {t : Task S} (h : t.stage ≠ .scheduled) : t.cancel = t := if_neg h

/-- A task that is not over after the cancelling has not been touched, and is not a scheduled one of
the object. -/
theorem of_mem_cancel (h : Inv c) {i : Nat} {t : Task S} (ht : (c.cancel s).taskAt i = some t)
    (hover : t.stage ≠ .ended) :
    c.taskAt i = some t ∧ ¬ (t.stage = .scheduled ∧ t.service = s) := by
  rw [taskAt_cancel] at ht
  by_cases htimer : (c.objects s).timer = some i
  · rw [if_pos htimer] at ht
    obtain ⟨u, hu, rfl⟩ := Option.map_eq_some_iff.mp ht
    by_cases hstage : u.stage = .scheduled
    · exact absurd (cancel_of_scheduled hstage) hover
    · rw [cancel_of_not hstage]
      exact ⟨hu, fun hscheduled => hstage hscheduled.1⟩
  · rw [if_neg htimer] at ht
    refine ⟨ht, ?_⟩
    rintro ⟨hstage, rfl⟩
    exact htimer (h.timer i t ht hstage)

theorem mem_cancel (h : Inv c) {t : Task S} (ht : t ∈ c.tasks)
    (hother : ¬ (t.stage = .scheduled ∧ t.service = s)) : t ∈ (c.cancel s).tasks := by
  obtain ⟨i, hi⟩ := List.mem_iff_getElem?.mp ht
  refine List.mem_iff_getElem?.mpr ⟨i, ?_⟩
  show (c.cancel s).taskAt i = _
  rw [taskAt_cancel, show c.taskAt i = _ from hi]
  by_cases htimer : (c.objects s).timer = some i
  · obtain ⟨u, hu, hus⟩ := h.own s i htimer
    obtain rfl := Option.some.inj (hi.symm.trans hu)
    rw [if_pos htimer, Option.map_some, cancel_of_not fun hstage => hother ⟨hstage, hus⟩]
  · rw [if_neg htimer]

theorem mem_cancel_iff (h : Inv c) {t : Task S} (hover : t.stage ≠ .ended)
    (hscheduled : t.stage ≠ .scheduled) : t ∈ (c.cancel s).tasks ↔ t ∈ c.tasks := by
  refine ⟨fun ht => ?_, fun ht => mem_cancel h ht fun hother => hscheduled hother.1⟩
  obtain ⟨i, hi⟩ := List.mem_iff_getElem?.mp ht
  exact List.mem_of_getElem? (of_mem_cancel h hi hover).1

/-- Only a task that has begun matters to an object. -/
theorem Inv.objectOk_cancel (h : Inv c) {r : S} {p : ServiceObject}
    (hp : ObjectOk c.lock c.tenure c.tasks r p) :
    ObjectOk c.lock c.tenure (c.cancel s).tasks r p := by
  refine hp.tasks_congr fun t _ hstage => mem_cancel_iff h ?_ ?_
  · rcases hstage with hstage | hstage | hstage <;> rw [hstage] <;> nofun
  · rcases hstage with hstage | hstage | hstage <;> rw [hstage] <;> nofun

/-- The timers of the other objects are about to be cancelled, and this one has none. -/
theorem Inv.doomed_of_scheduling (h : Inv c) (hcall : (c.objects s).call = some .scheduling)
    {t : Task S} (ht : t ∈ c.tasks) (hstage : t.stage = .scheduled) :
    t.service ≠ s ∧ c.Doomed t.service := by
  have hdoomed : ¬ c.Doomed s := (doomed_iff hcall).not.mpr nofun
  rcases (h.granted s ((granted_iff hcall).mpr rfl)).2 t ht with hover | ⟨-, hdoom⟩
  · rw [hover] at hstage
    cases hstage
  · exact ⟨fun hts => hdoomed (hts ▸ hdoom), hdoom⟩

end Cancel

/-! ## Calls -/

section Calls

variable [DecidableEq S] {c : TimedLock S} {s : S} {o : ServiceObject}

/-! ### `acquireLock` -/

namespace Clear

theorem granted_put (h : c.Clear s) {r : S} (hr : (c.put s o).Granted r) : r = s := by
  by_contra hrs
  exact h.1 r hrs (.inl ((granted_put_ne hrs).mp hr))

/-- Every timer that is running is about to be cancelled. -/
theorem not_armed_put (h : c.Clear s) (ho : o.call.any Call.cancels = true) {t : Task S}
    (ht : t ∈ c.tasks) : ¬ (c.put s o).Armed t := by
  rintro (hfreeing | ⟨hscheduled, hdoomed⟩)
  · have hrunning := h.2 t ht
    rw [hfreeing] at hrunning
    cases hrunning
  · by_cases hts : t.service = s
    · exact hdoomed (hts ▸ doomed_put_self.mpr ho)
    · rw [doomed_put_ne hts] at hdoomed
      exact h.1 _ hts (.inr ⟨t, ht, rfl, .inr ⟨hscheduled, hdoomed⟩⟩)

theorem live_put (h : c.Clear s) (ho : o.call.any Call.cancels = true) {r : S}
    (hr : (c.put s o).Live r) : r = s := by
  rcases hr with hgranted | ⟨t, ht, -, harmed⟩
  · exact h.granted_put hgranted
  · exact absurd harmed (h.not_armed_put ho ht)

end Clear

/-- A step that grants the lock through an object, when no other timer runs on. -/
theorem Inv.grant (h : Inv c) (hclear : c.Clear s) {uid : UInt32} (huid : uid ≠ lockFree)
    {tenure : Nat} (hgranted : o.call.any Call.granted = true)
    (hcancels : o.call.any Call.cancels = true) (htimer : o.timer = (c.objects s).timer)
    (hothers : ∀ r, r ≠ s → ObjectOk uid tenure c.tasks r (c.objects r) ∧
      (c.objects r).sessionFor ≠ some tenure)
    (hok : ObjectOk uid tenure c.tasks s o) :
    Inv ({ c with lock := uid, tenure := tenure, acquired := c.now }.put s o) where
  object := object_put (c := { c with lock := uid, tenure := tenure, acquired := c.now })
    (fun r hr => (hothers r hr).1) hok
  timer := fun _ _ ht hstage => timer_put h htimer ht hstage
  own := fun _ _ hr => own_put h htimer hr
  due := h.due
  acquired := Nat.le_refl _
  granted := by
    intro r hr
    refine ⟨huid, fun t ht => ?_⟩
    have hrunning := hclear.2 t ht
    have harmed := hclear.not_armed_put hcancels ht
    cases hstage : t.stage with
    | ended => exact .inl rfl
    | scheduled =>
      refine .inr ⟨rfl, ?_⟩
      by_contra hdoomed
      exact harmed (.inr ⟨hstage, hdoomed⟩)
    | freeing | checking | closing | clearing =>
      rw [hstage] at hrunning
      cases hrunning
  idle := by
    intro _ t ht hrunning
    rw [hclear.2 t ht] at hrunning
    cases hrunning
  live := fun _ r r' hr hr' =>
    (hclear.live_put hcancels hr).trans (hclear.live_put hcancels hr').symm
  armed := by
    intro _ r hr
    by_cases hrs : r = s
    · rw [hrs]
      exact .inl (granted_put_self.mpr hgranted)
    · rw [objects_put_ne _ o hrs] at hr
      exact absurd hr (hothers r hrs).2
  fresh := fun _ t ht harmed => absurd harmed (hclear.not_armed_put hcancels ht)

theorem Inv.take (h : Inv c) {uid : UInt32} {openSession : Bool}
    (hcall : (c.objects s).call = some (.acquiring uid openSession)) (hlock : c.lock = lockFree)
    (hclear : c.Clear s) : Inv (c.stepCall s (.acquiring uid openSession)) := by
  have huid : uid ≠ lockFree := by
    have huid := (h.object s).uid
    rw [hcall] at huid
    exact fun heq => huid (congrArg some heq)
  have hok := h.object
  rw [hlock] at hok
  obtain ⟨hsession, hflag⟩ := h.session_free (s := s) hlock hclear.2 (by rw [hcall]; rfl)
  show Inv (ite _ _ _)
  rw [if_pos hlock]
  refine h.grant hclear huid rfl rfl rfl (fun r hr => ⟨?_, ?_⟩) ?_
  · exact (hok r).newTenure (fun hgranted => hclear.1 r hr (.inl hgranted)) uid
  · intro hfor
    have hle := (hok r).past _ hfor
    omega
  · exact {
      uid := by simp [Call.uid]
      marked := fun hs => absurd hs (by simp [hsession])
      flagged := fun hs => absurd hs (by simp [hflag])
      opened := nofun
      closed := nofun
      clearing := fun _ _ _ _ => hsession
      opening := fun k hk => ⟨(Option.some.inj hk).symm, hsession, hflag⟩
      past := fun k hk => Nat.le_succ_of_le ((hok s).past k hk)
      current := fun _ hfor => absurd ((hok s).past _ hfor) (by omega)
      closes := fun hs => absurd hs (by simp [hsession]) }

theorem Inv.retake (h : Inv c) {uid : UInt32}
    (hcall : (c.objects s).call = some (.rechecking uid)) (hlock : c.lock = uid)
    (hclear : c.Clear s) : Inv (c.stepCall s (.rechecking uid)) := by
  have huid : c.lock ≠ lockFree := by
    have huid := (h.object s).uid
    rw [hcall] at huid
    exact fun heq => huid (congrArg some (hlock.symm.trans heq))
  have hmoves : Moves c.lock (c.objects s).session (c.objects s).call (some .replacing) := by
    rw [hcall]
    constructor <;> simp [Call.uid, Call.tenure, Call.freed]
  show Inv (ite _ _ _)
  rw [if_pos hlock]
  refine h.grant hclear huid rfl rfl rfl (fun r hr => ⟨h.object r, fun hfor => ?_⟩) ?_
  · exact hclear.1 r hr (h.armed huid r hfor)
  · exact (h.object s).move hmoves _

theorem Inv.enter (h : Inv c) {k : Nat} (hcall : (c.objects s).call = some (.entering k)) :
    Inv (c.stepCall s (.entering k)) := by
  have hgranted : c.Granted s := (granted_iff hcall).mpr rfl
  have hok := h.object s
  obtain ⟨rfl, -, hflag⟩ := hok.opening k (by rw [hcall]; rfl)
  obtain ⟨hlock, htasks⟩ := h.granted s hgranted
  refine h.put ⟨rfl, by rw [hcall]; rfl, by rw [hcall]; rfl⟩ ?_ (.inr hgranted)
  exact {
    uid := nofun
    marked := fun _ => .inr rfl
    flagged := fun hs => absurd hs (by simp [hflag])
    opened := fun _ => rfl
    closed := nofun
    clearing := by
      intro t ht _ hstage
      rcases htasks t ht with hover | ⟨hscheduled, -⟩
      · rw [hover] at hstage
        cases hstage
      · rw [hscheduled] at hstage
        cases hstage
    opening := nofun
    past := fun l hl => Nat.le_of_eq (Option.some.inj hl).symm
    current := fun _ _ => ⟨rfl, rfl⟩
    closes := fun _ => .inl ⟨hlock, rfl⟩ }

theorem Inv.mark (h : Inv c) (hcall : (c.objects s).call = some .opened) :
    Inv (c.stepCall s .opened) := by
  have hok := h.object s
  refine h.put ⟨rfl, by rw [hcall]; rfl, by rw [hcall]; rfl⟩ ?_ (.inl rfl)
  exact {
    uid := nofun
    marked := fun _ => .inl rfl
    flagged := fun _ => .inl (hok.opened hcall)
    opened := nofun
    closed := nofun
    clearing := hok.clearing
    opening := nofun
    past := hok.past
    current := fun hlock hfor => ⟨(hok.current hlock hfor).1, rfl⟩
    closes := by
      intro hs
      rcases hok.closes hs with hcurrent | hclosing | hleaving | htask
      · exact .inl hcurrent
      · rw [hcall] at hclosing
        cases hclosing
      · rw [hcall] at hleaving
        cases hleaving
      · exact .inr (.inr (.inr htask)) }

/-! ### Cancelling and scheduling -/

theorem granted_cancel_put
    (hgranted : o.call.any Call.granted = (c.objects s).call.any Call.granted) (r : S) :
    ((c.cancel s).put s o).Granted r ↔ c.Granted r := by
  by_cases hr : r = s
  · rw [hr, granted_put_self, hgranted]
    rfl
  · exact granted_put_ne hr

/-- What may still free the lock behind the cancelling may have freed it before. -/
theorem Inv.armed_cancel_put (h : Inv c) {t : Task S} (ht : t ∈ (c.cancel s).tasks)
    (harmed : ((c.cancel s).put s o).Armed t) : t ∈ c.tasks ∧ c.Armed t := by
  obtain ⟨i, hi⟩ := List.mem_iff_getElem?.mp ht
  rcases harmed with hfreeing | ⟨hscheduled, hnot⟩
  · obtain ⟨hmem, -⟩ := of_mem_cancel h hi (by rw [hfreeing]; nofun)
    exact ⟨List.mem_of_getElem? hmem, .inl hfreeing⟩
  · obtain ⟨hmem, hother⟩ := of_mem_cancel h hi (by rw [hscheduled]; nofun)
    have hts : t.service ≠ s := fun hts => hother ⟨hscheduled, hts⟩
    exact ⟨List.mem_of_getElem? hmem, .inr ⟨hscheduled, (doomed_put_ne hts).not.mp hnot⟩⟩

/-- The object's own timer is not what keeps it alive, as the method is about to cancel it. -/
theorem Inv.live_cancel_put (h : Inv c) (hdoomed : c.Doomed s)
    (hgranted : o.call.any Call.granted = (c.objects s).call.any Call.granted) (r : S) :
    ((c.cancel s).put s o).Live r ↔ c.Live r := by
  constructor
  · rintro (hr | ⟨t, ht, hts, harmed⟩)
    · exact .inl ((granted_cancel_put hgranted r).mp hr)
    · exact .inr ⟨t, (h.armed_cancel_put ht harmed).1, hts, (h.armed_cancel_put ht harmed).2⟩
  · rintro (hr | ⟨t, ht, hts, hfreeing | ⟨hscheduled, hnot⟩⟩)
    · exact .inl ((granted_cancel_put hgranted r).mpr hr)
    · have hmem := mem_cancel (s := s) h ht fun hother => by simp [hfreeing] at hother
      exact .inr ⟨t, hmem, hts, .inl hfreeing⟩
    · have hne : t.service ≠ s := fun hts => hnot (hts ▸ hdoomed)
      have hmem := mem_cancel (s := s) h ht fun hother => hne hother.2
      exact .inr ⟨t, hmem, hts, .inr ⟨hscheduled, (doomed_put_ne hne).not.mpr hnot⟩⟩

/-- A method cancels the timer of its object, and goes on. -/
theorem Inv.cancel_put (h : Inv c) (hdoomed : c.Doomed s)
    (hgranted : o.call.any Call.granted = (c.objects s).call.any Call.granted)
    (htimer : o.timer = (c.objects s).timer ∨ o.timer = none)
    (hfor : o.sessionFor = (c.objects s).sessionFor)
    (hok : ObjectOk c.lock c.tenure c.tasks s o) : Inv ((c.cancel s).put s o) := by
  have hgranted' : ∀ r, ((c.cancel s).put s o).Granted r ↔ c.Granted r :=
    granted_cancel_put hgranted
  have hlive : ∀ r, ((c.cancel s).put s o).Live r ↔ c.Live r :=
    h.live_cancel_put hdoomed hgranted
  exact {
    object := object_put (c := c) (fun r _ => h.objectOk_cancel (h.object r))
      (h.objectOk_cancel hok)
    timer := by
      intro i t ht hscheduled
      obtain ⟨hmem, hother⟩ := of_mem_cancel h ht (by rw [hscheduled]; nofun)
      rw [objects_put_ne _ o fun hts => hother ⟨hscheduled, hts⟩]
      exact h.timer i t hmem hscheduled
    own := by
      intro r i hr
      have hold : (c.objects r).timer = some i := by
        by_cases hrs : r = s
        · subst hrs
          rw [objects_put_self] at hr
          rcases htimer with htimer | hnone
          · exact htimer.symm.trans hr
          · rw [hnone] at hr
            cases hr
        · rwa [objects_put_ne _ o hrs] at hr
      -- a task that is cancelled is still the one that the object has scheduled
      obtain ⟨t, ht, hts⟩ := h.own r i hold
      show ∃ t, (c.cancel s).taskAt i = some t ∧ _
      rw [taskAt_cancel, ht]
      split
      · refine ⟨t.cancel, rfl, ?_⟩
        unfold Task.cancel
        split <;> exact hts
      · exact ⟨t, rfl, hts⟩
    due := by
      intro t ht hfreeing
      exact h.due t (h.armed_cancel_put (o := o) ht (.inl hfreeing)).1 hfreeing
    acquired := h.acquired
    granted := by
      intro r hr
      obtain ⟨hlock, hquiet⟩ := h.granted r ((hgranted' r).mp hr)
      refine ⟨hlock, fun t ht => ?_⟩
      by_cases hover : t.stage = .ended
      · exact .inl hover
      · obtain ⟨i, hi⟩ := List.mem_iff_getElem?.mp ht
        obtain ⟨hmem, hother⟩ := of_mem_cancel h hi hover
        rcases hquiet t (List.mem_of_getElem? hmem) with hover' | ⟨hscheduled, hdoom⟩
        · exact .inl hover'
        · have hts : t.service ≠ s := fun hts => hother ⟨hscheduled, hts⟩
          exact .inr ⟨hscheduled, (doomed_put_ne hts).mpr hdoom⟩
    idle := by
      intro hlock t ht hrunning
      obtain ⟨i, hi⟩ := List.mem_iff_getElem?.mp ht
      have hover : t.stage ≠ .ended := fun hover => by rw [hover] at hrunning; cases hrunning
      exact h.idle hlock t (List.mem_of_getElem? (of_mem_cancel h hi hover).1) hrunning
    live := fun hlock r r' hr hr' =>
      h.live hlock r r' ((hlive r).mp hr) ((hlive r').mp hr')
    armed := by
      intro hlock r hr
      refine (hlive r).mpr (h.armed hlock r ?_)
      by_cases hrs : r = s
      · subst hrs
        rw [objects_put_self] at hr
        exact hfor ▸ hr
      · rwa [objects_put_ne _ o hrs] at hr
    fresh := fun hlock t ht ht' =>
      h.fresh hlock t (h.armed_cancel_put ht ht').1 (h.armed_cancel_put ht ht').2 }

theorem Inv.replace (h : Inv c) (hcall : (c.objects s).call = some .replacing) :
    Inv (c.stepCall s .replacing) := by
  have hmoves : Moves c.lock (c.objects s).session (c.objects s).call (some .scheduling) := by
    rw [hcall]
    constructor <;> simp [Call.uid, Call.tenure, Call.freed]
  refine h.cancel_put (o := { c.objects s with call := some .scheduling })
    ((doomed_iff hcall).mpr rfl) ?_ (.inl rfl) rfl ((h.object s).move hmoves _)
  · rw [hcall]
    rfl

theorem Inv.cancelled (h : Inv c) (hcall : (c.objects s).call = some .cancelling) :
    Inv (c.stepCall s .cancelling) := by
  have hmoves : Moves c.lock (c.objects s).session (c.objects s).call none := by
    rw [hcall]
    constructor <;> simp
  have hok := (h.object s).move hmoves (some .ok)
  refine h.cancel_put (o := { c.objects s with timer := none, call := none, returned := some .ok })
    ((doomed_iff hcall).mpr rfl) ?_ (.inr rfl) rfl { hok with }
  · rw [hcall]
    rfl

/-- The only timer that may free the lock is the one that has just been scheduled. -/
theorem Inv.eq_of_armed_schedule (h : Inv c) (hcall : (c.objects s).call = some .scheduling)
    {t : Task S} (ht : t ∈ (c.schedule s).tasks) (harmed : (c.schedule s).Armed t) :
    t = Task.mk s (c.now + lockTimeoutMs) .scheduled := by
  rcases List.mem_append.mp ht with ht | ht
  · exfalso
    rcases harmed with hfreeing | ⟨hscheduled, hnot⟩
    · rcases (h.granted s ((granted_iff hcall).mpr rfl)).2 t ht with hover | ⟨hscheduled, -⟩
      · rw [hover] at hfreeing
        cases hfreeing
      · rw [hscheduled] at hfreeing
        cases hfreeing
    · obtain ⟨hts, hdoom⟩ := h.doomed_of_scheduling hcall ht hscheduled
      exact hnot ((doomed_put_ne hts).mpr hdoom)
  · exact List.mem_singleton.mp ht

theorem Inv.not_granted_schedule (h : Inv c) (hcall : (c.objects s).call = some .scheduling)
    (r : S) : ¬ (c.schedule s).Granted r := by
  have hgranted := (granted_iff hcall).mpr rfl
  intro hr
  by_cases hrs : r = s
  · subst hrs
    exact absurd (granted_put_self.mp hr) nofun
  · exact hrs (h.live (h.granted s hgranted).1 r s (.inl ((granted_put_ne hrs).mp hr))
      (.inl hgranted))

theorem Inv.live_schedule (h : Inv c) (hcall : (c.objects s).call = some .scheduling) {r : S}
    (hr : (c.schedule s).Live r) : r = s := by
  rcases hr with hr | ⟨t, ht, hts, harmed⟩
  · exact absurd hr (h.not_granted_schedule hcall r)
  · rw [← hts, h.eq_of_armed_schedule hcall ht harmed]

theorem objectOk_schedule {r : S} {p : ServiceObject}
    (hp : ObjectOk c.lock c.tenure c.tasks r p) :
    ObjectOk c.lock c.tenure (c.schedule s).tasks r p := by
  refine hp.tasks_congr fun t _ hstage => ?_
  refine List.mem_append.trans (or_iff_left fun ht => ?_)
  rw [List.mem_singleton.mp ht] at hstage
  rcases hstage with hstage | hstage | hstage <;> cases hstage

/-- **Scheduling.** The call is over, and one timer is left behind. -/
theorem Inv.scheduled (h : Inv c) (hcall : (c.objects s).call = some .scheduling) :
    Inv (c.stepCall s .scheduling) := by
  have hgranted : c.Granted s := (granted_iff hcall).mpr rfl
  have hlock := (h.granted s hgranted).1
  have hmoves : Moves c.lock (c.objects s).session (c.objects s).call none := by
    rw [hcall]
    constructor <;> simp
  have hok := (h.object s).move hmoves (some .ok)
  have hlast : (c.schedule s).taskAt c.tasks.length =
      some (Task.mk s (c.now + lockTimeoutMs) .scheduled) := List.getElem?_concat_length
  have hold : ∀ {i t}, c.taskAt i = some t → (c.schedule s).taskAt i = some t := by
    intro i t ht
    refine (List.getElem?_append_left ?_).trans ht
    exact (List.getElem?_eq_some_iff.mp ht).1
  have hself : (c.schedule s).objects s = { c.objects s with
      timer := some c.tasks.length, call := none, returned := some .ok } := objects_put_self _ _ _
  have hne : ∀ r, r ≠ s → (c.schedule s).objects r = c.objects r :=
    fun r hr => objects_put_ne _ _ hr
  have hokTimer : ObjectOk c.lock c.tenure c.tasks s { c.objects s with
      timer := some c.tasks.length, call := none, returned := some .ok } := { hok with }
  show Inv (c.schedule s)
  exact {
    object := object_put (c := c) (fun r _ => objectOk_schedule (h.object r))
      (objectOk_schedule hokTimer)
    timer := by
      intro i t ht hscheduled
      -- a timer that was there is of another object, and the new one is of this
      by_cases hi : i < c.tasks.length
      · have ht' : c.taskAt i = some t := (List.getElem?_append_left hi).symm.trans ht
        have hts := (h.doomed_of_scheduling hcall (List.mem_of_getElem? ht') hscheduled).1
        rw [hne _ hts]
        exact h.timer i t ht' hscheduled
      · obtain ⟨hbound, hget⟩ := List.getElem?_eq_some_iff.mp ht
        have hlen : (c.schedule s).tasks.length = c.tasks.length + 1 := List.length_append
        obtain rfl : i = c.tasks.length := by omega
        rw [hlast] at ht
        obtain rfl := Option.some.inj ht
        rw [hself]
    own := by
      intro r i hr
      by_cases hrs : r = s
      · subst hrs
        rw [hself] at hr
        obtain rfl := Option.some.inj hr
        exact ⟨_, hlast, rfl⟩
      · rw [hne r hrs] at hr
        obtain ⟨t, ht, hts⟩ := h.own r i hr
        exact ⟨t, hold ht, hts⟩
    due := by
      intro t ht hfreeing
      have heq := h.eq_of_armed_schedule hcall ht (.inl hfreeing)
      rw [heq] at hfreeing
      cases hfreeing
    acquired := h.acquired
    granted := fun r hr => absurd hr (h.not_granted_schedule hcall r)
    idle := by
      intro _ t ht hrunning
      rcases List.mem_append.mp ht with ht | ht
      · exact h.idle hlock t ht hrunning
      · rw [List.mem_singleton.mp ht] at hrunning
        cases hrunning
    live := fun _ r r' hr hr' =>
      (h.live_schedule hcall hr).trans (h.live_schedule hcall hr').symm
    armed := by
      intro _ r hr
      have hr' : (c.objects r).sessionFor = some c.tenure := by
        by_cases hrs : r = s
        · subst hrs
          rw [hself] at hr
          exact hr
        · rwa [hne r hrs] at hr
      -- no other object is live, so it is this one, and its timer is the new one
      obtain rfl := h.live hlock r s (h.armed hlock r hr') (.inl hgranted)
      refine .inr ⟨_, List.mem_append_right _ (List.mem_singleton_self _), rfl, .inr ⟨rfl, ?_⟩⟩
      exact fun hdoom => absurd (doomed_put_self.mp hdoom) nofun
    fresh := by
      intro _ t ht harmed
      rw [h.eq_of_armed_schedule hcall ht harmed]
      exact Nat.add_le_add_right h.acquired _ }

/-! ### `releaseLock` -/

theorem Inv.find_free (h : Inv c) {uid : UInt32} {closeSession : Bool}
    (hcall : (c.objects s).call = some (.releasing uid closeSession)) (hlock : c.lock = lockFree) :
    Inv (c.goOn s (.closing closeSession)) := by
  have hmoves : Moves c.lock (c.objects s).session (c.objects s).call
      (some (.closing closeSession)) := by
    rw [hcall]
    constructor <;> simp [Call.uid, Call.tenure, hlock]
  refine .of_free hlock (object_put (fun r _ => h.object r) ((h.object s).move hmoves _))
    (fun _ _ ht hstage => timer_goOn h ht hstage) (fun _ _ hr => own_goOn h hr) h.due
    h.acquired fun r hr => ?_
  by_cases hrs : r = s
  · subst hrs
    cases granted_put_self.mp hr
  · exact h.not_granted hlock r ((granted_put_ne hrs).mp hr)

theorem Inv.free (h : Inv c) {closeSession : Bool}
    (hcall : (c.objects s).call = some (.freeing c.lock closeSession))
    (hsole : c.Sole s closeSession) :
    Inv ({ c with lock := lockFree }.goOn s (.closing closeSession)) := by
  have hmarked : ∀ r, ¬ c.Granted r → (c.objects r).session = true →
      (c.objects r).sessionOpened = true := by
    intro r hgranted hs
    exact ((h.object r).marked hs).resolve_right fun hopened =>
      hgranted ((granted_iff hopened).mpr rfl)
  have hself : ¬ c.Granted s := (granted_iff hcall).not.mpr nofun
  have hok := h.object s
  refine .of_free rfl (object_put (c := { c with lock := lockFree }) (fun r hr => ?_) ?_)
    (fun _ _ ht hstage => timer_goOn h ht hstage) (fun _ _ hr => own_goOn h hr) h.due
    h.acquired fun r hr => ?_
  · obtain ⟨hflag, hgranted⟩ := hsole.1 r hr
    refine (h.object r).free fun hs => ?_
    rw [hmarked r hgranted hs] at hflag
    cases hflag
  · exact {
      uid := nofun
      marked := fun hs => .inl (hmarked s hself hs)
      flagged := by
        intro hflag
        refine (hok.flagged hflag).imp_right (Or.imp_left fun hclosed => ?_)
        rw [hcall] at hclosed
        cases hclosed
      opened := nofun
      closed := nofun
      clearing := hok.clearing
      opening := nofun
      past := hok.past
      current := fun hfree => absurd rfl hfree
      closes := fun hs =>
        .inr (.inl (by rw [hsole.2 (hmarked s hself hs)])) }
  · by_cases hrs : r = s
    · subst hrs
      exact absurd (granted_put_self.mp hr) nofun
    · exact (hsole.1 r hrs).2 ((granted_put_ne hrs).mp hr)

theorem Inv.close (h : Inv c) {closeSession : Bool}
    (hcall : (c.objects s).call = some (.closing closeSession)) :
    Inv (c.stepCall s (.closing closeSession)) := by
  show Inv (c.goOn s (ite _ _ _))
  by_cases hboth : (closeSession && (c.objects s).sessionOpened) = true
  · rw [if_pos hboth]
    exact h.goOn hcall (by constructor <;> simp [Call.uid, Call.tenure, Call.freed]) rfl rfl
  · rw [if_neg hboth]
    refine h.goOn hcall ⟨?_, ?_, ?_, ?_, ?_⟩ rfl rfl
    · simp [Call.uid]
    · simp
    · simp [Call.tenure]
    · simp [Call.freed]
    · -- a session that is open is flagged, and would be closed
      rintro hs (hclosing | hleaving)
      · obtain rfl : closeSession = true := by simpa using hclosing
        have hflag := ((h.object s).marked hs).resolve_right fun hopened => by
          rw [hcall] at hopened
          cases hopened
        exact absurd hflag (by simpa using hboth)
      · cases hleaving

theorem Inv.leave (h : Inv c) (hcall : (c.objects s).call = some .leaving) :
    Inv (c.stepCall s .leaving) := by
  have hok := h.object s
  refine h.put ⟨rfl, by rw [hcall]; rfl, by rw [hcall]; rfl⟩ ?_ (.inl rfl)
  exact {
    uid := nofun
    marked := nofun
    flagged := fun _ => .inr (.inl rfl)
    opened := nofun
    closed := fun _ => rfl
    clearing := fun _ _ _ _ => rfl
    opening := nofun
    past := hok.past
    current := by
      intro hlock hfor
      have hfreed := (hok.current hlock hfor).2
      rw [hcall] at hfreed
      cases hfreed
    closes := nofun }

theorem Inv.unmark (h : Inv c) (hcall : (c.objects s).call = some .closed) :
    Inv (c.stepCall s .closed) := by
  have hok := h.object s
  have hsession := hok.closed hcall
  refine h.put ⟨rfl, by rw [hcall]; rfl, by rw [hcall]; rfl⟩ ?_ (.inl rfl)
  exact {
    uid := nofun
    marked := fun hs => absurd hs (by simp [hsession])
    flagged := nofun
    opened := nofun
    closed := nofun
    clearing := fun _ _ _ _ => hsession
    opening := nofun
    past := hok.past
    current := by
      intro hlock hfor
      have hfreed := (hok.current hlock hfor).2
      rw [hcall] at hfreed
      cases hfreed
    closes := fun hs => absurd hs (by simp [hsession]) }

theorem Inv.stepCall (h : Inv c) {call : Call} (hcall : (c.objects s).call = some call)
    (horderly : c.OrderlyCall s call) : Inv (c.stepCall s call) := by
  obtain ⟨hclear, hsole⟩ := horderly
  cases call with
  | acquiring uid o =>
    by_cases hlock : c.lock = lockFree
    · exact h.take hcall hlock (hclear hlock)
    · have huid := (h.object s).uid
      rw [hcall] at huid
      have hmoves : Moves c.lock (c.objects s).session (some (.acquiring uid o))
          (some (.rechecking uid)) := by
        constructor <;> simp [Call.uid, Call.tenure, Call.freed]
      show Inv (ite _ _ _)
      rw [if_neg hlock]
      exact h.goOn hcall hmoves rfl rfl
  | rechecking uid =>
    by_cases hlock : c.lock = uid
    · exact h.retake hcall hlock (hclear hlock)
    · show Inv (ite _ _ _)
      rw [if_neg hlock]
      exact h.answer hcall (by constructor <;> simp) rfl rfl .lock
  | opening o k =>
    -- no session is open yet, so one is opened if that is asked for
    obtain ⟨-, -, hflag⟩ := (h.object s).opening k (by rw [hcall]; rfl)
    cases o with
    | true =>
      show Inv (ite _ _ _)
      rw [if_neg (by simp [hflag])]
      exact h.goOn hcall (by constructor <;> simp [Call.uid, Call.tenure, Call.freed]) rfl rfl
    | false =>
      exact h.goOn hcall (by constructor <;> simp [Call.uid, Call.tenure, Call.freed]) rfl rfl
  | entering k => exact h.enter hcall
  | opened => exact h.mark hcall
  | replacing => exact h.replace hcall
  | scheduling => exact h.scheduled hcall
  | releasing uid o =>
    show Inv (c.goOn s (ite _ _ _))
    by_cases hlock : c.lock = lockFree
    · rw [if_pos hlock]
      exact h.find_free hcall hlock
    · rw [if_neg hlock]
      exact h.goOn hcall (by constructor <;> simp [Call.uid, Call.tenure, Call.freed]) rfl rfl
  | freeing uid o =>
    show Inv (ite _ _ _)
    by_cases hlock : c.lock = uid
    · rw [if_pos hlock]
      subst hlock
      exact h.free hcall (hsole o rfl)
    · rw [if_neg hlock]
      exact h.answer hcall (by constructor <;> simp) rfl rfl .lock
  | closing o => exact h.close hcall
  | leaving => exact h.leave hcall
  | closed => exact h.unmark hcall
  | cancelling => exact h.cancelled hcall

end Calls

end TimedLock

end McDaemon.RootPa.Timer
