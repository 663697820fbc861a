/-
# McDaemon.RootPa.LockTimeoutRuns — whom a timeout hits, along runs.

A task that begins belongs to the holder, if there is one, and by the time it has closed the session
nobody else has got the lock.  With the calls this gives every orderly run.
-/
import McDaemon.RootPa.LockTimeoutCalls

namespace McDaemon.RootPa.Timer

open McDaemon.Lib

namespace TimedLock

variable {S : Type}

/-! ## Tasks -/

section Tasks

variable {c : TimedLock S} {s : S} {o : ServiceObject} {lock : UInt32} {tenure : Nat}

theorem mem_setTask {i : Nat} {t u : Task S} {stage : TaskStage} (hi : c.taskAt i = some t) :
    u ∈ (c.setTask i t stage).tasks ↔
      u = { t with stage } ∨ ∃ j, j ≠ i ∧ c.taskAt j = some u := by
  have hlt : i < c.tasks.length := (List.getElem?_eq_some_iff.mp hi).1
  refine List.mem_iff_getElem?.trans ⟨?_, ?_⟩
  · rintro ⟨j, hj⟩
    by_cases hij : j = i
    · rw [hij] at hj
      exact .inl (Option.some.inj ((List.getElem?_set_self hlt).symm.trans hj)).symm
    · exact .inr ⟨j, hij, (List.getElem?_set_ne (Ne.symm hij)).symm.trans hj⟩
  · rintro (rfl | ⟨j, hij, hj⟩)
    · exact ⟨i, List.getElem?_set_self hlt⟩
    · exact ⟨j, (List.getElem?_set_ne (Ne.symm hij)).trans hj⟩

/-- Where the task changes from one stage to another, tasks of a third stage stay the same. -/
theorem mem_setTask_iff {i : Nat} {t u : Task S} {stage : TaskStage} (hi : c.taskAt i = some t)
    (hold : u.stage ≠ t.stage) (hnew : u.stage ≠ stage) :
    u ∈ (c.setTask i t stage).tasks ↔ u ∈ c.tasks := by
  rw [mem_setTask hi]
  constructor
  · rintro (rfl | ⟨j, -, hj⟩)
    · exact absurd rfl hnew
    · exact List.mem_of_getElem? hj
  · intro hu
    obtain ⟨j, hj⟩ := List.mem_iff_getElem?.mp hu
    refine .inr ⟨j, fun hij => hold ?_, hj⟩
    rw [hij] at hj
    exact congrArg Task.stage (Option.some.inj (hj.symm.trans hi))

theorem timer_setTask (h : Inv c) {i j : Nat} {t u : Task S} {stage : TaskStage}
    (hi : c.taskAt i = some t) (hstage : stage ≠ .scheduled)
    (hj : (c.setTask i t stage).taskAt j = some u) (hu : u.stage = .scheduled) :
    (c.objects u.service).timer = some j := by
  have hlt : i < c.tasks.length := (List.getElem?_eq_some_iff.mp hi).1
  by_cases hij : j = i
  · subst hij
    obtain rfl := Option.some.inj ((List.getElem?_set_self hlt).symm.trans hj)
    exact absurd hu hstage
  · exact h.timer j u ((List.getElem?_set_ne (Ne.symm hij)).symm.trans hj) hu

theorem own_setTask (h : Inv c) {i j : Nat} {t : Task S} {stage : TaskStage} {r : S}
    (hi : c.taskAt i = some t) (hr : (c.objects r).timer = some j) :
    ∃ u, (c.setTask i t stage).taskAt j = some u ∧ u.service = r := by
  have hlt : i < c.tasks.length := (List.getElem?_eq_some_iff.mp hi).1
  obtain ⟨u, hu, hur⟩ := h.own r j hr
  by_cases hij : j = i
  · subst hij
    obtain rfl := Option.some.inj (hi.symm.trans hu)
    exact ⟨_, List.getElem?_set_self hlt, hur⟩
  · exact ⟨u, (List.getElem?_set_ne (Ne.symm hij)).trans hu, hur⟩

theorem Inv.beginTask (h : Inv c) {i : Nat} {t : Task S} (hi : c.taskAt i = some t)
    (hscheduled : t.stage = .scheduled) (hdue : t.due ≤ c.now) (hdoomed : ¬ c.Doomed t.service) :
    Inv (c.setTask i t .freeing) := by
  have ht : t ∈ c.tasks := List.mem_of_getElem? hi
  have harmed : c.Armed t := .inr ⟨hscheduled, hdoomed⟩
  have hnone : ∀ r, ¬ c.Granted r := by
    intro r hr
    rcases (h.granted r hr).2 t ht with hover | ⟨-, hdoom⟩
    · rw [hscheduled] at hover
      cases hover
    · exact hdoomed hdoom
  -- the task has been able to free the lock before, and no other one has changed
  have hback : ∀ u ∈ (c.setTask i t .freeing).tasks, (c.setTask i t .freeing).Armed u →
      ∃ v ∈ c.tasks, c.Armed v ∧ v.service = u.service ∧ v.due = u.due := by
    intro u hu hu'
    rcases (mem_setTask hi).mp hu with rfl | ⟨j, -, hj⟩
    · exact ⟨t, ht, harmed, rfl, rfl⟩
    · exact ⟨u, List.mem_of_getElem? hj, hu', rfl, rfl⟩
  have hlive : ∀ r, (c.setTask i t .freeing).Live r → c.Live r := by
    rintro r (hr | ⟨u, hu, hur, hu'⟩)
    · exact .inl hr
    · obtain ⟨v, hv, hv', hvu, -⟩ := hback u hu hu'
      exact .inr ⟨v, hv, hvu.trans hur, hv'⟩
  exact {
    object := fun r => (h.object r).tasks_congr fun u _ hu => by
      refine mem_setTask_iff hi ?_ ?_
      · rw [hscheduled]
        rcases hu with hu | hu | hu <;> rw [hu] <;> nofun
      · rcases hu with hu | hu | hu <;> rw [hu] <;> nofun
    timer := fun _ _ hj hu => timer_setTask h hi (by decide) hj hu
    own := fun _ _ hr => own_setTask h hi hr
    due := by
      intro u hu hfreeing
      rcases (mem_setTask hi).mp hu with rfl | ⟨j, -, hj⟩
      · exact hdue
      · exact h.due u (List.mem_of_getElem? hj) hfreeing
    acquired := h.acquired
    granted := fun r hr => absurd hr (hnone r)
    idle := by
      intro hlock u hu hrunning
      rcases (mem_setTask hi).mp hu with rfl | ⟨j, -, hj⟩
      · rfl
      · exact h.idle hlock u (List.mem_of_getElem? hj) hrunning
    live := fun hlock r r' hr hr' => h.live hlock r r' (hlive r hr) (hlive r' hr')
    armed := by
      intro hlock r hr
      rcases h.armed hlock r hr with hgranted | ⟨u, hu, hur, hu'⟩
      · exact absurd hgranted (hnone r)
      · obtain ⟨j, hj⟩ := List.mem_iff_getElem?.mp hu
        by_cases hij : j = i
        · rw [hij] at hj
          obtain rfl := Option.some.inj (hi.symm.trans hj)
          exact .inr ⟨_, (mem_setTask hi).mpr (.inl rfl), hur, .inl rfl⟩
        · exact .inr ⟨u, (mem_setTask hi).mpr (.inr ⟨j, hij, hj⟩), hur, hu'⟩
    fresh := by
      intro hlock u hu hu'
      obtain ⟨v, hv, hv', -, hvu⟩ := hback u hu hu'
      exact hvu ▸ h.fresh hlock v hv hv' }

/-- A task frees the lock.  The session of the holder, if there is one, is closed by the task. -/
theorem Inv.freeTask (h : Inv c) {i : Nat} {t : Task S} (hi : c.taskAt i = some t)
    (hfreeing : t.stage = .freeing) :
    Inv ({ c with lock := lockFree }.setTask i t .checking) := by
  have ht : t ∈ c.tasks := List.mem_of_getElem? hi
  -- a method that has been granted the lock lets no timer come this far
  have hnone : ∀ r, ¬ c.Granted r := by
    intro r hr
    rcases (h.granted r hr).2 t ht with hover | ⟨hscheduled, -⟩
    · rw [hfreeing] at hover
      cases hover
    · rw [hfreeing] at hscheduled
      cases hscheduled
  have hmem : ∀ u, u.stage = .clearing →
      (u ∈ (c.setTask i t .checking).tasks ↔ u ∈ c.tasks) := by
    intro u hu
    exact mem_setTask_iff hi (by rw [hfreeing, hu]; nofun) (by rw [hu]; nofun)
  have hclosing : ∀ {u}, u ∈ c.tasks → u.stage = .checking ∨ u.stage = .closing →
      u ∈ (c.setTask i t .checking).tasks := by
    intro u hu hstage
    obtain ⟨j, hj⟩ := List.mem_iff_getElem?.mp hu
    refine (mem_setTask hi).mpr (.inr ⟨j, fun hij => ?_, hj⟩)
    rw [hij] at hj
    obtain rfl := Option.some.inj (hi.symm.trans hj)
    rw [hfreeing] at hstage
    rcases hstage with hstage | hstage <;> cases hstage
  refine .of_free rfl (fun r => ?_) (fun _ _ hj hu => timer_setTask h hi (by decide) hj hu)
    (fun _ _ hr => own_setTask h hi hr) (fun u hu hfree => ?_) h.acquired hnone
  · have hok := h.object r
    exact {
      uid := hok.uid
      marked := hok.marked
      flagged := by
        intro hflag
        refine (hok.flagged hflag).imp_right (Or.imp_right ?_)
        rintro ⟨u, hu, hur, hstage⟩
        exact ⟨u, (hmem u hstage).mpr hu, hur, hstage⟩
      opened := hok.opened
      closed := hok.closed
      clearing := fun u hu hur hstage =>
        hok.clearing u ((hmem u hstage).mp hu) hur hstage
      opening := hok.opening
      past := hok.past
      current := fun hfree => absurd rfl hfree
      closes := by
        intro hs
        rcases hok.closes hs with ⟨hlock, hfor⟩ | hcall | hcall | ⟨u, hu, hur, hstage⟩
        · -- only the object of this task can have a session for the holder
          have hrt : t.service = r :=
            h.live hlock _ _ (.inr ⟨t, ht, rfl, .inl hfreeing⟩) (h.armed hlock r hfor)
          exact .inr (.inr (.inr ⟨_, (mem_setTask hi).mpr (.inl rfl), hrt, .inl rfl⟩))
        · exact .inr (.inl hcall)
        · exact .inr (.inr (.inl hcall))
        · exact .inr (.inr (.inr ⟨u, hclosing hu hstage, hur, hstage⟩)) }
  · rcases (mem_setTask (c := c) hi).mp hu with rfl | ⟨j, -, hj⟩
    · cases hfree
    · exact h.due u (List.mem_of_getElem? hj) hfree

theorem ObjectOk.otherTask (h : ObjectOk lock tenure c.tasks s o) {i : Nat} {t : Task S}
    {stage : TaskStage} (hi : c.taskAt i = some t) (hs : s ≠ t.service) :
    ObjectOk lock tenure (c.setTask i t stage).tasks s o := by
  refine h.tasks_congr fun u hus _ => ?_
  rw [mem_setTask hi]
  constructor
  · rintro (rfl | ⟨j, -, hj⟩)
    · exact absurd hus.symm hs
    · exact List.mem_of_getElem? hj
  · intro hu
    obtain ⟨j, hj⟩ := List.mem_iff_getElem?.mp hu
    refine .inr ⟨j, fun hij => hs ?_, hj⟩
    rw [hij] at hj
    rw [← hus, ← Option.some.inj (hi.symm.trans hj)]

end Tasks

section Runs

variable [DecidableEq S] {c : TimedLock S} {o : ServiceObject}

/-- A step of a task behind the freeing of the lock, with what it does to its object. -/
theorem Inv.stepFreed (h : Inv c) {i : Nat} {t : Task S} (hi : c.taskAt i = some t)
    (hlock : c.lock = lockFree) {stage : TaskStage} (hstage : stage ≠ .scheduled)
    (hfreeing : stage ≠ .freeing) (hcall : o.call = (c.objects t.service).call)
    (htimer : o.timer = (c.objects t.service).timer)
    (hothers : ∀ r, r ≠ t.service →
      ObjectOk c.lock c.tenure (c.setTask i t stage).tasks r (c.objects r))
    (hok : ObjectOk c.lock c.tenure (c.setTask i t stage).tasks t.service o) :
    Inv ((c.put t.service o).setTask i t stage) := by
  refine .of_free hlock (object_put hothers hok) (fun j u hj hu => ?_) (fun r j hr => ?_)
    (fun u hu hfree => ?_) h.acquired fun r hr => ?_
  · have hold := timer_setTask (c := c) h hi hstage hj hu
    by_cases hut : u.service = t.service
    · show ((c.put t.service o).objects u.service).timer = _
      rw [hut, objects_put_self, htimer, ← hut]
      exact hold
    · exact (congrArg ServiceObject.timer (objects_put_ne c o hut)).trans hold
  · have hold : (c.objects r).timer = some j := by
      have hr' : ((c.put t.service o).objects r).timer = some j := hr
      by_cases hrt : r = t.service
      · rw [hrt, objects_put_self, htimer] at hr'
        rw [hrt]
        exact hr'
      · rwa [objects_put_ne c o hrt] at hr'
    exact own_setTask (c := c) h hi hold
  · rcases (mem_setTask (c := c) hi).mp hu with rfl | ⟨j, -, hj⟩
    · exact absurd hfree hfreeing
    · exact h.due u (List.mem_of_getElem? hj) hfree
  · refine h.not_granted hlock r ?_
    by_cases hrt : r = t.service
    · subst hrt
      have hgranted : o.call.any Call.granted = true := granted_put_self.mp hr
      rw [hcall] at hgranted
      exact hgranted
    · exact (granted_put_ne hrt).mp hr

theorem Inv.checkTask (h : Inv c) {i : Nat} {t : Task S} (hi : c.taskAt i = some t)
    (hchecking : t.stage = .checking) :
    Inv (c.setTask i t (if (c.objects t.service).sessionOpened then .closing else .ended)) := by
  have ht : t ∈ c.tasks := List.mem_of_getElem? hi
  have hlock := h.free_of_running ht (by rw [hchecking]; rfl) (by rw [hchecking]; nofun)
  have hok := h.object t.service
  generalize hstage : (if (c.objects t.service).sessionOpened then TaskStage.closing else .ended) =
    stage
  have hcases : stage = .closing ∧ (c.objects t.service).sessionOpened = true ∨
      stage = .ended ∧ (c.objects t.service).sessionOpened = false := by
    rw [← hstage]
    cases (c.objects t.service).sessionOpened <;> simp
  have hnot : stage ≠ .scheduled ∧ stage ≠ .freeing ∧ stage ≠ .clearing := by
    rcases hcases with ⟨rfl, -⟩ | ⟨rfl, -⟩ <;> decide
  have hmem : ∀ u, u.stage = .clearing → (u ∈ (c.setTask i t stage).tasks ↔ u ∈ c.tasks) := by
    intro u hu
    refine mem_setTask_iff hi (by rw [hchecking, hu]; nofun) ?_
    rw [hu]
    exact hnot.2.2.symm
  rw [show c.setTask i t stage = (c.put t.service (c.objects t.service)).setTask i t stage by
    rw [put_objects]]
  refine h.stepFreed hi hlock hnot.1 hnot.2.1 rfl rfl
    (fun r hr => (h.object r).otherTask hi hr) ?_
  exact {
    uid := hok.uid
    marked := hok.marked
    flagged := by
      intro hflag
      refine (hok.flagged hflag).imp_right (Or.imp_right ?_)
      rintro ⟨u, hu, hur, hstage⟩
      exact ⟨u, (hmem u hstage).mpr hu, hur, hstage⟩
    opened := hok.opened
    closed := hok.closed
    clearing := fun u hu hur hstage => hok.clearing u ((hmem u hstage).mp hu) hur hstage
    opening := hok.opening
    past := hok.past
    current := hok.current
    closes := by
      intro hs
      -- a session that is open is flagged, and will be closed by this very task
      have hflag := (hok.marked hs).resolve_right fun hopened =>
        h.not_granted hlock t.service ((granted_iff hopened).mpr rfl)
      obtain ⟨rfl, -⟩ := hcases.resolve_right fun hover => by
        rw [hover.2] at hflag
        cases hflag
      exact .inr (.inr (.inr ⟨_, (mem_setTask hi).mpr (.inl rfl), rfl, .inr rfl⟩)) }

theorem Inv.closeTask (h : Inv c) {i : Nat} {t : Task S} (hi : c.taskAt i = some t)
    (hclosing : t.stage = .closing) :
    Inv ((c.put t.service { c.objects t.service with session := false }).setTask i t
      .clearing) := by
  have ht : t ∈ c.tasks := List.mem_of_getElem? hi
  have hlock := h.free_of_running ht (by rw [hclosing]; rfl) (by rw [hclosing]; nofun)
  have hok := h.object t.service
  refine h.stepFreed hi hlock (by decide) (by decide) rfl rfl
    (fun r hr => (h.object r).otherTask hi hr) ?_
  exact {
    uid := hok.uid
    marked := nofun
    flagged := fun _ => .inr (.inr ⟨_, (mem_setTask hi).mpr (.inl rfl), rfl, rfl⟩)
    opened := by
      intro hopened
      have hcall : (c.objects t.service).call = some .opened := hopened
      exact absurd ((granted_iff hcall).mpr rfl) (h.not_granted hlock t.service)
    closed := fun _ => rfl
    clearing := fun _ _ _ _ => rfl
    opening := fun k hk => ⟨(hok.opening k hk).1, rfl, (hok.opening k hk).2.2⟩
    past := hok.past
    current := fun hheld => absurd hlock hheld
    closes := nofun }

theorem Inv.clearTask (h : Inv c) {i : Nat} {t : Task S} (hi : c.taskAt i = some t)
    (hclearing : t.stage = .clearing) :
    Inv ((c.put t.service { c.objects t.service with sessionOpened := false }).setTask i t
      .ended) := by
  have ht : t ∈ c.tasks := List.mem_of_getElem? hi
  have hlock := h.free_of_running ht (by rw [hclearing]; rfl) (by rw [hclearing]; nofun)
  have hok := h.object t.service
  have hsession := hok.clearing t ht rfl hclearing
  refine h.stepFreed hi hlock (by decide) (by decide) rfl rfl
    (fun r hr => (h.object r).otherTask hi hr) ?_
  exact {
    uid := hok.uid
    marked := fun hs => absurd hs (by simp [hsession])
    flagged := nofun
    opened := hok.opened
    closed := fun _ => hsession
    clearing := fun _ _ _ _ => hsession
    opening := fun k hk => ⟨(hok.opening k hk).1, hsession, rfl⟩
    past := hok.past
    current := fun hheld => absurd hlock hheld
    closes := fun hs => absurd hs (by simp [hsession]) }

/-! ## Runs -/

theorem Inv.stepTask (h : Inv c) {i : Nat} {t : Task S} {d : TimedLock S}
    (hi : c.taskAt i = some t) (horderly : t.stage = .scheduled → ¬ c.Doomed t.service)
    (hd : c.stepTask i t t.stage = some d) : Inv d := by
  cases hstage : t.stage with
  | scheduled =>
    rw [hstage] at hd
    obtain ⟨hdue, hd⟩ := Option.ite_none_right_eq_some.mp hd
    obtain rfl := Option.some.inj hd
    exact h.beginTask hi hstage hdue (horderly hstage)
  | freeing =>
    rw [hstage] at hd
    obtain rfl := Option.some.inj hd
    exact h.freeTask hi hstage
  | checking =>
    rw [hstage] at hd
    obtain rfl := Option.some.inj hd
    exact h.checkTask hi hstage
  | closing =>
    rw [hstage] at hd
    obtain rfl := Option.some.inj hd
    exact h.closeTask hi hstage
  | clearing =>
    rw [hstage] at hd
    obtain rfl := Option.some.inj hd
    exact h.clearTask hi hstage
  | ended =>
    rw [hstage] at hd
    cases hd

theorem Inv.step (h : Inv c) {a : Action S} {d : TimedLock S} (ha : c.Orderly a)
    (hd : c.step a = some d) : Inv d := by
  cases a with
  | acquireLock s uid o => exact h.begin (.inl ⟨o, rfl⟩) hd
  | releaseLock s uid o => exact h.begin (.inr ⟨o, rfl⟩) hd
  | call s =>
    obtain ⟨call, hcall, rfl⟩ := Option.map_eq_some_iff.mp hd
    exact h.stepCall hcall (ha call hcall)
  | task i =>
    obtain ⟨t, hi, hd⟩ := Option.bind_eq_some_iff.mp hd
    exact h.stepTask hi (ha t hi) hd
  | wait ms =>
    obtain rfl := Option.some.inj hd
    exact h.wait ms

end Runs

end TimedLock

open TimedLock

instance : Fintype Service := ⟨⟨Service.all, by decide⟩, fun s => by cases s <;> decide⟩

/-- `acquireLock` of one client with a session, with every step that it takes. -/
def acquired (s : Service) (uid : UInt32) : List (Action Service) :=
  .acquireLock s uid true :: List.replicate 6 (.call s)

end McDaemon.RootPa.Timer
