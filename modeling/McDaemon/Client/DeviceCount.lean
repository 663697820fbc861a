/-
# McDaemon.Client.DeviceCount — what the count of opens is worth.

The count says how many users share the lower layer as long as all of them have opened since that
layer was opened.  It is started again when the layer has died, and the users from before it stay
around: what they close is taken off the count of the new ones.  A re-open that fails starts the
count at one, for nobody.
-/
import McDaemon.Client.CommonClient

namespace McDaemon.Client

open McDaemon.Lib

namespace CommonClient

/-! ## The properties -/

/-- `open_count` is the number of opens since the lower layer was opened that are not closed. -/
def Counted (s : CommonClient) : Prop :=
  s.openCount = (s.users.count fun v => v.since = s.opened : Nat)

/-- The user has opened the lower layer as it is now, and the end of its close has not begun. -/
def Promised (s : CommonClient) (u : Nat) : Prop :=
  ∃ v, s.users.get? u = some v ∧ v.since = s.opened ∧ v.phase ≠ .closing

/-- The lower layer has become invalid. -/
def LayerInvalid (s : CommonClient) : Prop :=
  s.client = some .driver ∧ ∃ d, s.device = some d ∧ d.valid = false

def LayerOpen (s : CommonClient) : Prop := ∃ l, s.client = some l ∧ s.lowerIsOpen l = true

/-- Every user finds the lower layer open, and its own memory mapped, unless the layer has become
invalid. -/
def Served (s : CommonClient) : Prop :=
  ∀ u, s.Promised u → s.LayerInvalid ∨
    s.LayerOpen ∧ ∀ wsm, (wsm, u) ∈ s.owned → wsm ∈ s.mapped.map Prod.fst

/-- A failed open changes neither the count nor the client. -/
def FailedOpenKeeps (s : CommonClient) : ClientAction → Prop
  | .openClient _ driverOpens proxyOpens =>
    (s.openClient driverOpens proxyOpens).1 = false →
      (s.openClient driverOpens proxyOpens).2.openCount = s.openCount ∧
        (s.openClient driverOpens proxyOpens).2.client = s.client
  | _ => True

/-- No open fails to open a dead layer again, unless a single user was left on it.  Who opened
before the layer was opened again does not reach the count.  And memory of another user is not freed
where an address that was left on the list has come back: by the clean-up, which finds it twice, or
by the one who had it first. -/
def Orderly (s : CommonClient) : ClientAction → Prop
  | .openClient _ driverOpens proxyOpens =>
    s.dead = true → s.openCount ≠ 1 → (s.openLower driverOpens proxyOpens).isSome
  | .closeCheck u => ∀ v, s.users.get? u = some v → v.since = s.opened ∨ s.openCount ≤ 1
  | .close u _ => ∀ v, s.users.get? u = some v → v.since = s.opened ∨ s.client = none
  | .cleanUp u answer frees =>
    (s.hasOpenSessions answer).1 = true → ¬ s.LayerInvalid → ∀ v wsm, v ≠ u → s.Promised v →
      (wsm, v) ∈ s.owned → 2 ≤ s.wsms.countP (·.1 = wsm) → ¬ s.Frees (frees wsm)
  | .freeWsm u wsm frees =>
    ¬ s.LayerInvalid → ∀ v, v ≠ u → s.Promised v → (wsm, v) ∈ s.owned →
      wsm ∈ s.wsms.map Prod.fst → ¬ s.Frees frees
  | .setOpenMode _ | .mallocWsm .. | .invalidate => True

/-! ## What one section does -/

theorem openLower_cases {s t : CommonClient} {driverOpens proxyOpens : Bool}
    (h : s.openLower driverOpens proxyOpens = some t) :
    ∃ l dev pr, t = { s with
      device := dev, proxyOpen := pr, client := some l, opened := s.opened + 1 } ∧
        t.lowerIsOpen l = true := by
  unfold openLower at h
  split_ifs at h
  · cases h
    exact ⟨.driver, _, _, rfl, rfl⟩
  · cases h
    exact ⟨.proxy, _, _, rfl, rfl⟩

/-- An open finds nobody on a live layer and opens one, which it may fail to do, or is one more. -/
theorem openClient_cases (s : CommonClient) (driverOpens proxyOpens : Bool) :
    (∃ t, s.openLower driverOpens proxyOpens = some t ∧
      s.openClient driverOpens proxyOpens = (true, { t with openCount := 1 })) ∨
    ((s.dead = true ∨ s.openCount = 0) ∧ s.openLower driverOpens proxyOpens = none ∧
      s.openClient driverOpens proxyOpens =
        (false, { s with openCount := if s.client.isSome then 1 else 0 })) ∨
    (s.dead = false ∧ s.openCount ≠ 0 ∧
      s.openClient driverOpens proxyOpens = (true, s.countUp)) := by
  by_cases hnew : s.dead = true ∨ s.openCount = 0
  · have hzero : (if s.dead = true then { s with openCount := 0 } else s) =
        { s with openCount := 0 } := by
      rcases hnew with hdead | hcount
      · rw [if_pos hdead]
      · split_ifs
        · rfl
        · rw [← hcount]
    have hlower : ({ s with openCount := 0 } : CommonClient).openLower driverOpens proxyOpens =
        (s.openLower driverOpens proxyOpens).map fun t => { t with openCount := 0 } := by
      unfold openLower
      dsimp only
      split_ifs <;> rfl
    unfold openClient
    rw [hzero]
    dsimp only
    rw [if_pos rfl, hlower]
    cases hfound : s.openLower driverOpens proxyOpens with
    | none =>
      refine .inr (.inl ⟨hnew, rfl, ?_⟩)
      unfold countUp
      dsimp only [Option.map_none]
      split_ifs <;> rfl
    | some t =>
      obtain ⟨l, dev, pr, rfl, -⟩ := openLower_cases hfound
      exact .inl ⟨_, rfl, rfl⟩
  · push Not at hnew
    obtain ⟨hdead, hcount⟩ := hnew
    refine .inr (.inr ⟨by simpa using hdead, hcount, ?_⟩)
    unfold openClient
    rw [if_neg hdead]
    dsimp only
    rw [if_neg hcount]

theorem closeLower_cases (s : CommonClient) (pending : Bool) (l : Lower) :
    ∃ dev pr ms, ms.Sublist s.mapped ∧
      s.closeLower pending l = { s with device := dev, proxyOpen := pr, mapped := ms } := by
  unfold closeLower
  cases l with
  | proxy => exact ⟨s.device, false, s.mapped, List.Sublist.refl _, rfl⟩
  | driver =>
    cases hdev : s.device with
    | none => exact ⟨s.device, s.proxyOpen, s.mapped, List.Sublist.refl _, rfl⟩
    | some d =>
      dsimp only
      split_ifs
      · exact ⟨s.device, s.proxyOpen, s.mapped, List.Sublist.refl _, rfl⟩
      · exact ⟨none, s.proxyOpen, _, List.filter_sublist, rfl⟩

/-- A close takes one off the count of a layer, and the last one closes it. -/
theorem closeClient_cases (s : CommonClient) (pending : Bool) :
    (s.client = none ∧ s.closeClient pending = s) ∨
    (s.client ≠ none ∧ s.openCount ≠ 1 ∧
      s.closeClient pending = { s with openCount := s.openCount - 1 }) ∨
    (s.client ≠ none ∧ s.openCount = 1 ∧ ∃ dev pr ms, ms.Sublist s.mapped ∧
      s.closeClient pending = { s with
        device := dev, proxyOpen := pr, mapped := ms, client := none, openCount := 0 }) := by
  unfold closeClient
  cases hclient : s.client with
  | none => exact .inl ⟨rfl, rfl⟩
  | some l =>
    refine .inr ?_
    by_cases hlast : s.openCount = 1
    · refine .inr ⟨by simp, hlast, ?_⟩
      dsimp only
      rw [if_pos hlast]
      obtain ⟨dev, pr, ms, hms, hclosed⟩ := s.closeLower_cases pending l
      refine ⟨dev, pr, ms, hms, ?_⟩
      rw [hclosed]
      simp only [hlast, Int.sub_self]
    · refine .inl ⟨by simp, hlast, ?_⟩
      dsimp only
      rw [if_neg hlast, hclient]

/-- Asking for sessions changes nothing but the device, which may turn out to be invalid. -/
theorem hasOpenSessions_cases (s : CommonClient) (answer : SessionsAnswer) :
    s.hasOpenSessions answer = (true, s) ∨ s.hasOpenSessions answer = (false, s) ∨
      s.hasOpenSessions answer =
        (false, { s with device := s.device.map ({ · with valid := false }) }) := by
  unfold hasOpenSessions
  cases s.client with
  | none => exact .inr (.inl rfl)
  | some l =>
    cases l with
    | proxy => cases decide (answer = .noSessions) <;> simp
    | driver =>
      cases hdev : s.device with
      | none => exact .inr (.inl rfl)
      | some d =>
        dsimp only
        split_ifs
        · exact .inl rfl
        · exact .inr (.inr rfl)
        · cases decide (answer = .noSessions) <;> simp

/-! ## The invariant -/

/-- Beside the count and what users find: the client is chosen while somebody is counted, nobody is
ahead of the lower layer, the memory of a user is the lower layer's, and addresses are apart. -/
structure Settled (s : CommonClient) : Prop where
  counted : s.Counted
  idle : s.client = none ↔ s.openCount = 0
  since : ∀ u v, s.users.get? u = some v → v.since ≤ s.opened
  layer : ∀ l, s.client = some l → s.LayerInvalid ∨ s.lowerIsOpen l = true
  mine : ∀ u wsm, s.Promised u → (wsm, u) ∈ s.owned →
    s.LayerInvalid ∨ ∃ pl, s.place = some pl ∧ (wsm, pl) ∈ s.mapped
  apart : (s.mapped.map Prod.fst).Nodup
  listed : ∀ w ∈ s.wsms, w.2 ≠ 0
  owners : ∀ wsm u, (wsm, u) ∈ s.owned → u < s.users.fresh

section Settled

variable {s : CommonClient} {u : Nat} {v : User}

theorem Settled.openCount_pos (h : s.Settled) (hv : s.users.get? u = some v)
    (hsince : v.since = s.opened) : 0 < s.openCount := by
  rw [h.counted]
  have hne : (s.users.count fun v => v.since = s.opened) ≠ 0 := by
    intro hzero
    have hfalse := (s.users.count_eq_zero_iff _).mp hzero u v hv
    simp [hsince] at hfalse
  omega

theorem Settled.openCount_pos' (h : s.Settled) (hu : s.Promised u) : 0 < s.openCount := by
  obtain ⟨v, hv, hsince, -⟩ := hu
  exact h.openCount_pos hv hsince

theorem Settled.served (h : s.Settled) : s.Served := by
  intro u hu
  by_cases hinv : s.LayerInvalid
  · exact .inl hinv
  have hpos := h.openCount_pos' hu
  obtain ⟨l, hl⟩ := Option.ne_none_iff_exists'.mp (fun hnone => by
    have hzero := h.idle.mp hnone
    omega : s.client ≠ none)
  refine .inr ⟨⟨l, hl, (h.layer l hl).resolve_left hinv⟩, fun wsm hwsm => ?_⟩
  obtain ⟨pl, -, hmem⟩ := (h.mine u wsm hu hwsm).resolve_left hinv
  exact List.mem_map.mpr ⟨(wsm, pl), hmem, rfl⟩

/-- A user that moves on stays counted, and what it is promised can only end. -/
theorem Settled.setPhase (h : s.Settled) (hv : s.users.get? u = some v) {phase : Phase}
    (hphase : v.phase ≠ .closing ∨ phase = .closing) : (s.setPhase u phase).Settled := by
  have hget : ∀ w y, (s.setPhase u phase).users.get? w = some y →
      ∃ x, s.users.get? w = some x ∧ y.since = x.since ∧
        (y.phase ≠ .closing → x.phase ≠ .closing) := by
    intro w y hy
    change (s.users.modify u _).get? w = some y at hy
    rw [PtrList.get?_modify] at hy
    split_ifs at hy with hw
    · subst hw
      rw [hv] at hy
      cases hy
      refine ⟨v, hv, rfl, fun hne => ?_⟩
      rcases hphase with hph | rfl
      · exact hph
      · exact absurd rfl hne
    · exact ⟨y, hy, rfl, fun hne => hne⟩
  refine ⟨?_, h.idle, fun w y hy => ?_, h.layer, fun w wsm hw hown => ?_, h.apart, h.listed,
    h.owners⟩
  · have hcount : (s.users.modify u fun x : User => { x with phase := phase }).count
        (fun v => v.since = s.opened) = s.users.count fun v => v.since = s.opened :=
      PtrList.count_modify_eq fun _ _ => rfl
    exact h.counted.trans (congrArg Nat.cast hcount.symm)
  · obtain ⟨x, hx, hsince, -⟩ := hget w y hy
    rw [hsince]
    exact h.since w x hx
  · obtain ⟨y, hy, hsince, hne⟩ := hw
    obtain ⟨x, hx, heq, himp⟩ := hget w y hy
    exact h.mine w wsm ⟨x, hx, heq ▸ hsince, himp hne⟩ hown

/-- Who is promised something after another user has left was promised it before. -/
theorem promised_of_leave {w : Nat} (h : (s.leave u).Promised w) : s.Promised w := by
  obtain ⟨y, hy, hrest⟩ := h
  change (s.users.remove u).get? w = some y at hy
  rw [PtrList.get?_remove] at hy
  split_ifs at hy
  exact ⟨y, hy, hrest⟩

theorem get?_of_leave {w : Nat} {y : User} (h : (s.leave u).users.get? w = some y) :
    s.users.get? w = some y := by
  change (s.users.remove u).get? w = some y at h
  rw [PtrList.get?_remove] at h
  split_ifs at h
  exact h

/-- How many of those on the lower layer are left. -/
theorem Settled.count_leave (h : s.Settled) (hv : s.users.get? u = some v) :
    (((s.leave u).users.count fun v => v.since = s.opened : Nat) : Int) =
      s.openCount - if v.since = s.opened then 1 else 0 := by
  have hremove := PtrList.count_remove (q := fun v => v.since = s.opened) hv
  rw [h.counted]
  change (((s.users.remove u).count _ : Nat) : Int) = _
  by_cases hsince : v.since = s.opened
  · simp only [hsince, decide_true, if_true] at hremove ⊢
    omega
  · simp only [hsince, decide_false, Bool.false_eq_true, if_false] at hremove ⊢
    omega

/-- One of several users leaves. -/
theorem Settled.leave_one (h : s.Settled) (hv : s.users.get? u = some v)
    (hsince : v.since = s.opened) (hmore : s.openCount ≠ 1) :
    (({ s with openCount := s.openCount - 1 } : CommonClient).leave u).Settled := by
  have hpos := h.openCount_pos hv hsince
  have hcount := h.count_leave hv
  rw [if_pos hsince] at hcount
  refine ⟨hcount.symm, ?_, fun w y hy => h.since w y (get?_of_leave hy), h.layer,
    fun w wsm hw hown => h.mine w wsm (promised_of_leave hw) hown, h.apart, h.listed, h.owners⟩
  show s.client = none ↔ s.openCount - 1 = 0
  rw [h.idle]
  omega

/-- The last user leaves, and the lower layer is closed. -/
theorem Settled.leave_last (h : s.Settled) (hv : s.users.get? u = some v)
    (hsince : v.since = s.opened) (hlast : s.openCount = 1) {dev : Option DriverDevice} {pr : Bool}
    {ms : List (Nat × Place)} (hms : ms.Sublist s.mapped) :
    (({ s with device := dev, proxyOpen := pr, mapped := ms, client := none, openCount := 0 } :
      CommonClient).leave u).Settled := by
  have hcount := h.count_leave hv
  rw [if_pos hsince, hlast, Int.sub_self] at hcount
  refine ⟨hcount.symm, ⟨fun _ => rfl, fun _ => rfl⟩, fun w y hy => h.since w y (get?_of_leave hy),
    fun l hl => absurd hl (by simp [leave]), ?_, h.apart.sublist (hms.map _), h.listed, h.owners⟩
  rintro w wsm ⟨y, hy, hyes, -⟩ -
  -- nobody else is on the layer
  have hzero : (s.leave u).users.count (fun v => v.since = s.opened) = 0 := by omega
  have hnot := (PtrList.count_eq_zero_iff _ _).mp hzero w y hy
  simp [show y.since = s.opened from hyes] at hnot

/-- A user leaves that is not counted. -/
theorem Settled.leave_uncounted (h : s.Settled) (hv : s.users.get? u = some v)
    (hclient : s.client = none) : (s.leave u).Settled := by
  have hold : v.since ≠ s.opened := by
    intro hsince
    have hpos := h.openCount_pos hv hsince
    have hzero := h.idle.mp hclient
    omega
  have hcount := h.count_leave hv
  rw [if_neg hold, Int.sub_zero] at hcount
  exact ⟨hcount.symm, h.idle, fun w y hy => h.since w y (get?_of_leave hy), h.layer,
    fun w wsm hw hown => h.mine w wsm (promised_of_leave hw) hown, h.apart, h.listed, h.owners⟩

theorem Settled.invalidate (h : s.Settled) :
    ({ s with device := s.device.map ({ · with valid := false }) } : CommonClient).Settled := by
  have hinv : ∀ d, s.client = some .driver → s.device = some d →
      ({ s with device := s.device.map ({ · with valid := false }) } :
        CommonClient).LayerInvalid := by
    intro d hclient hdev
    refine ⟨hclient, { d with valid := false }, ?_, rfl⟩
    show s.device.map _ = _
    rw [hdev]
    rfl
  refine ⟨h.counted, h.idle, h.since, fun l hl => ?_, fun w wsm hw hown => ?_, h.apart, h.listed,
    h.owners⟩
  · change s.client = some l at hl
    cases l with
    | driver =>
      refine .inl ?_
      rcases h.layer .driver hl with ⟨-, d, hd, -⟩ | hopen
      · exact hinv d hl hd
      · obtain ⟨d, hd, -⟩ := (Option.any_eq_true _ _).mp hopen
        exact hinv d hl hd
    | proxy =>
      rcases h.layer .proxy hl with ⟨hdriver, -⟩ | hopen
      · rw [hl] at hdriver
        cases hdriver
      · exact .inr hopen
  · rcases h.mine w wsm hw hown with ⟨hclient, d, hd, -⟩ | ⟨pl, hpl, hmem⟩
    · exact .inl (hinv d hclient hd)
    · rcases place_eq_some_iff.mp hpl with ⟨hclient, rfl⟩ | ⟨d, hclient, hd, -⟩
      · exact .inr ⟨.anonymous, place_eq_some_iff.mpr (.inl ⟨hclient, rfl⟩), hmem⟩
      · exact .inl (hinv d hclient hd)

end Settled

/-! ## One section at a time -/

section Steps

variable {s t : CommonClient} {u : Nat}

/-- The lower layer is opened, and the user is the first on it. -/
theorem Settled.first (h : s.Settled) (gp : Bool) {l : Lower} {dev : Option DriverDevice}
    {pr : Bool}
    (hopen : ({ s with
      device := dev, proxyOpen := pr, client := some l, opened := s.opened + 1 } :
        CommonClient).lowerIsOpen l = true) :
    Settled { s with
      device := dev, proxyOpen := pr, client := some l, opened := s.opened + 1, openCount := 1,
      users := s.users.push ⟨gp, .holding, s.opened + 1⟩ } := by
  refine ⟨?_, ⟨nofun, nofun⟩, fun w y hy => ?_, fun l' hl' => ?_, ?_, h.apart, h.listed,
    fun wsm w hw => Nat.lt_succ_of_lt (h.owners wsm w hw)⟩
  · -- nobody else has opened this layer
    have hold : (s.users.count fun v => v.since = s.opened + 1) = 0 := by
      refine (s.users.count_eq_zero_iff _).mpr fun w y hy => decide_eq_false ?_
      have hle := h.since w y hy
      omega
    have hpush := s.users.count_push ⟨gp, .holding, s.opened + 1⟩
      (fun v => v.since = s.opened + 1)
    simp only [hold, decide_true, if_true] at hpush
    show (1 : Int) = ((s.users.push ⟨gp, .holding, s.opened + 1⟩).count
      (fun v => v.since = s.opened + 1) : Nat)
    rw [hpush]
    rfl
  · change (s.users.push _).get? w = some y at hy
    rw [PtrList.get?_push] at hy
    split_ifs at hy
    · cases hy
      exact Nat.le_refl _
    · exact Nat.le_succ_of_le (h.since w y hy)
  · cases hl'
    exact .inr hopen
  · rintro w wsm ⟨y, hy, hsince, -⟩ hown
    change (s.users.push _).get? w = some y at hy
    change y.since = s.opened + 1 at hsince
    rw [PtrList.get?_push] at hy
    split_ifs at hy with hw
    · have hlt := h.owners wsm w hown
      omega
    · have hle := h.since w y hy
      omega

/-- A count that was not one has not been started again by an open that fails. -/
theorem Settled.restarted (h : s.Settled) {gp driverOpens proxyOpens : Bool}
    (ho : s.Orderly (.openClient gp driverOpens proxyOpens))
    (hnew : s.dead = true ∨ s.openCount = 0) (hnone : s.openLower driverOpens proxyOpens = none) :
    ({ s with openCount := if s.client.isSome then 1 else 0 } : CommonClient) = s := by
  have hcount : (if s.client.isSome then 1 else 0) = s.openCount := by
    split_ifs with hclient
    · have hdead : s.dead = true := by
        refine hnew.resolve_right fun hzero => ?_
        rw [h.idle.mpr hzero] at hclient
        cases hclient
      by_contra hne
      have hsome := ho hdead (fun hone => hne hone.symm)
      rw [hnone] at hsome
      cases hsome
    · exact (h.idle.mp (by simpa using hclient)).symm
  rw [hcount]

/-- The user joins those that are on the lower layer. -/
theorem Settled.join (h : s.Settled) (gp : Bool) (hcount : s.openCount ≠ 0) :
    Settled { s with
      openCount := s.openCount + 1, users := s.users.push ⟨gp, .holding, s.opened⟩ } := by
  have hpush := s.users.count_push ⟨gp, .holding, s.opened⟩ (fun v => v.since = s.opened)
  have hcounted : s.openCount = _ := h.counted
  refine ⟨?_, ⟨fun hnone => ?_, fun hzero => ?_⟩, fun w y hy => ?_, h.layer, ?_, h.apart,
    h.listed, fun wsm w hw => Nat.lt_succ_of_lt (h.owners wsm w hw)⟩
  · simp only [decide_true, if_true] at hpush
    show s.openCount + 1 = ((s.users.push ⟨gp, .holding, s.opened⟩).count
      (fun v => v.since = s.opened) : Nat)
    omega
  · exact absurd (h.idle.mp hnone) hcount
  · change s.openCount + 1 = 0 at hzero
    omega
  · change (s.users.push _).get? w = some y at hy
    rw [PtrList.get?_push] at hy
    split_ifs at hy
    · cases hy
      exact Nat.le_refl _
    · exact h.since w y hy
  · rintro w wsm ⟨y, hy, hrest⟩ hown
    change (s.users.push _).get? w = some y at hy
    rw [PtrList.get?_push] at hy
    split_ifs at hy with hw
    · have hlt := h.owners wsm w hown
      omega
    · exact h.mine w wsm ⟨y, hy, hrest⟩ hown

theorem Settled.openClient (h : s.Settled) {gp driverOpens proxyOpens : Bool}
    (ho : s.Orderly (.openClient gp driverOpens proxyOpens))
    (ht : s.step (.openClient gp driverOpens proxyOpens) = some t) :
    t.Settled ∧ s.FailedOpenKeeps (.openClient gp driverOpens proxyOpens) := by
  unfold FailedOpenKeeps
  unfold step at ht
  dsimp only at ht ⊢
  rcases s.openClient_cases driverOpens proxyOpens with
    ⟨l, hl, heq⟩ | ⟨hnew, hnone, heq⟩ | ⟨hlive, hcount, heq⟩
  · obtain ⟨l, dev, pr, rfl, hopen⟩ := openLower_cases hl
    rw [heq] at ht ⊢
    cases ht
    exact ⟨h.first gp hopen, nofun⟩
  · rw [heq, h.restarted ho hnew hnone] at ht ⊢
    cases ht
    exact ⟨h, fun _ => ⟨rfl, rfl⟩⟩
  · have hclient : s.client.isSome = true := by
      rw [Option.isSome_iff_ne_none]
      exact fun hnone => hcount (h.idle.mp hnone)
    have hup : s.countUp = { s with openCount := s.openCount + 1 } := if_pos hclient
    rw [heq, hup] at ht ⊢
    cases ht
    exact ⟨h.join gp hcount, nofun⟩

/-- What a user step starts from: its user, in the right phase. -/
theorem bind_user_eq_some {f : User → Option CommonClient}
    (h : (s.users.get? u).bind f = some t) : ∃ v, s.users.get? u = some v ∧ f v = some t :=
  Option.bind_eq_some_iff.mp h

theorem Settled.closeCheck (h : s.Settled) (ho : s.Orderly (.closeCheck u))
    (ht : s.step (.closeCheck u) = some t) : t.Settled := by
  obtain ⟨v, hv, ht⟩ := bind_user_eq_some ht
  split_ifs at ht with hphase
  unfold CommonClient.closeCheck at ht
  by_cases hmore : 1 < s.openCount
  · rw [if_pos hmore] at ht
    cases ht
    have hsince := (ho v hv).resolve_right (by omega)
    exact h.leave_one hv hsince (by omega)
  · rw [if_neg hmore] at ht
    cases ht
    refine h.setPhase hv (.inl ?_)
    rw [hphase.2]
    nofun

theorem Settled.close (h : s.Settled) {pending : Bool} (ho : s.Orderly (.close u pending))
    (ht : s.step (.close u pending) = some t) : t.Settled := by
  obtain ⟨v, hv, ht⟩ := bind_user_eq_some ht
  split_ifs at ht
  all_goals
    cases ht
    rcases s.closeClient_cases pending with ⟨hnone, heq⟩ | ⟨hsome, hmore, heq⟩ |
      ⟨hsome, hlast, dev, pr, ms, hms, heq⟩
    · rw [heq]
      exact h.leave_uncounted hv hnone
    · rw [heq]
      exact h.leave_one hv ((ho v hv).resolve_right hsome) hmore
    · rw [heq]
      exact h.leave_last hv ((ho v hv).resolve_right hsome) hlast hms

theorem Settled.cleanUp (h : s.Settled) {answer : SessionsAnswer} {frees : Nat → Bool}
    (ho : s.Orderly (.cleanUp u answer frees))
    (ht : s.step (.cleanUp u answer frees) = some t) : t.Settled := by
  obtain ⟨v, hv, ht⟩ := bind_user_eq_some ht
  split_ifs at ht with hphase
  have hnot : v.phase ≠ .closing := by
    rw [hphase]
    nofun
  rcases s.hasOpenSessions_cases answer with heq | heq | heq
  · rw [heq] at ht
    cases ht
    obtain ⟨ws, ms, hfreed, hws, hms⟩ := freeRemaining_frame frees s.wsms.length s
    have hkept : ∀ {wsm pl}, (wsm, pl) ∈ s.mapped →
        s.wsms.countP (·.1 = wsm) ≤ 1 ∨ ¬ s.Frees (frees wsm) → (wsm, pl) ∈ ms := by
      intro wsm pl hmem honce
      have hin := mem_freeRemaining (n := s.wsms.length) hmem honce
      rwa [hfreed] at hin
    have hset : (s.setPhase u .closing).Settled := h.setPhase hv (.inr rfl)
    rw [hfreed]
    refine ⟨hset.counted, hset.idle, hset.since, hset.layer, fun w wsm hw hown => ?_,
      h.apart.sublist (hms.map _), fun w hw => h.listed w (hws w hw), hset.owners⟩
    rcases hset.mine w wsm hw hown with hinv | ⟨pl, hpl, hmem⟩
    · exact .inl hinv
    · by_cases hinv : s.LayerInvalid
      · exact .inl hinv
      refine .inr ⟨pl, hpl, hkept hmem ?_⟩
      rw [Classical.or_iff_not_imp_left]
      intro htwice
      -- the user that is served cannot be the one that closes
      obtain ⟨y, hy, hsince, hopen⟩ := hw
      change (s.users.modify u _).get? w = some y at hy
      rw [PtrList.get?_modify] at hy
      split_ifs at hy with hwu
      · subst hwu
        rw [hv] at hy
        cases hy
        exact absurd rfl hopen
      · exact ho (by rw [heq]) hinv w wsm hwu ⟨y, hy, hsince, hopen⟩ hown (by omega)
  · rw [heq] at ht
    cases ht
    exact h.setPhase hv (.inl hnot)
  · rw [heq] at ht
    cases ht
    exact h.invalidate.setPhase hv (.inl hnot)

theorem Settled.mallocWsm (h : s.Settled) {wsm len : Nat} {room : Bool}
    (ht : s.step (.mallocWsm u wsm len room) = some t) : t.Settled := by
  obtain ⟨v, hv, ht⟩ := bind_user_eq_some ht
  split_ifs at ht with hphase
  cases ht
  unfold mcMallocWsm
  split
  · exact h
  · next pl hpl =>
    by_cases hrefused : s.openCount ≤ 0 ∨ len = 0
    · rw [if_pos hrefused]
      exact h
    · rw [if_neg hrefused]
      refine ⟨h.counted, h.idle, h.since, h.layer, fun w a hw hown => ?_,
        List.nodup_cons.mpr ⟨hphase.2, h.apart⟩, fun w hw => ?_, fun a w hown => ?_⟩
      · rcases List.mem_cons.mp hown with heq | hown
        · cases heq
          exact .inr ⟨pl, hpl, List.mem_cons_self⟩
        · rcases h.mine w a hw hown with hinv | ⟨pl', hpl', hmem⟩
          · exact .inl hinv
          · exact .inr ⟨pl', hpl', List.mem_cons_of_mem _ hmem⟩
      · change w ∈ if room then s.wsms ++ [(wsm, len)] else s.wsms at hw
        split_ifs at hw
        · rcases List.mem_append.mp hw with hw | hw
          · exact h.listed w hw
          · rw [List.mem_singleton.mp hw]
            exact fun hzero => hrefused (.inr hzero)
        · exact h.listed w hw
      · rcases List.mem_cons.mp hown with heq | hown
        · cases heq
          exact PtrList.lt_fresh_of_get? hv
        · exact h.owners a w hown

theorem Settled.freeWsm (h : s.Settled) {wsm : Nat} {frees : Bool}
    (ho : s.Orderly (.freeWsm u wsm frees)) (ht : s.step (.freeWsm u wsm frees) = some t) :
    t.Settled := by
  obtain ⟨v, hv, ht⟩ := bind_user_eq_some ht
  split_ifs at ht with hphase
  cases hfree : s.mcFreeWsm wsm frees with
  | none =>
    rw [hfree] at ht
    cases ht
    exact h
  | some r =>
    rw [hfree] at ht
    cases ht
    obtain ⟨hfrees, len, ws, ms, hperm, rfl, hms, hother, -⟩ := mcFreeWsm_cases hfree
    refine ⟨h.counted, h.idle, h.since, h.layer, fun w a hw hown => ?_, h.apart.sublist (hms.map _),
      fun w hw => h.listed w (hperm.symm.subset (List.mem_cons_of_mem _ hw)),
      fun a w hown => h.owners a w (List.mem_of_mem_filter hown)⟩
    obtain ⟨hin, hne⟩ := List.mem_filter.mp hown
    rcases h.mine w a hw hin with hinv | ⟨pl, hpl, hmem⟩
    · exact .inl hinv
    · by_cases hinv : s.LayerInvalid
      · exact .inl hinv
      refine .inr ⟨pl, hpl, hother _ hmem fun heq => ?_⟩
      obtain rfl : a = wsm := heq
      have hwu : w ≠ u := by
        rintro rfl
        simp at hne
      refine ho hinv w hwu hw hin ?_ hfrees
      exact List.mem_map.mpr ⟨_, hperm.symm.subset List.mem_cons_self, rfl⟩

/-- **Orderly step.** A section that is orderly keeps the invariant, and fails without a trace. -/
theorem Settled.step (h : s.Settled) {a : ClientAction} (ht : s.step a = some t)
    (ho : s.Orderly a) : t.Settled ∧ s.FailedOpenKeeps a := by
  match a with
  | .setOpenMode mode =>
    cases ht
    exact ⟨⟨h.counted, h.idle, h.since, h.layer, h.mine, h.apart, h.listed, h.owners⟩, trivial⟩
  | .openClient .. => exact h.openClient ho ht
  | .closeCheck _ => exact ⟨h.closeCheck ho ht, trivial⟩
  | .cleanUp .. => exact ⟨h.cleanUp ho ht, trivial⟩
  | .close .. => exact ⟨h.close ho ht, trivial⟩
  | .mallocWsm .. => exact ⟨h.mallocWsm ht, trivial⟩
  | .freeWsm .. => exact ⟨h.freeWsm ho ht, trivial⟩
  | .invalidate =>
    cases ht
    exact ⟨h.invalidate, trivial⟩

end Steps

section Converse

variable {s t : CommonClient} {u : Nat}

theorem orderly_openClient {gp driverOpens proxyOpens : Bool}
    (hkeeps : s.FailedOpenKeeps (.openClient gp driverOpens proxyOpens)) :
    s.Orderly (.openClient gp driverOpens proxyOpens) := by
  intro hdead hne
  rcases s.openClient_cases driverOpens proxyOpens with
    ⟨r, hr, -⟩ | ⟨-, -, heq⟩ | ⟨hlive, -, -⟩
  · rw [hr]
    rfl
  · unfold FailedOpenKeeps at hkeeps
    dsimp only at hkeeps
    rw [heq] at hkeeps
    have hsame : (if s.client.isSome then (1 : Int) else 0) = s.openCount := (hkeeps rfl).1
    have hclient : s.client.isSome = true := by
      obtain ⟨l, hl, -⟩ := (Option.any_eq_true _ _).mp hdead
      rw [hl]
      rfl
    rw [if_pos hclient] at hsame
    exact absurd hsame.symm hne
  · rw [hlive] at hdead
    cases hdead

theorem Settled.orderly_closeCheck (h : s.Settled) (ht : s.step (.closeCheck u) = some t)
    (hcounted : t.Counted) : s.Orderly (.closeCheck u) := by
  intro v hv
  by_contra hnot
  push Not at hnot
  obtain ⟨hold, hmore⟩ := hnot
  obtain ⟨v', hv', ht⟩ := bind_user_eq_some ht
  obtain rfl : v = v' := Option.some.inj (hv.symm.trans hv')
  split_ifs at ht
  unfold CommonClient.closeCheck at ht
  rw [if_pos (by omega)] at ht
  cases ht
  have hcount := h.count_leave hv
  rw [if_neg hold] at hcount
  have hless : s.openCount - 1 =
      ((s.leave u).users.count fun v => v.since = s.opened : Nat) := hcounted
  omega

theorem Settled.orderly_close (h : s.Settled) {pending : Bool}
    (ht : s.step (.close u pending) = some t) (hcounted : t.Counted) :
    s.Orderly (.close u pending) := by
  intro v hv
  by_contra hnot
  push Not at hnot
  obtain ⟨hold, hsome⟩ := hnot
  obtain ⟨v', hv', ht⟩ := bind_user_eq_some ht
  have hcount := h.count_leave hv
  rw [if_neg hold] at hcount
  split_ifs at ht
  all_goals
    cases ht
    rcases s.closeClient_cases pending with ⟨hnone, -⟩ | ⟨-, -, heq⟩ |
      ⟨-, hlast, dev, pr, ms, -, heq⟩
    · exact hsome hnone
    · rw [heq] at hcounted
      have hless : s.openCount - 1 =
          ((s.leave u).users.count fun v => v.since = s.opened : Nat) := hcounted
      omega
    · rw [heq] at hcounted
      have hzero : (0 : Int) =
          ((s.leave u).users.count fun v => v.since = s.opened : Nat) := hcounted
      omega

theorem Settled.orderly_cleanUp (h : s.Settled) {answer : SessionsAnswer} {frees : Nat → Bool}
    (ht : s.step (.cleanUp u answer frees) = some t) (hserved : t.Served) :
    s.Orderly (.cleanUp u answer frees) := by
  intro hgone hinv w wsm hwu hw hown htwice hfrees
  obtain ⟨v, hv, ht⟩ := bind_user_eq_some ht
  split_ifs at ht
  have heq : s.hasOpenSessions answer = (true, s) := by
    rcases s.hasOpenSessions_cases answer with heq | heq | heq
    · exact heq
    · rw [heq] at hgone
      cases hgone
    · rw [heq] at hgone
      cases hgone
  rw [heq] at ht
  cases ht
  obtain ⟨pl, hpl, hmem⟩ := (h.mine w wsm hw hown).resolve_left hinv
  have hfreed : wsm ∉ (s.freeRemaining frees s.wsms.length).mapped.map Prod.fst :=
    not_mem_freeRemaining (Nat.le_refl _) (h.openCount_pos' hw) h.listed h.apart hpl hmem htwice
      hfrees
  obtain ⟨ws, ms, hframe, -, -⟩ := freeRemaining_frame frees s.wsms.length s
  rw [hframe] at hserved hfreed
  have hw' : (CommonClient.setPhase { s with wsms := ws, mapped := ms } u .closing).Promised w := by
    obtain ⟨y, hy, hrest⟩ := hw
    refine ⟨y, ?_, hrest⟩
    show (s.users.modify u _).get? w = some y
    rw [PtrList.get?_modify, if_neg hwu]
    exact hy
  rcases hserved w hw' with hbad | ⟨-, hall⟩
  · exact hinv hbad
  · exact hfreed (hall wsm hown)

theorem Settled.orderly_freeWsm (h : s.Settled) {wsm : Nat} {frees : Bool}
    (ht : s.step (.freeWsm u wsm frees) = some t) (hserved : t.Served) :
    s.Orderly (.freeWsm u wsm frees) := by
  intro hinv w hwu hw hown hlisted hfrees
  obtain ⟨v, hv, ht⟩ := bind_user_eq_some ht
  split_ifs at ht
  obtain ⟨pl, hpl, hmem⟩ := (h.mine w wsm hw hown).resolve_left hinv
  obtain ⟨r, hr⟩ := exists_mcFreeWsm (h.openCount_pos' hw)
    ((wsmsLen_ne_zero_iff h.listed).mpr hlisted) hpl hmem hfrees
  rw [hr] at ht
  cases ht
  obtain ⟨-, len, ws, ms, -, rfl, hms, -, hgone⟩ := mcFreeWsm_cases hr
  rcases hserved w hw with hbad | ⟨-, hall⟩
  · exact hinv hbad
  · have hin : (wsm, w) ∈ s.owned.filter (· ≠ (wsm, u)) :=
      List.mem_filter.mpr ⟨hown, by simpa using hwu⟩
    obtain ⟨m, hm, hfst⟩ := List.mem_map.mp (hall wsm hin)
    obtain rfl : m = (wsm, pl) := List.inj_on_of_nodup_map h.apart (hms.subset hm) hmem hfst
    exact hgone pl hpl hm

/-- A section that leaves things as they should be was orderly. -/
theorem Settled.orderly (h : s.Settled) {a : ClientAction} (ht : s.step a = some t)
    (hcounted : t.Counted) (hserved : t.Served) (hkeeps : s.FailedOpenKeeps a) : s.Orderly a := by
  match a with
  | .setOpenMode _ | .mallocWsm .. | .invalidate => trivial
  | .openClient .. => exact orderly_openClient hkeeps
  | .closeCheck _ => exact h.orderly_closeCheck ht hcounted
  | .cleanUp .. => exact h.orderly_cleanUp ht hserved
  | .close .. => exact h.orderly_close ht hcounted
  | .freeWsm .. => exact h.orderly_freeWsm ht hserved

end Converse

theorem init_settled : CommonClient.init.Settled where
  counted := rfl
  idle := ⟨fun _ => rfl, fun _ => rfl⟩
  since := nofun
  layer := nofun
  mine := by
    rintro u wsm ⟨v, hv, -⟩
    cases hv
  apart := List.nodup_nil
  listed := nofun
  owners := nofun

end CommonClient

open CommonClient

/-- **The count of opens.** The count is right, all users are served, and no failed open leaves a
trace, in every state of a run, exactly when every section of the run is orderly. -/
theorem counted_iff_orderly {as : List ClientAction} {t : CommonClient}
    (hrun : commonMachine.run .init as = some t) :
    (commonMachine.RunStays (fun s => s.Counted ∧ s.Served) .init as ∧
      commonMachine.RunMeets FailedOpenKeeps .init as) ↔
      commonMachine.RunMeets Orderly .init as :=
  commonMachine.runStays_and_runMeets_iff (I := Settled) (fun _ h => ⟨h.counted, h.served⟩)
    (fun _ _ _ h ht ho => h.step ht ho)
    (fun _ _ _ h ht hp hk => h.orderly ht hp.1 hp.2 hk) init_settled hrun

/-- Two users come, the first one leaves. -/
def twoUsers : List ClientAction :=
  [.openClient false true false, .openClient true true false, .closeCheck 0]

theorem counted_twoUsers :
    commonMachine.RunStays (fun s => s.Counted ∧ s.Served) .init twoUsers ∧
      commonMachine.RunMeets FailedOpenKeeps .init twoUsers := by
  refine (counted_iff_orderly rfl).mpr ⟨?_, ?_, ?_, trivial⟩
  · intro hdead
    cases hdead
  · intro hdead
    cases hdead
  · intro v hv
    cases hv
    exact .inl rfl

/-- The daemon dies, a second user opens the driver again, and the first one closes what it had. -/
def staleClose : List ClientAction :=
  [.openClient true true false, .invalidate, .openClient true true false, .close 0 false]

/-- The close of the first user closes the driver of the second, which is not counted any more.
And an open that fails to open a dead driver again changes the count. -/
theorem staleClose_closesOther :
    (∃ s, commonMachine.run .init staleClose = some s ∧ s.Promised 1 ∧ s.openCount = 0 ∧
      s.client = none ∧ ¬ s.Counted ∧ ¬ s.Served) ∧
    ∃ s, commonMachine.run .init
        [.openClient true true false, .openClient true true false, .invalidate] = some s ∧
      s.openClient false false = (false, { s with openCount := 1 }) ∧ s.openCount = 2 := by
  refine ⟨⟨_, rfl, ⟨⟨true, .holding, 2⟩, rfl, rfl, nofun⟩, rfl, rfl, ?_, ?_⟩, _, rfl, rfl, rfl⟩
  · intro hcounted
    cases hcounted
  · intro hserved
    rcases hserved 1 ⟨⟨true, .holding, 2⟩, rfl, rfl, nofun⟩ with ⟨hclient, -⟩ | ⟨⟨l, hl, -⟩, -⟩
    · cases hclient
    · cases hl

end McDaemon.Client
