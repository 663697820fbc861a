/-
# McDaemon.Registry.ObjectTrees — clean-up takes a tree of objects, and nothing else.

Below the root container hang the service providers that it lists, below these their trustlets, and
below a trustlet its data, its binary and the applications that go with it.  However clean-up ends,
what it has taken is of the tree, and no application is left half there; when it succeeds, all of
the tree that hangs below containers of the right size is gone.
-/
import McDaemon.Registry.ObjectRuns

namespace McDaemon.Registry

open McDaemon.Lib
open McDaemon.Lib.Outcomes

/-! ## Trees -/

def trustletTree (c : Objects) (spid : Spid) (uuid : Uuid) : Set RegistryObject :=
  {.tlCont uuid spid, .tlBin uuid} ∪ dataOf uuid ∪
    {o | ∃ app, GoesWith c uuid spid app ∧ o ∈ applicationOf app}

def spTree (c : Objects) (spid : Spid) : Set RegistryObject :=
  {.sp spid} ∪ {o | ∃ content, c (.sp spid) = some content ∧
    ∃ uuid ∈ spChildren content, o ∈ trustletTree c spid uuid}

def rootTree (c : Objects) : Set RegistryObject :=
  {.root} ∪ {o | ∃ content, c .root = some content ∧
    ∃ spid ∈ rootChildren content, o ∈ spTree c spid}

/-- Only objects of `tree` have been taken, and applications as a whole. -/
structure Takes (tree : Set RegistryObject) (c d : Objects) : Prop where
  objects : ∀ o, d o = c o ∨ o ∈ tree ∧ d o = none
  applications : ∀ app, (d (.taBin app) = c (.taBin app) ∧ d (.taSpid app) = c (.taSpid app)) ∨
    d (.taBin app) = none ∧ d (.taSpid app) = none

/-- A trustlet has been taken, with its data, its binary and an application if one goes with it. -/
structure TrustletTaken (c d : Objects) (spid : Spid) (uuid : Uuid) : Prop where
  cont : d (.tlCont uuid spid) = none
  data : ∀ pid, d (.tlData uuid pid) = none
  binary : d (.tlBin uuid) = none
  application : c (.tlBin uuid) = none → (∃ app, GoesWith c uuid spid app) →
    ∃ app, GoesWith c uuid spid app ∧ d (.taBin app) = none ∧ d (.taSpid app) = none

/-- A service provider was there and has been taken, unless its container is too short. -/
def SpTaken (c d : Objects) (spid : Spid) : Prop :=
  ∃ content, c (.sp spid) = some content ∧ (sizeofSpCont ≤ content.length →
    d (.sp spid) = none ∧ ∀ uuid ∈ spChildren content, TrustletTaken c d spid uuid)

def RootTaken (c d : Objects) : Prop :=
  ∃ content, c .root = some content ∧ (sizeofRootCont ≤ content.length →
    d .root = none ∧ ∀ spid ∈ rootChildren content, SpTaken c d spid)

namespace Takes

variable {tree tree' : Set RegistryObject} {c d e : Objects} {uuid : Uuid} {spid : Spid}
  {app : Uuid}

theorem refl (tree : Set RegistryObject) (c : Objects) : Takes tree c c :=
  ⟨fun _ => .inl rfl, fun _ => .inl ⟨rfl, rfl⟩⟩

theorem mono (h : Takes tree c d) (htree : tree ⊆ tree') : Takes tree' c d :=
  ⟨fun o => (h.objects o).imp_right fun ⟨ho, hnone⟩ => ⟨htree ho, hnone⟩, h.applications⟩

theorem none_of_none (h : Takes tree c d) {o : RegistryObject} (ho : c o = none) : d o = none :=
  (h.objects o).elim (fun hsame => hsame.trans ho) And.right

/-- What is left is what was there. -/
theorem some_of_some (h : Takes tree c d) {o : RegistryObject} {content : List UInt8}
    (ho : d o = some content) : c o = some content := by
  rcases h.objects o with hsame | ⟨-, hnone⟩
  · rw [← hsame, ho]
  · rw [hnone] at ho
    cases ho

theorem trans (hcd : Takes tree c d) (hde : Takes tree d e) : Takes tree c e := by
  constructor
  · intro o
    rcases hde.objects o with hsame | htaken
    · rw [hsame]
      exact hcd.objects o
    · exact .inr htaken
  · intro app
    rcases hde.applications app with ⟨hbin, hspid⟩ | htaken
    · rw [hbin, hspid]
      exact hcd.applications app
    · exact .inr htaken

theorem without {gone : Set RegistryObject} (c : Objects) (hgone : gone ⊆ tree)
    (happ : ∀ app, .taBin app ∈ gone ↔ .taSpid app ∈ gone) : Takes tree c (c.without gone) := by
  unfold Objects.without
  constructor
  · intro o
    by_cases ho : o ∈ gone
    · exact .inr ⟨hgone ho, if_pos ho⟩
    · exact .inl (if_neg ho)
  · intro app
    by_cases ho : .taBin app ∈ gone
    · exact .inr ⟨if_pos ho, if_pos ((happ app).mp ho)⟩
    · exact .inl ⟨if_neg ho, if_neg fun h => ho ((happ app).mpr h)⟩

/-- An application that still goes with a trustlet did so before. -/
theorem goesWith (h : Takes tree c d) (happ : GoesWith d uuid spid app) :
    GoesWith c uuid spid app := by
  obtain ⟨⟨bytes, hbytes, hspid⟩, content, hcontent, hheader⟩ := happ
  exact ⟨⟨bytes, h.some_of_some hbytes, hspid⟩, content, h.some_of_some hcontent, hheader⟩

/-- One that does not go with it any more is gone. -/
theorem gone_of_not_goesWith (h : Takes tree c d) (happ : GoesWith c uuid spid app)
    (hnot : ¬ GoesWith d uuid spid app) : d (.taBin app) = none ∧ d (.taSpid app) = none := by
  refine (h.applications app).resolve_left ?_
  rintro ⟨hbin, hspid⟩
  refine hnot ⟨?_, ?_⟩
  · rw [hspid]
    exact happ.spid
  · rw [hbin]
    exact happ.bin

theorem trustletTree_subset (h : Takes tree c d) (spid : Spid) (uuid : Uuid) :
    trustletTree d spid uuid ⊆ trustletTree c spid uuid :=
  Set.union_subset_union_right _ fun _ ⟨app, happ, ho⟩ => ⟨app, h.goesWith happ, ho⟩

theorem spTree_subset (h : Takes tree c d) (spid : Spid) : spTree d spid ⊆ spTree c spid :=
  Set.union_subset_union_right _ fun _ ⟨content, hcontent, uuid, huuid, ho⟩ =>
    ⟨content, h.some_of_some hcontent, uuid, huuid, h.trustletTree_subset spid uuid ho⟩

theorem remove (c : Objects) (o : RegistryObject) (ho : ∀ app, o ≠ .taBin app ∧ o ≠ .taSpid app) :
    Takes {o} c (Registry.remove c o).2 :=
  without c subset_rfl fun app => iff_of_false
    (fun h => (ho app).1 (Set.mem_singleton_iff.mp h).symm)
    fun h => (ho app).2 (Set.mem_singleton_iff.mp h).symm

/-- **One item after another** takes the trees of the items. -/
theorem each {ρ α : Type*} {ok r : ρ} {S : Objects → α → Outcomes ρ Objects}
    {trees : Objects → α → Set RegistryObject} {xs : List α}
    (hstep : ∀ a x r b, S a x r b → Takes (trees a x) a b)
    (htrees : ∀ a x, Takes Set.univ c a → trees a x ⊆ trees c x) (h : each ok S c xs r e) :
    Takes {o | ∃ x ∈ xs, o ∈ trees c x} c e := by
  -- on the way there is not more than at the start
  have hrel : Takes Set.univ c c → Takes {o | ∃ x ∈ xs, o ∈ trees c x} c e := by
    refine each_rel (R := fun a b => Takes Set.univ c a → Takes {o | ∃ x ∈ xs, o ∈ trees c x} a b)
      (fun a _ => .refl _ a) (fun a b d hab hbd ha => ?_) (fun a x hx r b hS ha => ?_) h
    · have hb := ha.trans ((hab ha).mono (Set.subset_univ _))
      exact (hab ha).trans (hbd hb)
    · exact (hstep a x r b hS).mono fun o ho => ⟨x, hx, htrees a x ha ho⟩
  exact hrel (.refl _ c)

end Takes

/-! ## What the map allows -/

section Cleaned

variable {a b c d e : Objects} {spid : Spid} {uuid : Uuid} {r : McResult}

theorem applicationOf_pair (app app' : Uuid) :
    .taBin app' ∈ applicationOf app ↔ .taSpid app' ∈ applicationOf app := by
  simp [applicationOf]

theorem takes_data (c : Objects) (uuid : Uuid) : Takes (dataOf uuid) c (c.without (dataOf uuid)) :=
  .without c subset_rfl fun app => by simp [dataOf]

theorem takes_binary (h : BinaryRemoved c uuid spid d) :
    Takes (trustletTree c spid uuid) c d := by
  cases h with
  | legacy _ =>
    exact .without c (fun o ho => .inl (.inl (.inr ho))) fun app => by simp
  | application _ goes =>
    exact .without c (fun o ho => .inr ⟨_, goes, ho⟩) (applicationOf_pair _)
  | neither _ _ => exact .refl _ c

theorem tlBin_of_binaryRemoved (h : BinaryRemoved c uuid spid d) : d (.tlBin uuid) = none := by
  cases h with
  | legacy _ => exact if_pos rfl
  | application absent _ =>
    unfold Objects.without
    split_ifs
    · rfl
    · exact absent
  | neither absent _ => exact absent

theorem takes_trustlet (h : trustletCleaned c spid uuid r e) :
    Takes (trustletTree c spid uuid) c e := by
  obtain ⟨d, hbinary, hcont⟩ := h
  have hdata := takes_data c uuid
  have hbin := (takes_binary hbinary).mono (hdata.trustletTree_subset spid uuid)
  have hlast := Takes.remove d (.tlCont uuid spid) fun _ => ⟨nofun, nofun⟩
  rw [← hcont] at hlast
  refine ((hdata.mono ?_).trans hbin).trans (hlast.mono ?_)
  · exact fun o ho => .inl (.inr ho)
  · exact fun o ho => .inl (.inl (.inl ho))

/-- **A trustlet is taken** when its turn comes, and stays so. -/
theorem TrustletTaken.of_cleaned {tree tree' : Set RegistryObject} (hbefore : Takes tree c a)
    (h : trustletCleaned a spid uuid r b) (hafter : Takes tree' b e) :
    TrustletTaken c e spid uuid := by
  obtain ⟨d, hbinary, hcont⟩ := h
  have hdata := takes_data a uuid
  have hlast := Takes.remove d (.tlCont uuid spid) fun _ => ⟨nofun, nofun⟩
  rw [← hcont] at hlast
  have hend := (hlast.mono (Set.subset_univ _)).trans (hafter.mono (Set.subset_univ _))
  have hstart := (hbefore.mono (Set.subset_univ _)).trans (hdata.mono (Set.subset_univ _))
  refine ⟨hafter.none_of_none ?_, fun pid => ?_, ?_, fun habsent hgoes => ?_⟩
  · have hself := congrArg (fun m => m.2 (RegistryObject.tlCont uuid spid)) hcont
    exact hself.trans (if_pos rfl)
  · exact hend.none_of_none ((takes_binary hbinary).none_of_none (if_pos ⟨pid, rfl⟩))
  · exact hend.none_of_none (tlBin_of_binaryRemoved hbinary)
  · cases hbinary with
    | legacy present => exact absurd (hstart.none_of_none habsent) present
    | @application app _ goes =>
      refine ⟨app, hstart.goesWith goes, hend.none_of_none ?_, hend.none_of_none ?_⟩
      · exact if_pos (.inl rfl)
      · exact if_pos (.inr rfl)
    | neither _ hnone =>
      -- it has gone with another trustlet
      obtain ⟨app, happ⟩ := hgoes
      obtain ⟨hbin, hspid⟩ := hstart.gone_of_not_goesWith happ (hnone app)
      exact ⟨app, happ, hend.none_of_none hbin, hend.none_of_none hspid⟩

theorem readBytes_ok {size : Nat} {stored : Option (List UInt8)} {data : List UInt8}
    (h : readBytes size stored = .ok data) : ∃ content, stored = some content ∧
      data = content.take size := by
  unfold readBytes at h
  split at h
  · cases h
  · split_ifs at h
    cases h
    exact ⟨_, rfl, rfl⟩

theorem readBytes_error {size : Nat} {stored : Option (List UInt8)} {ret : McResult}
    (h : readBytes size stored = .error ret) : ret ≠ mcDrvOk := by
  unfold readBytes at h
  split at h
  · cases h
    decide
  · split_ifs at h
    cases h
    decide

/-- What clean-up makes of a container. -/
theorem withContainer_cases {read : Except McResult (List UInt8)} {size : Nat}
    {stored : Option (List UInt8)} {next : List UInt8 → Outcomes McResult Objects}
    (hread : ∀ data, read = .ok data → ∃ content, stored = some content ∧ data = content.take size)
    (herror : ∀ ret, read = .error ret → ret ≠ mcDrvOk) (h : withContainer read size c next r e) :
    (r ≠ mcDrvOk ∧ e = c) ∨ ∃ content, stored = some content ∧
      (content.length < size ∧ e = c ∨ next (content.take size) r e) := by
  unfold withContainer at h
  cases hres : read with
  | error ret =>
    rw [hres] at h
    obtain ⟨rfl, rfl⟩ := h
    exact .inl ⟨herror r hres, rfl⟩
  | ok data =>
    rw [hres] at h
    obtain ⟨content, hstored, rfl⟩ := hread data hres
    refine .inr ⟨content, hstored, ?_⟩
    dsimp only at h
    split_ifs at h with hlen
    · rw [List.length_take] at hlen
      exact .inl ⟨by omega, h.2⟩
    · exact .inr h

theorem spCleaned_cases (h : spCleaned c spid r e) :
    (r ≠ mcDrvOk ∧ e = c) ∨ ∃ content, c (.sp spid) = some content ∧
      (content.length < sizeofSpCont ∧ e = c ∨
        andThen mcDrvOk (each mcDrvOk (trustletCleaned · spid ·) c (spChildren content))
          (fun d => just (remove d (.sp spid)).1 (remove d (.sp spid)).2) r e) := by
  have hread : ReadCall.onMap c (.sp spid sizeofSpCont) =
      if spid = 0 then .error mcDrvErrInvalidParameter
      else readBytes sizeofSpCont (c (.sp spid)) := rfl
  have hok : ∀ data, ReadCall.onMap c (.sp spid sizeofSpCont) = .ok data →
      ∃ content, c (.sp spid) = some content ∧ data = content.take sizeofSpCont := by
    intro data hdata
    rw [hread] at hdata
    split_ifs at hdata
    exact readBytes_ok hdata
  have herror : ∀ ret, ReadCall.onMap c (.sp spid sizeofSpCont) = .error ret → ret ≠ mcDrvOk := by
    intro ret hret
    rw [hread] at hret
    split_ifs at hret
    · cases hret
      decide
    · exact readBytes_error hret
  obtain hstays | ⟨content, hcontent, hnext⟩ := withContainer_cases hok herror h
  · exact .inl hstays
  · rw [spChildren_take] at hnext
    exact .inr ⟨content, hcontent, hnext⟩

theorem rootCleaned_cases (h : rootCleaned c r e) :
    (r ≠ mcDrvOk ∧ e = c) ∨ ∃ content, c .root = some content ∧
      (content.length < sizeofRootCont ∧ e = c ∨
        andThen mcDrvOk (each mcDrvOk spCleaned c (rootChildren content))
          (fun d => just (remove d .root).1 (remove d .root).2) r e) := by
  have hok : ∀ data, ReadCall.onMap c (.root sizeofRootCont) = .ok data →
      ∃ content, c .root = some content ∧ data = content.take sizeofRootCont :=
    fun _ => readBytes_ok
  have herror : ∀ ret, ReadCall.onMap c (.root sizeofRootCont) = .error ret → ret ≠ mcDrvOk :=
    fun _ => readBytes_error
  obtain hstays | ⟨content, hcontent, hnext⟩ := withContainer_cases hok herror h
  · exact .inl hstays
  · rw [rootChildren_take] at hnext
    exact .inr ⟨content, hcontent, hnext⟩

theorem takes_just_remove {o : RegistryObject} (ho : ∀ app, o ≠ .taBin app ∧ o ≠ .taSpid app)
    (h : just (remove d o).1 (remove d o).2 r e) : Takes {o} d e := by
  obtain ⟨-, rfl⟩ := h
  exact .remove d o ho

theorem takes_trustlets {uuids : List Uuid}
    (h : each mcDrvOk (trustletCleaned · spid ·) c uuids r e) :
    Takes {o | ∃ uuid ∈ uuids, o ∈ trustletTree c spid uuid} c e := by
  have hstep : ∀ a uuid r b, trustletCleaned a spid uuid r b →
      Takes (trustletTree a spid uuid) a b := fun _ _ _ _ => takes_trustlet
  have htrees : ∀ a uuid, Takes Set.univ c a →
      trustletTree a spid uuid ⊆ trustletTree c spid uuid :=
    fun _ uuid ha => ha.trustletTree_subset spid uuid
  exact Takes.each hstep htrees h

theorem takes_sp (h : spCleaned c spid r e) : Takes (spTree c spid) c e := by
  rcases spCleaned_cases h with ⟨-, rfl⟩ | ⟨content, hcontent, ⟨-, rfl⟩ | hall⟩
  · exact .refl _ e
  · exact .refl _ e
  · generalize huuids : spChildren content = uuids at hall
    refine andThen_rel (R := Takes (spTree c spid)) (fun _ _ _ => Takes.trans) (fun r d hd => ?_)
      (fun d r e he => ?_) hall
    · refine (takes_trustlets hd).mono fun o ⟨uuid, huuid, ho⟩ => ?_
      exact .inr ⟨content, hcontent, uuid, huuids ▸ huuid, ho⟩
    · exact (takes_just_remove (o := .sp spid) (fun _ => ⟨nofun, nofun⟩) he).mono
        fun o ho => .inl ho

theorem takes_root (h : rootCleaned c r e) : Takes (rootTree c) c e := by
  rcases rootCleaned_cases h with ⟨-, rfl⟩ | ⟨content, hcontent, ⟨-, rfl⟩ | hall⟩
  · exact .refl _ e
  · exact .refl _ e
  · generalize hspids : rootChildren content = spids at hall
    refine andThen_rel (R := Takes (rootTree c)) (fun _ _ _ => Takes.trans) (fun r d hd => ?_)
      (fun d r e he => ?_) hall
    · refine (Takes.each (fun _ _ _ _ => takes_sp)
        (fun _ spid ha => ha.spTree_subset spid) hd).mono fun o ⟨spid, hspid, ho⟩ => ?_
      exact .inr ⟨content, hcontent, spid, hspids ▸ hspid, ho⟩
    · exact (takes_just_remove (o := .root) (fun _ => ⟨nofun, nofun⟩) he).mono fun o ho => .inl ho

/-- **A service provider is taken** when its turn comes, and stays so. -/
theorem SpTaken.of_cleaned {tree tree' : Set RegistryObject} (hbefore : Takes tree c a)
    (h : spCleaned a spid mcDrvOk b) (hafter : Takes tree' b e) : SpTaken c e spid := by
  rcases spCleaned_cases h with ⟨hne, -⟩ | ⟨content, hcontent, hcases⟩
  · exact absurd rfl hne
  refine ⟨content, hbefore.some_of_some hcontent, fun hfull => ?_⟩
  rcases hcases with ⟨hshort, -⟩ | hall
  · exact absurd hshort (Nat.not_lt.mpr hfull)
  generalize spChildren content = uuids at hall ⊢
  obtain ⟨d, hchildren, hlast⟩ := andThen_ok.mp hall
  have hb := (takes_just_remove (o := .sp spid) (fun _ => ⟨nofun, nofun⟩) hlast).mono
    (Set.subset_univ _)
  have hend := hb.trans (hafter.mono (Set.subset_univ _))
  refine ⟨hafter.none_of_none ?_, fun uuid huuid => ?_⟩
  · obtain ⟨-, rfl⟩ := hlast
    exact if_pos rfl
  · obtain ⟨x, y, hx, htrustlet, hy⟩ := each_ok (R := Takes Set.univ) (Takes.refl _)
      (fun _ _ _ => Takes.trans)
      (fun a uuid _ r b (hS : trustletCleaned a spid uuid r b) =>
        (takes_trustlet hS).mono (Set.subset_univ _)) hchildren huuid
    exact .of_cleaned ((hbefore.mono (Set.subset_univ _)).trans hx) htrustlet (hy.trans hend)

/-- **And all service providers with the root.** -/
theorem RootTaken.of_cleaned (h : rootCleaned c mcDrvOk e) : RootTaken c e := by
  rcases rootCleaned_cases h with ⟨hne, -⟩ | ⟨content, hcontent, hcases⟩
  · exact absurd rfl hne
  refine ⟨content, hcontent, fun hfull => ?_⟩
  rcases hcases with ⟨hshort, -⟩ | hall
  · exact absurd hshort (Nat.not_lt.mpr hfull)
  generalize rootChildren content = spids at hall ⊢
  obtain ⟨d, hchildren, hlast⟩ := andThen_ok.mp hall
  have hend := takes_just_remove (o := .root) (fun _ => ⟨nofun, nofun⟩) hlast
  refine ⟨?_, fun spid hspid => ?_⟩
  · obtain ⟨-, rfl⟩ := hlast
    exact if_pos rfl
  · obtain ⟨x, y, hx, hsp, hy⟩ := each_ok (R := Takes Set.univ) (Takes.refl _)
      (fun _ _ _ => Takes.trans)
      (fun _ _ _ _ _ hS => (takes_sp hS).mono (Set.subset_univ _)) hchildren hspid
    exact .of_cleaned hx hsp (hy.trans (hend.mono (Set.subset_univ _)))

end Cleaned

/-! ## What the registry does -/

/-- Clean-up of a trustlet, of a service provider and of the root takes objects of the tree, and on
success all of it. -/
structure CleansTrees (s : Fs) : Prop where
  trustlet : ∀ uuid spid, Takes (trustletTree (contents s) spid uuid) (contents s)
      (contents (mcRegistryCleanupTrustlet s uuid spid).2) ∧
    TrustletTaken (contents s) (contents (mcRegistryCleanupTrustlet s uuid spid).2) spid uuid
  sp : ∀ spid, Takes (spTree (contents s) spid) (contents s)
      (contents (mcRegistryCleanupSp s spid).2) ∧
    ((mcRegistryCleanupSp s spid).1 = mcDrvOk →
      SpTaken (contents s) (contents (mcRegistryCleanupSp s spid).2) spid)
  root : Takes (rootTree (contents s)) (contents s) (contents (mcRegistryCleanupRoot s).2) ∧
    ((mcRegistryCleanupRoot s).1 = mcDrvOk →
      RootTaken (contents s) (contents (mcRegistryCleanupRoot s).2))

theorem WellKept.cleansTrees {s : Fs} (hs : WellKept s) : CleansTrees s where
  trustlet := by
    intro uuid spid
    have hcleaned := (meets_cleanupTrustlet spid s uuid hs).2
    exact ⟨takes_trustlet hcleaned, .of_cleaned (.refl ∅ _) hcleaned (.refl ∅ _)⟩
  sp := by
    intro spid
    have hcleaned := (meets_cleanupSp s spid hs).2
    refine ⟨takes_sp hcleaned, fun hok => ?_⟩
    rw [hok] at hcleaned
    exact .of_cleaned (.refl ∅ _) hcleaned (.refl ∅ _)
  root := by
    have hcleaned := (meets_cleanupRoot hs).2
    refine ⟨takes_root hcleaned, fun hok => ?_⟩
    rw [hok] at hcleaned
    exact .of_cleaned hcleaned

/-- **Clean-up takes the tree, and nothing else**, in every registry that a run leads to. -/
theorem cleanup_takes_trees {s : Fs} {authTokenPath : Option (List String)} (hs : WellKept s)
    (htoken : TokenInRegistry authTokenPath s) (calls : List RegistryCall) :
    CleansTrees (serveAll (RegistryCall.serve authTokenPath) s calls).2 :=
  WellKept.cleansTrees ((meets_onMap authTokenPath).inv ⟨hs, htoken⟩ calls).1

theorem cleanup_takes_trees_registration :
    CleansTrees (serveAll (RegistryCall.serve none) freshRegistry
      [.store (.root oneSpRoot), .store (.sp 1 oneTlSp), .store (.tlCont zeroUuid 1 [0])]).2 :=
  cleanup_takes_trees wellKept_freshRegistry (tokenInRegistry_unset _) _

end McDaemon.Registry
