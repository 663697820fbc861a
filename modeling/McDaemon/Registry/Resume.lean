/-
# McDaemon.Registry.Resume — running clean-up again after a removal has failed.

A container is removed after everything below it, so an interrupted clean-up leaves a parent that
lists children which are gone, and the next run takes a missing child for a failure.  Only the
removals that come before the first container goes can fail without harm: then nothing that the
second run needs is missing.
-/
import McDaemon.Registry.Reach

namespace McDaemon.Registry

open McDaemon.Lib
open McDaemon.Lib.FileSystem

/-! ## When the end of a clean-up comes off -/

/-- What the clean-up of a trustlet and the end of a service provider's have in common: clear the
data directory, do something beside the containers, and remove the container. -/
def clearAndRemove (s : Fs) (d : List String) (between : Fs → Fs) (q : List String) :
    McResult × Fs :=
  onOk (clearData s d) fun s => removeCont (between s) q

section ClearAndRemove

variable {s : Fs} {name : String} {between : Fs → Fs} {q : List String}

/-- It comes off exactly if the data can be cleared, the container is there, and the failure strikes
neither. -/
theorem clearAndRemove_fst (hname : IsDataName name)
    (hbetween : ∀ t, OnlyRemoved s t → Tidies (fun _ => False) t (between t)) (hq : IsCont q)
    (hdir : s.get? q ≠ some .dir) :
    (clearAndRemove s (inRegistry name) between q).1 = mcDrvOk ↔
      (Clearable isHidden s (inRegistry name) ∧ ¬ Hit s (inRegistry name)) ∧
      s.fault ≠ some q ∧ (s.get? q).isSome := by
  have hclear : Tidies (fun _ => False) s (clearData s (inRegistry name)).2 :=
    clearData_tidies s hname
  have htidies := hclear.trans (hbetween _ hclear.onlyRemoved)
  have hget := htidies.get?_cont hq not_false
  have hfault := htidies.fault_cont hq not_false
  rw [clearAndRemove, onOk_fst, clearData_fst, clearDir_fst, removeCont_fst,
    remove_fst_of_not_dir (by rwa [hget]), hget, Ne, hfault]

/-- If it does not come off, all containers are left. -/
theorem clearAndRemove_kept (hname : IsDataName name)
    (hbetween : ∀ t, OnlyRemoved s t → Tidies (fun _ => False) t (between t))
    (h : (clearAndRemove s (inRegistry name) between q).1 ≠ mcDrvOk) {p : List String}
    (hp : IsCont p) : (clearAndRemove s (inRegistry name) between q).2.get? p = s.get? p := by
  have hclear : Tidies (fun _ => False) s (clearData s (inRegistry name)).2 :=
    clearData_tidies s hname
  unfold clearAndRemove onOk at h ⊢
  split_ifs at h ⊢
  · rw [Ne, removeCont_fst] at h
    rw [← (hclear.trans (hbetween _ hclear.onlyRemoved)).get?_cont hp not_false]
    exact removeIf_of_not h _
  · exact hclear.get?_cont hp not_false

/-- If it comes off, the container is gone. -/
theorem clearAndRemove_gone {d : List String} (h : (clearAndRemove s d between q).1 = mcDrvOk) :
    (clearAndRemove s d between q).2.get? q = none := by
  obtain ⟨hclear, hcont⟩ := onOk_fst.mp h
  rw [clearAndRemove, onOk_snd hclear]
  exact removeCont_gone hcont

end ClearAndRemove

theorem cleanupTrustlet_eq (s : Fs) (uuid : Uuid) (spid : Spid) :
    mcRegistryCleanupTrustlet s uuid spid = clearAndRemove s (getTlDataPath uuid)
      (fun s => removeBinary s uuid spid) (getTlContFilePath uuid spid) := rfl

/-- Removing the binary is beside the containers. -/
theorem removeBinary_between {s : Fs} (hs : Contained s) (uuid : Uuid) (spid : Spid) (t : Fs)
    (hst : OnlyRemoved s t) : Tidies (fun _ => False) t (removeBinary t uuid spid) :=
  removeBinary_tidies (hs.of_onlyRemoved hst) uuid spid

theorem cleanupTrustlet_fst {s : Fs} (hs : Contained s) {uuid : Uuid} {spid : Spid}
    (hdir : s.get? (getTlContFilePath uuid spid) ≠ some .dir) :
    (mcRegistryCleanupTrustlet s uuid spid).1 = mcDrvOk ↔
      (Clearable isHidden s (getTlDataPath uuid) ∧ ¬ Hit s (getTlDataPath uuid)) ∧
      s.fault ≠ some (getTlContFilePath uuid spid) ∧
      (s.get? (getTlContFilePath uuid spid)).isSome := by
  rw [cleanupTrustlet_eq]
  exact clearAndRemove_fst (isDataName_byteArrayToString _) (removeBinary_between hs uuid spid)
    (isCont_tl uuid spid) hdir

theorem spEnd_fst {s : Fs} {spid : Spid} (hdir : s.get? (getSpContFilePath spid) ≠ some .dir) :
    (clearAndRemove s (getSpDataPath spid) id (getSpContFilePath spid)).1 = mcDrvOk ↔
      (Clearable isHidden s (getSpDataPath spid) ∧ ¬ Hit s (getSpDataPath spid)) ∧
      s.fault ≠ some (getSpContFilePath spid) ∧ (s.get? (getSpContFilePath spid)).isSome :=
  clearAndRemove_fst (isDataName_uint32ToString spid) (fun u _ => Tidies.refl _ (id u))
    (isCont_sp spid) hdir

/-! ## Runs without a failure -/

/-- A trustlet that can be cleaned up. -/
structure TlReady (s : Fs) (spid : Spid) (uuid : Uuid) : Prop where
  data : Clearable isHidden s (getTlDataPath uuid)
  cont : (s.get? (getTlContFilePath uuid spid)).isSome

/-- The trustlets go when each can be cleaned up and none is listed twice. -/
theorem cleanupTrustlets_fst {s : Fs} {spid : Spid} {uuids : List Uuid} (hs : Contained s)
    (hfault : s.fault = none)
    (hflat : ∀ uuid ∈ uuids, s.get? (getTlContFilePath uuid spid) ≠ some .dir) :
    (cleanupTrustlets s spid uuids).1 = mcDrvOk ↔
      uuids.Nodup ∧ ∀ uuid ∈ uuids, TlReady s spid uuid := by
  let Inv (t : Fs) : Prop := Contained t ∧ t.fault = none ∧
    ∀ uuid ∈ uuids, t.get? (getTlContFilePath uuid spid) ≠ some .dir
  have hready : ∀ t, Inv t → ∀ uuid ∈ uuids,
      ((mcRegistryCleanupTrustlet t uuid spid).1 = mcDrvOk ↔ TlReady t spid uuid) := by
    rintro t ⟨ht, hnone, hdir⟩ uuid huuid
    rw [cleanupTrustlet_fst ht (hdir uuid huuid)]
    have hmiss : t.fault ≠ some (getTlContFilePath uuid spid) := by
      rw [hnone]
      exact (Option.some_ne_none _).symm
    constructor
    · rintro ⟨⟨hdata, -⟩, -, hcont⟩
      exact ⟨hdata, hcont⟩
    · rintro ⟨hdata, hcont⟩
      exact ⟨⟨hdata, not_hit hnone⟩, hmiss, hcont⟩
  refine whileOk_fst (I := Inv) hready ?_ ?_ ⟨hs, hfault, hflat⟩
  · rintro t ⟨ht, hnone, hdir⟩ uuid _
    have htidies := cleanupTrustlet_tidies ht uuid spid
    refine ⟨htidies.contained ht, htidies.shrinks.fault_of_none hnone, fun v hv hvdir => ?_⟩
    exact hdir v hv (htidies.shrinks.get?_of_some hvdir)
  · -- a trustlet's own container goes, and nothing that another one needs
    intro t ht uuid huuid hok other _
    have htidies := cleanupTrustlet_tidies ht.1 uuid spid
    have hgone := cleanupTrustlet_gone ((hready t ht uuid huuid).mpr hok)
    have hdata := htidies.steady _ (isDataName_byteArrayToString other.toList)
    constructor
    · rintro ⟨hclear, hcont⟩
      have hne : other ≠ uuid := by
        rintro rfl
        rw [hgone] at hcont
        cases hcont
      refine ⟨hne, hdata.mp hclear, ?_⟩
      rwa [htidies.get?_cont (isCont_tl other spid) fun heq =>
        hne (getTlContFilePath_inj heq).1] at hcont
    · rintro ⟨hne, hclear, hcont⟩
      refine ⟨hdata.mpr hclear, ?_⟩
      rwa [htidies.get?_cont (isCont_tl other spid) fun heq =>
        hne (getTlContFilePath_inj heq).1]

/-- A service provider that can be cleaned up. -/
structure SpReady (s : Fs) (spid : Spid) (content : List UInt8) : Prop where
  spid_ne : spid ≠ 0
  cont : s.get? (getSpContFilePath spid) = some (.file content)
  full : sizeofSpCont ≤ content.length
  nodup : (spChildren content).Nodup
  children : ∀ uuid ∈ spChildren content, TlReady s spid uuid
  data : Clearable isHidden s (getSpDataPath spid)

/-- The containers of the trustlets that a service provider lists are no directories. -/
def Flat (s : Fs) (spid : Spid) : Prop :=
  ∀ content, s.get? (getSpContFilePath spid) = some (.file content) →
    ∀ uuid ∈ spChildren content, s.get? (getTlContFilePath uuid spid) ≠ some .dir

theorem Flat.of_onlyRemoved {s t : Fs} {spid : Spid} (hs : Flat s spid) (hst : OnlyRemoved s t) :
    Flat t spid := fun content hcontent uuid huuid hdir =>
  hs content (hst.get?_of_some hcontent) uuid huuid (hst.get?_of_some hdir)

/-- A full container is read as far as its structure goes. -/
theorem readSp_full {s : Fs} {spid : Spid} {content : List UInt8} (hspid : spid ≠ 0)
    (hcont : s.get? (getSpContFilePath spid) = some (.file content))
    (hfull : sizeofSpCont ≤ content.length) :
    mcRegistryReadSp s spid sizeofSpCont = .ok (content.take sizeofSpCont) ∧
      (content.take sizeofSpCont).length = sizeofSpCont := by
  have hlen : (content.take sizeofSpCont).length = sizeofSpCont := by
    rw [List.length_take, Nat.min_eq_left hfull]
  refine ⟨mcRegistryReadSp_eq_ok.mpr ⟨hspid, readFile_eq_ok.mpr ⟨content, hcont, rfl, ?_⟩⟩, hlen⟩
  intro hnil
  rw [hnil] at hlen
  exact absurd hlen (by decide)

/-- What the clean-up of a full service provider's container does. -/
theorem cleanupSp_full {s : Fs} {spid : Spid} {content : List UInt8} (hspid : spid ≠ 0)
    (hcont : s.get? (getSpContFilePath spid) = some (.file content))
    (hfull : sizeofSpCont ≤ content.length) :
    mcRegistryCleanupSp s spid =
      onOk (cleanupTrustlets s spid (spChildren content)) fun s =>
        clearAndRemove s (getSpDataPath spid) id (getSpContFilePath spid) := by
  obtain ⟨hread, hlen⟩ := readSp_full hspid hcont hfull
  rw [mcRegistryCleanupSp, hread]
  dsimp only
  rw [if_neg (not_not.mpr hlen), spChildren_take]
  rfl

theorem cleanupSp_full_fst {s : Fs} {spid : Spid} {content : List UInt8} (hs : Contained s)
    (hfault : s.fault = none) (hflat : Flat s spid) (hspid : spid ≠ 0)
    (hcont : s.get? (getSpContFilePath spid) = some (.file content))
    (hfull : sizeofSpCont ≤ content.length) :
    (mcRegistryCleanupSp s spid).1 = mcDrvOk ↔ SpReady s spid content := by
  have htrustlets := cleanupTrustlets_tidies hs spid (spChildren content)
  obtain ⟨t, ht⟩ : ∃ t, t = (cleanupTrustlets s spid (spChildren content)).2 := ⟨_, rfl⟩
  rw [← ht] at htrustlets
  have hnone : t.fault = none := htrustlets.shrinks.fault_of_none hfault
  have hget : t.get? (getSpContFilePath spid) = some (.file content) := by
    rw [htrustlets.get?_cont (isCont_sp spid) fun ⟨uuid, heq⟩ =>
      getSpContFilePath_ne_getTlContFilePath heq, hcont]
  have hend : (clearAndRemove t (getSpDataPath spid) id (getSpContFilePath spid)).1 = mcDrvOk ↔
      Clearable isHidden s (getSpDataPath spid) := by
    have hsteady := htrustlets.steady _ (isDataName_uint32ToString spid)
    rw [spEnd_fst (by simp [hget]), getSpDataPath, hsteady]
    constructor
    · rintro ⟨⟨hclearable, -⟩, -⟩
      exact hclearable
    · intro hclearable
      refine ⟨⟨hclearable, not_hit hnone⟩, ?_, by simp [hget]⟩
      rw [hnone]
      exact (Option.some_ne_none _).symm
  rw [cleanupSp_full hspid hcont hfull, onOk_fst, cleanupTrustlets_fst hs hfault
    (hflat content hcont), ← ht, hend]
  constructor
  · rintro ⟨⟨hnodup, hchildren⟩, hclearable⟩
    exact ⟨hspid, hcont, hfull, hnodup, hchildren, hclearable⟩
  · intro hready
    exact ⟨⟨hready.nodup, hready.children⟩, hready.data⟩

/-- **A service provider's clean-up comes off** exactly if it can be cleaned up, its container being
no stub. -/
theorem cleanupSp_fst {s : Fs} {spid : Spid} (hs : Contained s) (hfault : s.fault = none)
    (hflat : Flat s spid) (hstub : ¬ Stub s (getSpContFilePath spid) sizeofSpCont) :
    (mcRegistryCleanupSp s spid).1 = mcDrvOk ↔ ∃ content, SpReady s spid content := by
  constructor
  · intro hok
    cases hread : mcRegistryReadSp s spid sizeofSpCont with
    | error ret =>
      rw [mcRegistryCleanupSp, hread] at hok
      exact absurd hok (mcRegistryReadSp_error hread)
    | ok data =>
      obtain ⟨hspid, hfile⟩ := mcRegistryReadSp_eq_ok.mp hread
      have hlen := length_of_not_stub hstub hfile
      obtain ⟨content, hcontent, rfl, -⟩ := readFile_eq_ok.mp hfile
      rw [List.length_take] at hlen
      have hfull : sizeofSpCont ≤ content.length := by omega
      exact ⟨content, (cleanupSp_full_fst hs hfault hflat hspid hcontent hfull).mp hok⟩
  · rintro ⟨content, hready⟩
    exact (cleanupSp_full_fst hs hfault hflat hready.spid_ne hready.cont hready.full).mpr hready

/-- Readiness is about the containers and the data directories only. -/
theorem SpReady.of_same {s t : Fs} {spid : Spid} {content : List UInt8}
    (h : SpReady s spid content) (hget : ∀ q, SpOwn spid q → t.get? q = s.get? q)
    (hsteady : ∀ name, IsDataName name →
      (Clearable isHidden t (inRegistry name) ↔ Clearable isHidden s (inRegistry name))) :
    SpReady t spid content where
  spid_ne := h.spid_ne
  cont := (hget _ (.inl rfl)).trans h.cont
  full := h.full
  nodup := h.nodup
  children := fun uuid huuid => by
    obtain ⟨hdata, hcont⟩ := h.children uuid huuid
    refine ⟨(hsteady _ (isDataName_byteArrayToString _)).mpr hdata, ?_⟩
    rwa [hget _ (.inr ⟨uuid, rfl⟩)]
  data := (hsteady _ (isDataName_uint32ToString _)).mpr h.data

/-- What can be cleaned up at the end could be cleaned up before. -/
theorem SpReady.before {own : List String → Prop} {s t : Fs} {spid : Spid} {content : List UInt8}
    (h : SpReady t spid content) (hst : Tidies own s t) : SpReady s spid content where
  spid_ne := h.spid_ne
  cont := hst.shrinks.get?_of_some h.cont
  full := h.full
  nodup := h.nodup
  children := fun uuid huuid => by
    obtain ⟨hdata, hcont⟩ := h.children uuid huuid
    refine ⟨(hst.steady _ (isDataName_byteArrayToString _)).mp hdata, ?_⟩
    obtain ⟨n, hn⟩ := Option.isSome_iff_exists.mp hcont
    rw [hst.shrinks.get?_of_some hn]
    rfl
  data := (hst.steady _ (isDataName_uint32ToString _)).mp h.data

theorem SpReady.not_stub {s : Fs} {spid : Spid} {content : List UInt8}
    (h : SpReady s spid content) : ¬ Stub s (getSpContFilePath spid) sizeofSpCont := by
  rintro ⟨stub, hstub, -, hlt⟩
  rw [h.cont] at hstub
  cases hstub
  exact absurd h.full (Nat.not_le.mpr hlt)

/-- The containers of different service providers are different. -/
theorem spOwn_unique {v w : Spid} {q : List String} (hv : SpOwn v q) (hw : SpOwn w q) : v = w := by
  rcases hv with rfl | ⟨a, rfl⟩
  · rcases hw with hw | ⟨b, hw⟩
    · exact getSpContFilePath_inj hw
    · exact absurd hw getSpContFilePath_ne_getTlContFilePath
  · rcases hw with hw | ⟨b, hw⟩
    · exact absurd hw.symm getSpContFilePath_ne_getTlContFilePath
    · exact (getTlContFilePath_inj hw).2

theorem spOwn_isCont {spid : Spid} {q : List String} (h : SpOwn spid q) : IsCont q := by
  rcases h with rfl | ⟨uuid, rfl⟩
  · exact isCont_sp spid
  · exact isCont_tl uuid spid

/-- The service providers go when each can be cleaned up and none is listed twice. -/
theorem cleanupSps_fst {s : Fs} {spids : List Spid} (hs : Contained s) (hfault : s.fault = none)
    (hflat : ∀ spid ∈ spids, Flat s spid)
    (hstub : ∀ spid ∈ spids, ¬ Stub s (getSpContFilePath spid) sizeofSpCont) :
    (whileOk mcDrvOk mcRegistryCleanupSp s spids).1 = mcDrvOk ↔
      spids.Nodup ∧ ∀ spid ∈ spids, ∃ content, SpReady s spid content := by
  let Inv (t : Fs) : Prop := Contained t ∧ t.fault = none ∧ ∀ spid ∈ spids, Flat t spid ∧
    ¬ Stub t (getSpContFilePath spid) sizeofSpCont
  have hinit : Inv s := ⟨hs, hfault, fun spid hspid => ⟨hflat spid hspid, hstub spid hspid⟩⟩
  refine whileOk_fst (I := Inv) (P := fun t spid => ∃ content, SpReady t spid content) ?_ ?_ ?_
    hinit
  · rintro t ⟨ht, hnone, hall⟩ spid hspid
    exact cleanupSp_fst ht hnone (hall spid hspid).1 (hall spid hspid).2
  · rintro t ⟨ht, hnone, hall⟩ spid _
    have htidies := cleanupSp_tidies ht spid
    refine ⟨htidies.contained ht, htidies.shrinks.fault_of_none hnone, fun v hv => ?_⟩
    obtain ⟨hvflat, hvstub⟩ := hall v hv
    exact ⟨hvflat.of_onlyRemoved htidies.onlyRemoved, fun hstub =>
      hvstub (hstub.of_onlyRemoved htidies.onlyRemoved)⟩
  · rintro t ⟨ht, hnone, hall⟩ spid hspid hready other _
    have htidies := cleanupSp_tidies ht spid
    obtain ⟨hspflat, hspstub⟩ := hall spid hspid
    have hok := (cleanupSp_fst ht hnone hspflat hspstub).mpr hready
    have hgone := (spReports_of_not_stub hspstub hok).1
    have hget : other ≠ spid → ∀ q, SpOwn other q →
        (mcRegistryCleanupSp t spid).2.get? q = t.get? q := fun hne q hq =>
      htidies.get?_cont (spOwn_isCont hq) fun hq' => hne (spOwn_unique hq hq')
    constructor
    · rintro ⟨content, hother⟩
      have hne : other ≠ spid := by
        rintro rfl
        rw [hother.cont] at hgone
        cases hgone
      exact ⟨hne, content, hother.before htidies⟩
    · rintro ⟨hne, content, hother⟩
      exact ⟨content, hother.of_same (hget hne) htidies.steady⟩

/-- A registry that can be cleaned up as a whole. -/
structure RootReady (s : Fs) (content : List UInt8) : Prop where
  cont : s.get? getRootContFilePath = some (.file content)
  full : sizeofRootCont ≤ content.length
  nodup : (rootChildren content).Nodup
  children : ∀ spid ∈ rootChildren content, ∃ spContent, SpReady s spid spContent

theorem cleanupRoot_full {s : Fs} {content : List UInt8}
    (hcont : s.get? getRootContFilePath = some (.file content))
    (hfull : sizeofRootCont ≤ content.length) :
    mcRegistryCleanupRoot s =
      onOk (whileOk mcDrvOk mcRegistryCleanupSp s (rootChildren content)) fun s =>
        removeCont s getRootContFilePath := by
  have hlen : (content.take sizeofRootCont).length = sizeofRootCont := by
    rw [List.length_take, Nat.min_eq_left hfull]
  have hread : mcRegistryReadRoot s sizeofRootCont = .ok (content.take sizeofRootCont) := by
    refine readFile_eq_ok.mpr ⟨content, hcont, rfl, fun hnil => ?_⟩
    rw [hnil] at hlen
    exact absurd hlen (by decide)
  rw [mcRegistryCleanupRoot, hread]
  dsimp only
  rw [if_neg (not_not.mpr hlen), rootChildren_take]

/-- A container of some service provider. -/
def AnySpOwn (q : List String) : Prop := ∃ spid, SpOwn spid q

theorem root_not_anySpOwn : ¬ AnySpOwn getRootContFilePath := by
  rintro ⟨spid, hsp | ⟨uuid, htl⟩⟩
  · exact getRootContFilePath_ne_getSpContFilePath hsp
  · exact getRootContFilePath_ne_getTlContFilePath htl

theorem cleanupSps_tidies {s : Fs} (hs : Contained s) (spids : List Spid) :
    Tidies AnySpOwn s (whileOk mcDrvOk mcRegistryCleanupSp s spids).2 := by
  have hrel : Contained s →
      Tidies AnySpOwn s (whileOk mcDrvOk mcRegistryCleanupSp s spids).2 := by
    refine whileOk_rel (R := fun s t => Contained s → Tidies AnySpOwn s t)
      (fun t _ => .refl _ t) (fun t u v htu huv ht => ?_) (fun t spid _ ht => ?_) s
    · exact (htu ht).trans (huv ((htu ht).contained ht))
    · exact (cleanupSp_tidies ht spid).mono fun q hq => ⟨spid, hq⟩
  exact hrel hs

/-- A stub stays until the end. -/
theorem cleanupSps_stub {s : Fs} {spids : List Spid} {spid : Spid} (hs : Contained s)
    (hstub : Stub s (getSpContFilePath spid) sizeofSpCont) :
    (whileOk mcDrvOk mcRegistryCleanupSp s spids).2.get? (getSpContFilePath spid) ≠ none := by
  let R (t u : Fs) : Prop := Contained t ∧ Stub t (getSpContFilePath spid) sizeofSpCont →
    Contained u ∧ Stub u (getSpContFilePath spid) sizeofSpCont
  have hrel : R s (whileOk mcDrvOk mcRegistryCleanupSp s spids).2 := by
    refine whileOk_rel (R := R) (fun t ht => ht) (fun t u v htu huv ht => huv (htu ht)) ?_ s
    rintro t v _ ⟨ht, htstub⟩
    have htidies := cleanupSp_tidies ht v
    refine ⟨htidies.contained ht, ?_⟩
    by_cases hv : spid = v
    · -- its own turn: the stub is passed over, also under spid 0
      subst hv
      by_cases hzero : spid = 0
      · rw [hzero, cleanupSp_zero]
        rwa [hzero] at htstub
      · rwa [cleanupSp_of_stub hzero htstub]
    · obtain ⟨content, hcontent, hlen⟩ := htstub
      refine ⟨content, ?_, hlen⟩
      rwa [htidies.get?_cont (isCont_sp spid) fun hown => hv (spOwn_unique (.inl rfl) hown)]
  exact (hrel ⟨hs, hstub⟩).2.present

/-- **The whole clean-up** reports success and leaves nothing behind exactly if the registry can be
cleaned up. -/
theorem cleanupRoot_iff {s : Fs} (hs : Contained s) (hfault : s.fault = none)
    (hflat : ∀ content, s.get? getRootContFilePath = some (.file content) →
      ∀ spid ∈ rootChildren content, Flat s spid) :
    ((mcRegistryCleanupRoot s).1 = mcDrvOk ∧ RootGone s (mcRegistryCleanupRoot s).2) ↔
      ∃ content, RootReady s content := by
  constructor
  · rintro ⟨hok, hgone⟩
    have hstub : ¬ Stub s getRootContFilePath sizeofRootCont := by
      intro hstub
      rw [cleanupRoot_of_stub hstub] at hgone
      exact hstub.present hgone.1
    cases hread : mcRegistryReadRoot s sizeofRootCont with
    | error ret =>
      rw [mcRegistryCleanupRoot, hread] at hok
      exact absurd hok (readFile_error hread)
    | ok data =>
      have hlen := length_of_not_stub hstub hread
      obtain ⟨content, hcontent, rfl, -⟩ := readFile_eq_ok.mp hread
      rw [List.length_take] at hlen
      have hfull : sizeofRootCont ≤ content.length := by omega
      rw [cleanupRoot_full hcontent hfull] at hok hgone
      obtain ⟨hsps, -⟩ := onOk_fst.mp hok
      rw [onOk_snd hsps] at hgone
      have hspStub : ∀ spid ∈ rootChildren content,
          ¬ Stub s (getSpContFilePath spid) sizeofSpCont := by
        intro spid hspid hspStub
        have hlast : Tidies (fun q => q = getRootContFilePath) _
            (removeCont (whileOk mcDrvOk mcRegistryCleanupSp s (rootChildren content)).2
              getRootContFilePath).2 := removeCont_tidies _ isCont_root rfl
        have hleft := (hgone.2 content hcontent spid hspid).1
        rw [hlast.get?_cont (isCont_sp spid) getRootContFilePath_ne_getSpContFilePath.symm] at hleft
        exact cleanupSps_stub hs hspStub hleft
      obtain ⟨hnodup, hready⟩ :=
        (cleanupSps_fst hs hfault (hflat content hcontent) hspStub).mp hsps
      exact ⟨content, hcontent, hfull, hnodup, hready⟩
  · rintro ⟨content, hready⟩
    have hspStub : ∀ spid ∈ rootChildren content,
        ¬ Stub s (getSpContFilePath spid) sizeofSpCont := by
      intro spid hspid
      obtain ⟨spContent, hsp⟩ := hready.children spid hspid
      exact hsp.not_stub
    have hsps := (cleanupSps_fst hs hfault (hflat content hready.cont) hspStub).mpr
      ⟨hready.nodup, hready.children⟩
    have htidies := cleanupSps_tidies hs (rootChildren content)
    have hok : (mcRegistryCleanupRoot s).1 = mcDrvOk := by
      rw [cleanupRoot_full hready.cont hready.full, onOk_fst]
      have hget := htidies.get?_cont isCont_root root_not_anySpOwn
      refine ⟨hsps, ?_⟩
      rw [removeCont_fst, remove_fst_of_not_dir (by simp [hget, hready.cont]), hget, hready.cont,
        htidies.shrinks.fault_of_none hfault]
      exact ⟨(Option.some_ne_none _).symm, rfl⟩
    refine ⟨hok, rootReports_of_not_stub ?_ ?_ hok⟩
    · rintro ⟨stub, hstub, -, hlt⟩
      rw [hready.cont] at hstub
      cases hstub
      exact absurd hready.full (Nat.not_le.mpr hlt)
    · intro content' hcontent' spid hspid _
      rw [hready.cont] at hcontent'
      cases hcontent'
      exact hspStub spid hspid

/-! ## The first run -/

/-- The first removals of a service provider's clean-up: the data of its first trustlet and that
trustlet's container, or its own data and container if it has no trustlets. -/
def FirstSp (s : Fs) (spid : Spid) (content : List UInt8) (p : List String) : Prop :=
  (∃ uuid, (spChildren content).head? = some uuid ∧
    (Hit (s.failing p) (getTlDataPath uuid) ∨ p = getTlContFilePath uuid spid)) ∨
  (spChildren content = [] ∧
    (Hit (s.failing p) (getSpDataPath spid) ∨ p = getSpContFilePath spid))

/-- With a trustlet to begin with, the rest only matters if its clean-up comes off. -/
theorem cleanupSp_cons {s : Fs} {spid : Spid} {content : List UInt8} {uuid : Uuid}
    (hspid : spid ≠ 0) (hcont : s.get? (getSpContFilePath spid) = some (.file content))
    (hfull : sizeofSpCont ≤ content.length) (hhead : (spChildren content).head? = some uuid) :
    OnlyRemoved (mcRegistryCleanupTrustlet s uuid spid).2 (mcRegistryCleanupSp s spid).2 ∧
    ((mcRegistryCleanupTrustlet s uuid spid).1 ≠ mcDrvOk →
      mcRegistryCleanupSp s spid = mcRegistryCleanupTrustlet s uuid spid) := by
  obtain ⟨rest, hchildren⟩ := List.head?_eq_some_iff.mp hhead
  rw [cleanupSp_full hspid hcont hfull, hchildren, cleanupTrustlets, whileOk]
  split_ifs with hok
  · refine ⟨onOk_shrinks (cleanupTrustlets_onlyRemoved _ spid rest) ?_, fun h => absurd hok h⟩
    exact onOk_shrinks (clearData_onlyRemoved _ _) (removeCont_onlyRemoved _ _)
  · refine ⟨?_, fun _ => if_neg hok⟩
    rw [onOk, if_neg hok]
    exact .refl _ _

/-- Without trustlets only the end is left. -/
theorem cleanupSp_nil {s : Fs} {spid : Spid} {content : List UInt8} (hspid : spid ≠ 0)
    (hcont : s.get? (getSpContFilePath spid) = some (.file content))
    (hfull : sizeofSpCont ≤ content.length) (hnil : spChildren content = []) :
    mcRegistryCleanupSp s spid =
      clearAndRemove s (getSpDataPath spid) id (getSpContFilePath spid) := by
  rw [cleanupSp_full hspid hcont hfull, hnil]
  rfl

/-- A failure of one of these removals ends the clean-up with every container in its place. -/
theorem cleanupSp_first {s : Fs} {spid : Spid} {content : List UInt8} {p : List String}
    (hs : Contained s) (hflat : Flat s spid) (hready : SpReady s spid content)
    (hfirst : FirstSp s spid content p) :
    (mcRegistryCleanupSp (s.failing p) spid).1 ≠ mcDrvOk ∧
      ∀ q, IsCont q → (mcRegistryCleanupSp (s.failing p) spid).2.get? q = s.get? q := by
  have hfailing : Contained (s.failing p) := hs
  have hcont : (s.failing p).get? (getSpContFilePath spid) = some (.file content) := hready.cont
  rcases hfirst with ⟨uuid, hhead, hstrike⟩ | ⟨hnil, hstrike⟩
  · have hdir := hflat content hready.cont uuid (List.mem_of_head? hhead)
    have hfail : (mcRegistryCleanupTrustlet (s.failing p) uuid spid).1 ≠ mcDrvOk := by
      rw [Ne, cleanupTrustlet_fst hfailing hdir]
      rintro ⟨⟨-, hmiss⟩, hfault, -⟩
      rcases hstrike with hhit | rfl
      · exact hmiss hhit
      · exact hfault rfl
    have hstop := (cleanupSp_cons hready.spid_ne hcont hready.full hhead).2 hfail
    rw [hstop]
    exact ⟨hfail, fun q hq => clearAndRemove_kept (isDataName_byteArrayToString _)
      (removeBinary_between hfailing uuid spid) hfail hq⟩
  · rw [cleanupSp_nil hready.spid_ne hcont hready.full hnil]
    have hfail : (clearAndRemove (s.failing p) (getSpDataPath spid) id
        (getSpContFilePath spid)).1 ≠ mcDrvOk := by
      rw [Ne, spEnd_fst (by simp [hcont])]
      rintro ⟨⟨-, hmiss⟩, hfault, -⟩
      rcases hstrike with hhit | rfl
      · exact hmiss hhit
      · exact hfault rfl
    exact ⟨hfail, fun q hq => clearAndRemove_kept (isDataName_uint32ToString spid)
      (fun u _ => Tidies.refl _ (id u)) hfail hq⟩

/-- A failure of any other removal comes when a container that is needed again is gone. -/
theorem cleanupSp_not_first {s : Fs} {spid : Spid} {content : List UInt8} {p : List String}
    (hs : Contained s) (hflat : Flat s spid) (hready : SpReady s spid content)
    (hfirst : ¬ FirstSp s spid content p) :
    ¬ SpReady (mcRegistryCleanupSp (s.failing p) spid).2 spid content := by
  have hfailing : Contained (s.failing p) := hs
  have hcont : (s.failing p).get? (getSpContFilePath spid) = some (.file content) := hready.cont
  intro hafter
  cases hhead : (spChildren content).head? with
  | none =>
    have hnil := List.head?_eq_none_iff.mp hhead
    rw [cleanupSp_nil hready.spid_ne hcont hready.full hnil] at hafter
    have hok : (clearAndRemove (s.failing p) (getSpDataPath spid) id
        (getSpContFilePath spid)).1 = mcDrvOk := by
      rw [spEnd_fst (by simp [hcont])]
      refine ⟨⟨clearable_failing.mpr hready.data,
        fun hhit => hfirst (.inr ⟨hnil, .inl hhit⟩)⟩, fun hp => ?_, by simp [hcont]⟩
      exact hfirst (.inr ⟨hnil, .inr (Option.some.inj hp)⟩)
    have hgone := clearAndRemove_gone hok
    rw [hafter.cont] at hgone
    cases hgone
  | some uuid =>
    have huuid := List.mem_of_head? hhead
    have hdir := hflat content hready.cont uuid huuid
    obtain ⟨hdata, hpresent⟩ := hready.children uuid huuid
    have hok : (mcRegistryCleanupTrustlet (s.failing p) uuid spid).1 = mcDrvOk := by
      rw [cleanupTrustlet_fst hfailing hdir]
      refine ⟨⟨clearable_failing.mpr hdata,
        fun hhit => hfirst (.inl ⟨uuid, hhead, .inl hhit⟩)⟩, fun hp => ?_, hpresent⟩
      exact hfirst (.inl ⟨uuid, hhead, .inr (Option.some.inj hp)⟩)
    have hrest := (cleanupSp_cons hready.spid_ne hcont hready.full hhead).1
    have hgone := hrest.get?_of_none (cleanupTrustlet_gone hok)
    have hneeded := (hafter.children uuid huuid).cont
    rw [hgone] at hneeded
    cases hneeded

/-! ## The second run -/

/-- Each trustlet that the service provider lists has its container file. -/
def SpComplete (s : Fs) (spid : Spid) : Prop :=
  ∀ content, s.get? (getSpContFilePath spid) = some (.file content) →
    ∀ uuid ∈ spChildren content,
      ∃ tlContent, s.get? (getTlContFilePath uuid spid) = some (.file tlContent)

/-- Each service provider that is listed has its container file, and is complete itself. -/
def RootComplete (s : Fs) : Prop :=
  ∀ content, s.get? getRootContFilePath = some (.file content) →
    ∀ spid ∈ rootChildren content,
      (∃ spContent, s.get? (getSpContFilePath spid) = some (.file spContent)) ∧ SpComplete s spid

/-- After a run in which the removal of `p` failed, a second run of `mcRegistryCleanupSp` without
failures reports success and leaves nothing behind. -/
def SpResumes (s : Fs) (spid : Spid) (p : List String) : Prop :=
  let interrupted := (mcRegistryCleanupSp (s.failing p) spid).2.healthy
  (mcRegistryCleanupSp interrupted spid).1 = mcDrvOk ∧
    SpGone s (mcRegistryCleanupSp interrupted spid).2 spid

/-- The same for `mcRegistryCleanupRoot`. -/
def RootResumes (s : Fs) (p : List String) : Prop :=
  let interrupted := (mcRegistryCleanupRoot (s.failing p)).2.healthy
  (mcRegistryCleanupRoot interrupted).1 = mcDrvOk ∧
    RootGone s (mcRegistryCleanupRoot interrupted).2

/-- The first removals of the whole clean-up. -/
def FirstRoot (s : Fs) (content : List UInt8) (p : List String) : Prop :=
  (∃ spid, (rootChildren content).head? = some spid ∧
    ∃ spContent, s.get? (getSpContFilePath spid) = some (.file spContent) ∧
      FirstSp s spid spContent p) ∨
  (rootChildren content = [] ∧ p = getRootContFilePath)

theorem SpComplete.flat {s : Fs} {spid : Spid} (h : SpComplete s spid) : Flat s spid := by
  intro content hcontent uuid huuid hdir
  obtain ⟨tlContent, htl⟩ := h content hcontent uuid huuid
  rw [htl] at hdir
  cases hdir

/-- What is gone after the second run, seen from the start or from between the runs. -/
theorem spGone_between {s t u : Fs} {spid : Spid} {content : List UInt8} (hst : OnlyRemoved s t)
    (hcont : t.get? (getSpContFilePath spid) = some (.file content)) :
    SpGone s u spid ↔ SpGone t u spid := by
  have hs := hst.get?_of_some hcont
  unfold SpGone
  rw [hs, hcont]

theorem spReady_healthy {s : Fs} {spid : Spid} {content : List UInt8} :
    SpReady s.healthy spid content ↔ SpReady s spid content := by
  constructor
  · intro h
    exact h.of_same (fun _ _ => rfl) fun _ _ => clearable_healthy.symm
  · intro h
    exact h.of_same (fun _ _ => rfl) fun _ _ => clearable_healthy

theorem spReady_failing {s : Fs} {spid : Spid} {content : List UInt8} {p : List String} :
    SpReady (s.failing p) spid content ↔ SpReady s spid content := by
  constructor
  · intro h
    exact h.of_same (fun _ _ => rfl) fun _ _ => clearable_failing.symm
  · intro h
    exact h.of_same (fun _ _ => rfl) fun _ _ => clearable_failing

/-- A second run needs just what can still be cleaned up. -/
theorem spResumes_iff_ready {s : Fs} (hs : Contained s) {spid : Spid}
    (hcomplete : SpComplete s spid) (p : List String) :
    SpResumes s spid p ↔
      ∃ content, SpReady (mcRegistryCleanupSp (s.failing p) spid).2 spid content := by
  have htidies := cleanupSp_tidies (s := s.failing p) hs spid
  obtain ⟨t, ht⟩ : ∃ t, t = (mcRegistryCleanupSp (s.failing p) spid).2 := ⟨_, rfl⟩
  rw [← ht] at htidies
  have honly : OnlyRemoved (s.failing p) t := htidies.onlyRemoved
  have hcontained : Contained t.healthy := htidies.contained hs
  have hflat : Flat t spid :=
    (show Flat (s.failing p) spid from hcomplete.flat).of_onlyRemoved honly
  unfold SpResumes
  rw [← ht]
  constructor
  · rintro ⟨hok, hall⟩
    have hspid : spid ≠ 0 := by
      rintro rfl
      rw [cleanupSp_zero] at hok
      exact absurd hok (show ¬ mcDrvErrInvalidParameter = mcDrvOk by decide)
    have hstub : ¬ Stub t.healthy (getSpContFilePath spid) sizeofSpCont := by
      intro hstub
      rw [cleanupSp_of_stub hspid hstub] at hall
      exact hstub.present hall.1
    obtain ⟨content, hready⟩ := (cleanupSp_fst hcontained rfl hflat hstub).mp hok
    exact ⟨content, spReady_healthy.mp hready⟩
  · rintro ⟨content, hready⟩
    have hstub := (spReady_healthy.mpr hready).not_stub
    have hok := (cleanupSp_fst hcontained rfl hflat hstub).mpr
      ⟨content, spReady_healthy.mpr hready⟩
    have hgone : SpGone t.healthy _ spid := spReports_of_not_stub hstub hok
    exact ⟨hok, (spGone_between honly hready.cont).mpr hgone⟩

theorem spResumes_iff {s : Fs} (hs : Contained s) {spid : Spid} (hcomplete : SpComplete s spid)
    (p : List String) :
    SpResumes s spid p ↔ ∃ content, SpReady s spid content ∧ FirstSp s spid content p := by
  have htidies := cleanupSp_tidies (s := s.failing p) hs spid
  rw [spResumes_iff_ready hs hcomplete p]
  constructor
  · rintro ⟨content, hafter⟩
    have hready := spReady_failing.mp (hafter.before htidies)
    refine ⟨content, hready, ?_⟩
    by_contra hfirst
    exact cleanupSp_not_first hs hcomplete.flat hready hfirst hafter
  · rintro ⟨content, hready, hfirst⟩
    obtain ⟨-, hkept⟩ := cleanupSp_first hs hcomplete.flat hready hfirst
    refine ⟨content, hready.of_same (fun q hq => hkept q (spOwn_isCont hq)) fun name hname => ?_⟩
    exact (htidies.steady name hname).trans clearable_failing

theorem cleanupRoot_tidies {s : Fs} (hs : Contained s) :
    Tidies (fun q => q = getRootContFilePath ∨ AnySpOwn q) s (mcRegistryCleanupRoot s).2 := by
  unfold mcRegistryCleanupRoot
  split
  · exact .refl _ s
  · split_ifs
    · exact .refl _ s
    · apply onOk_tidies ((cleanupSps_tidies hs _).mono fun q hq => .inr hq)
      exact removeCont_tidies _ isCont_root (.inl rfl)

/-- With a service provider to begin with, the rest only matters if its clean-up comes off. -/
theorem cleanupRoot_cons {s : Fs} {content : List UInt8} {spid : Spid} (hs : Contained s)
    (hcont : s.get? getRootContFilePath = some (.file content))
    (hfull : sizeofRootCont ≤ content.length) (hhead : (rootChildren content).head? = some spid) :
    Tidies (fun q => q = getRootContFilePath ∨ AnySpOwn q) (mcRegistryCleanupSp s spid).2
      (mcRegistryCleanupRoot s).2 ∧
    ((mcRegistryCleanupSp s spid).1 ≠ mcDrvOk →
      mcRegistryCleanupRoot s = mcRegistryCleanupSp s spid) := by
  obtain ⟨rest, hchildren⟩ := List.head?_eq_some_iff.mp hhead
  rw [cleanupRoot_full hcont hfull, hchildren, whileOk]
  split_ifs with hok
  · refine ⟨?_, fun h => absurd hok h⟩
    have hsp := (cleanupSp_tidies hs spid).contained hs
    apply onOk_tidies ((cleanupSps_tidies hsp rest).mono fun q hq => .inr hq)
    exact removeCont_tidies _ isCont_root (.inl rfl)
  · refine ⟨?_, fun _ => if_neg hok⟩
    rw [onOk, if_neg hok]
    exact .refl _ _

theorem rootReady_healthy {s : Fs} {content : List UInt8} (h : RootReady s content) :
    RootReady s.healthy content where
  cont := h.cont
  full := h.full
  nodup := h.nodup
  children := fun spid hspid => by
    obtain ⟨spContent, hsp⟩ := h.children spid hspid
    exact ⟨spContent, spReady_healthy.mpr hsp⟩

theorem rootReady_of_healthy {s : Fs} {content : List UInt8} (h : RootReady s.healthy content) :
    RootReady s content where
  cont := h.cont
  full := h.full
  nodup := h.nodup
  children := fun spid hspid => by
    obtain ⟨spContent, hsp⟩ := h.children spid hspid
    exact ⟨spContent, spReady_healthy.mp hsp⟩

/-- The same needs for the whole clean-up. -/
theorem rootResumes_iff_ready {s : Fs} (hs : Contained s) (hcomplete : RootComplete s)
    (p : List String) :
    RootResumes s p ↔
      ∃ content, RootReady (mcRegistryCleanupRoot (s.failing p)).2 content := by
  have htidies := cleanupRoot_tidies (s := s.failing p) hs
  obtain ⟨t, ht⟩ : ∃ t, t = (mcRegistryCleanupRoot (s.failing p)).2 := ⟨_, rfl⟩
  rw [← ht] at htidies
  have honly : OnlyRemoved (s.failing p) t := htidies.onlyRemoved
  have hcontained : Contained t.healthy := htidies.contained hs
  have hflat : ∀ content, t.healthy.get? getRootContFilePath = some (.file content) →
      ∀ spid ∈ rootChildren content, Flat t.healthy spid := by
    intro content hcontent spid hspid
    have hsp := (hcomplete content (honly.get?_of_some hcontent) spid hspid).2
    have ht : Flat t spid := (show Flat (s.failing p) spid from hsp.flat).of_onlyRemoved honly
    exact ht
  unfold RootResumes
  rw [← ht]
  constructor
  · rintro ⟨hok, hroot, hsps⟩
    have hgone : RootGone t.healthy (mcRegistryCleanupRoot t.healthy).2 := by
      refine ⟨hroot, fun content hcontent spid hspid => ?_⟩
      obtain ⟨hsp, htls⟩ := hsps content (honly.get?_of_some hcontent) spid hspid
      exact ⟨hsp, fun spContent hspContent => htls spContent (honly.get?_of_some hspContent)⟩
    obtain ⟨content, hready⟩ := (cleanupRoot_iff hcontained rfl hflat).mp ⟨hok, hgone⟩
    exact ⟨content, rootReady_of_healthy hready⟩
  · rintro ⟨content, hready⟩
    obtain ⟨hok, hroot, hsps⟩ :=
      (cleanupRoot_iff hcontained rfl hflat).mpr ⟨content, rootReady_healthy hready⟩
    refine ⟨hok, hroot, fun content' hcontent' spid hspid => ?_⟩
    obtain rfl : content = content' := by
      have hcontent : s.get? getRootContFilePath = some (.file content) :=
        honly.get?_of_some hready.cont
      rw [hcontent] at hcontent'
      cases hcontent'
      rfl
    obtain ⟨spContent, hsp⟩ := hready.children spid hspid
    exact (spGone_between honly hsp.cont).mpr (hsps content hready.cont spid hspid)

theorem rootResumes_iff {s : Fs} (hs : Contained s) (hcomplete : RootComplete s)
    (p : List String) :
    RootResumes s p ↔ ∃ content, RootReady s content ∧ FirstRoot s content p := by
  have htidies := cleanupRoot_tidies (s := s.failing p) hs
  rw [rootResumes_iff_ready hs hcomplete p]
  constructor
  · rintro ⟨content, hafter⟩
    have hcont : s.get? getRootContFilePath = some (.file content) :=
      htidies.shrinks.get?_of_some hafter.cont
    have hready : RootReady s content := by
      refine ⟨hcont, hafter.full, hafter.nodup, fun spid hspid => ?_⟩
      obtain ⟨spContent, hsp⟩ := hafter.children spid hspid
      exact ⟨spContent, spReady_failing.mp (hsp.before htidies)⟩
    refine ⟨content, hready, ?_⟩
    by_contra hfirst
    cases hhead : (rootChildren content).head? with
    | none =>
      -- nothing but the root container itself is to be removed
      have hnil := List.head?_eq_none_iff.mp hhead
      have hrun : mcRegistryCleanupRoot (s.failing p) =
          removeCont (s.failing p) getRootContFilePath := by
        rw [cleanupRoot_full (s := s.failing p) hcont hafter.full, hnil]
        rfl
      have hok : (removeCont (s.failing p) getRootContFilePath).1 = mcDrvOk := by
        rw [removeCont_fst, remove_fst_of_not_dir (by simp [hcont])]
        exact ⟨fun hp => hfirst (.inr ⟨hnil, Option.some.inj hp⟩), by simp [hcont]⟩
      have hgone := removeCont_gone hok
      rw [← hrun, hafter.cont] at hgone
      cases hgone
    | some spid =>
      have hspid := List.mem_of_head? hhead
      obtain ⟨spContent, hspAfter⟩ := hafter.children spid hspid
      have hrest := (cleanupRoot_cons (s := s.failing p) hs hcont hafter.full hhead).1
      have hspReady := spReady_failing.mp (hspAfter.before htidies)
      refine cleanupSp_not_first hs (hcomplete content hcont spid hspid).2.flat hspReady ?_
        (hspAfter.before hrest)
      intro hsp
      exact hfirst (.inl ⟨spid, hhead, spContent, hspReady.cont, hsp⟩)
  · rintro ⟨content, hready, hfirst⟩
    have hkept : ∀ q, IsCont q → (mcRegistryCleanupRoot (s.failing p)).2.get? q = s.get? q := by
      rcases hfirst with ⟨spid, hhead, spContent, hspCont, hsp⟩ | ⟨hnil, rfl⟩
      · have hspid := List.mem_of_head? hhead
        obtain ⟨spContent', hspReady⟩ := hready.children spid hspid
        obtain rfl : spContent = spContent' := by
          rw [hspReady.cont] at hspCont
          cases hspCont
          rfl
        obtain ⟨hfail, hkept⟩ := cleanupSp_first hs
          (hcomplete content hready.cont spid hspid).2.flat hspReady hsp
        have hstop := (cleanupRoot_cons (s := s.failing p) hs hready.cont hready.full hhead).2 hfail
        rw [hstop]
        exact hkept
      · intro q _
        have hrun : mcRegistryCleanupRoot (s.failing getRootContFilePath) =
            removeCont (s.failing getRootContFilePath) getRootContFilePath := by
          rw [cleanupRoot_full (s := s.failing getRootContFilePath) hready.cont hready.full, hnil]
          rfl
        rw [hrun]
        exact removeIf_of_not (fun hok => (removeIf_fst.mp hok).1 rfl) q
    refine ⟨content, (hkept _ isCont_root).trans hready.cont, hready.full, hready.nodup,
      fun spid hspid => ?_⟩
    obtain ⟨spContent, hsp⟩ := hready.children spid hspid
    refine ⟨spContent, hsp.of_same (fun q hq => hkept q (spOwn_isCont hq)) fun name hname => ?_⟩
    exact (htidies.steady name hname).trans clearable_failing

/-- **Resuming.** After a failed removal a second run cleans up exactly if the registry could be
cleaned up at first and the removal was one of the first ones. -/
theorem resumes_iff_first {s : Fs} (hs : Contained s) (p : List String) :
    (∀ spid, SpComplete s spid →
      (SpResumes s spid p ↔ ∃ content, SpReady s spid content ∧ FirstSp s spid content p)) ∧
    (RootComplete s →
      (RootResumes s p ↔ ∃ content, RootReady s content ∧ FirstRoot s content p)) :=
  ⟨fun _ hcomplete => spResumes_iff hs hcomplete p, fun hcomplete =>
    rootResumes_iff hs hcomplete p⟩

/-- A root container that lists service provider 1. -/
def oneSpRoot : List UInt8 := List.replicate 76 0 ++ le32 1 ++ List.replicate 140 0xFF

/-- A service provider's container that lists the zero uuid. -/
def oneTlSp : List UInt8 := List.replicate 76 0 ++ List.replicate 320 0xFF

/-- A registry of one service provider with one trustlet. -/
def smallRegistry : Fs :=
  let s := (storeFile freshRegistry getRootContFilePath oneSpRoot).2
  let s := (storeFile s (getSpContFilePath 1) oneTlSp).2
  (storeFile s (getTlContFilePath zeroUuid 1) [0]).2

theorem rootChildren_oneSpRoot : rootChildren oneSpRoot = [1] := by decide +kernel

theorem spChildren_oneTlSp : spChildren oneTlSp = [zeroUuid] := by decide +kernel

theorem smallRegistry_get? :
    smallRegistry.get? getRootContFilePath = some (.file oneSpRoot) ∧
    smallRegistry.get? (getSpContFilePath 1) = some (.file oneTlSp) ∧
    smallRegistry.get? (getTlContFilePath zeroUuid 1) = some (.file [0]) := by
  decide +kernel

theorem smallRegistry_contained : Contained smallRegistry := by
  unfold Contained
  decide +kernel

theorem smallRegistry_ready :
    RootReady smallRegistry oneSpRoot ∧ SpReady smallRegistry 1 oneTlSp := by
  obtain ⟨hroot, hsp, htl⟩ := smallRegistry_get?
  have hready : SpReady smallRegistry 1 oneTlSp := by
    refine ⟨by decide, hsp, by decide +kernel, ?_, ?_, ?_⟩
    · rw [spChildren_oneTlSp]
      exact List.nodup_singleton _
    · intro uuid huuid
      rw [spChildren_oneTlSp, List.mem_singleton] at huuid
      subst huuid
      refine ⟨fun hdir => ?_, by simp [htl]⟩
      exact absurd hdir (by decide +kernel)
    · intro hdir
      exact absurd hdir (by decide +kernel)
  refine ⟨⟨hroot, by decide +kernel, ?_, ?_⟩, hready⟩
  · rw [rootChildren_oneSpRoot]
    exact List.nodup_singleton _
  · intro spid hspid
    rw [rootChildren_oneSpRoot, List.mem_singleton] at hspid
    subst hspid
    exact ⟨oneTlSp, hready⟩

theorem smallRegistry_complete : RootComplete smallRegistry ∧ SpComplete smallRegistry 1 := by
  obtain ⟨hroot, hsp, htl⟩ := smallRegistry_get?
  have hcomplete : SpComplete smallRegistry 1 := by
    intro content hcontent uuid huuid
    rw [hsp] at hcontent
    cases hcontent
    rw [spChildren_oneTlSp, List.mem_singleton] at huuid
    subst huuid
    exact ⟨[0], htl⟩
  refine ⟨fun content hcontent spid hspid => ?_, hcomplete⟩
  rw [hroot] at hcontent
  cases hcontent
  rw [rootChildren_oneSpRoot, List.mem_singleton] at hspid
  subst hspid
  exact ⟨⟨oneTlSp, hsp⟩, hcomplete⟩

/-- When the trustlet's container cannot be removed, nothing is lost. -/
theorem resumes_trustlet :
    SpResumes smallRegistry 1 (getTlContFilePath zeroUuid 1) ∧
      RootResumes smallRegistry (getTlContFilePath zeroUuid 1) := by
  obtain ⟨hroot, hsp⟩ := smallRegistry_ready
  have hfirst : FirstSp smallRegistry 1 oneTlSp (getTlContFilePath zeroUuid 1) :=
    .inl ⟨zeroUuid, by rw [spChildren_oneTlSp]; rfl, .inr rfl⟩
  have hboth := resumes_iff_first smallRegistry_contained (getTlContFilePath zeroUuid 1)
  constructor
  · exact (hboth.1 1 smallRegistry_complete.2).mpr ⟨oneTlSp, hsp, hfirst⟩
  · refine (hboth.2 smallRegistry_complete.1).mpr ⟨oneSpRoot, hroot, .inl ⟨1, ?_, oneTlSp, hsp.cont,
      hfirst⟩⟩
    rw [rootChildren_oneSpRoot]
    rfl

/-- When the service provider's container cannot be removed, its trustlet's is gone, and the second
run does not get past that. -/
theorem resumes_sp_fails :
    RootComplete smallRegistry ∧ SpComplete smallRegistry 1 ∧
      (mcRegistryCleanupRoot (smallRegistry.failing (getSpContFilePath 1))).2.fault = none ∧
      ¬ SpResumes smallRegistry 1 (getSpContFilePath 1) ∧
      ¬ RootResumes smallRegistry (getSpContFilePath 1) := by
  obtain ⟨hroot, hsp⟩ := smallRegistry_ready
  have hlater : ∀ content, SpReady smallRegistry 1 content →
      ¬ FirstSp smallRegistry 1 content (getSpContFilePath 1) := by
    intro content hcontent
    have heq := hcontent.cont
    rw [hsp.cont] at heq
    cases heq
    rintro (⟨uuid, huuid, hhit | htl⟩ | ⟨hnil, -⟩)
    · rw [spChildren_oneTlSp] at huuid
      cases huuid
      exact absurd hhit.1 (by decide +kernel)
    · exact getSpContFilePath_ne_getTlContFilePath htl
    · rw [spChildren_oneTlSp] at hnil
      cases hnil
  refine ⟨smallRegistry_complete.1, smallRegistry_complete.2, by decide +kernel, ?_, ?_⟩
  · rw [spResumes_iff smallRegistry_contained smallRegistry_complete.2]
    rintro ⟨content, hready, hfirst⟩
    exact hlater content hready hfirst
  · rw [rootResumes_iff smallRegistry_contained smallRegistry_complete.1]
    rintro ⟨content, hready, hfirst⟩
    have heq := hready.cont
    rw [hroot.cont] at heq
    cases heq
    rcases hfirst with ⟨spid, hspid, spContent, hspCont, hfirst⟩ | ⟨hnil, -⟩
    · rw [rootChildren_oneSpRoot] at hspid
      cases hspid
      obtain ⟨spContent', hspReady⟩ := hready.children 1 (by rw [rootChildren_oneSpRoot]; simp)
      rw [hspReady.cont] at hspCont
      cases hspCont
      exact hlater _ hspReady hfirst
    · rw [rootChildren_oneSpRoot] at hnil
      cases hnil

end McDaemon.Registry
