/-
# McDaemon.Registry.Cleanup — removing containers with all that hangs below them.

Clean-up goes down from the root container over the service providers to their trustlets, and
removes each container after its children.  Only the result code tells how it went.  A container
that is shorter than its structure ends the clean-up at once, with the result of the read.
-/
import McDaemon.Registry.Header
import McDaemon.Registry.Storage

namespace McDaemon.Registry

open McDaemon.Lib
open McDaemon.Lib.FileSystem

/-! ## Clean-up -/

/-- Names that clean-up passes over when it empties a directory. -/
def isHidden (name : String) : Bool := name.toList.head? == some '.'

/-- The name before an extension, if the name ends in it. -/
def baseOf (ext name : String) : Option String :=
  if ext.toList <:+ name.toList then
    some (String.ofList (name.toList.take (name.toList.length - ext.toList.length)))
  else none

/-- `mcCheckUuid`: a file that holds the application with the uuid. -/
def mcCheckUuid (s : Fs) (uuid : Uuid) (path : List String) : Bool :=
  match s.get? path with
  | some (.file content) =>
    let blob : Memory := fun i => content.getD i 0
    decide (sizeofHeaderV24 ≤ content.length % 2 ^ 32 ∧ mcMakeVersion 2 4 ≤ version blob ∧
      headerUuid blob = uuid)
  | _ => false

/-- The spid in a `.spid` file, 0 if there is none. -/
def curSpid (s : Fs) (path : List String) : Spid :=
  match s.get? path with
  | some (.file content) =>
    if 4 ≤ content.length then UInt32.ofNat (ofLe (content.take 4)) else 0
  | _ => 0

/-- `CleanupGPTAStorage`, whose result is not used.  The name of the directory is the name of a
`.spid` file, so it may also lead to the storage directory itself or out of it; these two are not
removed. -/
def cleanupGPTAStorage (s : Fs) (uuid : String) : Fs :=
  if uuid = "" then (clearDir isHidden s getTbStoragePath).2
  else if uuid = "." then
    if s.isDir getTbStoragePath then
      removeAll isHidden getTbStoragePath s (s.entries getTbStoragePath)
    else s
  else if uuid = ".." then
    if s.isDir getTbStoragePath then
      removeAll isHidden mcRegistryDataPath s (s.entries mcRegistryDataPath)
    else s
  else (clearDir isHidden s (getTbStoragePath ++ [uuid])).2

/-- Does the entry belong to the service provider's application with the uuid? -/
def isSPTA (s : Fs) (uuid : Uuid) (spid : Spid) (name : String) : Bool :=
  match baseOf ".spid" name with
  | none => false
  | some base =>
    curSpid s (inRegistry name) = spid && mcCheckUuid s uuid (inRegistry (base ++ ".tabin"))

/-- `deleteSPTA`: the first such entry goes, with the binary and the storage; errors are ignored. -/
def deleteSPTA (s : Fs) (uuid : Uuid) (spid : Spid) : Fs :=
  if s.isDir mcRegistryDataPath then
    match (s.entries mcRegistryDataPath).find? (isSPTA s uuid spid) with
    | none => s
    | some name =>
      match baseOf ".spid" name with
      | none => s
      | some base =>
        let s := cleanupGPTAStorage s base
        let s := (s.remove (inRegistry (base ++ ".tabin"))).2
        (s.remove (inRegistry name)).2
  else s

/-- The binary of a trustlet, legacy or GP; errors are ignored. -/
def removeBinary (s : Fs) (uuid : Uuid) (spid : Spid) : Fs :=
  if s.exists? (getTlBinFilePath uuid) then (s.remove (getTlBinFilePath uuid)).2
  else deleteSPTA s uuid spid

/-- Go on unless an error was returned. -/
def onOk (r : McResult × Fs) (f : Fs → McResult × Fs) : McResult × Fs :=
  if r.1 = mcDrvOk then f r.2 else r

/-- Empty and remove a data directory, if it is there. -/
def clearData (s : Fs) (d : List String) : McResult × Fs :=
  (if (clearDir isHidden s d).1 then mcDrvOk else mcDrvErrUnknown, (clearDir isHidden s d).2)

/-- Remove a container's file at the end of its clean-up. -/
def removeCont (s : Fs) (path : List String) : McResult × Fs :=
  (if (s.remove path).1 then mcDrvOk else mcDrvErrUnknown, (s.remove path).2)

def mcRegistryCleanupTrustlet (s : Fs) (uuid : Uuid) (spid : Spid) : McResult × Fs :=
  onOk (clearData s (getTlDataPath uuid)) fun s =>
    removeCont (removeBinary s uuid spid) (getTlContFilePath uuid spid)

/-- The trustlets of a service provider, as long as it goes well. -/
def cleanupTrustlets (s : Fs) (spid : Spid) (uuids : List Uuid) : McResult × Fs :=
  whileOk mcDrvOk (fun s uuid => mcRegistryCleanupTrustlet s uuid spid) s uuids

def mcRegistryCleanupSp (s : Fs) (spid : Spid) : McResult × Fs :=
  match mcRegistryReadSp s spid sizeofSpCont with
  | .error ret => (ret, s)
  | .ok data =>
    -- a short container is reported like one that has been cleaned up
    if data.length ≠ sizeofSpCont then (mcDrvOk, s)
    else
      onOk (cleanupTrustlets s spid (spChildren data)) fun s =>
        onOk (clearData s (getSpDataPath spid)) fun s => removeCont s (getSpContFilePath spid)

def mcRegistryCleanupRoot (s : Fs) : McResult × Fs :=
  match mcRegistryReadRoot s sizeofRootCont with
  | .error ret => (ret, s)
  | .ok data =>
    if data.length ≠ sizeofRootCont then (mcDrvOk, s)
    else
      onOk (whileOk mcDrvOk mcRegistryCleanupSp s (rootChildren data)) fun s =>
        removeCont s getRootContFilePath

/-! ## Result codes -/

theorem onOk_fst {r : McResult × Fs} {f : Fs → McResult × Fs} :
    (onOk r f).1 = mcDrvOk ↔ r.1 = mcDrvOk ∧ (f r.2).1 = mcDrvOk := by
  unfold onOk
  split_ifs with h
  · simp [h]
  · simp [h]

theorem onOk_snd {r : McResult × Fs} {f : Fs → McResult × Fs} (h : r.1 = mcDrvOk) :
    (onOk r f).2 = (f r.2).2 := by
  rw [onOk, if_pos h]

theorem clearData_fst {s : Fs} {d : List String} :
    (clearData s d).1 = mcDrvOk ↔ (clearDir isHidden s d).1 = true := by
  unfold clearData
  cases (clearDir isHidden s d).1 with
  | true => simp
  | false =>
    show mcDrvErrUnknown = mcDrvOk ↔ false = true
    decide

theorem removeCont_fst {s : Fs} {p : List String} :
    (removeCont s p).1 = mcDrvOk ↔ (s.remove p).1 = true := by
  unfold removeCont
  cases (s.remove p).1 with
  | true => simp
  | false =>
    show mcDrvErrUnknown = mcDrvOk ↔ false = true
    decide

/-! ## Only removals -/

/-- Nothing is new, and nothing has changed but what is gone. -/
abbrev OnlyRemoved (s t : Fs) : Prop := Shrinks (fun _ => True) s t

theorem clearDir_onlyRemoved (s : Fs) (d : List String) :
    OnlyRemoved s (clearDir isHidden s d).2 :=
  (clearDir_shrinks isHidden s d).mono fun _ _ => trivial

theorem remove_onlyRemoved (s : Fs) (p : List String) : OnlyRemoved s (s.remove p).2 :=
  removeIf_shrinks.mono fun _ _ => trivial

theorem clearData_onlyRemoved (s : Fs) (d : List String) : OnlyRemoved s (clearData s d).2 :=
  clearDir_onlyRemoved s d

theorem removeCont_onlyRemoved (s : Fs) (p : List String) : OnlyRemoved s (removeCont s p).2 :=
  remove_onlyRemoved s p

theorem onOk_shrinks {D : List String → Prop} {s : Fs} {r : McResult × Fs}
    {f : Fs → McResult × Fs} (hr : Shrinks D s r.2) (hf : Shrinks D r.2 (f r.2).2) :
    Shrinks D s (onOk r f).2 := by
  unfold onOk
  split_ifs
  · exact hr.trans hf
  · exact hr

theorem cleanupGPTAStorage_onlyRemoved (s : Fs) (uuid : String) :
    OnlyRemoved s (cleanupGPTAStorage s uuid) := by
  unfold cleanupGPTAStorage
  split_ifs
  · exact clearDir_onlyRemoved s _
  · exact (removeAll_shrinks isHidden s _ _).mono fun _ _ => trivial
  · exact .refl _ s
  · exact (removeAll_shrinks isHidden s _ _).mono fun _ _ => trivial
  · exact .refl _ s
  · exact clearDir_onlyRemoved s _

theorem deleteSPTA_onlyRemoved (s : Fs) (uuid : Uuid) (spid : Spid) :
    OnlyRemoved s (deleteSPTA s uuid spid) := by
  unfold deleteSPTA
  split_ifs
  · split
    · exact .refl _ s
    · split
      · exact .refl _ s
      · exact ((cleanupGPTAStorage_onlyRemoved s _).trans (remove_onlyRemoved _ _)).trans
          (remove_onlyRemoved _ _)
  · exact .refl _ s

theorem removeBinary_onlyRemoved (s : Fs) (uuid : Uuid) (spid : Spid) :
    OnlyRemoved s (removeBinary s uuid spid) := by
  unfold removeBinary
  split_ifs
  · exact remove_onlyRemoved s _
  · exact deleteSPTA_onlyRemoved s uuid spid

theorem cleanupTrustlet_onlyRemoved (s : Fs) (uuid : Uuid) (spid : Spid) :
    OnlyRemoved s (mcRegistryCleanupTrustlet s uuid spid).2 :=
  onOk_shrinks (clearData_onlyRemoved s _)
    ((removeBinary_onlyRemoved _ uuid spid).trans (removeCont_onlyRemoved _ _))

theorem cleanupTrustlets_onlyRemoved (s : Fs) (spid : Spid) (uuids : List Uuid) :
    OnlyRemoved s (cleanupTrustlets s spid uuids).2 :=
  whileOk_rel (Shrinks.refl _) (fun _ _ _ => Shrinks.trans)
    (fun t uuid _ => cleanupTrustlet_onlyRemoved t uuid spid) s

theorem cleanupSp_onlyRemoved (s : Fs) (spid : Spid) :
    OnlyRemoved s (mcRegistryCleanupSp s spid).2 := by
  unfold mcRegistryCleanupSp
  split
  · exact .refl _ s
  · split_ifs
    · exact .refl _ s
    · exact onOk_shrinks (cleanupTrustlets_onlyRemoved s spid _)
        (onOk_shrinks (clearData_onlyRemoved _ _) (removeCont_onlyRemoved _ _))

/-! ## What success says -/

/-- The service provider's container is gone, and so are the containers of its trustlets. -/
def SpGone (s t : Fs) (spid : Spid) : Prop :=
  t.get? (getSpContFilePath spid) = none ∧
  ∀ content, s.get? (getSpContFilePath spid) = some (.file content) →
    ∀ uuid ∈ spChildren content, t.get? (getTlContFilePath uuid spid) = none

/-- The root container is gone, with all service providers that it listed. -/
def RootGone (s t : Fs) : Prop :=
  t.get? getRootContFilePath = none ∧
  ∀ content, s.get? getRootContFilePath = some (.file content) →
    ∀ spid ∈ rootChildren content, SpGone s t spid

/-- `mcRegistryCleanupSp` reports success only when it cleaned up. -/
def SpReports (s : Fs) (spid : Spid) : Prop :=
  (mcRegistryCleanupSp s spid).1 = mcDrvOk → SpGone s (mcRegistryCleanupSp s spid).2 spid

/-- And so does `mcRegistryCleanupRoot`. -/
def RootReports (s : Fs) : Prop :=
  (mcRegistryCleanupRoot s).1 = mcDrvOk → RootGone s (mcRegistryCleanupRoot s).2

/-- A container's file that is not empty but shorter than its structure. -/
def Stub (s : Fs) (path : List String) (size : Nat) : Prop :=
  ∃ content, s.get? path = some (.file content) ∧ 0 < content.length ∧ content.length < size

theorem removeCont_gone {s : Fs} {p : List String} (h : (removeCont s p).1 = mcDrvOk) :
    (removeCont s p).2.get? p = none := removeIf_gone (removeCont_fst.mp h)

theorem cleanupTrustlet_gone {s : Fs} {uuid : Uuid} {spid : Spid}
    (h : (mcRegistryCleanupTrustlet s uuid spid).1 = mcDrvOk) :
    (mcRegistryCleanupTrustlet s uuid spid).2.get? (getTlContFilePath uuid spid) = none := by
  obtain ⟨hclear, hcont⟩ := onOk_fst.mp h
  rw [mcRegistryCleanupTrustlet, onOk_snd hclear]
  exact removeCont_gone hcont

/-- A stub is read as it is. -/
theorem Stub.read {s : Fs} {path : List String} {size : Nat} (h : Stub s path size) :
    ∃ data, readFile s path size = .ok data ∧ data.length ≠ size := by
  obtain ⟨content, hcontent, hpos, hlt⟩ := h
  have hne : content ≠ [] := List.length_pos_iff.mp hpos
  exact ⟨content, readFile_eq_ok.mpr ⟨content, hcontent, (List.take_of_length_le hlt.le).symm, hne⟩,
    hlt.ne⟩

theorem Stub.present {s : Fs} {path : List String} {size : Nat} (h : Stub s path size) :
    s.get? path ≠ none := by
  obtain ⟨content, hcontent, -⟩ := h
  rw [hcontent]
  exact Option.some_ne_none _

theorem Stub.of_onlyRemoved {s t : Fs} {path : List String} {size : Nat} (hst : OnlyRemoved s t)
    (h : Stub t path size) : Stub s path size := by
  obtain ⟨content, hcontent, hlen⟩ := h
  exact ⟨content, hst.get?_of_some hcontent, hlen⟩

theorem cleanupSp_zero (s : Fs) : mcRegistryCleanupSp s 0 = (mcDrvErrInvalidParameter, s) := rfl

/-- A stub is taken for a container that has been cleaned up. -/
theorem cleanupSp_of_stub {s : Fs} {spid : Spid} (hspid : spid ≠ 0)
    (h : Stub s (getSpContFilePath spid) sizeofSpCont) :
    mcRegistryCleanupSp s spid = (mcDrvOk, s) := by
  obtain ⟨data, hdata, hshort⟩ := h.read
  rw [mcRegistryCleanupSp, mcRegistryReadSp_eq_ok.mpr ⟨hspid, hdata⟩]
  exact if_pos hshort

theorem cleanupRoot_of_stub {s : Fs} (h : Stub s getRootContFilePath sizeofRootCont) :
    mcRegistryCleanupRoot s = (mcDrvOk, s) := by
  obtain ⟨data, hdata, hshort⟩ := h.read
  rw [mcRegistryCleanupRoot, mcRegistryReadRoot, hdata]
  exact if_pos hshort

/-- What has been read of a container that is no stub is the whole of its structure. -/
theorem length_of_not_stub {s : Fs} {path : List String} {size : Nat} {data : List UInt8}
    (hstub : ¬ Stub s path size) (hread : readFile s path size = .ok data) :
    data.length = size := by
  obtain ⟨content, hcontent, rfl, hne⟩ := readFile_eq_ok.mp hread
  by_contra hshort
  have hpos := List.length_pos_iff.mpr hne
  rw [List.length_take] at hpos hshort
  exact hstub ⟨content, hcontent, by omega, by omega⟩

theorem cleanupTrustlets_gone {s : Fs} {spid : Spid} {uuids : List Uuid}
    (h : (cleanupTrustlets s spid uuids).1 = mcDrvOk) :
    ∀ uuid ∈ uuids,
      (cleanupTrustlets s spid uuids).2.get? (getTlContFilePath uuid spid) = none := by
  intro uuid huuid
  obtain ⟨u, -, hok, hrest⟩ := whileOk_ok (Shrinks.refl _) (fun _ _ _ => Shrinks.trans)
    (fun t uuid _ => cleanupTrustlet_onlyRemoved t uuid spid) h uuid huuid
  exact hrest.get?_of_none (cleanupTrustlet_gone hok)

/-- Without a stub, success of a service provider's clean-up is what it says. -/
theorem spReports_of_not_stub {s : Fs} {spid : Spid}
    (hstub : ¬ Stub s (getSpContFilePath spid) sizeofSpCont) : SpReports s spid := by
  intro hok
  unfold mcRegistryCleanupSp at hok ⊢
  cases hread : mcRegistryReadSp s spid sizeofSpCont with
  | error ret =>
    rw [hread] at hok
    exact absurd hok (mcRegistryReadSp_error hread)
  | ok data =>
    obtain ⟨-, hfile⟩ := mcRegistryReadSp_eq_ok.mp hread
    have hfull := length_of_not_stub hstub hfile
    obtain ⟨content, hcontent, rfl, -⟩ := readFile_eq_ok.mp hfile
    rw [hread] at hok
    dsimp only at hok ⊢
    rw [if_neg (not_not.mpr hfull)] at hok ⊢
    obtain ⟨hchildren, hrest⟩ := onOk_fst.mp hok
    obtain ⟨hdata, hcont⟩ := onOk_fst.mp hrest
    rw [onOk_snd hchildren, onOk_snd hdata]
    refine ⟨removeCont_gone hcont, fun content' hcontent' uuid huuid => ?_⟩
    obtain rfl : content = content' := by
      rw [hcontent] at hcontent'
      cases hcontent'
      rfl
    rw [spChildren_take] at hchildren ⊢
    have hgone := cleanupTrustlets_gone hchildren uuid huuid
    exact (removeCont_onlyRemoved _ _).get?_of_none
      ((clearData_onlyRemoved _ _).get?_of_none hgone)

theorem spReports_iff {s : Fs} {spid : Spid} :
    SpReports s spid ↔ (spid ≠ 0 → ¬ Stub s (getSpContFilePath spid) sizeofSpCont) := by
  constructor
  · intro hreports hspid hstub
    have hgone : SpGone s (mcRegistryCleanupSp s spid).2 spid :=
      hreports (by rw [cleanupSp_of_stub hspid hstub])
    rw [cleanupSp_of_stub hspid hstub] at hgone
    exact hstub.present hgone.1
  · intro hstub
    by_cases hspid : spid = 0
    · intro hok
      rw [hspid, cleanupSp_zero] at hok
      exact absurd hok (show ¬ mcDrvErrInvalidParameter = mcDrvOk by decide)
    · exact spReports_of_not_stub (hstub hspid)

/-- Success says that there was a container to start from. -/
theorem present_of_cleanupSp {s : Fs} {spid : Spid} (h : (mcRegistryCleanupSp s spid).1 = mcDrvOk) :
    ∃ content, s.get? (getSpContFilePath spid) = some (.file content) := by
  unfold mcRegistryCleanupSp at h
  cases hread : mcRegistryReadSp s spid sizeofSpCont with
  | error ret =>
    rw [hread] at h
    exact absurd h (mcRegistryReadSp_error hread)
  | ok data =>
    obtain ⟨-, hfile⟩ := mcRegistryReadSp_eq_ok.mp hread
    obtain ⟨content, hcontent, -, -⟩ := readFile_eq_ok.mp hfile
    exact ⟨content, hcontent⟩

/-- What is gone between two states is gone between an earlier and a later one. -/
theorem SpGone.widen {s u v t : Fs} {spid : Spid} {content : List UInt8} (hsu : OnlyRemoved s u)
    (hcontent : u.get? (getSpContFilePath spid) = some (.file content)) (hgone : SpGone u v spid)
    (hvt : OnlyRemoved v t) : SpGone s t spid := by
  refine ⟨hvt.get?_of_none hgone.1, fun content' hcontent' uuid huuid => ?_⟩
  rw [hsu.get?_of_some hcontent] at hcontent'
  cases hcontent'
  exact hvt.get?_of_none (hgone.2 content hcontent uuid huuid)

/-- No container is a stub. -/
def NoStubs (s : Fs) : Prop :=
  ¬ Stub s getRootContFilePath sizeofRootCont ∧
  ∀ spid, spid ≠ 0 → ¬ Stub s (getSpContFilePath spid) sizeofSpCont

/-- Without a stub on its way, success of the whole clean-up is what it says. -/
theorem rootReports_of_not_stub {s : Fs} (hroot : ¬ Stub s getRootContFilePath sizeofRootCont)
    (hsp : ∀ content, s.get? getRootContFilePath = some (.file content) →
      ∀ spid ∈ rootChildren content, spid ≠ 0 →
        ¬ Stub s (getSpContFilePath spid) sizeofSpCont) : RootReports s := by
  intro hok
  unfold mcRegistryCleanupRoot at hok ⊢
  cases hread : mcRegistryReadRoot s sizeofRootCont with
  | error ret =>
    rw [hread] at hok
    exact absurd hok (readFile_error hread)
  | ok data =>
    have hfull := length_of_not_stub hroot hread
    obtain ⟨content, hcontent, rfl, -⟩ := readFile_eq_ok.mp hread
    rw [hread] at hok
    dsimp only at hok ⊢
    rw [if_neg (not_not.mpr hfull)] at hok ⊢
    obtain ⟨hchildren, hcont⟩ := onOk_fst.mp hok
    rw [onOk_snd hchildren]
    refine ⟨removeCont_gone hcont, fun content' hcontent' spid hspid => ?_⟩
    obtain rfl : content = content' := by
      rw [hcontent] at hcontent'
      cases hcontent'
      rfl
    rw [rootChildren_take] at hchildren ⊢
    -- the service provider's own clean-up went well, in a state on the way
    obtain ⟨u, hu, hspOk, hrest⟩ := whileOk_ok (Shrinks.refl _) (fun _ _ _ => Shrinks.trans)
      (fun t spid _ => cleanupSp_onlyRemoved t spid) hchildren spid hspid
    have hreports : SpReports u spid :=
      spReports_iff.mpr fun hne hstub =>
        hsp content hcontent spid hspid hne (hstub.of_onlyRemoved hu)
    obtain ⟨spContent, hspContent⟩ := present_of_cleanupSp hspOk
    exact (hreports hspOk).widen hu hspContent (hrest.trans (removeCont_onlyRemoved _ _))

/-- **Clean-up reports success only when it cleaned up** exactly if no container is a stub. -/
theorem reports_iff_noStubs (s : Fs) :
    (∀ spid, SpReports s spid ↔
      (spid ≠ 0 → ¬ Stub s (getSpContFilePath spid) sizeofSpCont)) ∧
    (((∀ spid, SpReports s spid) ∧ RootReports s) ↔ NoStubs s) := by
  refine ⟨fun spid => spReports_iff, ?_⟩
  constructor
  · rintro ⟨hsp, hroot⟩
    refine ⟨fun hstub => ?_, fun spid => spReports_iff.mp (hsp spid)⟩
    have hgone : RootGone s (mcRegistryCleanupRoot s).2 :=
      hroot (by rw [cleanupRoot_of_stub hstub])
    rw [cleanupRoot_of_stub hstub] at hgone
    exact hstub.present hgone.1
  · intro hstubs
    exact ⟨fun spid => spReports_iff.mpr (hstubs.2 spid), rootReports_of_not_stub hstubs.1
      fun content _ spid _ => hstubs.2 spid⟩

/-- A registry whose only container is one byte of a service provider's. -/
def stubRegistry : Fs := (storeFile freshRegistry (getSpContFilePath 1) [0]).2

/-- Its clean-up reports success and leaves it as it is. -/
theorem reports_stubRegistry :
    mcRegistryStoreSp freshRegistry 1 [0] = (mcDrvOk, stubRegistry) ∧
      stubRegistry.fault = none ∧
      (mcRegistryCleanupSp stubRegistry 1).1 = mcDrvOk ∧
      ¬ ((∀ spid, SpReports stubRegistry spid) ∧ RootReports stubRegistry) := by
  have hstub : Stub stubRegistry (getSpContFilePath 1) sizeofSpCont :=
    ⟨[0], by decide, by decide, by decide⟩
  have hcleanup := cleanupSp_of_stub (by decide) hstub
  refine ⟨rfl, rfl, congrArg Prod.fst hcleanup, fun hreports => ?_⟩
  exact spReports_iff.mp (hreports.1 1) (by decide) hstub

end McDaemon.Registry
