/-
# McDaemon.Registry.ObjectRemovals — clean-up takes objects off the map.

Clean-up of a trustlet takes its data, its binary and its container; clean-up of a service provider
goes over the trustlets in its container, and that of the root over the service providers.  Which
application goes with a trustlet is a choice when there are several: the registry takes the one that
its directory lists first.  The storage of applications and the directories do not show.
-/
import McDaemon.Registry.ObjectMap

namespace McDaemon.Registry

open McDaemon.Lib
open McDaemon.Lib.FileSystem
open McDaemon.Lib.Outcomes

/-! ## The map -/

open scoped Classical in
/-- The map without some of its objects. -/
noncomputable def Objects.without (c : Objects) (gone : Set RegistryObject) : Objects := fun o =>
  if o ∈ gone then none else c o

/-- The data of a trustlet. -/
def dataOf (uuid : Uuid) : Set RegistryObject := {o | ∃ pid, o = .tlData uuid pid}

/-- What the registry keeps of an application. -/
def applicationOf (app : Uuid) : Set RegistryObject := {.taBin app, .taSpid app}

/-- The spid in a file, 0 if there is none. -/
def spidIn (bytes : List UInt8) : Spid :=
  if 4 ≤ bytes.length then UInt32.ofNat (ofLe (bytes.take 4)) else 0

/-- A binary has the header of the application with the uuid. -/
def HasHeaderOf (uuid : Uuid) (content : List UInt8) : Prop :=
  sizeofHeaderV24 ≤ content.length % 2 ^ 32 ∧ mcMakeVersion 2 4 ≤ version (Memory.ofList content) ∧
    headerUuid (Memory.ofList content) = uuid

/-- An application goes with the trustlet of a service provider. -/
structure GoesWith (c : Objects) (uuid : Uuid) (spid : Spid) (app : Uuid) : Prop where
  spid : ∃ bytes, c (.taSpid app) = some bytes ∧ spidIn bytes = spid
  bin : ∃ content, c (.taBin app) = some content ∧ HasHeaderOf uuid content

/-- The binary of a trustlet goes, or one application that goes with it. -/
inductive BinaryRemoved (c : Objects) (uuid : Uuid) (spid : Spid) : Objects → Prop
  | legacy (present : c (.tlBin uuid) ≠ none) :
    BinaryRemoved c uuid spid (c.without {.tlBin uuid})
  | application {app : Uuid} (absent : c (.tlBin uuid) = none)
    (goes : GoesWith c uuid spid app) : BinaryRemoved c uuid spid (c.without (applicationOf app))
  | neither (absent : c (.tlBin uuid) = none) (none : ∀ app, ¬ GoesWith c uuid spid app) :
    BinaryRemoved c uuid spid c

open scoped Classical in
/-- An object that is not there cannot be removed. -/
noncomputable def remove (c : Objects) (o : RegistryObject) : McResult × Objects :=
  (if c o = none then mcDrvErrUnknown else mcDrvOk, c.without {o})

def trustletCleaned (c : Objects) (spid : Spid) (uuid : Uuid) : Outcomes McResult Objects :=
  fun r c' => ∃ d, BinaryRemoved (c.without (dataOf uuid)) uuid spid d ∧
    (r, c') = remove d (.tlCont uuid spid)

/-- Going on with a container that has been read whole.  A shorter one counts as cleaned up. -/
def withContainer (read : Except McResult (List UInt8)) (size : Nat) (c : Objects)
    (next : List UInt8 → Outcomes McResult Objects) : Outcomes McResult Objects :=
  match read with
  | .error ret => just ret c
  | .ok data => if data.length ≠ size then just mcDrvOk c else next data

def spCleaned (c : Objects) (spid : Spid) : Outcomes McResult Objects :=
  withContainer (ReadCall.onMap c (.sp spid sizeofSpCont)) sizeofSpCont c fun data =>
    andThen mcDrvOk (each mcDrvOk (trustletCleaned · spid ·) c (spChildren data)) fun d =>
      just (remove d (.sp spid)).1 (remove d (.sp spid)).2

def rootCleaned (c : Objects) : Outcomes McResult Objects :=
  withContainer (ReadCall.onMap c (.root sizeofRootCont)) sizeofRootCont c fun data =>
    andThen mcDrvOk (each mcDrvOk spCleaned c (rootChildren data)) fun d =>
      just (remove d .root).1 (remove d .root).2

/-! ## Removals -/

/-- Some objects are removed, the data of a trustlet with its directory. -/
structure Removes (gone : Set RegistryObject) (s t : Fs) : Prop where
  shrinks : OnlyRemoved s t
  registry : t.get? mcRegistryDataPath = s.get? mcRegistryDataPath
  absent : ∀ o ∈ gone, t.get? o.path = none
  rest : ∀ o ∉ gone, t.get? o.path = s.get? o.path
  dirs : ∀ uuid, (dataOf uuid ⊆ gone ∧ t.get? (getTlDataPath uuid) = none) ∨
    ((∀ pid, .tlData uuid pid ∉ gone) ∧ t.get? (getTlDataPath uuid) = s.get? (getTlDataPath uuid))

section Removals

variable {gone gone' : Set RegistryObject} {s t u : Fs} {o : RegistryObject} {c : Objects}

theorem Removes.trans (hst : Removes gone s t) (htu : Removes gone' t u) :
    Removes (gone ∪ gone') s u where
  shrinks := hst.shrinks.trans htu.shrinks
  registry := htu.registry.trans hst.registry
  absent := by
    rintro o (ho | ho)
    · exact htu.shrinks.get?_of_none (hst.absent o ho)
    · exact htu.absent o ho
  rest := by
    intro o ho
    rw [Set.mem_union, not_or] at ho
    exact (htu.rest o ho.2).trans (hst.rest o ho.1)
  dirs := by
    intro uuid
    rcases hst.dirs uuid with ⟨hall, hnone⟩ | ⟨hdisjoint, hsame⟩
    · exact .inl ⟨hall.trans Set.subset_union_left, htu.shrinks.get?_of_none hnone⟩
    · rcases htu.dirs uuid with ⟨hall', hnone⟩ | ⟨hdisjoint', hsame'⟩
      · exact .inl ⟨hall'.trans Set.subset_union_right, hnone⟩
      · exact .inr ⟨fun pid => not_or.mpr ⟨hdisjoint pid, hdisjoint' pid⟩, hsame'.trans hsame⟩

/-- **What is left is well kept.** -/
theorem Removes.wellKept (h : Removes gone s t) (hs : WellKept s) : WellKept t := by
  have hnoDir : ∀ {q}, s.get? q ≠ some .dir → t.get? q ≠ some .dir := fun hq hdir =>
    hq (h.shrinks.get?_of_some hdir)
  have hwas : ∀ {q}, t.get? q ≠ none → s.get? q ≠ none := fun hq hnone =>
    hq (h.shrinks.get?_of_none hnone)
  refine ⟨h.shrinks.fault_of_none hs.fault, h.registry.trans hs.data, fun o => hnoDir (hs.files o),
    fun uuid => ?_, fun uuid n hn => ?_, fun spid => hnoDir (hs.spData spid),
    fun base hbase => hs.spid base (hwas hbase)⟩
  · rcases h.dirs uuid with ⟨-, hnone⟩ | ⟨hdisjoint, hsame⟩
    · exact .inl hnone
    · rw [hsame]
      refine (hs.dir uuid).imp_right fun ⟨hdir, pid, hpid⟩ => ⟨hdir, pid, ?_⟩
      have hrest := h.rest (.tlData uuid pid) (hdisjoint pid)
      rwa [show t.get? (getTlDataFilePath uuid pid) = _ from hrest]
  · obtain ⟨hdir, pid, hpath⟩ := hs.entry uuid n (hwas hn)
    refine ⟨?_, pid, hpath⟩
    rcases h.dirs uuid with ⟨hall, -⟩ | ⟨-, hsame⟩
    · rw [hpath] at hn
      exact absurd (h.absent (.tlData uuid pid) (hall ⟨pid, rfl⟩)) hn
    · rwa [hsame]

theorem Removes.contents_eq (h : Removes gone s t) : contents t = (contents s).without gone := by
  funext o
  unfold contents Objects.without
  split_ifs with ho
  · rw [h.absent o ho]
    rfl
  · rw [h.rest o ho]

/-! ## One file -/

/-- **The file of an object.** -/
theorem WellKept.remove (hs : WellKept s) (ho : ∀ uuid pid, o ≠ .tlData uuid pid) :
    Removes {o} s (s.remove o.path).2 ∧ ((s.remove o.path).1 = true ↔ contents s o ≠ none) := by
  have hshrinks : Shrinks (fun q => q = o.path) s (s.remove o.path).2 := removeIf_shrinks
  have hok : (s.remove o.path).1 = true ↔ contents s o ≠ none := by
    rw [remove_fst_of_not_dir (hs.files o), hs.fault, hs.get?_path]
    simp [Option.isSome_iff_ne_none]
  refine ⟨⟨hshrinks.mono fun _ _ => trivial, ?_, ?_, ?_, fun uuid => .inr ⟨?_, ?_⟩⟩, hok⟩
  · exact hshrinks.get?_of_not fun h => Nat.ne_of_lt o.length_path (congrArg List.length h)
  · intro o' ho'
    rw [Set.mem_singleton_iff.mp ho']
    by_cases hremoved : (s.remove o.path).1 = true
    · exact removeIf_gone hremoved
    · -- nothing was there
      rw [hok, not_not] at hremoved
      refine hshrinks.get?_of_none ?_
      rw [hs.get?_path, hremoved]
      rfl
  · exact fun o' ho' => hshrinks.get?_of_not (RegistryObject.path_ne ho')
  · exact fun pid h => ho uuid pid (Set.mem_singleton_iff.mp h).symm
  · exact hshrinks.get?_of_not (o.path_ne_getTlDataPath uuid).symm

/-- The container at the end of a clean-up. -/
theorem WellKept.removeCont (hs : WellKept s) (ho : ∀ uuid pid, o ≠ .tlData uuid pid) :
    WellKept (removeCont s o.path).2 ∧
      ((removeCont s o.path).1, contents (removeCont s o.path).2) =
        Registry.remove (contents s) o := by
  obtain ⟨hremoves, hok⟩ := hs.remove ho
  refine ⟨hremoves.wellKept hs, Prod.ext ?_ hremoves.contents_eq⟩
  show (if (s.remove o.path).1 = true then mcDrvOk else mcDrvErrUnknown) =
    if contents s o = none then mcDrvErrUnknown else mcDrvOk
  by_cases hnone : contents s o = none
  · rw [if_neg (fun h => hok.mp h hnone), if_pos hnone]
  · rw [if_pos (hok.mpr hnone), if_neg hnone]

/-! ## Data -/

/-- A directory that has been cleared leaves nothing behind. -/
theorem get?_clearDir_of_ok {skip : String → Bool} {d : List String}
    (hok : (clearDir skip s d).1 = true) (hdir : s.isDir d = true) :
    (clearDir skip s d).2.get? d = none ∧ ∀ n, (clearDir skip s d).2.get? (d ++ [n]) = none := by
  unfold clearDir at hok ⊢
  rw [if_pos hdir] at hok ⊢
  refine ⟨removeIf_gone hok, fun n => ?_⟩
  obtain ⟨-, m, -, hempty⟩ := removeIf_fst.mp hok
  have hentries : (removeAll skip d s (s.entries d)).entries d = [] := by
    rw [Bool.and_eq_true, List.isEmpty_iff] at hempty
    exact hempty.2
  exact removeIf_shrinks.get?_of_none (entries_eq_nil.mp hentries n)

/-- A name that begins with a digit is not hidden. -/
theorem isHidden_uint32ToString (value : UInt32) (ext : String) :
    isHidden (uint32ToString value ++ ext) = false := by
  unfold isHidden
  rw [String.toList_append]
  cases hchars : (uint32ToString value).toList with
  | nil =>
    have hlen := length_uint32ToString value
    rw [hchars] at hlen
    cases hlen
  | cons c cs =>
    have hc : c ∈ (uint32ToString value).toList := hchars ▸ List.mem_cons_self
    simpa using (isHexChar_uint32ToString hc).ne.1

/-- A directory of data can be cleared. -/
theorem WellKept.clearable (hs : WellKept s) (uuid : Uuid) :
    Clearable isHidden s (getTlDataPath uuid) := by
  intro _ n hn
  obtain ⟨-, pid, hpath⟩ := hs.entry uuid n (Option.isSome_iff_ne_none.mp hn)
  refine ⟨?_, fun hdir => ?_⟩
  · have hname : n = uint32ToString pid ++ ".datacont" :=
      (List.cons.inj (List.append_cancel_left hpath)).1
    rw [hname, isHidden_uint32ToString]
  · rw [hpath] at hdir
    exact absurd hdir (hs.files (.tlData uuid pid))

/-- **The data of a trustlet**, whose directory is cleared. -/
theorem WellKept.clearData (hs : WellKept s) (uuid : Uuid) :
    (Registry.clearData s (getTlDataPath uuid)).1 = mcDrvOk ∧
      Removes (dataOf uuid) s (Registry.clearData s (getTlDataPath uuid)).2 := by
  have hok : (clearDir isHidden s (getTlDataPath uuid)).1 = true :=
    clearDir_fst.mpr ⟨hs.clearable uuid, not_hit hs.fault⟩
  have hshrinks := clearDir_shrinks isHidden s (getTlDataPath uuid)
  have hother : ∀ {q}, q ≠ getTlDataPath uuid → (∀ n, q ≠ getTlDataPath uuid ++ [n]) →
      (Registry.clearData s (getTlDataPath uuid)).2.get? q = s.get? q := fun hself hin =>
    hshrinks.get?_of_not fun h => h.elim hself fun ⟨n, hn⟩ => hin n hn
  -- the directory and its entries are gone, if they were there
  have hgone : (Registry.clearData s (getTlDataPath uuid)).2.get? (getTlDataPath uuid) = none ∧
      ∀ n, (Registry.clearData s (getTlDataPath uuid)).2.get? (getTlDataPath uuid ++ [n]) =
        none := by
    rcases hs.dir uuid with hnone | ⟨hdir, -⟩
    · refine ⟨hshrinks.get?_of_none hnone, fun n => hshrinks.get?_of_none ?_⟩
      by_contra hn
      exact (hs.entry uuid n hn).1 hnone
    · exact get?_clearDir_of_ok hok (isDir_iff.mpr hdir)
  have hpath : ∀ {o : RegistryObject}, o ∉ dataOf uuid → ∀ n, o.path ≠ getTlDataPath uuid ++ [n] :=
    fun ho n h => ho (RegistryObject.getTlDataPath_prefix_iff.mp ⟨[n], h.symm⟩)
  refine ⟨clearData_fst.mpr hok, clearData_onlyRemoved s _, ?_, ?_, ?_, fun uuid' => ?_⟩
  · exact hother (fun h => absurd (congrArg List.length h) (show ¬ 3 = 4 by decide))
      fun n h => absurd (congrArg List.length h) (show ¬ 3 = 5 by decide)
  · rintro o ⟨pid, rfl⟩
    exact hgone.2 _
  · exact fun o ho => hother (o.path_ne_getTlDataPath uuid) (hpath ho)
  · by_cases heq : uuid' = uuid
    · rw [heq]
      exact .inl ⟨subset_rfl, hgone.1⟩
    · refine .inr ⟨?_, hother (fun h => heq (getTlDataPath_inj h)) fun n h =>
        absurd (congrArg List.length h) (show ¬ 4 = 5 by decide)⟩
      rintro pid ⟨pid', h⟩
      exact heq (RegistryObject.tlData.inj h).1

/-! ## Binaries -/

/-- Removals beside the objects. -/
theorem removes_of_shrinks {name : String} (hshrinks : Shrinks (Under name) s t)
    (hdata : ¬ IsDataName name) (hdot : '.' ∉ name.toList) : Removes ∅ s t := by
  have hdir : ∀ uuid, ¬ Under name (getTlDataPath uuid) := fun uuid h =>
    hdata (h.unique (under_inRegistry _) ▸ isDataName_byteArrayToString uuid.toList)
  refine ⟨hshrinks.mono fun _ _ => trivial, ?_, nofun, fun o _ => ?_, fun uuid => ?_⟩
  · refine hshrinks.get?_of_not ?_
    rintro ⟨rest, h⟩
    have hlen := congrArg List.length h
    simp at hlen
  · refine hshrinks.get?_of_not fun h => ?_
    rw [RegistryObject.path_eq] at h
    rcases o.directory_eq with hself | ⟨uuid, pid, -, hself⟩
    · -- the name of a file has a dot
      rw [hself] at h
      have hname : name = o.fileName := h.unique ⟨[], rfl⟩
      rw [hname, RegistryObject.toList_fileName] at hdot
      exact hdot (by simp)
    · rw [hself] at h
      have hname : name = byteArrayToString uuid.toList :=
        h.unique ⟨[o.fileName], by simp [getTlDataPath, inRegistry]⟩
      exact hdata (hname ▸ isDataName_byteArrayToString uuid.toList)
  · exact .inr ⟨fun _ => Set.notMem_empty _, hshrinks.get?_of_not (hdir uuid)⟩

/-- The storage of an application is beside the objects. -/
theorem cleanupGPTAStorage_removes (s : Fs) (app : Uuid) :
    Removes ∅ s (cleanupGPTAStorage s (byteArrayToString app.toList)) := by
  have hlen : (byteArrayToString app.toList).toList.length = 32 := by simp
  have hne : ∀ {name : String}, name.toList.length ≠ 32 → byteArrayToString app.toList ≠ name :=
    fun h heq => h (heq ▸ hlen)
  unfold cleanupGPTAStorage
  rw [if_neg (hne (by decide)), if_neg (hne (by decide)), if_neg (hne (by decide))]
  have hunder : Shrinks (Under "TbStorage") s
      (clearDir isHidden s (getTbStoragePath ++ [byteArrayToString app.toList])).2 := by
    refine (clearDir_shrinks isHidden s _).mono ?_
    rintro q (rfl | ⟨n, rfl⟩)
    · exact under_entry _ _
    · exact ⟨[byteArrayToString app.toList, n], rfl⟩
  exact removes_of_shrinks hunder (fun h => (h 't' (by decide)).2 rfl) (by decide)

theorem baseOf_append (base ext : String) : baseOf ext (base ++ ext) = some base := by
  unfold baseOf
  rw [if_pos (by rw [String.toList_append]; exact List.suffix_append _ _)]
  simp [String.toList_append]

theorem WellKept.get?_eq_file (hs : WellKept s) {content : List UInt8} :
    s.get? o.path = some (.file content) ↔ contents s o = some content := by
  rw [hs.get?_path]
  simp

theorem mcCheckUuid_iff {uuid : Uuid} {path : List String} :
    mcCheckUuid s uuid path = true ↔
      ∃ content, s.get? path = some (.file content) ∧ HasHeaderOf uuid content := by
  unfold mcCheckUuid
  split
  · next content hcontent =>
    rw [decide_eq_true_iff]
    constructor
    · exact fun h => ⟨content, hcontent, h⟩
    · rintro ⟨content', heq, hheader⟩
      rw [hcontent] at heq
      cases heq
      exact hheader
  · next hno =>
    refine ⟨nofun, ?_⟩
    rintro ⟨content, hcontent, -⟩
    exact absurd hcontent (hno content)

theorem curSpid_of_file {path : List String} {bytes : List UInt8}
    (h : s.get? path = some (.file bytes)) : curSpid s path = spidIn bytes := by
  unfold curSpid
  rw [h]
  rfl

/-- What is looked for in the registry is the spid of an application that goes with the trustlet. -/
theorem WellKept.isSPTA_iff (hs : WellKept s) {uuid : Uuid} {spid : Spid} {name : String} :
    name ∈ s.entries mcRegistryDataPath ∧ isSPTA s uuid spid name = true ↔
      ∃ app, name = taSpidName app ∧ GoesWith (contents s) uuid spid app := by
  constructor
  · rintro ⟨hentry, hname⟩
    have hpresent := Option.isSome_iff_ne_none.mp (mem_entries.mp hentry)
    unfold isSPTA at hname
    cases hbase : baseOf ".spid" name with
    | none =>
      rw [hbase] at hname
      cases hname
    | some base =>
      rw [hbase] at hname
      obtain ⟨hspid, hbin⟩ := Bool.and_eq_true_iff.mp hname
      obtain rfl := baseOf_eq_some hbase
      obtain ⟨app, rfl⟩ := hs.spid base hpresent
      obtain ⟨content, hcontent, hheader⟩ := mcCheckUuid_iff.mp hbin
      refine ⟨app, rfl, ?_, content, hs.get?_eq_file (o := .taBin app) |>.mp hcontent, hheader⟩
      cases hbytes : contents s (.taSpid app) with
      | none =>
        refine absurd ?_ hpresent
        show s.get? (RegistryObject.taSpid app).path = none
        rw [hs.get?_path, hbytes]
        rfl
      | some bytes =>
        have hfile : s.get? (inRegistry (taSpidName app)) = some (.file bytes) :=
          hs.get?_eq_file (o := .taSpid app) |>.mpr hbytes
        refine ⟨bytes, rfl, ?_⟩
        rw [← curSpid_of_file hfile]
        exact of_decide_eq_true hspid
  · rintro ⟨app, rfl, ⟨bytes, hbytes, hspid⟩, content, hcontent, hheader⟩
    have hfile : s.get? (inRegistry (taSpidName app)) = some (.file bytes) :=
      hs.get?_eq_file (o := .taSpid app) |>.mpr hbytes
    refine ⟨mem_entries.mpr (Option.isSome_iff_exists.mpr ⟨_, hfile⟩), ?_⟩
    have hbase : baseOf ".spid" (taSpidName app) = some (byteArrayToString app.toList) :=
      baseOf_append _ _
    have hcheck : mcCheckUuid s uuid (getTABinFilePath app) = true :=
      mcCheckUuid_iff.mpr ⟨content, hs.get?_eq_file (o := .taBin app) |>.mpr hcontent, hheader⟩
    have hcur := (curSpid_of_file hfile).trans hspid
    unfold isSPTA
    rw [hbase]
    exact Bool.and_eq_true_iff.mpr ⟨decide_eq_true hcur, hcheck⟩

/-- **The application that goes.** -/
theorem WellKept.deleteSPTA (hs : WellKept s) (uuid : Uuid) (spid : Spid) :
    (Registry.deleteSPTA s uuid spid = s ∧ ∀ app, ¬ GoesWith (contents s) uuid spid app) ∨
      ∃ app, GoesWith (contents s) uuid spid app ∧
        Removes (applicationOf app) s (Registry.deleteSPTA s uuid spid) := by
  unfold Registry.deleteSPTA
  rw [if_pos (isDir_iff.mpr hs.data)]
  cases hfind : (s.entries mcRegistryDataPath).find? (isSPTA s uuid spid) with
  | none =>
    refine .inl ⟨rfl, fun app happ => ?_⟩
    obtain ⟨hentry, hname⟩ := hs.isSPTA_iff.mpr ⟨app, rfl, happ⟩
    exact List.find?_eq_none.mp hfind _ hentry hname
  | some name =>
    have hname := List.find?_some hfind
    obtain ⟨app, rfl, happ⟩ := hs.isSPTA_iff.mp ⟨List.mem_of_find?_eq_some hfind, hname⟩
    refine .inr ⟨app, happ, ?_⟩
    have hbase : baseOf ".spid" (taSpidName app) = some (byteArrayToString app.toList) :=
      baseOf_append _ _
    dsimp only
    rw [hbase]
    have hstorage := cleanupGPTAStorage_removes s app
    have hbin := ((hstorage.wellKept hs).remove (o := .taBin app) nofun).1
    have hspid := ((hbin.wellKept (hstorage.wellKept hs)).remove (o := .taSpid app) nofun).1
    have hall := (hstorage.trans hbin).trans hspid
    rwa [Set.empty_union] at hall

/-- **The binary of a trustlet**, or an application. -/
theorem WellKept.removeBinary (hs : WellKept s) (uuid : Uuid) (spid : Spid) :
    WellKept (Registry.removeBinary s uuid spid) ∧
      BinaryRemoved (contents s) uuid spid (contents (Registry.removeBinary s uuid spid)) := by
  unfold Registry.removeBinary
  have hpresent : s.exists? (getTlBinFilePath uuid) = true ↔ contents s (.tlBin uuid) ≠ none := by
    show (s.get? (RegistryObject.tlBin uuid).path).isSome = true ↔ _
    rw [hs.get?_path, Option.isSome_map, Option.isSome_iff_ne_none]
  by_cases htl : s.exists? (getTlBinFilePath uuid) = true
  · rw [if_pos htl]
    have hremoves : Removes {.tlBin uuid} s (s.remove (getTlBinFilePath uuid)).2 :=
      (hs.remove (o := .tlBin uuid) nofun).1
    refine ⟨hremoves.wellKept hs, ?_⟩
    rw [hremoves.contents_eq]
    exact .legacy (hpresent.mp htl)
  · rw [if_neg htl]
    have habsent : contents s (.tlBin uuid) = none := by
      by_contra hne
      exact htl (hpresent.mpr hne)
    rcases hs.deleteSPTA uuid spid with ⟨hsame, hno⟩ | ⟨app, happ, hremoves⟩
    · rw [hsame]
      exact ⟨hs, .neither habsent hno⟩
    · rw [hremoves.contents_eq]
      exact ⟨hremoves.wellKept hs, .application habsent happ⟩

/-! ## Clean-up -/

/-- **A trustlet is cleaned up** as the map says. -/
theorem meets_cleanupTrustlet (spid : Spid) :
    Meets WellKept contents (fun s uuid => mcRegistryCleanupTrustlet s uuid spid)
      (trustletCleaned · spid ·) := by
  intro s uuid hs
  obtain ⟨hok, hdata⟩ := hs.clearData uuid
  have ht := hdata.wellKept hs
  obtain ⟨hbin, hremoved⟩ := ht.removeBinary uuid spid
  rw [hdata.contents_eq] at hremoved
  obtain ⟨hcont, hresult⟩ := hbin.removeCont (o := .tlCont uuid spid) nofun
  have hstep : mcRegistryCleanupTrustlet s uuid spid = removeCont
      (removeBinary (Registry.clearData s (getTlDataPath uuid)).2 uuid spid)
      (getTlContFilePath uuid spid) := if_pos hok
  dsimp only
  rw [hstep]
  exact ⟨hcont, _, hremoved, hresult⟩

/-- Going on behind a good result. -/
theorem onOk_meets {P : Outcomes McResult Objects} {Q : Objects → Outcomes McResult Objects}
    {r : McResult × Fs} {f : Fs → McResult × Fs} (hr : WellKept r.2 ∧ P r.1 (contents r.2))
    (hf : ∀ t, WellKept t → WellKept (f t).2 ∧ Q (contents t) (f t).1 (contents (f t).2)) :
    WellKept (onOk r f).2 ∧
      andThen mcDrvOk P Q (onOk r f).1 (contents (onOk r f).2) := by
  unfold onOk
  split_ifs with hok
  · obtain ⟨hkept, hlast⟩ := hf r.2 hr.1
    exact ⟨hkept, .inl ⟨_, hok ▸ hr.2, hlast⟩⟩
  · exact ⟨hr.1, .inr ⟨hok, hr.2⟩⟩

/-- The container at the end, as an outcome. -/
theorem meets_removeCont (ho : ∀ uuid pid, o ≠ .tlData uuid pid) (hs : WellKept s) :
    WellKept (removeCont s o.path).2 ∧
      just (remove (contents s) o).1 (remove (contents s) o).2 (removeCont s o.path).1
        (contents (removeCont s o.path).2) := by
  obtain ⟨hkept, hresult⟩ := hs.removeCont ho
  exact ⟨hkept, congrArg Prod.fst hresult, congrArg Prod.snd hresult⟩

/-- **And so is a service provider.** -/
theorem meets_cleanupSp : Meets WellKept contents mcRegistryCleanupSp spCleaned := by
  intro s spid hs
  have hread : mcRegistryReadSp s spid sizeofSpCont =
      ReadCall.onMap (contents s) (.sp spid sizeofSpCont) := by
    show _ = ite _ _ _
    unfold mcRegistryReadSp
    rw [show readFile s (getSpContFilePath spid) _ = _ from hs.readFile_eq (.sp spid) _]
  unfold mcRegistryCleanupSp spCleaned withContainer
  rw [hread]
  cases ReadCall.onMap (contents s) (.sp spid sizeofSpCont) with
  | error ret => exact ⟨hs, just_self ret _⟩
  | ok data =>
    dsimp only
    split_ifs with hshort
    · exact ⟨hs, just_self mcDrvOk _⟩
    · refine onOk_meets ((meets_cleanupTrustlet spid).whileOk mcDrvOk hs _) fun t ht => ?_
      -- there is no directory of the service provider
      have hdata : Registry.clearData t (getSpDataPath spid) = (mcDrvOk, t) := by
        have hclear : clearDir isHidden t (getSpDataPath spid) = (true, t) :=
          if_neg fun hdir => ht.spData spid (isDir_iff.mp hdir)
        unfold Registry.clearData
        rw [hclear]
        rfl
      rw [hdata, onOk, if_pos rfl]
      exact meets_removeCont (o := .sp spid) (fun _ _ h => by cases h) ht

/-- **And the root.** -/
theorem meets_cleanupRoot (hs : WellKept s) : WellKept (mcRegistryCleanupRoot s).2 ∧
    rootCleaned (contents s) (mcRegistryCleanupRoot s).1 (contents (mcRegistryCleanupRoot s).2) := by
  have hread : mcRegistryReadRoot s sizeofRootCont =
      ReadCall.onMap (contents s) (.root sizeofRootCont) := hs.readFile_eq .root _
  unfold mcRegistryCleanupRoot rootCleaned withContainer
  rw [hread]
  cases ReadCall.onMap (contents s) (.root sizeofRootCont) with
  | error ret => exact ⟨hs, just_self ret _⟩
  | ok data =>
    dsimp only
    split_ifs with hshort
    · exact ⟨hs, just_self mcDrvOk _⟩
    · exact onOk_meets (meets_cleanupSp.whileOk mcDrvOk hs _) fun t ht =>
        meets_removeCont (o := .root) (fun _ _ h => by cases h) ht

end Removals

end McDaemon.Registry
