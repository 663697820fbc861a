/-
# McDaemon.Registry.ObjectMap — the registry as a map of objects.

The map takes an object to its bytes.  Reads and stores are operations of the map; where the files
are, and which directories are made for them, does not show.  A registry that is well kept has files
of objects where objects go, a directory of data exactly for the trustlets that have data, and no
other `.spid` files than those of applications.
-/
import McDaemon.Lib.Spec
import McDaemon.Registry.ObjectFrames
import McDaemon.Registry.Reach

namespace McDaemon.Registry

open McDaemon.Lib
open McDaemon.Lib.FileSystem

/-! ## The map -/

/-- The objects, with their bytes. -/
abbrev Objects := RegistryObject → Option (List UInt8)

/-- The bytes of a node, if it is a file. -/
def bytesOf : Option Node → Option (List UInt8)
  | some (.file content) => some content
  | _ => none

/-- The map that the registry holds. -/
def contents (s : Fs) : Objects := fun o => bytesOf (s.get? o.path)

/-- Reading as much of an object as there is room for. -/
def readBytes (size : Nat) : Option (List UInt8) → Except McResult (List UInt8)
  | none => .error mcDrvErrInvalidDeviceFile
  | some content =>
    if content.take size = [] then .error mcDrvErrInvalidDeviceFile else .ok (content.take size)

/-- Reading the token, which has to be of its size. -/
def readToken : Option (List UInt8) → Except McResult (List UInt8)
  | none => .error mcDrvErrInvalidDeviceFile
  | some content =>
    if content.length % 2 ^ 32 ≠ sizeofAuthTokenCont then .error mcDrvErrOutOfResources
    else .ok (content.take sizeofAuthTokenCont)

/-- Reading data, whose size is in its header. -/
def readDataObject (maxLen : UInt32) : Option (List UInt8) → Except McResult (List UInt8)
  | none => .error mcDrvErrInvalidDeviceFile
  | some content =>
    if maxLen < UInt32.ofNat content.length then .error mcDrvErrOutOfResources
    else if content.length < sizeofSoHeader then .error mcDrvErrInvalidParameter
    else if soSize (Memory.ofList content) < sizeofSoHeader ∨
        content.length < soSize (Memory.ofList content) then .error mcDrvErrInvalidParameter
    else .ok (content.take (soSize (Memory.ofList content)))

/-- The read operations, with their arguments. -/
inductive ReadCall where
  | authToken
  | root (size : Nat)
  | sp (spid : Spid) (size : Nat)
  | tlCont (uuid : Uuid) (spid : Spid) (size : Nat)
  | tlData (context : UInt32) (uuid : Uuid) (pid : Pid) (maxLen : UInt32)

namespace ReadCall

/-- The call of the operation. -/
def call (authTokenPath : Option (List String)) (s : Fs) : ReadCall → Except McResult (List UInt8)
  | authToken => mcRegistryReadAuthToken authTokenPath s
  | root size => mcRegistryReadRoot s size
  | sp spid size => mcRegistryReadSp s spid size
  | tlCont uuid spid size => mcRegistryReadTrustletCon s uuid spid size
  | tlData context uuid pid maxLen => mcRegistryReadData s context uuid pid maxLen

/-- What the map answers. -/
def onMap (c : Objects) : ReadCall → Except McResult (List UInt8)
  | authToken => readToken (c .authToken)
  | root size => readBytes size (c .root)
  | sp spid size =>
    if spid = 0 then .error mcDrvErrInvalidParameter else readBytes size (c (.sp spid))
  | tlCont uuid spid size => readBytes size (c (.tlCont uuid spid))
  | tlData context uuid pid maxLen =>
    if context ≠ 1 then .error mcDrvErrInvalidParameter
    else readDataObject maxLen (c (.tlData uuid pid))

end ReadCall

/-- The trustlet has data of some process. -/
def HasData (c : Objects) (uuid : Uuid) : Prop := ∃ pid, c (.tlData uuid pid) ≠ none

open scoped Classical in
/-- Storing data: a trustlet has the data of one process at a time. -/
noncomputable def storeDataOnMap (c : Objects) (so : Memory) (size : Nat) : McResult × Objects :=
  if size ≠ sizeofSoDataCont ∨ contType so ≠ contTypeTlData ∨
      HasData c (contUuid so) then (mcDrvErrInvalidParameter, c)
  else
    (mcDrvOk, Function.update c (.tlData (contUuid so) (contPid so))
      (some (so.slice ⟨0, soSize so⟩)))

/-- Storing an application, which has a spid if it is one of a service provider. -/
def storeTABlobOnMap (c : Objects) (spid : Spid) (blob : Memory) (size : UInt32) :
    McResult × Objects :=
  match (checkTABlob spid blob size).result with
  | .error e => (e, c)
  | .ok uuid =>
    let stored := Function.update c (.taBin uuid) (some (blob.slice ⟨0, size.toNat⟩))
    (mcDrvOk, if serviceType blob = serviceTypeSpTrustlet then
      Function.update stored (.taSpid uuid) (some (le32 spid)) else stored)

/-- What the map answers to a store, and the map behind it. -/
noncomputable def StoreCall.onMap (c : Objects) : StoreCall → McResult × Objects
  | authToken so =>
    if so.length > 3 * maxSoContSize then (mcDrvErrInvalidParameter, c)
    else (mcDrvOk, Function.update c .authToken (some so))
  | root so =>
    if so.length > 3 * maxSoContSize then (mcDrvErrInvalidParameter, c)
    else (mcDrvOk, Function.update c .root (some so))
  | sp spid so =>
    if spid = 0 ∨ so.length > 3 * maxSoContSize then (mcDrvErrInvalidParameter, c)
    else (mcDrvOk, Function.update c (.sp spid) (some so))
  | tlCont uuid spid so =>
    if so.length > 3 * maxSoContSize then (mcDrvErrInvalidParameter, c)
    else (mcDrvOk, Function.update c (.tlCont uuid spid) (some so))
  | tlData so size => storeDataOnMap c so size
  | taBlob spid blob size => storeTABlobOnMap c spid blob size

/-! ## Well-kept registries -/

structure WellKept (s : Fs) : Prop where
  fault : s.fault = none
  data : s.get? mcRegistryDataPath = some .dir
  files : ∀ o : RegistryObject, s.get? o.path ≠ some .dir
  /-- A directory of data is there with the data in it. -/
  dir : ∀ uuid, s.get? (getTlDataPath uuid) = none ∨
    s.get? (getTlDataPath uuid) = some .dir ∧ ∃ pid, s.get? (getTlDataFilePath uuid pid) ≠ none
  /-- And nothing else is in it. -/
  entry : ∀ uuid n, s.get? (getTlDataPath uuid ++ [n]) ≠ none →
    s.get? (getTlDataPath uuid) ≠ none ∧
      ∃ pid, getTlDataPath uuid ++ [n] = getTlDataFilePath uuid pid
  spData : ∀ spid, s.get? (getSpDataPath spid) ≠ some .dir
  spid : ∀ base, s.get? (inRegistry (base ++ ".spid")) ≠ none →
    ∃ uuid : Uuid, base = byteArrayToString uuid.toList

section Reads

variable {s t : Fs} {o : RegistryObject} {authTokenPath : Option (List String)}

theorem WellKept.get?_path (hs : WellKept s) (o : RegistryObject) :
    s.get? o.path = (contents s o).map .file := by
  unfold contents
  cases hnode : s.get? o.path with
  | none => rfl
  | some n =>
    cases n with
    | dir => exact absurd hnode (hs.files o)
    | file content => rfl

theorem WellKept.readFile_eq (hs : WellKept s) (o : RegistryObject) (size : Nat) :
    readFile s o.path size = readBytes size (contents s o) := by
  unfold readFile
  rw [hs.get?_path o]
  cases contents s o with
  | none => rfl
  | some content => rfl

/-- **Reads** give what the map gives. -/
theorem WellKept.read (hs : WellKept s) (htoken : TokenInRegistry authTokenPath s) (r : ReadCall) :
    r.call authTokenPath s = r.onMap (contents s) := by
  cases r with
  | authToken =>
    show mcRegistryReadAuthToken authTokenPath s = readToken (contents s .authToken)
    unfold mcRegistryReadAuthToken
    rw [getAuthTokenFilePath_of_inRegistry htoken, hs.get?_path]
    cases contents s .authToken with
    | none => rfl
    | some content => rfl
  | root size => exact hs.readFile_eq .root size
  | sp spid size =>
    show mcRegistryReadSp s spid size = _
    unfold mcRegistryReadSp ReadCall.onMap
    rw [show readFile s (getSpContFilePath spid) size = _ from hs.readFile_eq (.sp spid) size]
  | tlCont uuid spid size => exact hs.readFile_eq (.tlCont uuid spid) size
  | tlData context uuid pid maxLen =>
    show mcRegistryReadData s context uuid pid maxLen =
      if context ≠ 1 then .error mcDrvErrInvalidParameter
      else readDataObject maxLen (contents s (.tlData uuid pid))
    unfold mcRegistryReadData
    rw [show s.get? (getTlDataFilePath uuid pid) = _ from hs.get?_path (.tlData uuid pid)]
    cases contents s (.tlData uuid pid) with
    | none => rfl
    | some content => rfl

end Reads

/-! ## Stores -/

section Stores

variable {s t : Fs} {o : RegistryObject} {content : List UInt8}

/-- A file with the extension of a spid file has the name of one, if it is an object's. -/
theorem uuid_of_spid_path {base : String} (h : inRegistry (base ++ ".spid") = o.path) :
    ∃ uuid : Uuid, base = byteArrayToString uuid.toList := by
  rw [RegistryObject.path_eq] at h
  obtain ⟨-, hname⟩ := List.append_inj' h rfl
  have hchars : base.toList ++ '.' :: ObjectKind.taSpid.extension.toList =
      o.digits ++ '.' :: o.kind.extension.toList := by
    rw [← RegistryObject.toList_fileName, ← (List.cons.inj hname).1, String.toList_append]
    rfl
  obtain ⟨hdigits, hext⟩ := RegistryObject.append_dot_inj
    (RegistryObject.dot_notMem_extension _) (RegistryObject.dot_notMem_extension _) hchars
  have hkind := RegistryObject.extension_inj hext
  cases o with
  | taSpid uuid => exact ⟨uuid, String.toList_inj.mp hdigits⟩
  | authToken | root | sp spid | tlCont uuid spid | tlData uuid pid | tlBin uuid | taBin uuid =>
    cases hkind

theorem contents_update (hget : ∀ q, t.get? q = if q = o.path then some (.file content)
    else s.get? q) : contents t = Function.update (contents s) o (some content) := by
  funext o'
  unfold contents
  rw [hget]
  by_cases ho : o' = o
  · rw [ho, if_pos rfl, Function.update_self]
    rfl
  · rw [if_neg (RegistryObject.path_ne ho), Function.update_of_ne ho]

/-- **A file that is written.** -/
theorem WellKept.written (hs : WellKept s) (ho : ∀ uuid pid, o ≠ .tlData uuid pid)
    (hfault : t.fault = none)
    (hget : ∀ q, t.get? q = if q = o.path then some (.file content) else s.get? q) :
    WellKept t := by
  have hother : ∀ {q}, q ≠ o.path → t.get? q = s.get? q := fun hq => (hget _).trans (if_neg hq)
  have hdir : ∀ uuid, t.get? (getTlDataPath uuid) = s.get? (getTlDataPath uuid) := fun uuid =>
    hother (o.path_ne_getTlDataPath uuid).symm
  have hstays : ∀ {q}, s.get? q ≠ none → t.get? q ≠ none := by
    intro q hq
    rw [hget]
    split_ifs
    · exact Option.some_ne_none _
    · exact hq
  have hnoDir : ∀ {q}, s.get? q ≠ some .dir → t.get? q ≠ some .dir := by
    intro q hq
    rw [hget]
    split_ifs
    · simp
    · exact hq
  refine ⟨hfault, ?_, fun o' => hnoDir (hs.files o'), fun uuid => ?_, fun uuid n hn => ?_,
    fun spid => hnoDir (hs.spData spid), fun base hbase => ?_⟩
  · rw [hother fun h => absurd (congrArg List.length h) (Nat.ne_of_lt o.length_path)]
    exact hs.data
  · rw [hdir]
    exact (hs.dir uuid).imp_right fun ⟨hd, pid, hpid⟩ => ⟨hd, pid, hstays hpid⟩
  · -- the file is in no directory of data
    have hne : getTlDataPath uuid ++ [n] ≠ o.path := by
      intro h
      obtain ⟨pid, hpid⟩ := RegistryObject.getTlDataPath_prefix_iff.mp ⟨[n], h⟩
      exact ho uuid pid hpid
    rw [hother hne] at hn
    rw [hdir]
    exact hs.entry uuid n hn
  · by_cases hpath : inRegistry (base ++ ".spid") = o.path
    · exact uuid_of_spid_path hpath
    · rw [hother hpath] at hbase
      exact hs.spid base hbase

theorem WellKept.storeFile (hs : WellKept s) (ho : ∀ uuid pid, o ≠ .tlData uuid pid)
    (so : List UInt8) : ∃ t, storeFile s o.path so = (mcDrvOk, t) ∧ WellKept t ∧
      contents t = Function.update (contents s) o (some so) := by
  have hpath : o.path = inRegistry o.fileName := by
    rcases o.directory_eq with hdir | ⟨uuid, pid, rfl, -⟩
    · rw [RegistryObject.path_eq, hdir]
      rfl
    · exact absurd rfl (ho uuid pid)
  obtain ⟨t, hstore⟩ := @storeFile_inRegistry s o.fileName so hs.data
    (isDir_eq_false (hpath ▸ hs.files o))
  rw [← hpath] at hstore
  have hget := get?_storeFile hstore
  have hfault : t.fault = s.fault := by
    unfold Registry.storeFile at hstore
    split at hstore
    · cases hstore
    · next u hu =>
      cases hstore
      exact fault_writeFile hu
  exact ⟨t, hstore, hs.written ho (hfault.trans hs.fault) hget, contents_update hget⟩

/-- A trustlet has data exactly if its directory is there. -/
theorem WellKept.has_data_iff (hs : WellKept s) (uuid : Uuid) :
    HasData (contents s) uuid ↔ s.get? (getTlDataPath uuid) ≠ none := by
  constructor
  · rintro ⟨pid, hpid⟩
    have hfile : s.get? (getTlDataPath uuid ++ [uint32ToString pid ++ ".datacont"]) ≠ none := by
      intro hnone
      exact hpid (congrArg bytesOf hnone)
    exact (hs.entry uuid _ hfile).1
  · intro hdir
    obtain ⟨-, pid, hpid⟩ := (hs.dir uuid).resolve_left hdir
    refine ⟨pid, fun hnone => hpid ?_⟩
    show s.get? (RegistryObject.tlData uuid pid).path = none
    rw [hs.get?_path, hnone]
    rfl

theorem fault_mkdir {p : List String} (h : s.mkdir p = some t) : t.fault = s.fault := by
  unfold mkdir at h
  split_ifs at h
  cases h
  rfl

/-- The name of a service provider's directory is shorter. -/
theorem getSpDataPath_ne_getTlDataPath (spid : Spid) (uuid : Uuid) :
    getSpDataPath spid ≠ getTlDataPath uuid := by
  intro h
  have hlen := congrArg (fun name => name.toList.length) (inRegistry_inj h)
  simp at hlen

/-- A directory that is made for a file of data. -/
theorem WellKept.withData (hs : WellKept s) {uuid : Uuid} {pid : Pid}
    (habsent : s.get? (getTlDataPath uuid) = none) (hfault : t.fault = none)
    (hget : ∀ q, t.get? q = if q = getTlDataFilePath uuid pid then some (.file content)
      else if q = getTlDataPath uuid then some .dir else s.get? q) : WellKept t := by
  have hdir : ∀ uuid', t.get? (getTlDataPath uuid') =
      if uuid' = uuid then some .dir else s.get? (getTlDataPath uuid') := by
    intro uuid'
    rw [hget, if_neg (getTlDataFilePath_ne uuid pid uuid').symm]
    by_cases heq : uuid' = uuid
    · rw [heq, if_pos rfl, if_pos rfl]
    · rw [if_neg fun h => heq (getTlDataPath_inj h), if_neg heq]
  have hother : ∀ {q}, q.length ≠ 5 → (∀ uuid, q ≠ getTlDataPath uuid) → t.get? q = s.get? q := by
    intro q hlen hq
    rw [hget, if_neg fun h => hlen (congrArg List.length h), if_neg (hq uuid)]
  refine ⟨hfault, ?_, fun o => ?_, fun uuid' => ?_, fun uuid' n hn => ?_, fun spid => ?_,
    fun base hbase => ?_⟩
  · rw [hother (q := mcRegistryDataPath) (by decide) fun _ h =>
      absurd (congrArg List.length h) (show ¬ 3 = 4 by decide)]
    exact hs.data
  · rw [hget, if_neg (o.path_ne_getTlDataPath uuid)]
    split_ifs
    · simp
    · exact hs.files o
  · rw [hdir]
    by_cases heq : uuid' = uuid
    · refine .inr ⟨if_pos heq, pid, ?_⟩
      rw [heq, hget, if_pos rfl]
      exact Option.some_ne_none _
    · rw [if_neg heq]
      refine (hs.dir uuid').imp_right fun ⟨hd, pid', hpid⟩ => ⟨hd, pid', ?_⟩
      rw [hget, if_neg fun h => heq (getTlDataFilePath_inj h).1,
        if_neg (getTlDataFilePath_ne uuid' pid' uuid)]
      exact hpid
  · by_cases heq : getTlDataPath uuid' ++ [n] = getTlDataFilePath uuid pid
    · obtain ⟨hpath, -⟩ := List.append_inj' heq rfl
      obtain rfl := getTlDataPath_inj hpath
      refine ⟨?_, pid, heq⟩
      rw [hdir, if_pos rfl]
      exact Option.some_ne_none _
    · have hlong : getTlDataPath uuid' ++ [n] ≠ getTlDataPath uuid := fun h =>
        absurd (congrArg List.length h) (show ¬ 5 = 4 by decide)
      rw [hget, if_neg heq, if_neg hlong] at hn
      obtain ⟨hthere, hpid⟩ := hs.entry uuid' n hn
      refine ⟨?_, hpid⟩
      rw [hdir]
      split_ifs
      · exact Option.some_ne_none _
      · exact hthere
  · by_cases hdata : getSpDataPath spid = getTlDataPath uuid
    · exact absurd hdata (getSpDataPath_ne_getTlDataPath spid uuid)
    · have hshort : getSpDataPath spid ≠ getTlDataFilePath uuid pid := fun h =>
        absurd (congrArg List.length h) (show ¬ 4 = 5 by decide)
      rw [hget, if_neg hshort, if_neg hdata]
      exact hs.spData spid
  · have hne : ∀ uuid', inRegistry (base ++ ".spid") ≠ getTlDataPath uuid' := fun uuid' h =>
      not_isDataName_append (by decide)
        (inRegistry_inj h ▸ isDataName_byteArrayToString uuid'.toList)
    rw [hother (show (inRegistry (base ++ ".spid")).length ≠ 5 from (by decide : 4 ≠ 5)) hne]
      at hbase
    exact hs.spid base hbase

/-- **Data that is stored**, with its directory. -/
theorem WellKept.storeData (hs : WellKept s) {uuid : Uuid}
    (habsent : s.get? (getTlDataPath uuid) = none) (pid : Pid) (so : List UInt8) :
    ∃ t u, s.mkdir (getTlDataPath uuid) = some t ∧
      Registry.storeFile t (getTlDataFilePath uuid pid) so = (mcDrvOk, u) ∧ WellKept u ∧
      contents u = Function.update (contents s) (.tlData uuid pid) (some so) := by
  obtain ⟨t, hmkdir, hnew⟩ := mkdir_spec (n := byteArrayToString uuid.toList) hs.data habsent
  have ht : ∀ q, t.get? q = if q = getTlDataPath uuid then some .dir else s.get? q := hnew
  have hfile : t.get? (getTlDataFilePath uuid pid) ≠ some .dir := by
    rw [ht, if_neg (getTlDataFilePath_ne uuid pid uuid)]
    exact hs.files (.tlData uuid pid)
  obtain ⟨u, hwrite⟩ := writeFile_of_dir ((ht _).trans (if_pos rfl)) hfile so
  have hu : ∀ q, u.get? q = if q = getTlDataFilePath uuid pid then some (.file so)
      else if q = getTlDataPath uuid then some .dir else s.get? q := by
    intro q
    rw [get?_writeFile hwrite, ht]
    rfl
  have hstore : Registry.storeFile t (getTlDataFilePath uuid pid) so = (mcDrvOk, u) := by
    unfold Registry.storeFile
    rw [show t.writeFile (getTlDataFilePath uuid pid) so = some u from hwrite]
  refine ⟨t, u, hmkdir, hstore, ?_, ?_⟩
  · have hfault := (fault_writeFile hwrite).trans ((fault_mkdir hmkdir).trans hs.fault)
    exact hs.withData habsent hfault hu
  · funext o
    unfold contents
    rw [hu]
    by_cases ho : o = .tlData uuid pid
    · rw [ho, Function.update_self]
      exact congrArg bytesOf (if_pos rfl)
    · have hne : o.path ≠ getTlDataFilePath uuid pid := RegistryObject.path_ne ho
      rw [Function.update_of_ne ho, if_neg hne, if_neg (o.path_ne_getTlDataPath uuid)]

/-- What an operation is on the map. -/
def OnMap (r : McResult × Fs) (m : McResult × Objects) : Prop :=
  WellKept r.2 ∧ m = (r.1, contents r.2)

theorem WellKept.refused (hs : WellKept s) (r : McResult) : OnMap (r, s) (r, contents s) :=
  ⟨hs, rfl⟩

theorem WellKept.storeFile_onMap (hs : WellKept s) (ho : ∀ uuid pid, o ≠ .tlData uuid pid)
    (so : List UInt8) : OnMap (Registry.storeFile s o.path so)
      (mcDrvOk, Function.update (contents s) o (some so)) := by
  obtain ⟨t, hstore, ht, hcontents⟩ := hs.storeFile ho so
  rw [hstore, ← hcontents]
  exact ⟨ht, rfl⟩

theorem WellKept.storeTABlob (hs : WellKept s) (spid : Spid) (blob : Memory) (size : UInt32) :
    OnMap (mcRegistryStoreTABlob s spid blob size).2
      (storeTABlobOnMap (contents s) spid blob size) := by
  unfold mcRegistryStoreTABlob storeTABlobOnMap
  dsimp only
  cases (checkTABlob spid blob size).result with
  | error e => exact hs.refused e
  | ok uuid =>
    obtain ⟨t, hstore, ht, hcontents⟩ := hs.storeFile (o := .taBin uuid) nofun
      (blob.slice ⟨0, size.toNat⟩)
    dsimp only
    rw [show Registry.storeFile s (getTABinFilePath uuid) _ = _ from hstore]
    dsimp only
    rw [if_neg (not_not.mpr rfl), ← hcontents]
    split_ifs
    · exact ht.storeFile_onMap (o := .taSpid uuid) nofun (le32 spid)
    · exact ⟨ht, rfl⟩

theorem WellKept.storeDataCont (hs : WellKept s) (so : Memory) (size : Nat) :
    OnMap (mcRegistryStoreData s so size) (storeDataOnMap (contents s) so size) := by
  unfold mcRegistryStoreData storeDataOnMap
  by_cases hsize : size ≠ sizeofSoDataCont
  · rw [if_pos hsize, if_pos (.inl hsize)]
    exact hs.refused _
  by_cases htype : contType so ≠ contTypeTlData
  · rw [if_neg hsize, if_pos htype, if_pos (.inr (.inl htype))]
    exact hs.refused _
  rw [if_neg hsize, if_neg htype]
  by_cases habsent : s.get? (getTlDataPath (contUuid so)) = none
  · obtain ⟨t, u, hmkdir, hstore, hu, hcontents⟩ := hs.storeData habsent (contPid so)
      (so.slice ⟨0, soSize so⟩)
    have hnone : ¬ HasData (contents s) (contUuid so) := fun h =>
      (hs.has_data_iff _).mp h habsent
    rw [if_neg (not_or.mpr ⟨hsize, not_or.mpr ⟨htype, hnone⟩⟩), hmkdir]
    dsimp only
    rw [hstore, ← hcontents]
    exact ⟨hu, rfl⟩
  · rw [if_pos (.inr (.inr ((hs.has_data_iff _).mpr habsent))), mkdir_of_exists habsent]
    exact hs.refused _

/-- **Stores** are those of the map. -/
theorem WellKept.store (hs : WellKept s) {authTokenPath : Option (List String)}
    (htoken : TokenInRegistry authTokenPath s) (c : StoreCall) :
    OnMap (c.call authTokenPath s) (c.onMap (contents s)) := by
  cases c with
  | authToken so =>
    show OnMap (mcRegistryStoreAuthToken authTokenPath s so) (ite _ _ _)
    unfold mcRegistryStoreAuthToken
    rw [getAuthTokenFilePath_of_inRegistry htoken]
    split_ifs
    · exact hs.refused _
    · exact hs.storeFile_onMap (o := .authToken) nofun so
  | root so =>
    show OnMap (ite _ _ _) (ite _ _ _)
    split_ifs
    · exact hs.refused _
    · exact hs.storeFile_onMap (o := .root) nofun so
  | sp spid so =>
    show OnMap (ite _ _ _) (ite _ _ _)
    split_ifs
    · exact hs.refused _
    · exact hs.storeFile_onMap (o := .sp spid) nofun so
  | tlCont uuid spid so =>
    show OnMap (ite _ _ _) (ite _ _ _)
    split_ifs
    · exact hs.refused _
    · exact hs.storeFile_onMap (o := .tlCont uuid spid) nofun so
  | tlData so size => exact hs.storeDataCont so size
  | taBlob spid blob size => exact hs.storeTABlob spid blob size

end Stores

end McDaemon.Registry
