/-
# McDaemon.Registry.DataContainers — storing and reading the data of trustlets.

A data container is a secure object of one size, but the header inside it says how much of it is
stored.  The data of a trustlet lies in a directory of its own, which every store makes anew; a
store that finds the directory there fails.
-/
import McDaemon.Lib.FileSteps
import McDaemon.Registry.Objects

namespace McDaemon.Registry

open McDaemon.Lib

/-! ## Secure objects -/

/-- `sizeof(mcSoHeader_t)`. -/
def sizeofSoHeader : Nat := 44

/-- `sizeof(mcSoDataCont_t)`. -/
def sizeofSoDataCont : Nat := 2168

/-- `MC_SO_PAYLOAD_MAX_SIZE`. -/
def mcSoPayloadMaxSize : UInt32 := 1000000

/-- `MC_SO22_HASH_SIZE`. -/
def mcSo22HashSize : Nat := 32

/-- `MC_SO22_RND_SIZE`. -/
def mcSo22RndSize : Nat := 16

/-- `MC_SO_SIZE`: zero if the payload is too long, or its length does not go into 32 bits. -/
def mcSoSize (plainLen encryptedLen : UInt32) : Nat :=
  if plainLen + encryptedLen < encryptedLen ∨ plainLen + encryptedLen > mcSoPayloadMaxSize then 0
  else sizeofSoHeader + plainLen.toNat + encryptedLen.toNat + mcSo22HashSize + mcSo22RndSize

/-- `CONT_TYPE_TLDATA`. -/
def contTypeTlData : Nat := 5

/-- A word from its bytes. -/
def wordOf (bytes : List UInt8) : UInt32 := UInt32.ofNat (ofLe bytes)

/-- A word of a secure object. -/
def soWord (so : Memory) (offset : Nat) : UInt32 := wordOf (so.slice ⟨offset, 4⟩)

/-- `soHeader.plainLen`. -/
def plainLen (so : Memory) : UInt32 := soWord so 36

/-- `soHeader.encryptedLen`. -/
def encryptedLen (so : Memory) : UInt32 := soWord so 40

/-- The size of a secure object, as its header says. -/
def soSize (so : Memory) : Nat := mcSoSize (plainLen so) (encryptedLen so)

/-- `cont.type` of a data container. -/
def contType (so : Memory) : Nat := ofLe (so.slice ⟨44, 4⟩)

/-- `cont.uuid`. -/
def contUuid (so : Memory) : Uuid := uuidOf (so.slice ⟨52, 16⟩)

/-- `cont.pid`. -/
def contPid (so : Memory) : Pid := soWord so 68

/-! ## Storing and reading -/

/-- `mcRegistryStoreData` on the object at `so`. -/
def mcRegistryStoreData (s : Fs) (so : Memory) (size : Nat) : McResult × Fs :=
  if size ≠ sizeofSoDataCont then (mcDrvErrInvalidParameter, s)
  -- other data, that of service providers too, is not supported
  else if contType so ≠ contTypeTlData then (mcDrvErrInvalidParameter, s)
  else
    match s.mkdir (getTlDataPath (contUuid so)) with
    | none => (mcDrvErrInvalidParameter, s)
    | some t =>
      storeFile t (getTlDataFilePath (contUuid so) (contPid so)) (so.slice ⟨0, soSize so⟩)

/-- `mcRegistryReadData` for the uuid and pid in the caller's container. -/
def mcRegistryReadData (s : Fs) (context : UInt32) (uuid : Uuid) (pid : Pid) (maxLen : UInt32) :
    Except McResult (List UInt8) :=
  if context ≠ 1 then .error mcDrvErrInvalidParameter
  else
    match s.get? (getTlDataFilePath uuid pid) with
    | none => .error mcDrvErrInvalidDeviceFile
    | some .dir => .error mcDrvErrInvalidParameter
    | some (.file content) =>
      if maxLen < UInt32.ofNat content.length then .error mcDrvErrOutOfResources
      else if content.length < sizeofSoHeader then .error mcDrvErrInvalidParameter
      else
        let size := soSize (Memory.ofList content)
        -- a size of zero wraps round when that of the header is subtracted
        if size < sizeofSoHeader ∨ content.length < size then .error mcDrvErrInvalidParameter
        else .ok (content.take size)

/-- A well-formed container of a trustlet's data. -/
structure TlDataContainer where
  so : Memory
  type_eq : contType so = contTypeTlData
  header_le : sizeofSoHeader ≤ soSize so
  size_le : soSize so ≤ sizeofSoDataCont

namespace TlDataContainer

def uuid (c : TlDataContainer) : Uuid := contUuid c.so

def pid (c : TlDataContainer) : Pid := contPid c.so

/-- The secure object in the container. -/
def object (c : TlDataContainer) : List UInt8 := c.so.slice ⟨0, soSize c.so⟩

/-- The file that the container is stored in. -/
def file (c : TlDataContainer) : List String := getTlDataFilePath c.uuid c.pid

def store (s : Fs) (c : TlDataContainer) : McResult × Fs :=
  mcRegistryStoreData s c.so sizeofSoDataCont

/-- The container for a trustlet's pid that comes last. -/
def lastFor (cs : List TlDataContainer) (uuid : Uuid) (pid : Pid) : Option TlDataContainer :=
  cs.reverse.find? fun c => c.uuid = uuid ∧ c.pid = pid

end TlDataContainer

open TlDataContainer

/-- The calls all succeed, and then every read gives the object stored last. -/
def StoresAndReads (s : Fs) (cs : List TlDataContainer) : Prop :=
  (∀ r ∈ (serveAll store s cs).1, r = mcDrvOk) ∧
  ∀ uuid pid c, lastFor cs uuid pid = some c →
    ∀ maxLen : UInt32, sizeofSoDataCont ≤ maxLen.toNat →
      mcRegistryReadData (serveAll store s cs).2 1 uuid pid maxLen = .ok c.object

/-- The registry is there, and no directory where a file of data goes. -/
structure TakesData (s : Fs) : Prop where
  data : s.get? mcRegistryDataPath = some .dir
  files : ∀ uuid pid, s.get? (getTlDataFilePath uuid pid) ≠ some .dir

/-- No trustlet has data in the registry, or twice among the calls. -/
structure OncePerTrustlet (s : Fs) (cs : List TlDataContainer) : Prop where
  distinct : (cs.map uuid).Nodup
  absent : ∀ c ∈ cs, s.get? (getTlDataPath c.uuid) = none

/-! ## One store -/

section Store

variable {s t : Fs} {c : TlDataContainer} {cs : List TlDataContainer}

theorem getTlDataPath_inj {a b : Uuid} (h : getTlDataPath a = getTlDataPath b) : a = b :=
  uuidToString_inj (congrArg String.toList (inRegistry_inj h))

theorem getTlDataFilePath_inj {a b : Uuid} {p q : Pid}
    (h : getTlDataFilePath a p = getTlDataFilePath b q) : a = b ∧ p = q :=
  RegistryObject.tlData.inj (RegistryObject.path_injective h)

theorem getTlDataFilePath_ne (uuid : Uuid) (pid : Pid) (uuid' : Uuid) :
    getTlDataFilePath uuid pid ≠ getTlDataPath uuid' :=
  (RegistryObject.tlData uuid pid).path_ne_getTlDataPath uuid'

theorem file_ne_getTlDataPath (c : TlDataContainer) (uuid : Uuid) : c.file ≠ getTlDataPath uuid :=
  getTlDataFilePath_ne c.uuid c.pid uuid

/-- A store that finds the trustlet's directory fails. -/
theorem store_of_present (h : s.get? (getTlDataPath c.uuid) ≠ none) :
    store s c = (mcDrvErrInvalidParameter, s) := by
  unfold store mcRegistryStoreData
  rw [if_neg (not_not.mpr rfl), if_neg (not_not.mpr c.type_eq)]
  have hmkdir : s.mkdir (getTlDataPath (contUuid c.so)) = none := FileSystem.mkdir_of_exists h
  rw [hmkdir]

/-- **One store.** It makes the directory and the file in it. -/
theorem store_of_absent (hs : TakesData s) (h : s.get? (getTlDataPath c.uuid) = none) :
    ∃ t, store s c = (mcDrvOk, t) ∧ TakesData t ∧
      ∀ q, t.get? q = if q = c.file then some (.file c.object)
        else if q = getTlDataPath c.uuid then some .dir else s.get? q := by
  obtain ⟨t, hmkdir, hnew⟩ := FileSystem.mkdir_spec (n := byteArrayToString c.uuid.toList) hs.data h
  have hget : ∀ q, t.get? q =
      if q = getTlDataPath c.uuid then some .dir else s.get? q := hnew
  have hdir : t.get? (getTlDataPath c.uuid) = some .dir := by rw [hget]; exact if_pos rfl
  have hfile : t.get? c.file ≠ some .dir := by
    rw [hget, show c.file = getTlDataFilePath c.uuid c.pid from rfl]
    rw [if_neg (getTlDataFilePath_ne c.uuid c.pid c.uuid)]
    exact hs.files c.uuid c.pid
  obtain ⟨u, hwrite⟩ := FileSystem.writeFile_of_dir hdir hfile c.object
  have hstore : store s c = (mcDrvOk, u) := by
    unfold store mcRegistryStoreData
    rw [if_neg (not_not.mpr rfl), if_neg (not_not.mpr c.type_eq)]
    have hmkdir' : s.mkdir (getTlDataPath (contUuid c.so)) = some t := hmkdir
    rw [hmkdir']
    show storeFile t c.file c.object = _
    unfold storeFile
    rw [show t.writeFile c.file c.object = some u from hwrite]
  have hu : ∀ q, u.get? q = if q = c.file then some (.file c.object)
      else if q = getTlDataPath c.uuid then some .dir else s.get? q := by
    intro q
    rw [FileSystem.get?_writeFile hwrite, hget]
    rfl
  refine ⟨u, hstore, ⟨?_, fun uuid pid => ?_⟩, hu⟩
  · rw [hu, if_neg, if_neg]
    · exact hs.data
    · exact fun hq => absurd (congrArg List.length hq) (show ¬ 3 = 4 by decide)
    · exact fun hq => absurd (congrArg List.length hq) (show ¬ 3 = 5 by decide)
  · rw [hu, if_neg (getTlDataFilePath_ne uuid pid c.uuid)]
    split
    · simp
    · exact hs.files uuid pid

/-- What a store of data leaves alone. -/
theorem get?_store {q : List String} (hfile : q ≠ c.file) (hdir : q ≠ getTlDataPath c.uuid)
    (hs : TakesData s) : (store s c).2.get? q = s.get? q := by
  by_cases habsent : s.get? (getTlDataPath c.uuid) = none
  · obtain ⟨t, hstore, -, hget⟩ := store_of_absent hs habsent
    rw [hstore, hget, if_neg hfile, if_neg hdir]
  · rw [store_of_present habsent]

theorem takesData_store (hs : TakesData s) : TakesData (store s c).2 := by
  by_cases habsent : s.get? (getTlDataPath c.uuid) = none
  · obtain ⟨t, hstore, ht, -⟩ := store_of_absent hs habsent
    rw [hstore]
    exact ht
  · rw [store_of_present habsent]
    exact hs

/-! ## All stores -/

/-- Nothing happens to the data of trustlets that are not among the calls. -/
theorem get?_serveAll {q : List String} (hs : TakesData s)
    (hfile : ∀ c ∈ cs, q ≠ c.file) (hdir : ∀ c ∈ cs, q ≠ getTlDataPath c.uuid) :
    (serveAll store s cs).2.get? q = s.get? q := by
  induction cs generalizing s with
  | nil => rfl
  | cons c cs ih =>
    show (serveAll store (store s c).2 cs).2.get? q = _
    rw [ih (takesData_store hs) (fun d hd => hfile d (List.mem_cons_of_mem c hd))
      fun d hd => hdir d (List.mem_cons_of_mem c hd)]
    exact get?_store (hfile c List.mem_cons_self) (hdir c List.mem_cons_self) hs

/-- **All stores succeed** exactly when each is the first of its trustlet. -/
theorem serveAll_ok_iff (hs : TakesData s) :
    (∀ r ∈ (serveAll store s cs).1, r = mcDrvOk) ↔ OncePerTrustlet s cs := by
  induction cs generalizing s with
  | nil =>
    refine iff_of_true (fun r hr => ?_) ⟨List.nodup_nil, fun c hc => ?_⟩
    · cases hr
    · cases hc
  | cons c cs ih =>
    show (∀ r ∈ (store s c).1 :: (serveAll store (store s c).2 cs).1, r = mcDrvOk) ↔ _
    rw [List.forall_mem_cons]
    by_cases habsent : s.get? (getTlDataPath c.uuid) = none
    · obtain ⟨t, hstore, ht, hget⟩ := store_of_absent hs habsent
      rw [hstore, ih ht]
      -- a directory is absent behind the store when it was, and is not the one just made
      have hdir : ∀ d : TlDataContainer, t.get? (getTlDataPath d.uuid) = none ↔
          c.uuid ≠ d.uuid ∧ s.get? (getTlDataPath d.uuid) = none := by
        intro d
        rw [hget, if_neg (file_ne_getTlDataPath c d.uuid).symm]
        by_cases heq : c.uuid = d.uuid
        · simp [heq]
        · rw [if_neg fun hpath => heq (getTlDataPath_inj hpath).symm]
          simp [heq]
      constructor
      · rintro ⟨-, hdistinct, hrest⟩
        refine ⟨?_, List.forall_mem_cons.mpr ⟨habsent, fun d hd => ((hdir d).mp (hrest d hd)).2⟩⟩
        rw [List.map_cons, List.nodup_cons]
        refine ⟨fun hmem => ?_, hdistinct⟩
        obtain ⟨d, hd, hud⟩ := List.mem_map.mp hmem
        exact ((hdir d).mp (hrest d hd)).1 hud.symm
      · rintro ⟨hdistinct, hall⟩
        rw [List.map_cons, List.nodup_cons] at hdistinct
        rw [List.forall_mem_cons] at hall
        refine ⟨rfl, hdistinct.2, fun d hd => (hdir d).mpr ⟨fun heq => ?_, hall.2 d hd⟩⟩
        exact hdistinct.1 (List.mem_map.mpr ⟨d, hd, heq.symm⟩)
    · rw [store_of_present habsent]
      refine iff_of_false (fun h => ?_) fun h => habsent (h.absent c List.mem_cons_self)
      exact invalidParameter_ne_ok h.1

/-- Behind such stores every file has its object. -/
theorem get?_file_of_once (hs : TakesData s) (honce : OncePerTrustlet s cs) {c : TlDataContainer}
    (hc : c ∈ cs) : (serveAll store s cs).2.get? c.file = some (.file c.object) := by
  induction cs generalizing s with
  | nil => cases hc
  | cons d cs ih =>
    show (serveAll store (store s d).2 cs).2.get? c.file = _
    have hok := (serveAll_ok_iff hs).mpr honce
    obtain ⟨-, hrest⟩ := List.forall_mem_cons.mp hok
    have htail := (serveAll_ok_iff (takesData_store hs)).mp hrest
    rcases List.mem_cons.mp hc with rfl | hc
    · obtain ⟨t, hstore, ht, hget⟩ := store_of_absent hs (honce.absent c List.mem_cons_self)
      have hother : ∀ d ∈ cs, c.uuid ≠ d.uuid := by
        intro d hd heq
        have hdistinct := honce.distinct
        rw [List.map_cons, List.nodup_cons] at hdistinct
        exact hdistinct.1 (List.mem_map.mpr ⟨d, hd, heq.symm⟩)
      have hstays : (serveAll store (store s c).2 cs).2.get? c.file =
          (store s c).2.get? c.file :=
        get?_serveAll (takesData_store hs)
          (fun d hd hfile => hother d hd (getTlDataFilePath_inj hfile).1)
          fun d _ => file_ne_getTlDataPath c d.uuid
      rw [hstays, hstore, hget, if_pos rfl]
    · exact ih (takesData_store hs) htail hc

/-! ## Reading -/

/-- **One read.** A file with a container's object gives the object. -/
theorem mcRegistryReadData_of_file {maxLen : UInt32}
    (h : s.get? c.file = some (.file c.object)) (hmax : sizeofSoDataCont ≤ maxLen.toNat) :
    mcRegistryReadData s 1 c.uuid c.pid maxLen = .ok c.object := by
  have hheader : sizeofSoHeader = 44 := rfl
  have hcont : sizeofSoDataCont = 2168 := rfl
  have hlow := c.header_le
  have hhigh := c.size_le
  have hlen : c.object.length = soSize c.so := Memory.length_slice ..
  have hsize : soSize (Memory.ofList c.object) = soSize c.so := by
    have hplain : plainLen (Memory.ofList c.object) = plainLen c.so :=
      congrArg wordOf (Memory.slice_ofList_slice (show 36 + 4 ≤ _ by omega))
    have hencrypted : encryptedLen (Memory.ofList c.object) = encryptedLen c.so :=
      congrArg wordOf (Memory.slice_ofList_slice (show 40 + 4 ≤ _ by omega))
    unfold soSize
    rw [hplain, hencrypted]
  have hroom : ¬ maxLen < UInt32.ofNat c.object.length := by
    rw [UInt32.lt_iff_toNat_lt, UInt32.toNat_ofNat', hlen]
    omega
  unfold mcRegistryReadData
  rw [if_neg (not_not.mpr rfl), show s.get? (getTlDataFilePath c.uuid c.pid) = _ from h]
  dsimp only
  rw [if_neg hroom, if_neg (by omega), hsize, if_neg (by omega), ← hlen, List.take_length]

theorem lastFor_spec {uuid : Uuid} {pid : Pid} (h : lastFor cs uuid pid = some c) :
    c ∈ cs ∧ c.uuid = uuid ∧ c.pid = pid := by
  have hkey := List.find?_some h
  have hmem := List.mem_of_find?_eq_some h
  exact ⟨List.mem_reverse.mp hmem, by simpa using hkey⟩

end Store

/-- **Data can be stored and read back** exactly when each trustlet is stored for once. -/
theorem storesAndReads_iff {s : Fs} {cs : List TlDataContainer} (hs : TakesData s) :
    StoresAndReads s cs ↔ OncePerTrustlet s cs := by
  constructor
  · intro h
    exact (serveAll_ok_iff hs).mp h.1
  · intro honce
    refine ⟨(serveAll_ok_iff hs).mpr honce, fun uuid pid c hlast maxLen hmax => ?_⟩
    obtain ⟨hc, rfl, rfl⟩ := lastFor_spec hlast
    exact mcRegistryReadData_of_file (get?_file_of_once hs honce hc) hmax

/-- A full object for a pid of the trustlet with the zero uuid. -/
def zeroObject (pid : UInt8) : Memory := fun i =>
  if i = 36 then 28 else if i = 41 then 8 else if i = 44 then 5 else if i = 68 then pid else 0

theorem soSize_zeroObject (pid : UInt8) : soSize (zeroObject pid) = sizeofSoDataCont := by
  have hplain : (zeroObject pid).slice ⟨36, 4⟩ = [28, 0, 0, 0] := rfl
  have hencrypted : (zeroObject pid).slice ⟨40, 4⟩ = [0, 8, 0, 0] := rfl
  unfold soSize plainLen encryptedLen soWord
  rw [hplain, hencrypted]
  decide

def zeroContainer (pid : UInt8) : TlDataContainer where
  so := zeroObject pid
  type_eq := by
    have htype : (zeroObject pid).slice ⟨44, 4⟩ = [5, 0, 0, 0] := rfl
    unfold contType
    rw [htype]
    decide
  header_le := by
    rw [soSize_zeroObject]
    decide
  size_le := Nat.le_of_eq (soSize_zeroObject pid)

theorem takesData_freshRegistry : TakesData freshRegistry := by
  refine ⟨by decide, fun uuid pid hdir => ?_⟩
  have hnone : freshRegistry.get? (getTlDataFilePath uuid pid) = none :=
    get?_freshRegistry (show 3 < 5 by decide)
  rw [hnone] at hdir
  cases hdir

theorem storesAndReads_zeroContainer : StoresAndReads freshRegistry [zeroContainer 1] :=
  (storesAndReads_iff takesData_freshRegistry).mpr ⟨by decide, by decide⟩

/-- The data of the second pid is refused. -/
theorem not_storesAndReads_twoPids :
    ¬ StoresAndReads freshRegistry [zeroContainer 1, zeroContainer 2] := by
  rintro ⟨hok, -⟩
  have honce := (serveAll_ok_iff takesData_freshRegistry).mp hok
  have hdistinct := honce.distinct
  revert hdistinct
  decide

end McDaemon.Registry
