/-
# McDaemon.Registry.TaPairing — which spid goes with which binary.

A lookup takes the binary of an application and its spid from two files that it looks for one by
one.  After any number of installations the writable registry has the last binary of every
application, with its own spid; the read-only registry may have one file of an application
without the other, and then a file of one registry meets a file of the other.
-/
import McDaemon.Registry.BlobLayout
import McDaemon.Registry.TaInstall

namespace McDaemon.Registry

open McDaemon.Lib
open McDaemon.Lib.Inspection

/-! ## Looking up -/

def tlBinName (uuid : Uuid) : String := byteArrayToString uuid.toList ++ ".tlbin"

/-- `mcRegistryFileGetServiceBlob`; an empty file cannot be mapped. -/
def mcRegistryFileGetServiceBlob (s : Fs) (trustlet : List String) (spid : Spid) (malloc : Bool) :
    Option RegObject :=
  match s.get? trustlet with
  | some (.file content) =>
    if content = [] then none
    else
      let blob := mcRegistryMemGetServiceBlob s spid (Memory.ofList content)
        (UInt32.ofNat content.length).toNat malloc
      if blob.2 then blob.1 else none
  | _ => none

/-- The spid of an application; none is 0, and what is too short or no file is an error. -/
def readTASpid (s : Fs) (uuid : Uuid) : Option Spid :=
  match s.get? (inAnyRegistry s (taSpidName uuid)) with
  | none => some 0
  | some .dir => none
  | some (.file bytes) =>
    if bytes.length < 4 then none else some (UInt32.ofNat (ofLe (bytes.take 4)))

/-- `mcRegistryGetServiceBlob`. -/
def mcRegistryGetServiceBlob (s : Fs) (uuid : Uuid) (isGpUuid malloc : Bool) : Option RegObject :=
  if isGpUuid then
    match readTASpid s uuid with
    | none => none
    | some spid =>
      mcRegistryFileGetServiceBlob s (inAnyRegistry s (taBinName uuid)) spid malloc
  else mcRegistryFileGetServiceBlob s (inAnyRegistry s (tlBinName uuid)) 0 malloc

/-! ## Installations -/

/-- The arguments of a call of `mcRegistryStoreTABlob`. -/
structure Installation where
  spid : Spid
  blob : Memory
  size : UInt32

namespace Installation

/-- The uuid that the blob is stored under, if it is accepted. -/
def uuid? (i : Installation) : Option Uuid := (checkTABlob i.spid i.blob i.size).result.toOption

def bytes (i : Installation) : List UInt8 := i.blob.slice ⟨0, i.size.toNat⟩

/-- The application is one of a service provider. -/
def isSp (i : Installation) : Bool := serviceType i.blob = serviceTypeSpTrustlet

def store (s : Fs) (i : Installation) : McResult × Fs :=
  (mcRegistryStoreTABlob s i.spid i.blob i.size).2

end Installation

/-- Calls that have all succeeded. -/
inductive Installs (s : Fs) : List Installation → Fs → Prop
  | nil : Installs s [] s
  | snoc {t u : Fs} {is : List Installation} {i : Installation} (run : Installs s is t)
      (last : i.store t = (mcDrvOk, u)) : Installs s (is ++ [i]) u

/-- The last installation of an application. -/
def lastInstalled (is : List Installation) (uuid : Uuid) : Option Installation :=
  (is.filter fun i => i.uuid? = some uuid).getLast?

/-- The last one with a spid. -/
def lastSp (is : List Installation) (uuid : Uuid) : Option Installation :=
  (is.filter fun i => i.uuid? = some uuid ∧ i.isSp).getLast?

/-! ## Pairs -/

/-- A lookup for the application of a service provider puts a binary and the spid of a file
together. -/
structure Combines (s : Fs) (uuid : Uuid) (content : List UInt8) (spid : Spid) : Prop where
  bin : s.get? (inAnyRegistry s (taBinName uuid)) = some (.file content)
  type : serviceType (Memory.ofList content) = serviceTypeSpTrustlet
  spidFile : s.get? (inAnyRegistry s (taSpidName uuid)) ≠ none
  spid : readTASpid s uuid = some spid

/-- Both files are in the read-only registry. -/
def SystemPair (s : Fs) (uuid : Uuid) : Prop :=
  s.exists? (inSystemRegistry (taBinName uuid)) = true ∧
    s.exists? (inSystemRegistry (taSpidName uuid)) = true

/-- The files come from one installation, the last one. -/
def InstalledPair (s : Fs) (is : List Installation) (uuid : Uuid) (content : List UInt8)
    (spid : Spid) : Prop :=
  (s.exists? (inSystemRegistry (taBinName uuid)) = false ∧
    s.exists? (inSystemRegistry (taSpidName uuid)) = false) ∧
  ∃ i, lastInstalled is uuid = some i ∧ i.bytes = content ∧ i.spid = spid

/-- Binaries are only put together with their own spid. -/
def PairsOwn (s t : Fs) (is : List Installation) : Prop :=
  ∀ uuid content spid, Combines t uuid content spid →
    SystemPair s uuid ∨ InstalledPair s is uuid content spid

/-- Neither registry has a file of an application that goes with one of the other. -/
structure Unmixed (s : Fs) (is : List Installation) (uuid : Uuid) : Prop where
  bin : ∀ content, s.get? (inSystemRegistry (taBinName uuid)) = some (.file content) →
    serviceType (Memory.ofList content) = serviceTypeSpTrustlet →
      s.exists? (inSystemRegistry (taSpidName uuid)) = false →
        ∀ i ∈ is, i.uuid? = some uuid → i.isSp = false
  spid : ∀ bytes, s.get? (inSystemRegistry (taSpidName uuid)) = some (.file bytes) →
    4 ≤ bytes.length → s.exists? (inSystemRegistry (taBinName uuid)) = false →
      ∀ i, lastInstalled is uuid = some i → i.isSp = false

/-- No application is in the writable registry. -/
structure NoApplications (s : Fs) : Prop where
  bin : ∀ uuid, s.get? (getTABinFilePath uuid) = none
  spid : ∀ uuid, s.get? (getTASpidFilePath uuid) = none

/-! ## One installation -/

section Installs

variable {s t u : Fs} {is : List Installation} {i : Installation} {uuid : Uuid}

theorem getTABinFilePath_inj {a b : Uuid} (h : getTABinFilePath a = getTABinFilePath b) : a = b :=
  RegistryObject.taBin.inj (RegistryObject.path_injective h)

theorem getTASpidFilePath_inj {a b : Uuid} (h : getTASpidFilePath a = getTASpidFilePath b) :
    a = b :=
  RegistryObject.taSpid.inj (RegistryObject.path_injective h)

theorem getTABinFilePath_ne_getTASpidFilePath (a b : Uuid) :
    getTABinFilePath a ≠ getTASpidFilePath b := fun h =>
  taBinName_ne_taSpidName a b (inRegistry_inj h)

theorem Installation.uuid?_eq_some :
    i.uuid? = some uuid ↔ (checkTABlob i.spid i.blob i.size).result = .ok uuid := by
  unfold Installation.uuid?
  cases (checkTABlob i.spid i.blob i.size).result with
  | error e => simp [Except.toOption]
  | ok uuid' => simp [Except.toOption]

/-- The header is in the file as it was in the blob. -/
theorem Installation.serviceType_bytes (h : i.uuid? = some uuid) :
    serviceType (Memory.ofList i.bytes) = serviceType i.blob := by
  have hheader : sizeofHeaderV24 = 104 := rfl
  have hsize := size_le_of_checkTABlob (Installation.uuid?_eq_some.mp h)
  exact congrArg ofLe (Memory.slice_ofList_slice (show 16 + 4 ≤ i.size.toNat by omega))

/-- **One installation.** It writes the binary, and for a service provider's application the
spid. -/
theorem Installation.store_spec (h : i.store t = (mcDrvOk, u)) :
    ∃ uuid, i.uuid? = some uuid ∧ ∀ q, u.get? q =
      if q = getTASpidFilePath uuid ∧ i.isSp then some (.file (le32 i.spid))
      else if q = getTABinFilePath uuid then some (.file i.bytes) else t.get? q := by
  unfold Installation.store at h
  rw [← storeTABlobFaulty_none] at h
  obtain ⟨uuid, left, v, hcheck, hleft, hbin, hspid⟩ := storeTABlobFaulty_spec h
  -- no operation fails, so all of the binary is there
  obtain rfl : i.bytes = left := (Prod.mk.inj (Option.some.inj hleft)).1
  refine ⟨uuid, Installation.uuid?_eq_some.mpr hcheck, fun q => ?_⟩
  rcases hspid with ⟨hsp, left', hleft', hget⟩ | ⟨hsp, rfl⟩
  · obtain rfl : le32 i.spid = left' := (Prod.mk.inj (Option.some.inj hleft')).1
    have hisSp : i.isSp = true := decide_eq_true hsp
    rw [hget, hbin]
    simp only [hisSp, and_true]
  · have hisSp : i.isSp = false := decide_eq_false hsp
    have hnot : ¬ (q = getTASpidFilePath uuid ∧ i.isSp = true) := fun hq =>
      Bool.false_ne_true (hisSp.symm.trans hq.2)
    rw [if_neg hnot]
    exact hbin q

/-! ## All installations -/

/-- What the registries hold behind installations. -/
structure Holds (s t : Fs) (is : List Installation) : Prop where
  system : ∀ name, t.get? (inSystemRegistry name) = s.get? (inSystemRegistry name)
  bin : ∀ uuid, t.get? (getTABinFilePath uuid) =
    (lastInstalled is uuid).map fun i => .file i.bytes
  spid : ∀ uuid, t.get? (getTASpidFilePath uuid) =
    (lastSp is uuid).map fun i => .file (le32 i.spid)

theorem getLast?_filter_concat {α : Type*} (p : α → Bool) (l : List α) (a : α) :
    ((l ++ [a]).filter p).getLast? = if p a then some a else (l.filter p).getLast? := by
  rw [List.filter_append]
  by_cases ha : p a = true
  · rw [List.filter_cons_of_pos ha, if_pos ha]
    exact List.getLast?_concat
  · rw [List.filter_cons_of_neg ha, if_neg ha, List.filter_nil, List.append_nil]

/-- **All installations.** The last one of an application counts. -/
theorem Installs.holds (hs : NoApplications s) (run : Installs s is t) : Holds s t is := by
  induction run with
  | nil => exact ⟨fun _ => rfl, hs.bin, hs.spid⟩
  | @snoc t u is i _ last ih =>
    obtain ⟨hsystem, hbin, hspid⟩ := ih
    obtain ⟨uuid, huuid, hget⟩ := Installation.store_spec last
    refine ⟨fun name => ?_, fun uuid' => ?_, fun uuid' => ?_⟩
    · have hbinPath : inSystemRegistry name ≠ getTABinFilePath uuid := inSystemRegistry_ne _ _
      have hspidPath : inSystemRegistry name ≠ getTASpidFilePath uuid := inSystemRegistry_ne _ _
      rw [hget, if_neg fun hq => hspidPath hq.1, if_neg hbinPath, hsystem]
    · rw [hget, if_neg fun hq => getTABinFilePath_ne_getTASpidFilePath _ _ hq.1, hbin]
      unfold lastInstalled
      rw [getLast?_filter_concat, huuid]
      by_cases heq : uuid = uuid'
      · simp [heq]
      · have hne : ¬ getTABinFilePath uuid' = getTABinFilePath uuid := fun hpath =>
          heq (getTABinFilePath_inj hpath).symm
        simp [heq, hne]
    · rw [hget, if_neg (getTABinFilePath_ne_getTASpidFilePath _ _).symm, hspid]
      unfold lastSp
      rw [getLast?_filter_concat, huuid]
      by_cases heq : uuid = uuid'
      · by_cases hsp : i.isSp = true
        · simp [heq, hsp]
        · simp [heq, hsp]
      · have hne : ¬ getTASpidFilePath uuid' = getTASpidFilePath uuid := fun hpath =>
          heq (getTASpidFilePath_inj hpath).symm
        simp [heq, hne]

theorem lastInstalled_spec (h : lastInstalled is uuid = some i) :
    i ∈ is ∧ i.uuid? = some uuid := by
  have hmem := List.mem_filter.mp (List.mem_of_getLast? h)
  exact ⟨hmem.1, by simpa using hmem.2⟩

theorem lastSp_spec (h : lastSp is uuid = some i) :
    i ∈ is ∧ i.uuid? = some uuid ∧ i.isSp = true := by
  have hmem := List.mem_filter.mp (List.mem_of_getLast? h)
  exact ⟨hmem.1, by simpa using hmem.2⟩

/-- An installation with a spid is not the last but one of them. -/
theorem lastSp_of_lastInstalled (h : lastInstalled is uuid = some i) (hsp : i.isSp = true) :
    lastSp is uuid = some i := by
  have hfilter : (is.filter fun i => i.uuid? = some uuid ∧ i.isSp) =
      (is.filter fun i => i.uuid? = some uuid).filter (·.isSp) := by
    rw [List.filter_filter]
    refine List.filter_congr fun j _ => ?_
    simp [and_comm]
  obtain ⟨init, hinit⟩ := List.getLast?_eq_some_iff.mp h
  unfold lastSp
  rw [hfilter, hinit, getLast?_filter_concat, if_pos hsp]

theorem lastSp_isSome (hi : i ∈ is) (huuid : i.uuid? = some uuid) (hsp : i.isSp = true) :
    ∃ j, lastSp is uuid = some j := by
  have hne : (is.filter fun i => i.uuid? = some uuid ∧ i.isSp) ≠ [] :=
    List.ne_nil_of_mem (List.mem_filter.mpr ⟨hi, by simp [huuid, hsp]⟩)
  exact ⟨_, List.getLast?_eq_some_getLast hne⟩

/-! ## What a lookup sees -/

theorem Holds.exists?_system (h : Holds s t is) (name : String) :
    t.exists? (inSystemRegistry name) = s.exists? (inSystemRegistry name) :=
  congrArg Option.isSome (h.system name)

/-- A file of the read-only registry is found first. -/
theorem Holds.inAny_of_system (h : Holds s t is) {name : String}
    (hname : s.exists? (inSystemRegistry name) = true) :
    t.get? (inAnyRegistry t name) = s.get? (inSystemRegistry name) := by
  unfold inAnyRegistry
  rw [h.exists?_system, if_pos hname, h.system]

theorem Holds.inAny_of_data (h : Holds s t is) {name : String}
    (hname : s.exists? (inSystemRegistry name) = false) :
    t.get? (inAnyRegistry t name) = t.get? (inRegistry name) := by
  unfold inAnyRegistry
  rw [h.exists?_system, hname, if_neg Bool.false_ne_true]

theorem readTASpid_of_file {bytes : List UInt8}
    (h : t.get? (inAnyRegistry t (taSpidName uuid)) = some (.file bytes)) :
    readTASpid t uuid = if bytes.length < 4 then none
      else some (UInt32.ofNat (ofLe (bytes.take 4))) := by
  unfold readTASpid
  rw [h]

theorem readTASpid_of_le32 {spid : Spid}
    (h : t.get? (inAnyRegistry t (taSpidName uuid)) = some (.file (le32 spid))) :
    readTASpid t uuid = some spid := by
  rw [readTASpid_of_file h, length_le32, if_neg (by decide), List.take_of_length_le (by simp),
    ofLe_le32, UInt32.ofNat_toNat]

/-- What a lookup does with the binary and the spid. -/
theorem mcRegistryGetServiceBlob_of_combines {content : List UInt8} {spid : Spid} {malloc : Bool}
    {obj : RegObject} (h : Combines t uuid content spid) :
    mcRegistryGetServiceBlob t uuid true malloc = some obj ↔
      content ≠ [] ∧ mcRegistryMemGetServiceBlob t spid (Memory.ofList content)
        (UInt32.ofNat content.length).toNat malloc = (some obj, true) := by
  unfold mcRegistryGetServiceBlob mcRegistryFileGetServiceBlob
  rw [if_pos rfl, h.spid, h.bin]
  dsimp only
  by_cases hempty : content = []
  · rw [if_pos hempty]
    exact iff_of_false (by simp) fun hne => hne.1 hempty
  · rw [if_neg hempty]
    obtain ⟨blob, returned⟩ := mcRegistryMemGetServiceBlob t spid (Memory.ofList content)
      (UInt32.ofNat content.length).toNat malloc
    cases returned with
    | true => simp [hempty]
    | false => simp

/-- Without a spid file nothing is returned for the application of a service provider. -/
theorem mcRegistryGetServiceBlob_of_no_spid {content : List UInt8} {malloc : Bool}
    (hbin : t.get? (inAnyRegistry t (taBinName uuid)) = some (.file content))
    (htype : serviceType (Memory.ofList content) = serviceTypeSpTrustlet)
    (hspid : t.get? (inAnyRegistry t (taSpidName uuid)) = none) :
    mcRegistryGetServiceBlob t uuid true malloc = none := by
  unfold mcRegistryGetServiceBlob mcRegistryFileGetServiceBlob readTASpid
  rw [if_pos rfl, hspid]
  dsimp only
  rw [hbin]
  dsimp only
  by_cases hempty : content = []
  · rw [if_pos hempty]
  · rw [if_neg hempty]
    by_contra hreturned
    obtain ⟨obj, hobj⟩ := Option.ne_none_iff_exists'.mp hreturned
    obtain ⟨htrue, hfst⟩ := Option.ite_none_right_eq_some.mp hobj
    obtain ⟨-, -, -, root, sp, tl, hcontainers, -⟩ :=
      (mcRegistryMemGetServiceBlob_sp htype).mp (Prod.ext hfst htrue)
    exact absurd rfl (mcRegistryReadSp_eq_ok.mp hcontainers.readSp).1

/-- A file that goes with one of the other registry shows in a lookup. -/
theorem unmixed_of_pairsOwn (hholds : Holds s t is) (hpairs : PairsOwn s t is) (uuid : Uuid) :
    Unmixed s is uuid := by
  refine ⟨fun content hbin htype hspid i hi huuid => ?_, fun bytes hspid hlen hbin i hlast => ?_⟩
  · -- the binary is in the read-only registry, the spid has been installed
    by_contra hsp
    obtain ⟨j, hj⟩ := lastSp_isSome hi huuid (Bool.eq_true_of_not_eq_false hsp)
    have hexists : s.exists? (inSystemRegistry (taBinName uuid)) = true :=
      Option.isSome_of_eq_some hbin
    have hspidFile : t.get? (inAnyRegistry t (taSpidName uuid)) =
        some (.file (le32 j.spid)) := by
      rw [hholds.inAny_of_data hspid, ← getTASpidFilePath_eq, hholds.spid, hj]
      rfl
    have hcombines : Combines t uuid content j.spid := by
      refine ⟨?_, htype, ?_, readTASpid_of_le32 hspidFile⟩
      · rw [hholds.inAny_of_system hexists, hbin]
      · rw [hspidFile]
        simp
    rcases hpairs uuid content j.spid hcombines with hsystem | hinstalled
    · exact Bool.false_ne_true (hspid.symm.trans hsystem.2)
    · exact Bool.false_ne_true (hinstalled.1.1.symm.trans hexists)
  · -- the spid is in the read-only registry, the binary has been installed
    by_contra hsp
    have htype := Installation.serviceType_bytes (lastInstalled_spec hlast).2
    have hexists : s.exists? (inSystemRegistry (taSpidName uuid)) = true :=
      Option.isSome_of_eq_some hspid
    have hspidFile : t.get? (inAnyRegistry t (taSpidName uuid)) = some (.file bytes) := by
      rw [hholds.inAny_of_system hexists, hspid]
    have hcombines : Combines t uuid i.bytes (UInt32.ofNat (ofLe (bytes.take 4))) := by
      refine ⟨?_, ?_, ?_, ?_⟩
      · rw [hholds.inAny_of_data hbin, ← getTABinFilePath_eq, hholds.bin, hlast]
        rfl
      · exact htype.trans (of_decide_eq_true (Bool.eq_true_of_not_eq_false hsp))
      · rw [hspidFile]
        simp
      · rw [readTASpid_of_file hspidFile, if_neg (Nat.not_lt.mpr hlen)]
    rcases hpairs uuid _ _ hcombines with hsystem | hinstalled
    · exact Bool.false_ne_true (hbin.symm.trans hsystem.1)
    · exact Bool.false_ne_true (hinstalled.1.2.symm.trans hexists)

/-- A lookup finds both files in one registry, or one of them alone. -/
theorem pairsOwn_of_unmixed (hholds : Holds s t is) (hunmixed : ∀ uuid, Unmixed s is uuid) :
    PairsOwn s t is := by
  rintro uuid content spid ⟨hbin, htype, hspidFile, hspid⟩
  cases hsysBin : s.exists? (inSystemRegistry (taBinName uuid)) with
  | true =>
    rw [hholds.inAny_of_system hsysBin] at hbin
    cases hsysSpid : s.exists? (inSystemRegistry (taSpidName uuid)) with
    | true => exact .inl ⟨hsysBin, hsysSpid⟩
    | false =>
      rw [hholds.inAny_of_data hsysSpid, ← getTASpidFilePath_eq, hholds.spid] at hspidFile
      cases hlast : lastSp is uuid with
      | none =>
        rw [hlast] at hspidFile
        exact absurd rfl hspidFile
      | some i =>
        obtain ⟨hi, huuid, hsp⟩ := lastSp_spec hlast
        have hnot := (hunmixed uuid).bin content hbin htype hsysSpid i hi huuid
        exact absurd (hnot.symm.trans hsp) Bool.false_ne_true
  | false =>
    rw [hholds.inAny_of_data hsysBin, ← getTABinFilePath_eq, hholds.bin] at hbin
    obtain ⟨i, hlast, hbytes⟩ := Option.map_eq_some_iff.mp hbin
    obtain rfl : i.bytes = content := Node.file.inj hbytes
    rw [Installation.serviceType_bytes (lastInstalled_spec hlast).2] at htype
    have hsp : i.isSp = true := decide_eq_true htype
    cases hsysSpid : s.exists? (inSystemRegistry (taSpidName uuid)) with
    | true =>
      obtain ⟨node, hnode⟩ := Option.isSome_iff_exists.mp hsysSpid
      have hsees := (hholds.inAny_of_system hsysSpid).trans hnode
      cases node with
      | dir =>
        unfold readTASpid at hspid
        rw [hsees] at hspid
        cases hspid
      | file bytes =>
        rw [readTASpid_of_file hsees] at hspid
        have hlen := (Option.ite_none_left_eq_some.mp hspid).1
        have hnot := (hunmixed uuid).spid bytes hnode (Nat.not_lt.mp hlen) hsysBin i hlast
        exact absurd (hnot.symm.trans hsp) Bool.false_ne_true
    | false =>
      have hfile : t.get? (inAnyRegistry t (taSpidName uuid)) = some (.file (le32 i.spid)) := by
        rw [hholds.inAny_of_data hsysSpid, ← getTASpidFilePath_eq, hholds.spid,
          lastSp_of_lastInstalled hlast hsp]
        rfl
      rw [readTASpid_of_le32 hfile] at hspid
      exact .inr ⟨⟨hsysBin, hsysSpid⟩, i, hlast, rfl, Option.some.inj hspid⟩

/-- **Binaries go with their own spids** exactly when neither registry has a file that goes with
one of the other. -/
theorem pairsOwn_iff (hs : NoApplications s) (run : Installs s is t) :
    PairsOwn s t is ↔ ∀ uuid, Unmixed s is uuid := by
  have hholds := run.holds hs
  constructor
  · intro hpairs uuid
    exact unmixed_of_pairsOwn hholds hpairs uuid
  · intro hunmixed
    exact pairsOwn_of_unmixed hholds hunmixed

end Installs

/-- The application of `bareHeader` is installed for service provider 1. -/
def bareInstallation : Installation := ⟨1, bareHeader, 144⟩

/-- A read-only registry with a spid file for that application, and no binary. -/
def straySpid : Fs :=
  { freshRegistry with nodes :=
    freshRegistry.nodes.insert (inSystemRegistry (taSpidName zeroUuid)) (.file (le32 2)) }

theorem pairsOwn_bareInstallation :
    PairsOwn freshRegistry (bareInstallation.store freshRegistry).2 [bareInstallation] := by
  have hnone : ∀ name, freshRegistry.get? (inSystemRegistry name) = none := fun name =>
    get?_freshRegistry (show 3 < 4 by decide)
  have hempty : NoApplications freshRegistry :=
    ⟨fun uuid => get?_freshRegistry (show 3 < 4 by decide),
      fun uuid => get?_freshRegistry (show 3 < 4 by decide)⟩
  have hstore : bareInstallation.store freshRegistry =
      (mcDrvOk, (bareInstallation.store freshRegistry).2) := Prod.ext (by decide) rfl
  refine (pairsOwn_iff hempty (.snoc .nil hstore)).mpr fun uuid => ⟨fun content hbin => ?_,
    fun bytes hspid => ?_⟩
  · rw [hnone] at hbin
    cases hbin
  · rw [hnone] at hspid
    cases hspid

/-- The binary is taken with the stray spid. -/
theorem not_pairsOwn_straySpid :
    Installs straySpid [bareInstallation] (bareInstallation.store straySpid).2 ∧
      ¬ PairsOwn straySpid (bareInstallation.store straySpid).2 [bareInstallation] := by
  have hstore : bareInstallation.store straySpid =
      (mcDrvOk, (bareInstallation.store straySpid).2) := Prod.ext (by decide) rfl
  have hrun : Installs straySpid [bareInstallation] (bareInstallation.store straySpid).2 :=
    .snoc .nil hstore
  refine ⟨hrun, fun hpairs => ?_⟩
  have hnone : ∀ name, straySpid.get? (inRegistry name) = none := by
    intro name
    have hne : inRegistry name ≠ inSystemRegistry (taSpidName zeroUuid) :=
      (inSystemRegistry_ne _ _).symm
    have hstray : straySpid.get? (inRegistry name) = freshRegistry.get? (inRegistry name) :=
      AList.lookup_insert_ne hne
    have hlen : 3 < (inRegistry name).length := show 3 < 4 by decide
    rw [hstray, get?_freshRegistry hlen]
  have hholds := hrun.holds ⟨fun _ => hnone _, fun _ => hnone _⟩
  have hcheck : (checkTABlob 1 bareHeader 144).result = .ok zeroUuid := by decide
  have huuid : bareInstallation.uuid? = some zeroUuid := Installation.uuid?_eq_some.mpr hcheck
  have hlast : lastInstalled [bareInstallation] zeroUuid = some bareInstallation := by
    simp [lastInstalled, huuid]
  have hsystem := (unmixed_of_pairsOwn hholds hpairs zeroUuid).spid (le32 2) (by decide)
    (by decide) (by decide) bareInstallation hlast
  revert hsystem
  decide

end McDaemon.Registry
