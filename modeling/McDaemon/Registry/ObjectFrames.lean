/-
# McDaemon.Registry.ObjectFrames — a store to one object leaves the others alone.

Each store operation writes the files of its own objects, and a store of data makes the directory
of the trustlet.  Since different objects have different files, and no file or directory of one is
above a file of another, a read of any other object returns what it returned before, also when the
store fails half way.
-/
import McDaemon.Registry.DataContainers
import McDaemon.Registry.TaPairing

namespace McDaemon.Registry

open McDaemon.Lib

/-- `MC_AUTH_TOKEN_PATH` leaves the token in the data registry: what it says, if anything, is the
registry itself, or no directory and no name of one that a store of data makes. -/
def TokenInRegistry (authTokenPath : Option (List String)) (s : Fs) : Prop :=
  ∀ path, authTokenPath = some path →
    path = mcRegistryDataPath ∨ s.isDir path = false ∧ ∀ uuid, path ≠ getTlDataPath uuid

/-! ## Stores -/

/-- The store operations, with their arguments. -/
inductive StoreCall where
  | authToken (so : List UInt8)
  | root (so : List UInt8)
  | sp (spid : Spid) (so : List UInt8)
  | tlCont (uuid : Uuid) (spid : Spid) (so : List UInt8)
  | tlData (so : Memory) (size : Nat)
  | taBlob (spid : Spid) (blob : Memory) (size : UInt32)

namespace StoreCall

/-- The call of the operation. -/
def call (authTokenPath : Option (List String)) (s : Fs) : StoreCall → McResult × Fs
  | authToken so => mcRegistryStoreAuthToken authTokenPath s so
  | root so => mcRegistryStoreRoot s so
  | sp spid so => mcRegistryStoreSp s spid so
  | tlCont uuid spid so => mcRegistryStoreTrustletCon s uuid spid so
  | tlData so size => mcRegistryStoreData s so size
  | taBlob spid blob size => (mcRegistryStoreTABlob s spid blob size).2

/-- The call with operations on the files that may fail, where only the store of a TA blob writes
a second file. -/
def callFaulty (authTokenPath : Option (List String)) (faults : InstallFaults) (s : Fs) :
    StoreCall → McResult × Fs
  | authToken so =>
    if so.length > 3 * maxSoContSize then (mcDrvErrInvalidParameter, s)
    else storeFileFaulty faults.bin s (getAuthTokenFilePath authTokenPath s) so
  | root so =>
    if so.length > 3 * maxSoContSize then (mcDrvErrInvalidParameter, s)
    else storeFileFaulty faults.bin s getRootContFilePath so
  | sp spid so =>
    if spid = 0 ∨ so.length > 3 * maxSoContSize then (mcDrvErrInvalidParameter, s)
    else storeFileFaulty faults.bin s (getSpContFilePath spid) so
  | tlCont uuid spid so =>
    if so.length > 3 * maxSoContSize then (mcDrvErrInvalidParameter, s)
    else storeFileFaulty faults.bin s (getTlContFilePath uuid spid) so
  | tlData so size =>
    if size ≠ sizeofSoDataCont then (mcDrvErrInvalidParameter, s)
    else if contType so ≠ contTypeTlData then (mcDrvErrInvalidParameter, s)
    else
      match s.mkdir (getTlDataPath (contUuid so)) with
      | none => (mcDrvErrInvalidParameter, s)
      | some t =>
        storeFileFaulty faults.bin t (getTlDataFilePath (contUuid so) (contPid so))
          (so.slice ⟨0, soSize so⟩)
  | taBlob spid blob size => storeTABlobFaulty faults s spid blob size

/-- What a call stores to. -/
def objects : StoreCall → List RegistryObject
  | authToken _ => [.authToken]
  | root _ => [.root]
  | sp spid _ => [.sp spid]
  | tlCont uuid spid _ => [.tlCont uuid spid]
  | tlData so _ => [.tlData (contUuid so) (contPid so)]
  | taBlob spid blob size =>
    match (checkTABlob spid blob size).result with
    | .error _ => []
    | .ok uuid =>
      if serviceType blob = serviceTypeSpTrustlet then [.taBin uuid, .taSpid uuid]
      else [.taBin uuid]

/-- When no operation on a file fails, the calls are those of the registry. -/
theorem callFaulty_none (authTokenPath : Option (List String)) (s : Fs) (c : StoreCall) :
    c.callFaulty authTokenPath {} s = c.call authTokenPath s := by
  cases c with
  | authToken so | root so | sp spid so | tlCont uuid spid so | tlData so size => rfl
  | taBlob spid blob size => exact storeTABlobFaulty_none s spid blob size

end StoreCall

/-! ## Reads -/

/-- A read of an object returns the same in two states of the registry, whatever else it is given.
The binaries are mapped, so what is read of them is the file. -/
def SameReads (authTokenPath : Option (List String)) (s t : Fs) : RegistryObject → Prop
  | .authToken =>
    mcRegistryReadAuthToken authTokenPath t = mcRegistryReadAuthToken authTokenPath s
  | .root => ∀ size, mcRegistryReadRoot t size = mcRegistryReadRoot s size
  | .sp spid => ∀ size, mcRegistryReadSp t spid size = mcRegistryReadSp s spid size
  | .tlCont uuid spid =>
    ∀ size, mcRegistryReadTrustletCon t uuid spid size = mcRegistryReadTrustletCon s uuid spid size
  | .tlData uuid pid =>
    ∀ context maxLen, mcRegistryReadData t context uuid pid maxLen =
      mcRegistryReadData s context uuid pid maxLen
  | .tlBin uuid =>
    t.get? (inAnyRegistry t (tlBinName uuid)) = s.get? (inAnyRegistry s (tlBinName uuid))
  | .taBin uuid =>
    t.get? (inAnyRegistry t (taBinName uuid)) = s.get? (inAnyRegistry s (taBinName uuid))
  | .taSpid uuid => readTASpid t uuid = readTASpid s uuid

/-- The objects of the registry do not alias. -/
structure NoAliasing (authTokenPath : Option (List String)) (s : Fs) : Prop where
  files : ∀ a b : RegistryObject, a ≠ b → a.path ≠ b.path ∧ ¬ a.path <+: b.path
  directories : ∀ uuid (o : RegistryObject), ¬ o.path <+: getTlDataPath uuid ∧
    (getTlDataPath uuid <+: o.path ↔ ∃ pid, o = .tlData uuid pid)
  stores : ∀ (c : StoreCall) (faults : InstallFaults) (o : RegistryObject), o ∉ c.objects →
    SameReads authTokenPath s (c.callFaulty authTokenPath faults s).2 o

/-! ## What a store writes -/

/-- Only files of these objects have been written, and directories of data made. -/
def Touches (os : List RegistryObject) (s t : Fs) : Prop :=
  ∀ q, t.get? q = s.get? q ∨
    (∃ o ∈ os, q = o.path ∧ ∃ left, t.get? q = some (.file left)) ∨
    ∃ uuid pid, RegistryObject.tlData uuid pid ∈ os ∧ q = getTlDataPath uuid

section Touches

variable {os : List RegistryObject} {s t u : Fs} {o : RegistryObject}
  {authTokenPath : Option (List String)}

theorem Touches.refl (os : List RegistryObject) (s : Fs) : Touches os s s := fun _ => .inl rfl

theorem Touches.trans (hst : Touches os s t) (htu : Touches os t u) : Touches os s u := by
  intro q
  rcases htu q with hsame | hwritten
  · rw [hsame]
    exact hst q
  · exact .inr hwritten

/-- The store of one file, whatever becomes of it. -/
theorem touches_storeFileFaulty (fault : Option FileFault) (s : Fs) (ho : o ∈ os)
    (so : List UInt8) : Touches os s (storeFileFaulty fault s o.path so).2 := by
  unfold storeFileFaulty
  cases FileFault.outcome so fault with
  | none => exact .refl os s
  | some p =>
    obtain ⟨left, code⟩ := p
    dsimp only
    cases hwrite : s.writeFile o.path left with
    | none => exact .refl os s
    | some t =>
      intro q
      have hget := FileSystem.get?_writeFile hwrite q
      by_cases hq : q = o.path
      · rw [if_pos hq] at hget
        exact .inr (.inl ⟨o, ho, hq, left, hget⟩)
      · rw [if_neg hq] at hget
        exact .inl hget

theorem touches_mkdir {uuid : Uuid} {pid : Pid} (ho : RegistryObject.tlData uuid pid ∈ os)
    (h : s.mkdir (getTlDataPath uuid) = some t) : Touches os s t := by
  intro q
  have hget := FileSystem.get?_mkdir h q
  by_cases hq : q = getTlDataPath uuid
  · exact .inr (.inr ⟨uuid, pid, ho, hq⟩)
  · rw [if_neg hq] at hget
    exact .inl hget

theorem getAuthTokenFilePath_of_inRegistry (h : TokenInRegistry authTokenPath s) :
    getAuthTokenFilePath authTokenPath s = RegistryObject.authToken.path := by
  cases authTokenPath with
  | none => rfl
  | some path =>
    show (if s.isDir path then path ++ [authTokenFileName] else inRegistry authTokenFileName) = _
    rcases h path rfl with rfl | ⟨hfile, -⟩
    · exact ite_self _
    · rw [hfile]
      rfl

theorem touches_storeTABlobFaulty (faults : InstallFaults) (s : Fs) (spid : Spid) (blob : Memory)
    (size : UInt32) :
    Touches (StoreCall.taBlob spid blob size).objects s
      (storeTABlobFaulty faults s spid blob size).2 := by
  unfold storeTABlobFaulty
  rw [StoreCall.objects]
  cases (checkTABlob spid blob size).result with
  | error e => exact .refl _ s
  | ok uuid =>
    dsimp only
    by_cases hsp : serviceType blob = serviceTypeSpTrustlet
    · rw [if_pos hsp]
      have hbin : Touches [.taBin uuid, .taSpid uuid] s (storeFileFaulty faults.bin s
          (getTABinFilePath uuid) (blob.slice ⟨0, size.toNat⟩)).2 :=
        touches_storeFileFaulty (o := .taBin uuid) _ s (by simp) _
      split
      · exact hbin
      · exact hbin.trans (touches_storeFileFaulty (o := .taSpid uuid) _ _ (by simp) _)
    · rw [if_neg hsp]
      have hbin : Touches [.taBin uuid] s (storeFileFaulty faults.bin s
          (getTABinFilePath uuid) (blob.slice ⟨0, size.toNat⟩)).2 :=
        touches_storeFileFaulty (o := .taBin uuid) _ s (by simp) _
      split
      · exact hbin
      · exact hbin

/-- **One store.** It writes its own objects. -/
theorem StoreCall.touches (h : TokenInRegistry authTokenPath s) (faults : InstallFaults)
    (c : StoreCall) : Touches c.objects s (c.callFaulty authTokenPath faults s).2 := by
  have hfile : ∀ (refused : Prop) [Decidable refused] (o : RegistryObject) (so : List UInt8),
      o ∈ c.objects → Touches c.objects s (if refused then (mcDrvErrInvalidParameter, s)
        else storeFileFaulty faults.bin s o.path so).2 := by
    intro refused _ o so ho
    split
    · exact .refl _ s
    · exact touches_storeFileFaulty _ s ho so
  cases c with
  | authToken so =>
    rw [callFaulty, getAuthTokenFilePath_of_inRegistry h]
    exact hfile _ .authToken so List.mem_cons_self
  | root so => exact hfile _ .root so List.mem_cons_self
  | sp spid so => exact hfile _ (.sp spid) so List.mem_cons_self
  | tlCont uuid spid so => exact hfile _ (.tlCont uuid spid) so List.mem_cons_self
  | tlData so size =>
    show Touches _ s (ite _ _ _ : McResult × Fs).2
    split
    · exact .refl _ s
    split
    · exact .refl _ s
    cases hmkdir : s.mkdir (getTlDataPath (contUuid so)) with
    | none => exact .refl _ s
    | some t =>
      have hown : RegistryObject.tlData (contUuid so) (contPid so) ∈
        (StoreCall.tlData so size).objects := List.mem_cons_self
      exact (touches_mkdir hown hmkdir).trans (touches_storeFileFaulty _ t hown _)
  | taBlob spid blob size => exact touches_storeTABlobFaulty faults s spid blob size

end Touches

/-! ## What a store leaves alone -/

section Frame

variable {os : List RegistryObject} {s t : Fs} {o : RegistryObject}
  {authTokenPath : Option (List String)}

/-- **The file of any other object** is as it was. -/
theorem Touches.get?_path (h : Touches os s t) (ho : o ∉ os) : t.get? o.path = s.get? o.path := by
  rcases h o.path with hsame | ⟨o', ho', hpath, -⟩ | ⟨uuid, pid, -, hpath⟩
  · exact hsame
  · rw [RegistryObject.path_injective hpath] at ho
    exact absurd ho' ho
  · exact absurd hpath (o.path_ne_getTlDataPath uuid)

/-- The read-only registry has its own directory. -/
theorem Touches.get?_system (h : Touches os s t) (name : String) :
    t.get? (inSystemRegistry name) = s.get? (inSystemRegistry name) := by
  rcases h (inSystemRegistry name) with hsame | ⟨o, -, hpath, -⟩ | ⟨uuid, pid, -, hpath⟩
  · exact hsame
  · rw [o.path_eq] at hpath
    rcases o.directory_eq with hdir | ⟨uuid, pid, -, hdir⟩
    · rw [hdir] at hpath
      exact absurd hpath (inSystemRegistry_ne name o.fileName)
    · rw [hdir] at hpath
      exact absurd (congrArg List.length hpath) (show ¬ 4 = 5 by decide)
  · exact absurd hpath (inSystemRegistry_ne name _)

/-- A file looked up in both registries is as it was. -/
theorem Touches.get?_any (h : Touches os s t) {name : String}
    (hname : t.get? (inRegistry name) = s.get? (inRegistry name)) :
    t.get? (inAnyRegistry t name) = s.get? (inAnyRegistry s name) := by
  have hexists : t.exists? (inSystemRegistry name) = s.exists? (inSystemRegistry name) :=
    congrArg Option.isSome (h.get?_system name)
  unfold inAnyRegistry
  rw [hexists]
  split
  · exact h.get?_system name
  · exact hname

/-- The token stays in the data registry. -/
theorem Touches.tokenInRegistry (h : Touches os s t) (hs : TokenInRegistry authTokenPath s) :
    TokenInRegistry authTokenPath t := by
  intro path hpath
  rcases hs path hpath with hself | ⟨hfile, hdata⟩
  · exact .inl hself
  · refine .inr ⟨FileSystem.isDir_eq_false fun hdir => ?_, hdata⟩
    rcases h path with hsame | ⟨o, -, -, left, hleft⟩ | ⟨uuid, pid, -, hq⟩
    · rw [hsame] at hdir
      rw [FileSystem.isDir_iff.mpr hdir] at hfile
      cases hfile
    · rw [hleft] at hdir
      cases hdir
    · exact hdata uuid hq

/-- **Reads of any other object** return what they returned. -/
theorem Touches.sameReads (h : Touches os s t) (hs : TokenInRegistry authTokenPath s)
    (ho : o ∉ os) : SameReads authTokenPath s t o := by
  have hfile := h.get?_path ho
  cases o with
  | authToken =>
    show mcRegistryReadAuthToken authTokenPath t = mcRegistryReadAuthToken authTokenPath s
    unfold mcRegistryReadAuthToken
    rw [getAuthTokenFilePath_of_inRegistry hs,
      getAuthTokenFilePath_of_inRegistry (h.tokenInRegistry hs), hfile]
  | root =>
    intro size
    exact readFile_congr hfile size
  | sp spid =>
    intro size
    unfold mcRegistryReadSp
    rw [show readFile t (getSpContFilePath spid) size = _ from readFile_congr hfile size]
    rfl
  | tlCont uuid spid =>
    intro size
    exact readFile_congr hfile size
  | tlData uuid pid =>
    intro context maxLen
    unfold mcRegistryReadData
    rw [show t.get? (getTlDataFilePath uuid pid) = s.get? (getTlDataFilePath uuid pid) from hfile]
  | tlBin uuid => exact h.get?_any hfile
  | taBin uuid => exact h.get?_any hfile
  | taSpid uuid =>
    show readTASpid t uuid = readTASpid s uuid
    unfold readTASpid
    have hany : t.get? (inAnyRegistry t (taSpidName uuid)) =
        s.get? (inAnyRegistry s (taSpidName uuid)) := h.get?_any hfile
    rw [hany]

end Frame

/-- **The objects of the registry do not alias.** -/
theorem noAliasing {authTokenPath : Option (List String)} {s : Fs}
    (hs : TokenInRegistry authTokenPath s) : NoAliasing authTokenPath s where
  files := fun _ _ hne => ⟨RegistryObject.path_ne hne, RegistryObject.not_path_prefix hne⟩
  directories := by
    intro uuid o
    refine ⟨fun h => ?_, RegistryObject.getTlDataPath_prefix_iff⟩
    -- a file is at least as long a path as the directory
    have hlong := o.length_path
    have hlen : (getTlDataPath uuid).length = mcRegistryDataPath.length + 1 := rfl
    have heq := h.eq_of_length (Nat.le_antisymm h.length_le (by omega))
    exact o.path_ne_getTlDataPath uuid heq
  stores := fun c faults o ho => (c.touches hs faults).sameReads hs ho

/-- A registry of one service provider. -/
def oneSpRegistry : Fs :=
  (storeFile (storeFile freshRegistry getRootContFilePath [1]).2 (getSpContFilePath 1) [2]).2

/-- `MC_AUTH_TOKEN_PATH` names the registry itself, or something that is not there. -/
theorem noAliasing_oneSpRegistry :
    oneSpRegistry.get? (getSpContFilePath 1) = some (.file [2]) ∧
      NoAliasing (some mcRegistryDataPath) oneSpRegistry ∧
      NoAliasing (some ["data", "token"]) oneSpRegistry := by
  refine ⟨by decide +kernel, noAliasing ?_, noAliasing ?_⟩
  · rintro _ ⟨⟩
    exact .inl rfl
  · rintro _ ⟨⟩
    exact .inr ⟨by decide +kernel, fun uuid h => nomatch congrArg List.length h⟩

end McDaemon.Registry
