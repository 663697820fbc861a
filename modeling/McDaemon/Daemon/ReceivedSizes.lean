/-
# McDaemon.Daemon.ReceivedSizes — how much of the received buffer a write command reads.

The message says how long the payload is, and the payload is received into a buffer of this size.
What is read of the buffer afterwards goes by other lengths: a token and a root container are
shared with the secure world by the size of their types, data of a trustlet is written to its file
as far as the header inside it says, and a TA blob is looked at where its headers are.
-/
import McDaemon.Daemon.HeaderReads
import McDaemon.Daemon.RegistryCommands
import McDaemon.Registry.DataContainers

namespace McDaemon.Daemon.ReceivedSizes

open McDaemon.Lib
open McDaemon.Lib.Reader
open McDaemon.Registry
open McDaemon.Daemon.Framing (Stream Turn)
open McDaemon.Daemon.HeaderReads
open McDaemon.Device (KmodAnswers)

/-! ## Reads of the buffer -/

/-- What surrounds the handler of a write command: the round, where the token is, the memory behind
the received buffer, the kernel module, and for the check of a TA blob the device, the allocation
of the service blob, the build and what the secure world answers. -/
structure WriteSurroundings where
  turn : Turn
  authTokenPath : Option (List String)
  heap : Memory
  kmod : KmodAnswers
  device : Bool
  malloc : Bool
  ndebug : Bool
  checkLoad : McResult

/-- The bytes that are written to a file, when there is one to write them to. -/
def storeReads (stored : McResult × Fs) (size : Nat) : List Span :=
  if stored.1 = mcDrvOk then [⟨0, size⟩] else []

/-- `loadToken`, by the bytes that it shares with the secure world. -/
def loadToken (kmod : KmodAnswers) (sosize : Nat) : List Span :=
  if kmod.registerWsmL2 then [⟨0, sosize⟩] else []

/-- The store of a token or of a root container, which is then passed on. -/
def storeAndLoad (kmod : KmodAnswers) (stored : McResult × Fs) (size sosize : Nat) : List Span :=
  storeReads stored size ++ if stored.1 = mcDrvOk then loadToken kmod sosize else []

/-- The bytes that `mcRegistryStoreData` reads.  The lengths in the header are only looked at when
the file is open. -/
def storeDataReads (s : Fs) (so : Memory) (size : Nat) : List Span :=
  if size ≠ sizeofSoDataCont then []
  else if contType so ≠ contTypeTlData then [⟨44, 4⟩]
  else if (mcRegistryStoreData s so size).1 ≠ mcDrvOk then [⟨44, 4⟩, ⟨52, 16⟩, ⟨68, 4⟩]
  else [⟨44, 4⟩, ⟨52, 16⟩, ⟨68, 4⟩, ⟨36, 4⟩, ⟨40, 4⟩, ⟨0, soSize so⟩]

section Surroundings

variable (sur : WriteSurroundings)

/-- The received bytes, with what lies behind them. -/
def received (so : List UInt8) : Memory := fun i => so.getD i (sur.heap i)

/-- The bytes that `processLoadCheck` and `mcRegistryStoreTABlob` read of a blob. -/
def storeTABlobReads (s : Fs) (spid : Spid) (blob : Memory) (size : Nat) : List Span :=
  let check := processTrustlet s spid blob size sur.device sur.malloc sur.ndebug
    (.storeTABlob sur.kmod)
  check.looked ++
    if check.result = .ok () ∧ sur.kmod.unregisterWsmL2 = true ∧ sur.checkLoad = mcDrvOk then
      (mcRegistryStoreTABlob s spid blob (UInt32.ofNat size)).1
    else []

/-- The bytes of the received buffer that are read in a call of the registry. -/
def callReads (s : Fs) : RegistryCall → List Span
  | .storeAuthToken so =>
    storeAndLoad sur.kmod (mcRegistryStoreAuthToken sur.authTokenPath s so) so.length
      sizeofAuthTokenCont
  | .storeRoot so => storeAndLoad sur.kmod (mcRegistryStoreRoot s so) so.length sizeofRootCont
  | .storeSp spid so => storeReads (mcRegistryStoreSp s spid so) so.length
  | .storeTrustletCon uuid spid so =>
    storeReads (mcRegistryStoreTrustletCon s uuid spid so) so.length
  | .storeData so => storeDataReads s (received sur so) so.length
  | .storeTABlob spid blob => storeTABlobReads sur s spid (received sur blob) blob.length
  | _ => []

/-- The bytes of the received buffer that `processRegistryWriteData` reads. -/
def writeDataReads (s : Fs) (c : DrvCommand) (stream : Stream) : List Span :=
  match receiveWriteData sur.turn c stream with
  | (.error _, _) => []
  | (.ok call, _) => callReads sur s call

/-- Everything that is read lies in the `soSize` bytes that have been received. -/
def ReadsReceived (s : Fs) (c : DrvCommand) (stream : Stream) : Prop :=
  ∀ w ∈ writeDataReads sur s c stream, w.Below (ofLe (stream.take 4))

/-! ## Sizes that fit -/

/-- A file can be opened for writing. -/
def CanOpen (s : Fs) (path : List String) : Prop :=
  s.isDir path = false ∧ path ≠ [] ∧ s.isDir path.dropLast = true

/-- A data container gets as far as its file. -/
structure DataReaches (s : Fs) (so : Memory) (size : Nat) : Prop where
  size_eq : size = sizeofSoDataCont
  type_eq : contType so = contTypeTlData
  registry : s.get? mcRegistryDataPath = some .dir
  absent : s.get? (getTlDataPath (contUuid so)) = none
  file : s.get? (getTlDataFilePath (contUuid so) (contPid so)) ≠ some .dir

/-- A TA blob passes the check of the secure world. -/
structure PassesLoadCheck (s : Fs) (spid : Spid) (blob : Memory) (size : Nat) : Prop where
  device : sur.device = true
  size_le : size ≤ maxTlSize
  magic : magic blob = mcServiceHeaderMagicBe
  loads : Loads s spid blob size sur.malloc
  shared : sur.kmod.registerWsmL2 = true
  unshared : sur.kmod.unregisterWsmL2 = true
  accepted : sur.checkLoad = mcDrvOk

/-- The attestation record lies in the blob as far as it is read. -/
def RecordInside (blob : Memory) (size : Nat) : Prop :=
  attestationOffset blob + 12 ≤ size ∧
  (sizeofUuidAttestation ≤ atSize blob →
    blob.slice (atMagicField (attestationOffset blob)) = attestationMagic →
      attestationOffset blob + 16 ≤ size ∧
      (ofBe (blob.slice (atVersionField (attestationOffset blob))) = atVersion →
        attestationOffset blob + 32 ≤ size))

/-- The headers of a TA blob lie in it, as far as it gets. -/
structure BlobFits (s : Fs) (spid : Spid) (blob : Memory) (size : Nat) : Prop where
  header : sur.device = true → size ≤ maxTlSize →
    HeaderFits s spid blob size sur.malloc sur.ndebug (.storeTABlob sur.kmod)
  record : PassesLoadCheck sur s spid blob size →
    ReachesAttestation spid blob (UInt32.ofNat size) → RecordInside blob size

/-- The payload is as long as what is made of it. -/
def SizesFit (s : Fs) : RegistryCall → Prop
  | .storeAuthToken so =>
    CanOpen s (getAuthTokenFilePath sur.authTokenPath s) → sur.kmod.registerWsmL2 = true →
      sizeofAuthTokenCont ≤ so.length
  | .storeRoot so =>
    CanOpen s getRootContFilePath → sur.kmod.registerWsmL2 = true → sizeofRootCont ≤ so.length
  | .storeData so =>
    DataReaches s (received sur so) so.length → soSize (received sur so) ≤ sizeofSoDataCont
  | .storeTABlob spid blob => BlobFits sur s spid (received sur blob) blob.length
  | _ => True

end Surroundings

/-! ## What has been received -/

/-- The payload of a write. -/
def payload : RegistryCall → List UInt8
  | .storeAuthToken so | .storeRoot so | .storeData so => so
  | .storeSp _ so | .storeTABlob _ so => so
  | .storeTrustletCon _ _ so => so
  | _ => []

/-- The payload is as long as the message says. -/
theorem length_payload {turn : Turn} {c : DrvCommand} {stream rest : Stream} {call : RegistryCall}
    (h : receiveWriteData turn c stream = (.ok call, rest)) :
    (payload call).length = ofLe (stream.take 4) ∧ (payload call).length < 2 ^ 32 := by
  obtain ⟨_, t, hpermitted, h⟩ := of_bind_eq_ok h
  have ht : t = stream := by
    rw [of_require_eq_ok hpermitted] at hpermitted
    exact (Prod.mk.inj hpermitted).2.symm
  obtain ⟨size, u, hsize, h⟩ := of_bind_eq_ok h
  obtain ⟨_, v, -, h⟩ := of_bind_eq_ok h
  obtain ⟨rfl, hlen⟩ := of_take_eq_ok hsize
  rw [ht] at h hlen
  have hlt := ofLe_lt (stream.take 4)
  rw [hlen] at hlt
  -- the last field is the payload, whatever comes before it
  have hfield : ∀ {w w' : Stream} {g : List UInt8 → RegistryCall},
      (∀ so, payload (g so) = so) →
      (getField (ofLe (stream.take 4)) >>= fun so => pure (g so)) w = (.ok call, w') →
        (payload call).length = ofLe (stream.take 4) := by
    intro w w' g hg hw
    obtain ⟨so, t, hso, hcall⟩ := of_bind_eq_ok hw
    obtain rfl := Except.ok.inj (Prod.mk.inj hcall).1
    rw [hg]
    exact (of_take_eq_ok hso).2
  suffices heq : (payload call).length = ofLe (stream.take 4) from ⟨heq, by rw [heq]; exact hlt⟩
  unfold receiveObject at h
  split at h
  · exact hfield (fun _ => rfl) h
  · exact hfield (fun _ => rfl) h
  · obtain ⟨spid, _, -, h⟩ := of_bind_eq_ok h
    exact hfield (fun _ => rfl) h
  · obtain ⟨uuid, _, -, h⟩ := of_bind_eq_ok h
    obtain ⟨spid, _, -, h⟩ := of_bind_eq_ok h
    exact hfield (fun _ => rfl) h
  · exact hfield (fun _ => rfl) h
  · obtain ⟨spid, _, -, h⟩ := of_bind_eq_ok h
    obtain ⟨_, _, -, h⟩ := of_bind_eq_ok h
    exact hfield (fun _ => rfl) h
  · cases h

/-! ## One call after the other -/

section Calls

variable {sur : WriteSurroundings} {s : Fs} {path : List String} {so : List UInt8} {n : Nat}

theorem storeFile_ok_iff : (storeFile s path so).1 = mcDrvOk ↔ CanOpen s path := by
  unfold storeFile FileSystem.writeFile CanOpen
  split
  · next hnone =>
    refine iff_of_false (show ¬ mcDrvErrInvalidDeviceFile = mcDrvOk by decide) fun hopen => ?_
    rw [if_pos hopen] at hnone
    cases hnone
  · next hsome => exact iff_of_true rfl (Option.ite_none_right_eq_some.mp hsome).1

/-- What is written to a file is what has been received. -/
theorem storeReads_below {stored : McResult × Fs} : ∀ w ∈ storeReads stored n, w.Below n := by
  intro w hw
  unfold storeReads at hw
  split at hw
  · rw [List.mem_singleton.mp hw]
    exact whole_below
  · cases hw

theorem storeAndLoad_below {kmod : KmodAnswers} {stored : McResult × Fs} {sosize : Nat}
    (hpos : 0 < sosize) : (∀ w ∈ storeAndLoad kmod stored n sosize, w.Below n) ↔
      (stored.1 = mcDrvOk → kmod.registerWsmL2 = true → sosize ≤ n) := by
  have hspan : (⟨0, sosize⟩ : Span).Below n ↔ sosize ≤ n := by
    rw [Span.below_of_pos hpos]
    show 0 + sosize ≤ n ↔ _
    rw [Nat.zero_add]
  unfold storeAndLoad loadToken
  rw [List.forall_mem_append, and_iff_right storeReads_below]
  by_cases hok : stored.1 = mcDrvOk
  · by_cases hkmod : kmod.registerWsmL2 = true
    · simp [hok, hkmod, hspan]
    · simp [hok, hkmod]
  · simp [hok]

/-- A store of a container of less than three container sizes. -/
theorem below_iff_of_store {kmod : KmodAnswers} {sosize : Nat} (hpos : 0 < sosize)
    (hroom : sosize ≤ 3 * maxSoContSize) :
    (∀ w ∈ storeAndLoad kmod (if so.length > 3 * maxSoContSize then (mcDrvErrInvalidParameter, s)
        else storeFile s path so) so.length sosize, w.Below so.length) ↔
      (CanOpen s path → kmod.registerWsmL2 = true → sosize ≤ so.length) := by
  rw [storeAndLoad_below hpos]
  by_cases hlong : so.length > 3 * maxSoContSize
  · rw [if_pos hlong]
    have hrefused : ¬ mcDrvErrInvalidParameter = mcDrvOk := by decide
    exact iff_of_true (fun h => absurd h hrefused) fun _ _ => by omega
  · rw [if_neg hlong, storeFile_ok_iff]

/-- A data container is stored exactly if it gets as far as its file. -/
theorem mcRegistryStoreData_ok_iff {mem : Memory} :
    (mcRegistryStoreData s mem n).1 = mcDrvOk ↔ DataReaches s mem n := by
  have hrefused : ¬ mcDrvErrInvalidParameter = mcDrvOk := by decide
  unfold mcRegistryStoreData
  by_cases hsize : n = sizeofSoDataCont
  swap
  · rw [if_pos hsize]
    exact iff_of_false hrefused fun h => hsize h.size_eq
  rw [if_neg (not_not.mpr hsize)]
  by_cases htype : contType mem = contTypeTlData
  swap
  · rw [if_pos htype]
    exact iff_of_false hrefused fun h => htype h.type_eq
  rw [if_neg (not_not.mpr htype)]
  have hfile := getTlDataFilePath_ne (contUuid mem) (contPid mem) (contUuid mem)
  cases hmkdir : s.mkdir (getTlDataPath (contUuid mem)) with
  | none =>
    refine iff_of_false hrefused fun h => ?_
    obtain ⟨t, ht, -⟩ := FileSystem.mkdir_spec (n := byteArrayToString (contUuid mem).toList)
      h.registry h.absent
    rw [show s.mkdir (mcRegistryDataPath ++ [byteArrayToString (contUuid mem).toList]) = none from
      hmkdir] at ht
    cases ht
  | some t =>
    have hget := FileSystem.get?_mkdir hmkdir
    show (storeFile t (getTlDataFilePath (contUuid mem) (contPid mem)) _).1 = mcDrvOk ↔ _
    rw [storeFile_ok_iff]
    constructor
    · rintro ⟨hnot, -, -⟩
      obtain ⟨habsent, -, hdir⟩ := (Option.ite_none_right_eq_some.mp hmkdir).1
      rw [show (getTlDataPath (contUuid mem)).dropLast = mcRegistryDataPath from
        List.dropLast_concat] at hdir
      refine ⟨hsize, htype, FileSystem.isDir_iff.mp hdir, ?_, fun hisdir => ?_⟩
      · exact Option.isNone_iff_eq_none.mp (by simpa [FileSystem.exists?] using habsent)
      · have hthere := hget (getTlDataFilePath (contUuid mem) (contPid mem))
        rw [if_neg hfile, hisdir] at hthere
        rw [FileSystem.isDir_iff.mpr hthere] at hnot
        cases hnot
    · intro h
      refine ⟨FileSystem.isDir_eq_false ?_, by simp [getTlDataFilePath], ?_⟩
      · rw [hget, if_neg hfile]
        exact h.file
      · rw [getTlDataFilePath, List.dropLast_concat]
        exact FileSystem.isDir_iff.mpr (by rw [hget, if_pos rfl])

theorem storeDataReads_below {mem : Memory} :
    (∀ w ∈ storeDataReads s mem n, w.Below n) ↔
      (DataReaches s mem n → soSize mem ≤ sizeofSoDataCont) := by
  unfold storeDataReads
  by_cases hsize : n = sizeofSoDataCont
  swap
  · rw [if_pos hsize]
    exact iff_of_true (fun _ h => nomatch h) fun h => absurd h.size_eq hsize
  rw [if_neg (not_not.mpr hsize), hsize]
  -- the fields of the header lie in a container
  have hfield : ∀ w : Span, w.start + w.len ≤ 2168 → w.Below sizeofSoDataCont := fun w hw =>
    Span.below_iff.mpr (.inr hw)
  have htypeField := hfield ⟨44, 4⟩ (by decide)
  have huuidField := hfield ⟨52, 16⟩ (by decide)
  have hpidField := hfield ⟨68, 4⟩ (by decide)
  have hplainField := hfield ⟨36, 4⟩ (by decide)
  have hencryptedField := hfield ⟨40, 4⟩ (by decide)
  by_cases htype : contType mem = contTypeTlData
  swap
  · rw [if_pos htype]
    refine iff_of_true (fun w hw => ?_) fun h => absurd h.type_eq htype
    rw [List.mem_singleton.mp hw]
    exact htypeField
  rw [if_neg (not_not.mpr htype)]
  have hok : (mcRegistryStoreData s mem sizeofSoDataCont).1 = mcDrvOk ↔
      DataReaches s mem sizeofSoDataCont := mcRegistryStoreData_ok_iff
  by_cases hreaches : DataReaches s mem sizeofSoDataCont
  · rw [if_neg (not_not.mpr (hok.mpr hreaches))]
    have hwhole : (⟨0, soSize mem⟩ : Span).Below sizeofSoDataCont ↔
        soSize mem ≤ sizeofSoDataCont := by
      rw [Span.below_iff]
      show soSize mem = 0 ∨ 0 + soSize mem ≤ _ ↔ _
      omega
    simp only [List.forall_mem_cons, htypeField, huuidField, hpidField, hplainField,
      hencryptedField, hwhole, true_and, hreaches, true_implies]
    exact and_iff_left fun _ h => nomatch h
  · rw [if_pos fun h => hreaches (hok.mp h)]
    refine iff_of_true ?_ fun h => absurd h hreaches
    simp only [List.forall_mem_cons, htypeField, huuidField, hpidField, true_and]
    exact fun _ h => nomatch h

/-- A blob that the secure world is asked about. -/
theorem processTrustlet_ok_iff {spid : Spid} {blob : Memory} :
    (processTrustlet s spid blob n sur.device sur.malloc sur.ndebug
        (.storeTABlob sur.kmod)).result = .ok () ↔
      sur.device = true ∧ ∃ obj, mcRegistryMemGetServiceBlob s spid blob n sur.malloc =
        (some obj, true) ∧ obj.len ≠ 0 ∧ sur.kmod.registerWsmL2 = true := by
  have hhand : ∀ header : Memory,
      ((LoadCommand.storeTABlob sur.kmod).handOver header).result = .ok () := fun _ => rfl
  have hkmod : (LoadCommand.storeTABlob sur.kmod).kmod = sur.kmod := rfl
  unfold processTrustlet
  simp only [Inspection.bind_eq_ok, Inspection.refuseIf_eq_ok, exists_const,
    memGetServiceBlob_eq_ok, hhand, hkmod, and_true, Bool.not_eq_false]

theorem storeTABlobReads_below {spid : Spid} {blob : Memory} (hn : n < 2 ^ 32) :
    (∀ w ∈ storeTABlobReads sur s spid blob n, w.Below n) ↔ BlobFits sur s spid blob n := by
  have hsize : (UInt32.ofNat n).toNat = n := UInt32.toNat_ofNat_of_lt' hn
  have hcheck : (∀ w ∈ (processTrustlet s spid blob n sur.device sur.malloc sur.ndebug
      (.storeTABlob sur.kmod)).looked, w.Below n) ↔ (sur.device = true → n ≤ maxTlSize →
        HeaderFits s spid blob n sur.malloc sur.ndebug (.storeTABlob sur.kmod)) := by
    rw [← inside_processTrustlet]
    exact (and_iff_left fun _ _ => trivial).symm
  have hrecord : (∀ w ∈ (mcRegistryStoreTABlob s spid blob (UInt32.ofNat n)).1, w.Below n) ↔
      (ReachesAttestation spid blob (UInt32.ofNat n) → RecordInside blob n) := by
    have hlooked : (∀ w ∈ (mcRegistryStoreTABlob s spid blob (UInt32.ofNat n)).1,
        w.Below (UInt32.ofNat n).toNat) ↔ ∀ w ∈ (checkTABlob spid blob (UInt32.ofNat n)).looked,
          w.Below (UInt32.ofNat n).toNat := storeTABlob_looked
    have hinside : (checkTABlob spid blob (UInt32.ofNat n)).Inside (UInt32.ofNat n).toNat
        (fun _ => True) ↔ (ReachesAttestation spid blob (UInt32.ofNat n) →
          (checkAttestation blob (UInt32.ofNat n)).Inside (UInt32.ofNat n).toNat fun _ => True) :=
      inside_checkTABlob fun _ _ => trivial
    rw [hsize] at hlooked hinside
    rw [hlooked, ← and_iff_left (a := ∀ w ∈ _, _) fun _ _ => trivial]
    refine hinside.trans (forall_congr' fun hreaches => ?_)
    have hattestation := @inside_checkAttestation blob _ (fun _ => True) hreaches.size_le
    rw [hsize] at hattestation
    unfold RecordInside
    simpa only [and_true] using hattestation
  unfold storeTABlobReads
  dsimp only
  rw [List.forall_mem_append, hcheck]
  constructor
  · rintro ⟨hheader, hstore⟩
    refine ⟨hheader, fun hpasses => ?_⟩
    obtain ⟨hdevice, hle, hmagic, hloads, hshared, hunshared, haccepted⟩ := hpasses
    have hintro := (hheader hdevice hle).intro
    obtain ⟨obj, hobj⟩ := returned_iff.mpr ⟨hle, hmagic, hloads⟩
    have hlen := tlSize_le_of_returned hobj
    have hok := processTrustlet_ok_iff.mpr ⟨hdevice, obj, hobj, by omega, hshared⟩
    rw [if_pos ⟨hok, hunshared, haccepted⟩] at hstore
    exact hrecord.mp hstore
  · rintro ⟨hheader, hstore⟩
    refine ⟨hheader, ?_⟩
    split
    · next hpasses =>
      obtain ⟨hok, hunshared, haccepted⟩ := hpasses
      obtain ⟨hdevice, obj, hobj, -, hshared⟩ := processTrustlet_ok_iff.mp hok
      obtain ⟨hle, hmagic, hloads⟩ := returned_iff.mp ⟨obj, hobj⟩
      exact hrecord.mpr
        (hstore ⟨hdevice, hle, hmagic, hloads, hshared, hunshared, haccepted⟩)
    · exact fun _ h => nomatch h

end Calls

/-! ## All commands -/

/-- **Sizes that do not exceed what has been received.** A write command reads no further than the
`soSize` bytes exactly when a token, a root container or a TA blob is as long as what is read of
it, and the header of a data container counts no more than the container. -/
theorem readsReceived_iff (sur : WriteSurroundings) (s : Fs) (c : DrvCommand) (stream : Stream) :
    ReadsReceived sur s c stream ↔
      ∀ call rest, receiveWriteData sur.turn c stream = (.ok call, rest) → SizesFit sur s call := by
  unfold ReadsReceived writeDataReads
  cases hreceive : receiveWriteData sur.turn c stream with
  | mk result rest =>
  cases result with
  | error e => exact iff_of_true (fun _ h => nomatch h) fun _ _ h => nomatch h
  | ok call =>
    obtain ⟨hlen, hlt⟩ := length_payload hreceive
    rw [← hlen]
    have hcall : (∀ w ∈ callReads sur s call, w.Below (payload call).length) ↔
        SizesFit sur s call := by
      cases call with
      | storeAuthToken so => exact below_iff_of_store (by decide) (by decide)
      | storeRoot so => exact below_iff_of_store (by decide) (by decide)
      | storeSp spid so => exact iff_of_true storeReads_below trivial
      | storeTrustletCon uuid spid so => exact iff_of_true storeReads_below trivial
      | storeData so => exact storeDataReads_below
      | storeTABlob spid blob => exact storeTABlobReads_below hlt
      | readAuthToken | deleteAuthToken | readRoot | cleanupRoot | readSp spid | cleanupSp spid
      | readTrustletCon uuid spid | cleanupTrustlet uuid spid =>
        exact iff_of_true (fun _ h => nomatch h) trivial
    refine hcall.trans ⟨fun h call' rest' heq => ?_, fun h => h call rest rfl⟩
    obtain rfl := Except.ok.inj (Prod.mk.inj heq).1
    exact h

/-- Nothing fails around the handler. -/
def smoothly : WriteSurroundings where
  turn := ⟨false, [], true, true, true, mcDrvOk⟩
  authTokenPath := none
  heap := fun _ => 0
  kmod := {}
  device := true
  malloc := true
  ndebug := true
  checkLoad := mcDrvOk

/-- A root container of one byte: 220 are shared with the secure world. -/
theorem not_readsReceived_shortRoot :
    ¬ ReadsReceived smoothly freshRegistry .regWriteRootCont (le32 1 ++ [0]) := by
  intro h
  have hread : (⟨0, 220⟩ : Span) ∈
      writeDataReads smoothly freshRegistry .regWriteRootCont (le32 1 ++ [0]) := by decide
  have hbelow := h _ hread 1 (by decide) (by decide)
  exact absurd hbelow (by decide)

end McDaemon.Daemon.ReceivedSizes
