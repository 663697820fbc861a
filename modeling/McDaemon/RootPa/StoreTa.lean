/-
# McDaemon.RootPa.StoreTa — RootPA installs the binary of a trusted application.

An application has two uuids.  Its container is kept under the uuid that every trustlet has, which
the caller gives; the registry files its binary under the uuid that is found in the binary, and for
the application of a service provider that is the one of the attestation record.  RootPA looks for
the container and hands the binary on, without the uuid.
-/
import McDaemon.Registry.DataContainers
import McDaemon.Registry.TaPairing
import McDaemon.RootPa.Provisioning

namespace McDaemon.RootPa

open McDaemon.Lib
open McDaemon.Lib.Inspection
open McDaemon.Registry
open McDaemon.RootPa.Provisioning (RootpaError rootpaOk rootpaErrorIllegalArgument)

def rootpaErrorRegistry : RootpaError := 0x00000004

/-! ## The calls of the registry -/

/-- `CONTAINER_BUFFER_SIZE`. -/
def containerBufferSize : Nat := 4096

/-- What is read lies at the start of the buffer, whose other bytes stay. -/
def overlay (buf : Memory) (bs : List UInt8) : Memory := fun i => bs.getD i (buf i)

/-- `regReadTlt`, into what `malloc` gives. -/
def regReadTlt (room : Option Memory) (s : Fs) (uuid : Uuid) (spid : Spid) :
    Except McResult Memory :=
  match room with
  | none => .error mcDrvErrNoFreeMemory
  | some buf => (mcRegistryReadTrustletCon s uuid spid containerBufferSize).map (overlay buf)

/-- `cont.common.attribs.state`, behind the header, the type and the version. -/
def stateField : Span := ⟨sizeofSoHeader + 8, 4⟩

/-- `regGetTaState`. -/
def regGetTaState (room : Option Memory) (s : Fs) (spid : Spid) (uuid : Uuid) :
    Except McResult Nat :=
  (regReadTlt room s uuid spid).map fun ta => fieldOf ta stateField

/-- `regStoreTA`, which has no use for the uuid. -/
def regStoreTA (faults : InstallFaults) (s : Fs) (spid : Spid) (_ : Uuid) (taBin : Memory)
    (taBinLength : UInt32) : McResult × Fs :=
  storeTABlobFaulty faults s spid taBin taBinLength

/-- `storeTA`. -/
def storeTA (room : Option Memory) (faults : InstallFaults) (s : Fs) (spid : Spid) (uuid : Uuid)
    (taBin : Memory) (taBinLength : UInt32) : RootpaError × Fs :=
  match regGetTaState room s spid uuid with
  | .error result =>
    if result = mcDrvErrInvalidDeviceFile then (rootpaErrorIllegalArgument, s)
    else (rootpaErrorRegistry, s)
  | .ok _ =>
    let (result, s) := regStoreTA faults s spid uuid taBin taBinLength
    if result ≠ mcDrvOk then (rootpaErrorRegistry, s) else (rootpaOk, s)

/-! ## What is promised -/

/-- There is a container of the trustlet, with something in it. -/
def HasContainer (s : Fs) (spid : Spid) (uuid : Uuid) : Prop :=
  ∃ content, s.get? (getTlContFilePath uuid spid) = some (.file content) ∧ content ≠ []

/-- The uuid that a binary names. -/
def taUuid (taBin : Memory) : Uuid :=
  if serviceType taBin = serviceTypeSystemTrustlet then headerUuid taBin
  else uuidOf (taBin.slice (atUuidField (attestationOffset taBin)))

/-- The files of an application in the writable registry. -/
def taFiles (s : Fs) (uuid : Uuid) : Option Node × Option Node :=
  (s.get? (getTABinFilePath uuid), s.get? (getTASpidFilePath uuid))

/-- A file has been written, as far as the store went before it was answered with success. -/
def WrittenWith (fault : Option FileFault) (so : List UInt8) (file : Option Node) : Prop :=
  ∃ left, FileFault.outcome so fault = some (left, mcDrvOk) ∧ file = some (.file left)

/-- A binary has been stored for `uuid`, and nothing else has happened. -/
structure FiledUnder (faults : InstallFaults) (s t : Fs) (spid : Spid) (taBin : Memory)
    (taBinLength : UInt32) (uuid : Uuid) : Prop where
  checked : (checkTABlob spid taBin taBinLength).result = .ok uuid
  bin : WrittenWith faults.bin (taBin.slice ⟨0, taBinLength.toNat⟩) (taFiles t uuid).1
  spidFile : serviceType taBin = serviceTypeSpTrustlet →
    WrittenWith faults.spid (le32 spid) (taFiles t uuid).2
  noSpidFile : serviceType taBin ≠ serviceTypeSpTrustlet → (taFiles t uuid).2 = (taFiles s uuid).2
  others : ∀ other, other ≠ uuid → taFiles t other = taFiles s other
  elsewhere : ∀ q, q ≠ getTABinFilePath uuid → q ≠ getTASpidFilePath uuid → t.get? q = s.get? q

/-- A binary that has been stored is that of the application whose container has been found. -/
def InstallsChecked (room : Option Memory) (faults : InstallFaults) (s : Fs) (spid : Spid)
    (uuid : Uuid) (taBin : Memory) (taBinLength : UInt32) : Prop :=
  (storeTA room faults s spid uuid taBin taBinLength).1 = rootpaOk →
    HasContainer s spid uuid ∧
      FiledUnder faults s (storeTA room faults s spid uuid taBin taBinLength).2 spid taBin
        taBinLength uuid

/-- A container has been found, and the binary has been stored for the uuid that it names. -/
def InstallsNamed (room : Option Memory) (faults : InstallFaults) (s : Fs) (spid : Spid)
    (uuid : Uuid) (taBin : Memory) (taBinLength : UInt32) : Prop :=
  (storeTA room faults s spid uuid taBin taBinLength).1 = rootpaOk →
    HasContainer s spid uuid ∧
      FiledUnder faults s (storeTA room faults s spid uuid taBin taBinLength).2 spid taBin
        taBinLength (taUuid taBin)

/-! ## The container -/

section StoreTa

variable {room : Option Memory} {faults : InstallFaults} {s t : Fs} {spid : Spid} {uuid own : Uuid}
  {taBin : Memory} {taBinLength : UInt32}

theorem hasContainer_of_regReadTlt {ta : Memory} (h : regReadTlt room s uuid spid = .ok ta) :
    HasContainer s spid uuid := by
  unfold regReadTlt at h
  cases room with
  | none => cases h
  | some buf =>
    cases hread : mcRegistryReadTrustletCon s uuid spid containerBufferSize with
    | error e =>
      rw [hread] at h
      cases h
    | ok bs =>
      obtain ⟨content, hfile, rfl, hne⟩ := readFile_eq_ok.mp hread
      exact ⟨content, hfile, fun hnil => hne (by rw [hnil, List.take_nil])⟩

theorem hasContainer_of_regGetTaState {state : Nat}
    (h : regGetTaState room s spid uuid = .ok state) : HasContainer s spid uuid := by
  unfold regGetTaState at h
  cases hread : regReadTlt room s uuid spid with
  | error e =>
    rw [hread] at h
    cases h
  | ok ta => exact hasContainer_of_regReadTlt hread

/-! ## The binary -/

/-- The attestation record names the application of a service provider. -/
theorem uuid_of_checkAttestation (h : (checkAttestation taBin taBinLength).result = .ok own) :
    uuidOf (taBin.slice (atUuidField (attestationOffset taBin))) = own := by
  unfold checkAttestation at h
  obtain ⟨off, hoff, h⟩ := bind_eq_ok.mp h
  have hoff : attestationOffset taBin = off := Except.ok.inj hoff
  -- four checks and what they look at come before the uuid
  obtain ⟨_, -, h⟩ := bind_eq_ok.mp h
  obtain ⟨_, -, h⟩ := bind_eq_ok.mp h
  obtain ⟨_, -, h⟩ := bind_eq_ok.mp h
  obtain ⟨_, -, h⟩ := bind_eq_ok.mp h
  obtain ⟨_, -, h⟩ := bind_eq_ok.mp h
  obtain ⟨_, -, h⟩ := bind_eq_ok.mp h
  obtain ⟨_, -, h⟩ := bind_eq_ok.mp h
  obtain ⟨_, -, h⟩ := bind_eq_ok.mp h
  obtain ⟨bytes, hlook, h⟩ := bind_eq_ok.mp h
  rw [hoff, look_eq_ok.mp hlook]
  exact pure_eq_ok.mp h

/-- The registry files a binary under the uuid that it names. -/
theorem taUuid_of_checkTABlob (h : (checkTABlob spid taBin taBinLength).result = .ok own) :
    taUuid taBin = own := by
  unfold checkTABlob at h
  obtain ⟨_, -, h⟩ := bind_eq_ok.mp h
  obtain ⟨_, -, h⟩ := bind_eq_ok.mp h
  obtain ⟨_, -, h⟩ := bind_eq_ok.mp h
  obtain ⟨_, -, h⟩ := bind_eq_ok.mp h
  obtain ⟨_, -, h⟩ := bind_eq_ok.mp h
  obtain ⟨type, htype, h⟩ := bind_eq_ok.mp h
  obtain rfl : serviceType taBin = type := Except.ok.inj htype
  unfold taUuid
  by_cases hsystem : serviceType taBin = serviceTypeSystemTrustlet
  · rw [if_pos hsystem] at h ⊢
    obtain ⟨_, -, h⟩ := bind_eq_ok.mp h
    obtain ⟨bytes, hlook, h⟩ := bind_eq_ok.mp h
    rw [headerUuid, look_eq_ok.mp hlook]
    exact pure_eq_ok.mp h
  · rw [if_neg hsystem] at h ⊢
    by_cases hsp : serviceType taBin = serviceTypeSpTrustlet
    · rw [if_pos hsp] at h
      obtain ⟨_, -, h⟩ := bind_eq_ok.mp h
      exact uuid_of_checkAttestation h
    · rw [if_neg hsp] at h
      exact (refuse_eq_ok.mp h).elim

/-- Where only the files of one application change, those of the others do not. -/
theorem taFiles_eq_of_elsewhere {other : Uuid} (hother : other ≠ own)
    (h : ∀ q, q ≠ getTABinFilePath own → q ≠ getTASpidFilePath own → t.get? q = s.get? q) :
    taFiles t other = taFiles s other := by
  have hbin : getTABinFilePath other ≠ getTABinFilePath own := fun heq =>
    hother (getTABinFilePath_inj heq)
  have hspid : getTASpidFilePath other ≠ getTASpidFilePath own := fun heq =>
    hother (getTASpidFilePath_inj heq)
  have hcross := getTABinFilePath_ne_getTASpidFilePath
  exact Prod.ext (h _ hbin (hcross other own)) (h _ (hcross own other).symm hspid)

/-- **Storing a binary.** A success means that the binary was accepted, and has been filed under the
uuid that it names. -/
theorem filedUnder_of_regStoreTA
    (h : regStoreTA faults s spid uuid taBin taBinLength = (mcDrvOk, t)) :
    FiledUnder faults s t spid taBin taBinLength (taUuid taBin) := by
  obtain ⟨own, left, u, hcheck, hleft, hbin, hspid⟩ := storeTABlobFaulty_spec h
  rw [taUuid_of_checkTABlob hcheck]
  have hcross := getTABinFilePath_ne_getTASpidFilePath own own
  have hbinFile : u.get? (getTABinFilePath own) = some (.file left) :=
    (hbin _).trans (if_pos rfl)
  rcases hspid with ⟨hsp, left', hleft', hget⟩ | ⟨hsp, rfl⟩
  · have helse : ∀ q, q ≠ getTABinFilePath own → q ≠ getTASpidFilePath own →
        t.get? q = s.get? q := by
      intro q hq hq'
      rw [hget, if_neg hq', hbin, if_neg hq]
    have hfile : t.get? (getTABinFilePath own) = some (.file left) := by
      rw [hget, if_neg hcross, hbinFile]
    have hspidFile : t.get? (getTASpidFilePath own) = some (.file left') :=
      (hget _).trans (if_pos rfl)
    exact ⟨hcheck, ⟨left, hleft, hfile⟩, fun _ => ⟨left', hleft', hspidFile⟩,
      fun hne => absurd hsp hne, fun other hother => taFiles_eq_of_elsewhere hother helse, helse⟩
  · have helse : ∀ q, q ≠ getTABinFilePath own → q ≠ getTASpidFilePath own →
        t.get? q = s.get? q := fun q hq _ => (hbin q).trans (if_neg hq)
    exact ⟨hcheck, ⟨left, hleft, hbinFile⟩, fun htype => absurd htype hsp,
      fun _ => (hbin _).trans (if_neg hcross.symm),
      fun other hother => taFiles_eq_of_elsewhere hother helse, helse⟩

/-! ## Installing -/

/-- A success of `storeTA` is one of both of its calls. -/
theorem storeTA_spec (h : (storeTA room faults s spid uuid taBin taBinLength).1 = rootpaOk) :
    HasContainer s spid uuid ∧ regStoreTA faults s spid uuid taBin taBinLength =
      (mcDrvOk, (storeTA room faults s spid uuid taBin taBinLength).2) := by
  have hillegal : rootpaErrorIllegalArgument ≠ rootpaOk := by decide
  have hregistry : rootpaErrorRegistry ≠ rootpaOk := by decide
  unfold storeTA at h ⊢
  cases hstate : regGetTaState room s spid uuid with
  | error result =>
    rw [hstate] at h
    dsimp only at h
    split_ifs at h
    · exact absurd h hillegal
    · exact absurd h hregistry
  | ok state =>
    rw [hstate] at h
    refine ⟨hasContainer_of_regGetTaState hstate, ?_⟩
    dsimp only at h ⊢
    by_cases hresult : (regStoreTA faults s spid uuid taBin taBinLength).1 = mcDrvOk
    · rw [if_neg (not_not.mpr hresult)]
      exact Prod.ext hresult rfl
    · rw [if_pos hresult] at h
      exact absurd h hregistry

/-- **`storeTA` installs what the binary names**, and only if there is a container for what the
caller names. -/
theorem storeTA_installsNamed (room : Option Memory) (faults : InstallFaults) (s : Fs) (spid : Spid)
    (uuid : Uuid) (taBin : Memory) (taBinLength : UInt32) :
    InstallsNamed room faults s spid uuid taBin taBinLength := by
  intro h
  obtain ⟨hcontainer, hstore⟩ := storeTA_spec h
  exact ⟨hcontainer, filedUnder_of_regStoreTA hstore⟩

/-- The application that is installed is the one that was looked for exactly if the binary names
it. -/
theorem installsChecked_iff_named (room : Option Memory) (faults : InstallFaults) (s : Fs)
    (spid : Spid) (uuid : Uuid) (taBin : Memory) (taBinLength : UInt32) :
    InstallsChecked room faults s spid uuid taBin taBinLength ↔
      ((storeTA room faults s spid uuid taBin taBinLength).1 = rootpaOk →
        taUuid taBin = uuid) := by
  constructor
  · intro h hok
    exact taUuid_of_checkTABlob (h hok).2.checked
  · intro hnames hok
    obtain ⟨hcontainer, hstore⟩ := storeTA_spec hok
    have hfiled := filedUnder_of_regStoreTA hstore
    rw [hnames hok] at hfiled
    exact ⟨hcontainer, hfiled⟩

end StoreTa

/-- The binary of a service provider's application: every trustlet's uuid is zero in it, and its
own uuid is not. -/
def gpBinary : Memory := fun i => if 120 ≤ i ∧ i < 136 then 1 else bareHeader i

/-- A registry with the container that belongs to it. -/
def gpRegistry : Fs := (storeFile freshRegistry (getTlContFilePath zeroUuid 1) [0]).2

/-- The binary is filed under its own uuid, not under the one that it was looked for. -/
theorem not_installsChecked_gpBinary :
    headerUuid gpBinary = zeroUuid ∧
      ¬ InstallsChecked (some fun _ => 0) {} gpRegistry 1 zeroUuid gpBinary 144 := by
  refine ⟨by decide, fun h => ?_⟩
  have hok : (storeTA (some fun _ => 0) {} gpRegistry 1 zeroUuid gpBinary 144).1 = rootpaOk := by
    decide
  have huuid := taUuid_of_checkTABlob (h hok).2.checked
  exact absurd huuid (by decide)

end McDaemon.RootPa
