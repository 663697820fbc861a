/-
# McDaemon.Registry.TaBlob — storing the blob of a GP trusted application.

The blob is checked before it is stored.  The size given covers the header, which is checked
first; the attestation record of a service provider's trustlet lies where the header says, and the
check of its place only refuses records that begin behind the end of the blob.  The checks are
inspections of memory, so that what they look at beside the blob is on record.
-/
import McDaemon.Registry.Header
import McDaemon.Registry.Storage

namespace McDaemon.Registry

open McDaemon.Lib
open McDaemon.Lib.Inspection

/-! ## The checks -/

/-- `MAGIC` of an attestation record. -/
def attestationMagic : List UInt8 := [0x54, 0x41, 0x55, 0x55, 0x49, 0x44, 0, 0]

/-- `AT_VERSION`. -/
def atVersion : Nat := 1

/-- `sizeof(uuid_attestation)`. -/
def sizeofUuidAttestation : Nat := 40

/-- The magic word of the attestation record at `off`. -/
def atMagicField (off : Nat) : Span := ⟨off, 8⟩

def atSizeField (off : Nat) : Span := ⟨off + 8, 4⟩

def atVersionField (off : Nat) : Span := ⟨off + 12, 4⟩

def atUuidField (off : Nat) : Span := ⟨off + 16, 16⟩

/-- Look at a field of the header. -/
def lookField (blob : Memory) (w : Span) : Inspection McResult Nat := do
  let bytes ← look blob w
  pure (ofLe bytes)

/-- `getAsUint32BE`. -/
def getAsUint32BE (blob : Memory) (w : Span) : Inspection McResult Nat := do
  let bytes ← look blob w
  pure (ofBe bytes)

/-- The checks of the attestation record in `mcRegistryStoreTABlob`. -/
def checkAttestation (blob : Memory) (size : UInt32) : Inspection McResult Uuid := do
  let off ← lookField blob attestationOffsetField
  -- the sum is only taken, and the size only looked at, if the record begins behind the end
  let outside ← (if off > size.toNat then do
      let atSize ← getAsUint32BE blob (atSizeField off)
      pure (decide ((off + atSize) % 2 ^ 32 > size.toNat))
    else pure false)
  refuseIf (outside = true) mcDrvErrTaHeaderError
  let atSize ← getAsUint32BE blob (atSizeField off)
  refuseIf (atSize < sizeofUuidAttestation) mcDrvErrTaAttestationError
  let magic ← look blob (atMagicField off)
  refuseIf (magic ≠ attestationMagic) mcDrvErrTaAttestationError
  let version ← getAsUint32BE blob (atVersionField off)
  refuseIf (version ≠ atVersion) mcDrvErrTaAttestationError
  let uuid ← look blob (atUuidField off)
  pure (uuidOf uuid)

/-- The checks of `mcRegistryStoreTABlob`, which give the uuid that the blob is stored under. -/
def checkTABlob (spid : Spid) (blob : Memory) (size : UInt32) : Inspection McResult Uuid := do
  refuseIf (size.toNat < sizeofHeaderV24) mcDrvErrInvalidParameter
  let version ← lookField blob versionField
  refuseIf (version < mcMakeVersion 2 4) mcDrvErrTaHeaderError
  let gpLevel ← lookField blob gpLevelField
  refuseIf (gpLevel ≠ 1) mcDrvErrTaHeaderError
  let serviceType ← lookField blob serviceTypeField
  if serviceType = serviceTypeSystemTrustlet then
    refuseIf (spid ≠ mcSpidSystem) mcDrvErrInvalidParameter
    let uuid ← look blob uuidField
    pure (uuidOf uuid)
  else if serviceType = serviceTypeSpTrustlet then
    refuseIf (spid ≥ mcSpidSystem) mcDrvErrInvalidParameter
    checkAttestation blob size
  else refuse mcDrvErrInvalidParameter

/-- `mcRegistryStoreTABlob`, with the spans of memory that it looks at. -/
def mcRegistryStoreTABlob (s : Fs) (spid : Spid) (blob : Memory) (size : UInt32) :
    List Span × McResult × Fs :=
  let check := checkTABlob spid blob size
  match check.result with
  | .error e => (check.looked, e, s)
  | .ok uuid =>
    let looked := check.looked ++ [⟨0, size.toNat⟩, serviceTypeField]
    let (ret, s) := storeFile s (getTABinFilePath uuid) (blob.slice ⟨0, size.toNat⟩)
    if ret ≠ mcDrvOk then (check.looked, ret, s)
    else if serviceType blob = serviceTypeSpTrustlet then
      (looked, storeFile s (getTASpidFilePath uuid) (le32 spid))
    else (looked, mcDrvOk, s)

/-! ## What the checks look at -/

/-- The attestation record's size, as the record says. -/
def atSize (blob : Memory) : Nat := ofBe (blob.slice (atSizeField (attestationOffset blob)))

/-- Everything that is looked at or copied lies in the blob, and so does the whole attestation area
of a service provider's trustlet that is accepted. -/
def StoresInside (s : Fs) (spid : Spid) (blob : Memory) (size : UInt32) : Prop :=
  (∀ w ∈ (mcRegistryStoreTABlob s spid blob size).1, w.Below size.toNat) ∧
  ∀ uuid, (checkTABlob spid blob size).result = .ok uuid →
    serviceType blob = serviceTypeSpTrustlet →
      attestationOffset blob + atSize blob ≤ size.toNat

/-- The blob passes the checks that come before the attestation record. -/
structure ReachesAttestation (spid : Spid) (blob : Memory) (size : UInt32) : Prop where
  size_le : sizeofHeaderV24 ≤ size.toNat
  version_le : mcMakeVersion 2 4 ≤ version blob
  gp : gpLevel blob = 1
  sp : serviceType blob = serviceTypeSpTrustlet
  spid_lt : spid < mcSpidSystem

/-- The attestation record lies in the blob, as far as its fields are right. -/
def AttestationInside (blob : Memory) (size : UInt32) : Prop :=
  attestationOffset blob + 12 ≤ size.toNat ∧
  (sizeofUuidAttestation ≤ atSize blob →
    blob.slice (atMagicField (attestationOffset blob)) = attestationMagic →
      attestationOffset blob + 16 ≤ size.toNat ∧
      (ofBe (blob.slice (atVersionField (attestationOffset blob))) = atVersion →
        attestationOffset blob + atSize blob ≤ size.toNat))

theorem inside_lookField {blob : Memory} {w : Span} {n : Nat} {Q : Nat → Prop} :
    (lookField blob w).Inside n Q ↔ w.Below n ∧ Q (fieldOf blob w) := by
  rw [lookField, inside_bind, inside_look, inside_pure, fieldOf]

theorem inside_getAsUint32BE {blob : Memory} {w : Span} {n : Nat} {Q : Nat → Prop} :
    (getAsUint32BE blob w).Inside n Q ↔ w.Below n ∧ Q (ofBe (blob.slice w)) := by
  rw [getAsUint32BE, inside_bind, inside_look, inside_pure]

/-- The header's fields lie in a blob that holds a header. -/
theorem headerFields_below {n : Nat} (hn : sizeofHeaderV24 ≤ n) :
    versionField.Below n ∧ gpLevelField.Below n ∧ serviceTypeField.Below n ∧ uuidField.Below n ∧
      attestationOffsetField.Below n := by
  have hheader : sizeofHeaderV24 = 104 := rfl
  have hbelow : ∀ w : Span, w.start + w.len ≤ 104 → w.Below n := by
    intro w hw
    rw [Span.below_iff]
    omega
  exact ⟨hbelow _ (by decide), hbelow _ (by decide), hbelow _ (by decide), hbelow _ (by decide),
    hbelow _ (by decide)⟩

/-- A blob that is accepted holds a header. -/
theorem size_le_of_checkTABlob {spid : Spid} {blob : Memory} {size : UInt32} {uuid : Uuid}
    (h : (checkTABlob spid blob size).result = .ok uuid) : sizeofHeaderV24 ≤ size.toNat := by
  by_contra hsize
  unfold checkTABlob refuseIf at h
  rw [if_pos (Nat.not_le.mp hsize)] at h
  cases h

/-- Storing a blob that has been checked looks at nothing beside it. -/
theorem storeTABlob_looked {s : Fs} {spid : Spid} {blob : Memory} {size : UInt32} :
    (∀ w ∈ (mcRegistryStoreTABlob s spid blob size).1, w.Below size.toNat) ↔
      ∀ w ∈ (checkTABlob spid blob size).looked, w.Below size.toNat := by
  unfold mcRegistryStoreTABlob
  dsimp only
  cases hcheck : (checkTABlob spid blob size).result with
  | error e => exact Iff.rfl
  | ok uuid =>
    have hsize : sizeofHeaderV24 ≤ size.toNat := size_le_of_checkTABlob hcheck
    obtain ⟨-, -, htype, -, -⟩ := headerFields_below hsize
    have hblob : (⟨0, size.toNat⟩ : Span).Below size.toNat := fun i _ hi => by
      rwa [Nat.zero_add] at hi
    have hlooked : (∀ w ∈ (checkTABlob spid blob size).looked ++
        [⟨0, size.toNat⟩, serviceTypeField], w.Below size.toNat) ↔
        ∀ w ∈ (checkTABlob spid blob size).looked, w.Below size.toNat := by
      simp [hblob, htype, or_imp, forall_and]
    dsimp only
    split_ifs
    · exact Iff.rfl
    · exact hlooked
    · exact hlooked

theorem storesInside_iff_checkTABlob {s : Fs} {spid : Spid} {blob : Memory} {size : UInt32} :
    StoresInside s spid blob size ↔ (checkTABlob spid blob size).Inside size.toNat fun _ =>
      serviceType blob = serviceTypeSpTrustlet →
        attestationOffset blob + atSize blob ≤ size.toNat :=
  and_congr storeTABlob_looked Iff.rfl

theorem atSizeField_below {off n : Nat} : (atSizeField off).Below n ↔ off + 12 ≤ n :=
  Span.below_of_pos Nat.succ_pos'

theorem atMagicField_below {off n : Nat} : (atMagicField off).Below n ↔ off + 8 ≤ n :=
  Span.below_of_pos Nat.succ_pos'

theorem atVersionField_below {off n : Nat} : (atVersionField off).Below n ↔ off + 16 ≤ n :=
  Span.below_of_pos Nat.succ_pos'

theorem atUuidField_below {off n : Nat} : (atUuidField off).Below n ↔ off + 32 ≤ n :=
  Span.below_of_pos Nat.succ_pos'

/-- The check of the record's place refuses nothing unless it looks behind the end itself. -/
theorem inside_checkAttestation {blob : Memory} {size : UInt32} {Q : Uuid → Prop}
    (hheader : sizeofHeaderV24 ≤ size.toNat) :
    (checkAttestation blob size).Inside size.toNat Q ↔
      attestationOffset blob + 12 ≤ size.toNat ∧
      (sizeofUuidAttestation ≤ atSize blob →
        blob.slice (atMagicField (attestationOffset blob)) = attestationMagic →
          attestationOffset blob + 16 ≤ size.toNat ∧
          (ofBe (blob.slice (atVersionField (attestationOffset blob))) = atVersion →
            attestationOffset blob + 32 ≤ size.toNat ∧
              Q (uuidOf (blob.slice (atUuidField (attestationOffset blob)))))) := by
  obtain ⟨-, -, -, -, hoffField⟩ := headerFields_below hheader
  have hoff : fieldOf blob attestationOffsetField = attestationOffset blob := rfl
  have hatSize : ofBe (blob.slice (atSizeField (attestationOffset blob))) = atSize blob := rfl
  unfold checkAttestation
  by_cases hbehind : attestationOffset blob > size.toNat
  · have hsize : ¬ attestationOffset blob + 12 ≤ size.toNat := by omega
    simp only [inside_bind, inside_lookField, hoff, if_pos hbehind, inside_getAsUint32BE,
      atSizeField_below, hsize, false_and, and_false]
  · simp only [inside_bind, inside_lookField, hoff, if_neg hbehind, inside_pure, inside_refuseIf,
      inside_getAsUint32BE, inside_look, hatSize, atSizeField_below, atMagicField_below,
      atVersionField_below, atUuidField_below, hoffField, true_and, Bool.false_eq_true,
      not_false_eq_true, true_implies, not_lt, not_not]
    refine and_congr_right fun hsize => forall_congr' fun _ => ?_
    exact and_iff_right (by omega)

/-- The blob's own checks stay in it, so it is the attestation record that matters. -/
theorem inside_checkTABlob {spid : Spid} {blob : Memory} {size : UInt32} {Q : Uuid → Prop}
    (hQ : serviceType blob = serviceTypeSystemTrustlet → ∀ uuid, Q uuid) :
    (checkTABlob spid blob size).Inside size.toNat Q ↔
      (ReachesAttestation spid blob size → (checkAttestation blob size).Inside size.toNat Q) := by
  have hsystem : ¬ serviceTypeSpTrustlet = serviceTypeSystemTrustlet := by decide
  constructor
  · rintro hinside ⟨hsize, hversion, hgp, hsp, hspid⟩
    unfold checkTABlob at hinside
    have htype : fieldOf blob serviceTypeField = serviceTypeSpTrustlet := hsp
    simp only [inside_bind, inside_refuseIf, inside_lookField, htype, if_neg hsystem, if_true]
      at hinside
    obtain ⟨-, hinside⟩ := hinside (Nat.not_lt.mpr hsize)
    obtain ⟨-, hinside⟩ := hinside (Nat.not_lt.mpr hversion)
    obtain ⟨-, hinside⟩ := hinside (not_not.mpr hgp)
    exact hinside (UInt32.not_le.mpr hspid)
  · intro hinside
    unfold checkTABlob
    simp only [inside_bind, inside_refuseIf, inside_lookField]
    intro hsize
    obtain ⟨hversion, hgp, htype, huuid, -⟩ := headerFields_below (Nat.not_lt.mp hsize)
    refine ⟨hversion, fun hversionOk => ⟨hgp, fun hgpOk => ⟨htype, ?_⟩⟩⟩
    split_ifs with hsys hsp
    · simp only [inside_bind, inside_refuseIf, inside_look, inside_pure]
      intro _
      exact ⟨huuid, hQ hsys _⟩
    · simp only [inside_bind, inside_refuseIf]
      intro hspid
      exact hinside ⟨Nat.not_lt.mp hsize, Nat.not_lt.mp hversionOk, not_not.mp hgpOk, hsp,
        UInt32.not_le.mp hspid⟩
    · exact inside_refuse

/-- **The checks stay in the blob** exactly when the attestation record does, as far as they get. -/
theorem storesInside_iff_attestationInside {s : Fs} {spid : Spid} {blob : Memory} {size : UInt32} :
    StoresInside s spid blob size ↔
      (ReachesAttestation spid blob size → AttestationInside blob size) := by
  have hsystem : serviceType blob = serviceTypeSystemTrustlet → Uuid →
      serviceType blob = serviceTypeSpTrustlet →
        attestationOffset blob + atSize blob ≤ size.toNat := by
    intro hsys _ hsp
    exact absurd (hsp.symm.trans hsys) (by decide)
  rw [storesInside_iff_checkTABlob, inside_checkTABlob hsystem]
  refine forall_congr' fun hreaches => ?_
  rw [inside_checkAttestation hreaches.size_le]
  unfold AttestationInside
  refine and_congr_right fun _ => forall_congr' fun hlarge => forall_congr' fun _ =>
    and_congr_right fun _ => forall_congr' fun _ => ?_
  have hlarge' : 40 ≤ atSize blob := hlarge
  constructor
  · rintro ⟨-, harea⟩
    exact harea hreaches.sp
  · intro harea
    exact ⟨by omega, fun _ => harea⟩

/-- A header alone, of a service provider's application, whose attestation record lies behind it. -/
def bareHeader : Memory := fun i =>
  if i < 104 then
    if i = 4 then 4 else if i = 6 then 2 else if i = 16 then 2 else if i = 96 then 1
    else if i = 100 then 104 else 0
  else (attestationMagic ++ [0, 0, 0, 40, 0, 0, 0, 1]).getD (i - 104) 0

/-- The record is looked at behind the end of the blob, and the blob is accepted. -/
theorem storesInside_bareHeader :
    (mcRegistryStoreTABlob freshRegistry 1 bareHeader 104).2.1 = mcDrvOk ∧
      ⟨112, 4⟩ ∈ (mcRegistryStoreTABlob freshRegistry 1 bareHeader 104).1 ∧
      ¬ StoresInside freshRegistry 1 bareHeader 104 := by
  have hlooked : ⟨112, 4⟩ ∈ (mcRegistryStoreTABlob freshRegistry 1 bareHeader 104).1 := by decide
  refine ⟨by decide, hlooked, fun hinside => ?_⟩
  have hbelow := hinside.1 _ hlooked 112 (by decide) (by decide)
  exact absurd hbelow (by decide)

end McDaemon.Registry
