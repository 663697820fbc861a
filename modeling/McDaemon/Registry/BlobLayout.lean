/-
# McDaemon.Registry.BlobLayout — what the blob of a service provider's trustlet looks like.

The length record, the trustlet and the three containers, one behind the other, with the lengths of
the containers in the record.  The container of a trustlet has one of two sizes; one of another
size is complained about in the log, and goes into the blob all the same.
-/
import McDaemon.Registry.ServiceBlob

namespace McDaemon.Registry

open McDaemon.Lib

/-- `sizeof(mcSoTltCont_2_0_t)`. -/
def sizeofTltCont20 : Nat := 156

/-- `sizeof(mcSoTltCont_2_1_t)`. -/
def sizeofTltCont21 : Nat := 192

/-- The room that is taken to be left for the container of the trustlet. -/
def tltRoom (tlSize : Nat) (root sp : List UInt8) : Nat :=
  tlSize + sizeofBlobLenInfo + 3 * maxSoContSize - tlSize + sizeofBlobLenInfo - sp.length -
    root.length

/-- The containers that a trustlet's blob is made of. -/
structure Containers (s : Fs) (spid : Spid) (uuid : Uuid) (tlSize : Nat) (root sp tl : List UInt8) :
    Prop where
  readRoot : mcRegistryReadRoot s sizeofRootCont = .ok root
  readSp : mcRegistryReadSp s spid sizeofSpCont = .ok sp
  readTl : mcRegistryReadTrustletCon s uuid spid (tltRoom tlSize root sp) = .ok tl

/-- The object is the length record, the trustlet and the containers. -/
structure LaidOut (trustlet : Memory) (tlSize : Nat) (root sp tl : List UInt8) (obj : RegObject) :
    Prop where
  len : obj.len = sizeofBlobLenInfo + tlSize + root.length + sp.length + tl.length
  tlStart : obj.tlStartOffset = sizeofBlobLenInfo
  info : obj.value.bytes.slice ⟨0, 16⟩ = le32 mcTlBlobLenMagic ++
    le32 (UInt32.ofNat root.length) ++ le32 (UInt32.ofNat sp.length) ++
    le32 (UInt32.ofNat tl.length)
  parts : obj.value.bytes.slice
      ⟨sizeofBlobLenInfo, tlSize + root.length + sp.length + tl.length⟩ =
    trustlet.slice ⟨0, tlSize⟩ ++ root ++ sp ++ tl

/-- Whatever is returned for a service provider's trustlet parses back: it is made of the
containers in the registry, and that of the trustlet has one of the two sizes. -/
def ParsesBack (s : Fs) (spid : Spid) (trustlet : Memory) (tlSize : Nat) : Prop :=
  serviceType trustlet = serviceTypeSpTrustlet → ∀ malloc obj,
    mcRegistryMemGetServiceBlob s spid trustlet tlSize malloc = (some obj, true) →
      ∃ root sp tl, Containers s spid (headerUuid trustlet) tlSize root sp tl ∧
        (tl.length = sizeofTltCont20 ∨ tl.length = sizeofTltCont21) ∧
        LaidOut trustlet tlSize root sp tl obj

/-- All the containers are there, and that of the trustlet has neither size. -/
structure UnknownTltCont (s : Fs) (spid : Spid) (trustlet : Memory) (tlSize : Nat) : Prop where
  size : tlSize ≤ maxTlSize
  magic : magic trustlet = mcServiceHeaderMagicBe
  type : serviceType trustlet = serviceTypeSpTrustlet
  containers : ∃ root sp tl, Containers s spid (headerUuid trustlet) tlSize root sp tl ∧
    tl.length ≠ sizeofTltCont20 ∧ tl.length ≠ sizeofTltCont21

/-! ## The blob -/

/-- The value of the object, as it is filled. -/
def filledValue (trustlet : Memory) (tlSize : Nat) (root sp tl : List UInt8) : Buffer :=
  let start := (Buffer.allocate.write 0 (le32 mcTlBlobLenMagic)).write sizeofBlobLenInfo
    (trustlet.slice ⟨0, tlSize⟩)
  let p := sizeofBlobLenInfo + tlSize
  let withRoot := (start.write p root).write 4 (le32 (UInt32.ofNat root.length))
  let withSp := (withRoot.write (p + root.length) sp).write 8 (le32 (UInt32.ofNat sp.length))
  (withSp.write (p + root.length + sp.length) tl).write 12 (le32 (UInt32.ofNat tl.length))

def filledObject (trustlet : Memory) (tlSize : Nat) (root sp tl : List UInt8) : RegObject where
  allocated := tlSize + sizeofBlobLenInfo + 3 * maxSoContSize
  len := sizeofBlobLenInfo + tlSize + root.length + sp.length + tl.length
  tlStartOffset := sizeofBlobLenInfo
  value := filledValue trustlet tlSize root sp tl

section Blob

variable {s : Fs} {spid : Spid} {uuid : Uuid} {trustlet : Memory} {tlSize : Nat}
  {root sp tl : List UInt8}

/-- Containers are determined by the registry. -/
theorem Containers.unique {root' sp' tl' : List UInt8}
    (h : Containers s spid uuid tlSize root sp tl)
    (h' : Containers s spid uuid tlSize root' sp' tl') : root = root' ∧ sp = sp' ∧ tl = tl' := by
  obtain rfl : root = root' := Except.ok.inj (h.readRoot.symm.trans h'.readRoot)
  obtain rfl : sp = sp' := Except.ok.inj (h.readSp.symm.trans h'.readSp)
  exact ⟨rfl, rfl, Except.ok.inj (h.readTl.symm.trans h'.readTl)⟩

/-- Each part of the value is written once, and no later part reaches into it. -/
theorem filledValue_holds :
    ((filledValue trustlet tlSize root sp tl).Holds 0 (le32 mcTlBlobLenMagic) ∧
      (filledValue trustlet tlSize root sp tl).Holds 4 (le32 (UInt32.ofNat root.length)) ∧
      (filledValue trustlet tlSize root sp tl).Holds 8 (le32 (UInt32.ofNat sp.length)) ∧
      (filledValue trustlet tlSize root sp tl).Holds 12 (le32 (UInt32.ofNat tl.length))) ∧
    (filledValue trustlet tlSize root sp tl).Holds sizeofBlobLenInfo (trustlet.slice ⟨0, tlSize⟩) ∧
      (filledValue trustlet tlSize root sp tl).Holds (sizeofBlobLenInfo + tlSize) root ∧
      (filledValue trustlet tlSize root sp tl).Holds (sizeofBlobLenInfo + tlSize + root.length)
        sp ∧
      (filledValue trustlet tlSize root sp tl).Holds
        (sizeofBlobLenInfo + tlSize + root.length + sp.length) tl := by
  have hinfo : sizeofBlobLenInfo = 32 := rfl
  have hbody : (trustlet.slice ⟨0, tlSize⟩).length = tlSize := Memory.length_slice ..
  unfold filledValue
  refine ⟨⟨?_, ?_, ?_, ?_⟩, ?_, ?_, ?_, ?_⟩
  · refine Buffer.Holds.write (.write (.write (.write (.write (.write (.write
      (Buffer.holds_write _ _ _) ?_) ?_) ?_) ?_) ?_) ?_) ?_
    all_goals grind [length_le32]
  · refine Buffer.Holds.write (.write (.write (.write (Buffer.holds_write _ _ _) ?_) ?_) ?_) ?_
    all_goals grind [length_le32]
  · refine Buffer.Holds.write (.write (Buffer.holds_write _ _ _) ?_) ?_
    all_goals grind [length_le32]
  · exact Buffer.holds_write _ _ _
  · refine Buffer.Holds.write (.write (.write (.write (.write (.write
      (Buffer.holds_write _ _ _) ?_) ?_) ?_) ?_) ?_) ?_
    all_goals grind [length_le32]
  · refine Buffer.Holds.write (.write (.write (.write (.write
      (Buffer.holds_write _ _ _) ?_) ?_) ?_) ?_) ?_
    all_goals grind [length_le32]
  · refine Buffer.Holds.write (.write (.write (Buffer.holds_write _ _ _) ?_) ?_) ?_
    all_goals grind [length_le32]
  · apply (Buffer.holds_write _ _ _).write
    rw [length_le32]
    omega

/-- The length record, and the rest. -/
theorem laidOut_filledObject :
    LaidOut trustlet tlSize root sp tl (filledObject trustlet tlSize root sp tl) := by
  obtain ⟨⟨hmagic, hroot, hsp, htl⟩, hbody, hrootCont, hspCont, htlCont⟩ :=
    @filledValue_holds trustlet tlSize root sp tl
  have hsize : (trustlet.slice ⟨0, tlSize⟩).length = tlSize := Memory.length_slice ..
  refine ⟨rfl, rfl, ?_, ?_⟩
  · exact ((hmagic.append hroot rfl).append hsp rfl).append htl rfl
  · have hparts := ((hbody.append hrootCont ?_).append hspCont ?_).append htlCont ?_
    · unfold Buffer.Holds at hparts
      simp only [List.length_append, hsize] at hparts
      exact hparts
    · rw [hsize]
    · rw [List.length_append, hsize, Nat.add_assoc]
    · rw [List.length_append, List.length_append, hsize]
      omega

/-- The containers are appended when all three can be read. -/
theorem fillContainers_eq_ok {value value' : Buffer} {p : Nat} {sizes : BlobSizes} :
    fillContainers s spid uuid (tlSize + sizeofBlobLenInfo + 3 * maxSoContSize) tlSize value p =
        (mcDrvOk, sizes, value') ↔
      ∃ root sp tl, Containers s spid uuid tlSize root sp tl ∧
        sizes = ⟨root.length, sp.length, tl.length⟩ ∧
        value' = ((((((value.write p root).write 4 (le32 (UInt32.ofNat root.length))).write
          (p + root.length) sp).write 8 (le32 (UInt32.ofNat sp.length))).write
          (p + root.length + sp.length) tl).write 12 (le32 (UInt32.ofNat tl.length))) := by
  constructor
  · intro h
    unfold fillContainers at h
    split at h
    case h_1 r hroot => exact absurd (congrArg Prod.fst h) (readFile_error hroot)
    case h_2 root hroot =>
    dsimp only at h
    split at h
    case h_1 r hsp => exact absurd (congrArg Prod.fst h) (mcRegistryReadSp_error hsp)
    case h_2 sp hsp =>
    split at h
    case h_1 r htl => exact absurd (congrArg Prod.fst h) (readFile_error htl)
    case h_2 tl htl =>
      obtain ⟨hsizes, hvalue⟩ := Prod.mk.inj (Prod.mk.inj h).2
      exact ⟨root, sp, tl, ⟨hroot, hsp, htl⟩, hsizes.symm, hvalue.symm⟩
  · rintro ⟨root, sp, tl, ⟨hroot, hsp, htl⟩, rfl, rfl⟩
    unfold tltRoom at htl
    unfold fillContainers
    rw [hroot]
    dsimp only
    rw [hsp]
    dsimp only
    rw [htl]

/-- What is returned for a service provider's trustlet, and when. -/
theorem mcRegistryMemGetServiceBlob_sp {malloc : Bool} {obj : RegObject}
    (htype : serviceType trustlet = serviceTypeSpTrustlet) :
    mcRegistryMemGetServiceBlob s spid trustlet tlSize malloc = (some obj, true) ↔
      tlSize ≤ maxTlSize ∧ magic trustlet = mcServiceHeaderMagicBe ∧ malloc = true ∧
      ∃ root sp tl, Containers s spid (headerUuid trustlet) tlSize root sp tl ∧
        obj = filledObject trustlet tlSize root sp tl := by
  have hother : ¬ (serviceType trustlet = serviceTypeDriver ∨
      serviceType trustlet = serviceTypeSystemTrustlet) := by
    rw [htype]
    decide
  unfold mcRegistryMemGetServiceBlob
  rw [if_neg hother, if_pos htype]
  by_cases hsize : tlSize > maxTlSize
  · rw [if_pos hsize]
    exact iff_of_false (by simp) fun h => absurd h.1 (Nat.not_le.mpr hsize)
  rw [if_neg hsize]
  by_cases hmagic : magic trustlet = mcServiceHeaderMagicBe
  · rw [if_neg (not_not.mpr hmagic)]
    by_cases hmalloc : malloc = false
    · rw [if_pos hmalloc]
      exact iff_of_false (by simp) fun h => absurd h.2.2.1 (by simp [hmalloc])
    · rw [if_neg hmalloc]
      -- the result, the sizes and the buffer, as one thing that has a name
      obtain ⟨filled, hfilled⟩ : ∃ f, f = fillContainers s spid (headerUuid trustlet)
          (tlSize + sizeofBlobLenInfo + 3 * maxSoContSize) tlSize
          ((Buffer.allocate.write 0 (le32 mcTlBlobLenMagic)).write sizeofBlobLenInfo
            (trustlet.slice ⟨0, tlSize⟩)) (sizeofBlobLenInfo + tlSize) := ⟨_, rfl⟩
      obtain ⟨ret, sizes, value⟩ := filled
      simp only [← hfilled]
      constructor
      · intro h
        by_cases hret : ret = mcDrvOk
        · rw [if_neg (not_not.mpr hret)] at h
          rw [hret] at hfilled
          obtain ⟨root, sp, tl, hcontainers, rfl, rfl⟩ := fillContainers_eq_ok.mp hfilled.symm
          refine ⟨Nat.not_lt.mp hsize, hmagic, Bool.not_eq_false _ ▸ hmalloc, root, sp, tl,
            hcontainers, ?_⟩
          exact (Option.some.inj (Prod.mk.inj h).1).symm
        · rw [if_pos hret] at h
          exact absurd (Prod.mk.inj h).2 (by decide)
      · rintro ⟨-, -, -, root, sp, tl, hcontainers, rfl⟩
        have hok := hfilled.trans (fillContainers_eq_ok.mpr ⟨root, sp, tl, hcontainers, rfl, rfl⟩)
        obtain ⟨hret, hrest⟩ := Prod.mk.inj hok
        obtain ⟨hsizes, hvalue⟩ := Prod.mk.inj hrest
        rw [if_neg (not_not.mpr hret), hsizes, hvalue]
        rfl
  · rw [if_pos hmagic]
    exact iff_of_false (by simp) fun h => hmagic h.2.1

/-- A driver and a system trustlet are returned as they are. -/
theorem mcRegistryMemGetServiceBlob_asIs {malloc : Bool} {obj : RegObject}
    (htype : serviceType trustlet = serviceTypeDriver ∨
      serviceType trustlet = serviceTypeSystemTrustlet) :
    mcRegistryMemGetServiceBlob s spid trustlet tlSize malloc = (some obj, true) ↔
      tlSize ≤ maxTlSize ∧ magic trustlet = mcServiceHeaderMagicBe ∧ malloc = true ∧
      obj = ⟨tlSize, tlSize, 0, Buffer.allocate.write 0 (trustlet.slice ⟨0, tlSize⟩)⟩ := by
  unfold mcRegistryMemGetServiceBlob
  rw [if_pos htype]
  by_cases hsize : tlSize > maxTlSize
  · rw [if_pos hsize]
    exact iff_of_false (by simp) fun h => absurd h.1 (Nat.not_le.mpr hsize)
  rw [if_neg hsize]
  by_cases hmagic : magic trustlet = mcServiceHeaderMagicBe
  · rw [if_neg (not_not.mpr hmagic)]
    cases malloc with
    | false => simp
    | true => simp [Nat.not_lt.mp hsize, hmagic, eq_comm]
  · rw [if_pos hmagic]
    exact iff_of_false (by simp) fun h => hmagic h.2.1

/-- No other service is returned. -/
theorem mcRegistryMemGetServiceBlob_other {malloc : Bool} {obj : RegObject}
    (htype : ¬ (serviceType trustlet = serviceTypeDriver ∨
      serviceType trustlet = serviceTypeSystemTrustlet))
    (hsp : serviceType trustlet ≠ serviceTypeSpTrustlet) :
    mcRegistryMemGetServiceBlob s spid trustlet tlSize malloc ≠ (some obj, true) := by
  unfold mcRegistryMemGetServiceBlob
  rw [if_neg htype, if_neg hsp]
  split_ifs
  all_goals simp

end Blob

/-! ## Parsing it back -/

/-- **What is returned parses back** unless the container of the trustlet has neither size. -/
theorem parsesBack_iff (s : Fs) (spid : Spid) (trustlet : Memory) (tlSize : Nat) :
    ParsesBack s spid trustlet tlSize ↔ ¬ UnknownTltCont s spid trustlet tlSize := by
  constructor
  · rintro hparses ⟨hsize, hmagic, htype, root, sp, tl, hcontainers, h20, h21⟩
    have hreturned := (mcRegistryMemGetServiceBlob_sp htype).mpr
      ⟨hsize, hmagic, rfl, root, sp, tl, hcontainers, rfl⟩
    obtain ⟨root', sp', tl', hcontainers', hlength, -⟩ := hparses htype true _ hreturned
    obtain ⟨-, -, rfl⟩ := hcontainers.unique hcontainers'
    exact hlength.elim h20 h21
  · intro hknown htype malloc obj hreturned
    obtain ⟨hsize, hmagic, -, root, sp, tl, hcontainers, rfl⟩ :=
      (mcRegistryMemGetServiceBlob_sp htype).mp hreturned
    refine ⟨root, sp, tl, hcontainers, ?_, laidOut_filledObject⟩
    by_contra hlength
    rw [not_or] at hlength
    exact hknown ⟨hsize, hmagic, htype, root, sp, tl, hcontainers, hlength⟩

/-- The three containers stored are read whole, if the third one goes into the room. -/
theorem containers_tlStored {n : Nat} (tlSize : Nat) (hpos : 0 < n) (hn : n ≤ 984) :
    Containers (tlStored n).2 1 (headerUuid spHeader) tlSize (List.replicate 220 0)
      (List.replicate 396 0) (List.replicate n 0) := by
  have hmax : 3 * maxSoContSize = 1536 := rfl
  have hinfo : sizeofBlobLenInfo = 32 := rfl
  obtain ⟨-, hroot, hsp, htl⟩ := get?_tlStored (n := n) (by omega)
  have hroom : tltRoom tlSize (List.replicate 220 0) (List.replicate 396 0) = 984 := by
    unfold tltRoom
    rw [List.length_replicate, List.length_replicate]
    omega
  have hwhole : ∀ m k, m ≤ k → List.replicate m (0 : UInt8) = (List.replicate m 0).take k := by
    intro m k hle
    exact (List.take_of_length_le (by rwa [List.length_replicate])).symm
  have hne : ∀ m, 0 < m → List.replicate m (0 : UInt8) ≠ [] := by
    intro m hm
    rw [Ne, List.replicate_eq_nil_iff]
    omega
  refine ⟨readFile_eq_ok.mpr ⟨_, hroot, ?_, hne 220 (by decide)⟩, ?_,
    readFile_eq_ok.mpr ⟨_, htl, ?_, hne n hpos⟩⟩
  · exact hwhole 220 _ (Nat.le_refl _)
  · show readFile _ _ _ = _
    exact readFile_eq_ok.mpr ⟨_, hsp, hwhole 396 _ (Nat.le_refl _), hne 396 (by decide)⟩
  · rw [hroom]
    exact hwhole n _ hn

/-- A container of 512 bytes is stored for the trustlet, and comes with its blob. -/
theorem not_parsesBack_tlStored :
    (rootStored.1 = mcDrvOk ∧ spStored.1 = mcDrvOk ∧ (tlStored 512).1 = mcDrvOk) ∧
      ¬ ParsesBack (tlStored 512).2 1 spHeader 104 := by
  refine ⟨(get?_tlStored (by decide)).1, fun hparses => ?_⟩
  have hcontainers := containers_tlStored (n := 512) 104 (by decide) (by decide)
  have hreturned := (mcRegistryMemGetServiceBlob_sp (by decide)).mpr
    ⟨by decide, by decide, rfl, _, _, _, hcontainers, rfl⟩
  obtain ⟨root, sp, tl, hcontainers', hlength, -⟩ := hparses (by decide) true _ hreturned
  obtain ⟨-, -, rfl⟩ := hcontainers.unique hcontainers'
  rw [List.length_replicate] at hlength
  exact absurd hlength (by decide)

end McDaemon.Registry
