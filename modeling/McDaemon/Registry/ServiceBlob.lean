/-
# McDaemon.Registry.ServiceBlob — the blob that is handed to MobiCore to load a trustlet.

A driver or a system trustlet goes as it is.  The trustlet of a service provider is preceded by a
length record and followed by three containers read from the registry, all in one buffer whose
size is fixed before the containers are read.  The room for the last container is what the code
takes to be left; it counts the length record twice.
-/
import Mathlib.Tactic.ByContra
import Mathlib.Tactic.SplitIfs
import McDaemon.Registry.Header
import McDaemon.Registry.Storage

namespace McDaemon.Registry

open McDaemon.Lib

/-- `MC_TLBLOBLEN_MAGIC`. -/
def mcTlBlobLenMagic : UInt32 := 0x7672746C

/-- `regObject_t`, with the number of bytes allocated for its value. -/
structure RegObject where
  allocated : Nat
  len : Nat
  tlStartOffset : Nat
  value : Buffer

/-- The size fields of `mcBlobLenInfo_t`. -/
structure BlobSizes where
  rootContBlobSize : Nat
  spContBlobSize : Nat
  tlContBlobSize : Nat

/-- Memory as `malloc` gives it. -/
def Buffer.allocate : Buffer := ⟨fun _ => 0, []⟩

/-- Append the three containers at `p`, and note their sizes in the length record. -/
def fillContainers (s : Fs) (spid : Spid) (uuid : Uuid) (regObjValueSize tlSize : Nat)
    (value : Buffer) (p : Nat) : McResult × BlobSizes × Buffer :=
  match mcRegistryReadRoot s sizeofRootCont with
  | .error r => (r, ⟨0, 0, 0⟩, value)
  | .ok root =>
    let value := (value.write p root).write 4 (le32 (UInt32.ofNat root.length))
    let p := p + root.length
    match mcRegistryReadSp s spid sizeofSpCont with
    | .error r => (r, ⟨root.length, 0, 0⟩, value)
    | .ok sp =>
      let value := (value.write p sp).write 8 (le32 (UInt32.ofNat sp.length))
      let p := p + sp.length
      -- "We know exactly how much space is left in the buffer"
      let soTltContSize :=
        regObjValueSize - tlSize + sizeofBlobLenInfo - sp.length - root.length
      match mcRegistryReadTrustletCon s uuid spid soTltContSize with
      | .error r => (r, ⟨root.length, sp.length, 0⟩, value)
      | .ok tl =>
        (mcDrvOk, ⟨root.length, sp.length, tl.length⟩,
          (value.write p tl).write 12 (le32 (UInt32.ofNat tl.length)))

/-- `mcRegistryMemGetServiceBlob`: the object allocated, if any, and whether it is returned (it is
freed otherwise). -/
def mcRegistryMemGetServiceBlob (s : Fs) (spid : Spid) (trustlet : Memory) (tlSize : Nat)
    (malloc : Bool) : Option RegObject × Bool :=
  if tlSize > maxTlSize then (none, false)
  else if magic trustlet ≠ mcServiceHeaderMagicBe then (none, false)
  else if serviceType trustlet = serviceTypeDriver ∨
      serviceType trustlet = serviceTypeSystemTrustlet then
    if malloc = false then (none, false)
    else (some ⟨tlSize, tlSize, 0, Buffer.allocate.write 0 (trustlet.slice ⟨0, tlSize⟩)⟩, true)
  else if serviceType trustlet = serviceTypeSpTrustlet then
    if malloc = false then (none, false)
    else
      let regObjValueSize := tlSize + sizeofBlobLenInfo + 3 * maxSoContSize
      let value := (Buffer.allocate.write 0 (le32 mcTlBlobLenMagic)).write sizeofBlobLenInfo
        (trustlet.slice ⟨0, tlSize⟩)
      let (ret, sizes, value) := fillContainers s spid (headerUuid trustlet) regObjValueSize tlSize
        value (sizeofBlobLenInfo + tlSize)
      if ret ≠ mcDrvOk then
        (some ⟨regObjValueSize, regObjValueSize, sizeofBlobLenInfo, value⟩, false)
      else
        (some ⟨regObjValueSize, sizeofBlobLenInfo + tlSize + sizes.rootContBlobSize +
          sizes.spContBlobSize + sizes.tlContBlobSize, sizeofBlobLenInfo, value⟩, true)
  else (none, false)

/-! ## Room for the containers -/

/-- What the blob takes of the root container and of the service provider's, and the whole of the
trustlet's container, go into the room for three containers; if one of the first two is missing
or empty, the third is not read. -/
def ContainersFit (s : Fs) (spid : Spid) (uuid : Uuid) : Prop :=
  ∀ root sp tl, s.get? getRootContFilePath = some (.file root) → root ≠ [] →
    spid ≠ 0 → s.get? (getSpContFilePath spid) = some (.file sp) → sp ≠ [] →
    s.get? (getTlContFilePath uuid spid) = some (.file tl) →
    min sizeofRootCont root.length + min sizeofSpCont sp.length + tl.length ≤ 3 * maxSoContSize

/-- All writes stay inside the allocation, and so does the length given to the blob. -/
def RegObject.Within (obj : RegObject) : Prop :=
  (∀ w ∈ obj.value.written, w.Below obj.allocated) ∧ obj.len ≤ obj.allocated

/-- Without a root container the room is not used. -/
theorem containersFit_of_root_error {s : Fs} {spid : Spid} {uuid : Uuid} {r : McResult}
    (h : mcRegistryReadRoot s sizeofRootCont = .error r) : ContainersFit s spid uuid := by
  intro root sp tl hroot hne
  have hempty := take_of_readFile_error h hroot
  exact absurd hempty (by simpa [sizeofRootCont] using hne)

theorem containersFit_of_sp_error {s : Fs} {spid : Spid} {uuid : Uuid} {r : McResult}
    (h : mcRegistryReadSp s spid sizeofSpCont = .error r) : ContainersFit s spid uuid := by
  intro root sp tl _ _ hspid hsp hne
  rw [mcRegistryReadSp, if_neg hspid] at h
  have hempty := take_of_readFile_error h hsp
  exact absurd hempty (by simpa [sizeofSpCont] using hne)

/-- Once the first two containers have been read, fitting is about the trustlet's alone. -/
theorem containersFit_iff {s : Fs} {spid : Spid} {uuid : Uuid} {root sp : List UInt8}
    (hroot : mcRegistryReadRoot s sizeofRootCont = .ok root)
    (hsp : mcRegistryReadSp s spid sizeofSpCont = .ok sp) :
    ContainersFit s spid uuid ↔ ∀ tl, s.get? (getTlContFilePath uuid spid) = some (.file tl) →
      root.length + sp.length + tl.length ≤ 3 * maxSoContSize := by
  obtain ⟨rootFile, hrootFile, rfl, hrootNe⟩ := readFile_eq_ok.mp hroot
  unfold mcRegistryReadSp at hsp
  split_ifs at hsp with hspid
  obtain ⟨spFile, hspFile, rfl, hspNe⟩ := readFile_eq_ok.mp hsp
  simp only [List.length_take]
  constructor
  · intro hfit tl htl
    refine hfit rootFile spFile tl hrootFile ?_ hspid hspFile ?_ htl
    · rintro rfl
      exact hrootNe rfl
    · rintro rfl
      exact hspNe rfl
  · intro hfit root sp tl hroot _ _ hsp _ htl
    rw [hrootFile] at hroot
    rw [hspFile] at hsp
    cases hroot
    cases hsp
    exact hfit tl htl

/-- The containers behind a trustlet: everything stays inside exactly when they fit. -/
theorem fillContainers_within {s : Fs} {spid : Spid} {uuid : Uuid} {tlSize : Nat}
    {value value' : Buffer} {ret : McResult} {sizes : BlobSizes}
    (hvalue : ∀ w ∈ value.written, w.Below (tlSize + sizeofBlobLenInfo + 3 * maxSoContSize))
    (h : fillContainers s spid uuid (tlSize + sizeofBlobLenInfo + 3 * maxSoContSize) tlSize value
      (sizeofBlobLenInfo + tlSize) = (ret, sizes, value')) :
    ((∀ w ∈ value'.written, w.Below (tlSize + sizeofBlobLenInfo + 3 * maxSoContSize)) ∧
      (ret = mcDrvOk → sizes.rootContBlobSize + sizes.spContBlobSize + sizes.tlContBlobSize ≤
        3 * maxSoContSize)) ↔ ContainersFit s spid uuid := by
  have hroom : 3 * maxSoContSize = 1536 := rfl
  have hinfo : sizeofBlobLenInfo = 32 := rfl
  -- one container behind the other; after one that cannot be read the lengths do not matter
  unfold fillContainers at h
  split at h
  case h_1 r hroot =>
    obtain ⟨rfl, rfl, rfl⟩ : r = ret ∧ _ = sizes ∧ value = value' := by simpa using h
    exact ⟨fun _ => containersFit_of_root_error hroot, fun _ =>
      ⟨hvalue, fun hok => absurd hok (readFile_error hroot)⟩⟩
  case h_2 root hroot =>
  have hrootLen : root.length ≤ 220 := (length_readFile hroot).2
  dsimp only at h
  split at h
  case h_1 r hsp =>
    obtain ⟨rfl, rfl, rfl⟩ : r = ret ∧ _ = sizes ∧ _ = value' := by simpa using h
    refine ⟨fun _ => containersFit_of_sp_error hsp, fun _ => ⟨?_, fun hok => ?_⟩⟩
    · simp only [Buffer.written_write, List.mem_cons, forall_eq_or_imp, Span.below_iff,
        length_le32]
      exact ⟨by omega, by omega, fun w hw => Span.below_iff.mp (hvalue w hw)⟩
    · exact absurd hok (mcRegistryReadSp_error hsp)
  case h_2 sp hsp =>
  have hspLen : sp.length ≤ 396 := (length_readFile (mcRegistryReadSp_eq_ok.mp hsp).2).2
  rw [containersFit_iff hroot hsp]
  split at h
  case h_1 r htl =>
    obtain ⟨rfl, rfl, rfl⟩ : r = ret ∧ _ = sizes ∧ _ = value' := by simpa using h
    refine ⟨fun _ tl htlFile => ?_, fun _ => ⟨?_, fun hok => absurd hok (readFile_error htl)⟩⟩
    · -- the room asked for is positive, so only an empty container gives an error
      have hempty : tl = [] := by
        rcases List.take_eq_nil_iff.mp (take_of_readFile_error htl htlFile) with hzero | hnil
        · omega
        · exact hnil
      rw [hempty, List.length_nil]
      omega
    · simp only [Buffer.written_write, List.mem_cons, forall_eq_or_imp, Span.below_iff,
        length_le32]
      exact ⟨by omega, by omega, by omega, by omega, fun w hw => Span.below_iff.mp (hvalue w hw)⟩
  case h_2 tl htl =>
    obtain ⟨rfl, rfl, rfl⟩ : _ = ret ∧ _ = sizes ∧ _ = value' := by simpa using h
    obtain ⟨content, hcontent, rfl, hne⟩ := readFile_eq_ok.mp htl
    have hpos := List.length_pos_iff.mpr hne
    rw [List.length_take] at hpos
    simp only [Buffer.written_write, List.mem_cons, forall_eq_or_imp, Span.below_iff, length_le32,
      List.length_take, true_implies]
    constructor
    · rintro ⟨-, hsize⟩ tl htlFile
      obtain rfl : content = tl := by
        rw [hcontent] at htlFile
        cases htlFile
        rfl
      omega
    · intro hfit
      have hfits := hfit content hcontent
      exact ⟨⟨by omega, by omega, by omega, by omega, by omega, by omega,
        fun w hw => Span.below_iff.mp (hvalue w hw)⟩, by omega⟩

/-! ## The allocation -/

/-- Whatever `mcRegistryMemGetServiceBlob` allocates for a service provider's trustlet has the size
that it says, and nothing is written beside it. -/
def WithinAllocation (s : Fs) (spid : Spid) (trustlet : Memory) (tlSize : Nat) : Prop :=
  ∀ malloc obj returned,
    mcRegistryMemGetServiceBlob s spid trustlet tlSize malloc = (some obj, returned) →
      obj.allocated = tlSize + sizeofBlobLenInfo + 3 * maxSoContSize ∧ obj.Within

/-- The object for a service provider's trustlet holds all that is written to it exactly when the
containers fit. -/
theorem spBlob_within_iff {s : Fs} {spid : Spid} {trustlet : Memory} {tlSize : Nat} {malloc : Bool}
    {obj : RegObject} {returned : Bool} (htype : serviceType trustlet = serviceTypeSpTrustlet)
    (h : mcRegistryMemGetServiceBlob s spid trustlet tlSize malloc = (some obj, returned)) :
    obj.allocated = tlSize + sizeofBlobLenInfo + 3 * maxSoContSize ∧
      (obj.Within ↔ ContainersFit s spid (headerUuid trustlet)) := by
  have hroom : 3 * maxSoContSize = 1536 := rfl
  have hinfo : sizeofBlobLenInfo = 32 := rfl
  have hother : ¬ (serviceType trustlet = serviceTypeDriver ∨
      serviceType trustlet = serviceTypeSystemTrustlet) := by
    rw [htype]
    decide
  unfold mcRegistryMemGetServiceBlob at h
  rw [if_neg hother, if_pos htype] at h
  split_ifs at h
  · simp at h
  · simp at h
  · simp at h
  · obtain ⟨value, hvalue⟩ : ∃ v, v = (Buffer.allocate.write 0 (le32 mcTlBlobLenMagic)).write
        sizeofBlobLenInfo (trustlet.slice ⟨0, tlSize⟩) := ⟨_, rfl⟩
    have hbelow : ∀ w ∈ value.written,
        w.Below (tlSize + sizeofBlobLenInfo + 3 * maxSoContSize) := by
      rw [hvalue]
      simp only [Buffer.written_write, Buffer.allocate, List.mem_cons, List.not_mem_nil, or_false,
        forall_eq_or_imp, forall_eq, Span.below_iff, length_le32, Memory.slice, List.length_map,
        List.length_range]
      omega
    rw [← hvalue] at h
    obtain ⟨filled, hfilled⟩ : ∃ f, f = fillContainers s spid (headerUuid trustlet)
        (tlSize + sizeofBlobLenInfo + 3 * maxSoContSize) tlSize value
        (sizeofBlobLenInfo + tlSize) := ⟨_, rfl⟩
    obtain ⟨ret, sizes, value'⟩ := filled
    rw [← fillContainers_within hbelow hfilled.symm]
    simp only [← hfilled] at h
    split_ifs at h with hret
    · cases h
      refine ⟨rfl, ?_⟩
      show (_ ∧ _) ↔ _
      simp [hret]
    · cases h
      refine ⟨rfl, ?_⟩
      have hok : ret = mcDrvOk := not_not.mp hret
      show (_ ∧ _ ≤ _) ↔ _
      apply and_congr Iff.rfl
      simp only [hok, true_implies]
      omega

/-- An object is allocated for a trustlet with the right magic. -/
theorem spBlob_allocated (s : Fs) (spid : Spid) (trustlet : Memory) (tlSize : Nat)
    (hsize : tlSize ≤ maxTlSize) (htype : serviceType trustlet = serviceTypeSpTrustlet)
    (hmagic : magic trustlet = mcServiceHeaderMagicBe) :
    ∃ obj returned,
      mcRegistryMemGetServiceBlob s spid trustlet tlSize true = (some obj, returned) := by
  have hother : ¬ (serviceType trustlet = serviceTypeDriver ∨
      serviceType trustlet = serviceTypeSystemTrustlet) := by
    rw [htype]
    decide
  unfold mcRegistryMemGetServiceBlob
  rw [if_neg (Nat.not_lt.mpr hsize), if_neg (not_not.mpr hmagic), if_neg hother, if_pos htype,
    if_neg (by decide)]
  dsimp only
  split_ifs
  · exact ⟨_, _, rfl⟩
  · exact ⟨_, _, rfl⟩

/-- **The blob stays inside.** For a service provider's trustlet of an accepted size this holds
exactly when the containers fit, unless the header's magic is refused. -/
theorem withinAllocation_iff_containersFit {s : Fs} {spid : Spid} {trustlet : Memory} {tlSize : Nat}
    (hsize : tlSize ≤ maxTlSize) (htype : serviceType trustlet = serviceTypeSpTrustlet) :
    WithinAllocation s spid trustlet tlSize ↔
      (magic trustlet = mcServiceHeaderMagicBe → ContainersFit s spid (headerUuid trustlet)) := by
  constructor
  · intro hwithin hmagic
    obtain ⟨obj, returned, hblob⟩ := spBlob_allocated s spid trustlet tlSize hsize htype hmagic
    exact (spBlob_within_iff htype hblob).2.mp (hwithin true obj returned hblob).2
  · intro hfit malloc obj returned hblob
    have hmagic : magic trustlet = mcServiceHeaderMagicBe := by
      by_contra hmagic
      unfold mcRegistryMemGetServiceBlob at hblob
      rw [if_pos hmagic] at hblob
      split_ifs at hblob
      · cases hblob
      · cases hblob
    obtain ⟨hallocated, hiff⟩ := spBlob_within_iff htype hblob
    exact ⟨hallocated, hiff.mpr (hfit hmagic)⟩

/-- A header with the right magic, of a service provider's trustlet with a zero uuid. -/
def spHeader : Memory := fun i =>
  if i < 4 then [0x4D, 0x43, 0x4C, 0x46].getD i 0 else if i = 16 then 2 else 0

/-- A full root container stored. -/
def rootStored : McResult × Fs := mcRegistryStoreRoot freshRegistry (List.replicate 220 0)

/-- And a full container of service provider 1. -/
def spStored : McResult × Fs := mcRegistryStoreSp rootStored.2 1 (List.replicate 396 0)

/-- And a container of `n` bytes for the trustlet of `spHeader`. -/
def tlStored (n : Nat) : McResult × Fs :=
  mcRegistryStoreTrustletCon spStored.2 (headerUuid spHeader) 1 (List.replicate n 0)

/-- The three containers as they are found. -/
theorem get?_tlStored {n : Nat} (hn : n ≤ 3 * maxSoContSize) :
    (rootStored.1 = mcDrvOk ∧ spStored.1 = mcDrvOk ∧ (tlStored n).1 = mcDrvOk) ∧
    (tlStored n).2.get? getRootContFilePath = some (.file (List.replicate 220 0)) ∧
    (tlStored n).2.get? (getSpContFilePath 1) = some (.file (List.replicate 396 0)) ∧
    (tlStored n).2.get? (getTlContFilePath (headerUuid spHeader) 1) =
      some (.file (List.replicate n 0)) := by
  have hroot : rootStored = storeFile freshRegistry getRootContFilePath (List.replicate 220 0) := by
    rw [rootStored, mcRegistryStoreRoot, List.length_replicate, if_neg (by decide)]
  have hsp : spStored = storeFile rootStored.2 (getSpContFilePath 1) (List.replicate 396 0) := by
    rw [spStored, mcRegistryStoreSp, List.length_replicate, if_neg (by decide)]
  have htl : tlStored n = storeFile spStored.2 (getTlContFilePath (headerUuid spHeader) 1)
      (List.replicate n 0) := by
    rw [tlStored, mcRegistryStoreTrustletCon, List.length_replicate,
      if_neg (Nat.not_lt.mpr hn)]
  obtain ⟨s₁, hs₁⟩ : ∃ t, rootStored = (mcDrvOk, t) :=
    hroot ▸ storeFile_inRegistry (by decide) (by decide)
  have hget₁ := get?_storeFile (hroot.symm.trans hs₁)
  obtain ⟨s₂, hs₂⟩ : ∃ t, spStored = (mcDrvOk, t) := by
    rw [hsp, hs₁]
    refine storeFile_inRegistry ?_ ?_
    · rw [hget₁, if_neg (by decide)]
      decide
    · rw [FileSystem.isDir, hget₁, if_neg (by decide)]
      decide
  rw [hs₁] at hsp
  have hget₂ := get?_storeFile (hsp.symm.trans hs₂)
  obtain ⟨s₃, hs₃⟩ : ∃ t, tlStored n = (mcDrvOk, t) := by
    rw [htl, hs₂]
    refine storeFile_inRegistry ?_ ?_
    · rw [hget₂, if_neg (by decide), hget₁, if_neg (by decide)]
      decide
    · rw [FileSystem.isDir, hget₂, if_neg (by decide), hget₁, if_neg (by decide)]
      decide
  rw [hs₂] at htl
  have hget₃ := get?_storeFile (htl.symm.trans hs₃)
  rw [hs₁, hs₂, hs₃]
  refine ⟨⟨rfl, rfl, rfl⟩, ?_, ?_, ?_⟩
  · rw [hget₃, if_neg (by decide), hget₂, if_neg (by decide), hget₁, if_pos rfl]
  · rw [hget₃, if_neg (by decide), hget₂, if_pos rfl]
  · rw [hget₃, if_pos rfl]

/-- With the two other containers full, 920 bytes are left for the trustlet's. -/
theorem containersFit_tlStored {n : Nat} (hn : n ≤ 3 * maxSoContSize) :
    ContainersFit (tlStored n).2 1 (headerUuid spHeader) ↔ n ≤ 920 := by
  obtain ⟨-, hroot, hsp, htl⟩ := get?_tlStored hn
  have hrootSize : sizeofRootCont = 220 := rfl
  have hspSize : sizeofSpCont = 396 := rfl
  have hroom : 3 * maxSoContSize = 1536 := rfl
  constructor
  · intro hfit
    have hbytes := hfit _ _ _ hroot (by decide) (by decide) hsp (by decide) htl
    simp only [List.length_replicate] at hbytes
    omega
  · intro hle root sp tl hroot' _ _ hsp' _ htl'
    rw [hroot] at hroot'
    rw [hsp] at hsp'
    rw [htl] at htl'
    cases hroot'
    cases hsp'
    cases htl'
    simp only [List.length_replicate]
    omega

/-- A container of 512 bytes goes in. -/
theorem withinAllocation_tlStored : WithinAllocation (tlStored 512).2 1 spHeader 104 :=
  (withinAllocation_iff_containersFit (by decide) (by decide)).mpr fun _ =>
    (containersFit_tlStored (by decide)).mpr (by decide)

/-- One of three times `MAX_SO_CONT_SIZE` is accepted by the store operation and does not go in. -/
theorem withinAllocation_overflow :
    (rootStored.1 = mcDrvOk ∧ spStored.1 = mcDrvOk ∧ (tlStored 1536).1 = mcDrvOk) ∧
      serviceType spHeader = serviceTypeSpTrustlet ∧ 104 ≤ maxTlSize ∧
      ¬ WithinAllocation (tlStored 1536).2 1 spHeader 104 := by
  refine ⟨(get?_tlStored (by decide)).1, by decide, by decide, fun hwithin => ?_⟩
  obtain ⟨obj, returned, hblob⟩ := spBlob_allocated (tlStored 1536).2 1 spHeader 104
    (by decide) (by decide) (by decide)
  have hfit := (spBlob_within_iff (by decide) hblob).2.mp (hwithin true obj returned hblob).2
  have hle := (containersFit_tlStored (by decide)).mp hfit
  omega

end McDaemon.Registry
