/-
# McDaemon.Daemon.HeaderReads — the reads of a trustlet's header.

A trustlet comes as bytes with a length, and only the length is checked, against the largest size.
After that the header is read through a pointer: the intro and the fields of version 2 by the
registry, the whole of version 2 and the GP level of version 2.4 by the device.  The reads are
inspections of memory, counted from the start of the trustlet, also those that are made on the
copy in the service blob.
-/
import McDaemon.Device.Operations
import McDaemon.Registry.BlobLayout
import McDaemon.Registry.TaBlob

namespace McDaemon.Daemon.HeaderReads

open McDaemon.Lib
open McDaemon.Lib.Inspection
open McDaemon.Registry
open McDaemon.Device (OpenCommand KmodAnswers exchangeResult)

/-! ## The reads -/

/-- `text.len`. -/
def textLenField : Span := ⟨52, 4⟩

/-- `data.len`. -/
def dataLenField : Span := ⟨60, 4⟩

/-- `sizeof(mclfHeader_t)`, which is that of the header of version 2. -/
def sizeofMclfHeader : Nat := 76

/-- What the log of a debug build says of a service. -/
def logService (trustlet : Memory) (ndebug : Bool) : Inspection McResult Unit :=
  if ndebug then pure ()
  else do
    let _ ← lookField trustlet serviceTypeField
    let _ ← lookField trustlet textLenField
    let _ ← lookField trustlet dataLenField

/-- The containers of a service provider's trustlet; its uuid is read when it is the turn of the
last one. -/
def lookContainers (s : Fs) (spid : Spid) (trustlet : Memory) (tlSize : Nat) :
    Inspection McResult RegObject :=
  match mcRegistryReadRoot s sizeofRootCont with
  | .error e => refuse e
  | .ok root =>
    match mcRegistryReadSp s spid sizeofSpCont with
    | .error e => refuse e
    | .ok sp => do
      let uuid ← look trustlet uuidField
      match mcRegistryReadTrustletCon s (uuidOf uuid) spid (tltRoom tlSize root sp) with
      | .error e => refuse e
      | .ok tl => pure (filledObject trustlet tlSize root sp tl)

/-- `mcRegistryMemGetServiceBlob`, by what it looks at. -/
def memGetServiceBlob (s : Fs) (spid : Spid) (trustlet : Memory) (tlSize : Nat)
    (malloc ndebug : Bool) : Inspection McResult RegObject := do
  refuseIf (tlSize > maxTlSize) mcDrvErrTrustletNotFound
  let magic ← lookField trustlet magicField
  refuseIf (magic ≠ mcServiceHeaderMagicBe) mcDrvErrTrustletNotFound
  logService trustlet ndebug
  let serviceType ← lookField trustlet serviceTypeField
  if serviceType = serviceTypeDriver ∨ serviceType = serviceTypeSystemTrustlet then
    refuseIf (malloc = false) mcDrvErrTrustletNotFound
    let bytes ← look trustlet ⟨0, tlSize⟩
    pure ⟨tlSize, tlSize, 0, Buffer.allocate.write 0 bytes⟩
  else if serviceType = serviceTypeSpTrustlet then
    refuseIf (malloc = false) mcDrvErrTrustletNotFound
    let _ ← look trustlet ⟨0, tlSize⟩
    lookContainers s spid trustlet tlSize
  else refuse mcDrvErrTrustletNotFound

/-- The header in the object. -/
def tlHeader (obj : RegObject) : Memory := fun i => obj.value.bytes (obj.tlStartOffset + i)

/-- The part of `cmdOpen` and `cmdCheckLoad` that is copied from the header. -/
structure McpHeader where
  uuid : Uuid
  tlHeader : List UInt8

def copyHeader (header : Memory) : Inspection McResult McpHeader := do
  let uuid ← look header uuidField
  let bytes ← look header ⟨0, sizeofMclfHeader⟩
  pure ⟨uuidOf uuid, bytes⟩

/-- `openSession`, by what it reads of the header; it gives the GP level of the session. -/
def openSession (header : Memory) (c : OpenCommand) (rsp : Option McpResponse) :
    Inspection McResult Nat :=
  match c.findTci with
  | none => refuse mcDrvErrDaemonWsmHandleNotFound
  | some (_, len) => do
    refuseIf (c.hasTci = true ∧ c.kmod.lockWsmL2 = false) mcDrvErrDaemonWsmHandleNotFound
    refuseIf ((c.tciHandle ≠ 0 ∧ c.tciLen = 0) ∨ c.tciLen > len) mcDrvErrTciGreaterThanWsm
    let _ ← copyHeader header
    match exchangeResult mcMcpCmdOpenSession rsp with
    | .error e => refuse e
    | .ok _ => lookField header gpLevelField

/-- Which command brings the trustlet, and what is answered on the way. -/
inductive LoadCommand where
  /-- `MC_DRV_CMD_OPEN_TRUSTLET`, and the answer of the secure world. -/
  | openTrustlet (c : OpenCommand) (rsp : Option McpResponse)
  /-- `MC_DRV_REG_STORE_TA_BLOB`; nothing of the header is read after the exchange. -/
  | storeTABlob (kmod : KmodAnswers)

def LoadCommand.kmod : LoadCommand → KmodAnswers
  | .openTrustlet c _ => c.kmod
  | .storeTABlob kmod => kmod

/-- What the device reads of the header. -/
def LoadCommand.handOver (header : Memory) : LoadCommand → Inspection McResult Unit
  | .openTrustlet c rsp => do
    let _ ← openSession header c rsp
  | .storeTABlob _ => do
    let _ ← copyHeader header

/-- `processOpenTrustlet` and `processLoadCheck`, from the trustlet received to the device. -/
def processTrustlet (s : Fs) (spid : Spid) (trustlet : Memory) (tlSize : Nat)
    (device malloc ndebug : Bool) (cmd : LoadCommand) : Inspection McResult Unit := do
  refuseIf (device = false) mcDrvErrDaemonDeviceNotOpen
  let obj ← memGetServiceBlob s spid trustlet tlSize malloc ndebug
  refuseIf (obj.len = 0) mcDrvErrTrustletNotFound
  refuseIf (cmd.kmod.registerWsmL2 = false) mcDrvErrDaemonKmodError
  cmd.handOver (tlHeader obj)

/-! ## How far the reads go -/

/-- The bytes of the header that the registry reads of a service with the right magic. -/
def serviceNeed (ndebug : Bool) : Nat := if ndebug then 20 else 64

/-- It is the turn of the trustlet's container, which is found by the uuid. -/
structure ReachesUuid (s : Fs) (spid : Spid) (trustlet : Memory) (malloc : Bool) : Prop where
  type : serviceType trustlet = serviceTypeSpTrustlet
  allocated : malloc = true
  root : ∃ root, mcRegistryReadRoot s sizeofRootCont = .ok root
  sp : ∃ sp, mcRegistryReadSp s spid sizeofSpCont = .ok sp

/-- The registry makes a blob of a service with the right magic. -/
structure Loads (s : Fs) (spid : Spid) (trustlet : Memory) (tlSize : Nat) (malloc : Bool) :
    Prop where
  allocated : malloc = true
  complete : serviceType trustlet = serviceTypeDriver ∨
    serviceType trustlet = serviceTypeSystemTrustlet ∨
    serviceType trustlet = serviceTypeSpTrustlet ∧
      ∃ root sp tl, Containers s spid (headerUuid trustlet) tlSize root sp tl

/-- The TCI of an open is found and locked, and it is long enough. -/
def GetsTci (c : OpenCommand) : Prop :=
  ∃ tci len, c.findTci = some (tci, len) ∧ ¬ (c.hasTci = true ∧ c.kmod.lockWsmL2 = false) ∧
    ¬ ((c.tciHandle ≠ 0 ∧ c.tciLen = 0) ∨ c.tciLen > len)

/-- The blob is shared, and an open gets its TCI. -/
def LoadCommand.Sends (cmd : LoadCommand) : Prop :=
  cmd.kmod.registerWsmL2 = true ∧ ∀ c rsp, cmd = .openTrustlet c rsp → GetsTci c

/-- An open that the secure world accepts. -/
def LoadCommand.Opens (cmd : LoadCommand) : Prop :=
  ∃ c rsp r, cmd = .openTrustlet c rsp ∧ exchangeResult mcMcpCmdOpenSession rsp = .ok r

/-- The trustlet is as long as the part of its header whose turn comes. -/
structure HeaderFits (s : Fs) (spid : Spid) (trustlet : Memory) (tlSize : Nat)
    (malloc ndebug : Bool) (cmd : LoadCommand) : Prop where
  intro : 4 ≤ tlSize
  service : magic trustlet = mcServiceHeaderMagicBe → serviceNeed ndebug ≤ tlSize
  uuid : magic trustlet = mcServiceHeaderMagicBe → ReachesUuid s spid trustlet malloc →
    40 ≤ tlSize
  message : magic trustlet = mcServiceHeaderMagicBe → Loads s spid trustlet tlSize malloc →
    cmd.Sends → sizeofMclfHeader ≤ tlSize
  level : magic trustlet = mcServiceHeaderMagicBe → Loads s spid trustlet tlSize malloc →
    cmd.Sends → cmd.Opens → 100 ≤ tlSize

/-- Everything that is read lies in the trustlet that was received. -/
def ReadsInside (s : Fs) (spid : Spid) (trustlet : Memory) (tlSize : Nat)
    (device malloc ndebug : Bool) (cmd : LoadCommand) : Prop :=
  ∀ w ∈ (processTrustlet s spid trustlet tlSize device malloc ndebug cmd).looked, w.Below tlSize

/-! ## The object -/

section Object

variable {s : Fs} {spid : Spid} {trustlet : Memory} {tlSize : Nat} {malloc ndebug : Bool}
  {obj : RegObject}

theorem lookField_eq_ok {w : Span} {n : Nat} :
    (lookField trustlet w).result = .ok n ↔ fieldOf trustlet w = n := by
  unfold lookField
  simp only [bind_eq_ok, look_eq_ok, pure_eq_ok, exists_eq_left']
  exact Iff.rfl

theorem logService_eq_ok {u : Unit} :
    (logService trustlet ndebug).result = .ok u ↔ True := by
  unfold logService
  cases ndebug with
  | true => simp [pure_eq_ok]
  | false => simp [lookField, bind_eq_ok, look_eq_ok, pure_eq_ok]

theorem lookContainers_eq_ok :
    (lookContainers s spid trustlet tlSize).result = .ok obj ↔
      ∃ root sp tl, Containers s spid (headerUuid trustlet) tlSize root sp tl ∧
        obj = filledObject trustlet tlSize root sp tl := by
  unfold lookContainers
  constructor
  · intro h
    split at h
    case h_1 => exact (refuse_eq_ok.mp h).elim
    case h_2 root hroot =>
    split at h
    case h_1 => exact (refuse_eq_ok.mp h).elim
    case h_2 sp hsp =>
    obtain ⟨uuid, huuid, h⟩ := bind_eq_ok.mp h
    obtain rfl := look_eq_ok.mp huuid
    split at h
    case h_1 => exact (refuse_eq_ok.mp h).elim
    case h_2 tl htl => exact ⟨root, sp, tl, ⟨hroot, hsp, htl⟩, (pure_eq_ok.mp h).symm⟩
  · rintro ⟨root, sp, tl, ⟨hroot, hsp, htl⟩, rfl⟩
    rw [hroot]
    dsimp only
    rw [hsp]
    refine bind_eq_ok.mpr ⟨_, look_eq_ok.mpr rfl, ?_⟩
    rw [show mcRegistryReadTrustletCon s (uuidOf (trustlet.slice uuidField)) spid
      (tltRoom tlSize root sp) = .ok tl from htl]
    exact pure_eq_ok.mpr rfl

/-- **The object** is that of `mcRegistryMemGetServiceBlob`. -/
theorem memGetServiceBlob_eq_ok :
    (memGetServiceBlob s spid trustlet tlSize malloc ndebug).result = .ok obj ↔
      mcRegistryMemGetServiceBlob s spid trustlet tlSize malloc = (some obj, true) := by
  have hsp : ¬ (serviceTypeSpTrustlet = serviceTypeDriver ∨
      serviceTypeSpTrustlet = serviceTypeSystemTrustlet) := by decide
  have hmagic : fieldOf trustlet magicField = magic trustlet := rfl
  have htype : fieldOf trustlet serviceTypeField = serviceType trustlet := rfl
  unfold memGetServiceBlob
  simp only [bind_eq_ok, refuseIf_eq_ok, lookField_eq_ok, logService_eq_ok, exists_eq_left',
    exists_const, true_and, hmagic, htype]
  by_cases hservice : serviceType trustlet = serviceTypeSpTrustlet
  · rw [mcRegistryMemGetServiceBlob_sp hservice, hservice, if_neg hsp, if_pos rfl]
    simp only [bind_eq_ok, refuseIf_eq_ok, look_eq_ok, exists_eq_left', exists_const,
      lookContainers_eq_ok]
    simp
  by_cases hdriver : serviceType trustlet = serviceTypeDriver ∨
      serviceType trustlet = serviceTypeSystemTrustlet
  · rw [mcRegistryMemGetServiceBlob_asIs hdriver, if_pos hdriver]
    simp only [bind_eq_ok, refuseIf_eq_ok, look_eq_ok, pure_eq_ok, exists_eq_left', exists_const]
    simp [eq_comm]
  · rw [if_neg hdriver, if_neg hservice]
    simp [refuse_eq_ok, mcRegistryMemGetServiceBlob_other hdriver hservice]

/-- When there is an object. -/
theorem returned_iff : (∃ obj, mcRegistryMemGetServiceBlob s spid trustlet tlSize malloc =
      (some obj, true)) ↔ tlSize ≤ maxTlSize ∧ magic trustlet = mcServiceHeaderMagicBe ∧
        Loads s spid trustlet tlSize malloc := by
  constructor
  · rintro ⟨obj, hobj⟩
    by_cases hsp : serviceType trustlet = serviceTypeSpTrustlet
    · obtain ⟨hsize, hmagic, hmalloc, root, sp, tl, hcontainers, -⟩ :=
        (mcRegistryMemGetServiceBlob_sp hsp).mp hobj
      exact ⟨hsize, hmagic, hmalloc, .inr (.inr ⟨hsp, root, sp, tl, hcontainers⟩)⟩
    · by_cases hdriver : serviceType trustlet = serviceTypeDriver ∨
          serviceType trustlet = serviceTypeSystemTrustlet
      · obtain ⟨hsize, hmagic, hmalloc, -⟩ := (mcRegistryMemGetServiceBlob_asIs hdriver).mp hobj
        exact ⟨hsize, hmagic, hmalloc, hdriver.imp_right .inl⟩
      · exact absurd hobj (mcRegistryMemGetServiceBlob_other hdriver hsp)
  · rintro ⟨hsize, hmagic, hmalloc, hdriver | hsystem | ⟨hsp, root, sp, tl, hcontainers⟩⟩
    · exact ⟨_, (mcRegistryMemGetServiceBlob_asIs (.inl hdriver)).mpr ⟨hsize, hmagic, hmalloc, rfl⟩⟩
    · exact ⟨_, (mcRegistryMemGetServiceBlob_asIs (.inr hsystem)).mpr
        ⟨hsize, hmagic, hmalloc, rfl⟩⟩
    · exact ⟨_, (mcRegistryMemGetServiceBlob_sp hsp).mpr
        ⟨hsize, hmagic, hmalloc, root, sp, tl, hcontainers, rfl⟩⟩

/-- An object is as long as its trustlet at least. -/
theorem tlSize_le_of_returned
    (h : mcRegistryMemGetServiceBlob s spid trustlet tlSize malloc = (some obj, true)) :
    tlSize ≤ obj.len := by
  by_cases hsp : serviceType trustlet = serviceTypeSpTrustlet
  · obtain ⟨-, -, -, root, sp, tl, -, rfl⟩ := (mcRegistryMemGetServiceBlob_sp hsp).mp h
    show tlSize ≤ sizeofBlobLenInfo + tlSize + root.length + sp.length + tl.length
    omega
  · by_cases hdriver : serviceType trustlet = serviceTypeDriver ∨
        serviceType trustlet = serviceTypeSystemTrustlet
    · obtain ⟨-, -, -, rfl⟩ := (mcRegistryMemGetServiceBlob_asIs hdriver).mp h
      exact Nat.le_refl _
    · exact absurd h (mcRegistryMemGetServiceBlob_other hdriver hsp)

end Object

/-! ## The reads, one function after the other -/

section Reads

variable {s : Fs} {spid : Spid} {trustlet header : Memory} {tlSize n : Nat} {malloc ndebug : Bool}

theorem magicField_below : magicField.Below n ↔ 4 ≤ n := Span.below_of_pos Nat.succ_pos'

theorem serviceTypeField_below : serviceTypeField.Below n ↔ 20 ≤ n :=
  Span.below_of_pos Nat.succ_pos'

theorem textLenField_below : textLenField.Below n ↔ 56 ≤ n := Span.below_of_pos Nat.succ_pos'

theorem dataLenField_below : dataLenField.Below n ↔ 64 ≤ n := Span.below_of_pos Nat.succ_pos'

theorem uuidField_below : uuidField.Below n ↔ 40 ≤ n := Span.below_of_pos Nat.succ_pos'

theorem gpLevelField_below : gpLevelField.Below n ↔ 100 ≤ n := Span.below_of_pos Nat.succ_pos'

theorem mclfHeader_below : (⟨0, sizeofMclfHeader⟩ : Span).Below n ↔ sizeofMclfHeader ≤ n := by
  rw [Span.below_of_pos (by decide)]
  show 0 + _ ≤ n ↔ _
  rw [Nat.zero_add]

/-- The whole trustlet is in the trustlet. -/
theorem whole_below : (⟨0, n⟩ : Span).Below n := by
  intro i _ hi
  rwa [Nat.zero_add] at hi

theorem inside_logService {Q : Unit → Prop} :
    (logService trustlet ndebug).Inside n Q ↔ (ndebug = false → 64 ≤ n) ∧ Q () := by
  unfold logService
  cases ndebug with
  | true => simp [inside_pure]
  | false =>
    simp only [Bool.false_eq_true, if_false, inside_bind, inside_lookField,
      serviceTypeField_below, textLenField_below, dataLenField_below, inside_pure, true_implies]
    constructor
    · rintro ⟨-, -, hdata, hQ⟩
      exact ⟨hdata, hQ⟩
    · rintro ⟨hdata, hQ⟩
      exact ⟨by omega, by omega, hdata, hQ⟩

theorem inside_lookContainers :
    (lookContainers s spid trustlet tlSize).Inside n (fun _ => True) ↔
      ((∃ root, mcRegistryReadRoot s sizeofRootCont = .ok root) →
        (∃ sp, mcRegistryReadSp s spid sizeofSpCont = .ok sp) → 40 ≤ n) := by
  unfold lookContainers
  cases hroot : mcRegistryReadRoot s sizeofRootCont with
  | error e => simp [inside_refuse]
  | ok root =>
    cases hsp : mcRegistryReadSp s spid sizeofSpCont with
    | error e => simp [inside_refuse]
    | ok sp =>
      dsimp only
      rw [inside_bind, inside_look, uuidField_below]
      constructor
      · intro h _ _
        exact h.1
      · intro h
        refine ⟨h ⟨root, rfl⟩ ⟨sp, rfl⟩, ?_⟩
        split
        · exact inside_refuse
        · exact inside_pure.mpr trivial

/-- **The registry.** With the right magic it reads as far as the service type, in a debug build
as far as the length of the data segment, and for a container as far as the uuid. -/
theorem inside_memGetServiceBlob :
    (memGetServiceBlob s spid trustlet n malloc ndebug).Inside n (fun _ => True) ↔
      (n ≤ maxTlSize → 4 ≤ n ∧ (magic trustlet = mcServiceHeaderMagicBe →
        serviceNeed ndebug ≤ n ∧ (ReachesUuid s spid trustlet malloc → 40 ≤ n))) := by
  have hmagic : fieldOf trustlet magicField = magic trustlet := rfl
  have htype : fieldOf trustlet serviceTypeField = serviceType trustlet := rfl
  unfold memGetServiceBlob
  simp only [inside_bind, inside_refuseIf, inside_lookField, inside_logService, magicField_below,
    serviceTypeField_below, hmagic, htype, not_lt, not_not, gt_iff_lt]
  refine forall_congr' fun _ => and_congr_right fun _ => forall_congr' fun _ => ?_
  have hneed : ((ndebug = false → 64 ≤ n) ∧ 20 ≤ n) ↔ serviceNeed ndebug ≤ n := by
    unfold serviceNeed
    cases ndebug with
    | true => simp
    | false =>
      simp only [true_implies, Bool.false_eq_true, if_false]
      omega
  rw [← hneed, and_assoc]
  refine and_congr_right fun _ => and_congr_right fun _ => ?_
  by_cases hdriver : serviceType trustlet = serviceTypeDriver ∨
      serviceType trustlet = serviceTypeSystemTrustlet
  · rw [if_pos hdriver]
    simp only [inside_bind, inside_refuseIf, inside_look, inside_pure, whole_below, true_and]
    refine iff_of_true (fun _ => trivial) fun hreaches => absurd hdriver ?_
    rw [hreaches.type]
    decide
  rw [if_neg hdriver]
  by_cases hsp : serviceType trustlet = serviceTypeSpTrustlet
  · rw [if_pos hsp]
    simp only [inside_bind, inside_refuseIf, inside_look, inside_lookContainers, whole_below,
      true_and, Bool.not_eq_false]
    constructor
    · rintro h ⟨-, hmalloc, hroot, hsp⟩
      exact h hmalloc hroot hsp
    · intro h hmalloc hroot hsp'
      exact h ⟨hsp, hmalloc, hroot, hsp'⟩
  · rw [if_neg hsp]
    exact iff_of_true inside_refuse fun hreaches => absurd hreaches.type hsp

theorem inside_copyHeader {Q : McpHeader → Prop} : (copyHeader header).Inside n Q ↔
    sizeofMclfHeader ≤ n ∧ Q ⟨headerUuid header, header.slice ⟨0, sizeofMclfHeader⟩⟩ := by
  have hheader : sizeofMclfHeader = 76 := rfl
  unfold copyHeader
  simp only [inside_bind, inside_look, inside_pure, uuidField_below, mclfHeader_below]
  constructor
  · rintro ⟨-, hsize, hQ⟩
    exact ⟨hsize, hQ⟩
  · rintro ⟨hsize, hQ⟩
    exact ⟨by omega, hsize, hQ⟩

theorem inside_openSession {c : OpenCommand} {rsp : Option McpResponse} :
    (openSession header c rsp).Inside n (fun _ => True) ↔
      (GetsTci c → sizeofMclfHeader ≤ n ∧
        ((∃ r, exchangeResult mcMcpCmdOpenSession rsp = .ok r) → 100 ≤ n)) := by
  unfold openSession GetsTci
  cases hfind : c.findTci with
  | none => simp [inside_refuse]
  | some p =>
    obtain ⟨tci, len⟩ := p
    dsimp only
    rw [inside_bind, inside_refuseIf]
    have htail : (copyHeader header >>= fun _ =>
        (match exchangeResult mcMcpCmdOpenSession rsp with
          | .error e => refuse e
          | .ok _ => lookField header gpLevelField)).Inside n (fun _ => True) ↔
        sizeofMclfHeader ≤ n ∧
          ((∃ r, exchangeResult mcMcpCmdOpenSession rsp = .ok r) → 100 ≤ n) := by
      rw [inside_bind, inside_copyHeader]
      apply and_congr_right
      intro _
      cases exchangeResult mcMcpCmdOpenSession rsp with
      | error e => simp [inside_refuse]
      | ok r => simp [inside_lookField, gpLevelField_below]
    constructor
    · rintro h ⟨tci', len', hsome, hlock, hlong⟩
      obtain ⟨rfl, rfl⟩ := Prod.mk.inj (Option.some.inj hsome)
      have hchecked := h hlock
      rw [inside_bind, inside_refuseIf] at hchecked
      exact htail.mp (hchecked hlong)
    · intro h hlock
      rw [inside_bind, inside_refuseIf]
      intro hlong
      exact htail.mpr (h ⟨tci, len, rfl, hlock, hlong⟩)

/-- **The device.** The header is copied once the blob is shared and the TCI found, and its GP
level read when an open has been accepted. -/
theorem inside_handOver {cmd : LoadCommand} (hshared : cmd.kmod.registerWsmL2 = true) :
    (cmd.handOver header).Inside n (fun _ => True) ↔
      (cmd.Sends → sizeofMclfHeader ≤ n ∧ (cmd.Opens → 100 ≤ n)) := by
  cases cmd with
  | storeTABlob kmod =>
    show (copyHeader header >>= fun _ => pure ()).Inside n (fun _ => True) ↔ _
    have hsends : (LoadCommand.storeTABlob kmod).Sends := ⟨hshared, fun _ _ h => nomatch h⟩
    have hopens : ¬ (LoadCommand.storeTABlob kmod).Opens := fun ⟨_, _, _, h, _⟩ => nomatch h
    simp only [inside_bind, inside_pure, inside_copyHeader, hsends, hopens, true_implies,
      false_implies, and_true]
  | openTrustlet c rsp =>
    show (openSession header c rsp >>= fun _ => pure ()).Inside n (fun _ => True) ↔ _
    simp only [inside_bind, inside_pure, inside_openSession]
    constructor
    · rintro h ⟨-, hgets⟩
      obtain ⟨hheader, hlevel⟩ := h (hgets c rsp rfl)
      refine ⟨hheader, fun ⟨_, _, r, hcmd, hr⟩ => hlevel ⟨r, ?_⟩⟩
      cases hcmd
      exact hr
    · intro h hgets
      have hsends : (LoadCommand.openTrustlet c rsp).Sends := by
        refine ⟨hshared, fun _ _ hcmd => ?_⟩
        cases hcmd
        exact hgets
      obtain ⟨hheader, hlevel⟩ := h hsends
      exact ⟨hheader, fun ⟨r, hr⟩ => hlevel ⟨c, rsp, r, rfl, hr⟩⟩

end Reads

/-! ## All reads -/

theorem inside_processTrustlet (s : Fs) (spid : Spid) (trustlet : Memory) (tlSize : Nat)
    (device malloc ndebug : Bool) (cmd : LoadCommand) :
    (processTrustlet s spid trustlet tlSize device malloc ndebug cmd).Inside tlSize
        (fun _ => True) ↔
      (device = true → tlSize ≤ maxTlSize →
        HeaderFits s spid trustlet tlSize malloc ndebug cmd) := by
  unfold processTrustlet
  rw [inside_bind, inside_refuseIf, Bool.not_eq_false]
  refine forall_congr' fun _ => ?_
  rw [inside_bind, inside_iff, inside_memGetServiceBlob]
  simp only [memGetServiceBlob_eq_ok, inside_bind, inside_refuseIf, Bool.not_eq_false]
  constructor
  · rintro ⟨hregistry, hobject⟩ hsize
    obtain ⟨hintro, hrest⟩ := hregistry hsize
    have hsends : magic trustlet = mcServiceHeaderMagicBe → Loads s spid trustlet tlSize malloc →
        cmd.Sends → sizeofMclfHeader ≤ tlSize ∧ (cmd.Opens → 100 ≤ tlSize) := by
      intro hmagic hloads hsends
      obtain ⟨obj, hobj⟩ := returned_iff.mpr ⟨hsize, hmagic, hloads⟩
      have hlen := tlSize_le_of_returned hobj
      exact (inside_handOver hsends.1).mp (hobject obj hobj (by omega) hsends.1) hsends
    exact ⟨hintro, fun hmagic => (hrest hmagic).1, fun hmagic => (hrest hmagic).2,
      fun hmagic hloads hcmd => (hsends hmagic hloads hcmd).1,
      fun hmagic hloads hcmd => (hsends hmagic hloads hcmd).2⟩
  · intro h
    refine ⟨fun hsize => ?_, fun obj hobj _ hshared => ?_⟩
    · obtain ⟨hintro, hservice, huuid, -, -⟩ := h hsize
      exact ⟨hintro, fun hmagic => ⟨hservice hmagic, huuid hmagic⟩⟩
    · obtain ⟨hsize, hmagic, hloads⟩ := returned_iff.mp ⟨obj, hobj⟩
      rw [inside_handOver hshared]
      intro hsends
      exact ⟨(h hsize).message hmagic hloads hsends, (h hsize).level hmagic hloads hsends⟩

/-- **The header is read in bounds** exactly when the trustlet is as long as the part of it whose
turn comes. -/
theorem readsInside_iff (s : Fs) (spid : Spid) (trustlet : Memory) (tlSize : Nat)
    (device malloc ndebug : Bool) (cmd : LoadCommand) :
    ReadsInside s spid trustlet tlSize device malloc ndebug cmd ↔
      (device = true → tlSize ≤ maxTlSize →
        HeaderFits s spid trustlet tlSize malloc ndebug cmd) := by
  rw [← inside_processTrustlet]
  constructor
  · intro h
    exact ⟨h, fun _ _ => trivial⟩
  · intro h
    exact h.1

/-- An open without a TCI that the secure world accepts. -/
def acceptedOpen : LoadCommand :=
  .openTrustlet ⟨none, 0, 0, 0, {}⟩ (some ⟨mcMcpCmdOpenSession ||| flagResponse, 0, 0, 0⟩)

/-- A driver. -/
def driverHeader : Memory := fun i => if i = 16 then 1 else spHeader i

/-- A driver of 96 bytes is loaded; its GP level is behind its end. -/
theorem not_readsInside_driverHeader :
    serviceType driverHeader = serviceTypeDriver ∧
      ¬ ReadsInside freshRegistry 1 driverHeader 96 true true true acceptedOpen := by
  refine ⟨by decide, fun h => ?_⟩
  have hlooked : ⟨96, 4⟩ ∈ (processTrustlet freshRegistry 1 driverHeader 96 true true true
      acceptedOpen).looked := by decide
  have hbelow := h _ hlooked 96 (by decide) (by decide)
  exact absurd hbelow (by decide)

end McDaemon.Daemon.HeaderReads
