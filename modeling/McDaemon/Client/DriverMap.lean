/-
# McDaemon.Client.DriverMap — mapping a set of buffers.

The driver client maps the buffers of a set one after the other.  After a failure it marks the
buffers that it has skipped, and unmaps what is left in the set.  That includes the buffer that has
failed, with the secure address that happens to be in the set, and what comes of unmapping it ends
up in `errno`.  A buffer whose exchange with the daemon breaks stays among the descriptors.
-/
import McDaemon.Client.BulkBuffers

namespace McDaemon.Client.Bulk

open McDaemon.Lib
open McDaemon.Lib.Attempt

/-! ## `errno` -/

/-- The values of `errno` that stand for results of the driver. -/
inductive Errno
  | ENOMSG | EBADMSG | ENOLINK | ENOSPC | EHOSTDOWN | ENODEV | ENXIO | EPERM | EBADE | ETIME
  | ENOMEM | EUCLEAN | ENOTEMPTY | EHOSTUNREACH | ENOENT | EINVAL | EPROTO | EADDRINUSE
  | EADDRNOTAVAIL | ECOMM | EUNATCH | EKEYREJECTED | EBADF | EINTR | ECONNREFUSED | ECONNABORTED
  | ECONNRESET | EBADSLT
deriving DecidableEq, Repr

open Errno in
/-- `mcresult_to_errno`, without its first entry, which is 0. -/
def mcresultToErrno : List Errno :=
  [ENOMSG, EBADMSG, ENOLINK, ENOSPC, EHOSTDOWN, ENOLINK, ENODEV, ENXIO, EPERM, EBADE, ETIME, ENOMEM,
    EUCLEAN, ENOTEMPTY, EHOSTUNREACH, ENOENT, EINVAL, EPROTO, EADDRINUSE, EADDRNOTAVAIL, ECOMM,
    EUNATCH, ENOLINK, ENOLINK, EKEYREJECTED, ENOLINK, ENOLINK, ENOLINK, ENOLINK, ENOLINK, ENOLINK,
    ENOLINK, EBADF, ENOLINK, EINTR, ECONNREFUSED, ECONNABORTED, ECONNRESET, ENOLINK]

/-- `set_errno_from_mcresult` on a 64-bit system: what `errno` is set to, and nothing where the
result is 0. -/
def setErrnoFromMcresult (result : McResult) : Option Errno :=
  if result > 39 then
    if result = 0xe0012 then some .EINVAL else some .EBADSLT
  else if result = mcDrvOk then none
  else mcresultToErrno[result.toNat - 1]?

/-- Every result but success is an error of the driver client. -/
theorem setErrno_isSome {result : McResult} (h : result ≠ mcDrvOk) :
    (setErrnoFromMcresult result).isSome := by
  unfold setErrnoFromMcresult
  by_cases hbig : result > 39
  · rw [if_pos hbig]
    by_cases hspecial : result = 0xe0012
    · rw [if_pos hspecial]
      rfl
    · rw [if_neg hspecial]
      rfl
  · rw [if_neg hbig, if_neg h]
    have hpos : result.toNat ≠ 0 := fun h0 => h (UInt32.toNat_inj.mp h0)
    have hle : result.toNat ≤ 39 := UInt32.le_iff_toNat_le.mp (UInt32.not_lt.mp hbig)
    have hlength : mcresultToErrno.length = 39 := by decide
    rw [List.getElem?_eq_getElem (by omega)]
    rfl

/-! ## The set of buffers -/

/-- `mc_ioctl_buffer`.  A buffer with no address is not used. -/
structure IoctlBuffer where
  va : UInt64
  len : UInt32
  sva : UInt64
deriving DecidableEq, Repr

/-- A buffer of the set, and what comes of mapping it and of unmapping it. -/
structure Entry where
  buf : IoctlBuffer
  map : MapAnswers
  unmap : UnmapAnswers
deriving DecidableEq, Repr

/-- What a call of the driver client finds and changes: the world, `errno`, and the calls of the
client library with their results, in order. -/
structure Run where
  world : World
  errno : Errno
  maps : List (IoctlBuffer × McResult)
  unmaps : List (IoctlBuffer × McResult)
deriving DecidableEq, Repr

/-- `set_errno_from_mcresult`, which leaves `errno` alone on success. -/
def Run.setErrno (run : Run) (mcResult : McResult) : Run :=
  { run with errno := (setErrnoFromMcresult mcResult).getD run.errno }

/-- The locals of `DriverClient::map`, and the buffers of the set that have been gone through. -/
structure MapLocals where
  run : Run
  ret : Bool
  mapped : Bool
  bufs : List Entry
deriving DecidableEq, Repr

/-- One turn of the loop of `DriverClient::map`; `ret` tells whether a buffer has failed. -/
def mapStep (sid : UInt32) (s : MapLocals) (e : Entry) : MapLocals :=
  if e.buf.va = 0 then { s with bufs := s.bufs ++ [e] }
  else if s.ret then
    -- a buffer that is skipped must not be unmapped
    { s with bufs := s.bufs ++ [{ e with buf := { e.buf with va := 0 } }] }
  else
    match start (mcMap_ e.map sid e.buf.va e.buf.len) s.run.world with
    | (.error mcResult, world) =>
      { run := { s.run.setErrno mcResult with
          world := world, maps := s.run.maps ++ [(e.buf, mcResult)] }
        ret := true
        mapped := s.mapped
        bufs := s.bufs ++ [e] }
    | (.ok mapHandle, world) =>
      { run := { s.run with world := world, maps := s.run.maps ++ [(e.buf, mcDrvOk)] }
        ret := false
        mapped := true
        bufs := s.bufs ++
          [{ e with buf := { e.buf with sva := mapHandle.sVirtualAddr.toUInt64 } }] }

/-- One turn of the loop of `DriverClient::unmap`, with `ret` and `unmapped`. -/
def unmapStep (sid : UInt32) (s : Run × Bool × Bool) (e : Entry) : Run × Bool × Bool :=
  if e.buf.va = 0 then s
  else
    match start (mcUnmap_ e.unmap sid e.buf.va (some ⟨e.buf.sva.toUInt32, e.buf.len⟩)) s.1.world with
    | (.error mcResult, world) =>
      ({ s.1.setErrno mcResult with
        world := world, unmaps := s.1.unmaps ++ [(e.buf, mcResult)] }, true, s.2.2)
    | (.ok (), world) =>
      ({ s.1 with world := world, unmaps := s.1.unmaps ++ [(e.buf, mcDrvOk)] }, s.2.1, true)

/-- `DriverClient::unmap`. -/
def driverUnmap (sid : UInt32) (entries : List Entry) (run : Run) : Run × Bool :=
  let (run, ret, unmapped) := entries.foldl (unmapStep sid) (run, false, false)
  if ret = false ∧ unmapped = false then ({ run with errno := .EINVAL }, true) else (run, ret)

/-- The loop of `DriverClient::map`. -/
def mapLoop (sid : UInt32) (entries : List Entry) (run : Run) : MapLocals :=
  entries.foldl (mapStep sid) ⟨run, false, false, []⟩

/-- `DriverClient::map`, and whether it fails. -/
def driverMap (sid : UInt32) (entries : List Entry) (run : Run) : Run × Bool :=
  let s := mapLoop sid entries run
  if s.ret = false then
    if s.mapped = false then ({ s.run with errno := .EINVAL }, true) else (s.run, false)
  else if s.mapped = false then (s.run, true)
  else ((driverUnmap sid s.bufs s.run).1, true)

/-- Before the call: nothing mapped or unmapped yet. -/
def Run.before (w : World) (errno : Errno) : Run := ⟨w, errno, [], []⟩

/-- A map that fails (`out.2`) unmaps the buffers that it has mapped and no other; if that succeeds,
the session and the daemon have what they had before; and `errno` is that of the buffer that
failed. -/
structure AllOrNothing (sid : UInt32) (w : World) (out : Run × Bool) : Prop where
  unmaps : out.2 = true → out.1.unmaps.map (fun u => (u.1.va, u.1.len)) =
    (out.1.maps.filter (·.2 = mcDrvOk)).map (fun m => (m.1.va, m.1.len))
  restored : out.2 = true → (∀ u ∈ out.1.unmaps, u.2 = mcDrvOk) →
    out.1.world.descriptors sid = w.descriptors sid ∧ out.1.world.mappings = w.mappings
  errno : out.2 = true → ∀ m ∈ out.1.maps, m.2 ≠ mcDrvOk →
    setErrnoFromMcresult m.2 = some out.1.errno

/-! ## How a buffer is mapped -/

/-- The buffer can be mapped, as far as the session and the kernel module are concerned. -/
structure Registers (sid : UInt32) (w : World) (e : Entry) : Prop where
  session : (w.session sid).isSome
  fresh : findBulkBuf (w.descriptors sid) e.buf.va = none
  registerWsmL2 : e.map.registerWsmL2 = mcDrvOk

/-- The buffer is mapped. -/
structure Maps (sid : UInt32) (w : World) (e : Entry) : Prop extends Registers sid w e where
  exchange : e.map.exchange = .answer mcDrvOk
  payload : e.map.payload.isSome

/-- The buffer is not mapped because somebody says no. -/
def Refuses (sid : UInt32) (w : World) (e : Entry) : Prop :=
  Registers sid w e → ∃ mcResult, mcResult ≠ mcDrvOk ∧ e.map.exchange = .answer mcResult

/-- What becomes of a map whose exchange with the daemon breaks is left open. -/
def Breaks (sid : UInt32) (w : World) (e : Entry) : Prop := ¬ Maps sid w e ∧ ¬ Refuses sid w e

section Map

variable {sid : UInt32} {w : World} {e : Entry} {P : BulkMap → World → Prop}
  {Q : McResult → World → Prop}

/-- The descriptor of a buffer that is registered. -/
def Entry.bulkBuf (e : Entry) : BulkBufferDescriptor := ⟨e.buf.va, 0, e.buf.len, e.map.handle⟩

/-- The world once it is registered. -/
def registered (sid : UInt32) (w : World) (e : Entry) : World :=
  (w.register e.map.handle).setDescriptors sid (· ++ [e.bulkBuf])

theorem descriptors_registered (h : Registers sid w e) :
    (registered sid w e).descriptors sid = w.descriptors sid ++ [e.bulkBuf] :=
  descriptors_setDescriptors h.session

theorem session_registered (h : Registers sid w e) : ((registered sid w e).session sid).isSome := by
  simpa [registered] using h.session

/-- A buffer that gets past the kernel module. -/
theorem ends_mcMap_of_registers (h : Registers sid w e) (hva : e.buf.va ≠ 0) :
    Ends P Q (mcMap_ e.map sid e.buf.va e.buf.len) w ↔
      Ends P Q (mapRegistered e.map sid e.bulkBuf) (registered sid w e) := by
  obtain ⟨session, hsession⟩ := Option.isSome_iff_exists.mp h.session
  obtain ⟨device, hdevice, hresolve⟩ := Option.bind_eq_some_iff.mp hsession
  simp [mcMap_, addBulkBuf, ends_check, hdevice, hresolve, hva, h.fresh, h.registerWsmL2,
    registered, Entry.bulkBuf]

/-- A buffer that does not: nothing has changed. -/
theorem ends_mcMap_of_not (h : ¬ Registers sid w e) :
    Ends P (fun mcResult w' => mcResult ≠ mcDrvOk ∧ w' = w)
      (mcMap_ e.map sid e.buf.va e.buf.len) w := by
  have hmapped : mcDrvErrBufferAlreadyMapped ≠ mcDrvOk := by decide
  have hunknown : mcDrvErrUnknownSession ≠ mcDrvOk := by decide
  unfold mcMap_
  rw [ends_bind, ends_get, ends_bind, ends_check]
  cases hdevice : w.device with
  | none => exact ⟨deviceNotOpen_ne_ok, rfl⟩
  | some device =>
    dsimp only
    by_cases hva : e.buf.va = 0
    · simp [hva]
    rw [if_neg hva, ends_bind, ends_check]
    cases hresolve : device.resolveSessionId sid with
    | none => exact ⟨hunknown, rfl⟩
    | some session =>
      have hsession : (w.session sid).isSome := by simp [World.session, hdevice, hresolve]
      by_cases hfind : (findBulkBuf (w.descriptors sid) e.buf.va).isSome
      · simp [addBulkBuf, hfind, hmapped]
      · have hregister : e.map.registerWsmL2 ≠ mcDrvOk := by
          intro hok
          exact h ⟨hsession, Option.not_isSome_iff_eq_none.mp hfind, hok⟩
        simp [addBulkBuf, hfind, hregister]

/-- A buffer that is mapped has a descriptor behind those that were there. -/
theorem ends_mcMap_of_maps (h : Maps sid w e) (hva : e.buf.va ≠ 0) :
    Ends (fun _ w' => (w'.session sid).isSome ∧ ∃ sVirtualAddr,
        w'.descriptors sid = w.descriptors sid ++ [{ e.bulkBuf with sVirtualAddr := sVirtualAddr }])
      Q (mcMap_ e.map sid e.buf.va e.buf.len) w := by
  obtain ⟨sVirtualAddr, hpayload⟩ := Option.isSome_iff_exists.mp h.payload
  have hsession := session_registered h.toRegisters
  have hdescriptors := descriptors_registered h.toRegisters
  rw [ends_mcMap_of_registers h.toRegisters hva]
  unfold mapRegistered
  simp only [ends_bind, ends_askDaemon, h.exchange, if_true, ends_ite, ends_check, hpayload,
    ends_modify, ends_pure]
  refine ⟨fun hne => absurd rfl hne, fun _ => ⟨?_, sVirtualAddr, ?_⟩⟩
  · simpa using hsession
  · rw [descriptors_setDescriptors (by simpa using hsession), descriptors_map, hdescriptors,
      List.dropLast_concat]

/-- A buffer that is refused leaves the session and the daemon as they were. -/
theorem ends_mcMap_of_refuses (h : Refuses sid w e) (hva : e.buf.va ≠ 0) :
    Ends P (fun mcResult w' => mcResult ≠ mcDrvOk ∧ w'.descriptors sid = w.descriptors sid ∧
        w'.mappings = w.mappings) (mcMap_ e.map sid e.buf.va e.buf.len) w := by
  by_cases hregisters : Registers sid w e
  · obtain ⟨mcResult, hne, hexchange⟩ := h hregisters
    have hdescriptors := descriptors_registered hregisters
    have hnot : ∀ d ∈ w.descriptors sid, ¬ decide (d.virtAddr = e.buf.va) = true :=
      List.find?_eq_none.mp hregisters.fresh
    have herase : (w.descriptors sid ++ [e.bulkBuf]).eraseP (·.virtAddr = e.buf.va) =
        w.descriptors sid := by
      rw [List.eraseP_append_right _ hnot]
      simp [Entry.bulkBuf]
    have hfind : findBulkBuf ((registered sid w e).descriptors sid) e.buf.va = some e.bulkBuf := by
      rw [hdescriptors]
      have hfresh : (w.descriptors sid).find? (·.virtAddr = e.buf.va) = none := hregisters.fresh
      simp [findBulkBuf, List.find?_append, hfresh, Entry.bulkBuf]
    have hremoved : ((registered sid w e).setDescriptors sid
        (List.eraseP (·.virtAddr = e.buf.va))).descriptors sid = w.descriptors sid := by
      rw [descriptors_setDescriptors (session_registered hregisters), hdescriptors, herase]
    rw [ends_mcMap_of_registers hregisters hva]
    unfold mapRegistered
    simp only [ends_bind, ends_askDaemon, hexchange, if_neg hne, ends_ite, ends_tryCatch,
      ends_removeBulkBuf, ends_pure, ends_throw]
    refine ⟨fun _ => ?_, fun heq => absurd hne heq⟩
    have haddr : e.bulkBuf.virtAddr = e.buf.va := rfl
    rw [haddr, hfind]
    dsimp only
    by_cases hunregister : e.map.unregisterWsmL2 = mcDrvOk
    · rw [if_pos hunregister]
      exact ⟨daemonUnreachable_ne_ok, hremoved, rfl⟩
    · rw [if_neg hunregister]
      exact ⟨daemonUnreachable_ne_ok, hremoved, rfl⟩
  · exact (ends_mcMap_of_not hregisters).mono (fun _ _ h => h)
      fun mcResult w' h => ⟨h.1, by rw [h.2], by rw [h.2]⟩

/-- A buffer whose exchange breaks is still among the descriptors. -/
theorem ends_mcMap_of_breaks (h : Breaks sid w e) (hva : e.buf.va ≠ 0) :
    Ends P (fun mcResult w' => mcResult ≠ mcDrvOk ∧
        w'.descriptors sid = w.descriptors sid ++ [e.bulkBuf])
      (mcMap_ e.map sid e.buf.va e.buf.len) w := by
  obtain ⟨hnot, hrefuses⟩ := h
  have hregisters : Registers sid w e := by
    by_contra hno
    exact hrefuses fun h => absurd h hno
  have hdescriptors := descriptors_registered hregisters
  rw [ends_mcMap_of_registers hregisters hva]
  unfold mapRegistered
  rw [ends_bind, ends_askDaemon]
  cases hexchange : e.map.exchange with
  | notSent => exact ⟨daemonUnreachable_ne_ok, hdescriptors⟩
  | noAnswer done =>
    refine ⟨daemonUnreachable_ne_ok, ?_⟩
    cases done with
    | false => exact hdescriptors
    | true => exact hdescriptors
  | answer mcResult =>
    by_cases hok : mcResult = mcDrvOk
    · -- the payload is what has been lost
      subst hok
      cases hpayload : e.map.payload with
      | none =>
        simp only [ends_bind, ends_ite, ends_check, if_true]
        exact ⟨fun hne => absurd rfl hne, fun _ => ⟨daemonUnreachable_ne_ok, hdescriptors⟩⟩
      | some sVirtualAddr => exact absurd ⟨hregisters, hexchange, by simp [hpayload]⟩ hnot
    · exact absurd (fun _ => ⟨mcResult, hok, hexchange⟩) hrefuses

/-- A buffer that is not mapped makes the call fail. -/
theorem ends_mcMap_of_not_maps (h : ¬ Maps sid w e) (hva : e.buf.va ≠ 0) :
    Ends P (fun mcResult _ => mcResult ≠ mcDrvOk) (mcMap_ e.map sid e.buf.va e.buf.len) w := by
  by_cases hrefuses : Refuses sid w e
  · exact (ends_mcMap_of_refuses hrefuses hva).mono (fun _ _ h => h) fun _ _ h => h.1
  · exact (ends_mcMap_of_breaks ⟨h, hrefuses⟩ hva).mono (fun _ _ h => h) fun _ _ h => h.1

end Map

/-! ## The loop -/

/-- The buffer is used. -/
def Entry.used (e : Entry) : Bool := e.buf.va ≠ 0

/-- Every buffer that is used can be mapped, and none has the address of one before it. -/
def AllMap (sid : UInt32) (w : World) (entries : List Entry) : Prop :=
  ∀ pre e post, entries = pre ++ e :: post → e.buf.va ≠ 0 →
    Maps sid w e ∧ ∀ p ∈ pre, p.buf.va ≠ e.buf.va

/-- The first buffer that is used is refused. -/
def FirstRefused (sid : UInt32) (w : World) (entries : List Entry) : Prop :=
  ∃ pre e post, entries = pre ++ e :: post ∧ e.buf.va ≠ 0 ∧ (∀ p ∈ pre, p.buf.va = 0) ∧
    Refuses sid w e

/-- What the loop has done with buffers that could all be mapped. -/
structure Mapped (sid : UInt32) (w : World) (pre : List Entry) (s : MapLocals) : Prop where
  ret : s.ret = false
  mapped : s.mapped = pre.any Entry.used
  session : (s.run.world.session sid).isSome = (w.session sid).isSome
  addresses : (s.run.world.descriptors sid).map (·.virtAddr) =
    (w.descriptors sid).map (·.virtAddr) ++ (pre.filter Entry.used).map (·.buf.va)
  maps : s.run.maps = (pre.filter Entry.used).map fun e => (e.buf, mcDrvOk)
  unmaps : s.run.unmaps = []
  used : s.bufs.countP Entry.used = pre.countP Entry.used
  unused : pre.any Entry.used = false → s.run.world = w

section Loop

variable {sid : UInt32} {w : World} {errno : Errno} {pre post entries : List Entry} {e : Entry}
  {s : MapLocals}

theorem allMap_nil : AllMap sid w [] := by
  intro pre e post hsplit
  simp at hsplit

theorem allMap_concat : AllMap sid w (entries ++ [e]) ↔ AllMap sid w entries ∧
    (e.buf.va ≠ 0 → Maps sid w e ∧ ∀ p ∈ entries, p.buf.va ≠ e.buf.va) := by
  constructor
  · intro h
    refine ⟨fun pre e' post hsplit hva => ?_, h entries e [] rfl⟩
    exact h pre e' (post ++ [e]) (by simp [hsplit]) hva
  · rintro ⟨hall, hlast⟩ pre e' post hsplit hva
    rcases List.eq_nil_or_concat post with rfl | ⟨post', e'', rfl⟩
    · obtain ⟨hpre, heq⟩ := List.append_inj' hsplit rfl
      simp only [List.cons.injEq, and_true] at heq
      subst hpre heq
      exact hlast hva
    · have hsplit' : entries ++ [e] = (pre ++ e' :: post') ++ [e''] := by simpa using hsplit
      exact hall pre e' post' (List.append_inj' hsplit' rfl).1 hva

/-- A set of which not every buffer can be mapped has a first one that cannot. -/
theorem exists_first (h : ¬ AllMap sid w entries) :
    ∃ pre e post, entries = pre ++ e :: post ∧ e.buf.va ≠ 0 ∧ AllMap sid w pre ∧
      ¬ (Maps sid w e ∧ ∀ p ∈ pre, p.buf.va ≠ e.buf.va) := by
  induction entries using List.reverseRecOn with
  | nil => exact absurd allMap_nil h
  | append_singleton entries e ih =>
    by_cases hall : AllMap sid w entries
    · rw [allMap_concat, and_iff_right hall, Classical.not_imp] at h
      exact ⟨entries, e, [], rfl, h.1, hall, h.2⟩
    · obtain ⟨pre, e', post, hsplit, rest⟩ := ih hall
      exact ⟨pre, e', post ++ [e], by simp [hsplit], rest⟩

theorem findBulkBuf_eq_none_iff {bulkBufs : List BulkBufferDescriptor} {buf : Addr} :
    findBulkBuf bulkBufs buf = none ↔ buf ∉ bulkBufs.map (·.virtAddr) := by
  simp [findBulkBuf, List.find?_eq_none]

/-- Behind buffers that have been mapped, a buffer is mapped if it could be before and its address
is not among theirs. -/
theorem Mapped.maps_iff (h : Mapped sid w pre s) (hva : e.buf.va ≠ 0) :
    Maps sid s.run.world e ↔ Maps sid w e ∧ ∀ p ∈ pre, p.buf.va ≠ e.buf.va := by
  have hfresh : findBulkBuf (s.run.world.descriptors sid) e.buf.va = none ↔
      findBulkBuf (w.descriptors sid) e.buf.va = none ∧ ∀ p ∈ pre, p.buf.va ≠ e.buf.va := by
    rw [findBulkBuf_eq_none_iff, findBulkBuf_eq_none_iff, h.addresses, List.mem_append, not_or]
    refine and_congr_right fun _ => ?_
    constructor
    · intro hnot p hp heq
      refine hnot (List.mem_map.mpr ⟨p, List.mem_filter.mpr ⟨hp, ?_⟩, heq⟩)
      simpa [Entry.used, heq] using hva
    · intro hnot hmem
      obtain ⟨p, hp, heq⟩ := List.mem_map.mp hmem
      exact hnot p (List.mem_of_mem_filter hp) heq
  constructor
  · rintro ⟨⟨hsession, hfind, hregister⟩, hexchange, hpayload⟩
    exact ⟨⟨⟨h.session ▸ hsession, (hfresh.mp hfind).1, hregister⟩, hexchange, hpayload⟩,
      (hfresh.mp hfind).2⟩
  · rintro ⟨⟨⟨hsession, hfind, hregister⟩, hexchange, hpayload⟩, hnot⟩
    exact ⟨⟨h.session.symm ▸ hsession, hfresh.mpr ⟨hfind, hnot⟩, hregister⟩, hexchange, hpayload⟩

theorem mapLoop_append (run : Run) :
    mapLoop sid (entries ++ post) run = post.foldl (mapStep sid) (mapLoop sid entries run) :=
  List.foldl_append

/-- **A run without failures.** -/
theorem mapped_of_allMap (h : AllMap sid w pre) :
    Mapped sid w pre (mapLoop sid pre (.before w errno)) := by
  induction pre using List.reverseRecOn with
  | nil => exact ⟨rfl, rfl, rfl, by simp [mapLoop, Run.before], rfl, rfl, rfl, fun _ => rfl⟩
  | append_singleton pre e ih =>
    rw [allMap_concat] at h
    have hmapped := ih h.1
    rw [mapLoop_append]
    generalize mapLoop sid pre (.before w errno) = s at hmapped
    show Mapped sid w (pre ++ [e]) (mapStep sid s e)
    unfold mapStep
    by_cases hva : e.buf.va = 0
    · have hused : e.used = false := by simp [Entry.used, hva]
      rw [if_pos hva]
      exact
        { ret := hmapped.ret
          mapped := by simp [hused, hmapped.mapped]
          session := hmapped.session
          addresses := by simp [hused, hmapped.addresses]
          maps := by simp [hused, hmapped.maps]
          unmaps := hmapped.unmaps
          used := by simp [hused, hmapped.used]
          unused := fun hany => hmapped.unused (by simpa [hused] using hany) }
    · have hused : e.used = true := by simp [Entry.used, hva]
      have hmaps : Maps sid s.run.world e := (hmapped.maps_iff hva).mpr (h.2 hva)
      have hends : Ends _ (fun _ _ => False) _ _ := ends_mcMap_of_maps hmaps hva
      unfold Ends at hends
      rw [if_neg hva, if_neg (by simp [hmapped.ret])]
      rcases hstart : start (mcMap_ e.map sid e.buf.va e.buf.len) s.run.world with
        ⟨mcResult | mapHandle, world⟩
      · rw [hstart] at hends
        exact absurd hends not_false
      · rw [hstart] at hends
        obtain ⟨hsession, sVirtualAddr, hdescriptors⟩ := hends
        exact
          { ret := rfl
            mapped := by simp [hused]
            session := by
              rw [← hmapped.session, hmaps.session]
              exact hsession
            addresses := by simp [hdescriptors, hused, hmapped.addresses, Entry.bulkBuf]
            maps := by simp [hused, hmapped.maps]
            unmaps := hmapped.unmaps
            used := by simp [hmapped.used, Entry.used, hva]
            unused := fun hany => by simp [hused] at hany }

theorem mapStep_of_ret (h : s.ret = true) (e : Entry) :
    ∃ marked, mapStep sid s e = { s with bufs := s.bufs ++ [marked] } ∧ marked.used = false := by
  by_cases hva : e.buf.va = 0
  · exact ⟨e, if_pos hva, by simp [Entry.used, hva]⟩
  · refine ⟨{ e with buf := { e.buf with va := 0 } }, ?_, by simp [Entry.used]⟩
    unfold mapStep
    rw [if_neg hva, if_pos h]

/-- The buffers behind one that has failed are only marked. -/
theorem foldl_mapStep_of_ret (h : s.ret = true) (entries : List Entry) :
    ∃ skipped, entries.foldl (mapStep sid) s = { s with bufs := s.bufs ++ skipped } ∧
      skipped.countP Entry.used = 0 := by
  induction entries generalizing s with
  | nil => exact ⟨[], by simp, rfl⟩
  | cons e entries ih =>
    obtain ⟨marked, hstep, hmarked⟩ := (mapStep_of_ret h e : ∃ marked, mapStep sid s e = _ ∧ _)
    obtain ⟨skipped, hfold, hcount⟩ := @ih { s with bufs := s.bufs ++ [marked] } h
    refine ⟨marked :: skipped, ?_, ?_⟩
    · rw [List.foldl_cons, hstep, hfold]
      simp
    · rw [List.countP_cons_of_neg (by simp [hmarked]), hcount]

/-- What the unwinding unmaps is what is left in the set. -/
theorem foldl_unmapStep (entries : List Entry) (t : Run × Bool × Bool) :
    (entries.foldl (unmapStep sid) t).1.maps = t.1.maps ∧
      (entries.foldl (unmapStep sid) t).1.unmaps.length =
        t.1.unmaps.length + entries.countP Entry.used := by
  induction entries generalizing t with
  | nil => exact ⟨rfl, rfl⟩
  | cons e entries ih =>
    rw [List.foldl_cons, (ih _).1, (ih _).2]
    unfold unmapStep
    by_cases hva : e.buf.va = 0
    · rw [if_pos hva, List.countP_cons_of_neg (by simp [Entry.used, hva])]
      exact ⟨rfl, rfl⟩
    · rw [if_neg hva, List.countP_cons_of_pos (by simp [Entry.used, hva])]
      rcases start (mcUnmap_ e.unmap sid e.buf.va (some ⟨e.buf.sva.toUInt32, e.buf.len⟩))
        t.1.world with ⟨mcResult | _, world⟩
      · refine ⟨rfl, ?_⟩
        simp
        omega
      · refine ⟨rfl, ?_⟩
        simp
        omega

theorem driverUnmap_counts (entries : List Entry) (run : Run) :
    (driverUnmap sid entries run).1.maps = run.maps ∧
      (driverUnmap sid entries run).1.unmaps.length =
        run.unmaps.length + entries.countP Entry.used := by
  have h : (entries.foldl (unmapStep sid) (run, false, false)).1.maps = run.maps ∧ _ :=
    foldl_unmapStep entries (run, false, false)
  revert h
  unfold driverUnmap
  rcases entries.foldl (unmapStep sid) (run, false, false) with ⟨run', ret, unmapped⟩
  intro h
  by_cases hnone : ret = false ∧ unmapped = false
  · simpa [hnone] using h
  · simpa [hnone] using h

/-- **A run up to the first failure, and past it.** -/
theorem mapLoop_failed (hpre : Mapped sid w pre (mapLoop sid pre (.before w errno)))
    (hva : e.buf.va ≠ 0)
    (hnot : ¬ Maps sid (mapLoop sid pre (.before w errno)).run.world e) (post : List Entry) :
    ∃ mcResult world skipped, mcResult ≠ mcDrvOk ∧ skipped.countP Entry.used = 0 ∧
      start (mcMap_ e.map sid e.buf.va e.buf.len)
        (mapLoop sid pre (.before w errno)).run.world = (.error mcResult, world) ∧
      mapLoop sid (pre ++ e :: post) (.before w errno) =
        { run := { (mapLoop sid pre (.before w errno)).run.setErrno mcResult with
            world := world
            maps := (mapLoop sid pre (.before w errno)).run.maps ++ [(e.buf, mcResult)] }
          ret := true
          mapped := (mapLoop sid pre (.before w errno)).mapped
          bufs := (mapLoop sid pre (.before w errno)).bufs ++ [e] ++ skipped } := by
  rw [mapLoop_append, List.foldl_cons]
  generalize mapLoop sid pre (.before w errno) = s at hpre hnot
  have hends : Ends (fun _ _ => False) _ _ _ := ends_mcMap_of_not_maps hnot hva
  unfold Ends at hends
  rcases hstart : start (mcMap_ e.map sid e.buf.va e.buf.len) s.run.world with
    ⟨mcResult | mapHandle, world⟩
  · rw [hstart] at hends
    have hstep : mapStep sid s e =
        { run := { s.run.setErrno mcResult with
            world := world, maps := s.run.maps ++ [(e.buf, mcResult)] }
          ret := true
          mapped := s.mapped
          bufs := s.bufs ++ [e] } := by
      unfold mapStep
      rw [if_neg hva, if_neg (by simp [hpre.ret]), hstart]
    rw [hstep]
    generalize hfailed : (⟨_, true, s.mapped, s.bufs ++ [e]⟩ : MapLocals) = failed
    have hret : failed.ret = true := by rw [← hfailed]
    obtain ⟨skipped, hfold, hcount⟩ :=
      (foldl_mapStep_of_ret hret post : ∃ skipped, post.foldl (mapStep sid) failed = _ ∧ _)
    refine ⟨mcResult, world, skipped, hends, hcount, rfl, ?_⟩
    rw [hfold, ← hfailed]
  · rw [hstart] at hends
    exact absurd hends not_false

end Loop

/-! ## All or nothing -/

section AllOrNothing

variable {sid : UInt32} {w : World} {errno : Errno} {pre post entries : List Entry} {e : Entry}

/-- Where all can be mapped, the call can only fail for want of buffers. -/
theorem allOrNothing_of_allMap (h : AllMap sid w entries) :
    AllOrNothing sid w (driverMap sid entries (.before w errno)) := by
  have hmapped : Mapped sid w entries (mapLoop sid entries (.before w errno)) := mapped_of_allMap h
  unfold driverMap
  generalize mapLoop sid entries (.before w errno) = s at hmapped
  by_cases hany : entries.any Entry.used = true
  · have hs : s.mapped = true := hmapped.mapped.trans hany
    simp only [hmapped.ret, hs, if_true, Bool.true_eq_false, if_false]
    exact ⟨fun hfails => absurd hfails Bool.false_ne_true,
      fun hfails => absurd hfails Bool.false_ne_true, fun hfails => absurd hfails Bool.false_ne_true⟩
  · have hnone : entries.any Entry.used = false := Bool.eq_false_iff.mpr hany
    have hfilter : entries.filter Entry.used = [] := by simpa [List.filter_eq_nil_iff] using hnone
    have hs : s.mapped = false := hmapped.mapped.trans hnone
    have hmaps : s.run.maps = [] := by simp [hmapped.maps, hfilter]
    have hworld : s.run.world = w := hmapped.unused hnone
    simp only [hmapped.ret, hs, if_true]
    exact
      { unmaps := fun _ => by simp [hmaps, hmapped.unmaps]
        restored := fun _ _ => by simp [hworld]
        errno := fun _ => by simp [hmaps] }

/-- The call fails at the first buffer that is used: nothing is unmapped, and all depends on what
the failing map has left. -/
theorem driverMap_first (hpre : ∀ p ∈ pre, p.buf.va = 0) (hva : e.buf.va ≠ 0)
    (hnot : ¬ Maps sid w e) :
    ∃ mcResult world, mcResult ≠ mcDrvOk ∧
      start (mcMap_ e.map sid e.buf.va e.buf.len) w = (.error mcResult, world) ∧
      driverMap sid (pre ++ e :: post) (.before w errno) =
        (⟨world, (setErrnoFromMcresult mcResult).getD
          (mapLoop sid pre (.before w errno)).run.errno, [(e.buf, mcResult)], []⟩, true) := by
  have hall : AllMap sid w pre := by
    intro front p back hsplit hp
    exact absurd (hpre p (by simp [hsplit])) hp
  have hnone : pre.any Entry.used = false := by
    simpa [List.any_eq_false, Entry.used] using hpre
  have hfilter : pre.filter Entry.used = [] := by simpa [List.filter_eq_nil_iff] using hnone
  have hmapped : Mapped sid w pre (mapLoop sid pre (.before w errno)) := mapped_of_allMap hall
  have hworld := hmapped.unused hnone
  obtain ⟨mcResult, world, skipped, hne, -, hstart, hloop⟩ :=
    mapLoop_failed hmapped hva (hworld.symm ▸ hnot) post
  refine ⟨mcResult, world, hne, hworld ▸ hstart, ?_⟩
  unfold driverMap
  simp [hloop, hmapped.mapped, hnone, hmapped.maps, hmapped.unmaps, hfilter, Run.setErrno]

/-- A set whose first buffer is refused is left alone. -/
theorem allOrNothing_of_firstRefused (h : FirstRefused sid w entries) :
    AllOrNothing sid w (driverMap sid entries (.before w errno)) := by
  obtain ⟨pre, e, post, rfl, hva, hpre, hrefuses⟩ := h
  have hnot : ¬ Maps sid w e := by
    intro hmaps
    obtain ⟨mcResult, hne, hexchange⟩ := hrefuses hmaps.toRegisters
    exact hne (Exchange.answer.inj (hexchange.symm.trans hmaps.exchange))
  obtain ⟨mcResult, world, hne, hstart, hmap⟩ := driverMap_first hpre hva hnot
  have hends : Ends (fun _ _ => False) _ _ _ := ends_mcMap_of_refuses hrefuses hva
  unfold Ends at hends
  rw [hstart] at hends
  obtain ⟨errno', herrno⟩ := Option.isSome_iff_exists.mp (setErrno_isSome hne)
  rw [hmap]
  exact
    { unmaps := fun _ => by simp [hne]
      restored := fun _ _ => hends.2
      errno := fun _ => by simp [herrno] }

/-- A set whose first buffer breaks the exchange leaves a descriptor behind. -/
theorem not_allOrNothing_of_breaks (hpre : ∀ p ∈ pre, p.buf.va = 0) (hva : e.buf.va ≠ 0)
    (h : Breaks sid w e) :
    ¬ AllOrNothing sid w (driverMap sid (pre ++ e :: post) (.before w errno)) := by
  obtain ⟨mcResult, world, -, hstart, hmap⟩ := driverMap_first hpre hva h.1
  have hends : Ends (fun _ _ => False) _ _ _ := ends_mcMap_of_breaks h hva
  unfold Ends at hends
  rw [hstart] at hends
  rw [hmap]
  intro hnothing
  have hrestored := (hnothing.restored rfl (by simp)).1
  rw [show world.descriptors sid = _ from hends.2] at hrestored
  simp at hrestored

/-- A set that fails behind a buffer that has been mapped unmaps one buffer too many. -/
theorem not_allOrNothing_of_mapped (hall : AllMap sid w pre) (hany : pre.any Entry.used = true)
    (hva : e.buf.va ≠ 0) (hnot : ¬ (Maps sid w e ∧ ∀ p ∈ pre, p.buf.va ≠ e.buf.va)) :
    ¬ AllOrNothing sid w (driverMap sid (pre ++ e :: post) (.before w errno)) := by
  have hmapped : Mapped sid w pre (mapLoop sid pre (.before w errno)) := mapped_of_allMap hall
  have hnot' : ¬ Maps sid (mapLoop sid pre (.before w errno)).run.world e :=
    fun h => hnot ((hmapped.maps_iff hva).mp h)
  obtain ⟨mcResult, world, skipped, hne, hcount, -, hloop⟩ := mapLoop_failed hmapped hva hnot' post
  have hs : (mapLoop sid pre (.before w errno)).mapped = true := hmapped.mapped.trans hany
  have hused : ((mapLoop sid pre (.before w errno)).bufs ++ [e] ++ skipped).countP Entry.used =
      pre.countP Entry.used + 1 := by
    rw [List.countP_append, List.countP_append, hmapped.used, hcount]
    simp [Entry.used, hva]
  have hmaps : (((mapLoop sid pre (.before w errno)).run.maps ++ [(e.buf, mcResult)]).filter
      (·.2 = mcDrvOk)).length = pre.countP Entry.used := by
    rw [hmapped.maps]
    simp [hne, List.countP_eq_length_filter, List.filter_map, Function.comp_def]
  intro hnothing
  have hunmaps := hnothing.unmaps
  unfold driverMap at hunmaps
  simp only [hloop, hs, Bool.true_eq_false, if_false, forall_true_left] at hunmaps
  have hlength := congrArg List.length hunmaps
  rw [List.length_map, List.length_map, (driverUnmap_counts _ _).1, (driverUnmap_counts _ _).2,
    hused, hmaps] at hlength
  simp [Run.setErrno, hmapped.unmaps] at hlength

/-- **When mapping a set of buffers is all or nothing.** -/
theorem allOrNothing_iff (sid : UInt32) (entries : List Entry) (w : World) (errno : Errno) :
    AllOrNothing sid w (driverMap sid entries (.before w errno)) ↔
      AllMap sid w entries ∨ FirstRefused sid w entries := by
  constructor
  · intro h
    by_cases hall : AllMap sid w entries
    · exact .inl hall
    · obtain ⟨pre, e, post, rfl, hva, hpre, hnot⟩ := exists_first hall
      by_cases hany : pre.any Entry.used = true
      · exact absurd h (not_allOrNothing_of_mapped hpre hany hva hnot)
      · have hunused : ∀ p ∈ pre, p.buf.va = 0 := by
          simpa [List.any_eq_true, Entry.used] using hany
        have hnot' : ¬ Maps sid w e := by
          intro hmaps
          exact hnot ⟨hmaps, fun p hp heq => hva (heq.symm.trans (hunused p hp))⟩
        by_cases hrefuses : Refuses sid w e
        · exact .inr ⟨pre, e, post, rfl, hva, hunused, hrefuses⟩
        · exact absurd h (not_allOrNothing_of_breaks hunused hva ⟨hnot', hrefuses⟩)
  · rintro (h | h)
    · exact allOrNothing_of_allMap h
    · exact allOrNothing_of_firstRefused h

end AllOrNothing

/-- A new buffer, and one that is mapped already, in the set that it was mapped with. -/
def remap : List Entry :=
  [⟨⟨0x30000, 0x1000, 0⟩, ⟨mcDrvOk, 5, .answer mcDrvOk, 0x400000, some 0x400000, mcDrvOk⟩,
      ⟨.answer mcDrvOk, mcDrvOk⟩⟩,
    ⟨⟨0x10000, 0x1000, 0x200000⟩, ⟨mcDrvOk, 6, .answer mcDrvOk, 0x500000, some 0x500000, mcDrvOk⟩,
      ⟨.answer mcDrvOk, mcDrvOk⟩⟩]

/-- The second buffer cannot be mapped again, and the mapping that it had is unmapped with the
first. -/
theorem not_allOrNothing : ¬ AllOrNothing 1 twoBuffers
    (driverMap 1 remap (.before twoBuffers .EINVAL)) := by
  have hfails : (driverMap 1 remap (.before twoBuffers .EINVAL)).2 = true := by decide
  have hunmaps : ∀ u ∈ (driverMap 1 remap (.before twoBuffers .EINVAL)).1.unmaps,
      u.2 = mcDrvOk := by decide
  have hleft : (driverMap 1 remap (.before twoBuffers .EINVAL)).1.world.mappings =
      [⟨1, 4, 0x300000, 0x1000⟩] := by decide
  intro h
  have hrestored := (h.restored hfails hunmaps).2
  rw [hleft] at hrestored
  exact absurd hrestored (by decide)

end McDaemon.Client.Bulk
