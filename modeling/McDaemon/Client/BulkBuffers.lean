/-
# McDaemon.Client.BulkBuffers — mapping and unmapping one buffer.

A session object has a descriptor for every buffer that is mapped to the session, the TCI included.
A buffer that is unmapped has to go from three places: the daemon, the kernel module and the list of
descriptors.  The handle for the first is looked up by secure address and length, the descriptor for
the other two by the caller's address, and nothing makes sure that both are the same.  The
descriptor is taken off the list before the kernel module is asked, whatever the kernel module says.
-/
import McDaemon.Client.CloseSession
import McDaemon.Lib.KeyedList
import Mathlib.Data.Multiset.AddSub

namespace McDaemon.Client.Bulk

open McDaemon.Lib
open McDaemon.Lib.Attempt

def mcDrvErrBulkMapping : McResult := 0x00000013
def mcDrvErrBulkUnmapping : McResult := 0x00000014

abbrev mcDrvErrBufferAlreadyMapped : McResult := mcDrvErrBulkMapping
abbrev mcDrvErrBlkBuffNotFound : McResult := mcDrvErrBulkUnmapping

/-! ## The client, the kernel module and the daemon -/

/-- A buffer that the daemon has mapped into a session. -/
structure DaemonMapping where
  sessionId : UInt32
  handle : UInt32
  sVirtualAddr : UInt32
  len : UInt32
deriving DecidableEq, Repr

/-- `mcBulkMap_t`. -/
structure BulkMap where
  sVirtualAddr : UInt32
  sVirtualLen : UInt32
deriving DecidableEq, Repr

/-- What a call finds and leaves: the caller's device (`none` is `NULL`), the handles registered with
the kernel module and the mappings of the daemon; and what has been unmapped and unregistered so
far, in order. -/
structure World where
  device : Option Device
  registered : List UInt32
  mappings : List DaemonMapping
  unmapped : List DaemonMapping
  unregistered : List UInt32
deriving DecidableEq, Repr

/-- A call that maps or unmaps. -/
abbrev Call := Attempt World McResult

/-- What comes of a command: it is not sent; or no answer is read, and the daemon has done what it
is told or not; or the daemon answers, and has done it if it says so. -/
inductive Exchange
  | notSent
  | noAnswer (done : Bool)
  | answer (mcResult : McResult)
deriving DecidableEq, Repr

/-- The session object that is found under an id is changed in place. -/
def modifySession (device : Device) (sessionId : UInt32) (f : Session → Session) : Device :=
  { device with
    sessionList := KeyedList.modify Session.sessionId sessionId f device.sessionList }

/-- The session that goes by an id, if there is one. -/
def World.session (w : World) (sessionId : UInt32) : Option Session :=
  w.device.bind (·.resolveSessionId sessionId)

/-- The descriptors of a session, none where there is no such session. -/
def World.descriptors (w : World) (sessionId : UInt32) : List BulkBufferDescriptor :=
  (w.session sessionId).elim [] Session.bulkBufferDescriptors

/-- The world after a change of the descriptors of a session. -/
def World.setDescriptors (w : World) (sessionId : UInt32)
    (f : List BulkBufferDescriptor → List BulkBufferDescriptor) : World :=
  { w with
    device := w.device.map (modifySession · sessionId fun session =>
      { session with bulkBufferDescriptors := f session.bulkBufferDescriptors }) }

/-- `Device::setInvalid`. -/
def World.setInvalid (w : World) : World :=
  { w with device := w.device.map ({ · with isValid := false }) }

/-- The kernel module registers a buffer. -/
def World.register (w : World) (handle : UInt32) : World :=
  { w with registered := w.registered ++ [handle] }

/-- The daemon maps a buffer. -/
def World.map (w : World) (m : DaemonMapping) : World := { w with mappings := w.mappings ++ [m] }

/-- The daemon unmaps a buffer. -/
def World.unmap (w : World) (m : DaemonMapping) : World :=
  { w with mappings := w.mappings.erase m, unmapped := w.unmapped ++ [m] }

/-- The kernel module lets go of a handle. -/
def World.unregister (w : World) (handle : UInt32) : World :=
  { w with registered := w.registered.erase handle, unregistered := w.unregistered ++ [handle] }

/-- `CHECK_DEVICE`, `CHECK_NOT_NULL` and `CHECK_SESSION`, each with its own code. -/
def check {α : Type} (x : Option α) (mcResult : McResult) : Call α :=
  match x with
  | none => throw mcResult
  | some a => pure a

/-- `SEND_TO_DAEMON` of a command and `RECV_FROM_DAEMON` of the result; `act` is what the command
makes the daemon do. -/
def askDaemon (exchange : Exchange) (act : World → World) : Call McResult :=
  match exchange with
  | .notSent => throw mcDrvErrSocketWrite
  | .noAnswer done => do
    if done then modify act
    -- a cut answer is `MC_DRV_ERR_SOCKET_LENGTH`, which is the same number
    throw mcDrvErrSocketRead
  | .answer mcResult => do
    if mcResult = mcDrvOk then modify act
    pure mcResult

/-! ## `Session` -/

/-- The descriptor that is found by the caller's address. -/
def findBulkBuf (bulkBufs : List BulkBufferDescriptor) (virtAddr : Addr) :
    Option BulkBufferDescriptor :=
  bulkBufs.find? (·.virtAddr = virtAddr)

/-- `Session::addBulkBuf` of a buffer that is not registered yet. -/
def addBulkBuf (registerWsmL2 : McResult) (handle sessionId : UInt32) (buf : Addr) (len : UInt32) :
    Call BulkBufferDescriptor := do
  if (findBulkBuf ((← get).descriptors sessionId) buf).isSome then
    throw mcDrvErrBufferAlreadyMapped
  if registerWsmL2 ≠ mcDrvOk then throw registerWsmL2
  let blkBuf : BulkBufferDescriptor := ⟨buf, 0, len, handle⟩
  modify fun w => (w.register handle).setDescriptors sessionId (· ++ [blkBuf])
  pure blkBuf

/-- `Session::getBufHandle`.  0 is no handle. -/
def getBufHandle (bulkBufs : List BulkBufferDescriptor) (sVirtAddr sVirtualLen : UInt32) : UInt32 :=
  match bulkBufs.find? (fun d => d.sVirtualAddr = sVirtAddr ∧ d.len = sVirtualLen) with
  | none => 0
  | some d => d.handle

/-- `Session::removeBulkBuf`. -/
def removeBulkBuf (unregisterWsmL2 : McResult) (sessionId : UInt32) (virtAddr : Addr) :
    Call Unit := do
  match findBulkBuf ((← get).descriptors sessionId) virtAddr with
  | none => throw mcDrvErrBlkBuffNotFound
  | some d => do
    -- off the list, before anything can go wrong
    modify (·.setDescriptors sessionId (List.eraseP (·.virtAddr = virtAddr)))
    if unregisterWsmL2 ≠ mcDrvOk then throw unregisterWsmL2
    modify (·.unregister d.handle)

/-! ## The two calls -/

/-- What the kernel module and the daemon do during one map.  `payload` is what the client takes for
the secure address, `none` where the reading of it fails. -/
structure MapAnswers where
  registerWsmL2 : McResult
  handle : UInt32
  exchange : Exchange
  sVirtualAddr : UInt32
  payload : Option UInt32
  unregisterWsmL2 : McResult
deriving DecidableEq, Repr

/-- What the daemon and the kernel module do during one unmap. -/
structure UnmapAnswers where
  exchange : Exchange
  unregisterWsmL2 : McResult
deriving DecidableEq, Repr

/-- What `mcMap_` does once the buffer is registered: the exchange with the daemon. -/
def mapRegistered (a : MapAnswers) (sessionId : UInt32) (bulkBuf : BulkBufferDescriptor) :
    Call BulkMap := do
  let mcResult ← askDaemon a.exchange
    (·.map ⟨sessionId, bulkBuf.handle, a.sVirtualAddr, bulkBuf.len⟩)
  if mcResult ≠ mcDrvOk then
    -- whether the buffer can be removed again makes no difference to the result
    tryCatch (removeBulkBuf a.unregisterWsmL2 sessionId bulkBuf.virtAddr) fun _ => pure ()
    throw mcDrvErrDaemonUnreachable
  let sVirtualAddr ← check a.payload mcDrvErrSocketRead
  -- the descriptor is still the last one
  modify (·.setDescriptors sessionId
    (·.dropLast ++ [{ bulkBuf with sVirtualAddr := sVirtualAddr }]))
  pure ⟨sVirtualAddr, bulkBuf.len⟩

/-- `mcMap_`, with what it leaves in `*mapInfo`. -/
def mcMap_ (a : MapAnswers) (sessionId : UInt32) (buf : Addr) (bufLen : UInt32) : Call BulkMap := do
  let device ← check (← get).device mcDrvErrDaemonDeviceNotOpen
  if buf = 0 then throw mcDrvErrNullPointer
  let _ ← check (device.resolveSessionId sessionId) mcDrvErrUnknownSession
  let bulkBuf ← addBulkBuf a.registerWsmL2 a.handle sessionId buf bufLen
  mapRegistered a sessionId bulkBuf

/-- The loop body of `mcUnmap_`. -/
def unmapBulk (a : UnmapAnswers) (sessionId : UInt32) (buf : Addr) (mapInfo : Option BulkMap) :
    Call Unit := do
  let device ← check (← get).device mcDrvErrDaemonDeviceNotOpen
  let mapInfo ← check mapInfo mcDrvErrNullPointer
  if buf = 0 then throw mcDrvErrNullPointer
  if mapInfo.sVirtualAddr = 0 then throw mcDrvErrNullPointer
  let session ← check (device.resolveSessionId sessionId) mcDrvErrUnknownSession
  let handle :=
    getBufHandle session.bulkBufferDescriptors mapInfo.sVirtualAddr mapInfo.sVirtualLen
  if handle = 0 then throw mcDrvErrBlkBuffNotFound
  let mcResult ← askDaemon a.exchange
    (·.unmap ⟨sessionId, handle, mapInfo.sVirtualAddr, mapInfo.sVirtualLen⟩)
  if mcResult ≠ mcDrvOk then throw mcDrvErrDaemonUnreachable
  removeBulkBuf a.unregisterWsmL2 sessionId buf

/-- `mcUnmap_`.  A daemon that refuses is taken for a dead connection. -/
def mcUnmap_ (a : UnmapAnswers) (sessionId : UInt32) (buf : Addr) (mapInfo : Option BulkMap) :
    Call Unit :=
  tryCatch (unmapBulk a sessionId buf mapInfo) fun mcResult => do
    if mcResult = mcDrvErrSocketWrite ∨ mcResult = mcDrvErrSocketRead then modify (·.setInvalid)
    throw mcResult

/-! ## What a change of the descriptors changes -/

section Frames

variable {w : World} {sessionId : UInt32} {session : Session}
  {f : List BulkBufferDescriptor → List BulkBufferDescriptor}

@[simp] theorem session_setInvalid : w.setInvalid.session sessionId = w.session sessionId := by
  unfold World.session World.setInvalid
  cases w.device with
  | none => rfl
  | some device => rfl

@[simp] theorem descriptors_setInvalid :
    w.setInvalid.descriptors sessionId = w.descriptors sessionId := by
  simp [World.descriptors]

@[simp] theorem session_map (m : DaemonMapping) :
    (w.map m).session sessionId = w.session sessionId := rfl

@[simp] theorem descriptors_map (m : DaemonMapping) :
    (w.map m).descriptors sessionId = w.descriptors sessionId := rfl

@[simp] theorem descriptors_unmap (m : DaemonMapping) :
    (w.unmap m).descriptors sessionId = w.descriptors sessionId := rfl

@[simp] theorem session_register (handle : UInt32) :
    (w.register handle).session sessionId = w.session sessionId := rfl

@[simp] theorem descriptors_register (handle : UInt32) :
    (w.register handle).descriptors sessionId = w.descriptors sessionId := rfl

@[simp] theorem descriptors_unregister (handle : UInt32) :
    (w.unregister handle).descriptors sessionId = w.descriptors sessionId := rfl

@[simp] theorem session_setDescriptors : (w.setDescriptors sessionId f).session sessionId =
    (w.session sessionId).map fun session =>
      { session with bulkBufferDescriptors := f session.bulkBufferDescriptors } := by
  unfold World.session World.setDescriptors
  cases w.device with
  | none => rfl
  | some device =>
    show KeyedList.get Session.sessionId sessionId (KeyedList.modify _ _ _ _) = _
    rw [KeyedList.get_modify fun _ => by rfl, if_pos rfl]
    rfl

theorem descriptors_of_session (h : w.session sessionId = some session) :
    w.descriptors sessionId = session.bulkBufferDescriptors := by
  simp [World.descriptors, h]

theorem descriptors_setDescriptors (h : (w.session sessionId).isSome) :
    (w.setDescriptors sessionId f).descriptors sessionId = f (w.descriptors sessionId) := by
  obtain ⟨session, hsession⟩ := Option.isSome_iff_exists.mp h
  simp [World.descriptors, hsession]

/-- A session that has a descriptor exists. -/
theorem isSome_of_mem {d : BulkBufferDescriptor} (h : d ∈ w.descriptors sessionId) :
    (w.session sessionId).isSome := by
  unfold World.descriptors at h
  cases hsession : w.session sessionId with
  | none => simp [hsession] at h
  | some session => rfl

end Frames

/-! ## How the parts end -/

section Steps

variable {P : Unit → World → Prop} {Q : McResult → World → Prop} {w : World} {sessionId : UInt32}
  {buf : Addr}

theorem ends_check {α : Type} {P : α → World → Prop} {x : Option α} {mcResult : McResult} :
    Ends P Q (check x mcResult) w ↔
      match x with
      | none => Q mcResult w
      | some a => P a w := by
  cases x with
  | none => exact ends_throw
  | some a => exact ends_pure

theorem ends_askDaemon {P : McResult → World → Prop} {exchange : Exchange}
    {act : World → World} : Ends P Q (askDaemon exchange act) w ↔
      match exchange with
      | .notSent => Q mcDrvErrDaemonUnreachable w
      | .noAnswer done => Q mcDrvErrDaemonUnreachable (if done then act w else w)
      | .answer mcResult => P mcResult (if mcResult = mcDrvOk then act w else w) := by
  cases exchange with
  | notSent => exact ends_throw
  | noAnswer done =>
    unfold askDaemon
    cases done with
    | false => simp
    | true => simp
  | answer mcResult =>
    unfold askDaemon
    by_cases h : mcResult = mcDrvOk
    · simp only [h, if_true, ends_bind, ends_modify, ends_pure]
    · simp only [h, if_false, ends_pure]

theorem ends_removeBulkBuf {unregisterWsmL2 : McResult} :
    Ends P Q (removeBulkBuf unregisterWsmL2 sessionId buf) w ↔
      match findBulkBuf (w.descriptors sessionId) buf with
      | none => Q mcDrvErrBlkBuffNotFound w
      | some d =>
        let removed := w.setDescriptors sessionId (List.eraseP (·.virtAddr = buf))
        if unregisterWsmL2 = mcDrvOk then P () (removed.unregister d.handle)
        else Q unregisterWsmL2 removed := by
  unfold removeBulkBuf
  rw [ends_bind, ends_get]
  cases findBulkBuf (w.descriptors sessionId) buf with
  | none => exact ends_throw
  | some d =>
    by_cases h : unregisterWsmL2 = mcDrvOk
    · simp [h]
    · simp [h]

/-- The handler of `mcUnmap_` does nothing but to invalidate the device. -/
theorem ends_mcUnmap {a : UnmapAnswers} {mapInfo : Option BulkMap} :
    Ends P Q (mcUnmap_ a sessionId buf mapInfo) w ↔
      Ends P (fun mcResult w' =>
        Q mcResult (if mcResult = mcDrvErrDaemonUnreachable then w'.setInvalid else w'))
        (unmapBulk a sessionId buf mapInfo) w := by
  unfold mcUnmap_
  rw [ends_tryCatch]
  refine iff_of_eq (congrArg (Ends P · _ w) ?_)
  funext mcResult w'
  by_cases h : mcResult = mcDrvErrDaemonUnreachable
  · simp [h]
  · simp [h]

end Steps

/-! ## Unmapping -/

/-- The call gets as far as the list of descriptors: some descriptor has the secure address and the
length, and the daemon unmaps that one. -/
structure ReachesList (a : UnmapAnswers) (sessionId : UInt32) (buf : Addr) (m : BulkMap)
    (w : World) : Prop where
  buf : buf ≠ 0
  sVirtualAddr : m.sVirtualAddr ≠ 0
  handle : getBufHandle (w.descriptors sessionId) m.sVirtualAddr m.sVirtualLen ≠ 0
  exchange : a.exchange = .answer mcDrvOk

/-- The descriptor at the caller's address is the one the daemon is asked to unmap, and where the
kernel module does not let go of its handle, the handle is not registered. -/
def KeysAgree (a : UnmapAnswers) (sessionId : UInt32) (buf : Addr) (m : BulkMap) (w : World) :
    Prop :=
  ∀ d, findBulkBuf (w.descriptors sessionId) buf = some d →
    if a.unregisterWsmL2 = mcDrvOk then
      d.sVirtualAddr = m.sVirtualAddr ∧ d.len = m.sVirtualLen ∧
        d.handle = getBufHandle (w.descriptors sessionId) m.sVirtualAddr m.sVirtualLen
    else d.handle ∉ w.registered

/-- One descriptor has been unmapped in the daemon, unregistered and removed: one with the secure
address and the length of `m`. -/
def RemovedOne (sessionId : UInt32) (m : BulkMap) (w w' : World) : Prop :=
  ∃ front d back,
    w.descriptors sessionId = front ++ d :: back ∧
    d.sVirtualAddr = m.sVirtualAddr ∧ d.len = m.sVirtualLen ∧
    w'.descriptors sessionId = front ++ back ∧
    w'.unmapped = w.unmapped ++ [⟨sessionId, d.handle, m.sVirtualAddr, m.sVirtualLen⟩] ∧
    w'.unregistered = w.unregistered ++ [d.handle]

/-- Every descriptor whose memory is registered is still in the list. -/
def RegisteredKept (sessionId : UInt32) (w w' : World) : Prop :=
  (w'.descriptors sessionId).filter (·.handle ∈ w'.registered) =
    (w.descriptors sessionId).filter (·.handle ∈ w'.registered)

/-- What is unmapped is what is removed: for a call that succeeds, one descriptor; for one that
fails, none whose memory is still registered. -/
def RemovesExactly (a : UnmapAnswers) (sessionId : UInt32) (buf : Addr) (mapInfo : Option BulkMap)
    (w : World) : Prop :=
  Ends (fun _ w' => ∃ m, mapInfo = some m ∧ RemovedOne sessionId m w w')
    (fun mcResult w' => mcResult ≠ mcDrvOk ∧ RegisteredKept sessionId w w')
    (mcUnmap_ a sessionId buf mapInfo) w

section Unmap

variable {a : UnmapAnswers} {sessionId : UInt32} {buf : Addr} {m : BulkMap} {w : World}
  {bulkBufs : List BulkBufferDescriptor} {d : BulkBufferDescriptor}

theorem getBufHandle_nil (sVirtAddr sVirtualLen : UInt32) :
    getBufHandle [] sVirtAddr sVirtualLen = 0 := rfl

/-- The descriptor at an address splits the list, and the removal takes it out. -/
theorem findBulkBuf_split (h : findBulkBuf bulkBufs buf = some d) :
    ∃ front back, bulkBufs = front ++ d :: back ∧
      bulkBufs.eraseP (·.virtAddr = buf) = front ++ back := by
  obtain ⟨hd, front, back, hsplit, hfront⟩ := List.find?_eq_some_iff_append.mp h
  refine ⟨front, back, hsplit, ?_⟩
  have hnot : ∀ b ∈ front, ¬ decide (b.virtAddr = buf) = true := by
    intro b hb
    simpa using hfront b hb
  rw [hsplit, List.eraseP_append_right _ hnot]
  simp [of_decide_eq_true hd]

/-- A list that one element has been taken out of tells which one. -/
theorem eq_of_split {α : Type} {front back front' back' : List α} {b c : α}
    (h : front ++ b :: back = front' ++ c :: back') (hrest : front ++ back = front' ++ back') :
    b = c := by
  have hb : (b :: (front ++ back)).Perm (c :: (front ++ back)) :=
    calc (b :: (front ++ back)).Perm (front ++ b :: back) := List.perm_middle.symm
      _ = front' ++ c :: back' := h
      List.Perm _ (c :: (front' ++ back')) := List.perm_middle
      _ = c :: (front ++ back) := by rw [hrest]
  have hset : b ::ₘ (↑(front ++ back) : Multiset α) = c ::ₘ ↑(front ++ back) :=
    Multiset.coe_eq_coe.mpr hb
  exact (Multiset.cons_inj_left _).mp hset

/-- Where the call gets as far as the list, what is left to do is the removal. -/
theorem ends_unmapBulk_of_reaches (h : ReachesList a sessionId buf m w) {P : Unit → World → Prop}
    {Q : McResult → World → Prop} :
    Ends P Q (unmapBulk a sessionId buf (some m)) w ↔
      Ends P Q (removeBulkBuf a.unregisterWsmL2 sessionId buf) (w.unmap ⟨sessionId,
        getBufHandle (w.descriptors sessionId) m.sVirtualAddr m.sVirtualLen,
        m.sVirtualAddr, m.sVirtualLen⟩) := by
  have hhandle := h.handle
  unfold unmapBulk
  cases hdevice : w.device with
  | none =>
    refine absurd ?_ hhandle
    simp [World.descriptors, World.session, hdevice, getBufHandle_nil]
  | some device =>
    cases hsession : device.resolveSessionId sessionId with
    | none =>
      refine absurd ?_ hhandle
      simp [World.descriptors, World.session, hdevice, hsession, getBufHandle_nil]
    | some session =>
      have hdescriptors : w.descriptors sessionId = session.bulkBufferDescriptors :=
        descriptors_of_session (by simp [World.session, hdevice, hsession])
      rw [hdescriptors] at hhandle ⊢
      simp [ends_check, ends_askDaemon, hdevice, hsession, h.buf, h.sVirtualAddr, hhandle,
        h.exchange]

/-- Where it does not, it fails, and no descriptor has been touched. -/
theorem ends_unmapBulk_of_not {mapInfo : Option BulkMap}
    (h : ∀ m, mapInfo = some m → ¬ ReachesList a sessionId buf m w) {P : Unit → World → Prop} :
    Ends P (fun mcResult w' => mcResult ≠ mcDrvOk ∧ w'.device = w.device)
      (unmapBulk a sessionId buf mapInfo) w := by
  have hnotFound : mcDrvErrBlkBuffNotFound ≠ mcDrvOk := by decide
  have hunknown : mcDrvErrUnknownSession ≠ mcDrvOk := by decide
  unfold unmapBulk
  rw [ends_bind, ends_get, ends_bind, ends_check]
  cases hdevice : w.device with
  | none => exact ⟨deviceNotOpen_ne_ok, rfl⟩
  | some device =>
    dsimp only
    rw [ends_bind, ends_check]
    cases mapInfo with
    | none => exact ⟨invalidParameter_ne_ok, hdevice⟩
    | some m =>
      dsimp only
      by_cases hbuf : buf = 0
      · simp [hbuf, hdevice]
      by_cases hsva : m.sVirtualAddr = 0
      · simp [hbuf, hsva, hdevice]
      rw [if_neg hbuf, if_neg hsva, ends_bind, ends_check]
      cases hsession : device.resolveSessionId sessionId with
      | none => exact ⟨hunknown, hdevice⟩
      | some session =>
        have hdescriptors : w.descriptors sessionId = session.bulkBufferDescriptors :=
          descriptors_of_session (by simp [World.session, hdevice, hsession])
        dsimp only
        by_cases hhandle : getBufHandle session.bulkBufferDescriptors m.sVirtualAddr
            m.sVirtualLen = 0
        · simp [hhandle, hdevice, hnotFound]
        rw [if_neg hhandle, ends_bind, ends_askDaemon]
        -- only the daemon is left to stop the call
        cases hexchange : a.exchange with
        | notSent => exact ⟨daemonUnreachable_ne_ok, hdevice⟩
        | noAnswer done =>
          refine ⟨daemonUnreachable_ne_ok, ?_⟩
          cases done with
          | false => exact hdevice
          | true => exact hdevice
        | answer mcResult =>
          have hrefused : mcResult ≠ mcDrvOk := by
            rintro rfl
            exact h m rfl ⟨hbuf, hsva, hdescriptors ▸ hhandle, hexchange⟩
          simp [hrefused, hdevice]

theorem registeredKept_of_device {w' : World} (h : w'.device = w.device) :
    RegisteredKept sessionId w w' := by
  have hdescriptors : w'.descriptors sessionId = w.descriptors sessionId := by
    simp only [World.descriptors, World.session, h]
  simp only [RegisteredKept, hdescriptors]

/-- What the removal makes of a call that has got as far as the list. -/
theorem removal_iff {w₁ : World}
    (hw₁ : w₁ = w.unmap ⟨sessionId,
      getBufHandle (w.descriptors sessionId) m.sVirtualAddr m.sVirtualLen,
      m.sVirtualAddr, m.sVirtualLen⟩) :
    Ends (fun _ w' => RemovedOne sessionId m w w')
        (fun mcResult w' => mcResult ≠ mcDrvOk ∧ RegisteredKept sessionId w w')
        (removeBulkBuf a.unregisterWsmL2 sessionId buf) w₁ ↔
      KeysAgree a sessionId buf m w := by
  have hnotFound : mcDrvErrBlkBuffNotFound ≠ mcDrvOk := by decide
  have hdescriptors : w₁.descriptors sessionId = w.descriptors sessionId := by
    rw [hw₁, descriptors_unmap]
  rw [ends_removeBulkBuf, hdescriptors]
  unfold KeysAgree
  cases hfind : findBulkBuf (w.descriptors sessionId) buf with
  | none =>
    -- the daemon has unmapped a buffer whose descriptor stays
    simp [hnotFound, RegisteredKept, hdescriptors]
  | some d =>
    obtain ⟨front, back, hsplit, herase⟩ := findBulkBuf_split hfind
    have hsome : (w₁.session sessionId).isSome := by
      apply isSome_of_mem (d := d)
      rw [hdescriptors, hsplit]
      simp
    have hremoved : (w₁.setDescriptors sessionId
        (List.eraseP (·.virtAddr = buf))).descriptors sessionId = front ++ back := by
      rw [descriptors_setDescriptors hsome, hdescriptors, herase]
    simp only [Option.some.injEq, forall_eq']
    by_cases hok : a.unregisterWsmL2 = mcDrvOk
    · rw [if_pos hok, if_pos hok]
      constructor
      · rintro ⟨front', d', back', hsplit', hsva, hlen, hrest, hunmapped, -⟩
        rw [descriptors_unregister, hremoved] at hrest
        obtain rfl : d = d' := eq_of_split (hsplit.symm.trans hsplit') hrest
        have hlog : w.unmapped ++ [_] = w.unmapped ++ [_] := (hw₁ ▸ hunmapped :)
        simp at hlog
        exact ⟨hsva, hlen, hlog.symm⟩
      · rintro ⟨hsva, hlen, hhandle⟩
        refine ⟨front, d, back, hsplit, hsva, hlen, hremoved, ?_, ?_⟩
        · rw [hw₁, hhandle]
          rfl
        · rw [hw₁]
          rfl
    · rw [if_neg hok, if_neg hok]
      have hregistered : (w₁.setDescriptors sessionId
          (List.eraseP (·.virtAddr = buf))).registered = w.registered := by
        rw [hw₁]
        rfl
      rw [and_iff_right hok, RegisteredKept, hremoved, hregistered, hsplit]
      by_cases hmem : d.handle ∈ w.registered
      · simp [hmem]
      · simp [hmem]

/-- What becomes of the descriptors does not depend on whether the device is made invalid. -/
theorem registeredKept_setInvalid {c : Prop} [Decidable c] {w' : World} :
    RegisteredKept sessionId w (if c then w'.setInvalid else w') ↔ RegisteredKept sessionId w w' := by
  by_cases h : c
  · rw [if_pos h]
    simp only [RegisteredKept, descriptors_setInvalid]
    rfl
  · rw [if_neg h]

/-- Where the call gets as far as the list, all depends on the two keys. -/
theorem removesExactly_of_reaches (h : ReachesList a sessionId buf m w) :
    RemovesExactly a sessionId buf (some m) w ↔ KeysAgree a sessionId buf m w := by
  unfold RemovesExactly
  simp only [ends_mcUnmap, registeredKept_setInvalid, Option.some.injEq, exists_eq_left']
  rw [ends_unmapBulk_of_reaches h, removal_iff rfl]

/-- **When an unmap removes what it has unmapped.** -/
theorem removesExactly_iff (a : UnmapAnswers) (sessionId : UInt32) (buf : Addr)
    (mapInfo : Option BulkMap) (w : World) :
    RemovesExactly a sessionId buf mapInfo w ↔
      ∀ m, mapInfo = some m → ReachesList a sessionId buf m w →
        KeysAgree a sessionId buf m w := by
  by_cases hreach : ∃ m, mapInfo = some m ∧ ReachesList a sessionId buf m w
  · obtain ⟨m, rfl, hreach⟩ := hreach
    simp only [Option.some.injEq, forall_eq', removesExactly_of_reaches hreach]
    exact (imp_iff_right hreach).symm
  · have hnot : ∀ m, mapInfo = some m → ¬ ReachesList a sessionId buf m w :=
      fun m hm h => hreach ⟨m, hm, h⟩
    refine iff_of_true ?_ fun m hm h => absurd h (hnot m hm)
    unfold RemovesExactly
    simp only [ends_mcUnmap, registeredKept_setInvalid]
    exact (ends_unmapBulk_of_not hnot).mono (fun _ _ h => h)
      fun mcResult w' h => ⟨h.1, registeredKept_of_device h.2⟩

end Unmap

/-- A session with two buffers of one page each. -/
def twoBuffers : World where
  device := some ⟨[⟨1, [⟨0x10000, 0x200000, 0x1000, 3⟩, ⟨0x20000, 0x300000, 0x1000, 4⟩]⟩], [], true⟩
  registered := [3, 4]
  mappings := [⟨1, 3, 0x200000, 0x1000⟩, ⟨1, 4, 0x300000, 0x1000⟩]
  unmapped := []
  unregistered := []

/-- The address of the one buffer with the secure address of the other: the second is unmapped, and
the first is removed.  And where the kernel module does not let go of a buffer, the descriptor is
gone all the same. -/
theorem not_removesExactly :
    ¬ RemovesExactly ⟨.answer mcDrvOk, mcDrvOk⟩ 1 0x10000 (some ⟨0x300000, 0x1000⟩) twoBuffers ∧
    ¬ RemovesExactly ⟨.answer mcDrvOk, mcDrvErrDaemonKmodError⟩ 1 0x10000
      (some ⟨0x200000, 0x1000⟩) twoBuffers := by
  have hfind : findBulkBuf (twoBuffers.descriptors 1) 0x10000 =
      some ⟨0x10000, 0x200000, 0x1000, 3⟩ := by decide
  have hother : getBufHandle (twoBuffers.descriptors 1) 0x300000 0x1000 ≠ 0 := by decide
  have hsame : getBufHandle (twoBuffers.descriptors 1) 0x200000 0x1000 ≠ 0 := by decide
  constructor
  · rw [removesExactly_of_reaches ⟨by decide, by decide, hother, rfl⟩]
    intro h
    exact absurd (h _ hfind).1 (by decide)
  · rw [removesExactly_of_reaches ⟨by decide, by decide, hsame, rfl⟩]
    intro h
    exact absurd (h _ hfind) (by decide)

end McDaemon.Client.Bulk
