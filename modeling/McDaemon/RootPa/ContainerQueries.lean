/-
# McDaemon.RootPa.ContainerQueries — what RootPA asks the registry about its containers.

A query reads a container into a buffer that has just been allocated, and then looks at the fields
of a fixed structure.  A file that is shorter than the structure is read with success all the same.
The registry tells how many bytes there were, and no query looks at that: a field behind them holds
what the memory held before.
-/
import McDaemon.RootPa.StoreTa

namespace McDaemon.RootPa.ContainerQueries

open McDaemon.Lib
open McDaemon.Registry
open McDaemon.RootPa.Provisioning (RootpaError rootpaOk rootpaErrorIllegalArgument)

def rootpaErrorInternalNoContainer : RootpaError := 0x00000030

/-- `MC_CONT_STATE_UNREGISTERED`. -/
def mcContStateUnregistered : Nat := 0

/-! ## The calls of the registry -/

/-- A container is read into what `malloc` gives. -/
def readInto (room : Option Memory) (read : Except McResult (List UInt8)) :
    Except McResult Memory :=
  match room with
  | none => .error mcDrvErrNoFreeMemory
  | some buf => read.map (overlay buf)

/-- `regReadRoot`. -/
def regReadRoot (room : Option Memory) (s : Fs) : Except McResult Memory :=
  readInto room (mcRegistryReadRoot s containerBufferSize)

/-- `regReadSp`. -/
def regReadSp (room : Option Memory) (s : Fs) (spid : Spid) : Except McResult Memory :=
  readInto room (mcRegistryReadSp s spid containerBufferSize)

theorem regReadTlt_eq (room : Option Memory) (s : Fs) (uuid : Uuid) (spid : Spid) :
    regReadTlt room s uuid spid =
      readInto room (mcRegistryReadTrustletCon s uuid spid containerBufferSize) := rfl

/-- `regGetSpState`. -/
def regGetSpState (room : Option Memory) (s : Fs) (spid : Spid) : Except McResult Nat :=
  (regReadSp room s spid).map fun sp => fieldOf sp stateField

/-! ## The queries -/

/-- `isRootContainerRegistered`: the error, or what is stored through the pointer. -/
def isRootContainerRegistered (room : Option Memory) (s : Fs) : Except RootpaError Bool :=
  match regReadRoot room s with
  | .ok root => .ok (fieldOf root stateField ≠ mcContStateUnregistered)
  | .error result =>
    if result = mcDrvErrInvalidDeviceFile then .ok false else .error rootpaErrorRegistry

/-- `getSpContainerState`. -/
def getSpContainerState (room : Option Memory) (s : Fs) (spid : Spid) : Except RootpaError Nat :=
  match regGetSpState room s spid with
  | .ok state => .ok state
  | .error result =>
    if result = mcDrvErrInvalidDeviceFile then .error rootpaErrorInternalNoContainer
    else .error rootpaErrorRegistry

/-- `isSpContainerRegistered`. -/
def isSpContainerRegistered (room : Option Memory) (s : Fs) (spid : Spid) :
    Except RootpaError Bool :=
  match getSpContainerState room s spid with
  | .ok state => .ok (state ≠ mcContStateUnregistered)
  | .error ret => if ret = rootpaErrorInternalNoContainer then .ok false else .error ret

/-- `TltContainerData`. -/
structure TltContainerData where
  uuid : Uuid
  state : Nat
deriving DecidableEq

/-- `SpContainerStructure`. -/
structure SpContainerStructure where
  state : Nat
  nbrOfTlts : Nat
  tltContainers : Vector TltContainerData 16
deriving DecidableEq

/-- What `memset` leaves, with `nbrOfTlts` set. -/
def SpContainerStructure.cleared : SpContainerStructure where
  state := 0xFFFFFFFF
  nbrOfTlts := 0
  tltContainers := Vector.replicate 16 ⟨mcUuidFree, 0xFFFFFFFF⟩

/-- Change the entry at `nbrOfTlts`. -/
def SpContainerStructure.modifyEntry (out : SpContainerStructure)
    (f : TltContainerData → TltContainerData) : SpContainerStructure :=
  { out with
    tltContainers := Vector.ofFn fun j =>
      if j.val = out.nbrOfTlts then f out.tltContainers[j] else out.tltContainers[j] }

/-- `containerExists`. -/
def containerExists (uuid : Uuid) : Bool := uuid ≠ mcUuidFree

/-- `cont.children`, in the buffer. -/
def childrenOf (sp : Memory) : List Uuid :=
  (List.range mcContChildrenCount).map fun i => uuidOf (sp.slice ⟨60 + 16 * i, 16⟩)

/-- A round of the loop of `getSpContainerStructure`, for child `i`: the uuid is copied even after an
error. -/
def addTlt (rooms : Nat → Option Memory) (s : Fs) (spid : Spid)
    (cur : RootpaError × SpContainerStructure) (child : Uuid × Nat) :
    RootpaError × SpContainerStructure :=
  if containerExists child.1 then
    let out := cur.2.modifyEntry fun d => { d with uuid := child.1 }
    if cur.1 = rootpaOk then
      match regReadTlt (rooms child.2) s child.1 spid with
      | .ok tlt =>
        let out := out.modifyEntry fun d => { d with state := fieldOf tlt stateField }
        (rootpaOk, { out with nbrOfTlts := cur.2.nbrOfTlts + 1 })
      | .error _ => (rootpaErrorRegistry, out)
    else (cur.1, out)
  else cur

/-- `getSpContainerStructure`; `rooms i` is what `malloc` gives for the trustlet in slot `i`. -/
def getSpContainerStructure (room : Option Memory) (rooms : Nat → Option Memory) (s : Fs)
    (spid : Spid) : RootpaError × SpContainerStructure :=
  match regReadSp room s spid with
  | .ok sp =>
    (childrenOf sp).zipIdx.foldl (addTlt rooms s spid)
      (rootpaOk, { SpContainerStructure.cleared with state := fieldOf sp stateField })
  | .error result =>
    (if result = mcDrvErrInvalidDeviceFile then rootpaErrorInternalNoContainer
      else rootpaErrorRegistry, .cleared)

/-! ## What is promised -/

section

variable {α : Type*}

/-- The memory that `malloc` gives makes no difference, only whether it gives any. -/
def Blind (f : Option Memory → α) : Prop := ∀ a b, a.isSome = b.isSome → f a = f b

/-- For `getSpContainerStructure`, whatever is allocated on the way. -/
def StructureBlind (s : Fs) (spid : Spid) : Prop :=
  ∀ (a b : Option Memory) (rooms rooms' : Nat → Option Memory), a.isSome = b.isSome →
    (∀ i, (rooms i).isSome = (rooms' i).isSome) →
      getSpContainerStructure a rooms s spid = getSpContainerStructure b rooms' s spid

/-- The state is among the bytes that were read. -/
def StateRead (bs : List UInt8) : Prop := stateField.start + stateField.len ≤ bs.length

/-- The state is among them, or what is of it tells that it is not `MC_CONT_STATE_UNREGISTERED`. -/
def StateDecided (bs : List UInt8) : Prop :=
  StateRead bs ∨ ∃ b ∈ bs.drop stateField.start, b ≠ 0

/-- The end of `cont.children`. -/
def childrenEnd : Nat := 60 + 16 * mcContChildrenCount

/-- What is read of the root container decides whether it is registered. -/
def RootDecided (s : Fs) : Prop :=
  ∀ bs, mcRegistryReadRoot s containerBufferSize = .ok bs → StateDecided bs

/-- What is read of the service provider's container decides whether it is registered. -/
def SpDecided (s : Fs) (spid : Spid) : Prop :=
  ∀ bs, mcRegistryReadSp s spid containerBufferSize = .ok bs → StateDecided bs

/-- The state of the service provider's container is read. -/
def SpStateRead (s : Fs) (spid : Spid) : Prop :=
  ∀ bs, mcRegistryReadSp s spid containerBufferSize = .ok bs → StateRead bs

/-- The container of the trustlet can be read. -/
def readable (s : Fs) (spid : Spid) (uuid : Uuid) : Bool :=
  (mcRegistryReadTrustletCon s uuid spid containerBufferSize).isOk

/-- The state of the trustlet's container is read. -/
def TltRead (s : Fs) (spid : Spid) (uuid : Uuid) : Prop :=
  ∀ bs, mcRegistryReadTrustletCon s uuid spid containerBufferSize = .ok bs → StateRead bs

/-- The service provider's container is read up to the end of its children, and so is the state of
each of them, up to the first one whose container cannot be read. -/
def SpRead (s : Fs) (spid : Spid) : Prop :=
  ∀ bs, mcRegistryReadSp s spid containerBufferSize = .ok bs →
    childrenEnd ≤ bs.length ∧
      ∀ uuid ∈ (spChildren bs).takeWhile (readable s spid), TltRead s spid uuid

/-- A read that fails leaves nothing in the buffer. -/
theorem blind_iff_of_read (read : Except McResult (List UInt8)) {f : Option Memory → α}
    (herror : ∀ e, read = .error e → ∀ a b, f (some a) = f (some b)) :
    Blind f ↔ ∀ bs, read = .ok bs → ∀ a b, f (some a) = f (some b) := by
  constructor
  · intro h bs _ a b
    exact h (some a) (some b) rfl
  · intro h a b hab
    cases a with
    | none =>
      cases b with
      | none => rfl
      | some b => cases hab
    | some a =>
      cases b with
      | none => cases hab
      | some b =>
        cases hread : read with
        | error e => exact herror e hread a b
        | ok bs => exact h bs hread a b

end

/-! ## Fields in a buffer -/

section Fields

variable {bs : List UInt8} {w : Span}

theorem overlay_of_lt {i : Nat} (h : i < bs.length) (a b : Memory) :
    overlay a bs i = overlay b bs i := by
  rw [overlay, overlay, List.getD_eq_getElem?_getD, List.getD_eq_getElem?_getD,
    List.getElem?_eq_getElem h]
  rfl

theorem overlay_of_le {i : Nat} (h : bs.length ≤ i) (a : Memory) : overlay a bs i = a i := by
  rw [overlay, List.getD_eq_getElem?_getD, List.getElem?_eq_none h]
  rfl

/-- A span that has been read does not depend on the buffer. -/
theorem slice_overlay (h : w.start + w.len ≤ bs.length) (a b : Memory) :
    (overlay a bs).slice w = (overlay b bs).slice w := by
  refine List.map_congr_left fun i hi => ?_
  have hi := List.mem_range.mp hi
  exact overlay_of_lt (by omega) a b

/-- Two buffers give the same value only where no byte comes from them. -/
theorem stateRead_of_eq
    (h : fieldOf (overlay (fun _ => 0) bs) stateField =
      fieldOf (overlay (fun _ => 1) bs) stateField) : StateRead bs := by
  by_contra hshort
  have hlast : bs.length ≤ 55 := by
    have hend : stateField.start + stateField.len = 56 := rfl
    unfold StateRead at hshort
    omega
  have hslice := ofLe_inj (by simp) h
  have hbyte := List.map_inj_left.mp hslice 3 (by decide)
  have hstart : stateField.start + 3 = 55 := rfl
  rw [hstart, overlay_of_le hlast, overlay_of_le hlast] at hbyte
  exact absurd hbyte (by decide)

theorem fieldOf_overlay_iff :
    (∀ a b, fieldOf (overlay a bs) stateField = fieldOf (overlay b bs) stateField) ↔
      StateRead bs :=
  ⟨fun h => stateRead_of_eq (h _ _), fun h a b => congrArg ofLe (slice_overlay h a b)⟩

/-- The state is compared with zero: what has been read of it may tell the outcome. -/
theorem fieldOf_ne_zero_iff (a : Memory) :
    fieldOf (overlay a bs) stateField ≠ mcContStateUnregistered ↔
      ∃ i < 4, overlay a bs (stateField.start + i) ≠ 0 := by
  rw [mcContStateUnregistered, fieldOf, Ne, ofLe_eq_zero, Memory.slice]
  simp only [List.forall_mem_map, List.mem_range, not_forall]
  constructor
  · rintro ⟨i, hi, h⟩
    exact ⟨i, hi, h⟩
  · rintro ⟨i, hi, h⟩
    exact ⟨i, hi, h⟩

theorem stateDecided_iff :
    (∀ a b, decide (fieldOf (overlay a bs) stateField ≠ mcContStateUnregistered) =
      decide (fieldOf (overlay b bs) stateField ≠ mcContStateUnregistered)) ↔
      StateDecided bs := by
  have hstart : stateField.start = 52 := rfl
  have hend : stateField.start + stateField.len = 56 := rfl
  constructor
  · intro h
    rw [StateDecided, Classical.or_iff_not_imp_left]
    intro hshort
    have hlast : bs.length ≤ 55 := by
      unfold StateRead at hshort
      omega
    -- the last byte is taken from the buffer, which makes the state different from zero
    have hone : fieldOf (overlay (fun _ => 1) bs) stateField ≠ mcContStateUnregistered :=
      (fieldOf_ne_zero_iff _).mpr ⟨3, by decide, by
        rw [overlay_of_le (by omega)]
        decide⟩
    have hzero : fieldOf (overlay (fun _ => 0) bs) stateField ≠ mcContStateUnregistered :=
      of_decide_eq_true ((h _ _).trans (decide_eq_true hone))
    obtain ⟨i, -, hi⟩ := (fieldOf_ne_zero_iff _).mp hzero
    by_cases hread : stateField.start + i < bs.length
    · refine ⟨bs[stateField.start + i], ?_, ?_⟩
      · exact List.mem_drop_iff_getElem.mpr ⟨i, by omega, rfl⟩
      · rw [overlay, List.getD_eq_getElem?_getD, List.getElem?_eq_getElem hread] at hi
        exact hi
    · exact absurd (overlay_of_le (by omega) _) hi
  · rintro (hread | ⟨b, hb, hne⟩) a c
    · rw [fieldOf_overlay_iff.mpr hread a c]
    · by_cases hread : StateRead bs
      · rw [fieldOf_overlay_iff.mpr hread a c]
      · obtain ⟨i, hi, rfl⟩ := List.mem_drop_iff_getElem.mp hb
        have hlen : i < 4 := by
          unfold StateRead at hread
          omega
        have hall : ∀ a, fieldOf (overlay a bs) stateField ≠ mcContStateUnregistered := by
          intro a
          refine (fieldOf_ne_zero_iff a).mpr ⟨i, hlen, ?_⟩
          rw [overlay, List.getD_eq_getElem?_getD, List.getElem?_eq_getElem (by omega)]
          exact hne
        rw [decide_eq_true (hall a), decide_eq_true (hall c)]

end Fields

/-! ## The queries for one container -/

section Queries

variable {s : Fs} {spid : Spid}

theorem isRootContainerRegistered_blind_iff :
    Blind (isRootContainerRegistered · s) ↔ RootDecided s := by
  rw [blind_iff_of_read (mcRegistryReadRoot s containerBufferSize) fun e he a b => by
    simp only [isRootContainerRegistered, regReadRoot, readInto, he, Except.map]]
  refine forall_congr' fun bs => forall_congr' fun hread => ?_
  simp only [isRootContainerRegistered, regReadRoot, readInto, hread, Except.map, Except.ok.injEq]
  exact stateDecided_iff

theorem getSpContainerState_blind_iff :
    Blind (getSpContainerState · s spid) ↔ SpStateRead s spid := by
  rw [blind_iff_of_read (mcRegistryReadSp s spid containerBufferSize) fun e he a b => by
    simp only [getSpContainerState, regGetSpState, regReadSp, readInto, he, Except.map]]
  refine forall_congr' fun bs => forall_congr' fun hread => ?_
  simp only [getSpContainerState, regGetSpState, regReadSp, readInto, hread, Except.map,
    Except.ok.injEq]
  exact fieldOf_overlay_iff

theorem isSpContainerRegistered_blind_iff :
    Blind (isSpContainerRegistered · s spid) ↔ SpDecided s spid := by
  rw [blind_iff_of_read (mcRegistryReadSp s spid containerBufferSize) fun e he a b => by
    simp only [isSpContainerRegistered, getSpContainerState, regGetSpState, regReadSp, readInto, he,
      Except.map]]
  refine forall_congr' fun bs => forall_congr' fun hread => ?_
  simp only [isSpContainerRegistered, getSpContainerState, regGetSpState, regReadSp, readInto,
    hread, Except.map, Except.ok.injEq]
  exact stateDecided_iff

theorem regGetTaState_blind_iff {uuid : Uuid} :
    Blind (regGetTaState · s spid uuid) ↔ TltRead s spid uuid := by
  rw [blind_iff_of_read (mcRegistryReadTrustletCon s uuid spid containerBufferSize)
    fun e he a b => by simp only [regGetTaState, regReadTlt_eq, readInto, he, Except.map]]
  refine forall_congr' fun bs => forall_congr' fun hread => ?_
  simp only [regGetTaState, regReadTlt_eq, readInto, hread, Except.map, Except.ok.injEq]
  exact fieldOf_overlay_iff

/-- `storeTA` looks at the result alone. -/
theorem storeTA_blind (faults : InstallFaults) (uuid : Uuid) (taBin : Memory)
    (taBinLength : UInt32) : Blind (storeTA · faults s spid uuid taBin taBinLength) := by
  refine (blind_iff_of_read (mcRegistryReadTrustletCon s uuid spid containerBufferSize)
    fun e he a b => ?_).mpr fun bs hread a b => ?_
  · simp only [storeTA, regGetTaState, regReadTlt_eq, readInto, he, Except.map]
  · simp only [storeTA, regGetTaState, regReadTlt_eq, readInto, hread, Except.map]

end Queries

/-! ## The structure of a service provider's container -/

section Structure

variable {s : Fs} {spid : Spid} {rooms rooms' : Nat → Option Memory}
  {cur : RootpaError × SpContainerStructure} {uuid : Uuid} {i : Nat}

@[simp] theorem SpContainerStructure.nbrOfTlts_modifyEntry (out : SpContainerStructure)
    (f : TltContainerData → TltContainerData) : (out.modifyEntry f).nbrOfTlts = out.nbrOfTlts := by
  rw [SpContainerStructure.modifyEntry]

theorem SpContainerStructure.getElem_modifyEntry (out : SpContainerStructure)
    (f : TltContainerData → TltContainerData) {j : Nat} (hj : j < 16) :
    (out.modifyEntry f).tltContainers[j] =
      if j = out.nbrOfTlts then f out.tltContainers[j] else out.tltContainers[j] := by
  simp [SpContainerStructure.modifyEntry]

attribute [irreducible] SpContainerStructure.modifyEntry

theorem addTlt_free (h : containerExists uuid = false) :
    addTlt rooms s spid cur (uuid, i) = cur := by
  unfold addTlt
  rw [h]
  rfl

/-- Of the container, a round looks at the state alone. -/
theorem addTlt_eq (rooms : Nat → Option Memory) (s : Fs) (spid : Spid)
    (cur : RootpaError × SpContainerStructure) (i : Nat) (h : containerExists uuid = true) :
    addTlt rooms s spid cur (uuid, i) =
      let out := cur.2.modifyEntry fun d => { d with uuid := uuid }
      if cur.1 = rootpaOk then
        match regGetTaState (rooms i) s spid uuid with
        | .ok state =>
          (rootpaOk, { (out.modifyEntry fun d => { d with state := state }) with
            nbrOfTlts := cur.2.nbrOfTlts + 1 })
        | .error _ => (rootpaErrorRegistry, out)
      else (cur.1, out) := by
  unfold addTlt regGetTaState
  rw [if_pos h]
  cases regReadTlt (rooms i) s uuid spid <;> rfl

/-- What a round does with a child that exists. -/
theorem addTlt_cases (rooms : Nat → Option Memory) (s : Fs) (spid : Spid)
    (cur : RootpaError × SpContainerStructure) (i : Nat) (h : containerExists uuid = true) :
    let out := cur.2.modifyEntry fun d => { d with uuid := uuid }
    (cur.1 ≠ rootpaOk ∧ addTlt rooms s spid cur (uuid, i) = (cur.1, out)) ∨
      (cur.1 = rootpaOk ∧ addTlt rooms s spid cur (uuid, i) = (rootpaErrorRegistry, out)) ∨
      (cur.1 = rootpaOk ∧ ∃ state, regGetTaState (rooms i) s spid uuid = .ok state ∧
        addTlt rooms s spid cur (uuid, i) =
          (rootpaOk, { (out.modifyEntry fun d => { d with state := state }) with
            nbrOfTlts := cur.2.nbrOfTlts + 1 })) := by
  rw [addTlt_eq rooms s spid cur i h]
  by_cases hok : cur.1 = rootpaOk
  · rw [if_pos hok]
    cases hstate : regGetTaState (rooms i) s spid uuid with
    | error e => exact .inr (.inl ⟨hok, rfl⟩)
    | ok state => exact .inr (.inr ⟨hok, state, rfl, rfl⟩)
  · rw [if_neg hok]
    exact .inl ⟨hok, rfl⟩

/-- The entry of a child that exists has its uuid, whatever becomes of it. -/
theorem addTlt_uuid (rooms : Nat → Option Memory) (s : Fs) (spid : Spid)
    (cur : RootpaError × SpContainerStructure) (i : Nat) (h : containerExists uuid = true)
    (hroom : cur.2.nbrOfTlts < 16) :
    ((addTlt rooms s spid cur (uuid, i)).2.tltContainers[cur.2.nbrOfTlts]).uuid = uuid := by
  have hset : ((cur.2.modifyEntry fun d => { d with uuid := uuid }).tltContainers[
      cur.2.nbrOfTlts]).uuid = uuid := by
    rw [SpContainerStructure.getElem_modifyEntry, if_pos rfl]
  rcases addTlt_cases rooms s spid cur i h with
    ⟨-, heq⟩ | ⟨-, heq⟩ | ⟨-, state, -, heq⟩
  · rw [heq]
    exact hset
  · rw [heq]
    exact hset
  · rw [heq]
    refine (congrArg _ (SpContainerStructure.getElem_modifyEntry _ _ hroom)).trans ?_
    split_ifs
    · exact hset
    · exact hset

/-- A round goes at most one entry on. -/
theorem addTlt_nbrOfTlts (rooms : Nat → Option Memory) (s : Fs) (spid : Spid)
    (cur : RootpaError × SpContainerStructure) (child : Uuid × Nat) :
    cur.2.nbrOfTlts ≤ (addTlt rooms s spid cur child).2.nbrOfTlts ∧
      (addTlt rooms s spid cur child).2.nbrOfTlts ≤ cur.2.nbrOfTlts + 1 := by
  obtain ⟨uuid, i⟩ := child
  by_cases h : containerExists uuid = true
  · rcases addTlt_cases rooms s spid cur i h with
      ⟨-, heq⟩ | ⟨-, heq⟩ | ⟨-, state, -, heq⟩
    · simp [heq]
    · simp [heq]
    · simp [heq]
  · rw [addTlt_free (eq_false_of_ne_true h)]
    exact ⟨Nat.le_refl _, Nat.le_succ _⟩

/-- A round leaves the entries before `nbrOfTlts` alone. -/
theorem addTlt_frame (child : Uuid × Nat) {j : Nat} (hj : j < 16) (hlt : j < cur.2.nbrOfTlts) :
    (addTlt rooms s spid cur child).2.tltContainers[j] = cur.2.tltContainers[j] := by
  obtain ⟨uuid, i⟩ := child
  have hout : (cur.2.modifyEntry fun d => { d with uuid := uuid }).tltContainers[j] =
      cur.2.tltContainers[j] := by
    rw [SpContainerStructure.getElem_modifyEntry, if_neg (Nat.ne_of_lt hlt)]
  by_cases h : containerExists uuid = true
  · rcases addTlt_cases rooms s spid cur i h with
      ⟨-, heq⟩ | ⟨-, heq⟩ | ⟨-, state, -, heq⟩
    · rw [heq]
      exact hout
    · rw [heq]
      exact hout
    · rw [heq]
      have hne : j ≠ (cur.2.modifyEntry fun d => { d with uuid := uuid }).nbrOfTlts := by
        rw [SpContainerStructure.nbrOfTlts_modifyEntry]
        exact Nat.ne_of_lt hlt
      refine Eq.trans ?_ hout
      exact (SpContainerStructure.getElem_modifyEntry _ _ hj).trans (if_neg hne)
  · rw [addTlt_free (eq_false_of_ne_true h)]

theorem foldl_addTlt_nbrOfTlts (rooms : Nat → Option Memory) (s : Fs) (spid : Spid)
    (cur : RootpaError × SpContainerStructure) (l : List (Uuid × Nat)) :
    cur.2.nbrOfTlts ≤ (l.foldl (addTlt rooms s spid) cur).2.nbrOfTlts ∧
      (l.foldl (addTlt rooms s spid) cur).2.nbrOfTlts ≤ cur.2.nbrOfTlts + l.length := by
  induction l generalizing cur with
  | nil => exact ⟨Nat.le_refl _, Nat.le_refl _⟩
  | cons c l ih =>
    obtain ⟨hlow, hhigh⟩ := addTlt_nbrOfTlts rooms s spid cur c
    obtain ⟨hlow', hhigh'⟩ := ih (addTlt rooms s spid cur c)
    rw [List.foldl_cons, List.length_cons]
    omega

theorem foldl_addTlt_frame (l : List (Uuid × Nat)) {j : Nat} (hj : j < 16)
    (hlt : j < cur.2.nbrOfTlts) :
    (l.foldl (addTlt rooms s spid) cur).2.tltContainers[j] = cur.2.tltContainers[j] := by
  induction l generalizing cur with
  | nil => rfl
  | cons c l ih =>
    have hlow := (addTlt_nbrOfTlts rooms s spid cur c).1
    rw [List.foldl_cons, ih (Nat.lt_of_lt_of_le hlt hlow)]
    exact addTlt_frame c hj hlt

/-- The children of a buffer that was read up to their end. -/
theorem childrenOf_overlay {bs : List UInt8} (h : childrenEnd ≤ bs.length) (a : Memory) :
    childrenOf (overlay a bs) = spSlots bs := by
  have hend : childrenEnd = 316 := rfl
  have hcount : mcContChildrenCount = 16 := rfl
  refine List.map_congr_left fun k hk => ?_
  have hk := List.mem_range.mp hk
  apply Vector.ext
  intro j hj
  have hin : 60 + 16 * k + j < bs.length := by omega
  simp only [uuidOf, Vector.getElem_ofFn, Memory.slice, List.getD_eq_getElem?_getD,
    List.getElem?_map, List.getElem?_range hj, Option.map_some, Option.getD_some, List.getElem?_drop]
  rw [overlay, List.getD_eq_getElem?_getD, List.getElem?_eq_getElem hin]
  rfl

/-- The children that exist, up to the first one whose container cannot be read. -/
def reached (s : Fs) (spid : Spid) (l : List (Uuid × Nat)) : List Uuid :=
  ((l.map Prod.fst).filter containerExists).takeWhile (readable s spid)

theorem reached_cons_free (h : containerExists uuid = false) (l : List (Uuid × Nat)) :
    reached s spid ((uuid, i) :: l) = reached s spid l := by
  rw [reached, List.map_cons, List.filter_cons_of_neg (by simp [h])]
  rfl

theorem reached_cons (h : containerExists uuid = true) (l : List (Uuid × Nat)) :
    reached s spid ((uuid, i) :: l) =
      if readable s spid uuid then uuid :: reached s spid l else [] := by
  rw [reached, List.map_cons, List.filter_cons_of_pos h, List.takeWhile_cons]
  rfl

/-- A round gives the same, whatever was allocated, when the state of the child's container is
read. -/
theorem addTlt_congr (hrooms : (rooms i).isSome = (rooms' i).isSome)
    (hread : cur.1 = rootpaOk → TltRead s spid uuid) :
    addTlt rooms s spid cur (uuid, i) = addTlt rooms' s spid cur (uuid, i) := by
  cases hexists : containerExists uuid with
  | false => rw [addTlt_free hexists, addTlt_free hexists]
  | true =>
    rw [addTlt_eq rooms s spid cur i hexists, addTlt_eq rooms' s spid cur i hexists]
    by_cases hok : cur.1 = rootpaOk
    · have hsame : regGetTaState (rooms i) s spid uuid = regGetTaState (rooms' i) s spid uuid :=
        regGetTaState_blind_iff.mpr (hread hok) _ _ hrooms
      rw [hsame]
    · rw [if_neg hok, if_neg hok]

theorem readable_iff :
    readable s spid uuid = true ↔
      ∃ bs, mcRegistryReadTrustletCon s uuid spid containerBufferSize = .ok bs := by
  unfold readable
  cases mcRegistryReadTrustletCon s uuid spid containerBufferSize with
  | ok bs => exact iff_of_true rfl ⟨bs, rfl⟩
  | error e => exact iff_of_false Bool.false_ne_true nofun

theorem readable_of_regGetTaState {room : Option Memory} {state : Nat}
    (h : regGetTaState room s spid uuid = .ok state) : readable s spid uuid = true := by
  rw [readable_iff]
  cases hbs : mcRegistryReadTrustletCon s uuid spid containerBufferSize with
  | ok bs => exact ⟨bs, rfl⟩
  | error e =>
    cases room with
    | none => cases h
    | some m =>
      rw [regGetTaState, regReadTlt_eq, readInto, hbs] at h
      cases h

/-- The loop gives the same, when the states of all the containers that it reads are read. -/
theorem foldl_addTlt_congr (hrooms : ∀ i, (rooms i).isSome = (rooms' i).isSome)
    (l : List (Uuid × Nat))
    (hread : cur.1 = rootpaOk → ∀ uuid ∈ reached s spid l, TltRead s spid uuid) :
    l.foldl (addTlt rooms s spid) cur = l.foldl (addTlt rooms' s spid) cur := by
  induction l generalizing cur with
  | nil => rfl
  | cons c l ih =>
    obtain ⟨uuid, i⟩ := c
    rw [List.foldl_cons, List.foldl_cons]
    cases hexists : containerExists uuid with
    | false =>
      rw [addTlt_free hexists, addTlt_free hexists]
      rw [reached_cons_free hexists] at hread
      exact ih hread
    | true =>
      rw [reached_cons hexists] at hread
      have huuid : cur.1 = rootpaOk → TltRead s spid uuid := by
        intro hok bs hbs
        rw [if_pos (readable_iff.mpr ⟨bs, hbs⟩)] at hread
        exact hread hok uuid List.mem_cons_self bs hbs
      rw [addTlt_congr (hrooms i) huuid]
      refine ih fun hok => ?_
      -- the loop has come past this child, so its container was read
      rcases addTlt_cases rooms' s spid cur i hexists with
        ⟨hne, heq⟩ | ⟨-, heq⟩ | ⟨hcur, state, hstate, heq⟩
      · rw [heq] at hok
        exact absurd hok hne
      · rw [heq] at hok
        exact absurd hok (by decide : rootpaErrorRegistry ≠ rootpaOk)
      · rw [if_pos (readable_of_regGetTaState hstate)] at hread
        exact fun v hv => hread hcur v (List.mem_cons_of_mem _ hv)

/-- Behind the round of a child whose container is `bs`, read into memory that holds `m`. -/
def afterChild (cur : RootpaError × SpContainerStructure) (uuid : Uuid) (bs : List UInt8)
    (m : Memory) : RootpaError × SpContainerStructure :=
  (rootpaOk, { ((cur.2.modifyEntry fun d => { d with uuid := uuid }).modifyEntry fun d =>
    { d with state := fieldOf (overlay m bs) stateField }) with
    nbrOfTlts := cur.2.nbrOfTlts + 1 })

theorem addTlt_readable {bs : List UInt8} (hexists : containerExists uuid = true)
    (hok : cur.1 = rootpaOk)
    (hbs : mcRegistryReadTrustletCon s uuid spid containerBufferSize = .ok bs) (m : Memory)
    (i : Nat) :
    addTlt (fun _ => some m) s spid cur (uuid, i) = afterChild cur uuid bs m := by
  rw [addTlt_eq _ s spid cur i hexists, if_pos hok, regGetTaState, regReadTlt_eq, readInto, hbs]
  rfl

/-- The state of a child stays as it is in the rounds of the others. -/
theorem foldl_afterChild_state {bs : List UInt8} (hlt : cur.2.nbrOfTlts < 16)
    (l : List (Uuid × Nat)) (m : Memory) (rooms : Nat → Option Memory) :
    ((l.foldl (addTlt rooms s spid) (afterChild cur uuid bs m)).2.tltContainers[cur.2.nbrOfTlts]).state =
      fieldOf (overlay m bs) stateField := by
  have hnext : cur.2.nbrOfTlts < (afterChild cur uuid bs m).2.nbrOfTlts := Nat.lt_succ_self _
  rw [foldl_addTlt_frame l hlt hnext]
  refine (congrArg _ (SpContainerStructure.getElem_modifyEntry _ _ hlt)).trans ?_
  rw [SpContainerStructure.nbrOfTlts_modifyEntry, if_pos rfl]

/-- Where two buffers give the same structure, each state has been read. -/
theorem tltRead_of_foldl_eq (l : List (Uuid × Nat)) (hok : cur.1 = rootpaOk)
    (hroom : cur.2.nbrOfTlts + l.length ≤ 16)
    (heq : l.foldl (addTlt (fun _ => some fun _ => 0) s spid) cur =
      l.foldl (addTlt (fun _ => some fun _ => 1) s spid) cur) :
    ∀ uuid ∈ reached s spid l, TltRead s spid uuid := by
  induction l generalizing cur with
  | nil => exact fun uuid huuid => absurd huuid List.not_mem_nil
  | cons c l ih =>
    obtain ⟨uuid, i⟩ := c
    rw [List.foldl_cons, List.foldl_cons] at heq
    rw [List.length_cons] at hroom
    cases hexists : containerExists uuid with
    | false =>
      rw [reached_cons_free hexists]
      rw [addTlt_free hexists, addTlt_free hexists] at heq
      exact ih hok (by omega) heq
    | true =>
      rw [reached_cons hexists]
      split_ifs with hreadable
      · obtain ⟨bs, hbs⟩ := readable_iff.mp hreadable
        have hlt : cur.2.nbrOfTlts < 16 := by omega
        rw [addTlt_readable hexists hok hbs, addTlt_readable hexists hok hbs] at heq
        have hstate : StateRead bs := by
          apply stateRead_of_eq
          rw [← foldl_afterChild_state hlt l _ fun _ => some fun _ => 0,
            ← foldl_afterChild_state hlt l _ fun _ => some fun _ => 1, heq]
        have hsame : afterChild cur uuid bs (fun _ => 0) = afterChild cur uuid bs fun _ => 1 := by
          unfold afterChild
          rw [fieldOf_overlay_iff.mpr hstate]
        rw [hsame] at heq
        have hnext : (afterChild cur uuid bs fun _ => 1).2.nbrOfTlts + l.length ≤ 16 := by
          show cur.2.nbrOfTlts + 1 + l.length ≤ 16
          omega
        intro v hv
        rcases List.mem_cons.mp hv with rfl | hv
        · intro bs' hbs'
          cases hbs.symm.trans hbs'
          exact hstate
        · exact ih rfl hnext heq v hv
      · exact fun v hv => absurd hv List.not_mem_nil

/-- Memory that is zero but for one byte, the last one of the children. -/
def lastByte (v : UInt8) : Memory := fun k => if k = childrenEnd - 1 then v else 0

/-- The last child. -/
def lastChild (sp : Memory) : Uuid := uuidOf (sp.slice ⟨60 + 16 * 15, 16⟩)

/-- The other children. -/
def firstChildren (sp : Memory) : List Uuid :=
  (List.range 15).map fun i => uuidOf (sp.slice ⟨60 + 16 * i, 16⟩)

theorem childrenOf_eq (sp : Memory) : childrenOf sp = firstChildren sp ++ [lastChild sp] := by
  have hcount : mcContChildrenCount = 15 + 1 := rfl
  rw [childrenOf, hcount, List.range_succ, List.map_append]
  rfl

/-- What lies before the last byte of the children is the same. -/
theorem slice_lastByte {bs : List UInt8} {w : Span} (h : w.start + w.len ≤ childrenEnd - 1)
    (v v' : UInt8) :
    (overlay (lastByte v) bs).slice w = (overlay (lastByte v') bs).slice w := by
  refine List.map_congr_left fun k hk => ?_
  have hk := List.mem_range.mp hk
  have hne : w.start + k ≠ childrenEnd - 1 := by omega
  rw [overlay, overlay, lastByte, lastByte, if_neg hne, if_neg hne]

theorem lastChild_getElem {bs : List UInt8} (h : bs.length < childrenEnd) (v : UInt8) :
    (lastChild (overlay (lastByte v) bs))[15] = v := by
  have hend : childrenEnd - 1 = 315 := rfl
  have hlen : bs.length ≤ 315 := by
    have hfull : childrenEnd = 316 := rfl
    omega
  rw [lastChild, uuidOf, Vector.getElem_ofFn]
  show overlay (lastByte v) bs 315 = v
  rw [overlay_of_le hlen, lastByte, hend, if_pos rfl]

/-- A child that has not been read to its end is one that the buffer makes up. -/
theorem childrenEnd_le_of_blind {bs : List UInt8} (h : StructureBlind s spid)
    (hread : mcRegistryReadSp s spid containerBufferSize = .ok bs) : childrenEnd ≤ bs.length := by
  by_contra hshort
  have hshort : bs.length < childrenEnd := by omega
  let sp (v : UInt8) : Memory := overlay (lastByte v) bs
  let rooms : Nat → Option Memory := fun _ => some fun _ => 0
  have hfields : ∀ v, fieldOf (sp v) stateField = fieldOf (sp 0) stateField := fun v =>
    congrArg ofLe (slice_lastByte (by decide) v 0)
  have hfirst : ∀ v, firstChildren (sp v) = firstChildren (sp 0) := by
    intro v
    refine List.map_congr_left fun k hk => ?_
    have hk := List.mem_range.mp hk
    have hend : childrenEnd = 316 := rfl
    exact congrArg uuidOf (slice_lastByte (by show 60 + 16 * k + 16 ≤ _; omega) v 0)
  obtain ⟨start, hstart⟩ : ∃ start : RootpaError × SpContainerStructure, start =
      (rootpaOk, { SpContainerStructure.cleared with state := fieldOf (sp 0) stateField }) :=
    ⟨_, rfl⟩
  have hlen : (firstChildren (sp 0)).length = 15 := by simp [firstChildren]
  obtain ⟨before, hrunFirst⟩ : ∃ before, before =
      (firstChildren (sp 0)).zipIdx.foldl (addTlt rooms s spid) start := ⟨_, rfl⟩
  have hbefore : before.2.nbrOfTlts < 16 := by
    have hle := (foldl_addTlt_nbrOfTlts rooms s spid start (firstChildren (sp 0)).zipIdx).2
    have hzero : start.2.nbrOfTlts = 0 := by
      rw [hstart]
      rfl
    rw [List.length_zipIdx, hlen, hzero, ← hrunFirst] at hle
    omega
  -- all but the last child are the same, and that one is not
  have hrun : ∀ v, getSpContainerStructure (some (lastByte v)) rooms s spid =
      addTlt rooms s spid before (lastChild (sp v), 15) := by
    intro v
    unfold getSpContainerStructure regReadSp readInto
    rw [hread]
    show (childrenOf (sp v)).zipIdx.foldl _ (rootpaOk, _) = _
    rw [hfields v, ← hstart, childrenOf_eq, hfirst v, List.zipIdx_append, List.foldl_append, hlen,
      ← hrunFirst, List.zipIdx_singleton, List.foldl_cons, List.foldl_nil]
  have hexists : ∀ v : UInt8, v ≠ 0xFF → containerExists (lastChild (sp v)) = true := by
    intro v hv
    refine decide_eq_true fun hfree => hv ?_
    have hbyte := lastChild_getElem hshort v
    rw [show lastChild (overlay (lastByte v) bs) = mcUuidFree from hfree] at hbyte
    rw [← hbyte]
    simp [mcUuidFree]
  have hsame := h (some (lastByte 0)) (some (lastByte 1)) rooms rooms rfl fun _ => rfl
  rw [hrun, hrun] at hsame
  have huuid : lastChild (sp 0) = lastChild (sp 1) := by
    have hzero := addTlt_uuid rooms s spid before 15 (hexists 0 (by decide)) hbefore
    have hone := addTlt_uuid rooms s spid before 15 (hexists 1 (by decide)) hbefore
    rw [hsame] at hzero
    exact hzero.symm.trans hone
  have hbyte := lastChild_getElem hshort 0
  rw [show lastChild (overlay (lastByte 0) bs) = lastChild (overlay (lastByte 1) bs) from huuid,
    lastChild_getElem hshort 1] at hbyte
  exact absurd hbyte (by decide)

theorem reached_zipIdx (bs : List UInt8) :
    reached s spid (spSlots bs).zipIdx = (spChildren bs).takeWhile (readable s spid) := by
  rw [reached, List.zipIdx_map_fst]
  rfl

theorem getSpContainerStructure_blind_iff : StructureBlind s spid ↔ SpRead s spid := by
  constructor
  · intro h bs hread
    have hend := childrenEnd_le_of_blind h hread
    refine ⟨hend, ?_⟩
    -- two fillings tell apart each field that has not been read
    have hsame := h (some fun _ => 0) (some fun _ => 0) (fun _ => some fun _ => 0)
      (fun _ => some fun _ => 1) rfl fun _ => rfl
    unfold getSpContainerStructure regReadSp readInto at hsame
    rw [hread] at hsame
    simp only [Except.map, childrenOf_overlay hend] at hsame
    rw [← reached_zipIdx]
    refine tltRead_of_foldl_eq _ rfl ?_ hsame
    rw [List.length_zipIdx, spSlots, List.length_map, List.length_range]
    exact Nat.le_of_eq (Nat.zero_add _)
  · intro h a b rooms rooms' hab hrooms
    cases hread : mcRegistryReadSp s spid containerBufferSize with
    | error e =>
      have hboth : ∀ room : Option Memory, room.isSome = a.isSome →
          regReadSp room s spid = regReadSp a s spid := by
        intro room hroom
        unfold regReadSp readInto
        rw [hread]
        cases room <;> cases a <;> first | rfl | cases hroom
      unfold getSpContainerStructure
      rw [hboth b hab.symm]
      cases hsp : regReadSp a s spid with
      | error e => rfl
      | ok sp =>
        unfold regReadSp readInto at hsp
        rw [hread] at hsp
        cases a <;> cases hsp
    | ok bs =>
      obtain ⟨hend, htlts⟩ := h bs hread
      have hstate : StateRead bs := Nat.le_trans (by decide) hend
      cases a with
      | none =>
        cases b with
        | none => rfl
        | some b => cases hab
      | some a =>
        cases b with
        | none => cases hab
        | some b =>
          unfold getSpContainerStructure regReadSp readInto
          rw [hread]
          simp only [Except.map, childrenOf_overlay hend, fieldOf_overlay_iff.mpr hstate a b]
          refine foldl_addTlt_congr hrooms _ fun _ => ?_
          rw [reached_zipIdx]
          exact htlts

end Structure

/-! ## The queries together -/

/-- **When a query depends on the registry alone.** Each query on its own: the state of the container
has been read, or decides already; the children of a service provider's container have been read,
and the state of each of them.  `storeTA` depends on nothing else. -/
theorem containerQueries_blind_iff (s : Fs) (spid : Spid) :
    (Blind (isRootContainerRegistered · s) ↔ RootDecided s) ∧
      (Blind (isSpContainerRegistered · s spid) ↔ SpDecided s spid) ∧
      (Blind (getSpContainerState · s spid) ↔ SpStateRead s spid) ∧
      (StructureBlind s spid ↔ SpRead s spid) ∧
      ∀ faults uuid taBin taBinLength,
        Blind (storeTA · faults s spid uuid taBin taBinLength) :=
  ⟨isRootContainerRegistered_blind_iff, isSpContainerRegistered_blind_iff,
    getSpContainerState_blind_iff, getSpContainerStructure_blind_iff, storeTA_blind⟩

/-- A registry with a root container of ten zero bytes. -/
def shortRegistry : Fs := (storeFile freshRegistry getRootContFilePath (List.replicate 10 0)).2

/-- The ten bytes are read with success, and the state is what the memory held. -/
theorem not_blind_shortRegistry :
    mcRegistryReadRoot shortRegistry containerBufferSize = .ok (List.replicate 10 0) ∧
      isRootContainerRegistered (some fun _ => 0) shortRegistry = .ok false ∧
      isRootContainerRegistered (some fun _ => 1) shortRegistry = .ok true ∧
      ¬ Blind (isRootContainerRegistered · shortRegistry) := by
  have hzero : isRootContainerRegistered (some fun _ => 0) shortRegistry = .ok false := by decide
  have hone : isRootContainerRegistered (some fun _ => 1) shortRegistry = .ok true := by decide
  refine ⟨by decide, hzero, hone, fun h => ?_⟩
  have hsame := h (some fun _ => 0) (some fun _ => 1) rfl
  dsimp only at hsame
  rw [hzero, hone] at hsame
  cases hsame

end McDaemon.RootPa.ContainerQueries
