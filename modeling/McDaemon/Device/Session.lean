/-
# McDaemon.Device.Session — one trustlet session and its bulk buffers.

`TrustletSession` of the daemon, with the operations of its class.  `std::map<uint32_t, CWsm_ptr>`
is `BulkBuffs`, the buffers in ascending order of their handles: the order is a field of the
structure, so a handle is recorded at most once and `popBulkBuff` takes the smallest.
-/
import Mathlib.Data.List.Nodup
import McDaemon.Api

namespace McDaemon.Device

/-! ## Bulk buffers -/

/-- `CWsm`; the virtual address is always `NULL` for a recorded buffer. -/
structure CWsm where
  len : UInt32
  handle : UInt32
  physAddr : UInt64 := 0
deriving DecidableEq, Repr

/-- The handle-keyed map of a session's buffers. -/
structure BulkBuffs where
  entries : List CWsm
  sorted : entries.Pairwise fun a b => a.handle < b.handle

namespace BulkBuffs

/-- `buffers.find(handle)`. -/
def find (b : BulkBuffs) (handle : UInt32) : Option CWsm :=
  b.entries.find? fun w => w.handle == handle

/-- The handles that are recorded, in map order. -/
def handles (b : BulkBuffs) : List UInt32 := b.entries.map CWsm.handle

def empty : BulkBuffs where
  entries := []
  sorted := List.Pairwise.nil

/-- Place `w` before the first buffer with a larger handle. -/
def insertSorted (w : CWsm) : List CWsm → List CWsm
  | [] => [w]
  | b :: bs => if w.handle < b.handle then w :: b :: bs else b :: insertSorted w bs

theorem mem_insertSorted {w x : CWsm} {bs : List CWsm} :
    x ∈ insertSorted w bs ↔ x = w ∨ x ∈ bs := by
  induction bs with
  | nil => simp [insertSorted]
  | cons b bs ih =>
    by_cases h : w.handle < b.handle
    · simp [insertSorted, h]
    · simp only [insertSorted, if_neg h, List.mem_cons, ih]
      tauto

theorem pairwise_insertSorted {w : CWsm} {bs : List CWsm}
    (hs : bs.Pairwise fun a b => a.handle < b.handle) (hw : w.handle ∉ bs.map CWsm.handle) :
    (insertSorted w bs).Pairwise fun a b => a.handle < b.handle := by
  induction bs with
  | nil => simp [insertSorted]
  | cons b bs ih =>
    rw [List.pairwise_cons] at hs
    simp only [List.map_cons, List.mem_cons, not_or] at hw
    by_cases h : w.handle < b.handle
    · rw [insertSorted, if_pos h]
      refine List.pairwise_cons.mpr ⟨?_, List.pairwise_cons.mpr hs⟩
      intro x hx
      rcases List.mem_cons.mp hx with rfl | hx
      · exact h
      · exact UInt32.lt_trans h (hs.1 x hx)
    · rw [insertSorted, if_neg h]
      refine List.pairwise_cons.mpr ⟨?_, ih hs.2 hw.2⟩
      intro x hx
      rcases mem_insertSorted.mp hx with rfl | hx
      · exact UInt32.lt_of_le_of_ne (UInt32.not_lt.mp h) (Ne.symm hw.1)
      · exact hs.1 x hx

/-- `addBulkBuff`: a handle that is recorded already is refused. -/
def addBulkBuff (b : BulkBuffs) (w : CWsm) : Bool × BulkBuffs :=
  if h : w.handle ∈ b.handles then (false, b)
  else (true, ⟨insertSorted w b.entries, pairwise_insertSorted b.sorted h⟩)

/-- `removeBulkBuff`. -/
def removeBulkBuff (b : BulkBuffs) (handle : UInt32) : Bool × BulkBuffs :=
  if handle ∈ b.handles then
    (true, ⟨b.entries.filter fun w => w.handle ≠ handle, b.sorted.filter _⟩)
  else (false, b)

/-- `findBulkBuff`: the handle is recorded, and with this length. -/
def findBulkBuff (b : BulkBuffs) (handle lenBulkMem : UInt32) : Bool :=
  match b.find handle with
  | none => false
  | some w => w.len == lenBulkMem

/-- `popBulkBuff`: take the first buffer out of the map. -/
def popBulkBuff (b : BulkBuffs) : Option (CWsm × BulkBuffs) :=
  match h : b.entries with
  | [] => none
  | w :: ws => some (w, ⟨ws, (List.pairwise_cons.mp (h ▸ b.sorted)).2⟩)

theorem nodup_handles (b : BulkBuffs) : b.handles.Nodup := by
  refine List.Pairwise.map _ (fun a c h => ?_) b.sorted
  exact UInt32.ne_of_lt h

@[simp] theorem handles_empty : empty.handles = [] := rfl

theorem mem_handles_addBulkBuff (b : BulkBuffs) (w : CWsm) (h : UInt32) :
    h ∈ (b.addBulkBuff w).2.handles ↔ h = w.handle ∨ h ∈ b.handles := by
  by_cases hw : w.handle ∈ b.handles
  · rw [addBulkBuff, dif_pos hw]
    exact ⟨Or.inr, fun hh => hh.elim (fun e => e ▸ hw) id⟩
  · rw [addBulkBuff, dif_neg hw]
    simp only [handles, List.mem_map, mem_insertSorted]
    constructor
    · rintro ⟨x, rfl | hx, rfl⟩
      · exact Or.inl rfl
      · exact Or.inr ⟨x, hx, rfl⟩
    · rintro (rfl | ⟨x, hx, rfl⟩)
      · exact ⟨w, Or.inl rfl, rfl⟩
      · exact ⟨x, Or.inr hx, rfl⟩

theorem addBulkBuff_fst (b : BulkBuffs) (w : CWsm) :
    (b.addBulkBuff w).1 = true ↔ w.handle ∉ b.handles := by
  by_cases hw : w.handle ∈ b.handles <;> simp [addBulkBuff, hw]

theorem addBulkBuff_of_mem {b : BulkBuffs} {w : CWsm} (hw : w.handle ∈ b.handles) :
    b.addBulkBuff w = (false, b) := by
  simp [addBulkBuff, hw]

theorem mem_handles_removeBulkBuff (b : BulkBuffs) (h h' : UInt32) :
    h' ∈ (b.removeBulkBuff h).2.handles ↔ h' ≠ h ∧ h' ∈ b.handles := by
  by_cases hm : h ∈ b.handles
  · rw [removeBulkBuff, if_pos hm]
    simp only [handles, List.mem_map, List.mem_filter, decide_eq_true_eq]
    constructor
    · rintro ⟨x, ⟨hx, hne⟩, rfl⟩
      exact ⟨hne, x, hx, rfl⟩
    · rintro ⟨hne, x, hx, rfl⟩
      exact ⟨x, ⟨hx, hne⟩, rfl⟩
  · rw [removeBulkBuff, if_neg hm]
    exact ⟨fun h'm => ⟨fun e => hm (e ▸ h'm), h'm⟩, And.right⟩

theorem mem_handles_of_findBulkBuff {b : BulkBuffs} {h len : UInt32}
    (hf : b.findBulkBuff h len = true) : h ∈ b.handles := by
  unfold findBulkBuff at hf
  cases hw : b.find h with
  | none => rw [hw] at hf; cases hf
  | some w =>
    have hmem := List.mem_of_find?_eq_some hw
    have hh := List.find?_some hw
    exact List.mem_map.mpr ⟨w, hmem, by simpa using hh⟩

end BulkBuffs

/-! ## Sessions -/

/-- `TS_STATE`. -/
inductive TsState where
  | taRunning
  | taDead
  | closeSend
  | closed
deriving DecidableEq, Repr

/-- `TrustletSession`.  `deviceSessionId` is the low half of the object's address, which the
daemon hands to the client as a name for the session. -/
structure TrustletSession where
  deviceSessionId : UInt32
  sessionId : UInt32
  sessionMagic : UInt32
  deviceConnection : Option Conn
  notificationConnection : Option Conn
  gpLevel : UInt32
  sessionState : TsState
  notifications : List Notification
  buffers : BulkBuffs

namespace TrustletSession

/-- The constructor; `addr` and `magic` are what `new` and `rand()` returned. -/
def new (addr magic : UInt32) (deviceConnection : Conn) (sessionId : UInt32) :
    TrustletSession where
  deviceSessionId := addr
  sessionId := sessionId
  sessionMagic := magic
  deviceConnection := some deviceConnection
  notificationConnection := none
  gpLevel := 0
  sessionState := .taRunning
  notifications := []
  buffers := .empty

/-- Whether the notification announces the end of a GP trusted application. -/
def exits (v : TrustletSession) (n : Notification) : Bool := v.gpLevel == 1 && n.payload != 0

/-- The state in which `queueNotification` leaves the session. -/
def stateAfter (v : TrustletSession) (n : Notification) : TsState :=
  if v.sessionState = .taDead then .taDead
  else if v.exits n then .taDead
  else v.sessionState

/-- Whether `queueNotification` gets as far as pushing the notification. -/
def accepts (v : TrustletSession) (n : Notification) : Bool :=
  v.sessionState ≠ .taDead && v.stateAfter n ≠ .closeSend

/-- `queueNotification`: nothing for a dead session; an exit notification marks a GP session
dead; a session being closed drops the rest. -/
def queueNotification (v : TrustletSession) (n : Notification) : TrustletSession :=
  { v with
    sessionState := v.stateAfter n
    notifications := if v.accepts n then v.notifications ++ [n] else v.notifications }

end TrustletSession

end McDaemon.Device
