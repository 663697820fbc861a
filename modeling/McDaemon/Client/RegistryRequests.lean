/-
# McDaemon.Client.RegistryRequests — what the client library sends for a registry call.

Client and daemon have no description of the commands in common: the client fills a structure for
every call, packed where an object of any size is behind it, and the daemon reads one field after
another.  A handler that gets as far as the last field makes of the client's bytes the call that
they were made of.
-/
import McDaemon.Daemon.RegistryCommands

namespace McDaemon.Client

open McDaemon.Lib
open McDaemon.Lib.Reader
open McDaemon.Daemon
open McDaemon.Registry (Spid Uuid uuidOf)
open McDaemon.Daemon.Framing (Stream Turn ConnState)

/-! ## Requests -/

/-- A command header with the fields that follow it. -/
def cmd (c : DrvCommand) (ids : List UInt8) : List UInt8 := le32 c.commandId ++ ids

/-- The front of a `storeCmd`: the command, the size of the object and what identifies it. -/
def storeCmd (c : DrvCommand) (so ids : List UInt8) : List UInt8 :=
  le32 c.commandId ++ (le32 (UInt32.ofNat so.length) ++ ids)

/-- The bytes that `writeBlobData` sends, whose length is an `uint32_t`. -/
def blobData (buff : List UInt8) (len : Nat) : List UInt8 := buff.take (len % 2 ^ 32)

def mcRegistryStoreAuthToken (so : List UInt8) : List UInt8 :=
  blobData (storeCmd .regStoreAuthToken so [] ++ so) (9 + so.length - 1)

def mcRegistryReadAuthToken : List UInt8 := cmd .regReadAuthToken []

def mcRegistryDeleteAuthToken : List UInt8 := cmd .regDeleteAuthToken []

def mcRegistryStoreRoot (so : List UInt8) : List UInt8 :=
  blobData (storeCmd .regWriteRootCont so [] ++ so) (9 + so.length - 1)

def mcRegistryReadRoot : List UInt8 := cmd .regReadRootCont []

def mcRegistryCleanupRoot : List UInt8 := cmd .regDeleteRootCont []

def mcRegistryStoreSp (spid : Spid) (so : List UInt8) : List UInt8 :=
  blobData (storeCmd .regWriteSpCont so (le32 spid) ++ so) (13 + so.length - 1)

def mcRegistryReadSp (spid : Spid) : List UInt8 := cmd .regReadSpCont (le32 spid)

def mcRegistryCleanupSp (spid : Spid) : List UInt8 := cmd .regDeleteSpCont (le32 spid)

def mcRegistryStoreTrustletCon (uuid : Uuid) (spid : Spid) (so : List UInt8) : List UInt8 :=
  blobData (storeCmd .regWriteTlCont so (uuid.toList ++ le32 spid) ++ so) (29 + so.length - 1)

/-- The structure is not packed here, and ends in the array of the blob's bytes. -/
def mcRegistryStoreTABlob (spid : Spid) (blob : List UInt8) : List UInt8 :=
  blobData (storeCmd .regStoreTaBlob blob (le32 spid) ++ blob) (12 + blob.length)

def mcRegistryReadTrustletCon (uuid : Uuid) (spid : Spid) : List UInt8 :=
  cmd .regReadTlCont (uuid.toList ++ le32 spid)

/-- Without a uuid nothing is sent. -/
def mcRegistryCleanupTrustlet (uuid : Option Uuid) (spid : Spid) : Option (List UInt8) :=
  uuid.map fun uuid => cmd .regDeleteTlCont (uuid.toList ++ le32 spid)

/-- What is sent for a call; `mcRegistryStoreData` of the client library sends nothing. -/
def request : RegistryCall → Option (List UInt8)
  | .storeAuthToken so => some (mcRegistryStoreAuthToken so)
  | .readAuthToken => some mcRegistryReadAuthToken
  | .deleteAuthToken => some mcRegistryDeleteAuthToken
  | .storeRoot so => some (mcRegistryStoreRoot so)
  | .readRoot => some mcRegistryReadRoot
  | .cleanupRoot => some mcRegistryCleanupRoot
  | .storeSp spid so => some (mcRegistryStoreSp spid so)
  | .readSp spid => some (mcRegistryReadSp spid)
  | .cleanupSp spid => some (mcRegistryCleanupSp spid)
  | .storeTrustletCon uuid spid so => some (mcRegistryStoreTrustletCon uuid spid so)
  | .readTrustletCon uuid spid => some (mcRegistryReadTrustletCon uuid spid)
  | .cleanupTrustlet uuid spid => mcRegistryCleanupTrustlet (some uuid) spid
  | .storeData _ => none
  | .storeTABlob spid blob => some (mcRegistryStoreTABlob spid blob)

/-! ## The parts of a message -/

/-- What identifies the object of a call. -/
def ids : RegistryCall → List UInt8
  | .storeSp spid _ | .readSp spid | .cleanupSp spid | .storeTABlob spid _ => le32 spid
  | .storeTrustletCon uuid spid _ | .readTrustletCon uuid spid | .cleanupTrustlet uuid spid =>
    uuid.toList ++ le32 spid
  | _ => []

/-- The object that a call carries. -/
def object : RegistryCall → List UInt8
  | .storeAuthToken so | .storeRoot so | .storeSp _ so | .storeTrustletCon _ _ so | .storeData so
  | .storeTABlob _ so => so
  | _ => []

/-- The fields in front of the object. -/
def fields (call : RegistryCall) : List UInt8 :=
  (if call.command.isRegistryWrite then le32 (UInt32.ofNat (object call).length) else []) ++ ids call

/-- The length of a message, before it is cut down to 32 bits. -/
def messageLength (call : RegistryCall) : Nat := 4 + (fields call).length + (object call).length

theorem length_ids (call : RegistryCall) : (ids call).length = call.command.idFields.sum := by
  cases call <;> simp [ids, RegistryCall.command, DrvCommand.idFields]

theorem isRegistry_command (call : RegistryCall) :
    call.command.isRegistryWrite = true ∨ Framing.isRegistryQuery call.command = true := by
  cases call with
  | readAuthToken | deleteAuthToken | readRoot | cleanupRoot | readSp | cleanupSp | readTrustletCon
  | cleanupTrustlet => exact .inr rfl
  | _ => exact .inl rfl

theorem command_ne_openTrustlet (call : RegistryCall) : call.command ≠ .openTrustlet := by
  intro h
  cases call <;> cases h

theorem length_fields (call : RegistryCall) :
    (fields call).length = call.command.fixedSize := by
  rw [fields, List.length_append, length_ids]
  rcases isRegistry_command call with hw | hq
  · rw [if_pos hw, length_le32, Framing.fixedSize_of_write hw]
  · rw [Framing.fixedSize_of_query hq]
    cases call <;> first | rfl | cases hq

theorem messageLength_of_write {call : RegistryCall} (hw : call.command.isRegistryWrite = true) :
    messageLength call = 8 + call.command.idFields.sum + (object call).length := by
  rw [messageLength, length_fields, Framing.fixedSize_of_write hw]
  omega

theorem messageLength_of_query {call : RegistryCall}
    (hq : Framing.isRegistryQuery call.command = true) :
    messageLength call = 4 + call.command.idFields.sum + (object call).length := by
  rw [messageLength, length_fields, Framing.fixedSize_of_query hq]

theorem blobData_storeCmd {call : RegistryCall} (hw : call.command.isRegistryWrite = true)
    (hlen : messageLength call < 2 ^ 32) {len : Nat}
    (h : len = 8 + call.command.idFields.sum + (object call).length) :
    blobData (storeCmd call.command (object call) (ids call) ++ object call) len =
      le32 call.command.commandId ++ (fields call ++ object call) := by
  rw [messageLength_of_write hw, ← h] at hlen
  rw [blobData, Nat.mod_eq_of_lt hlen, fields, if_pos hw, storeCmd, List.append_assoc]
  apply List.take_of_length_le
  simp only [List.length_append, length_le32, length_ids]
  omega

/-- **The layout of a message.** Packed or not, the length computed from the structure is that of
its fields and the object behind them. -/
theorem request_eq {call : RegistryCall} {msg : List UInt8} (hmsg : request call = some msg)
    (hlen : messageLength call < 2 ^ 32) :
    msg = le32 call.command.commandId ++ (fields call ++ object call) := by
  cases call with
  | storeAuthToken so | storeRoot so =>
    cases hmsg
    exact blobData_storeCmd rfl hlen (show 9 + so.length - 1 = 8 + 0 + so.length by omega)
  | storeSp spid so =>
    cases hmsg
    exact blobData_storeCmd rfl hlen (show 13 + so.length - 1 = 8 + 4 + so.length by omega)
  | storeTrustletCon uuid spid so =>
    cases hmsg
    exact blobData_storeCmd rfl hlen (show 29 + so.length - 1 = 8 + 20 + so.length by omega)
  | storeTABlob spid blob =>
    cases hmsg
    exact blobData_storeCmd rfl hlen rfl
  | storeData so => cases hmsg
  | _ =>
    cases hmsg
    show _ = _ ++ (([] ++ _) ++ [])
    rw [List.nil_append, List.append_nil]
    rfl

/-! ## What the handlers make of it -/

theorem spidOf_le32 (spid : Spid) : spidOf (le32 spid) = spid := by
  rw [spidOf, ofLe_le32, UInt32.ofNat_toNat]

theorem uuidOf_toList (uuid : Uuid) : uuidOf uuid.toList = uuid := by
  apply Vector.ext
  intro j hj
  simp [uuidOf]

theorem reads_getSpid (spid : Spid) : Reads getSpid (le32 spid) spid := by
  have hread : Reads getSpid (le32 spid) (spidOf (le32 spid)) := (reads_take (length_le32 spid)).give
  rwa [spidOf_le32] at hread

theorem reads_getUuid (uuid : Uuid) : Reads getUuid uuid.toList uuid := by
  have hread : Reads getUuid uuid.toList (uuidOf uuid.toList) := (reads_take uuid.length_toList).give
  rwa [uuidOf_toList] at hread

/-- The handler of the call is not refused, and its buffers are allocated. -/
def Served (turn : Turn) (call : RegistryCall) : Prop :=
  turn.permitted = true ∧ (call.command.isRegistryWrite → turn.malloc = true) ∧
    (call.command = .regStoreTaBlob → turn.mallocBlob = true)

theorem reads_receiveObject {turn : Turn} {call : RegistryCall}
    (hw : call.command.isRegistryWrite = true)
    (hblob : call.command = .regStoreTaBlob → turn.mallocBlob = true) :
    Reads (receiveObject turn call.command (object call).length) (ids call ++ object call) call := by
  have hobject : Reads (getField (object call).length) (object call) (object call) :=
    reads_take rfl
  cases call with
  | storeAuthToken so | storeRoot so | storeData so => exact hobject.give
  | storeSp spid so => exact (reads_getSpid spid).bind hobject.give
  | storeTrustletCon uuid spid so =>
    show Reads _ (uuid.toList ++ le32 spid ++ so) _
    rw [List.append_assoc]
    exact (reads_getUuid uuid).bind ((reads_getSpid spid).bind hobject.give)
  | storeTABlob spid blob =>
    exact (reads_getSpid spid).bind ((reads_require (hblob rfl) _).after hobject.give)
  | _ => cases hw

theorem reads_receive_query {turn : Turn} {call : RegistryCall}
    (hq : Framing.isRegistryQuery call.command = true) (hp : turn.permitted = true) :
    Reads (receive turn call.command) (ids call) call := by
  cases call with
  | readAuthToken | deleteAuthToken | readRoot | cleanupRoot =>
    exact (reads_require hp _).after reads_pure
  | readSp spid | cleanupSp spid => exact (reads_require hp _).after (reads_getSpid spid).give
  | readTrustletCon uuid spid | cleanupTrustlet uuid spid =>
    exact (reads_require hp _).after ((reads_getUuid uuid).bind (reads_getSpid spid).give)
  | _ => cases hq

/-- **What the handlers make of a message**: the call that the client made. -/
theorem reads_receive {turn : Turn} {call : RegistryCall} (h : Served turn call)
    (hlen : (object call).length < 2 ^ 32) :
    Reads (receive turn call.command) (fields call ++ object call) call := by
  obtain ⟨hp, hmalloc, hblob⟩ := h
  rcases isRegistry_command call with hw | hq
  · have hsize : ofLe (le32 (UInt32.ofNat (object call).length)) = (object call).length := by
      rw [ofLe_le32, UInt32.toNat_ofNat_of_lt' hlen]
    have hobject : Reads (receiveObject turn call.command
        (ofLe (le32 (UInt32.ofNat (object call).length)))) (ids call ++ object call) call := by
      rw [hsize]
      exact reads_receiveObject hw hblob
    rw [receive, if_pos hw, fields, if_pos hw, List.append_assoc]
    exact (reads_require hp _).after
      ((reads_take (length_le32 _)).bind ((reads_require (hmalloc hw) _).after hobject))
  · have hobject : object call = [] := by
      cases call <;> first | rfl | cases hq
    have hfields : fields call = ids call := by
      cases call <;> first | rfl | cases hq
    rw [hobject, hfields, List.append_nil]
    exact reads_receive_query hq hp

/-- A handler that makes a call of anything is not refused, and its buffers are allocated. -/
theorem served_of_receive {turn : Turn} {call call' : RegistryCall} {s rest : Stream}
    (h : receive turn call.command s = (.ok call', rest)) : Served turn call := by
  refine ⟨?_, ?_, ?_⟩
  · by_contra hp
    rw [receive_of_refused call.command (Bool.eq_false_iff.mpr hp)] at h
    cases h
  · intro hw
    rw [receive, if_pos hw] at h
    obtain ⟨_, _, -, h⟩ := of_bind_eq_ok h
    obtain ⟨_, _, -, h⟩ := of_bind_eq_ok h
    obtain ⟨_, _, hmalloc, -⟩ := of_bind_eq_ok h
    exact of_require_eq_ok hmalloc
  · intro hc
    rw [hc] at h
    obtain ⟨_, _, -, h⟩ := of_bind_eq_ok h
    obtain ⟨_, _, -, h⟩ := of_bind_eq_ok h
    obtain ⟨_, _, -, h⟩ := of_bind_eq_ok h
    obtain ⟨_, _, -, h⟩ := of_bind_eq_ok h
    obtain ⟨_, _, hmalloc, -⟩ := of_bind_eq_ok h
    exact of_require_eq_ok hmalloc

/-! ## Agreement -/

/-- The call as a command of the protocol. -/
def wire (call : RegistryCall) (hlen : (object call).length < 2 ^ 32) : WireCommand where
  command := call.command
  fixed := fields call
  data := object call
  length_fixed := length_fields call
  length_data := by
    rw [DrvCommand.dataSize]
    rcases isRegistry_command call with hw | hq
    · have htake : (fields call).take 4 = le32 (UInt32.ofNat (object call).length) := by
        rw [fields, if_pos hw]
        exact List.take_left' (length_le32 _)
      rw [if_neg (command_ne_openTrustlet call), if_pos hw, htake, ofLe_le32,
        UInt32.toNat_ofNat_of_lt' hlen]
    · cases call <;> first | rfl | cases hq

/-- **Agreement.** Whatever follows the message in the stream, the handler leaves exactly that;
what it passes on is the client's call, and a handler that is not refused passes it on. -/
def Agrees (turn : Turn) (call : RegistryCall) (msg : List UInt8) : Prop :=
  ∀ rest, ∃ r, receiveCommand turn (msg ++ rest) = (r, rest) ∧
    (∀ call', r = .ok call' → call' = call) ∧ (Served turn call → r = .ok call)

/-- What a handler leaves of a message. -/
theorem receive_wire_rest (conn : ConnState) (turn : Turn) (call : RegistryCall)
    (hlen : (object call).length < 2 ^ 32) (rest : Stream) :
    (receive turn call.command (fields call ++ (object call ++ rest))).2 =
      (fields call ++ object call).drop (Framing.taken conn (wire call hlen) turn) ++ rest := by
  obtain ⟨o, ho, hrest⟩ : ∃ o, Framing.handleCommand conn turn call.command
      (fields call ++ (object call ++ rest)) = some o ∧
        o.rest = (receive turn call.command (fields call ++ (object call ++ rest))).2 :=
    receive_rest (isRegistry_command call) _
  obtain ⟨r, hr⟩ := Framing.handleCommand_takes conn turn rest (wire call hlen)
  have hsame := Option.some.inj (ho.symm.trans hr)
  rw [← hrest, hsame]
  rfl

/-- **Client and daemon agree** on a message of the client library exactly if the handler gets as
far as its last byte. -/
theorem agrees_iff_readsWhole {turn : Turn} {call : RegistryCall} {msg : List UInt8}
    (conn : ConnState) (hmsg : request call = some msg) (hlen : messageLength call < 2 ^ 32) :
    Agrees turn call msg ↔
      Framing.ReadsWhole conn (wire call (Nat.lt_of_le_of_lt (Nat.le_add_left _ _) hlen)) turn := by
  have hobject : (object call).length < 2 ^ 32 :=
    Nat.lt_of_le_of_lt (Nat.le_add_left _ _) hlen
  have hreceive : ∀ rest, receiveCommand turn (msg ++ rest) =
      receive turn call.command (fields call ++ (object call ++ rest)) := by
    intro rest
    rw [request_eq hmsg hlen, List.append_assoc, List.append_assoc, receiveCommand_append]
  have htaken := Framing.length_le_taken_iff conn (wire call hobject) turn
  rw [Framing.length_bytes, Nat.add_le_add_iff_left] at htaken
  rw [← htaken]
  constructor
  · intro h
    obtain ⟨r, hr, -, -⟩ := h []
    have hleft := receive_wire_rest conn turn call hobject []
    rw [← hreceive, hr, List.append_nil] at hleft
    have hdrop := List.drop_eq_nil_iff.mp hleft.symm
    rwa [List.length_append] at hdrop
  · intro hle rest
    have hserved : ∀ call', (receiveCommand turn (msg ++ rest)).1 = .ok call' →
        Served turn call := by
      intro call' h
      rw [hreceive] at h
      exact served_of_receive (Prod.ext h rfl)
    have hok : Served turn call → (receiveCommand turn (msg ++ rest)).1 = .ok call := by
      intro h
      rw [hreceive, ← List.append_assoc, reads_receive h hobject rest]
    refine ⟨_, Prod.ext rfl ?_, ?_, hok⟩
    · have hleft := receive_wire_rest conn turn call hobject rest
      rw [List.drop_eq_nil_of_le (by rwa [List.length_append]), List.nil_append] at hleft
      rw [hreceive]
      exact hleft
    · intro call' h
      exact Except.ok.inj (h.symm.trans (hok (hserved call' h)))

/-- A trustlet's container of three bytes arrives as it was sent. -/
theorem agrees_storeTrustletCon :
    Agrees Framing.fairTurn (.storeTrustletCon (Vector.replicate 16 7) 5 [1, 2, 3])
      (mcRegistryStoreTrustletCon (Vector.replicate 16 7) 5 [1, 2, 3]) :=
  (agrees_iff_readsWhole ⟨false, false⟩ rfl (by decide)).mpr (by decide)

/-- The blob's bytes stay in the stream if there is no memory for them, and the loop goes on to
take them for a command. -/
theorem agrees_noMemory :
    ¬ Agrees { Framing.fairTurn with mallocBlob := false } (.storeTABlob 5 [10, 0, 0, 0])
      (mcRegistryStoreTABlob 5 [10, 0, 0, 0]) := by
  intro h
  obtain ⟨r, hr, -, -⟩ := h []
  have hrun : (receiveCommand { Framing.fairTurn with mallocBlob := false }
      (mcRegistryStoreTABlob 5 [10, 0, 0, 0] ++ [])).2 = [10, 0, 0, 0] := by decide
  rw [hr] at hrun
  cases hrun

end McDaemon.Client
