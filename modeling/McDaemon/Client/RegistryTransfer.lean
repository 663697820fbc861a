/-
# McDaemon.Client.RegistryTransfer — containers written and read back over the daemon.

Every call of the client library has a connection of its own: it sends one request, takes the
header of the answer, and for a read whatever is there of the data, since no length is sent with
it.  A container passes four limits on its way, of which the daemon's buffer is the smallest.
-/
import McDaemon.Client.RegistryRequests
import McDaemon.Daemon.RegistryReads

namespace McDaemon.Client

open McDaemon.Lib
open McDaemon.Lib.Reader
open McDaemon.Daemon
open McDaemon.Registry
open McDaemon.Daemon.Framing (Stream Turn readData readCommand)

/-! ## One connection -/

/-- The daemon at the other end: what surrounds its handlers, and what its command loop makes of
the bytes that a handler leaves in the stream. -/
structure Server where
  sur : Surroundings
  later : Fs → Stream → List UInt8 × Fs

/-- What comes back on a connection for the bytes sent, and the registry after it. -/
def Server.serve (server : Server) (s : Fs) (bytes : Stream) : List UInt8 × Fs :=
  match readCommand server.sur.turn bytes with
  | none => ([], s)
  | some (c, rest) =>
    let (reply, s, rest) := handleRegistryCommand server.sur s c rest
    if rest = [] then (reply, s)
    else
      let (more, s) := server.later s rest
      (reply ++ more, s)

/-- The response id of an answer; where the header comes up short its initial value shows. -/
def responseId (got : List UInt8) : McResult :=
  UInt32.ofNat (ofLe ((got ++ (le32 mcDrvErrInvalidParameter).drop got.length).take 4))

/-- `writeBlobData`, from the answer on.  No connection and no answer end alike. -/
def writeBlobData (reply : Stream) : McResult :=
  let (got, _) := readData 4 reply
  if got = [] then mcDrvErrDaemonSocket else responseId got

/-- The result of a read, what has been put into the caller's buffer, and its length as the caller
is told. -/
structure ReadResult where
  code : McResult
  data : List UInt8
  size : Nat
deriving DecidableEq, Repr

/-- `readBlobData`, from the answer on, for a buffer of `rlen` bytes. -/
def readBlobData (reply : Stream) (rlen : Nat) : ReadResult :=
  if rlen = 0 then ⟨mcDrvErrDaemonSocket, [], rlen⟩
  else
    let (got, rest) := readData 4 reply
    if got = [] then ⟨mcDrvErrDaemonSocket, [], rlen⟩
    else
      let (data, _) := readData rlen rest
      if data = [] then ⟨mcDrvErrDaemonSocket, [], rlen⟩
      else ⟨responseId got, data, data.length⟩

/-- A store or clean-up call of the client library. -/
def storeOver (server : Server) (s : Fs) (call : RegistryCall) : McResult × Fs :=
  match request call with
  | none => (mcDrvErrInvalidParameter, s)
  | some msg =>
    let (reply, s) := server.serve s msg
    (writeBlobData reply, s)

/-- A read call of the client library. -/
def readOver (server : Server) (s : Fs) (call : RegistryCall) (size : Nat) : ReadResult :=
  match request call with
  | none => ⟨mcDrvErrInvalidParameter, [], size⟩
  | some msg => readBlobData (server.serve s msg).1 size

/-! ## Containers -/

/-- The containers, by what they are kept under. -/
inductive ContainerKey
  | root
  | sp (spid : Spid)
  | trustlet (uuid : Uuid) (spid : Spid)
deriving DecidableEq

def ContainerKey.path : ContainerKey → List String
  | .root => getRootContFilePath
  | .sp spid => getSpContFilePath spid
  | .trustlet uuid spid => getTlContFilePath uuid spid

def ContainerKey.store (so : List UInt8) : ContainerKey → RegistryCall
  | .root => .storeRoot so
  | .sp spid => .storeSp spid so
  | .trustlet uuid spid => .storeTrustletCon uuid spid so

def ContainerKey.read : ContainerKey → RegistryCall
  | .root => .readRoot
  | .sp spid => .readSp spid
  | .trustlet uuid spid => .readTrustletCon uuid spid

/-- The daemon takes a command of this client: MobiCore is alive and the client is permitted. -/
def Server.Serves (server : Server) : Prop :=
  server.sur.turn.mcFault = false ∧ server.sur.turn.permitted = true

/-! ## Answers -/

section Answers

variable {server : Server} {s t : Fs} {key : ContainerKey} {so : List UInt8} {code : McResult}
  {size : Nat}

theorem responseId_le32 (code : McResult) : responseId (le32 code) = code := by
  have htake : (le32 code ++ (le32 mcDrvErrInvalidParameter).drop (le32 code).length).take 4 =
      le32 code := List.take_left' (length_le32 _)
  rw [responseId, htake, ofLe_le32, UInt32.ofNat_toNat]

theorem writeBlobData_le32 (code : McResult) (more : Stream) :
    writeBlobData (le32 code ++ more) = code := by
  rw [writeBlobData, readData, List.take_left' (length_le32 _)]
  dsimp only
  rw [if_neg (by simp [le32]), responseId_le32]

/-- The data of an answer, as much as there is room for. -/
theorem readBlobData_le32 (code : McResult) {data : Stream} (hsize : size ≠ 0) (hdata : data ≠ []) :
    readBlobData (le32 code ++ data) size = ⟨code, data.take size, (data.take size).length⟩ := by
  have hne : data.take size ≠ [] := fun h =>
    (List.take_eq_nil_iff.mp h).elim hsize hdata
  rw [readBlobData, if_neg hsize, readData, List.take_left' (length_le32 _),
    List.drop_left' (length_le32 _)]
  dsimp only
  rw [if_neg (by simp [le32]), readData]
  dsimp only
  rw [if_neg hne, responseId_le32]

/-- An error is not taken for a success. -/
theorem readBlobData_error {more : Stream} (hcode : code ≠ mcDrvOk) :
    (readBlobData (le32 code ++ more) size).code ≠ mcDrvOk := by
  have hsocket : mcDrvErrDaemonSocket ≠ mcDrvOk := by decide
  unfold readBlobData readData
  rw [List.take_left' (length_le32 _), List.drop_left' (length_le32 _)]
  dsimp only
  split_ifs
  · exact hsocket
  · exact hsocket
  · exact hsocket
  · rw [responseId_le32]
    exact hcode

theorem readBlobData_nil {size : Nat} : (readBlobData [] size).code ≠ mcDrvOk := by
  have hsocket : mcDrvErrDaemonSocket ≠ mcDrvOk := by decide
  unfold readBlobData
  split_ifs
  · exact hsocket
  · exact hsocket

end Answers

/-! ## What the daemon answers -/

section Serve

variable {server : Server} {s t u : Fs} {call : RegistryCall} {msg : Stream}

theorem reads_receive_nil (h : Served server.sur.turn call) (hlen : messageLength call < 2 ^ 32) :
    receive server.sur.turn call.command (fields call ++ object call) = (.ok call, []) := by
  have hobject : (object call).length < 2 ^ 32 := Nat.lt_of_le_of_lt (Nat.le_add_left _ _) hlen
  have hread := reads_receive h hobject []
  rwa [List.append_nil] at hread

/-- The daemon's answer to a store that it serves. -/
theorem serve_store (hmsg : request call = some msg) (hlen : messageLength call < 2 ^ 32)
    (hfault : server.sur.turn.mcFault = false) (h : Served server.sur.turn call)
    (hw : call.command.isRegistryWrite = true) :
    server.serve s msg = (le32 (store server.sur s call).1, (store server.sur s call).2) := by
  have hreceive := reads_receive_nil h hlen
  rw [receive, if_pos hw] at hreceive
  rw [Server.serve, request_eq hmsg hlen, Framing.readCommand_append hfault]
  dsimp only
  rw [handleRegistryCommand, if_pos hw, processRegistryWriteData, hreceive]
  rfl

/-- A store that the daemon serves gives what the registry gives. -/
theorem storeOver_served (hmsg : request call = some msg) (hlen : messageLength call < 2 ^ 32)
    (hfault : server.sur.turn.mcFault = false) (h : Served server.sur.turn call)
    (hw : call.command.isRegistryWrite = true) :
    storeOver server s call = store server.sur s call := by
  have hwrite := writeBlobData_le32 (store server.sur s call).1 []
  rw [List.append_nil] at hwrite
  rw [storeOver, hmsg]
  dsimp only
  rw [serve_store hmsg hlen hfault h hw]
  exact Prod.ext hwrite rfl

/-- The daemon's answer to a read that it serves. -/
theorem serve_read (hmsg : request call = some msg) (hlen : messageLength call < 2 ^ 32)
    (hfault : server.sur.turn.mcFault = false) (h : Served server.sur.turn call)
    (hread : isRegistryRead call.command = true) :
    server.serve s msg = (answer (readInto server.sur s call), s) := by
  have hw : ¬ call.command.isRegistryWrite = true :=
    Bool.eq_false_iff.mp (isRegistryWrite_of_read hread)
  have hreceive := reads_receive_nil h hlen
  rw [receive, if_neg hw, if_pos hread] at hreceive
  rw [Server.serve, request_eq hmsg hlen, Framing.readCommand_append hfault]
  dsimp only
  rw [handleRegistryCommand, if_neg hw, if_pos hread, processRegistryReadData, hreceive]
  rfl

/-- What a command is answered with that does not get as far as the registry. -/
theorem handleRegistryCommand_error {c : DrvCommand} {stream rest : Stream} {code : McResult}
    (h : receive server.sur.turn c stream = (.error code, rest)) :
    ∃ more, (handleRegistryCommand server.sur s c stream).1 = le32 code ++ more := by
  rw [receive] at h
  rw [handleRegistryCommand]
  by_cases hw : c.isRegistryWrite = true
  · rw [if_pos hw] at h ⊢
    rw [processRegistryWriteData, h]
    exact ⟨[], (List.append_nil _).symm⟩
  · rw [if_neg hw] at h ⊢
    by_cases hread : isRegistryRead c = true
    · rw [if_pos hread] at h ⊢
      rw [processRegistryReadData, h]
      exact ⟨_, rfl⟩
    · rw [if_neg hread] at h ⊢
      rw [processRegistryDeleteData, h]
      exact ⟨[], (List.append_nil _).symm⟩

/-- A client that is not served gets nothing, or an error. -/
theorem serve_refused (hmsg : request call = some msg) (hlen : messageLength call < 2 ^ 32)
    (h : ¬ (server.sur.turn.mcFault = false ∧ Served server.sur.turn call)) :
    (server.serve s msg).1 = [] ∨
      ∃ code more, code ≠ mcDrvOk ∧ (server.serve s msg).1 = le32 code ++ more := by
  rw [Server.serve, request_eq hmsg hlen]
  cases hfault : server.sur.turn.mcFault with
  | true =>
    left
    rw [readCommand, hfault, if_pos rfl]
  | false =>
    right
    have hserved : ¬ Served server.sur.turn call := fun hs => h ⟨hfault, hs⟩
    rw [Framing.readCommand_append hfault]
    dsimp only
    cases hreceive : receive server.sur.turn call.command (fields call ++ object call) with
    | mk r rest =>
      cases r with
      | ok call' => exact absurd (served_of_receive hreceive) hserved
      | error code =>
        have hcode : code ≠ mcDrvOk := by
          rcases refuses_receive call.command _ _ _ hreceive with rfl | rfl
          · decide
          · decide
        obtain ⟨more, hmore⟩ := handleRegistryCommand_error (s := s) hreceive
        split_ifs
        · exact ⟨code, more, hcode, hmore⟩
        · exact ⟨code, _, hcode, (congrArg (· ++ _) hmore).trans (List.append_assoc _ _ _)⟩

end Serve

/-! ## Round trip -/

section RoundTrip

variable {w r : Server} {s t u : Fs} {key : ContainerKey} {so : List UInt8} {size : Nat}

theorem store_command (key : ContainerKey) (so : List UInt8) :
    (key.store so).command.isRegistryWrite = true ∧
      (key.store so).command ≠ .regStoreTaBlob := by
  cases key with
  | root => exact ⟨rfl, fun h => by cases h⟩
  | sp spid => exact ⟨rfl, fun h => by cases h⟩
  | trustlet uuid spid => exact ⟨rfl, fun h => by cases h⟩

theorem request_store (key : ContainerKey) (so : List UInt8) :
    ∃ msg, request (key.store so) = some msg := by
  cases key <;> exact ⟨_, rfl⟩

theorem request_read (key : ContainerKey) : ∃ msg, request key.read = some msg := by
  cases key <;> exact ⟨_, rfl⟩

theorem messageLength_store (key : ContainerKey) (so : List UInt8) :
    messageLength (key.store so) ≤ 28 + so.length := by
  rw [messageLength_of_write (store_command key so).1]
  cases key with
  | root => exact Nat.add_le_add_right (show 8 + 0 ≤ 28 by decide) _
  | sp spid => exact Nat.add_le_add_right (show 8 + 4 ≤ 28 by decide) _
  | trustlet uuid spid => exact Nat.le_refl _

theorem messageLength_read (key : ContainerKey) : messageLength key.read < 2 ^ 32 := by
  cases key with
  | root => decide
  | sp spid => exact (show 8 < 2 ^ 32 by decide)
  | trustlet uuid spid =>
    rw [messageLength_of_query rfl]
    exact (show 4 + 20 + 0 < 2 ^ 32 by decide)

/-- A container that has been stored is in its file. -/
theorem get?_store {sur : Surroundings} (h : store sur s (key.store so) = (mcDrvOk, t)) :
    t.get? key.path = some (.file so) ∧ key ≠ .sp 0 := by
  have hfile : ∀ path, storeFile s path so = (mcDrvOk, t) → t.get? path = some (.file so) := by
    intro path hpath
    rw [get?_storeFile hpath, if_pos rfl]
  cases key with
  | root =>
    change Registry.mcRegistryStoreRoot s so = _ at h
    unfold Registry.mcRegistryStoreRoot at h
    split_ifs at h
    · cases h
    · exact ⟨hfile _ h, fun hkey => by cases hkey⟩
  | sp spid =>
    change Registry.mcRegistryStoreSp s spid so = _ at h
    unfold Registry.mcRegistryStoreSp at h
    split_ifs at h with hspid
    · cases h
    · refine ⟨hfile _ h, fun hkey => hspid (.inl ?_)⟩
      cases hkey
      rfl
  | trustlet uuid spid =>
    change Registry.mcRegistryStoreTrustletCon s uuid spid so = _ at h
    unfold Registry.mcRegistryStoreTrustletCon at h
    split_ifs at h
    · cases h
    · exact ⟨hfile _ h, fun hkey => by cases hkey⟩

/-- **A store that is reported as done is done.** -/
theorem get?_storeOver (hstore : storeOver w s (key.store so) = (mcDrvOk, t))
    (hso : so.length ≤ 3 * maxSoContSize) :
    t.get? key.path = some (.file so) ∧ key ≠ .sp 0 := by
  have hlen : messageLength (key.store so) < 2 ^ 32 := by
    have hle := messageLength_store key so
    have hsize : maxSoContSize = 512 := rfl
    omega
  obtain ⟨msg, hmsg⟩ := request_store key so
  by_cases hserved : w.sur.turn.mcFault = false ∧ Served w.sur.turn (key.store so)
  · rw [storeOver_served hmsg hlen hserved.1 hserved.2 (store_command key so).1] at hstore
    exact get?_store hstore
  · rw [storeOver, hmsg] at hstore
    have hcode : writeBlobData (w.serve s msg).1 = mcDrvOk := congrArg Prod.fst hstore
    rcases serve_refused (s := s) hmsg hlen hserved with hnone | ⟨code, more, hne, hreply⟩
    · rw [hnone] at hcode
      exact absurd hcode (by decide)
    · rw [hreply, writeBlobData_le32] at hcode
      exact absurd hcode hne

/-- What the handler has in its buffer when it is asked for a container that is there. -/
theorem readInto_read {sur : Surroundings} (hkey : key ≠ .sp 0) :
    readInto sur u key.read = fill sur.frame.buf (readFile u key.path maxDataSize) := by
  cases key with
  | root => rfl
  | trustlet uuid spid => rfl
  | sp spid =>
    have hspid : spid ≠ 0 := fun h => hkey (by rw [h])
    show fill sur.frame.buf (Registry.mcRegistryReadSp u spid maxDataSize) = _
    rw [Registry.mcRegistryReadSp, if_neg hspid]
    rfl

theorem served_read (h : r.Serves) (key : ContainerKey) : Served r.sur.turn key.read := by
  refine ⟨h.2, fun hw => ?_, fun hc => ?_⟩
  · cases key <;> cases hw
  · cases key <;> cases hc

theorem isRegistryRead_read (key : ContainerKey) : isRegistryRead key.read.command = true := by
  cases key <;> rfl

/-- What comes back of a container: as much as fits the daemon's buffer and the client's. -/
theorem readOver_file (hserves : r.Serves) (hfile : u.get? key.path = some (.file so))
    (hsp : key ≠ .sp 0) (hso : so ≠ []) (hsize : size ≠ 0) :
    readOver r u key.read size = ⟨mcDrvOk, (so.take maxDataSize).take size,
      ((so.take maxDataSize).take size).length⟩ := by
  obtain ⟨msg, hmsg⟩ := request_read key
  have htake : so.take maxDataSize ≠ [] := by
    intro h
    rcases List.take_eq_nil_iff.mp h with hzero | hnil
    · exact absurd hzero (by decide)
    · exact hso hnil
  have hread : readFile u key.path maxDataSize = .ok (so.take maxDataSize) :=
    readFile_eq_ok.mpr ⟨so, hfile, rfl, htake⟩
  rw [readOver, hmsg]
  dsimp only
  rw [serve_read hmsg (messageLength_read key) hserves.1 (served_read hserves key)
    (isRegistryRead_read key), readInto_read hsp, hread, answer_fill_ok,
    readBlobData_le32 mcDrvOk hsize htake]

/-- An empty container is reported as missing. -/
theorem readOver_empty (hserves : r.Serves) (hfile : u.get? key.path = some (.file []))
    (hsp : key ≠ .sp 0) : (readOver r u key.read size).code ≠ mcDrvOk := by
  obtain ⟨msg, hmsg⟩ := request_read key
  have hread : readFile u key.path maxDataSize = .error mcDrvErrInvalidDeviceFile := by
    rw [readFile, hfile]
    rfl
  rw [readOver, hmsg]
  dsimp only
  rw [serve_read hmsg (messageLength_read key) hserves.1 (served_read hserves key)
    (isRegistryRead_read key), readInto_read hsp, hread, answer_fill_error _ (by decide)]
  exact readBlobData_error (by decide)

theorem readOver_refused (hserves : ¬ r.Serves) :
    (readOver r u key.read size).code ≠ mcDrvOk := by
  obtain ⟨msg, hmsg⟩ := request_read key
  have hserved : ¬ (r.sur.turn.mcFault = false ∧ Served r.sur.turn key.read) := fun h =>
    hserves ⟨h.1, h.2.1⟩
  rw [readOver, hmsg]
  dsimp only
  rcases serve_refused (s := u) hmsg (messageLength_read key) hserved with
    hnone | ⟨code, more, hne, hreply⟩
  · rw [hnone]
    exact readBlobData_nil
  · rw [hreply]
    exact readBlobData_error hne

/-- **Round trip.** A container that the daemon has accepted is read back as it was stored exactly
if the daemon serves the reader and the container is neither empty nor larger than the daemon's
buffer. -/
theorem readBack_iff (hstore : storeOver w s (key.store so) = (mcDrvOk, t))
    (hso : so.length ≤ 3 * maxSoContSize) (hkey : u.get? key.path = t.get? key.path)
    (hsize : so.length ≤ size) :
    readOver r u key.read size = ⟨mcDrvOk, so, so.length⟩ ↔
      r.Serves ∧ 1 ≤ so.length ∧ so.length ≤ maxDataSize := by
  obtain ⟨hfile, hsp⟩ := get?_storeOver hstore hso
  rw [hfile] at hkey
  constructor
  · intro h
    have hcode : (readOver r u key.read size).code = mcDrvOk := congrArg ReadResult.code h
    have hserves : r.Serves := by
      by_contra hserves
      exact readOver_refused hserves hcode
    have hne : so ≠ [] := by
      rintro rfl
      exact readOver_empty hserves hkey hsp hcode
    have hpos : 1 ≤ so.length := List.length_pos_iff.mpr hne
    rw [readOver_file hserves hkey hsp hne (by omega)] at h
    have hlength : ((so.take maxDataSize).take size).length = so.length :=
      congrArg ReadResult.size h
    rw [List.length_take, List.length_take] at hlength
    exact ⟨hserves, hpos, by omega⟩
  · rintro ⟨hserves, hpos, hle⟩
    rw [readOver_file hserves hkey hsp (List.length_pos_iff.mp hpos) (by omega),
      List.take_of_length_le hle, List.take_of_length_le hsize]

end RoundTrip

/-! ## Two root containers -/

/-- A daemon whose command loop has nothing to do with what is left over. -/
def fairServer : Server := ⟨fairSurroundings, fun s _ => ([], s)⟩

theorem fairServer_serves : fairServer.Serves := ⟨rfl, rfl⟩

/-- A fresh registry takes any root container that is not too long. -/
theorem storeOver_fresh {so : List UInt8} (hso : so.length ≤ 3 * maxSoContSize) :
    ∃ t, storeOver fairServer freshRegistry (ContainerKey.root.store so) = (mcDrvOk, t) := by
  obtain ⟨t, ht⟩ : ∃ t, storeFile freshRegistry (inRegistry rootContName) so = (mcDrvOk, t) :=
    storeFile_inRegistry rfl rfl
  have hstore : store fairSurroundings freshRegistry (.storeRoot so) = (mcDrvOk, t) := by
    show Registry.mcRegistryStoreRoot freshRegistry so = _
    rw [Registry.mcRegistryStoreRoot, if_neg (Nat.not_lt.mpr hso)]
    exact ht
  have hlen : messageLength (ContainerKey.root.store so) < 2 ^ 32 := by
    have hle := messageLength_store .root so
    have hsize : maxSoContSize = 512 := rfl
    omega
  have hserved : Served fairServer.sur.turn (ContainerKey.root.store so) :=
    ⟨rfl, fun _ => rfl, fun h => by cases h⟩
  exact ⟨t, (storeOver_served rfl hlen rfl hserved rfl).trans hstore⟩

/-- A root container of one byte comes back. -/
theorem readBack_shortRoot :
    readOver fairServer shortRoot ContainerKey.root.read 512 = ⟨mcDrvOk, [7], 1⟩ := by
  have hstore : storeOver fairServer freshRegistry (ContainerKey.root.store [7]) =
      (mcDrvOk, shortRoot) := rfl
  exact (readBack_iff hstore (by decide) rfl (by decide)).mpr ⟨fairServer_serves, by decide, by decide⟩

/-- Of a root container of 513 bytes, which is accepted, the first 512 come back as the whole. -/
theorem readBack_truncated :
    ∃ t, storeOver fairServer freshRegistry (ContainerKey.root.store (List.replicate 513 7)) =
        (mcDrvOk, t) ∧
      readOver fairServer t ContainerKey.root.read 1536 =
        ⟨mcDrvOk, List.replicate 512 7, 512⟩ ∧
      readOver fairServer t ContainerKey.root.read 1536 ≠
        ⟨mcDrvOk, List.replicate 513 7, 513⟩ := by
  have hso : (List.replicate 513 (7 : UInt8)).length ≤ 3 * maxSoContSize := by
    rw [List.length_replicate]
    decide
  obtain ⟨t, ht⟩ := storeOver_fresh hso
  obtain ⟨hfile, hsp⟩ := get?_storeOver ht hso
  have hne : List.replicate 513 (7 : UInt8) ≠ [] := List.replicate_succ_ne_nil
  have hread : readOver fairServer t ContainerKey.root.read 1536 =
      ⟨mcDrvOk, List.replicate 512 7, 512⟩ := by
    rw [readOver_file fairServer_serves hfile hsp hne (by decide), maxDataSize,
      List.take_replicate, List.take_replicate, List.length_replicate]
    rfl
  refine ⟨t, ht, hread, ?_⟩
  rw [hread]
  intro h
  exact absurd (congrArg ReadResult.size h) (by decide)

end McDaemon.Client
