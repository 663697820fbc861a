/-
# McDaemon.Daemon.NetlinkServer — which connection a message from the kernel reaches.

Clients in the kernel share one netlink socket.  A message names its client by process id and
sequence number; the server packs the two into one key and hands the message to the connection that
it has under this key, or to a new one.  The process id is signed where the key is made, and its
sign ends up in the half of the sequence number: for a process id with the top bit set, all
sequence numbers have one key.
-/
import Mathlib.Tactic.SplitIfs
import McDaemon.Lib.Machine
import McDaemon.Lib.PtrList

namespace McDaemon.Daemon

open McDaemon.Lib

/-! ## The key -/

/-- `hashConnection`.  `pid_t` is an `int`, so it is sign-extended. -/
def hashConnection (pid seq : UInt32) : UInt64 :=
  (seq.toUInt64 <<< 32) ||| pid.toInt32.toInt64.toUInt64

/-- The lower half of the key is the process id, and its sign covers the upper half. -/
theorem getLsbD_hashConnection (pid seq : UInt32) {i : Nat} (hi : i < 64) :
    (hashConnection pid seq).toBitVec.getLsbD i =
      if i < 32 then pid.toBitVec.getLsbD i
      else (seq.toBitVec.getLsbD (i - 32) || pid.toBitVec.msb) := by
  have hbits : (hashConnection pid seq).toBitVec =
      (seq.toBitVec.setWidth 64 <<< 32) ||| pid.toBitVec.signExtend 64 := by
    simp [hashConnection]
  rw [hbits]
  simp only [BitVec.getLsbD_or, BitVec.getLsbD_shiftLeft, BitVec.getLsbD_signExtend,
    BitVec.getLsbD_setWidth]
  split_ifs with hlow
  · simp [hi, hlow]
  · have hhigh : i - 32 < 64 := by omega
    simp [hi, hlow, hhigh]

theorem msb_eq_false_iff {pid : UInt32} : pid.toBitVec.msb = false ↔ pid < 0x80000000 := by
  rw [BitVec.msb_eq_false_iff_two_mul_lt, UInt32.lt_iff_toNat_lt]
  show 2 * pid.toNat < 2 ^ 32 ↔ pid.toNat < 2147483648
  omega

/-- Two clients have one key exactly if they share a process id, and it is negative or the sequence
numbers are the same too. -/
theorem hashConnection_eq_iff {pid seq pid' seq' : UInt32} :
    hashConnection pid seq = hashConnection pid' seq' ↔
      pid = pid' ∧ (pid < 0x80000000 → seq = seq') := by
  constructor
  · intro h
    have hbit : ∀ i, i < 64 → (hashConnection pid seq).toBitVec.getLsbD i =
        (hashConnection pid' seq').toBitVec.getLsbD i := by
      intro i _
      rw [h]
    have hpid : pid = pid' := by
      apply UInt32.toBitVec_inj.mp
      apply BitVec.eq_of_getLsbD_eq
      intro i hi
      have hlow := hbit i (by omega)
      rwa [getLsbD_hashConnection _ _ (by omega), getLsbD_hashConnection _ _ (by omega), if_pos hi,
        if_pos hi] at hlow
    refine ⟨hpid, fun hpos => ?_⟩
    subst hpid
    apply UInt32.toBitVec_inj.mp
    apply BitVec.eq_of_getLsbD_eq
    intro i hi
    have hnot : ¬ i + 32 < 32 := by omega
    have hhigh := hbit (i + 32) (by omega)
    rwa [getLsbD_hashConnection _ _ (by omega), getLsbD_hashConnection _ _ (by omega), if_neg hnot,
      if_neg hnot, Nat.add_sub_cancel, msb_eq_false_iff.mpr hpos, Bool.or_false,
      Bool.or_false] at hhigh
  · rintro ⟨rfl, hseq⟩
    apply UInt64.toBitVec_inj.mp
    apply BitVec.eq_of_getLsbD_eq
    intro i hi
    rw [getLsbD_hashConnection _ _ hi, getLsbD_hashConnection _ _ hi]
    by_cases hpos : pid < 0x80000000
    · rw [hseq hpos]
    · have hmsb : pid.toBitVec.msb = true := by
        rw [← Bool.not_eq_false, msb_eq_false_iff]
        exact hpos
      simp [hmsb]

/-! ## The server -/

/-- `NetlinkConnection`. -/
structure NetlinkConnection where
  peerPid : UInt32
  sequenceMagic : UInt32
  hash : UInt64
  detached : Bool
deriving DecidableEq, Repr

/-- A message that has been handed to a connection: the client it is from, and the one that the
connection was made for. -/
structure Routed where
  pid : UInt32
  seq : UInt32
  peerPid : UInt32
  sequenceMagic : UInt32
deriving DecidableEq, Repr

/-- The connections that exist, and the map that the server finds them in, in the order of the
keys. -/
structure NetlinkState where
  connections : PtrList NetlinkConnection
  peerConnections : List (UInt64 × Nat)
  routed : List Routed

/-- What a message meets: which processes are alive, which detached connections the device deletes
when a connection is dropped and when the command is handled, and how handling ends. -/
structure Surrounding where
  alive : UInt32 → Bool
  drops : Nat → List Nat
  handled : List Nat
  processed : Bool
  detaches : Bool
  hasDevice : Bool

namespace NetlinkState

/-- `peerConnections[hash] = connection`. -/
def insertEntry (hash : UInt64) (p : Nat) : List (UInt64 × Nat) → List (UInt64 × Nat)
  | [] => [(hash, p)]
  | e :: es =>
    if hash < e.1 then (hash, p) :: e :: es
    else if e.1 < hash then e :: insertEntry hash p es
    else (hash, p) :: es

/-- `findConnection`. -/
def findConnection (s : NetlinkState) (hash : UInt64) : Option Nat :=
  (s.peerConnections.find? (·.1 = hash)).map Prod.snd

/-- `removeConnection`. -/
def removeConnection (s : NetlinkState) (hash : UInt64) : NetlinkState :=
  { s with peerConnections := s.peerConnections.filter (·.1 ≠ hash) }

/-- `delete connection`: the destructor takes the key off the map. -/
def delete (s : NetlinkState) (p : Nat) : NetlinkState :=
  match s.connections.get? p with
  | none => s
  | some c => { s.removeConnection c.hash with connections := s.connections.remove p }

/-- The device deletes the connections that were detached for its sessions. -/
def deleteDetached (s : NetlinkState) (p : Nat) : NetlinkState :=
  match s.connections.get? p with
  | none => s
  | some c => if c.detached then s.delete p else s

/-- `connectionHandler->dropConnection(connection)`, as far as connections are concerned. -/
def dropConnection (s : NetlinkState) (env : Surrounding) (p : Nat) : NetlinkState :=
  (env.drops p).foldl deleteDetached s

/-- The peer process of a connection is gone.  Only 16 bits are for the actual process id. -/
def dead (s : NetlinkState) (env : Surrounding) (p : Nat) : Bool :=
  match s.connections.get? p with
  | none => false
  | some c => c.peerPid &&& 0xffff ≠ 0 && !env.alive (c.peerPid &&& 0xffff)

/-- The clean-up of one connection whose process is gone. -/
def reap (s : NetlinkState) (env : Surrounding) (p : Nat) : NetlinkState :=
  match s.connections.get? p with
  | none => s
  | some c =>
    let s := (s.dropConnection env p).removeConnection c.hash
    if c.detached then s else s.delete p

/-- The loop of `cleanupConnections`, from the `k`-th entry from the back.  After a removal it
starts again from the back, and the increment of the loop skips the last entry. -/
def cleanupRounds (env : Surrounding) : Nat → Nat → NetlinkState → NetlinkState
  | 0, _, s => s
  | n + 1, k, s =>
    match (s.peerConnections.reverse.drop k).find? (fun e => s.dead env e.2) with
    | none => s
    | some e =>
      let s := s.reap env e.2
      if s.peerConnections = [] then s else cleanupRounds env n 1 s

/-- `cleanupConnections`.  Every round takes an entry off the map. -/
def cleanupConnections (s : NetlinkState) (env : Surrounding) : NetlinkState :=
  cleanupRounds env s.peerConnections.length 0 s

/-- A new connection for a client, under its key. -/
def newConnection (s : NetlinkState) (pid seq : UInt32) : NetlinkState :=
  { s with
    connections := s.connections.push ⟨pid, seq, hashConnection pid seq, false⟩
    peerConnections := insertEntry (hashConnection pid seq) s.connections.fresh s.peerConnections }

/-- The connection that a message is for, made if there is none. -/
def route (s : NetlinkState) (pid seq : UInt32) : Nat × NetlinkState :=
  match s.findConnection (hashConnection pid seq) with
  | some p => (p, s)
  | none => (s.connections.fresh, s.newConnection pid seq)

/-- The command of a connection that is not detached is handled. -/
def serve (s : NetlinkState) (env : Surrounding) (hash : UInt64) (p : Nat) : NetlinkState :=
  let s := env.handled.foldl deleteDetached s
  if env.processed = false then ((s.dropConnection env p).removeConnection hash).delete p
  else if env.hasDevice = false ∧ env.detaches = false then s.delete p
  else { s with connections := s.connections.modify p ({ · with detached := env.detaches }) }

/-- `handleMessage`.  `none` is a use of a connection that does not exist. -/
def handleMessage (s : NetlinkState) (env : Surrounding) (pid seq : UInt32) :
    Option NetlinkState := do
  let (p, s) := (s.cleanupConnections env).route pid seq
  let c ← s.connections.get? p
  let s := { s with routed := s.routed ++ [⟨pid, seq, c.peerPid, c.sequenceMagic⟩] }
  if c.detached then pure s else pure (s.serve env (hashConnection pid seq) p)

def init : NetlinkState := { connections := .empty, peerConnections := [], routed := [] }

end NetlinkState

/-- What happens to the server: messages, and sessions of the device that end beside it. -/
inductive NetlinkAction
  | message (pid seq : UInt32) (env : Surrounding)
  | sessionEnds (p : Nat)

/-- The netlink server. -/
def netlinkMachine : Machine NetlinkState NetlinkAction where
  init := (· = .init)
  step := fun s a =>
    match a with
    | .message pid seq env => s.handleMessage env pid seq
    | .sessionEnds p => some (s.deleteDetached p)

/-! ## What the map and the connections have in common -/

/-- Every entry of the map is a connection with this key, and a connection has the key of its
client. -/
structure Keyed (s : NetlinkState) : Prop where
  entries : ∀ e ∈ s.peerConnections, ∃ c, s.connections.get? e.2 = some c ∧ c.hash = e.1
  hashes : ∀ p c, s.connections.get? p = some c →
    c.hash = hashConnection c.peerPid c.sequenceMagic
  sorted : s.peerConnections.Pairwise fun e d => e.1 < d.1

section Keyed

variable {s : NetlinkState} {env : Surrounding}

theorem Keyed.removeConnection (h : Keyed s) (hash : UInt64) : Keyed (s.removeConnection hash) where
  entries := fun e he => h.entries e (List.mem_of_mem_filter he)
  hashes := h.hashes
  sorted := h.sorted.filter _

theorem Keyed.delete (h : Keyed s) (p : Nat) : Keyed (s.delete p) := by
  unfold NetlinkState.delete
  cases hp : s.connections.get? p with
  | none => exact h
  | some c =>
    refine ⟨fun e he => ?_, fun q d hq => ?_, h.sorted.filter _⟩
    · obtain ⟨hmem, hne⟩ := List.mem_filter.mp he
      obtain ⟨d, hd, hhash⟩ := h.entries e hmem
      refine ⟨d, ?_, hhash⟩
      -- the entry is not that of the connection itself, which has another key
      have hq : e.2 ≠ p := by
        intro heq
        rw [heq, hp] at hd
        cases hd
        simp [hhash] at hne
      rw [PtrList.get?_remove, if_neg hq]
      exact hd
    · rw [PtrList.get?_remove] at hq
      split_ifs at hq
      exact h.hashes q d hq

theorem Keyed.deleteDetached (h : Keyed s) (p : Nat) : Keyed (s.deleteDetached p) := by
  unfold NetlinkState.deleteDetached
  split
  · exact h
  · split_ifs
    · exact Keyed.delete h p
    · exact h

theorem Keyed.deleteAll (h : Keyed s) (ps : List Nat) :
    Keyed (ps.foldl NetlinkState.deleteDetached s) := by
  induction ps generalizing s with
  | nil => exact h
  | cons p ps ih => exact ih (Keyed.deleteDetached h p)

theorem Keyed.reap (h : Keyed s) (p : Nat) : Keyed (s.reap env p) := by
  unfold NetlinkState.reap
  split
  · exact h
  · next c _ =>
    have hdropped := Keyed.removeConnection (Keyed.deleteAll h (env.drops p)) c.hash
    dsimp only
    split_ifs
    · exact hdropped
    · exact Keyed.delete hdropped p

theorem Keyed.cleanupRounds (h : Keyed s) (n k : Nat) :
    Keyed (NetlinkState.cleanupRounds env n k s) := by
  induction n generalizing k s with
  | zero => exact h
  | succ n ih =>
    unfold NetlinkState.cleanupRounds
    split
    · exact h
    · next e _ =>
      dsimp only
      split_ifs
      · exact Keyed.reap h e.2
      · exact ih (Keyed.reap h e.2) 1

theorem NetlinkState.sublist_delete (s : NetlinkState) (p : Nat) :
    (s.delete p).peerConnections.Sublist s.peerConnections := by
  unfold delete
  split
  · exact List.Sublist.refl _
  · exact List.filter_sublist

theorem NetlinkState.sublist_deleteAll (s : NetlinkState) (ps : List Nat) :
    (ps.foldl deleteDetached s).peerConnections.Sublist s.peerConnections := by
  induction ps generalizing s with
  | nil => exact List.Sublist.refl _
  | cons p ps ih =>
    refine (ih (s.deleteDetached p)).trans ?_
    unfold deleteDetached
    split
    · exact List.Sublist.refl _
    · split_ifs
      · exact s.sublist_delete p
      · exact List.Sublist.refl _

/-- A clean-up takes the entry of its connection off the map and adds none. -/
theorem Keyed.length_reap (h : Keyed s) {e : UInt64 × Nat} (he : e ∈ s.peerConnections) :
    (s.reap env e.2).peerConnections.length < s.peerConnections.length := by
  obtain ⟨c, hc, hkey⟩ := h.entries e he
  have hsub : (s.reap env e.2).peerConnections.Sublist
      ((s.dropConnection env e.2).removeConnection c.hash).peerConnections := by
    unfold NetlinkState.reap
    rw [hc]
    dsimp only
    split_ifs
    · exact List.Sublist.refl _
    · exact NetlinkState.sublist_delete _ e.2
  have hdropped := s.sublist_deleteAll (env.drops e.2)
  have hall := (hsub.trans List.filter_sublist).trans hdropped
  apply Nat.lt_of_le_of_ne hall.length_le
  intro hlen
  have hmem : e ∈ (s.reap env e.2).peerConnections := by
    rw [hall.eq_of_length hlen]
    exact he
  have hne := (List.mem_filter.mp (hsub.subset hmem)).2
  simp [hkey] at hne

/-- The clean-up ends by itself: rounds beyond the number of entries change nothing. -/
theorem Keyed.cleanupRounds_succ (h : Keyed s) {n : Nat} (hn : s.peerConnections.length ≤ n)
    (k : Nat) : NetlinkState.cleanupRounds env (n + 1) k s =
      NetlinkState.cleanupRounds env n k s := by
  induction n generalizing k s with
  | zero =>
    have hnil : s.peerConnections = [] := List.length_eq_zero_iff.mp (by omega)
    simp [NetlinkState.cleanupRounds, hnil]
  | succ n ih =>
    rw [NetlinkState.cleanupRounds]
    conv_rhs => rw [NetlinkState.cleanupRounds]
    cases hfind : (s.peerConnections.reverse.drop k).find? (fun e => s.dead env e.2) with
    | none => rfl
    | some e =>
      have he : e ∈ s.peerConnections :=
        List.mem_reverse.mp (List.mem_of_mem_drop (List.mem_of_find?_eq_some hfind))
      have hlt : (s.reap env e.2).peerConnections.length < s.peerConnections.length :=
        h.length_reap he
      dsimp only
      split_ifs
      · rfl
      · exact ih (h.reap e.2) (by omega) 1

theorem NetlinkState.mem_insertEntry {hash : UInt64} {p : Nat} {es : List (UInt64 × Nat)}
    {e : UInt64 × Nat} (h : e ∈ NetlinkState.insertEntry hash p es) : e = (hash, p) ∨ e ∈ es := by
  induction es with
  | nil => simpa [NetlinkState.insertEntry] using h
  | cons d es ih =>
    unfold NetlinkState.insertEntry at h
    split_ifs at h
    · simpa using h
    · rcases List.mem_cons.mp h with rfl | h
      · exact Or.inr List.mem_cons_self
      · exact (ih h).imp_right (List.mem_cons_of_mem _)
    · rcases List.mem_cons.mp h with rfl | h
      · exact Or.inl rfl
      · exact Or.inr (List.mem_cons_of_mem _ h)

theorem NetlinkState.pairwise_insertEntry {hash : UInt64} {p : Nat} {es : List (UInt64 × Nat)}
    (h : es.Pairwise fun e d => e.1 < d.1) :
    (insertEntry hash p es).Pairwise fun e d => e.1 < d.1 := by
  induction es with
  | nil => simp [insertEntry]
  | cons e es ih =>
    obtain ⟨hhead, htail⟩ := List.pairwise_cons.mp h
    unfold insertEntry
    split_ifs with hlt hgt
    · refine List.pairwise_cons.mpr ⟨fun d hd => ?_, h⟩
      rcases List.mem_cons.mp hd with rfl | hd
      · exact hlt
      · exact UInt64.lt_trans hlt (hhead d hd)
    · refine List.pairwise_cons.mpr ⟨fun d hd => ?_, ih htail⟩
      rcases mem_insertEntry hd with rfl | hd
      · exact hgt
      · exact hhead d hd
    · have heq : e.1 = hash := UInt64.le_antisymm (UInt64.not_lt.mp hlt) (UInt64.not_lt.mp hgt)
      refine List.pairwise_cons.mpr ⟨fun d hd => ?_, htail⟩
      show hash < d.1
      rw [← heq]
      exact hhead d hd

theorem Keyed.newConnection (h : Keyed s) (pid seq : UInt32) :
    Keyed (s.newConnection pid seq) where
  entries := by
    intro e he
    rcases NetlinkState.mem_insertEntry he with rfl | he
    · refine ⟨⟨pid, seq, hashConnection pid seq, false⟩, ?_, rfl⟩
      show (s.connections.push _).get? _ = _
      rw [PtrList.get?_push, if_pos rfl]
    · obtain ⟨c, hc, hhash⟩ := h.entries e he
      refine ⟨c, ?_, hhash⟩
      show (s.connections.push _).get? _ = _
      rw [PtrList.get?_push, if_neg (Nat.ne_of_lt (PtrList.lt_fresh_of_get? hc))]
      exact hc
  hashes := by
    intro p c hp
    change (s.connections.push _).get? p = some c at hp
    rw [PtrList.get?_push] at hp
    split_ifs at hp
    · cases hp
      rfl
    · exact h.hashes p c hp
  sorted := NetlinkState.pairwise_insertEntry h.sorted

theorem Keyed.serve (h : Keyed s) (hash : UInt64) (p : Nat) : Keyed (s.serve env hash p) := by
  have hhandled := h.deleteAll env.handled
  unfold NetlinkState.serve
  dsimp only
  split_ifs
  · exact ((hhandled.deleteAll (env.drops p)).removeConnection hash).delete p
  · exact hhandled.delete p
  · generalize env.handled.foldl NetlinkState.deleteDetached s = u at hhandled
    -- the connection may be detached now, and stays what it was otherwise
    have hget : ∀ q c, (u.connections.modify p ({ · with detached := env.detaches })).get? q =
        some c → ∃ d, u.connections.get? q = some d ∧ c.hash = d.hash ∧
          c.peerPid = d.peerPid ∧ c.sequenceMagic = d.sequenceMagic := by
      intro q c hc
      rw [PtrList.get?_modify] at hc
      split_ifs at hc
      · obtain ⟨d, hd, rfl⟩ := Option.map_eq_some_iff.mp hc
        exact ⟨d, hd, rfl, rfl, rfl⟩
      · exact ⟨c, hc, rfl, rfl, rfl⟩
    refine ⟨fun e he => ?_, fun q c hc => ?_, hhandled.sorted⟩
    · obtain ⟨d, hd, hhash⟩ := hhandled.entries e he
      show ∃ c, (u.connections.modify p _).get? e.2 = some c ∧ _
      rw [PtrList.get?_modify]
      split_ifs
      · rw [hd]
        exact ⟨_, rfl, hhash⟩
      · exact ⟨d, hd, hhash⟩
    · obtain ⟨d, hd, hh, hpid, hseq⟩ := hget q c hc
      rw [hh, hpid, hseq]
      exact hhandled.hashes q d hd

theorem Keyed.cleanupConnections (h : Keyed s) : Keyed (s.cleanupConnections env) :=
  h.cleanupRounds _ 0

/-- An entry is found under its key. -/
theorem Keyed.findConnection (h : Keyed s) {e : UInt64 × Nat} (he : e ∈ s.peerConnections) :
    s.findConnection e.1 = some e.2 := by
  have hfind : ∀ es : List (UInt64 × Nat), (es.Pairwise fun e d => e.1 < d.1) → e ∈ es →
      es.find? (·.1 = e.1) = some e := by
    intro es hes he
    induction es with
    | nil => cases he
    | cons d es ih =>
      obtain ⟨hhead, htail⟩ := List.pairwise_cons.mp hes
      rcases List.mem_cons.mp he with rfl | he
      · simp
      · have hne : ¬ d.1 = e.1 := UInt64.ne_of_lt (hhead e he)
        rw [List.find?_cons_of_neg (by simpa using hne)]
        exact ih htail he
  show (s.peerConnections.find? (·.1 = e.1)).map Prod.snd = _
  rw [hfind _ h.sorted he]
  rfl

/-- A client whose process id is negative has the keys of all sequence numbers. -/
theorem Keyed.key_of_negative (h : Keyed s) {e : UInt64 × Nat} {c : NetlinkConnection}
    (he : e ∈ s.peerConnections) (hc : s.connections.get? e.2 = some c) (seq : UInt32)
    (hneg : ¬ c.peerPid < 0x80000000) : e.1 = hashConnection c.peerPid seq := by
  obtain ⟨d, hd, hkey⟩ := h.entries e he
  obtain rfl : d = c := Option.some.inj (hd.symm.trans hc)
  rw [← hkey, h.hashes _ d hd]
  exact hashConnection_eq_iff.mpr ⟨rfl, fun hpos => absurd hpos hneg⟩

/-- What is found is a connection with the key, so one for the same process. -/
theorem Keyed.of_findConnection (h : Keyed s) {pid seq : UInt32} {p : Nat}
    (hfind : s.findConnection (hashConnection pid seq) = some p) :
    ∃ e ∈ s.peerConnections, e.2 = p ∧ ∃ c, s.connections.get? p = some c ∧
      c.peerPid = pid ∧ (pid < 0x80000000 → c.sequenceMagic = seq) := by
  obtain ⟨e, he, rfl⟩ := Option.map_eq_some_iff.mp hfind
  have hkey : e.1 = hashConnection pid seq := by simpa using List.find?_some he
  have hmem := List.mem_of_find?_eq_some he
  obtain ⟨c, hc, hhash⟩ := h.entries e hmem
  have hclient := h.hashes _ c hc
  rw [hhash, hkey, hashConnection_eq_iff] at hclient
  exact ⟨e, hmem, rfl, c, hc, hclient.1.symm, fun hpos => (hclient.2 hpos).symm⟩

end Keyed

/-! ## Routing -/

/-- Every message went to the connection that was made for its own client. -/
def RoutesOwn (s : NetlinkState) : Prop :=
  ∀ r ∈ s.routed, r.peerPid = r.pid ∧ r.sequenceMagic = r.seq

/-- The process id of a message is not negative, or the map has no other client of this process
when it is searched. -/
def KeepsApart (s : NetlinkState) : NetlinkAction → Prop
  | .message pid seq env =>
    pid < 0x80000000 ∨ ∀ e ∈ (s.cleanupConnections env).peerConnections, ∀ c,
      (s.cleanupConnections env).connections.get? e.2 = some c → c.peerPid = pid →
        c.sequenceMagic = seq
  | .sessionEnds _ => True

section Routing

variable {s t : NetlinkState} {env : Surrounding}

@[simp] theorem NetlinkState.routed_delete (s : NetlinkState) (p : Nat) :
    (s.delete p).routed = s.routed := by
  unfold delete
  split <;> rfl

@[simp] theorem NetlinkState.routed_deleteDetached (s : NetlinkState) (p : Nat) :
    (s.deleteDetached p).routed = s.routed := by
  unfold deleteDetached
  split
  · rfl
  · split_ifs
    · exact s.routed_delete p
    · rfl

@[simp] theorem NetlinkState.routed_deleteAll (s : NetlinkState) (ps : List Nat) :
    (ps.foldl deleteDetached s).routed = s.routed := by
  induction ps generalizing s with
  | nil => rfl
  | cons p ps ih => exact (ih _).trans (s.routed_deleteDetached p)

theorem NetlinkState.routed_reap (s : NetlinkState) (p : Nat) :
    (s.reap env p).routed = s.routed := by
  unfold reap
  split
  · rfl
  · dsimp only
    split_ifs
    · exact s.routed_deleteAll (env.drops p)
    · exact (routed_delete _ p).trans (s.routed_deleteAll (env.drops p))

theorem NetlinkState.routed_cleanupRounds (n k : Nat) (s : NetlinkState) :
    (cleanupRounds env n k s).routed = s.routed := by
  induction n generalizing k s with
  | zero => rfl
  | succ n ih =>
    unfold cleanupRounds
    split
    · rfl
    · next e _ =>
      dsimp only
      split_ifs
      · exact s.routed_reap e.2
      · exact (ih 1 _).trans (s.routed_reap e.2)

theorem NetlinkState.routed_serve (s : NetlinkState) (hash : UInt64) (p : Nat) :
    (s.serve env hash p).routed = s.routed := by
  unfold serve
  dsimp only
  split_ifs
  · rw [routed_delete]
    show (dropConnection _ env p).routed = _
    unfold dropConnection
    rw [routed_deleteAll, routed_deleteAll]
  · rw [routed_delete, routed_deleteAll]
  · exact s.routed_deleteAll env.handled

/-- The connection that a message reaches: it is for the same process, and for the same client
exactly if no other one of the process is in the way. -/
theorem Keyed.route (h : Keyed s) (pid seq : UInt32) :
    Keyed (s.route pid seq).2 ∧ (s.route pid seq).2.routed = s.routed ∧
      ∃ c, (s.route pid seq).2.connections.get? (s.route pid seq).1 = some c ∧ c.peerPid = pid ∧
        (c.sequenceMagic = seq ↔ pid < 0x80000000 ∨ ∀ e ∈ s.peerConnections, ∀ c,
          s.connections.get? e.2 = some c → c.peerPid = pid → c.sequenceMagic = seq) := by
  unfold NetlinkState.route
  cases hfind : s.findConnection (hashConnection pid seq) with
  | none =>
    refine ⟨h.newConnection pid seq, rfl, ⟨pid, seq, hashConnection pid seq, false⟩, ?_, rfl,
      ⟨fun _ => ?_, fun _ => rfl⟩⟩
    · show (s.connections.push _).get? _ = _
      rw [PtrList.get?_push, if_pos rfl]
    · rw [Classical.or_iff_not_imp_left]
      rintro hneg e he c hc rfl
      -- a client of this process would have been found under the key
      have hfound := h.findConnection he
      rw [h.key_of_negative he hc seq hneg, hfind] at hfound
      cases hfound
  | some p =>
    obtain ⟨e, he, rfl, c, hc, hpid, hseq⟩ := h.of_findConnection hfind
    refine ⟨h, rfl, c, hc, hpid, ⟨fun hown => ?_, ?_⟩⟩
    · rw [Classical.or_iff_not_imp_left]
      rintro hneg d hd c' hc' rfl
      -- the key of the message is that of the other client too
      have hfound := h.findConnection hd
      rw [h.key_of_negative hd hc' seq hneg, hfind, Option.some.injEq] at hfound
      rw [← hfound, hc, Option.some.injEq] at hc'
      rw [← hc']
      exact hown
    · rintro (hpos | hapart)
      · exact hseq hpos
      · exact hapart e he c hc hpid

theorem NetlinkState.routed_cleanupConnections (s : NetlinkState) :
    (s.cleanupConnections env).routed = s.routed :=
  routed_cleanupRounds _ 0 s

/-- A message is handed to one connection, which is for the same process and, where clients are
kept apart, for the same client. -/
theorem Keyed.handleMessage (h : Keyed s) {pid seq : UInt32}
    (hm : s.handleMessage env pid seq = some t) :
    Keyed t ∧ ∃ magic, t.routed = s.routed ++ [⟨pid, seq, pid, magic⟩] ∧
      (magic = seq ↔ KeepsApart s (.message pid seq env)) := by
  have hclean : Keyed (s.cleanupConnections env) := h.cleanupConnections
  obtain ⟨hkeyed, hrouted, c, hc, rfl, hown⟩ := hclean.route pid seq
  rw [s.routed_cleanupConnections] at hrouted
  unfold NetlinkState.handleMessage at hm
  dsimp only at hm
  rw [hc] at hm
  have hlogged : Keyed { ((s.cleanupConnections env).route c.peerPid seq).2 with
      routed := ((s.cleanupConnections env).route c.peerPid seq).2.routed ++
        [⟨c.peerPid, seq, c.peerPid, c.sequenceMagic⟩] } :=
    ⟨hkeyed.entries, hkeyed.hashes, hkeyed.sorted⟩
  simp only [Option.bind_eq_bind, Option.bind_some] at hm
  rw [hrouted] at hm hlogged
  split_ifs at hm
  · cases hm
    exact ⟨hlogged, c.sequenceMagic, rfl, hown⟩
  · cases hm
    exact ⟨hlogged.serve _ _, c.sequenceMagic, NetlinkState.routed_serve _ _ _, hown⟩

/-- **One key for many clients.** Two clients have the same key exactly if they share a process id,
and it is negative or the sequence numbers agree.  So a run of the server hands every message to the
connection of its own client exactly when each message has a process id that is not negative, or
finds no other client of its process in the map. -/
theorem routesOwn_iff_keepsApart {as : List NetlinkAction} {t : NetlinkState}
    (hrun : netlinkMachine.run .init as = some t) :
    (∀ pid seq pid' seq' : UInt32,
      (hashConnection pid seq = hashConnection pid' seq' → pid = pid' ∧ seq = seq') ↔
        ¬ (pid = pid' ∧ 0x80000000 ≤ pid ∧ seq ≠ seq')) ∧
    (netlinkMachine.RunStays RoutesOwn .init as ↔
      netlinkMachine.RunMeets KeepsApart .init as) := by
  refine ⟨fun pid seq pid' seq' => ?_, ?_⟩
  · rw [hashConnection_eq_iff, ← UInt32.not_lt]
    tauto
  refine netlinkMachine.runStays_iff_runMeets (I := fun s => RoutesOwn s ∧ Keyed s)
    (fun _ hi => hi.1) ?_ ?_ ⟨by simp [RoutesOwn, NetlinkState.init], ?_⟩ hrun
  · rintro s a t ⟨hown, hkeyed⟩ hstep hapart
    cases a with
    | sessionEnds p =>
      cases hstep
      refine ⟨?_, hkeyed.deleteDetached p⟩
      unfold RoutesOwn
      rw [s.routed_deleteDetached p]
      exact hown
    | message pid seq env =>
      obtain ⟨hkeyed', magic, hrouted, hiff⟩ := hkeyed.handleMessage hstep
      refine ⟨fun r hr => ?_, hkeyed'⟩
      rw [hrouted] at hr
      rcases List.mem_append.mp hr with hr | hr
      · exact hown r hr
      · rw [List.mem_singleton.mp hr]
        exact ⟨rfl, hiff.mpr hapart⟩
  · rintro s a t ⟨-, hkeyed⟩ hstep hown
    cases a with
    | sessionEnds p => trivial
    | message pid seq env =>
      obtain ⟨-, magic, hrouted, hiff⟩ := hkeyed.handleMessage hstep
      have hlast := hown ⟨pid, seq, pid, magic⟩ (by rw [hrouted]; simp)
      exact hiff.mp hlast.2
  · exact ⟨by simp [NetlinkState.init], by simp [NetlinkState.init], by simp [NetlinkState.init]⟩

end Routing

/-- Processes that live on, and commands that keep the connection. -/
def quiet : Surrounding :=
  { alive := fun _ => true, drops := fun _ => [], handled := [], processed := true,
    detaches := false, hasDevice := true }

theorem routesOwn_two :
    netlinkMachine.RunStays RoutesOwn .init [.message 0x10203 1 quiet, .message 0x10203 2 quiet] :=
  (routesOwn_iff_keepsApart rfl).2.mpr
    ⟨.inl (by decide), .inl (by decide), trivial⟩

/-- Session magic with the top bit set: the second client of the process reaches the connection of
the first. -/
theorem routes_other :
    ∃ t, netlinkMachine.run .init
        [.message 0x80000203 1 quiet, .message 0x80000203 2 quiet] = some t ∧
      hashConnection 0x80000203 1 = hashConnection 0x80000203 2 ∧
      ⟨0x80000203, 2, 0x80000203, 1⟩ ∈ t.routed ∧ ¬ RoutesOwn t := by
  refine ⟨_, rfl, by decide, by decide, fun hown => ?_⟩
  have hother := (hown ⟨0x80000203, 2, 0x80000203, 1⟩ (by decide)).2
  exact absurd hother (by decide)

end McDaemon.Daemon
