/-
# McDaemon.Proxy.OwnedMemory — the memory that the proxy server gives to the driver.

The server allocates the TCI and the buffers of a session, and a `Session::Buffer` owns each of them:
its destructor unmaps what its constructor has mapped.  A constructor cannot fail, so where `mmap`
does, there is an object of which only the address has been set, and what it says it is, and whether
its destructor unmaps anything, is what the memory of the object held before.
-/
import McDaemon.Lib.Machine
import McDaemon.Proxy.ServerConnection
import McDaemon.Proxy.SharedMemory

namespace McDaemon.Proxy.Owned

open McDaemon.Lib
open McDaemon.Proxy.ServerConnection (OpenSessionRequest OpenTrustletRequest)
open McDaemon.Proxy.Memory (mcIoMapInputOutput)

/-! ## Memory -/

/-- Memory that has been allocated, with the length that was asked for. -/
structure Region where
  address : Nat
  length : Nat
deriving DecidableEq, Repr

/-- `sysconf(_SC_PAGESIZE)`. -/
def pageSize : Nat := 4096

/-- The length that `mmap` is called with; `munmap` rounds up in the same way. -/
def alignedLength (length : Nat) : Nat := (length + (pageSize - 1)) / pageSize * pageSize

/-- `mc_ioctl_buffer`; a field is `none` as long as nobody has set it. -/
structure Info where
  va : Option Nat
  len : Option Nat
  flags : Option UInt32
  sva : Option Nat
deriving DecidableEq, Repr

/-- What a call passes to the driver: the address and the length of the TCI or of the trusted
application, or a buffer. -/
inductive Entry
  | memory (va len : Option Nat)
  | buffer (info : Info)
deriving DecidableEq, Repr

inductive Event
  | allocates (r : Region)
  | releases (r : Region)
  | passes (entries : List Entry)
deriving DecidableEq, Repr

/-! ## The buffer objects -/

/-- `Session::Buffer::Type`. -/
inductive BufferType
  | none
  | client
  | server
deriving DecidableEq, Repr

/-- What the memory of an object held before, as far as its destructor looks at it. -/
structure Garbage where
  type : BufferType
  len : Nat
deriving DecidableEq, Repr

/-- What a new buffer meets with: the address that `mmap` returns, unless it is `MAP_FAILED`, what the
memory of the object held, and the secure address that the driver gives the buffer if it maps it. -/
structure Answers where
  mmap : Option Nat
  garbage : Garbage
  sva : Nat
deriving DecidableEq, Repr

/-- `Session::Buffer`; `type` is `none` where nobody has set it. -/
structure Buffer where
  info : Info
  address : Nat
  type : Option BufferType
  garbage : Garbage
deriving DecidableEq, Repr

/-- `Session::Buffer::alloc`.  Lengths fit into 32 bits, as that of a message does. -/
def Buffer.alloc (b : Buffer) (length : Nat) (flags : UInt32) (mmap : Option Nat) : Buffer :=
  match mmap with
  | none => b
  | some address =>
    { b with
      type := some .server
      address := address
      info := { b.info with va := some address, len := some length, flags := some flags } }

/-- An object with its `address_` set to `nullptr`. -/
def Buffer.unset (garbage : Garbage) : Buffer := ⟨⟨none, none, none, none⟩, 0, none, garbage⟩

/-- `Buffer(uint32_t length, uint32_t flags)`. -/
def Buffer.ofLength (length : Nat) (flags : UInt32) (a : Answers) : Buffer :=
  (Buffer.unset a.garbage).alloc length flags a.mmap

/-- `Buffer(std::string buffer)`; what `update` copies is left out. -/
def Buffer.ofString (buffer : List UInt8) (a : Answers) : Buffer :=
  (Buffer.unset a.garbage).alloc buffer.length mcIoMapInputOutput a.mmap

def Buffer.setSva (b : Buffer) (sva : Nat) : Buffer := { b with info := { b.info with sva := some sva } }

/-- `~Buffer`. -/
def Buffer.destroy (b : Buffer) : List Event :=
  if b.type.getD b.garbage.type = .server then
    [.releases ⟨b.address, b.info.len.getD b.garbage.len⟩]
  else []

/-- What is allocated for a buffer. -/
def Answers.regions (a : Answers) (length : Nat) : List Region :=
  a.mmap.toList.map fun address => ⟨address, length⟩

/-! ## The session -/

/-- `Session`, with the buffers in the order in which they were added. -/
structure Session where
  tci : Option Buffer
  buffers : List Buffer
deriving DecidableEq, Repr

def Session.objects (session : Session) : List Buffer := session.tci.toList ++ session.buffers

/-- `~Session`. -/
def Session.destroy (session : Session) : List Event := session.objects.flatMap Buffer.destroy

/-- `Session::findBuffer`. -/
def findBuffer (buffers : List Buffer) (sva : Nat) : Option Buffer :=
  buffers.find? (·.info.sva = some sva)

/-- `Session::removeBuffer`. -/
def removeBuffer (buffers : List Buffer) (sva : Nat) : Option (List Event × List Buffer) :=
  (findBuffer buffers sva).map fun b => (b.destroy, buffers.eraseP (·.info.sva = some sva))

/-- A connection of the server, as far as memory is concerned. -/
structure Server where
  session_ : Option Session
  deleted : Bool
  log : List Event
deriving DecidableEq, Repr

def Server.note (s : Server) (events : List Event) : Server := { s with log := s.log ++ events }

/-! ## The requests -/

/-- How the call of the driver comes out, and the response behind it. -/
inductive OpenOutcome
  | fails
  | notSerialized
  | opened
deriving DecidableEq, Repr

/-- The entry for a TCI, if there is one. -/
def tciEntries (tci : Option Buffer) : List Entry :=
  tci.toList.map fun b => .memory b.info.va b.info.len

/-- The call of the driver in `openSession` and `openTrustlet`. -/
def Server.callOpen (s : Server) (entries : List Entry) (tci : Option Buffer)
    (outcome : OpenOutcome) : Server :=
  match outcome with
  | .opened => { s.note [.passes entries] with session_ := some ⟨tci, []⟩ }
  | _ => (s.note [.passes entries]).note (tci.toList.flatMap Buffer.destroy)

/-- What is allocated for the TCI of a request. -/
def tciRegions (tci : Option (List UInt8)) (a : Answers) : List Region :=
  tci.toList.flatMap fun buffer => a.regions buffer.length

/-- `ServerConnection::openSession`. -/
def openSession (s : Server) (request : Option OpenSessionRequest) (a : Answers)
    (outcome : OpenOutcome) : Server :=
  match s.session_, request with
  | none, some r =>
    if r.uuid.length ≠ 16 then s
    else
      let tci := r.tci.map fun buffer => Buffer.ofString buffer a
      let s := s.note ((tciRegions r.tci a).map .allocates)
      if r.loginData.length ≠ 16 then s.note (tci.toList.flatMap Buffer.destroy)
      else s.callOpen (tciEntries tci) tci outcome
  | _, _ => s

/-- `ServerConnection::openTrustlet`; `app` is what `malloc` returns. -/
def openTrustlet (s : Server) (request : Option OpenTrustletRequest) (app : Option Nat)
    (a : Answers) (outcome : OpenOutcome) : Server :=
  match s.session_, request, app with
  | none, some r, some address =>
    let trustapp : Region := ⟨address, r.trustapp.length⟩
    let tci := r.tci.map fun buffer => Buffer.ofString buffer a
    let s := s.note (.allocates trustapp :: (tciRegions r.tci a).map .allocates)
    let s := s.callOpen (.memory (some trustapp.address) (some trustapp.length) :: tciEntries tci) tci
      outcome
    s.note [.releases trustapp]
  | _, _, _ => s

/-- `MapRequest_Buffers`. -/
structure MapRequestBuffer where
  len : Option UInt32
  flags : Option UInt32
deriving DecidableEq, Repr

/-- A buffer that `map` makes an object for. -/
structure NewBuffer where
  len : UInt32
  flags : UInt32
  answers : Answers
deriving DecidableEq, Repr

namespace NewBuffer

def buffer (n : NewBuffer) : Buffer := Buffer.ofLength n.len.toNat n.flags n.answers

def regions (n : NewBuffer) : List Region := n.answers.regions n.len.toNat

/-- The object as it is added to the session. -/
def mapped (n : NewBuffer) : Buffer := n.buffer.setSva n.answers.sva

end NewBuffer

/-- The checks of `map`, and the buffers that an object has been made for by then. -/
def accept : List (MapRequestBuffer × Answers) → Bool × List NewBuffer
  | [] => (true, [])
  | (⟨some len, some flags⟩, a) :: rest =>
    if validFlags flags then ((accept rest).1, ⟨len, flags, a⟩ :: (accept rest).2) else (false, [])
  | _ :: _ => (false, [])

/-- `ServerConnection::map`.  The array of pointers is destroyed from its end. -/
def map (s : Server) (request : Option (List (MapRequestBuffer × Answers))) (maps : Bool) : Server :=
  match s.session_, request with
  | some session, some bufs =>
    if mcMapMax < bufs.length then s
    else
      let new := (accept bufs).2
      let destroyed := new.reverse.flatMap fun n => n.buffer.destroy
      let s := s.note ((new.flatMap NewBuffer.regions).map .allocates)
      if (accept bufs).1 = false then s.note destroyed
      else
        let s := s.note [.passes (new.map fun n => .buffer n.buffer.info)]
        if maps then
          { s with
            session_ := some { session with buffers := session.buffers ++ new.map NewBuffer.mapped } }
        else s.note destroyed
  | _, _ => s

/-- The loop over the buffers that `unmap` has found, by their secure addresses.  An object that the
loop has deleted before is read all the same; `freed` is what it finds there. -/
def removeFound (freed : Nat → Nat) : List Nat → List Nat → List Buffer → List Event × List Buffer
  | _, [], buffers => ([], buffers)
  | gone, sva :: rest, buffers =>
    let sva := if sva ∈ gone then freed rest.length else sva
    match removeBuffer buffers sva with
    | none => ([], buffers)
    | some (events, buffers) =>
      (events ++ (removeFound freed (sva :: gone) rest buffers).1,
        (removeFound freed (sva :: gone) rest buffers).2)

/-- `ServerConnection::unmap`.  Nothing is done for a buffer without a secure address, or one that
is not found. -/
def unmap (s : Server) (request : Option (List (Option Nat))) (unmaps : Bool) (freed : Nat → Nat) :
    Server :=
  match s.session_, request with
  | some session, some svas =>
    if mcMapMax < svas.length ∨ session.buffers.length < svas.length then s
    else
      match svas.mapM fun sva => sva.bind (findBuffer session.buffers) with
      | none => s
      | some found =>
        let s := s.note [.passes (found.map fun b => .buffer b.info)]
        if unmaps then
          let removed := removeFound freed [] (found.filterMap (·.info.sva)) session.buffers
          { s.note removed.1 with session_ := some { session with buffers := removed.2 } }
        else s
  | _, _ => s

/-- `delete session_`. -/
def Server.deleteSession (s : Server) : Server :=
  { s.note (s.session_.toList.flatMap Session.destroy) with session_ := none }

/-! ## Runs -/

/-- What a client asks for, with what the allocators and the driver answer; a request is `none` when
it does not parse, or lacks a field that is looked at first.  `close` is a request to close the
session that the driver has granted, `delete` is `~ServerConnection`. -/
inductive Action
  | openSession (request : Option OpenSessionRequest) (a : Answers) (outcome : OpenOutcome)
  | openTrustlet (request : Option OpenTrustletRequest) (app : Option Nat) (a : Answers)
      (outcome : OpenOutcome)
  | map (request : Option (List (MapRequestBuffer × Answers))) (maps : Bool)
  | unmap (request : Option (List (Option Nat))) (unmaps : Bool) (freed : Nat → Nat)
  | close
  | delete

namespace Action

/-- What is mapped for an action. -/
def mmaps : Action → List Region
  | .openSession request a _ => tciRegions (request.bind (·.tci)) a
  | .openTrustlet request _ a _ => tciRegions (request.bind (·.tci)) a
  | .map request _ => request.toList.flatMap fun bufs => (accept bufs).2.flatMap NewBuffer.regions
  | _ => []

def mallocs : Action → List Region
  | .openTrustlet (some r) (some address) _ _ => [⟨address, r.trustapp.length⟩]
  | _ => []

end Action

/-- What is allocated behind an event. -/
def liveBehind (live : List Region) : Event → List Region
  | .allocates r => r :: live
  | .releases r => live.erase r
  | .passes _ => live

/-- What is allocated behind a log. -/
def liveAfter (live : List Region) (log : List Event) : List Region := log.foldl liveBehind live

/-- Memory is allocated where none is, and `mmap` allocates none without a length. -/
structure Allocates (s : Server) (a : Action) : Prop where
  length : ∀ r ∈ a.mmaps, alignedLength r.length ≠ 0
  address : ∀ r ∈ a.mallocs ++ a.mmaps, r.address ≠ 0
  fresh : ((liveAfter [] s.log ++ (a.mallocs ++ a.mmaps)).map Region.address).Nodup

instance (s : Server) (a : Action) : Decidable (Allocates s a) :=
  decidable_of_iff ((∀ r ∈ a.mmaps, alignedLength r.length ≠ 0) ∧
    (∀ r ∈ a.mallocs ++ a.mmaps, r.address ≠ 0) ∧
    ((liveAfter [] s.log ++ (a.mallocs ++ a.mmaps)).map Region.address).Nodup)
    ⟨fun ⟨h, i, j⟩ => ⟨h, i, j⟩, fun ⟨h, i, j⟩ => ⟨h, i, j⟩⟩

def Server.perform (s : Server) : Action → Server
  | .openSession request a outcome => Owned.openSession s request a outcome
  | .openTrustlet request app a outcome => Owned.openTrustlet s request app a outcome
  | .map request maps => Owned.map s request maps
  | .unmap request unmaps freed => Owned.unmap s request unmaps freed
  | .close => s.deleteSession
  | .delete => { s.deleteSession with deleted := true }

/-- A connection of the server, from its opening to its deletion. -/
def serverMachine : Machine Server Action where
  init := (· = ⟨none, false, []⟩)
  step := fun s a => if s.deleted = false ∧ Allocates s a then some (s.perform a) else none

/-! ## What the server is to hand out -/

/-- All fields of an entry have been set, and it is memory of the server.  `sva` tells whether the
secure address counts, which a map is to bring back. -/
def Entry.OwnedBy (sva : Bool) (live : List Region) : Entry → Prop
  | .memory va len => ∃ r ∈ live, va = some r.address ∧ len = some r.length
  | .buffer info =>
    (∃ r ∈ live, info.va = some r.address ∧ info.len = some r.length) ∧
      info.flags.isSome = true ∧ (sva = true → info.sva.isSome = true)

/-- Memory is released that has been allocated and not been released, and the driver gets no other
memory. -/
def Event.Allowed (sva : Bool) (live : List Region) : Event → Prop
  | .allocates _ => True
  | .releases r => r ∈ live
  | .passes entries => ∀ e ∈ entries, e.OwnedBy sva live

/-- Every event of a log is allowed. -/
def Accounted (sva : Bool) : List Region → List Event → Prop
  | _, [] => True
  | live, e :: log => e.Allowed sva live ∧ Accounted sva (liveBehind live e) log

/-- The server hands only memory that it owns to the driver, and releases what it has allocated, once
and with the session. -/
structure HandsOwned (sva : Bool) (s : Server) : Prop where
  accounted : Accounted sva [] s.log
  released : s.session_ = none → liveAfter [] s.log = []

/-- No memory could be allocated for the object, and its destructor unmaps something all the same. -/
def Answers.Misfrees (a : Answers) : Prop := a.mmap = none ∧ a.garbage.type = .server

instance (a : Answers) : Decidable a.Misfrees := inferInstanceAs (Decidable (_ ∧ _))

/-- `mmap` succeeds for all that is passed to the driver.  Where it fails for an object of a request
that is refused, the object does not happen to look like one with memory.  If secure addresses count,
the driver gets no buffers to map. -/
def Maps (sva : Bool) (s : Server) : Action → Prop
  | .openSession (some r) a _ =>
    s.session_ = none → r.uuid.length = 16 → r.tci.isSome = true →
      if r.loginData.length = 16 then a.mmap.isSome = true else ¬ a.Misfrees
  | .openTrustlet (some r) (some _) a _ =>
    s.session_ = none → r.tci.isSome = true → a.mmap.isSome = true
  | .map (some bufs) _ =>
    s.session_.isSome = true → bufs.length ≤ mcMapMax →
      if (accept bufs).1 = true then
        (∀ n ∈ (accept bufs).2, n.answers.mmap.isSome = true) ∧ (sva = true → (accept bufs).2 = [])
      else ∀ n ∈ (accept bufs).2, ¬ n.answers.Misfrees
  | _ => True

instance (sva : Bool) (s : Server) (a : Action) : Decidable (Maps sva s a) :=
  match a with
  | .openSession (some r) a _ =>
    inferInstanceAs (Decidable (s.session_ = none → r.uuid.length = 16 → r.tci.isSome = true →
      if r.loginData.length = 16 then a.mmap.isSome = true else ¬ a.Misfrees))
  | .openTrustlet (some r) (some _) a _ =>
    inferInstanceAs (Decidable (s.session_ = none → r.tci.isSome = true → a.mmap.isSome = true))
  | .map (some bufs) _ =>
    inferInstanceAs (Decidable (s.session_.isSome = true → bufs.length ≤ mcMapMax →
      if (accept bufs).1 = true then
        (∀ n ∈ (accept bufs).2, n.answers.mmap.isSome = true) ∧ (sva = true → (accept bufs).2 = [])
      else ∀ n ∈ (accept bufs).2, ¬ n.answers.Misfrees))
  | .openSession none _ _ | .openTrustlet none _ _ _ | .openTrustlet (some _) none _ _
  | .map none _ | .unmap _ _ _ | .close | .delete => .isTrue trivial

/-! ## The log -/

section Log

variable {sva : Bool} {live rs : List Region} {log : List Event} {r : Region}

theorem accounted_append (evs : List Event) :
    Accounted sva live (log ++ evs) ↔
      Accounted sva live log ∧ Accounted sva (liveAfter live log) evs := by
  induction log generalizing live with
  | nil => simp [Accounted, liveAfter]
  | cons e log ih =>
    rw [List.cons_append, Accounted, Accounted, ih, and_assoc]
    rfl

theorem liveAfter_append (evs : List Event) :
    liveAfter live (log ++ evs) = liveAfter (liveAfter live log) evs :=
  List.foldl_append ..

/-- What is released has been allocated. -/
theorem allocates_of_releases (h : Accounted sva live log) (hr : .releases r ∈ log) :
    r ∈ live ∨ .allocates r ∈ log := by
  induction log generalizing live with
  | nil => simp at hr
  | cons e log ih =>
    obtain ⟨hallowed, hrest⟩ := h
    rcases List.mem_cons.mp hr with rfl | hr
    · exact Or.inl hallowed
    · rcases ih hrest hr with hlive | hlog
      · cases e with
        | allocates r' =>
          rcases List.mem_cons.mp hlive with rfl | hlive
          · exact Or.inr List.mem_cons_self
          · exact Or.inl hlive
        | releases r' => exact Or.inl (List.mem_of_mem_erase hlive)
        | passes entries => exact Or.inl hlive
      · exact Or.inr (List.mem_cons_of_mem _ hlog)

/-- What is passed is owned by somebody. -/
theorem owned_of_passes {entries : List Entry} (h : Accounted sva live log)
    (hp : .passes entries ∈ log) : ∃ live', ∀ e ∈ entries, e.OwnedBy sva live' := by
  induction log generalizing live with
  | nil => simp at hp
  | cons e log ih =>
    rcases List.mem_cons.mp hp with rfl | hp
    · exact ⟨live, h.1⟩
    · exact ih h.2 hp

/-- A log that is accounted for, and leaves some memory allocated. -/
structure Keeps (sva : Bool) (log : List Event) (rs : List Region) : Prop where
  accounted : Accounted sva [] log
  live : (liveAfter [] log).Perm rs

theorem Keeps.snoc {e : Event} (h : Keeps sva log rs) (he : e.Allowed sva (liveAfter [] log)) :
    Keeps sva (log ++ [e]) (liveBehind (liveAfter [] log) e) where
  accounted := (accounted_append [e]).mpr ⟨h.accounted, he, trivial⟩
  live := by
    rw [liveAfter_append]
    exact List.Perm.refl _

theorem Keeps.perm {rs' : List Region} (h : Keeps sva log rs) (hp : rs.Perm rs') :
    Keeps sva log rs' := ⟨h.accounted, h.live.trans hp⟩

theorem Keeps.allocate (h : Keeps sva log rs) (r : Region) :
    Keeps sva (log ++ [.allocates r]) (r :: rs) := by
  have hallowed : (Event.allocates r).Allowed sva (liveAfter [] log) := trivial
  exact (h.snoc hallowed).perm (h.live.cons r)

theorem Keeps.release (h : Keeps sva log (r :: rs)) : Keeps sva (log ++ [.releases r]) rs := by
  have hallowed : (Event.releases r).Allowed sva (liveAfter [] log) :=
    h.live.mem_iff.mpr List.mem_cons_self
  refine (h.snoc hallowed).perm ?_
  have herase := h.live.erase r
  rwa [List.erase_cons_head] at herase

theorem Entry.OwnedBy.perm {rs' : List Region} {e : Entry} (h : e.OwnedBy sva rs)
    (hp : ∀ r ∈ rs, r ∈ rs') : e.OwnedBy sva rs' := by
  cases e with
  | memory va len =>
    obtain ⟨r, hr, hva⟩ := h
    exact ⟨r, hp r hr, hva⟩
  | buffer info =>
    obtain ⟨⟨r, hr, hva⟩, hfields⟩ := h
    exact ⟨⟨r, hp r hr, hva⟩, hfields⟩

theorem Keeps.pass {entries : List Entry} (h : Keeps sva log rs)
    (he : ∀ e ∈ entries, e.OwnedBy sva rs) : Keeps sva (log ++ [.passes entries]) rs := by
  have hallowed : (Event.passes entries).Allowed sva (liveAfter [] log) :=
    fun e hmem => (he e hmem).perm fun r hr => h.live.mem_iff.mpr hr
  exact (h.snoc hallowed).perm h.live

theorem Keeps.allocateAll (h : Keeps sva log rs) (new : List Region) :
    Keeps sva (log ++ new.map .allocates) (new ++ rs) := by
  induction new generalizing log rs with
  | nil => simpa using h
  | cons r new ih =>
    have hnext := ih (h.allocate r)
    rw [List.append_assoc] at hnext
    exact hnext.perm List.perm_middle

theorem Keeps.releaseAll {old : List Region} (h : Keeps sva log (old ++ rs)) :
    Keeps sva (log ++ old.map .releases) rs := by
  induction old generalizing log with
  | nil => simpa using h
  | cons r old ih =>
    have hnext := ih h.release
    rwa [List.append_assoc] at hnext

end Log

/-! ## The objects -/

section Objects

variable {b : Buffer} {r : Region} {a : Answers} {length : Nat} {flags : UInt32} {sva : Bool}
  {rs : List Region} {log : List Event}

/-- The memory that an object has. -/
def Buffer.region (b : Buffer) : Region := ⟨b.address, b.info.len.getD b.garbage.len⟩

/-- An object that has its memory. -/
structure Buffer.Has (b : Buffer) : Prop where
  type : b.type = some .server
  va : b.info.va = some b.address
  len : b.info.len.isSome = true
  flags : b.info.flags.isSome = true

theorem Buffer.Has.destroy (h : b.Has) : b.destroy = [.releases b.region] := by
  unfold Buffer.destroy
  rw [h.type]
  rfl

theorem destroy_all {bs : List Buffer} (h : ∀ b ∈ bs, b.Has) :
    bs.flatMap Buffer.destroy = (bs.map Buffer.region).map .releases := by
  induction bs with
  | nil => rfl
  | cons b bs ih =>
    rw [List.flatMap_cons, (h b List.mem_cons_self).destroy,
      ih fun b' hb' => h b' (List.mem_cons_of_mem _ hb')]
    rfl

theorem Buffer.Has.len_eq (h : b.Has) : b.info.len = some b.region.length := by
  obtain ⟨len, hlen⟩ := Option.isSome_iff_exists.mp h.len
  unfold Buffer.region
  rw [hlen]
  rfl

/-- The entries for objects that have their memory. -/
theorem Buffer.Has.owned (h : b.Has) (hr : b.region ∈ rs)
    (hsva : sva = true → b.info.sva.isSome = true) : (Entry.buffer b.info).OwnedBy sva rs :=
  ⟨⟨b.region, hr, h.va, h.len_eq⟩, h.flags, hsva⟩

theorem Buffer.Has.owned_memory (h : b.Has) (hr : b.region ∈ rs) :
    (Entry.memory b.info.va b.info.len).OwnedBy sva rs := ⟨b.region, hr, h.va, h.len_eq⟩

/-- An object for which `mmap` succeeds. -/
theorem has_ofLength (h : a.mmap.isSome = true) : (Buffer.ofLength length flags a).Has := by
  obtain ⟨address, hmmap⟩ := Option.isSome_iff_exists.mp h
  unfold Buffer.ofLength Buffer.alloc
  rw [hmmap]
  exact ⟨rfl, rfl, rfl, rfl⟩

theorem region_ofLength (flags : UInt32) (h : a.mmap.isSome = true) :
    a.regions length = [(Buffer.ofLength length flags a).region] := by
  obtain ⟨address, hmmap⟩ := Option.isSome_iff_exists.mp h
  unfold Answers.regions Buffer.ofLength Buffer.alloc
  rw [hmmap]
  rfl

/-- An object for which `mmap` fails. -/
theorem ofLength_failed (h : a.mmap = none) :
    Buffer.ofLength length flags a = Buffer.unset a.garbage := by
  unfold Buffer.ofLength Buffer.alloc
  rw [h]

theorem regions_failed (h : a.mmap = none) : a.regions length = [] := by
  unfold Answers.regions
  rw [h]
  rfl

theorem destroy_unset (garbage : Garbage) :
    (Buffer.unset garbage).destroy =
      if garbage.type = .server then [.releases ⟨0, garbage.len⟩] else [] := rfl

/-- What the destructor of a new object releases, unless it misfires. -/
theorem destroy_ofLength (h : ¬ a.Misfrees) :
    (Buffer.ofLength length flags a).destroy = (a.regions length).map .releases := by
  by_cases hmmap : a.mmap.isSome = true
  · rw [(has_ofLength hmmap).destroy, region_ofLength flags hmmap]
    rfl
  · have hnone : a.mmap = none := Option.not_isSome_iff_eq_none.mp hmmap
    have hserver : a.garbage.type ≠ .server := fun htype => h ⟨hnone, htype⟩
    rw [ofLength_failed hnone, regions_failed hnone, destroy_unset, if_neg hserver]
    rfl

theorem not_misfrees_of_isSome (h : a.mmap.isSome = true) : ¬ a.Misfrees := by
  rintro ⟨hnone, -⟩
  simp [hnone] at h

theorem destroy_misfrees (h : a.Misfrees) :
    .releases ⟨0, a.garbage.len⟩ ∈ (Buffer.ofLength length flags a).destroy := by
  rw [ofLength_failed h.1, destroy_unset, if_pos h.2]
  exact List.mem_singleton_self _

/-- The buffer of the string is that of its length. -/
theorem ofString_eq (buffer : List UInt8) (a : Answers) :
    Buffer.ofString buffer a = Buffer.ofLength buffer.length mcIoMapInputOutput a := rfl

end Objects

/-! ## What is allocated -/

section Allocated

variable {s : Server} {r : Region}

theorem not_allocates_destroy (b : Buffer) (r : Region) : .allocates r ∉ b.destroy := by
  unfold Buffer.destroy
  split
  · simp
  · simp

theorem not_allocates_destroys (bs : List Buffer) (r : Region) :
    .allocates r ∉ bs.flatMap Buffer.destroy := by
  intro h
  obtain ⟨b, -, hb⟩ := List.mem_flatMap.mp h
  exact not_allocates_destroy b r hb

theorem not_allocates_removeFound (freed : Nat → Nat) (gone svas : List Nat) (buffers : List Buffer)
    (r : Region) : .allocates r ∉ (removeFound freed gone svas buffers).1 := by
  induction svas generalizing gone buffers with
  | nil => simp [removeFound]
  | cons sva svas ih =>
    rw [removeFound]
    cases hremove : removeBuffer buffers (if sva ∈ gone then freed svas.length else sva) with
    | none => simp
    | some p =>
      obtain ⟨b, -, rfl⟩ := Option.map_eq_some_iff.mp hremove
      rintro h
      rcases List.mem_append.mp h with h | h
      · exact not_allocates_destroy b r h
      · exact ih _ _ h

theorem mem_note {evs : List Event} (h : .allocates r ∈ (s.note evs).log) :
    .allocates r ∈ s.log ∨ .allocates r ∈ evs := List.mem_append.mp h

theorem mem_callOpen {entries : List Entry} {tci : Option Buffer} {outcome : OpenOutcome}
    (h : .allocates r ∈ (s.callOpen entries tci outcome).log) : .allocates r ∈ s.log := by
  have hpass : .allocates r ∈ (s.note [.passes entries]).log := by
    cases outcome with
    | opened => exact h
    | _ => exact (mem_note h).resolve_right (not_allocates_destroys _ r)
  exact (mem_note hpass).resolve_right (by simp)

theorem mem_allocates {rs : List Region} (h : Event.allocates r ∈ rs.map Event.allocates) :
    r ∈ rs := by
  obtain ⟨r', hr', heq⟩ := List.mem_map.mp h
  exact Event.allocates.inj heq ▸ hr'

theorem openSession_allocates {request : Option OpenSessionRequest} {a : Answers}
    {outcome : OpenOutcome} (h : .allocates r ∈ (openSession s request a outcome).log) :
    .allocates r ∈ s.log ∨ r ∈ tciRegions (request.bind (·.tci)) a := by
  unfold openSession at h
  split at h
  · rename_i req _
    have hnote : .allocates r ∈ (s.note ((tciRegions req.tci a).map .allocates)).log →
        .allocates r ∈ s.log ∨ r ∈ tciRegions ((some req).bind (·.tci)) a :=
      fun hr => (mem_note hr).imp id mem_allocates
    split_ifs at h with huuid hlogin
    · exact Or.inl h
    · exact hnote ((mem_note h).resolve_right (not_allocates_destroys _ r))
    · exact hnote (mem_callOpen h)
  · exact Or.inl h

theorem openTrustlet_allocates {request : Option OpenTrustletRequest} {app : Option Nat}
    {a : Answers} {outcome : OpenOutcome}
    (h : .allocates r ∈ (openTrustlet s request app a outcome).log) :
    .allocates r ∈ s.log ∨ r ∈ (Action.openTrustlet request app a outcome).mallocs ++
      (Action.openTrustlet request app a outcome).mmaps := by
  unfold openTrustlet at h
  split at h
  · rename_i req address _
    have hcall := mem_callOpen ((mem_note h).resolve_right (by simp))
    rcases mem_note hcall with hs | hnew
    · exact Or.inl hs
    · have hcons : Event.allocates r ∈ ((⟨address, req.trustapp.length⟩ : Region) ::
          tciRegions req.tci a).map Event.allocates := hnew
      exact Or.inr (mem_allocates hcons)
  · exact Or.inl h

theorem map_allocates {request : Option (List (MapRequestBuffer × Answers))} {maps : Bool}
    (h : .allocates r ∈ (map s request maps).log) :
    .allocates r ∈ s.log ∨ r ∈ (Action.map request maps).mmaps := by
  unfold map at h
  split at h
  · rename_i session bufs _ 
    have hnot : ∀ new : List NewBuffer, .allocates r ∉ new.flatMap fun n => n.buffer.destroy := by
      intro new hr
      obtain ⟨n, -, hn⟩ := List.mem_flatMap.mp hr
      exact not_allocates_destroy _ r hn
    have hnote : .allocates r ∈
        (s.note (((accept bufs).2.flatMap NewBuffer.regions).map .allocates)).log →
          .allocates r ∈ s.log ∨ r ∈ (Action.map (some bufs) maps).mmaps := by
      intro hr
      refine (mem_note hr).imp id fun hnew => ?_
      show r ∈ [bufs].flatMap _
      simpa using mem_allocates hnew
    dsimp only at h
    split_ifs at h with hmax hok hmaps
    · exact Or.inl h
    · exact hnote ((mem_note h).resolve_right (hnot _))
    · exact hnote ((mem_note h).resolve_right (by simp))
    · exact hnote ((mem_note ((mem_note h).resolve_right (hnot _))).resolve_right (by simp))
  · exact Or.inl h

theorem unmap_allocates {request : Option (List (Option Nat))} {unmaps : Bool} {freed : Nat → Nat}
    (h : .allocates r ∈ (unmap s request unmaps freed).log) : .allocates r ∈ s.log := by
  unfold unmap at h
  split at h
  · split_ifs at h with hmax hunmaps
    · exact h
    · split at h
      · exact h
      · have hpass := (mem_note h).resolve_right (not_allocates_removeFound _ _ _ _ r)
        exact (mem_note hpass).resolve_right (by simp)
    · split at h
      · exact h
      · exact (mem_note h).resolve_right (by simp)
  · exact h

theorem deleteSession_allocates (h : .allocates r ∈ s.deleteSession.log) : .allocates r ∈ s.log := by
  refine (mem_note h).resolve_right fun hr => ?_
  obtain ⟨session, -, hsession⟩ := List.mem_flatMap.mp hr
  exact not_allocates_destroys _ r hsession

/-- Only what the allocators give is allocated. -/
theorem perform_allocates {a : Action} (h : .allocates r ∈ (s.perform a).log) :
    .allocates r ∈ s.log ∨ r ∈ a.mallocs ++ a.mmaps := by
  cases a with
  | openSession request a outcome => exact openSession_allocates h
  | openTrustlet request app a outcome => exact openTrustlet_allocates h
  | map request maps => exact map_allocates h
  | unmap request unmaps freed => exact Or.inl (unmap_allocates h)
  | close => exact Or.inl (deleteSession_allocates h)
  | delete => exact Or.inl (deleteSession_allocates h)

end Allocated

/-! ## What a connection owns -/

def Server.objects (s : Server) : List Buffer := s.session_.toList.flatMap Session.objects

/-- A connection whose objects all have their memory, which is all that is allocated. -/
structure Holds (sva : Bool) (s : Server) : Prop where
  keeps : Keeps sva s.log (s.objects.map Buffer.region)
  has : ∀ b ∈ s.objects, b.Has
  svas : ∀ session, s.session_ = some session → ∀ b ∈ session.buffers, b.info.sva.isSome = true

/-- No memory that has been allocated is at address 0. -/
def Nonzero (s : Server) : Prop := ∀ r, .allocates r ∈ s.log → r.address ≠ 0

section Owns

variable {sva : Bool} {s : Server} {session : Session} {a : Answers} {rs : List Region}
  {log : List Event}

theorem objects_none (h : s.session_ = none) : s.objects = [] := by
  unfold Server.objects
  rw [h]
  rfl

theorem objects_some (h : s.session_ = some session) : s.objects = session.objects := by
  unfold Server.objects
  rw [h]
  exact List.append_nil _

theorem Holds.handsOwned (h : Holds sva s) : HandsOwned sva s where
  accounted := h.keeps.accounted
  released hnone := by
    have hlive := h.keeps.live
    rw [objects_none hnone] at hlive
    exact List.perm_nil.mp hlive

/-- The objects are destroyed, and their memory with them. -/
theorem Keeps.destroyAll {bs : List Buffer} (h : Keeps sva log (bs.map Buffer.region ++ rs))
    (hhas : ∀ b ∈ bs, b.Has) : Keeps sva (log ++ bs.flatMap Buffer.destroy) rs := by
  rw [destroy_all hhas]
  exact h.releaseAll

/-- The TCI of a request, where its memory could be allocated. -/
theorem tci_has {tci : Option (List UInt8)} (h : tci.isSome = true → a.mmap.isSome = true) :
    (∀ b ∈ (tci.map fun buffer => Buffer.ofString buffer a).toList, b.Has) ∧
      tciRegions tci a =
        (tci.map fun buffer => Buffer.ofString buffer a).toList.map Buffer.region := by
  cases tci with
  | none => exact ⟨by simp, rfl⟩
  | some buffer =>
    have hmmap : a.mmap.isSome = true := h rfl
    refine ⟨?_, ?_⟩
    · intro b hb
      rw [List.mem_singleton.mp hb]
      exact has_ofLength hmmap
    · show a.regions buffer.length ++ [] = _
      rw [List.append_nil, region_ofLength mcIoMapInputOutput hmmap]
      rfl

theorem tci_destroy {tci : Option (List UInt8)} (h : tci.isSome = true → ¬ a.Misfrees) :
    (tci.map fun buffer => Buffer.ofString buffer a).toList.flatMap Buffer.destroy =
      (tciRegions tci a).map .releases := by
  cases tci with
  | none => rfl
  | some buffer =>
    show (Buffer.ofString buffer a).destroy ++ [] = (a.regions buffer.length ++ []).map .releases
    rw [List.append_nil, List.append_nil, ofString_eq, destroy_ofLength (h rfl)]

/-- The driver is called with a TCI that has its memory, and with memory that the server has
besides. -/
theorem Keeps.callOpen {entries : List Entry} {tci : Option Buffer}
    (h : Keeps sva s.log (tci.toList.map Buffer.region ++ rs)) (hnone : s.session_ = none)
    (hhas : ∀ b ∈ tci.toList, b.Has)
    (hentries : ∀ e ∈ entries, e.OwnedBy sva (tci.toList.map Buffer.region ++ rs))
    (outcome : OpenOutcome) :
    Keeps sva (s.callOpen entries tci outcome).log
        ((s.callOpen entries tci outcome).objects.map Buffer.region ++ rs) ∧
      ((s.callOpen entries tci outcome).session_ = none ∨
        (s.callOpen entries tci outcome).session_ = some ⟨tci, []⟩) := by
  have hpass := h.pass hentries
  cases outcome with
  | opened =>
    refine ⟨?_, Or.inr rfl⟩
    have hobjects : (s.callOpen entries tci .opened).objects = tci.toList := by
      rw [objects_some rfl]
      exact List.append_nil _
    rw [hobjects]
    exact hpass
  | fails =>
    refine ⟨?_, Or.inl hnone⟩
    rw [objects_none (s := s.callOpen entries tci .fails) hnone]
    exact hpass.destroyAll hhas
  | notSerialized =>
    refine ⟨?_, Or.inl hnone⟩
    rw [objects_none (s := s.callOpen entries tci .notSerialized) hnone]
    exact hpass.destroyAll hhas

theorem has_of_session {tci : Option Buffer} (hhas : ∀ b ∈ tci.toList, b.Has)
    (h : s.session_ = none ∨ s.session_ = some ⟨tci, []⟩) :
    (∀ b ∈ s.objects, b.Has) ∧
      ∀ session, s.session_ = some session → ∀ b ∈ session.buffers, b.info.sva.isSome = true := by
  rcases h with h | h
  · rw [objects_none h, h]
    exact ⟨by simp, by simp⟩
  · rw [objects_some h, h]
    refine ⟨?_, ?_⟩
    · intro b hb
      exact hhas b (by simpa [Session.objects] using hb)
    · rintro session ⟨⟩
      simp

theorem tciEntries_owned {tci : Option Buffer} (hhas : ∀ b ∈ tci.toList, b.Has)
    (hrs : ∀ b ∈ tci.toList, b.region ∈ rs) : ∀ e ∈ tciEntries tci, e.OwnedBy sva rs := by
  intro e he
  obtain ⟨b, hb, rfl⟩ := List.mem_map.mp he
  exact (hhas b hb).owned_memory (hrs b hb)

/-- A connection without a session, and with nothing allocated. -/
theorem Holds.of_none (h : Keeps sva s.log []) (hnone : s.session_ = none) : Holds sva s where
  keeps := by
    rw [objects_none hnone]
    exact h
  has := by
    rw [objects_none hnone]
    simp
  svas := by
    rw [hnone]
    simp

theorem Holds.keeps_none (h : Holds sva s) (hnone : s.session_ = none) : Keeps sva s.log [] := by
  have hkeeps := h.keeps
  rwa [objects_none hnone] at hkeeps

theorem Holds.openSession (h : Holds sva s) {request : Option OpenSessionRequest}
    {outcome : OpenOutcome} (hmaps : Maps sva s (.openSession request a outcome)) :
    Holds sva (Owned.openSession s request a outcome) := by
  unfold Owned.openSession
  split
  · rename_i r hnone
    by_cases huuid : r.uuid.length ≠ 16
    · rw [if_pos huuid]
      exact h
    · rw [if_neg huuid]
      have hok := hmaps hnone (not_not.mp huuid)
      have halloc : Keeps sva (s.note ((tciRegions r.tci a).map .allocates)).log
          (tciRegions r.tci a ++ []) := (h.keeps_none hnone).allocateAll (tciRegions r.tci a)
      by_cases hlogin : r.loginData.length ≠ 16
      · rw [if_pos hlogin]
        have hdestroy := tci_destroy fun htci => (by simpa [hlogin] using hok htci : ¬ a.Misfrees)
        refine Holds.of_none ?_ hnone
        show Keeps sva (_ ++ _ ++ _) _
        rw [hdestroy]
        exact halloc.releaseAll
      · rw [if_neg hlogin]
        obtain ⟨hhas, hregions⟩ := tci_has fun htci =>
          (by simpa [not_not.mp hlogin] using hok htci : a.mmap.isSome = true)
        rw [hregions] at halloc ⊢
        obtain ⟨hkeeps, hsession⟩ := halloc.callOpen hnone hhas
          (tciEntries_owned hhas fun b hb => List.mem_append_left _ (List.mem_map_of_mem hb)) outcome
        obtain ⟨hall, hsvas⟩ := has_of_session hhas hsession
        exact ⟨by simpa using hkeeps, hall, hsvas⟩
  · exact h

theorem Holds.openTrustlet (h : Holds sva s) {request : Option OpenTrustletRequest}
    {app : Option Nat} {outcome : OpenOutcome}
    (hmaps : Maps sva s (.openTrustlet request app a outcome)) :
    Holds sva (Owned.openTrustlet s request app a outcome) := by
  unfold Owned.openTrustlet
  split
  · rename_i r address hnone
    obtain ⟨hhas, hregions⟩ := tci_has (hmaps hnone)
    have halloc := ((h.keeps_none hnone).allocate ⟨address, r.trustapp.length⟩).allocateAll
      (tciRegions r.tci a)
    rw [List.append_assoc] at halloc
    have halloc' : Keeps sva (s.note (.allocates ⟨address, r.trustapp.length⟩ ::
        (tciRegions r.tci a).map .allocates)).log
          (tciRegions r.tci a ++ [⟨address, r.trustapp.length⟩]) := halloc
    rw [hregions] at halloc' ⊢
    have hentries : ∀ e ∈ .memory (some address) (some r.trustapp.length) ::
        tciEntries (r.tci.map fun buffer => Buffer.ofString buffer a), e.OwnedBy sva
          ((r.tci.map fun buffer => Buffer.ofString buffer a).toList.map Buffer.region ++
            [⟨address, r.trustapp.length⟩]) :=
      List.forall_mem_cons.mpr ⟨⟨_, List.mem_append_right _ (List.mem_singleton_self _), rfl, rfl⟩,
        tciEntries_owned hhas fun b hb => List.mem_append_left _ (List.mem_map_of_mem hb)⟩
    obtain ⟨hkeeps, hsession⟩ := halloc'.callOpen hnone hhas hentries outcome
    obtain ⟨hall, hsvas⟩ := has_of_session hhas hsession
    -- the trusted application is freed at the end
    exact ⟨(hkeeps.perm (List.perm_append_singleton _ _)).release, hall, hsvas⟩
  · exact h

/-! ### Buffers -/

theorem accept_mem_has {new : List NewBuffer} (h : ∀ n ∈ new, n.answers.mmap.isSome = true) :
    (∀ b ∈ new.map NewBuffer.buffer, b.Has) ∧
      new.flatMap NewBuffer.regions = (new.map NewBuffer.buffer).map Buffer.region := by
  induction new with
  | nil => exact ⟨by simp, rfl⟩
  | cons n new ih =>
    have hn := h n List.mem_cons_self
    obtain ⟨hhas, hregions⟩ := ih fun n' hn' => h n' (List.mem_cons_of_mem _ hn')
    refine ⟨List.forall_mem_cons.mpr ⟨has_ofLength hn, hhas⟩, ?_⟩
    rw [List.flatMap_cons, hregions, NewBuffer.regions, region_ofLength n.flags hn]
    rfl

/-- What the destructors of new objects release. -/
theorem destroy_new {new : List NewBuffer} (h : ∀ n ∈ new, ¬ n.answers.Misfrees) :
    (new.flatMap fun n => n.buffer.destroy) = (new.flatMap NewBuffer.regions).map .releases := by
  induction new with
  | nil => rfl
  | cons n new ih =>
    rw [List.flatMap_cons, List.flatMap_cons, List.map_append,
      ih fun n' hn' => h n' (List.mem_cons_of_mem _ hn')]
    exact congrArg (· ++ _) (destroy_ofLength (h n List.mem_cons_self))

/-- The objects of a map are destroyed from the end of the array. -/
theorem Keeps.destroyNew {new : List NewBuffer}
    (h : Keeps sva log (new.flatMap NewBuffer.regions ++ rs))
    (hnew : ∀ n ∈ new, ¬ n.answers.Misfrees) :
    Keeps sva (log ++ new.reverse.flatMap fun n => n.buffer.destroy) rs := by
  rw [destroy_new fun n hn => hnew n (List.mem_reverse.mp hn)]
  have hperm : (new.flatMap NewBuffer.regions).Perm (new.reverse.flatMap NewBuffer.regions) :=
    (List.reverse_perm new).symm.flatMap_right _
  exact (h.perm (hperm.append_right rs)).releaseAll

theorem mapped_has {n : NewBuffer} (h : n.answers.mmap.isSome = true) :
    n.mapped.Has ∧ n.mapped.region = n.buffer.region ∧ n.mapped.info.sva.isSome = true := by
  have hhas : n.buffer.Has := has_ofLength h
  exact ⟨⟨hhas.type, hhas.va, hhas.len, hhas.flags⟩, rfl, rfl⟩

/-- The buffers of a map that has succeeded belong to the session. -/
theorem Holds.addBuffers (h : Holds sva s) {session : Session} (hsession : s.session_ = some session)
    {log : List Event} {new : List NewBuffer}
    (hkeeps : Keeps sva log (new.flatMap NewBuffer.regions ++ s.objects.map Buffer.region))
    (hnew : ∀ n ∈ new, n.answers.mmap.isSome = true) :
    Holds sva { s with
      log := log
      session_ := some { session with buffers := session.buffers ++ new.map NewBuffer.mapped } } := by
  have hold := objects_some hsession
  refine ⟨?_, ?_, ?_⟩
  · rw [objects_some rfl]
    refine hkeeps.perm ?_
    rw [(accept_mem_has hnew).2, hold]
    have hregions : (new.map NewBuffer.mapped).map Buffer.region =
        (new.map NewBuffer.buffer).map Buffer.region := by
      rw [List.map_map, List.map_map]
      exact List.map_congr_left fun n hn => (mapped_has (hnew n hn)).2.1
    simp only [Session.objects, List.map_append, hregions]
    refine List.perm_append_comm.trans ?_
    rw [List.append_assoc]
  · rw [objects_some rfl]
    intro b hb
    rcases List.mem_append.mp hb with hb | hb
    · exact h.has b (hold ▸ List.mem_append_left _ hb)
    · rcases List.mem_append.mp hb with hb | hb
      · exact h.has b (hold ▸ List.mem_append_right _ hb)
      · obtain ⟨n, hn, rfl⟩ := List.mem_map.mp hb
        exact (mapped_has (hnew n hn)).1
  · rintro session' ⟨⟩ b hb
    rcases List.mem_append.mp hb with hb | hb
    · exact h.svas session hsession b hb
    · obtain ⟨n, hn, rfl⟩ := List.mem_map.mp hb
      exact (mapped_has (hnew n hn)).2.2

theorem Holds.map (h : Holds sva s) {request : Option (List (MapRequestBuffer × Answers))}
    {maps : Bool} (hmaps : Maps sva s (.map request maps)) :
    Holds sva (Owned.map s request maps) := by
  unfold Owned.map
  split
  · rename_i session bufs hsession
    by_cases hmax : mcMapMax < bufs.length
    · rw [if_pos hmax]
      exact h
    · rw [if_neg hmax]
      have hok := hmaps (by rw [hsession]; rfl) (Nat.le_of_not_lt hmax)
      have halloc : Keeps sva
          (s.note (((accept bufs).2.flatMap NewBuffer.regions).map .allocates)).log
            ((accept bufs).2.flatMap NewBuffer.regions ++ s.objects.map Buffer.region) :=
        h.keeps.allocateAll _
      by_cases hrefused : (accept bufs).1 = false
      · rw [if_pos hrefused]
        rw [if_neg (by simp [hrefused])] at hok
        exact ⟨halloc.destroyNew hok, h.has, h.svas⟩
      · rw [if_neg hrefused]
        rw [if_pos (by simpa using hrefused)] at hok
        obtain ⟨hhas, hregions⟩ := accept_mem_has hok.1
        have hpass : Keeps sva ((s.note (((accept bufs).2.flatMap NewBuffer.regions).map
            .allocates)).note [.passes ((accept bufs).2.map fun n => .buffer n.buffer.info)]).log
              ((accept bufs).2.flatMap NewBuffer.regions ++ s.objects.map Buffer.region) := by
          refine halloc.pass ?_
          intro e he
          obtain ⟨n, hn, rfl⟩ := List.mem_map.mp he
          have hbuffer := List.mem_map_of_mem (f := NewBuffer.buffer) hn
          refine (hhas _ hbuffer).owned ?_ fun hsva => ?_
          · rw [hregions]
            exact List.mem_append_left _ (List.mem_map_of_mem hbuffer)
          · rw [hok.2 hsva] at hn
            simp at hn
        by_cases hmapped : maps = true
        · rw [if_pos hmapped]
          exact h.addBuffers hsession hpass hok.1
        · rw [if_neg hmapped]
          exact ⟨hpass.destroyNew fun n hn => not_misfrees_of_isSome (hok.1 n hn), h.has, h.svas⟩
  · exact h

/-- What is found is removed. -/
theorem perm_eraseP_of_find? {α : Type} {p : α → Bool} {l : List α} {a : α}
    (h : l.find? p = some a) : l.Perm (a :: l.eraseP p) := by
  induction l with
  | nil => simp at h
  | cons b l ih =>
    by_cases hb : p b = true
    · rw [List.find?_cons_of_pos hb, Option.some.injEq] at h
      rw [List.eraseP_cons_of_pos hb, h]
    · rw [List.find?_cons_of_neg hb] at h
      rw [List.eraseP_cons_of_neg hb]
      exact ((ih h).cons b).trans (List.Perm.swap a b _)

theorem findBuffer_mem {buffers : List Buffer} {sva : Nat} {b : Buffer}
    (h : findBuffer buffers sva = some b) : b ∈ buffers := List.mem_of_find?_eq_some h

/-- A buffer that is removed goes with its memory. -/
theorem Keeps.removeFound {buffers : List Buffer}
    (h : Keeps sva log (buffers.map Buffer.region ++ rs)) (hhas : ∀ b ∈ buffers, b.Has)
    (freed : Nat → Nat) (gone svas : List Nat) :
    Keeps sva (log ++ (Owned.removeFound freed gone svas buffers).1)
        ((Owned.removeFound freed gone svas buffers).2.map Buffer.region ++ rs) ∧
      ∀ b ∈ (Owned.removeFound freed gone svas buffers).2, b ∈ buffers := by
  induction svas generalizing gone buffers log with
  | nil =>
    refine ⟨?_, fun b hb => hb⟩
    simpa [Owned.removeFound] using h
  | cons found svas ih =>
    rw [Owned.removeFound]
    cases hremove : removeBuffer buffers (if found ∈ gone then freed svas.length else found) with
    | none =>
      refine ⟨?_, fun b hb => hb⟩
      simpa using h
    | some p =>
      obtain ⟨b, hb, rfl⟩ := Option.map_eq_some_iff.mp hremove
      have hperm := ((perm_eraseP_of_find? hb).map Buffer.region).append_right rs
      have hnext : Keeps sva (log ++ b.destroy) ((buffers.eraseP fun b => b.info.sva =
          some (if found ∈ gone then freed svas.length else found)).map Buffer.region ++ rs) := by
        rw [(hhas b (findBuffer_mem hb)).destroy]
        exact (h.perm hperm).release
      obtain ⟨hkeeps, hsub⟩ := ih hnext (fun b' hb' => hhas b' (List.mem_of_mem_eraseP hb')) _
      refine ⟨?_, fun b' hb' => List.mem_of_mem_eraseP (hsub b' hb')⟩
      rw [← List.append_assoc]
      exact hkeeps

theorem mapM_found {buffers found : List Buffer} {svas : List (Option Nat)}
    (h : svas.mapM (fun sva => sva.bind (findBuffer buffers)) = some found) :
    ∀ b ∈ found, b ∈ buffers := by
  induction svas generalizing found with
  | nil =>
    cases h
    simp
  | cons sva svas ih =>
    rw [List.mapM_cons] at h
    obtain ⟨b, hb, h⟩ := Option.bind_eq_some_iff.mp h
    obtain ⟨bs, hbs, h⟩ := Option.bind_eq_some_iff.mp h
    cases h
    obtain ⟨k, -, hk⟩ := Option.bind_eq_some_iff.mp hb
    exact List.forall_mem_cons.mpr ⟨findBuffer_mem hk, ih hbs⟩

theorem Holds.unmap (h : Holds sva s) (request : Option (List (Option Nat))) (unmaps : Bool)
    (freed : Nat → Nat) : Holds sva (Owned.unmap s request unmaps freed) := by
  unfold Owned.unmap
  split
  · rename_i session svas hsession
    by_cases hmax : mcMapMax < svas.length ∨ session.buffers.length < svas.length
    · rw [if_pos hmax]
      exact h
    · rw [if_neg hmax]
      split
      · exact h
      · rename_i found hfound
        have hobjects := objects_some hsession
        have hbuffers : ∀ b ∈ session.buffers, b ∈ s.objects := by
          intro b hb
          rw [hobjects]
          exact List.mem_append_right _ hb
        -- each entry that the driver gets is that of an object of the session
        have hpass : Keeps sva (s.note [.passes (found.map fun b => .buffer b.info)]).log
            (s.objects.map Buffer.region) := by
          refine h.keeps.pass ?_
          intro e he
          obtain ⟨b, hb, rfl⟩ := List.mem_map.mp he
          have hmem := mapM_found hfound b hb
          exact (h.has b (hbuffers b hmem)).owned (List.mem_map_of_mem (hbuffers b hmem))
            fun _ => h.svas session hsession b hmem
        by_cases hunmaps : unmaps = true
        · rw [if_pos hunmaps]
          have hsplit : (s.objects.map Buffer.region).Perm (session.buffers.map Buffer.region ++
              session.tci.toList.map Buffer.region) := by
            rw [hobjects, Session.objects, List.map_append]
            exact List.perm_append_comm
          obtain ⟨hkeeps, hsub⟩ := (hpass.perm hsplit).removeFound
            (fun b hb => h.has b (hbuffers b hb)) freed [] (found.filterMap (·.info.sva))
          refine ⟨?_, ?_, ?_⟩
          · rw [objects_some rfl]
            refine hkeeps.perm ?_
            rw [Session.objects, List.map_append]
            exact List.perm_append_comm
          · rw [objects_some rfl]
            intro b hb
            rcases List.mem_append.mp hb with hb | hb
            · exact h.has b (hobjects ▸ List.mem_append_left _ hb)
            · exact h.has b (hbuffers b (hsub b hb))
          · rintro session' ⟨⟩ b hb
            exact h.svas session hsession b (hsub b hb)
        · rw [if_neg hunmaps]
          exact ⟨hpass, h.has, h.svas⟩
  · exact h

theorem Holds.deleteSession (h : Holds sva s) : Holds sva s.deleteSession := by
  refine Holds.of_none ?_ rfl
  have hkeeps := h.keeps
  rw [← List.append_nil (s.objects.map Buffer.region)] at hkeeps
  have hdestroy : s.session_.toList.flatMap Session.destroy = s.objects.flatMap Buffer.destroy := by
    unfold Server.objects Session.destroy
    rw [List.flatMap_assoc]
  show Keeps sva (s.log ++ _) _
  rw [hdestroy]
  exact hkeeps.destroyAll h.has

/-- An action whose memory could be allocated. -/
theorem Holds.perform (h : Holds sva s) {a : Action} (hmaps : Maps sva s a) :
    Holds sva (s.perform a) := by
  cases a with
  | openSession request a outcome => exact h.openSession hmaps
  | openTrustlet request app a outcome => exact h.openTrustlet hmaps
  | map request maps => exact h.map hmaps
  | unmap request unmaps freed => exact h.unmap request unmaps freed
  | close => exact h.deleteSession
  | delete =>
    have hdelete := h.deleteSession
    exact ⟨hdelete.keeps, hdelete.has, hdelete.svas⟩

end Owns

/-! ## When the server hands out what it owns -/

section Main

variable {sva : Bool} {s t : Server} {a : Answers} {log : List Event}

/-- Nothing is released that could not have been allocated. -/
theorem not_releases_zero (h : HandsOwned sva t) (hnonzero : Nonzero t) (length : Nat) :
    .releases ⟨0, length⟩ ∉ t.log := by
  intro hr
  rcases allocates_of_releases h.accounted hr with hlive | hlog
  · simp at hlive
  · exact hnonzero _ hlog rfl

/-- The driver gets no address that nobody has set. -/
theorem not_passes_unset {entries : List Entry} (h : HandsOwned sva t)
    (hp : .passes entries ∈ t.log) (len : Option Nat) : .memory none len ∉ entries := by
  intro hmem
  obtain ⟨live, howned⟩ := owned_of_passes h.accounted hp
  obtain ⟨r, -, hva, -⟩ := howned _ hmem
  simp at hva

theorem passes_callOpen (s : Server) (entries : List Entry) (tci : Option Buffer)
    (outcome : OpenOutcome) : .passes entries ∈ (s.callOpen entries tci outcome).log := by
  have hpass : .passes entries ∈ (s.note [.passes entries]).log :=
    List.mem_append_right _ (List.mem_singleton_self _)
  cases outcome with
  | opened => exact hpass
  | _ => exact List.mem_append_left _ hpass

/-- The entry for a TCI that there was no memory for. -/
theorem tciEntries_failed {buffer : List UInt8} (h : a.mmap = none) :
    .memory none none ∈ tciEntries ((some buffer).map fun buffer => Buffer.ofString buffer a) := by
  show _ ∈ [Entry.memory (Buffer.ofString buffer a).info.va (Buffer.ofString buffer a).info.len]
  rw [ofString_eq, ofLength_failed h]
  exact List.mem_singleton_self _

theorem openSession_maps {request : Option OpenSessionRequest} {outcome : OpenOutcome}
    (h : HandsOwned sva (Owned.openSession s request a outcome))
    (hnonzero : Nonzero (Owned.openSession s request a outcome)) :
    Maps sva s (.openSession request a outcome) := by
  cases request with
  | none => trivial
  | some r =>
    intro hnone huuid htci
    obtain ⟨buffer, hbuffer⟩ := Option.isSome_iff_exists.mp htci
    unfold Owned.openSession at h hnonzero
    simp only [hnone, huuid, ne_eq, not_true_eq_false, if_false, hbuffer] at h hnonzero
    split
    · rename_i hlogin
      rw [if_neg (not_not.mpr hlogin)] at h hnonzero
      by_contra hmmap
      exact not_passes_unset h (passes_callOpen _ _ _ outcome) none
        (tciEntries_failed (Option.not_isSome_iff_eq_none.mp hmmap))
    · rename_i hlogin
      rw [if_pos hlogin] at h hnonzero
      intro hmisfrees
      refine not_releases_zero h hnonzero a.garbage.len (List.mem_append_right _ ?_)
      show _ ∈ (Buffer.ofString buffer a).destroy ++ []
      rw [List.append_nil]
      exact destroy_misfrees hmisfrees

theorem openTrustlet_maps {request : Option OpenTrustletRequest} {app : Option Nat}
    {outcome : OpenOutcome} (h : HandsOwned sva (Owned.openTrustlet s request app a outcome)) :
    Maps sva s (.openTrustlet request app a outcome) := by
  cases request with
  | none => trivial
  | some r =>
    cases app with
    | none => trivial
    | some address =>
      intro hnone htci
      obtain ⟨buffer, hbuffer⟩ := Option.isSome_iff_exists.mp htci
      unfold Owned.openTrustlet at h
      simp only [hnone, hbuffer] at h
      by_contra hmmap
      exact not_passes_unset h (List.mem_append_left _ (passes_callOpen _ _ _ outcome)) none
        (List.mem_cons_of_mem _ (tciEntries_failed (Option.not_isSome_iff_eq_none.mp hmmap)))

/-- Nobody sets the secure address of a new buffer. -/
theorem sva_ofLength (n : NewBuffer) : n.buffer.info.sva = none := by
  unfold NewBuffer.buffer Buffer.ofLength Buffer.alloc
  cases n.answers.mmap with
  | none => rfl
  | some address => rfl

/-- A map whose buffers are accepted reaches the driver. -/
theorem passes_map {session : Session} {bufs : List (MapRequestBuffer × Answers)}
    (hsession : s.session_ = some session) (hmax : bufs.length ≤ mcMapMax)
    (hok : (accept bufs).1 = true) (maps : Bool) :
    .passes ((accept bufs).2.map fun n => .buffer n.buffer.info) ∈
      (Owned.map s (some bufs) maps).log := by
  unfold Owned.map
  simp only [hsession, Nat.not_lt.mpr hmax, hok, if_false, Bool.true_eq_false]
  have hpass : .passes ((accept bufs).2.map fun n => .buffer n.buffer.info) ∈
      ((s.note (((accept bufs).2.flatMap NewBuffer.regions).map .allocates)).note
        [.passes ((accept bufs).2.map fun n => .buffer n.buffer.info)]).log :=
    List.mem_append_right _ (List.mem_singleton_self _)
  split
  · exact hpass
  · exact List.mem_append_left _ hpass

theorem map_maps {request : Option (List (MapRequestBuffer × Answers))} {maps : Bool}
    (h : HandsOwned sva (Owned.map s request maps)) (hnonzero : Nonzero (Owned.map s request maps)) :
    Maps sva s (.map request maps) := by
  cases request with
  | none => trivial
  | some bufs =>
    intro hsome hmax
    obtain ⟨session, hsession⟩ := Option.isSome_iff_exists.mp hsome
    split
    · rename_i hok
      obtain ⟨live, howned⟩ := owned_of_passes h.accounted (passes_map hsession hmax hok maps)
      have hnew : ∀ n ∈ (accept bufs).2, (Entry.buffer n.buffer.info).OwnedBy sva live :=
        fun n hn => howned _ (List.mem_map.mpr ⟨n, hn, rfl⟩)
      refine ⟨fun n hn => ?_, fun hsva => ?_⟩
      · by_contra hmmap
        obtain ⟨⟨r, -, hva, -⟩, -⟩ := hnew n hn
        rw [NewBuffer.buffer, ofLength_failed (Option.not_isSome_iff_eq_none.mp hmmap)] at hva
        simp [Buffer.unset] at hva
      · refine List.eq_nil_iff_forall_not_mem.mpr fun n hn => ?_
        have hset := (hnew n hn).2.2 hsva
        rw [sva_ofLength] at hset
        simp at hset
    · rename_i hrefused
      unfold Owned.map at h hnonzero
      have hfalse : (accept bufs).1 = false := by simpa using hrefused
      simp only [hsession, Nat.not_lt.mpr hmax, hfalse, if_false, if_true] at h hnonzero
      intro n hn hmisfrees
      refine not_releases_zero h hnonzero n.answers.garbage.len (List.mem_append_right _ ?_)
      exact List.mem_flatMap.mpr ⟨n, List.mem_reverse.mpr hn, destroy_misfrees hmisfrees⟩

theorem perform_maps {act : Action} (h : HandsOwned sva (s.perform act))
    (hnonzero : Nonzero (s.perform act)) : Maps sva s act := by
  cases act with
  | openSession request a outcome => exact openSession_maps h hnonzero
  | openTrustlet request app a outcome => exact openTrustlet_maps h
  | map request maps => exact map_maps h hnonzero
  | _ => trivial

/-- What a step of the machine is. -/
theorem step_eq_some {act : Action} (h : serverMachine.step s act = some t) :
    Allocates s act ∧ t = s.perform act := by
  have hif : (if s.deleted = false ∧ Allocates s act then some (s.perform act) else none) = some t := h
  split_ifs at hif with hcond
  exact ⟨hcond.2, (Option.some.inj hif).symm⟩

theorem Nonzero.perform {act : Action} (h : Nonzero s) (ha : Allocates s act) :
    Nonzero (s.perform act) := fun r hr => (perform_allocates hr).elim (h r) (ha.address r)

/-- **When the server hands out only what it owns.** -/
theorem handsOwned_iff (sva : Bool) {as : List Action}
    (hrun : serverMachine.run ⟨none, false, []⟩ as = some t) :
    serverMachine.RunStays (HandsOwned sva) ⟨none, false, []⟩ as ↔
      serverMachine.RunMeets (Maps sva) ⟨none, false, []⟩ as := by
  have hinit : Holds sva ⟨none, false, []⟩ ∧ Nonzero ⟨none, false, []⟩ :=
    ⟨Holds.of_none ⟨trivial, List.Perm.refl _⟩ rfl, by simp [Nonzero]⟩
  refine serverMachine.runStays_iff_runMeets (I := fun s => Holds sva s ∧ Nonzero s)
    (fun s h => h.1.handsOwned) ?_ ?_ hinit hrun
  · intro s act t h ht hmaps
    obtain ⟨ha, rfl⟩ := step_eq_some ht
    exact ⟨h.1.perform hmaps, h.2.perform ha⟩
  · intro s act t h ht howned
    obtain ⟨ha, rfl⟩ := step_eq_some ht
    exact perform_maps howned (h.2.perform ha)

end Main

/-- A session with a TCI of four bytes. -/
def opensWithTci : Action :=
  .openSession (some ⟨List.replicate 16 0, false, some [1, 2, 3, 4], 0, List.replicate 16 0⟩)
    ⟨some 0x8000, ⟨.server, 64⟩, 0⟩ .opened

/-- A request for a buffer; what was there before it has the marks of a buffer object. -/
def mapsOne (len : UInt32) (mmap : Option Nat) (maps : Bool) : Action :=
  .map (some [(⟨some len, some 3⟩, ⟨mmap, ⟨.server, 64⟩, 0x100⟩)]) maps

/-- A buffer is mapped, and unmapped under its secure address, before the session is closed. -/
theorem handsOwned_mapped :
    serverMachine.RunStays (HandsOwned false) ⟨none, false, []⟩
      [opensWithTci, mapsOne 64 (some 0x9000) true, .unmap (some [some 0x100]) true id, .close,
        .delete] := by
  apply (handsOwned_iff false rfl).mpr
  decide

/-- A buffer without a length is passed to the driver without an address. -/
theorem not_handsOwned :
    ¬ serverMachine.RunStays (HandsOwned false) ⟨none, false, []⟩
      [opensWithTci, mapsOne 0 none false] := by
  intro h
  have hlast := (h.last rfl).accounted
  have hpass : .passes [.buffer ⟨none, none, none, none⟩] ∈
      ((⟨none, false, []⟩ : Server).perform opensWithTci |>.perform (mapsOne 0 none false)).log := by
    decide
  obtain ⟨live, howned⟩ := owned_of_passes hlast hpass
  obtain ⟨⟨r, -, hva, -⟩, -⟩ := howned _ (List.mem_singleton_self _)
  cases hva

end McDaemon.Proxy.Owned
