/-
# McDaemon.Proxy.SharedMemory — the two copies of the memory that a session shares.

The TCI and the mapped buffers are the memory of the client, and the server has a copy of each, on
which the TA works.  A notify sends the TCI and the buffers with `MC_IO_MAP_INPUT` to the server, and
a wait brings back the TCI and those with `MC_IO_MAP_OUTPUT`, each of them whole.  The copy of a
buffer begins with zeroes.
-/
import McDaemon.Lib.KeyedList
import McDaemon.Lib.Machine
import McDaemon.Proxy.ClientCalls

namespace McDaemon.Proxy.Memory

open McDaemon.Lib
open McDaemon.Proxy.ClientCalls (waitsPartially leftBehind)

/-! ## The copies -/

def mcIoMapInput : UInt32 := 1
def mcIoMapOutput : UInt32 := 2
def mcIoMapInputOutput : UInt32 := 3

def isInput (flags : UInt32) : Bool := flags &&& mcIoMapInput ≠ 0
def isOutput (flags : UInt32) : Bool := flags &&& mcIoMapOutput ≠ 0

/-- `Session::Buffer` of a mapped buffer, on either side. -/
structure Buffer where
  sva : Nat
  flags : UInt32
  data : List UInt8
deriving DecidableEq, Repr

/-- Change the contents. -/
def Buffer.fill (f : List UInt8 → List UInt8) (b : Buffer) : Buffer := { b with data := f b.data }

/-- `Session`, on either side. -/
structure Session where
  tci : Option (List UInt8)
  buffers : List Buffer
deriving DecidableEq, Repr

/-- What a `NotifyRequest` and a `WaitNotificationResponse` carry: the TCI, and buffers by secure
address. -/
structure Message where
  tci : Option (List UInt8)
  buffers : List (Nat × List UInt8)
deriving DecidableEq, Repr

/-- The message with the buffers of one direction. -/
def Session.message (s : Session) (goes : UInt32 → Bool) : Message :=
  ⟨s.tci, (s.buffers.filter fun b => goes b.flags).map fun b => (b.sva, b.data)⟩

/-- The loop over the buffers of a message.  The server goes on when the sizes differ, the client
(`strict`) returns. -/
def copyIn (strict : Bool) : List (Nat × List UInt8) → List Buffer → Bool × List Buffer
  | [], buffers => (true, buffers)
  | (sva, data) :: rest, buffers =>
    match KeyedList.get Buffer.sva sva buffers with
    | none => (false, buffers)
    | some b =>
      if data.length = b.data.length then
        copyIn strict rest (KeyedList.modify Buffer.sva sva (Buffer.fill fun _ => data) buffers)
      else if strict then (false, buffers)
      else copyIn strict rest buffers

/-- The update of the mapped buffers in `ServerConnection::notify`. -/
def serverBuffers (s : Session) (request : Message) : Bool × Session :=
  if s.buffers.length < request.buffers.length then (false, s)
  else ((copyIn false request.buffers s.buffers).1,
    { s with buffers := (copyIn false request.buffers s.buffers).2 })

/-- `ServerConnection::notify` up to the call of the driver; `false` for a protocol error. -/
def serverNotify (s : Session) (request : Message) : Bool × Session :=
  match s.tci with
  | none => serverBuffers s request
  | some d =>
    match request.tci with
    | none => (false, s)
    | some e =>
      if e.length = d.length then serverBuffers { s with tci := some e } request else (false, s)

def clientBuffers (s : Session) (response : Message) : Bool × Session :=
  ((copyIn true response.buffers s.buffers).1,
    { s with buffers := (copyIn true response.buffers s.buffers).2 })

/-- `ProxyClient::waitNotification` behind its exchange. -/
def clientUpdate (s : Session) (response : Message) : Bool × Session :=
  match response.tci with
  | none => clientBuffers s response
  | some e =>
    match s.tci with
    | none => (false, s)
    | some d =>
      if e.length = d.length then clientBuffers { s with tci := some e } response else (false, s)

/-! ## The memory by place -/

/-- The TCI, or the buffer with a secure address. -/
inductive Place where
  | tci
  | buffer (sva : Nat)
deriving DecidableEq, Repr

namespace Session

/-- The flags and the contents of a place; the TCI goes both ways. -/
def entry (s : Session) : Place → Option (UInt32 × List UInt8)
  | .tci => s.tci.map fun d => (mcIoMapInputOutput, d)
  | .buffer sva => (KeyedList.get Buffer.sva sva s.buffers).map fun b => (b.flags, b.data)

def byte (s : Session) (p : Place) (i : Nat) : Option UInt8 := (s.entry p).bind fun e => e.2[i]?

/-- Write a byte. -/
def write (s : Session) (p : Place) (i : Nat) (v : UInt8) : Session :=
  match p with
  | .tci => { s with tci := s.tci.map fun d => d.set i v }
  | .buffer sva =>
    { s with buffers := KeyedList.modify Buffer.sva sva (Buffer.fill fun d => d.set i v) s.buffers }

end Session

/-! ## Calls and writes -/

/-- How the exchange of a call ends; `timeout` tells that `errno` is `ETIME`. -/
inductive Answer where
  | done
  | refused (timeout : Bool)
  | broken (timeout : Bool)
deriving DecidableEq, Repr

/-- A wait is in its loop, or has its response. -/
inductive Stage where
  | idle
  | waiting (timeout left : Int)
  | answered (response : Message)
deriving DecidableEq, Repr

/-- The two ends of an open session. -/
structure Link where
  client : Session
  server : Session
  isBroken : Bool
  stage : Stage
deriving DecidableEq, Repr

/-- What a call leaves when it would leave `done` on success: an error changes nothing, unless the
connection is broken. -/
def Link.ends (l : Link) (a : Answer) (done : Option Link) : Option Link :=
  match a with
  | .done => done
  | .refused _ => if l.isBroken then none else some l
  | .broken _ => none

/-- Open, close, map and unmap a session, notify, begin a wait, an exchange of a wait, the update
behind it, and the writes of the client and of the TA. -/
inductive Action where
  | openSession (tci : Option (List UInt8)) (a : Answer)
  | closeSession (a : Answer)
  | map (bufs : List (UInt32 × List UInt8)) (svas : List Nat) (a : Answer)
  | unmap (svas : List Nat) (a : Answer)
  | notify (a : Answer)
  | wait (timeout : Int)
  | exchange (a : Answer)
  | update
  | write (p : Place) (i : Nat) (v : UInt8)
  | taWrites (p : Place) (i : Nat) (v : UInt8)
deriving DecidableEq, Repr

namespace Link

/-- `openSession` and `openTrustlet`. -/
def openSession (tci : Option (List UInt8)) (a : Answer) : Option Link :=
  if tci.any (fun d => d = [] ∨ bufferLengthMax < d.length) then none
  else if a = .done then some ⟨⟨tci, []⟩, ⟨tci, []⟩, false, .idle⟩
  else none

/-- The buffers that the client has mapped, and their copies. -/
def mapped (bufs : List (UInt32 × List UInt8)) (svas : List Nat) : List Buffer :=
  (bufs.zip svas).map fun x => ⟨x.2, x.1.1, x.1.2⟩

def copies (bufs : List (UInt32 × List UInt8)) (svas : List Nat) : List Buffer :=
  (mapped bufs svas).map fun b => { b with data := List.replicate b.data.length 0 }

/-- `map`, where `svas` are the addresses that the driver gives. -/
def map (l : Link) (bufs : List (UInt32 × List UInt8)) (svas : List Nat) (a : Answer) :
    Option Link :=
  if bufs.any (fun b => bufferLengthMax < b.2.length) then some l
  else if bufs.any (fun b => !validFlags b.1) then none
  else l.ends a (some { l with
    client := { l.client with buffers := l.client.buffers ++ mapped bufs svas }
    server := { l.server with buffers := l.server.buffers ++ copies bufs svas } })

def remove (svas : List Nat) (s : Session) : Session :=
  { s with buffers := s.buffers.filter fun b => b.sva ∉ svas }

def unmap (l : Link) (svas : List Nat) (a : Answer) : Option Link :=
  if svas.contains 0 then some l
  else if l.server.buffers.length < svas.length then none
  else if svas.any (fun sva => (KeyedList.get Buffer.sva sva l.server.buffers).isNone) then
    l.ends (.refused false) (some l)
  else l.ends a (some { l with client := remove svas l.client, server := remove svas l.server })

/-- `notify`; the copies of the server are those of the client even if the driver refuses. -/
def notify (l : Link) (a : Answer) : Option Link :=
  let r := serverNotify l.server (l.client.message isInput)
  if r.1 then { l with server := r.2 }.ends a (some { l with server := r.2 }) else none

/-- An exchange of the loop of a wait.  A partial timeout is tried again, another error comes with
the memory as well, unless the connection is broken. -/
def exchange (l : Link) (timeout left : Int) (a : Answer) : Option Link :=
  let response := l.server.message isOutput
  match a with
  | .done => some { l with stage := .answered response }
  | .refused etime =>
    if etime && waitsPartially timeout left then
      some { l with stage := .waiting timeout (leftBehind timeout left) }
    else l.ends a (some l) |>.map fun l => { l with stage := .answered response }
  | .broken etime =>
    if etime && waitsPartially timeout left then
      some { l with isBroken := true, stage := .waiting timeout (leftBehind timeout left) }
    else none

/-- The buffers are not empty, and the driver gives addresses that are not in use. -/
def Maps (l : Link) (bufs : List (UInt32 × List UInt8)) (svas : List Nat) : Prop :=
  bufs.length ≤ mcMapMax ∧ (∀ b ∈ bufs, b.2 ≠ []) ∧ svas.length = bufs.length ∧
    (l.server.buffers.map Buffer.sva ++ svas).Nodup

instance decidableMaps (l : Link) (bufs : List (UInt32 × List UInt8)) (svas : List Nat) :
    Decidable (l.Maps bufs svas) :=
  inferInstanceAs (Decidable (_ ∧ _ ∧ _ ∧ _))

/-- A step on an open session. -/
def step (l : Link) : Action → Option (Option Link)
  | .openSession _ _ => none
  | .write p i v =>
    if (l.client.byte p i).isSome then some (some { l with client := l.client.write p i v })
    else none
  -- the TA writes to the TCI and to the buffers that it may write to
  | .taWrites p i v =>
    if (l.server.byte p i).isSome ∧ (l.server.entry p).any (fun e => isOutput e.1) then
      some (some { l with server := l.server.write p i v })
    else none
  | .exchange a =>
    match l.stage with
    | .waiting timeout left => some (l.exchange timeout left a)
    | _ => none
  | .update =>
    match l.stage with
    | .answered response =>
      some (some { l with client := (clientUpdate l.client response).2, stage := .idle })
    | _ => none
  | .closeSession a => if l.stage = .idle then some (l.ends a none) else none
  | .map bufs svas a =>
    if l.stage = .idle ∧ l.Maps bufs svas then some (l.map bufs svas a) else none
  -- the driver refuses to unmap a buffer twice
  | .unmap svas a =>
    if l.stage = .idle ∧ (a = .done → svas.Nodup) then some (l.unmap svas a) else none
  | .notify a => if l.stage = .idle then some (l.notify a) else none
  | .wait timeout =>
    if l.stage = .idle then some (some { l with stage := .waiting timeout timeout }) else none

end Link

/-- A session that is not open, or its two ends. -/
def memoryMachine : Machine (Option Link) Action where
  init := (· = none)
  step := fun s a =>
    match s, a with
    | none, .openSession tci a => some (Link.openSession tci a)
    | none, _ => none
    | some l, a => l.step a

/-! ## What the copying does to a place -/

/-- What a buffer keeps when its contents are replaced. -/
def Buffer.shape (b : Buffer) : Nat × UInt32 × Nat := (b.sva, b.flags, b.data.length)

/-- The places of a session, their flags and their sizes. -/
def Session.shape (s : Session) : Option Nat × List (Nat × UInt32 × Nat) :=
  (s.tci.map List.length, s.buffers.map Buffer.shape)

/-- The contents that a message has for a place. -/
def Message.data (m : Message) : Place → Option (List UInt8)
  | .tci => m.tci
  | .buffer sva => (KeyedList.get Prod.fst sva m.buffers).map Prod.snd

/-- Every part of the message has a place of its size in the session. -/
structure Fits (m : Message) (s : Session) : Prop where
  tci : m.tci.map List.length = s.tci.map List.length
  nodup : (m.buffers.map Prod.fst).Nodup
  buffers : ∀ x ∈ m.buffers,
    (KeyedList.get Buffer.sva x.1 s.buffers).map Buffer.shape |>.any (·.2.2 = x.2.length)

section Places

variable {s c t : Session} {m : Message}

theorem get_shape {l k : List Buffer} (h : l.map Buffer.shape = k.map Buffer.shape) (sva : Nat) :
    (KeyedList.get Buffer.sva sva l).map Buffer.shape =
      (KeyedList.get Buffer.sva sva k).map Buffer.shape := by
  have hkey : ∀ b, Prod.fst (Buffer.shape b) = b.sva := fun _ => rfl
  exact KeyedList.get_congr hkey h sva

theorem get_fill (f : List UInt8 → List UInt8) (j k : Nat) (l : List Buffer) :
    KeyedList.get Buffer.sva j (KeyedList.modify Buffer.sva k (Buffer.fill f) l) =
      if j = k then (KeyedList.get Buffer.sva j l).map (Buffer.fill f)
      else KeyedList.get Buffer.sva j l := by
  apply KeyedList.get_modify
  intro b
  rfl

theorem map_sva (l : List Buffer) : l.map Buffer.sva = (l.map Buffer.shape).map Prod.fst := by
  rw [List.map_map]
  rfl

/-- Sessions of one shape have the same places. -/
theorem entry_shape (h : c.shape = s.shape) (p : Place) :
    (c.entry p).map (fun e => (e.1, e.2.length)) =
      (s.entry p).map (fun e => (e.1, e.2.length)) := by
  obtain ⟨htci, hbuffers⟩ := Prod.mk.inj h
  cases p with
  | tci =>
    have hsize := congrArg (Option.map fun n => (mcIoMapInputOutput, n)) htci
    simpa [Session.entry, Function.comp_def] using hsize
  | buffer sva =>
    have hsize := congrArg (Option.map Prod.snd) (get_shape hbuffers sva)
    simpa [Session.entry, Function.comp_def, Buffer.shape] using hsize

theorem entry_of_shape (h : c.shape = s.shape) {p : Place} {e : UInt32 × List UInt8}
    (he : c.entry p = some e) :
    ∃ d, s.entry p = some (e.1, d) ∧ d.length = e.2.length := by
  have hsize := entry_shape h p
  rw [he, Option.map_some] at hsize
  obtain ⟨f, hf, hfe⟩ := Option.map_eq_some_iff.mp hsize.symm
  obtain ⟨hflags, hlength⟩ := Prod.mk.inj hfe
  exact ⟨f.2, by rw [hf, ← hflags], hlength⟩

theorem Fits.congr (h : Fits m s) (hshape : s.shape = c.shape) : Fits m c := by
  obtain ⟨htci, hbuffers⟩ := Prod.mk.inj hshape
  refine ⟨h.tci.trans htci, h.nodup, fun x hx => ?_⟩
  rw [← get_shape hbuffers]
  exact h.buffers x hx

/-- The sides of a session can take each other's messages. -/
theorem fits_message (h : (s.buffers.map Buffer.sva).Nodup) (goes : UInt32 → Bool) :
    Fits (s.message goes) s := by
  refine ⟨rfl, ?_, ?_⟩
  · simp only [Session.message, List.map_map]
    exact h.sublist (List.Sublist.map _ List.filter_sublist)
  · intro x hx
    obtain ⟨b, hb, rfl⟩ := List.mem_map.mp hx
    rw [(KeyedList.get_eq_some_iff h).mpr ⟨List.mem_of_mem_filter hb, rfl⟩]
    simp [Buffer.shape]

/-- What a message has for a place. -/
theorem data_message (h : (s.buffers.map Buffer.sva).Nodup) {goes : UInt32 → Bool}
    (hgoes : goes mcIoMapInputOutput = true) (p : Place) :
    (s.message goes).data p = ((s.entry p).filter fun e => goes e.1).map Prod.snd := by
  cases p with
  | tci =>
    cases htci : s.tci <;>
      simp [Session.message, Message.data, Session.entry, htci, Option.filter, hgoes]
  | buffer sva =>
    have hmap : KeyedList.get Prod.fst sva (s.message goes).buffers =
        (KeyedList.get Buffer.sva sva (s.buffers.filter fun b => goes b.flags)).map
          fun b => (b.sva, b.data) :=
      KeyedList.get_map (fun _ => rfl) sva _
    simp only [Message.data, Session.entry]
    rw [hmap, KeyedList.get_filter h]
    cases KeyedList.get Buffer.sva sva s.buffers with
    | none => rfl
    | some b => cases hflags : goes b.flags <;> simp [Option.filter, hflags]

/-- **The loop over the buffers.** A message that fits is copied in whole, and nothing else is. -/
theorem copyIn_spec (strict : Bool) {sent : List (Nat × List UInt8)} {l : List Buffer}
    (hnodup : (sent.map Prod.fst).Nodup)
    (hfits : ∀ x ∈ sent,
      (KeyedList.get Buffer.sva x.1 l).map Buffer.shape |>.any (·.2.2 = x.2.length)) :
    (copyIn strict sent l).1 = true ∧
      (copyIn strict sent l).2.map Buffer.shape = l.map Buffer.shape ∧
      ∀ sva, KeyedList.get Buffer.sva sva (copyIn strict sent l).2 =
        (KeyedList.get Buffer.sva sva l).map
          (Buffer.fill ((KeyedList.get Prod.fst sva sent).map Prod.snd).getD) := by
  induction sent generalizing l with
  | nil =>
    have hkeep : Buffer.fill none.getD = id := rfl
    exact ⟨rfl, rfl, fun sva => by simp [copyIn, hkeep]⟩
  | cons x sent ih =>
    obtain ⟨sva, data⟩ := x
    obtain ⟨hnot, hnodup⟩ := List.nodup_cons.mp hnodup
    have hhead := hfits (sva, data) List.mem_cons_self
    cases hb : KeyedList.get Buffer.sva sva l with
    | none => simp [hb] at hhead
    | some b =>
      have hlength : data.length = b.data.length := by
        rw [hb] at hhead
        simpa [Buffer.shape, eq_comm] using hhead
      have hshape : (KeyedList.modify Buffer.sva sva (Buffer.fill fun _ => data) l).map
          Buffer.shape = l.map Buffer.shape := by
        apply KeyedList.map_modify
        intro a ha
        obtain rfl := Option.some.inj (hb.symm.trans ha)
        simp [Buffer.shape, Buffer.fill, hlength]
      obtain ⟨hok, hsame, hget⟩ := ih hnodup (l := KeyedList.modify Buffer.sva sva
        (Buffer.fill fun _ => data) l) fun y hy => by
          rw [get_shape hshape]
          exact hfits y (List.mem_cons_of_mem _ hy)
      have hunfold : copyIn strict ((sva, data) :: sent) l = copyIn strict sent
          (KeyedList.modify Buffer.sva sva (Buffer.fill fun _ => data) l) := by
        rw [copyIn, hb]
        exact if_pos hlength
      rw [hunfold]
      refine ⟨hok, hsame.trans hshape, fun other => ?_⟩
      rw [hget, get_fill, KeyedList.get_cons]
      by_cases hother : other = sva
      · subst hother
        -- the message has no second part for this buffer
        rw [if_pos rfl, if_pos rfl, KeyedList.get_eq_none_iff.mpr hnot, hb]
        rfl
      · rw [if_neg hother, if_neg fun heq => hother heq.symm]

/-- A session after a message was copied in. -/
def Takes (m : Message) (s t : Session) : Prop :=
  t.shape = s.shape ∧ ∀ p, t.entry p = (s.entry p).map fun e => (e.1, (m.data p).getD e.2)

theorem takes_buffers (strict : Bool) (h : Fits m s) :
    (copyIn strict m.buffers s.buffers).1 = true ∧
      Takes m s
        { tci := s.tci.map fun d => m.tci.getD d
          buffers := (copyIn strict m.buffers s.buffers).2 } := by
  obtain ⟨hok, hshape, hget⟩ := copyIn_spec strict h.nodup h.buffers
  refine ⟨hok, Prod.ext ?_ hshape, fun p => ?_⟩
  · have htci := h.tci
    cases hs : s.tci with
    | none => simp [Session.shape, hs]
    | some d =>
      rw [hs] at htci
      obtain ⟨e, he, hlength⟩ := Option.map_eq_some_iff.mp htci
      simp [Session.shape, hs, he, hlength]
  · cases p with
    | tci => cases hs : s.tci <;> simp [Session.entry, Message.data, hs]
    | buffer sva =>
      simp only [Session.entry, Message.data, hget, Option.map_map]
      rfl

/-- **A notify reaches the copies of the server.** -/
theorem serverNotify_spec (h : Fits m s) (hcount : m.buffers.length ≤ s.buffers.length) :
    (serverNotify s m).1 = true ∧ Takes m s (serverNotify s m).2 := by
  have htci := h.tci
  unfold serverNotify
  cases hs : s.tci with
  | none =>
    have hspec := takes_buffers false h
    simp only [serverBuffers, if_neg (Nat.not_lt.mpr hcount)]
    simpa [hs] using hspec
  | some d =>
    rw [hs] at htci
    obtain ⟨e, he, hlength⟩ := Option.map_eq_some_iff.mp htci
    have hspec := takes_buffers false h
    simp only [he, if_pos hlength, serverBuffers, if_neg (Nat.not_lt.mpr hcount)]
    simpa [hs, he] using hspec

/-- **A wait brings back what its response has.** -/
theorem clientUpdate_spec (h : Fits m s) :
    (clientUpdate s m).1 = true ∧ Takes m s (clientUpdate s m).2 := by
  have htci := h.tci
  have hspec := takes_buffers true h
  unfold clientUpdate
  cases hm : m.tci with
  | none =>
    have hs : s.tci = none := by simpa [hm] using htci.symm
    simpa [clientBuffers, hs] using hspec
  | some e =>
    rw [hm] at htci
    obtain ⟨d, hs, hlength⟩ := Option.map_eq_some_iff.mp htci.symm
    simp only [hs, if_pos hlength.symm, clientBuffers]
    simpa [hs, hm] using hspec

/-- What a write does to a place. -/
theorem entry_write (s : Session) (p q : Place) (i : Nat) (v : UInt8) :
    (s.write p i v).entry q =
      if q = p then (s.entry q).map fun e => (e.1, e.2.set i v) else s.entry q := by
  cases p with
  | tci => cases q <;> simp [Session.write, Session.entry, Function.comp_def]
  | buffer sva =>
    cases q with
    | tci => simp [Session.write, Session.entry]
    | buffer other =>
      simp only [Session.write, Session.entry, Place.buffer.injEq]
      rw [get_fill]
      split_ifs <;> simp [Function.comp_def, Buffer.fill]

theorem shape_write (s : Session) (p : Place) (i : Nat) (v : UInt8) :
    (s.write p i v).shape = s.shape := by
  cases p with
  | tci => simp [Session.write, Session.shape, Function.comp_def]
  | buffer sva =>
    refine Prod.ext rfl (KeyedList.map_modify fun b _ => ?_)
    simp [Buffer.shape, Buffer.fill]

theorem byte_write (s : Session) (p q : Place) (i j : Nat) (v : UInt8) :
    (s.write p i v).byte q j =
      if q = p ∧ j = i then (s.byte q j).map fun _ => v else s.byte q j := by
  unfold Session.byte
  rw [entry_write]
  by_cases hq : q = p
  · rw [if_pos hq]
    cases s.entry q with
    | none => simp
    | some e =>
      by_cases hj : j = i
      · subst hj
        by_cases hlt : j < e.2.length <;> simp [hq, hlt]
      · simp [hq, hj, Ne.symm hj]
  · simp [hq]

end Places

end McDaemon.Proxy.Memory
