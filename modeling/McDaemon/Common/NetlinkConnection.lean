/-
# McDaemon.Common.NetlinkConnection — the byte stream of a netlink connection.

A connection takes the buffer of a message over and hands its payload out in pieces; a semaphore
says whether something is left.  The buffer, the read position, the length that is left and the
count of the semaphore are kept separately.  They agree as long as messages bring a payload and
arrive when the one before has been read to its end, and no wait for one comes back for no reason;
nothing in the code makes sure of any of these.
-/
import McDaemon.Common.CSemaphore

namespace McDaemon.Common

open McDaemon.Lib

/-! ## Messages and calls -/

/-- `struct nlmsghdr` with the payload behind it, as `NLMSG_OK` lets it pass: the length counts the
header. -/
structure NlMessage where
  nlmsgLen : UInt32
  payload : List UInt8
  ok : nlmsgLen.toNat = 16 + payload.length

/-- `NLMSG_PAYLOAD(nlh, 0)`. -/
def nlmsgPayload (nlh : NlMessage) : UInt32 := nlh.nlmsgLen - 16

theorem toNat_nlmsgPayload (nlh : NlMessage) :
    (nlmsgPayload nlh).toNat = nlh.payload.length := by
  have hok := nlh.ok
  have hlt := nlh.nlmsgLen.toNat_lt
  have hheader : (16 : UInt32).toNat = 16 := rfl
  rw [nlmsgPayload, UInt32.toNat_sub, hheader]
  omega

/-- `wait(int sec)` with no other thread at the semaphore: it takes a count, or is timed out, or
comes back from its condition wait for no reason and takes a count that is not there. -/
def CSemaphore.waitAlone (s : CSemaphore) (spurious : Bool) : Bool × CSemaphore :=
  if s.count = 0 ∧ spurious = false then (false, s)
  else (true, { s with waitersCount := s.waitersCount + 1 }.take)

/-- The steps that such a wait takes. -/
theorem CSemaphore.run_waitAlone {s : CSemaphore} {w : Waiter} (size : Int) (spurious : Bool)
    (htimed : w.timed = true) (hblocked : s.blocked = []) (hawake : s.awake = []) :
    (semaphore size).run s
        (if s.count = 0 then
          if spurious then [.wait w, .spurious w, .resume w false]
          else [.wait w, .timeout w, .resume w true]
        else [.wait w]) =
      some (s.waitAlone spurious).2 := by
  obtain ⟨waiters, count, blocked, awake, signals, successes⟩ := s
  obtain ⟨thread, timed⟩ := w
  dsimp only at htimed hblocked hawake
  subst htimed hblocked hawake
  by_cases hcount : count = 0
  · cases spurious <;>
      simp [hcount, Machine.run, semaphore, CSemaphore.step, CSemaphore.isWaiting, CSemaphore.wait,
        CSemaphore.block, CSemaphore.unblock, CSemaphore.resume, CSemaphore.take,
        CSemaphore.waitAlone]
  · simp [hcount, Machine.run, semaphore, CSemaphore.step, CSemaphore.isWaiting, CSemaphore.wait,
      CSemaphore.take, CSemaphore.waitAlone]

/-- `NetlinkConnection`, by what a stream consists of.  `dataStart` points into the payload of
`dataMsg`. -/
structure NetlinkConnection where
  dataLeft : CSemaphore
  dataMsg : Option NlMessage
  dataStart : Option Nat
  dataLen : UInt32

namespace NetlinkConnection

/-- The constructors. -/
def new : NetlinkConnection where
  dataLeft := .new 0
  dataMsg := none
  dataStart := none
  dataLen := 0

/-- `handleMessage`.  A buffer that was there is not freed. -/
def handleMessage (c : NetlinkConnection) (nlh : NlMessage) : NetlinkConnection where
  dataMsg := some nlh
  dataLen := nlmsgPayload nlh
  dataStart := some 0
  dataLeft := c.dataLeft.signal none

/-- The `memcpy` from `dataStart`. -/
def copy (c : NetlinkConnection) (len : UInt32) : List UInt8 :=
  match c.dataMsg, c.dataStart with
  | some nlh, some start => (nlh.payload.drop start).take len.toNat
  | _, _ => []

/-- The end of `readData`: the buffer is freed, or what is left is signalled. -/
def finishRead (c : NetlinkConnection) : NetlinkConnection :=
  if c.dataLen = 0 then { c with dataStart := none, dataMsg := none }
  else { c with dataLeft := c.dataLeft.signal none }

/-- `readData`: its return value, the bytes it has copied, and the connection after it.  The wait
comes back for no reason or not. -/
def readData (c : NetlinkConnection) (len : UInt32) (spurious : Bool) :
    Int × List UInt8 × NetlinkConnection :=
  let (gotThrough, dataLeft) := c.dataLeft.waitAlone spurious
  let c := { c with dataLeft := dataLeft }
  if !gotThrough then (-2, [], c)
  else if c.dataLen ≤ 0 then (-2, [], c)
  else if len > c.dataLen then
    (c.dataLen.toNat, c.copy c.dataLen, { c with dataLen := 0 }.finishRead)
  else
    (len.toNat, c.copy len, { c with
      dataLen := c.dataLen - len
      dataStart := c.dataStart.map (· + len.toNat) }.finishRead)

end NetlinkConnection

/-- A call on a connection. -/
inductive NetlinkCall where
  | handleMessage (nlh : NlMessage)
  | readData (len : UInt32) (positive : 0 < len) (spurious : Bool)

/-- A connection with a sequence of calls on it. -/
def netlinkConnection : Machine NetlinkConnection NetlinkCall where
  init := fun c => c = .new
  step := fun c a =>
    match a with
    | .handleMessage nlh => some (c.handleMessage nlh)
    | .readData len _ spurious => some (c.readData len spurious).2.2

/-! ## Accounting -/

/-- The payload received last, and what has been read of it. -/
structure Received where
  payload : List UInt8
  read : List UInt8
deriving DecidableEq, Repr

def Received.unread (r : Received) : List UInt8 := r.payload.drop r.read.length

/-- What a call adds to the history. -/
def NetlinkCall.record (c : NetlinkConnection) : NetlinkCall → Received → Received
  | .handleMessage nlh, _ => ⟨nlh.payload, []⟩
  | .readData len _ spurious, r => { r with read := r.read ++ (c.readData len spurious).2.1 }

/-- A connection with its history. -/
def netlinkStream : Machine (NetlinkConnection × Received) NetlinkCall :=
  netlinkConnection.withHistory (fun c a => a.record c) ⟨[], []⟩

/-- The semaphore tells whether bytes are unread. -/
def CountsUnread (x : NetlinkConnection × Received) : Prop :=
  x.1.dataLeft.count = if x.2.unread = [] then 0 else 1

/-- A `readData` that gets past the semaphore returns some of the next unread bytes, and how many
they are. -/
def ReadsNext (x : NetlinkConnection × Received) : NetlinkCall → Prop
  | .handleMessage _ => True
  | .readData len _ spurious => (x.1.dataLeft.waitAlone spurious).1 = true →
    0 < (x.1.readData len spurious).1 ∧
      (x.1.readData len spurious).1 = (x.1.readData len spurious).2.1.length ∧
      x.2.read ++ (x.1.readData len spurious).2.1 <+: x.2.payload

/-- A message brings bytes, and comes when there are none left; no wait for one comes back for no
reason. -/
def FillsEmpty (x : NetlinkConnection × Received) : NetlinkCall → Prop
  | .handleMessage nlh => nlh.payload ≠ [] ∧ x.2.unread = []
  | .readData _ _ spurious => x.2.unread = [] → spurious = false

/-- The fields of the connection agree with its history. -/
structure Streams (c : NetlinkConnection) (r : Received) : Prop where
  counts : CountsUnread (c, r)
  dataLen : c.dataLen.toNat = r.unread.length
  buffer : r.unread ≠ [] →
    ∃ nlh, c.dataMsg = some nlh ∧ nlh.payload = r.payload ∧ c.dataStart = some r.read.length
  read : r.read <+: r.payload

theorem streams_new : Streams .new ⟨[], []⟩ where
  counts := rfl
  dataLen := rfl
  buffer := fun h => absurd rfl h
  read := List.prefix_refl _

section Calls

variable {c : NetlinkConnection} {r : Received}

theorem count_handleMessage (h : Streams c r) (nlh : NlMessage) :
    (c.handleMessage nlh).dataLeft.count = if r.unread = [] then 1 else 2 := by
  have hcount : c.dataLeft.count = if r.unread = [] then 0 else 1 := h.counts
  show cInt (c.dataLeft.count + 1) = _
  rw [hcount]
  split_ifs <;> rfl

/-- A message over an empty stream. -/
theorem Streams.handleMessage (h : Streams c r) {nlh : NlMessage}
    (hfills : FillsEmpty (c, r) (.handleMessage nlh)) :
    Streams (c.handleMessage nlh) ⟨nlh.payload, []⟩ where
  counts := by
    show _ = if nlh.payload = [] then 0 else 1
    rw [count_handleMessage h, if_pos hfills.2, if_neg hfills.1]
  dataLen := toNat_nlmsgPayload nlh
  buffer := fun _ => ⟨nlh, rfl, rfl, rfl⟩
  read := List.nil_prefix

/-- A message without a payload leaves a count of one at least, and one over unread bytes leaves
two. -/
theorem fillsEmpty_of_counts (h : Streams c r) {nlh : NlMessage}
    (hcounts : CountsUnread (c.handleMessage nlh, ⟨nlh.payload, []⟩)) :
    FillsEmpty (c, r) (.handleMessage nlh) := by
  have hcount : (if r.unread = [] then 1 else 2 : Int) = if nlh.payload = [] then 0 else 1 :=
    (count_handleMessage h nlh).symm.trans hcounts
  by_cases hunread : r.unread = []
  · rw [if_pos hunread] at hcount
    refine ⟨fun hempty => ?_, hunread⟩
    rw [if_pos hempty] at hcount
    omega
  · rw [if_neg hunread] at hcount
    split_ifs at hcount <;> omega

/-- With nothing unread, a read is timed out. -/
theorem readData_of_empty (h : Streams c r) (hunread : r.unread = []) (len : UInt32) :
    (c.dataLeft.waitAlone false).1 = false ∧ c.readData len false = (-2, [], c) := by
  have hcount : c.dataLeft.count = 0 := by
    have hcounts : c.dataLeft.count = _ := h.counts
    rwa [if_pos hunread] at hcounts
  have hwait : c.dataLeft.waitAlone false = (false, c.dataLeft) := if_pos ⟨hcount, rfl⟩
  refine ⟨by rw [hwait], ?_⟩
  rw [NetlinkConnection.readData, hwait]
  rfl

/-- With nothing unread, a read whose wait comes back for no reason gets past the semaphore and
returns nothing. -/
theorem readData_of_spurious (h : Streams c r) (hunread : r.unread = []) (len : UInt32) :
    (c.dataLeft.waitAlone true).1 = true ∧ (c.readData len true).1 = -2 := by
  have hzero : c.dataLen ≤ 0 := by
    rw [UInt32.le_iff_toNat_le, UInt32.toNat_zero, h.dataLen, hunread]
    exact Nat.le_refl _
  have hwait : c.dataLeft.waitAlone true =
      (true, { c.dataLeft with waitersCount := c.dataLeft.waitersCount + 1 }.take) :=
    if_neg fun hfalse => nomatch hfalse.2
  refine ⟨by rw [hwait], ?_⟩
  rw [NetlinkConnection.readData, hwait]
  dsimp only
  rw [Bool.not_true, if_neg Bool.false_ne_true, if_pos hzero]

/-- What is copied is what comes next in the payload. -/
theorem copy_eq (h : Streams c r) (hunread : r.unread ≠ []) (sem : CSemaphore) (len : UInt32) :
    ({ c with dataLeft := sem } : NetlinkConnection).copy len = r.unread.take len.toNat := by
  obtain ⟨nlh, hmsg, hpayload, hstart⟩ := h.buffer hunread
  simp only [NetlinkConnection.copy, hmsg, hstart, hpayload]
  rfl

/-- After `n` of the unread bytes have been copied, `finishRead` brings the fields in line. -/
theorem streams_finishRead (h : Streams c r) {c' : NetlinkConnection} {n : Nat}
    (hcount : c'.dataLeft.count = 0) (hlen : c'.dataLen.toNat = r.unread.length - n)
    (hbuffer : n < r.unread.length → c'.dataMsg = c.dataMsg ∧
      c'.dataStart = c.dataStart.map (· + n)) :
    Streams c'.finishRead { r with read := r.read ++ r.unread.take n } := by
  have hunread : (r.payload.drop (r.read ++ r.unread.take n).length) = r.unread.drop n := by
    rw [List.length_append, ← List.drop_drop, List.length_take]
    show r.unread.drop _ = _
    rcases Nat.le_total n r.unread.length with hle | hle
    · rw [Nat.min_eq_left hle]
    · rw [Nat.min_eq_right hle, List.drop_length, List.drop_of_length_le hle]
  have hread : r.read ++ r.unread.take n <+: r.payload := by
    obtain ⟨rest, hrest⟩ := h.read
    have hrest' : r.unread = rest := by rw [Received.unread, ← hrest, List.drop_left]
    rw [← hrest, hrest']
    exact (List.prefix_append_right_inj r.read).mpr (List.take_prefix n rest)
  have hlength : (r.unread.drop n).length = r.unread.length - n := List.length_drop
  unfold NetlinkConnection.finishRead
  -- the buffer is given back when all of it has been read, and announced again otherwise
  split_ifs with hzero
  · have hdone : r.unread.drop n = [] := by
      apply List.eq_nil_of_length_eq_zero
      rw [hlength, ← hlen, hzero]
      rfl
    refine ⟨?_, ?_, fun hne => absurd (hunread.trans hdone) hne, hread⟩
    · show _ = if r.payload.drop _ = [] then 0 else 1
      rw [hunread, if_pos hdone]
      exact hcount
    · show c'.dataLen.toNat = (r.payload.drop _).length
      rw [hunread, hlength, hlen]
  · have hleft : n < r.unread.length := by
      by_contra hge
      exact hzero (UInt32.toNat_inj.mp (by rw [hlen, UInt32.toNat_zero]; omega))
    have hrest : r.unread.drop n ≠ [] := by
      intro hnil
      rw [hnil, List.length_nil] at hlength
      omega
    obtain ⟨hmsg, hstart⟩ := hbuffer hleft
    refine ⟨?_, ?_, fun _ => ?_, hread⟩
    · show cInt (c'.dataLeft.count + 1) = if r.payload.drop _ = [] then 0 else 1
      rw [hunread, if_neg hrest, hcount]
      rfl
    · show c'.dataLen.toNat = (r.payload.drop _).length
      rw [hunread, hlength, hlen]
    · have hne : r.unread ≠ [] := List.ne_nil_of_length_pos (by omega)
      obtain ⟨nlh, hmsg', hpayload, hstart'⟩ := h.buffer hne
      refine ⟨nlh, hmsg.trans hmsg', hpayload, ?_⟩
      show c'.dataStart = some (r.read ++ r.unread.take n).length
      rw [hstart, hstart', List.length_append, List.length_take_of_le (by omega)]
      rfl

/-- With bytes unread, a read returns as many of them as it asks for, or all. -/
theorem readData_of_unread (h : Streams c r) (hunread : r.unread ≠ []) (len : UInt32)
    (spurious : Bool) : ∃ (n : Nat) (c' : NetlinkConnection),
      c.readData len spurious = ((n : Int), r.unread.take n, c') ∧
      n = min len.toNat r.unread.length ∧
      Streams c' { r with read := r.read ++ r.unread.take n } := by
  have hcount : c.dataLeft.count = 1 := by
    have hcounts : c.dataLeft.count = _ := h.counts
    rwa [if_neg hunread] at hcounts
  have hpos : 0 < c.dataLen.toNat := by
    rw [h.dataLen]
    exact List.length_pos_iff.mpr hunread
  have hwait : c.dataLeft.waitAlone spurious =
      (true, { c.dataLeft with waitersCount := c.dataLeft.waitersCount + 1 }.take) := by
    refine if_neg fun hzero => ?_
    rw [hcount] at hzero
    cases hzero.1
  have htaken :
      { c.dataLeft with waitersCount := c.dataLeft.waitersCount + 1 }.take.count = 0 := by
    simp [hcount, CSemaphore.take, cInt]
  have hzero : ¬ c.dataLen ≤ 0 := by
    rw [UInt32.le_iff_toNat_le, UInt32.toNat_zero]
    omega
  rw [NetlinkConnection.readData, hwait]
  dsimp only
  rw [Bool.not_true, if_neg Bool.false_ne_true, if_neg hzero, copy_eq h hunread,
    copy_eq h hunread]
  split_ifs with hmore
  · have hlt := UInt32.lt_iff_toNat_lt.mp hmore
    rw [h.dataLen] at hlt ⊢
    refine ⟨_, _, rfl, by omega, ?_⟩
    apply streams_finishRead h htaken
    · rw [UInt32.toNat_zero, Nat.sub_self]
    · intro hlt
      exact absurd hlt (Nat.lt_irrefl _)
  · have hle : len.toNat ≤ c.dataLen.toNat := by
      rw [gt_iff_lt, UInt32.lt_iff_toNat_lt] at hmore
      omega
    have hlen := h.dataLen
    refine ⟨_, _, rfl, by omega, ?_⟩
    apply streams_finishRead h htaken
    · show (c.dataLen - len).toNat = _
      rw [UInt32.toNat_sub_of_le _ _ (UInt32.le_iff_toNat_le.mpr hle), hlen]
    · intro _
      exact ⟨rfl, rfl⟩

end Calls

/-! ## Runs -/

theorem streams_step {x y : NetlinkConnection × Received} {a : NetlinkCall}
    (h : Streams x.1 x.2) (hs : netlinkStream.step x a = some y) (hfills : FillsEmpty x a) :
    Streams y.1 y.2 ∧ ReadsNext x a := by
  obtain ⟨c, r⟩ := x
  obtain ⟨c', r'⟩ := y
  have h : Streams c r := h
  obtain ⟨hc, rfl⟩ := netlinkConnection.withHistory_step _ _ hs
  cases a with
  | handleMessage nlh =>
    cases hc
    exact ⟨h.handleMessage hfills, trivial⟩
  | readData len hpos spurious =>
    cases hc
    show Streams (c.readData len spurious).2.2
      { r with read := r.read ++ (c.readData len spurious).2.1 } ∧ _
    by_cases hunread : r.unread = []
    · obtain rfl : spurious = false := hfills hunread
      obtain ⟨hwait, hread⟩ := readData_of_empty h hunread len
      rw [hread]
      refine ⟨by simpa using h, fun hthrough => ?_⟩
      rw [hwait] at hthrough
      cases hthrough
    · obtain ⟨n, c', hread, hn, hc'⟩ := readData_of_unread h hunread len spurious
      have hlen := UInt32.lt_iff_toNat_lt.mp hpos
      have hlength := List.length_pos_iff.mpr hunread
      rw [UInt32.toNat_zero] at hlen
      have hle : n ≤ r.unread.length := by omega
      refine ⟨by rw [hread]; exact hc', fun _ => ?_⟩
      simp only [hread]
      refine ⟨by omega, ?_, hc'.read⟩
      rw [List.length_take_of_le hle]

/-- **Stream accounting.**  In a sequence of calls on a connection, the count of the semaphore
tells before and after every call whether bytes are unread, and every `readData` that gets past it
returns the next ones, exactly when every message brings a payload and finds nothing unread, and no
wait comes back for no reason while nothing is unread. -/
theorem streams_iff_fillsEmpty (as : List NetlinkCall) :
    (netlinkStream.RunStays CountsUnread (.new, ⟨[], []⟩) as ∧
        netlinkStream.RunMeets ReadsNext (.new, ⟨[], []⟩) as) ↔
      netlinkStream.RunMeets FillsEmpty (.new, ⟨[], []⟩) as := by
  have hstep : ∀ x a, ∃ y, netlinkStream.step x a = some y := by
    rintro x (nlh | ⟨len, hpos, spurious⟩)
    · exact ⟨_, rfl⟩
    · exact ⟨_, rfl⟩
  obtain ⟨y, hrun⟩ := netlinkStream.exists_run hstep (.new, ⟨[], []⟩) as
  apply Machine.runStays_and_runMeets_iff (I := fun x => Streams x.1 x.2)
  · intro x h
    exact h.counts
  · intro x a y h hs hfills
    exact streams_step h hs hfills
  · rintro ⟨c, r⟩ a ⟨c', r'⟩ h hs hcounts hreads
    obtain ⟨hc, rfl⟩ := netlinkConnection.withHistory_step _ _ hs
    cases a with
    | handleMessage nlh =>
      cases hc
      exact fillsEmpty_of_counts h hcounts
    | readData len hpos spurious =>
      intro hunread
      cases spurious with
      | false => rfl
      | true =>
        obtain ⟨hwait, hnothing⟩ := readData_of_spurious h hunread len
        have hpositive := (hreads hwait).1
        rw [hnothing] at hpositive
        omega
  · exact streams_new
  · exact hrun

/-- Two bytes are read out of a message of three when the next message comes, which is read to its
end; one more read finds a count and nothing to return. -/
def overwrittenRun : List NetlinkCall :=
  [.handleMessage ⟨19, [1, 2, 3], rfl⟩, .readData 2 (by decide) false,
   .handleMessage ⟨17, [4], rfl⟩, .readData 2 (by decide) false, .readData 2 (by decide) false]

theorem not_streams_overwritten :
    ¬ (netlinkStream.RunStays CountsUnread (.new, ⟨[], []⟩) overwrittenRun ∧
      netlinkStream.RunMeets ReadsNext (.new, ⟨[], []⟩) overwrittenRun) ∧
    ¬ netlinkStream.RunMeets ReadsNext (.new, ⟨[], []⟩)
      [.handleMessage ⟨16, [], rfl⟩, .readData 4 (by decide) false] := by
  constructor
  · rintro ⟨-, hreads⟩
    have hlast : 0 < (-2 : Int) := (hreads.2.2.2.2.1 rfl).1
    omega
  · intro hreads
    have hlast : 0 < (-2 : Int) := (hreads.2.1 rfl).1
    omega

end McDaemon.Common
