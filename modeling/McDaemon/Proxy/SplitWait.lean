/-
# McDaemon.Proxy.SplitWait — a wait of the proxy client, in rounds.

The server refuses a timeout above `timeout_max`, so the client waits in rounds, all but the last of
them partial.  Whether it goes on behind a round it takes from `errno`, which an exchange sets when
the method has failed, but on several of the paths where it breaks down leaves as it was: behind a
partial timeout that is `ETIME`.
-/
import Mathlib.Algebra.Ring.Int.Defs
import McDaemon.Proxy.SharedMemory

namespace McDaemon.Proxy.SplitWait

open McDaemon.Lib
open McDaemon.Proxy.ClientCalls (timeoutMax waitsPartially leftBehind)
open McDaemon.Proxy.Memory (Message copyIn clientBuffers clientUpdate)

/-! ## One exchange -/

/-- The values of `errno` that the client looks at or sets. -/
def eintr : Int32 := 4
def enxio : Int32 := 6
def etime : Int32 := 62
def ehostunreach : Int32 := 113

/-- `PROTOCOL_MAGIC`, which is "T7e3", and `PROTOCOL_VERSION`. -/
def protocolMagic : List UInt8 := [0x54, 0x37, 0x65, 0x33]
def protocolVersion : UInt16 := 1

/-- `ResponseHeader`, as far as it is looked at. -/
structure ResponseHeader where
  magic : List UInt8
  version : UInt16
  protoRc : Int32
  methodRc : UInt32
deriving DecidableEq, Repr

/-- `WaitNotificationResponse`: the fields of a buffer, `sva` and `data`, are optional. -/
structure WaitNotificationResponse where
  tci : Option (List UInt8)
  buffers : List (Option Nat × Option (List UInt8))
deriving DecidableEq, Repr

/-- What comes of the data of a response; a parse that fails leaves what it has got. -/
inductive ResponseData
  | fails (errno : Option Int32)
  | notParsed (response : WaitNotificationResponse)
  | parsed (response : WaitNotificationResponse)
deriving DecidableEq, Repr

/-- An exchange with the server.  A `send` or a `recv` fails with an `errno`, or with none at the end
of the stream; `interrupted` tells that one of them has been tried again after a signal. -/
inductive Exchange
  | notSerialized
  | fails (interrupted : Bool) (errno : Option Int32)
  | responds (interrupted : Bool) (header : ResponseHeader) (data : ResponseData)
deriving DecidableEq, Repr

/-- How `ClientConnection::call` comes out: with `is_broken_` set, and `errno` if it sets that, or
with the error of the method.  The response is there if there has been one to parse. -/
inductive CallOutcome
  | broken (errno : Option Int32) (response : Option WaitNotificationResponse)
  | answered (methodRc : UInt32) (response : Option WaitNotificationResponse)
deriving DecidableEq, Repr

namespace Exchange

def interrupted : Exchange → Bool
  | notSerialized => false
  | fails interrupted _ => interrupted
  | responds interrupted _ _ => interrupted

/-- The checks of `ClientConnection::call`, in its order. -/
def outcome : Exchange → CallOutcome
  | notSerialized => .broken none none
  | fails _ errno => .broken errno none
  | responds _ header data =>
    if header.magic ≠ protocolMagic then .broken none none
    else if header.version ≠ protocolVersion then .broken none none
    else if header.protoRc < 0 then .broken (some (-header.protoRc)) none
    else if header.protoRc = 0 then .answered header.methodRc none
    else
      match data with
      | .fails errno => .broken errno none
      | .notParsed response => .broken none (some response)
      | .parsed response => .answered header.methodRc (some response)

/-- The exchange has broken the connection. -/
def breaks (e : Exchange) : Bool :=
  match e.outcome with
  | .broken _ _ => true
  | .answered _ _ => false

/-- The exchange has gone through, and the method has timed out. -/
def timesOut (e : Exchange) : Bool :=
  match e.outcome with
  | .broken _ _ => false
  | .answered methodRc _ => methodRc.toInt32 = etime

/-- What the exchange makes of the response, which the rounds of a wait share. -/
def responseBehind (response : WaitNotificationResponse) (e : Exchange) :
    WaitNotificationResponse :=
  match e.outcome with
  | .broken _ parsed => parsed.getD response
  | .answered _ parsed => parsed.getD response

end Exchange

/-- What a call finds and leaves. -/
structure CallState where
  errno : Int32
  isBroken : Bool
  response : WaitNotificationResponse
deriving DecidableEq, Repr

/-- `ClientConnection::call`; `true` when it returns 0. -/
def call (s : CallState) (e : Exchange) : Bool × CallState :=
  let errno := if e.interrupted then eintr else s.errno
  match e.outcome with
  | .broken set response => (false, ⟨set.getD errno, true, response.getD s.response⟩)
  | .answered methodRc response =>
    if methodRc = 0 then (true, ⟨errno, s.isBroken, response.getD s.response⟩)
    else (false, ⟨methodRc.toInt32, s.isBroken, response.getD s.response⟩)

/-! ## The rounds -/

/-- The parameters of a `WaitNotificationRequest`, and `timeout_left` behind it. -/
structure WaitNotificationRequest where
  timeout : Int
  isPartial : Bool
  timeoutLeft : Int
deriving DecidableEq, Repr

/-- What a round asks for. -/
def nextRequest (timeout left : Int) : WaitNotificationRequest :=
  if timeout < 0 then ⟨timeoutMax, true, left⟩
  else if left > timeoutMax then ⟨timeoutMax, true, left - timeoutMax⟩
  else ⟨left, false, 0⟩

/-- A round of a wait. -/
structure Round where
  timeout : Int
  isPartial : Bool
  exchange : Exchange
deriving DecidableEq, Repr

/-- A partial timeout and nothing else. -/
def Round.IsPartialTimeout (r : Round) : Prop := r.isPartial = true ∧ r.exchange.timesOut = true

/-- How the loop is left: by `break`, with `failed` or without, or by the return for a broken
connection. -/
inductive Stop
  | done
  | failed
  | aborted
deriving DecidableEq, Repr

/-- The rounds, and how the loop is left; `stop` is `none` when it waits for another exchange. -/
structure Loop where
  rounds : List Round
  state : CallState
  stop : Option Stop
deriving DecidableEq, Repr

def Loop.after (rounds : List Round) (l : Loop) : Loop := { l with rounds := rounds ++ l.rounds }

/-- The loop of `ProxyClient::waitNotification`. -/
def waitLoop (timeout : Int) : Int → CallState → List Exchange → Loop
  | _, s, [] => ⟨[], s, none⟩
  | left, s, e :: exchanges =>
    let request := nextRequest timeout left
    let round : Round := ⟨request.timeout, request.isPartial, e⟩
    let called := call s e
    if called.1 then ⟨[round], called.2, some .done⟩
    else if called.2.errno ≠ etime ∨ request.isPartial = false then
      ⟨[round], called.2, some (if called.2.isBroken then .aborted else .failed)⟩
    else (waitLoop timeout request.timeoutLeft called.2 exchanges).after [round]

/-! ## The response -/

/-- The loop over the buffers of the response. -/
def updateBuffers :
    List (Option Nat × Option (List UInt8)) → List Memory.Buffer → Bool × List Memory.Buffer
  | [], buffers => (true, buffers)
  | (some sva, some data) :: rest, buffers =>
    match KeyedList.get Memory.Buffer.sva sva buffers with
    | none => (false, buffers)
    | some buf =>
      if data.length ≠ buf.data.length then (false, buffers)
      else
        updateBuffers rest
          (KeyedList.modify Memory.Buffer.sva sva (Memory.Buffer.fill fun _ => data) buffers)
  | _ :: _, buffers => (false, buffers)

/-- What is done with the response; `none` when `Session::updateTci` goes to a TCI that is not
there. -/
def updateSession (session : Memory.Session) (response : WaitNotificationResponse) :
    Option (Bool × Memory.Session) :=
  let updated := updateBuffers response.buffers session.buffers
  match response.tci with
  | none => some (updated.1, { session with buffers := updated.2 })
  | some buf =>
    match session.tci with
    | none => none
    | some tci =>
      if buf.length ≠ tci.length then some (false, session)
      else some (updated.1, { session with tci := some buf, buffers := updated.2 })

/-- `ClientConnection`, as a wait sees it. -/
structure ClientConnection where
  isBroken : Bool
  session : Memory.Session
deriving DecidableEq, Repr

/-- A wait goes on, makes the process crash, returns -1, or returns 0 with `errno` as it was. -/
inductive Result
  | waits
  | crashes
  | fails (errno : Int32)
  | succeeds
deriving DecidableEq, Repr

/-- A wait, and its connection unless that has been deleted. -/
structure Waited where
  rounds : List Round
  result : Result
  connection : Option ClientConnection
deriving DecidableEq, Repr

/-- Behind the loop. -/
def finish (c : ClientConnection) (l : Loop) : Waited :=
  let left : ClientConnection := { c with isBroken := l.state.isBroken }
  match l.stop with
  | none => ⟨l.rounds, .waits, some left⟩
  | some .aborted => ⟨l.rounds, .fails l.state.errno, none⟩
  | some stop =>
    match updateSession c.session l.state.response with
    | none => ⟨l.rounds, .crashes, some left⟩
    | some (updated, session) =>
      ⟨l.rounds, if updated = true ∧ stop = .done then .succeeds else .fails l.state.errno,
        some { left with session := session }⟩

/-- `ProxyClient::waitNotification`, on the connection that is found for the session. -/
def waitNotification (connection : Option ClientConnection) (timeout : Int)
    (exchanges : List Exchange) : Waited :=
  match connection with
  | none => ⟨[], .fails enxio, none⟩
  | some c => finish c (waitLoop timeout timeout ⟨ehostunreach, c.isBroken, ⟨none, []⟩⟩ exchanges)

/-! ## What a split wait is to be -/

/-- The time that the rounds have waited which timed out. -/
def waitedFor (rounds : List Round) : Int :=
  ((rounds.filter fun r => r.exchange.timesOut).map Round.timeout).sum

/-- A split wait equals one wait. -/
structure EqualsOne (timeout : Int) (w : Waited) : Prop where
  inRange : ∀ r ∈ w.rounds, 0 ≤ r.timeout ∧ r.timeout ≤ timeoutMax
  exact : w.result = .fails etime → waitedFor w.rounds = timeout
  infinite : timeout < 0 → w.result ≠ .fails etime
  goesOn : ∀ front r rest, w.rounds = front ++ r :: rest → rest ≠ [] → r.IsPartialTimeout
  stops : ∀ front r, w.rounds = front ++ [r] → (r.IsPartialTimeout ↔ w.result = .waits)
  broken : ∀ front r rest, w.rounds = front ++ r :: rest → r.exchange.breaks = true →
    rest = [] ∧ ∃ errno, errno ≠ etime ∧ w.result = .fails errno

/-- A buffer of the response has both fields, is found, and has the length it has here. -/
def BufferFits (buffers : List Memory.Buffer) (b : Option Nat × Option (List UInt8)) : Prop :=
  ∃ sva data buf, b = (some sva, some data) ∧
    KeyedList.get Memory.Buffer.sva sva buffers = some buf ∧ data.length = buf.data.length

/-- The response does not go into the session: its TCI has another length, or a buffer does not
fit. -/
def Misfits (session : Memory.Session) (response : WaitNotificationResponse) : Prop :=
  (∃ buf tci, response.tci = some buf ∧ session.tci = some tci ∧ buf.length ≠ tci.length) ∨
  ((response.tci.isSome → session.tci.isSome) ∧
    ∃ b ∈ response.buffers, ¬ BufferFits session.buffers b)

/-- The first `n` rounds of a wait are partial. -/
def ArePartial (timeout : Int) (n : Nat) : Prop := n = 0 ∨ timeout < 0 ∨ timeoutMax * n < timeout

/-- Behind rounds that have all timed out, an exchange breaks and leaves `errno` at `ETIME`, or has
it from the server; or it goes through, and the response does not go into the session, which is
not an error that `errno` is set for. -/
def Misled (connection : Option ClientConnection) (timeout : Int) (exchanges : List Exchange) :
    Prop :=
  ∃ c front e rest, connection = some c ∧ exchanges = front ++ e :: rest ∧
    (∀ x ∈ front, x.timesOut = true) ∧ ArePartial timeout front.length ∧
    ((∃ response, e.outcome = .broken (some etime) response) ∨
      (front ≠ [] ∧ e.interrupted = false ∧
        ((∃ response, e.outcome = .broken none response) ∨
          ((∃ response, e.outcome = .answered 0 response) ∧
            Misfits c.session ((front ++ [e]).foldl Exchange.responseBehind ⟨none, []⟩)))))

/-! ## The requests -/

section Requests

variable {timeout left : Int}

theorem nextRequest_isPartial (timeout left : Int) :
    (nextRequest timeout left).isPartial = waitsPartially timeout left := by
  unfold nextRequest waitsPartially
  by_cases hinfinite : timeout < 0
  · simp [hinfinite]
  · by_cases hbig : left > timeoutMax
    · simp [hinfinite, hbig]
    · simp [hinfinite, hbig]

/-- A partial round takes `timeout_max`, off the timeout unless that is infinite. -/
theorem nextRequest_of_waits (h : waitsPartially timeout left = true) :
    nextRequest timeout left = ⟨timeoutMax, true, leftBehind timeout left⟩ := by
  unfold nextRequest leftBehind
  by_cases hinfinite : timeout < 0
  · simp [hinfinite]
  · have hbig : left > timeoutMax := by simpa [waitsPartially, hinfinite] using h
    simp [hinfinite, hbig]

theorem nextRequest_of_not_waits (h : waitsPartially timeout left = false) :
    nextRequest timeout left = ⟨left, false, 0⟩ ∧ 0 ≤ timeout ∧ left ≤ timeoutMax := by
  have hboth : ¬ timeout < 0 ∧ ¬ timeoutMax < left := by simpa [waitsPartially] using h
  refine ⟨?_, by omega, by omega⟩
  simp [nextRequest, hboth.1, hboth.2]

/-- `timeout_left` behind `n` partial rounds. -/
def leftAfter (timeout : Int) (n : Nat) : Int :=
  if timeout < 0 then timeout else timeout - timeoutMax * n

theorem leftBehind_leftAfter (timeout : Int) (n : Nat) :
    leftBehind timeout (leftAfter timeout n) = leftAfter timeout (n + 1) := by
  unfold leftBehind leftAfter timeoutMax
  split
  · rfl
  · push_cast
    omega

theorem waitsPartially_leftAfter (timeout : Int) (n : Nat) :
    waitsPartially timeout (leftAfter timeout n) = true ↔ ArePartial timeout (n + 1) := by
  unfold waitsPartially leftAfter ArePartial timeoutMax
  by_cases hinfinite : timeout < 0
  · simp [hinfinite]
  · simp only [hinfinite, decide_false, Bool.false_or, decide_eq_true_eq, if_false,
      Nat.add_one_ne_zero, false_or]
    push_cast
    omega

theorem ArePartial.mono {m n : Nat} (h : ArePartial timeout n) (hle : m ≤ n) :
    ArePartial timeout m := by
  unfold ArePartial timeoutMax at *
  omega

end Requests

/-! ## The update of the session -/

section Update

variable {buffers : List Memory.Buffer} {session : Memory.Session} {response : WaitNotificationResponse}

/-- A buffer that is filled keeps its length, so the others fit as before. -/
theorem bufferFits_modify {sva : Nat} {data : List UInt8} {buf : Memory.Buffer}
    (hbuf : KeyedList.get Memory.Buffer.sva sva buffers = some buf)
    (hlen : data.length = buf.data.length)
    (b : Option Nat × Option (List UInt8)) :
    BufferFits (KeyedList.modify Memory.Buffer.sva sva (Memory.Buffer.fill fun _ => data) buffers) b ↔
      BufferFits buffers b := by
  have hget : ∀ k, KeyedList.get Memory.Buffer.sva k
      (KeyedList.modify Memory.Buffer.sva sva (Memory.Buffer.fill fun _ => data) buffers) =
        if k = sva then some { buf with data := data }
        else KeyedList.get Memory.Buffer.sva k buffers := by
    intro k
    rw [KeyedList.get_modify fun _ => by rfl]
    by_cases hk : k = sva
    · rw [if_pos hk, if_pos hk, hk, hbuf]
      rfl
    · rw [if_neg hk, if_neg hk]
  unfold BufferFits
  simp only [hget]
  refine exists_congr fun k => exists_congr fun d => ?_
  by_cases hk : k = sva
  · subst hk
    simp [hbuf, hlen]
  · simp [hk]

theorem updateBuffers_eq_false_iff (l : List (Option Nat × Option (List UInt8)))
    (buffers : List Memory.Buffer) :
    (updateBuffers l buffers).1 = false ↔ ∃ b ∈ l, ¬ BufferFits buffers b := by
  induction l generalizing buffers with
  | nil => simp [updateBuffers]
  | cons b rest ih =>
    obtain ⟨sva | sva, data | data⟩ := b
    iterate 3
      · -- a field is missing
        refine iff_of_true rfl ⟨_, List.mem_cons_self, ?_⟩
        rintro ⟨sva, data, buf, heq, -⟩
        simp at heq
    · cases hbuf : KeyedList.get Memory.Buffer.sva sva buffers with
      | none =>
        refine iff_of_true (by simp [updateBuffers, hbuf]) ⟨_, List.mem_cons_self, ?_⟩
        rintro ⟨sva', data', buf, heq, hget, -⟩
        simp only [Prod.mk.injEq, Option.some.injEq] at heq
        rw [← heq.1, hbuf] at hget
        simp at hget
      | some buf =>
        by_cases hlen : data.length = buf.data.length
        · have hfits : BufferFits buffers (some sva, some data) := ⟨sva, data, buf, rfl, hbuf, hlen⟩
          simp only [updateBuffers, hbuf, hlen, ne_eq, not_true_eq_false, if_false, ih,
            bufferFits_modify hbuf hlen, List.mem_cons, exists_eq_or_imp, hfits, false_or]
        · refine iff_of_true (by simp [updateBuffers, hbuf, hlen]) ⟨_, List.mem_cons_self, ?_⟩
          rintro ⟨sva', data', buf', heq, hget, hlen'⟩
          simp only [Prod.mk.injEq, Option.some.injEq] at heq
          rw [← heq.1, hbuf, Option.some.injEq] at hget
          rw [← heq.2, ← hget] at hlen'
          exact hlen hlen'

/-- The update of the session fails, and the process survives it, where the response misfits. -/
theorem updateSession_fails_iff (session : Memory.Session) (response : WaitNotificationResponse) :
    (∃ s, updateSession session response = some (false, s)) ↔ Misfits session response := by
  have hbuffers := updateBuffers_eq_false_iff response.buffers session.buffers
  unfold updateSession Misfits
  cases htci : response.tci with
  | none => simp [hbuffers]
  | some buf =>
    cases htci' : session.tci with
    | none => simp
    | some tci =>
      by_cases hlen : buf.length = tci.length
      · simp [hlen, hbuffers]
      · simp [hlen]

/-- A response whose buffers are complete is taken in as in the memory of the session. -/
theorem updateSession_complete (h : response.tci.isSome → session.tci.isSome)
    (l : List (Nat × List UInt8)) (hl : response.buffers = l.map fun b => (some b.1, some b.2)) :
    updateSession session response = some (clientUpdate session ⟨response.tci, l⟩) := by
  have hcopy : ∀ buffers, updateBuffers response.buffers buffers = copyIn true l buffers := by
    rw [hl]
    clear hl
    induction l with
    | nil => exact fun _ => rfl
    | cons b rest ih =>
      intro buffers
      simp only [List.map_cons, updateBuffers, copyIn]
      cases KeyedList.get Memory.Buffer.sva b.1 buffers with
      | none => rfl
      | some buf =>
        by_cases hlen : b.2.length = buf.data.length
        · simp [hlen, ih]
        · simp [hlen]
  unfold updateSession clientUpdate clientBuffers
  cases htci : response.tci with
  | none => simp [hcopy]
  | some buf =>
    cases htci' : session.tci with
    | none => simp [htci, htci'] at h
    | some tci =>
      by_cases hlen : buf.length = tci.length
      · simp [hlen, hcopy]
      · simp [hlen]

end Update

/-! ## The loop -/

section Loop

variable {timeout : Int} {n : Nat} {s : CallState} {e : Exchange} {front rest : List Exchange}

theorem not_breaks_of_timesOut (h : e.timesOut = true) : e.breaks = false := by
  unfold Exchange.timesOut at h
  unfold Exchange.breaks
  cases he : e.outcome with
  | broken errno response => simp [he] at h
  | answered methodRc response => rfl

theorem call_of_timesOut (s : CallState) (h : e.timesOut = true) :
    call s e = (false, ⟨etime, s.isBroken, e.responseBehind s.response⟩) := by
  unfold Exchange.timesOut at h
  unfold call Exchange.responseBehind
  cases he : e.outcome with
  | broken errno response => simp [he] at h
  | answered methodRc response =>
    have hrc : methodRc.toInt32 = etime := by simpa [he] using h
    have hne : methodRc ≠ 0 := by
      intro h0
      rw [h0] at hrc
      exact absurd hrc (by decide)
    simp [hne, hrc]

/-- What a wait has behind rounds that have timed out. -/
def CallState.behind (s : CallState) (front : List Exchange) : CallState :=
  ⟨if front = [] then s.errno else etime, s.isBroken, front.foldl Exchange.responseBehind s.response⟩

/-- The rounds of partial timeouts. -/
def partialRounds (front : List Exchange) : List Round := front.map fun e => ⟨timeoutMax, true, e⟩

theorem Loop.after_after (xs ys : List Round) (l : Loop) :
    (l.after ys).after xs = l.after (xs ++ ys) := by
  simp [Loop.after]

/-- The round in which `e` takes place behind `n` partial rounds. -/
def roundAt (timeout : Int) (n : Nat) (e : Exchange) : Round :=
  let request := nextRequest timeout (leftAfter timeout n)
  ⟨request.timeout, request.isPartial, e⟩

theorem roundAt_isPartial (timeout : Int) (n : Nat) (e : Exchange) :
    (roundAt timeout n e).isPartial = true ↔ ArePartial timeout (n + 1) := by
  rw [← waitsPartially_leftAfter, ← nextRequest_isPartial]
  exact Iff.rfl

/-- The loop goes on while `errno` is `ETIME`, if the round was partial. -/
theorem waitLoop_goesOn (hcall : (call s e).1 = false) (herrno : (call s e).2.errno = etime)
    (hp : ArePartial timeout (n + 1)) (rest : List Exchange) :
    waitLoop timeout (leftAfter timeout n) s (e :: rest) =
      (waitLoop timeout (leftAfter timeout (n + 1)) (call s e).2 rest).after [roundAt timeout n e] := by
  have hpartial := nextRequest_of_waits ((waitsPartially_leftAfter timeout n).mpr hp)
  unfold roundAt
  rw [waitLoop, hpartial]
  simp only [hcall, herrno, Bool.false_eq_true, if_false, ne_eq, not_true_eq_false, or_self,
    reduceCtorEq, leftBehind_leftAfter]

theorem rounds_ne_nil (timeout left : Int) (s : CallState) (e : Exchange) (rest : List Exchange) :
    (waitLoop timeout left s (e :: rest)).rounds ≠ [] := by
  rw [waitLoop]
  split_ifs
  all_goals exact List.cons_ne_nil _ _

/-- The loop goes on behind partial timeouts. -/
theorem waitLoop_front (h : ∀ x ∈ front, x.timesOut = true)
    (hp : ArePartial timeout (n + front.length)) (s : CallState) (rest : List Exchange) :
    waitLoop timeout (leftAfter timeout n) s (front ++ rest) =
      (waitLoop timeout (leftAfter timeout (n + front.length)) (s.behind front) rest).after
        (partialRounds front) := by
  induction front generalizing n s with
  | nil => rfl
  | cons e front ih =>
    have hlen : n + (e :: front).length = n + 1 + front.length := by
      rw [List.length_cons]
      omega
    rw [hlen] at hp ⊢
    have hpartial : ArePartial timeout (n + 1) := hp.mono (Nat.le_add_right _ _)
    have hcall := call_of_timesOut s (h e List.mem_cons_self)
    have hround : roundAt timeout n e = ⟨timeoutMax, true, e⟩ := by
      unfold roundAt
      rw [nextRequest_of_waits ((waitsPartially_leftAfter timeout n).mpr hpartial)]
    rw [List.cons_append, waitLoop_goesOn (by rw [hcall]) (by rw [hcall]) hpartial, hcall, hround,
      ih (fun x hx => h x (List.mem_cons_of_mem _ hx)) hp, Loop.after_after]
    have hbehind : CallState.behind ⟨etime, s.isBroken, e.responseBehind s.response⟩ front =
        s.behind (e :: front) := by
      simp [CallState.behind]
    rw [hbehind]
    rfl

/-- The rounds up to the first that is not a partial timeout. -/
theorem exists_front (timeout : Int) (exchanges : List Exchange) (hn : ArePartial timeout n) :
    ∃ front rest, exchanges = front ++ rest ∧ (∀ x ∈ front, x.timesOut = true) ∧
      ArePartial timeout (n + front.length) ∧
      ∀ e es, rest = e :: es → ¬ (e.timesOut = true ∧ ArePartial timeout (n + front.length + 1)) := by
  induction exchanges generalizing n with
  | nil => exact ⟨[], [], rfl, by simp, hn, by simp⟩
  | cons e es ih =>
    by_cases he : e.timesOut = true ∧ ArePartial timeout (n + 1)
    · obtain ⟨front, rest, rfl, hfront, hp, hlast⟩ := ih he.2
      have hlen : n + (e :: front).length = n + 1 + front.length := by
        rw [List.length_cons]
        omega
      refine ⟨e :: front, rest, rfl, List.forall_mem_cons.mpr ⟨he.1, hfront⟩, ?_, ?_⟩
      · rw [hlen]
        exact hp
      · rw [hlen]
        exact hlast
    · refine ⟨[], e :: es, rfl, by simp, hn, ?_⟩
      rintro e' es' heq
      obtain ⟨rfl, rfl⟩ := List.cons.inj heq
      exact he

theorem roundAt_timeout (hn : ArePartial timeout n) (e : Exchange) :
    0 ≤ (roundAt timeout n e).timeout ∧ (roundAt timeout n e).timeout ≤ timeoutMax := by
  by_cases hp : waitsPartially timeout (leftAfter timeout n) = true
  · show 0 ≤ (nextRequest _ _).timeout ∧ (nextRequest _ _).timeout ≤ _
    rw [nextRequest_of_waits hp]
    have hmax : 0 ≤ timeoutMax := by decide
    exact ⟨hmax, Int.le_refl _⟩
  · obtain ⟨hrequest, hfinite, hle⟩ := nextRequest_of_not_waits (Bool.eq_false_iff.mpr hp)
    show 0 ≤ (nextRequest _ _).timeout ∧ (nextRequest _ _).timeout ≤ _
    rw [hrequest]
    refine ⟨?_, hle⟩
    show 0 ≤ leftAfter timeout n
    unfold leftAfter
    unfold ArePartial timeoutMax at *
    split
    · omega
    · rcases hn with rfl | hneg | hlt
      · simpa using hfinite
      · omega
      · omega

/-- The last round takes what is left of the timeout. -/
theorem roundAt_sum (h : ¬ ArePartial timeout (n + 1)) (e : Exchange) :
    0 ≤ timeout ∧ timeoutMax * n + (roundAt timeout n e).timeout = timeout := by
  have hp : ¬ waitsPartially timeout (leftAfter timeout n) = true :=
    fun hp => h ((waitsPartially_leftAfter timeout n).mp hp)
  obtain ⟨hrequest, hfinite, -⟩ := nextRequest_of_not_waits (Bool.eq_false_iff.mpr hp)
  refine ⟨hfinite, ?_⟩
  show _ + (nextRequest _ _).timeout = _
  rw [hrequest]
  show _ + leftAfter timeout n = _
  rw [leftAfter, if_neg (by omega)]
  omega

/-- A loop that ends in its first round. -/
theorem waitLoop_stops (h : ¬ ((call s e).2.errno = etime ∧ ArePartial timeout (n + 1)) ∨
      (call s e).1 = true) :
    waitLoop timeout (leftAfter timeout n) s (e :: rest) = ⟨[roundAt timeout n e], (call s e).2,
      some (if (call s e).1 then .done
        else if (call s e).2.isBroken then .aborted else .failed)⟩ := by
  have hpartial := roundAt_isPartial timeout n e
  unfold roundAt at hpartial ⊢
  simp only at hpartial
  rw [waitLoop]
  by_cases hdone : (call s e).1 = true
  · simp only [hdone, if_true]
  · have hstop : (call s e).2.errno ≠ etime ∨
        (nextRequest timeout (leftAfter timeout n)).isPartial = false := by
      rw [← Bool.not_eq_true, hpartial]
      by_cases herrno : (call s e).2.errno = etime
      · exact Or.inr fun hp => (h.resolve_right hdone) ⟨herrno, hp⟩
      · exact Or.inl herrno
    simp only [hdone, hstop, if_true]
    rfl

end Loop

/-! ## The rounds of a wait -/

section Rounds

variable {timeout : Int} {front : List Exchange} {last : Round} {result : Result}
  {connection : Option ClientConnection}

theorem isPartialTimeout_of_mem (h : ∀ x ∈ front, x.timesOut = true) {r : Round}
    (hr : r ∈ partialRounds front) : r.IsPartialTimeout ∧ r.timeout = timeoutMax := by
  obtain ⟨e, he, rfl⟩ := List.mem_map.mp hr
  exact ⟨⟨rfl, h e he⟩, rfl⟩

theorem waitedFor_partialRounds (h : ∀ x ∈ front, x.timesOut = true) :
    waitedFor (partialRounds front) = timeoutMax * front.length := by
  induction front with
  | nil => rfl
  | cons e front ih =>
    have he : e.timesOut = true := h e List.mem_cons_self
    have hcons : waitedFor (partialRounds (e :: front)) =
        timeoutMax + waitedFor (partialRounds front) := by
      simp [waitedFor, partialRounds, he]
    rw [hcons, ih fun x hx => h x (List.mem_cons_of_mem _ hx), List.length_cons]
    push_cast
    rw [Int.mul_add, Int.mul_one, Int.add_comm]

theorem mem_of_append_singleton {α : Type} {xs as bs : List α} {y b : α}
    (h : xs ++ [y] = as ++ b :: bs) (hbs : bs ≠ []) : b ∈ xs := by
  have hxs := congrArg List.dropLast h
  rw [List.dropLast_concat, List.dropLast_append_of_ne_nil (List.cons_ne_nil _ _),
    List.dropLast_cons_of_ne_nil hbs] at hxs
  rw [hxs]
  simp

theorem last_of_append_singleton {α : Type} {xs as : List α} {y b : α}
    (h : xs ++ [y] = as ++ [b]) : b = y := by
  have hlast := congrArg List.getLast? h
  simpa using hlast.symm

/-- A wait whose rounds have all been partial timeouts waits on. -/
theorem equalsOne_waits (h : ∀ x ∈ front, x.timesOut = true) :
    EqualsOne timeout ⟨partialRounds front, .waits, connection⟩ where
  inRange r hr := by
    rw [(isPartialTimeout_of_mem h hr).2]
    decide
  exact heq := by simp at heq
  infinite _ := by simp
  goesOn front' r rest hrounds _ := by
    have hr : r ∈ partialRounds front := by
      rw [show partialRounds front = _ from hrounds]
      simp
    exact (isPartialTimeout_of_mem h hr).1
  stops front' r hrounds := by
    have hr : r ∈ partialRounds front := by
      rw [show partialRounds front = _ from hrounds]
      simp
    exact iff_of_true (isPartialTimeout_of_mem h hr).1 rfl
  broken front' r rest hrounds hbreaks := by
    have hr : r ∈ partialRounds front := by
      rw [show partialRounds front = _ from hrounds]
      simp
    rw [not_breaks_of_timesOut (isPartialTimeout_of_mem h hr).1.2] at hbreaks
    exact absurd hbreaks Bool.false_ne_true

/-- A wait that has ended in its last round. -/
theorem equalsOne_stopped (h : ∀ x ∈ front, x.timesOut = true)
    (hrange : 0 ≤ last.timeout ∧ last.timeout ≤ timeoutMax) (hlast : ¬ last.IsPartialTimeout)
    (hresult : result ≠ .waits)
    (hexact : result = .fails etime → last.exchange.timesOut = true ∧ 0 ≤ timeout ∧
      timeoutMax * front.length + last.timeout = timeout)
    (hbroken : last.exchange.breaks = true → ∃ errno, errno ≠ etime ∧ result = .fails errno) :
    EqualsOne timeout ⟨partialRounds front ++ [last], result, connection⟩ where
  inRange r hr := by
    rcases List.mem_append.mp hr with hr | hr
    · rw [(isPartialTimeout_of_mem h hr).2]
      decide
    · rw [List.mem_singleton.mp hr]
      exact hrange
  exact heq := by
    obtain ⟨htimesOut, -, hsum⟩ := hexact heq
    rw [← hsum, ← waitedFor_partialRounds h]
    simp [waitedFor, htimesOut]
  infinite hneg heq := by
    obtain ⟨-, hpos, -⟩ := hexact heq
    omega
  goesOn front' r rest hrounds hrest :=
    (isPartialTimeout_of_mem h (mem_of_append_singleton hrounds hrest)).1
  stops front' r hrounds := by
    rw [last_of_append_singleton hrounds]
    exact iff_of_false hlast hresult
  broken front' r rest hrounds hbreaks := by
    by_cases hrest : rest = []
    · subst hrest
      rw [last_of_append_singleton hrounds] at hbreaks
      exact ⟨rfl, hbroken hbreaks⟩
    · have hr := isPartialTimeout_of_mem h (mem_of_append_singleton hrounds hrest)
      rw [not_breaks_of_timesOut hr.1.2] at hbreaks
      exact absurd hbreaks Bool.false_ne_true

end Rounds

/-! ## Behind the loop -/

section Finish

variable {c : ClientConnection} {l : Loop} {stop : Stop} {s : CallState} {e : Exchange}

/-- How a wait ends whose loop has been left. -/
theorem finish_of_stop (h : l.stop = some stop) :
    ∃ result connection, finish c l = ⟨l.rounds, result, connection⟩ ∧ result ≠ .waits ∧
      (∀ errno, result = .fails errno → errno = l.state.errno) ∧
      (stop = .aborted → result = .fails l.state.errno) ∧
      (stop = .done → (result = .fails l.state.errno ↔ Misfits c.session l.state.response)) := by
  have hmisfits := updateSession_fails_iff c.session l.state.response
  unfold finish
  rw [h]
  cases stop with
  | aborted => exact ⟨_, _, rfl, by simp, by simp, by simp, by simp⟩
  | failed =>
    dsimp only
    cases hupdate : updateSession c.session l.state.response with
    | none => exact ⟨_, _, rfl, by simp, by simp, by simp, by simp⟩
    | some p => exact ⟨_, _, rfl, by simp, by simp, by simp, by simp⟩
  | done =>
    dsimp only
    cases hupdate : updateSession c.session l.state.response with
    | none => exact ⟨_, _, rfl, by simp, by simp, by simp, by simpa [hupdate] using hmisfits⟩
    | some p =>
      obtain ⟨updated, session⟩ := p
      cases updated with
      | true => exact ⟨_, _, rfl, by simp, by simp, by simp, by simpa [hupdate] using hmisfits⟩
      | false => exact ⟨_, _, rfl, by simp, by simp, by simp, by simpa [hupdate] using hmisfits⟩

/-- `errno` is `ETIME` behind a call that does not set it where it was so before, and no signal has
come. -/
theorem errno_kept_iff :
    (if e.interrupted = true then eintr else s.errno) = etime ↔
      e.interrupted = false ∧ s.errno = etime := by
  have hne : eintr ≠ etime := by decide
  by_cases h : e.interrupted = true
  · simp [h, hne]
  · simp [h]

theorem behind_errno_iff (isBroken : Bool) (response : WaitNotificationResponse)
    (front : List Exchange) :
    (CallState.behind ⟨ehostunreach, isBroken, response⟩ front).errno = etime ↔ front ≠ [] := by
  have hne : ehostunreach ≠ etime := by decide
  unfold CallState.behind
  by_cases h : front = []
  · simp [h, hne]
  · simp [h]

end Finish

/-! ## When a split wait equals one wait -/

section Main

variable {c : ClientConnection} {timeout : Int} {front rest : List Exchange} {e : Exchange}

/-- The state of a wait behind rounds that have timed out. -/
def found (c : ClientConnection) (front : List Exchange) : CallState :=
  CallState.behind ⟨ehostunreach, c.isBroken, ⟨none, []⟩⟩ front

theorem waitNotification_front (h : ∀ x ∈ front, x.timesOut = true)
    (hp : ArePartial timeout front.length) :
    waitNotification (some c) timeout (front ++ rest) =
      finish c ((waitLoop timeout (leftAfter timeout front.length) (found c front) rest).after
        (partialRounds front)) := by
  have hleft : timeout = leftAfter timeout 0 := by
    unfold leftAfter
    split
    · rfl
    · simp
  have hzero : ArePartial timeout (0 + front.length) := by rwa [Nat.zero_add]
  have hfront := waitLoop_front h hzero ⟨ehostunreach, c.isBroken, ⟨none, []⟩⟩ rest
  rw [← hleft, Nat.zero_add] at hfront
  show finish c _ = _
  rw [hfront]
  rfl

/-- A wait that ends in the round of `e`, behind rounds that have timed out. -/
theorem waitNotification_stops (h : ∀ x ∈ front, x.timesOut = true)
    (hp : ArePartial timeout front.length) {stop : Stop}
    (hloop : waitLoop timeout (leftAfter timeout front.length) (found c front) (e :: rest) =
      ⟨[roundAt timeout front.length e], (call (found c front) e).2, some stop⟩) :
    ∃ result connection, waitNotification (some c) timeout (front ++ e :: rest) =
        ⟨partialRounds front ++ [roundAt timeout front.length e], result, connection⟩ ∧
      result ≠ .waits ∧
      (∀ errno, result = .fails errno → errno = (call (found c front) e).2.errno) ∧
      (stop = .aborted → result = .fails (call (found c front) e).2.errno) ∧
      (stop = .done → (result = .fails (call (found c front) e).2.errno ↔
        Misfits c.session (call (found c front) e).2.response)) := by
  rw [waitNotification_front h hp, hloop]
  exact finish_of_stop rfl

/-- What a call that breaks makes of `errno`. -/
theorem call_broken {errno : Option Int32} {response : Option WaitNotificationResponse}
    (he : e.outcome = .broken errno response) (s : CallState) :
    (call s e).1 = false ∧ (call s e).2.isBroken = true ∧
      (call s e).2.errno = errno.getD (if e.interrupted = true then eintr else s.errno) := by
  simp [call, he]

theorem call_done {response : Option WaitNotificationResponse}
    (he : e.outcome = .answered 0 response) (s : CallState) :
    (call s e).1 = true ∧ (call s e).2.errno = (if e.interrupted = true then eintr else s.errno) ∧
      (call s e).2.response = e.responseBehind s.response := by
  simp [call, he, Exchange.responseBehind]

theorem call_refused {methodRc : UInt32} {response : Option WaitNotificationResponse}
    (he : e.outcome = .answered methodRc response) (hne : methodRc ≠ 0) (s : CallState) :
    (call s e).1 = false ∧ (call s e).2.errno = methodRc.toInt32 := by
  simp [call, he, hne]

theorem breaks_of_broken {errno : Option Int32} {response : Option WaitNotificationResponse}
    (he : e.outcome = .broken errno response) : e.breaks = true := by
  simp [Exchange.breaks, he]

theorem not_breaks_of_answered {methodRc : UInt32} {response : Option WaitNotificationResponse}
    (he : e.outcome = .answered methodRc response) : e.breaks = false := by
  simp [Exchange.breaks, he]

theorem found_errno_iff (c : ClientConnection) (front : List Exchange) :
    (found c front).errno = etime ↔ front ≠ [] :=
  behind_errno_iff c.isBroken ⟨none, []⟩ front

theorem found_response (c : ClientConnection) (front : List Exchange) (e : Exchange) :
    e.responseBehind (found c front).response =
      (front ++ [e]).foldl Exchange.responseBehind ⟨none, []⟩ := by
  rw [List.foldl_append]
  rfl

/-- An exchange that breaks and leaves `ETIME` is taken for a timeout. -/
theorem not_equalsOne_of_broken (h : ∀ x ∈ front, x.timesOut = true)
    (hp : ArePartial timeout front.length) (hbreaks : e.breaks = true)
    (hcall : (call (found c front) e).1 = false) (hbroken : (call (found c front) e).2.isBroken = true)
    (herrno : (call (found c front) e).2.errno = etime) :
    ¬ EqualsOne timeout (waitNotification (some c) timeout (front ++ e :: rest)) := by
  intro hone
  by_cases hpartial : ArePartial timeout (front.length + 1)
  · -- it goes on, on a broken connection
    have hloop := waitLoop_goesOn hcall herrno hpartial rest
    rw [waitNotification_front h hp, hloop, Loop.after_after] at hone
    have hrounds : ∀ l : Loop, (finish c (l.after (partialRounds front ++
        [roundAt timeout front.length e]))).rounds =
          partialRounds front ++ roundAt timeout front.length e :: l.rounds := by
      intro l
      unfold finish Loop.after
      split <;> simp
      split <;> simp
    obtain ⟨hrest, errno, -, hresult⟩ := hone.broken _ _ _ (hrounds _) hbreaks
    cases rest with
    | nil => simp [waitLoop, finish, Loop.after] at hresult
    | cons e' rest => exact rounds_ne_nil _ _ _ _ _ hrest
  · have hloop : waitLoop timeout (leftAfter timeout front.length) (found c front) (e :: rest) = _ :=
      waitLoop_stops (Or.inl fun hboth => hpartial hboth.2)
    rw [hcall, hbroken] at hloop
    obtain ⟨result, connection, hwait, -, -, haborted, -⟩ := waitNotification_stops h hp hloop
    rw [hwait] at hone
    obtain ⟨-, errno, hne, hresult⟩ := hone.broken _ _ _ rfl hbreaks
    rw [haborted rfl, herrno] at hresult
    exact hne (Result.fails.inj hresult).symm

theorem not_equalsOne_of_misled {connection : Option ClientConnection} {exchanges : List Exchange}
    (h : Misled connection timeout exchanges) :
    ¬ EqualsOne timeout (waitNotification connection timeout exchanges) := by
  obtain ⟨c, front, e, rest, rfl, rfl, hfront, hp, hmisled⟩ := h
  obtain ⟨response, he⟩ | ⟨hne, hinterrupted, ⟨response, he⟩ | ⟨⟨response, he⟩, hmisfits⟩⟩ := hmisled
  · obtain ⟨hcall, hbroken, herrno⟩ := call_broken he (found c front)
    exact not_equalsOne_of_broken hfront hp (breaks_of_broken he) hcall hbroken herrno
  · obtain ⟨hcall, hbroken, herrno⟩ := call_broken he (found c front)
    refine not_equalsOne_of_broken hfront hp (breaks_of_broken he) hcall hbroken ?_
    rw [herrno]
    exact errno_kept_iff.mpr ⟨hinterrupted, (found_errno_iff c front).mpr hne⟩
  · -- the exchange has gone through, and `errno` is that of the round before
    obtain ⟨hcall, herrno, hresponse⟩ := call_done he (found c front)
    have hloop : waitLoop timeout (leftAfter timeout front.length) (found c front) (e :: rest) = _ :=
      waitLoop_stops (Or.inr hcall)
    rw [hcall] at hloop
    obtain ⟨result, connection, hwait, -, -, -, hdone⟩ := waitNotification_stops hfront hp hloop
    rw [errno_kept_iff.mpr ⟨hinterrupted, (found_errno_iff c front).mpr hne⟩] at herrno
    rw [hresponse, found_response, herrno] at hdone
    have hresult := (hdone rfl).mpr hmisfits
    intro hone
    rw [hwait] at hone
    rcases hp with hnil | hinfinite | hlt
    · exact hne (List.length_eq_zero_iff.mp hnil)
    · exact hone.infinite hinfinite hresult
    · have hsum := hone.exact hresult
      have htimesOut : (roundAt timeout front.length e).exchange.timesOut = false := by
        show e.timesOut = false
        simp [Exchange.timesOut, he]
        decide
      have hsplit : waitedFor (partialRounds front ++ [roundAt timeout front.length e]) =
          waitedFor (partialRounds front) := by
        simp [waitedFor, htimesOut]
      rw [hsplit, waitedFor_partialRounds hfront] at hsum
      omega

/-- Behind rounds that have timed out, an exchange that breaks stops the wait. -/
theorem equalsOne_of_broken (hfront : ∀ x ∈ front, x.timesOut = true)
    (hp : ArePartial timeout front.length)
    (hround : ¬ (roundAt timeout front.length e).IsPartialTimeout)
    {errno : Option Int32} {response : Option WaitNotificationResponse}
    (he : e.outcome = .broken errno response)
    (hmisled : ¬ Misled (some c) timeout (front ++ e :: rest)) :
    EqualsOne timeout (waitNotification (some c) timeout (front ++ e :: rest)) := by
  obtain ⟨hcall, hbroken, herrno⟩ := call_broken he (found c front)
  have hne : (call (found c front) e).2.errno ≠ etime := by
    intro heq
    rw [herrno] at heq
    cases errno with
    | some errno =>
      obtain rfl : errno = etime := heq
      exact hmisled ⟨c, front, e, rest, rfl, rfl, hfront, hp, Or.inl ⟨response, he⟩⟩
    | none =>
      obtain ⟨hinterrupted, hstale⟩ := errno_kept_iff.mp heq
      exact hmisled ⟨c, front, e, rest, rfl, rfl, hfront, hp, Or.inr
        ⟨(found_errno_iff c front).mp hstale, hinterrupted, Or.inl ⟨response, he⟩⟩⟩
  have hloop : waitLoop timeout (leftAfter timeout front.length) (found c front) (e :: rest) = _ :=
    waitLoop_stops (Or.inl fun hboth => hne hboth.1)
  rw [hcall, hbroken] at hloop
  obtain ⟨result, connection, hwait, hwaits, -, haborted, -⟩ :=
    waitNotification_stops hfront hp hloop
  rw [hwait]
  refine equalsOne_stopped hfront (roundAt_timeout hp e) hround hwaits ?_
    fun _ => ⟨_, hne, haborted rfl⟩
  intro htimedOut
  exact absurd (Result.fails.inj ((haborted rfl).symm.trans htimedOut)) hne

/-- So does an exchange with which the method succeeds. -/
theorem equalsOne_of_done (hfront : ∀ x ∈ front, x.timesOut = true)
    (hp : ArePartial timeout front.length)
    (hround : ¬ (roundAt timeout front.length e).IsPartialTimeout)
    {response : Option WaitNotificationResponse} (he : e.outcome = .answered 0 response)
    (hmisled : ¬ Misled (some c) timeout (front ++ e :: rest)) :
    EqualsOne timeout (waitNotification (some c) timeout (front ++ e :: rest)) := by
  obtain ⟨hcall, herrno, hresponse⟩ := call_done he (found c front)
  have hloop : waitLoop timeout (leftAfter timeout front.length) (found c front) (e :: rest) = _ :=
    waitLoop_stops (Or.inr hcall)
  rw [hcall] at hloop
  obtain ⟨result, connection, hwait, hwaits, hfails, -, hdone⟩ :=
    waitNotification_stops hfront hp hloop
  rw [hwait]
  refine equalsOne_stopped hfront (roundAt_timeout hp e) hround hwaits ?_
    fun h => absurd h (Bool.eq_false_iff.mp (not_breaks_of_answered he))
  intro htimedOut
  have hstale := (hfails _ htimedOut).symm
  rw [herrno, errno_kept_iff, found_errno_iff] at hstale
  rw [← hfails _ htimedOut] at hdone
  have hmisfits := (hdone rfl).mp htimedOut
  rw [hresponse, found_response] at hmisfits
  exact absurd ⟨c, front, e, rest, rfl, rfl, hfront, hp, Or.inr
    ⟨hstale.2, hstale.1, Or.inr ⟨⟨response, he⟩, hmisfits⟩⟩⟩ hmisled

/-- And one with which the method fails, but for a timeout of a partial round. -/
theorem equalsOne_of_refused (hfront : ∀ x ∈ front, x.timesOut = true)
    (hp : ArePartial timeout front.length)
    (hlast : ¬ (e.timesOut = true ∧ ArePartial timeout (front.length + 1)))
    (hround : ¬ (roundAt timeout front.length e).IsPartialTimeout)
    {methodRc : UInt32} {response : Option WaitNotificationResponse}
    (he : e.outcome = .answered methodRc response) (hrc : methodRc ≠ 0) :
    EqualsOne timeout (waitNotification (some c) timeout (front ++ e :: rest)) := by
  obtain ⟨hcall, herrno⟩ := call_refused he hrc (found c front)
  have htimesOut : e.timesOut = true ↔ (call (found c front) e).2.errno = etime := by
    rw [herrno]
    simp [Exchange.timesOut, he]
  have hloop : waitLoop timeout (leftAfter timeout front.length) (found c front) (e :: rest) = _ :=
    waitLoop_stops (Or.inl fun hboth => hlast ⟨htimesOut.mpr hboth.1, hboth.2⟩)
  obtain ⟨result, connection, hwait, hwaits, hfails, -, -⟩ :=
    waitNotification_stops hfront hp hloop
  rw [hwait]
  refine equalsOne_stopped hfront (roundAt_timeout hp e) hround hwaits ?_
    fun h => absurd h (Bool.eq_false_iff.mp (not_breaks_of_answered he))
  intro htimedOut
  have htimes : e.timesOut = true := htimesOut.mpr (hfails _ htimedOut).symm
  exact ⟨htimes, roundAt_sum (fun hpartial => hlast ⟨htimes, hpartial⟩) e⟩

/-- Behind rounds that have timed out, a round that is none stops the wait. -/
theorem equalsOne_of_last (hfront : ∀ x ∈ front, x.timesOut = true)
    (hp : ArePartial timeout front.length)
    (hlast : ¬ (e.timesOut = true ∧ ArePartial timeout (front.length + 1)))
    (hmisled : ¬ Misled (some c) timeout (front ++ e :: rest)) :
    EqualsOne timeout (waitNotification (some c) timeout (front ++ e :: rest)) := by
  have hround : ¬ (roundAt timeout front.length e).IsPartialTimeout :=
    fun h => hlast ⟨h.2, (roundAt_isPartial _ _ _).mp h.1⟩
  cases he : e.outcome with
  | broken errno response => exact equalsOne_of_broken hfront hp hround he hmisled
  | answered methodRc response =>
    by_cases hrc : methodRc = 0
    · subst hrc
      exact equalsOne_of_done hfront hp hround he hmisled
    · exact equalsOne_of_refused hfront hp hlast hround he hrc

theorem equalsOne_notFound (timeout : Int) : EqualsOne timeout ⟨[], .fails enxio, none⟩ where
  inRange := by simp
  exact heq := absurd (Result.fails.inj heq) (by decide)
  infinite _ heq := absurd (Result.fails.inj heq) (by decide)
  goesOn := by simp
  stops := by simp
  broken := by simp

/-- **When a split wait equals one wait.** -/
theorem equalsOne_iff (connection : Option ClientConnection) (timeout : Int)
    (exchanges : List Exchange) :
    EqualsOne timeout (waitNotification connection timeout exchanges) ↔
      ¬ Misled connection timeout exchanges := by
  refine ⟨fun hone hmisled => not_equalsOne_of_misled hmisled hone, fun hmisled => ?_⟩
  cases connection with
  | none => exact equalsOne_notFound timeout
  | some c =>
    obtain ⟨front, rest, rfl, hfront, hp, hlast⟩ :=
      exists_front (n := 0) timeout exchanges (Or.inl rfl)
    rw [Nat.zero_add] at hp hlast
    cases rest with
    | nil =>
      rw [waitNotification_front hfront hp]
      have hwaits : finish c ((waitLoop timeout (leftAfter timeout front.length) (found c front)
          []).after (partialRounds front)) = ⟨partialRounds front, .waits, some c⟩ := by
        simp [waitLoop, Loop.after, finish, found, CallState.behind]
      rw [hwaits]
      exact equalsOne_waits hfront
    | cons e rest => exact equalsOne_of_last hfront hp (hlast e rest rfl) hmisled

end Main

/-- A response with the error of the method alone. -/
def timeoutReply : Exchange := .responds false ⟨protocolMagic, protocolVersion, 0, 62⟩ (.fails none)

/-- A wait of a second and a half: after the first second the server has nothing to tell, then it goes
away, and the client reports a timeout. -/
theorem not_equalsOne : ¬ EqualsOne 1500
    (waitNotification (some ⟨false, ⟨none, []⟩⟩) 1500 [timeoutReply, .fails false none]) := by
  apply not_equalsOne_of_misled
  have hpartial : timeoutMax * 1 < 1500 := by decide
  exact ⟨_, [timeoutReply], .fails false none, [], rfl, rfl, by simp; decide,
    Or.inr (Or.inr hpartial), Or.inr ⟨by simp, rfl, Or.inl ⟨none, rfl⟩⟩⟩

end McDaemon.Proxy.SplitWait
