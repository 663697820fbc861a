/-
# McDaemon.Client.CutReading — responses and notifications on a stream that arrives in pieces.

The client library reads a response and its payload with one read each; it takes a read that
returns all bytes, and one that returns as many as a response header has.  Notifications are read
one by one until there are no more.  The registry client takes whatever its reads return.

Indifference to the pieces, at the end, is a property of all readers of the protocol, the daemon's
command loop included.
-/
import McDaemon.Client.OpenSession
import McDaemon.Daemon.CutReading
import McDaemon.Lib.Cuts

namespace McDaemon.Client.CutReading

open McDaemon.Lib

/-! ## Responses -/

/-- `RECV_FROM_DAEMON` into a structure of `size` bytes. -/
def recvFromDaemon (size : Nat) : Reads UInt8 (Except McResult (List UInt8)) :=
  .once size (fun rlen => rlen = size ∨ rlen = 4) fun
    | .closed => .done (.error mcDrvErrSocketRead)
    | .refused => .done (.error mcDrvErrSocketLength)
    | .field bs => .done (.ok bs)

/-- The calls that read a response from the connection of the device. -/
inductive DeviceCall
  | getDaemonVersion
  | openDevice
  | closeDevice
  | openSession
  | closeSession
  | map
  | unmap
  | getMobiCoreVersion
deriving DecidableEq, Repr

namespace DeviceCall

/-- The size of the payload that follows a good response: a version, `mcDrvRspOpenSessionPayload_t`,
`mcDrvRspMapBulkMemPayload_t` and `mcVersionInfo_t`. -/
def payload : DeviceCall → Option Nat
  | .getDaemonVersion => some 4
  | .openSession => some 12
  | .map => some 8
  | .getMobiCoreVersion => some 96
  | .openDevice | .closeDevice | .closeSession | .unmap => none

/-- What the call returns when the daemon refuses. -/
def refusal (rsp : McResult) : DeviceCall → McResult
  | .getDaemonVersion | .openDevice | .closeDevice => rsp
  | .openSession => openError rsp
  | .closeSession => mcDrvErrUnknownDevice
  | .map | .unmap | .getMobiCoreVersion => mcDrvErrDaemonUnreachable

/-- The device is of no use after the call: it could not be opened, it has been closed, or it is
set invalid. -/
def ends (r : Except McResult (List UInt8)) : DeviceCall → Bool
  | .getDaemonVersion | .openDevice =>
    match r with
    | .ok _ => false
    | .error _ => true
  | .closeDevice =>
    match r with
    | .ok _ => true
    | .error _ => false
  | .closeSession | .unmap =>
    match r with
    | .ok _ => false
    | .error mcResult => mcResult = mcDrvErrSocketWrite ∨ mcResult = mcDrvErrSocketRead
  | .openSession | .map | .getMobiCoreVersion => false

/-- The call reads its response, and the payload if there is one. -/
def response (c : DeviceCall) : Reads UInt8 (Except McResult (List UInt8)) :=
  (recvFromDaemon 4).bind fun
    | .error mcResult => .done (.error mcResult)
    | .ok rsp =>
      if ofLe rsp ≠ mcDrvOk.toNat then .done (.error (c.refusal (UInt32.ofNat (ofLe rsp))))
      else
        match c.payload with
        | none => .done (.ok [])
        | some size => recvFromDaemon size

end DeviceCall

/-- The responses to one call after another, until the device is of no use. -/
def responses : List DeviceCall → List (Except McResult (List UInt8)) →
    Reads UInt8 (List (Except McResult (List UInt8)))
  | [], results => .done results
  | c :: calls, results =>
    c.response.bind fun r =>
      if c.ends r then .done (results ++ [r]) else responses calls (results ++ [r])

/-! ## Notifications -/

def mcDrvErrNotification : McResult := 0x00000002
def mcDrvErrTimeout : McResult := 0x0000000b
def mcDrvInfoNotification : McResult := 0x00000015

/-- What a wait has come to: its result, the payloads that it has seen, and whether it has found the
connection dead. -/
structure Waited where
  mcResult : McResult
  payloads : List Nat
  dead : Bool
deriving DecidableEq, Repr

/-- The loop of `mcWaitNotification_`.  `silent` tells whether the connection is still there when
nothing more comes, so that the read times out. -/
def readNotifications (silent : Bool) : Nat → List Nat → Reads UInt8 (Option Waited)
  | 0, _ => .done none
  | fuel + 1, payloads =>
    .once 8 (fun numRead => numRead = 8) fun
      | .closed =>
        if payloads ≠ [] then .done (some ⟨mcDrvOk, payloads, false⟩)
        else if silent then .done (some ⟨mcDrvErrTimeout, [], false⟩)
        else .done (some ⟨mcDrvErrNotification, [], true⟩)
      | .refused =>
        -- the caller got valid notifications before, so it is not told
        if payloads ≠ [] then .done (some ⟨mcDrvOk, payloads, false⟩)
        else .done (some ⟨mcDrvErrNotification, [], false⟩)
      | .field notification =>
        let payload := ofLe (notification.drop 4)
        if payload ≠ 0 then .done (some ⟨mcDrvInfoNotification, payloads ++ [payload], false⟩)
        else readNotifications silent fuel (payloads ++ [payload])

/-- One `mcWaitNotification_` after another.  A dead connection makes the device invalid. -/
def waits (fuel : Nat) : List Bool → List Waited → Reads UInt8 (Option (List Waited))
  | [], results => .done (some results)
  | silent :: calls, results =>
    (readNotifications silent fuel []).bind fun
      | none => .done none
      | some r =>
        if r.dead then .done (some (results ++ [r])) else waits fuel calls (results ++ [r])

/-- The connection of a session: the answer to `NQ_CONNECT`, and then notifications. -/
def notificationChannel (fuel : Nat) (calls : List Bool) : Reads UInt8 (Option (List Waited)) :=
  (recvFromDaemon 4).bind fun
    | .error _ => .done (some [])
    | .ok rsp => if ofLe rsp ≠ mcDrvOk.toNat then .done (some []) else waits fuel calls []

/-! ## The registry -/

/-- The first read of the registry client takes what comes, over the code that was there before. -/
def responseId (got : List UInt8) : McResult :=
  UInt32.ofNat (ofLe ((got ++ (le32 mcDrvErrInvalidParameter).drop got.length).take 4))

/-- `writeBlobData`, once the request is sent. -/
def writeBlobData : Reads UInt8 McResult :=
  .once 4 (fun _ => true) fun
    | .field rsp => .done (responseId rsp)
    | _ => .done mcDrvErrDaemonSocket

/-- `readBlobData`, once the request is sent: the code and the data, the length of which is what
the second read returned. -/
def readBlobData (rlen : Nat) : Reads UInt8 (McResult × List UInt8) :=
  if rlen = 0 then .done (mcDrvErrDaemonSocket, [])
  else
    .once 4 (fun _ => true) fun
      | .field rsp =>
        .once rlen (fun _ => true) fun
          | .field data => .done (responseId rsp, data)
          | _ => .done (mcDrvErrDaemonSocket, [])
      | _ => .done (mcDrvErrDaemonSocket, [])

/-! ## Care -/

section Careful

theorem quits_recvFromDaemon {size : Nat} (hsize : 0 < size) :
    (recvFromDaemon size).Quits (· = .error mcDrvErrSocketLength) := by
  refine ⟨hsize, decide_eq_true (.inl rfl), ⟨_, rfl, rfl⟩, fun e => ?_⟩
  cases e <;> trivial

theorem quits_response (c : DeviceCall) : c.response.Quits fun _ => True := by
  apply (quits_recvFromDaemon (by decide)).bind
  · rintro (mcResult | rsp)
    · trivial
    · dsimp only
      split_ifs
      · trivial
      · -- only some of the calls read on, and what they read on may be refused
        cases c <;>
          first
          | trivial
          | exact ⟨by decide, rfl, ⟨_, trivial, rfl⟩, fun e => by cases e <;> trivial⟩
  · rintro _ rfl
    exact ⟨_, trivial, rfl⟩

theorem notices_responses (calls : List DeviceCall) (results : List (Except McResult (List UInt8))) :
    (responses calls results).Notices := by
  cases calls with
  | nil => exact Reads.notices_done
  | cons c calls => exact Reads.notices_once (by decide)

theorem careful_responses (calls : List DeviceCall) (results : List (Except McResult (List UInt8))) :
    (responses calls results).Careful := by
  induction calls generalizing results with
  | nil => trivial
  | cons c calls ih =>
    apply (quits_response c).careful_bind
    · intro r
      split_ifs
      · trivial
      · exact ih _
    · intro r _
      split_ifs
      · exact Reads.notices_done
      · exact notices_responses calls _

theorem quits_readNotifications (silent : Bool) (fuel : Nat) (payloads : List Nat) :
    (readNotifications silent fuel payloads).Quits fun _ => True := by
  induction fuel generalizing payloads with
  | zero => trivial
  | succ fuel ih =>
    refine ⟨by decide, rfl, ?_, fun e => ?_⟩
    · by_cases hseen : payloads ≠ []
      · exact ⟨_, trivial, if_pos hseen⟩
      · exact ⟨_, trivial, if_neg hseen⟩
    · cases e with
      | closed =>
        show Reads.Quits _ (if _ then _ else _)
        split_ifs <;> trivial
      | refused =>
        show Reads.Quits _ (if _ then _ else _)
        split_ifs <;> trivial
      | field notification =>
        show Reads.Quits _ (if _ then _ else _)
        split_ifs
        · trivial
        · exact ih _

theorem notices_waits (fuel : Nat) (calls : List Bool) (results : List Waited) :
    (waits fuel calls results).Notices := by
  cases calls with
  | nil => exact Reads.notices_done
  | cons silent calls =>
    cases fuel with
    | zero => exact Reads.notices_done
    | succ fuel => exact Reads.notices_once (by decide)

theorem careful_waits (fuel : Nat) (calls : List Bool) (results : List Waited) :
    (waits fuel calls results).Careful := by
  induction calls generalizing results with
  | nil => trivial
  | cons silent calls ih =>
    apply (quits_readNotifications silent fuel []).careful_bind
    · rintro (_ | r)
      · trivial
      · dsimp only
        split_ifs
        · trivial
        · exact ih _
    · rintro (_ | r) -
      · exact Reads.notices_done
      · dsimp only
        split_ifs
        · exact Reads.notices_done
        · exact notices_waits fuel calls _

theorem careful_notificationChannel (fuel : Nat) (calls : List Bool) :
    (notificationChannel fuel calls).Careful := by
  apply (quits_recvFromDaemon (by decide)).careful_bind
  · rintro (mcResult | rsp)
    · trivial
    · dsimp only
      split_ifs
      · trivial
      · exact careful_waits fuel calls []
  · rintro _ rfl
    exact Reads.notices_done

theorem careful_writeBlobData : writeBlobData.Careful := by
  refine ⟨by decide, rfl, Reads.notices_done, fun e => ?_⟩
  cases e <;> trivial

theorem careful_readBlobData (rlen : Nat) : (readBlobData rlen).Careful := by
  unfold readBlobData
  split_ifs with hzero
  · trivial
  · refine ⟨by decide, rfl, Reads.notices_done, fun e => ?_⟩
    cases e with
    | field rsp =>
      refine ⟨Nat.pos_of_ne_zero hzero, rfl, Reads.notices_done, fun e => ?_⟩
      cases e <;> trivial
    | _ => trivial

end Careful

/-- A wait comes to an end when the fuel is more than the stream can hold. -/
theorem readNotifications_returns (silent : Bool) {fuel : Nat} (payloads : List Nat)
    {s : Pieces UInt8} (hfuel : s.length < fuel) :
    ((readNotifications silent fuel payloads).run s).result ≠ none := by
  induction fuel generalizing payloads s with
  | zero => exact absurd hfuel (Nat.not_lt_zero _)
  | succ fuel ih =>
    unfold readNotifications Reads.run
    show (Reads.run _ _).result ≠ none
    unfold Reads.judge
    by_cases hclosed : (s.recv 8).1.length = 0
    · rw [if_pos hclosed]
      dsimp only
      split_ifs <;> exact Option.some_ne_none _
    rw [if_neg hclosed]
    by_cases htakes : decide ((s.recv 8).1.length = 8) = true
    · rw [if_pos htakes]
      dsimp only
      by_cases hpayload : ofLe ((s.recv 8).1.drop 4) ≠ 0
      · rw [if_pos hpayload]
        exact Option.some_ne_none _
      · rw [if_neg hpayload]
        apply ih
        -- what has been read is no longer in the stream
        have hle := Pieces.length_recv_le 8 s
        rw [Pieces.recv_eq 8 s, List.length_drop]
        omega
    · rw [if_neg htakes]
      dsimp only
      split_ifs <;> exact Option.some_ne_none _

/-- **Reading does not depend on the cuts** exactly when none falls inside what a single read asks
for: a header or a fixed payload of a command, a response or its payload, a notification, an answer
or the data of the registry.  Readers that loop do not care. -/
theorem cuts_iff_whole (s : Pieces UInt8) (conn : Daemon.Framing.ConnState)
    (turns : List Daemon.Framing.Turn) (calls : List DeviceCall) (fuel : Nat)
    (silences : List Bool) (rlen : Nat) :
    ((Daemon.CutReading.clientLoop conn turns []).Decodes s ↔
      (Daemon.CutReading.clientLoop conn turns []).Whole s) ∧
    ((responses calls []).Decodes s ↔ (responses calls []).Whole s) ∧
    ((notificationChannel fuel silences).Decodes s ↔ (notificationChannel fuel silences).Whole s) ∧
    (writeBlobData.Decodes s ↔ writeBlobData.Whole s) ∧
    ((readBlobData rlen).Decodes s ↔ (readBlobData rlen).Whole s) := by
  refine ⟨?_, ?_, ?_, ?_, ?_⟩
  · exact Reads.decodes_iff_whole (Daemon.CutReading.careful_clientLoop conn turns [])
  · exact Reads.decodes_iff_whole (careful_responses calls [])
  · exact Reads.decodes_iff_whole (careful_notificationChannel fuel silences)
  · exact Reads.decodes_iff_whole careful_writeBlobData
  · exact Reads.decodes_iff_whole (careful_readBlobData rlen)

/-- The response to an open call that succeeds.  A piece ends behind the session id. -/
def cutResponse : Pieces UInt8 :=
  (le32 0).map (·, false) ++ [(1, false), (0, false), (0, false), (0, true)] ++
    (le32 7 ++ le32 9).map (·, false)

/-- The session id is taken for the whole payload, and the rest of it is left for the next call. -/
theorem cutResponse_shortPayload :
    ((responses [.openSession] []).run cutResponse).result = [.ok (le32 1)] ∧
      ((responses [.openSession] []).run cutResponse).rest = le32 7 ++ le32 9 ∧
      ((responses [.openSession] []).read cutResponse.bytes).result =
        [.ok (le32 1 ++ le32 7 ++ le32 9)] ∧
      ¬ (responses [.openSession] []).Decodes cutResponse := by
  refine ⟨by decide, by decide, by decide, ?_⟩
  rintro ⟨heq, -⟩
  have hresult := congrArg Reading.result heq
  revert hresult
  decide

end McDaemon.Client.CutReading
