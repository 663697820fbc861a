/-
# McDaemon.Daemon.RegistryReads — what a read gives away.

The answer to a read is compared over two stack frames.  It is the same for all of them exactly if
no byte of it comes from the frame, and that is the case if the command is refused, comes up short,
or finds the object that it asks for: every failure of the registry itself is answered with the
whole buffer.
-/
import McDaemon.Daemon.RegistryCommands

namespace McDaemon.Daemon

open McDaemon.Lib
open McDaemon.Lib.Reader
open McDaemon.Registry
open McDaemon.Daemon.Framing (Stream Turn)

/-! ## One buffer -/

section Answer

variable {n : Nat} {r : Except McResult (List UInt8)}

/-- A read that comes off is answered with what has been read. -/
theorem answer_fill_ok (buf : Vector UInt8 n) (bs : List UInt8) :
    answer (fill buf (.ok bs)) = le32 mcDrvOk ++ bs := by
  show le32 mcDrvOk ++ (bs ++ buf.toList.drop bs.length).take bs.length = _
  rw [List.take_left]

/-- A read that fails is answered with the buffer as it was. -/
theorem answer_fill_error (buf : Vector UInt8 n) {code : McResult}
    (hcode : code ≠ mcDrvErrInvalidOperation) :
    answer (fill buf (.error code)) = le32 code ++ buf.toList := by
  show le32 code ++ (if code ≠ mcDrvErrInvalidOperation then buf.toList.take n else []) = _
  rw [if_pos hcode, List.take_of_length_le (Nat.le_of_eq buf.length_toList)]

/-- Two buffers of bytes that differ. -/
theorem replicate_ne (hn : 0 < n) :
    (Vector.replicate n (0 : UInt8)).toList ≠ (Vector.replicate n 1).toList := by
  intro h
  rw [Vector.toList_replicate, Vector.toList_replicate] at h
  rcases List.replicate_inj.mp h with ⟨-, hzero | hbyte⟩
  · omega
  · exact absurd hbyte (by decide)

/-- **One buffer.** The answer is independent of the buffer exactly if the read comes off. -/
theorem answer_fill_const_iff (hn : 0 < n)
    (hr : ∀ code, r = .error code → code ≠ mcDrvErrInvalidOperation) :
    (∀ buf buf' : Vector UInt8 n, answer (fill buf r) = answer (fill buf' r)) ↔
      ∃ bs, r = .ok bs := by
  cases r with
  | ok bs =>
    constructor
    · intro _
      exact ⟨bs, rfl⟩
    · intro _ buf buf'
      rw [answer_fill_ok, answer_fill_ok]
  | error code =>
    constructor
    · intro h
      have hsame := h (Vector.replicate n 0) (Vector.replicate n 1)
      rw [answer_fill_error _ (hr code rfl), answer_fill_error _ (hr code rfl)] at hsame
      exact absurd (List.append_cancel_left hsame) (replicate_ne hn)
    · rintro ⟨bs, hbs⟩
      cases hbs

end Answer

/-! ## What a read asks for -/

/-- A file with something in it. -/
def HasContent (s : Fs) (path : List String) : Prop :=
  ∃ content, s.get? path = some (.file content) ∧ content ≠ []

theorem readFile_ok_iff {s : Fs} {path : List String} :
    (∃ bs, readFile s path maxDataSize = .ok bs) ↔ HasContent s path := by
  constructor
  · rintro ⟨bs, h⟩
    obtain ⟨content, hget, rfl, hne⟩ := readFile_eq_ok.mp h
    refine ⟨content, hget, ?_⟩
    rintro rfl
    exact hne rfl
  · rintro ⟨content, hget, hne⟩
    refine ⟨content.take maxDataSize, readFile_eq_ok.mpr ⟨content, hget, rfl, ?_⟩⟩
    intro h
    rcases List.take_eq_nil_iff.mp h with hsize | hnil
    · exact absurd hsize (by decide)
    · exact hne hnil

theorem mcRegistryReadSp_ok_iff {s : Fs} {spid : Spid} :
    (∃ bs, mcRegistryReadSp s spid maxDataSize = .ok bs) ↔
      spid ≠ 0 ∧ HasContent s (getSpContFilePath spid) := by
  rw [← readFile_ok_iff]
  simp only [mcRegistryReadSp_eq_ok, exists_and_left]

/-- No failure of the registry looks like a refused command. -/
theorem readFile_error_ne {s : Fs} {path : List String} {size : Nat} {code : McResult}
    (h : readFile s path size = .error code) : code ≠ mcDrvErrInvalidOperation := by
  unfold readFile at h
  split at h
  · cases h
    decide
  · cases h
    decide
  · split_ifs at h
    cases h
    decide

theorem mcRegistryReadSp_error_ne {s : Fs} {spid : Spid} {size : Nat} {code : McResult}
    (h : mcRegistryReadSp s spid size = .error code) : code ≠ mcDrvErrInvalidOperation := by
  unfold mcRegistryReadSp at h
  split_ifs at h
  · cases h
    decide
  · exact readFile_error_ne h

/-- The object that a read asks for can be read. -/
def RegistryCall.Readable (authTokenPath : Option (List String)) (s : Fs) : RegistryCall → Prop
  | .readAuthToken => HoldsToken authTokenPath s
  | .readRoot => HasContent s getRootContFilePath
  | .readSp spid => spid ≠ 0 ∧ HasContent s (getSpContFilePath spid)
  | .readTrustletCon uuid spid => HasContent s (getTlContFilePath uuid spid)
  | _ => False

/-- The read that a command asks for whose arguments are in front of the stream. -/
def readCallOf (c : DrvCommand) (stream : Stream) : RegistryCall :=
  match c with
  | .regReadAuthToken => .readAuthToken
  | .regReadSpCont => .readSp (spidOf (stream.take 4))
  | .regReadTlCont => .readTrustletCon (uuidOf (stream.take 16)) (spidOf ((stream.drop 16).take 4))
  | _ => .readRoot

section Requests

variable {turn : Turn} {c : DrvCommand} {stream : Stream}

theorem getSpid_of_le (h : 4 ≤ stream.length) :
    getSpid stream = (.ok (spidOf (stream.take 4)), stream.drop 4) := by
  rw [getSpid, bind_of_ok (show getField 4 stream = _ from take_of_le h)]
  rfl

theorem getSpid_of_lt (h : stream.length < 4) :
    getSpid stream = (.error mcDrvErrInvalidOperation, []) :=
  bind_of_error (take_of_lt h)

theorem getUuid_of_le (h : 16 ≤ stream.length) :
    getUuid stream = (.ok (uuidOf (stream.take 16)), stream.drop 16) := by
  rw [getUuid, bind_of_ok (show getField 16 stream = _ from take_of_le h)]
  rfl

theorem getUuid_of_lt (h : stream.length < 16) :
    getUuid stream = (.error mcDrvErrInvalidOperation, []) :=
  bind_of_error (take_of_lt h)

/-- A request with all its arguments is understood. -/
theorem receiveReadData_of_le (hc : isRegistryRead c = true) (hp : turn.permitted = true)
    (hlen : c.idFields.sum ≤ stream.length) :
    receiveReadData turn c stream = (.ok (readCallOf c stream), stream.drop c.idFields.sum) := by
  unfold receiveReadData
  rw [hp, require_true_bind]
  cases c with
  | regReadAuthToken | regReadRootCont => rfl
  | regReadSpCont => exact bind_of_ok (getSpid_of_le hlen)
  | regReadTlCont =>
    have hlen : 20 ≤ stream.length := hlen
    have hrest : 4 ≤ (stream.drop 16).length := by
      rw [List.length_drop]
      omega
    dsimp only
    rw [bind_of_ok (getUuid_of_le (by omega)), bind_of_ok (getSpid_of_le hrest), List.drop_drop]
    rfl
  | _ => cases hc

/-- A request that comes up short is answered like a refused one. -/
theorem receiveReadData_of_lt (hc : isRegistryRead c = true) (hp : turn.permitted = true)
    (hlen : stream.length < c.idFields.sum) :
    receiveReadData turn c stream = (.error mcDrvErrInvalidOperation, []) := by
  unfold receiveReadData
  rw [hp, require_true_bind]
  cases c with
  | regReadAuthToken | regReadRootCont => exact absurd hlen (Nat.not_lt_zero _)
  | regReadSpCont => exact bind_of_error (getSpid_of_lt hlen)
  | regReadTlCont =>
    have hlen : stream.length < 20 := hlen
    dsimp only
    by_cases h16 : 16 ≤ stream.length
    · have hrest : (stream.drop 16).length < 4 := by
        rw [List.length_drop]
        omega
      rw [bind_of_ok (getUuid_of_le h16)]
      exact bind_of_error (getSpid_of_lt hrest)
    · exact bind_of_error (getUuid_of_lt (Nat.not_le.mp h16))
  | _ => cases hc

theorem receiveReadData_of_refused (c : DrvCommand) (stream : Stream)
    (hp : turn.permitted = false) :
    receiveReadData turn c stream = (.error mcDrvErrInvalidOperation, stream) := by
  unfold receiveReadData
  rw [hp]
  exact bind_of_error rfl

end Requests

/-! ## All reads -/

section Independent

variable (sur : Surroundings) (s : Fs)

/-- The surroundings with another stack. -/
def Surroundings.onStack (f : Frame) : Surroundings := { sur with frame := f }

/-- The bytes that a read is answered with. -/
def readReply (c : DrvCommand) (stream : Stream) (f : Frame) : List UInt8 :=
  (processRegistryReadData (sur.onStack f) s c stream).1

variable {sur s}

/-- What is answered to a refused command has no buffer in it. -/
theorem readReply_of_error {c : DrvCommand} {stream rest : Stream}
    (h : receiveReadData sur.turn c stream = (.error mcDrvErrInvalidOperation, rest)) (f : Frame) :
    readReply sur s c stream f = le32 mcDrvErrInvalidOperation := by
  show (processRegistryReadData (sur.onStack f) s c stream).1 = _
  rw [processRegistryReadData, show (sur.onStack f).turn = sur.turn from rfl, h]
  show le32 mcDrvErrInvalidOperation ++ (if mcDrvErrInvalidOperation ≠ mcDrvErrInvalidOperation
    then _ else []) = _
  rw [if_neg (not_not.mpr rfl), List.append_nil]

theorem readReply_of_ok {c : DrvCommand} {stream rest : Stream} {call : RegistryCall}
    (h : receiveReadData sur.turn c stream = (.ok call, rest)) (f : Frame) :
    readReply sur s c stream f = answer (readInto (sur.onStack f) s call) := by
  show (processRegistryReadData (sur.onStack f) s c stream).1 = _
  rw [processRegistryReadData, show (sur.onStack f).turn = sur.turn from rfl, h]

theorem buf_surjective : Function.Surjective Frame.buf := fun buf =>
  ⟨⟨buf, Vector.replicate _ 0⟩, rfl⟩

theorem auth_surjective : Function.Surjective Frame.auth := fun auth =>
  ⟨⟨Vector.replicate _ 0, auth⟩, rfl⟩

/-- **One read.** The answer is independent of the stack exactly if the object can be read. -/
theorem readInto_const_iff {c : DrvCommand} (hc : isRegistryRead c = true) (stream : Stream) :
    (∀ f f' : Frame, answer (readInto (sur.onStack f) s (readCallOf c stream)) =
        answer (readInto (sur.onStack f') s (readCallOf c stream))) ↔
      (readCallOf c stream).Readable sur.authTokenPath s := by
  cases c with
  | regReadAuthToken =>
    have hconst := answer_fill_const_iff (r := mcRegistryReadAuthToken sur.authTokenPath s)
      (show 0 < sizeofAuthTokenCont by decide) fun _ => mcRegistryReadAuthToken_error
    exact auth_surjective.forall₂.symm.trans (hconst.trans mcRegistryReadAuthToken_ok_iff)
  | regReadRootCont =>
    have hconst := answer_fill_const_iff (r := mcRegistryReadRoot s maxDataSize)
      (show 0 < maxDataSize by decide) fun _ => readFile_error_ne
    exact buf_surjective.forall₂.symm.trans (hconst.trans readFile_ok_iff)
  | regReadSpCont =>
    have hconst := answer_fill_const_iff
      (r := mcRegistryReadSp s (spidOf (stream.take 4)) maxDataSize)
      (show 0 < maxDataSize by decide) fun _ => mcRegistryReadSp_error_ne
    exact buf_surjective.forall₂.symm.trans (hconst.trans mcRegistryReadSp_ok_iff)
  | regReadTlCont =>
    have hconst := answer_fill_const_iff
      (r := mcRegistryReadTrustletCon s (uuidOf (stream.take 16)) (spidOf ((stream.drop 16).take 4))
        maxDataSize)
      (show 0 < maxDataSize by decide) fun _ => readFile_error_ne
    exact buf_surjective.forall₂.symm.trans (hconst.trans readFile_ok_iff)
  | _ => cases hc

/-- **What a read gives away.** Two answers to a read that differ only in what was on the stack are
the same exactly if, unless the client is refused or the request comes up short, the object that
is asked for can be read. -/
theorem readReply_independent_iff {c : DrvCommand} (hc : isRegistryRead c = true)
    (stream : Stream) :
    (∀ f f' : Frame, readReply sur s c stream f = readReply sur s c stream f') ↔
      (sur.turn.permitted = true → c.idFields.sum ≤ stream.length →
        (readCallOf c stream).Readable sur.authTokenPath s) := by
  cases hp : sur.turn.permitted with
  | false =>
    have hreply := readReply_of_error (s := s)
      (receiveReadData_of_refused c stream hp)
    simp [hreply]
  | true =>
    by_cases hlen : c.idFields.sum ≤ stream.length
    · have hreply := readReply_of_ok (s := s) (receiveReadData_of_le hc hp hlen)
      simp only [hreply, hlen, true_implies]
      exact readInto_const_iff hc stream
    · have hreply := readReply_of_error (s := s) (receiveReadData_of_lt hc hp (Nat.not_le.mp hlen))
      simp [hreply, hlen]

end Independent

/-! ## A registry with and without a root container -/

/-- A frame that is full of one byte. -/
def frameOf (b : UInt8) : Frame := ⟨Vector.replicate _ b, Vector.replicate _ b⟩

/-- A permitted client, and allocations that succeed. -/
def fairSurroundings : Surroundings where
  turn := Framing.fairTurn
  frame := frameOf 0
  authTokenPath := none
  loadCheck := fun _ _ => mcDrvOk
  heap := fun _ => 0
  other := fun s _ => (mcDrvErrUnknown, s)

/-- A registry whose root container is one byte. -/
def shortRoot : Fs := (storeFile freshRegistry getRootContFilePath [7]).2

theorem readReply_shortRoot :
    readReply fairSurroundings shortRoot .regReadRootCont [] (frameOf 0) =
      readReply fairSurroundings shortRoot .regReadRootCont [] (frameOf 1) := by
  have hroot : HasContent shortRoot getRootContFilePath := ⟨[7], rfl, by decide⟩
  exact (readReply_independent_iff (c := .regReadRootCont) rfl []).mpr (fun _ _ => hroot) _ _

/-- Without a root container the client is sent the whole buffer. -/
theorem readReply_freshRegistry (f : Frame) :
    readReply fairSurroundings freshRegistry .regReadRootCont [] f =
      le32 mcDrvErrInvalidDeviceFile ++ f.buf.toList := by
  have hreceive : receiveReadData fairSurroundings.turn .regReadRootCont [] = (.ok .readRoot, []) :=
    rfl
  rw [readReply_of_ok hreceive]
  exact answer_fill_error f.buf (by decide)

theorem readReply_leaks :
    ¬ ∀ f f' : Frame, readReply fairSurroundings freshRegistry .regReadRootCont [] f =
      readReply fairSurroundings freshRegistry .regReadRootCont [] f' := by
  intro h
  have hsame := h (frameOf 0) (frameOf 1)
  rw [readReply_freshRegistry, readReply_freshRegistry] at hsame
  exact replicate_ne (show 0 < maxDataSize by decide) (List.append_cancel_left hsame)

end McDaemon.Daemon
