/-
# McDaemon.Daemon.TrustletReceive — the loop that receives a trustlet.

`processOpenTrustlet` adds up what `readData` returns until it has `trustlet_len` bytes, and gives
up when a read fails.  The end of the stream is a read of no bytes, which is no failure: it adds
nothing, and from then on every read does the same.  So the loop ends exactly when the bytes, or a
failure, come before the client closes its end.
-/
import McDaemon.Daemon.Framing

namespace McDaemon.Daemon.TrustletReceive

open McDaemon.Lib
open Framing (getData)

/-! ## One read -/

/-- What the system calls of one `readData` do: `select` fails, finds nothing, or comes back without
the descriptor in its set; `recv` fails, or has bytes, none at the end of the stream. -/
inductive SocketEvent where
  | selectFailed
  | noneReady
  | notSet
  | recvFailed
  | arrived (bs : List UInt8)
deriving DecidableEq, Repr

/-- `Connection::readData`: what it returns, and the bytes that it writes to the buffer. -/
def readData (len : UInt32) : SocketEvent → Int × List UInt8
  | .selectFailed => (-1, [])
  | .noneReady => (-2, [])
  | .notSet => (1, [])
  | .recvFailed => (-1, [])
  | .arrived bs => ((bs.take len.toNat).length, bs.take len.toNat)

/-- The events on which `readData` returns an error. -/
def SocketEvent.failed : SocketEvent → Bool
  | .selectFailed | .noneReady | .recvFailed => true
  | .notSet | .arrived _ => false

/-- How many bytes an event is good for. -/
def SocketEvent.size : SocketEvent → Nat
  | .selectFailed | .noneReady | .recvFailed => 0
  | .notSet => 1
  | .arrived bs => bs.length

/-! ## The loop -/

/-- `total_len`, and the buffer up to `p`; a byte that no read has written is `none`. -/
structure Receiving where
  totalLen : UInt32
  payload : List (Option UInt8)
deriving DecidableEq, Repr

/-- The buffer is filled as far as `total_len` says, and not beyond its end. -/
structure Receiving.Valid (len : UInt32) (s : Receiving) : Prop where
  filled : s.payload.length = s.totalLen.toNat
  inside : s.totalLen.toNat ≤ len.toNat

/-- The body of the loop. -/
def receive (len : UInt32) (s : Receiving) (e : SocketEvent) : Except McResult Receiving :=
  let got := readData (len - s.totalLen) e
  let rlen := UInt32.ofInt got.1
  if 0x80000000 ≤ rlen then .error mcDrvErrDaemonSocket
  else
    .ok { totalLen := s.totalLen + rlen
          payload := s.payload ++ got.2.map some ++
            List.replicate (rlen.toNat - got.2.length) none }

/-- The loop over the reads that come; `none` while it waits for the next one. -/
def receiveLoop (len : UInt32) :
    List SocketEvent → Receiving → Option (Except McResult (List (Option UInt8)))
  | [], s => if s.totalLen < len then none else some (.ok s.payload)
  | e :: es, s =>
    if s.totalLen < len then
      match receive len s e with
      | .error code => some (.error code)
      | .ok s => receiveLoop len es s
    else some (.ok s.payload)

/-- How the reads of a connection end: the client closes its end, or every read fails. -/
inductive Ending where
  | closed
  | failed
deriving DecidableEq, Repr

/-- What a read returns after the end. -/
def Ending.event : Ending → SocketEvent
  | .closed => .arrived []
  | .failed => .recvFailed

/-- The loop finishes, with an error or with all of the trustlet. -/
def Finishes (len : UInt32) (events : List SocketEvent) (ending : Ending) : Prop :=
  ∃ n r, receiveLoop len (events ++ List.replicate n ending.event) ⟨0, []⟩ = some r ∧
    ((∃ code, r = .error code) ∨ ∃ payload, r = .ok payload ∧ payload.length = len.toNat)

/-- Before the client closes its end, a read fails or the bytes are there.  A read of 2 GiB or more
counts as a failure when it is cast to `int32_t`. -/
def EndsBeforeClose (len : UInt32) (events : List SocketEvent) (ending : Ending) : Prop :=
  ending = .failed ∨ (∃ e ∈ events, e.failed = true ∨ 0x80000000 ≤ e.size) ∨
    len.toNat ≤ (events.map SocketEvent.size).sum

/-! ## One round -/

theorem ofInt_toNat {n : Nat} (h : n < 0x100000000) : (UInt32.ofInt (n : Int)).toNat = n := by
  show ((n : Int) % 4294967296).toNat % 4294967296 = n
  omega

/-- What a read that does not fail returns. -/
theorem readData_spec (len : UInt32) {e : SocketEvent} (hlen : 0 < len.toNat)
    (he : e.failed = false) : (readData len e).1 = (min len.toNat e.size : Nat) ∧
      (readData len e).2.length ≤ min len.toNat e.size := by
  cases e with
  | selectFailed | noneReady | recvFailed => cases he
  | notSet =>
    show (1 : Int) = (min len.toNat 1 : Nat) ∧ 0 ≤ _
    omega
  | arrived bs =>
    show ((bs.take len.toNat).length : Int) = _ ∧ (bs.take len.toNat).length ≤ _
    rw [List.length_take]
    exact ⟨rfl, Nat.le_refl _⟩

theorem receive_of_failed {len : UInt32} {s : Receiving} {e : SocketEvent}
    (he : e.failed = true) : receive len s e = .error mcDrvErrDaemonSocket := by
  cases e with
  | selectFailed | noneReady | recvFailed => rfl
  | notSet | arrived => cases he

/-- **One round.** A read of 2 GiB or more is an error; another one fills the buffer further. -/
theorem receive_of_not_failed {len : UInt32} {s : Receiving} {e : SocketEvent}
    (hs : s.Valid len) (hlt : s.totalLen < len) (he : e.failed = false) :
    (0x80000000 ≤ min (len.toNat - s.totalLen.toNat) e.size ∧
        receive len s e = .error mcDrvErrDaemonSocket) ∨
      (min (len.toNat - s.totalLen.toNat) e.size < 0x80000000 ∧ ∃ t, receive len s e = .ok t ∧
        t.Valid len ∧
        t.totalLen.toNat = s.totalLen.toNat + min (len.toNat - s.totalLen.toNat) e.size) := by
  have hlt' : s.totalLen.toNat < len.toNat := hlt
  have hsub : (len - s.totalLen).toNat = len.toNat - s.totalLen.toNat :=
    UInt32.toNat_sub_of_le _ _ (UInt32.le_of_lt hlt)
  have hbound := len.toNat_lt
  obtain ⟨hret, hgot⟩ := readData_spec (len - s.totalLen) (by omega) he
  rw [hsub] at hret hgot
  set k := min (len.toNat - s.totalLen.toNat) e.size with hk
  have hrlen : (UInt32.ofInt (readData (len - s.totalLen) e).1).toNat = k := by
    rw [hret]
    exact ofInt_toNat (by omega)
  unfold receive
  dsimp only
  by_cases hbig : 0x80000000 ≤ UInt32.ofInt (readData (len - s.totalLen) e).1
  · rw [if_pos hbig]
    have hbig' : 0x80000000 ≤ (UInt32.ofInt (readData (len - s.totalLen) e).1).toNat := hbig
    exact .inl ⟨by omega, rfl⟩
  · rw [if_neg hbig]
    have hsmall : ¬ 0x80000000 ≤ (UInt32.ofInt (readData (len - s.totalLen) e).1).toNat := hbig
    have htotal : (s.totalLen + UInt32.ofInt (readData (len - s.totalLen) e).1).toNat =
        s.totalLen.toNat + k := by
      rw [UInt32.toNat_add, hrlen]
      omega
    refine .inr ⟨by omega, _, rfl, ⟨?_, ?_⟩, htotal⟩
    · show (s.payload ++ _ ++ _ : List (Option UInt8)).length = _
      rw [htotal, List.length_append, List.length_append, List.length_map, List.length_replicate,
        hs.filled, hrlen]
      omega
    · show (s.totalLen + _).toNat ≤ _
      omega

/-! ## The whole loop -/

theorem start_valid (len : UInt32) : Receiving.Valid len ⟨0, []⟩ where
  filled := rfl
  inside := Nat.zero_le _

/-- A loop that has all bytes ends, whatever comes. -/
theorem receiveLoop_of_full {len : UInt32} {s : Receiving} (hfull : ¬ s.totalLen < len)
    (events : List SocketEvent) : receiveLoop len events s = some (.ok s.payload) := by
  cases events <;> exact if_neg hfull

theorem receiveLoop_cons {len : UInt32} {s t : Receiving} (hlt : s.totalLen < len)
    {e : SocketEvent} (ht : receive len s e = .ok t) (events : List SocketEvent) :
    receiveLoop len (e :: events) s = receiveLoop len events t := by
  rw [receiveLoop, if_pos hlt, ht]

/-- The loop ends with an error or with as many bytes as it was to receive. -/
theorem receiveLoop_result {len : UInt32} {events : List SocketEvent} {s : Receiving}
    (hs : s.Valid len) {r : Except McResult (List (Option UInt8))}
    (h : receiveLoop len events s = some r) :
    (∃ code, r = .error code) ∨ ∃ payload, r = .ok payload ∧ payload.length = len.toNat := by
  induction events generalizing s with
  | nil =>
    unfold receiveLoop at h
    by_cases hlt : s.totalLen < len
    · rw [if_pos hlt] at h
      cases h
    · rw [if_neg hlt] at h
      cases h
      have hge : ¬ s.totalLen.toNat < len.toNat := hlt
      have hinside := hs.inside
      exact .inr ⟨_, rfl, by rw [hs.filled]; omega⟩
  | cons e events ih =>
    by_cases hlt : s.totalLen < len
    · cases he : e.failed with
      | true =>
        rw [receiveLoop, if_pos hlt, receive_of_failed he] at h
        cases h
        exact .inl ⟨_, rfl⟩
      | false =>
        rcases receive_of_not_failed hs hlt he with ⟨-, herr⟩ | ⟨-, t, ht, hvalid, -⟩
        · rw [receiveLoop, if_pos hlt, herr] at h
          cases h
          exact .inl ⟨_, rfl⟩
        · rw [receiveLoop_cons hlt ht] at h
          exact ih hvalid h
    · rw [receiveLoop_of_full hlt] at h
      cases h
      have hge : ¬ s.totalLen.toNat < len.toNat := hlt
      have hinside := hs.inside
      exact .inr ⟨_, rfl, by rw [hs.filled]; omega⟩

/-- After the client has closed its end, the loop gets no further. -/
theorem receiveLoop_closed {len : UInt32} {s : Receiving} (hs : s.Valid len)
    (hlt : s.totalLen < len) (n : Nat) :
    receiveLoop len (List.replicate n (Ending.event .closed)) s = none := by
  induction n generalizing s with
  | zero => exact if_pos hlt
  | succ n ih =>
    have he : (Ending.event .closed).failed = false := rfl
    rcases receive_of_not_failed hs hlt he with ⟨hbig, -⟩ | ⟨-, t, ht, hvalid, htotal⟩
    · have hzero : min (len.toNat - s.totalLen.toNat) (Ending.event .closed).size = 0 :=
        Nat.min_zero _
      omega
    · have hzero : min (len.toNat - s.totalLen.toNat) (Ending.event .closed).size = 0 :=
        Nat.min_zero _
      have hlt' : s.totalLen.toNat < len.toNat := hlt
      rw [List.replicate_succ, receiveLoop_cons hlt ht]
      refine ih hvalid ?_
      show t.totalLen.toNat < len.toNat
      omega

/-- When the loop comes to an end, from any of its states. -/
theorem receiveLoop_ends_iff {len : UInt32} {s : Receiving} (hs : s.Valid len)
    (events : List SocketEvent) (ending : Ending) :
    (∃ n r, receiveLoop len (events ++ List.replicate n ending.event) s = some r) ↔
      ending = .failed ∨ (∃ e ∈ events, e.failed = true ∨ 0x80000000 ≤ e.size) ∨
        len.toNat ≤ s.totalLen.toNat + (events.map SocketEvent.size).sum := by
  induction events generalizing s with
  | nil =>
    simp only [List.nil_append, List.not_mem_nil, false_and, exists_false, false_or, List.map_nil,
      List.sum_nil, Nat.add_zero]
    by_cases hlt : s.totalLen < len
    · have hlt' : s.totalLen.toNat < len.toNat := hlt
      cases ending with
      | closed =>
        constructor
        · rintro ⟨n, r, h⟩
          rw [receiveLoop_closed hs hlt] at h
          cases h
        · rintro (h | h)
          · cases h
          · omega
      | failed =>
        refine iff_of_true ⟨1, .error mcDrvErrDaemonSocket, ?_⟩ (.inl rfl)
        show (if s.totalLen < len then _ else _) = _
        rw [if_pos hlt]
        rfl
    · have hge : ¬ s.totalLen.toNat < len.toNat := hlt
      exact iff_of_true ⟨0, _, receiveLoop_of_full hlt _⟩ (.inr (by omega))
  | cons e events ih =>
    simp only [List.cons_append, List.map_cons, List.sum_cons]
    by_cases hlt : s.totalLen < len
    · have hlt' : s.totalLen.toNat < len.toNat := hlt
      cases he : e.failed with
      | true =>
        refine iff_of_true ⟨0, .error mcDrvErrDaemonSocket, ?_⟩
          (.inr (.inl ⟨e, List.mem_cons_self, .inl he⟩))
        rw [receiveLoop, if_pos hlt, receive_of_failed he]
      | false =>
        rcases receive_of_not_failed hs hlt he with ⟨hbig, herr⟩ | ⟨hsmall, t, ht, hvalid, htotal⟩
        · refine iff_of_true ⟨0, .error mcDrvErrDaemonSocket, ?_⟩
            (.inr (.inl ⟨e, List.mem_cons_self, .inr (by omega)⟩))
          rw [receiveLoop, if_pos hlt, herr]
        · simp only [receiveLoop_cons hlt ht]
          rw [ih hvalid]
          by_cases hsize : 0x80000000 ≤ e.size
          · -- more than was asked for: the buffer is full now
            exact iff_of_true (.inr (.inr (by omega)))
              (.inr (.inl ⟨e, List.mem_cons_self, .inr hsize⟩))
          · have hhead : ¬ (e.failed = true ∨ 0x80000000 ≤ e.size) := by
              rw [he]
              exact fun h => h.elim Bool.false_ne_true hsize
            have hsum : len.toNat ≤ t.totalLen.toNat + (events.map SocketEvent.size).sum ↔
                len.toNat ≤ s.totalLen.toNat + (e.size + (events.map SocketEvent.size).sum) := by
              omega
            have hany : (∃ x ∈ e :: events, x.failed = true ∨ 0x80000000 ≤ x.size) ↔
                ∃ x ∈ events, x.failed = true ∨ 0x80000000 ≤ x.size := by
              simp only [List.mem_cons, exists_eq_or_imp]
              exact or_iff_right hhead
            rw [hsum, hany]
    · have hge : ¬ s.totalLen.toNat < len.toNat := hlt
      exact iff_of_true ⟨0, _, receiveLoop_of_full hlt _⟩ (.inr (.inr (by omega)))

/-- **Receiving a trustlet ends.** For every length and every sequence of reads that ends with the
client closing its end or with an error, the loop finishes, with all bytes or with an error,
exactly when the bytes or a failure come before the client closes its end. -/
theorem finishes_iff_endsBeforeClose (len : UInt32) (events : List SocketEvent)
    (ending : Ending) : Finishes len events ending ↔ EndsBeforeClose len events ending := by
  have hends := receiveLoop_ends_iff (start_valid len) events ending
  have hzero : (0 : UInt32).toNat = 0 := rfl
  rw [hzero, Nat.zero_add] at hends
  rw [EndsBeforeClose, ← hends]
  constructor
  · rintro ⟨n, r, h, -⟩
    exact ⟨n, r, h⟩
  · rintro ⟨n, r, h⟩
    exact ⟨n, r, h, receiveLoop_result (start_valid len) h⟩

/-- A client announces four bytes, sends one and closes its end: however many reads follow, the
loop waits for more. -/
theorem finishes_not_closedEarly :
    (∀ n, receiveLoop 4 ([.arrived [7]] ++ List.replicate n (Ending.event .closed)) ⟨0, []⟩ =
      none) ∧ ¬ Finishes 4 [.arrived [7]] .closed := by
  have hwaits : ∀ n, receiveLoop 4
      ([.arrived [7]] ++ List.replicate n (Ending.event .closed)) ⟨0, []⟩ = none := by
    intro n
    exact receiveLoop_closed (s := ⟨1, [some 7]⟩) ⟨rfl, by decide⟩ (by decide) n
  refine ⟨hwaits, ?_⟩
  rintro ⟨n, r, h, -⟩
  rw [hwaits n] at h
  cases h

/-! ## On a stream -/

/-- The bytes that arrive go to the buffer, as many as it has room for. -/
theorem receive_arrived {len : UInt32} {s t : Receiving} {bs : List UInt8} (hs : s.Valid len)
    (ht : receive len s (.arrived bs) = .ok t) :
    t.payload = s.payload ++ (bs.take (len.toNat - s.totalLen.toNat)).map some := by
  have hsub : (len - s.totalLen).toNat = len.toNat - s.totalLen.toNat :=
    UInt32.toNat_sub_of_le _ _ hs.inside
  have hbound := len.toNat_lt
  have hrlen : (UInt32.ofInt (readData (len - s.totalLen) (.arrived bs)).1).toNat =
      (bs.take (len - s.totalLen).toNat).length := by
    refine ofInt_toNat ?_
    rw [List.length_take]
    omega
  unfold receive at ht
  dsimp only at ht
  split at ht
  · cases ht
  · cases ht
    -- nothing of the buffer is skipped
    have hskipped : (UInt32.ofInt (readData (len - s.totalLen) (.arrived bs)).1).toNat -
        (readData (len - s.totalLen) (.arrived bs)).2.length = 0 := by
      rw [hrlen]
      exact Nat.sub_self _
    show s.payload ++ _ ++ List.replicate _ none = _
    rw [hskipped, List.replicate_zero, List.append_nil, ← hsub]
    rfl

/-- The loop on the pieces of a stream. -/
theorem receiveLoop_arrived {len : UInt32} {s : Receiving} (hs : s.Valid len)
    (pieces : List (List UInt8)) (hsmall : ∀ bs ∈ pieces, bs.length < 0x80000000)
    (hall : len.toNat ≤ s.totalLen.toNat + pieces.flatten.length) :
    receiveLoop len (pieces.map .arrived) s = some (.ok (s.payload ++
      (pieces.flatten.take (len.toNat - s.totalLen.toNat)).map some)) := by
  have hinside := hs.inside
  induction pieces generalizing s with
  | nil =>
    have hfull : ¬ s.totalLen < len := by
      show ¬ s.totalLen.toNat < len.toNat
      rw [List.flatten_nil, List.length_nil] at hall
      omega
    rw [receiveLoop_of_full hfull, List.flatten_nil, List.take_nil, List.map_nil, List.append_nil]
  | cons bs pieces ih =>
    rw [List.flatten_cons, List.length_append] at hall
    by_cases hlt : s.totalLen < len
    · have hbs := hsmall bs List.mem_cons_self
      rcases receive_of_not_failed hs hlt (e := .arrived bs) rfl with
        ⟨hbig, -⟩ | ⟨-, t, ht, hvalid, htotal⟩
      · have hle : min (len.toNat - s.totalLen.toNat) (SocketEvent.arrived bs).size ≤ bs.length :=
          Nat.min_le_right _ _
        omega
      · have htotal : t.totalLen.toNat =
            s.totalLen.toNat + min (len.toNat - s.totalLen.toNat) bs.length := htotal
        rw [List.map_cons, receiveLoop_cons hlt ht, List.flatten_cons]
        rw [ih hvalid (fun x hx => hsmall x (List.mem_cons_of_mem _ hx)) (by omega)
          hvalid.inside, receive_arrived hs ht, List.append_assoc, ← List.map_append,
          List.take_append]
        have hleft : len.toNat - t.totalLen.toNat =
            len.toNat - s.totalLen.toNat - bs.length := by omega
        rw [hleft]
    · have hge : ¬ s.totalLen.toNat < len.toNat := hlt
      have hzero : len.toNat - s.totalLen.toNat = 0 := by omega
      rw [receiveLoop_of_full hlt, hzero, List.take_zero, List.map_nil, List.append_nil]

/-- On a stream that has the bytes, the loop gets what `getData` gets, however the stream arrives. -/
theorem receiveLoop_eq_getData {len : UInt32} {got rest : List UInt8}
    (pieces : List (List UInt8)) (hsmall : ∀ bs ∈ pieces, bs.length < 0x80000000)
    (hgot : getData len.toNat pieces.flatten = (some got, rest)) :
    receiveLoop len (pieces.map .arrived) ⟨0, []⟩ = some (.ok (got.map some)) := by
  unfold getData Framing.readData at hgot
  dsimp only at hgot
  split at hgot
  · rename_i hlen
    cases hgot
    rw [List.length_take] at hlen
    exact receiveLoop_arrived (start_valid len) pieces hsmall (by
      show len.toNat ≤ 0 + pieces.flatten.length
      omega)
  · cases hgot

/-- On a stream that ends too early, `getData` fails and the loop does not end. -/
theorem not_finishes_of_getData {len : UInt32} {rest : List UInt8}
    (pieces : List (List UInt8)) (hsmall : ∀ bs ∈ pieces, bs.length < 0x80000000)
    (hnone : getData len.toNat pieces.flatten = (none, rest)) :
    ¬ ∃ n r, receiveLoop len (pieces.map .arrived ++ List.replicate n (Ending.event .closed))
      ⟨0, []⟩ = some r := by
  have hshort : pieces.flatten.length < len.toNat := by
    unfold getData Framing.readData at hnone
    dsimp only at hnone
    split at hnone
    · cases hnone
    · rename_i hlen
      rw [List.length_take] at hlen
      omega
  have hsum : ((pieces.map SocketEvent.arrived).map SocketEvent.size).sum =
      pieces.flatten.length := by
    rw [List.map_map, List.length_flatten]
    rfl
  rw [receiveLoop_ends_iff (start_valid len), hsum]
  rintro (h | ⟨e, he, h⟩ | h)
  · cases h
  · obtain ⟨bs, hbs, rfl⟩ := List.mem_map.mp he
    have hbound := hsmall bs hbs
    rcases h with h | h
    · cases h
    · exact absurd h (Nat.not_le_of_lt hbound)
  · have hzero : (0 : UInt32).toNat = 0 := rfl
    rw [hzero] at h
    omega

end McDaemon.Daemon.TrustletReceive
