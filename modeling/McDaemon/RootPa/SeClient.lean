/-
# McDaemon.RootPa.SeClient — the callback that an upload is read through.

libcurl asks for the response piece by piece, with buffers of its own sizes.  A piece is as long as
the buffer or as the whole response, not as what is left of the response; so the last piece fits
only if the buffers before it leave room for exactly that.
-/
import Mathlib.Data.UInt
import McDaemon.Lib.CStrings

namespace McDaemon.RootPa.SeClient

open McDaemon.Lib.CStrings

/-! ## The callback -/

/-- A response in memory: a string whose length is a `size_t`. -/
structure Response extends CString where
  fits : bytes.length < 2 ^ 64

/-- The size of a buffer that libcurl passes, which is never 0. -/
abbrev BufferSize := { b : Nat // 0 < b ∧ b < 2 ^ 64 }

structure ResponseStruct where
  responseP : List UInt8
  size : Nat
  offset : UInt32
deriving DecidableEq, Repr

/-- What `httpCommunicate` starts with. -/
def responseChunk (r : Response) : ResponseStruct := ⟨r.bytes, r.bytes.length, 0⟩

/-- `readResponseCallback`: the bytes that go to the buffer; their number is returned. -/
def readResponseCallback (rsp : ResponseStruct) (totalSize : Nat) :
    Except OutOfBounds (List UInt8 × ResponseStruct) :=
  if rsp.offset.toNat ≥ rsp.size then .ok ([], rsp)
  else do
    let readSize := if totalSize < rsp.size then totalSize else rsp.size
    let bytes ← load rsp.responseP rsp.offset.toNat readSize
    .ok (bytes, { rsp with offset := UInt32.ofNat (rsp.offset.toNat + readSize) })

/-- So many calls, with what they have delivered. -/
def upload (rsp : ResponseStruct) (sizes : Nat → BufferSize) :
    Nat → Except OutOfBounds (List UInt8 × ResponseStruct)
  | 0 => .ok ([], rsp)
  | k + 1 => do
    let sent ← upload rsp sizes k
    let next ← readResponseCallback sent.2 (sizes k)
    .ok (sent.1 ++ next.1, next.2)

/-- The calls up to the one that returns 0 stay inside of the response, and deliver these bytes. -/
def Uploads (rsp : ResponseStruct) (sizes : Nat → BufferSize) (sent : List UInt8) : Prop :=
  ∃ k rsp', upload rsp sizes k = .ok (sent, rsp') ∧
    readResponseCallback rsp' (sizes k) = .ok ([], rsp')

/-- All of the response is delivered. -/
def UploadHolds (r : Response) (sizes : Nat → BufferSize) : Prop :=
  Uploads (responseChunk r) sizes r.bytes

/-- What the first buffers hold together. -/
def total (sizes : Nat → BufferSize) : Nat → Nat
  | 0 => 0
  | k + 1 => total sizes k + (sizes k).val

/-! ## Call by call -/

/-- How far the calls get, when all of them are inside. -/
def reached (n : Nat) (sizes : Nat → BufferSize) : Nat → Nat
  | 0 => 0
  | k + 1 => reached n sizes k + min (sizes k).val n

section Calls

variable {rsp : ResponseStruct}

theorem readResponseCallback_end (h : rsp.size ≤ rsp.offset.toNat) (b : Nat) :
    readResponseCallback rsp b = .ok ([], rsp) := if_pos h

theorem readSize_eq (b n : Nat) : (if b < n then b else n) = min b n := by
  rw [Nat.min_def]
  split
  · split
    · rfl
    · omega
  · split
    · omega
    · rfl

variable (h : rsp.offset.toNat < rsp.size) {b : Nat}

include h

theorem readResponseCallback_inside
    (hinside : rsp.offset.toNat + min b rsp.size ≤ rsp.responseP.length) :
    readResponseCallback rsp b =
      .ok ((rsp.responseP.drop rsp.offset.toNat).take (min b rsp.size),
        { rsp with offset := UInt32.ofNat (rsp.offset.toNat + min b rsp.size) }) := by
  rw [readResponseCallback, if_neg (Nat.not_le_of_lt h)]
  dsimp only
  rw [readSize_eq, load, if_pos hinside, ok_bind]

theorem readResponseCallback_outside
    (houtside : rsp.responseP.length < rsp.offset.toNat + min b rsp.size) :
    ∃ e, readResponseCallback rsp b = .error e := by
  rw [readResponseCallback, if_neg (Nat.not_le_of_lt h)]
  dsimp only
  rw [readSize_eq, load, if_neg (Nat.not_le_of_lt houtside), error_bind]
  exact ⟨_, rfl⟩

end Calls

theorem readResponseCallback_frame {rsp : ResponseStruct} {b : Nat}
    {next : List UInt8 × ResponseStruct} (h : readResponseCallback rsp b = .ok next) :
    next.2.responseP = rsp.responseP ∧ next.2.size = rsp.size := by
  by_cases hend : rsp.size ≤ rsp.offset.toNat
  · rw [readResponseCallback_end hend] at h
    obtain rfl := Except.ok.inj h
    exact ⟨rfl, rfl⟩
  · have hmore := Nat.lt_of_not_le hend
    by_cases hinside : rsp.offset.toNat + min b rsp.size ≤ rsp.responseP.length
    · rw [readResponseCallback_inside hmore hinside] at h
      obtain rfl := Except.ok.inj h
      exact ⟨rfl, rfl⟩
    · obtain ⟨e, he⟩ := readResponseCallback_outside hmore (b := b) (Nat.lt_of_not_le hinside)
      rw [he] at h
      cases h

/-- The callback returns 0 at the end only. -/
theorem end_of_readResponseCallback {rsp next : ResponseStruct}
    (hsize : rsp.size = rsp.responseP.length) {b : Nat} (hb : 0 < b)
    (h : readResponseCallback rsp b = .ok ([], next)) : rsp.size ≤ rsp.offset.toNat := by
  by_contra hmore
  have hlt : rsp.offset.toNat < rsp.size := Nat.lt_of_not_le hmore
  by_cases hinside : rsp.offset.toNat + min b rsp.size ≤ rsp.responseP.length
  · rw [readResponseCallback_inside hlt hinside] at h
    have hempty := congrArg List.length (Prod.mk.inj (Except.ok.inj h)).1
    rw [List.length_take, List.length_drop, List.length_nil] at hempty
    omega
  · obtain ⟨e, he⟩ := readResponseCallback_outside hlt (b := b) (Nat.lt_of_not_le hinside)
    rw [he] at h
    cases h

theorem take_drop_append (l : List UInt8) (i j k : Nat) :
    (l.drop i).take j ++ (l.drop (i + j)).take k = (l.drop i).take (j + k) := by
  rw [List.take_add, List.drop_drop]

/-- No call changes the response. -/
theorem upload_frame {rsp : ResponseStruct} {sizes : Nat → BufferSize} {k : Nat}
    {sent : List UInt8 × ResponseStruct} (h : upload rsp sizes k = .ok sent) :
    sent.2.responseP = rsp.responseP ∧ sent.2.size = rsp.size := by
  induction k generalizing sent with
  | zero =>
    obtain rfl := Except.ok.inj h
    exact ⟨rfl, rfl⟩
  | succ k ih =>
    obtain ⟨before, hbefore, hmore⟩ := bind_eq_ok.mp h
    obtain ⟨next, hnext, hlast⟩ := bind_eq_ok.mp hmore
    obtain rfl := Except.ok.inj hlast
    have hkept := readResponseCallback_frame hnext
    exact ⟨hkept.1.trans (ih hbefore).1, hkept.2.trans (ih hbefore).2⟩

/-- What the calls have done when they are at the end of the `j`-th piece. -/
structure Sent (rsp : ResponseStruct) (sizes : Nat → BufferSize) (j : Nat) (sent : List UInt8)
    (rsp' : ResponseStruct) : Prop where
  inside : rsp.offset.toNat + reached rsp.size sizes j ≤ rsp.size
  responseP : rsp'.responseP = rsp.responseP
  size : rsp'.size = rsp.size
  offset : rsp'.offset.toNat = rsp.offset.toNat + reached rsp.size sizes j
  pieces : sent = (rsp.responseP.drop rsp.offset.toNat).take (reached rsp.size sizes j)

section Upload

variable {rsp : ResponseStruct} {sizes : Nat → BufferSize} (hsize : rsp.size = rsp.responseP.length)
  (hn : rsp.size < 2 ^ 32)

include hsize hn

/-- One more piece. -/
theorem Sent.next {j : Nat} {sent : List UInt8} {rsp' : ResponseStruct}
    (h : Sent rsp sizes j sent rsp') (hmore : rsp'.offset.toNat < rsp'.size)
    (hinside : rsp.offset.toNat + reached rsp.size sizes (j + 1) ≤ rsp.size) :
    ∃ next, readResponseCallback rsp' (sizes j) = .ok next ∧
      Sent rsp sizes (j + 1) (sent ++ next.1) next.2 := by
  have hreached : reached rsp.size sizes (j + 1) =
      reached rsp.size sizes j + min (sizes j).val rsp.size := rfl
  have hin : rsp'.offset.toNat + min (sizes j).val rsp'.size ≤ rsp'.responseP.length := by
    rw [h.responseP, h.size, h.offset]
    omega
  refine ⟨_, readResponseCallback_inside hmore hin, hinside, h.responseP, h.size, ?_, ?_⟩
  · rw [UInt32.toNat_ofNat_of_lt' ?_, h.offset, h.size, hreached]
    · omega
    · rw [h.offset, h.size]
      have hbound : (2 : Nat) ^ 32 = UInt32.size := rfl
      omega
  · rw [h.pieces, h.responseP, h.size, h.offset, take_drop_append, hreached]

/-- **The calls.**  From any place on, as long as they work, they deliver one piece behind the
other, until the end. -/
theorem upload_pieces (hstart : rsp.offset.toNat ≤ rsp.size) {k : Nat} {sent : List UInt8}
    {rsp' : ResponseStruct} (h : upload rsp sizes k = .ok (sent, rsp')) :
    ∃ j, Sent rsp sizes j sent rsp' ∧ (j = k ∨ rsp'.size ≤ rsp'.offset.toNat) := by
  induction k generalizing sent rsp' with
  | zero =>
    obtain ⟨rfl, rfl⟩ := Prod.mk.inj (Except.ok.inj h)
    exact ⟨0, ⟨hstart, rfl, rfl, rfl, rfl⟩, .inl rfl⟩
  | succ k ih =>
    obtain ⟨before, hbefore, h⟩ := bind_eq_ok.mp h
    obtain ⟨j, hsent, hj⟩ := ih hbefore
    by_cases hend : before.2.size ≤ before.2.offset.toNat
    · rw [readResponseCallback_end hend, ok_bind] at h
      obtain ⟨rfl, rfl⟩ := Prod.mk.inj (Except.ok.inj h)
      rw [List.append_nil]
      exact ⟨j, hsent, .inr hend⟩
    · have hmore : before.2.offset.toNat < before.2.size := Nat.lt_of_not_le hend
      obtain rfl : j = k := hj.resolve_right hend
      by_cases hinside : rsp.offset.toNat + reached rsp.size sizes (j + 1) ≤ rsp.size
      · obtain ⟨next, hnext, hsent'⟩ := hsent.next hsize hn hmore hinside
        rw [hnext, ok_bind] at h
        obtain ⟨rfl, rfl⟩ := Prod.mk.inj (Except.ok.inj h)
        exact ⟨j + 1, hsent', .inl rfl⟩
      · have hreached : reached rsp.size sizes (j + 1) =
            reached rsp.size sizes j + min (sizes j).val rsp.size := rfl
        have houtside : before.2.responseP.length <
            before.2.offset.toNat + min (sizes j).val before.2.size := by
          rw [hsent.responseP, hsent.size, hsent.offset]
          omega
        obtain ⟨e, he⟩ := readResponseCallback_outside hmore houtside
        rw [he, error_bind] at h
        cases h

/-- All calls work that stay inside. -/
theorem upload_of_inside {k : Nat}
    (hinside : rsp.offset.toNat + reached rsp.size sizes k ≤ rsp.size) :
    ∃ sent, upload rsp sizes k = .ok sent ∧ Sent rsp sizes k sent.1 sent.2 := by
  induction k with
  | zero => exact ⟨([], rsp), rfl, hinside, rfl, rfl, rfl, rfl⟩
  | succ k ih =>
    have hreached : reached rsp.size sizes (k + 1) =
        reached rsp.size sizes k + min (sizes k).val rsp.size := rfl
    obtain ⟨sent, hupload, hsent⟩ := ih (by omega)
    have hpositive := (sizes k).property.1
    by_cases hend : sent.2.size ≤ sent.2.offset.toNat
    · -- only an empty response is at its end and has another piece
      have hempty : min (sizes k).val rsp.size = 0 := by
        have hoffset := hsent.offset
        rw [hsent.size] at hend
        omega
      refine ⟨(sent.1 ++ [], sent.2), ?_, ?_⟩
      · rw [upload, hupload, ok_bind, readResponseCallback_end hend, ok_bind]
      · rw [List.append_nil]
        rw [hempty, Nat.add_zero] at hreached
        exact ⟨hinside, hsent.responseP, hsent.size, hreached ▸ hsent.offset,
          hreached ▸ hsent.pieces⟩
    · obtain ⟨next, hnext, hsent'⟩ := hsent.next hsize hn (Nat.lt_of_not_le hend) hinside
      refine ⟨(sent.1 ++ next.1, next.2), ?_, hsent'⟩
      rw [upload, hupload, ok_bind, hnext, ok_bind]

end Upload

/-- An upload ends, and then it has delivered what was left. -/
theorem Uploads.rest {rsp : ResponseStruct} {sizes : Nat → BufferSize} {sent : List UInt8}
    (h : Uploads rsp sizes sent) (hsize : rsp.size = rsp.responseP.length)
    (hstart : rsp.offset.toNat ≤ rsp.size) :
    rsp.size < 2 ^ 32 ∧ sent = rsp.responseP.drop rsp.offset.toNat ∧
      ∃ j, rsp.offset.toNat + reached rsp.size sizes j = rsp.size := by
  obtain ⟨k, rsp', hupload, hend⟩ := h
  obtain ⟨hresponse, hkept⟩ := upload_frame hupload
  have hat := end_of_readResponseCallback (by rw [hkept, hresponse, hsize])
    (sizes k).property.1 hend
  have hshort : rsp.size < 2 ^ 32 := by
    have hoffset := rsp'.offset.toNat_lt
    rw [hkept] at hat
    omega
  obtain ⟨j, hsent, -⟩ := upload_pieces hsize hshort hstart hupload
  have hinside := hsent.inside
  rw [hsent.size, hsent.offset] at hat
  have hall : rsp.offset.toNat + reached rsp.size sizes j = rsp.size := by omega
  refine ⟨hshort, ?_, j, hall⟩
  rw [hsent.pieces]
  refine List.take_of_length_le ?_
  rw [List.length_drop, ← hsize]
  omega

/-! ## The whole upload -/

theorem reached_of_total {n : Nat} {sizes : Nat → BufferSize} {k : Nat} (h : total sizes k ≤ n) :
    reached n sizes k = total sizes k := by
  induction k with
  | zero => rfl
  | succ k ih =>
    rw [total] at h
    rw [reached, total, ih (by omega), Nat.min_eq_left (by omega)]

theorem le_reached {n : Nat} (hn : 0 < n) (sizes : Nat → BufferSize) (k : Nat) :
    k ≤ reached n sizes k := by
  induction k with
  | zero => exact Nat.zero_le _
  | succ k ih =>
    have hpositive := (sizes k).property.1
    rw [reached]
    omega

/-- Behind a first buffer that is too small, no other can take all. -/
theorem total_of_reached {n : Nat} {sizes : Nat → BufferSize} (hfirst : (sizes 0).val < n) {k : Nat}
    (h : reached n sizes k ≤ n) : reached n sizes k = total sizes k := by
  induction k with
  | zero => rfl
  | succ k ih =>
    have hbefore : k ≤ reached n sizes k := le_reached (by omega) sizes k
    rw [reached] at h
    rw [reached, total, ih (by omega)]
    refine congrArg _ (Nat.min_eq_left ?_)
    rcases Nat.eq_zero_or_pos k with rfl | hpos
    · exact Nat.le_of_lt hfirst
    · omega

/-- The calls end exactly at the end when the first takes all, or so many buffers hold exactly
that. -/
theorem reached_iff {n : Nat} {sizes : Nat → BufferSize} :
    (∃ k, reached n sizes k = n) ↔ n ≤ (sizes 0).val ∨ ∃ k, total sizes k = n := by
  constructor
  · rintro ⟨k, hk⟩
    by_cases hfirst : n ≤ (sizes 0).val
    · exact .inl hfirst
    · have htotal := total_of_reached (Nat.lt_of_not_le hfirst) (Nat.le_of_eq hk)
      exact .inr ⟨k, htotal.symm.trans hk⟩
  · rintro (hfirst | ⟨k, hk⟩)
    · refine ⟨1, ?_⟩
      rw [reached, reached, Nat.zero_add, Nat.min_eq_right hfirst]
    · exact ⟨k, (reached_of_total (Nat.le_of_eq hk)).trans hk⟩

/-- **When an upload is complete and in bounds.**  Exactly when the response has a length that the
offset can count, and the first buffer takes all of it or so many buffers hold exactly that. -/
theorem uploadHolds_iff (r : Response) (sizes : Nat → BufferSize) :
    UploadHolds r sizes ↔ r.bytes.length < 2 ^ 32 ∧
      (r.bytes.length ≤ (sizes 0).val ∨ ∃ k, total sizes k = r.bytes.length) := by
  have hzero : (responseChunk r).offset.toNat = 0 := rfl
  have hlength : (responseChunk r).size = r.bytes.length := rfl
  have hbytes : (responseChunk r).responseP = r.bytes := rfl
  rw [← reached_iff]
  constructor
  · intro h
    obtain ⟨hshort, -, j, hall⟩ := Uploads.rest h rfl (Nat.zero_le _)
    rw [hzero, hlength, Nat.zero_add] at hall
    exact ⟨hshort, j, hall⟩
  · rintro ⟨hshort, k, hk⟩
    have hinside : (responseChunk r).offset.toNat + reached (responseChunk r).size sizes k ≤
        (responseChunk r).size := by
      rw [hzero, hlength, hk, Nat.zero_add]
    have hsize : (responseChunk r).size = (responseChunk r).responseP.length := rfl
    obtain ⟨sent, hupload, hsent⟩ := upload_of_inside hsize hshort hinside
    refine ⟨k, sent.2, ?_, readResponseCallback_end ?_ _⟩
    · rw [hupload]
      refine congrArg _ (Prod.ext ?_ rfl)
      have hpieces := hsent.pieces
      rwa [hzero, hlength, hk, hbytes, List.drop_zero, List.take_length] at hpieces
    · rw [hsent.size, hsent.offset, hlength, hk]
      exact Nat.le_add_left _ _

/-! ## An uneven last piece -/

/-- Three bytes. -/
def shortResponse : Response := ⟨⟨ascii "abc", by decide⟩, by decide⟩

def twoBytes : Nat → BufferSize := fun _ => ⟨2, by decide, by decide⟩

theorem reached_twoBytes (j : Nat) : reached 3 twoBytes j = 2 * j := by
  induction j with
  | zero => rfl
  | succ j ih =>
    rw [reached, ih]
    rfl

/-- Two bytes, and then two from the one that is left. -/
theorem not_uploadHolds_uneven : ¬ UploadHolds shortResponse twoBytes := by
  intro h
  obtain ⟨-, -, j, hall⟩ := Uploads.rest h rfl (Nat.zero_le _)
  have hthree : 0 + reached 3 twoBytes j = 3 := hall
  rw [reached_twoBytes] at hthree
  omega

end McDaemon.RootPa.SeClient
