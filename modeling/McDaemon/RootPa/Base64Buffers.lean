/-
# McDaemon.RootPa.Base64Buffers — the encoding, with its buffers and its index.

The buffers are sized in `size_t`, which has 32 bits wherever the library is built, and filled
through an index that is an `int`.  The decoder takes the characters of the alphabet in groups of
four, into an array that keeps what it has from the group before, and writes one byte less than a
group has characters.
-/
import Mathlib.Data.UInt
import McDaemon.Lib.CStrings
import McDaemon.RootPa.Base64

namespace McDaemon.RootPa.Base64Buffers

open McDaemon.Lib.CStrings

/-! ## Output -/

/-- What C leaves undefined. -/
inductive Undefined
  | outside (access : OutOfBounds)
  | overflow
deriving DecidableEq, Repr

def intMax : Nat := 2 ^ 31 - 1

/-- A `size_t`, of a build for 32 bits. -/
def sizeT (n : Nat) : Nat := n % 2 ^ 32

/-- A buffer that is filled from the front: `outIndex` is the number of bytes that are written. -/
structure Output where
  size : Nat
  written : List UInt8
deriving DecidableEq, Repr

/-- `resultP[outIndex++]=b` -/
def put (o : Output) (b : UInt8) : Except Undefined Output :=
  if o.size ≤ o.written.length then .error (.outside ⟨o.size, o.written.length⟩)
  else if intMax ≤ o.written.length then .error .overflow
  else .ok { o with written := o.written ++ [b] }

def puts (o : Output) : List UInt8 → Except Undefined Output
  | [] => .ok o
  | b :: bs => do
    let o ← put o b
    puts o bs

/-! ## Decoding -/

def encodedSize : Nat := 4
def plainSize : Nat := 3

/-- `cd64` -/
def cd64 : List UInt8 :=
  ascii "|$$$\x7drstuvwxyz\x7b$$$$$$$>?@ABCDEFGHIJKLMNOPQRSTUVW$$$$$$XYZ[\\]^_`abcdefghijklmnopq"

/-- What `v` becomes: one more than what the character stands for, or 0. -/
def value (c : UInt8) : Nat :=
  if c < 43 ∨ 122 < c then 0
  else
    let v := cd64.getD (c.toNat - 43) 0
    if v = 0x24 then 0 else v.toNat - 61

/-- The next character of the alphabet, if there is one. -/
def fetch : List UInt8 → Nat × List UInt8
  | [] => (0, [])
  | c :: s => if value c = 0 then fetch s else (value c, s)

/-- The places of `in` that are left, with what is in it, `len` and the rest of the string. -/
def group (block : List UInt8) (len : Nat) : List Nat → List UInt8 → List UInt8 × Nat × List UInt8
  | [], s => (block, len, s)
  | i :: is, s =>
    if s = [] then (block, len, s)
    else
      let next := fetch s
      if next.1 = 0 then group block len is next.2
      else group (block.set i (UInt8.ofNat (next.1 - 1))) (len + 1) is next.2

/-- `decodeblock`, of the four bytes in `in`. -/
def decodeblock (a b c d : UInt8) : List UInt8 :=
  [a <<< 2 ||| b >>> 4, b <<< 4 ||| c >>> 2, ((c <<< 6) &&& 0xC0) ||| d]

/-- The outer loop; every group takes at least one character. -/
def decodeLoop : Nat → List UInt8 → List UInt8 → Output → Except Undefined Output
  | 0, _, _, o => .ok o
  | n + 1, block, s, o =>
    if s = [] then .ok o
    else do
      let g := group block 0 (List.range encodedSize) s
      let out := decodeblock (g.1.getD 0 0) (g.1.getD 1 0) (g.1.getD 2 0) (g.1.getD 3 0)
      let o ← puts o (out.take (g.2.1 - 1))
      decodeLoop n g.1 g.2.2 o

def decodeSize (inSize : Nat) : Nat :=
  sizeT (inSize * plainSize) / encodedSize + sizeT (inSize * plainSize) % encodedSize

/-- `base64DecodeStringRemoveEndZero`, with memory at hand, and with what is in the last three bytes
of `in` before: the size that is returned, and the bytes. -/
def base64DecodeStringRemoveEndZero (u v w : UInt8) (toBeDecoded : CString) :
    Except Undefined (Nat × List UInt8) := do
  let inSize := toBeDecoded.bytes.length
  let o ← decodeLoop inSize [0, u, v, w] toBeDecoded.bytes ⟨decodeSize inSize, []⟩
  .ok (o.written.length, o.written)

/-! ## Encoding -/

/-- `cb64` -/
def cb64 : List UInt8 :=
  ascii "ABCDEFGHIJKLMNOPQRSTUVWXYZabcdefghijklmnopqrstuvwxyz0123456789+/"

def pad : UInt8 := 0x3D

/-- `encodeblock` -/
def encodeblock (a b c : UInt8) (len : Nat) : List UInt8 :=
  [cb64.getD (a >>> 2).toNat 0,
    cb64.getD (((a &&& 0x03) <<< 4) ||| ((b &&& 0xF0) >>> 4)).toNat 0,
    if 1 < len then cb64.getD (((b &&& 0x0F) <<< 2) ||| ((c &&& 0xC0) >>> 6)).toNat 0 else pad,
    if 2 < len then cb64.getD (c &&& 0x3F).toNat 0 else pad]

/-- The loop; what is missing of the last three bytes is 0. -/
def encodeLoop : List UInt8 → Output → Except Undefined Output
  | [], o => .ok o
  | [a], o => puts o (encodeblock a 0 0 1)
  | [a, b], o => puts o (encodeblock a b 0 2)
  | a :: b :: c :: rest, o => do
    let o ← puts o (encodeblock a b c 3)
    encodeLoop rest o

def encodeSize (length : Nat) : Nat :=
  sizeT ((length / plainSize + (if 0 < length % plainSize then 1 else 0)) * encodedSize + 1)

/-- `base64EncodeAddEndZero`, with memory at hand: the string that is returned. -/
def base64EncodeAddEndZero (toBeEncoded : List UInt8) : Except Undefined (List UInt8) := do
  let outSize := encodeSize toBeEncoded.length
  if outSize = 0 then .error (.outside ⟨0, 0⟩)
  else
    let o ← encodeLoop toBeEncoded ⟨outSize, []⟩
    if o.size ≤ o.written.length then .error (.outside ⟨o.size, o.written.length⟩)
    else .ok o.written

/-! ## What is to hold -/

/-- What is encoded decodes to the same bytes, and their number is returned. -/
def RoundTrips (x : List UInt8) : Prop :=
  ∃ encoded : CString, base64EncodeAddEndZero x = .ok encoded.bytes ∧
    ∀ u v w, base64DecodeStringRemoveEndZero u v w encoded = .ok (x.length, x)

/-- Decoding stays inside of its buffer. -/
def DecodesInside (toBeDecoded : CString) : Prop :=
  ∀ u v w, ∃ result, base64DecodeStringRemoveEndZero u v w toBeDecoded = .ok result

/-! ## Output at once -/

section Output

variable {o : Output} {bs : List UInt8}

theorem puts_append (as : List UInt8) : puts o (as ++ bs) = puts o as >>= fun o => puts o bs := by
  induction as generalizing o with
  | nil => rfl
  | cons a as ih =>
    rw [List.cons_append, puts, puts]
    cases put o a with
    | error e => rfl
    | ok next => exact ih

theorem puts_ok (hsize : o.written.length + bs.length ≤ o.size)
    (hint : o.written.length + bs.length ≤ intMax) :
    puts o bs = .ok { o with written := o.written ++ bs } := by
  induction bs generalizing o with
  | nil => rw [puts, List.append_nil]
  | cons b bs ih =>
    rw [List.length_cons] at hsize hint
    have hput : put o b = .ok { o with written := o.written ++ [b] } := by
      rw [put, if_neg (by omega), if_neg (by omega)]
    have hlength : (o.written ++ [b]).length = o.written.length + 1 := by
      rw [List.length_append, List.length_singleton]
    rw [puts, hput, ok_bind, ih]
    · rw [List.append_assoc, List.singleton_append]
    · rw [hlength]
      dsimp only
      omega
    · rw [hlength]
      omega

theorem puts_error (hne : bs ≠ []) (hover : o.size < o.written.length + bs.length ∨
    intMax < o.written.length + bs.length) : ∃ e, puts o bs = .error e := by
  induction bs generalizing o with
  | nil => exact absurd rfl hne
  | cons b bs ih =>
    rw [List.length_cons] at hover
    by_cases hfull : o.size ≤ o.written.length
    · exact ⟨_, by rw [puts, put, if_pos hfull, error_bind]⟩
    · by_cases hmax : intMax ≤ o.written.length
      · exact ⟨_, by rw [puts, put, if_neg hfull, if_pos hmax, error_bind]⟩
      · have hput : put o b = .ok { o with written := o.written ++ [b] } := by
          rw [put, if_neg hfull, if_neg hmax]
        have hlength : (o.written ++ [b]).length = o.written.length + 1 := by
          rw [List.length_append, List.length_singleton]
        rw [puts, hput, ok_bind]
        refine ih ?_ ?_
        · rintro rfl
          rw [List.length_nil] at hover
          omega
        · rw [hlength]
          dsimp only
          omega

end Output

/-! ## The decoder's loop -/

/-- What a byte stands for. -/
def sextetOf (c : UInt8) : Option Nat := sextet (Char.ofNat c.toNat)

theorem value_eq (c : UInt8) : value c = ((sextetOf c).map (· + 1)).getD 0 := by
  have hall : ∀ n < 256, value (UInt8.ofNat n) =
      ((sextetOf (UInt8.ofNat n)).map (· + 1)).getD 0 := by decide +kernel
  have hc := hall c.toNat c.toNat_lt
  rwa [UInt8.ofNat_toNat] at hc

theorem value_eq_zero {c : UInt8} : value c = 0 ↔ sextetOf c = none := by
  rw [value_eq]
  cases sextetOf c with
  | none => simp
  | some v => simp

theorem sextetOf_lt {c : UInt8} {v : Nat} (h : sextetOf c = some v) : v < 64 := by
  have hall : ∀ n < 256, ∀ v, sextetOf (UInt8.ofNat n) = some v → v < 64 := by
    have hcheck : ∀ n < 256, (sextetOf (UInt8.ofNat n)).getD 0 < 64 := by decide +kernel
    intro n hn v hv
    have hv' := hcheck n hn
    rwa [hv] at hv'
  have hc := hall c.toNat c.toNat_lt v
  rw [UInt8.ofNat_toNat] at hc
  exact hc h

/-- What the characters of the alphabet stand for. -/
def sextets (s : List UInt8) : List Nat := s.filterMap sextetOf

theorem lt_of_mem_sextets {s : List UInt8} {v : Nat} (h : v ∈ sextets s) : v < 64 := by
  obtain ⟨c, -, hc⟩ := List.mem_filterMap.mp h
  exact sextetOf_lt hc

theorem fetch_of_nil {s : List UInt8} (h : sextets s = []) : fetch s = (0, []) := by
  induction s with
  | nil => rfl
  | cons c s ih =>
    unfold sextets at h
    rw [List.filterMap_cons] at h
    cases hc : sextetOf c with
    | none =>
      rw [hc] at h
      rw [fetch, if_pos (value_eq_zero.mpr hc), ih h]
    | some v =>
      rw [hc] at h
      cases h

/-- Characters that do not belong are skipped. -/
theorem fetch_of_cons {s : List UInt8} {v : Nat} {vs : List Nat} (h : sextets s = v :: vs) :
    (fetch s).1 = v + 1 ∧ sextets (fetch s).2 = vs ∧ (fetch s).2.length < s.length := by
  induction s with
  | nil => cases h
  | cons c s ih =>
    unfold sextets at h
    rw [List.filterMap_cons] at h
    cases hc : sextetOf c with
    | none =>
      rw [hc] at h
      rw [fetch, if_pos (value_eq_zero.mpr hc), List.length_cons]
      obtain ⟨hv, hvs, hlength⟩ := ih h
      exact ⟨hv, hvs, Nat.lt_succ_of_lt hlength⟩
    | some w =>
      rw [hc] at h
      obtain ⟨rfl, rfl⟩ := List.cons.inj h
      have hvalue : value c = w + 1 := by rw [value_eq, hc]; rfl
      rw [fetch, if_neg (by omega), hvalue]
      exact ⟨rfl, rfl, Nat.lt_succ_self _⟩

/-- What a group puts into `in`. -/
def fill (block : List UInt8) : List Nat → List Nat → List UInt8
  | i :: is, v :: vs => fill (block.set i (UInt8.ofNat v)) is vs
  | _, _ => block

theorem length_fill (block : List UInt8) (is vs : List Nat) :
    (fill block is vs).length = block.length := by
  fun_induction fill block is vs with
  | case1 block i is v vs ih => rw [ih, List.length_set]
  | case2 => rfl

theorem group_nil (block : List UInt8) (len : Nat) (is : List Nat) :
    group block len is [] = (block, len, []) := by
  cases is with
  | nil => rfl
  | cons i is => rfl

/-- What a group leaves: in `in`, in `len`, and of the string. -/
structure Taken (block : List UInt8) (len : Nat) (is : List Nat) (s : List UInt8)
    (g : List UInt8 × Nat × List UInt8) : Prop where
  block : g.1 = fill block is (sextets s)
  len : g.2.1 = len + min is.length (sextets s).length
  rest : sextets g.2.2 = (sextets s).drop is.length
  shorter : s ≠ [] → is ≠ [] → g.2.2.length < s.length

/-- A group takes as many characters of the alphabet as there are places. -/
theorem group_taken (block : List UInt8) (len : Nat) (is : List Nat) (s : List UInt8) :
    Taken block len is s (group block len is s) := by
  induction is generalizing block len s with
  | nil => exact ⟨by simp [group, fill], by simp [group], rfl, fun _ h => absurd rfl h⟩
  | cons i is ih =>
    by_cases hs : s = []
    · subst hs
      exact ⟨rfl, by simp [group, sextets], rfl, fun h => absurd rfl h⟩
    · have hlength := List.length_pos_iff.mpr hs
      cases hsextets : sextets s with
      | nil =>
        have hgroup : group block len (i :: is) s = (block, len, []) := by
          rw [group, if_neg hs, fetch_of_nil hsextets]
          exact group_nil block len is
        rw [hgroup]
        refine ⟨?_, ?_, ?_, fun _ _ => hlength⟩
        · rw [hsextets, fill]
          exact fun _ _ _ _ _ h => absurd h (List.cons_ne_nil _ _).symm
        · rw [hsextets]
          rfl
        · rw [hsextets, List.drop_nil]
          rfl
      | cons v vs =>
        obtain ⟨hv, hvs, hshorter⟩ := fetch_of_cons hsextets
        have hgroup : group block len (i :: is) s =
            group (block.set i (UInt8.ofNat v)) (len + 1) is (fetch s).2 := by
          rw [group, if_neg hs]
          dsimp only
          rw [hv, if_neg (by omega), Nat.add_sub_cancel]
        have htaken := ih (block.set i (UInt8.ofNat v)) (len + 1) (fetch s).2
        rw [hgroup]
        refine ⟨?_, ?_, ?_, fun _ _ => ?_⟩
        · rw [htaken.block, hvs, hsextets, fill]
        · rw [htaken.len, hvs, hsextets, List.length_cons, List.length_cons]
          omega
        · rw [htaken.rest, hvs, hsextets, List.length_cons, List.drop_succ_cons]
        · by_cases hrest : (fetch s).2 = []
          · rw [hrest, group_nil]
            exact hlength
          · by_cases his : is = []
            · rw [his]
              exact hshorter
            · exact Nat.lt_trans (htaken.shorter hrest his) hshorter

/-! ## Groups of sextets -/

theorem decodeblocks_split (vs : List Nat) :
    decodeblocks vs = decodeblocks (vs.take 4) ++ decodeblocks (vs.drop 4) := by
  match vs with
  | [] => rfl
  | [_] => rfl
  | [_, _] => rfl
  | [_, _, _] => rfl
  | a :: b :: c :: d :: rest => rfl

theorem length_decodeblocks (vs : List Nat) : (decodeblocks vs).length = 3 * vs.length / 4 := by
  fun_induction decodeblocks vs with
  | case1 a b c d rest ih =>
    simp only [List.length_cons, ih]
    omega
  | case2 => simp
  | case3 => simp
  | case4 vs h₁ h₂ h₃ =>
    match vs with
    | [] => simp
    | [_] => simp
    | [_, _] => exact absurd rfl (h₃ _ _)
    | [_, _, _] => exact absurd rfl (h₂ _ _ _)
    | _ :: _ :: _ :: _ :: _ => exact absurd rfl (h₁ _ _ _ _ _)

/-- `decodeblock` on sextets. -/
theorem decodeblock_eq {a b : Nat} (ha : a < 64) (hb : b < 64) :
    UInt8.ofNat a <<< 2 ||| UInt8.ofNat b >>> 4 = UInt8.ofNat (a * 4 + b / 16) ∧
      UInt8.ofNat a <<< 4 ||| UInt8.ofNat b >>> 2 = UInt8.ofNat (a % 16 * 16 + b / 4) ∧
      ((UInt8.ofNat a <<< 6) &&& 0xC0) ||| UInt8.ofNat b = UInt8.ofNat (a % 4 * 64 + b) := by
  have hone : ∀ n < 64, UInt8.ofNat n >>> 4 = UInt8.ofNat (n / 16) ∧
      UInt8.ofNat n >>> 2 = UInt8.ofNat (n / 4) ∧
      UInt8.ofNat n <<< 4 = UInt8.ofNat (n % 16) <<< 4 ∧
      UInt8.ofNat n <<< 6 &&& (0xC0 : UInt8) = UInt8.ofNat (n % 4) <<< 6 := by decide +kernel
  have hsix : ∀ n < 64, ∀ m < 4, UInt8.ofNat n <<< 2 ||| UInt8.ofNat m = UInt8.ofNat (n * 4 + m) :=
    by decide +kernel
  have hfour : ∀ n < 16, ∀ m < 16,
      UInt8.ofNat n <<< 4 ||| UInt8.ofNat m = UInt8.ofNat (n * 16 + m) := by decide +kernel
  have htwo : ∀ n < 4, ∀ m < 64,
      UInt8.ofNat n <<< 6 ||| UInt8.ofNat m = UInt8.ofNat (n * 64 + m) := by decide +kernel
  obtain ⟨-, -, ha16, ha4⟩ := hone a ha
  obtain ⟨hb16, hb4, -, -⟩ := hone b hb
  refine ⟨?_, ?_, ?_⟩
  · rw [hb16]
    exact hsix a ha _ (by omega)
  · rw [ha16, hb4]
    exact hfour _ (by omega) _ (by omega)
  · rw [ha4]
    exact htwo _ (by omega) b hb

/-- One group writes what its sextets decode to, whatever is in the rest of `in`. -/
theorem out_of_group {block : List UInt8} (hblock : block.length = 4) {vs : List Nat}
    (hvs : ∀ v ∈ vs, v < 64) :
    (decodeblock ((fill block (List.range encodedSize) vs).getD 0 0)
      ((fill block (List.range encodedSize) vs).getD 1 0)
      ((fill block (List.range encodedSize) vs).getD 2 0)
      ((fill block (List.range encodedSize) vs).getD 3 0)).take (min 4 vs.length - 1) =
        decodeblocks (vs.take 4) := by
  match block, hblock with
  | [_, _, _, _], _ =>
    match vs with
    | [] => rfl
    | [_] => rfl
    | [a, b] =>
      obtain ⟨hfirst, -, -⟩ := decodeblock_eq (hvs a (by simp)) (hvs b (by simp))
      show [_] = [_]
      rw [← hfirst]
      rfl
    | [a, b, c] =>
      obtain ⟨hfirst, -, -⟩ := decodeblock_eq (hvs a (by simp)) (hvs b (by simp))
      obtain ⟨-, hsecond, -⟩ := decodeblock_eq (hvs b (by simp)) (hvs c (by simp))
      show [_, _] = [_, _]
      rw [← hfirst, ← hsecond]
      rfl
    | a :: b :: c :: d :: rest =>
      obtain ⟨hfirst, -, -⟩ := decodeblock_eq (hvs a (by simp)) (hvs b (by simp))
      obtain ⟨-, hsecond, -⟩ := decodeblock_eq (hvs b (by simp)) (hvs c (by simp))
      obtain ⟨-, -, hthird⟩ := decodeblock_eq (hvs c (by simp)) (hvs d (by simp))
      have hlen : min 4 (a :: b :: c :: d :: rest).length - 1 = 3 := by
        simp only [List.length_cons]
        omega
      rw [hlen]
      show [_, _, _] = [_, _, _]
      rw [← hfirst, ← hsecond, ← hthird]
      rfl

/-- **The loop of the decoder** writes the decoded bytes one behind the other. -/
theorem decodeLoop_eq_puts {n : Nat} {block : List UInt8} (hblock : block.length = 4)
    {s : List UInt8} (hn : s.length ≤ n) (o : Output) :
    decodeLoop n block s o = puts o (decodeblocks (sextets s)) := by
  induction n generalizing block s o with
  | zero =>
    rw [List.length_eq_zero_iff.mp (Nat.le_zero.mp hn)]
    rfl
  | succ n ih =>
    by_cases hs : s = []
    · rw [hs]
      rfl
    · have htaken := group_taken block 0 (List.range encodedSize) s
      have hsextets : ∀ v ∈ sextets s, v < 64 := fun v hv => lt_of_mem_sextets hv
      have hout := out_of_group hblock hsextets
      have hlen : (group block 0 (List.range encodedSize) s).2.1 =
          min 4 (sextets s).length := by
        rw [htaken.len, Nat.zero_add]
        rfl
      have hrest := htaken.shorter hs (by decide)
      have hdrop : (sextets s).drop (List.range encodedSize).length = (sextets s).drop 4 := rfl
      rw [decodeLoop, if_neg hs]
      dsimp only
      rw [htaken.block, hlen, hout, decodeblocks_split (sextets s), puts_append]
      refine congrArg _ (funext fun o => ?_)
      rw [ih (by rw [length_fill, hblock]) (by omega), htaken.rest, hdrop]

/-- The decoder, without its loop. -/
theorem decode_eq (u v w : UInt8) (toBeDecoded : CString) :
    base64DecodeStringRemoveEndZero u v w toBeDecoded =
      puts ⟨decodeSize toBeDecoded.bytes.length, []⟩ (decodeblocks (sextets toBeDecoded.bytes)) >>=
        fun o => .ok (o.written.length, o.written) := by
  rw [base64DecodeStringRemoveEndZero, decodeLoop_eq_puts rfl (Nat.le_refl _)]

/-- No size of the decoder's buffer is more than an `int` counts. -/
theorem decodeSize_le (inSize : Nat) : decodeSize inSize ≤ intMax := by
  have hwrap : sizeT (inSize * plainSize) < 2 ^ 32 := Nat.mod_lt _ (by decide)
  have hmax : intMax = 2147483647 := rfl
  rw [decodeSize, show encodedSize = 4 from rfl]
  omega

theorem decode_ok {toBeDecoded : CString} {out : List UInt8}
    (hout : decodeblocks (sextets toBeDecoded.bytes) = out)
    (hsize : out.length ≤ decodeSize toBeDecoded.bytes.length) (u v w : UInt8) :
    base64DecodeStringRemoveEndZero u v w toBeDecoded = .ok (out.length, out) := by
  have hint := Nat.le_trans hsize (decodeSize_le _)
  have hputs : puts ⟨decodeSize toBeDecoded.bytes.length, []⟩ out =
      .ok ⟨decodeSize toBeDecoded.bytes.length, out⟩ := by
    have h : puts ⟨decodeSize toBeDecoded.bytes.length, []⟩ out =
        .ok ⟨decodeSize toBeDecoded.bytes.length, [] ++ out⟩ := puts_ok
      (by rw [List.length_nil, Nat.zero_add]; exact hsize)
      (by rw [List.length_nil, Nat.zero_add]; exact hint)
    rwa [List.nil_append] at h
  rw [decode_eq, hout, hputs, ok_bind]

/-- The characters of the alphabet in a string. -/
def alphabet (s : List UInt8) : Nat := (s.filter fun c => value c ≠ 0).length

theorem length_sextets (s : List UInt8) : (sextets s).length = alphabet s := by
  unfold sextets alphabet
  induction s with
  | nil => rfl
  | cons c s ih =>
    rw [List.filterMap_cons, List.filter_cons]
    cases hc : sextetOf c with
    | none =>
      rw [if_neg (by simpa using value_eq_zero.mpr hc)]
      exact ih
    | some v =>
      have hvalue : value c ≠ 0 := fun h => by
        rw [value_eq_zero.mp h] at hc
        cases hc
      rw [if_pos (by simpa using hvalue), List.length_cons, List.length_cons, ih]

/-- **When decoding stays inside.**  Exactly when the bytes that the characters of the alphabet make
up fit into the buffer. -/
theorem decodesInside_iff (toBeDecoded : CString) :
    DecodesInside toBeDecoded ↔
      3 * alphabet toBeDecoded.bytes / 4 ≤ decodeSize toBeDecoded.bytes.length := by
  have hlength : (decodeblocks (sextets toBeDecoded.bytes)).length =
      3 * alphabet toBeDecoded.bytes / 4 := by
    rw [length_decodeblocks, length_sextets]
  constructor
  · intro h
    obtain ⟨result, hresult⟩ := h 0 0 0
    by_contra hover
    have hne : decodeblocks (sextets toBeDecoded.bytes) ≠ [] := by
      intro hnil
      rw [hnil, List.length_nil] at hlength
      exact hover (by omega)
    obtain ⟨e, he⟩ := puts_error (o := ⟨decodeSize toBeDecoded.bytes.length, []⟩) hne
      (.inl (by rw [hlength, List.length_nil, Nat.zero_add]; exact Nat.lt_of_not_le hover))
    rw [decode_eq, he, error_bind] at hresult
    cases hresult
  · intro hsize u v w
    exact ⟨_, decode_ok rfl (by rw [hlength]; exact hsize) u v w⟩

/-! ## The encoder's loop -/

/-- A character of the encoding as a byte. -/
def toByte (c : Char) : UInt8 := UInt8.ofNat c.toNat

/-- The encoding in bytes. -/
def encoded (x : List UInt8) : List UInt8 := (encodeblocks x).map toByte

theorem cb64_eq {v : Nat} (hv : v < 64) : cb64.getD v 0 = toByte (RootPa.cb64 v) := by
  have hall : ∀ v < 64, cb64.getD v 0 = toByte (RootPa.cb64 v) := by decide +kernel
  exact hall v hv

/-- The sextets that bytes are cut into. -/
theorem sextets_of_bytes (a b : UInt8) :
    (a >>> 2).toNat = a.toNat / 4 ∧
      (((a &&& 0x03) <<< 4) ||| ((b &&& 0xF0) >>> 4)).toNat = a.toNat % 4 * 16 + b.toNat / 16 ∧
      (((a &&& 0x0F) <<< 2) ||| ((b &&& 0xC0) >>> 6)).toNat = a.toNat % 16 * 4 + b.toNat / 64 ∧
      (a &&& 0x3F).toNat = a.toNat % 64 := by
  have hone : ∀ n < 256, (UInt8.ofNat n >>> 2).toNat = n / 4 ∧
      (UInt8.ofNat n &&& 0x3F).toNat = n % 64 ∧
      UInt8.ofNat n &&& 0x03 = UInt8.ofNat (n % 4) ∧
      UInt8.ofNat n &&& 0x0F = UInt8.ofNat (n % 16) ∧
      (UInt8.ofNat n &&& 0xF0) >>> 4 = UInt8.ofNat (n / 16) ∧
      (UInt8.ofNat n &&& 0xC0) >>> 6 = UInt8.ofNat (n / 64) := by decide +kernel
  have htwo : ∀ m < 4, ∀ n < 16,
      ((UInt8.ofNat m <<< 4) ||| UInt8.ofNat n).toNat = m * 16 + n ∧
        ((UInt8.ofNat n <<< 2) ||| UInt8.ofNat m).toNat = n * 4 + m := by decide +kernel
  have ha := a.toNat_lt
  have hb := b.toNat_lt
  obtain ⟨hhigh, hlow, ha4, ha16, -, -⟩ := hone a.toNat ha
  obtain ⟨-, -, -, -, hb16, hb64⟩ := hone b.toNat hb
  rw [UInt8.ofNat_toNat] at hhigh hlow ha4 ha16 hb16 hb64
  refine ⟨hhigh, ?_, ?_, hlow⟩
  · rw [ha4, hb16]
    exact (htwo _ (by omega) _ (by omega)).1
  · rw [ha16, hb64]
    exact (htwo _ (by omega) _ (by omega)).2

/-- **The loop of the encoder** writes the encoding one behind the other. -/
theorem encodeLoop_eq_puts (x : List UInt8) (o : Output) : encodeLoop x o = puts o (encoded x) := by
  fun_induction encodeLoop x o with
  | case1 o => rfl
  | case2 a o =>
    have ha := a.toNat_lt
    obtain ⟨hfirst, hsecond, -, -⟩ := sextets_of_bytes a 0
    have hzero : (0 : UInt8).toNat / 16 = 0 := rfl
    rw [hzero, Nat.add_zero] at hsecond
    rw [encodeblock, hfirst, hsecond, cb64_eq (by omega), cb64_eq (by omega)]
    rfl
  | case3 a b o =>
    have ha := a.toNat_lt
    have hb := b.toNat_lt
    obtain ⟨hfirst, hsecond, -, -⟩ := sextets_of_bytes a b
    obtain ⟨-, -, hthird, -⟩ := sextets_of_bytes b 0
    have hzero : (0 : UInt8).toNat / 64 = 0 := rfl
    rw [hzero, Nat.add_zero] at hthird
    rw [encodeblock, hfirst, hsecond, hthird, cb64_eq (by omega), cb64_eq (by omega),
      cb64_eq (by omega)]
    rfl
  | case4 a b c rest o ih =>
    have ha := a.toNat_lt
    have hb := b.toNat_lt
    have hc := c.toNat_lt
    obtain ⟨hfirst, hsecond, -, -⟩ := sextets_of_bytes a b
    obtain ⟨-, -, hthird, -⟩ := sextets_of_bytes b c
    obtain ⟨-, -, -, hfourth⟩ := sextets_of_bytes c 0
    have hblock : encodeblock a b c 3 =
        [toByte (RootPa.cb64 (a.toNat / 4)),
          toByte (RootPa.cb64 (a.toNat % 4 * 16 + b.toNat / 16)),
          toByte (RootPa.cb64 (b.toNat % 16 * 4 + c.toNat / 64)),
          toByte (RootPa.cb64 (c.toNat % 64))] := by
      rw [encodeblock, hfirst, hsecond, hthird, hfourth, cb64_eq (by omega), cb64_eq (by omega),
        cb64_eq (by omega), cb64_eq (by omega)]
      rfl
    have hencoded : encoded (a :: b :: c :: rest) = encodeblock a b c 3 ++ encoded rest := by
      rw [hblock]
      rfl
    rw [hencoded, puts_append]
    exact congrArg _ (funext ih)

theorem length_encoded (x : List UInt8) :
    (encoded x).length = (x.length / 3 + (if 0 < x.length % 3 then 1 else 0)) * 4 := by
  rw [encoded, List.length_map]
  fun_induction encodeblocks x with
  | case1 a b c rest ih =>
    simp only [List.length_cons, ih]
    split
    · split
      · omega
      · omega
    · split
      · omega
      · omega
  | case2 => simp
  | case3 => simp
  | case4 => simp

/-- The characters of an encoding are in the lower half of the bytes, and none is zero. -/
theorem toNat_cb64 (v : Nat) : 0 < (RootPa.cb64 v).toNat ∧ (RootPa.cb64 v).toNat < 128 := by
  by_cases hv : v < 63
  · have hall : ∀ v < 63, 0 < (RootPa.cb64 v).toNat ∧ (RootPa.cb64 v).toNat < 128 := by
      decide +kernel
    exact hall v hv
  · have hlast : RootPa.cb64 v = '/' := by
      rw [RootPa.cb64, if_neg (by omega), if_neg (by omega), if_neg (by omega), if_neg (by omega)]
    rw [hlast]
    decide

theorem toNat_of_mem_encodeblocks {x : List UInt8} {c : Char} (h : c ∈ encodeblocks x) :
    0 < c.toNat ∧ c.toNat < 128 := by
  have hpad : 0 < '='.toNat ∧ '='.toNat < 128 := by decide
  fun_induction encodeblocks x with
  | case1 a b d rest ih =>
    simp only [List.mem_cons] at h
    rcases h with rfl | rfl | rfl | rfl | h
    · exact toNat_cb64 _
    · exact toNat_cb64 _
    · exact toNat_cb64 _
    · exact toNat_cb64 _
    · exact ih h
  | case2 a b =>
    simp only [List.mem_cons, List.not_mem_nil, or_false] at h
    rcases h with rfl | rfl | rfl | rfl
    · exact toNat_cb64 _
    · exact toNat_cb64 _
    · exact toNat_cb64 _
    · exact hpad
  | case3 a =>
    simp only [List.mem_cons, List.not_mem_nil, or_false] at h
    rcases h with rfl | rfl | rfl | rfl
    · exact toNat_cb64 _
    · exact toNat_cb64 _
    · exact hpad
    · exact hpad
  | case4 => exact absurd h List.not_mem_nil

theorem nonzero_encoded (x : List UInt8) : 0 ∉ encoded x := by
  intro hzero
  obtain ⟨c, hc, hbyte⟩ := List.mem_map.mp hzero
  have hrange := toNat_of_mem_encodeblocks hc
  have htoNat : (toByte c).toNat = c.toNat := UInt8.toNat_ofNat_of_lt' (by
    have hsize : UInt8.size = 256 := rfl
    omega)
  rw [hbyte] at htoNat
  have hzero : (0 : UInt8).toNat = 0 := rfl
  omega

theorem sextets_encoded (x : List UInt8) : decodeblocks (sextets (encoded x)) = x := by
  have hsame : sextets (encoded x) = (encodeblocks x).filterMap sextet := by
    rw [sextets, encoded, List.filterMap_map]
    refine List.filterMap_congr fun c hc => ?_
    have hrange := toNat_of_mem_encodeblocks hc
    have htoNat : (toByte c).toNat = c.toNat := UInt8.toNat_ofNat_of_lt' (by
      have hsize : UInt8.size = 256 := rfl
      omega)
    show sextet (Char.ofNat (toByte c).toNat) = sextet c
    rw [htoNat, Char.ofNat_toNat]
  rw [hsame, decodeblocks_encodeblocks]

/-! ## There and back -/

theorem encodeSize_eq {x : List UInt8} (h : (encoded x).length ≤ intMax) :
    encodeSize x.length = (encoded x).length + 1 := by
  have hmax : intMax < 2 ^ 32 - 1 := by decide
  rw [encodeSize, show plainSize = 3 from rfl, show encodedSize = 4 from rfl, ← length_encoded,
    sizeT, Nat.mod_eq_of_lt (by omega)]

theorem encode_ok {x : List UInt8} (h : (encoded x).length ≤ intMax) :
    base64EncodeAddEndZero x = .ok (encoded x) := by
  have hsize := encodeSize_eq h
  have hputs : puts ⟨encodeSize x.length, []⟩ (encoded x) =
      .ok ⟨encodeSize x.length, encoded x⟩ := by
    have hok : puts ⟨encodeSize x.length, []⟩ (encoded x) =
        .ok ⟨encodeSize x.length, [] ++ encoded x⟩ := puts_ok
      (by
        rw [List.length_nil, Nat.zero_add]
        exact hsize ▸ Nat.le_succ _)
      (by rw [List.length_nil, Nat.zero_add]; exact h)
    rwa [List.nil_append] at hok
  rw [base64EncodeAddEndZero, if_neg (by omega), encodeLoop_eq_puts, hputs, ok_bind, if_neg]
  dsimp only
  omega

/-- The index overflows on more characters than an `int` counts. -/
theorem encode_error {x : List UInt8} (h : intMax < (encoded x).length) :
    ∃ e, base64EncodeAddEndZero x = .error e := by
  have hne : encoded x ≠ [] := by
    intro hnil
    rw [hnil, List.length_nil] at h
    omega
  obtain ⟨e, he⟩ := puts_error (o := ⟨encodeSize x.length, []⟩) hne
    (.inr (by rw [List.length_nil, Nat.zero_add]; exact h))
  rw [base64EncodeAddEndZero]
  by_cases hzero : encodeSize x.length = 0
  · exact ⟨_, if_pos hzero⟩
  · exact ⟨e, by rw [if_neg hzero, encodeLoop_eq_puts, he, error_bind]⟩

/-- Three times the length of an encoding wraps from 1 GiB of bytes on. -/
theorem length_encoded_iff (x : List UInt8) :
    (encoded x).length * plainSize < 2 ^ 32 ↔ x.length < 2 ^ 30 := by
  have hlength := length_encoded x
  rw [show plainSize = 3 from rfl]
  split at hlength
  · omega
  · omega

/-- With sizes that do not wrap, the buffer of the decoder is long enough. -/
theorem le_decodeSize {s : List UInt8} (h : s.length * plainSize < 2 ^ 32) :
    3 * alphabet s / 4 ≤ decodeSize s.length := by
  have hle : alphabet s ≤ s.length := List.length_filter_le _ _
  rw [decodeSize, sizeT, Nat.mod_eq_of_lt h, show plainSize = 3 from rfl,
    show encodedSize = 4 from rfl]
  omega

/-- A buffer whose size has wrapped is too short for an encoding that an `int` counts. -/
theorem decodeSize_lt {x : List UInt8} (hlong : 2 ^ 30 ≤ x.length)
    (hint : (encoded x).length ≤ intMax) : decodeSize (encoded x).length < x.length := by
  have hlength := length_encoded x
  have hmax : intMax = 2147483647 := rfl
  rw [decodeSize, sizeT, show plainSize = 3 from rfl, show encodedSize = 4 from rfl]
  split at hlength
  · omega
  · omega

/-- **There and back.**  Exactly below 1 GiB of bytes. -/
theorem roundTrips_iff (x : List UInt8) : RoundTrips x ↔ x.length < 2 ^ 30 := by
  have hbytes := length_sextets (encoded x)
  constructor
  · rintro ⟨text, htext, hback⟩
    by_contra hlong
    by_cases hint : (encoded x).length ≤ intMax
    · rw [encode_ok hint] at htext
      have htext := Except.ok.inj htext
      -- the decoder goes beyond its buffer
      have hinside : DecodesInside text := fun u v w => ⟨_, hback u v w⟩
      have hfits := (decodesInside_iff text).mp hinside
      rw [← length_sextets, ← length_decodeblocks, ← htext, sextets_encoded] at hfits
      have hshort := decodeSize_lt (Nat.le_of_not_lt hlong) hint
      omega
    · obtain ⟨e, he⟩ := encode_error (Nat.lt_of_not_le hint)
      rw [he] at htext
      cases htext
  · intro h
    have hwrap := (length_encoded_iff x).mpr h
    have hint : (encoded x).length ≤ intMax := by
      have hmax : intMax = 2147483647 := rfl
      rw [show plainSize = 3 from rfl] at hwrap
      omega
    have hsize : x.length ≤ decodeSize (encoded x).length := by
      have hfits := le_decodeSize hwrap
      rwa [← length_sextets, ← length_decodeblocks, sextets_encoded] at hfits
    refine ⟨⟨encoded x, nonzero_encoded x⟩, encode_ok hint, fun u v w => ?_⟩
    exact decode_ok (sextets_encoded x) hsize u v w

/-- **When the encoding works.**  A round trip gives the bytes back exactly below 1 GiB, and decoding
stays inside exactly when the bytes fit into the buffer. -/
theorem base64Holds_iff (x : List UInt8) (toBeDecoded : CString) :
    (RoundTrips x ↔ x.length < 2 ^ 30) ∧
    (DecodesInside toBeDecoded ↔
      3 * alphabet toBeDecoded.bytes / 4 ≤ decodeSize toBeDecoded.bytes.length) :=
  ⟨roundTrips_iff x, decodesInside_iff toBeDecoded⟩

/-- So many `'A'` that three times their number is 2. -/
def manyAs : CString where
  bytes := List.replicate 1431655766 65
  nonzero := fun h => absurd (List.eq_of_mem_replicate h) (by decide)

theorem alphabet_manyAs : alphabet manyAs.bytes = 1431655766 := by
  have hall : manyAs.bytes.filter (fun c => value c ≠ 0) = manyAs.bytes := by
    refine List.filter_eq_self.mpr fun c hc => ?_
    rw [List.eq_of_mem_replicate hc]
    decide
  rw [alphabet, hall]
  exact List.length_replicate

/-- 1 GiB of zeros, and the string of `'A'`, whose bytes go into a buffer of two. -/
theorem not_roundTrips_long :
    ¬ RoundTrips (List.replicate 1073741824 0) ∧ ¬ DecodesInside manyAs := by
  constructor
  · rw [roundTrips_iff, List.length_replicate]
    decide
  · have hlength : manyAs.bytes.length = 1431655766 := List.length_replicate
    rw [decodesInside_iff, alphabet_manyAs, hlength]
    decide

/-- The decoded bytes are those of the decoder of strings. -/
theorem decodeblocks_sextets (toBeDecoded : List UInt8) :
    decodeblocks (sextets toBeDecoded) =
      RootPa.base64DecodeStringRemoveEndZero
        (String.ofList (toBeDecoded.map fun c => Char.ofNat c.toNat)) := by
  rw [RootPa.base64DecodeStringRemoveEndZero, String.toList_ofList, List.filterMap_map]
  rfl

end McDaemon.RootPa.Base64Buffers
