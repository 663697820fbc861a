/-
# McDaemon.Lib.Varint — streams of base-128 varints.

A number is written in groups of seven bits, the low ones first, and every byte but the last has its
high bit set.  The streams here do what is documented of the runtime that the tables of
`WireFormat` have as a parameter; groups are not read.
-/
import Mathlib.Tactic.Ring
import McDaemon.Lib.WireFields

namespace McDaemon.Lib.Varint

/-! ## Numbers -/

/-- The groups of a number, with at most `k` bytes before the last one. -/
def write : Nat → Nat → List UInt8
  | 0, n => [UInt8.ofNat n]
  | k + 1, n =>
    if n < 128 then [UInt8.ofNat n] else UInt8.ofNat (n % 128 + 128) :: write k (n / 128)

/-- A number of at most `k` bytes. -/
def read : Nat → List UInt8 → Option (Nat × List UInt8)
  | 0, _ => none
  | _ + 1, [] => none
  | k + 1, b :: rest =>
    if b.toNat < 128 then some (b.toNat, rest)
    else (read k rest).map fun (n, rest) => (b.toNat - 128 + 128 * n, rest)

theorem toNat_ofNat {n : Nat} (h : n < 256) : (UInt8.ofNat n).toNat = n := by
  rw [UInt8.toNat_ofNat']
  omega

theorem read_write {k n : Nat} (h : n < 128 ^ (k + 1)) (rest : List UInt8) :
    read (k + 1) (write k n ++ rest) = some (n, rest) := by
  induction k generalizing n with
  | zero =>
    have hn : (UInt8.ofNat n).toNat = n := toNat_ofNat (by omega)
    rw [write, List.singleton_append, read, hn, if_pos (by omega)]
  | succ k ih =>
    rw [write]
    split
    · next hn =>
      have hb : (UInt8.ofNat n).toNat = n := toNat_ofNat (by omega)
      rw [List.singleton_append, read, hb, if_pos hn]
    · next hn =>
      have hb : (UInt8.ofNat (n % 128 + 128)).toNat = n % 128 + 128 := toNat_ofNat (by omega)
      have hdiv : n / 128 < 128 ^ (k + 1) := by
        rw [Nat.div_lt_iff_lt_mul (by decide), ← Nat.pow_succ]
        exact h
      rw [List.cons_append, read, hb, if_neg (by omega), ih hdiv, Option.map_some]
      simp only [Option.some.injEq, Prod.mk.injEq, and_true]
      omega

theorem read_length {k : Nat} {bs rest : List UInt8} {n : Nat} (h : read k bs = some (n, rest)) :
    rest.length < bs.length := by
  induction k generalizing bs rest n with
  | zero => cases h
  | succ k ih =>
    cases bs with
    | nil => cases h
    | cons b bs =>
      rw [read] at h
      split_ifs at h
      · cases h
        exact Nat.lt_succ_self _
      · cases hread : read k bs with
        | none =>
          rw [hread] at h
          cases h
        | some found =>
          obtain ⟨n', rest'⟩ := found
          rw [hread] at h
          cases h
          exact Nat.lt_succ_of_lt (ih hread)

theorem write_length_one {k n : Nat} (h : n < 128) : (write k n).length = 1 := by
  cases k with
  | zero => rfl
  | succ k => rw [write, if_pos h, List.length_singleton]

/-- A varint has at most ten bytes. -/
def varint (n : Nat) : List UInt8 := write 9 n

def readVarint (bs : List UInt8) : Option (Nat × List UInt8) := read 10 bs

theorem readVarint_varint {n : Nat} (h : n < 2 ^ 64) (rest : List UInt8) :
    readVarint (varint n ++ rest) = some (n, rest) :=
  read_write (Nat.lt_of_lt_of_le h (by decide)) rest

/-! ## Codecs -/

section

variable {α : Type} (toNat : α → Nat) (ofNat : Nat → α)

/-- Values that are written as numbers. -/
def codec : Codec α where
  write a := varint (toNat a)
  size a := (varint (toNat a)).length
  read bs := (readVarint bs).map fun (n, rest) => (ofNat n, rest)

theorem codec_lawful (hlt : ∀ a, toNat a < 2 ^ 64) (hof : ∀ a, ofNat (toNat a) = a) :
    (codec toNat ofNat).Lawful where
  read_write a rest _ := by
    simp only [codec, readVarint_varint (hlt a), Option.map_some, hof]
  size_eq a := rfl
  read_length bs a rest h := by
    simp only [codec, Option.map_eq_some_iff, Prod.exists, Prod.mk.injEq] at h
    obtain ⟨n, rest', hread, -, rfl⟩ := h
    exact Nat.le_of_lt (read_length hread)

end

def bool : Codec Bool := codec Bool.toNat (· ≠ 0)

def uint32 : Codec UInt32 := codec UInt32.toNat UInt32.ofNat

def uint64 : Codec UInt64 := codec UInt64.toNat UInt64.ofNat

/-- A signed number with its sign in the lowest bit. -/
def zigZag (n : Int32) : Nat := if 0 ≤ n.toInt then 2 * n.toInt.toNat else 2 * (-n.toInt).toNat - 1

def unZigZag (n : Nat) : Int32 :=
  if n % 2 = 0 then Int32.ofInt (n / 2) else Int32.ofInt (-((n + 1) / 2))

def sint32 : Codec Int32 := codec zigZag unZigZag

/-- An `int`, sign-extended to 64 bits. -/
def extend (n : Int32) : Nat := if 0 ≤ n.toInt then n.toInt.toNat else (2 ^ 64 + n.toInt).toNat

def int32 : Codec Int32 := codec extend fun n => (UInt32.ofNat n).toInt32

theorem bool_lawful : bool.Lawful :=
  codec_lawful _ _ (fun b => by cases b <;> decide) (fun b => by cases b <;> rfl)

theorem uint32_lawful : uint32.Lawful :=
  codec_lawful _ _ (fun a => Nat.lt_trans a.toNat_lt (by decide)) fun a => by simp

theorem uint64_lawful : uint64.Lawful := codec_lawful _ _ (fun a => a.toNat_lt) fun a => by simp

theorem toInt_bounds (n : Int32) : -2 ^ 31 ≤ n.toInt ∧ n.toInt < 2 ^ 31 :=
  ⟨Int32.le_toInt n, Int32.toInt_lt n⟩

theorem unZigZag_zigZag (n : Int32) : unZigZag (zigZag n) = n := by
  have hn : Int32.ofInt n.toInt = n := Int32.ofInt_toInt n
  unfold unZigZag zigZag
  split_ifs with hsign heven heven
  · have : ((2 * n.toInt.toNat : Nat) : Int) / 2 = n.toInt := by omega
    rw [this, hn]
  · omega
  · omega
  · have : -((((2 * (-n.toInt).toNat - 1 : Nat) : Int) + 1) / 2) = n.toInt := by omega
    rw [this, hn]

theorem sint32_lawful : sint32.Lawful := by
  refine codec_lawful _ _ (fun n => ?_) unZigZag_zigZag
  have hn := toInt_bounds n
  unfold zigZag
  split <;> omega

theorem toInt32_extend (n : Int32) : (UInt32.ofNat (extend n)).toInt32 = n := by
  have hn := toInt_bounds n
  rw [← Int32.toInt_inj]
  have hsize : Int32.size = 2 ^ 32 := rfl
  unfold extend
  split <;>
    (rw [UInt32.toInt32_ofNat', Int32.toInt_ofNat', Int.bmod_def, hsize]
     split <;> omega)

theorem int32_lawful : int32.Lawful := by
  refine codec_lawful _ _ (fun n => ?_) toInt32_extend
  have hn := toInt_bounds n
  unfold extend
  split <;> omega

/-! ## Streams -/

/-- Take `n` bytes. -/
def take (n : Nat) (bs : List UInt8) : Option (List UInt8 × List UInt8) :=
  if n ≤ bs.length then some (bs.take n, bs.drop n) else none

def delimited : Codec (List UInt8) where
  write w := varint w.length ++ w
  size w := (varint w.length ++ w).length
  read bs :=
    match readVarint bs with
    | some (n, rest) => take n rest
    | none => none

/-- A tag that does not end is read as no tag. -/
def readTag (bs : List UInt8) : Option (UInt32 × List UInt8) :=
  match bs with
  | [] => none
  | b :: bs =>
    match readVarint (b :: bs) with
    | some (n, rest) => some (UInt32.ofNat n, rest)
    | none => some (0, bs)

def expectTag (tag : UInt32) (bs : List UInt8) : Option (List UInt8) :=
  match readTag bs with
  | some (t, rest) => if t = tag then some rest else none
  | none => none

/-- The payload of an unknown field, by its wire type. -/
def skipPayload (wireType : UInt32) (bs : List UInt8) : Option (List UInt8 × List UInt8) :=
  if wireType = 0 then
    match readVarint bs with
    | some (n, rest) => some (varint (n % 2 ^ 64), rest)
    | none => none
  else if wireType = 1 then take 8 bs
  else if wireType = 2 then
    match readVarint bs with
    | some (n, rest) =>
      if n < 2 ^ 31 then (take n rest).map fun (w, rest) => (varint n ++ w, rest) else none
    | none => none
  else if wireType = 5 then take 4 bs
  else none

def skipField (tag : UInt32) (bs : List UInt8) : Option (List UInt8 × List UInt8) :=
  (skipPayload (tag % 8) bs).map fun (kept, rest) => (varint tag.toNat ++ kept, rest)

/-- The streams. -/
def runtime : WireRuntime where
  writeVarint32 t := varint t.toNat
  readTag := readTag
  expectTag := expectTag
  expectAtEnd := List.isEmpty
  skipField := skipField
  delimited := delimited
  delimitedSize n := (varint n).length + n

theorem take_eq_some {n : Nat} {bs w rest : List UInt8} (h : take n bs = some (w, rest)) :
    bs = w ++ rest ∧ w.length = n := by
  rw [take] at h
  split_ifs at h with hn
  cases h
  exact ⟨(List.take_append_drop n bs).symm, List.length_take_of_le hn⟩

theorem take_append (w rest : List UInt8) : take w.length (w ++ rest) = some (w, rest) := by
  rw [take, if_pos (by rw [List.length_append]; omega), List.take_left, List.drop_left]

theorem delimited_lawful : delimited.Lawful where
  read_write w rest h := by
    simp only [delimited, List.length_append] at h ⊢
    have hshort : w.length < 2 ^ 64 := Nat.lt_of_le_of_lt (Nat.le_add_left _ _)
      (Nat.lt_trans h (by decide))
    rw [List.append_assoc, readVarint_varint hshort]
    exact take_append w rest
  size_eq _ := rfl
  read_length bs w rest h := by
    simp only [delimited] at h
    split at h
    · next n behind hread =>
      have hlen := read_length hread
      obtain ⟨rfl, -⟩ := take_eq_some h
      rw [List.length_append] at hlen
      omega
    · cases h

theorem readTag_of_varint {bs : List UInt8} {n : Nat} {rest : List UInt8}
    (h : readVarint bs = some (n, rest)) : readTag bs = some (UInt32.ofNat n, rest) := by
  cases bs with
  | nil => cases h
  | cons b bs => simp only [readTag, h]

theorem readTag_write (t : UInt32) (rest : List UInt8) :
    readTag (varint t.toNat ++ rest) = some (t, rest) := by
  have ht := readTag_of_varint (readVarint_varint (Nat.lt_trans t.toNat_lt (by decide)) rest)
  rwa [UInt32.ofNat_toNat] at ht

theorem readTag_length {bs rest : List UInt8} {t : UInt32} (h : readTag bs = some (t, rest)) :
    rest.length < bs.length := by
  cases bs with
  | nil => cases h
  | cons b bs =>
    simp only [readTag] at h
    split at h
    · next hread =>
      cases h
      exact read_length hread
    · cases h
      exact Nat.lt_succ_self _

/-- The payload of an unknown field is kept in a form that is the payload again. -/
theorem skipPayload_kept {wireType : UInt32} {bs kept rest : List UInt8}
    (h : skipPayload wireType bs = some (kept, rest)) :
    rest.length ≤ bs.length ∧ ∀ more, skipPayload wireType (kept ++ more) = some (kept, more) := by
  have htake : ∀ {n : Nat} {w : List UInt8}, take n bs = some (w, rest) →
      rest.length ≤ bs.length ∧ ∀ more, take n (w ++ more) = some (w, more) := by
    intro n w ht
    obtain ⟨rfl, rfl⟩ := take_eq_some ht
    exact ⟨by rw [List.length_append]; omega, take_append w⟩
  unfold skipPayload at h ⊢
  split_ifs at h ⊢ with h0 h1 h2 h5
  · split at h
    · next n behind hread =>
      cases h
      have hlt : n % 2 ^ 64 < 2 ^ 64 := Nat.mod_lt _ (by decide)
      refine ⟨Nat.le_of_lt (read_length hread), fun more => ?_⟩
      simp only [readVarint_varint hlt, Nat.mod_eq_of_lt hlt]
    · cases h
  · exact htake h
  · split at h
    · next n behind hread =>
      have hlen := read_length hread
      split_ifs at h with hn
      rw [Option.map_eq_some_iff] at h
      obtain ⟨⟨w, rest'⟩, ht, hkept⟩ := h
      cases hkept
      obtain ⟨rfl, rfl⟩ := take_eq_some ht
      rw [List.length_append] at hlen
      refine ⟨by omega, fun more => ?_⟩
      rw [List.append_assoc, readVarint_varint (Nat.lt_trans hn (by decide))]
      simp only [if_pos hn, take_append, Option.map_some]
    · cases h
  · exact htake h

theorem runtime_documented : runtime.Documented where
  readTag_nil := rfl
  readTag_writeVarint32 t rest _ := readTag_write t rest
  writeVarint32_length t h := write_length_one (k := 9) (UInt32.lt_iff_toNat_lt.mp h)
  readTag_length _ _ _ h := readTag_length h
  expectTag_eq t bs rest h := by
    simp only [runtime, expectTag] at h ⊢
    split at h
    · next hread =>
      split_ifs at h with ht
      cases h
      rw [hread, ht]
    · cases h
  expectAtEnd_eq bs h := by
    have hnil : bs = [] := List.isEmpty_iff.mp h
    rw [hnil]
    rfl
  delimited_lawful := delimited_lawful
  delimited_length w := by
    simp only [runtime, delimited, List.length_append]
    omega
  delimitedSize_eq w := by
    simp only [runtime, delimited, List.length_append]
  skipField_length t bs kept rest h := by
    simp only [runtime, skipField, Option.map_eq_some_iff, Prod.exists] at h
    obtain ⟨w, rest', hskip, hkept⟩ := h
    cases hkept
    exact (skipPayload_kept hskip).1
  skipField_kept t bs kept rest h := by
    simp only [runtime, skipField, Option.map_eq_some_iff, Prod.exists] at h
    obtain ⟨w, rest', hskip, hkept⟩ := h
    cases hkept
    refine ⟨w, fun more => ⟨?_, ?_⟩⟩
    · rw [List.append_assoc]
      exact readTag_write t _
    · simp only [runtime, skipField, (skipPayload_kept hskip).2, Option.map_some]

/-- The varint of an `int` in 32 bits. -/
theorem int32_read_varint32 (value : Int32) (rest : List UInt8) :
    int32.read (runtime.writeVarint32 value.toUInt32 ++ rest) = some (value, rest) := by
  have hlt : value.toUInt32.toNat < 2 ^ 64 := Nat.lt_trans (UInt32.toNat_lt _) (by decide)
  simp only [int32, codec, runtime, readVarint_varint hlt, Option.map_some]
  simp

end McDaemon.Lib.Varint
