/-
# McDaemon.Lib.CStrings — strings in arrays of bytes, with every access checked.

An array has the bytes that it is declared with, and a string in it ends at the first zero.  The
functions that copy strings fail at the first byte that they touch outside of an array, on the side
that they read as on the side that they write.

Most arrays are filled from the front and zero from there on.  On these, the functions append.
-/
import Mathlib.Data.List.Basic
import Mathlib.Data.List.TakeWhile
import Mathlib.Tactic.Common

namespace McDaemon.Lib.CStrings

/-- An access to a byte that an array of this size does not have. -/
structure OutOfBounds where
  size : Nat
  index : Nat
deriving DecidableEq, Repr

abbrev CArray := List UInt8

section Except

variable {ε α β : Type}

theorem ok_bind (a : α) (f : α → Except ε β) : (Except.ok a >>= f) = f a := rfl

theorem error_bind (e : ε) (f : α → Except ε β) : (Except.error e >>= f) = .error e := rfl

theorem error_not_ok (e : ε) : ¬ ∃ a : α, Except.error e = .ok a := by
  rintro ⟨a, ha⟩
  cases ha

/-- What a computation in two steps does when it works. -/
theorem bind_eq_ok {x : Except ε α} {f : α → Except ε β} {b : β} :
    (x >>= f) = .ok b ↔ ∃ a, x = .ok a ∧ f a = .ok b := by
  cases x with
  | error e =>
    refine iff_of_false (fun h => error_not_ok e ⟨b, h⟩) ?_
    rintro ⟨a, ha, -⟩
    exact error_not_ok e ⟨a, ha⟩
  | ok a =>
    constructor
    · exact fun h => ⟨a, rfl, h⟩
    · rintro ⟨a', ha, hf⟩
      rwa [Except.ok.inj ha]

end Except

/-! ## Access -/

/-- Write the bytes one behind the other, from index `i` on. -/
def store (a : CArray) (i : Nat) : List UInt8 → Except OutOfBounds CArray
  | [] => .ok a
  | b :: bs => if i < a.length then store (a.set i b) (i + 1) bs else .error ⟨a.length, i⟩

/-- `memcpy` of `n` bytes out of an array, from index `i` on. -/
def load (a : CArray) (i n : Nat) : Except OutOfBounds (List UInt8) :=
  if i + n ≤ a.length then .ok ((a.drop i).take n) else .error ⟨a.length, max i a.length⟩

/-- The bytes in front of the first zero. -/
def cstring (a : CArray) : List UInt8 := a.takeWhile (· ≠ 0)

/-- `strlen`, which reads through the zero. -/
def strlen (a : CArray) : Except OutOfBounds Nat :=
  if 0 ∈ a then .ok (cstring a).length else .error ⟨a.length, a.length⟩

/-- The string in `src`, or the first `n` bytes of it. -/
def readString (src : CArray) (n : Nat) : Except OutOfBounds (List UInt8) :=
  if 0 ∈ src ∨ n ≤ src.length then .ok (cstring (src.take n))
  else .error ⟨src.length, src.length⟩

/-- `strncpy` to the place `i` of `dst`: `n` bytes, zeros behind a shorter string. -/
def strncpy (dst : CArray) (i : Nat) (src : CArray) (n : Nat) : Except OutOfBounds CArray := do
  let s ← readString src n
  store dst i (s ++ List.replicate (n - s.length) 0)

/-- `strncat`: at most `n` bytes, and a zero. -/
def strncat (dst src : CArray) (n : Nat) : Except OutOfBounds CArray := do
  let i ← strlen dst
  let s ← readString src n
  store dst i (s ++ [0])

/-- `snprintf` to the place `i` of `dst`: at most `n` bytes, the zero among them. -/
def snprintf (dst : CArray) (i n : Nat) (text : List UInt8) : Except OutOfBounds CArray :=
  if n = 0 then .ok dst else store dst i (text.take (n - 1) ++ [0])

/-- A string: no byte of it is zero. -/
structure CString where
  bytes : List UInt8
  nonzero : 0 ∉ bytes
deriving DecidableEq

theorem nonzero_cstring (a : CArray) : 0 ∉ cstring a := by
  intro hzero
  simpa using List.mem_takeWhile_imp hzero

/-- What is read of an array as a string. -/
def CString.of (a : CArray) : CString := ⟨cstring a, nonzero_cstring a⟩

/-- A string of the source's text. -/
def ascii (s : String) : List UInt8 := s.toList.map fun c => UInt8.ofNat c.toNat

/-- An array of `n` bytes with `s` at its front, and zeros behind that. -/
def padded (s : List UInt8) (n : Nat) : CArray := s ++ List.replicate (n - s.length) 0

/-- A literal, with its zero. -/
def literal (s : List UInt8) : CArray := padded s (s.length + 1)

/-- An array that `memset` has cleared. -/
def cleared (n : Nat) : CArray := padded [] n

theorem nonzero_append {s t : List UInt8} (hs : 0 ∉ s) (ht : 0 ∉ t) : 0 ∉ s ++ t := by
  rw [List.mem_append]
  exact fun h => h.elim hs ht

/-! ## Writing -/

section Store

variable (pre : List UInt8) {old post bs : List UInt8}

theorem set_middle (o b : UInt8) (post : List UInt8) :
    (pre ++ o :: post).set pre.length b = pre ++ b :: post := by
  rw [List.set_append_right _ _ (Nat.le_refl _), Nat.sub_self, List.set_cons_zero]

/-- Writing on is writing at once. -/
theorem store_append (a : CArray) (i : Nat) (bs cs : List UInt8) :
    store a i (bs ++ cs) = store a i bs >>= fun a => store a (i + bs.length) cs := by
  induction bs generalizing a i with
  | nil => rfl
  | cons b bs ih =>
    rw [List.cons_append, store, store]
    by_cases hlt : i < a.length
    · rw [if_pos hlt, if_pos hlt, ih, List.length_cons, Nat.add_assoc, Nat.add_comm 1]
    · rw [if_neg hlt, if_neg hlt, error_bind]

/-- As many bytes take the place of others. -/
theorem store_middle (h : bs.length = old.length) (post : List UInt8) :
    store (pre ++ (old ++ post)) pre.length bs = .ok (pre ++ (bs ++ post)) := by
  induction bs generalizing pre old with
  | nil =>
    obtain rfl := List.length_eq_zero_iff.mp h.symm
    rfl
  | cons b bs ih =>
    obtain ⟨o, old, rfl⟩ := List.exists_of_length_succ old h.symm
    have hlt : pre.length < (pre ++ (o :: old ++ post)).length := by
      rw [List.length_append, List.cons_append, List.length_cons]
      omega
    have hnext := ih (pre ++ [b]) (Nat.succ.inj h)
    rw [List.length_append, List.length_singleton, List.append_assoc, List.append_assoc] at hnext
    rw [store, if_pos hlt, List.cons_append, set_middle]
    exact hnext

/-- More bytes than are left go over the end. -/
theorem store_over (h : post.length < bs.length) :
    store (pre ++ post) pre.length bs =
      .error ⟨pre.length + post.length, pre.length + post.length⟩ := by
  induction bs generalizing pre post with
  | nil => exact absurd h (Nat.not_lt_zero _)
  | cons b bs ih =>
    cases post with
    | nil =>
      have hend : ¬ pre.length < (pre ++ ([] : List UInt8)).length := by simp
      rw [store, if_neg hend, List.append_nil]
      rfl
    | cons o post =>
      have hlt : pre.length < (pre ++ o :: post).length := by
        rw [List.length_append, List.length_cons]
        omega
      have hnext := ih (pre ++ [b]) (Nat.lt_of_succ_lt_succ h)
      have hsize : (pre ++ [b]).length + post.length = pre.length + (o :: post).length := by
        rw [List.length_append, List.length_singleton, List.length_cons]
        omega
      rw [hsize, List.length_append, List.length_singleton, List.append_assoc] at hnext
      rw [store, if_pos hlt, set_middle]
      exact hnext

end Store

/-! ## Arrays filled from the front -/

section Padded

variable {s t : List UInt8} {n m k : Nat}

theorem length_padded (h : s.length ≤ n) : (padded s n).length = n := by
  rw [padded, List.length_append, List.length_replicate]
  omega

/-- Zeros behind the string do not show. -/
theorem padded_zeros (h : s.length + k ≤ n) : padded (s ++ List.replicate k 0) n = padded s n := by
  rw [padded, padded, List.append_assoc, List.replicate_append_replicate, List.length_append,
    List.length_replicate]
  congr 2
  omega

theorem store_padded (h : s.length + t.length ≤ n) :
    store (padded s n) s.length t = .ok (padded (s ++ t) n) := by
  have hsplit : List.replicate (n - s.length) (0 : UInt8) =
      List.replicate t.length 0 ++ List.replicate (n - (s ++ t).length) 0 := by
    rw [List.replicate_append_replicate, List.length_append]
    congr 1
    omega
  rw [padded, hsplit, store_middle s (List.length_replicate ..).symm, padded, List.append_assoc]

theorem store_padded_over (hs : s.length ≤ n) (h : n < s.length + t.length) :
    store (padded s n) s.length t = .error ⟨n, n⟩ := by
  have hlen : (List.replicate (n - s.length) (0 : UInt8)).length = n - s.length :=
    List.length_replicate ..
  rw [padded, store_over s (by omega), hlen, Nat.add_sub_cancel' hs]

theorem cstring_append (hs : 0 ∉ s) (t : CArray) : cstring (s ++ t) = s ++ cstring t :=
  List.takeWhile_append_of_pos fun b hb => by
    have hne : b ≠ 0 := fun h => hs (h ▸ hb)
    simpa using hne

theorem cstring_of_nonzero (hs : 0 ∉ s) : cstring s = s := by
  have happend := cstring_append hs []
  rwa [List.append_nil, show cstring [] = [] from rfl, List.append_nil] at happend

theorem cstring_append_zero (hs : 0 ∉ s) (t : List UInt8) : cstring (s ++ 0 :: t) = s := by
  rw [cstring_append hs]
  simp [cstring]

theorem padded_eq_cons (h : s.length < n) :
    padded s n = s ++ 0 :: List.replicate (n - s.length - 1) 0 := by
  have hsucc : n - s.length = n - s.length - 1 + 1 := by omega
  rw [padded, hsucc, List.replicate_succ, Nat.add_sub_cancel]

theorem zero_mem_padded (h : s.length < n) : 0 ∈ padded s n := by
  rw [padded_eq_cons h]
  exact List.mem_append_right _ List.mem_cons_self

theorem cstring_padded (hs : 0 ∉ s) (h : s.length < n) : cstring (padded s n) = s := by
  rw [padded_eq_cons h, cstring_append_zero hs]

theorem strlen_padded (hs : 0 ∉ s) (h : s.length < n) : strlen (padded s n) = .ok s.length := by
  rw [strlen, if_pos (zero_mem_padded h), cstring_padded hs h]

/-- A string that fills its array has no end there. -/
theorem strlen_full (hs : 0 ∉ s) (h : s.length = n) : strlen (padded s n) = .error ⟨n, n⟩ := by
  have hpadded : padded s n = s := by
    rw [padded, h, Nat.sub_self, List.replicate_zero, List.append_nil]
  rw [hpadded, strlen, if_neg hs, h]

theorem readString_padded (ht : 0 ∉ t) (h : t.length < m) (n : Nat) :
    readString (padded t m) n = .ok (t.take n) := by
  rw [readString, if_pos (.inl (zero_mem_padded h))]
  by_cases hn : n ≤ t.length
  · rw [padded, List.take_append_of_le_length hn, cstring_of_nonzero]
    exact fun hmem => ht (List.mem_of_mem_take hmem)
  · have hlt : t.length < n := by omega
    have htake : (padded t m).take n =
        t ++ 0 :: (List.replicate (m - t.length - 1) 0).take (n - t.length - 1) := by
      have hsucc : n - t.length = n - t.length - 1 + 1 := by omega
      rw [padded_eq_cons h, List.take_append, List.take_of_length_le (Nat.le_of_lt hlt), hsucc,
        List.take_succ_cons, Nat.add_sub_cancel]
    rw [htake, cstring_append_zero ht, List.take_of_length_le (Nat.le_of_lt hlt)]

/-- **`strncpy`** of a string that is not cut, behind what is there. -/
theorem strncpy_padded (ht : 0 ∉ t) (hm : t.length < m) (hk : t.length ≤ k)
    (h : s.length + k ≤ n) :
    strncpy (padded s n) s.length (padded t m) k = .ok (padded (s ++ t) n) := by
  have hcopied : s.length + (t ++ List.replicate (k - t.length) 0).length ≤ n := by
    rw [List.length_append, List.length_replicate]
    omega
  rw [strncpy, readString_padded ht hm, ok_bind, List.take_of_length_le hk, store_padded hcopied,
    ← List.append_assoc, padded_zeros]
  rw [List.length_append]
  omega

/-- **`strncat`** of a string that is not cut. -/
theorem strncat_padded (hs : 0 ∉ s) (ht : 0 ∉ t) (hm : t.length < m) (hk : t.length ≤ k)
    (h : s.length + t.length < n) :
    strncat (padded s n) (padded t m) k = .ok (padded (s ++ t) n) := by
  have hzero : s.length + (t ++ [0]).length ≤ n := by
    rw [List.length_append, List.length_singleton]
    omega
  rw [strncat, strlen_padded hs (by omega), ok_bind, readString_padded ht hm, ok_bind,
    List.take_of_length_le hk, store_padded hzero, ← List.append_assoc]
  refine congrArg _ (padded_zeros (k := 1) ?_)
  rw [List.length_append]
  omega

theorem strncat_padded_over (hs : 0 ∉ s) (ht : 0 ∉ t) (hm : t.length < m) (hk : t.length ≤ k)
    (hn : s.length < n) (h : n ≤ s.length + t.length) :
    strncat (padded s n) (padded t m) k = .error ⟨n, n⟩ := by
  have hover : n < s.length + (t ++ [0]).length := by
    rw [List.length_append, List.length_singleton]
    omega
  rw [strncat, strlen_padded hs hn, ok_bind, readString_padded ht hm, ok_bind,
    List.take_of_length_le hk, store_padded_over (Nat.le_of_lt hn) hover]

theorem strncat_literal (hs : 0 ∉ s) (ht : 0 ∉ t) (h : s.length + t.length < n) :
    strncat (padded s n) (literal t) t.length = .ok (padded (s ++ t) n) :=
  strncat_padded hs ht (Nat.lt_succ_self _) (Nat.le_refl _) h

/-- **`snprintf`**, which cuts a text that is too long. -/
theorem snprintf_padded_cut (hk : k ≠ 0) (h : s.length + (t.take (k - 1)).length < n) :
    snprintf (padded s n) s.length k t = .ok (padded (s ++ t.take (k - 1)) n) := by
  have hzero : s.length + (t.take (k - 1) ++ [0]).length ≤ n := by
    rw [List.length_append, List.length_singleton]
    omega
  rw [snprintf, if_neg hk, store_padded hzero, ← List.append_assoc]
  refine congrArg _ (padded_zeros (k := 1) ?_)
  rw [List.length_append]
  omega

theorem snprintf_padded (hk : t.length < k) (h : s.length + t.length < n) :
    snprintf (padded s n) s.length k t = .ok (padded (s ++ t) n) := by
  have hall : t.take (k - 1) = t := List.take_of_length_le (by omega)
  have hcut := snprintf_padded_cut (s := s) (t := t) (n := n) (k := k) (by omega)
    (by rw [hall]; exact h)
  rwa [hall] at hcut

end Padded

end McDaemon.Lib.CStrings
