/-
# McDaemon.Lib.Overlay — byte strings that grow under what is written to them.

Bytes are put over others at an index; where the string is too short it is filled up with zeros
first.  After any number of writes each byte is that of the last write over it, and zero if there
was none.
-/
import Mathlib.Data.List.Basic
import Mathlib.Tactic.SplitIfs

namespace McDaemon.Lib

/-- Put bytes over those from an index on. -/
def put (bs : List UInt8) (i : Nat) (new : List UInt8) : List UInt8 :=
  bs.take i ++ new ++ bs.drop (i + new.length)

/-- Fill up with zeros to a length. -/
def grow (n : Nat) (bs : List UInt8) : List UInt8 := bs ++ List.replicate (n - bs.length) 0

/-- Bytes to write, and where. -/
structure Patch where
  index : Nat
  bytes : List UInt8
deriving DecidableEq, Repr

namespace Patch

def stop (p : Patch) : Nat := p.index + p.bytes.length

/-- Fill up as far as needed, and write. -/
def write (p : Patch) (bs : List UInt8) : List UInt8 := put (grow p.stop bs) p.index p.bytes

/-- One write after another. -/
def writeAll (bs : List UInt8) (ps : List Patch) : List UInt8 := ps.foldl (fun bs p => p.write bs) bs

/-- Two writes that do not touch each other's bytes. -/
def Apart (p q : Patch) : Prop := p.stop ≤ q.index ∨ q.stop ≤ p.index

instance (p q : Patch) : Decidable (p.Apart q) := inferInstanceAs (Decidable (_ ∨ _))

end Patch

section Overlay

variable {bs new : List UInt8} {i j n : Nat}

theorem length_put (h : i + new.length ≤ bs.length) : (put bs i new).length = bs.length := by
  unfold put
  simp only [List.length_append, List.length_take, List.length_drop]
  omega

theorem getElem?_put (h : i + new.length ≤ bs.length) (j : Nat) :
    (put bs i new)[j]? = if i ≤ j ∧ j < i + new.length then new[j - i]? else bs[j]? := by
  have hi : (bs.take i).length = i := by
    rw [List.length_take]
    omega
  unfold put
  rw [List.append_assoc, List.getElem?_append, hi]
  by_cases hlt : j < i
  · rw [if_pos hlt, if_neg (by omega), List.getElem?_take_of_lt hlt]
  · rw [if_neg hlt, List.getElem?_append]
    by_cases hnew : j - i < new.length
    · rw [if_pos hnew, if_pos (by omega)]
    · rw [if_neg hnew, if_neg (by omega), List.getElem?_drop]
      congr 1
      omega

/-- Two writes side by side are one. -/
theorem put_put_right {next : List UInt8} (h : i + new.length + next.length ≤ bs.length) :
    put (put bs i new) (i + new.length) next = put bs i (new ++ next) := by
  have hboth : i + (new ++ next).length ≤ bs.length := by
    rw [List.length_append]
    omega
  apply List.ext_getElem?
  intro j
  rw [getElem?_put (by rw [length_put (by omega)]; exact h), getElem?_put (by omega),
    getElem?_put hboth, List.length_append]
  by_cases hnext : i + new.length ≤ j ∧ j < i + new.length + next.length
  · rw [if_pos hnext, if_pos (by omega), List.getElem?_append_right (by omega), Nat.sub_add_eq]
  · rw [if_neg hnext]
    by_cases hnew : i ≤ j ∧ j < i + new.length
    · rw [if_pos hnew, if_pos (by omega), List.getElem?_append_left (by omega)]
    · rw [if_neg hnew, if_neg (by omega)]

@[simp] theorem length_grow (n : Nat) (bs : List UInt8) :
    (grow n bs).length = max bs.length n := by
  unfold grow
  rw [List.length_append, List.length_replicate]
  omega

theorem grow_of_le (h : n ≤ bs.length) : grow n bs = bs := by
  unfold grow
  rw [Nat.sub_eq_zero_of_le h]
  exact List.append_nil bs

theorem getElem?_grow (n : Nat) (bs : List UInt8) (j : Nat) :
    (grow n bs)[j]? = if j < bs.length then bs[j]? else if j < n then some 0 else none := by
  unfold grow
  rw [List.getElem?_append]
  split_ifs with hold hnew
  · rfl
  · rw [List.getElem?_replicate, if_pos (by omega)]
  · rw [List.getElem?_replicate, if_neg (by omega)]

namespace Patch

variable {p q : Patch} {ps : List Patch}

theorem length_write (p : Patch) (bs : List UInt8) :
    (p.write bs).length = max bs.length p.stop := by
  unfold write
  rw [length_put (by rw [length_grow]; exact Nat.le_max_right _ _), length_grow]

/-- **One write**, byte by byte. -/
theorem getElem?_write (p : Patch) (bs : List UInt8) (j : Nat) :
    (p.write bs)[j]? = if p.index ≤ j ∧ j < p.stop then p.bytes[j - p.index]?
      else if j < bs.length then bs[j]? else if j < p.stop then some 0 else none := by
  unfold write
  rw [getElem?_put (by rw [length_grow]; exact Nat.le_max_right _ _), getElem?_grow]
  rfl

theorem write_of_le (h : p.stop ≤ bs.length) : p.write bs = put bs p.index p.bytes := by
  unfold write
  rw [grow_of_le h]

/-- A write fills up as far as it needs. -/
theorem write_grow (h : n ≤ p.stop) : p.write (grow n bs) = p.write bs := by
  apply List.ext_getElem?
  intro j
  rw [getElem?_write, getElem?_write, getElem?_grow, length_grow]
  split_ifs <;> first | rfl | omega

theorem Apart.symm (h : p.Apart q) : q.Apart p := Or.symm h

/-- Writes that do not touch each other's bytes commute. -/
theorem write_comm (h : p.Apart q) (bs : List UInt8) :
    p.write (q.write bs) = q.write (p.write bs) := by
  apply List.ext_getElem?
  intro j
  rw [getElem?_write, getElem?_write, getElem?_write, getElem?_write, length_write, length_write]
  unfold Apart at h
  split_ifs <;> first | rfl | omega

/-- A write takes away what was written under it. -/
theorem write_write (hstart : q.index ≤ p.index) (hstop : p.stop ≤ q.stop) (bs : List UInt8) :
    q.write (p.write bs) = q.write bs := by
  apply List.ext_getElem?
  intro j
  rw [getElem?_write, getElem?_write, getElem?_write, length_write]
  split_ifs <;> first | rfl | omega

/-- What is in front of a write stays. -/
theorem take_write (hindex : n ≤ p.index) (hlen : n ≤ bs.length) :
    (p.write bs).take n = bs.take n := by
  apply List.ext_getElem?
  intro j
  rw [List.getElem?_take, List.getElem?_take]
  split_ifs with hj
  · rw [getElem?_write, if_neg (by omega), if_pos (by omega)]
  · rfl

/-- The bytes of a write are there. -/
structure HeldBy (p : Patch) (bs : List UInt8) : Prop where
  inside : p.stop ≤ bs.length
  same : ∀ k < p.bytes.length, bs[p.index + k]? = p.bytes[k]?

theorem HeldBy.slice (h : p.HeldBy bs) : (bs.drop p.index).take p.bytes.length = p.bytes := by
  apply List.ext_getElem?
  intro k
  rw [List.getElem?_take]
  split_ifs with hk
  · rw [List.getElem?_drop]
    exact h.same k hk
  · exact (List.getElem?_eq_none (Nat.not_lt.mp hk)).symm

theorem heldBy_write (p : Patch) (bs : List UInt8) : p.HeldBy (p.write bs) where
  inside := by
    rw [length_write]
    exact Nat.le_max_right _ _
  same := by
    intro k hk
    rw [getElem?_write, if_pos ⟨Nat.le_add_right _ _, Nat.add_lt_add_left hk _⟩,
      Nat.add_sub_cancel_left]

theorem HeldBy.write (h : p.HeldBy bs) (hq : p.Apart q) : p.HeldBy (q.write bs) where
  inside := by
    rw [length_write]
    exact Nat.le_trans h.inside (Nat.le_max_left _ _)
  same := by
    intro k hk
    have hold : p.index + k < bs.length :=
      Nat.lt_of_lt_of_le (Nat.add_lt_add_left hk _) h.inside
    have hnot : ¬ (q.index ≤ p.index + k ∧ p.index + k < q.stop) := by
      unfold Apart stop at hq
      unfold stop
      omega
    rw [getElem?_write, if_neg hnot, if_pos hold]
    exact h.same k hk

/-- **A write changes nothing** just if its bytes are there. -/
theorem write_eq_self_iff : p.write bs = bs ↔ p.HeldBy bs := by
  constructor
  · exact fun h => h ▸ heldBy_write p bs
  · intro h
    apply List.ext_getElem?
    intro j
    have hinside := h.inside
    rw [getElem?_write]
    split_ifs with hin hold
    · have hk := h.same (j - p.index) (by unfold stop at hin; omega)
      rw [Nat.add_sub_cancel' hin.1] at hk
      exact hk.symm
    · rfl
    · omega
    · exact (List.getElem?_eq_none (Nat.not_lt.mp hold)).symm

theorem length_writeAll_le (hlen : bs.length ≤ n) (hps : ∀ p ∈ ps, p.stop ≤ n) :
    (writeAll bs ps).length ≤ n := by
  induction ps generalizing bs with
  | nil => exact hlen
  | cons p ps ih =>
    refine ih ?_ fun q hq => hps q (List.mem_cons_of_mem p hq)
    rw [length_write]
    exact Nat.max_le.mpr ⟨hlen, hps p List.mem_cons_self⟩

/-- **What is written is read back**, if nothing is written over it. -/
theorem heldBy_writeAll (bs : List UInt8) (before : List Patch) (p : Patch) {later : List Patch}
    (hlater : ∀ q ∈ later, p.Apart q) : p.HeldBy (writeAll bs (before ++ p :: later)) := by
  have hstays : ∀ (cs : List UInt8), p.HeldBy cs → p.HeldBy (writeAll cs later) := by
    induction later with
    | nil => exact fun _ h => h
    | cons q later ih =>
      intro cs h
      exact ih (fun r hr => hlater r (List.mem_cons_of_mem q hr)) _
        (h.write (hlater q List.mem_cons_self))
  have hsplit : writeAll bs (before ++ p :: later) =
      writeAll (p.write (writeAll bs before)) later := by
    unfold writeAll
    rw [List.foldl_append]
    rfl
  rw [hsplit]
  exact hstays _ (heldBy_write p _)

end Patch

end Overlay

end McDaemon.Lib
