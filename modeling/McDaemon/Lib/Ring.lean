/-
# McDaemon.Lib.Ring — a ring of slots with free-running 32-bit counters.

The ring has `2 ^ k` slots.  `writeCnt` and `readCnt` count puts and gets and wrap modulo `2 ^ 32`;
the slot of a counter is its low `k` bits.  The specification is the list of all values put so
far: the value at position `i` was put `i`-th, and lies in its slot from its put until the slot is
given back.
-/
import Mathlib.Data.UInt
import Mathlib.Tactic.SplitIfs

namespace McDaemon.Lib

universe u

/-- The number of slots, as the header of the ring has it. -/
def ringSize (k : Fin 32) : UInt32 := UInt32.ofNat (2 ^ k.val)

theorem pow_lt_of_fin (k : Fin 32) : 0 < 2 ^ k.val ∧ 2 ^ k.val ≤ 2147483648 := by
  refine ⟨Nat.two_pow_pos _, ?_⟩
  exact Nat.pow_le_pow_right (by decide) (Nat.le_of_lt_succ k.isLt)

theorem toNat_ringSize (k : Fin 32) : (ringSize k).toNat = 2 ^ k.val := by
  have hk := pow_lt_of_fin k
  rw [ringSize, UInt32.toNat_ofNat_of_lt']
  show 2 ^ k.val < 4294967296
  omega

theorem toNat_ringSize_sub_one (k : Fin 32) : (ringSize k - 1).toNat = 2 ^ k.val - 1 := by
  have hk := pow_lt_of_fin k
  have hsize := toNat_ringSize k
  rw [UInt32.toNat_sub, hsize, UInt32.toNat_one]
  omega

theorem toNat_mask (k : Fin 32) (cnt : UInt32) :
    (cnt &&& (ringSize k - 1)).toNat = cnt.toNat % 2 ^ k.val := by
  rw [UInt32.toNat_and, toNat_ringSize_sub_one, Nat.and_two_pow_sub_one_eq_mod]

/-- A ring with the values in its slots. -/
structure Ring (α : Type u) (k : Fin 32) where
  writeCnt : UInt32
  readCnt : UInt32
  slots : Vector α (2 ^ k.val)

namespace Ring

variable {α : Type u} {k : Fin 32}

/-- The slot of a counter. -/
def index (k : Fin 32) (cnt : UInt32) : Fin (2 ^ k.val) :=
  ⟨(cnt &&& (ringSize k - 1)).toNat, by
    rw [toNat_mask]
    exact Nat.mod_lt _ (Nat.two_pow_pos _)⟩

/-- How many values are in the ring. -/
def used (r : Ring α k) : UInt32 := r.writeCnt - r.readCnt

/-- The value in a slot. -/
def read (r : Ring α k) (p : Fin (2 ^ k.val)) : α := r.slots[p]

/-- Put a value, unless the ring is full. -/
def put (r : Ring α k) (a : α) : Option (Ring α k) :=
  if r.used < ringSize k then
    some { r with writeCnt := r.writeCnt + 1, slots := r.slots.set (index k r.writeCnt) a }
  else none

/-- Give the oldest slot back, unless the ring is empty, and tell which one it is. -/
def get? (r : Ring α k) : Option (Fin (2 ^ k.val) × Ring α k) :=
  if 0 < r.used then some (index k r.readCnt, { r with readCnt := r.readCnt + 1 }) else none

/-! ## Positions -/

/-- The counter and the slot of a position, when the counters started at `base`. -/
def cntAt (base : UInt32) (i : Nat) : UInt32 := base + UInt32.ofNat i

def slotAt (k : Fin 32) (base : UInt32) (i : Nat) : Fin (2 ^ k.val) := index k (cntAt base i)

theorem toNat_cntAt (base : UInt32) (i : Nat) :
    (cntAt base i).toNat = (base.toNat + i) % 4294967296 := by
  rw [cntAt, UInt32.toNat_add, UInt32.toNat_ofNat']
  omega

theorem cntAt_succ (base : UInt32) (i : Nat) : cntAt base i + 1 = cntAt base (i + 1) := by
  apply UInt32.toNat_inj.mp
  rw [UInt32.toNat_add, toNat_cntAt, toNat_cntAt, UInt32.toNat_one]
  omega

theorem toNat_cntAt_sub {base : UInt32} {i j : Nat} (hij : i ≤ j) (hlt : j < i + 4294967296) :
    (cntAt base j - cntAt base i).toNat = j - i := by
  rw [UInt32.toNat_sub, toNat_cntAt, toNat_cntAt]
  omega

theorem val_slotAt (base : UInt32) (i : Nat) :
    (slotAt k base i).val = (base.toNat + i) % 2 ^ k.val := by
  have hdvd : 2 ^ k.val ∣ 4294967296 := Nat.pow_dvd_pow 2 (Nat.le_of_lt k.isLt)
  show (cntAt base i &&& (ringSize k - 1)).toNat = _
  rw [toNat_mask, toNat_cntAt, Nat.mod_mod_of_dvd _ hdvd]

/-- Two positions share a slot only when they are a whole ring apart. -/
theorem slotAt_inj {base : UInt32} {i j : Nat} (hij : i ≤ j) (hlt : j < i + 2 ^ k.val)
    (h : slotAt k base i = slotAt k base j) : i = j := by
  have hval := congrArg Fin.val h
  rw [val_slotAt, val_slotAt] at hval
  have hdvd : 2 ^ k.val ∣ (base.toNat + j) - (base.toNat + i) :=
    (Nat.modEq_iff_dvd' (by omega)).mp hval
  have hzero := Nat.eq_zero_of_dvd_of_lt hdvd (by omega)
  omega

theorem slotAt_add_size (base : UInt32) (i : Nat) :
    slotAt k base (i + 2 ^ k.val) = slotAt k base i := by
  apply Fin.ext
  rw [val_slotAt, val_slotAt, ← Nat.add_assoc, Nat.add_mod_right]

/-! ## What the ring holds -/

/-- The ring holds the values put so far from position `taken` on. -/
structure Holds (r : Ring α k) (base : UInt32) (puts : List α) (taken : Nat) : Prop where
  writeCnt : r.writeCnt = cntAt base puts.length
  readCnt : r.readCnt = cntAt base taken
  taken_le : taken ≤ puts.length
  fits : puts.length ≤ taken + 2 ^ k.val
  slots : ∀ i (h : i < puts.length), taken ≤ i → r.read (slotAt k base i) = puts[i]

theorem Holds.toNat_used {r : Ring α k} {base : UInt32} {puts : List α} {taken : Nat}
    (h : r.Holds base puts taken) : r.used.toNat = puts.length - taken := by
  have hk := pow_lt_of_fin k
  have hle := h.taken_le
  have hfits := h.fits
  rw [used, h.writeCnt, h.readCnt]
  exact toNat_cntAt_sub hle (by omega)

/-- An empty ring, wherever its counters stand. -/
theorem holds_nil {r : Ring α k} (h : r.writeCnt = r.readCnt) : r.Holds r.readCnt [] 0 where
  writeCnt := by simpa [cntAt] using h
  readCnt := by simp [cntAt]
  taken_le := Nat.le_refl 0
  fits := Nat.zero_le _
  slots := fun i hi => absurd hi (Nat.not_lt_zero i)

theorem read_set (r : Ring α k) (p q : Fin (2 ^ k.val)) (a : α) :
    ({ r with slots := r.slots.set p a } : Ring α k).read q = if p = q then a else r.read q := by
  show (r.slots.set p a)[q] = _
  by_cases hpq : p = q
  · subst hpq
    simp
  · have hval : p.val ≠ q.val := fun heq => hpq (Fin.ext heq)
    simp [hpq, hval, read]

/-- What a put does: it writes the slot of the next position and no other. -/
theorem put_eq_some {r t : Ring α k} {a : α} (h : r.put a = some t) :
    r.used < ringSize k ∧ t.writeCnt = r.writeCnt + 1 ∧ t.readCnt = r.readCnt ∧
      ∀ q, t.read q = if index k r.writeCnt = q then a else r.read q := by
  unfold put at h
  split_ifs at h with hspace
  cases h
  refine ⟨hspace, rfl, rfl, ?_⟩
  intro q
  exact read_set r (index k r.writeCnt) q a

theorem Holds.put {r t : Ring α k} {base : UInt32} {puts : List α} {taken : Nat} {a : α}
    (h : r.Holds base puts taken) (ht : r.put a = some t) :
    t.Holds base (puts ++ [a]) taken := by
  obtain ⟨hspace, hwrite, hread, hslots⟩ := put_eq_some ht
  have hlen : (puts ++ [a]).length = puts.length + 1 := by simp
  have hused : puts.length - taken < 2 ^ k.val := by
    have hlt := UInt32.lt_iff_toNat_lt.mp hspace
    rwa [h.toNat_used, toNat_ringSize] at hlt
  have hle := h.taken_le
  refine ⟨?_, hread.trans h.readCnt, by omega, by omega, ?_⟩
  · rw [hwrite, h.writeCnt, cntAt_succ, hlen]
  · intro i hi htaken
    rw [hslots, h.writeCnt]
    by_cases hlast : i = puts.length
    · subst hlast
      have hslot : index k (cntAt base puts.length) = slotAt k base puts.length := rfl
      rw [if_pos hslot]
      simp
    · have hi' : i < puts.length := by omega
      have hne : index k (cntAt base puts.length) ≠ slotAt k base i := by
        intro heq
        have hpos : i = puts.length := slotAt_inj (by omega) (by omega) heq.symm
        exact hlast hpos
      rw [if_neg hne, h.slots i hi' htaken, List.getElem_append_left hi']

/-- What a get does: it gives back the slot of the oldest position. -/
theorem Holds.get? {r t : Ring α k} {base : UInt32} {puts : List α} {taken : Nat}
    {p : Fin (2 ^ k.val)} (h : r.Holds base puts taken) (ht : r.get? = some (p, t)) :
    p = slotAt k base taken ∧ taken < puts.length ∧ t.Holds base puts (taken + 1) ∧
      ∀ q, t.read q = r.read q := by
  unfold Ring.get? at ht
  split_ifs at ht with hused
  cases ht
  have hpos : 0 < puts.length - taken := by
    have hlt := UInt32.lt_iff_toNat_lt.mp hused
    rwa [h.toNat_used] at hlt
  have hfits := h.fits
  refine ⟨?_, by omega, ?_, fun q => rfl⟩
  · rw [h.readCnt]
    rfl
  · refine ⟨h.writeCnt, ?_, by omega, by omega, ?_⟩
    · show r.readCnt + 1 = _
      rw [h.readCnt, cntAt_succ]
    · intro i hi htaken
      exact h.slots i hi (by omega)

/-- A put goes to the slot given back last exactly when one slot is left besides it. -/
theorem Holds.index_eq_iff {r : Ring α k} {base : UInt32} {puts : List α} {taken : Nat}
    (h : r.Holds base puts (taken + 1)) (hspace : r.used < ringSize k) :
    index k r.writeCnt = slotAt k base taken ↔ r.used = ringSize k - 1 := by
  have hk := pow_lt_of_fin k
  have hle := h.taken_le
  have hused := h.toNat_used
  have hlt : puts.length - (taken + 1) < 2 ^ k.val := by
    have hlt := UInt32.lt_iff_toNat_lt.mp hspace
    rwa [hused, toNat_ringSize] at hlt
  have hslot : index k r.writeCnt = slotAt k base puts.length := by
    rw [h.writeCnt]
    rfl
  rw [hslot, ← UInt32.toNat_inj, hused, toNat_ringSize_sub_one]
  constructor
  · intro heq
    by_contra hne
    have hpos : taken = puts.length := slotAt_inj (by omega) (by omega) heq.symm
    omega
  · intro heq
    have hlen : puts.length = taken + 2 ^ k.val := by omega
    rw [hlen, slotAt_add_size]

/-! ## The ring as a list -/

/-- The values in the ring, the oldest first. -/
def pending (r : Ring α k) : List α :=
  (List.range r.used.toNat).map fun i => r.read (slotAt k r.readCnt i)

@[simp] theorem length_pending (r : Ring α k) : r.pending.length = r.used.toNat := by
  simp [pending]

theorem toNat_used (r : Ring α k) :
    r.used.toNat = (4294967296 - r.readCnt.toNat + r.writeCnt.toNat) % 4294967296 := by
  rw [used, UInt32.toNat_sub]

/-- The next put goes to the slot behind the values in the ring. -/
theorem index_writeCnt (r : Ring α k) : index k r.writeCnt = slotAt k r.readCnt r.used.toNat := by
  have hcnt : cntAt r.readCnt r.used.toNat = r.writeCnt := by
    apply UInt32.toNat_inj.mp
    have hwrite := r.writeCnt.toNat_lt
    have hread := r.readCnt.toNat_lt
    rw [toNat_cntAt, toNat_used]
    omega
  rw [slotAt, hcnt]

theorem slotAt_zero (base : UInt32) : slotAt k base 0 = index k base := by
  simp [slotAt, cntAt]

theorem slotAt_succ (base : UInt32) (i : Nat) : slotAt k base (i + 1) = slotAt k (base + 1) i := by
  have hcnt : cntAt base (i + 1) = cntAt (base + 1) i := by
    apply UInt32.toNat_inj.mp
    rw [toNat_cntAt, toNat_cntAt, UInt32.toNat_add, UInt32.toNat_one]
    omega
  rw [slotAt, slotAt, hcnt]

/-- Whatever the counters are, a put fails when no fewer values than slots are in the ring. -/
theorem put_eq_none {r : Ring α k} {a : α} :
    r.put a = none ↔ ¬ r.pending.length < 2 ^ k.val := by
  rw [length_pending, ← toNat_ringSize k, ← UInt32.lt_iff_toNat_lt]
  simp [put]

theorem get?_eq_none {r : Ring α k} : r.get? = none ↔ r.pending = [] := by
  have hzero : (0 : UInt32).toNat = 0 := rfl
  rw [← List.length_eq_zero_iff, length_pending]
  simp only [get?, ite_eq_right_iff, UInt32.lt_iff_toNat_lt, hzero, reduceCtorEq, imp_false]
  omega

/-- **A put appends.** -/
theorem pending_put {r t : Ring α k} {a : α} (h : r.put a = some t) :
    t.pending = r.pending ++ [a] := by
  obtain ⟨hspace, hwrite, hread, hslots⟩ := put_eq_some h
  have hk := pow_lt_of_fin k
  have hlt : r.used.toNat < 2 ^ k.val := by
    rwa [UInt32.lt_iff_toNat_lt, toNat_ringSize] at hspace
  have hused : t.used.toNat = r.used.toNat + 1 := by
    rw [toNat_used] at hlt ⊢
    rw [toNat_used, hwrite, hread, UInt32.toNat_add, UInt32.toNat_one]
    omega
  rw [pending, hused, hread, List.range_succ, List.map_append, List.map_singleton, hslots,
    if_pos r.index_writeCnt]
  congr 1
  -- the values already there lie in other slots
  apply List.map_congr_left
  intro i hi
  have hi := List.mem_range.mp hi
  rw [hslots, index_writeCnt, if_neg]
  intro heq
  have hpos := slotAt_inj (by omega) (by omega) heq.symm
  omega

/-- What a get does: it moves on by one counter. -/
theorem get?_eq_some {r t : Ring α k} {p : Fin (2 ^ k.val)} (h : r.get? = some (p, t)) :
    0 < r.used.toNat ∧ p = index k r.readCnt ∧ t.writeCnt = r.writeCnt ∧
      t.readCnt = r.readCnt + 1 ∧ ∀ q, t.read q = r.read q := by
  unfold get? at h
  split_ifs at h with hpos
  cases h
  exact ⟨UInt32.lt_iff_toNat_lt.mp hpos, rfl, rfl, rfl, fun q => rfl⟩

/-- **A get takes the oldest value.** -/
theorem pending_get? {r t : Ring α k} {p : Fin (2 ^ k.val)} (h : r.get? = some (p, t)) :
    r.pending = t.read p :: t.pending := by
  obtain ⟨hpos, rfl, hwrite, hread, hslots⟩ := get?_eq_some h
  have hused : r.used.toNat = t.used.toNat + 1 := by
    have hw := r.writeCnt.toNat_lt
    have hr := r.readCnt.toNat_lt
    rw [toNat_used] at hpos ⊢
    rw [toNat_used, hwrite, hread, UInt32.toNat_add, UInt32.toNat_one]
    omega
  rw [pending, hused, List.range_succ_eq_map, List.map_cons, List.map_map, slotAt_zero, hslots]
  refine congrArg (r.read (index k r.readCnt) :: ·) ?_
  apply List.map_congr_left
  intro i _
  rw [hslots, hread, ← slotAt_succ]
  rfl

end Ring

end McDaemon.Lib
