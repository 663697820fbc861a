/-
# McDaemon.RootPa.CmpMsgBytes — the bytes of the messages that applications build.

However an application sets the fields of a command, the bytes are the id, the length of the whole
command and what has been set, each byte by the last setter that set it.  Such a command is not
changed by the constructor that takes its bytes.  A response has the length of its id in its length
field until it goes beyond its header.
-/
import McDaemon.RootPa.CmpMsg

namespace McDaemon.RootPa.CmpMsg

open McDaemon.Lib
open McDaemon.Lib.Attempt

section Calls

variable {α β : Type} {x : Call α} {f : α → Call β} {s t : Option (List UInt8)} {a : α}
  {e : JavaError} {c bs : List UInt8} {kind : Kind} {n depth : Nat} {value : UInt32}

theorem start_bind_ok (h : start x s = (.ok a, t)) : start (x >>= f) s = start (f a) t := by
  rw [start_bind, h]

theorem start_bind_error (h : start x s = (.error e, t)) : start (x >>= f) s = (.error e, t) := by
  rw [start_bind, h]

theorem start_content (c : List UInt8) : start content (some c) = (.ok c, some c) := rfl

theorem start_get (s : Option (List UInt8)) :
    start (get : Call (Option (List UInt8))) s = (.ok s, s) := rfl

theorem start_set (s t : Option (List UInt8)) :
    start (set t : Call Unit) s = (.ok (), t) := rfl

/-! ## The array -/

/-- The id of a message. -/
def idOf (c : List UInt8) : UInt32 := UInt32.ofNat (ofLe (c.take 4))

theorem start_msgId (c : List UInt8) : start msgId (some c) =
    if 4 ≤ c.length then (.ok (idOf c), some c) else (.error .indexOutOfBounds, some c) := by
  unfold msgId getInt
  rw [start_bind_ok (start_content c)]
  by_cases h : 4 ≤ c.length
  · rw [if_pos (by omega), if_pos h]
    rfl
  · rw [if_neg (by omega), if_neg h]
    rfl

theorem addInt_eq {i : Nat} (h : i + n < 2 ^ 31) : addInt i n = ((i + n : Nat) : Int) := by
  unfold addInt
  rw [Int.bmod_eq_of_le (by omega) (by omega)]
  rfl

theorem start_assign_put {i : Nat} (h : i + bs.length ≤ c.length) :
    start (assign i bs) (some c) = (.ok (), some (put c i bs)) := by
  induction bs generalizing i c with
  | nil =>
    have hsame : put c i [] = c := by
      unfold put
      rw [List.append_nil]
      exact List.take_append_drop i c
    rw [hsame]
    rfl
  | cons b bs ih =>
    rw [List.length_cons] at h
    unfold assign
    rw [start_bind_ok (start_content c), if_pos (by omega), start_bind_ok (start_set _ _)]
    have hone : i + [b].length ≤ c.length := by
      rw [List.length_singleton]
      omega
    have hnext : i + 1 + bs.length ≤ (put c i [b]).length := by
      rw [length_put hone]
      omega
    have hboth : put (put c i [b]) (i + 1) bs = put c i (b :: bs) :=
      put_put_right (by rw [List.length_singleton]; omega)
    rw [← hboth]
    exact ih hnext

theorem start_assign {p : Patch} (h : p.stop ≤ c.length) :
    start (assign p.index p.bytes) (some c) = (.ok (), some (p.write c)) := by
  rw [Patch.write_of_le h]
  exact start_assign_put h

theorem start_arraycopy {p : Patch} (h : p.stop ≤ c.length) :
    start (arraycopy p.index p.bytes) (some c) = (.ok (), some (p.write c)) := by
  have hin : p.index + p.bytes.length ≤ c.length := h
  rw [Patch.write_of_le h]
  unfold arraycopy
  rw [start_bind_ok (start_content c), if_pos (by omega)]
  rfl

/-! ## The length field -/

/-- Is a length written to a message? -/
def Kind.Writes (kind : Kind) (c : List UInt8) (length : Nat) : Prop :=
  kind.hasLength (idOf c) = true ∧ kind.noLength < length

instance (kind : Kind) (c : List UInt8) (length : Nat) : Decidable (kind.Writes c length) :=
  inferInstanceAs (Decidable (_ ∧ _))

/-- A length in the length field. -/
def Kind.lengthPatch (kind : Kind) (length : Nat) : Patch :=
  ⟨kind.lengthIdx, le32 (UInt32.ofNat length)⟩

/-- A message that has grown, with its length up to date. -/
def Kind.grown (kind : Kind) (n : Nat) (c : List UInt8) : List UInt8 :=
  if kind.Writes c n then (kind.lengthPatch n).write (grow n c) else grow n c

theorem lengthIdx_bounds (kind : Kind) : 4 ≤ kind.lengthIdx ∧ kind.lengthIdx ≤ 8 := by
  cases kind with
  | command | response => decide

theorem lengthPatch_stop (kind : Kind) (n : Nat) :
    (kind.lengthPatch n).stop = kind.lengthIdx + 4 := rfl

theorem idOf_grow (h : 4 ≤ c.length) (n : Nat) : idOf (grow n c) = idOf c := by
  unfold idOf grow
  rw [List.take_append_of_le_length h]

theorem idOf_write {p : Patch} (hindex : 4 ≤ p.index) (h : 4 ≤ c.length) :
    idOf (p.write c) = idOf c := by
  unfold idOf
  rw [Patch.take_write hindex h]

theorem writes_congr {d : List UInt8} (h : idOf c = idOf d) :
    kind.Writes c n ↔ kind.Writes d n := by
  unfold Kind.Writes
  rw [h]

theorem le_length_grown (kind : Kind) (n : Nat) (c : List UInt8) :
    n ≤ (kind.grown n c).length := by
  have hgrow : n ≤ (grow n c).length := by
    rw [length_grow]
    exact Nat.le_max_right _ _
  unfold Kind.grown
  split_ifs
  · rw [Patch.length_write]
    exact Nat.le_trans hgrow (Nat.le_max_left _ _)
  · exact hgrow

theorem start_setLength {setInt : Int → UInt32 → Call Unit} (h : 4 ≤ c.length) :
    start (setLength setInt kind n) (some c) =
      if kind.Writes c n then start (setInt kind.lengthIdx (UInt32.ofNat n)) (some c)
      else (.ok (), some c) := by
  have hid : start msgId (some c) = (.ok (idOf c), some c) := by
    rw [start_msgId, if_pos h]
  unfold setLength
  rw [start_bind_ok hid]
  by_cases hwrites : kind.hasLength (idOf c) = true ∧ kind.noLength < n
  · rw [if_pos hwrites, if_pos (show kind.Writes c n from hwrites)]
  · rw [if_neg hwrites, if_neg (show ¬ kind.Writes c n from hwrites)]
    rfl

theorem start_createEmptyContentIfNeeded {setInt : Int → UInt32 → Call Unit} {i : Nat}
    (hrange : i + n < 2 ^ 31) :
    start (createEmptyContentIfNeeded setInt kind i n) (some c) =
      if c.length < i + n then start (setLength setInt kind (i + n)) (some (grow (i + n) c))
      else (.ok (), some c) := by
  unfold createEmptyContentIfNeeded
  rw [start_bind_ok (start_get (some c)), addInt_eq hrange]
  dsimp only
  by_cases h : c.length < i + n
  · rw [if_pos (by omega), if_pos h]
    rfl
  · rw [if_neg (by omega), if_neg h]
    rfl

/-- A setter on a message that is long enough. -/
theorem start_setIntUpTo_of_le {i : Nat} (h : i + 4 ≤ c.length) (hrange : i + 4 < 2 ^ 31) :
    start (setIntUpTo kind (depth + 1) i value) (some c) =
      (.ok (), some (Patch.write ⟨i, le32 value⟩ c)) := by
  have hcreate := @start_createEmptyContentIfNeeded c kind 4 (setIntUpTo kind depth) i hrange
  rw [if_neg (by omega)] at hcreate
  have hassign := @start_assign c ⟨i, le32 value⟩ h
  unfold setIntUpTo
  exact (start_bind_ok hcreate).trans hassign

theorem start_assign_length (h : kind.lengthIdx + 4 ≤ c.length) :
    start (assign kind.lengthIdx (le32 (UInt32.ofNat n))) (some c) =
      (.ok (), some ((kind.lengthPatch n).write c)) :=
  @start_assign c (kind.lengthPatch n) h

/-- The last of two lengths counts. -/
theorem write_lengthPatch (kind : Kind) (m n : Nat) (c : List UInt8) :
    (kind.lengthPatch n).write ((kind.lengthPatch m).write c) = (kind.lengthPatch n).write c :=
  Patch.write_write (p := kind.lengthPatch m) (q := kind.lengthPatch n)
    (Nat.le_refl kind.lengthIdx) (Nat.le_refl (kind.lengthIdx + 4)) c

/-- **The setter of the length field** grows the message at most once, and writes the field of the
grown message before its own value. -/
theorem start_setInt_lengthIdx :
    start (setIntUpTo kind (depth + 2) kind.lengthIdx (UInt32.ofNat n)) (some c) =
      (.ok (), some ((kind.lengthPatch n).write c)) := by
  obtain ⟨hlow, hhigh⟩ := lengthIdx_bounds kind
  by_cases hfits : kind.lengthIdx + 4 ≤ c.length
  · exact start_setIntUpTo_of_le hfits (by omega)
  · have hgrown : kind.lengthIdx + 4 ≤ (grow (kind.lengthIdx + 4) c).length := by
      rw [length_grow]
      exact Nat.le_max_right _ _
    have hfield : start (setIntUpTo kind (depth + 1) kind.lengthIdx
        (UInt32.ofNat (kind.lengthIdx + 4))) (some (grow (kind.lengthIdx + 4) c)) =
        (.ok (), some ((kind.lengthPatch (kind.lengthIdx + 4)).write
          (grow (kind.lengthIdx + 4) c))) :=
      start_setIntUpTo_of_le hgrown (by omega)
    have hcreate := @start_createEmptyContentIfNeeded c kind 4 (setIntUpTo kind (depth + 1))
      kind.lengthIdx (by omega)
    rw [if_pos (by omega), start_setLength (by omega), hfield] at hcreate
    have hgrow := @Patch.write_grow c (kind.lengthIdx + 4) (kind.lengthPatch n) (Nat.le_refl _)
    unfold setIntUpTo
    rw [← hgrow]
    by_cases hwrites : kind.Writes (grow (kind.lengthIdx + 4) c) (kind.lengthIdx + 4)
    · rw [if_pos hwrites] at hcreate
      rw [start_bind_ok hcreate,
        ← write_lengthPatch kind (kind.lengthIdx + 4) n (grow (kind.lengthIdx + 4) c)]
      refine start_assign_length ?_
      rw [Patch.length_write]
      exact Nat.le_max_right _ _
    · rw [if_neg hwrites] at hcreate
      rw [start_bind_ok hcreate]
      exact start_assign_length hgrown

/-- What a setter does before it writes. -/
theorem start_grows {i : Nat} (h : 4 ≤ c.length) (hrange : i + n < 2 ^ 31) :
    start (createEmptyContentIfNeeded (setIntUpTo kind (depth + 2)) kind i n) (some c) =
      (.ok (), some (if c.length < i + n then kind.grown (i + n) c else c)) := by
  rw [start_createEmptyContentIfNeeded hrange]
  by_cases hshort : c.length < i + n
  · have hlong : 4 ≤ (grow (i + n) c).length := by
      rw [length_grow]
      omega
    rw [if_pos hshort, if_pos hshort, start_setLength hlong, start_setInt_lengthIdx]
    unfold Kind.grown
    by_cases hwrites : kind.Writes c (i + n)
    · rw [if_pos hwrites, if_pos ((writes_congr (idOf_grow h _)).mpr hwrites)]
    · rw [if_neg hwrites, if_neg fun h' => hwrites ((writes_congr (idOf_grow h _)).mp h')]
  · rw [if_neg hshort, if_neg hshort]

/-- **A setter** writes over the message, which it has made long enough. -/
theorem start_setter (w : Setter) (h : 4 ≤ c.length) (hrange : w.patch.stop < 2 ^ 31) :
    start (w.run kind) (some c) = (.ok (), some (w.patch.write
      (if c.length < w.patch.stop then kind.grown w.patch.stop c else c))) := by
  have hlong : w.patch.stop ≤
      (if c.length < w.patch.stop then kind.grown w.patch.stop c else c).length := by
    split_ifs with hshort
    · exact le_length_grown kind _ c
    · exact Nat.not_lt.mp hshort
  cases w with
  | int index value => exact (start_bind_ok (start_grows h hrange)).trans (start_assign hlong)
  | byteArray index addBytes =>
    exact (start_bind_ok (start_grows h hrange)).trans (start_arraycopy hlong)

/-! ## Messages that are taken -/

/-- The length of a message, where it is kept. -/
def Kind.stamp (kind : Kind) (c : List UInt8) : List UInt8 :=
  if kind.Writes c c.length then (kind.lengthPatch c.length).write c else c

theorem start_setContent (kind : Kind) (c : List UInt8) (s : Option (List UInt8)) :
    start (setContent kind c) s =
      if 4 ≤ c.length then (.ok (), some (kind.stamp c))
      else (.error .indexOutOfBounds, some c) := by
  have hset := start_bind_ok (f := fun _ => setLength (setInt kind) kind c.length)
    (start_set s (some c))
  refine hset.trans ?_
  by_cases h : 4 ≤ c.length
  · rw [if_pos h, start_setLength h]
    unfold setInt Kind.stamp
    rw [start_setInt_lengthIdx]
    split_ifs
    · rfl
    · rfl
  · have hid : start msgId (some c) = (.error .indexOutOfBounds, some c) := by
      rw [start_msgId, if_neg h]
    rw [if_neg h]
    exact start_bind_error hid

theorem stamp_eq_self_iff (kind : Kind) (c : List UInt8) :
    kind.stamp c = c ↔ (kind.Writes c c.length → (kind.lengthPatch c.length).HeldBy c) := by
  unfold Kind.stamp
  split_ifs with hwrites
  · rw [Patch.write_eq_self_iff]
    exact ⟨fun h _ => h, fun h => h hwrites⟩
  · exact ⟨fun _ h => absurd h hwrites, fun _ => rfl⟩

/-- **Messages that are taken whole**: the constructor fails if there is no id, and leaves the bytes
as they are just if their length is where it is kept, or none is kept. -/
theorem content_taken (kind : Kind) (c : List UInt8) (s : Option (List UInt8)) :
    start (setContent kind c) s =
        (if 4 ≤ c.length then (.ok (), some (kind.stamp c))
        else (.error .indexOutOfBounds, some c)) ∧
      (kind.stamp c = c ↔ (kind.Writes c c.length → (kind.lengthPatch c.length).HeldBy c)) :=
  ⟨start_setContent kind c s, stamp_eq_self_iff kind c⟩

end Calls

/-! ## Messages that are built -/

section Built

variable {kind : Kind} {id : UInt32} {c : List UInt8} {p : Patch} {w : Setter}

/-- How long the setter of the id makes a message.  A response gets its length field with it. -/
def Kind.firstLength : Kind → Nat
  | .command => 4
  | .response => 12

/-- Are there bytes for the length behind the id? -/
def Kind.hasField (kind : Kind) (id : UInt32) : Bool :=
  match kind with
  | .command => kind.hasLength id
  | .response => true

/-- A setter that leaves the id and the length field alone. -/
def Setter.Behind (kind : Kind) (id : UInt32) (w : Setter) : Prop :=
  4 ≤ w.patch.index ∧ (kind.hasField id = true → w.patch.Apart (kind.lengthPatch 0)) ∧
    w.patch.stop < 2 ^ 31

instance (kind : Kind) (id : UInt32) (w : Setter) : Decidable (w.Behind kind id) :=
  inferInstanceAs (Decidable (_ ∧ _))

/-- Bytes behind the id, with the length in its place once they go beyond the first ones. -/
def Kind.kept (kind : Kind) (id : UInt32) (c : List UInt8) : List UInt8 :=
  if kind.hasLength id = true ∧ kind.firstLength < c.length then
    (kind.lengthPatch c.length).write c
  else c

/-- A message on the way, but for its length. -/
structure Begun (kind : Kind) (id : UInt32) (c : List UInt8) : Prop where
  idOf : CmpMsg.idOf c = id
  long : kind.firstLength ≤ c.length
  room : kind.hasLength id = true → kind.firstLength < c.length → kind.lengthIdx + 4 ≤ c.length

theorem firstLength_bounds (kind : Kind) : 4 ≤ kind.firstLength ∧
    kind.lengthIdx ≤ kind.firstLength ∧ kind.noLength ≤ kind.firstLength := by
  cases kind with
  | command | response => decide

theorem hasField_of_hasLength (h : kind.hasLength id = true) : kind.hasField id = true := by
  cases kind with
  | command => exact h
  | response => rfl

theorem apart_lengthPatch (h : p.Apart (kind.lengthPatch 0)) (n : Nat) :
    p.Apart (kind.lengthPatch n) := h

theorem Begun.write (h : Begun kind id c) (hindex : 4 ≤ p.index)
    (hapart : kind.hasField id = true → p.Apart (kind.lengthPatch 0)) :
    Begun kind id (p.write c) := by
  obtain ⟨hfour, hidx, -⟩ := firstLength_bounds kind
  refine ⟨(idOf_write hindex (Nat.le_trans hfour h.long)).trans h.idOf, ?_, ?_⟩
  · rw [Patch.length_write]
    exact Nat.le_trans h.long (Nat.le_max_left _ _)
  · intro hlength hfirst
    rw [Patch.length_write] at hfirst ⊢
    by_cases hlong : kind.firstLength < c.length
    · exact Nat.le_trans (h.room hlength hlong) (Nat.le_max_left _ _)
    · -- the first bytes behind the header are behind the length field
      have hstop : p.index ≤ p.stop := Nat.le_add_right _ _
      rcases hapart (hasField_of_hasLength hlength) with hbefore | hbehind
      · have hbefore' : p.stop ≤ kind.lengthIdx := hbefore
        omega
      · rw [lengthPatch_stop] at hbehind
        omega

theorem Begun.length_kept (h : Begun kind id c) : (kind.kept id c).length = c.length := by
  unfold Kind.kept
  split_ifs with hkeeps
  · rw [Patch.length_write, lengthPatch_stop]
    exact Nat.max_eq_left (h.room hkeeps.1 hkeeps.2)
  · rfl

theorem Begun.idOf_kept (h : Begun kind id c) : CmpMsg.idOf (kind.kept id c) = id := by
  have hfour := Nat.le_trans (firstLength_bounds kind).1 h.long
  unfold Kind.kept
  split_ifs
  · exact (idOf_write (lengthIdx_bounds kind).1 hfour).trans h.idOf
  · exact h.idOf

/-- **A setter keeps the length up to date**, if the message goes beyond the first bytes. -/
theorem start_setter_kept (h : Begun kind id c) (hw : w.Behind kind id) :
    start (w.run kind) (some (kind.kept id c)) =
      (.ok (), some (kind.kept id (w.patch.write c))) := by
  obtain ⟨-, hfield, hrange⟩ := hw
  obtain ⟨hfour, -, hno⟩ := firstLength_bounds kind
  have hlong := h.long
  have hlen := Patch.length_write w.patch c
  rw [start_setter w (by rw [h.length_kept]; omega) hrange, h.length_kept]
  by_cases hlength : kind.hasLength id = true
  · have hcomm := fun n =>
      Patch.write_comm (apart_lengthPatch (hfield (hasField_of_hasLength hlength)) n)
    by_cases hshort : c.length < w.patch.stop
    · have hwrites : kind.Writes (kind.kept id c) w.patch.stop :=
        ⟨by rw [h.idOf_kept]; exact hlength, by omega⟩
      -- the length that has been kept is written over
      have hover : ∀ n, (kind.lengthPatch n).write (w.patch.write (kind.kept id c)) =
          (kind.lengthPatch n).write (w.patch.write c) := by
        intro n
        unfold Kind.kept
        split_ifs
        · rw [hcomm, write_lengthPatch]
        · rfl
      have hnext : kind.kept id (w.patch.write c) =
          (kind.lengthPatch w.patch.stop).write (w.patch.write c) := by
        unfold Kind.kept
        rw [if_pos ⟨hlength, by omega⟩, hlen, Nat.max_eq_right (Nat.le_of_lt hshort)]
      rw [if_pos hshort, hnext]
      unfold Kind.grown
      rw [if_pos hwrites, hcomm, Patch.write_grow (Nat.le_refl _), hover]
    · have hsame : (w.patch.write c).length = c.length := by omega
      rw [if_neg hshort]
      unfold Kind.kept
      rw [hsame]
      split_ifs
      · rw [hcomm]
      · rfl
  · have hkept : ∀ d, kind.kept id d = d := fun d => if_neg fun hboth => hlength hboth.1
    have hnot : ¬ kind.Writes c w.patch.stop := fun hwrites => hlength (h.idOf ▸ hwrites.1)
    rw [hkept, hkept]
    split_ifs
    · unfold Kind.grown
      rw [if_neg hnot, Patch.write_grow (Nat.le_refl _)]
    · rfl

theorem begun_writeAll (h : Begun kind id c) {ws : List Setter}
    (hws : ∀ w ∈ ws, w.Behind kind id) :
    Begun kind id (Patch.writeAll c (ws.map Setter.patch)) := by
  induction ws generalizing c with
  | nil => exact h
  | cons w ws ih =>
    obtain ⟨hindex, hfield, -⟩ := hws w List.mem_cons_self
    exact ih (h.write hindex hfield) fun v hv => hws v (List.mem_cons_of_mem w hv)

theorem start_runAll (h : Begun kind id c) {ws : List Setter}
    (hws : ∀ w ∈ ws, w.Behind kind id) :
    start (runAll kind ws) (some (kind.kept id c)) =
      (.ok (), some (kind.kept id (Patch.writeAll c (ws.map Setter.patch)))) := by
  induction ws generalizing c with
  | nil => rfl
  | cons w ws ih =>
    have hw := hws w List.mem_cons_self
    exact (start_bind_ok (start_setter_kept h hw)).trans
      (ih (h.write hw.1 hw.2.1) fun v hv => hws v (List.mem_cons_of_mem w hv))

theorem idOf_le32 (id : UInt32) : idOf (le32 id) = id := by
  unfold idOf
  rw [List.take_of_length_le (Nat.le_refl 4), ofLe_le32]
  exact UInt32.ofNat_toNat

end Built

/-! ## Commands -/

section Commands

variable {id : UInt32} {c : List UInt8}

/-- **The bytes of a command** with an id, to which bytes have been written. -/
def commandBytes (id : UInt32) (ps : List Patch) : List UInt8 :=
  Kind.command.kept id (Patch.writeAll (le32 id) ps)

theorem begun_le32 (id : UInt32) : Begun .command id (le32 id) where
  idOf := idOf_le32 id
  long := Nat.le_refl 4
  room := fun _ hfirst => absurd hfirst (Nat.lt_irrefl 4)

theorem start_cmpCommand (id : UInt32) (s : Option (List UInt8)) :
    start (cmpCommand id) s = (.ok (), some (commandBytes id [])) := by
  have hlength : start (setLength (setIntUpTo .command 2) .command 4)
      (some (List.replicate 4 (0 : UInt8))) = (.ok (), some (List.replicate 4 (0 : UInt8))) := by
    rw [start_setLength (show 4 ≤ (List.replicate 4 (0 : UInt8)).length by decide),
      if_neg fun hwrites => absurd hwrites.2 (by decide)]
  have hcreate : start (createEmptyContentIfNeeded (setIntUpTo .command 2) .command 0 4) none =
      (.ok (), some (List.replicate 4 (0 : UInt8))) :=
    (start_bind_ok (start_get none)).trans ((start_bind_ok (start_set _ _)).trans hlength)
  have hbytes : commandBytes id [] = le32 id :=
    if_neg fun hboth => Nat.lt_irrefl 4 hboth.2
  have hassign := @start_assign (List.replicate 4 (0 : UInt8)) ⟨0, le32 id⟩ (Nat.le_refl 4)
  rw [hbytes]
  unfold cmpCommand setInt setIntUpTo
  exact (start_bind_ok (start_set _ _)).trans ((start_bind_ok hcreate).trans hassign)

/-- The bytes of a command have its length already. -/
theorem stamp_kept (h : Begun .command id c) :
    Kind.command.stamp (Kind.command.kept id c) = Kind.command.kept id c := by
  refine (stamp_eq_self_iff .command _).mpr fun hwrites => ?_
  have hkeeps : Kind.command.hasLength id = true ∧ Kind.command.firstLength < c.length := by
    unfold Kind.Writes at hwrites
    rw [h.idOf_kept, h.length_kept] at hwrites
    exact hwrites
  rw [h.length_kept]
  unfold Kind.kept
  rw [if_pos hkeeps]
  exact Patch.heldBy_write _ _

/-- **Commands**: whatever an application sets behind the header, the bytes are the id and all that
it has set, with the length of the whole in its place, and the constructor that takes these bytes
changes nothing. -/
theorem command_built (id : UInt32) {ws : List Setter} (hws : ∀ w ∈ ws, w.Behind .command id)
    (s t : Option (List UInt8)) :
    start (do cmpCommand id; runAll .command ws) s =
        (.ok (), some (commandBytes id (ws.map Setter.patch))) ∧
      start (setContent .command (commandBytes id (ws.map Setter.patch))) t =
        (.ok (), some (commandBytes id (ws.map Setter.patch))) := by
  have hbegun := begun_writeAll (begun_le32 id) hws
  have hlong : 4 ≤ (commandBytes id (ws.map Setter.patch)).length :=
    Nat.le_trans hbegun.long (Nat.le_of_eq hbegun.length_kept.symm)
  refine ⟨(start_bind_ok (start_cmpCommand id s)).trans (start_runAll (begun_le32 id) hws), ?_⟩
  rw [start_setContent, if_pos hlong]
  unfold commandBytes
  rw [stamp_kept hbegun]

/-- A word, three bytes behind a gap, and a word over the last of them. -/
def setters : List Setter := [.int 8 0x01020304, .byteArray 14 [5, 6, 7], .int 16 8]

theorem command_built_setters :
    start (do cmpCommand 12; runAll .command setters) none =
        (.ok (), some [12, 0, 0, 0, 20, 0, 0, 0, 4, 3, 2, 1, 0, 0, 5, 6, 8, 0, 0, 0]) ∧
      start (setContent .command (commandBytes 12 (setters.map Setter.patch))) none =
        (.ok (), some (commandBytes 12 (setters.map Setter.patch))) :=
  @command_built 12 setters (by decide) none none

/-- **What has been set is read back**, if nothing has been set over it. -/
theorem set_then_get (id : UInt32) {before later : List Setter} {w : Setter}
    (hws : ∀ v ∈ before ++ w :: later, v.Behind .command id)
    (hlater : ∀ v ∈ later, w.patch.Apart v.patch) (s : Option (List UInt8)) :
    start (do
        cmpCommand id
        runAll .command (before ++ w :: later)
        getByteArray w.patch.index w.patch.bytes.length) s =
      (.ok w.patch.bytes, some (commandBytes id ((before ++ w :: later).map Setter.patch))) := by
  obtain ⟨-, hfield, -⟩ := hws w (List.mem_append_right before List.mem_cons_self)
  have hheld : w.patch.HeldBy
      (Patch.writeAll (le32 id) ((before ++ w :: later).map Setter.patch)) := by
    rw [List.map_append]
    refine Patch.heldBy_writeAll (le32 id) (before.map Setter.patch) w.patch fun q hq => ?_
    obtain ⟨v, hv, rfl⟩ := List.mem_map.mp hq
    exact hlater v hv
  have hcommand : w.patch.HeldBy (commandBytes id ((before ++ w :: later).map Setter.patch)) := by
    unfold commandBytes Kind.kept
    split_ifs with hkeeps
    · exact hheld.write (apart_lengthPatch (hfield hkeeps.1) _)
    · exact hheld
  have hget : start (getByteArray w.patch.index w.patch.bytes.length)
      (some (commandBytes id ((before ++ w :: later).map Setter.patch))) =
        (.ok w.patch.bytes, some (commandBytes id ((before ++ w :: later).map Setter.patch))) := by
    have hinside : w.patch.index + w.patch.bytes.length ≤ _ := hcommand.inside
    unfold getByteArray
    rw [start_bind_ok (start_content _), if_pos (by omega), Int.toNat_natCast, hcommand.slice]
    rfl
  have hset := start_cmpCommand id s
  have hrun := start_runAll (begun_le32 id) hws
  exact (start_bind_ok hset).trans ((start_bind_ok hrun).trans hget)

theorem set_then_get_setters :
    start (do
        cmpCommand 12
        runAll .command setters
        getByteArray 8 4) none =
      (.ok [4, 3, 2, 1], some (commandBytes 12 (setters.map Setter.patch))) :=
  @set_then_get 12 [] setters.tail (.int 8 0x01020304) (by decide) (by decide) none

end Commands

/-! ## Responses -/

section Responses

/-- **The bytes of a response** with an id, to which bytes have been written.  The setter of the id
has put the length of the id alone into the length field. -/
def responseBytes (id : UInt32) (ps : List Patch) : List UInt8 :=
  Kind.response.kept id (Patch.writeAll (le32 id) (Kind.response.lengthPatch 4 :: ps))

theorem begun_header (id : UInt32) :
    Begun .response id ((Kind.response.lengthPatch 4).write (le32 id)) where
  idOf := (idOf_write (show 4 ≤ 8 by decide) (show 4 ≤ (le32 id).length from
    Nat.le_refl 4)).trans (idOf_le32 id)
  long := Nat.le_refl 12
  room := fun _ _ => Nat.le_refl 12

theorem start_setResponseId (id : UInt32) :
    start (setInt .response 0 id) none = (.ok (), some (responseBytes id [])) := by
  have hwrites : Kind.response.Writes (List.replicate 4 (0 : UInt8)) 4 := by decide
  have hlength : start (setLength (setIntUpTo .response 2) .response 4)
      (some (List.replicate 4 (0 : UInt8))) =
        (.ok (), some ((Kind.response.lengthPatch 4).write (List.replicate 4 (0 : UInt8)))) := by
    rw [start_setLength (show 4 ≤ (List.replicate 4 (0 : UInt8)).length by decide), if_pos hwrites]
    exact start_setInt_lengthIdx
  have hcreate : start (createEmptyContentIfNeeded (setIntUpTo .response 2) .response 0 4) none =
      (.ok (), some ((Kind.response.lengthPatch 4).write (List.replicate 4 (0 : UInt8)))) :=
    (start_bind_ok (start_get none)).trans ((start_bind_ok (start_set _ _)).trans hlength)
  have hbytes : responseBytes id [] = Patch.write ⟨0, le32 id⟩
      ((Kind.response.lengthPatch 4).write (List.replicate 4 (0 : UInt8))) := by
    rw [Patch.write_comm (show Patch.Apart ⟨0, le32 id⟩ (Kind.response.lengthPatch 4) from
      .inl (show 4 ≤ 8 by decide))]
    exact if_neg fun hboth => Nat.lt_irrefl 12 hboth.2
  rw [hbytes]
  unfold setInt setIntUpTo
  exact (start_bind_ok hcreate).trans (@start_assign
    ((Kind.response.lengthPatch 4).write (List.replicate 4 (0 : UInt8))) ⟨0, le32 id⟩
    (show 4 ≤ 12 by decide))

/-- **Responses**: the bytes are the id and all that has been set beside the length field.  The
field has the length of the response exactly if a length is kept for the id and the response goes
beyond its header; else it has that of the id. -/
theorem response_built (id : UInt32) {ws : List Setter}
    (hws : ∀ w ∈ ws, w.Behind .response id) :
    start (do setInt .response 0 id; runAll .response ws) none =
        (.ok (), some (responseBytes id (ws.map Setter.patch))) ∧
      ((Kind.response.lengthPatch (responseBytes id (ws.map Setter.patch)).length).HeldBy
          (responseBytes id (ws.map Setter.patch)) ↔
        Kind.response.hasLength id = true ∧
          12 < (responseBytes id (ws.map Setter.patch)).length) := by
  have hbegun := begun_writeAll (begun_header id) hws
  have hset := start_setResponseId id
  have hlength : (responseBytes id (ws.map Setter.patch)).length =
      (Patch.writeAll (le32 id) (Kind.response.lengthPatch 4 :: ws.map Setter.patch)).length :=
    hbegun.length_kept
  refine ⟨(start_bind_ok hset).trans (start_runAll (begun_header id) hws), ?_⟩
  rw [hlength]
  constructor
  · intro hheld
    by_contra hnot
    have hkept : responseBytes id (ws.map Setter.patch) =
        Patch.writeAll (le32 id) (Kind.response.lengthPatch 4 :: ws.map Setter.patch) := if_neg hnot
    have hfour : (Kind.response.lengthPatch 4).HeldBy
        (Patch.writeAll (le32 id) (Kind.response.lengthPatch 4 :: ws.map Setter.patch)) := by
      refine Patch.heldBy_writeAll (le32 id) [] _ fun q hq => ?_
      obtain ⟨w, hw, rfl⟩ := List.mem_map.mp hq
      exact ((hws w hw).2.1 rfl).symm
    have hshort : (Patch.writeAll (le32 id)
        (Kind.response.lengthPatch 4 :: ws.map Setter.patch)).length ≤ 2 ^ 31 := by
      refine Patch.length_writeAll_le (show 4 ≤ 2 ^ 31 by decide) fun q hq => ?_
      rcases List.mem_cons.mp hq with rfl | hmem
      · exact show 12 ≤ 2 ^ 31 by decide
      · obtain ⟨w, hw, rfl⟩ := List.mem_map.mp hmem
        exact Nat.le_of_lt (hws w hw).2.2
    have hlong : 12 ≤ (Patch.writeAll (le32 id)
        (Kind.response.lengthPatch 4 :: ws.map Setter.patch)).length := hbegun.long
    rw [hkept] at hheld
    generalize Patch.writeAll (le32 id) (Kind.response.lengthPatch 4 :: ws.map Setter.patch) = c
      at hheld hfour hshort hlong
    -- the field cannot have both lengths
    have hsame : le32 (UInt32.ofNat c.length) = le32 (UInt32.ofNat 4) :=
      hheld.slice.symm.trans hfour.slice
    have hnat := congrArg ofLe hsame
    rw [ofLe_le32, ofLe_le32, UInt32.toNat_ofNat', UInt32.toNat_ofNat'] at hnat
    omega
  · intro hkeeps
    have hkept : responseBytes id (ws.map Setter.patch) = _ := if_pos hkeeps
    rw [hkept]
    exact Patch.heldBy_write _ _

theorem response_built_returnCode :
    start (do setInt .response 0 0x8000000C; runAll .response [.int 4 1]) none =
        (.ok (), some [12, 0, 0, 128, 1, 0, 0, 0, 4, 0, 0, 0]) ∧
      ((Kind.response.lengthPatch (responseBytes 0x8000000C [⟨4, le32 1⟩]).length).HeldBy
          (responseBytes 0x8000000C [⟨4, le32 1⟩]) ↔
        Kind.response.hasLength 0x8000000C = true ∧
          12 < (responseBytes 0x8000000C [⟨4, le32 1⟩]).length) :=
  @response_built 0x8000000C [.int 4 1] (by decide)

end Responses

end McDaemon.RootPa.CmpMsg
