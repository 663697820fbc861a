/-
# McDaemon.Lib.WireFormat — messages as tagged records, read and written by table.

A message class is a table of fields.  A message is written field by field, each value behind its
tag, and what its class did not know when it was read comes last.  It is read tag by tag, in any
order, into a message that may hold values already.  A reader may take a tag it expects without
looking it up, and it may stop where it sees the end; what it reads is the same.

The streams below the tables are a parameter, with what is documented of them as a structure of
laws.  From the laws, reading what was written merges it, whatever the class.
-/
import Mathlib.Algebra.GroupWithZero.Nat
import Mathlib.Data.List.Nodup
import Mathlib.Data.List.TakeWhile
import Mathlib.Tactic.SplitIfs

namespace McDaemon.Lib

/-! ## Codecs and streams -/

/-- The messages that can be read are shorter than this: the streams have a limit of 64 MiB, unless
they are told another. -/
def wireLimit : Nat := 0x4000000

/-- How the values of a type are written and read.  The size is computed ahead of the writing. -/
structure Codec (α : Type) where
  write : α → List UInt8
  size : α → Nat
  read : List UInt8 → Option (α × List UInt8)

/-- A codec reads back what it writes, and nothing of what is behind it. -/
structure Codec.Lawful {α : Type} (c : Codec α) : Prop where
  read_write : ∀ a rest, (c.write a).length < wireLimit → c.read (c.write a ++ rest) = some (a, rest)
  size_eq : ∀ a, c.size a = (c.write a).length
  read_length : ∀ bs a rest, c.read bs = some (a, rest) → rest.length ≤ bs.length

/-- The streams of a runtime for tagged records.  A tag is written as a varint; `readTag` is `none`
at the end of the stream.  `skipField` gives what is kept of a field, and what is behind it. -/
structure WireRuntime where
  writeVarint32 : UInt32 → List UInt8
  readTag : List UInt8 → Option (UInt32 × List UInt8)
  expectTag : UInt32 → List UInt8 → Option (List UInt8)
  expectAtEnd : List UInt8 → Bool
  skipField : UInt32 → List UInt8 → Option (List UInt8 × List UInt8)
  delimited : Codec (List UInt8)
  delimitedSize : Nat → Nat

/-- What is documented of the streams. -/
structure WireRuntime.Documented (R : WireRuntime) : Prop where
  readTag_nil : R.readTag [] = none
  readTag_writeVarint32 : ∀ t rest, t ≠ 0 → R.readTag (R.writeVarint32 t ++ rest) = some (t, rest)
  writeVarint32_length : ∀ t, t < 128 → (R.writeVarint32 t).length = 1
  readTag_length : ∀ bs t rest, R.readTag bs = some (t, rest) → rest.length < bs.length
  expectTag_eq : ∀ t bs rest, R.expectTag t bs = some rest → R.readTag bs = some (t, rest)
  expectAtEnd_eq : ∀ bs, R.expectAtEnd bs = true → R.readTag bs = none
  delimited_lawful : R.delimited.Lawful
  delimited_length : ∀ w, w.length ≤ (R.delimited.write w).length
  delimitedSize_eq : ∀ w, R.delimitedSize w.length = (R.delimited.write w).length
  skipField_length : ∀ t bs kept rest, R.skipField t bs = some (kept, rest) → rest.length ≤ bs.length
  /-- What is kept of a field is that field again. -/
  skipField_kept : ∀ t bs kept rest, R.skipField t bs = some (kept, rest) →
    ∃ payload, ∀ more, R.readTag (kept ++ more) = some (t, payload ++ more) ∧
      R.skipField t (payload ++ more) = some (kept, more)

/-! ## Message classes -/

/-- A field of a class.  `write` is all its values in a message, each behind the tag; `read` takes
one value into a message, and `merge` all that another message has. -/
structure WireField (M : Type) where
  tag : UInt32
  repeated : Bool
  write : M → List UInt8
  size : M → Nat
  read : List UInt8 → M → Option (M × List UInt8)
  merge : M → M → M
  isInitialized : M → Bool

/-- Reading a value does not lengthen the stream. -/
def WireField.Shortens {M : Type} (f : WireField M) : Prop :=
  ∀ bs m m' rest, f.read bs m = some (m', rest) → rest.length ≤ bs.length

/-- A message class, by its table.  Unknown fields are kept as they come. -/
structure MessageClass (M : Type) where
  empty : M
  fields : List (WireField M)
  unknown : M → List UInt8
  setUnknown : List UInt8 → M → M

namespace MessageClass

variable {M : Type} (c : MessageClass M) (R : WireRuntime)

def addUnknown (w : List UInt8) (m : M) : M := c.setUnknown (c.unknown m ++ w) m

def serialize (m : M) : List UInt8 := c.fields.flatMap (·.write m) ++ c.unknown m

def byteSize (m : M) : Nat := (c.fields.map (·.size m)).sum + (c.unknown m).length

def isInitialized (m : M) : Bool := c.fields.all (·.isInitialized m)

/-- `source` merged into `m`. -/
def mergeFrom (source m : M) : M :=
  c.addUnknown (c.unknown source) (c.fields.foldl (fun acc f => f.merge source acc) m)

/-! ## Reading -/

/-- A tag that ends the message: zero, which is no tag, or the end of a group. -/
def endsMessage (tag : UInt32) : Bool := tag = 0 || tag % 8 = 4

/-- What the reader finds: the end of the stream or an ending tag, a field of the table with the
rows from it on, or a field that the table does not have. -/
inductive Found (M : Type)
  | done (atEnd : Bool)
  | field (f : WireField M) (more : List (WireField M)) (bs : List UInt8)
  | unknown (tag : UInt32) (bs : List UInt8)

/-- The reader at a label, which is the rows of the table from a field on, or with no label, where
it reads a tag. -/
def find : List (WireField M) → List UInt8 → Found M
  | f :: more, bs => .field f more bs
  | [], bs =>
    match R.readTag bs with
    | none => .done true
    | some (tag, rest) =>
      match c.fields.dropWhile fun f => f.tag ≠ tag with
      | f :: more => .field f more rest
      | [] => if endsMessage tag then .done false else .unknown tag rest

/-- Where the reader goes behind a value. -/
inductive Jump (M : Type)
  | goto (label : List (WireField M)) (bs : List UInt8)
  | success

/-- A reader that always goes back for a tag. -/
def plainJump (_ : WireField M) (_ : List (WireField M)) (bs : List UInt8) : Jump M := .goto [] bs

/-- A reader that expects another value of a repeated field, then the field of the next row, or the
end of the stream behind the last one. -/
def fastJump (f : WireField M) (more : List (WireField M)) (bs : List UInt8) : Jump M :=
  match (if f.repeated then R.expectTag f.tag bs else none) with
  | some rest => .goto (f :: more) rest
  | none =>
    match more with
    | g :: _ =>
      match R.expectTag g.tag bs with
      | some rest => .goto more rest
      | none => .goto [] bs
    | [] => if R.expectAtEnd bs then .success else .goto [] bs

/-- The loop of a reader.  The result tells whether the stream has been read to its end. -/
def mergeLoop (jump : WireField M → List (WireField M) → List UInt8 → Jump M) :
    Nat → List (WireField M) → List UInt8 → M → Option (M × Bool)
  | 0, _, _, _ => none
  | n + 1, label, bs, m =>
    match c.find R label bs with
    | .done atEnd => some (m, atEnd)
    | .field f more bs =>
      match f.read bs m with
      | none => none
      | some (m, rest) =>
        match jump f more rest with
        | .goto label rest => mergeLoop jump n label rest m
        | .success => some (m, true)
    | .unknown tag bs =>
      match R.skipField tag bs with
      | none => none
      | some (kept, rest) => mergeLoop jump n [] rest (c.addUnknown kept m)

/-- The rounds that a reader can need. -/
def rounds (label : List (WireField M)) (bs : List UInt8) : Nat :=
  2 * bs.length + if label.isEmpty then 1 else 2

/-- Read a stream into a message. -/
def mergePartial (bs : List UInt8) (m : M) : Option (M × Bool) :=
  c.mergeLoop R (fastJump R) (rounds ([] : List (WireField M)) bs) [] bs m

/-- Read a message: all of the stream, and with all its required fields. -/
def parse (bs : List UInt8) : Option M :=
  match c.mergePartial R bs c.empty with
  | some (m, true) => if c.isInitialized m then some m else none
  | _ => none

/-! ## The ways to read agree -/

/-- What a table owes its reader: each field has a tag of its own, and reading a value does not
lengthen the stream. -/
structure Readable : Prop where
  tags_nodup : (c.fields.map WireField.tag).Nodup
  tags_ne_zero : 0 ∉ c.fields.map WireField.tag
  read_length : ∀ f ∈ c.fields, f.Shortens

/-- Behind a value, a reader is where a reader of tags would be. -/
def Sound (jump : WireField M → List (WireField M) → List UInt8 → Jump M) : Prop :=
  ∀ f more bs, f :: more <:+ c.fields →
    match jump f more bs with
    | .goto label rest =>
      label <:+ c.fields ∧ c.find R label rest = c.find R [] bs ∧
        rounds label rest ≤ rounds ([] : List (WireField M)) bs
    | .success => c.find R [] bs = .done true

variable {c R}

theorem Readable.of_tags (tags : List UInt32) (htags : c.fields.map WireField.tag = tags)
    (hnodup : (0 :: tags).Nodup) (h : c.fields.Forall WireField.Shortens) : c.Readable where
  tags_nodup := htags ▸ (List.nodup_cons.mp hnodup).2
  tags_ne_zero := htags ▸ (List.nodup_cons.mp hnodup).1
  read_length := List.forall_iff_forall_mem.mp h

theorem Readable.tag_ne_zero (hc : c.Readable) {f : WireField M} (hf : f ∈ c.fields) : f.tag ≠ 0 :=
  fun h => hc.tags_ne_zero (h ▸ List.mem_map_of_mem hf)

theorem plainJump_sound : c.Sound R plainJump :=
  fun _ _ _ _ => ⟨List.nil_suffix, rfl, Nat.le_refl _⟩

/-- The rows from a field on are found by its tag. -/
theorem dropWhile_tag (hc : c.Readable) {f : WireField M} {more : List (WireField M)}
    (h : f :: more <:+ c.fields) : (c.fields.dropWhile fun g => g.tag ≠ f.tag) = f :: more := by
  obtain ⟨before, hbefore⟩ := h
  have hnodup := hc.tags_nodup
  rw [← hbefore, List.map_append, List.map_cons] at hnodup
  have hne : ∀ g ∈ before, decide (g.tag ≠ f.tag) = true := by
    intro g hg
    have hdisjoint := List.nodup_append.mp hnodup
    exact decide_eq_true
      (hdisjoint.2.2 g.tag (List.mem_map_of_mem hg) f.tag List.mem_cons_self)
  rw [← hbefore, List.dropWhile_append_of_pos hne, List.dropWhile_cons_of_neg (by simp)]

/-- Where a tag of the table is next, the reader finds its field. -/
theorem find_of_readTag (hc : c.Readable) {f : WireField M} {more : List (WireField M)}
    (h : f :: more <:+ c.fields) {bs rest : List UInt8} (htag : R.readTag bs = some (f.tag, rest)) :
    c.find R [] bs = .field f more rest := by
  rw [find, htag]
  simp only [dropWhile_tag hc h]

theorem fastJump_sound (hR : R.Documented) (hc : c.Readable) : c.Sound R (fastJump R) := by
  have hgoto : ∀ (g : WireField M) (rows : List (WireField M)) (bs rest : List UInt8),
      g :: rows <:+ c.fields → R.expectTag g.tag bs = some rest →
      g :: rows <:+ c.fields ∧ c.find R (g :: rows) rest = c.find R [] bs ∧
        rounds (g :: rows) rest ≤ rounds ([] : List (WireField M)) bs := by
    intro g rows bs rest hsuffix hexpect
    have htag := hR.expectTag_eq _ _ _ hexpect
    have hlen := hR.readTag_length _ _ _ htag
    refine ⟨hsuffix, ?_, ?_⟩
    · rw [find_of_readTag hc hsuffix htag]
      rfl
    · simp only [rounds, List.isEmpty_cons, List.isEmpty_nil, if_true, Bool.false_eq_true, if_false]
      omega
  intro f more bs hsuffix
  unfold fastJump
  cases hown : (if f.repeated then R.expectTag f.tag bs else none) with
  | some rest =>
    split_ifs at hown
    exact hgoto f more bs rest hsuffix hown
  | none =>
    cases more with
    | cons g rows =>
      have hrows : g :: rows <:+ c.fields := (List.suffix_cons f (g :: rows)).trans hsuffix
      cases hnext : R.expectTag g.tag bs with
      | some rest =>
        simp only [hnext]
        exact hgoto g rows bs rest hrows hnext
      | none =>
        simp only [hnext]
        exact ⟨List.nil_suffix, trivial, Nat.le_refl _⟩
    | nil =>
      by_cases hend : R.expectAtEnd bs = true
      · simp only [hend, if_true]
        rw [find, hR.expectAtEnd_eq bs hend]
      · simp only [hend, if_false, Bool.false_eq_true]
        exact ⟨List.nil_suffix, trivial, Nat.le_refl _⟩

/-- What is behind the tag that the reader has found. -/
theorem find_field_rounds (hR : R.Documented) {label : List (WireField M)} {bs : List UInt8}
    (hlabel : label <:+ c.fields) {f : WireField M} {more : List (WireField M)} {rest : List UInt8}
    (h : c.find R label bs = .field f more rest) :
    f :: more <:+ c.fields ∧ 2 * rest.length + 2 ≤ rounds label bs := by
  cases label with
  | cons g rows =>
    cases h
    exact ⟨hlabel, Nat.le_refl _⟩
  | nil =>
    rw [find] at h
    cases htag : R.readTag bs with
    | none =>
      rw [htag] at h
      cases h
    | some found =>
      obtain ⟨tag, behind⟩ := found
      have hlen := hR.readTag_length _ _ _ htag
      simp only [htag] at h
      cases hrows : c.fields.dropWhile fun f => f.tag ≠ tag with
      | nil =>
        rw [hrows] at h
        dsimp only at h
        split_ifs at h
      | cons g rows =>
        rw [hrows] at h
        cases h
        refine ⟨hrows ▸ List.dropWhile_suffix _, ?_⟩
        simp only [rounds, List.isEmpty_nil, if_true]
        omega

theorem find_unknown_rounds (hR : R.Documented) {label : List (WireField M)} {bs : List UInt8}
    {tag : UInt32} {rest : List UInt8} (h : c.find R label bs = .unknown tag rest) :
    2 * rest.length + 2 ≤ rounds label bs := by
  cases label with
  | cons g rows => cases h
  | nil =>
    rw [find] at h
    cases htag : R.readTag bs with
    | none =>
      rw [htag] at h
      cases h
    | some found =>
      obtain ⟨tag', behind⟩ := found
      have hlen := hR.readTag_length _ _ _ htag
      simp only [htag] at h
      cases hrows : c.fields.dropWhile fun f => f.tag ≠ tag' with
      | cons g rows =>
        rw [hrows] at h
        cases h
      | nil =>
        rw [hrows] at h
        dsimp only at h
        split_ifs at h
        cases h
        simp only [rounds, List.isEmpty_nil, if_true]
        omega

/-- **The ways to read agree.** Two sound readers that find the same make the same of it. -/
theorem mergeLoop_congr (hR : R.Documented) (hc : c.Readable)
    {jump₁ jump₂ : WireField M → List (WireField M) → List UInt8 → Jump M}
    (h₁ : c.Sound R jump₁) (h₂ : c.Sound R jump₂) {n k : Nat} {label₁ label₂ : List (WireField M)}
    {bs₁ bs₂ : List UInt8} (m : M) (hl₁ : label₁ <:+ c.fields) (hl₂ : label₂ <:+ c.fields)
    (hfind : c.find R label₁ bs₁ = c.find R label₂ bs₂) (hn : rounds label₁ bs₁ ≤ n)
    (hk : rounds label₂ bs₂ ≤ k) :
    c.mergeLoop R jump₁ n label₁ bs₁ m = c.mergeLoop R jump₂ k label₂ bs₂ m := by
  have hpos : ∀ (label : List (WireField M)) (bs : List UInt8), 1 ≤ rounds label bs := by
    intro label bs
    unfold rounds
    split <;> omega
  induction n generalizing k label₁ label₂ bs₁ bs₂ m with
  | zero => exact absurd (hpos label₁ bs₁) (by omega)
  | succ n ih =>
    obtain ⟨k, rfl⟩ : ∃ j, k = j + 1 := ⟨k - 1, by have := hpos label₂ bs₂; omega⟩
    rw [mergeLoop, mergeLoop, ← hfind]
    cases hfound : c.find R label₁ bs₁ with
    | done atEnd => rfl
    | unknown tag bs =>
      have hr₁ := find_unknown_rounds hR hfound
      have hr₂ := find_unknown_rounds hR (hfind ▸ hfound)
      dsimp only
      cases hskip : R.skipField tag bs with
      | none => rfl
      | some skipped =>
        obtain ⟨kept, rest⟩ := skipped
        have hlen := hR.skipField_length _ _ _ _ hskip
        refine ih _ List.nil_suffix List.nil_suffix rfl ?_ ?_ <;>
          (simp only [rounds, List.isEmpty_nil, if_true]; omega)
    | field f more bs =>
      obtain ⟨hsuffix, hr₁⟩ := find_field_rounds hR hl₁ hfound
      obtain ⟨-, hr₂⟩ := find_field_rounds hR hl₂ (hfind ▸ hfound)
      dsimp only
      cases hread : f.read bs m with
      | none => rfl
      | some result =>
        obtain ⟨m', rest⟩ := result
        have hlen := hc.read_length f (hsuffix.subset List.mem_cons_self) bs m m' rest hread
        have hrounds : rounds ([] : List (WireField M)) rest = 2 * rest.length + 1 := rfl
        have hs₁ := h₁ f more rest hsuffix
        have hs₂ := h₂ f more rest hsuffix
        cases hj₁ : jump₁ f more rest with
        | goto l₁ r₁ =>
          rw [hj₁] at hs₁
          obtain ⟨hs₁, hf₁, hm₁⟩ := hs₁
          cases hj₂ : jump₂ f more rest with
          | goto l₂ r₂ =>
            rw [hj₂] at hs₂
            obtain ⟨hs₂, hf₂, hm₂⟩ := hs₂
            simp only [hj₁, hj₂]
            exact ih m' hs₁ hs₂ (hf₁.trans hf₂.symm) (by omega) (by omega)
          | success =>
            -- the second reader stops; the first one finds the end
            rw [hj₂] at hs₂
            obtain ⟨j, rfl⟩ : ∃ j, n = j + 1 := ⟨n - 1, by have := hpos l₁ r₁; omega⟩
            simp only [hj₁, hj₂]
            rw [mergeLoop, hf₁.trans hs₂]
        | success =>
          rw [hj₁] at hs₁
          cases hj₂ : jump₂ f more rest with
          | goto l₂ r₂ =>
            rw [hj₂] at hs₂
            obtain ⟨hs₂, hf₂, hm₂⟩ := hs₂
            obtain ⟨j, rfl⟩ : ∃ j, k = j + 1 := ⟨k - 1, by have := hpos l₂ r₂; omega⟩
            simp only [hj₁, hj₂]
            rw [mergeLoop, hf₂.trans hs₁]
          | success => simp only [hj₁, hj₂]

/-! ## One tag after another -/

theorem mergePartial_eq (hR : R.Documented) (hc : c.Readable) (bs : List UInt8) (m : M) {k : Nat}
    (hk : rounds ([] : List (WireField M)) bs ≤ k) :
    c.mergePartial R bs m = c.mergeLoop R plainJump k [] bs m :=
  mergeLoop_congr hR hc (fastJump_sound hR hc) plainJump_sound m List.nil_suffix List.nil_suffix
    rfl (Nat.le_refl _) hk

/-- A round of the reader without its fuel. -/
theorem mergePartial_round (hR : R.Documented) (hc : c.Readable) (bs : List UInt8) (m : M) :
    c.mergePartial R bs m =
      match c.find R [] bs with
      | .done atEnd => some (m, atEnd)
      | .field f _ bs =>
        match f.read bs m with
        | none => none
        | some (m, rest) => c.mergePartial R rest m
      | .unknown tag bs =>
        match R.skipField tag bs with
        | none => none
        | some (kept, rest) => c.mergePartial R rest (c.addUnknown kept m) := by
  have hrounds : ∀ rest : List UInt8, rounds ([] : List (WireField M)) rest = 2 * rest.length + 1 :=
    fun _ => rfl
  rw [mergePartial_eq hR hc bs m (Nat.le_refl _), hrounds, mergeLoop]
  cases hfound : c.find R [] bs with
  | done atEnd => rfl
  | field f more behind =>
    obtain ⟨hsuffix, hlen⟩ := find_field_rounds hR List.nil_suffix hfound
    rw [hrounds] at hlen
    dsimp only
    cases hread : f.read behind m with
    | none => rfl
    | some result =>
      obtain ⟨m', rest⟩ := result
      have hshorter := hc.read_length f (hsuffix.subset List.mem_cons_self) _ _ _ _ hread
      exact (mergePartial_eq hR hc rest m' (by rw [hrounds]; omega)).symm
  | unknown tag behind =>
    have hlen := find_unknown_rounds hR hfound
    rw [hrounds] at hlen
    dsimp only
    cases hskip : R.skipField tag behind with
    | none => rfl
    | some skipped =>
      obtain ⟨kept, rest⟩ := skipped
      have hshorter := hR.skipField_length _ _ _ _ hskip
      exact (mergePartial_eq hR hc rest _ (by rw [hrounds]; omega)).symm

theorem mergePartial_nil (hR : R.Documented) (hc : c.Readable) (m : M) :
    c.mergePartial R [] m = some (m, true) := by
  rw [mergePartial_round hR hc, find, hR.readTag_nil]

/-- From no bytes no message is read but the empty one. -/
theorem eq_empty_of_parse_nil (hR : R.Documented) (hc : c.Readable) {m : M}
    (h : c.parse R [] = some m) : m = c.empty := by
  unfold parse at h
  rw [c.mergePartial_nil hR hc] at h
  exact (Option.some.inj (Option.ite_none_right_eq_some.mp h).2).symm

theorem mergePartial_field (hR : R.Documented) (hc : c.Readable) {f : WireField M}
    (hf : f ∈ c.fields) {bs behind rest : List UInt8} {m m' : M}
    (htag : R.readTag bs = some (f.tag, behind)) (hread : f.read behind m = some (m', rest)) :
    c.mergePartial R bs m = c.mergePartial R rest m' := by
  obtain ⟨before, more, hsplit⟩ := List.append_of_mem hf
  rw [mergePartial_round hR hc, find_of_readTag hc ⟨before, hsplit.symm⟩ htag]
  simp only [hread]

theorem find_unknown {bs behind : List UInt8} {tag : UInt32}
    (htag : R.readTag bs = some (tag, behind)) (hnone : ∀ f ∈ c.fields, f.tag ≠ tag)
    (hend : endsMessage tag = false) : c.find R [] bs = .unknown tag behind := by
  have hrows : c.fields.dropWhile (fun f => f.tag ≠ tag) = [] :=
    List.dropWhile_eq_nil_iff.mpr fun f hf => decide_eq_true (hnone f hf)
  rw [find, htag]
  simp only [hrows, hend, Bool.false_eq_true, if_false]

/-! ## Writing and reading -/

variable (c R)

/-- Bytes that the reader keeps as unknown, wherever they stand. -/
def Unknown (w : List UInt8) : Prop :=
  ∀ rest m, c.mergePartial R (w ++ rest) m = c.mergePartial R rest (c.addUnknown w m)

end MessageClass

/-- The values of a field, each behind its tag, read into a message. -/
inductive WireField.Values {M : Type} (R : WireRuntime) (f : WireField M) : List UInt8 → M → M → Prop
  | nil (m : M) : WireField.Values R f [] m m
  | cons {m a b : M} {p w : List UInt8}
      (head : ∀ rest, f.read (p ++ rest) m = some (a, rest))
      (tail : WireField.Values R f w a b) :
      WireField.Values R f (R.writeVarint32 f.tag ++ p ++ w) m b

/-- A field of a class writes what it reads.  `Inner` is what the class requires of the messages
inside a message. -/
structure WireField.Lawful {M : Type} (R : WireRuntime) (c : MessageClass M) (Inner : M → Prop)
    (f : WireField M) : Prop where
  size_eq : ∀ m, f.size m = (f.write m).length
  reads : ∀ source m, Inner source → (f.write source).length < wireLimit →
    WireField.Values R f (f.write source) m (f.merge source m)
  read_inner : ∀ bs m m' rest, f.read bs m = some (m', rest) → Inner m → Inner m'
  read_unknown : ∀ bs m m' rest, f.read bs m = some (m', rest) →
    ∃ w, c.unknown m' = c.unknown m ++ w ∧ c.Unknown R w

/-- What is unknown of a message can be set, and nothing else changes by that. -/
structure MessageClass.KeepsUnknown {M : Type} (c : MessageClass M) (Inner : M → Prop) : Prop where
  inner_setUnknown : ∀ w m, Inner m → Inner (c.setUnknown w m)
  unknown_empty : c.unknown c.empty = []
  unknown_setUnknown : ∀ w m, c.unknown (c.setUnknown w m) = w
  setUnknown_setUnknown : ∀ v w m, c.setUnknown w (c.setUnknown v m) = c.setUnknown w m
  setUnknown_unknown : ∀ m, c.setUnknown (c.unknown m) m = m

/-- A class whose messages can be read back. -/
structure MessageClass.Lawful {M : Type} (R : WireRuntime) (c : MessageClass M)
    (Inner : M → Prop) : Prop extends c.KeepsUnknown Inner where
  readable : c.Readable
  fields_lawful : ∀ f ∈ c.fields, f.Lawful R c Inner
  mergeFrom_empty : ∀ m, c.mergeFrom m c.empty = m
  inner_empty : Inner c.empty

namespace MessageClass

variable {M : Type} {c : MessageClass M} {R : WireRuntime} {Inner : M → Prop}

/-- What is inside a message could have been read. -/
structure Genuine (c : MessageClass M) (R : WireRuntime) (Inner : M → Prop) (m : M) : Prop where
  inner : Inner m
  unknown : c.Unknown R (c.unknown m)

theorem mergePartial_values (hR : R.Documented) (hc : c.Readable) {f : WireField M}
    (hf : f ∈ c.fields) {w : List UInt8} {m m' : M} (h : f.Values R w m m') (rest : List UInt8) :
    c.mergePartial R (w ++ rest) m = c.mergePartial R rest m' := by
  induction h with
  | nil m => rfl
  | cons head _ ih =>
    rw [← ih, List.append_assoc, List.append_assoc]
    exact mergePartial_field hR hc hf
      (hR.readTag_writeVarint32 _ _ (hc.tag_ne_zero hf)) (head _)

theorem mergePartial_fields (hR : R.Documented) (hc : c.Lawful R Inner) {source : M}
    (hsource : Inner source) {fs : List (WireField M)} (hfs : ∀ f ∈ fs, f ∈ c.fields)
    (hlen : (fs.flatMap (·.write source)).length < wireLimit) (rest : List UInt8) (m : M) :
    c.mergePartial R (fs.flatMap (·.write source) ++ rest) m =
      c.mergePartial R rest (fs.foldl (fun acc f => f.merge source acc) m) := by
  induction fs generalizing m with
  | nil => rfl
  | cons f fs ih =>
    rw [List.flatMap_cons, List.length_append] at hlen
    have hf := hfs f List.mem_cons_self
    have hvalues := (hc.fields_lawful f hf).reads source m hsource (by omega)
    rw [List.flatMap_cons, List.append_assoc, mergePartial_values hR hc.readable hf hvalues,
      ih (fun g hg => hfs g (List.mem_cons_of_mem f hg)) (by omega), List.foldl_cons]

/-- **What was written is merged.** -/
theorem mergePartial_serialize (hR : R.Documented) (hc : c.Lawful R Inner) {source : M}
    (hsource : c.Genuine R Inner source) (hlen : (c.serialize source).length < wireLimit)
    (rest : List UInt8) (m : M) :
    c.mergePartial R (c.serialize source ++ rest) m =
      c.mergePartial R rest (c.mergeFrom source m) := by
  rw [serialize, List.length_append] at hlen
  rw [serialize, List.append_assoc,
    mergePartial_fields hR hc hsource.inner (fun _ hf => hf) (by omega), hsource.unknown]
  rfl

theorem mergePartial_written (hR : R.Documented) (hc : c.Lawful R Inner) {source : M}
    (hsource : c.Genuine R Inner source) (hlen : (c.serialize source).length < wireLimit) (m : M) :
    c.mergePartial R (c.serialize source) m = some (c.mergeFrom source m, true) := by
  have h := mergePartial_serialize hR hc hsource hlen [] m
  rwa [List.append_nil, mergePartial_nil hR hc.readable] at h

/-- **Round trip.** -/
theorem parse_serialize (hR : R.Documented) (hc : c.Lawful R Inner) {m : M}
    (hm : c.Genuine R Inner m) (hinit : c.isInitialized m = true)
    (hlen : (c.serialize m).length < wireLimit) : c.parse R (c.serialize m) = some m := by
  rw [parse, mergePartial_written hR hc hm hlen, hc.mergeFrom_empty]
  simp only [hinit, if_true]

theorem byteSize_eq (hc : c.Lawful R Inner) (m : M) :
    c.byteSize m = (c.serialize m).length := by
  have hsum : ∀ fs : List (WireField M), (∀ f ∈ fs, f ∈ c.fields) →
      (fs.map (·.size m)).sum = (fs.flatMap (·.write m)).length := by
    intro fs hfs
    induction fs with
    | nil => rfl
    | cons f fs ih =>
      have hf := (hc.fields_lawful f (hfs f List.mem_cons_self)).size_eq m
      rw [List.map_cons, List.sum_cons, List.flatMap_cons, List.length_append, hf,
        ih fun g hg => hfs g (List.mem_cons_of_mem f hg)]
  rw [byteSize, serialize, List.length_append, hsum c.fields fun _ h => h]

/-! ## What has been read can be read again -/

theorem Unknown.append (hc : c.Lawful R Inner) {v w : List UInt8} (hv : c.Unknown R v)
    (hw : c.Unknown R w) : c.Unknown R (v ++ w) := by
  intro rest m
  rw [List.append_assoc, hv, hw, addUnknown, addUnknown, addUnknown, hc.unknown_setUnknown,
    hc.setUnknown_setUnknown, List.append_assoc]

theorem unknown_nil (h : ∀ m, c.setUnknown (c.unknown m) m = m) : c.Unknown R [] := by
  intro rest m
  rw [List.nil_append, addUnknown, List.append_nil, h]

/-- What is kept of a field that the table does not have. -/
theorem unknown_kept (hR : R.Documented) (hc : c.Lawful R Inner) {tag : UInt32}
    {bs behind kept rest : List UInt8} (hfound : c.find R [] bs = .unknown tag behind)
    (hskip : R.skipField tag behind = some (kept, rest)) : c.Unknown R kept := by
  have hnone : (∀ f ∈ c.fields, f.tag ≠ tag) ∧ endsMessage tag = false := by
    rw [find] at hfound
    cases htag : R.readTag bs with
    | none =>
      rw [htag] at hfound
      cases hfound
    | some found =>
      obtain ⟨tag', behind'⟩ := found
      simp only [htag] at hfound
      cases hrows : c.fields.dropWhile fun f => f.tag ≠ tag' with
      | cons g rows =>
        rw [hrows] at hfound
        cases hfound
      | nil =>
        rw [hrows] at hfound
        dsimp only at hfound
        split_ifs at hfound with hend
        cases hfound
        refine ⟨fun f hf => ?_, by simpa using hend⟩
        exact of_decide_eq_true (List.dropWhile_eq_nil_iff.mp hrows f hf)
  intro more m
  obtain ⟨payload, hpayload⟩ := hR.skipField_kept tag behind kept rest hskip
  obtain ⟨htag, hagain⟩ := hpayload more
  rw [mergePartial_round hR hc.readable, find_unknown htag hnone.1 hnone.2]
  simp only [hagain]

theorem genuine_empty (hc : c.Lawful R Inner) : c.Genuine R Inner c.empty :=
  ⟨hc.inner_empty, by rw [hc.unknown_empty]; exact unknown_nil hc.setUnknown_unknown⟩

/-- Reading keeps a message genuine. -/
theorem Genuine.mergePartial (hR : R.Documented) (hc : c.Lawful R Inner) {bs : List UInt8}
    {m m' : M} {atEnd : Bool} (hm : c.Genuine R Inner m)
    (h : c.mergePartial R bs m = some (m', atEnd)) : c.Genuine R Inner m' := by
  induction hlen : bs.length using Nat.strongRecOn generalizing bs m with
  | ind n ih =>
    rw [mergePartial_round hR hc.readable] at h
    have hrounds : rounds ([] : List (WireField M)) bs = 2 * bs.length + 1 := rfl
    cases hfound : c.find R [] bs with
    | done atEnd' =>
      rw [hfound] at h
      cases h
      exact hm
    | field f more behind =>
      obtain ⟨hsuffix, hshort⟩ := find_field_rounds hR List.nil_suffix hfound
      have hf := hsuffix.subset List.mem_cons_self
      simp only [hfound] at h
      cases hread : f.read behind m with
      | none =>
        rw [hread] at h
        cases h
      | some result =>
        obtain ⟨m₁, rest⟩ := result
        simp only [hread] at h
        have hlaw := hc.fields_lawful f hf
        obtain ⟨w, hw, hunknown⟩ := hlaw.read_unknown _ _ _ _ hread
        have hrest := hc.readable.read_length f hf _ _ _ _ hread
        refine ih rest.length (by omega) ⟨hlaw.read_inner _ _ _ _ hread hm.inner, ?_⟩ h rfl
        rw [hw]
        exact hm.unknown.append hc hunknown
    | unknown tag behind =>
      have hshort := find_unknown_rounds hR hfound
      simp only [hfound] at h
      cases hskip : R.skipField tag behind with
      | none =>
        rw [hskip] at h
        cases h
      | some skipped =>
        obtain ⟨kept, rest⟩ := skipped
        simp only [hskip] at h
        have hrest := hR.skipField_length _ _ _ _ hskip
        refine ih rest.length (by omega) ⟨hc.inner_setUnknown _ _ hm.inner, ?_⟩ h rfl
        rw [hc.unknown_setUnknown]
        exact hm.unknown.append hc (unknown_kept hR hc hfound hskip)

end MessageClass

end McDaemon.Lib
