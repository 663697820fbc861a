/-
# McDaemon.Lib.WireFields — the kinds of fields that a message class has.

A field has at most one value, or one of an enumeration, or it is a list of messages of another
class.  Each kind writes and reads its values in one way; what is left to a class is where in the
message the values are.
-/
import McDaemon.Lib.WireFormat

namespace McDaemon.Lib

/-- The tag of a field. -/
def makeTag (number wireType : UInt32) : UInt32 := number <<< 3 ||| wireType

namespace WireField

variable {M S α : Type} (R : WireRuntime)

/-! ## The kinds -/

/-- A field with at most one value.  The writer makes the tag from the number, the reader has it as
`tag`. -/
def single (number wireType tag : UInt32) (required : Bool) (codec : Codec α)
    (get : M → Option α) (set : α → M → M) : WireField M where
  tag := tag
  repeated := false
  write m :=
    match get m with
    | some a => R.writeVarint32 (makeTag number wireType) ++ codec.write a
    | none => []
  size m :=
    match get m with
    | some a => 1 + codec.size a
    | none => 0
  read bs m :=
    match codec.read bs with
    | some (a, rest) => some (set a m, rest)
    | none => none
  merge source m :=
    match get source with
    | some a => set a m
    | none => m
  isInitialized m := !required || (get m).isSome

/-- A field with at most one value of an enumeration.  A value that the enumeration does not have
is kept as an unknown field. -/
def enum (number wireType tag : UInt32) (required : Bool) (codec : Codec Int32)
    (toInt : α → Int32) (ofInt : Int32 → Option α) (get : M → Option α) (set : α → M → M)
    (addUnknown : List UInt8 → M → M) : WireField M where
  tag := tag
  repeated := false
  write m :=
    match get m with
    | some a => R.writeVarint32 (makeTag number wireType) ++ codec.write (toInt a)
    | none => []
  size m :=
    match get m with
    | some a => 1 + codec.size (toInt a)
    | none => 0
  read bs m :=
    match codec.read bs with
    | some (value, rest) =>
      match ofInt value with
      | some a => some (set a m, rest)
      | none => some (addUnknown (R.writeVarint32 tag ++ R.writeVarint32 value.toUInt32) m, rest)
    | none => none
  merge source m :=
    match get source with
    | some a => set a m
    | none => m
  isInitialized m := !required || (get m).isSome

/-- A list of messages, which `append` makes longer.  Each is read to the end of its own bytes. -/
def messages (number wireType tag : UInt32) (sub : MessageClass S) (get : M → List S)
    (append : List S → M → M) : WireField M where
  tag := tag
  repeated := true
  write m := (get m).flatMap fun s =>
    R.writeVarint32 (makeTag number wireType) ++ R.delimited.write (sub.serialize s)
  size m := (get m).length + ((get m).map fun s => R.delimitedSize (sub.byteSize s)).sum
  read bs m :=
    match R.delimited.read bs with
    | some (w, rest) =>
      match sub.mergePartial R w sub.empty with
      | some (s, true) => some (append [s] m, rest)
      | _ => none
    | none => none
  merge source m := append (get source) m
  isInitialized m := (get m).all sub.isInitialized

/-! ## Their laws -/

variable {R} {c : MessageClass M} {Inner : M → Prop} {number wireType tag : UInt32}
  {required : Bool}

theorem Lawful.single (hR : R.Documented) (hc : c.Unknown R []) {codec : Codec α}
    (hcodec : codec.Lawful) {get : M → Option α} {set : α → M → M}
    (htag : makeTag number wireType = tag) (hsmall : tag < 128)
    (hunknown : ∀ a m, c.unknown (set a m) = c.unknown m)
    (hinner : ∀ a m, Inner m → Inner (set a m)) :
    (WireField.single R number wireType tag required codec get set).Lawful R c Inner where
  size_eq m := by
    cases hget : get m with
    | none => simp [WireField.single, hget]
    | some a =>
      have hone := hR.writeVarint32_length tag hsmall
      simp only [WireField.single, hget, htag, hcodec.size_eq, List.length_append, hone]
  reads source m _ hlen := by
    cases hget : get source with
    | none =>
      simp only [WireField.single, hget]
      exact .nil m
    | some a =>
      have hwrite : (WireField.single R number wireType tag required codec get set).write source =
          R.writeVarint32 tag ++ codec.write a := by simp only [WireField.single, hget, htag]
      have hmerge : (WireField.single R number wireType tag required codec get set).merge source m =
          set a m := by simp only [WireField.single, hget]
      rw [hwrite, List.length_append] at hlen
      rw [hwrite, hmerge]
      have hread : ∀ rest, codec.read (codec.write a ++ rest) = some (a, rest) :=
        fun rest => hcodec.read_write a rest (by omega)
      have hvalue := WireField.Values.cons (R := R)
        (f := WireField.single R number wireType tag required codec get set) (m := m)
        (a := set a m) (p := codec.write a) (w := [])
        (fun rest => by simp only [WireField.single, hread]) (.nil (set a m))
      rwa [List.append_nil] at hvalue
  read_inner bs m m' rest h hm := by
    simp only [WireField.single] at h
    split at h
    · cases h
      exact hinner _ _ hm
    · cases h
  read_unknown bs m m' rest h := by
    simp only [WireField.single] at h
    split at h
    · cases h
      exact ⟨[], by rw [hunknown, List.append_nil], hc⟩
    · cases h

theorem Shortens.single {codec : Codec α} (hcodec : codec.Lawful) {get : M → Option α}
    {set : α → M → M} :
    (WireField.single R number wireType tag required codec get set).Shortens := by
  intro bs m m' rest h
  simp only [WireField.single] at h
  split at h
  · next a behind hread =>
    cases h
    exact hcodec.read_length _ _ _ hread
  · cases h

theorem Shortens.enum {codec : Codec Int32} (hcodec : codec.Lawful) {toInt : α → Int32}
    {ofInt : Int32 → Option α} {get : M → Option α} {set : α → M → M}
    {addUnknown : List UInt8 → M → M} :
    (WireField.enum R number wireType tag required codec toInt ofInt get set
      addUnknown).Shortens := by
  intro bs m m' rest h
  simp only [WireField.enum] at h
  split at h
  · next value behind hread =>
    have hlen := hcodec.read_length _ _ _ hread
    split at h <;> (cases h; exact hlen)
  · cases h

theorem Lawful.enum (hR : R.Documented) (hc : c.Readable) (hnil : c.Unknown R [])
    {codec : Codec Int32} (hcodec : codec.Lawful)
    (hvarint : ∀ value rest,
      codec.read (R.writeVarint32 value.toUInt32 ++ rest) = some (value, rest))
    {toInt : α → Int32} {ofInt : Int32 → Option α} (hof : ∀ a, ofInt (toInt a) = some a)
    {get : M → Option α} {set : α → M → M}
    (hmem : WireField.enum R number wireType tag required codec toInt ofInt get set c.addUnknown ∈
      c.fields)
    (htag : makeTag number wireType = tag) (hsmall : tag < 128)
    (hunknown : ∀ a m, c.unknown (set a m) = c.unknown m)
    (hadd : ∀ w m, c.unknown (c.setUnknown w m) = w)
    (hinner : ∀ a m, Inner m → Inner (set a m))
    (hinnerAdd : ∀ w m, Inner m → Inner (c.setUnknown w m)) :
    (WireField.enum R number wireType tag required codec toInt ofInt get set c.addUnknown).Lawful R c
      Inner where
  size_eq m := by
    cases hget : get m with
    | none => simp [WireField.enum, hget]
    | some a =>
      have hone := hR.writeVarint32_length tag hsmall
      simp only [WireField.enum, hget, htag, hcodec.size_eq, List.length_append, hone]
  reads source m _ hlen := by
    cases hget : get source with
    | none =>
      simp only [WireField.enum, hget]
      exact .nil m
    | some a =>
      have hwrite : (WireField.enum R number wireType tag required codec toInt ofInt get set
          c.addUnknown).write source = R.writeVarint32 tag ++ codec.write (toInt a) := by
        simp only [WireField.enum, hget, htag]
      have hmerge : (WireField.enum R number wireType tag required codec toInt ofInt get set
          c.addUnknown).merge source m = set a m := by simp only [WireField.enum, hget]
      rw [hwrite, List.length_append] at hlen
      rw [hwrite, hmerge]
      have hread : ∀ rest, codec.read (codec.write (toInt a) ++ rest) = some (toInt a, rest) :=
        fun rest => hcodec.read_write _ rest (by omega)
      have hvalue := WireField.Values.cons (R := R)
        (f := WireField.enum R number wireType tag required codec toInt ofInt get set c.addUnknown)
        (m := m) (a := set a m) (p := codec.write (toInt a)) (w := [])
        (fun rest => by simp only [WireField.enum, hread, hof]) (.nil (set a m))
      rwa [List.append_nil] at hvalue
  read_inner bs m m' rest h hm := by
    simp only [WireField.enum] at h
    split at h
    · split at h
      · cases h
        exact hinner _ _ hm
      · cases h
        exact hinnerAdd _ _ hm
    · cases h
  read_unknown bs m m' rest h := by
    simp only [WireField.enum] at h
    split at h
    · next value behind hread =>
      split at h
      · cases h
        exact ⟨[], by rw [hunknown, List.append_nil], hnil⟩
      · next hno =>
        -- what is kept is the field with this value, which is read to the same end again
        cases h
        refine ⟨_, hadd _ _, fun more m₀ => ?_⟩
        rw [List.append_assoc]
        refine MessageClass.mergePartial_field hR hc hmem
          (hR.readTag_writeVarint32 tag _ (hc.tag_ne_zero hmem)) ?_
        simp only [WireField.enum, hvarint, hno]
    · cases h

theorem Shortens.messages (hR : R.Documented) {sub : MessageClass S} {get : M → List S}
    {append : List S → M → M} :
    (WireField.messages R number wireType tag sub get append).Shortens := by
  intro bs m m' rest h
  simp only [WireField.messages] at h
  split at h
  · next w behind hread =>
    have hlen := hR.delimited_lawful.read_length _ _ _ hread
    split at h
    · cases h
      exact hlen
    · cases h
  · cases h

theorem Lawful.messages (hR : R.Documented) (hc : c.Unknown R []) {sub : MessageClass S}
    {InnerS : S → Prop} (hsub : sub.Lawful R InnerS) {get : M → List S} {append : List S → M → M}
    (htag : makeTag number wireType = tag) (hsmall : tag < 128)
    (hnil : ∀ m, append [] m = m)
    (hcons : ∀ s l m, append (s :: l) m = append l (append [s] m))
    (hunknown : ∀ s m, c.unknown (append [s] m) = c.unknown m)
    (hinner : ∀ m, Inner m → ∀ s ∈ get m, sub.Genuine R InnerS s)
    (happend : ∀ s m, Inner m → sub.Genuine R InnerS s → Inner (append [s] m)) :
    (WireField.messages R number wireType tag sub get append).Lawful R c Inner where
  size_eq m := by
    have hone := hR.writeVarint32_length tag hsmall
    simp only [WireField.messages, htag]
    induction get m with
    | nil => rfl
    | cons s l ih =>
      have hs : R.delimitedSize (sub.byteSize s) = (R.delimited.write (sub.serialize s)).length := by
        rw [MessageClass.byteSize_eq hsub, hR.delimitedSize_eq]
      simp only [List.length_cons, List.map_cons, List.sum_cons, List.flatMap_cons,
        List.length_append, hone, hs] at ih ⊢
      omega
  reads source m hsource hlen := by
    have hone : ∀ s, sub.Genuine R InnerS s → (R.delimited.write (sub.serialize s)).length <
        wireLimit → ∀ m rest, (WireField.messages R number wireType tag sub get append).read
          (R.delimited.write (sub.serialize s) ++ rest) m = some (append [s] m, rest) := by
      intro s hs hshort m rest
      have hwrite := hR.delimited_length (sub.serialize s)
      have hwritten := MessageClass.mergePartial_written hR hsub hs (by omega) sub.empty
      rw [hsub.mergeFrom_empty] at hwritten
      simp only [WireField.messages, hR.delimited_lawful.read_write _ rest hshort, hwritten]
    have hall : ∀ (l : List S) (m : M), (∀ s ∈ l, sub.Genuine R InnerS s) →
        (l.flatMap fun s => R.writeVarint32 tag ++
          R.delimited.write (sub.serialize s)).length < wireLimit →
        (WireField.messages R number wireType tag sub get append).Values R
          (l.flatMap fun s => R.writeVarint32 tag ++ R.delimited.write (sub.serialize s)) m
          (append l m) := by
      intro l
      induction l with
      | nil =>
        intro m _ _
        rw [hnil]
        exact .nil m
      | cons s l ih =>
        intro m hgenuine hshort
        rw [List.flatMap_cons, List.length_append, List.length_append] at hshort
        rw [List.flatMap_cons, hcons]
        exact .cons (fun rest => hone s (hgenuine s List.mem_cons_self) (by omega) m rest)
          (ih (append [s] m) (fun t ht => hgenuine t (List.mem_cons_of_mem s ht)) (by omega))
    have hwrite : (WireField.messages R number wireType tag sub get append).write source =
        (get source).flatMap fun s => R.writeVarint32 tag ++
          R.delimited.write (sub.serialize s) := by simp only [WireField.messages, htag]
    rw [hwrite] at hlen ⊢
    exact hall (get source) m (hinner source hsource) hlen
  read_inner bs m m' rest h hm := by
    simp only [WireField.messages] at h
    split at h
    · next w behind hread =>
      split at h
      · next s hmerge =>
        cases h
        exact happend s m hm ((MessageClass.genuine_empty hsub).mergePartial hR hsub hmerge)
      · cases h
    · cases h
  read_unknown bs m m' rest h := by
    simp only [WireField.messages] at h
    split at h
    · split at h
      · cases h
        exact ⟨[], by rw [hunknown, List.append_nil], hc⟩
      · cases h
    · cases h

end WireField

end McDaemon.Lib
