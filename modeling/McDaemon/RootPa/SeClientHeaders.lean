/-
# McDaemon.RootPa.SeClientHeaders — the link and the relation out of a header line.

libcurl hands over the lines as blocks of bytes with a length, and the parser searches in them as in
strings.  A search ends at what it looks for or at a zero; with neither in what is left of the
block, it goes over the end.
-/
import McDaemon.Lib.CStrings

namespace McDaemon.RootPa.SeClient

open McDaemon.Lib.CStrings

/-! ## Searching -/

/-- A search in the rest of a block of `n` bytes, for a place where `hit` says yes. -/
def search (n : Nat) (hit : List UInt8 → Bool) :
    List UInt8 → Except OutOfBounds (Option (List UInt8))
  | [] => .error ⟨n, n⟩
  | c :: s =>
    if hit (c :: s) = true then .ok (some (c :: s))
    else if c = 0 then .ok none
    else search n hit s

/-- `tolower` -/
def toLower (c : UInt8) : UInt8 := if 0x41 ≤ c ∧ c ≤ 0x5A then c + 0x20 else c

/-- `strstr` stops here. -/
def starts (needle s : List UInt8) : Bool := needle.isPrefixOf s

/-- `strcasestr` stops here. -/
def startsCase (needle s : List UInt8) : Bool :=
  (needle.map toLower).isPrefixOf (s.map toLower)

def lessThan : UInt8 := 0x3C
def greaterThan : UInt8 := 0x3E
def quote : UInt8 := 0x22

/-- `Link` -/
def linkName : List UInt8 := ascii "Link"

/-- `Link:` -/
def linkHeader : List UInt8 := ascii "Link:"

/-- `rel=` -/
def relName : List UInt8 := ascii "rel="

/-! ## The callback -/

/-- The strings that have been found. -/
structure HeaderStruct where
  linkP : Option CString
  relP : Option CString
deriving DecidableEq

/-- `copyHeader` of the bytes from one place to another, with memory at hand, read as a string. -/
def copyHeader (startP endP : List UInt8) : CString :=
  .of (startP.take (startP.length - endP.length))

/-- The relation, from the end of the link on. -/
def updateRel (n : Nat) (memP : HeaderStruct) (endP : List UInt8) :
    Except OutOfBounds HeaderStruct := do
  match ← search n (startsCase relName) endP with
  | none => .ok memP
  | some relP =>
    let startP := relP.drop 5
    match ← search n (starts [quote]) startP with
    | none => .ok memP
    | some endP => .ok { memP with relP := some (copyHeader startP endP) }

/-- `updateLinkAndRel`, with what it leaves of the structure. -/
def updateLinkAndRel (n : Nat) (memP : HeaderStruct) (ptr : List UInt8) :
    Except OutOfBounds HeaderStruct := do
  match ← search n (startsCase linkName) ptr with
  | none => .ok memP
  | some nameP =>
    match ← search n (starts [lessThan]) nameP with
    | none => .ok memP
    | some lessP =>
      let startP := lessP.tail
      match ← search n (starts [greaterThan]) startP with
      | none => .ok memP
      | some endP => updateRel n { memP with linkP := some (copyHeader startP endP) } endP

/-- The line is looked into. -/
def IsLink (block : List UInt8) : Prop :=
  linkHeader.length + 1 ≤ block.length ∧ linkHeader <+: block

instance (block : List UInt8) : Decidable (IsLink block) :=
  inferInstanceAs (Decidable (_ ∧ _))

/-- `writeHeaderCallback` -/
def writeHeaderCallback (memP : HeaderStruct) (block : List UInt8) :
    Except OutOfBounds HeaderStruct :=
  if IsLink block then updateLinkAndRel block.length memP block else .ok memP

/-- The lines of a transfer. -/
def writeHeaders (memP : HeaderStruct) : List (List UInt8) → Except OutOfBounds HeaderStruct
  | [] => .ok memP
  | block :: blocks => do
    let memP ← writeHeaderCallback memP block
    writeHeaders memP blocks

/-! ## What a line is to do -/

/-- `Link:<U>;rel="R"`, with anything behind that. -/
def linkLine (u r rest : List UInt8) : List UInt8 :=
  linkHeader ++ lessThan :: (u ++ greaterThan :: (ascii ";rel=" ++ quote :: (r ++ quote :: rest)))

/-- The line is read inside of its block, its link and relation are the ones that it names, and a
line that is not a link changes nothing. -/
def LineHolds (memP : HeaderStruct) (block : List UInt8) : Prop :=
  ∃ memP', writeHeaderCallback memP block = .ok memP' ∧
    (∀ u r rest, greaterThan ∉ u → quote ∉ r → block = linkLine u r rest →
      memP'.linkP.map CString.bytes = some u ∧ memP'.relP.map CString.bytes = some r) ∧
    (¬ linkHeader <+: block → memP' = memP)

/-- Every line of the transfer, whatever came before. -/
def HeadersHold (blocks : List (List UInt8)) : Prop :=
  ∀ before block after, blocks = before ++ block :: after →
    ∃ memP, writeHeaders ⟨none, none⟩ before = .ok memP ∧ LineHolds memP block

/-! ## Where a search ends -/

/-- The first hit, with no zero in front of it. -/
def Found (hit : List UInt8 → Bool) (s t : List UInt8) : Prop :=
  ∃ x, s = x ++ t ∧ 0 ∉ x ∧ t ≠ [] ∧ hit t = true ∧ ∀ z, z <:+ x → z ≠ [] → hit (z ++ t) = false

/-- A zero, with no hit up to it. -/
def Missing (hit : List UInt8 → Bool) (s : List UInt8) : Prop :=
  ∃ x t, s = x ++ 0 :: t ∧ 0 ∉ x ∧ ∀ z, z <:+ x → hit (z ++ 0 :: t) = false

/-- The search ends inside, and so does what follows on a hit. -/
def Ends (hit : List UInt8 → Bool) (s : List UInt8) (follows : List UInt8 → Prop) : Prop :=
  Missing hit s ∨ ∃ t, Found hit s t ∧ follows t

/-- The searches for the parts of a link, each from where the one before has ended. -/
def LinkEnds (block : List UInt8) : Prop :=
  Ends (starts [lessThan]) block fun lessP =>
    Ends (starts [greaterThan]) lessP.tail fun endP =>
      Ends (startsCase relName) endP fun relP =>
        Ends (starts [quote]) (relP.drop 5) fun _ => True

/-- A line that is looked into comes to its end, and no zero is in what it names. -/
def LineFits (block : List UInt8) : Prop :=
  (IsLink block → LinkEnds block) ∧
    ∀ u r rest, greaterThan ∉ u → quote ∉ r → block = linkLine u r rest → 0 ∉ u ∧ 0 ∉ r

/-! ## Searches -/

section Search

variable {n : Nat} {hit : List UInt8 → Bool}

theorem search_some_iff {s t : List UInt8} :
    search n hit s = .ok (some t) ↔ Found hit s t := by
  induction s with
  | nil =>
    refine iff_of_false (by simp [search]) ?_
    rintro ⟨x, hx, -, ht, -⟩
    exact ht (List.append_eq_nil_iff.mp hx.symm).2
  | cons c s ih =>
    rw [search]
    by_cases hhit : hit (c :: s) = true
    · rw [if_pos hhit]
      constructor
      · intro h
        obtain rfl := Option.some.inj (Except.ok.inj h)
        refine ⟨[], rfl, List.not_mem_nil, List.cons_ne_nil _ _, hhit, ?_⟩
        exact fun z hz hne => absurd (List.suffix_nil.mp hz) hne
      · rintro ⟨x, hx, -, -, -, hfirst⟩
        have hnil : x = [] := by
          by_contra hne
          have hno := hfirst x (List.suffix_refl x) hne
          rw [← hx, hhit] at hno
          cases hno
        rw [hnil, List.nil_append] at hx
        rw [hx]
    · rw [if_neg hhit]
      -- no hit here, so the first one is further on, unless the string ends
      have hlater : Found hit (c :: s) t ↔ c ≠ 0 ∧ Found hit s t := by
        constructor
        · rintro ⟨x, hx, hzero, ht, hhitt, hfirst⟩
          cases x with
          | nil =>
            rw [List.nil_append] at hx
            rw [hx] at hhit
            exact absurd hhitt hhit
          | cons d x =>
            obtain ⟨rfl, rfl⟩ := List.cons.inj hx
            refine ⟨fun h => hzero (h ▸ List.mem_cons_self), x, rfl,
              fun h => hzero (List.mem_cons_of_mem _ h), ht, hhitt, ?_⟩
            exact fun z hz => hfirst z (hz.trans (List.suffix_cons c x))
        · rintro ⟨hc, x, rfl, hzero, ht, hhitt, hfirst⟩
          refine ⟨c :: x, rfl, ?_, ht, hhitt, fun z hz hne => ?_⟩
          · rw [List.mem_cons]
            exact fun h => h.elim (fun h => hc h.symm) hzero
          · rcases List.suffix_cons_iff.mp hz with rfl | hz
            · exact Bool.eq_false_iff.mpr hhit
            · exact hfirst z hz hne
      rw [hlater]
      by_cases hc : c = 0
      · rw [if_pos hc]
        exact iff_of_false (by simp) (fun h => h.1 hc)
      · rw [if_neg hc, ih]
        exact (and_iff_right hc).symm

theorem search_none_iff {s : List UInt8} :
    search n hit s = .ok none ↔ Missing hit s := by
  induction s with
  | nil =>
    refine iff_of_false (by simp [search]) ?_
    rintro ⟨x, t, hx, -⟩
    exact List.cons_ne_nil _ _ (List.append_eq_nil_iff.mp hx.symm).2
  | cons c s ih =>
    rw [search]
    by_cases hhit : hit (c :: s) = true
    · rw [if_pos hhit]
      refine iff_of_false (by simp) ?_
      rintro ⟨x, t, hx, -, hnone⟩
      have hno := hnone x (List.suffix_refl x)
      rw [← hx, hhit] at hno
      cases hno
    · rw [if_neg hhit]
      by_cases hc : c = 0
      · rw [if_pos hc]
        refine iff_of_true rfl ⟨[], s, by rw [hc]; rfl, List.not_mem_nil, fun z hz => ?_⟩
        rw [List.suffix_nil.mp hz, List.nil_append, ← hc]
        exact Bool.eq_false_iff.mpr hhit
      · rw [if_neg hc, ih]
        constructor
        · rintro ⟨x, t, rfl, hzero, hnone⟩
          refine ⟨c :: x, t, rfl, ?_, fun z hz => ?_⟩
          · rw [List.mem_cons]
            exact fun h => h.elim (fun h => hc h.symm) hzero
          · rcases List.suffix_cons_iff.mp hz with rfl | hz
            · exact Bool.eq_false_iff.mpr hhit
            · exact hnone z hz
        · rintro ⟨x, t, hx, hzero, hnone⟩
          cases x with
          | nil => exact absurd (List.cons.inj hx).1 hc
          | cons d x =>
            obtain ⟨rfl, rfl⟩ := List.cons.inj hx
            exact ⟨x, t, rfl, fun h => hzero (List.mem_cons_of_mem _ h),
              fun z hz => hnone z (hz.trans (List.suffix_cons c x))⟩

/-- A step that goes on from a search works exactly when the search ends. -/
theorem search_bind_ok_iff {s : List UInt8}
    {f : Option (List UInt8) → Except OutOfBounds HeaderStruct} (hnone : ∃ m, f none = .ok m) :
    (∃ m, (search n hit s >>= f) = .ok m) ↔ Ends hit s fun t => ∃ m, f (some t) = .ok m := by
  unfold Ends
  cases hsearch : search n hit s with
  | error e =>
    refine iff_of_false ?_ ?_
    · rintro ⟨m, hm⟩
      rw [error_bind] at hm
      cases hm
    · rintro (hmissing | ⟨t, hfound, -⟩)
      · rw [search_none_iff.mpr hmissing] at hsearch
        cases hsearch
      · rw [search_some_iff.mpr hfound] at hsearch
        cases hsearch
  | ok found =>
    rw [ok_bind]
    cases found with
    | none => exact iff_of_true hnone (.inl (search_none_iff.mp hsearch))
    | some t =>
      constructor
      · exact fun h => .inr ⟨t, search_some_iff.mp hsearch, h⟩
      · rintro (hmissing | ⟨t', hfound, hm⟩)
        · rw [search_none_iff.mpr hmissing] at hsearch
          cases hsearch
        · rw [search_some_iff.mpr hfound] at hsearch
          rw [← Option.some.inj (Except.ok.inj hsearch)]
          exact hm

end Search

theorem ends_congr {hit : List UInt8 → Bool} {s : List UInt8} {P Q : List UInt8 → Prop}
    (h : ∀ t, P t ↔ Q t) : Ends hit s P ↔ Ends hit s Q :=
  or_congr Iff.rfl (exists_congr fun t => and_congr Iff.rfl (h t))

/-! ## Lines -/

theorem updateRel_ok_iff (n : Nat) (memP : HeaderStruct) (endP : List UInt8) :
    (∃ m, updateRel n memP endP = .ok m) ↔
      Ends (startsCase relName) endP fun relP =>
        Ends (starts [quote]) (relP.drop 5) fun _ => True := by
  refine (search_bind_ok_iff ⟨memP, rfl⟩).trans (ends_congr fun relP => ?_)
  refine (search_bind_ok_iff ⟨memP, rfl⟩).trans (ends_congr fun endP => ?_)
  exact iff_of_true ⟨_, rfl⟩ trivial

/-- The name of the header is found where the line begins. -/
theorem search_linkName {block : List UInt8} (h : linkHeader <+: block) (n : Nat) :
    search n (startsCase linkName) block = .ok (some block) := by
  obtain ⟨rest, rfl⟩ := h
  rfl

theorem updateLinkAndRel_ok_iff {block : List UInt8} (h : linkHeader <+: block) (n : Nat)
    (memP : HeaderStruct) : (∃ m, updateLinkAndRel n memP block = .ok m) ↔ LinkEnds block := by
  unfold updateLinkAndRel
  rw [search_linkName h, ok_bind]
  refine (search_bind_ok_iff ⟨memP, rfl⟩).trans (ends_congr fun lessP => ?_)
  refine (search_bind_ok_iff ⟨memP, rfl⟩).trans (ends_congr fun endP => ?_)
  exact updateRel_ok_iff n _ endP

theorem writeHeaderCallback_ok_iff (memP : HeaderStruct) (block : List UInt8) :
    (∃ m, writeHeaderCallback memP block = .ok m) ↔ (IsLink block → LinkEnds block) := by
  unfold writeHeaderCallback
  by_cases hlink : IsLink block
  · rw [if_pos hlink, updateLinkAndRel_ok_iff hlink.2]
    exact ⟨fun h _ => h, fun h => h hlink⟩
  · rw [if_neg hlink]
    exact iff_of_true ⟨memP, rfl⟩ (fun h => absurd h hlink)

/-- A byte is found behind others. -/
theorem search_byte {c : UInt8} {x : List UInt8} (hx : c ∉ x) (hzero : 0 ∉ x) (n : Nat)
    (w : List UInt8) : search n (starts [c]) (x ++ c :: w) = .ok (some (c :: w)) := by
  refine search_some_iff.mpr ⟨x, rfl, hzero, List.cons_ne_nil _ _, by simp [starts], ?_⟩
  intro z hz hne
  obtain ⟨d, z, rfl⟩ := List.exists_cons_of_ne_nil hne
  have hd : c ≠ d := fun h => hx (h ▸ hz.subset List.mem_cons_self)
  show ((c == d) && _) = false
  rw [beq_eq_false_iff_ne.mpr hd, Bool.false_and]

theorem bytes_copyHeader {x : List UInt8} (hzero : 0 ∉ x) (t : List UInt8) :
    (copyHeader (x ++ t) t).bytes = x := by
  have hlength : (x ++ t).length - t.length = x.length := by
    rw [List.length_append, Nat.add_sub_cancel]
  show cstring ((x ++ t).take ((x ++ t).length - t.length)) = x
  rw [hlength, List.take_left, cstring_of_nonzero hzero]

/-- **A link.**  The line sets what it names. -/
theorem writeHeaderCallback_linkLine {u r : List UInt8} (hu : greaterThan ∉ u) (hr : quote ∉ r)
    (huzero : 0 ∉ u) (hrzero : 0 ∉ r) (rest : List UInt8) (memP : HeaderStruct) :
    ∃ memP', writeHeaderCallback memP (linkLine u r rest) = .ok memP' ∧
      memP'.linkP.map CString.bytes = some u ∧ memP'.relP.map CString.bytes = some r := by
  have hprefix : linkHeader <+: linkLine u r rest := List.prefix_append _ _
  have hlink : IsLink (linkLine u r rest) := by
    refine ⟨?_, hprefix⟩
    rw [linkLine, List.length_append, List.length_cons]
    omega
  have hless : ∀ n, search n (starts [lessThan]) (linkLine u r rest) = .ok (some (lessThan ::
      (u ++ greaterThan :: (ascii ";rel=" ++ quote :: (r ++ quote :: rest))))) :=
    fun n => search_byte (by decide) (by decide) n _
  have hgreater : ∀ n, search n (starts [greaterThan])
      (u ++ greaterThan :: (ascii ";rel=" ++ quote :: (r ++ quote :: rest))) =
        .ok (some (greaterThan :: (ascii ";rel=" ++ quote :: (r ++ quote :: rest)))) :=
    fun n => search_byte hu huzero n _
  have hrel : ∀ n, search n (startsCase relName)
      (greaterThan :: (ascii ";rel=" ++ quote :: (r ++ quote :: rest))) =
        .ok (some (relName ++ quote :: (r ++ quote :: rest))) := fun n => rfl
  have hquote : ∀ n, search n (starts [quote]) (r ++ quote :: rest) = .ok (some (quote :: rest)) :=
    fun n => search_byte hr hrzero n _
  have hskip : (relName ++ quote :: (r ++ quote :: rest)).drop 5 = r ++ quote :: rest := rfl
  refine ⟨⟨some (copyHeader
    (u ++ greaterThan :: (ascii ";rel=" ++ quote :: (r ++ quote :: rest)))
    (greaterThan :: (ascii ";rel=" ++ quote :: (r ++ quote :: rest)))),
    some (copyHeader (r ++ quote :: rest) (quote :: rest))⟩, ?_, ?_, ?_⟩
  · rw [writeHeaderCallback, if_pos hlink, updateLinkAndRel, search_linkName hprefix, ok_bind]
    dsimp only
    rw [hless, ok_bind]
    dsimp only
    rw [List.tail_cons, hgreater, ok_bind]
    dsimp only
    rw [updateRel, hrel, ok_bind]
    dsimp only
    rw [hskip, hquote, ok_bind]
  · exact congrArg some (bytes_copyHeader huzero _)
  · exact congrArg some (bytes_copyHeader hrzero _)

theorem lineHolds_iff (memP : HeaderStruct) (block : List UInt8) :
    LineHolds memP block ↔ LineFits block := by
  constructor
  · rintro ⟨memP', hok, hform, -⟩
    refine ⟨(writeHeaderCallback_ok_iff memP block).mp ⟨memP', hok⟩, ?_⟩
    intro u r rest hu hr hblock
    obtain ⟨hlink, hrel⟩ := hform u r rest hu hr hblock
    obtain ⟨link, -, rfl⟩ := Option.map_eq_some_iff.mp hlink
    obtain ⟨rel, -, rfl⟩ := Option.map_eq_some_iff.mp hrel
    exact ⟨link.nonzero, rel.nonzero⟩
  · rintro ⟨hends, hnames⟩
    obtain ⟨memP', hok⟩ := (writeHeaderCallback_ok_iff memP block).mpr hends
    refine ⟨memP', hok, ?_, ?_⟩
    · rintro u r rest hu hr rfl
      obtain ⟨huzero, hrzero⟩ := hnames u r rest hu hr rfl
      obtain ⟨memP'', hok', hset⟩ := writeHeaderCallback_linkLine hu hr huzero hrzero rest memP
      rw [hok] at hok'
      rw [Except.ok.inj hok']
      exact hset
    · intro hother
      rw [writeHeaderCallback, if_neg (fun h => hother h.2)] at hok
      exact (Except.ok.inj hok).symm

/-- The lines are taken one by one. -/
theorem writeHeaders_ok_iff (memP : HeaderStruct) (blocks : List (List UInt8)) :
    (∃ m, writeHeaders memP blocks = .ok m) ↔ ∀ block ∈ blocks, IsLink block → LinkEnds block := by
  induction blocks generalizing memP with
  | nil => exact iff_of_true ⟨memP, rfl⟩ (fun b hb => absurd hb List.not_mem_nil)
  | cons block blocks ih =>
    rw [List.forall_mem_cons, ← writeHeaderCallback_ok_iff memP block, writeHeaders]
    cases hnext : writeHeaderCallback memP block with
    | error e =>
      rw [error_bind]
      exact iff_of_false (error_not_ok e) (fun h => error_not_ok e h.1)
    | ok next =>
      rw [ok_bind, ih next]
      exact (and_iff_right ⟨next, rfl⟩).symm

/-- **When the lines of a transfer stay inside and set what they name.**  Exactly when each of them,
if it is looked into, has in it the ends of all searches, and no zero is in what it names. -/
theorem headersHold_iff (blocks : List (List UInt8)) :
    HeadersHold blocks ↔ ∀ block ∈ blocks, LineFits block := by
  constructor
  · intro h block hmem
    obtain ⟨before, after, hsplit⟩ := List.append_of_mem hmem
    obtain ⟨memP, -, hline⟩ := h before block after hsplit
    exact (lineHolds_iff memP block).mp hline
  · rintro h before block after rfl
    obtain ⟨memP, hbefore⟩ := (writeHeaders_ok_iff ⟨none, none⟩ before).mpr
      fun b hb => (h b (List.mem_append_left _ hb)).1
    refine ⟨memP, hbefore, (lineHolds_iff memP block).mpr (h block ?_)⟩
    exact List.mem_append_right _ List.mem_cons_self

/-- A line that ends behind `rel=`. -/
theorem not_headersHold_cut : ¬ HeadersHold [ascii "Link:<a>;rel="] := by
  intro h
  obtain ⟨memP, hstart, memP', hok, -⟩ := h [] _ [] rfl
  obtain rfl := Except.ok.inj hstart
  have hover : writeHeaderCallback ⟨none, none⟩ (ascii "Link:<a>;rel=") = .error ⟨13, 13⟩ := by
    decide
  rw [hover] at hok
  cases hok

end McDaemon.RootPa.SeClient
