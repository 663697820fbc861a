/-
# McDaemon.RootPa.SeClientRetry — a request that is tried again.

`httpCommunicate` calls `curl_easy_perform` until it succeeds, at most thirty times.  The offset of
the upload, the body that has been received and the link and relation from the headers are set up in
front of the loop, so what an attempt that fails has moved on is there for the next one.
-/
import McDaemon.RootPa.SeClient
import McDaemon.RootPa.SeClientHeaders

namespace McDaemon.RootPa.SeClient

open McDaemon.Lib.CStrings

/-! ## The body -/

/-- `MemoryStruct`: the block, without the zero behind its bytes; a byte that was never written has
no value. -/
structure MemoryStruct where
  memoryP : Option (List (Option UInt8))
  size : Nat
deriving DecidableEq, Repr

/-- What `httpCommunicate` starts with. -/
def memoryChunk : MemoryStruct := ⟨some [], 0⟩

/-- What `realloc` keeps: nothing, when a failure has lost the block. -/
def MemoryStruct.kept (mem : MemoryStruct) : List (Option UInt8) :=
  mem.memoryP.getD (List.replicate mem.size none)

/-- A call of `writeMemoryCallback`, and whether `realloc` has memory. -/
structure Write where
  contents : List UInt8
  grown : Bool
deriving DecidableEq, Repr

/-- `writeMemoryCallback`, with the number that it returns. -/
def writeMemoryCallback (mem : MemoryStruct) (w : Write) : Nat × MemoryStruct :=
  if w.grown then
    (w.contents.length,
      ⟨some (mem.kept ++ w.contents.map some), mem.size + w.contents.length⟩)
  else (0, ⟨none, mem.size⟩)

def writeMemory (mem : MemoryStruct) (writes : List Write) : MemoryStruct :=
  writes.foldl (fun mem w => (writeMemoryCallback mem w).2) mem

/-- What is read of the block as a string. -/
def text (bytes : List (Option UInt8)) : List (Option UInt8) := bytes.takeWhile (· ≠ some 0)

/-! ## Attempts -/

def maxAttempts : Nat := 30

/-- The method, with its input. -/
inductive Request
  | get
  | delete
  | post (input : Option CString)
  | put (input : Response)

/-- What is outside of the loop. -/
structure Transfer where
  /-- The upload, which `setPutOpt` sets up. -/
  responseChunk : Option ResponseStruct
  /-- The bytes that `setPostOpt` sets up. -/
  postFields : List UInt8
  chunk : MemoryStruct
  headerChunk : HeaderStruct
deriving DecidableEq

/-- `httpCommunicate` in front of the loop. -/
def start : Request → Transfer
  | .get | .delete => ⟨none, [], memoryChunk, ⟨none, none⟩⟩
  | .post input => ⟨none, (input.map CString.bytes).getD [], memoryChunk, ⟨none, none⟩⟩
  | .put input => ⟨some (responseChunk input), [], memoryChunk, ⟨none, none⟩⟩

/-- A call out of `curl_easy_perform`. -/
inductive Callback
  | read (size : BufferSize)
  | write (w : Write)
  | header (block : List UInt8)

/-- The upload is read on, if there is one. -/
def readOn (rsp : Option ResponseStruct) (size : BufferSize) :
    Except OutOfBounds (Option ResponseStruct) :=
  match rsp with
  | none => .ok none
  | some rsp => do
    let next ← readResponseCallback rsp size
    .ok (some next.2)

def callback (t : Transfer) : Callback → Except OutOfBounds Transfer
  | .read size => do
    let rsp ← readOn t.responseChunk size
    .ok { t with responseChunk := rsp }
  | .write w => .ok { t with chunk := (writeMemoryCallback t.chunk w).2 }
  | .header block => do
    let memP ← writeHeaderCallback t.headerChunk block
    .ok { t with headerChunk := memP }

/-- One `curl_easy_perform`. -/
def perform (t : Transfer) : List Callback → Except OutOfBounds Transfer
  | [] => .ok t
  | c :: cs => do
    let t ← callback t c
    perform t cs

/-- The attempts that have failed. -/
def attempts (t : Transfer) : List (List Callback) → Except OutOfBounds Transfer
  | [] => .ok t
  | a :: as => do
    let t ← perform t a
    attempts t as

/-- The attempts that fail in front of one that succeeds. -/
structure Failed where
  attempts : List (List Callback)
  bound : attempts.length < maxAttempts

/-- An attempt that goes through: the buffers that the upload goes to, until it ends, the lines of
the headers and the pieces of the body. -/
structure Attempt where
  sizes : Nat → BufferSize
  blocks : List (List UInt8)
  contents : List (List UInt8)

/-- What a request comes to. -/
structure Outcome where
  uploaded : List UInt8
  command : Option (List (Option UInt8))
  link : Option CString
  rel : Option CString

def UploadsFrom (t : Transfer) (a : Attempt) (uploaded : List UInt8) : Prop :=
  match t.responseChunk with
  | none => uploaded = t.postFields
  | some rsp => Uploads rsp a.sizes uploaded

/-- `curl_easy_perform` returns `CURLE_OK`, and `httpCommunicate` returns. -/
def Succeeds (t : Transfer) (a : Attempt) (o : Outcome) : Prop :=
  UploadsFrom t a o.uploaded ∧ writeHeaders t.headerChunk a.blocks = .ok ⟨o.link, o.rel⟩ ∧
    o.command = (writeMemory t.chunk (a.contents.map (⟨·, true⟩))).memoryP.map text

/-- An attempt that would have succeeded as the first, with what comes of it then. -/
structure Success (q : Request) extends Attempt where
  outcome : Outcome
  succeeds : Succeeds (start q) toAttempt outcome

/-- Behind the attempts that have failed, the same comes of it. -/
def RetryHolds (q : Request) (f : Failed) (s : Success q) : Prop :=
  ∃ t, attempts (start q) f.attempts = .ok t ∧ Succeeds t s.toAttempt s.outcome

/-! ## What attempts that fail leave -/

def Callback.size : Callback → Option BufferSize
  | .read size => some size
  | _ => none

def Callback.written : Callback → Option Write
  | .write w => some w
  | _ => none

def Callback.line : Callback → Option (List UInt8)
  | .header block => some block
  | _ => none

namespace Failed

variable (f : Failed)

def callbacks : List Callback := f.attempts.flatten

def reads : List BufferSize := f.callbacks.filterMap Callback.size

def writes : List Write := f.callbacks.filterMap Callback.written

def lines : List (List UInt8) := f.callbacks.filterMap Callback.line

end Failed

/-- The line sets this field, the link or the relation. -/
def Sets (part : HeaderStruct → Option CString) (block : List UInt8) : Prop :=
  ∃ memP, writeHeaderCallback ⟨none, none⟩ block = .ok memP ∧ part memP ≠ none

/-- What the lines of failed attempts set is set again, or they set nothing. -/
def HeaderFits (part : HeaderStruct → Option CString) (lines blocks : List (List UInt8)) : Prop :=
  (∃ block ∈ blocks, Sets part block) ∨ ∀ block ∈ lines, ¬ Sets part block

/-- No byte of a body is left, and its block is there or a piece of the new body makes one; or what
is left has a zero in it, and up to that it is the new body. -/
def BodyFits (left : MemoryStruct) (contents : List (List UInt8)) : Prop :=
  (left.kept = [] ∧ (left.memoryP ≠ none ∨ contents ≠ [])) ∨
    (some 0 ∈ left.kept ∧ text left.kept = text (contents.flatten.map some))

/-- What failed attempts leave does not show. -/
def RetryFits (q : Request) (f : Failed) (s : Success q) : Prop :=
  (∀ input, q = .put input → input.bytes = [] ∨ f.reads = []) ∧
    (∀ block ∈ f.lines, IsLink block → LinkEnds block) ∧
    HeaderFits HeaderStruct.linkP f.lines s.blocks ∧ HeaderFits HeaderStruct.relP f.lines s.blocks ∧
    BodyFits (writeMemory memoryChunk f.writes) s.contents

/-! ## Headers over headers -/

/-- What later lines set goes over what there was. -/
def HeaderStruct.over (later memP : HeaderStruct) : HeaderStruct :=
  ⟨later.linkP.or memP.linkP, later.relP.or memP.relP⟩

theorem HeaderStruct.over_assoc (a b c : HeaderStruct) : (a.over b).over c = a.over (b.over c) := by
  unfold HeaderStruct.over
  rw [Option.or_assoc, Option.or_assoc]

theorem updateRel_over (n : Nat) (memP : HeaderStruct) (endP : List UInt8) :
    updateRel n memP endP = (updateRel n ⟨none, none⟩ endP).map (·.over memP) := by
  unfold updateRel
  cases search n (startsCase relName) endP with
  | error e => rfl
  | ok found =>
    cases found with
    | none => rfl
    | some relP =>
      rw [ok_bind, ok_bind]
      dsimp only
      cases search n (starts [quote]) (relP.drop 5) with
      | error e => rfl
      | ok found =>
        cases found with
        | none => rfl
        | some endP => rfl

/-- A line does the same to every structure. -/
theorem writeHeaderCallback_over (memP : HeaderStruct) (block : List UInt8) :
    writeHeaderCallback memP block =
      (writeHeaderCallback ⟨none, none⟩ block).map (·.over memP) := by
  unfold writeHeaderCallback
  by_cases hlink : IsLink block
  · rw [if_pos hlink, if_pos hlink, updateLinkAndRel, updateLinkAndRel, search_linkName hlink.2,
      ok_bind, ok_bind]
    dsimp only
    cases search block.length (starts [lessThan]) block with
    | error e => rfl
    | ok found =>
      cases found with
      | none => rfl
      | some lessP =>
        rw [ok_bind, ok_bind]
        dsimp only
        cases search block.length (starts [greaterThan]) lessP.tail with
        | error e => rfl
        | ok found =>
          cases found with
          | none => rfl
          | some endP =>
            rw [ok_bind, ok_bind]
            dsimp only
            rw [updateRel_over, updateRel_over _ ⟨some _, none⟩]
            cases hrel : updateRel block.length ⟨none, none⟩ endP with
            | error e => rfl
            | ok rel =>
              show Except.ok _ = Except.ok ((rel.over _).over memP)
              rw [HeaderStruct.over_assoc]
              rfl
  · rw [if_neg hlink, if_neg hlink]
    rfl

theorem writeHeaders_over (memP : HeaderStruct) (blocks : List (List UInt8)) :
    writeHeaders memP blocks = (writeHeaders ⟨none, none⟩ blocks).map (·.over memP) := by
  induction blocks generalizing memP with
  | nil => rfl
  | cons block blocks ih =>
    rw [writeHeaders, writeHeaders, writeHeaderCallback_over]
    cases writeHeaderCallback ⟨none, none⟩ block with
    | error e => rfl
    | ok first =>
      show writeHeaders (first.over memP) blocks = (writeHeaders first blocks).map (·.over memP)
      rw [ih, ih first]
      cases writeHeaders ⟨none, none⟩ blocks with
      | error e => rfl
      | ok rest =>
        show Except.ok (rest.over (first.over memP)) = .ok ((rest.over first).over memP)
        rw [HeaderStruct.over_assoc]

section Part

variable {part : HeaderStruct → Option CString}
  (hover : ∀ a b, part (a.over b) = (part a).or (part b)) (hnone : part ⟨none, none⟩ = none)

include hover hnone

/-- A field is set when one of the lines sets it. -/
theorem part_ne_none_iff {blocks : List (List UInt8)} {memP : HeaderStruct}
    (h : writeHeaders ⟨none, none⟩ blocks = .ok memP) :
    part memP ≠ none ↔ ∃ block ∈ blocks, Sets part block := by
  induction blocks generalizing memP with
  | nil =>
    rw [← Except.ok.inj h]
    exact iff_of_false (not_not_intro hnone) (fun ⟨b, hb, _⟩ => absurd hb List.not_mem_nil)
  | cons block blocks ih =>
    obtain ⟨first, hfirst, hrest⟩ := bind_eq_ok.mp h
    rw [writeHeaders_over] at hrest
    cases hlater : writeHeaders ⟨none, none⟩ blocks with
    | error e =>
      rw [hlater] at hrest
      cases hrest
    | ok later =>
      rw [hlater] at hrest
      have hmemP : later.over first = memP := Except.ok.inj hrest
      have hsets : Sets part block ↔ part first ≠ none := by
        constructor
        · rintro ⟨first', hfirst', hset⟩
          rw [hfirst] at hfirst'
          rwa [Except.ok.inj hfirst']
        · exact fun hset => ⟨first, hfirst, hset⟩
      rw [← hmemP, hover, List.exists_mem_cons_iff, hsets, ← ih hlater, ne_eq,
        Option.or_eq_none_iff, not_and_or]
      exact or_comm

/-- The field is the same exactly when what was there does not show. -/
theorem headerFits_iff {lines blocks : List (List UInt8)} {before after : HeaderStruct}
    (hlines : writeHeaders ⟨none, none⟩ lines = .ok before)
    (hblocks : writeHeaders ⟨none, none⟩ blocks = .ok after) :
    (part after).or (part before) = part after ↔ HeaderFits part lines blocks := by
  have hbefore : (∀ block ∈ lines, ¬ Sets part block) ↔ part before = none := by
    rw [← not_iff_not, ← ne_eq, part_ne_none_iff hover hnone hlines]
    simp only [not_forall, not_not, exists_prop]
  unfold HeaderFits
  rw [← part_ne_none_iff hover hnone hblocks, hbefore]
  cases part after with
  | none => simp
  | some c => simp

end Part

/-! ## Body behind body -/

theorem kept_writeMemory_grown (mem : MemoryStruct) (contents : List (List UInt8)) :
    (writeMemory mem (contents.map (⟨·, true⟩))).kept = mem.kept ++ contents.flatten.map some := by
  induction contents generalizing mem with
  | nil => exact (List.append_nil _).symm
  | cons c cs ih =>
    have hstep : writeMemory mem ((c :: cs).map (⟨·, true⟩)) =
        writeMemory ⟨some (mem.kept ++ c.map some), mem.size + c.length⟩
          (cs.map (⟨·, true⟩)) := rfl
    rw [hstep, ih, List.flatten_cons, List.map_append, ← List.append_assoc]
    rfl

theorem memoryP_writeMemory_grown (mem : MemoryStruct) (contents : List (List UInt8)) :
    (writeMemory mem (contents.map (⟨·, true⟩))).memoryP ≠ none ↔
      mem.memoryP ≠ none ∨ contents ≠ [] := by
  induction contents generalizing mem with
  | nil => simp [writeMemory]
  | cons c cs ih =>
    have hstep : writeMemory mem ((c :: cs).map (⟨·, true⟩)) =
        writeMemory ⟨some (mem.kept ++ c.map some), mem.size + c.length⟩
          (cs.map (⟨·, true⟩)) := rfl
    rw [hstep, ih]
    exact iff_of_true (.inl (Option.some_ne_none _)) (.inr (List.cons_ne_nil _ _))

/-- The string in front of a zero, or what is behind is part of it. -/
theorem text_append (a b : List (Option UInt8)) :
    text (a ++ b) = if some 0 ∈ a then text a else a ++ text b := by
  unfold text
  split
  · next hzero =>
    have hends : ¬ ∀ c ∈ a, decide (c ≠ some 0) = true := fun h => by
      simpa using h _ hzero
    rw [List.takeWhile_append, if_neg]
    intro hlength
    refine hends fun c hc => ?_
    have hall : a.takeWhile (· ≠ some 0) = a :=
      (List.takeWhile_prefix _).eq_of_length hlength
    rw [← hall] at hc
    exact List.mem_takeWhile_imp (p := fun c => decide (c ≠ some 0)) hc
  · next hzero =>
    refine List.takeWhile_append_of_pos fun c hc => ?_
    have hne : c ≠ some 0 := fun h => hzero (h ▸ hc)
    simpa using hne

theorem text_append_eq_iff (a b : List (Option UInt8)) :
    text (a ++ b) = text b ↔ a = [] ∨ (some 0 ∈ a ∧ text a = text b) := by
  rw [text_append]
  by_cases hzero : some 0 ∈ a
  · rw [if_pos hzero]
    constructor
    · exact fun h => .inr ⟨hzero, h⟩
    · rintro (rfl | h)
      · exact absurd hzero List.not_mem_nil
      · exact h.2
  · rw [if_neg hzero, List.append_left_eq_self]
    constructor
    · exact .inl
    · rintro (h | h)
      · exact h
      · exact absurd h.1 hzero

/-- The command is the same exactly when what was there does not show. -/
theorem bodyFits_iff (left : MemoryStruct) (contents : List (List UInt8)) :
    (writeMemory left (contents.map (⟨·, true⟩))).memoryP.map text =
        (writeMemory memoryChunk (contents.map (⟨·, true⟩))).memoryP.map text ↔
      BodyFits left contents := by
  have hkept : ∀ {mem : MemoryStruct}, mem.memoryP ≠ none →
      mem.memoryP.map text = some (text mem.kept) := by
    intro mem hmem
    obtain ⟨bytes, hbytes⟩ := Option.ne_none_iff_exists'.mp hmem
    rw [MemoryStruct.kept, hbytes]
    rfl
  have hstart : (writeMemory memoryChunk (contents.map (⟨·, true⟩))).memoryP.map text =
      some (text (contents.flatten.map some)) := by
    rw [hkept ((memoryP_writeMemory_grown _ _).mpr (.inl (Option.some_ne_none _))),
      kept_writeMemory_grown]
    rfl
  have hzero : some 0 ∈ left.kept → left.memoryP ≠ none := by
    intro hmem hnull
    rw [MemoryStruct.kept, hnull] at hmem
    exact Option.some_ne_none _ (List.eq_of_mem_replicate hmem)
  rw [hstart]
  unfold BodyFits
  by_cases hthere : left.memoryP ≠ none ∨ contents ≠ []
  · rw [hkept ((memoryP_writeMemory_grown _ _).mpr hthere), kept_writeMemory_grown,
      Option.some.injEq, text_append_eq_iff, and_iff_left hthere]
  · have hnull : (writeMemory left (contents.map (⟨·, true⟩))).memoryP = none := by
      by_contra hne
      exact hthere ((memoryP_writeMemory_grown _ _).mp hne)
    rw [hnull]
    refine iff_of_false (Option.some_ne_none _).symm ?_
    rintro (h | h)
    · exact hthere h.2
    · exact hthere (.inl (hzero h.1))

/-! ## Callbacks by what they touch -/

/-- The upload is read on and on. -/
def readAll (rsp : Option ResponseStruct) :
    List BufferSize → Except OutOfBounds (Option ResponseStruct)
  | [] => .ok rsp
  | size :: sizes => do
    let rsp ← readOn rsp size
    readAll rsp sizes

/-- Upload, headers and body do not touch each other. -/
theorem perform_ok_iff {t t' : Transfer} {cs : List Callback} :
    perform t cs = .ok t' ↔
      readAll t.responseChunk (cs.filterMap Callback.size) = .ok t'.responseChunk ∧
      writeHeaders t.headerChunk (cs.filterMap Callback.line) = .ok t'.headerChunk ∧
      t'.chunk = writeMemory t.chunk (cs.filterMap Callback.written) ∧
      t'.postFields = t.postFields := by
  -- each callback changes one of the three chunks, and the others pass it by
  induction cs generalizing t with
  | nil =>
    constructor
    · intro h
      obtain rfl := Except.ok.inj h
      exact ⟨rfl, rfl, rfl, rfl⟩
    · rintro ⟨hread, hheader, hchunk, hpost⟩
      have hresponse := Except.ok.inj hread
      have hheaders := Except.ok.inj hheader
      refine congrArg Except.ok ?_
      cases t
      cases t'
      dsimp only at hresponse hheaders hchunk hpost
      subst hresponse hheaders hpost
      rw [hchunk]
      rfl
  | cons c cs ih =>
    cases c with
    | read size =>
      rw [perform, callback]
      cases hread : readOn t.responseChunk size with
      | error e =>
        refine iff_of_false (fun h => error_not_ok e ⟨t', h⟩) (fun h => ?_)
        have hall : readAll t.responseChunk (size :: cs.filterMap Callback.size) = .error e := by
          rw [readAll, hread, error_bind]
        exact error_not_ok e ⟨_, hall.symm.trans h.1⟩
      | ok rsp =>
        have hall : readAll t.responseChunk (size :: cs.filterMap Callback.size) =
            readAll rsp (cs.filterMap Callback.size) := by
          rw [readAll, hread, ok_bind]
        rw [ok_bind, ok_bind, ih]
        exact and_congr (by rw [← hall]; rfl) Iff.rfl
    | write w =>
      rw [perform, callback, ok_bind, ih]
      rfl
    | header block =>
      rw [perform, callback]
      cases hheader : writeHeaderCallback t.headerChunk block with
      | error e =>
        refine iff_of_false (fun h => error_not_ok e ⟨t', h⟩) (fun h => ?_)
        have hall : writeHeaders t.headerChunk (block :: cs.filterMap Callback.line) =
            .error e := by
          rw [writeHeaders, hheader, error_bind]
        exact error_not_ok e ⟨_, hall.symm.trans h.2.1⟩
      | ok memP =>
        have hall : writeHeaders t.headerChunk (block :: cs.filterMap Callback.line) =
            writeHeaders memP (cs.filterMap Callback.line) := by
          rw [writeHeaders, hheader, ok_bind]
        rw [ok_bind, ok_bind, ih]
        exact and_congr Iff.rfl (and_congr (by rw [← hall]; rfl) Iff.rfl)

theorem perform_append (t : Transfer) (a b : List Callback) :
    perform t (a ++ b) = perform t a >>= fun t => perform t b := by
  induction a generalizing t with
  | nil => rfl
  | cons c a ih =>
    rw [List.cons_append, perform, perform]
    cases callback t c with
    | error e => rfl
    | ok next => exact ih next

theorem attempts_eq_perform (t : Transfer) (as : List (List Callback)) :
    attempts t as = perform t as.flatten := by
  induction as generalizing t with
  | nil => rfl
  | cons a as ih =>
    rw [attempts, List.flatten_cons, perform_append]
    exact congrArg _ (funext ih)

/-- No method starts with a body or headers. -/
theorem start_fresh (q : Request) :
    (start q).headerChunk = ⟨none, none⟩ ∧ (start q).chunk = memoryChunk := by
  cases q with
  | get => exact ⟨rfl, rfl⟩
  | delete => exact ⟨rfl, rfl⟩
  | post input => exact ⟨rfl, rfl⟩
  | put input => exact ⟨rfl, rfl⟩

/-- What the attempts that fail leave. -/
theorem attempts_ok_iff {q : Request} {f : Failed} {t : Transfer} :
    attempts (start q) f.attempts = .ok t ↔
      readAll (start q).responseChunk f.reads = .ok t.responseChunk ∧
      writeHeaders ⟨none, none⟩ f.lines = .ok t.headerChunk ∧
      t.chunk = writeMemory memoryChunk f.writes ∧ t.postFields = (start q).postFields := by
  rw [attempts_eq_perform, perform_ok_iff, (start_fresh q).1, (start_fresh q).2]
  rfl

/-! ## Upload behind upload -/

/-- One call, seen by the offset. -/
theorem offset_readResponseCallback {rsp : ResponseStruct} (hsize : rsp.size = rsp.responseP.length)
    (hn : rsp.size < 2 ^ 32) (hstart : rsp.offset.toNat ≤ rsp.size) {b : BufferSize}
    {next : List UInt8 × ResponseStruct} (h : readResponseCallback rsp b = .ok next) :
    rsp.offset.toNat ≤ next.2.offset.toNat ∧ next.2.offset.toNat ≤ rsp.size ∧
      (rsp.offset.toNat < rsp.size → rsp.offset.toNat < next.2.offset.toNat) := by
  have hpositive := b.property.1
  by_cases hend : rsp.size ≤ rsp.offset.toNat
  · rw [readResponseCallback_end hend] at h
    obtain rfl := Except.ok.inj h
    exact ⟨Nat.le_refl _, hstart, fun hmore => absurd hmore (Nat.not_lt_of_le hend)⟩
  · have hmore := Nat.lt_of_not_le hend
    by_cases hinside : rsp.offset.toNat + min b.val rsp.size ≤ rsp.responseP.length
    · rw [readResponseCallback_inside hmore hinside] at h
      obtain rfl := Except.ok.inj h
      have hbound : (2 : Nat) ^ 32 = UInt32.size := rfl
      dsimp only
      rw [UInt32.toNat_ofNat_of_lt' (by omega)]
      omega
    · obtain ⟨e, he⟩ := readResponseCallback_outside hmore (b := b) (Nat.lt_of_not_le hinside)
      rw [he] at h
      cases h

theorem readAll_end {rsp : ResponseStruct} (hend : rsp.size ≤ rsp.offset.toNat)
    (sizes : List BufferSize) : readAll (some rsp) sizes = .ok (some rsp) := by
  induction sizes with
  | nil => rfl
  | cons size sizes ih =>
    have hread : readOn (some rsp) size = .ok (some rsp) := by
      rw [readOn, readResponseCallback_end hend, ok_bind]
    rw [readAll, hread, ok_bind, ih]

theorem readAll_none (sizes : List BufferSize) : readAll none sizes = .ok none := by
  induction sizes with
  | nil => rfl
  | cons size sizes ih => exact ih

/-- Calls, seen by the offset: the first one moves it on for good. -/
theorem offset_readAll {rsp : ResponseStruct} (hsize : rsp.size = rsp.responseP.length)
    (hn : rsp.size < 2 ^ 32) (hstart : rsp.offset.toNat ≤ rsp.size) {sizes : List BufferSize}
    {rsp' : Option ResponseStruct} (h : readAll (some rsp) sizes = .ok rsp') :
    ∃ r, rsp' = some r ∧ r.responseP = rsp.responseP ∧ r.size = rsp.size ∧
      rsp.offset.toNat ≤ r.offset.toNat ∧ r.offset.toNat ≤ rsp.size ∧
      (sizes ≠ [] → rsp.offset.toNat < rsp.size → rsp.offset.toNat < r.offset.toNat) := by
  induction sizes generalizing rsp with
  | nil =>
    obtain rfl := Except.ok.inj h
    exact ⟨rsp, rfl, rfl, rfl, Nat.le_refl _, hstart, fun hne => absurd rfl hne⟩
  | cons size sizes ih =>
    obtain ⟨mid, hmid, hrest⟩ := bind_eq_ok.mp h
    obtain ⟨next, hnext, hsome⟩ := bind_eq_ok.mp hmid
    obtain rfl := Except.ok.inj hsome
    obtain ⟨hresponse, hkept⟩ := readResponseCallback_frame hnext
    obtain ⟨hle, hinside, hmoves⟩ := offset_readResponseCallback hsize hn hstart hnext
    obtain ⟨r, hr, hresponse', hkept', hle', hinside', -⟩ :=
      ih (by rw [hkept, hresponse, hsize]) (by rw [hkept]; exact hn) (by rw [hkept]; exact hinside)
        hrest
    refine ⟨r, hr, hresponse'.trans hresponse, hkept'.trans hkept, Nat.le_trans hle hle', ?_, ?_⟩
    · rw [← hkept]
      exact hinside'
    · exact fun _ hmore => Nat.lt_of_lt_of_le (hmoves hmore) hle'

/-- The upload is the same exactly when failed attempts have not moved the offset. -/
theorem uploadFits_iff {q : Request} {f : Failed} (s : Success q) :
    (∃ t, readAll (start q).responseChunk f.reads = .ok t.responseChunk ∧
        t.postFields = (start q).postFields ∧ UploadsFrom t s.toAttempt s.outcome.uploaded) ↔
      ∀ input, q = .put input → input.bytes = [] ∨ f.reads = [] := by
  have hsingle := s.succeeds.1
  constructor
  · rintro ⟨t, hread, -, hupload⟩ input rfl
    have hstart : Uploads (responseChunk input) s.sizes s.outcome.uploaded := hsingle
    obtain ⟨hshort, hall, -⟩ := hstart.rest rfl (Nat.zero_le _)
    have hwhole : (responseChunk input).size = (responseChunk input).responseP.length := rfl
    obtain ⟨r, hr, hresponse, hsize, -, hinside, hmoves⟩ :=
      offset_readAll hwhole hshort (Nat.zero_le _) hread
    rw [UploadsFrom, hr] at hupload
    have hrest := (Uploads.rest hupload (by rw [hsize, hresponse]; rfl)
      (by rw [hsize]; exact hinside)).2.1
    rw [hall, hresponse] at hrest
    have hlength := congrArg List.length hrest
    rw [List.length_drop, List.length_drop] at hlength
    have hzero : (responseChunk input).offset.toNat = 0 := rfl
    have hbytes : (responseChunk input).responseP = input.bytes := rfl
    have hcount : (responseChunk input).size = input.bytes.length := rfl
    rw [hzero, hbytes] at hlength
    by_contra hno
    obtain ⟨hne, hreads⟩ := not_or.mp hno
    have hpositive := List.length_pos_iff.mpr hne
    have hmoved := hmoves hreads (by rw [hzero, hcount]; exact hpositive)
    rw [hzero] at hmoved
    omega
  · intro h
    have hkept : readAll (start q).responseChunk f.reads = .ok (start q).responseChunk := by
      cases q with
      | get => exact readAll_none _
      | delete => exact readAll_none _
      | post input => exact readAll_none _
      | put input =>
        rcases h input rfl with hempty | hreads
        · refine readAll_end ?_ _
          show input.bytes.length ≤ _
          rw [hempty]
          exact Nat.zero_le _
        · rw [hreads]
          rfl
    exact ⟨start q, hkept, rfl, hsingle⟩

/-- **When a request that is tried again comes to the same.**  Exactly when failed attempts have
read nothing of an upload, their header lines end inside, what they have set is set again, and what
they have received does not show. -/
theorem retryHolds_iff (q : Request) (f : Failed) (s : Success q) :
    RetryHolds q f s ↔ RetryFits q f s := by
  obtain ⟨-, hheader, hcommand⟩ := s.succeeds
  rw [(start_fresh q).1] at hheader
  rw [(start_fresh q).2] at hcommand
  have hfields : ∀ {left : HeaderStruct}, writeHeaders ⟨none, none⟩ f.lines = .ok left →
      (writeHeaders left s.blocks = .ok ⟨s.outcome.link, s.outcome.rel⟩ ↔
        HeaderFits HeaderStruct.linkP f.lines s.blocks ∧
          HeaderFits HeaderStruct.relP f.lines s.blocks) := by
    intro left hleft
    have hlinkOver : ∀ a b : HeaderStruct, (a.over b).linkP = a.linkP.or b.linkP := fun _ _ => rfl
    have hrelOver : ∀ a b : HeaderStruct, (a.over b).relP = a.relP.or b.relP := fun _ _ => rfl
    have hlink := headerFits_iff hlinkOver rfl hleft hheader
    have hrel := headerFits_iff hrelOver rfl hleft hheader
    rw [writeHeaders_over, hheader, ← hlink, ← hrel]
    constructor
    · intro h
      have hover := Except.ok.inj h
      exact ⟨congrArg HeaderStruct.linkP hover, congrArg HeaderStruct.relP hover⟩
    · rintro ⟨hlink, hrel⟩
      exact congrArg Except.ok (congrArg₂ HeaderStruct.mk hlink hrel)
  constructor
  · rintro ⟨t, hattempts, hupload, hlast, hbody⟩
    obtain ⟨hread, hlines, hchunk, hpost⟩ := attempts_ok_iff.mp hattempts
    obtain ⟨hlink, hrel⟩ := (hfields hlines).mp hlast
    refine ⟨(uploadFits_iff s).mp ⟨t, hread, hpost, hupload⟩,
      (writeHeaders_ok_iff _ _).mp ⟨_, hlines⟩, hlink, hrel, ?_⟩
    rw [hchunk] at hbody
    exact (bodyFits_iff _ _).mp (hbody.symm.trans hcommand)
  · rintro ⟨hupload, hends, hlink, hrel, hbody⟩
    obtain ⟨t, hread, hpost, hsame⟩ := (uploadFits_iff s).mpr hupload
    obtain ⟨left, hlines⟩ := (writeHeaders_ok_iff ⟨none, none⟩ f.lines).mpr hends
    refine ⟨⟨t.responseChunk, t.postFields, writeMemory memoryChunk f.writes, left⟩,
      attempts_ok_iff.mpr ⟨hread, hlines, rfl, hpost⟩, hsame,
      (hfields hlines).mpr ⟨hlink, hrel⟩, ?_⟩
    exact hcommand.trans ((bodyFits_iff _ _).mpr hbody).symm

/-! ## A body that comes twice -/

/-- The connection breaks behind the first byte of the body. -/
def brokenOff : Failed := ⟨[[.write ⟨ascii "x", true⟩]], by decide⟩

/-- A body of one byte. -/
def oneByte : Success .get where
  sizes := fun _ => ⟨1, by decide, by decide⟩
  blocks := []
  contents := [ascii "x"]
  outcome := ⟨[], some [some 0x78], none, none⟩
  succeeds := ⟨rfl, rfl, by decide⟩

/-- The byte is in the command twice. -/
theorem not_retryHolds_broken : ¬ RetryHolds .get brokenOff oneByte := by
  rintro ⟨t, hattempts, -, -, hcommand⟩
  obtain rfl := Except.ok.inj hattempts
  revert hcommand
  decide

end McDaemon.RootPa.SeClient
