/-
# McDaemon.RootPa.CmpRelease — the buffers and mappings of a call.

Whatever way a call of `executeOneCmpCommand` takes, each of its rounds is about blocks of its own:
those that it allocates are freed in it, and what it maps is unmapped in it, if the buffer is still
where it was.  A whole call is its rounds one behind the other.
-/
import McDaemon.RootPa.CmpLoop

namespace McDaemon.RootPa.Cmp

open McDaemon.Lib McDaemon.RootPa.Commands McDaemon.RootPa.Store

/-! ## What a round leaves behind -/

@[simp] theorem attempts_append (b : Block) (info : McBulkMap) (log evs : List Event) :
    attempts b info (log ++ evs) = attempts b info log ++ attempts b info evs :=
  List.filterMap_append ..

/-- The log is about blocks before `n`, as far as these are allocated or mapped. -/
structure Below (n : Block) (log : List Event) : Prop where
  out : ∀ b ∈ loans.out log, b < n
  maps : ∀ b info, .mcMap b info ∈ log → b < n

/-- The events are about blocks from `n` on, as far as these are allocated or unmapped. -/
structure Above (n : Block) (evs : List Event) : Prop where
  out : ∀ b ∈ loans.out evs, n ≤ b
  unmaps : ∀ b info mcRet, .mcUnmap (some b) info mcRet ∈ evs → n ≤ b

section Owned

variable {mapped p next : Block} {log : List Event} (h : Owned mapped p next log)

include h

/-- A preparation maps nothing. -/
theorem Owned.not_mcMap (q : Block) (info : McBulkMap) : Event.mcMap q info ∉ log := by
  intro hmem
  rcases h.quiet _ hmem with ⟨_, _, he⟩ | ⟨_, _, he⟩
  · cases he
  · cases he

/-- A preparation unmaps nothing. -/
theorem Owned.not_mcUnmap (q : Option Block) (info : McBulkMap) (mcRet : McResult) :
    Event.mcUnmap q info mcRet ∉ log := by
  intro hmem
  rcases h.quiet _ hmem with ⟨_, _, he⟩ | ⟨_, _, he⟩
  · cases he
  · cases he

theorem Owned.attempts_eq (q : Block) (info : McBulkMap) : attempts q info log = [] := by
  refine List.filterMap_eq_nil_iff.mpr fun e he => ?_
  cases e with
  | mcUnmap q' info' mcRet => exact absurd he (h.not_mcUnmap q' info' mcRet)
  | _ => rfl

end Owned

theorem attempts_map (b p : Block) (info : McBulkMap) (rets : List McResult) :
    attempts b info (rets.map (.mcUnmap (some p) info)) = if p = b then rets else [] := by
  induction rets with
  | nil => simp [attempts]
  | cons r rets ih =>
    rw [List.map_cons, ← List.singleton_append, attempts_append, ih]
    by_cases hp : p = b <;> simp [attempts, hp]

theorem not_triedOnce_nil : ¬ TriedOnce [] := by
  rintro ⟨failed, last, h, -⟩
  simp at h

/-- Nothing is mapped in these events. -/
theorem unmapped_of_no_map {log : List Event} (h : ∀ b info, .mcMap b info ∉ log) :
    Unmapped log := by
  induction log with
  | nil => trivial
  | cons e log ih =>
    refine ⟨?_, ih fun b info hmem => h b info (List.mem_cons_of_mem _ hmem)⟩
    rintro b info rfl
    exact absurd List.mem_cons_self (h b info)

theorem mappedRound_eq (b : Block) (info : McBulkMap) (p : Prep) (rets : List McResult) :
    mappedRound b info p rets = [Event.malloc b, Event.mcMap b info] ++ (p.log ++
      (rets.map (Event.mcUnmap (some p.mappedP) info) ++ [Event.free p.mappedP])) := rfl

theorem mem_mappedRound {b : Block} {info : McBulkMap} {p : Prep} {rets : List McResult}
    {e : Event} (h : e ∈ mappedRound b info p rets) : e = .malloc b ∨ e = .mcMap b info ∨
      e ∈ p.log ∨ (∃ r, e = .mcUnmap (some p.mappedP) info r) ∨ e = .free p.mappedP := by
  rcases List.mem_cons.mp h with he | h
  · exact .inl he
  rcases List.mem_cons.mp h with he | h
  · exact .inr (.inl he)
  rcases List.mem_append.mp h with he | h
  · exact .inr (.inr (.inl he))
  rcases List.mem_append.mp h with h | h
  · obtain ⟨r, -, he⟩ := List.mem_map.mp h
    exact .inr (.inr (.inr (.inl ⟨r, he.symm⟩)))
  · exact .inr (.inr (.inr (.inr (List.mem_singleton.mp h))))

/-- Attempts to unmap neither give out a block nor take one back. -/
theorem loans_attempts (p : Block) (info : McBulkMap) (rets : List McResult) :
    loans.out (rets.map (.mcUnmap (some p) info)) = [] ∧
      loans.returned (rets.map (.mcUnmap (some p) info)) = [] := by
  induction rets with
  | nil => exact ⟨rfl, rfl⟩
  | cons r rets ih => exact ih

theorem out_mappedRound (b : Block) (info : McBulkMap) (p : Prep) (rets : List McResult) :
    loans.out (mappedRound b info p rets) = b :: loans.out p.log := by
  rw [mappedRound_eq, Loans.out_append, Loans.out_append, Loans.out_append,
    (loans_attempts p.mappedP info rets).1]
  show [b] ++ (loans.out p.log ++ []) = b :: loans.out p.log
  rw [List.append_nil, List.singleton_append]

theorem returned_mappedRound (b : Block) (info : McBulkMap) (p : Prep) (rets : List McResult) :
    loans.returned (mappedRound b info p rets) = loans.returned p.log ++ [p.mappedP] := by
  rw [mappedRound_eq, Loans.returned_append, Loans.returned_append, Loans.returned_append,
    (loans_attempts p.mappedP info rets).2]
  rfl

section MappedRound

variable {b : Block} {p : Prep} (h : Owned b p.mappedP p.next p.log) (info : McBulkMap)
  (rets : List McResult)

include h

/-- The mapping of a round is undone exactly when the buffer has not moved. -/
theorem unmapped_mappedRound_iff (hrets : TriedOnce rets) :
    Unmapped (mappedRound b info p rets) ↔ p.mappedP = b := by
  have hattempts : attempts b info
      (p.log ++ (rets.map (Event.mcUnmap (some p.mappedP) info) ++ [Event.free p.mappedP])) =
        if p.mappedP = b then rets else [] := by
    rw [attempts_append, attempts_append, h.attempts_eq, attempts_map]
    exact List.append_nil _
  have hrest : Unmapped
      (p.log ++ (rets.map (Event.mcUnmap (some p.mappedP) info) ++ [Event.free p.mappedP])) := by
    refine unmapped_of_no_map fun b' info' hmem => ?_
    rcases List.mem_append.mp hmem with hlog | hend
    · exact h.not_mcMap b' info' hlog
    · simp at hend
  have hround : Unmapped (mappedRound b info p rets) ↔
      TriedOnce (if p.mappedP = b then rets else []) := by
    refine ⟨fun hu => hattempts ▸ hu.2.1 b info rfl, fun ht => ⟨nofun, ?_, hrest⟩⟩
    intro b' info' he
    cases he
    rwa [hattempts]
  rw [hround]
  split
  · next hp => exact iff_of_true hrets hp
  · next hp => exact iff_of_false not_triedOnce_nil hp

/-- Every buffer of a round is freed once, wherever it may have moved. -/
theorem settled_mappedRound : loans.Settled (mappedRound b info p rets) := by
  constructor
  · rw [out_mappedRound]
    exact h.nodup
  · rw [out_mappedRound, returned_mappedRound]
    exact h.perm

theorem Owned.mappedP_range : b ≤ p.mappedP ∧ p.mappedP < p.next :=
  h.range _ (h.perm.mem_iff.mp (List.mem_append_right _ (List.mem_singleton_self _)))

theorem above_mappedRound : Above b (mappedRound b info p rets) := by
  constructor
  · rw [out_mappedRound]
    exact fun b' hb' => (h.range b' hb').1
  · intro b' info' mcRet hmem
    rcases mem_mappedRound hmem with he | he | hlog | ⟨r, he⟩ | he
    · cases he
    · cases he
    · exact absurd hlog (h.not_mcUnmap _ info' mcRet)
    · cases he
      exact h.mappedP_range.1
    · cases he

theorem below_mappedRound : Below p.next (mappedRound b info p rets) := by
  constructor
  · rw [out_mappedRound]
    exact fun b' hb' => (h.range b' hb').2
  · intro b' info' hmem
    rcases mem_mappedRound hmem with he | he | hlog | ⟨r, he⟩ | he
    · cases he
    · cases he
      exact (h.range _ List.mem_cons_self).2
    · exact absurd hlog (h.not_mcMap b' info')
    · cases he
    · cases he

end MappedRound

/-! ## Round after round -/

section Append

variable {n : Block} {log evs : List Event} (hlog : Below n log) (hevs : Above n evs)

include hlog hevs

theorem settled_append (h : loans.Settled log) (h' : loans.Settled evs) :
    loans.Settled (log ++ evs) := by
  refine h.append h' fun b hb hb' => ?_
  exact Nat.lt_irrefl b (Nat.lt_of_lt_of_le (hlog.out b hb) (hevs.out b hb'))

/-- What comes later does not undo what has been mapped before. -/
theorem unmapped_append_iff : Unmapped (log ++ evs) ↔ Unmapped log ∧ Unmapped evs := by
  refine followed_append_iff fun e he es => ?_
  have hnone : ∀ b info, e = .mcMap b info → attempts b info evs = [] := by
    rintro b info rfl
    refine List.filterMap_eq_nil_iff.mpr fun e' he' => ?_
    cases e' with
    | mcUnmap q info' mcRet =>
      dsimp only
      rw [if_neg]
      rintro ⟨rfl, rfl⟩
      have hlt := hlog.maps b _ he
      have hle := hevs.unmaps b _ _ he'
      exact Nat.lt_irrefl b (Nat.lt_of_lt_of_le hlt hle)
    | _ => rfl
  constructor
  · intro h b info hb
    have := h b info hb
    rwa [attempts_append, hnone b info hb, List.append_nil] at this
  · intro h b info hb
    rw [attempts_append, hnone b info hb, List.append_nil]
    exact h b info hb

end Append

theorem Below.append {n m : Block} {log evs : List Event} (h : Below n log) (hnm : n ≤ m)
    (h' : Below m evs) : Below m (log ++ evs) := by
  constructor
  · intro b hb
    rw [Loans.out_append] at hb
    rcases List.mem_append.mp hb with hb | hb
    · exact Nat.lt_of_lt_of_le (h.out b hb) hnm
    · exact h'.out b hb
  · intro b info hmem
    rcases List.mem_append.mp hmem with hmem | hmem
    · exact Nat.lt_of_lt_of_le (h.maps b info hmem) hnm
    · exact h'.maps b info hmem

namespace Call

variable {c : Call}

/-- In round `n`, if the loop comes to that and maps a buffer, the buffer stays where it is. -/
def KeepsBuffer (c : Call) (n : Nat) : Prop :=
  ∀ s info, c.before n = some s → (c.answers n).malloc = true → (c.answers n).mcMap = .ok info →
    Stays s.mappedSize (c.answers n).prepare c.commandId c.length

theorem keepsBuffer_iff {n : Nat} {s : Handle} {info : McBulkMap} {p : Prep}
    (hs : c.before n = some s) (hmalloc : (c.answers n).malloc = true)
    (hmap : (c.answers n).mcMap = .ok info)
    (hp : (prepareCommand s.mappedSize (c.answers n).prepare c.commandId c.length
      (.start s.next (s.next + 1))).2 = p) :
    c.KeepsBuffer n ↔ p.mappedP = s.next := by
  rw [← hp, prepareCommand_stays (Nat.lt_succ_self _)]
  constructor
  · exact fun h => h s info hs hmalloc hmap
  · intro h u info' hu _ _
    rw [hs] at hu
    obtain rfl := Option.some.inj hu
    exact h

theorem again_eq_some {s t : Handle} {a : RoundAnswers} (h : c.again s a = some t) :
    pass c.commandId c.length s a = .again t := by
  unfold again at h
  split at h
  · next hpass =>
    obtain rfl := Option.some.inj h
    exact hpass
  · cases h

/-- Before every round, all buffers have been freed, and all mappings undone if no buffer has
moved. -/
theorem before_inv {n : Nat} {s : Handle} (h : c.before n = some s) :
    Below s.next s.log ∧ loans.Settled s.log ∧
      (Unmapped s.log ↔ ∀ m < n, c.KeepsBuffer m) := by
  induction n generalizing s with
  | zero =>
    obtain rfl := Option.some.inj h
    exact ⟨⟨nofun, nofun⟩, Loans.settled_nil, iff_of_true trivial nofun⟩
  | succ n ih =>
    obtain ⟨u, hu, hagain⟩ := Option.bind_eq_some_iff.mp h
    obtain ⟨hbelow, hsettled, hunmapped⟩ := ih hu
    obtain ⟨info, p, hmalloc, hmap, hp, hlog, hnext, -⟩ := pass_again (again_eq_some hagain)
    have howned := owned_prepareCommand _ _ _ _ _ hp
    have habove := above_mappedRound howned info [mcDrvOk]
    have honce : TriedOnce [mcDrvOk] := ⟨[], mcDrvOk, rfl, Nat.zero_le _, nofun⟩
    rw [hlog, hnext]
    refine ⟨hbelow.append ?_ (below_mappedRound howned info _),
      settled_append hbelow habove hsettled (settled_mappedRound howned info _), ?_⟩
    · exact Nat.le_of_lt (howned.range _ List.mem_cons_self).2
    · rw [unmapped_append_iff hbelow habove, hunmapped,
        unmapped_mappedRound_iff howned info _ honce, Nat.forall_lt_succ_right,
        keepsBuffer_iff hu hmalloc hmap hp]

/-- A buffer that was not mapped, or was not there, does not count. -/
theorem clean_of_not_mapped (b : Block) (info : McBulkMap) (mcRet : McResult) {evs : List Event}
    (h : evs = [.mcUnmap none info mcRet] ∨
      evs = [.malloc b, .mcUnmap (some b) info mcRet, .free b]) :
    Above b evs ∧ loans.Settled evs ∧ Unmapped evs := by
  rcases h with rfl | rfl
  · refine ⟨⟨nofun, by simp⟩, ⟨List.nodup_nil, .refl _⟩, unmapped_of_no_map (by simp)⟩
  · refine ⟨⟨?_, ?_⟩, ⟨List.nodup_singleton b, .refl _⟩, unmapped_of_no_map (by simp)⟩
    · intro b' hb'
      rw [List.mem_singleton.mp hb']
    · intro b' info' mcRet' hmem
      simp only [List.mem_cons, reduceCtorEq, Event.mcUnmap.injEq, Option.some.injEq, false_or,
        List.not_mem_nil, or_false] at hmem
      rw [hmem.1]

/-- What is left behind when the call returns. -/
theorem result_inv {n : Nat} {r : RootpaError × List Event} (hc : c.refused = none)
    (h : c.executeOneCmpCommand n = some r) :
    loans.Settled r.2 ∧ (Unmapped r.2 ↔ ∀ m ≤ n, c.KeepsBuffer m) := by
  unfold executeOneCmpCommand at h
  rw [hc] at h
  dsimp only at h
  cases hs : c.before n with
  | none =>
    rw [hs] at h
    cases h
  | some s =>
    rw [hs] at h
    dsimp only at h
    cases hpass : pass c.commandId c.length s (c.answers n) with
    | again t =>
      rw [hpass] at h
      cases h
    | broken ret t =>
      rw [hpass] at h
      obtain rfl := Option.some.inj h
      obtain ⟨hbelow, hsettled, hunmapped⟩ := before_inv hs
      simp only [← Nat.lt_succ_iff, Nat.succ_eq_add_one, Nat.forall_lt_succ_right]
      by_cases hmapped : ∀ info, (c.answers n).malloc = true → (c.answers n).mcMap ≠ .ok info
      · have hkeeps : c.KeepsBuffer n := fun _ info _ hmalloc hmap =>
          absurd hmap (hmapped info hmalloc)
        obtain ⟨info, evs, hevs, hlog⟩ :=
          cleanUp_of_not_mapped hpass hmapped c.handled c.mcUnmap
        obtain ⟨habove, hsettled', hunmapped'⟩ := clean_of_not_mapped s.next info c.mcUnmap hevs
        rw [hlog]
        refine ⟨settled_append hbelow habove hsettled hsettled', ?_⟩
        rw [unmapped_append_iff hbelow habove, hunmapped]
        exact ⟨fun h => ⟨h.1, hkeeps⟩, fun h => ⟨h.1, hunmapped'⟩⟩
      · push Not at hmapped
        obtain ⟨info, hmalloc, hmap⟩ := hmapped
        obtain ⟨rets, honce, hlog⟩ :=
          cleanUp_of_mapped hpass hmalloc hmap c.handled c.mcUnmap rfl
        have howned := owned_prepareCommand s.mappedSize (c.answers n).prepare c.commandId c.length
          s.next rfl
        have habove := above_mappedRound howned info rets
        rw [hlog]
        refine ⟨settled_append hbelow habove hsettled (settled_mappedRound howned info _), ?_⟩
        rw [unmapped_append_iff hbelow habove, hunmapped,
          unmapped_mappedRound_iff howned info _ honce, keepsBuffer_iff hs hmalloc hmap rfl]

theorem grows {n : Nat} {s t : Handle} (hs : c.before n = some s)
    (ht : c.before (n + 1) = some t) : s.mappedSize < t.mappedSize := by
  obtain ⟨u, hu, hagain⟩ := Option.bind_eq_some_iff.mp ht
  have hu : c.before n = some u := hu
  rw [hs] at hu
  obtain rfl := Option.some.inj hu
  obtain ⟨_, _, _, _, _, _, _, hlarger⟩ := pass_again (again_eq_some hagain)
  exact hlarger

/-- No round has less room than the first. -/
theorem start_le_mappedSize {n : Nat} {s : Handle} (hs : c.before n = some s) :
    c.start.mappedSize.toNat ≤ s.mappedSize.toNat := by
  refine loopState_inv c.again (I := fun s => c.start.mappedSize.toNat ≤ s.mappedSize.toNat)
    (Nat.le_refl _) ?_ hs
  intro n u t hu hagain
  obtain ⟨_, _, _, _, _, _, _, hlarger⟩ := pass_again (again_eq_some hagain)
  exact Nat.le_trans hu (Nat.le_of_lt (UInt32.lt_iff_toNat_lt.mp hlarger))

/-- Containers that are no larger than their structures never make a buffer move. -/
theorem keepsBuffer_of_sizeof (hc : getCmpSizeInfo c.commandId ≠ none)
    (hlength : c.length.toNat + 616 < 4294967296)
    (hsizes : ∀ n k, ((c.answers n).prepare.regRead k).contSize.toNat ≤ k.sizeof.toNat) (n : Nat) :
    c.KeepsBuffer n := by
  intro s info hs _ _
  apply stays_of_needed_le
  calc needed c.commandId c.length (c.answers n).prepare
      ≤ (getTotalMappedBufferSize c.commandId c.length).toNat :=
        needed_le_getTotalMappedBufferSize hc hlength (hsizes n)
    _ ≤ s.mappedSize.toNat := start_le_mappedSize hs

/-- There is a last round, since the size grows and has 32 bits. -/
theorem exists_last (c : Call) : ∃ n s, c.before n = some s ∧ c.before (n + 1) = none := by
  have hgrows : ∀ n u t, c.before n = some u → c.again u (c.answers n) = some t →
      4294967296 - t.mappedSize.toNat < 4294967296 - u.mappedSize.toNat := by
    intro n u t _ ht
    obtain ⟨_, _, _, _, _, _, _, hlarger⟩ := pass_again (again_eq_some ht)
    have := UInt32.lt_iff_toNat_lt.mp hlarger
    have := t.mappedSize.toNat_lt
    omega
  obtain ⟨n, hn⟩ := loop_ends (m := fun s : Handle => 4294967296 - s.mappedSize.toNat) c.again hgrows
  exact loop_last c.again hn

/-- The call returns from the last round. -/
theorem returns_last {n : Nat} {s : Handle} (hc : c.refused = none) (hs : c.before n = some s)
    (hlast : c.before (n + 1) = none) : ∃ r, c.executeOneCmpCommand n = some r := by
  have hagain : c.again s (c.answers n) = none := by
    have hbind : c.before (n + 1) = (c.before n).bind fun t => c.again t (c.answers n) := rfl
    rw [hs] at hbind
    exact hbind.symm.trans hlast
  unfold executeOneCmpCommand
  rw [hc]
  dsimp only
  rw [hs]
  dsimp only
  cases hpass : pass c.commandId c.length s (c.answers n) with
  | again t => simp [again, hpass] at hagain
  | broken ret t => exact ⟨_, rfl⟩

end Call

/-- **What a call leaves behind.**  Every call of `executeOneCmpCommand`, whatever the trustlet
answers and however the allocations, the maps and the unmaps go, ends after rounds of growing size
and has freed every buffer once.  It has also undone every mapping, if and only if it is refused or
no call of `realloc` moves a buffer that is mapped. -/
theorem released_iff_keepsBuffer (c : Call) :
    Released c ↔ (c.refused = none → ∀ n, c.KeepsBuffer n) := by
  cases hc : c.refused with
  | some ret =>
    have hresult : ∀ n, c.executeOneCmpCommand n = some (ret, []) := by
      intro n
      simp only [Call.executeOneCmpCommand, hc]
    refine iff_of_true ⟨fun _ _ _ => Call.grows, ⟨0, _, hresult 0⟩, ?_, ?_⟩ nofun
    · intro n r h
      obtain rfl := Option.some.inj ((hresult n).symm.trans h)
      exact Loans.settled_nil
    · intro n r h
      obtain rfl := Option.some.inj ((hresult n).symm.trans h)
      trivial
  | none =>
    obtain ⟨last, s, hs, hlast⟩ := c.exists_last
    obtain ⟨r, hr⟩ := Call.returns_last hc hs hlast
    constructor
    · intro h _ n
      by_cases hn : n ≤ last
      · exact (Call.result_inv hc hr).2.mp (h.unmapped last r hr) n hn
      · -- the loop does not come to this round
        intro u info hu
        obtain ⟨t, ht⟩ := loopState_of_le c.again (show last + 1 ≤ n by omega) hu
        exact absurd (ht.symm.trans hlast) nofun
    · intro hkeeps
      refine ⟨fun _ _ _ => Call.grows, ⟨last, r, hr⟩, fun n r h => (Call.result_inv hc h).1, ?_⟩
      exact fun n r h => (Call.result_inv hc h).2.mpr fun m _ => hkeeps rfl m

/-! ## A mapping that stays -/

/-- The trustlet answers `BEGIN_SOC_AUTHENTICATION` in the first round; everything works, and the
token has that size. -/
def beginSocAuthentication (contSize : UInt32) : Call where
  content := some .beginSocAuthentication
  length := 72
  mapInfo := .zero
  next := 0
  answers _ := ⟨true, .ok ⟨0x7000, 224⟩, containersOf contSize, true, ⟨cmpVersion, 0x80000002, 0⟩,
    mcDrvOk⟩
  handled := .ok
  mcUnmap := mcDrvOk

/-- Behind a token of 1000 bytes the call returns success, and has asked for a block to be unmapped
that never was mapped. -/
theorem not_released_largeToken :
    (beginSocAuthentication 1000).executeOneCmpCommand 0 = some (.ok,
      [.malloc 0, .mcMap 0 ⟨0x7000, 224⟩, .realloc 0 1, .mcUnmap (some 1) ⟨0x7000, 224⟩ mcDrvOk,
        .free 1]) ∧
    ¬ Released (beginSocAuthentication 1000) := by
  have hresult : (beginSocAuthentication 1000).executeOneCmpCommand 0 = some (.ok,
      [.malloc 0, .mcMap 0 ⟨0x7000, 224⟩, .realloc 0 1, .mcUnmap (some 1) ⟨0x7000, 224⟩ mcDrvOk,
        .free 1]) := rfl
  refine ⟨hresult, fun h => ?_⟩
  have hunmapped := h.unmapped 0 _ hresult
  exact not_triedOnce_nil (hunmapped.2.1 0 _ rfl)

end McDaemon.RootPa.Cmp
