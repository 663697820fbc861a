/-
# McDaemon.Proxy.DriverMaps — several buffers in one call of the driver client.

The driver client maps and unmaps up to four buffers in one call, one after the other, and each of
them may fail.  A map that fails unmaps what it has mapped, and passes the buffer that failed along
with an address that nobody has set.  An unmap goes on after a failure and reports it at the end.
A daemon that refuses to unmap a buffer is taken for one that is dead, and the device with it.
-/
import Mathlib.Data.List.Nodup
import Mathlib.Tactic.SplitIfs

namespace McDaemon.Proxy

/-! ## One buffer -/

/-- A buffer that is mapped to the session: its address, its length and its secure address. -/
structure Mapping where
  va : Nat
  len : Nat
  sva : Nat
deriving DecidableEq, Repr

/-- `mcMap_`, where `answer` is the secure address if the daemon maps the buffer. -/
def mcMap_ (driver : List Mapping) (va len : Nat) (answer : Option Nat) : Option Mapping :=
  if driver.any (·.va = va) then none else answer.map fun sva => ⟨va, len, sva⟩

/-- What becomes of a buffer that is to be unmapped: the daemon refuses, or it unmaps the buffer and
the kernel module unregisters it or not. -/
inductive UnmapAnswer
  | refused
  | unmapped
  | stillRegistered
deriving DecidableEq, Repr

/-- The daemon unmaps the buffer. -/
def UnmapAnswer.unmaps (answer : UnmapAnswer) : Bool := answer ≠ .refused

structure UnmapStep where
  ok : Bool
  invalid : Bool
  driver : List Mapping

/-- `mcUnmap_`: the handle is looked up by secure address and length, the descriptor by address.
`MC_DRV_ERR_DAEMON_UNREACHABLE`, which stands for a refusal, is `MC_DRV_ERR_SOCKET_READ`, on which
the device is made invalid. -/
def mcUnmap_ (driver : List Mapping) (m : Mapping) (answer : UnmapAnswer) : UnmapStep :=
  if m.sva = 0 then ⟨false, false, driver⟩
  else
    match driver.find? (fun e => e.sva = m.sva ∧ e.len = m.len) with
    | none => ⟨false, false, driver⟩
    | some e =>
      if answer.unmaps then
        ⟨driver.any (·.va = m.va) && answer = .unmapped, false, driver.erase e⟩
      else ⟨false, true, driver⟩

/-! ## The two calls -/

/-- A buffer of a map: `buf.sva` is what the memory held before, `answer` what `mcMap_` gets, and
`unwinds` what `mcUnmap_` gets if it is unmapped again. -/
structure MapBuf where
  buf : Mapping
  answer : Option Nat
  unwinds : UnmapAnswer
deriving DecidableEq, Repr

/-- What the buffer is mapped to when it is. -/
def MapBuf.granted (b : MapBuf) : Mapping := { b.buf with sva := b.answer.getD 0 }

structure MapResult where
  failed : Bool
  mapped : Bool
  driver : List Mapping
  bufs : List (Mapping × UnmapAnswer)

/-- The loop of `DriverClient::map`; after a failure the rest is marked as skipped. -/
def mapLoop (failed : Bool) (driver : List Mapping) : List MapBuf → MapResult
  | [] => ⟨failed, false, driver, []⟩
  | b :: bufs =>
    if b.buf.va = 0 then
      let r := mapLoop failed driver bufs
      { r with bufs := (b.buf, b.unwinds) :: r.bufs }
    else if failed then
      let r := mapLoop failed driver bufs
      { r with bufs := ({ b.buf with va := 0 }, b.unwinds) :: r.bufs }
    else
      match mcMap_ driver b.buf.va b.buf.len b.answer with
      | none =>
        let r := mapLoop true driver bufs
        { r with bufs := (b.buf, b.unwinds) :: r.bufs }
      | some m =>
        let r := mapLoop false (driver ++ [m]) bufs
        { r with mapped := true, bufs := (m, b.unwinds) :: r.bufs }

structure UnmapResult where
  failed : Bool
  unmapped : Bool
  invalid : Bool
  driver : List Mapping

/-- The loop of `DriverClient::unmap`. -/
def unmapLoop (driver : List Mapping) : List (Mapping × UnmapAnswer) → UnmapResult
  | [] => ⟨false, false, false, driver⟩
  | (m, answer) :: bufs =>
    if m.va = 0 then unmapLoop driver bufs
    else
      let step := mcUnmap_ driver m answer
      let r := unmapLoop step.driver bufs
      let invalid := step.invalid || r.invalid
      if step.ok then { r with unmapped := true, invalid := invalid }
      else { r with failed := true, invalid := invalid }

/-- How a call of the driver client ends: whether it succeeds, whether the device has become
invalid, and what is mapped then. -/
structure CallResult where
  ok : Bool
  invalid : Bool
  driver : List Mapping

/-- `DriverClient::unmap`. -/
def driverUnmap (driver : List Mapping) (bufs : List (Mapping × UnmapAnswer)) : CallResult :=
  let r := unmapLoop driver bufs
  ⟨!r.failed && r.unmapped, r.invalid, r.driver⟩

/-- `DriverClient::map`, with the buffers as it leaves them. -/
def driverMap (driver : List Mapping) (bufs : List MapBuf) :
    CallResult × List (Mapping × UnmapAnswer) :=
  let r := mapLoop false driver bufs
  if r.failed then
    if r.mapped then ({ driverUnmap r.driver r.bufs with ok := false }, r.bufs)
    else (⟨false, false, r.driver⟩, r.bufs)
  else (⟨r.mapped, false, r.driver⟩, r.bufs)

/-! ## Unmapping -/

/-- Secure addresses are apart, and none is zero. -/
structure Distinct (driver : List Mapping) : Prop where
  nodup : (driver.map Mapping.sva).Nodup
  ne_zero : ∀ e ∈ driver, e.sva ≠ 0

section Unmap

variable {driver : List Mapping} {m : Mapping} {answer : UnmapAnswer}
  {bufs : List (Mapping × UnmapAnswer)}

theorem Distinct.sublist {front : List Mapping} (h : Distinct driver) (hs : front.Sublist driver) :
    Distinct front where
  nodup := h.nodup.sublist (hs.map _)
  ne_zero := fun e he => h.ne_zero e (hs.subset he)

theorem Distinct.eq_of_sva (h : Distinct driver) {e d : Mapping} (he : e ∈ driver)
    (hd : d ∈ driver) (heq : e.sva = d.sva) : e = d :=
  List.inj_on_of_nodup_map h.nodup he hd heq

theorem Distinct.list_nodup (h : Distinct driver) : driver.Nodup := List.Nodup.of_map _ h.nodup

theorem unmaps_of_ne (h : answer ≠ .refused) : answer.unmaps = true := decide_eq_true h

/-- A mapped buffer is found as what it is. -/
theorem mcUnmap_mem (h : Distinct driver) (hm : m ∈ driver) (answer : UnmapAnswer) :
    mcUnmap_ driver m answer =
      if answer.unmaps then ⟨answer = .unmapped, false, driver.erase m⟩
      else ⟨false, true, driver⟩ := by
  have hfind : driver.find? (fun e => e.sva = m.sva ∧ e.len = m.len) = some m := by
    cases hf : driver.find? (fun e => e.sva = m.sva ∧ e.len = m.len) with
    | none =>
      have hnone := List.find?_eq_none.mp hf m hm
      simp at hnone
    | some e =>
      have hsame := List.find?_some hf
      simp only [decide_eq_true_eq] at hsame
      rw [h.eq_of_sva (List.mem_of_find?_eq_some hf) hm hsame.1]
  have hany : driver.any (·.va = m.va) = true :=
    List.any_eq_true.mpr ⟨m, hm, decide_eq_true rfl⟩
  unfold mcUnmap_
  rw [if_neg (h.ne_zero m hm), hfind]
  dsimp only
  rw [hany, Bool.true_and]

theorem mcUnmap_absent (h : ∀ e ∈ driver, m.sva ≠ 0 → e.sva = m.sva → e.len ≠ m.len)
    (answer : UnmapAnswer) : mcUnmap_ driver m answer = ⟨false, false, driver⟩ := by
  unfold mcUnmap_
  by_cases hzero : m.sva = 0
  · rw [if_pos hzero]
  · have hfind : driver.find? (fun e => e.sva = m.sva ∧ e.len = m.len) = none := by
      apply List.find?_eq_none.mpr
      intro e he hsame
      simp only [decide_eq_true_eq] at hsame
      exact h e he hzero hsame.1 hsame.2
    rw [if_neg hzero, hfind]

/-- What `mcUnmap_` does: nothing, or it finds a buffer with the secure address it is given, which
is unmapped unless the daemon refuses. -/
theorem mcUnmap_cases (driver : List Mapping) (m : Mapping) (answer : UnmapAnswer) :
    mcUnmap_ driver m answer = ⟨false, false, driver⟩ ∨
      ∃ e ∈ driver, e.sva = m.sva ∧ e.len = m.len ∧ m.sva ≠ 0 ∧
        (answer = .refused ∧ mcUnmap_ driver m answer = ⟨false, true, driver⟩ ∨
          answer.unmaps = true ∧ ∃ ok, mcUnmap_ driver m answer = ⟨ok, false, driver.erase e⟩ ∧
            (ok = true → answer = .unmapped)) := by
  unfold mcUnmap_
  by_cases hzero : m.sva = 0
  · rw [if_pos hzero]
    exact .inl rfl
  · rw [if_neg hzero]
    cases hf : driver.find? (fun e => e.sva = m.sva ∧ e.len = m.len) with
    | none => exact .inl rfl
    | some e =>
      have hsame := List.find?_some hf
      simp only [decide_eq_true_eq] at hsame
      refine .inr ⟨e, List.mem_of_find?_eq_some hf, hsame.1, hsame.2, hzero, ?_⟩
      by_cases hrefused : answer = .refused
      · subst hrefused
        exact .inl ⟨rfl, rfl⟩
      · refine .inr ⟨unmaps_of_ne hrefused, driver.any (·.va = m.va) && answer = .unmapped,
          if_pos (unmaps_of_ne hrefused), fun hok => ?_⟩
        exact of_decide_eq_true (Bool.and_eq_true_iff.mp hok).2

theorem mcUnmap_sublist (answer : UnmapAnswer) :
    (mcUnmap_ driver m answer).driver.Sublist driver := by
  rcases mcUnmap_cases driver m answer with heq | ⟨e, -, -, -, -, ⟨-, heq⟩ | ⟨-, ok, heq, -⟩⟩
  · rw [heq]
  · rw [heq]
  · rw [heq]
    exact List.erase_sublist

theorem unmapLoop_skip (hva : m.va = 0) :
    unmapLoop driver ((m, answer) :: bufs) = unmapLoop driver bufs :=
  if_pos hva

/-- One turn of the loop. -/
theorem unmapLoop_turn (hva : m.va ≠ 0) :
    unmapLoop driver ((m, answer) :: bufs) =
      let step := mcUnmap_ driver m answer
      let r := unmapLoop step.driver bufs
      let invalid := step.invalid || r.invalid
      if step.ok then { r with unmapped := true, invalid := invalid }
      else { r with failed := true, invalid := invalid } :=
  if_neg hva

theorem unmapLoop_driver (hva : m.va ≠ 0) :
    (unmapLoop driver ((m, answer) :: bufs)).driver =
      (unmapLoop (mcUnmap_ driver m answer).driver bufs).driver := by
  rw [unmapLoop_turn hva]
  dsimp only
  split_ifs
  · rfl
  · rfl

theorem unmapLoop_invalid (hva : m.va ≠ 0) :
    (unmapLoop driver ((m, answer) :: bufs)).invalid = ((mcUnmap_ driver m answer).invalid ||
      (unmapLoop (mcUnmap_ driver m answer).driver bufs).invalid) := by
  rw [unmapLoop_turn hva]
  dsimp only
  split_ifs
  · rfl
  · rfl

theorem unmapLoop_sublist : (unmapLoop driver bufs).driver.Sublist driver := by
  induction bufs generalizing driver with
  | nil => exact List.Sublist.refl _
  | cons b bufs ih =>
    obtain ⟨m, answer⟩ := b
    by_cases hva : m.va = 0
    · rw [unmapLoop_skip hva]
      exact ih
    · rw [unmapLoop_driver hva]
      exact ih.trans (mcUnmap_sublist answer)

theorem unmapLoop_append_driver {more : List (Mapping × UnmapAnswer)} :
    (unmapLoop driver (bufs ++ more)).driver =
      (unmapLoop (unmapLoop driver bufs).driver more).driver := by
  induction bufs generalizing driver with
  | nil => rfl
  | cons b bufs ih =>
    obtain ⟨m, answer⟩ := b
    rw [List.cons_append]
    by_cases hva : m.va = 0
    · rw [unmapLoop_skip hva, unmapLoop_skip hva]
      exact ih
    · rw [unmapLoop_driver hva, unmapLoop_driver hva]
      exact ih

theorem unmapLoop_append_invalid {more : List (Mapping × UnmapAnswer)} :
    (unmapLoop driver (bufs ++ more)).invalid = ((unmapLoop driver bufs).invalid ||
      (unmapLoop (unmapLoop driver bufs).driver more).invalid) := by
  induction bufs generalizing driver with
  | nil => exact (Bool.false_or _).symm
  | cons b bufs ih =>
    obtain ⟨m, answer⟩ := b
    rw [List.cons_append]
    by_cases hva : m.va = 0
    · rw [unmapLoop_skip hva, unmapLoop_skip hva]
      exact ih
    · rw [unmapLoop_invalid hva, unmapLoop_invalid hva, unmapLoop_driver hva, ih, Bool.or_assoc]

/-- Buffers that are skipped change nothing. -/
theorem unmapLoop_idle (h : ∀ b ∈ bufs, b.1.va = 0) :
    (unmapLoop driver bufs).driver = driver ∧ (unmapLoop driver bufs).invalid = false := by
  induction bufs with
  | nil => exact ⟨rfl, rfl⟩
  | cons b bufs ih =>
    obtain ⟨m, answer⟩ := b
    rw [unmapLoop_skip (h _ List.mem_cons_self)]
    exact ih fun d hd => h d (List.mem_cons_of_mem _ hd)

/-- A buffer that is mapped, and that the daemon refuses to unmap when it is first asked. -/
def Refuses (driver : List Mapping) (bufs : List (Mapping × UnmapAnswer)) : Prop :=
  ∃ pre m post, bufs = pre ++ (m, .refused) :: post ∧ m ∈ driver ∧ m ∉ pre.map Prod.fst

/-- The buffers are mapped, or nothing is mapped under their secure addresses any more. -/
def Asked (driver : List Mapping) (bufs : List (Mapping × UnmapAnswer)) : Prop :=
  ∀ b ∈ bufs, b.1.va ≠ 0 ∧ (b.1 ∈ driver ∨ b.1.sva ∉ driver.map Mapping.sva)

theorem Asked.erase (h : Distinct driver) (ha : Asked driver bufs) (hm : m ∈ driver) :
    Asked (driver.erase m) bufs := by
  intro b hb
  obtain ⟨hva, hin⟩ := ha b hb
  refine ⟨hva, ?_⟩
  have hsub : (driver.erase m).Sublist driver := List.erase_sublist
  rcases hin with hin | hout
  · by_cases hbm : b.1 = m
    · refine .inr fun hback => ?_
      obtain ⟨d, hd, hsva⟩ := List.mem_map.mp hback
      rw [hbm] at hsva
      rw [h.eq_of_sva (hsub.subset hd) hm hsva] at hd
      exact h.list_nodup.not_mem_erase hd
    · exact .inl ((List.mem_erase_of_ne hbm).mpr hin)
  · exact .inr fun hback => hout ((hsub.map _).subset hback)

theorem mcUnmap_unknown (h : m.sva ∉ driver.map Mapping.sva) (answer : UnmapAnswer) :
    mcUnmap_ driver m answer = ⟨false, false, driver⟩ := by
  apply mcUnmap_absent
  intro e he _ hsva
  exact absurd (List.mem_map.mpr ⟨e, he, hsva⟩) h

theorem refuses_cons_of_unmaps (hnodup : driver.Nodup) (hu : answer.unmaps = true) :
    Refuses driver ((m, answer) :: bufs) ↔ Refuses (driver.erase m) bufs := by
  constructor
  · rintro ⟨pre, d, post, hsplit, hd, hfirst⟩
    cases pre with
    | nil =>
      cases hsplit
      cases hu
    | cons b pre =>
      cases hsplit
      rw [List.map_cons, List.mem_cons, not_or] at hfirst
      exact ⟨pre, d, post, rfl, (List.mem_erase_of_ne hfirst.1).mpr hd, hfirst.2⟩
  · rintro ⟨pre, d, post, rfl, hd, hfirst⟩
    refine ⟨(m, answer) :: pre, d, post, rfl, List.mem_of_mem_erase hd, ?_⟩
    rw [List.map_cons, List.mem_cons, not_or]
    refine ⟨?_, hfirst⟩
    rintro rfl
    exact hnodup.not_mem_erase hd

theorem refuses_cons_of_not_mem (hm : m ∉ driver) :
    Refuses driver ((m, answer) :: bufs) ↔ Refuses driver bufs := by
  constructor
  · rintro ⟨pre, d, post, hsplit, hd, hfirst⟩
    cases pre with
    | nil =>
      cases hsplit
      exact absurd hd hm
    | cons b pre =>
      cases hsplit
      rw [List.map_cons, List.mem_cons, not_or] at hfirst
      exact ⟨pre, d, post, rfl, hd, hfirst.2⟩
  · rintro ⟨pre, d, post, rfl, hd, hfirst⟩
    refine ⟨(m, answer) :: pre, d, post, rfl, hd, ?_⟩
    rw [List.map_cons, List.mem_cons, not_or]
    refine ⟨?_, hfirst⟩
    rintro rfl
    exact hm hd

/-- The device becomes invalid exactly where the daemon refuses. -/
theorem unmapLoop_invalid_iff (h : Distinct driver) (ha : Asked driver bufs) :
    (unmapLoop driver bufs).invalid = true ↔ Refuses driver bufs := by
  induction bufs generalizing driver with
  | nil =>
    refine ⟨nofun, ?_⟩
    rintro ⟨pre, m, post, hsplit, -⟩
    cases pre <;> cases hsplit
  | cons b bufs ih =>
    obtain ⟨m, answer⟩ := b
    obtain ⟨hva, hin⟩ := ha _ List.mem_cons_self
    have hrest : Asked driver bufs := fun d hd => ha d (List.mem_cons_of_mem _ hd)
    rw [unmapLoop_invalid hva]
    by_cases hm : m ∈ driver
    · rw [mcUnmap_mem h hm]
      by_cases hrefused : answer = .refused
      · subst hrefused
        exact ⟨fun _ => ⟨[], m, bufs, rfl, hm, nofun⟩, fun _ => rfl⟩
      · have hu := unmaps_of_ne hrefused
        rw [if_pos hu, refuses_cons_of_unmaps h.list_nodup hu]
        exact ih (h.sublist List.erase_sublist) (hrest.erase h hm)
    · rw [mcUnmap_unknown (hin.resolve_left hm), refuses_cons_of_not_mem hm]
      exact ih h hrest

/-- Where the daemon does not refuse, the buffers are gone. -/
theorem unmapLoop_valid (h : Distinct driver) (ha : Asked driver bufs)
    (hvalid : (unmapLoop driver bufs).invalid = false) :
    (unmapLoop driver bufs).driver = driver.filter (· ∉ bufs.map Prod.fst) := by
  induction bufs generalizing driver with
  | nil =>
    show driver = _
    simp
  | cons b bufs ih =>
    obtain ⟨m, answer⟩ := b
    obtain ⟨hva, hin⟩ := ha _ List.mem_cons_self
    have hrest : Asked driver bufs := fun d hd => ha d (List.mem_cons_of_mem _ hd)
    rw [unmapLoop_invalid hva] at hvalid
    rw [unmapLoop_driver hva]
    by_cases hm : m ∈ driver
    · rw [mcUnmap_mem h hm] at hvalid ⊢
      by_cases hu : answer.unmaps = true
      · rw [if_pos hu] at hvalid ⊢
        rw [ih (h.sublist List.erase_sublist) (hrest.erase h hm) hvalid,
          h.list_nodup.erase_eq_filter, List.filter_filter]
        apply List.filter_congr
        intro a _
        rw [List.map_cons]
        by_cases hfst : a = m
        · simp [hfst]
        · by_cases hrest : a ∈ bufs.map Prod.fst
          · simp only [hrest, List.mem_cons, or_true, not_true, decide_false, Bool.false_and]
          · simp only [hrest, List.mem_cons, hfst, or_self, not_false_iff, decide_true,
              Bool.true_and, bne_iff_ne, ne_eq]
      · rw [if_neg hu, Bool.true_or] at hvalid
        exact absurd hvalid (by simp)
    · rw [mcUnmap_unknown (hin.resolve_left hm)] at hvalid ⊢
      rw [ih h hrest hvalid]
      apply List.filter_congr
      intro a ha
      have hne : a ≠ m := fun heq => hm (heq ▸ ha)
      simp [hne]

/-- An unmap that reports no failure was asked for different buffers, and each was unmapped. -/
theorem of_unmapLoop_ok (h : Distinct driver) (hva : ∀ b ∈ bufs, b.1.va ≠ 0)
    (hok : (unmapLoop driver bufs).failed = false) :
    (bufs.map fun b => b.1.sva).Nodup ∧ (∀ b ∈ bufs, b.2 = .unmapped) ∧
      ∀ b ∈ bufs, ∃ e ∈ driver, e.sva = b.1.sva ∧ e ∉ (unmapLoop driver bufs).driver := by
  induction bufs generalizing driver with
  | nil => exact ⟨List.nodup_nil, nofun, nofun⟩
  | cons b bufs ih =>
    obtain ⟨m, answer⟩ := b
    have hmva := hva _ List.mem_cons_self
    rw [unmapLoop_turn hmva] at hok
    dsimp only at hok
    rcases mcUnmap_cases driver m answer with
      heq | ⟨e, he, hsva, -, -, ⟨-, heq⟩ | ⟨-, ok, heq, htrue⟩⟩
    · rw [heq] at hok
      cases hok
    · rw [heq] at hok
      cases hok
    · rw [heq] at hok
      cases ok with
      | false => cases hok
      | true =>
        obtain rfl := htrue rfl
        have hsub : (driver.erase e).Sublist driver := List.erase_sublist
        obtain ⟨hnodup, hall, hin⟩ := ih (h.sublist hsub)
          (fun d hd => hva d (List.mem_cons_of_mem _ hd)) hok
        have hgone : ∀ d ∈ driver.erase e, d.sva ≠ m.sva := by
          intro d hd hsame
          rw [h.eq_of_sva (hsub.subset hd) he (hsame.trans hsva.symm)] at hd
          exact h.list_nodup.not_mem_erase hd
        rw [unmapLoop_driver hmva, heq]
        refine ⟨List.nodup_cons.mpr ⟨fun hin' => ?_, hnodup⟩, fun d hd => ?_, fun d hd => ?_⟩
        · obtain ⟨d, hd, hsame⟩ := List.mem_map.mp hin'
          obtain ⟨c, hc, hcsva, -⟩ := hin d hd
          exact hgone c hc (hcsva.trans hsame)
        · rcases List.mem_cons.mp hd with rfl | hd
          · rfl
          · exact hall d hd
        · rcases List.mem_cons.mp hd with rfl | hd
          · refine ⟨e, he, hsva, fun hback => ?_⟩
            exact h.list_nodup.not_mem_erase (unmapLoop_sublist.subset hback)
          · obtain ⟨c, hc, hcsva, hcgone⟩ := hin d hd
            exact ⟨c, hsub.subset hc, hcsva, hcgone⟩

/-- An unmap of different mapped buffers that the daemon does not refuse. -/
theorem unmapLoop_all {ms : List Mapping} (h : Distinct driver)
    (hmem : ∀ m ∈ ms, m ∈ driver ∧ m.va ≠ 0) (hnodup : ms.Nodup) :
    unmapLoop driver (ms.map fun m => (m, .unmapped)) =
      ⟨false, !ms.isEmpty, false, driver.filter (· ∉ ms)⟩ := by
  induction ms generalizing driver with
  | nil =>
    show UnmapResult.mk false false false driver = _
    simp
  | cons m ms ih =>
    obtain ⟨hnew, hnodup⟩ := List.nodup_cons.mp hnodup
    obtain ⟨hm, hva⟩ := hmem m List.mem_cons_self
    have hsub : (driver.erase m).Sublist driver := List.erase_sublist
    have hrest := ih (h.sublist hsub) (fun d hd => by
      obtain ⟨hin, hne⟩ := hmem d (List.mem_cons_of_mem _ hd)
      refine ⟨(List.mem_erase_of_ne ?_).mpr hin, hne⟩
      rintro rfl
      exact hnew hd) hnodup
    have hstep : mcUnmap_ driver m .unmapped = ⟨true, false, driver.erase m⟩ := mcUnmap_mem h hm _
    rw [List.map_cons, unmapLoop_turn hva, hstep]
    dsimp only
    rw [if_pos rfl, hrest, h.list_nodup.erase_eq_filter, List.filter_filter]
    have hsame : (driver.filter fun a => decide (a ∉ ms) && (a != m)) =
        driver.filter (· ∉ m :: ms) := by
      apply List.filter_congr
      intro a _
      by_cases ha : a = m <;> simp [ha]
    rw [hsame]
    rfl

end Unmap

/-! ## Mapping -/

section Map

variable {driver : List Mapping} {bufs pre post : List MapBuf} {b : MapBuf}

/-- The buffers of a map are new to the driver. -/
structure Fresh (driver : List Mapping) (bufs : List MapBuf) : Prop where
  ne_zero : ∀ b ∈ bufs, b.buf.va ≠ 0
  nodup : (bufs.map (·.buf.va)).Nodup
  apart : ∀ b ∈ bufs, ∀ e ∈ driver, e.va ≠ b.buf.va

theorem Fresh.tail (h : Fresh driver (b :: bufs)) : Fresh (driver ++ [b.granted]) bufs where
  ne_zero := fun d hd => h.ne_zero d (List.mem_cons_of_mem _ hd)
  nodup := (List.nodup_cons.mp h.nodup).2
  apart := by
    intro d hd e he
    rcases List.mem_append.mp he with he | he
    · exact h.apart d (List.mem_cons_of_mem _ hd) e he
    · rw [List.mem_singleton.mp he]
      intro heq
      exact (List.nodup_cons.mp h.nodup).1 (List.mem_map.mpr ⟨d, hd, heq.symm⟩)

theorem mcMap_fresh (h : Fresh driver (b :: bufs)) :
    mcMap_ driver b.buf.va b.buf.len b.answer = if b.answer.isSome then some b.granted else none := by
  have hany : driver.any (·.va = b.buf.va) = false := by
    apply List.any_eq_false.mpr
    intro e he
    simpa using h.apart b List.mem_cons_self e he
  unfold mcMap_ MapBuf.granted
  rw [hany]
  cases b.answer <;> rfl

/-- After a failure nothing more is mapped. -/
theorem mapLoop_failed (hne : ∀ b ∈ bufs, b.buf.va ≠ 0) :
    mapLoop true driver bufs =
      ⟨true, false, driver, bufs.map fun b => ({ b.buf with va := 0 }, b.unwinds)⟩ := by
  induction bufs with
  | nil => rfl
  | cons b bufs ih =>
    unfold mapLoop
    rw [if_neg (hne b List.mem_cons_self), if_pos rfl,
      ih fun d hd => hne d (List.mem_cons_of_mem _ hd)]
    rfl

theorem mapLoop_granted (h : Fresh driver (bufs ++ post))
    (hall : ∀ b ∈ bufs, b.answer.isSome = true) :
    mapLoop false driver (bufs ++ post) =
      let r := mapLoop false (driver ++ bufs.map MapBuf.granted) post
      ⟨r.failed, !bufs.isEmpty || r.mapped, r.driver,
        bufs.map (fun b => (b.granted, b.unwinds)) ++ r.bufs⟩ := by
  induction bufs generalizing driver with
  | nil =>
    show mapLoop false driver post = _
    simp
  | cons b bufs ih =>
    rw [List.cons_append] at h ⊢
    have hrest := ih h.tail fun d hd => hall d (List.mem_cons_of_mem _ hd)
    conv_lhs => unfold mapLoop
    rw [if_neg (h.ne_zero b List.mem_cons_self), if_neg (by simp), mcMap_fresh h,
      if_pos (hall b List.mem_cons_self)]
    dsimp only
    rw [hrest]
    simp

/-- A map whose buffers are all mapped. -/
theorem driverMap_all (h : Fresh driver bufs) (hall : ∀ b ∈ bufs, b.answer.isSome = true) :
    driverMap driver bufs = (⟨!bufs.isEmpty, false, driver ++ bufs.map MapBuf.granted⟩,
      bufs.map fun b => (b.granted, b.unwinds)) := by
  have hfresh : Fresh driver (bufs ++ []) := by simpa using h
  have hloop := mapLoop_granted hfresh hall
  rw [List.append_nil] at hloop
  unfold driverMap
  rw [hloop]
  simp [mapLoop]

/-- The buffers as a map that has failed passes them on. -/
def unwinding (pre : List MapBuf) (b : MapBuf) : List (Mapping × UnmapAnswer) :=
  pre.map (fun a => (a.granted, a.unwinds)) ++ [(b.buf, b.unwinds)]

/-- What is left of a map that fails: what was mapped, but for what the unwinding unmaps. -/
theorem driverMap_failed (h : Fresh driver (pre ++ b :: post))
    (hall : ∀ a ∈ pre, a.answer.isSome = true) (hb : b.answer = none) :
    (driverMap driver (pre ++ b :: post)).1 =
      if pre.isEmpty then ⟨false, false, driver⟩
      else
        let r := unmapLoop (driver ++ pre.map MapBuf.granted) (unwinding pre b)
        ⟨false, r.invalid, r.driver⟩ := by
  have hne : ∀ d ∈ post, d.buf.va ≠ 0 := fun d hd =>
    h.ne_zero d (List.mem_append_right _ (List.mem_cons_of_mem _ hd))
  have hbfresh : Fresh (driver ++ pre.map MapBuf.granted) (b :: post) := by
    clear hb hne
    induction pre generalizing driver with
    | nil => simpa using h
    | cons a pre ih =>
      have hrest := ih h.tail fun d hd => hall d (List.mem_cons_of_mem _ hd)
      simpa using hrest
  -- behind the buffer that fails, the loop only clears the addresses
  have hlast : mapLoop false (driver ++ pre.map MapBuf.granted) (b :: post) =
      ⟨true, false, driver ++ pre.map MapBuf.granted,
        (b.buf, b.unwinds) :: post.map fun d => ({ d.buf with va := 0 }, d.unwinds)⟩ := by
    conv_lhs => unfold mapLoop
    rw [if_neg (hbfresh.ne_zero b List.mem_cons_self), if_neg (by simp), mcMap_fresh hbfresh, hb]
    dsimp only
    rw [if_neg (by simp)]
    dsimp only
    rw [mapLoop_failed hne]
  let skipped : List (Mapping × UnmapAnswer) :=
    post.map fun d => ({ d.buf with va := 0 }, d.unwinds)
  have hskipped : ∀ d : List Mapping,
      (unmapLoop d skipped).driver = d ∧ (unmapLoop d skipped).invalid = false := by
    intro d
    apply unmapLoop_idle
    intro e he
    obtain ⟨c, -, rfl⟩ := List.mem_map.mp he
    rfl
  unfold driverMap
  rw [mapLoop_granted h hall, hlast]
  dsimp only [if_true]
  cases hpre : pre.isEmpty with
  | true =>
    rw [List.isEmpty_iff.mp hpre]
    simp
  | false =>
    rw [List.append_cons]
    have hdriver : ∀ d bufs, (unmapLoop d (bufs ++ skipped)).driver = (unmapLoop d bufs).driver :=
      fun d bufs => unmapLoop_append_driver.trans (hskipped _).1
    have hinvalid : ∀ d bufs,
        (unmapLoop d (bufs ++ skipped)).invalid = (unmapLoop d bufs).invalid := by
      intro d bufs
      rw [unmapLoop_append_invalid, (hskipped _).2, Bool.or_false]
    show CallResult.mk false (unmapLoop _ (_ ++ skipped)).invalid
      (unmapLoop _ (_ ++ skipped)).driver = _
    rw [hdriver, hinvalid]
    rfl

end Map

/-! ## Unwinding -/

/-- The address that nobody has set is, with the length, that of a mapped buffer, and the daemon
unmaps it. -/
def MapBuf.Hits (b : MapBuf) (m : Mapping) : Prop :=
  b.unwinds.unmaps = true ∧ b.buf.sva ≠ 0 ∧ m.sva = b.buf.sva ∧ m.len = b.buf.len

/-- The mappings before the last step of the unwinding. -/
def leftOver (driver : List Mapping) (pre : List MapBuf) : List Mapping :=
  driver ++ (pre.filter fun a => !a.unwinds.unmaps).map MapBuf.granted

section Unwind

variable {driver : List Mapping} {pre : List MapBuf} {b : MapBuf}

theorem mcUnmap_not_hits (h : ∀ e ∈ driver, ¬ b.Hits e) :
    (mcUnmap_ driver b.buf b.unwinds).driver = driver := by
  rcases mcUnmap_cases driver b.buf b.unwinds with
    heq | ⟨e, he, hsva, hlen, hzero, ⟨-, heq⟩ | ⟨hu, -⟩⟩
  · rw [heq]
  · rw [heq]
  · exact absurd ⟨hu, hzero, hsva, hlen⟩ (h e he)

theorem mcUnmap_hits (hd : Distinct driver) {e : Mapping} (he : e ∈ driver) (h : b.Hits e) :
    (mcUnmap_ driver b.buf b.unwinds).driver = driver.erase e ∧
      (mcUnmap_ driver b.buf b.unwinds).invalid = false := by
  obtain ⟨hu, hzero, hsva, hlen⟩ := h
  rcases mcUnmap_cases driver b.buf b.unwinds with
    heq | ⟨d, hdin, hdsva, -, -, ⟨hrefused, -⟩ | ⟨-, ok, heq, -⟩⟩
  · -- it is found, so something happens
    have hfind : ∃ d, driver.find? (fun e => e.sva = b.buf.sva ∧ e.len = b.buf.len) = some d := by
      apply Option.isSome_iff_exists.mp
      rw [List.find?_isSome]
      exact ⟨e, he, decide_eq_true ⟨hsva, hlen⟩⟩
    obtain ⟨d, hfind⟩ := hfind
    have hsame := List.find?_some hfind
    simp only [decide_eq_true_eq] at hsame
    have hde := hd.eq_of_sva (List.mem_of_find?_eq_some hfind) he (hsame.1.trans hsva.symm)
    unfold mcUnmap_
    rw [if_neg hzero, hfind, hde]
    dsimp only
    rw [if_pos hu]
    exact ⟨rfl, rfl⟩
  · rw [hrefused] at hu
    cases hu
  · rw [heq, hd.eq_of_sva hdin he (hdsva.trans hsva.symm)]
    exact ⟨rfl, rfl⟩

/-- What the unwinding leaves of the buffers that were mapped: those that the daemon keeps. -/
theorem unmapLoop_granted (hd : Distinct (driver ++ pre.map MapBuf.granted))
    (hva : ∀ a ∈ pre, a.buf.va ≠ 0) :
    (unmapLoop (driver ++ pre.map MapBuf.granted)
        (pre.map fun a => (a.granted, a.unwinds))).driver = leftOver driver pre ∧
      (unmapLoop (driver ++ pre.map MapBuf.granted)
        (pre.map fun a => (a.granted, a.unwinds))).invalid = pre.any (!·.unwinds.unmaps) := by
  induction pre generalizing driver with
  | nil => exact ⟨rfl, rfl⟩
  | cons a pre ih =>
    have hmem : a.granted ∈ driver ++ (a :: pre).map MapBuf.granted :=
      List.mem_append_right _ List.mem_cons_self
    have hrest := fun d hd => hva d (List.mem_cons_of_mem _ hd)
    have hne : a.granted.va ≠ 0 := hva a List.mem_cons_self
    have hstep := mcUnmap_mem hd hmem a.unwinds
    rw [List.map_cons] at hd hstep
    rw [List.map_cons, List.map_cons, unmapLoop_driver hne, unmapLoop_invalid hne, hstep,
      List.any_cons]
    unfold leftOver
    cases hu : a.unwinds.unmaps with
    | true =>
      have hnot : a.granted ∉ driver := by
        intro hin
        exact (List.nodup_append.mp hd.list_nodup).2.2 _ hin _ List.mem_cons_self rfl
      rw [if_pos rfl, List.erase_append_right _ hnot, List.erase_cons_head,
        List.filter_cons_of_neg (by simp [hu])]
      exact ih (hd.sublist (List.Sublist.append_left (List.sublist_cons_self _ _) _)) hrest
    | false =>
      have hsplit : driver ++ a.granted :: pre.map MapBuf.granted =
          (driver ++ [a.granted]) ++ pre.map MapBuf.granted := by simp
      rw [hsplit] at hd ⊢
      obtain ⟨hdriver, -⟩ := ih hd hrest
      rw [if_neg (by simp), List.filter_cons_of_pos (by simp [hu])]
      refine ⟨hdriver.trans ?_, rfl⟩
      simp [leftOver]

theorem leftOver_distinct (hd : Distinct (driver ++ pre.map MapBuf.granted)) :
    Distinct (leftOver driver pre) :=
  hd.sublist (List.Sublist.append_left (List.filter_sublist.map _) _)

/-- The unwinding as a whole. -/
theorem unwind_eq (hd : Distinct (driver ++ pre.map MapBuf.granted))
    (hva : ∀ a ∈ pre, a.buf.va ≠ 0) (hb : b.buf.va ≠ 0) :
    let step := mcUnmap_ (leftOver driver pre) b.buf b.unwinds
    (unmapLoop (driver ++ pre.map MapBuf.granted) (unwinding pre b)).driver = step.driver ∧
      (unmapLoop (driver ++ pre.map MapBuf.granted) (unwinding pre b)).invalid =
        (pre.any (!·.unwinds.unmaps) || step.invalid) := by
  obtain ⟨hdriver, hinvalid⟩ := unmapLoop_granted hd hva
  unfold unwinding
  rw [unmapLoop_append_driver, unmapLoop_append_invalid, hdriver, hinvalid, unmapLoop_driver hb,
    unmapLoop_invalid hb]
  exact ⟨rfl, congrArg _ (Bool.or_false _)⟩

/-- Where the daemon unmaps all that was mapped, the unwinding is back at the start. -/
theorem leftOver_of_unmaps (h : ∀ a ∈ pre, a.unwinds ≠ .refused) : leftOver driver pre = driver := by
  have hnone : pre.filter (fun a => !a.unwinds.unmaps) = [] := by
    apply List.filter_eq_nil_iff.mpr
    intro a ha
    simp [unmaps_of_ne (h a ha)]
  unfold leftOver
  rw [hnone, List.map_nil, List.append_nil]

/-- A failed map that leaves nothing new in the driver has unmapped each buffer again. -/
theorem unwinds_of_subset (hd : Distinct (driver ++ pre.map MapBuf.granted))
    (hsub : (mcUnmap_ (leftOver driver pre) b.buf b.unwinds).driver ⊆ driver) :
    ∀ a ∈ pre, a.unwinds.unmaps = true ∨ b.Hits a.granted := by
  have hdist := leftOver_distinct hd
  intro a ha
  rw [Classical.or_iff_not_imp_left]
  intro hu
  by_contra hnot
  have hin : a.granted ∈ leftOver driver pre := by
    refine List.mem_append_right _ (List.mem_map.mpr ⟨a, List.mem_filter.mpr ⟨ha, ?_⟩, rfl⟩)
    simpa using hu
  have hstays : a.granted ∈ (mcUnmap_ (leftOver driver pre) b.buf b.unwinds).driver := by
    by_cases hany : ∃ e ∈ leftOver driver pre, b.Hits e
    · obtain ⟨e, he, hhit⟩ := hany
      rw [(mcUnmap_hits hdist he hhit).1]
      refine (List.mem_erase_of_ne ?_).mpr hin
      rintro rfl
      exact hnot hhit
    · rw [mcUnmap_not_hits fun e he hhit => hany ⟨e, he, hhit⟩]
      exact hin
  have hold := hsub hstays
  exact (List.nodup_append.mp hd.list_nodup).2.2 _ hold _ (List.mem_map.mpr ⟨a, ha, rfl⟩) rfl

/-- A failed map that has unmapped each buffer again leaves nothing new in the driver. -/
theorem subset_of_unwinds (hd : Distinct (driver ++ pre.map MapBuf.granted))
    (h : ∀ a ∈ pre, a.unwinds.unmaps = true ∨ b.Hits a.granted) :
    (mcUnmap_ (leftOver driver pre) b.buf b.unwinds).driver ⊆ driver := by
  have hdist := leftOver_distinct hd
  intro m hm
  have hleft := (mcUnmap_sublist b.unwinds).subset hm
  rcases List.mem_append.mp hleft with hold | hnew
  · exact hold
  · obtain ⟨a, ha, rfl⟩ := List.mem_map.mp hnew
    obtain ⟨hain, hu⟩ := List.mem_filter.mp ha
    have hhit := (h a hain).resolve_left (by simpa using hu)
    -- the last step takes this one away
    rw [(mcUnmap_hits hdist hleft hhit).1] at hm
    exact absurd hm hdist.list_nodup.not_mem_erase

end Unwind

end McDaemon.Proxy
