/-
# McDaemon.Client.WsmTable — the table of world shared memory.

The client library keeps the address and the length of every buffer that it has got from the lower
layer in an array, so that it can free what is left when the device is closed.  The array doubles
when it is full, and the last entry takes the place of one that is removed.  The table and the lower
layer are changed one after the other: a buffer that finds no room in the array is given to the
caller nevertheless, and the close takes an entry off the array before it calls the function that
looks the length up there.
-/
import McDaemon.Api
import McDaemon.Client.CommonClient
import McDaemon.Lib.KeyedList

namespace McDaemon.Client.Wsm

open McDaemon.Lib
open McDaemon.Client.CommonClient (wsmsLen wsmsRemove)

/-! ## The table -/

/-- `struct maplen`: the address of a buffer, and its length. -/
abbrev Maplen := Nat × Nat

/-- The table with its capacity, how often the device is open (the lower layer is `NULL` where it is
not), the buffers that the lower layer has given out and not freed, and those of them that it has
been asked to free. -/
structure WsmClient where
  wsms : List Maplen
  capacity : Nat
  openCount : Nat
  held : List Maplen
  asked : List Nat
deriving DecidableEq, Repr

/-- `isValidDevice`. -/
def isValidDevice (deviceId : UInt32) : Bool := deviceId = mcDeviceIdDefault

/-- `wsms_add`, where `grows` tells whether `realloc` succeeds. -/
def wsmsAdd (s : WsmClient) (wsm len : Nat) (grows : Bool) : WsmClient :=
  if s.wsms.length ≠ s.capacity then { s with wsms := s.wsms ++ [⟨wsm, len⟩] }
  else if grows = false then s
  else
    { s with
      capacity := if s.capacity = 0 then 16 else s.capacity * 2
      wsms := s.wsms ++ [⟨wsm, len⟩] }

/-! ## The calls -/

/-- What a call returns, the client after it, and the buffers that it has passed to the lower
layer's `free`. -/
structure Outcome where
  mcResult : McResult
  client : WsmClient
  passed : List Maplen
deriving DecidableEq, Repr

/-- `CommonClient::open`, as far as it counts: a lower layer that is dead is opened anew. -/
def openClient (s : WsmClient) (dead opens : Bool) : WsmClient :=
  let openCount := if dead then 0 else s.openCount
  if openCount = 0 ∧ opens = false ∧ s.openCount = 0 then s
  else { s with openCount := openCount + 1 }

/-- `mcMallocWsm`, with what the lower layer gives. -/
def mcMallocWsm (s : WsmClient) (deviceId : UInt32) (len : Nat) (malloc : Except McResult Nat)
    (grows : Bool) : Outcome :=
  if isValidDevice deviceId = false then ⟨mcDrvErrUnknownDevice, s, []⟩
  else if s.openCount = 0 then ⟨mcDrvErrDaemonDeviceNotOpen, s, []⟩
  else
    match malloc with
    | .error mcResult => ⟨mcResult, s, []⟩
    | .ok wsm =>
      -- whether there is room in the table makes no difference to the caller
      ⟨mcDrvOk, wsmsAdd { s with held := s.held ++ [⟨wsm, len⟩] } wsm len grows, []⟩

/-- `mcFreeWsm`, with the result of the lower layer. -/
def mcFreeWsm (s : WsmClient) (deviceId : UInt32) (wsm : Nat) (free : McResult) : Outcome :=
  if isValidDevice deviceId = false then ⟨mcDrvErrUnknownDevice, s, []⟩
  else if s.openCount = 0 then ⟨mcDrvErrDaemonDeviceNotOpen, s, []⟩
  else
    let len := wsmsLen s.wsms wsm
    if len = 0 then ⟨mcDrvErrInvalidParameter, s, []⟩
    else if free ≠ mcDrvOk then ⟨free, { s with asked := wsm :: s.asked }, [⟨wsm, len⟩]⟩
    else
      ⟨mcDrvOk,
        { s with
          held := s.held.erase ⟨wsm, len⟩
          asked := s.asked.filter (· ≠ wsm)
          wsms := wsmsRemove wsm s.wsms },
        [⟨wsm, len⟩]⟩

/-- The loop of `mcCloseDevice`: an entry is taken off the table, and then freed. -/
def freeRemaining (deviceId : UInt32) (free : Nat → McResult) : Nat → WsmClient → Outcome
  | 0, s => ⟨mcDrvOk, s, []⟩
  | n + 1, s =>
    match s.wsms.getLast? with
    | none => ⟨mcDrvOk, s, []⟩
    | some m =>
      let s := { s with wsms := s.wsms.dropLast }
      if m.1 = 0 then ⟨mcDrvOk, s, []⟩
      else
        let freed := mcFreeWsm s deviceId m.1 (free m.1)
        let rest := freeRemaining deviceId free n freed.client
        { rest with passed := freed.passed ++ rest.passed }

/-- `mcCloseDevice`, with what the lower layer says of its sessions.  The table gets shorter in each
turn of the loop. -/
def mcCloseDevice (s : WsmClient) (deviceId : UInt32) (sessions : McResult)
    (free : Nat → McResult) : Outcome :=
  if isValidDevice deviceId = false then ⟨mcDrvErrUnknownDevice, s, []⟩
  else if 1 < s.openCount then ⟨mcDrvOk, { s with openCount := s.openCount - 1 }, []⟩
  else if s.openCount = 0 then ⟨mcDrvErrDaemonDeviceNotOpen, s, []⟩
  else if sessions ≠ mcDrvOk then ⟨sessions, s, []⟩
  else
    let freed := freeRemaining deviceId free s.wsms.length s
    { freed with
      mcResult := mcDrvOk
      client := { freed.client with openCount := freed.client.openCount - 1 } }

/-! ## Runs -/

/-- A call, with all that the lower layer and `realloc` do in it. -/
inductive WsmCall
  | openDevice (dead opens : Bool)
  | mallocWsm (deviceId : UInt32) (len : Nat) (malloc : Except McResult Nat) (grows : Bool)
  | freeWsm (deviceId : UInt32) (wsm : Nat) (free : McResult)
  | closeDevice (deviceId : UInt32) (sessions : McResult) (free : Nat → McResult)

namespace WsmCall

def outcome (s : WsmClient) : WsmCall → Outcome
  | openDevice dead opens => ⟨mcDrvOk, openClient s dead opens, []⟩
  | mallocWsm deviceId len malloc grows => mcMallocWsm s deviceId len malloc grows
  | freeWsm deviceId wsm free => mcFreeWsm s deviceId wsm free
  | closeDevice deviceId sessions free => mcCloseDevice s deviceId sessions free

/-- What the lower layers keep to: nobody gets a buffer of no bytes, at no address, or at the
address of a buffer that has not been freed. -/
def Possible (s : WsmClient) : WsmCall → Prop
  | mallocWsm _ len (.ok wsm) _ => len ≠ 0 ∧ wsm ≠ 0 ∧ wsm ∉ s.held.map Prod.fst
  | _ => True

instance (s : WsmClient) : DecidablePred (Possible s)
  | mallocWsm _ len (.ok wsm) _ =>
    inferInstanceAs (Decidable (len ≠ 0 ∧ wsm ≠ 0 ∧ wsm ∉ s.held.map Prod.fst))
  | mallocWsm _ _ (.error _) _ => inferInstanceAs (Decidable True)
  | openDevice _ _ => inferInstanceAs (Decidable True)
  | freeWsm _ _ _ => inferInstanceAs (Decidable True)
  | closeDevice _ _ _ => inferInstanceAs (Decidable True)

/-- The call closes the device. -/
def closes (s : WsmClient) : WsmCall → Bool
  | closeDevice deviceId sessions _ =>
    isValidDevice deviceId && s.openCount = 1 && sessions = mcDrvOk
  | _ => false

end WsmCall

def WsmClient.init : WsmClient := ⟨[], 0, 0, [], []⟩

def wsmMachine : Machine WsmClient WsmCall where
  init := fun s => s = .init
  step := fun s c => if c.Possible s then some (c.outcome s).client else none

/-- A buffer can be freed: `mcFreeWsm` passes it to the lower layer with its length, and where that
frees it, it is gone from the table. -/
def Freeable (s : WsmClient) (m : Maplen) : Prop :=
  (mcFreeWsm s mcDeviceIdDefault m.1 mcDrvOk).passed = [m] ∧
    (mcFreeWsm s mcDeviceIdDefault m.1 mcDrvOk).mcResult = mcDrvOk

/-- The table holds the buffers that have been obtained and not freed, and each can be freed. -/
structure Complete (s : WsmClient) : Prop where
  table : s.wsms.Perm s.held
  freeable : ∀ m ∈ s.held, Freeable s m

/-- A call passes no buffer to the lower layer's `free` that has been passed before, and one that
closes the device passes all that are in the table. -/
structure FreesOnce (s : WsmClient) (c : WsmCall) : Prop where
  once : ((c.outcome s).passed.map Prod.fst).Nodup ∧
    ∀ m ∈ (c.outcome s).passed, m ∈ s.held ∧ m.1 ∉ s.asked
  all : c.closes s = true → ∀ m ∈ s.wsms, m ∈ (c.outcome s).passed

/-- The array grows when it has to, no buffer is freed again that the lower layer has not freed, and
the device is only closed when the table is empty. -/
def Careful (s : WsmClient) : WsmCall → Prop
  | .mallocWsm deviceId _ (.ok _) grows =>
    isValidDevice deviceId = true → s.openCount ≠ 0 → s.wsms.length = s.capacity → grows = true
  | .freeWsm deviceId wsm _ => isValidDevice deviceId = true → wsm ∉ s.asked
  | c@(.closeDevice _ _ _) => c.closes s = true → s.wsms = []
  | _ => True

/-! ## The table and its functions -/

section Table

variable {wsms : List Maplen} {m : Maplen} {wsm : Nat}

theorem wsmsLen_of_mem (hnodup : (wsms.map Prod.fst).Nodup) (hm : m ∈ wsms) :
    wsmsLen wsms m.1 = m.2 := by
  have hfind : wsms.find? (·.1 = m.1) = some m := (KeyedList.get_eq_some_iff hnodup).mpr ⟨hm, rfl⟩
  rw [wsmsLen, hfind]

theorem wsmsLen_of_not_mem (h : wsm ∉ wsms.map Prod.fst) : wsmsLen wsms wsm = 0 := by
  have hfind : wsms.find? (·.1 = wsm) = none := KeyedList.get_eq_none_iff.mpr h
  rw [wsmsLen, hfind]

/-- The removal takes out one entry, wherever the last one goes. -/
theorem perm_wsmsRemove (hnodup : (wsms.map Prod.fst).Nodup) (hm : m ∈ wsms) :
    wsms.Perm (m :: wsmsRemove m.1 wsms) := by
  obtain ⟨len, hperm⟩ := CommonClient.perm_wsmsRemove (List.mem_map_of_mem hm : m.1 ∈ _)
  have hmem : (m.1, len) ∈ wsms := hperm.mem_iff.mpr List.mem_cons_self
  have hlen : m.2 = len := (wsmsLen_of_mem hnodup hm).symm.trans (wsmsLen_of_mem hnodup hmem)
  rw [← hlen] at hperm
  exact hperm

end Table

/-! ## The invariant -/

/-- The table holds what has been obtained and not freed, at different addresses; none of the
buffers is empty, and the device is open as long as there is one. -/
structure Inv (s : WsmClient) : Prop where
  table : s.wsms.Perm s.held
  nodup : (s.held.map Prod.fst).Nodup
  len : ∀ m ∈ s.held, m.2 ≠ 0
  asked : ∀ wsm ∈ s.asked, wsm ∈ s.held.map Prod.fst
  isOpen : s.held ≠ [] → s.openCount ≠ 0
  room : s.wsms.length ≤ s.capacity

section Invariant

variable {s : WsmClient} {m : Maplen} {wsm : Nat} {deviceId : UInt32} {free : McResult}

theorem Inv.table_nodup (h : Inv s) : (s.wsms.map Prod.fst).Nodup :=
  (h.table.map Prod.fst).nodup_iff.mpr h.nodup

theorem Inv.wsmsLen (h : Inv s) (hm : m ∈ s.held) : wsmsLen s.wsms m.1 = m.2 :=
  wsmsLen_of_mem h.table_nodup (h.table.mem_iff.mpr hm)

/-- **Freeing.** Either nothing is passed to the lower layer, or a buffer that is held is, and the
lower layer frees it or not. -/
theorem mcFreeWsm_cases (h : Inv s) (deviceId : UInt32) (wsm : Nat) (free : McResult) :
    ((mcFreeWsm s deviceId wsm free).client = s ∧ (mcFreeWsm s deviceId wsm free).passed = [] ∧
      (isValidDevice deviceId = true → wsm ∉ s.held.map Prod.fst)) ∨
    ∃ m ∈ s.held, m.1 = wsm ∧ isValidDevice deviceId = true ∧
      (mcFreeWsm s deviceId wsm free).passed = [m] ∧
      (mcFreeWsm s deviceId wsm free).client =
        if free = mcDrvOk then
          { s with
            held := s.held.erase m
            asked := s.asked.filter (· ≠ wsm)
            wsms := wsmsRemove wsm s.wsms }
        else { s with asked := wsm :: s.asked } := by
  unfold mcFreeWsm
  by_cases hvalid : isValidDevice deviceId = true
  · rw [if_neg (by simp [hvalid])]
    by_cases hmem : wsm ∈ s.held.map Prod.fst
    · obtain ⟨m, hm, rfl⟩ := List.mem_map.mp hmem
      have hopen : s.openCount ≠ 0 := h.isOpen (List.ne_nil_of_mem hm)
      refine .inr ⟨m, hm, rfl, hvalid, ?_⟩
      rw [if_neg hopen]
      simp only [h.wsmsLen hm, if_neg (h.len m hm)]
      by_cases hfree : free = mcDrvOk
      · simp [hfree]
      · simp [hfree]
    · have hlen : wsmsLen s.wsms wsm = 0 := by
        apply wsmsLen_of_not_mem
        rwa [(h.table.map Prod.fst).mem_iff]
      refine .inl ?_
      by_cases hopen : s.openCount = 0
      · simp [hopen, hmem]
      · simp [hopen, hlen, hmem]
  · exact .inl (by simp [hvalid])

/-- A buffer that has been freed is gone from everywhere. -/
theorem Inv.freed (h : Inv s) (hm : m ∈ s.held) :
    Inv { s with
      held := s.held.erase m
      asked := s.asked.filter (· ≠ m.1)
      wsms := wsmsRemove m.1 s.wsms } where
  table := by
    have hperm := perm_wsmsRemove h.table_nodup (h.table.mem_iff.mpr hm)
    have hheld : s.held.Perm (m :: s.held.erase m) := List.perm_cons_erase hm
    exact (List.perm_cons m).mp (hperm.symm.trans (h.table.trans hheld))
  nodup := h.nodup.sublist (List.Sublist.map _ List.erase_sublist)
  len := fun m' hm' => h.len m' (List.mem_of_mem_erase hm')
  asked := by
    intro wsm hwsm
    obtain ⟨hwsm, hne⟩ := List.mem_filter.mp hwsm
    obtain ⟨m', hm', rfl⟩ := List.mem_map.mp (h.asked wsm hwsm)
    have hne' : m' ≠ m := by
      rintro rfl
      simp at hne
    exact List.mem_map_of_mem ((List.mem_erase_of_ne hne').mpr hm')
  isOpen := fun hne => h.isOpen fun hnil => hne (by rw [hnil]; rfl)
  room := by
    have hperm := perm_wsmsRemove h.table_nodup (h.table.mem_iff.mpr hm)
    have hlength := hperm.length_eq
    have hroom := h.room
    rw [List.length_cons] at hlength
    show (wsmsRemove m.1 s.wsms).length ≤ s.capacity
    omega

/-- A buffer that has not been freed is one that the lower layer has been asked for. -/
theorem Inv.refused (h : Inv s) (hm : m ∈ s.held) : Inv { s with asked := m.1 :: s.asked } :=
  { h with
    asked := by
      intro wsm hwsm
      rcases List.mem_cons.mp hwsm with rfl | hwsm
      · exact List.mem_map_of_mem hm
      · exact h.asked wsm hwsm }

theorem Inv.freeWsm (h : Inv s) (deviceId : UInt32) (wsm : Nat) (free : McResult) :
    Inv (mcFreeWsm s deviceId wsm free).client := by
  rcases mcFreeWsm_cases h deviceId wsm free with ⟨hclient, -⟩ | ⟨m, hm, rfl, -, -, hclient⟩
  · rw [hclient]
    exact h
  · rw [hclient]
    by_cases hfree : free = mcDrvOk
    · rw [if_pos hfree]
      exact h.freed hm
    · rw [if_neg hfree]
      exact h.refused hm

/-- **Adding.** The array holds the new entry unless it is full and does not grow. -/
theorem wsmsAdd_eq (s : WsmClient) (wsm len : Nat) (grows : Bool) :
    wsmsAdd s wsm len grows =
      if s.wsms.length = s.capacity ∧ grows = false then s
      else
        { s with
          capacity :=
            if s.wsms.length ≠ s.capacity then s.capacity
            else if s.capacity = 0 then 16 else s.capacity * 2
          wsms := s.wsms ++ [(wsm, len)] } := by
  unfold wsmsAdd
  by_cases hfull : s.wsms.length = s.capacity
  · cases grows with
    | false => simp [hfull]
    | true => simp [hfull]
  · simp [hfull]

/-- A new buffer with its entry. -/
theorem Inv.added (h : Inv s) {wsm len : Nat} (hlen : len ≠ 0)
    (hfresh : wsm ∉ s.held.map Prod.fst) (hopen : s.openCount ≠ 0) {capacity : Nat}
    (hroom : s.wsms.length < capacity) :
    Inv { s with
      capacity := capacity
      held := s.held ++ [(wsm, len)]
      wsms := s.wsms ++ [(wsm, len)] } where
  table := h.table.append_right _
  nodup := by
    rw [List.map_append, List.nodup_append]
    refine ⟨h.nodup, List.nodup_singleton _, fun a ha b hb heq => hfresh ?_⟩
    have hwsm : b = wsm := List.mem_singleton.mp hb
    exact hwsm ▸ heq ▸ ha
  len := by
    intro m hm
    rcases List.mem_append.mp hm with hm | hm
    · exact h.len m hm
    · rw [List.mem_singleton.mp hm]
      exact hlen
  asked := by
    intro a ha
    rw [List.map_append]
    exact List.mem_append_left _ (h.asked a ha)
  isOpen := fun _ => hopen
  room := by
    show (s.wsms ++ [(wsm, len)]).length ≤ capacity
    rw [List.length_append]
    exact hroom

/-- What is not in the table is not freed. -/
theorem mcFreeWsm_unknown (deviceId : UInt32) (free : McResult) (hlen : wsmsLen s.wsms wsm = 0) :
    (mcFreeWsm s deviceId wsm free).client = s ∧ (mcFreeWsm s deviceId wsm free).passed = [] := by
  unfold mcFreeWsm
  simp only [hlen, if_true]
  split_ifs
  · exact ⟨rfl, rfl⟩
  · exact ⟨rfl, rfl⟩
  · exact ⟨rfl, rfl⟩

/-- The loop of the close frees nothing: what it takes off the table is not found there. -/
theorem freeRemaining_passed {free : Nat → McResult} (n : Nat)
    (h : (s.wsms.map Prod.fst).Nodup) : (freeRemaining deviceId free n s).passed = [] := by
  induction n generalizing s with
  | zero => rfl
  | succ n ih =>
    unfold freeRemaining
    rcases List.eq_nil_or_concat s.wsms with hnil | ⟨front, m, hconcat⟩
    · simp [hnil]
    · rw [List.concat_eq_append] at hconcat
      rw [hconcat] at h ⊢
      rw [List.map_append, List.nodup_append] at h
      simp only [List.getLast?_concat, List.dropLast_concat]
      by_cases hnull : m.1 = 0
      · simp [hnull]
      · have hlen : wsmsLen front m.1 = 0 := by
          apply wsmsLen_of_not_mem
          exact fun hmem => h.2.2 m.1 hmem m.1 (by simp) rfl
        have hfreed := fun r => @mcFreeWsm_unknown { s with wsms := front } m.1 deviceId r hlen
        rw [if_neg hnull]
        simp only [(hfreed _).1, (hfreed _).2, List.nil_append]
        exact ih h.1

theorem Inv.complete (h : Inv s) : Complete s where
  table := h.table
  freeable := by
    intro m hm
    have hopen : s.openCount ≠ 0 := h.isOpen (List.ne_nil_of_mem hm)
    have hlen := h.len m hm
    have hvalid : isValidDevice mcDeviceIdDefault = true := by decide
    unfold Freeable mcFreeWsm
    rw [if_neg (by simp [hvalid]), if_neg hopen]
    simp [h.wsmsLen hm, hlen]

end Invariant

/-! ## Steps and runs -/

section Steps

variable {s t : WsmClient} {c : WsmCall}

theorem step_eq (h : wsmMachine.step s c = some t) : c.Possible s ∧ (c.outcome s).client = t := by
  have hstep : (if c.Possible s then some (c.outcome s).client else none) = some t := h
  by_cases hpossible : c.Possible s
  · rw [if_pos hpossible] at hstep
    exact ⟨hpossible, Option.some.inj hstep⟩
  · rw [if_neg hpossible] at hstep
    simp at hstep

/-- **Closing.** A close counts down, or does nothing, or closes the device. -/
theorem mcCloseDevice_cases (s : WsmClient) (deviceId : UInt32) (sessions : McResult)
    (free : Nat → McResult) :
    ((WsmCall.closeDevice deviceId sessions free).closes s = false ∧
      (mcCloseDevice s deviceId sessions free).passed = [] ∧
      ((mcCloseDevice s deviceId sessions free).client = s ∨ 1 < s.openCount ∧
        (mcCloseDevice s deviceId sessions free).client =
          { s with openCount := s.openCount - 1 })) ∨
    ((WsmCall.closeDevice deviceId sessions free).closes s = true ∧
      (mcCloseDevice s deviceId sessions free).passed =
        (freeRemaining deviceId free s.wsms.length s).passed ∧
      (mcCloseDevice s deviceId sessions free).client =
        { (freeRemaining deviceId free s.wsms.length s).client with
          openCount := (freeRemaining deviceId free s.wsms.length s).client.openCount - 1 }) := by
  unfold mcCloseDevice WsmCall.closes
  by_cases hvalid : isValidDevice deviceId = true
  · by_cases hmany : 1 < s.openCount
    · refine .inl ?_
      simp [hvalid, hmany]
      omega
    · by_cases hclosed : s.openCount = 0
      · refine .inl ?_
        simp [hvalid, hclosed]
      · have hone : s.openCount = 1 := by omega
        by_cases hsessions : sessions = mcDrvOk
        · refine .inr ?_
          simp [hvalid, hone, hsessions]
        · refine .inl ?_
          simp [hvalid, hone, hsessions]
  · refine .inl ?_
    simp [hvalid]

theorem mcMallocWsm_passed (s : WsmClient) (deviceId : UInt32) (len : Nat)
    (malloc : Except McResult Nat) (grows : Bool) :
    (mcMallocWsm s deviceId len malloc grows).passed = [] := by
  unfold mcMallocWsm
  split_ifs
  · rfl
  · rfl
  · cases malloc with
    | error mcResult => rfl
    | ok wsm => rfl

/-- A call that frees nothing, and has nothing to free. -/
theorem freesOnce_of_nothing (hpassed : (c.outcome s).passed = []) (hcloses : c.closes s = false) :
    FreesOnce s c where
  once := by
    rw [hpassed]
    exact ⟨List.nodup_nil, by simp⟩
  all := fun h => absurd (hcloses.symm.trans h) Bool.false_ne_true

theorem Inv.openClient (h : Inv s) (dead opens : Bool) : Inv (openClient s dead opens) := by
  unfold Wsm.openClient
  dsimp only
  split_ifs
  · exact h
  · exact { h with isOpen := fun _ => Nat.succ_ne_zero _ }
  · exact h
  · exact { h with isOpen := fun _ => Nat.succ_ne_zero _ }

/-- A buffer that finds room in the array is in the table. -/
theorem Inv.mallocWsm (hs : Inv s) {deviceId : UInt32} {len : Nat} {malloc : Except McResult Nat}
    {grows : Bool} (hpossible : (WsmCall.mallocWsm deviceId len malloc grows).Possible s)
    (hc : Careful s (.mallocWsm deviceId len malloc grows)) :
    Inv (mcMallocWsm s deviceId len malloc grows).client := by
  unfold mcMallocWsm
  by_cases hvalid : isValidDevice deviceId = true
  · by_cases hopen : s.openCount = 0
    · simpa [hvalid, hopen] using hs
    · rw [if_neg (by simp [hvalid]), if_neg hopen]
      cases malloc with
      | error mcResult => exact hs
      | ok wsm =>
        obtain ⟨hlen, -, hfresh⟩ := hpossible
        have hgrows : ¬ (s.wsms.length = s.capacity ∧ grows = false) := by
          rintro ⟨hfull, hno⟩
          exact absurd (hc hvalid hopen hfull) (by simp [hno])
        have hroom := hs.room
        dsimp only
        rw [wsmsAdd_eq, if_neg hgrows]
        apply hs.added hlen hfresh hopen
        dsimp only
        split_ifs
        · omega
        · omega
        · omega
  · simpa [hvalid] using hs

/-- A device that is closed with an empty table keeps nothing. -/
theorem Inv.closed (hs : Inv s) {deviceId : UInt32} {sessions : McResult} {free : Nat → McResult}
    (hwsms : s.wsms = [])
    (hpassed : (mcCloseDevice s deviceId sessions free).passed =
      (freeRemaining deviceId free s.wsms.length s).passed)
    (hclient : (mcCloseDevice s deviceId sessions free).client =
      { (freeRemaining deviceId free s.wsms.length s).client with
        openCount := (freeRemaining deviceId free s.wsms.length s).client.openCount - 1 }) :
    Inv (mcCloseDevice s deviceId sessions free).client ∧
      FreesOnce s (.closeDevice deviceId sessions free) := by
  have hheld : s.held = [] := List.nil_perm.mp (hwsms ▸ hs.table)
  have hremaining : freeRemaining deviceId free s.wsms.length s = ⟨mcDrvOk, s, []⟩ := by
    rw [hwsms]
    rfl
  rw [hremaining] at hpassed hclient
  refine ⟨?_, ⟨?_, ?_⟩⟩
  · rw [hclient]
    exact { hs with isOpen := fun hne => absurd hheld hne }
  · show ((mcCloseDevice s deviceId sessions free).passed.map Prod.fst).Nodup ∧ ∀ m' ∈
      (mcCloseDevice s deviceId sessions free).passed, _
    rw [hpassed]
    exact ⟨List.nodup_nil, by simp⟩
  · intro _
    rw [hwsms]
    simp

/-- **What careful calls keep.** -/
theorem step_keeps (hs : Inv s) (hstep : wsmMachine.step s c = some t) (hc : Careful s c) :
    Inv t ∧ FreesOnce s c := by
  obtain ⟨hpossible, rfl⟩ := step_eq hstep
  cases c with
  | openDevice dead opens =>
    refine ⟨hs.openClient dead opens, ⟨⟨List.nodup_nil, ?_⟩, ?_⟩⟩
    · intro m hm
      exact absurd hm List.not_mem_nil
    · intro hcloses
      exact absurd hcloses Bool.false_ne_true
  | mallocWsm deviceId len malloc grows =>
    have hnone : FreesOnce s (.mallocWsm deviceId len malloc grows) :=
      freesOnce_of_nothing (mcMallocWsm_passed s deviceId len malloc grows) rfl
    exact ⟨hs.mallocWsm hpossible hc, hnone⟩
  | freeWsm deviceId wsm free =>
    refine ⟨hs.freeWsm deviceId wsm free, ?_⟩
    rcases mcFreeWsm_cases hs deviceId wsm free with
      ⟨-, hpassed, -⟩ | ⟨m, hm, rfl, hvalid, hpassed, -⟩
    · exact freesOnce_of_nothing hpassed rfl
    · refine ⟨?_, fun hcloses => absurd hcloses Bool.false_ne_true⟩
      show ((mcFreeWsm s deviceId m.1 free).passed.map Prod.fst).Nodup ∧ ∀ m' ∈
        (mcFreeWsm s deviceId m.1 free).passed, _
      rw [hpassed]
      refine ⟨List.nodup_singleton _, fun m' hm' => ?_⟩
      rw [List.mem_singleton.mp hm']
      exact ⟨hm, hc hvalid⟩
  | closeDevice deviceId sessions free =>
    rcases mcCloseDevice_cases s deviceId sessions free with
      ⟨hcloses, hpassed, hclient⟩ | ⟨hcloses, hpassed, hclient⟩
    · refine ⟨?_, freesOnce_of_nothing hpassed hcloses⟩
      show Inv (mcCloseDevice s deviceId sessions free).client
      rcases hclient with hclient | ⟨hmany, hclient⟩
      · rw [hclient]
        exact hs
      · rw [hclient]
        exact { hs with isOpen := fun _ => by show s.openCount - 1 ≠ 0; omega }
    · exact hs.closed (hc hcloses) hpassed hclient

/-- **What is lost without care.** -/
theorem careful_of_complete (hs : Inv s) (hstep : wsmMachine.step s c = some t)
    (ht : Complete t) (hc : FreesOnce s c) : Careful s c := by
  obtain ⟨-, rfl⟩ := step_eq hstep
  cases c with
  | openDevice dead opens => trivial
  | mallocWsm deviceId len malloc grows =>
    cases malloc with
    | error mcResult => trivial
    | ok wsm =>
      intro hvalid hopen hfull
      by_contra hno
      have hlost : (mcMallocWsm s deviceId len (.ok wsm) grows).client =
          { s with held := s.held ++ [(wsm, len)] } := by
        unfold mcMallocWsm
        rw [if_neg (by simp [hvalid]), if_neg hopen]
        dsimp only
        rw [wsmsAdd_eq, if_pos ⟨hfull, Bool.eq_false_iff.mpr hno⟩]
      have htable : (mcMallocWsm s deviceId len (.ok wsm) grows).client.wsms.Perm
          (mcMallocWsm s deviceId len (.ok wsm) grows).client.held := ht.table
      rw [hlost] at htable
      have hmore := htable.length_eq
      have hsame := hs.table.length_eq
      simp only [List.length_append, List.length_singleton] at hmore
      omega
  | freeWsm deviceId wsm free =>
    intro hvalid hasked
    rcases mcFreeWsm_cases hs deviceId wsm free with
      ⟨-, -, hunknown⟩ | ⟨m, hm, rfl, -, hpassed, -⟩
    · exact hunknown hvalid (hs.asked wsm hasked)
    · refine (hc.once.2 m ?_).2 hasked
      show m ∈ (mcFreeWsm s deviceId m.1 free).passed
      rw [hpassed]
      exact List.mem_singleton_self m
  | closeDevice deviceId sessions free =>
    intro hcloses
    rcases mcCloseDevice_cases s deviceId sessions free with
      ⟨hnot, -⟩ | ⟨-, hpassed, -⟩
    · exact absurd (hnot.symm.trans hcloses) Bool.false_ne_true
    · have hall : ∀ m ∈ s.wsms, m ∈ (mcCloseDevice s deviceId sessions free).passed :=
        hc.all hcloses
      rw [hpassed, freeRemaining_passed _ hs.table_nodup] at hall
      exact List.eq_nil_iff_forall_not_mem.mpr fun m hm => List.not_mem_nil (hall m hm)

end Steps

/-- **When the bookkeeping is complete.** -/
theorem complete_iff {calls : List WsmCall} {t : WsmClient}
    (hrun : wsmMachine.run .init calls = some t) :
    (wsmMachine.RunStays Complete .init calls ∧ wsmMachine.RunMeets FreesOnce .init calls) ↔
      wsmMachine.RunMeets Careful .init calls := by
  apply Machine.runStays_and_runMeets_iff _ (fun s hs => Inv.complete hs)
    (fun s c t hs hstep hc => step_keeps hs hstep hc)
    (fun s c t hs hstep ht hc => careful_of_complete hs hstep ht hc) _ hrun
  exact ⟨List.Perm.refl _, List.nodup_nil, by simp [WsmClient.init], by simp [WsmClient.init],
    by simp [WsmClient.init], Nat.le_refl _⟩

/-- A buffer is obtained and freed again before the device is closed. -/
def tidyCalls : List WsmCall :=
  [.openDevice false true, .mallocWsm 0 16 (.ok 0x1000) true, .freeWsm 0 0x1000 mcDrvOk,
    .closeDevice 0 mcDrvOk fun _ => mcDrvOk]

theorem complete_tidyCalls : wsmMachine.RunStays Complete .init tidyCalls ∧
    wsmMachine.RunMeets FreesOnce .init tidyCalls := by
  have hrun : wsmMachine.run .init tidyCalls = some ⟨[], 16, 0, [], []⟩ := by decide
  apply (complete_iff hrun).mpr
  exact ⟨trivial, fun _ _ _ => rfl, fun _ => List.not_mem_nil, fun _ => rfl, trivial⟩

/-- A buffer that is left when the device is closed. -/
def untidyCalls : List WsmCall :=
  [.openDevice false true, .mallocWsm 0 16 (.ok 0x1000) true,
    .closeDevice 0 mcDrvOk fun _ => mcDrvOk]

/-- The close takes the buffer off the table, does not find it there, and does not free it. -/
theorem not_complete_untidyCalls : ¬ (wsmMachine.RunStays Complete .init untidyCalls ∧
    wsmMachine.RunMeets FreesOnce .init untidyCalls) := by
  rintro ⟨-, -, -, hclose, -⟩
  have hpassed := hclose.all (by decide) (0x1000, 16) (by decide)
  exact absurd hpassed (by decide)

end McDaemon.Client.Wsm
