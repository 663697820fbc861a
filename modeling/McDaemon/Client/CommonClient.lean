/-
# McDaemon.Client.CommonClient — the users of one process that share a lower layer.

All users of the client library share one object that counts their opens, chooses between driver
and proxy when the first of them comes, and closes what it chose when the last one leaves.  A close
of the legacy interface is two locked sections with a clean-up between them that holds no lock; a
close of the other one is a single section.  The world shared memory of all users is on one list,
which the clean-up empties.
-/
import Mathlib.Tactic.SplitIfs
import McDaemon.Lib.Machine
import McDaemon.Lib.PtrList

namespace McDaemon.Client

open McDaemon.Lib

/-! ## State -/

/-- The two clients that `CommonClient` can be on. -/
inductive Lower
  | driver
  | proxy
deriving DecidableEq, Repr

/-- `OpenMode`. -/
inductive OpenMode
  | auto
  | driver
  | proxy
deriving DecidableEq, Repr

/-- The `Device` of the driver client. -/
structure DriverDevice where
  id : Nat
  valid : Bool
deriving DecidableEq, Repr

/-- Where memory is mapped: by a device, whose end unmaps it, or anonymously. -/
inductive Place
  | device (id : Nat)
  | anonymous
deriving DecidableEq, Repr

/-- How far a user is: it may still use what it opened, or is in its close, before or after the
clean-up. -/
inductive Phase
  | holding
  | cleaning
  | closing
deriving DecidableEq, Repr

/-- An open that succeeded and is not closed: through which interface, and how often the lower layer
had been opened by then. -/
structure User where
  gp : Bool
  phase : Phase
  since : Nat
deriving DecidableEq, Repr

/-- `CommonClient::Impl` with the two clients under it, the list `wsms` with lengths, and the memory
that is mapped.  `opened`, `users` and `owned` only record what has happened: how often the lower
layer was opened, who has opened and not closed, and which memory is whose. -/
structure CommonClient where
  openCount : Int
  client : Option Lower
  openMode : OpenMode
  device : Option DriverDevice
  proxyOpen : Bool
  wsms : List (Nat × Nat)
  mapped : List (Nat × Place)
  opened : Nat
  users : PtrList User
  owned : List (Nat × Nat)

namespace CommonClient

/-! ## Opening and closing -/

/-- `client->isOpen()`. -/
def lowerIsOpen (s : CommonClient) : Lower → Bool
  | .driver => s.device.any (·.valid)
  | .proxy => s.proxyOpen

/-- `pimpl_->client && !pimpl_->client->isOpen()`. -/
def dead (s : CommonClient) : Bool := s.client.any fun l => !s.lowerIsOpen l

/-- The choice of a lower layer.  A driver that opens forgets the device it had. -/
def openLower (s : CommonClient) (driverOpens proxyOpens : Bool) : Option CommonClient :=
  if s.openMode ≠ .proxy ∧ driverOpens then
    some { s with
      device := some ⟨s.opened + 1, true⟩, client := some .driver, opened := s.opened + 1 }
  else if s.openMode ≠ .driver ∧ proxyOpens then
    some { s with proxyOpen := true, client := some .proxy, opened := s.opened + 1 }
  else none

/-- `if (pimpl_->client) pimpl_->open_count++`. -/
def countUp (s : CommonClient) : CommonClient :=
  if s.client.isSome then { s with openCount := s.openCount + 1 } else s

/-- `CommonClient::open`, with its result. -/
def openClient (s : CommonClient) (driverOpens proxyOpens : Bool) : Bool × CommonClient :=
  let s := if s.dead then { s with openCount := 0 } else s
  if s.openCount = 0 then
    match s.openLower driverOpens proxyOpens with
    | some t => (true, t.countUp)
    | none => (false, s.countUp)
  else (true, s.countUp)

/-- `CommonClient::closeCheck`. -/
def closeCheck (s : CommonClient) : Option CommonClient :=
  if 1 < s.openCount then some { s with openCount := s.openCount - 1 } else none

/-- `close` of the lower layer.  A device goes with its memory, unless sessions are pending. -/
def closeLower (s : CommonClient) (pending : Bool) : Lower → CommonClient
  | .proxy => { s with proxyOpen := false }
  | .driver =>
    match s.device with
    | none => s
    | some d =>
      if pending then s
      else { s with device := none, mapped := s.mapped.filter fun m => m.2 ≠ .device d.id }

/-- `CommonClient::close`. -/
def closeClient (s : CommonClient) (pending : Bool) : CommonClient :=
  match s.client with
  | none => s
  | some l =>
    let s := if s.openCount = 1 then { s.closeLower pending l with client := none } else s
    { s with openCount := s.openCount - 1 }

/-! ## World shared memory -/

/-- The place of what the lower layer allocates. -/
def place (s : CommonClient) : Option Place :=
  match s.client with
  | none => none
  | some .proxy => some .anonymous
  | some .driver => s.device.map fun d => .device d.id

/-- `wsms_len`. -/
def wsmsLen (wsms : List (Nat × Nat)) (wsm : Nat) : Nat :=
  match wsms.find? (·.1 = wsm) with
  | none => 0
  | some w => w.2

/-- `wsms_remove`: the last entry takes the place of the one found. -/
def wsmsRemove (wsm : Nat) : List (Nat × Nat) → List (Nat × Nat)
  | [] => []
  | w :: ws =>
    if w.1 = wsm then
      match ws.getLast? with
      | none => []
      | some l => l :: ws.dropLast
    else w :: wsmsRemove wsm ws

/-- `client.free`: the driver only frees memory of its device. -/
def free (s : CommonClient) (wsm : Nat) (frees : Bool) : Option CommonClient :=
  match s.client with
  | none => none
  | some .proxy => some { s with mapped := s.mapped.filter (·.1 ≠ wsm) }
  | some .driver =>
    match s.device with
    | none => none
    | some d =>
      if (wsm, .device d.id) ∈ s.mapped ∧ frees then
        some { s with mapped := s.mapped.filter (· ≠ (wsm, .device d.id)) }
      else none

/-- `mcFreeWsm`; `none` is an error. -/
def mcFreeWsm (s : CommonClient) (wsm : Nat) (frees : Bool) : Option CommonClient :=
  if 0 < s.openCount ∧ wsmsLen s.wsms wsm ≠ 0 then
    (s.free wsm frees).map fun t => { t with wsms := wsmsRemove wsm t.wsms }
  else none

/-- `mcMallocWsm`, with the address it returns and whether there is room on the list. -/
def mcMallocWsm (s : CommonClient) (u wsm len : Nat) (room : Bool) : CommonClient :=
  match s.place with
  | none => s
  | some pl =>
    if s.openCount ≤ 0 ∨ len = 0 then s
    else { s with
      mapped := (wsm, pl) :: s.mapped
      wsms := if room then s.wsms ++ [(wsm, len)] else s.wsms
      owned := (wsm, u) :: s.owned }

/-- The loop of `mcCloseDevice` over the remaining memory; an entry is off the list before it is
freed. -/
def freeRemaining (frees : Nat → Bool) : Nat → CommonClient → CommonClient
  | 0, s => s
  | n + 1, s =>
    match s.wsms.getLast? with
    | none => s
    | some w =>
      let s := { s with wsms := s.wsms.dropLast }
      freeRemaining frees n ((s.mcFreeWsm w.1 (frees w.1)).getD s)

/-- What `mcDeviceHasOpenSessions_` answers for a valid device. -/
inductive SessionsAnswer
  | noSessions
  | pending
  | unreachable
deriving DecidableEq, Repr

/-- `CommonClient::hasOpenSessions`; a daemon that is gone makes the device invalid. -/
def hasOpenSessions (s : CommonClient) (answer : SessionsAnswer) : Bool × CommonClient :=
  match s.client with
  | none => (false, s)
  | some .proxy => (answer = .noSessions, s)
  | some .driver =>
    match s.device with
    | none => (false, s)
    | some d =>
      if d.valid = false then (true, s)
      else if answer = .unreachable then (false, { s with device := some { d with valid := false } })
      else (answer = .noSessions, s)

def init : CommonClient where
  openCount := 0
  client := none
  openMode := .auto
  device := none
  proxyOpen := false
  wsms := []
  mapped := []
  opened := 0
  users := .empty
  owned := []

end CommonClient

/-! ## Runs -/

/-- What users do, section by section, and what the lower layer does by itself.  `openClient` is
`mcOpenDevice` or `TEEC_InitializeContext`; `mcCloseDevice` is `closeCheck`, then `cleanUp`, then
`close`, and `TEEC_FinalizeContext` is `close` at once. -/
inductive ClientAction
  | setOpenMode (mode : OpenMode)
  | openClient (gp driverOpens proxyOpens : Bool)
  | closeCheck (u : Nat)
  | cleanUp (u : Nat) (answer : CommonClient.SessionsAnswer) (frees : Nat → Bool)
  | close (u : Nat) (pending : Bool)
  | mallocWsm (u wsm len : Nat) (room : Bool)
  | freeWsm (u wsm : Nat) (frees : Bool)
  | invalidate

namespace CommonClient

/-- The phase of a user is another one now. -/
def setPhase (s : CommonClient) (u : Nat) (phase : Phase) : CommonClient :=
  { s with users := s.users.modify u ({ · with phase := phase }) }

/-- A user has closed what it opened. -/
def leave (s : CommonClient) (u : Nat) : CommonClient := { s with users := s.users.remove u }

/-- A user calls what its interface lets it call at this point; memory is mapped where none is, and
a user frees only memory of its own. -/
def step (s : CommonClient) : ClientAction → Option CommonClient
  | .setOpenMode mode => some { s with openMode := mode }
  | .openClient gp driverOpens proxyOpens =>
    match s.openClient driverOpens proxyOpens with
    | (true, t) => some { t with users := t.users.push ⟨gp, .holding, t.opened⟩ }
    | (false, t) => some t
  | .closeCheck u => do
    let v ← s.users.get? u
    if v.gp = false ∧ v.phase = .holding then
      match s.closeCheck with
      | some t => some (t.leave u)
      | none => some (s.setPhase u .cleaning)
    else none
  | .cleanUp u answer frees => do
    let v ← s.users.get? u
    if v.phase = .cleaning then
      match s.hasOpenSessions answer with
      | (true, t) => some ((t.freeRemaining frees t.wsms.length).setPhase u .closing)
      | (false, t) => some (t.setPhase u .holding)
    else none
  | .close u pending => do
    let v ← s.users.get? u
    if v.phase = if v.gp then .holding else .closing then some ((s.closeClient pending).leave u)
    else none
  | .mallocWsm u wsm len room => do
    let v ← s.users.get? u
    if v.phase = .holding ∧ wsm ∉ s.mapped.map Prod.fst then some (s.mcMallocWsm u wsm len room)
    else none
  | .freeWsm u wsm frees => do
    let v ← s.users.get? u
    if v.phase = .holding ∧ (wsm, u) ∈ s.owned then
      match s.mcFreeWsm wsm frees with
      | some t => some { t with owned := t.owned.filter (· ≠ (wsm, u)) }
      | none => some s
    else none
  | .invalidate => some { s with device := s.device.map ({ · with valid := false }) }

end CommonClient

/-- The users of a process over their client. -/
def commonMachine : Machine CommonClient ClientAction where
  init := (· = .init)
  step := CommonClient.step

/-! ## The list of memory -/

namespace CommonClient

/-- Where the lower layer is asked to free its memory, it does. -/
def Frees (s : CommonClient) (frees : Bool) : Prop := s.client = some .proxy ∨ frees = true

theorem perm_wsmsRemove {wsms : List (Nat × Nat)} {wsm : Nat} (h : wsm ∈ wsms.map Prod.fst) :
    ∃ len, wsms.Perm ((wsm, len) :: wsmsRemove wsm wsms) := by
  induction wsms with
  | nil => cases h
  | cons w ws ih =>
    unfold wsmsRemove
    split_ifs with hw
    · refine ⟨w.2, ?_⟩
      rw [← hw]
      apply List.Perm.cons
      cases hlast : ws.getLast? with
      | none => rw [List.getLast?_eq_none_iff.mp hlast]
      | some l =>
        obtain ⟨front, rfl⟩ := List.getLast?_eq_some_iff.mp hlast
        rw [List.dropLast_concat]
        exact List.perm_append_singleton l front
    · have hmem : wsm ∈ ws.map Prod.fst := by
        rcases List.mem_cons.mp h with rfl | h
        · exact absurd rfl hw
        · exact h
      obtain ⟨len, hperm⟩ := ih hmem
      exact ⟨len, (hperm.cons w).trans (List.Perm.swap _ _ _)⟩

/-- An address has a length on the list if it is there. -/
theorem wsmsLen_ne_zero_iff {wsms : List (Nat × Nat)} {wsm : Nat} (hlen : ∀ w ∈ wsms, w.2 ≠ 0) :
    wsmsLen wsms wsm ≠ 0 ↔ wsm ∈ wsms.map Prod.fst := by
  unfold wsmsLen
  cases hfind : wsms.find? (·.1 = wsm) with
  | none =>
    have hnone := List.find?_eq_none.mp hfind
    constructor
    · intro h
      exact absurd rfl h
    · intro h
      obtain ⟨w, hw, rfl⟩ := List.mem_map.mp h
      exact absurd (hnone w hw) (by simp)
  | some w =>
    have hw := List.mem_of_find?_eq_some hfind
    have heq : w.1 = wsm := by simpa using List.find?_some hfind
    exact ⟨fun _ => List.mem_map.mpr ⟨w, hw, heq⟩, fun _ => hlen w hw⟩

theorem mem_map_of_wsmsLen {wsms : List (Nat × Nat)} {wsm : Nat} (h : wsmsLen wsms wsm ≠ 0) :
    wsm ∈ wsms.map Prod.fst := by
  unfold wsmsLen at h
  cases hfind : wsms.find? (·.1 = wsm) with
  | none =>
    rw [hfind] at h
    exact absurd rfl h
  | some w =>
    have heq : w.1 = wsm := by simpa using List.find?_some hfind
    exact List.mem_map.mpr ⟨w, List.mem_of_find?_eq_some hfind, heq⟩

section Memory

variable {s t : CommonClient} {wsm : Nat} {frees : Bool}

theorem place_eq_some_iff {pl : Place} :
    s.place = some pl ↔ s.client = some .proxy ∧ pl = .anonymous ∨
      ∃ d, s.client = some .driver ∧ s.device = some d ∧ pl = .device d.id := by
  unfold place
  cases s.client with
  | none => simp
  | some l => cases l <;> simp [Option.map_eq_some_iff, @eq_comm _ pl]

/-- What a successful `mcFreeWsm` does: one entry goes from the list, and the memory. -/
theorem mcFreeWsm_cases (h : s.mcFreeWsm wsm frees = some t) :
    s.Frees frees ∧ ∃ len ws ms, s.wsms.Perm ((wsm, len) :: ws) ∧
      t = { s with wsms := ws, mapped := ms } ∧ ms.Sublist s.mapped ∧
        (∀ m ∈ s.mapped, m.1 ≠ wsm → m ∈ ms) ∧ ∀ pl, s.place = some pl → (wsm, pl) ∉ ms := by
  unfold mcFreeWsm at h
  split_ifs at h with hopen
  obtain ⟨u, hu, rfl⟩ := Option.map_eq_some_iff.mp h
  obtain ⟨len, hperm⟩ := perm_wsmsRemove (mem_map_of_wsmsLen hopen.2)
  unfold free at hu
  unfold Frees place
  cases hclient : s.client with
  | none =>
    rw [hclient] at hu
    cases hu
  | some l =>
    rw [hclient] at hu
    cases l with
    | proxy =>
      cases hu
      refine ⟨.inl rfl, len, _, _, hperm, rfl, List.filter_sublist, fun m hm hne => ?_,
        fun pl _ hin => ?_⟩
      · exact List.mem_filter.mpr ⟨hm, by simpa using hne⟩
      · simpa using (List.mem_filter.mp hin).2
    | driver =>
      cases hdev : s.device with
      | none =>
        rw [hdev] at hu
        cases hu
      | some d =>
        rw [hdev] at hu
        dsimp only at hu
        split_ifs at hu with hfree
        cases hu
        refine ⟨.inr hfree.2, len, _, _, hperm, rfl, List.filter_sublist, fun m hm hne => ?_,
          fun pl hpl hin => ?_⟩
        · refine List.mem_filter.mpr ⟨hm, decide_eq_true ?_⟩
          rintro rfl
          exact hne rfl
        · obtain rfl : Place.device d.id = pl := by simpa using hpl
          simpa using (List.mem_filter.mp hin).2

/-- Memory of the lower layer that is on the list is freed if the layer frees it. -/
theorem exists_mcFreeWsm {pl : Place} (hopen : 0 < s.openCount) (hlen : wsmsLen s.wsms wsm ≠ 0)
    (hpl : s.place = some pl) (hmem : (wsm, pl) ∈ s.mapped) (hfrees : s.Frees frees) :
    ∃ t, s.mcFreeWsm wsm frees = some t := by
  unfold mcFreeWsm
  rw [if_pos ⟨hopen, hlen⟩]
  unfold place at hpl
  unfold Frees at hfrees
  unfold free
  cases hclient : s.client with
  | none =>
    rw [hclient] at hpl
    cases hpl
  | some l =>
    rw [hclient] at hpl hfrees
    cases l with
    | proxy => exact ⟨_, rfl⟩
    | driver =>
      cases hdev : s.device with
      | none =>
        rw [hdev] at hpl
        cases hpl
      | some d =>
        rw [hdev] at hpl
        obtain rfl : Place.device d.id = pl := by simpa using hpl
        have htrue : frees = true := by simpa using hfrees
        dsimp only
        rw [if_pos ⟨hmem, htrue⟩]
        exact ⟨_, rfl⟩

end Memory

/-! ## The clean-up -/

theorem wsms_eq_of_getLast? {wsms : List (Nat × Nat)} {w : Nat × Nat}
    (h : wsms.getLast? = some w) : wsms.dropLast ++ [w] = wsms := by
  obtain ⟨front, rfl⟩ := List.getLast?_eq_some_iff.mp h
  rw [List.dropLast_concat]

/-- The clean-up only takes entries from the list and memory from the lower layer. -/
theorem freeRemaining_frame (frees : Nat → Bool) (n : Nat) (s : CommonClient) :
    ∃ ws ms, s.freeRemaining frees n = { s with wsms := ws, mapped := ms } ∧
      (∀ w ∈ ws, w ∈ s.wsms) ∧ ms.Sublist s.mapped := by
  induction n generalizing s with
  | zero => exact ⟨s.wsms, s.mapped, rfl, fun w hw => hw, List.Sublist.refl _⟩
  | succ n ih =>
    unfold freeRemaining
    split
    · exact ⟨s.wsms, s.mapped, rfl, fun w hw => hw, List.Sublist.refl _⟩
    · next w hlast =>
      have hpop : ∀ v ∈ s.wsms.dropLast, v ∈ s.wsms := fun v hv => List.dropLast_subset _ hv
      dsimp only
      cases hfree : ({ s with wsms := s.wsms.dropLast } : CommonClient).mcFreeWsm w.1
          (frees w.1) with
      | none =>
        obtain ⟨ws, ms, heq, hws, hms⟩ := ih { s with wsms := s.wsms.dropLast }
        exact ⟨ws, ms, heq, fun v hv => hpop v (hws v hv), hms⟩
      | some t =>
        obtain ⟨-, len, rest, left, hperm, rfl, hleft, -, -⟩ := mcFreeWsm_cases hfree
        obtain ⟨ws, ms, heq, hws, hms⟩ := ih { s with wsms := rest, mapped := left }
        refine ⟨ws, ms, heq, fun v hv => hpop v ?_, hms.trans hleft⟩
        exact hperm.symm.subset (List.mem_cons_of_mem _ (hws v hv))

section Cleaning

variable {frees : Nat → Bool} {wsm : Nat} {pl : Place}

/-- An address that is on the list once is off it before the clean-up tries to free it. -/
theorem mem_freeRemaining {n : Nat} {s : CommonClient} (hmem : (wsm, pl) ∈ s.mapped)
    (honce : s.wsms.countP (·.1 = wsm) ≤ 1 ∨ ¬ s.Frees (frees wsm)) :
    (wsm, pl) ∈ (s.freeRemaining frees n).mapped := by
  induction n generalizing s with
  | zero => exact hmem
  | succ n ih =>
    unfold freeRemaining
    split
    · exact hmem
    · next w hlast =>
      have hsplit := wsms_eq_of_getLast? hlast
      have hcount : s.wsms.countP (·.1 = wsm) =
          s.wsms.dropLast.countP (·.1 = wsm) + if w.1 = wsm then 1 else 0 := by
        conv_lhs => rw [← hsplit]
        simp [List.countP_append, List.countP_cons]
      dsimp only
      cases hfree : ({ s with wsms := s.wsms.dropLast } : CommonClient).mcFreeWsm w.1
          (frees w.1) with
      | none =>
        refine ih hmem (honce.imp_left fun hle => ?_)
        show s.wsms.dropLast.countP _ ≤ 1
        omega
      | some t =>
        obtain ⟨hfrees, len, rest, left, hperm, rfl, -, hother, -⟩ := mcFreeWsm_cases hfree
        have hremoved : s.wsms.dropLast.countP (·.1 = wsm) =
            rest.countP (·.1 = wsm) + if w.1 = wsm then 1 else 0 := by
          simpa [List.countP_cons] using hperm.countP_eq (·.1 = wsm)
        have hne : w.1 ≠ wsm := by
          rintro rfl
          rcases honce with hle | hnot
          · rw [if_pos rfl] at hcount hremoved
            omega
          · exact hnot hfrees
        refine ih (hother _ hmem fun heq => hne heq.symm) (honce.imp_left fun hle => ?_)
        show rest.countP _ ≤ 1
        omega

/-- A buffer that can be freed is not mapped any more behind the rest of the loop. -/
theorem not_mem_freeRemaining_freed (n : Nat) {s : CommonClient} (hopen : 0 < s.openCount)
    (hlen : ∀ w ∈ s.wsms, w.2 ≠ 0) (hapart : (s.mapped.map Prod.fst).Nodup)
    (hpl : s.place = some pl) (hmem : (wsm, pl) ∈ s.mapped) (hin : wsm ∈ s.wsms.map Prod.fst)
    (hfrees : s.Frees (frees wsm)) :
    ∃ t, s.mcFreeWsm wsm (frees wsm) = some t ∧
      wsm ∉ (t.freeRemaining frees n).mapped.map Prod.fst := by
  obtain ⟨t, ht⟩ := exists_mcFreeWsm hopen ((wsmsLen_ne_zero_iff hlen).mpr hin) hpl hmem hfrees
  refine ⟨t, ht, fun hback => ?_⟩
  obtain ⟨-, len, rest, left, -, rfl, hleft, -, hgone⟩ := mcFreeWsm_cases ht
  obtain ⟨ws, ms, heq, -, hms⟩ := freeRemaining_frame frees n
    { s with wsms := rest, mapped := left }
  rw [heq] at hback
  obtain ⟨m, hm, hfst⟩ := List.mem_map.mp hback
  have hmleft := hms.subset hm
  have hsame : m = (wsm, pl) :=
    List.inj_on_of_nodup_map hapart (hleft.subset hmleft) hmem hfst
  rw [hsame] at hmleft
  exact hgone pl hpl hmleft

/-- An address that is on the list twice is freed through its other entry. -/
theorem not_mem_freeRemaining {n : Nat} {s : CommonClient} (hn : s.wsms.length ≤ n)
    (hopen : 0 < s.openCount) (hlen : ∀ w ∈ s.wsms, w.2 ≠ 0)
    (hapart : (s.mapped.map Prod.fst).Nodup) (hpl : s.place = some pl)
    (hmem : (wsm, pl) ∈ s.mapped) (htwice : 2 ≤ s.wsms.countP (·.1 = wsm))
    (hfrees : s.Frees (frees wsm)) : wsm ∉ (s.freeRemaining frees n).mapped.map Prod.fst := by
  induction n generalizing s with
  | zero =>
    have hnil : s.wsms = [] := List.length_eq_zero_iff.mp (by omega)
    rw [hnil] at htwice
    simp at htwice
  | succ n ih =>
    unfold freeRemaining
    split
    · next hlast =>
      rw [List.getLast?_eq_none_iff.mp hlast] at htwice
      simp at htwice
    · next w hlast =>
      have hsplit := wsms_eq_of_getLast? hlast
      have hcount : s.wsms.countP (·.1 = wsm) =
          s.wsms.dropLast.countP (·.1 = wsm) + if w.1 = wsm then 1 else 0 := by
        conv_lhs => rw [← hsplit]
        simp [List.countP_append, List.countP_cons]
      have hshort : s.wsms.dropLast.length ≤ n := by
        rw [List.length_dropLast]
        omega
      have hlen' : ∀ v ∈ s.wsms.dropLast, v.2 ≠ 0 := fun v hv => hlen v (List.dropLast_subset _ hv)
      dsimp only
      by_cases hw : w.1 = wsm
      · -- the entry just taken off has a second one, which has a length
        subst hw
        rw [if_pos rfl] at hcount
        have hin : w.1 ∈ s.wsms.dropLast.map Prod.fst := by
          obtain ⟨v, hv, heq⟩ := List.countP_pos_iff.mp
            (show 0 < s.wsms.dropLast.countP (·.1 = w.1) by omega)
          exact List.mem_map.mpr ⟨v, hv, by simpa using heq⟩
        obtain ⟨t, ht, hgone⟩ := not_mem_freeRemaining_freed n
          (s := { s with wsms := s.wsms.dropLast }) hopen hlen' hapart hpl hmem hin hfrees
        rw [ht]
        exact hgone
      · rw [if_neg hw] at hcount
        cases hfree : ({ s with wsms := s.wsms.dropLast } : CommonClient).mcFreeWsm w.1
            (frees w.1) with
        | none =>
          refine ih hshort hopen hlen' hapart hpl hmem ?_ hfrees
          show 2 ≤ s.wsms.dropLast.countP _
          omega
        | some t =>
          obtain ⟨-, len, rest, left, hperm, rfl, hleft, hother, -⟩ := mcFreeWsm_cases hfree
          have hremoved : s.wsms.dropLast.countP (·.1 = wsm) = rest.countP (·.1 = wsm) := by
            simpa [List.countP_cons, hw] using hperm.countP_eq (·.1 = wsm)
          have hlength : s.wsms.dropLast.length = rest.length + 1 := hperm.length_eq
          refine ih ?_ hopen (fun v hv => hlen' v ?_) (hapart.sublist (hleft.map _)) hpl
            (hother _ hmem fun heq => hw heq.symm) ?_ hfrees
          · show rest.length ≤ n
            omega
          · exact hperm.symm.subset (List.mem_cons_of_mem _ hv)
          · show 2 ≤ rest.countP _
            omega

end Cleaning

end CommonClient

end McDaemon.Client
