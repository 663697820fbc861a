/-
# McDaemon.Proxy.MemoryRuns — who wrote the bytes that a session shares.

Beside the two copies stands what the client wrote last, and what the TA wrote since the last
notify.  A notify makes the bytes of the client the client's own, and copies them to the server.  A
wait brings back whole places, so it is right exactly when the copies hold what the client has,
wherever the TA has not written.
-/
import McDaemon.Proxy.SharedMemory

namespace McDaemon.Proxy.Memory

open McDaemon.Lib

/-! ## The last writes -/

/-- The client's own last write to a byte, and the last write of the TA since the client's last
notify. -/
structure Writes where
  own : Place → Nat → UInt8
  ta : Place → Nat → Option UInt8

namespace Writes

/-- Nothing has been shared yet. -/
def unshared : Writes := ⟨fun _ _ => 0, fun _ _ => none⟩

/-- The bytes of a session become the client's own. -/
def adopt (h : Writes) (s : Session) (p : Place) (i : Nat) : UInt8 := (s.byte p i).getD (h.own p i)

/-- How a step is recorded: memory that is shared is the client's, and so is what it notifies. -/
def record (s : Option Link) (a : Action) (h : Writes) : Writes :=
  match a with
  | .openSession tci _ => ⟨h.adopt ⟨tci, []⟩, fun _ _ => none⟩
  | .map bufs svas _ =>
    { own := h.adopt ⟨none, Link.mapped bufs svas⟩
      ta := fun p i =>
        if (Session.entry ⟨none, Link.mapped bufs svas⟩ p).isSome then none else h.ta p i }
  | .notify _ =>
    match s with
    | none => h
    | some l => ⟨h.adopt l.client, fun _ _ => none⟩
  | .write p i v => { h with own := fun q j => if q = p ∧ j = i then v else h.own q j }
  | .taWrites p i v => { h with ta := fun q j => if q = p ∧ j = i then some v else h.ta q j }
  | _ => h

end Writes

/-- The sessions with the last writes. -/
def memoryRuns : Machine (Option Link × Writes) Action :=
  memoryMachine.withHistory Writes.record Writes.unshared

/-! ## The property and its condition -/

/-- The TA sees at a notification what the client has in the TCI and the buffers it may read. -/
def Sees (x : Option Link × Writes) (a : Action) : Prop :=
  ∀ l t, x.1 = some l → a = .notify .done → memoryMachine.step x.1 a = some t →
    ∃ l', t = some l' ∧ ∀ p e, l'.server.entry p = some e → isInput e.1 = true →
      l.client.entry p = some e

/-- Every byte is the TA's last write if it wrote it since the last notify, and otherwise the
client's own last write. -/
def Right (s : Session) (h : Writes) : Prop :=
  ∀ p i b, s.byte p i = some b → b = (h.ta p i).getD (h.own p i)

/-- Behind a wait, which has come to its update or has found the connection broken, every byte of
the client is right, and what the TA did not write is as it was. -/
def BringsBack (x : Option Link × Writes) (a : Action) : Prop :=
  ∀ l, x.1 = some l →
    (∀ l', a = .update → memoryMachine.step x.1 a = some (some l') →
      Right l'.client x.2 ∧
        ∀ p i, x.2.ta p i = none → l'.client.byte p i = l.client.byte p i) ∧
    ∀ answer, a = .exchange answer → memoryMachine.step x.1 a = some none → Right l.client x.2

/-- When a wait updates the client, the copies that it brings back are still those of the server,
and wherever the TA has not written since the last notify they hold the client's own bytes.  When it
finds the connection broken, the client has all that the TA has written. -/
def UpToDate (x : Option Link × Writes) (a : Action) : Prop :=
  ∀ l, x.1 = some l →
    (∀ r, a = .update → l.stage = .answered r → ∀ p d e, r.data p = some d →
      l.server.entry p = some e →
        d = e.2 ∧ ∀ i b, e.2[i]? = some b → x.2.ta p i = none → b = x.2.own p i) ∧
    ∀ answer, a = .exchange answer → memoryMachine.step x.1 a = some none →
      ∀ p i b v, l.client.byte p i = some b → x.2.ta p i = some v → b = v

/-! ## The invariants -/

/-- A response of the server that the client has yet to copy. -/
structure InFlight (r : Message) (s : Session) (h : Writes) : Prop where
  fits : Fits r s
  data : ∀ p e, s.entry p = some e →
    (isOutput e.1 = false ∧ r.data p = none) ∨
      (isOutput e.1 = true ∧ ∃ d, r.data p = some d ∧ d.length = e.2.length ∧
        ∀ i, h.ta p i = none → d[i]? = e.2[i]?)

/-- Both ends have the same places, and the copies of the server hold what the TA has written. -/
structure Linked (l : Link) (h : Writes) : Prop where
  shape : l.client.shape = l.server.shape
  nodup : (l.server.buffers.map Buffer.sva).Nodup
  written : ∀ p i b v, l.server.byte p i = some b → h.ta p i = some v → b = v
  readOnly : ∀ p e i, l.server.entry p = some e → isOutput e.1 = false → h.ta p i = none
  answered : ∀ r, l.stage = .answered r → InFlight r l.server h

/-- What the TA has not written is the client's own. -/
def Kept (s : Session) (h : Writes) : Prop :=
  ∀ p i b, s.byte p i = some b → h.ta p i = none → b = h.own p i

section Invariants

variable {l l' : Link} {h : Writes}

theorem nodup_of_shape {s c : Session} (h : s.shape = c.shape)
    (hnodup : (s.buffers.map Buffer.sva).Nodup) : (c.buffers.map Buffer.sva).Nodup := by
  rw [map_sva] at hnodup ⊢
  rw [← (Prod.mk.inj h).2]
  exact hnodup

theorem Right.kept {s : Session} (hright : Right s h) : Kept s h := by
  intro p i b hb hta
  have hbyte := hright p i b hb
  rw [hta] at hbyte
  exact hbyte

theorem ends_cases {a : Answer} {done : Option Link} (hl : l.ends a done = some l') :
    a = .done ∧ done = some l' ∨ a ≠ .done ∧ l' = l := by
  cases a with
  | done => exact .inl ⟨rfl, hl⟩
  | refused timeout =>
    refine .inr ⟨nofun, ?_⟩
    exact (Option.some.inj (Option.ite_none_left_eq_some.mp hl).2).symm
  | broken timeout => cases hl

theorem byte_of_entry {s : Session} {p : Place} {e : UInt32 × List UInt8}
    (he : s.entry p = some e) (i : Nat) : s.byte p i = e.2[i]? := by
  rw [Session.byte, he, Option.bind_some]

theorem entry_of_byte {s : Session} {p : Place} {i : Nat} {b : UInt8} (hb : s.byte p i = some b) :
    ∃ e, s.entry p = some e ∧ e.2[i]? = some b := Option.bind_eq_some_iff.mp hb

/-! ### Writes -/

theorem Linked.write (hl : Linked l h) (p : Place) (i : Nat) (v : UInt8) :
    Linked { l with client := l.client.write p i v } (h.record (some l) (.write p i v)) where
  shape := (shape_write ..).trans hl.shape
  nodup := hl.nodup
  written := hl.written
  readOnly := hl.readOnly
  answered := fun r hr => ⟨(hl.answered r hr).fits, (hl.answered r hr).data⟩

theorem Kept.write (hk : Kept l.client h) (p : Place) (i : Nat) (v : UInt8) :
    Kept (l.client.write p i v) (h.record (some l) (.write p i v)) := by
  intro q j b hb hta
  rw [byte_write] at hb
  show b = if q = p ∧ j = i then v else h.own q j
  split_ifs at hb ⊢
  · obtain ⟨_, -, rfl⟩ := Option.map_eq_some_iff.mp hb
    rfl
  · exact hk q j b hb hta

/-- What the TA has not written behind one more write. -/
theorem taWrites_none {s : Option Link} {p q : Place} {i j : Nat} {v : UInt8}
    (hta : (h.record s (.taWrites p i v)).ta q j = none) :
    ¬ (q = p ∧ j = i) ∧ h.ta q j = none := by
  by_cases hat : q = p ∧ j = i
  · have hsome : (h.record s (.taWrites p i v)).ta q j = some v := if_pos hat
    rw [hsome] at hta
    cases hta
  · exact ⟨hat, (if_neg hat).symm.trans hta⟩

theorem InFlight.taWrites {r : Message} {s : Session} (hr : InFlight r s h) (p : Place) (i : Nat)
    (v : UInt8) : InFlight r (s.write p i v) (h.record (some l) (.taWrites p i v)) := by
  refine ⟨hr.fits.congr (shape_write ..).symm, fun q e he => ?_⟩
  rw [entry_write] at he
  by_cases hq : q = p
  · rw [if_pos hq] at he
    obtain ⟨f, hf, rfl⟩ := Option.map_eq_some_iff.mp he
    rcases hr.data q f hf with hnone | ⟨hout, d, hd, hlength, hsame⟩
    · exact .inl hnone
    · refine .inr ⟨hout, d, hd, by simpa using hlength, fun j hj => ?_⟩
      obtain ⟨hne, hta⟩ := taWrites_none hj
      have hij : i ≠ j := fun hij => hne ⟨hq, hij.symm⟩
      simpa [hij] using hsame j hta
  · rw [if_neg hq] at he
    rcases hr.data q e he with hnone | ⟨hout, d, hd, hlength, hsame⟩
    · exact .inl hnone
    · exact .inr ⟨hout, d, hd, hlength, fun j hj => hsame j (taWrites_none hj).2⟩

theorem Linked.taWrites (hl : Linked l h) {p : Place} (i : Nat) (v : UInt8)
    (hout : (l.server.entry p).any (fun e => isOutput e.1) = true) :
    Linked { l with server := l.server.write p i v } (h.record (some l) (.taWrites p i v)) where
  shape := hl.shape.trans (shape_write ..).symm
  nodup := nodup_of_shape (shape_write ..).symm hl.nodup
  written := by
    intro q j b w hb hw
    rw [byte_write] at hb
    by_cases hat : q = p ∧ j = i
    · rw [if_pos hat] at hb
      obtain ⟨_, -, rfl⟩ := Option.map_eq_some_iff.mp hb
      exact Option.some.inj ((if_pos hat).symm.trans hw)
    · rw [if_neg hat] at hb
      exact hl.written q j b w hb ((if_neg hat).symm.trans hw)
  readOnly := by
    intro q e j he hnot
    rw [entry_write] at he
    by_cases hq : q = p
    · rw [if_pos hq] at he
      obtain ⟨f, hf, rfl⟩ := Option.map_eq_some_iff.mp he
      rw [← hq, hf] at hout
      exact absurd (hout.symm.trans hnot) (by decide)
    · rw [if_neg hq] at he
      exact (if_neg fun hat => hq hat.1).trans (hl.readOnly q e j he hnot)
  answered := fun r hr => (hl.answered r hr).taWrites p i v

theorem Kept.taWrites {s : Session} (hk : Kept s h) (p : Place) (i : Nat) (v : UInt8) :
    Kept s (h.record (some l) (.taWrites p i v)) :=
  fun q j b hb hta => hk q j b hb (taWrites_none hta).2

/-! ### Mapping -/

theorem map_sva_mapped {bufs : List (UInt32 × List UInt8)} {svas : List Nat}
    (hlength : svas.length = bufs.length) :
    (Link.mapped bufs svas).map Buffer.sva = svas := by
  unfold Link.mapped
  rw [List.map_map]
  exact List.map_snd_zip (Nat.le_of_eq hlength)

theorem shape_copies (bufs : List (UInt32 × List UInt8)) (svas : List Nat) :
    (Link.copies bufs svas).map Buffer.shape = (Link.mapped bufs svas).map Buffer.shape := by
  unfold Link.copies
  rw [List.map_map]
  exact List.map_congr_left fun b _ => by simp [Buffer.shape]

theorem entry_append (s : Session) (more : List Buffer) (p : Place) :
    Session.entry { s with buffers := s.buffers ++ more } p =
      (s.entry p).or (Session.entry ⟨none, more⟩ p) := by
  cases p with
  | tci => simp [Session.entry]
  | buffer sva => simp [Session.entry, KeyedList.get_append, Option.map_or]

/-- A place that is added is not one that was there. -/
theorem entry_eq_none_of_fresh {s : Session} {more : List Buffer}
    (hfresh : (s.buffers.map Buffer.sva ++ more.map Buffer.sva).Nodup) {p : Place}
    (hp : (Session.entry ⟨none, more⟩ p).isSome = true) : s.entry p = none := by
  cases p with
  | tci => cases hp
  | buffer sva =>
    cases hget : KeyedList.get Buffer.sva sva s.buffers with
    | none => simp [Session.entry, hget]
    | some b =>
      exfalso
      obtain ⟨hb, hsva⟩ := KeyedList.mem_of_get hget
      simp only [Session.entry, Option.isSome_map] at hp
      obtain ⟨b', hb'⟩ := Option.isSome_iff_exists.mp hp
      obtain ⟨hb', hsva'⟩ := KeyedList.mem_of_get hb'
      exact (List.nodup_append.mp hfresh).2.2 sva (List.mem_map.mpr ⟨b, hb, hsva⟩) sva
        (List.mem_map.mpr ⟨b', hb', hsva'⟩) rfl

section Mapped

variable {bufs : List (UInt32 × List UInt8)} {svas : List Nat}

/-- What is recorded of a place that a map does not add. -/
theorem ta_map {s : Option Link} {a : Answer} {p : Place} {i : Nat} {v : UInt8}
    (hta : (h.record s (.map bufs svas a)).ta p i = some v) :
    Session.entry ⟨none, Link.mapped bufs svas⟩ p = none ∧ h.ta p i = some v := by
  by_cases hp : (Session.entry ⟨none, Link.mapped bufs svas⟩ p).isSome = true
  · have hnone : (h.record s (.map bufs svas a)).ta p i = none := if_pos hp
    rw [hnone] at hta
    cases hta
  · exact ⟨by simpa using hp, (if_neg hp).symm.trans hta⟩

theorem entry_copies_none {p : Place}
    (hp : Session.entry ⟨none, Link.mapped bufs svas⟩ p = none) :
    Session.entry ⟨none, Link.copies bufs svas⟩ p = none := by
  have hshape : Session.shape ⟨none, Link.copies bufs svas⟩ =
      Session.shape ⟨none, Link.mapped bufs svas⟩ := Prod.ext rfl (shape_copies bufs svas)
  have hsize := entry_shape hshape p
  rw [hp] at hsize
  exact Option.map_eq_none_iff.mp hsize

theorem map_sva_copies (hlength : svas.length = bufs.length) :
    (Link.copies bufs svas).map Buffer.sva = svas := by
  rw [map_sva, shape_copies, ← map_sva]
  exact map_sva_mapped hlength

theorem Linked.map (hl : Linked l h) (hmaps : l.Maps bufs svas) (hidle : l.stage = .idle)
    {a : Answer} (ht : l.map bufs svas a = some l') :
    Linked l' (h.record (some l) (.map bufs svas a)) := by
  obtain ⟨-, -, hlength, hnodup⟩ := hmaps
  have hsame : ∀ p, Session.entry ⟨none, Link.mapped bufs svas⟩ p = none →
      Session.entry { l.server with buffers := l.server.buffers ++ Link.copies bufs svas } p =
        l.server.entry p := by
    intro p hp
    rw [entry_append, entry_copies_none hp, Option.or_none]
  have hold : Linked l (h.record (some l) (.map bufs svas a)) := by
    refine ⟨hl.shape, hl.nodup, fun p i b v hb hv => hl.written p i b v hb (ta_map hv).2,
      fun p e i he hnot => ?_, fun r hr => absurd (hidle.symm.trans hr) nofun⟩
    cases hta : (h.record (some l) (.map bufs svas a)).ta p i with
    | none => rfl
    | some v =>
      have hnone := hl.readOnly p e i he hnot
      rw [(ta_map hta).2] at hnone
      cases hnone
  unfold Link.map at ht
  obtain ⟨-, ht⟩ | ⟨-, ht⟩ := ite_eq_iff.mp ht
  · cases ht
    exact hold
  obtain ⟨-, ht⟩ := Option.ite_none_left_eq_some.mp ht
  obtain ⟨-, ht⟩ | ⟨-, rfl⟩ := ends_cases ht
  · obtain rfl := Option.some.inj ht
    obtain ⟨htci, hbuffers⟩ := Prod.mk.inj hl.shape
    refine ⟨Prod.ext htci ?_, ?_, fun p i b v hb hv => ?_, fun p e i he hnot => ?_,
      fun r hr => absurd (hidle.symm.trans hr) nofun⟩
    · show (l.client.buffers ++ _).map Buffer.shape = (l.server.buffers ++ _).map Buffer.shape
      rw [List.map_append, List.map_append, hbuffers, shape_copies]
    · show ((l.server.buffers ++ _).map Buffer.sva).Nodup
      rw [List.map_append, map_sva_copies hlength]
      exact hnodup
    · rw [Session.byte, hsame p (ta_map hv).1] at hb
      exact hl.written p i b v hb (ta_map hv).2
    · cases hta : (h.record (some l) (.map bufs svas a)).ta p i with
      | none => rfl
      | some v =>
        rw [hsame p (ta_map hta).1] at he
        have hnone := hl.readOnly p e i he hnot
        rw [(ta_map hta).2] at hnone
        cases hnone
  · exact hold

theorem Kept.map (hl : Linked l h) (hk : Kept l.client h) (hmaps : l.Maps bufs svas) {a : Answer}
    (ht : l.map bufs svas a = some l') :
    Kept l'.client (h.record (some l) (.map bufs svas a)) := by
  obtain ⟨-, -, hlength, hnodup⟩ := hmaps
  have hfresh : (l.client.buffers.map Buffer.sva ++
      (Link.mapped bufs svas).map Buffer.sva).Nodup := by
    rw [map_sva_mapped hlength, map_sva, (Prod.mk.inj hl.shape).2, ← map_sva]
    exact hnodup
  -- places that were there keep their record
  have hold : ∀ p i b, l.client.byte p i = some b →
      (h.record (some l) (.map bufs svas a)).ta p i = none →
        b = (h.record (some l) (.map bufs svas a)).own p i := by
    intro p i b hb hta
    have hnone : Session.entry ⟨none, Link.mapped bufs svas⟩ p = none := by
      by_contra hne
      have hentry := entry_eq_none_of_fresh hfresh (Option.isSome_iff_ne_none.mpr hne)
      rw [Session.byte, hentry] at hb
      cases hb
    have hbefore : h.ta p i = none := by
      have hsame : (h.record (some l) (.map bufs svas a)).ta p i = h.ta p i :=
        if_neg (by simp [hnone])
      rw [← hsame]
      exact hta
    rw [hk p i b hb hbefore]
    show h.own p i = (Session.byte ⟨none, Link.mapped bufs svas⟩ p i).getD (h.own p i)
    rw [Session.byte, hnone]
    rfl
  unfold Link.map at ht
  obtain ⟨-, ht⟩ | ⟨-, ht⟩ := ite_eq_iff.mp ht
  · cases ht
    exact hold
  obtain ⟨-, ht⟩ := Option.ite_none_left_eq_some.mp ht
  obtain ⟨-, ht⟩ | ⟨-, rfl⟩ := ends_cases ht
  · obtain rfl := Option.some.inj ht
    intro p i b hb hta
    rw [Session.byte, entry_append] at hb
    cases hclient : l.client.entry p with
    | some e =>
      rw [hclient, Option.some_or] at hb
      exact hold p i b (by rw [Session.byte, hclient]; exact hb) hta
    | none =>
      rw [hclient, Option.none_or] at hb
      show b = (Session.byte ⟨none, Link.mapped bufs svas⟩ p i).getD (h.own p i)
      rw [Session.byte, hb]
      rfl
  · exact hold

end Mapped

/-! ### The other calls -/

theorem shape_remove {s c : Session} (h : s.shape = c.shape) (svas : List Nat) :
    (Link.remove svas s).shape = (Link.remove svas c).shape := by
  obtain ⟨htci, hbuffers⟩ := Prod.mk.inj h
  have hfilter : ∀ l : List Buffer, (l.filter fun b => b.sva ∉ svas).map Buffer.shape =
      (l.map Buffer.shape).filter fun x => x.1 ∉ svas := by
    intro l
    rw [List.filter_map]
    rfl
  refine Prod.ext htci ?_
  show (List.filter _ _).map Buffer.shape = (List.filter _ _).map Buffer.shape
  rw [hfilter, hfilter, hbuffers]

theorem entry_remove {s : Session} (h : (s.buffers.map Buffer.sva).Nodup) {svas : List Nat}
    {p : Place} {e : UInt32 × List UInt8} (he : (Link.remove svas s).entry p = some e) :
    s.entry p = some e := by
  cases p with
  | tci => exact he
  | buffer sva =>
    simp only [Session.entry, Link.remove, KeyedList.get_filter h] at he ⊢
    obtain ⟨b, hb, rfl⟩ := Option.map_eq_some_iff.mp he
    rw [(Option.filter_eq_some_iff.mp hb).1]
    rfl

theorem byte_remove {s : Session} (h : (s.buffers.map Buffer.sva).Nodup) {svas : List Nat}
    {p : Place} {i : Nat} {b : UInt8} (hb : (Link.remove svas s).byte p i = some b) :
    s.byte p i = some b := by
  obtain ⟨e, he, hbyte⟩ := entry_of_byte hb
  rw [byte_of_entry (entry_remove h he)]
  exact hbyte

theorem unmap_cases {svas : List Nat} {a : Answer} (ht : l.unmap svas a = some l') :
    l' = l ∨ l' = { l with client := Link.remove svas l.client
                           server := Link.remove svas l.server } := by
  unfold Link.unmap at ht
  obtain ⟨-, ht⟩ | ⟨-, ht⟩ := ite_eq_iff.mp ht
  · exact .inl (Option.some.inj ht).symm
  obtain ⟨-, ht⟩ := Option.ite_none_left_eq_some.mp ht
  obtain ⟨-, ht⟩ | ⟨-, ht⟩ := ite_eq_iff.mp ht
  · rcases ends_cases ht with ⟨-, ht⟩ | ⟨-, rfl⟩
    · exact .inl (Option.some.inj ht).symm
    · exact .inl rfl
  · rcases ends_cases ht with ⟨-, ht⟩ | ⟨-, rfl⟩
    · exact .inr (Option.some.inj ht).symm
    · exact .inl rfl

theorem Linked.unmap (hl : Linked l h) (hidle : l.stage = .idle) {svas : List Nat} {a : Answer}
    (ht : l.unmap svas a = some l') : Linked l' h := by
  obtain rfl | rfl := unmap_cases ht
  · exact hl
  · exact ⟨shape_remove hl.shape svas, hl.nodup.sublist (List.Sublist.map _ List.filter_sublist),
      fun p i b v hb hv => hl.written p i b v (byte_remove hl.nodup hb) hv,
      fun p e i he hnot => hl.readOnly p e i (entry_remove hl.nodup he) hnot,
      fun r hr => absurd (hidle.symm.trans hr) nofun⟩

theorem Kept.unmap (hl : Linked l h) (hk : Kept l.client h) {svas : List Nat} {a : Answer}
    (ht : l.unmap svas a = some l') : Kept l'.client h := by
  obtain rfl | rfl := unmap_cases ht
  · exact hk
  · intro p i b hb hta
    exact hk p i b (byte_remove (nodup_of_shape hl.shape.symm hl.nodup) hb) hta

/-- The request of a notify fits the server. -/
theorem Linked.request_fits (hl : Linked l h) : Fits (l.client.message isInput) l.server :=
  (fits_message (nodup_of_shape hl.shape.symm hl.nodup) isInput).congr hl.shape

theorem Linked.notified (hl : Linked l h) :
    (serverNotify l.server (l.client.message isInput)).1 = true ∧
      Takes (l.client.message isInput) l.server
        (serverNotify l.server (l.client.message isInput)).2 := by
  apply serverNotify_spec hl.request_fits
  have hcount := congrArg List.length (Prod.mk.inj hl.shape).2
  rw [List.length_map, List.length_map] at hcount
  rw [← hcount]
  simp only [Session.message, List.length_map]
  exact List.length_filter_le _ _

theorem notify_cases (hl : Linked l h) {a : Answer} (ht : l.notify a = some l') :
    l' = { l with server := (serverNotify l.server (l.client.message isInput)).2 } := by
  unfold Link.notify at ht
  dsimp only at ht
  rw [if_pos hl.notified.1] at ht
  rcases ends_cases ht with ⟨-, ht⟩ | ⟨-, rfl⟩
  · exact (Option.some.inj ht).symm
  · rfl

theorem Linked.notify (hl : Linked l h) (hidle : l.stage = .idle) {a : Answer}
    (ht : l.notify a = some l') : Linked l' (h.record (some l) (.notify a)) := by
  have hshape := hl.notified.2.1
  obtain rfl := notify_cases hl ht
  exact ⟨hl.shape.trans hshape.symm, nodup_of_shape hshape.symm hl.nodup, nofun,
    fun _ _ _ _ _ => rfl, fun r hr => absurd (hidle.symm.trans hr) nofun⟩

theorem Kept.notify (hl : Linked l h) {a : Answer} (ht : l.notify a = some l') :
    Kept l'.client (h.record (some l) (.notify a)) := by
  obtain rfl := notify_cases hl ht
  intro p i b hb _
  show b = (l.client.byte p i).getD (h.own p i)
  rw [show l.client.byte p i = some b from hb]
  rfl

/-- An exchange of a wait leaves the memory alone. -/
theorem exchange_cases {timeout left : Int} {a : Answer}
    (ht : l.exchange timeout left a = some l') :
    l'.client = l.client ∧ l'.server = l.server ∧
      (l'.stage = .answered (l.server.message isOutput) ∨
        ∃ left', l'.stage = .waiting timeout left') := by
  unfold Link.exchange at ht
  cases a with
  | done =>
    obtain rfl := Option.some.inj ht
    exact ⟨rfl, rfl, .inl rfl⟩
  | refused etime =>
    obtain ⟨-, ht⟩ | ⟨-, ht⟩ := ite_eq_iff.mp ht
    · obtain rfl := Option.some.inj ht
      exact ⟨rfl, rfl, .inr ⟨_, rfl⟩⟩
    · obtain ⟨l₁, hends, rfl⟩ := Option.map_eq_some_iff.mp ht
      obtain ⟨-, heq⟩ | ⟨-, rfl⟩ := ends_cases hends
      · obtain rfl := Option.some.inj heq
        exact ⟨rfl, rfl, .inl rfl⟩
      · exact ⟨rfl, rfl, .inl rfl⟩
  | broken etime =>
    obtain ⟨-, ht⟩ := Option.ite_none_right_eq_some.mp ht
    obtain rfl := Option.some.inj ht
    exact ⟨rfl, rfl, .inr ⟨_, rfl⟩⟩

/-- What the server answers is in flight. -/
theorem Linked.inFlight (hl : Linked l h) : InFlight (l.server.message isOutput) l.server h := by
  refine ⟨fits_message hl.nodup isOutput, fun p e he => ?_⟩
  rw [data_message hl.nodup (by decide), he]
  cases hout : isOutput e.1 with
  | false => exact .inl ⟨rfl, by simp [Option.filter, hout]⟩
  | true => exact .inr ⟨rfl, e.2, by simp [Option.filter, hout], rfl, fun _ _ => rfl⟩

theorem Linked.exchange (hl : Linked l h) {timeout left : Int} {a : Answer}
    (ht : l.exchange timeout left a = some l') : Linked l' h := by
  obtain ⟨hclient, hserver, hstage⟩ := exchange_cases ht
  refine ⟨?_, ?_, ?_, ?_, fun r hr => ?_⟩
  · rw [hclient, hserver]
    exact hl.shape
  · rw [hserver]
    exact hl.nodup
  · rw [hserver]
    exact hl.written
  · rw [hserver]
    exact hl.readOnly
  · rw [hr] at hstage
    obtain heq | ⟨left', heq⟩ := hstage
    · obtain rfl := Stage.answered.inj heq
      rw [hserver]
      exact hl.inFlight
    · cases heq

/-! ### The update of a wait -/

section Update

variable {r : Message}

theorem Linked.updated (hl : Linked l h) (hr : l.stage = .answered r) :
    Takes r l.client (clientUpdate l.client r).2 :=
  (clientUpdate_spec ((hl.answered r hr).fits.congr hl.shape.symm)).2

theorem Linked.update (hl : Linked l h) (hr : l.stage = .answered r) :
    Linked { l with client := (clientUpdate l.client r).2, stage := .idle } h :=
  ⟨(hl.updated hr).1.trans hl.shape, hl.nodup, hl.written, hl.readOnly, nofun⟩

/-- A byte of the client behind the update, with the byte of the server: it came with the response,
or it was left alone, and the TA does not write there. -/
theorem Linked.byte_updated (hl : Linked l h) (hr : l.stage = .answered r) {p : Place} {i : Nat}
    {b : UInt8} (hb : (clientUpdate l.client r).2.byte p i = some b) :
    ∃ e c, l.server.entry p = some e ∧ e.2[i]? = some c ∧
      ((r.data p = none ∧ h.ta p i = none ∧ l.client.byte p i = some b) ∨
        ∃ d, r.data p = some d ∧ d[i]? = some b ∧ (h.ta p i = none → b = c)) := by
  obtain ⟨f, hf, hbyte⟩ := entry_of_byte hb
  rw [(hl.updated hr).2 p] at hf
  obtain ⟨e, he, rfl⟩ := Option.map_eq_some_iff.mp hf
  obtain ⟨d', hserver, hlength⟩ := entry_of_shape hl.shape he
  have hlt := (List.getElem?_eq_some_iff.mp hbyte).1
  rcases (hl.answered r hr).data p _ hserver with ⟨hnot, hnone⟩ | ⟨-, d, hd, hdlength, hsame⟩
  · have hclient : e.2[i]? = some b := by simpa [hnone] using hbyte
    have hi : i < d'.length := by
      rw [hlength]
      exact (List.getElem?_eq_some_iff.mp hclient).1
    exact ⟨_, d'[i], hserver, List.getElem?_eq_getElem hi, .inl ⟨hnone,
      hl.readOnly p _ i hserver hnot, (byte_of_entry he i).trans hclient⟩⟩
  · have hdb : d[i]? = some b := by simpa [hd] using hbyte
    have hi : i < d'.length := by
      rw [← hdlength]
      exact (List.getElem?_eq_some_iff.mp hdb).1
    refine ⟨_, d'[i], hserver, List.getElem?_eq_getElem hi, .inr ⟨d, hd, hdb, fun hta => ?_⟩⟩
    have heq := (hsame i hta).symm.trans hdb
    rw [List.getElem?_eq_getElem hi] at heq
    exact (Option.some.inj heq).symm

theorem Linked.byte_brought (hl : Linked l h) (hr : l.stage = .answered r) {p : Place}
    {d : List UInt8} {e : UInt32 × List UInt8} (hd : r.data p = some d)
    (he : l.server.entry p = some e) (i : Nat) :
    (clientUpdate l.client r).2.byte p i = d[i]? := by
  obtain ⟨f, hf, -⟩ := entry_of_shape hl.shape.symm he
  have hentry := (hl.updated hr).2 p
  rw [hf, Option.map_some, hd, Option.getD_some] at hentry
  exact byte_of_entry hentry i

/-- Places of one size have a byte at the same positions. -/
theorem byte_isSome {s c : Session} (hshape : s.shape = c.shape) {p : Place} {i : Nat} {b : UInt8}
    (hb : s.byte p i = some b) : ∃ b', c.byte p i = some b' := by
  obtain ⟨e, he, hbyte⟩ := entry_of_byte hb
  obtain ⟨d, hd, hlength⟩ := entry_of_shape hshape he
  have hi : i < d.length := by
    rw [hlength]
    exact (List.getElem?_eq_some_iff.mp hbyte).1
  exact ⟨d[i], (byte_of_entry hd i).trans (List.getElem?_eq_getElem hi)⟩

/-- **The update behind a wait.** It brings back the right bytes exactly when they are those that
the server has now, and these are the client's own wherever the TA has not written. -/
theorem Linked.update_iff (hl : Linked l h) (hk : Kept l.client h) (hr : l.stage = .answered r) :
    (Right (clientUpdate l.client r).2 h ∧
      ∀ p i, h.ta p i = none → (clientUpdate l.client r).2.byte p i = l.client.byte p i) ↔
    ∀ p d e, r.data p = some d → l.server.entry p = some e →
      d = e.2 ∧ ∀ i b, e.2[i]? = some b → h.ta p i = none → b = h.own p i := by
  constructor
  · rintro ⟨hright, -⟩ p d e hd he
    obtain ⟨-, hnone⟩ | ⟨-, d', hd', hlength, hsame⟩ := (hl.answered r hr).data p e he
    · rw [hd] at hnone
      cases hnone
    obtain rfl := Option.some.inj (hd.symm.trans hd')
    have hde : d = e.2 := by
      apply List.ext_getElem?
      intro i
      cases hta : h.ta p i with
      | none => exact hsame i hta
      | some v =>
        -- both are what the TA has written
        have hclient : ∀ b, d[i]? = some b → b = v := by
          intro b hb
          have hbyte := hright p i b ((hl.byte_brought hr hd he i).trans hb)
          rw [hta] at hbyte
          exact hbyte
        have hserver : ∀ b, e.2[i]? = some b → b = v :=
          fun b hb => hl.written p i b v ((byte_of_entry he i).trans hb) hta
        by_cases hi : i < d.length
        · have hie : i < e.2.length := hlength ▸ hi
          rw [List.getElem?_eq_getElem hi, List.getElem?_eq_getElem hie,
            hclient _ (List.getElem?_eq_getElem hi), hserver _ (List.getElem?_eq_getElem hie)]
        · rw [List.getElem?_eq_none (Nat.le_of_not_lt hi),
            List.getElem?_eq_none (hlength ▸ Nat.le_of_not_lt hi)]
    refine ⟨hde, fun i b hb hta => ?_⟩
    have hbyte := hright p i b ((hl.byte_brought hr hd he i).trans (hde ▸ hb))
    rw [hta] at hbyte
    exact hbyte
  · intro hfresh
    have hown : ∀ p i b, (clientUpdate l.client r).2.byte p i = some b → h.ta p i = none →
        b = h.own p i := by
      intro p i b hb hta
      obtain ⟨e, c, he, hc, ⟨-, -, hclient⟩ | ⟨d, hd, hdb, hsame⟩⟩ := hl.byte_updated hr hb
      · exact hk p i b hclient hta
      · rw [hsame hta]
        exact (hfresh p d e hd he).2 i c hc hta
    refine ⟨fun p i b hb => ?_, fun p i hta => ?_⟩
    · cases hta : h.ta p i with
      | none => exact hown p i b hb hta
      | some v =>
        obtain ⟨e, c, he, hc, ⟨-, hnone, -⟩ | ⟨d, hd, hdb, -⟩⟩ := hl.byte_updated hr hb
        · rw [hta] at hnone
          cases hnone
        · rw [(hfresh p d e hd he).1, ← byte_of_entry he i] at hdb
          exact hl.written p i b v hdb hta
    · have hshape := (hl.updated hr).1
      cases hb : (clientUpdate l.client r).2.byte p i with
      | none =>
        cases hclient : l.client.byte p i with
        | none => rfl
        | some b =>
          obtain ⟨b', hb'⟩ := byte_isSome hshape.symm hclient
          rw [hb] at hb'
          cases hb'
      | some b =>
        obtain ⟨b', hclient⟩ := byte_isSome hshape hb
        rw [hclient, hown p i b hb hta, hk p i b' hclient hta]

end Update

end Invariants

/-! ## Runs -/

/-- The invariants of a session that is open. -/
def LinkedRun (x : Option Link × Writes) : Prop := ∀ l, x.1 = some l → Linked l x.2

def KeptRun (x : Option Link × Writes) : Prop := ∀ l, x.1 = some l → Kept l.client x.2

theorem openSession_cases {tci : Option (List UInt8)} {a : Answer} {l : Link}
    (ht : Link.openSession tci a = some l) : l = ⟨⟨tci, []⟩, ⟨tci, []⟩, false, .idle⟩ := by
  unfold Link.openSession at ht
  obtain ⟨-, ht⟩ := Option.ite_none_left_eq_some.mp ht
  exact (Option.some.inj (Option.ite_none_right_eq_some.mp ht).2).symm

section Steps

variable {l l' : Link} {h : Writes} {a : Action}

theorem Linked.step (hl : Linked l h) (ht : l.step a = some (some l')) :
    Linked l' (h.record (some l) a) := by
  cases a with
  | openSession tci a => cases ht
  | write p i v =>
    obtain ⟨-, ht⟩ := Option.ite_none_right_eq_some.mp ht
    obtain rfl := Option.some.inj (Option.some.inj ht)
    exact hl.write p i v
  | taWrites p i v =>
    obtain ⟨hallowed, ht⟩ := Option.ite_none_right_eq_some.mp ht
    obtain rfl := Option.some.inj (Option.some.inj ht)
    exact hl.taWrites i v hallowed.2
  | exchange a =>
    unfold Link.step at ht
    dsimp only at ht
    -- an exchange belongs to a wait that is under way
    cases hs : l.stage with
    | idle | answered r => rw [hs] at ht; cases ht
    | waiting timeout left =>
      rw [hs] at ht
      exact hl.exchange (Option.some.inj ht)
  | update =>
    unfold Link.step at ht
    dsimp only at ht
    cases hs : l.stage with
    | idle | waiting timeout left => rw [hs] at ht; cases ht
    | answered r =>
      rw [hs] at ht
      obtain rfl := Option.some.inj (Option.some.inj ht)
      exact hl.update hs
  | closeSession a =>
    obtain ⟨-, ht⟩ := Option.ite_none_right_eq_some.mp ht
    obtain ⟨-, ht⟩ | ⟨-, rfl⟩ := ends_cases (Option.some.inj ht)
    · cases ht
    · exact hl
  | map bufs svas a =>
    obtain ⟨hguard, ht⟩ := Option.ite_none_right_eq_some.mp ht
    exact hl.map hguard.2 hguard.1 (Option.some.inj ht)
  | unmap svas a =>
    obtain ⟨hguard, ht⟩ := Option.ite_none_right_eq_some.mp ht
    exact hl.unmap hguard.1 (Option.some.inj ht)
  | notify a =>
    obtain ⟨hidle, ht⟩ := Option.ite_none_right_eq_some.mp ht
    exact hl.notify hidle (Option.some.inj ht)
  | wait timeout =>
    obtain ⟨-, ht⟩ := Option.ite_none_right_eq_some.mp ht
    obtain rfl := Option.some.inj (Option.some.inj ht)
    exact ⟨hl.shape, hl.nodup, hl.written, hl.readOnly, nofun⟩

theorem Kept.step (hl : Linked l h) (hk : Kept l.client h)
    (hright : a = .update → Kept l'.client h) (ht : l.step a = some (some l')) :
    Kept l'.client (h.record (some l) a) := by
  cases a with
  | openSession tci a => cases ht
  | write p i v =>
    obtain ⟨-, ht⟩ := Option.ite_none_right_eq_some.mp ht
    obtain rfl := Option.some.inj (Option.some.inj ht)
    exact hk.write p i v
  | taWrites p i v =>
    obtain ⟨-, ht⟩ := Option.ite_none_right_eq_some.mp ht
    obtain rfl := Option.some.inj (Option.some.inj ht)
    exact hk.taWrites p i v
  | exchange a =>
    unfold Link.step at ht
    dsimp only at ht
    cases hs : l.stage with
    | idle | answered r => rw [hs] at ht; cases ht
    | waiting timeout left =>
      rw [hs] at ht
      rw [(exchange_cases (Option.some.inj ht)).1]
      exact hk
  | update => exact hright rfl
  | closeSession a =>
    obtain ⟨-, ht⟩ := Option.ite_none_right_eq_some.mp ht
    obtain ⟨-, ht⟩ | ⟨-, rfl⟩ := ends_cases (Option.some.inj ht)
    · cases ht
    · exact hk
  | map bufs svas a =>
    obtain ⟨hguard, ht⟩ := Option.ite_none_right_eq_some.mp ht
    exact hk.map hl hguard.2 (Option.some.inj ht)
  | unmap svas a =>
    obtain ⟨-, ht⟩ := Option.ite_none_right_eq_some.mp ht
    exact hk.unmap hl (Option.some.inj ht)
  | notify a =>
    obtain ⟨-, ht⟩ := Option.ite_none_right_eq_some.mp ht
    exact Kept.notify hl (Option.some.inj ht)
  | wait timeout =>
    obtain ⟨-, ht⟩ := Option.ite_none_right_eq_some.mp ht
    obtain rfl := Option.some.inj (Option.some.inj ht)
    exact hk

end Steps

section Runs

variable {x y : Option Link × Writes} {a : Action}

theorem linkedRun_step (hx : LinkedRun x) (ht : memoryRuns.step x a = some y) : LinkedRun y := by
  obtain ⟨s, h⟩ := x
  obtain ⟨t, k⟩ := y
  obtain ⟨hstep, rfl⟩ := memoryMachine.withHistory_step _ _ ht
  rintro l' (rfl : t = some l')
  cases s with
  | none =>
    cases a with
    | openSession tci a =>
      obtain rfl := openSession_cases (Option.some.inj hstep)
      exact ⟨rfl, List.nodup_nil, nofun, fun _ _ _ _ _ => rfl, nofun⟩
    | _ => cases hstep
  | some l => exact (hx l rfl).step hstep

theorem keptRun_step (hx : LinkedRun x) (hk : KeptRun x) (hb : BringsBack x a)
    (ht : memoryRuns.step x a = some y) : KeptRun y := by
  obtain ⟨s, h⟩ := x
  obtain ⟨t, k⟩ := y
  obtain ⟨hstep, rfl⟩ := memoryMachine.withHistory_step _ _ ht
  rintro l' (rfl : t = some l')
  cases s with
  | none =>
    cases a with
    | openSession tci a =>
      obtain rfl := openSession_cases (Option.some.inj hstep)
      intro p i b hb _
      show b = (Session.byte ⟨tci, []⟩ p i).getD (h.own p i)
      rw [show Session.byte ⟨tci, []⟩ p i = some b from hb]
      rfl
    | _ => cases hstep
  | some l =>
    exact (hk l rfl).step (hx l rfl) (fun ha => ((hb l rfl).1 l' ha hstep).1.kept) hstep

theorem sees_of_linked (hx : LinkedRun x) : Sees x a := by
  obtain ⟨s, h⟩ := x
  rintro l t (rfl : s = some l) rfl ht
  have hl := hx l rfl
  obtain ⟨-, ht⟩ := Option.ite_none_right_eq_some.mp ht
  have hnotify : l.notify .done = some
      { l with server := (serverNotify l.server (l.client.message isInput)).2 } := by
    unfold Link.notify
    dsimp only
    rw [if_pos hl.notified.1]
    rfl
  refine ⟨_, (Option.some.inj ht).symm.trans hnotify, fun p e he hin => ?_⟩
  rw [show Session.entry _ p = _ from hl.notified.2.2 p] at he
  obtain ⟨f, hf, rfl⟩ := Option.map_eq_some_iff.mp he
  obtain ⟨d, hd, -⟩ := entry_of_shape hl.shape.symm hf
  rw [data_message (nodup_of_shape hl.shape.symm hl.nodup) (by decide), hd]
  simp only [Option.filter, hin]
  rfl

theorem bringsBack_iff_upToDate (hx : LinkedRun x) (hk : KeptRun x) :
    BringsBack x a ↔ UpToDate x a := by
  obtain ⟨s, h⟩ := x
  refine forall₂_congr fun l (hs : s = some l) => and_congr ?_ ?_
  · subst hs
    constructor
    · rintro hb r rfl hr
      apply ((hx l rfl).update_iff (hk l rfl) hr).mp
      apply hb { l with client := (clientUpdate l.client r).2, stage := .idle } rfl
      show l.step .update = _
      simp only [Link.step, hr]
    · rintro hu l' rfl ht
      unfold memoryMachine at ht
      cases hr : l.stage with
      | idle | waiting timeout left => simp [Link.step, hr] at ht
      | answered r =>
        simp only [Link.step, hr, Option.some.injEq] at ht
        subst ht
        exact ((hx l rfl).update_iff (hk l rfl) hr).mpr (hu r rfl hr)
  · refine forall₃_congr fun answer _ _ => ?_
    constructor
    · intro hright p i b v hb hta
      have hbyte := hright p i b hb
      rw [hta] at hbyte
      exact hbyte
    · intro hu p i b hb
      cases hta : h.ta p i with
      | none => exact hk l hs p i b hb hta
      | some v => exact hu p i b v hb hta

/-- **Shared memory through the proxy.** In every run the TA sees at each notification what the
client has; and every wait leaves the client with the bytes that it should have, in exactly those
runs in which what the waits bring back is up to date. -/
theorem shared_iff_upToDate (as : List Action) :
    memoryRuns.RunMeets Sees (none, Writes.unshared) as ∧
      (memoryRuns.RunMeets BringsBack (none, Writes.unshared) as ↔
        memoryRuns.RunMeets UpToDate (none, Writes.unshared) as) := by
  have hlinked : LinkedRun (none, Writes.unshared) := nofun
  have hkept : KeptRun (none, Writes.unshared) := nofun
  refine ⟨?_, ?_, ?_⟩
  · exact memoryRuns.runMeets_of_inv (fun x a y hx _ ht => linkedRun_step hx ht)
      (fun x a hx _ => sees_of_linked hx) hlinked (memoryRuns.runMeets_true _ as)
  · exact memoryRuns.runMeets_of_inv (I := fun x => LinkedRun x ∧ KeptRun x)
      (fun x a y hx hb ht => ⟨linkedRun_step hx.1 ht, keptRun_step hx.1 hx.2 hb ht⟩)
      (fun x a hx hb => (bringsBack_iff_upToDate hx.1 hx.2).mp hb) ⟨hlinked, hkept⟩
  · exact memoryRuns.runMeets_of_inv (I := fun x => LinkedRun x ∧ KeptRun x)
      (fun x a y hx hu ht => ⟨linkedRun_step hx.1 ht,
        keptRun_step hx.1 hx.2 ((bringsBack_iff_upToDate hx.1 hx.2).mpr hu) ht⟩)
      (fun x a hx hu => (bringsBack_iff_upToDate hx.1 hx.2).mpr hu) ⟨hlinked, hkept⟩

end Runs

/-- The client writes to the TCI behind a notify, and waits. -/
def writesBehind : List Action :=
  [.openSession (some [1]) .done, .notify .done, .write .tci 0 2, .wait 0,
    .exchange (.refused true), .update]

/-- The wait times out, and brings back the byte of the notify all the same. -/
theorem not_shared_writesBehind :
    ¬ memoryRuns.RunMeets BringsBack (none, Writes.unshared) writesBehind := by
  intro h
  have hupdate := h.2.2.2.2.2.1 _ rfl
  have hright := (hupdate.1 _ rfl rfl).1 .tci 0 1 rfl
  exact absurd hright (by decide)

end McDaemon.Proxy.Memory
