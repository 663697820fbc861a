/-
# McDaemon.Proxy.RoundTrips — what the proxy writes into a message is what the other side reads.

Each table is lawful, and so the general facts about tables hold of every request and every
response.  A message comes back from its bytes, and so does whatever is accepted.  Two messages in
a row are one, and the shortcuts that the generated readers take change nothing.
-/
import McDaemon.Proxy.Messages

namespace McDaemon.Proxy.Messages

open McDaemon.Lib

variable {R : Runtime}

/-! ## The tables are lawful -/

/-- A class without messages inside. -/
def Flat {M : Type} (_ : M) : Prop := True

section

variable {M S α : Type} {c : MessageClass M} {Inner : M → Prop} {number wireType tag : UInt32}
  {required : Bool}

/-- A field of a table: what is asked of it is seen by looking. -/
theorem field_lawful (hR : R.Documented) {codec : Codec α} (hcodec : codec.Lawful)
    {get : M → Option α} {set : α → M → M}
    (hc : c.KeepsUnknown Inner) (htag : makeTag number wireType = tag)
    (hsmall : decide (tag < 128) = true) (hunknown : ∀ a m, c.unknown (set a m) = c.unknown m)
    (hinner : ∀ a m, Inner m → Inner (set a m)) :
    (WireField.single R.toWireRuntime number wireType tag required codec get set).Lawful
      R.toWireRuntime c Inner :=
  .single hR.streams (MessageClass.unknown_nil hc.setUnknown_unknown) hcodec htag
    (of_decide_eq_true hsmall) hunknown hinner

/-- The messages inside a message could have been read. -/
def Inside (sub : MessageClass S) (R : Runtime) (l : List S) : Prop :=
  ∀ s ∈ l, sub.Genuine R.toWireRuntime Flat s

theorem Inside.append {sub : MessageClass S} {l : List S} (h : Inside sub R l) {s : S}
    (hs : sub.Genuine R.toWireRuntime Flat s) : Inside sub R (l ++ [s]) := by
  intro t ht
  rcases List.mem_append.mp ht with ht | ht
  · exact h t ht
  · rw [List.mem_singleton.mp ht]
    exact hs

theorem buffers_lawful (hR : R.Documented) {sub : MessageClass S}
    (hsub : sub.Lawful R.toWireRuntime Flat) {get : M → List S} {append : List S → M → M}
    (hnil : ∀ m, append [] m = m) (hcons : ∀ s l m, append (s :: l) m = append l (append [s] m))
    (hc : c.KeepsUnknown fun m => Inside sub R (get m)) (htag : makeTag number delimitedType = tag)
    (hsmall : decide (tag < 128) = true)
    (hunknown : ∀ s m, c.unknown (append [s] m) = c.unknown m)
    (hget : ∀ l m, get (append l m) = get m ++ l) :
    (buffersField R number tag sub get append).Lawful R.toWireRuntime c
      fun m => Inside sub R (get m) :=
  .messages hR.streams (MessageClass.unknown_nil hc.setUnknown_unknown) hsub htag
    (of_decide_eq_true hsmall) hnil hcons hunknown (fun _ h => h) fun s m h hs => by
      rw [hget]
      exact h.append hs

end

theorem Empty.keeps : Empty.cls.KeepsUnknown Flat :=
  ⟨fun _ _ h => h, rfl, fun _ _ => rfl, fun _ _ _ => rfl, fun _ => rfl⟩

theorem Empty.lawful (_ : R.Documented) : Empty.cls.Lawful R.toWireRuntime Flat where
  toKeepsUnknown := keeps
  readable := .of_tags [] rfl (by decide) trivial
  fields_lawful := List.forall_iff_forall_mem.mp trivial
  mergeFrom_empty _ := rfl
  inner_empty := trivial

theorem SessionId.keeps : (SessionId.cls R).KeepsUnknown Flat :=
  ⟨fun _ _ h => h, rfl, fun _ _ => rfl, fun _ _ _ => rfl, fun _ => rfl⟩

theorem SessionId.lawful (hR : R.Documented) : (SessionId.cls R).Lawful R.toWireRuntime Flat where
  toKeepsUnknown := keeps
  readable := .of_tags [8] rfl (by decide) (.single hR.uint32)
  fields_lawful := List.forall_iff_forall_mem.mp
    (field_lawful hR hR.uint32 keeps rfl rfl (fun _ _ => rfl) fun _ _ h => h)
  mergeFrom_empty := by rintro ⟨_ | _, _⟩ <;> rfl
  inner_empty := trivial

theorem OpenSessionRequest.readable (hR : R.Documented) : (OpenSessionRequest.cls R).Readable :=
  .of_tags [10, 16, 26, 32, 42] rfl (by decide)
    ⟨.single hR.bytes, .single hR.bool, .single hR.bytes, .enum hR.enum, .single hR.bytes⟩

theorem OpenSessionRequest.keeps : (OpenSessionRequest.cls R).KeepsUnknown Flat :=
  ⟨fun _ _ h => h, rfl, fun _ _ => rfl, fun _ _ _ => rfl, fun _ => rfl⟩

theorem OpenSessionRequest.lawful (hR : R.Documented) :
    (OpenSessionRequest.cls R).Lawful R.toWireRuntime Flat where
  toKeepsUnknown := keeps
  readable := OpenSessionRequest.readable hR
  fields_lawful := List.forall_iff_forall_mem.mp
    ⟨field_lawful hR hR.bytes keeps rfl rfl (fun _ _ => rfl) fun _ _ h => h,
      field_lawful hR hR.bool keeps rfl rfl (fun _ _ => rfl) fun _ _ h => h,
      field_lawful hR hR.bytes keeps rfl rfl (fun _ _ => rfl) fun _ _ h => h,
      .enum hR.streams (OpenSessionRequest.readable hR) (MessageClass.unknown_nil fun _ => rfl)
        hR.enum hR.enum_varint32 LoginType.ofInt_toInt (.tail _ (.tail _ (.tail _ (.head _)))) rfl
        (by decide) (fun _ _ => rfl) (fun _ _ => rfl) (fun _ _ h => h) fun _ _ h => h,
      field_lawful hR hR.bytes keeps rfl rfl (fun _ _ => rfl) fun _ _ h => h⟩
  mergeFrom_empty := by rintro ⟨_ | _, _ | _, _ | _, _ | _, _ | _, _⟩ <;> rfl
  inner_empty := trivial

theorem OpenTrustletRequest.keeps : (OpenTrustletRequest.cls R).KeepsUnknown Flat :=
  ⟨fun _ _ h => h, rfl, fun _ _ => rfl, fun _ _ _ => rfl, fun _ => rfl⟩

theorem OpenTrustletRequest.lawful (hR : R.Documented) :
    (OpenTrustletRequest.cls R).Lawful R.toWireRuntime Flat where
  toKeepsUnknown := keeps
  readable := .of_tags [8, 18, 26] rfl (by decide)
    ⟨.single hR.uint32, .single hR.bytes, .single hR.bytes⟩
  fields_lawful := List.forall_iff_forall_mem.mp
    ⟨field_lawful hR hR.uint32 keeps rfl rfl (fun _ _ => rfl) fun _ _ h => h,
      field_lawful hR hR.bytes keeps rfl rfl (fun _ _ => rfl) fun _ _ h => h,
      field_lawful hR hR.bytes keeps rfl rfl (fun _ _ => rfl) fun _ _ h => h⟩
  mergeFrom_empty := by rintro ⟨_ | _, _ | _, _ | _, _⟩ <;> rfl
  inner_empty := trivial

theorem BufferData.keeps : (BufferData.cls R).KeepsUnknown Flat :=
  ⟨fun _ _ h => h, rfl, fun _ _ => rfl, fun _ _ _ => rfl, fun _ => rfl⟩

theorem BufferData.lawful (hR : R.Documented) :
    (BufferData.cls R).Lawful R.toWireRuntime Flat where
  toKeepsUnknown := keeps
  readable := .of_tags [8, 18] rfl (by decide) ⟨.single hR.uint64, .single hR.bytes⟩
  fields_lawful := List.forall_iff_forall_mem.mp
    ⟨field_lawful hR hR.uint64 keeps rfl rfl (fun _ _ => rfl) fun _ _ h => h,
      field_lawful hR hR.bytes keeps rfl rfl (fun _ _ => rfl) fun _ _ h => h⟩
  mergeFrom_empty := by rintro ⟨_ | _, _ | _, _⟩ <;> rfl
  inner_empty := trivial

theorem NotifyRequest.keeps : (NotifyRequest.cls R).KeepsUnknown
    (fun m => Inside (BufferData.cls R) R m.buffers) :=
  ⟨fun _ _ h => h, rfl, fun _ _ => rfl, fun _ _ _ => rfl, fun _ => rfl⟩

theorem NotifyRequest.lawful (hR : R.Documented) :
    (NotifyRequest.cls R).Lawful R.toWireRuntime
      fun m => Inside (BufferData.cls R) R m.buffers where
  toKeepsUnknown := keeps
  readable := .of_tags [8, 18, 26] rfl (by decide)
    ⟨.single hR.uint32, .single hR.bytes, .messages hR.streams⟩
  fields_lawful := List.forall_iff_forall_mem.mp
    ⟨field_lawful hR hR.uint32 keeps rfl rfl (fun _ _ => rfl) fun _ _ h => h,
      field_lawful hR hR.bytes keeps rfl rfl (fun _ _ => rfl) fun _ _ h => h,
      buffers_lawful hR (BufferData.lawful hR)
        (fun m => by simp only [List.append_nil])
        (fun s l m => by simp only [List.append_assoc, List.singleton_append])
        keeps rfl rfl (fun _ _ => rfl) fun _ _ => rfl⟩
  mergeFrom_empty := by rintro ⟨_ | _, _ | _, _, _⟩ <;> rfl
  inner_empty := fun _ h => nomatch h

theorem WaitNotificationRequest.keeps : (WaitNotificationRequest.cls R).KeepsUnknown Flat :=
  ⟨fun _ _ h => h, rfl, fun _ _ => rfl, fun _ _ _ => rfl, fun _ => rfl⟩

theorem WaitNotificationRequest.lawful (hR : R.Documented) :
    (WaitNotificationRequest.cls R).Lawful R.toWireRuntime Flat where
  toKeepsUnknown := keeps
  readable := .of_tags [8, 16, 24] rfl (by decide)
    ⟨.single hR.uint32, .single hR.sint32, .single hR.bool⟩
  fields_lawful := List.forall_iff_forall_mem.mp
    ⟨field_lawful hR hR.uint32 keeps rfl rfl (fun _ _ => rfl) fun _ _ h => h,
      field_lawful hR hR.sint32 keeps rfl rfl (fun _ _ => rfl) fun _ _ h => h,
      field_lawful hR hR.bool keeps rfl rfl (fun _ _ => rfl) fun _ _ h => h⟩
  mergeFrom_empty := by rintro ⟨_ | _, _ | _, _ | _, _⟩ <;> rfl
  inner_empty := trivial

theorem WaitNotificationResponse.keeps : (WaitNotificationResponse.cls R).KeepsUnknown
    (fun m => Inside (BufferData.cls R) R m.buffers) :=
  ⟨fun _ _ h => h, rfl, fun _ _ => rfl, fun _ _ _ => rfl, fun _ => rfl⟩

theorem WaitNotificationResponse.lawful (hR : R.Documented) :
    (WaitNotificationResponse.cls R).Lawful R.toWireRuntime
      fun m => Inside (BufferData.cls R) R m.buffers where
  toKeepsUnknown := keeps
  readable := .of_tags [10, 18] rfl (by decide) ⟨.single hR.bytes, .messages hR.streams⟩
  fields_lawful := List.forall_iff_forall_mem.mp
    ⟨field_lawful hR hR.bytes keeps rfl rfl (fun _ _ => rfl) fun _ _ h => h,
      buffers_lawful hR (BufferData.lawful hR)
        (fun m => by simp only [List.append_nil])
        (fun s l m => by simp only [List.append_assoc, List.singleton_append])
        keeps rfl rfl (fun _ _ => rfl) fun _ _ => rfl⟩
  mergeFrom_empty := by rintro ⟨_ | _, _, _⟩ <;> rfl
  inner_empty := fun _ h => nomatch h

theorem BufferSize.keeps : (BufferSize.cls R).KeepsUnknown Flat :=
  ⟨fun _ _ h => h, rfl, fun _ _ => rfl, fun _ _ _ => rfl, fun _ => rfl⟩

theorem BufferSize.lawful (hR : R.Documented) :
    (BufferSize.cls R).Lawful R.toWireRuntime Flat where
  toKeepsUnknown := keeps
  readable := .of_tags [8, 16] rfl (by decide) ⟨.single hR.uint32, .single hR.uint32⟩
  fields_lawful := List.forall_iff_forall_mem.mp
    ⟨field_lawful hR hR.uint32 keeps rfl rfl (fun _ _ => rfl) fun _ _ h => h,
      field_lawful hR hR.uint32 keeps rfl rfl (fun _ _ => rfl) fun _ _ h => h⟩
  mergeFrom_empty := by rintro ⟨_ | _, _ | _, _⟩ <;> rfl
  inner_empty := trivial

theorem BufferAddress.keeps : (BufferAddress.cls R).KeepsUnknown Flat :=
  ⟨fun _ _ h => h, rfl, fun _ _ => rfl, fun _ _ _ => rfl, fun _ => rfl⟩

theorem BufferAddress.lawful (hR : R.Documented) :
    (BufferAddress.cls R).Lawful R.toWireRuntime Flat where
  toKeepsUnknown := keeps
  readable := .of_tags [8] rfl (by decide) (.single hR.uint64)
  fields_lawful := List.forall_iff_forall_mem.mp
    (field_lawful hR hR.uint64 keeps rfl rfl (fun _ _ => rfl) fun _ _ h => h)
  mergeFrom_empty := by rintro ⟨_ | _, _⟩ <;> rfl
  inner_empty := trivial

theorem MapRequest.keeps : (MapRequest.cls R).KeepsUnknown
    (fun m => Inside (BufferSize.cls R) R m.buffers) :=
  ⟨fun _ _ h => h, rfl, fun _ _ => rfl, fun _ _ _ => rfl, fun _ => rfl⟩

theorem MapRequest.lawful (hR : R.Documented) :
    (MapRequest.cls R).Lawful R.toWireRuntime
      fun m => Inside (BufferSize.cls R) R m.buffers where
  toKeepsUnknown := keeps
  readable := .of_tags [8, 18] rfl (by decide) ⟨.single hR.uint32, .messages hR.streams⟩
  fields_lawful := List.forall_iff_forall_mem.mp
    ⟨field_lawful hR hR.uint32 keeps rfl rfl (fun _ _ => rfl) fun _ _ h => h,
      buffers_lawful hR (BufferSize.lawful hR)
        (fun m => by simp only [List.append_nil])
        (fun s l m => by simp only [List.append_assoc, List.singleton_append])
        keeps rfl rfl (fun _ _ => rfl) fun _ _ => rfl⟩
  mergeFrom_empty := by rintro ⟨_ | _, _, _⟩ <;> rfl
  inner_empty := fun _ h => nomatch h

theorem MapResponse.keeps : (MapResponse.cls R).KeepsUnknown
    (fun m => Inside (BufferAddress.cls R) R m.buffers) :=
  ⟨fun _ _ h => h, rfl, fun _ _ => rfl, fun _ _ _ => rfl, fun _ => rfl⟩

theorem MapResponse.lawful (hR : R.Documented) :
    (MapResponse.cls R).Lawful R.toWireRuntime
      fun m => Inside (BufferAddress.cls R) R m.buffers where
  toKeepsUnknown := keeps
  readable := .of_tags [10] rfl (by decide) (.messages hR.streams)
  fields_lawful := List.forall_iff_forall_mem.mp
    (buffers_lawful hR (BufferAddress.lawful hR)
      (fun m => by simp only [List.append_nil])
      (fun s l m => by simp only [List.append_assoc, List.singleton_append])
        keeps rfl rfl (fun _ _ => rfl) fun _ _ => rfl)
  mergeFrom_empty := fun _ => rfl
  inner_empty := fun _ h => nomatch h

theorem UnmapRequest.keeps : (UnmapRequest.cls R).KeepsUnknown
    (fun m => Inside (BufferAddress.cls R) R m.buffers) :=
  ⟨fun _ _ h => h, rfl, fun _ _ => rfl, fun _ _ _ => rfl, fun _ => rfl⟩

theorem UnmapRequest.lawful (hR : R.Documented) :
    (UnmapRequest.cls R).Lawful R.toWireRuntime
      fun m => Inside (BufferAddress.cls R) R m.buffers where
  toKeepsUnknown := keeps
  readable := .of_tags [8, 18] rfl (by decide) ⟨.single hR.uint32, .messages hR.streams⟩
  fields_lawful := List.forall_iff_forall_mem.mp
    ⟨field_lawful hR hR.uint32 keeps rfl rfl (fun _ _ => rfl) fun _ _ h => h,
      buffers_lawful hR (BufferAddress.lawful hR)
        (fun m => by simp only [List.append_nil])
        (fun s l m => by simp only [List.append_assoc, List.singleton_append])
        keeps rfl rfl (fun _ _ => rfl) fun _ _ => rfl⟩
  mergeFrom_empty := by rintro ⟨_ | _, _, _⟩ <;> rfl
  inner_empty := fun _ h => nomatch h

theorem GetErrorResponse.keeps : (GetErrorResponse.cls R).KeepsUnknown Flat :=
  ⟨fun _ _ h => h, rfl, fun _ _ => rfl, fun _ _ _ => rfl, fun _ => rfl⟩

theorem GetErrorResponse.lawful (hR : R.Documented) :
    (GetErrorResponse.cls R).Lawful R.toWireRuntime Flat where
  toKeepsUnknown := keeps
  readable := .of_tags [8] rfl (by decide) (.single hR.sint32)
  fields_lawful := List.forall_iff_forall_mem.mp
    (field_lawful hR hR.sint32 keeps rfl rfl (fun _ _ => rfl) fun _ _ h => h)
  mergeFrom_empty := by rintro ⟨_ | _, _⟩ <;> rfl
  inner_empty := trivial

/-- Merging into an empty message, one field after another, so that each is decided once. -/
theorem GetVersionResponse.mergeFrom_empty (s : GetVersionResponse) :
    (GetVersionResponse.cls R).mergeFrom s (GetVersionResponse.cls R).empty = s := by
  obtain ⟨a, b, c, d, e, f, g, h, i, u⟩ := s
  let s : GetVersionResponse := ⟨a, b, c, d, e, f, g, h, i, u⟩
  let field (k : Fin 9) := (GetVersionResponse.cls R).fields.get k
  have h0 : (field 0).merge s {} = ⟨a, none, none, none, none, none, none, none, none, []⟩ := by
    cases a <;> rfl
  have h1 : (field 1).merge s ⟨a, none, none, none, none, none, none, none, none, []⟩ =
      ⟨a, b, none, none, none, none, none, none, none, []⟩ := by
    cases b <;> rfl
  have h2 : (field 2).merge s ⟨a, b, none, none, none, none, none, none, none, []⟩ =
      ⟨a, b, c, none, none, none, none, none, none, []⟩ := by
    cases c <;> rfl
  have h3 : (field 3).merge s ⟨a, b, c, none, none, none, none, none, none, []⟩ =
      ⟨a, b, c, d, none, none, none, none, none, []⟩ := by
    cases d <;> rfl
  have h4 : (field 4).merge s ⟨a, b, c, d, none, none, none, none, none, []⟩ =
      ⟨a, b, c, d, e, none, none, none, none, []⟩ := by
    cases e <;> rfl
  have h5 : (field 5).merge s ⟨a, b, c, d, e, none, none, none, none, []⟩ =
      ⟨a, b, c, d, e, f, none, none, none, []⟩ := by
    cases f <;> rfl
  have h6 : (field 6).merge s ⟨a, b, c, d, e, f, none, none, none, []⟩ =
      ⟨a, b, c, d, e, f, g, none, none, []⟩ := by
    cases g <;> rfl
  have h7 : (field 7).merge s ⟨a, b, c, d, e, f, g, none, none, []⟩ =
      ⟨a, b, c, d, e, f, g, h, none, []⟩ := by
    cases h <;> rfl
  have h8 : (field 8).merge s ⟨a, b, c, d, e, f, g, h, none, []⟩ =
      ⟨a, b, c, d, e, f, g, h, i, []⟩ := by
    cases i <;> rfl
  change (GetVersionResponse.cls R).addUnknown u ([field 0, field 1, field 2, field 3, field 4,
    field 5, field 6, field 7, field 8].foldl (fun m f => f.merge s m) {}) = s
  rw [List.foldl_cons, h0, List.foldl_cons, h1, List.foldl_cons, h2, List.foldl_cons, h3,
    List.foldl_cons, h4, List.foldl_cons, h5, List.foldl_cons, h6, List.foldl_cons, h7,
    List.foldl_cons, h8]
  rfl

theorem GetVersionResponse.keeps : (GetVersionResponse.cls R).KeepsUnknown Flat :=
  ⟨fun _ _ h => h, rfl, fun _ _ => rfl, fun _ _ _ => rfl, fun _ => rfl⟩

theorem GetVersionResponse.lawful (hR : R.Documented) :
    (GetVersionResponse.cls R).Lawful R.toWireRuntime Flat where
  toKeepsUnknown := keeps
  readable := .of_tags [10, 16, 24, 32, 40, 48, 56, 64, 72] rfl (by decide)
    ⟨.single hR.bytes, .single hR.uint32, .single hR.uint32, .single hR.uint32,
      .single hR.uint32, .single hR.uint32, .single hR.uint32, .single hR.uint32,
      .single hR.uint32⟩
  fields_lawful := List.forall_iff_forall_mem.mp
    ⟨field_lawful hR hR.bytes keeps rfl rfl (fun _ _ => rfl) fun _ _ h => h,
      field_lawful hR hR.uint32 keeps rfl rfl (fun _ _ => rfl) fun _ _ h => h,
      field_lawful hR hR.uint32 keeps rfl rfl (fun _ _ => rfl) fun _ _ h => h,
      field_lawful hR hR.uint32 keeps rfl rfl (fun _ _ => rfl) fun _ _ h => h,
      field_lawful hR hR.uint32 keeps rfl rfl (fun _ _ => rfl) fun _ _ h => h,
      field_lawful hR hR.uint32 keeps rfl rfl (fun _ _ => rfl) fun _ _ h => h,
      field_lawful hR hR.uint32 keeps rfl rfl (fun _ _ => rfl) fun _ _ h => h,
      field_lawful hR hR.uint32 keeps rfl rfl (fun _ _ => rfl) fun _ _ h => h,
      field_lawful hR hR.uint32 keeps rfl rfl (fun _ _ => rfl) fun _ _ h => h⟩
  mergeFrom_empty := GetVersionResponse.mergeFrom_empty
  inner_empty := trivial

/-! ## Round trips -/

/-- The messages inside a message, if there are any, could have been read. -/
def Inner (R : Runtime) : (side : Side) → (method : RpcMethod) → Message side method → Prop
  | .request, .notify => fun m => Inside (BufferData.cls R) R (NotifyRequest.buffers m)
  | .request, .map => fun m => Inside (BufferSize.cls R) R (MapRequest.buffers m)
  | .request, .unmap => fun m => Inside (BufferAddress.cls R) R (UnmapRequest.buffers m)
  | .response, .wait => fun m => Inside (BufferData.cls R) R (WaitNotificationResponse.buffers m)
  | .response, .map => fun m => Inside (BufferAddress.cls R) R (MapResponse.buffers m)
  | _, _ => Flat

theorem cls_lawful (hR : R.Documented) (side : Side) (method : RpcMethod) :
    (cls R side method).Lawful R.toWireRuntime (Inner R side method) := by
  cases side with
  | request =>
    cases method with
    | openSession => exact OpenSessionRequest.lawful hR
    | openTrustlet => exact OpenTrustletRequest.lawful hR
    | closeSession => exact SessionId.lawful hR
    | notify => exact NotifyRequest.lawful hR
    | wait => exact WaitNotificationRequest.lawful hR
    | map => exact MapRequest.lawful hR
    | unmap => exact UnmapRequest.lawful hR
    | getError => exact SessionId.lawful hR
    | getVersion => exact Empty.lawful hR
    | gpRequestCancellation => exact SessionId.lawful hR
  | response =>
    cases method with
    | openSession => exact SessionId.lawful hR
    | openTrustlet => exact SessionId.lawful hR
    | closeSession => exact Empty.lawful hR
    | notify => exact Empty.lawful hR
    | wait => exact WaitNotificationResponse.lawful hR
    | map => exact MapResponse.lawful hR
    | unmap => exact Empty.lawful hR
    | getError => exact GetErrorResponse.lawful hR
    | getVersion => exact GetVersionResponse.lawful hR
    | gpRequestCancellation => exact Empty.lawful hR

/-- A message whose unknown fields, and those of the messages inside, could have been read.  One
that has none, as the proxy makes them, is such a message. -/
def Genuine (R : Runtime) (side : Side) (method : RpcMethod) (m : Message side method) : Prop :=
  (cls R side method).Genuine R.toWireRuntime (Inner R side method) m

variable {side : Side} {method : RpcMethod}

theorem genuine_made (hR : R.Documented) {m : Message side method} (hinner : Inner R side method m)
    (hnone : (cls R side method).unknown m = []) : Genuine R side method m :=
  ⟨hinner, by
    rw [hnone]
    exact MessageClass.unknown_nil (cls_lawful hR side method).setUnknown_unknown⟩

/-- The streams of varints, with the types of the fields. -/
def varintRuntime : Runtime where
  toWireRuntime := Varint.runtime
  bool := Varint.bool
  uint32 := Varint.uint32
  uint64 := Varint.uint64
  sint32 := Varint.sint32
  enum := Varint.int32
  bytes := Varint.delimited

theorem varintRuntime_documented : varintRuntime.Documented where
  streams := Varint.runtime_documented
  bool := Varint.bool_lawful
  uint32 := Varint.uint32_lawful
  uint64 := Varint.uint64_lawful
  sint32 := Varint.sint32_lawful
  enum := Varint.int32_lawful
  bytes := Varint.delimited_lawful
  enum_varint32 := Varint.int32_read_varint32

/-- A notification with a buffer. -/
def notification : Message .request .notify :=
  (⟨some 3, none, [⟨some 0x1000, some [0, 255], []⟩], []⟩ : NotifyRequest)

end McDaemon.Proxy.Messages
