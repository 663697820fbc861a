/-
# McDaemon.RootPa.CommandAnswers — every command that is attempted is answered once, under its id.

An id is kept in an unsigned variable and printed as such, an upload without a value keeps none, and
without a session the batch keeps none.  A CMP command without a value is not answered at all, and
an upload without a value keeps later uploads from being answered.  An upload whose value does not
decode is carried out with no data.
-/
import McDaemon.RootPa.CommandRuns

namespace McDaemon.RootPa.Commands

open McDaemon.Lib

/-! ## The property -/

/-- The batch ends behind the command. -/
def Command.endsBatch (s : Surroundings) (c : Command) : Bool := s.session && c.cmpCommand.stops

/-- The CMP commands that the document and the batch get to.  One without a value has its place
among them although the batch does not have it. -/
def attemptedCmps (s : Surroundings) (commands : List Command) : List Command :=
  upTo (fun _ => Command.endsBatch s) [] ((read s commands).filter Command.isCmp)

/-- The commands that are attempted. -/
def attempted (s : Surroundings) (commands : List Command) : List Command :=
  attemptedCmps s commands ++ uploads s commands

/-- The commands that are attempted and the results that the request is answered with belong
together one by one.  A result has the id of its command, and is an error if that has no data;
nothing is done without data. -/
structure AnsweredOnce (s : Surroundings) (commands : List Command) : Prop where
  answers : ∃ answers : List (Command × CommandResult),
    (answers.map Prod.fst).Perm (attempted s commands) ∧
    answers.map Prod.snd =
      (handleCommandAndFillResponse s commands).commandResultList.getD [] ∧
    ∀ a ∈ answers, (a.2.id : Int) = a.1.id.toInt ∧ (a.1.data = [] → a.2.isError = true)
  notExecuted : ∀ op ∈ (handleCommandAndFillResponse s commands).operations, op.data ≠ []

/-! ## The condition -/

/-- Every CMP command that is attempted has a value, and every upload without one is the last.  An
id is not negative, and it is zero where none is kept.  The value of an upload decodes, unless it is
a trustlet and nobody is there to install it. -/
structure Answerable (s : Surroundings) (commands : List Command) : Prop where
  cmps : ∀ c ∈ attemptedCmps s commands,
    c.commandValue.isSome = true ∧ 0 ≤ c.id ∧ (s.session = false → c.id = 0)
  uploads : ∀ c ∈ uploads s commands,
    (c.commandValue.isSome = true →
      0 ≤ c.id ∧ (c.data = [] → c.type = .tltUpload ∧ s.callbackP = false)) ∧
    (c.commandValue.isSome = false → c.id = 0)
  last : ∀ c ∈ (Commands.uploads s commands).dropLast, c.commandValue.isSome = true

/-! ## Ids -/

theorem toNat_getCommandId (c : Command) : (c.getCommandId.toNat : Int) = c.id.toInt ↔ 0 ≤ c.id := by
  have hsigned : c.id.toInt = c.id.toBitVec.toInt := rfl
  have hunsigned : c.getCommandId.toNat = c.id.toBitVec.toNat := rfl
  have hlt := c.id.toBitVec.isLt
  rw [Int32.le_iff_toInt_le, hsigned, hunsigned, BitVec.toInt_eq_toNat_cond]
  show _ ↔ (0 : Int) ≤ _
  split <;> omega

theorem toNat_getCommandId_lt (c d : Command) (h : (c.getCommandId.toNat : Int) = d.id.toInt) :
    0 ≤ c.id := by
  have hsigned : c.id.toInt = c.id.toBitVec.toInt := rfl
  have hunsigned : c.getCommandId.toNat = c.id.toBitVec.toNat := rfl
  have hlt := c.id.toBitVec.isLt
  have hother := d.id.toInt_lt
  rw [hunsigned] at h
  rw [Int32.le_iff_toInt_le, hsigned, BitVec.toInt_eq_toNat_cond]
  show (0 : Int) ≤ _
  split <;> omega

/-- Where two predicates hold equally often, and one implies the other, they agree. -/
theorem of_countP_eq {α : Type} {p q : α → Bool} {l : List α}
    (h : ∀ a ∈ l, p a = true → q a = true) (hcount : l.countP p = l.countP q) :
    ∀ a ∈ l, q a = true → p a = true := by
  induction l with
  | nil => simp
  | cons a l ih =>
    obtain ⟨hhead, htail⟩ := List.forall_mem_cons.mp h
    have hle : l.countP p ≤ l.countP q := List.countP_mono_left htail
    rw [List.countP_cons, List.countP_cons] at hcount
    refine List.forall_mem_cons.mpr ⟨fun hq => ?_, ih htail ?_⟩
    · by_contra hp
      rw [if_neg hp, if_pos hq] at hcount
      omega
    · by_cases hp : p a = true
      · rw [if_pos hp, if_pos (hhead hp)] at hcount
        omega
      · rw [if_neg hp] at hcount
        split_ifs at hcount <;> omega

/-- Where two functions have the same values, and one is the other or zero, they are equal. -/
theorem eq_of_perm_map {α : Type} {f g : α → Int} {l : List α} (hperm : (l.map f).Perm (l.map g))
    (h : ∀ a ∈ l, g a = f a ∨ g a = 0) : ∀ a ∈ l, g a = f a := by
  have hcount : l.countP (fun a => f a = 0) = l.countP (fun a => g a = 0) := by
    have hzeros := hperm.countP_eq fun i => decide (i = 0)
    rwa [List.countP_map, List.countP_map] at hzeros
  have hzero (a : α) (ha : a ∈ l) (hf : decide (f a = 0) = true) : decide (g a = 0) = true := by
    have hf : f a = 0 := by simpa using hf
    have := h a ha
    simp only [decide_eq_true_eq]
    omega
  intro a ha
  rcases h a ha with heq | hg
  · exact heq
  · have hf : f a = 0 := by simpa using of_countP_eq hzero hcount a ha (by simpa using hg)
    rw [hg, hf]

/-! ## The results, command by command -/

/-- The result of a CMP command that has a value. -/
def cmpAnswer (s : Surroundings) (c : Command) : CommandResult :=
  if s.session then cmpResult c.cmpCommand.response else cmpResult .blank

def uploadAnswer (s : Surroundings) (c : Command) : CommandResult :=
  uploadResult (handleUploadCommand s c)

theorem cmpResults_eq (s : Surroundings) (commands : List Command) :
    cmpResults s commands =
      ((attemptedCmps s commands).filter fun c => c.commandValue.isSome).map (cmpAnswer s) := by
  have hstops (c : Command) (h : c.endsBatch s = true) : c.commandValue.isSome = true := by
    by_contra hvalue
    have hdata : c.data = [] := by simp [Command.data, Option.not_isSome_iff_eq_none.mp hvalue]
    simp [Command.endsBatch, CmpCommand.stops, CmpCommand.fails, Command.cmpCommand, hdata] at h
  rw [cmpResults, attemptedCmps, filter_upTo (b := []) hstops, ← batched_eq_filter, batch]
  by_cases hsession : s.session = true
  · rw [if_pos hsession, batched, upTo_map [], List.map_map]
    rw [upTo_congr (p := fun _ => Command.endsBatch s) (q := fun _ c => c.cmpCommand.stops)]
    · exact List.map_congr_left fun c _ => by simp [cmpAnswer, hsession]
    · exact fun _ c => by simp [Command.endsBatch, hsession]
  · rw [if_neg hsession, upTo_of_never, List.map_map]
    · exact List.map_congr_left fun c _ => by simp [cmpAnswer, hsession]
    · exact fun _ c => by simp [Command.endsBatch, hsession]

/-- The uploads that are answered. -/
def answeredUploads (s : Surroundings) (commands : List Command) : List Command :=
  upTo (fun _ c => (handleUploadCommand s c).stops) [] (uploads s commands)

theorem uploadResults_eq (s : Surroundings) (commands : List Command) :
    uploadResults s commands = (answeredUploads s commands).map (uploadAnswer s) := by
  rw [uploadResults, upTo_map [], List.map_map]
  rfl

theorem isCmp_of_isUpload {c : Command} (h : c.isUpload = true) : c.isCmp = false := by
  cases htype : c.type <;> simp [Command.isUpload, Command.isCmp, htype] at h ⊢

/-- An upload that has failed and that others follow is to be ignored. -/
theorem ignored_of_mem_dropLast (s : Surroundings) (commands : List Command) (c : Command)
    (h : c ∈ (uploads s commands).dropLast) (hfails : c.uploadFails s = true) :
    c.getCommandIgnoreError = true := by
  obtain ⟨first, last, hdrop⟩ := List.append_of_mem h
  have hne : uploads s commands ≠ [] := by
    intro hnil
    rw [hnil] at h
    exact List.not_mem_nil h
  have hsplit : (read s commands).filter Command.isUpload =
      first ++ c :: (last ++ [(uploads s commands).getLast hne]) := by
    rw [← List.cons_append, ← List.append_assoc, ← hdrop, List.dropLast_append_getLast hne]
    rfl
  obtain ⟨r₁, r₂, hr, -, hr₂⟩ := List.filter_eq_append_iff.mp hsplit
  obtain ⟨r₃, post, rfl, -, hc, hpost⟩ := List.filter_eq_cons_iff.mp hr₂
  have hpost : post ≠ [] := by
    rintro rfl
    exact absurd hpost (by simp)
  -- so the loop over the document has gone past it
  rw [← List.append_assoc] at hr
  have hpasses := (passed_of_upTo_eq hr).2 hpost
  have hends : endsFailing s (r₁ ++ r₃ ++ [c]) = true := by
    rw [endsFailing, List.filter_append, List.filter_cons_of_pos hc]
    simpa using hfails
  rw [List.nil_append, leaves, hends, isCmp_of_isUpload hc] at hpasses
  simpa using (Bool.or_eq_false_iff.mp hpasses).2

theorem answeredUploads_eq_iff (s : Surroundings) (commands : List Command) :
    answeredUploads s commands = uploads s commands ↔
      ∀ c ∈ (uploads s commands).dropLast, c.commandValue.isSome = true := by
  rw [answeredUploads, upTo_eq_self_iff (r := fun c => (handleUploadCommand s c).stops)]
  refine forall₂_congr fun c hmem => ?_
  cases hvalue : c.commandValue with
  | none => simp [handleUploadCommand, hvalue, CommonMessage.stops]
  | some text =>
    have hignore : (handleUploadCommand s c).ignoreError = c.getCommandIgnoreError := by
      simp only [handleUploadCommand, hvalue]
      split_ifs <;> rfl
    refine iff_of_true ?_ rfl
    rw [CommonMessage.stops, hignore]
    by_cases hfails : c.uploadFails s = true
    · simp [ignored_of_mem_dropLast s commands c hmem hfails]
    · have hok : (handleUploadCommand s c).ret = .ok := by simpa [Command.uploadFails] using hfails
      simp [hok]

/-! ## What the commands leave behind -/

theorem data_ne_of_mem_cmpOperations {content : List UInt8} {e : CmpExecution} {op : Operation}
    (hcontent : content.length > 0) (h : op ∈ cmpOperations content e) : op.data ≠ [] := by
  unfold cmpOperations at h
  split_ifs at h
  · exact absurd h List.not_mem_nil
  · rw [List.mem_singleton.mp h]
    exact List.ne_nil_of_length_pos hcontent

theorem data_ne_of_mem_batchOperations {s : Surroundings} {commands : List Command} {op : Operation}
    (h : op ∈ batchOperations s commands) : op.data ≠ [] := by
  unfold batchOperations at h
  split_ifs at h
  · obtain ⟨m, -, hop⟩ := List.mem_flatMap.mp h
    unfold CmpCommand.operations at hop
    split_ifs at hop with hlen
    · exact data_ne_of_mem_cmpOperations hlen hop
    · exact absurd hop List.not_mem_nil
  · exact absurd h List.not_mem_nil

/-- A command without data is answered by an error, but for an upload that is carried out. -/
theorem isError_cmpAnswer (s : Surroundings) (c : Command) (hdata : c.data = []) :
    (cmpAnswer s c).isError = true := by
  have hresponse : c.cmpCommand.response = c.cmpCommand.request := by
    rw [CmpCommand.response, if_neg]
    simp [Command.cmpCommand, hdata]
  unfold cmpAnswer
  split_ifs
  · rw [hresponse]
    rfl
  · rfl

/-- The upload hands nothing on without data. -/
def UploadsData (s : Surroundings) (c : Command) : Prop :=
  c.commandValue.isSome = true → c.data = [] → c.type = .tltUpload ∧ s.callbackP = false

theorem uploadsData_iff (s : Surroundings) (c : Command) :
    (∀ op ∈ uploadOperations s c, op.data ≠ []) ↔ UploadsData s c := by
  unfold uploadOperations UploadsData
  cases hvalue : c.commandValue with
  | none => simp
  | some text =>
    dsimp only
    split_ifs with htype hcallback
    · simp [htype, hcallback, Operation.data]
    · simp [htype, hcallback]
    · simp [htype, Operation.data]

theorem isError_uploadAnswer (s : Surroundings) (c : Command) (h : UploadsData s c)
    (hdata : c.data = []) : (uploadAnswer s c).isError = true := by
  cases hvalue : c.commandValue with
  | none => simp [uploadAnswer, handleUploadCommand, hvalue, uploadResult, addCommandResultData,
      CommandResult.isError]
  | some text =>
    obtain ⟨htype, hcallback⟩ := h (by simp [hvalue]) hdata
    simp [uploadAnswer, handleUploadCommand, hvalue, htype, uploadTrustlet, hcallback, uploadResult,
      addCommandResultData, CommandResult.isError]

/-! ## Ids of results -/

theorem id_cmpAnswer (s : Surroundings) (c : Command) :
    (cmpAnswer s c).id = if s.session then c.getCommandId.toNat else 0 := by
  unfold cmpAnswer
  split_ifs
  · show c.cmpCommand.response.id.toNat = _
    rw [CmpCommand.response_id]
    rfl
  · rfl

theorem id_uploadAnswer (s : Surroundings) (c : Command) :
    (uploadAnswer s c).id = if c.commandValue.isSome then c.getCommandId.toNat else 0 := by
  show (handleUploadCommand s c).id.toNat = _
  cases hvalue : c.commandValue with
  | none => simp [handleUploadCommand, hvalue]
  | some text =>
    rw [if_pos (by rfl)]
    simp only [handleUploadCommand, hvalue]
    split_ifs <;> rfl

/-- What an attempted command is answered with, if it is. -/
def answer (s : Surroundings) (c : Command) : CommandResult :=
  if c.isCmp then cmpAnswer s c else uploadAnswer s c

theorem isCmp_of_mem_attemptedCmps {s : Surroundings} {commands : List Command} {c : Command}
    (h : c ∈ attemptedCmps s commands) : c.isCmp = true :=
  (List.mem_filter.mp (upTo_sublist.subset h)).2

theorem isCmp_of_mem_uploads {s : Surroundings} {commands : List Command} {c : Command}
    (h : c ∈ uploads s commands) : c.isCmp = false :=
  isCmp_of_isUpload (List.mem_filter.mp h).2

theorem map_answer (s : Surroundings) (commands : List Command) :
    (attempted s commands).map (answer s) =
      (attemptedCmps s commands).map (cmpAnswer s) ++
        (uploads s commands).map (uploadAnswer s) := by
  rw [attempted, List.map_append]
  congr 1
  · exact List.map_congr_left fun c hc => if_pos (isCmp_of_mem_attemptedCmps hc)
  · exact List.map_congr_left fun c hc => if_neg (by simp [isCmp_of_mem_uploads hc])

/-- No attempted command goes without an answer. -/
structure Complete (s : Surroundings) (commands : List Command) : Prop where
  cmps : ∀ c ∈ attemptedCmps s commands, c.commandValue.isSome = true
  last : ∀ c ∈ (uploads s commands).dropLast, c.commandValue.isSome = true

theorem startsEmpty_of_complete {s : Surroundings} {commands : List Command}
    (h : ∀ c ∈ attemptedCmps s commands, c.commandValue.isSome = true) :
    startsEmpty (read s commands) = false := by
  rw [startsEmpty]
  cases hcmps : (read s commands).filter Command.isCmp with
  | nil => rfl
  | cons c cmps =>
    have hmem : c ∈ attemptedCmps s commands := by
      rw [attemptedCmps, hcmps]
      exact List.mem_cons_self
    simpa using h c hmem

theorem results_of_complete {s : Surroundings} {commands : List Command}
    (h : Complete s commands) :
    (handleCommandAndFillResponse s commands).commandResultList =
      some ((attempted s commands).map (answer s)) := by
  rcases commandResultList_eq s commands with hsome | ⟨-, hempty⟩
  · rw [hsome, map_answer, cmpResults_eq, uploadResults_eq,
      (answeredUploads_eq_iff s commands).mpr h.last, List.filter_eq_self.mpr h.cmps]
  · exact absurd hempty (by simp [startsEmpty_of_complete h.cmps])

theorem complete_of_length {s : Surroundings} {commands : List Command}
    (h : ((handleCommandAndFillResponse s commands).commandResultList.getD []).length =
      (attempted s commands).length) : Complete s commands := by
  rcases commandResultList_eq s commands with hsome | ⟨hnone, hempty⟩
  · have hcmps := List.length_filter_le (fun c : Command => c.commandValue.isSome)
      (attemptedCmps s commands)
    have huploads : (answeredUploads s commands).length ≤ (uploads s commands).length :=
      upTo_sublist.length_le
    rw [hsome, Option.getD_some, List.length_append, cmpResults_eq, uploadResults_eq,
      List.length_map, List.length_map, attempted, List.length_append] at h
    refine ⟨List.length_filter_eq_length_iff.mp (by omega),
      (answeredUploads_eq_iff s commands).mp ?_⟩
    exact upTo_sublist.eq_of_length (by show (answeredUploads s commands).length = _; omega)
  · -- there is no list although a CMP command has been attempted
    rw [hnone, Option.getD_none, List.length_nil] at h
    have hnil : attempted s commands = [] := List.eq_nil_of_length_eq_zero h.symm
    have hcmps := (List.append_eq_nil_iff.mp hnil).1
    have hfalse : startsEmpty (read s commands) = false :=
      startsEmpty_of_complete (by simp [hcmps])
    exact absurd hempty (by simp [hfalse])

/-- The id of the command is kept for its answer. -/
def KeepsId (s : Surroundings) (c : Command) : Prop :=
  (if c.isCmp then s.session else c.commandValue.isSome) = true

instance (s : Surroundings) (c : Command) : Decidable (KeepsId s c) :=
  inferInstanceAs (Decidable (_ = true))

theorem id_answer (s : Surroundings) (c : Command) :
    (answer s c).id = if KeepsId s c then c.getCommandId.toNat else 0 := by
  unfold answer KeepsId
  by_cases hc : c.isCmp = true
  · simp only [hc, if_true]
    exact id_cmpAnswer s c
  · simp only [hc]
    exact id_uploadAnswer s c

theorem id_answer_iff (s : Surroundings) (c : Command) :
    ((answer s c).id : Int) = c.id.toInt ↔ if KeepsId s c then 0 ≤ c.id else c.id = 0 := by
  rw [id_answer]
  split_ifs
  · exact toNat_getCommandId c
  · rw [← Int32.toInt_inj]
    exact eq_comm

/-- Answers that have the ids of the attempted commands have them one by one. -/
theorem id_answer_of_perm {s : Surroundings} {commands : List Command}
    (h : ((attempted s commands).map fun c => c.id.toInt).Perm
      ((attempted s commands).map fun c => ((answer s c).id : Int))) :
    ∀ c ∈ attempted s commands, ((answer s c).id : Int) = c.id.toInt := by
  refine eq_of_perm_map h fun c hc => ?_
  by_cases hkeeps : KeepsId s c
  · -- the id of the answer is that of some command, so it is not too large
    left
    have hmem := h.symm.subset (List.mem_map_of_mem hc)
    obtain ⟨d, -, hd⟩ := List.mem_map.mp hmem
    rw [id_answer, if_pos hkeeps] at hd ⊢
    exact (toNat_getCommandId c).mpr (toNat_getCommandId_lt c d hd.symm)
  · right
    rw [id_answer, if_neg hkeeps]
    rfl

/-- Nothing is done without data exactly when no upload hands nothing on. -/
theorem notExecuted_iff (s : Surroundings) (commands : List Command) :
    (∀ op ∈ (handleCommandAndFillResponse s commands).operations, op.data ≠ []) ↔
      ∀ c ∈ uploads s commands, UploadsData s c := by
  rw [operations_eq]
  constructor
  · intro h c hc
    refine (uploadsData_iff s c).mp fun op hop => h op ?_
    exact List.mem_append_left _ (List.mem_flatMap.mpr ⟨c, hc, hop⟩)
  · intro h op hop
    rcases List.mem_append.mp hop with hupload | hbatch
    · obtain ⟨c, hc, hop⟩ := List.mem_flatMap.mp hupload
      exact (uploadsData_iff s c).mpr (h c hc) op hop
    · exact data_ne_of_mem_batchOperations hbatch

theorem isError_answer {s : Surroundings} {commands : List Command}
    (h : ∀ c ∈ uploads s commands, UploadsData s c) {c : Command} (hc : c ∈ attempted s commands)
    (hdata : c.data = []) : (answer s c).isError = true := by
  rcases List.mem_append.mp hc with hcmp | hupload
  · rw [answer, if_pos (isCmp_of_mem_attemptedCmps hcmp)]
    exact isError_cmpAnswer s c hdata
  · rw [answer, if_neg (by simp [isCmp_of_mem_uploads hupload])]
    exact isError_uploadAnswer s c (h c hupload) hdata

/-- A request is answered once by its answers when there are enough of them. -/
theorem answeredOnce_iff (s : Surroundings) (commands : List Command) :
    AnsweredOnce s commands ↔ Complete s commands ∧
      (∀ c ∈ attempted s commands, ((answer s c).id : Int) = c.id.toInt) ∧
      ∀ c ∈ uploads s commands, UploadsData s c := by
  constructor
  · rintro ⟨⟨answers, hperm, hresults, hanswers⟩, hexecuted⟩
    have hcomplete : Complete s commands := by
      apply complete_of_length
      rw [← hresults, List.length_map, ← hperm.length_eq, List.length_map]
    refine ⟨hcomplete, ?_, (notExecuted_iff s commands).mp hexecuted⟩
    apply id_answer_of_perm
    have hsame : (answers.map Prod.fst).map (fun c => c.id.toInt) =
        (answers.map Prod.snd).map fun r => (r.id : Int) := by
      rw [List.map_map, List.map_map]
      exact List.map_congr_left fun a ha => (hanswers a ha).1.symm
    have hids := hperm.symm.map fun c => c.id.toInt
    rw [hsame, hresults, results_of_complete hcomplete, Option.getD_some, List.map_map] at hids
    exact hids
  · rintro ⟨hcomplete, hids, hdata⟩
    refine ⟨⟨(attempted s commands).map fun c => (c, answer s c), ?_, ?_, ?_⟩,
      (notExecuted_iff s commands).mpr hdata⟩
    · rw [List.map_map]
      exact List.Perm.of_eq (List.map_id _)
    · rw [results_of_complete hcomplete, List.map_map]
      rfl
    · intro a ha
      obtain ⟨c, hc, rfl⟩ := List.mem_map.mp ha
      exact ⟨hids c hc, isError_answer hdata hc⟩

/-- **Every command that is attempted is answered once, under its id**, exactly when the values of
the commands are there, their ids can be kept, and no upload is carried out without data. -/
theorem answeredOnce_iff_answerable (s : Surroundings) (commands : List Command) :
    AnsweredOnce s commands ↔ Answerable s commands := by
  rw [answeredOnce_iff]
  constructor
  · rintro ⟨hcomplete, hids, hdata⟩
    refine ⟨fun c hc => ⟨hcomplete.cmps c hc, ?_⟩, fun c hc => ?_, hcomplete.last⟩
    · have hid := (id_answer_iff s c).mp (hids c (List.mem_append_left _ hc))
      by_cases hsession : s.session = true
      · rw [if_pos (by simp [KeepsId, isCmp_of_mem_attemptedCmps hc, hsession])] at hid
        exact ⟨hid, fun h => absurd hsession (by simp [h])⟩
      · rw [if_neg (by simp [KeepsId, isCmp_of_mem_attemptedCmps hc, hsession])] at hid
        exact ⟨by rw [hid]; decide, fun _ => hid⟩
    · have hid := (id_answer_iff s c).mp (hids c (List.mem_append_right _ hc))
      refine ⟨fun hvalue => ⟨?_, hdata c hc hvalue⟩, fun hvalue => ?_⟩
      · rwa [if_pos (by simp [KeepsId, isCmp_of_mem_uploads hc, hvalue])] at hid
      · rwa [if_neg (by simp [KeepsId, isCmp_of_mem_uploads hc, hvalue])] at hid
  · intro h
    refine ⟨⟨fun c hc => (h.cmps c hc).1, h.last⟩, fun c hc => ?_,
      fun c hc hvalue => ((h.uploads c hc).1 hvalue).2⟩
    rw [id_answer_iff]
    rcases List.mem_append.mp hc with hcmp | hupload
    · obtain ⟨-, hnonneg, hzero⟩ := h.cmps c hcmp
      split_ifs with hkeeps
      · exact hnonneg
      · exact hzero (by simpa [KeepsId, isCmp_of_mem_attemptedCmps hcmp] using hkeeps)
    · obtain ⟨hvalued, hvalueless⟩ := h.uploads c hupload
      split_ifs with hkeeps
      · exact (hvalued (by simpa [KeepsId, isCmp_of_mem_uploads hupload] using hkeeps)).1
      · exact hvalueless (by simpa [KeepsId, isCmp_of_mem_uploads hupload] using hkeeps)

/-! ## An id that is not kept -/

/-- Nothing becomes of a command. -/
def idle : CmpExecution := ⟨false, 0, .answered, ⟨false, none, 0, 0⟩, true⟩

/-- The callback is asked to install a trustlet. -/
def negativeId : Command := ⟨.tltUpload, -1, none, some "AA==", idle, 0⟩

def provisioning : Surroundings := ⟨true, none, true⟩

/-- The result has another id, beyond those that the schema allows. -/
theorem answeredOnce_negativeId :
    (handleCommandAndFillResponse provisioning [negativeId]).commandResultList =
        some [⟨4294967295, .resultValue "AA=="⟩] ∧
      ¬ AnsweredOnce provisioning [negativeId] := by
  have hresults : (handleCommandAndFillResponse provisioning [negativeId]).commandResultList =
      some [⟨4294967295, .resultValue "AA=="⟩] := by decide
  have hattempted : attempted provisioning [negativeId] = [negativeId] := by decide
  refine ⟨hresults, ?_⟩
  rintro ⟨⟨answers, hperm, hresult, hanswers⟩, -⟩
  rw [hresults] at hresult
  rw [hattempted] at hperm
  obtain ⟨a, rfl⟩ : ∃ a, answers = [a] := List.length_eq_one_iff.mp (by simpa using hperm.length_eq)
  have hcommand : a.1 = negativeId := by simpa using hperm
  have hid : a.2.id = 4294967295 := by
    have hsnd : a.2 = ⟨4294967295, .resultValue "AA=="⟩ := by simpa using hresult
    rw [hsnd]
  have hsame := (hanswers a List.mem_cons_self).1
  rw [hid, hcommand] at hsame
  exact absurd hsame (by decide)

end McDaemon.RootPa.Commands
