/-
# McDaemon.RootPa.CommandOrder — commands take effect in the order of the document.

The document asks for one command after the other, up to the first that fails and is not to be
ignored.  The code runs all uploads before the first CMP command, and either loop looks at its own
failures only: an upload behind a failed CMP command is executed, and an empty CMP command stops
nothing.
-/
import McDaemon.RootPa.CommandRuns

namespace McDaemon.RootPa.Commands

open McDaemon.Lib

/-! ## One command after the other -/

/-- An auth token takes effect when it is stored. -/
def Operation.takesEffect : Operation → Bool
  | .authToken _ mcRet => mcRet = mcDrvOk
  | .cmpCommand _ | .trustlet _ => true

namespace Command

/-- `ignoreError` as an `xsd:boolean`. -/
def ignoresError (c : Command) : Bool := c.ignoreError = some "true" || c.ignoreError = some "1"

/-- The command fails: it has no data, or its execution fails. -/
def fails (s : Surroundings) (c : Command) : Bool :=
  match c.type with
  | .cmp => c.data = [] || !s.session || c.cmpCommand.fails
  | .soUpload | .tltUpload => c.data = [] || c.uploadFails s
  | .unknown => false

/-- The effects of the command by itself. -/
def effects (s : Surroundings) (c : Command) : List Operation :=
  if c.data = [] then []
  else
    match c.type with
    | .cmp => if s.session then c.cmpCommand.operations else []
    | .soUpload | .tltUpload => (uploadOperations s c).filter Operation.takesEffect
    | .unknown => []

/-- The document stops at the command. -/
def stops (s : Surroundings) (c : Command) : Bool := c.fails s && !c.ignoresError

end Command

/-- The effects of the commands one after the other, up to where the document stops. -/
def inTurn (s : Surroundings) : List Command → List Operation
  | [] => []
  | c :: rest => c.effects s ++ if c.stops s then [] else inTurn s rest

/-- What the request has in effect done. -/
def effects (s : Surroundings) (commands : List Command) : List Operation :=
  (handleCommandAndFillResponse s commands).operations.filter Operation.takesEffect

/-! ## The condition -/

/-- The loop over the document gets past these commands. -/
def GoesOn (s : Surroundings) (commands : List Command) : Prop := Passed (leaves s) [] commands

/-- None of the CMP commands ends the batch. -/
def BatchGoesOn (commands : List Command) : Prop :=
  ∀ c ∈ commands, c.isCmp = true → c.cmpCommand.stops = false

/-- The document does not stop at any of these commands. -/
def Proceeds (s : Surroundings) (commands : List Command) : Prop :=
  ∀ c ∈ commands, c.stops s = false

/-- No upload without data takes effect, none that takes effect comes behind a CMP command that
does, and a command that takes effect is kept from it by one before exactly when the document stops
at one before. -/
structure Sequential (s : Surroundings) (commands : List Command) : Prop where
  data : ∀ c ∈ uploads s commands, c.data = [] →
    (uploadOperations s c).filter Operation.takesEffect = []
  uploads : ∀ pre c post, commands = pre ++ c :: post → c.isUpload = true → c.effects s ≠ [] →
    (GoesOn s pre ↔ Proceeds s pre)
  cmps : ∀ pre c post, commands = pre ++ c :: post → c.isCmp = true → c.effects s ≠ [] →
    (GoesOn s pre ∧ BatchGoesOn pre ↔ Proceeds s pre)
  order : ∀ pre c mid d post, commands = pre ++ c :: (mid ++ d :: post) →
    Proceeds s (pre ++ c :: mid) → c.isCmp = true → c.effects s ≠ [] → d.isUpload = true →
    d.effects s = []

/-! ## Runs -/

theorem inTurn_eq (s : Surroundings) (commands before : List Command) :
    inTurn s commands =
      (upTo (fun _ => Command.stops s) before commands).flatMap (Command.effects s) := by
  induction commands generalizing before with
  | nil => rfl
  | cons c rest ih =>
    rw [inTurn, upTo, List.flatMap_cons]
    split_ifs
    · rfl
    · rw [ih]

namespace Command

/-- What an upload has in effect done, with data or without. -/
def uploadEffects (s : Surroundings) (c : Command) : List Operation :=
  if c.isUpload then (uploadOperations s c).filter Operation.takesEffect else []

/-- The effects of an upload with data. -/
def effectsOfUpload (s : Surroundings) (c : Command) : List Operation :=
  if c.isUpload then c.effects s else []

def effectsOfCmp (s : Surroundings) (c : Command) : List Operation :=
  if c.isCmp then c.effects s else []

end Command

/-- The operation is that of an upload. -/
def Operation.isUpload : Operation → Bool
  | .cmpCommand _ => false
  | .authToken _ _ | .trustlet _ => true

theorem mem_uploadOperations {s : Surroundings} {c : Command} {op : Operation}
    (h : op ∈ uploadOperations s c) : op.isUpload = true ∧ op.data = c.data := by
  unfold uploadOperations at h
  cases hvalue : c.commandValue with
  | none => simp [hvalue] at h
  | some text =>
    simp only [hvalue] at h
    split_ifs at h
    · rw [List.mem_singleton.mp h]
      exact ⟨rfl, rfl⟩
    · exact absurd h List.not_mem_nil
    · rw [List.mem_singleton.mp h]
      exact ⟨rfl, rfl⟩

theorem mem_cmpCommand_operations {m : CmpCommand} {op : Operation} (h : op ∈ m.operations) :
    op = .cmpCommand m.content := by
  unfold CmpCommand.operations cmpOperations at h
  split_ifs at h
  · exact absurd h List.not_mem_nil
  · exact List.mem_singleton.mp h
  · exact absurd h List.not_mem_nil

namespace Command

variable {s : Surroundings} {c : Command}

theorem effects_of_upload (h : c.isUpload = true) :
    c.effects s = if c.data = [] then [] else (uploadOperations s c).filter Operation.takesEffect := by
  unfold effects
  cases htype : c.type <;> simp [isUpload, htype] at h ⊢

theorem effects_of_cmp (h : c.isCmp = true) :
    c.effects s = if s.session then c.cmpCommand.operations else [] := by
  have htype : c.type = .cmp := by simpa [isCmp] using h
  unfold effects
  rw [htype]
  by_cases hdata : c.data = []
  · have hnone : c.cmpCommand.operations = [] := by
      simp [CmpCommand.operations, cmpCommand, hdata]
    rw [if_pos hdata, hnone, ite_self]
  · rw [if_neg hdata]

theorem mem_effectsOfUpload {op : Operation} (h : op ∈ c.effectsOfUpload s) :
    op.isUpload = true ∧ op ∈ c.uploadEffects s ∧ c.data ≠ [] := by
  unfold effectsOfUpload at h
  split_ifs at h with hupload
  · rw [effects_of_upload hupload] at h
    split_ifs at h with hdata
    · exact absurd h List.not_mem_nil
    · refine ⟨(mem_uploadOperations (List.mem_filter.mp h).1).1, ?_, hdata⟩
      rwa [uploadEffects, if_pos hupload]
  · exact absurd h List.not_mem_nil

theorem isUpload_of_mem_effectsOfCmp {op : Operation} (h : op ∈ c.effectsOfCmp s) :
    op.isUpload = false := by
  unfold effectsOfCmp at h
  split_ifs at h with hcmp
  · rw [effects_of_cmp hcmp] at h
    split_ifs at h
    · rw [mem_cmpCommand_operations h]
      rfl
    · exact absurd h List.not_mem_nil
  · exact absurd h List.not_mem_nil

/-- A command is an upload or a CMP command or has no effects. -/
theorem effects_eq (s : Surroundings) (c : Command) :
    c.effects s = c.effectsOfUpload s ++ c.effectsOfCmp s := by
  unfold effectsOfUpload effectsOfCmp effects
  cases htype : c.type <;> simp [isUpload, isCmp, htype]

theorem filter_effects (s : Surroundings) (c : Command) :
    (c.effects s).filter Operation.isUpload = c.effectsOfUpload s ∧
      (c.effects s).filter (fun op => !op.isUpload) = c.effectsOfCmp s := by
  have hupload : ∀ op ∈ c.effectsOfUpload s, op.isUpload = true :=
    fun op h => (mem_effectsOfUpload h).1
  have hcmp : ∀ op ∈ c.effectsOfCmp s, op.isUpload = false :=
    fun op h => isUpload_of_mem_effectsOfCmp h
  have hsplit := (append_eq_iff_filter hupload hcmp).mp (effects_eq s c).symm
  exact ⟨hsplit.1.symm, hsplit.2.1.symm⟩

end Command

/-- The loop over the document and the loop over the batch, as one run. -/
def leavesOrEnds (s : Surroundings) (before : List Command) (c : Command) : Bool :=
  leaves s before c || (c.isCmp && c.cmpCommand.stops)

theorem passed_leavesOrEnds (s : Surroundings) (commands : List Command) :
    Passed (leavesOrEnds s) [] commands ↔ GoesOn s commands ∧ BatchGoesOn commands := by
  unfold leavesOrEnds
  rw [passed_or (p := leaves s) (r := fun c : Command => c.isCmp && c.cmpCommand.stops)]
  refine and_congr Iff.rfl (forall₂_congr fun c _ => ?_)
  cases c.isCmp <;> simp

theorem flatMap_filter {α β : Type} (p : α → Bool) (f : α → List β) (l : List α) :
    (l.filter p).flatMap f = l.flatMap fun a => if p a then f a else [] := by
  induction l with
  | nil => rfl
  | cons a l ih => by_cases h : p a = true <;> simp [h, ih]

theorem effectsOfCmp_eq (s : Surroundings) (hsession : s.session = true) (c : Command) :
    (if c.isBatched then c.cmpCommand.operations else []) = c.effectsOfCmp s := by
  unfold Command.effectsOfCmp
  by_cases hcmp : c.isCmp = true
  · rw [if_pos hcmp, Command.effects_of_cmp hcmp, if_pos hsession]
    cases hvalue : c.commandValue with
    | none =>
      have hdata : c.data = [] := by simp [Command.data, hvalue]
      simp [Command.isBatched, hvalue, CmpCommand.operations, Command.cmpCommand, hdata]
    | some text => simp [Command.isBatched, hcmp, hvalue]
  · rw [if_neg hcmp]
    simp [Command.isBatched, hcmp]

theorem batchOperations_eq (s : Surroundings) (commands : List Command) :
    batchOperations s commands =
      (upTo (leavesOrEnds s) [] commands).flatMap (Command.effectsOfCmp s) := by
  unfold batchOperations
  by_cases hsession : s.session = true
  · have hloops : batched (batch s commands) =
        ((upTo (leavesOrEnds s) [] commands).filter Command.isBatched).map Command.cmpCommand := by
      rw [batched, batch, upTo_map [], read, upTo_filter_upTo]
      congr 2
      refine upTo_congr fun before c => ?_
      rw [leavesOrEnds]
      cases hvalue : c.commandValue with
      | none =>
        have hdata : c.data = [] := by simp [Command.data, hvalue]
        simp [CmpCommand.stops, CmpCommand.fails, Command.cmpCommand, hdata]
      | some text => simp [Command.isBatched, hvalue]
    rw [if_pos hsession, hloops, List.flatMap_map, flatMap_filter]
    exact congrArg (List.flatMap · _) (funext fun c => effectsOfCmp_eq s hsession c)
  · rw [if_neg hsession]
    symm
    rw [List.flatMap_eq_nil_iff]
    intro c _
    unfold Command.effectsOfCmp
    split_ifs with hcmp
    · rw [Command.effects_of_cmp hcmp, if_neg hsession]
    · rfl

/-- **What the request has in effect done**, as two runs over the document. -/
theorem effects_eq_runs (s : Surroundings) (commands : List Command) :
    effects s commands =
      (read s commands).flatMap (Command.uploadEffects s) ++
        (upTo (leavesOrEnds s) [] commands).flatMap (Command.effectsOfCmp s) := by
  have hbatch : (batchOperations s commands).filter Operation.takesEffect =
      batchOperations s commands := by
    refine List.filter_eq_self.mpr fun op hop => ?_
    unfold batchOperations at hop
    split_ifs at hop
    · obtain ⟨m, -, hop⟩ := List.mem_flatMap.mp hop
      rw [mem_cmpCommand_operations hop]
      rfl
    · exact absurd hop List.not_mem_nil
  rw [effects, operations_eq, List.filter_append, hbatch, batchOperations_eq, uploads,
    flatMap_filter, List.filter_flatMap]
  congr 2
  funext c
  unfold Command.uploadEffects
  split_ifs <;> rfl

/-- The two runs are the effects in turn exactly when they are its two kinds, in this order. -/
theorem effects_eq_inTurn_iff (s : Surroundings) (commands : List Command) :
    effects s commands = inTurn s commands ↔
      (read s commands).flatMap (Command.uploadEffects s) =
          (upTo (fun _ => Command.stops s) [] commands).flatMap (Command.effectsOfUpload s) ∧
        (upTo (leavesOrEnds s) [] commands).flatMap (Command.effectsOfCmp s) =
          (upTo (fun _ => Command.stops s) [] commands).flatMap (Command.effectsOfCmp s) ∧
        (inTurn s commands).Pairwise fun a b => b.isUpload = true → a.isUpload = true := by
  have hupload : ∀ op ∈ (read s commands).flatMap (Command.uploadEffects s),
      op.isUpload = true := by
    intro op hop
    obtain ⟨c, -, hop⟩ := List.mem_flatMap.mp hop
    unfold Command.uploadEffects at hop
    split_ifs at hop
    · exact (mem_uploadOperations (List.mem_filter.mp hop).1).1
    · exact absurd hop List.not_mem_nil
  have hcmp : ∀ op ∈ (upTo (leavesOrEnds s) [] commands).flatMap (Command.effectsOfCmp s),
      op.isUpload = false := by
    intro op hop
    obtain ⟨c, -, hop⟩ := List.mem_flatMap.mp hop
    exact Command.isUpload_of_mem_effectsOfCmp hop
  have huploads : (inTurn s commands).filter Operation.isUpload =
      (upTo (fun _ => Command.stops s) [] commands).flatMap (Command.effectsOfUpload s) := by
    rw [inTurn_eq s commands [], List.filter_flatMap]
    exact congrArg (List.flatMap · _) (funext fun c => (c.filter_effects s).1)
  have hcmps : (inTurn s commands).filter (fun op => !op.isUpload) =
      (upTo (fun _ => Command.stops s) [] commands).flatMap (Command.effectsOfCmp s) := by
    rw [inTurn_eq s commands [], List.filter_flatMap]
    exact congrArg (List.flatMap · _) (funext fun c => (c.filter_effects s).2)
  rw [effects_eq_runs, append_eq_iff_filter hupload hcmp, huploads, hcmps]

/-! ## Commands that take effect -/

theorem effectsOfUpload_ne_iff (s : Surroundings) (c : Command) :
    c.effectsOfUpload s ≠ [] ↔ c.isUpload = true ∧ c.effects s ≠ [] := by
  unfold Command.effectsOfUpload
  split_ifs with h <;> simp [h]

theorem effectsOfCmp_ne_iff (s : Surroundings) (c : Command) :
    c.effectsOfCmp s ≠ [] ↔ c.isCmp = true ∧ c.effects s ≠ [] := by
  unfold Command.effectsOfCmp
  split_ifs with h <;> simp [h]

theorem data_of_mem_uploadEffects {s : Surroundings} {c : Command} {op : Operation}
    (h : op ∈ c.uploadEffects s) : op.data = c.data := by
  unfold Command.uploadEffects at h
  split_ifs at h
  · exact (mem_uploadOperations (List.mem_filter.mp h).1).2
  · exact absurd h List.not_mem_nil

/-- Uploads that have data have the effects that they should have. -/
theorem uploadEffects_eq {s : Surroundings} {c : Command}
    (h : c.isUpload = true → c.data = [] →
      (uploadOperations s c).filter Operation.takesEffect = []) :
    c.uploadEffects s = c.effectsOfUpload s := by
  unfold Command.uploadEffects Command.effectsOfUpload
  split_ifs with hupload
  · rw [Command.effects_of_upload hupload]
    split_ifs with hdata
    · exact h hupload hdata
    · rfl
  · rfl

theorem uploadRuns_eq_iff (s : Surroundings) (commands : List Command) :
    (read s commands).flatMap (Command.uploadEffects s) =
        (upTo (fun _ => Command.stops s) [] commands).flatMap (Command.effectsOfUpload s) ↔
      (∀ c ∈ uploads s commands, c.data = [] →
        (uploadOperations s c).filter Operation.takesEffect = []) ∧
      ∀ pre c post, commands = pre ++ c :: post → c.isUpload = true → c.effects s ≠ [] →
        (GoesOn s pre ↔ Proceeds s pre) := by
  have hruns : (upTo (leaves s) [] commands).flatMap (Command.effectsOfUpload s) =
      (upTo (fun _ => Command.stops s) [] commands).flatMap (Command.effectsOfUpload s) ↔
      ∀ pre c post, commands = pre ++ c :: post → c.isUpload = true → c.effects s ≠ [] →
        (GoesOn s pre ↔ Proceeds s pre) := by
    rw [flatMap_upTo_eq_iff]
    simp only [effectsOfUpload_ne_iff, passed_const, and_imp]
    rfl
  have hsame (hdata : ∀ c ∈ uploads s commands, c.data = [] →
      (uploadOperations s c).filter Operation.takesEffect = []) :
      (read s commands).flatMap (Command.uploadEffects s) =
        (upTo (leaves s) [] commands).flatMap (Command.effectsOfUpload s) :=
    List.flatMap_congr fun c hc =>
      uploadEffects_eq fun hupload => hdata c (List.mem_filter.mpr ⟨hc, hupload⟩)
  constructor
  · intro heq
    have hdata : ∀ c ∈ uploads s commands, c.data = [] →
        (uploadOperations s c).filter Operation.takesEffect = [] := by
      intro c hc hempty
      rw [List.eq_nil_iff_forall_not_mem]
      intro op hop
      obtain ⟨hread, hupload⟩ := List.mem_filter.mp hc
      have hmem : op ∈ c.uploadEffects s := by rwa [Command.uploadEffects, if_pos hupload]
      -- in turn nothing takes effect without data
      have hright := heq ▸ List.mem_flatMap.mpr ⟨c, hread, hmem⟩
      obtain ⟨d, -, hd⟩ := List.mem_flatMap.mp hright
      obtain ⟨-, hd, hdata⟩ := Command.mem_effectsOfUpload hd
      rw [← data_of_mem_uploadEffects hd, data_of_mem_uploadEffects hmem] at hdata
      exact hdata hempty
    rw [hsame hdata, hruns] at heq
    exact ⟨hdata, heq⟩
  · rintro ⟨hdata, hgoes⟩
    rw [hsame hdata]
    exact hruns.mpr hgoes

theorem cmpRuns_eq_iff (s : Surroundings) (commands : List Command) :
    (upTo (leavesOrEnds s) [] commands).flatMap (Command.effectsOfCmp s) =
        (upTo (fun _ => Command.stops s) [] commands).flatMap (Command.effectsOfCmp s) ↔
      ∀ pre c post, commands = pre ++ c :: post → c.isCmp = true → c.effects s ≠ [] →
        (GoesOn s pre ∧ BatchGoesOn pre ↔ Proceeds s pre) := by
  rw [flatMap_upTo_eq_iff]
  simp only [effectsOfCmp_ne_iff, passed_const, passed_leavesOrEnds, and_imp]
  rfl

/-- An effect is of the kind of its command. -/
theorem mem_effects {s : Surroundings} {c : Command} {op : Operation} (h : op ∈ c.effects s) :
    c.isUpload = true ∧ op.isUpload = true ∨ c.isCmp = true ∧ op.isUpload = false := by
  rw [Command.effects_eq] at h
  rcases List.mem_append.mp h with hmem | hmem
  · have hupload := ((effectsOfUpload_ne_iff s c).mp (List.ne_nil_of_mem hmem)).1
    exact Or.inl ⟨hupload, (Command.mem_effectsOfUpload hmem).1⟩
  · have hcmp := ((effectsOfCmp_ne_iff s c).mp (List.ne_nil_of_mem hmem)).1
    exact Or.inr ⟨hcmp, Command.isUpload_of_mem_effectsOfCmp hmem⟩

theorem isUpload_eq_false_of_isCmp {c : Command} (h : c.isCmp = true) : c.isUpload = false := by
  have htype : c.type = .cmp := by simpa [Command.isCmp] using h
  simp [Command.isUpload, htype]

theorem kinds_in_order_iff (s : Surroundings) (c d : Command) :
    (∀ a ∈ c.effects s, ∀ b ∈ d.effects s, b.isUpload = true → a.isUpload = true) ↔
      (c.isCmp = true → c.effects s ≠ [] → d.isUpload = true → d.effects s = []) := by
  constructor
  · intro h hcmp hc hupload
    by_contra hd
    obtain ⟨a, ha⟩ := List.exists_mem_of_ne_nil _ hc
    obtain ⟨b, hb⟩ := List.exists_mem_of_ne_nil _ hd
    have hcupload := isUpload_eq_false_of_isCmp hcmp
    rcases mem_effects ha with ⟨hu, -⟩ | ⟨-, ha'⟩
    · exact absurd hu (by simp [hcupload])
    · rcases mem_effects hb with ⟨-, hb'⟩ | ⟨hdcmp, -⟩
      · exact absurd (h a ha b hb hb') (by simp [ha'])
      · exact absurd hupload (by simp [isUpload_eq_false_of_isCmp hdcmp])
  · intro h a ha b hb hbupload
    rcases mem_effects ha with ⟨-, ha'⟩ | ⟨hcmp, -⟩
    · exact ha'
    · rcases mem_effects hb with ⟨hupload, -⟩ | ⟨-, hb'⟩
      · exact absurd hb (by simp [h hcmp (List.ne_nil_of_mem ha) hupload])
      · exact absurd hbupload (by simp [hb'])

theorem pairwise_inTurn_iff (s : Surroundings) (commands : List Command) :
    ((inTurn s commands).Pairwise fun a b => b.isUpload = true → a.isUpload = true) ↔
      ∀ pre c mid d post, commands = pre ++ c :: (mid ++ d :: post) →
        Proceeds s (pre ++ c :: mid) → c.isCmp = true → c.effects s ≠ [] → d.isUpload = true →
        d.effects s = [] := by
  have hone (c : Command) :
      (c.effects s).Pairwise fun a b => b.isUpload = true → a.isUpload = true := by
    refine List.pairwise_of_forall_mem_list fun a ha b hb hbupload => ?_
    rcases mem_effects ha with ⟨-, ha'⟩ | ⟨hcmp, -⟩
    · exact ha'
    · rcases mem_effects hb with ⟨hupload, -⟩ | ⟨-, hb'⟩
      · exact absurd hupload (by simp [isUpload_eq_false_of_isCmp hcmp])
      · exact absurd hbupload (by simp [hb'])
  rw [inTurn_eq s commands [], List.pairwise_flatMap, pairwise_upTo_iff]
  simp only [kinds_in_order_iff, passed_const]
  exact and_iff_right fun c _ => hone c

/-- **Commands take effect in the order of the document** exactly when uploads come first, and the
loops are stopped where the document is. -/
theorem inOrder_iff_sequential (s : Surroundings) (commands : List Command) :
    effects s commands = inTurn s commands ↔ Sequential s commands := by
  rw [effects_eq_inTurn_iff, uploadRuns_eq_iff, cmpRuns_eq_iff, pairwise_inTurn_iff]
  constructor
  · rintro ⟨⟨hdata, huploads⟩, hcmps, horder⟩
    exact ⟨hdata, huploads, hcmps, horder⟩
  · intro h
    exact ⟨⟨h.data, h.uploads⟩, h.cmps, h.order⟩

/-! ## An upload behind a command -/

/-- The content management trustlet carries the command out. -/
def carriedOut : CmpExecution := ⟨true, 0, .answered, ⟨true, some [], 0, 0⟩, true⟩

def cmpFirst : Command := ⟨.cmp, 1, none, some "AAAAAA==", carriedOut, 0⟩

def uploadBehind : Command := ⟨.soUpload, 2, none, some "AQ==", carriedOut, 0⟩

def openSession : Surroundings := ⟨true, none, false⟩

/-- Both succeed, and the upload takes effect before the command. -/
theorem inOrder_uploadBehind :
    effects openSession [cmpFirst, uploadBehind] =
        [.authToken [1] 0, .cmpCommand [0, 0, 0, 0]] ∧
      inTurn openSession [cmpFirst, uploadBehind] =
        [.cmpCommand [0, 0, 0, 0], .authToken [1] 0] ∧
      effects openSession [cmpFirst, uploadBehind] ≠
        inTurn openSession [cmpFirst, uploadBehind] := by
  have heffects : effects openSession [cmpFirst, uploadBehind] =
      [.authToken [1] 0, .cmpCommand [0, 0, 0, 0]] := by decide
  have hinTurn : inTurn openSession [cmpFirst, uploadBehind] =
      [.cmpCommand [0, 0, 0, 0], .authToken [1] 0] := by decide
  refine ⟨heffects, hinTurn, ?_⟩
  rw [heffects, hinTurn]
  decide

end McDaemon.RootPa.Commands
