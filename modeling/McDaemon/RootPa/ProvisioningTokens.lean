/-
# McDaemon.RootPa.ProvisioningTokens — no message of the service enabler is used when it is gone.

At the start of a round nothing is kept as "used", and the strings that are current or pending are
owned by the loop.  A round that gets an answer owns twice three strings, and gives up the old ones
at its end.  Behind `relation/self` the old ones are current again at the end of the next round,
where the relation is the old one, and they are given up all the same.
-/
import McDaemon.RootPa.Provisioning

namespace McDaemon.RootPa.Provisioning

open McDaemon.Lib

/-! ## The property -/

def Event.IsRequest : Event → Prop
  | .requested .. => True
  | _ => False

def Event.AnswersSelf : Event → Prop
  | .answered relP => relP.Has "relation/self"
  | _ => False

/-- The first request behind an answer `relation/self` is the one that was answered. -/
def Repeats (log : List Event) : Prop :=
  ∀ before between behind linkP relP commandP self linkP' relP' commandP',
    log = before ++ .requested linkP relP commandP :: .answered self :: between ++
      .requested linkP' relP' commandP' :: behind →
    self.Has "relation/self" → (∀ e ∈ between, ¬ e.IsRequest) →
    linkP' = linkP ∧ relP' = relP ∧ commandP' = commandP

/-- Whatever the rounds bring: no string is touched when it has been freed, and requests are
repeated when that is asked for. -/
def NeverReuses (s : Loop) (inputs : Nat → RoundInput) : Prop :=
  ∀ n t, loopState Loop.round s inputs n = some t → strings.Safe t.history ∧ Repeats t.history

/-! ## What goes wrong -/

namespace Loop

/-- The round makes a request. -/
def sends (s : Loop) (i : RoundInput) : Prop :=
  s.linkP ≠ .null ∧
    match s.relP.relation with
    | .systemInfo => s.buildXmlSystemInfo i ≠ none
    | .initialDelete | .initialPost | .next => True
    | .result => (s.handleXmlMessage i).2 ≠ none
    | .self | .unknown => False

/-- A request is answered with success and `relation/self`, and there is a command in the request or
in the answer. -/
def AskedAgain (s : Loop) (i : RoundInput) : Prop :=
  s.workToDo = true ∧ s.sends i ∧ ∃ code link rel command,
    i.http = .answered code link (some rel) command ∧ httpResult code = rootpaOk ∧
    "relation/self".toList <:+: rel.toList ∧ (s.commandP ≠ .null ∨ command ≠ none)

/-- The system information cannot be dumped, and an error has been noted already, in this round or
an earlier one. -/
def NothingSent (s : Loop) (i : RoundInput) : Prop :=
  s.workToDo = true ∧ s.relP.relation = .systemInfo ∧ i.buildXml = rootpaOk ∧ i.dumped = none ∧
    s.systemInfoRet i ≠ rootpaOk

end Loop

/-! ## Strings that are held -/

def tokens (ps : List Ptr) : List Nat := ps.filterMap Ptr.token

@[simp] theorem token_null : Ptr.null.token = none := rfl

@[simp] theorem tokens_nil : tokens [] = [] := rfl

theorem tokens_cons (p : Ptr) (ps : List Ptr) : tokens (p :: ps) = p.token.toList ++ tokens ps := by
  cases h : p.token <;> simp [tokens, h]

@[simp] theorem tokens_null (ps : List Ptr) : tokens (.null :: ps) = tokens ps := rfl

theorem mem_tokens {ps : List Ptr} {t : Nat} : t ∈ tokens ps ↔ ∃ p ∈ ps, p.token = some t :=
  List.mem_filterMap

/-- The strings behind `ps` are owned by who writes the log, and tokens are given out in order. -/
structure Held (log : List Event) (allocated : Nat) (ps : List Ptr) : Prop where
  owns : strings.Owns log (tokens ps)
  bound : ∀ t ∈ tokens ps, t < allocated
  gone : ∀ t ∈ strings.gone log, t < allocated

section Held

variable {log : List Event} {n : Nat} {ps qs : List Ptr}

theorem Held.congr (h : Held log n ps) (hp : tokens ps = tokens qs) : Held log n qs := by
  refine ⟨?_, ?_, h.gone⟩
  · rw [← hp]
    exact h.owns
  · rw [← hp]
    exact h.bound

theorem Held.perm (h : Held log n ps) (hp : ps.Perm qs) : Held log n qs := by
  have hperm : (tokens ps).Perm (tokens qs) := hp.filterMap _
  exact ⟨h.owns.perm hperm, fun t ht => h.bound t (hperm.mem_iff.mpr ht), h.gone⟩

theorem Held.sublist (h : Held log n ps) (hs : qs.Sublist ps) : Held log n qs := by
  have hsub : (tokens qs).Sublist (tokens ps) := hs.filterMap _
  exact ⟨⟨h.owns.safe, h.owns.nodup.sublist hsub, fun t ht => h.owns.live t (hsub.mem ht)⟩,
    fun t ht => h.bound t (hsub.mem ht), h.gone⟩

theorem Held.read {e : Event} (h : Held log n ps) (he : e.released = none)
    (ht : ∀ t ∈ e.touched, t ∈ tokens ps) : Held (log ++ [e]) n ps := by
  refine ⟨h.owns.read he ht, h.bound, ?_⟩
  rw [Ledger.gone_append, Ledger.gone_singleton, show strings.released e = none from he]
  simpa using h.gone

theorem Held.look {p : Ptr} (h : Held log n ps) (hp : p ∈ ps) : Held (log ++ look p) n ps := by
  unfold Provisioning.look
  split
  · rwa [List.append_nil]
  · refine h.read rfl fun t ht => ?_
    exact mem_tokens.mpr ⟨p, hp, Option.mem_toList.mp ht⟩

/-- A string that is not allocated on the heap costs nothing to free. -/
theorem Held.free {p : Ptr} (h : Held log n (p :: ps)) : Held (log ++ free p) n ps := by
  unfold Provisioning.free
  split
  · next hp =>
    subst hp
    rw [List.append_nil]
    exact ⟨h.owns, h.bound, h.gone⟩
  · cases hp : p.token with
    | none =>
      have hps : tokens (p :: ps) = tokens ps := by rw [tokens_cons, hp, Option.toList_none]; rfl
      have h' := h.congr hps
      refine h'.read hp fun t ht => ?_
      rw [show (Event.freed p).touched = p.token.toList from rfl, hp] at ht
      cases ht
    | some t =>
      have hps : tokens (p :: ps) = t :: tokens ps := by rw [tokens_cons, hp]; rfl
      have howns := h.owns
      rw [hps] at howns
      refine ⟨howns.release (t := t) hp (by rw [← Option.toList_some, ← hp]; rfl), fun u hu => ?_,
        fun u hu => ?_⟩
      · exact h.bound u (by rw [hps]; exact List.mem_cons_of_mem _ hu)
      · rw [Ledger.gone_append, Ledger.gone_singleton,
          show strings.released (.freed p) = some t from hp, Option.toList_some,
          List.mem_append, List.mem_singleton] at hu
        rcases hu with hu | rfl
        · exact h.gone u hu
        · exact h.bound u (by rw [hps]; exact List.mem_cons_self)

theorem Held.cleanup {linkP relP commandP : Ptr}
    (h : Held log n (linkP :: relP :: commandP :: ps)) :
    Held (log ++ cleanup linkP relP commandP) n ps := by
  have hc : Held log n (commandP :: relP :: linkP :: ps) :=
    h.perm ((List.reverse_perm [linkP, relP, commandP]).symm.append_right ps)
  unfold Provisioning.cleanup
  rw [← List.append_assoc, ← List.append_assoc]
  refine Held.free ?_
  have hr := hc.free
  split
  · exact hr.free
  · next hconst =>
    rw [List.append_nil]
    have htoken : relP.token = none := by
      by_cases hpost : relP = .initialPost
      · rw [hpost]; rfl
      · by_cases hdelete : relP = .initialDelete
        · rw [hdelete]; rfl
        · exact absurd ⟨hpost, hdelete⟩ hconst
    refine hr.congr ?_
    rw [tokens_cons, htoken, Option.toList_none, List.nil_append]

/-- The strings of an answer. -/
theorem Held.fresh (h : Held log n ps) (text : Option String) :
    Held log (n + 1) (Loop.fresh n text :: ps) := by
  cases text with
  | none =>
    exact ⟨h.owns, fun t ht => Nat.lt_succ_of_lt (h.bound t ht), fun t ht =>
      Nat.lt_succ_of_lt (h.gone t ht)⟩
  | some text =>
    refine ⟨h.owns.allocate (t := n) ?_ ?_, fun t ht => ?_, fun t ht =>
      Nat.lt_succ_of_lt (h.gone t ht)⟩
    · exact fun hmem => Nat.lt_irrefl _ (h.bound n hmem)
    · exact fun hmem => Nat.lt_irrefl _ (h.gone n hmem)
    · rcases List.mem_cons.mp ht with rfl | ht
      · exact Nat.lt_succ_self _
      · exact Nat.lt_succ_of_lt (h.bound t ht)

end Held

/-! ## What one request does -/

namespace Loop

/-- The results, and whether the loop goes on. -/
def set (s : Loop) (ret tmpRet : RootpaError) (responseP : Option String) (workToDo : Bool) :
    Loop :=
  { s with ret := ret, tmpRet := tmpRet, responseP := responseP, workToDo := workToDo }

def tell (s : Loop) (evs : List Event) : Loop := { s with log := s.log ++ evs }

/-- A request has been made. -/
def ask (s : Loop) : Loop := s.tell [.requested s.linkP s.relP s.commandP]

/-- And there is no answer. -/
def lose (s : Loop) : Loop := { s.ask with relP := .null, commandP := .null }

/-- And there is one. -/
def receive (s : Loop) (link rel command : Option String) : Loop :=
  { s.ask.tell [.answered (fresh (s.allocated + 1) rel)] with
    linkP := fresh s.allocated link
    relP := fresh (s.allocated + 1) rel
    commandP := fresh (s.allocated + 2) command
    allocated := s.allocated + 3 }

/-- Nothing is current. -/
def drop (s : Loop) : Loop := { s with linkP := .null, relP := .null, commandP := .null }

end Loop

/-- The service enabler has answered. -/
def HttpAnswer.isAnswer : HttpAnswer → Prop
  | .answered .. => True
  | .outOfMemory | .network => False

theorem httpResult_ne (code : Nat) : httpResult code ≠ rootpaErrorRegistryObjectNotAvailable := by
  unfold httpResult
  repeat' split
  all_goals decide

theorem httpCommunicate_cases (s : Loop) (a : HttpAnswer) :
    (s.linkP ≠ .null ∧ ∃ code link rel command, a = .answered code link rel command ∧
      s.httpCommunicate a = (httpResult code, s.receive link rel command)) ∨
    (¬ (s.linkP ≠ .null ∧ a.isAnswer) ∧
      ∃ ret, ret ≠ rootpaOk ∧ ret ≠ rootpaErrorRegistryObjectNotAvailable ∧
        (s.httpCommunicate a = (ret, s) ∨ s.httpCommunicate a = (ret, s.lose))) := by
  by_cases hlink : s.linkP = .null
  · refine .inr ⟨fun h => h.1 hlink, rootpaErrorIllegalArgument, by decide, by decide, .inl ?_⟩
    cases a with
    | outOfMemory | network | answered => exact if_pos hlink
  · cases a with
    | outOfMemory =>
      exact .inr ⟨And.right, rootpaErrorOutOfMemory, by decide, by decide, .inr (if_neg hlink)⟩
    | network =>
      exact .inr ⟨And.right, rootpaErrorNetwork, by decide, by decide, .inr (if_neg hlink)⟩
    | answered code link rel command =>
      refine .inl ⟨hlink, code, link, rel, command, rfl, (if_neg hlink).trans ?_⟩
      simp [Loop.receive, Loop.ask, Loop.tell]

theorem keep_of_ne {ret tmpRet : RootpaError} (h : tmpRet ≠ rootpaOk) : keep ret tmpRet = tmpRet :=
  if_pos h

/-- What a round comes to before its end: an answer; strings that stay as they are, or lose the
relation and the command, and no more rounds; no strings; or the round that sends nothing. -/
def Loop.ComesTo (s : Loop) (i : RoundInput) (t : Loop) : Prop :=
  ∃ ret tmpRet responseP reads, (∀ e ∈ reads, e = .executed s.commandP) ∧
    ((s.sends i ∧ ∃ code link rel command, i.http = .answered code link rel command ∧
        t = ((s.tell reads).receive link rel command).set ret tmpRet responseP
          (httpResult code = rootpaOk)) ∨
      (¬ (s.sends i ∧ i.http.isAnswer) ∧
        (t = (s.tell reads).set ret tmpRet responseP false ∨
          t = (s.tell reads).lose.set ret tmpRet responseP false ∨
          (∃ w, t = (s.tell reads).drop.set ret tmpRet responseP w) ∨
          (s.NothingSent i ∧ t = (s.tell reads).set ret tmpRet responseP true))))

section Exchange

variable {s : Loop} {i : RoundInput}

theorem comesTo_send (hsends : s.sends i ↔ s.linkP ≠ .null) : s.ComesTo i (s.send i) := by
  unfold Loop.send
  refine ⟨(s.httpCommunicate i.http).1, s.tmpRet, s.responseP, [], by simp, ?_⟩
  rw [hsends]
  rcases httpCommunicate_cases s i.http with
    ⟨hlink, code, link, rel, command, ha, heq⟩ | ⟨hno, ret, hok, -, heq | heq⟩
  · refine .inl ⟨hlink, code, link, rel, command, ha, ?_⟩
    rw [heq]
    simp [Loop.tell, Loop.set, Loop.receive, Loop.ask]
  · refine .inr ⟨hno, .inl ?_⟩
    rw [heq]
    simp [Loop.tell, Loop.set, hok]
  · refine .inr ⟨hno, .inr (.inl ?_)⟩
    rw [heq]
    simp [Loop.tell, Loop.set, hok, Loop.lose, Loop.ask]

theorem comesTo_systemInfo (hw : s.workToDo = true) (hrel : s.relP.relation = .systemInfo) :
    s.ComesTo i (s.systemInfo i) := by
  have hsends : s.sends i ↔ s.linkP ≠ .null ∧ s.buildXmlSystemInfo i ≠ none := by
    unfold Loop.sends
    rw [hrel]
  unfold Loop.systemInfo
  cases hxml : s.buildXmlSystemInfo i with
  | some response =>
    have hsome : s.buildXmlSystemInfo i ≠ none := by simp [hxml]
    dsimp only
    refine ⟨keep (s.systemInfoRet i) (s.httpCommunicate i.http).1, (s.httpCommunicate i.http).1,
      some response, [], by simp, ?_⟩
    rcases httpCommunicate_cases s i.http with
      ⟨hlink, code, link, rel, command, ha, heq⟩ | ⟨hno, ret, hok, -, heq | heq⟩
    · refine .inl ⟨hsends.mpr ⟨hlink, hsome⟩, code, link, rel, command, ha, ?_⟩
      rw [heq]
      simp [Loop.tell, Loop.set, Loop.receive, Loop.ask]
    · refine .inr ⟨fun h => hno ⟨(hsends.mp h.1).1, h.2⟩, .inl ?_⟩
      rw [heq]
      simp [Loop.tell, Loop.set, hok]
    · refine .inr ⟨fun h => hno ⟨(hsends.mp h.1).1, h.2⟩, .inr (.inl ?_)⟩
      rw [heq]
      simp [Loop.tell, Loop.set, hok, Loop.lose, Loop.ask]
  | none =>
    have hnot : ¬ (s.sends i ∧ i.http.isAnswer) := fun h => (hsends.mp h.1).2 hxml
    dsimp only
    by_cases hret : s.systemInfoRet i = rootpaOk
    · rw [if_pos hret]
      refine ⟨rootpaErrorOutOfMemory, i.buildXml, none, [], by simp, .inr ⟨hnot, .inl ?_⟩⟩
      simp [Loop.tell, Loop.set]
    · rw [if_neg hret]
      refine ⟨s.systemInfoRet i, i.buildXml, none, [], by simp, .inr ⟨hnot, ?_⟩⟩
      by_cases hbuild : i.buildXml = rootpaOk
      · -- `tmpRet` says that all is well, so the loop goes on without a response
        have hdumped : i.dumped = none := by
          rw [Loop.buildXmlSystemInfo, if_pos hbuild] at hxml
          exact hxml
        refine .inr (.inr (.inr ⟨⟨hw, hrel, hbuild, hdumped, hret⟩, ?_⟩))
        simp [Loop.tell, Loop.set, hbuild]
      · refine .inl ?_
        simp [Loop.tell, Loop.set, hbuild]

theorem comesTo_result (hrel : s.relP.relation = .result) : s.ComesTo i (s.result i) := by
  have hsends : s.sends i ↔ s.linkP ≠ .null ∧ (s.handleXmlMessage i).2 ≠ none := by
    unfold Loop.sends
    rw [hrel]
  unfold Loop.result
  cases hxml : (s.handleXmlMessage i).2 with
  | some response =>
    have hsome : (s.handleXmlMessage i).2 ≠ none := by simp [hxml]
    dsimp only
    refine ⟨keep (s.handleXmlMessage i).1 (s.execute.httpCommunicate i.http).1,
      (s.execute.httpCommunicate i.http).1, some response, [.executed s.commandP], by simp, ?_⟩
    rcases httpCommunicate_cases s.execute i.http with
      ⟨hlink, code, link, rel, command, ha, heq⟩ | ⟨hno, ret, hok, hna, heq | heq⟩
    · refine .inl ⟨hsends.mpr ⟨hlink, hsome⟩, code, link, rel, command, ha, ?_⟩
      rw [heq]
      -- an error noted before is not kept, as that of `httpCommunicate` takes its place
      have hgoes : (keep (s.handleXmlMessage i).1 (httpResult code) =
          rootpaErrorRegistryObjectNotAvailable ∨ httpResult code = rootpaOk) ↔
          httpResult code = rootpaOk := by
        refine ⟨fun h => ?_, .inr⟩
        rcases h with h | h
        · by_contra hne
          rw [keep_of_ne hne] at h
          exact httpResult_ne code h
        · exact h
      dsimp only
      rw [decide_eq_decide.mpr hgoes]
      rfl
    · refine .inr ⟨fun h => hno ⟨(hsends.mp h.1).1, h.2⟩, .inl ?_⟩
      rw [heq]
      dsimp only
      rw [keep_of_ne hok]
      simp [Loop.execute, Loop.tell, Loop.set, hok, hna]
    · refine .inr ⟨fun h => hno ⟨(hsends.mp h.1).1, h.2⟩, .inr (.inl ?_)⟩
      rw [heq]
      dsimp only
      rw [keep_of_ne hok]
      simp [Loop.execute, Loop.tell, Loop.set, hok, hna, Loop.lose, Loop.ask]
  | none =>
    have hnot : ¬ (s.sends i ∧ i.http.isAnswer) := fun h => (hsends.mp h.1).2 hxml
    refine ⟨s.noResponseRet i, s.tmpRet, none, [.executed s.commandP], by simp,
      .inr ⟨hnot, .inr (.inr (.inl
        ⟨s.noResponseRet i = rootpaErrorRegistryObjectNotAvailable ∨ s.tmpRet = rootpaOk, rfl⟩))⟩⟩

/-- **One round.** -/
theorem exchange_cases (hw : s.workToDo = true) (hself : s.relP.relation ≠ .self)
    (i : RoundInput) : s.ComesTo i (s.exchange i) := by
  unfold Loop.exchange
  cases hrel : s.relP.relation with
  | self => exact absurd hrel hself
  | unknown =>
    have hsends : ¬ s.sends i := by
      unfold Loop.sends
      rw [hrel]
      exact And.right
    refine ⟨rootpaErrorIllegalArgument, s.tmpRet, s.responseP, [], by simp,
      .inr ⟨fun h => hsends h.1, .inl ?_⟩⟩
    simp [Loop.tell, Loop.set]
  | initialDelete | initialPost | next =>
    refine comesTo_send ?_
    unfold Loop.sends
    rw [hrel]
    exact and_iff_left trivial
  | systemInfo => exact comesTo_systemInfo hw hrel
  | result => exact comesTo_result hrel

end Exchange

/-! ## Requests behind `relation/self` -/

/-- No request comes behind an answer `relation/self`. -/
def Settled (log : List Event) : Prop :=
  ∃ front back, log = front ++ back ∧ (∀ e ∈ front, ¬ e.AnswersSelf) ∧ ∀ e ∈ back, ¬ e.IsRequest

theorem Settled.of_forall {log : List Event} (h : ∀ e ∈ log, ¬ e.AnswersSelf) : Settled log :=
  ⟨log, [], (List.append_nil _).symm, h, by simp⟩

theorem Settled.append {log evs : List Event} (h : Settled log) (hevs : ∀ e ∈ evs, ¬ e.IsRequest) :
    Settled (log ++ evs) := by
  obtain ⟨front, back, rfl, hfront, hback⟩ := h
  refine ⟨front, back ++ evs, List.append_assoc .., hfront, fun e he => ?_⟩
  rcases List.mem_append.mp he with he | he
  · exact hback e he
  · exact hevs e he

theorem Settled.repeats {log : List Event} (h : Settled log) : Repeats log := by
  intro before between behind linkP relP commandP self linkP' relP' commandP' hlog hself _
  obtain ⟨front, back, rfl, hfront, hback⟩ := h
  have hquiet : (front ++ back).Pairwise fun a b => a.AnswersSelf → ¬ b.IsRequest := by
    refine List.pairwise_append.mpr ⟨?_, ?_, fun a ha b hb _ => hback b hb⟩
    · exact List.pairwise_of_forall_mem_list fun a ha b _ hself => absurd hself (hfront a ha)
    · exact List.pairwise_of_forall_mem_list fun a _ b hb _ => hback b hb
  rw [hlog] at hquiet
  refine absurd trivial ((List.pairwise_append.mp hquiet).2.2 (.answered self) ?_
    (.requested linkP' relP' commandP') List.mem_cons_self hself)
  simp

theorem look_kind {p : Ptr} {e : Event} (he : e ∈ look p) : e = .compared p := by
  unfold look at he
  split at he
  · cases he
  · exact List.mem_singleton.mp he

theorem free_kind {p : Ptr} {e : Event} (he : e ∈ free p) : e = .freed p := by
  unfold free at he
  split at he
  · cases he
  · exact List.mem_singleton.mp he

theorem cleanup_kind {linkP relP commandP : Ptr} {e : Event}
    (he : e ∈ cleanup linkP relP commandP) : ∃ p, e = .freed p := by
  unfold cleanup at he
  rcases List.mem_append.mp he with he | he
  · rcases List.mem_append.mp he with he | he
    · exact ⟨_, free_kind he⟩
    · split at he
      · exact ⟨_, free_kind he⟩
      · cases he
  · exact ⟨_, free_kind he⟩

theorem look_quiet {p : Ptr} : ∀ e ∈ look p, ¬ e.IsRequest ∧ ¬ e.AnswersSelf := by
  intro e he
  rw [look_kind he]
  exact ⟨id, id⟩

theorem cleanup_quiet {linkP relP commandP : Ptr} :
    ∀ e ∈ cleanup linkP relP commandP, ¬ e.IsRequest ∧ ¬ e.AnswersSelf := by
  intro e he
  obtain ⟨p, rfl⟩ := cleanup_kind he
  exact ⟨id, id⟩

/-! ## The end of a round -/

theorem has_null : ¬ Ptr.null.Has "relation/self" := by decide

theorem ne_null_of_self {p : Ptr} (h : p.Has "relation/self") : p ≠ .null := by
  rintro rfl
  exact has_null h

/-- A relation that is understood is there. -/
theorem ne_null_of_relation {p : Ptr} (h : p.relation ≠ .unknown) : p ≠ .null := by
  rintro rfl
  exact h (by decide)

theorem relation_eq_self {p : Ptr} : p.relation = .self ↔ p.Has "relation/self" := by
  unfold Ptr.relation
  refine ⟨fun h => ?_, fun h => if_pos h⟩
  by_contra hself
  rw [if_neg hself] at h
  revert h
  repeat' split
  all_goals exact fun h => nomatch h

namespace Loop

/-- The last round leaves nothing behind. -/
theorem roundEnd_of_stop {t : Loop} (hw : t.workToDo = false) :
    t.roundEnd.workToDo = false ∧ t.roundEnd.history = t.log ++
      cleanup t.linkP t.relP t.commandP ++
      cleanup (if t.linkP = t.usedLinkP then .null else t.usedLinkP)
        (if t.relP = t.usedRelP then .null else t.usedRelP)
        (if t.commandP = t.usedCommandP then .null else t.usedCommandP) := by
  have heq : t.roundEnd = t.lastRound.freeUsed := by
    unfold roundEnd
    rw [if_neg (by simp [hw])]
  have hnull : t.lastRound.relP = .null := rfl
  rw [heq]
  unfold freeUsed
  rw [if_pos (Or.inl hnull)]
  refine ⟨hw, (if_neg (ne_true_of_eq_false hw)).trans ?_⟩
  show t.lastRound.log ++ look .null ++ _ ++ free .null = _
  simp only [look, free, if_true, List.append_nil]
  rfl

theorem roundEnd_of_go {t : Loop} (hw : t.workToDo = true) (hself : ¬ t.relP.Has "relation/self") :
    t.roundEnd = { t with
      usedLinkP := .null, usedRelP := .null, usedCommandP := .null, responseP := none
      log := t.log ++ look t.relP ++ cleanup t.usedLinkP t.usedRelP t.usedCommandP } := by
  unfold roundEnd freeUsed
  rw [if_pos hw, if_pos (Or.inr hself)]

theorem roundEnd_of_self {t : Loop} (hw : t.workToDo = true) (hself : t.relP.Has "relation/self") :
    t.roundEnd = { t with responseP := none, log := t.log ++ look t.relP } := by
  unfold roundEnd freeUsed
  rw [if_pos hw, if_neg]
  rintro (h | h)
  · exact ne_null_of_self hself h
  · exact h hself

/-! ## The invariant -/

/-- At the start of a round: nothing is kept as used, what is current or pending is owned, and no
answer was `relation/self`. -/
structure Normal (s : Loop) : Prop where
  working : s.workToDo = true
  usedLink : s.usedLinkP = .null
  usedRel : s.usedRelP = .null
  usedCommand : s.usedCommandP = .null
  notSelf : ¬ s.relP.Has "relation/self"
  pendingRel : s.pendingRelP = .null ∨ s.pendingRelP = .initialPost
  link : s.linkP.token = none → s.linkP = .null
  pendingLink : s.pendingLinkP.token = none → s.pendingLinkP = .null
  held : Held s.log s.allocated [s.linkP, s.relP, s.commandP, s.pendingLinkP]
  quiet : ∀ e ∈ s.log, ¬ e.AnswersSelf

/-- `relation/self` with a command that is current as it is: the loop turns around on the spot. -/
structure Stuck (s : Loop) : Prop where
  working : s.workToDo = true
  self : s.relP.Has "relation/self"
  command : s.commandP = s.usedCommandP
  held : Held s.log s.allocated [s.relP]
  settled : Settled s.log

/-- The loop is over. -/
structure Over (s : Loop) : Prop where
  stopped : s.workToDo = false
  safe : strings.Safe s.history
  settled : Settled s.history

def Good (s : Loop) : Prop := s.Normal ∨ s.Stuck ∨ s.Over

theorem Good.neverReuses {s : Loop} (h : s.Good) : strings.Safe s.history ∧ Repeats s.history := by
  rcases h with h | h | h
  · rw [history, if_pos h.working]
    exact ⟨h.held.owns.safe, (Settled.of_forall h.quiet).repeats⟩
  · rw [history, if_pos h.working]
    exact ⟨h.held.owns.safe, h.settled.repeats⟩
  · exact ⟨h.safe, h.settled.repeats⟩

/-- What the last round has to hold: what is current, and what was used unless that is current. -/
theorem over_roundEnd {t : Loop} {n : Nat} {linkP relP commandP : Ptr} {ps : List Ptr}
    (hw : t.workToDo = false)
    (h : Held t.log n (t.linkP :: t.relP :: t.commandP :: linkP :: relP :: commandP :: ps))
    (hlink : (if t.linkP = t.usedLinkP then Ptr.null else t.usedLinkP).token = linkP.token)
    (hrel : (if t.relP = t.usedRelP then Ptr.null else t.usedRelP).token = relP.token)
    (hcommand : (if t.commandP = t.usedCommandP then Ptr.null else t.usedCommandP).token =
      commandP.token)
    (hsettled : Settled t.log) : t.roundEnd.Over := by
  obtain ⟨hstop, hhistory⟩ := roundEnd_of_stop hw
  refine ⟨hstop, ?_, ?_⟩
  · rw [hhistory]
    have hused : tokens (linkP :: relP :: commandP :: ps) =
        tokens ((if t.linkP = t.usedLinkP then .null else t.usedLinkP) ::
          (if t.relP = t.usedRelP then .null else t.usedRelP) ::
          (if t.commandP = t.usedCommandP then .null else t.usedCommandP) :: ps) := by
      simp only [tokens_cons, hlink, hrel, hcommand]
    exact (h.cleanup.congr hused).cleanup.owns.safe
  · rw [hhistory]
    exact (hsettled.append fun e he => (cleanup_quiet e he).1).append
      fun e he => (cleanup_quiet e he).1

end Loop

theorem Held.reads {log : List Event} {n : Nat} {ps : List Ptr} {p : Ptr} {reads : List Event}
    (h : Held log n ps) (hp : p ∈ ps) (hreads : ∀ e ∈ reads, e = .executed p) :
    Held (log ++ reads) n ps := by
  induction reads generalizing log with
  | nil => rwa [List.append_nil]
  | cons e reads ih =>
    rw [hreads e List.mem_cons_self, List.append_cons]
    refine ih (h.read rfl fun t ht => ?_) fun e' he' => hreads e' (List.mem_cons_of_mem _ he')
    exact mem_tokens.mpr ⟨p, hp, Option.mem_toList.mp ht⟩

/-- The request names three strings. -/
theorem Held.request {log : List Event} {n : Nat} {ps : List Ptr} {linkP relP commandP : Ptr}
    (h : Held log n (linkP :: relP :: commandP :: ps)) :
    Held (log ++ [.requested linkP relP commandP]) n (linkP :: relP :: commandP :: ps) := by
  refine h.read rfl fun t ht => ?_
  obtain ⟨p, hp, hpt⟩ := List.mem_filterMap.mp ht
  exact mem_tokens.mpr ⟨p, List.mem_append_left ps hp, hpt⟩

/-- Whoever holds three strings and receives an answer holds six. -/
theorem Held.receive {s : Loop} {ps : List Ptr}
    (h : Held s.log s.allocated (s.linkP :: s.relP :: s.commandP :: ps))
    (link rel command : Option String) :
    Held (s.receive link rel command).log (s.receive link rel command).allocated
      ((s.receive link rel command).linkP :: (s.receive link rel command).relP ::
        (s.receive link rel command).commandP :: s.linkP :: s.relP :: s.commandP :: ps) := by
  have hsix := ((h.request.fresh link).fresh rel).fresh command
  have hperm := hsix.perm ((List.reverse_perm [Loop.fresh s.allocated link,
    Loop.fresh (s.allocated + 1) rel, Loop.fresh (s.allocated + 2) command]).append_right _)
  refine hperm.read rfl fun t ht => ?_
  exact mem_tokens.mpr ⟨_, by simp, Option.mem_toList.mp ht⟩

/-- A string of an answer is not one that has been there before. -/
theorem Held.eq_fresh {log : List Event} {n m : Nat} {ps : List Ptr} {p : Ptr}
    {text : Option String} (h : Held log n ps) (hp : p ∈ ps) (hle : n ≤ m)
    (heq : Loop.fresh m text = p) : p.token = none := by
  cases text with
  | none =>
    subst heq
    rfl
  | some text =>
    have hlt := h.bound m (mem_tokens.mpr ⟨p, hp, heq ▸ rfl⟩)
    omega

/-- Skipping what is null changes no token. -/
theorem token_ite {p q : Ptr} (h : p = q → q.token = none) :
    (if p = q then .null else q).token = q.token := by
  by_cases hpq : p = q
  · rw [if_pos hpq, h hpq]
    rfl
  · rw [if_neg hpq]

/-! ## Rounds that keep the invariant -/

namespace Loop

/-- The state in which a round turns to what its relation asks for. -/
def asking (s : Loop) : Loop := (s.tell (look s.relP)).markUsed

theorem round_of_ask {s : Loop} (hw : s.workToDo = true) (hnull : s.relP ≠ .null)
    (hself : ¬ s.relP.Has "relation/self") (i : RoundInput) :
    s.round i = some (s.asking.exchange i).roundEnd := by
  unfold round
  rw [if_neg (by simp [hw]), if_neg hnull, if_neg hself]
  rfl

/-- Behind the look at the relation, and maybe the execution of the command. -/
structure Asking (s : Loop) : Prop where
  usedLink : s.usedLinkP = s.linkP
  usedRel : s.usedRelP = s.relP
  usedCommand : s.usedCommandP = s.commandP
  pendingRel : s.pendingRelP = .null ∨ s.pendingRelP = .initialPost
  pendingLink : s.pendingLinkP.token = none → s.pendingLinkP = .null
  held : Held s.log s.allocated [s.linkP, s.relP, s.commandP, s.pendingLinkP]
  quiet : ∀ e ∈ s.log, ¬ e.AnswersSelf

theorem Normal.asking {s : Loop} (hs : s.Normal) {reads : List Event}
    (hreads : ∀ e ∈ reads, e = .executed s.commandP) : (s.asking.tell reads).Asking := by
  refine ⟨rfl, rfl, rfl, hs.pendingRel, hs.pendingLink,
    (hs.held.look (by simp)).reads (by simp) hreads, fun e he => ?_⟩
  rcases List.mem_append.mp he with he | he
  · rcases List.mem_append.mp he with he | he
    · exact hs.quiet e he
    · exact (look_quiet e he).2
  · rw [hreads e he]
    exact id

theorem Asking.asked {s : Loop} (hs : s.Asking) : ∀ e ∈ s.ask.log, ¬ e.AnswersSelf := by
  intro e he
  rcases List.mem_append.mp he with he | he
  · exact hs.quiet e he
  · rw [List.mem_singleton.mp he]
    exact id

/-- An answer: three new strings, and the old ones are freed, except behind `relation/self`. -/
theorem Asking.good_receive {s : Loop} (hs : s.Asking) (link rel command : Option String)
    (ret tmpRet : RootpaError) (responseP : Option String) (w : Bool)
    (hself : w = true → (s.receive link rel command).relP.Has "relation/self" →
      (s.receive link rel command).commandP = s.commandP) :
    ((s.receive link rel command).set ret tmpRet responseP w).roundEnd.Good := by
  have hheld := hs.held.receive link rel command
  have hsettled : Settled (s.receive link rel command).log :=
    (Settled.of_forall hs.asked).append fun e he => by
      rw [List.mem_singleton.mp he]
      exact id
  -- a round that is the last one gives back what was used, another one looks at the relation
  cases w with
  | false =>
    refine .inr (.inr (over_roundEnd rfl hheld ?_ ?_ ?_ hsettled))
    · show (if fresh s.allocated link = s.usedLinkP then Ptr.null else s.usedLinkP).token = _
      rw [hs.usedLink]
      exact token_ite (hs.held.eq_fresh (by simp) (Nat.le_refl _))
    · show (if fresh (s.allocated + 1) rel = s.usedRelP then Ptr.null else s.usedRelP).token = _
      rw [hs.usedRel]
      exact token_ite (hs.held.eq_fresh (by simp) (Nat.le_succ _))
    · show (if fresh (s.allocated + 2) command = s.usedCommandP then Ptr.null
        else s.usedCommandP).token = _
      rw [hs.usedCommand]
      exact token_ite (hs.held.eq_fresh (by simp) (Nat.le_add_right _ _))
  | true =>
    by_cases hask : (s.receive link rel command).relP.Has "relation/self"
    · -- only without a command in the request and in the answer
      rw [roundEnd_of_self (t := (s.receive link rel command).set ret tmpRet responseP true) rfl
        hask]
      refine .inr (.inl ⟨rfl, hask, (hself rfl hask).trans hs.usedCommand.symm, ?_,
        hsettled.append fun e he => (look_quiet e he).1⟩)
      have hlook := hheld.look (List.mem_cons_of_mem _ List.mem_cons_self)
      exact hlook.sublist (List.singleton_sublist.mpr (List.mem_cons_of_mem _ List.mem_cons_self))
    · rw [roundEnd_of_go (t := (s.receive link rel command).set ret tmpRet responseP true) rfl hask]
      refine .inl ⟨rfl, rfl, rfl, rfl, hask, hs.pendingRel, ?_, hs.pendingLink, ?_, ?_⟩
      · cases link with
        | none => exact fun _ => rfl
        | some link => exact fun h => nomatch h
      · have hlook := hheld.look (List.mem_cons_of_mem _ List.mem_cons_self)
        have hperm := hlook.perm (List.perm_append_comm_assoc
          [(s.receive link rel command).linkP, (s.receive link rel command).relP,
            (s.receive link rel command).commandP] [s.linkP, s.relP, s.commandP] [s.pendingLinkP])
        rw [← hs.usedLink, ← hs.usedRel, ← hs.usedCommand] at hperm
        exact Held.cleanup hperm
      · intro e he
        rcases List.mem_append.mp he with he | he
        · rcases List.mem_append.mp he with he | he
          · rcases List.mem_append.mp he with he | he
            · exact hs.asked e he
            · rw [List.mem_singleton.mp he]
              exact hask
          · exact (look_quiet e he).2
        · exact (cleanup_quiet e he).2

/-- The strings stay as they are, and the loop ends. -/
theorem Asking.good_kept {s : Loop} (hs : s.Asking) (ret tmpRet : RootpaError)
    (responseP : Option String) : (s.set ret tmpRet responseP false).roundEnd.Good := by
  have hheld : Held s.log s.allocated
      [s.linkP, s.relP, s.commandP, .null, .null, .null, s.pendingLinkP] :=
    hs.held.congr (by simp [tokens_cons])
  exact .inr (.inr (over_roundEnd rfl hheld (congrArg Ptr.token (if_pos hs.usedLink.symm))
    (congrArg Ptr.token (if_pos hs.usedRel.symm))
    (congrArg Ptr.token (if_pos hs.usedCommand.symm)) (Settled.of_forall hs.quiet)))

/-- The relation and the command are lost, and the loop ends. -/
theorem Asking.good_lose {s : Loop} (hs : s.Asking) (ret tmpRet : RootpaError)
    (responseP : Option String) : (s.lose.set ret tmpRet responseP false).roundEnd.Good := by
  have hheld : Held s.ask.log s.allocated
      [s.linkP, .null, .null, .null, s.relP, s.commandP, s.pendingLinkP] :=
    hs.held.request.congr (by simp [tokens_cons])
  refine .inr (.inr (over_roundEnd rfl hheld (congrArg Ptr.token (if_pos hs.usedLink.symm)) ?_ ?_
    (Settled.of_forall hs.asked)))
  · show (if Ptr.null = s.usedRelP then Ptr.null else s.usedRelP).token = _
    rw [hs.usedRel]
    exact token_ite fun h => by rw [← h]; rfl
  · show (if Ptr.null = s.usedCommandP then Ptr.null else s.usedCommandP).token = _
    rw [hs.usedCommand]
    exact token_ite fun h => by rw [← h]; rfl

/-- Without a response nothing is current. -/
theorem Asking.good_drop {s : Loop} (hs : s.Asking) (ret tmpRet : RootpaError)
    (responseP : Option String) (w : Bool) :
    (s.drop.set ret tmpRet responseP w).roundEnd.Good := by
  cases w with
  | false =>
    have hheld : Held s.log s.allocated
        [.null, .null, .null, s.linkP, s.relP, s.commandP, s.pendingLinkP] :=
      hs.held.congr (by simp only [tokens_null])
    refine .inr (.inr (over_roundEnd rfl hheld ?_ ?_ ?_ (Settled.of_forall hs.quiet)))
    · show (if Ptr.null = s.usedLinkP then Ptr.null else s.usedLinkP).token = _
      rw [hs.usedLink]
      exact token_ite fun h => by rw [← h]; rfl
    · show (if Ptr.null = s.usedRelP then Ptr.null else s.usedRelP).token = _
      rw [hs.usedRel]
      exact token_ite fun h => by rw [← h]; rfl
    · show (if Ptr.null = s.usedCommandP then Ptr.null else s.usedCommandP).token = _
      rw [hs.usedCommand]
      exact token_ite fun h => by rw [← h]; rfl
  | true =>
    rw [roundEnd_of_go (t := s.drop.set ret tmpRet responseP true) rfl has_null]
    refine .inl ⟨rfl, rfl, rfl, rfl, has_null, hs.pendingRel, fun _ => rfl, hs.pendingLink, ?_, ?_⟩
    · have hcleanup := hs.held.cleanup
      rw [← hs.usedLink, ← hs.usedRel, ← hs.usedCommand] at hcleanup
      show Held (s.log ++ [] ++ _) s.allocated [.null, .null, .null, s.pendingLinkP]
      rw [List.append_nil]
      exact hcleanup.congr rfl
    · intro e he
      rcases List.mem_append.mp he with he | he
      · rcases List.mem_append.mp he with he | he
        · exact hs.quiet e he
        · exact (look_quiet e he).2
      · exact (cleanup_quiet e he).2

theorem Normal.relation_ne_self {s : Loop} (hs : s.Normal) : s.asking.relP.relation ≠ .self :=
  fun h => hs.notSelf (relation_eq_self.mp h)

/-- A round that asks the service enabler for something. -/
theorem Normal.good_exchange {s : Loop} (hs : s.Normal) {i : RoundInput}
    (hasked : ¬ s.AskedAgain i) (hsent : ¬ s.NothingSent i) :
    (s.asking.exchange i).roundEnd.Good := by
  obtain ⟨ret, tmpRet, responseP, reads, hreads, h⟩ :=
    exchange_cases (s := s.asking) hs.working hs.relation_ne_self i
  have hasking := hs.asking hreads
  rcases h with
    ⟨hsends, code, link, rel, command, hhttp, heq⟩ | ⟨-, heq | heq | ⟨w, heq⟩ | ⟨h, -⟩⟩
  · rw [heq]
    refine hasking.good_receive link rel command ret tmpRet responseP _ fun hw hrel => ?_
    have hcode := of_decide_eq_true hw
    cases rel with
    | none => exact absurd hrel has_null
    | some rel =>
      -- both commands are missing, or the round would have been asked for again
      have hnone : ¬ (s.commandP ≠ .null ∨ command ≠ none) := fun h =>
        hasked ⟨hs.working, hsends, code, link, rel, command, hhttp, hcode, hrel, h⟩
      have hcommand : s.commandP = .null := Classical.not_not.mp fun h => hnone (.inl h)
      have hcommand' : command = none := Classical.not_not.mp fun h => hnone (.inr h)
      show fresh _ command = s.commandP
      rw [hcommand, hcommand']
      rfl
  · rw [heq]
    exact hasking.good_kept ret tmpRet responseP
  · rw [heq]
    exact hasking.good_lose ret tmpRet responseP
  · rw [heq]
    exact hasking.good_drop ret tmpRet responseP w
  · exact absurd h hsent

/-- A loop that is stuck turns around. -/
theorem Stuck.stays {s : Loop} (hs : s.Stuck) (i : RoundInput) :
    ∃ t, s.round i = some t ∧ t.Stuck := by
  have hnull := ne_null_of_self hs.self
  have hkept : ({ s with log := s.log ++ look s.relP } : Loop).restore =
      { s with log := s.log ++ look s.relP } := if_neg fun h => h.2.2 hs.command
  have hround : s.round i = some { s with
      responseP := none, log := s.log ++ look s.relP ++ look s.relP } := by
    unfold Loop.round
    rw [if_neg (by simp [hs.working]), if_neg hnull, if_pos hs.self, hkept,
      roundEnd_of_self (t := { s with log := s.log ++ look s.relP }) hs.working hs.self]
  refine ⟨_, hround, hs.working, hs.self, hs.command, ?_, ?_⟩
  · exact (hs.held.look List.mem_cons_self).look List.mem_cons_self
  · exact (hs.settled.append fun e he => (look_quiet e he).1).append
      fun e he => (look_quiet e he).1

/-- **What a round preserves.**  Unless it is asked for the same again, or sends nothing and goes
on, a round keeps the books in order. -/
theorem Good.round {s t : Loop} {i : RoundInput} (hs : s.Good) (h : s.round i = some t)
    (hasked : ¬ s.AskedAgain i) (hsent : ¬ s.NothingSent i) : t.Good := by
  rcases hs with hs | hs | hs
  · by_cases hnull : s.relP = .null
    · unfold Loop.round at h
      rw [if_neg (by simp [hs.working]), if_pos hnull] at h
      by_cases hpending : s.pendingLinkP ≠ .null ∧ s.pendingRelP ≠ .null
      · -- the request proper takes its turn
        rw [if_pos hpending] at h
        obtain rfl := Option.some.inj h
        have hrel : s.pendingRelP = .initialPost := hs.pendingRel.resolve_left hpending.2
        refine .inl ⟨hs.working, hs.usedLink, hs.usedRel, hs.usedCommand, ?_, .inl rfl,
          hs.pendingLink, fun _ => rfl, ?_, ?_⟩
        · show ¬ s.pendingRelP.Has _
          rw [hrel]
          decide
        · have hfree := hs.held.free
          rw [hnull] at hfree
          have hperm := hfree.perm
            (@List.perm_append_comm _ [Ptr.null, s.commandP] [s.pendingLinkP])
          refine hperm.congr ?_
          show _ = tokens [s.pendingLinkP, s.pendingRelP, s.commandP, .null]
          rw [hrel]
          simp [tokens_cons, Ptr.token]
        · intro e he
          rcases List.mem_append.mp he with he | he
          · exact hs.quiet e he
          · rw [free_kind he]
            exact id
      · rw [if_neg hpending] at h
        obtain rfl := Option.some.inj h
        have hheld : Held s.log s.allocated
            [s.linkP, s.relP, s.commandP, .null, .null, .null, s.pendingLinkP] :=
          hs.held.congr (by simp [tokens_cons])
        refine .inr (.inr (over_roundEnd rfl hheld ?_ ?_ ?_ (Settled.of_forall hs.quiet)))
        · show (if s.linkP = s.usedLinkP then Ptr.null else s.usedLinkP).token = _
          rw [hs.usedLink, ite_self]
        · show (if s.relP = s.usedRelP then Ptr.null else s.usedRelP).token = _
          rw [hs.usedRel, ite_self]
        · show (if s.commandP = s.usedCommandP then Ptr.null else s.usedCommandP).token = _
          rw [hs.usedCommand, ite_self]
    · rw [round_of_ask hs.working hnull hs.notSelf] at h
      obtain rfl := Option.some.inj h
      exact hs.good_exchange hasked hsent
  · obtain ⟨u, hu, hstuck⟩ := hs.stays i
    rw [hu] at h
    obtain rfl := Option.some.inj h
    exact .inr (.inl hstuck)
  · unfold Loop.round at h
    rw [if_pos hs.stopped] at h
    cases h

end Loop

end McDaemon.RootPa.Provisioning
