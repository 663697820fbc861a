/-
# McDaemon.RootPa.ProvisioningProgress — when every round of the provisioning loop gets somewhere.

A round ends the loop, makes a request, lets the request proper take its turn behind a factory
reset, or makes what was used current again, to be sent in the next round.  Three kinds of rounds do
none of this.  Behind an answer `relation/self`, the strings that are made current are freed in the
same round, or, when neither the request nor the answer has a command, nothing is made current and
the loop turns around on the spot.  The system information that cannot be dumped, and a command that
comes to no response, may leave the loop going although nothing was sent.
-/
import McDaemon.RootPa.ProvisioningReuse

namespace McDaemon.RootPa.Provisioning

open McDaemon.Lib

/-! ## The property -/

namespace Loop

/-- The current strings have not been freed. -/
def Live (s : Loop) : Prop :=
  ∀ t ∈ tokens [s.linkP, s.relP, s.commandP], t ∉ strings.gone s.log

/-- The round makes a request, out of strings that are there. -/
def Requests (s : Loop) (i : RoundInput) : Prop := s.workToDo = true ∧ s.sends i ∧ s.Live

/-- The request proper takes its turn. -/
def TakesPending (s : Loop) : Prop :=
  s.workToDo = true ∧ s.relP = .null ∧ s.pendingLinkP ≠ .null ∧ s.pendingRelP ≠ .null

/-- The round from `s` to `t`, which gets `i`, comes to something; `i'` is for the next round. -/
def Advances (s t : Loop) (i i' : RoundInput) : Prop :=
  t.workToDo = false ∨ s.Requests i ∨ s.TakesPending ∨
    (s.relP.Has "relation/self" ∧ t.Requests i')

end Loop

/-- The loop does not turn around for nothing. -/
structure Progresses (s₀ : Loop) (inputs : Nat → RoundInput) : Prop where
  advances : ∀ n s t, loopState Loop.round s₀ inputs n = some s → s.round (inputs n) = some t →
    s.Advances t (inputs n) (inputs (n + 1))
  pendingOnce : ∀ m n s t, loopState Loop.round s₀ inputs m = some s →
    loopState Loop.round s₀ inputs n = some t → s.TakesPending → t.TakesPending → m = n
  recurs : ∀ n s, loopState Loop.round s₀ inputs n = some s →
    ∃ m, n ≤ m ∧ (loopState Loop.round s₀ inputs m = none ∨
      ∃ t, loopState Loop.round s₀ inputs m = some t ∧ t.Requests (inputs m))

/-! ## What goes wrong -/

namespace Loop

/-- A request is answered with success and `relation/self`. -/
def AskedSelf (s : Loop) (i : RoundInput) : Prop :=
  s.workToDo = true ∧ s.sends i ∧ ∃ code link rel command,
    i.http = .answered code link (some rel) command ∧ httpResult code = rootpaOk ∧
    "relation/self".toList <:+: rel.toList

/-- There is no response to the command, and the loop goes on: the command says that a container is
missing, or the last thing that was sent came through. -/
def Unanswered (s : Loop) (i : RoundInput) : Prop :=
  s.workToDo = true ∧ s.relP.relation = .result ∧ (s.handleXmlMessage i).2 = none ∧
    (s.noResponseRet i = rootpaErrorRegistryObjectNotAvailable ∨ s.tmpRet = rootpaOk)

/-- The round is none of those that come to nothing, or lead to one. -/
structure Straight (s : Loop) (i : RoundInput) : Prop where
  notSelf : ¬ s.AskedSelf i
  sent : ¬ s.NothingSent i
  answered : ¬ s.Unanswered i

/-! ## One round -/

variable {s t : Loop} {i i' : RoundInput}

theorem roundEnd_workToDo (t : Loop) : t.roundEnd.workToDo = t.workToDo := by
  unfold roundEnd freeUsed
  split_ifs
  all_goals rfl

theorem roundEnd_relP (hw : t.workToDo = true) : t.roundEnd.relP = t.relP := by
  unfold roundEnd freeUsed
  rw [if_pos hw]
  split_ifs
  all_goals rfl

/-- No round makes a link pending. -/
theorem roundEnd_pendingLinkP (t : Loop) : t.roundEnd.pendingLinkP = t.pendingLinkP := by
  unfold roundEnd freeUsed
  split_ifs
  all_goals rfl

theorem httpCommunicate_ok {a : HttpAnswer} (h : (s.httpCommunicate a).1 = rootpaOk) :
    s.linkP ≠ .null := by
  rcases httpCommunicate_cases s a with ⟨hlink, -⟩ | ⟨-, ret, hok, -, heq | heq⟩
  · exact hlink
  · rw [heq] at h
    exact absurd h hok
  · rw [heq] at h
    exact absurd h hok

/-- **When the loop goes on.**  A round that asks for something has made a request, or it is one of
those that go on without. -/
theorem goesOn (hw : s.workToDo = true) (hself : s.relP.relation ≠ .self)
    (h : (s.exchange i).workToDo = true) : s.sends i ∨ s.NothingSent i ∨ s.Unanswered i := by
  unfold exchange at h
  unfold sends
  cases hrel : s.relP.relation with
  | self => exact absurd hrel hself
  | unknown =>
    rw [hrel] at h
    cases h
  | initialDelete | initialPost | next =>
    rw [hrel] at h
    exact .inl ⟨httpCommunicate_ok (of_decide_eq_true h), trivial⟩
  | systemInfo =>
    rw [hrel] at h
    dsimp only at h
    unfold systemInfo at h
    -- a round without a response goes on only if `tmpRet` says that all is well
    cases hxml : s.buildXmlSystemInfo i with
    | some response =>
      rw [hxml] at h
      exact .inl ⟨httpCommunicate_ok (of_decide_eq_true h), Option.some_ne_none _⟩
    | none =>
      rw [hxml] at h
      dsimp only at h
      by_cases hret : s.systemInfoRet i = rootpaOk
      · rw [if_pos hret] at h
        cases h
      · rw [if_neg hret] at h
        have hbuild : i.buildXml = rootpaOk := of_decide_eq_true h
        rw [buildXmlSystemInfo, if_pos hbuild] at hxml
        exact .inr (.inl ⟨hw, hrel, hbuild, hxml, hret⟩)
  | result =>
    rw [hrel] at h
    dsimp only at h
    unfold result at h
    cases hxml : (s.handleXmlMessage i).2 with
    | some response =>
      rw [hxml] at h
      refine .inl ⟨?_, Option.some_ne_none _⟩
      rcases httpCommunicate_cases s.execute i.http with
        ⟨hlink, -⟩ | ⟨-, ret, hok, hna, heq⟩
      · exact hlink
      · -- what failed to be sent is not a missing container
        have hret : (s.execute.httpCommunicate i.http).1 = ret := by
          rcases heq with heq | heq
          all_goals rw [heq]
        have hgoes := of_decide_eq_true h
        rw [hret, keep_of_ne hok] at hgoes
        rcases hgoes with hret | hret
        · exact absurd hret hna
        · exact absurd hret hok
    | none =>
      rw [hxml] at h
      exact .inr (.inr ⟨hw, hrel, hxml, of_decide_eq_true h⟩)

/-! ## Rounds that start in order -/

theorem Normal.live (hs : s.Normal) : s.Live := by
  intro t ht
  refine hs.held.owns.live t ?_
  have hsub : [s.linkP, s.relP, s.commandP].Sublist
      [s.linkP, s.relP, s.commandP, s.pendingLinkP] := List.sublist_append_left _ [s.pendingLinkP]
  exact (hsub.filterMap _).mem ht

/-- What is pending takes its turn, or nothing is left to do, or there is something to ask for. -/
theorem Normal.round_cases (hs : s.Normal) (ht : s.round i = some t) :
    (s.TakesPending ∧ t = s.resume) ∨ t = { s with workToDo := false }.roundEnd ∨
      t = (s.asking.exchange i).roundEnd := by
  by_cases hnull : s.relP = .null
  · unfold Loop.round at ht
    rw [if_neg (by simp [hs.working]), if_pos hnull] at ht
    by_cases hpending : s.pendingLinkP ≠ .null ∧ s.pendingRelP ≠ .null
    · rw [if_pos hpending] at ht
      exact .inl ⟨⟨hs.working, hnull, hpending⟩, (Option.some.inj ht).symm⟩
    · rw [if_neg hpending] at ht
      exact .inr (.inl (Option.some.inj ht).symm)
  · rw [round_of_ask hs.working hnull hs.notSelf] at ht
    exact .inr (.inr (Option.some.inj ht).symm)

/-- **A round that comes to something.** -/
theorem Normal.advances (hs : s.Normal) (hsent : ¬ s.NothingSent i) (hanswered : ¬ s.Unanswered i)
    (ht : s.round i = some t) : s.Advances t i i' := by
  rcases hs.round_cases ht with ⟨hpending, -⟩ | rfl | rfl
  · exact .inr (.inr (.inl hpending))
  · exact .inl (roundEnd_workToDo _)
  · cases hgoes : (s.asking.exchange i).workToDo with
    | false => exact .inl ((roundEnd_workToDo _).trans hgoes)
    | true =>
      rcases goesOn (s := s.asking) hs.working hs.relation_ne_self hgoes with hsends | h | h
      · exact .inr (.inl ⟨hs.working, hsends, hs.live⟩)
      · exact absurd h hsent
      · exact absurd h hanswered

/-- Only an answer brings `relation/self`. -/
theorem Normal.askedSelf (hs : s.Normal) (ht : s.round i = some t) (hw : t.workToDo = true)
    (hself : t.relP.Has "relation/self") : s.AskedSelf i := by
  rcases hs.round_cases ht with ⟨hpending, rfl⟩ | rfl | rfl
  · have hrel : s.pendingRelP = .initialPost := hs.pendingRel.resolve_left hpending.2.2.2
    have hself : s.pendingRelP.Has "relation/self" := hself
    rw [hrel] at hself
    exact absurd hself initialPost_notSelf
  · rw [roundEnd_workToDo] at hw
    cases hw
  · rw [roundEnd_workToDo] at hw
    rw [roundEnd_relP hw] at hself
    obtain ⟨ret, tmpRet, responseP, reads, -, h⟩ :=
      exchange_cases (s := s.asking) hs.working hs.relation_ne_self i
    rcases h with
      ⟨hsends, code, link, rel, command, hhttp, heq⟩ | ⟨-, heq | heq | ⟨w, heq⟩ | ⟨-, heq⟩⟩
    · rw [heq] at hw hself
      cases rel with
      | none => exact absurd hself has_null
      | some rel =>
        exact ⟨hs.working, hsends, code, link, rel, command, hhttp, of_decide_eq_true hw, hself⟩
    · rw [heq] at hw
      cases hw
    · rw [heq] at hw
      cases hw
    · rw [heq] at hself
      exact absurd hself has_null
    · rw [heq] at hself
      exact absurd hself hs.notSelf

/-- **What a straight round preserves.** -/
theorem Normal.round (hs : s.Normal) (hi : s.Straight i) (ht : s.round i = some t)
    (hw : t.workToDo = true) : t.Normal := by
  have hasked : ¬ s.AskedAgain i := by
    rintro ⟨hworking, hsends, code, link, rel, command, hhttp, hcode, hrel, -⟩
    exact hi.notSelf ⟨hworking, hsends, code, link, rel, command, hhttp, hcode, hrel⟩
  have hgood := Good.round (.inl hs) ht hasked hi.sent
  exact hgood.normal hw fun hrel => hi.notSelf (hs.askedSelf ht hw (relation_eq_self.mp hrel))

/-! ## Rounds that come to nothing -/

theorem not_advances (hw : t.workToDo = true) (hsends : ¬ s.sends i) (hnull : s.relP ≠ .null)
    (hself : s.relP.Has "relation/self" → ¬ t.Requests i') : ¬ s.Advances t i i' := by
  rintro (h | h | h | h)
  · rw [hw] at h
    cases h
  · exact hsends h.2.1
  · exact hnull h.2.1
  · exact hself h.1 h.2

theorem NothingSent.not_sends (h : s.NothingSent i) : ¬ s.sends i := by
  obtain ⟨-, hrel, hbuild, hdumped, -⟩ := h
  intro hsends
  have hsome := hsends.2
  rw [hrel] at hsome
  refine hsome ?_
  rw [buildXmlSystemInfo, if_pos hbuild, hdumped]

theorem Unanswered.not_sends (h : s.Unanswered i) : ¬ s.sends i := by
  obtain ⟨-, hrel, hnone, -⟩ := h
  intro hsends
  have hsome := hsends.2
  rw [hrel] at hsome
  exact hsome hnone

/-- Without anything to send, the loop goes on all the same. -/
theorem Normal.unanswered (hs : s.Normal) (h : s.Unanswered i) :
    ∃ t, s.round i = some t ∧ t.workToDo = true := by
  obtain ⟨-, hrel, hnone, hgoes⟩ := h
  have hnull : s.relP ≠ .null := ne_null_of_relation (by rw [hrel]; decide)
  refine ⟨_, round_of_ask hs.working hnull hs.notSelf i, (roundEnd_workToDo _).trans ?_⟩
  unfold exchange
  rw [show s.asking.relP.relation = .result from hrel]
  dsimp only
  unfold result
  rw [show (s.asking.handleXmlMessage i).2 = none from hnone]
  exact decide_eq_true hgoes

theorem Dangling.not_live (hs : s.Dangling) : ¬ s.Live := by
  intro hlive
  rcases hs.gone with ⟨t, ht, hgone⟩ | ⟨-, t, ht, hgone⟩
  · exact hlive t (mem_tokens.mpr ⟨s.relP, by simp, ht⟩) hgone
  · exact hlive t (mem_tokens.mpr ⟨s.linkP, by simp, ht⟩) hgone

theorem not_sends_of_self (h : s.relP.Has "relation/self") : ¬ s.sends i := by
  intro hsends
  exact relation_ne_self_of_sends hsends (relation_eq_self.mpr h)

/-- Without a command in the request and in the answer, the loop is stuck. -/
theorem Normal.stuck (hs : s.Normal) (hsends : s.sends i) (hcommand : s.commandP = .null)
    {code : Nat} {link : Option String} {rel : String}
    (hhttp : i.http = .answered code link (some rel) none) (hcode : httpResult code = rootpaOk)
    (hself : "relation/self".toList <:+: rel.toList) :
    ∃ t, s.round i = some t ∧ t.Stuck := by
  have hround := round_of_ask hs.working (rel_ne_null_of_sends hsends) hs.notSelf i
  refine ⟨_, hround, ?_⟩
  have hasked : ¬ s.AskedAgain i := by
    rintro ⟨-, -, code', link', rel', command', hhttp', -, -, hsome⟩
    rw [hhttp] at hhttp'
    cases hhttp'
    rcases hsome with hsome | hsome
    · exact hsome hcommand
    · exact hsome rfl
  have hgood := Good.round (.inl hs) hround hasked fun h => h.not_sends hsends
  -- the round has received its answer
  obtain ⟨ret, tmpRet, responseP, reads, heq⟩ := hs.exchange_answered hsends hhttp
  have hw : (s.asking.exchange i).workToDo = true := by
    rw [heq]
    exact decide_eq_true hcode
  have hrel : (s.asking.exchange i).roundEnd.relP.Has "relation/self" := by
    rw [roundEnd_relP hw, heq]
    exact hself
  rcases hgood with h | h | h
  · exact absurd hrel h.notSelf
  · exact h
  · have hstop := h.stopped
    rw [roundEnd_workToDo, hw] at hstop
    cases hstop

/-- **Behind `relation/self`.** The round frees what it makes current, or changes nothing; the next
one does not make a request out of strings that are there. -/
theorem Normal.selfRound (hs : s.Normal) (h : s.AskedSelf i) (i' : RoundInput) :
    ∃ t, s.round i = some t ∧ ∃ u, t.round i' = some u ∧ ∀ i'', ¬ t.Advances u i' i'' := by
  obtain ⟨-, hsends, code, link, rel, command, hhttp, hcode, hrel⟩ := h
  by_cases hcommand : s.commandP ≠ .null ∨ command ≠ none
  · obtain ⟨t, relation, ht, hasked⟩ :=
      hs.asked ⟨hs.working, hsends, code, link, rel, command, hhttp, hcode, hrel, hcommand⟩
    obtain ⟨u, hu, hdangling⟩ :=
      hasked.dangling hs hsends.1 (rel_ne_null_of_sends hsends) i'
    have hself : t.relP.Has "relation/self" := hasked.rel ▸ hasked.self
    exact ⟨t, ht, u, hu, fun i'' => not_advances hdangling.working (not_sends_of_self hself)
      (ne_null_of_self hself) fun _ hrequests => hdangling.not_live hrequests.2.2⟩
  · obtain ⟨hnone, hnone'⟩ := not_or.mp hcommand
    rw [not_not.mp hnone'] at hhttp
    obtain ⟨t, ht, hstuck⟩ := hs.stuck hsends (not_not.mp hnone) hhttp hcode hrel
    obtain ⟨u, hu, hstuck'⟩ := hstuck.stays i'
    exact ⟨t, ht, u, hu, fun i'' => not_advances hstuck'.working (not_sends_of_self hstuck.self)
      (ne_null_of_self hstuck.self) fun _ hrequests =>
        not_sends_of_self hstuck'.self hrequests.2.1⟩

/-! ## What waits behind a factory reset -/

theorem exchange_pendingLinkP (hw : s.workToDo = true) (hself : s.relP.relation ≠ .self)
    (i : RoundInput) : (s.exchange i).pendingLinkP = s.pendingLinkP := by
  obtain ⟨ret, tmpRet, responseP, reads, -, h⟩ := exchange_cases hw hself i
  rcases h with
    ⟨-, code, link, rel, command, -, heq⟩ | ⟨-, heq | heq | ⟨w, heq⟩ | ⟨-, heq⟩⟩
  all_goals
    rw [heq]
    rfl

/-- No round makes a link wait. -/
theorem round_pendingLinkP (ht : s.round i = some t) (h : s.pendingLinkP = .null) :
    t.pendingLinkP = .null := by
  unfold Loop.round at ht
  split_ifs at ht with hw hnull hpending hself
  · exact absurd h hpending.1
  · obtain rfl := Option.some.inj ht
    exact (roundEnd_pendingLinkP _).trans h
  · obtain rfl := Option.some.inj ht
    rw [roundEnd_pendingLinkP]
    unfold restore
    split_ifs
    · exact h
    · exact h
  · obtain rfl := Option.some.inj ht
    rw [roundEnd_pendingLinkP]
    exact (exchange_pendingLinkP (s := s.asking) (eq_true_of_ne_false hw)
      (fun hrel => hself (relation_eq_self.mp hrel)) i).trans h

theorem TakesPending.round (hs : s.TakesPending) (ht : s.round i = some t) :
    t.pendingLinkP = .null := by
  obtain ⟨hw, hnull, hpending⟩ := hs
  unfold Loop.round at ht
  rw [if_neg (by simp [hw]), if_pos hnull, if_pos hpending] at ht
  obtain rfl := Option.some.inj ht
  rfl

end Loop

/-! ## Runs -/

section Runs

variable {s₀ : Loop} {inputs : Nat → RoundInput}

/-- The link that waits is taken once. -/
theorem takesPending_once {m n : Nat} {s t : Loop}
    (hs : loopState Loop.round s₀ inputs m = some s)
    (ht : loopState Loop.round s₀ inputs n = some t) (hpending : s.TakesPending) (hlt : m < n) :
    ¬ t.TakesPending := by
  have hgone : t.pendingLinkP = .null := by
    induction n generalizing t with
    | zero => exact absurd hlt (Nat.not_lt_zero m)
    | succ n ih =>
      obtain ⟨u, hu, ht⟩ := Option.bind_eq_some_iff.mp ht
      rcases Nat.lt_succ_iff_lt_or_eq.mp hlt with hlt | rfl
      · exact Loop.round_pendingLinkP ht (ih hu hlt)
      · obtain rfl := Option.some.inj (hs.symm.trans hu)
        exact hpending.round ht
  exact fun h => h.2.2.1 hgone

theorem loopState_of_stopped {n : Nat} {s : Loop}
    (hs : loopState Loop.round s₀ inputs n = some s) (hw : s.workToDo = false) :
    loopState Loop.round s₀ inputs (n + 1) = none := by
  show (loopState Loop.round s₀ inputs n).bind _ = _
  rw [hs]
  exact if_pos hw

/-- **There is always another request, or the end**, when every round advances. -/
theorem recurs_of_advances
    (hadv : ∀ n s t, loopState Loop.round s₀ inputs n = some s → s.round (inputs n) = some t →
      s.Advances t (inputs n) (inputs (n + 1))) {n : Nat} {s : Loop}
    (hs : loopState Loop.round s₀ inputs n = some s) :
    ∃ m, n ≤ m ∧ (loopState Loop.round s₀ inputs m = none ∨
      ∃ t, loopState Loop.round s₀ inputs m = some t ∧ t.Requests (inputs m)) := by
  -- nothing but the link that waits can keep the next two rounds from it
  have hnext : ∀ n s, loopState Loop.round s₀ inputs n = some s → ¬ s.TakesPending →
      ∃ m, n ≤ m ∧ (loopState Loop.round s₀ inputs m = none ∨
        ∃ t, loopState Loop.round s₀ inputs m = some t ∧ t.Requests (inputs m)) := by
    intro n s hs hpending
    cases hround : s.round (inputs n) with
    | none =>
      refine ⟨n + 1, Nat.le_succ n, .inl ?_⟩
      show (loopState Loop.round s₀ inputs n).bind _ = _
      rw [hs]
      exact hround
    | some t =>
      have ht := loopState_succ hs hround
      rcases hadv n s t hs hround with hstop | hrequests | h | ⟨-, hrequests⟩
      · exact ⟨n + 2, by omega, .inl (loopState_of_stopped ht hstop)⟩
      · exact ⟨n, Nat.le_refl n, .inr ⟨s, hs, hrequests⟩⟩
      · exact absurd h hpending
      · exact ⟨n + 1, Nat.le_succ n, .inr ⟨t, ht, hrequests⟩⟩
  by_cases hpending : s.TakesPending
  · cases ht : loopState Loop.round s₀ inputs (n + 1) with
    | none => exact ⟨n + 1, Nat.le_succ n, .inl ht⟩
    | some t =>
      have honce := takesPending_once hs ht hpending (Nat.lt_succ_self n)
      obtain ⟨m, hm, h⟩ := hnext (n + 1) t ht honce
      exact ⟨m, by omega, h⟩
  · exact hnext n s hs hpending

theorem progresses_of_advances
    (hadv : ∀ n s t, loopState Loop.round s₀ inputs n = some s → s.round (inputs n) = some t →
      s.Advances t (inputs n) (inputs (n + 1))) : Progresses s₀ inputs := by
  refine ⟨hadv, fun m n s t hs ht hpending hpending' => ?_,
    fun n s hs => recurs_of_advances hadv hs⟩
  rcases Nat.lt_trichotomy m n with hlt | rfl | hlt
  · exact absurd hpending' (takesPending_once hs ht hpending hlt)
  · rfl
  · exact absurd hpending (takesPending_once ht hs hpending' hlt)

/-- Rounds that have all been straight end in order. -/
theorem normal_of_straight (hs₀ : s₀.Good) (hself : ¬ s₀.relP.Has "relation/self") {n : Nat}
    {t : Loop}
    (hstraight : ∀ m, m < n → ∀ s, loopState Loop.round s₀ inputs m = some s →
      s.Straight (inputs m))
    (h : loopState Loop.round s₀ inputs n = some t) (hw : t.workToDo = true) : t.Normal := by
  induction n generalizing t with
  | zero =>
    cases h
    exact hs₀.normal hw fun hrel => hself (relation_eq_self.mp hrel)
  | succ n ih =>
    obtain ⟨s, hs, ht⟩ := Option.bind_eq_some_iff.mp h
    have hworking : s.workToDo = true := by
      cases hstop : s.workToDo with
      | true => rfl
      | false =>
        rw [loopState_of_stopped hs hstop] at h
        cases h
    have hnormal := ih (fun m hm => hstraight m (Nat.lt_succ_of_lt hm)) hs hworking
    exact hnormal.round (hstraight n (Nat.lt_succ_self n) s hs) ht hw

theorem straight_of_progresses (h : Progresses s₀ inputs) {n : Nat} {s : Loop}
    (hs : loopState Loop.round s₀ inputs n = some s) (hnormal : s.Normal) :
    s.Straight (inputs n) := by
  refine ⟨fun hasked => ?_, fun hnothing => ?_, fun hunanswered => ?_⟩
  · obtain ⟨t, ht, u, hu, hnot⟩ := hnormal.selfRound hasked (inputs (n + 1))
    exact hnot _ (h.advances (n + 1) t u (loopState_succ hs ht) hu)
  · obtain ⟨t, ht, hdangling⟩ := hnormal.dangling_of_nothingSent hnothing
    have hnull := ne_null_of_relation (p := s.relP) (by rw [hnothing.2.1]; decide)
    exact Loop.not_advances hdangling.working hnothing.not_sends hnull
      (fun hself => absurd hself hnormal.notSelf) (h.advances n s t hs ht)
  · obtain ⟨t, ht, hw⟩ := hnormal.unanswered hunanswered
    have hnull := ne_null_of_relation (p := s.relP) (by rw [hunanswered.2.1]; decide)
    exact Loop.not_advances hw hunanswered.not_sends hnull
      (fun hself => absurd hself hnormal.notSelf) (h.advances n s t hs ht)

end Runs

theorem Loop.straight_of_stopped {s : Loop} {i : RoundInput} (h : s.workToDo = false) :
    s.Straight i := by
  have hnot : s.workToDo ≠ true := ne_true_of_eq_false h
  exact ⟨fun hi => hnot hi.1, fun hi => hnot hi.1, fun hi => hnot hi.1⟩

theorem Setup.start_notSelf (setup : Setup) : ¬ setup.start.relP.Has "relation/self" := by
  unfold Setup.start
  split_ifs
  · exact Loop.initialDelete_notSelf
  · exact Loop.initialDelete_notSelf
  · exact Loop.initialPost_notSelf

/-- **When the loop makes progress.**  Whatever comes before the loop and whatever the rounds bring:
every round gets somewhere, and there is always another request or the end, exactly if no answer
asks for the same again, and no round goes on that had nothing to send. -/
theorem progresses_iff (setup : Setup) (inputs : Nat → RoundInput) :
    Progresses setup.start inputs ↔
      ∀ n s, loopState Loop.round setup.start inputs n = some s → s.Straight (inputs n) := by
  have hgood := Loop.good_start setup
  have hself := setup.start_notSelf
  constructor
  · intro h n
    -- the first round that is not straight starts in order
    induction n using Nat.strong_induction_on with
    | h n ih =>
      intro s hs
      cases hw : s.workToDo with
      | false => exact Loop.straight_of_stopped hw
      | true => exact straight_of_progresses h hs (normal_of_straight hgood hself ih hs hw)
  · intro hstraight
    refine progresses_of_advances fun n s t hs ht => ?_
    cases hw : s.workToDo with
    | false =>
      have hround : s.round (inputs n) = none := if_pos hw
      rw [hround] at ht
      cases ht
    | true =>
      have hnormal := normal_of_straight hgood hself (fun m _ => hstraight m) hs hw
      exact hnormal.advances (hstraight n s hs).sent (hstraight n s hs).answered ht

/-! ## Turning around on the spot -/

/-- Every answer is `relation/self`, and has no command. -/
def spinInput : RoundInput :=
  { selfInput with
    http := .answered 200 (some "https://se/01") (some "https://se/relation/self") none }

theorem stuck_spinInput (n : Nat) :
    ∃ s, loopState Loop.round plainSetup.start (fun _ => spinInput) (n + 1) = some s ∧
      s.Stuck := by
  induction n with
  | zero =>
    have hnormal : plainSetup.start.Normal :=
      (Loop.good_start plainSetup).normal rfl (by decide)
    have hsends : plainSetup.start.sends spinInput := by
      have hrel : plainSetup.start.relP.relation = .initialPost := by decide
      unfold Loop.sends
      rw [hrel]
      exact ⟨fun h => (nomatch h), trivial⟩
    obtain ⟨s, hs, hstuck⟩ := hnormal.stuck hsends rfl (i := spinInput) rfl (by decide) (by decide)
    exact ⟨s, loopState_succ rfl hs, hstuck⟩
  | succ n ih =>
    obtain ⟨s, hs, hstuck⟩ := ih
    obtain ⟨t, ht, hstuck'⟩ := hstuck.stays spinInput
    exact ⟨t, loopState_succ hs ht, hstuck'⟩

/-- **The loop turns around on the spot.**  The first request is answered with `relation/self` and
without a command; there is no request behind it, and no end. -/
theorem not_progresses_spinInput :
    (∀ n, ∃ s, loopState Loop.round plainSetup.start (fun _ => spinInput) (n + 1) = some s ∧
      s.workToDo = true ∧ ¬ s.sends spinInput) ∧
      ¬ Progresses plainSetup.start fun _ => spinInput := by
  have hspins : ∀ n, ∃ s,
      loopState Loop.round plainSetup.start (fun _ => spinInput) (n + 1) = some s ∧
        s.workToDo = true ∧ ¬ s.sends spinInput := by
    intro n
    obtain ⟨s, hs, hstuck⟩ := stuck_spinInput n
    exact ⟨s, hs, hstuck.working, Loop.not_sends_of_self hstuck.self⟩
  refine ⟨hspins, fun h => ?_⟩
  obtain ⟨s, hs, -⟩ := hspins 0
  obtain ⟨m, hm, hend⟩ := h.recurs 1 s hs
  obtain ⟨k, rfl⟩ := Nat.exists_eq_add_of_le' hm
  obtain ⟨t, ht, -, hsends⟩ := hspins k
  rcases hend with hend | ⟨u, hu, hrequests⟩
  · rw [hend] at ht
    cases ht
  · obtain rfl := Option.some.inj (hu.symm.trans ht)
    exact hsends hrequests.2.1

end McDaemon.RootPa.Provisioning
