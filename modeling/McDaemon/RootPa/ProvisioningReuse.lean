/-
# McDaemon.RootPa.ProvisioningReuse — when the provisioning loop uses a message that is gone.

Two rounds end with current strings that have been freed: the one behind an answer `relation/self`,
where the strings of the last request are current again and are freed as used, and the one for
`relation/system_info` that sends nothing and goes on.  The next round looks at the relation, or
sends to the link.  Without such a round the books stay in order.
-/
import Mathlib.Data.Nat.Init
import McDaemon.RootPa.ProvisioningTokens

namespace McDaemon.RootPa.Provisioning

open McDaemon.Lib

namespace Loop

/-! ## Before the first round -/

theorem held_empty : Held [] 0 [] :=
  ⟨⟨List.Pairwise.nil, List.nodup_nil, by simp⟩, by simp, by simp⟩

theorem initialPost_notSelf : ¬ Ptr.initialPost.Has "relation/self" := by decide

theorem initialDelete_notSelf : ¬ Ptr.initialDelete.Has "relation/self" := by decide

/-- The loop starts with its books in order, or not at all. -/
theorem good_start (i : Setup) : i.start.Good := by
  have hlink : Held [] 1 [.heap 0 i.link] := held_empty.fresh (some i.link)
  unfold Setup.start
  split
  · refine .inl
      { working := rfl, usedLink := rfl, usedRel := rfl, usedCommand := rfl
        notSelf := initialDelete_notSelf
        pendingRel := .inr rfl
        link := ?_
        pendingLink := fun h => nomatch h
        held := (hlink.fresh i.resetLink).congr ?_
        quiet := fun e he => nomatch he }
    · cases i.resetLink with
      | none => exact fun _ => rfl
      | some link => exact fun h => nomatch h
    · show tokens [fresh 1 i.resetLink, .heap 0 i.link] =
        tokens [fresh 1 i.resetLink, .initialDelete, .null, .heap 0 i.link]
      simp only [tokens_cons]
      rfl
  · cases hw : i.workToDo with
    | false =>
      have hkind : ∀ e ∈ free (.heap 0 i.link), ¬ e.AnswersSelf := by
        intro e he
        rw [free_kind he]
        exact id
      exact .inr (.inr ⟨rfl, hlink.free.owns.safe, Settled.of_forall hkind⟩)
    | true =>
      refine .inl
        { working := rfl, usedLink := rfl, usedRel := rfl, usedCommand := rfl
          notSelf := ?_
          pendingRel := .inl rfl
          link := fun h => nomatch h
          pendingLink := fun _ => rfl
          held := hlink.congr ?_
          quiet := fun e he => nomatch he }
      · show ¬ (if i.delete = true then Ptr.initialDelete else Ptr.initialPost).Has _
        split
        · exact initialDelete_notSelf
        · exact initialPost_notSelf
      · show _ = tokens [_, if i.delete = true then Ptr.initialDelete else Ptr.initialPost, _, _]
        split
        · rfl
        · rfl

/-! ## A current string that is gone -/

/-- The next round will look at a relation that has been freed, or send to a link that has. -/
structure Dangling (s : Loop) : Prop where
  working : s.workToDo = true
  rel : s.relP ≠ .null
  notSelf : ¬ s.relP.Has "relation/self"
  gone : (∃ t, s.relP.token = some t ∧ t ∈ strings.gone s.log) ∨
    ((s.relP = .initialPost ∨ s.relP = .initialDelete) ∧
      ∃ t, s.linkP.token = some t ∧ t ∈ strings.gone s.log)

theorem history_roundEnd (t : Loop) : ∃ evs, t.roundEnd.history = t.log ++ evs := by
  cases hw : t.workToDo with
  | false => exact ⟨_, (roundEnd_of_stop hw).2.trans (List.append_assoc ..)⟩
  | true =>
    by_cases hself : t.relP.Has "relation/self"
    · rw [roundEnd_of_self hw hself]
      exact ⟨look t.relP, if_pos hw⟩
    · rw [roundEnd_of_go hw hself]
      exact ⟨_, (if_pos hw).trans (List.append_assoc ..)⟩

theorem exchange_log {s : Loop} (hw : s.workToDo = true) (hself : s.relP.relation ≠ .self)
    (i : RoundInput) : ∃ evs, (s.exchange i).log = s.log ++ evs := by
  obtain ⟨ret, tmpRet, responseP, reads, -, h⟩ := exchange_cases hw hself i
  rcases h with
    ⟨-, code, link, rel, command, -, heq⟩ | ⟨-, heq | heq | ⟨w, heq⟩ | ⟨-, heq⟩⟩
  · rw [heq]
    exact ⟨_, (List.append_assoc ..).trans (List.append_assoc ..)⟩
  · rw [heq]
    exact ⟨_, rfl⟩
  · rw [heq]
    exact ⟨_, List.append_assoc ..⟩
  · rw [heq]
    exact ⟨_, rfl⟩
  · rw [heq]
    exact ⟨_, rfl⟩

/-- The initial relations make a request as soon as there is a link. -/
theorem send_log {s : Loop} (hlink : s.linkP ≠ .null) (i : RoundInput) :
    ∃ evs, (s.send i).log = s.log ++ .requested s.linkP s.relP s.commandP :: evs := by
  show ∃ evs, (s.httpCommunicate i.http).2.log = _
  cases i.http with
  | outOfMemory | network =>
    refine ⟨[], ?_⟩
    show (ite (s.linkP = .null) _ _ : RootpaError × Loop).2.log = _
    rw [if_neg hlink]
  | answered code link rel command =>
    refine ⟨[.answered (fresh (s.allocated + 1) rel)], ?_⟩
    show (ite (s.linkP = .null) _ _ : RootpaError × Loop).2.log = _
    rw [if_neg hlink]

theorem Dangling.not_safe {s : Loop} (hs : s.Dangling) (i : RoundInput) :
    ∃ t, s.round i = some t ∧ ¬ strings.Safe t.history := by
  refine ⟨_, round_of_ask hs.working hs.rel hs.notSelf i, ?_⟩
  have hlook : look s.relP = [.compared s.relP] := if_neg hs.rel
  have hself : s.asking.relP.relation ≠ .self := fun h => hs.notSelf (relation_eq_self.mp h)
  obtain ⟨evs, hevs⟩ := history_roundEnd (s.asking.exchange i)
  rw [hevs]
  rcases hs.gone with ⟨t, ht, hgone⟩ | ⟨hinitial, t, ht, hgone⟩
  · obtain ⟨evs', hevs'⟩ := exchange_log (s := s.asking) hs.working hself i
    have hlog : (s.asking.exchange i).log ++ evs = s.log ++ .compared s.relP :: (evs' ++ evs) := by
      rw [hevs', show s.asking.log = s.log ++ look s.relP from rfl, hlook]
      simp
    rw [hlog]
    exact Ledger.not_safe_of_touched (t := t) (Option.mem_toList.mpr ht) hgone
  · have hexchange : s.asking.exchange i = s.asking.send i := by
      unfold exchange
      rcases hinitial with h | h
      · rw [show s.asking.relP = .initialPost from h]
        rfl
      · rw [show s.asking.relP = .initialDelete from h]
        rfl
    have hlink : s.asking.linkP ≠ .null := by
      intro h
      rw [show s.linkP = .null from h] at ht
      cases ht
    obtain ⟨evs', hevs'⟩ := send_log hlink i
    rw [hexchange, hevs', List.append_assoc, List.cons_append]
    refine Ledger.not_safe_of_touched (t := t) ?_ ?_
    · exact List.mem_filterMap.mpr ⟨s.linkP, List.mem_cons_self, ht⟩
    · exact (Ledger.gone_append ..) ▸ List.mem_append_left _ hgone

/-! ## The rounds that leave one -/

theorem mem_gone_free {p : Ptr} {t : Nat} (h : p.token = some t) : t ∈ strings.gone (free p) := by
  have hp : p ≠ .null := by
    rintro rfl
    cases h
  unfold Provisioning.free
  rw [if_neg hp]
  exact Ledger.mem_gone.mpr ⟨_, List.mem_singleton_self _, h⟩

theorem mem_gone_cleanup_link {linkP relP commandP : Ptr} {t : Nat} (h : linkP.token = some t) :
    t ∈ strings.gone (cleanup linkP relP commandP) := by
  unfold cleanup
  rw [Ledger.gone_append]
  exact List.mem_append_right _ (mem_gone_free h)

theorem mem_gone_cleanup_rel {linkP relP commandP : Ptr} {t : Nat} (h : relP.token = some t) :
    t ∈ strings.gone (cleanup linkP relP commandP) := by
  have hconst : relP ≠ .initialPost ∧ relP ≠ .initialDelete := by
    constructor
    · rintro rfl
      cases h
    · rintro rfl
      cases h
  unfold cleanup
  rw [if_pos hconst, Ledger.gone_append, Ledger.gone_append]
  exact List.mem_append_left _ (List.mem_append_right _ (mem_gone_free h))

theorem token_of_relation {p : Ptr} (hnull : p ≠ .null) :
    (∃ t, p.token = some t) ∨ p = .initialPost ∨ p = .initialDelete := by
  cases p with
  | null => exact absurd rfl hnull
  | initialPost => exact .inr (.inl rfl)
  | initialDelete => exact .inr (.inr rfl)
  | heap token text => exact .inl ⟨token, rfl⟩

theorem Normal.dangling_of_nothingSent {s : Loop} (hs : s.Normal) {i : RoundInput}
    (h : s.NothingSent i) : ∃ t, s.round i = some t ∧ t.Dangling := by
  obtain ⟨-, hrel, hbuild, hdumped, hret⟩ := h
  have hnull : s.relP ≠ .null := ne_null_of_relation (by rw [hrel]; decide)
  have hexchange : s.asking.exchange i = s.asking.set (s.systemInfoRet i) i.buildXml none true := by
    unfold exchange
    rw [show s.asking.relP.relation = .systemInfo from hrel]
    dsimp only
    unfold systemInfo buildXmlSystemInfo
    rw [if_pos hbuild, hdumped]
    dsimp only
    rw [if_neg (show ¬ s.asking.systemInfoRet i = rootpaOk from hret), hbuild]
    rfl
  refine ⟨_, round_of_ask hs.working hnull hs.notSelf i, ?_⟩
  rw [hexchange, roundEnd_of_go (t := s.asking.set _ _ _ true) rfl hs.notSelf]
  refine ⟨rfl, hnull, hs.notSelf, ?_⟩
  rcases token_of_relation hnull with ⟨t, ht⟩ | hpost | hdelete
  · refine .inl ⟨t, ht, ?_⟩
    exact (Ledger.gone_append ..) ▸ List.mem_append_right _ (mem_gone_cleanup_rel ht)
  · rw [hpost] at hrel
    exact absurd hrel (by decide)
  · rw [hdelete] at hrel
    exact absurd hrel (by decide)

theorem rel_ne_null_of_sends {s : Loop} {i : RoundInput} (h : s.sends i) : s.relP ≠ .null := by
  refine ne_null_of_relation fun hrel => ?_
  have hsends := h.2
  rw [hrel] at hsends
  exact hsends

/-- A request that is answered: the round has received what the answer brings. -/
theorem Normal.exchange_answered {s : Loop} (hs : s.Normal) {i : RoundInput} (hsends : s.sends i)
    {code : Nat} {link rel command : Option String}
    (hhttp : i.http = .answered code link rel command) :
    ∃ ret tmpRet responseP reads,
      s.asking.exchange i = ((s.asking.tell reads).receive link rel command).set ret tmpRet
        responseP (httpResult code = rootpaOk) := by
  obtain ⟨ret, tmpRet, responseP, reads, -, h⟩ :=
    exchange_cases (s := s.asking) hs.working hs.relation_ne_self i
  rcases h with ⟨-, code', link', rel', command', hhttp', heq⟩ | ⟨hno, -⟩
  · rw [hhttp] at hhttp'
    cases hhttp'
    exact ⟨ret, tmpRet, responseP, reads, heq⟩
  · exact absurd ⟨hsends, by rw [hhttp]; exact trivial⟩ hno

/-- Behind `relation/self`, with everything that the round before used still there. -/
structure Asked (s t : Loop) (relation : Ptr) : Prop where
  working : t.workToDo = true
  rel : t.relP = relation
  self : relation.Has "relation/self"
  usedLink : t.usedLinkP = s.linkP
  usedRel : t.usedRelP = s.relP
  usedCommand : t.usedCommandP = s.commandP
  newLink : t.linkP ≠ s.linkP
  newRel : t.relP ≠ s.relP
  newCommand : t.commandP ≠ s.commandP

theorem Normal.asked {s : Loop} (hs : s.Normal) {i : RoundInput} (h : s.AskedAgain i) :
    ∃ t relation, s.round i = some t ∧ s.Asked t relation := by
  obtain ⟨-, hsends, code, link, rel, command, hhttp, hcode, hrel, hcommand⟩ := h
  have hnewLink : fresh s.allocated link ≠ s.linkP := fun h =>
    hsends.1 (hs.link (hs.held.eq_fresh (by simp) (Nat.le_refl _) h))
  have hnewRel : fresh (s.allocated + 1) (some rel) ≠ s.relP := by
    intro h
    have hnone := hs.held.eq_fresh (by simp) (Nat.le_succ _) h
    rw [← h] at hnone
    cases hnone
  have hnewCommand : fresh (s.allocated + 2) command ≠ s.commandP := by
    intro h
    have hnone := hs.held.eq_fresh (by simp) (Nat.le_add_right _ _) h
    cases command with
    | none => exact hcommand.elim (fun hne => hne h.symm) fun hne => hne rfl
    | some command =>
      rw [← h] at hnone
      cases hnone
  obtain ⟨ret, tmpRet, responseP, reads, heq⟩ := hs.exchange_answered hsends hhttp
  have hround := round_of_ask hs.working (rel_ne_null_of_sends hsends) hs.notSelf i
  have hask : (fresh (s.allocated + 1) (some rel)).Has "relation/self" := hrel
  rw [heq, decide_eq_true hcode, roundEnd_of_self (t := ((s.asking.tell reads).receive link
    (some rel) command).set ret tmpRet responseP true) rfl hask] at hround
  exact ⟨_, fresh (s.allocated + 1) (some rel), hround, rfl, rfl, hask, rfl, rfl, rfl, hnewLink,
    hnewRel, hnewCommand⟩

/-- The round behind `relation/self` frees what it makes current. -/
theorem Asked.dangling {s t : Loop} {relation : Ptr} (hs : s.Normal) (hlink : s.linkP ≠ .null)
    (hrel : s.relP ≠ .null) (ht : s.Asked t relation) (i : RoundInput) :
    ∃ u, t.round i = some u ∧ u.Dangling := by
  have hnull : t.relP ≠ .null := ht.rel ▸ ne_null_of_self ht.self
  have hrestore : ({ t with log := t.log ++ look t.relP } : Loop).restore =
      { t with
        relP := s.relP, linkP := s.linkP, commandP := s.commandP
        log := t.log ++ look t.relP ++ cleanup t.linkP t.relP t.commandP } := by
    unfold restore
    rw [if_pos ⟨ht.usedRel ▸ ht.newRel, ht.usedLink ▸ ht.newLink, ht.usedCommand ▸ ht.newCommand⟩]
    simp only [ht.usedRel, ht.usedLink, ht.usedCommand]
  have hround : t.round i = some ({ t with
      relP := s.relP, linkP := s.linkP, commandP := s.commandP
      log := t.log ++ look t.relP ++ cleanup t.linkP t.relP t.commandP } : Loop).roundEnd := by
    unfold Loop.round
    rw [if_neg (by simp [ht.working]), if_neg hnull, if_pos (ht.rel ▸ ht.self), hrestore]
  refine ⟨_, hround, ?_⟩
  rw [roundEnd_of_go (t := { t with
    relP := s.relP, linkP := s.linkP, commandP := s.commandP
    log := t.log ++ look t.relP ++ cleanup t.linkP t.relP t.commandP }) ht.working hs.notSelf]
  refine ⟨ht.working, hrel, hs.notSelf, ?_⟩
  simp only [ht.usedRel, ht.usedLink, ht.usedCommand, Ledger.gone_append]
  rcases token_of_relation hrel with ⟨n, hn⟩ | hinitial
  · exact .inl ⟨n, hn, List.mem_append_right _ (mem_gone_cleanup_rel hn)⟩
  · obtain ⟨n, hn⟩ := Option.ne_none_iff_exists'.mp fun hn => hlink (hs.link hn)
    exact .inr ⟨hinitial, n, hn, List.mem_append_right _ (mem_gone_cleanup_link hn)⟩

/-! ## Exactly when -/

theorem Good.normal {s : Loop} (hs : s.Good) (hw : s.workToDo = true)
    (hself : s.relP.relation ≠ .self) : s.Normal := by
  rcases hs with hs | hs | hs
  · exact hs
  · exact absurd (relation_eq_self.mpr hs.self) hself
  · rw [hs.stopped] at hw
    cases hw

theorem relation_ne_self_of_sends {s : Loop} {i : RoundInput} (h : s.sends i) :
    s.relP.relation ≠ .self := by
  intro hrel
  have hsends := h.2
  rw [hrel] at hsends
  exact hsends

end Loop

section Runs

variable {s₀ : Loop} {inputs : Nat → RoundInput}

theorem loopState_succ {n : Nat} {s t : Loop} (hs : loopState Loop.round s₀ inputs n = some s)
    (ht : s.round (inputs n) = some t) : loopState Loop.round s₀ inputs (n + 1) = some t := by
  show (loopState Loop.round s₀ inputs n).bind _ = _
  rw [hs]
  exact ht

/-- A dangling string is touched in the next round. -/
theorem not_neverReuses_of_dangling {n : Nat} {s : Loop}
    (hs : loopState Loop.round s₀ inputs n = some s) (h : s.Dangling) :
    ¬ NeverReuses s₀ inputs := by
  intro hnever
  obtain ⟨t, ht, hunsafe⟩ := h.not_safe (inputs n)
  exact hunsafe (hnever (n + 1) t (loopState_succ hs ht)).1

theorem not_neverReuses_of_askedAgain {n : Nat} {s : Loop}
    (hs : loopState Loop.round s₀ inputs n = some s) (hnormal : s.Normal)
    (h : s.AskedAgain (inputs n)) : ¬ NeverReuses s₀ inputs := by
  obtain ⟨t, relation, ht, hasked⟩ := hnormal.asked h
  have ht' := loopState_succ hs ht
  obtain ⟨u, hu, hdangling⟩ := Loop.Asked.dangling hnormal h.2.1.1
    (Loop.rel_ne_null_of_sends h.2.1) hasked (inputs (n + 1))
  exact not_neverReuses_of_dangling (loopState_succ ht' hu) hdangling

theorem not_neverReuses_of_nothingSent {n : Nat} {s : Loop}
    (hs : loopState Loop.round s₀ inputs n = some s) (hnormal : s.Normal)
    (h : s.NothingSent (inputs n)) : ¬ NeverReuses s₀ inputs := by
  obtain ⟨t, ht, hdangling⟩ := hnormal.dangling_of_nothingSent h
  exact not_neverReuses_of_dangling (loopState_succ hs ht) hdangling

theorem good_of_loopState (hs₀ : s₀.Good) {n : Nat} {t : Loop}
    (hno : ∀ m, m < n → ∀ s, loopState Loop.round s₀ inputs m = some s →
      ¬ s.AskedAgain (inputs m) ∧ ¬ s.NothingSent (inputs m))
    (h : loopState Loop.round s₀ inputs n = some t) : t.Good := by
  induction n generalizing t with
  | zero =>
    cases h
    exact hs₀
  | succ n ih =>
    obtain ⟨s, hs, ht⟩ := Option.bind_eq_some_iff.mp h
    obtain ⟨hasked, hsent⟩ := hno n (Nat.lt_succ_self n) s hs
    exact (ih (fun m hm => hno m (Nat.lt_succ_of_lt hm)) hs).round ht hasked hsent

end Runs

/-- **When no message is used that is gone.**  Whatever comes before the loop and whatever the
rounds bring: a round that is asked for the same again, or that sends nothing and goes on, is
followed by the use of a string that has been freed; without one, every string is freed at most once
and not touched behind that, and requests are repeated as asked. -/
theorem neverReuses_iff (setup : Setup) (inputs : Nat → RoundInput) :
    NeverReuses setup.start inputs ↔
      ∀ n s, loopState Loop.round setup.start inputs n = some s →
        ¬ s.AskedAgain (inputs n) ∧ ¬ s.NothingSent (inputs n) := by
  constructor
  · intro hnever n
    -- the first round that does it starts with its books in order
    induction n using Nat.strong_induction_on with
    | h n ih =>
      intro s hs
      have hgood := good_of_loopState (Loop.good_start setup) ih hs
      constructor
      · intro h
        have hnormal := hgood.normal h.1 (Loop.relation_ne_self_of_sends h.2.1)
        exact not_neverReuses_of_askedAgain hs hnormal h hnever
      · intro h
        have hnormal := hgood.normal h.1 (by rw [h.2.1]; decide)
        exact not_neverReuses_of_nothingSent hs hnormal h hnever
  · intro hno n t h
    exact (good_of_loopState (Loop.good_start setup) (fun m _ => hno m) h).neverReuses

/-! ## Asked for the same again -/

def plainSetup : Setup where
  link := "https://se/00"
  delete := false
  workToDo := true
  responseP := none
  factoryResetAssumed := false
  resetLink := none

/-- Every request is answered with `relation/self`. -/
def selfInput : RoundInput where
  getSysInfo := rootpaOk
  getVersion := rootpaOk
  buildXml := rootpaOk
  dumped := none
  handleXmlMessage := rootpaOk
  response := none
  http := .answered 200 (some "https://se/01") (some "https://se/relation/self") (some "")

/-- **The same again, from a string that is gone.**  The first request is answered with
`relation/self`; it is to be sent again, to the link that has been freed. -/
theorem not_neverReuses_self : ¬ NeverReuses plainSetup.start fun _ => selfInput := by
  have hs : loopState Loop.round plainSetup.start (fun _ => selfInput) 0 =
      some plainSetup.start := rfl
  have hgood := Loop.good_start plainSetup
  refine not_neverReuses_of_askedAgain hs (hgood.normal rfl (by decide)) ⟨rfl, ⟨?_, ?_⟩, ?_⟩
  · exact fun h => nomatch h
  · have hrel : plainSetup.start.relP.relation = .initialPost := by decide
    rw [hrel]
    exact trivial
  · exact ⟨200, _, _, _, rfl, by decide, by decide, .inr (Option.some_ne_none _)⟩

end McDaemon.RootPa.Provisioning
