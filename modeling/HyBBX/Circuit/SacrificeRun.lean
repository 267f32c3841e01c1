import HyBBX.Circuit.SacrificeOrder

/-! The sacrifice order along logins, closes and flow actions. -/

namespace HyBBX.Circuit

open BalanceAction

section Cancel

variable {ss : List UserSession}

def cancelTargets (ss : List UserSession) : List BwUserEntry := (bwSortVictimsFirst (bwCollect ss)).dropLast

lemma bwCollect_nodup (ss : List UserSession) : (bwCollect ss).Nodup := by
  have hplaces : (ss.zipIdx.map Prod.snd).Nodup := by
    rw [List.zipIdx_map_snd]
    exact List.nodup_range'
  exact ((List.Nodup.of_map Prod.snd hplaces).filter _).sublist (List.take_sublist _ _)

lemma mem_cancelTargets (hids : DistinctIds ss) (e : BwUserEntry) :
    e ∈ cancelTargets ss ↔ e ∈ bwCollect ss ∧ ∃ e' ∈ bwCollect ss, victimKey e < victimKey e' := by
  have hperm := perm_bwSort (bwCollect ss)
  have hsorted := bwSort_pairwise (bwCollect ss)
  have hnodup := hperm.nodup_iff.mpr (bwCollect_nodup ss)
  rw [cancelTargets]
  by_cases hnil : bwSortVictimsFirst (bwCollect ss) = []
  · rw [hnil] at hperm ⊢
    rw [hperm.symm.eq_nil]
    simp
  · have hsplit := List.dropLast_append_getLast hnil
    generalize (bwSortVictimsFirst (bwCollect ss)).getLast hnil = last at hsplit
    have hmem : ∀ e', e' ∈ bwCollect ss ↔ e' ∈ (bwSortVictimsFirst (bwCollect ss)).dropLast ∨ e' = last := by
      intro e'
      rw [← hperm.mem_iff, ← List.mem_singleton, ← List.mem_append, hsplit]
    rw [← hsplit, List.pairwise_append] at hsorted
    rw [← hsplit, List.nodup_append] at hnodup
    have hle : ∀ e' ∈ (bwSortVictimsFirst (bwCollect ss)).dropLast, victimKey e' ≤ victimKey last :=
      fun e' he' => hsorted.2.2 e' he' last List.mem_cons_self
    constructor
    · intro he
      have hcollected := (hmem e).mpr (.inl he)
      have hlast := (hmem last).mpr (.inr rfl)
      have hne : e ≠ last := hnodup.2.2 e he last List.mem_cons_self
      exact ⟨hcollected, last, hlast, lt_of_le_of_ne (hle e he) fun h => hne (key_injective hids hcollected hlast h)⟩
    · rintro ⟨he, e', he', hlt⟩
      rcases (hmem e).mp he with htarget | rfl
      · exact htarget
      · rcases (hmem e').mp he' with htarget | rfl
        · exact absurd hlt (not_lt.mpr (hle e' htarget))
        · exact absurd hlt (lt_irrefl _)

lemma cancel_get (ss : List UserSession) (i : ℕ) : (bandwidthPolicyApply ss balCancel).1[i]? =
    ss[i]?.map fun s => if i ∈ (cancelTargets ss).map Prod.snd then sessionDisconnectBandwidth s else s := by
  have hagain : ∀ s, sessionDisconnectBandwidth (sessionDisconnectBandwidth s) = sessionDisconnectBandwidth s := by
    intro s
    by_cases hin : s.loggedIn = false
    · simp [sessionDisconnectBandwidth, hin]
    · simp [sessionDisconnectBandwidth, hin]
  have happly : (bandwidthPolicyApply ss balCancel).1 = disconnectAll ss (cancelTargets ss) := by
    rw [bandwidthPolicyApply, cancelTargets]
    by_cases hnil : bwSortVictimsFirst (bwCollect ss) = []
    · rw [if_pos hnil, hnil]
      rfl
    · rw [if_neg hnil]
  rw [happly, disconnectAll]
  exact getElem?_foldl_modify hagain (cancelTargets ss) ss i

lemma place_target {s : UserSession} {i : ℕ} (hs : ss[i]? = some s) :
    i ∈ (cancelTargets ss).map Prod.snd ↔ (s, i) ∈ cancelTargets ss := by
  rw [List.mem_map]
  constructor
  · rintro ⟨e, he, rfl⟩
    have hcollected := (perm_bwSort (bwCollect ss)).mem_iff.mp (List.mem_of_mem_dropLast he)
    rw [mem_bwCollect hcollected, Option.some.injEq] at hs
    subst hs
    exact he
  · exact fun he => ⟨(s, i), he, rfl⟩

lemma target_marked {s : UserSession} {i : ℕ} (h : (s, i) ∈ cancelTargets ss) :
    (sessionDisconnectBandwidth s).bandwidthDisconnect = true := by
  have hcollected := (perm_bwSort (bwCollect ss)).mem_iff.mp (List.mem_of_mem_dropLast h)
  have hin : s.loggedIn = true := (user_of_collected hcollected).2
  rw [sessionDisconnectBandwidth, if_neg (by rw [hin]; decide)]

lemma cancel_newly {s : UserSession} {i : ℕ} :
    Newly UserSession.bandwidthDisconnect ss (bandwidthPolicyApply ss balCancel).1 s i ↔
      ss[i]? = some s ∧ s.bandwidthDisconnect = false ∧ (s, i) ∈ cancelTargets ss := by
  rw [Newly, cancel_get]
  refine and_congr_right fun hs => and_congr_right fun hbefore => ?_
  rw [hs, Option.map_some, ← place_target hs]
  constructor
  · rintro ⟨s', hs', hafter⟩
    rw [Option.some.injEq] at hs'
    subst hs'
    by_contra hno
    rw [if_neg hno] at hafter
    exact absurd (hbefore.symm.trans hafter) Bool.false_ne_true
  · intro htarget
    exact ⟨_, rfl, by rw [if_pos htarget]; exact target_marked ((place_target hs).mp htarget)⟩

lemma cancel_pauses_nobody (s : UserSession) (i : ℕ) :
    ¬Newly UserSession.bandwidthPaused ss (bandwidthPolicyApply ss balCancel).1 s i := by
  rintro ⟨hs, hbefore, s', hs', hafter⟩
  rw [cancel_get, hs, Option.map_some, Option.some.injEq] at hs'
  subst hs'
  split_ifs at hafter
  · exact absurd (hbefore.symm.trans (disconnect_paused s hafter)) Bool.false_ne_true
  · exact absurd (hbefore.symm.trans hafter) Bool.false_ne_true

lemma cancel_inOrder (hids : DistinctIds ss) : InSacrificeOrder ss balCancel ↔ RightVictims ss balCancel := by
  rw [RightVictims]
  constructor
  · rintro h ⟨⟨r, j⟩, hr, hradio, hunmarked, hout⟩ ⟨s, i⟩ hs htcp hbefore e' he'
    by_contra hlt
    have htarget := (mem_cancelTargets hids (s, i)).mpr ⟨hs, e', he', not_le.mp hlt⟩
    have hget := List.mem_zipIdx_iff_getElem?.mp hr
    have hspared : (r, j) ∉ cancelTargets ss := fun hin => hout ((mem_cancelTargets hids _).mp hin).1
    have hafter : (bandwidthPolicyApply ss balCancel).1[j]? = some r := by
      rw [cancel_get, hget, Option.map_some, if_neg fun hin => hspared ((place_target hget).mp hin)]
    have hmarked := h.marked s i (cancel_newly.mpr ⟨mem_bwCollect hs, hbefore, htarget⟩) htcp r (List.mem_of_getElem? hafter) hradio
    exact absurd (hunmarked.symm.trans hmarked) Bool.false_ne_true
  · intro h
    refine ⟨fun s i hnew => absurd hnew (cancel_pauses_nobody s i), ?_, fun haction => (by cases haction),
      fun haction => (by cases haction)⟩
    intro s i hnew htcp r hr hradio
    obtain ⟨-, hbefore, htarget⟩ := cancel_newly.mp hnew
    obtain ⟨hcollected, last, hlast, hbehind⟩ := (mem_cancelTargets hids (s, i)).mp htarget
    obtain ⟨j, hj⟩ := List.mem_iff_getElem?.mp hr
    rw [cancel_get] at hj
    obtain ⟨r', hr', rfl⟩ := Option.map_eq_some_iff.mp hj
    by_cases hplace : j ∈ (cancelTargets ss).map Prod.snd
    · rw [if_pos hplace]
      exact target_marked ((place_target hr').mp hplace)
    · rw [if_neg hplace] at hradio ⊢
      by_contra hunmarked
      by_cases hin : (r', j) ∈ bwCollect ss
      · exact hplace ((place_target hr').mpr ((mem_cancelTargets hids _).mpr ⟨hin, (s, i), hcollected, key_radio_lt hradio htcp⟩))
      · have hnone := h ⟨(r', j), List.mem_zipIdx_iff_getElem?.mpr hr', hradio,
          by simpa using hunmarked, hin⟩ (s, i) hcollected htcp
          hbefore last hlast
        exact absurd hbehind (not_lt.mpr hnone)

end Cancel

section Step

variable {ss : List UserSession}

lemma resume_get (ss : List UserSession) (i : ℕ) : (bandwidthPolicyApply ss balResume).1[i]? =
    ss[i]?.map fun s => if i ∈ (bwSortVictimsFirst (bwCollect ss)).map Prod.snd then sessionSetBandwidthPaused false s else s := by
  have happly : (bandwidthPolicyApply ss balResume).1 =
      (bwSortVictimsFirst (bwCollect ss)).foldl (fun ss e => ss.modify e.2 (sessionSetBandwidthPaused false)) ss := by
    rw [bandwidthPolicyApply]
    by_cases hnil : bwSortVictimsFirst (bwCollect ss) = []
    · rw [if_pos hnil, hnil]
      rfl
    · rw [if_neg hnil]
  rw [happly]
  exact @getElem?_foldl_modify (sessionSetBandwidthPaused false) (fun _ => rfl) _ ss i

lemma resume_newly (flag : UserSession → Bool)
    (hflag : ∀ s, flag (sessionSetBandwidthPaused false s) = true → flag s = true)
    (s : UserSession) (i : ℕ) : ¬Newly flag ss (bandwidthPolicyApply ss balResume).1 s i := by
  rintro ⟨hs, hbefore, s', hs', hafter⟩
  rw [resume_get, hs, Option.map_some, Option.some.injEq] at hs'
  subst hs'
  split_ifs at hafter
  · exact absurd (hbefore.symm.trans (hflag s hafter)) Bool.false_ne_true
  · exact absurd (hbefore.symm.trans hafter) Bool.false_ne_true

/-- An action keeps the order exactly if the users it finds are the right ones. -/
lemma inOrder_iff (hids : DistinctIds ss) (action : BalanceAction) : InSacrificeOrder ss action ↔
    RightVictims ss action := by
  cases action with
  | balPause => exact pause_inOrder ss
  | balBreak => exact break_inOrder hids
  | balCancel => exact cancel_inOrder hids
  | balResume =>
    refine iff_of_true ((inOrder_none ss ?_).mpr ⟨fun h => (by cases h), fun h => (by cases h)⟩) trivial
    intro flag hflag
    rcases List.mem_pair.mp hflag with rfl | rfl
    · exact resume_newly _ fun s h => absurd h Bool.false_ne_true
    · exact resume_newly _ fun s h => h
  | balNone =>
    have hsame : (bandwidthPolicyApply ss balNone).1 = ss := by
      rw [bandwidthPolicyApply]
      split_ifs <;> rfl
    refine iff_of_true ((inOrder_none ss ?_).mpr ⟨fun h => (by cases h), fun h => (by cases h)⟩) trivial
    rw [hsame]
    exact fun flag _ => not_newly_self ss flag

/-- With no more users than the entries hold, only a BREAK can go wrong. -/
lemma rightVictims_of_few (hfew : (ss.zipIdx.filter fun e => (sessionSacrificePriority e.1).isSome && e.1.loggedIn).length ≤ bwUserMax)
    {action : BalanceAction} (hbreak : action ≠ balBreak) : RightVictims ss action := by
  have hseen : ∀ s i, ss[i]? = some s → User s → (s, i) ∈ bwCollect ss := by
    intro s i hs hu
    rw [bwCollect, List.take_of_length_le hfew]
    exact List.mem_filter.mpr ⟨List.mem_zipIdx_iff_getElem?.mpr hs, by simp [hu.1, hu.2]⟩
  cases action with
  | balPause =>
    constructor
    · rintro ⟨s, hs, hu, hpaused⟩
      obtain ⟨i, hi⟩ := List.mem_iff_getElem?.mp hs
      exact ⟨(s, i), hseen s i hi hu, hpaused⟩
    · rintro ⟨s, hs, hradio, hpaused⟩
      obtain ⟨i, hi⟩ := List.mem_iff_getElem?.mp hs
      exact ⟨(s, i), hseen s i hi ((user_iff s).mpr (.inl hradio)), hradio, hpaused⟩
  | balBreak => exact absurd rfl hbreak
  | balCancel =>
    rintro ⟨e, he, hradio, -, hout⟩
    exact absurd (hseen e.1 e.2 (List.mem_zipIdx_iff_getElem?.mp he) ((user_iff e.1).mpr (.inl hradio))) hout
  | balResume | balNone => trivial

end Step

/-- What can happen to the population of sessions; a login, and a change of the user, begins a session record anew. -/
inductive PolicyEvent
  | connect (transport : TransportKind)
  | login (k : ℕ) (connectedAt : ℤ)
  | logout (k : ℕ)
  | close (k : ℕ)
  | apply (action : BalanceAction)

structure PolicyState where
  sessions : List UserSession
  nextId : ℕ

def policyStart : PolicyState := ⟨[], 1⟩

def beginSession (id : ℕ) (connectedAt : ℤ) (session : UserSession) : UserSession :=
  { session with sessionId := id, connectedAt := connectedAt, loggedIn := true }

def policyStep (s : PolicyState) : PolicyEvent → PolicyState
  | .connect transport => { s with sessions := ⟨0, transport, 0, false, false, false⟩ :: s.sessions }
  | .login k connectedAt => ⟨s.sessions.modify k (beginSession s.nextId connectedAt), s.nextId + 1⟩
  | .logout k => { s with sessions := s.sessions.modify k fun session => { session with loggedIn := false } }
  | .close k => { s with sessions := s.sessions.eraseIdx k }
  | .apply action => { s with sessions := (bandwidthPolicyApply s.sessions action).1 }

def policyRun (s : PolicyState) (events : List PolicyEvent) : PolicyState := events.foldl policyStep s

structure IdsFresh (s : PolicyState) : Prop where
  distinct : DistinctIds s.sessions
  fresh : ∀ session ∈ s.sessions, session.loggedIn = true → session.sessionId < s.nextId

section Ids

lemma apply_get (ss : List UserSession) (action : BalanceAction) (i : ℕ) : ∃ f : UserSession → UserSession,
    (bandwidthPolicyApply ss action).1[i]? = ss[i]?.map f ∧
      ∀ s, (f s).sessionId = s.sessionId ∧ (f s).loggedIn = s.loggedIn := by
  have hsame : ∃ f : UserSession → UserSession, ss[i]? = ss[i]?.map f ∧
      ∀ s, (f s).sessionId = s.sessionId ∧ (f s).loggedIn = s.loggedIn := ⟨id, by simp, fun s => ⟨rfl, rfl⟩⟩
  have hone : ∀ (f : UserSession → UserSession) k, (∀ s, (f s).sessionId = s.sessionId ∧ (f s).loggedIn = s.loggedIn) →
      ∃ g : UserSession → UserSession, (ss.modify k f)[i]? = ss[i]?.map g ∧
        ∀ s, (g s).sessionId = s.sessionId ∧ (g s).loggedIn = s.loggedIn := by
    intro f k hf
    by_cases hplace : k = i
    · exact ⟨f, by rw [← hplace, List.getElem?_modify_eq]; rfl, hf⟩
    · rw [List.getElem?_modify_ne _ _ hplace]
      exact hsame
  have hmark : ∀ s, (sessionDisconnectBandwidth s).sessionId = s.sessionId ∧
      (sessionDisconnectBandwidth s).loggedIn = s.loggedIn := by
    intro s
    rw [sessionDisconnectBandwidth]
    split_ifs <;> exact ⟨rfl, rfl⟩
  cases action with
  | balPause =>
    rw [bandwidthPolicyApply]
    split_ifs
    · exact hsame
    · cases (bwSortVictimsFirst (bwCollect ss)).find? fun e => !e.1.bandwidthPaused with
      | none => exact hsame
      | some e => exact hone _ e.2 fun s => ⟨rfl, rfl⟩
  | balBreak =>
    rcases break_target ss with ⟨-, happly⟩ | ⟨e, -, happly⟩
    · rw [happly]
      exact hsame
    · rw [happly]
      exact hone _ e.2 hmark
  | balCancel =>
    refine ⟨_, cancel_get ss i, fun s => ?_⟩
    split_ifs
    · exact hmark s
    · exact ⟨rfl, rfl⟩
  | balResume =>
    refine ⟨_, resume_get ss i, fun s => ?_⟩
    split_ifs <;> exact ⟨rfl, rfl⟩
  | balNone =>
    rw [bandwidthPolicyApply]
    split_ifs <;> exact hsame

/-- The ids stay apart if every session has been one before. -/
lemma idsFresh_of_old {s s' : PolicyState} (h : IdsFresh s) (place : ℕ → ℕ) (hplace : place.Injective)
    (hid : s.nextId ≤ s'.nextId)
    (hold : ∀ i t, s'.sessions[i]? = some t → t.loggedIn = true →
      ∃ r, s.sessions[place i]? = some r ∧ r.loggedIn = true ∧ r.sessionId = t.sessionId) : IdsFresh s' := by
  constructor
  · intro i j t u hi hj ht hu heq
    obtain ⟨r, hr, hin, hrid⟩ := hold i t hi ht
    obtain ⟨q, hq, hqin, hqid⟩ := hold j u hj hu
    exact hplace (h.distinct _ _ r q hr hq hin hqin (by rw [hrid, hqid, heq]))
  · intro t ht hin
    obtain ⟨i, hi⟩ := List.mem_iff_getElem?.mp ht
    obtain ⟨r, hr, hrin, hrid⟩ := hold i t hi hin
    exact hrid ▸ (h.fresh r (List.mem_of_getElem? hr) hrin).trans_le hid

lemma idsFresh_step {s : PolicyState} (h : IdsFresh s) (event : PolicyEvent) : IdsFresh (policyStep s event) := by
  cases event with
  | connect transport =>
    constructor
    · intro i j t u hi hj ht hu heq
      cases i with
      | zero =>
        obtain rfl := Option.some.inj hi
        cases ht
      | succ i =>
        cases j with
        | zero =>
          obtain rfl := Option.some.inj hj
          cases hu
        | succ j => exact congrArg Nat.succ (h.distinct i j t u hi hj ht hu heq)
    · intro t ht hin
      rcases List.mem_cons.mp ht with rfl | ht
      · cases hin
      · exact h.fresh t ht hin
  | login k connectedAt =>
    have hget : ∀ i t, (policyStep s (.login k connectedAt)).sessions[i]? = some t → t.loggedIn = true →
        (i = k ∧ t.sessionId = s.nextId) ∨ (i ≠ k ∧ s.sessions[i]? = some t ∧ t.sessionId < s.nextId) := by
      intro i t hi hin
      rw [policyStep] at hi
      by_cases hplace : k = i
      · subst hplace
        rw [List.getElem?_modify_eq] at hi
        obtain ⟨r, -, rfl⟩ := Option.map_eq_some_iff.mp hi
        exact .inl ⟨rfl, rfl⟩
      · rw [List.getElem?_modify_ne _ _ hplace] at hi
        exact .inr ⟨fun hik => hplace hik.symm, hi, h.fresh t (List.mem_of_getElem? hi) hin⟩
    constructor
    · intro i j t u hi hj ht hu heq
      rcases hget i t hi ht with ⟨rfl, hnew⟩ | ⟨-, hi', hlt⟩
      · rcases hget j u hj hu with ⟨rfl, -⟩ | ⟨-, -, hlt⟩
        · rfl
        · omega
      · rcases hget j u hj hu with ⟨rfl, hnew⟩ | ⟨-, hj', -⟩
        · omega
        · exact h.distinct i j t u hi' hj' ht hu heq
    · intro t ht hin
      obtain ⟨i, hi⟩ := List.mem_iff_getElem?.mp ht
      rcases hget i t hi hin with ⟨-, hnew⟩ | ⟨-, -, hlt⟩
      · exact hnew ▸ Nat.lt_succ_self _
      · exact hlt.trans (Nat.lt_succ_self _)
  | logout k =>
    refine idsFresh_of_old h id Function.injective_id (le_refl _) fun i t hi hin => ?_
    rw [policyStep] at hi
    by_cases hplace : k = i
    · rw [← hplace, List.getElem?_modify_eq] at hi
      obtain ⟨r, -, rfl⟩ := Option.map_eq_some_iff.mp hi
      cases hin
    · rw [List.getElem?_modify_ne _ _ hplace] at hi
      exact ⟨t, hi, hin, rfl⟩
  | close k =>
    refine idsFresh_of_old h (fun i => if i < k then i else i + 1) ?_ (le_refl _) fun i t hi hin => ?_
    · intro i j hij
      dsimp only at hij
      split_ifs at hij <;> omega
    · rw [policyStep, List.getElem?_eraseIdx] at hi
      refine ⟨t, ?_, hin, rfl⟩
      split_ifs at hi ⊢
      · exact hi
      · exact hi
  | apply action =>
    refine idsFresh_of_old h id Function.injective_id (le_refl _) fun i t hi hin => ?_
    obtain ⟨f, hget, hf⟩ := apply_get s.sessions action i
    rw [policyStep, hget] at hi
    obtain ⟨r, hr, rfl⟩ := Option.map_eq_some_iff.mp hi
    exact ⟨r, hr, (hf r).2 ▸ hin, (hf r).1.symm⟩

lemma idsFresh_run (events : List PolicyEvent) {s : PolicyState} (h : IdsFresh s) : IdsFresh (policyRun s events) := by
  induction events generalizing s with
  | nil => exact h
  | cons event events ih => exact ih (idsFresh_step h event)

lemma idsFresh_start : IdsFresh policyStart :=
  ⟨fun i j s t hi => absurd hi (by simp [policyStart]), fun s hs => absurd hs List.not_mem_nil⟩

end Ids

/-- In every run the actions keep the order exactly if the users that each finds are the right ones. -/
theorem sacrifice_order_iff (events : List PolicyEvent) :
    (∀ before action, before ++ [.apply action] <+: events → InSacrificeOrder (policyRun policyStart before).sessions action) ↔
      ∀ before action, before ++ [.apply action] <+: events →
        RightVictims (policyRun policyStart before).sessions action :=
  forall₃_congr fun before action _ => inOrder_iff (idsFresh_run before idsFresh_start).distinct action

/-- A TCP user is paused before a radio user logs in. -/
def lateRadio : List PolicyEvent :=
  [.connect .telnet, .login 0 100, .apply balPause, .connect .packetRadio, .login 0 200]

/-- The next BREAK marks the TCP user, and the radio user is not marked. -/
theorem break_spares_radio : ¬∀ before action, before ++ [.apply action] <+: lateRadio ++ [.apply balBreak] →
    InSacrificeOrder (policyRun policyStart before).sessions action := by
  intro hall
  have horder := hall lateRadio balBreak List.prefix_rfl
  have hmarked := horder.marked ⟨1, .telnet, 100, true, true, false⟩ 1 ⟨by decide +kernel, rfl,
    ⟨1, .telnet, 100, true, false, true⟩, by decide +kernel, rfl⟩ ⟨rfl, rfl⟩
    ⟨2, .packetRadio, 200, true, false, false⟩ (by decide +kernel) ⟨rfl, rfl⟩
  exact absurd hmarked (by decide)

end HyBBX.Circuit
