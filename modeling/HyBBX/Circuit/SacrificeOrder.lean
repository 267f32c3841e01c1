import Mathlib.Data.Prod.Lex
import HyBBX.Circuit.BandwidthPolicy

/-! Whether the users are sacrificed in the order that is meant. -/

namespace HyBBX.Circuit

open BalanceAction

/-- A smaller key is sacrificed first. -/
def victimKey (e : BwUserEntry) : ℕ ×ₗ ℤ ×ₗ ℤ :=
  toLex ((sessionSacrificePriority e.1).getD 0, toLex (-e.1.connectedAt, -(e.1.sessionId : ℤ)))

lemma bwSwap_iff (a b : BwUserEntry) : bwSwap a b = true ↔ victimKey b < victimKey a := by
  simp only [bwSwap, victimKey, Prod.Lex.toLex_lt_toLex, Bool.or_eq_true, Bool.and_eq_true, decide_eq_true_eq]
  omega

lemma bwSelect_le (x : BwUserEntry) (ys : List BwUserEntry) :
    ∀ z ∈ x :: ys, victimKey (bwSelect x ys).1 ≤ victimKey z := by
  induction ys generalizing x with
  | nil =>
    intro z hz
    rw [List.mem_singleton.mp hz]
    exact le_refl _
  | cons y ys ih =>
    rw [bwSelect]
    by_cases hswap : bwSwap x y = true
    · rw [if_pos hswap, List.forall_mem_cons]
      have hy := ih y y List.mem_cons_self
      exact ⟨hy.trans ((bwSwap_iff x y).mp hswap).le, ih y⟩
    · rw [if_neg hswap, List.forall_mem_cons, List.forall_mem_cons]
      have hxy := not_lt.mp fun h => hswap ((bwSwap_iff x y).mpr h)
      have hx := ih x x List.mem_cons_self
      exact ⟨hx, hx.trans hxy, fun z hz => ih x z (List.mem_cons_of_mem x hz)⟩

lemma bwSortLoop_pairwise (n : ℕ) {es : List BwUserEntry} (h : es.length ≤ n) :
    (bwSortLoop n es).Pairwise fun a b => victimKey a ≤ victimKey b := by
  induction n generalizing es with
  | zero =>
    rw [List.eq_nil_of_length_eq_zero (Nat.le_zero.mp h)]
    exact List.Pairwise.nil
  | succ n ih =>
    cases es with
    | nil => exact List.Pairwise.nil
    | cons x ys =>
      have hperm := perm_bwSelect x ys
      have hlen := hperm.length_eq
      rw [List.length_cons, List.length_cons] at hlen
      rw [bwSortLoop, List.pairwise_cons]
      refine ⟨fun b hb => bwSelect_le x ys b (hperm.subset ?_), ih (by simp only [List.length_cons] at h; omega)⟩
      exact List.mem_cons_of_mem _ ((perm_bwSortLoop n _).subset hb)

lemma bwSort_pairwise (es : List BwUserEntry) : (bwSortVictimsFirst es).Pairwise fun a b => victimKey a ≤ victimKey b :=
  bwSortLoop_pairwise _ (le_refl _)

/-- What a scan of the sorted entries finds comes first. -/
lemma find?_first {es : List BwUserEntry} {p : BwUserEntry → Bool} {e : BwUserEntry}
    (h : (bwSortVictimsFirst es).find? p = some e) :
    e ∈ es ∧ p e = true ∧ ∀ e' ∈ es, p e' = true → victimKey e ≤ victimKey e' := by
  obtain ⟨hp, before, after, hsplit, hbefore⟩ := List.find?_eq_some_iff_append.mp h
  have hperm := perm_bwSort es
  have hsorted := bwSort_pairwise es
  rw [hsplit, List.pairwise_append, List.pairwise_cons] at hsorted
  refine ⟨hperm.subset (List.mem_of_find?_eq_some h), hp, fun e' he' hp' => ?_⟩
  have hmem := hperm.mem_iff.mpr he'
  rw [hsplit, List.mem_append, List.mem_cons] at hmem
  rcases hmem with hmem | rfl | hmem
  · exact absurd hp' (by simpa using hbefore e' hmem)
  · exact le_refl _
  · exact hsorted.2.1.1 e' hmem

/-- Telnet and packet radio users are subject to the limits. -/
def User (s : UserSession) : Prop := (sessionSacrificePriority s).isSome = true ∧ s.loggedIn = true

def RadioUser (s : UserSession) : Prop := s.transport = .packetRadio ∧ s.loggedIn = true

def TcpUser (s : UserSession) : Prop := s.transport = .telnet ∧ s.loggedIn = true

def Newly (flag : UserSession → Bool) (ss ss' : List UserSession) (s : UserSession) (i : ℕ) : Prop :=
  ss[i]? = some s ∧ flag s = false ∧ ∃ s', ss'[i]? = some s' ∧ flag s' = true

/-- No TCP user gets a flag that a radio user does not have. -/
def RadioFirst (flag : UserSession → Bool) (ss ss' : List UserSession) : Prop :=
  ∀ s i, Newly flag ss ss' s i → TcpUser s → ∀ r ∈ ss', RadioUser r → flag r = true

def Reaches (flag : UserSession → Bool) (ss ss' : List UserSession) : Prop :=
  (∃ s ∈ ss, User s ∧ flag s = false) → ∃ s i, User s ∧ Newly flag ss ss' s i

structure InSacrificeOrder (ss : List UserSession) (action : BalanceAction) : Prop where
  paused : RadioFirst UserSession.bandwidthPaused ss (bandwidthPolicyApply ss action).1
  marked : RadioFirst UserSession.bandwidthDisconnect ss (bandwidthPolicyApply ss action).1
  pauses : action = balPause → Reaches UserSession.bandwidthPaused ss (bandwidthPolicyApply ss action).1
  breaks : action = balBreak → Reaches UserSession.bandwidthDisconnect ss (bandwidthPolicyApply ss action).1

/-- The collected user that comes first, among the paused ones if there are any. -/
structure Foremost (ss : List UserSession) (e : BwUserEntry) : Prop where
  mem : e ∈ bwCollect ss
  paused : (∃ e' ∈ bwCollect ss, e'.1.bandwidthPaused = true) → e.1.bandwidthPaused = true
  first : ∀ e' ∈ bwCollect ss, ((∃ e' ∈ bwCollect ss, e'.1.bandwidthPaused = true) → e'.1.bandwidthPaused = true) →
    victimKey e ≤ victimKey e'

/-- The users before an action among whom those that it finds are the right ones. -/
def RightVictims (ss : List UserSession) : BalanceAction → Prop
  | balPause =>
    ((∃ s ∈ ss, User s ∧ s.bandwidthPaused = false) → ∃ e ∈ bwCollect ss, e.1.bandwidthPaused = false) ∧
      ((∃ s ∈ ss, RadioUser s ∧ s.bandwidthPaused = false) → ∃ e ∈ bwCollect ss,
        RadioUser e.1 ∧ e.1.bandwidthPaused = false)
  | balBreak => (∃ s ∈ ss, User s ∧ s.bandwidthDisconnect = false) → ∀ e, Foremost ss e →
      e.1.bandwidthDisconnect = false ∧ (RadioUser e.1 ∨ ∀ s ∈ ss, RadioUser s → s.bandwidthDisconnect = true)
  | balCancel => (∃ e ∈ ss.zipIdx, RadioUser e.1 ∧ e.1.bandwidthDisconnect = false ∧ e ∉ bwCollect ss) →
      ∀ e ∈ bwCollect ss, TcpUser e.1 → e.1.bandwidthDisconnect = false →
        ∀ e' ∈ bwCollect ss, victimKey e' ≤ victimKey e
  | _ => True

def DistinctIds (ss : List UserSession) : Prop :=
  ∀ (i j : ℕ) (s t : UserSession), ss[i]? = some s → ss[j]? = some t → s.loggedIn = true → t.loggedIn = true →
    s.sessionId = t.sessionId → i = j

section Users

lemma user_iff (s : UserSession) : User s ↔ RadioUser s ∨ TcpUser s := by
  obtain ⟨id, transport, at', loggedIn, paused, marked⟩ := s
  cases transport <;> simp [User, RadioUser, TcpUser, sessionSacrificePriority]

lemma not_tcp_of_radio {s : UserSession} (h : RadioUser s) : ¬TcpUser s := by
  intro htcp
  have hkind := h.1.symm.trans htcp.1
  cases hkind

lemma user_of_collected {ss : List UserSession} {e : BwUserEntry} (h : e ∈ bwCollect ss) : User e.1 := by
  have hkept := (List.mem_filter.mp (List.mem_of_mem_take h)).2
  simpa [User] using hkept

lemma mem_of_collected {ss : List UserSession} {e : BwUserEntry} (h : e ∈ bwCollect ss) : e.1 ∈ ss :=
  List.mem_of_getElem? (mem_bwCollect h)

lemma key_radio_lt {e e' : BwUserEntry} (hr : RadioUser e.1) (ht : TcpUser e'.1) : victimKey e < victimKey e' := by
  rw [victimKey, victimKey, Prod.Lex.toLex_lt_toLex, sessionSacrificePriority, sessionSacrificePriority, hr.1, ht.1]
  exact .inl Nat.zero_lt_one

lemma key_injective {ss : List UserSession} (hids : DistinctIds ss) {e e' : BwUserEntry} (he : e ∈ bwCollect ss)
    (he' : e' ∈ bwCollect ss) (h : victimKey e = victimKey e') : e = e' := by
  have hget := mem_bwCollect he
  have hget' := mem_bwCollect he'
  have hid : e.1.sessionId = e'.1.sessionId := by
    have hkeys := congrArg (fun k => (ofLex (ofLex k).2).2) h
    simpa [victimKey] using hkeys
  have hplace := hids _ _ _ _ hget hget' (user_of_collected he).2 (user_of_collected he').2 hid
  rw [← hplace, hget] at hget'
  exact Prod.ext (Option.some.inj hget') hplace

lemma collected_of_user {ss : List UserSession} {s : UserSession} (hs : s ∈ ss) (hu : User s) : bwCollect ss ≠ [] := by
  obtain ⟨i, hi⟩ := List.mem_iff_getElem?.mp hs
  have hmem : (s, i) ∈ ss.zipIdx.filter fun e => (sessionSacrificePriority e.1).isSome && e.1.loggedIn :=
    List.mem_filter.mpr ⟨List.mem_zipIdx_iff_getElem?.mpr hi, by simp [hu.1, hu.2]⟩
  rw [bwCollect, Ne, List.take_eq_nil_iff, not_or]
  exact ⟨by decide, List.ne_nil_of_mem hmem⟩

end Users

section One

variable {ss : List UserSession} {e : BwUserEntry} (he : e ∈ bwCollect ss) {f : UserSession → UserSession}

include he in
/-- A call that changes one session gives a flag to no other. -/
lemma newly_modify {flag : UserSession → Bool} {s : UserSession} {i : ℕ} :
    Newly flag ss (ss.modify e.2 f) s i ↔ (i = e.2 ∧ s = e.1) ∧ flag e.1 = false ∧ flag (f e.1) = true := by
  have hget := mem_bwCollect he
  rw [Newly]
  constructor
  · rintro ⟨hs, hbefore, s', hs', hafter⟩
    by_cases hplace : e.2 = i
    · subst hplace
      rw [hget, Option.some.injEq] at hs
      rw [List.getElem?_modify_eq, hget, Option.map_eq_map, Option.map_some, Option.some.injEq] at hs'
      subst hs hs'
      exact ⟨⟨rfl, rfl⟩, hbefore, hafter⟩
    · rw [List.getElem?_modify_ne _ _ hplace, hs, Option.some.injEq] at hs'
      subst hs'
      exact absurd (hbefore.symm.trans hafter) Bool.false_ne_true
  · rintro ⟨⟨rfl, rfl⟩, hbefore, hafter⟩
    exact ⟨hget, hbefore, f e.1, by rw [List.getElem?_modify_eq, hget]; rfl, hafter⟩

include he in
lemma radio_modify (htcp : TcpUser e.1) (hf : (f e.1).transport = e.1.transport) (r : UserSession) (hr : RadioUser r) :
    r ∈ ss.modify e.2 f ↔ r ∈ ss := by
  have hget := mem_bwCollect he
  have hother : ∀ s : UserSession, s.transport = e.1.transport → s ≠ r := by
    rintro s hs rfl
    have hkind := hr.1.symm.trans (hs.trans htcp.1)
    cases hkind
  rw [List.mem_iff_getElem?, List.mem_iff_getElem?]
  refine exists_congr fun i => ?_
  by_cases hplace : e.2 = i
  · rw [← hplace, List.getElem?_modify_eq, hget, Option.map_eq_map, Option.map_some, Option.some.injEq,
      Option.some.injEq]
    exact iff_of_false (hother _ hf) (hother _ rfl)
  · rw [List.getElem?_modify_ne _ _ hplace]

variable {flag : UserSession → Bool}

include he in
lemma radioFirst_given (hf : (f e.1).transport = e.1.transport) (hgiven : flag (f e.1) = true) :
    RadioFirst flag ss (ss.modify e.2 f) ↔ (flag e.1 = false → TcpUser e.1 → ∀ r ∈ ss,
      RadioUser r → flag r = true) := by
  constructor
  · intro h hbefore htcp r hr hradio
    exact h e.1 e.2 ((newly_modify he).mpr ⟨⟨rfl, rfl⟩, hbefore, hgiven⟩) htcp r ((radio_modify he htcp hf r hradio).mpr hr) hradio
  · intro h s i hnew htcp r hr hradio
    obtain ⟨⟨-, rfl⟩, hbefore, -⟩ := (newly_modify he).mp hnew
    exact h hbefore htcp r ((radio_modify he htcp hf r hradio).mp hr) hradio

include he in
lemma radioFirst_kept (hkept : flag (f e.1) = false) : RadioFirst flag ss (ss.modify e.2 f) := by
  intro s i hnew
  exact absurd (hkept.symm.trans ((newly_modify he).mp hnew).2.2) Bool.false_ne_true

include he in
lemma reaches_given (hgiven : flag (f e.1) = true) :
    Reaches flag ss (ss.modify e.2 f) ↔ ((∃ s ∈ ss, User s ∧ flag s = false) → flag e.1 = false) := by
  refine imp_congr_right fun _ => ⟨?_, fun hbefore => ?_⟩
  · rintro ⟨s, i, -, hnew⟩
    exact ((newly_modify he).mp hnew).2.1
  · exact ⟨e.1, e.2, user_of_collected he, (newly_modify he).mpr ⟨⟨rfl, rfl⟩, hbefore, hgiven⟩⟩

end One

section Step

variable (ss : List UserSession)

/-- A call that gives no flag is in order if there was nobody left to be affected. -/
lemma inOrder_none {action : BalanceAction}
    (hno : ∀ flag ∈ [UserSession.bandwidthPaused, UserSession.bandwidthDisconnect],
    ∀ s i, ¬Newly flag ss (bandwidthPolicyApply ss action).1 s i) :
    InSacrificeOrder ss action ↔
      (action = balPause → ¬∃ s ∈ ss, User s ∧ s.bandwidthPaused = false) ∧
        (action = balBreak → ¬∃ s ∈ ss, User s ∧ s.bandwidthDisconnect = false) := by
  have hpaused := hno UserSession.bandwidthPaused (by simp)
  have hmarked := hno UserSession.bandwidthDisconnect (by simp)
  constructor
  · intro h
    refine ⟨fun haction huser => ?_, fun haction huser => ?_⟩
    · obtain ⟨s, i, -, hnew⟩ := h.pauses haction huser
      exact hpaused s i hnew
    · obtain ⟨s, i, -, hnew⟩ := h.breaks haction huser
      exact hmarked s i hnew
  · rintro ⟨hpauses, hbreaks⟩
    exact ⟨fun s i hnew => absurd hnew (hpaused s i), fun s i hnew => absurd hnew (hmarked s i),
      fun haction huser => absurd huser (hpauses haction), fun haction huser => absurd huser (hbreaks haction)⟩

lemma not_newly_self (flag : UserSession → Bool) (s : UserSession) (i : ℕ) : ¬Newly flag ss ss s i := by
  rintro ⟨hs, hbefore, s', hs', hafter⟩
  rw [hs, Option.some.injEq] at hs'
  subst hs'
  exact absurd (hbefore.symm.trans hafter) Bool.false_ne_true

lemma pause_inOrder : InSacrificeOrder ss balPause ↔ RightVictims ss balPause := by
  have happly : (bandwidthPolicyApply ss balPause).1 =
      ((bwSortVictimsFirst (bwCollect ss)).find? fun e => !e.1.bandwidthPaused).elim ss
        fun e => ss.modify e.2 (sessionSetBandwidthPaused true) := by
    rw [bandwidthPolicyApply]
    by_cases hnil : bwSortVictimsFirst (bwCollect ss) = []
    · rw [if_pos hnil, hnil]
      rfl
    · rw [if_neg hnil]
      cases (bwSortVictimsFirst (bwCollect ss)).find? fun e => !e.1.bandwidthPaused <;> rfl
  cases hfind : (bwSortVictimsFirst (bwCollect ss)).find? fun e => !e.1.bandwidthPaused with
  | none =>
    rw [hfind, Option.elim_none] at happly
    have hall : ¬∃ e ∈ bwCollect ss, e.1.bandwidthPaused = false := by
      rintro ⟨e, he, hpaused⟩
      have hnot := List.find?_eq_none.mp hfind e ((perm_bwSort _).mem_iff.mpr he)
      simp [hpaused] at hnot
    rw [inOrder_none ss (by rw [happly]; exact fun flag _ => not_newly_self ss flag), RightVictims]
    constructor
    · rintro ⟨hnone, -⟩
      refine ⟨fun huser => absurd huser (hnone rfl), ?_⟩
      rintro ⟨s, hs, hradio, hpaused⟩
      exact absurd ⟨s, hs, (user_iff s).mpr (.inl hradio), hpaused⟩ (hnone rfl)
    · rintro ⟨hseen, -⟩
      exact ⟨fun _ huser => hall (hseen huser), fun h => by cases h⟩
  | some e =>
    rw [hfind, Option.elim_some] at happly
    obtain ⟨he, hpaused, hfirst⟩ := find?_first hfind
    have hunpaused : e.1.bandwidthPaused = false := by simpa using hpaused
    have hgiven := @radioFirst_given ss e he (sessionSetBandwidthPaused true) UserSession.bandwidthPaused rfl rfl
    have horder : InSacrificeOrder ss balPause ↔ (TcpUser e.1 → ∀ r ∈ ss, RadioUser r → r.bandwidthPaused = true) := by
      constructor
      · intro h
        have hpaused := h.paused
        rw [happly, hgiven] at hpaused
        exact hpaused hunpaused
      · intro h
        refine ⟨?_, ?_, fun _ => ?_, fun haction => (by cases haction)⟩
        · rw [happly, hgiven]
          exact fun _ => h
        · rw [happly]
          intro s i hnew
          obtain ⟨⟨-, rfl⟩, hbefore, hafter⟩ := (newly_modify he).mp hnew
          exact absurd (hbefore.symm.trans hafter) Bool.false_ne_true
        · rw [happly, reaches_given he rfl]
          exact fun _ => hunpaused
    rw [horder, RightVictims]
    constructor
    · intro h
      refine ⟨fun _ => ⟨e, he, hunpaused⟩, ?_⟩
      rintro ⟨s, hs, hradio, hs'⟩
      rcases (user_iff e.1).mp (user_of_collected he) with hkind | htcp
      · exact ⟨e, he, hkind, hunpaused⟩
      · exact absurd (hs'.symm.trans (h htcp s hs hradio)) Bool.false_ne_true
    · rintro ⟨-, hseen⟩ htcp r hr hradio
      by_contra hr'
      obtain ⟨e', he', hradio', hpaused'⟩ := hseen ⟨r, hr, hradio, by simpa using hr'⟩
      exact absurd (key_radio_lt hradio' htcp) (not_lt.mpr (hfirst e' he' (by simp [hpaused'])))

end Step

section Break

variable {ss : List UserSession}

lemma foremost_unique (hids : DistinctIds ss) {e e' : BwUserEntry} (h : Foremost ss e) (h' : Foremost ss e') : e = e' :=
  key_injective hids h.mem h'.mem (le_antisymm (h.first e' h'.mem h'.paused) (h'.first e h.mem h.paused))

lemma break_target (ss : List UserSession) :
    (bwCollect ss = [] ∧ (bandwidthPolicyApply ss balBreak).1 = ss) ∨
      ∃ e, Foremost ss e ∧ (bandwidthPolicyApply ss balBreak).1 = ss.modify e.2 sessionDisconnectBandwidth := by
  have hperm := perm_bwSort (bwCollect ss)
  rw [bandwidthPolicyApply]
  by_cases hnil : bwSortVictimsFirst (bwCollect ss) = []
  · rw [if_pos hnil]
    rw [hnil] at hperm
    exact .inl ⟨hperm.symm.eq_nil, rfl⟩
  · rw [if_neg hnil]
    right
    cases hfind : (bwSortVictimsFirst (bwCollect ss)).find? fun e => e.1.bandwidthPaused with
    | some e =>
      obtain ⟨he, hpaused, hfirst⟩ := find?_first hfind
      exact ⟨e, ⟨he, fun _ => hpaused, fun e' he' h => hfirst e' he' (h ⟨e, he, hpaused⟩)⟩, rfl⟩
    | none =>
      obtain ⟨e, es, hes⟩ := List.exists_cons_of_ne_nil hnil
      have hall : ¬∃ e ∈ bwCollect ss, e.1.bandwidthPaused = true := by
        rintro ⟨e, he, hpaused⟩
        exact List.find?_eq_none.mp hfind e (hperm.mem_iff.mpr he) hpaused
      obtain ⟨he, -, hfirst⟩ := @find?_first (bwCollect ss) (fun _ => true) e (by rw [hes]; rfl)
      refine ⟨e, ⟨he, fun h => absurd h hall, fun e' he' _ => hfirst e' he' rfl⟩, ?_⟩
      rw [hes]
      rfl

lemma break_inOrder (hids : DistinctIds ss) : InSacrificeOrder ss balBreak ↔ RightVictims ss balBreak := by
  rcases break_target ss with ⟨hnil, happly⟩ | ⟨e, hfore, happly⟩
  · have hnobody : ¬∃ s ∈ ss, User s ∧ s.bandwidthDisconnect = false := by
      rintro ⟨s, hs, huser, -⟩
      exact collected_of_user hs huser hnil
    rw [inOrder_none ss (by rw [happly]; exact fun flag _ => not_newly_self ss flag), RightVictims]
    exact iff_of_true ⟨fun h => (by cases h), fun _ => hnobody⟩ fun huser => absurd huser hnobody
  · have he := hfore.mem
    have hin : e.1.loggedIn = true := (user_of_collected he).2
    have hkind : (sessionDisconnectBandwidth e.1).transport = e.1.transport := by
      rw [sessionDisconnectBandwidth]
      split_ifs <;> rfl
    have hmark : (sessionDisconnectBandwidth e.1).bandwidthDisconnect = true ∧
        (sessionDisconnectBandwidth e.1).bandwidthPaused = false := by
      rw [sessionDisconnectBandwidth, if_neg (by rw [hin]; decide)]
      exact ⟨rfl, rfl⟩
    have hgiven := @radioFirst_given ss e he sessionDisconnectBandwidth UserSession.bandwidthDisconnect hkind hmark.1
    have hreach := @reaches_given ss e he sessionDisconnectBandwidth UserSession.bandwidthDisconnect hmark.1
    rw [RightVictims]
    constructor
    · intro h huser e' hfore'
      obtain rfl := foremost_unique hids hfore hfore'
      have hmarked := h.marked
      have hbreaks := h.breaks rfl
      rw [happly, hgiven] at hmarked
      rw [happly, hreach] at hbreaks
      refine ⟨hbreaks huser, ?_⟩
      rcases (user_iff e.1).mp (user_of_collected he) with hradio | htcp
      · exact .inl hradio
      · exact .inr (hmarked (hbreaks huser) htcp)
    · intro h
      refine ⟨?_, ?_, fun haction => (by cases haction), fun _ => ?_⟩
      · rw [happly]
        exact radioFirst_kept he hmark.2
      · rw [happly, hgiven]
        intro hbefore htcp
        obtain ⟨-, hradio | hall⟩ := h ⟨e.1, mem_of_collected he, user_of_collected he, hbefore⟩ e hfore
        · exact absurd htcp (not_tcp_of_radio hradio)
        · exact hall
      · rw [happly, hreach]
        exact fun huser => (h huser e hfore).1

end Break

end HyBBX.Circuit
