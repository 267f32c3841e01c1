import HyBBX.Circuit.FlowCtrl

/-! Who is throttled when a link is under pressure: radio users before telnet users, the newest first. -/

namespace HyBBX.Circuit

open BalanceAction

def bwUserMax : ℕ := 128

inductive TransportKind
  | telnet
  | packetRadio
  | circuit
  | ardop
  | crdop
  | ssh
  | websocket
  | baycom
  | mainsProxy
  deriving DecidableEq, Repr

structure UserSession where
  sessionId : ℕ
  transport : TransportKind
  connectedAt : ℤ
  loggedIn : Bool
  bandwidthPaused : Bool
  bandwidthDisconnect : Bool
  deriving DecidableEq, Repr

-- `none` is the priority -1
def sessionSacrificePriority (session : UserSession) : Option ℕ :=
  match session.transport with
  | .packetRadio => some 0
  | .telnet => some 1
  | _ => none

/-- An entry: the session and its place in the list of sessions, which stands for the pointer to it. -/
abbrev BwUserEntry := UserSession × ℕ

def bwCollect (sessions : List UserSession) : List BwUserEntry :=
  (sessions.zipIdx.filter fun e => (sessionSacrificePriority e.1).isSome && e.1.loggedIn).take bwUserMax

/-- Whether `b` is sacrificed before `a`. -/
def bwSwap (a b : BwUserEntry) : Bool :=
  let pa := (sessionSacrificePriority a.1).getD 0
  let pb := (sessionSacrificePriority b.1).getD 0
  pb < pa || (pb = pa && (a.1.connectedAt < b.1.connectedAt ||
    (b.1.connectedAt = a.1.connectedAt && a.1.sessionId < b.1.sessionId)))

/-- The inner loop: the place of `x` ends with the first victim, and what is swapped moves back. -/
def bwSelect (x : BwUserEntry) : List BwUserEntry → BwUserEntry × List BwUserEntry
  | [] => (x, [])
  | y :: ys =>
    if bwSwap x y then
      let r := bwSelect y ys
      (r.1, x :: r.2)
    else
      let r := bwSelect x ys
      (r.1, y :: r.2)

-- `n` bounds the places that are left
def bwSortLoop : ℕ → List BwUserEntry → List BwUserEntry
  | n + 1, x :: ys => (bwSelect x ys).1 :: bwSortLoop n (bwSelect x ys).2
  | _, es => es

def bwSortVictimsFirst (entries : List BwUserEntry) : List BwUserEntry := bwSortLoop entries.length entries

def bandwidthPolicyUserCount (sessions : List UserSession) : ℕ := (bwCollect sessions).length

def sessionSetBandwidthPaused (paused : Bool) (session : UserSession) : UserSession :=
  { session with bandwidthPaused := paused }

def sessionDisconnectBandwidth (session : UserSession) : UserSession :=
  if session.loggedIn = false then session else { session with bandwidthPaused := false, bandwidthDisconnect := true }

def disconnectAll (sessions : List UserSession) (targets : List BwUserEntry) : List UserSession :=
  targets.foldl (fun ss e => ss.modify e.2 sessionDisconnectBandwidth) sessions

/-- The sessions afterwards and how many users were affected. -/
def bandwidthPolicyApply (sessions : List UserSession) (action : BalanceAction) : List UserSession × ℕ :=
  let entries := bwSortVictimsFirst (bwCollect sessions)
  if entries = [] then (sessions, 0)
  else match action with
    | balPause => match entries.find? fun e => !e.1.bandwidthPaused with
      | some e => (sessions.modify e.2 (sessionSetBandwidthPaused true), 1)
      | none => (sessions, 0)
    | balBreak => match (entries.find? fun e => e.1.bandwidthPaused).or entries.head? with
      | some e => (sessions.modify e.2 sessionDisconnectBandwidth, 1)
      | none => (sessions, 0)
    | balCancel => (disconnectAll sessions entries.dropLast, entries.dropLast.length)
    | balResume =>
      (entries.foldl (fun ss e => ss.modify e.2 (sessionSetBandwidthPaused false)) sessions, entries.length)
    | balNone => (sessions, 0)

def AnyPaused (sessions : List UserSession) : Prop := ∃ s ∈ sessions, s.bandwidthPaused = true

/-- A paused user whom the next RESUME does not visit. -/
def Overlooked (sessions : List UserSession) : Prop :=
  ∃ e ∈ sessions.zipIdx, e.1.bandwidthPaused = true ∧ e ∉ bwCollect sessions

lemma perm_bwSelect (x : BwUserEntry) (ys : List BwUserEntry) :
    ((bwSelect x ys).1 :: (bwSelect x ys).2).Perm (x :: ys) := by
  induction ys generalizing x with
  | nil => exact List.Perm.refl _
  | cons y ys ih =>
    rw [bwSelect]
    split_ifs
    · exact (List.Perm.swap ..).trans ((ih y).cons x)
    · exact (List.Perm.swap ..).trans (((ih x).cons y).trans (List.Perm.swap ..))

lemma perm_bwSortLoop (n : ℕ) (es : List BwUserEntry) : (bwSortLoop n es).Perm es := by
  induction n generalizing es with
  | zero => exact List.Perm.refl _
  | succ n ih =>
    cases es with
    | nil => exact List.Perm.refl _
    | cons x ys =>
      rw [bwSortLoop]
      exact ((ih _).cons _).trans (perm_bwSelect x ys)

lemma perm_bwSort (es : List BwUserEntry) : (bwSortVictimsFirst es).Perm es := perm_bwSortLoop _ es

section Visit

variable {f : UserSession → UserSession} (hf : ∀ s, f (f s) = f s)

include hf in
lemma getElem?_foldl_modify (es : List BwUserEntry) (ss : List UserSession) (i : ℕ) :
    (es.foldl (fun ss e => ss.modify e.2 f) ss)[i]? = (ss[i]?).map fun s => if i ∈ es.map Prod.snd then f s else s := by
  induction es generalizing ss with
  | nil => simp
  | cons e es ih =>
    rw [List.foldl_cons, ih, List.getElem?_modify, List.map_cons]
    cases ss[i]? with
    | none => rfl
    | some s =>
      by_cases he : e.2 = i
      · by_cases hm : i ∈ es.map Prod.snd
        · simp [he, hm, hf]
        · simp [he, hm]
      · by_cases hm : i ∈ es.map Prod.snd
        · simp [he, hm]
        · simp [he, hm, Ne.symm he]

/-- A visit that never pauses anybody. -/
lemma anyPaused_foldl (hp : ∀ s, (f s).bandwidthPaused = true → s.bandwidthPaused = true) {es : List BwUserEntry}
    {ss : List UserSession} (h : AnyPaused (es.foldl (fun ss e => ss.modify e.2 f) ss)) : AnyPaused ss := by
  induction es generalizing ss with
  | nil => exact h
  | cons e es ih =>
    obtain ⟨s, hs, hpaused⟩ := ih h
    obtain ⟨i, hi⟩ := List.mem_iff_getElem?.mp hs
    rw [List.getElem?_modify] at hi
    obtain ⟨s', hs', rfl⟩ := Option.map_eq_some_iff.mp hi
    refine ⟨s', List.mem_of_getElem? hs', ?_⟩
    split_ifs at hpaused
    · exact hp s' hpaused
    · exact hpaused

end Visit

lemma mem_bwCollect {ss : List UserSession} {e : BwUserEntry} (h : e ∈ bwCollect ss) : ss[e.2]? = some e.1 :=
  List.mem_zipIdx_iff_getElem?.mp (List.mem_of_mem_filter (List.mem_of_mem_take h))

lemma disconnect_paused (s : UserSession) (h : (sessionDisconnectBandwidth s).bandwidthPaused = true) :
    s.bandwidthPaused = true := by
  rw [sessionDisconnectBandwidth] at h
  split_ifs at h
  exact h

/-- RESUME leaves paused exactly the users it does not visit. -/
lemma anyPaused_resume (ss : List UserSession) : AnyPaused (bandwidthPolicyApply ss balResume).1 ↔ Overlooked ss := by
  have hmem : ∀ e, e ∈ bwSortVictimsFirst (bwCollect ss) ↔ e ∈ bwCollect ss := fun e => (perm_bwSort _).mem_iff
  have hplace : ∀ {s i}, ss[i]? = some s →
      (i ∈ (bwSortVictimsFirst (bwCollect ss)).map Prod.snd ↔ (s, i) ∈ bwCollect ss) := by
    intro s i hs
    rw [List.mem_map]
    constructor
    · rintro ⟨e, he, rfl⟩
      have := mem_bwCollect ((hmem e).mp he)
      rw [hs, Option.some.injEq] at this
      subst this
      exact (hmem e).mp he
    · intro he
      exact ⟨(s, i), (hmem _).mpr he, rfl⟩
  have hall : (bandwidthPolicyApply ss balResume).1 =
      (bwSortVictimsFirst (bwCollect ss)).foldl (fun ss e => ss.modify e.2 (sessionSetBandwidthPaused false)) ss := by
    rw [bandwidthPolicyApply]
    split_ifs with hnil
    · rw [hnil, List.foldl_nil]
    · rfl
  have hget := getElem?_foldl_modify (f := sessionSetBandwidthPaused false) (fun _ => rfl)
    (bwSortVictimsFirst (bwCollect ss)) ss
  rw [hall]
  constructor
  · rintro ⟨s, hs, hp⟩
    obtain ⟨i, hi⟩ := List.mem_iff_getElem?.mp hs
    rw [hget, Option.map_eq_some_iff] at hi
    obtain ⟨s', hs', rfl⟩ := hi
    split_ifs at hp with hm
    · exact absurd hp Bool.false_ne_true
    · exact ⟨(s', i), List.mem_zipIdx_iff_getElem?.mpr hs', hp, fun he => hm ((hplace hs').mpr he)⟩
  · rintro ⟨⟨s, i⟩, he, hp, hout⟩
    have hs := List.mem_zipIdx_iff_getElem?.mp he
    refine ⟨s, List.mem_of_getElem? (i := i) ?_, hp⟩
    rw [hget, hs, Option.map_some, if_neg fun hm => hout ((hplace hs).mp hm)]

/-- CANCEL spares one user; with one user or none it affects nobody. -/
lemma cancel_few {ss : List UserSession} (h : bandwidthPolicyUserCount ss ≤ 1) :
    bandwidthPolicyApply ss balCancel = (ss, 0) := by
  have hnone : (bwSortVictimsFirst (bwCollect ss)).dropLast = [] := by
    rw [bandwidthPolicyUserCount, ← (perm_bwSort (bwCollect ss)).length_eq] at h
    apply List.eq_nil_of_length_eq_zero
    rw [List.length_dropLast]
    omega
  rw [bandwidthPolicyApply]
  split_ifs
  · rfl
  · rw [hnone]
    rfl

lemma cancel_many {ss : List UserSession} (h : 1 < bandwidthPolicyUserCount ss) :
    (bandwidthPolicyApply ss balCancel).2 ≠ 0 := by
  have hlen := (perm_bwSort (bwCollect ss)).length_eq
  rw [bandwidthPolicyUserCount, ← hlen] at h
  rw [bandwidthPolicyApply]
  split_ifs with hnil
  · rw [hnil] at h
    exact absurd h (by decide)
  · dsimp only
    rw [List.length_dropLast]
    omega

lemma anyPaused_cancel {ss : List UserSession} (h : AnyPaused (bandwidthPolicyApply ss balCancel).1) :
    AnyPaused ss := by
  rw [bandwidthPolicyApply] at h
  split_ifs at h
  · exact h
  · exact anyPaused_foldl disconnect_paused h

end HyBBX.Circuit
