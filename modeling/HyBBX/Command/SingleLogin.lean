import HyBBX.Command.Threads
import HyBBX.Command.SysopKept

/-! One session for an account: when the look for another session still holds at the switch. -/

namespace HyBBX.Command

open HyBBX.Core HyBBX.Storage HyBBX.Config Lib Lib.Bytes Lib.Text

def Session.registered (s : Session) : Bool := s.loggedIn && !s.isGuest && s.userId ≠ 0

/-- No two attached sessions are logged in with one user id. -/
def SingleLogin (svc : Service) : Prop :=
  ∀ h h' s s', svc.session h = some s → svc.session h' = some s' → s.registered = true → s'.registered = true →
    s.userId = s'.userId → h = h'

/-- The search of a login for another session of its account would still find none at the switch. -/
def StillAlone (handle : ℕ) (input : ThreadInput) (svc : Service) (pc : ThreadPc) : Prop :=
  match input, pc with
  | .go _ true, .entering u => svc.findRegisteredSession u.id handle = false
  | _, _ => True

instance (handle : ℕ) (input : ThreadInput) (svc : Service) (pc : ThreadPc) :
    Decidable (StillAlone handle input svc pc) := by
  unfold StillAlone
  split <;> infer_instance

def Clash (s s' : Session) : Prop := s.registered = true ∧ s'.registered = true ∧ s.userId = s'.userId

/-- Sessions that clash are one session. -/
def Apart (sessions : List (ℕ × Session)) : Prop := ∀ p ∈ sessions, ∀ q ∈ sessions, Clash p.2 q.2 → p.1 = q.1

section Apart

variable {svc : Service} {handle : ℕ} {s s' : Session}

lemma Clash.symm (h : Clash s s') : Clash s' s := ⟨h.2.1, h.1, h.2.2.symm⟩

lemma guest_quiet (auth : AuthConfig) (slot : GuestSlot) : (sessionOpen auth slot).registered = false := by
  rw [sessionOpen]
  split_ifs <;> rfl

lemma Apart.cons (h : Apart svc.sessions) (hs : s.registered = false) : Apart ((handle, s) :: svc.sessions) := by
  intro p hp q hq hclash
  rcases List.mem_cons.mp hp with rfl | hp
  · exact absurd hclash.1 (by simp [hs])
  · rcases List.mem_cons.mp hq with rfl | hq
    · exact absurd hclash.2.1 (by simp [hs])
    · exact h p hp q hq hclash

lemma Apart.filter (h : Apart svc.sessions) (keep : ℕ × Session → Bool) : Apart (svc.sessions.filter keep) :=
  fun p hp q hq => h p (List.mem_filter.mp hp).1 q (List.mem_filter.mp hq).1

/-- A session may change to one that clashes with no other. -/
lemma Apart.set (h : Apart svc.sessions) (hs : ∀ q ∈ svc.sessions, Clash s q.2 → q.1 = handle) :
    Apart (svc.setSession handle s).sessions := by
  intro p hp q hq hclash
  rcases mem_setSession svc hp with hp | rfl
  · rcases mem_setSession svc hq with hq | rfl
    · exact h p hp q hq hclash
    · exact hs p hp hclash.symm
  · rcases mem_setSession svc hq with hq | rfl
    · exact (hs q hq hclash).symm
    · rfl

lemma clash_sessionAfter {r : CmdResult} (h : Clash (sessionAfter r) s) : Clash r.session s := by
  rw [sessionAfter] at h
  split_ifs at h with hend
  · exact absurd h.1 (by simp [Session.registered])
  · exact h

/-- Whoever the search overlooks does not clash. -/
lemma alone_switch {u : UserRecord} (halone : svc.findRegisteredSession u.id handle = false) (q : ℕ × Session)
    (hq : q ∈ svc.sessions) (hclash : Clash (switchUser u) q.2) : q.1 = handle := by
  by_contra hne
  obtain ⟨hu, hreg, hid⟩ := hclash
  have hzero : u.id ≠ 0 := by
    rw [Session.registered, Bool.and_eq_true] at hu
    exact of_decide_eq_true hu.2
  have hbusy : svc.findRegisteredSession u.id handle = true := by
    simp only [Session.registered, Bool.and_eq_true, decide_eq_true_eq] at hreg
    rw [Service.findRegisteredSession, Bool.and_eq_true, decide_eq_true_eq, List.any_eq_true]
    refine ⟨hzero, q, hq, ?_⟩
    have hsame : q.2.userId = u.id := hid.symm
    rw [hreg.1.1, hreg.1.2, decide_eq_true hne, decide_eq_true hsame]
    rfl
  rw [hbusy] at halone
  cases halone

end Apart

section Kept

variable (env : CommandEnv) {svc : Service} {handle : ℕ} {s : Session}

lemma apart_line (h : Apart svc.sessions) (cmd : ParsedCommand) (now : Int64) :
    Apart (takeLine env svc handle s cmd now).1.sessions := by
  rw [takeLine]
  split
  · exact h
  · rename_i hnone
    rcases processLine_cases env svc handle cmd now with hsame | ⟨s', hs', -, hnext⟩
    · rw [hsame]
      exact h
    · rw [hnext]
      refine Apart.set h fun q hq hclash => ?_
      rcases commandDispatch_session env svc handle s' cmd now with hkeep | ⟨hlogin, -⟩
      · rw [← hkeep] at hs'
        exact (h _ (mem_of_session svc hs') q hq (clash_sessionAfter hclash)).symm
      · rw [hlogin] at hnone
        cases hnone

lemma apart_go (h : Apart svc.sessions) (now : Int64) (begun : Bool) (pc : ThreadPc)
    (halone : StillAlone handle (.go now begun) svc pc) : Apart (threadGo svc handle now begun pc).1.sessions := by
  cases pc with
  | idle => exact h
  | entering u =>
    cases begun with
    | false => exact h
    | true => exact Apart.set h (alone_switch halone)
  | greeting u => exact h
  | committing verb st => exact h

lemma apart_act (h : Apart svc.sessions) (input : ThreadInput) (pc : ThreadPc)
    (halone : StillAlone handle input svc pc) :
    Apart (threadAct env handle input svc pc).1.1.sessions := by
  cases input with
  | opened slot =>
    cases pc with
    | idle =>
      rw [threadAct, serviceStep]
      split_ifs
      · exact h
      · exact h.cons (guest_quiet env.auth slot)
    | entering | greeting | committing => exact h
  | closed =>
    cases pc <;> exact h.filter _
  | line cmd now =>
    cases pc with
    | idle =>
      rw [threadAct]
      cases svc.session handle with
      | none => exact h
      | some s =>
        dsimp only
        split_ifs
        · exact apart_line env h cmd now
        · exact h
    | entering | greeting | committing => exact h
  | go now begun => exact apart_go h now begun pc halone

def loginShape : Sys.Shape ℕ Service ThreadPc where
  store svc := Apart svc.sessions
  own _ _ _ := True
  pair _ _ := True

lemma login_kept : loginShape.Kept (fun handle => threadAct env handle) StillAlone where
  symm _ _ h := h
  own _ input _ pc hstore _ halone := ⟨apart_act env hstore input pc halone, trivial⟩
  others _ _ _ _ _ _ _ _ _ _ _ _ := ⟨trivial, trivial⟩

end Kept

section Clash

def annaTwice : List (ℕ × ThreadInput) :=
  [(0, .opened ⟨1, first_issued⟩), (1, .opened ⟨2, second_issued⟩),
    (0, .line (commandOf "login" ["anna", "password"]) 0),
    (1, .line (commandOf "login" ["anna", "password"]) 0), (0, .go 0 true), (1, .go 0 true)]

def annaThenBert : List (ℕ × ThreadInput) :=
  [(0, .opened ⟨1, first_issued⟩), (1, .opened ⟨2, second_issued⟩),
    (0, .line (commandOf "login" ["anna", "password"]) 0),
    (1, .line (commandOf "login" ["bert", "password"]) 0), (0, .go 0 true), (1, .go 0 true), (0, .go 0 true)]

end Clash

end HyBBX.Command
