import HyBBX.Command.Threads
import HyBBX.Command.SysopKept

/-! Commands that read a record and write it back: which values the others have committed are still stored. -/

namespace HyBBX.Command

open HyBBX.Core HyBBX.Storage HyBBX.Config Lib Lib.Bytes Lib.Text

/-- The fields of a record that commands change. -/
inductive Field
  | level
  | active
  | password
  | fullName
  | country
  | location
  | email
  | lastLoginAt
  deriving DecidableEq, Repr

def Field.same (u v : UserRecord) : Field → Bool
  | .level => u.level = v.level
  | .active => u.active = v.active
  | .password => u.password = v.password
  | .fullName => u.fullName = v.fullName
  | .country => u.country = v.country
  | .location => u.location = v.location
  | .email => u.email = v.email
  | .lastLoginAt => u.lastLoginAt = v.lastLoginAt

/-- The fields a command is asked to change. -/
def AccountVerb.asks : AccountVerb → Field → Bool
  | .activate, .active => true
  | .promote, .level | .demote, .level => true
  | .changeme, .password | .changeme, .fullName | .changeme, .country | .changeme, .location | .changeme, .email => true
  | .userchange, .password | .userchange, .fullName | .userchange, .country | .userchange, .location
  | .userchange, .email => true
  | .login, .lastLoginAt => true
  | _, _ => false

/-- The commands that read a record and write it back. -/
def AccountVerb.writesBack : AccountVerb → Bool
  | .login | .activate | .promote | .demote | .changeme | .userchange => true
  | .register | .userdelete | .createuser | .delete | .deleteme => false

def ThreadInput.writesBack : ThreadInput → Bool
  | .line cmd _ => (accountVerb cmd).any AccountVerb.writesBack
  | .opened _ | .closed | .go _ _ => true

/-- The record a step is about to store, with the command that asks for it. -/
def commits (t : Threads) (ev : ℕ × ThreadInput) : Option (AccountVerb × Staged) :=
  match ev.2 with
  | .go now _ => (t.proc ev.1).write now
  | _ => none

/-- A command that was not asked to change the field meets the value that it found. -/
def FoundStands (f : Field) (_ : ℕ) (input : ThreadInput) (svc : Service) (pc : ThreadPc) : Prop :=
  match input with
  | .go now _ => ∀ p ∈ pc.write now, ∀ stored ∈ svc.accounts.byId p.2.written.id,
      p.1.asks f = false → f.same p.2.found stored = true
  | _ => True

instance (f : Field) (handle : ℕ) (input : ThreadInput) (svc : Service) (pc : ThreadPc) :
    Decidable (FoundStands f handle input svc pc) := by
  unfold FoundStands
  split <;> infer_instance

section Fields

variable {u v w : UserRecord} {f : Field}

@[simp] lemma same_self (f : Field) (u : UserRecord) : f.same u u = true := by
  cases f <;> exact decide_eq_true rfl

lemma same_trans (h : f.same u v = true) (h' : f.same v w = true) : f.same u w = true := by
  cases f <;> exact decide_eq_true ((of_decide_eq_true h).trans (of_decide_eq_true h'))

lemma same_symm (h : f.same u v = true) : f.same v u = true := by
  cases f <;> exact decide_eq_true (of_decide_eq_true h).symm

@[simp] lemma same_normalize (f : Field) (u v : UserRecord) : f.same u v.normalize = f.same u v := by cases f <;> rfl

/-- A command changes nothing but what it is asked to change. -/
def Honest (verb : AccountVerb) (st : Staged) : Prop :=
  st.written.id = st.found.id ∧ ∀ f : Field, verb.asks f = false → f.same st.found st.written = true

lemma Change.honest {env : CommandEnv} {acc : Accounts} {s : Session} {cmd : ParsedCommand} {verb : AccountVerb}
    (hverb : accountVerb cmd = some verb) (h : Change env acc s cmd u w) : Honest verb ⟨u, w⟩ := by
  refine ⟨h.id_kept, fun f hf => ?_⟩
  cases h with
  | activate hv | promote _ hv | demote hv | changeme _ _ hv | userchange _ _ hv | login _ hv =>
    obtain rfl := Option.some.inj (hverb.symm.trans hv)
    cases f <;> first | exact decide_eq_true rfl | cases hf

lemma honest_login (now : Int64) (u : UserRecord) : Honest .login (loginStaged now u) := by
  refine ⟨rfl, fun f hf => ?_⟩
  cases f <;> first | exact decide_eq_true rfl | cases hf

end Fields

section Stored

variable {acc : Accounts} {w : UserRecord} {id : ℕ}

lemma byId_updated (hid : w.id ≠ 0) (h : (acc.byId w.id).isSome = true) :
    (acc.updateUser w).2.byId w.id = some w.normalize := by
  obtain ⟨old, hold⟩ := Option.isSome_iff_exists.mp h
  obtain ⟨pre, post, husers, hold, hpre⟩ := find_id_split hold
  have hnew : (acc.updateUser w).2.users = pre ++ w.normalize :: post := by
    rw [Accounts.updateUser, if_neg hid, if_neg (by simp [Option.isNone_iff_eq_none, Option.ne_none_iff_isSome, h])]
    dsimp only
    rw [husers, replaceF_split hold hpre]
  exact byId_split hnew hpre

lemma byId_updated_other (hid : id ≠ w.id) : (acc.updateUser w).2.byId id = acc.byId id := by
  rcases updateUser_cases acc w with hsame | ⟨pre, old, post, husers, -, hold, hnew⟩
  · rw [hsame]
  · have hw : ¬w.normalize.id = id := fun h => hid h.symm
    have hold' : ¬old.id = id := fun h => hid (h.symm.trans hold)
    rw [hnew, Accounts.byId, Accounts.byId, husers, List.find?_append, List.find?_append,
      List.find?_cons_of_neg (by simpa using hw), List.find?_cons_of_neg (by simpa using hold')]

lemma updateUser_ok (h : (acc.updateUser w).1 = .ok) : w.id ≠ 0 ∧ (acc.byId w.id).isSome = true := by
  rw [Accounts.updateUser] at h
  split_ifs at h with hzero hnone
  exact ⟨hzero, by simpa [Option.ne_none_iff_isSome] using hnone⟩

end Stored

section Steps

variable {env : CommandEnv} {svc : Service} {handle : ℕ} {s : Session} {cmd : ParsedCommand} {verb : AccountVerb}

/-- Whatever a thread is about to store, the command is asked for it. -/
def ThreadPc.Sound (pc : ThreadPc) : Prop := ∀ now, ∀ p ∈ pc.write now, Honest p.1 p.2

lemma sound_commit {r : Except HybbxResult Staged} (h : ∀ st, r = .ok st → Honest verb st) :
    (commitPc verb r).Sound := by
  cases r with
  | error rc => exact fun now p hp => nomatch hp
  | ok st =>
    intro now p hp
    obtain rfl := Option.some.inj hp
    exact h st rfl

lemma sound_search (hverb : accountVerb cmd = some verb) {pc : ThreadPc}
    (hpc : searchPhase env svc handle s cmd verb = some pc) : pc.Sound := by
  cases verb with
  | login =>
    obtain rfl := Option.some.inj hpc
    cases loginUser env svc handle cmd.argv <;> exact fun now p hp => nomatch hp
  | activate =>
    obtain rfl := Option.some.inj hpc
    exact sound_commit fun st h => (activateUser_ok hverb h).2.honest hverb
  | promote =>
    obtain rfl := Option.some.inj hpc
    exact sound_commit fun st h => (promoteUser_ok hverb h).2.honest hverb
  | demote =>
    obtain rfl := Option.some.inj hpc
    exact sound_commit fun st h => (demoteUser_ok hverb h).2.honest hverb
  | changeme =>
    obtain rfl := Option.some.inj hpc
    exact sound_commit fun st h => (changemeUser_ok hverb h).2.honest hverb
  | userchange =>
    obtain rfl := Option.some.inj hpc
    exact sound_commit fun st h => (userchangeUser_ok hverb h).2.honest hverb
  | register | userdelete | createuser | delete | deleteme => cases hpc

lemma sound_idle : ThreadPc.idle.Sound := fun _ _ hp => nomatch hp

lemma sound_act (input : ThreadInput) {pc : ThreadPc} (h : pc.Sound) :
    (threadAct env handle input svc pc).1.2.Sound := by
  cases input with
  | opened slot => cases pc <;> exact h
  | closed => cases pc <;> exact h
  | line cmd now =>
    cases pc with
    | idle =>
      rw [threadAct]
      cases svc.session handle with
      | none => exact h
      | some s =>
        dsimp only
        split_ifs
        · rw [takeLine]
          split
          · rename_i pc' hpc
            obtain ⟨verb, hverb, hsearch⟩ := Option.bind_eq_some_iff.mp hpc
            dsimp only
            split_ifs
            · exact sound_search hverb hsearch
            · exact sound_idle
          · exact sound_idle
        · exact sound_idle
    | entering | greeting | committing => exact h
  | go now begun =>
    cases pc with
    | idle | greeting | committing => exact sound_idle
    | entering u =>
      cases begun with
      | false => exact sound_idle
      | true =>
        intro now p hp
        obtain rfl := Option.some.inj hp
        exact honest_login now u

lemma takeLine_searches (env : CommandEnv) {svc : Service} {handle : ℕ} {s : Session} {cmd : ParsedCommand}
    {now : Int64} (hback : (accountVerb cmd).any AccountVerb.writesBack = true) :
    (takeLine env svc handle s cmd now).1 = svc := by
  rw [takeLine]
  cases hverb : accountVerb cmd with
  | none =>
    rw [hverb] at hback
    cases hback
  | some verb =>
    rw [hverb] at hback
    cases verb with
    | login | activate | promote | demote | changeme | userchange => rfl
    | register | userdelete | createuser | delete | deleteme => cases hback

/-- In these runs the accounts change by the commits alone. -/
lemma accounts_step {t : Threads} {ev : ℕ × ThreadInput} (hback : ev.2.writesBack = true) :
    (threadStep env t ev).1.store.accounts = match commits t ev with
      | some p => (t.store.accounts.updateUser p.2.written).2
      | none => t.store.accounts := by
  obtain ⟨handle, input⟩ := ev
  change (threadAct env handle input t.store (t.proc handle)).1.1.accounts = _
  cases input with
  | opened slot =>
    cases t.proc handle with
    | idle =>
      rw [threadAct, serviceStep]
      split_ifs <;> rfl
    | entering | greeting | committing => rfl
  | closed => cases t.proc handle <;> rfl
  | line cmd now =>
    cases t.proc handle with
    | idle =>
      rw [threadAct]
      cases t.store.session handle with
      | none => rfl
      | some s =>
        dsimp only
        split_ifs
        · exact congrArg Service.accounts (takeLine_searches env hback)
        · rfl
    | entering | greeting | committing => rfl
  | go now begun =>
    cases hpc : t.proc handle with
    | idle | greeting | committing => simp only [threadAct, threadGo, commits, hpc]; rfl
    | entering u => cases begun <;> simp only [threadAct, threadGo, commits, hpc] <;> rfl

end Steps

section Kept

variable {env : CommandEnv} {f : Field} {w : UserRecord}

/-- The store holds the value that the record has. -/
def Holds (f : Field) (w : UserRecord) (acc : Accounts) : Prop :=
  ∃ stored, acc.byId w.id = some stored ∧ f.same w stored = true

/-- The next commit is not asked for this field of this record. -/
def Untouched (f : Field) (id : ℕ) (t : Threads) (ev : ℕ × ThreadInput) : Prop :=
  ∀ p ∈ commits t ev, p.2.written.id = id → p.1.asks f = false

instance (f : Field) (id : ℕ) (t : Threads) (ev : ℕ × ThreadInput) : Decidable (Untouched f id t ev) := by
  unfold Untouched
  infer_instance

lemma commits_sound {t : Threads} {ev : ℕ × ThreadInput} {p : AccountVerb × Staged} (hsound : (t.proc ev.1).Sound)
    (hp : commits t ev = some p) : Honest p.1 p.2 := by
  obtain ⟨handle, input⟩ := ev
  cases input with
  | opened | closed | line => cases hp
  | go now begun => exact hsound now p hp

lemma commits_found {t : Threads} {ev : ℕ × ThreadInput} {p : AccountVerb × Staged}
    (hfound : Sys.Allowed (FoundStands f) t ev) (hp : commits t ev = some p) {stored : UserRecord}
    (hstored : t.store.accounts.byId p.2.written.id = some stored) (hasks : p.1.asks f = false) :
    f.same p.2.found stored = true := by
  obtain ⟨handle, input⟩ := ev
  cases input with
  | opened | closed | line => cases hp
  | go now begun => exact hfound p hp stored hstored hasks

lemma holds_step {t : Threads} {ev : ℕ × ThreadInput} (hback : ev.2.writesBack = true) (hsound : (t.proc ev.1).Sound)
    (hfound : Sys.Allowed (FoundStands f) t ev) (hlater : Untouched f w.id t ev) (h : Holds f w t.store.accounts) :
    Holds f w (threadStep env t ev).1.store.accounts := by
  rw [accounts_step hback]
  cases hp : commits t ev with
  | none => exact h
  | some p =>
    obtain ⟨stored, hstored, hsame⟩ := h
    dsimp only
    by_cases hid : p.2.written.id = w.id
    · have hasks : p.1.asks f = false := hlater p hp hid
      have hkept : f.same p.2.found stored = true := commits_found hfound hp (by rw [hid, hstored]) hasks
      have hwritten : f.same w p.2.written = true :=
        same_trans (same_trans hsame (same_symm hkept)) ((commits_sound hsound hp).2 f hasks)
      by_cases hzero : p.2.written.id = 0
      · rw [Accounts.updateUser, if_pos hzero]
        exact ⟨stored, hstored, hsame⟩
      · refine ⟨p.2.written.normalize, ?_, by rw [same_normalize, hwritten]⟩
        rw [← hid]
        exact byId_updated hzero (by rw [hid, hstored]; rfl)
    · exact ⟨stored, (byId_updated_other (Ne.symm hid)).trans hstored, hsame⟩

def writebackShape : Sys.Shape ℕ Service ThreadPc where
  store _ := True
  own _ _ pc := pc.Sound
  pair _ _ := True

lemma writeback_kept : writebackShape.Kept (fun handle => threadAct env handle) (FoundStands f) where
  symm _ _ h := h
  own _ input _ _ _ hsound _ := ⟨trivial, sound_act input hsound⟩
  others _ _ _ _ _ _ _ _ _ hsound _ _ := ⟨hsound, trivial⟩

lemma holds_after (env : CommandEnv) {t : Threads} (hthreads : writebackShape.Holds t) {evs : List (ℕ × ThreadInput)}
    (hback : ∀ e ∈ evs, e.2.writesBack = true)
    (hfound : Transducer.Along (threadStep env) (Sys.Allowed (FoundStands f)) t evs)
    (hlater : Transducer.Along (threadStep env) (Untouched f w.id) t evs) (h : Holds f w t.store.accounts) :
    Holds f w (Transducer.run (threadStep env) t evs).1.store.accounts := by
  induction evs generalizing t with
  | nil => exact h
  | cons ev evs ih =>
    have hnext : Holds f w (threadStep env t ev).1.store.accounts :=
      holds_step (hback ev List.mem_cons_self) (hthreads.own ev.1) hfound.1 hlater.1 h
    exact ih (Sys.holds_step writeback_kept hthreads hfound.1) (fun e he => hback e (List.mem_cons_of_mem _ he)) hfound.2
      hlater.2 hnext

/-- A value that a command has committed is stored until a command commits that was asked to change it, in a run in
which every other commit on the record still meets the value of that field that its command found. -/
theorem committed_value_kept {acc : Accounts} {pre post : List (ℕ × ThreadInput)} {ev : ℕ × ThreadInput}
    {verb : AccountVerb} {st : Staged} (hback : ∀ e ∈ pre ++ ev :: post, e.2.writesBack = true)
    (hfound : Transducer.Along (threadStep env) (Sys.Allowed (FoundStands f)) (Threads.start acc) (pre ++ ev :: post))
    (hcommit : commits (threadRun env acc pre) ev = some (verb, st))
    (hok : ((threadRun env acc pre).store.accounts.updateUser st.written).1 = .ok)
    (hlater : Transducer.Along (threadStep env) (Untouched f st.written.id) (threadRun env acc (pre ++ [ev])) post) :
    Holds f st.written (threadRun env acc (pre ++ ev :: post)).store.accounts := by
  have hstart : writebackShape.Holds (Threads.start acc) := ⟨trivial, fun _ => sound_idle, fun _ _ _ => trivial⟩
  have hsplit : pre ++ ev :: post = (pre ++ [ev]) ++ post := by simp
  have hevs : ev.2.writesBack = true := hback ev (by simp)
  rw [hsplit] at hfound ⊢
  obtain ⟨hbefore, hafter⟩ := Transducer.along_append (threadStep env) hfound
  have hthreads := Sys.holds_run writeback_kept hstart hbefore
  obtain ⟨hzero, hstored⟩ := updateUser_ok hok
  have hcommitted : Holds f st.written (threadRun env acc (pre ++ [ev])).store.accounts := by
    refine ⟨st.written.normalize, ?_, by simp⟩
    rw [threadRun, Transducer.run_append, Transducer.run_singleton, accounts_step hevs]
    rw [threadRun] at hcommit
    rw [hcommit]
    exact byId_updated hzero hstored
  rw [threadRun, Transducer.run_append]
  exact holds_after env hthreads (fun e he => hback e (by simp [he])) hafter hlater hcommitted

end Kept

section Undone

/-- Anna logs in; then Bert's login finds his record, and Anna's command to demote him finds it as well. -/
def bertFound : List (ℕ × ThreadInput) :=
  [(1, .opened ⟨1, first_issued⟩), (1, .line (commandOf "login" ["anna", "password"]) 0), (1, .go 0 true),
    (1, .go 0 true),
    (0, .opened ⟨2, second_issued⟩), (0, .line (commandOf "login" ["bert", "password"]) 0),
    (1, .line (commandOf "demote" ["bert"]) 0)]

def bertDemotion : Staged := ⟨staffRecord 3 "bert" .mod, staffRecord 3 "bert" .user⟩

lemma bertDemotion_commits :
    (∀ e ∈ bertFound ++ (1, .go 0 true) :: [(0, .go 0 true), (0, .go 0 true)], e.2.writesBack = true) ∧
      commits (threadRun openEnv staffAccounts bertFound) (1, .go 0 true) = some (.demote, bertDemotion) ∧
      ((threadRun openEnv staffAccounts bertFound).store.accounts.updateUser bertDemotion.written).1 = .ok := by
  decide +kernel

theorem committed_value_kept_active :
    Holds .active bertDemotion.written (threadRun openEnv staffAccounts (bertFound ++ (1, .go 0 true) ::
      [(0, .go 0 true), (0, .go 0 true)])).store.accounts :=
  @committed_value_kept openEnv .active staffAccounts bertFound [(0, .go 0 true), (0, .go 0 true)] (1, .go 0 true) .demote
    bertDemotion bertDemotion_commits.1 (by decide +kernel) bertDemotion_commits.2.1 bertDemotion_commits.2.2 (by decide +kernel)

/-- The login writes back the level that it found. -/
theorem login_undoes_demotion : ¬∀ (env : CommandEnv) (f : Field) (acc : Accounts) (pre post : List (ℕ × ThreadInput))
    (ev : ℕ × ThreadInput) (verb : AccountVerb) (st : Staged), (∀ e ∈ pre ++ ev :: post, e.2.writesBack = true) →
      commits (threadRun env acc pre) ev = some (verb, st) →
      ((threadRun env acc pre).store.accounts.updateUser st.written).1 = .ok →
      Transducer.Along (threadStep env) (Untouched f st.written.id) (threadRun env acc (pre ++ [ev])) post →
      Holds f st.written (threadRun env acc (pre ++ ev :: post)).store.accounts := by
  intro h
  obtain ⟨stored, hstored, hsame⟩ := h openEnv .level staffAccounts bertFound [(0, .go 0 true), (0, .go 0 true)]
    (1, .go 0 true) .demote bertDemotion bertDemotion_commits.1 bertDemotion_commits.2.1 bertDemotion_commits.2.2
    (by decide +kernel)
  have hmod : ((threadRun openEnv staffAccounts (bertFound ++ (1, .go 0 true) ::
      [(0, .go 0 true), (0, .go 0 true)])).store.accounts.byId bertDemotion.written.id).map UserRecord.level =
      some .mod := by decide +kernel
  rw [hstored, Option.map_some, Option.some.injEq] at hmod
  rw [Field.same, hmod] at hsame
  revert hsame
  decide +kernel

end Undone

end HyBBX.Command
