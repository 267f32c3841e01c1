import HyBBX.Storage.CallLog
import HyBBX.Storage.OperationPlan
import HyBBX.Storage.StoreRun

/-! When calls from any number of threads lose no user and hand out no id twice. -/

namespace HyBBX.Storage

open HyBBX.Core HyBBX.Config Lib Lib.Bytes Lib.Text Lib.Numeral Lib.LineReader

/-- The user of a registration that has an id and is on its way to a shard. -/
def CallPc.pending : CallPc → Option UserRecord
  | .placing u | .extending u _ => some u
  | .saving w =>
    match w.commit with
    | .registered u => some u
    | .updated _ | .deleted _ => none
  | _ => none

def StoreCall.target : StoreCall → Option ℕ
  | .register _ _ => none
  | .update u => some u.id
  | .delete id => some id

/-- The shard still loads as the call has loaded it, a new file is still the next one. -/
def Rewrite.Current (w : Rewrite) (dir : UsersDir) : Prop :=
  match w.base with
  | some s => loadShardAt dir w.shardIndex = .ok s
  | none => w.shardIndex = lastUserShardIndex dir + 1 ∧ w.shardIndex < userShardIndexEnd

/-- The shard loads as the users it is written from. -/
def Rewrite.ReadsBack (w : Rewrite) : Prop :=
  loadUserShard (piecesText (shardPieces w.shardIndex w.shard.users)) = .ok w.shard

/-- What a call writes fits what it has read, at the counter, at the second load of a shard and at its save. -/
def MeetsOwnRead (calls : ℕ → StoreCall) (i : ℕ) (_ : Unit) (st : CallStore) (pc : CallPc) : Prop :=
  match pc with
  | .bumping n => readCounter st.dir = .ok n ∧ n + 1 < 2 ^ 64
  | .reloading shardIndex slot =>
    match loadShardAt st.dir shardIndex with
    | .ok s => ∀ u ∈ s.users[slot]?, (calls i).target = some u.id
    | .error _ => True
  | .saving w => w.Current st.dir ∧ w.ReadsBack
  | _ => True

instance (w : Rewrite) (dir : UsersDir) : Decidable (w.Current dir) := by
  unfold Rewrite.Current
  split <;> infer_instance

instance (w : Rewrite) : Decidable w.ReadsBack :=
  inferInstanceAs (Decidable (loadUserShard (piecesText (shardPieces w.shardIndex w.shard.users)) = .ok w.shard))

instance (calls : ℕ → StoreCall) (i : ℕ) (e : Unit) (st : CallStore) (pc : CallPc) :
    Decidable (MeetsOwnRead calls i e st pc) := by
  unfold MeetsOwnRead
  repeat' split
  all_goals infer_instance

def Reached (i : ℕ) : Prop := 1 ≤ i ∧ i < userShardIndexEnd

/-- How a call comes by the users it writes. -/
inductive Made : Rewrite → Prop
  | new (i : ℕ) (u : UserRecord) : Made (newFile i u)
  | extended {i : ℕ} {s t : UserShard} (u : UserRecord) (hi : Reached i) (ht : t.users = s.users ++ [u]) :
      Made ⟨i, some s, t, .registered u⟩
  | updated (place : UserPlace) (u : UserRecord) (hi : Reached place.shardIndex) (hid : place.user.id = u.id) :
      Made ⟨place.shardIndex, some place.shard, place.shard.set place.slot u, .updated u⟩
  | deleted (place : UserPlace) (hi : Reached place.shardIndex) :
      Made ⟨place.shardIndex, some place.shard, place.shard.erase place.slot, .deleted place.user.id⟩

/-- Where a call may be. -/
def CallPc.Sound : CallPc → Prop
  | .finding rest => ∀ i ∈ rest, Reached i
  | .reloading i _ => Reached i
  | .extending _ last => Reached last
  | .saving w => Made w
  | _ => True

/-- What a step does to the files. -/
inductive CallMoved (st : CallStore) (pc : CallPc) : CallStore × CallPc → Prop
  | quiet (dir : UsersDir) (pc' : CallPc) (hshards : dir.shards = st.dir.shards) (hcounter : dir.counter = st.dir.counter)
      (hpending : ∀ u, pc'.pending = some u → pc.pending = some u) : CallMoved st pc (⟨dir, st.log⟩, pc')
  | bump (n : ℕ) (pc' : CallPc) (hpc : pc = .bumping n)
      (hpending : ∀ u, pc'.pending = some u → u.id = (Fin.ofNat (2 ^ 64) (n + 1)).val) :
      CallMoved st pc
        ({ st with dir := { st.dir with counter := some (decimal (Fin.ofNat (2 ^ 64) (n + 1)) ++ [nl]) } }, pc')
  | save (w : Rewrite) (hpc : pc = .saving w) :
      CallMoved st pc (⟨(saveUserShard .sound st.dir w.shardIndex w.shard).2, st.log ++ [w.commit]⟩, .returned .ok)

section Moved

variable {st : CallStore} {pc : CallPc}

lemma moved_stay {pc' : CallPc} (h : ∀ u, pc'.pending = some u → pc.pending = some u) : CallMoved st pc (st, pc') :=
  .quiet st.dir pc' rfl rfl h

lemma moved_idle {pc' : CallPc} (h : pc'.pending = none) : CallMoved st pc (st, pc') :=
  moved_stay fun u hu => by
    rw [h] at hu
    cases hu

lemma moved_load {shardIndex : ℕ} {k : UserShard → CallStore × CallPc} (h : ∀ s, CallMoved st pc (k s)) :
    CallMoved st pc (loadStep st shardIndex k) := by
  rw [loadStep]
  cases loadShardAt st.dir shardIndex with
  | error rc => exact moved_idle rfl
  | ok s => exact h s

lemma moved_save (w : Rewrite) : CallMoved st (.saving w) (saveStep st w) := .save w rfl

lemma extendStep_commit (u : UserRecord) (last : ℕ) (s : UserShard) : (extendStep u last s).commit = .registered u := by
  rw [extendStep]
  split_ifs <;> rfl

lemma registerGo_moved (backend : HashBackend) (guestPrefix : Bytes) (now : Int64) (reg : UserRegistration) :
    CallMoved st pc (registerGo st backend guestPrefix now reg pc) := by
  cases pc with
  | called =>
    apply moved_idle
    split_ifs <;> rfl
  | searching rest =>
    cases rest with
    | nil => exact moved_idle rfl
    | cons i rest =>
      refine moved_load fun s => moved_idle ?_
      split_ifs <;> rfl
  | comparing rest =>
    cases rest with
    | nil => exact moved_idle rfl
    | cons i rest =>
      refine moved_load fun s => moved_idle ?_
      split_ifs <;> rfl
  | counting =>
    rw [registerGo]
    cases readCounter st.dir <;> exact moved_idle rfl
  | bumping n =>
    refine .bump n _ rfl fun u hu => ?_
    cases hp : registeredPassword backend reg.password.text with
    | none =>
      rw [hp] at hu
      cases hu
    | some password =>
      rw [hp] at hu
      obtain rfl := Option.some.inj hu
      rfl
  | placing u =>
    refine moved_stay fun v hv => ?_
    split_ifs at hv <;> exact hv
  | extending u last =>
    refine moved_load fun s => moved_stay fun v hv => ?_
    rw [CallPc.pending, extendStep_commit] at hv
    exact hv
  | saving w => exact moved_save w
  | finding | reloading | returned => exact moved_stay fun _ h => h

lemma changeGo_moved {id : ℕ} {edit : UserPlace → CallStore × CallPc} (h : ∀ place, CallMoved st pc (edit place)) :
    CallMoved st pc (changeGo st id edit pc) := by
  cases pc with
  | called =>
    apply moved_idle
    split_ifs <;> rfl
  | finding rest =>
    cases rest with
    | nil => exact moved_idle rfl
    | cons i rest =>
      rw [changeGo]
      split_ifs
      · exact moved_idle rfl
      · refine moved_load fun s => ?_
        cases s.users.findIdx? fun u => u.id = id <;> exact moved_idle rfl
  | reloading i slot =>
    refine moved_load fun s => ?_
    split_ifs
    · exact h _
    · exact moved_idle rfl
  | saving w => exact moved_save w
  | searching | comparing | counting | bumping | placing | extending | returned => exact moved_stay fun _ h => h

lemma callGo_moved (backend : HashBackend) (guestPrefix : Bytes) (call : StoreCall) :
    CallMoved st pc (callGo backend guestPrefix call st pc) := by
  cases call with
  | register now reg => exact registerGo_moved backend guestPrefix now reg
  | update u => exact changeGo_moved fun place => moved_idle rfl
  | delete id => exact changeGo_moved fun place => .quiet _ _ rfl rfl fun _ h => nomatch h

end Moved

section Sound

variable {st : CallStore}

lemma reached_indexes (dir : UsersDir) : ∀ i ∈ userShardIndexes dir, Reached i := by
  intro i hi
  have hlast := lastUserShardIndex_lt dir
  obtain ⟨j, hj, rfl⟩ := List.mem_range'.mp hi
  exact ⟨by omega, by omega⟩

lemma sound_load {shardIndex : ℕ} {k : UserShard → CallStore × CallPc}
    (h : ∀ s, loadShardAt st.dir shardIndex = .ok s → (k s).2.Sound) : (loadStep st shardIndex k).2.Sound := by
  rw [loadStep]
  cases hs : loadShardAt st.dir shardIndex with
  | error rc => trivial
  | ok s => exact h s hs

lemma made_extend (u : UserRecord) {last : ℕ} (hlast : Reached last) (s : UserShard) : Made (extendStep u last s) := by
  rw [extendStep]
  split_ifs
  · exact .extended u hlast rfl
  · exact .new (last + 1) u

lemma registerGo_sound (backend : HashBackend) (guestPrefix : Bytes) (now : Int64) (reg : UserRegistration)
    {pc : CallPc}
    (h : pc.Sound) : (registerGo st backend guestPrefix now reg pc).2.Sound := by
  cases pc with
  | called =>
    rw [registerGo]
    dsimp only
    split_ifs <;> trivial
  | searching rest | comparing rest =>
    cases rest with
    | nil => trivial
    | cons i rest =>
      refine sound_load fun s _ => ?_
      dsimp only
      split_ifs <;> trivial
  | counting =>
    rw [registerGo]
    cases readCounter st.dir <;> trivial
  | bumping n =>
    rw [registerGo]
    cases registeredPassword backend reg.password.text <;> trivial
  | placing u =>
    rw [registerGo]
    dsimp only
    split_ifs with hlast
    · exact .new 1 u
    · exact ⟨Nat.one_le_iff_ne_zero.mpr hlast, lastUserShardIndex_lt st.dir⟩
  | extending u last => exact sound_load fun s _ => made_extend u h s
  | saving w => trivial
  | finding | reloading | returned => exact h

lemma changeGo_sound {id : ℕ} {edit : UserPlace → CallStore × CallPc} {pc : CallPc} (h : pc.Sound)
    (hedit : ∀ place : UserPlace, pc = .reloading place.shardIndex place.slot →
      loadShardAt st.dir place.shardIndex = .ok place.shard → (edit place).2.Sound) :
    (changeGo st id edit pc).2.Sound := by
  cases pc with
  | called =>
    rw [changeGo]
    dsimp only
    split_ifs
    · trivial
    · exact reached_indexes st.dir
  | finding rest =>
    cases rest with
    | nil => trivial
    | cons i rest =>
      rw [changeGo]
      split_ifs
      · exact fun j hj => h j (List.mem_cons_of_mem i hj)
      · refine sound_load fun s _ => ?_
        cases s.users.findIdx? fun u => u.id = id with
        | none => exact fun j hj => h j (List.mem_cons_of_mem i hj)
        | some slot => exact h i List.mem_cons_self
  | reloading i slot =>
    refine sound_load fun s hs => ?_
    split_ifs with hslot
    · exact hedit ⟨i, s, slot, hslot⟩ rfl hs
    · trivial
  | saving w => trivial
  | searching | comparing | counting | bumping | placing | extending | returned => exact h

/-- The user at the place is the one the call is about. -/
lemma place_target {calls : ℕ → StoreCall} {i : ℕ} {place : UserPlace}
    (hmeets : MeetsOwnRead calls i () st (.reloading place.shardIndex place.slot))
    (hload : loadShardAt st.dir place.shardIndex = .ok place.shard) : (calls i).target = some place.user.id := by
  rw [MeetsOwnRead, hload] at hmeets
  exact hmeets place.user (List.getElem?_eq_getElem place.inShard)

lemma callGo_sound {backend : HashBackend} {guestPrefix : Bytes} {calls : ℕ → StoreCall} {i : ℕ} {pc : CallPc}
    (h : pc.Sound) (hmeets : MeetsOwnRead calls i () st pc) : (callGo backend guestPrefix (calls i) st pc).2.Sound := by
  cases hcall : calls i with
  | register now reg => exact registerGo_sound backend guestPrefix now reg h
  | update u =>
    refine changeGo_sound h fun place hpc hload => ?_
    subst hpc
    have htarget := place_target hmeets hload
    rw [hcall] at htarget
    exact .updated place u.normalize h (Option.some.inj htarget).symm
  | delete id =>
    refine changeGo_sound h fun place hpc hload => ?_
    subst hpc
    have htarget := place_target hmeets hload
    rw [hcall] at htarget
    obtain rfl := Option.some.inj htarget
    exact .deleted place h

end Sound

/-- The files hold the users that the log accounts for, and the counter is not behind any id. -/
structure StoreHolds (start : List UserRecord) (st : CallStore) (uss : List (List UserRecord)) (n : ℕ) : Prop where
  layout : Layout st.dir uss
  counter : readCounter st.dir = .ok n
  tracked : Tracked start st.log uss.flatten n

section Save

variable {start : List UserRecord} {st : CallStore} {dir : UsersDir} {uss pre post : List (List UserRecord)} {n : ℕ}

lemma Layout.congr (h : Layout dir uss) {d : UsersDir} (hd : d.shards = dir.shards) : Layout d uss where
  few := h.few
  file i us hi := by
    obtain ⟨s, hs, hus⟩ := h.file i us hi
    exact ⟨s, (loadShardAt_congr hd (i + 1)).trans hs, hus⟩
  rest i hlt hend := by
    rw [hd]
    exact h.rest i hlt hend

/-- Where a shard that loads stands among the others. -/
lemma Layout.around (h : Layout dir uss) {i : ℕ} (hi : Reached i) {s : UserShard} (hs : loadShardAt dir i = .ok s) :
    ∃ pre post, uss = pre ++ s.users :: post ∧ i = pre.length + 1 := by
  obtain ⟨hone, hend⟩ := hi
  obtain ⟨k, rfl⟩ := Nat.exists_eq_add_of_le' hone
  have hk : k < uss.length := by
    by_contra hge
    have hnone := h.rest (k + 1) (by omega) hend
    rw [loadShardAt, hnone] at hs
    cases hs
  obtain ⟨t, ht, hus⟩ := h.file k uss[k] (List.getElem?_eq_getElem hk)
  obtain rfl := Except.ok.inj (hs.symm.trans ht)
  refine ⟨uss.take k, uss.drop (k + 1), ?_, by rw [List.length_take, Nat.min_eq_left hk.le]⟩
  rw [hus, List.cons_getElem_drop_succ, List.take_append_drop]

lemma StoreHolds.rewritten (h : StoreHolds start st uss n) (ha : Around uss pre post)
    (hfew : pre.length + 1 < userShardIndexEnd) {s : UserShard} {c : Commit}
    (hload : loadUserShard (piecesText (shardPieces (pre.length + 1) s.users)) = .ok s)
    (ht : Tracked start (st.log ++ [c]) (pre.flatten ++ s.users ++ post.flatten) n) :
    StoreHolds start ⟨(saveUserShard .sound st.dir (pre.length + 1) s).2,
      st.log ++ [c]⟩ (pre ++ s.users :: post) n where
  layout := h.layout.save ha hfew hload
  counter := h.counter
  tracked := by
    rw [List.flatten_append, List.flatten_cons, ← List.append_assoc]
    exact ht

lemma UserPlace.split (place : UserPlace) : place.shard.users =
    place.shard.users.take place.slot ++ place.user :: place.shard.users.drop (place.slot + 1) := by
  rw [UserPlace.user, List.get_eq_getElem, List.cons_getElem_drop_succ, List.take_append_drop]

lemma StoreHolds.saved (h : StoreHolds start st uss n) {w : Rewrite} (hw : Made w) (hcurrent : w.Current st.dir)
    (hread : w.ReadsBack) (hnew : ∀ u, w.commit = .registered u → u.id ∉ usedIds start st.log ∧ u.id ≤ n) :
    ∃ uss', StoreHolds start ⟨(saveUserShard .sound st.dir w.shardIndex w.shard).2, st.log ++ [w.commit]⟩ uss' n := by
  have htracked := h.tracked
  cases hw with
  | new i u =>
    obtain ⟨hi, hend⟩ := hcurrent
    rw [h.layout.last] at hi
    have hi' : i = uss.length + 1 := hi
    subst hi'
    obtain ⟨hfree, hn⟩ := hnew u rfl
    have hinsert : Tracked start (st.log ++ [.registered u]) (uss.flatten ++ [u] ++ [].flatten) n := by
      rw [List.flatten_nil, List.append_nil]
      exact Tracked.insert (by rw [List.append_nil]; exact htracked) hfree hn
    exact ⟨_, h.rewritten (.inr ⟨rfl, rfl⟩) hend hread hinsert⟩
  | @extended i s t u hi ht =>
    obtain ⟨pre, post, rfl, rfl⟩ := h.layout.around hi hcurrent
    obtain ⟨hfree, hn⟩ := hnew u rfl
    have hinsert : Tracked start (st.log ++ [.registered u]) (pre.flatten ++ t.users ++ post.flatten) n := by
      have hold : Tracked start st.log ((pre.flatten ++ s.users) ++ post.flatten) n := by simpa using htracked
      simpa [ht] using hold.insert hfree hn
    exact ⟨_, h.rewritten (.inl ⟨_, rfl⟩) hi.2 hread hinsert⟩
  | updated place u hi hid =>
    obtain ⟨pre, post, rfl, hindex⟩ := h.layout.around hi hcurrent
    have hset : (place.shard.set place.slot u).users =
        place.shard.users.take place.slot ++ u :: place.shard.users.drop (place.slot + 1) :=
      List.set_eq_take_append_cons_drop.trans (if_pos place.inShard)
    have hreplace : Tracked start (st.log ++ [.updated u])
        (pre.flatten ++ (place.shard.set place.slot u).users ++ post.flatten) n := by
      rw [place.split, flatten_at] at htracked
      rw [hset]
      simpa using htracked.replace hid.symm
    rw [hindex] at hread hi ⊢
    exact ⟨_, h.rewritten (.inl ⟨_, rfl⟩) hi.2 hread hreplace⟩
  | deleted place hi =>
    obtain ⟨pre, post, rfl, hindex⟩ := h.layout.around hi hcurrent
    have herase : (place.shard.erase place.slot).users =
        place.shard.users.take place.slot ++ place.shard.users.drop (place.slot + 1) :=
      List.eraseIdx_eq_take_drop_succ _ _
    have hremove : Tracked start (st.log ++ [.deleted place.user.id])
        (pre.flatten ++ (place.shard.erase place.slot).users ++ post.flatten) n := by
      rw [place.split, flatten_at] at htracked
      rw [herase]
      simpa using htracked.remove
    rw [hindex] at hread hi ⊢
    exact ⟨_, h.rewritten (.inl ⟨_, rfl⟩) hi.2 hread hremove⟩

end Save

section Kept

variable {start : List UserRecord} {backend : HashBackend} {guestPrefix : Bytes} {calls : ℕ → StoreCall}

/-- An id on its way to a shard is new, and the counter has passed it. -/
def Unused (start : List UserRecord) (st : CallStore) (pc : CallPc) : Prop :=
  ∀ u, pc.pending = some u → u.id ∉ usedIds start st.log ∧ ∀ n, readCounter st.dir = .ok n → u.id ≤ n

def callsShape (start : List UserRecord) : Sys.Shape ℕ CallStore CallPc where
  store st := ∃ uss n, StoreHolds start st uss n
  own _ st pc := pc.Sound ∧ Unused start st pc
  pair p q := ∀ u v, p.pending = some u → q.pending = some v → u.id ≠ v.id

lemma readCounter_congr {d dir : UsersDir} (h : d.counter = dir.counter) : readCounter d = readCounter dir := by
  rw [readCounter, readCounter, h]

lemma readCounter_bumped {dir : UsersDir} {n : ℕ} (h : n + 1 < 2 ^ 64) :
    readCounter { dir with counter := some (decimal (Fin.ofNat (2 ^ 64) (n + 1)) ++ [nl]) } = .ok (n + 1) := by
  have hval : (Fin.ofNat (2 ^ 64) (n + 1) : ℕ) = n + 1 := Nat.mod_eq_of_lt h
  rw [hval]
  simp only [readCounter, scanUlong_decimal h]

/-- The call itself goes on as it may. -/
lemma moved_own {st : CallStore} {pc : CallPc} {r : CallStore × CallPc} {i : ℕ} (hmoved : CallMoved st pc r)
    (hstore : ∃ uss n, StoreHolds start st uss n) (hsound : pc.Sound) (hunused : Unused start st pc)
    (hmeets : MeetsOwnRead calls i () st pc) : (∃ uss n, StoreHolds start r.1 uss n) ∧ Unused start r.1 r.2 := by
  obtain ⟨uss, n, h⟩ := hstore
  cases hmoved with
  | quiet dir pc' hshards hcounter hpending =>
    refine ⟨⟨uss, n, h.layout.congr hshards, (readCounter_congr hcounter).trans h.counter, h.tracked⟩, fun u hu => ?_⟩
    rw [readCounter_congr hcounter]
    exact hunused u (hpending u hu)
  | bump k pc' hpc hpending =>
    subst hpc
    obtain ⟨hread, hlt⟩ := hmeets
    obtain rfl := Except.ok.inj (h.counter.symm.trans hread)
    have hnew := @readCounter_bumped st.dir n hlt
    refine ⟨⟨uss, n + 1, h.layout.congr rfl, hnew, h.tracked.raise (Nat.le_succ n)⟩, fun u hu => ?_⟩
    have hid : u.id = n + 1 := (hpending u hu).trans (Nat.mod_eq_of_lt hlt)
    refine ⟨fun hused => ?_, fun m hm => ?_⟩
    · have := h.tracked.counted _ hused
      omega
    · rw [hnew] at hm
      rw [← Except.ok.inj hm, hid]
  | save w hpc =>
    subst hpc
    refine ⟨?_, fun u hu => nomatch hu⟩
    obtain ⟨uss', h'⟩ := h.saved hsound hmeets.1 hmeets.2 fun u hu => by
      obtain ⟨hfree, hcount⟩ := hunused u (by rw [CallPc.pending, hu])
      exact ⟨hfree, hcount n h.counter⟩
    exact ⟨uss', n, h'⟩

/-- The other calls may go on as before. -/
lemma moved_other {st : CallStore} {pc q : CallPc} {r : CallStore × CallPc} {i : ℕ} (hmoved : CallMoved st pc r)
    (hunused : Unused start st q) (hpair : ∀ u v, pc.pending = some u → q.pending = some v → u.id ≠ v.id)
    (hmeets : MeetsOwnRead calls i () st pc) :
    Unused start r.1 q ∧ ∀ u v, r.2.pending = some u → q.pending = some v → u.id ≠ v.id := by
  cases hmoved with
  | quiet dir pc' hshards hcounter hpending =>
    refine ⟨fun v hv => ?_, fun u v hu => hpair u v (hpending u hu)⟩
    rw [readCounter_congr hcounter]
    exact hunused v hv
  | bump k pc' hpc hpending =>
    subst hpc
    obtain ⟨hread, hlt⟩ := hmeets
    have hnew := @readCounter_bumped st.dir k hlt
    refine ⟨fun v hv => ?_, fun u v hu hv => ?_⟩
    · obtain ⟨hfree, hcount⟩ := hunused v hv
      refine ⟨hfree, fun m hm => ?_⟩
      rw [hnew] at hm
      rw [← Except.ok.inj hm]
      exact (hcount k hread).trans (Nat.le_succ k)
    · have hid : u.id = k + 1 := (hpending u hu).trans (Nat.mod_eq_of_lt hlt)
      have hle := (hunused v hv).2 k hread
      omega
  | save w hpc =>
    subst hpc
    refine ⟨fun v hv => ?_, fun u v hu => nomatch hu⟩
    obtain ⟨hfree, hcount⟩ := hunused v hv
    refine ⟨?_, hcount⟩
    rw [usedIds_concat, List.mem_append, not_or]
    refine ⟨hfree, fun hmem => ?_⟩
    cases hc : w.commit with
    | registered u =>
      rw [hc, Commit.newId, Option.toList_some, List.mem_singleton] at hmem
      exact hpair u v (by rw [CallPc.pending, hc]) hv hmem.symm
    | updated u | deleted id =>
      rw [hc] at hmem
      cases hmem

lemma calls_kept : (callsShape start).Kept (callAct backend guestPrefix calls) (MeetsOwnRead calls) where
  symm p q h u v hu hv := (h v u hv hu).symm
  own i _ st pc hstore hown hmeets := by
    obtain ⟨hnext, hunused⟩ := moved_own (callGo_moved backend guestPrefix (calls i)) hstore hown.1 hown.2 hmeets
    exact ⟨hnext, callGo_sound hown.1 hmeets, hunused⟩
  others i _ st pc j q hj hstore hown hq hpair hmeets := by
    obtain ⟨hunused, hapart⟩ := moved_other (callGo_moved backend guestPrefix (calls i)) hq.2 hpair hmeets
    exact ⟨⟨hq.1, hunused⟩, hapart⟩

lemma Layout.allUsers {dir : UsersDir} {uss : List (List UserRecord)} (h : Layout dir uss) :
    Storage.allUsers dir = uss.flatten := by
  have hholds := h.holds
  rw [Storage.allUsers]
  generalize userShardIndexes dir = indexes at hholds
  clear h
  induction hholds with
  | nil => rfl
  | cons hload hrest ih =>
    obtain ⟨s, hs, rfl⟩ := hload
    rw [List.flatMap_cons, hs, ih, List.flatten_cons]

/-- The files load, no file stands behind a gap, and the ids are distinct and not ahead of the counter. -/
def StartsWell (dir : UsersDir) : Prop :=
  ∃ uss n, Layout dir uss ∧ readCounter dir = .ok n ∧ (uss.flatten.map UserRecord.id).Nodup ∧
    ∀ u ∈ uss.flatten, u.id ≤ n

/-- No account is lost, doubled or left behind in a run in which every call writes what fits the files as they are. -/
theorem no_account_lost {dir : UsersDir} (hdir : StartsWell dir) {turns : List ℕ}
    (hmeets : Transducer.Along (Sys.step (callAct backend guestPrefix calls)) (Sys.Allowed (MeetsOwnRead calls))
      (Calls.start dir) (turns.map fun i => (i, ()))) :
    CallsKept (allUsers dir) (callRun backend guestPrefix calls dir turns).store.log
      (callRun backend guestPrefix calls dir turns).store.dir := by
  obtain ⟨uss, n, hlayout, hcounter, hids, hknown⟩ := hdir
  have htracked : Tracked (allUsers dir) [] uss.flatten n := by
    rw [hlayout.allUsers]
    have hnil : usedIds uss.flatten [] = uss.flatten.map UserRecord.id := List.append_nil _
    refine ⟨hids, rfl, hnil ▸ hids, fun u hu => ?_, fun id hid => (nomatch hid), fun id hid => ?_⟩
    · rw [hnil]
      exact List.mem_map_of_mem hu
    · rw [hnil] at hid
      obtain ⟨u, hu, rfl⟩ := List.mem_map.mp hid
      exact hknown u hu
  have hstart : (callsShape (allUsers dir)).Holds (Calls.start dir) :=
    ⟨⟨uss, n, hlayout, hcounter, htracked⟩, fun _ => ⟨trivial, fun u hu => (nomatch hu)⟩,
      fun i j hij u v hu => nomatch hu⟩
  obtain ⟨uss', m, h⟩ := (Sys.holds_run calls_kept hstart hmeets).store
  have hall := h.layout.allUsers
  change allUsers (callRun backend guestPrefix calls dir turns).store.dir = _ at hall
  have hstored : lookup (allUsers (callRun backend guestPrefix calls dir turns).store.dir) =
      expected (allUsers dir) (callRun backend guestPrefix calls dir turns).store.log := by
    rw [hall]
    exact h.tracked.stored
  refine ⟨fun id => by rw [hstored], fun u hu hd => ?_, fun id hid => ?_, ?_, h.tracked.fresh⟩
  · rw [hstored]
    exact expected_held hu hd
  · rw [hall]
    exact (h.tracked.gone id hid).2
  · rw [hall]
    exact h.tracked.ids

end Kept

section Example

def bertsRegistration : UserRegistration where
  username := CText.copy (ofString "Bert")
  nickname := CText.copy (ofString "bertie")
  fullName := CText.copy (ofString "Bert Lee")
  country := CText.copy (ofString "Austria")
  location := CText.copy (ofString "Graz")
  email := CText.copy (ofString "bert@example.org")
  password := CText.copy (ofString "correct horse")

def twoRegistrations : ℕ → StoreCall
  | 0 => .register 5 (annasRegistration (CText.copy (ofString "Anna Lee")))
  | _ => .register 5 bertsRegistration

def oneAfterTheOther : List ℕ := List.replicate 7 0 ++ List.replicate 10 1

/-- Both place their user in a first shard of their own. -/
def bothPlaced : List ℕ := List.replicate 5 0 ++ List.replicate 5 1 ++ [0, 1, 0, 1]

lemma fresh_startsWell : StartsWell .fresh :=
  ⟨[], 0, represents_fresh.layout, rfl, List.nodup_nil, fun _ hu => nomatch hu⟩

theorem no_account_lost_in_turn : CallsKept (allUsers .fresh)
    (callRun zeroDigests (ofString "Guest") twoRegistrations .fresh oneAfterTheOther).store.log
    (callRun zeroDigests (ofString "Guest") twoRegistrations .fresh oneAfterTheOther).store.dir :=
  no_account_lost fresh_startsWell (by decide +kernel)

theorem first_account_lost : ¬∀ (backend : HashBackend) (guestPrefix : Bytes) (calls : ℕ → StoreCall) (dir : UsersDir)
    (turns : List ℕ), StartsWell dir → CallsKept (allUsers dir) (callRun backend guestPrefix calls dir turns).store.log
      (callRun backend guestPrefix calls dir turns).store.dir := by
  intro h
  have hkept := h zeroDigests (ofString "Guest") twoRegistrations .fresh bothPlaced fresh_startsWell
  have hlost : (lookup (allUsers (callRun zeroDigests (ofString "Guest") twoRegistrations .fresh bothPlaced).store.dir)
      1).isSome = false := by decide +kernel
  have hreported : (expected (allUsers .fresh)
      (callRun zeroDigests (ofString "Guest") twoRegistrations .fresh bothPlaced).store.log 1).isSome = true := by
    decide +kernel
  rw [hkept.stored, hreported] at hlost
  cases hlost

end Example

end HyBBX.Storage
