import HyBBX.Lib.Processes
import HyBBX.Storage.StoreSteps

/-! Calls of the user store from threads of their own: each access to the counter or a shard is a step. -/

namespace HyBBX.Storage

open HyBBX.Core HyBBX.Config Lib Lib.Bytes Lib.Text Lib.Numeral Lib.LineReader

deriving instance DecidableEq for UserShard

inductive StoreCall
  | register (now : Int64) (reg : UserRegistration)
  | update (u : UserRecord)
  | delete (id : ℕ)

/-- What a call has done when it returns OK. -/
inductive Commit
  | registered (u : UserRecord)
  | updated (u : UserRecord)
  | deleted (id : ℕ)
  deriving DecidableEq

/-- A shard that a call is about to write, and the shard as it was loaded; none where the file is new. -/
structure Rewrite where
  shardIndex : ℕ
  base : Option UserShard
  shard : UserShard
  commit : Commit

inductive CallPc
  | called
  | searching (rest : List ℕ)
  | comparing (rest : List ℕ)
  | counting
  | bumping (n : ℕ)
  | placing (u : UserRecord)
  | extending (u : UserRecord) (last : ℕ)
  | finding (rest : List ℕ)
  | reloading (shardIndex slot : ℕ)
  | saving (w : Rewrite)
  | returned (rc : HybbxResult)

/-- The files, and what the calls that returned OK have done. -/
structure CallStore where
  dir : UsersDir
  log : List Commit

section Steps

variable (st : CallStore)

def loadStep (shardIndex : ℕ) (k : UserShard → CallStore × CallPc) : CallStore × CallPc :=
  match loadShardAt st.dir shardIndex with
  | .error rc => (st, .returned rc)
  | .ok s => k s

def saveStep (w : Rewrite) : CallStore × CallPc :=
  match saveUserShard .sound st.dir w.shardIndex w.shard with
  | (.ok, dir) => (⟨dir, st.log ++ [w.commit]⟩, .returned .ok)
  | (rc, dir) => (⟨dir, st.log⟩, .returned rc)

section Register

variable (backend : HashBackend) (guestPrefix : Bytes) (now : Int64) (reg : UserRegistration)

/-- The first user of a file. -/
def newFile (shardIndex : ℕ) (u : UserRecord) : Rewrite :=
  ⟨shardIndex, none, ⟨[u], Nat.succ_le_of_lt (by decide : 0 < usersPerFile)⟩, .registered u⟩

def extendStep (u : UserRecord) (last : ℕ) (s : UserShard) : Rewrite :=
  if room : s.users.length < usersPerFile then
    ⟨last, some s, ⟨s.users ++ [u], append_fits u room⟩, .registered u⟩
  else newFile (last + 1) u

def registerGo : CallPc → CallStore × CallPc
  | .called =>
    (st, if registrationValid reg guestPrefix then .searching (userShardIndexes st.dir) else .returned .errInvalid)
  | .searching [] => (st, .comparing (userShardIndexes st.dir))
  | .searching (i :: rest) => loadStep st i fun s =>
    (st, if s.users.any fun u => strIeq u.username.text reg.username.text then .returned .errBusy else .searching rest)
  | .comparing [] => (st, .counting)
  | .comparing (i :: rest) => loadStep st i fun s =>
    (st, if s.users.any (identityTaken reg.username.text reg.nickname.text) then .returned .errBusy else .comparing rest)
  | .counting =>
    match readCounter st.dir with
    | .error rc => (st, .returned rc)
    | .ok n => (st, .bumping n)
  | .bumping n =>
    let id := Fin.ofNat (2 ^ 64) (n + 1)
    ({ st with dir := { st.dir with counter := some (decimal id ++ [nl]) } },
      match registeredPassword backend reg.password.text with
      | none => .returned .errInvalid
      | some password => .placing { newUser reg now id with password := password })
  | .placing u =>
    let last := lastUserShardIndex st.dir
    (st, if last = 0 then .saving (newFile 1 u) else .extending u last)
  | .extending u last => loadStep st last fun s => (st, .saving (extendStep u last s))
  | .saving w => saveStep st w
  | pc => (st, pc)

end Register

/-- The steps of a change of the user with an id. -/
def changeGo (id : ℕ) (edit : UserPlace → CallStore × CallPc) : CallPc → CallStore × CallPc
  | .called => (st, if id = 0 then .returned .errInvalid else .finding (userShardIndexes st.dir))
  | .finding [] => (st, .returned .errNotFound)
  | .finding (i :: rest) =>
    if (st.dir.shards i).isNone then (st, .finding rest)
    else loadStep st i fun s =>
      match s.users.findIdx? fun u => u.id = id with
      | some slot => (st, .reloading i slot)
      | none => (st, .finding rest)
  | .reloading i slot => loadStep st i fun s =>
    if inShard : slot < s.users.length then edit ⟨i, s, slot, inShard⟩ else (st, .returned .errNotFound)
  | .saving w => saveStep st w
  | pc => (st, pc)

def updateEdit (u : UserRecord) (place : UserPlace) : CallStore × CallPc :=
  (st, .saving ⟨place.shardIndex, some place.shard, place.shard.set place.slot u.normalize, .updated u.normalize⟩)

-- the nickname file goes before the shard is written
def deleteEdit (id : ℕ) (place : UserPlace) : CallStore × CallPc :=
  ({ st with dir := { st.dir with nickFile := removeNicknameFile st.dir.nickFile place.user.username.text } },
    .saving ⟨place.shardIndex, some place.shard, place.shard.erase place.slot, .deleted id⟩)

end Steps

def callGo (backend : HashBackend) (guestPrefix : Bytes) (call : StoreCall) (st : CallStore) (pc : CallPc) :
    CallStore × CallPc :=
  match call with
  | .register now reg => registerGo st backend guestPrefix now reg pc
  | .update u => changeGo st u.id (updateEdit st u) pc
  | .delete id => changeGo st id (deleteEdit st id) pc

def callAct (backend : HashBackend) (guestPrefix : Bytes) (calls : ℕ → StoreCall) (i : ℕ) (_ : Unit) (st : CallStore)
    (pc : CallPc) : (CallStore × CallPc) × List Empty := (callGo backend guestPrefix (calls i) st pc, [])

abbrev Calls := Sys ℕ CallStore CallPc

def Calls.start (dir : UsersDir) : Calls := ⟨⟨dir, []⟩, fun _ => .called⟩

def callRun (backend : HashBackend) (guestPrefix : Bytes) (calls : ℕ → StoreCall) (dir : UsersDir)
    (turns : List ℕ) : Calls :=
  (Transducer.run (Sys.step (callAct backend guestPrefix calls)) (Calls.start dir) (turns.map fun i => (i, ()))).1

/-! The users in the files, and what the calls that have returned OK make of them. -/

def lookup (us : List UserRecord) (id : ℕ) : Option UserRecord := us.find? fun u => u.id = id

/-- The records by id after a call has returned OK. -/
def Commit.apply (records : ℕ → Option UserRecord) : Commit → ℕ → Option UserRecord
  | .registered u | .updated u => Function.update records u.id (some u)
  | .deleted id => Function.update records id none

def expected (start : List UserRecord) (log : List Commit) : ℕ → Option UserRecord :=
  log.foldl Commit.apply (lookup start)

def Commit.newId : Commit → Option ℕ
  | .registered u => some u.id
  | .updated _ | .deleted _ => none

def usedIds (start : List UserRecord) (log : List Commit) : List ℕ :=
  start.map UserRecord.id ++ log.filterMap Commit.newId

/-- The users of all shards that the scans reach. -/
def allUsers (dir : UsersDir) : List UserRecord :=
  (userShardIndexes dir).flatMap fun i =>
    match loadShardAt dir i with
    | .ok s => s.users
    | .error _ => []

/-- Nobody who registered and was not deleted is lost, nobody deleted is back, every record is the last one that was
stored for its id, and no two users share an id. -/
structure CallsKept (start : List UserRecord) (log : List Commit) (dir : UsersDir) : Prop where
  stored : ∀ id, lookup (allUsers dir) id = expected start log id
  held : ∀ u, .registered u ∈ log → .deleted u.id ∉ log → (lookup (allUsers dir) u.id).isSome
  gone : ∀ id, .deleted id ∈ log → lookup (allUsers dir) id = none
  distinct : ((allUsers dir).map UserRecord.id).Nodup
  fresh : (usedIds start log).Nodup

section Lookup

variable {pre post us : List UserRecord} {u v : UserRecord} {id : ℕ}

lemma lookup_none (h : ∀ u ∈ us, u.id ≠ id) : lookup us id = none :=
  List.find?_eq_none.mpr fun u hu => by simpa using h u hu

lemma lookup_insert (h : ((pre ++ u :: post).map UserRecord.id).Nodup) :
    lookup (pre ++ u :: post) = Function.update (lookup (pre ++ post)) u.id (some u) := by
  have hpre : ∀ v ∈ pre, v.id ≠ u.id := by
    rw [List.map_append, List.nodup_append] at h
    intro v hv heq
    exact h.2.2 _ (List.mem_map_of_mem hv) _ (List.mem_map_of_mem List.mem_cons_self) heq
  funext id
  by_cases hid : id = u.id
  · subst hid
    rw [Function.update_self, lookup, List.find?_append, ← lookup, lookup_none hpre, Option.none_or,
      List.find?_cons_of_pos (by simp)]
  · rw [Function.update_of_ne hid, lookup, lookup, List.find?_append, List.find?_append,
      List.find?_cons_of_neg (by simpa using Ne.symm hid)]

lemma lookup_replace (h : ((pre ++ v :: post).map UserRecord.id).Nodup) (hid : u.id = v.id) :
    lookup (pre ++ u :: post) = Function.update (lookup (pre ++ v :: post)) u.id (some u) := by
  have hu : ((pre ++ u :: post).map UserRecord.id).Nodup := by
    rw [List.map_append, List.map_cons] at h ⊢
    rw [hid]
    exact h
  rw [lookup_insert hu, lookup_insert h, hid, Function.update_idem]

lemma lookup_remove (h : ((pre ++ v :: post).map UserRecord.id).Nodup) :
    lookup (pre ++ post) = Function.update (lookup (pre ++ v :: post)) v.id none := by
  have hnone : lookup (pre ++ post) v.id = none := by
    rw [List.map_append, List.map_cons, List.nodup_middle, List.nodup_cons] at h
    refine lookup_none fun u hu heq => h.1 ?_
    rw [← List.map_append, ← heq]
    exact List.mem_map_of_mem hu
  rw [lookup_insert h, Function.update_idem, ← hnone, Function.update_eq_self]

end Lookup

section Log

variable {start : List UserRecord} {log : List Commit}

lemma expected_concat (c : Commit) : expected start (log ++ [c]) = c.apply (expected start log) := by
  rw [expected, List.foldl_append]
  rfl

lemma usedIds_concat (c : Commit) : usedIds start (log ++ [c]) = usedIds start log ++ c.newId.toList := by
  rw [usedIds, usedIds, List.filterMap_append, List.append_assoc]
  cases hc : c.newId <;> simp [hc]

/-- A registered user stays known until it is deleted. -/
lemma expected_held {u : UserRecord} (hu : .registered u ∈ log) (hd : .deleted u.id ∉ log) :
    (expected start log u.id).isSome = true := by
  induction log using List.reverseRecOn with
  | nil => cases hu
  | append_singleton log c ih =>
    rw [expected_concat]
    have hbefore : .deleted u.id ∉ log := fun h => hd (List.mem_append_left _ h)
    rcases List.mem_append.mp hu with hu | hu
    · have hsome := ih hu hbefore
      cases c with
      | registered v | updated v =>
        by_cases hid : u.id = v.id
        · rw [Commit.apply, hid, Function.update_self]
          rfl
        · rw [Commit.apply, Function.update_of_ne hid, hsome]
      | deleted id =>
        have hid : u.id ≠ id := fun h => hd (by simp [h])
        rw [Commit.apply, Function.update_of_ne hid, hsome]
    · obtain rfl := List.mem_singleton.mp hu
      rw [Commit.apply, Function.update_self]
      rfl

end Log

/-- What the users in the files owe to the calls that returned OK, and to the counter. -/
structure Tracked (start : List UserRecord) (log : List Commit) (us : List UserRecord) (n : ℕ) : Prop where
  ids : (us.map UserRecord.id).Nodup
  stored : lookup us = expected start log
  fresh : (usedIds start log).Nodup
  used : ∀ u ∈ us, u.id ∈ usedIds start log
  gone : ∀ id, .deleted id ∈ log → id ∈ usedIds start log ∧ lookup us id = none
  counted : ∀ id ∈ usedIds start log, id ≤ n

section Tracked

variable {start pre post : List UserRecord} {log : List Commit} {n : ℕ} {u v : UserRecord}

lemma Tracked.insert (h : Tracked start log (pre ++ post) n) (hfree : u.id ∉ usedIds start log) (hn : u.id ≤ n) :
    Tracked start (log ++ [.registered u]) (pre ++ u :: post) n := by
  have hids : ((pre ++ u :: post).map UserRecord.id).Nodup := by
    rw [List.map_append, List.map_cons, List.nodup_middle, ← List.map_append, List.nodup_cons]
    refine ⟨fun hmem => hfree ?_, h.ids⟩
    obtain ⟨w, hw, heq⟩ := List.mem_map.mp hmem
    rw [← heq]
    exact h.used w hw
  have hlookup := lookup_insert hids
  refine ⟨hids, ?_, ?_, ?_, ?_, ?_⟩
  · rw [hlookup, h.stored, expected_concat]
    rfl
  · rw [usedIds_concat, Commit.newId, Option.toList_some, List.nodup_append]
    refine ⟨h.fresh, by simp, fun a ha b hb => ?_⟩
    rw [List.mem_singleton.mp hb]
    exact fun heq => hfree (heq ▸ ha)
  · intro w hw
    rw [usedIds_concat, List.mem_append]
    rcases List.mem_append.mp hw with hw | hw
    · exact .inl (h.used w (List.mem_append_left _ hw))
    · rcases List.mem_cons.mp hw with rfl | hw
      · exact .inr (by simp [Commit.newId])
      · exact .inl (h.used w (List.mem_append_right _ hw))
  · intro id hid
    have hold : .deleted id ∈ log := by simpa using hid
    obtain ⟨hused, hnone⟩ := h.gone id hold
    have hne : id ≠ u.id := fun heq => hfree (heq ▸ hused)
    rw [usedIds_concat, hlookup, Function.update_of_ne hne]
    exact ⟨List.mem_append_left _ hused, hnone⟩
  · intro id hid
    rw [usedIds_concat, List.mem_append] at hid
    rcases hid with hid | hid
    · exact h.counted id hid
    · rw [Commit.newId, Option.toList_some, List.mem_singleton] at hid
      rw [hid]
      exact hn

lemma Tracked.replace (h : Tracked start log (pre ++ v :: post) n) (hid : u.id = v.id) :
    Tracked start (log ++ [.updated u]) (pre ++ u :: post) n := by
  have hused : usedIds start (log ++ [.updated u]) = usedIds start log := by
    rw [usedIds_concat, Commit.newId, Option.toList_none, List.append_nil]
  have hlookup := lookup_replace h.ids hid
  refine ⟨?_, ?_, ?_, ?_, ?_, ?_⟩
  · have hids := h.ids
    rw [List.map_append, List.map_cons] at hids ⊢
    rw [hid]
    exact hids
  · rw [hlookup, h.stored, expected_concat]
    rfl
  · rw [hused]
    exact h.fresh
  · intro w hw
    rw [hused]
    rcases List.mem_append.mp hw with hw | hw
    · exact h.used w (List.mem_append_left _ hw)
    · rcases List.mem_cons.mp hw with rfl | hw
      · rw [hid]
        exact h.used v (by simp)
      · exact h.used w (List.mem_append_right _ (List.mem_cons_of_mem v hw))
  · intro id hdel
    have hold : .deleted id ∈ log := by simpa using hdel
    obtain ⟨hmem, hnone⟩ := h.gone id hold
    have hne : id ≠ u.id := by
      rintro rfl
      rw [lookup_insert h.ids, hid, Function.update_self] at hnone
      cases hnone
    rw [hused, hlookup, Function.update_of_ne hne]
    exact ⟨hmem, hnone⟩
  · rw [hused]
    exact h.counted

lemma Tracked.remove (h : Tracked start log (pre ++ v :: post) n) :
    Tracked start (log ++ [.deleted v.id]) (pre ++ post) n := by
  have hused : usedIds start (log ++ [.deleted v.id]) = usedIds start log := by
    rw [usedIds_concat, Commit.newId, Option.toList_none, List.append_nil]
  have hlookup := lookup_remove h.ids
  have hsub : List.Sublist (pre ++ post) (pre ++ v :: post) :=
    List.Sublist.append_left (List.sublist_cons_self v post) pre
  refine ⟨h.ids.sublist (hsub.map _), ?_, ?_, ?_, ?_, ?_⟩
  · rw [hlookup, h.stored, expected_concat]
    rfl
  · rw [hused]
    exact h.fresh
  · intro w hw
    rw [hused]
    exact h.used w (hsub.subset hw)
  · intro id hdel
    rw [hused, hlookup]
    by_cases heq : id = v.id
    · rw [heq, Function.update_self]
      exact ⟨h.used v (by simp), rfl⟩
    · have hold : .deleted id ∈ log := by simpa [heq] using hdel
      rw [Function.update_of_ne heq]
      exact h.gone id hold
  · rw [hused]
    exact h.counted

lemma Tracked.raise (h : Tracked start log pre n) {m : ℕ} (hm : n ≤ m) : Tracked start log pre m :=
  ⟨h.ids, h.stored, h.fresh, h.used, h.gone, fun id hid => (h.counted id hid).trans hm⟩

end Tracked

end HyBBX.Storage
