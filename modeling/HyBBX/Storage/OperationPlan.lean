import HyBBX.Storage.UserMap

/-! Which shard an operation rewrites, and that it fails exactly when the rewrite does. -/

namespace HyBBX.Storage

open HyBBX.Core HyBBX.Config Lib Lib.Bytes Lib.Text Lib.Numeral Lib.LineReader

def Outcome.failed : Outcome → Bool
  | .registered (.error _) => true
  | .registered (.ok _) => false
  | .updated rc => rc ≠ .ok
  | .deleted rc => rc ≠ .ok
  | .found _ => false

/-- The shard that an operation rewrites, and the users it is to hold then. -/
def StoreOp.plan (backend : HashBackend) (guestPrefix : Bytes) (dir : UsersDir) : StoreOp → Option (ℕ × UserShard)
  | .register now reg =>
    match newRegistration backend guestPrefix now dir reg with
    | (.error _, _) => none
    | (.ok u, bumped) =>
      match appendTarget bumped with
      | .error _ => none
      | .ok (shardIndex, loaded) =>
        if room : loaded.users.length < usersPerFile then
          some (shardIndex, ⟨loaded.users ++ [u], append_fits u room⟩)
        else none
  | .update u => (locateUser dir u.id).toOption.map fun place =>
    (place.shardIndex, place.shard.set place.slot u.normalize)
  | .delete id => (locateUser dir id).toOption.map fun place => (place.shardIndex, place.shard.erase place.slot)
  | .find _ => none

/-- An error that is one: the result code is not OK. -/
def Honest {α : Type} (answer : Except HybbxResult α) : Prop := answer ≠ .error .ok

section Honest

variable {dir : UsersDir}

lemma loadLine_honest (st : ConfigLoad) (piece : Bytes) : Honest (loadLine st piece) := by
  rw [Honest, loadLine]
  dsimp only
  split
  · simp
  · split
    · simp
    · split
      · rw [loadSection]
        split_ifs
        · simp
        · simp
      · rw [loadEntry]
        split
        · simp
        · split
          · simp
          · dsimp only
            split
            · simp
            · simp

lemma loadLines_honest (st : ConfigLoad) (pieces : List Bytes) : Honest (loadLines st pieces) := by
  induction pieces generalizing st with
  | nil => simp [Honest, loadLines, pure, Except.pure]
  | cons piece pieces ih =>
    rw [loadLines, List.foldlM_cons]
    cases hl : loadLine st piece with
    | error rc =>
      have := loadLine_honest st piece
      rw [hl] at this
      exact this
    | ok st' => exact ih st'

lemma loadUserShard_honest (file : Bytes) : Honest (loadUserShard file) := by
  rw [Honest, loadUserShard, configLoad]
  have hlines := loadLines_honest ⟨[], []⟩ (fgets configLineMax file)
  cases hl : loadLines ⟨[], []⟩ (fgets configLineMax file) with
  | error rc =>
    rw [hl] at hlines
    simpa [Except.map, Honest] using hlines
  | ok st =>
    simp only [Except.map]
    split
    · simp
    · simp

lemma loadShardAt_honest (i : ℕ) : Honest (loadShardAt dir i) := by
  rw [loadShardAt]
  split
  · simp [Honest]
  · exact loadUserShard_honest _

lemma findUserShard_honest (userId : ℕ) : Honest (findUserShard dir userId) := by
  have hin : ∀ indexes, Honest (findUserShardIn dir userId indexes) := by
    intro indexes
    induction indexes with
    | nil => simp [Honest, findUserShardIn]
    | cons i indexes ih =>
      rw [findUserShardIn]
      split
      · exact ih
      · split
        · rename_i rc hrc
          have := @loadShardAt_honest dir i
          rw [hrc] at this
          simpa [Honest] using this
        · split
          · simp [Honest]
          · exact ih
  rw [findUserShard]
  split
  · simp [Honest]
  · exact hin _

lemma locateUser_honest (userId : ℕ) : Honest (locateUser dir userId) := by
  rw [locateUser]
  split
  · simp [Honest]
  · split
    · rename_i rc hrc
      have := @findUserShard_honest dir userId
      rw [hrc] at this
      simpa [Honest] using this
    · rename_i i slot hfind
      split
      · rename_i rc hrc
        have := @loadShardAt_honest dir i
        rw [hrc] at this
        simpa [Honest] using this
      · split
        · simp [Honest]
        · simp [Honest]

lemma appendTarget_honest : Honest (appendTarget dir) := by
  rw [appendTarget]
  split
  · simp [Honest]
  · split
    · rename_i rc hrc
      have := @loadShardAt_honest dir (lastUserShardIndex dir)
      rw [hrc] at this
      simpa [Honest] using this
    · split
      · simp [Honest]
      · simp [Honest]

lemma foundBy_honest (visited : HybbxResult × UserRecord) : Honest (foundBy visited) := by
  obtain ⟨rc, u⟩ := visited
  cases rc <;> simp [Honest, foundBy]

lemma newRegistration_honest (backend : HashBackend) (guestPrefix : Bytes) (now : Int64) (reg : UserRegistration) :
    Honest (newRegistration backend guestPrefix now dir reg).1 := by
  rw [newRegistration]
  split_ifs
  · simp [Honest]
  · split
    · simp [Honest]
    · split
      · split
        · rename_i rc hrc
          rw [bumpCounter, readCounter] at hrc
          split at hrc
          · rename_i hread
            split at hread
            · cases hread
            · split at hread
              · obtain rfl := Except.error.inj hread
                obtain rfl := Except.error.inj hrc
                simp [Honest]
              · cases hread
          · cases hrc
        · split
          · simp [Honest]
          · simp [Honest]
      · simp [Honest]
      · simp [Honest]
      · rename_i rc hne _ hvisit
        intro h
        obtain rfl := Except.error.inj h
        exact hne rfl
    · rename_i rc _ hfind
      have := foundBy_honest (foreachUser (fun _ => dir) (findUserCb reg.username.text) UserRecord.zero)
      rw [← findUser, hfind] at this
      simpa [Honest] using this

end Honest

section Plan

variable {io : ShardIo} {backend : HashBackend} {guestPrefix : Bytes} {dir : UsersDir}

lemma loadShardAt_congr {d : UsersDir} (h : d.shards = dir.shards) (i : ℕ) : loadShardAt d i = loadShardAt dir i := by
  rw [loadShardAt, h, loadShardAt]

lemma bumpCounter_shards {id : Fin (2 ^ 64)} {d : UsersDir} (h : bumpCounter dir = .ok (id, d)) :
    d.shards = dir.shards := by
  rw [bumpCounter] at h
  split at h
  · cases h
  · obtain ⟨-, rfl⟩ := Prod.mk.inj (Except.ok.inj h)
    rfl

lemma newRegistration_shards (now : Int64) (reg : UserRegistration) :
    (newRegistration backend guestPrefix now dir reg).2.shards = dir.shards := by
  rw [newRegistration]
  split_ifs
  · rfl
  · split
    · rfl
    · split
      · split
        · rfl
        · rename_i hbump
          split
          · exact bumpCounter_shards hbump
          · exact bumpCounter_shards hbump
      · rfl
      · rfl
      · rfl
    · rfl

lemma lastUserShardIndex_lt (dir : UsersDir) : lastUserShardIndex dir < userShardIndexEnd := by
  have hle := (List.takeWhile_prefix (p := fun index => (dir.shards index).isSome)
    (l := List.range' 1 (userShardIndexEnd - 1))).length_le
  rw [List.length_range'] at hle
  exact lt_of_le_of_lt hle (by decide)

lemma findUserShardIn_mem {userId i slot : ℕ} {indexes : List ℕ}
    (h : findUserShardIn dir userId indexes = .ok (i, slot)) :
    i ∈ indexes := by
  induction indexes with
  | nil => cases h
  | cons j indexes ih =>
    rw [findUserShardIn] at h
    split at h
    · exact List.mem_cons_of_mem j (ih h)
    · split at h
      · cases h
      · split at h
        · obtain ⟨rfl, -⟩ := Prod.mk.inj (Except.ok.inj h)
          exact List.mem_cons_self
        · exact List.mem_cons_of_mem j (ih h)

lemma locateUser_index {userId : ℕ} {place : UserPlace} (h : locateUser dir userId = .ok place) :
    place.shardIndex < 2 ^ 64 := by
  have hlast := lastUserShardIndex_lt dir
  have hend : userShardIndexEnd = 10000 := rfl
  rw [locateUser] at h
  split at h
  · cases h
  · split at h
    · cases h
    · rename_i i slot hfind
      have hmem : i ∈ userShardIndexes dir := by
        rw [findUserShard] at hfind
        split at hfind
        · cases hfind
        · exact findUserShardIn_mem hfind
      obtain ⟨j, hj, rfl⟩ := List.mem_range'.mp hmem
      split at h
      · cases h
      · split at h
        · obtain rfl := Except.ok.inj h
          dsimp only
          omega
        · cases h

lemma appendTarget_index {i : ℕ} {s : UserShard} (h : appendTarget dir = .ok (i, s)) : i < 2 ^ 64 := by
  have hlast := lastUserShardIndex_lt dir
  have hend : userShardIndexEnd = 10000 := rfl
  rw [appendTarget] at h
  split at h
  · obtain ⟨rfl, -⟩ := Prod.mk.inj (Except.ok.inj h)
    decide
  · split at h
    · cases h
    · split at h
      · obtain ⟨rfl, -⟩ := Prod.mk.inj (Except.ok.inj h)
        omega
      · obtain ⟨rfl, -⟩ := Prod.mk.inj (Except.ok.inj h)
        omega

/-- An operation leaves the shards alone, or rewrites one of them as planned and fails when the rewrite does. -/
inductive FollowsPlan (io : ShardIo) (dir : UsersDir) (plan : Option (ℕ × UserShard)) (next : UsersDir × List Outcome) : Prop
  | idle (none : plan = none) (kept : next.1.shards = dir.shards)
      (failed : ∀ out ∈ next.2, out.failed = true ∨ ∃ answer, out = .found answer)
  | rewrites (d : UsersDir) (i : ℕ) (new : UserShard) (some : plan = some (i, new)) (index : i < 2 ^ 64)
      (kept : d.shards = dir.shards) (saved : next.1 = (saveUserShard io d i new).2) (out : Outcome)
      (single : next.2 = [out]) (asked : ∀ answer, out ≠ .found answer)
      (failed : out.failed = decide ((saveUserShard io d i new).1 ≠ .ok))

lemma follows_plan (op : StoreOp) :
    FollowsPlan io dir (op.plan backend guestPrefix dir) (storeStep io backend guestPrefix dir op) := by
  cases op with
  | find name => exact .idle rfl rfl fun out hout => .inr ⟨_, List.mem_singleton.mp hout⟩
  | update u =>
    have hhonest := @locateUser_honest dir u.id
    rw [storeStep, updateUser, StoreOp.plan]
    cases hp : locateUser dir u.id with
    | error rc =>
      rw [hp] at hhonest
      refine .idle rfl rfl fun out hout => .inl ?_
      obtain rfl := List.mem_singleton.mp hout
      simpa [Outcome.failed, Honest] using hhonest
    | ok place =>
      exact .rewrites dir place.shardIndex _ rfl (locateUser_index hp) rfl rfl _ rfl (by simp) rfl
  | delete id =>
    have hhonest := @locateUser_honest dir id
    rw [storeStep, deleteUser, StoreOp.plan]
    cases hp : locateUser dir id with
    | error rc =>
      rw [hp] at hhonest
      refine .idle rfl rfl fun out hout => .inl ?_
      obtain rfl := List.mem_singleton.mp hout
      simpa [Outcome.failed, Honest] using hhonest
    | ok place =>
      exact .rewrites { dir with nickFile := removeNicknameFile dir.nickFile place.user.username.text }
        place.shardIndex _ rfl (locateUser_index hp) rfl rfl _ rfl (by simp) rfl
  | register now reg =>
    have hshards := @newRegistration_shards backend guestPrefix dir now reg
    rw [storeStep, registerUser, StoreOp.plan]
    rcases hr : newRegistration backend guestPrefix now dir reg with ⟨answer, bumped⟩
    rw [hr] at hshards
    cases answer with
    | error rc => exact .idle rfl hshards fun out hout => .inl (by rw [List.mem_singleton.mp hout]; rfl)
    | ok u =>
      dsimp only
      have hhonest := @appendTarget_honest bumped
      rw [appendUserRecord]
      cases ht : appendTarget bumped with
      | error rc =>
        rw [ht] at hhonest
        cases rc with
        | ok => exact absurd rfl hhonest
        | _ => exact .idle rfl hshards fun out hout => .inl (by rw [List.mem_singleton.mp hout]; rfl)
      | ok target =>
        obtain ⟨i, loaded⟩ := target
        dsimp only
        split_ifs with hroom
        · refine .rewrites bumped i _ rfl (appendTarget_index ht) hshards ?_ _ rfl (by simp) ?_
          · rcases saveUserShard io bumped i _ with ⟨rc, d⟩
            cases rc <;> rfl
          · rcases saveUserShard io bumped i _ with ⟨rc, d⟩
            cases rc <;> rfl
        · exact .idle rfl hshards fun out hout => .inl (by rw [List.mem_singleton.mp hout]; rfl)

end Plan

end HyBBX.Storage
