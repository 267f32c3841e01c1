import HyBBX.Storage.FlatFile
import HyBBX.Storage.ShardRead

/-! Which users a directory holds, shard by shard, and what the scans and rewrites make of them. -/

namespace HyBBX.Storage

open HyBBX.Core HyBBX.Config Lib Lib.Bytes Lib.Text Lib.Numeral Lib.LineReader

/-- The shard file loads as these users. -/
def HoldsUsers (dir : UsersDir) (shardIndex : ℕ) (us : List UserRecord) : Prop :=
  ∃ s : UserShard, loadShardAt dir shardIndex = .ok s ∧ s.users = us

/-- The shards of a directory in order, and no file behind them that the scans reach. -/
structure Layout (dir : UsersDir) (uss : List (List UserRecord)) : Prop where
  few : uss.length < userShardIndexEnd
  file : ∀ i us, uss[i]? = some us → HoldsUsers dir (i + 1) us
  rest : ∀ i, uss.length < i → i < userShardIndexEnd → dir.shards i = none

variable {dir : UsersDir} {uss : List (List UserRecord)}

lemma HoldsUsers.file {i : ℕ} {us : List UserRecord} (h : HoldsUsers dir i us) : (dir.shards i).isSome := by
  obtain ⟨s, hs, -⟩ := h
  rw [loadShardAt] at hs
  split at hs
  · cases hs
  · rename_i hf
    rw [hf]
    rfl

lemma takeWhile_range' {p : ℕ → Bool} {start n total : ℕ} (hle : n ≤ total) (hyes : ∀ i < n, p (start + i) = true)
    (hno : n < total → p (start + n) = false) :
    (List.range' start total).takeWhile p = List.range' start n := by
  obtain ⟨k, rfl⟩ := Nat.exists_eq_add_of_le hle
  have hsplit : List.range' start (n + k) = List.range' start n ++ List.range' (start + n) k := by
    rw [← List.range'_append, Nat.one_mul]
  have hall : ∀ i ∈ List.range' start n, p i = true := by
    intro i hi
    obtain ⟨j, hj, rfl⟩ := List.mem_range'.mp hi
    rw [Nat.one_mul]
    exact hyes j hj
  rw [hsplit, List.takeWhile_append_of_pos hall]
  cases k with
  | zero => simp
  | succ k =>
    rw [List.range'_succ, List.takeWhile_cons_of_neg (by simpa using hno (by omega)), List.append_nil]

lemma Layout.last (h : Layout dir uss) : lastUserShardIndex dir = uss.length := by
  have hfew := h.few
  rw [lastUserShardIndex, takeWhile_range', List.length_range']
  · omega
  · intro i hi
    rw [Nat.add_comm]
    exact (h.file i _ (List.getElem?_eq_getElem hi)).file
  · intro hlt
    rw [h.rest (1 + uss.length) (by omega) (by omega)]
    rfl

lemma Layout.holds (h : Layout dir uss) : List.Forall₂ (HoldsUsers dir) (userShardIndexes dir) uss := by
  rw [userShardIndexes, h.last, List.forall₂_iff_get]
  refine ⟨List.length_range', ?_⟩
  intro i hi hj
  have hget : (List.range' 1 uss.length).get ⟨i, hi⟩ = i + 1 := by
    simp [Nat.add_comm]
  rw [hget]
  exact h.file i _ (List.getElem?_eq_getElem hj)

section Visit

variable {σ : Type} (fn : σ → UserRecord → HybbxResult × σ)

lemma visitUsers_append (ctx : σ) (us vs : List UserRecord) :
    visitUsers fn ctx (us ++ vs) =
      match visitUsers fn ctx us with
      | (.ok, ctx') => visitUsers fn ctx' vs
      | out => out := by
  induction us generalizing ctx with
  | nil => rfl
  | cons u us ih =>
    rw [List.cons_append, visitUsers, visitUsers]
    split
    · exact ih _
    · rename_i hne
      split
      · rename_i ctx' hok
        exact absurd hok (hne ctx')
      · rfl

lemma foreachUserIn_holds {indexes : List ℕ} (h : List.Forall₂ (HoldsUsers dir) indexes uss) (ctx : σ) :
    foreachUserIn (fun _ => dir) fn ctx indexes = visitUsers fn ctx uss.flatten := by
  induction h generalizing ctx with
  | nil => rfl
  | cons hload hrest ih =>
    obtain ⟨s, hs, rfl⟩ := hload
    rw [foreachUserIn, hs, List.flatten_cons, visitUsers_append]
    dsimp only
    rcases visitUsers fn ctx s.users with ⟨rc, ctx'⟩
    cases rc with
    | ok => exact ih ctx'
    | _ => rfl

/-- The callback sees every user of the directory, shard after shard. -/
lemma Layout.foreach (h : Layout dir uss) (ctx : σ) :
    foreachUser (fun _ => dir) fn ctx = visitUsers fn ctx uss.flatten :=
  foreachUserIn_holds fn h.holds ctx

end Visit

lemma visit_find {p : UserRecord → Bool} {fn : UserRecord → UserRecord → HybbxResult × UserRecord}
    (hfn : ∀ out u, fn out u = if p u then (.errBusy, u) else (.ok, out)) (ctx : UserRecord) (us : List UserRecord) :
    foundBy (visitUsers fn ctx us) =
      match us.find? p with
      | some u => .ok u
      | none => .error .errNotFound := by
  induction us with
  | nil => rfl
  | cons u us ih =>
    rw [visitUsers, hfn, List.find?_cons]
    cases hp : p u with
    | true => rfl
    | false => exact ih

lemma visit_taken (username nickname : Bytes) (us : List UserRecord) :
    visitUsers (identityTakenCb username nickname) false us =
      if us.any (identityTaken username nickname) then (.errBusy, true) else (.ok, false) := by
  induction us with
  | nil => rfl
  | cons u us ih =>
    rw [visitUsers, identityTakenCb, List.any_cons]
    cases hp : identityTaken username nickname u with
    | true => rfl
    | false => exact ih

lemma visit_count (level : UserLevel) (count : ℕ) (us : List UserRecord) :
    visitUsers (countLevelCb level) count us = (.ok, count + us.countP fun u => u.level = level) := by
  induction us generalizing count with
  | nil => rfl
  | cons u us ih =>
    rw [visitUsers, countLevelCb]
    dsimp only
    rw [ih, List.countP_cons]
    by_cases hl : u.level = level
    · simp only [hl, decide_true, if_true]
      congr 1
      omega
    · simp only [hl, decide_false, if_false]
      rfl

lemma Layout.findUser (h : Layout dir uss) (name : Bytes) :
    findUser dir name =
      match uss.flatten.find? fun u => strIeq u.username.text name with
      | some u => .ok u
      | none => .error .errNotFound := by
  rw [Storage.findUser, h.foreach]
  exact visit_find (fun _ _ => rfl) _ _

lemma Layout.resolveUser (h : Layout dir uss) {name : Bytes} (hne : name ≠ []) :
    resolveUser dir name =
      match uss.flatten.find? fun u => strIeq u.username.text ((strlcpy userNameMax name).map lower) with
      | some u => .ok u
      | none =>
        match uss.flatten.find? fun u => u.nickname.text ≠ [] ∧ strIeq u.nickname.text name with
        | some u => .ok u
        | none => .error .errNotFound := by
  rw [Storage.resolveUser, if_neg hne, h.findUser]
  split
  · rename_i hf
    split at hf
    · cases hf
    · rw [h.foreach]
      exact visit_find (fun out u => by simp [findNicknameCb]) _ _
  · rename_i hf
    split
    · rfl
    · rename_i hnone
      rw [hnone] at hf
      exact absurd rfl hf

lemma Layout.countLevel (h : Layout dir uss) (level : UserLevel) :
    countLevel dir level = .ok (uss.flatten.countP fun u => u.level = level) := by
  rw [Storage.countLevel, h.foreach, visit_count]
  dsimp only
  rw [Nat.zero_add]

lemma findUserShardIn_holds {userId : ℕ} {indexes : List ℕ} (h : List.Forall₂ (HoldsUsers dir) indexes uss) :
    (∀ u ∈ uss.flatten, u.id ≠ userId) ∧ findUserShardIn dir userId indexes = .error .errNotFound ∨
      ∃ pre us u vs post, uss = pre ++ (us ++ u :: vs) :: post ∧ u.id = userId ∧
        (∀ v ∈ pre.flatten ++ us, v.id ≠ userId) ∧ ∃ i, indexes[pre.length]? = some i ∧
            findUserShardIn dir userId indexes = .ok (i, us.length) := by
  induction h with
  | nil => exact .inl ⟨by simp, rfl⟩
  | @cons i us indexes uss hload hrest ih =>
    obtain ⟨s, hs, rfl⟩ := hload
    have hfile : (dir.shards i).isNone = false := by
      rw [← Option.not_isSome, HoldsUsers.file ⟨s, hs, rfl⟩]
      rfl
    rw [findUserShardIn, hfile, if_neg (by simp), hs]
    dsimp only
    cases hslot : s.users.findIdx? fun u => u.id = userId with
    | some slot =>
      obtain ⟨hlt, hid, hfirst⟩ := List.findIdx?_eq_some_iff_getElem.mp hslot
      refine .inr ⟨[], s.users.take slot, s.users[slot], s.users.drop (slot + 1), uss, ?_,
        by simpa using hid, ?_, i, rfl, ?_⟩
      · rw [List.cons_getElem_drop_succ, List.take_append_drop]
        rfl
      · intro v hv
        obtain ⟨j, hj, rfl⟩ := List.mem_take_iff_getElem.mp (by simpa using hv)
        simpa using hfirst j (by omega)
      · rw [List.length_take, Nat.min_eq_left (le_of_lt hlt)]
    | none =>
      have hnone : ∀ u ∈ s.users, u.id ≠ userId := by
        intro u hu
        simpa using List.findIdx?_eq_none_iff.mp hslot u hu
      dsimp only
      rcases ih with ⟨hno, herr⟩ | ⟨pre, us, u, vs, post, rfl, hid, hfirst, j, hj, hok⟩
      · refine .inl ⟨?_, herr⟩
        intro u hu
        rcases List.mem_append.mp (List.flatten_cons ▸ hu) with hu | hu
        · exact hnone u hu
        · exact hno u hu
      · refine .inr ⟨s.users :: pre, us, u, vs, post, rfl, hid, ?_, j, by simpa using hj, hok⟩
        intro v hv
        rw [List.flatten_cons, List.append_assoc] at hv
        rcases List.mem_append.mp hv with hv | hv
        · exact hnone v hv
        · exact hfirst v hv

/-- The scan by id finds the shard and the slot of the first user with it, if there is one. -/
lemma Layout.findUserShard (h : Layout dir uss) {userId : ℕ} (hne : userId ≠ 0) :
    (∀ u ∈ uss.flatten, u.id ≠ userId) ∧ findUserShard dir userId = .error .errNotFound ∨
      ∃ pre us u vs post, uss = pre ++ (us ++ u :: vs) :: post ∧ u.id = userId ∧
        (∀ v ∈ pre.flatten ++ us, v.id ≠ userId) ∧ findUserShard dir userId = .ok (pre.length + 1, us.length) := by
  rw [Storage.findUserShard, if_neg hne]
  rcases findUserShardIn_holds h.holds with hno | ⟨pre, us, u, vs, post, heq, hid, hfirst, i, hi, hok⟩
  · exact .inl hno
  · refine .inr ⟨pre, us, u, vs, post, heq, hid, hfirst, ?_⟩
    rw [userShardIndexes, h.last, List.getElem?_range'] at hi
    · obtain rfl := Option.some.inj hi
      rw [hok, Nat.one_mul, Nat.add_comm]
    · rw [heq, List.length_append, List.length_cons]
      omega

end HyBBX.Storage

/-! A shard that is rewritten without failures is loaded as it was meant. -/

namespace HyBBX.Storage

open HyBBX.Core HyBBX.Config Lib Lib.Bytes Lib.Text Lib.Numeral Lib.LineReader

/-- A record whose lines are read back as they are written. -/
structure ReadsBack (u : UserRecord) : Prop where
  id_ne : u.id ≠ 0
  name_ne : u.username.text ≠ []
  oneLine : OneLine u
  safe : ∀ f : UserField, SafeValue (f.value u)

/-- As the store holds a record: the username is in lower case, too. -/
structure Settled (u : UserRecord) : Prop extends ReadsBack u where
  lower : u.normalize = u

def Block.whole (u : UserRecord) : Block := ⟨u, fun _ => true⟩

lemma ReadsBack.read {u : UserRecord} (h : ReadsBack u) : (Block.whole u).read = some u.normalize := by
  apply userOf_values h.id_ne h.name_ne
  intro f
  exact .inl (congrArg some ((readValue_eq_self_iff _).mpr (h.safe f)))

lemma shardPieces_blocks (shardIndex : ℕ) (us : List UserRecord) :
    piecesText (shardPieces shardIndex us) = blocksText true true shardIndex (us.map Block.whole) := by
  have hpieces : us.flatMap userPieces = (us.map Block.whole).flatMap Block.pieces := by
    rw [List.flatMap_map]
    exact congrArg (us.flatMap ·) (funext userPieces_block)
  rw [blocksText, shardPieces, hpieces]
  rfl

lemma apart_whole {us : List UserRecord} (hids : (us.map UserRecord.id).Nodup) : Apart (us.map Block.whole) := by
  rw [Apart, List.pairwise_map]
  exact List.pairwise_map.mp hids

/-- A shard without ids that repeat is loaded block by block. -/
lemma loadUserShard_whole {shardIndex : ℕ} (hi : shardIndex < 2 ^ 64) (s : UserShard)
    (hline : ∀ u ∈ s.users, OneLine u) (hids : (s.users.map UserRecord.id).Nodup) :
    ∃ fits, loadUserShard (piecesText (shardPieces shardIndex s.users)) =
      .ok ⟨s.users.filterMap fun u => (Block.whole u).read, fits⟩ := by
  have hblocks : ∀ b ∈ s.users.map Block.whole, OneLine b.user := by
    intro b hb
    obtain ⟨u, hu, rfl⟩ := List.mem_map.mp hb
    exact hline u hu
  obtain ⟨fits, hload⟩ :=
    loadUserShard_blocks hi (apart_whole hids) hblocks (by rw [List.length_map]; exact s.fits) true true
  have hread : (s.users.map Block.whole).filterMap Block.read = s.users.filterMap fun u => (Block.whole u).read := by
    rw [List.filterMap_map]
    rfl
  rw [shardPieces_blocks, hload]
  exact ⟨hread ▸ fits, by simp only [hread]⟩

lemma filterMap_whole {us : List UserRecord} {g : UserRecord → UserRecord}
    (h : ∀ u ∈ us, (Block.whole u).read = some (g u)) : (us.filterMap fun u => (Block.whole u).read) = us.map g := by
  rw [← List.filterMap_eq_map]
  exact List.filterMap_congr h

lemma loadUserShard_saved {shardIndex : ℕ} (hi : shardIndex < 2 ^ 64) (s : UserShard)
    (h : ∀ u ∈ s.users, ReadsBack u) (hids : (s.users.map UserRecord.id).Nodup) :
    ∃ fits, loadUserShard (piecesText (shardPieces shardIndex s.users)) =
      .ok ⟨s.users.map UserRecord.normalize, fits⟩ := by
  have hread := filterMap_whole fun u hu => (h u hu).read
  obtain ⟨fits, hload⟩ := loadUserShard_whole hi s (fun u hu => (h u hu).oneLine) hids
  rw [hload]
  exact ⟨hread ▸ fits, by simp only [hread]⟩

lemma loadUserShard_settled {shardIndex : ℕ} (hi : shardIndex < 2 ^ 64) (s : UserShard)
    (h : ∀ u ∈ s.users, Settled u) (hids : (s.users.map UserRecord.id).Nodup) :
    loadUserShard (piecesText (shardPieces shardIndex s.users)) = .ok s := by
  obtain ⟨fits, hload⟩ := loadUserShard_saved hi s (fun u hu => (h u hu).toReadsBack) hids
  have hsame : s.users.map UserRecord.normalize = s.users := by
    conv_rhs => rw [← List.map_id s.users]
    exact List.map_congr_left fun u hu => (h u hu).lower
  rw [hload]
  congr 1
  cases s
  simp only [hsame]

lemma arrived_sound (k : ℕ) (pieces : List ShardPiece) : ShardIo.sound.arrived k pieces = pieces := by
  induction pieces generalizing k with
  | nil => rfl
  | cons p pieces ih =>
    have hrest : ShardIo.sound.arrived k (p :: pieces) = p :: ShardIo.sound.arrived (k + 1) pieces := rfl
    rw [hrest, ih]

lemma getElem?_replaced {α : Type} (pre post : List α) (a b : α) {i : ℕ} (h : i ≠ pre.length) :
    (pre ++ a :: post)[i]? = (pre ++ b :: post)[i]? := by
  rcases Nat.lt_or_gt_of_ne h with hlt | hgt
  · rw [List.getElem?_append_left hlt, List.getElem?_append_left hlt]
  · obtain ⟨k, hk⟩ := Nat.exists_eq_add_of_lt hgt
    rw [List.getElem?_append_right (le_of_lt hgt), List.getElem?_append_right (le_of_lt hgt)]
    have hi : i - pre.length = k + 1 := by omega
    rw [hi, List.getElem?_cons_succ, List.getElem?_cons_succ]

variable {dir : UsersDir} {uss : List (List UserRecord)}

/-- The shards in front of and behind one that is written, or about to be opened. -/
def Around (uss pre post : List (List UserRecord)) : Prop := (∃ us, uss = pre ++ us :: post) ∨ uss = pre ∧ post = []

/-- A shard is rewritten, and the new file reads as the users of `t`. -/
lemma Layout.save (h : Layout dir uss) {pre post : List (List UserRecord)} (ha : Around uss pre post)
    (hfew : pre.length + 1 < userShardIndexEnd) {s t : UserShard}
    (hload : loadUserShard (piecesText (shardPieces (pre.length + 1) s.users)) = .ok t) :
    Layout (saveUserShard .sound dir (pre.length + 1) s).2 (pre ++ t.users :: post) := by
  refine ⟨?_, ?_, ?_⟩
  · rcases ha with ⟨us, rfl⟩ | ⟨rfl, rfl⟩
    · simpa using h.few
    · simpa using hfew
  · intro i us hi
    rcases eq_or_ne i pre.length with rfl | hne
    · rw [List.getElem?_append_right (le_refl _), Nat.sub_self, List.getElem?_cons_zero] at hi
      obtain rfl := Option.some.inj hi
      refine ⟨t, ?_, rfl⟩
      have hfile : (saveUserShard .sound dir (pre.length + 1) s).2.shards (pre.length + 1) =
          some (piecesText (ShardIo.sound.arrived 0 (shardPieces (pre.length + 1) s.users))) :=
        Function.update_self _ _ _
      rw [loadShardAt, hfile, arrived_sound]
      exact hload
    · have hold : HoldsUsers dir (i + 1) us := by
        rcases ha with ⟨old, rfl⟩ | ⟨rfl, rfl⟩
        · exact h.file i us (by rw [getElem?_replaced pre post old t.users hne, hi])
        · have hlen := (List.getElem?_eq_some_iff.mp hi).1
          rw [List.length_append, List.length_singleton] at hlen
          rw [List.getElem?_append_left (by omega)] at hi
          exact h.file i us hi
      obtain ⟨q, hq, rfl⟩ := hold
      refine ⟨q, ?_, rfl⟩
      have hkeep : (saveUserShard .sound dir (pre.length + 1) s).2.shards (i + 1) = dir.shards (i + 1) :=
        Function.update_of_ne (by omega) _ _
      rw [loadShardAt, hkeep]
      exact hq
  · intro i hi hend
    have hkeep : (saveUserShard .sound dir (pre.length + 1) s).2.shards i = dir.shards i := by
      apply Function.update_of_ne
      rw [List.length_append, List.length_cons] at hi
      omega
    rw [hkeep]
    refine h.rest i ?_ hend
    rcases ha with ⟨old, rfl⟩ | ⟨rfl, rfl⟩
    · simpa using hi
    · rw [List.length_append, List.length_singleton] at hi
      omega

/-- The last file the scan for shards reaches has room, or is not there yet. -/
def HasRoom (dir : UsersDir) : Prop :=
  ∀ file s, dir.shards (userShardIndexEnd - 1) = some file → loadUserShard file = .ok s → s.users.length < usersPerFile

lemma Layout.appendTarget (h : Layout dir uss) (hroom : HasRoom dir) :
    ∃ pre s, appendTarget dir = .ok (pre.length + 1, s) ∧ s.users.length < usersPerFile ∧
      pre.length + 1 < userShardIndexEnd ∧ (uss = pre ++ [s.users] ∨ uss = pre ∧ s.users = []) := by
  have hfew := h.few
  have hend : userShardIndexEnd = 10000 := rfl
  rw [Storage.appendTarget, h.last]
  rcases List.eq_nil_or_concat uss with rfl | ⟨pre, us, rfl⟩
  · exact ⟨[], .empty, rfl, by decide, by decide, .inr ⟨rfl, rfl⟩⟩
  · rw [List.concat_eq_append] at h hfew ⊢
    have hlast : (pre ++ [us])[pre.length]? = some us := by simp
    obtain ⟨s, hs, rfl⟩ := h.file _ _ hlast
    rw [List.length_append, List.length_singleton] at hfew ⊢
    rw [if_neg (by omega), hs]
    dsimp only
    split_ifs with hfull
    · refine ⟨pre ++ [s.users], .empty, by simp, by decide, ?_, .inr ⟨rfl, rfl⟩⟩
      rw [List.length_append, List.length_singleton]
      -- a full shard is not the last one there can be
      by_contra hmax
      have hidx : userShardIndexEnd - 1 = pre.length + 1 := by omega
      rw [loadShardAt] at hs
      split at hs
      · cases hs
      · rename_i file hf
        have := hroom file s (by rw [hidx, hf]) hs
        omega
    · exact ⟨pre, s, rfl, by omega, hfew, .inl rfl⟩

end HyBBX.Storage
