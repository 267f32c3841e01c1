import HyBBX.Storage.Layout
import HyBBX.Storage.OperationPlan

/-! What a shard file holds after a rewrite of which some lines did not get into the file. -/

namespace HyBBX.Storage

open HyBBX.Core HyBBX.Config Lib Lib.Bytes Lib.Text Lib.Numeral Lib.LineReader

/-- The place of a line among the lines of its user. -/
def UserField.index : UserField → ℕ
  | .id => 0
  | .username => 1
  | .nickname => 2
  | .level => 3
  | .active => 4
  | .created => 5
  | .fullname => 6
  | .country => 7
  | .location => 8
  | .email => 9
  | .password => 10
  | .lastLogin => 11

def linesPerUser : ℕ := 13

namespace Block

/-- The record made of the lines of a block that are there. -/
def record (b : Block) : UserRecord where
  id := b.user.id
  username := if b.keep .username then b.user.username else .empty
  nickname := if b.keep .nickname then b.user.nickname else .empty
  level := if b.keep .level then b.user.level else .user
  active := if b.keep .active then b.user.active else false
  createdAt := if b.keep .created then b.user.createdAt else 0
  fullName := if b.keep .fullname then b.user.fullName else .empty
  country := if b.keep .country then b.user.country else .empty
  location := if b.keep .location then b.user.location else .empty
  email := if b.keep .email then b.user.email else .empty
  password := if b.keep .password then b.user.password else .empty
  lastLoginAt := if b.keep .lastLogin then b.user.lastLoginAt else 0
  idFits := b.user.idFits

lemma value_record {b : Block} (hid : b.keep .id = true) (f : UserField) :
    f.value b.record = if b.keep f then f.value b.user else f.absent := by
  have happly : ∀ {α : Type} (g : α → Bytes) (c : Bool) (x y : α),
      g (if c = true then x else y) = if c = true then g x else g y := fun g c x y => apply_ite g _ x y
  cases f with
  | id => rw [if_pos hid]; rfl
  | username => exact happly CText.text _ _ _
  | nickname => exact happly CText.text _ _ _
  | level => exact happly userLevelName _ _ _
  | active => exact happly boolToString _ _ _
  | created => exact happly (fun t : Int64 => decimalInt t.toInt) _ _ _
  | fullname => exact happly CText.text _ _ _
  | country => exact happly CText.text _ _ _
  | location => exact happly CText.text _ _ _
  | email => exact happly CText.text _ _ _
  | password => exact happly CText.text _ _ _
  | lastLogin => exact happly (fun t : Int64 => decimalInt t.toInt) _ _ _

end Block

lemma decimalInt_time_injective {s t : Int64} (h : decimalInt s.toInt = decimalInt t.toInt) : s = t := by
  rw [← strtol_time s, h, strtol_time]

/-- The lines of a user determine its record. -/
lemma record_of_values {u v : UserRecord} (h : ∀ f : UserField, f.value u = f.value v) : u = v := by
  have hid : u.id = v.id := decimal_injective (h .id)
  have hlevel : u.level = v.level := by
    have hname : userLevelName u.level = userLevelName v.level := h .level
    rw [← userLevelParse_name u.level, hname, userLevelParse_name]
  have hactive : u.active = v.active := by
    have hname : boolToString u.active = boolToString v.active := h .active
    rw [← parseBool_boolToString u.active false, hname, parseBool_boolToString]
  have hcreated : u.createdAt = v.createdAt := decimalInt_time_injective (h .created)
  have hlogin : u.lastLoginAt = v.lastLoginAt := decimalInt_time_injective (h .lastLogin)
  have hname : u.username = v.username := CText.ext (h .username)
  have hnick : u.nickname = v.nickname := CText.ext (h .nickname)
  have hfull : u.fullName = v.fullName := CText.ext (h .fullname)
  have hcountry : u.country = v.country := CText.ext (h .country)
  have hlocation : u.location = v.location := CText.ext (h .location)
  have hemail : u.email = v.email := CText.ext (h .email)
  have hpass : u.password = v.password := CText.ext (h .password)
  cases u
  cases v
  simp_all

/-- A block reads as a user exactly when its id and username are there and each other line is that user's, or is
missing where the user has what a missing line stands for. -/
lemma Block.read_iff {b : Block} (hb : Settled b.user) (u : UserRecord) :
    b.read = some u ↔ b.keep .id = true ∧ b.keep .username = true ∧
      ∀ f : UserField, (if b.keep f then f.value b.user else f.absent) = f.value u := by
  have hvalue : ∀ f : UserField, readValue (f.value b.user) = f.value b.user :=
    fun f => (readValue_eq_self_iff _).mpr (hb.safe f)
  by_cases hid : b.keep .id = true
  · by_cases hname : b.keep .username = true
    · have husername : b.record.username = b.user.username := if_pos hname
      have hlower : b.record.normalize = b.record := by
        have hl : b.user.username.lower = b.user.username := congrArg UserRecord.username hb.lower
        rw [UserRecord.normalize, husername, hl, ← husername]
      have hread : b.read = some b.record := by
        rw [← hlower]
        have hne : b.record.username.text ≠ [] := by
          rw [husername]
          exact hb.name_ne
        apply userOf_values (show b.record.id ≠ 0 from hb.id_ne) hne
        intro f
        rw [Block.value_record hid, hvalue]
        by_cases hk : b.keep f = true
        · rw [if_pos hk, if_pos hk]
          exact .inl rfl
        · rw [if_neg hk, if_neg hk]
          exact .inr ⟨rfl, rfl⟩
      rw [hread, Option.some.injEq]
      constructor
      · rintro rfl
        exact ⟨hid, hname, fun f => (Block.value_record hid f).symm⟩
      · rintro ⟨-, -, hf⟩
        exact record_of_values fun f => (Block.value_record hid f).trans (hf f)
    · refine iff_of_false (fun hr => ?_) fun h => hname h.2.1
      rw [Block.read, userOf] at hr
      simp [hname] at hr
  · refine iff_of_false (fun hr => ?_) fun h => hid h.1
    rw [Block.read, userOf] at hr
    simp [hid] at hr

namespace ShardIo

variable (io : ShardIo)

lemma arrived_append (k : ℕ) (a b : List ShardPiece) :
    io.arrived k (a ++ b) = io.arrived k a ++ io.arrived (k + a.length) b := by
  induction a generalizing k with
  | nil => rfl
  | cons p a ih =>
    rw [List.cons_append, arrived, arrived, ih, List.length_cons, Nat.add_right_comm, Nat.add_assoc]
    split_ifs
    · rfl
    · rfl

lemma arrived_map {g : UserField → ShardPiece} {k : ℕ} (fs : List UserField) {s : ℕ}
    (h : ∀ i f, fs[i]? = some f → f.index = s + i) :
    io.arrived (k + s) (fs.map g) = (fs.filter fun f => io.writeOk (k + f.index)).map g := by
  induction fs generalizing s with
  | nil => rfl
  | cons f fs ih =>
    have hf : f.index = s := h 0 f rfl
    have hrest := @ih (s + 1) fun i f hi => by rw [h (i + 1) f hi]; omega
    rw [List.map_cons, arrived, List.filter_cons, hf, Nat.add_assoc, hrest]
    split_ifs
    · rfl
    · rfl

lemma index_userFields (i : ℕ) (f : UserField) (h : userFields[i]? = some f) : f.index = 0 + i := by
  have hlt := (List.getElem?_eq_some_iff.mp h).1
  have hall : ∀ i : Fin userFields.length, ((userFields.get i).index = 0 + i) := by decide
  rw [List.getElem?_eq_getElem hlt, Option.some.injEq] at h
  rw [← h]
  exact hall ⟨i, hlt⟩

/-- What gets into the file of the lines of a user, the header of which is the `k`-th text. -/
def block (io : ShardIo) (k : ℕ) (u : UserRecord) : Block := ⟨u, fun f => io.writeOk (k + 1 + f.index)⟩

/-- The blocks that get into the file, the first user's lines being written from the `k`-th on. -/
def blocks (io : ShardIo) : ℕ → List UserRecord → List Block
  | _, [] => []
  | k, u :: us => (if io.writeOk k then [io.block k u] else []) ++ io.blocks (k + linesPerUser) us

/-- No line of a user gets into the file without the header in front of it. -/
def Headed (k : ℕ) (count : ℕ) : Prop := ∀ j < count, ∀ f : UserField,
  io.writeOk (k + linesPerUser * j + 1 + f.index) = true → io.writeOk (k + linesPerUser * j) = true

variable {io}

lemma arrived_user {k : ℕ} {u : UserRecord} (h : ∀ f : UserField,
    io.writeOk (k + 1 + f.index) = true → io.writeOk k = true) :
    io.arrived k (userPieces u) = ((if io.writeOk k then [io.block k u] else []).flatMap Block.pieces) := by
  have hfields := @arrived_map io (fun f => .field f.key (f.value u)) (k + 1) userFields 0 index_userFields
  rw [Nat.add_zero] at hfields
  rw [userPieces, arrived, hfields]
  by_cases hk : io.writeOk k = true
  · rw [if_pos hk, if_pos hk]
    simp [Block.pieces, Block.fields, block]
  · have hnone : (userFields.filter fun f => io.writeOk (k + 1 + f.index)) = [] := by
      rw [List.filter_eq_nil_iff]
      exact fun f _ hf => hk (h f hf)
    rw [if_neg hk, if_neg hk, hnone]
    rfl

lemma headed_cons {k count : ℕ} (h : io.Headed k (count + 1)) : io.Headed (k + linesPerUser) count := by
  intro j hj f hf
  have hnext : k + linesPerUser + linesPerUser * j = k + linesPerUser * (j + 1) := by
    rw [Nat.mul_succ]
    omega
  rw [hnext] at hf ⊢
  exact h (j + 1) (by omega) f hf

/-- Without orphaned lines the file is made of blocks. -/
lemma arrived_users {us : List UserRecord} {k : ℕ} (h : io.Headed k us.length) :
    io.arrived k (us.flatMap userPieces) = (io.blocks k us).flatMap Block.pieces := by
  induction us generalizing k with
  | nil => rfl
  | cons u us ih =>
    have hlen : (userPieces u).length = linesPerUser := rfl
    have hfirst : ∀ f : UserField, io.writeOk (k + 1 + f.index) = true → io.writeOk k = true := by
      intro f
      have := h 0 (by simp) f
      rwa [Nat.mul_zero, Nat.add_zero] at this
    rw [List.flatMap_cons, arrived_append, arrived_user hfirst, hlen, ih (headed_cons h), blocks, List.flatMap_append]

lemma mem_blocks {us : List UserRecord} {k : ℕ} {b : Block} :
    b ∈ io.blocks k us ↔ ∃ j v, us[j]? = some v ∧ io.writeOk (k + linesPerUser * j) = true ∧
      b = io.block (k + linesPerUser * j) v := by
  induction us generalizing k with
  | nil => simp [blocks]
  | cons u us ih =>
    have hstep : ∀ j, k + linesPerUser + linesPerUser * j = k + linesPerUser * (j + 1) := by
      intro j
      rw [Nat.mul_succ]
      omega
    rw [blocks, List.mem_append, ih]
    constructor
    · rintro (hb | ⟨j, v, hv, hk, rfl⟩)
      · split_ifs at hb with hk
        · obtain rfl := List.mem_singleton.mp hb
          exact ⟨0, u, rfl, by simpa using hk, by simp⟩
        · cases hb
      · rw [hstep] at hk ⊢
        exact ⟨j + 1, v, hv, hk, rfl⟩
    · rintro ⟨j, v, hv, hk, rfl⟩
      cases j with
      | zero =>
        obtain rfl := Option.some.inj hv
        rw [Nat.mul_zero, Nat.add_zero] at hk ⊢
        exact .inl (by rw [if_pos hk]; simp)
      | succ j =>
        rw [← hstep] at hk ⊢
        exact .inr ⟨j, v, hv, hk, rfl⟩

lemma blocks_users (k : ℕ) (us : List UserRecord) : ((io.blocks k us).map Block.user).Sublist us := by
  induction us generalizing k with
  | nil => exact List.Sublist.refl _
  | cons u us ih =>
    rw [blocks, List.map_append]
    split_ifs
    · exact (ih _).cons_cons u
    · exact (ih _).cons u

/-- The lines that get into the file of a user written from the `k`-th text on, read as a user `u`. -/
structure LinesRead (io : ShardIo) (k : ℕ) (v u : UserRecord) : Prop where
  header : io.writeOk k = true
  id : io.writeOk (k + 1 + UserField.id.index) = true
  username : io.writeOk (k + 1 + UserField.username.index) = true
  fields : ∀ f : UserField, (if io.writeOk (k + 1 + f.index) then f.value v else f.absent) = f.value u

lemma mem_read {us : List UserRecord} {k : ℕ} (hs : ∀ u ∈ us, Settled u) (u : UserRecord) :
    u ∈ (io.blocks k us).filterMap Block.read ↔
      ∃ j v, us[j]? = some v ∧ io.LinesRead (k + linesPerUser * j) v u := by
  rw [List.mem_filterMap]
  constructor
  · rintro ⟨b, hb, hr⟩
    obtain ⟨j, v, hv, hk, rfl⟩ := mem_blocks.mp hb
    obtain ⟨hid, hname, hf⟩ := (Block.read_iff (hs v (List.mem_of_getElem? hv)) u).mp hr
    exact ⟨j, v, hv, hk, hid, hname, hf⟩
  · rintro ⟨j, v, hv, hl⟩
    refine ⟨io.block (k + linesPerUser * j) v, mem_blocks.mpr ⟨j, v, hv, hl.header, rfl⟩, ?_⟩
    exact (Block.read_iff (hs v (List.mem_of_getElem? hv)) u).mpr ⟨hl.id, hl.username, hl.fields⟩

/-- All users are read exactly when of each of them every line that matters is in the file. -/
lemma read_all_iff {us : List UserRecord} {k : ℕ} (hs : ∀ u ∈ us, Settled u) :
    (io.blocks k us).filterMap Block.read = us ↔
      ∀ j v, us[j]? = some v → io.LinesRead (k + linesPerUser * j) v v := by
  induction us generalizing k with
  | nil => simp [blocks]
  | cons u us ih =>
    have hu := hs u List.mem_cons_self
    have hrest := fun v hv => hs v (List.mem_cons_of_mem u hv)
    have hshort : ((io.blocks (k + linesPerUser) us).filterMap Block.read).length ≤ us.length := by
      have := (@blocks_users io (k + linesPerUser) us).length_le
      rw [List.length_map] at this
      exact le_trans (List.length_filterMap_le _ _) this
    have hlong : (io.blocks (k + linesPerUser) us).filterMap Block.read ≠ u :: us := by
      intro h
      rw [h, List.length_cons] at hshort
      omega
    have hstep : ∀ j, k + linesPerUser + linesPerUser * j = k + linesPerUser * (j + 1) := by
      intro j
      rw [Nat.mul_succ]
      omega
    have hsplit : (∀ j v, (u :: us)[j]? = some v → io.LinesRead (k + linesPerUser * j) v v) ↔
        io.LinesRead k u u ∧ ∀ j v, us[j]? = some v → io.LinesRead (k + linesPerUser + linesPerUser * j) v v := by
      constructor
      · intro h
        refine ⟨?_, fun j v hv => ?_⟩
        · have := h 0 u rfl
          rwa [Nat.mul_zero, Nat.add_zero] at this
        · rw [hstep]
          exact h (j + 1) v hv
      · rintro ⟨h0, h⟩ j v hv
        cases j with
        | zero =>
          obtain rfl := Option.some.inj hv
          rwa [Nat.mul_zero, Nat.add_zero]
        | succ j =>
          rw [← hstep]
          exact h j v hv
    rw [hsplit, ← ih hrest, blocks, List.filterMap_append]
    by_cases hk : io.writeOk k = true
    · have hread := Block.read_iff (b := io.block k u) hu u
      rw [if_pos hk, List.filterMap_cons, List.filterMap_nil]
      constructor
      · intro h
        split at h
        · exact absurd h hlong
        · rename_i w hw
          obtain ⟨rfl, htail⟩ := List.cons.inj h
          obtain ⟨hid, hname, hf⟩ := hread.mp hw
          exact ⟨⟨hk, hid, hname, hf⟩, htail⟩
      · rintro ⟨hl, htail⟩
        rw [hread.mpr ⟨hl.id, hl.username, hl.fields⟩, htail]
        rfl
    · rw [if_neg hk, List.filterMap_nil, List.nil_append]
      exact iff_of_false hlong fun h => hk h.1.header

end ShardIo

/-! Which failures of its file operations an operation on the user store survives. -/

/-- A failed operation leaves every record that was there readable; after a successful one the shard reads as
exactly the users it was to hold. -/
def AllOrNothing (io : ShardIo) (backend : HashBackend) (guestPrefix : Bytes) (dir : UsersDir) (op : StoreOp) : Prop :=
  let next := storeStep io backend guestPrefix dir op
  ∀ out ∈ next.2,
    (out.failed = true → ∀ i s, loadShardAt dir i = .ok s →
      ∃ s', loadShardAt next.1 i = .ok s' ∧ ∀ u ∈ s.users, u ∈ s'.users) ∧
    (out.failed = false → (∃ answer, out = .found answer) ∨
      ∃ i new, op.plan backend guestPrefix dir = some (i, new) ∧ loadShardAt next.1 i = .ok new)

/-- The users have ids of their own and lines that read back, and no line of theirs gets into the file without the
header in front of it. -/
structure WellWritten (io : ShardIo) (us : List UserRecord) : Prop where
  ids : (us.map UserRecord.id).Nodup
  settled : ∀ u ∈ us, Settled u
  headed : io.Headed 2 us.length

/-- When the file closes, each line that matters is in it; when it does not, the lines in it still read as every
user that was there. -/
structure LinesSurvive (io : ShardIo) (dir : UsersDir) (shardIndex : ℕ) (us : List UserRecord) : Prop where
  closed : io.closed = true → ∀ j v, us[j]? = some v → io.LinesRead (2 + linesPerUser * j) v v
  unclosed : io.closed = false → ∀ s, loadShardAt dir shardIndex = .ok s → ∀ u ∈ s.users,
    ∃ j v, us[j]? = some v ∧ io.LinesRead (2 + linesPerUser * j) v u

section Save

variable {io : ShardIo} {dir : UsersDir} {shardIndex : ℕ} {shard : UserShard}

lemma save_closed (hopen : io.openOk = true) : (saveUserShard io dir shardIndex shard).1 = .ok ↔ io.closed = true := by
  rw [saveUserShard, if_neg (by simp [hopen])]
  cases hc : io.closed with
  | true => exact iff_of_true rfl rfl
  | false => exact iff_of_false (by simp) (by simp)

lemma save_unopened (hopen : io.openOk = false) : saveUserShard io dir shardIndex shard = (.errIo, dir) := by
  rw [saveUserShard, if_pos hopen]

lemma save_shards (hopen : io.openOk = true) : (saveUserShard io dir shardIndex shard).2.shards =
    Function.update dir.shards shardIndex (some (piecesText (io.arrived 0 (shardPieces shardIndex shard.users)))) := by
  rw [saveUserShard, if_neg (by simp [hopen])]
  dsimp only
  split_ifs
  · rfl
  · rfl

lemma load_other {i : ℕ} (hne : i ≠ shardIndex) :
    loadShardAt (saveUserShard io dir shardIndex shard).2 i = loadShardAt dir i := by
  cases hopen : io.openOk with
  | false => rw [save_unopened hopen]
  | true => rw [loadShardAt, save_shards hopen, Function.update_of_ne hne, loadShardAt]

/-- What is read of a rewritten shard. -/
lemma load_saved (hi : shardIndex < 2 ^ 64) (hopen : io.openOk = true) (hw : WellWritten io shard.users) :
    ∃ s, loadShardAt (saveUserShard io dir shardIndex shard).2 shardIndex = .ok s ∧
      s.users = (io.blocks 2 shard.users).filterMap Block.read := by
  have husers := io.blocks_users 2 shard.users
  have hmem : ∀ b ∈ io.blocks 2 shard.users, b.user ∈ shard.users :=
    fun b hb => husers.subset (List.mem_map_of_mem hb)
  have hlen : (io.blocks 2 shard.users).length ≤ usersPerFile := by
    have := husers.length_le
    rw [List.length_map] at this
    exact le_trans this shard.fits
  have hapart : Apart (io.blocks 2 shard.users) := by
    have hnodup := hw.ids.sublist (husers.map UserRecord.id)
    rw [List.map_map] at hnodup
    exact List.pairwise_map.mp hnodup
  have hfile : piecesText (io.arrived 0 (shardPieces shardIndex shard.users)) =
      blocksText (io.writeOk 0) (io.writeOk 1) shardIndex (io.blocks 2 shard.users) := by
    rw [shardPieces, ShardIo.arrived, ShardIo.arrived, ShardIo.arrived_users hw.headed, blocksText]
    cases io.writeOk 0 <;> cases io.writeOk 1 <;> rfl
  obtain ⟨fits, hload⟩ := loadUserShard_blocks hi hapart (fun b hb => (hw.settled _ (hmem b hb)).oneLine) hlen
    (io.writeOk 0) (io.writeOk 1)
  refine ⟨⟨_, fits⟩, ?_, rfl⟩
  rw [loadShardAt, save_shards hopen, Function.update_self]
  dsimp only
  rw [hfile, hload]

end Save

variable {io : ShardIo} {dir : UsersDir}

section Rewrite

variable {d : UsersDir} {i : ℕ} {new : UserShard} (hi : i < 2 ^ 64) (hd : d.shards = dir.shards)
  (hopen : io.openOk = true) (hw : WellWritten io new.users)

include hi hopen hw

lemma saved_iff : loadShardAt (saveUserShard io d i new).2 i = .ok new ↔
    ∀ j v, new.users[j]? = some v → io.LinesRead (2 + linesPerUser * j) v v := by
  obtain ⟨s, hs, husers⟩ := @load_saved io d i new hi hopen hw
  rw [hs, ← ShardIo.read_all_iff hw.settled, ← husers, Except.ok.injEq]
  constructor
  · rintro rfl
    rfl
  · intro h
    cases s
    cases new
    simp only [UserShard.mk.injEq] at h ⊢
    exact h

include hd

lemma kept_iff : (∀ k s, loadShardAt dir k = .ok s → ∃ s', loadShardAt (saveUserShard io d i new).2 k = .ok s' ∧
      ∀ u ∈ s.users, u ∈ s'.users) ↔
    ∀ s, loadShardAt dir i = .ok s → ∀ u ∈ s.users,
      ∃ j v, new.users[j]? = some v ∧ io.LinesRead (2 + linesPerUser * j) v u := by
  obtain ⟨t, ht, husers⟩ := @load_saved io d i new hi hopen hw
  constructor
  · intro h s hs u hu
    obtain ⟨s', hs', hsub⟩ := h i s hs
    obtain rfl : t = s' := Except.ok.inj (ht.symm.trans hs')
    exact (ShardIo.mem_read hw.settled u).mp (husers ▸ hsub u hu)
  · intro h k s hs
    rcases eq_or_ne k i with rfl | hne
    · exact ⟨t, ht, fun u hu => husers ▸ (ShardIo.mem_read hw.settled u).mpr (h s hs u hu)⟩
    · exact ⟨s, by rw [load_other hne, loadShardAt_congr hd, hs], fun _ hu => hu⟩

end Rewrite

/-- A user, and the directory whose first shard holds that user only. -/
def annasRecord : UserRecord :=
  { UserRecord.zero with
    id := 1
    username := CText.copy (ofString "anna")
    nickname := CText.copy (ofString "annie")
    active := true
    idFits := by decide }

def annasDir : UsersDir :=
  { UsersDir.fresh with shards := Function.update (fun _ => none) 1 (some (piecesText (shardPieces 1 [annasRecord]))) }

def noDigests : HashBackend := ⟨id, id⟩

/-- The disk is full: the file is opened, and so emptied, but no text gets into it. -/
def diskFull : ShardIo := ⟨true, fun _ => false, false, true⟩

end HyBBX.Storage
