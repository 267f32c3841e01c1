import HyBBX.Circuit.LinkIdentity
import HyBBX.Config.Ini
import HyBBX.Lib.Text
import HyBBX.Lib.FileTree

/-! The registry of the links a hub has accepted: one file for each link id, and its section of the configuration. -/

namespace HyBBX.Circuit

open HyBBX.Core Config Lib Lib.Bytes Lib.Text Lib.Numeral Lib.LineReader FileTree

def linkPathMax : ℕ := 512
def linkCodeMax : ℕ := 16

structure LinkRegistry where
  dir : CText linkPathMax
  configPath : CText linkPathMax

/-- The files, the paths given to `fopen` so far and the state of the code generator. -/
structure RegistryState where
  tree : FileTree
  opened : List Bytes
  seed : UInt32

def linkCodeChars : Bytes := ofString "ABCDEFGHJKLMNPQRSTUVWXYZ23456789"

def codeFrom : ℕ → UInt32 → Bytes × UInt32
  | 0, seed => ([], seed)
  | n + 1, seed =>
    let seed := seed * 1103515245 + 12345
    let r := codeFrom n seed
    (linkCodeChars.getD ((seed >>> 16) % 32).toNat 0 :: r.1, r.2)

/-- `none` leaves the buffer as it is. -/
def linkGenerateCode (now : ℤ) (seed : UInt32) (outCap : ℕ) : Option Bytes × UInt32 :=
  if outCap < 2 then (none, seed)
  else
    let seed := if seed = 0 then UInt32.ofNat (now % 2 ^ 32).toNat ^^^ 0x48594242 else seed
    let r := codeFrom (min (outCap - 1) (linkCodeMax - 1)) seed
    (some r.1, r.2)

def shardExt : Bytes := ofString ".ini"

def shardName (reg : LinkRegistry) (id : Bytes) : Bytes := reg.dir.text ++ slash :: (id ++ shardExt)

def linkShardPath (reg : LinkRegistry) (id : Bytes) (outCap : ℕ) : Option Bytes :=
  if id = [] then none
  else if outCap ≤ (shardName reg id).length then none
  else some (shardName reg id)

def linkLineMax : ℕ := 256

/-- The value of a line of the shard that starts with the key. -/
def shardValue (key : String) (piece : Bytes) : Option Bytes :=
  if ofString key <+: cstr piece then some ((cstr piece).drop (ofString key).length) else none

/-- The last code in a shard. -/
def shardCode (file : Bytes) : Bytes :=
  (fgets linkLineMax file).foldl (fun code piece =>
    match shardValue "link_code=" piece with
    | some v => strlcpy linkCodeMax (v.takeWhile fun b => b ≠ cr ∧ b ≠ nl)
    | none => code) []

def shardCreated (now : ℤ) (file : Bytes) : ℤ :=
  (fgets linkLineMax file).foldl (fun created piece =>
    match shardValue "created=" piece with
    | some v => strtol v
    | none => created) now

def shardText (id role code : Bytes) (created now : ℤ) : Bytes :=
  kv "id" id ++ kv "role" (if role ≠ [] then role else linkRoleDefault) ++ kv "link_code" code ++
    kv "created" (decimalInt created) ++ kv "last_seen" (decimalInt now)

/-- What a buffer keeps of one line. -/
def hubText (size : ℕ) [NeZero size] (src : Bytes) : HubText size where
  text := strlcpy size (src.takeWhile fun b => b ≠ 0 ∧ b ≠ nl)
  oneLine h := by simpa using List.mem_takeWhile_imp (List.mem_of_mem_take h)
  string h := by simpa using List.mem_takeWhile_imp (List.mem_of_mem_take h)
  fits := by
    rw [strlcpy, List.length_take]
    have h := NeZero.pos size
    omega

lemma linkAuthParse_strings {payload : Bytes} {auth : LinkAuth} (h : linkAuthParse payload = some auth) :
    (nl ∉ auth.id ∧ 0 ∉ auth.id) ∧ (nl ∉ auth.role ∧ 0 ∉ auth.role) ∧ auth.role.length < linkRoleMax := by
  simp only [linkAuthParse, Option.bind_eq_bind, Option.bind_eq_some_iff, Option.some.injEq] at h
  obtain ⟨_, _, id, hid, rfl⟩ := h
  have hrole : nl ∉ (findKvLine payload (ofString "role") linkAuthScratch).getD linkRoleDefault ∧
      0 ∉ (findKvLine payload (ofString "role") linkAuthScratch).getD linkRoleDefault := by
    cases hr : findKvLine payload (ofString "role") linkAuthScratch with
    | none => exact ⟨by decide, by decide⟩
    | some role => exact findKvLine_string hr
  refine ⟨(findKvLine_string hid).imp ?_ ?_, hrole.imp ?_ ?_, ?_⟩
  · exact fun h hm => h (List.mem_of_mem_take hm)
  · exact fun h hm => h (List.mem_of_mem_take hm)
  · exact fun h hm => h (List.mem_of_mem_take hm)
  · exact fun h hm => h (List.mem_of_mem_take hm)
  · dsimp only
    rw [strlcpy, List.length_take]
    exact lt_of_le_of_lt (min_le_left _ _) (by decide)

section Touch

variable (io : FileIo) (cwd : Names)

def fopenRead (st : RegistryState) (path : Bytes) : Option Bytes × RegistryState :=
  (readAt io cwd st.tree path, { st with opened := st.opened ++ [path] })

def fopenWrite (st : RegistryState) (path text : Bytes) : Bool × RegistryState :=
  match writeAt io cwd st.tree path text with
  | none => (false, { st with opened := st.opened ++ [path] })
  | some tree => (true, { st with tree := tree, opened := st.opened ++ [path] })

def linkMkdirP (tree : FileTree) (path : Bytes) : FileTree :=
  if path = [] ∨ linkPathMax ≤ path.length then tree else mkdirAllAt io cwd tree (dirsTo path)

variable (now : ℤ)

/-- The time of creation and the code that are in an old shard. -/
def oldShard (st : RegistryState) (path : Bytes) (isNew : Bool) : ℤ × Bytes × RegistryState :=
  if isNew then (now, [], st)
  else match fopenRead io cwd st path with
    | (none, st) => (now, [], st)
    | (some file, st) => (shardCreated now file, shardCode file, st)

def writeLinkShard (st : RegistryState) (path id role linkCode : Bytes) (isNew : Bool) : HybbxResult × RegistryState :=
  let (created, existing, st) := oldShard io cwd now st path isNew
  let (code, seed) :=
    if linkCode ≠ [] then (strlcpy linkCodeMax linkCode, st.seed)
    else if existing = [] then
      let r := linkGenerateCode now st.seed linkCodeMax
      (r.1.getD existing, r.2)
    else (existing, st.seed)
  match fopenWrite io cwd { st with seed := seed } path (shardText id role code created now) with
  | (false, st) => (.errIo, st)
  | (true, st) => (.ok, st)

def linkValues (role code : Bytes) : LinkValues
  | .role => hubText 64 role
  | .linkCode => hubText 64 code
  | .lastSeen => hubText 64 (decimalInt now)

def configUpsert (configPath : Bytes) (id : HubText linkIdMax) (role code : Bytes) (st : RegistryState) :
    HybbxResult × RegistryState :=
  if configPath = [] then (.ok, st)
  else match fopenRead io cwd st configPath with
    | (none, st) => (.errIo, st)
    | (some file, st) =>
      match (configLoad file).bind fun config => configUpsertLinkSection config id (linkValues now role code) with
      | .error rc => (rc, st)
      | .ok config => match fopenWrite io cwd st configPath (configSave config) with
        | (false, st) => (.errIo, st)
        | (true, st) => (.ok, st)

/-- The code that a link already has. -/
def knownCode (st : RegistryState) (path : Bytes) (isNew : Bool) : Bytes × RegistryState :=
  if isNew then ([], st)
  else match fopenRead io cwd st path with
    | (none, st) => ([], st)
    | (some file, st) => (shardCode file, st)

def touchCode (st : RegistryState) (path : Bytes) (isNew : Bool) : Bytes × RegistryState :=
  let known := knownCode io cwd st path isNew
  if known.1 ≠ [] then known
  else
    let r := linkGenerateCode now known.2.seed linkCodeMax
    (r.1.getD known.1, { known.2 with seed := r.2 })

structure TouchResult where
  result : HybbxResult
  linkCode : Option Bytes
  state : RegistryState

def linkRegistryTouch (reg : LinkRegistry) (id : HubText linkIdMax) (role : HubText linkRoleMax) (st : RegistryState) :
    TouchResult :=
  if id.text = [] then ⟨.errInvalid, none, st⟩
  else
    let st := { st with tree := linkMkdirP io cwd st.tree reg.dir.text }
    match linkShardPath reg id.text linkPathMax with
    | none => ⟨.errInvalid, none, st⟩
    | some path =>
      let isNew := (st.tree (place cwd path)).isNone
      let (code, st) := touchCode io cwd now st path isNew
      match writeLinkShard io cwd now st path id.text role.text code isNew with
      | (.ok, st) =>
        let r := configUpsert io cwd now reg.configPath.text id role.text code st
        ⟨r.1, some code, r.2⟩
      | (rc, st) => ⟨rc, none, st⟩

end Touch

/-- The id and the role that a payload yields are strings in their buffers. -/
def parsedId {payload : Bytes} {auth : LinkAuth} (h : linkAuthParse payload = some auth) : HubText linkIdMax where
  text := auth.id
  oneLine := (linkAuthParse_strings h).1.1
  string := (linkAuthParse_strings h).1.2
  fits := linkAuthParse_id h

def parsedRole {payload : Bytes} {auth : LinkAuth} (h : linkAuthParse payload = some auth) : HubText linkRoleMax where
  text := auth.role
  oneLine := (linkAuthParse_strings h).2.1.1
  string := (linkAuthParse_strings h).2.1.2
  fits := (linkAuthParse_strings h).2.2

/-- What the calls on the way from one state to another can have changed, and that opened paths are kept. -/
structure Goes (P : Bytes → Prop) (before after : RegistryState) : Prop where
  grows : Grows P before.tree after.tree
  opened : before.opened.length ≤ after.opened.length

section Goes

variable {P : Bytes → Prop} {a b c : RegistryState}

lemma Goes.refl (P : Bytes → Prop) (a : RegistryState) : Goes P a a := ⟨Grows.refl P a.tree, le_refl _⟩

lemma Goes.reseed (h : Goes P a b) (seed : UInt32) : Goes P a { b with seed := seed } := ⟨h.grows, h.opened⟩

lemma Goes.trans (hab : Goes P a b) (hbc : Goes P b c) : Goes P a c :=
  ⟨hab.grows.trans hbc.grows, hab.opened.trans hbc.opened⟩

variable (io : FileIo) (cwd : Names) (now : ℤ) (st : RegistryState)

lemma fopenRead_goes (P : Bytes → Prop) (path : Bytes) : Goes P st (fopenRead io cwd st path).2 :=
  ⟨Grows.refl P st.tree, by simp [fopenRead]⟩

lemma fopenWrite_opened (path text : Bytes) :
    (fopenWrite io cwd st path text).2.opened.length = st.opened.length + 1 := by
  rw [fopenWrite]
  cases writeAt io cwd st.tree path text <;> simp

lemma fopenWrite_goes {path : Bytes} (hP : P (place cwd path)) (text : Bytes) :
    Goes P st (fopenWrite io cwd st path text).2 := by
  refine ⟨?_, by rw [fopenWrite_opened]; omega⟩
  rw [fopenWrite]
  cases hw : writeAt io cwd st.tree path text with
  | none => exact Grows.refl P st.tree
  | some tree => exact (writeAt_grows hw).mono fun name hname => hname ▸ hP

lemma oldShard_goes (P : Bytes → Prop) (path : Bytes) (isNew : Bool) :
    Goes P st (oldShard io cwd now st path isNew).2.2 := by
  have hread := fopenRead_goes io cwd st P path
  rw [oldShard]
  split_ifs
  · exact Goes.refl P st
  · cases hr : fopenRead io cwd st path with
    | mk file st' =>
      rw [hr] at hread
      cases file <;> exact hread

lemma knownCode_goes (P : Bytes → Prop) (path : Bytes) (isNew : Bool) :
    Goes P st (knownCode io cwd st path isNew).2 := by
  have hread := fopenRead_goes io cwd st P path
  rw [knownCode]
  split_ifs
  · exact Goes.refl P st
  · cases hr : fopenRead io cwd st path with
    | mk file st' =>
      rw [hr] at hread
      cases file <;> exact hread

lemma touchCode_goes (P : Bytes → Prop) (path : Bytes) (isNew : Bool) :
    Goes P st (touchCode io cwd now st path isNew).2 := by
  have hknown := knownCode_goes io cwd st P path isNew
  rw [touchCode]
  dsimp only
  split_ifs
  · exact hknown
  · exact hknown.reseed _

/-- A shard is always opened for writing. -/
lemma writeLinkShard_goes {path : Bytes} (hP : P (place cwd path)) (id role linkCode : Bytes) (isNew : Bool) :
    Goes P st (writeLinkShard io cwd now st path id role linkCode isNew).2 ∧
      st.opened.length < (writeLinkShard io cwd now st path id role linkCode isNew).2.opened.length := by
  have hold := oldShard_goes io cwd now st P path isNew
  rw [writeLinkShard]
  generalize oldShard io cwd now st path isNew = old at hold ⊢
  obtain ⟨created, existing, st'⟩ := old
  dsimp only at hold ⊢
  generalize (if linkCode ≠ [] then (strlcpy linkCodeMax linkCode, st'.seed)
    else if existing = [] then
      ((linkGenerateCode now st'.seed linkCodeMax).1.getD existing, (linkGenerateCode now st'.seed linkCodeMax).2)
    else (existing, st'.seed)) = r
  obtain ⟨code, seed⟩ := r
  dsimp only
  have hseed := hold.reseed seed
  have hwrite := fopenWrite_goes io cwd { st' with seed := seed } hP (shardText id role code created now)
  have hopened := fopenWrite_opened io cwd { st' with seed := seed } path (shardText id role code created now)
  cases hw : fopenWrite io cwd { st' with seed := seed } path (shardText id role code created now) with
  | mk granted st'' =>
    rw [hw] at hwrite hopened
    have hlt : st.opened.length < st''.opened.length := by
      have hle := hold.opened
      dsimp only at hopened
      omega
    cases granted <;> exact ⟨hseed.trans hwrite, hlt⟩

lemma configUpsert_goes {configPath : Bytes} (hP : P (place cwd configPath)) (id : HubText linkIdMax)
    (role code : Bytes) :
    Goes P st (configUpsert io cwd now configPath id role code st).2 := by
  have hread := fopenRead_goes io cwd st P configPath
  rw [configUpsert]
  split_ifs
  · exact Goes.refl P st
  · cases hr : fopenRead io cwd st configPath with
    | mk file st' =>
      rw [hr] at hread
      cases file with
      | none => exact hread
      | some file =>
        dsimp only
        cases (configLoad file).bind fun config => configUpsertLinkSection config id (linkValues now role code) with
        | error rc => exact hread
        | ok config =>
          have hwrite := fopenWrite_goes io cwd st' hP (configSave config)
          dsimp only
          cases hw : fopenWrite io cwd st' configPath (configSave config) with
          | mk granted st'' =>
            rw [hw] at hwrite
            cases granted <;> exact hread.trans hwrite

end Goes

/-- The names of the file that a link has in the registry. -/
def childNames (cwd : Names) (reg : LinkRegistry) (id : Bytes) : Names :=
  (id ++ shardExt) :: resolve cwd (reg.dir.text ++ [slash])

def NamesChild (cwd : Names) (reg : LinkRegistry) (id : Bytes) : Prop :=
  resolve cwd (shardName reg id) = childNames cwd reg id

/-- A touch stays in the registry: files change under the name of the link there and in the configured INI only, and an
id that names anything else is rejected before a file is opened. -/
structure InRegistry (cwd : Names) (reg : LinkRegistry) (id : Bytes) (before : RegistryState) (r : TouchResult) :
    Prop where
  files : Grows (fun name => name = absolute (childNames cwd reg id) ∨ name = place cwd reg.configPath.text)
    before.tree r.state.tree
  rejected : ¬NamesChild cwd reg id → r.result = .errInvalid ∧ r.state.opened = before.opened

section Contained

variable (cwd : Names) (reg : LinkRegistry)

lemma shardExt_name {name : Bytes} : name ++ shardExt ≠ [] ∧ name ++ shardExt ≠ dot ∧ name ++ shardExt ≠ dotdot := by
  have hlen : 4 ≤ (name ++ shardExt).length := by
    rw [List.length_append]
    exact Nat.le_add_left 4 _
  refine ⟨?_, ?_, ?_⟩ <;> intro h <;> rw [h] at hlen <;> revert hlen <;> decide

/-- The path is that of a file in the directory exactly if the id is a name. -/
lemma namesChild_iff (id : Bytes) : NamesChild cwd reg id ↔ slash ∉ id := by
  have hext : slash ∉ shardExt := by decide
  constructor
  · intro h hs
    -- the last name of the path is what follows the last slash of the id
    obtain ⟨last, first, hrev, hlast⟩ := List.eq_append_cons_of_mem (List.mem_reverse.mpr hs)
    have hid : id = first.reverse ++ slash :: last.reverse := by
      rw [← List.reverse_reverse id, hrev]
      simp
    have hlast' : slash ∉ last.reverse := fun hm => hlast (List.mem_reverse.mp hm)
    obtain ⟨hname, hdot, hdots⟩ := @shardExt_name last.reverse
    have hslash : slash ∉ last.reverse ++ shardExt := by
      rw [List.mem_append]
      exact not_or.mpr ⟨hlast', hext⟩
    have hpath : shardName reg id = (reg.dir.text ++ slash :: first.reverse) ++
        slash :: (last.reverse ++ shardExt) := by
      rw [shardName, hid]
      simp
    rw [NamesChild, hpath, resolve_child cwd _ hslash hname hdot hdots, childNames] at h
    have hsame := List.append_cancel_right (List.cons.inj h).1
    rw [hsame] at hlast'
    exact hlast' hs
  · intro hs
    obtain ⟨hname, hdot, hdots⟩ := @shardExt_name id
    have hslash : slash ∉ id ++ shardExt := by
      rw [List.mem_append]
      exact not_or.mpr ⟨hs, hext⟩
    exact resolve_child cwd reg.dir.text hslash hname hdot hdots

variable (io : FileIo) (now : ℤ) (id : HubText linkIdMax) (role : HubText linkRoleMax) (st : RegistryState)

lemma linkMkdirP_grows (P : Bytes → Prop) (tree : FileTree) (path : Bytes) :
    Grows P tree (linkMkdirP io cwd tree path) := by
  rw [linkMkdirP]
  split_ifs
  · exact Grows.refl P tree
  · exact mkdirAllAt_grows io cwd P _ tree

/-- Without a path for the shard the registry makes its directory at most. -/
lemma touch_refused (P : Bytes → Prop) (h : linkShardPath reg id.text linkPathMax = none) :
    Grows P st.tree (linkRegistryTouch io cwd now reg id role st).state.tree ∧
      (linkRegistryTouch io cwd now reg id role st).result = .errInvalid ∧
      (linkRegistryTouch io cwd now reg id role st).state.opened = st.opened := by
  rw [linkRegistryTouch]
  split_ifs
  · exact ⟨Grows.refl P st.tree, rfl, rfl⟩
  · rw [h]
    exact ⟨linkMkdirP_grows cwd io P st.tree reg.dir.text, rfl, rfl⟩

/-- With a path the shard is opened for writing, whatever the path leads to. -/
lemma touch_written {path : Bytes} (P : Bytes → Prop) (h : linkShardPath reg id.text linkPathMax = some path)
    (hpath : P (place cwd path)) (hini : P (place cwd reg.configPath.text)) :
    Grows P st.tree (linkRegistryTouch io cwd now reg id role st).state.tree ∧
      st.opened.length < (linkRegistryTouch io cwd now reg id role st).state.opened.length := by
  have hid : id.text ≠ [] := by
    intro h0
    rw [linkShardPath, if_pos h0] at h
    cases h
  have hdir : Goes P st { st with tree := linkMkdirP io cwd st.tree reg.dir.text } :=
    ⟨linkMkdirP_grows cwd io P st.tree reg.dir.text, le_refl _⟩
  rw [linkRegistryTouch, if_neg hid]
  dsimp only
  rw [h]
  dsimp only
  generalize { st with tree := linkMkdirP io cwd st.tree reg.dir.text : RegistryState } = st₁ at hdir
  generalize (linkMkdirP io cwd st.tree reg.dir.text (place cwd path)).isNone = isNew
  have hcode := touchCode_goes io cwd now st₁ P path isNew
  generalize touchCode io cwd now st₁ path isNew = r at hcode ⊢
  obtain ⟨code, st₂⟩ := r
  dsimp only at hcode ⊢
  obtain ⟨hshard, hopened⟩ := writeLinkShard_goes io cwd now st₂ hpath id.text role.text code isNew
  generalize writeLinkShard io cwd now st₂ path id.text role.text code isNew = r at hshard hopened ⊢
  obtain ⟨rc, st₃⟩ := r
  have hupsert := configUpsert_goes io cwd now st₃ hini id role.text code
  have hall := (hdir.trans hcode).trans hshard
  have hlt := lt_of_le_of_lt (hdir.trans hcode).opened hopened
  cases rc with
  | ok => exact ⟨(hall.trans hupsert).grows, lt_of_lt_of_le hlt hupsert.opened⟩
  | _ => exact ⟨hall.grows, hlt⟩

/-- A touch stays in the registry exactly if the id is a name or its path is too long for the buffer. -/
lemma touch_inRegistry_iff :
    InRegistry cwd reg id.text st (linkRegistryTouch io cwd now reg id role st) ↔
      slash ∉ id.text ∨ linkPathMax ≤ (shardName reg id.text).length := by
  have hini : ∀ child, place cwd reg.configPath.text = child ∨
    place cwd reg.configPath.text = place cwd reg.configPath.text :=
    fun child => .inr rfl
  cases hp : linkShardPath reg id.text linkPathMax with
  | none =>
    obtain ⟨hgrows, hrc, hopened⟩ := touch_refused cwd reg io now id role st _ hp
    refine iff_of_true ⟨hgrows, fun _ => ⟨hrc, hopened⟩⟩ ?_
    rw [linkShardPath] at hp
    split_ifs at hp with hempty hlong
    · exact .inl (by rw [hempty]; simp)
    · exact .inr hlong
  | some path =>
    have hfits : ¬linkPathMax ≤ (shardName reg id.text).length ∧ path = shardName reg id.text := by
      rw [linkShardPath] at hp
      split_ifs at hp with hempty hlong
      exact ⟨hlong, (Option.some.inj hp).symm⟩
    rw [or_iff_left hfits.1, ← namesChild_iff cwd reg]
    constructor
    · intro h
      by_contra hno
      have hwritten := touch_written cwd reg io now id role st (fun _ => True) hp trivial trivial
      rw [(h.rejected hno).2] at hwritten
      exact lt_irrefl _ hwritten.2
    · intro h
      refine ⟨(touch_written cwd reg io now id role st _ hp (.inl ?_) (hini _)).1, absurd h⟩
      rw [place, hfits.2, h]

end Contained

section AuthFrame

variable (io : FileIo) (cwd : Names) (now : ℤ) (reg : LinkRegistry) (hub : LinkHub) (slots : IdentitySlots)
  (slot : Fin circuitMaxLinks) (callidAccepted : Bytes → Bool) (payload : Bytes) (st : RegistryState)

/-- What the hub accepts of a LINK_AUTH frame. -/
def acceptedAuth : Option LinkAuth :=
  (linkAuthParse payload).filter fun auth =>
    callidAccepted auth.id && (circuitValidateLinkAuth hub slots slot auth).2.isNone

/-- The frame up to the registry; `none` is a frame that is refused. -/
def circuitOnAuthFrame : Option TouchResult :=
  match h : linkAuthParse payload with
  | none => none
  | some auth =>
    if callidAccepted auth.id && (circuitValidateLinkAuth hub slots slot auth).2.isNone then
      some (linkRegistryTouch io cwd now reg (parsedId h) (parsedRole h) st)
    else none

lemma onAuthFrame_eq {auth : LinkAuth} (h : linkAuthParse payload = some auth) :
    circuitOnAuthFrame io cwd now reg hub slots slot callidAccepted payload st =
      if callidAccepted auth.id && (circuitValidateLinkAuth hub slots slot auth).2.isNone then
        some (linkRegistryTouch io cwd now reg (parsedId h) (parsedRole h) st)
      else none := by
  rw [circuitOnAuthFrame]
  split
  · rename_i hnone
    rw [h] at hnone
    cases hnone
  · rename_i auth' h'
    obtain rfl := Option.some.inj (h.symm.trans h')
    rfl

/-- What an accepted frame does stays in the registry; a refused one does nothing. -/
def FrameInRegistry : Prop :=
  ∀ r, circuitOnAuthFrame io cwd now reg hub slots slot callidAccepted payload st = some r →
    ∀ auth, linkAuthParse payload = some auth → InRegistry cwd reg auth.id st r

/-- A frame stays in the registry exactly if the id it is accepted for is a name or too long for a path. -/
theorem frameInRegistry_iff :
    FrameInRegistry io cwd now reg hub slots slot callidAccepted payload st ↔
      ∀ auth, acceptedAuth hub slots slot callidAccepted payload = some auth →
        slash ∉ auth.id ∨ linkPathMax ≤ (shardName reg auth.id).length := by
  rw [FrameInRegistry, acceptedAuth]
  cases hp : linkAuthParse payload with
  | none => exact iff_of_true (fun _ _ _ h => nomatch h) (fun _ h => nomatch h)
  | some auth =>
    rw [onAuthFrame_eq io cwd now reg hub slots slot callidAccepted payload st hp, Option.filter_some]
    have htouch := touch_inRegistry_iff cwd reg io now (parsedId hp) (parsedRole hp) st
    split_ifs
    · constructor
      · intro h auth' hauth
        obtain rfl := Option.some.inj hauth
        exact htouch.mp (h _ rfl auth rfl)
      · intro h r hr auth' hauth
        obtain rfl := Option.some.inj hr
        obtain rfl := Option.some.inj hauth
        exact htouch.mpr (h auth rfl)
    · exact iff_of_true (fun _ h => nomatch h) (fun _ h => nomatch h)

end AuthFrame

def grantingIo : FileIo := ⟨fun _ _ => true, fun _ _ => true, fun _ _ => true⟩

lemma noConfig_string : (0 : UInt8) ∉ ([] : Bytes) := List.not_mem_nil

def linksRegistry : LinkRegistry where
  dir := ⟨ofString "/data/links", by decide +kernel, by decide +kernel⟩
  configPath := ⟨[], noConfig_string, by decide⟩

/-- Before the first link: the data directory is there. -/
def noLinks : RegistryState := ⟨fun name => if name = ofString "/data" then some .dir else none, [], 1⟩

def parentPayload : Bytes := ofString "password=secret\nid=../motd\n"

def parentFrame : Option TouchResult :=
  circuitOnAuthFrame grantingIo [] 0 linksRegistry openHub freeSlots ⟨0, by decide⟩ (fun _ => true) parentPayload noLinks

def textOf : Option Node → Option Bytes
  | some (.file text) => some text
  | _ => none

/-- A link may be called `../motd`; its file lies beside the registry. -/
theorem parent_link_id :
    (parentFrame.map fun r => (r.result, r.state.opened)) = some (.ok, [ofString "/data/links/../motd.ini"]) ∧
      (parentFrame.map fun r => (textOf (r.state.tree (ofString "/data/motd.ini"))).isSome) = some true ∧
      ¬FrameInRegistry grantingIo [] 0 linksRegistry openHub freeSlots ⟨0, by decide⟩ (fun _ => true) parentPayload
        noLinks := by
  have hfile : (parentFrame.map fun r => (textOf (r.state.tree (ofString "/data/motd.ini"))).isSome) = some true := by
    decide +kernel
  refine ⟨by decide +kernel, hfile, fun h => ?_⟩
  obtain ⟨r, hr, htext⟩ := Option.map_eq_some_iff.mp hfile
  obtain ⟨auth, hauth, hid⟩ : ∃ auth, linkAuthParse parentPayload = some auth ∧ auth.id = ofString "../motd" :=
    Option.map_eq_some_iff.mp (by decide +kernel)
  have hnew : r.state.tree (ofString "/data/motd.ini") ≠ noLinks.tree (ofString "/data/motd.ini") := by
    intro hsame
    rw [hsame] at htext
    revert htext
    decide +kernel
  rcases (h r hr auth hauth).files _ hnew with hname | ⟨-, hdir⟩
  · rw [hid] at hname
    revert hname
    decide +kernel
  · rw [hdir] at htext
    cases htext

end HyBBX.Circuit
