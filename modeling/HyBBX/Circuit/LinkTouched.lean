import HyBBX.Circuit.LinkPrune

/-! What a touch leaves of a link: its shard and its section of the configured INI, and everything else as it was. -/

namespace HyBBX.Circuit

open HyBBX.Core Config Lib Lib.Bytes Lib.Text Lib.Numeral Lib.LineReader FileTree

section Granted

variable (cwd : Names)

/-- The file that a path leads to. -/
def fileAt (tree : FileTree) (path : Bytes) : Option Bytes := textOf (tree (place cwd path))

variable {cwd} {tree : FileTree} {st : RegistryState} {path : Bytes}

lemma textOf_eq_some {node : Option Node} {text : Bytes} (h : textOf node = some text) : node = some (.file text) := by
  cases node with
  | none => cases h
  | some node =>
    cases node with
    | dir => cases h
    | file text' =>
      obtain rfl := Option.some.inj h
      rfl

lemma fopenRead_granting : fopenRead grantingIo cwd st path = (fileAt cwd st.tree path,
    { st with opened := st.opened ++ [path] }) := by
  rw [fopenRead, readAt, fileAt]
  cases st.tree (place cwd path) with
  | none => rfl
  | some node => cases node <;> rfl

lemma fopenWrite_granting (h : tree (place cwd path) ≠ some .dir) (opened : List Bytes) (seed : UInt32) (text : Bytes) :
    fopenWrite grantingIo cwd ⟨tree, opened, seed⟩ path text =
      (true, ⟨Function.update tree (place cwd path) (some (.file text)), opened ++ [path], seed⟩) := by
  have hwrite : writeAt grantingIo cwd tree path text =
      some (Function.update tree (place cwd path) (some (.file text))) := by
    rw [writeAt, if_pos ⟨h, rfl⟩]
  rw [fopenWrite]
  dsimp only
  rw [hwrite]

lemma grows_fileAt {before after : FileTree} (h : Grows (fun _ => False) before after) (path : Bytes) :
    fileAt cwd after path = fileAt cwd before path := by
  by_cases hsame : after (place cwd path) = before (place cwd path)
  · rw [fileAt, hsame, fileAt]
  · rcases h _ hsame with hno | ⟨hnone, hdir⟩
    · exact hno.elim
    · rw [fileAt, hdir, fileAt, hnone]
      rfl

end Granted

section Ini

variable (cwd : Names) (reg : LinkRegistry)

/-- The configured INI as the loader reads it. -/
def iniConfig (tree : FileTree) : Option HybbxConfig :=
  if reg.configPath.text = [] then none
  else (fileAt cwd tree reg.configPath.text).bind fun file => (configLoad file).toOption

def iniGet (tree : FileTree) (s k : Bytes) : Option Bytes :=
  (iniConfig cwd reg tree).bind fun config => configGet config s k

def IniLoads (tree : FileTree) : Prop := reg.configPath.text ≠ [] → (iniConfig cwd reg tree).isSome

/-- Every value of the INI survives being written and loaded again. -/
def Rereads (tree : FileTree) : Prop := ∀ s k v, iniGet cwd reg tree s k = some v → SafeValue v

/-- Nothing but one section of the INI changes. -/
structure SectionChanged (s : Bytes) (before after : FileTree) : Prop where
  files : ∀ p, (reg.configPath.text ≠ [] → p ≠ place cwd reg.configPath.text) → after p = before p
  loads : IniLoads cwd reg after
  sections : ∀ s' k, s' ≠ s → iniGet cwd reg after s' k = iniGet cwd reg before s' k

variable {cwd reg} {tree : FileTree} {config : HybbxConfig}

lemma iniConfig_some (h : iniConfig cwd reg tree = some config) :
    reg.configPath.text ≠ [] ∧ ∃ file, tree (place cwd reg.configPath.text) = some (.file file) ∧
      configLoad file = .ok config := by
  rw [iniConfig] at h
  split_ifs at h with hpath
  obtain ⟨file, hfile, hload⟩ := Option.bind_eq_some_iff.mp h
  refine ⟨hpath, file, textOf_eq_some hfile, ?_⟩
  cases hl : configLoad file with
  | error rc =>
    rw [hl] at hload
    cases hload
  | ok config' =>
    rw [hl] at hload
    rw [Option.some.inj hload]

lemma iniGet_of_config (h : iniConfig cwd reg tree = some config) (s k : Bytes) :
    iniGet cwd reg tree s k = configGet config s k := by
  rw [iniGet, h, Option.bind_some]

/-- A configuration that is written to the INI is what is read from it. -/
lemma iniGet_written (h : iniConfig cwd reg tree = some config) {config' : HybbxConfig}
    (hentries : ∀ e ∈ config', EntryOk e ∧ SafeSection e.sectionName)
    (hvalues : ∀ s k v, configGet config' s k = some v → SafeValue v) :
    IniLoads cwd reg (Function.update tree (place cwd reg.configPath.text) (some (.file (configSave config')))) ∧
      ∀ s k, iniGet cwd reg (Function.update tree (place cwd reg.configPath.text) (some (.file (configSave config')))) s k =
        configGet config' s k := by
  obtain ⟨again, hload, hget⟩ := load_save_get hentries hvalues
  have hagain : iniConfig cwd reg (Function.update tree (place cwd reg.configPath.text)
      (some (.file (configSave config')))) = some again := by
    rw [iniConfig, if_neg (iniConfig_some h).1, fileAt, Function.update_self, textOf, Option.bind_some, hload]
    rfl
  refine ⟨fun _ => by rw [hagain]; rfl, fun s k => ?_⟩
  rw [iniGet_of_config hagain, hget]

lemma IniLoads.same {before after : FileTree} (h : IniLoads cwd reg before)
    (hsame : iniConfig cwd reg after = iniConfig cwd reg before) : IniLoads cwd reg after := by
  rw [IniLoads, hsame]
  exact h

lemma SectionChanged.refl (h : reg.configPath.text = []) (s : Bytes) (tree : FileTree) :
    SectionChanged cwd reg s tree tree :=
  ⟨fun _ _ => rfl, fun hpath => absurd h hpath, fun _ _ _ => rfl⟩

end Ini

lemma hubText_text {size : ℕ} [NeZero size] {src : Bytes} (hn : nl ∉ src) (h0 : 0 ∉ src) (hl : src.length < size) :
    (hubText size src).text = src := by
  have hall : ∀ b ∈ src, decide (b ≠ 0 ∧ b ≠ nl) = true := by
    intro b hb
    rw [decide_eq_true_eq]
    exact ⟨fun h => h0 (h ▸ hb), fun h => hn (h ▸ hb)⟩
  have htext : (hubText size src).text = strlcpy size (src.takeWhile fun b => b ≠ 0 ∧ b ≠ nl) := rfl
  rw [htext, List.takeWhile_eq_self_iff.mpr hall, strlcpy_of_fits hl]

def LinkEntry.value (entry : LinkEntry) : LinkKey → Bytes
  | .role => entry.role.text
  | .linkCode => entry.code.text
  | .lastSeen => decimalInt entry.lastSeen.secs

lemma linkValues_text (entry : LinkEntry) (key : LinkKey) :
    (linkValues entry.lastSeen.secs entry.role.text entry.code.text key).text = entry.value key := by
  obtain ⟨hn, h0, hl⟩ := entry.lastSeen.decimal_string
  cases key with
  | role => exact hubText_text entry.role.oneLine entry.role.string (lt_trans entry.role.fits (by decide))
  | linkCode => exact hubText_text entry.code.oneLine entry.code.string (lt_trans entry.code.fits (by decide))
  | lastSeen => exact hubText_text hn h0 (by omega)

section Touched

variable {cwd : Names} {reg : LinkRegistry} {st : RegistryState} {id : HubText linkIdMax} {config : HybbxConfig}

/-- What the INI says after the section of a link has been written can be written and loaded again. -/
lemma safe_of_get {config' : HybbxConfig} {entry : LinkEntry} (hrereads : Rereads cwd reg st.tree)
    (hconfig : iniConfig cwd reg st.tree = some config) (hvalues : ∀ key, SafeValue (entry.value key))
    (hget : ∀ key : LinkKey, configGet config' (linkSection id) key.name = some (entry.value key))
    (hother : ∀ s k, (∀ key : LinkKey, s = linkSection id → k ≠ key.name) → configGet config' s k = configGet config s k) :
    ∀ s k v, configGet config' s k = some v → SafeValue v := by
  intro s k v hv
  by_cases hkey : ∃ key : LinkKey, s = linkSection id ∧ k = key.name
  · obtain ⟨key, rfl, rfl⟩ := hkey
    rw [hget] at hv
    rw [← Option.some.inj hv]
    exact hvalues key
  · rw [hother s k fun key hs hk => hkey ⟨key, hs, hk⟩] at hv
    exact hrereads s k v (by rw [iniGet_of_config hconfig, hv])

lemma upsert_entries {values : LinkValues} {config' : HybbxConfig}
    (h : ∀ e ∈ config, EntryOk e ∧ SafeSection e.sectionName)
    (hsection : SafeSection (linkSection id)) (hupsert : configUpsertLinkSection config id values = .ok config') :
    ∀ e ∈ config', EntryOk e ∧ SafeSection e.sectionName := by
  have hok : ∀ e ∈ config', EntryOk e := @hubOp_ok _ _ (.upsert id values) (fun e he => (h e he).1) hupsert
  intro e he
  refine ⟨hok e he, ?_⟩
  rw [upsertLinkSection_eq] at hupsert
  obtain rfl := Except.ok.inj hupsert
  rcases List.mem_append.mp he with he | he
  · obtain ⟨f, hf, rfl⟩ := List.mem_map.mp he
    have hsame : (upsertEntry (linkSection id) values f).sectionName = f.sectionName := by
      rw [upsertEntry]
      split_ifs <;> rfl
    rw [hsame]
    exact (h f hf).2
  · obtain ⟨key, -, rfl⟩ := List.mem_map.mp he
    exact hsection

/-- The entry of a link is written to its section of the INI. -/
lemma configUpsert_written {entry : LinkEntry} (hloads : IniLoads cwd reg st.tree)
    (hrereads : reg.configPath.text ≠ [] → SafeSection (linkSection id) ∧ (∀ key, SafeValue (entry.value key)) ∧
      Rereads cwd reg st.tree) :
    ∃ st', configUpsert grantingIo cwd entry.lastSeen.secs reg.configPath.text id entry.role.text entry.code.text st = (.ok, st') ∧
      SectionChanged cwd reg (linkSection id) st.tree st'.tree ∧
      (reg.configPath.text ≠ [] → ∀ key : LinkKey,
          iniGet cwd reg st'.tree (linkSection id) key.name = some (entry.value key)) := by
  rw [configUpsert]
  split_ifs with hpath
  · exact ⟨st, rfl, SectionChanged.refl hpath _ _, fun h => absurd hpath h⟩
  obtain ⟨config, hconfig⟩ := Option.isSome_iff_exists.mp (hloads hpath)
  obtain ⟨hsection, hvalues, hreread⟩ := hrereads hpath
  obtain ⟨-, file, hfile, hload⟩ := iniConfig_some hconfig
  obtain ⟨config', hupsert, hget, hother⟩ :=
    upsertLinkSection_get config id (linkValues entry.lastSeen.secs entry.role.text entry.code.text)
  simp only [linkValues_text] at hget
  have hat : fileAt cwd st.tree reg.configPath.text = some file := by
    rw [fileAt, hfile]
    rfl
  have hdir : st.tree (place cwd reg.configPath.text) ≠ some .dir := by
    rw [hfile]
    simp
  obtain ⟨hagain, hini⟩ := iniGet_written hconfig (upsert_entries (configLoad_ok hload) hsection hupsert)
    (safe_of_get hreread hconfig hvalues hget hother)
  have hbind : ((configLoad file).bind fun config =>
      configUpsertLinkSection config id (linkValues entry.lastSeen.secs entry.role.text entry.code.text)) = .ok config' := by
    rw [hload]
    exact hupsert
  rw [fopenRead_granting, hat]
  dsimp only
  rw [hbind]
  dsimp only
  rw [fopenWrite_granting hdir]
  refine ⟨_, rfl, ⟨fun p hp => ?_, hagain, fun s k hs => ?_⟩, fun _ key => ?_⟩
  · exact Function.update_of_ne (hp hpath) _ _
  · rw [hini, hother s k fun key h => absurd h hs, iniGet_of_config hconfig]
  · rw [hini, hget]

lemma touchCode_granting (now : ℤ) (path : Bytes) (isNew : Bool) (hnew : isNew = (st.tree (place cwd path)).isNone) :
    ∃ (code : LinkCode) (opened : List Bytes) (seed : UInt32),
      touchCode grantingIo cwd now st path isNew = (code.text, ⟨st.tree, opened, seed⟩) ∧
      (∀ file, fileAt cwd st.tree path = some file → shardCode file ≠ [] → code.text = shardCode file) ∧
      ((∀ file, fileAt cwd st.tree path = some file → SafeValue (shardCode file)) → SafeValue code.text) := by
  have hknown : ∃ opened, knownCode grantingIo cwd st path isNew =
      ((fileAt cwd st.tree path).elim [] shardCode, ⟨st.tree, opened, st.seed⟩) := by
    rw [knownCode]
    split_ifs with hisNew
    · have hnone : st.tree (place cwd path) = none := by simpa [hisNew] using hnew
      rw [fileAt, hnone]
      exact ⟨st.opened, rfl⟩
    · rw [fopenRead_granting]
      refine ⟨st.opened ++ [path], ?_⟩
      cases fileAt cwd st.tree path <;> rfl
  obtain ⟨opened, hknown⟩ := hknown
  rw [touchCode, hknown]
  dsimp only
  split_ifs with hcode
  · cases hfile : fileAt cwd st.tree path with
    | none =>
      rw [hfile] at hcode
      exact absurd rfl hcode
    | some file =>
      rw [hfile, Option.elim_some] at hcode
      refine ⟨LinkCode.read file hcode, opened, st.seed, rfl, fun file' h _ => ?_, fun h => h file rfl⟩
      rw [← Option.some.inj h]
      rfl
  · obtain ⟨code, hgenerated, hsafe⟩ := generatedCode now st.seed
    refine ⟨code, opened, (linkGenerateCode now st.seed linkCodeMax).2, ?_, fun file h hne => ?_, fun _ => hsafe⟩
    · rw [hgenerated, Option.getD_some]
    · rw [h, Option.elim_some] at hcode
      exact absurd hne hcode

/-- The time of creation that a touch finds. -/
def TimeT.found (now : TimeT) (file : Option Bytes) : TimeT := file.elim now now.created

lemma writeLinkShard_granting {now : TimeT} {path : Bytes} {code : LinkCode} {isNew : Bool} (role : Bytes)
    (hnew : isNew = (st.tree (place cwd path)).isNone) (hdir : st.tree (place cwd path) ≠ some .dir) :
    ∃ opened, writeLinkShard grantingIo cwd now.secs st path id.text role code.text isNew =
      (.ok, ⟨Function.update st.tree (place cwd path)
        (some (.file (shardText id.text role code.text (now.found (fileAt cwd st.tree path)).secs now.secs))),
            opened, st.seed⟩) := by
  have hold : ∃ existing opened, oldShard grantingIo cwd now.secs st path isNew =
      ((now.found (fileAt cwd st.tree path)).secs, existing, ⟨st.tree, opened, st.seed⟩) := by
    rw [oldShard]
    split_ifs with hisNew
    · have hnone : st.tree (place cwd path) = none := by simpa [hisNew] using hnew
      rw [fileAt, hnone]
      exact ⟨[], st.opened, rfl⟩
    · rw [fopenRead_granting]
      cases fileAt cwd st.tree path with
      | none => exact ⟨[], st.opened ++ [path], rfl⟩
      | some file => exact ⟨shardCode file, st.opened ++ [path], rfl⟩
  obtain ⟨existing, opened, hold⟩ := hold
  refine ⟨opened ++ [path], ?_⟩
  rw [writeLinkShard, hold]
  dsimp only
  rw [if_pos code.given, strlcpy_of_fits code.fits]
  dsimp only
  rw [fopenWrite_granting hdir]

end Touched

section Places

variable (cwd : Names) (reg : LinkRegistry)

/-- A name of the registry's directory, as the tree has it. -/
def childPlace (name : Bytes) : Bytes := absolute (name :: resolve cwd (reg.dir.text ++ [slash]))

/-- A link that can have a shard. -/
structure IsLink (id : Bytes) : Prop where
  given : id ≠ []
  name : slash ∉ id
  fits : id.length < linkIdMax
  path : (shardName reg id).length < linkPathMax

/-- The INI does not lie in the registry's directory. -/
def IniOutside : Prop :=
  reg.configPath.text ≠ [] → ∀ name, slash ∉ name → place cwd reg.configPath.text ≠ childPlace cwd reg name

variable {cwd reg} {id id' : Bytes}

lemma childPlace_injective {a b : Bytes} (h : childPlace cwd reg a = childPlace cwd reg b) : a = b := by
  simp only [childPlace, absolute, List.reverse_cons, List.flatMap_append, List.flatMap_cons, List.flatMap_nil,
    List.append_nil] at h
  exact (List.cons.inj (List.append_cancel_left h)).2

lemma IsLink.place_eq (h : IsLink reg id) : place cwd (shardName reg id) = childPlace cwd reg (id ++ shardExt) :=
  congrArg absolute ((namesChild_iff cwd reg id).mpr h.name)

lemma IsLink.slash_notMem (h : IsLink reg id) : slash ∉ id ++ shardExt := by
  rw [List.mem_append]
  exact not_or.mpr ⟨h.name, by decide⟩

lemma IsLink.apart (h : IsLink reg id) (h' : IsLink reg id') (hne : id ≠ id') :
    place cwd (shardName reg id) ≠ place cwd (shardName reg id') := by
  rw [h.place_eq, h'.place_eq]
  exact fun hsame => hne (List.append_cancel_right (childPlace_injective hsame))

lemma IsLink.ini_ne (h : IsLink reg id) (hout : IniOutside cwd reg) :
    reg.configPath.text ≠ [] → place cwd (shardName reg id) ≠ place cwd reg.configPath.text := by
  intro hpath hsame
  exact hout hpath _ h.slash_notMem (hsame.symm.trans h.place_eq)

lemma IsLink.shardPath (h : IsLink reg id) : linkShardPath reg id linkPathMax = some (shardName reg id) := by
  rw [linkShardPath, if_neg h.given, if_neg (not_le.mpr h.path)]

end Places

section Touch

variable (cwd : Names) (reg : LinkRegistry) (id : HubText linkIdMax)

/-- A link is in the registry: its shard is there, and the INI says the same of it. -/
structure Recorded (entry : LinkEntry) (tree : FileTree) : Prop where
  shard : tree (place cwd (shardName reg id.text)) = some (.file (entry.shard id))
  ini : reg.configPath.text ≠ [] → ∀ key : LinkKey, iniGet cwd reg tree (linkSection id) key.name =
    some (entry.value key)

/-- Nothing but the shard of a link and its section changes; directories may be made. -/
structure LinkChanged (before after : FileTree) : Prop where
  files : Grows (fun p => p = place cwd (shardName reg id.text) ∨
    reg.configPath.text ≠ [] ∧ p = place cwd reg.configPath.text) before after
  loads : IniLoads cwd reg after
  sections : ∀ s k, s ≠ linkSection id → iniGet cwd reg after s k = iniGet cwd reg before s k

/-- What the INI has to be for a touch: the name of its section, its own values and all others survive being written and
loaded again. -/
structure TouchKept (role : HubText linkRoleMax) (tree : FileTree) : Prop where
  name : SafeSection (linkSection id)
  role : SafeValue role.text
  code : ∀ file, fileAt cwd tree (shardName reg id.text) = some file → SafeValue (shardCode file)
  others : Rereads cwd reg tree

variable {cwd reg id}

lemma iniConfig_of_fileAt {before after : FileTree}
    (h : reg.configPath.text ≠ [] → fileAt cwd after reg.configPath.text = fileAt cwd before reg.configPath.text) :
    iniConfig cwd reg after = iniConfig cwd reg before := by
  rw [iniConfig, iniConfig]
  split_ifs with hpath
  · rfl
  · rw [h hpath]

lemma iniConfig_of_same {before after : FileTree}
    (h : reg.configPath.text ≠ [] → after (place cwd reg.configPath.text) = before (place cwd reg.configPath.text)) :
    iniConfig cwd reg after = iniConfig cwd reg before :=
  iniConfig_of_fileAt fun hpath => by rw [fileAt, h hpath, fileAt]

lemma iniGet_of_same {before after : FileTree} (h : iniConfig cwd reg after = iniConfig cwd reg before) (s k : Bytes) :
    iniGet cwd reg after s k = iniGet cwd reg before s k := by
  rw [iniGet, h, iniGet]

lemma Rereads.same {before after : FileTree} (h : Rereads cwd reg before)
    (hsame : iniConfig cwd reg after = iniConfig cwd reg before) : Rereads cwd reg after := by
  intro s k v hv
  rw [iniGet_of_same hsame] at hv
  exact h s k v hv

variable {role : HubText linkRoleMax} {now : TimeT} {st : RegistryState}

lemma TouchKept.grown {before after : FileTree} (h : TouchKept cwd reg id role before)
    (hgrows : Grows (fun _ => False) before after) : TouchKept cwd reg id role after := by
  refine ⟨h.name, h.role, fun file hfile => h.code file ?_,
    h.others.same (iniConfig_of_fileAt fun _ => grows_fileAt hgrows _)⟩
  rw [← grows_fileAt hgrows]
  exact hfile

lemma SectionChanged.grows {s : Bytes} {before after : FileTree} (h : SectionChanged cwd reg s before after) :
    Grows (fun p => reg.configPath.text ≠ [] ∧ p = place cwd reg.configPath.text) before after := by
  intro p hne
  by_contra hno
  exact hne (h.files p fun hpath hp => hno (.inl ⟨hpath, hp⟩))

lemma TouchKept.value {entry : LinkEntry} {tree : FileTree} (h : TouchKept cwd reg id entry.role tree)
    (hcode : SafeValue entry.code.text) (key : LinkKey) : SafeValue (entry.value key) := by
  cases key with
  | role => exact h.role
  | linkCode => exact hcode
  | lastSeen => exact entry.lastSeen.decimal_safe

/-- The shard is written beside the INI. -/
lemma IsLink.ini_same (hlink : IsLink reg id.text) (hout : IniOutside cwd reg) (tree : FileTree) (text : Bytes) :
    iniConfig cwd reg (Function.update tree (place cwd (shardName reg id.text)) (some (.file text))) =
      iniConfig cwd reg tree :=
  iniConfig_of_same fun hpath => Function.update_of_ne (hlink.ini_ne hout hpath).symm _ _

/-- A touch records its link, with the code and the time of creation that its shard has already. -/
lemma touch_recorded (hlink : IsLink reg id.text) (hout : IniOutside cwd reg) (hloads : IniLoads cwd reg st.tree)
    (hdir : linkMkdirP grantingIo cwd st.tree reg.dir.text (place cwd (shardName reg id.text)) ≠ some .dir)
    (hkept : reg.configPath.text ≠ [] → TouchKept cwd reg id role st.tree) :
    ∃ (entry : LinkEntry) (st' : RegistryState),
      linkRegistryTouch grantingIo cwd now.secs reg id role st = ⟨.ok, some entry.code.text, st'⟩ ∧
      (entry.role = role ∧ entry.lastSeen = now ∧
        entry.created = now.found (fileAt cwd st.tree (shardName reg id.text)) ∧
        ∀ file, fileAt cwd st.tree (shardName reg id.text) = some file → shardCode file ≠ [] →
          entry.code.text = shardCode file) ∧
      Recorded cwd reg id entry st'.tree ∧ LinkChanged cwd reg id st.tree st'.tree := by
  have hmade : Grows (fun _ => False) st.tree (linkMkdirP grantingIo cwd st.tree reg.dir.text) :=
    linkMkdirP_grows cwd grantingIo _ st.tree reg.dir.text
  rw [linkRegistryTouch, if_neg hlink.given, hlink.shardPath]
  dsimp only
  generalize linkMkdirP grantingIo cwd st.tree reg.dir.text = tree at hdir hmade
  have hfile := @grows_fileAt cwd _ _ hmade (shardName reg id.text)
  have hini := @iniConfig_of_fileAt cwd reg _ _ fun _ => grows_fileAt hmade reg.configPath.text
  have hkept₁ := fun hpath => (hkept hpath).grown hmade
  rw [← hfile]
  obtain ⟨code, opened, seed, htouch, hold, hsafe⟩ :=
    @touchCode_granting cwd { st with tree := tree } now.secs (shardName reg id.text) _ rfl
  obtain ⟨opened', hwrite⟩ :=
    @writeLinkShard_granting cwd ⟨tree, opened, seed⟩ id now (shardName reg id.text) code _ role.text rfl hdir
  rw [htouch]
  dsimp only
  rw [hwrite]
  dsimp only
  obtain ⟨entry, hentry⟩ : ∃ entry : LinkEntry,
      entry = ⟨role, code, now.found (fileAt cwd tree (shardName reg id.text)), now⟩ := ⟨_, rfl⟩
  have hsame := hlink.ini_same hout tree (entry.shard id)
  have hnext : reg.configPath.text ≠ [] → SafeSection (linkSection id) ∧ (∀ key, SafeValue (entry.value key)) ∧
      Rereads cwd reg (Function.update tree (place cwd (shardName reg id.text)) (some (.file (entry.shard id)))) := by
    intro hpath
    have hk := hkept₁ hpath
    refine ⟨hk.name, ?_, hk.others.same hsame⟩
    rw [hentry]
    exact TouchKept.value hk (hsafe hk.code)
  obtain ⟨st', hupsert, hchanged, hini'⟩ := @configUpsert_written cwd reg
    ⟨Function.update tree (place cwd (shardName reg id.text)) (some (.file (entry.shard id))), opened', seed⟩ id entry
    (hloads.same (hsame.trans hini)) hnext
  subst hentry
  refine ⟨⟨role, code, now.found (fileAt cwd tree (shardName reg id.text)), now⟩, st', ?_, ⟨rfl, rfl, rfl, hold⟩,
    ⟨?_, hini'⟩, ⟨?_, hchanged.loads, fun s k hs => ?_⟩⟩
  · exact congrArg (fun r : HybbxResult × RegistryState => (⟨r.1, some code.text, r.2⟩ : TouchResult)) hupsert
  · rw [hchanged.files _ (hlink.ini_ne hout)]
    exact Function.update_self _ _ _
  · refine ((hmade.mono fun _ h => h.elim).trans ?_).trans (hchanged.grows.mono fun _ => .inr)
    exact fun p hne => .inl (.inl (only_update _ _ _ p hne))
  · rw [hchanged.sections s k hs, iniGet_of_same (hsame.trans hini)]

end Touch

end HyBBX.Circuit
