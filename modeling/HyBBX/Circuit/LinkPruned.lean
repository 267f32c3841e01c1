import HyBBX.Circuit.LinkTouched

/-! What a prune leaves of the registry: nothing of the stale links, and everything else as it was. -/

namespace HyBBX.Circuit

open HyBBX.Core Config Lib Lib.Bytes Lib.Text Lib.Numeral Lib.LineReader FileTree

section Pruned

variable (cwd : Names) (reg : LinkRegistry)

def linkName (id : Bytes) : Bytes := ofString "link." ++ id

/-- When a link was last seen; a link without a shard never was. -/
def lastSeenAt (tree : FileTree) (id : Bytes) : ℤ := (fileAt cwd tree (shardName reg id)).elim 0 shardLastSeen

structure Stale (cutoff : ℤ) (tree : FileTree) (id : Bytes) : Prop where
  link : IsLink reg id
  seen : 0 < lastSeenAt cwd reg tree id
  old : lastSeenAt cwd reg tree id < cutoff

/-- The links that are gone have neither a shard nor a section, and all else is as it was. -/
structure Pruned (gone : Bytes → Prop) (before after : FileTree) : Prop where
  removed : ∀ id, gone id → after (place cwd (shardName reg id)) = none
  files : ∀ p, (reg.configPath.text ≠ [] → p ≠ place cwd reg.configPath.text) →
    (∀ id, gone id → p ≠ place cwd (shardName reg id)) → after p = before p
  loads : IniLoads cwd reg after
  cleared : ∀ id k, gone id → iniGet cwd reg after (linkName id) k = none
  sections : ∀ s k, (∀ id, gone id → s ≠ linkName id) → iniGet cwd reg after s k = iniGet cwd reg before s k

variable {cwd reg} {gone gone' : Bytes → Prop} {a b c : FileTree}

lemma Pruned.refl (hgone : ∀ id, ¬gone id) (h : IniLoads cwd reg a) : Pruned cwd reg gone a a :=
  ⟨fun id hid => absurd hid (hgone id), fun _ _ _ => rfl, h, fun id _ hid => absurd hid (hgone id), fun _ _ _ => rfl⟩

lemma Pruned.trans (hout : IniOutside cwd reg) (hlinks : ∀ id, gone id → IsLink reg id) (hab : Pruned cwd reg gone a b)
    (hbc : Pruned cwd reg gone' b c) : Pruned cwd reg (fun id => gone id ∨ gone' id) a c where
  removed id hid := by
    by_cases hgone' : gone' id
    · exact hbc.removed id hgone'
    have hgone := hid.resolve_right hgone'
    by_cases hsome : ∃ id', gone' id' ∧ place cwd (shardName reg id) = place cwd (shardName reg id')
    · obtain ⟨id', hid', hsame⟩ := hsome
      rw [hsame]
      exact hbc.removed id' hid'
    · rw [hbc.files _ ((hlinks id hgone).ini_ne hout) fun id' hid' hsame => hsome ⟨id', hid', hsame⟩]
      exact hab.removed id hgone
  files p hini hp := by
    rw [hbc.files p hini fun id hid => hp id (.inr hid), hab.files p hini fun id hid => hp id (.inl hid)]
  loads := hbc.loads
  cleared id k hid := by
    by_cases hsome : ∃ id', gone' id' ∧ linkName id = linkName id'
    · obtain ⟨id', hid', hsame⟩ := hsome
      rw [hsame]
      exact hbc.cleared id' k hid'
    · rw [hbc.sections _ k fun id' hid' hsame => hsome ⟨id', hid', hsame⟩]
      refine hab.cleared id k (hid.resolve_right fun hid' => hsome ⟨id, hid', rfl⟩)
  sections s k hs := by
    rw [hbc.sections s k fun id hid => hs id (.inr hid), hab.sections s k fun id hid => hs id (.inl hid)]

lemma Pruned.congr (h : Pruned cwd reg gone a b) (hsame : ∀ id, gone id ↔ gone' id) : Pruned cwd reg gone' a b := by
  have heq : gone = gone' := funext fun id => propext (hsame id)
  rw [← heq]
  exact h

lemma Pruned.rereads (h : Pruned cwd reg gone a b) (hrereads : Rereads cwd reg a) : Rereads cwd reg b := by
  intro s k v hv
  by_cases hsome : ∃ id, gone id ∧ s = linkName id
  · obtain ⟨id, hid, rfl⟩ := hsome
    rw [h.cleared id k hid] at hv
    cases hv
  · rw [h.sections s k fun id hid hs => hsome ⟨id, hid, hs⟩] at hv
    exact hrereads s k v hv

lemma Stale.file {cutoff : ℤ} {tree : FileTree} {id : Bytes} (h : Stale cwd reg cutoff tree id) :
    ∃ file, tree (place cwd (shardName reg id)) = some (.file file) := by
  cases hfile : fileAt cwd tree (shardName reg id) with
  | none =>
    have hseen := h.seen
    rw [lastSeenAt, hfile] at hseen
    exact absurd hseen (lt_irrefl _)
  | some file => exact ⟨file, textOf_eq_some hfile⟩

lemma removeAt_granting {tree : FileTree} {path file : Bytes} (h : tree (place cwd path) = some (.file file)) :
    removeAt grantingIo cwd tree path = Function.update tree (place cwd path) none := by
  rw [removeAt, h]
  rfl

lemma removeSection_entries {config : HybbxConfig} (h : ∀ e ∈ config, EntryOk e ∧ SafeSection e.sectionName)
    (s : Bytes) :
    ∀ e ∈ configRemoveSection config s, EntryOk e ∧ SafeSection e.sectionName :=
  fun e he => h e (List.mem_of_mem_filter he)

lemma sectionName_eq {id : Bytes} (h : id.length < linkIdMax) :
    strlcpy configSectionMax (ofString "link." ++ id) = linkName id := by
  refine strlcpy_of_fits ?_
  have hlen : (ofString "link.").length = 5 := by decide
  rw [List.length_append, hlen]
  simp only [linkIdMax, configSectionMax] at *
  omega

variable {st : RegistryState} {id : Bytes}

/-- One stale link is dropped from the directory and from the INI. -/
lemma removeLinkFiles_pruned (hlink : IsLink reg id) (hout : IniOutside cwd reg) (hloads : IniLoads cwd reg st.tree)
    (hrereads : reg.configPath.text ≠ [] → Rereads cwd reg st.tree) {file : Bytes}
    (hfile : st.tree (place cwd (shardName reg id)) = some (.file file)) :
    Pruned cwd reg (· = id) st.tree (removeLinkFiles grantingIo cwd reg id st).tree := by
  rw [removeLinkFiles, hlink.shardPath]
  dsimp only
  rw [removeAt_granting hfile]
  have hsame : iniConfig cwd reg (Function.update st.tree (place cwd (shardName reg id)) none) =
    iniConfig cwd reg st.tree :=
    iniConfig_of_same fun hpath => Function.update_of_ne (hlink.ini_ne hout hpath).symm _ _
  have hloads₁ := hloads.same hsame
  have hrereads₁ := fun hpath => (hrereads hpath).same hsame
  have hget₁ := iniGet_of_same hsame
  have hremoved : Function.update st.tree (place cwd (shardName reg id)) none (place cwd (shardName reg id)) = none :=
    Function.update_self _ _ _
  have hother : ∀ p, p ≠ place cwd (shardName reg id) →
      Function.update st.tree (place cwd (shardName reg id)) none p = st.tree p :=
    fun p hp => Function.update_of_ne hp _ _
  generalize Function.update st.tree (place cwd (shardName reg id)) none = tree at *
  split_ifs with hpath
  · refine ⟨fun id' hid' => hid' ▸ hremoved, fun p _ hp => hother p (hp id rfl), hloads₁, fun id' k hid' => ?_,
      fun s k _ => hget₁ s k⟩
    rw [iniGet, iniConfig, if_pos hpath]
    rfl
  obtain ⟨config, hconfig⟩ := Option.isSome_iff_exists.mp (hloads₁ hpath)
  obtain ⟨-, text, htext, hload⟩ := iniConfig_some hconfig
  have hat : fileAt cwd tree reg.configPath.text = some text := by
    rw [fileAt, htext]
    rfl
  have hdir : tree (place cwd reg.configPath.text) ≠ some .dir := by
    rw [htext]
    simp
  have hsafe : ∀ s k v, configGet (configRemoveSection config (linkName id)) s k = some v → SafeValue v := by
    intro s k v hv
    rw [configGet_removeSection] at hv
    split_ifs at hv
    refine hrereads₁ hpath s k v ?_
    rw [iniGet_of_config hconfig, hv]
  obtain ⟨hagain, hini⟩ := iniGet_written hconfig (removeSection_entries (configLoad_ok hload) (linkName id)) hsafe
  rw [fopenRead_granting, hat]
  dsimp only
  rw [hload]
  dsimp only
  rw [sectionName_eq hlink.fits, fopenWrite_granting hdir]
  dsimp only
  refine ⟨fun id' hid' => ?_, fun p hp hid => ?_, hagain, fun id' k hid' => ?_, fun s k hs => ?_⟩
  · rw [hid', Function.update_of_ne (hlink.ini_ne hout hpath), hremoved]
  · rw [Function.update_of_ne (hp hpath), hother p (hid id rfl)]
  · rw [hini, configGet_removeSection, hid', if_pos rfl]
  · rw [hini, configGet_removeSection, if_neg (hs id rfl), ← iniGet_of_config hconfig, hget₁]

/-- The links that a name of the directory stands for, if they are stale. -/
def Gone (cwd : Names) (reg : LinkRegistry) (cutoff : ℤ) (tree : FileTree) (names : List Bytes) (id : Bytes) : Prop :=
  id ++ shardExt ∈ names ∧ Stale cwd reg cutoff tree id

lemma readLinkLastSeen_granting (path : Bytes) : ∃ opened, readLinkLastSeen grantingIo cwd st path =
    ((fileAt cwd st.tree path).elim 0 shardLastSeen, ⟨st.tree, opened, st.seed⟩) := by
  rw [readLinkLastSeen, fopenRead_granting]
  refine ⟨st.opened ++ [path], ?_⟩
  cases fileAt cwd st.tree path <;> rfl

lemma take_name (id : Bytes) : (id ++ shardExt).take ((id ++ shardExt).length - 4) = id ∧
    (id ++ shardExt).drop ((id ++ shardExt).length - 4) = shardExt := by
  have hlen : (id ++ shardExt).length - 4 = id.length := by
    rw [List.length_append]
    exact Nat.add_sub_cancel id.length 4
  rw [hlen, List.take_left, List.drop_left]
  exact ⟨rfl, rfl⟩

/-- A name that is not the one of a link's shard is passed over. -/
lemma pruneName_other (cutoff : ℤ) {name : Bytes} (hname : slash ∉ name)
    (h : ∀ id, IsLink reg id → id ++ shardExt ≠ name) :
    pruneName grantingIo cwd reg cutoff st name = st := by
  rw [pruneName]
  by_cases hext : name.length < 5 ∨ name.drop (name.length - 4) ≠ shardExt
  · rw [if_pos hext]
  rw [if_neg hext]
  dsimp only
  rw [not_or, not_lt, not_not] at hext
  have hsplit : name.take (name.length - 4) ++ shardExt = name := by
    conv_rhs => rw [← List.take_append_drop (name.length - 4) name, hext.2]
  by_cases hid : linkIdMax ≤ (name.take (name.length - 4)).length
  · rw [if_pos hid]
  by_cases hpath : linkPathMax ≤ (reg.dir.text ++ slash :: name).length
  · rw [if_neg hid, if_pos hpath]
  refine absurd hsplit (h _ ⟨?_, fun hs => hname (List.mem_of_mem_take hs), not_le.mp hid, ?_⟩)
  · rw [← List.length_pos_iff, List.length_take]
    omega
  · rw [shardName, hsplit]
    exact not_le.mp hpath

lemma pruneName_link (cutoff : ℤ) (hlink : IsLink reg id) :
    ∃ opened, pruneName grantingIo cwd reg cutoff st (id ++ shardExt) =
    if 0 < lastSeenAt cwd reg st.tree id ∧ lastSeenAt cwd reg st.tree id < cutoff then
      removeLinkFiles grantingIo cwd reg id ⟨st.tree, opened, st.seed⟩
    else ⟨st.tree, opened, st.seed⟩ := by
  obtain ⟨htake, hdrop⟩ := take_name id
  have hlong : ¬((id ++ shardExt).length < 5 ∨ (id ++ shardExt).drop ((id ++ shardExt).length - 4) ≠ shardExt) := by
    have hpos := List.length_pos_iff.mpr hlink.given
    have hlen : shardExt.length = 4 := rfl
    rw [hdrop, List.length_append, hlen]
    simp only [ne_eq, not_true_eq_false, or_false]
    omega
  have hshard : reg.dir.text ++ slash :: (id ++ shardExt) = shardName reg id := rfl
  obtain ⟨opened, hseen⟩ := @readLinkLastSeen_granting cwd st (shardName reg id)
  refine ⟨opened, ?_⟩
  rw [pruneName, if_neg hlong]
  dsimp only
  rw [htake, if_neg (not_le.mpr hlink.fits), hshard, if_neg (not_le.mpr hlink.path), hseen]
  rfl

lemma pruneName_pruned (cutoff : ℤ) {name : Bytes} (hname : slash ∉ name) (hout : IniOutside cwd reg)
    (hloads : IniLoads cwd reg st.tree)
    (hrereads : reg.configPath.text ≠ [] → (∃ id, Gone cwd reg cutoff st.tree [name] id) → Rereads cwd reg st.tree) :
    Pruned cwd reg (Gone cwd reg cutoff st.tree [name]) st.tree (pruneName grantingIo cwd reg cutoff st name).tree := by
  by_cases hsome : ∃ id, IsLink reg id ∧ id ++ shardExt = name
  · obtain ⟨id, hlink, rfl⟩ := hsome
    have hgone : ∀ id', Gone cwd reg cutoff st.tree [id ++ shardExt] id' ↔
        id' = id ∧ Stale cwd reg cutoff st.tree id := by
      intro id'
      rw [Gone, List.mem_singleton]
      constructor
      · rintro ⟨hsame, hstale⟩
        obtain rfl := List.append_cancel_right hsame
        exact ⟨rfl, hstale⟩
      · rintro ⟨rfl, hstale⟩
        exact ⟨rfl, hstale⟩
    obtain ⟨opened, hprune⟩ := @pruneName_link cwd reg st id cutoff hlink
    rw [hprune]
    split_ifs with hold
    · have hstale : Stale cwd reg cutoff st.tree id := ⟨hlink, hold.1, hold.2⟩
      obtain ⟨file, hfile⟩ := hstale.file
      refine Pruned.congr (@removeLinkFiles_pruned cwd reg ⟨st.tree, opened, st.seed⟩ id hlink hout hloads
        (fun hini => hrereads hini ⟨id, (hgone id).mpr ⟨rfl, hstale⟩⟩) file hfile) fun id' => ?_
      rw [hgone]
      exact (and_iff_left hstale).symm
    · refine Pruned.refl (fun id' hid' => ?_) hloads
      obtain ⟨-, hstale⟩ := (hgone id').mp hid'
      exact hold ⟨hstale.seen, hstale.old⟩
  · rw [pruneName_other cutoff hname fun id hlink hsame => hsome ⟨id, hlink, hsame⟩]
    exact Pruned.refl (fun id hid => hsome ⟨id, hid.2.link, List.mem_singleton.mp hid.1⟩) hloads

/-- What an earlier name has removed is not stale any more, and nothing else is changed. -/
lemma Pruned.stale_iff {cutoff : ℤ} {names : List Bytes} (h : Pruned cwd reg (Gone cwd reg cutoff a names) a b)
    (hout : IniOutside cwd reg) (id : Bytes) :
    Stale cwd reg cutoff b id ↔ Stale cwd reg cutoff a id ∧ id ++ shardExt ∉ names := by
  by_cases hlink : IsLink reg id
  swap
  · exact ⟨fun hstale => absurd hstale.link hlink, fun hstale => absurd hstale.1.link hlink⟩
  by_cases hgone : Gone cwd reg cutoff a names id
  · have hnone : lastSeenAt cwd reg b id = 0 := by
      rw [lastSeenAt, fileAt, h.removed id hgone]
      rfl
    refine ⟨fun hstale => ?_, fun hstale => absurd hgone.1 hstale.2⟩
    have hseen := hstale.seen
    rw [hnone] at hseen
    exact absurd hseen (lt_irrefl _)
  · have hsame : lastSeenAt cwd reg b id = lastSeenAt cwd reg a id := by
      rw [lastSeenAt, fileAt, h.files _ (hlink.ini_ne hout) fun id' hid' hplace => ?_, lastSeenAt, fileAt]
      by_cases hne : id = id'
      · exact hgone (hne ▸ hid')
      · exact hlink.apart hid'.2.link hne hplace
    constructor
    · intro hstale
      have hstale' : Stale cwd reg cutoff a id := ⟨hlink, hsame ▸ hstale.seen, hsame ▸ hstale.old⟩
      exact ⟨hstale', fun hmem => hgone ⟨hmem, hstale'⟩⟩
    · rintro ⟨hstale, -⟩
      exact ⟨hlink, hsame.symm ▸ hstale.seen, hsame.symm ▸ hstale.old⟩

lemma pruneNames_pruned (cutoff : ℤ) (names : List Bytes) (hnames : ∀ name ∈ names, slash ∉ name)
    (hout : IniOutside cwd reg)
    (hloads : IniLoads cwd reg st.tree)
    (hrereads : reg.configPath.text ≠ [] → (∃ id, Gone cwd reg cutoff st.tree names id) → Rereads cwd reg st.tree) :
    Pruned cwd reg (Gone cwd reg cutoff st.tree names) st.tree (names.foldl (pruneName grantingIo cwd reg cutoff) st).tree := by
  induction names generalizing st with
  | nil => exact Pruned.refl (fun id hid => nomatch hid.1) hloads
  | cons name names ih =>
    rw [List.foldl_cons]
    have hfirst := @pruneName_pruned cwd reg st cutoff name (hnames name List.mem_cons_self) hout hloads
      fun hini hsome => hrereads hini (hsome.imp fun id hid => ⟨List.mem_cons.mpr (.inl (List.mem_singleton.mp hid.1)), hid.2⟩)
    generalize pruneName grantingIo cwd reg cutoff st name = st₁ at hfirst ⊢
    have hstale := hfirst.stale_iff hout
    have hrest := ih (fun other hother => hnames other (List.mem_cons_of_mem name hother)) hfirst.loads
      fun hini hsome => hfirst.rereads (hrereads hini (hsome.imp fun id hid =>
        ⟨List.mem_cons_of_mem name hid.1, ((hstale id).mp hid.2).1⟩))
    refine Pruned.congr (hfirst.trans hout (fun id hid => hid.2.link) hrest) fun id => ?_
    constructor
    · rintro (hid | hid)
      · exact ⟨List.mem_cons.mpr (.inl (List.mem_singleton.mp hid.1)), hid.2⟩
      · exact ⟨List.mem_cons_of_mem name hid.1, ((hstale id).mp hid.2).1⟩
    · rintro ⟨hmem, hid⟩
      by_cases hname : id ++ shardExt = name
      · exact .inl ⟨List.mem_singleton.mpr hname, hid⟩
      · refine .inr ⟨(List.mem_cons.mp hmem).resolve_left hname, (hstale id).mpr ⟨hid, ?_⟩⟩
        rw [List.mem_singleton]
        exact hname

/-- What `readdir` returns: every name of the directory. -/
structure Lists (cwd : Names) (reg : LinkRegistry) (tree : FileTree) (listing : Option (List Bytes)) : Prop where
  names : ∀ name ∈ listing.getD [], slash ∉ name
  complete : ∀ name, slash ∉ name → (tree (childPlace cwd reg name)).isSome → name ∈ listing.getD []

/-- A prune removes exactly the stale links, from the directory and from the INI. -/
lemma prune_pruned {staleDays : ℕ} {now : ℤ} {listing : Option (List Bytes)} (hreg : reg.dir.text ≠ [])
    (hout : IniOutside cwd reg) (hloads : IniLoads cwd reg st.tree) (hlists : Lists cwd reg st.tree listing)
    (hrereads : reg.configPath.text ≠ [] → (∃ id, Stale cwd reg (now - staleDays * 24 * 60 * 60) st.tree id) →
      Rereads cwd reg st.tree) :
    Pruned cwd reg (Stale cwd reg (now - staleDays * 24 * 60 * 60) st.tree) st.tree
      (linkRegistryPrune grantingIo cwd reg staleDays now listing st).2.tree := by
  have hlisted : ∀ id, Stale cwd reg (now - staleDays * 24 * 60 * 60) st.tree id →
      id ++ shardExt ∈ listing.getD [] := by
    intro id hstale
    obtain ⟨file, hfile⟩ := hstale.file
    refine hlists.complete _ hstale.link.slash_notMem ?_
    rw [← hstale.link.place_eq, hfile]
    rfl
  have hpruned := @pruneNames_pruned cwd reg st (now - staleDays * 24 * 60 * 60) (listing.getD []) hlists.names hout hloads
    fun hini hsome => hrereads hini (hsome.imp fun id hid => hid.2)
  rw [linkRegistryPrune, if_neg hreg]
  refine Pruned.congr ?_ fun id => ⟨fun hid : Gone cwd reg _ st.tree (listing.getD []) id => hid.2,
    fun hid => ⟨hlisted id hid, hid⟩⟩
  cases listing with
  | none => exact hpruned
  | some names => exact hpruned

end Pruned

end HyBBX.Circuit
