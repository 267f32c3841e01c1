import HyBBX.Circuit.LinkPruned

/-! The registry of links over a run of touches and prunes, in its files and in the configured INI. -/

namespace HyBBX.Circuit

open HyBBX.Core Config Lib Lib.Bytes Lib.Text Lib.Numeral Lib.LineReader FileTree

inductive RegistryEvent
  | touch (now : TimeT) (id : HubText linkIdMax) (role : HubText linkRoleMax)
  | prune (now : TimeT) (listing : Option (List Bytes))

section Run

variable (cwd : Names) (reg : LinkRegistry) (staleDays : ℕ)

/-- The links seen before this are stale. -/
def staleBefore (now : TimeT) : ℤ := now.secs - staleDays * 24 * 60 * 60

def RegistryEvent.apply (st : RegistryState) : RegistryEvent → RegistryState
  | .touch now id role => (linkRegistryTouch grantingIo cwd now.secs reg id role st).state
  | .prune now listing => (linkRegistryPrune grantingIo cwd reg staleDays now.secs listing st).2

def registryAfter (start : RegistryState) (events : List RegistryEvent) : RegistryState :=
  events.foldl (RegistryEvent.apply cwd reg staleDays) start

/-- The id is a name, and no call fails: no directory has the name of the shard, and the listing is complete. -/
def EventGiven (tree : FileTree) : RegistryEvent → Prop
  | .touch _ id _ => (id.text ≠ [] ∧ slash ∉ id.text) ∧
    linkMkdirP grantingIo cwd tree reg.dir.text (place cwd (shardName reg id.text)) ≠ some .dir
  | .prune _ listing => Lists cwd reg tree listing

/-- What is rewritten in the INI reads back. -/
def EventKept (tree : FileTree) : RegistryEvent → Prop
  | .touch _ id role => reg.configPath.text ≠ [] → IsLink reg id.text → TouchKept cwd reg id role tree
  | .prune now _ => reg.configPath.text ≠ [] → (∃ id, Stale cwd reg (staleBefore staleDays now) tree id) →
    Rereads cwd reg tree

/-- A prune finds the link stale. -/
def RegistryEvent.Prunes (tree : FileTree) (id : Bytes) : RegistryEvent → Prop
  | .touch _ _ _ => False
  | .prune now _ => Stale cwd reg (staleBefore staleDays now) tree id

/-- When the link was last touched. -/
def RegistryEvent.seen (id : Bytes) (lastSeen : TimeT) : RegistryEvent → TimeT
  | .touch now id' _ => if id'.text = id then now else lastSeen
  | .prune _ _ => lastSeen

def seenAfter (id : Bytes) (lastSeen : TimeT) (events : List RegistryEvent) : TimeT :=
  events.foldl (RegistryEvent.seen id) lastSeen

variable {cwd reg staleDays} {st : RegistryState} {id : HubText linkIdMax} {entry : LinkEntry}

lemma HubText.eq_of_text {size : ℕ} {a b : HubText size} (h : a.text = b.text) : a = b := by
  cases a
  cases b
  subst h
  rfl

lemma LinkCode.eq_of_text {a b : LinkCode} (h : a.text = b.text) : a = b := by
  cases a
  cases b
  congr 1
  exact HubText.eq_of_text h

lemma TimeT.eq_of_secs {a b : TimeT} (h : a.secs = b.secs) : a = b := by
  cases a
  cases b
  subst h
  rfl

lemma Recorded.fileAt_eq (h : Recorded cwd reg id entry st.tree) :
    fileAt cwd st.tree (shardName reg id.text) = some (entry.shard id) := by
  rw [fileAt, h.shard]
  rfl

/-- What a prune goes by is the time of the last touch. -/
lemma Recorded.lastSeenAt_eq (h : Recorded cwd reg id entry st.tree) :
    lastSeenAt cwd reg st.tree id.text = entry.lastSeen.secs := by
  rw [lastSeenAt, h.fileAt_eq, Option.elim_some, entry.shardLastSeen_shard id]

lemma Recorded.kept {before after : FileTree} (h : Recorded cwd reg id entry before)
    (hshard : after (place cwd (shardName reg id.text)) = before (place cwd (shardName reg id.text)))
    (hini : ∀ k, iniGet cwd reg after (linkSection id) k = iniGet cwd reg before (linkSection id) k) :
    Recorded cwd reg id entry after := by
  refine ⟨hshard.trans h.shard, fun hpath key => ?_⟩
  rw [hini]
  exact h.ini hpath key

/-- A touch that has no path for the shard changes nothing. -/
lemma touch_unlinked {now : TimeT} {role : HubText linkRoleMax} (hgiven : id.text ≠ [] ∧ slash ∉ id.text)
    (hlink : ¬IsLink reg id.text) :
    (linkRegistryTouch grantingIo cwd now.secs reg id role st).result = .errInvalid ∧
      Grows (fun _ => False) st.tree (linkRegistryTouch grantingIo cwd now.secs reg id role st).state.tree := by
  have hpath : linkShardPath reg id.text linkPathMax = none := by
    rw [linkShardPath, if_neg hgiven.1, if_pos]
    by_contra hfits
    exact hlink ⟨hgiven.1, hgiven.2, id.fits, not_le.mp hfits⟩
  obtain ⟨hgrows, hresult, -⟩ := touch_refused cwd reg grantingIo now.secs id role st (fun _ => False) hpath
  exact ⟨hresult, hgrows⟩

lemma linkChanged_of_grows {before after : FileTree} (hgrows : Grows (fun _ => False) before after)
    (hloads : IniLoads cwd reg before) : LinkChanged cwd reg id before after := by
  have hsame := @iniConfig_of_fileAt cwd reg before after fun _ => grows_fileAt hgrows _
  exact ⟨hgrows.mono fun _ h => h.elim, hloads.same hsame, fun s k _ => iniGet_of_same hsame s k⟩

lemma touch_changed {now : TimeT} {role : HubText linkRoleMax} (hout : IniOutside cwd reg)
    (hloads : IniLoads cwd reg st.tree) (hgiven : EventGiven cwd reg st.tree (.touch now id role))
    (hkept : EventKept cwd reg staleDays st.tree (.touch now id role)) :
    LinkChanged cwd reg id st.tree (RegistryEvent.apply cwd reg staleDays st (.touch now id role)).tree := by
  by_cases hlink : IsLink reg id.text
  · obtain ⟨entry, st', htouch, -, -, hchanged⟩ :=
      @touch_recorded cwd reg id role now st hlink hout hloads hgiven.2 fun hpath => hkept hpath hlink
    rw [RegistryEvent.apply, htouch]
    exact hchanged
  · exact linkChanged_of_grows (touch_unlinked hgiven.1 hlink).2 hloads

lemma event_loads (hreg : reg.dir.text ≠ []) (hout : IniOutside cwd reg) {e : RegistryEvent}
    (hloads : IniLoads cwd reg st.tree) (hgiven : EventGiven cwd reg st.tree e)
    (hkept : EventKept cwd reg staleDays st.tree e) : IniLoads cwd reg (e.apply cwd reg staleDays st).tree := by
  cases e with
  | touch now id role => exact (touch_changed hout hloads hgiven hkept).loads
  | prune now listing => exact (prune_pruned hreg hout hloads hgiven hkept).loads

lemma linkSection_ne {id' : Bytes} (h : id.text ≠ id') : linkSection id ≠ linkName id' :=
  fun hsame => h (List.append_cancel_left hsame)

/-- A touch of another link leaves this one as it is. -/
lemma LinkChanged.recorded {id' : HubText linkIdMax} {before after : FileTree}
    (h : LinkChanged cwd reg id' before after) (hout : IniOutside cwd reg) (hlink : IsLink reg id.text)
    (hlink' : IsLink reg id'.text) (hne : id.text ≠ id'.text) (hrecorded : Recorded cwd reg id entry before) :
    Recorded cwd reg id entry after := by
  refine hrecorded.kept ?_ fun k => h.sections _ k (linkSection_ne hne)
  by_contra hchanged
  rcases h.files _ hchanged with (hplace | ⟨hpath, hplace⟩) | ⟨hnone, -⟩
  · exact hlink.apart hlink' hne hplace
  · exact hlink.ini_ne hout hpath hplace
  · rw [hrecorded.shard] at hnone
    cases hnone

/-- Until it is pruned a link keeps its code and its time of creation. -/
lemma event_recorded (hreg : reg.dir.text ≠ []) (hout : IniOutside cwd reg) {e : RegistryEvent}
    (hloads : IniLoads cwd reg st.tree) (hgiven : EventGiven cwd reg st.tree e)
    (hkept : EventKept cwd reg staleDays st.tree e) (hlink : IsLink reg id.text)
    (hrecorded : Recorded cwd reg id entry st.tree) (hlive : ¬e.Prunes cwd reg staleDays st.tree id.text) :
    ∃ entry' : LinkEntry, (entry'.code = entry.code ∧ entry'.created = entry.created ∧
        entry'.lastSeen = e.seen id.text entry.lastSeen) ∧
      Recorded cwd reg id entry' (e.apply cwd reg staleDays st).tree := by
  cases e with
  | touch now id' role =>
    by_cases hsame : id.text = id'.text
    · obtain rfl := HubText.eq_of_text hsame
      obtain ⟨entry', st', htouch, ⟨-, hseen, hcreated, hcode⟩, hnext, -⟩ :=
        @touch_recorded cwd reg id role now st hlink hout hloads hgiven.2 fun hpath => hkept hpath hlink
      rw [hrecorded.fileAt_eq] at hcreated
      refine ⟨entry', ⟨LinkCode.eq_of_text ?_, TimeT.eq_of_secs ?_, ?_⟩, ?_⟩
      · have hshard := entry.shardCode_shard id
        rw [hcode _ hrecorded.fileAt_eq (by rw [hshard]; exact entry.code.given), hshard]
      · rw [hcreated]
        exact entry.shardCreated_shard id now.secs
      · rw [hseen, RegistryEvent.seen, if_pos rfl]
      · rw [RegistryEvent.apply, htouch]
        exact hnext
    · refine ⟨entry, ⟨rfl, rfl, (if_neg (Ne.symm hsame)).symm⟩, ?_⟩
      by_cases hlink' : IsLink reg id'.text
      · exact (touch_changed hout hloads hgiven hkept).recorded hout hlink hlink' hsame hrecorded
      · have hgrows := (@touch_unlinked cwd reg st id' now role hgiven.1 hlink').2
        have hini := @iniConfig_of_fileAt cwd reg _ _ fun _ => grows_fileAt hgrows reg.configPath.text
        refine hrecorded.kept ?_ fun k => iniGet_of_same hini _ k
        by_contra hchanged
        rcases hgrows _ hchanged with hno | ⟨hnone, -⟩
        · exact hno
        · rw [hrecorded.shard] at hnone
          cases hnone
  | prune now listing =>
    have hpruned := prune_pruned hreg hout hloads hgiven hkept
    have hne : ∀ id', Stale cwd reg (staleBefore staleDays now) st.tree id' → id.text ≠ id' :=
      fun id' hstale hsame => hlive (hsame ▸ hstale)
    refine ⟨entry, ⟨rfl, rfl, rfl⟩, hrecorded.kept ?_ fun k => ?_⟩
    · exact hpruned.files _ (hlink.ini_ne hout) fun id' hstale => hlink.apart hstale.link (hne id' hstale)
    · exact hpruned.sections _ k fun id' hstale => linkSection_ne (hne id' hstale)

section Kept

variable (cwd reg staleDays) (start : RegistryState) (events : List RegistryEvent)

/-- The ids are names and no call fails. -/
def RunGiven : Prop :=
  ∀ before e after, events = before ++ e :: after →
    EventGiven cwd reg (registryAfter cwd reg staleDays start before).tree e

/-- Whatever is rewritten in the INI reads back. -/
def RunReread : Prop :=
  ∀ before e after, events = before ++ e :: after →
    EventKept cwd reg staleDays (registryAfter cwd reg staleDays start before).tree e

/-- From a touch on, a link keeps its code and the time of its creation, in its shard and in the INI, until a prune finds it
stale by the time of its last touch; two links have neither a shard nor a section in common; a touch changes its own link
only, and a prune removes exactly the links that are stale. -/
structure RegistryKept : Prop where
  stable : ∀ before now id role after, events = before ++ .touch now id role :: after → IsLink reg id.text →
    ∃ (code : LinkCode) (created : TimeT) (st : RegistryState),
      (linkRegistryTouch grantingIo cwd now.secs reg id role (registryAfter cwd reg staleDays start before) =
          ⟨.ok, some code.text, st⟩ ∧
        created = now.found (fileAt cwd (registryAfter cwd reg staleDays start before).tree (shardName reg id.text))) ∧
      ∀ mid rest, after = mid ++ rest →
        (∀ first e last, mid = first ++ e :: last → ¬e.Prunes cwd reg staleDays
          (registryAfter cwd reg staleDays start (before ++ .touch now id role :: first)).tree id.text) →
        ∃ entry : LinkEntry,
          (entry.code = code ∧ entry.created = created ∧ entry.lastSeen = seenAfter id.text now mid) ∧
          Recorded cwd reg id entry (registryAfter cwd reg staleDays start (before ++ .touch now id role :: mid)).tree ∧
          lastSeenAt cwd reg (registryAfter cwd reg staleDays start (before ++ .touch now id role :: mid)).tree id.text =
            entry.lastSeen.secs
  apart : ∀ id id' : HubText linkIdMax, IsLink reg id.text → IsLink reg id'.text → id.text ≠ id'.text →
    place cwd (shardName reg id.text) ≠ place cwd (shardName reg id'.text) ∧ linkSection id ≠ linkSection id'
  touched : ∀ before now id role after, events = before ++ .touch now id role :: after →
    LinkChanged cwd reg id (registryAfter cwd reg staleDays start before).tree
      (registryAfter cwd reg staleDays start (before ++ [.touch now id role])).tree
  pruned : ∀ before now listing after, events = before ++ .prune now listing :: after →
    Pruned cwd reg (Stale cwd reg (staleBefore staleDays now) (registryAfter cwd reg staleDays start before).tree)
      (registryAfter cwd reg staleDays start before).tree
      (registryAfter cwd reg staleDays start (before ++ [.prune now listing])).tree

variable {cwd reg staleDays start events}

lemma registryAfter_concat (e : RegistryEvent) : registryAfter cwd reg staleDays start (events ++ [e]) =
    e.apply cwd reg staleDays (registryAfter cwd reg staleDays start events) := by
  rw [registryAfter, List.foldl_append]
  rfl

section Meets

variable (hreg : reg.dir.text ≠ []) (hout : IniOutside cwd reg) (hloads : IniLoads cwd reg start.tree)
  (hgiven : RunGiven cwd reg staleDays start events) (hkept : RunReread cwd reg staleDays start events)

include hreg hout hloads hgiven hkept

/-- The INI loads in every state that is reached. -/
lemma run_loads (before after : List RegistryEvent) (hevents : events = before ++ after) :
    IniLoads cwd reg (registryAfter cwd reg staleDays start before).tree := by
  induction before using List.reverseRecOn generalizing after with
  | nil => exact hloads
  | append_singleton before e ih =>
    have hsplit : events = before ++ e :: after := by rw [hevents, List.append_assoc, List.singleton_append]
    rw [registryAfter_concat]
    exact event_loads hreg hout (ih (e :: after) hsplit) (hgiven before e after hsplit) (hkept before e after hsplit)

/-- A link that is recorded stays so until it is pruned. -/
lemma run_recorded {id : HubText linkIdMax} {entry : LinkEntry} (hlink : IsLink reg id.text)
    (before mid rest : List RegistryEvent)
    (hevents : events = before ++ mid ++ rest)
    (hrecorded : Recorded cwd reg id entry (registryAfter cwd reg staleDays start before).tree)
    (hlive : ∀ first e last, mid = first ++ e :: last →
      ¬e.Prunes cwd reg staleDays (registryAfter cwd reg staleDays start (before ++ first)).tree id.text) :
    ∃ entry' : LinkEntry, (entry'.code = entry.code ∧ entry'.created = entry.created ∧
        entry'.lastSeen = seenAfter id.text entry.lastSeen mid) ∧
      Recorded cwd reg id entry' (registryAfter cwd reg staleDays start (before ++ mid)).tree := by
  induction mid using List.reverseRecOn generalizing rest with
  | nil =>
    rw [List.append_nil]
    exact ⟨entry, ⟨rfl, rfl, rfl⟩, hrecorded⟩
  | append_singleton mid e ih =>
    have hsplit : events = before ++ mid ++ e :: rest := by
      rw [hevents]
      simp
    obtain ⟨entry₁, ⟨hcode₁, hcreated₁, hseen₁⟩, hrecorded₁⟩ := ih (e :: rest) hsplit fun first f last hmid =>
      hlive first f (last ++ [e]) (by rw [hmid]; simp)
    obtain ⟨entry₂, ⟨hcode₂, hcreated₂, hseen₂⟩, hrecorded₂⟩ := event_recorded hreg hout
      (run_loads hreg hout hloads hgiven hkept (before ++ mid) (e :: rest) hsplit) (hgiven _ e rest hsplit)
      (hkept _ e rest hsplit) hlink hrecorded₁ (hlive mid e [] rfl)
    rw [← List.append_assoc, registryAfter_concat]
    refine ⟨entry₂, ⟨hcode₂.trans hcode₁, hcreated₂.trans hcreated₁, ?_⟩, hrecorded₂⟩
    rw [hseen₂, hseen₁, seenAfter, seenAfter, List.foldl_append]
    rfl

end Meets

/-- Over every run of touches and prunes the shards and the sections of the links agree, and nothing else changes. -/
theorem registry_kept (hreg : reg.dir.text ≠ []) (hout : IniOutside cwd reg) (hloads : IniLoads cwd reg start.tree)
    (hgiven : RunGiven cwd reg staleDays start events) (hkept : RunReread cwd reg staleDays start events) :
    RegistryKept cwd reg staleDays start events where
  stable before now id role after hevents hlink := by
    have hstart := run_loads hreg hout hloads hgiven hkept before _ hevents
    obtain ⟨entry, st, htouch, ⟨-, hseen, hcreated, -⟩, hrecorded, -⟩ := @touch_recorded cwd reg id role now
      (registryAfter cwd reg staleDays start before) hlink hout hstart (hgiven _ _ _ hevents).2
      fun hpath => hkept _ _ _ hevents hpath hlink
    refine ⟨entry.code, entry.created, st, ⟨htouch, hcreated⟩, fun mid rest hafter hlive => ?_⟩
    have hfirst : Recorded cwd reg id entry
        (registryAfter cwd reg staleDays start (before ++ [.touch now id role])).tree := by
      rw [registryAfter_concat, RegistryEvent.apply, htouch]
      exact hrecorded
    obtain ⟨entry', ⟨hcode', hcreated', hseen'⟩, hrecorded'⟩ :=
      run_recorded hreg hout hloads hgiven hkept hlink (before ++ [.touch now id role]) mid rest
        (by rw [hevents, hafter]; simp) hfirst fun first e last hmid => by simpa using hlive first e last hmid
    rw [List.append_assoc, List.singleton_append] at hrecorded'
    exact ⟨entry', ⟨hcode', hcreated', hseen'.trans (by rw [hseen])⟩, hrecorded', hrecorded'.lastSeenAt_eq⟩
  apart id id' hlink hlink' hne := ⟨hlink.apart hlink' hne, linkSection_ne hne⟩
  touched before now id role after hevents := by
    rw [registryAfter_concat]
    exact touch_changed hout (run_loads hreg hout hloads hgiven hkept before _ hevents) (hgiven _ _ _ hevents)
      (hkept _ _ _ hevents)
  pruned before now listing after hevents := by
    rw [registryAfter_concat]
    exact prune_pruned hreg hout (run_loads hreg hout hloads hgiven hkept before _ hevents) (hgiven _ _ _ hevents)
      (hkept _ _ _ hevents)

/-- What holds at each event of a run, one event after the other. -/
lemma forall_event_cons {P : RegistryState → RegistryEvent → Prop} {e : RegistryEvent} (hfirst : P start e)
    (hrest : ∀ before f after, events = before ++ f :: after →
      P (registryAfter cwd reg staleDays (e.apply cwd reg staleDays start) before) f) :
    ∀ before f after, e :: events = before ++ f :: after → P (registryAfter cwd reg staleDays start before) f := by
  intro before f after hevents
  cases before with
  | nil =>
    obtain ⟨rfl, -⟩ := List.cons.inj hevents
    exact hfirst
  | cons e' before =>
    obtain ⟨rfl, htail⟩ := List.cons.inj hevents
    exact hrest before f after htail

lemma RunGiven.nil : RunGiven cwd reg staleDays start [] :=
  fun before _ _ hevents => absurd hevents.symm (by simp)

lemma RunReread.nil : RunReread cwd reg staleDays start [] :=
  fun before _ _ hevents => absurd hevents.symm (by simp)

lemma RunGiven.cons {e : RegistryEvent} (hfirst : EventGiven cwd reg start.tree e)
    (hrest : RunGiven cwd reg staleDays (e.apply cwd reg staleDays start) events) :
    RunGiven cwd reg staleDays start (e :: events) :=
  forall_event_cons (P := fun st e => EventGiven cwd reg st.tree e) hfirst hrest

lemma RunReread.cons {e : RegistryEvent} (hfirst : EventKept cwd reg staleDays start.tree e)
    (hrest : RunReread cwd reg staleDays (e.apply cwd reg staleDays start) events) :
    RunReread cwd reg staleDays start (e :: events) :=
  forall_event_cons (P := fun st e => EventKept cwd reg staleDays st.tree e) hfirst hrest

lemma rereads_of_config {tree : FileTree} {config : HybbxConfig} (hconfig : iniConfig cwd reg tree = some config)
    (hplain : ∀ e ∈ config, ∀ b ∈ e.value, PlainByte b) : Rereads cwd reg tree := by
  intro s k v hv
  rw [iniGet_of_config hconfig] at hv
  obtain ⟨e, he, rfl⟩ := Option.map_eq_some_iff.mp hv
  exact safeValue_of_plain (hplain e (List.mem_of_find?_eq_some he))

end Kept

end Run

section Example

lemma hubIni_string : (0 : UInt8) ∉ ofString "/data/hybbx.ini" := by
  decide

lemma hubIni_fits : (ofString "/data/hybbx.ini").length < linkPathMax := by
  decide

def hubLinks : LinkRegistry := ⟨linksRegistry.dir, ⟨ofString "/data/hybbx.ini", hubIni_string, hubIni_fits⟩⟩

/-- The link `a` was seen long ago. -/
def hubTree (ini : String) : FileTree := fun name =>
  if name = ofString "/data" ∨ name = ofString "/data/links" then some .dir
  else if name = ofString "/data/links/a.ini" then
    some (.file (ofString "id=a\nrole=link\nlink_code=ABC\ncreated=50\nlast_seen=100\n"))
  else if name = ofString "/data/hybbx.ini" then some (.file (ofString ini))
  else none

def plainHub : RegistryState :=
  ⟨hubTree "[hub]\nname = main\n\n[link.a]\nrole = link\nlink_code = ABC\nlast_seen = 100\n", [], 1⟩

def quotedHub : RegistryState := ⟨hubTree "[hub]\nmotd = \"73; welcome\"\n", [], 1⟩

lemma oneB : nl ∉ ofString "b" ∧ 0 ∉ ofString "b" ∧ (ofString "b").length < linkIdMax := by
  decide

lemma oneRole : nl ∉ ofString "link" ∧ 0 ∉ ofString "link" ∧ (ofString "link").length < linkRoleMax := by
  decide

def linkB : HubText linkIdMax := ⟨ofString "b", oneB.1, oneB.2.1, oneB.2.2⟩

def plainRole : HubText linkRoleMax := ⟨ofString "link", oneRole.1, oneRole.2.1, oneRole.2.2⟩

lemma million_bounds : (-2 ^ 63 : ℤ) ≤ 1000000 ∧ (1000000 : ℤ) < 2 ^ 63 := by
  decide

def million : TimeT := ⟨1000000, million_bounds.1, million_bounds.2⟩

def pruneA : RegistryEvent := .prune million (some [dot, dotdot, ofString "a.ini"])

def touchB : RegistryEvent := .touch million linkB plainRole

lemma childPlace_hub (name : Bytes) : childPlace [] hubLinks name = ofString "/data/links/" ++ name := by
  have hdir : resolve [] (hubLinks.dir.text ++ [slash]) = [ofString "links", ofString "data"] := by decide +kernel
  have hpath : absolute [ofString "links", ofString "data"] ++ [slash] = ofString "/data/links/" := by decide +kernel
  rw [childPlace, hdir, ← hpath]
  simp [absolute]

lemma hubIni_outside : IniOutside [] hubLinks := by
  intro _ name _ hsame
  have hplace : (place [] hubLinks.configPath.text).take 7 ≠ (ofString "/data/links/").take 7 := by decide +kernel
  rw [hsame, childPlace_hub, List.take_append_of_le_length (by decide)] at hplace
  exact hplace rfl

lemma hubTree_lists (ini : String) : Lists [] hubLinks (hubTree ini) (some [dot, dotdot, ofString "a.ini"]) := by
  constructor
  · decide +kernel
  · intro name _ hsome
    rw [childPlace_hub, hubTree] at hsome
    have hlong : 12 ≤ (ofString "/data/links/" ++ name).length := by
      rw [List.length_append]
      exact Nat.le_add_right 12 _
    split_ifs at hsome with hdir ha hini
    · rcases hdir with hdir | hdir <;> rw [hdir] at hlong <;> exact absurd hlong (by decide)
    · have hsplit : ofString "/data/links/a.ini" = ofString "/data/links/" ++ ofString "a.ini" := by decide +kernel
      rw [hsplit] at ha
      rw [List.append_cancel_left ha]
      simp
    · have hplace : (ofString "/data/hybbx.ini").take 7 ≠ (ofString "/data/links/").take 7 := by decide +kernel
      rw [← hini, List.take_append_of_le_length (by decide)] at hplace
      exact absurd rfl hplace
    · cases hsome

/-- After the prune nothing but the station's own name is left in the INI. -/
lemma plainHub_pruned :
    iniConfig [] hubLinks (pruneA.apply [] hubLinks 10 plainHub).tree =
      some [⟨ofString "hub", ofString "name", ofString "main"⟩] ∧
      fileAt [] (pruneA.apply [] hubLinks 10 plainHub).tree (shardName hubLinks linkB.text) = none := by
  decide +kernel

theorem registry_kept_staleLink : RegistryKept [] hubLinks 10 plainHub [pruneA, touchB] := by
  have hpruned := plainHub_pruned
  have hstart : iniConfig [] hubLinks plainHub.tree = some [⟨ofString "hub", ofString "name", ofString "main"⟩,
      ⟨ofString "link.a", ofString "role", ofString "link"⟩, ⟨ofString "link.a", ofString "link_code", ofString "ABC"⟩,
      ⟨ofString "link.a", ofString "last_seen", ofString "100"⟩] := by decide +kernel
  have htouch : TouchKept [] hubLinks linkB plainRole (pruneA.apply [] hubLinks 10 plainHub).tree := by
    refine ⟨⟨by decide, by decide⟩, safeValue_of_plain (by decide +kernel), fun file hfile => ?_,
      rereads_of_config hpruned.1 (by decide +kernel)⟩
    rw [hpruned.2] at hfile
    cases hfile
  have hgiven : RunGiven [] hubLinks 10 plainHub [pruneA, touchB] :=
    .cons (hubTree_lists _) (.cons ⟨by decide, by decide +kernel⟩ .nil)
  have hkept : RunReread [] hubLinks 10 plainHub [pruneA, touchB] :=
    .cons (fun _ _ => rereads_of_config hstart (by decide +kernel)) (.cons (fun _ _ => htouch) .nil)
  exact registry_kept (by decide) hubIni_outside (fun _ => by rw [hstart]; rfl) hgiven hkept

/-- A prune that drops the link `a` cuts off what the quotes of another section protect. -/
theorem prune_drops_quotes :
    (IniOutside [] hubLinks ∧ IniLoads [] hubLinks quotedHub.tree ∧ RunGiven [] hubLinks 10 quotedHub [pruneA]) ∧
      (iniGet [] hubLinks quotedHub.tree (ofString "hub") (ofString "motd") = some (ofString "73; welcome") ∧
        iniGet [] hubLinks (registryAfter [] hubLinks 10 quotedHub [pruneA]).tree (ofString "hub") (ofString "motd") =
          some (ofString "73")) ∧
      ¬RegistryKept [] hubLinks 10 quotedHub [pruneA] := by
  have hbefore : iniGet [] hubLinks quotedHub.tree (ofString "hub") (ofString "motd") =
      some (ofString "73; welcome") := by
    decide +kernel
  have hafter : iniGet [] hubLinks (registryAfter [] hubLinks 10 quotedHub [pruneA]).tree (ofString "hub") (ofString "motd") =
      some (ofString "73") := by
    decide +kernel
  have hloads : (iniConfig [] hubLinks quotedHub.tree).isSome := by decide +kernel
  refine ⟨⟨hubIni_outside, fun _ => hloads, RunGiven.cons (hubTree_lists _) RunGiven.nil⟩, ⟨hbefore, hafter⟩,
    fun h => ?_⟩
  have hsame := (h.pruned [] _ _ [] rfl).sections (ofString "hub") (ofString "motd") fun id _ hname => ?_
  · rw [List.nil_append] at hsame
    exact absurd (hafter.symm.trans (hsame.trans hbefore)) (by decide)
  · have hlen := congrArg List.length hname
    rw [linkName, List.length_append] at hlen
    exact absurd hlen (by have : (ofString "link.").length = 5 := rfl; have : (ofString "hub").length = 3 := rfl; omega)

end Example

end HyBBX.Circuit
