import HyBBX.Config.Handoff
import HyBBX.Lib.Transducer

/-! The transport plugins: which of them an instance wants, and how they are loaded, started, stopped and shut down. -/

namespace HyBBX.Config

open HyBBX.Core Lib Lib.Bytes Lib.Text

inductive InstanceRole
  | main
  | secondary
  | proxy
  deriving DecidableEq

structure NetworksConfig where
  telnet : Bool
  ax25 : Bool
  baycom : Bool
  ardop : Bool
  crdop : Bool
  ssh : Bool
  websocket : Bool
  circuit : Bool
  mainsProxy : Bool
  deriving DecidableEq

def networksConfigDefaults : NetworksConfig := ⟨true, false, false, false, false, false, false, true, false⟩

def networksSection : Bytes := ofString "networks"

def networksHasKey (config : HybbxConfig) (key : String) : Bool :=
  (configGet config networksSection (ofString key)).getD [] ≠ []

def networksBool (config : HybbxConfig) (key : String) (defaultValue : Bool) : Bool :=
  configGetBool config networksSection (ofString key) defaultValue

/-- A switch that is read only if it is there. -/
def networksKeyed (config : HybbxConfig) (key : String) (defaultValue unset : Bool) : Bool :=
  if networksHasKey config key then networksBool config key defaultValue else unset

def networksConfigApply (config : HybbxConfig) : NetworksConfig where
  telnet := networksKeyed config "telnet" true networksConfigDefaults.telnet
  ax25 := networksBool config "ax25" false
  baycom := networksKeyed config "baycom" false networksConfigDefaults.baycom
  ardop := networksKeyed config "ardop" false networksConfigDefaults.ardop
  crdop := networksKeyed config "crdop" false networksConfigDefaults.crdop
  ssh := networksBool config "ssh" false
  websocket := networksBool config "websocket" false
  circuit :=
    if networksHasKey config "circuit" then networksBool config "circuit" true
    else configGetBool config (ofString "circuit") enabledKey true
  mainsProxy := networksKeyed config "mains_proxy" false networksConfigDefaults.mainsProxy

def isNamed (pluginName : Bytes) (names : List String) : Bool := names.any fun name => strIeq pluginName (ofString name)

def instancePluginAllowed (role : InstanceRole) (pluginName : Bytes) : Bool :=
  if pluginName = [] then false
  else if isNamed pluginName ["packet_radio", "baycom", "ardop", "crdop"] then false
  else match role with
    | .main => isNamed pluginName ["websocket", "mains_proxy"]
    | .proxy =>
      if isNamed pluginName ["websocket", "mains_proxy"] then false else isNamed pluginName ["telnet", "ssh"]
    | .secondary => isNamed pluginName ["telnet", "ssh", "mains_proxy"]

def networksEnforceInstance (role : InstanceRole) (networks : NetworksConfig) : NetworksConfig :=
  let networks := { networks with ax25 := false, baycom := false, ardop := false, crdop := false }
  match role with
  | .main => { networks with telnet := false, ssh := false, websocket := true, circuit := true, mainsProxy := true }
  | .secondary => { networks with websocket := false, circuit := false, mainsProxy := true }
  | .proxy => { networks with websocket := false, mainsProxy := false }

def networksIsStaticTransport (role : InstanceRole) (pluginName : Bytes) : Bool :=
  match role with
  | .main => isNamed pluginName ["websocket"]
  | .secondary => isNamed pluginName ["mains_proxy"]
  | .proxy => false

def networksTransportWanted (role : InstanceRole) (pluginName : Bytes) (networks : NetworksConfig) : Bool :=
  if pluginName = [] then false
  else if instancePluginAllowed role pluginName = false then false
  else if networksIsStaticTransport role pluginName then true
  else if isNamed pluginName ["telnet"] then networks.telnet
  else if isNamed pluginName ["packet_radio"] then networks.ax25
  else if isNamed pluginName ["baycom"] then networks.baycom
  else if isNamed pluginName ["ardop"] then networks.ardop
  else if isNamed pluginName ["crdop"] then networks.crdop
  else if isNamed pluginName ["ssh"] then networks.ssh
  else if isNamed pluginName ["websocket"] then networks.websocket
  else if isNamed pluginName ["mains_proxy"] then networks.mainsProxy
  else false

/-- The section of a plugin, or its first numbered one. -/
def configResolveTransportSection (config : HybbxConfig) (pluginName : Bytes) : Bytes :=
  let front := transportPrefix pluginName
  let wanted (s : Bytes) : Bool :=
    front.isPrefixOf s && configSuffixIsDigits (s.drop front.length) && configSectionHasKeys config s
  if configSectionHasKeys config front then front
  else (((config.map ConfigEntry.sectionName).find? wanted).map (strlcpy 128)).getD front

def transportConfig (config : HybbxConfig) (pluginName : Bytes) : Bytes :=
  if pluginName = ofString "packet_radio" then
    configPrependPacketRadioMax25 config (configFormatTransportSections config pluginName)
  else if pluginName = ofString "baycom" ∨ pluginName = ofString "mains_proxy" then
    configFormatTransportSections config pluginName
  else configFormatSection config (configResolveTransportSection config pluginName)

/-! The plugins, by the pointers to their records. -/

def maxPlugins : ℕ := 16
def maxActiveTransports : ℕ := 8

/-- The record of a plugin: its name, and which of its functions there are. -/
structure TransportPlugin where
  name : Bytes
  hasInit : Bool
  hasShutdown : Bool
  hasStart : Bool
  hasStop : Bool

structure ActiveTransport (π : Type*) where
  plugin : π
  running : Bool

structure TransportService (π : Type*) where
  registry : List π
  transports : List (ActiveTransport π)

/-- A call of one of the functions of a plugin, with its answer. -/
inductive PluginCall
  | init (rc : HybbxResult)
  | start (config : Bytes) (rc : HybbxResult)
  | stop (rc : HybbxResult)
  | shutdown
  deriving DecidableEq

section Operations

variable {π : Type*} [DecidableEq π] (plugin : π → TransportPlugin)

def registryFind (registry : List π) (name : Bytes) : Option π := registry.find? fun p => (plugin p).name = name

def registryRegister (registry : List π) (p : π) : HybbxResult × List π :=
  if (registryFind plugin registry (plugin p).name).isSome then (.errBusy, registry)
  else if maxPlugins ≤ registry.length then (.errNomem, registry)
  else (.ok, registry ++ [p])

def registryUnregister (registry : List π) (name : Bytes) : HybbxResult × List π :=
  match registryFind plugin registry name with
  | none => (.errNotFound, registry)
  | some _ => (.ok, registry.eraseP fun p => (plugin p).name = name)

abbrev TransportAnswer (π : Type*) := HybbxResult × TransportService π × List (π × PluginCall)

/-- `rc` is what `init` answers. -/
def serviceLoadTransport (svc : TransportService π) (name : Bytes) (rc : HybbxResult) : TransportAnswer π :=
  match registryFind plugin svc.registry name with
  | none => (.errNotFound, svc, [])
  | some p =>
    if p ∈ svc.transports.map ActiveTransport.plugin then (.ok, svc, [])
    else if maxActiveTransports ≤ svc.transports.length then (.errNomem, svc, [])
    else
      let calls := if (plugin p).hasInit then [(p, .init rc)] else []
      if (plugin p).hasInit ∧ rc ≠ .ok then (rc, svc, calls)
      else (.ok, { svc with transports := svc.transports ++ [⟨p, false⟩] }, calls)

def findActive (svc : TransportService π) (name : Bytes) : Option (ActiveTransport π) :=
  svc.transports.find? fun active => (plugin active.plugin).name = name

/-- The entry of a plugin; it has no other. -/
def setRunning (svc : TransportService π) (p : π) (running : Bool) : TransportService π :=
  { svc with transports := svc.transports.map fun active => if active.plugin = p then ⟨p, running⟩ else active }

def serviceStartTransport (svc : TransportService π) (name config : Bytes) (rc : HybbxResult) : TransportAnswer π :=
  match findActive plugin svc name with
  | none => (.errNotFound, svc, [])
  | some active =>
    if active.running then (.errBusy, svc, [])
    else if (plugin active.plugin).hasStart = false then (.errUnsupported, svc, [])
    else if rc ≠ .ok then (rc, svc, [(active.plugin, .start config rc)])
    else (.ok, setRunning svc active.plugin true, [(active.plugin, .start config rc)])

def serviceStopTransport (svc : TransportService π) (name : Bytes) (rc : HybbxResult) : TransportAnswer π :=
  match findActive plugin svc name with
  | none => (.errNotFound, svc, [])
  | some active =>
    if active.running = false then (.ok, svc, [])
    else
      let calls := if (plugin active.plugin).hasStop then [(active.plugin, .stop rc)] else []
      if (plugin active.plugin).hasStop ∧ rc ≠ .ok then (rc, svc, calls)
      else (.ok, setRunning svc active.plugin false, calls)

/-- The calls that `hybbx_service_destroy` makes for a transport; the answer of `stop` does not count. -/
def destroyCalls (stops : π → HybbxResult) (active : ActiveTransport π) : List (π × PluginCall) :=
  (if active.running ∧ (plugin active.plugin).hasStop then [(active.plugin, .stop (stops active.plugin))] else []) ++
    if (plugin active.plugin).hasShutdown then [(active.plugin, .shutdown)] else []

/-- The answers of `init` and of `start`. -/
structure PluginAnswers where
  init : HybbxResult
  start : HybbxResult

/-- What a configuration says about a plugin: whether it is to be started at all. -/
def transportEnabled (role : InstanceRole) (config : HybbxConfig) (name : Bytes) : Bool :=
  networksTransportWanted role name (networksEnforceInstance role (networksConfigApply config)) &&
    (networksIsStaticTransport role name ||
      configGetBool config (configResolveTransportSection config name) enabledKey true)

/-- `apply_transport_cb`, with the last error of a transport that has to start. -/
def applyTransport (role : InstanceRole) (config : HybbxConfig) (answers : π → PluginAnswers)
    (r : TransportAnswer π) (p : π) : TransportAnswer π :=
  let (lastError, svc, calls) := r
  let name := (plugin p).name
  let failed := fun rc => if networksIsStaticTransport role name then rc else lastError
  if transportEnabled role config name = false then r
  else match serviceLoadTransport plugin svc name (answers p).init with
    | (.ok, svc, loading) =>
      match serviceStartTransport plugin svc name (transportConfig config name) (answers p).start with
      | (.ok, svc, starting) => (lastError, svc, calls ++ loading ++ starting)
      | (rc, svc, starting) => (failed rc, svc, calls ++ loading ++ starting)
    | (rc, svc, loading) => (failed rc, svc, calls ++ loading)

def applyTransports (role : InstanceRole) (config : HybbxConfig) (answers : π → PluginAnswers)
    (svc : TransportService π) : TransportAnswer π :=
  svc.registry.foldl (applyTransport plugin role config answers) (.ok, svc, [])

inductive TransportOp (π : Type*)
  | register (p : π)
  | unregister (name : Bytes)
  | load (name : Bytes) (rc : HybbxResult)
  | start (name config : Bytes) (rc : HybbxResult)
  | stop (name : Bytes) (rc : HybbxResult)
  | apply (config : HybbxConfig) (answers : π → PluginAnswers)

def transportStep (role : InstanceRole) (svc : TransportService π) :
    TransportOp π → TransportService π × List (π × PluginCall)
  | .register p => ({ svc with registry := (registryRegister plugin svc.registry p).2 }, [])
  | .unregister name => ({ svc with registry := (registryUnregister plugin svc.registry name).2 }, [])
  | .load name rc => (serviceLoadTransport plugin svc name rc).2
  | .start name config rc => (serviceStartTransport plugin svc name config rc).2
  | .stop name rc => (serviceStopTransport plugin svc name rc).2
  | .apply config answers => (applyTransports plugin role config answers svc).2

def TransportService.start : TransportService π := ⟨[], []⟩

end Operations

/-! What becomes of a plugin when a configuration is applied, by itself. -/

section Alone

variable (t : TransportPlugin) (answers : PluginAnswers)

def TransportPlugin.loads : Bool := t.hasInit = false || answers.init = .ok

def TransportPlugin.failure : Option HybbxResult :=
  if t.loads answers = false then some answers.init
  else if t.hasStart = false then some .errUnsupported
  else if answers.start ≠ .ok then some answers.start
  else none

def TransportPlugin.ownCalls (text : Bytes) : List PluginCall :=
  (if t.hasInit then [.init answers.init] else []) ++
    if t.loads answers ∧ t.hasStart then [.start text answers.start] else []

end Alone

section Own

variable {π : Type*} (plugin : π → TransportPlugin)

def ownEntries (role : InstanceRole) (config : HybbxConfig) (answers : π → PluginAnswers) (p : π) :
    List (ActiveTransport π) :=
  if transportEnabled role config (plugin p).name ∧ (plugin p).loads (answers p) then
    [⟨p, (plugin p).failure (answers p) = none⟩]
  else []

def ownError (role : InstanceRole) (config : HybbxConfig) (answers : π → PluginAnswers) (p : π) : Option HybbxResult :=
  if transportEnabled role config (plugin p).name ∧ networksIsStaticTransport role (plugin p).name then
    (plugin p).failure (answers p)
  else none

def ownCallsOf (role : InstanceRole) (config : HybbxConfig) (answers : π → PluginAnswers) (p : π) :
    List (π × PluginCall) :=
  if transportEnabled role config (plugin p).name then
    ((plugin p).ownCalls (answers p) (transportConfig config (plugin p).name)).map fun c => (p, c)
  else []

variable {plugin}

lemma registryFind_self {registry : List π} (hnames : (registry.map fun p => (plugin p).name).Nodup) {p : π}
    (hp : p ∈ registry) : registryFind plugin registry (plugin p).name = some p := by
  induction registry with
  | nil => cases hp
  | cons q registry ih =>
    rw [List.map_cons, List.nodup_cons] at hnames
    rcases List.mem_cons.mp hp with rfl | hmem
    · simp [registryFind]
    · have hne : (plugin q).name ≠ (plugin p).name := fun heq => hnames.1 (List.mem_map.mpr ⟨p, hmem, heq.symm⟩)
      have hrest := ih hnames.2 hmem
      rw [registryFind] at hrest ⊢
      rw [List.find?_cons_of_neg (by simpa using hne), hrest]

lemma mem_ownEntries {role : InstanceRole} {config : HybbxConfig} {answers : π → PluginAnswers} {p : π}
    {active : ActiveTransport π} (h : active ∈ ownEntries plugin role config answers p) : active.plugin = p := by
  rw [ownEntries] at h
  split_ifs at h <;> simp_all

lemma length_ownEntries (plugin : π → TransportPlugin) (role : InstanceRole) (config : HybbxConfig)
    (answers : π → PluginAnswers) (before : List π) :
    (before.flatMap (ownEntries plugin role config answers)).length ≤
      (before.filter fun p => transportEnabled role config (plugin p).name).length := by
  induction before with
  | nil => exact le_rfl
  | cons p before ih =>
    rw [List.flatMap_cons, List.length_append, List.filter_cons, ownEntries]
    split_ifs <;> simp_all <;> omega

end Own

/-! What a plugin is promised about the calls of its functions. -/

structure PluginUse where
  inited : Bool
  started : Bool
  stopTried : Bool
  gone : Bool
  deriving DecidableEq

/-- A plugin without `init` needs none. -/
def PluginUse.fresh (t : TransportPlugin) : PluginUse := ⟨!t.hasInit, false, false, false⟩

/-- `init` until it answers that it worked; `start` between `init` and `shutdown`, and not while it is started; `stop`
only while it is started; `shutdown` once, at the end, behind a `stop` if it is started. -/
def usePlugin (t : TransportPlugin) (u : PluginUse) : PluginCall → Option PluginUse
  | .init rc => if t.hasInit ∧ u.inited = false ∧ u.gone = false then some { u with inited := rc = .ok } else none
  | .start _ rc =>
    if t.hasStart ∧ u.inited ∧ u.gone = false ∧ (t.hasStop → u.started = false) then
      some { u with started := u.started || rc = .ok, stopTried := false }
    else none
  | .stop rc =>
    if t.hasStop ∧ u.started ∧ u.gone = false then some { u with started := rc ≠ .ok, stopTried := true } else none
  | .shutdown =>
    if t.hasShutdown ∧ u.inited ∧ u.gone = false ∧ (t.hasStop → u.started → u.stopTried) then
      some { u with gone := true }
    else none

/-- The calls to a loaded plugin at the end. -/
def endCalls (t : TransportPlugin) (running : Bool) (rc : HybbxResult) : List PluginCall :=
  (if running ∧ t.hasStop then [.stop rc] else []) ++ if t.hasShutdown then [.shutdown] else []

lemma destroyCalls_snd {π : Type*} {plugin : π → TransportPlugin} (stops : π → HybbxResult) (p : π) (running : Bool) :
    (destroyCalls plugin stops ⟨p, running⟩).map Prod.snd = endCalls (plugin p) running (stops p) := by
  rw [destroyCalls, endCalls]
  split_ifs <;> rfl

section Lives

variable {π : Type*} [DecidableEq π] {plugin : π → TransportPlugin}

def callsOf (p : π) (calls : List (π × PluginCall)) : List PluginCall :=
  calls.filterMap fun c => if c.1 = p then some c.2 else none

lemma callsOf_append (p : π) (xs ys : List (π × PluginCall)) : callsOf p (xs ++ ys) = callsOf p xs ++ callsOf p ys :=
  List.filterMap_append

@[simp] lemma callsOf_nil (p : π) : callsOf p [] = [] := rfl

lemma callsOf_self (p : π) (calls : List PluginCall) : callsOf p (calls.map fun c => (p, c)) = calls := by
  simp [callsOf, List.filterMap_map]

lemma callsOf_other {p q : π} (h : q ≠ p) (calls : List PluginCall) : callsOf p (calls.map fun c => (q, c)) = [] := by
  simp [callsOf, List.filterMap_map, h]

/-- Whether a plugin is loaded, and then whether it runs. -/
def entry (transports : List (ActiveTransport π)) (p : π) : Option Bool :=
  (transports.find? fun active => active.plugin = p).map ActiveTransport.running

lemma entry_none {transports : List (ActiveTransport π)} {p : π} (h : p ∉ transports.map ActiveTransport.plugin) :
    entry transports p = none := by
  rw [entry, Option.map_eq_none_iff, List.find?_eq_none]
  intro active hactive heq
  exact h (List.mem_map.mpr ⟨active, hactive, by simpa using heq⟩)

lemma entry_append (transports : List (ActiveTransport π)) (active : ActiveTransport π)
    (h : active.plugin ∉ transports.map ActiveTransport.plugin) (q : π) :
    entry (transports ++ [active]) q = if q = active.plugin then some active.running else entry transports q := by
  split_ifs with hq
  · subst hq
    have hnone := entry_none h
    rw [entry, Option.map_eq_none_iff] at hnone
    simp [entry, List.find?_append, hnone]
  · have hne : ¬active.plugin = q := Ne.symm hq
    simp [entry, List.find?_append, hne]

lemma entry_setRunning (svc : TransportService π) (p : π) (running : Bool) (q : π) :
    entry (setRunning svc p running).transports q =
      if q = p then (entry svc.transports q).map fun _ => running else entry svc.transports q := by
  have hmap : ∀ transports : List (ActiveTransport π),
      entry (transports.map fun active => if active.plugin = p then ⟨p, running⟩ else active) q =
        if q = p then (entry transports q).map fun _ => running else entry transports q := by
    intro transports
    induction transports with
    | nil => simp [entry]
    | cons active transports ih =>
      simp only [entry, List.map_cons, List.find?_cons] at ih ⊢
      grind
  exact hmap svc.transports

lemma entry_of_mem {transports : List (ActiveTransport π)} (h : (transports.map ActiveTransport.plugin).Nodup)
    {active : ActiveTransport π} (hactive : active ∈ transports) :
    entry transports active.plugin = some active.running := by
  induction transports with
  | nil => cases hactive
  | cons first transports ih =>
    rw [List.map_cons, List.nodup_cons] at h
    rcases List.mem_cons.mp hactive with rfl | hmem
    · simp [entry]
    · have hne : ¬first.plugin = active.plugin := fun heq => h.1 (heq ▸ List.mem_map_of_mem hmem)
      have hrest := ih h.2 hmem
      rw [entry] at hrest ⊢
      rw [List.find?_cons_of_neg (by simpa using hne), hrest]

/-- How far a plugin is, as the service has it down. -/
def Abreast (t : TransportPlugin) (u : PluginUse) : Option Bool → Prop
  | none => u = .fresh t
  | some running => u.inited = true ∧ u.gone = false ∧ (running = true → u.started = true) ∧
      (t.hasStop = true → u.started = true → running = true)

/-- Every plugin has been used as it is promised, and is where the service has it down. -/
structure Kept (plugin : π → TransportPlugin) (svc : TransportService π) (calls : List (π × PluginCall)) : Prop where
  nodup : (svc.transports.map ActiveTransport.plugin).Nodup
  used : ∀ p, ∃ u, List.foldlM (usePlugin (plugin p)) (PluginUse.fresh (plugin p)) (callsOf p calls) = some u ∧
    Abreast (plugin p) u (entry svc.transports p)

/-- An operation on one plugin. -/
lemma Kept.touch {svc svc' : TransportService π} {calls : List (π × PluginCall)} (h : Kept plugin svc calls) (p : π)
    (more : List PluginCall) (hnodup : (svc'.transports.map ActiveTransport.plugin).Nodup)
    (hothers : ∀ q, q ≠ p → entry svc'.transports q = entry svc.transports q)
    (hp : ∀ u, Abreast (plugin p) u (entry svc.transports p) →
      ∃ u', List.foldlM (usePlugin (plugin p)) u more = some u' ∧ Abreast (plugin p) u' (entry svc'.transports p)) :
    Kept plugin svc' (calls ++ more.map fun c => (p, c)) where
  nodup := hnodup
  used q := by
    obtain ⟨u, hu, hfits⟩ := h.used q
    by_cases hq : q = p
    · subst hq
      obtain ⟨u', hu', hfits'⟩ := hp u hfits
      refine ⟨u', ?_, hfits'⟩
      rw [callsOf_append, callsOf_self, List.foldlM_append, hu]
      exact hu'
    · refine ⟨u, ?_, ?_⟩
      · rw [callsOf_append, callsOf_other (Ne.symm hq), List.append_nil]
        exact hu
      · rw [hothers q hq]
        exact hfits

lemma plugins_setRunning (svc : TransportService π) (p : π) (running : Bool) :
    (setRunning svc p running).transports.map ActiveTransport.plugin = svc.transports.map ActiveTransport.plugin := by
  rw [setRunning, List.map_map]
  refine List.map_congr_left fun active _ => ?_
  by_cases hp : active.plugin = p <;> simp [hp]

/-- A plugin that is loaded, with the call that it takes. -/
lemma Kept.append {svc : TransportService π} {calls : List (π × PluginCall)} (h : Kept plugin svc calls) {p : π}
    (hloaded : p ∉ svc.transports.map ActiveTransport.plugin) (more : List PluginCall) (u' : PluginUse)
    (hinited : u'.inited = true) (hstarted : u'.started = false) (hgone : u'.gone = false)
    (hmore : List.foldlM (usePlugin (plugin p)) (.fresh (plugin p)) more = some u') :
    Kept plugin { svc with transports := svc.transports ++ [⟨p, false⟩] } (calls ++ more.map fun c => (p, c)) := by
  have happend := entry_append svc.transports ⟨p, false⟩ hloaded
  refine h.touch p more ?_ (fun q hq => by rw [happend, if_neg hq]) fun u hu => ?_
  · rw [List.map_append, List.map_singleton]
    exact h.nodup.append (List.nodup_singleton p) (by simpa using hloaded)
  · rw [entry_none hloaded] at hu
    obtain rfl : u = .fresh (plugin p) := hu
    refine ⟨u', hmore, ?_⟩
    rw [happend, if_pos rfl]
    exact ⟨hinited, hgone, nofun, fun _ hs => absurd (hstarted.symm.trans hs) Bool.false_ne_true⟩

lemma Kept.load {svc : TransportService π} {calls : List (π × PluginCall)} (h : Kept plugin svc calls) (name : Bytes)
    (rc : HybbxResult) :
    Kept plugin (serviceLoadTransport plugin svc name rc).2.1
      (calls ++ (serviceLoadTransport plugin svc name rc).2.2) := by
  rw [serviceLoadTransport]
  cases registryFind plugin svc.registry name with
  | none => simpa using h
  | some p =>
    dsimp only
    by_cases hloaded : p ∈ svc.transports.map ActiveTransport.plugin
    · simpa [hloaded] using h
    by_cases hfull : maxActiveTransports ≤ svc.transports.length
    · simpa [hloaded, hfull] using h
    rw [if_neg hloaded, if_neg hfull]
    have hnone := entry_none hloaded
    cases hinit : (plugin p).hasInit with
    | false =>
      have hkept := h.append hloaded [] (.fresh (plugin p)) (by simp [PluginUse.fresh, hinit]) rfl rfl rfl
      simpa using hkept
    | true =>
      by_cases hrc : rc = .ok
      · have hkept := h.append hloaded [.init rc] { PluginUse.fresh (plugin p) with inited := true } rfl rfl rfl
          (by simp [usePlugin, PluginUse.fresh, hinit, hrc])
        simpa [hrc] using hkept
      · have hkept := h.touch p [.init rc] h.nodup (fun _ _ => rfl) fun u hu => by
          refine ⟨u, ?_, hu⟩
          rw [hnone] at hu
          obtain rfl : u = .fresh (plugin p) := hu
          simp [usePlugin, PluginUse.fresh, hinit, hrc]
        simpa [hrc] using hkept

lemma findActive_entry {svc : TransportService π} (hnodup : (svc.transports.map ActiveTransport.plugin).Nodup)
    {name : Bytes} {active : ActiveTransport π} (h : findActive plugin svc name = some active) :
    entry svc.transports active.plugin = some active.running :=
  entry_of_mem hnodup (List.mem_of_find?_eq_some h)

/-- An entry that is switched on or off, with the call that it takes. -/
lemma Kept.switch {svc : TransportService π} {calls : List (π × PluginCall)} (h : Kept plugin svc calls)
    {active : ActiveTransport π} (hactive : entry svc.transports active.plugin = some active.running)
    (running : Bool) (more : List PluginCall)
    (hmore : ∀ u, Abreast (plugin active.plugin) u (some active.running) →
      ∃ u', List.foldlM (usePlugin (plugin active.plugin)) u more = some u' ∧
        Abreast (plugin active.plugin) u' (some running)) :
    Kept plugin (setRunning svc active.plugin running) (calls ++ more.map fun c => (active.plugin, c)) := by
  refine h.touch active.plugin more ?_ (fun q hq => ?_) fun u hu => ?_
  · rw [plugins_setRunning]
    exact h.nodup
  · rw [entry_setRunning, if_neg hq]
  · rw [hactive] at hu
    obtain ⟨u', hu', hfits⟩ := hmore u hu
    refine ⟨u', hu', ?_⟩
    rwa [entry_setRunning, if_pos rfl, hactive]

/-- A call that changes nothing in what the service has down. -/
lemma Kept.failed {svc : TransportService π} {calls : List (π × PluginCall)} (h : Kept plugin svc calls)
    {active : ActiveTransport π} (hactive : entry svc.transports active.plugin = some active.running)
    (call : PluginCall) (hcall : ∀ u, Abreast (plugin active.plugin) u (some active.running) →
      ∃ u', usePlugin (plugin active.plugin) u call = some u' ∧
        Abreast (plugin active.plugin) u' (some active.running)) :
    Kept plugin svc (calls ++ [(active.plugin, call)]) := by
  refine h.touch active.plugin [call] h.nodup (fun _ _ => rfl) fun u hu => ?_
  rw [hactive] at hu ⊢
  obtain ⟨u', hu', hfits⟩ := hcall u hu
  exact ⟨u', by simp [hu'], hfits⟩

lemma Kept.start {svc : TransportService π} {calls : List (π × PluginCall)} (h : Kept plugin svc calls)
    (name config : Bytes) (rc : HybbxResult) :
    Kept plugin (serviceStartTransport plugin svc name config rc).2.1
      (calls ++ (serviceStartTransport plugin svc name config rc).2.2) := by
  rw [serviceStartTransport]
  cases hfind : findActive plugin svc name with
  | none => simpa using h
  | some active =>
    have hentry := findActive_entry h.nodup hfind
    dsimp only
    split_ifs with hruns hstart hrc
    · simpa using h
    · simpa using h
    · refine h.failed hentry _ fun u hu => ⟨{ u with stopTried := false }, ?_, ?_⟩
      all_goals
        obtain ⟨hinited, hgone, hup, hdown⟩ := hu
        simp only [Abreast, usePlugin] at *
        grind
    · refine h.switch hentry true [.start config rc] fun u hu =>
        ⟨{ u with started := true, stopTried := false }, ?_, ?_⟩
      all_goals
        obtain ⟨hinited, hgone, hup, hdown⟩ := hu
        simp only [Abreast, usePlugin, List.foldlM_cons, List.foldlM_nil] at *
        grind

lemma Kept.stop {svc : TransportService π} {calls : List (π × PluginCall)} (h : Kept plugin svc calls) (name : Bytes)
    (rc : HybbxResult) :
    Kept plugin (serviceStopTransport plugin svc name rc).2.1
      (calls ++ (serviceStopTransport plugin svc name rc).2.2) := by
  rw [serviceStopTransport]
  cases hfind : findActive plugin svc name with
  | none => simpa using h
  | some active =>
    have hentry := findActive_entry h.nodup hfind
    dsimp only
    cases hruns : active.running with
    | false => simpa using h
    | true =>
      cases hstop : (plugin active.plugin).hasStop with
      | false =>
        have hkept := h.switch hentry false [] fun u hu => ⟨u, rfl, hu.1, hu.2.1, nofun, by simp [hstop]⟩
        simpa using hkept
      | true =>
        by_cases hrc : rc = .ok
        · have hkept := h.switch hentry false [.stop rc] fun u hu =>
            ⟨{ u with started := false, stopTried := true }, by
              obtain ⟨hinited, hgone, hup, -⟩ := hu
              simp [usePlugin, hstop, hgone, hup hruns, hrc], hu.1, hu.2.1, nofun, nofun⟩
          simpa [hrc] using hkept
        · have hkept := h.failed hentry (.stop rc) fun u hu =>
            ⟨{ u with stopTried := true }, by
              obtain ⟨hinited, hgone, hup, -⟩ := hu
              simp [usePlugin, hstop, hgone, hup hruns, hrc], hu⟩
          simpa [hrc] using hkept

section Applied

variable {role : InstanceRole} {config : HybbxConfig} {answers : π → PluginAnswers} {lastError rc : HybbxResult}
  {svc loaded started : TransportService π} {calls loading starting : List (π × PluginCall)} {p : π}

lemma applyTransport_skips (h : transportEnabled role config (plugin p).name ≠ true) :
    applyTransport plugin role config answers (lastError, svc, calls) p = (lastError, svc, calls) := by
  simp [applyTransport, h]

lemma applyTransport_fails (h : transportEnabled role config (plugin p).name = true)
    (hload : serviceLoadTransport plugin svc (plugin p).name (answers p).init = (rc, loaded, loading))
    (hrc : rc ≠ .ok) :
    applyTransport plugin role config answers (lastError, svc, calls) p =
      (if networksIsStaticTransport role (plugin p).name then rc else lastError, loaded, calls ++ loading) := by
  rw [applyTransport]
  simp only [h, hload]
  cases rc with
  | ok => exact absurd rfl hrc
  | _ => rfl

lemma applyTransport_loads (h : transportEnabled role config (plugin p).name = true)
    (hload : serviceLoadTransport plugin svc (plugin p).name (answers p).init = (.ok, loaded, loading))
    (hstart : serviceStartTransport plugin loaded (plugin p).name (transportConfig config (plugin p).name)
      (answers p).start = (rc, started, starting)) :
    applyTransport plugin role config answers (lastError, svc, calls) p =
      (if rc ≠ .ok ∧ networksIsStaticTransport role (plugin p).name then rc else lastError, started,
        calls ++ loading ++ starting) := by
  rw [applyTransport]
  simp only [h, hload, hstart]
  cases rc with
  | ok => rfl
  | _ => simp

end Applied

section Applying

variable {J : TransportService π → List (π × PluginCall) → Prop} {role : InstanceRole} {config : HybbxConfig}

/-- What loading and starting keep, applying a configuration to a plugin keeps. -/
lemma applyTransport_keeps
    (hload : ∀ svc calls name rc, transportEnabled role config name = true → J svc calls →
      J (serviceLoadTransport plugin svc name rc).2.1 (calls ++ (serviceLoadTransport plugin svc name rc).2.2))
    (hstart : ∀ svc calls name text rc, J svc calls →
      J (serviceStartTransport plugin svc name text rc).2.1
        (calls ++ (serviceStartTransport plugin svc name text rc).2.2))
    (answers : π → PluginAnswers) {calls : List (π × PluginCall)} (r : TransportAnswer π) (p : π)
    (h : J r.2.1 (calls ++ r.2.2)) :
    J (applyTransport plugin role config answers r p).2.1
      (calls ++ (applyTransport plugin role config answers r p).2.2) := by
  obtain ⟨lastError, svc, made⟩ := r
  by_cases henabled : transportEnabled role config (plugin p).name = true
  · have hloaded := hload svc (calls ++ made) (plugin p).name (answers p).init henabled h
    generalize hloading : serviceLoadTransport plugin svc (plugin p).name (answers p).init = loading at hloaded
    obtain ⟨rc, loaded, more⟩ := loading
    by_cases hrc : rc = .ok
    · subst hrc
      have hstarted := hstart loaded _ (plugin p).name (transportConfig config (plugin p).name) (answers p).start
        hloaded
      generalize hstarting : serviceStartTransport plugin loaded (plugin p).name
        (transportConfig config (plugin p).name) (answers p).start = starting at hstarted
      obtain ⟨rc, started, last⟩ := starting
      rw [applyTransport_loads henabled hloading hstarting]
      simpa only [List.append_assoc] using hstarted
    · rw [applyTransport_fails henabled hloading hrc]
      simpa only [List.append_assoc] using hloaded
  · rw [applyTransport_skips henabled]
    exact h

lemma applyTransports_keeps
    (hload : ∀ svc calls name rc, transportEnabled role config name = true → J svc calls →
      J (serviceLoadTransport plugin svc name rc).2.1 (calls ++ (serviceLoadTransport plugin svc name rc).2.2))
    (hstart : ∀ svc calls name text rc, J svc calls →
      J (serviceStartTransport plugin svc name text rc).2.1
        (calls ++ (serviceStartTransport plugin svc name text rc).2.2))
    (answers : π → PluginAnswers) {svc : TransportService π} {calls : List (π × PluginCall)} (h : J svc calls) :
    J (applyTransports plugin role config answers svc).2.1
      (calls ++ (applyTransports plugin role config answers svc).2.2) := by
  have hfold : ∀ (registry : List π) (r : TransportAnswer π), J r.2.1 (calls ++ r.2.2) →
      let last := registry.foldl (applyTransport plugin role config answers) r
      J last.2.1 (calls ++ last.2.2) := by
    intro registry
    induction registry with
    | nil => exact fun _ hr => hr
    | cons p registry ih => exact fun r hr => ih _ (applyTransport_keeps hload hstart answers r p hr)
  exact hfold svc.registry (.ok, svc, []) (by simpa using h)

end Applying

lemma Kept.step {svc : TransportService π} {calls : List (π × PluginCall)} (role : InstanceRole) (op : TransportOp π)
    (h : Kept plugin svc calls) :
    Kept plugin (transportStep plugin role svc op).1 (calls ++ (transportStep plugin role svc op).2) := by
  cases op with
  | register p => exact ⟨h.nodup, by simpa [transportStep] using h.used⟩
  | unregister name => exact ⟨h.nodup, by simpa [transportStep] using h.used⟩
  | load name rc => exact h.load name rc
  | start name config rc => exact h.start name config rc
  | stop name rc => exact h.stop name rc
  | apply config answers =>
    exact applyTransports_keeps (fun _ _ name rc _ h => h.load name rc) (fun _ _ name text rc h => h.start name text rc)
      answers h

variable (plugin)

lemma kept_start : Kept plugin .start [] :=
  ⟨List.nodup_nil, fun p => ⟨.fresh (plugin p), rfl, rfl⟩⟩

def transportRun (role : InstanceRole) (ops : List (TransportOp π)) : TransportService π × List (π × PluginCall) :=
  Transducer.run (transportStep plugin role) .start ops

/-- All the calls of a service, up to its end. -/
def serviceCalls (role : InstanceRole) (ops : List (TransportOp π)) (stops : π → HybbxResult) : List (π × PluginCall) :=
  (transportRun plugin role ops).2 ++ (transportRun plugin role ops).1.transports.flatMap (destroyCalls plugin stops)

lemma kept_run (role : InstanceRole) (ops : List (TransportOp π)) :
    Kept plugin (transportRun plugin role ops).1 (transportRun plugin role ops).2 := by
  have hrun := @Transducer.run_history _ _ _ (transportStep plugin role) (Kept plugin) (fun _ => True)
    (fun _ _ op _ h => h.step role op) ops (fun _ _ => trivial) .start [] (kept_start plugin)
  simpa [transportRun] using hrun

variable {plugin}

/-- At the end, a plugin gets the calls for its own entry. -/
lemma callsOf_destroy (stops : π → HybbxResult) {transports : List (ActiveTransport π)}
    (h : (transports.map ActiveTransport.plugin).Nodup) (p : π) :
    callsOf p (transports.flatMap (destroyCalls plugin stops)) =
      match entry transports p with
      | none => []
      | some running => (destroyCalls plugin stops ⟨p, running⟩).map Prod.snd := by
  have hother : ∀ active : ActiveTransport π, active.plugin ≠ p →
      callsOf p (destroyCalls plugin stops active) = [] := by
    intro active hne
    rw [destroyCalls]
    split_ifs <;> simp [callsOf, hne]
  have hself : ∀ running, callsOf p (destroyCalls plugin stops ⟨p, running⟩) =
      (destroyCalls plugin stops ⟨p, running⟩).map Prod.snd := by
    intro running
    rw [destroyCalls]
    split_ifs <;> simp [callsOf]
  induction transports with
  | nil => rfl
  | cons active transports ih =>
    rw [List.map_cons, List.nodup_cons] at h
    have hrest := ih h.2
    rw [List.flatMap_cons, callsOf_append, hrest]
    by_cases hp : active.plugin = p
    · subst hp
      have hnone := entry_none h.1
      have hfirst : entry (active :: transports) active.plugin = some active.running := by simp [entry]
      rw [hnone, hfirst, List.append_nil]
      exact hself active.running
    · have hskip : entry (active :: transports) p = entry transports p := by simp [entry, hp]
      rw [hother active hp, hskip, List.nil_append]

lemma Abreast.destroyed {t : TransportPlugin} {u : PluginUse} {running : Bool} (h : Abreast t u (some running))
    (rc : HybbxResult) :
    ∃ u', List.foldlM (usePlugin t) u (endCalls t running rc) = some u' ∧ (t.hasShutdown → u'.gone = u'.inited) ∧
      (t.hasStop → rc = .ok → u'.started = false) := by
  obtain ⟨hinited, hgone, hup, hdown⟩ := h
  have hshut : ∀ v : PluginUse, v.inited = true → v.gone = false → (t.hasStop → v.started → v.stopTried) →
      ∃ u', List.foldlM (usePlugin t) v (if t.hasShutdown then [.shutdown] else []) = some u' ∧
        (t.hasShutdown → u'.gone = u'.inited) ∧ u'.started = v.started := by
    intro v hv hv' htried
    cases hshutdown : t.hasShutdown with
    | false => exact ⟨v, rfl, nofun, rfl⟩
    | true => exact ⟨{ v with gone := true }, by simp_all [usePlugin], fun _ => hv.symm, rfl⟩
  by_cases hstop : running = true ∧ t.hasStop = true
  · obtain ⟨u', hu', hboth, hstarted⟩ := hshut { u with started := rc ≠ .ok, stopTried := true } hinited hgone
      fun _ _ => rfl
    refine ⟨u', ?_, hboth, fun _ hrc => by rw [hstarted, hrc]; rfl⟩
    rw [endCalls, if_pos hstop, List.foldlM_append]
    simpa [usePlugin, hstop.2, hup hstop.1, hgone] using hu'
  · have hidle : t.hasStop = true → u.started = false := fun hs => by
      by_contra hstarted
      exact hstop ⟨hdown hs (by simpa using hstarted), hs⟩
    obtain ⟨u', hu', hboth, hstarted⟩ := hshut u hinited hgone fun hs ht => absurd ht (by simp [hidle hs])
    refine ⟨u', ?_, hboth, fun hs _ => hstarted.trans (hidle hs)⟩
    rwa [endCalls, if_neg hstop, List.nil_append]

/-- Whatever is asked of the service and whatever the plugins answer, the calls of each plugin are as promised until the
service is destroyed; and then, if it was initialised, it is shut down, and stopped before if it ran. -/
theorem plugins_used_as_promised (plugin : π → TransportPlugin) (role : InstanceRole) (ops : List (TransportOp π))
    (stops : π → HybbxResult) (p : π) :
    ∃ u, List.foldlM (usePlugin (plugin p)) (PluginUse.fresh (plugin p))
        (callsOf p (serviceCalls plugin role ops stops)) = some u ∧
      ((plugin p).hasInit → (plugin p).hasShutdown → u.gone = u.inited) ∧
      ((plugin p).hasStop → stops p = .ok → u.started = false) := by
  have hkept := kept_run plugin role ops
  obtain ⟨u, hu, hfits⟩ := hkept.used p
  rw [serviceCalls, callsOf_append, List.foldlM_append, hu, callsOf_destroy stops hkept.nodup]
  cases hentry : entry (transportRun plugin role ops).1.transports p with
  | none =>
    rw [hentry] at hfits
    obtain rfl : u = .fresh (plugin p) := hfits
    exact ⟨_, rfl, by simp +contextual [PluginUse.fresh], fun _ _ => rfl⟩
  | some running =>
    rw [hentry] at hfits
    obtain ⟨u', hu', hgone, hstopped⟩ := hfits.destroyed (stops p)
    refine ⟨u', ?_, fun _ => hgone, hstopped⟩
    dsimp only
    rw [destroyCalls_snd]
    exact hu'

/-! The instance keeps to the plugins of its role. -/

def KeepsToRole (plugin : π → TransportPlugin) (role : InstanceRole) (svc : TransportService π)
    (calls : List (π × PluginCall)) : Prop :=
  (∀ active ∈ svc.transports, instancePluginAllowed role (plugin active.plugin).name = true) ∧
    ∀ c ∈ calls, instancePluginAllowed role (plugin c.1).name = true

lemma allowed_of_enabled {role : InstanceRole} {config : HybbxConfig} {name : Bytes}
    (h : transportEnabled role config name = true) : instancePluginAllowed role name = true := by
  rw [transportEnabled, Bool.and_eq_true] at h
  have hwanted := h.1
  rw [networksTransportWanted] at hwanted
  by_contra hallowed
  simp [hallowed] at hwanted

lemma KeepsToRole.load {role : InstanceRole} {svc : TransportService π} {calls : List (π × PluginCall)}
    (h : KeepsToRole plugin role svc calls) {name : Bytes} (hname : instancePluginAllowed role name = true)
    (rc : HybbxResult) :
    KeepsToRole plugin role (serviceLoadTransport plugin svc name rc).2.1
      (calls ++ (serviceLoadTransport plugin svc name rc).2.2) := by
  rw [serviceLoadTransport]
  cases hfind : registryFind plugin svc.registry name with
  | none => simpa using h
  | some p =>
    have hp : (plugin p).name = name := by simpa using List.find?_some hfind
    obtain ⟨htransports, hcalls⟩ := h
    dsimp only
    constructor
    · intro active hactive
      split_ifs at hactive <;> grind
    · intro c hc
      split_ifs at hc <;> grind

lemma KeepsToRole.start {role : InstanceRole} {svc : TransportService π} {calls : List (π × PluginCall)}
    (h : KeepsToRole plugin role svc calls) (name config : Bytes) (rc : HybbxResult) :
    KeepsToRole plugin role (serviceStartTransport plugin svc name config rc).2.1
      (calls ++ (serviceStartTransport plugin svc name config rc).2.2) := by
  rw [serviceStartTransport]
  cases hfind : findActive plugin svc name with
  | none => simpa using h
  | some active =>
    obtain ⟨htransports, hcalls⟩ := h
    have hactive := htransports active (List.mem_of_find?_eq_some hfind)
    dsimp only
    constructor
    · intro other hother
      split_ifs at hother
      · exact htransports other hother
      · exact htransports other hother
      · exact htransports other hother
      · obtain ⟨first, hfirst, rfl⟩ := List.mem_map.mp hother
        split_ifs with hp
        · exact hactive
        · exact htransports first hfirst
    · intro c hc
      split_ifs at hc <;> grind

/-- What the program itself does: it registers its plugins and applies a configuration. -/
def TransportOp.isSetup : TransportOp π → Prop
  | .register _ => True
  | .apply _ _ => True
  | _ => False

lemma KeepsToRole.step {role : InstanceRole} {svc : TransportService π} {calls : List (π × PluginCall)}
    {op : TransportOp π} (hop : op.isSetup) (h : KeepsToRole plugin role svc calls) :
    KeepsToRole plugin role (transportStep plugin role svc op).1 (calls ++ (transportStep plugin role svc op).2) := by
  cases op with
  | register p => exact ⟨h.1, by simpa [transportStep] using h.2⟩
  | unregister name => exact absurd hop id
  | load name rc => exact absurd hop id
  | start name config rc => exact absurd hop id
  | stop name rc => exact absurd hop id
  | apply config answers =>
    exact applyTransports_keeps (fun _ _ _ rc henabled h => h.load (allowed_of_enabled henabled) rc)
      (fun _ _ name text rc h => h.start name text rc) answers h

/-- Whatever is registered and configured, no function is called of a plugin that the role does not allow. -/
theorem role_kept (plugin : π → TransportPlugin) (role : InstanceRole) {ops : List (TransportOp π)}
    (hops : ∀ op ∈ ops, op.isSetup) (stops : π → HybbxResult) :
    ∀ c ∈ serviceCalls plugin role ops stops, instancePluginAllowed role (plugin c.1).name = true := by
  have hrun := @Transducer.run_history _ _ _ (transportStep plugin role) (KeepsToRole plugin role) TransportOp.isSetup
    (fun _ _ _ hop h => h.step hop) ops hops .start [] ⟨nofun, nofun⟩
  obtain ⟨htransports, hcalls⟩ := hrun
  intro c hc
  rw [serviceCalls, List.mem_append, List.mem_flatMap] at hc
  rcases hc with hc | ⟨active, hactive, hc⟩
  · exact hcalls c (by rw [List.nil_append]; exact hc)
  · have hplugin : c.1 = active.plugin := by
      rw [destroyCalls] at hc
      split_ifs at hc <;> grind
    rw [hplugin]
    exact htransports active hactive

lemma load_alone {registry : List π} {transports : List (ActiveTransport π)} {p : π}
    (hfind : registryFind plugin registry (plugin p).name = some p) (hnew : p ∉ transports.map ActiveTransport.plugin)
    (hroom : transports.length < maxActiveTransports) (answers : PluginAnswers) :
    serviceLoadTransport plugin ⟨registry, transports⟩ (plugin p).name answers.init =
      (if (plugin p).loads answers then .ok else answers.init,
        ⟨registry, if (plugin p).loads answers then transports ++ [⟨p, false⟩] else transports⟩,
        if (plugin p).hasInit then [(p, .init answers.init)] else []) := by
  simp only [serviceLoadTransport, hfind, if_neg hnew, if_neg (Nat.not_le.mpr hroom), TransportPlugin.loads]
  by_cases hinit : (plugin p).hasInit = true
  · by_cases hrc : answers.init = .ok <;> simp [hinit, hrc]
  · simp [hinit]

/-- The plugin that has just been loaded, as the last one. -/
lemma start_alone {registry : List π} {transports : List (ActiveTransport π)} {p : π}
    (hother : ∀ active ∈ transports, (plugin active.plugin).name ≠ (plugin p).name) (text : Bytes) (rc : HybbxResult) :
    serviceStartTransport plugin ⟨registry, transports ++ [⟨p, false⟩]⟩ (plugin p).name text rc =
      (if (plugin p).hasStart then rc else .errUnsupported,
        ⟨registry, transports ++ [⟨p, (plugin p).hasStart && rc = .ok⟩]⟩,
        if (plugin p).hasStart then [(p, .start text rc)] else []) := by
  have hactive : findActive plugin ⟨registry, transports ++ [⟨p, false⟩]⟩ (plugin p).name = some ⟨p, false⟩ := by
    have hnone : transports.find? (fun active => (plugin active.plugin).name = (plugin p).name) = none :=
      List.find?_eq_none.mpr fun active hactive => by simpa using hother active hactive
    simp [findActive, List.find?_append, hnone]
  have hrunning : setRunning ⟨registry, transports ++ [⟨p, false⟩]⟩ p true = ⟨registry, transports ++ [⟨p, true⟩]⟩ := by
    have hsame : transports.map (fun active => if active.plugin = p then ⟨p, true⟩ else active) = transports := by
      refine (List.map_congr_left fun active hmem => ?_).trans (List.map_id transports)
      have hne : active.plugin ≠ p := fun heq => hother active hmem (by rw [heq])
      simp [hne]
    simp [setRunning, hsame]
  simp only [serviceStartTransport, hactive]
  by_cases hstart : (plugin p).hasStart = true
  · by_cases hrc : rc = .ok <;> simp [hstart, hrc, hrunning]
  · simp [hstart]

/-- One plugin, whose name no loaded one has. -/
lemma applyTransport_alone {role : InstanceRole} {config : HybbxConfig} {answers : π → PluginAnswers}
    {lastError : HybbxResult} {registry : List π} {transports : List (ActiveTransport π)}
    {calls : List (π × PluginCall)} {p : π} (hfind : registryFind plugin registry (plugin p).name = some p)
    (hother : ∀ active ∈ transports, (plugin active.plugin).name ≠ (plugin p).name)
    (hroom : transportEnabled role config (plugin p).name = true → transports.length < maxActiveTransports) :
    applyTransport plugin role config answers (lastError, ⟨registry, transports⟩, calls) p =
      ((ownError plugin role config answers p).getD lastError,
        ⟨registry, transports ++ ownEntries plugin role config answers p⟩,
        calls ++ ownCallsOf plugin role config answers p) := by
  have hnew : p ∉ transports.map ActiveTransport.plugin := fun hmem => by
    obtain ⟨active, hactive, rfl⟩ := List.mem_map.mp hmem
    exact hother active hactive rfl
  rw [ownError, ownEntries, ownCallsOf]
  by_cases henabled : transportEnabled role config (plugin p).name = true
  · have hload := load_alone hfind hnew (hroom henabled) (answers p)
    rw [TransportPlugin.failure, TransportPlugin.ownCalls]
    by_cases hloads : (plugin p).loads (answers p) = true
    · rw [if_pos hloads, if_pos hloads] at hload
      rw [applyTransport_loads henabled hload (start_alone hother _ _)]
      by_cases hup : (plugin p).hasStart = true
      · by_cases hrc : (answers p).start = .ok
        · by_cases hinit : (plugin p).hasInit = true <;> simp [henabled, hloads, hup, hrc, hinit]
        · by_cases hstatic : networksIsStaticTransport role (plugin p).name = true <;>
            by_cases hinit : (plugin p).hasInit = true <;> simp [henabled, hloads, hup, hrc, hinit, hstatic]
      · by_cases hstatic : networksIsStaticTransport role (plugin p).name = true <;>
          by_cases hinit : (plugin p).hasInit = true <;> simp [henabled, hloads, hup, hinit, hstatic]
    · have hrc : (answers p).init ≠ .ok := fun hrc => hloads (by simp [TransportPlugin.loads, hrc])
      rw [if_neg hloads, if_neg hloads] at hload
      rw [applyTransport_fails henabled hload hrc]
      by_cases hstatic : networksIsStaticTransport role (plugin p).name = true <;>
        by_cases hinit : (plugin p).hasInit = true <;> simp [henabled, hloads, hinit, hstatic]
  · rw [applyTransport_skips henabled]
    simp [henabled]

/-- A configuration that is applied handles each plugin by itself: whether the others fail or not, those that are wanted
and come up run, in the order of the registry, and the answer is the last failure of one that the role depends on. -/
theorem transports_come_up_alone (role : InstanceRole) (config : HybbxConfig) (answers : π → PluginAnswers)
    {registry : List π} (hnames : (registry.map fun p => (plugin p).name).Nodup)
    (hroom : (registry.filter fun p => transportEnabled role config (plugin p).name).length ≤ maxActiveTransports) :
    applyTransports plugin role config answers ⟨registry, []⟩ =
      ((registry.filterMap (ownError plugin role config answers)).getLast?.getD .ok,
        ⟨registry, registry.flatMap (ownEntries plugin role config answers)⟩,
        registry.flatMap (ownCallsOf plugin role config answers)) := by
  have hprefix : ∀ before after, before ++ after = registry →
      before.foldl (applyTransport plugin role config answers) (.ok, ⟨registry, []⟩, []) =
        ((before.filterMap (ownError plugin role config answers)).getLast?.getD .ok,
          ⟨registry, before.flatMap (ownEntries plugin role config answers)⟩,
          before.flatMap (ownCallsOf plugin role config answers)) := by
    intro before
    induction before using List.reverseRecOn with
    | nil => exact fun _ _ => rfl
    | append_singleton before p ih =>
      intro after hsplit
      have hsplit' : before ++ p :: after = registry := by rw [← hsplit, List.append_assoc, List.singleton_append]
      have hother : ∀ active ∈ before.flatMap (ownEntries plugin role config answers),
          (plugin active.plugin).name ≠ (plugin p).name := by
        intro active hactive
        obtain ⟨q, hq, hown⟩ := List.mem_flatMap.mp hactive
        rw [mem_ownEntries hown]
        rw [← hsplit', List.map_append] at hnames
        intro heq
        exact List.disjoint_of_nodup_append hnames (List.mem_map.mpr ⟨q, hq, heq⟩)
          (List.mem_map_of_mem List.mem_cons_self)
      have hfull : transportEnabled role config (plugin p).name = true →
          (before.flatMap (ownEntries plugin role config answers)).length < maxActiveTransports := by
        intro henabled
        have hbefore := length_ownEntries plugin role config answers before
        rw [← hsplit', List.filter_append, List.filter_cons_of_pos (by simpa using henabled), List.length_append,
          List.length_cons] at hroom
        omega
      have hfind := registryFind_self hnames (hsplit' ▸ List.mem_append_right before List.mem_cons_self)
      rw [List.foldl_append, List.foldl_cons, List.foldl_nil, ih (p :: after) hsplit',
        applyTransport_alone hfind hother hfull]
      cases herror : ownError plugin role config answers p with
      | none => simp [herror]
      | some rc => simp [herror]
  exact hprefix registry [] (List.append_nil registry)

/-- Three plugins, by their numbers. -/
def builtinPlugins (p : Fin 3) : TransportPlugin where
  name := ([ofString "telnet", ofString "websocket", ofString "mains_proxy"] : List Bytes).get p
  hasInit := true
  hasShutdown := true
  hasStart := true
  hasStop := true

/-- A main whose proxy finds no port. -/
def proxyFails (p : Fin 3) : PluginAnswers := ⟨.ok, if p = 2 then .errIo else .ok⟩

theorem transports_come_up_alone_main :
    (applyTransports builtinPlugins .main [] proxyFails ⟨[0, 1, 2], []⟩).1 = .ok := by
  rw [transports_come_up_alone .main [] proxyFails (by decide) (by decide)]
  decide

/-- The websocket of a main is called, its telnet plugin is registered and never called. -/
theorem role_kept_main :
    (1, .init .ok) ∈
        serviceCalls builtinPlugins .main [.register 0, .register 1, .register 2, .apply [] proxyFails] (fun _ => .ok) ∧
      (serviceCalls builtinPlugins .main [.register 0, .register 1, .register 2, .apply [] proxyFails] fun _ => .ok).all
        (fun c => instancePluginAllowed .main (builtinPlugins c.1).name) = true :=
  ⟨by decide, List.all_eq_true.mpr (role_kept builtinPlugins .main (by simp [TransportOp.isSetup]) fun _ => .ok)⟩

end Lives

end HyBBX.Config
