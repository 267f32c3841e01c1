import HyBBX.Config.Max25

/-! Sections of the configuration as the plugins get them: one string, which each plugin takes apart in its own way. -/

namespace HyBBX.Config

open HyBBX.Core Lib Lib.Bytes Lib.Text Lib.Numeral Lib.LineReader Lib.Segments

def enabledKey : Bytes := ofString "enabled"

/-- The entries of a section that are handed over. -/
def handedRows (config : HybbxConfig) (sectionName : Bytes) : List ConfigEntry :=
  config.filter fun e => e.sectionName = sectionName ∧ e.key ≠ enabledKey

def configFormatSection (config : HybbxConfig) (sectionName : Bytes) : Bytes :=
  [semicolon].intercalate ((handedRows config sectionName).map fun e => pair e.key e.value)

def configSectionHasKeys (config : HybbxConfig) (sectionName : Bytes) : Bool := handedRows config sectionName ≠ []

def configSuffixIsDigits (suffix : Bytes) : Bool := suffix ≠ [] && suffix.all isDigit

def transportPrefix (pluginName : Bytes) : Bytes := (ofString "transport." ++ pluginName).take 127

def formatTransportSectionAdd (sections : List Bytes) (sectionName : Bytes) : List Bytes :=
  if sectionName ∈ sections then sections else sections ++ [sectionName]

/-- The section of a plugin and its numbered ones, as far as they have anything to hand over. -/
def transportSections (config : HybbxConfig) (pluginName : Bytes) : List Bytes :=
  let front := transportPrefix pluginName
  let wanted (s : Bytes) : Bool :=
    front.isPrefixOf s && configSuffixIsDigits (s.drop front.length) && configSectionHasKeys config s
  ((config.map ConfigEntry.sectionName).filter wanted).foldl formatTransportSectionAdd
    (if configSectionHasKeys config front then [front] else [])

def configFormatTransportSections (config : HybbxConfig) (pluginName : Bytes) : Bytes :=
  match transportSections config pluginName with
  | [] => configFormatSection config (transportPrefix pluginName)
  | sections =>
    (sections.map (configFormatSection config)).foldl (fun out part =>
      if out = [] then part else out ++ instanceSep :: part) []

def isBlank (b : UInt8) : Bool := b = blank || b = tab

def isEdge (b : UInt8) : Bool := b = blank || b = tab || b = cr

def mainsProxyLine (key : Bytes) (scratchLen : ℕ) (line : Bytes) : Option Bytes :=
  if line.head? = some opening then none
  else if equals ∈ line ∧ line.takeWhile (· ≠ equals) = key then
    some ((((line.dropWhile (· ≠ equals)).tail.dropWhile isBlank).rdropWhile isEdge).take (scratchLen - 1))
  else none

def mainsProxyFindKv (config key : Bytes) (scratchLen : ℕ) : Option Bytes :=
  (lines config).findSome? (mainsProxyLine key scratchLen)

inductive HandoffPlugin
  | mainsProxy
  | packetRadio
  deriving DecidableEq

namespace HandoffPlugin

/-- The keys that the parser of the plugin asks for. -/
def keys : HandoffPlugin → List Bytes
  | mainsProxy =>
    ["enabled", "peer_id", "circuit_host", "circuit_port", "link_id", "link_password", "host", "port", "wire", "duplex",
      "use_secondary"].map ofString
  | packetRadio =>
    ["device_type", "device", "baud", "tnc", "protocol", "clock_mhz", "modem", "radio_baud", "kiss_port", "txdelay",
      "persist", "slot", "txtail", "radio_band", "radio_duplex", "duplex", "fullduplex", "g3ruh_fsk", "modulation",
      "kiss_entry", "kiss_exit", "host_connect", "serial_line", "data_bits", "parity", "stop_bits",
        "assert_modem_lines",
      "rts_dtr", "mycall", "dest", "dest_call", "via", "circuit_host", "circuit_port", "link_id", "link_password",
      "link_role", "frequency_mhz", "frequency"].map ofString

def findKv : HandoffPlugin → Bytes → Bytes → Option Bytes
  | mainsProxy, config, key => mainsProxyFindKv config key configLineMax
  | packetRadio, config, key => Config.findKv config key 256

/-- The room for one section; a longer one is refused. -/
def sectionBufLen : HandoffPlugin → ℕ
  | mainsProxy => configLineMax
  | packetRadio => 4096

end HandoffPlugin

section Rows

variable {config : HybbxConfig} {s key : Bytes}

lemma configGet_handedRows (hkey : key ≠ enabledKey) :
    configGet config s key = ((handedRows config s).find? fun e => e.key = key).map ConfigEntry.value := by
  rw [configGet, handedRows, List.find?_filter]
  congr 2
  funext e
  by_cases hk : e.key = key
  · simp [ConfigEntry.matches, hk, hkey]
  · simp [ConfigEntry.matches, hk]

lemma handedRows_ok {file : Bytes} (h : configLoad file = .ok config) {e : ConfigEntry} (he : e ∈ handedRows config s) :
    EntryOk e ∧ e.sectionName = s ∧ e.key ≠ enabledKey := by
  obtain ⟨hm, hp⟩ := List.mem_filter.mp he
  exact ⟨(configLoad_ok h e hm).1, by simpa using hp⟩

lemma configFormatSection_cons {e : ConfigEntry} {rows : List ConfigEntry} (h : handedRows config s = e :: rows) :
    configFormatSection config s = pair e.key e.value ++ rows.flatMap fun f => semicolon :: pair f.key f.value := by
  rw [configFormatSection, h, List.map_cons, intercalate_cons, List.flatMap_map]

lemma length_configFormatSection (config : HybbxConfig) (s : Bytes) :
    (configFormatSection config s).length =
      ((handedRows config s).map fun e => e.key.length + e.value.length + 2).sum - 1 := by
  cases h : handedRows config s with
  | nil =>
    rw [configFormatSection, h]
    rfl
  | cons e rows =>
    have hpair : ∀ f : ConfigEntry, (semicolon :: pair f.key f.value).length = f.key.length + f.value.length + 2 := by
      intro f
      simp only [pair, List.length_cons, List.length_append]
      omega
    rw [configFormatSection_cons h, List.length_append, List.length_flatMap, List.map_cons, List.sum_cons, ← hpair e,
      List.length_cons]
    simp only [hpair]
    omega

end Rows

section Transport

/-- Adding sections lists each once, in the order they come. -/
lemma mem_foldl_formatTransportSectionAdd {x : Bytes} (added : List Bytes) (sections : List Bytes) :
    x ∈ added.foldl formatTransportSectionAdd sections ↔ x ∈ sections ∨ x ∈ added := by
  induction added generalizing sections with
  | nil => simp
  | cons a added ih =>
    rw [List.foldl_cons, ih, formatTransportSectionAdd, List.mem_cons]
    split_ifs with ha
    · constructor
      · rintro (h | h)
        · exact .inl h
        · exact .inr (.inr h)
      · rintro (h | rfl | h)
        · exact .inl h
        · exact .inl ha
        · exact .inr h
    · rw [List.mem_append, List.mem_singleton, or_assoc]

lemma transportSections_hasKeys {config : HybbxConfig} {pluginName s : Bytes}
    (h : s ∈ transportSections config pluginName) :
    handedRows config s ≠ [] := by
  rw [transportSections, mem_foldl_formatTransportSectionAdd] at h
  rcases h with h | h
  · split_ifs at h with hk
    · rw [List.mem_singleton.mp h]
      simpa [configSectionHasKeys] using hk
    · cases h
  · have hw := (List.mem_filter.mp h).2
    simp only [Bool.and_eq_true, configSectionHasKeys, decide_eq_true_eq] at hw
    exact hw.2

lemma configFormatSection_ne_nil {config : HybbxConfig} {s : Bytes} (h : handedRows config s ≠ []) :
    configFormatSection config s ≠ [] := by
  obtain ⟨e, rows, hr⟩ := List.exists_cons_of_ne_nil h
  rw [configFormatSection_cons hr]
  simp [pair]

lemma foldl_parts {part : Bytes} (hpart : part ≠ []) (parts : List Bytes) :
    parts.foldl (fun out q => if out = [] then q else out ++ instanceSep :: q) part =
      [instanceSep].intercalate (part :: parts) := by
  induction parts generalizing part with
  | nil => simp
  | cons q parts ih =>
    have hq : part ++ instanceSep :: q ≠ [] := by simp
    rw [List.foldl_cons, if_neg hpart, ih hq, intercalate_cons, intercalate_cons, List.flatMap_cons, List.append_assoc]

/-- Cut at the instance separators, the string of a plugin is its sections one by one. -/
lemma splitOn_configFormatTransportSections {config : HybbxConfig} {pluginName : Bytes}
    (hsome : transportSections config pluginName ≠ [])
    (hsep : ∀ s ∈ transportSections config pluginName, instanceSep ∉ configFormatSection config s) :
    (configFormatTransportSections config pluginName).splitOn instanceSep =
      (transportSections config pluginName).map (configFormatSection config) := by
  rw [configFormatTransportSections]
  cases hl : transportSections config pluginName with
  | nil => exact absurd hl hsome
  | cons s sections =>
    have hs : configFormatSection config s ≠ [] :=
      configFormatSection_ne_nil (transportSections_hasKeys (hl ▸ List.mem_cons_self))
    rw [hl] at hsep
    dsimp only
    rw [List.map_cons, List.foldl_cons, if_pos rfl, foldl_parts hs, List.splitOn_intercalate]
    · intro part hp
      obtain ⟨t, ht, rfl⟩ := List.mem_map.mp (List.map_cons ▸ hp)
      exact hsep t ht
    · simp

end Transport

section PacketRadio

/-- The value that a row in front of the key's own one passes off for the key, in a piece behind a `;`. -/
def strayValue (config : HybbxConfig) (s key : Bytes) : Option Bytes :=
  ((handedRows config s).takeWhile (·.key ≠ key)).findSome? fun e => findPiece semicolon (pair e.key e.value) key 256

lemma takeWhile_ne_eq_self_iff {b : UInt8} {v : Bytes} : v.takeWhile (· ≠ b) = v ↔ b ∉ v := by
  rw [List.takeWhile_eq_self_iff]
  constructor
  · intro h hb
    simpa using h b hb
  · intro h c hc
    rw [decide_eq_true_eq]
    rintro rfl
    exact h hc

lemma packetRadio_keys {key : Bytes} (h : key ∈ HandoffPlugin.packetRadio.keys) :
    equals ∉ key ∧ semicolon ∉ key ∧ key ≠ enabledKey := by
  have hall : ∀ k ∈ HandoffPlugin.packetRadio.keys, equals ∉ k ∧ semicolon ∉ k ∧ k ≠ enabledKey := by
    decide +kernel
  exact hall key h

lemma packetRadio_find_iff {file : Bytes} {config : HybbxConfig} (h : configLoad file = .ok config) (s : Bytes)
    {key : Bytes}
    (hkey : key ∈ HandoffPlugin.packetRadio.keys) :
    HandoffPlugin.packetRadio.findKv (configFormatSection config s) key = configGet config s key ↔
      match strayValue config s key with
      | none => ∀ v, configGet config s key = some v → semicolon ∉ v
      | some w => configGet config s key = some w := by
  obtain ⟨heq, hsemi, hen⟩ := packetRadio_keys hkey
  have hfind : HandoffPlugin.packetRadio.findKv (configFormatSection config s) key =
      (handedRows config s).findSome? fun e => findPiece semicolon (pair e.key e.value) key 256 := by
    rw [HandoffPlugin.findKv, findKv, configFormatSection, findPiece_intercalate, List.findSome?_map]
    rfl
  have hsplit := List.takeWhile_append_dropWhile (p := fun e : ConfigEntry => decide (e.key ≠ key)) (l := handedRows config s)
  have hown : (handedRows config s).find? (fun e => e.key = key) =
      ((handedRows config s).dropWhile fun e => decide (e.key ≠ key)).head? := by
    rw [List.find?_eq_head?_dropWhile_not]
    simp
  rw [configGet_handedRows hen, hown, hfind]
  nth_rewrite 1 [← hsplit]
  rw [List.findSome?_append]
  change Option.or (strayValue config s key) _ = _ ↔ _
  cases hd : (handedRows config s).dropWhile fun e => decide (e.key ≠ key) with
  | nil => cases strayValue config s key <;> simp
  | cons e rest =>
    have hek : e.key = key := by
      have hhead := List.head?_dropWhile_not (fun e : ConfigEntry => decide (e.key ≠ key)) (handedRows config s)
      rw [hd] at hhead
      simpa using hhead
    have hmem : e ∈ handedRows config s := (List.dropWhile_suffix _).subset (hd ▸ List.mem_cons_self)
    have hfits : e.value.length < 256 := (handedRows_ok h hmem).1.value_fits
    have hvalue : findPiece semicolon (pair e.key e.value) key 256 = some (e.value.takeWhile (· ≠ semicolon)) := by
      rw [hek, findPiece_pair (by decide) heq hsemi, List.take_of_length_le]
      have hle := (List.takeWhile_prefix (· ≠ semicolon) (l := e.value)).length_le
      omega
    rw [List.findSome?_cons, hvalue, List.head?_cons, Option.map_some]
    cases strayValue config s key with
    | none => simp only [Option.none_or, Option.some.injEq, forall_eq', takeWhile_ne_eq_self_iff]
    | some w => simp only [Option.some_or, eq_comm]

end PacketRadio

section MainsProxy

/-- A value that loses nothing when blanks are cut off its ends. -/
def Edged (v : Bytes) : Prop := (∀ b ∈ v.head?, isBlank b = false) ∧ ∀ b ∈ v.getLast?, isEdge b = false

instance (v : Bytes) : Decidable (Edged v) :=
  inferInstanceAs (Decidable ((∀ b ∈ v.head?, isBlank b = false) ∧ ∀ b ∈ v.getLast?, isEdge b = false))

def cutEdges (v : Bytes) : Bytes := (v.dropWhile isBlank).rdropWhile isEdge

lemma head_cutEdges {v : Bytes} {b : UInt8} (h : b ∈ (cutEdges v).head?) : isBlank b = false := by
  obtain ⟨t, ht⟩ := List.rdropWhile_prefix isEdge (v.dropWhile isBlank)
  apply head_dropWhile (s := v) (p := isBlank)
  rw [← ht]
  cases hc : cutEdges v with
  | nil => simp [hc] at h
  | cons c cs =>
    rw [hc] at h
    rw [cutEdges] at hc
    rw [hc]
    exact h

lemma cutEdges_eq_self_iff {v : Bytes} : cutEdges v = v ↔ Edged v := by
  constructor
  · intro h
    refine ⟨fun b hb => head_cutEdges (v := v) (h.symm ▸ hb), fun b hb => ?_⟩
    have hne : cutEdges v ≠ [] := by
      intro h0
      rw [← h, h0] at hb
      simp at hb
    have hlast := List.rdropWhile_last_not isEdge (v.dropWhile isBlank) hne
    rw [← h, List.getLast?_eq_some_getLast hne] at hb
    obtain rfl := Option.some.inj hb
    exact Bool.eq_false_of_not_eq_true hlast
  · rintro ⟨hhead, hlast⟩
    rw [cutEdges, dropWhile_of_head hhead, rdropWhile_of_last hlast]

/-- Nothing that follows a value behind a `;` is lost, so the value does not come back alone. -/
lemma cutEdges_append_ne (v rest : Bytes) {n : ℕ} (hv : v.length < n) :
    (cutEdges (v ++ semicolon :: rest)).take n ≠ v := by
  intro h
  have hhead : ∀ b ∈ (v ++ semicolon :: rest).head?, isBlank b = false := by
    intro b hb
    cases v with
    | nil =>
      obtain rfl : semicolon = b := by simpa using hb
      decide
    | cons c v =>
      obtain rfl : c = b := by simpa using hb
      apply head_cutEdges (v := c :: v ++ semicolon :: rest)
      cases hc : cutEdges (c :: v ++ semicolon :: rest) with
      | nil =>
        rw [hc] at h
        simp at h
      | cons d ds =>
        rw [hc] at h
        cases n with
        | zero => simp at hv
        | succ n =>
          rw [List.take_succ_cons] at h
          obtain ⟨rfl, -⟩ := List.cons.inj h
          rfl
  have hlast : ∀ b ∈ (v ++ [semicolon]).getLast?, isEdge b = false := by
    intro b hb
    obtain rfl : semicolon = b := by simpa using hb
    decide
  rw [cutEdges, dropWhile_of_head hhead, List.append_cons, rdropWhile_append_of_last hlast] at h
  have hlen := congrArg List.length h
  rw [List.length_take, List.length_append, List.length_append, List.length_singleton] at hlen
  omega

lemma nl_notMem_format {file : Bytes} {config : HybbxConfig} (h : configLoad file = .ok config) (s : Bytes) :
    nl ∉ configFormatSection config s := by
  have hrows : ∀ e ∈ handedRows config s, nl ∉ pair e.key e.value :=
    fun e he => nl_notMem_kv (handedRows_ok h he).1.key_line (handedRows_ok h he).1.value_line
  cases hr : handedRows config s with
  | nil =>
    rw [configFormatSection, hr]
    simp
  | cons e rows =>
    rw [hr] at hrows
    obtain ⟨he, hrest⟩ := List.forall_mem_cons.mp hrows
    rw [configFormatSection_cons hr, List.mem_append, not_or, List.mem_flatMap]
    refine ⟨he, ?_⟩
    rintro ⟨f, hf, hm⟩
    rcases List.mem_cons.mp hm with hm | hm
    · exact absurd hm (by decide)
    · exact hrest f hf hm

/-- The parser sees one line, whose key is that of the first row and whose value is all the rest. -/
lemma mainsProxyFindKv_format {file : Bytes} {config : HybbxConfig} (h : configLoad file = .ok config) {s : Bytes}
    {e : ConfigEntry} {rows : List ConfigEntry} (hrows : handedRows config s = e :: rows) (key : Bytes) (n : ℕ) :
    mainsProxyFindKv (configFormatSection config s) key n =
      if e.key = key then
        some ((cutEdges (e.value ++ rows.flatMap fun f => semicolon :: pair f.key f.value)).take (n - 1))
      else none := by
  have hok := (handedRows_ok h (hrows ▸ List.mem_cons_self : e ∈ handedRows config s)).1
  have htext : configFormatSection config s =
      e.key ++ equals :: (e.value ++ rows.flatMap fun f => semicolon :: pair f.key f.value) := by
    rw [configFormatSection_cons hrows, pair, List.append_assoc, List.cons_append]
  have hline := nl_notMem_format h s
  have hopening : (configFormatSection config s).head? ≠ some opening := by
    rw [htext]
    cases hk : e.key with
    | nil =>
      rw [List.nil_append, List.head?_cons]
      decide
    | cons b k =>
      intro hb
      obtain rfl : b = opening := by simpa using hb
      exact (hok.key_head opening (by rw [hk]; rfl)).2 rfl
  have hone : mainsProxyFindKv (configFormatSection config s) key n =
      mainsProxyLine key n (configFormatSection config s) := by
    rw [mainsProxyFindKv, lines_of_notMem hline (by rw [htext]; simp), List.findSome?_cons]
    cases mainsProxyLine key n (configFormatSection config s) <;> rfl
  rw [hone, mainsProxyLine, if_neg hopening, htext, takeWhile_equals hok.key_equals, dropWhile_equals hok.key_equals,
    List.tail_cons]
  by_cases hk : e.key = key
  · rw [if_pos ⟨by simp, hk⟩, if_pos hk]
    rfl
  · rw [if_neg (fun hp => hk hp.2), if_neg hk]

lemma length_cutEdges_le (v : Bytes) : (cutEdges v).length ≤ v.length := by
  have h1 := (List.rdropWhile_prefix isEdge (v.dropWhile isBlank)).length_le
  have h2 := (List.dropWhile_suffix isBlank (l := v)).length_le
  rw [cutEdges]
  omega

/-- The first row comes back as it was when it is the only one and has nothing to cut. -/
lemma cutEdges_rows_iff {e : ConfigEntry} (hfits : e.value.length < configLineMax - 1) (rows : List ConfigEntry) :
    (cutEdges (e.value ++ rows.flatMap fun f => semicolon :: pair f.key f.value)).take (configLineMax - 1) = e.value ↔
      rows = [] ∧ Edged e.value := by
  cases rows with
  | nil =>
    have hle := length_cutEdges_le e.value
    rw [List.flatMap_nil, List.append_nil, List.take_of_length_le (by omega), cutEdges_eq_self_iff]
    exact (and_iff_right rfl).symm
  | cons f rows =>
    rw [List.flatMap_cons, List.cons_append]
    exact iff_of_false (cutEdges_append_ne _ _ hfits) (fun h => nomatch h.1)

lemma mainsProxy_find_iff {file : Bytes} {config : HybbxConfig} (h : configLoad file = .ok config) (s key : Bytes) :
    HandoffPlugin.mainsProxy.findKv (configFormatSection config s) key = configGet config s key ↔
      configGet config s key = none ∨ ∃ v, handedRows config s = [⟨s, key, v⟩] ∧ Edged v := by
  rw [HandoffPlugin.findKv]
  cases hrows : handedRows config s with
  | nil =>
    have hempty : mainsProxyFindKv (configFormatSection config s) key configLineMax = none := by
      rw [configFormatSection, hrows]
      rfl
    rw [hempty]
    constructor
    · intro hn
      exact .inl hn.symm
    · rintro (hn | ⟨v, hv, -⟩)
      · exact hn.symm
      · cases hv
  | cons e rows =>
    obtain ⟨hok, hs, hen⟩ := handedRows_ok h (hrows ▸ List.mem_cons_self : e ∈ handedRows config s)
    rw [mainsProxyFindKv_format h hrows]
    by_cases hk : e.key = key
    · subst hk
      have hget : configGet config s e.key = some e.value := by
        rw [configGet_handedRows hen, hrows, List.find?_cons_of_pos (by simp)]
        rfl
      rw [if_pos rfl, hget, Option.some.injEq, cutEdges_rows_iff (lt_of_lt_of_le hok.value_fits (by decide))]
      constructor
      · rintro ⟨rfl, hedged⟩
        exact .inr ⟨e.value, by rw [← hs], hedged⟩
      · rintro (hn | ⟨v, hv, hedged⟩)
        · cases hn
        · obtain ⟨he, hnil⟩ := List.cons.inj hv
          rw [he]
          exact ⟨hnil, hedged⟩
    · rw [if_neg hk]
      constructor
      · intro hn
        exact .inl hn.symm
      · rintro (hn | ⟨v, hv, -⟩)
        · exact hn.symm
        · obtain ⟨rfl, -⟩ := List.cons.inj hv
          exact absurd rfl hk

end MainsProxy

/-- What a section must look like for a key to reach the plugin. -/
def HandoffPlugin.Carries (config : HybbxConfig) (s key : Bytes) : HandoffPlugin → Prop
  | mainsProxy => configGet config s key = none ∨ ∃ v, handedRows config s = [⟨s, key, v⟩] ∧ Edged v
  | packetRadio =>
    match strayValue config s key with
    | none => ∀ v, configGet config s key = some v → semicolon ∉ v
    | some w => configGet config s key = some w

def HandoffPlugin.TooLong (config : HybbxConfig) (s : Bytes) (plugin : HandoffPlugin) : Prop :=
  plugin.sectionBufLen < ((handedRows config s).map fun e => e.key.length + e.value.length + 2).sum

theorem handoff_lossless_iff {file : Bytes} {config : HybbxConfig} (h : configLoad file = .ok config)
    (plugin : HandoffPlugin) (s : Bytes) {key : Bytes} (hkey : key ∈ plugin.keys) :
    plugin.findKv (configFormatSection config s) key = configGet config s key ∨
        plugin.sectionBufLen ≤ (configFormatSection config s).length ↔
      plugin.Carries config s key ∨ plugin.TooLong config s := by
  have hlong : plugin.sectionBufLen ≤ (configFormatSection config s).length ↔ plugin.TooLong config s := by
    have hpos : 0 < plugin.sectionBufLen := by cases plugin <;> decide
    rw [length_configFormatSection, HandoffPlugin.TooLong]
    omega
  rw [hlong]
  cases plugin with
  | mainsProxy => exact or_congr_left (mainsProxy_find_iff h s key)
  | packetRadio => exact or_congr_left (packetRadio_find_iff h s hkey)

def handoffFile : Bytes := ofString "[transport.packet_radio]\ndevice = /dev/ttyUSB0\nmycall = DB0XYZ\n"

def handoffConfig : HybbxConfig :=
  [⟨ofString "transport.packet_radio", ofString "device", ofString "/dev/ttyUSB0"⟩,
    ⟨ofString "transport.packet_radio", ofString "mycall", ofString "DB0XYZ"⟩]

theorem handoff_lossless_mycall :
    HandoffPlugin.packetRadio.findKv (configFormatSection handoffConfig (ofString "transport.packet_radio"))
        (ofString "mycall") = configGet handoffConfig (ofString "transport.packet_radio") (ofString "mycall") ∨
      HandoffPlugin.packetRadio.sectionBufLen ≤
        (configFormatSection handoffConfig (ofString "transport.packet_radio")).length :=
  (@handoff_lossless_iff handoffFile handoffConfig (by decide +kernel) .packetRadio _ (ofString "mycall")
    (by decide +kernel)).mpr (.inl (by
      have hstray : strayValue handoffConfig (ofString "transport.packet_radio") (ofString "mycall") = none := by
        decide +kernel
      have hget : configGet handoffConfig (ofString "transport.packet_radio") (ofString "mycall") =
          some (ofString "DB0XYZ") := by decide +kernel
      rw [HandoffPlugin.Carries, hstray, hget]
      intro v hv
      obtain rfl := Option.some.inj hv
      decide))

def meshFile : Bytes := ofString "[transport.mains_proxy]\npeer_id = north\ncircuit_host = 10.0.0.1\n"

/-- The rows are joined by `;`, and the mesh looks for them on lines of their own. -/
theorem handoff_loses_circuit_host :
    ∃ config, configLoad meshFile = .ok config ∧ ofString "circuit_host" ∈ HandoffPlugin.mainsProxy.keys ∧
      configGet config (ofString "transport.mains_proxy") (ofString "circuit_host") = some (ofString "10.0.0.1") ∧
      HandoffPlugin.mainsProxy.findKv (configFormatSection config (ofString "transport.mains_proxy"))
        (ofString "circuit_host") = none ∧
      (configFormatSection config (ofString "transport.mains_proxy")).length < HandoffPlugin.mainsProxy.sectionBufLen :=
  ⟨[⟨ofString "transport.mains_proxy", ofString "peer_id", ofString "north"⟩,
    ⟨ofString "transport.mains_proxy", ofString "circuit_host", ofString "10.0.0.1"⟩],
    by decide +kernel, by decide +kernel, by decide +kernel, by decide +kernel, by decide +kernel⟩

end HyBBX.Config
