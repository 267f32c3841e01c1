import HyBBX.Config.Entries
import HyBBX.Config.Values
import HyBBX.Lib.Text
import HyBBX.Lib.Segments

/-! The settings of the `max25` daemon, and how they travel in front of the configuration of `packet_radio`. -/

namespace HyBBX.Config

open HyBBX.Core Lib Lib.Bytes Lib.Text Lib.Numeral Lib.LineReader Lib.Segments

def max25DefaultHost : Bytes := ofString "127.0.0.1"
def max25DefaultPort : ℕ := 7325
def max25ProbeTimeoutMs : ℕ := 3000

abbrev instanceSep : UInt8 := 0x1E

instance : NeZero configValueMax := ⟨by decide⟩

structure Max25Config where
  check : Bool
  host : CText configValueMax
  port : ℕ
  timeoutMs : ℕ
  deriving DecidableEq

def max25ConfigDefaults : Max25Config := ⟨true, CText.copy max25DefaultHost, max25DefaultPort, max25ProbeTimeoutMs⟩

section Settings

variable (config : HybbxConfig)

def max25Check : Bool := configGetBool config (ofString "max25") (ofString "check") true

def max25Host : Bytes := (configGet config (ofString "max25") (ofString "host")).getD max25DefaultHost

def max25Port : ℕ := configGetUint config (ofString "max25") (ofString "port") max25DefaultPort 1 65535

def max25Timeout : ℕ := configGetUint config (ofString "max25") (ofString "timeout_ms") max25ProbeTimeoutMs 100 60000

def max25ConfigApply : Max25Config := ⟨max25Check config, CText.copy (max25Host config), max25Port config,
    max25Timeout config⟩

def max25Prefix : Bytes :=
  ofString "max25_check=" ++ ofString (if max25Check config then "yes" else "no") ++ ofString ";max25_host=" ++
    max25Host config ++ ofString ";max25_port=" ++ decimal (max25Port config) ++ ofString ";max25_timeout_ms=" ++
    decimal (max25Timeout config)

def configPrependPacketRadioMax25 (body : Bytes) : Bytes :=
  if body = [] then []
  else (max25Prefix config).take (configValueMax * 2 - 1) ++ instanceSep :: body

end Settings

def findKv (config key : Bytes) (scratchLen : ℕ) : Option Bytes := findPiece semicolon config key scratchLen

def findPrefixedKv (config key : Bytes) (scratchLen : ℕ) : Option Bytes :=
  findKv config ((ofString "max25_" ++ key).take (configKeyMax + 8 - 1)) scratchLen

/-- A number among the values, unless it is outside the bounds. -/
def boundedNumber (value : Option Bytes) (minValue maxValue defaultValue : ℕ) : ℕ :=
  match value with
  | none => defaultValue
  | some v =>
    let n := strtoul v
    if v ≠ [] ∧ n.2 ≠ v ∧ minValue ≤ n.1 ∧ n.1 ≤ maxValue then n.1 else defaultValue

def max25ConfigParseKv (max25Kv : Bytes) : Max25Config :=
  let find (key : String) := findPrefixedKv max25Kv (ofString key) configValueMax
  if max25Kv = [] then { max25ConfigDefaults with check := false }
  else
    { check := match find "check" with | some v => parseBool v true | none => false
      host := match find "host" with
        | some v => if v = [] then max25ConfigDefaults.host else CText.copy v
        | none => max25ConfigDefaults.host
      port := boundedNumber (find "port") 1 65535 max25ConfigDefaults.port
      timeoutMs := boundedNumber (find "timeout_ms") 100 60000 max25ConfigDefaults.timeoutMs }

/-- The settings in front of the instances, and the instances. -/
def max25ConfigSkipPrefix (config : Bytes) : Max25Config × Bytes :=
  let front := config.takeWhile (· ≠ instanceSep)
  let scratchLen := 512
  if front = [] ∨ scratchLen ≤ front.length then ({ max25ConfigDefaults with check := false }, config)
  else
    match findPrefixedKv front (ofString "check") scratchLen with
    | none => ({ max25ConfigDefaults with check := false }, config)
    -- the value has been copied over the settings it was found in
    | some scratch => (max25ConfigParseKv scratch, (config.dropWhile (· ≠ instanceSep)).tail)

lemma findPrefixedKv_of_notMem {config key : Bytes} {scratchLen : ℕ} (h : equals ∉ config) :
    findPrefixedKv config key scratchLen = none := findPiece_of_notMem h

lemma max25ConfigParseKv_of_notMem {max25Kv : Bytes} (h : equals ∉ max25Kv) :
    max25ConfigParseKv max25Kv = { max25ConfigDefaults with check := false } := by
  rw [max25ConfigParseKv]
  split_ifs
  · rfl
  · simp only [findPrefixedKv_of_notMem h, boundedNumber]

/-- All that is read of the settings is the first of them. -/
lemma max25Prefix_front (config : HybbxConfig) : ∃ rest, (max25Prefix config).take (configValueMax * 2 - 1) =
    pair (ofString "max25_check") (ofString (if max25Check config then "yes" else "no")) ++ semicolon :: rest := by
  use ((max25Prefix config).take (configValueMax * 2 - 1)).drop
    (pair (ofString "max25_check") (ofString (if max25Check config then "yes" else "no"))).length.succ
  rw [max25Prefix]
  cases max25Check config <;> rfl

lemma instanceSep_notMem_digits (n : ℕ) : instanceSep ∉ decimal n := by
  intro h
  exact absurd (isDigit_of_mem_decimal h) (by decide)

lemma instanceSep_notMem_prefix {config : HybbxConfig} (h : instanceSep ∉ max25Host config) :
    instanceSep ∉ max25Prefix config := by
  have hcheck : instanceSep ∉ ofString (if max25Check config then "yes" else "no") := by
    cases max25Check config <;> decide
  simp only [max25Prefix, List.mem_append, not_or]
  exact ⟨⟨⟨⟨⟨⟨⟨by decide, hcheck⟩, by decide⟩, h⟩, by decide⟩, instanceSep_notMem_digits _⟩, by decide⟩,
    instanceSep_notMem_digits _⟩

lemma findPrefixedKv_check (check : Bool) (rest : Bytes) :
    findPrefixedKv (pair (ofString "max25_check") (ofString (if check then "yes" else "no")) ++ semicolon :: rest)
      (ofString "check") 512 = some (ofString (if check then "yes" else "no")) := by
  have hkey : (ofString "max25_" ++ ofString "check").take (configKeyMax + 8 - 1) = ofString "max25_check" := by decide
  rw [findPrefixedKv, hkey, findKv, findPiece_append, findPiece_pair (by decide) (by decide) (by decide),
    Option.some_or]
  cases check <;> rfl

lemma takeWhile_instanceSep {front : Bytes} (h : instanceSep ∉ front) (body : Bytes) :
    (front ++ instanceSep :: body).takeWhile (· ≠ instanceSep) = front ∧
      ((front ++ instanceSep :: body).dropWhile (· ≠ instanceSep)).tail = body := by
  have hall : ∀ b ∈ front, decide (b ≠ instanceSep) = true := by
    intro b hb
    rw [decide_eq_true_eq]
    rintro rfl
    exact h hb
  rw [List.takeWhile_append_of_pos hall, List.dropWhile_append_of_pos hall]
  simp

/-- The daemon is taken for switched off whatever the settings were; the instances come through. -/
lemma max25ConfigSkipPrefix_prepend {config : HybbxConfig} {body : Bytes} (hhost : instanceSep ∉ max25Host config)
    (hbody : body ≠ []) : max25ConfigSkipPrefix (configPrependPacketRadioMax25 config body) =
      ({ max25ConfigDefaults with check := false }, body) := by
  obtain ⟨rest, hfront⟩ := max25Prefix_front config
  have hlen : ((max25Prefix config).take (configValueMax * 2 - 1)).length < 512 := by
    rw [List.length_take]
    exact lt_of_le_of_lt (min_le_left _ _) (by decide)
  have hsep : instanceSep ∉ (max25Prefix config).take (configValueMax * 2 - 1) :=
    fun h => instanceSep_notMem_prefix hhost (List.mem_of_mem_take h)
  obtain ⟨htake, hdrop⟩ := takeWhile_instanceSep hsep body
  have hne : (max25Prefix config).take (configValueMax * 2 - 1) ≠ [] := by
    rw [hfront]
    simp [pair]
  have hfind := findPrefixedKv_check (max25Check config) rest
  rw [← hfront] at hfind
  have hvalue : equals ∉ ofString (if max25Check config then "yes" else "no") := by
    cases max25Check config <;> decide
  rw [configPrependPacketRadioMax25, if_neg hbody, max25ConfigSkipPrefix]
  dsimp only
  rw [htake, hdrop, if_neg (not_or.mpr ⟨hne, not_le.mpr hlen⟩), hfind]
  dsimp only
  rw [max25ConfigParseKv_of_notMem hvalue]

lemma max25Host_ok {file : Bytes} {config : HybbxConfig} (h : configLoad file = .ok config) :
    0 ∉ max25Host config ∧ (max25Host config).length < configValueMax := by
  rw [max25Host, configGet]
  cases hf : config.find? fun e => e.matches (ofString "max25") (ofString "host") with
  | none =>
    rw [Option.map_none, Option.getD_none]
    decide
  | some e =>
    have hok := (configLoad_ok h e (List.mem_of_find?_eq_some hf)).1
    rw [Option.map_some, Option.getD_some]
    exact ⟨hok.value_string, hok.value_fits⟩

/-- The settings come back only when they are those of a daemon that is switched off. -/
theorem max25_prefix_round_trip_iff {file : Bytes} {config : HybbxConfig} (h : configLoad file = .ok config)
    {body : Bytes} (hbody : body ≠ []) (hhost : instanceSep ∉ max25Host config) :
    max25ConfigSkipPrefix (configPrependPacketRadioMax25 config body) = (max25ConfigApply config, body) ↔
      max25Check config = false ∧ max25Host config = max25DefaultHost ∧ max25Port config = max25DefaultPort ∧
        max25Timeout config = max25ProbeTimeoutMs := by
  have hcopy : CText.copy (max25Host config) = (CText.copy max25DefaultHost : CText configValueMax) ↔
      max25Host config = max25DefaultHost := by
    constructor
    · intro hc
      have ht := congrArg CText.text hc
      rw [CText.copy_text (max25Host_ok h).1 (max25Host_ok h).2,
        CText.copy_text (by decide) (by decide)] at ht
      exact ht
    · intro hc
      rw [hc]
  rw [max25ConfigSkipPrefix_prepend hhost hbody, max25ConfigDefaults, max25ConfigApply]
  simp only [Prod.mk.injEq, Max25Config.mk.injEq, and_true, ← hcopy]
  constructor
  · rintro ⟨hc, hh, hp, ht⟩
    exact ⟨hc.symm, hh.symm, hp.symm, ht.symm⟩
  · rintro ⟨hc, hh, hp, ht⟩
    exact ⟨hc.symm, hh.symm, hp.symm, ht.symm⟩

def max25OffFile : Bytes := ofString "[max25]\ncheck = no\n"

theorem max25_off_round_trip :
    max25ConfigSkipPrefix (configPrependPacketRadioMax25 [⟨ofString "max25", ofString "check", ofString "no"⟩]
      (ofString "device=/dev/ttyUSB0")) =
        (max25ConfigApply [⟨ofString "max25", ofString "check", ofString "no"⟩], ofString "device=/dev/ttyUSB0") :=
  (@max25_prefix_round_trip_iff max25OffFile _ (by decide +kernel) _ (by decide) (by decide +kernel)).mpr (by decide +kernel)

/-- An empty file asks for the check; the plugin is told not to check. -/
theorem max25_check_lost : configLoad [] = .ok [] ∧
    (max25Host [] ≠ [] ∧ semicolon ∉ max25Host [] ∧ instanceSep ∉ max25Host [] ∧ (max25Prefix []).length < 512) ∧
      (max25ConfigApply []).check = true ∧
        (max25ConfigSkipPrefix (configPrependPacketRadioMax25 [] (ofString "device=/dev/ttyUSB0"))).1.check = false := by
  decide +kernel

end HyBBX.Config
