import HyBBX.Config.Ini

/-! Switches and numbers among the configured values. -/

namespace HyBBX.Config

open Lib Lib.Bytes Lib.Text Lib.Numeral

def boolTrueTokens : List String := ["yes", "true", "enable", "enabled", "on", "1"]

def boolFalseTokens : List String := ["no", "false", "disable", "disabled", "off", "0"]

def boolIsTrue (value : Bytes) : Bool := boolTrueTokens.any fun t => strIeq value (ofString t)

def boolIsFalse (value : Bytes) : Bool := boolFalseTokens.any fun t => strIeq value (ofString t)

def parseBool (value : Bytes) (defaultValue : Bool) : Bool :=
  if value = [] then defaultValue
  else if boolIsTrue value then true
  else if boolIsFalse value then false
  else defaultValue

def configGetBool (config : HybbxConfig) (sectionName key : Bytes) (defaultValue : Bool) : Bool :=
  parseBool ((configGet config sectionName key).getD []) defaultValue

def configGetUint (config : HybbxConfig) (sectionName key : Bytes) (defaultValue minValue maxValue : ℕ) : ℕ :=
  let value := (configGet config sectionName key).getD []
  if value = [] then defaultValue
  else
    let parsed := strtoul value
    if parsed.2 ≠ [] then defaultValue else min (max parsed.1 minValue) maxValue

lemma configGetUint_mem {config : HybbxConfig} {sectionName key : Bytes} {defaultValue minValue maxValue : ℕ}
    (hmin : minValue ≤ defaultValue) (hmax : defaultValue ≤ maxValue) :
    minValue ≤ configGetUint config sectionName key defaultValue minValue maxValue ∧
      configGetUint config sectionName key defaultValue minValue maxValue ≤ maxValue := by
  rw [configGetUint]
  dsimp only
  split_ifs
  · exact ⟨hmin, hmax⟩
  · exact ⟨hmin, hmax⟩
  · exact ⟨le_min (le_max_right _ _) (le_trans hmin hmax), min_le_right _ _⟩

end HyBBX.Config
