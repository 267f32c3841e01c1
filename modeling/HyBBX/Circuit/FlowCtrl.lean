import HyBBX.Lib.Text

/-! The FLOW_CTRL payload: two `key=value` lines that name a balancing action and its reason. -/

namespace HyBBX.Circuit

open Lib Lib.Bytes Lib.Text

inductive BalanceAction
  | balNone
  | balPause
  | balBreak
  | balCancel
  | balResume
  deriving DecidableEq, Repr

open BalanceAction

def balanceActionName : BalanceAction → Bytes
  | balPause => ofString "pause"
  | balBreak => ofString "break"
  | balCancel => ofString "cancel"
  | balResume => ofString "resume"
  | balNone => ofString "none"

def flowCtrlScratch : ℕ := 128

-- `none` is `HYBBX_ERR_INVALID`
def flowCtrlParse (payload : Bytes) (reasonCap : ℕ) : Option (BalanceAction × Bytes) := do
  let actionStr ← findKvLine payload (ofString "action") flowCtrlScratch
  let action ←
    if strIeq actionStr (ofString "pause") then some balPause
    else if strIeq actionStr (ofString "break") then some balBreak
    else if strIeq actionStr (ofString "cancel") then some balCancel
    else if strIeq actionStr (ofString "resume") then some balResume
    else none
  some (action, strlcpy reasonCap ((findKvLine payload (ofString "reason") flowCtrlScratch).getD []))

-- a NULL reason is empty, and `none` is the return value 0
def flowCtrlFormat (action : BalanceAction) (reason : Bytes) (outCap : ℕ) : Option Bytes :=
  let reasonStr := if reason ≠ [] then reason else ofString "-"
  if outCap = 0 then none
  else snappend outCap []
    (ofString "action" ++ equals :: balanceActionName action ++ [nl] ++
      (ofString "reason" ++ equals :: reasonStr ++ [nl]))

lemma plainValue_actionName (action : BalanceAction) :
    PlainValue flowCtrlScratch (balanceActionName action) := by
  cases action <;> decide +kernel

lemma flowCtrlParse_flowCtrlFormat {action : BalanceAction} (hn : action ≠ balNone) {reason : Bytes}
    (hr : PlainValue flowCtrlScratch reason) (hne : reason ≠ []) {cap reasonCap : ℕ}
    (hc : reason.length < reasonCap) {payload : Bytes} (hf : flowCtrlFormat action reason cap = some payload) :
    flowCtrlParse payload reasonCap = some (action, reason) := by
  rw [flowCtrlFormat] at hf
  simp only [hne, ne_eq, not_false_eq_true, if_true] at hf
  split_ifs at hf with h0
  rw [snappend] at hf
  split_ifs at hf with h1
  obtain rfl := Option.some.inj hf
  have hp := plainValue_actionName action
  have ha : equals ∉ ofString "action" := by decide
  have hrk : equals ∉ ofString "reason" := by decide
  have h2 := findKvLine_hit ha (by decide) hp (ofString "reason" ++ equals :: reason ++ [nl])
  have h3 : findKvLine _ (ofString "reason") flowCtrlScratch = _ := findKvLine_skip ha (by decide) hp.1
    (by decide) (ofString "reason" ++ equals :: reason ++ [nl])
  have h4 := findKvLine_hit hrk (by decide) hr []
  rw [flowCtrlParse]
  simp only [List.nil_append, List.append_assoc, List.cons_append] at *
  rw [h2, h3, h4]
  cases action
  · exact absurd rfl hn
  all_goals simp [balanceActionName, strlcpy_of_fits hc, strIeq, ofString, lower]

end HyBBX.Circuit
