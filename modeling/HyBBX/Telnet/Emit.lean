import HyBBX.Core.Types
import HyBBX.Lib.Text

/-! What a session hands to its transport: texts filtered byte by byte, and echoed input as it is. -/

namespace HyBBX.Telnet

open HyBBX.Core Lib Lib.Bytes Lib.Text

abbrev esc : UInt8 := 0x1B
abbrev bracket : UInt8 := 0x5B

structure TrafficConfig where
  lineWidth : ℕ
  ansi : Bool
  deriving DecidableEq, Repr

/-- How many bytes of the text are used up, and the character they stand for. -/
def trafficPlainChar : Bytes → ℕ × Option UInt8
  | [] => (0, none)
  | ch :: rest =>
    if ch = cr then (1, some nl)
    else if ch = nl then (1, some nl)
    else if ch = tab then (1, some blank)
    else if ch < 0x20 ∨ ch = 0x7F then (1, none)
    else if ch = esc ∧ rest.head? = some bracket then
      let params := rest.tail.takeWhile fun b => b < 0x40 || 0x7E < b
      (if params.length < rest.tail.length then params.length + 3 else rest.length + 1, none)
    else if ch = esc then (1, none)
    else (1, some ch)

/-- `HYBBX_TERM_SGR_LIGHTGRAY_ON_BLACK` -/
def termSgrLightgrayOnBlack : Bytes := esc :: ofString "[37;40m"

section Emit

variable {τ : Type*} (write : τ → Bytes → HybbxResult × τ) (cfg : TrafficConfig)

def emitNewline (st : τ) (outCol : ℕ) : HybbxResult × τ × ℕ :=
  match write st [cr] with
  | (.ok, st) =>
    match write st [nl] with
    | (.ok, st) => (.ok, st, 0)
    | (rc, st) => (rc, st, outCol)
  | (rc, st) => (rc, st, outCol)

/-- Write the bytes one by one, up to the first failure. -/
def emitAll : τ → Bytes → HybbxResult × τ
  | st, [] => (.ok, st)
  | st, b :: bs =>
    match write st [b] with
    | (.ok, st) => emitAll st bs
    | (rc, st) => (rc, st)

def emitWrap (st : τ) (outCol col : ℕ) : HybbxResult × τ × ℕ :=
  if 0 < cfg.lineWidth ∧ cfg.lineWidth ≤ col then emitNewline write st outCol else (.ok, st, outCol)

/-- The loop over a text; `fuel` bounds the characters left, `outCol` is the column kept for the next text. -/
def emitLoop : ℕ → τ → ℕ → ℕ → Bytes → HybbxResult × τ × ℕ
  | 0, st, _, col, _ => (.ok, st, col)
  | fuel + 1, st, outCol, col, data =>
    if data = [] then (.ok, st, col)
    else match trafficPlainChar data with
    | (step, none) => emitLoop fuel st outCol col (data.drop (max step 1))
    | (step, some ch) =>
      if ch = nl then
        match emitNewline write st outCol with
        | (.ok, st, outCol) => emitLoop fuel st outCol 0 (data.drop step)
        | r => r
      else
        match emitWrap write cfg st outCol col with
        | (.ok, st, outCol) =>
          match write st [ch] with
          | (.ok, st) =>
            emitLoop fuel st outCol ((if 0 < cfg.lineWidth ∧ cfg.lineWidth ≤ col then 0 else col) + 1) (data.drop step)
          | (rc, st) => (rc, st, outCol)
        | r => r

def trafficEmit (st : τ) (outCol : ℕ) (data : Bytes) : HybbxResult × τ × ℕ :=
  if data = [] then (.ok, st, outCol)
  else if cfg.ansi ∧ data = termSgrLightgrayOnBlack then
    match emitAll write st data with
    | (rc, st) => (rc, st, outCol)
  else emitLoop write cfg data.length st outCol outCol data

/-- `hybbx_session_write` -/
def sessionWrite (paused : Bool) (st : τ) (outCol : ℕ) (text : Bytes) : HybbxResult × τ × ℕ :=
  if paused then (.ok, st, outCol) else trafficEmit write cfg st outCol text

/-- The line editor writes past the filter. -/
def sessionWriteTransport (st : τ) (data : Bytes) : HybbxResult × τ :=
  if data = [] then (.ok, st) else write st data

variable {write} {I : τ → Prop} (hwrite : ∀ st data, I st → I (write st data).2)
include hwrite

lemma emitNewline_keeps {st : τ} (outCol : ℕ) (h : I st) : I (emitNewline write st outCol).2.1 := by
  have h1 := hwrite st [cr] h
  rw [emitNewline]
  split
  · rename_i st1 he
    rw [he] at h1
    have h2 := hwrite st1 [nl] h1
    split
    · rename_i he2
      rwa [he2] at h2
    · rename_i he2
      rwa [he2] at h2
  · rename_i he
    rwa [he] at h1

lemma emitAll_keeps (data : Bytes) {st : τ} (h : I st) : I (emitAll write st data).2 := by
  induction data generalizing st with
  | nil => exact h
  | cons b bs ih =>
    have h1 := hwrite st [b] h
    rw [emitAll]
    split
    · rename_i he
      rw [he] at h1
      exact ih h1
    · rename_i he
      rwa [he] at h1

lemma emitWrap_keeps {st : τ} (outCol col : ℕ) (h : I st) : I (emitWrap write cfg st outCol col).2.1 := by
  rw [emitWrap]
  split_ifs
  · exact emitNewline_keeps hwrite outCol h
  · exact h

lemma emitLoop_keeps (fuel : ℕ) (outCol col : ℕ) (data : Bytes) {st : τ} (h : I st) :
    I (emitLoop write cfg fuel st outCol col data).2.1 := by
  induction fuel generalizing st outCol col data with
  | zero => exact h
  | succ fuel ih =>
    rw [emitLoop]
    by_cases hnil : data = []
    · rw [if_pos hnil]
      exact h
    rw [if_neg hnil]
    cases trafficPlainChar data with
    | mk step out =>
      cases out with
      | none => exact ih _ _ _ h
      | some ch =>
        dsimp only
        by_cases hch : ch = nl
        · rw [if_pos hch]
          have hn := emitNewline_keeps hwrite outCol h
          split
          · rename_i he
            rw [he] at hn
            exact ih _ _ _ hn
          · exact hn
        · rw [if_neg hch]
          have hw := emitWrap_keeps cfg hwrite outCol col h
          split
          · rename_i st1 outCol1 he
            rw [he] at hw
            have h1 := hwrite st1 [ch] hw
            split
            · rename_i he1
              rw [he1] at h1
              exact ih _ _ _ h1
            · rename_i he1
              rwa [he1] at h1
          · exact hw

lemma trafficEmit_keeps (outCol : ℕ) (data : Bytes) {st : τ} (h : I st) :
    I (trafficEmit write cfg st outCol data).2.1 := by
  rw [trafficEmit]
  split_ifs
  · exact h
  · exact emitAll_keeps hwrite data h
  · exact emitLoop_keeps cfg hwrite _ _ _ _ h

lemma sessionWrite_keeps (paused : Bool) (outCol : ℕ) (text : Bytes) {st : τ} (h : I st) :
    I (sessionWrite write cfg paused st outCol text).2.1 := by
  rw [sessionWrite]
  split_ifs
  · exact h
  · exact trafficEmit_keeps cfg hwrite outCol text h

lemma sessionWriteTransport_keeps (data : Bytes) {st : τ} (h : I st) : I (sessionWriteTransport write st data).2 := by
  rw [sessionWriteTransport]
  split_ifs
  · exact h
  · exact hwrite st data h

end Emit

end HyBBX.Telnet
