import HyBBX.Telnet.Emit
import HyBBX.Config.Values

/-! What a session's texts come out as: the characters that are left of them, in lines of a bounded length. -/

namespace HyBBX.Telnet

open HyBBX.Core Lib Lib.Bytes Lib.Text Config

def lineWidthDefault : ℕ := 80
def lineWidthMax : ℕ := 132

def trafficConfigDefaults : TrafficConfig := ⟨lineWidthDefault, false⟩

def trafficConfigApply (config : Option HybbxConfig) : TrafficConfig :=
  match config with
  | none => trafficConfigDefaults
  | some config =>
    ⟨configGetUint config (ofString "traffic") (ofString "line_width") lineWidthDefault 20 lineWidthMax,
      configGetBool config (ofString "traffic") (ofString "ansi") false⟩

lemma lineWidth_pos (config : Option HybbxConfig) : 0 < (trafficConfigApply config).lineWidth := by
  cases config with
  | none => exact (by decide : 0 < lineWidthDefault)
  | some config =>
    have hmin := (@configGetUint_mem config (ofString "traffic") (ofString "line_width") lineWidthDefault 20 lineWidthMax
      (by decide) (by decide)).1
    exact lt_of_lt_of_le (by decide) hmin

section Calls

variable {τ : Type*} (write : τ → Bytes → HybbxResult × τ)

/-- A transport that keeps the bytes it has written. -/
def recording (st : τ × Bytes) (data : Bytes) : HybbxResult × (τ × Bytes) :=
  match write st.1 data with
  | (.ok, next) => (.ok, (next, st.2 ++ data))
  | (rc, next) => (rc, (next, st.2))

/-- One text after the other with the column carried along: the bytes of each call; `none` as soon as a call fails. -/
def emitCalls (cfg : TrafficConfig) : τ → ℕ → List Bytes → Option (List Bytes)
  | _, _, [] => some []
  | st, outCol, text :: texts =>
    match trafficEmit (recording write) cfg (st, []) outCol text with
    | (.ok, (st, out), outCol) => (emitCalls cfg st outCol texts).map (out :: ·)
    | _ => none

end Calls

/-- The one text that goes out as it is. -/
def PassesUnfiltered (cfg : TrafficConfig) (text : Bytes) : Prop := cfg.ansi = true ∧ text = termSgrLightgrayOnBlack

/-- What a character of a text should become; a line break is one line feed. -/
def plainChar (ch : UInt8) : Option UInt8 :=
  if ch = cr ∨ ch = nl then some nl
  else if ch = tab then some blank
  else if ch < 0x20 ∨ ch = 0x7F then none
  else some ch

def csiFinal (ch : UInt8) : Bool := 0x40 ≤ ch && ch ≤ 0x7E

/-- A sequence `ESC [ … final` stands at the start of the bytes. -/
def startsCsi : Bytes → Bool
  | ch :: next :: rest => ch = esc && next = bracket && rest.any csiFinal
  | _ => false

def hasCsi (text : Bytes) : Bool := text.tails.any startsCsi

inductive CsiPart
  | outside
  | introducer
  | parameters

/-- What a text should look like: without its control sequences and its other control bytes. -/
def plainText : CsiPart → Bytes → Bytes
  | _, [] => []
  | .outside, ch :: rest =>
    if startsCsi (ch :: rest) then plainText .introducer rest
    else (plainChar ch).toList ++ plainText .outside rest
  | .introducer, _ :: rest => plainText .parameters rest
  | .parameters, ch :: rest => plainText (if csiFinal ch then .outside else .parameters) rest

/-- The characters go out in order, a line break as CR LF, and further line breaks stand anywhere between them. -/
inductive Wrapped : Bytes → Bytes → Prop
  | nil : Wrapped [] []
  | lineBreak {chars out : Bytes} : Wrapped chars out → Wrapped (nl :: chars) (cr :: nl :: out)
  | char {ch : UInt8} {chars out : Bytes} : ch ≠ nl → Wrapped chars out → Wrapped (ch :: chars) (ch :: out)
  | wrap {chars out : Bytes} : Wrapped chars out → Wrapped chars (cr :: nl :: out)

/-- Every text comes out filtered, and no more than `width` characters between two line breaks of all that is written. -/
structure Filtered (width : ℕ) (texts written : List Bytes) : Prop where
  plain : List.Forall₂ (fun text out => Wrapped (plainText .outside text) out) texts written
  narrow : ∀ before line behind, written.flatten = before ++ line ++ behind → nl ∉ line →
    (line.filter (· ≠ cr)).length ≤ width

section Filter

/-- The characters that go out for a text: its control bytes are dropped one by one. -/
def sentChars (text : Bytes) : Bytes := text.filterMap plainChar

/-- An escape byte is dropped as a control byte before it is looked at. -/
lemma trafficPlainChar_eq (ch : UInt8) (rest : Bytes) : trafficPlainChar (ch :: rest) = (1, plainChar ch) := by
  rw [trafficPlainChar, plainChar]
  by_cases hcr : ch = cr
  · rw [if_pos hcr, if_pos (.inl hcr)]
  rw [if_neg hcr]
  by_cases hnl : ch = nl
  · rw [if_pos hnl, if_pos (.inr hnl)]
  rw [if_neg hnl, if_neg (not_or.mpr ⟨hcr, hnl⟩)]
  by_cases htab : ch = tab
  · rw [if_pos htab, if_pos htab]
  rw [if_neg htab, if_neg htab]
  by_cases hcontrol : ch < 0x20 ∨ ch = 0x7F
  · rw [if_pos hcontrol, if_pos hcontrol]
  rw [if_neg hcontrol, if_neg hcontrol]
  have hesc : ch ≠ esc := by
    rintro rfl
    exact hcontrol (by decide)
  rw [if_neg fun hh => hesc hh.1, if_neg hesc]

/-- The characters in lines, from column `col` on, and the column they end in. -/
def wrapChars (width : ℕ) : ℕ → Bytes → Bytes × ℕ
  | col, [] => ([], col)
  | col, ch :: chars =>
    if ch = nl then
      let r := wrapChars width 0 chars
      (cr :: nl :: r.1, r.2)
    else if 0 < width ∧ width ≤ col then
      let r := wrapChars width 1 chars
      (cr :: nl :: ch :: r.1, r.2)
    else
      let r := wrapChars width (col + 1) chars
      (ch :: r.1, r.2)

lemma wrapChars_append (width : ℕ) (cs ds : Bytes) (col : ℕ) :
    wrapChars width col (cs ++ ds) = ((wrapChars width col cs).1 ++ (wrapChars width (wrapChars width col cs).2 ds).1,
      (wrapChars width (wrapChars width col cs).2 ds).2) := by
  induction cs generalizing col with
  | nil => rfl
  | cons c cs ih =>
    rw [List.cons_append, wrapChars, wrapChars]
    split_ifs
    · simp only [ih, List.cons_append]
    · simp only [ih, List.cons_append]
    · simp only [ih, List.cons_append]

lemma wrapChars_wrapped (width : ℕ) (cs : Bytes) (col : ℕ) : Wrapped cs (wrapChars width col cs).1 := by
  induction cs generalizing col with
  | nil => exact .nil
  | cons c cs ih =>
    rw [wrapChars]
    split_ifs with hnl hfull
    · subst hnl
      exact .lineBreak (ih 0)
    · exact .wrap (.char hnl (ih 1))
    · exact .char hnl (ih (col + 1))

/-- No character goes out behind column `width`. -/
def Narrow (width : ℕ) : ℕ → Bytes → Prop
  | _, [] => True
  | col, b :: bs =>
    if b = nl then Narrow width 0 bs
    else if b = cr then Narrow width col bs
    else col < width ∧ Narrow width (col + 1) bs

lemma wrapChars_narrow {width : ℕ} (hw : 0 < width) {cs : Bytes} (hcr : cr ∉ cs) (col : ℕ) :
    Narrow width col (wrapChars width col cs).1 := by
  have hne : nl ≠ cr := by decide
  induction cs generalizing col with
  | nil => trivial
  | cons c cs ih =>
    obtain ⟨hc, hcs⟩ := not_or.mp (List.mem_cons.not.mp hcr)
    have ih := ih hcs
    rw [wrapChars]
    split_ifs with hnl hfull
    · simpa [Narrow, hne.symm] using ih 0
    · simpa [Narrow, hne.symm, hnl, Ne.symm hc, hw] using ih 1
    · have hlt : col < width := by omega
      simpa [Narrow, hnl, Ne.symm hc, hlt] using ih (col + 1)

lemma Narrow.behind {width col : ℕ} {before rest : Bytes} (h : Narrow width col (before ++ rest)) :
    ∃ col', Narrow width col' rest := by
  induction before generalizing col with
  | nil => exact ⟨col, h⟩
  | cons b bs ih =>
    rw [List.cons_append, Narrow] at h
    split_ifs at h
    · exact ih h
    · exact ih h
    · exact ih h.2

lemma Narrow.stretch {width col : ℕ} {line behind : Bytes} (h : Narrow width col (line ++ behind)) (hline : nl ∉ line) :
    (line.filter (· ≠ cr)).length = 0 ∨ col + (line.filter (· ≠ cr)).length ≤ width := by
  induction line generalizing col with
  | nil => exact .inl rfl
  | cons b bs ih =>
    obtain ⟨hb, hbs⟩ := not_or.mp (List.mem_cons.not.mp hline)
    rw [List.cons_append, Narrow, if_neg (Ne.symm hb)] at h
    by_cases hcr : b = cr
    · rw [if_pos hcr] at h
      rw [List.filter_cons_of_neg (by simp [hcr])]
      exact ih h hbs
    · rw [if_neg hcr] at h
      rw [List.filter_cons_of_pos (by simp [hcr]), List.length_cons]
      have hrest := ih h.2 hbs
      omega

lemma cr_notMem_sentChars (text : Bytes) : cr ∉ sentChars text := by
  have hchar : ∀ ch, plainChar ch ≠ some cr := by
    intro ch
    rw [plainChar]
    split_ifs with hbreak
    · decide
    · decide
    · simp
    · exact fun h => hbreak (.inl (Option.some.inj h))
  intro h
  obtain ⟨ch, -, hch⟩ := List.mem_filterMap.mp h
  exact hchar ch hch

end Filter

section Recorded

variable {τ : Type*} {write : τ → Bytes → HybbxResult × τ} {s s' : τ × Bytes} {cfg : TrafficConfig}

lemma recording_log {data : Bytes} (h : recording write s data = (.ok, s')) : s'.2 = s.2 ++ data := by
  rw [recording] at h
  split at h
  · rw [← (Prod.mk.inj h).2]
  · rename_i hrc _
    exact absurd (Prod.mk.inj h).1 (by simpa using hrc)

lemma emitNewline_log {outCol outCol' : ℕ} (h : emitNewline (recording write) s outCol = (.ok, s', outCol')) :
    s'.2 = s.2 ++ [cr, nl] := by
  rw [emitNewline] at h
  split at h
  · rename_i h₁
    split at h
    · rename_i h₂
      obtain ⟨-, he⟩ := Prod.mk.inj h
      obtain ⟨rfl, -⟩ := Prod.mk.inj he
      rw [recording_log h₂, recording_log h₁, List.append_assoc]
      rfl
    · rename_i hrc _
      exact absurd (Prod.mk.inj h).1 (by simpa using hrc)
  · rename_i hrc _
    exact absurd (Prod.mk.inj h).1 (by simpa using hrc)

lemma emitWrap_log {outCol outCol' col : ℕ} (h : emitWrap (recording write) cfg s outCol col = (.ok, s', outCol')) :
    s'.2 = s.2 ++ if 0 < cfg.lineWidth ∧ cfg.lineWidth ≤ col then [cr, nl] else [] := by
  rw [emitWrap] at h
  split_ifs at h ⊢
  · exact emitNewline_log h
  · obtain ⟨-, he⟩ := Prod.mk.inj h
    obtain ⟨rfl, -⟩ := Prod.mk.inj he
    exact (List.append_nil _).symm

/-- A text that goes through comes out as its characters in lines. -/
lemma emitLoop_log (fuel : ℕ) {outCol outCol' col : ℕ} {data : Bytes} (hfuel : data.length ≤ fuel)
    (h : emitLoop (recording write) cfg fuel s outCol col data = (.ok, s', outCol')) :
    s'.2 = s.2 ++ (wrapChars cfg.lineWidth col (sentChars data)).1 ∧
      outCol' = (wrapChars cfg.lineWidth col (sentChars data)).2 := by
  induction fuel generalizing s outCol col data with
  | zero =>
    obtain rfl := List.length_eq_zero_iff.mp (Nat.le_zero.mp hfuel)
    obtain ⟨-, he⟩ := Prod.mk.inj h
    obtain ⟨rfl, rfl⟩ := Prod.mk.inj he
    exact ⟨(List.append_nil _).symm, rfl⟩
  | succ fuel ih =>
    cases data with
    | nil =>
      rw [emitLoop, if_pos rfl] at h
      obtain ⟨-, he⟩ := Prod.mk.inj h
      obtain ⟨rfl, rfl⟩ := Prod.mk.inj he
      exact ⟨(List.append_nil _).symm, rfl⟩
    | cons ch rest =>
      have hrest : rest.length ≤ fuel := Nat.le_of_succ_le_succ hfuel
      rw [emitLoop, if_neg (List.cons_ne_nil ch rest), trafficPlainChar_eq] at h
      cases hch : plainChar ch with
      | none =>
        rw [hch] at h
        rw [sentChars, List.filterMap_cons_none hch]
        exact ih hrest h
      | some out =>
        rw [hch] at h
        rw [sentChars, List.filterMap_cons_some hch, ← sentChars, wrapChars]
        dsimp only at h
        by_cases hout : out = nl
        · rw [if_pos hout] at h ⊢
          split at h
          · rename_i hnewline
            obtain ⟨hlog, hcol⟩ := ih hrest h
            rw [hlog, emitNewline_log hnewline]
            exact ⟨by simp, hcol⟩
          · rename_i hrc
            exact absurd h (by simpa using hrc s' outCol')
        · rw [if_neg hout] at h ⊢
          split at h
          · rename_i hwrap
            split at h
            · rename_i hsent
              obtain ⟨hlog, hcol⟩ := ih hrest h
              rw [hlog, recording_log hsent, emitWrap_log hwrap]
              split_ifs at hcol ⊢
              · exact ⟨by simp, hcol⟩
              · exact ⟨by simp, hcol⟩
            · rename_i hrc _
              exact absurd (Prod.mk.inj h).1 (by simpa using hrc)
          · rename_i hrc
            exact absurd h (by simpa using hrc s' outCol')

lemma emitCalls_log {st : τ} {outCol : ℕ} {texts written : List Bytes} (hplain : ∀ t ∈ texts, ¬PassesUnfiltered cfg t)
    (h : emitCalls write cfg st outCol texts = some written) :
    List.Forall₂ (fun text out => ∃ col, out = (wrapChars cfg.lineWidth col (sentChars text)).1) texts written ∧
      written.flatten = (wrapChars cfg.lineWidth outCol (texts.flatMap sentChars)).1 := by
  induction texts generalizing st outCol written with
  | nil =>
    obtain rfl := Option.some.inj h
    exact ⟨.nil, rfl⟩
  | cons text texts ih =>
    rw [emitCalls] at h
    split at h
    · rename_i st' out outCol' hcall
      obtain ⟨rest, hrest, rfl⟩ := Option.map_eq_some_iff.mp h
      obtain ⟨heach, hall⟩ := ih (fun t ht => hplain t (List.mem_cons_of_mem text ht)) hrest
      have hone : out = (wrapChars cfg.lineWidth outCol (sentChars text)).1 ∧
          outCol' = (wrapChars cfg.lineWidth outCol (sentChars text)).2 := by
        rw [trafficEmit] at hcall
        by_cases hnil : text = []
        · rw [if_pos hnil] at hcall
          obtain ⟨-, he⟩ := Prod.mk.inj hcall
          obtain ⟨hst, rfl⟩ := Prod.mk.inj he
          obtain ⟨-, rfl⟩ := Prod.mk.inj hst
          rw [hnil]
          exact ⟨rfl, rfl⟩
        · rw [if_neg hnil, if_neg (show ¬(cfg.ansi = true ∧ text = termSgrLightgrayOnBlack) from
            hplain text List.mem_cons_self)] at hcall
          exact emitLoop_log text.length le_rfl hcall
      refine ⟨.cons ⟨outCol, hone.1⟩ heach, ?_⟩
      rw [List.flatten_cons, hall, List.flatMap_cons, wrapChars_append, ← hone.2, ← hone.1]
    · cases h

end Recorded

section Csi

def visible (bs : Bytes) : Bytes := bs.filter fun b => b ≠ cr && b ≠ nl

lemma wrapped_visible {chars out : Bytes} (h : Wrapped chars out) : visible out = visible chars := by
  induction h with
  | nil => rfl
  | lineBreak _ ih => simpa [visible] using ih
  | char _ _ ih =>
    rw [visible, visible] at ih ⊢
    rw [List.filter_cons, List.filter_cons, ih]
  | wrap _ ih => simpa [visible] using ih

lemma sentChars_cons (ch : UInt8) (rest : Bytes) : sentChars (ch :: rest) = (plainChar ch).toList ++
    sentChars rest := by
  rw [sentChars, List.filterMap_cons]
  cases plainChar ch <;> rfl

lemma length_visible_cons (ch : UInt8) (rest : Bytes) :
    (visible (sentChars rest)).length ≤ (visible (sentChars (ch :: rest))).length := by
  rw [sentChars_cons, visible, visible, List.filter_append, List.length_append]
  exact Nat.le_add_left _ _

lemma plainText_length (part : CsiPart) (text : Bytes) :
    (visible (plainText part text)).length ≤ (visible (sentChars text)).length := by
  induction text generalizing part with
  | nil =>
    cases part <;> exact le_rfl
  | cons ch rest ih =>
    cases part with
    | outside =>
      rw [plainText]
      split_ifs
      · exact (ih .introducer).trans (length_visible_cons ch rest)
      · rw [sentChars_cons, visible, visible, List.filter_append, List.filter_append, List.length_append,
          List.length_append]
        exact Nat.add_le_add_left (ih .outside) _
    | introducer => exact (ih .parameters).trans (length_visible_cons ch rest)
    | parameters => exact (ih _).trans (length_visible_cons ch rest)

lemma hasCsi_cons (ch : UInt8) (rest : Bytes) : hasCsi (ch :: rest) = (startsCsi (ch :: rest) || hasCsi rest) := by
  rw [hasCsi, List.tails_cons, List.any_cons, ← hasCsi]

/-- The bracket of a control sequence goes out as a character. -/
lemma plainText_shorter {text : Bytes} (h : hasCsi text = true) :
    (visible (plainText .outside text)).length < (visible (sentChars text)).length := by
  induction text with
  | nil => cases h
  | cons ch rest ih =>
    rw [hasCsi_cons, Bool.or_eq_true] at h
    rw [plainText]
    split_ifs with hstarts
    · cases rest with
      | nil => cases hstarts
      | cons next rest =>
        simp only [startsCsi, Bool.and_eq_true, decide_eq_true_eq] at hstarts
        obtain ⟨⟨rfl, rfl⟩, -⟩ := hstarts
        have hbracket : visible (sentChars (esc :: bracket :: rest)) = bracket :: visible (sentChars rest) := by
          rw [sentChars_cons, sentChars_cons,
            show plainChar esc = none by decide, show plainChar bracket = some bracket by decide]
          rfl
        rw [hbracket, List.length_cons]
        exact Nat.lt_succ_of_le (plainText_length .parameters rest)
    · have hrest := ih (h.resolve_left hstarts)
      rw [sentChars_cons, visible, visible, List.filter_append, List.filter_append, List.length_append,
        List.length_append]
      exact Nat.add_lt_add_left hrest _

lemma plainText_eq {text : Bytes} (h : hasCsi text = false) : plainText .outside text = sentChars text := by
  induction text with
  | nil => rfl
  | cons ch rest ih =>
    rw [hasCsi_cons, Bool.or_eq_false_iff] at h
    rw [plainText, h.1, if_neg Bool.false_ne_true, ih h.2, sentChars_cons]

end Csi

/-- Texts come out filtered exactly if none of them has a control sequence. -/
theorem traffic_filter_iff {τ : Type*} (write : τ → Bytes → HybbxResult × τ) (config : Option HybbxConfig) (st : τ)
    (texts written : List Bytes) (hplain : ∀ t ∈ texts, ¬PassesUnfiltered (trafficConfigApply config) t)
    (hsent : emitCalls write (trafficConfigApply config) st 0 texts = some written) :
    Filtered (trafficConfigApply config).lineWidth texts written ↔ ∀ t ∈ texts, hasCsi t = false := by
  obtain ⟨heach, hall⟩ := emitCalls_log hplain hsent
  constructor
  · intro hfiltered
    have hplainEach := hfiltered.plain
    clear hsent hall hfiltered hplain
    induction heach with
    | nil => exact fun t ht => absurd ht List.not_mem_nil
    | cons hout _ ih =>
      obtain ⟨hone, hrest⟩ := List.forall₂_cons.mp hplainEach
      obtain ⟨col, rfl⟩ := hout
      refine List.forall_mem_cons.mpr ⟨?_, ih hrest⟩
      rw [← Bool.not_eq_true]
      intro hcsi
      have hlt := plainText_shorter hcsi
      rw [← wrapped_visible hone, wrapped_visible (wrapChars_wrapped ..)] at hlt
      exact lt_irrefl _ hlt
  · intro hnone
    refine ⟨?_, fun before line behind he hline => ?_⟩
    · clear hsent hall hplain
      induction heach with
      | nil => exact .nil
      | cons hout _ ih =>
        obtain ⟨hone, hrest⟩ := List.forall_mem_cons.mp hnone
        obtain ⟨col, rfl⟩ := hout
        refine .cons ?_ (ih hrest)
        rw [plainText_eq hone]
        exact wrapChars_wrapped ..
    · have hcr : cr ∉ texts.flatMap sentChars := by
        intro h
        obtain ⟨t, -, ht⟩ := List.mem_flatMap.mp h
        exact cr_notMem_sentChars t ht
      have hnarrow := wrapChars_narrow (lineWidth_pos config) hcr 0
      rw [← hall, he, List.append_assoc] at hnarrow
      obtain ⟨col, hcol⟩ := hnarrow.behind
      rcases hcol.stretch hline with hzero | hle
      · rw [hzero]
        exact Nat.zero_le _
      · exact (Nat.le_add_left _ _).trans hle

def sureWrite (_ : Unit) (_ : Bytes) : HybbxResult × Unit := (.ok, ())

theorem traffic_filter_iff_hello :
    Filtered 80 [ofString "Hello\n", ofString "tab\there"] [ofString "Hello\r\n", ofString "tab here"] ↔
      ∀ t ∈ [ofString "Hello\n", ofString "tab\there"], hasCsi t = false :=
  traffic_filter_iff sureWrite none () _ _ (fun _ _ h => Bool.false_ne_true h.1) (by decide +kernel)

/-- Of a control sequence only the escape byte is dropped. -/
theorem csi_goes_out :
    emitCalls sureWrite (trafficConfigApply none) () 0 [esc :: ofString "[31mX"] = some [ofString "[31mX"] ∧
      ¬PassesUnfiltered (trafficConfigApply none) (esc :: ofString "[31mX") ∧
      ¬Filtered (trafficConfigApply none).lineWidth [esc :: ofString "[31mX"] [ofString "[31mX"] := by
  refine ⟨by decide +kernel, fun h => Bool.false_ne_true h.1, fun h => ?_⟩
  obtain ⟨hone, -⟩ := List.forall₂_cons.mp h.plain
  have hlen := congrArg List.length (wrapped_visible hone)
  exact absurd hlen (by decide +kernel)

end HyBBX.Telnet
