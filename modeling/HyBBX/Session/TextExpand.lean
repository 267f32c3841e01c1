import HyBBX.Lib.Text

/-! Lines of the text files: how their tokens are replaced, and which lines come out whole. -/

namespace HyBBX.Session

open HyBBX.Lib Lib.Bytes Lib.Text

lemma zero_notMem_nil : 0 ∉ ([] : Bytes) := List.not_mem_nil

structure TextString where
  text : Bytes
  string : 0 ∉ text

/-- The values as the callers pass them; none is NULL. -/
structure TextValues where
  version : Option TextString
  serviceName : Option TextString
  username : Option TextString
  timeText : Option TextString
  dateText : Option TextString

def versionString : TextString := ⟨ofString "2.4.0", by decide⟩
def defaultServiceName : TextString := ⟨ofString "hyBBX", by decide⟩
def TextString.empty : TextString := ⟨[], zero_notMem_nil⟩

/-- The tokens in the order in which they are tried, with what stands for them. -/
def TextValues.tokens (values : TextValues) : List (Bytes × TextString) :=
  [(ofString "@version@", values.version.getD versionString),
    (ofString "@service@", match values.serviceName with
      | none => defaultServiceName
      | some name => if name.text = [] then defaultServiceName else name),
    (ofString "@username@", values.username.getD .empty),
    (ofString "%time%", values.timeText.getD .empty),
    (ofString "%date%", values.dateText.getD .empty)]

/-- The token at the start of the text: its length, and its value. -/
def TextValues.tokenAt (values : TextValues) (line : Bytes) : Option (ℕ × TextString) :=
  (values.tokens.find? fun token => token.1.isPrefixOf line).map fun token => (token.1.length, token.2)

/-- A byte of the output buffer, and whether this call has written it. -/
structure OutByte where
  value : UInt8
  written : Bool
  deriving DecidableEq, Repr

def OutByte.stale (b : UInt8) : OutByte := ⟨b, false⟩
def OutByte.fresh (b : UInt8) : OutByte := ⟨b, true⟩

/-- Where the output goes on, and the buffer. A value that does not fit is not copied, but the position moves to the end. -/
def appendTokenExpanded (out : List OutByte) (pos : ℕ) (value : Bytes) : ℕ × List OutByte :=
  if out.length ≤ pos + value.length then (out.length - 1, out)
  else (pos + value.length, out.take pos ++ value.map .fresh ++ out.drop (pos + value.length))

def expandLoop (values : TextValues) : ℕ → Bytes → ℕ → List OutByte → ℕ × List OutByte
  | 0, _, pos, out => (pos, out)
  | _ + 1, [], pos, out => (pos, out)
  | fuel + 1, b :: line, pos, out =>
    if out.length ≤ pos + 1 then (pos, out)
    else match values.tokenAt (b :: line) with
      | some (len, value) =>
        let r := appendTokenExpanded out pos value.text
        expandLoop values fuel ((b :: line).drop len) r.1 r.2
      | none => expandLoop values fuel line (pos + 1) (out.set pos (.fresh b))

/-- The buffer behind the call. Each round takes a byte off the line, so that its length is enough of them. -/
def expandTextLine (before : Bytes) (line : Bytes) (values : TextValues) : List OutByte :=
  let out := before.map .stale
  if out = [] then out
  else
    let r := expandLoop values line.length line 0 (out.set 0 (.fresh 0))
    r.2.set r.1 (.fresh 0)

/-- What a line consists of: bytes that are copied, and values that stand for tokens. -/
inductive TextPiece
  | byte (b : UInt8)
  | token (value : Bytes)
  deriving DecidableEq, Repr

def TextPiece.text : TextPiece → Bytes
  | byte b => [b]
  | token value => value

def textPieces (values : TextValues) : ℕ → Bytes → List TextPiece
  | 0, _ => []
  | _ + 1, [] => []
  | fuel + 1, b :: line => match values.tokenAt (b :: line) with
    | some (len, value) => .token value.text :: textPieces values fuel ((b :: line).drop len)
    | none => .byte b :: textPieces values fuel line

def TextValues.pieces (values : TextValues) (line : Bytes) : List TextPiece := textPieces values line.length line

def piecesText (pieces : List TextPiece) : Bytes := pieces.flatMap TextPiece.text

/-- The line with each token replaced by its value, and everything else copied. -/
def TextValues.expanded (values : TextValues) (line : Bytes) : Bytes := piecesText (values.pieces line)

/-- The buffer starts with this string, and all of it has been written by the call. -/
def Holds (out : List OutByte) (text : Bytes) : Prop := (text ++ [0]).map .fresh <+: out

/-- The output is the longest front part of the expanded line that there is room for. -/
def ExpandsWhole (before line : Bytes) (values : TextValues) : Prop :=
  Holds (expandTextLine before line values) ((values.expanded line).take (before.length - 1))

/-- No value goes over the end of the room: one that begins in it ends in it. -/
def NoneCut (room : ℕ) (pieces : List TextPiece) : Prop :=
  ∀ front value back, pieces = front ++ .token value :: back → (piecesText front).length < room →
    (piecesText front).length + value.length ≤ room

section Pieces

lemma piecesText_cons (piece : TextPiece) (pieces : List TextPiece) :
    piecesText (piece :: pieces) = piece.text ++ piecesText pieces := List.flatMap_cons

/-- Behind a piece that fits there is less room. -/
lemma noneCut_cons {room : ℕ} {piece : TextPiece} (hfits : piece.text.length ≤ room) (pieces : List TextPiece) :
    NoneCut room (piece :: pieces) ↔ NoneCut (room - piece.text.length) pieces := by
  constructor
  · intro h front value back hpieces hlt
    have hwhole := h (piece :: front) value back (congrArg (piece :: ·) hpieces)
    rw [piecesText_cons, List.length_append] at hwhole
    omega
  · intro h front value back hpieces hlt
    cases front with
    | nil =>
      obtain ⟨rfl, -⟩ := List.cons.inj hpieces
      rw [piecesText, List.flatMap_nil, List.length_nil, Nat.zero_add]
      exact hfits
    | cons other front =>
      obtain ⟨rfl, hmore⟩ := List.cons.inj hpieces
      have hwhole := h front value back hmore
      rw [piecesText_cons, List.length_append] at hlt ⊢
      omega

/-- In a line that fits as a whole nothing is cut. -/
lemma noneCut_of_fits {room : ℕ} {pieces : List TextPiece} (h : (piecesText pieces).length ≤ room) :
    NoneCut room pieces := by
  rintro front value back rfl -
  rw [piecesText, List.flatMap_append, List.flatMap_cons, List.length_append, List.length_append] at h
  rw [piecesText]
  change _ + (value.length + _) ≤ room at h
  omega

lemma noneCut_zero (pieces : List TextPiece) : NoneCut 0 pieces := fun _ _ _ _ h => absurd h (Nat.not_lt_zero _)

lemma not_noneCut {room : ℕ} {value : Bytes} (hroom : 0 < room) (hlong : room < value.length)
    (pieces : List TextPiece) :
    ¬NoneCut room (.token value :: pieces) := by
  intro h
  have hvalue := h [] value pieces rfl hroom
  rw [piecesText, List.flatMap_nil, List.length_nil] at hvalue
  omega

end Pieces

section Loop

variable {values : TextValues} {done : Bytes} {rest : List OutByte}

/-- What the call has not written yet; the first byte of the buffer is cleared in advance. -/
def Blank (rest : List OutByte) : Prop := ∀ c ∈ rest, c.written = false ∨ c.value = 0

lemma tokens_length : ∀ token ∈ values.tokens, 0 < token.1.length := by
  simp only [TextValues.tokens, List.forall_mem_cons]
  refine ⟨by decide, by decide, by decide, by decide, by decide, by simp⟩

lemma tokenAt_length {line : Bytes} {len : ℕ} {value : TextString} (h : values.tokenAt line = some (len, value)) :
    0 < len := by
  obtain ⟨token, htoken, heq⟩ := Option.map_eq_some_iff.mp h
  cases heq
  exact tokens_length token (List.mem_of_find?_eq_some htoken)

lemma expandLoop_full (fuel : ℕ) (line : Bytes) {pos : ℕ} {out : List OutByte} (h : out.length ≤ pos + 1) :
    expandLoop values fuel line pos out = (pos, out) := by
  cases fuel with
  | zero => rfl
  | succ fuel =>
    cases line with
    | nil => rfl
    | cons b line => rw [expandLoop, if_pos h]

lemma set_end (done : Bytes) (c : OutByte) (rest : List OutByte) (b : UInt8) :
    (done.map OutByte.fresh ++ c :: rest).set done.length (.fresh b) = (done ++ [b]).map .fresh ++ rest := by
  simp

/-- The output ends where the loop has come to. -/
lemma holds_end (hne : rest ≠ []) (more : Bytes) (hmore : more = [] ∨ rest.length = 1) :
    Holds ((done.map OutByte.fresh ++ rest).set done.length (.fresh 0))
      ((done ++ more).take (done.length + rest.length - 1)) := by
  obtain ⟨c, rest, rfl⟩ := List.exists_cons_of_ne_nil hne
  have htext : (done ++ more).take (done.length + (c :: rest).length - 1) = done := by
    rcases hmore with rfl | hlen
    · rw [List.append_nil, List.length_cons]
      exact List.take_of_length_le (by omega)
    · rw [hlen, Nat.add_sub_cancel, List.take_left]
  rw [htext, Holds, set_end]
  exact List.prefix_append _ _

/-- Behind a value that does not fit there are bytes that nobody has written. -/
lemma not_holds_cut (hblank : Blank rest) (hlen : 1 < rest.length) {value : Bytes} (hvalue : 0 ∉ value)
    (hlong : rest.length ≤ value.length) (more : Bytes) :
    ¬Holds ((done.map OutByte.fresh ++ rest).set (done.length + rest.length - 1) (.fresh 0))
      ((done ++ (value ++ more)).take (done.length + rest.length - 1)) := by
  obtain ⟨c, rest, rfl⟩ := List.exists_cons_of_length_pos (Nat.zero_lt_of_lt hlen)
  obtain ⟨b, value, rfl⟩ := List.exists_cons_of_length_pos (l := value) (by omega)
  rw [List.length_cons] at hlen
  obtain ⟨n, hn⟩ : ∃ n, rest.length = n + 1 := ⟨rest.length - 1, by omega⟩
  have hpos : done.length + (c :: rest).length - 1 = done.length + (n + 1) := by
    rw [List.length_cons, hn]
    omega
  rw [hpos, List.take_length_add_append, List.cons_append, List.take_succ_cons,
    List.set_append_right _ _ (by simp), List.length_map, Nat.add_sub_cancel_left, List.set_cons_succ]
  intro h
  rw [Holds, List.map_append, List.map_append, List.append_assoc, List.prefix_append_right_inj, List.map_cons,
    List.cons_append, List.cons_prefix_cons] at h
  rcases hblank c List.mem_cons_self with hstale | hzero
  · rw [← h.1] at hstale
    cases hstale
  · rw [← h.1] at hzero
    exact hvalue (hzero ▸ List.mem_cons_self)

/-- The loop from a place in the line on: the invariant is that the buffer holds what has been expanded so far. -/
lemma expandLoop_iff (fuel : ℕ) (line : Bytes) (hfuel : line.length ≤ fuel) {done : Bytes} {rest : List OutByte}
    (hne : rest ≠ []) (hblank : Blank rest) :
    let r := expandLoop values fuel line done.length (done.map .fresh ++ rest)
    Holds (r.2.set r.1 (.fresh 0))
        ((done ++ piecesText (textPieces values fuel line)).take (done.length + rest.length - 1)) ↔
      NoneCut (rest.length - 1) (textPieces values fuel line) := by
  induction fuel generalizing line done rest with
  | zero =>
    obtain rfl : line = [] := List.length_eq_zero_iff.mp (Nat.le_zero.mp hfuel)
    exact iff_of_true (holds_end hne [] (.inl rfl)) (by rintro (_ | _) _ _ ⟨⟩)
  | succ fuel ih =>
    cases line with
    | nil => exact iff_of_true (holds_end hne [] (.inl rfl)) (by rintro (_ | _) _ _ ⟨⟩)
    | cons b line =>
      have hpos := List.length_pos_iff.mpr hne
      have hout : (done.map OutByte.fresh ++ rest).length = done.length + rest.length := by
        rw [List.length_append, List.length_map]
      rw [List.length_cons] at hfuel
      by_cases hroom : rest.length = 1
      · rw [expandLoop_full _ _ (by rw [hout]; omega)]
        exact iff_of_true (holds_end hne _ (.inr hroom)) (by rw [hroom]; exact noneCut_zero _)
      have hgo : ¬(done.map OutByte.fresh ++ rest).length ≤ done.length + 1 := by
        rw [hout]
        omega
      rw [expandLoop, if_neg hgo, textPieces]
      cases htoken : values.tokenAt (b :: line) with
      | none =>
        obtain ⟨c, rest, rfl⟩ := List.exists_cons_of_ne_nil hne
        have hrest : rest ≠ [] := by
          rintro rfl
          exact hroom rfl
        have hnext := @ih line (by omega) (done ++ [b]) rest hrest fun d hd => hblank d (List.mem_cons_of_mem c hd)
        have hlen : (done ++ [b]).length = done.length + 1 := List.length_append
        have hend : done.length + 1 + rest.length - 1 = done.length + (c :: rest).length - 1 := by
          rw [List.length_cons]
          omega
        have hfits : (TextPiece.byte b).text.length ≤ (c :: rest).length - 1 := List.length_pos_iff.mpr hrest
        dsimp only at hnext ⊢
        rw [hlen, hend, List.append_assoc] at hnext
        rw [set_end, piecesText_cons, noneCut_cons hfits]
        exact hnext
      | some token =>
        obtain ⟨len, value⟩ := token
        have htoken := tokenAt_length htoken
        dsimp only
        rw [appendTokenExpanded, hout, piecesText_cons]
        by_cases hfits : rest.length ≤ value.text.length
        · rw [if_pos (by omega), expandLoop_full _ _ (by rw [hout]; omega)]
          exact iff_of_false (not_holds_cut hblank (by omega) value.string hfits _)
            (not_noneCut (by omega) (by omega) _)
        · have hnext := @ih ((b :: line).drop len) (by rw [List.length_drop, List.length_cons]; omega)
            (done ++ value.text) (rest.drop value.text.length)
            (by rw [ne_eq, List.drop_eq_nil_iff]; exact hfits) fun d hd => hblank d (List.mem_of_mem_drop hd)
          have htext : (TextPiece.token value.text).text.length ≤ rest.length - 1 := by
            rw [TextPiece.text]
            omega
          have hend : (done ++ value.text).length + (rest.drop value.text.length).length - 1 =
              done.length + rest.length - 1 := by
            rw [List.length_append, List.length_drop]
            omega
          have hleft : rest.length - 1 - (TextPiece.token value.text).text.length =
              (rest.drop value.text.length).length - 1 := by
            rw [TextPiece.text, List.length_drop]
            omega
          have hcopied : (done.map OutByte.fresh ++ rest).take done.length ++ value.text.map .fresh ++
              (done.map OutByte.fresh ++ rest).drop (done.length + value.text.length) =
              (done ++ value.text).map .fresh ++ rest.drop value.text.length := by
            rw [List.take_left' (List.length_map _), List.map_append, List.drop_append, List.length_map,
              Nat.add_sub_cancel_left, List.drop_of_length_le (by rw [List.length_map]; omega), List.nil_append]
          dsimp only at hnext
          rw [hend, List.append_assoc, List.length_append] at hnext
          rw [if_neg (by omega), hcopied, noneCut_cons htext, hleft]
          exact hnext

end Loop

/-- The output is the longest front part of the expanded line that fits, written in this call, exactly if the limit does not
fall inside of a value. -/
theorem expands_whole_iff (before : Bytes) (hbefore : before ≠ []) (line : TextString) (values : TextValues) :
    ExpandsWhole before line.text values ↔ NoneCut (before.length - 1) (values.pieces line.text) := by
  obtain ⟨b, before, rfl⟩ := List.exists_cons_of_ne_nil hbefore
  have hblank : Blank (.fresh 0 :: before.map .stale) := by
    intro c hc
    rcases List.mem_cons.mp hc with rfl | hc
    · exact .inr rfl
    · obtain ⟨d, -, rfl⟩ := List.mem_map.mp hc
      exact .inl rfl
  have h := @expandLoop_iff values line.text.length line.text (le_refl _) [] (OutByte.fresh 0 :: before.map OutByte.stale)
    (List.cons_ne_nil _ _) hblank
  rw [List.length_cons, List.length_map, List.length_nil, Nat.zero_add] at h
  exact h

def guestValues : TextValues :=
  ⟨none, none, some ⟨ofString "Guest1", by decide⟩, none, none⟩

theorem expands_whole_guest : ExpandsWhole (List.replicate 12 0x2A) (ofString "Hi @username@!") guestValues :=
  (expands_whole_iff (List.replicate 12 0x2A) (by decide) ⟨ofString "Hi @username@!", by decide⟩ guestValues).mpr
    (noneCut_of_fits (by decide +kernel))

/-- A buffer of eight bytes ends inside of the name: behind the blank there is what was in the buffer before. -/
theorem expands_stale :
    (expandTextLine (ofString "SECRETS!") (ofString "Hi @username@!") guestValues).map OutByte.value =
      ofString "Hi RETS" ++ [0] ∧
    guestValues.expanded (ofString "Hi @username@!") = ofString "Hi Guest1!" ∧
    ¬ExpandsWhole (ofString "SECRETS!") (ofString "Hi @username@!") guestValues := by
  have hout : (expandTextLine (ofString "SECRETS!") (ofString "Hi @username@!") guestValues).map OutByte.value =
      ofString "Hi RETS" ++ [0] := by decide +kernel
  have hfull : guestValues.expanded (ofString "Hi @username@!") = ofString "Hi Guest1!" := by decide +kernel
  refine ⟨hout, hfull, ?_⟩
  rw [ExpandsWhole, hfull, Holds]
  decide +kernel

end HyBBX.Session
