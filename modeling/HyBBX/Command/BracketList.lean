import HyBBX.Command.RegistryYaml
import HyBBX.Lib.Segments
import HyBBX.Lib.Words

/-! The lists in brackets of `commands.yaml` and `areas.yaml`: which of them are read item by item. -/

namespace HyBBX.Command

open HyBBX.Lib Lib.Bytes Lib.Text Lib.Numeral Lib.LineReader Lib.Segments

/-- The loop of `parse_bracket_list`, with room for so many more verbs; false is the answer -1. -/
def bracketLoop : ℕ → ℕ → Bytes → Option (Bool × List Bytes)
  | 0, _, _ => none
  | fuel + 1, room, p =>
    if p = [] ∨ p.head? = some closeBracket then some (true, [])
    else
      let p := p.dropWhile fun b => b = blank || b = comma
      if p = [] ∨ p.head? = some closeBracket then some (true, [])
      else
        let token := (p.takeWhile tokenByte).take (cmdVerbMax - 1)
        if token = [] then bracketLoop fuel room p
        else if room = 0 then some (false, [])
        else (bracketLoop fuel (room - 1) (p.drop token.length)).map fun r => (r.1, token :: r.2)

def parseBracketList (fuel : ℕ) (value : Bytes) (max : ℕ) : Option (Bool × List Bytes) :=
  if openBracket ∉ value then some (true, []) else bracketLoop fuel max (value.dropWhile (· ≠ openBracket)).tail

/-- The text between the brackets. -/
def listText (value : Bytes) : Bytes := (value.dropWhile (· ≠ openBracket)).tail.takeWhile (· ≠ closeBracket)

def listPieces (value : Bytes) : List Bytes := (listText value).splitOn comma

def isBlankTab (b : UInt8) : Bool := b = blank || b = tab

def trimBy (p : UInt8 → Bool) (s : Bytes) : Bytes := (s.dropWhile p).rdropWhile p

def pieceItems (pieces : List Bytes) : List Bytes := (pieces.map (trimBy isBlankTab)).filter (· ≠ [])

/-- What the answer has to be: the items, as far as there is room. Only an item that does not fit ends the list. -/
structure StoresItems (max : ℕ) (items : List Bytes) (r : Bool × List Bytes) : Prop where
  front : r.2 <+: items
  room : r.2.length ≤ max
  whole : r.1 = true → r.2 = items
  refused : r.1 = false → ∃ item, items[r.2.length]? = some item ∧ (r.2.length = max ∨ cmdVerbMax ≤ item.length)

/-- The list is read to an end, and every item of it is stored whole or refused. -/
def ListExact (max : ℕ) (value : Bytes) : Prop :=
  ∃ fuel r, parseBracketList fuel value max = some r ∧ StoresItems max (pieceItems (listPieces value)) r

/-- The bytes are tested one by one. -/
local instance (p : UInt8 → Prop) [DecidablePred p] (bytes : Bytes) : Decidable (∀ b ∈ bytes, p b) :=
  List.decidableBAll p bytes

/-- Blanks around one short word, if anything. -/
def PlainItem (piece : Bytes) : Prop :=
  (∀ b ∈ trimBy (· = blank) piece, isSpace b = false) ∧ (trimBy (· = blank) piece).length < cmdVerbMax

/-- The items that there is room for are plain, and what stands in front of the next one is blanks. -/
def ReachedPlain : ℕ → List Bytes → Prop
  | _, [] => True
  | 0, piece :: pieces =>
    if ∀ b ∈ piece, b = blank then ReachedPlain 0 pieces else ∀ b ∈ (piece.dropWhile (· = blank)).head?,
      isSpace b = false
  | room + 1, piece :: pieces =>
    if ∀ b ∈ piece, b = blank then ReachedPlain (room + 1) pieces else PlainItem piece ∧ ReachedPlain room pieces

instance (piece : Bytes) : Decidable (PlainItem piece) := by
  unfold PlainItem
  infer_instance

instance decidableReachedPlain : (room : ℕ) → (pieces : List Bytes) → Decidable (ReachedPlain room pieces)
  | 0, [] => .isTrue trivial
  | _ + 1, [] => .isTrue trivial
  | 0, piece :: pieces =>
    have := decidableReachedPlain 0 pieces
    inferInstanceAs (Decidable (if ∀ b ∈ piece, b = blank then ReachedPlain 0 pieces else _))
  | room + 1, piece :: pieces =>
    have := decidableReachedPlain (room + 1) pieces
    have := decidableReachedPlain room pieces
    inferInstanceAs (Decidable (if ∀ b ∈ piece, b = blank then ReachedPlain (room + 1) pieces else PlainItem piece ∧ ReachedPlain room pieces))

/-- The pieces with the commas in front of them, and what stands behind the list. -/
def commaText (pieces : List Bytes) (rest : Bytes) : Bytes := pieces.flatMap (comma :: ·) ++ rest

lemma commaText_cons (piece : Bytes) (pieces : List Bytes) (rest : Bytes) :
    commaText (piece :: pieces) rest = comma :: (piece ++ commaText pieces rest) := by
  rw [commaText, List.flatMap_cons, List.append_assoc]
  rfl

/-- What a token ends at, if it is not cut. -/
def ListStop (x : Bytes) : Prop := ∀ b ∈ x.head?, tokenByte b = false

lemma ListStop.commaText {rest : Bytes} (h : ListStop rest) (pieces : List Bytes) :
    ListStop (commaText pieces rest) := by
  cases pieces with
  | nil => exact h
  | cons piece pieces =>
    rw [commaText_cons]
    rintro b ⟨⟩
    decide

section Loop

variable (fuel room : ℕ)

lemma bracketLoop_end {rest : Bytes} (h : rest = [] ∨ rest.head? = some closeBracket) :
    bracketLoop (fuel + 1) room rest = some (true, []) := by
  rw [bracketLoop, if_pos h]

lemma dropWhile_end {p : Bytes} (h : p = [] ∨ p.head? = some closeBracket) :
    p.dropWhile (fun b => b = blank || b = comma) = p := by
  apply dropWhile_of_head
  rcases h with rfl | h
  · rintro b ⟨⟩
  · rw [h]
    rintro b ⟨⟩
    decide

lemma bracketLoop_skip {b : UInt8} (hb : b = blank ∨ b = comma) (p : Bytes) :
    bracketLoop fuel room (b :: p) = bracketLoop fuel room p := by
  cases fuel with
  | zero => rfl
  | succ fuel =>
    have hskip : (b :: p).dropWhile (fun b => b = blank || b = comma) = p.dropWhile fun b => b = blank || b = comma :=
      List.dropWhile_cons_of_pos (by simpa using hb)
    have hgo : ¬(b :: p = [] ∨ (b :: p).head? = some closeBracket) := by
      rcases hb with rfl | rfl <;> simp <;> decide
    rw [bracketLoop, if_neg hgo, hskip, bracketLoop]
    by_cases hp : p = [] ∨ p.head? = some closeBracket
    · rw [dropWhile_end hp, if_pos hp, ite_self]
    · rw [if_neg hp]

lemma bracketLoop_blanks {blanks : Bytes} (h : ∀ b ∈ blanks, b = blank) (p : Bytes) :
    bracketLoop fuel room (blanks ++ p) = bracketLoop fuel room p := by
  induction blanks with
  | nil => rfl
  | cons b blanks ih =>
    rw [List.cons_append, bracketLoop_skip fuel room (.inl (h b List.mem_cons_self))]
    exact ih fun c hc => h c (List.mem_cons_of_mem b hc)

variable {fuel room}

lemma dropWhile_skips {b : UInt8} (hb : b ≠ blank) (hc : b ≠ comma) (p : Bytes) :
    (b :: p).dropWhile (fun b => b = blank || b = comma) = b :: p := List.dropWhile_cons_of_neg (by simp [hb, hc])

/-- White space that is not a blank is passed over neither by the loop nor by a token. -/
lemma bracketLoop_stuck (fuel : ℕ) {b : UInt8} (hspace : isSpace b = true) (hb : b ≠ blank) (p : Bytes) :
    bracketLoop fuel room (b :: p) = none := by
  have hcomma : b ≠ comma := by
    rintro rfl
    cases hspace
  have hclose : b ≠ closeBracket := by
    rintro rfl
    cases hspace
  induction fuel with
  | zero => rfl
  | succ fuel ih =>
    have hgo : ¬(b :: p = [] ∨ (b :: p).head? = some closeBracket) := by simpa using hclose
    have htoken : ((b :: p).takeWhile tokenByte).take (cmdVerbMax - 1) = [] := by
      rw [List.takeWhile_cons_of_neg (by simp [tokenByte, hspace]), List.take_nil]
    rw [bracketLoop, if_neg hgo, dropWhile_skips hb hcomma, if_neg hgo, htoken, if_pos rfl]
    exact ih

lemma bracketLoop_token {word x : Bytes} (hne : word ≠ []) (hword : ∀ b ∈ word, tokenByte b = true) (hx : ListStop x) :
    bracketLoop (fuel + 1) room (word ++ x) = if room = 0 then some (false, [])
      else (bracketLoop fuel (room - 1) (word.drop (cmdVerbMax - 1) ++ x)).map fun r =>
          (r.1, word.take (cmdVerbMax - 1) :: r.2) := by
  obtain ⟨b, word', rfl⟩ := List.exists_cons_of_ne_nil hne
  have hb : tokenByte b = true := hword b List.mem_cons_self
  obtain ⟨hblank, hcomma, hclose⟩ : b ≠ blank ∧ b ≠ comma ∧ b ≠ closeBracket := by
    refine ⟨?_, ?_, ?_⟩ <;> rintro rfl <;> cases hb
  have hgo : ¬(b :: (word' ++ x) = [] ∨ (b :: (word' ++ x)).head? = some closeBracket) := by simpa using hclose
  have htake : ((b :: word') ++ x).takeWhile tokenByte = b :: word' := by
    rw [List.takeWhile_append_of_pos hword]
    cases x with
    | nil => rw [List.takeWhile_nil, List.append_nil]
    | cons c x => rw [List.takeWhile_cons_of_neg (by simp [hx c rfl]), List.append_nil]
  have hdrop : ((b :: word') ++ x).drop ((b :: word').take (cmdVerbMax - 1)).length =
      (b :: word').drop (cmdVerbMax - 1) ++ x := by
    rw [List.length_take, List.drop_append, Nat.sub_eq_zero_of_le (Nat.min_le_right _ _), List.drop_zero]
    congr 1
    rcases Nat.le_total (cmdVerbMax - 1) (b :: word').length with h | h
    · rw [Nat.min_eq_left h]
    · rw [Nat.min_eq_right h, List.drop_length, List.drop_of_length_le h]
  rw [List.cons_append, bracketLoop, if_neg hgo, dropWhile_skips hblank hcomma, if_neg hgo, ← List.cons_append,
    htake, if_neg]
  · rw [hdrop]
  · rw [cmdVerbMax]
    simp

/-- Without a token the loop stays where it is. -/
lemma bracketLoop_noToken {p : Bytes}
    (htoken : ((p.dropWhile fun b => b = blank || b = comma).takeWhile tokenByte).take (cmdVerbMax - 1) = [])
    (hrest : ¬((p.dropWhile fun b => b = blank || b = comma) = [] ∨ (p.dropWhile fun b => b = blank || b = comma).head? = some closeBracket))
    (fuel : ℕ) : bracketLoop fuel room (p.dropWhile fun b => b = blank || b = comma) = none := by
  cases hp : p.dropWhile (fun b => b = blank || b = comma) with
  | nil => exact absurd (.inl hp) hrest
  | cons b more =>
    have hb : (b = blank || b = comma) = false :=
      head_dropWhile (by rw [hp]; rfl : b ∈ (p.dropWhile fun b => b = blank || b = comma).head?)
    rw [hp] at htoken hrest
    have hnone : tokenByte b = false := by
      rw [Bool.eq_false_iff]
      intro hb
      rw [List.takeWhile_cons_of_pos hb] at htoken
      cases htoken
    have hclose : b ≠ closeBracket := fun h => hrest (.inr (congrArg some h))
    simp only [Bool.or_eq_false_iff, decide_eq_false_iff_not] at hb
    apply bracketLoop_stuck fuel _ hb.1
    simpa [tokenByte, hb.2, hclose] using hnone

lemma bracketLoop_succ {p : Bytes} (hopen : ¬(p = [] ∨ p.head? = some closeBracket)) (fuel : ℕ) :
    bracketLoop (fuel + 1) room p =
    let p := p.dropWhile fun b => b = blank || b = comma
    let token := (p.takeWhile tokenByte).take (cmdVerbMax - 1)
    if p = [] ∨ p.head? = some closeBracket then some (true, [])
    else if token = [] then none
    else if room = 0 then some (false, [])
    else (bracketLoop fuel (room - 1) (p.drop token.length)).map fun r => (r.1, token :: r.2) := by
  rw [bracketLoop, if_neg hopen]
  dsimp only
  split_ifs with hend htoken
  · rfl
  · exact bracketLoop_noToken htoken hend fuel
  · rfl
  · rfl

/-- The loop comes to its end, or it never does, or it takes a token off the text. -/
lemma bracketLoop_cases (room : ℕ) (p : Bytes) : (∃ r, ∀ n, bracketLoop (n + 1) room p = some r) ∨
    (∀ n, bracketLoop n room p = none) ∨
    ∃ token p', p'.length < p.length ∧
      ∀ n, bracketLoop (n + 1) room p = (bracketLoop n (room - 1) p').map fun r => (r.1, token :: r.2) := by
  by_cases hopen : p = [] ∨ p.head? = some closeBracket
  · exact .inl ⟨_, fun n => bracketLoop_end n room hopen⟩
  have hstep := @bracketLoop_succ room p hopen
  have hle := (List.dropWhile_suffix (l := p) fun b => b = blank || b = comma).length_le
  generalize p.dropWhile (fun b => b = blank || b = comma) = p' at hstep hle
  by_cases hend : p' = [] ∨ p'.head? = some closeBracket
  · exact .inl ⟨_, fun n => by rw [hstep, if_pos hend]⟩
  by_cases htoken : (p'.takeWhile tokenByte).take (cmdVerbMax - 1) = []
  · refine .inr (.inl fun n => ?_)
    cases n with
    | zero => rfl
    | succ n => rw [hstep, if_neg hend, if_pos htoken]
  by_cases hroom : room = 0
  · exact .inl ⟨_, fun n => by rw [hstep, if_neg hend, if_neg htoken, if_pos hroom]⟩
  refine .inr (.inr ⟨_, _, ?_, fun n => by rw [hstep, if_neg hend, if_neg htoken, if_neg hroom]⟩)
  have hpos := List.length_pos_iff.mpr htoken
  have hne := List.length_pos_iff.mpr fun h => hend (.inl h)
  rw [List.length_drop]
  omega

lemma bracketLoop_mono {fuel fuel' : ℕ} (hle : fuel ≤ fuel') {p : Bytes} {r : Bool × List Bytes}
    (h : bracketLoop fuel room p = some r) : bracketLoop fuel' room p = some r := by
  induction fuel generalizing fuel' room p r with
  | zero => cases h
  | succ fuel ih =>
    obtain ⟨fuel', rfl⟩ : ∃ n, fuel' = n + 1 := ⟨fuel' - 1, by omega⟩
    rcases bracketLoop_cases room p with ⟨r', hr⟩ | hnone | ⟨token, p', -, hnext⟩
    · rwa [hr] at h ⊢
    · rw [hnone] at h
      cases h
    · rw [hnext] at h ⊢
      obtain ⟨more, hmore, rfl⟩ := Option.map_eq_some_iff.mp h
      rw [ih (Nat.le_of_succ_le_succ hle) hmore]
      rfl

/-- Every token is taken off the text, so its length is fuel enough. -/
lemma bracketLoop_fuel {fuel : ℕ} {p : Bytes} {r : Bool × List Bytes} (h : bracketLoop fuel room p = some r) :
    bracketLoop (p.length + 1) room p = some r := by
  induction fuel generalizing room p r with
  | zero => cases h
  | succ fuel ih =>
    rcases bracketLoop_cases room p with ⟨r', hr⟩ | hnone | ⟨token, p', hlen, hnext⟩
    · rwa [hr] at h ⊢
    · rw [hnone] at h
      cases h
    · rw [hnext] at h ⊢
      obtain ⟨more, hmore, rfl⟩ := Option.map_eq_some_iff.mp h
      rw [bracketLoop_mono hlen (ih hmore)]
      rfl

lemma bracketLoop_enough {fuel : ℕ} {p : Bytes} (hfuel : p.length + 1 ≤ fuel) :
    bracketLoop fuel room p = bracketLoop (p.length + 1) room p := by
  cases h : bracketLoop (p.length + 1) room p with
  | some r => exact bracketLoop_mono hfuel h
  | none =>
    cases h' : bracketLoop fuel room p with
    | none => rfl
    | some r =>
      rw [bracketLoop_fuel h'] at h
      cases h

/-- The loop that the lists of levels are read with. -/
lemma bracketTokens_eq (fuel : ℕ) (room : ℕ) (p : Bytes) :
    bracketTokens fuel room p = (bracketLoop fuel room p).map fun r => if r.1 then some r.2 else none := by
  induction fuel generalizing room p with
  | zero => rfl
  | succ fuel ih =>
    rw [bracketTokens]
    dsimp only
    by_cases hopen : p = [] ∨ p.head? = some closeBracket
    · rw [dropWhile_end hopen, if_pos hopen, bracketLoop_end fuel room hopen]
      rfl
    · rw [bracketLoop_succ hopen]
      dsimp only
      split_ifs
      · rfl
      · rfl
      · rfl
      · rw [ih, Option.map_map, Option.map_map]
        congr 1
        funext r
        obtain ⟨ok, stored⟩ := r
        cases ok <;> rfl

end Loop

section Pieces

variable {piece : Bytes} {pieces : List Bytes} {rest : Bytes} {fuel room : ℕ}

/-- A piece is all blanks, or other white space stands in front of its text, or it begins with a word. -/
lemma piece_cases (piece : Bytes) : (∀ b ∈ piece, b = blank) ∨
    (∃ blanks b more, piece = blanks ++ b :: more ∧ (∀ c ∈ blanks, c = blank) ∧ isSpace b = true ∧ b ≠ blank) ∨
    ∃ blanks word more, piece = blanks ++ (word ++ more) ∧ (∀ c ∈ blanks, c = blank) ∧ word ≠ [] ∧
      (∀ c ∈ word, isSpace c = false) ∧ ∀ c ∈ more.head?, isSpace c = true := by
  have hsplit := List.takeWhile_append_dropWhile (p := (· = blank)) (l := piece)
  have hblanks : ∀ c ∈ piece.takeWhile (· = blank), c = blank := fun c hc => by simpa using List.mem_takeWhile_imp hc
  cases hrest : piece.dropWhile (· = blank) with
  | nil =>
    rw [hrest, List.append_nil] at hsplit
    exact .inl (hsplit ▸ hblanks)
  | cons b more =>
    have hb : b ≠ blank := by simpa using head_dropWhile (by rw [hrest]; rfl : b ∈ (piece.dropWhile (· = blank)).head?)
    rw [hrest] at hsplit
    by_cases hspace : isSpace b = true
    · exact .inr (.inl ⟨_, b, more, hsplit.symm, hblanks, hspace, hb⟩)
    · have hword := List.takeWhile_append_dropWhile (p := fun c => !isSpace c) (l := b :: more)
      refine .inr (.inr ⟨_, (b :: more).takeWhile fun c => !isSpace c, (b :: more).dropWhile fun c => !isSpace c, ?_, hblanks, ?_, ?_, ?_⟩)
      · rw [hword, hsplit]
      · rw [List.takeWhile_cons_of_pos (by simp [hspace])]
        simp
      · exact fun c hc => by simpa using List.mem_takeWhile_imp hc
      · exact fun c hc => by simpa using head_dropWhile hc

lemma trimBy_blanks {p : UInt8 → Bool} (hp : ∀ b ∈ piece, p b = true) : trimBy p piece = [] := by
  rw [trimBy, List.dropWhile_eq_nil_iff.mpr hp, List.rdropWhile_nil]

/-- What trimming leaves of a piece with a word in front. -/
lemma trimBy_word {p : UInt8 → Bool} (hp : ∀ b, p b = true → isSpace b = true) {blanks word more : Bytes}
    (hblanks : ∀ c ∈ blanks, p c = true) (hne : word ≠ []) (hword : ∀ c ∈ word, isSpace c = false) :
    trimBy p (blanks ++ (word ++ more)) = word ++ more.rdropWhile p := by
  have hplain : ∀ c ∈ word, p c = false := by
    intro c hc
    rw [Bool.eq_false_iff]
    intro h
    exact absurd (hp c h) (by simp [hword c hc])
  have hfront : (word ++ more).dropWhile p = word ++ more := by
    apply dropWhile_of_head
    intro b hb
    rw [List.head?_append_of_ne_nil _ hne] at hb
    exact hplain b (List.mem_of_mem_head? hb)
  rw [trimBy, List.dropWhile_append_of_pos hblanks, hfront,
    rdropWhile_append_of_last fun b hb => hplain b (List.mem_of_mem_getLast? hb)]

lemma isBlankTab_space (b : UInt8) (h : isBlankTab b = true) : isSpace b = true := by
  rw [isBlankTab, Bool.or_eq_true, decide_eq_true_iff, decide_eq_true_iff] at h
  rcases h with rfl | rfl <;> rfl

lemma isBlank_space (b : UInt8) (h : decide (b = blank) = true) : isSpace b = true := by
  obtain rfl : b = blank := by simpa using h
  rfl

lemma blanks_tab {blanks : Bytes} (h : ∀ c ∈ blanks, c = blank) : ∀ c ∈ blanks, isBlankTab c = true := by
  intro c hc
  rw [h c hc]
  rfl

lemma pieceItems_blanks (h : ∀ b ∈ piece, b = blank) : pieceItems (piece :: pieces) = pieceItems pieces := by
  rw [pieceItems, List.map_cons, trimBy_blanks (blanks_tab h), List.filter_cons_of_neg (by simp)]
  rfl

lemma pieceItems_word {item : Bytes} (h : trimBy isBlankTab piece = item) (hne : item ≠ []) :
    pieceItems (piece :: pieces) = item :: pieceItems pieces := by
  rw [pieceItems, List.map_cons, h, List.filter_cons_of_pos (by simpa using hne)]
  rfl

/-- Behind a word that ends a piece, all that the loop can pass over is blanks. -/
lemma more_blanks {more x : Bytes} (hmore : more.rdropWhile isBlankTab = [])
    (h : bracketLoop fuel room (more ++ x) ≠ none) :
    ∀ c ∈ more, c = blank := by
  intro c hc
  by_contra hblank
  rw [List.rdropWhile_eq_nil_iff] at hmore
  have hsplit := List.takeWhile_append_dropWhile (p := (· = blank)) (l := more)
  cases hrest : more.dropWhile (· = blank) with
  | nil =>
    have := List.dropWhile_eq_nil_iff.mp hrest c hc
    exact hblank (by simpa using this)
  | cons b more' =>
    have hb : b ≠ blank := by simpa using head_dropWhile (by rw [hrest]; rfl : b ∈ (more.dropWhile (· = blank)).head?)
    have hspace : isSpace b = true := by
      apply isBlankTab_space
      apply hmore
      rw [← hsplit, hrest]
      simp
    apply h
    rw [← hsplit, hrest, List.append_assoc, List.cons_append, bracketLoop_blanks, bracketLoop_stuck fuel hspace hb]
    exact fun c hc => by simpa using List.mem_takeWhile_imp hc

lemma StoresItems.cons {item : Bytes} {items stored : List Bytes} {ok : Bool}
    (h : StoresItems room items (ok, stored)) :
    StoresItems (room + 1) (item :: items) (ok, item :: stored) where
  front := List.cons_prefix_cons.mpr ⟨rfl, h.front⟩
  room := Nat.succ_le_succ h.room
  whole hok := congrArg (item :: ·) (h.whole hok)
  refused hok := by
    obtain ⟨next, hnext, hfit⟩ := h.refused hok
    exact ⟨next, hnext, hfit.imp_left (congrArg Nat.succ)⟩

lemma StoresItems.tail {item token : Bytes} {items stored : List Bytes} {ok : Bool}
    (h : StoresItems (room + 1) (item :: items) (ok, token :: stored)) :
    token = item ∧ StoresItems room items (ok, stored) := by
  obtain ⟨hfirst, hfront⟩ := List.cons_prefix_cons.mp h.front
  refine ⟨hfirst, hfront, Nat.le_of_succ_le_succ h.room, fun hok => (List.cons.inj (h.whole hok)).2, fun hok => ?_⟩
  obtain ⟨next, hnext, hfit⟩ := h.refused hok
  exact ⟨next, hnext, hfit.imp_left Nat.succ.inj⟩

variable (hcomma : ∀ piece ∈ pieces,
    comma ∉ piece ∧ closeBracket ∉ piece) (hrest : rest = [] ∨ rest.head? = some closeBracket)

lemma listStop_rest (hrest : rest = [] ∨ rest.head? = some closeBracket) : ListStop rest := by
  rcases hrest with rfl | hrest
  · rintro b ⟨⟩
  · rw [ListStop, hrest]
    rintro b ⟨⟩
    decide

lemma listStop_more {more : Bytes} (hmore : ∀ c ∈ more.head?, isSpace c = true) {x : Bytes} (hx : ListStop x) :
    ListStop (more ++ x) := by
  cases more with
  | nil => exact hx
  | cons c more =>
    rintro b ⟨⟩
    simp [tokenByte, hmore c rfl]

lemma tokenByte_word {word : Bytes} (hword : ∀ c ∈ word, isSpace c = false) (hcomma : comma ∉ word)
    (hclose : closeBracket ∉ word) :
    ∀ c ∈ word, tokenByte c = true := by
  intro c hc
  have hne : c ≠ comma ∧ c ≠ closeBracket := ⟨fun h => hcomma (h ▸ hc), fun h => hclose (h ▸ hc)⟩
  simp [tokenByte, hword c hc, hne]

lemma pieceItems_piece {blanks word more : Bytes} (hpiece : piece = blanks ++ (word ++ more))
    (hblanks : ∀ c ∈ blanks, c = blank)
    (hne : word ≠ []) (hword : ∀ c ∈ word, isSpace c = false) :
    pieceItems (piece :: pieces) = (word ++ more.rdropWhile isBlankTab) :: pieceItems pieces := by
  apply pieceItems_word
  · rw [hpiece, trimBy_word isBlankTab_space (blanks_tab hblanks) hne hword]
  · simp [hne]

lemma loop_blanks (h : ∀ b ∈ piece, b = blank) (fuel room : ℕ) :
    bracketLoop fuel room (commaText (piece :: pieces) rest) = bracketLoop fuel room (commaText pieces rest) := by
  rw [commaText_cons, bracketLoop_skip fuel room (.inr rfl), bracketLoop_blanks fuel room h]

lemma loop_stuck {blanks more : Bytes} {b : UInt8} (hpiece : piece = blanks ++ b :: more)
    (hblanks : ∀ c ∈ blanks, c = blank)
    (hspace : isSpace b = true) (hb : b ≠ blank) (fuel room : ℕ) :
    bracketLoop fuel room (commaText (piece :: pieces) rest) = none := by
  rw [commaText_cons, bracketLoop_skip fuel room (.inr rfl), hpiece, List.append_assoc,
    bracketLoop_blanks fuel room hblanks,
    List.cons_append, bracketLoop_stuck fuel hspace hb]

lemma loop_word {blanks word more : Bytes} (hpiece : piece = blanks ++ (word ++ more))
    (hblanks : ∀ c ∈ blanks, c = blank)
    (hne : word ≠ []) (hword : ∀ c ∈ word, isSpace c = false) (hmore : ∀ c ∈ more.head?, isSpace c = true)
    (hplain : comma ∉ piece ∧ closeBracket ∉ piece) (hrest : rest = [] ∨ rest.head? = some closeBracket)
    (fuel room : ℕ) :
    bracketLoop (fuel + 1) room (commaText (piece :: pieces) rest) = if room = 0 then some (false, [])
      else (bracketLoop fuel (room - 1) (word.drop (cmdVerbMax - 1) ++ (more ++ commaText pieces rest))).map
        fun r => (r.1, word.take (cmdVerbMax - 1) :: r.2) := by
  subst hpiece
  simp only [List.mem_append, not_or] at hplain
  rw [commaText_cons, bracketLoop_skip _ room (.inr rfl), List.append_assoc, bracketLoop_blanks _ room hblanks,
    List.append_assoc,
    bracketLoop_token hne (tokenByte_word hword hplain.1.2.1 hplain.2.2.1)
      (listStop_more hmore ((listStop_rest hrest).commaText pieces))]

lemma plainItem_word {blanks word more : Bytes} (hblanks : ∀ c ∈ blanks, c = blank) (hne : word ≠ [])
    (hword : ∀ c ∈ word, isSpace c = false) (hmore : ∀ c ∈ more.head?, isSpace c = true) :
    PlainItem (blanks ++ (word ++ more)) ↔ word.length < cmdVerbMax ∧ ∀ c ∈ more, c = blank := by
  rw [PlainItem, trimBy_word isBlank_space (by simpa using hblanks) hne hword]
  constructor
  · rintro ⟨hplain, hlen⟩
    have hnone : more.rdropWhile (· = blank) = [] := by
      cases hleft : more.rdropWhile (· = blank) with
      | nil => rfl
      | cons c left =>
        obtain ⟨t, ht⟩ := List.rdropWhile_prefix (· = blank) more
        rw [hleft] at ht hplain
        have hspace := hmore c (by rw [← ht]; rfl)
        rw [hplain c (by simp)] at hspace
        cases hspace
    rw [hnone, List.append_nil] at hlen
    exact ⟨hlen, by simpa using List.rdropWhile_eq_nil_iff.mp hnone⟩
  · rintro ⟨hlen, hblank⟩
    rw [List.rdropWhile_eq_nil_iff.mpr (by simpa using hblank), List.append_nil]
    exact ⟨hword, hlen⟩

lemma dropWhile_blanks {blanks : Bytes} (hblanks : ∀ c ∈ blanks, c = blank) {b : UInt8} (hb : b ≠ blank)
    (more : Bytes) :
    (blanks ++ b :: more).dropWhile (· = blank) = b :: more := by
  rw [List.dropWhile_append_of_pos (by simpa using hblanks), List.dropWhile_cons_of_neg (by simpa using hb)]

/-- In front of other white space a list is not plain. -/
lemma not_reachedPlain {blanks more : Bytes} {b : UInt8} (hpiece : piece = blanks ++ b :: more)
    (hblanks : ∀ c ∈ blanks, c = blank)
    (hspace : isSpace b = true) (hb : b ≠ blank) : ¬ReachedPlain room (piece :: pieces) := by
  subst hpiece
  have hlong : ¬∀ c ∈ blanks ++ b :: more, c = blank := fun h => hb (h b (by simp))
  intro h
  cases room with
  | zero =>
    rw [ReachedPlain, if_neg hlong, dropWhile_blanks hblanks hb] at h
    have := h b rfl
    rw [hspace] at this
    cases this
  | succ room =>
    rw [ReachedPlain, if_neg hlong, PlainItem, trimBy, dropWhile_blanks hblanks hb, ← List.singleton_append,
      rdropWhile_append_of_last (by rintro c ⟨⟩; exact decide_eq_false hb)] at h
    have := h.1.1 b (by simp)
    rw [hspace] at this
    cases this

lemma not_blanks {blanks word more : Bytes} (hne : word ≠ []) (hword : ∀ c ∈ word, isSpace c = false) :
    ¬∀ b ∈ blanks ++ (word ++ more), b = blank := by
  obtain ⟨b, word, rfl⟩ := List.exists_cons_of_ne_nil hne
  intro h
  have hb := hword b List.mem_cons_self
  rw [h b (by simp)] at hb
  cases hb

include hcomma hrest

/-- A list whose items are plain as far as they are reached is read item by item. -/
lemma loop_of_reachedPlain (h : ReachedPlain room pieces) :
    ∃ fuel r, bracketLoop fuel room (commaText pieces rest) = some r ∧ StoresItems room (pieceItems pieces) r ∧
      r.2 = (pieceItems pieces).take room := by
  induction pieces generalizing room with
  | nil =>
    refine ⟨1, _, bracketLoop_end 0 room hrest,
      ⟨List.prefix_rfl, Nat.zero_le _, fun _ => rfl, fun hok => by cases hok⟩, ?_⟩
    rw [pieceItems, List.map_nil, List.filter_nil, List.take_nil]
  | cons piece pieces ih =>
    obtain ⟨hpiece, hcomma⟩ := List.forall_mem_cons.mp hcomma
    rcases piece_cases piece with hblank | ⟨blanks, b, more, hsplit, hblanks, hspace, hb⟩ | ⟨blanks, word, more, hsplit, hblanks, hne, hword, hmore⟩
    · obtain ⟨fuel, r, hloop, hr⟩ := @ih room hcomma (by cases room <;> rwa [ReachedPlain, if_pos hblank] at h)
      exact ⟨fuel, r, by rwa [loop_blanks hblank], by rwa [pieceItems_blanks hblank]⟩
    · exact absurd h (not_reachedPlain hsplit hblanks hspace hb)
    · have hlong := @not_blanks blanks _ more hne hword
      have hitem := @pieceItems_piece _ pieces _ _ _ hsplit hblanks hne hword
      cases room with
      | zero =>
        refine ⟨1, (false, []), ?_,
          ⟨List.nil_prefix, Nat.le_refl 0, (by rintro ⟨⟩), fun _ => ⟨_, by rw [hitem]; rfl, .inl rfl⟩⟩, rfl⟩
        rw [loop_word hsplit hblanks hne hword hmore hpiece hrest, if_pos rfl]
      | succ room =>
        rw [ReachedPlain, hsplit, if_neg hlong, plainItem_word hblanks hne hword hmore] at h
        obtain ⟨⟨hlen, hmoreblank⟩, h⟩ := h
        obtain ⟨fuel, r, hloop, hr, htake⟩ := ih hcomma h
        refine ⟨fuel + 1, (r.1, word :: r.2), ?_, ?_⟩
        · rw [loop_word hsplit hblanks hne hword hmore hpiece hrest, if_neg (Nat.succ_ne_zero room), Nat.add_sub_cancel,
            List.drop_of_length_le (by omega), List.nil_append, bracketLoop_blanks fuel room hmoreblank, hloop,
            List.take_of_length_le (by omega)]
          rfl
        · rw [hitem, List.rdropWhile_eq_nil_iff.mpr (blanks_tab hmoreblank), List.append_nil, List.take_succ_cons]
          exact ⟨hr.cons, congrArg (word :: ·) htake⟩

lemma reachedPlain_of_loop {r : Bool × List Bytes} (h : bracketLoop fuel room (commaText pieces rest) = some r)
    (hr : StoresItems room (pieceItems pieces) r) : ReachedPlain room pieces := by
  induction pieces generalizing fuel room r with
  | nil => cases room <;> trivial
  | cons piece pieces ih =>
    obtain ⟨hpiece, hcomma⟩ := List.forall_mem_cons.mp hcomma
    rcases piece_cases piece with hblank | ⟨blanks, b, more, hsplit, hblanks, hspace, hb⟩ | ⟨blanks, word, more, hsplit, hblanks, hne, hword, hmore⟩
    · rw [loop_blanks hblank] at h
      rw [pieceItems_blanks hblank] at hr
      have := ih hcomma h hr
      cases room <;> rwa [ReachedPlain, if_pos hblank]
    · rw [loop_stuck hsplit hblanks hspace hb] at h
      cases h
    · have hlong := @not_blanks blanks _ more hne hword
      have hitem := @pieceItems_piece _ pieces _ _ _ hsplit hblanks hne hword
      obtain ⟨fuel, rfl⟩ : ∃ n, fuel = n + 1 := by
        cases fuel with
        | zero => cases h
        | succ fuel => exact ⟨fuel, rfl⟩
      rw [loop_word hsplit hblanks hne hword hmore hpiece hrest] at h
      cases room with
      | zero =>
        obtain ⟨b, word, rfl⟩ := List.exists_cons_of_ne_nil hne
        have hb := hword b List.mem_cons_self
        rw [ReachedPlain, hsplit, if_neg hlong, List.cons_append, dropWhile_blanks hblanks (by rintro rfl; cases hb)]
        rintro c ⟨⟩
        exact hb
      | succ room =>
        rw [if_neg (Nat.succ_ne_zero room), Nat.add_sub_cancel, Option.map_eq_some_iff] at h
        obtain ⟨⟨ok, stored⟩, hloop, rfl⟩ := h
        rw [hitem] at hr
        obtain ⟨hfirst, hr⟩ := hr.tail
        have hlen : word.length < cmdVerbMax := by
          have := congrArg List.length hfirst
          rw [List.length_take, List.length_append] at this
          rw [cmdVerbMax] at this ⊢
          omega
        have hnone : more.rdropWhile isBlankTab = [] := by
          rw [List.take_of_length_le (by omega)] at hfirst
          simpa using hfirst
        rw [List.drop_of_length_le (by omega), List.nil_append] at hloop
        have hmoreblank := more_blanks hnone (by rw [hloop]; simp)
        rw [bracketLoop_blanks fuel room hmoreblank] at hloop
        rw [ReachedPlain, hsplit, if_neg hlong, plainItem_word hblanks hne hword hmore]
        exact ⟨⟨hlen, hmoreblank⟩, ih hcomma hloop hr⟩

end Pieces

lemma comma_notMem_pieces {value piece : Bytes} (h : piece ∈ listPieces value) :
    comma ∉ piece ∧ closeBracket ∉ piece := by
  refine ⟨fun hcomma => ?_, fun hclose => ?_⟩
  · rw [listPieces, List.splitOn_eq_splitOnP] at h
    have := plain_of_mem_splitOnP h comma hcomma
    simp at this
  · have := List.mem_takeWhile_imp (splitOn_subset h hclose)
    simp at this

/-- What stands behind the text of the list. -/
def listRest (value : Bytes) : Bytes := (value.dropWhile (· ≠ openBracket)).tail.dropWhile (· ≠ closeBracket)

lemma listRest_end (value : Bytes) : listRest value = [] ∨ (listRest value).head? = some closeBracket := by
  cases h : listRest value with
  | nil => exact .inl rfl
  | cons b rest =>
    have hb : b = closeBracket := by simpa using head_dropWhile (by rw [listRest] at h; rw [h]; rfl :
      b ∈ ((value.dropWhile (· ≠ openBracket)).tail.dropWhile (· ≠ closeBracket)).head?)
    exact .inr (congrArg some hb)

lemma parseBracketList_loop {value : Bytes} (hopen : openBracket ∈ value) (fuel max : ℕ) :
    parseBracketList fuel value max = bracketLoop fuel max (commaText (listPieces value) (listRest value)) := by
  have htext : comma :: listText value = (listPieces value).flatMap (comma :: ·) := by
    have hjoin := @List.intercalate_splitOn _ (listText value) _ _ comma
    rw [← listPieces] at hjoin
    cases hpieces : listPieces value with
    | nil => exact absurd hpieces (List.splitOn_ne_nil comma _)
    | cons piece pieces =>
      rw [hpieces, intercalate_cons] at hjoin
      rw [List.flatMap_cons, ← hjoin]
      rfl
  rw [parseBracketList, if_neg (not_not.mpr hopen), commaText, ← htext, List.cons_append,
    bracketLoop_skip fuel max (.inr rfl),
    listText, listRest, List.takeWhile_append_dropWhile]

lemma listTail_length (value : Bytes) : (value.dropWhile (· ≠ openBracket)).tail.length + 1 ≤ value.length + 1 := by
  have := (List.dropWhile_suffix (l := value) (· ≠ openBracket)).length_le
  rw [List.length_tail]
  omega

lemma parseBracketList_fuel {fuel max : ℕ} {value : Bytes} {r : Bool × List Bytes}
    (h : parseBracketList fuel value max = some r) :
    parseBracketList (value.length + 1) value max = some r := by
  by_cases hopen : openBracket ∈ value
  · rw [parseBracketList, if_neg (not_not.mpr hopen)] at h ⊢
    exact bracketLoop_mono (listTail_length value) (bracketLoop_fuel h)
  · rwa [parseBracketList, if_pos hopen] at h ⊢

/-- The lists of levels are read with the same loop. -/
theorem parseLevelList_eq (value : Bytes) (max : ℕ) : parseLevelList value max =
    (parseBracketList (value.length + 1) value max).map fun r =>
      if r.1 then some (r.2.map Storage.userLevelParse) else none := by
  rw [parseLevelList, parseBracketList]
  by_cases hopen : openBracket ∈ value
  · rw [if_neg (not_not.mpr hopen), if_neg (not_not.mpr hopen), bracketLoop_enough (listTail_length value)]
    dsimp only
    rw [bracketTokens_eq, Option.map_map]
    congr 1
    funext r
    obtain ⟨ok, stored⟩ := r
    cases ok <;> rfl
  · rw [if_pos hopen, if_pos hopen]
    rfl

lemma listPieces_none {value : Bytes} (hopen : openBracket ∉ value) : listPieces value = [[]] := by
  rw [listPieces, listText, List.dropWhile_eq_nil_iff.mpr]
  · rfl
  · intro b hb
    have hne : b ≠ openBracket := by
      rintro rfl
      exact hopen hb
    simpa using hne

lemma parse_of_reachedPlain {max : ℕ} {value : Bytes} (h : ReachedPlain max (listPieces value)) :
    ∃ r, parseBracketList (value.length + 1) value max = some r ∧ StoresItems max (pieceItems (listPieces value)) r ∧
      r.2 = (pieceItems (listPieces value)).take max := by
  by_cases hopen : openBracket ∈ value
  · obtain ⟨fuel, r, hloop, hr⟩ := loop_of_reachedPlain (fun piece => comma_notMem_pieces) (listRest_end value) h
    rw [← parseBracketList_loop hopen] at hloop
    exact ⟨r, parseBracketList_fuel hloop, hr⟩
  · refine ⟨(true, []), by rw [parseBracketList, if_pos hopen], ?_⟩
    rw [listPieces_none hopen]
    exact ⟨⟨List.nil_prefix, Nat.zero_le _, fun _ => rfl, by rintro ⟨⟩⟩, List.take_nil.symm⟩

/-- A list in brackets is read to its end and item by item exactly if its items are plain as far as they are reached: with
nothing but blanks around them, with no white space inside, and short enough for a verb. -/
theorem bracket_list_exact_iff (max : ℕ) (value : Bytes) : ListExact max value ↔
    ReachedPlain max (listPieces value) := by
  constructor
  · rintro ⟨fuel, r, hloop, hr⟩
    by_cases hopen : openBracket ∈ value
    · rw [parseBracketList_loop hopen] at hloop
      exact reachedPlain_of_loop (fun piece => comma_notMem_pieces) (listRest_end value) hloop hr
    · rw [listPieces_none hopen]
      cases max <;> simp [ReachedPlain]
  · intro h
    obtain ⟨r, hr, hstores, -⟩ := parse_of_reachedPlain h
    exact ⟨_, r, hr, hstores⟩

/-- A tab behind a comma holds the reader up for ever, and a blank inside an item makes two verbs of it. -/
theorem bracket_list_split : (∀ fuel, parseBracketList fuel (ofString "[chat,\tmail]") 16 = none) ∧
    parseBracketList 20 (ofString "[show menu]") 16 = some (true, ["show", "menu"].map ofString) ∧
    pieceItems (listPieces (ofString "[show menu]")) = [ofString "show menu"] ∧
    ¬ListExact 16 (ofString "[chat,\tmail]") ∧ ¬ListExact 16 (ofString "[show menu]") := by
  have hhangs : ∀ fuel, parseBracketList fuel (ofString "[chat,\tmail]") 16 = none := by
    intro fuel
    cases h : parseBracketList fuel (ofString "[chat,\tmail]") 16 with
    | none => rfl
    | some r =>
      have hnone : parseBracketList 13 (ofString "[chat,\tmail]") 16 = none := by decide +kernel
      have := parseBracketList_fuel h
      rw [show (ofString "[chat,\tmail]").length = 12 from rfl, hnone] at this
      cases this
  have hsplit : parseBracketList 12 (ofString "[show menu]") 16 = some (true, ["show", "menu"].map ofString) :=
    by decide +kernel
  have hitems : pieceItems (listPieces (ofString "[show menu]")) = [ofString "show menu"] := by decide +kernel
  refine ⟨hhangs, by decide +kernel, hitems, ?_, ?_⟩
  · rintro ⟨fuel, r, h, -⟩
    rw [hhangs] at h
    cases h
  · rintro ⟨fuel, r, h, hr⟩
    have := parseBracketList_fuel h
    rw [show (ofString "[show menu]").length = 11 from rfl, hsplit] at this
    cases this
    rw [hitems] at hr
    revert hr
    rintro ⟨hfront, -, -, -⟩
    revert hfront
    decide +kernel

end HyBBX.Command
