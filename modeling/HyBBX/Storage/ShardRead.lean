import HyBBX.Storage.UserShard

/-! What the loader makes of a shard, whichever of its field lines are there. -/

namespace HyBBX.Storage

open HyBBX.Core HyBBX.Config Lib Lib.Bytes Lib.Text Lib.Numeral Lib.LineReader

lemma commentFree_of_plain (v : Bytes) (h : ∀ b ∈ v, startsComment b = false ∧ b ≠ single ∧ b ≠ double) :
    commentFree false false v = true := by
  induction v with
  | nil => rfl
  | cons b v ih =>
    obtain ⟨hc, hs, hd⟩ := h b List.mem_cons_self
    rw [commentFree, if_neg (by simp [hc]), if_neg (by simp [hs]), if_neg (by simp [hd])]
    exact ih fun c hc => h c (List.mem_cons_of_mem b hc)

/-- A text without quotes and comment signs only has to be free of blanks at its ends. -/
lemma safeValue_of_trimmed {v : Bytes} (ht : Trimmed v)
    (h : ∀ b ∈ v, startsComment b = false ∧ b ≠ single ∧ b ≠ double) : SafeValue v := by
  refine ⟨ht, commentFree_of_plain v h, ?_⟩
  rintro ⟨-, hq | hq⟩
  · exact (h double (List.mem_of_mem_head? hq.1)).2.2 rfl
  · exact (h single (List.mem_of_mem_head? hq.1)).2.1 rfl

def plainByte (b : UInt8) : Bool := !isSpace b && !startsComment b && b ≠ single && b ≠ double

lemma safeValue_of_plain {v : Bytes} (h : ∀ b ∈ v, plainByte b = true) : SafeValue v := by
  have hb : ∀ b ∈ v, isSpace b = false ∧ startsComment b = false ∧ b ≠ single ∧ b ≠ double := by
    intro b hb
    have hp := h b hb
    simp only [plainByte, Bool.and_eq_true, Bool.not_eq_true', decide_eq_true_eq] at hp
    exact ⟨hp.1.1.1, hp.1.1.2, hp.1.2, hp.2⟩
  apply safeValue_of_trimmed
  · exact ⟨fun b hm => (hb b (List.mem_of_mem_head? hm)).1, fun b hm => (hb b (List.mem_of_mem_getLast? hm)).1⟩
  · exact fun b hm => (hb b hm).2

lemma plainByte_of_isDigit {b : UInt8} (h : isDigit b = true) : plainByte b = true := by
  have hall : ∀ n : Fin 256, isDigit (UInt8.ofFin n) = true → plainByte (UInt8.ofFin n) = true := by decide +kernel
  exact hall b.toFin h

lemma plain_decimal (n : ℕ) : ∀ b ∈ decimal n, plainByte b = true :=
  fun _ hb => plainByte_of_isDigit (isDigit_of_mem_decimal hb)

lemma plain_decimalInt (n : ℤ) : ∀ b ∈ decimalInt n, plainByte b = true := by
  intro b hb
  rw [decimalInt] at hb
  split at hb
  · rcases List.mem_cons.mp hb with rfl | hb
    · decide
    · exact plain_decimal _ b hb
  · exact plain_decimal _ b hb

lemma nl_notMem_of_plain {v : Bytes} (h : ∀ b ∈ v, plainByte b = true) : nl ∉ v := by
  intro hm
  have := h nl hm
  revert this
  decide

lemma zero_notMem_decimal (n : ℕ) : 0 ∉ decimal n := by
  intro hm
  have := isDigit_of_mem_decimal hm
  revert this
  decide

lemma userSection_injective {a b : ℕ} (h : userSection a = userSection b) : a = b :=
  decimal_injective (List.append_cancel_left h)

lemma userSection_ne (id : ℕ) : userSection id ≠ [] := by
  simp [userSection, userIniSectionPrefix, ofString]

lemma sectionOk_user {id : ℕ} (h : id < 2 ^ 64) : SectionOk (userSection id) := by
  have hlen : (decimal id).length ≤ 20 := decimal_length_le (by decide) (lt_trans h (by decide))
  have hlast : ∀ b ∈ (userSection id).getLast?, isSpace b = false := by
    intro b hb
    rw [userSection, List.getLast?_append_of_ne_nil _ (decimal_ne_nil id)] at hb
    have := plain_decimal id b (List.mem_of_mem_getLast? hb)
    simp only [plainByte, Bool.and_eq_true, Bool.not_eq_true', decide_eq_true_eq] at this
    exact this.1.1.1
  refine ⟨?_, ?_, ?_, ?_, ?_⟩
  · simp only [userSection, List.mem_append, not_or]
    exact ⟨by decide, nl_notMem_of_plain (plain_decimal id)⟩
  · simp only [userSection, List.mem_append, not_or]
    exact ⟨by decide, zero_notMem_decimal id⟩
  · have h5 : userIniSectionPrefix.length = 5 := by decide
    rw [userSection, List.length_append, h5, configSectionMax]
    omega
  · simp only [userSection, List.mem_append, not_or]
    refine ⟨by decide, fun hm => ?_⟩
    have := isDigit_of_mem_decimal hm
    revert this
    decide
  · rw [trimSection, rdropWhile_of_last hlast, ite_self]

lemma UserField.key_injective : Function.Injective UserField.key := by
  intro a b h
  revert h
  cases a <;> cases b <;> decide

/-- No value of the record breaks its line. -/
def OneLine (u : UserRecord) : Prop := ∀ f : UserField, nl ∉ f.value u

lemma int64_bounds (t : Int64) : -2 ^ 63 ≤ t.toInt ∧ t.toInt < 2 ^ 63 :=
  ⟨t.le_toInt, t.toInt_lt⟩

lemma decimalInt_length_le {n : ℤ} (hlo : -2 ^ 63 ≤ n) (hhi : n < 2 ^ 63) : (decimalInt n).length ≤ 20 := by
  have hlen : (decimal n.natAbs).length ≤ 19 := decimal_length_le (by decide) (by omega)
  rw [decimalInt]
  split
  · rw [List.length_cons]
    omega
  · omega

lemma UserField.value_string (f : UserField) (u : UserRecord) : 0 ∉ f.value u := by
  have hint : ∀ n : ℤ, 0 ∉ decimalInt n := by
    intro n hm
    have := plain_decimalInt n 0 hm
    rw [decimalInt] at hm
    split at hm
    · rcases List.mem_cons.mp hm with h | hm
      · exact absurd h (by decide)
      · exact zero_notMem_decimal _ hm
    · exact zero_notMem_decimal _ hm
  cases f with
  | id => exact zero_notMem_decimal _
  | username => exact u.username.string
  | nickname => exact u.nickname.string
  | level => cases hl : u.level <;> simp only [UserField.value, hl] <;> decide
  | active => cases ha : u.active <;> simp only [UserField.value, ha] <;> decide
  | created => exact hint _
  | fullname => exact u.fullName.string
  | country => exact u.country.string
  | location => exact u.location.string
  | email => exact u.email.string
  | password => exact u.password.string
  | lastLogin => exact hint _

lemma UserField.value_fits (f : UserField) (u : UserRecord) : (f.value u).length < configValueMax := by
  have hmax : configValueMax = 256 := rfl
  cases f with
  | id =>
    have hlen : (decimal u.id).length ≤ 20 := decimal_length_le (by decide) (lt_trans u.idFits (by decide))
    simp only [UserField.value, hmax]
    omega
  | username => exact lt_trans u.username.fits (by decide)
  | nickname => exact lt_trans u.nickname.fits (by decide)
  | level => cases hl : u.level <;> simp only [UserField.value, hl] <;> decide
  | active => cases ha : u.active <;> simp only [UserField.value, ha] <;> decide
  | created =>
    have hlen := decimalInt_length_le (int64_bounds u.createdAt).1 (int64_bounds u.createdAt).2
    simp only [UserField.value, hmax]
    omega
  | fullname => exact lt_trans u.fullName.fits (by decide)
  | country => exact lt_trans u.country.fits (by decide)
  | location => exact lt_trans u.location.fits (by decide)
  | email => exact lt_trans u.email.fits (by decide)
  | password => exact lt_trans u.password.fits (by decide)
  | lastLogin =>
    have hlen := decimalInt_length_le (int64_bounds u.lastLoginAt).1 (int64_bounds u.lastLoginAt).2
    simp only [UserField.value, hmax]
    omega

lemma UserField.key_ok (f : UserField) : Trimmed f.key ∧ equals ∉ f.key ∧ nl ∉ f.key ∧ 0 ∉ f.key ∧
    f.key.length < configKeyMax ∧ ∀ b ∈ f.key.head?, startsComment b = false ∧ b ≠ opening := by
  cases f <;> (refine ⟨⟨?_, ?_⟩, ?_, ?_, ?_, ?_, ?_⟩ <;> decide +kernel)

def UserField.entry (s : Bytes) (u : UserRecord) (f : UserField) : ConfigEntry := ⟨s, f.key, f.value u⟩

lemma entry_ok {s : Bytes} (hs : SectionOk s) (hne : s ≠ []) {u : UserRecord} (hu : OneLine u) (f : UserField) :
    EntryOk (f.entry s u) := by
  obtain ⟨hk, he, hn, h0, hl, hh⟩ := f.key_ok
  exact ⟨hne, hs.line, hs.string, hs.fits, hk, he, hn, h0, hl, hh, hu f, f.value_string u, f.value_fits u⟩

/-- A user and the field lines of it that are in the file. -/
structure Block where
  user : UserRecord
  keep : UserField → Bool

def Block.fields (b : Block) : List UserField := userFields.filter b.keep

def Block.pieces (b : Block) : List ShardPiece :=
  .header b.user.id :: b.fields.map fun f => .field f.key (f.value b.user)

def Block.section (b : Block) : Bytes := userSection b.user.id

/-- The entries the loader makes of a block. -/
def Block.entries (b : Block) : List ConfigEntry := b.fields.map fun f => reread (f.entry b.section b.user)

lemma userPieces_block (u : UserRecord) : userPieces u = (Block.mk u fun _ => true).pieces := by
  rw [Block.pieces, Block.fields, List.filter_true]
  rfl

lemma load_comment {st : ConfigLoad} {line : Bytes} (hn : nl ∉ line) (h0 : 0 ∉ line) (ht : Trimmed line)
    (hc : line.head?.any startsComment = true) (hl : line.length + 1 < configLineMax) (rest : Bytes) :
    loadLines st (fgets configLineMax (line ++ nl :: rest)) = loadLines st (fgets configLineMax rest) := by
  rw [fgets_line hn hl]
  apply loadLines_cons
  rw [loadLine_content h0, trim_of_trimmed ht, isCommentLine_of_trimmed ht, if_pos (.inr hc)]

lemma load_title (st : ConfigLoad) (rest : Bytes) :
    loadLines st (fgets configLineMax (ShardPiece.title.text ++ rest)) = loadLines st (fgets configLineMax rest) := by
  have htext : ShardPiece.title.text = ofString "; HyBBX user file (max 50 users)" ++ [nl] := by decide
  rw [htext, List.append_assoc, List.singleton_append]
  exact load_comment (by decide +kernel) (by decide +kernel) ⟨by decide +kernel, by decide +kernel⟩ (by decide +kernel) (by decide +kernel) rest

lemma load_number (st : ConfigLoad) {shardIndex : ℕ} (h : shardIndex < 2 ^ 64) (rest : Bytes) :
    loadLines st (fgets configLineMax ((ShardPiece.number shardIndex).text ++ rest)) =
      loadLines st (fgets configLineMax rest) := by
  have hlen : (decimal shardIndex).length ≤ 20 := decimal_length_le (by decide) (lt_trans h (by decide))
  have hlast : ∀ b ∈ (ofString "; shard " ++ decimal shardIndex).getLast?, isSpace b = false := by
    intro b hb
    rw [List.getLast?_append_of_ne_nil _ (decimal_ne_nil _)] at hb
    have := plain_decimal _ b (List.mem_of_mem_getLast? hb)
    simp only [plainByte, Bool.and_eq_true, Bool.not_eq_true', decide_eq_true_eq] at this
    exact this.1.1.1
  have htext : (ShardPiece.number shardIndex).text ++ rest =
      (ofString "; shard " ++ decimal shardIndex) ++ nl :: ([] ++ nl :: rest) := by
    simp [ShardPiece.text]
  rw [htext, load_comment, fgets_line (by simp) (by decide), List.nil_append, loadLines_cons (loadLine_blank st)]
  · simp only [List.mem_append, not_or]
    exact ⟨by decide, nl_notMem_of_plain (plain_decimal _)⟩
  · simp only [List.mem_append, not_or]
    exact ⟨by decide, zero_notMem_decimal _⟩
  · refine ⟨?_, hlast⟩
    intro b hb
    obtain rfl : semicolon = b := by simpa [ofString] using hb
    decide
  · rfl
  · have h8 : (ofString "; shard ").length = 8 := by decide
    rw [List.length_append, h8, configLineMax]
    omega

lemma load_header (st : ConfigLoad) {id : ℕ} (h : id < 2 ^ 64) (rest : Bytes) :
    loadLines st (fgets configLineMax ((ShardPiece.header id).text ++ rest)) =
      loadLines { st with currentSection := userSection id } (fgets configLineMax rest) := by
  obtain ⟨hn, hl⟩ := headerLine_line (sectionOk_user h)
  rw [ShardPiece.text, List.append_assoc, List.singleton_append, fgets_line hn hl,
    loadLines_cons (loadLine_header st (sectionOk_user h))]

lemma load_field {st : ConfigLoad} (hs : SectionOk st.currentSection) (hne : st.currentSection ≠ [])
    {u : UserRecord} (hu : OneLine u) (f : UserField) (rest : Bytes) :
    loadLines st (fgets configLineMax ((ShardPiece.field f.key (f.value u)).text ++ rest)) =
      loadLines { st with config := st.config ++ [reread (f.entry st.currentSection u)] }
        (fgets configLineMax rest) := by
  have he := entry_ok hs hne hu f
  obtain ⟨hn, hl⟩ := entryLine_line he
  have htext : (ShardPiece.field f.key (f.value u)).text = entryLine (f.entry st.currentSection u) ++ [nl] := rfl
  rw [htext, List.append_assoc, List.singleton_append, fgets_line hn hl, loadLines_cons (loadLine_entry he rfl)]

lemma load_fields {st : ConfigLoad} (hs : SectionOk st.currentSection) (hne : st.currentSection ≠ [])
    {u : UserRecord} (hu : OneLine u) (fs : List UserField) (rest : Bytes) :
    loadLines st (fgets configLineMax (piecesText (fs.map fun f => .field f.key (f.value u)) ++ rest)) =
      loadLines { st with config := st.config ++ fs.map fun f => reread (f.entry st.currentSection u) }
        (fgets configLineMax rest) := by
  induction fs generalizing st with
  | nil => simp [piecesText]
  | cons f fs ih =>
    rw [piecesText, List.map_cons, List.flatMap_cons, List.append_assoc, load_field hs hne hu]
    have hrest := @ih { st with config := st.config ++ [reread (f.entry st.currentSection u)] } hs hne
    rw [piecesText] at hrest
    rw [hrest]
    simp

lemma load_blocks (st : ConfigLoad) (bs : List Block) (hb : ∀ b ∈ bs, OneLine b.user) (rest : Bytes) :
    ∃ current, loadLines st (fgets configLineMax (piecesText (bs.flatMap Block.pieces) ++ rest)) =
      loadLines ⟨st.config ++ bs.flatMap Block.entries, current⟩ (fgets configLineMax rest) := by
  induction bs generalizing st with
  | nil => exact ⟨st.currentSection, by simp [piecesText]⟩
  | cons b bs ih =>
    have hid := b.user.idFits
    obtain ⟨current, hrest⟩ := ih ⟨st.config ++ b.entries, b.section⟩ fun c hc => hb c (List.mem_cons_of_mem b hc)
    refine ⟨current, ?_⟩
    have hsplit : piecesText ((b :: bs).flatMap Block.pieces) ++ rest = (ShardPiece.header b.user.id).text ++
        (piecesText (b.fields.map fun f => .field f.key (f.value b.user)) ++
          (piecesText (bs.flatMap Block.pieces) ++ rest)) := by
      simp [piecesText, Block.pieces]
    rw [hsplit, load_header _ hid, load_fields (sectionOk_user hid) (userSection_ne _) (hb b List.mem_cons_self)]
    rw [List.flatMap_cons, ← List.append_assoc]
    exact hrest

/-- The configuration the loader makes of the blocks in a file. -/
lemma configLoad_blocks {shardIndex : ℕ} (h : shardIndex < 2 ^ 64) {bs : List Block}
    (hb : ∀ b ∈ bs, OneLine b.user) (title number : Bool) :
    configLoad (piecesText ((if title then [.title] else []) ++ (if number then [.number shardIndex] else []) ++
      bs.flatMap Block.pieces)) = .ok (bs.flatMap Block.entries) := by
  obtain ⟨current, hload⟩ := load_blocks ⟨[], []⟩ bs hb []
  have hblocks : loadLines ⟨[], []⟩ (fgets configLineMax (piecesText (bs.flatMap Block.pieces))) =
      .ok ⟨bs.flatMap Block.entries, current⟩ := by
    simpa [fgets, fgetsFrom, loadLines, pure, Except.pure] using hload
  have hnumber : loadLines ⟨[], []⟩ (fgets configLineMax (piecesText ((if number then [.number shardIndex] else []) ++
      bs.flatMap Block.pieces))) = .ok ⟨bs.flatMap Block.entries, current⟩ := by
    cases number with
    | false => simpa using hblocks
    | true =>
      rw [if_pos rfl, List.singleton_append, piecesText, List.flatMap_cons, load_number _ h]
      exact hblocks
  have htitle : loadLines ⟨[], []⟩ (fgets configLineMax (piecesText ((if title then [.title] else []) ++
      (if number then [.number shardIndex] else []) ++ bs.flatMap Block.pieces))) =
        .ok ⟨bs.flatMap Block.entries, current⟩ := by
    cases title with
    | false => simpa using hnumber
    | true =>
      rw [if_pos rfl, List.append_assoc, List.singleton_append, piecesText, List.flatMap_cons, load_title]
      exact hnumber
  rw [configLoad, htitle]
  rfl

/-! Which records the loader reads from the blocks of a shard. -/

lemma UserField.mem_userFields (f : UserField) : f ∈ userFields := by
  cases f <;> decide

lemma configGet_append (a c : HybbxConfig) (s k : Bytes) :
    configGet (a ++ c) s k = (configGet a s k).or (configGet c s k) := by
  rw [configGet, configGet, configGet, List.find?_append, Option.map_or]

lemma not_matches {e : ConfigEntry} {s : Bytes} (h : e.sectionName ≠ s) (k : Bytes) : ¬e.matches s k = true := by
  simp only [ConfigEntry.matches, Bool.and_eq_true, decide_eq_true_eq]
  exact fun hm => h hm.1

lemma Block.get_other {b : Block} {s : Bytes} (h : b.section ≠ s) (k : Bytes) : configGet b.entries s k = none := by
  rw [configGet, Option.map_eq_none_iff, List.find?_eq_none]
  intro e he
  obtain ⟨f, -, rfl⟩ := List.mem_map.mp he
  exact not_matches h k

lemma Block.get_own (b : Block) (f : UserField) :
    configGet b.entries b.section f.key = if b.keep f then some (readValue (f.value b.user)) else none := by
  have hmatch : (fun e : ConfigEntry => e.matches b.section f.key) ∘
      (fun g : UserField => reread (g.entry b.section b.user)) = fun g => decide (g = f) := by
    funext g
    simp [ConfigEntry.matches, reread, UserField.entry, UserField.key_injective.eq_iff]
  rw [configGet, Block.entries, List.find?_map, hmatch, Option.map_map]
  by_cases hk : b.keep f = true
  · have hmem : f ∈ b.fields := List.mem_filter.mpr ⟨f.mem_userFields, hk⟩
    have hfind : b.fields.find? (fun g => decide (g = f)) = some f := by
      cases hf : b.fields.find? (fun g => decide (g = f)) with
      | none => simpa using List.find?_eq_none.mp hf f hmem
      | some g =>
        have := List.find?_some hf
        rw [decide_eq_true_eq.mp this]
    rw [hfind, if_pos hk]
    rfl
  · have hfind : b.fields.find? (fun g => decide (g = f)) = none := by
      rw [List.find?_eq_none]
      intro g hg
      rw [decide_eq_true_eq]
      rintro rfl
      exact hk (List.mem_filter.mp hg).2
    rw [hfind, if_neg hk]
    rfl

/-- The users of the blocks have ids of their own. -/
def Apart (bs : List Block) : Prop := bs.Pairwise fun b c => b.user.id ≠ c.user.id

lemma get_blocks {bs : List Block} (ha : Apart bs) {b : Block} (hb : b ∈ bs) (f : UserField) :
    configGet (bs.flatMap Block.entries) b.section f.key =
      if b.keep f then some (readValue (f.value b.user)) else none := by
  induction bs with
  | nil => cases hb
  | cons c bs ih =>
    obtain ⟨hc, hrest⟩ := List.pairwise_cons.mp ha
    rw [List.flatMap_cons, configGet_append]
    have hother : ∀ d ∈ bs, d.section ≠ c.section := fun d hd h => hc d hd (userSection_injective h).symm
    rcases List.mem_cons.mp hb with rfl | hb
    · have hnone : configGet (bs.flatMap Block.entries) b.section f.key = none := by
        rw [configGet, Option.map_eq_none_iff, List.find?_eq_none]
        intro e he
        obtain ⟨d, hd, he⟩ := List.mem_flatMap.mp he
        obtain ⟨g, -, rfl⟩ := List.mem_map.mp he
        exact not_matches (hother d hd) f.key
      rw [b.get_own, hnone, Option.or_none]
    · rw [Block.get_other (Ne.symm (hother b hb)), Option.none_or]
      exact ih hrest hb

lemma userSection_starts (id : ℕ) : userIniSectionPrefix <+: userSection id := List.prefix_append _ _

lemma collect_known {names : List Bytes} {s : Bytes} (h : s ∈ names) : sectionListCollect names s = names := by
  rw [sectionListCollect]
  split_ifs
  · rfl
  · rfl

lemma collect_new {names : List Bytes} {id : ℕ} (hid : id < 2 ^ 64) (h : userSection id ∉ names)
    (hroom : names.length < usersPerFile) : sectionListCollect names (userSection id) = names ++ [userSection id] := by
  rw [sectionListCollect, if_neg (not_not.mpr (userSection_starts id)), if_neg h, if_neg (by omega),
    strlcpy_of_fits (sectionOk_user hid).fits]

lemma collect_fields (b : Block) (fs : List UserField) {names : List Bytes} (h : b.section ∈ names) :
    ((fs.map fun f => reread (f.entry b.section b.user)).map ConfigEntry.sectionName).foldl sectionListCollect names =
      names := by
  induction fs with
  | nil => rfl
  | cons f fs ih =>
    have hf : (reread (f.entry b.section b.user)).sectionName = b.section := rfl
    rw [List.map_cons, List.map_cons, List.foldl_cons, hf, collect_known h]
    exact ih

lemma collect_block {names : List Bytes} (b : Block) (h : b.section ∉ names) (hroom : names.length < usersPerFile) :
    (b.entries.map ConfigEntry.sectionName).foldl sectionListCollect names =
      if b.fields = [] then names else names ++ [b.section] := by
  rw [Block.entries]
  cases hfields : b.fields with
  | nil => rfl
  | cons f fs =>
    have hf : (reread (f.entry b.section b.user)).sectionName = userSection b.user.id := rfl
    rw [List.map_cons, List.map_cons, List.foldl_cons, if_neg (by simp), hf, collect_new b.user.idFits h hroom]
    exact collect_fields b fs (by simp [Block.section])

/-- The sections with an entry are listed once each, in the order of their blocks. -/
lemma collect_blocks {bs : List Block} (ha : Apart bs) {names : List Bytes}
    (hnew : ∀ b ∈ bs, b.section ∉ names) (hroom : names.length + bs.length ≤ usersPerFile) :
    ((bs.flatMap Block.entries).map ConfigEntry.sectionName).foldl sectionListCollect names =
      names ++ (bs.filter fun b => b.fields ≠ []).map Block.section := by
  induction bs generalizing names with
  | nil => simp
  | cons b bs ih =>
    obtain ⟨hb, hrest⟩ := List.pairwise_cons.mp ha
    rw [List.length_cons] at hroom
    have hbnew := hnew b List.mem_cons_self
    have hnewrest := fun c hc => hnew c (List.mem_cons_of_mem b hc)
    rw [List.flatMap_cons, List.map_append, List.foldl_append, collect_block b hbnew (by omega), List.filter_cons]
    by_cases hf : b.fields = []
    · rw [if_pos hf, if_neg (by simpa using hf)]
      exact ih hrest hnewrest (by omega)
    · rw [if_neg hf, if_pos (by simpa using hf), ih hrest]
      · simp
      · intro c hc hm
        rcases List.mem_append.mp hm with hm | hm
        · exact hnewrest c hc hm
        · exact hb c hc (userSection_injective (List.mem_singleton.mp hm)).symm
      · rw [List.length_append, List.length_singleton]
        omega

/-- The record a block reads as. -/
def Block.read (b : Block) : Option UserRecord :=
  userOf fun f => if b.keep f then some (readValue (f.value b.user)) else none

/-- What the loader assumes for a line that is not there. -/
def UserField.absent : UserField → Bytes
  | .level => userLevelName .user
  | .active => boolToString false
  | .created => decimalInt 0
  | .lastLogin => decimalInt 0
  | _ => []

lemma decimalInt_ne_nil (n : ℤ) : decimalInt n ≠ [] := by
  rw [decimalInt]
  split
  · simp
  · exact decimal_ne_nil _

lemma strtol_time (t : Int64) : Int64.ofInt (strtol (decimalInt t.toInt)) = t := by
  rw [strtol_decimalInt (int64_bounds t).1 (int64_bounds t).2]
  exact Int64.ofInt_toInt t

lemma parseBool_boolToString (b d : Bool) : parseBool (boolToString b) d = b := by
  cases b <;> cases d <;> decide

/-- The loader's record when each value is the user's, or absent where the user's is what an absent one stands for. -/
lemma userOf_values {value : UserField → Option Bytes} {u : UserRecord} (hid : u.id ≠ 0) (hname : u.username.text ≠ [])
    (h : ∀ f : UserField, value f = some (f.value u) ∨ value f = none ∧ f.value u = f.absent) :
    userOf value = some u.normalize := by
  have htext : ∀ f : UserField, f.absent = [] → (value f).getD [] = f.value u := by
    intro f hf
    rcases h f with hv | ⟨hv, ha⟩
    · rw [hv]
      rfl
    · rw [hv, ha, hf]
      rfl
  have hlevel : userLevelParse ((value .level).getD (ofString "user")) = u.level := by
    rcases h .level with hv | ⟨hv, ha⟩
    · rw [hv]
      exact userLevelParse_name u.level
    · have hu : userLevelName u.level = userLevelName .user := ha
      rw [hv, ← userLevelParse_name u.level, hu]
      rfl
  have hactive : parseBool ((value .active).getD []) false = u.active := by
    rcases h .active with hv | ⟨hv, ha⟩
    · rw [hv]
      exact parseBool_boolToString u.active false
    · have hu : boolToString u.active = boolToString false := ha
      rw [hv, ← parseBool_boolToString u.active false, hu]
      rfl
  have htime : ∀ (f : UserField) (t : Int64), f.value u = decimalInt t.toInt → f.absent = decimalInt 0 →
      (if (value f).getD [] = [] then 0 else Int64.ofInt (strtol ((value f).getD []))) = t := by
    intro f t hval habs
    rcases h f with hv | ⟨hv, ha⟩
    · rw [hv, hval, Option.getD_some, if_neg (decimalInt_ne_nil _), strtol_time]
    · rw [hv, Option.getD_none, if_pos rfl]
      have h0 : decimalInt t.toInt = decimalInt (0 : Int64).toInt := by rw [← hval, ha, habs]; rfl
      rw [← strtol_time t, h0, strtol_time]
  have hdec : strtoul (decimal u.id) = (u.id, []) := by
    simpa using strtoul_decimal u.idFits [] (by simp)
  have hidtext : (value .id).getD [] = decimal u.id := htext .id rfl
  have hnametext : (value .username).getD [] = u.username.text := htext .username rfl
  simp only [userOf, hidtext, hnametext, hdec, hid, hname, decimal_ne_nil, if_false, htext .nickname rfl,
    hlevel, hactive,
    htime .created u.createdAt rfl rfl, htext .fullname rfl, htext .country rfl, htext .location rfl,
    htext .email rfl, htext .password rfl, htime .lastLogin u.lastLoginAt rfl rfl, UserField.value, CText.copy_self]
  rfl

lemma Block.read_of_empty {b : Block} (h : b.fields = []) : b.read = none := by
  have hk : b.keep .id = false := by
    have := List.filter_eq_nil_iff.mp h .id (UserField.mem_userFields _)
    simpa using this
  simp [Block.read, userOf, hk]

/-- A shard file with some of the lines its writer meant to write. -/
def blocksText (title number : Bool) (shardIndex : ℕ) (bs : List Block) : Bytes :=
  piecesText ((if title then [.title] else []) ++ (if number then [.number shardIndex] else []) ++
    bs.flatMap Block.pieces)

lemma loadUserShard_blocks {shardIndex : ℕ} (hi : shardIndex < 2 ^ 64) {bs : List Block} (ha : Apart bs)
    (hb : ∀ b ∈ bs, OneLine b.user) (hroom : bs.length ≤ usersPerFile) (title number : Bool) :
    ∃ fits, loadUserShard (blocksText title number shardIndex bs) = .ok ⟨bs.filterMap Block.read, fits⟩ := by
  have hlist : sectionList (bs.flatMap Block.entries) = (bs.filter fun b => b.fields ≠ []).map Block.section := by
    rw [sectionList, collect_blocks ha (by simp) (by simpa using hroom), List.nil_append]
  have hparse : ∀ b ∈ bs, parseUserSection (bs.flatMap Block.entries) b.section = b.read := by
    intro b hm
    have hstart : userIniSectionPrefix <+: b.section := userSection_starts b.user.id
    rw [parseUserSection, if_pos hstart, Block.read]
    congr 1
    funext f
    exact get_blocks ha hm f
  have husers : (sectionList (bs.flatMap Block.entries)).filterMap (parseUserSection (bs.flatMap Block.entries)) =
      bs.filterMap Block.read := by
    rw [hlist, List.filterMap_map, List.filterMap_filter]
    apply List.filterMap_congr
    intro b hm
    by_cases hf : b.fields = []
    · rw [if_neg (by simpa using hf), Block.read_of_empty hf]
    · rw [if_pos (by simpa using hf)]
      exact hparse b hm
  refine ⟨le_trans (List.length_filterMap_le _ _) hroom, ?_⟩
  rw [blocksText, loadUserShard, configLoad_blocks hi hb]
  dsimp only
  rw [dif_pos (by rw [husers]; exact le_trans (List.length_filterMap_le _ _) hroom)]
  congr 1
  congr 1

end HyBBX.Storage
