import HyBBX.Mail.Inbox

/-! What the inbox loader makes of a stored message, however long its subject, and before and after it is read. -/

namespace HyBBX.Mail

open HyBBX.Core Lib Lib.Bytes Lib.Text Lib.Numeral Lib.LineReader Config

/-- A piece of the file that neither dates the message nor ends its header. -/
def Inert (piece : Bytes) : Prop :=
  0 ∉ piece ∧ bodyMark.isPrefixOf piece = false ∧ readKey.isPrefixOf piece = false ∧
    ∀ entry, (headerLine entry piece).receivedAt = entry.receivedAt

lemma headerLine_id (entry : MailEntry) (line : Bytes) : (headerLine entry line).id = entry.id := by
  rw [headerLine]
  split_ifs <;> rfl

lemma readHeader_id (entry : MailEntry) (lines : List Bytes) : (readHeader entry lines).id = entry.id := by
  induction lines generalizing entry with
  | nil => rfl
  | cons line rest ih =>
    rw [readHeader]
    split_ifs
    · rfl
    · rw [ih, headerLine_id]

lemma headerLine_receivedAt {line : Bytes} (h : strIeq (headerKey line) (ofString "time") = false) (entry : MailEntry) :
    (headerLine entry line).receivedAt = entry.receivedAt := by
  rw [headerLine, h]
  split_ifs
  all_goals first | rfl | contradiction

lemma headerKey_kv {key : String} (hk : equals ∉ ofString key) (value : Bytes) :
    headerKey (kv key value) = ofString key := takeWhile_equals hk value

lemma notMem_kv {b : UInt8} {key : String} {value : Bytes} (hb : b ≠ equals) (hk : b ∉ ofString key) (hv : b ∉ value) :
    b ∉ kv key value := by
  rw [kv, List.mem_append, List.mem_cons]
  rintro (h | h | h)
  · exact hk h
  · exact hb h
  · exact hv h

lemma kv_append (key : String) (value rest : Bytes) : kv key value ++ rest = kv key (value ++ rest) := by
  rw [kv, kv, List.append_assoc, List.cons_append]

lemma isPrefixOf_kv {b c : UInt8} {p ks : Bytes} {key : String} (hk : ofString key = c :: ks) (hne : (b == c) = false)
    (value : Bytes) : (b :: p).isPrefixOf (kv key value) = false := by
  rw [kv, hk, List.cons_append, List.isPrefixOf_cons_cons, hne, Bool.false_and]

lemma inert_kv (c : UInt8) (ks : Bytes) {value : Bytes} {key : String} (hk : ofString key = c :: ks)
    (hc : ((0x2D : UInt8) == c) = false ∧ ((0x72 : UInt8) == c) = false) (heq : equals ∉ ofString key)
    (htime : strIeq (ofString key) (ofString "time") = false) (h0 : 0 ∉ ofString key) (hv : 0 ∉ value) :
    Inert (kv key value) := by
  refine ⟨notMem_kv (by decide) h0 hv, isPrefixOf_kv hk hc.1 value, isPrefixOf_kv hk hc.2 value, fun entry => ?_⟩
  apply headerLine_receivedAt
  rwa [headerKey_kv heq]

lemma isPrefixOf_short {p piece : Bytes} (h : piece.length < p.length) : p.isPrefixOf piece = false := by
  rw [Bool.eq_false_iff]
  intro hp
  have := (List.isPrefixOf_iff_prefix.mp hp).length_le
  omega

/-- The end of a long subject is too short to be anything. -/
lemma inert_short {piece : Bytes} (h0 : 0 ∉ piece) (h : piece.length ≤ 2) : Inert piece := by
  refine ⟨h0, isPrefixOf_short (lt_of_le_of_lt h (by decide)), isPrefixOf_short (lt_of_le_of_lt h (by decide)), ?_⟩
  intro entry
  apply headerLine_receivedAt
  rw [strIeq, decide_eq_false_iff_not]
  intro he
  have hlen := congrArg List.length he
  have hkey : (headerKey piece).length ≤ piece.length := (List.takeWhile_prefix _).length_le
  rw [List.length_map, List.length_map] at hlen
  have : (ofString "time").length = 4 := by decide
  omega

lemma fgets_unlines {size : ℕ} {ls : List Bytes} (h : ∀ l ∈ ls, nl ∉ l ∧ l.length + 1 < size) (rest : Bytes) :
    fgets size (unlines ls ++ rest) = ls.map (· ++ [nl]) ++ fgets size rest := by
  induction ls with
  | nil => rfl
  | cons l ls ih =>
    obtain ⟨hn, hl⟩ := h l List.mem_cons_self
    have hone : unlines (l :: ls) ++ rest = l ++ nl :: (unlines ls ++ rest) := by
      simp [unlines]
    rw [hone, fgets_line hn hl, ih fun l' hl' => h l' (List.mem_cons_of_mem _ hl'), List.map_cons, List.cons_append]

lemma length_kv (key : String) (value : Bytes) : (kv key value).length = (ofString key).length + value.length + 1 := by
  rw [kv, List.length_append, List.length_cons]
  omega

/-- The subject line as `fgets` returns it, in one piece or two. -/
def subjectPieces (subject : Bytes) : List Bytes :=
  if subject.length ≤ 70 then [kv "subject" subject ++ [nl]]
  else [kv "subject" (subject.take 71), subject.drop 71 ++ [nl]]

lemma flatten_subjectPieces (subject : Bytes) : (subjectPieces subject).flatten = kv "subject" subject ++ [nl] := by
  rw [subjectPieces]
  split_ifs
  · rw [List.flatten_singleton]
  · rw [List.flatten_cons, List.flatten_singleton, kv_append, kv_append, ← List.append_assoc, List.take_append_drop]

section Subject

variable {subject : Bytes} (hs : nl ∉ subject ∧ 0 ∉ subject) (hlen : subject.length ≤ mailSubjectMax)
include hs hlen

lemma fgets_subject (rest : Bytes) :
    fgets lineMax (kv "subject" subject ++ nl :: rest) = subjectPieces subject ++ fgets lineMax rest := by
  rw [mailSubjectMax] at hlen
  have hkey : (ofString "subject").length = 7 := by decide
  rw [subjectPieces]
  split_ifs with hshort
  · rw [fgets_line (notMem_kv (by decide) (by decide) hs.1) (by rw [length_kv, lineMax]; omega), List.singleton_append]
  · have hsplit : kv "subject" subject ++ nl :: rest =
        kv "subject" (subject.take 71) ++ (subject.drop 71 ++ nl :: rest) := by
      rw [kv_append, kv_append, ← List.append_assoc, List.take_append_drop]
    rw [hsplit, fgets_full (notMem_kv (by decide) (by decide) fun h => hs.1 (List.mem_of_mem_take h)) _ (by decide),
      fgets_line (fun h => hs.1 (List.mem_of_mem_drop h))]
    · rfl
    · rw [List.length_drop, lineMax]
      omega
    · rw [length_kv, List.length_take, lineMax]
      omega

/-- A piece of the subject line has its key, or is the short end of a long line. -/
lemma subjectPieces_cases {p : Bytes} (hp : p ∈ subjectPieces subject) :
    0 ∉ p ∧ ((∃ value, p = kv "subject" value) ∨ p.length ≤ 2) ∧
      ((∃ l, nl ∉ l ∧ p = l ++ [nl]) ∨ nl ∉ p ∧ p.length = lineMax - 1) := by
  have hkey : ∀ value : Bytes, nl ∉ value → nl ∉ kv "subject" value := fun value => notMem_kv (by decide) (by decide)
  have hzero : ∀ value : Bytes, 0 ∉ value → 0 ∉ kv "subject" value := fun value => notMem_kv (by decide) (by decide)
  have hend : ∀ l : Bytes, 0 ∉ l → 0 ∉ l ++ [nl] := fun l hl => by simpa using ⟨hl, by decide⟩
  rw [subjectPieces] at hp
  split_ifs at hp with hshort
  · rw [List.mem_singleton.mp hp]
    exact ⟨hend _ (hzero _ hs.2), .inl ⟨_, kv_append _ _ _⟩, .inl ⟨_, hkey _ hs.1, rfl⟩⟩
  · rcases List.mem_cons.mp hp with rfl | hp
    · refine ⟨hzero _ fun h => hs.2 (List.mem_of_mem_take h), .inl ⟨_, rfl⟩,
        .inr ⟨hkey _ fun h => hs.1 (List.mem_of_mem_take h), ?_⟩⟩
      have h7 : (ofString "subject").length = 7 := by decide
      rw [length_kv, List.length_take, lineMax]
      omega
    · rw [List.mem_singleton.mp hp]
      refine ⟨hend _ fun h => hs.2 (List.mem_of_mem_drop h), .inr ?_,
        .inl ⟨_, fun h => hs.1 (List.mem_of_mem_drop h), rfl⟩⟩
      rw [mailSubjectMax] at hlen
      rw [List.length_append, List.length_drop, List.length_singleton]
      omega

lemma inert_subjectPieces {p : Bytes} (hp : p ∈ subjectPieces subject) : Inert p := by
  obtain ⟨h0, hform, -⟩ := subjectPieces_cases hs hlen hp
  rcases hform with ⟨value, rfl⟩ | hshort
  · apply inert_kv 0x73 (ofString "ubject") (by decide) (by decide) (by decide) (by decide) (by decide)
    intro h
    apply h0
    rw [kv]
    exact List.mem_append_right _ (List.mem_cons_of_mem _ h)
  · exact inert_short h0 hshort

end Subject

lemma readHeader_inert {pieces : List Bytes} (h : ∀ p ∈ pieces, Inert p) (entry : MailEntry) (rest : List Bytes) :
    ∃ entry', entry'.receivedAt = entry.receivedAt ∧
      readHeader entry (pieces.map cstr ++ rest) = readHeader entry' rest := by
  induction pieces generalizing entry with
  | nil => exact ⟨entry, rfl, rfl⟩
  | cons p pieces ih =>
    obtain ⟨h0, hmark, -, hkeep⟩ := h p List.mem_cons_self
    obtain ⟨entry', he, hr⟩ := ih (fun q hq => h q (List.mem_cons_of_mem _ hq)) (headerLine entry p)
    refine ⟨entry', he.trans (hkeep entry), ?_⟩
    rw [List.map_cons, List.cons_append, cstr_of_notMem h0, readHeader, hmark, if_neg Bool.false_ne_true, hr]

/-- A message as the loader finds it: the header of a delivery, seen or unseen, and any text behind it. -/
def Stored (id now : ℕ) (file : MsgFile) : Prop :=
  id ≤ ulongMax ∧ now ≤ longMax ∧ file.name = msgFileName id ∧ ∃ fromUser toUser subject read body,
    (fromUser.length < userNameMax ∧ nl ∉ fromUser ∧ 0 ∉ fromUser) ∧
      (toUser.length < userNameMax ∧ nl ∉ toUser ∧ 0 ∉ toUser) ∧
      ((nl ∉ subject ∧ 0 ∉ subject) ∧ subject.length ≤ mailSubjectMax) ∧
      (read = ofString "no" ∨ read = ofString "yes") ∧ file.text = header id fromUser toUser subject now read ++ body

section Pieces

variable {id now : ℕ} {fromUser toUser subject read : Bytes} (hid : id ≤ ulongMax) (hnow : now ≤ longMax)
  (hfrom : fromUser.length < userNameMax ∧ nl ∉ fromUser ∧ 0 ∉ fromUser)
  (hto : toUser.length < userNameMax ∧ nl ∉ toUser ∧ 0 ∉ toUser)
  (hsub : (nl ∉ subject ∧ 0 ∉ subject) ∧ subject.length ≤ mailSubjectMax)
  (hread : read = ofString "no" ∨ read = ofString "yes")

lemma notMem_decimal {b : UInt8} (hb : isDigit b = false) (n : ℕ) : b ∉ decimal n := by
  intro h
  rw [isDigit_of_mem_decimal h] at hb
  exact Bool.false_ne_true hb.symm

lemma length_decimal_le {n : ℕ} (h : n ≤ ulongMax) : (decimal n).length ≤ 20 := by
  rw [decimal]
  split_ifs
  · simp
  · rw [List.length_reverse, List.length_map, Nat.digits_length_le_iff (by omega)]
    exact lt_of_le_of_lt h (by decide)

include hid hfrom hto in
lemma headLines_plain : ∀ l ∈ headLines id fromUser toUser, nl ∉ l ∧ l.length + 1 < lineMax := by
  have hd := length_decimal_le hid
  have hu : userNameMax = 64 := rfl
  have h2 : (ofString "id").length = 2 ∧ (ofString "from").length = 4 ∧ (ofString "to").length = 2 := by decide
  intro l hl
  simp only [headLines, List.mem_cons, List.not_mem_nil, or_false] at hl
  rw [lineMax]
  rcases hl with rfl | rfl | rfl
  · exact ⟨notMem_kv (by decide) (by decide) (notMem_decimal (by decide) id), by rw [length_kv]; omega⟩
  · exact ⟨notMem_kv (by decide) (by decide) hfrom.2.1, by rw [length_kv]; omega⟩
  · exact ⟨notMem_kv (by decide) (by decide) hto.2.1, by rw [length_kv]; omega⟩

include hnow hread in
lemma tailLines_plain : ∀ l ∈ tailLines now read, nl ∉ l ∧ l.length + 1 < lineMax := by
  have hd := length_decimal_le (le_trans hnow (by decide))
  have h4 : (ofString "time").length = 4 := by decide
  intro l hl
  simp only [tailLines, List.mem_cons, List.not_mem_nil, or_false] at hl
  rcases hl with rfl | rfl | rfl
  · exact ⟨notMem_kv (by decide) (by decide) (notMem_decimal (by decide) now), by rw [length_kv, lineMax]; omega⟩
  · rcases hread with rfl | rfl <;> exact ⟨by decide, by decide⟩
  · exact ⟨by decide, by decide⟩

/-- The pieces of a stored message before its time line. -/
def headPieces (id : ℕ) (fromUser toUser subject : Bytes) : List Bytes :=
  (headLines id fromUser toUser).map (· ++ [nl]) ++ subjectPieces subject

include hid hnow hfrom hto hsub hread in
lemma fgets_header (body : Bytes) : fgets lineMax (header id fromUser toUser subject now read ++ body) =
    headPieces id fromUser toUser subject ++ ((tailLines now read).map (· ++ [nl]) ++ fgets lineMax body) := by
  rw [header, List.append_assoc, List.append_assoc, List.cons_append, fgets_unlines (headLines_plain hid hfrom hto),
    fgets_subject hsub.1 hsub.2, fgets_unlines (tailLines_plain hnow hread), headPieces, List.append_assoc]

lemma flatten_headPieces : (headPieces id fromUser toUser subject).flatten =
    unlines (headLines id fromUser toUser) ++ (kv "subject" subject ++ [nl]) := by
  rw [headPieces, List.flatten_append, flatten_subjectPieces, unlines]

include hfrom hto hsub in
/-- None of them matters to the loader. -/
lemma inert_headPieces {p : Bytes} (hp : p ∈ headPieces id fromUser toUser subject) : Inert p := by
  rcases List.mem_append.mp hp with hp | hp
  · simp only [headLines, List.map_cons, List.map_nil, List.mem_cons, List.not_mem_nil, or_false, kv_append] at hp
    rcases hp with rfl | rfl | rfl
    · exact inert_kv 0x69 (ofString "d") (by decide) (by decide) (by decide) (by decide) (by decide)
        (by simpa using ⟨notMem_decimal (by decide) id, by decide⟩)
    · exact inert_kv 0x66 (ofString "rom") (by decide) (by decide) (by decide) (by decide) (by decide)
        (by simpa using ⟨hfrom.2.2, by decide⟩)
    · exact inert_kv 0x74 (ofString "o") (by decide) (by decide) (by decide) (by decide) (by decide)
        (by simpa using ⟨hto.2.2, by decide⟩)
  · exact inert_subjectPieces hsub.1 hsub.2 hp

end Pieces

lemma headerLine_time {now : ℕ} (h : now ≤ longMax) (entry : MailEntry) :
    (headerLine entry (kv "time" (decimal now) ++ [nl])).receivedAt = now := by
  have hkey : headerKey (kv "time" (decimal now) ++ [nl]) = ofString "time" := by
    rw [kv_append, headerKey_kv (by decide)]
  have hdigit : ∀ {p : UInt8 → Bool}, (∀ b, isDigit b = true → p b = false) → ∀ b ∈ decimal now, p b = false :=
    fun hp b hb => hp b (isDigit_of_mem_decimal hb)
  have hblank : (decimal now ++ [nl]).dropWhile isValueBlank = decimal now ++ [nl] := by
    apply dropWhile_of_head
    intro b hb
    rw [List.head?_append_of_ne_nil _ (decimal_ne_nil now)] at hb
    refine hdigit (fun b hb => ?_) b (List.mem_of_mem_head? hb)
    rw [isValueBlank, Bool.or_eq_false_iff, decide_eq_false_iff_not, decide_eq_false_iff_not]
    constructor <;> rintro rfl <;> exact absurd hb (by decide)
  have hend : (decimal now).rdropWhile isLineEnd = decimal now := by
    apply rdropWhile_of_last
    intro b hb
    refine hdigit (fun b hb => ?_) b (List.mem_of_getLast? hb)
    rw [isLineEnd, Bool.or_eq_false_iff, decide_eq_false_iff_not, decide_eq_false_iff_not]
    constructor <;> rintro rfl <;> exact absurd hb (by decide)
  have hvalue : headerValue (kv "time" (decimal now) ++ [nl]) = decimal now := by
    rw [headerValue, kv_append, kv, dropWhile_equals (by decide), List.tail_cons, hblank, List.rdropWhile_concat,
      if_pos (by decide), hend]
  have hstrtol : strtol (decimal now) = now := by
    have := @strtol_digits (decimal now) [] (decimal_ne_nil now) (fun b hb => isDigit_of_mem_decimal hb) (by simp)
      (by rwa [digitsValue_decimal])
    rwa [List.append_nil, digitsValue_decimal] at this
  have hmem : equals ∈ kv "time" (decimal now) ++ [nl] := by
    simp [kv]
  rw [headerLine, if_neg (not_not.mpr hmem), hkey, if_neg (by decide), if_neg (by decide), if_pos (by decide), hvalue]
  exact hstrtol

lemma timeLine_text (now : ℕ) : 0 ∉ kv "time" (decimal now) ++ [nl] ∧
    bodyMark.isPrefixOf (kv "time" (decimal now) ++ [nl]) = false ∧
    readKey.isPrefixOf (kv "time" (decimal now) ++ [nl]) = false := by
  have hkey : ofString "time" = 0x74 :: ofString "ime" := by decide
  rw [kv_append]
  refine ⟨notMem_kv (by decide) (by decide) ?_, isPrefixOf_kv hkey (by decide) _, isPrefixOf_kv hkey (by decide) _⟩
  simpa using ⟨notMem_decimal (by decide) now, by decide⟩

section Mark

variable {id now : ℕ} {fromUser toUser subject read : Bytes} (hid : id ≤ ulongMax) (hnow : now ≤ longMax)
  (hfrom : fromUser.length < userNameMax ∧ nl ∉ fromUser ∧ 0 ∉ fromUser)
  (hto : toUser.length < userNameMax ∧ nl ∉ toUser ∧ 0 ∉ toUser)
  (hsub : (nl ∉ subject ∧ 0 ∉ subject) ∧ subject.length ≤ mailSubjectMax)
  (hread : read = ofString "no" ∨ read = ofString "yes")

include hid hnow hfrom hto hsub hread in
/-- Of the header only the read line is rewritten; the body is gone through in the same way. -/
lemma markRead_header (body : Bytes) : markRead (header id fromUser toUser subject now read ++ body) =
    header id fromUser toUser subject now (ofString "yes") ++ markRead body := by
  have hsame : (headPieces id fromUser toUser subject).map markPiece = headPieces id fromUser toUser subject := by
    conv_rhs => rw [← List.map_id (headPieces id fromUser toUser subject)]
    apply List.map_congr_left
    intro p hmem
    have hinert := inert_headPieces hfrom hto hsub hmem
    rw [markPiece, hinert.2.2.1, if_neg Bool.false_ne_true, cstr_of_notMem hinert.1]
    rfl
  have htime : markPiece (kv "time" (decimal now) ++ [nl]) = kv "time" (decimal now) ++ [nl] := by
    obtain ⟨h0, -, hkey⟩ := timeLine_text now
    rw [markPiece, hkey, if_neg Bool.false_ne_true, cstr_of_notMem h0]
  have hflag : markPiece (kv "read" read ++ [nl]) = kv "read" (ofString "yes") ++ [nl] := by
    rcases hread with rfl | rfl <;> decide
  have hmark : markPiece (bodyMark ++ [nl]) = bodyMark ++ [nl] := by decide
  rw [markRead, fgets_header hid hnow hfrom hto hsub hread, List.map_append, List.map_append, hsame,
    List.flatten_append, flatten_headPieces, List.flatten_append]
  simp only [tailLines, List.map_cons, List.map_nil, htime, hflag, hmark]
  simp [header, unlines, tailLines, markRead]

end Mark

section Stored

variable {id now : ℕ} {file : MsgFile} (h : Stored id now file)
include h

/-- The loader dates a stored message by its delivery. -/
lemma loadEntry_stored : ∃ entry, loadEntry file = some entry ∧ entry.id = id ∧ entry.receivedAt = now := by
  obtain ⟨hid, hnow, hname, fromUser, toUser, subject, read, body, hfrom, hto, hsub, hread, htext⟩ := h
  refine ⟨_, by rw [loadEntry, hname, parseMsgFilename_msgFileName hid]; rfl, readHeader_id _ _, ?_⟩
  rw [htext, fgets_header hid hnow hfrom hto hsub hread, List.map_append]
  obtain ⟨entry, -, hr⟩ := readHeader_inert (fun p hp => inert_headPieces hfrom hto hsub hp) ⟨id, [], [], 0, false⟩
    (((tailLines now read).map (· ++ [nl]) ++ fgets lineMax body).map cstr)
  dsimp only
  rw [hr]
  obtain ⟨htime, htimeMark, -⟩ := timeLine_text now
  have hflag : cstr (kv "read" read ++ [nl]) = kv "read" read ++ [nl] ∧
      bodyMark.isPrefixOf (kv "read" read ++ [nl]) = false ∧
      strIeq (headerKey (kv "read" read ++ [nl])) (ofString "time") = false := by
    rcases hread with rfl | rfl <;> decide
  have hend : bodyMark.isPrefixOf (cstr (bodyMark ++ [nl])) = true := by decide
  simp only [tailLines, List.map_cons, List.map_nil, List.cons_append, List.nil_append, cstr_of_notMem htime, hflag.1]
  rw [readHeader, htimeMark, if_neg Bool.false_ne_true, readHeader, hflag.2.1, if_neg Bool.false_ne_true, readHeader,
    hend, if_pos rfl, headerLine_receivedAt hflag.2.2, headerLine_time hnow]

/-- Reading a message rewrites its file, but not the date. -/
lemma stored_markRead : Stored id now { file with text := markRead file.text } := by
  obtain ⟨hid, hnow, hname, fromUser, toUser, subject, read, body, hfrom, hto, hsub, hread, htext⟩ := h
  refine ⟨hid, hnow, hname, fromUser, toUser, subject, ofString "yes", markRead body, hfrom, hto, hsub, .inr rfl, ?_⟩
  dsimp only
  rw [htext, markRead_header hid hnow hfrom hto hsub hread]

end Stored

lemma stored_msgText (letter : Letter) {id now : ℕ} {toUser : Bytes} (hid : id ≤ ulongMax) (hnow : now ≤ longMax)
    (hto : toUser.length < userNameMax ∧ nl ∉ toUser ∧ 0 ∉ toUser) (hsub : letter.subject.length ≤ mailSubjectMax) :
    Stored id now ⟨msgFileName id, msgText id letter toUser now⟩ :=
  ⟨hid, hnow, rfl, letter.fromUser, toUser, letter.subject, ofString "no", _, ⟨letter.from_fits, letter.from_line⟩, hto,
    ⟨letter.subject_line, hsub⟩, .inl rfl, rfl⟩

end HyBBX.Mail
