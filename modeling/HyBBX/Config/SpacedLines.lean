import HyBBX.Config.SaveLoad

/-! Lines of a configuration file with blanks and tabs around section names, keys and values, and what the loader makes of
them. -/

namespace HyBBX.Config

open HyBBX.Core Lib Lib.Bytes Lib.Text Lib.Numeral Lib.LineReader

def Blanks (s : Bytes) : Prop := ∀ b ∈ s, b = blank ∨ b = tab

instance (s : Bytes) : Decidable (Blanks s) := inferInstanceAs (Decidable (∀ b ∈ s, b = blank ∨ b = tab))

/-- No line break and no NUL. -/
def OfLine (s : Bytes) : Prop := nl ∉ s ∧ 0 ∉ s

instance (s : Bytes) : Decidable (OfLine s) := inferInstanceAs (Decidable (nl ∉ s ∧ 0 ∉ s))

/-- No comment starts in the text, nor does a quotation go on behind it. -/
def commentMayFollow : Bool → Bool → Bytes → Bool
  | inSingle, inDouble, [] => !inSingle && !inDouble
  | inSingle, inDouble, c :: cs =>
    if inSingle = false ∧ inDouble = false ∧ startsComment c then false
    else if inDouble = false ∧ c = single then commentMayFollow (!inSingle) inDouble cs
    else if inSingle = false ∧ c = double then commentMayFollow inSingle (!inDouble) cs
    else commentMayFollow inSingle inDouble cs

structure HeaderSpaces where
  front : Bytes
  back : Bytes

structure EntrySpaces where
  front : Bytes
  mid : Bytes
  lead : Bytes
  trail : Bytes

/-- A line, with its blanks as they are and as they are changed to. -/
inductive Respacing
  | header (indent name rest : Bytes) (spaces spaces' : HeaderSpaces)
  | entry (key value comment : Bytes) (spaces spaces' : EntrySpaces)

def headerText (indent name rest : Bytes) (spaces : HeaderSpaces) : Bytes :=
  indent ++ (opening :: (spaces.front ++ name ++ spaces.back) ++ closing :: rest)

def entryText (key value comment : Bytes) (spaces : EntrySpaces) : Bytes :=
  spaces.front ++ key ++ spaces.mid ++ equals :: (spaces.lead ++ value ++ spaces.trail ++ comment)

def Respacing.old : Respacing → Bytes
  | .header indent name rest spaces _ => headerText indent name rest spaces
  | .entry key value comment spaces _ => entryText key value comment spaces

def Respacing.new : Respacing → Bytes
  | .header indent name rest _ spaces' => headerText indent name rest spaces'
  | .entry key value comment _ spaces' => entryText key value comment spaces'

structure HeaderParts (indent name rest : Bytes) : Prop where
  indentLine : OfLine indent
  indented : ∀ b ∈ indent, isSpace b = true
  closing : closing ∉ name
  ends : (∀ b ∈ name.head?, b ≠ blank ∧ b ≠ tab) ∧ ∀ b ∈ name.getLast?, b ≠ blank ∧ b ≠ tab
  nameLine : OfLine name
  restLine : OfLine rest

/-- The key does not make the line a comment or a header, and what follows the value is a comment or nothing. -/
structure EntryParts (key value comment : Bytes) : Prop where
  equals : equals ∉ key
  head : ∀ b ∈ (trim key).head?, startsComment b = false ∧ b ≠ opening
  keyLine : OfLine key
  valueLine : OfLine value
  commentLine : OfLine comment
  comment : comment = [] ∨ comment.head?.any startsComment = true ∧ commentMayFollow false false value = true

/-- The line is no longer than the loader reads. -/
def Fits (l : Bytes) : Prop := l.length + 1 < configLineMax

instance (l : Bytes) : Decidable (Fits l) := inferInstanceAs (Decidable (l.length + 1 < configLineMax))

def HeaderSpaces.Ok (spaces : HeaderSpaces) : Prop := Blanks spaces.front ∧ Blanks spaces.back

def EntrySpaces.Ok (spaces : EntrySpaces) : Prop :=
  Blanks spaces.front ∧ Blanks spaces.mid ∧ Blanks spaces.lead ∧ Blanks spaces.trail

instance (spaces : HeaderSpaces) : Decidable spaces.Ok := inferInstanceAs (Decidable (_ ∧ _))

instance (spaces : EntrySpaces) : Decidable spaces.Ok := inferInstanceAs (Decidable (_ ∧ _ ∧ _ ∧ _))

def Respacing.Ok : Respacing → Prop
  | .header indent name rest spaces spaces' => HeaderParts indent name rest ∧ spaces.Ok ∧ spaces'.Ok
  | .entry key value comment spaces spaces' => EntryParts key value comment ∧ spaces.Ok ∧ spaces'.Ok

def HeaderSpaces.inside (spaces : HeaderSpaces) (name : Bytes) : Bytes := spaces.front ++ name ++ spaces.back

/-- The blanks in front of a section name stay, as do those around a name of white space, as far as names are read. -/
def SameName (name : Bytes) (spaces spaces' : HeaderSpaces) : Prop :=
  if name.all isSpace then
    (spaces.inside name).take (configSectionMax - 1) = (spaces'.inside name).take (configSectionMax - 1)
  else spaces.front.take (configSectionMax - 1) = spaces'.front.take (configSectionMax - 1)

instance (name : Bytes) (spaces spaces' : HeaderSpaces) : Decidable (SameName name spaces spaces') :=
  inferInstanceAs (Decidable (if name.all isSpace then
    (spaces.inside name).take (configSectionMax - 1) = (spaces'.inside name).take (configSectionMax - 1)
  else spaces.front.take (configSectionMax - 1) = spaces'.front.take (configSectionMax - 1)))

section Lines

variable {st : ConfigLoad} {l : Bytes}

lemma fgetsFrom_append_nl (size k : ℕ) (l rest : Bytes) :
    fgetsFrom size k (l ++ nl :: rest) = fgetsFrom size k (l ++ [nl]) ++ fgetsFrom size (size - 1) rest := by
  induction l generalizing k with
  | nil => simp [fgetsFrom]
  | cons b l ih =>
    rw [List.cons_append, List.cons_append, fgetsFrom, fgetsFrom]
    split_ifs
    · rw [ih, List.cons_append]
    · rw [ih]
      cases hl : fgetsFrom size (k - 1) (l ++ [nl]) with
      | nil =>
        have hflat := flatten_fgetsFrom size (k - 1) (l ++ [nl])
        rw [hl] at hflat
        simp at hflat
      | cons c cs => rfl

/-- What a line makes of the loader. -/
def lineStep (st : ConfigLoad) (l : Bytes) : Except HybbxResult ConfigLoad :=
  loadLines st (fgets configLineMax (l ++ [nl]))

lemma load_line (st : ConfigLoad) (l rest : Bytes) :
    loadLines st (fgets configLineMax (l ++ nl :: rest)) = lineStep st l >>= fun st =>
      loadLines st (fgets configLineMax rest) := by
  rw [fgets, fgetsFrom_append_nl, loadLines, List.foldlM_append]
  rfl

/-- A line that fills the buffer is refused, with or without a line break behind it. -/
lemma load_long (hl : OfLine l) (hlong : configLineMax ≤ l.length + 1) (rest : Bytes) :
    loadLines st (fgets configLineMax (l ++ rest)) = .error .errInvalid := by
  have hsplit : l ++ rest = l.take (configLineMax - 1) ++ (l.drop (configLineMax - 1) ++ rest) := by
    rw [← List.append_assoc, List.take_append_drop]
  have hmax : configLineMax = 512 := rfl
  have hlen : (l.take (configLineMax - 1)).length = configLineMax - 1 := by
    rw [List.length_take]
    omega
  have hsub : l.take (configLineMax - 1) ⊆ l := List.take_subset _ _
  have hnl : nl ∉ l.take (configLineMax - 1) := fun h => hl.1 (hsub h)
  have hstr : cstr (l.take (configLineMax - 1)) = l.take (configLineMax - 1) := cstr_of_notMem fun h => hl.2 (hsub h)
  have hlast : (l.take (configLineMax - 1)).getLast? ≠ some nl := fun h => hnl (List.mem_of_getLast? h)
  rw [hsplit, fgets_full hnl (by omega) (by omega), loadLines, List.foldlM_cons, loadLine, hstr,
    if_pos ⟨by omega, hlast, by omega⟩]
  rfl

lemma lineStep_long (hl : OfLine l) (hlong : configLineMax ≤ l.length + 1) : lineStep st l = .error .errInvalid :=
  load_long hl hlong [nl]

lemma lineStep_short (hl : OfLine l) (hshort : l.length + 1 < configLineMax) :
    lineStep st l = loadLine st (l ++ [nl]) := by
  rw [lineStep, fgets_line hl.1 hshort, loadLines, List.foldlM_cons]
  cases loadLine st (l ++ [nl]) <;> rfl

lemma fgetsFrom_short (size : ℕ) {k : ℕ} (hn : nl ∉ l) (hne : l ≠ []) (hl : l.length ≤ k) :
    fgetsFrom size k l = [l] := by
  induction l generalizing k with
  | nil => exact absurd rfl hne
  | cons b l ih =>
    have hb : b ≠ nl := fun h => hn (h ▸ List.mem_cons_self)
    rw [List.length_cons] at hl
    rw [fgetsFrom]
    cases l with
    | nil => split_ifs <;> rfl
    | cons c l =>
      rw [List.length_cons] at hl
      rw [if_neg (by simp only [hb, false_or]; omega),
        ih (fun h => hn (List.mem_cons_of_mem b h)) (List.cons_ne_nil c l)
        (by rw [List.length_cons]; omega)]

lemma loadLine_last (hl : OfLine l) (hshort : l.length + 1 < configLineMax) :
    loadLine st l = loadLine st (l ++ [nl]) := by
  rw [loadLine_content hl.2, loadLine, cstr_of_notMem hl.2, if_neg (by omega)]

/-- The last line may be without a line break. -/
lemma load_last (hl : OfLine l) : loadLines st (fgets configLineMax l) = lineStep st l := by
  by_cases hlong : configLineMax ≤ l.length + 1
  · rw [lineStep_long hl hlong, ← List.append_nil l, load_long hl hlong]
  · rw [not_le] at hlong
    rw [lineStep_short hl hlong, ← loadLine_last hl hlong]
    by_cases hne : l = []
    · rw [hne]
      rfl
    · rw [fgets, fgetsFrom_short configLineMax hl.1 hne (by omega), loadLines, List.foldlM_cons]
      cases loadLine st l <;> rfl

end Lines

section Values

variable {front back lead trail value comment : Bytes}

lemma isSpace_of_blanks (h : Blanks front) : ∀ b ∈ front, isSpace b = true := by
  intro b hb
  rcases h b hb with rfl | rfl <;> decide

lemma trim_append_left (hfront : ∀ b ∈ front, isSpace b = true) (x : Bytes) : trim (front ++ x) = trim x := by
  rw [trim, List.dropWhile_append_of_pos hfront, trim]

lemma rdropWhile_append_spaces (hback : ∀ b ∈ back, isSpace b = true) (x : Bytes) :
    (x ++ back).rdropWhile isSpace = x.rdropWhile isSpace := by
  rw [List.rdropWhile, List.reverse_append, List.dropWhile_append_of_pos, List.rdropWhile]
  exact fun b hb => hback b (List.mem_reverse.mp hb)

lemma trim_append_right (hback : ∀ b ∈ back, isSpace b = true) (x : Bytes) : trim (x ++ back) = trim x := by
  rw [← trim_rdropWhile, rdropWhile_append_spaces hback, trim_rdropWhile]

lemma trim_spaced (hfront : Blanks front) (hback : Blanks back) (x : Bytes) : trim (front ++ x ++ back) = trim x := by
  rw [trim_append_right (isSpace_of_blanks hback), trim_append_left (isSpace_of_blanks hfront)]

lemma space_plain {b : UInt8} (h : isSpace b = true) : startsComment b = false ∧ b ≠ single ∧ b ≠ double ∧
    b ≠ equals := by
  have hall : ∀ n : Fin 256, isSpace (UInt8.ofFin n) = true → startsComment (UInt8.ofFin n) = false ∧
    UInt8.ofFin n ≠ single ∧
      UInt8.ofFin n ≠ double ∧ UInt8.ofFin n ≠ equals := by decide +kernel
  exact hall b.toFin h

lemma commentMayFollow_space {b : UInt8} (hb : isSpace b = true) (value : Bytes) :
    commentMayFollow false false (b :: value) = commentMayFollow false false value := by
  obtain ⟨hcomment, hsingle, hdouble, -⟩ := space_plain hb
  rw [commentMayFollow, if_neg (by simp [hcomment]), if_neg (by simp [hsingle]), if_neg (by simp [hdouble])]

lemma cutComment_append {inSingle inDouble : Bool} (h : commentMayFollow inSingle inDouble value = true) (x : Bytes) :
    cutComment inSingle inDouble (value ++ x) = value ++ cutComment false false x := by
  induction value generalizing inSingle inDouble with
  | nil =>
    rw [commentMayFollow, Bool.and_eq_true, Bool.not_eq_true', Bool.not_eq_true'] at h
    rw [h.1, h.2, List.nil_append, List.nil_append]
  | cons c cs ih =>
    rw [commentMayFollow] at h
    rw [List.cons_append, cutComment]
    split_ifs at h ⊢ with hcomment hsingle hdouble
    · rw [ih h, List.cons_append]
    · rw [ih h, List.cons_append]
    · rw [ih h, List.cons_append]

lemma cutComment_spaces {trail : Bytes} (htrail : ∀ b ∈ trail, isSpace b = true)
    (hcomment : comment.head?.any startsComment = true) :
    cutComment false false (trail ++ comment) = trail := by
  have hplain : commentMayFollow false false trail = true := by
    induction trail with
    | nil => rfl
    | cons b trail ih =>
      rw [commentMayFollow_space (htrail b List.mem_cons_self)]
      exact ih fun c hc => htrail c (List.mem_cons_of_mem b hc)
  rw [cutComment_append hplain]
  cases comment with
  | nil => cases hcomment
  | cons c cs =>
    have hc : startsComment c = true := hcomment
    rw [cutComment, if_pos ⟨rfl, rfl, hc⟩, List.append_nil]

lemma commentMayFollow_dropWhile (h : commentMayFollow false false value = true) :
    commentMayFollow false false (value.dropWhile isSpace) = true := by
  induction value with
  | nil => exact h
  | cons b value ih =>
    by_cases hb : isSpace b = true
    · rw [commentMayFollow_space hb] at h
      rw [List.dropWhile_cons_of_pos hb]
      exact ih h
    · rw [List.dropWhile_cons_of_neg hb]
      exact h

/-- Of a value with a comment behind it, the value is read without the blanks around it. -/
lemma readValue_commented (hcomment : comment.head?.any startsComment = true)
    (hvalue : commentMayFollow false false value = true)
    (hlead : Blanks lead) (htrail : Blanks trail) :
    readValue (lead ++ value ++ trail ++ comment) = unquote (trim value) := by
  obtain ⟨c, cs, rfl⟩ : ∃ c cs, comment = c :: cs := by
    cases comment with
    | nil => cases hcomment
    | cons c cs => exact ⟨c, cs, rfl⟩
  have hc : startsComment c = true := hcomment
  have hspace : isSpace c = false := by
    rw [Bool.eq_false_iff]
    intro h
    rw [(space_plain h).1] at hc
    cases hc
  have hend : ∀ x : Bytes, (x ++ c :: cs).rdropWhile isSpace = x ++ c :: cs.rdropWhile isSpace := by
    intro x
    rw [List.append_cons, rdropWhile_append_of_last, List.append_assoc, List.singleton_append]
    intro b hb
    rw [List.getLast?_concat] at hb
    rw [← Option.some.inj hb, hspace]
  have hcut : (c :: cs.rdropWhile isSpace).head?.any startsComment = true := hc
  have hdrop : trim (lead ++ value ++ trail ++ c :: cs) = trim (value ++ trail ++ c :: cs) := by
    rw [List.append_assoc, List.append_assoc, trim_append_left (isSpace_of_blanks hlead), List.append_assoc]
  rw [readValue, hdrop, trim, List.append_assoc, List.dropWhile_append]
  split_ifs with hempty
  · have hnil : value.dropWhile isSpace = [] := List.isEmpty_iff.mp hempty
    rw [List.dropWhile_append_of_pos (isSpace_of_blanks htrail), List.dropWhile_cons_of_neg (by simp [hspace]),
      ← List.nil_append (c :: cs),
      hend, List.nil_append, trim, hnil, stripInlineComment, cutComment, if_pos ⟨rfl, rfl, hc⟩]
  · rw [← List.append_assoc, hend, stripInlineComment, List.append_assoc,
      cutComment_append (commentMayFollow_dropWhile hvalue),
      cutComment_spaces (isSpace_of_blanks htrail) hcut, rdropWhile_append_spaces (isSpace_of_blanks htrail), trim]

lemma readValue_spaced (hcomment : comment = [] ∨ comment.head?.any startsComment = true ∧ commentMayFollow false false value = true)
    (hlead : Blanks lead) (htrail : Blanks trail) :
    readValue (lead ++ value ++ trail ++ comment) = readValue (value ++ comment) := by
  rcases hcomment with rfl | ⟨hcomment, hvalue⟩
  · rw [List.append_nil, List.append_nil, readValue, trim_spaced hlead htrail, readValue]
  · rw [readValue_commented hcomment hvalue hlead htrail]
    have hclose : readValue ([] ++ value ++ [] ++ comment) = unquote (trim value) :=
      readValue_commented hcomment hvalue (List.forall_mem_nil _) (List.forall_mem_nil _)
    rw [← hclose, List.nil_append, List.append_nil]

end Values

section Steps

variable {st : ConfigLoad}

/-- What the loader makes of the key and the value of a line. -/
def entryStep (st : ConfigLoad) (key value : Bytes) : Except HybbxResult ConfigLoad :=
  if st.currentSection = [] then .error .errInvalid
  else match appendEntry st.config ⟨st.currentSection, key, value⟩ with
    | .error _ => .error .errNomem
    | .ok config => .ok { st with config := config }

/-- The name that the loader takes from the brackets. -/
def nameRead (inside : Bytes) : Bytes := trimSection (inside.take (configSectionMax - 1))

lemma trim_equals (x y : Bytes) : trim (x ++ equals :: y) = x.dropWhile isSpace ++ equals :: y.rdropWhile isSpace := by
  have hend : ∀ u : Bytes, (u ++ equals :: y).rdropWhile isSpace = u ++ equals :: y.rdropWhile isSpace := by
    intro u
    rw [List.append_cons, rdropWhile_append_of_last, List.append_assoc, List.singleton_append]
    intro b hb
    rw [List.getLast?_concat] at hb
    rw [← Option.some.inj hb]
    decide
  rw [trim, List.dropWhile_append]
  split_ifs with hempty
  · rw [List.isEmpty_iff.mp hempty, List.nil_append, List.dropWhile_cons_of_neg (by decide),
      ← List.nil_append (equals :: y), hend]
    rfl
  · exact hend _

lemma ofLine_blanks {s : Bytes} (h : Blanks s) : OfLine s := by
  constructor
  · intro hin
    rcases h nl hin with hb | hb <;> exact absurd hb (by decide)
  · intro hin
    rcases h 0 hin with hb | hb <;> exact absurd hb (by decide)

lemma ofLine_append {s t : Bytes} (hs : OfLine s) (ht : OfLine t) : OfLine (s ++ t) :=
  ⟨fun h => (List.mem_append.mp h).elim hs.1 ht.1, fun h => (List.mem_append.mp h).elim hs.2 ht.2⟩

lemma ofLine_cons {b : UInt8} {t : Bytes} (hb : b ≠ nl ∧ b ≠ 0) (ht : OfLine t) : OfLine (b :: t) :=
  ⟨fun h => (List.mem_cons.mp h).elim (fun h => hb.1 h.symm) ht.1,
    fun h => (List.mem_cons.mp h).elim (fun h => hb.2 h.symm) ht.2⟩

lemma ofLine_entry {key value comment : Bytes} (h : EntryParts key value comment) {spaces : EntrySpaces}
    (hs : spaces.Ok) :
    OfLine (entryText key value comment spaces) := by
  obtain ⟨hfront, hmid, hlead, htrail⟩ := hs
  refine ofLine_append (ofLine_append (ofLine_append (ofLine_blanks hfront) h.keyLine) (ofLine_blanks hmid)) (ofLine_cons (by decide) ?_)
  exact ofLine_append (ofLine_append (ofLine_append (ofLine_blanks hlead) h.valueLine) (ofLine_blanks htrail)) h.commentLine

lemma ofLine_header {indent name rest : Bytes} (h : HeaderParts indent name rest) {spaces : HeaderSpaces}
    (hs : spaces.Ok) :
    OfLine (headerText indent name rest spaces) := by
  have hinside := ofLine_append (ofLine_append (ofLine_blanks hs.1) h.nameLine) (ofLine_blanks hs.2)
  exact ofLine_append h.indentLine (ofLine_append (ofLine_cons (by decide) hinside) (ofLine_cons (by decide) h.restLine))

lemma loadLine_entryText {key value comment : Bytes} (h : EntryParts key value comment) {spaces : EntrySpaces}
    (hs : spaces.Ok) :
    loadLine st (entryText key value comment spaces ++ [nl]) =
      entryStep st (trim key) (readValue (value ++ comment)) := by
  have htext := ofLine_entry h hs
  obtain ⟨hfront, hmid, hlead, htrail⟩ := hs
  have hline : trim (entryText key value comment spaces) = (spaces.front ++ key ++ spaces.mid).dropWhile isSpace ++
      equals :: (spaces.lead ++ value ++ spaces.trail ++ comment).rdropWhile isSpace := trim_equals _ _
  have hkey : trim ((spaces.front ++ key ++ spaces.mid).dropWhile isSpace) = trim key := by
    rw [trim, List.dropWhile_idempotent, ← trim, trim_spaced hfront hmid]
  have hequals : equals ∉ (spaces.front ++ key ++ spaces.mid).dropWhile isSpace := by
    intro hin
    have hin := (List.dropWhile_suffix _).subset hin
    rw [List.mem_append, List.mem_append] at hin
    rcases hin with (hin | hin) | hin
    · exact (space_plain (isSpace_of_blanks hfront _ hin)).2.2.2 rfl
    · exact h.equals hin
    · exact (space_plain (isSpace_of_blanks hmid _ hin)).2.2.2 rfl
  have hhead : ∀ b ∈ (trim (entryText key value comment spaces)).head?, startsComment b = false ∧ b ≠ opening := by
    rw [hline]
    cases hx : (spaces.front ++ key ++ spaces.mid).dropWhile isSpace with
    | nil =>
      rintro b ⟨⟩
      decide
    | cons c cs =>
      have hc : isSpace c = false := head_dropWhile (by rw [hx]; rfl)
      have hlast : ∀ b ∈ [c].getLast?, isSpace b = false := by
        rintro b ⟨⟩
        exact hc
      have hstart : (trim key).head? = some c := by
        rw [← hkey, hx, trim, List.dropWhile_cons_of_neg (by simp [hc]), ← List.singleton_append,
          rdropWhile_append_of_last hlast]
        rfl
      rintro b ⟨⟩
      exact h.head c hstart
  have hne : trim (entryText key value comment spaces) ≠ [] := by
    rw [hline]
    simp
  have hcomment : isCommentLine (trim (entryText key value comment spaces)) = false := by
    rw [isCommentLine_of_trimmed (trimmed_trim _)]
    cases hb : (trim (entryText key value comment spaces)).head? with
    | none => rfl
    | some b => exact (hhead b hb).1
  have hopening : (trim (entryText key value comment spaces)).head? ≠ some opening := fun hb => (hhead opening hb).2 rfl
  rw [loadLine_content htext.2, if_neg (by simp [hne, hcomment]), if_neg hopening, loadEntry, hline,
    takeWhile_equals hequals,
    dropWhile_equals hequals, List.tail_cons, hkey, readValue, trim_rdropWhile, ← readValue,
      readValue_spaced h.comment hlead htrail,
    entryStep]
  refine if_congr Iff.rfl rfl (if_neg ?_)
  exact not_not.mpr (List.mem_append_right _ List.mem_cons_self)

lemma loadLine_headerText {indent name rest : Bytes} (h : HeaderParts indent name rest) {spaces : HeaderSpaces}
    (hs : spaces.Ok) :
    loadLine st (headerText indent name rest spaces ++ [nl]) =
      .ok { st with currentSection := nameRead (spaces.front ++ name ++ spaces.back) } := by
  have hclosing : ∀ b ∈ opening :: (spaces.front ++ name ++ spaces.back), b ≠ closing := by
    have hblanks : ∀ {s : Bytes}, Blanks s → closing ∉ s := by
      intro s hs hin
      rcases hs closing hin with hb | hb <;> exact absurd hb (by decide)
    intro b hb hclose
    rw [hclose, List.mem_cons, List.mem_append, List.mem_append] at hb
    rcases hb with hb | (hb | hb) | hb
    · exact absurd hb (by decide)
    · exact hblanks hs.1 hb
    · exact h.closing hb
    · exact hblanks hs.2 hb
  have hline : trim (headerText indent name rest spaces) =
      (opening :: (spaces.front ++ name ++ spaces.back)) ++ closing :: rest.rdropWhile isSpace := by
    rw [headerText, trim_append_left h.indented, trim, List.cons_append, List.dropWhile_cons_of_neg (by decide),
      ← List.cons_append,
      List.append_cons, rdropWhile_append_of_last, List.append_assoc, List.singleton_append]
    intro b hb
    rw [List.getLast?_concat] at hb
    rw [← Option.some.inj hb]
    decide
  have hcomment : isCommentLine (trim (headerText indent name rest spaces)) = false := by
    rw [isCommentLine_of_trimmed (trimmed_trim _), hline]
    rfl
  have hcut : (trim (headerText indent name rest spaces)).takeWhile (· ≠ closing) =
      opening :: (spaces.front ++ name ++ spaces.back) := by
    rw [hline, List.takeWhile_append_of_pos fun b hb => by simpa using hclosing b hb, List.takeWhile_cons_of_neg (by simp), List.append_nil]
  have hhead : (trim (headerText indent name rest spaces)).head? = some opening := by
    rw [hline]
    rfl
  have hne : trim (headerText indent name rest spaces) ≠ [] := by
    intro hnil
    rw [hnil] at hhead
    cases hhead
  have hin : closing ∈ trim (headerText indent name rest spaces) := by
    rw [hline]
    exact List.mem_append_right _ List.mem_cons_self
  rw [loadLine_content (ofLine_header h hs).2, if_neg (by simp [hne, hcomment]), if_pos hhead, loadSection,
    if_neg (not_not.mpr hin), hcut,
    List.drop_one, List.tail_cons, nameRead]

lemma lineStep_entryText {key value comment : Bytes} (h : EntryParts key value comment) {spaces : EntrySpaces}
    (hs : spaces.Ok) :
    lineStep st (entryText key value comment spaces) = if Fits (entryText key value comment spaces) then
      entryStep st (trim key) (readValue (value ++ comment)) else .error .errInvalid := by
  have hline := ofLine_entry h hs
  split_ifs with hfits
  · rw [lineStep_short hline hfits, loadLine_entryText h hs]
  · exact lineStep_long hline (not_lt.mp hfits)

lemma lineStep_headerText {indent name rest : Bytes} (h : HeaderParts indent name rest) {spaces : HeaderSpaces}
    (hs : spaces.Ok) :
    lineStep st (headerText indent name rest spaces) = if Fits (headerText indent name rest spaces) then
      .ok { st with currentSection := nameRead (spaces.inside name) } else .error .errInvalid := by
  have hline := ofLine_header h hs
  split_ifs with hfits
  · rw [lineStep_short hline hfits, loadLine_headerText h hs]
    rfl
  · exact lineStep_long hline (not_lt.mp hfits)

end Steps

section Names

variable {name : Bytes} {spaces spaces' : HeaderSpaces}

def isSpacing (b : UInt8) : Bool := b = blank || b = tab

lemma rdropWhile_append_of_not_all {p : UInt8 → Bool} {z : Bytes} (hz : ¬z.all p = true) (x : Bytes) :
    (x ++ z).rdropWhile p = x ++ z.rdropWhile p ∧ z.rdropWhile p ≠ [] := by
  have hne : z.reverse.dropWhile p ≠ [] := by
    rw [ne_eq, List.dropWhile_eq_nil_iff]
    simpa using hz
  constructor
  · rw [List.rdropWhile, List.reverse_append, List.dropWhile_append, if_neg (by simpa using hne),
      List.reverse_append, List.reverse_reverse,
      List.rdropWhile]
  · rw [List.rdropWhile]
    simpa using hne

/-- White space in front of a name is not trimmed. -/
lemma trimSection_spaces {x : Bytes} (hx : ∀ b ∈ x, isSpace b = true) (w : Bytes) :
    ∃ w', trimSection (x ++ w) = x ++ w' ∧ w' <+: w ∧ (w' = [] → w = []) := by
  have hall : (x ++ w).all isSpace = w.all isSpace := by
    rw [List.all_append, List.all_eq_true.mpr hx, Bool.true_and]
  rw [trimSection, hall]
  split_ifs with hspace
  · exact ⟨w, rfl, List.prefix_refl w, id⟩
  · obtain ⟨hdrop, hne⟩ := rdropWhile_append_of_not_all hspace x
    exact ⟨w.rdropWhile isSpace, hdrop, List.rdropWhile_prefix _ _, fun h => absurd h hne⟩

lemma trimSection_back {x back : Bytes} (hx : ¬x.all isSpace = true) (hback : ∀ b ∈ back, isSpace b = true) :
    trimSection (x ++ back) = trimSection x := by
  have hall : ¬(x ++ back).all isSpace = true := by
    rw [List.all_append, Bool.and_eq_true]
    exact fun h => hx h.1
  rw [trimSection, if_neg hall, trimSection, if_neg hx, rdropWhile_append_spaces hback]

lemma takeWhile_isSpacing {front w : Bytes} (hfront : Blanks front) (hw : ∀ b ∈ w.head?, isSpacing b = false) :
    (front ++ w).takeWhile isSpacing = front := by
  have hall : ∀ b ∈ front, isSpacing b = true := by
    intro b hb
    rcases hfront b hb with rfl | rfl <;> rfl
  rw [List.takeWhile_append_of_pos hall]
  cases w with
  | nil => rw [List.takeWhile_nil, List.append_nil]
  | cons c w => rw [List.takeWhile_cons_of_neg (by simp [hw c rfl]), List.append_nil]

lemma blanks_take {front : Bytes} (h : Blanks front) (n : ℕ) : Blanks (front.take n) :=
    fun b hb => h b (List.mem_of_mem_take hb)

/-- The blanks in front of the name are in front of what is read. -/
lemma blanks_nameRead (hfront : Blanks spaces.front) (hne : name ≠ []) (hhead : ∀ b ∈ name.head?, b ≠ blank ∧ b ≠ tab) :
    (nameRead (spaces.inside name)).takeWhile isSpacing = spaces.front.take (configSectionMax - 1) := by
  have hblanks := blanks_take hfront (configSectionMax - 1)
  obtain ⟨w', hread, hprefix, -⟩ := trimSection_spaces (isSpace_of_blanks hblanks)
    ((name ++ spaces.back).take (configSectionMax - 1 - spaces.front.length))
  rw [nameRead, HeaderSpaces.inside, List.append_assoc, List.take_append, hread]
  apply takeWhile_isSpacing hblanks
  intro b hb
  obtain ⟨c, cs, rfl⟩ := List.exists_cons_of_ne_nil hne
  have hb : b ∈ (c :: cs ++ spaces.back).head? := by
    have hw := hprefix.trans (List.take_prefix _ _)
    cases w' with
    | nil => cases hb
    | cons d w' =>
      obtain ⟨t, ht⟩ := hw
      rw [← ht]
      exact hb
  obtain rfl : c = b := Option.some.inj hb
  simp [isSpacing, hhead c rfl]

/-- White space behind a name is trimmed. -/
lemma nameRead_back {front : Bytes} (hname : ¬name.all isSpace = true) {back : Bytes} (hback : Blanks back) :
    nameRead (front ++ name ++ back) = nameRead (front ++ name) := by
  rw [nameRead, nameRead, List.take_append]
  by_cases hlen : configSectionMax - 1 ≤ (front ++ name).length
  · rw [Nat.sub_eq_zero_of_le hlen, List.take_zero, List.append_nil]
  · have hall : ¬(front ++ name).all isSpace = true := by
      rw [List.all_append, Bool.and_eq_true]
      exact fun h => hname h.2
    rw [List.take_of_length_le (by omega : (front ++ name).length ≤ configSectionMax - 1)]
    exact trimSection_back hall (isSpace_of_blanks (blanks_take hback _))

lemma nameRead_eq_iff {indent rest : Bytes} (h : HeaderParts indent name rest) (hs : spaces.Ok) (hs' : spaces'.Ok) :
    nameRead (spaces.inside name) = nameRead (spaces'.inside name) ↔ SameName name spaces spaces' := by
  rw [SameName]
  split_ifs with hspace
  · have hread : ∀ {t : HeaderSpaces}, t.Ok →
        nameRead (t.inside name) = (t.inside name).take (configSectionMax - 1) := by
      intro t ht
      rw [nameRead, trimSection, if_pos]
      rw [List.all_eq_true] at hspace ⊢
      intro b hb
      have hb := List.mem_of_mem_take hb
      rw [HeaderSpaces.inside, List.mem_append, List.mem_append] at hb
      rcases hb with (hb | hb) | hb
      · exact isSpace_of_blanks ht.1 b hb
      · exact hspace b hb
      · exact isSpace_of_blanks ht.2 b hb
    rw [hread hs, hread hs']
  · have hne : name ≠ [] := by
      rintro rfl
      exact hspace rfl
    constructor
    · intro hsame
      rw [← blanks_nameRead hs.1 hne h.ends.1, hsame, blanks_nameRead hs'.1 hne h.ends.1]
    · intro hfront
      rw [HeaderSpaces.inside, HeaderSpaces.inside, nameRead_back hspace hs.2, nameRead_back hspace hs'.2]
      by_cases hlen : spaces.front.length < configSectionMax - 1
      · have hlen' := congrArg List.length hfront
        rw [List.length_take, List.length_take] at hlen'
        rw [List.take_of_length_le (by omega), List.take_of_length_le (by omega)] at hfront
        rw [hfront]
      · have hlen' := congrArg List.length hfront
        rw [List.length_take, List.length_take] at hlen'
        rw [nameRead, nameRead, List.take_append_of_le_length (by omega),
          List.take_append_of_le_length (by omega), hfront]

end Names

end HyBBX.Config
