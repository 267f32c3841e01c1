import HyBBX.Command.MenuLines

/-! The lines of the alias list, and when each alias can be read in them. -/

namespace HyBBX.Command

open HyBBX.Core Lib Lib.Bytes Lib.Text Lib.Rows

def commandsAliasLines : ℕ := 8

def aliasGap : Bytes := [blank, blank, blank]

/-- An alias as it is listed; one with a blank in it stands alone. -/
def aliasItem (canonical name : Bytes) : Bytes := name ++ if blank ∈ name then [] else ofString " -> " ++ canonical

/-- What is formatted behind a line that is so long. -/
def aliasPiece (off : ℕ) (canonical name : Bytes) : Bytes :=
  (if 0 < off then aliasGap else []) ++ aliasItem canonical name

def pushAliasLine (lines : List Bytes) (line : Bytes) : List Bytes :=
  if lines.length < commandsAliasLines then lines ++ [line] else lines

/-- The aliases of an entry: the line begun on, and the lines so far. An alias that does not fit is formatted again
for an empty line, with what was formatted of it left in the other; none if it does not fit into an empty line either,
which goes on for ever. -/
def aliasLoop (canonical : Bytes) : List Bytes → Bytes → List Bytes → Option (Bytes × List Bytes)
  | [], line, lines => some (line, lines)
  | name :: names, line, lines =>
    let piece := aliasPiece line.length canonical name
    if sessionLineMax ≤ line.length + piece.length then
      let again := aliasPiece 0 canonical name
      if sessionLineMax ≤ again.length then none
      else aliasLoop canonical names again (pushAliasLine lines ((line ++ piece).take (sessionLineMax - 1)))
    else aliasLoop canonical names (line ++ piece) lines

def aliasEntries : List AliasEntry → List Bytes → Option (List Bytes)
  | [], lines => some lines
  | entry :: entries, lines =>
    if commandsAliasLines ≤ lines.length then some lines
    else (aliasLoop entry.canonical entry.aliases [] lines).bind fun r =>
      aliasEntries entries (if r.1 = [] then r.2 else pushAliasLine r.2 r.1)

def buildAliasLines (aliases : List AliasEntry) : Option (List Bytes) := aliasEntries aliases []

/-- What the registry stores of an entry, with aliases of one word. -/
structure EntrySized (entry : AliasEntry) : Prop where
  canonical : entry.canonical.length < cmdVerbMax
  names : ∀ name ∈ entry.aliases, VerbSized name ∧ blank ∉ name

def AliasEntry.items (entry : AliasEntry) : List Bytes := entry.aliases.map (aliasItem entry.canonical)

/-- The rows that an entry needs. -/
def AliasEntry.rows (entry : AliasEntry) : List (List Bytes) := fillRows (sessionLineMax - 1) aliasGap [] entry.items

/-- There are lines enough for all aliases. -/
def FitsCapacity (aliases : List AliasEntry) : Prop := (aliases.flatMap AliasEntry.rows).length ≤ commandsAliasLines

/-- The lines are rows of aliases, each of them whole and once; behind a row there are blanks at most. -/
def AliasesWhole (aliases : List AliasEntry) (lines : List Bytes) : Prop :=
  ∃ rows, rows.flatten = aliases.flatMap AliasEntry.items ∧
    List.Forall₂ (fun line row => ∃ n, line = joined aliasGap row ++ List.replicate n blank) lines rows

/-- Where the aliases of an entry go over to another line, the one before is so full that nothing but blanks follows. -/
def FilledUp (entry : AliasEntry) : Prop :=
  ∀ row ∈ entry.rows.dropLast, sessionLineMax - 1 - aliasGap.length ≤ (joined aliasGap row).length

section Entry

variable {canonical : Bytes}

lemma aliasPiece_ne {off : ℕ} (h : off ≠ 0) (name : Bytes) :
    aliasPiece off canonical name = aliasGap ++ aliasItem canonical name := by
  rw [aliasPiece, if_pos (Nat.pos_of_ne_zero h)]

lemma aliasPiece_zero (name : Bytes) : aliasPiece 0 canonical name = aliasItem canonical name := rfl

lemma aliasItem_length (hcanonical : canonical.length < cmdVerbMax) {name : Bytes} (hname : VerbSized name) :
    (aliasItem canonical name).length < sessionLineMax := by
  have hlen := hname.2
  have harrow : (ofString " -> ").length = 4 := by decide
  rw [cmdVerbMax] at hcanonical hlen
  rw [aliasItem, sessionLineMax, List.length_append]
  split_ifs
  · rw [List.length_nil]
    omega
  · rw [List.length_append, harrow]
    omega

lemma aliasItem_ne {name : Bytes} (hname : VerbSized name) : aliasItem canonical name ≠ [] :=
  List.append_ne_nil_of_left_ne_nil hname.1 _

/-- The lines of rows that follow each other in an entry: at the end of each one there is the front of the next. -/
def overflowing : List (List Bytes) → List Bytes
  | [] => []
  | [row] => [joined aliasGap row]
  | row :: next :: rows =>
    (joined aliasGap row ++ (aliasGap ++ next.headD [])).take (sessionLineMax - 1) :: overflowing (next :: rows)

/-- A row that is begun on begins the first of the rows. -/
lemma fillRows_head {width : ℕ} {sep : Bytes} {row : List Bytes} (hne : row ≠ []) (words : List Bytes) :
    ∃ more rows, fillRows width sep row words = (row ++ more) :: rows := by
  induction words generalizing row with
  | nil =>
    obtain ⟨first, row, rfl⟩ := List.exists_cons_of_ne_nil hne
    exact ⟨[], [], by rw [fillRows, List.append_nil]⟩
  | cons word words ih =>
    rw [fillRows_begin words hne]
    split_ifs
    · exact ⟨[], _, by rw [List.append_nil]⟩
    · obtain ⟨more, rows, h⟩ := @ih (row ++ [word]) (by simp)
      exact ⟨word :: more, rows, by rw [h, List.append_assoc]; rfl⟩

lemma length_overflowing (rows : List (List Bytes)) : (overflowing rows).length = rows.length := by
  fun_induction overflowing rows with
  | case1 => rfl
  | case2 row => rfl
  | case3 row next rows ih => rw [List.length_cons, ih, List.length_cons, List.length_cons, List.length_cons]

/-- The loop, as long as there are lines for its rows: what is begun on is the last of them. -/
lemma aliasLoop_eq {names : List Bytes} (hcanonical : canonical.length < cmdVerbMax)
    (hnames : ∀ name ∈ names, VerbSized name ∧ blank ∉ name) {row : List Bytes} (hrow : ∀ word ∈ row, word ≠ [])
    {lines : List Bytes}
    (hroom : lines.length + (fillRows (sessionLineMax - 1) aliasGap row (names.map (aliasItem canonical))).length ≤
      commandsAliasLines) :
    ∃ line lines', aliasLoop canonical names (joined aliasGap row) lines = some (line, lines') ∧
      (if line = [] then lines' else pushAliasLine lines' line) =
        lines ++ overflowing (fillRows (sessionLineMax - 1) aliasGap row (names.map (aliasItem canonical))) := by
  induction names generalizing row lines with
  | nil =>
    refine ⟨_, _, rfl, ?_⟩
    cases row with
    | nil =>
      rw [joined_nil, if_pos rfl]
      exact (List.append_nil lines).symm
    | cons first row =>
      rw [if_neg (joined_ne_nil (List.cons_ne_nil _ _) hrow), pushAliasLine, if_pos (by simpa [fillRows] using hroom)]
      rfl
  | cons name names ih =>
    obtain ⟨⟨hname, hword⟩, hnames⟩ := List.forall_mem_cons.mp hnames
    have hitem := aliasItem_length hcanonical hname
    have hsingle : ∀ word ∈ [aliasItem canonical name], word ≠ [] := by simpa using aliasItem_ne hname
    rw [List.map_cons] at hroom ⊢
    rw [aliasLoop]
    dsimp only
    cases row with
    | nil =>
      rw [joined_nil, List.length_nil, aliasPiece_zero, Nat.zero_add, if_neg (not_le.mpr hitem), List.nil_append]
      have hnext := ih hnames hsingle hroom
      rwa [joined_singleton] at hnext
    | cons first row =>
      have hline : joined aliasGap (first :: row) ≠ [] := joined_ne_nil (List.cons_ne_nil first row) hrow
      have hlen : (joined aliasGap (first :: row)).length ≠ 0 := fun h => hline (List.length_eq_zero_iff.mp h)
      rw [aliasPiece_ne hlen, List.length_append, aliasPiece_zero]
      rw [fillRows_begin _ (List.cons_ne_nil first row)] at hroom ⊢
      by_cases hlong : sessionLineMax ≤ (joined aliasGap (first :: row)).length +
          (aliasGap.length + (aliasItem canonical name).length)
      · have hwidth : sessionLineMax - 1 < (joined aliasGap (first :: row)).length +
            (aliasGap.length + (aliasItem canonical name).length) := lt_of_lt_of_le (by decide) hlong
        rw [if_pos hwidth] at hroom ⊢
        rw [if_pos hlong, if_neg (not_le.mpr hitem)]
        obtain ⟨more, rows, hrows⟩ := @fillRows_head (sessionLineMax - 1) aliasGap [aliasItem canonical name]
          (List.cons_ne_nil _ _) (names.map (aliasItem canonical))
        have hpushed : pushAliasLine lines
            ((joined aliasGap (first :: row) ++ (aliasGap ++ aliasItem canonical name)).take (sessionLineMax - 1)) =
            lines ++ [(joined aliasGap (first :: row) ++
              (aliasGap ++ aliasItem canonical name)).take (sessionLineMax - 1)] := if_pos (by rw [List.length_cons] at hroom; omega)
        have hnext := @ih hnames _ hsingle (lines ++ [(joined aliasGap (first :: row) ++
          (aliasGap ++ aliasItem canonical name)).take (sessionLineMax - 1)])
          (by rw [List.length_append, List.length_singleton]; rw [List.length_cons] at hroom; omega)
        rw [joined_singleton] at hnext
        rw [hpushed]
        obtain ⟨line, lines', hloop, hlines⟩ := hnext
        refine ⟨line, lines', hloop, ?_⟩
        rw [hlines, hrows, List.append_assoc]
        rfl
      · have hwidth : ¬sessionLineMax - 1 < (joined aliasGap (first :: row)).length +
            (aliasGap.length + (aliasItem canonical name).length) := by
          rw [sessionLineMax] at hlong ⊢
          omega
        rw [if_neg hwidth] at hroom ⊢
        rw [if_neg hlong]
        have hnext := ih hnames (fun word hword => (List.mem_append.mp hword).elim (hrow word) (hsingle word)) hroom
        rwa [joined_concat (List.cons_ne_nil _ _)] at hnext

/-- The bytes of a line that can be read. -/
def inked (line : Bytes) : ℕ := line.countP (· ≠ blank)

lemma inked_append (a b : Bytes) : inked (a ++ b) = inked a + inked b := List.countP_append

lemma inked_gap : aliasGap.countP (· ≠ blank) = 0 := by decide

lemma overflowing_front {row : List Bytes} (hfits : (joined aliasGap row).length ≤ sessionLineMax - 1) (word : Bytes) :
    (joined aliasGap row ++ (aliasGap ++ word)).take (sessionLineMax - 1) =
      joined aliasGap row ++ (aliasGap ++ word).take (sessionLineMax - 1 - (joined aliasGap row).length) := by
  rw [List.take_append, List.take_of_length_le hfits]

/-- What the overflowing lines show is at least what their rows do. -/
lemma inked_overflowing {rows : List (List Bytes)}
    (hfits : ∀ row ∈ rows, (joined aliasGap row).length ≤ sessionLineMax - 1) :
    (rows.map fun row => inked (joined aliasGap row)).sum ≤ ((overflowing rows).map inked).sum := by
  fun_induction overflowing rows with
  | case1 => exact le_rfl
  | case2 row => exact le_rfl
  | case3 row next rows ih =>
    obtain ⟨hrow, hrows⟩ := List.forall_mem_cons.mp hfits
    have hmore := ih hrows
    rw [overflowing_front hrow]
    simp only [List.map_cons, List.sum_cons, inked_append] at hmore ⊢
    omega

/-- A line that goes on shows part of the next alias. -/
lemma inked_overflowing_lt {rows : List (List Bytes)}
    (hfits : ∀ row ∈ rows, (joined aliasGap row).length ≤ sessionLineMax - 1)
    (hheads : ∀ row ∈ rows, ∃ first rest words, row = (first :: rest) :: words ∧ first ≠ blank)
    {row : List Bytes} (hrow : row ∈ rows.dropLast)
    (hshort : (joined aliasGap row).length < sessionLineMax - 1 - aliasGap.length) :
    (rows.map fun row => inked (joined aliasGap row)).sum < ((overflowing rows).map inked).sum := by
  fun_induction overflowing rows with
  | case1 => cases hrow
  | case2 row => cases hrow
  | case3 other next rows ih =>
    obtain ⟨hother, hrows⟩ := List.forall_mem_cons.mp hfits
    have hheads' := (List.forall_mem_cons.mp hheads).2
    have hmore := inked_overflowing hrows
    rw [overflowing_front hother]
    rw [List.dropLast_cons_of_ne_nil (List.cons_ne_nil next rows)] at hrow
    rcases List.mem_cons.mp hrow with rfl | hrow
    · obtain ⟨first, rest, words, rfl, hfirst⟩ := hheads' next List.mem_cons_self
      have hshown :
          0 < inked ((aliasGap ++ first :: rest).take (sessionLineMax - 1 - (joined aliasGap row).length)) := by
        obtain ⟨k, hk⟩ : ∃ k, sessionLineMax - 1 - (joined aliasGap row).length = k + 4 :=
          ⟨sessionLineMax - 1 - (joined aliasGap row).length - 4, by
            have : aliasGap.length = 3 := rfl
            omega⟩
        rw [hk, inked, List.countP_pos_iff]
        exact ⟨first, by simp [aliasGap], by simpa using hfirst⟩
      simp only [List.map_cons, List.sum_cons, inked_append, List.headD_cons] at hmore ⊢
      omega
    · have hmore := ih hrows hheads' hrow
      simp only [List.map_cons, List.sum_cons, inked_append] at hmore ⊢
      omega

lemma overflowing_filled {rows : List (List Bytes)}
    (hfits : ∀ row ∈ rows, (joined aliasGap row).length ≤ sessionLineMax - 1)
    (hfilled : ∀ row ∈ rows.dropLast, sessionLineMax - 1 - aliasGap.length ≤ (joined aliasGap row).length) :
    List.Forall₂ (fun line row => ∃ n,
      line = joined aliasGap row ++ List.replicate n blank) (overflowing rows) rows := by
  fun_induction overflowing rows with
  | case1 => exact .nil
  | case2 row => exact .cons ⟨0, (List.append_nil _).symm⟩ .nil
  | case3 row next rows ih =>
    obtain ⟨hrow, hrows⟩ := List.forall_mem_cons.mp hfits
    rw [List.dropLast_cons_of_ne_nil (List.cons_ne_nil next rows)] at hfilled
    obtain ⟨hlong, hfilled⟩ := List.forall_mem_cons.mp hfilled
    refine .cons ⟨sessionLineMax - 1 - (joined aliasGap row).length, ?_⟩ (ih hrows hfilled)
    have hgap : aliasGap = List.replicate 3 blank := rfl
    rw [overflowing_front hrow, List.take_append_of_le_length (by omega), hgap, List.take_replicate]
    congr 2
    rw [hgap, List.length_replicate] at hlong
    omega

end Entry

section Entries

variable {aliases : List AliasEntry}

lemma rows_cut (entry : AliasEntry) : Cut entry.rows entry.items := fillRows_cut [] entry.items

lemma mem_items {entry : AliasEntry} (h : EntrySized entry) :
    ∀ item ∈ entry.items, item.length < sessionLineMax ∧ ∃ first rest, item = first :: rest ∧ first ≠ blank := by
  intro item hmem
  obtain ⟨name, hname, rfl⟩ := List.mem_map.mp hmem
  obtain ⟨hsized, hword⟩ := h.names name hname
  refine ⟨aliasItem_length h.canonical hsized, ?_⟩
  obtain ⟨first, rest, rfl⟩ := List.exists_cons_of_ne_nil hsized.1
  exact ⟨first, _, rfl, fun heq => hword (heq ▸ List.mem_cons_self)⟩

lemma rows_fit {entry : AliasEntry} (h : EntrySized entry) :
    ∀ row ∈ entry.rows, (joined aliasGap row).length ≤ sessionLineMax - 1 :=
  fillRows_fits (Nat.zero_le _) fun item hmem => Nat.le_sub_one_of_lt (mem_items h item hmem).1

lemma rows_heads {entry : AliasEntry} (h : EntrySized entry) :
    ∀ row ∈ entry.rows, ∃ first rest words, row = (first :: rest) :: words ∧ first ≠ blank := by
  intro row hrow
  obtain ⟨item, words, rfl⟩ := List.exists_cons_of_ne_nil ((rows_cut entry).nonempty row hrow)
  have hmem : item ∈ entry.items := by
    rw [← (rows_cut entry).flatten]
    exact List.mem_flatten.mpr ⟨_, hrow, List.mem_cons_self⟩
  obtain ⟨-, first, rest, rfl, hfirst⟩ := mem_items h item hmem
  exact ⟨first, rest, words, rfl, hfirst⟩

/-- As long as there are lines for all rows, each entry gets its own. -/
lemma aliasEntries_eq (hsized : ∀ entry ∈ aliases, EntrySized entry) {lines : List Bytes}
    (hroom : lines.length + (aliases.flatMap AliasEntry.rows).length ≤ commandsAliasLines) :
    aliasEntries aliases lines = some (lines ++ aliases.flatMap fun entry => overflowing entry.rows) := by
  induction aliases generalizing lines with
  | nil => rw [aliasEntries, List.flatMap_nil, List.append_nil]
  | cons entry aliases ih =>
    obtain ⟨hentry, hsized⟩ := List.forall_mem_cons.mp hsized
    rw [aliasEntries]
    by_cases hfull : commandsAliasLines ≤ lines.length
    · have hnone : ((entry :: aliases).flatMap fun entry => overflowing entry.rows) = [] := by
        apply List.eq_nil_of_length_eq_zero
        rw [List.length_flatMap] at hroom ⊢
        simp only [length_overflowing]
        omega
      rw [if_pos hfull, hnone, List.append_nil]
    · rw [List.flatMap_cons, List.length_append] at hroom
      have hloop := @aliasLoop_eq entry.canonical entry.aliases hentry.canonical hentry.names [] (by simp) lines
        (le_trans (Nat.add_le_add_left (Nat.le_add_right _ _) _) hroom)
      rw [joined_nil] at hloop
      obtain ⟨line, lines', hloop, hlines⟩ := hloop
      rw [if_neg hfull, hloop, Option.bind_some, hlines, ih hsized, List.flatMap_cons, List.append_assoc]
      · rfl
      · rw [List.length_append, length_overflowing, Nat.add_assoc]
        exact hroom

lemma buildAliasLines_eq (hsized : ∀ entry ∈ aliases, EntrySized entry) (hfits : FitsCapacity aliases) :
    buildAliasLines aliases = some (aliases.flatMap fun entry => overflowing entry.rows) := by
  rw [buildAliasLines, aliasEntries_eq hsized (by rwa [List.length_nil, Nat.zero_add]), List.nil_append]

lemma flatten_rows (aliases : List AliasEntry) :
    (aliases.flatMap AliasEntry.rows).flatten = aliases.flatMap AliasEntry.items := by
  induction aliases with
  | nil => rfl
  | cons entry aliases ih =>
    rw [List.flatMap_cons, List.flatten_append, ih, (rows_cut entry).flatten, List.flatMap_cons]

lemma sum_flatMap {α β : Type} (f : α → List β) (g : β → ℕ) (l : List α) :
    ((l.flatMap f).map g).sum = (l.map fun x => ((f x).map g).sum).sum := by
  rw [List.map_flatMap, List.flatMap_def, List.sum_flatten, List.map_map]
  rfl

/-- Lines of whole aliases show as many bytes as the aliases do. -/
lemma inked_whole {lines : List Bytes} (h : AliasesWhole aliases lines) :
    (lines.map inked).sum = ((aliases.flatMap AliasEntry.rows).map fun row => inked (joined aliasGap row)).sum := by
  obtain ⟨rows, hrows, hlines⟩ := h
  have hsame : (lines.map inked).sum = (rows.map fun row => inked (joined aliasGap row)).sum := by
    clear hrows
    induction hlines with
    | nil => rfl
    | cons hline _ ih =>
      obtain ⟨n, rfl⟩ := hline
      have hblank : inked (List.replicate n blank) = 0 := by simp [inked]
      rw [List.map_cons, List.sum_cons, ih, inked_append, hblank, Nat.add_zero, List.map_cons, List.sum_cons]
  have hitems := countP_cut (fun b : UInt8 => b ≠ blank) inked_gap rows
  have hitems' := countP_cut (fun b : UInt8 => b ≠ blank) inked_gap (aliases.flatMap AliasEntry.rows)
  rw [hrows] at hitems
  rw [flatten_rows, ← hitems] at hitems'
  exact hsame.trans hitems'.symm

lemma aliasesWhole_iff (hsized : ∀ entry ∈ aliases, EntrySized entry) :
    AliasesWhole aliases (aliases.flatMap fun entry => overflowing entry.rows) ↔ ∀ entry ∈ aliases, FilledUp entry := by
  constructor
  · intro hwhole entry hentry row hrow
    by_contra hshort
    have hink := inked_whole hwhole
    rw [sum_flatMap, sum_flatMap] at hink
    refine ne_of_gt (List.sum_lt_sum _ _ (fun other hother => inked_overflowing (rows_fit (hsized other hother)))
      ⟨entry, hentry, ?_⟩) hink
    exact inked_overflowing_lt (rows_fit (hsized entry hentry)) (rows_heads (hsized entry hentry)) hrow
      (not_le.mp hshort)
  · intro hfilled
    refine ⟨aliases.flatMap AliasEntry.rows, flatten_rows aliases, ?_⟩
    induction aliases with
    | nil => exact .nil
    | cons entry aliases ih =>
      obtain ⟨hentry, hsized⟩ := List.forall_mem_cons.mp hsized
      obtain ⟨hfull, hfilled⟩ := List.forall_mem_cons.mp hfilled
      rw [List.flatMap_cons, List.flatMap_cons]
      exact List.rel_append (overflowing_filled (rows_fit hentry) hfull) (ih hsized hfilled)

end Entries

variable (reg : MenuRegistry) (area : MenuArea) (level : Level) (aliases : List AliasEntry)

/-- The menu of an area and the list of aliases, where nothing is cut. -/
theorem listing_whole_iff (hlabel : area.label.length ≤ 10)
    (hcount : (area.verbs ++ area.subareas.flatten).length ≤ verbsPerGroup)
    (hverbs : ∀ verb ∈ area.verbs ++ area.subareas.flatten, verb.length < cmdVerbMax)
    (hsized : ∀ entry ∈ aliases, EntrySized entry) (hfits : FitsCapacity aliases) :
    (MenuWhole area.label (reg.usableVerbs area level) (reg.areaLines area level) ↔
      NoFullRow (reg.usableVerbs area level)) ∧
    ((∃ lines ∈ buildAliasLines aliases, AliasesWhole aliases lines) ↔ ∀ entry ∈ aliases, FilledUp entry) := by
  refine ⟨MenuRegistry.areaLines_whole_iff hcount hverbs hlabel, ?_⟩
  rw [buildAliasLines_eq hsized hfits, ← aliasesWhole_iff hsized]
  simp

/-- A registry whose commands anyone may use. -/
def openMenu (verbs : List String) : MenuRegistry where
  commands := verbs.map fun verb => ⟨⟨ofString verb, .guest, none, none⟩, [], []⟩
  rights := { Registry.empty with loaded := true }
  areas := .empty
  aliasLines := []

def messageArea (verbs : List String) : MenuArea := ⟨ofString "Messages", verbs.map ofString, []⟩

def messageAliases (names : List String) : List AliasEntry := [⟨ofString "messages", names.map ofString⟩]

def messageVerbs : List String := ["showallmessages", "readallmessages", "sendallmessages", "listallmessages"]

lemma messageAliases_sized {names : List String}
    (h : ∀ name ∈ names.map ofString, VerbSized name ∧ blank ∉ name) :
    ∀ entry ∈ messageAliases names, EntrySized entry := by
  intro entry hentry
  rw [List.mem_singleton.mp hentry]
  exact ⟨show (ofString "messages").length < cmdVerbMax by decide, h⟩

theorem listing_whole_messages :
    MenuWhole (ofString "Messages") [ofString "list", ofString "read"]
        ((openMenu ["list", "read"]).areaLines (messageArea ["list", "read"]) (some .user)) ∧
      ∃ lines ∈ buildAliasLines (messageAliases ["m", "mail"]), AliasesWhole (messageAliases ["m", "mail"]) lines := by
  have hsized : ∀ name ∈ ["m", "mail"].map ofString, VerbSized name ∧ blank ∉ name := by
    simp only [VerbSized]
    decide
  have h := listing_whole_iff (openMenu ["list", "read"]) (messageArea ["list", "read"]) (some .user)
    (messageAliases ["m", "mail"]) (by decide) (by decide) (by decide) (messageAliases_sized hsized)
    (by rw [FitsCapacity]; decide)
  exact ⟨h.1.mpr (by rw [NoFullRow]; decide), h.2.mpr (by simp only [FilledUp]; decide)⟩

/-- Four verbs take the whole field, and the last one loses its last letter; an alias that goes to another line is left
on the one before as well, without what it stands for. -/
theorem listing_cuts_messages :
    ((openMenu messageVerbs).areaLines (messageArea messageVerbs) (some .user) =
        [ofString "  Messages   /showallmessages /readallmessages /sendallmessages /listallmessage"] ∧
      ¬MenuWhole (ofString "Messages") (messageVerbs.map ofString)
        ((openMenu messageVerbs).areaLines (messageArea messageVerbs) (some .user))) ∧
    buildAliasLines (messageAliases ["list", "read", "mail", "post", "all"]) =
        some [ofString "list -> messages   read -> messages   mail -> messages   post -> messages   all",
          ofString "all -> messages"] ∧
      ¬∃ lines ∈ buildAliasLines (messageAliases ["list", "read", "mail", "post", "all"]),
        AliasesWhole (messageAliases ["list", "read", "mail", "post", "all"]) lines := by
  have husable : (openMenu messageVerbs).usableVerbs (messageArea messageVerbs) (some .user) =
      messageVerbs.map ofString := by
    decide
  have hsized : ∀ name ∈ ["list", "read", "mail", "post", "all"].map ofString, VerbSized name ∧ blank ∉ name := by
    simp only [VerbSized]
    decide
  refine ⟨⟨by decide, ?_⟩, by decide, ?_⟩
  · rw [← husable, show ofString "Messages" = (messageArea messageVerbs).label from rfl,
      MenuRegistry.areaLines_whole_iff (by decide) (by decide) (by decide), NoFullRow]
    decide
  · rw [buildAliasLines_eq (messageAliases_sized hsized) (by rw [FitsCapacity]; decide)]
    rintro ⟨lines, hlines, hwhole⟩
    rw [← Option.mem_some_iff.mp hlines, aliasesWhole_iff (messageAliases_sized hsized)] at hwhole
    simp only [FilledUp] at hwhole
    revert hwhole
    decide

end HyBBX.Command
