import HyBBX.Mail.Bound

/-! What reading a message does to its file, over any number of reads. -/

namespace HyBBX.Mail

open HyBBX.Core Lib Lib.Bytes Lib.Text Lib.Numeral Lib.LineReader Config

def readYes : Bytes := ofString "read=yes\n"

def storedBody (body : Bytes) : Bytes := body ++ if body.getLast? = some nl then [] else [nl]

/-- The message as it was delivered, but for the read line of the header. -/
def storedText (id : ℕ) (letter : Letter) (toUser : Bytes) (now : ℕ) (seen : Bool) : Bytes :=
  header id letter.fromUser toUser letter.subject now (ofString (if seen then "yes" else "no")) ++
    storedBody letter.body

/-- No piece of the body that `fgets` returns looks like a read line, unless it is the one that is written anyway. -/
def ReadFree (body : Bytes) : Prop :=
  ∀ piece ∈ fgets lineMax (storedBody body), readKey.isPrefixOf piece = true → piece = readYes

instance (body : Bytes) : Decidable (ReadFree body) := by
  unfold ReadFree
  infer_instance

/-- A call of `hybbx_mail_read`. -/
structure ReadCall where
  username : Bytes
  listIndex : ℕ
  order : DirOrder

def fileText (dir : Dir) (name : Bytes) : Option Bytes := (dir.find? fun file => file.name = name).map MsgFile.text

section Calls

variable (cfg : MailConfig)

/-- The inbox and the name of the file that a call opens. -/
def opened (st : MailState) (call : ReadCall) : Option (Bytes × Bytes) :=
  match mailUserInboxPath call.username with
  | .error _ => none
  | .ok inbox =>
    if cfg.enabled = false ∨ call.listIndex = 0 then none
    else (loadInbox (call.order.list (st.inbox inbox)) mailMaxMessages)[call.listIndex - 1]?.map fun entry =>
      (inbox, msgFileName entry.id)

def readStep (st : MailState) (call : ReadCall) : MailState :=
  match mailRead cfg st call.username call.listIndex call.order with
  | .ok st' => st'
  | .error _ => st

def readRun (st : MailState) (calls : List ReadCall) : MailState := calls.foldl (readStep cfg) st

/-- Whether a call of the run opened the message. -/
def seenIn (inbox name : Bytes) : MailState → List ReadCall → Bool
  | _, [] => false
  | st, call :: calls => opened cfg st call = some (inbox, name) || seenIn inbox name (readStep cfg st call) calls

end Calls

section Pieces

variable {piece rest rest' : Bytes}

lemma readYes_eq : readYes = ofString "read=yes" ++ [nl] := by decide

/-- What precedes the first newline of a text. -/
lemma takeWhile_nl {l : Bytes} (hl : nl ∉ l) (rest : Bytes) : (l ++ nl :: rest).takeWhile (· ≠ nl) = l := by
  rw [List.takeWhile_append_of_pos, List.takeWhile_cons_of_neg (by simp), List.append_nil]
  intro b hb
  exact decide_eq_true fun he => hl (he ▸ hb)

/-- A piece in whose place `read=yes` stands in the same text is that very line. -/
lemma eq_readYes (hshape : ∃ l, nl ∉ l ∧ (piece = l ∨ piece = l ++ [nl]))
    (hend : nl ∈ piece ∨ lineMax - 1 ≤ piece.length ∨ rest = []) (h : readYes ++ rest' = piece ++ rest) :
    piece = readYes := by
  have hfirst : (readYes ++ rest').takeWhile (· ≠ nl) = ofString "read=yes" := by
    rw [readYes_eq, List.append_assoc, List.singleton_append, takeWhile_nl (by decide)]
  obtain ⟨l, hl, hpiece | rfl⟩ := hshape
  · exfalso
    rw [← hpiece] at hl
    have hall : piece.takeWhile (· ≠ nl) = piece := by
      rw [List.takeWhile_eq_self_iff]
      exact fun b hb => decide_eq_true fun he => hl (he ▸ hb)
    have hlen : piece.length ≤ 8 := by
      rw [h, List.takeWhile_append, hall, if_pos rfl] at hfirst
      have := congrArg List.length hfirst
      rw [List.length_append] at this
      have h8 : (ofString "read=yes").length = 8 := by decide
      omega
    rcases hend with hn | hfull | rfl
    · exact hl hn
    · rw [lineMax] at hfull
      omega
    · rw [List.append_nil] at h
      exact hl (h ▸ List.mem_append_left _ (by decide))
  · rw [h, List.append_assoc, List.singleton_append, takeWhile_nl hl] at hfirst
    rw [hfirst, readYes_eq]

/-- Rewriting leaves a text as it is exactly if it leaves each piece. -/
lemma markRead_eq_iff {text : Bytes} (h0 : 0 ∉ text) : markRead text = text ↔
    ∀ piece ∈ fgets lineMax text, readKey.isPrefixOf piece = true → piece = readYes := by
  rw [markRead]
  induction hps : fgets lineMax text generalizing text with
  | nil =>
    have : text = [] := by
      rw [← flatten_fgetsFrom lineMax (lineMax - 1) text]
      exact congrArg List.flatten hps
    simp [this]
  | cons piece ps ih =>
    obtain ⟨rest, rfl, hrest, hend⟩ := fgetsFrom_cons hps
    have hmem : piece ∈ fgets lineMax (piece ++ rest) := by
      rw [hps]
      exact List.mem_cons_self
    have hshape := fgetsFrom_newline lineMax (lineMax - 1) (piece ++ rest) hmem
    have hih := ih (fun hm => h0 (List.mem_append_right _ hm)) hrest.symm
    rw [List.map_cons, List.flatten_cons, List.forall_mem_cons, ← hih]
    by_cases hkey : readKey.isPrefixOf piece = true
    · rw [markPiece, if_pos hkey]
      constructor
      · intro h
        have hpiece := eq_readYes hshape hend h
        refine ⟨fun _ => hpiece, ?_⟩
        rw [hpiece] at h
        exact List.append_cancel_left h
      · rintro ⟨hpiece, htail⟩
        rw [htail, hpiece hkey]
        rfl
    · rw [markPiece, if_neg hkey, cstr_of_notMem fun hm => h0 (List.mem_append_left _ hm), List.append_cancel_left_eq]
      exact ⟨fun h => ⟨fun hk => absurd hk hkey, h⟩, And.right⟩

end Pieces

section Files

variable {dir : Dir} {name : Bytes}

lemma fileText_rewrite (dir : Dir) (target name : Bytes) (f : Bytes → Bytes) :
    fileText (dir.rewrite target f) name = if target = name then (fileText dir name).map f else fileText dir name := by
  rw [fileText, Dir.rewrite, List.find?_map]
  have hsame : ((fun file : MsgFile => decide (file.name = name)) ∘
      fun file => if file.name = target then { file with text := f file.text } else file) =
      fun file => decide (file.name = name) := by
    funext file
    rw [Function.comp_apply]
    split_ifs <;> rfl
  rw [hsame, fileText]
  cases hfind : dir.find? (fun file => decide (file.name = name)) with
  | none => simp
  | some file =>
    have hname : file.name = name := by simpa using List.find?_some hfind
    simp only [Option.map_some, hname]
    by_cases ht : name = target
    · rw [if_pos ht, if_pos ht.symm]
    · rw [if_neg ht, if_neg (Ne.symm ht)]

lemma fileText_of_mem {file : MsgFile} (h : file ∈ dir) (hall : ∀ other ∈ dir, other.name = file.name → other = file) :
    fileText dir file.name = some file.text := by
  rw [fileText]
  cases hfind : dir.find? (fun other => decide (other.name = file.name)) with
  | none =>
    have := List.find?_eq_none.mp hfind file h
    simp at this
  | some other =>
    rw [hall other (List.mem_of_find?_eq_some hfind) (by simpa using List.find?_some hfind), Option.map_some]

lemma fileText_fresh {file : MsgFile} (maxMessages : ℕ) (order : DirOrder)
    (h : file ∈ mailTrimInbox maxMessages order (dir.write file)) :
    fileText (mailTrimInbox maxMessages order (dir.write file)) file.name = some file.text := by
  apply fileText_of_mem h
  intro other hother hname
  have hmem := (mailTrimInbox_sublist maxMessages order _).subset hother
  rcases List.mem_append.mp hmem with hrem | hone
  · have := (List.mem_filter.mp hrem).2
    simp [hname] at this
  · exact List.mem_singleton.mp hone

end Files

section Run

variable (cfg : MailConfig) (inbox name : Bytes)

lemma readStep_eq (st : MailState) (call : ReadCall) : readStep cfg st call =
    match opened cfg st call with
    | none => st
    | some (dir, target) =>
      { st with inbox := Function.update st.inbox dir ((st.inbox dir).rewrite target markRead) } := by
  rw [readStep, mailRead, opened]
  by_cases hen : cfg.enabled = false
  · rw [if_pos hen]
    cases mailUserInboxPath call.username with
    | error rc => rfl
    | ok dir => simp only [if_pos (Or.inl hen)]
  · rw [if_neg hen]
    cases mailUserInboxPath call.username with
    | error rc => rfl
    | ok dir =>
      simp only [Except.map]
      by_cases hidx : call.listIndex = 0
      · rw [if_pos hidx, if_pos (Or.inr hidx)]
      · rw [if_neg hidx, if_neg (not_or.mpr ⟨hen, hidx⟩)]
        cases (loadInbox (call.order.list (st.inbox dir)) mailMaxMessages)[call.listIndex - 1]? <;> rfl

lemma readStep_text (st : MailState) (call : ReadCall) : fileText ((readStep cfg st call).inbox inbox) name =
    if opened cfg st call = some (inbox, name) then (fileText (st.inbox inbox) name).map markRead
    else fileText (st.inbox inbox) name := by
  rw [readStep_eq]
  cases opened cfg st call with
  | none => simp
  | some place =>
    obtain ⟨dir, target⟩ := place
    simp only [Option.some.injEq, Prod.mk.injEq]
    by_cases hdir : dir = inbox
    · rw [hdir, Function.update_self, fileText_rewrite]
      simp
    · rw [Function.update_of_ne (Ne.symm hdir), if_neg fun h => hdir h.1]

end Run

section Delivered

variable {id now : ℕ} {letter : Letter} {toUser : Bytes} (hid : id ≤ ulongMax) (hnow : now ≤ longMax)
  (hto : toUser.length < userNameMax ∧ nl ∉ toUser ∧ 0 ∉ toUser) (hsub : letter.subject.length ≤ mailSubjectMax)

lemma storedBody_string (letter : Letter) : 0 ∉ storedBody letter.body := by
  rw [storedBody, List.mem_append, not_or]
  refine ⟨letter.body_string, ?_⟩
  split_ifs <;> decide

include hid hnow hto hsub in
lemma markRead_storedText (seen : Bool) : markRead (storedText id letter toUser now seen) =
    header id letter.fromUser toUser letter.subject now (ofString "yes") ++ markRead (storedBody letter.body) := by
  rw [storedText]
  apply markRead_header hid hnow ⟨letter.from_fits, letter.from_line⟩ hto ⟨letter.subject_line, hsub⟩
  cases seen
  · exact .inl rfl
  · exact .inr rfl

include hid hnow hto hsub in
lemma markRead_storedText_iff (seen : Bool) :
    markRead (storedText id letter toUser now seen) = storedText id letter toUser now true ↔ ReadFree letter.body := by
  rw [markRead_storedText hid hnow hto hsub, storedText, ReadFree, ← markRead_eq_iff (storedBody_string letter)]
  exact List.append_right_inj _

variable (cfg : MailConfig) (inbox name : Bytes)

include hid hnow hto hsub in
/-- The text over a run of reads: the read line follows the calls, the rest stays. -/
lemma readRun_text (hfree : ReadFree letter.body) (calls : List ReadCall) {st : MailState} {seen : Bool}
    (hst : fileText (st.inbox inbox) name = some (storedText id letter toUser now seen)) :
    fileText ((readRun cfg st calls).inbox inbox) name =
      some (storedText id letter toUser now (seen || seenIn cfg inbox name st calls)) := by
  induction calls generalizing st seen with
  | nil => rw [seenIn, Bool.or_false]; exact hst
  | cons call calls ih =>
    have hstep : fileText ((readStep cfg st call).inbox inbox) name =
        some (storedText id letter toUser now (seen || decide (opened cfg st call = some (inbox, name)))) := by
      rw [readStep_text, hst]
      by_cases ho : opened cfg st call = some (inbox, name)
      · rw [if_pos ho, Option.map_some, (markRead_storedText_iff hid hnow hto hsub seen).mpr hfree]
        simp [ho]
      · rw [if_neg ho]
        simp [ho]
    have := ih hstep
    rwa [Bool.or_assoc] at this

end Delivered

/-- A directory listing that starts with the files of one name. -/
def listedFirst (name : Bytes) : DirOrder where
  list dir := dir.filter (fun file => file.name = name) ++ dir.filter fun file => !decide (file.name = name)
  perm dir := List.filter_append_perm _ dir

/-- Some call opens a message that is in the inbox. -/
lemma exists_opened {cfg : MailConfig} (hen : ¬cfg.enabled = false) {st : MailState} {username inbox text : Bytes}
    (hpath : mailUserInboxPath username = .ok inbox) {id : ℕ} (hid : id ≤ ulongMax)
    (hfile : fileText (st.inbox inbox) (msgFileName id) = some text) :
    ∃ call, opened cfg st call = some (inbox, msgFileName id) := by
  obtain ⟨file, hfind, -⟩ := Option.map_eq_some_iff.mp hfile
  have hmem := List.mem_of_find?_eq_some hfind
  have hname : file.name = msgFileName id := by simpa using List.find?_some hfind
  have hfirst : file ∈ (st.inbox inbox).filter fun file => file.name = msgFileName id :=
    List.mem_filter.mpr ⟨hmem, by simpa using hname⟩
  have hloaded : ∃ entry ∈ loadInbox ((listedFirst (msgFileName id)).list (st.inbox inbox)) mailMaxMessages,
      entry.id = id := by
    cases hall : (st.inbox inbox).filter fun file => file.name = msgFileName id with
    | nil => rw [hall] at hfirst; cases hfirst
    | cons head rest =>
      have hhead : head.name = msgFileName id := by
        have := (List.mem_filter.mp (hall ▸ List.mem_cons_self)).2
        simpa using this
      refine ⟨readHeader ⟨id, [], [], 0, false⟩ ((fgets lineMax head.text).map cstr), ?_, readHeader_id _ _⟩
      have hlist : (listedFirst (msgFileName id)).list (st.inbox inbox) = head :: (rest ++
          (st.inbox inbox).filter fun file => !decide (file.name = msgFileName id)) := by
        rw [← List.cons_append, ← hall]
        rfl
      rw [loadInbox, (List.perm_insertionSort _ _).mem_iff, hlist, List.filterMap_cons, loadEntry, hhead,
        parseMsgFilename_msgFileName hid]
      exact List.mem_cons_self
  obtain ⟨entry, hin, heq⟩ := hloaded
  obtain ⟨k, hk, hget⟩ := List.getElem_of_mem hin
  refine ⟨⟨username, k + 1, listedFirst (msgFileName id)⟩, ?_⟩
  rw [opened, hpath]
  dsimp only
  rw [if_neg (not_or.mpr ⟨hen, Nat.succ_ne_zero k⟩), Nat.add_sub_cancel, List.getElem?_eq_getElem hk, hget,
    Option.map_some, heq]

/-- What an accepted delivery has checked, and what it has left in the inbox. -/
lemma deliver_spec {config : HybbxConfig} {resolveUser : Bytes → Except HybbxResult UserRecord} {st st' : MailState}
    {letter : Letter} {toUser inbox : Bytes} {now : Moment} {order : DirOrder} {recipient : UserRecord}
    (hr : mailRecipient (mailConfigApply config) resolveUser letter toUser = .ok (recipient, inbox))
    (hd : mailDeliver (mailConfigApply config) resolveUser st letter toUser now order = .ok st')
    (hkept : freshFile st letter recipient now ∈ st'.inbox inbox) :
    letter.subject.length ≤ mailSubjectMax ∧ ¬(mailConfigApply config).enabled = false ∧
      mailUserInboxPath recipient.username = .ok inbox ∧
      fileText (st'.inbox inbox) (msgFileName (mailNextId st)) =
        some (storedText (mailNextId st) letter recipient.username now.secs false) := by
  have hsub : (mailConfigApply config).subjectMax ≤ mailSubjectMax := (configGetUint_mem (by decide) (le_refl _)).2
  rw [mailDeliver, hr] at hd
  simp only [Except.map, Except.ok.injEq] at hd
  have hinbox : st'.inbox inbox = mailTrimInbox (mailConfigApply config).maxMessages order
      ((st.inbox inbox).write (freshFile st letter recipient now)) := by
    rw [← hd]
    exact Function.update_self _ _ _
  rw [mailRecipient] at hr
  split_ifs at hr with hen hlen
  rw [not_or] at hlen
  cases hres : resolveUser toUser with
  | error rc =>
    rw [hres] at hr
    cases hr
  | ok u =>
    rw [hres] at hr
    dsimp only at hr
    split_ifs at hr
    cases hpath : mailUserInboxPath u.username with
    | error rc =>
      rw [hpath] at hr
      cases hr
    | ok dir =>
      rw [hpath] at hr
      obtain ⟨rfl, rfl⟩ := Prod.mk.inj (Except.ok.inj hr)
      rw [hinbox] at hkept ⊢
      exact ⟨by omega, hen, hpath, fileText_fresh _ _ hkept⟩

/-- Whatever calls follow, the message is there as it was delivered, with its read line as the calls left it. -/
def KeepsMessage (cfg : MailConfig) (st : MailState) (inbox : Bytes) (id : ℕ) (letter : Letter) (toUser : Bytes)
    (now : ℕ) : Prop :=
  ∀ calls, fileText ((readRun cfg st calls).inbox inbox) (msgFileName id) =
    some (storedText id letter toUser now (seenIn cfg inbox (msgFileName id) st calls))

/-- A delivered message stays as it is under any number of reads exactly if no line of its body looks like a read
line. -/
theorem reads_keep_message_iff (config : HybbxConfig) (resolveUser : Bytes → Except HybbxResult UserRecord)
    (st : MailState) (letter : Letter) (toUser : Bytes) (now : Moment) (order : DirOrder) {st' : MailState}
    {recipient : UserRecord} {inbox : Bytes}
    (hr : mailRecipient (mailConfigApply config) resolveUser letter toUser = .ok (recipient, inbox))
    (hd : mailDeliver (mailConfigApply config) resolveUser st letter toUser now order = .ok st')
    (hkept : freshFile st letter recipient now ∈ st'.inbox inbox) :
    KeepsMessage (mailConfigApply config) st' inbox (mailNextId st) letter recipient.username now.secs ↔
      ReadFree letter.body := by
  obtain ⟨hsub, hen, hpath, hfile⟩ := deliver_spec hr hd hkept
  constructor
  · intro h
    obtain ⟨call, ho⟩ := exists_opened hen hpath (mailNextId_le st) hfile
    have hone := h [call]
    rw [readRun, List.foldl_cons, List.foldl_nil, readStep_text, if_pos ho, hfile, Option.map_some, seenIn,
      decide_eq_true ho, Bool.true_or, Option.some.injEq] at hone
    exact (markRead_storedText_iff (mailNextId_le st) now.fits recipient.fits hsub false).mp hone
  · intro hfree calls
    have := readRun_text (mailNextId_le st) now.fits recipient.fits hsub (mailConfigApply config) inbox _ hfree calls hfile
    rwa [Bool.false_or] at this

/-- A letter whose second line looks like a read line, and is not one. -/
def quoting : Letter :=
  ⟨ofString "bob", ofString "hi", ofString "73\nread=the manual\n", bob_fits, bob_line, hi_line, by decide⟩

def readFirst : ReadCall := ⟨ofString "ann", 1, .asFound⟩

/-- The inbox of ann after a letter from bob. -/
def lettered (letter : Letter) : MailState :=
  ⟨1, Function.update MailState.start.inbox (ofString "ann") [⟨msgFileName 1, msgText 1 letter (ofString "ann") 0⟩]⟩

lemma deliver_lettered (letter : Letter)
    (h : letter.subject.length ≤ mailSubjectMax ∧ letter.body.length ≤ mailBodyMax) :
    mailRecipient (mailConfigApply []) everyUser letter (ofString "ann") = .ok (ann, ofString "ann") ∧
      mailDeliver (mailConfigApply []) everyUser .start letter (ofString "ann") ⟨0, Nat.zero_le _⟩ .asFound =
        .ok (lettered letter) := by
  have hcfg : mailConfigApply [] = ⟨true, mailMaxMessages, mailSubjectMax, mailBodyMax⟩ := by decide
  have hr : mailRecipient (mailConfigApply []) everyUser letter (ofString "ann") = .ok (ann, ofString "ann") := by
    rw [hcfg, mailRecipient, if_neg (by decide), if_neg (not_or.mpr ⟨not_lt.mpr h.1, not_lt.mpr h.2⟩)]
    rfl
  refine ⟨hr, ?_⟩
  rw [mailDeliver, hr, hcfg]
  simp only [Except.map]
  rw [mailTrimInbox_default]
  rfl

theorem reads_keep_greeting :
    KeepsMessage (mailConfigApply []) (lettered greeting) (ofString "ann") 1 greeting (ofString "ann") 0 := by
  obtain ⟨hr, hd⟩ := deliver_lettered greeting (by decide)
  have hiff := reads_keep_message_iff [] everyUser .start greeting (ofString "ann") ⟨0, Nat.zero_le _⟩ .asFound
    hr hd (List.mem_singleton_self _)
  exact hiff.mpr (by decide)

/-- The reader's mark replaces the second line of the body. -/
theorem read_line_of_body_lost :
    mailDeliver (mailConfigApply []) everyUser .start quoting (ofString "ann") ⟨0, Nat.zero_le _⟩ .asFound =
      .ok (lettered quoting) ∧
    fileText ((readRun (mailConfigApply []) (lettered quoting) [readFirst]).inbox (ofString "ann")) (msgFileName 1) =
      some (header 1 (ofString "bob") (ofString "ann") (ofString "hi") 0 (ofString "yes") ++
        ofString "73\nread=yes\n") ∧
    ¬KeepsMessage (mailConfigApply []) (lettered quoting) (ofString "ann") 1 quoting (ofString "ann") 0 := by
  refine ⟨(deliver_lettered quoting (by decide)).2, by decide +kernel, fun h => ?_⟩
  exact absurd (h [readFirst]) (by decide +kernel)

end HyBBX.Mail
