import HyBBX.Mail.Recycle
import HyBBX.Mains.Containment

/-! The move to the recycle bin over every outcome of its file operations. -/

namespace HyBBX.Mail

open HyBBX.Core HyBBX.Mains Lib Lib.Bytes Lib.Text Lib.Numeral Lib.LineReader Lib.PieceLines FileTree

/-- A message as deliveries write it, seen or not. -/
structure StoredMessage where
  id : ℕ
  sent : ℕ
  fromUser : Bytes
  toUser : Bytes
  subject : Bytes
  body : Bytes
  seen : Bool
  id_fits : id ≤ ulongMax
  sent_fits : sent ≤ longMax
  from_fits : fromUser.length < userNameMax ∧ nl ∉ fromUser ∧ 0 ∉ fromUser
  to_fits : toUser.length < userNameMax ∧ nl ∉ toUser ∧ 0 ∉ toUser
  subject_fits : (nl ∉ subject ∧ 0 ∉ subject) ∧ subject.length ≤ mailSubjectMax
  body_string : 0 ∉ body

namespace StoredMessage

variable (m : StoredMessage)

def flag : Bytes := ofString (if m.seen then "yes" else "no")

def text : Bytes := header m.id m.fromUser m.toUser m.subject m.sent m.flag ++ m.body

/-- The pieces of the header, which a copy writes before the stamp. -/
def head : List Bytes :=
  headPieces m.id m.fromUser m.toUser m.subject ++
    [kv "time" (decimal m.sent) ++ [nl], kv "read" m.flag ++ [nl]]

def rest : List Bytes := (bodyMark ++ [nl]) :: fgets lineMax m.body

lemma flag_cases : m.flag = ofString "no" ∨ m.flag = ofString "yes" := by
  rw [flag]
  cases m.seen
  · exact .inl rfl
  · exact .inr rfl

lemma fgets_text : fgets lineMax m.text = m.head ++ m.rest := by
  rw [text, fgets_header m.id_fits m.sent_fits m.from_fits m.to_fits m.subject_fits m.flag_cases, head, rest, tailLines]
  simp

lemma text_eq : m.text = m.head.flatten ++ m.rest.flatten := by
  rw [← List.flatten_append, ← fgets_text, fgets, flatten_fgetsFrom]

lemma headPiece_kv (c : UInt8) (ks : Bytes) {key : String} {value : Bytes} (hk : ofString key = c :: ks)
    (hc : ((0x2D : UInt8) == c) = false ∧ ((0x64 : UInt8) == c) = false) (hkey : nl ∉ ofString key ∧ 0 ∉ ofString key)
    (hv : nl ∉ value ∧ 0 ∉ value) : HeadPiece (kv key value ++ [nl]) where
  shape := .inl ⟨_, notMem_kv (by decide) hkey.1 hv.1, rfl⟩
  unmarked := by
    rw [kv_append]
    exact isPrefixOf_kv hk hc.1 _
  undeleted := by
    rw [kv_append]
    exact isPrefixOf_kv hk hc.2 _
  string := by
    rw [kv_append]
    exact notMem_kv (by decide) hkey.2 (by simpa using ⟨hv.2, by decide⟩)

lemma headPiece_subject {p : Bytes} (hp : p ∈ subjectPieces m.subject) : HeadPiece p := by
  obtain ⟨h0, hform, hshape⟩ := subjectPieces_cases m.subject_fits.1 m.subject_fits.2 hp
  have hkeys : bodyMark.isPrefixOf p = false ∧ deletedKey.isPrefixOf p = false := by
    rcases hform with ⟨value, rfl⟩ | hshort
    · have hs : ofString "subject" = 0x73 :: ofString "ubject" := by decide
      exact ⟨isPrefixOf_kv hs (by decide) _, isPrefixOf_kv hs (by decide) _⟩
    · exact ⟨isPrefixOf_short (lt_of_le_of_lt hshort (by decide)), isPrefixOf_short (lt_of_le_of_lt hshort (by decide))⟩
  refine ⟨hshape.imp_right fun ⟨hn, hlen⟩ => ⟨⟨hn, ?_⟩, ?_⟩, hkeys.1, hkeys.2, h0⟩
  · rintro rfl
    rw [lineMax] at hlen
    exact absurd hlen (by decide)
  · rw [hlen]
    decide

lemma headPiece_head {p : Bytes} (hp : p ∈ m.head) : HeadPiece p := by
  have hdigits : ∀ n, nl ∉ decimal n ∧ 0 ∉ decimal n := fun n =>
    ⟨notMem_decimal (by decide) n, notMem_decimal (by decide) n⟩
  rcases List.mem_append.mp hp with hp | hp
  · rcases List.mem_append.mp hp with hp | hp
    · simp only [headLines, List.map_cons, List.map_nil, List.mem_cons, List.not_mem_nil, or_false] at hp
      rcases hp with rfl | rfl | rfl
      · exact headPiece_kv 0x69 (ofString "d") (by decide) (by decide) (by decide) (hdigits m.id)
      · exact headPiece_kv 0x66 (ofString "rom") (by decide) (by decide) (by decide) m.from_fits.2
      · exact headPiece_kv 0x74 (ofString "o") (by decide) (by decide) (by decide) m.to_fits.2
    · exact m.headPiece_subject hp
  · simp only [List.mem_cons, List.not_mem_nil, or_false] at hp
    rcases hp with rfl | rfl
    · exact headPiece_kv 0x74 (ofString "ime") (by decide) (by decide) (by decide) (hdigits m.sent)
    · apply headPiece_kv 0x72 (ofString "ead") (by decide) (by decide) (by decide)
      rcases m.flag_cases with h | h <;> rw [h] <;> decide

lemma head_last : ∃ H' r, m.head = H' ++ [r] ∧ 0x72 ∈ r ∧ r.length ≤ 9 ∧ Closed r := by
  refine ⟨headPieces m.id m.fromUser m.toUser m.subject ++ [kv "time" (decimal m.sent) ++ [nl]],
    kv "read" m.flag ++ [nl], ?_, ?_, ?_, ?_⟩
  · rw [head, List.append_assoc]
    rfl
  · rcases m.flag_cases with h | h <;> rw [h] <;> decide
  · rcases m.flag_cases with h | h <;> rw [h] <;> decide
  · refine ⟨kv "read" m.flag, ?_, rfl⟩
    rcases m.flag_cases with h | h <;> rw [h] <;> decide

lemma head_end : m.head.flatten.getLast? = some nl := by
  obtain ⟨H', r, he, -, -, l, -, rfl⟩ := m.head_last
  rw [he, List.flatten_append, List.flatten_singleton, ← List.append_assoc, List.getLast?_concat]

lemma rest_marked : (rawLines m.rest.flatten).takeWhile (fun l => !bodyMark.isPrefixOf l) = [] := by
  rw [rest, List.flatten_cons, rawLines_closed ⟨bodyMark, by decide, rfl⟩, List.takeWhile_cons_of_neg (by decide)]

lemma rest_ne_nil : ∀ p ∈ m.rest, p ≠ [] := by
  intro p hp
  rcases List.mem_cons.mp hp with rfl | hp
  · decide
  · exact ne_nil_of_mem_fgets hp

/-- What a delivery writes is such a message, and stays one when it is read. -/
def ofLetter (letter : Letter) (id : ℕ) (toUser : Bytes) (now : Moment) (hid : id ≤ ulongMax)
    (hto : toUser.length < userNameMax ∧ nl ∉ toUser ∧ 0 ∉ toUser) (hsub : letter.subject.length ≤ mailSubjectMax) :
    StoredMessage where
  id := id
  sent := now.secs
  fromUser := letter.fromUser
  toUser := toUser
  subject := letter.subject
  body := letter.body ++ if letter.body.getLast? = some nl then [] else [nl]
  seen := false
  id_fits := hid
  sent_fits := now.fits
  from_fits := ⟨letter.from_fits, letter.from_line⟩
  to_fits := hto
  subject_fits := ⟨letter.subject_line, hsub⟩
  body_string := by
    rw [List.mem_append, not_or]
    refine ⟨letter.body_string, ?_⟩
    split_ifs <;> decide

lemma text_ofLetter (letter : Letter) {id : ℕ} {toUser : Bytes} (now : Moment) (hid : id ≤ ulongMax)
    (hto : toUser.length < userNameMax ∧ nl ∉ toUser ∧ 0 ∉ toUser) (hsub : letter.subject.length ≤ mailSubjectMax) :
    (ofLetter letter id toUser now hid hto hsub).text = msgText id letter toUser now.secs := rfl

lemma zero_notMem_markRead (body : Bytes) : 0 ∉ markRead body := by
  rw [markRead]
  intro h
  obtain ⟨_, hp, hb⟩ := List.mem_flatten.mp h
  obtain ⟨piece, -, rfl⟩ := List.mem_map.mp hp
  rw [markPiece] at hb
  split_ifs at hb
  · exact absurd hb (by decide)
  · exact absurd (List.mem_takeWhile_imp hb) (by decide)

def markedRead : StoredMessage :=
  { m with seen := true, body := markRead m.body, body_string := zero_notMem_markRead m.body }

lemma text_markedRead : m.markedRead.text = markRead m.text :=
  (markRead_header m.id_fits m.sent_fits m.from_fits m.to_fits m.subject_fits m.flag_cases m.body).symm

end StoredMessage

lemma stamp_deletedLine (now : Moment) : Stamp (deletedLine now) where
  closed := ⟨kv "deleted" (decimal now.secs), notMem_kv (by decide) (by decide) (notMem_decimal (by decide) _), rfl⟩
  unmarked := by
    have hk : ofString "deleted" = 0x64 :: ofString "eleted" := by decide
    rw [deletedLine, kv_append]
    exact isPrefixOf_kv hk (by decide) _
  deleted := by
    have hk : deletedLine now = deletedKey ++ (decimal now.secs ++ [nl]) := by
      rw [deletedLine, kv_append, kv]
      rfl
    rw [hk, List.isPrefixOf_iff_prefix]
    exact List.prefix_append _ _
  no_r := by
    rw [deletedLine, kv_append]
    exact notMem_kv (by decide) (by decide) (by simpa using ⟨notMem_decimal (by decide) now.secs, by decide⟩)

lemma length_deletedLine (now : Moment) : 9 < (deletedLine now).length := by
  have h7 : (ofString "deleted").length = 7 := by decide
  have hpos := List.length_pos_of_ne_nil (decimal_ne_nil now.secs)
  rw [deletedLine, List.length_append, length_kv, List.length_singleton]
  omega

section Copy

variable (stamp : Bytes)

lemma recyclePieces_head {H : List Bytes} (hH : ∀ p ∈ H, HeadPiece p) (rest : List Bytes) :
    recyclePieces stamp false (H ++ rest) = H ++ recyclePieces stamp false rest := by
  induction H with
  | nil => rfl
  | cons p H ih =>
    obtain ⟨hp, hH⟩ := List.forall_mem_cons.mp hH
    rw [List.cons_append, recyclePieces, hp.undeleted, hp.unmarked, if_neg Bool.false_ne_true,
      if_neg fun h => Bool.false_ne_true h.2, ih hH, cstr_of_notMem hp.string, List.cons_append]

lemma recyclePieces_body {ps : List Bytes} (h0 : ∀ p ∈ ps, 0 ∉ p) :
    recyclePieces stamp true ps = ps.filter fun p => !deletedKey.isPrefixOf p := by
  induction ps with
  | nil => rfl
  | cons p ps ih =>
    obtain ⟨hp, hps⟩ := List.forall_mem_cons.mp h0
    rw [recyclePieces, ih hps, List.filter_cons, cstr_of_notMem hp]
    by_cases hdel : deletedKey.isPrefixOf p = true
    · rw [if_pos hdel, hdel]
      rfl
    · rw [if_neg hdel, if_neg fun h => Bool.false_ne_true h.1.symm, if_pos (by rw [Bool.eq_false_iff.mpr hdel]; rfl)]

/-- The copy writes the header, the stamp, and of the rest what does not look like a stamp. -/
lemma recyclePieces_text (m : StoredMessage) : recyclePieces stamp false (fgets lineMax m.text) =
    m.head ++ (stamp :: (bodyMark ++ [nl]) :: (fgets lineMax m.body).filter fun p => !deletedKey.isPrefixOf p) := by
  have hmark : deletedKey.isPrefixOf (bodyMark ++ [nl]) = false ∧ bodyMark.isPrefixOf (bodyMark ++ [nl]) = true ∧
      cstr (bodyMark ++ [nl]) = bodyMark ++ [nl] := by decide
  rw [m.fgets_text, recyclePieces_head stamp (fun p hp => m.headPiece_head hp), StoredMessage.rest, recyclePieces,
    hmark.1, if_neg Bool.false_ne_true, if_pos ⟨rfl, hmark.2.1⟩, hmark.2.2, recyclePieces_body]
  exact fun p hp h => m.body_string (subset_of_mem_fgets hp h)

end Copy

/-- All writes of a copy but that of the stamp succeed. -/
def Copies (io : MoveIo) (m : StoredMessage) : Prop :=
  ∀ k ≤ m.head.length + 1 + (fgets lineMax m.body).length, k ≠ m.head.length → io.put k = true

lemma recycleText_iff (io : MoveIo) (now : Moment) (m : StoredMessage) :
    SameMessage (recycleText io now m.text) m.text ↔ DeletedFree m.body ∧ Copies io m := by
  set kept := (fgets lineMax m.body).filter fun p => !deletedKey.isPrefixOf p with hkept
  have hbody : ((bodyMark ++ [nl]) :: kept).Sublist m.rest := List.filter_sublist.cons_cons _
  have hfree : (bodyMark ++ [nl]) :: kept = m.rest ↔ DeletedFree m.body := by
    rw [StoredMessage.rest, List.cons.injEq, hkept, List.filter_eq_self, DeletedFree]
    simp
  have hone : written io.put m.head.length [deletedLine now] = [] ∨
      written io.put m.head.length [deletedLine now] = [deletedLine now] := by
    rw [written]
    split_ifs
    · exact .inr rfl
    · exact .inl rfl
  have htext : recycleText io now m.text =
      (written io.put 0 m.head ++ written io.put m.head.length [deletedLine now]).flatten ++
        (written io.put (m.head.length + 1) ((bodyMark ++ [nl]) :: kept)).flatten := by
    have hsplit : deletedLine now :: (bodyMark ++ [nl]) :: kept = [deletedLine now] ++
      ((bodyMark ++ [nl]) :: kept) := rfl
    rw [recycleText, recyclePieces_text, ← hkept, hsplit, written_append, written_append, Nat.zero_add,
      List.flatten_append, List.flatten_append, List.flatten_append, List.append_assoc]
    rfl
  obtain ⟨H', r, hhead, hmem, hlen, -⟩ := m.head_last
  have hsub := @written_sublist io.put (m.head.length + 1) ((bodyMark ++ [nl]) :: kept)
  rw [htext, m.text_eq, sameMessage_iff (fun p hp => m.headPiece_head hp) m.head_end
    ⟨H', r, hhead, hmem, lt_of_le_of_lt hlen (length_deletedLine now)⟩ (stamp_deletedLine now) m.rest_ne_nil
    m.rest_marked (written_sublist 0 m.head) (hsub.trans hbody) hone]
  constructor
  · rintro ⟨hH, hR⟩
    have hall : (bodyMark ++ [nl]) :: kept = m.rest := hbody.antisymm (hR ▸ hsub)
    rw [hall] at hR
    rw [written_eq_self_iff] at hH hR
    refine ⟨hfree.mp hall, fun k hk hne => ?_⟩
    rcases Nat.lt_or_gt_of_ne hne with hlt | hgt
    · simpa using hH k hlt
    · have := hR (k - (m.head.length + 1)) (by rw [StoredMessage.rest, List.length_cons]; omega)
      rwa [Nat.add_sub_cancel' hgt] at this
  · rintro ⟨hdel, hput⟩
    rw [hfree.mpr hdel, written_eq_self_iff, written_eq_self_iff]
    constructor
    · intro i hi
      exact hput (0 + i) (by omega) (by omega)
    · intro i hi
      rw [StoredMessage.rest, List.length_cons] at hi
      exact hput _ (by omega) (by omega)

section Paths

variable {root username inboxPath recyclePath : Bytes}

lemma mailUserPath_spec {dirName path : Bytes} (h : mailUserPath root username dirName = some path) :
    ∃ userDir, pathJoin pathMax root (usernameNormalize (strlcpy userNameMax username)) = some userDir ∧
      path = joined userDir dirName := by
  rw [mailUserPath] at h
  split_ifs at h
  obtain ⟨userDir, hdir, hjoin⟩ := Option.bind_eq_some_iff.mp h
  refine ⟨userDir, hdir, ?_⟩
  rw [pathJoin] at hjoin
  split_ifs at hjoin
  exact (Option.some.inj hjoin).symm

lemma msgFilePath_spec {path p : Bytes} {id : ℕ} (h : msgFilePath path id = some p) :
    p = joined path (msgFileName id) ∧ p.length < pathMax := by
  rw [msgFilePath, pathJoin] at h
  split_ifs at h with hvalid hlen
  rw [← Option.some.inj h]
  exact ⟨rfl, not_le.mp hlen⟩

/-- The original, its copy and the name the copy gets are three files. -/
lemma paths_differ (hin : mailUserPath root username mailInboxName = some inboxPath)
    (hrec : mailUserPath root username mailRecycleName = some recyclePath) (name : Bytes)
    (hname : name.getLast? = some 0x67) :
    joined inboxPath name ≠ joined recyclePath name ∧ joined inboxPath name ≠ joined recyclePath name ++ tmpSuffix := by
  obtain ⟨userDir, hdir, rfl⟩ := mailUserPath_spec hin
  obtain ⟨userDir', hdir', rfl⟩ := mailUserPath_spec hrec
  obtain rfl := Option.some.inj (hdir.symm.trans hdir')
  have hopen := @joined_open userDir mailInboxName (by decide)
  have hopen' := @joined_open userDir mailRecycleName (by decide)
  rw [joined_child name hopen.1 hopen.2, joined_child name hopen'.1 hopen'.2]
  constructor
  · intro h
    have hdirs := List.append_cancel_right h
    rw [joined, joined] at hdirs
    split_ifs at hdirs
    all_goals exact absurd (List.append_cancel_left hdirs) (by decide)
  · intro h
    have hlast := congrArg List.getLast? h
    have hne : name ≠ [] := by
      rintro rfl
      cases hname
    rw [List.append_cons, List.getLast?_append_of_ne_nil _ hne, hname,
      List.getLast?_append_of_ne_nil _ (by decide)] at hlast
    exact absurd hlast (by decide)

lemma getLast_msgFileName (id : ℕ) : (msgFileName id).getLast? = some 0x67 := by
  rw [msgFileName, List.getLast?_append_of_ne_nil _ (by decide)]
  decide

end Paths

/-- Whether the call gets as far as removing the original. -/
def MoveIo.removes (io : MoveIo) (recyclePath : Bytes) (id : ℕ) : Bool :=
  io.mkdir && (msgFilePath recyclePath id).isSome && io.openSrc && io.openTmp && io.removeSrc

section Move

variable {io : MoveIo} {now : Moment} {inboxPath recyclePath src text : Bytes} {id : ℕ} {files : Files}

lemma removeFile_of_ne {granted : Bool} {path : Bytes} (h : src ≠ path) :
    removeFile granted files path src = files src := by
  rw [removeFile]
  split_ifs
  · exact Function.update_of_ne h _ _
  · rfl

/-- What the call does to the original and to the name of the copy. -/
lemma move_cases (hsrc : msgFilePath inboxPath id = some src) (hfile : files src = some text)
    (hdst : src ≠ joined recyclePath (msgFileName id)) (htmp : src ≠ joined recyclePath (msgFileName id) ++ tmpSuffix) :
    let result := mailMoveIdToRecycle io now inboxPath recyclePath id files
    if io.removes recyclePath id then
      result.2 src = none ∧ (if io.rename then
        result.1 = .ok ∧ result.2 (joined recyclePath (msgFileName id)) = some (recycleText io now text)
      else result.1 = .errIo)
    else result.1 = .errIo ∧ result.2 src = some text := by
  intro result
  have hresult : result = mailMoveIdToRecycle io now inboxPath recyclePath id files := rfl
  rw [mailMoveIdToRecycle, hsrc] at hresult
  dsimp only at hresult
  rw [MoveIo.removes]
  cases hmk : io.mkdir with
  | false =>
    rw [if_pos hmk] at hresult
    rw [hresult]
    exact ⟨rfl, hfile⟩
  | true =>
    rw [if_neg (by rw [hmk]; decide)] at hresult
    cases hd : msgFilePath recyclePath id with
    | none =>
      rw [hd] at hresult
      rw [hresult]
      exact ⟨rfl, hfile⟩
    | some dst =>
      obtain ⟨rfl, hlen⟩ := msgFilePath_spec hd
      rw [hd] at hresult
      dsimp only at hresult
      rw [if_neg (by omega), hfile] at hresult
      have hopened : (if io.openTmp then Function.update files (joined recyclePath (msgFileName id) ++ tmpSuffix) (some [])
          else files) src = some text := by
        split_ifs
        · rwa [Function.update_of_ne htmp]
        · exact hfile
      cases hs : io.openSrc with
      | false =>
        rw [hs, if_neg Bool.false_ne_true] at hresult
        rw [hresult]
        exact ⟨rfl, (removeFile_of_ne htmp).trans hopened⟩
      | true =>
        rw [hs, if_pos rfl] at hresult
        dsimp only at hresult
        cases ho : io.openTmp with
        | false =>
          rw [ho] at hopened hresult
          rw [hresult]
          exact ⟨rfl, (removeFile_of_ne htmp).trans hopened⟩
        | true =>
          rw [ho, if_neg (by decide)] at hresult
          cases hrm : io.removeSrc with
          | false =>
            rw [if_pos hrm] at hresult
            rw [hresult]
            exact ⟨rfl, (removeFile_of_ne htmp).trans ((Function.update_of_ne htmp _ _).trans hfile)⟩
          | true =>
            rw [hrm, if_neg (by decide)] at hresult
            cases hrn : io.rename with
            | false =>
              rw [hrn, if_pos rfl] at hresult
              rw [hresult]
              exact ⟨(removeFile_of_ne htmp).trans (Function.update_self _ _ _), rfl⟩
            | true =>
              rw [hrn, if_neg (by decide)] at hresult
              rw [hresult]
              refine ⟨?_, rfl, Function.update_self _ _ _⟩
              dsimp only
              rw [Function.update_of_ne hdst, Function.update_of_ne htmp, Function.update_self]

end Move

/-- If the original is removed, the rename succeeds, and nothing but the stamp is missing from the copy. -/
def MoveHolds (io : MoveIo) (recyclePath : Bytes) (m : StoredMessage) : Prop :=
  io.removes recyclePath m.id = true → io.rename = true ∧ DeletedFree m.body ∧ Copies io m

/-- A message is moved to the recycle bin, or stays where it was, exactly if the condition holds. -/
theorem move_keeps_message_iff (io : MoveIo) (now : Moment) (root username : Bytes) (m : StoredMessage) (files : Files)
    {inboxPath recyclePath src : Bytes} (hin : mailUserPath root username mailInboxName = some inboxPath)
    (hrec : mailUserPath root username mailRecycleName = some recyclePath)
    (hsrc : msgFilePath inboxPath m.id = some src) (hfile : files src = some m.text) :
    MovedOrKept src (joined recyclePath (msgFileName m.id)) m.text
      (mailMoveIdToRecycle io now inboxPath recyclePath m.id files) ↔ MoveHolds io recyclePath m := by
  have hdiffer := paths_differ hin hrec (msgFileName m.id) (getLast_msgFileName m.id)
  rw [← (msgFilePath_spec hsrc).1] at hdiffer
  have hcases := @move_cases io now _ _ _ _ _ _ hsrc hfile hdiffer.1 hdiffer.2
  dsimp only at hcases
  rw [MovedOrKept, MoveHolds]
  split_ifs at hcases with hremoves hrename
  · obtain ⟨hgone, hok, hcopy⟩ := hcases
    rw [← recycleText_iff io now m, hok, hgone, hcopy]
    simp [hremoves, hrename]
  · obtain ⟨hgone, herr⟩ := hcases
    rw [herr, hgone]
    simp [hremoves, hrename]
  · obtain ⟨herr, hkept⟩ := hcases
    rw [herr, hkept]
    simp [hremoves]

/-- The first message of ann, with some text of bob. -/
def fromBob (body : Bytes) (h0 : 0 ∉ body) : StoredMessage where
  id := 1
  sent := 0
  fromUser := ofString "bob"
  toUser := ofString "ann"
  subject := ofString "hi"
  body := body
  seen := false
  id_fits := by decide
  sent_fits := Nat.zero_le _
  from_fits := bob_named
  to_fits := ann_named
  subject_fits := by decide
  body_string := h0

def annInbox : Bytes := ofString "mail/ann/inbox"
def annRecycle : Bytes := ofString "mail/ann/recycle"
def annFirst : Bytes := ofString "mail/ann/inbox/000001.msg"
def annRecycled : Bytes := ofString "mail/ann/recycle/000001.msg"

def onlyFile (path text : Bytes) : Files := Function.update (fun _ => none) path (some text)

def granting (rename : Bool) : MoveIo := ⟨true, true, true, fun _ => true, true, rename, true⟩

def shortNote : StoredMessage := fromBob (ofString "73\n") (by decide)

/-- A note with a line that looks like the stamp. -/
def deletedNote : StoredMessage := fromBob (ofString "deleted=all\n73\n") (by decide)

def recycleOf (io : MoveIo) (m : StoredMessage) : HybbxResult × Files :=
  mailMoveIdToRecycle io ⟨0, Nat.zero_le _⟩ annInbox annRecycle 1 (onlyFile annFirst m.text)

theorem move_keeps_shortNote :
    MovedOrKept annFirst annRecycled shortNote.text (recycleOf (granting true) shortNote) := by
  have hin : mailUserPath (ofString "mail") (ofString "ann") mailInboxName = some annInbox := by decide +kernel
  have hrec : mailUserPath (ofString "mail") (ofString "ann") mailRecycleName = some annRecycle := by decide +kernel
  have hsrc : msgFilePath annInbox shortNote.id = some annFirst := by decide +kernel
  have hdst : joined annRecycle (msgFileName shortNote.id) = annRecycled := by decide +kernel
  have hiff := move_keeps_message_iff (granting true) ⟨0, Nat.zero_le _⟩ (ofString "mail") (ofString "ann") shortNote
    (onlyFile annFirst shortNote.text) hin hrec hsrc (Function.update_self _ _ _)
  rw [hdst] at hiff
  exact hiff.mpr fun _ => ⟨rfl, by decide, fun _ _ _ => rfl⟩

/-- Without any failure the first line of the body is lost; and with a failed rename the whole message. -/
theorem move_loses_message :
    ¬MovedOrKept annFirst annRecycled deletedNote.text (recycleOf (granting true) deletedNote) ∧
      ¬MovedOrKept annFirst annRecycled shortNote.text (recycleOf (granting false) shortNote) := by
  constructor
  · rintro (⟨-, -, copy, hcopy, hsame⟩ | ⟨herr, -⟩)
    · have hbody : bodyLines copy = [ofString "---\n", ofString "73\n"] := by
        have : ((recycleOf (granting true) deletedNote).2 annRecycled).map bodyLines =
            some [ofString "---\n", ofString "73\n"] := by decide +kernel
        rwa [hcopy, Option.map_some, Option.some.injEq] at this
      rw [SameMessage, hbody] at hsame
      exact absurd hsame.2 (by decide +kernel)
    · exact herr (by decide +kernel)
  · rintro (⟨hok, -⟩ | ⟨-, hkept⟩)
    · exact absurd hok (by decide +kernel)
    · exact absurd hkept (by decide +kernel)

end HyBBX.Mail
