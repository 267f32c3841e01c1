import HyBBX.Lib.PieceLines
import HyBBX.Mail.Header
import HyBBX.Mains.Proxymail

/-! Moving a message to the recycle bin: a copy under a temporary name, the removal of the original, and a rename. -/

namespace HyBBX.Mail

open HyBBX.Core HyBBX.Mains Lib Lib.Bytes Lib.Text Lib.Numeral Lib.LineReader Lib.PieceLines

/-- The files by their paths. -/
abbrev Files := Bytes → Option Bytes

/-- Which of its file operations succeed for one call; the writes are counted from 0. -/
structure MoveIo where
  mkdir : Bool
  openSrc : Bool
  openTmp : Bool
  put : ℕ → Bool
  removeSrc : Bool
  rename : Bool
  removeTmp : Bool

def mailInboxName : Bytes := ofString "inbox"
def mailRecycleName : Bytes := ofString "recycle"

def mailUserPath (root username dirName : Bytes) : Option Bytes :=
  if username = [] then none
  else (pathJoin pathMax root (usernameNormalize (strlcpy userNameMax username))).bind fun userDir =>
    pathJoin pathMax userDir dirName

def msgFilePath (dirPath : Bytes) (id : ℕ) : Option Bytes := pathJoin pathMax dirPath (msgFileName id)

def deletedKey : Bytes := ofString "deleted="

def deletedLine (now : Moment) : Bytes := kv "deleted" (decimal now.secs) ++ [nl]

/-- What the loop writes for the pieces it reads, in front of the body or else at the end a line with the time. -/
def recyclePieces (stamp : Bytes) : Bool → List Bytes → List Bytes
  | hasDeleted, [] => if hasDeleted then [] else [stamp]
  | hasDeleted, line :: rest =>
    if deletedKey.isPrefixOf line then recyclePieces stamp hasDeleted rest
    else if hasDeleted = false ∧ bodyMark.isPrefixOf line then stamp :: cstr line :: recyclePieces stamp true rest
    else cstr line :: recyclePieces stamp hasDeleted rest

def recycleText (io : MoveIo) (now : Moment) (text : Bytes) : Bytes :=
  (written io.put 0 (recyclePieces (deletedLine now) false (fgets lineMax text))).flatten

def tmpSuffix : Bytes := ofString ".tmp"

def removeFile (granted : Bool) (files : Files) (path : Bytes) : Files :=
  if granted then Function.update files path none else files

def mailMoveIdToRecycle (io : MoveIo) (now : Moment) (inboxPath recyclePath : Bytes) (id : ℕ) (files : Files) :
    HybbxResult × Files :=
  match msgFilePath inboxPath id with
  | none => (.errIo, files)
  | some src =>
    if io.mkdir = false then (.errIo, files)
    else match msgFilePath recyclePath id with
    | none => (.errIo, files)
    | some dst =>
      if pathMax + 8 ≤ dst.length + 4 then (.errIo, files)
      else
        let tmp := dst ++ tmpSuffix
        let opened := if io.openTmp then Function.update files tmp (some []) else files
        match if io.openSrc then files src else none with
        | none => (.errIo, removeFile io.removeTmp opened tmp)
        | some text =>
          if io.openTmp = false then (.errIo, removeFile io.removeTmp opened tmp)
          else
            let copy := recycleText io now text
            let copied := Function.update files tmp (some copy)
            if io.removeSrc = false then (.errIo, removeFile io.removeTmp copied tmp)
            else
              let moved := Function.update copied src none
              -- the original is gone before its copy has its name
              if io.rename = false then (.errIo, removeFile io.removeTmp moved tmp)
              else (.ok, Function.update (Function.update moved tmp none) dst (some copy))

def headerLines (text : Bytes) : List Bytes := (rawLines text).takeWhile fun l => !bodyMark.isPrefixOf l

def bodyLines (text : Bytes) : List Bytes := (rawLines text).dropWhile fun l => !bodyMark.isPrefixOf l

/-- The same header lines, other than `deleted=`, and the same body. -/
def SameMessage (a b : Bytes) : Prop :=
  (headerLines a).filter (fun l => !deletedKey.isPrefixOf l) =
    (headerLines b).filter (fun l => !deletedKey.isPrefixOf l) ∧
    (bodyLines a).flatten = (bodyLines b).flatten

/-- Either the message has gone to the recycle bin, or it is where it was. -/
def MovedOrKept (src dst text : Bytes) (result : HybbxResult × Files) : Prop :=
  (result.1 = .ok ∧ result.2 src = none ∧ ∃ copy, result.2 dst = some copy ∧ SameMessage copy text) ∨
    (result.1 ≠ .ok ∧ result.2 src = some text)

/-- No piece of the body that `fgets` returns looks like the line with the time. -/
def DeletedFree (body : Bytes) : Prop := ∀ piece ∈ fgets lineMax body, deletedKey.isPrefixOf piece = false

instance (body : Bytes) : Decidable (DeletedFree body) := by
  unfold DeletedFree
  infer_instance

section SameMessage

variable {H B W R S : List Bytes} {stamp : Bytes}

/-- A piece of a header, whole or as much as the buffer holds. -/
structure HeadPiece (p : Bytes) : Prop where
  shape : Closed p ∨ Open p ∧ deletedKey.length ≤ p.length
  unmarked : bodyMark.isPrefixOf p = false
  undeleted : deletedKey.isPrefixOf p = false
  string : 0 ∉ p

/-- The line with the time. -/
structure Stamp (stamp : Bytes) : Prop where
  closed : Closed stamp
  unmarked : bodyMark.isPrefixOf stamp = false
  deleted : deletedKey.isPrefixOf stamp = true
  no_r : 0x72 ∉ stamp

lemma isPrefixOf_append {key p : Bytes} (h : key.length ≤ p.length) (x : Bytes) :
    key.isPrefixOf (p ++ x) = key.isPrefixOf p := by
  rw [Bool.eq_iff_iff, List.isPrefixOf_iff_prefix, List.isPrefixOf_iff_prefix]
  constructor
  · exact fun hp => List.prefix_of_prefix_length_le hp (List.prefix_append p x) h
  · exact fun hp => hp.trans (List.prefix_append p x)

lemma HeadPiece.closed_or_open {p : Bytes} (h : HeadPiece p) : Closed p ∨ Open p := h.shape.imp_right And.left

/-- A line that starts with a piece of the header has no key of another part. -/
lemma HeadPiece.line {p : Bytes} (h : HeadPiece p) :
    (bodyMark.isPrefixOf p = false ∧ deletedKey.isPrefixOf p = false) ∧
      (Open p → ∀ x, bodyMark.isPrefixOf (p ++ x) = false ∧ deletedKey.isPrefixOf (p ++ x) = false) := by
  refine ⟨⟨h.unmarked, h.undeleted⟩, fun hopen x => ?_⟩
  rcases h.shape with ⟨l, -, rfl⟩ | ⟨-, hlen⟩
  · exact absurd (List.mem_append_right l (List.mem_singleton_self nl)) hopen.1
  · have hmark : bodyMark.length ≤ deletedKey.length := by decide
    rw [isPrefixOf_append (hmark.trans hlen), isPrefixOf_append hlen]
    exact ⟨h.unmarked, h.undeleted⟩

lemma HeadPiece.rawLines (hH : ∀ p ∈ H, HeadPiece p) : ∀ l ∈ rawLines H.flatten,
    bodyMark.isPrefixOf l = false ∧ deletedKey.isPrefixOf l = false := by
  have := rawLines_pieces (fun p hp => (hH p hp).closed_or_open) (fun p hp => (hH p hp).line) []
  rcases this with ⟨-, hall⟩ | ⟨l, ls, first, others, hnil, -, -⟩
  · exact hall
  · cases hnil

lemma Stamp.line (h : Stamp stamp) : bodyMark.isPrefixOf stamp = false ∧ (Open stamp → ∀ x,
    bodyMark.isPrefixOf (stamp ++ x) = false) := by
  refine ⟨h.unmarked, fun hopen => ?_⟩
  obtain ⟨l, -, rfl⟩ := h.closed
  exact absurd (List.mem_append_right l (List.mem_singleton_self nl)) hopen.1

lemma headerLines_append {ls ms : List Bytes} (hls : ∀ l ∈ ls, bodyMark.isPrefixOf l = false) :
    (ls ++ ms).takeWhile (fun l => !bodyMark.isPrefixOf l) = ls ++ ms.takeWhile (fun l => !bodyMark.isPrefixOf l) ∧
      (ls ++ ms).dropWhile (fun l => !bodyMark.isPrefixOf l) = ms.dropWhile (fun l => !bodyMark.isPrefixOf l) := by
  have hall : ∀ l ∈ ls, (!bodyMark.isPrefixOf l) = true := fun l hl => by rw [hls l hl]; rfl
  exact ⟨List.takeWhile_append_of_pos hall, List.dropWhile_append_of_pos hall⟩

/-- The message itself: the header is what stands before the first marked line. -/
lemma stored_lines (hH : ∀ p ∈ H, HeadPiece p) (hend : H.flatten.getLast? = some nl) {body : Bytes}
    (hmark : (rawLines body).takeWhile (fun l => !bodyMark.isPrefixOf l) = []) :
    headerLines (H.flatten ++ body) = rawLines H.flatten ∧ (bodyLines (H.flatten ++ body)).flatten = body := by
  have hsplit := @headerLines_append _ (rawLines body) fun l hl => (HeadPiece.rawLines hH l hl).1
  have hdrop : (rawLines body).dropWhile (fun l => !bodyMark.isPrefixOf l) = rawLines body := by
    have := List.takeWhile_append_dropWhile (p := fun l => !bodyMark.isPrefixOf l) (l := rawLines body)
    rwa [hmark, List.nil_append] at this
  rw [headerLines, bodyLines, rawLines_append (.inr hend), hsplit.1, hsplit.2, hmark, hdrop, List.append_nil,
    flatten_rawLines]
  exact ⟨rfl, rfl⟩

lemma filter_undeleted (hH : ∀ p ∈ H, HeadPiece p) :
    (rawLines H.flatten).filter (fun l => !deletedKey.isPrefixOf l) = rawLines H.flatten := by
  rw [List.filter_eq_self]
  intro l hl
  rw [(HeadPiece.rawLines hH l hl).2]
  rfl

/-- The lines with the stamp behind what was written of the header are those of the whole header only if all of it
was written. -/
lemma written_header (hH : ∀ p ∈ H, HeadPiece p) (hr : ∃ H' r, H = H' ++ [r] ∧ 0x72 ∈ r ∧ r.length < stamp.length)
    (hstamp : Stamp stamp) (hW : W.Sublist H) (hS : S = [] ∨ S = [stamp])
    (h : (rawLines (W ++ S).flatten).filter (fun l => !deletedKey.isPrefixOf l) = rawLines H.flatten) : W = H := by
  have hWH : ∀ p ∈ W, HeadPiece p := fun p hp => hH p (hW.subset hp)
  have hne : ∀ p ∈ H, p ≠ [] := by
    intro p hp
    rcases (hH p hp).closed_or_open with ⟨l, -, rfl⟩ | ho
    · simp
    · exact ho.2
  have hwhole : rawLines W.flatten = rawLines H.flatten → W = H := by
    intro hlines
    have hflat : W.flatten = H.flatten := by
      rw [← flatten_rawLines W.flatten, hlines, flatten_rawLines]
    exact sublist_eq_of_length hW hne (by rw [hflat])
  rcases hS with rfl | rfl
  · rw [List.append_nil, filter_undeleted hWH] at h
    exact hwhole h
  · rw [List.flatten_append, List.flatten_singleton] at h
    have hlast : rawLines stamp = [stamp] := by
      have := rawLines_closed hstamp.closed []
      rwa [List.append_nil] at this
    rcases rawLines_pieces (fun p hp => (hWH p hp).closed_or_open) (fun p hp => (hWH p hp).line) stamp with
      ⟨hlines, -⟩ | ⟨l, ls, first, others, hrest, hlines, hall⟩
    · rw [hlines, hlast, List.filter_append, filter_undeleted hWH, List.filter_singleton, hstamp.deleted] at h
      exact hwhole (by simpa using h)
    · -- the stamp would have to stand where the last line of the header stands
      exfalso
      rw [hlast] at hrest
      obtain ⟨-, rfl⟩ := List.cons.inj hrest
      have hkeep : (rawLines (W.flatten ++ stamp)).filter (fun l => !deletedKey.isPrefixOf l) =
          rawLines (W.flatten ++ stamp) := by
        rw [List.filter_eq_self, hlines, List.append_nil]
        intro k hk
        rw [(hall k hk).2]
        rfl
      rw [hkeep] at h
      obtain ⟨H', r, rfl, hin, hlen⟩ := hr
      have hflat : W.flatten ++ stamp = H'.flatten ++ r := by
        rw [← flatten_rawLines (W.flatten ++ stamp), h, flatten_rawLines, List.flatten_append, List.flatten_singleton]
      have hsuffix : r <:+ stamp := by
        have hr : r <:+ W.flatten ++ stamp := by
          rw [hflat]
          exact List.suffix_append _ _
        exact List.suffix_of_suffix_length_le hr (List.suffix_append _ _) hlen.le
      exact hstamp.no_r (hsuffix.subset hin)

lemma length_bodyLines_le (ms : List Bytes) :
    (ms.dropWhile fun l => !bodyMark.isPrefixOf l).flatten.length ≤ ms.flatten.length :=
  ((List.dropWhile_suffix _).sublist.flatten).length_le

/-- Without a body of its own, what has pieces missing cannot say the same. -/
lemma pieces_of_sameMessage (hH : ∀ p ∈ H, HeadPiece p)
    (hr : ∃ H' r, H = H' ++ [r] ∧ 0x72 ∈ r ∧ r.length < stamp.length) (hstamp : Stamp stamp) (hne : ∀ p ∈ B, p ≠ [])
    (hmark : (rawLines B.flatten).takeWhile (fun l => !bodyMark.isPrefixOf l) = [])
    (hW : W.Sublist H) (hR : R.Sublist B) (hS : S = [] ∨ S = [stamp])
    (hlines : (headerLines ((W ++ S).flatten ++ R.flatten)).filter (fun l => !deletedKey.isPrefixOf l) = rawLines H.flatten)
    (hrest : (bodyLines ((W ++ S).flatten ++ R.flatten)).flatten = B.flatten) : W = H ∧ R = B := by
  have hle : R.flatten.length ≤ B.flatten.length := hR.flatten.length_le
  have hunmarked : ∀ p ∈ W ++ S, (Closed p ∨ Open p) ∧ bodyMark.isPrefixOf p = false ∧
      (Open p → ∀ x, bodyMark.isPrefixOf (p ++ x) = false) := by
    intro p hp
    rcases List.mem_append.mp hp with hp | hp
    · have hhead := hH p (hW.subset hp)
      exact ⟨hhead.closed_or_open, hhead.unmarked, fun ho x => (hhead.line.2 ho x).1⟩
    · rcases hS with rfl | rfl
      · cases hp
      · rw [List.mem_singleton.mp hp]
        exact ⟨.inl hstamp.closed, hstamp.line⟩
  rcases rawLines_pieces (fun p hp => (hunmarked p hp).1) (fun p hp => (hunmarked p hp).2) R.flatten with
    ⟨he, hall⟩ | ⟨l, ls, first, others, hfirst, he, hall⟩
  · have hsplit := @headerLines_append _ (rawLines R.flatten) hall
    rw [bodyLines, he, hsplit.2] at hrest
    have hlen := length_bodyLines_le (rawLines R.flatten)
    rw [hrest, flatten_rawLines] at hlen
    have hRB : R = B := sublist_eq_of_length hR hne hlen
    rw [headerLines, he, hsplit.1, hRB, hmark, List.append_nil] at hlines
    exact ⟨written_header hH hr hstamp hW hS hlines, hRB⟩
  · exfalso
    have hsplit := @headerLines_append _ others hall
    rw [bodyLines, he, hsplit.2] at hrest
    have hlen := length_bodyLines_le others
    have hflat : R.flatten = first ++ others.flatten := by
      rw [← flatten_rawLines R.flatten, hfirst, List.flatten_cons]
    have hpos : 0 < first.length :=
      List.length_pos_of_ne_nil (@ne_nil_of_mem_rawLines R.flatten _ (hfirst ▸ List.mem_cons_self))
    rw [hrest] at hlen
    rw [hflat, List.length_append] at hle
    omega

/-- The whole message with its stamp: the lines of the header with the stamp behind them, and the body. -/
lemma stamped_lines (hH : ∀ p ∈ H, HeadPiece p) (hend : H.flatten.getLast? = some nl) (hstamp : Stamp stamp)
    (hmark : (rawLines B.flatten).takeWhile (fun l => !bodyMark.isPrefixOf l) = []) (hS : S = [] ∨ S = [stamp]) :
    (headerLines ((H ++ S).flatten ++ B.flatten)).filter (fun l => !deletedKey.isPrefixOf l) = rawLines H.flatten ∧
      (bodyLines ((H ++ S).flatten ++ B.flatten)).flatten = B.flatten := by
  have hlines : rawLines (H ++ S).flatten = rawLines H.flatten ++ S := by
    rw [List.flatten_append, rawLines_append (.inr hend)]
    rcases hS with rfl | rfl
    · rfl
    · rw [List.flatten_singleton]
      have := rawLines_closed hstamp.closed []
      rw [List.append_nil] at this
      rw [this]
      rfl
  have hlast : (H ++ S).flatten.getLast? = some nl := by
    rcases hS with rfl | rfl
    · rwa [List.append_nil]
    · obtain ⟨l, -, rfl⟩ := hstamp.closed
      rw [List.flatten_append, List.flatten_singleton, ← List.append_assoc, List.getLast?_concat]
  have hunmarked : ∀ l ∈ rawLines H.flatten ++ S, bodyMark.isPrefixOf l = false := by
    intro l hl
    rcases List.mem_append.mp hl with hl | hl
    · exact (HeadPiece.rawLines hH l hl).1
    · rcases hS with rfl | rfl
      · cases hl
      · rw [List.mem_singleton.mp hl]
        exact hstamp.unmarked
  have hgone : S.filter (fun l => !deletedKey.isPrefixOf l) = [] := by
    rcases hS with rfl | rfl
    · rfl
    · rw [List.filter_singleton, hstamp.deleted]
      rfl
  have hsplit := @headerLines_append _ (rawLines B.flatten) hunmarked
  have hall := List.takeWhile_append_dropWhile (p := fun l => !bodyMark.isPrefixOf l) (l := rawLines B.flatten)
  rw [hmark, List.nil_append] at hall
  rw [headerLines, bodyLines, rawLines_append (.inr hlast), hlines, hsplit.1, hsplit.2, hmark, hall,
    flatten_rawLines, List.append_nil, List.filter_append, hgone, List.append_nil]
  exact ⟨filter_undeleted hH, rfl⟩

/-- A text with pieces missing says the same as the whole message exactly if all that is missing is the stamp. -/
lemma sameMessage_iff (hH : ∀ p ∈ H, HeadPiece p) (hend : H.flatten.getLast? = some nl)
    (hr : ∃ H' r, H = H' ++ [r] ∧ 0x72 ∈ r ∧ r.length < stamp.length) (hstamp : Stamp stamp) (hne : ∀ p ∈ B, p ≠ [])
    (hmark : (rawLines B.flatten).takeWhile (fun l => !bodyMark.isPrefixOf l) = [])
    (hW : W.Sublist H) (hR : R.Sublist B) (hS : S = [] ∨ S = [stamp]) :
    SameMessage ((W ++ S).flatten ++ R.flatten) (H.flatten ++ B.flatten) ↔ W = H ∧ R = B := by
  obtain ⟨hheader, hbody⟩ := stored_lines hH hend hmark
  rw [SameMessage, hheader, hbody, filter_undeleted hH]
  constructor
  · rintro ⟨hlines, hrest⟩
    exact pieces_of_sameMessage hH hr hstamp hne hmark hW hR hS hlines hrest
  · rintro ⟨rfl, rfl⟩
    exact stamped_lines hH hend hstamp hmark hS

end SameMessage

end HyBBX.Mail
