import HyBBX.Mains.Proxymail

/-! Where mail from a peer Main can create files. -/

namespace HyBBX.Mains

open HyBBX.Core HyBBX.Circuit Lib Lib.Bytes Lib.Text Lib.Numeral FileTree
open Mail (pathComponentValid usernameNormalize userNameMax msgFileName)

/-- A directory and what is in it at any depth. -/
def Beneath (dir path : Bytes) : Prop := path = dir ∨ dir ++ [slash] <+: path

instance (dir : Bytes) : DecidablePred (Beneath dir) := fun path =>
  inferInstanceAs (Decidable (path = dir ∨ dir ++ [slash] <+: path))

def mailRoot (root : Bytes) : Bytes := joined root proxymailDirName

def userDir (root user : Bytes) : Bytes := joined (mailRoot root) user

def inboxDir (root user : Bytes) : Bytes := joined (userDir root user) proxymailInboxName

/-- Where a message for a user may leave a trace. -/
inductive MailPlace (root user : Bytes) : Bytes → Prop
  | toRoot {path : Bytes} (h : path ∈ dirsTo (mailRoot root)) : MailPlace root user path
  | counter : MailPlace root user (joined (mailRoot root) proxymailNextFile)
  | user (h : pathComponentValid user = true) : MailPlace root user (userDir root user)
  | inbox (h : pathComponentValid user = true) : MailPlace root user (inboxDir root user)
  | message (h : pathComponentValid user = true) (id : ℕ) :
      MailPlace root user (joined (inboxDir root user) (msgFileName id))

lemma pathJoin_eq {outLen : ℕ} {base name out : Bytes} (h : pathJoin outLen base name = some out) :
    pathComponentValid name = true ∧ out = joined base name := by
  rw [pathJoin] at h
  split_ifs at h with hinvalid
  rw [not_or, Bool.not_eq_false] at hinvalid
  exact ⟨hinvalid.1, (Option.some.inj h).symm⟩

lemma slash_notMem {name : Bytes} (h : pathComponentValid name = true) : slash ∉ name := by
  intro hs
  simp only [pathComponentValid, Bool.and_eq_true, Bool.not_eq_true'] at h
  exact absurd (List.contains_iff_mem.mpr hs) (by rw [slash, h.1.2]; exact Bool.false_ne_true)

lemma proxymailRootPath_eq {root out : Bytes} (h : proxymailRootPath root = some out) : out = mailRoot root := by
  rw [proxymailRootPath] at h
  split_ifs at h
  exact (pathJoin_eq h).2

/-- Joining a name to a path that does not end in a slash. -/
lemma joined_child {base : Bytes} (name : Bytes) (hne : base ≠ []) (hlast : base.getLast? ≠ some slash) :
    joined base name = base ++ slash :: name := by
  rw [joined, if_pos ⟨hne, hlast⟩]

lemma joined_open {base name : Bytes} (h : pathComponentValid name = true) :
    joined base name ≠ [] ∧ (joined base name).getLast? ≠ some slash := by
  have hname : name ≠ [] := by
    rintro rfl
    simp [pathComponentValid] at h
  have hlast : (joined base name).getLast? = name.getLast? := by
    rw [joined]
    split_ifs
    · rw [List.append_cons, List.getLast?_append_of_ne_nil _ hname]
    · rw [List.getLast?_append_of_ne_nil _ hname]
  constructor
  · intro h0
    rw [joined, List.append_eq_nil_iff] at h0
    split_ifs at h0
    · simp at h0
    · exact hname h0.2
  · rw [hlast]
    intro hs
    exact slash_notMem h (List.mem_of_getLast? hs)

lemma mem_dirsTo_joined {base name path : Bytes} (hopen : base ≠ [] ∧ base.getLast? ≠ some slash)
    (hname : pathComponentValid name = true) (h : path ∈ dirsTo (joined base name)) :
    path ∈ dirsTo base ∨ path = joined base name := by
  rcases List.mem_append.mp h with h | h
  · rw [joined_child name hopen.1 hopen.2] at h
    exact .inl (mem_ancestors_child (slash_notMem hname) h)
  · exact .inr (List.mem_singleton.mp h)

lemma mkdirP_only (io : FileIo) (tree : FileTree) (path : Bytes) :
    Only (· ∈ dirsTo path) tree (mkdirP io tree path).2 := by
  rw [mkdirP]
  split_ifs
  · exact Only.refl _ _
  · exact mkdirAll_only io _ tree

section Receive

variable (io : FileIo) (root : Bytes)

lemma proxymailNextId_only (user : Bytes) (tree : FileTree) :
    Only (MailPlace root user) tree (proxymailNextId io root tree).2 := by
  rw [proxymailNextId]
  cases hr : proxymailRootPath root with
  | none => exact Only.refl _ _
  | some dir =>
    obtain rfl := proxymailRootPath_eq hr
    have hdirs : Only (MailPlace root user) tree (mkdirP io tree (mailRoot root)).2 :=
      (mkdirP_only io tree _).mono fun _ => .toRoot
    dsimp only
    cases hm : mkdirP io tree (mailRoot root) with
    | mk made tree' =>
      rw [hm] at hdirs
      cases made with
      | false => exact hdirs
      | true =>
        dsimp only
        cases hc : pathJoin pathMax (mailRoot root) proxymailNextFile with
        | none => exact hdirs
        | some counterPath =>
          obtain ⟨-, rfl⟩ := pathJoin_eq hc
          dsimp only
          split
          · exact hdirs
          · rename_i tree'' hw
            exact hdirs.trans ((write_only hw).mono fun _ h => h ▸ .counter)

/-- The path of an inbox can be formed for a single path component only. -/
lemma proxymailUserInboxPath_eq {user out : Bytes} (hnorm : usernameNormalize (strlcpy userNameMax user) = user)
    (h : proxymailUserInboxPath root user = some out) : pathComponentValid user = true ∧ out = inboxDir root user := by
  rw [proxymailUserInboxPath, hnorm] at h
  split_ifs at h
  simp only [Option.bind_eq_bind, Option.bind_eq_some_iff] at h
  obtain ⟨dir, hr, userPath, hu, hi⟩ := h
  obtain rfl := proxymailRootPath_eq hr
  obtain ⟨hvalid, rfl⟩ := pathJoin_eq hu
  exact ⟨hvalid, (pathJoin_eq hi).2⟩

lemma mailRoot_open : mailRoot root ≠ [] ∧ (mailRoot root).getLast? ≠ some slash :=
  joined_open (by decide +kernel)

lemma mailPlace_of_inboxDirs {user path : Bytes} (hvalid : pathComponentValid user = true)
    (h : path ∈ dirsTo (inboxDir root user)) : MailPlace root user path := by
  rcases mem_dirsTo_joined (joined_open hvalid) (by decide +kernel) h with h | rfl
  · rcases mem_dirsTo_joined (mailRoot_open root) hvalid h with h | rfl
    · exact .toRoot h
    · exact .user hvalid
  · exact .inbox hvalid

lemma proxymailStoreMessage_only {user : Bytes} (hnorm : usernameNormalize (strlcpy userNameMax user) = user)
    (tree : FileTree) (fromAddress subject body : Bytes) (now : ℕ) :
    Only (MailPlace root user) tree (proxymailStoreMessage io root tree user fromAddress subject body now).2 := by
  have hnext := proxymailNextId_only io root user tree
  rw [proxymailStoreMessage]
  cases hn : proxymailNextId io root tree with
  | mk rc tree₁ =>
    rw [hn] at hnext
    cases rc with
    | error rc => exact hnext
    | ok id =>
      dsimp only
      cases hp : proxymailUserInboxPath root user with
      | none => exact hnext
      | some inboxPath =>
        obtain ⟨hvalid, rfl⟩ := proxymailUserInboxPath_eq root hnorm hp
        have hdirs : Only (MailPlace root user) tree (mkdirP io tree₁ (inboxDir root user)).2 :=
          hnext.trans ((mkdirP_only io tree₁ _).mono fun _ => mailPlace_of_inboxDirs root hvalid)
        dsimp only
        cases hm : mkdirP io tree₁ (inboxDir root user) with
        | mk made tree₂ =>
          rw [hm] at hdirs
          cases made with
          | false => exact hdirs
          | true =>
            dsimp only
            cases hj : pathJoin pathMax (inboxDir root user) (msgFileName id) with
            | none => exact hdirs
            | some msgPath =>
              obtain ⟨-, rfl⟩ := pathJoin_eq hj
              dsimp only
              split
              · exact hdirs
              · rename_i tree₃ hw
                exact hdirs.trans ((write_only hw).mono fun _ h => h ▸ .message hvalid id)

/-- A parsed user is short and in lower case already. -/
lemma parseAddress_normal {address user remote : Bytes} (h : proxymailParseAddress address = some (user, remote)) :
    usernameNormalize (strlcpy userNameMax user) = user := by
  simp only [proxymailParseAddress] at h
  split_ifs at h with hshape hlong
  obtain ⟨rfl, -⟩ := Prod.mk.inj (Option.some.inj h)
  have hfits : (usernameNormalize (address.takeWhile (· ≠ atSign))).length < userNameMax := by
    rw [usernameNormalize, List.length_map]
    omega
  rw [strlcpy_of_fits hfits, usernameNormalize, usernameNormalize, List.map_map]
  exact List.map_congr_left fun b _ => lower_lower b

variable (localName : Bytes) (now : ℕ) (tree : FileTree)

/-- Mail from a peer leaves the files as they are, or leaves traces in the places of its recipient only. -/
theorem receivePayload_contained (payload : Bytes) :
    receivePayload io root localName now tree payload = tree ∨
      ∃ fromAddress toAddress subject body user remote,
        proxyDispatchPayload .proxyMail payload = some (.mail fromAddress toAddress subject body) ∧
        proxymailParseAddress toAddress = some (user, remote) ∧
        Only (MailPlace root user) tree (receivePayload io root localName now tree payload) := by
  rw [receivePayload]
  split
  · rename_i fromAddress toAddress subject body hd
    rw [proxymailReceive]
    split
    · exact .inl rfl
    · rename_i user remote ha
      split_ifs
      · refine .inr ⟨fromAddress, toAddress, subject, body, user, remote, hd, ha, ?_⟩
        exact proxymailStoreMessage_only io root (parseAddress_normal ha) tree _ _ _ _
      · exact .inl rfl
  · exact .inl rfl

end Receive

/-- Nothing happens, or it happens in the inbox of one user. -/
def InboxOnly (root : Bytes) (before after : FileTree) : Prop :=
  after = before ∨ ∃ user, pathComponentValid user = true ∧ Only (Beneath (inboxDir root user)) before after

def openIo : FileIo := ⟨fun _ _ => true, fun _ _ => true, fun _ _ => true⟩

def dataRoot : Bytes := ofString "/data"

def emptyData : FileTree := fun path => if path = dataRoot then some .dir else none

def mailToBob : Bytes := ofString "---\nfrom=ann@east\nto=bob@west\nsub=hi\n"

lemma inboxDir_slashes {user : Bytes} (hvalid : pathComponentValid user = true) :
    4 ≤ (inboxDir dataRoot user).count slash := by
  have huser := @joined_open (mailRoot dataRoot) user hvalid
  have hroot := mailRoot_open dataRoot
  have hcount : (mailRoot dataRoot).count slash = 2 := by decide +kernel
  rw [inboxDir, userDir, joined_child _ huser.1 huser.2, joined_child _ hroot.1 hroot.2, List.count_append,
    List.count_append,
    List.count_cons_self, List.count_cons_self, hcount]
  omega

lemma not_beneath_inbox {user path : Bytes} (hvalid : pathComponentValid user = true) (h : path.count slash < 4) :
    ¬Beneath (inboxDir dataRoot user) path := by
  have hcount := inboxDir_slashes hvalid
  rintro (rfl | hpre)
  · omega
  · have hle := hpre.sublist.count_le slash
    rw [List.count_append] at hle
    omega

/-- The counter of proxymail ids lies beside the inboxes. -/
theorem counter_outside_inbox : ¬∀ (io : FileIo) (root localName : Bytes) (now : ℕ) (tree : FileTree) (payload : Bytes),
    InboxOnly root tree (receivePayload io root localName now tree payload) := by
  intro h
  have hnew : receivePayload openIo dataRoot (ofString "west") 0 emptyData mailToBob
      (ofString "/data/proxymail/proxymail.next") ≠ emptyData (ofString "/data/proxymail/proxymail.next") := by
    decide +kernel
  rcases h openIo dataRoot (ofString "west") 0 emptyData mailToBob with hsame | ⟨user, hvalid, honly⟩
  · exact hnew (congrFun hsame _)
  · exact not_beneath_inbox hvalid (by decide +kernel) (honly _ hnew)

end HyBBX.Mains
