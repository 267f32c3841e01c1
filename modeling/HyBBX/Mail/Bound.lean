import HyBBX.Lib.Rank
import HyBBX.Mail.Header
import HyBBX.Mail.Inbox

/-! What trimming leaves of an inbox. -/

namespace HyBBX.Mail

open HyBBX.Core Lib Lib.Bytes Lib.Text Lib.Numeral Lib.LineReader Config

/-- Files the program wrote, each under its own name. -/
def DirOk (dir : Dir) : Prop := (dir.map MsgFile.name).Nodup ∧ ∀ file ∈ dir, ∃ id now, Stored id now file

def entryOf (file : MsgFile) : MailEntry := (loadEntry file).getD ⟨0, [], [], 0, false⟩

/-- Whether one message comes before another in a listing, newest first. -/
def Before (a b : MailEntry) : Prop := mailEntryCompare a b < 0

instance : DecidableRel Before := fun a b => inferInstanceAs (Decidable (mailEntryCompare a b < 0))

lemma before_iff {a b : MailEntry} :
    Before a b ↔ b.receivedAt < a.receivedAt ∨ a.receivedAt = b.receivedAt ∧ b.id < a.id := by
  rw [Before, mailEntryCompare]
  split_ifs <;> omega

lemma before_asymm (a b : MailEntry) (h : Before a b) : ¬Before b a := by
  rw [before_iff] at h ⊢
  omega

lemma compare_le_iff {a b : MailEntry} : mailEntryCompare a b ≤ 0 ↔ ¬Before b a := by
  rw [before_iff, mailEntryCompare]
  split_ifs <;> omega

instance : Std.Total fun a b : MailEntry => mailEntryCompare a b ≤ 0 where
  total a b := by
    rw [compare_le_iff, compare_le_iff, before_iff, before_iff]
    omega

instance : IsTrans MailEntry fun a b => mailEntryCompare a b ≤ 0 where
  trans a b c hab hbc := by
    rw [compare_le_iff, before_iff] at *
    omega

section Dir

variable {dir : Dir} (h : DirOk dir)
include h

lemma loadEntry_eq {file : MsgFile} (hf : file ∈ dir) :
    loadEntry file = some (entryOf file) ∧ msgFileName (entryOf file).id = file.name := by
  obtain ⟨id, now, hs⟩ := h.2 file hf
  obtain ⟨entry, hl, rfl, -⟩ := loadEntry_stored hs
  rw [entryOf, hl]
  exact ⟨rfl, hs.2.2.1.symm⟩

lemma filterMap_loadEntry (order : DirOrder) :
    (order.list dir).filterMap loadEntry = (order.list dir).map entryOf := by
  rw [← List.filterMap_eq_map]
  apply List.filterMap_congr
  intro file hf
  exact (loadEntry_eq h ((order.perm dir).mem_iff.mp hf)).1

lemma nodup_ids : ((dir.map entryOf).map MailEntry.id).Nodup := by
  have hnames : ((dir.map entryOf).map MailEntry.id).map msgFileName = dir.map MsgFile.name := by
    rw [List.map_map, List.map_map]
    apply List.map_congr_left
    intro file hf
    exact (loadEntry_eq h hf).2
  exact List.Nodup.of_map msgFileName (hnames ▸ h.1)

omit h in
lemma foldl_remove (entries : List MailEntry) (dir : Dir) :
    entries.foldl (fun dir entry => dir.remove (msgFileName entry.id)) dir =
      dir.filter fun file => file.name ∉ entries.map fun entry => msgFileName entry.id := by
  induction entries generalizing dir with
  | nil => simp
  | cons entry entries ih =>
    rw [List.foldl_cons, ih, Dir.remove, List.filter_filter]
    apply List.filter_congr
    intro file _
    simp [not_or, Bool.and_comm]

omit h in
lemma mailTrimInbox_eq (maxMessages : ℕ) (order : DirOrder) (dir : Dir) :
    mailTrimInbox maxMessages order dir = dir.filter fun file => file.name ∉
      ((loadInbox (order.list dir) mailMaxMessages).drop maxMessages).map fun entry => msgFileName entry.id := by
  rw [mailTrimInbox]
  split_ifs with hle
  · rw [List.drop_eq_nil_of_le hle]
    simp
  · exact foldl_remove _ dir

omit h in
lemma mailTrimInbox_sublist (maxMessages : ℕ) (order : DirOrder) (dir : Dir) :
    (mailTrimInbox maxMessages order dir).Sublist dir := by
  rw [mailTrimInbox_eq]
  exact List.filter_sublist

/-- An inbox that fits the loader's array is loaded as a whole, newest first. -/
lemma loadInbox_sorted (order : DirOrder) (hfit : dir.length ≤ mailMaxMessages) :
    (dir.map entryOf).Perm (loadInbox (order.list dir) mailMaxMessages) ∧
      (loadInbox (order.list dir) mailMaxMessages).Pairwise Before := by
  have hall : ((order.list dir).filterMap loadEntry).take mailMaxMessages = (order.list dir).map entryOf := by
    rw [filterMap_loadEntry h, List.take_of_length_le]
    rw [List.length_map, (order.perm dir).length_eq]
    exact hfit
  have hperm : (dir.map entryOf).Perm (loadInbox (order.list dir) mailMaxMessages) := by
    rw [loadInbox, hall]
    exact ((order.perm dir).symm.map entryOf).trans (List.perm_insertionSort _ _).symm
  refine ⟨hperm, ?_⟩
  have hnodup : ((loadInbox (order.list dir) mailMaxMessages).map MailEntry.id).Nodup :=
    (hperm.map MailEntry.id).nodup_iff.mp (nodup_ids h)
  have hsorted := List.pairwise_insertionSort (fun a b => mailEntryCompare a b ≤ 0)
    (((order.list dir).filterMap loadEntry).take mailMaxMessages)
  have hne : (loadInbox (order.list dir) mailMaxMessages).Pairwise fun a b => a.id ≠ b.id := List.pairwise_map.mp hnodup
  refine (hsorted.and hne).imp fun {a b} hab => ?_
  have hcmp := compare_le_iff.mp hab.1
  have hid := hab.2
  rw [before_iff] at hcmp ⊢
  omega

/-- Trimming keeps the messages with fewer than `maxMessages` newer ones. -/
lemma mem_mailTrimInbox (maxMessages : ℕ) (order : DirOrder) (hfit : dir.length ≤ mailMaxMessages) {file : MsgFile} :
    file ∈ mailTrimInbox maxMessages order dir ↔
      file ∈ dir ∧ (dir.countP fun other => Before (entryOf other) (entryOf file)) < maxMessages := by
  obtain ⟨hperm, hsorted⟩ := loadInbox_sorted h order hfit
  have hrank := Rank.mem_take_iff before_asymm hsorted hperm maxMessages (entryOf file)
  rw [List.countP_map] at hrank
  rw [mailTrimInbox_eq, List.mem_filter, decide_eq_true_eq]
  refine and_congr_right fun hf => ?_
  have hmem : entryOf file ∈ dir.map entryOf := List.mem_map_of_mem hf
  have hname : file.name ∈ ((loadInbox (order.list dir) mailMaxMessages).drop maxMessages).map
      (fun entry => msgFileName entry.id) ↔
          entryOf file ∈ (loadInbox (order.list dir) mailMaxMessages).drop maxMessages := by
    constructor
    · intro hn
      obtain ⟨entry, he, hen⟩ := List.mem_map.mp hn
      obtain ⟨other, hother, rfl⟩ := List.mem_map.mp (hperm.mem_iff.mpr (List.mem_of_mem_drop he))
      rw [(loadEntry_eq h hother).2] at hen
      obtain rfl := List.inj_on_of_nodup_map h.1 hother hf hen
      exact he
    · intro he
      exact List.mem_map.mpr ⟨_, he, (loadEntry_eq h hf).2⟩
  have hnodup : (loadInbox (order.list dir) mailMaxMessages).Nodup :=
    List.Nodup.of_map MailEntry.id ((hperm.map MailEntry.id).nodup_iff.mp (nodup_ids h))
  have hsplit : entryOf file ∉ (loadInbox (order.list dir) mailMaxMessages).drop maxMessages ↔
      entryOf file ∈ (loadInbox (order.list dir) mailMaxMessages).take maxMessages := by
    have hin := hperm.mem_iff.mp hmem
    have hdisj := List.disjoint_take_drop hnodup (le_refl maxMessages)
    rw [← List.take_append_drop maxMessages (loadInbox (order.list dir) mailMaxMessages), List.mem_append] at hin
    exact ⟨fun hn => hin.resolve_right hn, fun ht hd => hdisj ht hd⟩
  rw [hname, hsplit, hrank]
  exact ⟨fun hh => hh.2, fun hh => ⟨hmem, hh⟩⟩

lemma length_mailTrimInbox_le (maxMessages : ℕ) (order : DirOrder) (hfit : dir.length ≤ mailMaxMessages) :
    (mailTrimInbox maxMessages order dir).length ≤ maxMessages := by
  obtain ⟨hperm, hsorted⟩ := loadInbox_sorted h order hfit
  have hsub : (mailTrimInbox maxMessages order dir).map entryOf ⊆
      (loadInbox (order.list dir) mailMaxMessages).take maxMessages := by
    intro entry he
    obtain ⟨file, hf, rfl⟩ := List.mem_map.mp he
    obtain ⟨hdir, hlt⟩ := (mem_mailTrimInbox h maxMessages order hfit).mp hf
    rw [Rank.mem_take_iff before_asymm hsorted hperm, List.countP_map]
    exact ⟨List.mem_map_of_mem hdir, hlt⟩
  have hnodup : ((mailTrimInbox maxMessages order dir).map entryOf).Nodup :=
    (List.Nodup.of_map MailEntry.id (nodup_ids h)).sublist ((mailTrimInbox_sublist maxMessages order dir).map entryOf)
  calc (mailTrimInbox maxMessages order dir).length
      = ((mailTrimInbox maxMessages order dir).map entryOf).length := (List.length_map _).symm
    _ ≤ ((loadInbox (order.list dir) mailMaxMessages).take maxMessages).length := (hnodup.subperm hsub).length_le
    _ ≤ maxMessages := List.length_take_le _ _

/-- Of a larger inbox no more than the loader's array holds is looked at. -/
lemma length_le_mailTrimInbox (maxMessages : ℕ) (order : DirOrder) :
    dir.length ≤ (mailTrimInbox maxMessages order dir).length + (mailMaxMessages - maxMessages) := by
  set names := ((loadInbox (order.list dir) mailMaxMessages).drop maxMessages).map fun entry => msgFileName entry.id
  have hnames : names.length ≤ mailMaxMessages - maxMessages := by
    rw [List.length_map, List.length_drop, loadInbox, List.length_insertionSort]
    exact Nat.sub_le_sub_right (List.length_take_le _ _) _
  have hgone : (dir.filter fun file => file.name ∈ names).length ≤ names.length := by
    have hsub : (dir.filter fun file => file.name ∈ names).map MsgFile.name ⊆ names := by
      intro name hn
      obtain ⟨file, hf, rfl⟩ := List.mem_map.mp hn
      simpa using (List.mem_filter.mp hf).2
    have hnodup : ((dir.filter fun file => file.name ∈ names).map MsgFile.name).Nodup :=
      h.1.sublist (List.filter_sublist.map _)
    have := (hnodup.subperm hsub).length_le
    rwa [List.length_map] at this
  have hpart := List.length_eq_length_filter_add (l := dir) fun file => decide (file.name ∈ names)
  have hkept : (mailTrimInbox maxMessages order dir).length =
      (dir.filter fun file => !decide (file.name ∈ names)).length := by
    rw [mailTrimInbox_eq]
    congr 1
    apply List.filter_congr
    intro file _
    simp [names]
  omega

end Dir

/-! The bound on an inbox after a delivery. -/

/-- What is kept of an inbox is bounded, newer than what is not, and has the new message. -/
structure InboxBound (maxMessages : ℕ) (fresh : MsgFile) (stored kept : Dir) : Prop where
  bounded : kept.length ≤ maxMessages
  newest : ∀ a ∈ kept, ∀ b ∈ stored, b ∉ kept → Before (entryOf a) (entryOf b)
  delivered : fresh ∈ kept

/-- The messages that stay beside one with the next id. -/
def others (st : MailState) (inbox : Bytes) : Dir := (st.inbox inbox).remove (msgFileName (mailNextId st))

/-- Whether a stored message is newer than one delivered now. -/
def NewerThan (st : MailState) (now : Moment) (other : MsgFile) : Prop :=
  now.secs < (entryOf other).receivedAt ∨
    (entryOf other).receivedAt = now.secs ∧ mailNextId st < (entryOf other).id

instance (st : MailState) (now : Moment) : DecidablePred (NewerThan st now) := fun other =>
  inferInstanceAs (Decidable (now.secs < (entryOf other).receivedAt ∨
    (entryOf other).receivedAt = now.secs ∧ mailNextId st < (entryOf other).id))

/-- The loader's array holds the inbox with the new message, and the message is among the newest. -/
def HasRoom (maxMessages : ℕ) (st : MailState) (inbox : Bytes) (now : Moment) : Prop :=
  (others st inbox).length < mailMaxMessages ∧ (others st inbox).countP (NewerThan st now) < maxMessages

section Run

variable (cfg : MailConfig) (resolveUser : Bytes → Except HybbxResult UserRecord)

def DeliveryBounded (st : MailState) : MailOp → Prop
  | .deliver letter toUser now order => ∀ recipient inbox st',
    mailRecipient cfg resolveUser letter toUser = .ok (recipient, inbox) →
      mailDeliver cfg resolveUser st letter toUser now order = .ok st' →
        InboxBound cfg.maxMessages (freshFile st letter recipient now)
          ((st.inbox inbox).write (freshFile st letter recipient now)) (st'.inbox inbox)
  | _ => True

def DeliveryHasRoom (st : MailState) : MailOp → Prop
  | .deliver letter toUser now _ => ∀ recipient inbox,
    mailRecipient cfg resolveUser letter toUser = .ok (recipient, inbox) → HasRoom cfg.maxMessages st inbox now
  | _ => True

end Run

def StateOk (st : MailState) : Prop := ∀ inbox, DirOk (st.inbox inbox)

lemma mailNextId_le (st : MailState) : mailNextId st ≤ ulongMax := by
  rw [mailNextId, ulongMax]
  omega

lemma dirOk_sublist {a b : Dir} (h : DirOk b) (hs : a.Sublist b) : DirOk a :=
  ⟨h.1.sublist (hs.map _), fun file hf => h.2 file (hs.subset hf)⟩

lemma dirOk_write {dir : Dir} (h : DirOk dir) {file : MsgFile} {id now : ℕ} (hf : Stored id now file) :
    DirOk (dir.write file) := by
  have hrem := dirOk_sublist h (a := dir.remove file.name) List.filter_sublist
  refine ⟨?_, fun other ho => ?_⟩
  · rw [Dir.write, List.map_append, List.map_singleton, List.nodup_append]
    refine ⟨hrem.1, List.nodup_singleton _, ?_⟩
    rintro name hname _ hmem rfl
    obtain ⟨other, ho, rfl⟩ := List.mem_map.mp hname
    have := (List.mem_filter.mp ho).2
    rw [List.mem_singleton.mp hmem] at this
    simp at this
  · rcases List.mem_append.mp ho with ho | ho
    · exact hrem.2 other ho
    · rw [List.mem_singleton.mp ho]
      exact ⟨id, now, hf⟩

lemma dirOk_rewrite {dir : Dir} (h : DirOk dir) (name : Bytes) : DirOk (dir.rewrite name markRead) := by
  have hnames : (dir.rewrite name markRead).map MsgFile.name = dir.map MsgFile.name := by
    rw [Dir.rewrite, List.map_map]
    apply List.map_congr_left
    intro file _
    rw [Function.comp_apply]
    split_ifs <;> rfl
  refine ⟨hnames ▸ h.1, fun file hf => ?_⟩
  obtain ⟨old, hold, rfl⟩ := List.mem_map.mp hf
  obtain ⟨id, now, hs⟩ := h.2 old hold
  split_ifs
  · exact ⟨id, now, stored_markRead hs⟩
  · exact ⟨id, now, hs⟩

lemma stateOk_update {st : MailState} (h : StateOk st) {dir : Dir} (hd : DirOk dir) (inbox : Bytes) (next : ℕ) :
    StateOk ⟨next, Function.update st.inbox inbox dir⟩ := by
  intro other
  dsimp only
  rw [Function.update_apply]
  split_ifs
  · exact hd
  · exact h other

section Step

variable {cfg : MailConfig} {resolveUser : Bytes → Except HybbxResult UserRecord} {st : MailState}

lemma stored_freshFile {letter : Letter} {toUser inbox : Bytes} {recipient : UserRecord}
    (hsub : cfg.subjectMax ≤ mailSubjectMax) (hr : mailRecipient cfg resolveUser letter toUser = .ok (recipient, inbox))
    (st : MailState) (now : Moment) : Stored (mailNextId st) now.secs (freshFile st letter recipient now) := by
  apply stored_msgText letter (mailNextId_le st) now.fits recipient.fits
  rw [mailRecipient] at hr
  split_ifs at hr with hen hlen
  exact le_trans (not_lt.mp (not_or.mp hlen).1) hsub

lemma mailDeliver_inbox {letter : Letter} {toUser inbox : Bytes} {recipient : UserRecord}
    (hr : mailRecipient cfg resolveUser letter toUser = .ok (recipient, inbox)) (st : MailState) (now : Moment)
    (order : DirOrder) : ∃ st', mailDeliver cfg resolveUser st letter toUser now order = .ok st' ∧
      st'.inbox inbox =
        mailTrimInbox cfg.maxMessages order ((st.inbox inbox).write (freshFile st letter recipient now)) := by
  refine ⟨_, by rw [mailDeliver, hr]; rfl, ?_⟩
  dsimp only
  rw [Function.update_self]

/-- Trimming is right exactly if the loader's array holds the inbox and the new message is among the newest. -/
lemma trim_bound_iff {maxMessages : ℕ} (hmax : maxMessages ≤ mailMaxMessages) (h : StateOk st) (order : DirOrder)
    {inbox : Bytes} {letter : Letter} {recipient : UserRecord} {now : Moment}
    (hf : Stored (mailNextId st) now.secs (freshFile st letter recipient now)) :
    InboxBound maxMessages (freshFile st letter recipient now)
        ((st.inbox inbox).write (freshFile st letter recipient now))
        (mailTrimInbox maxMessages order ((st.inbox inbox).write (freshFile st letter recipient now))) ↔
      HasRoom maxMessages st inbox now := by
  set fresh := freshFile st letter recipient now
  have hwrite : (st.inbox inbox).write fresh = others st inbox ++ [fresh] := rfl
  have hdir := dirOk_write (h inbox) hf
  have hlen : ((st.inbox inbox).write fresh).length = (others st inbox).length + 1 := by
    rw [hwrite, List.length_append, List.length_singleton]
  have hcount : ((st.inbox inbox).write fresh).countP (fun other => Before (entryOf other) (entryOf fresh)) =
      (others st inbox).countP (NewerThan st now) := by
    obtain ⟨entry, hl, hid, htime⟩ := loadEntry_stored hf
    have hentry : entryOf fresh = entry := by rw [entryOf, hl, Option.getD_some]
    have hself : ¬Before (entryOf fresh) (entryOf fresh) := fun hh => before_asymm _ _ hh hh
    rw [hwrite, List.countP_append, List.countP_singleton, decide_eq_false hself, if_neg Bool.false_ne_true,
      Nat.add_zero]
    apply List.countP_congr
    intro other _
    rw [decide_eq_true_eq, decide_eq_true_eq, before_iff, hentry, hid, htime, NewerThan]
  constructor
  · intro hb
    by_cases hfit : (others st inbox).length < mailMaxMessages
    · refine ⟨hfit, ?_⟩
      rw [← hcount]
      exact ((mem_mailTrimInbox hdir maxMessages order (by omega)).mp hb.delivered).2
    · have := hb.bounded
      have := length_le_mailTrimInbox hdir maxMessages order
      omega
  · rintro ⟨hfit, hroom⟩
    rw [← hcount] at hroom
    have hmem := fun file => @mem_mailTrimInbox _ hdir maxMessages order (by omega) file
    refine ⟨length_mailTrimInbox_le hdir maxMessages order (by omega), ?_, ?_⟩
    · intro a ha b hb hgone
      by_contra hab
      -- whatever is before b is before a, so b has no more newer ones than a
      have hle : ((st.inbox inbox).write fresh).countP (fun other => Before (entryOf other) (entryOf b)) ≤
          ((st.inbox inbox).write fresh).countP fun other => Before (entryOf other) (entryOf a) := by
        apply List.countP_mono_left
        intro other _ ho
        rw [decide_eq_true_eq, before_iff] at ho ⊢
        rw [before_iff] at hab
        omega
      exact hgone ((hmem b).mpr ⟨hb, lt_of_le_of_lt hle ((hmem a).mp ha).2⟩)
    · exact (hmem fresh).mpr ⟨by rw [hwrite]; simp, hroom⟩

lemma mailStep_ok (hsub : cfg.subjectMax ≤ mailSubjectMax) (h : StateOk st) (op : MailOp) :
    StateOk (mailStep cfg resolveUser st op) := by
  cases op with
  | deliver letter toUser now order =>
    rw [mailStep, mailOp, mailDeliver]
    cases hr : mailRecipient cfg resolveUser letter toUser with
    | error rc => exact h
    | ok r =>
      apply stateOk_update h
      exact dirOk_sublist (dirOk_write (h r.2) (stored_freshFile hsub hr st now)) (mailTrimInbox_sublist _ _ _)
  | read username listIndex order =>
    rw [mailStep, mailOp, mailRead]
    by_cases hen : cfg.enabled = false
    · rwa [if_pos hen]
    · rw [if_neg hen]
      cases mailUserInboxPath username with
      | error rc => exact h
      | ok inbox =>
        simp only [Except.map]
        split_ifs
        · exact h
        · cases (loadInbox (order.list (st.inbox inbox)) mailMaxMessages)[listIndex - 1]? with
          | none => exact h
          | some entry => exact stateOk_update h (dirOk_rewrite (h inbox) _) inbox _
  | deleteRange username first last order =>
    rw [mailStep, mailOp, mailDeleteRange]
    dsimp only
    by_cases hen : cfg.enabled = false
    · rwa [if_pos hen]
    · rw [if_neg hen]
      by_cases hrange : first = 0 ∨ (if last = 0 then first else last) < first
      · rwa [if_pos hrange]
      · rw [if_neg hrange]
        cases mailUserInboxPath username with
        | error rc => exact h
        | ok inbox =>
          simp only [Except.map]
          split_ifs
          all_goals first | exact h | (rw [foldl_remove]; exact stateOk_update h (dirOk_sublist (h inbox) List.filter_sublist) inbox _)

/-- A delivery keeps the bound exactly if there is room for it. -/
lemma delivery_bounded_iff (hsub : cfg.subjectMax ≤ mailSubjectMax) (hmax : cfg.maxMessages ≤ mailMaxMessages)
    (h : StateOk st) (op : MailOp) : DeliveryBounded cfg resolveUser st op ↔ DeliveryHasRoom cfg resolveUser st op := by
  cases op with
  | deliver letter toUser now order =>
    refine forall₂_congr fun recipient inbox => ?_
    constructor
    · intro hall hr
      obtain ⟨st', hd, hinbox⟩ := mailDeliver_inbox hr st now order
      have hb := hall st' hr hd
      rw [hinbox] at hb
      exact (trim_bound_iff hmax h order (stored_freshFile hsub hr st now)).mp hb
    · intro hroom st' hr hd
      obtain ⟨st'', hd', hinbox⟩ := mailDeliver_inbox hr st now order
      obtain rfl := Except.ok.inj (hd.symm.trans hd')
      rw [hinbox]
      exact (trim_bound_iff hmax h order (stored_freshFile hsub hr st now)).mpr (hroom hr)
  | _ => exact Iff.rfl

end Step

/-! The bound on every inbox over runs of deliveries, reads and deletions. -/

section Run

variable {cfg : MailConfig} {resolveUser : Bytes → Except HybbxResult UserRecord}

/-- A property of every step of a run. -/
def Throughout (cfg : MailConfig) (resolveUser : Bytes → Except HybbxResult UserRecord)
    (P : MailState → MailOp → Prop) : MailState → List MailOp → Prop
  | _, [] => True
  | st, op :: ops => P st op ∧ Throughout cfg resolveUser P (mailStep cfg resolveUser st op) ops

lemma throughout_iff (hsub : cfg.subjectMax ≤ mailSubjectMax) (hmax : cfg.maxMessages ≤ mailMaxMessages)
    (ops : List MailOp) {st : MailState} (h : StateOk st) :
    Throughout cfg resolveUser (DeliveryBounded cfg resolveUser) st ops ↔
      Throughout cfg resolveUser (DeliveryHasRoom cfg resolveUser) st ops := by
  induction ops generalizing st with
  | nil => exact Iff.rfl
  | cons op ops ih => exact and_congr (delivery_bounded_iff hsub hmax h op) (ih (mailStep_ok hsub h op))

end Run

/-- Every delivery of a run leaves a bounded inbox of the newest messages exactly if each finds room. -/
theorem inbox_bound_iff (config : HybbxConfig) (resolveUser : Bytes → Except HybbxResult UserRecord)
    (ops : List MailOp) :
    let cfg := mailConfigApply config
    Throughout cfg resolveUser (DeliveryBounded cfg resolveUser) MailState.start ops ↔
      Throughout cfg resolveUser (DeliveryHasRoom cfg resolveUser) MailState.start ops := by
  intro cfg
  have hsub : cfg.subjectMax ≤ mailSubjectMax := (configGetUint_mem (by decide) (le_refl _)).2
  have hmax : cfg.maxMessages ≤ mailMaxMessages := (configGetUint_mem (by decide) (le_refl _)).2
  exact throughout_iff hsub hmax ops fun inbox => ⟨List.nodup_nil, by simp [MailState.start]⟩

/-- An account for every name. -/
def everyUser (name : Bytes) : Except HybbxResult UserRecord :=
  if h : name.length < userNameMax ∧ nl ∉ name ∧ 0 ∉ name then .ok ⟨name, false, true, h⟩ else .error .errNotFound

def ann : UserRecord := ⟨ofString "ann", false, true, ann_named⟩

def greeting : Letter := ⟨ofString "bob", ofString "hi", ofString "73", bob_fits, bob_line, hi_line, regards_string⟩

def sendGreeting : MailOp := .deliver greeting (ofString "ann") ⟨0, Nat.zero_le _⟩ .asFound

def greetingFile (id : ℕ) : MsgFile := ⟨msgFileName id, msgText id greeting (ofString "ann") 0⟩

/-- The state behind `n` greetings. -/
def greeted (n : ℕ) : MailState :=
  ⟨n, Function.update MailState.start.inbox (ofString "ann") ((List.range n).map fun i => greetingFile (i + 1))⟩

lemma greeted_inbox (n : ℕ) :
    (greeted n).inbox (ofString "ann") = (List.range n).map fun i => greetingFile (i + 1) := by
  rw [greeted]
  dsimp only
  rw [Function.update_self]

lemma mailNextId_greeted {n : ℕ} (h : n ≤ 50) : mailNextId (greeted n) = n + 1 :=
  Nat.mod_eq_of_lt (by rw [greeted]; dsimp only; omega)

lemma others_greeted {n : ℕ} (h : n ≤ 50) : others (greeted n)
    (ofString "ann") = (greeted n).inbox (ofString "ann") := by
  rw [others, Dir.remove, List.filter_eq_self, mailNextId_greeted h, greeted_inbox]
  intro file hf
  obtain ⟨i, hi, rfl⟩ := List.mem_map.mp hf
  have hlt := List.mem_range.mp hi
  rw [decide_eq_true_eq]
  intro he
  have := msgFileName_injective (by rw [ulongMax]; omega) (by rw [ulongMax]; omega) he
  omega

/-- With the default limit nothing is ever trimmed. -/
lemma mailTrimInbox_default (order : DirOrder) (dir : Dir) : mailTrimInbox mailMaxMessages order dir = dir := by
  rw [mailTrimInbox, if_pos]
  rw [loadInbox, List.length_insertionSort]
  exact List.length_take_le _ _

lemma greeted_step {n : ℕ} (h : n ≤ 50) :
    mailStep (mailConfigApply []) everyUser (greeted n) sendGreeting = greeted (n + 1) := by
  have hr : mailRecipient (mailConfigApply []) everyUser greeting (ofString "ann") = .ok (ann, ofString "ann") := rfl
  have hmax : (mailConfigApply []).maxMessages = mailMaxMessages := by decide
  have hfresh : freshFile (greeted n) greeting ann ⟨0, Nat.zero_le _⟩ = greetingFile (n + 1) := by
    rw [freshFile, mailNextId_greeted h]
    rfl
  have hdir : ((greeted n).inbox (ofString "ann")).write (greetingFile (n + 1)) =
      (List.range (n + 1)).map fun i => greetingFile (i + 1) := by
    have ho := others_greeted h
    rw [others, mailNextId_greeted h] at ho
    rw [Dir.write, List.range_succ, List.map_append, ← greeted_inbox, List.map_singleton]
    exact congrArg (· ++ _) ho
  rw [mailStep, sendGreeting, mailOp, mailDeliver, hr]
  simp only [Except.map]
  rw [hmax, mailTrimInbox_default, hfresh, hdir, mailNextId_greeted h, greeted, greeted, Function.update_idem]

lemma greeted_run {P : MailState → MailOp → Prop} {n m : ℕ} (h : n + m ≤ 50)
    (hall : Throughout (mailConfigApply []) everyUser P (greeted n) (List.replicate (m + 1) sendGreeting)) :
    P (greeted (n + m)) sendGreeting := by
  induction m generalizing n with
  | zero => exact hall.1
  | succ m ih =>
    rw [List.replicate_succ, Throughout, greeted_step (by omega)] at hall
    have := ih (n := n + 1) (by omega) hall.2
    rwa [show n + 1 + m = n + (m + 1) by omega] at this

/-- The fifty-first message stays beside fifty others. -/
theorem inbox_overflows : (mailConfigApply []).maxMessages = 50 ∧
    ¬Throughout (mailConfigApply []) everyUser (DeliveryBounded (mailConfigApply []) everyUser)
      MailState.start (List.replicate 51 sendGreeting) := by
  refine ⟨by decide, fun hall => ?_⟩
  have hok : StateOk MailState.start := fun inbox => ⟨List.nodup_nil, by simp [MailState.start]⟩
  rw [throughout_iff (by decide) (by decide) _ hok] at hall
  have hstart : MailState.start = greeted 0 := by
    rw [greeted, List.range_zero, List.map_nil]
    exact congrArg _ (Function.update_eq_self _ _).symm
  rw [hstart] at hall
  have hroom := greeted_run (n := 0) (m := 50) (by omega) hall ann (ofString "ann") rfl
  have hlen := hroom.1
  rw [others_greeted (by omega), greeted_inbox, List.length_map, List.length_range] at hlen
  exact absurd hlen (by decide)

end HyBBX.Mail
