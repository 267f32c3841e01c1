import HyBBX.Lib.Pairs
import HyBBX.Storage.Migration
import HyBBX.Storage.RegisterStep
import HyBBX.Storage.Reread

/-! What the store holds of an account while it is migrated. -/

namespace HyBBX.Storage

open HyBBX.Core HyBBX.Config Lib Lib.Bytes Lib.Text Lib.Numeral Lib.LineReader

lemma lower_byte (b : UInt8) : lower (lower b) = lower b ∧ isSpace (lower b) = isSpace b ∧
    startsComment (lower b) = startsComment b ∧ (lower b = single ↔ b = single) ∧ (lower b = double ↔ b = double) ∧
      (lower b = nl ↔ b = nl) := by
  revert b
  apply forall_byte
  decide +kernel

lemma CText.lower_lower {size : ℕ} (t : CText size) : t.lower.lower = t.lower := by
  apply CText.ext
  have htext : t.lower.lower.text = (t.text.map lower).map lower := rfl
  rw [htext, List.map_map]
  exact List.map_congr_left fun b _ => (lower_byte b).1

lemma nl_notMem_lower {v : Bytes} (h : nl ∉ v) : nl ∉ v.map lower := by
  intro hm
  obtain ⟨b, hb, hn⟩ := List.mem_map.mp hm
  exact h ((lower_byte b).2.2.2.2.2.mp hn ▸ hb)

lemma commentFree_lower (s d : Bool) (v : Bytes) : commentFree s d (v.map lower) = commentFree s d v := by
  induction v generalizing s d with
  | nil => rfl
  | cons b v ih =>
    obtain ⟨-, -, hc, hs, hd, -⟩ := lower_byte b
    rw [List.map_cons, commentFree, commentFree, hc, ih, ih, ih]
    simp only [hs, hd]

lemma safeValue_lower {v : Bytes} (h : SafeValue v) : SafeValue (v.map lower) := by
  have hhead : ∀ {q : UInt8}, (∀ b, lower b = q ↔ b = q) → ((v.map lower).head? = some q ↔ v.head? = some q) := by
    intro q hq
    rw [List.head?_map, Option.map_eq_some_iff]
    simp only [hq, exists_eq_right]
  have hlast : ∀ {q : UInt8}, (∀ b, lower b = q ↔ b = q) →
      ((v.map lower).getLast? = some q ↔ v.getLast? = some q) := by
    intro q hq
    rw [List.getLast?_map, Option.map_eq_some_iff]
    simp only [hq, exists_eq_right]
  refine ⟨⟨?_, ?_⟩, ?_, ?_⟩
  · intro b hb
    rw [List.head?_map] at hb
    obtain ⟨c, hc, rfl⟩ := Option.map_eq_some_iff.mp hb
    rw [(lower_byte c).2.1]
    exact h.trimmed.1 c hc
  · intro b hb
    rw [List.getLast?_map] at hb
    obtain ⟨c, hc, rfl⟩ := Option.map_eq_some_iff.mp hb
    rw [(lower_byte c).2.1]
    exact h.trimmed.2 c hc
  · rw [commentFree_lower]
    exact h.uncommented
  · rw [Quoted, List.length_map, hhead fun b => (lower_byte b).2.2.2.2.1, hlast fun b => (lower_byte b).2.2.2.2.1,
      hhead fun b => (lower_byte b).2.2.2.1, hlast fun b => (lower_byte b).2.2.2.1]
    exact h.unquoted

/-- The password an account has after the migration. -/
def migratedPassword (backend : HashBackend) (password : CText userPasswordMax) : CText userPasswordMax :=
  if passwordIsPlain password.text then CText.copy (passwordHash backend password.text) else password

/-- A listed record with a nickname and a password of its own. -/
def UserRecord.carried (r : UserRecord) (nickname : CText userNicknameMax) (password : CText userPasswordMax) :
    UserRecord :=
  { r with username := r.username.lower, nickname := nickname, password := password }

/-- The record is, up to its nickname, the listed one with this password. -/
def Carries (r : UserRecord) (password : CText userPasswordMax) (c : UserRecord) : Prop :=
  ∃ nickname, nl ∉ nickname.text ∧ c = r.carried nickname password

inductive Account
  | listed (r : UserRecord)
  | sysop (u : UserRecord)
  deriving DecidableEq

namespace Account

def id : Account → ℕ
  | .listed r => r.id
  | .sysop u => u.id

/-- What a shard holds for the account, when the passwords of these accounts have been migrated. -/
def StoredAs (backend : HashBackend) (ready : List Account) : Account → UserRecord → Prop
  | .listed r, c => Carries r (if .listed r ∈ ready then migratedPassword backend r.password else r.password) c
  | .sysop u, c => c = u

/-- A listed account loses nothing in a file, and the Sysop needs no migration. -/
def Sound : Account → Prop
  | .listed r => ReadsBack r
  | .sysop u => Settled u ∧ u.nickname.text ≠ [] ∧ passwordIsPlain u.password.text = false

end Account

section Carried

variable {r c : UserRecord} {password : CText userPasswordMax}

lemma Carries.id_eq (h : Carries r password c) : c.id = r.id := by
  obtain ⟨nickname, -, rfl⟩ := h
  rfl

/-- A password that reads back. -/
def PasswordOk (password : CText userPasswordMax) : Prop := SafeValue password.text ∧ nl ∉ password.text

lemma Carries.lasting (hr : ReadsBack r) (hp : PasswordOk password) (h : Carries r password c) : Lasting c := by
  obtain ⟨nickname, hn, rfl⟩ := h
  refine ⟨hr.id_ne, fun he => hr.name_ne (List.map_eq_nil_iff.mp he), ?_, ?_⟩
  · intro f
    cases f with
    | username => exact nl_notMem_lower (hr.oneLine .username)
    | nickname => exact hn
    | password => exact hp.2
    | id => exact hr.oneLine .id
    | level => exact hr.oneLine .level
    | active => exact hr.oneLine .active
    | created => exact hr.oneLine .created
    | fullname => exact hr.oneLine .fullname
    | country => exact hr.oneLine .country
    | location => exact hr.oneLine .location
    | email => exact hr.oneLine .email
    | lastLogin => exact hr.oneLine .lastLogin
  · intro f hne
    cases f with
    | username => exact safeValue_lower (hr.safe .username)
    | nickname => exact absurd rfl hne
    | password => exact hp.1
    | id => exact hr.safe .id
    | level => exact hr.safe .level
    | active => exact hr.safe .active
    | created => exact hr.safe .created
    | fullname => exact hr.safe .fullname
    | country => exact hr.safe .country
    | location => exact hr.safe .location
    | email => exact hr.safe .email
    | lastLogin => exact hr.safe .lastLogin

lemma Carries.normalize (h : Carries r password c) : Carries r password c.normalize := by
  obtain ⟨nickname, hn, rfl⟩ := h
  refine ⟨nickname, hn, ?_⟩
  rw [UserRecord.normalize, UserRecord.carried]
  dsimp only
  rw [CText.lower_lower]

lemma Carries.withNickname (h : Carries r password c) {nickname : CText userNicknameMax} (hn : nl ∉ nickname.text) :
    Carries r password { c with nickname := nickname } := by
  obtain ⟨old, -, rfl⟩ := h
  exact ⟨nickname, hn, rfl⟩

end Carried

section Stored

variable {backend : HashBackend} (hb : HexDigests backend)

lemma ReadsBack.lasting {u : UserRecord} (h : ReadsBack u) : Lasting u :=
  ⟨h.id_ne, h.name_ne, h.oneLine, fun f _ => h.safe f⟩

include hb

lemma passwordOk_migrated {password : CText userPasswordMax} (h : PasswordOk password) :
    PasswordOk (migratedPassword backend password) := by
  rw [migratedPassword]
  split_ifs
  · exact ⟨safeValue_of_plain (plain_copy_hash hb _), nl_notMem_of_plain (plain_copy_hash hb _)⟩
  · exact h

namespace Account

variable {ready : List Account} {b : Account} {c : UserRecord}

omit hb in
lemma StoredAs.id_eq (h : b.StoredAs backend ready c) : c.id = b.id := by
  cases b with
  | listed r => exact Carries.id_eq h
  | sysop u => exact congrArg UserRecord.id h

lemma StoredAs.lasting (hs : b.Sound) (h : b.StoredAs backend ready c) : Lasting c := by
  cases b with
  | listed r =>
    have hr : ReadsBack r := hs
    have hgiven : PasswordOk r.password := ⟨hr.safe .password, hr.oneLine .password⟩
    refine Carries.lasting hr ?_ h
    split_ifs
    · exact passwordOk_migrated hb hgiven
    · exact hgiven
  | sysop u =>
    obtain rfl : c = u := h
    exact hs.1.toReadsBack.lasting

/-- Written and loaded, the record is still what the shard holds for the account. -/
lemma StoredAs.loaded (hs : b.Sound) (h : b.StoredAs backend ready c) :
    b.StoredAs backend ready c.reread.normalize := by
  have hlast := h.lasting hb hs
  rw [hlast.reread]
  cases b with
  | listed r =>
    have hn : nl ∉ (CText.reread c.nickname).text := by
      rw [CText.reread_text]
      exact fun hm => hlast.oneLine .nickname (readValue_subset _ hm)
    exact (Carries.withNickname h hn).normalize
  | sysop u =>
    obtain rfl : c = u := h
    rw [CText.reread_of_safe (hs.1.safe .nickname)]
    exact hs.1.lower

omit hb in
/-- For an account it is all one whose password besides its own has been migrated. -/
lemma StoredAs.congr {ready' : List Account} (hr : b ∈ ready' ↔ b ∈ ready) (h : b.StoredAs backend ready c) :
    b.StoredAs backend ready' c := by
  cases b with
  | listed r =>
    rw [StoredAs, if_congr hr rfl rfl]
    exact h
  | sysop u => exact h

end Account

end Stored

end HyBBX.Storage
