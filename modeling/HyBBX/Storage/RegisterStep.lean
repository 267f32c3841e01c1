import HyBBX.Storage.StoreSteps

/-! Registering a user on the files and on the map. -/

namespace HyBBX.Storage

open HyBBX.Core HyBBX.Config Lib Lib.Bytes Lib.Text Lib.Numeral Lib.LineReader

variable {dir : UsersDir} {uss : List (List UserRecord)} {m : UserMap}

lemma CText.copy_subset {size : ℕ} [NeZero size] (src : Bytes) : (CText.copy src : CText size).text ⊆ src :=
  List.Subset.trans (List.take_subset _ _) (List.takeWhile_subset _)

lemma plainByte_hex {b : UInt8} (h : hexDigit b = true) : plainByte b = true := by
  revert h
  revert b
  apply forall_byte
  decide +kernel

/-- The digest functions give what the stored form of a password has room for. -/
def HexDigests (backend : HashBackend) : Prop := ∀ plain, hexStringValid (backend.sha256Hex plain) 64 = true

lemma plain_copy_hash {backend : HashBackend} (hb : HexDigests backend) (plain : Bytes) :
    ∀ b ∈ (CText.copy (passwordHash backend plain) : CText userPasswordMax).text, plainByte b = true := by
  intro b hm
  have hhash := CText.copy_subset _ hm
  rw [passwordHash, List.mem_append] at hhash
  rcases hhash with hpre | hhex
  · have hall : ∀ c ∈ passwordSha256Prefix, plainByte c = true := by decide +kernel
    exact hall b hpre
  · have hvalid := hb plain
    rw [hexStringValid, Bool.and_eq_true, List.all_eq_true] at hvalid
    exact plainByte_hex (hvalid.2 b hhex)

lemma plain_registeredPassword {backend : HashBackend} (hb : HexDigests backend) {plain : Bytes}
    {password : CText userPasswordMax} (h : registeredPassword backend plain = some password) :
    ∀ b ∈ password.text, plainByte b = true := by
  rw [registeredPassword] at h
  split_ifs at h
  · obtain rfl := Option.some.inj h
    intro b hb
    cases hb
  · obtain rfl := Option.some.inj h
    exact plain_copy_hash hb plain

lemma strIeq_lower {a : Bytes} (h : ∀ b ∈ a, usernameCharOk b = true) (c : Bytes) :
    strIeq (a.map lower) c = strIeq a c := by
  rw [strIeq, strIeq, lower_idem h]

section Accepted

variable {reg : UserRegistration} {guestPrefix : Bytes} (hv : registrationValid reg guestPrefix = true)

include hv

lemma registration_parts : usernameValid reg.username.text guestPrefix = true ∧
    usernameValid reg.nickname.text guestPrefix = true ∧
    profileValid reg.fullName.text reg.country.text reg.location.text reg.email.text = true := by
  rw [registrationValid, Bool.and_eq_true, Bool.and_eq_true] at hv
  exact ⟨hv.1.1, hv.1.2, hv.2⟩

lemma registration_names : reg.username.text ≠ [] ∧ reg.nickname.text ≠ [] := by
  obtain ⟨huser, hnick, -⟩ := registration_parts hv
  constructor
  · exact List.ne_nil_of_length_pos (lt_of_lt_of_le (by decide) (username_chars huser).1)
  · exact List.ne_nil_of_length_pos (lt_of_lt_of_le (by decide) (username_chars hnick).1)

lemma settled_new {backend : HashBackend} (hb : HexDigests backend)
    (hq : NoQuotes reg.fullName.text ∧ NoQuotes reg.country.text ∧ NoQuotes reg.location.text)
    (ht : Trimmed reg.fullName.text ∧ Trimmed reg.country.text ∧ Trimmed reg.location.text) (now : Int64)
    {id : Fin (2 ^ 64)} (hid : (id : ℕ) ≠ 0) {password : CText userPasswordMax}
    (hp : registeredPassword backend reg.password.text = some password) :
    Settled { newUser reg now id with password := password } := by
  obtain ⟨huser, hnick, hprofile⟩ := registration_parts hv
  have hchars := (username_chars huser).2
  have hsafe := safe_profile hprofile hq ht
  have huserbyte : ∀ b ∈ reg.username.text.map lower, plainByte b = true := by
    intro b hm
    obtain ⟨c, hc, rfl⟩ := List.mem_map.mp hm
    exact (plainByte_username (hchars c hc)).2.1
  have hnickbyte : ∀ b ∈ reg.nickname.text, plainByte b = true :=
    fun b hm => (plainByte_username ((username_chars hnick).2 b hm)).1
  have hpass := plain_registeredPassword hb hp
  apply settled_of_texts hid
  · simpa [newUser, CText.lower] using (registration_names hv).1
  · have hidem : reg.username.lower.lower = reg.username.lower := CText.ext (lower_idem hchars)
    rw [UserRecord.normalize, newUser]
    dsimp only
    rw [hidem]
  · intro f hf
    simp only [List.mem_cons, List.not_mem_nil, or_false] at hf
    rcases hf with rfl | rfl | rfl | rfl | rfl | rfl | rfl
    · exact ⟨safeValue_of_plain huserbyte, nl_notMem_of_plain huserbyte⟩
    · exact ⟨safeValue_of_plain hnickbyte, nl_notMem_of_plain hnickbyte⟩
    · exact hsafe _ (by simp [UserField.value, newUser])
    · exact hsafe _ (by simp [UserField.value, newUser])
    · exact hsafe _ (by simp [UserField.value, newUser])
    · exact hsafe _ (by simp [UserField.value, newUser])
    · exact ⟨safeValue_of_plain hpass, nl_notMem_of_plain hpass⟩

/-- A user whose names are not taken shares no name with the new one. -/
lemma apart_new {v : UserRecord} (hfree : identityTaken reg.username.text reg.nickname.text v = false) (now : Int64)
    (id : Fin (2 ^ 64)) (password : CText userPasswordMax) :
    ¬ShareName { newUser reg now id with password := password } v := by
  have hchars := (username_chars (registration_parts hv).1).2
  obtain ⟨huser, hnick⟩ := registration_names hv
  have hempty : ∀ {a : Bytes}, a ≠ [] → strIeq a [] = false := by
    intro a ha
    rw [Bool.eq_false_iff, Ne, strIeq_iff]
    simpa using ha
  have hcomm : ∀ a b : Bytes, strIeq a b = strIeq b a := by
    intro a b
    rw [Bool.eq_iff_iff, strIeq_iff, strIeq_iff]
    exact eq_comm
  simp only [identityTaken, Bool.or_eq_false_iff, Bool.and_eq_false_iff, decide_eq_false_iff_not, not_not] at hfree
  obtain ⟨⟨huu, hun⟩, hvnick⟩ := hfree
  rintro ⟨a, ha, b, hb, hab⟩
  simp only [newUser, CText.lower, List.mem_cons, List.not_mem_nil, or_false] at ha hb
  have hvcases : ∀ name : Bytes, name ≠ [] → strIeq v.username.text name = false →
      (v.nickname.text = [] ∨ strIeq v.nickname.text name = false) → strIeq name b = false := by
    intro name hne h1 h2
    rcases hb with rfl | rfl
    · rw [hcomm]
      exact h1
    · rcases h2 with h2 | h2
      · rw [h2]
        exact hempty hne
      · rw [hcomm]
        exact h2
  rcases ha with rfl | rfl
  · rw [strIeq_lower hchars, hvcases _ huser huu (hvnick.imp_right And.right)] at hab
    cases hab
  · rw [hvcases _ hnick hun (hvnick.imp_right And.left)] at hab
    cases hab

end Accepted

lemma Represents.appended (h : Represents dir uss m) (hroom : HasRoom dir) {u : UserRecord}
    (hm : Stands (uss.flatten ++ [u]) (m.insert u)) :
    (appendUserRecord .sound dir u).1 = .ok ∧
      ∃ uss', uss'.flatten = uss.flatten ++ [u] ∧ Represents (appendUserRecord .sound dir u).2 uss' (m.insert u) := by
  obtain ⟨pre, s, htarget, hlen, hfew, hshape⟩ := h.layout.appendTarget hroom
  have haround : Around uss pre [] := hshape.imp (fun he => ⟨s.users, he⟩) fun he => ⟨he.1, rfl⟩
  have hflat : (pre ++ [s.users ++ [u]]).flatten = uss.flatten ++ [u] := by
    rcases hshape with rfl | ⟨rfl, he⟩
    · simp
    · simp [he]
  have hcount : readCounter dir = .ok (m.insert u).lastId := h.counter
  rw [appendUserRecord, htarget]
  dsimp only
  rw [dif_pos hlen]
  have hrewrite := h.layout.rewrite haround hfew
    ⟨s.users ++ [u], by rw [List.length_append]; exact hlen⟩ hcount (by rw [hflat]; exact hm)
  exact ⟨hrewrite.1, _, hflat, hrewrite.2⟩

/-- The store after the counter has been raised. -/
lemma Represents.bumped (h : Represents dir uss m) (hmax : m.lastId + 1 < 2 ^ 64) :
    ∃ dir', bumpCounter dir = .ok (Fin.ofNat (2 ^ 64) (m.lastId + 1), dir') ∧ dir'.shards = dir.shards ∧
      Represents dir' uss { m with lastId := m.lastId + 1 } := by
  have hval : (Fin.ofNat (2 ^ 64) (m.lastId + 1) : ℕ) = m.lastId + 1 := Nat.mod_eq_of_lt hmax
  refine ⟨{ dir with counter := some (decimal (Fin.ofNat (2 ^ 64) (m.lastId + 1)) ++ [nl]) }, ?_, rfl, ?_, ?_, ?_⟩
  · rw [bumpCounter, h.counter]
  · exact ⟨h.layout.few, h.layout.file, h.layout.rest⟩
  · rw [hval]
    simp only [readCounter, scanUlong_decimal hmax]
  · exact ⟨h.stands.stored, h.stands.ids, h.stands.settled,
      fun u hu => Nat.le_succ_of_le (h.stands.known u hu), h.stands.names⟩

variable {backend : HashBackend} (guestPrefix : Bytes)

lemma Represents.taken_iff (h : Represents dir uss m) (username nickname : Bytes) :
    (∃ u, m.Stored u ∧ identityTaken username nickname u = true) ↔
      uss.flatten.any (identityTaken username nickname) = true := by
  rw [List.any_eq_true]
  exact exists_congr fun u => and_congr_left fun _ => (h.stands.mem_iff u).symm

/-- Where the names are free both scans of the files find nobody. -/
lemma Represents.names_free (h : Represents dir uss m) {username nickname : Bytes}
    (hfree : uss.flatten.any (identityTaken username nickname) = false) :
    findUser dir username = .error .errNotFound ∧
      foreachUser (fun _ => dir) (identityTakenCb username nickname) false = (.ok, false) := by
  constructor
  · refine (h.answers.find_none username).mpr fun u hu => ?_
    have hu' := List.any_eq_false.mp hfree u ((h.stands.mem_iff u).mpr hu)
    simp only [identityTaken, Bool.or_eq_true, not_or] at hu'
    exact Bool.eq_false_iff.mpr hu'.1.1
  · rw [h.layout.foreach, visit_taken, hfree]
    rfl

lemma registerClear {now : Int64} {reg : UserRegistration} (hclear : (StoreOp.register now reg).Clear guestPrefix dir)
    (hv : registrationValid reg guestPrefix = true) :
    (Trimmed reg.fullName.text ∧ Trimmed reg.country.text ∧ Trimmed reg.location.text) ∧ HasRoom dir ∧
      ∀ n, readCounter dir = .ok n → n + 1 < 2 ^ 64 := by
  obtain ⟨ht1, ht2, ht3, hrest⟩ := hclear hv
  exact ⟨⟨ht1, ht2, ht3⟩, hrest⟩

/-- The users with the new one behind them. -/
lemma Represents.stands_new (h : Represents dir uss m) (hb : HexDigests backend) {reg : UserRegistration}
    (hv : registrationValid reg guestPrefix = true) {now : Int64} (hasked : (StoreOp.register now reg).Asked dir)
    (ht : Trimmed reg.fullName.text ∧ Trimmed reg.country.text ∧ Trimmed reg.location.text)
    (htaken : uss.flatten.any (identityTaken reg.username.text reg.nickname.text) = false) (hlt : m.lastId + 1 < 2 ^ 64)
    (created : Int64) {password : CText userPasswordMax}
    (hp : registeredPassword backend reg.password.text = some password) :
    Stands (uss.flatten ++ [{ newUser reg created (Fin.ofNat (2 ^ 64) (m.lastId + 1)) with password := password }])
      (UserMap.insert { m with lastId := m.lastId + 1 }
        { newUser reg created (Fin.ofNat (2 ^ 64) (m.lastId + 1)) with password := password }) := by
  have hval : (Fin.ofNat (2 ^ 64) (m.lastId + 1) : ℕ) = m.lastId + 1 := Nat.mod_eq_of_lt hlt
  obtain ⟨dir', -, -, hnext⟩ := h.bumped hlt
  apply Stands.insert
  · rw [List.append_nil]
    exact hnext.stands
  · rw [List.append_nil]
    intro v hvm
    have := h.stands.known v hvm
    have hne : v.id ≠ (Fin.ofNat (2 ^ 64) (m.lastId + 1) : ℕ) := by
      rw [hval]
      omega
    exact hne
  · exact settled_new hv hb hasked ht created (by rw [hval]; omega) hp
  · exact le_of_eq hval
  · rw [List.append_nil]
    exact fun v hvm => apart_new hv (Bool.eq_false_iff.mpr (List.any_eq_false.mp htaken v hvm)) created _ _

lemma Represents.step_register (h : Represents dir uss m) (hb : HexDigests backend) {now : Int64}
    {reg : UserRegistration} (hasked : (StoreOp.register now reg).Asked dir)
    (hclear : (StoreOp.register now reg).Clear guestPrefix dir) :
    StepSpec uss m (.register now reg) (storeStep .sound backend guestPrefix dir (.register now reg))
      (m.step backend guestPrefix (.register now reg)) := by
  rw [storeStep, UserMap.step, registerUser, newRegistration, UserMap.register]
  by_cases hv : registrationValid reg guestPrefix = true
  · rw [hv, if_neg (by simp), if_neg (by simp)]
    by_cases htaken : uss.flatten.any (identityTaken reg.username.text reg.nickname.text) = true
    · rw [if_pos ((h.taken_iff _ _).mpr htaken)]
      have hsame : StepSpec uss m (.register now reg) (dir, [.registered (.error .errBusy)])
          (m, [.registered (.error .errBusy)]) := .same h _ rfl
      rw [h.layout.findUser]
      cases uss.flatten.find? fun u => strIeq u.username.text reg.username.text with
      | some u => exact hsame
      | none =>
        dsimp only
        rw [h.layout.foreach, visit_taken, htaken]
        exact hsame
    · rw [if_neg fun hex => htaken ((h.taken_iff _ _).mp hex)]
      rw [Bool.not_eq_true] at htaken
      obtain ⟨hfind, hforeach⟩ := h.names_free htaken
      obtain ⟨htrim, hroom, hmax⟩ := registerClear guestPrefix hclear hv
      have hlt : m.lastId + 1 < 2 ^ 64 := hmax _ h.counter
      obtain ⟨dir', hbump, hshards, hnext⟩ := h.bumped hlt
      have hval : (Fin.ofNat (2 ^ 64) (m.lastId + 1) : ℕ) = m.lastId + 1 := Nat.mod_eq_of_lt hlt
      rw [hfind]
      dsimp only
      rw [hforeach]
      dsimp only
      rw [hbump]
      dsimp only
      cases hp : registeredPassword backend reg.password.text with
      | none =>
        exact ⟨⟨_, hnext⟩, fun u hu _ => (hnext.stands.mem_iff u).mp hu, rfl, Nat.le_succ _, List.Pairwise.nil,
          by simp [givenIds]⟩
      | some password =>
        dsimp only
        have hstands := h.stands_new guestPrefix hb hv hasked htrim htaken hlt now hp
        obtain ⟨hok, uss', -, hlast⟩ := hnext.appended (by rw [HasRoom, hshards]; exact hroom) hstands
        rw [← Prod.eta (appendUserRecord _ _ _)]
        rw [hok]
        refine ⟨⟨uss', hlast⟩, fun u hu _ => (hstands.mem_iff u).mp (List.mem_append_left _ hu), rfl,
          Nat.le_succ _, ?_, ?_⟩
        · exact List.pairwise_singleton _ _
        · intro id hid
          obtain rfl := List.mem_singleton.mp hid
          exact ⟨lt_of_lt_of_eq (Nat.lt_succ_self _) hval.symm, le_of_eq hval⟩
  · rw [Bool.not_eq_true] at hv
    rw [hv, if_pos rfl, if_pos rfl]
    exact .same h _ rfl

end HyBBX.Storage
