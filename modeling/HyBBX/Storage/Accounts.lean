import HyBBX.Storage.StoreSteps
import HyBBX.Storage.RegisterStep
import Mathlib.Data.List.Basic

/-! The store as its callers see it: the records in the order of the scans, and the last id handed out. -/

namespace HyBBX.Storage

open HyBBX.Core Lib Lib.Bytes Lib.Text

structure Accounts where
  users : List UserRecord
  counter : ℕ

namespace Accounts

def findUser (acc : Accounts) (username : Bytes) : Except HybbxResult UserRecord :=
  match acc.users.find? fun u => strIeq u.username.text username with
  | some u => .ok u
  | none => .error .errNotFound

def resolveUser (acc : Accounts) (name : Bytes) : Except HybbxResult UserRecord :=
  if name = [] then .error .errInvalid
  else match acc.findUser ((strlcpy userNameMax name).map lower) with
    | .ok u => .ok u
    | .error _ =>
      match acc.users.find? fun u => u.nickname.text ≠ [] ∧ strIeq u.nickname.text name with
      | some u => .ok u
      | none => .error .errNotFound

/-- The record that a change by id meets. -/
def byId (acc : Accounts) (id : ℕ) : Option UserRecord := acc.users.find? fun u => u.id = id

def updateUser (acc : Accounts) (u : UserRecord) : HybbxResult × Accounts :=
  if u.id = 0 then (.errInvalid, acc)
  else if (acc.byId u.id).isNone then (.errNotFound, acc)
  else (.ok, { acc with users := acc.users.replaceF fun v => if v.id = u.id then some u.normalize else none })

def deleteUser (acc : Accounts) (id : ℕ) : HybbxResult × Accounts :=
  if id = 0 then (.errInvalid, acc)
  else if (acc.byId id).isNone then (.errNotFound, acc)
  else (.ok, { acc with users := acc.users.eraseP fun v => v.id = id })

/-- The id of the next registration. -/
def nextId (acc : Accounts) : Fin (2 ^ 64) := Fin.ofNat (2 ^ 64) (acc.counter + 1)

variable (backend : HashBackend) (guestPrefix : Bytes)

def registerUser (now : Int64) (acc : Accounts) (reg : UserRegistration) : Except HybbxResult UserRecord × Accounts :=
  if registrationValid reg guestPrefix = false then (.error .errInvalid, acc)
  else if acc.users.any (identityTaken reg.username.text reg.nickname.text) then (.error .errBusy, acc)
  else
    let counted := { acc with counter := acc.nextId }
    match registeredPassword backend reg.password.text with
    | none => (.error .errInvalid, counted)
    | some password =>
      let u := { newUser reg now acc.nextId with password := password }
      (.ok u, { counted with users := acc.users ++ [u] })

end Accounts

section Split

variable {us : List UserRecord} {id : ℕ}

lemma find_id_split {u : UserRecord} (h : us.find? (fun v => v.id = id) = some u) :
    ∃ pre post, us = pre ++ u :: post ∧ u.id = id ∧ ∀ v ∈ pre, v.id ≠ id := by
  obtain ⟨hid, pre, post, rfl, hpre⟩ := List.find?_eq_some_iff_append.mp h
  exact ⟨pre, post, rfl, by simpa using hid, fun v hv => by simpa using hpre v hv⟩

lemma replaceF_split {pre post : List UserRecord} {u w : UserRecord} (hid : u.id = id) (hpre : ∀ v ∈ pre, v.id ≠ id) :
    (pre ++ u :: post).replaceF (fun v => if v.id = id then some w else none) = pre ++ w :: post := by
  induction pre with
  | nil => simp [hid]
  | cons v pre ih =>
    have hv := hpre v List.mem_cons_self
    rw [List.cons_append, List.replaceF_cons, if_neg hv, ih fun x hx => hpre x (List.mem_cons_of_mem v hx)]
    rfl

lemma eraseP_split {pre post : List UserRecord} {u : UserRecord} (hid : u.id = id) (hpre : ∀ v ∈ pre, v.id ≠ id) :
    (pre ++ u :: post).eraseP (fun v => v.id = id) = pre ++ post := by
  rw [List.eraseP_append_right _ (fun v hv => by simpa using hpre v hv), List.eraseP_cons_of_pos (by simpa using hid)]

end Split

lemma byId_none {acc : Accounts} {id : ℕ} (h : ∀ u ∈ acc.users, u.id ≠ id) : acc.byId id = none :=
  List.find?_eq_none.mpr fun u hu => by simpa using h u hu

lemma byId_split {acc : Accounts} {pre post : List UserRecord} {u : UserRecord} (h : acc.users = pre ++ u :: post)
    (hpre : ∀ v ∈ pre, v.id ≠ u.id) : acc.byId u.id = some u := by
  rw [Accounts.byId, h, List.find?_eq_some_iff_append]
  exact ⟨by simp, pre, post, rfl, fun v hv => by simpa using hpre v hv⟩

section Files

/-- The flat files hold these accounts. -/
def InFiles (dir : UsersDir) (acc : Accounts) : Prop :=
  ∃ uss m, Represents dir uss m ∧ acc = ⟨uss.flatten, m.lastId⟩

variable {dir : UsersDir} {acc : Accounts} (h : InFiles dir acc)

include h

lemma InFiles.findUser (username : Bytes) : findUser dir username = acc.findUser username := by
  obtain ⟨uss, m, hr, rfl⟩ := h
  exact hr.layout.findUser username

lemma InFiles.resolveUser (name : Bytes) : resolveUser dir name = acc.resolveUser name := by
  obtain ⟨uss, m, hr, rfl⟩ := h
  by_cases hne : name = []
  · rw [Storage.resolveUser, Accounts.resolveUser, if_pos hne, if_pos hne]
  · rw [hr.layout.resolveUser hne, Accounts.resolveUser, if_neg hne, Accounts.findUser]
    cases uss.flatten.find? fun u => strIeq u.username.text ((strlcpy userNameMax name).map lower) <;> rfl

lemma InFiles.deleteUser (id : ℕ) : (deleteUser .sound dir id).1 = (acc.deleteUser id).1 ∧
    InFiles (deleteUser .sound dir id).2 (acc.deleteUser id).2 := by
  obtain ⟨uss, m, hr, rfl⟩ := h
  rw [Storage.deleteUser, Accounts.deleteUser]
  by_cases hzero : id = 0
  · rw [locateUser_zero dir hzero, if_pos hzero]
    exact ⟨rfl, uss, m, hr, rfl⟩
  · rw [if_neg hzero]
    rcases hr.layout.findUserShard hzero with ⟨hno, hfind⟩ | ⟨pre, us, u, vs, post, rfl, rfl, hfirst, hfind⟩
    · rw [locateUser_missing hzero hfind, byId_none hno]
      exact ⟨rfl, uss, m, hr, rfl⟩
    · obtain ⟨place, hplace, hindex, hslot, husers⟩ := hr.place hzero hfind
      obtain ⟨hok, hnext⟩ := hr.deleted hindex hslot husers (removeNicknameFile dir.nickFile place.user.username.text)
      rw [hplace, byId_split (flatten_at pre post us vs u) hfirst]
      refine ⟨hok, _, _, hnext, ?_⟩
      simp only [flatten_at, eraseP_split rfl hfirst]
      simp [UserMap.remove]

lemma InFiles.updateUser {u : UserRecord} (hasked : (StoreOp.update u).Asked dir) (guestPrefix : Bytes)
    (hclear : (StoreOp.update u).Clear guestPrefix dir) : (updateUser .sound dir u).1 = (acc.updateUser u).1 ∧
      InFiles (updateUser .sound dir u).2 (acc.updateUser u).2 := by
  obtain ⟨uss, m, hr, rfl⟩ := h
  rw [Storage.updateUser, Accounts.updateUser]
  by_cases hzero : u.id = 0
  · rw [locateUser_zero dir hzero, if_pos hzero]
    exact ⟨rfl, uss, m, hr, rfl⟩
  · rw [if_neg hzero]
    rcases hr.layout.findUserShard hzero with ⟨hno, hfind⟩ | ⟨pre, us, v, vs, post, rfl, hid, hfirst, hfind⟩
    · rw [locateUser_missing hzero hfind, byId_none hno]
      exact ⟨rfl, uss, m, hr, rfl⟩
    · have hmem : v ∈ (pre ++ (us ++ v :: vs) :: post).flatten := by rw [flatten_at]; simp
      obtain ⟨hsettled, huser, hnick⟩ := hr.settled_asked hmem hid hasked hclear
      rw [← hid] at hzero hfind hfirst
      obtain ⟨place, hplace, hindex, hslot, husers⟩ := hr.place hzero hfind
      obtain ⟨hok, hnext⟩ := hr.updated hindex hslot husers hid.symm hsettled huser hnick
      rw [← hid, hplace, byId_split (flatten_at pre post us vs v) hfirst, hsettled.lower]
      refine ⟨hok, _, _, hnext, ?_⟩
      simp only [flatten_at, replaceF_split rfl hfirst]
      rfl

lemma InFiles.registerUser {backend : HashBackend} (hb : HexDigests backend) {guestPrefix : Bytes} {now : Int64}
    {reg : UserRegistration} (hasked : (StoreOp.register now reg).Asked dir)
    (hclear : (StoreOp.register now reg).Clear guestPrefix dir) :
    (registerUser .sound backend guestPrefix now dir reg).1 = (acc.registerUser backend guestPrefix now reg).1 ∧
      InFiles (registerUser .sound backend guestPrefix now dir reg).2 (acc.registerUser backend guestPrefix now reg).2 := by
  obtain ⟨uss, m, hr, rfl⟩ := h
  rw [Storage.registerUser, newRegistration, Accounts.registerUser]
  by_cases hv : registrationValid reg guestPrefix = true
  · rw [hv, if_neg (by simp), if_neg (by simp)]
    by_cases htaken : uss.flatten.any (identityTaken reg.username.text reg.nickname.text) = true
    · rw [if_pos htaken, hr.layout.findUser]
      cases uss.flatten.find? fun u => strIeq u.username.text reg.username.text with
      | some u => exact ⟨rfl, uss, m, hr, rfl⟩
      | none =>
        dsimp only
        rw [hr.layout.foreach, visit_taken, htaken]
        exact ⟨rfl, uss, m, hr, rfl⟩
    · rw [if_neg htaken]
      rw [Bool.not_eq_true] at htaken
      obtain ⟨hfind, hforeach⟩ := hr.names_free htaken
      obtain ⟨htrim, hroom, hmax⟩ := registerClear guestPrefix hclear hv
      have hlt : m.lastId + 1 < 2 ^ 64 := hmax _ hr.counter
      obtain ⟨dir', hbump, hshards, hnext⟩ := hr.bumped hlt
      have hval : (Fin.ofNat (2 ^ 64) (m.lastId + 1) : ℕ) = m.lastId + 1 := Nat.mod_eq_of_lt hlt
      rw [hfind]
      dsimp only
      rw [hforeach]
      dsimp only
      rw [hbump]
      dsimp only
      cases hp : registeredPassword backend reg.password.text with
      | none => exact ⟨rfl, uss, _, hnext, by rw [Accounts.nextId, hval]⟩
      | some password =>
        have hstands := hr.stands_new guestPrefix hb hv hasked htrim htaken hlt now hp
        obtain ⟨hok, uss', hflat, hlast⟩ := hnext.appended (by rw [HasRoom, hshards]; exact hroom) hstands
        dsimp only
        rw [← Prod.eta (appendUserRecord _ _ _), hok]
        refine ⟨rfl, uss', _, hlast, ?_⟩
        rw [hflat, UserMap.insert, Accounts.nextId, hval]
  · rw [Bool.not_eq_true] at hv
    rw [hv, if_pos rfl, if_pos rfl]
    exact ⟨rfl, uss, m, hr, rfl⟩

end Files

end HyBBX.Storage
