import HyBBX.Lib.Transducer
import HyBBX.Storage.FlatFile
import Mathlib.Data.Set.Card

/-! What the user store is for: a map from ids to records, and the questions it answers. -/

namespace HyBBX.Storage

open HyBBX.Core Lib Lib.Bytes Lib.Text

inductive StoreOp
  | register (now : Int64) (reg : UserRegistration)
  | update (u : UserRecord)
  | delete (id : ℕ)
  | find (name : Bytes)

inductive Outcome
  | registered (answer : Except HybbxResult UserRecord)
  | updated (rc : HybbxResult)
  | deleted (rc : HybbxResult)
  | found (answer : Except HybbxResult UserRecord)

structure UserMap where
  records : ℕ → Option UserRecord
  lastId : ℕ

namespace UserMap

def empty : UserMap := ⟨fun _ => none, 0⟩

def Stored (m : UserMap) (u : UserRecord) : Prop := ∃ id, m.records id = some u

def insert (m : UserMap) (u : UserRecord) : UserMap := { m with records := Function.update m.records u.id (some u) }

def remove (m : UserMap) (id : ℕ) : UserMap := { m with records := Function.update m.records id none }

open scoped Classical in
noncomputable def find (m : UserMap) (name : Bytes) : Except HybbxResult UserRecord :=
  if h : ∃ u, m.Stored u ∧ strIeq u.username.text name = true then .ok h.choose else .error .errNotFound

variable (backend : HashBackend) (guestPrefix : Bytes)

open scoped Classical in
noncomputable def register (now : Int64) (m : UserMap) (reg : UserRegistration) :
    Except HybbxResult UserRecord × UserMap :=
  if registrationValid reg guestPrefix = false then (.error .errInvalid, m)
  else if ∃ u, m.Stored u ∧ identityTaken reg.username.text reg.nickname.text u = true then (.error .errBusy, m)
  else
    let next := { m with lastId := m.lastId + 1 }
    match registeredPassword backend reg.password.text with
    | none => (.error .errInvalid, next)
    | some password =>
      let u := { newUser reg now (Fin.ofNat (2 ^ 64) next.lastId) with password := password }
      (.ok u, next.insert u)

def update (m : UserMap) (u : UserRecord) : HybbxResult × UserMap :=
  if u.id = 0 then (.errInvalid, m)
  else if (m.records u.id).isNone then (.errNotFound, m)
  else (.ok, m.insert u.normalize)

def delete (m : UserMap) (id : ℕ) : HybbxResult × UserMap :=
  if id = 0 then (.errInvalid, m)
  else if (m.records id).isNone then (.errNotFound, m)
  else (.ok, m.remove id)

noncomputable def step (m : UserMap) : StoreOp → UserMap × List Outcome
  | .register now reg =>
    let out := m.register backend guestPrefix now reg
    (out.2, [.registered out.1])
  | .update u =>
    let out := m.update u
    (out.2, [.updated out.1])
  | .delete id =>
    let out := m.delete id
    (out.2, [.deleted out.1])
  | .find name => (m, [.found (m.find name)])

noncomputable def run (ops : List StoreOp) : UserMap × List Outcome :=
  Transducer.run (step backend guestPrefix) empty ops

end UserMap

def storeStep (io : ShardIo) (backend : HashBackend) (guestPrefix : Bytes) (dir : UsersDir) :
    StoreOp → UsersDir × List Outcome
  | .register now reg =>
    let out := registerUser io backend guestPrefix now dir reg
    (out.2, [.registered out.1])
  | .update u =>
    let out := updateUser io dir u
    (out.2, [.updated out.1])
  | .delete id =>
    let out := deleteUser io dir id
    (out.2, [.deleted out.1])
  | .find name => (dir, [.found (findUser dir name)])

def runStore (backend : HashBackend) (guestPrefix : Bytes) (ops : List StoreOp) : UsersDir × List Outcome :=
  Transducer.run (storeStep .sound backend guestPrefix) .fresh ops

/-- The name of one user is, up to letter case, a name of the other. -/
def ShareName (u v : UserRecord) : Prop :=
  ∃ a ∈ [u.username.text, u.nickname.text], ∃ b ∈ [v.username.text, v.nickname.text], strIeq a b = true

def NamesApart (m : UserMap) : Prop := ∀ u v, m.Stored u → m.Stored v → u.id ≠ v.id → ¬ShareName u v

/-- The files answer every question as the map does. -/
structure AnswersAs (dir : UsersDir) (m : UserMap) : Prop where
  find_ok : ∀ name u, findUser dir name = .ok u ↔ m.Stored u ∧ strIeq u.username.text name = true
  find_none : ∀ name, findUser dir name = .error .errNotFound ↔
    ∀ u, m.Stored u → strIeq u.username.text name = false
  resolve_ok : ∀ name u, name ≠ [] → (resolveUser dir name = .ok u ↔ m.Stored u ∧
    (strIeq u.username.text ((strlcpy userNameMax name).map lower) = true ∨
      (∀ v, m.Stored v → strIeq v.username.text ((strlcpy userNameMax name).map lower) = false) ∧
        u.nickname.text ≠ [] ∧ strIeq u.nickname.text name = true))
  resolve_none : ∀ name, name ≠ [] → (resolveUser dir name = .error .errNotFound ↔
    ∀ u, m.Stored u → strIeq u.username.text ((strlcpy userNameMax name).map lower) = false ∧
      ¬(u.nickname.text ≠ [] ∧ strIeq u.nickname.text name = true))
  foreach : ∃ us : List UserRecord, us.Nodup ∧ (∀ u, u ∈ us ↔ m.Stored u) ∧
    ∀ (σ : Type) (fn : σ → UserRecord → HybbxResult × σ) (ctx : σ),
      foreachUser (fun _ => dir) fn ctx = visitUsers fn ctx us
  count : ∀ level, countLevel dir level = .ok (Set.ncard {u | m.Stored u ∧ u.level = level})

end HyBBX.Storage
