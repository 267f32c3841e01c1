import HyBBX.Storage.RegisterStep

/-! Any sequence of operations on the files does what it does on the map. -/

namespace HyBBX.Storage

open HyBBX.Core HyBBX.Config Lib Lib.Bytes Lib.Text Lib.Numeral Lib.LineReader

/-- The run on the files and the run on the map agree, in what each operation returned and in every answer after
the last one; no other user was touched on the way, no id given out twice, no name shared. -/
structure RefinesMap (backend : HashBackend) (guestPrefix : Bytes) (ops : List StoreOp) : Prop where
  outcomes : (runStore backend guestPrefix ops).2 = (UserMap.run backend guestPrefix ops).2
  answers : AnswersAs (runStore backend guestPrefix ops).1 (UserMap.run backend guestPrefix ops).1
  namesApart : NamesApart (UserMap.run backend guestPrefix ops).1
  idsOnce : (givenIds (runStore backend guestPrefix ops).2).Nodup
  othersKept : ∀ before op after, ops = before ++ op :: after → ∀ u, op.changes ≠ some u.id →
    findUser (runStore backend guestPrefix before).1 u.username.text = .ok u →
      findUser (runStore backend guestPrefix (before ++ [op])).1 u.username.text = .ok u

lemma represents_fresh : Represents .fresh [] .empty where
  layout := ⟨by decide, by simp, fun _ _ _ => rfl⟩
  counter := rfl
  stands := ⟨by simp [UserMap.empty], List.nodup_nil, by simp, by simp, by rintro u v ⟨id, hu⟩; cases hu⟩

section Run

variable {backend : HashBackend} {guestPrefix : Bytes}

def StoreOp.Fine (guestPrefix : Bytes) (dir : UsersDir) (op : StoreOp) : Prop := op.Asked dir ∧ op.Clear guestPrefix dir

lemma Represents.step {dir : UsersDir} {uss : List (List UserRecord)} {m : UserMap} (h : Represents dir uss m)
    (hb : HexDigests backend) {op : StoreOp} (hop : op.Fine guestPrefix dir) :
    StepSpec uss m op (storeStep .sound backend guestPrefix dir op) (m.step backend guestPrefix op) := by
  cases op with
  | register now reg => exact h.step_register guestPrefix hb hop.1 hop.2
  | update u => exact h.step_update backend guestPrefix hop.1 hop.2
  | delete id => exact h.step_delete backend guestPrefix id
  | find name =>
    rw [storeStep, UserMap.step, h.find_eq]
    exact .same h _ rfl

variable (hb : HexDigests backend)

include hb

lemma represents_run {ops : List StoreOp}
    (h : Transducer.Along (storeStep .sound backend guestPrefix) (StoreOp.Fine guestPrefix) .fresh ops) :
    (∃ uss, Represents (runStore backend guestPrefix ops).1 uss (UserMap.run backend guestPrefix ops).1) ∧
      (runStore backend guestPrefix ops).2 = (UserMap.run backend guestPrefix ops).2 := by
  apply Transducer.run_simulates (R := fun dir m => ∃ uss, Represents dir uss m) _ _ ⟨[], represents_fresh⟩ h
  rintro dir m op ⟨uss, hr⟩ hop
  have hs := hr.step hb hop
  exact ⟨hs.represents, hs.outcome⟩

lemma ids_run {ops : List StoreOp}
    (h : Transducer.Along (storeStep .sound backend guestPrefix) (StoreOp.Fine guestPrefix) .fresh ops) :
    (givenIds (runStore backend guestPrefix ops).2).Pairwise (· < ·) := by
  have hinit : ∃ uss m, Represents .fresh uss m ∧ (givenIds []).Pairwise (· < ·) ∧ ∀ id ∈ givenIds [], id ≤ m.lastId :=
    ⟨[], .empty, represents_fresh, List.Pairwise.nil, by simp [givenIds]⟩
  have hall := Transducer.along_history (J := fun dir out => ∃ uss m, Represents dir uss m ∧
    (givenIds out).Pairwise (· < ·) ∧ ∀ id ∈ givenIds out, id ≤ m.lastId) _ ?_ hinit h
  · obtain ⟨uss, m, -, hlt, -⟩ := hall
    exact hlt
  · rintro dir out op hop ⟨uss, m, hr, hlt, hle⟩
    have hs := hr.step hb hop
    obtain ⟨uss', hr'⟩ := hs.represents
    refine ⟨uss', _, hr', ?_, ?_⟩
    · rw [givenIds, List.filterMap_append]
      refine List.pairwise_append.mpr ⟨hlt, hs.fresh.1, fun a ha b hb => ?_⟩
      exact lt_of_le_of_lt (hle a ha) (hs.fresh.2 b hb).1
    · intro id hid
      rw [givenIds, List.filterMap_append] at hid
      rcases List.mem_append.mp hid with hid | hid
      · exact le_trans (hle id hid) hs.grows
      · exact (hs.fresh.2 id hid).2

/-- While every operation is clear the store refines the map. -/
theorem store_refines_map {ops : List StoreOp}
    (hasked : Transducer.Along (storeStep .sound backend guestPrefix) StoreOp.Asked .fresh ops)
    (hclear : Transducer.Along (storeStep .sound backend guestPrefix) (StoreOp.Clear guestPrefix) .fresh ops) :
    RefinesMap backend guestPrefix ops := by
  have hfine := Transducer.along_and _ hasked hclear
  obtain ⟨⟨uss, hr⟩, hout⟩ := represents_run hb hfine
  refine ⟨hout, hr.answers, hr.stands.names, (ids_run hb hfine).imp Nat.ne_of_lt, ?_⟩
  rintro before op after rfl u hne hu
  obtain ⟨hbefore, hrest⟩ := Transducer.along_append _ hfine
  obtain ⟨⟨uss₀, hr₀⟩, -⟩ := represents_run hb hbefore
  have hs := hr₀.step hb hrest.1
  obtain ⟨uss₁, hr₁⟩ := hs.represents
  have hnext : runStore backend guestPrefix (before ++ [op]) =
      ((storeStep .sound backend guestPrefix (runStore backend guestPrefix before).1 op).1,
        (runStore backend guestPrefix before).2 ++
          (storeStep .sound backend guestPrefix (runStore backend guestPrefix before).1 op).2) := by
    rw [runStore, Transducer.run_append, Transducer.run_singleton]
    rfl
  obtain ⟨hstored, hname⟩ := (hr₀.answers.find_ok _ u).mp hu
  rw [hnext]
  exact (hr₁.answers.find_ok _ u).mpr ⟨hs.others u ((hr₀.stands.mem_iff u).mpr hstored) hne, hname⟩

end Run

def zeroDigests : HashBackend := ⟨fun _ => List.replicate 64 0x30, fun _ => List.replicate 32 0x30⟩

lemma zeroDigests_hex : HexDigests zeroDigests := by
  intro plain
  have hzeros : hexStringValid (List.replicate 64 0x30) 64 = true := by decide
  exact hzeros

def annasRegistration (fullName : CText userFullNameMax) : UserRegistration where
  username := CText.copy (ofString "Anna")
  nickname := CText.copy (ofString "annie")
  fullName := fullName
  country := CText.copy (ofString "Austria")
  location := CText.copy (ofString "Graz")
  email := CText.copy (ofString "anna@example.org")
  password := CText.copy (ofString "correct horse")

def annasOps : List StoreOp :=
  [.register 5 (annasRegistration (CText.copy (ofString "Anna Lee"))), .find (ofString "ANNA"), .delete 1]

theorem store_refines_map_anna : RefinesMap zeroDigests (ofString "Guest") annasOps := by
  apply store_refines_map zeroDigests_hex
  · refine ⟨?_, trivial, trivial, trivial⟩
    simp only [StoreOp.Asked, NoQuotes]
    decide +kernel
  · refine ⟨fun _ => ?_, trivial, trivial, trivial⟩
    refine ⟨⟨by decide +kernel, by decide +kernel⟩, ⟨by decide +kernel, by decide +kernel⟩,
      ⟨by decide +kernel, by decide +kernel⟩, ?_, ?_⟩
    · intro file s hf
      cases hf
    · intro n hn
      obtain rfl : 0 = n := Except.ok.inj hn
      decide

def paddedOps : List StoreOp := [.register 5 (annasRegistration (CText.copy (ofString " Anna Lee")))]

/-- A valid full name with a blank in front comes back without it. -/
theorem padded_name_changes : ¬∀ ops,
    Transducer.Along (storeStep .sound zeroDigests (ofString "Guest")) StoreOp.Asked .fresh ops →
      RefinesMap zeroDigests (ofString "Guest") ops := by
  intro hall
  have hrefines := hall paddedOps (by
    refine ⟨?_, trivial⟩
    simp only [StoreOp.Asked, NoQuotes]
    decide +kernel)
  have hstored : ∃ u, (UserMap.run zeroDigests (ofString "Guest") paddedOps).1.Stored u ∧
      strIeq u.username.text (ofString "anna") = true ∧ u.fullName.text = ofString " Anna Lee" := by
    have hvalid : registrationValid (annasRegistration (CText.copy (ofString " Anna Lee"))) (ofString "Guest") = true := by
      decide +kernel
    have hfree : ¬∃ u, UserMap.empty.Stored u ∧ identityTaken
        (annasRegistration (CText.copy (ofString " Anna Lee"))).username.text
        (annasRegistration (CText.copy (ofString " Anna Lee"))).nickname.text u = true := by
      rintro ⟨u, ⟨id, hu⟩, -⟩
      cases hu
    rw [paddedOps, UserMap.run, Transducer.run_singleton, UserMap.step, UserMap.register, hvalid, if_neg (by simp),
      if_neg hfree]
    exact ⟨_, ⟨1, rfl⟩, by decide +kernel, by decide +kernel⟩
  obtain ⟨u, hu, hname, hfull⟩ := hstored
  have hfind := (hrefines.answers.find_ok (ofString "anna") u).mpr ⟨hu, hname⟩
  have hread : (findUser (runStore zeroDigests (ofString "Guest") paddedOps).1 (ofString "anna")).toOption.map
      (fun v => v.fullName.text) = some (ofString "Anna Lee") := by
    decide +kernel
  rw [hfind] at hread
  have hlost : u.fullName.text = ofString "Anna Lee" := Option.some.inj hread
  rw [hfull] at hlost
  exact absurd hlost (by decide)

end HyBBX.Storage
