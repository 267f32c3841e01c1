import HyBBX.Circuit.Frame
import HyBBX.Radio.Ax25RoundTrip

/-! The AX25_UI payload of an HBX frame: a digipeater count and the address fields of a path in front of
the text. -/

namespace HyBBX.Circuit

open Lib Lib.Bytes Lib.Text Radio

def circuitFlagPath : UInt16 := 0x0004

-- empty is the return value 0
def packPathPayload (path : Ax25Path) (payload : Bytes) (outCap : ℕ) : Bytes :=
  if outCap < 1 + payload.length then []
  else if outCap < 1 + ax25AddrEncoded * (2 + path.digi.length) then []
  else
    let packed := UInt8.ofNat path.digi.length :: (ax25EncodeAddress path.dest false ++
      path.digi.flatMap (ax25EncodeAddress · false) ++ ax25EncodeAddress path.source true)
    if payload ≠ [] ∧ outCap < packed.length + payload.length then [] else packed ++ payload

def circuitEncodeAx25Ui (path : Ax25Path) (payload : Bytes) (flags : UInt16) (out : Bytes) : Option Bytes :=
  let body := packPathPayload path payload circuitMaxPayload
  if body = [] ∧ payload ≠ [] then none else circuitEncode .ax25Ui (flags ||| circuitFlagPath) body out

/-- The address field at an offset, as a string: the bytes of the call sign end at the first blank. -/
def decodeAddressField (payload : Bytes) (pos : ℕ) : Ax25Address :=
  decodeAddress (payload.getD pos 0) (payload.getD (pos + 1) 0) (payload.getD (pos + 2) 0) (payload.getD (pos + 3) 0)
    (payload.getD (pos + 4) 0) (payload.getD (pos + 5) 0) (payload.getD (pos + 6) 0)

/-- What a call leaves in the caller's path, if it was given one, and the text that it returns. -/
structure UnpackedUi where
  path : Option Ax25Path
  uiLen : ℕ
  ui : Bytes
  deriving DecidableEq

def unpackedPath (payload : Bytes) (digiCount : ℕ) (h : digiCount ≤ ax25MaxDigi) : Ax25Path where
  dest := decodeAddressField payload 1
  digi := (List.range digiCount).map fun i => decodeAddressField payload (1 + ax25AddrEncoded * (i + 1))
  source := decodeAddressField payload (1 + ax25AddrEncoded * (digiCount + 1))
  fits := by simpa using h

def sizeSub (a b : ℕ) : ℕ := (a + 2 ^ 64 - b) % 2 ^ 64

/-- `wantsPath` is false for a NULL path. Either way the offset is moved on once more behind the path. -/
def circuitUnpackAx25Ui (payload : Bytes) (wantsPath : Bool) (uiCap : ℕ) : UnpackedUi :=
  let cleared := if wantsPath then some Ax25Path.zero else none
  if payload.length < 1 then ⟨none, 0, []⟩
  else
    let digiCount := (payload.getD 0 0).toNat
    if h : ax25MaxDigi < digiCount then ⟨cleared, 0, []⟩
    else if payload.length < 1 + ax25AddrEncoded * (2 + digiCount) then ⟨cleared, 0, []⟩
    else
      let path := if wantsPath then some (unpackedPath payload digiCount (not_lt.mp h)) else none
      let pos :=
        if wantsPath then 1 + ax25AddrEncoded + ax25AddrEncoded * digiCount
        else 1 + ax25AddrEncoded * (2 + digiCount)
      let pos := pos + ax25AddrEncoded
      let uiLen := sizeSub payload.length pos
      if uiCap < uiLen then ⟨path, 0, []⟩ else ⟨path, uiLen, (payload.drop pos).take uiLen⟩

def ax25UiOffset (digiCount : ℕ) : ℕ := 1 + ax25AddrEncoded * (2 + digiCount)

section Pack

variable {path : Ax25Path} {payload : Bytes}

/-- The count, the address fields and the text. -/
def packedUi (path : Ax25Path) (payload : Bytes) : Bytes :=
  UInt8.ofNat path.digi.length :: (ax25EncodeAddress path.dest false ++
    (path.digi.flatMap (ax25EncodeAddress · false) ++ (ax25EncodeAddress path.source true ++ payload)))

lemma flatMap_address_length (digis : List Ax25Address) :
    (digis.flatMap (ax25EncodeAddress · false)).length = ax25AddrEncoded * digis.length := by
  simp only [List.length_flatMap, ax25EncodeAddress_length, List.map_const', List.sum_replicate, smul_eq_mul]
  exact Nat.mul_comm _ _

lemma packedUi_length (path : Ax25Path) (payload : Bytes) :
    (packedUi path payload).length = ax25UiOffset path.digi.length + payload.length := by
  simp only [packedUi, ax25UiOffset, List.length_cons, List.length_append, ax25EncodeAddress_length,
    flatMap_address_length, ax25AddrEncoded]
  omega

lemma packPathPayload_of_fits {outCap : ℕ} (h : ax25UiOffset path.digi.length + payload.length ≤ outCap) :
    packPathPayload path payload outCap = packedUi path payload := by
  have hlen := packedUi_length path []
  simp only [packedUi, ax25UiOffset, List.append_nil, List.length_nil] at hlen h
  rw [packPathPayload, if_neg (by omega), if_neg (by omega)]
  dsimp only
  rw [List.append_assoc, if_neg (by rw [hlen]; omega), packedUi]
  simp only [List.cons_append, List.append_assoc]

lemma packPathPayload_of_short {outCap : ℕ} (hne : payload ≠ [])
    (h : outCap < ax25UiOffset path.digi.length + payload.length) : packPathPayload path payload outCap = [] := by
  have hlen := packedUi_length path []
  simp only [packedUi, ax25UiOffset, List.append_nil, List.length_nil] at hlen h
  rw [packPathPayload]
  split_ifs with h1 h2
  · rfl
  · rfl
  · dsimp only
    rw [List.append_assoc, if_pos ⟨hne, by rw [hlen]; omega⟩]

/-- A text that fits is encoded, and what is encoded is the packed path and text. -/
lemma circuitEncodeAx25Ui_iff (hne : payload ≠ []) (flags : UInt16) (out bytes : Bytes) :
    circuitEncodeAx25Ui path payload flags out = some bytes ↔
      (packedUi path payload).length ≤ circuitMaxPayload ∧
        circuitHeaderSize + (packedUi path payload).length ≤ out.length ∧
        bytes = circuitHeader .ax25Ui (flags ||| circuitFlagPath) (packedUi path payload).length out ++
          packedUi path payload := by
  rw [circuitEncodeAx25Ui]
  by_cases hfit : ax25UiOffset path.digi.length + payload.length ≤ circuitMaxPayload
  · have hbody : packedUi path payload ≠ [] := by simp [packedUi]
    rw [packPathPayload_of_fits hfit, if_neg (fun h => hbody h.1)]
    constructor
    · exact circuitEncode_eq_some
    · rintro ⟨hp, ho, rfl⟩
      exact circuitEncode_of_fits _ _ hp ho
  · rw [packPathPayload_of_short hne (not_le.mp hfit), if_pos ⟨rfl, hne⟩, packedUi_length]
    constructor
    · exact fun h => nomatch h
    · exact fun h => absurd h.1 hfit

end Pack

section Unpack

lemma decodeAddressField_at (before : Bytes) (addr : Ax25Address) (last : Bool) (rest : Bytes) {pos : ℕ}
    (hpos : before.length = pos) :
    decodeAddressField (before ++ (ax25EncodeAddress addr last ++ rest)) pos = addr.onAir := by
  obtain ⟨a, b, c, d, e, f, he, hd⟩ := ax25EncodeAddress_fields addr last
  subst hpos
  rw [he, ← hd, decodeAddressField]
  simp

lemma take_cons_drop {α : Type*} {xs : List α} {i : ℕ} (h : i < xs.length) :
    xs = xs.take i ++ xs[i] :: xs.drop (i + 1) := by
  rw [← List.drop_eq_getElem_cons h, List.take_append_drop]

/-- Every field is found where the packing put it. -/
lemma unpackedPath_packed (path : Ax25Path) (payload : Bytes) :
    unpackedPath (packedUi path payload) path.digi.length path.fits = path.onAir := by
  apply Ax25Path.eq_of_fields
  · exact decodeAddressField_at [UInt8.ofNat path.digi.length] path.dest false _ rfl
  · have hsource := decodeAddressField_at (UInt8.ofNat path.digi.length :: (ax25EncodeAddress path.dest false ++
      path.digi.flatMap (ax25EncodeAddress · false))) path.source true payload rfl
    rw [List.cons_append, List.append_assoc, List.length_cons, List.length_append, ax25EncodeAddress_length,
      flatMap_address_length] at hsource
    rw [unpackedPath, packedUi]
    dsimp only
    rw [show 1 + ax25AddrEncoded * (path.digi.length + 1) =
      ax25AddrEncoded + ax25AddrEncoded * path.digi.length + 1 by ring]
    exact hsource
  · apply List.ext_getElem
    · simp [unpackedPath, Ax25Path.onAir]
    · intro i _ hi
      have hi' : i < path.digi.length := by simpa [Ax25Path.onAir] using hi
      have hdigi := decodeAddressField_at (UInt8.ofNat path.digi.length :: (ax25EncodeAddress path.dest false ++
        (path.digi.take i).flatMap (ax25EncodeAddress · false))) path.digi[i] false
        ((path.digi.drop (i + 1)).flatMap (ax25EncodeAddress · false) ++ (ax25EncodeAddress path.source true ++ payload)) rfl
      rw [List.cons_append, List.append_assoc, List.length_cons, List.length_append, ax25EncodeAddress_length,
        flatMap_address_length, List.length_take, min_eq_left hi'.le] at hdigi
      have hsplit : path.digi.flatMap (ax25EncodeAddress · false) =
          (path.digi.take i).flatMap (ax25EncodeAddress · false) ++ (ax25EncodeAddress path.digi[i] false ++
            (path.digi.drop (i + 1)).flatMap (ax25EncodeAddress · false)) := by
        conv_lhs => rw [take_cons_drop hi', List.flatMap_append, List.flatMap_cons]
      simp only [unpackedPath, Ax25Path.onAir, List.getElem_map, List.getElem_range]
      rw [show 1 + ax25AddrEncoded * (i + 1) = ax25AddrEncoded + ax25AddrEncoded * i + 1 by ring, ← hdigi, packedUi,
        hsplit]
      simp only [List.append_assoc]

/-- Payloads that hold the whole path they announce. -/
structure PathWhole (payload : Bytes) : Prop where
  nonempty : payload ≠ []
  digis : (payload.getD 0 0).toNat ≤ ax25MaxDigi
  fields : ax25UiOffset (payload.getD 0 0).toNat ≤ payload.length

instance (payload : Bytes) : Decidable (PathWhole payload) :=
  decidable_of_iff (payload ≠ [] ∧ (payload.getD 0 0).toNat ≤ ax25MaxDigi ∧
    ax25UiOffset (payload.getD 0 0).toNat ≤ payload.length)
    ⟨fun h => ⟨h.1, h.2.1, h.2.2⟩, fun h => ⟨h.nonempty, h.digis, h.fields⟩⟩

/-- The bytes behind the path. -/
def uiText (payload : Bytes) : Bytes := payload.drop (ax25UiOffset (payload.getD 0 0).toNat)

variable {payload : Bytes} {uiCap : ℕ}

lemma unpack_of_broken (h : ¬PathWhole payload) (wantsPath : Bool) :
    (circuitUnpackAx25Ui payload wantsPath uiCap).uiLen = 0 ∧
      (circuitUnpackAx25Ui payload wantsPath uiCap).ui = [] := by
  rw [circuitUnpackAx25Ui]
  by_cases h0 : payload.length < 1
  · rw [if_pos h0]
    exact ⟨rfl, rfl⟩
  · rw [if_neg h0]
    dsimp only
    by_cases hd : ax25MaxDigi < (payload.getD 0 0).toNat
    · rw [dif_pos hd]
      exact ⟨rfl, rfl⟩
    · rw [dif_neg hd]
      by_cases hf : payload.length < 1 + ax25AddrEncoded * (2 + (payload.getD 0 0).toNat)
      · rw [if_pos hf]
        exact ⟨rfl, rfl⟩
      · refine absurd ⟨fun hn => h0 ?_, not_lt.mp hd, not_lt.mp hf⟩ h
        rw [hn]
        exact Nat.zero_lt_one

lemma unpack_of_whole (h : PathWhole payload) (wantsPath : Bool) :
    circuitUnpackAx25Ui payload wantsPath uiCap =
      let path := if wantsPath then some (unpackedPath payload (payload.getD 0 0).toNat h.digis) else none
      let pos := ax25UiOffset (payload.getD 0 0).toNat + if wantsPath then 0 else ax25AddrEncoded
      let uiLen := sizeSub payload.length pos
      if uiCap < uiLen then ⟨path, 0, []⟩ else ⟨path, uiLen, (payload.drop pos).take uiLen⟩ := by
  have h0 : ¬payload.length < 1 := by
    have := List.length_pos_iff.mpr h.nonempty
    omega
  have hfields : ¬payload.length < 1 + ax25AddrEncoded * (2 + (payload.getD 0 0).toNat) := not_lt.mpr h.fields
  rw [circuitUnpackAx25Ui, if_neg h0]
  dsimp only
  rw [dif_neg (not_lt.mpr h.digis), if_neg hfields]
  cases wantsPath
  · rfl
  · have hpos : 1 + ax25AddrEncoded + ax25AddrEncoded * (payload.getD 0 0).toNat + ax25AddrEncoded =
        ax25UiOffset (payload.getD 0 0).toNat := by
      rw [ax25UiOffset]
      ring
    simp only [if_true, hpos, Nat.add_zero]

lemma sizeSub_of_le {a b : ℕ} (h : b ≤ a) (ha : a < 2 ^ 64) : sizeSub a b = a - b := by
  rw [sizeSub]
  omega

lemma sizeSub_of_lt {a b : ℕ} (h : a < b) (hb : b < 2 ^ 64) : sizeSub a b = 2 ^ 64 - (b - a) := by
  rw [sizeSub]
  omega

lemma PathWhole.text_length (h : PathWhole payload) :
    payload.length = ax25UiOffset (payload.getD 0 0).toNat + (uiText payload).length := by
  have := h.fields
  rw [uiText, List.length_drop]
  omega

/-- With a path to fill, the text comes back if the buffer takes it. -/
lemma unpack_path (h : PathWhole payload) (hsize : payload.length < 2 ^ 64) :
    circuitUnpackAx25Ui payload true uiCap =
      let path := some (unpackedPath payload (payload.getD 0 0).toNat h.digis)
      if uiCap < (uiText payload).length then ⟨path, 0, []⟩ else ⟨path, (uiText payload).length, uiText payload⟩ := by
  have hlen := h.text_length
  have hsub : sizeSub payload.length (ax25UiOffset (payload.getD 0 0).toNat) = (uiText payload).length := by
    rw [sizeSub_of_le h.fields hsize]
    omega
  rw [unpack_of_whole h]
  simp only [if_true, Nat.add_zero, hsub]
  rw [← uiText, List.take_length]

/-- Without one, the first seven bytes of the text are left out, and a shorter text has no length at all. -/
lemma unpack_null (h : PathWhole payload) (hsize : payload.length < 2 ^ 64) :
    circuitUnpackAx25Ui payload false uiCap =
      if (uiText payload).length < ax25AddrEncoded then
        let uiLen := 2 ^ 64 - (ax25AddrEncoded - (uiText payload).length)
        if uiCap < uiLen then ⟨none, 0, []⟩ else ⟨none, uiLen, []⟩
      else if uiCap + ax25AddrEncoded < (uiText payload).length then ⟨none, 0, []⟩
      else ⟨none, (uiText payload).length - ax25AddrEncoded, (uiText payload).drop ax25AddrEncoded⟩ := by
  have hlen := h.text_length
  have hdrop : payload.drop (ax25UiOffset (payload.getD 0 0).toNat + ax25AddrEncoded) =
      (uiText payload).drop ax25AddrEncoded := by rw [uiText, List.drop_drop]
  rw [unpack_of_whole h]
  simp only [Bool.false_eq_true, if_false, hdrop]
  by_cases hshort : (uiText payload).length < ax25AddrEncoded
  · have hsub : sizeSub payload.length (ax25UiOffset (payload.getD 0 0).toNat + ax25AddrEncoded) =
        2 ^ 64 - (ax25AddrEncoded - (uiText payload).length) := by
      have hdigis := h.digis
      simp only [ax25UiOffset, ax25AddrEncoded, ax25MaxDigi] at hlen hshort hdigis ⊢
      rw [sizeSub_of_lt (by omega) (by omega)]
      omega
    rw [if_pos hshort, hsub, List.drop_eq_nil_of_le hshort.le, List.take_nil]
  · have hsub : sizeSub payload.length (ax25UiOffset (payload.getD 0 0).toNat + ax25AddrEncoded) =
        (uiText payload).length - ax25AddrEncoded := by
      rw [sizeSub_of_le (by omega) (by omega)]
      omega
    rw [if_neg hshort, hsub, ← List.length_drop, List.take_length]
    congr 1
    simp only [List.length_drop, eq_iff_iff]
    omega

/-- The text is the same whether or not the caller wants the path. -/
def SameText (payload : Bytes) (uiCap : ℕ) : Prop :=
  (circuitUnpackAx25Ui payload true uiCap).uiLen = (circuitUnpackAx25Ui payload false uiCap).uiLen ∧
    (circuitUnpackAx25Ui payload true uiCap).ui = (circuitUnpackAx25Ui payload false uiCap).ui

instance (payload : Bytes) (uiCap : ℕ) : Decidable (SameText payload uiCap) :=
  inferInstanceAs (Decidable (_ ∧ _))

lemma sameText_of_whole (h : PathWhole payload) (hsize : payload.length < 2 ^ 64) :
    SameText payload uiCap ↔
      (uiText payload = [] ∧ uiCap + ax25AddrEncoded < 2 ^ 64) ∨
        (uiText payload ≠ [] ∧ (uiText payload).length ≤ ax25AddrEncoded ∧ uiCap < (uiText payload).length) ∨
        uiCap + ax25AddrEncoded < (uiText payload).length := by
  rw [SameText, unpack_path h hsize, unpack_null h hsize, ← List.length_eq_zero_iff, ne_eq, ← List.length_eq_zero_iff]
  generalize hn : (uiText payload).length = n
  have h7 : ax25AddrEncoded = 7 := rfl
  by_cases hshort : n < ax25AddrEncoded
  · rw [if_pos hshort]
    by_cases hc : uiCap < n
    · rw [if_pos hc, if_pos (by omega)]
      exact iff_of_true ⟨rfl, rfl⟩ (by omega)
    · rw [if_neg hc]
      by_cases hbig : uiCap < 2 ^ 64 - (ax25AddrEncoded - n)
      · rw [if_pos hbig]
        dsimp only
        rw [← List.length_eq_zero_iff, hn]
        omega
      · rw [if_neg hbig]
        dsimp only
        omega
  · rw [if_neg hshort]
    by_cases hc : uiCap < n
    · rw [if_pos hc]
      by_cases hc' : uiCap + ax25AddrEncoded < n
      · rw [if_pos hc']
        exact iff_of_true ⟨rfl, rfl⟩ (by omega)
      · rw [if_neg hc']
        dsimp only
        rw [eq_comm, @eq_comm _ [], ← List.length_eq_zero_iff, List.length_drop, hn]
        omega
    · rw [if_neg hc, if_neg (by omega)]
      dsimp only
      omega

end Unpack

/-- The text without the path agrees with the text beside it in these cases: no whole path is there, the text
is empty, or neither way it fits the buffer. -/
def NothingToShift (payload : Bytes) (uiCap : ℕ) : Prop :=
  ¬PathWhole payload ∨ (uiText payload = [] ∧ uiCap + ax25AddrEncoded < 2 ^ 64) ∨
    (uiText payload ≠ [] ∧ (uiText payload).length ≤ ax25AddrEncoded ∧ uiCap < (uiText payload).length) ∨
    uiCap + ax25AddrEncoded < (uiText payload).length

lemma sameText_iff {payload : Bytes} (hsize : payload.length < 2 ^ 64) (uiCap : ℕ) :
    SameText payload uiCap ↔ NothingToShift payload uiCap := by
  by_cases h : PathWhole payload
  · rw [sameText_of_whole h hsize, NothingToShift, or_iff_right (not_not.mpr h)]
  · obtain ⟨hlen, hui⟩ := @unpack_of_broken payload uiCap h true
    obtain ⟨hlen', hui'⟩ := @unpack_of_broken payload uiCap h false
    exact iff_of_true ⟨hlen.trans hlen'.symm, hui.trans hui'.symm⟩ (.inl h)

section RoundTrip

variable {path : Ax25Path} {payload : Bytes}

lemma packedUi_head (path : Ax25Path) (payload : Bytes) :
    ((packedUi path payload).getD 0 0).toNat = path.digi.length := by
  have hfits := path.fits
  rw [packedUi, List.getD_cons_zero, UInt8.toNat_ofNat']
  rw [ax25MaxDigi] at hfits
  omega

lemma packedUi_whole (path : Ax25Path) (payload : Bytes) : PathWhole (packedUi path payload) := by
  refine ⟨by simp [packedUi], ?_, ?_⟩
  · rw [packedUi_head]
    exact path.fits
  · rw [packedUi_head, packedUi_length]
    exact Nat.le_add_right _ _

lemma packedUi_text (path : Ax25Path) (payload : Bytes) : uiText (packedUi path payload) = payload := by
  have hpath := packedUi_length path []
  have hsplit : packedUi path payload = packedUi path [] ++ payload := by
    simp only [packedUi, List.append_nil, List.cons_append, List.append_assoc]
  rw [uiText, packedUi_head, hsplit, List.drop_left']
  simpa using hpath

lemma unpack_packed (hplain : path.Plain) (hssid : path.SsidsFit)
    (hsize : (packedUi path payload).length < 2 ^ 64) {uiCap : ℕ} (hcap : payload.length ≤ uiCap) :
    circuitUnpackAx25Ui (packedUi path payload) true uiCap = ⟨some path, payload.length, payload⟩ := by
  have hpath : unpackedPath (packedUi path payload) ((packedUi path payload).getD 0 0).toNat
      (packedUi_whole path payload).digis = path := by
    have h := unpackedPath_packed path payload
    rw [hplain.onAir_iff.mpr hssid] at h
    conv_rhs => rw [← h]
    congr 1
    exact packedUi_head path payload
  rw [unpack_path (packedUi_whole path payload) hsize, packedUi_text, hpath]
  dsimp only
  rw [if_neg (by omega)]

end RoundTrip

/-- With a path to fill, what was packed comes back whole; without one, the text is the same only if it is
not there or not taken. -/
theorem ax25Ui_unpacked {received : Bytes} (hsize : received.length < 2 ^ 64) (uiCap : ℕ) :
    (∀ path : Ax25Path, path.Plain → path.SsidsFit → ∀ payload : Bytes, payload ≠ [] → ∀ (flags : UInt16) (out : Bytes),
      (ax25UiOffset path.digi.length + payload.length ≤ circuitMaxPayload →
        circuitHeaderSize + (ax25UiOffset path.digi.length + payload.length) ≤ out.length →
          (circuitEncodeAx25Ui path payload flags out).isSome) ∧
      ∀ bytes, circuitEncodeAx25Ui path payload flags out = some bytes → ∀ uiCap, payload.length ≤ uiCap →
        circuitUnpackAx25Ui (bytes.drop circuitHeaderSize) true uiCap = ⟨some path, payload.length, payload⟩) ∧
    (SameText received uiCap ↔ NothingToShift received uiCap) := by
  constructor
  · intro path hplain hssid payload hne flags out
    constructor
    · intro hp ho
      rw [← packedUi_length] at hp ho
      rw [(circuitEncodeAx25Ui_iff hne flags out _).mpr ⟨hp, ho, rfl⟩]
      rfl
    · intro bytes he uiCap hcap
      obtain ⟨hp, -, rfl⟩ := (circuitEncodeAx25Ui_iff hne flags out bytes).mp he
      rw [List.drop_left' (circuitHeader_length _ _ _ _)]
      apply unpack_packed hplain hssid _ hcap
      rw [circuitMaxPayload] at hp
      omega
  · exact sameText_iff hsize uiCap

theorem ax25Ui_unpacked_direct :
    circuitUnpackAx25Ui (((circuitEncodeAx25Ui direct (ofString "hi") 0 (List.replicate 64 0)).getD []).drop
        circuitHeaderSize) true 2 = ⟨some direct, 2, ofString "hi"⟩ ∧
      (SameText [] 2 ↔ NothingToShift [] 2) := by
  have h := @ax25Ui_unpacked [] (by decide +kernel) 2
  refine ⟨?_, h.2⟩
  exact (h.1 direct (by decide +kernel) (by decide +kernel) (ofString "hi") (by decide +kernel) 0
    (List.replicate 64 0)).2 _ rfl 2 (by decide +kernel)

/-- Without a path the text of a well-formed payload is not found. -/
theorem ax25Ui_null_path_empty : ¬SameText (packedUi direct (ofString "hi")) 256 := by decide +kernel

end HyBBX.Circuit
