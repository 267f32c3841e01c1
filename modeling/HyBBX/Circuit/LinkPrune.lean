import HyBBX.Circuit.LinkRegistry
import HyBBX.Config.SectionEdits

/-! Old links are dropped from the registry: the files it goes through, and what is read back from a file it wrote. -/

namespace HyBBX.Circuit

open HyBBX.Core Config Lib Lib.Bytes Lib.Text Lib.Numeral Lib.LineReader FileTree

def shardLastSeen (file : Bytes) : ℤ :=
  (fgets linkLineMax file).foldl (fun value piece =>
    match shardValue "last_seen=" piece with
    | some v => strtol v
    | none => value) 0

section Prune

variable (io : FileIo) (cwd : Names)

/-- A file that cannot be read was never seen. -/
def readLinkLastSeen (st : RegistryState) (path : Bytes) : ℤ × RegistryState :=
  match fopenRead io cwd st path with
  | (none, st) => (0, st)
  | (some file, st) => (shardLastSeen file, st)

-- whether a file may be removed depends on its directory, as for writing
def removeAt (tree : FileTree) (path : Bytes) : FileTree :=
  match tree (place cwd path) with
  | some (.file _) => if io.write tree path then Function.update tree (place cwd path) none else tree
  | _ => tree

def removeLinkFiles (reg : LinkRegistry) (id : Bytes) (st : RegistryState) : RegistryState :=
  let st := match linkShardPath reg id linkPathMax with
    | none => st
    | some path => { st with tree := removeAt io cwd st.tree path }
  if reg.configPath.text = [] then st
  else match fopenRead io cwd st reg.configPath.text with
    | (none, st) => st
    | (some file, st) =>
      match configLoad file with
      | .error _ => st
      | .ok config =>
        let sectionName := strlcpy configSectionMax (ofString "link." ++ id)
        (fopenWrite io cwd st reg.configPath.text (configSave (configRemoveSection config sectionName))).2

/-- One name of the directory. -/
def pruneName (reg : LinkRegistry) (cutoff : ℤ) (st : RegistryState) (name : Bytes) : RegistryState :=
  if name.length < 5 ∨ name.drop (name.length - 4) ≠ shardExt then st
  else
    let id := name.take (name.length - 4)
    if linkIdMax ≤ id.length then st
    else if linkPathMax ≤ (reg.dir.text ++ slash :: name).length then st
    else
      let (lastSeen, st) := readLinkLastSeen io cwd st (reg.dir.text ++ slash :: name)
      if 0 < lastSeen ∧ lastSeen < cutoff then removeLinkFiles io cwd reg id st else st

/-- `listing` is what `readdir` returns, `none` a directory that cannot be opened. -/
def linkRegistryPrune (reg : LinkRegistry) (staleDays : ℕ) (now : ℤ) (listing : Option (List Bytes))
    (st : RegistryState) :
    HybbxResult × RegistryState :=
  if reg.dir.text = [] then (.ok, st)
  else
    let cutoff := now - staleDays * 24 * 60 * 60
    match listing with
    | none => (.ok, st)
    | some names => (.ok, names.foldl (pruneName io cwd reg cutoff) st)

end Prune

section Pieces

/-- The last value decides. -/
lemma foldl_values {α : Type} {F : α → Bytes → α} {f : Bytes → Option Bytes} {g : Bytes → α}
    (hF : ∀ acc piece, F acc piece = (f piece).elim acc g) (pieces : List Bytes) (default : α) :
    pieces.foldl F default = ((pieces.filterMap f).getLast?).elim default g := by
  induction pieces using List.reverseRecOn with
  | nil => rfl
  | append_singleton pieces piece ih =>
    rw [List.foldl_append, List.foldl_cons, List.foldl_nil, hF, List.filterMap_append, List.filterMap_cons,
      List.filterMap_nil]
    cases f piece with
    | none => simpa using ih
    | some v => simp

lemma shardCode_eq (file : Bytes) :
    shardCode file = ((fgets linkLineMax file).filterMap (shardValue "link_code=")).getLast?.elim []
      fun v => strlcpy linkCodeMax (v.takeWhile fun b => b ≠ cr ∧ b ≠ nl) := by
  refine foldl_values (fun code piece => ?_) _ _
  cases shardValue "link_code=" piece <;> rfl

lemma shardCreated_eq (now : ℤ) (file : Bytes) :
    shardCreated now file = ((fgets linkLineMax file).filterMap (shardValue "created=")).getLast?.elim now strtol := by
  refine foldl_values (fun created piece => ?_) _ _
  cases shardValue "created=" piece <;> rfl

lemma shardLastSeen_eq (file : Bytes) :
    shardLastSeen file = ((fgets linkLineMax file).filterMap (shardValue "last_seen=")).getLast?.elim 0 strtol := by
  refine foldl_values (fun value piece => ?_) _ _
  cases shardValue "last_seen=" piece <;> rfl

lemma shardValue_string {start : String} {piece v : Bytes} (h : shardValue start piece = some v) : 0 ∉ v := by
  rw [shardValue] at h
  split_ifs at h
  rw [← Option.some.inj h]
  exact fun hzero => zero_notMem_cstr piece (List.mem_of_mem_drop hzero)

/-- What is read as the code fits the buffer and stays on its line. -/
lemma shardCode_string (file : Bytes) : nl ∉ shardCode file ∧ cr ∉ shardCode file ∧ 0 ∉ shardCode file ∧
    (shardCode file).length < linkCodeMax := by
  rw [shardCode_eq]
  cases hlast : ((fgets linkLineMax file).filterMap (shardValue "link_code=")).getLast? with
  | none => decide
  | some v =>
    obtain ⟨piece, -, hpiece⟩ := List.mem_filterMap.mp (List.mem_of_mem_getLast? hlast)
    have hcut : ∀ b ∈ strlcpy linkCodeMax (v.takeWhile fun b => b ≠ cr ∧ b ≠ nl), b ∈ v ∧ b ≠ cr ∧ b ≠ nl := by
      intro b hb
      have htake := List.mem_of_mem_take hb
      exact ⟨List.takeWhile_subset _ htake, by simpa using List.mem_takeWhile_imp htake⟩
    rw [Option.elim_some]
    refine ⟨fun h => (hcut _ h).2.2 rfl, fun h => (hcut _ h).2.1 rfl,
      fun h => shardValue_string hpiece (hcut _ h).1, ?_⟩
    rw [strlcpy, List.length_take]
    exact lt_of_le_of_lt (min_le_left _ _) (by decide)

lemma fgets_kv {size : ℕ} {key : String} {value : Bytes} (hkey : nl ∉ ofString key) (hvalue : nl ∉ value)
    (hfits : (ofString key).length + value.length + 2 < size) (rest : Bytes) :
    fgets size (kv key value ++ rest) = kv key value :: fgets size rest := by
  have hn : nl ∉ ofString key ++ equals :: value := nl_notMem_kv hkey hvalue
  have hl : (ofString key ++ equals :: value).length + 1 < size := by
    rw [List.length_append, List.length_cons]
    omega
  have h := fgets_line hn hl rest
  rw [kv, List.append_assoc _ [nl], List.singleton_append]
  exact h

lemma cstr_kv {key : String} {value : Bytes} (hkey : 0 ∉ ofString key) (hvalue : 0 ∉ value) :
    cstr (kv key value) = kv key value := by
  refine cstr_of_notMem ?_
  simp only [kv, List.mem_append, List.mem_cons, not_or]
  exact ⟨⟨hkey, by decide, hvalue⟩, by decide, List.not_mem_nil⟩

section Fields

variable {start key : String} (hstart : ofString start = ofString key ++ [equals])

include hstart

lemma shardValue_same {value : Bytes} (hkey : 0 ∉ ofString key) (hvalue : 0 ∉ value) :
    shardValue start (kv key value) = some (value ++ [nl]) := by
  have hsplit : kv key value = ofString start ++ (value ++ [nl]) := by
    rw [hstart, kv]
    simp
  rw [shardValue, cstr_kv hkey hvalue, hsplit, if_pos (List.prefix_append _ _), List.drop_left]

lemma shardValue_other {other : String} {value : Bytes} (hequals : equals ∉ ofString key)
    (hother : equals ∉ ofString other) (hne : ofString other ≠ ofString key) (hzero : 0 ∉ ofString other)
    (hvalue : 0 ∉ value) : shardValue start (kv other value) = none := by
  rw [shardValue, cstr_kv hzero hvalue, if_neg]
  rintro ⟨rest, hrest⟩
  -- both texts end their key at the first `=`
  have hcut : ofString key ++ equals :: rest = ofString other ++ equals :: (value ++ [nl]) := by
    rw [hstart, kv] at hrest
    simpa using hrest
  have hkeys := takeWhile_equals hequals rest
  rw [hcut, takeWhile_equals hother] at hkeys
  exact hne hkeys

/-- Of the lines of a shard those of one key are read. -/
lemma filterMap_shardValue (hequals : equals ∉ ofString key) (fields : List (String × Bytes))
    (hfields : ∀ f ∈ fields, equals ∉ ofString f.1 ∧ 0 ∉ ofString f.1 ∧ 0 ∉ f.2) :
    (fields.map fun f => kv f.1 f.2).filterMap (shardValue start) =
      (fields.filter fun f => ofString f.1 = ofString key).map fun f => f.2 ++ [nl] := by
  induction fields with
  | nil => rfl
  | cons f fields ih =>
    obtain ⟨hother, hzero, hvalue⟩ := hfields f List.mem_cons_self
    have hrest := ih fun g hg => hfields g (List.mem_cons_of_mem f hg)
    rw [List.map_cons, List.filterMap_cons]
    by_cases hkey : ofString f.1 = ofString key
    · rw [shardValue_same (hstart.trans (by rw [hkey])) hzero hvalue, List.filter_cons_of_pos (by simpa using hkey),
        List.map_cons, hrest]
    · rw [shardValue_other hstart hequals hother hkey hzero hvalue,
        List.filter_cons_of_neg (by simpa using hkey), hrest]

end Fields

end Pieces

/-- A time as the machine keeps it. -/
structure TimeT where
  secs : ℤ
  lower : -2 ^ 63 ≤ secs
  upper : secs < 2 ^ 63

lemma strtol_bounds (s : Bytes) : -2 ^ 63 ≤ strtol s ∧ strtol s < 2 ^ 63 := by
  rw [strtol]
  split_ifs <;> rw [longMax] <;> omega

/-- The time of creation that a shard gives; without one it is now. -/
def TimeT.created (now : TimeT) (file : Bytes) : TimeT where
  secs := shardCreated now.secs file
  lower := by
    rw [shardCreated_eq]
    cases ((fgets linkLineMax file).filterMap (shardValue "created=")).getLast? with
    | none => exact now.lower
    | some v => exact (strtol_bounds v).1
  upper := by
    rw [shardCreated_eq]
    cases ((fgets linkLineMax file).filterMap (shardValue "created=")).getLast? with
    | none => exact now.upper
    | some v => exact (strtol_bounds v).2

lemma TimeT.decimal_byte (t : TimeT) {b : UInt8} (hb : b ∈ decimalInt t.secs) : b = 0x2D ∨ isDigit b = true := by
  rw [decimalInt] at hb
  split_ifs at hb
  · exact (List.mem_cons.mp hb).imp_right isDigit_of_mem_decimal
  · exact .inr (isDigit_of_mem_decimal hb)

lemma TimeT.decimal_safe (t : TimeT) : SafeValue (decimalInt t.secs) := by
  have hplain : ∀ b : UInt8, b = 0x2D ∨ isDigit b = true → PlainByte b := forall_byte (by decide +kernel)
  exact safeValue_of_plain fun b hb => hplain b (t.decimal_byte hb)

lemma TimeT.decimal_string (t : TimeT) : nl ∉ decimalInt t.secs ∧ 0 ∉ decimalInt t.secs ∧
    (decimalInt t.secs).length ≤ 20 := by
  refine ⟨fun h => ?_, fun h => ?_, ?_⟩
  · exact absurd (t.decimal_byte h) (by decide)
  · exact absurd (t.decimal_byte h) (by decide)
  · have hlen : (decimal t.secs.natAbs).length ≤ 19 := by
      have hlo := t.lower
      have hhi := t.upper
      exact decimal_length_le (by decide) (by omega)
    rw [decimalInt]
    split_ifs
    · rw [List.length_cons]
      omega
    · omega

/-- The code of a link, as a shard holds it. -/
structure LinkCode extends HubText linkCodeMax where
  given : text ≠ []
  noReturn : cr ∉ text

/-- A code in a shard. -/
def LinkCode.read (file : Bytes) (h : shardCode file ≠ []) : LinkCode where
  text := shardCode file
  oneLine := (shardCode_string file).1
  string := (shardCode_string file).2.2.1
  fits := (shardCode_string file).2.2.2
  given := h
  noReturn := (shardCode_string file).2.1

lemma codeChar_mem (n : UInt32) : linkCodeChars.getD (n % 32).toNat 0 ∈ linkCodeChars := by
  have hlen : linkCodeChars.length = 32 := by decide
  have hindex : (n % 32).toNat < linkCodeChars.length := by
    rw [UInt32.toNat_mod, hlen]
    exact Nat.mod_lt _ (by decide)
  rw [List.getD_eq_getElem?_getD, List.getElem?_eq_getElem hindex]
  exact List.getElem_mem hindex

lemma codeFrom_chars (n : ℕ) (seed : UInt32) :
    (codeFrom n seed).1.length = n ∧ ∀ b ∈ (codeFrom n seed).1, b ∈ linkCodeChars := by
  induction n generalizing seed with
  | zero => exact ⟨rfl, fun b hb => nomatch hb⟩
  | succ n ih =>
    rw [codeFrom]
    generalize seed * 1103515245 + 12345 = seed
    obtain ⟨hlen, hchars⟩ := ih seed
    exact ⟨by rw [List.length_cons, hlen], List.forall_mem_cons.mpr ⟨codeChar_mem _, hchars⟩⟩

lemma codeChars_plain : ∀ b ∈ linkCodeChars, PlainByte b ∧ b ≠ nl ∧ b ≠ cr ∧ b ≠ 0 := by
  decide +kernel

/-- Fifteen letters and digits. -/
lemma generateCode_some (now : ℤ) (seed : UInt32) : ∃ code, (linkGenerateCode now seed linkCodeMax).1 = some code ∧
    code.length = 15 ∧ ∀ b ∈ code, b ∈ linkCodeChars := by
  rw [linkGenerateCode, if_neg (by decide)]
  exact ⟨_, rfl, codeFrom_chars _ _⟩

lemma generatedCode (now : ℤ) (seed : UInt32) :
    ∃ code : LinkCode, (linkGenerateCode now seed linkCodeMax).1 = some code.text ∧ SafeValue code.text := by
  obtain ⟨code, hcode, hlen, hchars⟩ := generateCode_some now seed
  have hplain := fun b hb => codeChars_plain b (hchars b hb)
  refine ⟨⟨⟨code, fun h => (hplain _ h).2.1 rfl, fun h => (hplain _ h).2.2.2 rfl, ?_⟩, ?_,
    fun h => (hplain _ h).2.2.1 rfl⟩, hcode, safeValue_of_plain fun b hb => (hplain b hb).1⟩
  · rw [hlen]
    decide
  · rw [← List.length_pos_iff, hlen]
    decide

/-- What is known of a link. -/
structure LinkEntry where
  role : HubText linkRoleMax
  code : LinkCode
  created : TimeT
  lastSeen : TimeT

def LinkEntry.shard (entry : LinkEntry) (id : HubText linkIdMax) : Bytes :=
  shardText id.text entry.role.text entry.code.text entry.created.secs entry.lastSeen.secs

namespace LinkEntry

variable (entry : LinkEntry) (id : HubText linkIdMax)

/-- The role in the shard. -/
def givenRole : Bytes := if entry.role.text ≠ [] then entry.role.text else linkRoleDefault

lemma givenRole_string : nl ∉ entry.givenRole ∧ 0 ∉ entry.givenRole ∧ entry.givenRole.length < linkRoleMax := by
  rw [givenRole]
  split_ifs
  · exact ⟨entry.role.oneLine, entry.role.string, entry.role.fits⟩
  · decide

def fields : List (String × Bytes) :=
  [("id", id.text), ("role", entry.givenRole), ("link_code", entry.code.text),
    ("created", decimalInt entry.created.secs), ("last_seen", decimalInt entry.lastSeen.secs)]

lemma shard_pieces : fgets linkLineMax (entry.shard id) = (entry.fields id).map fun f => kv f.1 f.2 := by
  obtain ⟨hrole, -, hrolefits⟩ := entry.givenRole_string
  obtain ⟨hcreated, -, hcreatedfits⟩ := entry.created.decimal_string
  obtain ⟨hseen, -, hseenfits⟩ := entry.lastSeen.decimal_string
  have hid := id.fits
  have hcode := entry.code.fits
  have hkeys : (ofString "id").length = 2 ∧ (ofString "role").length = 4 ∧ (ofString "link_code").length = 9 ∧
      (ofString "created").length = 7 ∧ (ofString "last_seen").length = 9 := by decide
  obtain ⟨h1, h2, h3, h4, h5⟩ := hkeys
  simp only [linkIdMax, linkRoleMax, linkCodeMax] at hid hrolefits hcode
  have hlast : kv "last_seen" (decimalInt entry.lastSeen.secs) =
      kv "last_seen" (decimalInt entry.lastSeen.secs) ++ [] := (List.append_nil _).symm
  rw [shard, shardText, ← givenRole, List.append_assoc, List.append_assoc, List.append_assoc, hlast,
    fgets_kv (by decide) id.oneLine (by rw [h1, linkLineMax]; omega),
    fgets_kv (by decide) hrole (by rw [h2, linkLineMax]; omega),
    fgets_kv (by decide) entry.code.oneLine (by rw [h3, linkLineMax]; omega),
    fgets_kv (by decide) hcreated (by rw [h4, linkLineMax]; omega),
    fgets_kv (by decide) hseen (by rw [h5, linkLineMax]; omega)]
  rfl

lemma fields_plain : ∀ f ∈ entry.fields id, equals ∉ ofString f.1 ∧ 0 ∉ ofString f.1 ∧ 0 ∉ f.2 := by
  intro f hf
  have hkeys : ∀ key ∈ ["id", "role", "link_code", "created", "last_seen"],
      equals ∉ ofString key ∧ 0 ∉ ofString key := by decide
  obtain ⟨hequals, hzero⟩ := hkeys f.1 (@List.mem_map_of_mem _ _ _ _ Prod.fst hf)
  refine ⟨hequals, hzero, ?_⟩
  simp only [fields, List.mem_cons, List.not_mem_nil, or_false] at hf
  rcases hf with rfl | rfl | rfl | rfl | rfl
  · exact id.string
  · exact entry.givenRole_string.2.1
  · exact entry.code.string
  · exact entry.created.decimal_string.2.1
  · exact entry.lastSeen.decimal_string.2.1

/-- The line of a key in a shard. -/
lemma shard_values {start key : String} (hstart : ofString start = ofString key ++ [equals])
    (hequals : equals ∉ ofString key) {value : Bytes}
    (hvalue : ((entry.fields id).filter fun f => ofString f.1 = ofString key) = [(key, value)]) :
    (fgets linkLineMax (entry.shard id)).filterMap (shardValue start) = [value ++ [nl]] := by
  rw [shard_pieces, filterMap_shardValue hstart hequals _ (entry.fields_plain id), hvalue]
  rfl

/-- The keys that are read back are three. -/
lemma key_names : (ofString "id" ≠ ofString "link_code" ∧ ofString "role" ≠ ofString "link_code") ∧
    (ofString "id" ≠ ofString "created" ∧ ofString "role" ≠ ofString "created") ∧
    (ofString "id" ≠ ofString "last_seen" ∧ ofString "role" ≠ ofString "last_seen") ∧
    ofString "link_code" ≠ ofString "created" ∧ ofString "link_code" ≠ ofString "last_seen" ∧
    ofString "created" ≠ ofString "last_seen" := by
  decide

lemma takeWhile_code : (entry.code.text ++ [nl]).takeWhile (fun b => b ≠ cr ∧ b ≠ nl) = entry.code.text := by
  have hall : ∀ b ∈ entry.code.text, decide (b ≠ cr ∧ b ≠ nl) = true := by
    intro b hb
    rw [decide_eq_true_eq]
    exact ⟨fun h => entry.code.noReturn (h ▸ hb), fun h => entry.code.oneLine (h ▸ hb)⟩
  rw [List.takeWhile_append_of_pos hall, List.takeWhile_cons_of_neg (by decide), List.append_nil]

lemma shardCode_shard : shardCode (entry.shard id) = entry.code.text := by
  have hvalues := @shard_values entry id "link_code=" "link_code" (by decide) (by decide) entry.code.text
    (by simp [fields, key_names, key_names.2.2.2.1.symm, key_names.2.2.2.2.1.symm])
  rw [shardCode_eq, hvalues, List.getLast?_singleton, Option.elim_some, takeWhile_code, strlcpy_of_fits entry.code.fits]

lemma strtol_line (t : TimeT) : strtol (decimalInt t.secs ++ [nl]) = t.secs :=
  strtol_decimalInt_append t.lower t.upper (by decide +kernel)

lemma shardCreated_shard (now : ℤ) : shardCreated now (entry.shard id) = entry.created.secs := by
  have hvalues := @shard_values entry id "created=" "created" (by decide) (by decide) (decimalInt entry.created.secs)
    (by simp [fields, key_names, key_names.2.2.2.2.2.symm])
  rw [shardCreated_eq, hvalues, List.getLast?_singleton, Option.elim_some, strtol_line]

lemma shardLastSeen_shard : shardLastSeen (entry.shard id) = entry.lastSeen.secs := by
  have hvalues := @shard_values entry id "last_seen=" "last_seen" (by decide) (by decide)
    (decimalInt entry.lastSeen.secs) (by simp [fields, key_names])
  rw [shardLastSeen_eq, hvalues, List.getLast?_singleton, Option.elim_some, strtol_line]

end LinkEntry

end HyBBX.Circuit
