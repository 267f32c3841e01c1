import HyBBX.Core.Types
import HyBBX.Lib.Base64
import HyBBX.Lib.Text
import HyBBX.Websocket.Sha1

/-! The server's side of the opening handshake: the request is read, looked through and answered. -/

namespace HyBBX.Websocket

open HyBBX.Core Lib Lib.Bytes Lib.Text

def wsHandshakeMax : ℕ := 4096
def wsGuid : Bytes := ofString "258EAFA5-E914-47DA-95CA-C5AB0DC85B11"
def crlf : Bytes := [cr, nl]

def strncasecmp (s t : Bytes) (n : ℕ) : Bool := (s.take n).map lower = (t.take n).map lower

/-- The text before the first line end, and the text behind it. -/
def splitCrlf : Bytes → Option (Bytes × Bytes)
  | a :: b :: rest =>
    if a = cr ∧ b = nl then some ([], rest) else (splitCrlf (b :: rest)).map fun (line, more) => (a :: line, more)
  | _ => none

def headerHasToken (value token : Bytes) : Bool := value.tails.any fun p => p ≠ [] && strncasecmp p token token.length

def headerValueEquals (value expected : Bytes) : Bool :=
  if strncasecmp value expected expected.length = false then false
  else match value.drop expected.length with
    | [] => true
    | c :: _ => c = cr || c = blank || c = tab || c = 0x2C

def isPad (b : UInt8) : Bool := b = blank || b = tab

def headerLoop (name : Bytes) : ℕ → Bytes → Option Bytes
  | 0, _ => none
  | fuel + 1, p =>
    match splitCrlf p with
    | none => none
    | some (line, more) =>
      if name.length + 2 < line.length ∧ strncasecmp p name name.length = true ∧ p.getD name.length 0 = 0x3A then
        some ((p.drop (name.length + 1)).dropWhile isPad)
      else headerLoop name fuel more

/-- The value goes on behind its line, up to the end of what was read. -/
def headerValue (headers name : Bytes) : Option Bytes := headerLoop name (headers.length + 1) headers

def pathMatches (requestLine path : Bytes) : Bool :=
  if path = [] then true
  else if blank ∉ requestLine then false
  else
    let sp1 := (requestLine.dropWhile (· ≠ blank)).tail
    if blank ∉ sp1 then false
    else if (sp1.takeWhile (· ≠ blank)).length < path.length then false
    else if sp1.take path.length ≠ path then false
    else match sp1.drop path.length with
      | [] => true
      | c :: _ => c = blank || c = 0x3F

def base64Tbl : Bytes := ofString "ABCDEFGHIJKLMNOPQRSTUVWXYZabcdefghijklmnopqrstuvwxyz0123456789+/"

/-- What one pass of the loop puts out. -/
def base64Group (bytes : Bytes) (i : ℕ) : Bytes :=
  let first := (bytes.getD i 0).toUInt32 <<< 16
  let second := if i + 1 < bytes.length then first ||| (bytes.getD (i + 1) 0).toUInt32 <<< 8 else first
  let v := if i + 2 < bytes.length then second ||| (bytes.getD (i + 2) 0).toUInt32 else second
  [base64Tbl.getD (v >>> 18 &&& 63).toNat 0, base64Tbl.getD (v >>> 12 &&& 63).toNat 0,
    if i + 1 < bytes.length then base64Tbl.getD (v >>> 6 &&& 63).toNat 0 else 0x3D,
    if i + 2 < bytes.length then base64Tbl.getD (v &&& 63).toNat 0 else 0x3D]

def base64Encode (bytes : Bytes) (outLen : ℕ) : Option Bytes :=
  if outLen < (bytes.length + 2) / 3 * 4 + 1 then none
  else some ((List.range ((bytes.length + 2) / 3)).flatMap fun k => base64Group bytes (3 * k))

/-- How the loop over `recv` ends, when it does. -/
inductive WsRequest
  | waiting
  | failed
  | read (buf : Bytes)
  deriving DecidableEq

/-- Each `recv` gets bytes, none of them at the end of the stream, or fails; it is never given more room than there
is. -/
def wsReadRequest : Bytes → List (Option Bytes) → WsRequest
  | _, [] => .waiting
  | _, none :: _ => .failed
  | _, some [] :: _ => .failed
  | buf, some (b :: bs) :: more =>
    let buf := buf ++ (b :: bs).take (wsHandshakeMax - 1 - buf.length)
    if crlf ++ crlf <:+: cstr buf then .read (cstr buf)
    else if buf.length + 1 < wsHandshakeMax then wsReadRequest buf more
    else .read (cstr buf)

def wsKey (buf : Bytes) : Option Bytes :=
  (headerValue buf (ofString "Sec-WebSocket-Key")).bind fun header =>
    (splitCrlf header).bind fun (line, _) =>
      if 128 ≤ (line.rdropWhile isPad).length then none else some (line.rdropWhile isPad)

def wsResponse (accept : Bytes) : Bytes :=
  ofString "HTTP/1.1 101 Switching Protocols\r\nUpgrade: websocket\r\nConnection: Upgrade\r\nSec-WebSocket-Accept: " ++
    accept ++ ofString "\r\n\r\n"

/-- What is made of the request: its result, and the response to be sent. -/
def wsAnswer (stack : Vector UInt8 64) (path buf : Bytes) : HybbxResult × Bytes :=
  if ¬ofString "GET " <+: buf then (.errDenied, [])
  else match splitCrlf buf with
    | none => (.errDenied, [])
    | some (line, _) =>
      if 256 ≤ line.length ∨ pathMatches line path = false then (.errDenied, [])
      else match headerValue buf (ofString "Upgrade"), headerValue buf (ofString "Connection") with
        | some upgrade, some connection =>
          if headerValueEquals upgrade (ofString "websocket") = false ∨
              headerHasToken connection (ofString "upgrade") = false then (.errDenied, [])
          else match wsKey buf with
            | none => (.errDenied, [])
            | some key =>
              match base64Encode (hybbxWsSha1 stack (key ++ wsGuid)) 64 with
              | none => (.errIo, [])
              | some accept => (.ok, wsResponse accept)
        | _, _ => (.errDenied, [])

/-- The handshake, with what `recv` returns call after call; `none` while it waits for more. The second component is
what is handed to `send`, and the connection is established when the result is `ok`. -/
def hybbxWsServerHandshake (stack : Vector UInt8 64) (path : Bytes) (recvs : List (Option Bytes)) (sendOk : Bool) :
    Option (HybbxResult × Bytes) :=
  match wsReadRequest [] recvs with
  | .waiting => none
  | .failed => some (.errIo, [])
  | .read buf =>
    let r := wsAnswer stack path buf
    if r.1 = .ok ∧ sendOk = false then some (.errIo, r.2) else some r

example : hybbxWsServerHandshake (Vector.replicate 64 0) (ofString "/chat")
    [some (ofString "GET /chat HTTP/1.1\r\nUpgrade: websocket\r\nConnec"),
      some (ofString "tion: Upgrade\r\nSec-WebSocket-Key: dGhlIHNhbXBsZSBub25jZQ==\r\n\r\n")] true =
      some (.ok, wsResponse (ofString "s3pPLMBiTxaQ9kYGzzhZRbK+xOo=")) := by
  rw [ofString_ofList, ofString_ofList]
  decide +kernel

section Base64

lemma toNat_three (a b c : UInt8) : (a.toUInt32 <<< 16 ||| b.toUInt32 <<< 8 ||| c.toUInt32).toNat =
    a.toNat * 2 ^ 16 + b.toNat * 2 ^ 8 + c.toNat := by
  have ha := a.toNat_lt
  have hb := b.toNat_lt
  have hc := c.toNat_lt
  have hword := word_of_bytes c b a 0
  have hzero : ∀ x : UInt32, x ||| (0 : UInt8).toUInt32 <<< 24 = x := by
    intro x
    rw [show (0 : UInt8).toUInt32 <<< 24 = 0 from rfl, UInt32.or_zero]
  have hvalue : Md5.leValue [c, b, a, 0] = a.toNat * 2 ^ 16 + b.toNat * 2 ^ 8 + c.toNat := by
    simp [Md5.leValue, Nat.ofDigits_cons]
    ring
  rw [hzero, hvalue] at hword
  rw [UInt32.or_comm _ c.toUInt32, UInt32.or_comm (a.toUInt32 <<< 16), ← UInt32.or_assoc, hword, UInt32.toNat_ofNat',
    Nat.mod_eq_of_lt (by omega)]

lemma toNat_sextet (v : UInt32) {k : ℕ} (hk : k < 32) :
    (v >>> UInt32.ofNat k &&& 63).toNat = v.toNat / 2 ^ k % 64 := by
  have hmask : (63 : UInt32).toNat = 2 ^ 6 - 1 := rfl
  rw [UInt32.toNat_and, UInt32.toNat_shiftRight, hmask, Nat.and_two_pow_sub_one_eq_mod, UInt32.toNat_ofNat',
    Nat.mod_eq_of_lt (by omega : k < 2 ^ 32), Nat.mod_eq_of_lt hk, Nat.shiftRight_eq_div_pow]

/-- The four digits of the bits of three bytes. -/
lemma base64Tbl_eq (a b c : UInt8) :
    let v := a.toUInt32 <<< 16 ||| b.toUInt32 <<< 8 ||| c.toUInt32
    base64Tbl.getD (v >>> 18 &&& 63).toNat 0 = Base64.digit (a.toNat / 4) ∧
      base64Tbl.getD (v >>> 12 &&& 63).toNat 0 = Base64.digit (a.toNat % 4 * 16 + b.toNat / 16) ∧
      base64Tbl.getD (v >>> 6 &&& 63).toNat 0 = Base64.digit (b.toNat % 16 * 4 + c.toNat / 64) ∧
      base64Tbl.getD (v &&& 63).toNat 0 = Base64.digit (c.toNat % 64) := by
  intro v
  have ha := a.toNat_lt
  have hb := b.toNat_lt
  have hc := c.toNat_lt
  have hv := toNat_three a b c
  have h18 : (v >>> 18 &&& 63).toNat = v.toNat / 2 ^ 18 % 64 := toNat_sextet v (by decide)
  have h12 : (v >>> 12 &&& 63).toNat = v.toNat / 2 ^ 12 % 64 := toNat_sextet v (by decide)
  have h6 : (v >>> 6 &&& 63).toNat = v.toNat / 2 ^ 6 % 64 := toNat_sextet v (by decide)
  have h0 : (v &&& 63).toNat = v.toNat % 64 := by
    rw [UInt32.toNat_and, show (63 : UInt32).toNat = 2 ^ 6 - 1 from rfl, Nat.and_two_pow_sub_one_eq_mod]
  rw [h18, h12, h6, h0, hv]
  refine ⟨congrArg Base64.digit ?_, congrArg Base64.digit ?_, congrArg Base64.digit ?_, congrArg Base64.digit ?_⟩
  all_goals omega

/-- A pass of the loop encodes what is left of three bytes; those behind the end count as zeros. -/
lemma base64Group_eq (bytes : Bytes) {i : ℕ} (hi : i < bytes.length) :
    base64Group bytes i = Base64.encode ((bytes.drop i).take 3) := by
  have hget : ∀ k, bytes.getD (i + k) 0 = (bytes.drop i).getD k 0 := by
    intro k
    rw [List.getD_eq_getElem?_getD, List.getD_eq_getElem?_getD, List.getElem?_drop]
  have hmore : ∀ k, (i + k < bytes.length) ↔ k < (bytes.drop i).length := by
    intro k
    rw [List.length_drop]
    omega
  have hor : ∀ x : UInt32, x ||| (0 : UInt8).toUInt32 = x := fun _ => UInt32.or_zero
  have hshift : (0 : UInt8).toUInt32 <<< 8 = 0 := rfl
  have hzero := hget 0
  rw [Nat.add_zero] at hzero
  rw [base64Group, hzero, hget 1, hget 2]
  simp only [hmore]
  cases hdrop : bytes.drop i with
  | nil =>
    have hlen := congrArg List.length hdrop
    rw [List.length_drop, List.length_nil] at hlen
    omega
  | cons a rest =>
    obtain _ | ⟨b, _ | ⟨c, rest⟩⟩ := rest
    · have hdigits := base64Tbl_eq a 0 0
      rw [hshift, UInt32.or_zero, hor] at hdigits
      obtain ⟨h1, h2, -, -⟩ := hdigits
      simp only [List.length_singleton, lt_irrefl, show ¬2 < 1 from by decide, if_false, List.getD_cons_zero]
      rw [h1, h2]
      rfl
    · have hdigits := base64Tbl_eq a b 0
      rw [hor] at hdigits
      obtain ⟨h1, h2, h3, -⟩ := hdigits
      have hone : 1 < [a, b].length := Nat.lt_succ_self 1
      have htwo : ¬2 < [a, b].length := lt_irrefl 2
      simp only [if_pos hone, if_neg htwo, List.getD_cons_zero, List.getD_cons_succ]
      rw [h1, h2, h3]
      rfl
    · obtain ⟨h1, h2, h3, h4⟩ := base64Tbl_eq a b c
      have hone : 1 < (a :: b :: c :: rest).length := by simp
      have htwo : 2 < (a :: b :: c :: rest).length := by simp
      simp only [if_pos hone, if_pos htwo, List.getD_cons_zero, List.getD_cons_succ]
      rw [h1, h2, h3, h4]
      rfl

lemma base64Encode_eq {bytes : Bytes} {outLen : ℕ} (h : (bytes.length + 2) / 3 * 4 + 1 ≤ outLen) :
    base64Encode bytes outLen = some (Base64.encode bytes) := by
  have hloop : ∀ bytes : Bytes, (List.range ((bytes.length + 2) / 3)).flatMap (fun k =>
      Base64.encode ((bytes.drop (3 * k)).take 3)) = Base64.encode bytes := by
    intro bytes
    induction bytes using Base64.encode.induct with
    | case1 => rfl
    | case2 a =>
      rw [List.length_singleton, show (1 + 2) / 3 = 1 from rfl, List.range_one, List.flatMap_singleton, Nat.mul_zero]
      rfl
    | case3 a b =>
      rw [List.length_cons, List.length_singleton, show (1 + 1 + 2) / 3 = 1 from rfl, List.range_one,
        List.flatMap_singleton, Nat.mul_zero]
      rfl
    | case4 a b c rest ih =>
      have hlen : ((a :: b :: c :: rest).length + 2) / 3 = (rest.length + 2) / 3 + 1 := by
        simp only [List.length_cons]
        omega
      rw [hlen, List.range_succ_eq_map, List.flatMap_cons, List.flatMap_map, Base64.encode, ← ih]
      rfl
  rw [base64Encode, if_neg (by omega), ← hloop bytes]
  congr 1
  apply List.flatMap_congr
  intro k hk
  have hlt := List.mem_range.mp hk
  exact base64Group_eq bytes (by omega)

end Base64

section Request

/-- A header of a request: blanks may stand behind the colon. -/
structure HttpHeader where
  name : Bytes
  pad : Bytes
  value : Bytes
  nameOk : ∀ b ∈ name, b ≠ 0x3A ∧ b ≠ cr ∧ b ≠ 0
  padOk : ∀ b ∈ pad, isPad b = true
  valueOk : ∀ b ∈ value, b ≠ cr ∧ b ≠ 0
  headOk : ∀ b ∈ value.head?, isPad b = false
  long : 2 ≤ pad.length + value.length

def HttpHeader.line (h : HttpHeader) : Bytes := h.name ++ 0x3A :: (h.pad ++ h.value)

/-- Header lines and the empty line that ends them. -/
def headerBlock (headers : List HttpHeader) : Bytes := headers.flatMap (fun h => h.line ++ crlf) ++ crlf

/-- The request of a client. -/
structure WsClientRequest where
  target : Bytes
  version : Bytes
  headers : List HttpHeader
  targetOk : ∀ b ∈ target, b ≠ blank ∧ b ≠ cr ∧ b ≠ 0
  versionOk : ∀ b ∈ version, b ≠ cr ∧ b ≠ 0

def WsClientRequest.line (r : WsClientRequest) : Bytes := ofString "GET " ++ r.target ++ blank :: r.version

def WsClientRequest.bytes (r : WsClientRequest) : Bytes := r.line ++ crlf ++ headerBlock r.headers

/-- The first header with a name, in whatever case, and the ones behind it. -/
def findHeader (name : Bytes) : List HttpHeader → Option (HttpHeader × List HttpHeader)
  | [] => none
  | h :: more => if strIeq h.name name then some (h, more) else findHeader name more

/-- What a token is looked for in: the value of a header and all that comes behind it. -/
def textFrom (found : HttpHeader × List HttpHeader) : Bytes := found.1.value ++ crlf ++ headerBlock found.2

/-- The key of a request that is for a WebSocket at the path. -/
def WsClientRequest.key (r : WsClientRequest) (path : Bytes) : Option Bytes :=
  if r.line.length < 256 ∧ (path = [] ∨ r.target = path ∨ path ++ [0x3F] <+: r.target) then
    (findHeader (ofString "Upgrade") r.headers).bind fun upgrade =>
      (findHeader (ofString "Connection") r.headers).bind fun connection =>
        (findHeader (ofString "Sec-WebSocket-Key") r.headers).bind fun key =>
          if headerValueEquals upgrade.1.value (ofString "websocket") ∧
              headerHasToken (textFrom connection) (ofString "upgrade") ∧ (key.1.value.rdropWhile isPad).length < 128
            then some (key.1.value.rdropWhile isPad) else none
  else none

end Request

section Lines

lemma splitCrlf_line {line : Bytes} (h : cr ∉ line) (more : Bytes) :
    splitCrlf (line ++ crlf ++ more) = some (line, more) := by
  induction line with
  | nil => rfl
  | cons a line ih =>
    have hne : a ≠ cr := fun he => h (he ▸ List.mem_cons_self)
    have hrest := ih fun hm => h (List.mem_cons_of_mem a hm)
    obtain ⟨b, text, htext⟩ : ∃ b text, line ++ crlf ++ more = b :: text := by
      cases line with
      | nil => exact ⟨cr, nl :: more, rfl⟩
      | cons b line => exact ⟨b, line ++ crlf ++ more, rfl⟩
    rw [htext] at hrest
    rw [List.cons_append, List.cons_append, htext, splitCrlf, if_neg fun hc => hne hc.1, hrest]
    rfl

lemma HttpHeader.cr_notMem (h : HttpHeader) : cr ∉ h.line := by
  intro hmem
  rcases List.mem_append.mp hmem with hname | hmem
  · exact (h.nameOk cr hname).2.1 rfl
  · rcases List.mem_cons.mp hmem with hcolon | hmem
    · exact absurd hcolon (by decide)
    · rcases List.mem_append.mp hmem with hpad | hvalue
      · exact absurd (h.padOk cr hpad) (by decide)
      · exact (h.valueOk cr hvalue).1 rfl

lemma WsClientRequest.cr_notMem (r : WsClientRequest) : cr ∉ r.line := by
  intro hmem
  rcases List.mem_append.mp hmem with hmem | hmem
  · rcases List.mem_append.mp hmem with hget | htarget
    · exact absurd hget (by decide)
    · exact (r.targetOk cr htarget).2.1 rfl
  · rcases List.mem_cons.mp hmem with hblank | hversion
    · exact absurd hblank (by decide)
    · exact (r.versionOk cr hversion).1 rfl

lemma headerBlock_cons (h : HttpHeader) (more : List HttpHeader) :
    headerBlock (h :: more) = h.line ++ crlf ++ headerBlock more := by
  rw [headerBlock, List.flatMap_cons, List.append_assoc, headerBlock]

lemma lower_eq_colon {b : UInt8} (h : lower b = 0x3A) : b = 0x3A :=
  forall_byte (p := fun b => lower b = 0x3A → b = 0x3A) (by decide +kernel) b h

/-- A line has the name when it begins with it and a colon follows. -/
lemma named_iff (h : HttpHeader) {name : Bytes} (hname : 0x3A ∉ name) (more : Bytes) :
    (name.length + 2 < h.line.length ∧ strncasecmp (h.line ++ more) name name.length = true ∧
      (h.line ++ more).getD name.length 0 = 0x3A) ↔ strIeq h.name name = true := by
  have hlong := h.long
  have hline : h.line ++ more = h.name ++ 0x3A :: (h.pad ++ h.value ++ more) := by
    rw [HttpHeader.line, List.append_assoc, List.cons_append]
  have hlen : h.line.length = h.name.length + 1 + (h.pad.length + h.value.length) := by
    rw [HttpHeader.line, List.length_append, List.length_cons, List.length_append]
    omega
  rw [hlen, hline, strncasecmp, strIeq, decide_eq_true_eq, decide_eq_true_eq, List.take_length]
  constructor
  · rintro ⟨-, hsame, hcolon⟩
    rcases lt_trichotomy name.length h.name.length with hlt | heq | hgt
    · rw [List.getD_eq_getElem?_getD, List.getElem?_append_left hlt, List.getElem?_eq_getElem hlt,
        Option.getD_some] at hcolon
      exact absurd hcolon (h.nameOk _ (List.getElem_mem hlt)).1
    · rwa [heq, List.take_left] at hsame
    · -- the colon of the line stands within the name
      have hat := congrArg (fun l => l[h.name.length]?) hsame
      beta_reduce at hat
      rw [List.getElem?_map, List.getElem?_map, List.getElem?_take_of_lt hgt, List.getElem?_append_right le_rfl,
        Nat.sub_self, List.getElem?_cons_zero, List.getElem?_eq_getElem hgt, Option.map_some, Option.map_some,
        Option.some_inj] at hat
      have hmem := List.getElem_mem hgt
      rw [lower_eq_colon hat.symm] at hmem
      exact absurd hmem hname
  · intro hsame
    have heq : h.name.length = name.length := by
      have hl := congrArg List.length hsame
      rwa [List.length_map, List.length_map] at hl
    rw [← heq, List.take_left, List.getD_eq_getElem?_getD, List.getElem?_append_right le_rfl, Nat.sub_self]
    exact ⟨by omega, hsame, rfl⟩

/-- The value that is found, with the text behind it. -/
lemma headerLoop_block {name : Bytes} (hname : 0x3A ∉ name) {fuel : ℕ} {headers : List HttpHeader}
    (hfuel : headers.length < fuel) :
    headerLoop name fuel (headerBlock headers) = (findHeader name headers).map textFrom := by
  induction headers generalizing fuel with
  | nil =>
    obtain _ | fuel := fuel
    · exact absurd hfuel (Nat.not_lt_zero _)
    · rw [headerLoop, show headerBlock [] = [] ++ crlf ++ [] from rfl, splitCrlf_line List.not_mem_nil]
      dsimp only
      rw [if_neg (fun h => Nat.not_lt_zero _ h.1)]
      cases fuel <;> rfl
  | cons h more ih =>
    obtain _ | fuel := fuel
    · exact absurd hfuel (Nat.not_lt_zero _)
    · rw [headerLoop, headerBlock_cons, splitCrlf_line h.cr_notMem]
      dsimp only
      rw [List.append_assoc, if_congr (named_iff h hname _) rfl rfl, findHeader]
      by_cases hn : strIeq h.name name = true
      · have hlen : h.name.length = name.length := by
          rw [strIeq, decide_eq_true_eq] at hn
          have hl := congrArg List.length hn
          rwa [List.length_map, List.length_map] at hl
        have hline : h.line ++ (crlf ++ headerBlock more) =
            h.name ++ [0x3A] ++ (h.pad ++ (h.value ++ crlf ++ headerBlock more)) := by
          rw [HttpHeader.line]
          simp only [List.append_assoc, List.cons_append, List.nil_append]
        have hvalue : (h.pad ++ (h.value ++ crlf ++ headerBlock more)).dropWhile isPad =
            h.value ++ crlf ++ headerBlock more := by
          rw [List.dropWhile_append_of_pos h.padOk]
          apply dropWhile_of_head
          intro b hb
          cases hv : h.value with
          | nil =>
            rw [hv] at hb
            obtain rfl : cr = b := Option.some_inj.mp hb
            decide
          | cons c value =>
            rw [hv] at hb
            exact h.headOk b (by rw [hv]; exact hb)
        rw [if_pos hn, if_pos hn, hline, List.drop_left' (by rw [List.length_append, hlen, List.length_singleton]),
          hvalue]
        rfl
      · rw [if_neg hn, if_neg hn]
        exact ih (by rw [List.length_cons] at hfuel; omega)

/-- The request line is no header of a name that does not begin with a G. -/
lemma headerValue_request (r : WsClientRequest) {name : Bytes} (hname : 0x3A ∉ name)
    (hg : ∀ b ∈ name.head?, lower b ≠ 0x67) (hne : name ≠ []) :
    headerValue r.bytes name = (findHeader name r.headers).map textFrom := by
  have hcount : ∀ headers : List HttpHeader, headers.length ≤ (headerBlock headers).length := by
    intro headers
    induction headers with
    | nil => exact Nat.zero_le _
    | cons h more ih =>
      rw [headerBlock_cons, List.length_append, List.length_append, List.length_cons]
      have hcrlf : crlf.length = 2 := rfl
      omega
  obtain ⟨c, rest, rfl⟩ := List.exists_cons_of_ne_nil hne
  have hnot : strncasecmp r.bytes (c :: rest) (c :: rest).length ≠ true := by
    have hfirst : r.bytes = 0x47 :: r.bytes.tail := rfl
    rw [hfirst, strncasecmp, ne_eq, decide_eq_true_eq, List.length_cons, List.take_succ_cons, List.take_succ_cons,
      List.map_cons, List.map_cons]
    intro hsame
    exact hg c rfl (List.cons.inj hsame).1.symm
  have hsplit : splitCrlf r.bytes = some (r.line, headerBlock r.headers) := splitCrlf_line r.cr_notMem _
  rw [headerValue, headerLoop, hsplit]
  dsimp only
  rw [if_neg fun h => hnot h.2.1]
  apply headerLoop_block hname
  have hlen : r.bytes.length = r.line.length + 2 + (headerBlock r.headers).length := by
    rw [WsClientRequest.bytes, List.length_append, List.length_append]
    rfl
  have hle := hcount r.headers
  omega

lemma pathMatches_iff (r : WsClientRequest) (path : Bytes) :
    pathMatches r.line path = true ↔ path = [] ∨ r.target = path ∨ path ++ [0x3F] <+: r.target := by
  have htarget : ∀ b ∈ r.target, (decide (b ≠ blank)) = true := fun b hb => decide_eq_true (r.targetOk b hb).1
  have hget : r.line = [0x47, 0x45, 0x54] ++ blank :: (r.target ++ blank :: r.version) := by
    rw [WsClientRequest.line, List.append_assoc]
    rfl
  have hfirst : (r.line.dropWhile (· ≠ blank)).tail = r.target ++ blank :: r.version := by
    rw [hget]
    rfl
  have hlen : ((r.target ++ blank :: r.version).takeWhile (· ≠ blank)) = r.target := by
    rw [List.takeWhile_append_of_pos htarget, List.takeWhile_cons_of_neg (by simp), List.append_nil]
  rw [pathMatches]
  by_cases hnil : path = []
  · rw [if_pos hnil]
    exact ⟨fun _ => Or.inl hnil, fun _ => rfl⟩
  · rw [if_neg hnil, if_neg (by rw [hget]; simp), hfirst]
    dsimp only
    rw [if_neg (by simp), hlen]
    by_cases hpre : path <+: r.target
    · obtain ⟨t, ht⟩ := hpre
      rw [← ht, if_neg (by rw [List.length_append]; omega), List.append_assoc, List.take_left, if_neg (not_not.mpr rfl),
        List.drop_left]
      cases t with
      | nil => simp
      | cons c t =>
        have hc : c ≠ blank := (r.targetOk c (by rw [← ht]; simp)).1
        have hmark : path ++ [0x3F] <+: path ++ c :: t ↔ c = 0x3F := by
          rw [List.prefix_append_right_inj, List.cons_prefix_cons]
          exact ⟨fun h => h.1.symm, fun h => ⟨h.symm, List.nil_prefix⟩⟩
        rw [hmark]
        simp [hnil, hc]
    · have hno : ¬(path = [] ∨ r.target = path ∨ path ++ [0x3F] <+: r.target) := by
        rintro (h | h | h)
        · exact hnil h
        · exact hpre (h ▸ List.prefix_rfl)
        · exact hpre ((List.prefix_append _ _).trans h)
      refine iff_of_false ?_ hno
      by_cases hshort : r.target.length < path.length
      · rw [if_pos hshort]
        exact Bool.false_ne_true
      · rw [if_neg hshort, if_pos]
        · exact Bool.false_ne_true
        · rw [List.take_append_of_le_length (not_lt.mp hshort)]
          exact fun h => hpre (h ▸ List.take_prefix _ _)

end Lines

section Reading

/-- An empty line comes right behind a line, or later. -/
lemma crlf_twice {line rest text more : Bytes} (hline : cr ∉ line)
    (h : line ++ crlf ++ rest = text ++ (crlf ++ crlf) ++ more) :
    rest = crlf ++ more ∨ ∃ later, rest = later ++ (crlf ++ crlf) ++ more := by
  induction line generalizing text with
  | nil =>
    obtain _ | ⟨c, _ | ⟨d, text⟩⟩ := text
    · exact Or.inl (List.append_cancel_left h)
    · exact absurd (List.cons.inj (List.cons.inj h).2).1 (by decide)
    · exact Or.inr ⟨text, (List.cons.inj (List.cons.inj h).2).2⟩
  | cons a line ih =>
    obtain _ | ⟨c, text⟩ := text
    · exact absurd (List.cons.inj h).1 fun ha => hline (ha ▸ List.mem_cons_self)
    · exact ih (fun hmem => hline (List.mem_cons_of_mem a hmem)) (List.cons.inj h).2

/-- A block begins with an empty line only when it has no headers. -/
lemma headerBlock_empty {headers : List HttpHeader} {more : Bytes} (h : headerBlock headers = crlf ++ more) :
    more = [] := by
  cases headers with
  | nil => exact List.append_cancel_left (h.symm.trans (List.append_nil crlf).symm)
  | cons header rest =>
    obtain ⟨b, line, hb⟩ : ∃ b line, header.line = b :: line := by
      rw [HttpHeader.line]
      cases header.name with
      | nil => exact ⟨_, _, rfl⟩
      | cons b name => exact ⟨_, _, rfl⟩
    have hcr := header.cr_notMem
    rw [headerBlock_cons, hb] at h
    rw [hb] at hcr
    exact absurd (List.cons.inj h).1 fun heq => hcr (heq ▸ List.mem_cons_self)

/-- The empty line that ends a request stands nowhere before. -/
lemma headerBlock_end {headers : List HttpHeader} {text more : Bytes}
    (h : headerBlock headers = text ++ (crlf ++ crlf) ++ more) : more = [] := by
  induction headers generalizing text with
  | nil =>
    have hlen := congrArg List.length h
    rw [List.length_append, List.length_append] at hlen
    have hfour : (crlf ++ crlf).length = 4 := rfl
    have htwo : (headerBlock []).length = 2 := rfl
    omega
  | cons header rest ih =>
    rw [headerBlock_cons] at h
    rcases crlf_twice header.cr_notMem h with hfirst | ⟨later, hlater⟩
    · exact headerBlock_empty hfirst
    · exact ih hlater

lemma request_end {r : WsClientRequest} {text more : Bytes} (h : r.bytes = text ++ (crlf ++ crlf) ++ more) :
    more = [] := by
  rcases crlf_twice r.cr_notMem h with hfirst | ⟨later, hlater⟩
  · exact headerBlock_empty hfirst
  · exact headerBlock_end hlater

/-- Segments of a stream that is complete at its end and not before. -/
lemma wsReadRequest_segments {stream : Bytes} (hlen : stream.length < wsHandshakeMax) (hzero : 0 ∉ stream)
    (hwhole : crlf ++ crlf <:+: stream) (hend : ∀ rx, rx <+: stream → crlf ++ crlf <:+: rx → rx = stream)
    {segments : List Bytes} {buf : Bytes} (hsegments : buf ++ segments.flatten = stream)
    (hne : ∀ seg ∈ segments, seg ≠ []) (hmore : buf ≠ stream) :
    wsReadRequest buf (segments.map some) = .read stream := by
  induction segments generalizing buf with
  | nil =>
    rw [List.flatten_nil, List.append_nil] at hsegments
    exact absurd hsegments hmore
  | cons seg segments ih =>
    obtain ⟨b, bs, rfl⟩ := List.exists_cons_of_ne_nil (hne seg List.mem_cons_self)
    rw [List.flatten_cons, ← List.append_assoc] at hsegments
    have hpre : buf ++ b :: bs <+: stream := ⟨_, hsegments⟩
    have hfits : (b :: bs).length ≤ wsHandshakeMax - 1 - buf.length := by
      have hle := hpre.length_le
      rw [List.length_append] at hle
      omega
    have hstr : cstr (buf ++ b :: bs) = buf ++ b :: bs :=
      cstr_of_notMem fun hmem => hzero (hpre.subset hmem)
    rw [List.map_cons, wsReadRequest, List.take_of_length_le hfits, hstr]
    by_cases hdone : buf ++ b :: bs = stream
    · rw [hdone, if_pos hwhole]
    · have hroom : (buf ++ b :: bs).length + 1 < wsHandshakeMax := by
        have hlt : (buf ++ b :: bs).length < stream.length :=
          lt_of_le_of_ne hpre.length_le fun heq => hdone (hpre.eq_of_length heq)
        omega
      rw [if_neg fun h => hdone (hend _ hpre h), if_pos hroom]
      exact ih hsegments (fun seg hseg => hne seg (List.mem_cons_of_mem _ hseg)) hdone

lemma request_whole (r : WsClientRequest) : crlf ++ crlf <:+: r.bytes := by
  have hblock : ∀ headers, crlf ++ crlf <:+ crlf ++ headerBlock headers := by
    intro headers
    induction headers with
    | nil => exact List.suffix_rfl
    | cons h more ih =>
      rw [headerBlock_cons, List.append_assoc, ← List.append_assoc]
      exact ih.trans (List.suffix_append _ _)
  rw [WsClientRequest.bytes, List.append_assoc]
  exact ((hblock r.headers).trans (List.suffix_append _ _)).isInfix

lemma zero_notMem_request (r : WsClientRequest) : 0 ∉ r.bytes := by
  have hcrlf : 0 ∉ crlf := by decide
  have hblock : ∀ headers, 0 ∉ headerBlock headers := by
    intro headers
    induction headers with
    | nil => exact hcrlf
    | cons h more ih =>
      have hline : 0 ∉ h.line := by
        intro hmem
        rcases List.mem_append.mp hmem with hname | hmem
        · exact (h.nameOk 0 hname).2.2 rfl
        · rcases List.mem_cons.mp hmem with hcolon | hmem
          · exact absurd hcolon (by decide)
          · rcases List.mem_append.mp hmem with hpad | hvalue
            · exact absurd (h.padOk 0 hpad) (by decide)
            · exact (h.valueOk 0 hvalue).2 rfl
      rw [headerBlock_cons, List.mem_append, List.mem_append]
      rintro ((hmem | hmem) | hmem)
      · exact hline hmem
      · exact hcrlf hmem
      · exact ih hmem
  have hline : 0 ∉ r.line := by
    intro hmem
    rcases List.mem_append.mp hmem with hmem | hmem
    · rcases List.mem_append.mp hmem with hget | htarget
      · exact absurd hget (by decide)
      · exact (r.targetOk 0 htarget).2.2 rfl
    · rcases List.mem_cons.mp hmem with hblank | hversion
      · exact absurd hblank (by decide)
      · exact (r.versionOk 0 hversion).2 rfl
  rw [WsClientRequest.bytes, List.mem_append, List.mem_append]
  rintro ((hmem | hmem) | hmem)
  · exact hline hmem
  · exact hcrlf hmem
  · exact hblock _ hmem

/-- However it is cut, a request that fits is read to its end and no further. -/
lemma wsReadRequest_request (r : WsClientRequest) (hlen : r.bytes.length < wsHandshakeMax) {segments : List Bytes}
    (hsegments : segments.flatten = r.bytes) (hne : ∀ seg ∈ segments, seg ≠ []) :
    wsReadRequest [] (segments.map some) = .read r.bytes := by
  apply wsReadRequest_segments hlen (zero_notMem_request r) (request_whole r) _ _ hne
  · intro h
    have hwhole := (request_whole r).length_le
    rw [← h] at hwhole
    exact absurd hwhole (by decide)
  · rintro rx ⟨more, hmore⟩ ⟨text, rest, hrx⟩
    have hnil : rest ++ more = [] := request_end (by rw [← hmore, ← hrx, List.append_assoc _ rest])
    rw [← hmore, (List.append_eq_nil_iff.mp hnil).2, List.append_nil]
  · rw [List.nil_append, hsegments]

end Reading

section Answer

variable (stack : Vector UInt8 64) (path : Bytes) (r : WsClientRequest)

/-- A value that the rest of the request follows is compared as it is. -/
lemma headerValueEquals_text (found : HttpHeader × List HttpHeader) {expected : Bytes} (hcr : cr ∉ expected) :
    headerValueEquals (textFrom found) expected = headerValueEquals found.1.value expected := by
  have htext : textFrom found = found.1.value ++ cr :: (nl :: headerBlock found.2) := by
    rw [textFrom, List.append_assoc]
    rfl
  have hlower : ∀ b, lower b = cr → b = cr :=
    forall_byte (p := fun b => lower b = cr → b = cr) (by decide +kernel)
  rw [headerValueEquals, headerValueEquals, htext, strncasecmp, strncasecmp, List.take_length]
  rcases lt_trichotomy found.1.value.length expected.length with hlt | heq | hgt
  · -- a value that is too short is followed by a line end, which is nothing that is expected
    have hmem : (found.1.value ++ cr :: (nl :: headerBlock found.2)).take expected.length ≠ [] ∧
        cr ∈ (found.1.value ++ cr :: (nl :: headerBlock found.2)).take expected.length := by
      have hget : ((found.1.value ++ cr :: (nl :: headerBlock found.2)).take expected.length)[found.1.value.length]? =
          some cr := by
        rw [List.getElem?_take_of_lt hlt, List.getElem?_append_right le_rfl, Nat.sub_self]
        rfl
      have hin := List.mem_of_getElem? hget
      exact ⟨List.ne_nil_of_mem hin, hin⟩
    have hlong : ((found.1.value ++ cr :: (nl :: headerBlock found.2)).take expected.length).map lower ≠
        expected.map lower := by
      intro hsame
      have hin : cr ∈ expected.map lower := by
        rw [← hsame]
        exact List.mem_map.mpr ⟨cr, hmem.2, rfl⟩
      obtain ⟨b, hb, hbcr⟩ := List.mem_map.mp hin
      exact hcr (hlower b hbcr ▸ hb)
    have hshort : (found.1.value.take expected.length).map lower ≠ expected.map lower := by
      intro hsame
      have hl := congrArg List.length hsame
      rw [List.length_map, List.length_map, List.length_take, min_eq_right hlt.le] at hl
      omega
    rw [if_pos (decide_eq_false hlong), if_pos (decide_eq_false hshort)]
  · rw [← heq, List.take_left, List.drop_left, List.take_length, List.drop_length]
    rfl
  · rw [List.take_append_of_le_length hgt.le, List.drop_append_of_le_length hgt.le]
    cases hdrop : found.1.value.drop expected.length with
    | nil =>
      have hl := congrArg List.length hdrop
      rw [List.length_drop, List.length_nil] at hl
      omega
    | cons c rest => rfl

lemma wsKey_request : wsKey r.bytes = (findHeader (ofString "Sec-WebSocket-Key") r.headers).bind fun found =>
    if 128 ≤ (found.1.value.rdropWhile isPad).length then none else some (found.1.value.rdropWhile isPad) := by
  have hname := @headerValue_request r (ofString "Sec-WebSocket-Key") (by decide) (by decide +kernel) (by decide)
  rw [wsKey, hname]
  cases findHeader (ofString "Sec-WebSocket-Key") r.headers with
  | none => rfl
  | some found =>
    have hcr : cr ∉ found.1.value := fun hmem => (found.1.valueOk cr hmem).1 rfl
    rw [Option.map_some, Option.bind_some, Option.bind_some, textFrom, splitCrlf_line hcr]
    rfl

lemma accept_some (key : Bytes) : ∃ accept, Base64.decode accept = some (Sha.sha1 (key ++ wsGuid)) ∧
    base64Encode (hybbxWsSha1 stack (key ++ wsGuid)) 64 = some accept := by
  have hlen : (Sha.sha1 (key ++ wsGuid)).length = 20 := by
    rw [Sha.sha1, Sha.Sha1State.bytes]
    rfl
  rw [hybbxWsSha1_eq]
  exact ⟨_, Base64.decode_encode _, base64Encode_eq (by rw [hlen]; decide)⟩

lemma wsAnswer_request :
    (∀ key, r.key path = some key → ∃ accept, Base64.decode accept = some (Sha.sha1 (key ++ wsGuid)) ∧
      wsAnswer stack path r.bytes = (.ok, wsResponse accept)) ∧
    (r.key path = none → wsAnswer stack path r.bytes = (.errDenied, [])) := by
  have hget : ofString "GET " <+: r.bytes := ⟨r.bytes.drop 4, rfl⟩
  have hsplit : splitCrlf r.bytes = some (r.line, headerBlock r.headers) := splitCrlf_line r.cr_notMem _
  have hupgrade := @headerValue_request r (ofString "Upgrade") (by decide) (by decide +kernel) (by decide)
  have hconnection := @headerValue_request r (ofString "Connection") (by decide) (by decide +kernel) (by decide)
  have hkey := wsKey_request r
  rw [wsAnswer, if_neg (not_not.mpr hget), hsplit, WsClientRequest.key]
  dsimp only
  by_cases hpath : r.line.length < 256 ∧ (path = [] ∨ r.target = path ∨ path ++ [0x3F] <+: r.target)
  · have hmatches := (pathMatches_iff r path).mpr hpath.2
    rw [if_pos hpath, if_neg (by rw [hmatches]; simpa using hpath.1), hupgrade, hconnection]
    cases findHeader (ofString "Upgrade") r.headers with
    | none => exact ⟨fun key h => absurd h (by simp), fun _ => rfl⟩
    | some upgrade =>
      cases findHeader (ofString "Connection") r.headers with
      | none => exact ⟨fun key h => absurd h (by simp), fun _ => rfl⟩
      | some connection =>
        rw [Option.map_some, Option.map_some, Option.bind_some, Option.bind_some]
        dsimp only
        rw [headerValueEquals_text upgrade (by decide), hkey]
        by_cases hgood : headerValueEquals upgrade.1.value (ofString "websocket") = true ∧
            headerHasToken (textFrom connection) (ofString "upgrade") = true
        · rw [if_neg (by rw [hgood.1, hgood.2]; decide)]
          cases findHeader (ofString "Sec-WebSocket-Key") r.headers with
          | none => exact ⟨fun key h => absurd h (by simp), fun _ => rfl⟩
          | some found =>
            rw [Option.bind_some, Option.bind_some]
            by_cases hlong : 128 ≤ (found.1.value.rdropWhile isPad).length
            · rw [if_pos hlong, if_neg fun h => absurd h.2.2 (not_lt.mpr hlong)]
              exact ⟨fun key h => absurd h (by simp), fun _ => rfl⟩
            · rw [if_neg hlong, if_pos ⟨hgood.1, hgood.2, not_le.mp hlong⟩]
              refine ⟨fun key h => ?_, fun h => absurd h (by simp)⟩
              obtain ⟨accept, hdecode, hencode⟩ := accept_some stack key
              rw [← Option.some_inj.mp h] at hencode hdecode
              refine ⟨accept, by rw [← Option.some_inj.mp h]; exact hdecode, ?_⟩
              dsimp only
              rw [hencode]
        · have hbad : headerValueEquals upgrade.1.value (ofString "websocket") = false ∨
              headerHasToken (textFrom connection) (ofString "upgrade") = false := by
            rw [← Bool.not_eq_true, ← Bool.not_eq_true]
            exact not_and_or.mp hgood
          rw [if_pos hbad]
          refine ⟨fun key h => ?_, fun _ => rfl⟩
          obtain ⟨found, -, hfound⟩ := Option.bind_eq_some_iff.mp h
          rw [if_neg fun hc => hgood ⟨hc.1, hc.2.1⟩] at hfound
          exact absurd hfound (by simp)
  · have hdenied : 256 ≤ r.line.length ∨ pathMatches r.line path = false := by
      by_cases hlong : 256 ≤ r.line.length
      · exact Or.inl hlong
      · right
        rw [Bool.eq_false_iff, ne_eq, pathMatches_iff]
        exact fun h => hpath ⟨not_le.mp hlong, h⟩
    rw [if_neg hpath, if_pos hdenied]
    exact ⟨fun key h => absurd h (by simp), fun _ => rfl⟩

end Answer

end HyBBX.Websocket
