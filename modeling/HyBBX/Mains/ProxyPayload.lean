import HyBBX.Circuit.Frame
import HyBBX.Lib.Text

/-! Mail and chat between Mains: header lines, a separator line, the body. -/

namespace HyBBX.Mains

open Lib Lib.Bytes Lib.Text Circuit

def proxymailAddressMax : ℕ := 128
def mailSubjectMax : ℕ := 72

inductive ProxyMessage
  | mail (fromAddress toAddress subject body : Bytes)
  | chat (fromAddress line : Bytes)
  deriving DecidableEq, Repr

def ProxyMessage.proto : ProxyMessage → CircuitProto
  | .mail .. => .proxyMail
  | .chat .. => .proxyChat

def isBlank (b : UInt8) : Bool := b = blank || b = tab

def isNewline (b : UInt8) : Bool := b = cr || b = nl

def proxyPayloadLine (key : Bytes) (outLen : ℕ) (line : Bytes) : Option Bytes :=
  if key ++ [equals] <+: line then
    some (cstr (((line.drop (key.length + 1)).dropWhile isBlank).take (outLen - 1)))
  else none

def proxyPayloadGetLine (payload key : Bytes) (outLen : ℕ) : Option Bytes :=
  (lines payload).findSome? (proxyPayloadLine key outLen)

def separator : Bytes := ofString "---"

-- the separator is looked for at the start of the payload only
def proxyPayloadBody (payload : Bytes) : Option Bytes :=
  if separator ++ [cr, nl] <+: payload then some ((payload.drop 5).dropWhile isNewline)
  else if separator ++ [nl] <+: payload then some ((payload.drop 4).dropWhile isNewline)
  else none

def headerLine (key : String) (value : Bytes) : Bytes := ofString key ++ equals :: value ++ [nl]

def proxyBuildMailPayload (outCap : ℕ) (fromAddress toAddress subject body : Bytes) : Option Bytes :=
  if outCap = 0 then none
  else snappend outCap []
    (headerLine "from" fromAddress ++ (headerLine "to" toAddress ++ (headerLine "sub" subject ++
      (separator ++ nl :: body))))

def proxyBuildChatPayload (outCap : ℕ) (fromAddress line : Bytes) : Option Bytes :=
  if outCap = 0 then none
  else snappend outCap [] (headerLine "from" fromAddress ++ (separator ++ nl :: line))

def proxyBuildPayload (outCap : ℕ) : ProxyMessage → Option Bytes
  | .mail fromAddress toAddress subject body =>
    proxyBuildMailPayload outCap fromAddress toAddress subject body
  | .chat fromAddress line => proxyBuildChatPayload outCap fromAddress line

/-- The message handed to the receiver, or `none` when nothing is received. -/
def proxyDispatchPayload (proto : CircuitProto) (payload : Bytes) : Option ProxyMessage := do
  if payload.length = 0 ∨ circuitMaxPayload < payload.length then none
  let fromAddress ← proxyPayloadGetLine payload (ofString "from") proxymailAddressMax
  if proto = .proxyMail then
    let toAddress ← proxyPayloadGetLine payload (ofString "to") proxymailAddressMax
    let subj := (proxyPayloadGetLine payload (ofString "sub") (mailSubjectMax + 1)).getD []
    let body ← proxyPayloadBody payload
    some (.mail fromAddress toAddress subj (cstr body))
  else if proto = .proxyChat then
    let body ← proxyPayloadBody payload
    some (.chat fromAddress (cstr body))
  else none

/-- A header value that comes back unchanged. -/
structure HeaderValue (outLen : ℕ) (v : Bytes) : Prop where
  oneLine : nl ∉ v
  string : 0 ∉ v
  fits : v.length < outLen
  unblank : ∀ b ∈ v.head?, isBlank b = false

lemma getLine_hit {key : String} (hk : nl ∉ ofString key) {outLen : ℕ} {v : Bytes} (hv : HeaderValue outLen v)
    (rest : Bytes) : proxyPayloadGetLine (headerLine key v ++ rest) (ofString key) outLen = some v := by
  have hn : nl ∉ ofString key ++ equals :: v := nl_notMem_kv hk hv.oneLine
  have hp : ofString key ++ [equals] <+: ofString key ++ equals :: v := ⟨v, by simp⟩
  have hd : (ofString key ++ equals :: v).drop ((ofString key).length + 1) = v := by
    simp [List.drop_append]
  have hfit := hv.fits
  rw [headerLine, List.append_assoc, List.singleton_append, proxyPayloadGetLine, lines_append_nl hn,
    List.findSome?_cons, proxyPayloadLine, if_pos hp, hd, dropWhile_of_head hv.unblank,
    List.take_of_length_le (by omega), cstr_of_notMem hv.string]

lemma getLine_skip {key other : String} (ho : nl ∉ ofString other) {v : Bytes} (hv : nl ∉ v)
    (hne : ¬ ofString key ++ [equals] <+: ofString other ++ equals :: v) (outLen : ℕ) (rest : Bytes) :
    proxyPayloadGetLine (headerLine other v ++ rest) (ofString key) outLen =
      proxyPayloadGetLine rest (ofString key) outLen := by
  rw [headerLine, List.append_assoc, List.singleton_append, proxyPayloadGetLine,
    lines_append_nl (nl_notMem_kv ho hv), List.findSome?_cons, proxyPayloadLine, if_neg hne]
  rfl

/-- The three scanners of the header find what the builder wrote. -/
lemma mail_headers {cap : ℕ} {fromAddress toAddress subject body p : Bytes}
    (h : proxyBuildMailPayload cap fromAddress toAddress subject body = some p)
    (hf : HeaderValue proxymailAddressMax fromAddress) (ht : HeaderValue proxymailAddressMax toAddress)
    (hs : HeaderValue (mailSubjectMax + 1) subject) :
    proxyPayloadGetLine p (ofString "from") proxymailAddressMax = some fromAddress ∧
      proxyPayloadGetLine p (ofString "to") proxymailAddressMax = some toAddress ∧
      proxyPayloadGetLine p (ofString "sub") (mailSubjectMax + 1) = some subject := by
  simp only [proxyBuildMailPayload, snappend, List.nil_append] at h
  split_ifs at h
  obtain rfl := Option.some.inj h
  refine ⟨getLine_hit (by decide) hf _, ?_, ?_⟩
  · rw [getLine_skip (by decide) hf.oneLine (by simp [ofString])]
    exact getLine_hit (by decide) ht _
  · rw [getLine_skip (by decide) hf.oneLine (by simp [ofString]),
      getLine_skip (by decide) ht.oneLine (by simp [ofString])]
    exact getLine_hit (by decide) hs _

lemma body_of_header (fromAddress rest : Bytes) : proxyPayloadBody (headerLine "from" fromAddress ++ rest) = none := by
  rw [proxyPayloadBody, if_neg, if_neg]
  · simp [separator, headerLine, ofString]
  · simp [separator, headerLine, ofString]

/-- A built payload starts with its first header, so the separator is never found. -/
theorem built_payload_never_received (outCap : ℕ) (msg : ProxyMessage) {p : Bytes}
    (h : proxyBuildPayload outCap msg = some p) :
    proxyDispatchPayload msg.proto p = none ∧ proxyDispatchPayload msg.proto p ≠ some msg := by
  have hb : proxyPayloadBody p = none := by
    cases msg with
    | mail fromAddress toAddress subject body =>
      simp only [proxyBuildPayload, proxyBuildMailPayload, snappend, List.nil_append] at h
      split_ifs at h
      obtain rfl := Option.some.inj h
      exact body_of_header _ _
    | chat fromAddress line =>
      simp only [proxyBuildPayload, proxyBuildChatPayload, snappend, List.nil_append] at h
      split_ifs at h
      obtain rfl := Option.some.inj h
      exact body_of_header _ _
  have hd : proxyDispatchPayload msg.proto p = none := by
    simp [proxyDispatchPayload, hb]
  exact ⟨hd, by simp [hd]⟩

def greeting : ProxyMessage := .mail (ofString "ann@east") (ofString "bob@west") (ofString "hi") (ofString "73")

def greetingPayload : Bytes := ofString "from=ann@east\nto=bob@west\nsub=hi\n---\n73"

theorem greeting_never_received :
    proxyDispatchPayload .proxyMail greetingPayload = none ∧
      proxyDispatchPayload .proxyMail greetingPayload ≠ some greeting :=
  built_payload_never_received circuitMaxPayload greeting (by decide)

theorem greeting_lost :
    proxyBuildPayload circuitMaxPayload greeting = some greetingPayload ∧
      greetingPayload.length ≤ circuitMaxPayload ∧
      proxyDispatchPayload greeting.proto greetingPayload ≠ some greeting := by
  refine ⟨?_, ?_, ?_⟩ <;> decide

end HyBBX.Mains
