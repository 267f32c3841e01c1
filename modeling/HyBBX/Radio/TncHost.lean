import HyBBX.Lib.Text
import HyBBX.Lib.Transducer

/-! The host mode of a TNC: lines from the controller switch between the command state and a connection,
and whatever else comes while it is connected goes to the user. Both callbacks are set. -/

namespace HyBBX.Radio

open Lib Lib.Bytes Lib.Text Lib.Transducer

inductive TncHostState
  | boot
  | cmd
  | connected
  deriving DecidableEq, Repr

def hostLineSize : ℕ := 256

structure TncHost where
  state : TncHostState
  line : Bytes
  fits : line.length < hostLineSize
  deriving DecidableEq

inductive HostOutput
  | text (data : Bytes)
  | event (state : TncHostState)
  deriving DecidableEq, Repr

def tncHostInit : TncHost := ⟨.boot, [], by decide⟩

/-- The line begins with the prefix, in either letter case. -/
def hostLineIeq (line start : Bytes) : Bool := (start.map lower).isPrefixOf (line.map lower)

def strstr (line needle : Bytes) : Bool := decide (needle <:+: line)

def stars : Bytes := ofString "***"

def hostEmitEvent (host : TncHost) (state : TncHostState) : TncHost × List HostOutput :=
  if host.state = state then (host, []) else ({ host with state := state }, [.event state])

def hostProcessLine (host : TncHost) : TncHost × List HostOutput :=
  let line := cstr host.line
  if hostLineIeq line (ofString "cmd:") || hostLineIeq line (ofString "cmd: ") then hostEmitEvent host .cmd
  else if strstr line stars && (hostLineIeq line (ofString "*** connected") ||
      hostLineIeq line (ofString "*** connected ") || strstr line (ofString "CONNECTED")) then
    hostEmitEvent host .connected
  else if strstr line stars && (hostLineIeq line (ofString "*** disconnected") ||
      strstr line (ofString "DISCONNECTED")) then
    hostEmitEvent host .cmd
  else if host.state = .connected ∧ line ≠ [] then (host, [.text line, .text [cr, nl]])
  else (host, [])

def TncHost.push (host : TncHost) (b : UInt8) : TncHost :=
  if h : hostLineSize ≤ host.line.length + 1 then { host with line := [], fits := by decide }
  else { host with line := host.line ++ [b], fits := by rw [List.length_append]; exact not_le.mp h }

def isLineEnd (b : UInt8) : Bool := b = cr || b = nl

def hostPushByte (host : TncHost) (b : UInt8) : TncHost × List HostOutput :=
  if isLineEnd b then
    if 0 < host.line.length then
      let r := hostProcessLine host
      ({ r.1 with line := [], fits := by decide }, r.2)
    else (host, [])
  else (host.push b, [])

def tncHostFeed (host : TncHost) (data : Bytes) : TncHost × List HostOutput := run hostPushByte host data

/-- A line of the controller with the byte that ends it. -/
structure FedLine where
  text : Bytes
  last : UInt8
  plain : ∀ b ∈ text, isLineEnd b = false
  ends : isLineEnd last = true

def FedLine.bytes (l : FedLine) : Bytes := l.text ++ [l.last]

def hostFeedLine (host : TncHost) (l : FedLine) : TncHost × List HostOutput := tncHostFeed host l.bytes

/-- What is left of a line in the buffer: each time it is full, it starts over. -/
def keptLine (text : Bytes) : Bytes := text.drop (text.length - text.length % hostLineSize)

/-- The part of a line that the string functions see. -/
def seenLine (text : Bytes) : Bytes := cstr (keptLine text)

def isPrompt (line : Bytes) : Bool := hostLineIeq line (ofString "cmd:")

/-- The test for a connect notice as the code makes it, before the one for a disconnect notice. -/
def readAsConnected (line : Bytes) : Bool :=
  strstr line stars && (hostLineIeq line (ofString "*** connected") || strstr line (ofString "CONNECTED"))

def DisconnectNotice (line : Bytes) : Prop := stars <:+: line ∧ ofString "disconnected" <:+: line.map lower

def ConnectNotice (line : Bytes) : Prop :=
  stars <:+: line ∧ ofString "connected" <:+: line.map lower ∧ ¬ofString "disconnected" <:+: line.map lower

instance : DecidablePred DisconnectNotice := fun line =>
  inferInstanceAs (Decidable (stars <:+: line ∧ ofString "disconnected" <:+: line.map lower))

instance : DecidablePred ConnectNotice := fun line =>
  inferInstanceAs (Decidable (stars <:+: line ∧ ofString "connected" <:+: line.map lower ∧
    ¬ofString "disconnected" <:+: line.map lower))

/-- The states and lines in which a disconnect notice is understood. -/
def DisconnectHeard (state : TncHostState) (text : Bytes) : Prop :=
  isPrompt (seenLine text) = true ∨ readAsConnected (seenLine text) = false ∧
    (hostLineIeq (seenLine text) (ofString "*** disconnected") = true ∨ state = .cmd)

def ConnectHeard (state : TncHostState) (text : Bytes) : Prop :=
  isPrompt (seenLine text) = false ∧ (readAsConnected (seenLine text) = true ∨ state = .connected)

def NoticeHeard (host : TncHost) (l : FedLine) : Prop :=
  (DisconnectNotice l.text → DisconnectHeard host.state l.text) ∧
    (ConnectNotice l.text → ConnectHeard host.state l.text)

instance (state : TncHostState) (text : Bytes) : Decidable (DisconnectHeard state text) :=
  inferInstanceAs (Decidable (isPrompt (seenLine text) = true ∨ readAsConnected (seenLine text) = false ∧
    (hostLineIeq (seenLine text) (ofString "*** disconnected") = true ∨ state = .cmd)))

instance (state : TncHostState) (text : Bytes) : Decidable (ConnectHeard state text) :=
  inferInstanceAs (Decidable (isPrompt (seenLine text) = false ∧
    (readAsConnected (seenLine text) = true ∨ state = .connected)))

instance (host : TncHost) (l : FedLine) : Decidable (NoticeHeard host l) :=
  inferInstanceAs (Decidable ((DisconnectNotice l.text → DisconnectHeard host.state l.text) ∧
    (ConnectNotice l.text → ConnectHeard host.state l.text)))

lemma hostLineIeq_iff {line start : Bytes} : hostLineIeq line start = true ↔ start.map lower <+: line.map lower :=
  List.isPrefixOf_iff_prefix

lemma strstr_iff {line needle : Bytes} : strstr line needle = true ↔ needle <:+: line := decide_eq_true_iff

lemma hostLineIeq_of_longer {line start more : Bytes} (h : hostLineIeq line (start ++ more) = true) :
    hostLineIeq line start = true := by
  rw [hostLineIeq_iff] at h ⊢
  rw [List.map_append] at h
  exact (List.prefix_append _ _).trans h

/-- The longer of two prefixes that are tested together adds nothing. -/
lemma hostLineIeq_or (line start more : Bytes) :
    (hostLineIeq line start || hostLineIeq line (start ++ more)) = hostLineIeq line start := by
  cases h : hostLineIeq line (start ++ more) with
  | false => rw [Bool.or_false]
  | true => rw [hostLineIeq_of_longer h, Bool.or_true]

lemma lower_eq_star {b : UInt8} : lower b = 0x2A ↔ b = 0x2A := by
  revert b
  apply forall_byte
  decide +kernel

/-- Stars have no letter case. -/
lemma eq_stars_of_map {xs : Bytes} (h : xs.map lower = stars.map lower) : xs = stars := by
  have hstars : stars = [0x2A, 0x2A, 0x2A] := by decide
  have hlower : lower 0x2A = 0x2A := by decide
  rw [hstars] at h ⊢
  simp only [List.map_cons, List.map_nil, hlower, List.map_eq_cons_iff, List.map_eq_nil_iff, lower_eq_star] at h
  obtain ⟨_, _, rfl, rfl, _, _, rfl, rfl, _, _, rfl, rfl, rfl⟩ := h
  rfl

lemma stars_of_start {line : Bytes} (rest : Bytes) (h : hostLineIeq line (stars ++ rest) = true) : stars <:+: line := by
  obtain ⟨t, ht⟩ := hostLineIeq_iff.mp (hostLineIeq_of_longer h)
  obtain ⟨xs, ys, rfl, hxs, -⟩ := List.map_eq_append_iff.mp ht.symm
  rw [eq_stars_of_map hxs]
  exact (List.prefix_append _ _).isInfix

lemma occurs_of_start {line start word : Bytes} (h : hostLineIeq line start = true) (hw : word <:+: start.map lower) :
    word <:+: line.map lower :=
  hw.trans (hostLineIeq_iff.mp h).isInfix

lemma readAsConnected_spec {line : Bytes} (h : readAsConnected line = true) :
    stars <:+: line ∧ ofString "connected" <:+: line.map lower := by
  simp only [readAsConnected, Bool.and_eq_true, Bool.or_eq_true, strstr_iff] at h
  obtain ⟨hs, hc | hc⟩ := h
  · exact ⟨hs, occurs_of_start hc (by decide)⟩
  · have hm : (ofString "CONNECTED").map lower <:+: line.map lower := hc.map lower
    exact ⟨hs, hm⟩

/-- Where a line leads: the third test only ever succeeds through the prefix. -/
def nextState (state : TncHostState) (line : Bytes) : TncHostState :=
  if isPrompt line then .cmd
  else if readAsConnected line then .connected
  else if hostLineIeq line (ofString "*** disconnected") then .cmd
  else state

lemma hostEmitEvent_spec (host : TncHost) (state : TncHostState) :
    (hostEmitEvent host state).1.state = state ∧ ∀ data, .text data ∉ (hostEmitEvent host state).2 := by
  rw [hostEmitEvent]
  split_ifs with h
  · exact ⟨h, fun _ => List.not_mem_nil⟩
  · exact ⟨rfl, by simp⟩

lemma third_test {line : Bytes} (h : readAsConnected line = false) :
    (strstr line stars && (hostLineIeq line (ofString "*** disconnected") ||
      strstr line (ofString "DISCONNECTED"))) = hostLineIeq line (ofString "*** disconnected") := by
  cases hd : hostLineIeq line (ofString "*** disconnected") with
  | true =>
    have hs : strstr line stars = true := strstr_iff.mpr (stars_of_start (ofString " disconnected") hd)
    rw [hs, Bool.true_or, Bool.and_true]
  | false =>
    -- the upper-case word holds the upper-case word of the other notice
    rw [Bool.false_or, Bool.and_eq_false_iff]
    by_contra hc
    rw [not_or, Bool.not_eq_false, Bool.not_eq_false, strstr_iff, strstr_iff] at hc
    have hup : strstr line (ofString "CONNECTED") = true :=
      strstr_iff.mpr ((show ofString "CONNECTED" <:+: ofString "DISCONNECTED" by decide).trans hc.2)
    rw [readAsConnected, strstr_iff.mpr hc.1, hup, Bool.or_true] at h
    exact absurd h (by decide)

lemma hostProcessLine_spec (host : TncHost) :
    (hostProcessLine host).1.state = nextState host.state (cstr host.line) ∧
      (host.state ≠ .connected ∨ nextState host.state (cstr host.line) = .cmd →
        ∀ data, .text data ∉ (hostProcessLine host).2) := by
  have hprompt := hostLineIeq_or (cstr host.line) (ofString "cmd:") (ofString " ")
  have hconn := hostLineIeq_or (cstr host.line) (ofString "*** connected") (ofString " ")
  have hcmd : ofString "cmd: " = ofString "cmd:" ++ ofString " " := by decide
  have hspace : ofString "*** connected " = ofString "*** connected" ++ ofString " " := by decide
  rw [hostProcessLine, nextState]
  rw [hcmd, hspace, hprompt, hconn]
  cases hp : isPrompt (cstr host.line) with
  | true =>
    rw [isPrompt] at hp
    rw [if_pos hp, if_pos rfl]
    exact ⟨(hostEmitEvent_spec host .cmd).1, fun _ => (hostEmitEvent_spec host .cmd).2⟩
  | false =>
    rw [isPrompt] at hp
    rw [hp, if_neg Bool.false_ne_true, if_neg Bool.false_ne_true]
    cases hr : readAsConnected (cstr host.line) with
    | true =>
      have hr' := hr
      rw [readAsConnected] at hr'
      rw [if_pos hr', if_pos rfl]
      exact ⟨(hostEmitEvent_spec host .connected).1, fun _ => (hostEmitEvent_spec host .connected).2⟩
    | false =>
      have hr' := hr
      rw [readAsConnected] at hr'
      rw [hr', if_neg Bool.false_ne_true, if_neg Bool.false_ne_true, third_test hr]
      cases hd : hostLineIeq (cstr host.line) (ofString "*** disconnected") with
      | true =>
        rw [if_pos rfl, if_pos rfl]
        exact ⟨(hostEmitEvent_spec host .cmd).1, fun _ => (hostEmitEvent_spec host .cmd).2⟩
      | false =>
        rw [if_neg Bool.false_ne_true, if_neg Bool.false_ne_true]
        split_ifs with hc
        · refine ⟨rfl, fun hquiet => ?_⟩
          rcases hquiet with hq | hq
          · exact absurd hc.1 hq
          · rw [hc.1] at hq
            exact nomatch hq
        · exact ⟨rfl, fun _ _ => List.not_mem_nil⟩

section Line

variable {host : TncHost}

lemma keptLine_length (text : Bytes) : (keptLine text).length = text.length % hostLineSize := by
  have h := Nat.mod_le text.length hostLineSize
  rw [keptLine, List.length_drop]
  omega

/-- One more byte starts the line over if the buffer was full. -/
lemma keptLine_concat (text : Bytes) (b : UInt8) :
    keptLine (text ++ [b]) = if hostLineSize ≤ (keptLine text).length + 1 then [] else keptLine text ++ [b] := by
  have h := Nat.mod_lt text.length (show 0 < hostLineSize by decide)
  have hsize : hostLineSize = 256 := rfl
  rw [keptLine_length]
  by_cases hfull : hostLineSize ≤ text.length % hostLineSize + 1
  · have hmod : (text.length + 1) % hostLineSize = 0 := by
      rw [hsize] at *
      omega
    rw [if_pos hfull, keptLine, List.length_append, List.length_singleton, hmod]
    simp
  · have hmod : (text.length + 1) % hostLineSize = text.length % hostLineSize + 1 := by
      rw [hsize] at *
      omega
    rw [if_neg hfull, keptLine, List.length_append, List.length_singleton, hmod, Nat.add_sub_add_right,
      List.drop_append_of_le_length (Nat.sub_le _ _), ← keptLine]

lemma push_line (host : TncHost) (b : UInt8) :
    (host.push b).state = host.state ∧
      (host.push b).line = if hostLineSize ≤ host.line.length + 1 then [] else host.line ++ [b] := by
  rw [TncHost.push]
  split_ifs <;> exact ⟨rfl, rfl⟩

/-- The text of a line collects in the buffer and nothing happens. -/
lemma hostFeed_text (hline : host.line = []) (text : Bytes) (hplain : ∀ b ∈ text, isLineEnd b = false) :
    (tncHostFeed host text).2 = [] ∧ (tncHostFeed host text).1.state = host.state ∧
      (tncHostFeed host text).1.line = keptLine text := by
  induction text using List.reverseRecOn with
  | nil => exact ⟨rfl, rfl, hline⟩
  | append_singleton text b ih =>
    obtain ⟨hout, hstate, hkept⟩ := ih fun c hc => hplain c (List.mem_append_left _ hc)
    have hb := hplain b (List.mem_append_right _ (List.mem_singleton_self b))
    obtain ⟨hs, hl⟩ := push_line (tncHostFeed host text).1 b
    rw [tncHostFeed] at *
    rw [run_append, run_singleton, hout, hostPushByte, hb, if_neg Bool.false_ne_true, keptLine_concat, ← hkept]
    exact ⟨rfl, hs.trans hstate, hl⟩

lemma nextState_nil (state : TncHostState) : nextState state [] = state := by
  rw [nextState, if_neg (by decide), if_neg (by decide), if_neg (by decide)]

/-- A whole line: the buffer is empty again, and the state follows the part of the line that was seen. -/
lemma hostFeedLine_spec (hline : host.line = []) (l : FedLine) :
    (hostFeedLine host l).1.line = [] ∧
      (hostFeedLine host l).1.state = nextState host.state (seenLine l.text) ∧
      (host.state ≠ .connected ∨ nextState host.state (seenLine l.text) = .cmd →
        ∀ data, .text data ∉ (hostFeedLine host l).2) := by
  obtain ⟨hout, hstate, hkept⟩ := hostFeed_text hline l.text l.plain
  have hrun : hostFeedLine host l = hostPushByte (tncHostFeed host l.text).1 l.last := by
    rw [hostFeedLine, FedLine.bytes, tncHostFeed, run_append, run_singleton]
    rw [tncHostFeed] at hout
    rw [hout]
    rfl
  rw [hrun, hostPushByte, if_pos l.ends]
  by_cases hlen : 0 < (tncHostFeed host l.text).1.line.length
  · have h := hostProcessLine_spec (tncHostFeed host l.text).1
    rw [hstate, hkept] at h
    rw [if_pos hlen]
    exact ⟨rfl, h⟩
  · have hnil : keptLine l.text = [] := by
      rw [← hkept]
      exact List.eq_nil_of_length_eq_zero (by omega)
    have hseen : seenLine l.text = [] := by rw [seenLine, hnil, cstr, List.takeWhile_nil]
    rw [if_neg hlen, hseen, nextState_nil]
    exact ⟨hkept.trans hnil, hstate, fun _ _ => List.not_mem_nil⟩

end Line

lemma seenLine_sub (text : Bytes) : seenLine text <:+: text :=
  (List.takeWhile_prefix _).isInfix.trans (List.drop_suffix _ _).isInfix

lemma nextState_eq_cmd_iff {state : TncHostState} {line : Bytes} : nextState state line = .cmd ↔
    isPrompt line = true ∨ readAsConnected line = false ∧
      (hostLineIeq line (ofString "*** disconnected") = true ∨ state = .cmd) := by
  rw [nextState]
  cases isPrompt line <;> cases readAsConnected line <;> cases hostLineIeq line (ofString "*** disconnected") <;> simp

lemma nextState_eq_connected_iff {state : TncHostState} {line : Bytes} : nextState state line = .connected ↔
    isPrompt line = false ∧ (readAsConnected line = true ∨
      hostLineIeq line (ofString "*** disconnected") = false ∧ state = .connected) := by
  rw [nextState]
  cases isPrompt line <;> cases readAsConnected line <;> cases hostLineIeq line (ofString "*** disconnected") <;> simp

lemma not_disconnect_prefix {text : Bytes} (h : ¬ofString "disconnected" <:+: text.map lower) :
    hostLineIeq (seenLine text) (ofString "*** disconnected") = false := by
  by_contra hd
  rw [Bool.not_eq_false] at hd
  exact h ((occurs_of_start hd (by decide)).trans ((seenLine_sub text).map lower))

section Notices

variable {host : TncHost}

lemma disconnect_iff (hline : host.line = []) (l : FedLine) :
    (hostFeedLine host l).1.state = .cmd ↔ DisconnectHeard host.state l.text := by
  rw [(hostFeedLine_spec hline l).2.1, nextState_eq_cmd_iff]
  rfl

lemma connect_iff (hline : host.line = []) {l : FedLine} (hn : ConnectNotice l.text) :
    (hostFeedLine host l).1.state = .connected ↔ ConnectHeard host.state l.text := by
  rw [(hostFeedLine_spec hline l).2.1, nextState_eq_connected_iff, not_disconnect_prefix hn.2.2, ConnectHeard]
  simp only [true_and]

/-- Only a notice can open a connection. -/
lemma not_connected_of_quiet (hline : host.line = []) (hstate : host.state ≠ .connected) {l : FedLine}
    (hheard : NoticeHeard host l) (hquiet : ¬ConnectNotice l.text) : (hostFeedLine host l).1.state ≠ .connected := by
  by_cases hd : DisconnectNotice l.text
  · rw [(disconnect_iff hline l).mpr (hheard.1 hd)]
    exact nofun
  · rw [(hostFeedLine_spec hline l).2.1, ne_eq, nextState_eq_connected_iff]
    rintro ⟨-, hread | ⟨-, hc⟩⟩
    · obtain ⟨hs, hw⟩ := readAsConnected_spec hread
      have hs' := hs.trans (seenLine_sub l.text)
      have hw' := hw.trans ((seenLine_sub l.text).map lower)
      exact hquiet ⟨hs', hw', fun hdis => hd ⟨hs', hdis⟩⟩
    · exact hstate hc

lemma silent_of_quiet (ls : List FedLine) (hline : host.line = []) (hstate : host.state ≠ .connected)
    (hheard : Along hostFeedLine NoticeHeard host ls) (hquiet : ∀ l ∈ ls, ¬ConnectNotice l.text) (data : Bytes) :
    .text data ∉ (run hostFeedLine host ls).2 := by
  induction ls generalizing host with
  | nil => exact List.not_mem_nil
  | cons l ls ih =>
    obtain ⟨hnext, -, hsilent⟩ := hostFeedLine_spec hline l
    have hl := hquiet l List.mem_cons_self
    have hrest := ih hnext (not_connected_of_quiet hline hstate hheard.1 hl) hheard.2
      fun k hk => hquiet k (List.mem_cons_of_mem l hk)
    rw [run_cons, List.mem_append, not_or]
    exact ⟨hsilent (.inl hstate) data, hrest⟩

end Notices

/-- What has come of the line that is not ended yet. -/
def openText (data : Bytes) : Bytes := data.rtakeWhile fun b => !isLineEnd b

lemma openText_plain (data : Bytes) : ∀ b ∈ openText data, isLineEnd b = false := by
  intro b hb
  simpa using List.mem_rtakeWhile_imp hb

/-- The line that a piece with a line end completes. -/
def FedLine.after (l : FedLine) (data : Bytes) : FedLine where
  text := openText data ++ l.text
  last := l.last
  plain b hb := (List.mem_append.mp hb).elim (openText_plain data b) (l.plain b)
  ends := l.ends

lemma hostPushByte_end {host : TncHost} {b : UInt8} (hb : isLineEnd b = true) : (hostPushByte host b).1.line = [] := by
  rw [hostPushByte, if_pos hb]
  by_cases hlen : 0 < host.line.length
  · rw [if_pos hlen]
  · rw [if_neg hlen]
    exact List.eq_nil_of_length_eq_zero (Nat.eq_zero_of_not_pos hlen)

lemma FedLine.after_text (l : FedLine) (data : Bytes) : (l.after data).text = openText data ++ l.text := rfl

/-- A piece that begins with one byte more. -/
def FedLine.cons (l : FedLine) (b : UInt8) (hb : isLineEnd b = false) : FedLine where
  text := b :: l.text
  last := l.last
  plain := List.forall_mem_cons.mpr ⟨hb, l.plain⟩
  ends := l.ends

lemma FedLine.eq_of_fields {k l : FedLine} (ht : k.text = l.text) (hl : k.last = l.last) : k = l := by
  cases k
  cases l
  simp_all

/-- A state that a stream reaches treats the rest of its line as the last line end would treat the whole line. -/
lemma tncHostFeed_open (data : Bytes) : ∃ host : TncHost, host.line = [] ∧
    host.state = (tncHostFeed tncHostInit data).1.state ∧
      ∀ l, hostFeedLine (tncHostFeed tncHostInit data).1 l = hostFeedLine host (l.after data) := by
  induction data using List.reverseRecOn with
  | nil => exact ⟨tncHostInit, rfl, rfl, fun l => rfl⟩
  | append_singleton data b ih =>
    have hrun : (tncHostFeed tncHostInit (data ++ [b])).1 = (hostPushByte (tncHostFeed tncHostInit data).1 b).1 := by
      rw [tncHostFeed, run_append, run_singleton]
      rfl
    rw [hrun]
    cases hb : isLineEnd b with
    | true =>
      refine ⟨_, hostPushByte_end hb, rfl, fun l => ?_⟩
      have hopen : openText (data ++ [b]) = [] := List.rtakeWhile_concat_neg _ _ _ (by simp [hb])
      have hl : l.after (data ++ [b]) = l := FedLine.eq_of_fields (by rw [l.after_text, hopen, List.nil_append]) rfl
      rw [hl]
    | false =>
      obtain ⟨host, hline, hstate, hfeed⟩ := ih
      have hpush : hostPushByte (tncHostFeed tncHostInit data).1 b = ((tncHostFeed tncHostInit data).1.push b, []) := by
        rw [hostPushByte, hb, if_neg Bool.false_ne_true]
      refine ⟨host, hline, ?_, fun l => ?_⟩
      · rw [hpush, hstate, (push_line _ b).1]
      · have hopen : openText (data ++ [b]) = openText data ++ [b] := List.rtakeWhile_concat_pos _ _ _ (by simp [hb])
        have hl : l.after (data ++ [b]) = (l.cons b hb).after data := by
          apply FedLine.eq_of_fields
          · rw [FedLine.after_text, FedLine.after_text, hopen, List.append_assoc]
            rfl
          · rfl
        have hcons : hostFeedLine (tncHostFeed tncHostInit data).1 (l.cons b hb) =
            hostFeedLine (hostPushByte (tncHostFeed tncHostInit data).1 b).1 l := by
          rw [hostFeedLine, show (l.cons b hb).bytes = b :: l.bytes from rfl, tncHostFeed, run_cons, hpush]
          rfl
        rw [hl, ← hfeed, hcons]

/-- After any stream, the line that comes to its end is understood exactly under these conditions; and once
a disconnect notice is understood, the user hears nothing up to a connect notice, as long as the notices on
the way are understood. -/
theorem tnc_host_notices (data : Bytes) (l : FedLine) :
    (DisconnectNotice (l.after data).text →
      ((hostFeedLine (tncHostFeed tncHostInit data).1 l).1.state = .cmd ↔
        DisconnectHeard (tncHostFeed tncHostInit data).1.state (l.after data).text)) ∧
    (ConnectNotice (l.after data).text →
      ((hostFeedLine (tncHostFeed tncHostInit data).1 l).1.state = .connected ↔
        ConnectHeard (tncHostFeed tncHostInit data).1.state (l.after data).text)) ∧
    ∀ quiet : List FedLine, DisconnectNotice (l.after data).text →
      DisconnectHeard (tncHostFeed tncHostInit data).1.state (l.after data).text →
      Along hostFeedLine NoticeHeard (hostFeedLine (tncHostFeed tncHostInit data).1 l).1 quiet →
      (∀ k ∈ quiet, ¬ConnectNotice k.text) →
        ∀ text, .text text ∉ (run hostFeedLine (tncHostFeed tncHostInit data).1 (l :: quiet)).2 := by
  obtain ⟨host, hline, hstate, hfeed⟩ := tncHostFeed_open data
  rw [hfeed, ← hstate]
  refine ⟨fun _ => disconnect_iff hline _, connect_iff hline, fun quiet _ hheard halong hquiet text => ?_⟩
  rw [run_cons, hfeed]
  obtain ⟨hnext, hto, hsilent⟩ := hostFeedLine_spec hline (l.after data)
  have hcmd := (disconnect_iff hline (l.after data)).mpr hheard
  rw [List.mem_append, not_or]
  constructor
  · exact hsilent (.inr (hto ▸ hcmd)) text
  · apply silent_of_quiet quiet hnext _ halong hquiet
    rw [hcmd]
    exact nofun

/-- A line of plain letters, ended by a carriage return. -/
def crLine (text : String) (h : ∀ b ∈ ofString text, isLineEnd b = false) : FedLine :=
  ⟨ofString text, cr, h, rfl⟩

theorem tnc_host_notices_lower_case :
    ∀ text, .text text ∉ (run hostFeedLine (tncHostFeed tncHostInit (ofString "*** CONNECTED to N0CALL\r")).1
      [crLine "*** disconnected" (by decide +kernel), crLine "cmd:" (by decide +kernel),
        crLine "hello" (by decide +kernel)]).2 :=
  (tnc_host_notices (ofString "*** CONNECTED to N0CALL\r") (crLine "*** disconnected" (by decide +kernel))).2.2
    [crLine "cmd:" (by decide +kernel), crLine "hello" (by decide +kernel)] (by decide +kernel) (by decide +kernel)
    (by decide +kernel) (by decide +kernel)

/-- The upper-case notice of a disconnect is taken for a connect, and the user hears what comes next. -/
theorem upper_case_disconnect_connects :
    DisconnectNotice (ofString "*** DISCONNECTED") ∧
      (tncHostFeed tncHostInit (ofString "*** DISCONNECTED\r")).1.state = .connected ∧
      .text (ofString "hello") ∈ (tncHostFeed tncHostInit (ofString "*** DISCONNECTED\rhello\r")).2 := by
  decide +kernel

end HyBBX.Radio
