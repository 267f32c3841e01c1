import HyBBX.Core.Types
import HyBBX.Lib.Text
import HyBBX.Telnet.Parser

/-! User data on its way through the telnet parser, with commands and subnegotiations between its bytes. -/

namespace HyBBX.Telnet

open HyBBX.Core Lib Lib.Bytes Lib.Text Transducer

/-- What a call returns, the parser behind it, the outcomes of the sends to come, and the bytes handed on. -/
structure FeedResult where
  rc : HybbxResult
  parser : TelnetParser
  sends : Option (List Bool)
  users : Bytes
  deriving DecidableEq

def userBytes (outs : List ParserOut) : Bytes :=
  outs.filterMap fun out => match out with | .user byte => some byte | .reply _ => none

/-- `hybbx_telnet_parser_feed`, whatever takes the user bytes; `sends` is `none` if there is no socket to reply to, and sends
behind its end succeed. -/
def telnetParserFeed : TelnetParser → Option (List Bool) → Bytes → FeedResult
  | p, sends, [] => ⟨.ok, p, sends, []⟩
  | p, sends, byte :: bytes =>
    let r := parserStep p byte
    if answers r.2 ≠ [] ∧ sends.any (·.head? = some false) then ⟨.errIo, p, sends.map List.tail, []⟩
    else
      let q := telnetParserFeed r.1 (if answers r.2 ≠ [] then sends.map List.tail else sends) bytes
      { q with users := userBytes r.2 ++ q.users }

/-- Calls one behind the other, up to the first that fails. -/
def telnetParserFeeds : TelnetParser → Option (List Bool) → List Bytes → FeedResult
  | p, sends, [] => ⟨.ok, p, sends, []⟩
  | p, sends, chunk :: chunks =>
    let r := telnetParserFeed p sends chunk
    if r.rc ≠ .ok then r
    else
      let q := telnetParserFeeds r.parser r.sends chunks
      { q with users := r.users ++ q.users }

def doubled (data : Bytes) : Bytes := data.flatMap fun byte => if byte = telnetIac then [byte, telnetIac] else [byte]

/-- `send_line` -/
def sendLine (line : Bytes) : Bytes := doubled line ++ [nl]

/-- What stands in a stream: a byte of user data, a command with its option, or a subnegotiation with any contents. -/
inductive StreamItem
  | data (byte : UInt8)
  | option (c : { c : OptionCommand // isOptionCommand c.command = true })
  | subneg (contents : Bytes)

namespace StreamItem

def bytes : StreamItem → Bytes
  | data byte => doubled [byte]
  | option c => c.1.bytes
  | subneg contents => [telnetIac, telnetSb] ++ doubled contents ++ [telnetIac, telnetSe]

def payload : StreamItem → Bytes
  | data byte => [byte]
  | _ => []

end StreamItem

lemma sendLine_items (line : Bytes) : sendLine line =
    ((line ++ [nl]).map StreamItem.data).flatMap StreamItem.bytes := by
  rw [List.flatMap_map, List.flatMap_append, sendLine, doubled]
  congr 1
  apply List.flatMap_congr
  intro byte _
  simp [StreamItem.bytes, doubled]

lemma userBytes_append (us vs : List ParserOut) : userBytes (us ++ vs) = userBytes us ++ userBytes vs :=
  List.filterMap_append

section Feed

lemma telnetParserFeed_append (xs ys : Bytes) (p : TelnetParser) (sends : Option (List Bool)) :
    telnetParserFeed p sends (xs ++ ys) =
      if (telnetParserFeed p sends xs).rc ≠ .ok then telnetParserFeed p sends xs
      else
        let q := telnetParserFeed (telnetParserFeed p sends xs).parser (telnetParserFeed p sends xs).sends ys
        { q with users := (telnetParserFeed p sends xs).users ++ q.users } := by
  induction xs generalizing p sends with
  | nil => rfl
  | cons byte xs ih =>
    rw [List.cons_append, telnetParserFeed, telnetParserFeed]
    dsimp only
    by_cases hfail : answers (parserStep p byte).2 ≠ [] ∧ sends.any (·.head? = some false)
    · rw [if_pos hfail, if_pos hfail]
      rfl
    · rw [if_neg hfail, if_neg hfail, ih]
      split_ifs <;> simp

lemma telnetParserFeeds_flatten (chunks : List Bytes) (p : TelnetParser) (sends : Option (List Bool)) :
    telnetParserFeeds p sends chunks = telnetParserFeed p sends chunks.flatten := by
  induction chunks generalizing p sends with
  | nil => rfl
  | cons chunk chunks ih =>
    rw [telnetParserFeeds, List.flatten_cons, telnetParserFeed_append]
    dsimp only
    rw [ih]

/-- A feed hands on what the parser emits, as far as its replies go out. -/
lemma telnetParserFeed_run (bytes : Bytes) (p : TelnetParser) (sends : Option (List Bool)) :
    ((telnetParserFeed p sends bytes).rc = .ok → (telnetParserFeed p sends bytes).parser = (run parserStep p bytes).1 ∧
        (telnetParserFeed p sends bytes).users = userBytes (run parserStep p bytes).2) ∧
      (telnetParserFeed p sends bytes).users <+: userBytes (run parserStep p bytes).2 ∧
      ((∀ l ∈ sends, ∀ sent ∈ l, sent = true) → (telnetParserFeed p sends bytes).rc = .ok) := by
  induction bytes generalizing p sends with
  | nil => exact ⟨fun _ => ⟨rfl, rfl⟩, List.prefix_rfl, fun _ => rfl⟩
  | cons byte bytes ih =>
    rw [telnetParserFeed, run_cons, userBytes_append]
    dsimp only
    by_cases hfail : answers (parserStep p byte).2 ≠ [] ∧ sends.any (·.head? = some false)
    · rw [if_pos hfail]
      refine ⟨fun hok => (by cases hok), List.nil_prefix, fun hsent => ?_⟩
      cases sends with
      | none => exact absurd hfail.2 Bool.false_ne_true
      | some l => exact absurd (hsent l rfl false (List.mem_of_head? (of_decide_eq_true hfail.2))) Bool.false_ne_true
    · rw [if_neg hfail]
      obtain ⟨hrun, hpre, hok⟩ :=
        ih (parserStep p byte).1 (if answers (parserStep p byte).2 ≠ [] then sends.map List.tail else sends)
      refine ⟨fun hrc => ⟨(hrun hrc).1, congrArg (_ ++ ·) (hrun hrc).2⟩, (List.prefix_append_right_inj _).mpr hpre,
        fun hsent => ?_⟩
      apply hok
      split_ifs
      · intro l hl sent hs
        obtain ⟨l', hl', rfl⟩ := Option.map_eq_some_iff.mp hl
        exact hsent l' hl' sent (List.mem_of_mem_tail hs)
      · exact hsent

end Feed

section Items

lemma run_contents (contents : Bytes) (seen : UInt8) :
    run parserStep ⟨.subneg, seen⟩ (doubled contents) = (⟨.subneg, seen⟩, []) := by
  induction contents with
  | nil => rfl
  | cons byte contents ih =>
    rw [doubled, List.flatMap_cons, run_append, ← doubled]
    by_cases hiac : byte = telnetIac
    · rw [if_pos hiac, hiac]
      exact ih
    · have hskip : run parserStep ⟨.subneg, seen⟩ [byte] = (⟨.subneg, seen⟩, []) := by
        rw [run_singleton]
        exact if_neg hiac
      rw [if_neg hiac, hskip, ih]
      rfl

/-- Between two items the parser is at plain data, and of an item it hands on the payload. -/
lemma run_item (item : StreamItem) (seen : UInt8) :
    ∃ seen', (run parserStep ⟨.data, seen⟩ item.bytes).1 = ⟨.data, seen'⟩ ∧
    userBytes (run parserStep ⟨.data, seen⟩ item.bytes).2 = item.payload := by
  cases item with
  | data byte =>
    refine ⟨seen, ?_⟩
    rw [StreamItem.bytes, doubled, List.flatMap_singleton]
    by_cases hiac : byte = telnetIac
    · rw [if_pos hiac, hiac]
      exact ⟨rfl, rfl⟩
    · rw [if_neg hiac, run_singleton, parserStep, if_neg hiac]
      exact ⟨rfl, rfl⟩
  | option c =>
    obtain ⟨⟨command, option⟩, hc⟩ := c
    have hiac : command ≠ telnetIac := by
      rintro rfl
      have hno : isOptionCommand telnetIac = false := by decide
      exact absurd (hno.symm.trans hc) Bool.false_ne_true
    have hbytes : StreamItem.bytes (.option ⟨⟨command, option⟩, hc⟩) = [telnetIac] ++ [command] ++ [option] := rfl
    have hcommand : parserStep ⟨.iac, seen⟩ command = (⟨.cmd, command⟩, []) :=
      (if_neg hiac).trans (if_pos hc)
    refine ⟨command, ?_⟩
    rw [hbytes, run_append, run_append, run_singleton, run_singleton, run_singleton]
    have hiacStep : parserStep ⟨.data, seen⟩ telnetIac = (⟨.iac, seen⟩, []) := rfl
    rw [hiacStep, hcommand]
    refine ⟨rfl, ?_⟩
    simp [parserStep, userBytes, StreamItem.payload]
  | subneg contents =>
    have hstart : run parserStep ⟨.data, seen⟩ [telnetIac, telnetSb] = (⟨.subneg, seen⟩, []) := rfl
    have hend : run parserStep ⟨.subneg, seen⟩ [telnetIac, telnetSe] = (⟨.data, seen⟩, []) := rfl
    refine ⟨seen, ?_⟩
    rw [StreamItem.bytes, run_append, run_append, hstart, run_contents, hend]
    exact ⟨rfl, rfl⟩

lemma run_items (items : List StreamItem) (seen : UInt8) : ∃ seen',
    (run parserStep ⟨.data, seen⟩ (items.flatMap StreamItem.bytes)).1 = ⟨.data, seen'⟩ ∧
      userBytes (run parserStep ⟨.data, seen⟩ (items.flatMap StreamItem.bytes)).2 =
          items.flatMap StreamItem.payload := by
  induction items generalizing seen with
  | nil => exact ⟨seen, rfl, rfl⟩
  | cons item items ih =>
    obtain ⟨seen', hstate, husers⟩ := run_item item seen
    obtain ⟨last, hlast, hrest⟩ := ih seen'
    rw [List.flatMap_cons, run_append, hstate, userBytes_append, husers]
    exact ⟨last, hlast, congrArg (item.payload ++ ·) hrest⟩

end Items

/-- However the stream is cut, what is handed on is the user data, as far as the replies to the commands can be sent. -/
theorem parser_transparent (items : List StreamItem) (chunks : List Bytes) (sends : Option (List Bool))
    (h : chunks.flatten = items.flatMap StreamItem.bytes) :
    ((telnetParserFeeds telnetParserInit sends chunks).rc = .ok →
        (telnetParserFeeds telnetParserInit sends chunks).users = items.flatMap StreamItem.payload ∧
          (telnetParserFeeds telnetParserInit sends chunks).parser.state = .data) ∧
      (telnetParserFeeds telnetParserInit sends chunks).users <+: items.flatMap StreamItem.payload ∧
      ((∀ l ∈ sends, ∀ sent ∈ l, sent = true) → (telnetParserFeeds telnetParserInit sends chunks).rc = .ok) := by
  obtain ⟨seen, hstate, husers⟩ := run_items items 0
  obtain ⟨hrun, hpre, hok⟩ := telnetParserFeed_run (items.flatMap StreamItem.bytes) ⟨.data, 0⟩ sends
  rw [telnetParserFeeds_flatten, h]
  rw [husers] at hpre hrun
  rw [hstate] at hrun
  refine ⟨fun hrc => ⟨(hrun hrc).2, ?_⟩, hpre, hok⟩
  exact congrArg TelnetParser.state (hrun hrc).1

/-- A line with a byte 255 in it, cut between its two copies, and an option command behind it. -/
theorem parser_transparent_line :
    (telnetParserFeeds telnetParserInit (some []) [[0x61, 255], [255, nl, 255, 253], [3]]).users = [0x61, 255, nl] :=
  ((parser_transparent [.data 0x61, .data 255, .data nl, .option ⟨⟨telnetDo, telnetOptSga⟩, rfl⟩]
    [[0x61, 255], [255, nl, 255, 253], [3]] (some []) (by decide)).1 (by decide)).1

end HyBBX.Telnet
