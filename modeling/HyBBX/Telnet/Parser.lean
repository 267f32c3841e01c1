import HyBBX.Lib.Bytes
import HyBBX.Lib.Transducer

/-! The telnet parser that server and client share: user data, option commands and the replies to them. -/

namespace HyBBX.Telnet

open Lib Lib.Bytes

abbrev telnetIac : UInt8 := 255
abbrev telnetDont : UInt8 := 254
abbrev telnetDo : UInt8 := 253
abbrev telnetWont : UInt8 := 252
abbrev telnetWill : UInt8 := 251
abbrev telnetSb : UInt8 := 250
abbrev telnetSe : UInt8 := 240

abbrev telnetOptEcho : UInt8 := 1
abbrev telnetOptSga : UInt8 := 3
abbrev telnetOptLinemode : UInt8 := 34

inductive ParseState
  | data
  | iac
  | cmd
  | subneg
  | subnegIac
  deriving DecidableEq, Repr

structure TelnetParser where
  state : ParseState
  command : UInt8
  deriving DecidableEq, Repr

def telnetParserInit : TelnetParser := ⟨.data, 0⟩

/-- A command and its option. -/
structure OptionCommand where
  command : UInt8
  option : UInt8
  deriving DecidableEq, Repr

def OptionCommand.bytes (c : OptionCommand) : Bytes := [telnetIac, c.command, c.option]

inductive ParserOut
  | user (byte : UInt8)
  | reply (answer : OptionCommand)
  deriving DecidableEq, Repr

def telnetReplyDo (option : UInt8) : OptionCommand :=
  if option = telnetOptEcho then ⟨telnetWont, option⟩
  else if option = telnetOptSga then ⟨telnetWill, option⟩
  else ⟨telnetWont, option⟩

def telnetReplyWill (option : UInt8) : OptionCommand :=
  if option = telnetOptSga then ⟨telnetDo, option⟩
  else if option = telnetOptEcho then ⟨telnetDont, option⟩
  else ⟨telnetDont, option⟩

def isOptionCommand (byte : UInt8) : Bool :=
  byte = telnetWill || byte = telnetWont || byte = telnetDo || byte = telnetDont

def replyTo (command option : UInt8) : List OptionCommand :=
  if command = telnetDo then [telnetReplyDo option]
  else if command = telnetWill then [telnetReplyWill option]
  else []

def parserStep (p : TelnetParser) (byte : UInt8) : TelnetParser × List ParserOut :=
  match p.state with
  | .data => if byte = telnetIac then ({ p with state := .iac }, []) else (p, [.user byte])
  | .iac =>
    if byte = telnetIac then ({ p with state := .data }, [.user telnetIac])
    else if isOptionCommand byte then (⟨.cmd, byte⟩, [])
    else if byte = telnetSb then ({ p with state := .subneg }, [])
    else ({ p with state := .data }, [])
  | .cmd => ({ p with state := .data }, (replyTo p.command byte).map .reply)
  | .subneg => if byte = telnetIac then ({ p with state := .subnegIac }, []) else (p, [])
  | .subnegIac => ({ p with state := if byte = telnetSe then .data else .subneg }, [])

/-- The commands with which each side opens. -/
def greetingCommands : List OptionCommand :=
  [⟨telnetWont, telnetOptEcho⟩, ⟨telnetWill, telnetOptSga⟩, ⟨telnetDont, telnetOptLinemode⟩]

def commandBytes (cs : List OptionCommand) : Bytes := (cs.map OptionCommand.bytes).flatten

def answers (outs : List ParserOut) : List OptionCommand :=
  outs.filterMap fun out => match out with | .reply c => some c | .user _ => none

lemma commandBytes_append (cs ds : List OptionCommand) :
    commandBytes (cs ++ ds) = commandBytes cs ++ commandBytes ds := by
  rw [commandBytes, List.map_append, List.flatten_append]
  rfl

lemma answers_append (us vs : List ParserOut) : answers (us ++ vs) = answers us ++ answers vs := List.filterMap_append

end HyBBX.Telnet
