import ChainEconomy.Text.Digits
import ChainEconomy.Text.Hex
import ChainEconomy.Toml.Basic

/-! # Writing a configuration

One line for each value. A string gets the first of these forms that needs no escapes: double
quotes, single quotes, and either of them tripled; only a control character forces escapes. -/

namespace ChainEconomy.Toml

/-- Whether a character cannot stand in a string without an escape, whatever the quotes. -/
def needsEscape (c : Char) : Bool :=
  c != '\t' && c != '\n' && (Nat.blt c.toNat 0x20 || c.toNat = 0x7f)

/-- The length of the longest run of a character; `run` is the length of the one that is open. -/
def longestRun (mark : Char) (run : Nat) : List Char → Nat
  | [] => run
  | c :: rest =>
    if c = mark then longestRun mark (run + 1) rest else max run (longestRun mark 0 rest)

/-- The four quotes of a string. -/
inductive Quotes where
  | basic
  | literal
  | multilineBasic
  | multilineLiteral
  deriving DecidableEq, Repr

/-- The quotes for a string. -/
def Quotes.choose (cs : List Char) : Quotes :=
  let control := cs.any needsEscape
  let escape := control || cs.contains '\\'
  let lines := cs.contains '\n'
  let double := longestRun '"' 0 cs
  let single := longestRun '\'' 0 cs
  if !escape && double = 0 && !lines then .basic
  else if !control && single = 0 && !lines then .literal
  else if !escape && Nat.ble double 2 then .multilineBasic
  else if !control && Nat.ble single 2 then .multilineLiteral
  else if lines then .multilineBasic
  else .basic

/-- Four uppercase hexadecimal digits of a character below 128. -/
def hexDigits (c : Char) : List Char :=
  ['0', '0', Text.Hex.digit (c.toNat / 16), (Text.Hex.digit (c.toNat % 16)).toUpper]

/-- The characters between double quotes. Up to `allowed` quotation marks in a row stand for
themselves; `run` counts those right before. -/
def escaped (multiline : Bool) (allowed run : Nat) : List Char → List Char
  | [] => []
  | c :: rest =>
    if c = '"' then
      if run < allowed then c :: escaped multiline allowed (run + 1) rest
      else '\\' :: c :: escaped multiline allowed 0 rest
    else
      let written :=
        if c = '\x08' then ['\\', 'b']
        else if c = '\t' then ['\\', 't']
        else if c = '\n' then (if multiline then ['\n'] else ['\\', 'n'])
        else if c = '\x0c' then ['\\', 'f']
        else if c = '\r' then ['\\', 'r']
        else if c = '\\' then ['\\', '\\']
        else if needsEscape c then '\\' :: 'u' :: hexDigits c
        else [c]
      written ++ escaped multiline allowed 0 rest

/-- A string in its quotes. A string of several lines starts on a line of its own. -/
def renderString (s : String) : List Char :=
  let cs := s.toList
  let newLine := if cs.contains '\n' then ['\n'] else []
  match Quotes.choose cs with
  | .basic => '"' :: escaped false 0 0 cs ++ ['"']
  | .literal => '\'' :: cs ++ ['\'']
  | .multilineBasic => ['"', '"', '"'] ++ newLine ++ escaped true 2 0 cs ++ ['"', '"', '"']
  | .multilineLiteral => ['\'', '\'', '\''] ++ newLine ++ cs ++ ['\'', '\'', '\'']

/-- A line with a value under a key. -/
def line (key : String) (value : List Char) : String := key ++ " = " ++ String.ofList value ++ "\n"

example : renderString "a\"b" = "'a\"b'".toList := by decide +kernel
example : renderString "it's" = "\"it's\"".toList := by decide +kernel
example : renderString "a\x01" = "\"a\\u0001\"".toList := by decide +kernel

end ChainEconomy.Toml
