import FaultDrill.Yaml.Token
import FaultDrill.Yaml.Token.Quoted

/-!
Names of YAML: anchors, aliases, tags and directives.

Owns: their grammar, with the percent escapes of tags.
-/

namespace FaultDrill.Yaml

/-- Characters of a tag; `delimited` tags may also hold brackets and commas. -/
def isTagChar (delimited : Bool) (char : Char) : Bool :=
  isNameChar char || ";/?:@&=+$.%!~*'()".contains char || (delimited && ",[]".contains char)

/-- How many bytes a character has in UTF-8, from the first of them. -/
def encodedLength? (first : Nat) : Option Nat :=
  if first < 0x80 then some 1
  else if first < 0xC0 then none
  else if first < 0xE0 then some 2
  else if first < 0xF0 then some 3
  else if first < 0xF8 then some 4
  else none

namespace Scan

/-- Takes the name of an anchor or alias after its first character. -/
def name : Scan (List Char) := do
  skip 1
  let name ← takeWhile isNameChar
  require (!name.isEmpty)
  require (endsOr (fun char => isGap char || "?:,]\x7d%@\x60".contains char) (← rest))
  return name

/-- Takes a byte written as a percent sign and two hexadecimal digits. -/
def percentByte : Scan Nat := do
  match ← rest with
  | '%' :: digits =>
    let byte ← hexNumber? 2 0 digits
    skip 3
    return byte
  | _ => failure

/-- Takes the bytes after the first of a character. -/
def continuationBytes : Nat → Scan Tag
  | 0 => return []
  | count + 1 => do
    let byte ← percentByte
    require (0x80 ≤ byte && byte < 0xC0)
    return UInt8.ofNat byte :: (← continuationBytes count)

/-- Takes the characters of a tag; `steps` bounds their number. -/
def tagChars (delimited : Bool) : Nat → Scan Tag
  | 0 => return []
  | steps + 1 => do
    match ← rest with
    | '%' :: _ =>
      let first ← percentByte
      let length ← encodedLength? first
      let others ← continuationBytes (length - 1)
      return UInt8.ofNat first :: others ++ (← tagChars delimited steps)
    | char :: _ =>
      if isTagChar delimited char then
        skip 1
        return UInt8.ofNat char.toNat :: (← tagChars delimited steps)
      else return []
    | [] => return []

/-- Takes all characters of a tag that follow. -/
def tagText (delimited : Bool) : Scan Tag := do
  tagChars delimited (← rest).length

/-- Takes at least one character of a tag. -/
def someTagText (delimited : Bool) : Scan Tag := do
  let text ← tagText delimited
  require (!text.isEmpty)
  return text

/-- Takes a handle: names between exclamation marks, the second of which may be missing where no
handle is defined. -/
def handle (defining : Bool) : Scan (List Char) := do
  require (← nextIs (· == '!'))
  skip 1
  let name ← takeWhile isNameChar
  if ← nextIs (· == '!') then
    skip 1
    return '!' :: name ++ ['!']
  else
    require (!defining || name.isEmpty)
    return '!' :: name

/-- Takes a tag in any of its forms: in angle brackets, after a handle, or local. A lone
exclamation mark is a tag of its own. -/
def tagForm : Scan Lexeme := do
  match ← rest with
  | '!' :: '<' :: _ =>
    skip 2
    let suffix ← someTagText true
    require (← nextIs (· == '>'))
    skip 1
    return .tag [] suffix
  | _ =>
    let handle ← handle false
    if 1 < handle.length ∧ handle.getLast? = some '!' then
      return .tag handle (← someTagText false)
    else
      let suffix := handle.tail.map (fun char => UInt8.ofNat char.toNat) ++ (← tagText false)
      if suffix.isEmpty then return .tag [] [0x21] else return .tag ['!'] suffix

/-- Takes a tag; a blank, the end of the line or, in brackets, a comma follows it. -/
def tag (inBrackets : Bool) : Scan Lexeme := do
  let tag ← tagForm
  let rest ← rest
  require ((inBrackets && startsIn (· == ',') rest) || atWordEnd rest)
  return tag

/-- Takes a number of at most nine digits. -/
def versionNumber : Scan Nat := do
  let digits ← takeWhile Char.isDigit
  require (!digits.isEmpty && digits.length ≤ 9)
  return digits.foldl (fun value digit => value * 10 + (digit.toNat - '0'.toNat)) 0

/-- Takes a directive with its line. -/
def directive : Scan Lexeme := do
  skip 1
  let name ← takeWhile isNameChar
  require (atWordEnd (← rest))
  skipWhile isBlank
  let lexeme ← (
    if name = "YAML".toList then do
      let major ← versionNumber
      require (← nextIs (· == '.'))
      skip 1
      return .version major (← versionNumber)
    else if name = "TAG".toList then do
      let handle ← handle true
      require (← nextIs isBlank)
      skipWhile isBlank
      let start ← someTagText true
      require (atWordEnd (← rest))
      return .tagPrefix handle start
    else failure : Scan Lexeme)
  finishLine
  return lexeme

end Scan

end FaultDrill.Yaml
