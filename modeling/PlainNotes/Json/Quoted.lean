import PlainNotes.Json.Numeral
import PlainNotes.Text.Utf8

/-!
# Strings of JSON

Reading and writing strings between their quotes. Reading works on bytes: escapes become the bytes
that they stand for, and the whole is then read as UTF-8.

- `readChars` reads up to the closing quote, and `readString` makes a text of it;
- `skipChars` passes over a string whose text is of no interest;
- `escaped` is how a text is written.
-/

namespace PlainNotes.Json

def hexValue? (b : UInt8) : Option Nat :=
  let n := b.toNat
  if isDigit b then some (n - 0x30)
  else if 0x41 ≤ n && n ≤ 0x46 then some (n - 0x41 + 10)
  else if 0x61 ≤ n && n ≤ 0x66 then some (n - 0x61 + 10)
  else none

def hex4? (a b c d : UInt8) : Option Nat := do
  return (((← hexValue? a) * 16 + (← hexValue? b)) * 16 + (← hexValue? c)) * 16 + (← hexValue? d)

/-- The character of an escape of one letter. -/
def shortEscape? (b : UInt8) : Option UInt8 :=
  if b == byte '"' || b == byte '\\' || b == byte '/' then some b
  else if b == byte 'b' then some 8
  else if b == byte 'f' then some 12
  else if b == byte 'n' then some 10
  else if b == byte 'r' then some 13
  else if b == byte 't' then some 9
  else none

/-- First halves of a pair that stands for a character above 0xffff. -/
def isHighSurrogate (n : Nat) : Bool :=
  0xd800 ≤ n && n ≤ 0xdbff

/-- Second halves of such a pair. -/
def isLowSurrogate (n : Nat) : Bool :=
  0xdc00 ≤ n && n ≤ 0xdfff

def joinSurrogates (high low : Nat) : Char :=
  Char.ofNat ((high - 0xd800) * 1024 + (low - 0xdc00) + 0x10000)

def putBefore (bytes : List UInt8) (read : Except Fault (List UInt8 × List UInt8)) :
    Except Fault (List UInt8 × List UInt8) :=
  read.map fun r => (bytes ++ r.1, r.2)

/-- The bytes of a string up to its closing quote, and what follows the quote. -/
def readChars : List UInt8 → Except Fault (List UInt8 × List UInt8)
  | [] => .error .unfinishedString
  | b :: s =>
    if b == byte '"' then .ok ([], s)
    else if b < 0x20 then .error .controlCharacter
    else if b != byte '\\' then putBefore [b] (readChars s)
    else
      match s with
      | [] => .error .unfinishedString
      | e :: t =>
        if e != byte 'u' then
          match shortEscape? e with
          | none => .error .invalidEscape
          | some x => putBefore [x] (readChars t)
        else
          match t with
          | h₁ :: h₂ :: h₃ :: h₄ :: u =>
            match hex4? h₁ h₂ h₃ h₄ with
            | none => .error .invalidEscape
            | some n =>
              if isLowSurrogate n then .error .loneSurrogate
              else if !isHighSurrogate n then
                putBefore (Utf8.encodeChar (Char.ofNat n)) (readChars u)
              else
                match u with
                | [] => .error .unfinishedString
                | [b₁] =>
                  .error (if b₁ == byte '\\' then .unfinishedString else .unfinishedSurrogatePair)
                | b₁ :: b₂ :: v =>
                  if b₁ != byte '\\' || b₂ != byte 'u' then .error .unfinishedSurrogatePair
                  else
                    match v with
                    | l₁ :: l₂ :: l₃ :: l₄ :: w =>
                      match hex4? l₁ l₂ l₃ l₄ with
                      | none => .error .invalidEscape
                      | some m =>
                        if isLowSurrogate m then
                          putBefore (Utf8.encodeChar (joinSurrogates n m)) (readChars w)
                        else .error .loneSurrogate
                    | _ => .error .unfinishedString
          | _ => .error .unfinishedString

/-- The text of a string, whose opening quote is already read. -/
def readString (s : List UInt8) : Except Fault (String × List UInt8) := do
  let (bytes, rest) ← readChars s
  match Utf8.decode? bytes with
  | some text => return (String.ofList text, rest)
  | none => throw .invalidCodePoint

/-- Passes over a string without looking at what its bytes and escapes stand for. -/
def skipChars : List UInt8 → Except Fault (List UInt8)
  | [] => .error .unfinishedString
  | b :: s =>
    if b == byte '"' then .ok s
    else if b < 0x20 then .error .controlCharacter
    else if b != byte '\\' then skipChars s
    else
      match s with
      | [] => .error .unfinishedString
      | e :: t =>
        if e != byte 'u' then
          if (shortEscape? e).isSome then skipChars t else .error .invalidEscape
        else
          match t with
          | h₁ :: h₂ :: h₃ :: h₄ :: u =>
            if (hex4? h₁ h₂ h₃ h₄).isSome then skipChars u else .error .invalidEscape
          | _ => .error .unfinishedString

/-! ## Writing -/

def hexDigit (n : Nat) : Char :=
  if n < 10 then Char.ofNat (0x30 + n) else Char.ofNat (0x61 + n - 10)

def escapedChar (c : Char) : List Char :=
  if c = '"' then ['\\', '"']
  else if c = '\\' then ['\\', '\\']
  else if c = '\n' then ['\\', 'n']
  else if c = '\r' then ['\\', 'r']
  else if c = '\t' then ['\\', 't']
  else if c.toNat = 8 then ['\\', 'b']
  else if c.toNat = 12 then ['\\', 'f']
  else if c.toNat < 0x20 then
    ['\\', 'u', '0', '0', hexDigit (c.toNat / 16), hexDigit (c.toNat % 16)]
  else [c]

def escaped (s : List Char) : List Char :=
  s.flatMap escapedChar

def quotedString (s : String) : List Char :=
  '"' :: escaped s.toList ++ ['"']

end PlainNotes.Json
