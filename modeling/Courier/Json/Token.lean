import Courier.Decimal.Numeral
import Courier.Text.Utf8

/-!
# JSON tokens

Octets are read one at a time into tokens. A string token keeps its octets as
they stand, with escapes resolved to octets and code units: whether they are
well-formed text is asked only where the text is wanted.
-/

namespace Courier
namespace Json

open Text (Bytes)
open Decimal (Numeral Exponent)

/-- A part of a string: an octet, or a code unit written as `\u` and four digits. -/
inductive Piece where
  | octet (b : UInt8)
  | unit (code : Nat)
deriving DecidableEq, Repr

inductive Token where
  | openBrace
  | closeBrace
  | openBracket
  | closeBracket
  | colon
  | comma
  | null
  | bool (b : Bool)
  | number (x : Numeral)
  | string (pieces : List Piece)
deriving DecidableEq, Repr

namespace Token

def digit? (b : UInt8) : Option Nat :=
  if 0x30 ≤ b ∧ b ≤ 0x39 then some (b.toNat - 0x30) else none

def hexDigit? (b : UInt8) : Option Nat :=
  if 0x30 ≤ b ∧ b ≤ 0x39 then some (b.toNat - 0x30)
  else if 0x61 ≤ b ∧ b ≤ 0x66 then some (b.toNat - 0x61 + 10)
  else if 0x41 ≤ b ∧ b ≤ 0x46 then some (b.toNat - 0x41 + 10)
  else none

def isBlank (b : UInt8) : Bool :=
  b == 0x20 || b == 0x09 || b == 0x0A || b == 0x0D

def isNumeric (b : UInt8) : Bool :=
  (digit? b).isSome || b == 0x2B || b == 0x2D || b == 0x2E || b == 0x45 || b == 0x65

def isLetter (b : UInt8) : Bool :=
  0x61 ≤ b && b ≤ 0x7A

def takeDigits (bytes : Bytes) : List Nat × Bytes :=
  (bytes.takeWhile (fun b => (digit? b).isSome) |>.filterMap digit?,
    bytes.dropWhile fun b => (digit? b).isSome)

def exponent? : Bytes → Option (Option Exponent)
  | [] => some none
  | mark :: rest =>
    if mark == 0x65 || mark == 0x45 then
      let (negative, rest) :=
        match rest with
        | 0x2B :: more => (false, more)
        | 0x2D :: more => (true, more)
        | more => (false, more)
      let (digits, rest) := takeDigits rest
      if digits.isEmpty || !rest.isEmpty then none else some (some ⟨negative, digits⟩)
    else none

/-- A run of numeric octets as a number: no zero in front of other digits. -/
def numeral? (bytes : Bytes) : Option Numeral :=
  let (negative, rest) :=
    match bytes with
    | 0x2D :: more => (true, more)
    | more => (false, more)
  let (whole, rest) := takeDigits rest
  if whole.isEmpty || (whole.head? == some 0 && whole.length != 1) then none
  else
    match rest with
    | 0x2E :: more =>
      let (fraction, rest) := takeDigits more
      if fraction.isEmpty then none
      else (exponent? rest).map fun e => ⟨negative, whole, fraction, e⟩
    | rest => (exponent? rest).map fun e => ⟨negative, whole, [], e⟩

def word? (bytes : Bytes) : Option Token :=
  if bytes = "null".toUTF8.toList then some .null
  else if bytes = "true".toUTF8.toList then some (.bool true)
  else if bytes = "false".toUTF8.toList then some (.bool false)
  else none

/-- What an octet after a backslash stands for; `u` is read apart. -/
def escaped? (b : UInt8) : Option UInt8 :=
  match b with
  | 0x22 => some 0x22
  | 0x5C => some 0x5C
  | 0x2F => some 0x2F
  | 0x62 => some 0x08
  | 0x66 => some 0x0C
  | 0x6E => some 0x0A
  | 0x72 => some 0x0D
  | 0x74 => some 0x09
  | _ => none

def mark? (b : UInt8) : Option Token :=
  match b with
  | 0x7B => some .openBrace
  | 0x7D => some .closeBrace
  | 0x5B => some .openBracket
  | 0x5D => some .closeBracket
  | 0x3A => some .colon
  | 0x2C => some .comma
  | _ => none

/-- Where reading stands; what was seen is kept latest first. -/
inductive Place where
  | between
  | word (seen : Bytes)
  | number (seen : Bytes)
  | string (seen : List Piece)
  | escape (seen : List Piece)
  | unit (seen : List Piece) (code : Nat) (owed : Nat)
deriving DecidableEq, Repr

structure Reading where
  tokens : List Token := []
  place : Place := .between
deriving DecidableEq, Repr

def Reading.start (tokens : List Token) (b : UInt8) : Option Reading :=
  if isBlank b then some ⟨tokens, .between⟩
  else if b == 0x22 then some ⟨tokens, .string []⟩
  else if isLetter b then some ⟨tokens, .word [b]⟩
  else if isNumeric b then some ⟨tokens, .number [b]⟩
  else (mark? b).map fun t => ⟨t :: tokens, .between⟩

def Reading.step (r : Reading) (b : UInt8) : Option Reading :=
  match r.place with
  | .between => Reading.start r.tokens b
  | .word seen =>
    if isLetter b then some ⟨r.tokens, .word (b :: seen)⟩
    else
      match word? seen.reverse with
      | some t => Reading.start (t :: r.tokens) b
      | none => none
  | .number seen =>
    if isNumeric b then some ⟨r.tokens, .number (b :: seen)⟩
    else
      match numeral? seen.reverse with
      | some x => Reading.start (.number x :: r.tokens) b
      | none => none
  | .string seen =>
    if b == 0x22 then some ⟨.string seen.reverse :: r.tokens, .between⟩
    else if b == 0x5C then some ⟨r.tokens, .escape seen⟩
    else if b < 0x20 then none
    else some ⟨r.tokens, .string (.octet b :: seen)⟩
  | .escape seen =>
    if b == 0x75 then some ⟨r.tokens, .unit seen 0 4⟩
    else (escaped? b).map fun e => ⟨r.tokens, .string (.octet e :: seen)⟩
  | .unit seen code owed =>
    match hexDigit? b with
    | none => none
    | some d =>
      let code := code * 16 + d
      if owed ≤ 1 then some ⟨r.tokens, .string (.unit code :: seen)⟩
      else some ⟨r.tokens, .unit seen code (owed - 1)⟩

def Reading.finish (r : Reading) : Option (List Token) :=
  match r.place with
  | .between => some r.tokens.reverse
  | .word seen => (word? seen.reverse).map fun t => (t :: r.tokens).reverse
  | .number seen => (numeral? seen.reverse).map fun x => (.number x :: r.tokens).reverse
  | _ => none

def ofBytes? (bytes : Bytes) : Option (List Token) :=
  (bytes.foldlM Reading.step {}) >>= Reading.finish

end Token

/-- A string's octets so far, latest first, and a leading surrogate still unpaired. -/
structure Resolving where
  octets : Bytes := []
  leading : Option Nat := none
deriving DecidableEq, Repr

def isLeading (code : Nat) : Bool := 0xD800 ≤ code && code < 0xDC00
def isTrailing (code : Nat) : Bool := 0xDC00 ≤ code && code < 0xE000

def Resolving.push (r : Resolving) (code : Nat) : Resolving :=
  ⟨(Text.Utf8.encodeChar (Char.ofNat code)).reverse ++ r.octets, none⟩

/-- Reads one piece. A leading surrogate must be followed by a trailing one. -/
def Resolving.step (r : Resolving) : Piece → Option Resolving
  | .octet b =>
    match r.leading with
    | none => some { r with octets := b :: r.octets }
    | some _ => none
  | .unit code =>
    match r.leading with
    | none =>
      if isLeading code then some { r with leading := some code }
      else if isTrailing code then none
      else some (r.push code)
    | some high =>
      if isTrailing code then
        some (r.push (0x10000 + (high - 0xD800) * 0x400 + (code - 0xDC00)))
      else none

def text? (pieces : List Piece) : Option String :=
  match pieces.foldlM Resolving.step {} with
  | some ⟨octets, none⟩ => Text.Utf8.decode? octets.reverse
  | _ => none

end Json
end Courier
