import Courier.Decimal.Written
import Courier.Yaml.Tag

/-!
# What scalars stand for

A plain scalar may stand for nothing, a truth value or a number; by a common tag
any scalar may. Whole numbers are written with a base mark, or in decimal without
zeros in front.
-/

namespace Courier
namespace Yaml

open Decimal (Numeral)

def nullNames : List String := ["~", "null", "Null", "NULL"]

def isNullText (text : String) : Bool := text.isEmpty || nullNames.contains text

def boolNames : List (String × Bool) :=
  [("true", true), ("True", true), ("TRUE", true), ("false", false), ("False", false),
    ("FALSE", false)]

/-- Words for truth values, for when one is looked for; in any letter case. -/
def boolWords : List (String × Bool) :=
  [("true", true), ("yes", true), ("y", true), ("on", true), ("false", false), ("no", false),
    ("n", false), ("off", false)]

def boolWord? (text : String) : Option Bool :=
  boolWords.lookup (String.ofList (text.toList.map Char.toLower))

/-! ## Numbers -/

def digit? (base : Nat) (c : Char) : Option Nat :=
  (Text.hexValue? c).filter (· < base)

def natOfDigits? (base : Nat) (cs : List Char) : Option Nat :=
  if cs.isEmpty then none
  else cs.foldlM (fun n c => (digit? base c).map (n * base + ·)) 0

/-- A whole number with a base mark, or in decimal without zeros in front. -/
def natOfChars? (cs : List Char) : Option Nat :=
  match cs with
  | '0' :: 'x' :: digits => natOfDigits? 16 digits
  | '0' :: 'o' :: digits => natOfDigits? 8 digits
  | '0' :: 'b' :: digits => natOfDigits? 2 digits
  | '0' :: _ :: _ => none
  | _ => natOfDigits? 10 cs

def natural? (text : String) : Option Nat :=
  match text.toList with
  | '+' :: cs => natOfChars? cs
  | cs => natOfChars? cs

def integer? (text : String) : Option Int :=
  match text.toList with
  | '-' :: cs => (natOfChars? cs).map fun n => -(n : Int)
  | _ => (natural? text).map Int.ofNat

def isWord (n : Int) : Bool :=
  -(Int64.size / 2 : Nat) ≤ n && n < (UInt64.size : Nat)

def isDoubleWord (n : Int) : Bool :=
  -(1 <<< 127 : Nat) ≤ n && n < (1 <<< 128 : Nat)

def isPadded (cs : List Char) : Bool :=
  let digits := Decimal.unsigned cs
  1 < digits.length && digits.head? == some '0' && digits.all Char.isDigit

def infinityNames : List String := [".inf", ".Inf", ".INF"]

def nanNames : List String := [".nan", ".NaN", ".NAN"]

def isReal (text : String) : Bool :=
  let cs := text.toList
  nanNames.contains text || infinityNames.contains (String.ofList (Decimal.unsigned cs)) ||
    (!isPadded cs && (Numeral.ofChars? cs).any fun x => x.toBinary64?.isSome)

/-! ## Tags -/

def boolTag : String := coreTag ++ "bool"

def intTag : String := coreTag ++ "int"

def floatTag : String := coreTag ++ "float"

def nullTag : String := coreTag ++ "null"

/-- The name of a tag that has a meaning in its document only. -/
def localName? (tag : String) : Option String :=
  match tag.toList with
  | ['!'] => some "!"
  | '!' :: name => some (String.ofList name)
  | _ => none

end Yaml
end Courier
