import Courier.Json.Token

/-!
# JSON documents

The tree of a JSON document, with texts and numbers as they are written. Tokens
are read one at a time over a stack of open arrays and objects, so a document
may be nested to any depth.
-/

namespace Courier
namespace Json

open Text (Bytes)
open Decimal (Numeral)

/-- A document; members are kept in order, repeated keys included. -/
inductive Document where
  | null
  | bool (b : Bool)
  | number (x : Numeral)
  | string (pieces : List Piece)
  | array (items : List Document)
  | object (members : List (List Piece × Document))
deriving Repr

namespace Document

/-- An array, object or member that is still open; parts are kept latest first. -/
inductive Open where
  | array (items : List Document)
  | object (members : List (List Piece × Document))
  | member (members : List (List Piece × Document)) (key : List Piece)

inductive Place where
  | value
  /-- An array has begun: a value, or its end. -/
  | firstItem
  /-- An object has begun: a key, or its end. -/
  | firstKey
  | key
  | colon (key : List Piece)
  /-- A value has ended: a comma, or the end of what holds it. -/
  | more
  | done (root : Document)

structure Reading where
  stack : List Open := []
  place : Place := .value

def Reading.settle (v : Document) : List Open → Option Reading
  | [] => some ⟨[], .done v⟩
  | .array items :: rest => some ⟨.array (v :: items) :: rest, .more⟩
  | .member members key :: rest => some ⟨.object ((key, v) :: members) :: rest, .more⟩
  | .object _ :: _ => none

def Reading.begin (stack : List Open) : Token → Option Reading
  | .null => settle .null stack
  | .bool b => settle (.bool b) stack
  | .number x => settle (.number x) stack
  | .string pieces => settle (.string pieces) stack
  | .openBracket => some ⟨.array [] :: stack, .firstItem⟩
  | .openBrace => some ⟨.object [] :: stack, .firstKey⟩
  | _ => none

def Reading.close : Token → List Open → Option Reading
  | .closeBracket, .array items :: rest => settle (.array items.reverse) rest
  | .closeBrace, .object members :: rest => settle (.object members.reverse) rest
  | _, _ => none

def Reading.step (r : Reading) (t : Token) : Option Reading :=
  match r.place with
  | .value => begin r.stack t
  | .firstItem => if t = .closeBracket then close t r.stack else begin r.stack t
  | .firstKey =>
    match t with
    | .string key => some ⟨r.stack, .colon key⟩
    | t => close t r.stack
  | .key =>
    match t with
    | .string key => some ⟨r.stack, .colon key⟩
    | _ => none
  | .colon key =>
    match t, r.stack with
    | .colon, .object members :: rest => some ⟨.member members key :: rest, .value⟩
    | _, _ => none
  | .more =>
    match t, r.stack with
    | .comma, .array _ :: _ => some ⟨r.stack, .value⟩
    | .comma, .object _ :: _ => some ⟨r.stack, .key⟩
    | t, stack => close t stack
  | .done _ => none

def Reading.finish (r : Reading) : Option Document :=
  match r.place with
  | .done root => some root
  | _ => none

def ofTokens? (tokens : List Token) : Option Document :=
  tokens.foldlM Reading.step {} >>= Reading.finish

def ofBytes? (bytes : Bytes) : Option Document :=
  Token.ofBytes? bytes >>= ofTokens?

end Document
end Json
end Courier
