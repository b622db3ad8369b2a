import Courier.Text.Utf8
import Courier.Yaml.Scalar

/-!
# Names and tags

Anchors are named by words of ASCII. A tag says what kind a node is of: it is
written in full between angle brackets, or as a handle and what follows it, and
the directives of a document tell what handles stand for.
-/

namespace Courier
namespace Yaml

def endsFlowNode (cs : List Char) : Bool :=
  cs.head?.any fun c => c == ',' || c == ']' || c == '\x7d'

def anchorName? (cs : List Char) : Option (Found String) :=
  let name := cs.takeWhile isNameChar
  let rest := cs.drop name.length
  if name.isEmpty || !(endsWord rest || endsFlowNode rest) then none
  else some ⟨String.ofList name, name.length⟩

/-- A tag as it is written; in full it has no handle. -/
structure WrittenTag where
  handle : String
  suffix : String
deriving DecidableEq, Repr

structure Handle where
  name : String
  stands : String
deriving DecidableEq, Repr

def coreTag : String := "tag:yaml.org,2002:"

def Handle.defaults : List Handle := [⟨"!", "!"⟩, ⟨"!!", coreTag⟩]

/-- The tag in full, unless the handle stands for nothing. -/
def WrittenTag.resolve? (handles : List Handle) (t : WrittenTag) : Option String :=
  if t.handle.isEmpty then some t.suffix
  else ((handles ++ Handle.defaults).find? (·.name == t.handle)).map fun h => h.stands ++ t.suffix

def isTagChar (c : Char) : Bool := isNameChar c || ";/?:@&=+$.~*'()".toList.contains c

def isFullTagChar (c : Char) : Bool := isTagChar c || c == '!' || c == ',' || c == '[' || c == ']'

/-- The bytes of a tag; two digits after a percent mark are the code of a byte. -/
def tagBytes? (holds : Char → Bool) : List Char → Option (Found Text.Bytes)
  | '%' :: high :: low :: rest =>
    match Text.hexValue? high, Text.hexValue? low, tagBytes? holds rest with
    | some h, some l, some found =>
      some ((found.map (UInt8.ofNat (h * 16 + l) :: ·)).after 3)
    | _, _, _ => none
  | c :: rest =>
    if c == '%' then none
    else if holds c then
      (tagBytes? holds rest).map fun found =>
        (found.map (UInt8.ofNat c.toNat :: ·)).after 1
    else some ⟨[], 0⟩
  | [] => some ⟨[], 0⟩

def tagText? (holds : Char → Bool) (cs : List Char) : Option (Found String) :=
  tagBytes? holds cs >>= fun found =>
    (Text.Utf8.decode? found.value).map fun text => ⟨text, found.length⟩

def handle? (cs : List Char) : Option (Found String) :=
  let name := cs.takeWhile isNameChar
  if (cs.drop name.length).head? == some '!' then
    some ⟨"!" ++ String.ofList name ++ "!", name.length + 1⟩
  else none

def fullTag? (cs : List Char) : Option (Found WrittenTag) :=
  tagText? isFullTagChar cs >>= fun text =>
    if text.value.isEmpty || (text.rest cs).head? != some '>' then none
    else some ((text.map fun t => ⟨"", t⟩).after 1)

/-- A tag after its first exclamation mark; an exclamation mark may be all of it. -/
def writtenTag? (cs : List Char) : Option (Found WrittenTag) :=
  match cs with
  | '<' :: rest => (fullTag? rest).map (·.after 1)
  | _ =>
    match handle? cs with
    | some handle =>
      (tagText? isTagChar (handle.rest cs)).bind fun suffix =>
        if suffix.value.isEmpty then none
        else some ((suffix.map fun s => ⟨handle.value, s⟩).after handle.length)
    | none =>
      (tagText? isTagChar cs).map (·.map fun suffix =>
        if suffix.isEmpty then ⟨"", "!"⟩ else ⟨"!", suffix⟩)

def tag? (flow : Bool) (cs : List Char) : Option (Found WrittenTag) :=
  (writtenTag? cs).filter fun t =>
    endsWord (t.rest cs) || (flow && (t.rest cs).head? == some ',')

/-! ## Directives -/

inductive Directive where
  | version (major minor : Nat)
  | handle (h : Handle)
deriving DecidableEq, Repr

def versionNumber? (cs : List Char) : Option (Found Nat) :=
  let digits := cs.takeWhile Char.isDigit
  if digits.isEmpty || 9 < digits.length then none
  else
    some ⟨digits.foldl (fun n c => n * 10 + (c.toNat - '0'.toNat)) 0, digits.length⟩

def version? (cs : List Char) : Option (Found Directive) := do
  let major ← versionNumber? cs
  match major.rest cs with
  | '.' :: rest =>
    let minor ← versionNumber? rest
    return (minor.map (Directive.version major.value)).after (major.length + 1)
  | _ => none

def handleDirective? (cs : List Char) : Option (Found Directive) :=
  match cs with
  | '!' :: cs => do
    let name := (handle? cs).getD ⟨"!", 0⟩
    let blanks := (name.rest cs).takeWhile isBlank
    let length := name.length + blanks.length
    let stands ← tagText? isFullTagChar (cs.drop length)
    if blanks.isEmpty || stands.value.isEmpty then none
    return (stands.map fun s => .handle ⟨name.value, s⟩).after (length + 1)
  | _ => none

def directive? (cs : List Char) : Option (Found Directive) := do
  let name := cs.takeWhile isNameChar
  let length := name.length + ((cs.drop name.length).takeWhile isBlank).length
  let value := cs.drop length
  let found ←
    if !endsWord (cs.drop name.length) then none
    else if name = "YAML".toList then version? value
    else if name = "TAG".toList then handleDirective? value
    else none
  let rest := found.rest value
  if endsWord rest && lineIsOver rest then
    return found.after (length + (rest.takeWhile fun c => !isLineEnd c).length)
  else none

end Yaml
end Courier
