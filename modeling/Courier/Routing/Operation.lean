import Courier.Text.Blank
import Courier.Text.Segments

/-!
# Operations

The kinds of message that can be sent, and the names by which they are found on
the bus: routing keys, binding patterns, queues and dead-letter subjects. Names
are made of segments between dots.
-/

namespace Courier

inductive Operation where
  | sendText
  | sendImage
  | sendDocument
deriving DecidableEq, Repr, Inhabited

namespace Routing

def outboundExchange : String := "im_message.events"

def outboundQueue : String := "im-providers.outbound-processor.v1"

/-- The headers that may carry the routing key, in the order they are asked. -/
def keyHeaders : List String := ["x-routing-key", "routing_key"]

def deadLetterSubject : String := "dlq.im_provider"

/-- Blanks, separators and wildcards, which may not stand in a segment. -/
def isReserved (c : Char) : Bool :=
  c == ' ' || c == '\t' || c == '\n' || c == '\r' || c == '*' || c == '>' || c == '/' ||
    c == '.' || c == '#'

def hyphenFor (c : Char) : Char :=
  if isReserved c then '-' else c

def normalChars (cs : List Char) : List Char :=
  let cs := (Text.trimChars cs).map hyphenFor
  if cs.isEmpty then "unknown".toList else cs

/-- The segment for a name: trimmed, without reserved characters, never empty. -/
def normal (s : String) : String :=
  String.ofList (normalChars s.toList)

end Routing

namespace Operation

open Routing

def all : List Operation := [.sendText, .sendImage, .sendDocument]

def name : Operation → String
  | .sendText => "SEND_TEXT_V1"
  | .sendImage => "SEND_IMAGE_V1"
  | .sendDocument => "SEND_DOCUMENT_V1"

def kind : Operation → String
  | .sendText => "text"
  | .sendImage => "image"
  | .sendDocument => "document"

def keyWith (op : Operation) (segment : String) : String :=
  "im_provider.outbound." ++ segment ++ ".send." ++ op.kind ++ ".v1"

/-- The pattern that the operation's routing keys match, whatever the provider. -/
def bindingPattern (op : Operation) : String :=
  op.keyWith "*"

def routingKey (op : Operation) (provider : String) : String :=
  op.keyWith (normal provider)

def queueName (op : Operation) (instanceId : String) : String :=
  outboundQueue ++ "." ++ normal instanceId ++ "." ++ op.name

def deadLetterSubject (op : Operation) : String :=
  Routing.deadLetterSubject ++ "." ++ op.kind

/-- An operation's kind or name, in any letter case. -/
def ofString? (s : String) : Option Operation :=
  let s := s.toLower
  if s = "text" ∨ s = "send_text_v1" then some .sendText
  else if s = "image" ∨ s = "send_image_v1" then some .sendImage
  else if s = "document" ∨ s = "send_document_v1" then some .sendDocument
  else none

def unknownMessage (s : String) : String :=
  "unknown operation `" ++ s.toLower ++ "`"

end Operation

namespace Routing

/-- The provider that a routing key names in its third segment. -/
def providerOf? (key : String) : Option String :=
  match (Text.split '.' key)[2]? with
  | none => none
  | some segment =>
    let segment := Text.trim segment
    if segment.isEmpty then none else some segment

/-- The routing key among headers: the first of the key headers that is not blank. -/
def keyOf? (lookup : String → Option String) : Option String :=
  (keyHeaders.filterMap lookup).find? fun value => !Text.isBlank value

end Routing
end Courier
