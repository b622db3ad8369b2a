import Courier.Text.Segments

/-!
# Topic patterns

Patterns of segments. A star stands for any one segment; a hash or an angle
bracket stands for one or more segments up to the end, whatever follows it in
the pattern.
-/

namespace Courier
namespace Routing

/-- Whether a segment stands for all segments that are left. -/
def isRest (segment : List Char) : Bool :=
  segment == ['#'] || segment == ['>']

def standsFor (p s : List Char) : Bool :=
  p == ['*'] || p == s

def segmentsMatch : List (List Char) → List (List Char) → Bool
  | [], [] => true
  | [], _ :: _ => false
  | _ :: _, [] => false
  | p :: ps, s :: ss =>
    if isRest p then true else standsFor p s && segmentsMatch ps ss

def topicMatches (pattern subject : String) : Bool :=
  segmentsMatch (Text.splitChars '.' pattern.toList) (Text.splitChars '.' subject.toList)

def restAsBracket (segment : List Char) : List Char :=
  if segment = ['#'] then ['>'] else segment

/-- The pattern with each hash segment written as an angle bracket. -/
def bracketPattern (pattern : String) : String :=
  String.ofList
    (Text.joinChars '.' ((Text.splitChars '.' pattern.toList).map restAsBracket))

end Routing
end Courier
