import Courier.Text.Percent
import Courier.Text.Segments

/-!
# Paths

The paths that the server answers at. A provider is named by the one segment
after the first; it may hold octets written with a percent sign.
-/

namespace Courier
namespace Webhook

inductive Route where
  | provider (name : String)
  /-- The segment that names the provider is not text. -/
  | malformed
  | health
  | unknown
deriving DecidableEq, Repr

/-- The path of a request target, without scheme, host and query. -/
def pathOf (target : String) : String :=
  let cs := target.toList.takeWhile fun c => c != '?' && c != '#'
  let cs :=
    match cs with
    | '/' :: _ => cs
    | _ =>
      let scheme := cs.takeWhile (· != ':')
      match cs.drop scheme.length with
      | ':' :: '/' :: '/' :: rest => rest.dropWhile (· != '/')
      | _ => cs
  String.ofList cs

def routeOf (target : String) : Route :=
  let path := pathOf target
  if path = "/healthz" then .health
  else
    match Text.split '/' path with
    | ["", "wh", segment] =>
      if segment.isEmpty then .unknown
      else
        match Text.Utf8.decode? (Text.percentDecode (Text.Utf8.encode segment)) with
        | some name => .provider name
        | none => .malformed
    | _ => .unknown

end Webhook
end Courier
