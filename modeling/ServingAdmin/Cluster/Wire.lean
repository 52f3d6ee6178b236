import ServingAdmin.Cluster.Request
import ServingAdmin.Cluster.Response

/-!
# Lines on the wire

Requests and responses as single lines of JSON.  A request has its method, its target and
the object that is sent along, or null; a response has its status code and its text.
-/

namespace ServingAdmin
namespace Cluster
namespace Wire

/-- The line of a request. -/
def requestLine (r : Request) : String :=
  String.ofList (Json.Writer.object [
    ("method", Json.Writer.string r.action.method),
    ("target", Json.Writer.string r.target.text),
    ("body", r.action.body.getD ['n', 'u', 'l', 'l'])])

/-- A response of which a part has been read. -/
structure Draft where
  code : Option Int
  text : Option String

/-- Reads a response. -/
def responseReader : Json.Reader Response :=
  (Json.Reader.record [
    ⟨"code", fun (d : Draft) => d.code.isSome,
      fun d => (Json.Reader.whole 0 999).map fun n => { d with code := some n }⟩,
    ⟨"text", fun d => d.text.isSome,
      fun d => Json.Reader.text.map fun s => { d with text := some s }⟩]
    ⟨none, none⟩).check fun d => do
      return .raw (← required d.code).toNat (← required d.text)

/-- The response on a line. -/
def response? (line : String) : Option Response :=
  (responseReader.readWhole line.toUTF8.toList).toOption

end Wire
end Cluster
end ServingAdmin
