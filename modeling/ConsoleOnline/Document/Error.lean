import ConsoleOnline.Json.Reader
import ConsoleOnline.OnlineError

/-!
Why a document of the service is refused: it is malformed, it is of a kind that is only ever sent,
or what it says makes no sense. Only documents that are not JSON at all have no wording of their
own here.
-/
namespace ConsoleOnline

inductive DocumentFault where
  | notJson
  | notAList (kind : String)
  | notAnObject (kind : String)
  | mismatch (m : Json.Mismatch)
  | noHexNumber (field : String)
  | hostAddress (text : String)
  | macAddress (text : String) (error : OnlineError)
  deriving Repr

inductive DocumentError where
  | malformed (fault : DocumentFault)
  | onlySent (kind : String)
  | content (error : OnlineError)
  deriving Repr

def DocumentFault.message : DocumentFault → String
  | notJson => "not a JSON value"
  | notAList kind => kind ++ " document is not a list"
  | notAnObject kind => kind ++ " document is not an object"
  | mismatch m => m.message
  | noHexNumber field => field ++ " is not a hex string"
  | hostAddress text => "hostAddress '" ++ text ++ "': invalid IPv4 address syntax"
  | macAddress text error => "macAddress '" ++ text ++ "': " ++ error.message

def DocumentError.message : DocumentError → String
  | malformed fault => "Malformed input: " ++ fault.message
  | onlySent kind => "Decoding " ++ kind ++ " is not supported"
  | content error => error.message

namespace Document

/-- The document that a text writes. -/
def parse (text : String) : Except DocumentError Json.Value :=
  match Json.Value.read? text with
  | some v => .ok v
  | none => .error (.malformed .notJson)

/-- The items of a document that is a list. -/
def items (kind : String) : Json.Value → Except DocumentError (List Json.Value)
  | .array items => .ok items
  | _ => .error (.malformed (.notAList kind))

theorem items_of_not_array {document : Json.Value} (h : ∀ items, document ≠ .array items)
    (kind : String) : items kind document = .error (.malformed (.notAList kind)) := by
  cases document with
  | array items => exact absurd rfl (h items)
  | null => rfl
  | bool _ => rfl
  | number _ => rfl
  | string _ => rfl
  | object _ => rfl

/-- What is held after a document has been received, where it is not refused. -/
def received (receipt : EStateM DocumentError σ Unit) (held : σ) : Except DocumentError σ :=
  match receipt.run held with
  | .ok _ next => .ok next
  | .error e _ => .error e

end Document

end ConsoleOnline
