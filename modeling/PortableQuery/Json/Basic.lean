import PortableQuery.Decimal.Binary64
import PortableQuery.Entries

/-!
# JSON values

Objects keep the order of their members. Numbers are integers or finite binary numbers; a reader
makes an integer of whatever fits 64 bits, signed or unsigned, and has neither point nor exponent.
-/

namespace PortableQuery

inductive Json
  | null
  | bool (value : Bool)
  | integer (value : Int)
  | float (value : Decimal.Finite)
  | string (value : String)
  | array (items : List Json)
  | object (members : List (String × Json))

namespace Json

/-- The member of an object under a name; other values have none. -/
def get? : Json → String → Option Json
  | .object members, name => Entries.get? members name
  | _, _ => none

def string? : Json → Option String
  | .string value => some value
  | _ => none

def bool? : Json → Option Bool
  | .bool value => some value
  | _ => none

def array? : Json → Option (List Json)
  | .array items => some items
  | _ => none

def members? : Json → Option (Entries Json)
  | .object members => some members
  | _ => none

/-- The `type` member that tells what an object stands for. -/
def typeName? (json : Json) : Option String := (json.get? "type").bind string?

end Json

end PortableQuery
