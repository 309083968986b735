import SearchSql.Double
import SearchSql.Keyed

/-!
JSON values. Whole numbers and doubles are kept apart, and objects list their members in ascending
order of the keys unless a fixed order of members is asked for.
-/

namespace SearchSql

inductive Json
  | null
  | boolean (b : Bool)
  | integer (n : Int)
  | real (x : Double)
  | text (s : String)
  | list (items : List Json)
  | object (members : List (String × Json))
deriving Inhabited

namespace Json

/-- The object with the given members; the last member of a key wins. -/
def ofMembers (members : List (String × Json)) : Json := .object (Keyed.ofPairs members)

/-- The object with those of the given members that are set. -/
def ofSet (members : List (String × Option Json)) : Json :=
  ofMembers (members.filterMap fun member => member.2.map fun value => (member.1, value))

/-- The object with one member. -/
def single (key : String) (value : Json) : Json := .object [(key, value)]

/-- The number of a double. JSON has no infinities, so they are written as null. -/
def ofDouble (x : Double) : Json := if x.isFinite then .real x else .null

/-- A value or null. -/
def ofOption {α : Type} (f : α → Json) : Option α → Json
  | none => .null
  | some a => f a

/-- The members of an object. -/
def members? : Json → Option (List (String × Json))
  | .object members => some members
  | _ => none

def text? : Json → Option String
  | .text s => some s
  | _ => none

/-- The member of an object under a key. Other values have no members. -/
def get? (key : String) : Json → Option Json
  | .object members => Keyed.find? key members
  | _ => none

def isNull : Json → Bool
  | .null => true
  | _ => false

end Json

end SearchSql
