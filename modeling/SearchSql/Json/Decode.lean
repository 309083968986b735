import SearchSql.Json.Basic
import SearchSql.Word

/-!
Reading members of JSON values as values of other types.
-/

namespace SearchSql.Json

variable {α : Type}

def boolean? : Json → Option Bool
  | .boolean b => some b
  | _ => none

/-- An integer that a signed 64-bit word holds. -/
def int64? : Json → Option Int
  | .integer n => if fitsInt64 n then some n else none
  | _ => none

/-- A count that an unsigned 64-bit word holds. -/
def uint64? : Json → Option Nat
  | .integer (.ofNat n) => if fitsUint64 n then some n else none
  | _ => none

/-- A number as a double. -/
def double? : Json → Option Double
  | .integer n => some (Double.ofInt n)
  | .real x => some x
  | _ => none

/-- The items of a list, each read by `f`. -/
def listOf? (f : Json → Option α) : Json → Option (List α)
  | .list items => items.mapM f
  | _ => none

/-- A member that may be missing or null. -/
def optional? (f : Json → Option α) : Option Json → Option (Option α)
  | none | some .null => some none
  | some value => (f value).map some

/-- A word without contents: its text, or an object with null under it. -/
def word? : Json → Option String
  | .text s => some s
  | .object [(s, .null)] => some s
  | _ => none

theorem sizeOf_find? {key : String} {members : List (String × Json)} {value : Json}
    (h : Keyed.find? key members = some value) : sizeOf value < sizeOf members := by
  induction members with
  | nil => simp at h
  | cons pair rest ih =>
    obtain ⟨k, v⟩ := pair
    rw [Keyed.find?_cons] at h
    split at h
    · injection h with h
      subst h
      simp only [List.cons.sizeOf_spec, Prod.mk.sizeOf_spec]
      omega
    · have := ih h
      simp only [List.cons.sizeOf_spec]
      omega

end SearchSql.Json
