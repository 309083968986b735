/-!
The ranges of 64-bit words.
-/

namespace SearchSql

/-- Whether a signed word holds the integer. -/
def fitsInt64 (n : Int) : Bool :=
  decide (-0x8000000000000000 ≤ n) && decide (n < 0x8000000000000000)

/-- Whether an unsigned word holds the number. -/
def fitsUint64 (n : Nat) : Bool := decide (n < 0x10000000000000000)

theorem fitsInt64_iff {n : Int} :
    fitsInt64 n = true ↔ -0x8000000000000000 ≤ n ∧ n < 0x8000000000000000 := by
  simp [fitsInt64]

theorem fitsUint64_iff {n : Nat} : fitsUint64 n = true ↔ n < 0x10000000000000000 := by
  simp [fitsUint64]

end SearchSql
