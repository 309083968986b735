import SearchSql.Query.Basic

/-!
The documents that a query matches. What the search engine makes of values is left open: its
relations are arbitrary, and so is the order of values.
-/

namespace SearchSql

/-- How a search engine compares the value of a field with what a clause asks of the field. -/
structure Engine (Value : Type) where
  isTerm : String → Value → Literal → Bool
  hasWord : String → Value → Literal → Bool
  hasPhrase : String → Value → Literal → Bool
  fits : String → Value → String → Bool
  /-- The value that a literal stands for in a field. -/
  read : String → Literal → Value
  /-- The strict order and the weak order of the values of a field. -/
  less : String → Value → Value → Bool
  atMost : String → Value → Value → Bool

/-- A document has at most one value in each field. -/
abbrev Document (Value : Type) := String → Option Value

variable {Value : Type} (E : Engine Value) (d : Document Value)

def Document.has (f : String) : Bool := (d f).isSome

namespace Engine

def matchesTerm (f : String) (value : Literal) : Bool := (d f).any fun x => E.isTerm f x value

def matchesWord (f : String) (words : Literal) : Bool := (d f).any fun x => E.hasWord f x words

def matchesPhrase (f : String) (phrase : Literal) : Bool :=
  (d f).any fun x => E.hasPhrase f x phrase

def matchesWildcard (f pattern : String) : Bool := (d f).any fun x => E.fits f x pattern

/-- Whether a value of a field lies within all bounds that are set. -/
def within (f : String) (b : Bounds) (x : Value) : Bool :=
  b.gt.all (fun low => E.less f (E.read f low) x) &&
    b.gte.all (fun low => E.atMost f (E.read f low) x) &&
    b.lt.all (fun high => E.less f x (E.read f high)) &&
    b.lte.all fun high => E.atMost f x (E.read f high)

def matchesRange (f : String) (b : Bounds) : Bool := (d f).any (E.within f b)

/-- An engine whose values are literals. Only integers have an order. -/
def ofLiterals : Engine Literal where
  isTerm _ x value := x == value
  hasWord _ x words := x == words
  hasPhrase _ x phrase := x == phrase
  fits _ x pattern := x == .text pattern
  read _ value := value
  less _ x y :=
    match x, y with
    | .integer m, .integer n => decide (m < n)
    | _, _ => false
  atMost _ x y :=
    match x, y with
    | .integer m, .integer n => decide (m ≤ n)
    | _, _ => false

theorem matchesTerm_ofLiterals {d : Document Literal} {f : String} {value : Literal} :
    ofLiterals.matchesTerm d f value = true ↔ d f = some value := by
  cases h : d f <;> simp [matchesTerm, ofLiterals, h]

end Engine

namespace Query

/-- How many `should` clauses have to match. When that is not said it is one, unless clauses that
have to match stand beside them. -/
def required (must filter should : List Query) (minimumShould : Option Nat) : Nat :=
  minimumShould.getD
    (if !should.isEmpty && must.isEmpty && filter.isEmpty then 1 else 0)

mutual

/-- Whether a query matches a document. -/
def selects : Query → Bool
  | .matchAll => true
  | .term f value => E.matchesTerm d f value
  | .terms f values => values.any (E.matchesTerm d f)
  | .matchAny f words => E.matchesWord d f words
  | .matchPhrase f phrase => E.matchesPhrase d f phrase
  | .range f bounds => E.matchesRange d f bounds
  | .wildcard f pattern => E.matchesWildcard d f pattern
  | .present f => d.has f
  | .bool must filter should mustNot minimumShould =>
    (answers must).all id && (answers filter).all id && !(answers mustNot).any id &&
      decide (required must filter should minimumShould ≤ (answers should).count true)

/-- Which of several clauses match a document. -/
def answers : List Query → List Bool
  | [] => []
  | q :: rest => q.selects :: answers rest

end

@[simp] theorem selects_matchAll : matchAll.selects E d = true := rfl

@[simp] theorem selects_term (f : String) (value : Literal) :
    (term f value).selects E d = E.matchesTerm d f value := rfl

@[simp] theorem selects_terms (f : String) (values : List Literal) :
    (terms f values).selects E d = values.any (E.matchesTerm d f) := rfl

@[simp] theorem selects_matchAny (f : String) (words : Literal) :
    (matchAny f words).selects E d = E.matchesWord d f words := rfl

@[simp] theorem selects_matchPhrase (f : String) (phrase : Literal) :
    (matchPhrase f phrase).selects E d = E.matchesPhrase d f phrase := rfl

@[simp] theorem selects_range (f : String) (bounds : Bounds) :
    (range f bounds).selects E d = E.matchesRange d f bounds := rfl

@[simp] theorem selects_wildcard (f pattern : String) :
    (wildcard f pattern).selects E d = E.matchesWildcard d f pattern := rfl

@[simp] theorem selects_present (f : String) : (present f).selects E d = d.has f := rfl

theorem answers_eq_map (qs : List Query) : answers E d qs = qs.map (selects E d) := by
  induction qs with
  | nil => rfl
  | cons q qs ih => rw [answers, ih, List.map_cons]

/-- A `bool` matches through its sections. -/
theorem selects_bool (must filter should mustNot : List Query) (minimumShould : Option Nat) :
    (Query.bool must filter should mustNot minimumShould).selects E d =
      (must.all (selects E d) && filter.all (selects E d) && !mustNot.any (selects E d) &&
        decide (required must filter should minimumShould ≤ should.countP (selects E d))) := by
  simp only [selects, answers_eq_map, List.all_map, List.any_map, List.count_eq_countP,
    List.countP_map, Function.comp_def, id, beq_true]

@[simp] theorem selects_filtering (qs : List Query) :
    (filtering qs).selects E d = qs.all (selects E d) := by
  simp [filtering, selects_bool, required]

@[simp] theorem selects_excluding (q : Query) :
    (excluding q).selects E d = !q.selects E d := by
  simp [excluding, selects_bool, required]

@[simp] theorem selects_missing (f : String) :
    (missing f).selects E d = !d.has f := by
  simp [missing]

@[simp] theorem selects_anyOf (qs : List Query) :
    (anyOf qs).selects E d = qs.any (selects E d) := by
  rw [Bool.eq_iff_iff]
  simp [anyOf, selects_bool, required]

end Query

end SearchSql
