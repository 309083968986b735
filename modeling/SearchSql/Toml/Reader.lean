import SearchSql.Toml.Quoted
import SearchSql.Toml.Scalar

/-!
Reading TOML values and the lines of a TOML document.
-/

namespace SearchSql.Toml

/-- How deep lists and inline tables may nest, and how many parts a key may have. -/
def maxDepth : Nat := 79

/-- The text without the spaces in front. -/
def skipSpaces (cs : List Char) : List Char := cs.dropWhile isSpace

theorem length_skipSpaces (cs : List Char) : (skipSpaces cs).length ≤ cs.length :=
  Text.length_dropWhile_le _ cs

theorem length_lt_of_skipSpaces {c : Char} {cs rest : List Char} (h : skipSpaces cs = c :: rest) :
    rest.length < cs.length := Text.length_lt_of_eq_cons h (length_skipSpaces cs)

/-- A character of a key without quotes. -/
def isKeyChar (c : Char) : Bool := c.isAlphanum || c == '_' || c == '-'

/-- One part of a key. Quoted parts stand on one line. -/
def takeKeyPart (cs : List Char) : Option (List Char × List Char) :=
  match cs with
  | '"' :: rest => takeBasic rest
  | '\'' :: rest => takeLiteral rest
  | _ =>
    if cs.takeWhile isKeyChar = [] then none
    else some (cs.takeWhile isKeyChar, cs.dropWhile isKeyChar)

theorem length_takeKeyPart {cs part rest : List Char} (h : takeKeyPart cs = some (part, rest)) :
    rest.length < cs.length := by
  unfold takeKeyPart at h
  split at h
  · exact Nat.lt_succ_of_lt (length_takeBasic h)
  · exact Nat.lt_succ_of_lt (length_takeLiteral h)
  · split at h
    · cases h
    · next hne =>
      cases h
      exact Text.length_dropWhile_lt hne

/-- The parts of a key, with dots and spaces between them. -/
def takeKey (cs : List Char) :
    Option (List String × { rest : List Char // rest.length < cs.length }) :=
  match _hp : takeKeyPart (skipSpaces cs) with
  | none => none
  | some (part, afterPart) =>
    have hp := Nat.lt_of_lt_of_le (length_takeKeyPart _hp) (length_skipSpaces cs)
    match _hs : skipSpaces afterPart with
    | '.' :: afterDot =>
      have hd := Nat.lt_trans (length_lt_of_skipSpaces _hs) hp
      match takeKey afterDot with
      | none => none
      | some (parts, ⟨rest, hr⟩) => some (String.ofList part :: parts, ⟨rest, Nat.lt_trans hr hd⟩)
    | _ =>
      some ([String.ofList part],
        ⟨skipSpaces afterPart, Nat.lt_of_le_of_lt (length_skipSpaces afterPart) hp⟩)
termination_by cs.length

/-- The path of a key. -/
def path? (parts : List String) : Option Path :=
  match parts.getLast? with
  | some last => if parts.length ≤ maxDepth then some { parents := parts.dropLast, last } else none
  | none => none

/-- Takes the key of a pair, the equals sign and the spaces behind it. -/
def takeTarget (cs : List Char) : Option (Path × { rest : List Char // rest.length < cs.length }) :=
  match takeKey cs with
  | some (parts, ⟨'=' :: rest, h⟩) =>
    (path? parts).map (·, ⟨skipSpaces rest,
      Nat.lt_of_le_of_lt (length_skipSpaces rest) (Nat.lt_of_succ_lt h)⟩)
  | _ => none

/-- The text after the end of a line. The end of the text ends a line, too. -/
def lineEnd? : List Char → Option (List Char)
  | [] => some []
  | '\n' :: rest => some rest
  | '\r' :: '\n' :: rest => some rest
  | _ => none

theorem length_lineEnd? {cs rest : List Char} (h : lineEnd? cs = some rest) :
    rest.length ≤ cs.length := by
  unfold lineEnd? at h
  split at h
  · cases h
    exact Nat.le_refl _
  · cases h
    exact Nat.le_succ _
  · cases h
    exact Nat.le_add_right _ 2
  · cases h

/-- The text after what may follow on a line: spaces and a comment. -/
def restOfLine? (cs : List Char) : Option (List Char) :=
  match skipSpaces cs with
  | '#' :: rest => lineEnd? (rest.dropWhile isPrintable)
  | rest => lineEnd? rest

theorem length_restOfLine? {cs rest : List Char} (h : restOfLine? cs = some rest) :
    rest.length ≤ cs.length := by
  have hs := length_skipSpaces cs
  unfold restOfLine? at h
  split at h
  · next tail heq =>
    have := length_lineEnd? h
    have := Text.length_dropWhile_le isPrintable tail
    have := length_lt_of_skipSpaces heq
    omega
  · exact Nat.le_trans (length_lineEnd? h) hs

/-- The text without the spaces, line ends and comments in front. -/
def skipBlanks (cs : List Char) : List Char :=
  match _h : skipSpaces cs with
  | '\n' :: rest =>
    have := length_lt_of_skipSpaces _h
    skipBlanks rest
  | '\r' :: '\n' :: rest =>
    have := Text.length_lt_of_eq_cons_cons _h (length_skipSpaces cs)
    skipBlanks rest
  | '#' :: rest =>
    have := Nat.lt_of_le_of_lt (Text.length_dropWhile_le isPrintable rest)
      (length_lt_of_skipSpaces _h)
    skipBlanks (rest.dropWhile isPrintable)
  | _ => skipSpaces cs
termination_by cs.length

theorem length_skipBlanks (cs : List Char) : (skipBlanks cs).length ≤ cs.length := by
  fun_induction skipBlanks cs with
  | case1 cs rest h hlt ih => exact Nat.le_trans ih (Nat.le_of_lt hlt)
  | case2 cs rest h hlt ih => exact Nat.le_trans ih (Nat.le_of_lt hlt)
  | case3 cs rest h hlt ih => exact Nat.le_trans ih (Nat.le_of_lt hlt)
  | case4 cs => exact length_skipSpaces cs

theorem length_lt_of_skipBlanks {c : Char} {cs rest : List Char} (h : skipBlanks cs = c :: rest) :
    rest.length < cs.length := Text.length_lt_of_eq_cons h (length_skipBlanks cs)

/-- The value of an unquoted text that stands first. -/
def takeScalar (cs : List Char) : Option (Toml × { rest : List Char // rest.length < cs.length }) :=
  if h : (splitScalar cs).2.length < cs.length then
    (scalar? (splitScalar cs).1).map (·, ⟨(splitScalar cs).2, h⟩)
  else none

mutual

/-- Takes a value that stands first and nests at most `depth` deep. -/
def takeValue (depth : Nat) (cs : List Char) :
    Option (Toml × { rest : List Char // rest.length < cs.length }) :=
  match cs with
  | '[' :: inside =>
    if depth = 0 then none
    else match takeItems (depth - 1) inside with
      | some (items, ⟨rest, hr⟩) => some (.list items, ⟨rest, Nat.lt_succ_of_lt hr⟩)
      | none => none
  | '\x7b' :: inside =>
    if depth = 0 then none
    else match _h : skipSpaces inside with
      | '\x7d' :: rest =>
        some (.table .inline [], ⟨rest, Nat.lt_succ_of_lt (length_lt_of_skipSpaces _h)⟩)
      | _ => match takePairs (depth - 1) inside with
        | some (pairs, ⟨rest, hr⟩) => (ofPairs? pairs).map (·, ⟨rest, Nat.lt_succ_of_lt hr⟩)
        | none => none
  | cs =>
    match _h : takeQuoted cs with
    | some (s, rest) => some (.text (String.ofList s), ⟨rest, length_takeQuoted _h⟩)
    | none => takeScalar cs
termination_by 2 * cs.length

/-- Takes the items of a list up to its closing bracket, before which a comma may stand. -/
def takeItems (depth : Nat) (cs : List Char) :
    Option (List Toml × { rest : List Char // rest.length < cs.length }) :=
  match _hs : skipBlanks cs with
  | ']' :: rest => some ([], ⟨rest, length_lt_of_skipBlanks _hs⟩)
  | _ =>
    have hs := length_skipBlanks cs
    match takeValue depth (skipBlanks cs) with
    | none => none
    | some (item, ⟨afterItem, ha⟩) =>
      have hi := Nat.lt_of_lt_of_le ha hs
      match _hc : skipBlanks afterItem with
      | ']' :: rest => some ([item], ⟨rest, Nat.lt_trans (length_lt_of_skipBlanks _hc) hi⟩)
      | ',' :: afterComma =>
        have hc := Nat.lt_trans (length_lt_of_skipBlanks _hc) hi
        match takeItems depth afterComma with
        | some (items, ⟨rest, hr⟩) => some (item :: items, ⟨rest, Nat.lt_trans hr hc⟩)
        | none => none
      | _ => none
termination_by 2 * cs.length + 1

/-- Takes the pairs of an inline table up to its closing brace. -/
def takePairs (depth : Nat) (cs : List Char) :
    Option (List (Path × Toml) × { rest : List Char // rest.length < cs.length }) :=
  match takeTarget cs with
  | none => none
  | some (path, ⟨start, hs⟩) =>
    match takeValue depth start with
    | none => none
    | some (value, ⟨afterValue, ha⟩) =>
      have hv := Nat.lt_trans ha hs
      match _hc : skipSpaces afterValue with
      | '\x7d' :: rest =>
        some ([(path, value)], ⟨rest, Nat.lt_trans (length_lt_of_skipSpaces _hc) hv⟩)
      | ',' :: afterComma =>
        have hc := Nat.lt_trans (length_lt_of_skipSpaces _hc) hv
        match takePairs depth afterComma with
        | some (pairs, ⟨rest, hr⟩) => some ((path, value) :: pairs, ⟨rest, Nat.lt_trans hr hc⟩)
        | none => none
      | _ => none
termination_by 2 * cs.length

end

/-- A line of a document. -/
inductive Line
  | pair (path : Path) (value : Toml)
  | header (path : Path)
  | item (path : Path)

/-- Takes the rest of a line and its end after a line of content. -/
def finish {limit : Nat} (line : Line) (cs : List Char) (h : cs.length < limit) :
    Option (Line × { rest : List Char // rest.length < limit }) :=
  match _hr : restOfLine? cs with
  | some rest => some (line, ⟨rest, Nat.lt_of_le_of_lt (length_restOfLine? _hr) h⟩)
  | none => none

/-- Takes a line with a header or a pair. -/
def takeLine (cs : List Char) : Option (Line × { rest : List Char // rest.length < cs.length }) :=
  match cs with
  | '[' :: '[' :: inside =>
    match takeKey inside with
    | some (parts, ⟨']' :: ']' :: rest, h⟩) => do
      let path ← path? parts
      finish (.item path) rest
        (Nat.lt_succ_of_lt (Nat.lt_succ_of_lt (Nat.lt_of_succ_lt (Nat.lt_of_succ_lt h))))
    | _ => none
  | '[' :: inside =>
    match takeKey inside with
    | some (parts, ⟨']' :: rest, h⟩) => do
      let path ← path? parts
      finish (.header path) rest (Nat.lt_succ_of_lt (Nat.lt_of_succ_lt h))
    | _ => none
  | cs =>
    match takeTarget cs with
    | none => none
    | some (path, ⟨start, hs⟩) =>
      match takeValue maxDepth start with
      | none => none
      | some (value, ⟨rest, hr⟩) => finish (.pair path value) rest (Nat.lt_trans hr hs)

/-- The lines of a document that hold something. -/
def lines? (cs : List Char) : Option (List Line) :=
  match _h : skipBlanks cs with
  | [] => some []
  | c :: rest =>
    match takeLine (c :: rest) with
    | none => none
    | some (line, ⟨rest', _hr⟩) => (lines? rest').map (line :: ·)
termination_by cs.length
decreasing_by exact Nat.lt_of_lt_of_le _hr (_h ▸ length_skipBlanks cs)

/-- Where the next pair of a document goes, and the tables that were read so far. -/
structure Document where
  path : List String
  root : Entries

/-- Adds a line to a document. -/
def Document.add (d : Document) : Line → Option Document
  | .pair path value =>
    (alter false (addAt path value) d.path .header d.root).map fun root => { d with root }
  | .header path =>
    (alter false (addTable path.last) path.parents .header d.root).map fun root =>
      { path := path.parents ++ [path.last], root }
  | .item path =>
    (alter false (addItem path.last) path.parents .header d.root).map fun root =>
      { path := path.parents ++ [path.last], root }

/-- Reads a document. A byte order mark may stand first. -/
def parse? (s : String) : Option Entries := do
  let cs := match s.toList with
    | '\ufeff' :: cs => cs
    | cs => cs
  let d ← (← lines? cs).foldlM Document.add { path := [], root := [] }
  return d.root

end SearchSql.Toml
