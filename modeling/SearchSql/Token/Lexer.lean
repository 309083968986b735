import SearchSql.Token.Lexeme

/-!
The tokens of a text. Blanks separate tokens, and every token has its byte offset.
-/

namespace SearchSql

/-- How many bytes characters take in UTF-8. -/
def byteLength : List Char → Nat
  | [] => 0
  | c :: cs => c.utf8Size + byteLength cs

@[simp] theorem byteLength_append (xs ys : List Char) :
    byteLength (xs ++ ys) = byteLength xs + byteLength ys := by
  induction xs with
  | nil => simp [byteLength]
  | cons c xs ih => simp [byteLength, ih, Nat.add_assoc]

namespace Token

/-- The tokens of characters that start at a byte offset. -/
def ofCharsFrom (start : Nat) (cs : List Char) : Except Error (List Token) :=
  let position := start + byteLength (cs.takeWhile Text.isBlank)
  match _h : cs.dropWhile Text.isBlank with
  | [] => .ok []
  | c :: rest =>
    match Lexeme.read c rest with
    | .error fault => .error (.lex position fault)
    | .ok lexeme =>
      (ofCharsFrom (position + byteLength lexeme.span) lexeme.rest).map
        ({ kind := lexeme.kind, text := String.ofList lexeme.contents, position } :: ·)
termination_by cs.length
decreasing_by
  have hrest := lexeme.length_rest
  have hdrop := (List.dropWhile_sublist Text.isBlank (l := cs)).length_le
  rw [_h] at hdrop
  omega

/-- The tokens of a text. -/
def ofText (sql : String) : Except Error (List Token) := ofCharsFrom 0 sql.toList

end Token

end SearchSql
