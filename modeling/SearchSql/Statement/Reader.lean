import SearchSql.Decimal.Read
import SearchSql.Error
import SearchSql.Token.Basic

/-!
Readers, which take what they read off the front of a list of tokens.
-/

namespace SearchSql

/-- Where reading cannot go on: the tokens from the refused one on, and what was expected there. -/
structure Refusal where
  tokens : List Token
  expected : String

/-- What was read off the front of a list of tokens, and the tokens that are left. -/
structure Reading (α : Type) (tokens : List Token) where
  value : α
  rest : List Token
  suffix : rest <:+ tokens

theorem Reading.length_rest {α : Type} {tokens : List Token} (r : Reading α tokens) :
    r.rest.length ≤ tokens.length := r.suffix.length_le

abbrev Reader (α : Type) := (tokens : List Token) → Except Refusal (Reading α tokens)

namespace Reader

variable {α β : Type}

protected def pure (a : α) : Reader α := fun tokens => .ok ⟨a, tokens, List.suffix_refl tokens⟩

/-- Reads one thing after the other. -/
protected def bind (r : Reader α) (f : α → Reader β) : Reader β := fun tokens =>
  match r tokens with
  | .error refusal => .error refusal
  | .ok first => match f first.value first.rest with
    | .error refusal => .error refusal
    | .ok second => .ok ⟨second.value, second.rest, second.suffix.trans first.suffix⟩

instance : Monad Reader where
  pure := Reader.pure
  bind := Reader.bind

/-- Refuses the next token. -/
def refuse (expected : String) : Reader α := fun tokens => .error ⟨tokens, expected⟩

/-- Refuses a token that was read before. -/
def refuseAt (tokens : List Token) (expected : String) : Reader α := fun _ =>
  .error ⟨tokens, expected⟩

/-- The kind of the next token. -/
def peek : Reader (Option TokenKind) := fun tokens =>
  .ok ⟨tokens.head?.map Token.kind, tokens, List.suffix_refl tokens⟩

/-- Takes the next token if it has the given kind, and tells whether it had. -/
def accept (kind : TokenKind) : Reader Bool
  | [] => .ok ⟨false, [], List.suffix_refl []⟩
  | t :: rest =>
    if t.kind = kind then .ok ⟨true, rest, List.suffix_cons t rest⟩
    else .ok ⟨false, t :: rest, List.suffix_refl (t :: rest)⟩

/-- Nothing, where no token is left. -/
def endOfInput : Reader Unit
  | [] => .ok ⟨(), [], List.suffix_refl []⟩
  | tokens => .error ⟨tokens, "end of input"⟩

/-- Takes the next token, which has to be of a kind that `f` gives a value for. -/
def takeMap (expected : String) (f : Token → Except String α) : Reader α
  | [] => .error ⟨[], expected⟩
  | t :: rest => match f t with
    | .ok a => .ok ⟨a, rest, List.suffix_cons t rest⟩
    | .error expected => .error ⟨t :: rest, expected⟩

/-- Takes a token of the given kind and gives its contents. -/
def textOf (kind : TokenKind) (expected : String) : Reader String :=
  takeMap expected fun t => if t.kind = kind then .ok t.text else .error expected

/-- Takes a token of the given kind. -/
def expect (kind : TokenKind) : Reader String := textOf kind kind.name

/-- Takes a name. -/
def identifier (expected : String) : Reader String := textOf .identifier expected

/-- Reads one or more things with commas between them. -/
def separated (item : Reader α) (tokens : List Token) : Except Refusal (Reading (List α) tokens) :=
  match item tokens with
  | .error refusal => .error refusal
  | .ok first =>
    match _hr : first.rest with
    | [] => .ok ⟨[first.value], [], List.nil_suffix⟩
    | next :: rest =>
      have hs : next :: rest <:+ tokens := _hr ▸ first.suffix
      if next.kind = .comma then
        match separated item rest with
        | .error refusal => .error refusal
        | .ok others => .ok ⟨first.value :: others.value, others.rest,
            others.suffix.trans ((List.suffix_cons next rest).trans hs)⟩
      else .ok ⟨[first.value], next :: rest, hs⟩
termination_by tokens.length
decreasing_by
  have := hs.length_le
  simp only [List.length_cons] at this
  omega

end Reader

/-- The error of a refusal. The end of the text stands for the token that is missing there. -/
def Refusal.error (r : Refusal) (textEnd : Nat) : Error :=
  match r.tokens with
  | [] => .syntaxError textEnd r.expected "end of input"
  | t :: _ => .syntaxError t.position r.expected t.describe

end SearchSql
