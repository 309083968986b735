import SearchSql.Proofs.Parsing.Grammar
import SearchSql.Proofs.Printing.Lexing

/-!
Texts that stand for tokens. A text is put together from words, numbers and punctuation, and its
tokens are theirs, as long as no two words run into each other.
-/

namespace SearchSql

namespace Token

theorem ofCharsFrom_eq (start : Nat) (cs : List Char) : ofCharsFrom start cs =
    match cs.dropWhile Text.isBlank with
    | [] => .ok []
    | c :: rest =>
      match Lexeme.read c rest with
      | .error fault => .error (.lex (start + byteLength (cs.takeWhile Text.isBlank)) fault)
      | .ok lexeme =>
        (ofCharsFrom (start + byteLength (cs.takeWhile Text.isBlank) + byteLength lexeme.span)
          lexeme.rest).map
          ({ kind := lexeme.kind, text := String.ofList lexeme.contents,
             position := start + byteLength (cs.takeWhile Text.isBlank) } :: ·) := by
  rw [ofCharsFrom]
  split
  · next h => simp [h]
  · next c rest h => cases hread : Lexeme.read c rest <;> simp only [h, hread]

theorem ofCharsFrom_blanks {gap : List Char} (start : Nat) (cs : List Char)
    (h : ∀ c ∈ gap, Text.isBlank c = true) :
    ofCharsFrom start (gap ++ cs) = ofCharsFrom (start + byteLength gap) cs := by
  rw [ofCharsFrom_eq, ofCharsFrom_eq, List.dropWhile_append_of_pos h,
    List.takeWhile_append_of_pos h, byteLength_append, Nat.add_assoc]

theorem ofCharsFrom_space (start : Nat) (cs : List Char) :
    ofCharsFrom start (' ' :: cs) = ofCharsFrom (start + 1) cs :=
  ofCharsFrom_blanks start cs (List.forall_mem_singleton.2 (by decide))

/-- A lexeme in front gives the first token. -/
theorem ofCharsFrom_takes {c : Char} {w rest contents : List Char} {kind : TokenKind} (start : Nat)
    (hblank : Text.isBlank c = false) (h : Lexeme.Takes c w rest kind contents) :
    ofCharsFrom start (c :: (w ++ rest)) =
      (ofCharsFrom (start + byteLength (c :: w)) rest).map
        ({ kind, text := String.ofList contents, position := start } :: ·) := by
  obtain ⟨l, hread, rfl, rfl, hrest⟩ := h
  have hdrop : (c :: (w ++ rest)).dropWhile Text.isBlank = c :: (w ++ rest) := by simp [hblank]
  have htake : (c :: (w ++ rest)).takeWhile Text.isBlank = [] := by simp [hblank]
  have hspan : l.span = c :: w := by
    have happend := l.span_append
    rw [hrest] at happend
    exact List.append_cancel_right (happend : l.span ++ rest = c :: w ++ rest)
  rw [ofCharsFrom_eq, hdrop, htake]
  simp only [hread, hrest, hspan]
  rfl

/-- The first token is the lexeme behind the blanks. -/
theorem exists_lexeme_of_ofCharsFrom {start : Nat} {cs : List Char} {t : Token} {ts : List Token}
    (h : ofCharsFrom start cs = .ok (t :: ts)) : ∃ c rest, cs.dropWhile Text.isBlank = c :: rest ∧
      ∃ l, Lexeme.read c rest = .ok l ∧ t.kind = l.kind ∧ t.text = String.ofList l.contents ∧
        t.position = start + byteLength (cs.takeWhile Text.isBlank) := by
  rw [ofCharsFrom_eq] at h
  split at h
  · cases h
  · next c rest hdrop =>
    split at h
    · cases h
    · next l hread =>
      refine ⟨c, rest, hdrop, l, hread, ?_⟩
      generalize ofCharsFrom _ l.rest = tail at h
      cases tail with
      | error e => cases h
      | ok ts' =>
        cases h
        exact ⟨rfl, rfl, rfl⟩

end Token

/-- The text stands for tokens of which `P` holds, wherever it is and whatever follows, unless that
goes on with its last word. -/
def Spells (text : String) (P : List Token → Prop) : Prop :=
  ∀ start rest, EndsWord rest → ∃ ts next, P ts ∧
    Token.ofCharsFrom start (text.toList ++ rest) = (Token.ofCharsFrom next rest).map (ts ++ ·)

/-- The text stands for one token, of which `Q` holds. -/
def SpellsToken (text : String) (Q : Token → Prop) : Prop :=
  Spells text fun ts => ∃ t, ts = [t] ∧ Q t

theorem SpellsToken.imp {text : String} {Q R : Token → Prop} (h : SpellsToken text Q)
    (hQR : ∀ t, Q t → R t) : SpellsToken text R := by
  intro start rest hrest
  obtain ⟨_, next, ⟨t, rfl, ht⟩, heq⟩ := h start rest hrest
  exact ⟨[t], next, ⟨t, rfl, hQR t ht⟩, heq⟩

namespace Spells

variable {a b : String} {P R : List Token → Prop} {Q : Token → Prop}

theorem mono (h : Spells a P) (hPR : ∀ ts, P ts → R ts) : Spells a R := by
  intro start rest hrest
  obtain ⟨ts, next, hts, heq⟩ := h start rest hrest
  exact ⟨ts, next, hPR ts hts, heq⟩

theorem empty (h : P []) : Spells "" P := by
  intro start rest _
  refine ⟨[], start, h, ?_⟩
  cases hrest : Token.ofCharsFrom start rest <;> simp [hrest, Except.map]

theorem append (ha : Spells a R) (hb : EndsWord b.toList)
    (h : ∀ us, R us → Spells b fun vs => P (us ++ vs)) : Spells (a ++ b) P := by
  intro start rest hrest
  obtain ⟨us, mid, hus, hstart⟩ := ha start (b.toList ++ rest) (hb.append hrest)
  obtain ⟨vs, next, hvs, hmid⟩ := h us hus mid rest hrest
  refine ⟨us ++ vs, next, hvs, ?_⟩
  rw [String.toList_append, List.append_assoc, hstart, hmid]
  cases Token.ofCharsFrom next rest <;> simp [Except.map]

theorem space (h : Spells b P) : Spells (" " ++ b) P := by
  intro start rest hrest
  obtain ⟨ts, next, hts, heq⟩ := h (start + 1) rest hrest
  refine ⟨ts, next, hts, ?_⟩
  rw [← heq, ← Token.ofCharsFrom_space, String.toList_append]
  rfl

theorem token (ha : SpellsToken a Q) (hb : EndsWord b.toList)
    (h : ∀ t, Q t → Spells b fun vs => P (t :: vs)) : Spells (a ++ b) P := by
  refine append ha hb ?_
  rintro _ ⟨t, rfl, ht⟩
  exact h t ht

/-- A token with a space behind it. -/
theorem spaced (ha : SpellsToken a Q) (h : ∀ t, Q t → Spells b fun vs => P (t :: vs)) :
    Spells (a ++ (" " ++ b)) P :=
  token ha (by simp [Lexeme.continuesWord]) fun t ht => (h t ht).space

theorem last (ha : SpellsToken a Q) (h : ∀ t, Q t → P [t]) : Spells a P := by
  refine ha.mono ?_
  rintro _ ⟨t, rfl, ht⟩
  exact h t ht

/-- Punctuation, which no word can run into. -/
theorem punctuation {c : Char} {kind : TokenKind} (hc : Lexeme.punctuation? c = some kind)
    (ha : a.toList = [c]) (h : ∀ t, t.kind = kind → Spells b fun vs => P (t :: vs)) :
    Spells (a ++ b) P := by
  intro start rest hrest
  have hstart := Token.ofCharsFrom_takes start (Lexeme.isBlank_of_punctuation? hc)
    (Lexeme.takes_punctuation (b.toList ++ rest) hc)
  obtain ⟨vs, next, hvs, hmid⟩ := h ⟨kind, String.ofList [c], start⟩ rfl _ rest hrest
  refine ⟨_, next, hvs, ?_⟩
  rw [String.toList_append, ha, List.append_assoc]
  refine hstart.trans ?_
  rw [hmid]
  cases Token.ofCharsFrom next rest <;> simp [Except.map]

theorem closing {c : Char} {kind : TokenKind} (hc : Lexeme.punctuation? c = some kind)
    (ha : a.toList = [c]) (h : ∀ t, t.kind = kind → P [t]) : Spells a P := by
  rw [← String.append_empty (s := a)]
  exact punctuation hc ha fun t ht => empty (h t ht)

/-- The symbol of a comparison, which a space has to follow. -/
theorem operator {op : Comparison}
    (h : ∀ t, t.kind = .operator op → Spells b fun vs => P (t :: vs)) :
    Spells (op.symbol ++ (" " ++ b)) P := by
  intro start rest hrest
  obtain ⟨c, w, hsymbol, hblank, htakes⟩ := Lexeme.takes_operator op (b.toList ++ rest)
  have hstart := Token.ofCharsFrom_takes start hblank htakes
  obtain ⟨vs, next, hvs, hmid⟩ :=
    (h ⟨.operator op, String.ofList (c :: w), start⟩ rfl).space _ rest hrest
  have hspace : (" " ++ b).toList ++ rest = ' ' :: (b.toList ++ rest) := by simp
  refine ⟨_, next, hvs, ?_⟩
  rw [hspace] at hmid
  rw [String.toList_append, hsymbol, List.append_assoc, hspace]
  refine hstart.trans ?_
  rw [hmid]
  cases Token.ofCharsFrom next rest <;> simp [Except.map]

/-- A whole text stands for the tokens that the lexer gives. -/
theorem ofText_eq (h : Spells a P) : ∃ ts, Token.ofText a = .ok ts ∧ P ts := by
  obtain ⟨ts, next, hts, heq⟩ := h 0 [] endsWord_nil
  refine ⟨ts, ?_, hts⟩
  rw [List.append_nil] at heq
  rw [Token.ofText, heq, Token.ofCharsFrom_eq]
  simp [Except.map]

end Spells

/-- The text between two phrases stands for a token of a kind. -/
structure Separates (sep : String) (kind : TokenKind) : Prop where
  ends : ∀ b : String, EndsWord (sep ++ b).toList
  spells : ∀ {b P}, (∀ t, t.kind = kind → Spells b fun vs => P (t :: vs)) → Spells (sep ++ b) P

/-- Texts of phrases with separators between them stand for the phrases, one after the other. -/
theorem Separates.intercalate {α : Type} {kind : TokenKind} {P : List Token → α → Prop}
    {sep : String} {text : α → String} {as : List α} (hsep : Separates sep kind) (hne : as ≠ [])
    (h : ∀ a ∈ as, Spells (text a) (P · a)) :
    Spells (sep.intercalate (as.map text)) (Grammar.Separated kind P · as) := by
  induction as with
  | nil => exact (hne rfl).elim
  | cons a as ih =>
    obtain ⟨ha, has⟩ := List.forall_mem_cons.1 h
    cases as with
    | nil =>
      rw [List.map_singleton, String.intercalate_singleton]
      exact ha.mono fun ts hts => .one hts
    | cons a' as =>
      rw [List.map_cons, List.map_cons, String.intercalate_cons_cons, String.append_assoc]
      refine ha.append (hsep.ends _) fun us hus => ?_
      refine hsep.spells fun t ht => ?_
      exact (ih (List.cons_ne_nil _ _) has).mono fun vs hvs => .more hus ht hvs

/-- A derivation of phrases is derived again from their texts, if that holds of each phrase. -/
theorem Separates.rederive {α : Type} {kind kind' : TokenKind} {P : List Token → α → Prop}
    {sep : String} {text : α → String} {ts : List Token} {as : List α} (hsep : Separates sep kind)
    (has : Grammar.Separated kind' P ts as)
    (h : ∀ a ∈ as, ∀ ts, P ts a → Spells (text a) (P · a)) :
    Spells (sep.intercalate (as.map text)) (Grammar.Separated kind P · as) := by
  refine hsep.intercalate has.ne_nil fun a ha => ?_
  obtain ⟨ts, hts⟩ := has.exists_of_mem a ha
  exact h a ha ts hts

end SearchSql
