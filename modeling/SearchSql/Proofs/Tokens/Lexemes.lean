import SearchSql.Proofs.Tokens.Classes

/-!
The spellings of tokens. The lexer reads a token in front of a text exactly when the text starts
with a spelling of it.
-/

namespace SearchSql.Lexeme

/-- How a token of a kind with its contents is spelled, in front of the rest of a text. -/
inductive Spelled : TokenKind → List Char → List Char → List Char → Prop
  | number {span rest} : Longest IsNumber span rest → Spelled .number span span rest
  | operator {op span rest} : IsOperator op span →
      Longest (fun cs => ∃ op, IsOperator op cs) span rest → Spelled (.operator op) span span rest
  | keyword {k span rest} : Longest IsWord span rest →
      Keyword.ofWord? (String.ofList span) = some k → Spelled (.keyword k) span span rest
  | word {span rest} : Longest IsWord span rest →
      Keyword.ofWord? (String.ofList span) = none → Spelled .identifier span span rest
  | punctuation {c kind rest} : punctuation? c = some kind → Spelled kind [c] [c] rest
  | quotedName {name rest} : name ≠ [] → '\x60' ∉ name →
      Spelled .identifier name ('\x60' :: name ++ ['\x60']) rest
  | text {body contents rest} : Escapes body contents →
      Spelled .text contents ('\'' :: body ++ ['\'']) rest

variable {c : Char} {cs rest span contents : List Char} {kind : TokenKind}

theorem spelled_of_quotedName {l : Lexeme ('\x60' :: cs)} (h : quotedName cs = .ok l) :
    Spelled l.kind l.contents l.span l.rest := by
  unfold quotedName at h
  split at h
  · cases h
  · next d rest hdrop =>
    dsimp only at h
    split at h
    · cases h
    · next hne =>
      cases h
      have hgrave : d = '\x60' := by
        have hd := List.head?_dropWhile_not (· != '\x60') cs
        simpa [hdrop] using hd
      subst hgrave
      refine .quotedName hne fun hmem => ?_
      simpa using List.mem_takeWhile_imp hmem

theorem spelled_wordKind (h : Longest IsWord span rest) :
    Spelled (wordKind span) span span rest := by
  unfold wordKind
  split
  · next hk => exact .keyword h hk
  · next hk => exact .word h hk

theorem spelled_of_bare {l : Lexeme (c :: cs)} (h : bare c cs = .ok l) :
    Spelled l.kind l.contents l.span l.rest := by
  unfold bare at h
  split at h
  · next hnumber =>
    cases h
    exact .number (longest_numberSpan hnumber (numberSpan_append _))
  · split at h
    · next hoperator =>
      cases h
      exact .operator (isOperator_of_operator? hoperator)
        (longest_operator hoperator (operator?_append hoperator).1)
    · split at h
      · next hpunctuation =>
        cases h
        exact .punctuation hpunctuation
      · split at h
        · next hstart =>
          cases h
          exact spelled_wordKind (longest_word hstart (append_drop_takeWhile _ _))
        · cases h

/-- What the lexer reads is spelled so. -/
theorem spelled_of_read {l : Lexeme (c :: cs)} (h : read c cs = .ok l) :
    Spelled l.kind l.contents l.span l.rest := by
  by_cases hquote : c = '\''
  · subst hquote
    simp only [read] at h
    split at h
    · next hquoted =>
      cases h
      obtain ⟨body, rfl, hescapes⟩ := escapes_of_quoted? hquoted
      exact .text hescapes
    · cases h
  · by_cases hgrave : c = '\x60'
    · subst hgrave
      exact spelled_of_quotedName h
    · rw [read_eq_bare hquote hgrave] at h
      exact spelled_of_bare h

/-- A spelling starts with no blank, and the lexer takes it whole. -/
def Taken (kind : TokenKind) (contents span rest : List Char) : Prop :=
  ∃ c w, span = c :: w ∧ Text.isBlank c = false ∧ Takes c w rest kind contents

theorem taken_of_isWord (h : Longest IsWord span rest) :
    Taken (wordKind span) span span rest := by
  have hends := endsWord_of_longest h
  obtain ⟨hword, _⟩ := h
  obtain ⟨hstart, hw⟩ := hword
  exact ⟨_, _, rfl, isBlank_of_startsWord hstart, takes_word hstart hw hends⟩

theorem taken_of_isNumber (h : Longest IsNumber span rest) : Taken .number span span rest := by
  have hspan := numberSpan_of_longest h
  obtain ⟨d, w, rfl, hd⟩ := h.1.eq_cons
  refine ⟨d, w, rfl, ?_, takes_of_numberSpan hspan⟩
  rcases hd with hd | rfl
  · exact isBlank_of_isDigit hd
  · decide

theorem taken_of_isOperator {op : Comparison} (hop : IsOperator op span)
    (h : Longest (fun other => ∃ op, IsOperator op other) span rest) :
    Taken (.operator op) span span rest := by
  have hoperator := operator?_of_longest hop h
  cases hop with
  | unequal => exact ⟨_, _, rfl, by decide, takes_of_operator? hoperator⟩
  | symbol => cases op <;> exact ⟨_, _, rfl, by decide, takes_of_operator? hoperator⟩

theorem exists_quotedName (hne : cs.takeWhile (· != '\x60') ≠ [])
    (hdrop : cs.dropWhile (· != '\x60') = '\x60' :: rest) : ∃ l, quotedName cs = .ok l ∧
      l.kind = .identifier ∧ l.contents = cs.takeWhile (· != '\x60') ∧ l.rest = rest := by
  unfold quotedName
  split
  · next hnil => simp [hnil] at hdrop
  · next heq =>
    rw [heq] at hdrop
    cases hdrop
    dsimp only
    rw [if_neg hne]
    exact ⟨_, rfl, rfl, rfl, rfl⟩

theorem taken_of_name {name : List Char} (hne : name ≠ []) (hname : '\x60' ∉ name) :
    Taken .identifier name ('\x60' :: name ++ ['\x60']) rest := by
  have hsplit : (name ++ ['\x60'] ++ rest).takeWhile (· != '\x60') = name ∧
      (name ++ ['\x60'] ++ rest).dropWhile (· != '\x60') = '\x60' :: rest := by
    rw [List.append_assoc]
    refine takeWhile_append_of_head (fun d hd => ?_) (by simp)
    rw [bne_iff_ne]
    rintro rfl
    exact hname hd
  obtain ⟨l, hl, hkind, hcontents, hrest⟩ := exists_quotedName (by rwa [hsplit.1]) hsplit.2
  rw [hsplit.1] at hcontents
  exact ⟨_, _, rfl, by decide, l, hl, hkind, hcontents, hrest⟩

/-- The lexer takes every spelling. -/
theorem Spelled.taken (h : Spelled kind contents span rest) : Taken kind contents span rest := by
  cases h with
  | number h => exact taken_of_isNumber h
  | operator hop h => exact taken_of_isOperator hop h
  | keyword h hk =>
    have htaken := taken_of_isWord h
    rw [wordKind, hk] at htaken
    exact htaken
  | word h hk =>
    have htaken := taken_of_isWord h
    rw [wordKind, hk] at htaken
    exact htaken
  | punctuation h =>
    exact ⟨_, _, rfl, isBlank_of_punctuation? h, takes_punctuation _ h⟩
  | quotedName hne hname => exact taken_of_name hne hname
  | text h => exact ⟨_, _, rfl, by decide, takes_escapes _ h⟩

/-- A spelling stays one when a blank follows the text. -/
theorem Spelled.append {more : List Char} (h : Spelled kind contents span rest)
    (hmore : ∀ d ∈ more.head?, Text.isBlank d = true) :
    Spelled kind contents span (rest ++ more) := by
  cases h with
  | number h => exact .number (h.append (fun _ => IsNumber.isBlank_eq_false) hmore)
  | operator hop h =>
    refine .operator hop (h.append ?_ hmore)
    rintro cs ⟨op, hcs⟩
    exact hcs.isBlank_eq_false
  | keyword h hk => exact .keyword (h.append (fun _ => IsWord.isBlank_eq_false) hmore) hk
  | word h hk => exact .word (h.append (fun _ => IsWord.isBlank_eq_false) hmore) hk
  | punctuation h => exact .punctuation h
  | quotedName hne hname => exact .quotedName hne hname
  | text h => exact .text h

end SearchSql.Lexeme
