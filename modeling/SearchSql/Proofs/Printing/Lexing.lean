import SearchSql.Token.Lexer

/-!
Which lexeme stands first in a text, by what its characters are.
-/

namespace SearchSql

/-- Whether no code point is in both classes. -/
def Text.Ranges.disjoint (as bs : Text.Ranges) : Bool :=
  as.all fun a => bs.all fun b => decide (a.2 < b.1) || decide (b.2 < a.1)

theorem Text.Ranges.not_holds_of_disjoint {as bs : Text.Ranges} {c : Char}
    (h : as.disjoint bs = true) (hc : as.holds c = true) : bs.holds c = false := by
  rw [← Bool.not_eq_true]
  intro hc'
  obtain ⟨a, ha, hlow, hhigh⟩ := holds_iff.1 hc
  obtain ⟨b, hb, hlow', hhigh'⟩ := holds_iff.1 hc'
  have hpair := List.all_eq_true.1 (List.all_eq_true.1 h a ha) b hb
  simp only [Bool.or_eq_true, decide_eq_true_eq] at hpair
  omega

theorem Text.disjoint_alphabetic_whiteSpace : alphabetic.disjoint whiteSpace = true := by
  decide +kernel

theorem Text.disjoint_numeric_whiteSpace : numeric.disjoint whiteSpace = true := by
  decide +kernel

/-- The characters do not go on with a word or a number that stands in front of them. -/
def EndsWord (cs : List Char) : Prop := ∀ c ∈ cs.head?, Lexeme.continuesWord c = false

@[simp] theorem endsWord_nil : EndsWord [] := by
  simp [EndsWord]

@[simp] theorem endsWord_cons {c : Char} {cs : List Char} :
    EndsWord (c :: cs) ↔ Lexeme.continuesWord c = false := by
  simp [EndsWord]

theorem EndsWord.append {cs rest : List Char} (hcs : EndsWord cs) (hrest : EndsWord rest) :
    EndsWord (cs ++ rest) := by
  cases cs with
  | nil => exact hrest
  | cons c cs => exact endsWord_cons.2 (endsWord_cons.1 hcs)

namespace Lexeme

variable {c : Char} {cs w rest : List Char}

theorem continuesWord_of_isDigit (h : c.isDigit = true) : continuesWord c = true := by
  have hascii : 48 ≤ c.toNat ∧ c.toNat ≤ 57 := Char.isDigit_iff_toNat.1 h
  have hlow : c.toNat < 128 := by omega
  simp [continuesWord, hlow, Char.isAlphanum, h]

theorem isBlank_of_ascii (hlow : 33 ≤ c.toNat) (hhigh : c.toNat < 128) :
    Text.isBlank c = false := by
  simp only [Text.isBlank, Text.whiteSpace, Text.Ranges.holds, List.any_cons, List.any_nil,
    Bool.or_false, Bool.or_eq_false_iff, Bool.and_eq_false_iff, decide_eq_false_iff_not]
  omega

theorem isBlank_of_isDigit (h : c.isDigit = true) : Text.isBlank c = false := by
  have hascii : 48 ≤ c.toNat ∧ c.toNat ≤ 57 := Char.isDigit_iff_toNat.1 h
  exact isBlank_of_ascii (by omega) (by omega)

/-- Words start behind the digits and the signs. -/
theorem toNat_of_startsWord (h : startsWord c = true) : 65 ≤ c.toNat := by
  by_cases hlow : c.toNat < 128
  · simp only [startsWord, hlow, ↓reduceIte, Bool.or_eq_true, beq_iff_eq] at h
    rcases h with hletter | rfl
    · rcases (Bool.or_eq_true _ _).mp hletter with hupper | hlower
      · exact (of_decide_eq_true hupper).1
      · have hletter : 97 ≤ c.toNat := of_decide_eq_true ((Bool.and_eq_true _ _).mp hlower).1
        omega
    · decide
  · omega

theorem isBlank_of_startsWord (h : startsWord c = true) : Text.isBlank c = false := by
  by_cases hlow : c.toNat < 128
  · have hletter := toNat_of_startsWord h
    exact isBlank_of_ascii (by omega) hlow
  · rw [startsWord, if_neg hlow] at h
    exact Text.Ranges.not_holds_of_disjoint Text.disjoint_alphabetic_whiteSpace h

/-- No blank goes on with a word. -/
theorem isBlank_of_continuesWord (h : continuesWord c = true) : Text.isBlank c = false := by
  unfold continuesWord at h
  split at h
  · next hlow =>
    simp only [Char.isAlphanum, Bool.or_eq_true, beq_iff_eq] at h
    rcases h with (((hletter | hdigit) | rfl) | rfl) | rfl
    · exact isBlank_of_startsWord (by simp [startsWord, hlow, hletter])
    · exact isBlank_of_isDigit hdigit
    all_goals decide
  · rcases (Bool.or_eq_true _ _).mp h with hletter | hnumber
    · exact Text.Ranges.not_holds_of_disjoint Text.disjoint_alphabetic_whiteSpace hletter
    · exact Text.Ranges.not_holds_of_disjoint Text.disjoint_numeric_whiteSpace hnumber

theorem isDigit_of_startsWord (h : startsWord c = true) : c.isDigit = false := by
  have hletter := toNat_of_startsWord h
  rw [← Bool.not_eq_true]
  intro hdigit
  have hascii : 48 ≤ c.toNat ∧ c.toNat ≤ 57 := Char.isDigit_iff_toNat.1 hdigit
  omega

theorem operator?_of_startsWord (h : startsWord c = true) : operator? (c :: cs) = none := by
  unfold operator?
  split
  case h_8 => rfl
  all_goals
    next heq =>
      cases heq
      exact absurd h (by decide)

theorem punctuation?_of_startsWord (h : startsWord c = true) : punctuation? c = none := by
  unfold punctuation?
  split
  case h_7 => rfl
  all_goals exact absurd h (by decide)

theorem numberSpan_of_startsWord (h : startsWord c = true) : numberSpan (c :: cs) = [] := by
  have hdigit := isDigit_of_startsWord h
  unfold numberSpan
  split
  · next heq =>
    cases heq
    exact absurd h (by decide)
  · simp [hdigit]

/-- The characters of a class end where one that is not of the class follows. -/
theorem takeWhile_append_of_head {p : Char → Bool} (hw : ∀ d ∈ w, p d = true)
    (hrest : ∀ d ∈ rest.head?, p d = false) :
    (w ++ rest).takeWhile p = w ∧ (w ++ rest).dropWhile p = rest := by
  rw [List.takeWhile_append_of_pos hw, List.dropWhile_append_of_pos hw]
  cases rest with
  | nil => simp
  | cons d rest => simp [hrest d rfl]

/-- A class of characters that all go on with a word ends where the word ends. -/
theorem takeWhile_append {p : Char → Bool} (hp : ∀ d, p d = true → continuesWord d = true)
    (hw : ∀ d ∈ w, p d = true) (hrest : EndsWord rest) :
    (w ++ rest).takeWhile p = w ∧ (w ++ rest).dropWhile p = rest := by
  refine takeWhile_append_of_head hw fun d hd => ?_
  rw [← Bool.not_eq_true]
  intro hpd
  have hcontinues := hp d hpd
  simp [hrest d hd] at hcontinues

theorem read_eq_bare (hquote : c ≠ '\'') (hgrave : c ≠ '\x60') : read c cs = bare c cs := by
  unfold read
  split
  · exact (hquote rfl).elim
  · exact (hgrave rfl).elim
  · rfl

/-- The lexeme that spans `c :: w` in front of `rest`, with its kind and its contents. -/
def Takes (c : Char) (w rest : List Char) (kind : TokenKind) (contents : List Char) : Prop :=
  ∃ l : Lexeme (c :: (w ++ rest)), read c (w ++ rest) = .ok l ∧ l.kind = kind ∧
    l.contents = contents ∧ l.rest = rest

theorem takes_word (hstart : startsWord c = true) (hw : ∀ d ∈ w, continuesWord d = true)
    (hrest : EndsWord rest) : Takes c w rest (wordKind (c :: w)) (c :: w) := by
  have hquote : c ≠ '\'' := by
    rintro rfl
    exact absurd hstart (by decide)
  have hgrave : c ≠ '\x60' := by
    rintro rfl
    exact absurd hstart (by decide)
  obtain ⟨htake, _⟩ := takeWhile_append (fun _ h => h) hw hrest
  refine ⟨plain (wordKind (c :: w)) (c :: w) (by simp) (by simp), ?_, rfl, rfl, by simp [plain]⟩
  rw [read_eq_bare hquote hgrave, bare, dif_neg (by simp [numberSpan_of_startsWord hstart])]
  split
  · next heq => simp [operator?_of_startsWord hstart] at heq
  · simp [punctuation?_of_startsWord hstart, hstart, htake]

theorem isBlank_of_punctuation? {kind : TokenKind} (h : punctuation? c = some kind) :
    Text.isBlank c = false := by
  unfold punctuation? at h
  split at h <;> first | decide | cases h

theorem takes_punctuation {kind : TokenKind} (rest : List Char) (h : punctuation? c = some kind) :
    Takes c [] rest kind [c] := by
  refine ⟨plain kind [c] (by simp) (by simp), ?_, rfl, rfl, by simp [plain]⟩
  have hnumber : numberSpan (c :: rest) = [] := by
    unfold punctuation? at h
    split at h <;> simp_all [numberSpan]
  have hoperator : operator? (c :: rest) = none := by
    unfold punctuation? at h
    split at h <;> simp_all [operator?]
  have hbare : read c ([] ++ rest) = bare c rest := by
    refine read_eq_bare ?_ ?_ <;>
    · rintro rfl
      cases h
  rw [hbare, bare, dif_neg (by simp [hnumber])]
  split
  · next heq => simp [hoperator] at heq
  · simp [h]

theorem takes_of_operator? {op : Comparison}
    (h : operator? (c :: (w ++ rest)) = some (op, c :: w)) :
    Takes c w rest (.operator op) (c :: w) := by
  have hfirst : c = '>' ∨ c = '<' ∨ c = '!' ∨ c = '=' := by
    unfold operator? at h
    split at h <;> simp_all
  have hnumber : numberSpan (c :: (w ++ rest)) = [] := by
    rcases hfirst with rfl | rfl | rfl | rfl <;> simp [numberSpan]
  have hbare : read c (w ++ rest) = bare c (w ++ rest) := by
    apply read_eq_bare <;> rcases hfirst with rfl | rfl | rfl | rfl <;> simp
  refine ⟨plain (.operator op) (c :: w) (by simp) (by simp), ?_, rfl, rfl, by simp [plain]⟩
  rw [hbare, bare, dif_neg (by simp [hnumber])]
  split
  · next heq =>
    rw [h] at heq
    cases heq
    rfl
  · next heq => simp [h] at heq

/-- The symbol of a comparison in front of a space, where no other operator can start with it. -/
theorem takes_operator (op : Comparison) (rest : List Char) : ∃ c w,
    op.symbol.toList = c :: w ∧ Text.isBlank c = false ∧
      Takes c w (' ' :: rest) (.operator op) (c :: w) := by
  cases op <;> exact ⟨_, _, rfl, by decide, takes_of_operator? rfl⟩

theorem decimalSpan_append_rest {digits : List Char} (hdigits : ∀ d ∈ digits, d.isDigit = true)
    (hrest : EndsWord rest) : decimalSpan (digits ++ rest) = digits := by
  obtain ⟨htake, hdrop⟩ := takeWhile_append (fun _ h => continuesWord_of_isDigit h) hdigits hrest
  have hplaces : places rest = [] := by
    unfold places
    split
    · exact absurd (endsWord_cons.1 hrest) (by decide)
    · rfl
  simp only [decimalSpan, htake, hdrop, hplaces, ↓reduceIte]

theorem takes_of_numberSpan (h : numberSpan (c :: (w ++ rest)) = c :: w) :
    Takes c w rest .number (c :: w) := by
  refine ⟨plain .number (c :: w) (by simp) (by simp), ?_, rfl, rfl, by simp [plain]⟩
  have hbare : read c (w ++ rest) = bare c (w ++ rest) := by
    refine read_eq_bare ?_ ?_ <;>
    · rintro rfl
      simp [numberSpan] at h
  rw [hbare, bare, dif_pos (by simp [h])]
  simp only [h]

theorem takes_digits (hc : c.isDigit = true) (hw : ∀ d ∈ w, d.isDigit = true)
    (hrest : EndsWord rest) : Takes c w rest .number (c :: w) := by
  apply takes_of_numberSpan
  have hdigits : ∀ d ∈ c :: w, d.isDigit = true := List.forall_mem_cons.2 ⟨hc, hw⟩
  have hspan := decimalSpan_append_rest hdigits hrest
  unfold numberSpan
  split
  · next heq =>
    cases heq
    exact absurd hc (by decide)
  · simpa [hc] using hspan

theorem takes_negative {digits : List Char} (hne : digits ≠ [])
    (hdigits : ∀ d ∈ digits, d.isDigit = true) (hrest : EndsWord rest) :
    Takes '-' digits rest .number ('-' :: digits) := by
  apply takes_of_numberSpan
  obtain ⟨htake, _⟩ := takeWhile_append (fun _ h => continuesWord_of_isDigit h) hdigits hrest
  simp only [numberSpan, htake, hne, ↓reduceIte, decimalSpan_append_rest hdigits hrest]

/-- The characters between quotes, and the text that they stand for. A backslash stands for the
character behind it. -/
inductive Escapes : List Char → List Char → Prop
  | nil : Escapes [] []
  | plain {c body contents} : c ≠ '\'' → c ≠ '\\' → Escapes body contents →
      Escapes (c :: body) (c :: contents)
  | escaped {c body contents} : Escapes body contents → Escapes ('\\' :: c :: body) (c :: contents)

/-- A backslash in front of each quote. -/
def escaped (cs : List Char) : List Char :=
  cs.flatMap fun c => if c = '\'' then ['\\', '\''] else [c]

/-- Escaping is undone where nothing was escaped before. -/
theorem escapes_escaped (h : '\\' ∉ cs) : Escapes (escaped cs) cs := by
  induction cs with
  | nil => exact .nil
  | cons c cs ih =>
    simp only [List.mem_cons, not_or] at h
    have htail := ih h.2
    by_cases hquote : c = '\''
    · subst hquote
      exact .escaped htail
    · have hescaped : escaped (c :: cs) = c :: escaped cs := by simp [escaped, hquote]
      rw [hescaped]
      exact .plain hquote (Ne.symm h.1) htail

theorem quoted?_escape {cs : List Char} {r} (h : quoted? cs = some r) (c : Char) :
    ∃ r', quoted? ('\\' :: c :: cs) = some r' ∧ r'.1 = c :: r.1 ∧
      r'.2.1 = ('\\' :: c :: r.2.1.1, r.2.1.2) := by
  rw [quoted?, h]
  exact ⟨_, rfl, rfl, rfl⟩

theorem quoted?_cons {cs : List Char} {r} (h : quoted? cs = some r) {c : Char} (hquote : c ≠ '\'')
    (hescape : c ≠ '\\') :
    ∃ r', quoted? (c :: cs) = some r' ∧ r'.1 = c :: r.1 ∧ r'.2.1 = (c :: r.2.1.1, r.2.1.2) := by
  have hcons := quoted?.eq_4 c cs hquote fun _ _ heq => (hescape heq).elim
  rw [hcons, h]
  exact ⟨_, rfl, rfl, rfl⟩

/-- The characters between quotes are read up to the closing quote. -/
theorem quoted?_of_escapes {body contents : List Char} (rest : List Char)
    (h : Escapes body contents) : ∃ r, quoted? (body ++ ['\''] ++ rest) = some r ∧
      r.1 = contents ∧ r.2.1 = (body ++ ['\''], rest) := by
  induction h with
  | nil => exact ⟨_, rfl, rfl, rfl⟩
  | plain hquote hescape _ ih =>
    obtain ⟨r, hr, rfl, hsplit⟩ := ih
    obtain ⟨r', hr', hcontents, hsplit'⟩ := quoted?_cons hr hquote hescape
    refine ⟨r', hr', hcontents, ?_⟩
    rw [hsplit', hsplit]
    rfl
  | escaped _ ih =>
    obtain ⟨r, hr, rfl, hsplit⟩ := ih
    obtain ⟨r', hr', hcontents, hsplit'⟩ := quoted?_escape hr _
    refine ⟨r', hr', hcontents, ?_⟩
    rw [hsplit', hsplit]
    rfl

theorem takes_of_quoted? {contents : List Char} {r} (h : quoted? (w ++ rest) = some r)
    (hcontents : r.1 = contents) (hsplit : r.2.1 = (w, rest)) :
    Takes '\'' w rest .text contents := by
  obtain ⟨contents', ⟨split, happend⟩⟩ := r
  cases hcontents
  cases hsplit
  refine ⟨⟨.text, contents', '\'' :: w, rest, by simp, by simp⟩, ?_, rfl, rfl, rfl⟩
  simp only [read]
  split
  · next heq =>
    rw [h] at heq
    cases heq
    rfl
  · next heq => simp [h] at heq

theorem takes_escapes {body contents : List Char} (rest : List Char) (h : Escapes body contents) :
    Takes '\'' (body ++ ['\'']) rest .text contents := by
  obtain ⟨r, hr, hcontents, hsplit⟩ := quoted?_of_escapes rest h
  exact takes_of_quoted? hr hcontents hsplit

theorem contents_of_quotedName {l : Lexeme ('\x60' :: cs)} (h : quotedName cs = .ok l) :
    l.contents = cs.takeWhile (· != '\x60') := by
  unfold quotedName at h
  split at h
  · cases h
  · dsimp only at h
    split at h
    · cases h
    · cases h
      rfl

/-- The lexeme of a name that stands in the text without grave accents. -/
theorem startsWord_of_read {l : Lexeme (c :: cs)} (h : read c cs = .ok l)
    (hkind : l.kind = .identifier) (hgrave : c ≠ '\x60') :
    startsWord c = true ∧ l.contents = c :: cs.takeWhile continuesWord ∧
      wordKind l.contents = .identifier := by
  have hquote : c ≠ '\'' := by
    rintro rfl
    simp only [read] at h
    split at h
    · cases h
      cases hkind
    · cases h
  rw [read_eq_bare hquote hgrave, bare] at h
  split at h
  · cases h
    cases hkind
  · split at h
    · cases h
      cases hkind
    · split at h
      · next hpunctuation =>
        cases h
        simp only [plain] at hkind
        subst hkind
        unfold punctuation? at hpunctuation
        split at hpunctuation <;> cases hpunctuation
      · split at h
        · next hstart =>
          cases h
          exact ⟨hstart, rfl, hkind⟩
        · cases h

end Lexeme

end SearchSql
