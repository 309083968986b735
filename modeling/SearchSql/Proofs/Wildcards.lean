import SearchSql.Proofs.Meaning

/-!
The texts that patterns match. A LIKE pattern and the wildcard pattern that it becomes match the
same texts.
-/

namespace SearchSql

/-- A LIKE pattern matches a text. The percent sign stands for any run of characters, every other
character for itself. -/
inductive LikeMatches : List Char → List Char → Prop
  | nil : LikeMatches [] []
  | anyRun {pattern text} (run : List Char) :
      LikeMatches pattern text → LikeMatches ('%' :: pattern) (run ++ text)
  | itself {c pattern text} :
      c ≠ '%' → LikeMatches pattern text → LikeMatches (c :: pattern) (c :: text)

/-- A wildcard pattern matches a text. The star stands for any run of characters, the question mark
for any one character, and a backslash for the character behind it. Every other character stands for
itself, and so does a backslash with nothing behind it. -/
inductive WildcardMatches : List Char → List Char → Prop
  | nil : WildcardMatches [] []
  | anyRun {pattern text} (run : List Char) :
      WildcardMatches pattern text → WildcardMatches ('*' :: pattern) (run ++ text)
  | anyChar {c pattern text} :
      WildcardMatches pattern text → WildcardMatches ('?' :: pattern) (c :: text)
  | escaped {c pattern text} :
      WildcardMatches pattern text → WildcardMatches ('\\' :: c :: pattern) (c :: text)
  | itself {c pattern text} : c ≠ '*' → c ≠ '?' → (c = '\\' → pattern = []) →
      WildcardMatches pattern text → WildcardMatches (c :: pattern) (c :: text)

/-- A text consists of any run of characters and a rest with the property. -/
def AfterRun (P : List Char → Prop) (text : List Char) : Prop :=
  ∃ run rest, text = run ++ rest ∧ P rest

/-- A text consists of the character and a rest with the property. -/
def AfterChar (c : Char) (P : List Char → Prop) (text : List Char) : Prop :=
  ∃ rest, text = c :: rest ∧ P rest

variable {c : Char} {pattern text : List Char}

theorem likeMatches_percent :
    LikeMatches ('%' :: pattern) text ↔ AfterRun (LikeMatches pattern) text := by
  constructor
  · intro h
    cases h with
    | anyRun run h => exact ⟨run, _, rfl, h⟩
    | itself hne _ => exact (hne rfl).elim
  · rintro ⟨run, rest, rfl, h⟩
    exact .anyRun run h

theorem likeMatches_cons (hc : c ≠ '%') :
    LikeMatches (c :: pattern) text ↔ AfterChar c (LikeMatches pattern) text := by
  constructor
  · intro h
    cases h with
    | anyRun => exact (hc rfl).elim
    | itself _ h => exact ⟨_, rfl, h⟩
  · rintro ⟨rest, rfl, h⟩
    exact .itself hc h

theorem wildcardMatches_star :
    WildcardMatches ('*' :: pattern) text ↔ AfterRun (WildcardMatches pattern) text := by
  constructor
  · intro h
    cases h with
    | anyRun run h => exact ⟨run, _, rfl, h⟩
    | itself hne _ _ _ => exact (hne rfl).elim
  · rintro ⟨run, rest, rfl, h⟩
    exact .anyRun run h

theorem wildcardMatches_backslash :
    WildcardMatches ('\\' :: c :: pattern) text ↔ AfterChar c (WildcardMatches pattern) text := by
  constructor
  · intro h
    cases h with
    | escaped h => exact ⟨_, rfl, h⟩
    | itself _ _ hend _ => exact (List.cons_ne_nil _ _ (hend rfl)).elim
  · rintro ⟨rest, rfl, h⟩
    exact .escaped h

theorem wildcardMatches_cons (hc : ¬ (c = '*' ∨ c = '?' ∨ c = '\\')) :
    WildcardMatches (c :: pattern) text ↔ AfterChar c (WildcardMatches pattern) text := by
  simp only [not_or] at hc
  obtain ⟨hstar, hquestion, hbackslash⟩ := hc
  constructor
  · intro h
    cases h with
    | anyRun => exact (hstar rfl).elim
    | anyChar => exact (hquestion rfl).elim
    | escaped => exact (hbackslash rfl).elim
    | itself _ _ _ h => exact ⟨_, rfl, h⟩
  · rintro ⟨rest, rfl, h⟩
    exact .itself hstar hquestion (fun heq => (hbackslash heq).elim) h

/-- A character of a LIKE pattern and what becomes of it take the same off a text. -/
theorem wildcardMatches_wildcardChars (c : Char) {rest : List Char}
    (h : WildcardMatches rest = LikeMatches pattern) :
    WildcardMatches (wildcardChars c ++ rest) text ↔ LikeMatches (c :: pattern) text := by
  unfold wildcardChars
  split
  · next hpercent =>
    rw [hpercent, likeMatches_percent, ← h]
    exact wildcardMatches_star
  · next hpercent =>
    rw [likeMatches_cons hpercent, ← h]
    split
    · exact wildcardMatches_backslash
    · next hspecial => exact wildcardMatches_cons hspecial

theorem wildcardMatches_flatMap (pattern : List Char) :
    WildcardMatches (pattern.flatMap wildcardChars) = LikeMatches pattern := by
  induction pattern with
  | nil =>
    funext text
    rw [List.flatMap_nil, eq_iff_iff]
    constructor
    · rintro ⟨⟩
      exact .nil
    · rintro ⟨⟩
      exact .nil
  | cons c pattern ih =>
    funext text
    exact propext (wildcardMatches_wildcardChars c ih)

/-- A LIKE pattern matches exactly the texts that its wildcard pattern matches. -/
theorem wildcardOfLike_matches_iff (pattern text : String) :
    WildcardMatches (wildcardOfLike pattern).toList text.toList ↔
      LikeMatches pattern.toList text.toList := by
  rw [wildcardOfLike, String.toList_ofList, wildcardMatches_flatMap]

example : wildcardOfLike "50%?\\" = "50*\\?\\\\" := by decide

/-- Where the server reads wildcard patterns so, a LIKE test holds of the documents with a value
that the LIKE pattern matches. -/
theorem Expression.holds_like {E : Engine String} (o : Options) (types : String → FieldType)
    (d : Document String) (f pattern : String)
    (hfits : ∀ value wildcard, E.fits f value wildcard = true ↔
      WildcardMatches wildcard.toList value.toList) :
    (Expression.like f pattern).holds E o types d = true ↔
      ∃ value ∈ d f, LikeMatches pattern.toList value.toList := by
  rw [holds, Engine.matchesWildcard]
  simp only [Option.any_eq_true, hfits, wildcardOfLike, String.toList_ofList,
    wildcardMatches_flatMap, Option.mem_def]

end SearchSql
