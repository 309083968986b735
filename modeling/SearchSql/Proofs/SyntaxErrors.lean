import SearchSql.Proofs.Parsing.Layout
import SearchSql.Proofs.Parsing.Sentence
import SearchSql.Proofs.Parsing.Viable
import SearchSql.Proofs.Tokens.Spans

/-!
Syntax errors point at the first bad token. What stands in front of it can be continued to a
statement, and with it no more. Only a star that a function does not take is not noticed before the
parenthesis behind it.
-/

namespace SearchSql

open Grammar Reader

namespace Token

variable {before cs : List Char} {ts : List Token}

/-- Spans are not empty, so that positions ascend, and stay in front of the end of the text. -/
theorem Covers.positions (h : Covers before cs ts) :
    ts.Pairwise (fun t u => t.position < u.position) ∧ ∀ t ∈ ts,
      byteLength before ≤ t.position ∧ t.position < byteLength before + byteLength cs := by
  induction h with
  | blanks => exact ⟨.nil, nofun⟩
  | @token before gap span rest t ts _ hspan hposition _ _ ih =>
    obtain ⟨hsorted, hbounds⟩ := ih
    obtain ⟨c, span, rfl⟩ := List.exists_cons_of_ne_nil hspan
    have hsize := c.utf8Size_pos
    rw [← byteLength_eq_utf8ByteSize] at hposition
    simp only [byteLength_append, byteLength] at hposition hbounds ⊢
    refine ⟨List.pairwise_cons.2 ⟨fun u hu => ?_, hsorted⟩, List.forall_mem_cons.2 ⟨?_, ?_⟩⟩
    · have := hbounds u hu
      omega
    · omega
    · intro u hu
      have := hbounds u hu
      omega

theorem positions_of_ofText {sql : String} (h : ofText sql = .ok ts) :
    ts.Pairwise (fun t u => t.position < u.position) ∧
      ∀ t ∈ ts, t.position < sql.utf8ByteSize := by
  have hcovers : Covers [] sql.toList ts := covers_of_ofCharsFrom rfl h
  obtain ⟨hsorted, hbounds⟩ := hcovers.positions
  refine ⟨hsorted, fun t ht => ?_⟩
  have hend := (hbounds t ht).2
  rw [byteLength_eq_utf8ByteSize sql.toList, String.ofList_toList] at hend
  simpa [byteLength] using hend

/-- In the order of positions, the tokens in front of one of them are a prefix, with it or
without. -/
theorem filter_position {w rest : List Token} {t : Token}
    (h : (w ++ t :: rest).Pairwise fun t u => t.position < u.position) :
    (w ++ t :: rest).filter (·.position < t.position) = w ∧
      (w ++ t :: rest).filter (·.position ≤ t.position) = w ++ [t] := by
  obtain ⟨_, htail, hcross⟩ := List.pairwise_append.1 h
  have hfront : ∀ u ∈ w, u.position < t.position := fun u hu => hcross u hu t List.mem_cons_self
  have hbehind : ∀ u ∈ rest, t.position < u.position := (List.pairwise_cons.1 htail).1
  have hlt : w.filter (·.position < t.position) = w := List.filter_eq_self.2 (by simpa)
  have hle : w.filter (·.position ≤ t.position) = w :=
    List.filter_eq_self.2 fun u hu => by simpa using (hfront u hu).le
  have hnlt : rest.filter (·.position < t.position) = [] :=
    List.filter_eq_nil_iff.2 fun u hu => by simpa using (hbehind u hu).le
  have hnle : rest.filter (·.position ≤ t.position) = [] := List.filter_eq_nil_iff.2 (by simpa)
  simp [hlt, hle, hnlt, hnle]

end Token

namespace Statement

variable {ts w bad : List Token} {sql expected : String}

/-- Some tokens behind these make a list that is accepted. -/
def Viable (ts : List Token) : Prop := ∃ more s, ofTokens (ts ++ more) = .ok s

/-- The star of a function that takes none is last. Without it, the tokens are viable. -/
def EndsWithStar (ts : List Token) : Prop :=
  ∃ v n left star metric, ts = v ++ [n, left, star] ∧ n.kind = .identifier ∧
    FunctionName n.text metric ∧ metric ≠ .count ∧ left.kind = .leftParen ∧
    star.kind = .star ∧ Viable (v ++ [n, left])

theorem viable_of_sentence {more : List Token} (h : ∃ s, Sentence (ts ++ more) s) : Viable ts := by
  obtain ⟨s, h⟩ := h
  exact ⟨more, s, ofTokensUpTo_eq_ok_iff.2 h⟩

theorem viable_of_refuses (h : Refuses reader ts bad expected) : ∃ w, ts = w ++ bad ∧
    (Viable w ∨ expected = TokenKind.rightParen.name ∧ EndsWithStar w) := by
  obtain ⟨w, rfl, hw⟩ := stops_reader.stopsAt ts h
  refine ⟨w, rfl, ?_⟩
  cases hw with
  | phrase hs => exact .inl (viable_of_sentence hs)
  | @star v n left star metric more hexpected hn hmetric hcount hleft hstar hs =>
    have hviable : Viable (v ++ [n, left]) := viable_of_sentence (by simpa using hs)
    exact .inr ⟨hexpected, v, n, left, star, metric, rfl, hn, hmetric, hcount, hleft, hstar,
      hviable⟩

/-- Whatever follows a refused token, it is refused again. -/
theorem not_viable_of_refuses {t : Token} {rest : List Token}
    (h : Refuses reader (w ++ t :: rest) (t :: rest) expected)
    (hfault : ¬ AggregateFault expected) : ¬ Viable (w ++ [t]) := by
  rintro ⟨more, s, hs⟩
  rw [List.append_assoc, List.singleton_append] at hs
  have hnext : NextAlike (t :: rest) (t :: more) := .some (.refl t)
  obtain ⟨bad, _, hrefuses⟩ := (composed_reader _).refuses_alike hnext (.inr hfault) (.refl w) h
    (List.suffix_refl _)
  rw [ofTokens, ofTokensUpTo_of_refuses hrefuses] at hs
  cases hs

/-- A syntax error is reported at the refused token, or at the end of the text. -/
theorem refuses_of_ofText_eq_error {position : Nat} {found : String}
    (hts : Token.ofText sql = .ok ts)
    (h : ofText sql = .error (.syntaxError position expected found)) :
    (Refuses reader ts [] expected ∧ position = sql.utf8ByteSize) ∨
      ∃ t rest, Refuses reader ts (t :: rest) expected ∧ position = t.position := by
  rw [ofText_eq_ofTokensUpTo hts] at h
  obtain ⟨s, rest, hreads⟩ | ⟨bad, expected, hrefuses⟩ := reads_or_refuses reader ts
  · cases (ofTokensUpTo_of_reads hreads).symm.trans h
  · rw [ofTokensUpTo_of_refuses hrefuses] at h
    cases bad with
    | nil =>
      cases h
      exact .inl ⟨hrefuses, rfl⟩
    | cons t rest =>
      cases h
      exact .inr ⟨t, rest, hrefuses, rfl⟩

/-- A syntax error is reported at a token or at the end of the text. The tokens in front of it are
viable, or end with a star where the parenthesis behind it was expected. With the token, they are
viable no more, unless the error is a fault of an aggregate. -/
theorem syntaxError_at_first_bad_token {position : Nat} {found : String}
    (hts : Token.ofText sql = .ok ts)
    (h : ofText sql = .error (.syntaxError position expected found)) :
    ((∃ t ∈ ts, t.position = position) ∨ position = sql.utf8ByteSize) ∧
      (Viable (ts.filter (·.position < position)) ∨
        expected = TokenKind.rightParen.name ∧ EndsWithStar (ts.filter (·.position < position))) ∧
      ((∃ t ∈ ts, t.position = position) → ¬ AggregateFault expected →
        ¬ Viable (ts.filter (·.position ≤ position))) := by
  obtain ⟨hsorted, hend⟩ := Token.positions_of_ofText hts
  obtain ⟨hrefuses, rfl⟩ | ⟨t, rest, hrefuses, rfl⟩ := refuses_of_ofText_eq_error hts h
  · obtain ⟨w, rfl, hw⟩ := viable_of_refuses hrefuses
    rw [List.append_nil] at hend ⊢
    have hall : w.filter (·.position < sql.utf8ByteSize) = w := List.filter_eq_self.2 (by simpa)
    rw [hall]
    refine ⟨.inr rfl, hw, ?_⟩
    rintro ⟨t, ht, hposition⟩
    exact ((hend t ht).ne hposition).elim
  · obtain ⟨w, rfl, hw⟩ := viable_of_refuses hrefuses
    obtain ⟨hfront, hupTo⟩ := Token.filter_position hsorted
    rw [hfront, hupTo]
    exact ⟨.inl ⟨t, by simp, rfl⟩, hw, fun _ hfault => not_viable_of_refuses hrefuses hfault⟩

/-- The set and the parenthesis are both open where a comma or the end of the set is missing. -/
theorem syntaxError_at_first_bad_token_nested :
    let sql := "SELECT a FROM t WHERE (b IN (1, 2 AND c"
    ∃ ts, Token.ofText sql = .ok ts ∧ ofText sql = .error (.syntaxError 34 "')'" "AND") ∧
      (Viable (ts.filter (·.position < 34)) ∨
        "')'" = TokenKind.rightParen.name ∧ EndsWithStar (ts.filter (·.position < 34))) ∧
      ¬ Viable (ts.filter (·.position ≤ 34)) := by
  intro sql
  have hts : Token.ofText sql = .ok [⟨.keyword .select, "SELECT", 0⟩, ⟨.identifier, "a", 7⟩,
      ⟨.keyword .from, "FROM", 9⟩, ⟨.identifier, "t", 14⟩, ⟨.keyword .where, "WHERE", 16⟩,
      ⟨.leftParen, "(", 22⟩, ⟨.identifier, "b", 23⟩, ⟨.keyword .in, "IN", 25⟩,
      ⟨.leftParen, "(", 28⟩, ⟨.number, "1", 29⟩, ⟨.comma, ",", 30⟩, ⟨.number, "2", 32⟩,
      ⟨.keyword .and, "AND", 34⟩, ⟨.identifier, "c", 38⟩] := by cbv
  have herror : ofText sql = .error (.syntaxError 34 "')'" "AND") := by cbv
  obtain ⟨_, hfront, hupTo⟩ := syntaxError_at_first_bad_token hts herror
  exact ⟨_, hts, herror, hfront, hupTo (by decide) (by decide)⟩

theorem not_reads_item_star {n left star : Token} {metric : Metric} {more rest : List Token}
    {item : SelectItem} (hmetric : FunctionName n.text metric) (hcount : metric ≠ .count)
    (hleft : left.kind = .leftParen) (hstar : star.kind = .star) :
    ¬ Reads readItem (n :: left :: star :: more) item rest := by
  intro h
  obtain ⟨_, _, hname, hitem⟩ := reads_bind.1 h
  obtain ⟨_, hcons, _, rfl⟩ := reads_identifier.1 hname
  cases hcons
  obtain ⟨_, _, _, hcons, hover⟩ | ⟨hnext, _⟩ := reads_accept_bind.1 hitem
  · cases hcons
    obtain ⟨_, _, _, hcons, hmetric', _, hargument⟩ := reads_aggregate.1 hover
    cases hcons
    obtain ⟨_, rfl, _⟩ | ⟨hfield, _⟩ := hargument
    · exact hcount (hmetric.unique hmetric')
    · simp [hstar] at hfield
  · exact notNext_cons.1 hnext hleft

/-- Behind the star of a function that takes none, nothing is accepted. -/
theorem not_viable_star {select n left star : Token} {metric : Metric} (hn : n.kind = .identifier)
    (hmetric : FunctionName n.text metric) (hcount : metric ≠ .count)
    (hleft : left.kind = .leftParen) (hstar : star.kind = .star) :
    ¬ Viable [select, n, left, star] := by
  rintro ⟨more, s, hs⟩
  have hreads := reads_of_sentence (ofTokensUpTo_eq_ok_iff.1 hs)
  obtain ⟨_, _, hselect, hrest⟩ := reads_bind.1 hreads
  obtain ⟨_, hcons, _, _⟩ := reads_expect.1 hselect
  cases hcons
  obtain ⟨items, _, hprojection, _⟩ := reads_bind.1 hrest
  obtain ⟨_, _, ht, hcons, _⟩ | ⟨_, hitems⟩ := reads_accept_bind.1 hprojection
  · cases hcons
    simp [hn] at ht
  · rw [separated_eq_run] at hitems
    obtain ⟨item, _, hitem, _⟩ := reads_run.1 hitems
    exact not_reads_item_star hmetric hcount hleft hstar hitem

/-- The star is refused only behind the parenthesis that closes the function, which is missed
first. -/
theorem star_in_front_of_missing_paren :
    let sql := "SELECT SUM(* FROM bank"
    ∃ ts, Token.ofText sql = .ok ts ∧ ofText sql = .error (.syntaxError 13 "')'" "FROM") ∧
      ¬ Viable (ts.filter (·.position < 13)) := by
  intro sql
  have hts : Token.ofText sql = .ok [⟨.keyword .select, "SELECT", 0⟩, ⟨.identifier, "SUM", 7⟩,
      ⟨.leftParen, "(", 10⟩, ⟨.star, "*", 11⟩, ⟨.keyword .from, "FROM", 13⟩,
      ⟨.identifier, "bank", 18⟩] := by cbv
  have hmetric : FunctionName "SUM" .sum := functionName_iff.2 (by cbv)
  exact ⟨_, hts, by cbv, not_viable_star rfl hmetric (by decide) rfl rfl⟩

end Statement

end SearchSql
