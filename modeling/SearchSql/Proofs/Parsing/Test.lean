import SearchSql.Proofs.Parsing.Reading

/-!
Reading the condition on one field, with its literals.
-/

namespace SearchSql

open Grammar Reader

/-- The value of a token is the one that the grammar gives it. -/
theorem Literal.ofToken_eq_ok_iff {expected : String} {t : Token} {value : Literal} :
    ofToken expected t = .ok value ↔ Value t value := by
  constructor
  · intro h
    unfold ofToken at h
    split at h
    · next hkind => cases h; exact .text hkind
    · next hkind => cases h; exact .true hkind
    · next hkind => cases h; exact .false hkind
    · next hkind =>
      split at h
      · next hpoint =>
        split at h
        · next x hx =>
          cases h
          exact .decimal hkind (fractional_iff.2 ⟨List.contains_iff_mem.1 hpoint, hx⟩)
        · cases h
      · next hpoint =>
        split at h
        · next n hn =>
          cases h
          rw [Decimal.int64?, Option.filter_eq_some_iff, fitsInt64_iff] at hn
          exact .integer hkind (integer_iff.2 hn.1) hn.2
        · cases h
    · cases h
  · intro h
    unfold ofToken
    cases h with
    | text hkind | true hkind | false hkind => simp only [hkind]
    | decimal hkind hx =>
      obtain ⟨hpoint, hx⟩ := fractional_iff.1 hx
      simp [hkind, hpoint, hx]
    | integer hkind hn hfits =>
      have hint64 := Option.filter_eq_some_iff.2 ⟨integer_iff.1 hn, fitsInt64_iff.2 hfits⟩
      simp [hkind, hn.point_not_mem, Decimal.int64?, hint64]

theorem Literal.reads_reader {expected : String} {ts rest : List Token} {value : Literal} :
    Reads (Literal.reader expected) ts value rest ↔ ∃ t, ts = t :: rest ∧ Value t value := by
  simp only [Literal.reader, reads_takeMap, ofToken_eq_ok_iff]

/-- A literal as a phrase of one token. -/
theorem Literal.recognizes {expected : String} :
    Recognizes (Literal.reader expected) (fun ts value => ∃ t, ts = [t] ∧ Value t value) [] := by
  refine recognizes_of_iff fun {ts value rest} => ?_
  rw [Literal.reads_reader]
  constructor
  · rintro ⟨t, rfl, ht⟩
    exact ⟨[t], rfl, t, rfl, ht⟩
  · rintro ⟨_, rfl, t, rfl, ht⟩
    exact ⟨t, rfl, ht⟩

namespace Expression

variable {f : String} {negated : Bool} {ts rest : List Token} {e : Expression}

theorem reads_between : Reads (readBetween f negated) ts e rest ↔
    ∃ l a h low high, ts = l :: a :: h :: rest ∧ Value l low ∧ a.kind = .keyword .and ∧
      Value h high ∧ e = .between f low high negated := by
  simp only [readBetween, reads_bind, reads_pure, Literal.reads_reader, reads_expect]
  constructor
  · rintro ⟨low, _, ⟨l, rfl, hl⟩, _, _, ⟨a, rfl, ha, _⟩, high, _, ⟨h, rfl, hh⟩, rfl, rfl⟩
    exact ⟨l, a, h, low, high, rfl, hl, ha, hh, rfl⟩
  · rintro ⟨l, a, h, low, high, rfl, hl, ha, hh, rfl⟩
    exact ⟨low, _, ⟨l, rfl, hl⟩, _, _, ⟨a, rfl, ha, rfl⟩, high, _, ⟨h, rfl, hh⟩, rfl, rfl⟩

theorem reads_among : Reads (readAmong f negated) ts e rest ↔
    ∃ left vs right values, ts = left :: vs ++ right :: rest ∧ left.kind = .leftParen ∧
      Separated .comma (fun ts value => ∃ t, ts = [t] ∧ Value t value) vs values ∧
      right.kind = .rightParen ∧ e = .among f values negated := by
  have hvalue : Recognizes (Literal.reader "literal value") _ [] := Literal.recognizes
  have hvalues := hvalue.separated List.not_mem_nil
  simp only [readAmong, reads_bind, reads_pure, reads_expect]
  constructor
  · rintro ⟨_, _, ⟨left, rfl, hleft, _⟩, values, _, hvs, _, _, ⟨right, rfl, hright, _⟩, rfl, rfl⟩
    obtain ⟨vs, rfl, hphrase⟩ := hvalues.sound hvs
    exact ⟨left, vs, right, values, rfl, hleft, hphrase, hright, rfl⟩
  · rintro ⟨left, vs, right, values, rfl, hleft, hvs, hright, rfl⟩
    refine ⟨_, _, ⟨left, rfl, hleft, rfl⟩, values, right :: rest, hvalues.complete hvs ?_, _, _,
      ⟨right, rfl, hright, rfl⟩, rfl, rfl⟩
    simp [hright]

theorem reads_like : Reads (readLike f) ts e rest ↔
    ∃ p, ts = p :: rest ∧ p.kind = .text ∧ e = .like f p.text := by
  simp only [readLike, reads_bind, reads_pure, reads_expect]
  constructor
  · rintro ⟨_, _, ⟨p, rfl, hp, rfl⟩, rfl, rfl⟩
    exact ⟨p, rfl, hp, rfl⟩
  · rintro ⟨p, rfl, hp, rfl⟩
    exact ⟨_, _, ⟨p, rfl, hp, rfl⟩, rfl, rfl⟩

theorem reads_operand : Reads readOperand ts e rest ↔
    (∃ g, ts = g :: rest ∧ g.kind = .identifier ∧ e = .field g.text) ∨
      ∃ v value, ts = v :: rest ∧ Value v value ∧ e = .literal value := by
  rw [readOperand, reads_peek_bind]
  constructor
  · intro h
    split at h <;> simp only [reads_bind, reads_pure] at h
    · obtain ⟨_, _, h, rfl, rfl⟩ := h
      obtain ⟨g, rfl, hg, rfl⟩ := reads_identifier.1 h
      exact .inl ⟨g, rfl, hg, rfl⟩
    · obtain ⟨value, _, h, rfl, rfl⟩ := h
      obtain ⟨v, rfl, hv⟩ := Literal.reads_reader.1 h
      exact .inr ⟨v, value, rfl, hv, rfl⟩
  · rintro (⟨g, rfl, hg, rfl⟩ | ⟨v, value, rfl, hv, rfl⟩)
    · rw [if_pos (by simp [hg])]
      exact reads_bind.2 ⟨_, _, reads_identifier.2 ⟨g, rfl, hg, rfl⟩, reads_pure.2 ⟨rfl, rfl⟩⟩
    · have hkind : v.kind ≠ .identifier := by rcases hv.kind with h | h | h | h <;> simp [h]
      rw [if_neg (by simpa using hkind)]
      exact reads_bind.2 ⟨value, _, Literal.reads_reader.2 ⟨v, rfl, hv⟩, reads_pure.2 ⟨rfl, rfl⟩⟩

theorem reads_negatedTest : Reads (readNegatedTest f) ts e rest ↔
    ∃ t mid, ts = t :: mid ∧
      ((t.kind = .keyword .between ∧ Reads (readBetween f true) mid e rest) ∨
        (t.kind = .keyword .in ∧ Reads (readAmong f true) mid e rest) ∨
        ∃ like, t.kind = .keyword .like ∧ Reads (readLike f) mid like rest ∧ e = like.not) := by
  simp only [readNegatedTest, reads_accept_bind, ↓reduceIte, Bool.false_eq_true, reads_refuse]
  constructor
  · rintro (⟨t, mid, ht, rfl, h⟩ | ⟨_, ⟨t, mid, ht, rfl, h⟩ | ⟨_, ⟨t, mid, ht, rfl, h⟩ | h⟩⟩)
    · exact ⟨t, mid, rfl, .inl ⟨ht, h⟩⟩
    · exact ⟨t, mid, rfl, .inr (.inl ⟨ht, h⟩)⟩
    · obtain ⟨like, _, h, he⟩ := reads_bind.1 h
      obtain ⟨rfl, rfl⟩ := reads_pure.1 he
      exact ⟨t, mid, rfl, .inr (.inr ⟨like, ht, h, rfl⟩)⟩
    · exact h.2.elim
  · rintro ⟨t, mid, rfl, ⟨ht, h⟩ | ⟨ht, h⟩ | ⟨like, ht, h, rfl⟩⟩
    · exact .inl ⟨t, mid, ht, rfl, h⟩
    · exact .inr ⟨by simp [ht], .inl ⟨t, mid, ht, rfl, h⟩⟩
    · have hnot : Reads (readLike f >>= fun like => pure like.not) mid like.not rest :=
        reads_bind.2 ⟨like, rest, h, reads_pure.2 ⟨rfl, rfl⟩⟩
      exact .inr ⟨by simp [ht], .inr ⟨by simp [ht], .inl ⟨t, mid, ht, rfl, hnot⟩⟩⟩

theorem reads_presence_word {required : Bool} :
    Reads (do
      if ← accept (.keyword .miss) then return .present f !required
      else if ← accept (.keyword .null) then return .present f !required
      else refuse "MISS or NULL") ts e rest ↔
    ∃ m, ts = m :: rest ∧ (m.kind = .keyword .miss ∨ m.kind = .keyword .null) ∧
      e = .present f !required := by
  simp only [reads_accept_bind, ↓reduceIte, Bool.false_eq_true, reads_refuse, reads_pure]
  constructor
  · rintro (⟨m, _, hm, rfl, rfl, rfl⟩ | ⟨_, ⟨m, _, hm, rfl, rfl, rfl⟩ | h⟩)
    · exact ⟨m, rfl, .inl hm, rfl⟩
    · exact ⟨m, rfl, .inr hm, rfl⟩
    · exact h.2.elim
  · rintro ⟨m, rfl, hm | hm, rfl⟩
    · exact .inl ⟨m, rest, hm, rfl, rfl, rfl⟩
    · exact .inr ⟨by simp [hm], .inl ⟨m, rest, hm, rfl, rfl, rfl⟩⟩

theorem reads_presence : Reads (readPresence f) ts e rest ↔
    ∃ nots m required, ts = nots ++ m :: rest ∧ Grammar.Optional (.keyword .not) nots required ∧
      (m.kind = .keyword .miss ∨ m.kind = .keyword .null) ∧ e = .present f !required := by
  rw [readPresence, reads_accept_bind]
  constructor
  · rintro (⟨t, mid, ht, rfl, h⟩ | ⟨_, h⟩)
    · obtain ⟨m, rfl, hm, rfl⟩ := reads_presence_word.1 h
      exact ⟨[t], m, true, rfl, .present ht, hm, rfl⟩
    · obtain ⟨m, rfl, hm, rfl⟩ := reads_presence_word.1 h
      exact ⟨[], m, false, rfl, .absent, hm, rfl⟩
  · rintro ⟨_, m, _, rfl, _ | ht, hm, rfl⟩
    · have hnext : NotNext (.keyword .not) (m :: rest) := by rcases hm with h | h <;> simp [h]
      exact .inr ⟨hnext, reads_presence_word.2 ⟨m, rfl, hm, rfl⟩⟩
    · exact .inl ⟨_, _, ht, rfl, reads_presence_word.2 ⟨m, rfl, hm, rfl⟩⟩

/-- The kind of token with which a test starts. -/
def TestWord.kind : TestWord → TokenKind
  | .operator op => .operator op
  | .not => .keyword .not
  | .between => .keyword .between
  | .among => .keyword .in
  | .like => .keyword .like
  | .is => .keyword .is

theorem TestWord.ofKind?_eq_some_iff {kind : TokenKind} {word : TestWord} :
    ofKind? kind = some word ↔ kind = word.kind := by
  constructor
  · intro h
    unfold ofKind? at h
    split at h <;> cases h <;> rfl
  · rintro rfl
    cases word <;> rfl

/-- What a test goes on with after its first token. -/
def TestWord.reader (f : String) : TestWord → Reader Expression
  | .operator op => do return .compare f op (← readOperand)
  | .not => readNegatedTest f
  | .between => readBetween f false
  | .among => readAmong f false
  | .like => readLike f
  | .is => readPresence f

theorem reads_test : Reads (readTest f) ts e rest ↔ ∃ t mid word,
    ts = t :: mid ∧ t.kind = TestWord.kind word ∧ Reads (word.reader f) mid e rest := by
  rw [readTest, reads_bind]
  constructor
  · rintro ⟨word, mid, hword, h⟩
    obtain ⟨t, rfl, ht⟩ := reads_takeMap.1 hword
    split at ht
    · next hkind =>
      cases ht
      refine ⟨t, mid, word, rfl, TestWord.ofKind?_eq_some_iff.1 hkind, ?_⟩
      cases word <;> exact h
    · cases ht
  · rintro ⟨t, mid, word, rfl, hkind, h⟩
    refine ⟨word, mid, reads_takeMap.2 ⟨t, rfl, ?_⟩, ?_⟩
    · rw [TestWord.ofKind?_eq_some_iff.2 hkind]
    · cases word <;> exact h

theorem reads_operator {op : Comparison} :
    Reads readOperator ts op rest ↔ ∃ t, ts = t :: rest ∧ t.kind = .operator op := by
  simp only [readOperator, reads_takeMap]
  refine exists_congr fun t => and_congr_right fun _ => ?_
  cases t.kind <;> simp

theorem predicate_of_reads_test {n : Token} (hn : n.kind = .identifier)
    (h : Reads (readTest n.text) ts e rest) : ∃ w, ts = w ++ rest ∧ Predicate (n :: w) e := by
  obtain ⟨t, mid, word, rfl, ht, h⟩ := reads_test.1 h
  cases word with
  | operator op =>
    obtain ⟨operand, _, hoperand, he⟩ := reads_bind.1 h
    obtain ⟨rfl, rfl⟩ := reads_pure.1 he
    obtain ⟨g, rfl, hg, rfl⟩ | ⟨v, value, rfl, hv, rfl⟩ := reads_operand.1 hoperand
    · exact ⟨[t, g], rfl, .compareField hn ht hg⟩
    · exact ⟨[t, v], rfl, .compare hn ht hv⟩
  | not =>
    obtain ⟨t', mid, rfl, ⟨ht', h⟩ | ⟨ht', h⟩ | ⟨_, ht', hlike, rfl⟩⟩ := reads_negatedTest.1 h
    · obtain ⟨low, a, high, l, h, rfl, hlow, ha, hhigh, rfl⟩ := reads_between.1 h
      exact ⟨[t, t', low, a, high], rfl, .between hn (.present ht) ht' hlow ha hhigh⟩
    · obtain ⟨left, vs, right, values, rfl, hleft, hvs, hright, rfl⟩ := reads_among.1 h
      exact ⟨t :: t' :: left :: vs ++ [right], by simp,
        .among hn (.present ht) ht' hleft hvs hright⟩
    · obtain ⟨p, rfl, hp, rfl⟩ := reads_like.1 hlike
      exact ⟨[t, t', p], rfl, .notLike hn ht ht' hp⟩
  | between =>
    obtain ⟨low, a, high, l, h, rfl, hlow, ha, hhigh, rfl⟩ := reads_between.1 h
    exact ⟨[t, low, a, high], rfl, .between hn .absent ht hlow ha hhigh⟩
  | among =>
    obtain ⟨left, vs, right, values, rfl, hleft, hvs, hright, rfl⟩ := reads_among.1 h
    exact ⟨t :: left :: vs ++ [right], by simp, .among hn .absent ht hleft hvs hright⟩
  | like =>
    obtain ⟨p, rfl, hp, rfl⟩ := reads_like.1 h
    exact ⟨[t, p], rfl, .like hn ht hp⟩
  | is =>
    obtain ⟨nots, m, required, rfl, hnots, hm, rfl⟩ := reads_presence.1 h
    exact ⟨t :: nots ++ [m], by simp, .present hn ht hnots hm⟩

theorem reads_test_of_predicate {n : Token} {w : List Token} (hn : n.kind = .identifier)
    (h : Predicate (n :: w) e) : Reads (readTest n.text) (w ++ rest) e rest := by
  rw [reads_test]
  cases h with
  | @compareField f c g op _ hc hg =>
    refine ⟨c, g :: rest, .operator op, rfl, hc,
      reads_bind.2 ⟨_, rest, ?_, reads_pure.2 ⟨rfl, rfl⟩⟩⟩
    exact reads_operand.2 (.inl ⟨g, rfl, hg, rfl⟩)
  | @compare f c v op value _ hc hv =>
    refine ⟨c, v :: rest, .operator op, rfl, hc,
      reads_bind.2 ⟨_, rest, ?_, reads_pure.2 ⟨rfl, rfl⟩⟩⟩
    exact reads_operand.2 (.inr ⟨v, value, rfl, hv, rfl⟩)
  | flipped hv _ _ _ => rcases hv.kind with h | h | h | h <;> simp [hn] at h
  | @between f nots b low a high negated l h _ hnots hb hlow ha hhigh =>
    have hreads (negated : Bool) : Reads (readBetween n.text negated) (low :: a :: high :: rest)
        (.between n.text l h negated) rest :=
      reads_between.2 ⟨low, a, high, l, h, rfl, hlow, ha, hhigh, rfl⟩
    cases hnots with
    | absent => exact ⟨b, _, .between, rfl, hb, hreads false⟩
    | @present t ht =>
      exact ⟨t, _, .not, rfl, ht, reads_negatedTest.2 ⟨b, _, rfl, .inl ⟨hb, hreads true⟩⟩⟩
  | @among f nots i left vs right negated values _ hnots hi hleft hvs hright =>
    have hreads (negated : Bool) : Reads (readAmong n.text negated) (left :: vs ++ right :: rest)
        (.among n.text values negated) rest :=
      reads_among.2 ⟨left, vs, right, values, rfl, hleft, hvs, hright, rfl⟩
    cases hnots with
    | absent => exact ⟨i, _, .among, by simp, hi, hreads false⟩
    | @present t ht =>
      exact ⟨t, _, .not, by simp, ht,
        reads_negatedTest.2 ⟨i, _, rfl, .inr (.inl ⟨hi, hreads true⟩)⟩⟩
  | @like f l p _ hl hp => exact ⟨l, p :: rest, .like, rfl, hl, reads_like.2 ⟨p, rfl, hp, rfl⟩⟩
  | @notLike f t l p _ ht hl hp =>
    have hreads : Reads (readLike n.text) (p :: rest) (.like n.text p.text) rest :=
      reads_like.2 ⟨p, rfl, hp, rfl⟩
    exact ⟨t, l :: p :: rest, .not, rfl, ht,
      reads_negatedTest.2 ⟨l, _, rfl, .inr (.inr ⟨_, hl, hreads, rfl⟩)⟩⟩
  | @present f i nots m required _ hi hnots hm =>
    exact ⟨i, nots ++ m :: rest, .is, by simp, hi,
      reads_presence.2 ⟨nots, m, required, rfl, hnots, hm, rfl⟩⟩

/-- The condition on a field or with a literal in front, as its first token tells. -/
theorem reads_simple : Reads readSimple ts e rest ↔ ∃ t mid, ts = t :: mid ∧
    ((t.kind = .identifier ∧ Reads (readTest t.text) mid e rest) ∨
      ∃ value c f op, Value t value ∧ mid = c :: f :: rest ∧ c.kind = .operator op ∧
        f.kind = .identifier ∧ e = .compareLiteral f.text op.flip value) := by
  rw [readSimple, reads_peek_bind]
  cases ts with
  | nil => simp
  | cons t ts =>
    simp only [List.head?_cons, Option.map_some]
    constructor
    · intro h
      split at h
      · next hkind => cases hkind
      · next hkind =>
        obtain ⟨_, _, hname, h⟩ := reads_bind.1 h
        obtain ⟨_, hcons, ht, rfl⟩ := reads_identifier.1 hname
        cases hcons
        exact ⟨t, ts, rfl, .inl ⟨ht, h⟩⟩
      · simp only [reads_bind, reads_pure, Literal.reads_reader, reads_operator,
          reads_identifier] at h
        obtain ⟨value, _, ⟨_, hcons, hv⟩, op, _, ⟨c, rfl, hc⟩, _, _, ⟨f, rfl, hf, rfl⟩, rfl, rfl⟩ :=
          h
        cases hcons
        exact ⟨t, _, rfl, .inr ⟨value, c, f, op, hv, rfl, hc, hf, rfl⟩⟩
    · rintro ⟨_, _, hcons, ⟨ht, h⟩ | ⟨value, c, f, op, hv, rfl, hc, hf, rfl⟩⟩
      · cases hcons
        simp only [ht]
        exact reads_bind.2 ⟨_, _, reads_identifier.2 ⟨t, rfl, ht, rfl⟩, h⟩
      · cases hcons
        have hkind : t.kind ≠ .identifier := by rcases hv.kind with h | h | h | h <;> simp [h]
        split
        · next h => cases h
        · next h => exact (hkind (Option.some.inj h)).elim
        · simp only [reads_bind, reads_pure, Literal.reads_reader, reads_operator,
            reads_identifier]
          exact ⟨value, _, ⟨t, rfl, hv⟩, op, _, ⟨c, rfl, hc⟩, _, _, ⟨f, rfl, hf, rfl⟩, rfl, rfl⟩

theorem recognizes_simple : Recognizes readSimple Predicate [] := by
  refine recognizes_of_iff fun {ts e rest} => ?_
  rw [reads_simple]
  constructor
  · rintro ⟨t, mid, rfl, ⟨ht, h⟩ | ⟨value, c, f, op, hv, rfl, hc, hf, rfl⟩⟩
    · obtain ⟨w, rfl, hp⟩ := predicate_of_reads_test ht h
      exact ⟨t :: w, rfl, hp⟩
    · exact ⟨[t, c, f], rfl, .flipped hv hc (turned_iff.2 rfl) hf⟩
  · rintro ⟨w, rfl, h⟩
    obtain ⟨t, w, rfl, _⟩ := h.start
    refine ⟨t, w ++ rest, rfl, ?_⟩
    by_cases ht : t.kind = .identifier
    · exact .inl ⟨ht, reads_test_of_predicate ht h⟩
    · cases h with
      | flipped hv hc hturned hf =>
        obtain rfl := turned_iff.1 hturned
        exact .inr ⟨_, _, _, _, hv, rfl, hc, hf, rfl⟩
      | _ => exact (ht ‹_›).elim

end Expression

end SearchSql
