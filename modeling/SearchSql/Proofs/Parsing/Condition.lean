import SearchSql.Proofs.Parsing.Test

/-!
Reading a condition is deriving it. The readers of disjuncts, conjuncts, negations and primary
conditions each accept exactly the phrases of their part of the grammar.
-/

namespace SearchSql

open Grammar Reader

theorem Grammar.joined_iff {op : Connective} {es : List Expression} {e : Expression} :
    Joined op es e ↔ es ≠ [] ∧ e = Expression.join op es := by
  constructor
  · rintro (_ | _) <;> exact ⟨List.cons_ne_nil _ _, rfl⟩
  · rintro ⟨hne, rfl⟩
    match es, hne with
    | [e], _ => exact .one
    | e :: e' :: es, _ => exact .run

theorem Grammar.Conjuncts.ne_nil {w : List Token} {es : List Expression} (h : Conjuncts w es) :
    es ≠ [] := by
  cases h <;> exact List.cons_ne_nil _ _

theorem Grammar.Disjuncts.ne_nil {w : List Token} {es : List Expression} (h : Disjuncts w es) :
    es ≠ [] := by
  cases h <;> exact List.cons_ne_nil _ _

theorem Grammar.Primary.start {w : List Token} {e : Expression} (h : Primary w e) :
    ∃ t rest, w = t :: rest ∧ t.kind ≠ .keyword .not := by
  cases h with
  | @parens left ts right _ _ hleft => exact ⟨left, ts ++ [right], rfl, by simp [hleft]⟩
  | predicate hp =>
    obtain ⟨t, rest, rfl, ht | ⟨value, hv⟩⟩ := hp.start
    · exact ⟨t, rest, rfl, by simp [ht]⟩
    · exact ⟨t, rest, rfl, by rcases hv.kind with h | h | h | h <;> simp [h]⟩

namespace Expression

variable {ts rest : List Token} {e : Expression} {es : List Expression}

theorem readDisjuncts_eq_run :
    readDisjuncts = run (.keyword .or) readConjuncts readDisjuncts (join .and) := by
  funext ts
  rw [readDisjuncts, run]
  cases readConjuncts ts with
  | error => rfl
  | ok first =>
    obtain ⟨a, mid, hmid⟩ := first
    cases mid with
    | nil => rfl
    | cons t mid =>
      by_cases hkind : t.kind = .keyword .or
      · simp only [hkind, ↓reduceIte]
        cases readDisjuncts mid <;> rfl
      · simp only [hkind, ↓reduceIte]

theorem readConjuncts_eq_run :
    readConjuncts = run (.keyword .and) readNegation readConjuncts id := by
  funext ts
  rw [readConjuncts, run]
  cases readNegation ts with
  | error => rfl
  | ok first =>
    obtain ⟨a, mid, hmid⟩ := first
    cases mid with
    | nil => rfl
    | cons t mid =>
      by_cases hkind : t.kind = .keyword .and
      · simp only [hkind, ↓reduceIte]
        cases readConjuncts mid <;> rfl
      · simp only [hkind, ↓reduceIte, id_eq]

theorem reads_negation : Reads readNegation ts e rest ↔
    (∃ t mid e', ts = t :: mid ∧ t.kind = .keyword .not ∧ Reads readNegation mid e' rest ∧
      e = e'.not) ∨ NotNext (.keyword .not) ts ∧ Reads readPrimary ts e rest := by
  constructor
  · rintro ⟨hsuffix, h⟩
    rw [readNegation.eq_def] at h
    split at h
    · exact .inr ⟨notNext_nil _, hsuffix, h⟩
    · next t mid =>
      split at h
      · next hnot =>
        split at h
        · cases h
        · next operand hoperand =>
          cases h
          exact .inl ⟨t, mid, _, rfl, hnot, reads_of_eq_ok hoperand, rfl⟩
      · next hnot => exact .inr ⟨notNext_cons.2 hnot, hsuffix, h⟩
  · rintro (⟨t, mid, e', rfl, hnot, ⟨hsuffix, h⟩, rfl⟩ | ⟨hnext, hsuffix, h⟩)
    · refine ⟨hsuffix.trans (List.suffix_cons t mid), ?_⟩
      rw [readNegation.eq_def]
      simp [hnot, h]
    · refine ⟨hsuffix, ?_⟩
      rw [readNegation.eq_def]
      cases ts with
      | nil => exact h
      | cons t mid => simp [notNext_cons.1 hnext, h]

theorem reads_primary : Reads readPrimary ts e rest ↔
    (∃ left mid es right, ts = left :: mid ∧ left.kind = .leftParen ∧
      Reads readDisjuncts mid es (right :: rest) ∧ right.kind = .rightParen ∧ e = join .or es) ∨
      NotNext .leftParen ts ∧ Reads readSimple ts e rest := by
  constructor
  · rintro ⟨hsuffix, h⟩
    rw [readPrimary.eq_def] at h
    split at h
    · exact .inr ⟨notNext_nil _, hsuffix, h⟩
    · next left mid =>
      split at h
      · next hleft =>
        split at h
        · cases h
        · next inner hinner =>
          split at h
          · cases h
          · next closing hclosing =>
            cases h
            obtain ⟨right, hrest, hright, _⟩ := reads_expect.1 (reads_of_eq_ok hclosing)
            exact .inl ⟨left, mid, _, right, rfl, hleft, hrest ▸ reads_of_eq_ok hinner, hright, rfl⟩
      · next hleft => exact .inr ⟨notNext_cons.2 hleft, hsuffix, h⟩
  · rintro (⟨left, mid, es, right, rfl, hleft, ⟨hsuffix, h⟩, hright, rfl⟩ | ⟨hnext, hsuffix, h⟩)
    · obtain ⟨hclosing, hexpect⟩ : Reads (expect .rightParen) (right :: rest) right.text rest :=
        reads_expect.2 ⟨right, rfl, hright, rfl⟩
      refine ⟨hclosing.trans (hsuffix.trans (List.suffix_cons left mid)), ?_⟩
      rw [readPrimary.eq_def]
      simp [hleft, h, hexpect]
    · refine ⟨hsuffix, ?_⟩
      rw [readPrimary.eq_def]
      cases ts with
      | nil => exact h
      | cons left mid => simp [notNext_cons.1 hnext, h]

-- The four readers call each other on the same tokens only towards the tighter level, so the
-- tokens and the level decrease together, in these theorems as in the readers.
mutual

theorem disjuncts_of_reads {ts rest : List Token} {es : List Expression}
    (h : Reads readDisjuncts ts es rest) : ∃ w, ts = w ++ rest ∧ Disjuncts w es := by
  rw [readDisjuncts_eq_run, reads_run] at h
  obtain ⟨as, mid, ha, h⟩ := h
  have hlength := ha.length_le
  obtain ⟨w, hw, hp⟩ := conjuncts_of_reads ha
  have hjoin : Joined .and as (join .and as) := joined_iff.2 ⟨hp.ne_nil, rfl⟩
  obtain ⟨t, mid', ds, rfl, hor, hds, rfl⟩ | ⟨_, rfl, rfl⟩ := h
  · obtain ⟨w', rfl, hp'⟩ := disjuncts_of_reads hds
    exact ⟨w ++ t :: w', by simp [hw], .more hp hjoin hor hp'⟩
  · exact ⟨w, hw, .one hp hjoin⟩
termination_by (ts.length, 3)
decreasing_by
  · simp [Prod.lex_def]
  · simp only [List.length_cons] at hlength
    simp only [Prod.lex_def]
    omega

theorem conjuncts_of_reads {ts rest : List Token} {es : List Expression}
    (h : Reads readConjuncts ts es rest) : ∃ w, ts = w ++ rest ∧ Conjuncts w es := by
  rw [readConjuncts_eq_run, reads_run] at h
  obtain ⟨e, mid, he, h⟩ := h
  have hlength := he.length_le
  obtain ⟨w, hw, hp⟩ := negation_of_reads he
  obtain ⟨t, mid', es, rfl, hand, hes, rfl⟩ | ⟨_, rfl, rfl⟩ := h
  · obtain ⟨w', rfl, hp'⟩ := conjuncts_of_reads hes
    exact ⟨w ++ t :: w', by simp [hw], .more hp hand hp'⟩
  · exact ⟨w, hw, .one hp⟩
termination_by (ts.length, 2)
decreasing_by
  · simp [Prod.lex_def]
  · simp only [List.length_cons] at hlength
    simp only [Prod.lex_def]
    omega

theorem negation_of_reads {ts rest : List Token} {e : Expression}
    (h : Reads readNegation ts e rest) : ∃ w, ts = w ++ rest ∧ Negated w e := by
  obtain ⟨t, mid, e', hts, hnot, h', rfl⟩ | ⟨_, h'⟩ := reads_negation.1 h
  · have hlength : ts.length = mid.length + 1 := by rw [hts, List.length_cons]
    obtain ⟨w, rfl, hp⟩ := negation_of_reads h'
    exact ⟨t :: w, hts, .not hnot hp⟩
  · obtain ⟨w, hw, hp⟩ := primary_of_reads h'
    exact ⟨w, hw, .primary hp⟩
termination_by (ts.length, 1)
decreasing_by
  · simp only [Prod.lex_def]
    omega
  · simp [Prod.lex_def]

theorem primary_of_reads {ts rest : List Token} {e : Expression}
    (h : Reads readPrimary ts e rest) : ∃ w, ts = w ++ rest ∧ Primary w e := by
  obtain ⟨left, mid, es, right, hts, hleft, h', hright, rfl⟩ | ⟨_, h'⟩ := reads_primary.1 h
  · have hlength : ts.length = mid.length + 1 := by rw [hts, List.length_cons]
    obtain ⟨w, rfl, hp⟩ := disjuncts_of_reads h'
    exact ⟨left :: w ++ [right], by simp [hts],
      .parens hleft hp (joined_iff.2 ⟨hp.ne_nil, rfl⟩) hright⟩
  · obtain ⟨w, hw, hp⟩ := recognizes_simple.sound h'
    exact ⟨w, hw, .predicate hp⟩
termination_by (ts.length, 0)
decreasing_by
  simp only [Prod.lex_def]
  omega

end

mutual

theorem reads_of_disjuncts {w rest : List Token} {es : List Expression} (h : Disjuncts w es)
    (hor : NotNext (.keyword .or) rest) (hand : NotNext (.keyword .and) rest) :
    Reads readDisjuncts (w ++ rest) es rest := by
  rw [readDisjuncts_eq_run, reads_run]
  match w, h with
  | w, .one hp hjoin =>
    obtain ⟨_, rfl⟩ := joined_iff.1 hjoin
    exact ⟨_, rest, reads_of_conjuncts hp hand, .inr ⟨hor, rfl, rfl⟩⟩
  | _, @Disjuncts.more w as e t w' ds hp hjoin ht hds =>
    obtain ⟨_, rfl⟩ := joined_iff.1 hjoin
    have hnext : NotNext (.keyword .and) (t :: w' ++ rest) := by simp [ht]
    rw [List.append_assoc]
    exact ⟨as, _, reads_of_conjuncts hp hnext,
      .inl ⟨t, w' ++ rest, ds, rfl, ht, reads_of_disjuncts hds hor hand, rfl⟩⟩
termination_by (w.length, 3)
decreasing_by
  · simp [Prod.lex_def]
  all_goals
    simp only [List.length_append, List.length_cons, Prod.lex_def]
    omega

theorem reads_of_conjuncts {w rest : List Token} {es : List Expression} (h : Conjuncts w es)
    (hand : NotNext (.keyword .and) rest) : Reads readConjuncts (w ++ rest) es rest := by
  rw [readConjuncts_eq_run, reads_run]
  match w, h with
  | w, .one hp => exact ⟨_, rest, reads_of_negation hp, .inr ⟨hand, rfl, rfl⟩⟩
  | _, @Conjuncts.more w e t w' es hp ht hes =>
    rw [List.append_assoc]
    exact ⟨e, _, reads_of_negation hp,
      .inl ⟨t, w' ++ rest, es, rfl, ht, reads_of_conjuncts hes hand, rfl⟩⟩
termination_by (w.length, 2)
decreasing_by
  · simp [Prod.lex_def]
  all_goals
    simp only [List.length_append, List.length_cons, Prod.lex_def]
    omega

theorem reads_of_negation {w rest : List Token} {e : Expression} (h : Negated w e) :
    Reads readNegation (w ++ rest) e rest := by
  rw [reads_negation]
  match w, h with
  | _, @Negated.not t w e ht hp => exact .inl ⟨t, w ++ rest, e, rfl, ht, reads_of_negation hp, rfl⟩
  | w, .primary hp =>
    refine .inr ⟨?_, reads_of_primary hp⟩
    obtain ⟨t, w, rfl, ht⟩ := hp.start
    exact notNext_cons.2 ht
termination_by (w.length, 1)
decreasing_by
  · simp only [List.length_cons, Prod.lex_def]
    omega
  · simp [Prod.lex_def]

theorem reads_of_primary {w rest : List Token} {e : Expression} (h : Primary w e) :
    Reads readPrimary (w ++ rest) e rest := by
  rw [reads_primary]
  cases h with
  | @parens left w right es e hleft hp hjoin hright =>
    obtain ⟨_, rfl⟩ := joined_iff.1 hjoin
    have hor : NotNext (.keyword .or) (right :: rest) := by simp [hright]
    have hand : NotNext (.keyword .and) (right :: rest) := by simp [hright]
    exact .inl ⟨left, w ++ right :: rest, es, right, by simp, hleft,
      reads_of_disjuncts hp hor hand, hright, rfl⟩
  | predicate hp =>
    refine .inr ⟨?_, recognizes_simple.complete hp (by simp)⟩
    obtain ⟨t, w, rfl, ht | ⟨value, hv⟩⟩ := hp.start
    · simp [ht]
    · rcases hv.kind with h | h | h | h <;> simp [h]
termination_by (w.length, 0)
decreasing_by
  simp only [List.length_append, List.length_cons, Prod.lex_def]
  omega

end

/-- A condition ends where neither connective follows. -/
theorem recognizes_condition :
    Recognizes Expression.reader Condition [.keyword .or, .keyword .and] where
  sound {ts e rest} h := by
    obtain ⟨es, _, hes, he⟩ := reads_bind.1 h
    obtain ⟨rfl, rfl⟩ := reads_pure.1 he
    obtain ⟨w, rfl, hp⟩ := disjuncts_of_reads hes
    exact ⟨w, rfl, .mk hp (joined_iff.2 ⟨hp.ne_nil, rfl⟩)⟩
  complete {w e rest} h hrest := by
    obtain ⟨hp, hjoin⟩ := h
    obtain ⟨_, rfl⟩ := joined_iff.1 hjoin
    exact reads_bind.2 ⟨_, rest, reads_of_disjuncts hp (hrest _ (by simp)) (hrest _ (by simp)),
      reads_pure.2 ⟨rfl, rfl⟩⟩

end Expression

end SearchSql
