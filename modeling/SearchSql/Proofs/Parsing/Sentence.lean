import SearchSql.Proofs.Parsing.Clauses

/-!
Reading a statement is deriving it: the reader accepts the sentences of the grammar and no others,
with the statement that the grammar gives them.
-/

namespace SearchSql

open Grammar Reader

namespace Grammar

variable {kind : TokenKind} {w : List Token}

theorem Optional.notNext {k : TokenKind} {there : Bool} (h : Grammar.Optional k w there)
    (hne : k ≠ kind) : NotNext kind w := by
  cases h with
  | absent => simp
  | present ht => simpa [ht] using hne

theorem Where.notNext {condition : Option Expression} (h : Where w condition)
    (hne : .keyword .where ≠ kind) : NotNext kind w := by
  cases h with
  | absent => simp
  | present ht => simpa [ht] using hne

theorem Order.notNext {keys : List SortKey} (h : Order w keys) (hne : .keyword .order ≠ kind) :
    NotNext kind w := by
  cases h with
  | absent => simp
  | present ho => simpa [ho] using hne

theorem Window.notNext {offset limit : Option Nat} (h : Window w offset limit)
    (hne : .keyword .limit ≠ kind) : NotNext kind w := by
  cases h with
  | absent => simp
  | limit hl => simpa [hl] using hne
  | offset hl => simpa [hl] using hne

end Grammar

namespace Statement

variable {ts : List Token} {s : Statement}

theorem sentence_of_reads {rest : List Token} (h : Reads reader ts s rest) :
    rest = [] ∧ Sentence ts s := by
  obtain ⟨_, _, hstart, h⟩ := reads_bind.1 h
  obtain ⟨projection, _, hprojection, h⟩ := reads_bind.1 h
  obtain ⟨_, _, hsources, h⟩ := reads_bind.1 h
  obtain ⟨targets, _, htargets, h⟩ := reads_bind.1 h
  obtain ⟨condition, _, hcondition, h⟩ := reads_bind.1 h
  obtain ⟨order, _, horder, h⟩ := reads_bind.1 h
  obtain ⟨⟨offset, limit⟩, _, hwindow, h⟩ := reads_bind.1 h
  obtain ⟨closed, _, hclosed, h⟩ := reads_bind.1 h
  obtain ⟨_, _, hend, hpure⟩ := reads_bind.1 h
  obtain ⟨rfl, rfl⟩ := reads_pure.1 hpure
  obtain ⟨rfl, rfl⟩ := reads_endOfInput.1 hend
  obtain ⟨select, rfl, hselect, _⟩ := reads_expect.1 hstart
  obtain ⟨ps, rfl, hps⟩ := recognizes_projection.sound hprojection
  obtain ⟨from_, rfl, hfrom, _⟩ := reads_expect.1 hsources
  obtain ⟨ss, rfl, hss⟩ := recognizes_target.separated_sound htargets
  obtain ⟨ws, rfl, hws⟩ := recognizes_where.sound hcondition
  obtain ⟨os, rfl, hos⟩ := recognizes_order.sound horder
  obtain ⟨ls, rfl, hls⟩ := recognizes_window.sound hwindow
  refine ⟨rfl, ?_⟩
  cases closed with
  | true =>
    obtain ⟨t, ht, rfl⟩ := reads_accept_true.1 hclosed
    have hsentence := Sentence.mk hselect hps hfrom hss hws hos hls (.present ht)
    simpa using hsentence
  | false =>
    obtain ⟨_, rfl⟩ := reads_accept_false.1 hclosed
    have hsentence := Sentence.mk hselect hps hfrom hss hws hos hls .absent
    simpa using hsentence

theorem reads_of_sentence (h : Sentence ts s) : Reads reader ts s [] := by
  obtain @⟨select, ps, from_, ss, ws, os, ls, es, closed, projection, targets, condition, order,
    offset, limit, hselect, hps, hfrom, hss, hws, hos, hls, hes⟩ := h
  have hend {k : TokenKind} (hsemicolon : .semicolon ≠ k) : NotNext k es := hes.notNext hsemicolon
  have hwindow {k : TokenKind} (hlimit : .keyword .limit ≠ k) (hsemicolon : .semicolon ≠ k) :
      NotNext k (ls ++ es) := (hls.notNext hlimit).append (hend hsemicolon)
  have horder {k : TokenKind} (ho : .keyword .order ≠ k) (hlimit : .keyword .limit ≠ k)
      (hsemicolon : .semicolon ≠ k) : NotNext k (os ++ (ls ++ es)) :=
    (hos.notNext ho).append (hwindow hlimit hsemicolon)
  simp only [List.cons_append, List.append_assoc]
  refine reads_bind.2 ⟨_, _, reads_expect.2 ⟨select, rfl, hselect, rfl⟩, ?_⟩
  refine reads_bind.2 ⟨projection, _, recognizes_projection.complete hps ?_, ?_⟩
  · simp [hfrom]
  refine reads_bind.2 ⟨_, _, reads_expect.2 ⟨from_, rfl, hfrom, rfl⟩, ?_⟩
  refine reads_bind.2 ⟨targets, _, (recognizes_target.separated (by simp)).complete hss ?_, ?_⟩
  · simp only [List.mem_cons, List.not_mem_nil, or_false, forall_eq_or_imp, forall_eq]
    constructor
    · exact (hws.notNext (by simp)).append (horder nofun nofun nofun)
    · exact (hws.notNext (by simp)).append (horder nofun nofun nofun)
  refine reads_bind.2 ⟨condition, _, recognizes_where.complete hws ?_, ?_⟩
  · simp only [List.mem_cons, List.not_mem_nil, or_false, forall_eq_or_imp, forall_eq]
    refine ⟨?_, ?_, ?_⟩ <;> exact horder nofun nofun nofun
  refine reads_bind.2 ⟨order, _, recognizes_order.complete hos ?_, ?_⟩
  · simp only [List.mem_cons, List.not_mem_nil, or_false, forall_eq_or_imp, forall_eq]
    refine ⟨?_, ?_, ?_, ?_⟩ <;> exact hwindow nofun nofun
  refine reads_bind.2 ⟨(offset, limit), _, recognizes_window.complete hls ?_, ?_⟩
  · simp only [List.mem_cons, List.not_mem_nil, or_false, forall_eq_or_imp, forall_eq]
    constructor <;> exact hend nofun
  refine reads_bind.2 ⟨closed, [], ?_, ?_⟩
  · cases hes with
    | absent => exact reads_accept_false.2 ⟨notNext_nil _, rfl⟩
    | @present t ht => exact reads_accept_true.2 ⟨t, ht, rfl⟩
  exact reads_bind.2 ⟨(), [], reads_endOfInput.2 ⟨rfl, rfl⟩, reads_pure.2 ⟨rfl, rfl⟩⟩

/-- Wherever the text ends, its tokens give the statement that they derive. -/
theorem ofTokensUpTo_eq_ok_iff {textEnd : Nat} :
    ofTokensUpTo textEnd ts = .ok s ↔ Sentence ts s := by
  unfold ofTokensUpTo
  constructor
  · intro h
    split at h
    · next reading hreading =>
      cases h
      exact (sentence_of_reads (reads_of_eq_ok hreading)).2
    · cases h
  · intro h
    obtain ⟨_, hreads⟩ := reads_of_sentence h
    simp only [hreads]

/-- The parser accepts exactly the sentences of the grammar, and gives each its statement. -/
theorem ofTokens_eq_ok_iff_sentence (ts : List Token) (s : Statement) :
    ofTokens ts = .ok s ↔ Sentence ts s := by
  rw [ofTokens, ofTokensUpTo_eq_ok_iff]

end Statement

end SearchSql
