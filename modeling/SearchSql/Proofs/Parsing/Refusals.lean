import SearchSql.Proofs.Parsing.Clauses

/-!
What readers refuse, and where. A sequence of readers refuses what its first part refuses, or what
the second part refuses of the tokens that the first one left.
-/

namespace SearchSql

namespace Reader

variable {α β γ : Type} {r r' : Reader α} {f : α → Reader β} {kind : TokenKind}
  {expected missing : String} {ts bad rest : List Token} {a : α} {b : β}

/-- The reader fails on `ts`, at the tokens `bad`. -/
def Refuses (r : Reader α) (ts bad : List Token) (expected : String) : Prop :=
  r ts = .error ⟨bad, expected⟩

theorem reads_or_refuses (r : Reader α) (ts : List Token) :
    (∃ a rest, Reads r ts a rest) ∨ ∃ bad expected, Refuses r ts bad expected := by
  cases h : r ts with
  | ok reading => exact .inl ⟨_, _, reads_of_eq_ok h⟩
  | error refusal => exact .inr ⟨_, _, h⟩

theorem Reads.unique {a' : α} {rest' : List Token} (h : Reads r ts a rest)
    (h' : Reads r ts a' rest') : a = a' ∧ rest = rest' := by
  obtain ⟨_, h⟩ := h
  obtain ⟨_, h'⟩ := h'
  rw [h] at h'
  cases h'
  exact ⟨rfl, rfl⟩

theorem Reads.not_refuses (h : Reads r ts a rest) : ¬ Refuses r ts bad expected := by
  obtain ⟨_, h⟩ := h
  intro h'
  cases h.symm.trans h'

/-- Readers that read and refuse alike are the same. -/
theorem eq_of_reads_of_refuses (hreads : ∀ {ts a rest}, Reads r ts a rest → Reads r' ts a rest)
    (hrefuses : ∀ {ts bad expected}, Refuses r ts bad expected → Refuses r' ts bad expected) :
    r = r' := by
  funext ts
  rcases reads_or_refuses r ts with ⟨a, rest, h⟩ | ⟨bad, expected, h⟩
  · obtain ⟨_, h'⟩ := hreads h
    obtain ⟨_, h⟩ := h
    rw [h, h']
  · exact h.trans (hrefuses h).symm

@[simp] theorem refuses_pure : ¬ Refuses (pure a) ts bad expected := nofun

@[simp] theorem refuses_bind : Refuses (r >>= f) ts bad expected ↔
    Refuses r ts bad expected ∨ ∃ a mid, Reads r ts a mid ∧ Refuses (f a) mid bad expected := by
  change Reader.bind r f ts = _ ↔ _
  unfold Reader.bind
  rcases reads_or_refuses r ts with ⟨a, mid, h⟩ | ⟨bad', expected', h⟩
  · obtain ⟨_, hr⟩ := id h
    simp only [hr]
    constructor
    · intro hbind
      refine .inr ⟨a, mid, h, ?_⟩
      split at hbind
      · next hf =>
        cases hbind
        exact hf
      · cases hbind
    · rintro (hrefuses | ⟨_, _, h', hf⟩)
      · exact (h.not_refuses hrefuses).elim
      · obtain ⟨rfl, rfl⟩ := h.unique h'
        rw [hf]
  · have hr : r ts = _ := h
    simp only [hr]
    constructor
    · intro hbind
      cases hbind
      exact .inl h
    · rintro (hrefuses | ⟨_, _, h', _⟩)
      · cases h.symm.trans hrefuses
        rfl
      · exact (h'.not_refuses h).elim

/-- Behind a reader that reads, the next one refuses. -/
theorem Reads.refuses_bind_iff (h : Reads r ts a rest) :
    Refuses (r >>= f) ts bad expected ↔ Refuses (f a) rest bad expected := by
  rw [refuses_bind]
  constructor
  · rintro (hr | ⟨_, _, h', hf⟩)
    · exact (h.not_refuses hr).elim
    · obtain ⟨rfl, rfl⟩ := h.unique h'
      exact hf
  · intro hf
    exact .inr ⟨a, rest, h, hf⟩

theorem refuses_map {g : α → β} :
    Refuses (r >>= fun a => pure (g a)) ts bad expected ↔ Refuses r ts bad expected := by
  simp

@[simp] theorem refuses_refuse :
    Refuses (refuse missing : Reader α) ts bad expected ↔ bad = ts ∧ expected = missing := by
  constructor
  · intro h
    cases h
    exact ⟨rfl, rfl⟩
  · rintro ⟨rfl, rfl⟩
    rfl

@[simp] theorem refuses_refuseAt {start : List Token} :
    Refuses (refuseAt start missing : Reader α) ts bad expected ↔
      bad = start ∧ expected = missing := by
  constructor
  · intro h
    cases h
    exact ⟨rfl, rfl⟩
  · rintro ⟨rfl, rfl⟩
    rfl

@[simp] theorem refuses_peek : ¬ Refuses peek ts bad expected := nofun

@[simp] theorem refuses_accept : ¬ Refuses (accept kind) ts bad expected := by
  intro h
  cases ts with
  | nil => cases h
  | cons t ts =>
    simp only [Refuses, accept] at h
    split at h <;> cases h

theorem refuses_endOfInput :
    Refuses endOfInput ts bad expected ↔ ts ≠ [] ∧ bad = ts ∧ expected = "end of input" := by
  cases ts with
  | nil => exact iff_of_false nofun (by simp)
  | cons t ts =>
    constructor
    · intro h
      cases h
      exact ⟨List.cons_ne_nil _ _, rfl, rfl⟩
    · rintro ⟨_, rfl, rfl⟩
      rfl

/-- One token is missing, or is refused where it stands. -/
theorem refuses_takeMap {g : Token → Except String α} :
    Refuses (takeMap missing g) ts bad expected ↔ bad = ts ∧
      ((ts = [] ∧ expected = missing) ∨ ∃ t rest, ts = t :: rest ∧ g t = .error expected) := by
  cases ts with
  | nil =>
    constructor
    · intro h
      cases h
      exact ⟨rfl, .inl ⟨rfl, rfl⟩⟩
    · rintro ⟨rfl, ⟨_, rfl⟩ | ⟨_, _, h, _⟩⟩
      · rfl
      · cases h
  | cons t ts =>
    simp only [Refuses, takeMap]
    cases h : g t with
    | ok a =>
      constructor
      · intro h'
        cases h'
      · rintro ⟨_, ⟨h', _⟩ | ⟨_, _, h', herror⟩⟩
        · cases h'
        · cases h'
          cases h.symm.trans herror
    | error e =>
      constructor
      · intro h'
        cases h'
        exact ⟨rfl, .inr ⟨t, ts, rfl, h⟩⟩
      · rintro ⟨rfl, ⟨h', _⟩ | ⟨_, _, h', herror⟩⟩
        · cases h'
        · cases h'
          cases h.symm.trans herror
          rfl

theorem refuses_textOf : Refuses (textOf kind missing) ts bad expected ↔
    NotNext kind ts ∧ bad = ts ∧ expected = missing := by
  rw [textOf, refuses_takeMap]
  cases ts with
  | nil => simp
  | cons t ts =>
    by_cases hkind : t.kind = kind
    · simp [hkind]
    · simp [hkind, @eq_comm _ missing]

theorem refuses_expect : Refuses (expect kind) ts bad expected ↔
    NotNext kind ts ∧ bad = ts ∧ expected = kind.name := refuses_textOf

/-- A reader that goes on as an optional token tells refuses what it goes on with. -/
theorem refuses_accept_bind {g : Bool → Reader α} :
    Refuses (accept kind >>= g) ts bad expected ↔
      (∃ t mid, t.kind = kind ∧ ts = t :: mid ∧ Refuses (g true) mid bad expected) ∨
        NotNext kind ts ∧ Refuses (g false) ts bad expected := by
  rw [refuses_bind]
  constructor
  · rintro (h | ⟨accepted, mid, haccept, hg⟩)
    · exact (refuses_accept h).elim
    · cases accepted with
      | true =>
        obtain ⟨t, hkind, rfl⟩ := reads_accept_true.1 haccept
        exact .inl ⟨t, mid, hkind, rfl, hg⟩
      | false =>
        obtain ⟨hnext, rfl⟩ := reads_accept_false.1 haccept
        exact .inr ⟨hnext, hg⟩
  · rintro (⟨t, mid, hkind, rfl, hg⟩ | ⟨hnext, hg⟩)
    · exact .inr ⟨true, mid, reads_accept_true.2 ⟨t, hkind, rfl⟩, hg⟩
    · exact .inr ⟨false, ts, reads_accept_false.2 ⟨hnext, rfl⟩, hg⟩

theorem refuses_peek_bind {g : Option TokenKind → Reader α} :
    Refuses (peek >>= g) ts bad expected ↔
      Refuses (g (ts.head?.map Token.kind)) ts bad expected :=
  (reads_peek.2 ⟨rfl, rfl⟩).refuses_bind_iff

/-- A run as a sequence of readers. -/
theorem run_eq_bind {item : Reader α} {more : Reader (List β)} {g : α → β} :
    run kind item more g = (do
      let a ← item
      if ← accept kind then return g a :: (← more) else return [g a]) := by
  apply eq_of_reads_of_refuses
  · intro ts bs rest h
    obtain ⟨a, mid, ha, h⟩ := reads_run.1 h
    refine reads_bind.2 ⟨a, mid, ha, reads_accept_bind.2 ?_⟩
    obtain ⟨t, mid', others, rfl, hkind, hmore, rfl⟩ | ⟨hnext, rfl, rfl⟩ := h
    · exact .inl ⟨t, mid', hkind, rfl,
        reads_bind.2 ⟨others, rest, hmore, reads_pure.2 ⟨rfl, rfl⟩⟩⟩
    · exact .inr ⟨hnext, reads_pure.2 ⟨rfl, rfl⟩⟩
  · intro ts bad expected h
    unfold Refuses run at h
    split at h
    · next hitem =>
      cases h
      exact refuses_bind.2 (.inl hitem)
    · next first hfirst =>
      refine (reads_of_eq_ok hfirst).refuses_bind_iff.2 (refuses_accept_bind.2 ?_)
      split at h
      · cases h
      · next t mid hr =>
        simp only at h
        split at h
        · next hkind =>
          split at h
          · next hmore =>
            cases h
            exact .inl ⟨t, mid, hkind, hr, refuses_bind.2 (.inl hmore)⟩
          · cases h
        · cases h

instance : LawfulMonad Reader := LawfulMonad.mk' Reader
  (fun r => by
    funext ts
    change Reader.bind r Reader.pure ts = r ts
    unfold Reader.bind
    cases r ts <;> rfl)
  (fun a f => by
    funext ts
    change Reader.bind (Reader.pure a) f ts = f a ts
    simp only [Reader.bind, Reader.pure]
    cases f a ts <;> rfl)
  (fun r f g => by
    funext ts
    change Reader.bind (Reader.bind r f) g ts = Reader.bind r (fun a => Reader.bind (f a) g) ts
    simp only [Reader.bind]
    cases r ts with
    | error => rfl
    | ok first =>
      simp only
      cases f first.value first.rest with
      | error => rfl
      | ok second =>
        simp only
        cases g second.value second.rest <;> rfl)

theorem bind_apply_congr (h : r ts = r' ts) : (r >>= f) ts = (r' >>= f) ts := by
  change Reader.bind r f ts = Reader.bind r' f ts
  simp only [Reader.bind, h]

/-- Goes on with what a check makes of a value. A fault of the check is reported where reading
began. -/
def checked (r : Reader α) (check : α → Except String γ) (f : γ → Reader β) : Reader β :=
  fun tokens => (do
    match check (← r) with
    | .ok c => f c
    | .error missing => refuseAt tokens missing : Reader β) tokens

section checked

variable {check : α → Except String γ} {f : γ → Reader β}

theorem checked_apply : checked r check f ts = (r >>= fun a => match check a with
    | .ok c => f c
    | .error missing => refuseAt ts missing) ts := rfl

theorem reads_checked : Reads (checked r check f) ts b rest ↔
    ∃ a mid c, Reads r ts a mid ∧ check a = .ok c ∧ Reads (f c) mid b rest := by
  rw [Reads, checked_apply, ← Reads, reads_bind]
  refine exists_congr fun a => exists_congr fun mid => ?_
  cases check a <;> simp

theorem refuses_checked : Refuses (checked r check f) ts bad expected ↔
    Refuses r ts bad expected ∨ ∃ a mid, Reads r ts a mid ∧
      ((check a = .error expected ∧ bad = ts) ∨
        ∃ c, check a = .ok c ∧ Refuses (f c) mid bad expected) := by
  rw [Refuses, checked_apply, ← Refuses, refuses_bind]
  refine or_congr_right (exists_congr fun a => exists_congr fun mid => and_congr_right fun _ => ?_)
  cases check a <;> simp [and_comm, eq_comm]

end checked

end Reader

namespace Expression

open Reader

theorem readNegation_eq : readNegation = (do
    if ← accept (.keyword .not) then return .not (← readNegation) else readPrimary
      : Reader Expression) := by
  apply eq_of_reads_of_refuses
  · intro ts e rest h
    refine reads_accept_bind.2 ?_
    obtain ⟨t, mid, e', rfl, hnot, h', rfl⟩ | h' := reads_negation.1 h
    · exact .inl ⟨t, mid, hnot, rfl, reads_bind.2 ⟨e', rest, h', reads_pure.2 ⟨rfl, rfl⟩⟩⟩
    · exact .inr h'
  · intro ts bad expected h
    refine refuses_accept_bind.2 ?_
    rw [Refuses, readNegation.eq_def] at h
    split at h
    · exact .inr ⟨notNext_nil _, h⟩
    · next t mid =>
      split at h
      · next hnot =>
        split at h
        · next hoperand =>
          cases h
          exact .inl ⟨t, mid, hnot, rfl, refuses_bind.2 (.inl hoperand)⟩
        · cases h
      · next hnot => exact .inr ⟨notNext_cons.2 hnot, h⟩

theorem readPrimary_eq : readPrimary = (do
    if ← accept .leftParen then
      let es ← readDisjuncts
      let _ ← expect .rightParen
      return join .or es
    else readSimple : Reader Expression) := by
  apply eq_of_reads_of_refuses
  · intro ts e rest h
    refine reads_accept_bind.2 ?_
    obtain ⟨left, mid, es, right, rfl, hleft, h', hright, rfl⟩ | h' := reads_primary.1 h
    · have hclosed : Reads (expect .rightParen) (right :: rest) right.text rest :=
        reads_expect.2 ⟨right, rfl, hright, rfl⟩
      exact .inl ⟨left, mid, hleft, rfl, reads_bind.2 ⟨es, _, h',
        reads_bind.2 ⟨_, rest, hclosed, reads_pure.2 ⟨rfl, rfl⟩⟩⟩⟩
    · exact .inr h'
  · intro ts bad expected h
    refine refuses_accept_bind.2 ?_
    rw [Refuses, readPrimary.eq_def] at h
    split at h
    · exact .inr ⟨notNext_nil _, h⟩
    · next left mid =>
      split at h
      · next hleft =>
        refine .inl ⟨left, mid, hleft, rfl, ?_⟩
        split at h
        · next hinner =>
          cases h
          exact refuses_bind.2 (.inl hinner)
        · next inner hinner =>
          refine (reads_of_eq_ok hinner).refuses_bind_iff.2 ?_
          split at h
          · next hclosing =>
            cases h
            exact refuses_bind.2 (.inl hclosing)
          · cases h
      · next hleft => exact .inr ⟨notNext_cons.2 hleft, h⟩

end Expression

end SearchSql
