import SearchSql.Proofs.Parsing.Grammar
import SearchSql.Statement.Parser

/-!
What readers read. A successful reader takes some tokens off the front and leaves the others, and
what a sequence of readers takes is told by what each of them takes.
-/

namespace SearchSql

/-- Whether the tokens do not start with one of the given kind. -/
def NotNext (kind : TokenKind) (tokens : List Token) : Prop :=
  ∀ t ∈ tokens.head?, t.kind ≠ kind

@[simp] theorem notNext_nil (kind : TokenKind) : NotNext kind [] := by
  simp [NotNext]

@[simp] theorem notNext_cons {kind : TokenKind} {t : Token} {tokens : List Token} :
    NotNext kind (t :: tokens) ↔ t.kind ≠ kind := by
  simp [NotNext]

theorem NotNext.append {kind : TokenKind} {w rest : List Token} (hw : NotNext kind w)
    (hrest : NotNext kind rest) : NotNext kind (w ++ rest) := by
  cases w with
  | nil => exact hrest
  | cons t w => exact notNext_cons.2 (notNext_cons.1 hw)

namespace Reader

variable {α β : Type} {r : Reader α} {f : α → Reader β} {kind : TokenKind} {expected : String}
  {ts mid rest : List Token} {a : α} {b : β}

/-- The reader succeeds on `ts` with a value, and leaves the tokens `rest`. -/
def Reads (r : Reader α) (ts : List Token) (a : α) (rest : List Token) : Prop :=
  ∃ h : rest <:+ ts, r ts = .ok ⟨a, rest, h⟩

theorem Reads.length_le (h : Reads r ts a rest) : rest.length ≤ ts.length := by
  obtain ⟨hsuffix, _⟩ := h
  exact hsuffix.length_le

theorem reads_of_eq_ok {reading : Reading α ts} (h : r ts = .ok reading) :
    Reads r ts reading.value reading.rest := ⟨reading.suffix, h⟩

@[simp] theorem reads_pure {b : α} : Reads (pure a) ts b rest ↔ b = a ∧ rest = ts := by
  constructor
  · rintro ⟨_, h⟩
    cases h
    exact ⟨rfl, rfl⟩
  · rintro ⟨rfl, rfl⟩
    exact ⟨List.suffix_refl _, rfl⟩

@[simp] theorem reads_bind :
    Reads (r >>= f) ts b rest ↔ ∃ a mid, Reads r ts a mid ∧ Reads (f a) mid b rest := by
  change Reads (Reader.bind r f) ts b rest ↔ _
  constructor
  · rintro ⟨_, h⟩
    unfold Reader.bind at h
    split at h
    · cases h
    · next first hfirst =>
      split at h
      · cases h
      · next second hsecond =>
        cases h
        exact ⟨_, _, reads_of_eq_ok hfirst, reads_of_eq_ok hsecond⟩
  · rintro ⟨a, mid, ⟨hmid, ha⟩, ⟨hrest, hb⟩⟩
    refine ⟨hrest.trans hmid, ?_⟩
    simp only [Reader.bind, ha, hb]

@[simp] theorem reads_refuse : ¬ Reads (refuse expected : Reader α) ts a rest := by
  rintro ⟨_, h⟩
  cases h

@[simp] theorem reads_refuseAt : ¬ Reads (refuseAt mid expected : Reader α) ts a rest := by
  rintro ⟨_, h⟩
  cases h

@[simp] theorem reads_peek {k : Option TokenKind} :
    Reads peek ts k rest ↔ k = ts.head?.map Token.kind ∧ rest = ts := by
  constructor
  · rintro ⟨_, h⟩
    cases h
    exact ⟨rfl, rfl⟩
  · rintro ⟨rfl, rfl⟩
    exact ⟨List.suffix_refl _, rfl⟩

@[simp] theorem reads_accept_true :
    Reads (accept kind) ts true rest ↔ ∃ t, t.kind = kind ∧ ts = t :: rest := by
  constructor
  · rintro ⟨_, h⟩
    cases ts with
    | nil => cases h
    | cons t ts =>
      simp only [accept] at h
      split at h
      · next hkind =>
        cases h
        exact ⟨t, hkind, rfl⟩
      · cases h
  · rintro ⟨t, hkind, rfl⟩
    refine ⟨List.suffix_cons t rest, ?_⟩
    simp [accept, hkind]

@[simp] theorem reads_accept_false :
    Reads (accept kind) ts false rest ↔ NotNext kind ts ∧ rest = ts := by
  constructor
  · rintro ⟨_, h⟩
    cases ts with
    | nil =>
      cases h
      simp
    | cons t ts =>
      simp only [accept] at h
      split at h
      · cases h
      · next hkind =>
        cases h
        simpa using hkind
  · rintro ⟨hnext, rfl⟩
    refine ⟨List.suffix_refl _, ?_⟩
    cases rest with
    | nil => rfl
    | cons t ts => simp [accept, notNext_cons.1 hnext]

@[simp] theorem reads_endOfInput {u : Unit} : Reads endOfInput ts u rest ↔ ts = [] ∧ rest = [] := by
  constructor
  · rintro ⟨_, h⟩
    cases ts with
    | nil =>
      cases h
      exact ⟨rfl, rfl⟩
    | cons t ts => cases h
  · rintro ⟨rfl, rfl⟩
    exact ⟨List.suffix_refl _, rfl⟩

@[simp] theorem reads_takeMap {g : Token → Except String α} :
    Reads (takeMap expected g) ts a rest ↔ ∃ t, ts = t :: rest ∧ g t = .ok a := by
  constructor
  · rintro ⟨_, h⟩
    cases ts with
    | nil => cases h
    | cons t ts =>
      simp only [takeMap] at h
      split at h
      · next b hb =>
        cases h
        exact ⟨t, rfl, hb⟩
      · cases h
  · rintro ⟨t, rfl, ht⟩
    refine ⟨List.suffix_cons t rest, ?_⟩
    simp [takeMap, ht]

@[simp] theorem reads_textOf {s : String} :
    Reads (textOf kind expected) ts s rest ↔ ∃ t, ts = t :: rest ∧ t.kind = kind ∧ t.text = s := by
  have hkind (t : Token) : (if t.kind = kind then .ok t.text else .error expected) =
      (.ok s : Except String String) ↔ t.kind = kind ∧ t.text = s := by
    split <;> simp [*]
  simp only [textOf, reads_takeMap, hkind]

@[simp] theorem reads_expect {s : String} :
    Reads (expect kind) ts s rest ↔ ∃ t, ts = t :: rest ∧ t.kind = kind ∧ t.text = s :=
  reads_textOf

@[simp] theorem reads_identifier {s : String} :
    Reads (identifier expected) ts s rest ↔
      ∃ t, ts = t :: rest ∧ t.kind = .identifier ∧ t.text = s :=
  reads_textOf

/-- A reader that goes on as an optional token tells. -/
theorem reads_accept_bind {g : Bool → Reader α} :
    Reads (accept kind >>= g) ts a rest ↔
      (∃ t mid, t.kind = kind ∧ ts = t :: mid ∧ Reads (g true) mid a rest) ∨
        NotNext kind ts ∧ Reads (g false) ts a rest := by
  rw [reads_bind]
  constructor
  · rintro ⟨accepted, mid, haccept, hg⟩
    cases accepted with
    | true =>
      obtain ⟨t, hkind, rfl⟩ := reads_accept_true.1 haccept
      exact .inl ⟨t, mid, hkind, rfl, hg⟩
    | false =>
      obtain ⟨hnext, rfl⟩ := reads_accept_false.1 haccept
      exact .inr ⟨hnext, hg⟩
  · rintro (⟨t, mid, hkind, rfl, hg⟩ | ⟨hnext, hg⟩)
    · exact ⟨true, mid, reads_accept_true.2 ⟨t, hkind, rfl⟩, hg⟩
    · exact ⟨false, ts, reads_accept_false.2 ⟨hnext, rfl⟩, hg⟩

theorem reads_peek_bind {g : Option TokenKind → Reader α} :
    Reads (peek >>= g) ts a rest ↔ Reads (g (ts.head?.map Token.kind)) ts a rest := by
  rw [reads_bind]
  constructor
  · rintro ⟨_, _, hpeek, hg⟩
    obtain ⟨rfl, rfl⟩ := reads_peek.1 hpeek
    exact hg
  · intro hg
    exact ⟨_, ts, reads_peek.2 ⟨rfl, rfl⟩, hg⟩

theorem suffix_of_rest_eq {t : Token} (first : Reading α ts) (h : first.rest = t :: rest) :
    t :: rest <:+ ts := h ▸ first.suffix

theorem suffix_of_suffix_cons {t : Token} (others : Reading (List α) rest) (h : t :: rest <:+ ts) :
    others.rest <:+ ts := others.suffix.trans ((List.suffix_cons t rest).trans h)

/-- A thing, and more after a token of the given kind. The readers of lists and of runs of operands
all have this form. -/
def run (kind : TokenKind) (item : Reader α) (more : Reader (List β)) (g : α → β) :
    Reader (List β) := fun tokens =>
  match item tokens with
  | .error refusal => .error refusal
  | .ok first =>
    match _hr : first.rest with
    | [] => .ok ⟨[g first.value], [], List.nil_suffix⟩
    | next :: rest =>
      have hs : next :: rest <:+ tokens := suffix_of_rest_eq first _hr
      if next.kind = kind then
        match more rest with
        | .error refusal => .error refusal
        | .ok others =>
          .ok ⟨g first.value :: others.value, others.rest, suffix_of_suffix_cons others hs⟩
      else .ok ⟨[g first.value], next :: rest, hs⟩

/-- A run either goes on after a token of its kind, or ends where none follows. -/
theorem reads_run {item : Reader α} {more : Reader (List β)} {g : α → β} {bs : List β} :
    Reads (run kind item more g) ts bs rest ↔ ∃ a mid, Reads item ts a mid ∧
      ((∃ t mid' others, mid = t :: mid' ∧ t.kind = kind ∧ Reads more mid' others rest ∧
          bs = g a :: others) ∨
        NotNext kind mid ∧ bs = [g a] ∧ rest = mid) := by
  constructor
  · rintro ⟨_, h⟩
    unfold run at h
    split at h
    · cases h
    · next first hfirst =>
      refine ⟨first.value, first.rest, reads_of_eq_ok hfirst, ?_⟩
      split at h
      · next hr =>
        cases h
        exact .inr ⟨hr ▸ notNext_nil kind, rfl, hr.symm⟩
      · next next mid' hr =>
        simp only at h
        split at h
        · next hkind =>
          split at h
          · cases h
          · next others hothers =>
            cases h
            exact .inl ⟨next, mid', _, hr, hkind, reads_of_eq_ok hothers, rfl⟩
        · next hkind =>
          cases h
          exact .inr ⟨hr ▸ notNext_cons.2 hkind, rfl, hr.symm⟩
  · rintro ⟨a, mid, ⟨hmid, ha⟩, ⟨t, mid', others, rfl, hkind, ⟨hrest, ho⟩, rfl⟩ | ⟨hnext, rfl, rfl⟩⟩
    · refine ⟨hrest.trans ((List.suffix_cons t mid').trans hmid), ?_⟩
      simp [run, ha, hkind, ho]
    · refine ⟨hmid, ?_⟩
      cases rest with
      | nil => simp [run, ha]
      | cons t rest => simp [run, ha, notNext_cons.1 hnext]

theorem separated_eq_run : separated r = run .comma r (separated r) id := by
  funext ts
  rw [separated]
  rfl

/-- What the reader takes is a phrase, and it takes every phrase unless a token follows that could
belong to a longer one. -/
structure Recognizes (r : Reader α) (P : List Token → α → Prop) (extending : List TokenKind) :
    Prop where
  sound : ∀ {ts a rest}, Reads r ts a rest → ∃ w, ts = w ++ rest ∧ P w a
  complete : ∀ {w a rest}, P w a → (∀ k ∈ extending, NotNext k rest) →
    Reads r (w ++ rest) a rest

/-- A reader that never looks beyond the phrase it takes. -/
theorem recognizes_of_iff {P : List Token → α → Prop}
    (h : ∀ {ts a rest}, Reads r ts a rest ↔ ∃ w, ts = w ++ rest ∧ P w a) : Recognizes r P [] where
  sound hr := h.1 hr
  complete hp _ := h.2 ⟨_, rfl, hp⟩

namespace Recognizes

variable {P : List Token → α → Prop} {extending : List TokenKind}

theorem separated_sound {ts rest : List Token} {as : List α} (h : Recognizes r P extending)
    (hr : Reads (Reader.separated r) ts as rest) :
    ∃ w, ts = w ++ rest ∧ Grammar.Separated .comma P w as := by
  rw [separated_eq_run, reads_run] at hr
  obtain ⟨a, mid, ha, ⟨t, mid', others, rfl, hcomma, hothers, rfl⟩ | ⟨_, rfl, rfl⟩⟩ := hr
  · have hlength := ha.length_le
    obtain ⟨w', rfl, hp'⟩ := separated_sound h hothers
    obtain ⟨w, rfl, hp⟩ := h.sound ha
    exact ⟨w ++ t :: w', by simp, .more hp hcomma hp'⟩
  · obtain ⟨w, rfl, hp⟩ := h.sound ha
    exact ⟨w, rfl, .one hp⟩
termination_by ts.length
decreasing_by
  rw [List.length_cons] at hlength
  omega

/-- A run of phrases ends where no comma follows. -/
theorem separated (h : Recognizes r P extending) (hcomma : .comma ∉ extending) :
    Recognizes (Reader.separated r) (Grammar.Separated .comma P) (.comma :: extending) where
  sound hr := h.separated_sound hr
  complete {w as rest} hp hrest := by
    obtain ⟨hnext, hrest⟩ := List.forall_mem_cons.1 hrest
    induction hp with
    | @one ts a hp =>
      rw [separated_eq_run, reads_run]
      exact ⟨a, rest, h.complete hp hrest, .inr ⟨hnext, rfl, rfl⟩⟩
    | @more ts a t ts' as hp hk _ ih =>
      have hmore : ∀ k ∈ extending, NotNext k (t :: ts' ++ rest) := by
        intro k hmem
        simp only [List.cons_append, notNext_cons, hk]
        rintro rfl
        exact hcomma hmem
      rw [separated_eq_run, reads_run, List.append_assoc]
      exact ⟨a, _, h.complete hp hmore, .inl ⟨t, ts' ++ rest, as, rfl, hk, ih, rfl⟩⟩

end Recognizes

end Reader

end SearchSql
