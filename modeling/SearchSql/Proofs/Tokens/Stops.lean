import Mathlib
import SearchSql.Proofs.Tokens.Spans

/-!
Where the lexer stops. The text in front of a failure has the tokens that were read so far, since
the longest lexeme stays the longest when the text behind it is cut off.
-/

namespace SearchSql

namespace Lexeme

variable {c : Char} {cs rest more span contents body : List Char} {kind : TokenKind}
  {cause : LexFault}

theorem Longest.cut {P : List Char → Prop} (h : Longest P span (rest ++ more)) :
    Longest P span rest := by
  refine ⟨h.1, fun other hfront hother => h.2 other ?_ hother⟩
  rw [← List.append_assoc]
  exact hfront.trans (List.prefix_append _ more)

/-- A spelling stays one when the text behind it is cut off. -/
theorem Spelled.cut (h : Spelled kind contents span (rest ++ more)) :
    Spelled kind contents span rest := by
  cases h with
  | number h => exact .number h.cut
  | operator hop h => exact .operator hop h.cut
  | keyword h hk => exact .keyword h.cut hk
  | word h hk => exact .word h.cut hk
  | punctuation h => exact .punctuation h
  | quotedName hne hname => exact .quotedName hne hname
  | text h => exact .text h

/-- Whether the last of the characters is a backslash that stands for what follows it. A backslash
behind such a one does not. -/
def escapesNext (body : List Char) : Bool :=
  body.foldl (fun escaping c => !escaping && c == '\\') false

/-- No quote closes the text that these characters start: in front of each there is a backslash
that stands for it. -/
def Unclosed (cs : List Char) : Prop :=
  ∀ body rest, cs = body ++ '\'' :: rest → escapesNext body = true

theorem escapesNext_escaped (c : Char) (body : List Char) :
    escapesNext ('\\' :: c :: body) = escapesNext body := by
  simp [escapesNext]

theorem escapesNext_cons (h : c ≠ '\\') (body : List Char) :
    escapesNext (c :: body) = escapesNext body := by
  have hplain : (c == '\\') = false := beq_false_of_ne h
  simp [escapesNext, hplain]

theorem not_unclosed_quote (rest : List Char) : ¬ Unclosed ('\'' :: rest) := by
  intro h
  exact absurd (h [] rest rfl) (by decide)

theorem unclosed_escaped_iff : Unclosed ('\\' :: c :: rest) ↔ Unclosed rest := by
  constructor
  · intro h body tail hrest
    subst hrest
    rw [← escapesNext_escaped c]
    exact h _ tail rfl
  · intro h body tail heq
    rcases body with _ | ⟨_, _ | ⟨_, body⟩⟩
    · cases heq
    · cases heq
      decide
    · cases heq
      rw [escapesNext_escaped]
      exact h body tail rfl

theorem unclosed_cons_iff (hquote : c ≠ '\'') (hescape : c ≠ '\\') :
    Unclosed (c :: rest) ↔ Unclosed rest := by
  constructor
  · intro h body tail hrest
    subst hrest
    rw [← escapesNext_cons hescape]
    exact h _ tail rfl
  · intro h body tail heq
    cases body with
    | nil =>
      cases heq
      exact (hquote rfl).elim
    | cons d body =>
      cases heq
      rw [escapesNext_cons hescape]
      exact h body tail rfl

/-- A quoted text is read up to its closing quote, if there is one. -/
theorem quoted?_eq_none_iff : quoted? cs = none ↔ Unclosed cs := by
  fun_induction quoted? cs with
  | case1 =>
    refine ⟨fun _ body rest hnil => ?_, fun _ => rfl⟩
    simp at hnil
  | case2 rest =>
    refine ⟨fun hnone => ?_, fun h => (not_unclosed_quote rest h).elim⟩
    cases hnone
  | case3 c rest ih => rw [Option.map_eq_none_iff, ih, unclosed_escaped_iff]
  | case4 c rest hquote hescape ih =>
    rw [Option.map_eq_none_iff, ih]
    by_cases hslash : c = '\\'
    · -- A backslash that ends the text stands for nothing, and no quote follows it.
      subst hslash
      cases rest with
      | nil =>
        refine ⟨fun _ body tail heq => ?_, fun _ body tail heq => by simp at heq⟩
        rcases body with _ | ⟨_, body⟩ <;> simp at heq
      | cons d rest => exact (hescape d rest rfl rfl).elim
    · exact (unclosed_cons_iff hquote hslash).symm

theorem quotedName_eq_error_iff : quotedName cs = .error cause ↔
    cause = .unterminatedName ∧ (cs.head? = some '\x60' ∨ '\x60' ∉ cs) := by
  have hempty : cs.takeWhile (· != '\x60') = [] ↔ cs = [] ∨ cs.head? = some '\x60' := by
    cases cs <;> simp
  have hopen : cs.dropWhile (· != '\x60') = [] ↔ '\x60' ∉ cs := by
    rw [List.dropWhile_eq_nil_iff]
    exact ⟨fun h hmem => by simpa using h _ hmem, fun h d hd => by
      rw [bne_iff_ne]
      rintro rfl
      exact h hd⟩
  unfold quotedName
  split
  · next hdrop =>
    have hname := hopen.1 hdrop
    simp [hname, eq_comm]
  · next d rest hdrop =>
    have hname : '\x60' ∈ cs := by
      by_contra hname
      simp [hopen.2 hname] at hdrop
    have hne : cs ≠ [] := List.ne_nil_of_mem hname
    dsimp only
    split
    · next htake => simp [(hempty.1 htake).resolve_left hne, eq_comm]
    · next htake =>
      rw [hempty, not_or] at htake
      simp [htake.2, hname]

theorem bare_eq_error (h : bare c cs = .error cause) : cause = .unrecognized c := by
  unfold bare at h
  split at h
  · cases h
  · split at h
    · cases h
    · split at h
      · cases h
      · split at h
        · cases h
        · cases h
          rfl

/-- Why no token starts with a character. -/
inductive Unreadable : Char → List Char → LexFault → Prop
  | text {after} : Unclosed after → Unreadable '\'' after .unterminatedText
  | name {after} : after.head? = some '\x60' ∨ '\x60' ∉ after →
      Unreadable '\x60' after .unterminatedName
  | other {d after} : d ≠ '\'' → d ≠ '\x60' → Unreadable d after (.unrecognized d)

theorem unreadable_of_read (h : read c cs = .error cause) : Unreadable c cs cause := by
  by_cases hquote : c = '\''
  · subst hquote
    simp only [read] at h
    split at h
    · cases h
    · next hnone =>
      cases h
      exact .text (quoted?_eq_none_iff.1 hnone)
  · by_cases hgrave : c = '\x60'
    · subst hgrave
      obtain ⟨rfl, hname⟩ := quotedName_eq_error_iff.1 h
      exact .name hname
    · rw [read_eq_bare hquote hgrave] at h
      rw [bare_eq_error h]
      exact .other hquote hgrave

theorem message_unrecognized (c : Char) : (LexFault.unrecognized c).message =
    "Unrecognized character '" ++ String.singleton c ++ "'" := by
  rw [String.singleton_eq_ofList]
  rfl

theorem message_unrecognized_ne (c : Char) :
    (LexFault.unrecognized c).message ≠ "Unterminated string literal" ∧
      (LexFault.unrecognized c).message ≠ "Unterminated quoted identifier" := by
  rw [message_unrecognized]
  constructor
  all_goals
    intro h
    have hchars := congrArg String.toList h
    simp at hchars

/-- The message tells which of the three it is. -/
theorem Unreadable.message_iff (h : Unreadable c cs cause) :
    (cause.message = "Unterminated string literal" ↔ c = '\'' ∧ Unclosed cs) ∧
    (cause.message = "Unterminated quoted identifier" ↔
      c = '\x60' ∧ (cs.head? = some '\x60' ∨ '\x60' ∉ cs)) ∧
    (¬ (c = '\'' ∧ Unclosed cs) → ¬ (c = '\x60' ∧ (cs.head? = some '\x60' ∨ '\x60' ∉ cs)) →
      cause.message = "Unrecognized character '" ++ String.singleton c ++ "'") := by
  cases h with
  | text hopen =>
    refine ⟨⟨fun _ => ⟨rfl, hopen⟩, fun _ => rfl⟩, ⟨fun h => ?_, fun h => ?_⟩, fun h => ?_⟩
    · exact absurd h (by decide)
    · exact absurd h.1 (by decide)
    · exact (h ⟨rfl, hopen⟩).elim
  | name hopen =>
    refine ⟨⟨fun h => ?_, fun h => ?_⟩, ⟨fun _ => ⟨rfl, hopen⟩, fun _ => rfl⟩, fun _ h => ?_⟩
    · exact absurd h (by decide)
    · exact absurd h.1 (by decide)
    · exact (h ⟨rfl, hopen⟩).elim
  | other hquote hgrave =>
    obtain ⟨htext, hname⟩ := message_unrecognized_ne c
    refine ⟨⟨fun h => (htext h).elim, fun h => (hquote h.1).elim⟩,
      ⟨fun h => (hname h).elim, fun h => (hgrave h.1).elim⟩, fun _ _ => message_unrecognized c⟩

end Lexeme

namespace Token

variable {before cs : List Char} {start : Nat} {sql : String} {err : Error}

/-- The lexer fails behind the tokens of what is in front, at a character that starts none. -/
theorem stops_of_ofCharsFrom (hstart : start = byteLength before)
    (h : ofCharsFrom start cs = .error err) :
    ∃ front c after cause ts, cs = front ++ c :: after ∧ Covers before front ts ∧
      err = .lex (byteLength (before ++ front)) cause ∧ Text.isBlank c = false ∧
      Lexeme.Unreadable c after cause := by
  fun_induction ofCharsFrom start cs generalizing before with
  | case1 => cases h
  | case2 start cs position c rest hdrop cause =>
    rename_i hread
    cases h
    have hsplit := List.takeWhile_append_dropWhile (p := Text.isBlank) (l := cs)
    have hblank := List.head?_dropWhile_not Text.isBlank cs
    rw [hdrop] at hsplit hblank
    refine ⟨cs.takeWhile Text.isBlank, c, rest, cause, [], hsplit.symm,
      .blanks fun _ => List.mem_takeWhile_imp, ?_, by simpa using hblank,
      Lexeme.unreadable_of_read hread⟩
    rw [byteLength_append, ← hstart]
  | case3 start cs position c rest hdrop l hread =>
    rename_i ih
    have hfails : ofCharsFrom (position + byteLength l.span) l.rest = .error err := by
      cases htail : ofCharsFrom (position + byteLength l.span) l.rest with
      | ok ts =>
        rw [htail] at h
        cases h
      | error err' =>
        rw [htail] at h
        cases h
        rfl
    have hsplit := List.takeWhile_append_dropWhile (p := Text.isBlank) (l := cs)
    have hposition : position = byteLength (before ++ cs.takeWhile Text.isBlank) := by
      rw [byteLength_append, ← hstart]
    have hnext : position + byteLength l.span =
        byteLength (before ++ cs.takeWhile Text.isBlank ++ l.span) := by
      rw [byteLength_append, ← hposition]
    obtain ⟨front, d, after, cause, ts, hrest, hcovers, rfl, hblank, hcause⟩ := ih hnext hfails
    have hspelled := Lexeme.spelled_of_read hread
    rw [hrest, ← String.toList_ofList (l := l.contents)] at hspelled
    rw [byteLength_eq_utf8ByteSize] at hposition
    refine ⟨cs.takeWhile Text.isBlank ++ l.span ++ front, d, after, cause,
      ⟨l.kind, String.ofList l.contents, position⟩ :: ts, ?_,
      .token (fun _ => List.mem_takeWhile_imp) l.span_ne_nil hposition hspelled.cut hcovers, ?_,
      hblank, hcause⟩
    · rw [List.append_assoc, ← hrest, List.append_assoc, l.span_append, ← hdrop, hsplit]
    · simp only [List.append_assoc]

/-- A text that the lexer refuses is fine up to the character that the failure points at. No token
starts there, and the message says why. -/
theorem lexError_where_reading_stops (h : ofText sql = .error err) :
    ∃ (front : String) (c : Char) (after : String) (cause : LexFault),
      sql = front ++ String.singleton c ++ after ∧ err = .lex front.utf8ByteSize cause ∧
      Text.isBlank c = false ∧ (∃ ts, ofText front = .ok ts) ∧
      (cause.message = "Unterminated string literal" ↔ c = '\'' ∧ Lexeme.Unclosed after.toList) ∧
      (cause.message = "Unterminated quoted identifier" ↔
        c = '\x60' ∧ (after.toList.head? = some '\x60' ∨ '\x60' ∉ after.toList)) ∧
      (¬ (c = '\'' ∧ Lexeme.Unclosed after.toList) →
        ¬ (c = '\x60' ∧ (after.toList.head? = some '\x60' ∨ '\x60' ∉ after.toList)) →
        cause.message = "Unrecognized character '" ++ String.singleton c ++ "'") := by
  have hstart : 0 = byteLength [] := rfl
  obtain ⟨front, c, after, cause, ts, hsql, hcovers, rfl, hblank, hcause⟩ :=
    stops_of_ofCharsFrom hstart h
  have htext : sql = String.ofList front ++ String.singleton c ++ String.ofList after := by
    apply String.toList_inj.1
    simp [hsql]
  have htokens : ofText (String.ofList front) = .ok ts := by
    rw [ofText_eq_ok_iff_covers, String.toList_ofList]
    exact hcovers
  have hmessage := hcause.message_iff
  rw [← String.toList_ofList (l := after)] at hmessage
  refine ⟨String.ofList front, c, String.ofList after, cause, htext, ?_, hblank, ⟨ts, htokens⟩,
    hmessage⟩
  rw [List.nil_append, byteLength_eq_utf8ByteSize]

/-- The last quote is escaped, so that the text is open. The one inside the name opens none. -/
theorem lexError_where_reading_stops_escaped :
    let sql := "\x60é'\x60<='it\\'"
    ofText sql = .error (.lex 7 .unterminatedText) ∧ ∃ front c after,
      sql = front ++ String.singleton c ++ after ∧ front.utf8ByteSize = 7 ∧
      (∃ ts, ofText front = .ok ts) ∧ c = '\'' ∧ Lexeme.Unclosed after.toList := by
  intro sql
  have herror : ofText sql = .error (.lex 7 .unterminatedText) := by cbv
  obtain ⟨front, c, after, cause, hsql, hlex, _, htokens, hmessage, _⟩ :=
    lexError_where_reading_stops herror
  obtain ⟨hposition, rfl⟩ := Error.lex.inj hlex
  obtain ⟨hquote, hopen⟩ := hmessage.1 rfl
  exact ⟨herror, front, c, after, hsql, hposition.symm, htokens, hquote, hopen⟩

end Token

end SearchSql
