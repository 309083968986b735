import Mathlib
import SearchSql.Report

/-!
Tables of hits. There is a column for each key and a row for each hit, and all lines are equally
long. Widths count bytes and padding counts characters, of which a text has no more than bytes.
-/

namespace SearchSql.Report

variable {hits : List Hit} {column : String} {w : Nat} {s : String}

/-- What a cell shows of the value that a source has for a key, or of a key that it lacks. -/
inductive Displays : Option Json → String → Prop
  | absent : Displays none ""
  | null : Displays (some .null) "NULL"
  | text {t : String} : Displays (some (.text t)) t
  | value {value} : value ≠ .null → (∀ s, value ≠ .text s) → Displays (some value) value.compact

theorem displays_cell (column : String) (h : Hit) :
    Displays (h.source.lookup column) (cell column h) := by
  rw [cell, Keyed.find?_eq_lookup]
  cases h.source.lookup column with
  | none => exact .absent
  | some value =>
    cases value with
    | null => exact .null
    | text s => exact .text
    | _ => exact .value (by simp) (by simp)

theorem length_le_utf8ByteSize (s : String) : s.length ≤ s.utf8ByteSize := by
  rw [← String.length_toList, ← String.ofList_toList (s := s)]
  generalize s.toList = cs
  rw [String.toList_ofList]
  induction cs with
  | nil => exact Nat.zero_le _
  | cons c cs ih =>
    have hc := c.utf8Size_pos
    rw [String.ofList_cons, String.utf8ByteSize_append, String.utf8ByteSize_singleton,
      List.length_cons]
    omega

/-- The running maximum only grows, and no cell that it has passed is wider. -/
theorem le_foldl_max (w : Nat) (hits : List Hit) :
    w ≤ hits.foldl (fun w h => max w (cell column h).utf8ByteSize) w ∧
      ∀ h ∈ hits, (cell column h).utf8ByteSize ≤
        hits.foldl (fun w h => max w (cell column h).utf8ByteSize) w := by
  induction hits generalizing w with
  | nil => simp
  | cons first hits ih =>
    obtain ⟨hgrows, hcells⟩ := ih (max w (cell column first).utf8ByteSize)
    rw [List.foldl_cons]
    constructor
    · omega
    · intro h hmem
      rcases List.mem_cons.1 hmem with rfl | hmem
      · omega
      · exact hcells h hmem

theorem length_column_le_width : column.length ≤ width hits column :=
  Nat.le_trans (length_le_utf8ByteSize column) (le_foldl_max _ hits).1

theorem length_cell_le_width {h : Hit} (hmem : h ∈ hits) :
    (cell column h).length ≤ width hits column :=
  Nat.le_trans (length_le_utf8ByteSize _) ((le_foldl_max _ hits).2 h hmem)

/-- A cell that shows a text: the text, and spaces behind it. -/
def Padded (s cell : String) : Prop := ∃ n, cell = s ++ String.ofList (List.replicate n ' ')

theorem padded_pad : Padded s (pad w s) := by
  refine ⟨w - s.toList.length, ?_⟩
  rw [pad, String.ofList_append, String.ofList_toList]

theorem length_pad (h : s.length ≤ w) : (pad w s).length = w := by
  rw [pad, String.length_ofList, List.length_append, List.length_replicate, String.length_toList]
  omega

/-- A line that shows texts in columns of certain widths. -/
def Shows (widths : List Nat) (texts : List String) (line : String) : Prop :=
  ∃ cells, List.Forall₂ Padded texts cells ∧ cells.map String.length = widths ∧
    line = String.intercalate " │ " cells

/-- A line of strokes below columns of certain widths. -/
def rule (widths : List Nat) : String :=
  String.intercalate "─┼─" (widths.map fun w => String.ofList (List.replicate w '─'))

theorem shows_row {layout : List (String × Nat)} {text : String → String}
    (h : ∀ column ∈ layout, (text column.1).length ≤ column.2) :
    Shows (layout.map Prod.snd) (layout.map fun column => text column.1) (row layout text) := by
  refine ⟨layout.map fun column => pad column.2 (text column.1), ?_, ?_, by rw [row]⟩
  · rw [List.forall₂_map_left_iff, List.forall₂_map_right_iff, List.forall₂_same]
    exact fun column _ => padded_pad
  · rw [List.map_map]
    refine List.map_congr_left fun column hmem => ?_
    rw [Function.comp_apply, length_pad (h column hmem)]

/-- Joined texts are as long as their parts tell, whatever characters stand between them. -/
theorem length_intercalate_congr {bar bar' : String} (hbar : bar.length = bar'.length) :
    ∀ {parts parts' : List String}, parts.map String.length = parts'.map String.length →
      (String.intercalate bar parts).length = (String.intercalate bar' parts').length
  | [], [], _ => by rw [String.intercalate_nil, String.intercalate_nil]
  | [s], [s'], h => by simpa using h
  | s :: t :: parts, s' :: t' :: parts', h => by
    obtain ⟨hs, hrest⟩ := List.cons.inj h
    have ih := length_intercalate_congr hbar hrest
    rw [String.intercalate_cons_cons, String.intercalate_cons_cons]
    simp only [String.length_append, hs, hbar, ih]
  | [], _ :: _, h | _ :: _, [], h | [_], _ :: _ :: _, h | _ :: _ :: _, [_], h => by simp at h

theorem Shows.length_eq {widths : List Nat} {texts : List String} {line : String}
    (h : Shows widths texts line) : line.length = (rule widths).length := by
  obtain ⟨cells, -, hwidths, rfl⟩ := h
  apply length_intercalate_congr (by decide)
  rw [List.map_map, ← hwidths, List.map_map]
  refine List.map_congr_left fun cell _ => ?_
  simp

/-- The keys of all sources, hit by hit. -/
def keys (hits : List Hit) : List String := hits.flatMap fun h => h.source.map Prod.fst

/-- What is left of a list without repetitions stands in the order of the first occurrences. -/
theorem pairwise_idxOf_eraseDups {α : Type} [BEq α] [LawfulBEq α] (as : List α) :
    as.eraseDups.Pairwise fun a b => as.idxOf a < as.idxOf b := by
  induction as using List.reverseRecOn with
  | nil => exact List.Pairwise.nil
  | append_singleton as a ih =>
    have hkept : ∀ b ∈ as.eraseDups, (as ++ [a]).idxOf b = as.idxOf b ∧ as.idxOf b < as.length := by
      intro b hb
      have hb := List.mem_eraseDups.1 hb
      exact ⟨List.idxOf_append_of_mem hb, List.idxOf_lt_length_of_mem hb⟩
    rw [List.eraseDups_append, List.pairwise_append]
    refine ⟨?_, ?_, ?_⟩
    · refine ih.imp_of_mem fun {b c} hb hc hlt => ?_
      rw [(hkept b hb).1, (hkept c hc).1]
      exact hlt
    · by_cases ha : a ∈ as <;> simp [List.removeAll, ha, List.eraseDups_cons]
    · intro b hb c hc
      have hc : c = a ∧ c ∉ as := by simpa [List.mem_eraseDups, List.removeAll] using hc
      obtain ⟨rfl, hnew⟩ := hc
      rw [(hkept b hb).1, List.idxOf_append_of_notMem hnew]
      exact Nat.lt_of_lt_of_le (hkept b hb).2 (Nat.le_add_right _ _)

theorem mem_columns {key : String} :
    key ∈ columns hits ↔ ∃ h ∈ hits, ∃ value, (key, value) ∈ h.source := by
  rw [columns, List.mem_eraseDups, List.mem_flatMap]
  simp

/-- A row of a table keeps to the widths of its columns, if no text is too long for its column. -/
theorem shows_row_layout {text : String → String}
    (h : ∀ column, (text column).length ≤ width hits column) :
    Shows ((layout hits).map Prod.snd) ((columns hits).map text) (row (layout hits) text) := by
  have htexts : (columns hits).map text = (layout hits).map fun column => text column.1 := by
    rw [layout, List.map_map]
    rfl
  rw [htexts]
  apply shows_row
  intro column hmem
  obtain ⟨name, -, rfl⟩ := List.mem_map.1 hmem
  exact h name

theorem table_eq (hits : List Hit) : table hits =
    row (layout hits) id :: rule ((layout hits).map Prod.snd) ::
      hits.map fun h => row (layout hits) fun column => cell column h := by
  rw [rule, List.map_map]
  rfl

/-- A table of hits has a column for each key of their sources, in the order in which the keys first
occur, and a row for each hit, which shows what its source has for every key. All lines have the
same number of characters. -/
theorem table_is_complete_and_rectangular (hits : List Hit) :
    (∀ key, key ∈ columns hits ↔ ∃ h ∈ hits, ∃ value, (key, value) ∈ h.source) ∧
    (columns hits).Nodup ∧
    (columns hits).Pairwise (fun a b => (keys hits).idxOf a < (keys hits).idxOf b) ∧
    ∃ widths header row,
      table hits = header :: rule widths :: hits.map row ∧
      Shows widths (columns hits) header ∧
      (∀ h ∈ hits, ∃ texts,
        List.Forall₂ (fun column => Displays (h.source.lookup column)) (columns hits) texts ∧
        Shows widths texts (row h)) ∧
      ∀ line ∈ table hits, line.length = (rule widths).length := by
  have hfirst : (columns hits).Pairwise fun a b => (keys hits).idxOf a < (keys hits).idxOf b :=
    pairwise_idxOf_eraseDups (keys hits)
  have hheader : Shows ((layout hits).map Prod.snd) ((columns hits).map id)
      (row (layout hits) id) := shows_row_layout fun _ => length_column_le_width
  have hrows (h : Hit) (hmem : h ∈ hits) : Shows ((layout hits).map Prod.snd)
      ((columns hits).map fun column => cell column h)
      (row (layout hits) fun column => cell column h) :=
    shows_row_layout fun _ => length_cell_le_width hmem
  have htexts (h : Hit) : List.Forall₂ (fun column => Displays (h.source.lookup column))
      (columns hits) ((columns hits).map fun column => cell column h) :=
    List.forall₂_map_right_iff.2 (List.forall₂_same.2 fun column _ => displays_cell column h)
  rw [List.map_id] at hheader
  refine ⟨fun _ => mem_columns, ?_, hfirst, _, _, _, table_eq hits, hheader,
    fun h hmem => ⟨_, htexts h, hrows h hmem⟩, ?_⟩
  · exact hfirst.imp fun hlt heq => absurd (heq ▸ hlt) (Nat.lt_irrefl _)
  · intro line hline
    rw [table_eq] at hline
    rcases List.mem_cons.1 hline with rfl | hline
    · exact hheader.length_eq
    rcases List.mem_cons.1 hline with rfl | hline
    · rfl
    · obtain ⟨h, hmem, rfl⟩ := List.mem_map.1 hline
      exact (hrows h hmem).length_eq

/-- The umlaut takes two bytes, so the first column is wider than any of its texts. The second hit
has no city, and an age that is null. -/
theorem table_of_uneven_hits :
    let hit (source : List (String × Json)) : Hit :=
      { index := "bank", docType := none, id := "1", score := none, source }
    let hits := [hit [("city", .text "Zürich"), ("age", .integer 36)], hit [("age", .null)]]
    table hits = ["city    │ age ", "────────┼─────", "Zürich  │ 36  ", "        │ NULL"] ∧
      ∀ line ∈ table hits, line.length = 14 := by
  intro hit hits
  have htable : table hits =
      ["city    │ age ", "────────┼─────", "Zürich  │ 36  ", "        │ NULL"] := by
    cbv
  refine ⟨htable, ?_⟩
  obtain ⟨_, _, _, _, _, _, _, _, _, hlength⟩ := table_is_complete_and_rectangular hits
  have hheader := hlength "city    │ age " (htable ▸ List.mem_cons_self)
  intro line hline
  rw [hlength line hline, ← hheader]
  rfl

end SearchSql.Report
