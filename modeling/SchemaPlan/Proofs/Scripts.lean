import SchemaPlan.Plan.Script
import SchemaPlan.Proofs.Classification
import SchemaPlan.Proofs.IndexNames
set_option autoImplicit false

/-!
# What a script runs

A script shows each statement under a comment, and the statement that creates a table goes
over several lines.  No line of a statement is empty or begins as a comment does: the first
begins with a keyword, and those behind it with a tab or with a parenthesis.  So what is
left of a script without its comments and its empty lines are the statements of the
comparison, in order and as they are (`withoutComments_script`), provided that no text in
the schemas breaks a line.
-/

namespace SchemaPlan

/-! ## Texts on one line -/

/-- A text has no line break. -/
def OneLine (text : String) : Prop := '\n' ∉ text.toList

instance (text : String) : Decidable (OneLine text) :=
  inferInstanceAs (Decidable ('\n' ∉ text.toList))

namespace OneLine

variable {a b : String}

theorem append (ha : OneLine a) (hb : OneLine b) : OneLine (a ++ b) := by
  rw [OneLine, String.toList_append, List.mem_append, not_or]
  exact ⟨ha, hb⟩

theorem clause {words value : String} (hwords : OneLine words) (hvalue : OneLine value) :
    OneLine (clause words value) := by
  unfold SchemaPlan.clause
  split
  · decide
  · exact hwords.append hvalue

theorem quoteIdentifier {name : String} (h : OneLine name) : OneLine (quoteIdentifier name) :=
  (append (by decide) h).append (by decide)

theorem toString_nat (n : Nat) : OneLine (toString n) := by
  rw [OneLine, Nat.toString_eq_repr, Nat.toList_repr]
  intro h
  exact absurd (Nat.isDigit_of_mem_toDigits (by decide) (by decide) h) (by decide)

end OneLine

theorem mem_doubleQuotes {c : Char} : ∀ {text : List Char}, c ∈ doubleQuotes text → c ∈ text
  | d :: rest, h => by
    unfold doubleQuotes at h
    split at h
    · rcases List.mem_cons.1 h with rfl | h
      · exact List.mem_cons_self
      · rcases List.mem_cons.1 h with rfl | h
        · exact List.mem_cons_self
        · exact List.mem_cons_of_mem _ (mem_doubleQuotes h)
    · rcases List.mem_cons.1 h with rfl | h
      · exact List.mem_cons_self
      · exact List.mem_cons_of_mem _ (mem_doubleQuotes h)

theorem OneLine.quoteLiteral {text : String} (h : OneLine text) :
    OneLine (quoteLiteral text) := by
  rw [OneLine, SchemaPlan.quoteLiteral, String.toList_ofList]
  intro hbreak
  rcases List.mem_append.1 hbreak with hbreak | hbreak
  · rcases List.mem_cons.1 hbreak with hquote | hbreak
    · exact absurd hquote (by decide)
    · exact h (mem_doubleQuotes hbreak)
  · exact absurd hbreak (by decide)

/-- Replacing brings in nothing but the value. -/
theorem Text.mem_replaceFrom {pattern value : List Char} {c : Char} :
    ∀ {skip : Nat} {text : List Char}, c ∈ replaceFrom pattern value skip text →
      c ∈ value ∨ c ∈ text
  | skip, [], h => by
    rw [replaceFrom_nil] at h
    exact absurd h List.not_mem_nil
  | skip + 1, _ :: rest, h => by
    rw [replaceFrom] at h
    exact (mem_replaceFrom h).imp id (List.mem_cons_of_mem _)
  | 0, d :: rest, h => by
    unfold replaceFrom at h
    split at h
    · rcases List.mem_append.1 h with h | h
      · exact .inl h
      · exact (mem_replaceFrom h).imp id (List.mem_cons_of_mem _)
    · rcases List.mem_cons.1 h with rfl | h
      · exact .inr List.mem_cons_self
      · exact (mem_replaceFrom h).imp id (List.mem_cons_of_mem _)

theorem OneLine.indexName {table column : String} (htable : OneLine table)
    (hcolumn : OneLine column) (kind : IndexKind) : OneLine (kind.indexName table column) := by
  rw [OneLine, IndexKind.toList_indexName]
  intro hbreak
  rcases List.mem_append.1 hbreak with hbreak | hbreak
  · exact absurd hbreak (by cases kind <;> decide)
  · rcases List.mem_append.1 hbreak with hbreak | hbreak
    · exact (Text.mem_replaceFrom hbreak).elim hcolumn htable
    · rcases List.mem_cons.1 hbreak with hdash | hbreak
      · exact absurd hdash (by decide)
      · exact hcolumn hbreak

/-! ## Texts in a schema -/

/-- The texts of a column. -/
def Column.texts (c : Column) : List String :=
  [c.name, c.default, c.dataType, c.charSet, c.collation, c.columnType, c.extra]

/-- The texts of a table, the keys of its columns among them. -/
def Table.texts (t : Table) : List String :=
  [t.name, t.engine, t.rowFormat, t.collation, t.characterSet]
    ++ t.columns.entries.flatMap fun e => e.1 :: e.2.texts

/-- The texts of a schema, the keys of its tables among them. -/
def Schema.texts (s : Schema) : List String :=
  [s.name, s.defaultCharacterSet, s.defaultCollation]
    ++ s.tables.entries.flatMap fun e => e.1 :: e.2.texts

/-- The texts that the text of a statement is made of. -/
def Statement.texts : Statement → List String
  | alterDatabase text characterSet collation | convertTable text characterSet collation =>
    [text, characterSet, collation]
  | createTable table => table.texts
  | dropTable table | dropPrimaryKey table => [table]
  | renameTable old new => [old, new]
  | addColumn table column => table :: column.texts
  | changeColumn table old column => table :: old :: column.texts
  | dropColumn table column | addIndex _ table column | dropIndex _ table column
  | addPrimaryKey table column => [table, column]

namespace Column

variable {c : Column} (h : ∀ text ∈ c.texts, OneLine text)
include h

theorem oneLine_typeText : OneLine c.typeText := by
  have htype : OneLine c.dataType := h _ (by simp [texts])
  have hsign : OneLine c.signWord := by
    unfold signWord
    split <;> decide
  unfold typeText
  cases c.type? with
  | none => exact htype
  | some k =>
    dsimp only
    split
    · exact (((htype.append (by decide)).append (.toString_nat _)).append
        (by decide)).append hsign
    · split
      · exact (((((htype.append (by decide)).append (.toString_nat _)).append
          (by decide)).append (.toString_nat _)).append (by decide)).append hsign
      · split
        · exact h _ (by simp [texts])
        · split
          · exact ((htype.append (by decide)).append (.toString_nat _)).append (by decide)
          · exact htype

theorem oneLine_defaultText {text : String} (htext : c.defaultText? = some text) :
    OneLine text := by
  have hdefault : OneLine c.default := h _ (by simp [texts])
  unfold defaultText? at htext
  split at htext
  · obtain rfl := Option.some.inj htext
    split
    · exact hdefault
    · exact hdefault.quoteLiteral
  · split at htext
    · exact nomatch htext
    · exact Option.some.inj htext ▸ hdefault

/-- The definition of a column is one line. -/
theorem oneLine_definition : OneLine c.definition := by
  have hname : OneLine c.name := h _ (by simp [texts])
  have hcharSet : OneLine c.charSet := h _ (by simp [texts])
  have hcollation : OneLine c.collation := h _ (by simp [texts])
  have hextra : OneLine c.extra := h _ (by simp [texts])
  refine (((((hname.quoteIdentifier.append (by decide)).append (oneLine_typeText h)).append
    (.clause (by decide) hcharSet)).append
    (.clause (by decide) hcollation)).append ?_).append ?_
    |>.append (.clause (by decide) hextra)
  · split <;> decide
  · split
    · next htext => exact OneLine.append (by decide) (oneLine_defaultText h htext)
    · decide

end Column

namespace Table

theorem texts_of_get? {t : Table} {key text : String} {c : Column}
    (hget : t.columns.get? key = some c) (h : text = key ∨ text ∈ c.texts) : text ∈ t.texts :=
  List.mem_append_right _
    (List.mem_flatMap.2 ⟨(key, c), Keyed.get?_eq_some_iff.1 hget, List.mem_cons.2 h⟩)

theorem texts_of_mem_sortedColumns {t : Table} {c : Column} {text : String}
    (hc : c ∈ t.sortedColumns) (h : text ∈ c.texts) : text ∈ t.texts := by
  obtain ⟨e, he, rfl⟩ := List.mem_map.1 (t.sortedColumns_perm.mem_iff.1 hc)
  exact texts_of_get? (Keyed.get?_eq_some_iff.2 he) (.inr h)

end Table

theorem Schema.texts_of_get? {s : Schema} {key text : String} {t : Table}
    (hget : s.tables.get? key = some t) (h : text = key ∨ text ∈ t.texts) : text ∈ s.texts :=
  List.mem_append_right _
    (List.mem_flatMap.2 ⟨(key, t), Keyed.get?_eq_some_iff.1 hget, List.mem_cons.2 h⟩)

/-! ## Lines of a script -/

namespace Script

/-- Whether a line of a script is run: it is not empty and no comment. -/
def isRun (line : List Char) : Bool := !line.isEmpty && !(List.isPrefixOf ['-', '-'] line)

/-- A script without its comments and its empty lines; there is a break behind each line
that stays. -/
def withoutComments (text : String) : String :=
  String.ofList (((text.toList.splitOn '\n').filter isRun).flatMap (· ++ ['\n']))

/-- Each line of a text is run. -/
def AllRun (text : String) : Prop := ∀ line ∈ text.toList.splitOn '\n', isRun line = true

instance (text : String) : Decidable (AllRun text) :=
  inferInstanceAs (Decidable (∀ line ∈ text.toList.splitOn '\n', isRun line = true))

/-- A script is read line by line. -/
theorem withoutComments_append (a b : String) :
    withoutComments (a ++ ("\n" ++ b)) = withoutComments a ++ withoutComments b := by
  have hlines : (a ++ ("\n" ++ b)).toList.splitOn '\n'
      = a.toList.splitOn '\n' ++ b.toList.splitOn '\n' := by
    rw [String.toList_append, String.toList_append]
    exact List.splitOn_append_cons_self a.toList b.toList
  rw [withoutComments, hlines, List.filter_append, List.flatMap_append, String.ofList_append]
  rfl

theorem AllRun.append {a b : String} (ha : AllRun a) (hb : AllRun b) :
    AllRun (a ++ ("\n" ++ b)) := by
  rw [AllRun, String.toList_append, String.toList_append]
  intro line hline
  have hsplit := List.splitOn_append_cons_self (a := '\n') a.toList b.toList
  rcases List.mem_append.1 (hsplit ▸ hline) with hline | hline
  · exact ha line hline
  · exact hb line hline

/-- A line is run that begins with something else than a dash. -/
theorem allRun_of_opens {opening text : String} {c : Char} (hline : OneLine text)
    (hopens : Opens opening text) (hhead : opening.toList.head? = some c) (hc : c ≠ '-') :
    AllRun text := by
  obtain ⟨rest, rfl⟩ := hopens
  rw [AllRun, List.splitOn_eq_singleton hline]
  intro line hline
  obtain rfl := List.mem_singleton.1 hline
  obtain ⟨more, hmore⟩ := List.head?_eq_some_iff.1 hhead
  rw [String.toList_append, hmore, List.cons_append, isRun, List.isPrefixOf,
    beq_false_of_ne hc.symm]
  rfl

theorem flatMap_break {c : Char} : ∀ {lines : List (List Char)}, lines ≠ [] →
    lines.flatMap (· ++ [c]) = [c].intercalate lines ++ [c]
  | [line], _ => by rw [List.flatMap_singleton, List.intercalate_singleton]
  | line :: next :: rest, _ => by
    rw [List.flatMap_cons, flatMap_break (List.cons_ne_nil _ _), List.intercalate_cons_cons]
    simp only [List.append_assoc]

theorem withoutComments_of_allRun {text : String} (h : AllRun text) :
    withoutComments text = text ++ "\n" := by
  rw [withoutComments, List.filter_eq_self.2 h, flatMap_break (List.splitOn_ne_nil _ _),
    List.intercalate_splitOn, String.ofList_append, String.ofList_toList]

theorem withoutComments_of_comment {text : String} (hline : OneLine text)
    (hcomment : Opens "--" text) : withoutComments text = "" := by
  obtain ⟨rest, rfl⟩ := hcomment
  have hrun : isRun ("--" ++ rest).toList = false := by
    rw [String.toList_append, isRun]
    exact Bool.and_false _
  rw [withoutComments, List.splitOn_eq_singleton hline, List.filter_singleton, hrun]
  rfl

theorem withoutComments_empty : withoutComments "" = "" := by decide

end Script

/-! ## Statements -/

open Script

/-- A statement begins with a keyword. -/
theorem ChangeKind.head?_of_mem_openings {kind : ChangeKind} {database opening : String}
    {tables : List String} (h : opening ∈ kind.openings database tables) :
    ∃ c ∈ ['A', 'C', 'D', 'R'], opening.toList.head? = some c := by
  have halter {words : List String} (h : opening ∈ alterations tables words) :
      ∃ c ∈ ['A', 'C', 'D', 'R'], opening.toList.head? = some c := by
    obtain ⟨table, -, h⟩ := List.mem_flatMap.1 h
    obtain ⟨word, -, rfl⟩ := List.mem_map.1 h
    refine ⟨'A', by decide, ?_⟩
    rw [Statement.alterTable, String.append_assoc, String.append_assoc, String.toList_append]
    rfl
  have hnamed {opens : String} {c : Char} (hc : opens.toList.head? = some c)
      (h : opening ∈ tables.map fun table => opens ++ quoteIdentifier table) :
      opening.toList.head? = some c := by
    obtain ⟨table, -, rfl⟩ := List.mem_map.1 h
    rw [String.toList_append, List.head?_append, hc]
    rfl
  cases kind with
  | createTable => exact ⟨'C', by decide, hnamed rfl h⟩
  | dropTable => exact ⟨'D', by decide, hnamed rfl h⟩
  | renameTable => exact ⟨'R', by decide, hnamed rfl h⟩
  | changeCharacterSet =>
    rcases List.mem_cons.1 h with rfl | h
    · refine ⟨'A', by decide, ?_⟩
      rw [String.toList_append]
      rfl
    · exact halter h
  | _ => exact halter h

/-- The definitions of a table go over several lines, each of them after a tab. -/
theorem allRun_definitions : ∀ {definitions : List String},
    (∀ text ∈ definitions, OneLine text) →
      AllRun ("\t" ++ String.intercalate ",\n\t" definitions)
  | [], _ => by decide
  | [text], h => by
    rw [String.intercalate_singleton]
    exact allRun_of_opens (OneLine.append (by decide) (h text List.mem_cons_self))
      (opens_append _ _) rfl (by decide)
  | text :: next :: rest, h => by
    obtain ⟨htext, hrest⟩ := List.forall_mem_cons.1 h
    have hbreak : ",\n\t" = "," ++ ("\n" ++ "\t") := by decide
    rewrite [String.intercalate_cons_cons, hbreak]
    have hline : AllRun ("\t" ++ text ++ ",") :=
      allRun_of_opens ((OneLine.append (by decide) htext).append (by decide))
        ((opens_append _ _).append _) rfl (by decide)
    have hlines := hline.append (allRun_definitions hrest)
    simp only [String.append_assoc] at hlines ⊢
    exact hlines

/-- What a table lists between its parentheses has no breaks of its own. -/
theorem Table.oneLine_definitions {t : Table} (h : ∀ text ∈ t.texts, OneLine text) :
    ∀ text ∈ t.definitions, OneLine text := by
  have hcolumn {c : Column} (hc : c ∈ t.sortedColumns) : ∀ text ∈ c.texts, OneLine text :=
    fun text htext => h text (t.texts_of_mem_sortedColumns hc htext)
  intro text htext
  rcases List.mem_append.1 htext with htext | htext
  · obtain ⟨c, hc, rfl⟩ := List.mem_map.1 htext
    exact Column.oneLine_definition (hcolumn hc)
  · split at htext
    · next c hprimary =>
      obtain rfl := List.mem_singleton.1 htext
      have hc : c ∈ t.sortedColumns := List.mem_reverse.1 (List.mem_of_find?_eq_some hprimary)
      have hname : OneLine c.name := hcolumn hc _ (by simp [Column.texts])
      exact (OneLine.append (by decide) hname.quoteIdentifier).append (by decide)
    · exact absurd htext List.not_mem_nil

/-- The text that creates a table, broken into its first line, the lines of the definitions
and the last line. -/
theorem Table.creationText_eq (t : Table) : t.creationText
    = "CREATE TABLE " ++ quoteIdentifier t.name ++ " ("
      ++ ("\n" ++ ("\t" ++ String.intercalate ",\n\t" t.definitions
      ++ ("\n" ++ (")" ++ clause " ENGINE = " t.engine
        ++ clause " CHARACTER SET " t.characterSet
        ++ clause " COLLATE " t.collation ++ ";")))) := by
  have hopen : " (\n\t" = " (" ++ ("\n" ++ "\t") := by decide
  have hclose : "\n)" = "\n" ++ ")" := by decide
  -- `rw` would compare the two sides as literals
  unfold creationText
  rewrite [hopen, hclose]
  simp only [String.append_assoc]

theorem Table.allRun_creationText {t : Table} (h : ∀ text ∈ t.texts, OneLine text) :
    AllRun t.creationText := by
  have hname : OneLine t.name := h _ (by simp [texts])
  have hengine : OneLine t.engine := h _ (by simp [texts])
  have hcharacterSet : OneLine t.characterSet := h _ (by simp [texts])
  have hcollation : OneLine t.collation := h _ (by simp [texts])
  have hfirst : AllRun ("CREATE TABLE " ++ quoteIdentifier t.name ++ " (") :=
    allRun_of_opens ((OneLine.append (by decide) hname.quoteIdentifier).append (by decide))
      ((opens_append _ _).append _) rfl (by decide)
  have hlast : AllRun (")" ++ clause " ENGINE = " t.engine
      ++ clause " CHARACTER SET " t.characterSet ++ clause " COLLATE " t.collation ++ ";") :=
    allRun_of_opens ((((OneLine.append (by decide) (.clause (by decide) hengine)).append
      (.clause (by decide) hcharacterSet)).append (.clause (by decide) hcollation)).append
        (by decide))
      ((((opens_append _ _).append _).append _).append _) rfl (by decide)
  rw [creationText_eq]
  exact hfirst.append ((allRun_definitions (t.oneLine_definitions h)).append hlast)

namespace Statement

/-- Every statement is about something. -/
theorem exists_isAbout (s : Statement) : ∃ database tables, s.IsAbout database tables := by
  cases s with
  | alterDatabase database => exact ⟨database, [], rfl⟩
  | createTable table => exact ⟨"", [table.name], List.mem_cons_self⟩
  | _ => exact ⟨"", [_], List.mem_cons_self⟩

theorem oneLine_alterTable {table : String} (h : OneLine table) : OneLine (alterTable table) :=
  (OneLine.append (by decide) h.quoteIdentifier).append (by decide)

/-- An alteration that names one thing of a table is one line. -/
theorem oneLine_alteration {table name words ending : String} (htable : OneLine table)
    (hname : OneLine name) (hwords : OneLine words) (hending : OneLine ending) :
    OneLine (alterTable table ++ words ++ quoteIdentifier name ++ ending) :=
  (((oneLine_alterTable htable).append hwords).append hname.quoteIdentifier).append hending

/-- A statement that does not create a table is one line. -/
theorem oneLine_sql {s : Statement} (h : ∀ text ∈ s.texts, OneLine text)
    (hkind : s.kind ≠ .createTable) : OneLine s.sql := by
  cases s with
  | createTable table => exact absurd rfl hkind
  | alterDatabase database characterSet collation =>
    obtain ⟨hdatabase, hcharacterSet, hcollation, -⟩ :
        OneLine database ∧ OneLine characterSet ∧ OneLine collation ∧ _ := by
      simpa only [texts, List.forall_mem_cons] using h
    exact (((((OneLine.append (by decide) hdatabase.quoteIdentifier).append (by decide)).append
      hcharacterSet).append (by decide)).append hcollation).append (by decide)
  | convertTable table characterSet collation =>
    obtain ⟨htable, hcharacterSet, hcollation, -⟩ :
        OneLine table ∧ OneLine characterSet ∧ OneLine collation ∧ _ := by
      simpa only [texts, List.forall_mem_cons] using h
    exact (((((oneLine_alterTable htable).append (by decide)).append hcharacterSet).append
      (by decide)).append hcollation).append (by decide)
  | dropTable table =>
    have htable : OneLine table := h _ List.mem_cons_self
    exact (OneLine.append (by decide) htable.quoteIdentifier).append (by decide)
  | renameTable old new =>
    have hold : OneLine old := h _ List.mem_cons_self
    have hnew : OneLine new := h _ (List.mem_cons_of_mem _ List.mem_cons_self)
    exact (((OneLine.append (by decide) hold.quoteIdentifier).append (by decide)).append
      hnew.quoteIdentifier).append (by decide)
  | addColumn table column =>
    obtain ⟨htable, hcolumn⟩ := List.forall_mem_cons.1 h
    exact (((oneLine_alterTable htable).append (by decide)).append
      (Column.oneLine_definition hcolumn)).append (by decide)
  | changeColumn table old column =>
    obtain ⟨htable, hrest⟩ := List.forall_mem_cons.1 h
    obtain ⟨hold, hcolumn⟩ := List.forall_mem_cons.1 hrest
    exact (((((oneLine_alterTable htable).append (by decide)).append
      hold.quoteIdentifier).append (by decide)).append
      (Column.oneLine_definition hcolumn)).append (by decide)
  | dropColumn table column =>
    have htable : OneLine table := h _ List.mem_cons_self
    have hcolumn : OneLine column := h _ (List.mem_cons_of_mem _ List.mem_cons_self)
    exact oneLine_alteration htable hcolumn (by decide) (by decide)
  | addIndex kind table column =>
    have htable : OneLine table := h _ List.mem_cons_self
    have hcolumn : OneLine column := h _ (List.mem_cons_of_mem _ List.mem_cons_self)
    have hwords : OneLine (addIndexWords kind) := by cases kind <;> decide
    have hindex := htable.indexName hcolumn kind
    exact ((oneLine_alteration htable hindex hwords (by decide)).append
      hcolumn.quoteIdentifier).append (by decide)
  | dropIndex kind table column =>
    have htable : OneLine table := h _ List.mem_cons_self
    have hcolumn : OneLine column := h _ (List.mem_cons_of_mem _ List.mem_cons_self)
    exact oneLine_alteration htable (htable.indexName hcolumn kind) (by decide) (by decide)
  | addPrimaryKey table column =>
    have htable : OneLine table := h _ List.mem_cons_self
    have hcolumn : OneLine column := h _ (List.mem_cons_of_mem _ List.mem_cons_self)
    exact oneLine_alteration htable hcolumn (by decide) (by decide)
  | dropPrimaryKey table =>
    have htable : OneLine table := h _ List.mem_cons_self
    exact (oneLine_alterTable htable).append (by decide)

/-- No line of a statement is empty or a comment. -/
theorem allRun_sql {s : Statement} (h : ∀ text ∈ s.texts, OneLine text) : AllRun s.sql := by
  by_cases hkind : s.kind = .createTable
  · cases s with
    | createTable table => exact Table.allRun_creationText h
    | _ => exact nomatch hkind
  · obtain ⟨database, tables, habout⟩ := s.exists_isAbout
    obtain ⟨opening, hmem, hopens⟩ := opens_sql habout
    obtain ⟨c, hc, hhead⟩ := ChangeKind.head?_of_mem_openings hmem
    have hdash : c ≠ '-' := by
      rintro rfl
      exact absurd hc (by decide)
    exact allRun_of_opens (oneLine_sql h hkind) hopens hhead hdash

end Statement

/-! ## Plans -/

/-- The plan of a table writes texts of its two sides. -/
theorem Table.oneLine_of_plans {target current : Table} {s : Statement}
    (htarget : ∀ text ∈ target.texts, OneLine text)
    (hcurrent : ∀ text ∈ current.texts, OneLine text) (h : target.Plans current s) :
    ∀ text ∈ s.texts, OneLine text := by
  have hname : OneLine target.name := htarget _ (by simp [texts])
  have htexts {key : String} {c : Column} (hget : target.columns.get? key = some c) :
      ∀ text ∈ c.texts, OneLine text :=
    fun text htext => htarget _ (texts_of_get? hget (.inr htext))
  have hshared {pair : Column × Column} (hpair : pair ∈ target.columns.common current.columns) :
      OneLine pair.1.name ∧ ∀ text ∈ pair.1.texts, OneLine text := by
    obtain ⟨key, hget, -⟩ := Keyed.mem_common.1 hpair
    exact ⟨htexts hget _ (by simp [Column.texts]), htexts hget⟩
  have hgone {gone : String × Column} (hget : current.columns.get? gone.1 = some gone.2) :
      OneLine gone.1 ∧ OneLine gone.2.name :=
    ⟨hcurrent _ (texts_of_get? hget (.inl rfl)),
      hcurrent _ (texts_of_get? hget (.inr (by simp [Column.texts])))⟩
  cases h with
  | converts =>
    have hcharacterSet : OneLine target.characterSet := htarget _ (by simp [texts])
    have hcollation : OneLine target.collation := htarget _ (by simp [texts])
    simp [Statement.texts, hname, hcharacterSet, hcollation]
  | renames hpair =>
    obtain ⟨⟨hold, -⟩, hnew, -⟩ := lookups_of_mem_pairs hpair
    exact List.forall_mem_cons.2 ⟨hname, List.forall_mem_cons.2 ⟨(hgone hold).1, htexts hnew⟩⟩
  | dropsIndex kind h =>
    have hcurrentName : OneLine current.name := hcurrent _ (by simp [texts])
    simp [Statement.texts, hcurrentName, (hgone (lookups_of_mem_gone h).1).2]
  | drops h => simp [Statement.texts, hname, (hgone (lookups_of_mem_gone h).1).1]
  | adds h => exact List.forall_mem_cons.2 ⟨hname, htexts (lookups_of_mem_new h).1⟩
  | addsIndex kind h =>
    have hcolumn := htexts (lookups_of_mem_new h).1 _ List.mem_cons_self
    simp [Statement.texts, hname, hcolumn]
  | indexes kind h | unindexes kind h | addsPrimary h =>
    simp [Statement.texts, hname, (hshared h).1]
  | dropsPrimary => simp [Statement.texts, hname]
  | redefines h =>
    obtain ⟨hcolumn, htexts⟩ := hshared h
    exact List.forall_mem_cons.2 ⟨hname, List.forall_mem_cons.2 ⟨hcolumn, htexts⟩⟩

/-- An index of a new table is on one of its columns. -/
theorem Table.exists_column_of_mem_indexes {t : Table} {s : Statement} (h : s ∈ t.indexes) :
    ∃ kind, ∃ c ∈ t.sortedColumns, s = .addIndex kind t.name c.name := by
  have hcolumn {key : ColumnKey} {kind : IndexKind}
      (h : s ∈ (t.columnsWithKey key).map (.addIndex kind t.name)) :
      ∃ kind, ∃ c ∈ t.sortedColumns, s = .addIndex kind t.name c.name := by
    obtain ⟨column, hcolumn, rfl⟩ := List.mem_map.1 h
    obtain ⟨c, hc, rfl⟩ := List.mem_map.1 hcolumn
    exact ⟨kind, c, List.mem_of_mem_filter hc, rfl⟩
  rcases List.mem_append.1 h with h | h
  · exact hcolumn h
  · exact hcolumn h

theorem Table.oneLine_of_mem_creation {t : Table} {s : Statement}
    (ht : ∀ text ∈ t.texts, OneLine text) (h : s ∈ t.creation) :
    ∀ text ∈ s.texts, OneLine text := by
  rw [creation_eq] at h
  rcases List.mem_cons.1 h with rfl | h
  · exact ht
  · obtain ⟨kind, c, hc, rfl⟩ := exists_column_of_mem_indexes h
    have hname : OneLine t.name := ht _ (by simp [texts])
    have hcolumn : OneLine c.name :=
      ht _ (texts_of_mem_sortedColumns hc (by simp [Column.texts]))
    simp [Statement.texts, hname, hcolumn]

/-- A plan writes texts of the two schemas, and the name of the database. -/
theorem Schema.oneLine_of_mem_plan {target current : Schema} {database : String} {s : Statement}
    (htarget : ∀ text ∈ target.texts, OneLine text)
    (hcurrent : ∀ text ∈ current.texts, OneLine text) (hdatabase : OneLine database)
    (h : s ∈ target.plan current database) : ∀ text ∈ s.texts, OneLine text := by
  have htexts {key : String} {t : Table} (hget : target.tables.get? key = some t) :
      ∀ text ∈ t.texts, OneLine text :=
    fun text htext => htarget _ (texts_of_get? hget (.inr htext))
  have hkey {key : String} {t : Table} (hget : current.tables.get? key = some t) :
      OneLine key :=
    hcurrent _ (texts_of_get? hget (.inl rfl))
  rcases mem_plan_iff.1 h with h | ⟨pair, hpair, h⟩ | ⟨pair, hpair, rfl⟩ | ⟨gone, hgone, rfl⟩ |
    ⟨new, hnew, h⟩
  · have hcharacterSet : OneLine target.defaultCharacterSet := htarget _ (by simp [texts])
    have hcollation : OneLine target.defaultCollation := htarget _ (by simp [texts])
    rw [eq_of_mem_defaultsStatement h]
    simp [Statement.texts, hdatabase, hcharacterSet, hcollation]
  · obtain ⟨key, hthere, hhere⟩ := Keyed.mem_common.1 hpair
    have hother : ∀ text ∈ pair.2.texts, OneLine text :=
      fun text htext => hcurrent _ (texts_of_get? hhere (.inr htext))
    exact Table.oneLine_of_plans (htexts hthere) hother (Table.plans_of_mem h)
  · obtain ⟨⟨hold, -⟩, hnew, -⟩ := lookups_of_mem_pairs hpair
    have hnewKey : OneLine pair.2.1 := htarget _ (texts_of_get? hnew (.inl rfl))
    simp [Statement.texts, hkey hold, hnewKey]
  · simp [Statement.texts, hkey (lookups_of_mem_gone hgone).1]
  · exact Table.oneLine_of_mem_creation (htexts (lookups_of_mem_new hnew).1) h

/-! ## Scripts -/

namespace Script

/-- A line that is a comment falls out. -/
theorem withoutComments_comment {line : String} (hline : OneLine line)
    (hcomment : Opens "--" line) (rest : String) :
    withoutComments (line ++ ("\n" ++ rest)) = withoutComments rest := by
  rw [withoutComments_append, withoutComments_of_comment hline hcomment, String.empty_append]

/-- A line that is empty falls out. -/
theorem withoutComments_blank (rest : String) :
    withoutComments ("" ++ ("\n" ++ rest)) = withoutComments rest := by
  rw [withoutComments_append, withoutComments_empty, String.empty_append]

end Script

namespace Comparison

/-- The heading, broken into its lines. -/
theorem scriptHead_append (comparison : Comparison) (rest : String) :
    comparison.scriptHead ++ rest
      = "-- " ++ ("\n"
        ++ ("-- Changes for " ++ comparison.title ++ " (" ++ comparison.database ++ ")" ++ ("\n"
        ++ ("-- " ++ toString comparison.additions ++ " additions, "
          ++ toString comparison.alterations ++ " alterations, "
          ++ toString comparison.deletions ++ " deletions" ++ ("\n"
        ++ ("-- " ++ ("\n" ++ ("" ++ ("\n" ++ rest))))))))) := by
  have hfirst : "-- \n-- Changes for " = "-- " ++ ("\n" ++ "-- Changes for ") := by decide
  have hsecond : ")\n-- " = ")" ++ ("\n" ++ "-- ") := by decide
  have hlast : " deletions\n-- \n\n"
      = " deletions" ++ ("\n" ++ ("-- " ++ ("\n" ++ ("" ++ "\n")))) := by decide
  unfold scriptHead
  rewrite [hfirst, hsecond, hlast]
  simp only [String.append_assoc]

/-- The end mark, broken into its lines. -/
theorem scriptFoot_eq (comparison : Comparison) :
    comparison.scriptFoot
      = "" ++ ("\n" ++ ("--" ++ ("\n" ++ ("-- End for " ++ comparison.title ++ ("\n"
        ++ ("--" ++ ("\n" ++ ""))))))) := by
  have hfirst : "\n--\n-- End for "
      = "" ++ ("\n" ++ ("--" ++ ("\n" ++ "-- End for "))) := by decide
  have hlast : "\n--\n" = "\n" ++ ("--" ++ ("\n" ++ "")) := by decide
  unfold scriptFoot
  rewrite [hfirst, hlast]
  simp only [String.append_assoc]

section Lines

open Script

variable {comparison : Comparison} (hdatabase : OneLine comparison.database)
  (hkey : OneLine comparison.databaseKey)
include hdatabase hkey

theorem oneLine_title : OneLine comparison.title := by
  unfold title
  split
  · exact hdatabase
  · exact hkey

theorem withoutComments_scriptHead (rest : String) :
    withoutComments (comparison.scriptHead ++ rest) = withoutComments rest := by
  have htitle : OneLine ("-- Changes for " ++ comparison.title ++ " (" ++ comparison.database
      ++ ")") :=
    (((OneLine.append (by decide) (oneLine_title hdatabase hkey)).append (by decide)).append
      hdatabase).append (by decide)
  have hopens : Opens "--" "-- Changes for " := ⟨" Changes for ", by decide⟩
  have hcounts : OneLine ("-- " ++ toString comparison.additions ++ " additions, "
      ++ toString comparison.alterations ++ " alterations, "
      ++ toString comparison.deletions ++ " deletions") :=
    (((((OneLine.append (by decide) (.toString_nat _)).append (by decide)).append
      (.toString_nat _)).append (by decide)).append (.toString_nat _)).append (by decide)
  have hrule : Opens "--" "-- " := ⟨" ", by decide⟩
  rw [scriptHead_append, withoutComments_comment (by decide) hrule,
    withoutComments_comment htitle ((((hopens.append _).append _).append _).append _),
    withoutComments_comment hcounts
      ((((((hrule.append _).append _).append _).append _).append _).append _),
    withoutComments_comment (by decide) hrule, withoutComments_blank]

theorem withoutComments_scriptFoot : withoutComments comparison.scriptFoot = "" := by
  have htitle : OneLine ("-- End for " ++ comparison.title) :=
    OneLine.append (by decide) (oneLine_title hdatabase hkey)
  have hopens : Opens "--" "-- End for " := ⟨" End for ", by decide⟩
  have hrule : Opens "--" "--" := ⟨"", by decide⟩
  rw [scriptFoot_eq, withoutComments_blank, withoutComments_comment (by decide) hrule,
    withoutComments_comment htitle (hopens.append _),
    withoutComments_comment (by decide) hrule, withoutComments_empty]

omit hdatabase hkey in
/-- Each change leaves its statement. -/
theorem withoutComments_changes {changes : List Change}
    (h : ∀ change ∈ changes, AllRun change.sql) (rest : String) :
    withoutComments (String.join (changes.map changeText) ++ rest)
      = String.join (changes.map fun change => change.sql ++ "\n") ++ withoutComments rest := by
  induction changes with
  | nil =>
    rw [List.map_nil, List.map_nil, String.join_nil, String.empty_append, String.empty_append]
  | cons change others ih =>
    obtain ⟨hchange, hothers⟩ := List.forall_mem_cons.1 h
    have htag : OneLine ("-- " ++ change.kind.tag) := by
      cases change.kind <;> decide
    have hopens : Opens "--" ("-- " ++ change.kind.tag) := Opens.append ⟨" ", by decide⟩ _
    rw [List.map_cons, List.map_cons, String.join_cons, String.join_cons, changeText]
    simp only [String.append_assoc]
    rw [← String.append_assoc, withoutComments_comment htag hopens, withoutComments_append,
      withoutComments_of_allRun hchange, ih hothers]
    simp only [String.append_assoc]

/-- A script whose statements break into lines that are run has these statements, and
nothing else that is run. -/
theorem withoutComments_script (h : ∀ change ∈ comparison.changes, AllRun change.sql) :
    withoutComments comparison.script
      = String.join (comparison.changes.map fun change => change.sql ++ "\n") := by
  rw [script, String.append_assoc, withoutComments_scriptHead hdatabase hkey,
    withoutComments_changes h, withoutComments_scriptFoot hdatabase hkey, String.append_empty]

end Lines

end Comparison

/-- The script of a comparison of two valid schemas whose texts do not break lines, under
any name and key that do not either, runs the statements of its changes in order. -/
theorem script_of_diff {target current : Schema} {database : String}
    (htarget : target.validate = .ok ()) (hcurrent : current.validate = .ok ())
    (htexts : ∀ text ∈ target.texts ++ current.texts, OneLine text)
    (hdatabase : OneLine database) :
    ∃ comparison, target.diff current database = .ok comparison ∧
      comparison.database = database ∧ ∀ label key, OneLine label → OneLine key →
        withoutComments { comparison with database := label, databaseKey := key }.script
          = String.join (comparison.changes.map fun change => change.sql ++ "\n") := by
  rw [Schema.validate_eq_ok_iff] at htarget hcurrent
  refine ⟨_, Schema.diff_of_wellFormed htarget hcurrent database,
    Comparison.database_ofStatements _ _, fun label key hlabel hkey => ?_⟩
  refine Comparison.withoutComments_script hlabel hkey fun change hchange => ?_
  dsimp only at hchange
  rw [Comparison.changes_ofStatements] at hchange
  obtain ⟨s, hs, rfl⟩ := List.mem_map.1 hchange
  exact Statement.allRun_sql (Schema.oneLine_of_mem_plan
    (fun text htext => htexts text (List.mem_append_left _ htext))
    (fun text htext => htexts text (List.mem_append_right _ htext)) hdatabase hs)

/-- A chronicle with texts that look like comments. -/
def chronicle : Schema where
  name := "chronicle"
  defaultCharacterSet := "utf8mb4"
  defaultCollation := "utf8mb4_bin"
  tables := .ofList [
    ("--", { name := "--", engine := "-- none", columns := .ofList [
      ("--", { name := "--", dataType := "varchar", maxLength := 8, default := "--" }),
      ("kind",
        { name := "kind", dataType := "enum", columnType := "-- 'a'", columnKey := .unique,
          extra := "-- last" })] }),
    ("entry", { name := "entry", columns := .ofList [
      ("id", { name := "id", dataType := "int", columnKey := .multiple })] })]

/-- The chronicle as it was, with a table that has no columns. -/
def oldChronicle : Schema where
  name := "chronicle"
  tables := .ofList [
    ("entry", { name := "entry", columns := .ofList [
      ("id", { name := "id", dataType := "bigint" })] }),
    ("void", { name := "void" })]

theorem script_of_diff_chronicle :
    (chronicle.validate = .ok () ∧ oldChronicle.validate = .ok () ∧
        (∀ text ∈ chronicle.texts ++ oldChronicle.texts, OneLine text) ∧
        OneLine "--chronicle") ∧
      ∃ comparison, chronicle.diff oldChronicle "--chronicle" = .ok comparison ∧
        comparison.database = "--chronicle" ∧ ∀ label key, OneLine label → OneLine key →
          withoutComments { comparison with database := label, databaseKey := key }.script
            = String.join (comparison.changes.map fun change => change.sql ++ "\n") := by
  have hvalid : chronicle.validate = .ok () ∧ oldChronicle.validate = .ok () := by
    decide +kernel
  have htexts : ∀ text ∈ chronicle.texts ++ oldChronicle.texts, OneLine text := by
    decide +kernel
  have hdatabase : OneLine "--chronicle" := by decide
  exact ⟨⟨hvalid.1, hvalid.2, htexts, hdatabase⟩,
    script_of_diff hvalid.1 hvalid.2 htexts hdatabase⟩

end SchemaPlan
