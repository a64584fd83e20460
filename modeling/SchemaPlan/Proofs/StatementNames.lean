import SchemaPlan.Proofs.DefinitionTexts
import SchemaPlan.Proofs.IndexNames
set_option autoImplicit false

/-!
# Names in the text of a statement

A name stands between backticks as it is, also one that holds backticks, so the text of a
statement with two names need not tell where the first one ends.  It does unless the
second name of a statement and the first name of the other take part in it: two texts are
the same for different names only if the one first name is the other one and goes on with a
backtick, and the second name that stands behind the shorter one holds a backtick too
(`names_of_sql`).

The reason is a count: a longer first name brings in at least one more backtick, and so many
must come from the second name of the other statement, wherever else the names are repeated.
-/

namespace SchemaPlan

/-! ## Backticks -/

/-- How many backticks a text holds. -/
def backticks (text : String) : Nat := text.toList.count '\x60'

@[simp] theorem backticks_append (a b : String) :
    backticks (a ++ b) = backticks a + backticks b := by
  rw [backticks, String.toList_append, List.count_append]
  rfl

@[simp] theorem backticks_quoteIdentifier (name : String) :
    backticks (quoteIdentifier name) = backticks name + 2 := by
  rw [quoteIdentifier, backticks_append, backticks_append]
  have hone : backticks "\x60" = 1 := by decide
  omega

theorem length_quoteIdentifier (name : String) :
    (quoteIdentifier name).toList.length = name.toList.length + 2 := by
  simp [quoteIdentifier, String.toList_append]

theorem quoteIdentifier_inj {a b : String} : quoteIdentifier a = quoteIdentifier b ↔ a = b := by
  rw [quoteIdentifier, quoteIdentifier, String.append_left_inj, String.append_right_inj]

theorem backticks_lt_of_opens {first other : String} (h : Opens (first ++ "\x60") other) :
    backticks first < backticks other := by
  obtain ⟨rest, rfl⟩ := h
  have hone : backticks "\x60" = 1 := by decide
  rw [backticks_append, backticks_append]
  omega

/-- Replacing takes no character away that the pattern lacks, and brings in those of the
value as often as it is put in. -/
theorem Text.count_replaceFrom {pattern : List Char} {c : Char} (hne : pattern ≠ [])
    (hc : c ∉ pattern) :
    ∀ (skip : Nat) (text : List Char), ∃ n, ∀ value,
      (replaceFrom pattern value skip text).count c
        = (text.drop skip).count c + n * value.count c
  | skip, [] => ⟨0, fun value => by rw [replaceFrom_nil, List.drop_nil, Nat.zero_mul]; rfl⟩
  | skip + 1, _ :: text => by
    obtain ⟨n, h⟩ := count_replaceFrom hne hc skip text
    exact ⟨n, fun value => by rw [replaceFrom, h, List.drop_succ_cons]⟩
  | 0, d :: text => by
    by_cases hprefix : pattern.isPrefixOf (d :: text) = true
    · obtain ⟨n, h⟩ := count_replaceFrom hne hc (pattern.length - 1) text
      refine ⟨n + 1, fun value => ?_⟩
      -- of the text only the pattern is left out, and `c` is not in it
      have hdropped : (text.drop (pattern.length - 1)).count c = (d :: text).count c := by
        obtain ⟨rest, hrest⟩ := List.isPrefixOf_iff_prefix.1 hprefix
        obtain ⟨p, more, rfl⟩ := List.exists_cons_of_ne_nil hne
        have htext : text = more ++ rest := (List.cons.inj hrest).2.symm
        rw [← hrest, htext, List.length_cons, Nat.add_sub_cancel, List.drop_left,
          List.count_append, List.count_eq_zero.2 hc, Nat.zero_add]
      rw [replaceFrom, if_pos hprefix, List.count_append, h, hdropped, List.drop_zero,
        Nat.succ_mul]
      omega
    · obtain ⟨n, h⟩ := count_replaceFrom hne hc 0 text
      refine ⟨n, fun value => ?_⟩
      rw [replaceFrom, if_neg hprefix, List.count_cons, h, List.drop_zero, List.drop_zero,
        List.count_cons]
      omega

theorem IndexKind.backticks_indexName (kind : IndexKind) (table : String) :
    ∃ n, ∀ column, backticks (kind.indexName table column)
      = backticks table + n * backticks column := by
  have hplaceholder : columnPlaceholder ≠ [] ∧ '\x60' ∉ columnPlaceholder := by decide
  obtain ⟨n, h⟩ := Text.count_replaceFrom hplaceholder.1 hplaceholder.2 0 table.toList
  refine ⟨n + 1, fun column => ?_⟩
  have hstart : kind.start.count '\x60' = 0 := by cases kind <;> decide
  rw [backticks, toList_indexName, List.count_append, List.count_append, List.count_cons_of_ne
    (by decide), tablePart, h, hstart, List.drop_zero, Nat.succ_mul, backticks, backticks]
  omega

/-- Where a name ends that stands before a backtick: two such names are the same, or the
one goes on with a backtick where the other ends. -/
theorem eq_or_opens_of_append_eq {a b r r' : String}
    (h : a ++ ("\x60" ++ r) = b ++ ("\x60" ++ r')) :
    a = b ∨ Opens (a ++ "\x60") b ∨ Opens (b ++ "\x60") a := by
  have hchars : a.toList ++ ("\x60" ++ r).toList = b.toList ++ ("\x60" ++ r').toList := by
    rw [← String.toList_append, ← String.toList_append, h]
  have hlonger {x y : String} {u v more : List Char} (hxy : y.toList = x.toList ++ more)
      (hmore : '\x60' :: u = more ++ '\x60' :: v) : x = y ∨ Opens (x ++ "\x60") y := by
    cases more with
    | nil => exact .inl (String.toList_inj.1 (by rw [hxy, List.append_nil]))
    | cons c more =>
      obtain ⟨rfl, -⟩ := List.cons.inj hmore
      refine .inr (opens_iff.2 ⟨more, ?_⟩)
      rw [hxy, String.toList_append, List.append_assoc]
      rfl
  rcases List.append_eq_append_iff.1 hchars with ⟨more, hb, hmore⟩ | ⟨more, ha, hmore⟩
  · exact (hlonger hb (by simpa [String.toList_append] using hmore)).imp id .inl
  · rcases hlonger ha (by simpa [String.toList_append] using hmore) with rfl | hopens
    · exact .inl rfl
    · exact .inr (.inr hopens)

/-! ## Statements with two names -/

namespace Statement

/-- The statements that are made from two names, the first one that of a table. -/
def pairForms : List (String → String → Statement) :=
  [.renameTable, .dropColumn, .addIndex .plain, .addIndex .unique, .addPrimaryKey,
    .dropIndex .plain, .dropIndex .unique]

/-- How a text holds the two names that it is made from: it shows the first one up to a
backtick, it tells the second one if the first one is known, and it has a backtick for
each one in the first name, whatever the second name is, and no other ones if the second
name has none. -/
structure HoldsNames (build : String → String → Statement) : Prop where
  shows : ∃ words, ∀ first second, ∃ rest,
    (build first second).sql = words ++ (first ++ ("\x60" ++ rest))
  second : ∀ {first a b}, (build first a).sql = (build first b).sql → a = b
  count : ∃ base factor, 0 < factor ∧ ∀ first second,
    base + factor * backticks first ≤ backticks (build first second).sql ∧
    (backticks second = 0 →
      backticks (build first second).sql = base + factor * backticks first)

end Statement

/-- The names of a statement can be taken for others: the other first name is this first
one and goes on with a backtick, and this second one holds a backtick. -/
def BreaksOut (first second other : String) : Prop :=
  Opens (first ++ "\x60") other ∧ '\x60' ∈ second.toList

instance (first second other : String) : Decidable (BreaksOut first second other) :=
  inferInstanceAs (Decidable (_ ∧ _))

namespace Statement.HoldsNames

variable {build : String → String → Statement} {a b c d : String}

/-- A first name that goes on behind another one takes a backtick from the second name
there. -/
theorem breaksOut (h : HoldsNames build) (hsql : (build a b).sql = (build c d).sql)
    (hopens : Opens (a ++ "\x60") c) : BreaksOut a b c := by
  refine ⟨hopens, Decidable.byContradiction fun hnone => ?_⟩
  obtain ⟨base, factor, hfactor, hcount⟩ := h.count
  have hshort := (hcount a b).2 (List.count_eq_zero.2 hnone)
  have hlong := (hcount c d).1
  have hless := Nat.mul_lt_mul_of_pos_left (backticks_lt_of_opens hopens) hfactor
  rw [← hsql, hshort] at hlong
  omega

/-- Statements of one text are made from the same names, unless names break out. -/
theorem names_eq (h : HoldsNames build) (hsql : (build a b).sql = (build c d).sql) :
    (a = c ∧ b = d) ∨ BreaksOut a b c ∨ BreaksOut c d a := by
  obtain ⟨words, hwords⟩ := h.shows
  obtain ⟨rest, hrest⟩ := hwords a b
  obtain ⟨rest', hrest'⟩ := hwords c d
  have hnames := hsql
  rw [hrest, hrest', String.append_right_inj] at hnames
  rcases eq_or_opens_of_append_eq hnames with rfl | hopens | hopens
  · exact .inl ⟨rfl, h.second hsql⟩
  · exact .inr (.inl (h.breaksOut hsql hopens))
  · exact .inr (.inr (h.breaksOut hsql.symm hopens))

/-- A text that holds each of its two names once. -/
theorem of_text {words between closing : String}
    (htext : ∀ first second, (build first second).sql
      = words ++ (first ++ ("\x60" ++ (between ++ (second ++ closing))))) :
    HoldsNames build where
  shows := ⟨words, fun first second => ⟨_, htext first second⟩⟩
  second h := by
    rw [htext, htext] at h
    simpa only [String.append_right_inj, String.append_left_inj] using h
  count := by
    refine ⟨backticks words + 1 + backticks between + backticks closing, 1, Nat.one_pos,
      fun first second => ?_⟩
    have hone : backticks "\x60" = 1 := by decide
    rw [htext]
    simp only [backticks_append, hone]
    omega

end Statement.HoldsNames

namespace Statement

theorem holdsNames_renameTable : HoldsNames .renameTable := by
  have htext (old new : String) :
      "RENAME TABLE " ++ quoteIdentifier old ++ " TO " ++ quoteIdentifier new ++ ";"
        = ("RENAME TABLE " ++ "\x60")
          ++ (old ++ ("\x60" ++ ((" TO " ++ "\x60") ++ (new ++ ("\x60" ++ ";"))))) := by
    simp only [quoteIdentifier, String.append_assoc]
  exact .of_text htext

theorem holdsNames_dropColumn : HoldsNames .dropColumn := by
  have htext (table column : String) :
      alterTable table ++ "DROP COLUMN " ++ quoteIdentifier column ++ ";"
        = ("ALTER TABLE " ++ "\x60")
          ++ (table ++ ("\x60" ++ ((" " ++ ("DROP COLUMN " ++ "\x60"))
            ++ (column ++ ("\x60" ++ ";"))))) := by
    simp only [alterTable, quoteIdentifier, String.append_assoc]
  exact .of_text htext

theorem holdsNames_addPrimaryKey : HoldsNames .addPrimaryKey := by
  have htext (table column : String) :
      alterTable table ++ "ADD PRIMARY KEY (" ++ quoteIdentifier column ++ ");"
        = ("ALTER TABLE " ++ "\x60")
          ++ (table ++ ("\x60" ++ ((" " ++ ("ADD PRIMARY KEY (" ++ "\x60"))
            ++ (column ++ ("\x60" ++ ");"))))) := by
    simp only [alterTable, quoteIdentifier, String.append_assoc]
  exact .of_text htext

theorem sql_dropIndex (kind : IndexKind) (table column : String) :
    (dropIndex kind table column).sql
      = alterTable table ++ "DROP INDEX " ++ quoteIdentifier (kind.indexName table column)
        ++ ";" := rfl

theorem sql_addIndex (kind : IndexKind) (table column : String) :
    (addIndex kind table column).sql
      = alterTable table ++ addIndexWords kind ++ quoteIdentifier (kind.indexName table column)
        ++ " (" ++ quoteIdentifier column ++ ");" := rfl

theorem holdsNames_dropIndex (kind : IndexKind) : HoldsNames (.dropIndex kind) where
  shows := ⟨"ALTER TABLE " ++ "\x60", fun table column =>
    ⟨" " ++ ("DROP INDEX " ++ (quoteIdentifier (kind.indexName table column) ++ ";")), by
      simp only [sql_dropIndex, alterTable, quoteIdentifier, String.append_assoc]⟩⟩
  second h := by
    simp only [sql_dropIndex, quoteIdentifier, String.append_right_inj,
      String.append_left_inj] at h
    exact (IndexKind.indexName_inj.1 h).2
  count := by
    refine ⟨backticks "ALTER TABLE " + backticks " " + backticks "DROP INDEX "
      + backticks ";" + 4, 2, Nat.two_pos, fun table column => ?_⟩
    obtain ⟨n, hn⟩ := kind.backticks_indexName table
    simp only [sql_dropIndex, alterTable, backticks_append, backticks_quoteIdentifier, hn]
    refine ⟨by omega, fun hnone => ?_⟩
    rw [hnone, Nat.mul_zero]
    omega

theorem holdsNames_addIndex (kind : IndexKind) : HoldsNames (.addIndex kind) where
  shows := ⟨"ALTER TABLE " ++ "\x60", fun table column =>
    ⟨" " ++ (addIndexWords kind ++ (quoteIdentifier (kind.indexName table column)
      ++ (" (" ++ (quoteIdentifier column ++ ");")))), by
      simp only [sql_addIndex, alterTable, quoteIdentifier, String.append_assoc]⟩⟩
  second {table a b} h := by
    obtain ⟨base, n, hlength⟩ := kind.length_indexName table
    rw [sql_addIndex, sql_addIndex, String.append_left_inj] at h
    have hchars := congrArg String.toList h
    simp only [String.toList_append] at hchars
    -- the length of the text tells that of the column, which is the last name in it
    have hsum := congrArg List.length hchars
    simp only [List.length_append, length_quoteIdentifier, hlength] at hsum
    generalize n + 1 = m at hsum
    have hab : a.toList.length = b.toList.length := by
      refine Nat.eq_of_mul_eq_mul_left (Nat.succ_pos m) ?_
      rw [Nat.succ_mul, Nat.succ_mul]
      omega
    have hlast := List.append_inj_right' hchars
      (by rw [length_quoteIdentifier, length_quoteIdentifier, hab])
    exact quoteIdentifier_inj.1 (String.toList_inj.1 hlast)
  count := by
    refine ⟨backticks "ALTER TABLE " + backticks " " + backticks (addIndexWords kind)
      + backticks " (" + backticks ");" + 6, 2, Nat.two_pos, fun table column => ?_⟩
    obtain ⟨n, hn⟩ := kind.backticks_indexName table
    simp only [sql_addIndex, alterTable, backticks_append, backticks_quoteIdentifier, hn]
    refine ⟨by omega, fun hnone => ?_⟩
    rw [hnone, Nat.mul_zero]
    omega

theorem holdsNames_of_mem {build : String → String → Statement} (h : build ∈ pairForms) :
    HoldsNames build := by
  simp only [pairForms, List.mem_cons, List.not_mem_nil, or_false] at h
  rcases h with rfl | rfl | rfl | rfl | rfl | rfl | rfl
  · exact holdsNames_renameTable
  · exact holdsNames_dropColumn
  · exact holdsNames_addIndex .plain
  · exact holdsNames_addIndex .unique
  · exact holdsNames_addPrimaryKey
  · exact holdsNames_dropIndex .plain
  · exact holdsNames_dropIndex .unique

end Statement

open Statement

/-- Statements that drop a table or its primary key are of one text only for one table.  Of the
statements with two names two are of one text only for the same names, unless the first name
of the one goes on with a backtick where that of the other ends, and the second name of the
other holds a backtick. -/
theorem names_of_sql :
    (∀ table other, (dropTable table).sql = (dropTable other).sql ↔ table = other) ∧
    (∀ table other, (dropPrimaryKey table).sql = (dropPrimaryKey other).sql ↔ table = other) ∧
    ∀ build ∈ pairForms, ∀ a b c d, ¬ BreaksOut a b c → ¬ BreaksOut c d a →
      ((build a b).sql = (build c d).sql ↔ a = c ∧ b = d) := by
  refine ⟨fun table other => ?_, fun table other => ?_, fun build hbuild a b c d hac hca => ?_⟩
  · change "DROP TABLE " ++ quoteIdentifier table ++ ";"
      = "DROP TABLE " ++ quoteIdentifier other ++ ";" ↔ _
    rw [String.append_left_inj, String.append_right_inj, quoteIdentifier_inj]
  · change "ALTER TABLE " ++ quoteIdentifier table ++ " " ++ "DROP PRIMARY KEY;"
      = "ALTER TABLE " ++ quoteIdentifier other ++ " " ++ "DROP PRIMARY KEY;" ↔ _
    rw [String.append_left_inj, String.append_left_inj, String.append_right_inj,
      quoteIdentifier_inj]
  · constructor
    · intro hsql
      rcases (holdsNames_of_mem hbuild).names_eq hsql with heq | hbreaks | hbreaks
      · exact heq
      · exact absurd hbreaks hac
      · exact absurd hbreaks hca
    · rintro ⟨rfl, rfl⟩
      rfl

/-- A table whose name goes on with a backtick where that of another one ends, and a column
without one: an index on the column is made by two statements for the two tables. -/
theorem names_of_sql_order :
    (addIndex .plain ∈ pairForms ∧ ¬ BreaksOut "or\x60der" "code" "or" ∧
      ¬ BreaksOut "or" "code" "or\x60der") ∧
    ((addIndex .plain "or\x60der" "code").sql = (addIndex .plain "or" "code").sql ↔
      "or\x60der" = "or" ∧ "code" = "code") := by
  have hform : addIndex .plain ∈ pairForms :=
    List.mem_cons_of_mem _ (List.mem_cons_of_mem _ List.mem_cons_self)
  have hlong : ¬ BreaksOut "or\x60der" "code" "or" := by decide +kernel
  have hshort : ¬ BreaksOut "or" "code" "or\x60der" := by decide +kernel
  exact ⟨⟨hform, hlong, hshort⟩, names_of_sql.2.2 _ hform _ _ _ _ hlong hshort⟩

/-! ## Names that break out -/

/-- What stands before the first character of a pattern is kept. -/
theorem Text.replaceFrom_append {d : Char} {pattern value : List Char} (rest : List Char) :
    ∀ {text : List Char}, d ∉ text →
      replaceFrom (d :: pattern) value 0 (text ++ rest)
        = text ++ replaceFrom (d :: pattern) value 0 rest
  | [], _ => rfl
  | c :: text, h => by
    rw [List.mem_cons, not_or] at h
    obtain ⟨hc, htext⟩ := h
    have hnot : (d :: pattern).isPrefixOf (c :: (text ++ rest)) = false := by
      rw [List.isPrefixOf, beq_false_of_ne hc, Bool.false_and]
    rw [List.cons_append, replaceFrom, hnot, if_neg Bool.false_ne_true,
      replaceFrom_append rest htext, List.cons_append]

theorem Text.replaceFrom_of_not_mem {d : Char} {pattern value text : List Char} (h : d ∉ text) :
    replaceFrom (d :: pattern) value 0 text = text := by
  rw [← List.append_nil text, replaceFrom_append [] h, replaceFrom_nil]

namespace IndexKind

variable (kind : IndexKind)

/-- The name of an index on a table without a placeholder in its name. -/
theorem indexName_of_plain {table : String} (h : '\x7b' ∉ table.toList) (column : String) :
    kind.indexName table column = String.ofList kind.start ++ (table ++ ("_" ++ column)) := by
  have htable : tablePart table column = table.toList := Text.replaceFrom_of_not_mem h
  refine String.toList_inj.1 ?_
  simp only [toList_indexName, htable, String.toList_append, String.toList_ofList]
  rfl

/-- The name of an index on a table with the placeholder of the column in its name. -/
theorem indexName_of_placeholder {before after : String} (hbefore : '\x7b' ∉ before.toList)
    (hafter : '\x7b' ∉ after.toList) (column : String) :
    kind.indexName (before ++ ("\x7bcolumn\x7d" ++ after)) column
      = String.ofList kind.start ++ (before ++ (column ++ (after ++ ("_" ++ column)))) := by
  have hbehind : Text.replaceFrom columnPlaceholder column.toList 0
      (columnPlaceholder ++ after.toList) = column.toList ++ after.toList :=
    congrArg (column.toList ++ ·) (Text.replaceFrom_of_not_mem hafter)
  have htable : tablePart (before ++ ("\x7bcolumn\x7d" ++ after)) column
      = before.toList ++ (column.toList ++ after.toList) := by
    rw [tablePart, String.toList_append, String.toList_append, ← hbehind]
    exact Text.replaceFrom_append _ hbefore
  refine String.toList_inj.1 ?_
  simp only [toList_indexName, htable, String.toList_append, String.toList_ofList,
    List.append_assoc]
  rfl

end IndexKind

/-- Two pairs of names for one statement. -/
structure NamePairs where
  build : String → String → Statement
  names : String × String
  others : String × String

/-- Different names make one text. -/
def NamePairs.SameText (p : NamePairs) : Prop :=
  p.names ≠ p.others ∧ (p.build p.names.1 p.names.2).sql = (p.build p.others.1 p.others.2).sql

instance (p : NamePairs) : Decidable p.SameText := inferInstanceAs (Decidable (_ ∧ _))

/-- What stands between a table and its repetition in the name of an index. -/
def indexOpening (words : String) (kind : IndexKind) : String :=
  "\x60" ++ " " ++ words ++ "\x60" ++ String.ofList kind.start

/-- What stands between an index and its column. -/
def columnOpening : String := "\x60" ++ " (" ++ "\x60"

/-- A column whose name holds the placeholder of the column and the beginning of two
statements that add an index. -/
def indexedColumn (kind : IndexKind) : String :=
  columnOpening ++ "\x7bcolumn\x7d" ++ columnOpening
    ++ indexOpening (addIndexWords kind) kind ++ "a"
    ++ indexOpening (addIndexWords kind) kind ++ "a" ++ "_" ++ "_"

/-- An index that is added to a table in whose name the column is put in. -/
def addedIndexes (kind : IndexKind) : NamePairs where
  build := .addIndex kind
  names := ("a", "_" ++ indexedColumn kind ++ columnOpening ++ indexedColumn kind)
  others := ("a" ++ indexOpening (addIndexWords kind) kind ++ "a" ++ "_" ++ "_" ++ columnOpening
    ++ ("\x7bcolumn\x7d" ++ columnOpening), indexedColumn kind)

/-- An index that is dropped, in a column or in a table that holds the beginning of such
statements. -/
def droppedIndexes (kind : IndexKind) : NamePairs where
  build := .dropIndex kind
  names :=
    ("a", indexOpening "DROP INDEX " kind ++ "a" ++ indexOpening "DROP INDEX " kind ++ "a"
      ++ "_" ++ "_" ++ "b")
  others := ("a" ++ indexOpening "DROP INDEX " kind ++ "a" ++ "_", "b")

theorem sameText_addedIndexes (kind : IndexKind) : (addedIndexes kind).SameText := by
  have hplain : '\x7b' ∉ "a".toList := by decide
  refine ⟨by cases kind <;> decide +kernel, ?_⟩
  rw [addedIndexes, sql_addIndex, sql_addIndex, kind.indexName_of_plain hplain,
    kind.indexName_of_placeholder (by cases kind <;> decide +kernel) (by decide)]
  simp only [alterTable, quoteIdentifier, indexedColumn, indexOpening, columnOpening,
    String.append_assoc]

theorem sameText_droppedIndexes (kind : IndexKind) : (droppedIndexes kind).SameText := by
  have hplain : '\x7b' ∉ "a".toList := by decide
  refine ⟨by cases kind <;> decide +kernel, ?_⟩
  rw [droppedIndexes, sql_dropIndex, sql_dropIndex, kind.indexName_of_plain hplain,
    kind.indexName_of_plain (by cases kind <;> decide +kernel)]
  simp only [alterTable, quoteIdentifier, indexOpening, String.append_assoc]

/-- For each statement with two names, names that hold a part of its text. -/
def brokenNames : List NamePairs := [
  ⟨.renameTable, ("a", "b\x60 TO \x60c"), ("a\x60 TO \x60b", "c")⟩,
  ⟨.dropColumn, ("a", "b\x60 DROP COLUMN \x60c"), ("a\x60 DROP COLUMN \x60b", "c")⟩,
  addedIndexes .plain, addedIndexes .unique,
  ⟨.addPrimaryKey, ("a", "b\x60 ADD PRIMARY KEY (\x60c"),
    ("a\x60 ADD PRIMARY KEY (\x60b", "c")⟩,
  droppedIndexes .plain, droppedIndexes .unique]

/-- Each statement with two names has one text for different names. -/
theorem brokenNames_sameText :
    brokenNames.map NamePairs.build = pairForms ∧ ∀ p ∈ brokenNames, p.SameText := by
  refine ⟨rfl, ?_⟩
  simp only [brokenNames, List.forall_mem_cons]
  exact ⟨by decide +kernel, by decide +kernel, sameText_addedIndexes _, sameText_addedIndexes _,
    by decide +kernel, sameText_droppedIndexes _, sameText_droppedIndexes _, by simp⟩

end SchemaPlan
