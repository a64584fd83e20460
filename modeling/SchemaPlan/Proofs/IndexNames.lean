import Mathlib.Data.List.Basic
import SchemaPlan.Ddl.Identifier
set_option autoImplicit false

/-!
# Index names

The canonical name of an index is `i_` or `ui_`, the table, an underscore and the
column; but a table whose name holds the placeholder of the column has the column
put in there too.  Even so, indexes of one table have one name only if they are of
one kind and on one column (`indexName_inj`): however often the column stands in the
name of the table, it stands there equally often for every column, so names of the
same length end in columns of the same length.
-/

namespace SchemaPlan

namespace Text

variable {pattern value : List Char}

/-- An occurrence that begins before a character which the pattern lacks ends before
it. -/
theorem isPrefixOf_append_cons {d : Char} (hd : d ∉ pattern) (text rest : List Char) :
    pattern.isPrefixOf (text ++ d :: rest) = pattern.isPrefixOf text := by
  rw [Bool.eq_iff_iff, List.isPrefixOf_iff_prefix, List.isPrefixOf_iff_prefix]
  constructor
  · intro h
    refine List.prefix_of_prefix_length_le h (List.prefix_append _ _)
      (Nat.not_lt.1 fun hlt => ?_)
    have hget : pattern[text.length] = d := by
      rw [h.getElem hlt]
      simp
    exact hd (hget ▸ List.getElem_mem hlt)
  · exact fun h => h.trans (List.prefix_append _ _)

/-- Nothing is replaced across a character that the pattern lacks. -/
theorem replaceFrom_append_cons {d : Char} (hne : pattern ≠ []) (hd : d ∉ pattern)
    (rest : List Char) : ∀ {skip : Nat} {text : List Char}, skip ≤ text.length →
      replaceFrom pattern value skip (text ++ d :: rest)
        = replaceFrom pattern value skip text ++ d :: replaceFrom pattern value 0 rest
  | 0, [], _ => by
    have hnot : pattern.isPrefixOf (d :: rest) = false := by
      have h := isPrefixOf_append_cons hd [] rest
      cases pattern with
      | nil => exact absurd rfl hne
      | cons => exact h
    rw [List.nil_append, replaceFrom_nil, replaceFrom, hnot]
    rfl
  | 0, c :: text, _ => by
    rw [List.cons_append, replaceFrom, ← List.cons_append,
      isPrefixOf_append_cons hd, replaceFrom]
    split
    · next hprefix =>
      have hlength := (List.isPrefixOf_iff_prefix.1 hprefix).length_le
      rw [List.length_cons] at hlength
      rw [replaceFrom_append_cons hne hd rest (by omega), List.append_assoc]
    · rw [replaceFrom_append_cons hne hd rest (Nat.zero_le _), List.cons_append]
  | skip + 1, _ :: text, h => by
    rw [List.cons_append, replaceFrom, replaceFrom]
    exact replaceFrom_append_cons hne hd rest (Nat.le_of_succ_le_succ h)

/-- How long a text gets depends on how long the value is, and on nothing else of
it. -/
theorem length_replaceFrom (pattern : List Char) : ∀ (skip : Nat) (text : List Char),
    ∃ base count, ∀ value,
      (replaceFrom pattern value skip text).length = base + count * value.length
  | skip, [] => ⟨0, 0, fun value => by rw [replaceFrom_nil, Nat.zero_mul]; rfl⟩
  | skip + 1, _ :: text => by
    obtain ⟨base, count, h⟩ := length_replaceFrom pattern skip text
    exact ⟨base, count, fun value => by rw [replaceFrom, h]⟩
  | 0, c :: text => by
    by_cases hprefix : pattern.isPrefixOf (c :: text) = true
    · obtain ⟨base, count, h⟩ := length_replaceFrom pattern (pattern.length - 1) text
      refine ⟨base, count + 1, fun value => ?_⟩
      rw [replaceFrom, if_pos hprefix, List.length_append, h, Nat.succ_mul]
      omega
    · obtain ⟨base, count, h⟩ := length_replaceFrom pattern 0 text
      refine ⟨base + 1, count, fun value => ?_⟩
      rw [replaceFrom, if_neg hprefix, List.length_cons, h]
      omega

end Text

namespace IndexKind

/-- How the names of a kind begin. -/
def start : IndexKind → List Char
  | plain => ['i', '_']
  | unique => ['u', 'i', '_']

/-- The placeholder of the column. -/
def columnPlaceholder : List Char := "\x7bcolumn\x7d".toList

/-- The table as it stands in the name of an index on a column. -/
def tablePart (table column : String) : List Char :=
  Text.replaceFrom columnPlaceholder column.toList 0 table.toList

/-- The placeholder of the table is replaced. -/
theorem replaceFrom_pattern (kind : IndexKind) (table : List Char) :
    Text.replaceFrom "\x7btable\x7d".toList table 0 kind.pattern.toList
      = kind.start ++ (table ++ '_' :: columnPlaceholder) := by
  cases kind <;> rfl

theorem replaceFrom_columnPlaceholder (column : List Char) :
    Text.replaceFrom columnPlaceholder column 0 columnPlaceholder = column :=
  column.append_nil

theorem toList_indexName (kind : IndexKind) (table column : String) :
    (kind.indexName table column).toList
      = kind.start ++ (tablePart table column ++ '_' :: column.toList) := by
  have hname : (kind.indexName table column).toList
      = Text.replaceFrom columnPlaceholder column.toList 0
        (Text.replaceFrom "\x7btable\x7d".toList table.toList 0 kind.pattern.toList) := by
    simp only [indexName, fillPattern, List.foldl_cons, List.foldl_nil, Text.replaceAll,
      String.toList_ofList]
    rfl
  have hstart : ∀ text, Text.replaceFrom columnPlaceholder column.toList 0 (kind.start ++ text)
      = kind.start ++ Text.replaceFrom columnPlaceholder column.toList 0 text := by
    intro text
    cases kind <;> rfl
  rw [hname, replaceFrom_pattern, hstart,
    Text.replaceFrom_append_cons (by decide) (by decide) _ (Nat.zero_le _),
    replaceFrom_columnPlaceholder]
  rfl

/-- How long a name gets depends on how long the column is, and on nothing else of it. -/
theorem length_indexName (kind : IndexKind) (table : String) : ∃ base count, ∀ column,
    (kind.indexName table column).toList.length
      = base + (count + 1) * column.toList.length := by
  obtain ⟨base, count, hlength⟩ := Text.length_replaceFrom columnPlaceholder 0 table.toList
  refine ⟨kind.start.length + base + 1, count, fun column => ?_⟩
  rw [toList_indexName, List.length_append, List.length_append, List.length_cons, tablePart,
    hlength, Nat.succ_mul]
  omega

/-- Indexes of one table with one name are of one kind and on one column. -/
theorem indexName_inj {kind kind' : IndexKind} {table column column' : String} :
    kind.indexName table column = kind'.indexName table column' ↔
      kind = kind' ∧ column = column' := by
  constructor
  · intro h
    have hchars := congrArg String.toList h
    rw [toList_indexName, toList_indexName] at hchars
    have hkind : kind = kind' := by
      cases kind <;> cases kind' <;> first | rfl | simp [start] at hchars
    subst hkind
    have htail := List.append_cancel_left hchars
    obtain ⟨base, count, hlength⟩ := kind.length_indexName table
    have hcolumn : column.toList.length = column'.toList.length :=
      Nat.eq_of_mul_eq_mul_left (Nat.succ_pos count)
        (Nat.add_left_cancel (by rw [← hlength, ← hlength, h]))
    have hcons :=
      List.append_inj_right' htail (by rw [List.length_cons, List.length_cons, hcolumn])
    exact ⟨rfl, String.toList_injective (List.cons.inj hcons).2⟩
  · rintro ⟨rfl, rfl⟩
    rfl

/-- Whatever a table and its columns are called, the names of its indexes never collide:
of one kind each column has a name of its own, and no name is of both kinds. -/
theorem indexNames_distinct (table : String) :
    (∀ kind : IndexKind, Function.Injective (kind.indexName table)) ∧
      ∀ first second, plain.indexName table first ≠ unique.indexName table second := by
  constructor
  · intro kind first second h
    exact (indexName_inj.1 h).2
  · intro first second h
    exact nomatch (indexName_inj.1 h).1

/-- A table with the placeholder of the column in its name. -/
example : indexName .plain "a\x7bcolumn\x7d" "b" = "i_ab_b" := by decide +kernel

end IndexKind

end SchemaPlan
