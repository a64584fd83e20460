import SchemaPlan.Proofs.Replay.Indexes
import SchemaPlan.Proofs.Replay.Keys
set_option autoImplicit false

/-!
# Replaying indexes with the columns that they cover

Here a table is seen as its columns with their keys, and its indexes, each under a
name and on a column.  An index stays under its name when its column gets a new one,
and goes when its column goes.  A statement that leaves the origins of columns alone
(`Statement.Respects`) keeps every column with an index of its own covered by an index
that is named after its origin (`Covers.alter`), and makes no index that is named
otherwise (`Owned.alter`).
-/

namespace SchemaPlan

open Replay

/-! ## Indexes -/

/-- An index on one column. -/
structure Index where
  kind : IndexKind
  column : String
  deriving DecidableEq, Repr

namespace Index

/-- An index covers its column also when the column has a new name. -/
def rename (old new : String) (index : Index) : Index :=
  if index.column = old then { index with column := new } else index

/-- What a statement does to the indexes of the table that it alters; `none` if it drops
a name that is not there, or adds one that is.  A column that goes takes the indexes
with it that cover it. -/
def step : Statement → Keyed Index → Option (Keyed Index)
  | .addIndex kind table column, indexes =>
    if indexes.contains (kind.indexName table column) then none
    else some (indexes.insert (kind.indexName table column) ⟨kind, column⟩)
  | .dropIndex kind table column, indexes =>
    if indexes.contains (kind.indexName table column) then
      some (indexes.erase (kind.indexName table column))
    else none
  | .changeColumn _ old c, indexes =>
    some (indexes.mapValues fun _ index => index.rename old c.name)
  | .dropColumn _ column, indexes =>
    some (indexes.filterValues fun index => index.column != column)
  | _, indexes => some indexes

end Index

/-- A table as its columns with their keys, and its indexes by name. -/
structure IndexedTable where
  keys : Keyed ColumnKey
  indexes : Keyed Index

namespace IndexedTable

/-- What a statement does to the table that it alters. -/
def alter (s : Statement) (v : IndexedTable) : Option IndexedTable :=
  (keyColumns.step s v.keys).bind fun keys =>
    (Index.step s v.indexes).map fun indexes => ⟨keys, indexes⟩

theorem alter_eq_some_iff {s : Statement} {v w : IndexedTable} : alter s v = some w ↔
    keyColumns.step s v.keys = some w.keys ∧ Index.step s v.indexes = some w.indexes := by
  constructor
  · intro h
    obtain ⟨keys, hkeys, h⟩ := Option.bind_eq_some_iff.1 h
    obtain ⟨indexes, hindexes, rfl⟩ := Option.map_eq_some_iff.1 h
    exact ⟨hkeys, hindexes⟩
  · rintro ⟨hkeys, hindexes⟩
    rw [alter, hkeys, hindexes]
    rfl

/-- What a statement has found in a table and what it leaves there. -/
inductive Altered (v : IndexedTable) : Statement → IndexedTable → Prop
  | other {s : Statement} (h : s.altersColumns? = none) : Altered v s v
  | columnAdded {table : String} {c : Column} (free : v.keys.get? c.name = none) :
    Altered v (.addColumn table c) ⟨v.keys.insert c.name .none, v.indexes⟩
  | columnDropped {table column : String} :
    Altered v (.dropColumn table column)
      ⟨v.keys.erase column, v.indexes.filterValues fun index => index.column != column⟩
  | columnChanged {table old : String} {c : Column} {key : ColumnKey}
    (there : v.keys.get? old = some key) (free : c.name = old ∨ v.keys.get? c.name = none) :
    Altered v (.changeColumn table old c) ⟨(v.keys.erase old).insert c.name key,
      v.indexes.mapValues fun _ index => index.rename old c.name⟩
  | indexAdded {kind : IndexKind} {table column : String} {key : ColumnKey}
    (there : v.keys.get? column = some key)
    (free : v.indexes.get? (kind.indexName table column) = none) :
    Altered v (.addIndex kind table column) ⟨v.keys.insert column kind.key,
      v.indexes.insert (kind.indexName table column) ⟨kind, column⟩⟩
  | indexDropped {kind : IndexKind} {table column : String} {key : ColumnKey}
    (there : v.keys.get? column = some key) :
    Altered v (.dropIndex kind table column) ⟨v.keys.insert column .none,
      v.indexes.erase (kind.indexName table column)⟩
  | primaryKeyAdded {table column : String} {key : ColumnKey}
    (there : v.keys.get? column = some key) :
    Altered v (.addPrimaryKey table column) ⟨v.keys.insert column .primary, v.indexes⟩
  | primaryKeyDropped {table : String} :
    Altered v (.dropPrimaryKey table)
      ⟨v.keys.mapValues fun _ key => keyColumns.clear key, v.indexes⟩

theorem altered_of_alter {s : Statement} {v w : IndexedTable} (h : alter s v = some w) :
    Altered v s w := by
  obtain ⟨keys, indexes⟩ := w
  obtain ⟨hkeys, hindexes⟩ := alter_eq_some_iff.1 h
  cases s with
  | addColumn table c =>
    rw [ColumnModel.step, Option.ite_none_left_eq_some] at hkeys
    obtain rfl := Option.some.inj hkeys.2
    obtain rfl := Option.some.inj hindexes
    exact .columnAdded (Keyed.get?_eq_none_of_not_contains hkeys.1)
  | dropColumn table column =>
    rw [ColumnModel.step, Option.ite_none_right_eq_some] at hkeys
    obtain rfl := Option.some.inj hkeys.2
    obtain rfl := Option.some.inj hindexes
    exact .columnDropped
  | changeColumn table old c =>
    obtain ⟨key, hold, hkeys⟩ := Option.bind_eq_some_iff.1 hkeys
    rw [Option.ite_none_left_eq_some, not_and_or, not_not] at hkeys
    obtain rfl := Option.some.inj hkeys.2
    obtain rfl := Option.some.inj hindexes
    exact .columnChanged hold (hkeys.1.imp_right Keyed.get?_eq_none_of_not_contains)
  | addIndex kind table column =>
    obtain ⟨key, hget, rfl⟩ := Option.map_eq_some_iff.1 hkeys
    rw [Index.step, Option.ite_none_left_eq_some] at hindexes
    obtain rfl := Option.some.inj hindexes.2
    exact .indexAdded hget (Keyed.get?_eq_none_of_not_contains hindexes.1)
  | dropIndex kind table column =>
    obtain ⟨key, hget, rfl⟩ := Option.map_eq_some_iff.1 hkeys
    rw [Index.step, Option.ite_none_right_eq_some] at hindexes
    obtain rfl := Option.some.inj hindexes.2
    exact .indexDropped hget
  | addPrimaryKey table column =>
    obtain ⟨key, hget, rfl⟩ := Option.map_eq_some_iff.1 hkeys
    obtain rfl := Option.some.inj hindexes
    exact .primaryKeyAdded hget
  | dropPrimaryKey table =>
    obtain rfl := Option.some.inj hkeys
    obtain rfl := Option.some.inj hindexes
    exact .primaryKeyDropped
  | _ =>
    obtain rfl := Option.some.inj hkeys
    obtain rfl := Option.some.inj hindexes
    exact .other rfl

/-- Each column with a key that has an index of its own is covered by an index that is
named after the column, as `origin` names it. -/
def Covers (v : IndexedTable) (table : String) (origin : String → String) : Prop :=
  ∀ (column : String) (kind : IndexKind), v.keys.get? column = some kind.key →
    v.indexes.get? (kind.indexName table (origin column)) = some ⟨kind, column⟩

/-- Each index covers a column that is there, and is named after it, as `origin` names it. -/
def Owned (v : IndexedTable) (table : String) (origin : String → String) : Prop :=
  ∀ name index, v.indexes.get? name = some index →
    (∃ key, v.keys.get? index.column = some key) ∧
      name = index.kind.indexName table (origin index.column)

variable {table : String} {origin : String → String} {keys : Keyed ColumnKey}
  {indexes : Keyed Index}

/-! ### Columns that are covered -/

section Covers

variable (h : Covers ⟨keys, indexes⟩ table origin)
include h

theorem Covers.insert_key (column : String) {key : ColumnKey}
    (hkey : ∀ kind : IndexKind, key ≠ kind.key) :
    Covers ⟨keys.insert column key, indexes⟩ table origin := by
  intro other kind hother
  obtain ⟨-, heq⟩ | ⟨-, hother⟩ := Keyed.get?_insert_eq_some_iff.1 hother
  · exact absurd heq (hkey kind)
  · exact h _ _ hother

theorem Covers.clear :
    Covers ⟨keys.mapValues fun _ key => keyColumns.clear key, indexes⟩ table origin := by
  intro column kind hcolumn
  obtain ⟨key, hget, hclear⟩ := Keyed.get?_mapValues_eq_some_iff.1 hcolumn
  cases key <;> cases kind <;> first | exact h _ _ hget | exact nomatch hclear

theorem Covers.drop (column : String) :
    Covers ⟨keys.erase column, indexes.filterValues fun index => index.column != column⟩ table
      origin := by
  intro other kind hother
  obtain ⟨hne, hother⟩ := Keyed.get?_erase_eq_some_iff.1 hother
  rw [Keyed.get?_filterValues, h _ _ hother, Option.filter_some_pos]
  exact bne_iff_ne.2 (Ne.symm hne)

theorem Covers.rename {old new : String} {key : ColumnKey} (hold : keys.get? old = some key)
    (horigin : origin new = origin old) :
    Covers ⟨(keys.erase old).insert new key,
      indexes.mapValues fun _ index => index.rename old new⟩ table origin := by
  intro column kind hcolumn
  rw [Keyed.get?_mapValues]
  obtain ⟨rfl, rfl⟩ | ⟨-, hcolumn⟩ := Keyed.get?_insert_eq_some_iff.1 hcolumn
  · rw [horigin, h _ _ hold, Option.map_some, Index.rename, if_pos rfl]
  · obtain ⟨hne, hcolumn⟩ := Keyed.get?_erase_eq_some_iff.1 hcolumn
    rw [h _ _ hcolumn, Option.map_some, Index.rename, if_neg (Ne.symm hne)]

theorem Covers.add_index {kind : IndexKind} {column : String} (horigin : origin column = column)
    (hfree : indexes.get? (kind.indexName table column) = none) :
    Covers ⟨keys.insert column kind.key,
      indexes.insert (kind.indexName table column) ⟨kind, column⟩⟩ table origin := by
  intro other kind' hother
  obtain ⟨rfl, hkey⟩ | ⟨-, hother⟩ := Keyed.get?_insert_eq_some_iff.1 hother
  · rw [horigin, IndexKind.key_inj.1 hkey, Keyed.get?_insert_self]
  · have hcovered := h _ _ hother
    rw [Keyed.get?_insert_of_ne _ _ fun heq => ?_, hcovered]
    rw [heq, hfree] at hcovered
    exact nomatch hcovered

theorem Covers.drop_index {kind : IndexKind} {column : String}
    (horigin : ∀ other, origin other = column → other = column) :
    Covers ⟨keys.insert column .none, indexes.erase (kind.indexName table column)⟩ table
      origin := by
  intro other kind' hother
  obtain ⟨-, hkey⟩ | ⟨hne, hother⟩ := Keyed.get?_insert_eq_some_iff.1 hother
  · exact absurd hkey.symm kind'.key_ne_none
  · rw [Keyed.get?_erase_of_ne _ fun heq => ?_, h _ _ hother]
    exact hne (horigin other (IndexKind.indexName_inj.1 heq).2).symm

end Covers

/-! ### Indexes of columns that are there -/

section Owned

variable (h : Owned ⟨keys, indexes⟩ table origin)
include h

theorem Owned.insert_key (column : String) (key : ColumnKey) :
    Owned ⟨keys.insert column key, indexes⟩ table origin := by
  intro name index hindex
  obtain ⟨⟨key', hkey'⟩, hname⟩ := h _ _ hindex
  refine ⟨?_, hname⟩
  rw [Keyed.get?_insert]
  split
  · exact ⟨key, rfl⟩
  · exact ⟨key', hkey'⟩

theorem Owned.clear :
    Owned ⟨keys.mapValues fun _ key => keyColumns.clear key, indexes⟩ table origin := by
  intro name index hindex
  obtain ⟨⟨key, hkey⟩, hname⟩ := h _ _ hindex
  rw [Keyed.get?_mapValues, hkey]
  exact ⟨⟨_, rfl⟩, hname⟩

theorem Owned.drop (column : String) :
    Owned ⟨keys.erase column, indexes.filterValues fun index => index.column != column⟩ table
      origin := by
  intro name index hindex
  rw [Keyed.get?_filterValues, Option.filter_eq_some_iff, bne_iff_ne] at hindex
  obtain ⟨hkey, hname⟩ := h _ _ hindex.1
  rw [Keyed.get?_erase_of_ne _ hindex.2]
  exact ⟨hkey, hname⟩

theorem Owned.rename {old new : String} {key : ColumnKey} (horigin : origin new = origin old) :
    Owned ⟨(keys.erase old).insert new key,
      indexes.mapValues fun _ index => index.rename old new⟩ table origin := by
  intro name index hindex
  obtain ⟨index, hold, rfl⟩ := Keyed.get?_mapValues_eq_some_iff.1 hindex
  obtain ⟨hkey, hname⟩ := h _ _ hold
  rw [Index.rename]
  split
  · next heq =>
    rw [Keyed.get?_insert_self, horigin, ← heq]
    exact ⟨⟨key, rfl⟩, hname⟩
  · next hne =>
    rw [Keyed.get?_insert, Keyed.get?_erase_of_ne _ hne]
    refine ⟨?_, hname⟩
    split
    · exact ⟨key, rfl⟩
    · exact hkey

theorem Owned.add_index {kind : IndexKind} {column : String}
    (horigin : origin column = column) :
    Owned ⟨keys.insert column kind.key,
      indexes.insert (kind.indexName table column) ⟨kind, column⟩⟩ table origin := by
  intro name index hindex
  obtain ⟨rfl, rfl⟩ | ⟨-, hindex⟩ := Keyed.get?_insert_eq_some_iff.1 hindex
  · rw [Keyed.get?_insert_self, horigin]
    exact ⟨⟨_, rfl⟩, rfl⟩
  · exact h.insert_key column kind.key _ _ hindex

theorem Owned.drop_index (name column : String) (key : ColumnKey) :
    Owned ⟨keys.insert column key, indexes.erase name⟩ table origin := by
  intro other index hindex
  exact h.insert_key column key _ _ (Keyed.get?_erase_eq_some_iff.1 hindex).2

end Owned

end IndexedTable

/-- A statement leaves the names in place by which `origin` calls columns, where `old`
are the columns that were there at first: it brings in no column that was there, drops
only such columns, renames no column to one of another origin, and its indexes are
those of columns of which no other has the name for an origin. -/
def Statement.Respects (table : String) (origin : String → String) (old : String → Prop) :
    Statement → Prop
  | .addColumn _ c => ¬ old c.name
  | .dropColumn _ column => old column ∧ origin column = column
  | .changeColumn _ prior c => origin c.name = origin prior ∧ (c.name = prior ∨ ¬ old c.name)
  | .addIndex _ named column => named = table ∧ ∀ other, origin other = column ↔ other = column
  | .dropIndex _ named column => named = table ∧ ∀ other, origin other = column ↔ other = column
  | _ => True

namespace IndexedTable

variable {v w : IndexedTable} {table : String} {origin : String → String} {old : String → Prop}
  {s : Statement}

/-- Which names count as origins matters for columns that are there only. -/
theorem Covers.congr (h : v.Covers table origin) {origin' : String → String}
    (horigin : ∀ column key, v.keys.get? column = some key → origin' column = origin column) :
    v.Covers table origin' := by
  intro column kind hkey
  rw [horigin column _ hkey]
  exact h _ _ hkey

theorem Owned.congr (h : v.Owned table origin) {origin' : String → String}
    (horigin : ∀ column key, v.keys.get? column = some key → origin' column = origin column) :
    v.Owned table origin' := by
  intro name index hindex
  obtain ⟨⟨key, hkey⟩, hname⟩ := h _ _ hindex
  refine ⟨⟨key, hkey⟩, ?_⟩
  rw [horigin _ key hkey]
  exact hname

theorem Covers.alter (h : v.Covers table origin) (hs : s.Respects table origin old)
    (hstep : alter s v = some w) : w.Covers table origin := by
  cases altered_of_alter hstep with
  | other _ => exact h
  | columnAdded _ => exact h.insert_key _ fun kind => kind.key_ne_none.symm
  | columnDropped => exact h.drop _
  | columnChanged hold _ => exact h.rename hold hs.1
  | indexAdded _ hfree =>
    obtain ⟨rfl, horigin⟩ := hs
    exact h.add_index ((horigin _).2 rfl) hfree
  | indexDropped _ =>
    obtain ⟨rfl, horigin⟩ := hs
    exact h.drop_index fun other => (horigin other).1
  | primaryKeyAdded _ => exact h.insert_key _ fun kind => kind.key_ne_primary.symm
  | primaryKeyDropped => exact h.clear

theorem Owned.alter (h : v.Owned table origin) (hs : s.Respects table origin old)
    (hstep : alter s v = some w) : w.Owned table origin := by
  cases altered_of_alter hstep with
  | other _ => exact h
  | columnAdded _ => exact h.insert_key _ _
  | columnDropped => exact h.drop _
  | columnChanged _ _ => exact h.rename hs.1
  | indexAdded _ _ =>
    obtain ⟨rfl, horigin⟩ := hs
    exact h.add_index ((horigin _).2 rfl)
  | indexDropped _ => exact h.drop_index _ _ _
  | primaryKeyAdded _ => exact h.insert_key _ _
  | primaryKeyDropped => exact h.clear

/-- The names of indexes in a replay that knows no columns: those that are there, and
names after columns that were there and are gone. -/
structure Shadowed (v : IndexedTable) (table : String) (old : String → Prop)
    (names : Keyed Unit) : Prop where
  there : ∀ {name : String} {index : Index}, v.indexes.get? name = some index →
    names.get? name = some ()
  gone : ∀ {name : String}, names.get? name = some () → v.indexes.get? name = none →
    ∃ (kind : IndexKind) (column : String), name = kind.indexName table column ∧ old column ∧
      v.keys.get? column = none

section Shadowed

variable {keys : Keyed ColumnKey} {indexes : Keyed Index} {names : Keyed Unit}
  (h : Shadowed ⟨keys, indexes⟩ table old names)
include h

theorem Shadowed.insert_key {column : String} (key : ColumnKey)
    (hcolumn : ¬ old column ∨ ∃ key, keys.get? column = some key) :
    Shadowed ⟨keys.insert column key, indexes⟩ table old names where
  there hindex := h.there hindex
  gone {name} hname hindex := by
    obtain ⟨kind, other, heq, hold, hnone⟩ := h.gone hname hindex
    refine ⟨kind, other, heq, hold, ?_⟩
    have hne : other ≠ column := by
      rintro rfl
      rcases hcolumn with hnot | ⟨key, hkey⟩
      · exact hnot hold
      · exact nomatch hkey.symm.trans hnone
    exact (Keyed.get?_insert_of_ne _ _ hne).trans hnone

theorem Shadowed.clear :
    Shadowed ⟨keys.mapValues fun _ key => keyColumns.clear key, indexes⟩ table old names where
  there hindex := h.there hindex
  gone {name} hname hindex := by
    obtain ⟨kind, other, heq, hold, hnone⟩ := h.gone hname hindex
    have hnone : keys.get? other = none := hnone
    refine ⟨kind, other, heq, hold, ?_⟩
    rw [Keyed.get?_mapValues, hnone]
    rfl

theorem Shadowed.drop (howned : Owned ⟨keys, indexes⟩ table origin) {column : String}
    (hcolumn : old column ∧ origin column = column) :
    Shadowed ⟨keys.erase column, indexes.filterValues fun index => index.column != column⟩ table
      old names where
  there {name index} hindex := by
    rw [Keyed.get?_filterValues, Option.filter_eq_some_iff] at hindex
    exact h.there hindex.1
  gone {name} hname hindex := by
    rw [Keyed.get?_filterValues] at hindex
    cases hget : indexes.get? name with
    | none =>
      obtain ⟨kind, other, heq, hold, hnone⟩ := h.gone hname hget
      refine ⟨kind, other, heq, hold, ?_⟩
      rw [Keyed.get?_erase]
      split
      · rfl
      · exact hnone
    | some index =>
      -- the index goes with its column, and was named after it
      rw [hget, Option.filter_eq_none_iff] at hindex
      have hcovers : index.column = column := by simpa using hindex index rfl
      have heq := (howned _ _ hget).2
      rw [hcovers, hcolumn.2] at heq
      exact ⟨index.kind, column, heq, hcolumn.1, Keyed.get?_erase_self _ _⟩

theorem Shadowed.rename {prior new : String} {key : ColumnKey}
    (hprior : keys.get? prior = some key) (hnew : new = prior ∨ ¬ old new) :
    Shadowed ⟨(keys.erase prior).insert new key,
      indexes.mapValues fun _ index => index.rename prior new⟩ table old names where
  there {name index} hindex := by
    obtain ⟨index, hget, -⟩ := Keyed.get?_mapValues_eq_some_iff.1 hindex
    exact h.there hget
  gone {name} hname hindex := by
    rw [Keyed.get?_mapValues, Option.map_eq_none_iff] at hindex
    obtain ⟨kind, other, heq, hold, hnone⟩ := h.gone hname hindex
    refine ⟨kind, other, heq, hold, ?_⟩
    have hne : other ≠ new := by
      rintro rfl
      rcases hnew with rfl | hnot
      · exact nomatch hprior.symm.trans hnone
      · exact hnot hold
    refine (Keyed.get?_insert_of_ne _ _ hne).trans ?_
    rw [Keyed.get?_erase]
    split
    · rfl
    · exact hnone

theorem Shadowed.add_index (name : String) (index : Index) :
    Shadowed ⟨keys, indexes.insert name index⟩ table old (names.insert name ()) where
  there {other index} hindex := by
    rw [Keyed.get?_insert] at hindex ⊢
    split at hindex
    · next heq => rw [if_pos heq]
    · next hne =>
      rw [if_neg hne]
      exact h.there hindex
  gone {other} hname hindex := by
    rw [Keyed.get?_insert] at hname hindex
    split at hindex
    · exact nomatch hindex
    · next hne =>
      rw [if_neg hne] at hname
      exact h.gone hname hindex

theorem Shadowed.drop_index (name : String) :
    Shadowed ⟨keys, indexes.erase name⟩ table old (names.erase name) where
  there {other index} hindex := by
    rw [Keyed.get?_erase] at hindex ⊢
    split at hindex
    · exact nomatch hindex
    · next hne =>
      rw [if_neg hne]
      exact h.there hindex
  gone {other} hname hindex := by
    rw [Keyed.get?_erase] at hname hindex
    split at hname
    · exact nomatch hname
    · next hne =>
      rw [if_neg hne] at hindex
      exact h.gone hname hindex

end Shadowed

variable {names names' : Keyed Unit} {keys : Keyed ColumnKey}

/-- Statements find the indexes that they drop, and do not find those that they add, if
they do so in a replay that knows no columns. -/
theorem Shadowed.exists_step (h : v.Shadowed table old names) (hs : s.Respects table origin old)
    (hkeys : keyColumns.step s v.keys = some keys)
    (hnames : IndexNames.step s names = some names') :
    ∃ indexes, Index.step s v.indexes = some indexes := by
  cases s with
  | addIndex kind named column =>
    rw [IndexNames.step, Option.ite_none_left_eq_some] at hnames
    refine ⟨_, if_neg fun hcontains => hnames.1 ?_⟩
    obtain ⟨index, hindex⟩ := Keyed.exists_of_contains hcontains
    exact Keyed.contains_of_get? (h.there hindex)
  | dropIndex kind named column =>
    obtain ⟨rfl, -⟩ := hs
    obtain ⟨key, hget, -⟩ := Option.map_eq_some_iff.1 hkeys
    rw [IndexNames.step, Option.ite_none_right_eq_some] at hnames
    cases hindex : v.indexes.get? (kind.indexName named column) with
    | some index => exact ⟨_, if_pos (Keyed.contains_of_get? hindex)⟩
    | none =>
      obtain ⟨_, hthere⟩ := Keyed.exists_of_contains hnames.1
      obtain ⟨kind', column', heq, -, hnone⟩ := h.gone hthere hindex
      rw [(IndexKind.indexName_inj.1 heq).2, hnone] at hget
      cases hget
  | _ => exact ⟨_, rfl⟩

theorem Shadowed.alter (h : v.Shadowed table old names) (howned : v.Owned table origin)
    (hs : s.Respects table origin old) (hstep : alter s v = some w)
    (hnames : IndexNames.step s names = some names') : w.Shadowed table old names' := by
  cases altered_of_alter hstep with
  | other hother =>
    have hsame : names' = names := by
      cases s <;> first | exact (Option.some.inj hnames).symm | exact nomatch hother
    rwa [hsame]
  | columnAdded _ =>
    obtain rfl := Option.some.inj hnames
    exact h.insert_key _ (.inl hs)
  | columnDropped =>
    obtain rfl := Option.some.inj hnames
    exact h.drop howned hs
  | columnChanged hprior _ =>
    obtain rfl := Option.some.inj hnames
    exact h.rename hprior hs.2
  | indexAdded hthere _ =>
    rw [IndexNames.step, Option.ite_none_left_eq_some] at hnames
    rw [← Option.some.inj hnames.2]
    exact (h.insert_key _ (.inr ⟨_, hthere⟩)).add_index _ _
  | indexDropped hthere =>
    rw [IndexNames.step, Option.ite_none_right_eq_some] at hnames
    rw [← Option.some.inj hnames.2]
    exact (h.insert_key _ (.inr ⟨_, hthere⟩)).drop_index _
  | primaryKeyAdded hthere =>
    obtain rfl := Option.some.inj hnames
    exact h.insert_key _ (.inr ⟨_, hthere⟩)
  | primaryKeyDropped =>
    obtain rfl := Option.some.inj hnames
    exact h.clear

/-! ### Runs -/

/-- Statements that can be replayed on keys, and on the names of indexes, can be replayed
on both. -/
theorem Owned.exists_run {statements : List Statement} (h : v.Owned table origin)
    (hshadowed : v.Shadowed table old names)
    (hs : ∀ s ∈ statements, s.Respects table origin old)
    (hkeys : run keyColumns.step statements v.keys = some keys)
    (hnames : run IndexNames.step statements names = some names') :
    ∃ w, run IndexedTable.alter statements v = some w := by
  induction statements generalizing v names with
  | nil => exact ⟨v, rfl⟩
  | cons s rest ih =>
    obtain ⟨nextKeys, hnextKeys, hkeys⟩ := Option.bind_eq_some_iff.1 hkeys
    obtain ⟨nextNames, hnextNames, hnames⟩ := Option.bind_eq_some_iff.1 hnames
    have hsHead := hs s List.mem_cons_self
    obtain ⟨indexes, hindexes⟩ := hshadowed.exists_step hsHead hnextKeys hnextNames
    have hnext : IndexedTable.alter s v = some ⟨nextKeys, indexes⟩ :=
      alter_eq_some_iff.2 ⟨hnextKeys, hindexes⟩
    obtain ⟨w, hw⟩ := ih (h.alter hsHead hnext) (hshadowed.alter h hsHead hnext hnextNames)
      (fun t ht => hs t (List.mem_cons_of_mem _ ht)) hkeys hnames
    refine ⟨w, ?_⟩
    rw [Replay.run, hnext]
    exact hw

end IndexedTable
end SchemaPlan
