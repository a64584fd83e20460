import Mathlib.Data.List.Perm.Basic
import Mathlib.Data.List.Sort
import SchemaPlan.Proofs.Listing
set_option autoImplicit false

/-!
# Plans in both directions

What a statement does to the structure of a database is a `Move`, and each move
has a reverse.  The plans between two valid schemas, forth and back, make moves
that are reverse to each other (`diff_mirrors`): what one renames the other
renames back, what one creates, adds or indexes the other drops, and both convert
the same tables and redefine the same columns.  The pairings are symmetric since
they go by classes, and the transitions of a key are antisymmetric cell by cell.
-/

namespace SchemaPlan

/-! ## Moves -/

/-- What a statement does to the structure of a database. -/
inductive Move
  | renamedTable (old new : String)
  | createdTable (table : String)
  | droppedTable (table : String)
  /-- A table is converted to a character set. -/
  | converted
  | renamedColumn (old new : String)
  /-- A column keeps its name and gets a new definition. -/
  | redefinedColumn (column : String)
  | addedColumn (column : String)
  | droppedColumn (column : String)
  /-- An index of a kind is added on a column, under its canonical name. -/
  | addedIndex (kind : IndexKind) (column name : String)
  | droppedIndex (kind : IndexKind) (column name : String)
  | addedPrimaryKey
  | droppedPrimaryKey
  deriving DecidableEq, Repr

/-- The move that undoes a move. -/
def Move.reverse : Move → Move
  | .renamedTable old new => .renamedTable new old
  | .createdTable table => .droppedTable table
  | .droppedTable table => .createdTable table
  | .converted => .converted
  | .renamedColumn old new => .renamedColumn new old
  | .redefinedColumn column => .redefinedColumn column
  | .addedColumn column => .droppedColumn column
  | .droppedColumn column => .addedColumn column
  | .addedIndex kind column name => .droppedIndex kind column name
  | .droppedIndex kind column name => .addedIndex kind column name
  | .addedPrimaryKey => .droppedPrimaryKey
  | .droppedPrimaryKey => .addedPrimaryKey

theorem Move.reverse_reverse (move : Move) : move.reverse.reverse = move := by
  cases move <;> rfl

/-- The move that a statement makes; the defaults of a database are none. -/
def Statement.move? : Statement → Option Move
  | .alterDatabase .. => none
  | .convertTable .. => some .converted
  | .createTable t => some (.createdTable t.name)
  | .dropTable table => some (.droppedTable table)
  | .renameTable old new => some (.renamedTable old new)
  | .addColumn _ c => some (.addedColumn c.name)
  | .dropColumn _ column => some (.droppedColumn column)
  | .changeColumn _ old c =>
    some (if c.name = old then .redefinedColumn old else .renamedColumn old c.name)
  | .addIndex kind table column => some (.addedIndex kind column (kind.indexName table column))
  | .dropIndex kind table column =>
    some (.droppedIndex kind column (kind.indexName table column))
  | .addPrimaryKey .. => some .addedPrimaryKey
  | .dropPrimaryKey .. => some .droppedPrimaryKey

/-- The moves that statements make. -/
def moves (statements : List Statement) : List Move := statements.filterMap Statement.move?

/-- The moves forth are those back, reversed, each as many times. -/
def Mirrors (forth back : List Statement) : Prop :=
  (moves forth).Perm ((moves back).map Move.reverse)

theorem moves_append (first second : List Statement) :
    moves (first ++ second) = moves first ++ moves second :=
  List.filterMap_append

theorem moves_flatMap {α : Type} (items : List α) (block : α → List Statement) :
    moves (items.flatMap block) = items.flatMap fun x => moves (block x) :=
  List.filterMap_flatMap

namespace Mirrors

variable {first second first' second' : List Statement}

theorem symm (h : Mirrors first first') : Mirrors first' first := by
  have hback := (List.Perm.map Move.reverse h).symm
  simp only [List.map_map, Function.comp_def, Move.reverse_reverse, List.map_id'] at hback
  exact hback

theorem append (h : Mirrors first first') (h' : Mirrors second second') :
    Mirrors (first ++ second) (first' ++ second') := by
  unfold Mirrors
  rw [moves_append, moves_append, List.map_append]
  exact List.Perm.append h h'

/-- Two blocks may be undone in the other order. -/
theorem append_swap (h : Mirrors first first') (h' : Mirrors second second') :
    Mirrors (first ++ second) (second' ++ first') := by
  have hback := h.append h'
  unfold Mirrors at hback ⊢
  refine hback.trans (List.Perm.map _ ?_)
  rw [moves_append, moves_append]
  exact List.perm_append_comm

theorem flatMap {α : Type} {items : List α} {block block' : α → List Statement}
    (h : ∀ x ∈ items, Mirrors (block x) (block' x)) :
    Mirrors (items.flatMap block) (items.flatMap block') := by
  unfold Mirrors
  rw [moves_flatMap, moves_flatMap, List.map_flatMap]
  exact List.Perm.flatMap_left items h

end Mirrors

/-! ## The plan of a table -/

theorem Column.differs_comm (a b : Column) : a.differs b = b.differs a := by
  simp only [differs, bne, BEq.comm (a := a.type?), BEq.comm (a := a.charSet),
    BEq.comm (a := a.collation), BEq.comm (a := a.maxLength)]

theorem mirrors_keyTransition (table column : String) (before after : ColumnKey) :
    Mirrors (keyTransition table column before after)
      (keyTransition table column after before) := by
  cases before <;> cases after <;> first | exact .refl _ | exact .swap _ _ _

namespace Table

variable {target current : Table}

theorem mirrors_conversion (target current : Table) :
    Mirrors (target.conversion current) (current.conversion target) := by
  unfold conversion
  rw [bne_comm (a := target.characterSet), bne_comm (a := target.collation)]
  split <;> exact .refl _

/-- A column that comes forth goes back. -/
theorem mirrors_addColumnStatements (target current : Table) {new : String × Column}
    (hcolumn : new.2.name = new.1) :
    Mirrors (target.addColumnStatements new) (current.dropColumnStatements target new) := by
  unfold addColumnStatements dropColumnStatements
  rw [← hcolumn]
  cases new.2.columnKey <;> first | exact .refl _ | exact .swap _ _ _

/-- A column on both sides is redefined forth and back, and its key goes forth
and back. -/
theorem mirrors_sharedColumnStatements (hname : target.name = current.name) {c d : Column}
    (hcolumn : c.name = d.name) :
    Mirrors (target.sharedColumnStatements (c, d)) (current.sharedColumnStatements (d, c)) := by
  unfold sharedColumnStatements
  rw [hname, hcolumn, Column.differs_comm c d]
  refine (mirrors_keyTransition _ _ _ _).append ?_
  split
  · unfold Mirrors moves
    simp [Statement.move?, Move.reverse, hcolumn]
  · exact .refl _

/-- Renamed columns are renamed back. -/
theorem mirrors_renamed (htarget : target.WellFormed) (hcurrent : current.WellFormed) :
    Mirrors
      ((target.columnPairing current).pairs.map fun pair =>
        .changeColumn target.name pair.1.1 pair.2.2)
      ((current.columnPairing target).pairs.map fun pair =>
        .changeColumn current.name pair.1.1 pair.2.2) := by
  have hmoves : ∀ {t u : Table}, t.WellFormed →
      moves ((t.columnPairing u).pairs.map fun pair => .changeColumn t.name pair.1.1 pair.2.2)
        = (t.columnPairing u).pairs.map fun pair => .renamedColumn pair.1.1 pair.2.1 := by
    intro t u ht
    rw [moves, List.filterMap_map, ← List.filterMap_eq_map']
    refine List.filterMap_congr fun pair hpair => ?_
    obtain ⟨hname, hne⟩ := name_ne_of_mem_columnPairing ht hpair
    rw [Function.comp_apply, Statement.move?, if_neg hne, hname]
  have hpairs := (target.columnPairing_mirror current).1.map
    fun pair => Move.renamedColumn pair.1.1 pair.2.1
  rw [Mirrors, hmoves htarget, hmoves hcurrent]
  rw [List.map_map] at hpairs ⊢
  exact hpairs

/-- The plans of a table forth and back make moves that are reverse to each
other. -/
theorem mirrors_plan (htarget : target.WellFormed) (hcurrent : current.WellFormed)
    (hname : target.name = current.name) :
    Mirrors (target.plan current) (current.plan target) := by
  have hadded : ∀ t u : Table, t.WellFormed →
      Mirrors ((t.columnPairing u).new.flatMap t.addColumnStatements)
        ((u.columnPairing t).gone.flatMap (u.dropColumnStatements t)) := by
    intro t u ht
    rw [← (t.columnPairing_mirror u).2]
    refine .flatMap fun new hnew => mirrors_addColumnStatements t u ?_
    exact ht.column_name (lookups_of_mem_new hnew).1
  have hshared : Mirrors ((target.columns.common current.columns).flatMap
      target.sharedColumnStatements)
        ((current.columns.common target.columns).flatMap current.sharedColumnStatements) := by
    rw [Keyed.common_swap target.columns current.columns, List.flatMap_map]
    refine .flatMap fun pair hpair => mirrors_sharedColumnStatements hname ?_
    obtain ⟨key, hc, hd⟩ := Keyed.mem_common.1 hpair
    exact (htarget.column_name hc).trans (hcurrent.column_name hd).symm
  -- what goes forth comes back later, so these two blocks change places
  have hmiddle := (hadded current target hcurrent).symm.append_swap
    (hadded target current htarget)
  have hblocks := (((mirrors_conversion target current).append
    (mirrors_renamed htarget hcurrent)).append hmiddle).append hshared
  simpa only [plan, List.append_assoc] using hblocks

end Table

/-! ## The plan of a schema -/

namespace Schema

variable {target current : Schema}

/-- The moves that a plan makes on tables as such. -/
theorem moves_tables (htarget : target.WellFormed) (hcurrent : current.WellFormed)
    (database : String) :
    moves ((target.plan current database).filter fun s => s.alters? = none)
      = (target.tablePairing current).pairs.map (fun pair => .renamedTable pair.1.1 pair.2.1)
        ++ (target.tablePairing current).gone.map (fun gone => .droppedTable gone.1)
        ++ (target.tablePairing current).new.map fun new => .createdTable new.1 := by
  have hpick : ∀ {s : Statement} {table : String}, s.alters? = some table →
      (if decide (s.alters? = none) = true then s.move? else none) = none := by
    intro s table h
    rw [h]
    rfl
  have hnew : (target.tablePairing current).new.map (fun new => Move.createdTable new.2.name)
      = (target.tablePairing current).new.map fun new => Move.createdTable new.1 := by
    refine List.map_congr_left fun new hnew => ?_
    rw [htarget.table_name (lookups_of_mem_new hnew).1]
  rw [moves, List.filterMap_filter,
    filterMap_plan_tables htarget hcurrent hpick fun _ _ _ => rfl, ← hnew]
  simp only [Statement.alters?, Statement.altersColumns?, Statement.move?, decide_true, if_true,
    List.filterMap_eq_map']

/-- Tables are renamed back, dropped and created the other way round. -/
theorem mirrors_tables (htarget : target.WellFormed) (hcurrent : current.WellFormed)
    (database : String) :
    Mirrors ((target.plan current database).filter fun s => s.alters? = none)
      ((current.plan target database).filter fun s => s.alters? = none) := by
  obtain ⟨hpairs, hnew⟩ := target.tablePairing_mirror current
  have hgone := (current.tablePairing_mirror target).2
  have hrenamed := hpairs.map fun pair => Move.renamedTable pair.1.1 pair.2.1
  rw [Mirrors, moves_tables htarget hcurrent, moves_tables hcurrent htarget, ← hgone, hnew]
  simp only [List.map_append, List.map_map, List.append_assoc] at hrenamed ⊢
  exact hrenamed.append List.perm_append_comm

/-- Each table on both sides is altered forth and back. -/
theorem mirrors_table (htarget : target.WellFormed) (hcurrent : current.WellFormed)
    (database : String) {table : String} (ht : table ∈ target.tables.keys)
    (hu : table ∈ current.tables.keys) :
    Mirrors ((target.plan current database).filter fun s => s.alters? = some table)
      ((current.plan target database).filter fun s => s.alters? = some table) := by
  obtain ⟨t, ht⟩ := Keyed.mem_keys_iff.1 ht
  obtain ⟨u, hu⟩ := Keyed.mem_keys_iff.1 hu
  rw [filter_plan htarget hcurrent database ht hu, filter_plan hcurrent htarget database hu ht]
  exact Table.mirrors_plan (htarget.table ht) (hcurrent.table hu)
    ((htarget.table_name ht).trans (hcurrent.table_name hu).symm)

end Schema

/-- Between two valid schemas there are comparisons forth and back.  The moves of
their plans are reverse to each other: those on tables as such, and those that
alter a table on both sides. -/
theorem diff_mirrors {a b : Schema} (ha : a.validate = .ok ()) (hb : b.validate = .ok ())
    (database : String) :
    (a.diff b database = .ok (.ofStatements database (a.plan b database)) ∧
      b.diff a database = .ok (.ofStatements database (b.plan a database))) ∧
    Mirrors ((a.plan b database).filter fun s => s.alters? = none)
      ((b.plan a database).filter fun s => s.alters? = none) ∧
    ∀ table ∈ a.tables.keys, table ∈ b.tables.keys →
      Mirrors ((a.plan b database).filter fun s => s.alters? = some table)
        ((b.plan a database).filter fun s => s.alters? = some table) := by
  have ha' := (Schema.validate_eq_ok_iff a).1 ha
  have hb' := (Schema.validate_eq_ok_iff b).1 hb
  exact ⟨⟨Schema.diff_of_wellFormed ha' hb' database,
      Schema.diff_of_wellFormed hb' ha' database⟩,
    Schema.mirrors_tables ha' hb' database,
    fun _ htable htable' => Schema.mirrors_table ha' hb' database htable htable'⟩

/-- A shop: its goods and its orders. -/
def shop : Schema where
  tables := .ofList [
    ("article", { name := "article", columns := .ofList [
      ("ean", { name := "ean", dataType := "bigint", columnKey := .unique }),
      ("label", { name := "label", dataType := "varchar" })] }),
    ("cart", { name := "cart", columns := .ofList [
      ("since", { name := "since", dataType := "datetime" })] })]

/-- The shop with other indexes, a renamed column and a renamed table. -/
def nextShop : Schema where
  tables := .ofList [
    ("article", { name := "article", characterSet := "utf8mb4", columns := .ofList [
      ("ean", { name := "ean", dataType := "bigint", columnKey := .multiple }),
      ("title", { name := "title", dataType := "varchar" })] }),
    ("basket", { name := "basket", columns := .ofList [
      ("since", { name := "since", dataType := "datetime" })] })]

theorem diff_mirrors_shop :
    (nextShop.validate = .ok () ∧ shop.validate = .ok ()) ∧
    (nextShop.diff shop "shop" = .ok (.ofStatements "shop" (nextShop.plan shop "shop")) ∧
      shop.diff nextShop "shop" = .ok (.ofStatements "shop" (shop.plan nextShop "shop"))) ∧
    Mirrors ((nextShop.plan shop "shop").filter fun s => s.alters? = none)
      ((shop.plan nextShop "shop").filter fun s => s.alters? = none) ∧
    ∀ table ∈ nextShop.tables.keys, table ∈ shop.tables.keys →
      Mirrors ((nextShop.plan shop "shop").filter fun s => s.alters? = some table)
        ((shop.plan nextShop "shop").filter fun s => s.alters? = some table) :=
  ⟨by decide +kernel, diff_mirrors (by decide +kernel) (by decide +kernel) "shop"⟩

end SchemaPlan
