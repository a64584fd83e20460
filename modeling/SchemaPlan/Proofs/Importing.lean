import SchemaPlan.Proofs.Agreement
import SchemaPlan.Proofs.RoundTrip
set_option autoImplicit false

/-!
# Import, then compare

A schema that was imported and stored is what its database is compared with, so the
comparison finds nothing to change (`compareOne_of_storeSchema`).

What makes this hold: the tables that the catalog gives are normal
(`CatalogEntry.normalize_of_toSchema`), so they come back from the snapshot as they
are; the stored schema is the first of its name; and the catalog, asked again, says
the same.
-/

namespace SchemaPlan

/-! ## The tables of the catalog -/

/-- A table as the catalog gives it: under its own name, with its columns under
theirs, and no default that says nothing. -/
structure Table.IsImported (key : String) (t : Table) : Prop where
  name : t.name = key
  column : ∀ {key c}, t.columns.get? key = some c → c.name = key ∧ c.hasIdleDefault = false

namespace Table.IsImported

variable {key : String} {t : Table}

theorem addColumn (h : t.IsImported key) {c : Column} (hc : c.hasIdleDefault = false) :
    (t.addColumn c).IsImported key where
  name := h.name
  column {k d} hd := by
    rw [Table.addColumn, Keyed.get?_insert] at hd
    split at hd
    · next hkey =>
      obtain rfl := Option.some.inj hd
      exact ⟨hkey, hc⟩
    · exact h.column hd

theorem normalize_eq (h : t.IsImported key) : t.normalize key = t := by
  refine normalize_eq_self (fun hempty => h.name ▸ hempty) (Keyed.mapValues_eq_self ?_)
  intro k c hc
  obtain ⟨hname, hdefault⟩ := h.column hc
  exact Column.normalize_eq_self (fun hempty => hname ▸ hempty) hdefault

end Table.IsImported

theorem ColumnRow.hasIdleDefault_of_toColumn {row : ColumnRow} {c : Column}
    (h : row.toColumn = .ok c) : c.hasIdleDefault = false := by
  unfold toColumn at h
  split at h
  · exact nomatch h
  · obtain rfl := Except.ok.inj h
    exact Column.hasIdleDefault_cleanDefault _

namespace CatalogEntry

theorem isImported_tablesOf {rows : List TableRow} {key : String} {t : Table}
    (h : (tablesOf rows).get? key = some t) : t.IsImported key := by
  obtain ⟨row, -, heq⟩ := List.mem_map.1 (Keyed.mem_of_get?_ofList h)
  obtain ⟨rfl, rfl⟩ := Prod.mk.inj heq
  exact ⟨rfl, fun hc => nomatch hc⟩

/-- Each row of a column keeps the tables as the catalog gives them. -/
theorem isImported_addColumns :
    ∀ {rows : List ColumnRow} {tables result : Keyed Table},
      (∀ {key t}, tables.get? key = some t → t.IsImported key) →
      addColumns tables rows = .ok result →
      ∀ {key t}, result.get? key = some t → t.IsImported key
  | [], tables, result, htables, h => by
    obtain rfl := Except.ok.inj h
    exact htables
  | row :: rest, tables, result, htables, h => by
    rw [addColumns] at h
    split at h
    · exact isImported_addColumns htables h
    · next table hget =>
      split at h
      · exact nomatch h
      · next column hcolumn =>
        refine isImported_addColumns (fun {key t} ht => ?_) h
        rw [Keyed.get?_insert] at ht
        split at ht
        · next hkey =>
          obtain rfl := Option.some.inj ht
          exact hkey ▸ (htables hget).addColumn (row.hasIdleDefault_of_toColumn hcolumn)
        · exact htables ht

/-- The tables of a database are named, their columns too, and nothing in them is idle. -/
theorem isImported_of_toTables {entry : CatalogEntry} {tables : Keyed Table}
    (h : entry.toTables = .ok tables) {key : String} {t : Table}
    (hget : tables.get? key = some t) : t.IsImported key :=
  isImported_addColumns isImported_tablesOf h hget

/-- The tables of a database are normal. -/
theorem normalize_of_toTables {entry : CatalogEntry} {tables : Keyed Table}
    (h : entry.toTables = .ok tables) : tables.mapValues Table.normalize = tables :=
  Keyed.mapValues_eq_self fun hget => (isImported_of_toTables h hget).normalize_eq

/-- The schema of a database is made of its tables. -/
theorem toSchema_eq_ok {entry : CatalogEntry} {database : String} {s : Schema}
    (h : entry.toSchema database = .ok s) :
    ∃ tables, entry.toTables = .ok tables ∧ s = {
      name := database
      tables := tables
      defaultCharacterSet := entry.characterSet
      defaultCollation := entry.collation } := by
  unfold toSchema at h
  split at h
  · exact nomatch h
  · next tables htables => exact ⟨tables, htables, (Except.ok.inj h).symm⟩

/-- The schema of a database is normal, under whatever name. -/
theorem normalize_of_toSchema {entry : CatalogEntry} {database : String} {s : Schema}
    (h : entry.toSchema database = .ok s) (name : String) :
    Schema.normalize { s with name := name } = { s with name := name } := by
  obtain ⟨tables, htables, rfl⟩ := toSchema_eq_ok h
  rw [Schema.normalize, normalize_of_toTables htables]

end CatalogEntry

/-! ## Reading a database -/

namespace Connection

/-- A login that was accepted is accepted by the same server at any time. -/
theorem logIn_eq_ok {connection : Connection} {settings : ApplySettings} {w w₁ : World}
    (h : connection.logIn settings w = (.ok (), w₁)) :
    w₁.server = w.server ∧ ∀ v : World, v.server = w.server →
      ∃ v₁, connection.logIn settings v = (.ok (), v₁) ∧ v₁.server = w.server := by
  obtain ⟨_, w₂, hsettings, hlogIn⟩ := Action.bind_eq_ok h
  obtain ⟨hcheck, rfl⟩ := Action.ofExcept_eq_ok hsettings
  obtain ⟨haccepts, rfl⟩ := Action.logIn_eq_ok hlogIn
  refine ⟨rfl, fun v hv => ⟨{ v with logins := v.logins ++ [connection.login] }, ?_, hv⟩⟩
  rw [logIn, Action.bind_apply, Action.ofExcept, hcheck]
  simp only [Action.logIn, hv, haccepts, if_true]

/-- A database that was read is read by the same server at any time. -/
theorem introspect_eq_ok {connection : Connection} {settings : ApplySettings} {s : Schema}
    {w w₁ : World} (h : connection.introspect settings w = (.ok s, w₁)) :
    (∃ entry : CatalogEntry, entry.toSchema connection.name = .ok s) ∧ w₁.server = w.server ∧
      ∀ v : World, v.server = w.server →
        ∃ v₁, connection.introspect settings v = (.ok s, v₁) := by
  obtain ⟨_, w₂, hlogIn, hcatalog⟩ := Action.bind_eq_ok h
  obtain ⟨hserver, hlogsIn⟩ := logIn_eq_ok hlogIn
  obtain ⟨entry, w₃, hread, hschema⟩ := Action.bind_eq_ok hcatalog
  obtain ⟨rfl, hreads⟩ := Action.readCatalog_eq_ok hread
  obtain ⟨htoSchema, rfl⟩ := Action.ofSchemaCheck_eq_ok hschema
  refine ⟨⟨entry, htoSchema⟩, hserver, fun v hv => ?_⟩
  obtain ⟨v₁, hv₁, hserver₁⟩ := hlogsIn v hv
  refine ⟨v₁, ?_⟩
  rw [introspect, Action.bind_of_ok hv₁,
    Action.bind_of_ok (hreads v₁ (hserver₁.trans hserver.symm)),
    Action.ofSchemaCheck, htoSchema]
  rfl

end Connection

/-! ## The snapshot -/

namespace Snapshot

/-- A stored schema is the first of its name, and every other name leads where it did. -/
theorem find?_upsert (l : Snapshot) (s : Schema) (name : String) :
    (l.upsert s).find? name = if s.name == name then some s else l.find? name := by
  rw [find?, find?, upsert]
  induction l.schemas with
  | nil => rw [replaceOrAppend, List.find?_singleton, List.find?_nil]
  | cons d rest ih =>
    rw [replaceOrAppend, List.find?_cons]
    split
    · next hname =>
      rw [List.find?_cons, beq_iff_eq.1 hname]
      cases s.name == name <;> rfl
    · next hname =>
      rw [List.find?_cons, ih]
      cases hd : d.name == name with
      | false => rfl
      | true =>
        have hother : ¬(s.name == name) = true := fun hs =>
          hname (beq_iff_eq.2 ((beq_iff_eq.1 hd).trans (beq_iff_eq.1 hs).symm))
        exact (if_neg hother).symm

theorem normalize_upsert (l : Snapshot) (s : Schema) :
    (l.upsert s).normalize = l.normalize.upsert s.normalize := by
  rw [normalize, normalize, upsert, upsert]
  refine congrArg Snapshot.mk ?_
  induction l.schemas with
  | nil => rfl
  | cons d rest ih =>
    have hnames : (d.normalize.name == s.normalize.name) = (d.name == s.name) := rfl
    rw [List.map_cons, replaceOrAppend, replaceOrAppend, hnames]
    split
    · rfl
    · rw [List.map_cons, ih]

theorem load_eq_ok {path : String} {l : Snapshot} {w w₁ : World}
    (h : load path w = (.ok l, w₁)) : w₁ = w := by
  obtain ⟨_, w₂, hread, htext⟩ := Action.bind_eq_ok h
  obtain rfl := Action.readFile_eq_ok hread
  exact (Action.ofExcept_eq_ok htext).2

end Snapshot

namespace Settings

theorem key_of_connection {settings : Settings} {key : String} {connection : Connection}
    (h : settings.connection key = .ok connection) : connection.key = key := by
  unfold Settings.connection at h
  split at h
  · next found hfound =>
    obtain rfl := Except.ok.inj h
    exact beq_iff_eq.1 (List.find?_some (p := fun c : Connection => c.key == key) hfound)
  · exact nomatch h

/-- An imported schema is that of the database, under the name it is compared with;
and the database is read again as the same. -/
theorem importSchema_eq_ok {settings : Settings} {key : String} {connection : Connection}
    {s : Schema} {w w₁ : World} (hconnection : settings.connection key = .ok connection)
    (h : settings.importSchema key w = (.ok s, w₁)) :
    ∃ raw : Schema, s = { raw with name := connection.schemaName } ∧ s.normalize = s ∧
      ∀ v : World, v.server = w₁.server →
        ∃ v₁, connection.introspect settings.applySettings v = (.ok raw, v₁) := by
  obtain ⟨found, w₂, hfound, hread⟩ := Action.bind_eq_ok h
  rw [hconnection] at hfound
  obtain ⟨hok, rfl⟩ := Action.ofExcept_eq_ok hfound
  obtain rfl := Except.ok.inj hok
  obtain ⟨raw, w₃, hraw, hrename⟩ := Action.bind_eq_ok hread
  obtain ⟨hs, rfl⟩ := Prod.mk.inj hrename
  obtain rfl := Except.ok.inj hs
  obtain ⟨⟨entry, hentry⟩, hserver, hagain⟩ := Connection.introspect_eq_ok hraw
  exact ⟨raw, rfl, CatalogEntry.normalize_of_toSchema hentry _, fun v hv =>
    hagain v (hv.trans hserver)⟩

/-- To store a schema is to save the snapshot that was there, or an empty one, with
the schema in it. -/
theorem storeSchema_eq_ok {settings : Settings} {s : Schema} {w w₁ : World}
    (h : settings.storeSchema s w = (.ok (), w₁)) :
    ∃ l : Snapshot, (l.upsert s).save settings.snapshotPath w = (.ok (), w₁) := by
  obtain ⟨present, w₂, hpresent, hstore⟩ := Action.bind_eq_ok h
  obtain rfl := (Prod.mk.inj hpresent).2
  dsimp only at hstore
  split at hstore
  · obtain ⟨l, w₃, hload, hsave⟩ := Action.bind_eq_ok hstore
    obtain rfl := Snapshot.load_eq_ok hload
    exact ⟨l, hsave⟩
  · exact ⟨{}, hstore⟩

/-- A stored schema is found in the snapshot, and the servers are as before. -/
theorem localSnapshot_of_storeSchema {settings : Settings} {s : Schema} {w w₁ : World}
    (h : settings.storeSchema s w = (.ok (), w₁)) :
    (∃ l : Snapshot, settings.localSnapshot w₁ = (.ok l, w₁) ∧
      l.find? s.name = some s.normalize)
      ∧ w₁.server = w.server := by
  obtain ⟨l, hsave⟩ := storeSchema_eq_ok h
  have hfind : (l.upsert s).normalize.find? s.name = some s.normalize := by
    rw [Snapshot.normalize_upsert, Snapshot.find?_upsert]
    exact if_pos (beq_self_eq_true s.name)
  refine ⟨⟨_, Snapshot.load_of_save hsave, hfind⟩, ?_⟩
  obtain ⟨written, -, rfl⟩ := Action.writeFile_eq_ok hsave
  rfl

end Settings

/-! ## Comparing -/

/-- A schema compared with itself under another name: nothing to change, or the
fault that it has. -/
theorem Schema.diff_rename (s : Schema) (name database : String) :
    diff { s with name := name } s database = s.validate.map fun _ =>
      { database := database } := by
  cases h : s.validate with
  | error fault =>
    have hrenamed : validate { s with name := name } = .error fault := h
    rw [diff, hrenamed]
    rfl
  | ok _ =>
    have hs : s.WellFormed := (validate_eq_ok_iff s).1 h
    have hrenamed : WellFormed { s with name := name } := (validate_eq_ok_iff _).1 h
    have hagrees : Agrees { s with name := name } s :=
      ⟨.inr ⟨rfl, rfl⟩, rfl, (Agrees.refl s).table⟩
    exact diff_of_agrees hrenamed hs hagrees database

/-- After a database was imported and stored, its comparison with what was stored is
empty, with all counters 0, if the schema is valid.  If not, the comparison fails
with what is wrong with the schema. -/
theorem compareOne_of_storeSchema {settings : Settings} {key : String} {connection : Connection}
    {s : Schema} {w w₁ w₂ : World} (hconnection : settings.connection key = .ok connection)
    (himport : settings.importSchema key w = (.ok s, w₁))
    (hstore : settings.storeSchema s w₁ = (.ok (), w₂)) :
    (settings.compareOne connection.schemaName key w₂).1 =
      match s.validate with
      | .ok () => .ok {
          database := connection.label
          databaseKey := key
          additions := 0
          alterations := 0
          deletions := 0
          changes := [] }
      | .error fault => .error (.invalidSchema fault) := by
  obtain ⟨⟨l, hload, hfind⟩, hserver⟩ := Settings.localSnapshot_of_storeSchema hstore
  obtain ⟨raw, rfl, hnormal, hagain⟩ := Settings.importSchema_eq_ok hconnection himport
  obtain ⟨v, hread⟩ := hagain w₂ hserver
  have hschema : Settings.schemaOf l connection.schemaName
      = .ok { raw with name := connection.schemaName } := by
    rw [hnormal] at hfind
    rw [Settings.schemaOf, hfind]
  have hvalidate : Schema.validate { raw with name := connection.schemaName }
      = raw.validate := rfl
  rw [Settings.compareOne, Action.bind_of_ok hload,
    Action.bind_of_ok (Action.ofExcept_of_ok hschema w₂),
    Action.bind_of_ok (Action.ofExcept_of_ok hconnection w₂), Settings.compareConnection,
    Action.bind_of_ok hread, Schema.diff_rename, hvalidate]
  cases raw.validate with
  | ok _ =>
    rw [← Settings.key_of_connection hconnection]
    rfl
  | error fault => rfl

/-- A database that is compared with a schema of another name. -/
def stockConnection : Connection where
  key := "main"
  host := "db"
  user := "keeper"
  name := "stock"
  schema := some "store"

/-- Settings with this database alone. -/
def stockSettings : Settings where
  snapshotPath := "stock.json"
  connections := [stockConnection]

/-- What the catalog says about the stock: a table, one of its columns twice, and a
column of something else. -/
def stockEntry : CatalogEntry where
  characterSet := "utf8mb4"
  tables := [{ tableName := "item", engine := "InnoDB" }]
  columns := [
    { tableName := "item", columnName := "id", dataType := "int", columnKey := "PRI" },
    { tableName := "item", columnName := "label", dataType := "text", columnDefault := "''" },
    { tableName := "view", columnName := "id", dataType := "int" },
    { tableName := "item", columnName := "label", dataType := "varchar", maxLength := 40,
      columnDefault := "NULL", columnKey := "UNI" }]

/-- A world with the stock, and a snapshot with an older schema of it. -/
def stockWorld : World where
  files := { texts := .ofList [("stock.json",
    "\x7b\"schemas\": [\x7b\"name\": \"a\"\x7d, \x7b\"name\": \"store\"\x7d]\x7d")] }
  server := {
    accepts := fun _ => true
    entry? := fun _ => some stockEntry
    failsQuery := fun _ => false
    refuses? := fun _ _ => none }
  now := 0

/-- The schema of the stock. -/
def stock : Schema where
  name := "store"
  tables := .ofList [
    ("item", { name := "item", engine := "InnoDB", columns := .ofList [
      ("id", { name := "id", dataType := "int", columnKey := .primary }),
      ("label",
        { name := "label", dataType := "varchar", maxLength := 40, columnKey := .unique })] })]
  defaultCharacterSet := "utf8mb4"

/-- The world after the stock was imported. -/
def importedWorld : World := (stockSettings.importSchema "main" stockWorld).2

/-- The world after the stock was stored. -/
def storedWorld : World := (stockSettings.storeSchema stock importedWorld).2

theorem compareOne_of_storeSchema_stock :
    (stockSettings.connection "main" = .ok stockConnection ∧
        stockSettings.importSchema "main" stockWorld = (.ok stock, importedWorld) ∧
        stockSettings.storeSchema stock importedWorld = (.ok (), storedWorld)) ∧
      (stockSettings.compareOne stockConnection.schemaName "main" storedWorld).1
        = .ok { database := stockConnection.label, databaseKey := "main" } := by
  have hconnection : stockSettings.connection "main" = .ok stockConnection := by decide +kernel
  have himport : stockSettings.importSchema "main" stockWorld = (.ok stock, importedWorld) :=
    Prod.ext (by decide +kernel) (by rw [importedWorld])
  have hstore : stockSettings.storeSchema stock importedWorld = (.ok (), storedWorld) :=
    Prod.ext (by decide +kernel) (by rw [storedWorld])
  have hvalid : stock.validate = .ok () := by decide +kernel
  have hclean := compareOne_of_storeSchema hconnection himport hstore
  rw [hvalid] at hclean
  exact ⟨⟨hconnection, himport, hstore⟩, hclean⟩

end SchemaPlan
