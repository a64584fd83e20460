import SchemaPlan.Proofs.Json.Values
import SchemaPlan.Proofs.RoundTrip
set_option autoImplicit false

/-!
# Two ways to load a file

A file with a snapshot may be loaded as the snapshot, read as it stands, or as one of its
schemas, read from the value of the document.  The schema is then one of the snapshot
(`load_agrees`), as long as no schema, table or column of the document is given as an
embedded document: such an object has no known member where it is read as it stands, and
is what its text says where it is made a value (`load_embedded`).
-/

namespace SchemaPlan

open Json (Field Keeps RecordFormat)

variable {embedded : String → Option Json}

/-! ## Parts of documents -/

namespace Json

variable {α : Type} {decode : Decoder α}

/-- The documents that a list or a map is made of. -/
def parts : Json → List Json
  | .array items => items
  | .object members => members.map (·.2)
  | _ => []

/-- A map that may be null is kept whose values are. -/
theorem keeps_nullOrKeyed {j : Json} (h : ∀ k ∈ j.parts, Keeps embedded decode k)
    (htext : ∀ text a, decode (.string text) ≠ .ok a) (value : Keyed α) :
    Keeps embedded (readNullAs value (readKeyed decode)) j := by
  have hnull : ∀ map, readKeyed decode .null ≠ .ok map := fun _ h => nomatch h
  refine Keeps.readNullAs ?_ hnull value
  cases j with
  | object members =>
    exact keeps_readKeyed (fun m hm => h m.2 (List.mem_map_of_mem hm)) htext
  | _ =>
    intro v a _ ha
    cases ha

/-- A list that may be null is kept whose items are. -/
theorem keeps_nullOrList {j : Json} (h : ∀ k ∈ j.parts, Keeps embedded decode k)
    (value : List α) : Keeps embedded (readNullAs value (readList decode)) j := by
  have hnull : ∀ list, readList decode .null ≠ .ok list := fun _ h => nomatch h
  refine Keeps.readNullAs ?_ hnull value
  cases j with
  | array items => exact keeps_readList h
  | _ =>
    intro v a _ ha
    cases ha

end Json

/-! ## Columns, tables and schemas -/

theorem ColumnKey.keeps (j : Json) : Keeps embedded decode j :=
  Json.keeps_readVariant (by decide) j

/-- A column is kept, unless it is given as an embedded document. -/
theorem Column.keeps {j : Json} (h : j.isEmbedded = false) : Keeps embedded decode j := by
  have hfields : ∀ field ∈ format.fields, ∀ k, Keeps embedded field.read k := by
    simp [format, Field.of, Keeps.map, Json.keeps_readText, Json.keeps_readBool,
      Json.keeps_readUInt64, ColumnKey.keeps]
  exact RecordFormat.keeps format_isRegular h fun field hfield k _ => hfields field hfield k

namespace Table

/-- The documents that a table gives for its columns. -/
def columnDocuments (j : Json) : List Json := (format.given "columns" j).flatMap Json.parts

/-- A table is kept, unless it or one of its columns is given as an embedded document. -/
theorem keeps {j : Json} (h : j.isEmbedded = false)
    (hcolumns : ∀ c ∈ columnDocuments j, c.isEmbedded = false) : Keeps embedded decode j := by
  have htext : ∀ text c, Column.decode (.string text) ≠ .ok c := fun _ _ h => nomatch h
  have hcolumns : ∀ k ∈ format.given "columns" j,
      Keeps embedded (Json.readNullAs .empty (Json.readKeyed Column.decode)) k := fun k hk =>
    Json.keeps_nullOrKeyed
      (fun c hc => Column.keeps (hcolumns c (List.mem_flatMap.2 ⟨k, hk, hc⟩))) htext .empty
  have hfields : ∀ given : String → List Json,
      (∀ k ∈ given "columns",
        Keeps embedded (Json.readNullAs .empty (Json.readKeyed Column.decode)) k) →
      ∀ field ∈ format.fields, ∀ k ∈ given field.name, Keeps embedded field.read k := by
    intro given hgiven
    simp +contextual [format, Field.of, Keeps.map, Json.keeps_readText, Json.keeps_readUInt64,
      hgiven]
  exact RecordFormat.keeps format_isRegular h (hfields (format.given · j) hcolumns)

end Table

namespace Schema

/-- The documents that a schema gives for its tables. -/
def tableDocuments (j : Json) : List Json := (format.given "tables" j).flatMap Json.parts

/-- A schema is kept, unless it, a table or a column is given as an embedded document. -/
theorem keeps {j : Json} (h : j.isEmbedded = false)
    (htables : ∀ t ∈ tableDocuments j, t.isEmbedded = false)
    (hcolumns : ∀ t ∈ tableDocuments j, ∀ c ∈ Table.columnDocuments t, c.isEmbedded = false) :
    Keeps embedded decode j := by
  have htext : ∀ text t, Table.decode (.string text) ≠ .ok t := fun _ _ h => nomatch h
  have htables : ∀ k ∈ format.given "tables" j,
      Keeps embedded (Json.readNullAs .empty (Json.readKeyed Table.decode)) k := by
    refine fun k hk => Json.keeps_nullOrKeyed (fun t ht => ?_) htext .empty
    have hmem : t ∈ tableDocuments j := List.mem_flatMap.2 ⟨k, hk, ht⟩
    exact Table.keeps (htables t hmem) (hcolumns t hmem)
  have hfields : ∀ given : String → List Json,
      (∀ k ∈ given "tables",
        Keeps embedded (Json.readNullAs .empty (Json.readKeyed Table.decode)) k) →
      ∀ field ∈ format.fields, ∀ k ∈ given field.name, Keeps embedded field.read k := by
    intro given hgiven
    simp +contextual [format, Field.of, Keeps.map, Json.keeps_readText, hgiven]
  exact RecordFormat.keeps format_isRegular h (hfields (format.given · j) htables)

end Schema

/-! ## Snapshots -/

namespace Snapshot

/-- The documents that a snapshot gives for its schemas. -/
def schemaDocuments (j : Json) : List Json := (format.given "schemas" j).flatMap Json.parts

/-- The documents of a snapshot that are read as its schemas, as their tables and as the
columns of these. -/
def recordDocuments (j : Json) : List Json :=
  let schemas := schemaDocuments j
  let tables := schemas.flatMap Schema.tableDocuments
  schemas ++ tables ++ tables.flatMap Table.columnDocuments

/-- Read the schemas of a snapshot. -/
def readSchemas : Json.Decoder (List Schema) := Json.readNullAs [] (Json.readList Schema.decode)

/-- The schemas of a snapshot are kept, if no record is given as an embedded document. -/
theorem keeps_readSchemas {j k : Json} (h : ∀ r ∈ recordDocuments j, r.isEmbedded = false)
    (hk : k ∈ format.given "schemas" j) : Keeps embedded readSchemas k := by
  refine Json.keeps_nullOrList (fun s hs => ?_) []
  have hschema : s ∈ schemaDocuments j := List.mem_flatMap.2 ⟨k, hk, hs⟩
  have htable {t : Json} (ht : t ∈ Schema.tableDocuments s) :
      t ∈ (schemaDocuments j).flatMap Schema.tableDocuments :=
    List.mem_flatMap.2 ⟨s, hschema, ht⟩
  refine Schema.keeps (h s ?_) (fun t ht => h t ?_) (fun t ht c hc => h c ?_)
  · exact List.mem_append_left _ (List.mem_append_left _ hschema)
  · exact List.mem_append_left _ (List.mem_append_right _ (htable ht))
  · exact List.mem_append_right _ (List.mem_flatMap.2 ⟨t, htable ht, hc⟩)

/-- There are as many schemas in a document as in its value. -/
theorem length_of_readSchemas {k v : Json} {schemas others : List Schema}
    (hv : Json.toValue? embedded k = some v) (hschemas : readSchemas k = .ok schemas)
    (hothers : readSchemas v = .ok others) : others.length = schemas.length := by
  cases k with
  | null =>
    obtain rfl := Option.some.inj hv
    obtain rfl := Except.ok.inj (hschemas.symm.trans hothers)
    rfl
  | array items =>
    obtain ⟨values, rfl, hvalues⟩ := Json.toValue?_array hv
    rw [Json.length_readEach hothers, Json.length_readEach hschemas, hvalues.length_eq]
  | _ => cases hschemas

/-- The field of the schemas is the only one of a snapshot. -/
theorem eq_of_mem_fields {field : Json.Field Snapshot} (h : field ∈ format.fields) :
    field = .of "schemas" .required readSchemas (fun v s => { s with schemas := v }) :=
  List.mem_singleton.1 h

/-- An object that is read as a snapshot gives the schemas once. -/
theorem decode_object_eq_ok {members : List (String × Json)} {l : Snapshot}
    (h : decode (.object members) = .ok l) :
    ∃ k, members.filter (fun m => RecordFormat.isKnown format.fields m.1) = [("schemas", k)] ∧
      readSchemas k = .ok l.schemas := by
  rw [decode, RecordFormat.decode] at h
  split at h
  · cases h
  · next met record hmembers =>
    obtain ⟨entries, hgives, hdistinct, rfl, rfl⟩ :=
      RecordFormat.entries_of_readMembers hmembers
    have hfield : ∀ e ∈ entries, e.field
        = .of "schemas" .required readSchemas (fun v s => { s with schemas := v }) :=
      fun e he => eq_of_mem_fields (RecordFormat.fields_of_gives hgives e he)
    rcases entries with _ | ⟨d, _ | ⟨e, _⟩⟩
    · cases h
    · obtain ⟨field, k, set, hread⟩ := d
      obtain rfl := hfield _ List.mem_cons_self
      obtain ⟨⟨key, j⟩, rest, ⟨hkey, rfl⟩, hrest, hfilter⟩ :=
        List.forall₂_cons_right_iff.1 hgives
      obtain rfl := List.forall₂_nil_right_iff.1 hrest
      have hname := Json.Field.isNamed_iff.1
        (List.find?_some (p := fun f : Json.Field Snapshot => f.isNamed key) hkey)
      have hschemasKey : key = "schemas" := List.mem_singleton.1 hname
      obtain ⟨schemas, hschemas, rfl⟩ := Json.Field.exists_of_map_eq_ok hread
      obtain rfl := Except.ok.inj h
      exact ⟨j, hschemasKey ▸ hfilter, hschemas⟩
    · -- the two would be entries of one field
      have hsame : d.name = e.name := by
        rw [Json.Entry.name, Json.Entry.name, hfield d List.mem_cons_self,
          hfield e (List.mem_cons_of_mem _ List.mem_cons_self)]
      obtain ⟨hnew, -⟩ := List.nodup_cons.1 (hdistinct .nil)
      exact absurd (List.mem_cons.2 (.inl hsame)) hnew

theorem mem_given {members : List (String × Json)} {k : Json}
    (h : members.filter (fun m => RecordFormat.isKnown format.fields m.1) = [("schemas", k)]) :
    k ∈ format.given "schemas" (.object members) := by
  have hmem : ("schemas", k) ∈ members :=
    List.mem_of_mem_filter (h ▸ List.mem_singleton_self ("schemas", k))
  have hfound : format.fields.find? (·.isNamed "schemas")
      = some (.of "schemas" .required readSchemas fun v s => { s with schemas := v }) := rfl
  exact RecordFormat.mem_given_object hmem hfound

theorem exists_member {members : List (String × Json)} {k : Json}
    (h : members.filter (fun m => RecordFormat.isKnown format.fields m.1) = [("schemas", k)]) :
    ∃ m, (Json.object members).member? "schemas" = some m := by
  have hmem : ("schemas", k) ∈ members :=
    List.mem_of_mem_filter (h ▸ List.mem_singleton_self ("schemas", k))
  rw [← Option.isSome_iff_exists, Json.member?, Option.isSome_map, List.find?_isSome]
  exact ⟨_, hmem, beq_self_eq_true "schemas"⟩

/-- The value of an object that gives the schemas once gives their value once. -/
theorem filter_values {members values : List (String × Json)} {k : Json}
    (hvalues : Json.membersToValues? embedded members = some values)
    (h : members.filter (fun m => RecordFormat.isKnown format.fields m.1) = [("schemas", k)]) :
    ∃ v, Json.toValue? embedded k = some v ∧
      values.filter (fun m => RecordFormat.isKnown format.fields m.1) = [("schemas", v)] := by
  obtain ⟨kept, hkept, hperm⟩ := Json.membersToValues?_filter hvalues (by
    rw [h]
    exact List.nodup_singleton _)
  rw [h] at hkept
  obtain ⟨⟨key, v⟩, rest, ⟨hkey, hv⟩, hrest, rfl⟩ := List.forall₂_cons_left_iff.1 hkept
  obtain rfl := List.forall₂_nil_left_iff.1 hrest
  obtain rfl : key = "schemas" := hkey
  exact ⟨v, hv, List.perm_singleton.1 hperm⟩

/-- What begins with schemas in an array is no schema. -/
theorem not_schema_of_array {items : List Json} {l : Snapshot} {value : Json} {s : Schema}
    (h : decode (.array items) = .ok l)
    (hvalue : Json.toValue? embedded (.array items) = some value) :
    Schema.decode value ≠ .ok s := by
  obtain ⟨values, rfl, hvalues⟩ := Json.toValue?_array hvalue
  cases hvalues with
  | nil => cases h
  | @cons j v _ _ hv _ =>
    cases j with
    | null =>
      obtain rfl := Option.some.inj hv
      exact nofun
    | array items =>
      obtain ⟨values, rfl, -⟩ := Json.toValue?_array hv
      exact nofun
    | _ => cases h

end Snapshot

/-! ## Selecting -/

namespace Schema

/-- A schema is picked before or after normalizing. -/
theorem pick_map_normalize (path : String) (name : Option String) (schemas : List Schema) :
    pick path name (schemas.map normalize)
      = match pick path name schemas with
        | .error e => .error e
        | .ok schema => .ok schema.normalize := by
  cases name with
  | some name =>
    have hname :
        ((fun s : Schema => s.name == name) ∘ normalize) = fun s => s.name == name := rfl
    rw [pick, pick, List.find?_map, hname]
    cases schemas.find? fun s => s.name == name <;> rfl
  | none =>
    match schemas with
    | [] => rfl
    | [_] => rfl
    | _ :: _ :: _ =>
      exact congrArg (fun n => Except.error (Fault.config (.ambiguous path n)))
        (List.length_map _)

/-- What is picked is the first schema of the name, or without a name the only one. -/
theorem pick_eq_ok {path : String} {name : Option String} {schemas : List Schema} {s : Schema}
    (h : pick path name schemas = .ok s) :
    (∃ n, name = some n ∧ schemas.find? (fun s => s.name == n) = some s) ∨
      (name = none ∧ schemas = [s]) := by
  unfold pick at h
  split at h
  · next n =>
    split at h
    · next found hfound => exact .inl ⟨n, rfl, hfound.trans (congrArg some (Except.ok.inj h))⟩
    · cases h
  · split at h
    · next only => exact .inr ⟨rfl, congrArg (fun s => [s]) (Except.ok.inj h)⟩
    · cases h

/-- Nothing is picked if no schema has the name, or if there is not one schema and no
name. -/
theorem pick_eq_error {path : String} {name : Option String} {schemas : List Schema} {e : Fault}
    (h : pick path name schemas = .error e) :
    (∃ n, name = some n ∧ schemas.find? (fun s => s.name == n) = none ∧ e = .schemaNotFound n) ∨
      (name = none ∧ schemas.length ≠ 1 ∧ e = .config (.ambiguous path schemas.length)) := by
  unfold pick at h
  split at h
  · next n =>
    split at h
    · cases h
    · next hnone => exact .inl ⟨n, rfl, hnone, (Except.error.inj h).symm⟩
  · split at h
    · cases h
    · next hnot =>
      refine .inr ⟨rfl, fun hlength => ?_, (Except.error.inj h).symm⟩
      obtain ⟨s, hs⟩ := List.length_eq_one_iff.1 hlength
      exact hnot s hs

/-- What the selection of a schema comes to, in the text of a document that is read as a
snapshot: its value is no schema or no snapshot, or the schema is picked from the value of
what the snapshot is read from. -/
inductive Selected (path : String) (name : Option String) (l : Snapshot) (j : Json) :
    Except Fault Schema → Prop
  | malformed : Selected path name l j (.error .malformedText)
  | undecodable (e : Json.DecodeError) : Selected path name l j (.error (.decoding e))
  | picked {embedded : String → Option Json} {k v : Json} {schemas others : List Schema}
    (hk : k ∈ Snapshot.format.given "schemas" j) (hv : Json.toValue? embedded k = some v)
    (hschemas : Snapshot.readSchemas k = .ok schemas)
    (hothers : Snapshot.readSchemas v = .ok others) (hl : l.schemas = schemas.map normalize) :
    Selected path name l j (pick path name (others.map normalize))

/-- The schema is selected from the value of the document that the snapshot is read from. -/
theorem selected_of_value {path text : String} {name : Option String} {l : Snapshot}
    {j value : Json} (hl : Snapshot.decode j = .ok l) (htext : Json.ofText? text = some value)
    (hvalue : Json.toValue? embedded j = some value) :
    Selected path name l.normalize j (select path name text) := by
  rw [select, htext]
  dsimp only
  cases j with
  | object members =>
    rcases Json.toValue?_members hvalue with
      ⟨key, spelled, rfl, rfl⟩ | ⟨values, -, hvalues, rfl⟩
    · cases hl
    · obtain ⟨k, hmembers, hschemas⟩ := Snapshot.decode_object_eq_ok hl
      obtain ⟨v, hv, hfilter⟩ := Snapshot.filter_values hvalues hmembers
      obtain ⟨m, hmember⟩ := Snapshot.exists_member hfilter
      rw [hmember]
      dsimp only
      cases hothers : Snapshot.decode (.object values) with
      | error e =>
        rw [readValue, hothers]
        exact .undecodable e
      | ok others =>
        obtain ⟨v', hfilter', hread⟩ := Snapshot.decode_object_eq_ok hothers
        obtain rfl : v = v' :=
          (Prod.mk.inj (List.singleton_inj.1 (hfilter.symm.trans hfilter'))).2
        rw [readValue, hothers]
        dsimp only
        have hselected : Selected path name l.normalize (.object members)
            (pick path name (others.schemas.map normalize)) :=
          .picked (Snapshot.mem_given hmembers) hv hschemas hread rfl
        rw [pick_map_normalize] at hselected
        exact hselected
  | array items =>
    obtain ⟨values, rfl, hvalues⟩ := Json.toValue?_array hvalue
    have hmember : (Json.array values).member? "schemas" = none := rfl
    rw [hmember]
    dsimp only
    cases hdecode : decode (.array values) with
    | error e =>
      rw [readValue, hdecode]
      exact .undecodable e
    | ok s => exact absurd hdecode (Snapshot.not_schema_of_array hl hvalue)
  | _ => cases hl

/-- The schema is selected from the text that the snapshot is read from. -/
theorem selected_of_ofText (path : String) (name : Option String) {text : String} {l : Snapshot}
    (h : Snapshot.ofText text = .ok l) :
    ∃ j ∈ Json.parse? text, Selected path name l j (select path name text) := by
  rw [Snapshot.ofText, readDocument] at h
  cases hparse : Json.parse? text with
  | none =>
    rw [hparse] at h
    cases h
  | some j =>
    refine ⟨j, rfl, ?_⟩
    rw [hparse] at h
    dsimp only at h
    cases hl : Snapshot.decode j with
    | error e =>
      rw [hl] at h
      cases h
    | ok raw =>
      rw [hl] at h
      obtain rfl := Except.ok.inj h
      cases htext : Json.ofText? text with
      | none =>
        rw [select, htext]
        exact .malformed
      | some value =>
        have hvalue : Json.toValue? (Json.valueOfText? text.length) j = some value := by
          rw [Json.ofText?, Json.valueOfText?, hparse] at htext
          dsimp only at htext
          split at htext
          · exact htext
          · cases htext
        exact selected_of_value hl htext hvalue

end Schema

/-! ## The two loaders -/

/-- Of a file that is there, the schema is selected from its text. -/
theorem Schema.fst_load {path text : String} {w : World}
    (hfile : w.files.read? path = some text)
    (name : Option String) : (load path name w).1 = select path name text := by
  have hread : Action.readFile path w = (.ok text, w) := by
    simp only [Action.readFile, hfile]
  rw [load, Action.bind_of_ok hread, Action.ofExcept]

/-- No schema, table or column in the document of a text is given as an embedded
document. -/
def Snapshot.EmbedsNoRecord (text : String) : Prop :=
  ∀ j ∈ Json.parse? text, ∀ r ∈ recordDocuments j, r.isEmbedded = false

instance (text : String) : Decidable (Snapshot.EmbedsNoRecord text) :=
  inferInstanceAs (Decidable (∀ j ∈ Json.parse? text, _))

/-- What comes of loading a schema agrees with a snapshot: the schema is the first of the
name in the snapshot, or without a name the only one; if there is none of the name, then
not in the snapshot either. -/
structure Snapshot.Agrees (l : Snapshot) (name : Option String) (answer : Except Fault Schema) :
    Prop where
  named : ∀ {n s}, name = some n → answer = .ok s → l.find? n = some s
  single : ∀ {s}, name = none → answer = .ok s → l.schemas = [s]
  normal : ∀ {s}, answer = .ok s → s.normalize = s
  notFound : ∀ {n}, answer = .error (.schemaNotFound n) →
    name = some n ∧ ∀ s ∈ l.schemas, s.name ≠ n

namespace Snapshot

/-- What is picked from a normal snapshot agrees with it. -/
theorem agrees_pick {l : Snapshot} (h : ∀ s ∈ l.schemas, s.normalize = s) (path : String)
    (name : Option String) : l.Agrees name (Schema.pick path name l.schemas) where
  named {n s} hname hpick := by
    rcases Schema.pick_eq_ok hpick with ⟨n', rfl, hfound⟩ | ⟨rfl, -⟩
    · obtain rfl := Option.some.inj hname
      exact hfound
    · cases hname
  single {s} hname hpick := by
    rcases Schema.pick_eq_ok hpick with ⟨n, rfl, -⟩ | ⟨-, hsingle⟩
    · cases hname
    · exact hsingle
  normal {s} hpick := by
    refine h s ?_
    rcases Schema.pick_eq_ok hpick with ⟨n, -, hfound⟩ | ⟨-, hsingle⟩
    · exact List.mem_of_find?_eq_some hfound
    · rw [hsingle]
      exact List.mem_singleton_self s
  notFound {n} hpick := by
    rcases Schema.pick_eq_error hpick with ⟨n', rfl, hnone, he⟩ | ⟨-, -, he⟩
    · obtain rfl := Fault.schemaNotFound.inj he
      refine ⟨rfl, fun s hs heq => ?_⟩
      exact List.find?_eq_none.1 hnone s hs (beq_iff_eq.2 heq)
    · cases he

theorem agrees_error (l : Snapshot) (name : Option String) {e : Fault}
    (h : ∀ n, e ≠ .schemaNotFound n) : l.Agrees name (.error e) where
  named _ hanswer := nomatch hanswer
  single _ hanswer := nomatch hanswer
  normal hanswer := nomatch hanswer
  notFound hanswer := absurd (Except.error.inj hanswer) (h _)

/-- Where a selection finds several schemas or none, it says how many. -/
theorem ambiguous_of_pick {path p : String} {name : Option String}
    {schemas : List Schema} {n : Nat}
    (h : Schema.pick path name schemas = .error (.config (.ambiguous p n))) :
    name = none ∧ p = path ∧ n = schemas.length ∧ n ≠ 1 := by
  rcases Schema.pick_eq_error h with ⟨_, -, -, he⟩ | ⟨hname, hnot, he⟩
  · cases he
  · obtain ⟨rfl, rfl⟩ := ConfigFault.ambiguous.inj (Fault.config.inj he)
    exact ⟨hname, rfl, rfl, hnot⟩

end Snapshot

/-- A file that is read as a snapshot is loaded as one of its schemas: the schema is the one
that the snapshot has, and where there is none of the name, the snapshot has none, provided
that no record is given as an embedded document.  In any case the number of the schemas from
which none can be picked without a name is that of the snapshot. -/
theorem load_agrees {path text : String} {name : Option String} {l : Snapshot} {w : World}
    (hfile : w.files.read? path = some text) (hlist : Snapshot.ofText text = .ok l) :
    (∀ {p n}, (Schema.load path name w).1 = .error (.config (.ambiguous p n)) →
      name = none ∧ n = l.schemas.length ∧ n ≠ 1) ∧
    (Snapshot.EmbedsNoRecord text → l.Agrees name (Schema.load path name w).1) := by
  rw [Schema.fst_load hfile]
  obtain ⟨j, hj, hselected⟩ := Schema.selected_of_ofText path name hlist
  generalize Schema.select path name text = answer at hselected
  cases hselected with
  | malformed => exact ⟨nofun, fun _ => l.agrees_error name nofun⟩
  | undecodable e => exact ⟨nofun, fun _ => l.agrees_error name nofun⟩
  | @picked embedded k v schemas others hk hv hschemas hothers hl =>
    constructor
    · intro p n h
      obtain ⟨hname, -, hn, hne⟩ := Snapshot.ambiguous_of_pick h
      have hlength := Snapshot.length_of_readSchemas hv hschemas hothers
      rw [List.length_map, hlength] at hn
      exact ⟨hname, by rw [hn, hl, List.length_map], hne⟩
    · intro hplain
      have hread := Snapshot.keeps_readSchemas (hplain j hj) hk hv hschemas
      obtain rfl := Except.ok.inj (hread.symm.trans hothers)
      rw [← hl]
      refine Snapshot.agrees_pick ?_ path name
      rw [hl, List.forall_mem_map]
      exact fun s _ => s.normalize_normalize

/-- A snapshot of two schemas, one of them an array, with a key that is repeated and a
member that is not known. -/
def atlasText : String :=
  "\x7b\"schemas\":[\x7b\"name\":\"sea\",\"tables\":\x7b\"ship\":[\"\"],\"ship\":\x7b\x7d"
    ++ "\x7d\x7d,[\"land\",null]],\"x\":\x7b\"$serde_json::private::RawValue\":\"1\"\x7d\x7d"

/-- What the text says. -/
def atlas : Snapshot where
  schemas := [
    { name := "sea", tables := .ofList [("ship", { name := "ship" })] },
    { name := "land" }]

/-- A world with the atlas in a file. -/
def atlasWorld : World where
  files := { texts := .ofList [("atlas.json", atlasText)] }
  server := {
    accepts := fun _ => false
    entry? := fun _ => none
    failsQuery := fun _ => false
    refuses? := fun _ _ => none }
  now := 0

theorem load_agrees_atlas :
    (atlasWorld.files.read? "atlas.json" = some atlasText ∧
        Snapshot.ofText atlasText = .ok atlas ∧ Snapshot.EmbedsNoRecord atlasText) ∧
      atlas.Agrees (some "land") (Schema.load "atlas.json" (some "land") atlasWorld).1 ∧
      atlas.Agrees none (Schema.load "atlas.json" none atlasWorld).1 := by
  have hfile : atlasWorld.files.read? "atlas.json" = some atlasText := by decide +kernel
  have hlist : Snapshot.ofText atlasText = .ok atlas := by decide +kernel
  have hplain : Snapshot.EmbedsNoRecord atlasText := by decide +kernel
  exact ⟨⟨hfile, hlist, hplain⟩, (load_agrees hfile hlist).2 hplain,
    (load_agrees hfile hlist).2 hplain⟩

/-- One of the two is loaded, though a member that is skipped embeds a document. -/
example : Schema.select "atlas.json" (some "land") atlasText = .ok { name := "land" } := by
  decide +kernel

/-- A schema that is given as an embedded document: read as it stands it has no name, and
as a value the name that its text says. -/
def embeddedSchemaText : String :=
  "\x7b\"schemas\":[\x7b\"$serde_json::private::RawValue\":"
    ++ "\"\x7b\\\"name\\\":\\\"B\\\"\x7d\"\x7d]\x7d"

/-- The one schema of the snapshot is not the one that is loaded. -/
theorem load_embedded :
    Snapshot.ofText embeddedSchemaText = .ok { schemas := [{}] } ∧
      Schema.select "input.json" none embeddedSchemaText = .ok { name := "B" } ∧
      ¬ (Snapshot.mk [{}]).schemas = [{ name := "B" }] := by
  decide +kernel

end SchemaPlan
