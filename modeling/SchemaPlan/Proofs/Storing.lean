import SchemaPlan.Proofs.Importing
set_option autoImplicit false

/-!
# Storing schema after schema

Over a whole run the local snapshot behaves as a store: what was there first stays in
its place, what is new comes behind it in the order in which it was first stored, and
each name leads to what was stored under it last (`snapshot_stores`).

One step goes through a file: the snapshot is read, normalized, changed in one place
and written back.  What a run does to a snapshot is therefore said twice, of the list
of schemas (`Snapshot.storeAll`) and of the files (`Settings.storeEach`), and
`Settings.localSnapshot_of_storeEach` ties the two together.
-/

namespace SchemaPlan

namespace Snapshot

/-- The names of the schemas, in order. -/
def names (l : Snapshot) : List String := l.schemas.map Schema.name

/-- What is left of a snapshot once schemas were stored in it, each normalized. -/
def storeAll (l : Snapshot) (stored : List Schema) : Snapshot :=
  stored.foldl (fun l s => l.upsert s.normalize) l

/-- A snapshot in which schemas were stored one after the other. -/
structure Stores (initial : Snapshot) (stored : List Schema) (final : Snapshot) : Prop where
  /-- The new names are behind the old ones, in the order in which they came. -/
  names : final.names = initial.names
    ++ ((stored.map Schema.name).filter (· ∉ initial.names)).eraseDups
  /-- A name leads to what was stored under it last. -/
  find? : ∀ name, final.find? name
    = ((stored.findRev? (·.name == name)).map Schema.normalize).or (initial.find? name)
  /-- A schema stays as it is if nothing was stored under its name, or an earlier one has
  that name too. -/
  others : ∀ {i d}, initial.schemas[i]? = some d →
    d.name ∉ stored.map Schema.name ∨ d.name ∈ initial.names.take i → final.schemas[i]? = some d
  distinct : initial.names.Nodup → final.names.Nodup

/-! ## One schema -/

theorem names_upsert (l : Snapshot) (s : Schema) :
    (l.upsert s).names = if s.name ∈ l.names then l.names else l.names ++ [s.name] := by
  rw [names, names, upsert]
  induction l.schemas with
  | nil => rfl
  | cons d rest ih =>
    rw [replaceOrAppend]
    split
    · next hname =>
      have hself := beq_iff_eq.1 hname
      rw [List.map_cons, List.map_cons, hself, if_pos List.mem_cons_self]
    · next hname =>
      have hother : s.name ≠ d.name := fun h => hname (beq_iff_eq.2 h.symm)
      simp only [List.map_cons, ih, List.mem_cons, hother, false_or]
      split <;> rfl

theorem names_prefix_upsert (l : Snapshot) (s : Schema) : l.names <+: (l.upsert s).names := by
  rw [names_upsert]
  split
  · exact List.prefix_rfl
  · exact List.prefix_append ..

theorem nodup_names_upsert {l : Snapshot} (h : l.names.Nodup) (s : Schema) :
    (l.upsert s).names.Nodup := by
  rw [names_upsert]
  split
  · exact h
  · next hnew => exact List.nodup_append.2 ⟨h, List.nodup_singleton _, by grind⟩

/-- Only the first schema of a name is replaced. -/
theorem getElem?_replaceOrAppend {s d : Schema} {schemas : List Schema} {i : Nat}
    (hget : schemas[i]? = some d)
    (hother : d.name ≠ s.name ∨ d.name ∈ (schemas.map Schema.name).take i) :
    (replaceOrAppend s schemas)[i]? = some d := by
  induction schemas generalizing i with
  | nil => exact nomatch hget
  | cons e rest ih =>
    rw [replaceOrAppend]
    split
    · next hname =>
      cases i with
      | zero =>
        obtain rfl := Option.some.inj hget
        rcases hother with hne | hearlier
        · exact absurd (beq_iff_eq.1 hname) hne
        · exact absurd hearlier List.not_mem_nil
      | succ i => exact hget
    · next hname =>
      cases i with
      | zero => exact hget
      | succ i =>
        refine ih hget ?_
        rw [List.map_cons, List.take_succ_cons, List.mem_cons] at hother
        rcases hother with hne | hfirst | hmem
        · exact .inl hne
        · exact .inl fun h => hname (beq_iff_eq.2 (hfirst.symm.trans h))
        · exact .inr hmem

/-! ## Schema after schema -/

section Run

variable (l : Snapshot) (s : Schema) (rest : List Schema)

theorem storeAll_cons : l.storeAll (s :: rest) = (l.upsert s.normalize).storeAll rest := rfl

theorem names_storeAll (stored : List Schema) :
    (l.storeAll stored).names
      = l.names ++ ((stored.map Schema.name).filter (· ∉ l.names)).eraseDups := by
  induction stored generalizing l with
  | nil => exact (List.append_nil _).symm
  | cons s rest ih =>
    have hname : s.normalize.name = s.name := rfl
    rw [storeAll_cons, ih, names_upsert, hname, List.map_cons]
    split
    · next hmem => rw [List.filter_cons_of_neg (by simpa using hmem)]
    · next hnew =>
      -- A name that came first is not new any more, so the rest goes on without it.
      rw [List.filter_cons_of_pos (by simpa using hnew), List.eraseDups_cons,
        List.filter_filter, List.append_assoc, List.singleton_append]
      congr 3
      refine List.filter_congr fun name _ => ?_
      grind

theorem find?_storeAll (stored : List Schema) (name : String) :
    (l.storeAll stored).find? name
      = ((stored.findRev? (·.name == name)).map Schema.normalize).or (l.find? name) := by
  induction stored generalizing l with
  | nil => rfl
  | cons s rest ih =>
    rw [storeAll_cons, ih, find?_upsert, List.findRev?]
    cases rest.findRev? (·.name == name) with
    | some found => rfl
    | none =>
      have hname : s.normalize.name = s.name := rfl
      rw [hname]
      cases s.name == name <;> rfl

theorem getElem?_storeAll {stored : List Schema} {d : Schema} {i : Nat}
    (hget : l.schemas[i]? = some d)
    (hother : d.name ∉ stored.map Schema.name ∨ d.name ∈ l.names.take i) :
    (l.storeAll stored).schemas[i]? = some d := by
  induction stored generalizing l with
  | nil => exact hget
  | cons s rest ih =>
    rw [List.map_cons, List.mem_cons, not_or] at hother
    refine ih _ (getElem?_replaceOrAppend hget (hother.imp_left And.left)) ?_
    refine hother.imp And.right fun hearlier => ?_
    obtain ⟨added, hnames⟩ := names_prefix_upsert l s.normalize
    rw [← hnames, List.take_append]
    exact List.mem_append_left _ hearlier

theorem nodup_names_storeAll {l : Snapshot} (h : l.names.Nodup) (stored : List Schema) :
    (l.storeAll stored).names.Nodup := by
  induction stored generalizing l with
  | nil => exact h
  | cons s rest ih => exact ih (nodup_names_upsert h _)

theorem stores_storeAll (stored : List Schema) : l.Stores stored (l.storeAll stored) where
  names := l.names_storeAll stored
  find? := l.find?_storeAll stored
  others := l.getElem?_storeAll
  distinct h := nodup_names_storeAll h stored

end Run

end Snapshot

/-! ## Files -/

theorem Files.contains_of_read? {files : Files} {path text : String}
    (h : files.read? path = some text) : files.contains path = true := by
  obtain ⟨place, hplace, htext⟩ := Option.bind_eq_some_iff.1 h
  simp only [contains, hplace, Keyed.contains_of_get? htext, Bool.or_true]

namespace Settings

variable {settings : Settings}

/-- Store schemas one after the other. -/
def storeEach (settings : Settings) : List Schema → Action Unit
  | [] => .pure ()
  | schema :: rest => do
    settings.storeSchema schema
    settings.storeEach rest

/-- The snapshot that is added to: that of the file, or an empty one if there is
nothing yet. -/
def AddsTo (settings : Settings) (w : World) (l : Snapshot) : Prop :=
  settings.localSnapshot w = (.ok l, w) ∨
    w.files.contains settings.snapshotPath = false ∧ l = {}

theorem contains_of_localSnapshot {l : Snapshot} {w w₁ : World}
    (h : settings.localSnapshot w = (.ok l, w₁)) :
    w.files.contains settings.snapshotPath = true := by
  obtain ⟨text, w₂, hread, -⟩ := Action.bind_eq_ok h
  unfold Action.readFile at hread
  split at hread
  · next found => exact Files.contains_of_read? found
  · exact nomatch (Prod.mk.inj hread).1

/-- Loading touches nothing. -/
theorem localSnapshot_snd (settings : Settings) (w : World) :
    (settings.localSnapshot w).2 = w := by
  cases hread : w.files.read? settings.snapshotPath <;>
    simp only [localSnapshot, Snapshot.load, Action.bind_apply, Action.readFile, hread,
      Action.ofExcept]

theorem localSnapshot_eq_of_fst {answer : Except Fault Snapshot} {w : World}
    (h : (settings.localSnapshot w).1 = answer) : settings.localSnapshot w = (answer, w) :=
  Prod.ext h (localSnapshot_snd settings w)

/-- Whatever was loaded is normal. -/
theorem normalize_of_localSnapshot {l : Snapshot} {w w₁ : World}
    (h : settings.localSnapshot w = (.ok l, w₁)) : l.normalize = l := by
  obtain ⟨text, w₂, -, htext⟩ := Action.bind_eq_ok h
  exact Snapshot.normalize_of_ofText (Action.ofExcept_eq_ok htext).1

theorem normalize_of_addsTo {l : Snapshot} {w : World} (h : settings.AddsTo w l) :
    l.normalize = l := by
  rcases h with hload | ⟨-, rfl⟩
  · exact normalize_of_localSnapshot hload
  · rfl

/-- To store a schema is to save the snapshot with it. -/
theorem storeSchema_of_addsTo {l : Snapshot} {w : World} (h : settings.AddsTo w l)
    (s : Schema) :
    settings.storeSchema s w = (l.upsert s).save settings.snapshotPath w := by
  rcases h with hload | ⟨habsent, rfl⟩
  · have hpresent := contains_of_localSnapshot hload
    rw [storeSchema, Action.bind_apply, Action.hasPath, hpresent]
    exact Action.bind_of_ok hload
  · rw [storeSchema, Action.bind_apply, Action.hasPath, habsent]
    rfl

/-- Where there is something that does not load, nothing can be stored and nothing is
touched. -/
theorem storeSchema_of_error {fault : Fault} {w w₁ : World}
    (hpresent : w.files.contains settings.snapshotPath = true)
    (h : settings.localSnapshot w = (.error fault, w₁)) (s : Schema) :
    settings.storeSchema s w = (.error fault, w) := by
  have hload := localSnapshot_eq_of_fst (congrArg Prod.fst h)
  rw [storeSchema, Action.bind_apply, Action.hasPath, hpresent]
  simp only [if_true, Action.bind_apply, hload]

/-- What is loaded after a schema was stored. -/
theorem localSnapshot_of_addsTo {l : Snapshot} {s : Schema} {w w₁ : World}
    (h : settings.AddsTo w l) (hstore : settings.storeSchema s w = (.ok (), w₁)) :
    settings.localSnapshot w₁ = (.ok (l.upsert s.normalize), w₁) := by
  rw [storeSchema_of_addsTo h] at hstore
  have hload := Snapshot.load_of_save hstore
  rw [Snapshot.normalize_upsert, normalize_of_addsTo h] at hload
  exact hload

/-- What is loaded after a run of stores that found a snapshot. -/
theorem localSnapshot_of_storeEach {stored : List Schema} {l : Snapshot} {w w₁ : World}
    (h : settings.localSnapshot w = (.ok l, w))
    (hstore : settings.storeEach stored w = (.ok (), w₁)) :
    settings.localSnapshot w₁ = (.ok (l.storeAll stored), w₁) := by
  induction stored generalizing l w with
  | nil =>
    obtain rfl := (Prod.mk.inj hstore).2
    exact h
  | cons s rest ih =>
    obtain ⟨_, w₂, hfirst, hrest⟩ := Action.bind_eq_ok hstore
    exact ih (localSnapshot_of_addsTo (.inl h) hfirst) hrest

/-- A snapshot beside the run: in the starting directory, where nothing is to be made
for it. -/
structure IsBeside (settings : Settings) (files : Files) (place : Place) : Prop where
  parts : Path.directoryParts settings.snapshotPath = []
  locate? : files.locate? settings.snapshotPath = some place
  free : (Path.namesFile settings.snapshotPath && !files.isDirectory place) = true

/-- A snapshot beside the run can be saved, and is beside the run then. -/
theorem IsBeside.save_eq {place : Place} {w : World} (h : settings.IsBeside w.files place)
    (l : Snapshot) : ∃ w₁, l.save settings.snapshotPath w = (.ok (), w₁) ∧
      settings.IsBeside w₁.files place := by
  let written := { w.files with texts := w.files.texts.insert place.path l.text }
  refine ⟨{ w with files := written }, ?_, h.parts, h.locate?, h.free⟩
  have hprepare : w.files.prepare settings.snapshotPath = w.files := by
    rw [Files.prepare, h.parts]
    rfl
  have hput : w.files.put? settings.snapshotPath l.text = some written := by
    simp only [Files.put?, h.locate?, h.free, if_true, written]
  simp only [Snapshot.save, Action.writeFile, hprepare, hput]

/-- Beside the run, whatever is to be stored is stored, unless there is a snapshot that
does not load. -/
theorem exists_storeEach {place : Place} (stored : List Schema) {l : Snapshot} {w : World}
    (h : settings.IsBeside w.files place) (hadds : settings.AddsTo w l) :
    ∃ w₁, settings.storeEach stored w = (.ok (), w₁) := by
  induction stored generalizing l w with
  | nil => exact ⟨w, rfl⟩
  | cons s rest ih =>
    obtain ⟨w₁, hsave, hbeside⟩ := h.save_eq (l.upsert s)
    have hfirst : settings.storeSchema s w = (.ok (), w₁) :=
      (storeSchema_of_addsTo hadds s).trans hsave
    rw [storeEach, Action.bind_of_ok hfirst]
    exact ih hbeside (.inl (localSnapshot_of_addsTo hadds hfirst))

end Settings

/-! ## The store -/

/-- After any run of stores that succeeded the snapshot loads, and it is what was there
before, in its order, with the stored schemas in it.  There must have been something to
load, or something that was stored.  A file that does not load is refused and left as
it is, with all else in the world. -/
theorem snapshot_stores (settings : Settings) (w : World) :
    (∀ {initial stored w₁}, settings.AddsTo w initial →
      w.files.contains settings.snapshotPath = true ∨ stored ≠ [] →
      settings.storeEach stored w = (.ok (), w₁) →
      ∃ final, settings.localSnapshot w₁ = (.ok final, w₁) ∧ initial.Stores stored final)
    ∧ ∀ {fault w₁}, w.files.contains settings.snapshotPath = true →
      settings.localSnapshot w = (.error fault, w₁) →
      ∀ s, settings.storeSchema s w = (.error fault, w) := by
  refine ⟨fun {initial stored w₁} hadds hsome hstore => ?_, Settings.storeSchema_of_error⟩
  refine ⟨initial.storeAll stored, ?_, initial.stores_storeAll stored⟩
  cases stored with
  | nil =>
    -- Nothing was stored, so there was a file and it was loaded.
    have hpresent := hsome.resolve_right fun h => h rfl
    rcases hadds with hload | ⟨habsent, -⟩
    · exact Settings.localSnapshot_of_storeEach hload hstore
    · rw [hpresent] at habsent
      exact nomatch habsent
  | cons s rest =>
    obtain ⟨_, w₂, hfirst, hrest⟩ := Action.bind_eq_ok hstore
    have hloaded := Settings.localSnapshot_of_addsTo hadds hfirst
    rw [Snapshot.storeAll_cons]
    exact Settings.localSnapshot_of_storeEach hloaded hrest

/-- A world whose snapshot holds two schemas of one name, with a column that is not
normal in the first. -/
def shelfWorld : World where
  files := { texts := .ofList [("shelf.json",
    "\x7b\"schemas\": [\x7b\"name\": \"a\", \"tables\": \x7b\"t\": \x7b\x7d\x7d\x7d, "
      ++ "\x7b\"name\": \"b\"\x7d, \x7b\"name\": \"b\"\x7d]\x7d")] }
  server := {
    accepts := fun _ => false
    entry? := fun _ => none
    failsQuery := fun _ => false
    refuses? := fun _ _ => none }
  now := 0

/-- Settings that name the shelf and no database. -/
def shelfSettings : Settings where
  snapshotPath := "shelf.json"
  connections := []

/-- Two new schemas, one of them twice and one table without its name, and a schema of a
name that is there. -/
def shelved : List Schema := [
  { name := "d" }, { name := "b", defaultCollation := "utf8mb4_bin" }, { name := "c" },
  { name := "d", tables := .ofList [("t", {})] }]

/-- What the shelf holds at first. -/
def shelf : Snapshot where
  schemas := [{ name := "a", tables := .ofList [("t", { name := "t" })] }, { name := "b" },
    { name := "b" }]

/-- A world whose snapshot is not a document. -/
def tornWorld : World :=
  { shelfWorld with files := { texts := .ofList [("shelf.json", "\x7b")] } }

theorem snapshot_stores_shelf :
    (shelfSettings.AddsTo shelfWorld shelf ∧
      ∃ w₁, shelfSettings.storeEach shelved shelfWorld = (.ok (), w₁) ∧
        ∃ final,
          shelfSettings.localSnapshot w₁ = (.ok final, w₁) ∧ shelf.Stores shelved final) ∧
      ∀ s, shelfSettings.storeSchema s tornWorld = (.error .malformedText, tornWorld) := by
  have hload : shelfSettings.localSnapshot shelfWorld = (.ok shelf, shelfWorld) :=
    Settings.localSnapshot_eq_of_fst (by decide +kernel)
  have hbeside : shelfSettings.IsBeside shelfWorld.files { steps := ["shelf.json"] } :=
    ⟨by decide +kernel, by decide +kernel, by decide +kernel⟩
  obtain ⟨w₁, hstore⟩ := Settings.exists_storeEach shelved hbeside (.inl hload)
  have hpresent : tornWorld.files.contains shelfSettings.snapshotPath = true := by
    decide +kernel
  have htorn : shelfSettings.localSnapshot tornWorld = (.error .malformedText, tornWorld) :=
    Settings.localSnapshot_eq_of_fst (by decide +kernel)
  exact ⟨⟨.inl hload, w₁, hstore,
      (snapshot_stores shelfSettings shelfWorld).1 (.inl hload) (.inr (by decide)) hstore⟩,
    (snapshot_stores shelfSettings tornWorld).2 hpresent htorn⟩

/-- A world without a snapshot. -/
def bareWorld : World := { shelfWorld with files := {} }

/-- Where there is no snapshot and nothing is stored, there is still none to load. -/
theorem localSnapshot_of_emptyRun :
    shelfSettings.AddsTo bareWorld {} ∧
      shelfSettings.storeEach [] bareWorld = (.ok (), bareWorld) ∧
      shelfSettings.localSnapshot bareWorld = (.error .files, bareWorld) :=
  ⟨.inr ⟨by decide +kernel, rfl⟩, rfl, Settings.localSnapshot_eq_of_fst (by decide +kernel)⟩

end SchemaPlan
