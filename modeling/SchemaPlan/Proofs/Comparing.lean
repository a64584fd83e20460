import SchemaPlan.Proofs.Applying
import SchemaPlan.Proofs.Storing
set_option autoImplicit false

/-!
# Comparing all databases, or one

Settings that load give each connection a key of its own, so a key leads to the
connection that it stands in.  With this the three ways to a connection agree: to
compare all is to compare one after the other, with the same outcomes and the same first
fault, and a comparison is applied over the connection that it was made over
(`compareAll_agrees`).

What makes this hold: comparing reads files and servers and changes neither, so what
came before does not matter (`Action.OnlyLogsIn`).
-/

namespace SchemaPlan

/-! ## Actions that only log in -/

/-- A world with some more logins. -/
def World.withLogins (w : World) (logins : List Login) : World :=
  { w with logins := w.logins ++ logins }

@[simp] theorem World.withLogins_nil (w : World) : w.withLogins [] = w := by
  rw [withLogins, List.append_nil]

namespace Action

variable {α β : Type} {logins more : List Login}

/-- What an action answers depends on the files and the servers alone, and when it
answers it leaves the world as it was but for some logins. -/
structure OnlyLogsIn (logins : List Login) (action : Action α) : Prop where
  answer : ∀ {v w : World},
    v.files = w.files → v.server = w.server → (action v).1 = (action w).1
  world : ∀ {w w₁ : World} {a : α}, action w = (.ok a, w₁) → w₁ = w.withLogins logins

theorem eq_of_fst {action : Action α} {answer : Except Fault α} {w : World}
    (h : (action w).1 = answer) : action w = (answer, (action w).2) := by
  rw [← h]

namespace OnlyLogsIn

theorem ofExcept (answer : Except Fault α) : OnlyLogsIn [] (Action.ofExcept answer) where
  answer _ _ := rfl
  world {w w₁ a} h := by
    rw [(ofExcept_eq_ok h).2, World.withLogins_nil]

theorem ofSchemaCheck (answer : Except SchemaFault α) :
    OnlyLogsIn [] (Action.ofSchemaCheck answer) where
  answer _ _ := rfl
  world {w w₁ a} h := by
    rw [(ofSchemaCheck_eq_ok h).2, World.withLogins_nil]

theorem readFile (path : String) : OnlyLogsIn [] (Action.readFile path) where
  answer {v w} hfiles _ := by
    unfold Action.readFile
    rw [hfiles]
    cases w.files.read? path <;> rfl
  world {w w₁ a} h := by
    rw [readFile_eq_ok h, World.withLogins_nil]

theorem logIn (login : Login) : OnlyLogsIn [login] (Action.logIn login) where
  answer {v w} _ hserver := by
    unfold Action.logIn
    rw [hserver]
    split <;> rfl
  world h := (logIn_eq_ok h).2

theorem readCatalog (login : Login) : OnlyLogsIn [] (Action.readCatalog login) where
  answer {v w} _ hserver := by
    unfold Action.readCatalog
    rw [hserver]
    split
    · rfl
    · cases w.server.entry? login with
      | none => rfl
      | some entry =>
        dsimp only
        split <;> rfl
  world {w w₁ a} h := by
    rw [(readCatalog_eq_ok h).1, World.withLogins_nil]

/-- Actions that only log in do so one after the other. -/
theorem bind {first : Action α} {next : α → Action β} (hfirst : OnlyLogsIn logins first)
    (hnext : ∀ a, OnlyLogsIn more (next a)) : OnlyLogsIn (logins ++ more) (first >>= next) where
  answer {v w} hfiles hserver := by
    have hsame := hfirst.answer hfiles hserver
    rw [bind_apply, bind_apply]
    rcases hv : first v with ⟨answer, v₁⟩
    rcases hw : first w with ⟨answer', w₁⟩
    rw [hv, hw] at hsame
    obtain rfl : answer = answer' := hsame
    cases answer with
    | error fault => rfl
    | ok a =>
      obtain rfl := hfirst.world hv
      obtain rfl := hfirst.world hw
      exact (hnext a).answer hfiles hserver
  world {w w₂ b} h := by
    obtain ⟨a, w₁, hone, hrest⟩ := bind_eq_ok h
    rw [(hnext a).world hrest, hfirst.world hone]
    simp only [World.withLogins, List.append_assoc]

end OnlyLogsIn

theorem entry?_of_readCatalog {login : Login} {entry : CatalogEntry} {w w₁ : World}
    (h : Action.readCatalog login w = (.ok entry, w₁)) :
    w.server.entry? login = some entry := by
  unfold Action.readCatalog at h
  split at h
  · exact nomatch (Prod.mk.inj h).1
  · split at h
    · exact nomatch (Prod.mk.inj h).1
    · next found hfound =>
      split at h
      · exact nomatch (Prod.mk.inj h).1
      · rw [hfound, Except.ok.inj (Prod.mk.inj h).1]

end Action

/-! ## One answer after the other -/

section Traversal

variable {ε α β : Type} {f : α → Except ε β}

theorem forall₂_of_mapM_eq_ok {list : List α} {results : List β}
    (h : list.mapM f = .ok results) : List.Forall₂ (fun a b => f a = .ok b) list results := by
  induction list generalizing results with
  | nil =>
    obtain rfl := Except.ok.inj h
    exact .nil
  | cons a rest ih =>
    rw [List.mapM_cons] at h
    cases ha : f a with
    | error e =>
      rw [ha] at h
      exact nomatch h
    | ok b =>
      cases hrest : rest.mapM f with
      | error e =>
        rw [ha, hrest] at h
        exact nomatch h
      | ok others =>
        rw [ha, hrest] at h
        obtain rfl := Except.ok.inj h
        exact .cons ha (ih hrest)

/-- Where a list has no answers, the first of its elements that has none says why. -/
theorem exists_of_mapM_eq_error {list : List α} {e : ε} (h : list.mapM f = .error e) :
    ∃ before a after, list = before ++ a :: after ∧ (∀ b ∈ before, ∃ r, f b = .ok r) ∧
      f a = .error e := by
  induction list with
  | nil => exact nomatch h
  | cons a rest ih =>
    rw [List.mapM_cons] at h
    cases ha : f a with
    | error e' =>
      rw [ha] at h
      obtain rfl := Except.error.inj h
      exact ⟨[], a, rest, rfl, (fun _ hb => nomatch hb), ha⟩
    | ok b =>
      cases hrest : rest.mapM f with
      | ok others =>
        rw [ha, hrest] at h
        exact nomatch h
      | error e' =>
        rw [ha, hrest] at h
        obtain rfl := Except.error.inj h
        obtain ⟨before, c, after, rfl, hbefore, hc⟩ := ih hrest
        refine ⟨a :: before, c, after, rfl, fun d hd => ?_, hc⟩
        rcases List.mem_cons.1 hd with rfl | hd
        · exact ⟨b, ha⟩
        · exact hbefore d hd

end Traversal

/-! ## Settings that load -/

namespace Settings

variable {settings : Settings}

/-- A text is a document of settings, whatever keys they have. -/
def IsRead (text : String) (settings : Settings) : Prop :=
  ∃ entries, Toml.parse? text = some entries ∧
    (format true).decode (.object (Toml.entriesToJson entries)) = .ok settings

theorem repeatedKey?_eq_none_iff {met keys : List String} :
    repeatedKey? met keys = none ↔ keys.Nodup ∧ ∀ key ∈ keys, key ∉ met := by
  induction keys generalizing met with
  | nil => simp [repeatedKey?]
  | cons key rest ih =>
    rw [repeatedKey?, List.nodup_cons, List.forall_mem_cons]
    split
    · next hmet => simp [List.contains_iff_mem.1 hmet]
    · next hnew =>
      have hnot : key ∉ met := fun h => hnew (List.contains_iff_mem.2 h)
      rw [ih]
      simp only [List.mem_cons, not_or]
      grind

theorem check_eq_ok_iff {settings' : Settings} :
    settings.check = .ok settings' ↔
      settings = settings' ∧ (settings.connections.map (·.key)).Nodup := by
  rw [check]
  split
  · next key hrepeated =>
    have hnot : ¬ (settings.connections.map (·.key)).Nodup := by
      intro hnodup
      have hnone : repeatedKey? [] (settings.connections.map (·.key)) = none :=
        repeatedKey?_eq_none_iff.2 ⟨hnodup, fun _ _ => List.not_mem_nil⟩
      exact nomatch hrepeated.symm.trans hnone
    exact ⟨nofun, fun h => absurd h.2 hnot⟩
  · next hnone =>
    have hnodup := (repeatedKey?_eq_none_iff.1 hnone).1
    exact ⟨fun h => ⟨Except.ok.inj h, hnodup⟩, fun h => congrArg Except.ok h.1⟩

/-- The settings of a text are accepted if each connection has a key of its own. -/
theorem ofText_eq_ok_iff {path text : String} :
    ofText path text = .ok settings ↔
      IsRead text settings ∧ (settings.connections.map (·.key)).Nodup := by
  unfold ofText IsRead
  cases Toml.parse? text with
  | none => simp
  | some entries =>
    cases hdecode : (format true).decode (.object (Toml.entriesToJson entries)) with
    | error fault => simp [hdecode]
    | ok read =>
      simp only [Option.some.injEq, exists_eq_left', hdecode, Except.ok.injEq, check_eq_ok_iff]
      constructor <;> rintro ⟨rfl, h⟩ <;> exact ⟨rfl, h⟩

theorem load_eq_ok_iff {path : String} {v : World} :
    (load path v).1 = .ok settings ↔
      (∃ text, v.files.read? path = some text ∧ IsRead text settings) ∧
        (settings.connections.map (·.key)).Nodup := by
  unfold load
  cases v.files.read? path with
  | none => simp
  | some text =>
    simp only [Option.some.injEq, exists_eq_left']
    exact ofText_eq_ok_iff

/-- Where each connection has a key of its own, that key leads to it. -/
theorem connection_of_mem (hkeys : (settings.connections.map (·.key)).Nodup)
    {connection : Connection} (h : connection ∈ settings.connections) :
    settings.connection connection.key = .ok connection := by
  unfold Settings.connection
  split
  · next found hfound =>
    have hkey : found.key = connection.key :=
      beq_iff_eq.1 (List.find?_some (p := fun c : Connection => c.key == connection.key) hfound)
    exact congrArg Except.ok
      (List.inj_on_of_nodup_map hkeys (List.mem_of_find?_eq_some hfound) h hkey)
  · next hnone =>
    exact absurd (beq_self_eq_true connection.key) (List.find?_eq_none.1 hnone _ h)

end Settings

/-! ## Comparing connections -/

open SchemaPlan.Action (OnlyLogsIn)

theorem Connection.onlyLogsIn_logIn (connection : Connection) (settings : ApplySettings) :
    OnlyLogsIn [connection.login] (connection.logIn settings) :=
  (OnlyLogsIn.ofExcept _).bind fun _ => .logIn _

theorem Connection.onlyLogsIn_introspect (connection : Connection) (settings : ApplySettings) :
    OnlyLogsIn [connection.login] (connection.introspect settings) :=
  (connection.onlyLogsIn_logIn settings).bind fun _ =>
    (OnlyLogsIn.readCatalog _).bind fun _ => .ofSchemaCheck _

namespace Settings

variable {settings : Settings}

theorem onlyLogsIn_localSnapshot (settings : Settings) : OnlyLogsIn [] settings.localSnapshot :=
  (OnlyLogsIn.readFile _).bind fun _ => .ofExcept _

theorem onlyLogsIn_compareConnection (settings : Settings) (schema : Schema)
    (connection : Connection) :
    OnlyLogsIn [connection.login] (settings.compareConnection schema connection) :=
  (connection.onlyLogsIn_introspect _).bind fun _ =>
    (OnlyLogsIn.ofSchemaCheck _).bind fun _ => .ofExcept (.ok _)

/-- Compare a connection with its schema of a snapshot. -/
def compareIn (settings : Settings) (snapshot : Snapshot) (connection : Connection) :
    Action Comparison := do
  let schema ← .ofExcept (schemaOf snapshot connection.schemaName)
  settings.compareConnection schema connection

theorem onlyLogsIn_compareIn (settings : Settings) (snapshot : Snapshot)
    (connection : Connection) :
    OnlyLogsIn [connection.login] (settings.compareIn snapshot connection) :=
  (OnlyLogsIn.ofExcept _).bind fun _ => settings.onlyLogsIn_compareConnection _ _

theorem compareEach_cons (settings : Settings) (snapshot : Snapshot) (connection : Connection)
    (rest : List Connection) :
    settings.compareEach snapshot (connection :: rest) =
      settings.compareIn snapshot connection >>= fun comparison =>
        settings.compareEach snapshot rest >>= fun others => pure (comparison :: others) := by
  rw [compareEach, compareIn]
  funext w
  simp only [Action.bind_apply, Action.ofExcept]
  cases schemaOf snapshot connection.schemaName <;> rfl

theorem onlyLogsIn_compareEach (settings : Settings) (snapshot : Snapshot)
    (connections : List Connection) :
    OnlyLogsIn (connections.map (·.login)) (settings.compareEach snapshot connections) := by
  induction connections with
  | nil => exact .ofExcept (.ok [])
  | cons connection rest ih =>
    have hothers : ∀ comparison : Comparison, OnlyLogsIn (rest.map (·.login))
        (settings.compareEach snapshot rest >>= fun others => pure (comparison :: others)) := by
      intro comparison
      have hpure := ih.bind fun others => OnlyLogsIn.ofExcept (.ok (comparison :: others))
      rwa [List.append_nil] at hpure
    rw [compareEach_cons]
    exact (settings.onlyLogsIn_compareIn snapshot connection).bind hothers

/-- What comes of comparing one after the other is what comes of each on its own. -/
theorem compareEach_fst (settings : Settings) (snapshot : Snapshot)
    (connections : List Connection) (w : World) :
    (settings.compareEach snapshot connections w).1
      = connections.mapM fun connection => (settings.compareIn snapshot connection w).1 := by
  induction connections generalizing w with
  | nil => rfl
  | cons connection rest ih =>
    rw [compareEach_cons, List.mapM_cons, Action.bind_apply]
    rcases hone : settings.compareIn snapshot connection w with ⟨answer, w₁⟩
    cases answer with
    | error fault => rfl
    | ok comparison =>
      obtain rfl := (settings.onlyLogsIn_compareIn snapshot connection).world hone
      have hrest : (settings.compareEach snapshot rest (w.withLogins [connection.login])).1
          = rest.mapM fun connection => (settings.compareIn snapshot connection w).1 := by
        rw [ih]
        congr 1
        funext other
        exact (settings.onlyLogsIn_compareIn snapshot other).answer rfl rfl
      dsimp only
      rw [Action.bind_apply, ← hrest]
      rcases settings.compareEach snapshot rest (w.withLogins [connection.login]) with
        ⟨others, w₂⟩
      cases others <;> rfl

/-- A comparison over a connection that its key leads to. -/
theorem compareOne_eq {connection : Connection} {snapshot : Snapshot} {w : World}
    (hload : settings.localSnapshot w = (.ok snapshot, w))
    (hconnection : settings.connection connection.key = .ok connection) :
    settings.compareOne connection.schemaName connection.key w
      = settings.compareIn snapshot connection w := by
  rw [compareOne, Action.bind_of_ok hload, compareIn, Action.bind_apply, Action.bind_apply,
    Action.ofExcept]
  cases schemaOf snapshot connection.schemaName with
  | error fault => rfl
  | ok schema => exact Action.bind_of_ok (Action.ofExcept_of_ok hconnection w)

theorem compareOne_of_error {schemaName key : String} {fault : Fault} {w : World}
    (hload : settings.localSnapshot w = (.error fault, w)) :
    settings.compareOne schemaName key w = (.error fault, w) := by
  rw [compareOne, Action.bind_apply, hload]

end Settings

/-! ## Applying what was compared -/

namespace Comparison

/-- However far changes are sent, nobody logs in on the way. -/
theorem logins_sendChanges (database : String) (safeMode : Bool) (index : Nat)
    (report : ApplyReport) (changes : List Change) (w : World) :
    (sendChanges database safeMode index report changes w).2.logins = w.logins := by
  induction changes generalizing index report w with
  | nil => rfl
  | cons change rest ih =>
    by_cases hskips : skips safeMode change = true
    · rw [sendChanges_of_skips hskips, ih]
    · rw [sendChanges_of_not_skips hskips]
      split
      · rfl
      · rw [ih, World.receive]

theorem Logged.logins_eq {comparison : Comparison} {changeLog : Option String}
    {w logged : World}
    (h : Logged comparison w changeLog logged) : logged.logins = w.logins := by
  cases h <;> rfl

/-- Whatever comes of applying a comparison, nobody logs in on the way. -/
theorem logins_apply (comparison : Comparison) (safeMode : Bool) (changeLog : Option String)
    (w : World) : (comparison.apply safeMode changeLog w).2.logins = w.logins := by
  rw [apply_eq]
  split
  · rfl
  · rcases writeLog_cases comparison changeLog w with
      ⟨logged, hwrite, hlogged⟩ | ⟨path, -, -, hwrite⟩
    · rw [Action.bind_of_ok hwrite, logins_sendChanges, hlogged.logins_eq]
    · rw [Action.bind_apply, hwrite]

end Comparison

namespace Settings

variable {settings : Settings} {connection : Connection} {w : World}

/-- A comparison over a connection, made in a world in which the local snapshot is
loaded: of what its server has in its catalog, with the schema of the snapshot. -/
structure ComparesOver (settings : Settings) (w : World) (snapshot : Snapshot)
    (connection : Connection) (comparison : Comparison) : Prop where
  /-- The schema of the catalog is compared with that of the snapshot. -/
  compared : ∃ schema entry current changes,
    snapshot.find? connection.schemaName = some schema ∧
    w.server.entry? connection.login = some entry ∧
    entry.toSchema connection.name = .ok current ∧
    schema.diff current connection.name = .ok changes ∧
    comparison = { changes with database := connection.label, databaseKey := connection.key }
  /-- On its own the connection has the same comparison, whatever was done before. -/
  alone : ∀ v : World, v.files = w.files → v.server = w.server →
    settings.compareOne connection.schemaName connection.key v
      = (.ok comparison, v.withLogins [connection.login])
  /-- The comparison is applied over the connection, and over no other. -/
  applied : ∀ v : World, (settings.apply comparison v).2.logins
    = v.logins ++ if v.server.accepts connection.login then [connection.login] else []

theorem find?_of_schemaOf {snapshot : Snapshot} {name : String} {schema : Schema}
    (h : schemaOf snapshot name = .ok schema) : snapshot.find? name = some schema := by
  unfold schemaOf at h
  split at h
  · next found hfound => rw [hfound, Except.ok.inj h]
  · exact nomatch h

/-- A connection that was compared could log in, and its catalog had a schema with a
plan to that of the snapshot. -/
theorem compareIn_eq_ok {snapshot : Snapshot} {comparison : Comparison} {w₁ : World}
    (h : settings.compareIn snapshot connection w = (.ok comparison, w₁)) :
    settings.applySettings.check = .ok () ∧ ∃ schema entry current changes,
      snapshot.find? connection.schemaName = some schema ∧
      w.server.entry? connection.login = some entry ∧
      entry.toSchema connection.name = .ok current ∧
      schema.diff current connection.name = .ok changes ∧
      comparison
        = { changes with database := connection.label, databaseKey := connection.key } := by
  obtain ⟨schema, w₂, hschema, hcompare⟩ := Action.bind_eq_ok h
  obtain ⟨hfind, rfl⟩ := Action.ofExcept_eq_ok hschema
  obtain ⟨current, w₃, hcurrent, hdiff⟩ := Action.bind_eq_ok hcompare
  obtain ⟨_, w₄, hlogIn, hcatalog⟩ := Action.bind_eq_ok hcurrent
  obtain ⟨_, w₅, hsettings, hlogIn'⟩ := Action.bind_eq_ok hlogIn
  obtain ⟨hcheck, rfl⟩ := Action.ofExcept_eq_ok hsettings
  obtain ⟨-, rfl⟩ := Action.logIn_eq_ok hlogIn'
  obtain ⟨entry, w₆, hread, hentry⟩ := Action.bind_eq_ok hcatalog
  obtain ⟨changes, w₇, hchanges, hlabel⟩ := Action.bind_eq_ok hdiff
  obtain rfl := Except.ok.inj (Prod.mk.inj hlabel).1
  have hthere := Action.entry?_of_readCatalog hread
  exact ⟨hcheck, schema, entry, current, changes, find?_of_schemaOf hfind, hthere,
    (Action.ofSchemaCheck_eq_ok hentry).1,
    (Action.ofSchemaCheck_eq_ok hchanges).1, rfl⟩

/-- To apply a comparison is to log in over the connection that its key leads to, if the
settings allow it, and to send its changes. -/
theorem logins_apply {comparison : Comparison} (hcheck : settings.applySettings.check = .ok ())
    (hconnection : settings.connection comparison.databaseKey = .ok connection) (v : World) :
    (settings.apply comparison v).2.logins
      = v.logins ++ if v.server.accepts connection.login then [connection.login] else [] := by
  have hlogIn : connection.logIn settings.applySettings v = Action.logIn connection.login v :=
    Action.bind_of_ok (Action.ofExcept_of_ok hcheck v)
  rw [apply, Action.bind_of_ok (Action.ofExcept_of_ok hconnection v), Action.bind_apply, hlogIn,
    Action.logIn]
  by_cases haccepts : v.server.accepts connection.login = true
  · rw [if_pos haccepts, if_pos haccepts]
    exact comparison.logins_apply _ _ _
  · rw [if_neg haccepts, if_neg haccepts]
    exact (List.append_nil _).symm

/-- Each comparison that comes of comparing one after the other is that of its
connection. -/
theorem comparesOver_of_compareIn {snapshot : Snapshot} {comparison : Comparison}
    (hload : settings.localSnapshot w = (.ok snapshot, w))
    (hconnection : settings.connection connection.key = .ok connection)
    (h : (settings.compareIn snapshot connection w).1 = .ok comparison) :
    settings.ComparesOver w snapshot connection comparison := by
  obtain ⟨hcheck, hcompared⟩ := compareIn_eq_ok (Action.eq_of_fst h)
  refine ⟨hcompared, fun v hfiles hserver => ?_, ?_⟩
  · have hload' := (settings.onlyLogsIn_localSnapshot.answer hfiles hserver).trans
      (congrArg Prod.fst hload)
    have hanswer := ((settings.onlyLogsIn_compareIn snapshot connection).answer hfiles
      hserver).trans h
    have hrun : settings.compareIn snapshot connection v
        = (.ok comparison, (settings.compareIn snapshot connection v).2) :=
      Action.eq_of_fst hanswer
    rw [compareOne_eq (localSnapshot_eq_of_fst hload') hconnection, hrun,
      (settings.onlyLogsIn_compareIn snapshot connection).world hrun]
  · obtain ⟨schema, entry, current, changes, -, -, -, -, rfl⟩ := hcompared
    exact logins_apply hcheck hconnection

/-- What is compared in one go is what is compared one after the other. -/
theorem forall₂_comparesOver (hkeys : (settings.connections.map (·.key)).Nodup)
    {comparisons : List Comparison} {w₁ : World}
    (h : settings.compareAll w = (.ok comparisons, w₁)) :
    ∃ snapshot, settings.localSnapshot w = (.ok snapshot, w) ∧
      List.Forall₂ (settings.ComparesOver w snapshot) settings.connections comparisons ∧
      w₁ = w.withLogins (settings.connections.map (·.login)) := by
  obtain ⟨snapshot, w₂, hload, heach⟩ := Action.bind_eq_ok h
  have hload' := localSnapshot_eq_of_fst (congrArg Prod.fst hload)
  obtain rfl : w = w₂ := congrArg Prod.snd (hload'.symm.trans hload)
  have hanswers := (settings.compareEach_fst snapshot settings.connections w).symm.trans
    (congrArg Prod.fst heach)
  refine ⟨snapshot, hload', ?_, (settings.onlyLogsIn_compareEach _ _).world heach⟩
  have hall := forall₂_of_mapM_eq_ok hanswers
  rw [List.forall₂_iff_zip] at hall ⊢
  refine ⟨hall.1, fun {connection comparison} hpair => ?_⟩
  exact comparesOver_of_compareIn hload'
    (connection_of_mem hkeys (List.of_mem_zip hpair).1) (hall.2 hpair)

/-- Where comparing in one go fails, the first connection that cannot be compared on its
own says why. -/
theorem exists_compareOne_of_error (hkeys : (settings.connections.map (·.key)).Nodup)
    {fault : Fault} {w₁ : World} (h : settings.compareAll w = (.error fault, w₁))
    (hsome : settings.connections ≠ []) :
    ∃ before connection after, settings.connections = before ++ connection :: after ∧
      (∀ earlier ∈ before, ∃ comparison,
        (settings.compareOne earlier.schemaName earlier.key w).1 = .ok comparison) ∧
      (settings.compareOne connection.schemaName connection.key w).1 = .error fault := by
  rw [compareAll, Action.bind_apply] at h
  cases hload : (settings.localSnapshot w).1 with
  | error fault' =>
    -- Without a snapshot none of the connections can be compared.
    have hload' := localSnapshot_eq_of_fst hload
    rw [hload'] at h
    obtain rfl := Except.error.inj (Prod.mk.inj h).1
    obtain ⟨connection, after, hconnections⟩ := List.exists_cons_of_ne_nil hsome
    refine ⟨[], connection, after, hconnections, (fun _ hearlier => nomatch hearlier), ?_⟩
    rw [compareOne_of_error hload']
  | ok snapshot =>
    have hload' := localSnapshot_eq_of_fst hload
    have halone : ∀ connection ∈ settings.connections,
        (settings.compareOne connection.schemaName connection.key w).1
          = (settings.compareIn snapshot connection w).1 := by
      intro connection hconnection
      rw [compareOne_eq hload' (connection_of_mem hkeys hconnection)]
    rw [hload'] at h
    have hanswers := (settings.compareEach_fst snapshot settings.connections w).symm.trans
      (congrArg Prod.fst h)
    obtain ⟨before, connection, after, hsplit, hbefore, hfault⟩ :=
      exists_of_mapM_eq_error hanswers
    refine ⟨before, connection, after, hsplit, fun earlier hearlier => ?_, ?_⟩
    · rw [halone earlier (hsplit ▸ List.mem_append_left _ hearlier)]
      exact hbefore earlier hearlier
    · rw [halone connection (hsplit ▸ List.mem_append_right _ List.mem_cons_self)]
      exact hfault

end Settings

/-- Settings load from a file exactly if it can be read as settings and no two
connections in it have one key.  Under such settings, in whatever world, comparing all
connections gives each, in order, the comparison that it has on its own and that is
applied over it, with one login for each and nothing else done; and if it fails, the
first connection that cannot be compared on its own says why. -/
theorem compareAll_agrees (path : String) (v : World) (settings : Settings) :
    ((Settings.load path v).1 = .ok settings ↔
      (∃ text, v.files.read? path = some text ∧ Settings.IsRead text settings) ∧
        (settings.connections.map (·.key)).Nodup) ∧
    ((Settings.load path v).1 = .ok settings → ∀ w : World,
      (∀ {comparisons w₁}, settings.compareAll w = (.ok comparisons, w₁) →
        ∃ snapshot, settings.localSnapshot w = (.ok snapshot, w) ∧
          List.Forall₂ (settings.ComparesOver w snapshot) settings.connections comparisons ∧
          w₁ = w.withLogins (settings.connections.map (·.login))) ∧
      ∀ {fault w₁}, settings.compareAll w = (.error fault, w₁) → settings.connections ≠ [] →
        ∃ before connection after, settings.connections = before ++ connection :: after ∧
          (∀ earlier ∈ before, ∃ comparison,
            (settings.compareOne earlier.schemaName earlier.key w).1 = .ok comparison) ∧
          (settings.compareOne connection.schemaName connection.key w).1 = .error fault) := by
  refine ⟨Settings.load_eq_ok_iff, fun hload w => ?_⟩
  have hkeys := (Settings.load_eq_ok_iff.1 hload).2
  exact ⟨fun h => Settings.forall₂_comparesOver hkeys h,
    fun h hsome => Settings.exists_compareOne_of_error hkeys h hsome⟩

/-- Two databases on one server, of which the second is compared with a schema of
another name. -/
def museum : Settings where
  snapshotPath := "s"
  connections := [
    { key := "a", host := "h", user := "u", name := "m" },
    { key := "b", host := "h", user := "u", name := "n", schema := some "m" }]

/-- A world with settings, a snapshot and a server that has some databases. -/
def museumWorld (databases : List String) : World where
  files := { texts := .ofList [
    ("m.toml", "schema.path = \"s\"\n"
      ++ "[[connections]]\nkey = \"a\"\nhost = \"h\"\nuser = \"u\"\nname = \"m\"\n"
      ++ "[[connections]]\nkey = \"b\"\nhost = \"h\"\nuser = \"u\"\nname = \"n\"\n"
      ++ "schema = \"m\"\n"),
    ("s", "\x7b\"schemas\": [\x7b\"name\": \"m\", "
      ++ "\"tables\": \x7b\"vase\": \x7b\x7d\x7d\x7d]\x7d")] }
  server := {
    accepts := fun _ => true
    entry? := fun login => if databases.contains login.database then some {} else none
    failsQuery := fun _ => false
    refuses? := fun _ _ => none }
  now := 0

theorem compareAll_agrees_museum :
    (Settings.load "m.toml" (museumWorld [])).1 = .ok museum ∧
    (∃ comparisons w₁ snapshot,
      museum.compareAll (museumWorld ["m", "n"]) = (.ok comparisons, w₁) ∧
      List.Forall₂ (museum.ComparesOver (museumWorld ["m", "n"]) snapshot) museum.connections
        comparisons) ∧
    ∃ before connection after, museum.connections = before ++ connection :: after ∧
      (∀ earlier ∈ before, ∃ comparison,
        (museum.compareOne earlier.schemaName earlier.key (museumWorld ["m"])).1
          = .ok comparison) ∧
      (museum.compareOne connection.schemaName connection.key (museumWorld ["m"])).1
        = .error (.schemaNotFound "n") := by
  have hload : (Settings.load "m.toml" (museumWorld [])).1 = .ok museum := by
    decide +kernel
  have hagrees := (compareAll_agrees "m.toml" (museumWorld []) museum).2 hload
  have hall : (museum.compareAll (museumWorld ["m", "n"])).1.isOk = true := by
    decide +kernel
  have hfault : (museum.compareAll (museumWorld ["m"])).1 = .error (.schemaNotFound "n") := by
    decide +kernel
  cases hanswer : (museum.compareAll (museumWorld ["m", "n"])).1 with
  | error fault =>
    rw [hanswer] at hall
    exact nomatch hall
  | ok comparisons =>
    have hrun := Action.eq_of_fst hanswer
    obtain ⟨snapshot, -, hcompares, -⟩ := (hagrees _).1 hrun
    exact ⟨hload, ⟨comparisons, _, snapshot, hrun, hcompares⟩,
      (hagrees _).2 (Action.eq_of_fst hfault) (by decide)⟩

end SchemaPlan
