import SchemaPlan.Proofs.CharacterSets
import SchemaPlan.Proofs.SharedTables
set_option autoImplicit false

/-!
# Columns behind a conversion

A conversion gives a table and all text in it one character set.  The columns of the
table are compared with what they were before, so a column that keeps a character set of
its own is not seen to lose it: after the conversion a column is redefined exactly if
its definitions differ (`diff_conversions`), and any other takes the character set of
the table.
-/

namespace SchemaPlan

/-! ## What statements do to character sets -/

/-- The character set of a table, and that of a column of it that holds text. -/
structure CharacterSets where
  table : String
  column : String
  deriving DecidableEq, Repr

/-- The character set that a definition gives a column of a table: its own, or else that
of the table. -/
def Column.characterSetIn (c : Column) (table : String) : String :=
  if c.charSet = "" then table else c.charSet

/-- What a statement does to the character sets of a table and of a column: a conversion
sets both, a redefinition that of the column. -/
def Statement.recode (table column : String) : Statement → CharacterSets → CharacterSets
  | .convertTable name characterSet _, sets =>
    if name = table then ⟨characterSet, characterSet⟩ else sets
  | .changeColumn name old c, sets =>
    if name = table ∧ old = column then { sets with column := c.characterSetIn sets.table }
    else sets
  | _, sets => sets

namespace CharacterSets

/-- The character sets of a table and of a column after some statements. -/
def after (sets : CharacterSets) (table column : String) (statements : List Statement) :
    CharacterSets :=
  statements.foldl (fun sets s => s.recode table column sets) sets

variable {sets : CharacterSets} {table column : String}

theorem after_append (first second : List Statement) :
    sets.after table column (first ++ second)
      = (sets.after table column first).after table column second :=
  List.foldl_append

section Redefined

variable {c : Column}

/-- A statement that does not convert a table and redefines a column in one way only. -/
theorem recode_eq {s : Statement}
    (hconvert : ∀ characterSet collation, s ≠ .convertTable table characterSet collation)
    (hchange : ∀ e, s = .changeColumn table column e → e = c) :
    s.recode table column sets = if s = .changeColumn table column c then
      { sets with column := c.characterSetIn sets.table } else sets := by
  cases s with
  | convertTable name characterSet collation =>
    have hne : name ≠ table := by
      rintro rfl
      exact hconvert characterSet collation rfl
    rw [if_neg nofun]
    exact if_neg hne
  | changeColumn name old e =>
    by_cases heq : name = table ∧ old = column
    · obtain ⟨rfl, rfl⟩ := heq
      obtain rfl := hchange e rfl
      rw [if_pos rfl]
      exact if_pos ⟨rfl, rfl⟩
    · have hne : Statement.changeColumn name old e ≠ .changeColumn table column c := by
        rintro ⟨rfl, rfl, rfl⟩
        exact heq ⟨rfl, rfl⟩
      rw [if_neg hne]
      exact if_neg heq
  | _ => rfl

/-- Statements that do not convert a table and redefine a column in one way only give it
the character set of that definition, if they redefine it at all. -/
theorem after_eq {statements : List Statement}
    (hconvert : ∀ characterSet collation,
      .convertTable table characterSet collation ∉ statements)
    (hchange : ∀ e, .changeColumn table column e ∈ statements → e = c) :
    sets.after table column statements = if .changeColumn table column c ∈ statements then
      { sets with column := c.characterSetIn sets.table } else sets := by
  induction statements generalizing sets with
  | nil => rfl
  | cons s rest ih =>
    have hstep : s.recode table column sets = if s = .changeColumn table column c then
        { sets with column := c.characterSetIn sets.table } else sets :=
      recode_eq (fun a b h => hconvert a b (h ▸ List.mem_cons_self))
        fun e h => hchange e (h ▸ List.mem_cons_self)
    rw [after, List.foldl_cons, hstep, ← after,
      ih (fun a b h => hconvert a b (List.mem_cons_of_mem s h))
        fun e h => hchange e (List.mem_cons_of_mem s h)]
    by_cases hs : s = .changeColumn table column c
    -- a definition that was given before gives the same again
    · have hmem : .changeColumn table column c ∈ s :: rest := hs ▸ List.mem_cons_self
      rw [if_pos hs, if_pos hmem]
      exact ite_self _
    · simp only [if_neg hs, List.mem_cons, Ne.symm hs, false_or]

end Redefined

end CharacterSets

/-! ## The plan of a converted table -/

/-- What becomes of a column on both sides of a table that is converted, given what is
done before the conversion and behind it.  The column is redefined behind the conversion
exactly if its definitions differ; otherwise it ends with the character set of the table,
whatever its definition says. -/
structure Recoded (table characterSet collation column : String) (c d : Column)
    (before behind : List Statement) : Prop where
  not_before : ∀ e, .changeColumn table column e ∉ before
  behind_iff : ∀ e, .changeColumn table column e ∈ behind ↔ c.differs d = true ∧ e = c
  ends : ∀ sets : CharacterSets,
    sets.after table column (before ++ .convertTable table characterSet collation :: behind)
      = ⟨characterSet, if c.differs d then c.characterSetIn characterSet else characterSet⟩
  keeps_iff : c.charSet ≠ "" → c.charSet ≠ characterSet → ∀ sets : CharacterSets,
    (sets.after table column
        (before ++ .convertTable table characterSet collation :: behind)).column = c.charSet ↔
      c.differs d = true

/-- A column that is not redefined before the conversion of its table, and behind it in
one way only if at all, while the table is not converted again. -/
theorem Recoded.of_behind {table characterSet collation column : String} {c d : Column}
    {before behind : List Statement} (hbefore : ∀ e, .changeColumn table column e ∉ before)
    (hbehind : ∀ e, .changeColumn table column e ∈ behind ↔ c.differs d = true ∧ e = c)
    (honce : ∀ a b, .convertTable table a b ∉ behind) :
    Recoded table characterSet collation column c d before behind := by
  have hends : ∀ sets : CharacterSets,
      sets.after table column (before ++ .convertTable table characterSet collation :: behind)
        = ⟨characterSet,
          if c.differs d then c.characterSetIn characterSet else characterSet⟩ := by
    intro sets
    have hconversion : (sets.after table column before).after table column
        [.convertTable table characterSet collation] = ⟨characterSet, characterSet⟩ :=
      if_pos rfl
    rw [← List.singleton_append, CharacterSets.after_append, CharacterSets.after_append,
      hconversion, CharacterSets.after_eq honce fun e he => ((hbehind e).1 he).2]
    cases hdiffers : c.differs d with
    | true =>
      have hmem : .changeColumn table column c ∈ behind := (hbehind c).2 ⟨hdiffers, rfl⟩
      rw [if_pos hmem, if_pos rfl]
    | false =>
      have hnot : .changeColumn table column c ∉ behind := fun h =>
        Bool.false_ne_true (hdiffers.symm.trans ((hbehind c).1 h).1)
      rw [if_neg hnot, if_neg Bool.false_ne_true]
  refine ⟨hbefore, hbehind, hends, fun hown hother sets => ?_⟩
  rw [hends sets]
  cases c.differs d with
  | true => exact iff_of_true (if_neg hown) rfl
  | false => exact iff_of_false hother.symm Bool.false_ne_true

/-- The plan of a table that is converted begins with the conversion. -/
theorem Table.plan_eq_conversion {target current : Table} (h : target.Recodes current) :
    target.plan current = .convertTable target.name target.characterSet target.collation
      :: target.columnPlan current := by
  rw [plan_eq, conversion_eq, if_neg (not_and_or.2 h), List.singleton_append]

/-- Between two valid schemas there is a comparison.  If it converts a table on both
sides, it does so once, to the character set of the target, and each column on both sides
of the table is redefined behind the conversion exactly if its definitions differ.  So a
column with a character set of its own, other than that of the table, keeps it exactly
then. -/
theorem diff_conversions {target current : Schema} (htarget : target.validate = .ok ())
    (hcurrent : current.validate = .ok ()) (database : String) {key : String} {t u : Table}
    (ht : target.tables.get? key = some t) (hu : current.tables.get? key = some u)
    {characterSet collation : String}
    (hconvert : .convertTable key characterSet collation ∈ target.plan current database) :
    characterSet = t.characterSet ∧ ∃ before behind,
      target.diff current database = .ok (.ofStatements database
        (before ++ .convertTable key characterSet collation :: behind)) ∧
      (∀ a b, .convertTable key a b ∉ before ++ behind) ∧
      ∀ column c d, t.columns.get? column = some c → u.columns.get? column = some d →
        Recoded key characterSet collation column c d before behind := by
  have htarget' := (Schema.validate_eq_ok_iff target).1 htarget
  have hcurrent' := (Schema.validate_eq_ok_iff current).1 hcurrent
  have hname := htarget'.table_name ht
  obtain ⟨t', u', ht', hu', hrecodes, rfl, rfl⟩ :=
    (Schema.convertTable_mem_plan_iff htarget' hcurrent').1 hconvert
  obtain rfl := Option.some.inj (ht.symm.trans ht')
  obtain rfl := Option.some.inj (hu.symm.trans hu')
  obtain ⟨before, after, hplan, hothers⟩ :=
    Schema.plan_eq_append_plan htarget' hcurrent' database ht hu
  rw [Table.plan_eq_conversion hrecodes, hname, List.append_assoc, List.cons_append] at hplan
  -- around the plan of the table nothing names it
  have hquiet : ∀ s : Statement, s.tables = [key] → s ∉ before ∧ s ∉ after := by
    intro s htables
    have hkey : key ∈ s.tables := htables ▸ List.mem_singleton_self key
    exact ⟨fun h => hothers s (List.mem_append_left _ h) hkey,
      fun h => hothers s (List.mem_append_right _ h) hkey⟩
  have honce : ∀ a b, .convertTable key a b ∉ t.columnPlan u ++ after := by
    intro a b h
    rcases List.mem_append.1 h with h | h
    · have hnames := (hcurrent'.table_name hu).trans hname.symm
      exact nomatch Table.altersColumns_of_mem_columnPlan hnames h
    · exact (hquiet _ rfl).2 h
  refine ⟨rfl, before, t.columnPlan u ++ after, ?_, fun a b h => ?_, fun column c d hc hd => ?_⟩
  · rw [Schema.diff_of_wellFormed htarget' hcurrent', hplan]
  · rcases List.mem_append.1 h with h | h
    · exact (hquiet _ rfl).1 h
    · exact honce a b h
  · have hnot : ∀ e, .changeColumn key column e ∉ before := fun e =>
      (hquiet _ rfl).1
    refine .of_behind hnot (fun e => ?_) honce
    have hredefined : .changeColumn key column e ∈ target.plan current database ↔
        c.differs d = true ∧ e = c :=
      Schema.redefinition_mem_plan_iff htarget' hcurrent' ht hu hc hd
    rwa [hplan, List.mem_append, or_iff_right (hnot e), List.mem_cons, or_iff_right nofun]
      at hredefined

/-- A page whose address has a character set of its own. -/
def page : Table where
  name := "page"
  characterSet := "latin1"
  collation := "latin1_bin"
  columns := .ofList [
    ("slug", { name := "slug", dataType := "varchar", maxLength := 20, charSet := "ascii",
               collation := "ascii_bin" }),
    ("title", { name := "title", dataType := "text", charSet := "latin1",
                collation := "latin1_bin" })]

/-- The page with another character set: its address stays as it is, and its title has a
character set of its own now. -/
def nextPage : Table where
  name := "page"
  characterSet := "utf8mb4"
  collation := "utf8mb4_bin"
  columns := .ofList [
    ("slug", { name := "slug", dataType := "varchar", maxLength := 20, charSet := "ascii",
               collation := "ascii_bin" }),
    ("title", { name := "title", dataType := "text", charSet := "utf16",
                collation := "utf16_bin" })]

/-- A website of pages. -/
def website : Schema where
  tables := .ofList [("page", page)]

/-- The website of the next pages. -/
def nextWebsite : Schema where
  tables := .ofList [("page", nextPage)]

theorem diff_conversions_website :
    (nextWebsite.validate = .ok () ∧ website.validate = .ok ()) ∧
    (nextWebsite.tables.get? "page" = some nextPage ∧ website.tables.get? "page" = some page) ∧
    .convertTable "page" "utf8mb4" "utf8mb4_bin" ∈ nextWebsite.plan website "App" ∧
    "utf8mb4" = nextPage.characterSet ∧ ∃ before behind,
      nextWebsite.diff website "App" = .ok (.ofStatements "App"
        (before ++ .convertTable "page" "utf8mb4" "utf8mb4_bin" :: behind)) ∧
      (∀ a b, .convertTable "page" a b ∉ before ++ behind) ∧
      ∀ column c d, nextPage.columns.get? column = some c → page.columns.get? column = some d →
        Recoded "page" "utf8mb4" "utf8mb4_bin" column c d before behind :=
  ⟨by decide +kernel, by decide +kernel, by decide +kernel,
    diff_conversions (by decide +kernel) (by decide +kernel) "App" (by decide +kernel)
      (by decide +kernel) (by decide +kernel)⟩

/-- The conversion takes the character set of the address, and nothing gives it back; that
of the title is set behind it. -/
theorem website_loses_characterSet :
    nextWebsite.diff website "App" = .ok {
      database := "App"
      alterations := 2
      changes := [
        .ofKind .changeCharacterSet
          "ALTER TABLE `page` CONVERT TO CHARACTER SET utf8mb4 COLLATE utf8mb4_bin;",
        .ofKind .changeColumn
          ("ALTER TABLE `page` CHANGE `title` `title` text CHARACTER SET utf16 "
            ++ "COLLATE utf16_bin NOT NULL;")] } ∧
    (⟨"latin1", "ascii"⟩ : CharacterSets).after "page" "slug" (nextWebsite.plan website "App")
      = ⟨"utf8mb4", "utf8mb4"⟩ ∧
    (⟨"latin1", "latin1"⟩ : CharacterSets).after "page" "title" (nextWebsite.plan website "App")
      = ⟨"utf8mb4", "utf16"⟩ := by
  decide +kernel

end SchemaPlan
