import SchemaPlan.CommandLine.Run
import SchemaPlan.Proofs.Documents
set_option autoImplicit false

/-!
# Comparisons as they are printed

What is printed as a document is read back as the comparisons that it was printed
from, with any texts, and with flags that need not follow from the kinds
(`printed_document_reads`).  A counter has 64 bits.

The words for the kinds of change are made from their names.  They turn out to be the
tags that scripts and messages have for them.
-/

namespace SchemaPlan

open Json (Field RecordFormat)

/-! ## Kinds -/

/-- A kind of change goes by a word wherever it is named. -/
structure ChangeKind.GoesBy (kind : ChangeKind) (word : String) : Prop where
  document : kind.toJson = .string word
  /-- In a document no character of the word is escaped. -/
  literal : kind.toJson.pretty = "\"" ++ word ++ "\""
  script : ∀ sql isDestructive,
    Comparison.changeText ⟨kind, sql, isDestructive⟩ = "-- " ++ word ++ "\n" ++ sql ++ "\n"
  message : ∀ {failed : FailedChange}, failed.kind = kind →
    (Fault.failedChange failed).message
      = "DDL execution failed on " ++ failed.database ++ " at change #" ++ toString failed.index
        ++ " (" ++ word ++ "):\n\n" ++ failed.sql ++ "\n\n" ++ failed.refusal.text

namespace ChangeKind

theorem goesBy_tag (kind : ChangeKind) : kind.GoesBy kind.tag where
  document := congrArg Json.string kind.word_eq_tag
  literal := by
    rw [toJson, word_eq_tag]
    cases kind <;> decide +kernel
  script _ _ := rfl
  message := by
    rintro failed rfl
    rfl

theorem decode_toJson (kind : ChangeKind) : decode kind.toJson = .ok kind := by
  rw [decode, toJson, Json.readVariant, ofWord?_word]

end ChangeKind

/-! ## Changes -/

namespace Change

/-- The values of a change's fields. -/
def values (c : Change) : List Json := [c.kind.toJson, .string c.sql, .bool c.isDestructive]

theorem format_isRegular : format.IsRegular where
  names := by decide
  commute := by simp [format, Field.commutes_of]

theorem decode_values (c : Change) : format.decode (.array c.values) = .ok c := by
  simp only [RecordFormat.decode, values, format, RecordFormat.readItems, Field.of,
    Json.readText, Json.readBool, ChangeKind.decode_toJson, Except.map]

/-- A change is read back from what it is written as. -/
theorem decode_toJson (c : Change) : decode c.toJson = .ok c :=
  RecordFormat.decode_object format_isRegular rfl c.decode_values (.refl _)

theorem isPlain_toJson (c : Change) : c.toJson.IsPlain := by
  simp only [toJson, Json.IsPlain, Json.MembersArePlain, ChangeKind.toJson, and_self]

end Change

/-! ## Comparisons -/

namespace Comparison

/-- The counters of a comparison fit 64 bits. -/
structure CountersFit (c : Comparison) : Prop where
  additions : c.additions < 2 ^ 64
  alterations : c.alterations < 2 ^ 64
  deletions : c.deletions < 2 ^ 64

instance (c : Comparison) : Decidable c.CountersFit :=
  decidable_of_iff (c.additions < 2 ^ 64 ∧ c.alterations < 2 ^ 64 ∧ c.deletions < 2 ^ 64)
    ⟨fun ⟨h1, h2, h3⟩ => ⟨h1, h2, h3⟩, fun ⟨h1, h2, h3⟩ => ⟨h1, h2, h3⟩⟩

/-- The values of a comparison's fields. -/
def values (c : Comparison) : List Json := [
  .string c.database, .string c.databaseKey, .ofNat c.additions, .ofNat c.alterations,
  .ofNat c.deletions, .array (c.changes.map Change.toJson)]

theorem format_isRegular : format.IsRegular where
  names := by decide
  commute := by simp [format, Field.commutes_of]

theorem readList_changes (c : Comparison) :
    Json.readList Change.decode (.array (c.changes.map Change.toJson)) = .ok c.changes :=
  Json.readEach_map fun change _ => change.decode_toJson

theorem decode_values {c : Comparison} (h : c.CountersFit) :
    format.decode (.array c.values) = .ok c := by
  simp only [RecordFormat.decode, values, format, RecordFormat.readItems, Field.of,
    Json.readText, Json.readCount_ofNat h.additions, Json.readCount_ofNat h.alterations,
    Json.readCount_ofNat h.deletions, c.readList_changes, Except.map]

/-- A comparison is read back from what it is written as. -/
theorem decode_toJson {c : Comparison} (h : c.CountersFit) : decode c.toJson = .ok c :=
  RecordFormat.decode_object format_isRegular rfl (decode_values h) (.refl _)

theorem isPlain_toJson (c : Comparison) : c.toJson.IsPlain := by
  have hchanges : (Json.array (c.changes.map Change.toJson)).IsPlain := by
    rw [Json.IsPlain, Json.arePlain_iff, List.forall_mem_map]
    exact fun change _ => change.isPlain_toJson
  simp only [toJson, Json.IsPlain, Json.MembersArePlain, Json.isPlain_ofNat, true_and, and_true]
  exact hchanges

end Comparison

/-! ## What is printed -/

/-- Comparisons with counters of 64 bits are printed as a document that is read back as
those comparisons, and each kind of change goes by its tag there as well as in scripts
and in messages. -/
theorem printed_document_reads {comparisons : List Comparison}
    (hfit : ∀ c ∈ comparisons, c.CountersFit) :
    (∃ text,
      (∀ w, CommandLine.printComparisons .document comparisons w
        = (.ok (), { w with printed := w.printed ++ text })) ∧
      readDocument (Json.readList Comparison.decode) text = .ok comparisons) ∧
    ∀ kind : ChangeKind, kind.GoesBy kind.tag := by
  have hplain : (Json.array (comparisons.map Comparison.toJson)).IsPlain := by
    rw [Json.IsPlain, Json.arePlain_iff, List.forall_mem_map]
    exact fun c _ => c.isPlain_toJson
  have hread : Json.readList Comparison.decode (.array (comparisons.map Comparison.toJson))
      = .ok comparisons := Json.readEach_map fun c hc => Comparison.decode_toJson (hfit c hc)
  have hbreak : ∀ c ∈ "\n".toList, Json.isBlank c = true := List.forall_mem_singleton.2 rfl
  refine ⟨⟨_, fun w => rfl, ?_⟩, ChangeKind.goesBy_tag⟩
  rw [readDocument, Json.parse?_pretty_append hplain hbreak]
  simp only [hread]

/-- Two comparisons with the greatest counter, with characters that have to be escaped and
with flags that do not follow from the kinds. -/
def ferries : List Comparison := [
  { database := "127.0.0.1/Fähren", databaseKey := "Fähren \"Nord\"", additions := 2 ^ 64 - 1,
    changes := [
      ⟨.changeColumn,
        "ALTER TABLE \x60pier\t1\x60\r\n  CHANGE \x60a\x60 \x60b\\c\x60 text;", true⟩,
      ⟨.dropTable, "DROP TABLE \x60渡し船\x01\x60;", false⟩] },
  {}]

theorem printed_document_reads_ferries :
    (∀ c ∈ ferries, c.CountersFit) ∧
    (∃ text,
      (∀ w, CommandLine.printComparisons .document ferries w
        = (.ok (), { w with printed := w.printed ++ text })) ∧
      readDocument (Json.readList Comparison.decode) text = .ok ferries) ∧
    ∀ kind : ChangeKind, kind.GoesBy kind.tag :=
  ⟨by decide, printed_document_reads (by decide)⟩

end SchemaPlan
