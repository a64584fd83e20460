import SchemaPlan.Proofs.Classification
set_option autoImplicit false

/-!
# Defaults read back

A literal is read from its opening quote to the first quote that is not doubled, and a
doubled quote stands for one.  This is the inverse of writing a literal, whatever follows
(`readLiteral?_eq_some_iff`).  So where a definition writes its default as a literal, the
default is read from it as it is stored, and the literal ends where it was written to end
(`definition_reads_default`).
-/

namespace SchemaPlan

/-! ## Literals -/

/-- Read what stands behind the opening quote of a literal: the value, and what follows
the quote that ends it. -/
def readQuoted? : List Char → Option (List Char × List Char)
  | [] => none
  | '\x27' :: '\x27' :: rest => (readQuoted? rest).map fun read => ('\x27' :: read.1, read.2)
  | '\x27' :: rest => some ([], rest)
  | c :: rest => (readQuoted? rest).map fun read => (c :: read.1, read.2)

/-- Read a literal between single quotes: its value, and what follows it. -/
def readLiteral? (text : String) : Option (String × String) :=
  match text.toList with
  | '\x27' :: inside => (readQuoted? inside).map fun read =>
      (String.ofList read.1, String.ofList read.2)
  | _ => none

theorem readQuoted?_cons {c : Char} (hc : c ≠ '\x27') (rest : List Char) :
    readQuoted? (c :: rest) = (readQuoted? rest).map fun read => (c :: read.1, read.2) := by
  rw [readQuoted?]
  · exact fun _ h => absurd h hc
  · exact hc

/-- A quote ends the literal unless another one follows. -/
theorem readQuoted?_quote {rest : List Char} (hrest : rest.head? ≠ some '\x27') :
    readQuoted? ('\x27' :: rest) = some ([], rest) := by
  rw [readQuoted?]
  rintro more rfl
  exact hrest rfl

/-- What was written for a value is read as the value, up to the quote that was written to
end it. -/
theorem readQuoted?_doubleQuotes {rest : List Char} (hrest : rest.head? ≠ some '\x27') :
    ∀ value : List Char, readQuoted? (doubleQuotes value ++ '\x27' :: rest) = some (value, rest)
  | [] => readQuoted?_quote hrest
  | c :: value => by
    have ih := readQuoted?_doubleQuotes hrest value
    rw [doubleQuotes]
    split
    · next hquote =>
      rw [hquote, List.cons_append, List.cons_append, readQuoted?, ih]
      rfl
    · next hquote =>
      rw [List.cons_append, readQuoted?_cons hquote, ih]
      rfl

/-- Nothing but what is written for a value is read as the value. -/
theorem eq_of_readQuoted? {inside value rest : List Char}
    (h : readQuoted? inside = some (value, rest)) :
    inside = doubleQuotes value ++ '\x27' :: rest ∧ rest.head? ≠ some '\x27' := by
  fun_induction readQuoted? inside generalizing value rest with
  | case1 => exact nomatch h
  | case2 inside ih =>
    obtain ⟨⟨value, rest⟩, hread, heq⟩ := Option.map_eq_some_iff.1 h
    obtain ⟨rfl, rfl⟩ := Prod.mk.inj heq
    obtain ⟨rfl, hrest⟩ := ih hread
    exact ⟨rfl, hrest⟩
  | case3 inside hnot =>
    obtain ⟨rfl, rfl⟩ := Prod.mk.inj (Option.some.inj h)
    refine ⟨rfl, fun hhead => ?_⟩
    obtain ⟨more, rfl⟩ := List.head?_eq_some_iff.1 hhead
    exact hnot more rfl
  | case4 c inside _ hquote ih =>
    obtain ⟨⟨value, rest⟩, hread, heq⟩ := Option.map_eq_some_iff.1 h
    obtain ⟨rfl, rfl⟩ := Prod.mk.inj heq
    obtain ⟨rfl, hrest⟩ := ih hread
    rw [doubleQuotes, if_neg hquote]
    exact ⟨rfl, hrest⟩

theorem toList_quoteLiteral (value : String) :
    (quoteLiteral value).toList = '\x27' :: (doubleQuotes value.toList ++ ['\x27']) := by
  rw [quoteLiteral, String.toList_ofList]
  rfl

theorem opens_quote_iff {text : String} :
    Opens "\x27" text ↔ text.toList.head? = some '\x27' := by
  constructor
  · rintro ⟨rest, rfl⟩
    rw [String.toList_append]
    rfl
  · intro hhead
    obtain ⟨rest, hrest⟩ := List.head?_eq_some_iff.1 hhead
    refine ⟨String.ofList rest, String.toList_inj.1 ?_⟩
    simp only [hrest, String.toList_append, String.toList_ofList]
    rfl

/-- A text is read as a value and a rest if it is the literal of the value with the rest
behind it; the rest begins with no quote, which would be taken for a doubled one. -/
theorem readLiteral?_eq_some_iff {text value rest : String} :
    readLiteral? text = some (value, rest) ↔
      text = quoteLiteral value ++ rest ∧ ¬ Opens "\x27" rest := by
  rw [opens_quote_iff]
  constructor
  · intro h
    unfold readLiteral? at h
    split at h
    · next inside htext =>
      obtain ⟨⟨v, r⟩, hread, heq⟩ := Option.map_eq_some_iff.1 h
      obtain ⟨rfl, rfl⟩ := Prod.mk.inj heq
      obtain ⟨rfl, hrest⟩ := eq_of_readQuoted? hread
      refine ⟨String.toList_inj.1 ?_, by rwa [String.toList_ofList]⟩
      rw [htext, String.toList_append, toList_quoteLiteral, String.toList_ofList,
        String.toList_ofList, List.cons_append, List.append_assoc]
      rfl
    · exact nomatch h
  · rintro ⟨rfl, hrest⟩
    have htext : (quoteLiteral value ++ rest).toList
        = '\x27' :: (doubleQuotes value.toList ++ '\x27' :: rest.toList) := by
      rw [String.toList_append, toList_quoteLiteral, List.cons_append, List.append_assoc]
      rfl
    simp only [readLiteral?, htext, readQuoted?_doubleQuotes hrest, Option.map_some,
      String.ofList_toList]

/-- What the literal of a text with quotes looks like, and how it is read before more. -/
example : readLiteral? "'it''s ''''so''''' comment" = some ("it's ''so''", " comment") := by
  decide +kernel

/-- A text that begins with no quote is not its own literal. -/
theorem quoteLiteral_ne {value : String} (h : ¬ Opens "\x27" value) :
    quoteLiteral value ≠ value := by
  intro heq
  refine h (opens_quote_iff.2 ?_)
  rw [← heq, toList_quoteLiteral]
  rfl

/-! ## Defaults -/

namespace Column

variable {c : Column}

/-- What stands in a definition before the default: the name, the type, the character set,
the collation, and whether nulls are taken. -/
def beforeDefault (c : Column) : String :=
  quoteIdentifier c.name ++ " " ++ c.typeText
    ++ clause " CHARACTER SET " c.charSet
    ++ clause " COLLATE " c.collation
    ++ (if c.isNullable then " NULL" else " NOT NULL")

theorem definition_of_defaultText {text : String} (h : c.defaultText? = some text) :
    c.definition = c.beforeDefault ++ " DEFAULT " ++ text ++ clause " " c.extra := by
  simp only [definition, h, beforeDefault, String.append_assoc]

/-- What follows a default begins with a blank, if there is anything. -/
theorem not_opens_quote_extra (c : Column) : ¬ Opens "\x27" (clause " " c.extra) := by
  rw [opens_quote_iff, clause]
  split
  · decide
  · rw [String.toList_append]
    exact fun h => absurd (Option.some.inj h) (by decide)

/-- A default is written as it is if it is the null of a column that takes nulls, or begins
with a quote. -/
theorem isBareDefault_iff :
    c.isBareDefault = true ↔
      (c.isNullable = true ∧ c.default = "NULL") ∨ Opens "\x27" c.default := by
  rw [opens_quote_iff, isBareDefault, Bool.or_eq_true, Bool.and_eq_true, beq_iff_eq, beq_iff_eq]

theorem defaultText_of_hasQuotedDefault {k : DataType} (htype : c.type? = some k)
    (hquoted : k.hasQuotedDefault = true) :
    c.defaultText? = some (if c.isBareDefault then c.default else quoteLiteral c.default) := by
  rw [defaultText?, htype, Option.map_some, Option.getD_some, if_pos hquoted]

end Column

/-- The definition of a column of a type with quoted defaults has a default, in its place
before the further attributes.  It is written as it is stored if it begins with a quote or
is the null of a column that takes nulls, and only then; else it is a literal that is read
as what is stored and ends at its last character, alone as well as with what follows it in
the definition. -/
theorem definition_reads_default {c : Column} {k : DataType} (htype : c.type? = some k)
    (hquoted : k = .char ∨ k = .varchar ∨ k = .enum) :
    ∃ text, c.definition = c.beforeDefault ++ " DEFAULT " ++ text ++ clause " " c.extra ∧
      (text = c.default ↔
        (c.isNullable = true ∧ c.default = "NULL") ∨ Opens "\x27" c.default) ∧
      (¬ Opens "\x27" c.default → ¬ (c.isNullable = true ∧ c.default = "NULL") →
        readLiteral? text = some (c.default, "") ∧
        readLiteral? (text ++ clause " " c.extra) = some (c.default, clause " " c.extra)) := by
  have hdefault : k.hasQuotedDefault = true := by
    rcases hquoted with rfl | rfl | rfl <;> rfl
  have htext := Column.defaultText_of_hasQuotedDefault htype hdefault
  refine ⟨_, Column.definition_of_defaultText htext, ?_⟩
  rw [← Column.isBareDefault_iff]
  split
  · next hbare =>
    refine ⟨iff_of_true rfl hbare, fun hquote hnull => ?_⟩
    exact absurd (Column.isBareDefault_iff.1 hbare) (not_or.2 ⟨hnull, hquote⟩)
  · next hbare =>
    have hquote : ¬ Opens "\x27" c.default :=
      fun h => hbare (Column.isBareDefault_iff.2 (.inr h))
    refine ⟨iff_of_false (quoteLiteral_ne hquote) hbare, fun _ _ => ⟨?_, ?_⟩⟩
    · exact readLiteral?_eq_some_iff.2 ⟨String.append_empty.symm, fun h =>
        absurd (opens_quote_iff.1 h) (by decide)⟩
    · exact readLiteral?_eq_some_iff.2 ⟨rfl, c.not_opens_quote_extra⟩

/-- A greeting with quotes inside, next to each other and at its end, and with a literal
behind it. -/
def greeting : Column where
  name := "greeting"
  dataType := "VARCHAR"
  maxLength := 20
  isNullable := true
  default := "it's ''so''"
  extra := "comment 'it''s'"

theorem definition_reads_default_greeting :
    (greeting.type? = some .varchar ∧
      (DataType.varchar = .char ∨ DataType.varchar = .varchar ∨ DataType.varchar = .enum)) ∧
    (¬ Opens "\x27" greeting.default ∧
      ¬ (greeting.isNullable = true ∧ greeting.default = "NULL")) ∧
    ∃ text, greeting.definition
        = greeting.beforeDefault ++ " DEFAULT " ++ text ++ clause " " greeting.extra ∧
      text ≠ greeting.default ∧
      readLiteral? text = some (greeting.default, "") ∧
      readLiteral? (text ++ clause " " greeting.extra)
        = some (greeting.default, clause " " greeting.extra) := by
  have htype : greeting.type? = some .varchar := by decide +kernel
  have hquoted : DataType.varchar = .char ∨ DataType.varchar = .varchar ∨
      DataType.varchar = .enum := by decide
  have hquote : ¬ Opens "\x27" greeting.default := fun h =>
    absurd (opens_quote_iff.1 h) (by decide)
  have hnull : ¬ (greeting.isNullable = true ∧ greeting.default = "NULL") := by decide
  obtain ⟨text, hdefinition, hbare, hread⟩ := definition_reads_default htype hquoted
  exact ⟨⟨htype, hquoted⟩, ⟨hquote, hnull⟩, text, hdefinition,
    fun heq => (hbare.1 heq).elim hnull hquote, hread hquote hnull⟩

end SchemaPlan
