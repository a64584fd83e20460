import Mathlib.Data.List.TakeWhile
import SchemaPlan.Proofs.Agreement
import SchemaPlan.Proofs.Classification
set_option autoImplicit false

/-!
# What the text of a definition tells

A column is redefined if its type, its character set, its collation or its greatest
length differs, while the text of a definition says the greatest length for two types
only.  The text can be read back as far as each of its parts is one word; then columns
of one text differ in their greatest length alone, and of those that show it not even in
that.  So the text of a definition that is redefined may be the same as before, exactly
if the greatest length differs and is not shown (`diff_same_definition`).
-/

namespace SchemaPlan

/-! ## Words -/

/-- Blanks stand between single quotes only, and each quote is closed.  The flag says
whether a quote is open. -/
def isWordFrom : Bool → List Char → Bool
  | quoted, [] => !quoted
  | quoted, c :: rest =>
    if c = '\x27' then isWordFrom (!quoted) rest
    else (quoted || c != ' ') && isWordFrom quoted rest

/-- A text without a blank, except between single quotes. -/
def IsWord (text : String) : Prop := isWordFrom false text.toList = true

instance (text : String) : Decidable (IsWord text) := by unfold IsWord; infer_instance

theorem isWordFrom_append {quoted : Bool} {a b : List Char} (ha : isWordFrom quoted a = true)
    (hb : isWordFrom false b = true) : isWordFrom quoted (a ++ b) = true := by
  induction a generalizing quoted with
  | nil =>
    obtain rfl : quoted = false := by simpa [isWordFrom] using ha
    exact hb
  | cons c a ih =>
    rw [List.cons_append]
    unfold isWordFrom at ha ⊢
    split at ha
    · next hquote => rw [if_pos hquote]; exact ih ha
    · next hquote =>
      rw [Bool.and_eq_true] at ha
      rw [if_neg hquote, Bool.and_eq_true]
      exact ⟨ha.1, ih ha.2⟩

/-- Without a blank and without a quote a text is a word. -/
theorem isWord_of_forall {text : String} (h : ∀ c ∈ text.toList, c ≠ ' ' ∧ c ≠ '\x27') :
    IsWord text := by
  unfold IsWord
  generalize text.toList = chars at h
  induction chars with
  | nil => rfl
  | cons c rest ih =>
    obtain ⟨⟨hblank, hquote⟩, hrest⟩ := List.forall_mem_cons.1 h
    rw [isWordFrom, if_neg hquote, ih hrest]
    simpa using hblank

theorem IsWord.append {a b : String} (ha : IsWord a) (hb : IsWord b) : IsWord (a ++ b) := by
  rw [IsWord, String.toList_append]
  exact isWordFrom_append ha hb

theorem isWord_toString (n : Nat) : IsWord (toString n) := by
  refine isWord_of_forall fun c hc => ?_
  rw [Nat.toString_eq_repr, Nat.toList_repr] at hc
  have hdigit := Nat.isDigit_of_mem_toDigits (by decide) (by decide) hc
  constructor <;> rintro rfl <;> exact absurd hdigit (by decide)

/-- Where a word ends is seen from the text that it opens. -/
theorem append_inj_of_isWordFrom {quoted : Bool} {a b r r' : List Char}
    (ha : isWordFrom quoted a = true) (hb : isWordFrom quoted b = true)
    (h : a ++ ' ' :: r = b ++ ' ' :: r') : a = b ∧ r = r' := by
  induction a generalizing quoted b with
  | nil =>
    obtain rfl : quoted = false := by simpa [isWordFrom] using ha
    cases b with
    | nil => exact ⟨rfl, (List.cons.inj h).2⟩
    | cons d b =>
      obtain rfl : ' ' = d := (List.cons.inj h).1
      simp [isWordFrom] at hb
  | cons c a ih =>
    cases b with
    | nil =>
      obtain rfl : quoted = false := by simpa [isWordFrom] using hb
      obtain rfl : c = ' ' := (List.cons.inj h).1
      simp [isWordFrom] at ha
    | cons d b =>
      obtain ⟨rfl, hrest⟩ := List.cons.inj h
      unfold isWordFrom at ha hb
      split at ha
      · next hquote =>
        rw [if_pos hquote] at hb
        obtain ⟨rfl, hr⟩ := ih ha hb hrest
        exact ⟨rfl, hr⟩
      · next hquote =>
        rw [if_neg hquote] at hb
        rw [Bool.and_eq_true] at ha hb
        obtain ⟨rfl, hr⟩ := ih ha.2 hb.2 hrest
        exact ⟨rfl, hr⟩

theorem IsWord.append_inj {a b r r' : String} (ha : IsWord a) (hb : IsWord b)
    (hr : Opens " " r) (hr' : Opens " " r') (h : a ++ r = b ++ r') : a = b ∧ r = r' := by
  obtain ⟨x, rfl⟩ := hr
  obtain ⟨y, rfl⟩ := hr'
  have hchars : a.toList ++ ' ' :: x.toList = b.toList ++ ' ' :: y.toList := by
    simpa using congrArg String.toList h
  obtain ⟨hword, hrest⟩ := append_inj_of_isWordFrom ha hb hchars
  rw [String.toList_inj.1 hword, String.toList_inj.1 hrest]
  exact ⟨rfl, rfl⟩

/-! ## Clauses -/

theorem opens_iff {opening text : String} :
    Opens opening text ↔ opening.toList <+: text.toList := by
  constructor
  · rintro ⟨rest, rfl⟩
    rw [String.toList_append]
    exact List.prefix_append _ _
  · rintro ⟨rest, h⟩
    refine ⟨String.ofList rest, String.toList_inj.1 ?_⟩
    rw [String.toList_append, String.toList_ofList, h]

instance (opening text : String) : Decidable (Opens opening text) :=
  decidable_of_iff _ opens_iff.symm

/-- Of two ways in which one text begins the one begins the other. -/
theorem Opens.or {first second text : String} (h : Opens first text) (h' : Opens second text) :
    Opens first second ∨ Opens second first := by
  rw [opens_iff] at h h' ⊢
  rw [opens_iff]
  exact List.prefix_or_prefix_of_prefix h h'

theorem Opens.trans {first second text : String} (h : Opens first second)
    (h' : Opens second text) : Opens first text := by
  rw [opens_iff] at h h' ⊢
  exact h.trans h'

/-- A text begins with one of some openings. -/
def OpensOneOf (openings : List String) (text : String) : Prop :=
  ∃ opening ∈ openings, Opens opening text

/-- A clause is there or not, and then the text begins as what follows does. -/
theorem opensOneOf_clause {openings : List String} {words value rest : String}
    (h : OpensOneOf openings rest) :
    OpensOneOf (words :: openings) (clause words value ++ rest) := by
  unfold clause
  split
  · obtain ⟨opening, hmem, hopens⟩ := h
    rw [String.empty_append]
    exact ⟨opening, List.mem_cons_of_mem _ hmem, hopens⟩
  · exact ⟨words, List.mem_cons_self, (opens_append _ _).append _⟩

/-- What follows begins with a blank if all its openings do. -/
theorem OpensOneOf.opens {openings : List String} {first text : String}
    (h : OpensOneOf openings text) (hall : ∀ opening ∈ openings, Opens first opening) :
    Opens first text := by
  obtain ⟨opening, hmem, hopens⟩ := h
  exact (hall opening hmem).trans hopens

/-- The value of a clause is seen from the text, if it is one word and what follows does
not begin as the clause does. -/
theorem clause_append_inj {openings : List String} {words v v' r r' : String} (hv : IsWord v)
    (hv' : IsWord v') (hr : OpensOneOf openings r) (hr' : OpensOneOf openings r')
    (hblank : ∀ opening ∈ openings, Opens " " opening)
    (hapart : ∀ opening ∈ openings, ¬ (Opens words opening ∨ Opens opening words))
    (h : clause words v ++ r = clause words v' ++ r') : v = v' ∧ r = r' := by
  have hnot : ∀ {text : String}, OpensOneOf openings text → ¬ Opens words text := by
    rintro text ⟨opening, hmem, hopens⟩ hwords
    exact hapart opening hmem (hwords.or hopens)
  unfold clause at h
  simp only [beq_iff_eq] at h
  split at h <;> split at h
  · next hempty hempty' =>
    rw [String.empty_append, String.empty_append] at h
    exact ⟨hempty.trans hempty'.symm, h⟩
  · rw [String.empty_append, String.append_assoc] at h
    exact absurd ⟨_, h⟩ (hnot hr)
  · rw [String.empty_append, String.append_assoc] at h
    exact absurd ⟨_, h.symm⟩ (hnot hr')
  · rw [String.append_assoc, String.append_assoc] at h
    exact hv.append_inj hv' (hr.opens hblank) (hr'.opens hblank)
      (String.append_right_inj _ |>.1 h)

/-! ## Parts of a definition -/

namespace Column

/-- What a definition says from the nulls on. -/
def afterCollation (c : Column) : String :=
  (if c.isNullable then " NULL" else " NOT NULL")
    ++ (match c.defaultText? with
      | some text => " DEFAULT " ++ text
      | none => "")
    ++ clause " " c.extra

/-- What a definition says from the collation on. -/
def afterCharSet (c : Column) : String := clause " COLLATE " c.collation ++ c.afterCollation

/-- What a definition says from the character set on. -/
def afterType (c : Column) : String := clause " CHARACTER SET " c.charSet ++ c.afterCharSet

theorem definition_eq (c : Column) :
    c.definition = quoteIdentifier c.name ++ " " ++ (c.typeText ++ c.afterType) := by
  unfold definition afterType afterCharSet afterCollation
  cases c.defaultText? <;> simp only [String.append_assoc]

theorem opensOneOf_afterCollation (c : Column) :
    OpensOneOf [" NULL", " NOT NULL"] c.afterCollation := by
  unfold afterCollation
  split
  · exact ⟨" NULL", List.mem_cons_self, (opens_append _ _).append _⟩
  · exact ⟨" NOT NULL", List.mem_cons_of_mem _ List.mem_cons_self, (opens_append _ _).append _⟩

/-- What stands in parentheses behind the tag of a type, for a type without a list of
values. -/
def typeSize (c : Column) (k : DataType) : String :=
  if k.isInteger then "(" ++ toString ((k.displayWidth? c.isUnsigned).getD 0) ++ ")"
  else if k.isFixedPoint || k.isFloatingPoint then
    "(" ++ toString c.precision.toNat ++ "," ++ toString c.numericScale.toNat ++ ")"
  else if k.hasLength then "(" ++ toString c.maxLength.toNat ++ ")"
  else ""

/-- The first word of a type: its tag with what stands in parentheses. -/
def typeWord (c : Column) (k : DataType) : String :=
  if k.hasValueList then c.columnType else c.dataType ++ c.typeSize k

/-- The sign behind the type of a number. -/
def typeSign (c : Column) (k : DataType) : String :=
  if k.isInteger || k.isFixedPoint || k.isFloatingPoint then " " ++ c.signWord else ""

theorem typeText_eq {c : Column} {k : DataType} (h : c.type? = some k) :
    c.typeText = c.typeWord k ++ c.typeSign k := by
  have hclose : ") " ++ c.signWord = ")" ++ (" " ++ c.signWord) := by
    rw [← String.append_assoc]
    rfl
  rw [typeText, h]
  cases k <;> simp [typeWord, typeSign, typeSize, DataType.isInteger, DataType.isFixedPoint,
    DataType.isFloatingPoint, DataType.hasValueList, DataType.hasLength, String.append_assoc,
    hclose]

end Column

/-! ## Types -/

theorem toString_nat_inj {m n : Nat} (h : toString m = toString n) : m = n := by
  have hdigits := congrArg String.toList h
  rw [Nat.toString_eq_repr, Nat.toString_eq_repr, Nat.toList_repr, Nat.toList_repr] at hdigits
  rw [← Nat.ofDigitChars_ten_toDigits (n := m), hdigits, Nat.ofDigitChars_ten_toDigits]

theorem Text.mem_lowercase {text : String} {c : Char} (h : c ∈ text.toList)
    (hsame : lowerChar c = [c]) : c ∈ (lowercase text).toList := by
  rw [lowercase, String.toList_ofList, List.mem_flatMap]
  exact ⟨c, h, hsame ▸ List.mem_singleton_self c⟩

/-- What names a type has neither a blank nor a quote nor a parenthesis. -/
theorem DataType.not_mem_of_ofTag? {spelling : String} {k : DataType}
    (h : ofTag? spelling = some k) :
    ' ' ∉ spelling.toList ∧ '\x27' ∉ spelling.toList ∧ '(' ∉ spelling.toList := by
  have htag : ' ' ∉ k.tag.toList ∧ '\x27' ∉ k.tag.toList ∧ '(' ∉ k.tag.toList := by
    cases k <;> decide
  have hnot : ∀ c, Text.lowerChar c = [c] → c ∉ k.tag.toList → c ∉ spelling.toList := by
    intro c hsame hc hmem
    rw [← ofTag?_eq_some_iff.1 h] at hc
    exact hc (Text.mem_lowercase hmem hsame)
  exact ⟨hnot ' ' (by decide) htag.1, hnot '\x27' (by decide) htag.2.1,
    hnot '(' (by decide) htag.2.2⟩

/-- What stands before the first parenthesis. -/
def beforeParenthesis (text : String) : String :=
  String.ofList (text.toList.takeWhile fun c => c != '(')

theorem beforeParenthesis_append {tag rest : String} (htag : '(' ∉ tag.toList)
    (hrest : rest = "" ∨ Opens "(" rest) : beforeParenthesis (tag ++ rest) = tag := by
  have htaken : ∀ c ∈ tag.toList, (c != '(') = true := fun c hc =>
    bne_iff_ne.2 fun heq => htag (heq ▸ hc)
  have hleft : rest.toList.takeWhile (fun c => c != '(') = [] := by
    rcases hrest with rfl | ⟨more, rfl⟩
    · rfl
    · rw [String.toList_append]
      rfl
  rw [beforeParenthesis, String.toList_append, List.takeWhile_append_of_pos htaken, hleft,
    List.append_nil, String.ofList_toList]

namespace Column

/-- The definition of a column can be read back: its character set and its collation are
words, and so is the text of a type with a list of values, which begins with the tag of
the type. -/
structure Legible (c : Column) : Prop where
  charSet : IsWord c.charSet
  collation : IsWord c.collation
  valueList : ∀ k ∈ c.type?, k.hasValueList = true →
    IsWord c.columnType ∧ DataType.ofTag? (beforeParenthesis c.columnType) = some k

instance (c : Column) : Decidable c.Legible :=
  decidable_of_iff (IsWord c.charSet ∧ IsWord c.collation ∧
      ∀ k ∈ c.type?, k.hasValueList = true →
        IsWord c.columnType ∧ DataType.ofTag? (beforeParenthesis c.columnType) = some k)
    ⟨fun h => ⟨h.1, h.2.1, h.2.2⟩, fun h => ⟨h.charSet, h.collation, h.valueList⟩⟩

variable {c d : Column} {k : DataType}

theorem isWord_typeSize (c : Column) (k : DataType) : IsWord (c.typeSize k) := by
  have hopen : IsWord "(" := by decide
  have hclose : IsWord ")" := by decide
  have hcomma : IsWord "," := by decide
  unfold typeSize
  split
  · exact (hopen.append (isWord_toString _)).append hclose
  · split
    · exact (((hopen.append (isWord_toString _)).append hcomma).append
        (isWord_toString _)).append hclose
    · split
      · exact (hopen.append (isWord_toString _)).append hclose
      · decide

theorem typeSize_eq_empty_or_opens (c : Column) (k : DataType) :
    c.typeSize k = "" ∨ Opens "(" (c.typeSize k) := by
  unfold typeSize
  split
  · exact .inr ((opens_append _ _).append _)
  · split
    · exact .inr ((((opens_append _ _).append _).append _).append _)
    · split
      · exact .inr ((opens_append _ _).append _)
      · exact .inl rfl

/-- The tag of a type without a list of values stands before what is in parentheses. -/
theorem beforeParenthesis_typeWord (h : c.type? = some k) (hlist : ¬ k.hasValueList = true) :
    beforeParenthesis (c.typeWord k) = c.dataType := by
  rw [typeWord, if_neg hlist]
  exact beforeParenthesis_append (DataType.not_mem_of_ofTag? h).2.2
    (c.typeSize_eq_empty_or_opens k)

/-- The first word of a type is a word, and names the type. -/
theorem Legible.typeWord (hlegible : c.Legible) (h : c.type? = some k) :
    IsWord (c.typeWord k) ∧ DataType.ofTag? (beforeParenthesis (c.typeWord k)) = some k := by
  by_cases hlist : k.hasValueList = true
  · rw [Column.typeWord, if_pos hlist]
    exact hlegible.valueList k h hlist
  · refine ⟨?_, (beforeParenthesis_typeWord h hlist).symm ▸ h⟩
    obtain ⟨hblank, hquote, -⟩ := DataType.not_mem_of_ofTag? h
    have htag : IsWord c.dataType := isWord_of_forall fun ch hch =>
      ⟨fun heq => hblank (heq ▸ hch), fun heq => hquote (heq ▸ hch)⟩
    rw [Column.typeWord, if_neg hlist]
    exact htag.append (c.isWord_typeSize k)

theorem opensOneOf_afterCharSet (c : Column) :
    OpensOneOf [" COLLATE ", " NULL", " NOT NULL"] c.afterCharSet :=
  opensOneOf_clause c.opensOneOf_afterCollation

theorem opens_afterType (c : Column) : Opens " " c.afterType :=
  (opensOneOf_clause c.opensOneOf_afterCharSet).opens (by decide)

theorem opens_typeSign_append (c : Column) (k : DataType) :
    Opens " " (c.typeSign k ++ c.afterType) := by
  unfold typeSign
  split
  · exact (opens_append _ _).append _
  · rw [String.empty_append]
    exact c.opens_afterType

/-- The sign of a number is seen from the text. -/
theorem typeSign_append_inj (h : c.typeSign k ++ c.afterType = d.typeSign k ++ d.afterType) :
    c.afterType = d.afterType := by
  have hword : ∀ e : Column, IsWord e.signWord := by
    intro e
    unfold signWord
    split <;> decide
  unfold typeSign at h
  split at h
  · rw [String.append_assoc, String.append_assoc] at h
    exact ((hword c).append_inj (hword d) c.opens_afterType d.opens_afterType
      (String.append_right_inj _ |>.1 h)).2
  · rwa [String.empty_append, String.empty_append] at h

/-- The character set and the collation are seen from the text. -/
theorem Legible.afterType_inj (hc : c.Legible) (hd : d.Legible)
    (h : c.afterType = d.afterType) :
    c.charSet = d.charSet ∧ c.collation = d.collation := by
  obtain ⟨hset, hrest⟩ := clause_append_inj hc.charSet hd.charSet c.opensOneOf_afterCharSet
    d.opensOneOf_afterCharSet (by decide) (by decide) h
  obtain ⟨hcollation, -⟩ := clause_append_inj hc.collation hd.collation
    c.opensOneOf_afterCollation d.opensOneOf_afterCollation (by decide) (by decide) hrest
  exact ⟨hset, hcollation⟩

/-- The greatest length is seen from the first word of a type that shows it. -/
theorem maxLength_eq_of_typeWord_eq (hc : c.type? = some k) (hd : d.type? = some k)
    (hlength : k.hasLength = true) (h : c.typeWord k = d.typeWord k) :
    c.maxLength = d.maxLength := by
  have hlist : ¬ k.hasValueList = true := by revert hlength; cases k <;> decide
  have hsize : ∀ e : Column, e.typeSize k = "(" ++ toString e.maxLength.toNat ++ ")" := by
    intro e
    revert hlength
    cases k <;> simp [typeSize, DataType.hasLength, DataType.isInteger, DataType.isFixedPoint,
      DataType.isFloatingPoint]
  have htag : c.dataType = d.dataType := by
    rw [← beforeParenthesis_typeWord hc hlist, h, beforeParenthesis_typeWord hd hlist]
  rw [typeWord, typeWord, if_neg hlist, if_neg hlist, htag, hsize, hsize] at h
  -- without the tag and the parentheses the digits are left
  have hdigits := (String.append_right_inj _).1
    ((String.append_left_inj _).1 ((String.append_right_inj _).1 h))
  exact UInt64.toNat_inj.1 (toString_nat_inj hdigits)

/-- Two columns whose definitions can be read back and are the same text are of one type,
one character set and one collation, and of one greatest length if the text shows it. -/
theorem Legible.of_definition_eq (hc : c.Legible) (hd : d.Legible) {l : DataType}
    (hck : c.type? = some k) (hdl : d.type? = some l) (hname : c.name = d.name)
    (h : c.definition = d.definition) :
    k = l ∧ c.charSet = d.charSet ∧ c.collation = d.collation ∧
      (k.hasLength = true → c.maxLength = d.maxLength) := by
  rw [definition_eq, definition_eq, hname] at h
  have htext := (String.append_right_inj _).1 h
  rw [typeText_eq hck, typeText_eq hdl, String.append_assoc, String.append_assoc] at htext
  obtain ⟨hcword, hctag⟩ := hc.typeWord hck
  obtain ⟨hdword, hdtag⟩ := hd.typeWord hdl
  obtain ⟨hword, hrest⟩ := hcword.append_inj hdword (c.opens_typeSign_append k)
    (d.opens_typeSign_append l) htext
  obtain rfl : k = l := Option.some.inj (by rw [← hctag, hword, hdtag])
  obtain ⟨hset, hcollation⟩ := hc.afterType_inj hd (typeSign_append_inj hrest)
  exact ⟨rfl, hset, hcollation, fun hlength =>
    maxLength_eq_of_typeWord_eq hck hdl hlength hword⟩

end Column

/-- Between two valid schemas there is a comparison.  A column on both sides of a table on
both sides, whose two definitions can be read back and are the same text, has one type, one
character set and one collation.  It is redefined exactly if its greatest length differs,
which it does not if the text shows it. -/
theorem diff_same_definition {target current : Schema} (htarget : target.validate = .ok ())
    (hcurrent : current.validate = .ok ()) (database : String) {key column : String}
    {t u : Table} {c d : Column} (ht : target.tables.get? key = some t)
    (hu : current.tables.get? key = some u) (hc : t.columns.get? column = some c)
    (hd : u.columns.get? column = some d) (hlegible : c.Legible) (hlegible' : d.Legible)
    (hsame : c.definition = d.definition) :
    target.diff current database = .ok (.ofStatements database (target.plan current database)) ∧
    (c.type? = d.type? ∧ c.charSet = d.charSet ∧ c.collation = d.collation) ∧
    (∀ e, .changeColumn key column e ∈ target.plan current database ↔
      c.maxLength ≠ d.maxLength ∧ e = c) ∧
    (c.type? = some .char ∨ c.type? = some .varchar → c.maxLength = d.maxLength) := by
  have htarget' := (Schema.validate_eq_ok_iff target).1 htarget
  have hcurrent' := (Schema.validate_eq_ok_iff current).1 hcurrent
  have hname : c.name = d.name :=
    ((htarget'.table ht).column_name hc).trans ((hcurrent'.table hu).column_name hd).symm
  obtain ⟨k, hck⟩ := (htarget'.table ht).column_type hc
  obtain ⟨l, hdl⟩ := (hcurrent'.table hu).column_type hd
  obtain ⟨rfl, hset, hcollation, hlength⟩ :=
    hlegible.of_definition_eq hlegible' hck hdl hname hsame
  have htype : c.type? = d.type? := hck.trans hdl.symm
  refine ⟨Schema.diff_of_wellFormed htarget' hcurrent' database, ⟨htype, hset, hcollation⟩,
    fun e => ?_, fun hshown => hlength ?_⟩
  · have hdiffers : c.differs d = true ↔ c.maxLength ≠ d.maxLength := by
      rw [← Bool.not_eq_false, Column.differs_eq_false_iff, and_iff_right htype,
        and_iff_right hset, and_iff_right hcollation]
    rw [Schema.redefinition_mem_plan_iff htarget' hcurrent' ht hu hc hd, hdiffers]
  · rcases hshown with h | h <;> rw [Option.some.inj (hck.symm.trans h)] <;> rfl

/-- The state of a painting, with the greatest length of its values, which no definition
shows. -/
def paintingState (length : UInt64) : Column where
  name := "state"
  dataType := "enum"
  columnType := "enum('in stock','sold')"
  maxLength := length
  charSet := "latin1"
  collation := "latin1_bin"

/-- A painting as a catalog has it. -/
def painting : Table where
  name := "painting"
  columns := .ofList [
    ("frame", { name := "frame", dataType := "enum", columnType := "enum('oak')",
                charSet := "latin1" }),
    ("motif", { name := "motif", dataType := "set", columnType := "set('sea')",
                isNullable := true, default := "NULL" }),
    ("state", paintingState 8),
    ("story", { name := "story", dataType := "text", collation := "latin1_bin",
                extra := "NOT NULL" }),
    ("title", { name := "title", dataType := "text", charSet := "latin1",
                collation := "latin1_bin" })]

/-- The painting with the same definitions, made up of other parts. -/
def nextPainting : Table where
  name := "painting"
  columns := .ofList [
    ("frame", { name := "frame", dataType := "enum",
                columnType := "enum('oak') CHARACTER SET latin1" }),
    ("motif", { name := "motif", dataType := "enum", columnType := "set('sea')",
                isNullable := true, default := "NULL" }),
    ("state", paintingState 0),
    ("story", { name := "story", dataType := "text", collation := "latin1_bin NOT NULL" }),
    ("title", { name := "title", dataType := "text",
                charSet := "latin1 COLLATE latin1_bin" })]

/-- A gallery of paintings. -/
def gallery : Schema where
  tables := .ofList [("painting", painting)]

/-- The gallery of the next paintings. -/
def nextGallery : Schema where
  tables := .ofList [("painting", nextPainting)]

theorem diff_same_definition_gallery :
    (nextGallery.validate = .ok () ∧ gallery.validate = .ok ()) ∧
    (nextGallery.tables.get? "painting" = some nextPainting ∧
      gallery.tables.get? "painting" = some painting) ∧
    (nextPainting.columns.get? "state" = some (paintingState 0) ∧
      painting.columns.get? "state" = some (paintingState 8)) ∧
    ((paintingState 0).Legible ∧ (paintingState 8).Legible ∧
      (paintingState 0).definition = (paintingState 8).definition) ∧
    nextGallery.diff gallery "App"
      = .ok (.ofStatements "App" (nextGallery.plan gallery "App")) ∧
    ((paintingState 0).type? = (paintingState 8).type? ∧
      (paintingState 0).charSet = (paintingState 8).charSet ∧
      (paintingState 0).collation = (paintingState 8).collation) ∧
    (∀ e, .changeColumn "painting" "state" e ∈ nextGallery.plan gallery "App" ↔
      (paintingState 0).maxLength ≠ (paintingState 8).maxLength ∧ e = paintingState 0) ∧
    ((paintingState 0).type? = some .char ∨ (paintingState 0).type? = some .varchar →
      (paintingState 0).maxLength = (paintingState 8).maxLength) := by
  have hvalid : nextGallery.validate = .ok () ∧ gallery.validate = .ok () := by decide +kernel
  have htables : nextGallery.tables.get? "painting" = some nextPainting ∧
      gallery.tables.get? "painting" = some painting := by decide +kernel
  have hcolumns : nextPainting.columns.get? "state" = some (paintingState 0) ∧
      painting.columns.get? "state" = some (paintingState 8) := by decide +kernel
  have hsame : (paintingState 0).Legible ∧ (paintingState 8).Legible ∧
      (paintingState 0).definition = (paintingState 8).definition := by decide +kernel
  exact ⟨hvalid, htables, hcolumns, hsame, diff_same_definition hvalid.1 hvalid.2 "App"
    htables.1 htables.2 hcolumns.1 hcolumns.2 hsame.1 hsame.2.1 hsame.2.2⟩

/-- The columns of the gallery are all redefined, each by the definition that it has: one
for a length that is not shown, the others since their parts are taken for each other. -/
theorem gallery_redefines_same_definitions :
    (nextGallery.validate = .ok () ∧ gallery.validate = .ok ()) ∧
    nextPainting.columns.values.map Column.definition
      = painting.columns.values.map Column.definition ∧
    nextGallery.plan gallery "App"
      = nextPainting.columns.entries.map fun e => .changeColumn "painting" e.1 e.2 := by
  decide +kernel

end SchemaPlan
