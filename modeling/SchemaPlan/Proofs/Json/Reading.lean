import Mathlib.Data.List.DropRight
import SchemaPlan.Json.Parser
import SchemaPlan.Json.Printer
set_option autoImplicit false

/-!
# Reading what was written

A document is plain if it denotes something in every part and its numbers are
whole and not negative.  Whatever a plain document holds, and at whatever level
it is written, the reader takes back exactly its text and leaves what follows
(`readValue_pretty`).  So the text of a plain document is that document, and blanks
behind it change nothing (`parse?_pretty_append`).

The reader goes by fuel.  It never needs more than the text has characters.
-/

namespace SchemaPlan.Json

/-! ## Plain documents -/

mutual

/-- A document that denotes something in every part and has only natural numbers. -/
def IsPlain : Json → Prop
  | .unreadable => False
  | .number n => n = ⟨false, n.whole, [], none⟩
  | .array items => ArePlain items
  | .object members => MembersArePlain members
  | _ => True
termination_by structural j => j

/-- Documents that are all plain. -/
def ArePlain : List Json → Prop
  | [] => True
  | j :: rest => IsPlain j ∧ ArePlain rest
termination_by structural j => j

/-- Members whose documents are all plain. -/
def MembersArePlain : List (String × Json) → Prop
  | [] => True
  | (_, j) :: rest => IsPlain j ∧ MembersArePlain rest
termination_by structural j => j

end

theorem arePlain_iff {items : List Json} : ArePlain items ↔ ∀ j ∈ items, j.IsPlain := by
  induction items with
  | nil => simp [ArePlain]
  | cons j rest ih => rw [ArePlain, ih, List.forall_mem_cons]

theorem membersArePlain_iff {members : List (String × Json)} :
    MembersArePlain members ↔ ∀ m ∈ members, m.2.IsPlain := by
  induction members with
  | nil => simp [MembersArePlain]
  | cons m rest ih => rw [MembersArePlain, ih, List.forall_mem_cons]

theorem isPlain_ofNat (n : Nat) : (ofNat n).IsPlain := by
  rw [ofNat, IsPlain]

/-! ## Strings -/

theorem hexValue?_hexDigit : ∀ d < 16, hexValue? (hexDigit d) = some d := by decide

/-- A control character is spelled by two nibbles. -/
theorem hexUnit?_of_lt {code : Nat} (h : code < 32) :
    hexUnit? '0' '0' (hexDigit (code / 16)) (hexDigit (code % 16)) = some code := by
  have hzero : hexValue? '0' = some 0 := rfl
  rw [hexUnit?, hzero, hexValue?_hexDigit _ (by omega), hexValue?_hexDigit _ (by omega)]
  exact congrArg some (by omega)

theorem joinPieces_unit {code : Nat} (h : code < 0xD800) (rest : List Piece) :
    joinPieces (.unit code :: rest) = (joinPieces rest).map (Char.ofNat code :: ·) := by
  have hhigh : isHighUnit code = false := by simp [isHighUnit]; omega
  have hlow : isLowUnit code = false := by simp [isLowUnit]; omega
  cases rest with
  | nil => simp [joinPieces, hhigh, hlow]
  | cons piece rest => cases piece <;> simp [joinPieces, hhigh, hlow]

/-- A piece that spells one character, whatever follows it. -/
def Spells (piece : Piece) (c : Char) : Prop :=
  ∀ pieces, joinPieces (piece :: pieces) = (joinPieces pieces).map (c :: ·)

theorem spells_char (c : Char) : Spells (.char c) c := fun _ => by rw [joinPieces]

theorem spells_unit {c : Char} (h : c.toNat < 32) : Spells (.unit c.toNat) c := by
  intro pieces
  rw [joinPieces_unit (by omega), Char.ofNat_toNat]

/-- A character behind a backslash and a letter is read as that character. -/
theorem readPieces_letter {letter c : Char} (h : escaped? letter = some c) (rest : List Char) :
    readPieces ('\\' :: letter :: rest)
      = (readPieces rest).map fun found => (.char c :: found.1, found.2) := by
  have hletter : letter ≠ 'u' := by
    rintro rfl
    exact nomatch h
  rw [readPieces, h]
  · cases readPieces rest <;> rfl
  · intro _ _ _ _ _ heq
    exact absurd heq hletter

/-- A control character is read as the unit that its nibbles make. -/
theorem readPieces_unit {code : Nat} (h : code < 32) (rest : List Char) :
    readPieces ('\\' :: 'u' :: '0' :: '0' :: hexDigit (code / 16) ::
      hexDigit (code % 16) :: rest)
      = (readPieces rest).map fun found => (.unit code :: found.1, found.2) := by
  rw [readPieces, hexUnit?_of_lt h]
  cases readPieces rest <;> rfl

/-- Any other character is read as it stands. -/
theorem readPieces_plain {c : Char} (hquote : c ≠ '"') (hslash : c ≠ '\\') (h : ¬ c.toNat < 32)
    (rest : List Char) :
    readPieces (c :: rest)
      = (readPieces rest).map fun found => (.char c :: found.1, found.2) := by
  rw [readPieces]
  · simp only [h, hslash]
    cases readPieces rest <;> rfl
  · exact hquote
  · intro _ _ _ _ _ heq
    exact absurd heq hslash
  · intro _ _ heq
    exact absurd heq hslash

/-- One escaped character is read as one piece that spells it. -/
theorem readPieces_escapeChar (c : Char) (rest : List Char) :
    ∃ piece, Spells piece c ∧ readPieces (escapeChar c ++ rest)
      = (readPieces rest).map fun found => (piece :: found.1, found.2) := by
  have hletter : ∀ letter, escaped? letter = some c →
      ∃ piece, Spells piece c ∧ readPieces ('\\' :: letter :: rest)
        = (readPieces rest).map fun found => (piece :: found.1, found.2) :=
    fun letter h => ⟨.char c, spells_char c, readPieces_letter h rest⟩
  unfold escapeChar
  split
  · next h => exact hletter '"' (by rw [h]; rfl)
  split
  · next h => exact hletter '\\' (by rw [h]; rfl)
  split
  · next h => exact hletter 'b' (by rw [h]; rfl)
  split
  · next h => exact hletter 'f' (by rw [h]; rfl)
  split
  · next h => exact hletter 'n' (by rw [h]; rfl)
  split
  · next h => exact hletter 'r' (by rw [h]; rfl)
  split
  · next h => exact hletter 't' (by rw [h]; rfl)
  split
  · next h => exact ⟨.unit c.toNat, spells_unit h, readPieces_unit h rest⟩
  · next hquote hslash _ _ _ _ _ hcontrol =>
    exact ⟨.char c, spells_char c, readPieces_plain hquote hslash hcontrol rest⟩

/-- The characters of a literal are read back. -/
theorem readPieces_flatMap (text rest : List Char) :
    ∃ pieces, readPieces (text.flatMap escapeChar ++ '"' :: rest) = some (pieces, rest) ∧
      joinPieces pieces = some text := by
  induction text with
  | nil => exact ⟨[], by simp [readPieces], rfl⟩
  | cons c text ih =>
    obtain ⟨pieces, hread, hjoin⟩ := ih
    obtain ⟨piece, hspells, hpiece⟩ :=
      readPieces_escapeChar c (text.flatMap escapeChar ++ '"' :: rest)
    refine ⟨piece :: pieces, ?_, ?_⟩
    · rw [List.flatMap_cons, List.append_assoc, hpiece, hread, Option.map_some]
    · rw [hspells, hjoin, Option.map_some]

/-- A string literal is read as the text that was written. -/
theorem readString_stringLiteral (text : String) (rest : List Char) :
    ∃ input, stringLiteral text ++ rest = '"' :: input ∧
      readString input = some (some text, rest) := by
  refine ⟨text.toList.flatMap escapeChar ++ '"' :: rest, ?_, ?_⟩
  · simp [stringLiteral]
  · obtain ⟨pieces, hread, hjoin⟩ := readPieces_flatMap text.toList rest
    rw [readString, hread, Option.map_some, hjoin, Option.map_some, String.ofList_toList]

/-! ## Numbers -/

/-- What follows a number does not continue it. -/
def EndsNumber (rest : List Char) : Prop :=
  ∀ c ∈ rest.head?, isDigit c = false ∧ c ≠ '.' ∧ c ≠ 'e' ∧ c ≠ 'E'

theorem ne_of_isDigit {c d : Char} (hc : isDigit c = true) (hd : isDigit d = false) :
    c ≠ d := by
  rintro rfl
  exact absurd (hc.symm.trans hd) (by decide)

theorem isDigit_of_mem_toDigits {n : Nat} {c : Char} (h : c ∈ Nat.toDigits 10 n) :
    isDigit c = true :=
  Nat.isDigit_of_mem_toDigits (by decide) (by decide) h

theorem digitsValue_toDigits (n : Nat) : digitsValue (Nat.toDigits 10 n) = n := by
  have h := Nat.ofDigitChars_ten_toDigits (n := n)
  rw [Nat.ofDigitChars_eq_foldl] at h
  simp only [digitsValue, digitValue]
  simp only [Nat.mul_comm 10] at h
  exact h

/-- A number other than nought does not start with a nought. -/
theorem toDigits_eq_cons {n : Nat} (h : 0 < n) :
    ∃ c rest, Nat.toDigits 10 n = c :: rest ∧ c ≠ '0' := by
  induction n using Nat.strongRecOn with
  | ind n ih =>
    rw [Nat.toDigits_eq_if (by decide)]
    split
    · next hlt => exact ⟨_, [], rfl, fun hzero => by rw [Nat.digitChar_eq_zero] at hzero; omega⟩
    · next hge =>
      obtain ⟨c, rest, hdigits, hc⟩ := ih (n / 10) (by omega) (by omega)
      exact ⟨c, rest ++ [Nat.digitChar (n % 10)], by rw [hdigits, List.cons_append], hc⟩

theorem span_of_endsNumber {rest : List Char} (h : EndsNumber rest) :
    rest.takeWhile isDigit = [] ∧ rest.dropWhile isDigit = rest := by
  cases rest with
  | nil => exact ⟨rfl, rfl⟩
  | cons c rest =>
    have hc := (h c rfl).1
    simp [hc]

/-- The digits of a number are read as the number. -/
theorem readWhole_toDigits (n : Nat) {rest : List Char} (h : EndsNumber rest) :
    readWhole (Nat.toDigits 10 n ++ rest) = some (n, rest) := by
  rcases Nat.eq_zero_or_pos n with rfl | hpos
  · rfl
  · obtain ⟨c, digits, hdigits, hc⟩ := toDigits_eq_cons hpos
    have hall : ∀ d ∈ c :: digits, isDigit d = true :=
      fun d hd => isDigit_of_mem_toDigits (hdigits ▸ hd)
    have htail : ∀ d ∈ digits, isDigit d = true :=
      fun d hd => hall d (List.mem_cons_of_mem _ hd)
    obtain ⟨htake, hdrop⟩ := span_of_endsNumber h
    rw [hdigits, List.cons_append, readWhole, if_neg hc, if_pos (hall c List.mem_cons_self),
      List.takeWhile_append_of_pos htail, List.dropWhile_append_of_pos htail, htake, hdrop,
      List.append_nil, ← hdigits, digitsValue_toDigits]

theorem readFraction_of_endsNumber {rest : List Char} (h : EndsNumber rest) :
    readFraction rest = some ([], rest) := by
  rw [readFraction]
  rintro tail rfl
  exact (h '.' rfl).2.1 rfl

theorem readExponent_of_endsNumber {rest : List Char} (h : EndsNumber rest) :
    readExponent rest = some (none, rest) := by
  cases rest with
  | nil => rfl
  | cons c rest =>
    obtain ⟨-, -, hlower, hupper⟩ := h c rfl
    simp [readExponent, hlower, hupper]

/-- A natural number is written as its digits, of which there is one at least. -/
theorem literal_natural (n : Nat) :
    Number.literal ⟨false, n, [], none⟩ = Nat.toDigits 10 n := by
  simp [Number.literal]

theorem literal_eq_cons (n : Nat) :
    ∃ c rest, Number.literal ⟨false, n, [], none⟩ = c :: rest ∧ isDigit c = true := by
  rw [literal_natural]
  cases hdigits : Nat.toDigits 10 n with
  | nil => exact absurd hdigits Nat.toDigits_ne_nil
  | cons c rest => exact ⟨c, rest, rfl, isDigit_of_mem_toDigits (hdigits ▸ List.mem_cons_self)⟩

/-- A natural number is read as it is written. -/
theorem readNumber_literal (n : Nat) {rest : List Char} (h : EndsNumber rest) :
    readNumber (Number.literal ⟨false, n, [], none⟩ ++ rest)
      = some (⟨false, n, [], none⟩, rest) := by
  have hunsigned : readUnsigned false (Nat.toDigits 10 n ++ rest)
      = some (⟨false, n, [], none⟩, rest) := by
    simp only [readUnsigned, readWhole_toDigits n h, readFraction_of_endsNumber h,
      readExponent_of_endsNumber h]
  rw [← literal_natural] at hunsigned
  rw [readNumber, hunsigned]
  intro tail heq
  obtain ⟨c, digits, hdigits, hc⟩ := literal_eq_cons n
  rw [hdigits, List.cons_append] at heq
  exact absurd (List.cons.inj heq).1 (ne_of_isDigit hc rfl)

/-! ## Blanks -/

theorem skipBlanks_cons {c : Char} (h : isBlank c = false) (rest : List Char) :
    skipBlanks (c :: rest) = c :: rest := by
  rw [skipBlanks, List.dropWhile_cons, h, if_neg Bool.false_ne_true]

/-- A new line is blank. -/
theorem skipBlanks_newLine (level : Nat) (rest : List Char) :
    skipBlanks (newLine level ++ rest) = skipBlanks rest := by
  have hall : ∀ c ∈ newLine level, isBlank c = true := by
    intro c hc
    rcases List.mem_cons.1 hc with rfl | hc
    · rfl
    · rw [List.eq_of_mem_replicate hc]
      rfl
  rw [skipBlanks, List.dropWhile_append_of_pos hall, skipBlanks]

theorem skipBlanks_skipBlanks (input : List Char) :
    skipBlanks (skipBlanks input) = skipBlanks input :=
  List.dropWhile_idempotent _ input

/-! ## One step of the reader -/

section Steps

variable {fuel : Nat} {input rest : List Char}

theorem readValue_skipBlanks (fuel : Nat) (input : List Char) :
    readValue fuel (skipBlanks input) = readValue fuel input := by
  cases fuel with
  | zero => rfl
  | succ fuel => rw [readValue, readValue, skipBlanks_skipBlanks]

theorem readValue_space (fuel : Nat) (input : List Char) :
    readValue fuel (' ' :: input) = readValue fuel input := by
  rw [← readValue_skipBlanks fuel (' ' :: input), ← readValue_skipBlanks fuel input]
  rfl

theorem readItems_skipBlanks (fuel : Nat) (input : List Char) :
    readItems fuel (skipBlanks input) = readItems fuel input := by
  cases fuel with
  | zero => rfl
  | succ fuel => rw [readItems, readItems, readValue_skipBlanks]

theorem readMembers_skipBlanks (fuel : Nat) (input : List Char) :
    readMembers fuel (skipBlanks input) = readMembers fuel input := by
  cases fuel with
  | zero => rfl
  | succ fuel => rw [readMembers, readMembers, skipBlanks_skipBlanks]

theorem readValue_string {text : String} (h : readString input = some (some text, rest)) :
    readValue (fuel + 1) ('"' :: input) = some (.string text, rest) := by
  rw [readValue, skipBlanks_cons rfl]
  simp only [h, Option.map_some, Option.getD_some]

theorem isBlank_of_isDigit {c : Char} (h : isDigit c = true) : isBlank c = false := by
  have hne : ∀ d, isDigit d = false → c ≠ d := fun d hd => ne_of_isDigit h hd
  simp [isBlank, hne ' ' rfl, hne '\t' rfl, hne '\n' rfl, hne '\r' rfl]

/-- No document but a number starts with a digit. -/
theorem readValue_digit {c : Char} (h : isDigit c = true) :
    readValue (fuel + 1) (c :: rest)
      = (readNumber (c :: rest)).map fun found => (.number found.1, found.2) := by
  rw [readValue, skipBlanks_cons (isBlank_of_isDigit h)]
  split
  case h_7 => rfl
  all_goals
    next heq => exact absurd (List.cons.inj heq).1 (ne_of_isDigit h rfl)

theorem readValue_array {c : Char} (hskip : skipBlanks input = c :: rest) (hc : c ≠ ']') :
    readValue (fuel + 1) ('[' :: input)
      = (readItems fuel input).map fun found => (.array found.1, found.2) := by
  rw [readValue, skipBlanks_cons rfl, ← readItems_skipBlanks fuel input]
  simp [hskip, hc]

theorem readValue_object {c : Char} (hskip : skipBlanks input = c :: rest) (hc : c ≠ '\x7d') :
    readValue (fuel + 1) ('\x7b' :: input)
      = (readMembers fuel input).map fun found => (ofReadMembers found.1, found.2) := by
  rw [readValue, skipBlanks_cons rfl, ← readMembers_skipBlanks fuel input]
  simp [hskip, hc]

/-- The last item of an array. -/
theorem readItems_last {j : Json} (hj : readValue fuel input = some (j, rest))
    {tail : List Char} (hskip : skipBlanks rest = ']' :: tail) :
    readItems (fuel + 1) input = some ([j], tail) := by
  rw [readItems, hj]
  simp only [hskip]

/-- An item with others behind it. -/
theorem readItems_more {j : Json} (hj : readValue fuel input = some (j, rest))
    {tail : List Char} (hskip : skipBlanks rest = ',' :: tail) :
    readItems (fuel + 1) input
      = (readItems fuel tail).map fun found => (j :: found.1, found.2) := by
  rw [readItems, hj]
  simp only [hskip]

/-- The last member of an object. -/
theorem readMembers_last {key : String} {j : Json} {value : List Char}
    (hvalue : readValue fuel value = some (j, rest)) {tail : List Char}
    (hskip : skipBlanks rest = '\x7d' :: tail) :
    readMembers (fuel + 1) (stringLiteral key ++ ':' :: value)
      = some ([(some key, j)], tail) := by
  obtain ⟨input, hinput, hkey⟩ := readString_stringLiteral key (':' :: value)
  rw [hinput, readMembers, skipBlanks_cons rfl]
  simp only [hkey, skipBlanks_cons (rfl : isBlank ':' = false), hvalue, hskip]

/-- A member with others behind it. -/
theorem readMembers_more {key : String} {j : Json} {value : List Char}
    (hvalue : readValue fuel value = some (j, rest)) {tail : List Char}
    (hskip : skipBlanks rest = ',' :: tail) :
    readMembers (fuel + 1) (stringLiteral key ++ ':' :: value)
      = (readMembers fuel tail).map fun found => ((some key, j) :: found.1, found.2) := by
  obtain ⟨input, hinput, hkey⟩ := readString_stringLiteral key (':' :: value)
  rw [hinput, readMembers, skipBlanks_cons rfl]
  simp only [hkey, skipBlanks_cons (rfl : isBlank ':' = false), hvalue, hskip]

/-- Members whose keys can be read make an object. -/
theorem ofReadMembers_some (members : List (String × Json)) :
    ofReadMembers (members.map fun m => (some m.1, m.2)) = .object members := by
  have hkeys : (members.map fun m => (some m.1, m.2)).mapM
      (fun m : Option String × Json => m.1.map fun key => (key, m.2)) = some members := by
    induction members with
    | nil => rfl
    | cons m rest ih => rw [List.map_cons, List.mapM_cons, ih]; rfl
  rw [ofReadMembers, hkeys]

end Steps

/-! ## Documents -/

theorem prettyChars_array (level : Nat) (j : Json) (items : List Json) :
    prettyChars level (.array (j :: items)) = '[' :: (newLine (level + 1)
      ++ (prettyChars (level + 1) j ++ (prettyItems (level + 1) items
      ++ (newLine level ++ [']'])))) := by
  rw [prettyChars]
  simp only [List.cons_append, List.append_assoc]

theorem prettyChars_object (level : Nat) (key : String) (j : Json)
    (members : List (String × Json)) :
    prettyChars level (.object ((key, j) :: members)) = '\x7b' :: (newLine (level + 1)
      ++ (stringLiteral key ++ (':' :: ' ' :: (prettyChars (level + 1) j
      ++ (prettyMembers (level + 1) members ++ (newLine level ++ ['\x7d'])))))) := by
  rw [prettyChars]
  simp only [List.cons_append, List.append_assoc, List.nil_append]

/-- A document starts with a character that is neither blank nor a closing bracket. -/
theorem prettyChars_eq_cons (level : Nat) {j : Json} (h : j.IsPlain) :
    ∃ c rest, prettyChars level j = c :: rest ∧ isBlank c = false ∧ c ≠ ']' := by
  cases j with
  | null => exact ⟨_, _, by rw [prettyChars], by decide, by decide⟩
  | bool value => cases value <;> exact ⟨_, _, by rw [prettyChars], by decide, by decide⟩
  | number n =>
    rw [IsPlain] at h
    obtain ⟨c, rest, hdigits, hc⟩ := literal_eq_cons n.whole
    refine ⟨c, rest, ?_, isBlank_of_isDigit hc, ne_of_isDigit hc rfl⟩
    rw [prettyChars, h, hdigits]
  | string text =>
    exact ⟨_, _, by rw [prettyChars, stringLiteral, List.cons_append], by decide, by decide⟩
  | array items =>
    cases items with
    | nil => exact ⟨_, _, by rw [prettyChars], by decide, by decide⟩
    | cons j items => exact ⟨_, _, prettyChars_array level j items, by decide, by decide⟩
  | object members =>
    cases members with
    | nil => exact ⟨_, _, by rw [prettyChars], by decide, by decide⟩
    | cons m members =>
      exact ⟨_, _, prettyChars_object level m.1 m.2 members, by decide, by decide⟩
  | unreadable => exact h.elim

theorem endsNumber_cons {c : Char} (h : isDigit c = false ∧ c ≠ '.' ∧ c ≠ 'e' ∧ c ≠ 'E')
    (rest : List Char) : EndsNumber (c :: rest) := by
  intro d hd
  obtain rfl := Option.some.inj hd
  exact h

/-- The items that follow an item, or the end of the array, do not continue a number. -/
theorem endsNumber_items (level close : Nat) (items : List Json) (rest : List Char) :
    EndsNumber (prettyItems level items ++ (newLine close ++ rest)) := by
  cases items with
  | nil => exact endsNumber_cons (by decide) _
  | cons j items =>
    rw [prettyItems]
    exact endsNumber_cons (by decide) _

theorem endsNumber_members (level close : Nat) (members : List (String × Json))
    (rest : List Char) :
    EndsNumber (prettyMembers level members ++ (newLine close ++ rest)) := by
  cases members with
  | nil => exact endsNumber_cons (by decide) _
  | cons m members =>
    rw [prettyMembers]
    exact endsNumber_cons (by decide) _

-- The recursion is the reader's own: on the fuel, not on the document.
mutual

/-- A plain document is read as it was written, up to where its text ends. -/
theorem readValue_pretty : ∀ (fuel : Nat) (j : Json) (level : Nat) (rest : List Char),
    j.IsPlain → (prettyChars level j).length ≤ fuel → EndsNumber rest →
      readValue fuel (prettyChars level j ++ rest) = some (j, rest)
  | 0, j, level, _, hplain, hfuel, _ => by
    obtain ⟨c, tail, heq, -⟩ := prettyChars_eq_cons level hplain
    rw [heq, List.length_cons] at hfuel
    omega
  | fuel + 1, .null, _, rest, _, _, _ => by
    simp [prettyChars, readValue, skipBlanks, isBlank]
  | fuel + 1, .bool value, _, rest, _, _, _ => by
    cases value <;> simp [prettyChars, readValue, skipBlanks, isBlank]
  | fuel + 1, .number n, level, rest, hplain, _, hrest => by
    rw [IsPlain] at hplain
    obtain ⟨c, tail, heq, hc⟩ := literal_eq_cons n.whole
    have hread := readNumber_literal n.whole hrest
    rw [← hplain] at hread heq
    rw [heq, List.cons_append] at hread
    rw [prettyChars, heq, List.cons_append, readValue_digit hc, hread, Option.map_some]
  | fuel + 1, .string text, _, rest, _, _, _ => by
    obtain ⟨input, hinput, hread⟩ := readString_stringLiteral text rest
    rw [prettyChars, hinput, readValue_string hread]
  | fuel + 1, .array [], _, rest, _, _, _ => by
    simp [prettyChars, readValue, skipBlanks, isBlank]
  | fuel + 1, .array (j :: items), level, rest, hplain, hfuel, _ => by
    rw [IsPlain, ArePlain] at hplain
    rw [prettyChars_array] at hfuel ⊢
    simp only [List.length_cons, List.length_append, List.length_nil] at hfuel
    have hitems :=
      readItems_pretty fuel j items (level + 1) level rest hplain.1 hplain.2 (by omega)
    obtain ⟨c, tail, heq, hblank, hc⟩ := prettyChars_eq_cons (level + 1) hplain.1
    have hskip :
        ∀ after, skipBlanks (newLine (level + 1) ++ (prettyChars (level + 1) j ++ after))
        = c :: (tail ++ after) := by
      intro after
      rw [skipBlanks_newLine, heq, List.cons_append, skipBlanks_cons hblank]
    simp only [List.cons_append, List.append_assoc, List.nil_append]
    rw [readValue_array (hskip _) hc, ← readItems_skipBlanks, skipBlanks_newLine,
      readItems_skipBlanks, hitems, Option.map_some]
  | fuel + 1, .object [], _, rest, _, _, _ => by
    simp [prettyChars, readValue, skipBlanks, isBlank]
  | fuel + 1, .object ((key, j) :: members), level, rest, hplain, hfuel, _ => by
    rw [IsPlain, MembersArePlain] at hplain
    rw [prettyChars_object] at hfuel ⊢
    simp only [List.length_cons, List.length_append, List.length_nil] at hfuel
    have hmembers := readMembers_pretty fuel key j members (level + 1) level rest hplain.1
      hplain.2 (by omega)
    obtain ⟨tail, htail, -⟩ := readString_stringLiteral key []
    have hskip : ∀ after, skipBlanks (newLine (level + 1) ++ (stringLiteral key ++ after))
        = '"' :: (tail ++ after) := by
      intro after
      rw [List.append_nil] at htail
      rw [skipBlanks_newLine, htail, List.cons_append, skipBlanks_cons rfl]
    simp only [List.cons_append, List.append_assoc, List.nil_append]
    rw [readValue_object (hskip _) (by decide), ← readMembers_skipBlanks, skipBlanks_newLine,
      readMembers_skipBlanks, hmembers, Option.map_some]
    exact congrArg (fun j => some (j, rest)) (ofReadMembers_some ((key, j) :: members))

/-- The items of an array are read up to its closing bracket. -/
theorem readItems_pretty : ∀ (fuel : Nat) (j : Json) (items : List Json) (level close : Nat)
    (rest : List Char), j.IsPlain → ArePlain items →
    (prettyChars level j).length + (prettyItems level items).length + 1 ≤ fuel →
      readItems fuel (prettyChars level j ++ (prettyItems level items
        ++ (newLine close ++ ']' :: rest))) = some (j :: items, rest)
  | 0, _, _, _, _, _, _, _, hfuel => absurd hfuel (by omega)
  | fuel + 1, j, [], level, close, rest, hj, _, hfuel => by
    have hvalue := readValue_pretty fuel j level _ hj (by omega)
      (endsNumber_items level close [] (']' :: rest))
    refine readItems_last hvalue ?_
    rw [prettyItems, List.nil_append, skipBlanks_newLine, skipBlanks_cons rfl]
  | fuel + 1, j, k :: items, level, close, rest, hj, hitems, hfuel => by
    have hvalue := readValue_pretty fuel j level _ hj (by omega)
      (endsNumber_items level close (k :: items) (']' :: rest))
    rw [ArePlain] at hitems
    rw [prettyItems] at hfuel hvalue ⊢
    simp only [List.length_cons, List.length_append] at hfuel
    have htail := readItems_pretty fuel k items level close rest hitems.1 hitems.2 (by omega)
    simp only [List.cons_append, List.append_assoc] at hvalue ⊢
    rw [readItems_more hvalue (skipBlanks_cons rfl _), ← readItems_skipBlanks,
      skipBlanks_newLine, readItems_skipBlanks, htail, Option.map_some]

/-- The members of an object are read up to its closing brace. -/
theorem readMembers_pretty : ∀ (fuel : Nat) (key : String) (j : Json)
    (members : List (String × Json)) (level close : Nat) (rest : List Char),
    j.IsPlain → MembersArePlain members →
    (prettyChars level j).length + (prettyMembers level members).length + 1 ≤ fuel →
      readMembers fuel (stringLiteral key ++ (':' :: ' ' :: (prettyChars level j
        ++ (prettyMembers level members ++ (newLine close ++ '\x7d' :: rest)))))
        = some (((key, j) :: members).map fun m => (some m.1, m.2), rest)
  | 0, _, _, _, _, _, _, _, _, hfuel => absurd hfuel (by omega)
  | fuel + 1, key, j, [], level, close, rest, hj, _, hfuel => by
    have hvalue := readValue_pretty fuel j level _ hj (by omega)
      (endsNumber_members level close [] ('\x7d' :: rest))
    rw [← readValue_space] at hvalue
    refine readMembers_last hvalue ?_
    rw [prettyMembers, List.nil_append, skipBlanks_newLine, skipBlanks_cons rfl]
  | fuel + 1, key, j, (key', k) :: members, level, close, rest, hj, hmembers, hfuel => by
    have hvalue := readValue_pretty fuel j level _ hj (by omega)
      (endsNumber_members level close ((key', k) :: members) ('\x7d' :: rest))
    rw [MembersArePlain] at hmembers
    rw [prettyMembers] at hfuel hvalue ⊢
    simp only [List.length_cons, List.length_append] at hfuel
    have htail := readMembers_pretty fuel key' k members level close rest hmembers.1 hmembers.2
      (by omega)
    rw [← readValue_space] at hvalue
    simp only [List.cons_append, List.append_assoc, List.nil_append] at hvalue ⊢
    rw [readMembers_more hvalue (skipBlanks_cons rfl _), ← readMembers_skipBlanks,
      skipBlanks_newLine, readMembers_skipBlanks, htail]
    rfl

end

/-- Blanks do not continue a number. -/
theorem endsNumber_of_blanks {blanks : List Char} (h : ∀ c ∈ blanks, isBlank c = true) :
    EndsNumber blanks := by
  intro c hc
  have hblank := h c (List.mem_of_mem_head? hc)
  refine ⟨?_, ?_, ?_, ?_⟩
  · refine Bool.eq_false_iff.2 fun hdigit => ?_
    exact absurd (hblank.symm.trans (isBlank_of_isDigit hdigit)) (by decide)
  all_goals
    rintro rfl
    exact absurd hblank (by decide)

/-- The text of a plain document is read as that document, also with blanks behind it. -/
theorem parse?_pretty_append {j : Json} (h : j.IsPlain) {blanks : String}
    (hblanks : ∀ c ∈ blanks.toList, isBlank c = true) :
    parse? (j.pretty ++ blanks) = some j := by
  have hread := readValue_pretty (2 * (prettyChars 0 j ++ blanks.toList).length + 2) j 0
    blanks.toList h (by rw [List.length_append]; omega) (endsNumber_of_blanks hblanks)
  have hskip : skipBlanks blanks.toList = [] := List.dropWhile_eq_nil_iff.2 hblanks
  rw [parse?, pretty, String.toList_append, String.toList_ofList, hread]
  simp [hskip]

/-- The text of a plain document is read as that document. -/
theorem parse?_pretty {j : Json} (h : j.IsPlain) : parse? j.pretty = some j := by
  have hread := @parse?_pretty_append j h "" fun _ hc => nomatch hc
  rwa [String.append_empty] at hread

end SchemaPlan.Json
