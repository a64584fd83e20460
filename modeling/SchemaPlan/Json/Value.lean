import SchemaPlan.Json.Numeric
import SchemaPlan.Json.Parser

set_option autoImplicit false

/-!
# Documents as values

A text becomes a value if it is a document each of whose parts denotes something
and that is not nested too deep.  In a value the members of an object are in
ascending order and have distinct keys: of those with one key the last stays.  An
object may also embed a document as a text; then its value is the one of the text.
-/

namespace SchemaPlan.Json

/-! ## Nesting -/

mutual

/-- How many arrays and objects stand inside one another at most. -/
def depth : Json → Nat
  | .array items => depthOfItems items + 1
  | .object members => depthOfMembers members + 1
  | _ => 0
termination_by structural j => j

/-- The greatest depth of some documents, 0 of none. -/
def depthOfItems : List Json → Nat
  | [] => 0
  | j :: rest => max (depth j) (depthOfItems rest)
termination_by structural j => j

/-- The greatest depth of the documents under some keys, 0 of none. -/
def depthOfMembers : List (String × Json) → Nat
  | [] => 0
  | (_, j) :: rest => max (depth j) (depthOfMembers rest)
termination_by structural j => j

end

/-- How deep a value may be nested. -/
def depthLimit : Nat := 127

/-! ## Members in ascending order -/

/-- Put a member into an ascending list, unless its key is there already. -/
def placeMember (key : String) (value : Json) : List (String × Json) → List (String × Json)
  | [] => [(key, value)]
  | m :: rest =>
    if key < m.1 then (key, value) :: m :: rest
    else if key = m.1 then m :: rest
    else m :: placeMember key value rest

/-! ## Embedded documents -/

/-- The key that says that an object stands for a document spelled in a text. -/
def embeddedKey : String := "$serde_json::private::RawValue"

/-- Whether an object stands for an embedded document: its first key says so. -/
def embeds : List (String × Json) → Bool
  | [] => false
  | (key, _) :: _ => key == embeddedKey

/-- The text of an embedded document, the one member of its object. -/
def embeddedText? : List (String × Json) → Option String
  | [(_, .string text)] => some text
  | _ => none

/-! ## Values -/

mutual

/-- The value of a document, given the values of the texts embedded in it. -/
def toValue? (embedded : String → Option Json) : Json → Option Json
  | .unreadable => none
  | .number n => if n.inRange then some (.number n) else none
  | .array items => (itemsToValues? embedded items).map .array
  | .object members =>
    if embeds members then (embeddedText? members).bind embedded
    else (membersToValues? embedded members).map .object
  | j => some j
termination_by structural j => j

/-- The values of some documents, if each has one. -/
def itemsToValues? (embedded : String → Option Json) : List Json → Option (List Json)
  | [] => some []
  | j :: rest =>
    match toValue? embedded j, itemsToValues? embedded rest with
    | some value, some values => some (value :: values)
    | _, _ => none
termination_by structural j => j

/-- The values of the members of an object, each put in its place, if each has one. -/
def membersToValues? (embedded : String → Option Json) :
    List (String × Json) → Option (List (String × Json))
  | [] => some []
  | (key, j) :: rest =>
    match toValue? embedded j, membersToValues? embedded rest with
    | some value, some members => some (placeMember key value members)
    | _, _ => none
termination_by structural j => j

end

/-- The value of a text in which texts are embedded less than `levels` deep. -/
def valueOfText? : (levels : Nat) → String → Option Json
  | 0, _ => none
  | levels + 1, text =>
    match parse? text with
    | none => none
    | some j => if j.depth ≤ depthLimit then toValue? (valueOfText? levels) j else none

/-- The value of a text.  An embedded text is shorter than the one it stands in,
so there are fewer levels than characters. -/
def ofText? (text : String) : Option Json := valueOfText? (text.length + 1) text

/-! ## Laws -/

theorem mem_placeMember {key : String} {value : Json} {m : String × Json} :
    ∀ {members : List (String × Json)},
      m ∈ placeMember key value members → m = (key, value) ∨ m ∈ members
  | [], h => by simpa [placeMember] using h
  | d :: rest, h => by
    unfold placeMember at h
    split at h
    · simpa using h
    · split at h
      · exact .inr h
      · rcases List.mem_cons.1 h with h | h
        · exact .inr (h ▸ List.mem_cons_self)
        · exact (mem_placeMember h).imp id (List.mem_cons_of_mem _)

/-- Placing keeps members in strictly ascending order. -/
theorem placeMember_ascending (key : String) (value : Json) :
    ∀ {members : List (String × Json)}, members.Pairwise (fun a b => a.1 < b.1) →
      (placeMember key value members).Pairwise (fun a b => a.1 < b.1)
  | [], _ => by simp [placeMember]
  | d :: rest, h => by
    obtain ⟨hd, hrest⟩ := List.pairwise_cons.1 h
    unfold placeMember
    split
    · next hlt =>
      refine List.pairwise_cons.2 ⟨fun e he => ?_, h⟩
      rcases List.mem_cons.1 he with rfl | he
      · exact hlt
      · exact String.lt_trans hlt (hd e he)
    · next hlt =>
      split
      · exact h
      · next hne =>
        refine List.pairwise_cons.2 ⟨fun e he => ?_, placeMember_ascending key value hrest⟩
        rcases mem_placeMember he with rfl | he
        · exact Std.lt_of_le_of_ne (String.not_lt.1 hlt) (fun heq => hne heq.symm)
        · exact hd e he

/-- The members of a value are in strictly ascending order. -/
theorem membersToValues?_ascending {embedded : String → Option Json} :
    ∀ {members values : List (String × Json)}, membersToValues? embedded members = some values →
      values.Pairwise (fun a b => a.1 < b.1)
  | [], values, h => by
    rw [membersToValues?] at h
    obtain rfl := Option.some.inj h
    exact List.Pairwise.nil
  | (key, j) :: rest, values, h => by
    rw [membersToValues?] at h
    split at h
    · next value members _ hrest =>
      obtain rfl := Option.some.inj h
      exact placeMember_ascending key value (membersToValues?_ascending hrest)
    · exact absurd h (by simp)

end SchemaPlan.Json
