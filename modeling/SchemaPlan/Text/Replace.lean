set_option autoImplicit false

/-!
# Replacing a pattern in a text

`replaceAll pattern value text` replaces the occurrences of a pattern from left
to right; they do not overlap, and a value put in is not searched again.
-/

namespace SchemaPlan.Text

/-- Replace the occurrences of a pattern, after dropping `skip` characters that
belong to an occurrence already replaced. -/
def replaceFrom (pattern value : List Char) : Nat → List Char → List Char
  | _, [] => []
  | skip + 1, _ :: rest => replaceFrom pattern value skip rest
  | 0, c :: rest =>
    if pattern.isPrefixOf (c :: rest) then
      value ++ replaceFrom pattern value (pattern.length - 1) rest
    else c :: replaceFrom pattern value 0 rest

/-- Replace each occurrence of a pattern that is not empty. -/
def replaceAll (pattern value text : String) : String :=
  String.ofList (replaceFrom pattern.toList value.toList 0 text.toList)

/-- Whether a text contains a pattern. -/
def contains (pattern : List Char) : List Char → Bool
  | [] => pattern.isEmpty
  | c :: rest => pattern.isPrefixOf (c :: rest) || contains pattern rest

@[simp] theorem replaceFrom_nil (pattern value : List Char) (skip : Nat) :
    replaceFrom pattern value skip [] = [] := by
  cases skip <;> rfl

/-- The characters still to be dropped are dropped first. -/
theorem replaceFrom_skip (pattern value : List Char) :
    ∀ (skip : Nat) (text : List Char),
      replaceFrom pattern value skip text = replaceFrom pattern value 0 (text.drop skip)
  | 0, _ => rfl
  | _ + 1, [] => by simp
  | skip + 1, _ :: rest => by
    rw [replaceFrom, List.drop_succ_cons, replaceFrom_skip pattern value skip rest]

end SchemaPlan.Text
