set_option autoImplicit false

/-!
# Pairing what goes with what comes

Something that is gone and something that is new may be one thing under a new
name.  `pairUp` takes the elements that are gone in order and gives each the
first of the new ones, not yet taken, that matches it.
-/

namespace SchemaPlan

/-- The outcome of pairing: the pairs in order of their first parts, and what
stays alone on either side, each in the order given. -/
structure Pairing (α β : Type) where
  pairs : List (α × β)
  gone : List α
  new : List β
  deriving Repr

/-- Take out the first element that passes a test. -/
def takeFirst {β : Type} (test : β → Bool) : List β → Option (β × List β)
  | [] => none
  | b :: rest =>
    if test b then some (b, rest)
    else (takeFirst test rest).map fun found => (found.1, b :: found.2)

/-- Pair each element with the first match that is left. -/
def pairUp {α β : Type} (matches? : α → β → Bool) : List α → List β → Pairing α β
  | [], new => ⟨[], [], new⟩
  | a :: gone, new =>
    match takeFirst (matches? a) new with
    | some (b, left) =>
      let rest := pairUp matches? gone left
      { rest with pairs := (a, b) :: rest.pairs }
    | none =>
      let rest := pairUp matches? gone new
      { rest with gone := a :: rest.gone }

/-! ## Laws -/

section Laws

variable {α β : Type}

theorem takeFirst_eq_none_iff {test : β → Bool} :
    ∀ {l : List β}, takeFirst test l = none ↔ ∀ b ∈ l, test b = false
  | [] => by simp [takeFirst]
  | b :: rest => by
    unfold takeFirst
    split
    · next h => simp [h]
    · next h =>
      have hb : test b = false := by simpa using h
      simp [takeFirst_eq_none_iff, hb]

/-- What is taken out is the first element that passes; the others keep their
order. -/
theorem takeFirst_eq_some_iff {test : β → Bool} {b : β} :
    ∀ {l left : List β}, takeFirst test l = some (b, left) ↔
      ∃ before after, l = before ++ b :: after ∧ left = before ++ after ∧
        test b = true ∧ ∀ x ∈ before, test x = false
  | [], left => by simp [takeFirst]
  | c :: rest, left => by
    unfold takeFirst
    split
    · next h =>
      constructor
      · intro heq
        obtain ⟨rfl, rfl⟩ := Prod.mk.inj (Option.some.inj heq)
        exact ⟨[], rest, rfl, rfl, h, by simp⟩
      · rintro ⟨before, after, hl, hleft, hb, hbefore⟩
        cases before with
        | nil =>
          obtain ⟨rfl, rfl⟩ := List.cons.inj hl
          simp [hleft]
        | cons d before =>
          obtain ⟨rfl, -⟩ := List.cons.inj hl
          exact absurd h (by simp [hbefore c List.mem_cons_self])
    · next h =>
      have hc : test c = false := by simpa using h
      constructor
      · intro heq
        obtain ⟨⟨b', left'⟩, hfound, hpair⟩ := Option.map_eq_some_iff.1 heq
        obtain ⟨rfl, rfl⟩ := Prod.mk.inj hpair
        obtain ⟨before, after, rfl, rfl, hb, hbefore⟩ := takeFirst_eq_some_iff.1 hfound
        refine ⟨c :: before, after, rfl, rfl, hb, fun x hx => ?_⟩
        rcases List.mem_cons.1 hx with rfl | hx
        · exact hc
        · exact hbefore x hx
      · rintro ⟨before, after, hl, hleft, hb, hbefore⟩
        cases before with
        | nil =>
          obtain ⟨rfl, rfl⟩ := List.cons.inj hl
          exact absurd hb (by simp [hc])
        | cons d before =>
          obtain ⟨rfl, rfl⟩ := List.cons.inj hl
          have hrest : takeFirst test (before ++ b :: after) = some (b, before ++ after) :=
            takeFirst_eq_some_iff.2
              ⟨before, after, rfl, rfl, hb, fun x hx => hbefore x (List.mem_cons_of_mem _ hx)⟩
          simp [hrest, hleft]

/-- Taking out the first match neither adds nor loses an element. -/
theorem takeFirst_perm {test : β → Bool} {b : β} {l left : List β}
    (h : takeFirst test l = some (b, left)) : l.Perm (b :: left) := by
  obtain ⟨before, after, rfl, rfl, -, -⟩ := takeFirst_eq_some_iff.1 h
  exact List.perm_middle

/-- Each element that is gone is in a pair or stays alone. -/
theorem gone_perm_pairUp (matches? : α → β → Bool) :
    ∀ (gone : List α) (new : List β),
      gone.Perm ((pairUp matches? gone new).pairs.map (·.1) ++ (pairUp matches? gone new).gone)
  | [], new => by simp [pairUp]
  | a :: gone, new => by
    unfold pairUp
    split
    · next b left h => exact (gone_perm_pairUp matches? gone left).cons a
    · next h =>
      exact ((gone_perm_pairUp matches? gone new).cons a).trans List.perm_middle.symm

/-- Each new element is in a pair or stays alone. -/
theorem new_perm_pairUp (matches? : α → β → Bool) :
    ∀ (gone : List α) (new : List β),
      new.Perm ((pairUp matches? gone new).pairs.map (·.2) ++ (pairUp matches? gone new).new)
  | [], new => by simp [pairUp]
  | a :: gone, new => by
    unfold pairUp
    split
    · next b left h =>
      exact (takeFirst_perm h).trans ((new_perm_pairUp matches? gone left).cons b)
    · next h => exact new_perm_pairUp matches? gone new

/-- Each pair matches. -/
theorem matches_of_mem_pairs {matches? : α → β → Bool} {a : α} {b : β} :
    ∀ {gone : List α} {new : List β},
      (a, b) ∈ (pairUp matches? gone new).pairs → matches? a b = true
  | [], new, h => by simp [pairUp] at h
  | c :: gone, new, h => by
    unfold pairUp at h
    split at h
    · next d left hfound =>
      rcases List.mem_cons.1 h with heq | h
      · obtain ⟨rfl, rfl⟩ := Prod.mk.inj heq
        obtain ⟨before, after, -, -, hd, -⟩ := takeFirst_eq_some_iff.1 hfound
        exact hd
      · exact matches_of_mem_pairs h
    · exact matches_of_mem_pairs h

end Laws

end SchemaPlan
