import Mathlib.Data.List.Zip
import SchemaPlan.Plan.Diff
import SchemaPlan.Proofs.Keyed
set_option autoImplicit false

/-!
# Pairing by classes

Where an element that is gone matches a new one exactly if both are of one
class, the greedy scan pairs each class by itself: within a class the first goes
with the first, the second with the second, and so on, and what is left over on
the longer side stays alone (`pairUp_class`).  Since that rule does not prefer a
side, pairing in the other direction gives the same pairs reversed.
-/

namespace SchemaPlan

/-! ## Parts of a pairing -/

section Parts

variable {α β : Type} (matches? : α → β → Bool)

/-- The first parts of the pairs stand in the order given. -/
theorem pairs_sublist_gone : ∀ (gone : List α) (new : List β),
    ((pairUp matches? gone new).pairs.map (·.1)).Sublist gone
  | [], new => by simp [pairUp]
  | a :: gone, new => by
    unfold pairUp
    split
    · exact (pairs_sublist_gone gone _).cons_cons a
    · exact (pairs_sublist_gone gone new).cons a

/-- What stays alone on the first side stands in the order given. -/
theorem gone_sublist_gone : ∀ (gone : List α) (new : List β),
    (pairUp matches? gone new).gone.Sublist gone
  | [], new => by simp [pairUp]
  | a :: gone, new => by
    unfold pairUp
    split
    · exact (gone_sublist_gone gone _).cons a
    · exact (gone_sublist_gone gone new).cons_cons a

/-- What stays alone on the second side stands in the order given. -/
theorem new_sublist_new : ∀ (gone : List α) (new : List β),
    (pairUp matches? gone new).new.Sublist new
  | [], new => by simp [pairUp]
  | a :: gone, new => by
    unfold pairUp
    split
    · next b left h =>
      obtain ⟨before, after, rfl, rfl, -, -⟩ := takeFirst_eq_some_iff.1 h
      exact (new_sublist_new gone _).trans ((List.sublist_cons_self b after).append_left before)
    · exact new_sublist_new gone new

variable {matches?}

/-- Both parts of a pair come from the elements given. -/
theorem mem_of_mem_pairs {a : α} {b : β} {gone : List α} {new : List β}
    (h : (a, b) ∈ (pairUp matches? gone new).pairs) : a ∈ gone ∧ b ∈ new := by
  constructor
  · exact (pairs_sublist_gone matches? gone new).subset (List.mem_map.2 ⟨(a, b), h, rfl⟩)
  · refine (new_perm_pairUp matches? gone new).mem_iff.2 (List.mem_append_left _ ?_)
    exact List.mem_map.2 ⟨(a, b), h, rfl⟩

end Parts

/-! ## The class law -/

section Classes

variable {α β γ : Type} [DecidableEq γ] {f : α → γ} {g : β → γ} {matches? : α → β → Bool}

/-- A pairing restricted to one class pairs the members of that class in order. -/
theorem pairUp_class (hmatch : ∀ a b, matches? a b = true ↔ f a = g b) (k : γ) :
    ∀ (gone : List α) (new : List β),
      (pairUp matches? gone new).pairs.filter (fun p => f p.1 = k)
          = (gone.filter (f · = k)).zip (new.filter (g · = k)) ∧
        (pairUp matches? gone new).gone.filter (f · = k)
          = (gone.filter (f · = k)).drop (new.filter (g · = k)).length ∧
        (pairUp matches? gone new).new.filter (g · = k)
          = (new.filter (g · = k)).drop (gone.filter (f · = k)).length := by
  intro gone
  induction gone with
  | nil => intro new; simp [pairUp]
  | cons a gone ih =>
    intro new
    unfold pairUp
    cases hfound : takeFirst (matches? a) new with
    | none =>
      obtain ⟨hpairs, hgone, hnew⟩ := ih new
      by_cases hk : f a = k
      · -- no new element is of the class of `a`
        have hempty : new.filter (g · = k) = [] := by
          rw [List.filter_eq_nil_iff]
          intro b hb hbk
          have hno := takeFirst_eq_none_iff.1 hfound b hb
          rw [(hmatch a b).2 (hk.trans (of_decide_eq_true hbk).symm)] at hno
          exact Bool.noConfusion hno
        rw [hempty] at hpairs hgone hnew ⊢
        simp only [List.zip_nil_right, List.length_nil, List.drop_zero, List.drop_nil]
          at hpairs hgone hnew ⊢
        exact ⟨hpairs, by simp [hk, hgone], hnew⟩
      · simp only [List.filter_cons, hk, decide_false, Bool.false_eq_true, if_false]
        exact ⟨hpairs, hgone, hnew⟩
    | some found =>
      obtain ⟨b, left⟩ := found
      obtain ⟨hpairs, hgone, hnew⟩ := ih left
      obtain ⟨before, after, rfl, rfl, hb, hbefore⟩ := takeFirst_eq_some_iff.1 hfound
      have hab : f a = g b := (hmatch a b).1 hb
      by_cases hk : f a = k
      · have hskip : before.filter (g · = k) = [] := by
          rw [List.filter_eq_nil_iff]
          intro c hc hck
          have hno := hbefore c hc
          rw [(hmatch a c).2 (hk.trans (of_decide_eq_true hck).symm)] at hno
          exact Bool.noConfusion hno
        have hbk : g b = k := hab ▸ hk
        simp only [List.filter_append, hskip, List.nil_append] at hpairs hgone hnew ⊢
        simp [hk, hbk, hpairs, hgone, hnew]
      · have hbk : ¬ g b = k := hab ▸ hk
        simp only [List.filter_append] at hpairs hgone hnew ⊢
        simp [hk, hbk, hpairs, hgone, hnew]

/-- A pair is a pair of its class. -/
theorem mem_pairs_iff (hmatch : ∀ a b, matches? a b = true ↔ f a = g b) {a : α} {b : β}
    {gone : List α} {new : List β} :
    (a, b) ∈ (pairUp matches? gone new).pairs ↔
      (a, b) ∈ (gone.filter (f · = f a)).zip (new.filter (g · = f a)) := by
  rw [← (pairUp_class hmatch (f a) gone new).1, List.mem_filter]
  simp

variable {matches'? : β → α → Bool}

/-- Pairing in the other direction reverses the pairs. -/
theorem mem_pairs_mirror (hmatch : ∀ a b, matches? a b = true ↔ f a = g b)
    (hmatch' : ∀ b a, matches'? b a = true ↔ g b = f a) {a : α} {b : β}
    {gone : List α} {new : List β} :
    (a, b) ∈ (pairUp matches? gone new).pairs ↔ (b, a) ∈ (pairUp matches'? new gone).pairs := by
  have hclass : ∀ k, (a, b) ∈ (gone.filter (f · = k)).zip (new.filter (g · = k)) ↔
      (b, a) ∈ (new.filter (g · = k)).zip (gone.filter (f · = k)) := by
    intro k
    rw [← List.zip_swap (gone.filter _), List.mem_map]
    constructor
    · intro h
      exact ⟨(a, b), h, rfl⟩
    · rintro ⟨⟨a', b'⟩, h, heq⟩
      obtain ⟨rfl, rfl⟩ := Prod.mk.inj heq
      exact h
  constructor
  · intro h
    have hab := (hmatch a b).1 (matches_of_mem_pairs h)
    rw [mem_pairs_iff hmatch, hclass, hab] at h
    exact (mem_pairs_iff hmatch').2 h
  · intro h
    have hba := (hmatch' b a).1 (matches_of_mem_pairs h)
    rw [mem_pairs_iff hmatch', ← hclass, hba] at h
    exact (mem_pairs_iff hmatch).2 h

/-- What stays alone stays alone in the other direction. -/
theorem mem_gone_mirror (hmatch : ∀ a b, matches? a b = true ↔ f a = g b)
    (hmatch' : ∀ b a, matches'? b a = true ↔ g b = f a) {a : α}
    {gone : List α} {new : List β} :
    a ∈ (pairUp matches? gone new).gone ↔ a ∈ (pairUp matches'? new gone).new := by
  have hfilter := (pairUp_class hmatch (f a) gone new).2.1.trans
    (pairUp_class hmatch' (f a) new gone).2.2.symm
  have hmem : ∀ l : List α, a ∈ l ↔ a ∈ l.filter (f · = f a) := by
    intro l
    simp [List.mem_filter]
  rw [hmem, hfilter, ← hmem]

end Classes

/-! ## Keys of a pairing between two maps -/

section Keys

variable {α β : Type}

theorem flatMap_pair_perm {δ : Type} (pairs : List δ) (first second : δ → String) :
    (pairs.flatMap fun p => [first p, second p]).Perm
      (pairs.map first ++ pairs.map second) := by
  induction pairs with
  | nil => exact .refl _
  | cons p rest ih =>
    simp only [List.flatMap_cons, List.map_cons, List.cons_append, List.nil_append]
    exact ((ih.cons _).trans List.perm_middle.symm).cons _

/-- The keys that a pairing is about: both parts of its pairs, then those that
stay alone. -/
def Pairing.keys (pairing : Pairing (String × α) (String × β)) : List String :=
  (pairing.pairs.flatMap fun p => [p.1.1, p.2.1]) ++ pairing.gone.map (·.1)
    ++ pairing.new.map (·.1)

/-- Every key given stands in a pair or alone, once. -/
theorem pairUp_keys_perm (matches? : String × α → String × β → Bool)
    (gone : List (String × α)) (new : List (String × β)) :
    (pairUp matches? gone new).keys.Perm (gone.map (·.1) ++ new.map (·.1)) := by
  have hgone := (gone_perm_pairUp matches? gone new).map Prod.fst
  have hnew := (new_perm_pairUp matches? gone new).map Prod.fst
  rw [List.map_append, List.map_map] at hgone hnew
  refine List.Perm.trans ?_ (hgone.append hnew).symm
  have hpairs :=
    flatMap_pair_perm (pairUp matches? gone new).pairs (fun p => p.1.1) fun p => p.2.1
  refine ((hpairs.append_right _).append_right _).trans ?_
  simp only [List.append_assoc]
  refine List.Perm.append_left _ ?_
  rw [← List.append_assoc, ← List.append_assoc]
  exact List.perm_append_comm.append_right _

/-- The keys of two maps: those of one alone, of the other alone, and of both. -/
def splitKeys (target : Keyed α) (current : Keyed β) : List String :=
  (current.without target).map (·.1) ++ (target.without current).map (·.1)
    ++ target.keys.filter current.contains

theorem mem_splitKeys {target : Keyed α} {current : Keyed β} {key : String} :
    key ∈ splitKeys target current ↔ key ∈ target.keys ∨ key ∈ current.keys := by
  rw [splitKeys, List.mem_append, List.mem_append, Keyed.mem_keys_without,
    Keyed.mem_keys_without, List.mem_filter, Keyed.contains_eq_true_iff]
  by_cases h1 : key ∈ target.keys <;> by_cases h2 : key ∈ current.keys <;> simp [h1, h2]

theorem splitKeys_nodup (target : Keyed α) (current : Keyed β) :
    (splitKeys target current).Nodup := by
  have hcurrent := Keyed.nodup_of_ascending (current.pairwise_without target)
  have htarget := Keyed.nodup_of_ascending (target.pairwise_without current)
  refine List.Nodup.append (hcurrent.append htarget ?_) (target.keys_nodup.filter _) ?_
  · intro key h1 h2
    exact (Keyed.mem_keys_without.1 h1).2 (Keyed.mem_keys_without.1 h2).1
  · intro key h1 h2
    obtain ⟨hin, hboth⟩ := List.mem_filter.1 h2
    rcases List.mem_append.1 h1 with h | h
    · exact (Keyed.mem_keys_without.1 h).2 hin
    · exact (Keyed.mem_keys_without.1 h).2 ((Keyed.contains_eq_true_iff _ _).1 hboth)

/-- The keys of a pairing between what two maps do not share, and those of what
they share, are all their keys. -/
theorem pairUp_splitKeys_perm (matches? : String × β → String × α → Bool) (target : Keyed α)
    (current : Keyed β) :
    ((pairUp matches? (current.without target) (target.without current)).keys
      ++ target.keys.filter current.contains).Perm (splitKeys target current) :=
  (pairUp_keys_perm matches? _ _).append_right _

section Between

variable {matches? : String × β → String × α → Bool} {target : Keyed α} {current : Keyed β}

theorem pairUp_keys_nodup :
    (pairUp matches? (current.without target) (target.without current)).keys.Nodup := by
  have hsplit := (pairUp_splitKeys_perm matches? target current).nodup_iff.2
    (splitKeys_nodup target current)
  exact (List.nodup_append.1 hsplit).1

/-- A pair leads from a key of one map alone to a key of the other alone. -/
theorem lookups_of_mem_pairs {gone : String × β} {new : String × α}
    (h : (gone, new) ∈
      (pairUp matches? (current.without target) (target.without current)).pairs) :
    (current.get? gone.1 = some gone.2 ∧ target.get? gone.1 = none) ∧
      (target.get? new.1 = some new.2 ∧ current.get? new.1 = none) := by
  obtain ⟨hgone, hnew⟩ := mem_of_mem_pairs h
  exact ⟨Keyed.mem_without_iff.1 hgone, Keyed.mem_without_iff.1 hnew⟩

theorem lookups_of_mem_gone {gone : String × β}
    (h : gone ∈ (pairUp matches? (current.without target) (target.without current)).gone) :
    current.get? gone.1 = some gone.2 ∧ target.get? gone.1 = none :=
  Keyed.mem_without_iff.1 ((gone_sublist_gone _ _ _).subset h)

theorem lookups_of_mem_new {new : String × α}
    (h : new ∈ (pairUp matches? (current.without target) (target.without current)).new) :
    target.get? new.1 = some new.2 ∧ current.get? new.1 = none :=
  Keyed.mem_without_iff.1 ((new_sublist_new _ _ _).subset h)

end Between

/-- A pairing that names each key once does so in each of its parts. -/
theorem Pairing.nodup_parts {pairing : Pairing (String × α) (String × β)}
    (h : pairing.keys.Nodup) :
    (pairing.pairs.flatMap fun p => [p.1.1, p.2.1]).Nodup ∧ (pairing.gone.map (·.1)).Nodup ∧
      (pairing.new.map (·.1)).Nodup := by
  obtain ⟨hleft, hnew, -⟩ := List.nodup_append.1 h
  obtain ⟨hpairs, hgone, -⟩ := List.nodup_append.1 hleft
  exact ⟨hpairs, hgone, hnew⟩

/-- What is in a pair does not stay alone on the first side. -/
theorem Pairing.not_mem_gone {pairing : Pairing (String × α) (String × β)}
    (h : pairing.keys.Nodup) {key : String}
    (hpair : key ∈ pairing.pairs.flatMap fun p => [p.1.1, p.2.1]) :
    key ∉ pairing.gone.map (·.1) :=
  fun hgone => List.disjoint_of_nodup_append (List.nodup_append.1 h).1 hpair hgone

/-- What comes in a pair comes in no other. -/
theorem Pairing.eq_of_new_eq {pairing : Pairing (String × α) (String × β)}
    (h : pairing.keys.Nodup) {pair pair' : (String × α) × (String × β)}
    (hpair : pair ∈ pairing.pairs) (hpair' : pair' ∈ pairing.pairs)
    (hnew : pair.2.1 = pair'.2.1) : pair = pair' := by
  have hparts := (flatMap_pair_perm pairing.pairs (fun p => p.1.1) fun p => p.2.1).nodup_iff.1
    (nodup_parts h).1
  exact List.inj_on_of_nodup_map (List.nodup_append.1 hparts).2.1 hpair hpair' hnew

/-- What comes in a pair does not come alone. -/
theorem Pairing.not_mem_new {pairing : Pairing (String × α) (String × β)}
    (h : pairing.keys.Nodup) {pair : (String × α) × (String × β)}
    (hpair : pair ∈ pairing.pairs) : pair.2.1 ∉ pairing.new.map (·.1) := by
  intro hnew
  have hleft : pair.2.1 ∈ (pairing.pairs.flatMap fun p => [p.1.1, p.2.1])
      ++ pairing.gone.map (·.1) := by
    refine List.mem_append_left _ (List.mem_flatMap.2 ⟨pair, hpair, ?_⟩)
    exact List.mem_cons_of_mem _ List.mem_cons_self
  exact List.disjoint_of_nodup_append h hleft hnew

/-- A key of the target is shared, paired or new, and only one of the three, so what
each asks for can be had. -/
theorem exists_outcome {γ : Type} {matches? : String × β → String × α → Bool} {target : Keyed α}
    {current : Keyed β} {key : String} {a : α} {shared : β → γ → Prop}
    {paired : String × β → γ → Prop} {new : γ → Prop}
    (hshared : ∀ b, current.get? key = some b → ∃ v, shared b v)
    (hpaired : ∀ gone, (gone, (key, a)) ∈ (pairUp matches? (current.without target)
      (target.without current)).pairs → ∃ v, paired gone v)
    (hnew : ∃ v, new v) :
    let pairing := pairUp matches? (current.without target) (target.without current)
    ∃ v, (∀ b, current.get? key = some b → shared b v) ∧
      (∀ gone, (gone, (key, a)) ∈ pairing.pairs → paired gone v) ∧
      ((key, a) ∈ pairing.new → new v) := by
  intro pairing
  have hnodup : pairing.keys.Nodup := pairUp_keys_nodup
  cases hb : current.get? key with
  | some b =>
    obtain ⟨v, hv⟩ := hshared b hb
    refine ⟨v, fun b' hb' => ?_, fun gone hpair => ?_, fun hnew => ?_⟩
    · exact Option.some.inj hb' ▸ hv
    · exact nomatch hb.symm.trans (lookups_of_mem_pairs hpair).2.2
    · exact nomatch hb.symm.trans (lookups_of_mem_new hnew).2
  | none =>
    by_cases hpair : ∃ gone, (gone, (key, a)) ∈ pairing.pairs
    · obtain ⟨gone, hgone⟩ := hpair
      obtain ⟨v, hv⟩ := hpaired gone hgone
      refine ⟨v, fun b hb' => ?_, fun gone' hgone' => ?_, fun hnew => ?_⟩
      · exact nomatch hb'
      · obtain rfl := congrArg Prod.fst (Pairing.eq_of_new_eq hnodup hgone hgone' rfl)
        exact hv
      · exact absurd (List.mem_map_of_mem hnew) (Pairing.not_mem_new hnodup hgone)
    · obtain ⟨v, hv⟩ := hnew
      refine ⟨v, fun b hb' => ?_, fun gone hgone => ?_, fun _ => hv⟩
      · exact nomatch hb'
      · exact absurd ⟨gone, hgone⟩ hpair

end Keys

/-! ## The pairings of a plan -/

/-- Tables with the same column names are those with the same keys. -/
theorem Table.hasSameColumnNames_iff {a b : Table} :
    a.hasSameColumnNames b = true ↔ a.columns.keys = b.columns.keys := by
  have hsize : ∀ t : Table, t.columns.size = t.columns.keys.length :=
    fun t => (List.length_map _).symm
  rw [hasSameColumnNames, Bool.and_eq_true, beq_iff_eq, List.all_eq_true, hsize, hsize]
  constructor
  · rintro ⟨hlength, hall⟩
    have hsub : a.columns.keys ⊆ b.columns.keys :=
      fun key hkey => (Keyed.contains_eq_true_iff _ _).1 (hall key hkey)
    have hperm :=
      (List.subperm_of_subset a.columns.keys_nodup hsub).perm_of_length_le hlength.ge
    exact Keyed.keys_eq_iff.2 fun key => hperm.mem_iff
  · intro h
    rw [h]
    exact ⟨rfl, fun key hkey => (Keyed.contains_eq_true_iff _ _).2 hkey⟩

/-- Tables that are paired have the same column names. -/
theorem Schema.keys_eq_of_mem_tablePairing {target current : Schema} {gone new : String × Table}
    (h : (gone, new) ∈ (target.tablePairing current).pairs) :
    new.2.columns.keys = gone.2.columns.keys := by
  unfold tablePairing at h
  have hsame := matches_of_mem_pairs h
  exact Table.hasSameColumnNames_iff.1 hsame

/-- Where elements of one class match, pairing in the other direction reverses the
pairs and swaps what stays alone. -/
theorem pairUp_mirror {α γ : Type} [DecidableEq γ] {f : String × α → γ}
    {matches? : String × α → String × α → Bool}
    (hmatch : ∀ a b, matches? a b = true ↔ f a = f b) (a b : Keyed α) :
    (pairUp matches? (a.without b) (b.without a)).pairs.Perm
        ((pairUp matches? (b.without a) (a.without b)).pairs.map Prod.swap) ∧
      (pairUp matches? (a.without b) (b.without a)).new
        = (pairUp matches? (b.without a) (a.without b)).gone := by
  have hmatch' : ∀ b a, matches? b a = true ↔ f b = f a := hmatch
  constructor
  · have hnodup : ∀ x y : Keyed α,
        (pairUp matches? (x.without y) (y.without x)).pairs.Nodup := by
      intro x y
      have hkeys := (Keyed.nodup_of_ascending (x.pairwise_without y)).of_map
      exact (hkeys.sublist (pairs_sublist_gone matches? _ _)).of_map
    refine (List.perm_ext_iff_of_nodup (hnodup a b) ?_).2 fun p => ?_
    · exact (hnodup b a).map Prod.swap_injective
    · rw [List.mem_map]
      constructor
      · intro hp
        exact ⟨p.swap, (mem_pairs_mirror hmatch hmatch').1 hp, Prod.swap_swap p⟩
      · rintro ⟨q, hq, rfl⟩
        exact (mem_pairs_mirror hmatch hmatch').1 hq
  · refine Keyed.entries_eq_of_mem_iff ?_ ?_ fun e => (mem_gone_mirror hmatch hmatch').symm
    · exact (b.pairwise_without a).sublist (new_sublist_new _ _ _)
    · exact (b.pairwise_without a).sublist (gone_sublist_gone _ _ _)

/-- Columns that are paired are of one type. -/
theorem Column.type?_beq_iff (gone new : String × Column) :
    (new.2.type? == gone.2.type?) = true ↔ gone.2.type? = new.2.type? := by
  rw [beq_iff_eq, eq_comm]

/-- Pairing columns in the other direction reverses the pairs and swaps what
stays alone. -/
theorem Table.columnPairing_mirror (a b : Table) :
    (a.columnPairing b).pairs.Perm ((b.columnPairing a).pairs.map Prod.swap) ∧
      (a.columnPairing b).new = (b.columnPairing a).gone :=
  pairUp_mirror Column.type?_beq_iff b.columns a.columns

/-- Pairing tables in the other direction reverses the pairs and swaps what stays
alone. -/
theorem Schema.tablePairing_mirror (a b : Schema) :
    (a.tablePairing b).pairs.Perm ((b.tablePairing a).pairs.map Prod.swap) ∧
      (a.tablePairing b).new = (b.tablePairing a).gone := by
  have hmatch : ∀ gone new : String × Table, new.2.hasSameColumnNames gone.2 = true ↔
      gone.2.columns.keys = new.2.columns.keys := by
    intro gone new
    rw [Table.hasSameColumnNames_iff, eq_comm]
  exact pairUp_mirror hmatch b.tables a.tables

theorem Table.columnPairing_nodup (target current : Table) :
    (target.columnPairing current).keys.Nodup := pairUp_keys_nodup

theorem Schema.tablePairing_nodup (target current : Schema) :
    (target.tablePairing current).keys.Nodup := pairUp_keys_nodup

/-! ## The keys that a plan is about -/

/-- The columns that the blocks of a plan are about: those of the pairs, those that
stay alone, those that both sides have. -/
def Table.planKeys (target current : Table) : List String :=
  (target.columnPairing current).keys ++ target.columns.keys.filter current.columns.contains

/-- The tables that the blocks of a plan are about: those that both sides have, those
of the pairs, those that stay alone. -/
def Schema.planKeys (target current : Schema) : List String :=
  target.tables.keys.filter current.tables.contains
    ++ ((target.tablePairing current).pairs.flatMap fun p => [p.1.1, p.2.1])
    ++ (target.tablePairing current).gone.map (·.1)
    ++ (target.tablePairing current).new.map (·.1)

theorem Table.planKeys_perm (target current : Table) :
    (target.planKeys current).Perm (splitKeys target.columns current.columns) :=
  pairUp_splitKeys_perm _ _ _

theorem Schema.planKeys_perm (target current : Schema) :
    (target.planKeys current).Perm (splitKeys target.tables current.tables) := by
  have hperm := List.perm_append_comm.trans (pairUp_splitKeys_perm
    (fun gone new => new.2.hasSameColumnNames gone.2) target.tables current.tables)
  rwa [Pairing.keys, ← List.append_assoc, ← List.append_assoc] at hperm

/-- A plan is about each column in one block. -/
theorem Table.planKeys_nodup (target current : Table) : (target.planKeys current).Nodup :=
  (target.planKeys_perm current).nodup_iff.2 (splitKeys_nodup _ _)

/-- A plan is about each table in one block. -/
theorem Schema.planKeys_nodup (target current : Schema) : (target.planKeys current).Nodup :=
  (target.planKeys_perm current).nodup_iff.2 (splitKeys_nodup _ _)

theorem Table.mem_planKeys {target current : Table} {key : String} :
    key ∈ target.planKeys current ↔ key ∈ target.columns.keys ∨ key ∈ current.columns.keys :=
  (target.planKeys_perm current).mem_iff.trans mem_splitKeys

theorem Schema.mem_planKeys {target current : Schema} {key : String} :
    key ∈ target.planKeys current ↔ key ∈ target.tables.keys ∨ key ∈ current.tables.keys :=
  (target.planKeys_perm current).mem_iff.trans mem_splitKeys

end SchemaPlan
