set_option autoImplicit false

/-!
# Keyed: maps with their keys in ascending order

A schema holds its tables by name and a table its columns by name; every walk
over them, and with it every text this library writes, goes in ascending order
of the key.  A `Keyed α` is the list of its entries together with the fact that
the keys strictly increase, so each key occurs once and two maps with the same
entries are equal.

Keys are compared code point by code point, which is also the order of their
UTF-8 bytes.  The view of a map is `get?`; each operation below says what it
does to it.
-/

namespace SchemaPlan

/-- Values held under distinct keys, in strictly ascending order of the key. -/
structure Keyed (α : Type) where
  /-- Keys and values, ascending. -/
  entries : List (String × α)
  ascending : entries.Pairwise (fun a b => a.1 < b.1)
  deriving DecidableEq, Repr

namespace Keyed

variable {α β : Type}

/-! ## Construction -/

/-- The map without entries. -/
def empty : Keyed α := ⟨[], .nil⟩

instance : Inhabited (Keyed α) := ⟨empty⟩

/-- Put a value into an ascending list of entries, in place of an older one. -/
def insertEntry (key : String) (value : α) : List (String × α) → List (String × α)
  | [] => [(key, value)]
  | entry :: rest =>
    if key < entry.1 then (key, value) :: entry :: rest
    else if key = entry.1 then (key, value) :: rest
    else entry :: insertEntry key value rest

theorem mem_insertEntry {key : String} {value : α} {e : String × α} :
    ∀ {entries : List (String × α)},
      e ∈ insertEntry key value entries → e = (key, value) ∨ e ∈ entries
  | [], h => by simpa [insertEntry] using h
  | d :: rest, h => by
    unfold insertEntry at h
    split at h
    · simpa using h
    · split at h
      · rcases List.mem_cons.1 h with h | h
        · exact .inl h
        · exact .inr (List.mem_cons_of_mem _ h)
      · rcases List.mem_cons.1 h with h | h
        · exact .inr (h ▸ List.mem_cons_self)
        · exact (mem_insertEntry h).imp id (List.mem_cons_of_mem _)

theorem insertEntry_ascending (key : String) (value : α) :
    ∀ {entries : List (String × α)}, entries.Pairwise (fun a b => a.1 < b.1) →
      (insertEntry key value entries).Pairwise (fun a b => a.1 < b.1)
  | [], _ => by simp [insertEntry]
  | d :: rest, h => by
    obtain ⟨hd, hrest⟩ := List.pairwise_cons.1 h
    unfold insertEntry
    split
    · next hlt =>
      refine List.pairwise_cons.2 ⟨fun e he => ?_, h⟩
      rcases List.mem_cons.1 he with rfl | he
      · exact hlt
      · exact String.lt_trans hlt (hd e he)
    · next hlt =>
      split
      · next heq =>
        exact List.pairwise_cons.2 ⟨fun e he => heq ▸ hd e he, hrest⟩
      · next hne =>
        refine List.pairwise_cons.2 ⟨fun e he => ?_, insertEntry_ascending key value hrest⟩
        rcases mem_insertEntry he with rfl | he
        · exact Std.lt_of_le_of_ne (String.not_lt.1 hlt) (fun heq => hne heq.symm)
        · exact hd e he

/-- Put a value under a key; a value already there gives way. -/
def insert (map : Keyed α) (key : String) (value : α) : Keyed α :=
  ⟨insertEntry key value map.entries, insertEntry_ascending key value map.ascending⟩

/-- The map of a list of entries; of two with the same key the later stays. -/
def ofList (entries : List (String × α)) : Keyed α :=
  entries.foldl (fun map entry => map.insert entry.1 entry.2) empty

/-- Replace each value by a function of its key and itself; the keys stay. -/
def mapValues (f : String → α → β) (map : Keyed α) : Keyed β :=
  ⟨map.entries.map fun e => (e.1, f e.1 e.2),
    List.pairwise_map.2 (map.ascending.imp id)⟩

/-- Replace the value under one key, if there is one. -/
def modify (map : Keyed α) (key : String) (f : α → α) : Keyed α :=
  map.mapValues fun k v => if k = key then f v else v

/-! ## Views -/

/-- The value under a key. -/
def get? (map : Keyed α) (key : String) : Option α :=
  map.entries.findSome? fun e => if e.1 = key then some e.2 else none

/-- Whether there is a value under a key. -/
def contains (map : Keyed α) (key : String) : Bool :=
  map.entries.any fun e => e.1 == key

/-- The keys, ascending. -/
def keys (map : Keyed α) : List String := map.entries.map (·.1)

/-- The values, in ascending order of their keys. -/
def values (map : Keyed α) : List α := map.entries.map (·.2)

/-- The number of entries. -/
def size (map : Keyed α) : Nat := map.entries.length

/-- The entries whose keys another map does not have, ascending. -/
def without (map : Keyed α) (other : Keyed β) : List (String × α) :=
  map.entries.filter fun e => !other.contains e.1

/-- The values of two maps under the keys that both have, ascending. -/
def common (map : Keyed α) (other : Keyed β) : List (α × β) :=
  map.entries.filterMap fun e => (other.get? e.1).map fun v => (e.2, v)

/-! ## The views of each operation -/

theorem ext_entries {a b : Keyed α} (h : a.entries = b.entries) : a = b := by
  cases a; cases b; cases h; rfl

theorem keys_ascending (map : Keyed α) : map.keys.Pairwise (· < ·) :=
  List.pairwise_map.2 map.ascending

@[simp] theorem entries_empty : (empty : Keyed α).entries = [] := rfl

@[simp] theorem get?_empty (key : String) : (empty : Keyed α).get? key = none := rfl

@[simp] theorem keys_mapValues (f : String → α → β) (map : Keyed α) :
    (map.mapValues f).keys = map.keys := by
  simp [keys, mapValues]

@[simp] theorem size_mapValues (f : String → α → β) (map : Keyed α) :
    (map.mapValues f).size = map.size := by
  simp [size, mapValues]

theorem get?_mapValues (f : String → α → β) (map : Keyed α) (key : String) :
    (map.mapValues f).get? key = (map.get? key).map (f key) := by
  simp only [get?, mapValues]
  induction map.entries with
  | nil => rfl
  | cons e rest ih =>
    by_cases h : e.1 = key
    · subst h; simp
    · simp [h, ih]

theorem contains_eq_true_iff (map : Keyed α) (key : String) :
    map.contains key = true ↔ key ∈ map.keys := by
  simp [contains, keys]

theorem findSome?_entry_eq_some_iff {key : String} {value : α} :
    ∀ {entries : List (String × α)}, entries.Pairwise (fun a b => a.1 < b.1) →
      (entries.findSome? (fun e => if e.1 = key then some e.2 else none) = some value ↔
        (key, value) ∈ entries)
  | [], _ => by simp
  | d :: rest, h => by
    obtain ⟨hd, hrest⟩ := List.pairwise_cons.1 h
    have ih := @findSome?_entry_eq_some_iff key value rest hrest
    rcases Decidable.em (d.1 = key) with hk | hk
    · simp only [List.findSome?_cons, hk, if_true, List.mem_cons]
      constructor
      · intro h; exact .inl (Prod.ext hk.symm (Option.some.inj h).symm)
      · rintro (h | h)
        · rw [← h]
        · exact absurd (hk ▸ hd _ h) (String.lt_irrefl _)
    · simp only [List.findSome?_cons, hk, if_false, List.mem_cons, ih]
      constructor
      · exact .inr
      · rintro (h | h)
        · exact absurd (congrArg Prod.fst h).symm hk
        · exact h

/-- A look-up answers exactly the entries. -/
theorem get?_eq_some_iff {map : Keyed α} {key : String} {value : α} :
    map.get? key = some value ↔ (key, value) ∈ map.entries :=
  findSome?_entry_eq_some_iff map.ascending

theorem get?_eq_none_iff {map : Keyed α} {key : String} :
    map.get? key = none ↔ key ∉ map.keys := by
  rw [Option.eq_none_iff_forall_ne_some]
  constructor
  · intro h hk
    obtain ⟨e, he, rfl⟩ := List.mem_map.1 hk
    exact h e.2 (get?_eq_some_iff.2 he)
  · intro h v hv
    exact h (List.mem_map.2 ⟨_, get?_eq_some_iff.1 hv, rfl⟩)

theorem isSome_get? (map : Keyed α) (key : String) :
    (map.get? key).isSome = map.contains key := by
  rw [Bool.eq_iff_iff, contains_eq_true_iff, Option.isSome_iff_ne_none, ne_eq,
    get?_eq_none_iff, Decidable.not_not]

theorem findSome?_insertEntry (key other : String) (value : α) :
    ∀ entries : List (String × α),
      (insertEntry key value entries).findSome?
          (fun e => if e.1 = other then some e.2 else none)
        = if key = other then some value
          else entries.findSome? (fun e => if e.1 = other then some e.2 else none)
  | [] => by by_cases h : key = other <;> simp [insertEntry, h]
  | d :: rest => by
    have ih := findSome?_insertEntry key other value rest
    unfold insertEntry
    by_cases h : key = other
    · subst h
      by_cases h1 : key < d.1
      · simp [h1]
      · by_cases h2 : key = d.1
        · simp [h2]
        · have h3 : d.1 ≠ key := fun e => h2 e.symm
          simp [h1, h2, h3, ih]
    · by_cases h1 : key < d.1
      · simp [h1, h]
      · by_cases h2 : key = d.1
        · have h3 : d.1 ≠ other := fun e => h (h2.trans e)
          rw [if_neg h1, if_pos h2]
          simp [h, h3]
        · rw [if_neg h1, if_neg h2]
          simp only [List.findSome?_cons, ih, h, if_false]

theorem get?_insert (map : Keyed α) (key other : String) (value : α) :
    (map.insert key value).get? other = if key = other then some value else map.get? other :=
  findSome?_insertEntry key other value map.entries

/-- Ascending lists with the same entries are equal. -/
theorem entries_eq_of_mem_iff {l : List (String × α)} :
    ∀ {m : List (String × α)}, l.Pairwise (fun x y => x.1 < y.1) →
      m.Pairwise (fun x y => x.1 < y.1) → (∀ e, e ∈ l ↔ e ∈ m) → l = m := by
  induction l with
  | nil =>
    intro m _ _ hm
    cases m with
    | nil => rfl
    | cons x _ => exact absurd ((hm x).2 List.mem_cons_self) List.not_mem_nil
  | cons x l ih =>
    intro m hxl hym hm
    cases m with
    | nil => exact absurd ((hm x).1 List.mem_cons_self) List.not_mem_nil
    | cons y m =>
      obtain ⟨hx, hl⟩ := List.pairwise_cons.1 hxl
      obtain ⟨hy, hml⟩ := List.pairwise_cons.1 hym
      have hxy : x = y := by
        rcases List.mem_cons.1 ((hm x).1 List.mem_cons_self) with h1 | h1
        · exact h1
        · rcases List.mem_cons.1 ((hm y).2 List.mem_cons_self) with h2 | h2
          · exact h2.symm
          · exact absurd (String.lt_trans (hx _ h2) (hy _ h1)) (String.lt_irrefl _)
      subst hxy
      congr 1
      refine ih hl hml fun e => ⟨fun he => ?_, fun he => ?_⟩
      · rcases List.mem_cons.1 ((hm e).1 (List.mem_cons_of_mem _ he)) with h1 | h1
        · exact absurd (h1 ▸ hx e he) (String.lt_irrefl _)
        · exact h1
      · rcases List.mem_cons.1 ((hm e).2 (List.mem_cons_of_mem _ he)) with h1 | h1
        · exact absurd (h1 ▸ hy e he) (String.lt_irrefl _)
        · exact h1

theorem contains_insert (map : Keyed α) (key other : String) (value : α) :
    (map.insert key value).contains other = (key == other || map.contains other) := by
  rw [← isSome_get?, ← isSome_get?, get?_insert]
  by_cases h : key = other <;> simp [h]

/-- The entries without a partner in another map are those of keys it lacks. -/
theorem mem_without {map : Keyed α} {other : Keyed β} {e : String × α} :
    e ∈ map.without other ↔ e ∈ map.entries ∧ e.1 ∉ other.keys := by
  rw [without, List.mem_filter, Bool.not_eq_true', ← Bool.not_eq_true,
    contains_eq_true_iff]

/-- The common values are those under keys of both maps. -/
theorem mem_common {map : Keyed α} {other : Keyed β} {a : α} {b : β} :
    (a, b) ∈ map.common other ↔ ∃ key, map.get? key = some a ∧ other.get? key = some b := by
  simp only [common, List.mem_filterMap, Option.map_eq_some_iff]
  constructor
  · rintro ⟨⟨key, a'⟩, he, b', hb, heq⟩
    obtain ⟨rfl, rfl⟩ := Prod.mk.inj heq
    exact ⟨key, get?_eq_some_iff.2 he, hb⟩
  · rintro ⟨key, ha, hb⟩
    exact ⟨(key, a), get?_eq_some_iff.1 ha, b, hb, rfl⟩

/-- Two maps with the same look-ups are equal. -/
theorem ext_get? {a b : Keyed α} (h : ∀ key, a.get? key = b.get? key) : a = b := by
  refine ext_entries (entries_eq_of_mem_iff a.ascending b.ascending fun e => ?_)
  rw [← @get?_eq_some_iff _ a e.1 e.2, ← @get?_eq_some_iff _ b e.1 e.2, h]

end Keyed

end SchemaPlan
