import Mathlib.Data.List.Sort
import Mathlib.Data.String.Basic
import SchemaPlan.Keyed
set_option autoImplicit false

/-!
# Keyed maps: removal, names and common keys

A replay of statements needs three things of a map that planning does not: to
take an entry out, to see a map as nothing but its names, and to say which keys
two maps share.  Each is tied to the view `get?` of a map.
-/

namespace SchemaPlan.Keyed

variable {α β γ : Type}

/-! ## Keys -/

theorem mem_keys_iff {map : Keyed α} {key : String} :
    key ∈ map.keys ↔ ∃ value, map.get? key = some value := by
  rw [← contains_eq_true_iff, ← isSome_get?, Option.isSome_iff_exists]

theorem mem_keys_of_get? {map : Keyed α} {key : String} {value : α}
    (h : map.get? key = some value) : key ∈ map.keys :=
  mem_keys_iff.2 ⟨value, h⟩

theorem contains_of_get? {map : Keyed α} {key : String} {value : α}
    (h : map.get? key = some value) : map.contains key = true :=
  (contains_eq_true_iff map key).2 (mem_keys_of_get? h)

theorem contains_of_get?_none {map : Keyed α} {key : String}
    (h : map.get? key = none) : map.contains key = false := by
  rw [← isSome_get?, h, Option.isSome_none]

theorem exists_of_contains {map : Keyed α} {key : String} (h : map.contains key = true) :
    ∃ value, map.get? key = some value :=
  mem_keys_iff.1 ((contains_eq_true_iff map key).1 h)

theorem get?_eq_none_of_not_contains {map : Keyed α} {key : String}
    (h : ¬ map.contains key = true) : map.get? key = none :=
  get?_eq_none_iff.2 (mt (contains_eq_true_iff map key).2 h)

theorem keys_nodup (map : Keyed α) : map.keys.Nodup :=
  map.keys_ascending.imp ne_of_lt

/-- The entries before and behind one of a map have smaller and greater keys. -/
theorem lt_of_entries_eq {map : Keyed α} {before after : List (String × α)}
    {key : String} {value : α} (h : map.entries = before ++ (key, value) :: after) :
    (∀ e ∈ before, e.1 < key) ∧ ∀ e ∈ after, key < e.1 := by
  have hascending := map.ascending
  rw [h, List.pairwise_append, List.pairwise_cons] at hascending
  obtain ⟨-, ⟨hafter, -⟩, hbefore⟩ := hascending
  exact ⟨fun e he => hbefore e he _ List.mem_cons_self, hafter⟩

/-- The keys are determined by which of them there are. -/
theorem keys_eq_iff {a : Keyed α} {b : Keyed β} :
    a.keys = b.keys ↔ ∀ key, key ∈ a.keys ↔ key ∈ b.keys := by
  constructor
  · intro h key
    rw [h]
  · intro h
    exact a.keys_ascending.eq_of_mem_iff b.keys_ascending h

/-! ## Insertion -/

@[simp] theorem get?_insert_self (map : Keyed α) (key : String) (value : α) :
    (map.insert key value).get? key = some value := by
  rw [get?_insert, if_pos rfl]

theorem get?_insert_of_ne (map : Keyed α) {key other : String} (value : α)
    (h : other ≠ key) : (map.insert key value).get? other = map.get? other := by
  rw [get?_insert, if_neg (Ne.symm h)]

/-- A value of a map into which one was put is that one, or was there under another key. -/
theorem get?_insert_eq_some_iff {map : Keyed α} {key other : String} {value v : α} :
    (map.insert key value).get? other = some v ↔
      (key = other ∧ value = v) ∨ (key ≠ other ∧ map.get? other = some v) := by
  rw [get?_insert]
  split
  · next heq => simp [heq]
  · next hne => simp [hne]

/-- Putting back what is there changes nothing. -/
theorem insert_of_get? {map : Keyed α} {key : String} {value : α}
    (h : map.get? key = some value) : map.insert key value = map := by
  refine ext_get? fun other => ?_
  rw [get?_insert]
  split
  · next heq => rw [← heq, h]
  · rfl

/-- Of two values put under one key the later stays. -/
theorem insert_insert (map : Keyed α) (key : String) (first second : α) :
    (map.insert key first).insert key second = map.insert key second := by
  refine ext_get? fun other => ?_
  rw [get?_insert, get?_insert, get?_insert]
  split <;> rfl

theorem mapValues_id (map : Keyed α) : (map.mapValues fun _ v => v) = map := by
  refine ext_get? fun key => ?_
  rw [get?_mapValues]
  cases map.get? key <;> rfl

theorem get?_mapValues_eq_some_iff {f : String → α → β} {map : Keyed α} {key : String} {w : β} :
    (map.mapValues f).get? key = some w ↔ ∃ v, map.get? key = some v ∧ f key v = w := by
  rw [get?_mapValues, Option.map_eq_some_iff]

/-! ## Maps of lists -/

/-- A value of a map into which entries were put is one of them, or was there. -/
theorem mem_of_get?_foldl_insert {key : String} {value : α} :
    ∀ {entries : List (String × α)} {map : Keyed α},
      (entries.foldl (fun m e => m.insert e.1 e.2) map).get? key = some value →
        (key, value) ∈ entries ∨ map.get? key = some value
  | [], _, h => .inr h
  | e :: rest, map, h => by
    rw [List.foldl_cons] at h
    rcases mem_of_get?_foldl_insert h with h | h
    · exact .inl (List.mem_cons_of_mem _ h)
    · rw [get?_insert] at h
      split at h
      · next heq =>
        obtain rfl := Option.some.inj h
        exact .inl (heq ▸ List.mem_cons_self)
      · exact .inr h

theorem mem_of_get?_ofList {entries : List (String × α)} {key : String} {value : α}
    (h : (ofList entries).get? key = some value) : (key, value) ∈ entries :=
  (mem_of_get?_foldl_insert h).resolve_right fun hempty => nomatch hempty

theorem get?_foldl_insert_of_not_mem {key : String} :
    ∀ {entries : List (String × α)} {map : Keyed α}, key ∉ entries.map (·.1) →
      (entries.foldl (fun m e => m.insert e.1 e.2) map).get? key = map.get? key
  | [], _, _ => rfl
  | e :: rest, map, h => by
    rw [List.map_cons, List.mem_cons, not_or] at h
    rw [List.foldl_cons, get?_foldl_insert_of_not_mem h.2, get?_insert_of_ne _ _ h.1]

/-- Of entries with distinct keys each is in the map. -/
theorem get?_foldl_insert_of_mem {key : String} {value : α} :
    ∀ {entries : List (String × α)} {map : Keyed α}, (entries.map (·.1)).Nodup →
      (key, value) ∈ entries →
        (entries.foldl (fun m e => m.insert e.1 e.2) map).get? key = some value
  | e :: rest, map, hnodup, h => by
    obtain ⟨hnot, hrest⟩ := List.nodup_cons.1 hnodup
    rw [List.foldl_cons]
    rcases List.mem_cons.1 h with rfl | h
    · rw [get?_foldl_insert_of_not_mem hnot, get?_insert_self]
    · exact get?_foldl_insert_of_mem hrest h

theorem get?_ofList {entries : List (String × α)} (h : (entries.map (·.1)).Nodup) {key : String}
    {value : α} : (ofList entries).get? key = some value ↔ (key, value) ∈ entries :=
  ⟨mem_of_get?_ofList, get?_foldl_insert_of_mem h⟩

/-- Of entries with one key the last stays; where there is none, the map is as before. -/
theorem get?_foldl_insert (key : String) :
    ∀ (entries : List (String × α)) (map : Keyed α),
      (entries.foldl (fun m e => m.insert e.1 e.2) map).get? key
        = ((entries.filter (·.1 == key)).getLast?.map (·.2)).or (map.get? key)
  | [], _ => rfl
  | e :: rest, map => by
    rw [List.foldl_cons, get?_foldl_insert key rest, get?_insert]
    by_cases hkey : e.1 = key
    · rw [if_pos hkey, List.filter_cons, if_pos (beq_iff_eq.2 hkey), List.getLast?_cons]
      cases (rest.filter (·.1 == key)).getLast? <;> rfl
    · rw [if_neg hkey, List.filter_cons, if_neg (mt beq_iff_eq.1 hkey)]

/-- The value under a key is that of the last entry with the key. -/
theorem get?_ofList_eq (entries : List (String × α)) (key : String) :
    (ofList entries).get? key = (entries.filter (·.1 == key)).getLast?.map (·.2) := by
  rw [ofList, get?_foldl_insert, get?_empty, Option.or_none]

/-- A first entry counts where there is no other with its key. -/
theorem get?_ofList_cons (e : String × α) (rest : List (String × α)) (key : String) :
    (ofList (e :: rest)).get? key
      = ((ofList rest).get? key).or (if e.1 = key then some e.2 else none) := by
  rw [ofList, List.foldl_cons, get?_foldl_insert, get?_insert, get?_ofList_eq, get?_empty]

theorem mem_keys_foldl_insert {key : String} :
    ∀ {entries : List (String × α)} {map : Keyed α},
      key ∈ (entries.foldl (fun m e => m.insert e.1 e.2) map).keys ↔
        key ∈ entries.map (·.1) ∨ key ∈ map.keys
  | [], map => by simp
  | e :: rest, map => by
    rw [List.foldl_cons, mem_keys_foldl_insert, ← contains_eq_true_iff (map.insert e.1 e.2),
      contains_insert, Bool.or_eq_true, beq_iff_eq, contains_eq_true_iff, List.map_cons,
      List.mem_cons, ← or_assoc, or_comm (a := key ∈ rest.map (·.1)), eq_comm]

/-- The keys of a map of entries are those of the entries. -/
theorem mem_keys_ofList {entries : List (String × α)} {key : String} :
    key ∈ (ofList entries).keys ↔ key ∈ entries.map (·.1) := by
  rw [ofList, mem_keys_foldl_insert]
  exact or_iff_left List.not_mem_nil

/-- A map is the map of its entries. -/
theorem ofList_entries (map : Keyed α) : ofList map.entries = map := by
  refine ext_get? fun key => Option.ext fun value => ?_
  rw [get?_ofList map.keys_nodup, get?_eq_some_iff]

/-! ## Removal -/

/-- Take the entry of a key out. -/
def erase (map : Keyed α) (key : String) : Keyed α :=
  ⟨map.entries.filter fun e => e.1 != key, map.ascending.filter _⟩

theorem get?_erase (map : Keyed α) (key other : String) :
    (map.erase key).get? other = if key = other then none else map.get? other := by
  split
  · next heq =>
    rw [get?_eq_none_iff, ← heq]
    intro hkey
    obtain ⟨e, he, hek⟩ := List.mem_map.1 hkey
    exact absurd hek (by simpa using (List.mem_filter.1 he).2)
  · next hne =>
    refine Option.ext fun value => ?_
    rw [get?_eq_some_iff, get?_eq_some_iff, erase, List.mem_filter]
    constructor
    · exact And.left
    · intro h
      exact ⟨h, by simpa using Ne.symm hne⟩

@[simp] theorem get?_erase_self (map : Keyed α) (key : String) :
    (map.erase key).get? key = none := by
  rw [get?_erase, if_pos rfl]

theorem get?_erase_eq_some_iff {map : Keyed α} {key other : String} {v : α} :
    (map.erase key).get? other = some v ↔ key ≠ other ∧ map.get? other = some v := by
  rw [get?_erase]
  split
  · next heq => simp [heq]
  · next hne => simp [hne]

theorem get?_erase_of_ne (map : Keyed α) {key other : String} (h : other ≠ key) :
    (map.erase key).get? other = map.get? other := by
  rw [get?_erase, if_neg (Ne.symm h)]

/-- The entries whose values pass a test. -/
def filterValues (p : α → Bool) (map : Keyed α) : Keyed α :=
  ⟨map.entries.filter fun e => p e.2, map.ascending.filter _⟩

theorem get?_filterValues (p : α → Bool) (map : Keyed α) (key : String) :
    (map.filterValues p).get? key = (map.get? key).filter p := by
  refine Option.ext fun value => ?_
  rw [get?_eq_some_iff, filterValues, List.mem_filter, Option.filter_eq_some_iff,
    get?_eq_some_iff]

/-! ## Names -/

/-- The names that a map has, each held under itself: a set of names. -/
def names (map : Keyed α) : Keyed Unit := map.mapValues fun _ _ => ()

theorem get?_names (map : Keyed α) (key : String) :
    map.names.get? key = (map.get? key).map fun _ => () :=
  get?_mapValues _ map key

theorem contains_names {map : Keyed α} {key : String} :
    map.names.contains key = true ↔ key ∈ map.keys := by
  rw [contains_eq_true_iff, names, keys_mapValues]

theorem names_insert (map : Keyed α) (key : String) (value : α) :
    (map.insert key value).names = map.names.insert key () := by
  refine ext_get? fun other => ?_
  rw [get?_names, get?_insert, get?_insert, get?_names]
  split <;> rfl

theorem names_erase (map : Keyed α) (key : String) :
    (map.erase key).names = map.names.erase key := by
  refine ext_get? fun other => ?_
  rw [get?_names, get?_erase, get?_erase, get?_names]
  split <;> rfl

theorem names_mapValues {β : Type} (f : String → α → β) (map : Keyed α) :
    (map.mapValues f).names = map.names := by
  refine ext_get? fun other => ?_
  rw [get?_names, get?_mapValues, get?_names, Option.map_map]

theorem contains_names_eq (map : Keyed α) (key : String) :
    map.names.contains key = map.contains key := by
  rw [Bool.eq_iff_iff, contains_names, contains_eq_true_iff]

/-! ## What two maps share -/

/-- The values that two maps hold under one key stand at the place of that key. -/
theorem common_eq_filterMap_keys (a : Keyed α) (b : Keyed β) :
    a.common b = (a.keys.filter b.contains).filterMap fun key =>
      (a.get? key).bind fun v => (b.get? key).map fun w => (v, w) := by
  rw [keys, List.filter_map, List.filterMap_map, List.filterMap_filter, common]
  refine List.filterMap_congr fun e he => ?_
  have hget : a.get? e.1 = some e.2 := get?_eq_some_iff.2 he
  cases hb : b.get? e.1 with
  | none => simp [contains_of_get?_none hb]
  | some w => simp [contains_of_get? hb, hget, hb]

/-- Two maps share what they share, whichever is first. -/
theorem common_swap (a : Keyed α) (b : Keyed β) :
    b.common a = (a.common b).map Prod.swap := by
  have hkeys : b.keys.filter a.contains = a.keys.filter b.contains := by
    refine (b.keys_ascending.filter _).eq_of_mem_iff (a.keys_ascending.filter _) fun key => ?_
    rw [List.mem_filter, List.mem_filter, contains_eq_true_iff, contains_eq_true_iff]
    exact And.comm
  rw [common_eq_filterMap_keys, common_eq_filterMap_keys, hkeys, List.map_filterMap]
  refine List.filterMap_congr fun key _ => ?_
  cases a.get? key <;> cases b.get? key <;> rfl

/-- Where values carry their keys as names, the shared ones are named by the
keys that both maps have. -/
theorem map_common {a : Keyed α} {b : Keyed β} (nameOf : α → String)
    (hname : ∀ {key value}, a.get? key = some value → nameOf value = key) :
    (a.common b).map (fun p => nameOf p.1) = a.keys.filter b.contains := by
  rw [common_eq_filterMap_keys, List.map_filterMap, List.filterMap_congr (g := some)]
  · exact List.filterMap_some
  · intro key hkey
    obtain ⟨hin, hboth⟩ := List.mem_filter.1 hkey
    obtain ⟨v, hv⟩ := mem_keys_iff.1 hin
    obtain ⟨w, hw⟩ := mem_keys_iff.1 ((contains_eq_true_iff _ _).1 hboth)
    simp [hv, hw, hname hv]

/-- The values of two maps under the keys that both have, with the keys. -/
def commonEntries (map : Keyed α) (other : Keyed β) : List (String × α × β) :=
  map.entries.filterMap fun e => (other.get? e.1).map fun v => (e.1, e.2, v)

/-- A list has the entries under the keys of two maps, the keys ascending. -/
structure ListsCommon (map : Keyed α) (other : Keyed β) (entries : List (String × α × β)) :
    Prop where
  ascending : entries.Pairwise fun d e => d.1 < e.1
  mem_iff : ∀ {key : String} {a : α} {b : β},
    (key, a, b) ∈ entries ↔ map.get? key = some a ∧ other.get? key = some b

theorem listsCommon_commonEntries (map : Keyed α) (other : Keyed β) :
    map.ListsCommon other (map.commonEntries other) where
  ascending := by
    refine List.Pairwise.filterMap _ (fun d e hlt d' hd e' he => ?_) map.ascending
    obtain ⟨v, -, rfl⟩ := Option.map_eq_some_iff.1 hd
    obtain ⟨v', -, rfl⟩ := Option.map_eq_some_iff.1 he
    exact hlt
  mem_iff {key a b} := by
    rw [commonEntries, List.mem_filterMap]
    constructor
    · rintro ⟨e, he, hv⟩
      obtain ⟨v, hv, heq⟩ := Option.map_eq_some_iff.1 hv
      cases heq
      exact ⟨get?_eq_some_iff.2 he, hv⟩
    · rintro ⟨ha, hb⟩
      exact ⟨(key, a), get?_eq_some_iff.1 ha, Option.map_eq_some_iff.2 ⟨b, hb, rfl⟩⟩

theorem common_eq_map_commonEntries (map : Keyed α) (other : Keyed β) :
    map.common other = (map.commonEntries other).map (·.2) := by
  rw [common, commonEntries, List.map_filterMap]
  refine List.filterMap_congr fun e _ => ?_
  rw [Option.map_map]
  rfl

/-- The entries without a partner are themselves ascending. -/
theorem pairwise_without (map : Keyed α) (other : Keyed β) :
    (map.without other).Pairwise fun d e => d.1 < e.1 :=
  map.ascending.filter _

theorem nodup_of_ascending {entries : List (String × α)}
    (h : entries.Pairwise fun d e => d.1 < e.1) : (entries.map (·.1)).Nodup :=
  List.pairwise_map.2 (h.imp ne_of_lt)

/-- An entry without a partner, told by its look-ups. -/
theorem mem_without_iff {map : Keyed α} {other : Keyed β} {e : String × α} :
    e ∈ map.without other ↔ map.get? e.1 = some e.2 ∧ other.get? e.1 = none := by
  rw [mem_without, get?_eq_some_iff, get?_eq_none_iff]

theorem mem_keys_without {map : Keyed α} {other : Keyed β} {key : String} :
    key ∈ (map.without other).map (·.1) ↔ key ∈ map.keys ∧ key ∉ other.keys := by
  constructor
  · intro h
    obtain ⟨e, he, rfl⟩ := List.mem_map.1 h
    obtain ⟨hmem, hnot⟩ := mem_without.1 he
    exact ⟨List.mem_map.2 ⟨e, hmem, rfl⟩, hnot⟩
  · rintro ⟨hkey, hnot⟩
    obtain ⟨e, he, rfl⟩ := List.mem_map.1 hkey
    exact List.mem_map.2 ⟨e, mem_without.2 ⟨he, hnot⟩, rfl⟩

theorem without_eq_nil_iff {map : Keyed α} {other : Keyed β} :
    map.without other = [] ↔ ∀ key ∈ map.keys, key ∈ other.keys := by
  rw [← List.map_eq_nil_iff (f := fun e : String × α => e.1), List.eq_nil_iff_forall_not_mem]
  simp only [mem_keys_without, not_and, Decidable.not_not]

end SchemaPlan.Keyed
