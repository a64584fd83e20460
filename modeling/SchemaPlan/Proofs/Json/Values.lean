import SchemaPlan.Proofs.Json.Records
set_option autoImplicit false

/-!
# Reading the value of a document

A document may be read as it stands, or a value may be made of it first and then be read.
The value has the members of an object in order, of those with one key only the last, and
the documents that are embedded as texts are put in their places.  That the value is read
as the document is (`Keeps`) is lifted here from the parts of a document to lists, to maps
and to records.

Lists and maps never make a difference: of members with one key the last also stays in a
map, and an embedded document would have to be a text among the values.  Nor do records,
unless the record itself is given as an embedded document: read as it stands, such an
object has no member that is known (`RecordFormat.keeps`).
-/

namespace SchemaPlan.Json

variable {α β : Type} {embedded : String → Option Json}

/-- Whether a document is an object that stands for an embedded document. -/
def isEmbedded : Json → Bool
  | .object members => embeds members
  | _ => false

/-- If a document is read and has a value, the value is read as the same. -/
def Keeps (embedded : String → Option Json) (decode : Decoder α) (j : Json) : Prop :=
  ∀ ⦃v : Json⦄ ⦃a : α⦄, toValue? embedded j = some v → decode j = .ok a → decode v = .ok a

/-- What is made of a value that was read does not matter. -/
theorem Keeps.map {decode : Decoder α} {j : Json} (h : Keeps embedded decode j) (f : α → β) :
    Keeps embedded (fun j => (decode j).map f) j := by
  intro v b hv hb
  obtain ⟨a, ha, rfl⟩ := Field.exists_of_map_eq_ok hb
  exact congrArg (Except.map f) (h hv ha)

/-! ## Leaves -/

theorem keeps_readText (j : Json) : Keeps embedded readText j := by
  intro v a hv ha
  cases j with
  | string text =>
    obtain rfl := Option.some.inj hv
    exact ha
  | _ => cases ha

theorem keeps_readBool (j : Json) : Keeps embedded readBool j := by
  intro v a hv ha
  cases j with
  | bool value =>
    obtain rfl := Option.some.inj hv
    exact ha
  | _ => cases ha

theorem keeps_readUInt64 (j : Json) : Keeps embedded readUInt64 j := by
  intro v a hv ha
  cases j with
  | number n =>
    rw [toValue?] at hv
    split at hv
    · obtain rfl := Option.some.inj hv
      exact ha
    · cases hv
  | _ => cases ha

/-- A word may be given as the key of an object, but not if the key says that a document
is embedded. -/
theorem keeps_readVariant {known : List String} {ofWord? : String → Option α}
    (hkey : ofWord? embeddedKey = none) (j : Json) :
    Keeps embedded (readVariant known ofWord?) j := by
  intro v a hv ha
  cases j with
  | string word =>
    obtain rfl := Option.some.inj hv
    exact ha
  | object members =>
    rcases members with _ | ⟨⟨word, content⟩, _ | ⟨_, _⟩⟩
    · cases ha
    · have hread := ha
      rw [readVariant] at hread
      split at hread
      · cases hread
      · next value hword =>
        have hother : embeds [(word, content)] = false := by
          rw [embeds, beq_eq_false_iff_ne]
          rintro rfl
          cases hkey.symm.trans hword
        split at hread
        · rw [toValue?, hother] at hv
          obtain rfl := Option.some.inj hv
          exact ha
        · cases hread
    · cases ha
  | _ => cases ha

/-! ## Containers -/

theorem readNullAs_of_ne {value : α} {decode : Decoder α} {j : Json} (h : j ≠ .null) :
    readNullAs value decode j = decode j := by
  cases j with
  | null => exact absurd rfl h
  | _ => rfl

/-- Null may stand for a value, if it cannot be read otherwise. -/
theorem Keeps.readNullAs {decode : Decoder α} {j : Json} (h : Keeps embedded decode j)
    (hnull : ∀ a, decode .null ≠ .ok a) (value : α) :
    Keeps embedded (readNullAs value decode) j := by
  intro v a hv ha
  by_cases hj : j = .null
  · subst hj
    obtain rfl := Option.some.inj hv
    exact ha
  · rw [readNullAs_of_ne hj] at ha
    have hread := h hv ha
    have hvalue : v ≠ .null := by
      rintro rfl
      exact hnull a hread
    rw [readNullAs_of_ne hvalue, hread]

/-- The values of items are those of each. -/
theorem itemsToValues?_eq_some_iff {items values : List Json} :
    itemsToValues? embedded items = some values ↔
      List.Forall₂ (fun j v => toValue? embedded j = some v) items values := by
  induction items generalizing values with
  | nil =>
    rw [itemsToValues?, List.forall₂_nil_left_iff, Option.some.injEq, eq_comm]
  | cons j rest ih =>
    rw [itemsToValues?, List.forall₂_cons_left_iff]
    constructor
    · intro h
      split at h
      · next value others hvalue hothers =>
        obtain rfl := Option.some.inj h
        exact ⟨value, others, hvalue, ih.1 hothers, rfl⟩
      · cases h
    · rintro ⟨value, others, hvalue, hothers, rfl⟩
      rw [hvalue, ih.2 hothers]

theorem toValue?_array {items : List Json} {v : Json}
    (h : toValue? embedded (.array items) = some v) :
    ∃ values, v = .array values ∧
      List.Forall₂ (fun j v => toValue? embedded j = some v) items values := by
  rw [toValue?] at h
  obtain ⟨values, hvalues, rfl⟩ := Option.map_eq_some_iff.1 h
  exact ⟨values, rfl, itemsToValues?_eq_some_iff.1 hvalues⟩

theorem readEach_values {decode : Decoder α} {items values : List Json} {as : List α}
    (hvalues : List.Forall₂ (fun j v => toValue? embedded j = some v) items values)
    (h : ∀ j ∈ items, Keeps embedded decode j) (hread : readEach decode items = .ok as) :
    readEach decode values = .ok as := by
  induction hvalues generalizing as with
  | nil => exact hread
  | cons hv _ ih =>
    obtain ⟨hfirst, hrest⟩ := List.forall_mem_cons.1 h
    rw [readEach] at hread ⊢
    split at hread
    · cases hread
    · next a ha =>
      split at hread
      · cases hread
      · next others hothers =>
        rw [hfirst hv ha]
        simp only [ih hrest hothers]
        exact hread

theorem length_readEach {decode : Decoder α} {items : List Json} {as : List α}
    (h : readEach decode items = .ok as) : as.length = items.length := by
  induction items generalizing as with
  | nil =>
    obtain rfl := Except.ok.inj h
    rfl
  | cons j rest ih =>
    rw [readEach] at h
    split at h
    · cases h
    · split at h
      · cases h
      · next others hothers =>
        obtain rfl := Except.ok.inj h
        rw [List.length_cons, List.length_cons, ih hothers]

/-- A list is kept whose items are. -/
theorem keeps_readList {decode : Decoder α} {items : List Json}
    (h : ∀ j ∈ items, Keeps embedded decode j) :
    Keeps embedded (readList decode) (.array items) := by
  intro v as hv has
  obtain ⟨values, rfl, hvalues⟩ := toValue?_array hv
  exact readEach_values hvalues h has

/-! ## Maps -/

/-- An object that has a value has the values of its members, or embeds a text. -/
theorem toValue?_members {members : List (String × Json)} {v : Json}
    (h : toValue? embedded (.object members) = some v) :
    (∃ key text, members = [(key, .string text)] ∧ key = embeddedKey) ∨
      ∃ values, embeds members = false ∧ membersToValues? embedded members = some values ∧
        v = .object values := by
  rw [toValue?] at h
  split at h
  · next hfirst =>
    obtain ⟨text, htext, -⟩ := Option.bind_eq_some_iff.1 h
    unfold embeddedText? at htext
    split at htext
    · next key spelled => exact .inl ⟨key, spelled, rfl, beq_iff_eq.1 hfirst⟩
    · cases htext
  · next hfirst =>
    obtain ⟨values, hvalues, rfl⟩ := Option.map_eq_some_iff.1 h
    exact .inr ⟨values, Bool.eq_false_iff.2 hfirst, hvalues, rfl⟩

/-- The values of members are found one after the other. -/
theorem membersToValues?_eq_some {key : String} {j : Json} {rest values : List (String × Json)}
    (h : membersToValues? embedded ((key, j) :: rest) = some values) :
    ∃ v others, toValue? embedded j = some v ∧ membersToValues? embedded rest = some others ∧
      values = placeMember key v others := by
  rw [membersToValues?] at h
  split at h
  · next v others hv hothers => exact ⟨v, others, hv, hothers, (Option.some.inj h).symm⟩
  · cases h

section Maps

variable {decode : Decoder α}

/-- What is read into a map are entries. -/
theorem exists_of_readEntries {members : List (String × Json)} {map result : Keyed α}
    (h : readEntries decode map members = .ok result) :
    ∃ entries, ReadAs decode entries members ∧
      result = entries.foldl (fun m e => m.insert e.1 e.2) map := by
  induction members generalizing map with
  | nil => exact ⟨[], .nil, (Except.ok.inj h).symm⟩
  | cons m rest ih =>
    obtain ⟨key, j⟩ := m
    rw [readEntries] at h
    split at h
    · cases h
    · next a ha =>
      obtain ⟨entries, hentries, rfl⟩ := ih h
      exact ⟨(key, a) :: entries, .cons ⟨rfl, ha⟩ hentries, rfl⟩

/-- A member that is placed is read as an entry put before the others. -/
theorem ReadAs.place {entries : List (String × α)} {members : List (String × Json)}
    (h : ReadAs decode entries members) (key : String) {v : Json} {a : α}
    (ha : decode v = .ok a) :
    ∃ entries', ReadAs decode entries' (placeMember key v members) ∧
      Keyed.ofList entries' = Keyed.ofList ((key, a) :: entries) := by
  induction h with
  | nil => exact ⟨[(key, a)], .cons ⟨rfl, ha⟩ .nil, rfl⟩
  | @cons e m entries members hm hrest ih =>
    rw [placeMember]
    split
    · exact ⟨(key, a) :: e :: entries, .cons ⟨rfl, ha⟩ (.cons hm hrest), rfl⟩
    · split
      · next hkey =>
        refine ⟨e :: entries, .cons hm hrest, ?_⟩
        rw [Keyed.ofList, Keyed.ofList, List.foldl_cons, List.foldl_cons, List.foldl_cons, hkey,
          hm.1, Keyed.insert_insert]
      · next hkey =>
        obtain ⟨entries', hentries', heq⟩ := ih
        refine ⟨e :: entries', .cons hm hentries', Keyed.ext_get? fun k => ?_⟩
        rw [Keyed.get?_ofList_cons, heq, Keyed.get?_ofList_cons, Keyed.get?_ofList_cons,
          Keyed.get?_ofList_cons, Option.or_assoc, Option.or_assoc]
        refine congrArg (Option.or _) ?_
        have hother : ¬(key = k ∧ e.1 = k) := by
          rintro ⟨rfl, hk⟩
          exact hkey (hk.symm.trans hm.1.symm)
        by_cases hk : key = k
        · rw [if_neg fun he => hother ⟨hk, he⟩, Option.or_none, Option.none_or]
        · rw [if_neg hk, Option.or_none, Option.none_or]

/-- The values of members are read as the same map. -/
theorem readAs_values {members values : List (String × Json)} {entries : List (String × α)}
    (hvalues : membersToValues? embedded members = some values)
    (h : ∀ m ∈ members, Keeps embedded decode m.2) (hread : ReadAs decode entries members) :
    ∃ entries', ReadAs decode entries' values ∧
      Keyed.ofList entries' = Keyed.ofList entries := by
  induction hread generalizing values with
  | nil =>
    obtain rfl := Option.some.inj hvalues
    exact ⟨[], .nil, rfl⟩
  | @cons e m entries rest hm _ ih =>
    obtain ⟨hfirst, hrest⟩ := List.forall_mem_cons.1 h
    obtain ⟨v, others, hv, hothers, rfl⟩ := membersToValues?_eq_some hvalues
    obtain ⟨entries', hentries', heq⟩ := ih hothers hrest
    obtain ⟨placed, hplaced, hplacedEq⟩ := hentries'.place m.1 (hfirst hv hm.2)
    refine ⟨placed, hplaced, hplacedEq.trans (Keyed.ext_get? fun key => ?_)⟩
    rw [Keyed.get?_ofList_cons, heq, Keyed.get?_ofList_cons, hm.1]

/-- A map is kept whose values are, if these are not texts. -/
theorem keeps_readKeyed {members : List (String × Json)}
    (h : ∀ m ∈ members, Keeps embedded decode m.2)
    (htext : ∀ text a, decode (.string text) ≠ .ok a) :
    Keeps embedded (readKeyed decode) (.object members) := by
  intro v map hv hmap
  rw [readKeyed] at hmap
  obtain ⟨entries, hentries, rfl⟩ := exists_of_readEntries hmap
  rcases toValue?_members hv with ⟨key, text, rfl, -⟩ | ⟨values, -, hvalues, rfl⟩
  · obtain ⟨e, rest, hread, -, -⟩ := List.forall₂_cons_right_iff.1 hentries
    exact absurd hread.2 (htext text _)
  · obtain ⟨entries', hentries', heq⟩ := readAs_values hvalues h hentries
    rw [readKeyed, readEntries_eq_ok hentries']
    exact congrArg Except.ok heq

end Maps

/-! ## Members that are known -/

theorem HaveValues.keys {members values : List (String × Json)}
    (h : HaveValues embedded members values) : values.map (·.1) = members.map (·.1) := by
  induction h with
  | nil => rfl
  | cons hm _ ih => rw [List.map_cons, List.map_cons, hm.1, ih]

/-- A member that is left out leaves no trace. -/
theorem placeMember_filter {p : String → Bool} {key : String} (h : p key = false) (v : Json)
    (members : List (String × Json)) :
    (placeMember key v members).filter (fun m => p m.1) = members.filter fun m => p m.1 := by
  have hnot : ¬ p key = true := by rw [h]; exact Bool.false_ne_true
  induction members with
  | nil => exact List.filter_cons_of_neg (p := fun m : String × Json => p m.1) hnot
  | cons m rest ih =>
    rw [placeMember]
    split
    · exact List.filter_cons_of_neg (p := fun m : String × Json => p m.1) hnot
    · split
      · rfl
      · rw [List.filter_cons, List.filter_cons, ih]

/-- Where the keys that count are distinct, the values of their members count. -/
theorem membersToValues?_filter {p : String → Bool} {members values : List (String × Json)}
    (h : membersToValues? embedded members = some values)
    (hnodup : ((members.filter fun m => p m.1).map (·.1)).Nodup) :
    ∃ kept, HaveValues embedded (members.filter fun m => p m.1) kept ∧
      (values.filter fun m => p m.1).Perm kept := by
  induction members generalizing values with
  | nil =>
    obtain rfl := Option.some.inj h
    exact ⟨[], .nil, .refl _⟩
  | cons m rest ih =>
    obtain ⟨key, j⟩ := m
    obtain ⟨v, others, hv, hothers, rfl⟩ := membersToValues?_eq_some h
    rw [List.filter_cons] at hnodup ⊢
    cases hp : p key with
    | false =>
      rw [placeMember_filter hp]
      simp only [hp, Bool.false_eq_true, if_false] at hnodup ⊢
      exact ih hothers hnodup
    | true =>
      simp only [hp, if_true] at hnodup ⊢
      obtain ⟨hnew, hrest⟩ := List.nodup_cons.1 hnodup
      obtain ⟨kept, hkept, hperm⟩ := ih hothers hrest
      have hnot : key ∉ others.map (·.1) := by
        intro hkey
        obtain ⟨m, hm, rfl⟩ := List.mem_map.1 hkey
        have hmem : m.1 ∈ kept.map (·.1) :=
          (hperm.map (·.1)).mem_iff.1 (List.mem_map_of_mem (List.mem_filter.2 ⟨hm, hp⟩))
        exact hnew (hkept.keys ▸ hmem)
      refine ⟨(key, v) :: kept, .cons ⟨rfl, hv⟩ hkept, ?_⟩
      have hplaced := (placeMember_perm v hnot).filter fun m => p m.1
      rw [List.filter_cons_of_pos (p := fun m : String × Json => p m.1) hp] at hplaced
      exact hplaced.trans (hperm.cons _)

/-! ## Records -/

namespace RecordFormat

/-- What is read of members are the entries that the known ones give. -/
theorem entries_of_readMembers {fields : List (Field α)} {members : List (String × Json)} :
    ∀ {met met' : List String} {record result : α},
      readMembers fields met record members = .ok (met', result) →
      ∃ entries : List (Entry α),
        List.Forall₂ (Gives fields) (members.filter fun m => isKnown fields m.1) entries ∧
        (met.Nodup → (entries.map Entry.name ++ met).Nodup) ∧
        met' = (entries.map Entry.name).reverse ++ met ∧
        result = Entry.setAll entries record := by
  induction members with
  | nil =>
    intro met met' record result h
    obtain ⟨rfl, rfl⟩ := Prod.mk.inj (Except.ok.inj h)
    exact ⟨[], .nil, id, rfl, rfl⟩
  | cons m rest ih =>
    intro met met' record result h
    obtain ⟨key, j⟩ := m
    rw [readMembers] at h
    cases hfound : fields.find? (·.isNamed key) with
    | none =>
      rw [hfound] at h
      rw [List.filter_cons_of_neg (by rw [isKnown, hfound]; exact Bool.false_ne_true)]
      exact ih h
    | some field =>
      simp only [hfound] at h
      split at h
      · cases h
      · next hmet =>
        split at h
        · cases h
        · next set hread =>
          obtain ⟨entries, hgives, hnodup, rfl, rfl⟩ := ih h
          rw [List.filter_cons_of_pos (by rw [isKnown, hfound]; rfl)]
          refine ⟨⟨field, j, set, hread⟩ :: entries, .cons ⟨hfound, rfl⟩ hgives,
            fun hdistinct => ?_, ?_, rfl⟩
          · have hnew : field.name ∉ met := mt List.contains_iff_mem.2 hmet
            exact List.perm_middle.nodup_iff.1 (hnodup (List.nodup_cons.2 ⟨hnew, hdistinct⟩))
          · rw [List.map_cons, List.reverse_cons, List.append_assoc, List.singleton_append]
            rfl

theorem fields_of_gives {fields : List (Field α)} {members : List (String × Json)}
    {entries : List (Entry α)} (h : List.Forall₂ (Gives fields) members entries) :
    ∀ e ∈ entries, e.field ∈ fields := by
  induction h with
  | nil => exact List.forall_mem_nil _
  | cons hgives _ ih =>
    exact List.forall_mem_cons.2 ⟨List.mem_of_find?_eq_some hgives.1, ih⟩

/-- Members that give entries of distinct fields have distinct keys. -/
theorem keys_nodup_of_gives {fields : List (Field α)} {members : List (String × Json)}
    {entries : List (Entry α)} (h : List.Forall₂ (Gives fields) members entries)
    (hnodup : (entries.map Entry.name).Nodup) : (members.map (·.1)).Nodup := by
  have hfields :
      (members.map (·.1)).map (fun key => (fields.find? (·.isNamed key)).map (·.name))
      = (entries.map Entry.name).map some := by
    induction h with
    | nil => rfl
    | cons hgives _ ih =>
      simp only [List.map_cons, hgives.1, Option.map_some, ih (List.nodup_cons.1 hnodup).2]
      rfl
  refine List.Nodup.of_map _ (hfields ▸ hnodup.map ?_)
  exact Option.some_injective _

/-- The values of members give entries for the same fields, which say the same. -/
theorem entries_of_values {fields : List (Field α)} {members values : List (String × Json)}
    {entries : List (Entry α)} (hgives : List.Forall₂ (Gives fields) members entries)
    (hvalues : HaveValues embedded members values)
    (h : ∀ m ∈ members, ∀ field, fields.find? (·.isNamed m.1) = some field →
      Keeps embedded field.read m.2) :
    ∃ entries' : List (Entry α), List.Forall₂ (Gives fields) values entries' ∧
      entries'.map Entry.name = entries.map Entry.name ∧
      ∀ record, Entry.setAll entries' record = Entry.setAll entries record := by
  induction hgives generalizing values with
  | nil =>
    obtain rfl := List.forall₂_nil_left_iff.1 hvalues
    exact ⟨[], .nil, rfl, fun _ => rfl⟩
  | @cons m e members entries hgive _ ih =>
    obtain ⟨v, others, ⟨hkey, hv⟩, hothers, rfl⟩ := List.forall₂_cons_left_iff.1 hvalues
    obtain ⟨hfirst, hrest⟩ := List.forall_mem_cons.1 h
    obtain ⟨entries', hgives', hnames, hset⟩ := ih hothers hrest
    have hread : e.field.read v.2 = .ok e.set :=
      hfirst e.field hgive.1 hv (hgive.2 ▸ e.read)
    refine ⟨⟨e.field, v.2, e.set, hread⟩ :: entries', .cons ⟨?_, rfl⟩ hgives', ?_,
      fun record => ?_⟩
    · rw [hkey]
      exact hgive.1
    · rw [List.map_cons, List.map_cons, hnames]
      rfl
    · exact hset _

/-- Entries of distinct fields may be set in any order. -/
theorem IsRegular.pairwise_commutes {format : RecordFormat α} (hregular : format.IsRegular)
    {entries : List (Entry α)} (hfields : ∀ e ∈ entries, e.field ∈ format.fields)
    (hnodup : (entries.map Entry.name).Nodup) :
    (entries.map (·.field)).Pairwise Field.Commutes := by
  have hsymm : @Std.Symm (Field α) Field.Commutes :=
    ⟨fun _ _ h j k u v hu hv record => (h k j v u hv hu record).symm⟩
  rw [List.pairwise_map]
  refine (List.pairwise_map.1 hnodup).imp_of_mem fun {d e} hd he hne => ?_
  exact hregular.commute.forall (hfields d hd) (hfields e he)
    fun heq => hne (congrArg Field.name heq)

/-- The documents that a record gives for a field: in an object the members with one of its
names, in an array the item in its place. -/
def given (format : RecordFormat α) (name : String) : Json → List Json
  | .object members =>
    (members.filter fun m =>
      (format.fields.find? (·.isNamed m.1)).any fun field => field.name == name).map (·.2)
  | .array items => ((format.fields.zip items).filter fun p => p.1.name == name).map (·.2)
  | _ => []

theorem mem_given_object {format : RecordFormat α} {members : List (String × Json)}
    {m : String × Json} {field : Field α} (hm : m ∈ members)
    (hfound : format.fields.find? (·.isNamed m.1) = some field) :
    m.2 ∈ format.given field.name (.object members) := by
  refine List.mem_map_of_mem (List.mem_filter.2 ⟨hm, ?_⟩)
  rw [hfound]
  exact beq_self_eq_true field.name

theorem mem_given_array {format : RecordFormat α} {items : List Json} {p : Field α × Json}
    (hp : p ∈ format.fields.zip items) : p.2 ∈ format.given p.1.name (.array items) :=
  List.mem_map_of_mem (List.mem_filter.2 ⟨hp, beq_self_eq_true p.1.name⟩)

/-- A record given as an object is kept whose fields are. -/
theorem keeps_object {format : RecordFormat α} (hregular : format.IsRegular)
    {members : List (String × Json)} (hfirst : embeds members = false)
    (h : ∀ m ∈ members, ∀ field, format.fields.find? (·.isNamed m.1) = some field →
      Keeps embedded field.read m.2) : Keeps embedded format.decode (.object members) := by
  intro v a hv ha
  rcases toValue?_members hv with ⟨key, text, rfl, rfl⟩ | ⟨values, -, hvalues, rfl⟩
  · cases hfirst
  · rw [decode] at ha
    split at ha
    · cases ha
    · next met record hmembers =>
      obtain ⟨entries, hgives, hdistinct, rfl, rfl⟩ := entries_of_readMembers hmembers
      have hnodup : (entries.map Entry.name).Nodup := by
        rw [← List.append_nil (entries.map Entry.name)]
        exact hdistinct .nil
      obtain ⟨kept, hkept, hperm⟩ :=
        membersToValues?_filter hvalues (keys_nodup_of_gives hgives hnodup)
      obtain ⟨ordered, horderedGives, horderedNames, horderedSet⟩ :=
        entries_of_values hgives hkept
        fun m hm => h m (List.mem_of_mem_filter hm)
      obtain ⟨sorted, hsortedGives, hsorted⟩ := List.perm_comp_forall₂ hperm horderedGives
      have hsortedNames : (sorted.map Entry.name).Perm (entries.map Entry.name) :=
        horderedNames ▸ hsorted.map Entry.name
      have hsortedDistinct : (sorted.map Entry.name ++ []).Nodup := by
        rw [List.append_nil]
        exact hsortedNames.nodup_iff.2 hnodup
      have hmet : ∀ name, ((sorted.map Entry.name).reverse ++ []).contains name
          = ((entries.map Entry.name).reverse ++ []).contains name := by
        intro name
        rw [Bool.eq_iff_iff, List.contains_iff_mem, List.contains_iff_mem, List.append_nil,
          List.append_nil, List.mem_reverse, List.mem_reverse, hsortedNames.mem_iff]
      have hcommute := hregular.pairwise_commutes (fields_of_gives hsortedGives)
        (hsortedNames.nodup_iff.2 hnodup)
      rw [decode, readMembers_of_gives _ hsortedGives hsortedDistinct]
      simp only [hmet]
      rw [setAll_perm hcommute hsorted, horderedSet]
      exact ha

/-- The values of items are read as the same fields. -/
theorem readItems_values {format : RecordFormat α} {fields : List (Field α)}
    {items values : List Json} {done : Nat} {record result : α}
    (hvalues : List.Forall₂ (fun j v => toValue? embedded j = some v) items values)
    (h : ∀ p ∈ fields.zip items, Keeps embedded p.1.read p.2)
    (hread : readItems format done fields record items = .ok result) :
    readItems format done fields record values = .ok result := by
  induction fields generalizing items values done record with
  | nil =>
    cases hvalues with
    | nil => exact hread
    | cons _ hothers =>
      unfold readItems at hread ⊢
      split at hread
      · next hextra => rw [if_pos hextra]; exact hread
      · cases hread
  | cons field fields ih =>
    cases hvalues with
    | nil => exact hread
    | cons hv hothers =>
      rw [List.zip_cons_cons, List.forall_mem_cons] at h
      rw [readItems] at hread ⊢
      split at hread
      · cases hread
      · next set hset =>
        rw [h.1 hv hset]
        exact ih hothers h.2 hread

/-- A record is kept whose fields are, unless it is given as an embedded document. -/
theorem keeps {format : RecordFormat α} (hregular : format.IsRegular) {j : Json}
    (hplain : j.isEmbedded = false)
    (h : ∀ field ∈ format.fields, ∀ k ∈ format.given field.name j,
      Keeps embedded field.read k) :
    Keeps embedded format.decode j := by
  cases j with
  | object members =>
    exact keeps_object hregular hplain fun m hm field hfound =>
      h field (List.mem_of_find?_eq_some hfound) _ (mem_given_object hm hfound)
  | array items =>
    intro v a hv ha
    obtain ⟨values, rfl, hvalues⟩ := toValue?_array hv
    exact readItems_values hvalues
      (fun p hp => h p.1 (List.of_mem_zip hp).1 _ (mem_given_array hp)) ha
  | _ =>
    intro v a _ ha
    cases ha

end RecordFormat

end SchemaPlan.Json
