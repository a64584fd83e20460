import Mathlib.Data.List.Pairwise
import Mathlib.Data.List.Perm.Basic
import SchemaPlan.Json.Decode
import SchemaPlan.Json.Value
import SchemaPlan.Proofs.Keyed
set_option autoImplicit false

/-!
# Reading records and maps back

A record may be given as an array of its fields or as an object.  If the names of
its fields are distinct and it does not matter which field is set first, an object
with every field, in whatever order, is read as the array is (`decode_object`).
A map is read from an object of its entries (`readKeyed_object`).

What is made a value has its members put in order.  That neither adds nor loses a
member (`toValue?_object`), so records and maps are read from values as well as
from documents; only an object whose first key is that of an embedded document is
taken for something else.
-/

namespace SchemaPlan.Json

/-! ## Entries of a record -/

namespace Field

variable {α β γ : Type}

/-- The names that a field is known by. -/
def names (field : Field α) : List String := field.name :: field.otherName.toList

theorem isNamed_iff {field : Field α} {name : String} :
    field.isNamed name = true ↔ name ∈ field.names := by
  rw [isNamed, Bool.or_eq_true, beq_iff_eq, beq_iff_eq, names, List.mem_cons, Option.mem_toList,
    eq_comm]

/-- It does not matter which of two fields is set first. -/
def Commutes (f g : Field α) : Prop :=
  ∀ (j k : Json) (set set' : α → α), f.read j = .ok set → g.read k = .ok set' →
    ∀ record, set (set' record) = set' (set record)

theorem exists_of_map_eq_ok {r : Except DecodeError β} {set : β → γ} {u : γ}
    (h : r.map set = .ok u) : ∃ a, r = .ok a ∧ set a = u := by
  cases r with
  | error _ => exact nomatch h
  | ok a => exact ⟨a, rfl, Except.ok.inj h⟩

/-- Fields commute if the ways to set them do. -/
theorem commutes_of {name name' : String} {presence presence' : Presence} {d : Decoder β}
    {e : Decoder γ} {set : β → α → α} {set' : γ → α → α}
    (h : ∀ a b record, set a (set' b record) = set' b (set a record)) :
    (Field.of name presence d set).Commutes (Field.of name' presence' e set') := by
  intro j k u v hu hv record
  obtain ⟨a, -, rfl⟩ := exists_of_map_eq_ok hu
  obtain ⟨b, -, rfl⟩ := exists_of_map_eq_ok hv
  exact h a b record

/-- Being known by another name too does not matter. -/
@[simp] theorem commutes_otherName (f g : Field α) (otherName : Option String) :
    Commutes { f with otherName := otherName } g ↔ f.Commutes g := Iff.rfl

end Field

/-- A field, a document for it, and how the record is set to what it says. -/
structure Entry (α : Type) where
  field : Field α
  value : Json
  set : α → α
  read : field.read value = .ok set

namespace Entry

variable {α : Type}

/-- The name under which an entry is written. -/
def name (entry : Entry α) : String := entry.field.name

/-- The member of an object that gives an entry. -/
def member (entry : Entry α) : String × Json := (entry.name, entry.value)

/-- A record after entries were set, one after the other. -/
def setAll (entries : List (Entry α)) (record : α) : α :=
  entries.foldl (fun r e => e.set r) record

end Entry

namespace RecordFormat

variable {α : Type}

/-- A format whose fields have distinct names and can be set in any order. -/
structure IsRegular (format : RecordFormat α) : Prop where
  names : (format.fields.flatMap Field.names).Nodup
  commute : format.fields.Pairwise Field.Commutes

/-- A field is found by its name. -/
theorem find?_isNamed {fields : List (Field α)} (hnames : (fields.flatMap Field.names).Nodup)
    {field : Field α} (h : field ∈ fields) :
    fields.find? (·.isNamed field.name) = some field := by
  have hself : field.name ∈ field.names := List.mem_cons_self
  induction fields with
  | nil => exact nomatch h
  | cons f rest ih =>
    rw [List.flatMap_cons, List.nodup_append] at hnames
    obtain ⟨-, hrest, hdisjoint⟩ := hnames
    rw [List.find?_cons]
    rcases List.mem_cons.1 h with rfl | h
    · rw [Field.isNamed_iff.2 hself]
    · have hother : f.isNamed field.name = false := by
        rw [← Bool.not_eq_true, Field.isNamed_iff]
        intro hnamed
        exact hdisjoint _ hnamed _ (List.mem_flatMap.2 ⟨field, h, hself⟩) rfl
      rw [hother, ih hrest h]

/-- Whether a key is a name of some field. -/
def isKnown (fields : List (Field α)) (key : String) : Bool :=
  (fields.find? (·.isNamed key)).isSome

/-- A member gives an entry: its key is a name of the field, its document the value. -/
def Gives (fields : List (Field α)) (m : String × Json) (e : Entry α) : Prop :=
  fields.find? (·.isNamed m.1) = some e.field ∧ m.2 = e.value

/-- The members that are known are read one after the other as the entries they give. -/
theorem readMembers_of_gives {fields : List (Field α)} {members : List (String × Json)} :
    ∀ {entries : List (Entry α)} {met : List String} (record : α),
      List.Forall₂ (Gives fields) (members.filter fun m => isKnown fields m.1) entries →
      (entries.map Entry.name ++ met).Nodup →
      readMembers fields met record members
        = .ok ((entries.map Entry.name).reverse ++ met, Entry.setAll entries record) := by
  induction members with
  | nil =>
    intro entries met record hgives _
    obtain rfl := List.forall₂_nil_left_iff.1 hgives
    rfl
  | cons m rest ih =>
    intro entries met record hgives hdistinct
    obtain ⟨key, j⟩ := m
    rw [readMembers]
    cases hfound : fields.find? (·.isNamed key) with
    | none =>
      rw [List.filter_cons_of_neg (by rw [isKnown, hfound]; exact Bool.false_ne_true)] at hgives
      exact ih record hgives hdistinct
    | some field =>
      rw [List.filter_cons_of_pos (by rw [isKnown, hfound]; rfl)] at hgives
      obtain ⟨e, others, ⟨hfield, hvalue⟩, hothers, rfl⟩ := List.forall₂_cons_left_iff.1 hgives
      obtain rfl := Option.some.inj (hfound.symm.trans hfield)
      have hread : e.field.read j = .ok e.set := (congrArg e.field.read hvalue).trans e.read
      rw [List.map_cons, List.cons_append] at hdistinct
      have hmet : met.contains e.field.name = false := by
        rw [← Bool.not_eq_true, List.contains_iff_mem]
        exact fun h => (List.nodup_cons.1 hdistinct).1 (List.mem_append_right _ h)
      have hrest : (others.map Entry.name ++ e.field.name :: met).Nodup :=
        List.perm_middle.nodup_iff.2 hdistinct
      simp only [hmet, Bool.false_eq_true, if_false, hread]
      rw [ih _ hothers hrest, List.map_cons, List.reverse_cons, List.append_assoc,
        List.singleton_append]
      rfl

/-- The members of entries are read one after the other. -/
theorem readMembers_entries {fields : List (Field α)}
    (hnames : (fields.flatMap Field.names).Nodup) {entries : List (Entry α)} {met : List String}
    (record : α) (hfields : ∀ e ∈ entries, e.field ∈ fields)
    (hdistinct : (entries.map Entry.name ++ met).Nodup) :
    readMembers fields met record (entries.map Entry.member)
      = .ok ((entries.map Entry.name).reverse ++ met, Entry.setAll entries record) := by
  have hfound {e : Entry α} (he : e ∈ entries) :
      fields.find? (·.isNamed e.name) = some e.field := find?_isNamed hnames (hfields e he)
  have hknown : (entries.map Entry.member).filter (fun m => isKnown fields m.1)
      = entries.map Entry.member := by
    rw [List.filter_eq_self, List.forall_mem_map]
    intro e he
    rw [Entry.member, isKnown, hfound he]
    rfl
  refine readMembers_of_gives record ?_ hdistinct
  rw [hknown, List.forall₂_map_left_iff, List.forall₂_same]
  exact fun e he => ⟨hfound he, rfl⟩

/-- An array of all fields gives an entry for each. -/
theorem entries_of_readItems {format : RecordFormat α} :
    ∀ {fields : List (Field α)} {values : List Json} {done : Nat} {record result : α},
      values.length = fields.length →
      readItems format done fields record values = .ok result →
      ∃ entries : List (Entry α), entries.map (·.field) = fields ∧
        entries.map Entry.value = values ∧ Entry.setAll entries record = result
  | [], [], _, _, _, _, h => ⟨[], rfl, rfl, Except.ok.inj h⟩
  | field :: fields, value :: values, done, record, result, hlength, h => by
    rw [readItems] at h
    split at h
    · exact nomatch h
    · next set hread =>
      obtain ⟨entries, hfields, hvalues, hset⟩ :=
        entries_of_readItems (Nat.succ.inj hlength) h
      exact ⟨⟨field, value, set, hread⟩ :: entries, by rw [List.map_cons, hfields],
        by rw [List.map_cons, hvalues], hset⟩

/-- Entries may be set in any order. -/
theorem setAll_perm {entries entries' : List (Entry α)}
    (hcommute : (entries.map (·.field)).Pairwise Field.Commutes) (h : entries.Perm entries')
    (record : α) : Entry.setAll entries record = Entry.setAll entries' record := by
  have hpairs :
      entries.Pairwise fun d e => ∀ record, d.set (e.set record) = e.set (d.set record) :=
    (List.pairwise_map.1 hcommute).imp fun {d e} hde record => hde _ _ _ _ d.read e.read record
  refine h.foldl_eq' (fun d hd e he r => ?_) record
  exact hpairs.forall_of_forall_of_flip (fun _ _ _ => rfl)
    (hpairs.imp fun hde r => (hde r).symm) he hd r

/-- Members in another order are those of entries in another order. -/
theorem entries_of_perm {entries : List (Entry α)} {members : List (String × Json)}
    (h : members.Perm (entries.map Entry.member)) :
    ∃ entries' : List (Entry α), members = entries'.map Entry.member ∧
      entries'.Perm entries := by
  have hself :
      List.Forall₂ (fun m e => m = Entry.member e) (entries.map Entry.member) entries :=
    List.forall₂_map_left_iff.2 (List.forall₂_same.2 fun _ _ => rfl)
  obtain ⟨entries', hentries', hperm⟩ := List.perm_comp_forall₂ h hself
  refine ⟨entries', ?_, hperm⟩
  rw [← List.forall₂_eq_eq_eq, List.forall₂_map_right_iff]
  exact hentries'

theorem names_sublist (fields : List (Field α)) :
    (fields.map (·.name)).Sublist (fields.flatMap Field.names) := by
  induction fields with
  | nil => exact .slnil
  | cons f rest ih =>
    rw [List.map_cons, List.flatMap_cons, Field.names, List.cons_append]
    exact (ih.trans (List.sublist_append_right _ _)).cons_cons _

/-- An object with every field, in whatever order, is read as the array of the
fields is. -/
theorem decode_object {format : RecordFormat α} (hregular : format.IsRegular)
    {values : List Json} {result : α} (hlength : values.length = format.fields.length)
    (harray : format.decode (.array values) = .ok result) {members : List (String × Json)}
    (hperm : members.Perm ((format.fields.map (·.name)).zip values)) :
    format.decode (.object members) = .ok result := by
  obtain ⟨entries, hfields, hvalues, hset⟩ := entries_of_readItems hlength harray
  have hnames : entries.map Entry.name = format.fields.map (·.name) := by
    rw [← hfields, List.map_map]
    rfl
  have hzip : (format.fields.map (·.name)).zip values = entries.map Entry.member := by
    rw [← hnames, ← hvalues, List.zip_map']
    rfl
  obtain ⟨entries', rfl, hentries⟩ := entries_of_perm (hzip ▸ hperm)
  have hnodup : (entries'.map Entry.name ++ []).Nodup := by
    rw [List.append_nil, (hentries.map Entry.name).nodup_iff, hnames]
    exact hregular.names.sublist (names_sublist _)
  have hmem : ∀ e ∈ entries', e.field ∈ format.fields := by
    intro e he
    rw [← hfields]
    exact List.mem_map.2 ⟨e, hentries.mem_iff.1 he, rfl⟩
  have hall : ∀ f ∈ format.fields, f.name ∈ (entries'.map Entry.name).reverse ++ [] := by
    intro f hf
    rw [List.append_nil, List.mem_reverse, (hentries.map Entry.name).mem_iff, hnames]
    exact List.mem_map.2 ⟨f, hf, rfl⟩
  have hmissing : format.fields.find? (fun f => f.presence == .required
      && !((entries'.map Entry.name).reverse ++ []).contains f.name) = none := by
    rw [List.find?_eq_none]
    intro f hf
    rw [List.contains_iff_mem.2 (hall f hf), Bool.not_true, Bool.and_false]
    exact Bool.false_ne_true
  rw [decode, readMembers_entries hregular.names _ hmem hnodup]
  simp only [hmissing]
  rw [← hset, setAll_perm (hfields ▸ hregular.commute) hentries.symm]

end RecordFormat

/-! ## Maps -/

section Maps

variable {α : Type} {decode : Decoder α}

/-- Members are read as entries if their keys are the same and each document is
read as the value. -/
def ReadAs (decode : Decoder α) (entries : List (String × α)) (members : List (String × Json)) :
    Prop :=
  List.Forall₂ (fun e m => m.1 = e.1 ∧ decode m.2 = .ok e.2) entries members

theorem readAs_map {toJson : α → Json} {entries : List (String × α)}
    (h : ∀ e ∈ entries, decode (toJson e.2) = .ok e.2) :
    ReadAs decode entries (entries.map fun e => (e.1, toJson e.2)) :=
  List.forall₂_map_right_iff.2 (List.forall₂_same.2 fun e he => ⟨rfl, h e he⟩)

theorem ReadAs.keys {entries : List (String × α)} {members : List (String × Json)}
    (h : ReadAs decode entries members) : members.map (·.1) = entries.map (·.1) := by
  induction h with
  | nil => rfl
  | cons hm _ ih => rw [List.map_cons, List.map_cons, hm.1, ih]

/-- Entries are put into a map one after the other. -/
theorem readEntries_eq_ok {entries : List (String × α)} {members : List (String × Json)}
    (h : ReadAs decode entries members) (map : Keyed α) :
    readEntries decode map members
      = .ok (entries.foldl (fun m e => m.insert e.1 e.2) map) := by
  induction h generalizing map with
  | nil => rfl
  | @cons e m _ _ hm _ ih =>
    obtain ⟨hkey, hvalue⟩ := hm
    rw [readEntries, hvalue, hkey]
    exact ih _

/-- A map is read from an object of its entries. -/
theorem readKeyed_object (map : Keyed α) {members : List (String × Json)}
    (h : ReadAs decode map.entries members) : readKeyed decode (.object members) = .ok map := by
  rw [readKeyed, readEntries_eq_ok h]
  exact congrArg Except.ok map.ofList_entries

end Maps

/-! ## Lists -/

/-- A list is read from an array of its items. -/
theorem readEach_map {α : Type} {decode : Decoder α} {toJson : α → Json} :
    ∀ {items : List α}, (∀ a ∈ items, decode (toJson a) = .ok a) →
      readEach decode (items.map toJson) = .ok items
  | [], _ => rfl
  | a :: rest, h => by
    rw [List.map_cons, readEach, h a List.mem_cons_self,
      readEach_map fun b hb => h b (List.mem_cons_of_mem _ hb)]

/-! ## Values -/

section Values

variable {α : Type} {decode : Decoder α} {embedded : String → Option Json}

theorem member?_eq_none {key : String} {members : List (String × Json)}
    (h : key ∉ members.map (·.1)) : (object members).member? key = none := by
  rw [member?, Option.map_eq_none_iff, List.find?_eq_none]
  intro m hm heq
  exact h (List.mem_map.2 ⟨m, hm, beq_iff_eq.1 heq⟩)

theorem depthOfMembers_le_iff {n : Nat} {members : List (String × Json)} :
    depthOfMembers members ≤ n ↔ ∀ m ∈ members, m.2.depth ≤ n := by
  induction members with
  | nil => simp [depthOfMembers]
  | cons m rest ih => rw [depthOfMembers, Nat.max_le, ih, List.forall_mem_cons]

theorem toValue?_ofNat {n : Nat} (h : n < Numeric.naturalBound) :
    toValue? embedded (ofNat n) = some (ofNat n) := by
  rw [ofNat, toValue?, Number.inRange, Number.reading_ofNat h]
  rfl

/-- A document with the value of another. -/
theorem membersToValues?_cons {key : String} {j value : Json}
    {rest values : List (String × Json)} (hj : toValue? embedded j = some value)
    (hrest : membersToValues? embedded rest = some values) :
    membersToValues? embedded ((key, j) :: rest) = some (placeMember key value values) := by
  rw [membersToValues?, hj, hrest]

/-- A member without a value leaves the object without one. -/
theorem membersToValues?_eq_none {m : String × Json} (h : toValue? embedded m.2 = none) :
    ∀ {members : List (String × Json)}, m ∈ members → membersToValues? embedded members = none
  | (key, j) :: rest, hm => by
    rw [membersToValues?]
    rcases List.mem_cons.1 hm with rfl | hm
    · rw [h]
    · rw [membersToValues?_eq_none h hm]
      cases toValue? embedded j <;> rfl

theorem toValue?_object_eq_none {members : List (String × Json)}
    (hfirst : embeds members = false)
    {m : String × Json} (h : toValue? embedded m.2 = none) (hm : m ∈ members) :
    toValue? embedded (.object members) = none := by
  rw [toValue?, hfirst, membersToValues?_eq_none h hm]
  rfl

/-- A member with a new key is added. -/
theorem placeMember_perm {key : String} (value : Json) :
    ∀ {members : List (String × Json)}, key ∉ members.map (·.1) →
      (placeMember key value members).Perm ((key, value) :: members)
  | [], _ => .refl _
  | m :: rest, h => by
    rw [List.map_cons, List.mem_cons, not_or] at h
    rw [placeMember]
    split
    · exact .refl _
    · rw [if_neg h.1]
      exact ((placeMember_perm value h.2).cons m).trans (.swap _ _ _)

/-- A member whose key comes before all others is put first. -/
theorem placeMember_of_lt {key : String} (value : Json) {members : List (String × Json)}
    (h : ∀ m ∈ members, key < m.1) :
    placeMember key value members = (key, value) :: members := by
  cases members with
  | nil => rfl
  | cons m rest => rw [placeMember, if_pos (h m List.mem_cons_self)]

/-- Documents and their values, under the same keys. -/
def HaveValues (embedded : String → Option Json)
    (members values : List (String × Json)) : Prop :=
  List.Forall₂ (fun m v => v.1 = m.1 ∧ toValue? embedded m.2 = some v.2) members values

theorem haveValues_zip (names : List String) {items values : List Json}
    (h : List.Forall₂ (fun j v => toValue? embedded j = some v) items values) :
    HaveValues embedded (names.zip items) (names.zip values) := by
  induction h generalizing names with
  | nil => rw [List.zip_nil_right]; exact .nil
  | cons hv _ ih =>
    cases names with
    | nil => exact .nil
    | cons name names => exact .cons ⟨rfl, hv⟩ (ih names)

/-- Of members with distinct keys none is lost. -/
theorem membersToValues?_perm {members values : List (String × Json)}
    (h : HaveValues embedded members values) (hnodup : (values.map (·.1)).Nodup) :
    ∃ sorted, membersToValues? embedded members = some sorted ∧ sorted.Perm values := by
  induction h with
  | nil => exact ⟨[], rfl, .refl _⟩
  | @cons m v _ rest hm _ ih =>
    obtain ⟨hkey, hvalue⟩ := hm
    obtain ⟨hnew, hrest⟩ := List.nodup_cons.1 hnodup
    obtain ⟨sorted, hsorted, hperm⟩ := ih hrest
    have hnot : v.1 ∉ sorted.map (·.1) := by
      rwa [(hperm.map (·.1)).mem_iff]
    refine ⟨_, membersToValues?_cons hvalue hsorted, ?_⟩
    rw [← hkey]
    exact (placeMember_perm v.2 hnot).trans (hperm.cons v)

/-- The value of an object with distinct keys is one with the same members. -/
theorem toValue?_object {members values : List (String × Json)}
    (h : HaveValues embedded members values) (hnodup : (values.map (·.1)).Nodup)
    (hfirst : embeds members = false) :
    ∃ sorted, toValue? embedded (.object members) = some (.object sorted)
      ∧ sorted.Perm values := by
  obtain ⟨sorted, hsorted, hperm⟩ := membersToValues?_perm h hnodup
  refine ⟨sorted, ?_, hperm⟩
  rw [toValue?, hfirst, hsorted]
  rfl

/-- An object with every field of a record has a value that is read as the array of
the fields' values is. -/
theorem RecordFormat.decode_value {format : RecordFormat α} (hregular : format.IsRegular)
    {items values : List Json} {result : α}
    (hvalues : List.Forall₂ (fun j v => toValue? embedded j = some v) items values)
    (hlength : values.length = format.fields.length)
    (harray : format.decode (.array values) = .ok result)
    (hfirst : embeds ((format.fields.map (·.name)).zip items) = false) :
    ∃ members,
      toValue? embedded (.object ((format.fields.map (·.name)).zip items))
          = some (.object members)
        ∧ (members.map (·.1)).Perm (format.fields.map (·.name))
        ∧ format.decode (.object members) = .ok result := by
  have hnames : ((format.fields.map (·.name)).zip values).map (·.1)
      = format.fields.map (·.name) :=
    List.map_fst_zip (by rw [List.length_map, hlength])
  have hnodup : (((format.fields.map (·.name)).zip values).map (·.1)).Nodup := by
    rw [hnames]
    exact hregular.names.sublist (names_sublist _)
  obtain ⟨members, hmembers, hperm⟩ :=
    toValue?_object (haveValues_zip (format.fields.map (·.name)) hvalues) hnodup hfirst
  exact ⟨members, hmembers, hnames ▸ hperm.map (·.1),
    decode_object hregular hlength harray hperm⟩

/-- Of ascending entries whose documents have values that are read back, the
values are read back as those entries. -/
theorem membersToValues?_readAs {toJson : α → Json} :
    ∀ {entries : List (String × α)}, entries.Pairwise (fun d e => d.1 < e.1) →
      (∀ e ∈ entries, ∃ v, toValue? embedded (toJson e.2) = some v ∧ decode v = .ok e.2) →
      ∃ members,
        membersToValues? embedded (entries.map fun e => (e.1, toJson e.2)) = some members
          ∧ ReadAs decode entries members
  | [], _, _ => ⟨[], rfl, .nil⟩
  | e :: rest, hascending, h => by
    obtain ⟨hfirst, hrest⟩ := List.pairwise_cons.1 hascending
    obtain ⟨v, hv, hread⟩ := h e List.mem_cons_self
    obtain ⟨members, hmembers, hreadAs⟩ :=
      membersToValues?_readAs hrest fun d hd => h d (List.mem_cons_of_mem _ hd)
    have hlt : ∀ m ∈ members, e.1 < m.1 := by
      intro m hm
      have hkey : m.1 ∈ rest.map (·.1) := hreadAs.keys ▸ List.mem_map_of_mem hm
      obtain ⟨d, hd, heq⟩ := List.mem_map.1 hkey
      exact heq ▸ hfirst d hd
    refine ⟨(e.1, v) :: members, ?_, .cons ⟨rfl, hread⟩ hreadAs⟩
    rw [List.map_cons, membersToValues?_cons hv hmembers, placeMember_of_lt v hlt]

/-- The value of a map's object is read back as the map, unless its first key is
that of an embedded document. -/
theorem toValue?_keyed {toJson : α → Json} (map : Keyed α)
    (hfirst : embeds (map.entries.map fun e => (e.1, toJson e.2)) = false)
    (h : ∀ e ∈ map.entries, ∃ v, toValue? embedded (toJson e.2) = some v ∧ decode v = .ok e.2) :
    ∃ members,
      toValue? embedded (.object (map.entries.map fun e => (e.1, toJson e.2)))
          = some (.object members)
        ∧ readKeyed decode (.object members) = .ok map := by
  obtain ⟨members, hmembers, hreadAs⟩ := membersToValues?_readAs map.ascending h
  refine ⟨members, ?_, readKeyed_object map hreadAs⟩
  rw [toValue?, hfirst, hmembers]
  rfl

end Values

end SchemaPlan.Json
