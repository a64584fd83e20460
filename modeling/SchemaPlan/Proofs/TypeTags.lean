import Mathlib.Data.List.Basic
import SchemaPlan.Model.DataType
set_option autoImplicit false

/-!
# Which spellings name a type

A spelling names a type if its lower case is the tag, and lower case is that of the whole
Unicode standard.  Still a type is named by its tag up to the case of the letters from A
to Z, and by nothing else (`DataType.names_type_iff`).

What has to be excluded is a character beyond ASCII whose lower case is part of a tag.
The Kelvin sign turns into k, which no tag holds; `İ` turns into i and a dot above, which
is no ASCII character; the others turn into one character beyond ASCII
(`Text.lowerChar_beyond`).

A capital sigma has two small forms, and what stands around it decides between them.
Neither is in a tag, so nothing depends on the choice; `Text.IsLowercase` leaves it open.
-/

namespace SchemaPlan

namespace Text

/-! ## Characters -/

/-- The last code point in the lower case of a run. -/
def CaseRun.lastLower (run : CaseRun) : Nat := run.lower run.2.1

/-- The lower case of a run lies beyond ASCII, on one side of the surrogates. -/
def CaseRun.IsBeyond (run : CaseRun) : Prop :=
  128 ≤ run.2.2.2 ∧ (run.lastLower < 0xD800 ∨ 0xDFFF < run.2.2.2 ∧ run.lastLower < 0x110000)

instance (run : CaseRun) : Decidable run.IsBeyond := inferInstanceAs (Decidable (_ ∧ _))

/-- The run of the Kelvin sign alone. -/
def kelvin : CaseRun := (0x212A, 0x212A, 1, 'k'.toNat)

/-- But for the Kelvin sign no capital beyond ASCII has an ASCII letter as lower case. -/
theorem isBeyond_of_mem_caseRuns : ∀ run ∈ caseRuns, run = kelvin ∨ run.IsBeyond := by
  decide +kernel

theorem CaseRun.covers_iff {run : CaseRun} {code : Nat} : run.covers code = true ↔
    (run.1 ≤ code ∧ code ≤ run.2.1) ∧ (code - run.1) % run.2.2.1 = 0 := by
  simp [covers]

theorem CaseRun.IsBeyond.toNat_lower {run : CaseRun} (h : run.IsBeyond) {code : Nat}
    (hcovers : run.covers code = true) : 128 ≤ (Char.ofNat (run.lower code)).toNat := by
  obtain ⟨⟨hfirst, hlast⟩, -⟩ := CaseRun.covers_iff.1 hcovers
  obtain ⟨hbeyond, hvalid⟩ := h
  have hle : run.lower code ≤ run.lastLower := by
    rw [lastLower, lower, lower]
    omega
  have hge : run.2.2.2 ≤ run.lower code := Nat.le_add_right _ _
  have hchar : (run.lower code).isValidChar := by
    rcases hvalid with hbelow | ⟨habove, hlimit⟩
    · exact .inl (by omega)
    · exact .inr ⟨by omega, by omega⟩
  rw [Char.ofNat, dif_pos hchar]
  exact Nat.le_trans hbeyond hge

/-- The lower case of a character beyond ASCII is k, or has a character beyond ASCII. -/
theorem lowerChar_beyond {c : Char} (h : 128 ≤ c.toNat) :
    lowerChar c = ['k'] ∨ ∃ d ∈ lowerChar c, 128 ≤ d.toNat := by
  rw [lowerChar, if_neg (Nat.not_lt.2 h)]
  split
  · exact .inr ⟨'\u0307', by decide, by decide⟩
  · split
    · next run hrun =>
      have hcovers := List.find?_some hrun
      rcases isBeyond_of_mem_caseRuns run (List.mem_of_find?_eq_some hrun) with rfl | hbeyond
      · obtain ⟨⟨hfirst, hlast⟩, -⟩ := CaseRun.covers_iff.1 hcovers
        have hcode : c.toNat = 0x212A := Nat.le_antisymm hlast hfirst
        rw [hcode]
        exact .inl rfl
      · exact .inr ⟨_, List.mem_singleton_self _, hbeyond.toNat_lower hcovers⟩
    · exact .inr ⟨c, List.mem_singleton_self c, h⟩

/-- The ASCII mapping leaves what is beyond ASCII alone. -/
theorem toLower_beyond {c : Char} (h : 128 ≤ c.toNat) : c.toLower = c := by
  refine dif_neg fun hcapital => ?_
  have hle : c.toNat ≤ 'Z'.toNat := hcapital.2
  have hZ : 'Z'.toNat = 90 := rfl
  omega

/-! ## Texts -/

/-- The small forms of a character. -/
def lowerForms (c : Char) : List (List Char) :=
  if c = 'Σ' then [['σ'], ['ς']] else [lowerChar c]

/-- A text with each character in one of its small forms. -/
inductive IsLowercase : List Char → List Char → Prop
  | nil : IsLowercase [] []
  | cons {c : Char} {form text lower : List Char} :
    form ∈ lowerForms c → IsLowercase text lower → IsLowercase (c :: text) (form ++ lower)

theorem lowerChar_mem_lowerForms (c : Char) : lowerChar c ∈ lowerForms c := by
  rw [lowerForms]
  split
  · next h =>
    subst h
    decide +kernel
  · exact List.mem_singleton_self _

/-- A text in lower case has each character in a small form, sigmas in the common one. -/
theorem isLowercase_lowercase (text : String) :
    IsLowercase text.toList (lowercase text).toList := by
  rw [lowercase, String.toList_ofList]
  induction text.toList with
  | nil => exact .nil
  | cons c rest ih => exact .cons (lowerChar_mem_lowerForms c) ih

theorem lowerForms_ascii {c : Char} (h : c.toNat < 128) : lowerForms c = [[c.toLower]] := by
  rw [lowerForms, lowerChar, if_pos h, if_neg]
  rintro rfl
  exact absurd h (by decide)

/-- No small form of a character beyond ASCII is made of ASCII letters other than k. -/
theorem lowerForms_beyond {c : Char} (h : 128 ≤ c.toNat) {form : List Char}
    (hform : form ∈ lowerForms c) : ∃ d ∈ form, d = 'k' ∨ 128 ≤ d.toNat := by
  rw [lowerForms] at hform
  split at hform
  · rcases List.mem_pair.1 hform with rfl | rfl
    · exact ⟨'σ', by decide, .inr (by decide)⟩
    · exact ⟨'ς', by decide, .inr (by decide)⟩
  · obtain rfl := List.mem_singleton.1 hform
    rcases lowerChar_beyond h with hk | ⟨d, hd, hbeyond⟩
    · exact ⟨'k', hk ▸ List.mem_singleton_self _, .inl rfl⟩
    · exact ⟨d, hd, .inr hbeyond⟩

/-- A text of ASCII characters other than k. -/
def IsTagText (text : List Char) : Prop := ∀ c ∈ text, c ≠ 'k' ∧ c.toNat < 128

instance (text : List Char) : Decidable (IsTagText text) := List.decidableBAll _ text

theorem IsLowercase.of_ascii {text lower : List Char} (h : IsLowercase text lower)
    (hascii : ∀ c ∈ text, c.toNat < 128) : lower = text.map Char.toLower := by
  induction h with
  | nil => rfl
  | @cons c form text lower hform _ ih =>
    obtain ⟨hc, htext⟩ := List.forall_mem_cons.1 hascii
    rw [lowerForms_ascii hc] at hform
    rw [List.mem_singleton.1 hform, ih htext]
    rfl

/-- What is a tag's text in lower case is ASCII. -/
theorem IsLowercase.ascii {text lower : List Char} (h : IsLowercase text lower)
    (htag : IsTagText lower) : ∀ c ∈ text, c.toNat < 128 := by
  induction h with
  | nil => exact fun _ hc => nomatch hc
  | @cons c form text lower hform _ ih =>
    obtain ⟨hleft, hright⟩ := List.forall_mem_append.1 htag
    refine List.forall_mem_cons.2 ⟨Nat.not_le.1 fun hbeyond => ?_, ih hright⟩
    obtain ⟨d, hd, hcases⟩ := lowerForms_beyond hbeyond hform
    obtain ⟨hk, hlt⟩ := hleft d hd
    rcases hcases with heq | hge
    · exact hk heq
    · exact absurd hlt (Nat.not_lt.2 hge)

/-- In lower case a text is a tag's text exactly if it is so up to the case of the letters
from A to Z. -/
theorem IsLowercase.eq_iff {text lower tag : List Char} (h : IsLowercase text lower)
    (htag : IsTagText tag) : lower = tag ↔ text.map Char.toLower = tag := by
  constructor
  · rintro rfl
    exact (h.of_ascii (h.ascii htag)).symm
  · rintro rfl
    refine h.of_ascii fun c hc => Nat.not_le.1 fun hbeyond => ?_
    have hlt := (htag c.toLower (List.mem_map_of_mem hc)).2
    rw [toLower_beyond hbeyond] at hlt
    exact absurd hlt (Nat.not_lt.2 hbeyond)

end Text

namespace DataType

theorem isTagText_tag (d : DataType) : Text.IsTagText d.tag.toList := by
  cases d <;> decide

/-- A spelling is a tag in lower case, whatever form its sigmas take, exactly if it names
the type. -/
theorem ofTag?_eq_some_iff_of_isLowercase {spelling : String} {lower : List Char}
    (h : Text.IsLowercase spelling.toList lower) (d : DataType) :
    ofTag? spelling = some d ↔ lower = d.tag.toList := by
  rw [ofTag?_eq_some_iff, ← String.toList_inj,
    (Text.isLowercase_lowercase spelling).eq_iff d.isTagText_tag, h.eq_iff d.isTagText_tag]

/-- A spelling names a type exactly if it is as long as the tag and is the tag once its
letters from A to Z are small; if it has a character beyond ASCII it names none.  The
answer is the same for every way of taking its lower case. -/
theorem names_type_iff (spelling : String) :
    (∀ d, ofTag? spelling = some d ↔
      spelling.length = d.tag.length ∧ spelling.toLower = d.tag) ∧
    ((∃ c ∈ spelling.toList, 128 ≤ c.toNat) → ofTag? spelling = none) ∧
    ∀ lower, Text.IsLowercase spelling.toList lower →
      ∀ d, ofTag? spelling = some d ↔ lower = d.tag.toList := by
  have hlower := Text.isLowercase_lowercase spelling
  refine ⟨fun d => ?_, ?_, fun lower h => ofTag?_eq_some_iff_of_isLowercase h⟩
  · rw [ofTag?_eq_some_iff_of_isLowercase hlower, hlower.eq_iff d.isTagText_tag,
      ← String.toList_map, String.toList_inj]
    constructor
    · intro h
      exact ⟨h ▸ String.length_map.symm, h⟩
    · exact fun h => h.2
  · rintro ⟨c, hc, hbeyond⟩
    refine Option.eq_none_iff_forall_ne_some.2 fun d hd => ?_
    have htag : Text.IsTagText (Text.lowercase spelling).toList := by
      rw [(ofTag?_eq_some_iff_of_isLowercase hlower d).1 hd]
      exact d.isTagText_tag
    exact absurd (hlower.ascii htag c hc) (Nat.not_lt.2 hbeyond)

end DataType

end SchemaPlan
