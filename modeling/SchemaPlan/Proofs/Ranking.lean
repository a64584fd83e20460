import Mathlib.Data.List.Perm.Subperm
import SchemaPlan.Proofs.Pairing
set_option autoImplicit false

/-!
# Pairing by rank

What the greedy scan makes of entries in ascending order, said without the scan: within
each class the entry of a rank on the one side goes with the entry of that rank on the
other, and whatever has no partner stays alone (`Pairing.ByRank`, `pairUp_byRank`).  Such
a pairing keeps the order within a class, and no way of pairing entries of one class has
more pairs (`Pairing.ByRank.isMaximum`).
-/

namespace SchemaPlan

/-! ## Matchings between two sides -/

section Matchings

variable {α γ : Type} [DecidableEq γ]

/-- The entries of a class, in the order given. -/
def ofClass (classOf : α → γ) (k : γ) (entries : List (String × α)) : List (String × α) :=
  entries.filter fun e => classOf e.2 = k

/-- Pairs between two sides: both parts are of one class, and no name is in two pairs. -/
structure IsMatching (classOf : α → γ) (gone new : List (String × α))
    (pairs : List ((String × α) × (String × α))) : Prop where
  parts : ∀ p ∈ pairs, p.1 ∈ gone ∧ p.2 ∈ new
  alike : ∀ p ∈ pairs, classOf p.1.2 = classOf p.2.2
  gone_once : (pairs.map (·.1.1)).Nodup
  new_once : (pairs.map (·.2.1)).Nodup

/-- A pairing by rank of two sides in ascending order. -/
structure Pairing.ByRank (classOf : α → γ) (gone new : List (String × α))
    (pairing : Pairing (String × α) (String × α)) : Prop where
  /-- The pairs are the entries of one rank in one class. -/
  mem_pairs : ∀ {a b : String × α}, (a, b) ∈ pairing.pairs ↔ ∃ (k : γ) (rank : Nat),
    (ofClass classOf k gone)[rank]? = some a ∧ (ofClass classOf k new)[rank]? = some b
  ascending : pairing.pairs.Pairwise fun p q => p.1.1 < q.1.1
  /-- What is in no pair stays alone, in the order given. -/
  gone_alone : pairing.gone = gone.filter fun a => a.1 ∉ pairing.pairs.map (·.1.1)
  new_alone : pairing.new = new.filter fun b => b.1 ∉ pairing.pairs.map (·.2.1)

/-- A pairing that keeps the order within a class and has as many pairs as there can be. -/
structure Pairing.IsMaximum (classOf : α → γ) (gone new : List (String × α))
    (pairing : Pairing (String × α) (String × α)) : Prop where
  matching : IsMatching classOf gone new pairing.pairs
  ordered : ∀ p ∈ pairing.pairs, ∀ q ∈ pairing.pairs, classOf p.1.2 = classOf q.1.2 →
    p.1.1 < q.1.1 → p.2.1 < q.2.1
  length_le : ∀ pairs, IsMatching classOf gone new pairs → pairs.length ≤ pairing.pairs.length
  /-- No two that stay alone are of one class. -/
  apart : ∀ a ∈ pairing.gone, ∀ b ∈ pairing.new, classOf a.2 ≠ classOf b.2

end Matchings

/-! ## Ranks -/

section Ranks

variable {α γ : Type} [DecidableEq γ] {classOf : α → γ} {entries : List (String × α)}

theorem mem_ofClass {k : γ} {e : String × α} :
    e ∈ ofClass classOf k entries ↔ e ∈ entries ∧ classOf e.2 = k := by
  rw [ofClass, List.mem_filter, decide_eq_true_iff]

theorem mem_ofClass_of_getElem? {k : γ} {rank : Nat} {e : String × α}
    (h : (ofClass classOf k entries)[rank]? = some e) : e ∈ entries ∧ classOf e.2 = k :=
  mem_ofClass.1 (List.mem_of_getElem? h)

theorem ofClass_ascending (h : entries.Pairwise fun d e => d.1 < e.1) (k : γ) :
    (ofClass classOf k entries).Pairwise fun d e => d.1 < e.1 :=
  h.filter _

/-- In ascending order a name has one entry. -/
theorem eq_of_name_eq (h : entries.Pairwise fun d e => d.1 < e.1) {d e : String × α}
    (hd : d ∈ entries) (he : e ∈ entries) (hname : d.1 = e.1) : d = e :=
  List.inj_on_of_nodup_map (Keyed.nodup_of_ascending h) hd he hname

/-- In ascending order the name of the lower rank is the lesser one. -/
theorem name_lt_iff_rank_lt (h : entries.Pairwise fun d e => d.1 < e.1) {i j : Nat}
    {d e : String × α} (hi : entries[i]? = some d) (hj : entries[j]? = some e) :
    d.1 < e.1 ↔ i < j := by
  have hlt : ∀ {i j : Nat} {d e : String × α}, entries[i]? = some d → entries[j]? = some e →
      i < j → d.1 < e.1 := by
    intro i j d e hi hj hij
    obtain ⟨hi', rfl⟩ := List.getElem?_eq_some_iff.1 hi
    obtain ⟨hj', rfl⟩ := List.getElem?_eq_some_iff.1 hj
    exact List.pairwise_iff_getElem.1 h i j hi' hj' hij
  constructor
  · intro hname
    rcases Nat.lt_trichotomy i j with hij | rfl | hji
    · exact hij
    · obtain rfl := Option.some.inj (hi.symm.trans hj)
      exact absurd hname (String.lt_irrefl _)
    · exact absurd (String.lt_trans hname (hlt hj hi hji)) (String.lt_irrefl _)
  · exact hlt hi hj

/-- A list is not longer than another if it has no more elements of any class. -/
theorem length_le_of_classes {δ : Type} (f : δ → γ) {l m : List δ}
    (h : ∀ k, (l.filter fun x => f x = k).length ≤ (m.filter fun x => f x = k).length) :
    l.length ≤ m.length := by
  have hcount : ∀ (k : γ) (list : List δ),
      (list.map f).count k = (list.filter fun x => f x = k).length := by
    intro k list
    rw [List.count_eq_countP, List.countP_map, List.countP_eq_length_filter]
    congr 2
  have hsub : (l.map f).Subperm (m.map f) := by
    refine List.subperm_iff_count.2 fun k => ?_
    rw [hcount, hcount]
    exact h k
  have hlength := hsub.length_le
  rwa [List.length_map, List.length_map] at hlength

end Ranks

/-! ## Pairings by rank are maximum matchings -/

section Maximum

variable {α γ : Type} [DecidableEq γ] {classOf : α → γ} {gone new : List (String × α)}
  {pairing : Pairing (String × α) (String × α)}

/-- Where all entries of a class are in pairs, no more pairs of that class can be made,
since each has a part of its own among them. -/
theorem length_filter_le {entries : List (String × α)}
    (hentries : entries.Pairwise fun d e => d.1 < e.1)
    {part : (String × α) × (String × α) → String × α}
    {pairs others : List ((String × α) × (String × α))}
    (hpairs : ∀ p ∈ pairs, part p ∈ entries) (hothers : ∀ p ∈ others, part p ∈ entries)
    (honce : (others.map fun p => (part p).1).Nodup) {k : γ}
    (hall : ∀ e ∈ entries, classOf e.2 = k → e.1 ∈ pairs.map fun p => (part p).1) :
    (others.filter fun p => classOf (part p).2 = k).length
      ≤ (pairs.filter fun p => classOf (part p).2 = k).length := by
  have hsub : (others.filter fun p => classOf (part p).2 = k).map (fun p => (part p).1)
      ⊆ (pairs.filter fun p => classOf (part p).2 = k).map fun p => (part p).1 := by
    intro name hname
    obtain ⟨p, hp, rfl⟩ := List.mem_map.1 hname
    obtain ⟨hp, hk⟩ := List.mem_filter.1 hp
    obtain ⟨q, hq, heq⟩ := List.mem_map.1 (hall _ (hothers p hp) (of_decide_eq_true hk))
    have hpart := eq_of_name_eq hentries (hpairs q hq) (hothers p hp) heq
    exact List.mem_map.2 ⟨q, List.mem_filter.2 ⟨hq, hpart ▸ hk⟩, heq⟩
  have hnodup :
      ((others.filter fun p => classOf (part p).2 = k).map fun p => (part p).1).Nodup :=
    honce.sublist (List.filter_sublist.map _)
  have hlength := hnodup.length_le_of_subset hsub
  rwa [List.length_map, List.length_map] at hlength

namespace Pairing.ByRank

theorem parts (h : pairing.ByRank classOf gone new) {p : (String × α) × (String × α)}
    (hp : p ∈ pairing.pairs) : p.1 ∈ gone ∧ p.2 ∈ new ∧ classOf p.1.2 = classOf p.2.2 := by
  obtain ⟨k, rank, hfirst, hsecond⟩ := h.mem_pairs.1 hp
  obtain ⟨hgone, hk⟩ := mem_ofClass_of_getElem? hfirst
  obtain ⟨hnew, hk'⟩ := mem_ofClass_of_getElem? hsecond
  exact ⟨hgone, hnew, hk.trans hk'.symm⟩

/-- Within a class the pairs keep the order. -/
theorem ordered (h : pairing.ByRank classOf gone new)
    (hgone : gone.Pairwise fun d e => d.1 < e.1) (hnew : new.Pairwise fun d e => d.1 < e.1)
    {p q : (String × α) × (String × α)} (hp : p ∈ pairing.pairs) (hq : q ∈ pairing.pairs)
    (hclass : classOf p.1.2 = classOf q.1.2) (hlt : p.1.1 < q.1.1) : p.2.1 < q.2.1 := by
  obtain ⟨k, i, hp₁, hp₂⟩ := h.mem_pairs.1 hp
  obtain ⟨k', j, hq₁, hq₂⟩ := h.mem_pairs.1 hq
  have hk := (mem_ofClass_of_getElem? hp₁).2
  have hk' := (mem_ofClass_of_getElem? hq₁).2
  obtain rfl := hk.symm.trans (hclass.trans hk')
  have hrank := (name_lt_iff_rank_lt (ofClass_ascending hgone k) hp₁ hq₁).1 hlt
  exact (name_lt_iff_rank_lt (ofClass_ascending hnew k) hp₂ hq₂).2 hrank

theorem isMatching (h : pairing.ByRank classOf gone new)
    (hgone : gone.Pairwise fun d e => d.1 < e.1) (hnew : new.Pairwise fun d e => d.1 < e.1) :
    IsMatching classOf gone new pairing.pairs := by
  refine ⟨fun p hp => ⟨(h.parts hp).1, (h.parts hp).2.1⟩, fun p hp => (h.parts hp).2.2, ?_, ?_⟩
  · exact List.pairwise_map.2 (h.ascending.imp ne_of_lt)
  · refine List.pairwise_map.2 (h.ascending.imp_of_mem fun {p q} hp hq hlt heq => ?_)
    obtain ⟨-, hp₂, hpclass⟩ := h.parts hp
    obtain ⟨-, hq₂, hqclass⟩ := h.parts hq
    have hsecond := eq_of_name_eq hnew hp₂ hq₂ heq
    have hclass : classOf p.1.2 = classOf q.1.2 := by rw [hpclass, hqclass, hsecond]
    exact absurd (heq ▸ h.ordered hgone hnew hp hq hclass hlt) (String.lt_irrefl _)

/-- Of two that stay alone one would have the rank of a partner, were they of one class. -/
theorem apart (h : pairing.ByRank classOf gone new) {a b : String × α} (ha : a ∈ pairing.gone)
    (hb : b ∈ pairing.new) : classOf a.2 ≠ classOf b.2 := by
  intro hclass
  rw [h.gone_alone, List.mem_filter, decide_eq_true_iff] at ha
  rw [h.new_alone, List.mem_filter, decide_eq_true_iff] at hb
  obtain ⟨i, hi⟩ := List.mem_iff_getElem?.1 (mem_ofClass.2 ⟨ha.1, hclass⟩)
  obtain ⟨j, hj⟩ := List.mem_iff_getElem?.1 (mem_ofClass.2 ⟨hb.1, (rfl : classOf b.2 = _)⟩)
  rcases Nat.le_total i j with hij | hji
  · have hlength := (List.getElem?_eq_some_iff.1 hj).1
    have hpartner := List.getElem?_eq_getElem (Nat.lt_of_le_of_lt hij hlength)
    exact ha.2 (List.mem_map.2 ⟨_, h.mem_pairs.2 ⟨_, i, hi, hpartner⟩, rfl⟩)
  · have hlength := (List.getElem?_eq_some_iff.1 hi).1
    have hpartner := List.getElem?_eq_getElem (Nat.lt_of_le_of_lt hji hlength)
    exact hb.2 (List.mem_map.2 ⟨_, h.mem_pairs.2 ⟨_, j, hpartner, hj⟩, rfl⟩)

/-- No matching has more pairs: in each class one of the sides is used up. -/
theorem length_le (h : pairing.ByRank classOf gone new)
    (hgone : gone.Pairwise fun d e => d.1 < e.1) (hnew : new.Pairwise fun d e => d.1 < e.1)
    {pairs : List ((String × α) × (String × α))} (hpairs : IsMatching classOf gone new pairs) :
    pairs.length ≤ pairing.pairs.length := by
  have hown := h.isMatching hgone hnew
  refine length_le_of_classes (fun p => classOf p.1.2) fun k => ?_
  by_cases halone : ∃ a ∈ pairing.gone, classOf a.2 = k
  · obtain ⟨a, ha, hk⟩ := halone
    have hsecond : ∀ {list : List ((String × α) × (String × α))},
        IsMatching classOf gone new list →
        (list.filter fun p => classOf p.1.2 = k) = list.filter fun p => classOf p.2.2 = k := by
      intro list hlist
      exact List.filter_congr fun p hp => by rw [hlist.alike p hp]
    rw [hsecond hpairs, hsecond hown]
    refine length_filter_le hnew (fun p hp => (hown.parts p hp).2)
      (fun p hp => (hpairs.parts p hp).2) hpairs.new_once fun b hb hbk => ?_
    by_contra hnot
    have hbalone : b ∈ pairing.new := by
      rw [h.new_alone]
      exact List.mem_filter.2 ⟨hb, decide_eq_true hnot⟩
    exact h.apart ha hbalone (hk.trans hbk.symm)
  · refine length_filter_le hgone (fun p hp => (hown.parts p hp).1)
      (fun p hp => (hpairs.parts p hp).1) hpairs.gone_once fun a ha hak => ?_
    by_contra hnot
    have haalone : a ∈ pairing.gone := by
      rw [h.gone_alone]
      exact List.mem_filter.2 ⟨ha, decide_eq_true hnot⟩
    exact halone ⟨a, haalone, hak⟩

/-- A pairing by rank is a maximum matching that keeps the order. -/
theorem isMaximum (h : pairing.ByRank classOf gone new)
    (hgone : gone.Pairwise fun d e => d.1 < e.1) (hnew : new.Pairwise fun d e => d.1 < e.1) :
    pairing.IsMaximum classOf gone new where
  matching := h.isMatching hgone hnew
  ordered _ hp _ hq := h.ordered hgone hnew hp hq
  length_le _ := h.length_le hgone hnew
  apart _ ha _ := h.apart ha

end Pairing.ByRank

end Maximum

/-! ## The greedy scan pairs by rank -/

section Scan

variable {α γ : Type} [DecidableEq γ] {classOf : α → γ} {gone new : List (String × α)}
  {matches? : String × α → String × α → Bool}

/-- What stays alone of ascending entries is what is in no pair. -/
theorem alone_eq_filter {entries paired alone : List (String × α)}
    (hentries : entries.Pairwise fun d e => d.1 < e.1) (hperm : entries.Perm (paired ++ alone))
    (hsub : alone.Sublist entries) :
    alone = entries.filter fun e => e.1 ∉ paired.map (·.1) := by
  have hnodup := (hperm.map Prod.fst).nodup_iff.1 (Keyed.nodup_of_ascending hentries)
  rw [List.map_append] at hnodup
  refine Keyed.entries_eq_of_mem_iff (hentries.sublist hsub) (hentries.filter _) fun e => ?_
  rw [List.mem_filter, decide_eq_true_iff]
  constructor
  · intro he
    refine ⟨hsub.subset he, fun hpaired => ?_⟩
    exact List.disjoint_of_nodup_append hnodup hpaired (List.mem_map_of_mem he)
  · rintro ⟨he, hnot⟩
    rcases List.mem_append.1 (hperm.mem_iff.1 he) with hpaired | halone
    · exact absurd (List.mem_map_of_mem hpaired) hnot
    · exact halone

/-- The greedy scan pairs by rank where elements of one class match. -/
theorem pairUp_byRank (hmatch : ∀ a b, matches? a b = true ↔ classOf a.2 = classOf b.2)
    (hgone : gone.Pairwise fun d e => d.1 < e.1) (hnew : new.Pairwise fun d e => d.1 < e.1) :
    (pairUp matches? gone new).ByRank classOf gone new := by
  have hfirst := pairs_sublist_gone matches? gone new
  have hgoneAlone := alone_eq_filter hgone (gone_perm_pairUp matches? gone new)
    (gone_sublist_gone matches? gone new)
  have hnewAlone := alone_eq_filter hnew (new_perm_pairUp matches? gone new)
    (new_sublist_new matches? gone new)
  have hascending := List.pairwise_map.1 (hgone.sublist hfirst)
  simp only [List.map_map, Function.comp_def] at hgoneAlone hnewAlone
  refine ⟨fun {a b} => ?_, hascending, hgoneAlone, hnewAlone⟩
  rw [mem_pairs_iff (f := fun e => classOf e.2) (g := fun e => classOf e.2) hmatch,
    List.mem_iff_getElem?]
  simp only [List.getElem?_zip_eq_some]
  constructor
  · rintro ⟨rank, ha, hb⟩
    exact ⟨_, rank, ha, hb⟩
  · rintro ⟨k, rank, ha, hb⟩
    obtain rfl := (mem_ofClass_of_getElem? ha).2
    exact ⟨rank, ha, hb⟩

end Scan

end SchemaPlan
