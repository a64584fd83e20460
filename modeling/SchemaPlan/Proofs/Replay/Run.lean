import Mathlib.Data.List.Basic
import SchemaPlan.Ddl.Statement
import SchemaPlan.Proofs.Keyed
set_option autoImplicit false

/-!
# Replaying statements

A replay does the statements of a list one after the other; it stops for good at
one that cannot be applied.  What a plan does is proved block by block: each
block of statements touches a few keys of a map and brings them from a start to
an end, whatever the map holds under other keys (`Establishes`).  Blocks that
touch different keys do not see each other, so they may stand one after the
other in any order (`Establishes.append`, `Establishes.flatMap`).
-/

namespace SchemaPlan.Replay

/-! ## Runs -/

section Runs

variable {S : Type} (step : Statement → S → Option S) (guard : Statement → S → Prop)

/-- The state after some statements, `none` if one of them cannot be applied. -/
def run : List Statement → S → Option S
  | [], state => some state
  | s :: rest, state => (step s state).bind (run rest)

/-- A condition holds before each statement that a run comes to. -/
def Guarded : List Statement → S → Prop
  | [], _ => True
  | s :: rest, state => guard s state ∧ ∀ next, step s state = some next → Guarded rest next

variable {step guard}

@[simp] theorem run_nil (state : S) : run step [] state = some state := rfl

theorem run_singleton (s : Statement) (state : S) : run step [s] state = step s state := by
  cases h : step s state <;> simp [run, h]

theorem run_append (first second : List Statement) (state : S) :
    run step (first ++ second) state = (run step first state).bind (run step second) := by
  induction first generalizing state with
  | nil => rfl
  | cons s rest ih =>
    simp only [List.cons_append, run]
    cases step s state with
    | none => rfl
    | some next => exact ih next

theorem guarded_append {first second : List Statement} {state : S} :
    Guarded step guard (first ++ second) state ↔
      Guarded step guard first state ∧
        ∀ next, run step first state = some next → Guarded step guard second next := by
  induction first generalizing state with
  | nil => simp [Guarded]
  | cons s rest ih =>
    simp only [List.cons_append, Guarded, run]
    constructor
    · rintro ⟨hs, hrest⟩
      refine ⟨⟨hs, fun next hnext => (ih.1 (hrest next hnext)).1⟩, fun last hlast => ?_⟩
      obtain ⟨next, hnext, hrun⟩ := Option.bind_eq_some_iff.1 hlast
      exact (ih.1 (hrest next hnext)).2 last hrun
    · rintro ⟨⟨hs, hfirst⟩, hsecond⟩
      refine ⟨hs, fun next hnext => ih.2 ⟨hfirst next hnext, fun last hlast => ?_⟩⟩
      exact hsecond last (by rw [hnext]; exact hlast)

/-- The condition of a run, said of the states that the run goes through. -/
theorem guarded_iff {statements : List Statement} {state : S} :
    Guarded step guard statements state ↔
      ∀ before s after reached, statements = before ++ s :: after →
        run step before state = some reached → guard s reached := by
  constructor
  · rintro h before s after reached rfl hrun
    exact ((guarded_append.1 h).2 reached hrun).1
  · induction statements generalizing state with
    | nil => intro _; trivial
    | cons s rest ih =>
      intro h
      refine ⟨h [] s rest state rfl rfl, fun next hnext => ih ?_⟩
      intro before t after reached heq hrun
      refine h (s :: before) t after reached (by rw [heq]; rfl) ?_
      rw [run, hnext]
      exact hrun

/-- A condition that always holds before the statements of a list. -/
theorem guarded_of_forall {statements : List Statement}
    (h : ∀ s ∈ statements, ∀ state, guard s state) (state : S) :
    Guarded step guard statements state := by
  rw [guarded_iff]
  rintro before s after reached rfl _
  exact h s (by simp) reached

end Runs

/-! ## Parts -/

/-- A part of a state that is replayed by itself, next to what statements do to
the rest. -/
structure Part (T S : Type) where
  get : T → S
  put : S → T → T
  rest : Statement → T → T
  get_put : ∀ part whole, get (put part whole) = part
  put_get : ∀ whole, put (get whole) whole = whole
  put_put : ∀ part first whole, put part (put first whole) = put part whole
  rest_put : ∀ s part whole, rest s (put part whole) = put part (rest s whole)

namespace Part

variable {T S : Type} (p : Part T S) {step : Statement → S → Option S}
  {guard : Statement → S → Prop}

/-- A step of the part is a step of the whole. -/
def lift (step : Statement → S → Option S) (s : Statement) (whole : T) : Option T :=
  (step s (p.get whole)).map fun part => p.put part (p.rest s whole)

/-- What statements do to the rest. -/
def rests (statements : List Statement) (whole : T) : T :=
  statements.foldl (fun w s => p.rest s w) whole

theorem rests_put (statements : List Statement) (part : S) (whole : T) :
    p.rests statements (p.put part whole) = p.put part (p.rests statements whole) := by
  unfold rests
  induction statements generalizing whole with
  | nil => rfl
  | cons s tail ih => rw [List.foldl_cons, List.foldl_cons, p.rest_put, ih]

theorem rests_append (first second : List Statement) (whole : T) :
    p.rests (first ++ second) whole = p.rests second (p.rests first whole) :=
  List.foldl_append

/-- Statements that leave the rest alone. -/
theorem rests_eq_self {statements : List Statement} {whole : T}
    (h : ∀ s ∈ statements, p.rest s whole = whole) : p.rests statements whole = whole := by
  unfold rests
  induction statements with
  | nil => rfl
  | cons s tail ih =>
    rw [List.foldl_cons, h s List.mem_cons_self]
    exact ih fun t ht => h t (List.mem_cons_of_mem _ ht)

/-- A run of the whole is a run of the part, next to what is done to the rest. -/
theorem run_lift (statements : List Statement) (whole : T) :
    run (p.lift step) statements whole =
      (run step statements (p.get whole)).map
        fun part => p.put part (p.rests statements whole) := by
  induction statements generalizing whole with
  | nil => rw [run_nil, run_nil, Option.map_some, rests, List.foldl_nil, p.put_get]
  | cons s tail ih =>
    rw [run, run, Part.lift]
    cases step s (p.get whole) with
    | none => rfl
    | some part =>
      rw [Option.map_some, Option.bind_some, Option.bind_some, ih, p.get_put]
      refine congrArg (fun f => Option.map f (run step tail part)) (funext fun last => ?_)
      rw [rests_put, p.put_put]
      rfl

/-- What has to hold along a run of the whole holds along the run of the part. -/
theorem guarded_lift {statements : List Statement} {whole : T}
    (h : Guarded (p.lift step) (fun s w => guard s (p.get w)) statements whole) :
    Guarded step guard statements (p.get whole) := by
  induction statements generalizing whole with
  | nil => trivial
  | cons s tail ih =>
    refine ⟨h.1, fun part hpart => ?_⟩
    have hnext := h.2 (p.put part (p.rest s whole)) (by rw [Part.lift, hpart, Option.map_some])
    have htail := ih hnext
    rwa [p.get_put] at htail

end Part

/-! ## Blocks -/

/-- The rules of a replay on a map: what a statement does, what has to hold
before it, and what holds all along. -/
structure Rules (σ : Type) where
  step : Statement → Keyed σ → Option (Keyed σ)
  guard : Statement → Keyed σ → Prop
  inv : Keyed σ → Prop

/-- A block brings the touched keys from a start to an end and leaves all other
keys alone, on every map that agrees with the start on the touched keys. -/
def Establishes {σ : Type} (rules : Rules σ) (block : List Statement) (touched : List String)
    (start final : String → Option σ) : Prop :=
  ∀ map, rules.inv map → Guarded rules.step rules.guard block map →
    (∀ key ∈ touched, map.get? key = start key) →
    ∃ next, run rules.step block map = some next ∧ rules.inv next ∧
      (∀ key ∈ touched, next.get? key = final key) ∧
      ∀ key, key ∉ touched → next.get? key = map.get? key

namespace Establishes

variable {σ : Type} {rules : Rules σ} {start mid final : String → Option σ}
  {first second : List Statement} {touched touched' : List String}

theorem nil : Establishes rules [] [] start final :=
  fun map hinv _ _ => ⟨map, rfl, hinv, by simp, fun _ _ => rfl⟩

/-- Nothing is done, and nothing is to change. -/
theorem stay : Establishes rules [] touched start start :=
  fun map hinv _ hmap => ⟨map, rfl, hinv, hmap, fun _ _ => rfl⟩

/-- Only the touched keys matter. -/
theorem congr {start' final' : String → Option σ}
    (h : Establishes rules first touched start' final')
    (hstart : ∀ key ∈ touched, start key = start' key)
    (hfinal : ∀ key ∈ touched, final key = final' key) :
    Establishes rules first touched start final := by
  intro map hinv hguard hmap
  obtain ⟨next, hrun, hinv', htouched, hother⟩ :=
    h map hinv hguard fun key hkey => (hmap key hkey).trans (hstart key hkey)
  exact ⟨next, hrun, hinv', fun key hkey => (htouched key hkey).trans (hfinal key hkey).symm,
    hother⟩

/-- Of a block on one key only that key matters. -/
theorem congr_single {key : String} {start' final' : String → Option σ}
    (h : Establishes rules first [key] start' final') (hstart : start key = start' key)
    (hfinal : final key = final' key) : Establishes rules first [key] start final := by
  refine h.congr (fun other hother => ?_) fun other hother => ?_
  · rw [List.mem_singleton.1 hother, hstart]
  · rw [List.mem_singleton.1 hother, hfinal]

/-- A block that puts a value under a key. -/
theorem of_insert {key : String} {before : Option σ} {value : σ}
    (h : ∀ map, rules.inv map → Guarded rules.step rules.guard first map →
      map.get? key = before → run rules.step first map = some (map.insert key value) ∧
        rules.inv (map.insert key value)) :
    Establishes rules first [key] (fun _ => before) fun _ => some value := by
  intro map hinv hguard hmap
  obtain ⟨hrun, hinv'⟩ := h map hinv hguard (hmap key List.mem_cons_self)
  refine ⟨map.insert key value, hrun, hinv', fun other hother => ?_, fun other hother => ?_⟩
  · rw [List.mem_singleton.1 hother, Keyed.get?_insert_self]
  · rw [List.mem_singleton] at hother
    exact Keyed.get?_insert_of_ne _ _ hother

/-- A block that takes a key out. -/
theorem of_erase {key : String} {value : σ}
    (h : ∀ map, rules.inv map → map.get? key = some value →
      run rules.step first map = some (map.erase key) ∧ rules.inv (map.erase key)) :
    Establishes rules first [key] (fun _ => some value) fun _ => none := by
  intro map hinv _ hmap
  obtain ⟨hrun, hinv'⟩ := h map hinv (hmap key List.mem_cons_self)
  refine ⟨map.erase key, hrun, hinv', fun other hother => ?_, fun other hother => ?_⟩
  · rw [List.mem_singleton.1 hother, Keyed.get?_erase_self]
  · rw [List.mem_singleton] at hother
    exact Keyed.get?_erase_of_ne _ hother

/-- A block that moves a value from one key to another that is free. -/
theorem of_move {old new : String} {value value' : σ} (hne : new ≠ old)
    (hold : start old = some value) (hnew : start new = none) (hgone : final old = none)
    (hthere : final new = some value')
    (h : ∀ map, rules.inv map → map.get? old = some value → map.get? new = none →
      run rules.step first map = some ((map.erase old).insert new value') ∧
        rules.inv ((map.erase old).insert new value')) :
    Establishes rules first [old, new] start final := by
  intro map hinv _ hmap
  obtain ⟨hrun, hinv'⟩ := h map hinv ((hmap old (by simp)).trans hold)
    ((hmap new (by simp)).trans hnew)
  refine ⟨(map.erase old).insert new value', hrun, hinv', fun other hother => ?_,
    fun other hother => ?_⟩
  · rcases List.mem_pair.1 hother with rfl | rfl
    · rw [Keyed.get?_insert_of_ne _ _ (Ne.symm hne), Keyed.get?_erase_self, hgone]
    · rw [Keyed.get?_insert_self, hthere]
  · rw [List.mem_pair, not_or] at hother
    rw [Keyed.get?_insert_of_ne _ _ hother.2, Keyed.get?_erase_of_ne _ hother.1]

/-- One block after another on the same keys. -/
theorem seq (h1 : Establishes rules first touched start mid)
    (h2 : Establishes rules second touched mid final) :
    Establishes rules (first ++ second) touched start final := by
  intro map hinv hguard hmap
  obtain ⟨hguard1, hguard2⟩ := guarded_append.1 hguard
  obtain ⟨middle, hrun1, hinv1, hmid, hother1⟩ := h1 map hinv hguard1 hmap
  obtain ⟨next, hrun2, hinv2, hfinal, hother2⟩ := h2 middle hinv1 (hguard2 middle hrun1) hmid
  refine ⟨next, ?_, hinv2, hfinal, fun key hkey => (hother2 key hkey).trans (hother1 key hkey)⟩
  rw [run_append, hrun1]
  exact hrun2

/-- One block after another on different keys. -/
theorem append (hnodup : (touched ++ touched').Nodup)
    (h1 : Establishes rules first touched start final)
    (h2 : Establishes rules second touched' start final) :
    Establishes rules (first ++ second) (touched ++ touched') start final := by
  have hdisjoint := List.disjoint_of_nodup_append hnodup
  intro map hinv hguard hmap
  obtain ⟨hguard1, hguard2⟩ := guarded_append.1 hguard
  obtain ⟨middle, hrun1, hinv1, hfinal1, hother1⟩ :=
    h1 map hinv hguard1 fun key hkey => hmap key (List.mem_append_left _ hkey)
  have hmid : ∀ key ∈ touched', middle.get? key = start key := by
    intro key hkey
    rw [hother1 key fun h => hdisjoint h hkey]
    exact hmap key (List.mem_append_right _ hkey)
  obtain ⟨next, hrun2, hinv2, hfinal2, hother2⟩ := h2 middle hinv1 (hguard2 middle hrun1) hmid
  refine ⟨next, ?_, hinv2, fun key hkey => ?_, fun key hkey => ?_⟩
  · rw [run_append, hrun1]
    exact hrun2
  · by_cases hkey' : key ∈ touched'
    · exact hfinal2 key hkey'
    · rw [hother2 key hkey']
      exact hfinal1 key ((List.mem_append.1 hkey).resolve_right hkey')
  · rw [List.mem_append, not_or] at hkey
    rw [hother2 key hkey.2, hother1 key hkey.1]

/-- Four blocks, one after the other, on different keys. -/
theorem append_append {block₁ block₂ block₃ block₄ : List Statement}
    {keys₁ keys₂ keys₃ keys₄ : List String} (hnodup : (keys₁ ++ keys₂ ++ keys₃ ++ keys₄).Nodup)
    (h₁ : Establishes rules block₁ keys₁ start final)
    (h₂ : Establishes rules block₂ keys₂ start final)
    (h₃ : Establishes rules block₃ keys₃ start final)
    (h₄ : Establishes rules block₄ keys₄ start final) :
    Establishes rules (block₁ ++ block₂ ++ block₃ ++ block₄) (keys₁ ++ keys₂ ++ keys₃ ++ keys₄)
      start final := by
  have hnodup₃ := (List.nodup_append.1 hnodup).1
  have hnodup₂ := (List.nodup_append.1 hnodup₃).1
  exact ((h₁.append hnodup₂ h₂).append hnodup₃ h₃).append hnodup h₄

/-- Statements none of which changes anything, one by one or together. -/
theorem stay_of_forall {block : List Statement}
    (h : ∀ s ∈ block, Establishes rules [s] touched start start) :
    Establishes rules block touched start start := by
  induction block with
  | nil => exact stay
  | cons s rest ih =>
    exact (h s List.mem_cons_self).seq (ih fun t ht => h t (List.mem_cons_of_mem _ ht))

/-- Many blocks, each on its own keys. -/
theorem flatMap {α : Type} {items : List α} {block : α → List Statement}
    {touch : α → List String} (hnodup : (items.flatMap touch).Nodup)
    (h : ∀ x ∈ items, Establishes rules (block x) (touch x) start final) :
    Establishes rules (items.flatMap block) (items.flatMap touch) start final := by
  induction items with
  | nil => exact nil
  | cons x rest ih =>
    rw [List.flatMap_cons] at hnodup
    rw [List.flatMap_cons, List.flatMap_cons]
    exact append hnodup (h x List.mem_cons_self)
      (ih (List.nodup_append.1 hnodup).2.1 fun y hy => h y (List.mem_cons_of_mem _ hy))

/-- Many blocks, each on one key. -/
theorem flatMap_single {α : Type} {items : List α} {block : α → List Statement}
    {key : α → String} (hnodup : (items.map key).Nodup)
    (h : ∀ x ∈ items, Establishes rules (block x) [key x] start final) :
    Establishes rules (items.flatMap block) (items.map key) start final := by
  rw [List.map_eq_flatMap] at hnodup ⊢
  exact flatMap hnodup h

/-- A block for each of the values that two maps share, on the key of the value. -/
theorem flatMap_common {α β : Type} {a : Keyed α} {b : Keyed β}
    {block : α × β → List Statement} (nameOf : α → String)
    (hname : ∀ {key value}, a.get? key = some value → nameOf value = key)
    (h : ∀ {v w}, a.get? (nameOf v) = some v → b.get? (nameOf v) = some w →
      Establishes rules (block (v, w)) [nameOf v] start final) :
    Establishes rules ((a.common b).flatMap block) (a.keys.filter b.contains) start final := by
  have hkeys := Keyed.map_common (b := b) nameOf hname
  rw [← hkeys]
  refine flatMap_single ?_ fun pair hpair => ?_
  · rw [hkeys]
    exact a.keys_nodup.filter _
  · obtain ⟨v, w⟩ := pair
    obtain ⟨key, hv, hw⟩ := Keyed.mem_common.1 hpair
    obtain rfl := hname hv
    exact h hv hw

/-- A block that touches every key that changes leads to the end itself. -/
theorem run_eq {map last : Keyed σ} (h : Establishes rules first touched map.get? last.get?)
    (hinv : rules.inv map) (hguard : Guarded rules.step rules.guard first map)
    (hrest : ∀ key, key ∉ touched → map.get? key = last.get? key) :
    run rules.step first map = some last ∧ rules.inv last := by
  obtain ⟨next, hrun, hinv', htouched, hother⟩ := h map hinv hguard fun _ _ => rfl
  have hlast : next = last := by
    refine Keyed.ext_get? fun key => ?_
    by_cases hkey : key ∈ touched
    · exact htouched key hkey
    · exact (hother key hkey).trans (hrest key hkey)
  exact ⟨hlast ▸ hrun, hlast ▸ hinv'⟩

end Establishes

/-! ## Blocks whose end is left open -/

/-- A block can be run from a start of the touched keys, and leads to one end of
them. -/
def Runs {σ : Type} (rules : Rules σ) (block : List Statement) (touched : List String)
    (start : String → Option σ) : Prop :=
  ∃ final, Establishes rules block touched start final

namespace Runs

variable {σ : Type} {rules : Rules σ} {start : String → Option σ}
  {first second : List Statement} {touched touched' : List String}

theorem append (hnodup : (touched ++ touched').Nodup) (h1 : Runs rules first touched start)
    (h2 : Runs rules second touched' start) :
    Runs rules (first ++ second) (touched ++ touched') start := by
  obtain ⟨final, h1⟩ := h1
  obtain ⟨final', h2⟩ := h2
  refine ⟨fun key => if key ∈ touched then final key else final' key, .append hnodup ?_ ?_⟩
  · exact h1.congr (fun _ _ => rfl) fun key hkey => if_pos hkey
  · refine h2.congr (fun _ _ => rfl) fun key hkey => if_neg fun hin => ?_
    exact List.disjoint_of_nodup_append hnodup hin hkey

theorem flatMap {α : Type} {items : List α} {block : α → List Statement}
    {touch : α → List String} (hnodup : (items.flatMap touch).Nodup)
    (h : ∀ x ∈ items, Runs rules (block x) (touch x) start) :
    Runs rules (items.flatMap block) (items.flatMap touch) start := by
  induction items with
  | nil => exact ⟨start, .nil⟩
  | cons x rest ih =>
    rw [List.flatMap_cons] at hnodup
    rw [List.flatMap_cons, List.flatMap_cons]
    exact append hnodup (h x List.mem_cons_self)
      (ih (List.nodup_append.1 hnodup).2.1 fun y hy => h y (List.mem_cons_of_mem _ hy))

/-- A block that runs from a map runs on it. -/
theorem exists_run {map : Keyed σ} (h : Runs rules first touched map.get?)
    (hinv : rules.inv map) (hguard : Guarded rules.step rules.guard first map) :
    ∃ last, run rules.step first map = some last ∧ rules.inv last := by
  obtain ⟨_, h⟩ := h
  obtain ⟨last, hrun, hlast, -⟩ := h map hinv hguard fun _ _ => rfl
  exact ⟨last, hrun, hlast⟩

end Runs

end SchemaPlan.Replay
