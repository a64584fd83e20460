import Mathlib.Data.String.Basic
import SchemaPlan.ChangeLog
import SchemaPlan.Proofs.Actions
import SchemaPlan.Proofs.Calendar
set_option autoImplicit false

/-!
# Change logs

A log only grows.  The directories for it are made once, and what was made does not have to
be made again, whatever is written at the end of them (`prepare_prepare`, `prepare_insert`).
So either all blocks of a run are added, one behind the other (`appendAll_of_writable`), or
none is, and then no text is changed (`appendAll_of_not_writable`).

Main statement: what a run of additions leaves in a log, and that the stamps of the blocks
are in the order of their moments (`grows_in_order`).
-/

namespace SchemaPlan

/-! ## Directories that were made -/

namespace Files

/-- What is a directory stays one when more are made. -/
theorem isDirectory_cons {files : Files} {place there : Place}
    (h : files.isDirectory there = true) :
    isDirectory { files with directories := place :: files.directories } there = true := by
  rw [isDirectory, Bool.or_eq_true, List.contains_cons, Bool.or_eq_true] at *
  exact h.imp_right .inr

theorem isDirectory_makeWay {files : Files} {place there : Place} {parts : List String}
    (h : files.isDirectory there = true) :
    (files.makeWay place parts).isDirectory there = true := by
  induction parts generalizing files place with
  | nil => exact h
  | cons part rest ih =>
    rw [makeWay]
    split
    · exact h
    split
    · exact ih h
    split
    · exact h
    · exact ih (isDirectory_cons h)

/-- A way whose first directory is there goes on behind it. -/
theorem makeWay_cons {files : Files} {place : Place} {part : String} {rest : List String}
    (hshort : ¬ Path.nameLimit < part.utf8ByteSize)
    (h : files.isDirectory (place.step part) = true) :
    files.makeWay place (part :: rest) = files.makeWay (place.step part) rest := by
  rw [makeWay, if_neg hshort, if_pos h]

/-- A way that was made is left as it is when it is to be made again. -/
theorem makeWay_makeWay (files : Files) (place : Place) (parts : List String) :
    (files.makeWay place parts).makeWay place parts = files.makeWay place parts := by
  induction parts generalizing files place with
  | nil => rfl
  | cons part rest ih =>
    by_cases hlong : Path.nameLimit < part.utf8ByteSize
    · simp only [makeWay, if_pos hlong]
    by_cases hdirectory : files.isDirectory (place.step part) = true
    · rw [makeWay_cons hlong hdirectory,
        makeWay_cons hlong (isDirectory_makeWay hdirectory), ih]
    by_cases htext : files.texts.contains (place.step part).path = true
    · simp only [makeWay, if_neg hlong, if_neg hdirectory, if_pos htext]
    · let made : Files := { files with directories := place.step part :: files.directories }
      have hmade : files.makeWay place (part :: rest)
          = made.makeWay (place.step part) rest := by
        rw [makeWay, if_neg hlong, if_neg hdirectory, if_neg htext]
      have hthere : made.isDirectory (place.step part) = true := by
        simp [made, isDirectory]
      rw [hmade, makeWay_cons hlong (isDirectory_makeWay hthere), ih]

/-- A text that is put in a place does not open a way that is not there. -/
theorem makeWay_insert {files : Files} {place : Place} {parts : List String}
    (h : files.makeWay place parts = files) (key text : String) :
    makeWay { files with texts := files.texts.insert key text } place parts
      = { files with texts := files.texts.insert key text } := by
  induction parts generalizing place with
  | nil => rfl
  | cons part rest ih =>
    by_cases hlong : Path.nameLimit < part.utf8ByteSize
    · simp only [makeWay, if_pos hlong]
    by_cases hdirectory : files.isDirectory (place.step part) = true
    · have hdirectory' : isDirectory { files with texts := files.texts.insert key text }
          (place.step part) = true := hdirectory
      rw [makeWay_cons hlong hdirectory] at h
      rw [makeWay_cons hlong hdirectory', ih h]
    by_cases htext : files.texts.contains (place.step part).path = true
    · have hdirectory' : ¬ isDirectory { files with texts := files.texts.insert key text }
          (place.step part) = true := hdirectory
      have htext' : (files.texts.insert key text).contains (place.step part).path = true := by
        rw [Keyed.contains_insert, htext, Bool.or_true]
      rw [makeWay, if_neg hlong, if_neg hdirectory', if_pos htext']
    · -- the directory would have been made
      refine absurd ?_ hdirectory
      rw [makeWay, if_neg hlong, if_neg hdirectory, if_neg htext] at h
      rw [← h]
      exact isDirectory_makeWay (by simp [isDirectory])

theorem prepare_prepare (files : Files) (path : String) :
    (files.prepare path).prepare path = files.prepare path := by
  unfold prepare
  split
  · rfl
  · exact makeWay_makeWay _ _ _

/-- Where a path leads to with some directories it also leads to with more. -/
theorem locate?_mono {files more : Files} {path : String} {place : Place}
    (hmore : ∀ there, files.isDirectory there = true → more.isDirectory there = true)
    (h : files.locate? path = some place) : more.locate? path = some place := by
  unfold locate? at h ⊢
  split at h
  · next hpath =>
    rw [if_pos hpath]
    generalize Path.start path = start at h ⊢
    generalize Path.parts path = parts at h ⊢
    induction parts generalizing start with
    | nil => exact h
    | cons part rest ih =>
      rw [List.foldlM_cons] at h ⊢
      obtain ⟨next, hstep, hrest⟩ := Option.bind_eq_some_iff.1 h
      have hmoreStep : more.step? start part = some next := by
        unfold step? at hstep ⊢
        split at hstep
        · next hopen =>
          rw [Bool.and_eq_true] at hopen
          rw [if_pos (Bool.and_eq_true_iff.2 ⟨hmore _ hopen.1, hopen.2⟩), hstep]
        · exact nomatch hstep
      exact Option.bind_eq_some_iff.2 ⟨next, hmoreStep, ih _ hrest⟩
  · exact nomatch h

/-- What is read at a path is still read when the directories for it are made. -/
theorem read?_prepare {files : Files} {path text : String} (h : files.read? path = some text) :
    (files.prepare path).read? path = some text := by
  obtain ⟨place, hplace, htext⟩ := Option.bind_eq_some_iff.1 h
  have hmore : ∀ there, files.isDirectory there = true →
      (files.prepare path).isDirectory there = true := fun there hthere => by
    unfold prepare
    split
    · exact hthere
    · exact isDirectory_makeWay hthere
  exact Option.bind_eq_some_iff.2
    ⟨place, locate?_mono hmore hplace, by rwa [texts_prepare]⟩

theorem prepare_insert {files : Files} {path : String} (h : files.prepare path = files)
    (key text : String) :
    prepare { files with texts := files.texts.insert key text } path
      = { files with texts := files.texts.insert key text } := by
  unfold prepare at h ⊢
  split
  · rfl
  · next hnull =>
    rw [if_neg hnull] at h
    exact makeWay_insert h key text

/-- Whether something can be put in a place depends on the directories only. -/
theorem isSome_put? (files : Files) (path text : String) :
    (files.put? path text).isSome = (files.locate? path).any fun place =>
      Path.namesFile path && !files.isDirectory place := by
  unfold put?
  cases files.locate? path with
  | none => rfl
  | some place =>
    rw [Option.any_some]
    dsimp only
    split
    · next h => exact h.symm
    · next h => exact (Bool.eq_false_iff.2 h).symm

theorem isSome_put?_with_texts (files : Files) (texts : Keyed String)
    (path text other : String) :
    (put? { files with texts := texts } path text).isSome = (files.put? path other).isSome := by
  rw [isSome_put?, isSome_put?, locate?_with_texts]
  rfl

end Files

namespace ChangeLog

/-! ## Texts of logs -/

/-- The text of a log: what is read at its path once the directories for it are made. -/
def text (files : Files) (path : String) : String := ((files.prepare path).read? path).getD ""

theorem text_of_read? {files : Files} {path initial : String}
    (h : files.read? path = some initial) : text files path = initial := by
  rw [text, Files.read?_prepare h, Option.getD_some]

theorem text_prepare (files : Files) (path : String) :
    text (files.prepare path) path = text files path := by
  rw [text, Files.prepare_prepare, text]

/-- Whether blocks can be added to a log. -/
def Writable (files : Files) (path : String) : Prop := (files.write? path "").isSome = true

instance (files : Files) (path : String) : Decidable (Writable files path) :=
  inferInstanceAs (Decidable ((files.write? path "").isSome = true))

/-- Adding a block succeeds for each block, and then the text of the log has the block at
its end, or fails for each, and then the texts of all files are as they were. -/
theorem append_cases (path : String) (comparison : Comparison) (moment : Int) (w : World) :
    (Writable w.files path ∧ ∃ files,
      append path comparison moment w = (.ok (), { w with files := files }) ∧
        Writable files path ∧ text files path = text w.files path ++ block comparison moment ∧
        files.read? path = some (text files path)) ∨
    (¬ Writable w.files path ∧
      append path comparison moment w
          = (.error .files, { w with files := w.files.prepare path }) ∧
        ¬ Writable (w.files.prepare path) path) := by
  have hprepare := w.files.prepare_prepare path
  rcases (w.files.prepare path).put?_eq_none_or_exists path with hnone | ⟨place, hplace, hput⟩
  · refine .inr ⟨?_, ?_, ?_⟩
    · rw [Writable, Files.write?, hnone]
      exact Bool.false_ne_true
    · rw [append, Action.appendFile, Action.writeFile]
      simp only [hnone]
    · rw [Writable, Files.write?, hprepare, hnone]
      exact Bool.false_ne_true
  · let written : Files := { w.files.prepare path with
      texts := (w.files.prepare path).texts.insert place.path
        (text w.files path ++ block comparison moment) }
    have hkept : written.prepare path = written := Files.prepare_insert hprepare _ _
    have hread : written.read? path = some (text w.files path ++ block comparison moment) :=
      Files.read?_put? (hput _)
    have htext : text written path = text w.files path ++ block comparison moment := by
      rw [text, hkept, hread, Option.getD_some]
    have hwritable : Writable w.files path := by
      rw [Writable, Files.write?, hput]
      rfl
    refine .inl ⟨hwritable, written, ?_, ?_, htext, ?_⟩
    · rw [append, Action.appendFile, Action.writeFile]
      simp only [hput]
      rfl
    · rw [Writable, Files.write?, hkept]
      exact (Files.isSome_put?_with_texts _ _ _ _ _).trans hwritable
    · rw [hread, htext]

/-! ## Runs -/

/-- Add blocks to a log one after the other, whatever became of those before; the answers in
order. -/
def appendAll (path : String) :
    List (Comparison × Int) → World → List (Except Fault Unit) × World
  | [], w => ([], w)
  | (comparison, moment) :: rest, w =>
    let (answer, next) := append path comparison moment w
    let (answers, last) := appendAll path rest next
    (answer :: answers, last)

/-- The blocks that a run adds. -/
def blocks (entries : List (Comparison × Int)) : String :=
  String.join (entries.map fun entry => block entry.1 entry.2)

/-- A log that can be written holds all blocks of a run, in order, behind what it held. -/
theorem appendAll_of_writable (entries : List (Comparison × Int)) {path : String} {w : World}
    (h : Writable w.files path) : ∃ files,
      appendAll path entries w
        = (List.replicate entries.length (.ok ()), { w with files := files }) ∧
      text files path = text w.files path ++ blocks entries ∧
      (entries ≠ [] → files.read? path = some (text files path)) := by
  induction entries generalizing w with
  | nil => exact ⟨w.files, rfl, String.append_empty.symm, fun hnil => absurd rfl hnil⟩
  | cons entry rest ih =>
    obtain ⟨comparison, moment⟩ := entry
    obtain ⟨-, files, happend, hwritable, htext, hread⟩ | ⟨hnot, -⟩ :=
      append_cases path comparison moment w
    · obtain ⟨last, hrest, hlast, hreadLast⟩ := @ih { w with files := files } hwritable
      refine ⟨last, ?_, ?_, fun _ => ?_⟩
      · simp only [appendAll, happend, hrest]
        rfl
      · rw [hlast, htext, String.append_assoc]
        rw [blocks, blocks, List.map_cons, String.join_cons]
      · rcases eq_or_ne rest [] with rfl | hmore
        · obtain rfl : files = last := congrArg World.files (Prod.mk.inj hrest).2
          exact hread
        · exact hreadLast hmore
    · exact absurd h hnot

/-- A log that cannot be written is left as it was by a run, and so are all other files. -/
theorem appendAll_of_not_writable (entries : List (Comparison × Int))
    {path : String} {w : World} (h : ¬ Writable w.files path) : ∃ files,
      appendAll path entries w
        = (List.replicate entries.length (.error .files), { w with files := files }) ∧
      files.texts = w.files.texts ∧ text files path = text w.files path := by
  induction entries generalizing w with
  | nil => exact ⟨w.files, rfl, rfl, rfl⟩
  | cons entry rest ih =>
    obtain ⟨comparison, moment⟩ := entry
    obtain ⟨hwritable, -⟩ | ⟨-, happend, hnot⟩ := append_cases path comparison moment w
    · exact absurd hwritable h
    · obtain ⟨last, hrest, htexts, hlast⟩ :=
        @ih { w with files := w.files.prepare path } hnot
      refine ⟨last, ?_, ?_, ?_⟩
      · simp only [appendAll, happend, hrest]
        rfl
      · rw [htexts, Files.texts_prepare]
      · rw [hlast, text_prepare]

/-! ## Order -/

/-- A script ends its last line; so the end of a block is an empty line. -/
theorem exists_script (comparison : Comparison) : ∃ body, comparison.script = body ++ "\n" := by
  have hend : "\n--\n" = "\n--" ++ "\n" := rfl
  have hfoot :
      "\n--\n-- End for " ++ comparison.title ++ "\n--" ++ "\n" = comparison.scriptFoot :=
    String.append_assoc.trans (congrArg (_ ++ ·) hend.symm)
  exact ⟨_, (congrArg (_ ++ ·) hfoot.symm).trans String.append_assoc.symm⟩

/-- A log that can be written holds what it held and then the blocks of all that was added to
it, in order, each with the stamp of its moment, the script of its comparison and an empty
line.  Stamps of plain years are rows of fourteen digits, in the order of the moments. -/
theorem grows_in_order :
    (∀ (path : String) (entries : List (Comparison × Int)) (w : World),
      (∀ initial, w.files.read? path = some initial → text w.files path = initial) ∧
      (Writable w.files path → ∃ files,
        appendAll path entries w
          = (List.replicate entries.length (.ok ()), { w with files := files }) ∧
        text files path = text w.files path ++ String.join (entries.map fun entry =>
          Calendar.stamp entry.2 ++ "\n" ++ entry.1.script ++ "\n") ∧
        (entries ≠ [] → files.read? path = some (text files path))) ∧
      (¬ Writable w.files path → ∃ files,
        appendAll path entries w
          = (List.replicate entries.length (.error .files), { w with files := files }) ∧
        files.texts = w.files.texts ∧ text files path = text w.files path)) ∧
    (∀ comparison : Comparison, ∃ body, comparison.script = body ++ "\n") ∧
    (∀ moment, Calendar.HasPlainYear moment → (Calendar.stamp moment).toList.length = 14 ∧
      ∀ c ∈ (Calendar.stamp moment).toList, c.isDigit = true) ∧
    (∀ a b, Calendar.HasPlainYear a → Calendar.HasPlainYear b →
      (Calendar.stamp a < Calendar.stamp b ↔ a < b) ∧
        (Calendar.stamp a = Calendar.stamp b ↔ a = b)) := by
  refine ⟨fun path entries w => ⟨fun _ => text_of_read?, appendAll_of_writable entries,
    appendAll_of_not_writable entries⟩, exists_script, fun _ => Calendar.stamp_digits,
    fun a b ha hb => ?_⟩
  have hlt := Calendar.stamp_lt_stamp ha hb
  have hgt := Calendar.stamp_lt_stamp hb ha
  rcases lt_trichotomy a b with h | rfl | h
  · exact ⟨iff_of_true (hlt h) h, iff_of_false (hlt h).ne h.ne⟩
  · simp
  · exact ⟨iff_of_false (hgt h).not_gt h.not_gt, iff_of_false (hgt h).ne' h.ne'⟩

/-- Two comparisons applied just before and just at the start of 1970, to a log for which a
directory is missing. -/
def newYearEntries : List (Comparison × Int) := [({ database := "shop" }, -1), ({}, 0)]

theorem grows_in_order_newYear :
    (∃ files,
      appendAll "logs/c.log" newYearEntries { files := {}, server := .unreachable, now := 0 }
        = ([.ok (), .ok ()], { files := files, server := .unreachable, now := 0 }) ∧
      files.read? "logs/c.log" = some (text {} "logs/c.log" ++ blocks newYearEntries)) ∧
    (Calendar.stamp (-1)).toList.length = 14 ∧ Calendar.stamp (-1) < Calendar.stamp 0 := by
  obtain ⟨hruns, -, hdigits, hordered⟩ := grows_in_order
  have hbefore : Calendar.HasPlainYear (-1) := by decide
  have hstart : Calendar.HasPlainYear 0 := by decide
  have hwritable : Writable {} "logs/c.log" := by decide +kernel
  obtain ⟨files, hrun, htext, hread⟩ := (hruns "logs/c.log" newYearEntries
    { files := {}, server := .unreachable, now := 0 }).2.1 hwritable
  refine ⟨⟨files, hrun, ?_⟩, (hdigits _ hbefore).1,
    (hordered _ _ hbefore hstart).1.2 (by decide)⟩
  rw [hread (List.cons_ne_nil _ _)]
  exact congrArg some htext

end ChangeLog

end SchemaPlan
