import SchemaPlan.Applying
import SchemaPlan.Proofs.Actions
set_option autoImplicit false

/-!
# What applying a comparison sends

A comparison is applied exactly if its change log can be written and the server
refuses none of the changes that are not left out; then these were sent, in order,
and nothing else (`apply_eq_ok`, `apply_of_accepted`).  Else it ends before anything
is sent, or with the first change that is refused (`apply_outcome`).
-/

namespace SchemaPlan

/-- A world whose server got some more statements. -/
def World.receive (w : World) (texts : List String) : World :=
  { w with received := w.received ++ texts }

theorem World.receive_receive (w : World) (first second : List String) :
    (w.receive first).receive second = w.receive (first ++ second) := by
  rw [receive, receive, receive, List.append_assoc]

namespace Comparison

/-- The texts of the changes that are not left out, in order. -/
def sentTexts (safeMode : Bool) (changes : List Change) : List String :=
  (changes.filter fun change => !skips safeMode change).map (·.sql)

/-- The server refuses none of some texts, sent one after the other. -/
def Accepted (w : World) (texts : List String) : Prop :=
  ∀ i sql, texts[i]? = some sql → w.server.refuses? (w.received.length + i) sql = none

theorem accepted_cons {w : World} {sql : String} {texts : List String} :
    Accepted w (sql :: texts) ↔
      w.server.refuses? w.received.length sql = none ∧ Accepted (w.receive [sql]) texts := by
  have hlength : ∀ i, (w.received ++ [sql]).length + i = w.received.length + (i + 1) := by
    intro i
    rw [List.length_append, List.length_singleton, Nat.add_assoc, Nat.add_comm 1 i]
  constructor
  · intro h
    refine ⟨h 0 sql rfl, fun i text htext => ?_⟩
    have hnext := h (i + 1) text htext
    rwa [← hlength] at hnext
  · rintro ⟨hfirst, hrest⟩ i text htext
    cases i with
    | zero =>
      obtain rfl := Option.some.inj htext
      exact hfirst
    | succ i =>
      have hnext := hrest i text htext
      rwa [World.receive, hlength] at hnext

/-! ## Sending changes -/

section Sending

variable {database : String} {safeMode : Bool} {index : Nat} {report : ApplyReport}
  {change : Change} {changes : List Change} {w : World}

theorem sentTexts_cons_of_skips (h : skips safeMode change = true) :
    sentTexts safeMode (change :: changes) = sentTexts safeMode changes := by
  simp [sentTexts, h]

theorem sentTexts_cons_of_not_skips (h : ¬ skips safeMode change = true) :
    sentTexts safeMode (change :: changes) = change.sql :: sentTexts safeMode changes := by
  simp [sentTexts, h]

theorem sendChanges_of_skips (h : skips safeMode change = true) :
    sendChanges database safeMode index report (change :: changes)
      = sendChanges database safeMode (index + 1) { report with skipped := report.skipped + 1 }
        changes := by
  rw [sendChanges, if_pos h]

theorem sendChanges_of_not_skips (h : ¬ skips safeMode change = true) :
    sendChanges database safeMode index report (change :: changes) w =
      match w.server.refuses? w.received.length change.sql with
      | some refusal =>
        (.error (.failedChange ⟨database, index, change.kind, change.sql, refusal⟩),
          w.receive [change.sql])
      | none => sendChanges database safeMode (index + 1)
          { report with applied := report.applied + 1 } changes (w.receive [change.sql]) := by
  rw [sendChanges, if_neg h, Action.bind_apply, Action.send]
  cases w.server.refuses? w.received.length change.sql <;> rfl

/-- Changes that the server does not refuse are all sent. -/
theorem sendChanges_of_accepted (h : Accepted w (sentTexts safeMode changes)) :
    sendChanges database safeMode index report changes w
      = (.ok ⟨report.applied + (sentTexts safeMode changes).length,
          report.skipped + changes.countP (skips safeMode)⟩,
        w.receive (sentTexts safeMode changes)) := by
  induction changes generalizing index report w with
  | nil =>
    rw [sentTexts, World.receive, List.filter_nil, List.map_nil, List.append_nil]
    rfl
  | cons change rest ih =>
    by_cases hskips : skips safeMode change = true
    · rw [sentTexts_cons_of_skips hskips] at h ⊢
      rw [sendChanges_of_skips hskips, ih h, List.countP_cons_of_pos hskips]
      simp only [Nat.add_assoc, Nat.add_comm 1]
    · rw [sentTexts_cons_of_not_skips hskips] at h ⊢
      obtain ⟨hfirst, hrest⟩ := accepted_cons.1 h
      rw [sendChanges_of_not_skips hskips, hfirst, List.countP_cons_of_neg hskips]
      simp only [ih hrest, World.receive_receive, List.singleton_append, List.length_cons,
        Nat.add_assoc, Nat.add_comm 1]

/-- Changes that were sent up to the end were not refused. -/
theorem accepted_of_sendChanges {last : ApplyReport} {w₁ : World}
    (h : sendChanges database safeMode index report changes w = (.ok last, w₁)) :
    Accepted w (sentTexts safeMode changes) := by
  induction changes generalizing index report w with
  | nil => exact fun i sql hsql => nomatch hsql
  | cons change rest ih =>
    by_cases hskips : skips safeMode change = true
    · rw [sendChanges_of_skips hskips] at h
      rw [sentTexts_cons_of_skips hskips]
      exact ih h
    · rw [sendChanges_of_not_skips hskips] at h
      rw [sentTexts_cons_of_not_skips hskips]
      split at h
      · exact nomatch (Prod.mk.inj h).1
      · next haccepted => exact accepted_cons.2 ⟨haccepted, ih h⟩

end Sending

/-! ## Changes that are stopped at -/

section Stopping

variable {database : String} {safeMode : Bool} {index : Nat} {report : ApplyReport}
  {change first : Change} {before after rest : List Change} {refusal : Refusal} {w : World}

/-- The server refuses a change that is not left out, and none that is sent before it. -/
structure Stops (safeMode : Bool) (w : World) (before : List Change) (change : Change)
    (refusal : Refusal) : Prop where
  kept : skips safeMode change = false
  accepted : Accepted w (sentTexts safeMode before)
  refused :
    w.server.refuses? (w.received.length + (sentTexts safeMode before).length) change.sql
    = some refusal

end Stopping

/-! ## Applying -/

variable {comparison : Comparison} {safeMode : Bool} {changeLog : Option String} {w : World}

/-- What is done before the first change is sent. -/
def writeLog (comparison : Comparison) : Option String → Action Unit
  | some path => do ChangeLog.append path comparison (← Action.now)
  | none => pure ()

theorem apply_eq (comparison : Comparison) (safeMode : Bool) (changeLog : Option String) :
    comparison.apply safeMode changeLog =
      if comparison.isEmpty then .pure {}
      else comparison.writeLog changeLog >>= fun _ =>
        sendChanges comparison.database safeMode 0 {} comparison.changes := by
  cases changeLog <;> rfl

/-- Writing the log changes nothing but files. -/
theorem writeLog_eq_ok {w₁ : World} (h : comparison.writeLog changeLog w = (.ok (), w₁)) :
    w₁.server = w.server ∧ w₁.received = w.received := by
  cases changeLog with
  | none =>
    obtain rfl := (Prod.mk.inj h).2
    exact ⟨rfl, rfl⟩
  | some path =>
    obtain ⟨moment, w₂, hnow, happend⟩ := Action.bind_eq_ok h
    obtain rfl := (Prod.mk.inj hnow).2
    obtain ⟨written, -, rfl⟩ := Action.writeFile_eq_ok happend
    exact ⟨rfl, rfl⟩

/-- A comparison that was applied had all its changes sent that are not left out. -/
theorem apply_eq_ok {report : ApplyReport} {w₁ : World}
    (h : comparison.apply safeMode changeLog w = (.ok report, w₁)) :
    w₁.received = w.received ++ sentTexts safeMode comparison.changes ∧
      report.applied = (sentTexts safeMode comparison.changes).length ∧
      report.skipped = comparison.changes.countP (skips safeMode) := by
  rw [apply_eq] at h
  split at h
  · next hempty =>
    obtain ⟨hreport, rfl⟩ := Prod.mk.inj h
    obtain rfl := Except.ok.inj hreport
    rw [isEmpty, List.isEmpty_iff] at hempty
    rw [hempty]
    exact ⟨(List.append_nil _).symm, rfl, rfl⟩
  · obtain ⟨_, w₂, hlog, hsend⟩ := Action.bind_eq_ok h
    rw [sendChanges_of_accepted (accepted_of_sendChanges hsend)] at hsend
    obtain ⟨hreport, rfl⟩ := Prod.mk.inj hsend
    obtain rfl := Except.ok.inj hreport
    refine ⟨?_, Nat.zero_add _, Nat.zero_add _⟩
    rw [World.receive, (writeLog_eq_ok hlog).2]

/-- A comparison is applied if its log can be written and the server refuses none of
the changes that are not left out. -/
theorem apply_of_accepted {w₁ : World}
    (hlog : comparison.writeLog changeLog w = (.ok (), w₁))
    (haccepted : Accepted w (sentTexts safeMode comparison.changes)) :
    ∃ report last, comparison.apply safeMode changeLog w = (.ok report, last) := by
  rw [apply_eq]
  split
  · exact ⟨_, _, rfl⟩
  · obtain ⟨hserver, hreceived⟩ := writeLog_eq_ok hlog
    refine ⟨_, _, (Action.bind_of_ok hlog).trans (sendChanges_of_accepted ?_)⟩
    rwa [Accepted, hserver, hreceived]

/-! ## How applying ends -/

/-- What writing the log leaves behind: without a log everything as it was; else one
block, with the script of the whole comparison, at the end of the text that was there,
and no other text is changed. -/
inductive Logged (comparison : Comparison) (w : World) : Option String → World → Prop
  | without : Logged comparison w none w
  | appended {path : String} {place : Place}
    (located : (w.files.prepare path).locate? path = some place) :
    Logged comparison w (some path) { w with files := { w.files.prepare path with
      texts := w.files.texts.insert place.path
        ((w.files.texts.get? place.path).getD "" ++ ChangeLog.block comparison w.now) } }

/-- How applying a comparison ends, and in which world. -/
inductive Outcome (comparison : Comparison) (safeMode : Bool) (changeLog : Option String)
    (w : World) : Except Fault ApplyReport × World → Prop
  /-- There is nothing to change: nothing is logged and nothing sent. -/
  | idle (empty : comparison.changes = []) :
    Outcome comparison safeMode changeLog w (.ok ⟨0, 0⟩, w)
  /-- The log cannot be written: no text is, and nothing is sent. -/
  | unlogged {path : String} (changes : comparison.changes ≠ []) (log : changeLog = some path)
    (unwritable : ∀ text, (w.files.prepare path).put? path text = none) :
    Outcome comparison safeMode changeLog w
      (.error .files, { w with files := w.files.prepare path })
  /-- After the log, all changes that are not left out are sent, and none is refused. -/
  | completed {logged : World} (changes : comparison.changes ≠ [])
    (log : Logged comparison w changeLog logged)
    (accepted : Accepted logged (sentTexts safeMode comparison.changes)) :
    Outcome comparison safeMode changeLog w
      (.ok ⟨(sentTexts safeMode comparison.changes).length,
          comparison.changes.length - (sentTexts safeMode comparison.changes).length⟩,
        logged.receive (sentTexts safeMode comparison.changes))
  /-- After the log, changes are sent up to the first that is refused. -/
  | stopped {logged : World} {before after : List Change} {change : Change} {refusal : Refusal}
    (log : Logged comparison w changeLog logged)
    (split : comparison.changes = before ++ change :: after)
    (stops : Stops safeMode logged before change refusal) :
    Outcome comparison safeMode changeLog w
      (.error (.failedChange
          ⟨comparison.database, before.length, change.kind, change.sql, refusal⟩),
        logged.receive (sentTexts safeMode before ++ [change.sql]))

/-- The log is written, or cannot be written. -/
theorem writeLog_cases (comparison : Comparison) (changeLog : Option String) (w : World) :
    (∃ logged, comparison.writeLog changeLog w = (.ok (), logged) ∧
      Logged comparison w changeLog logged) ∨
    ∃ path, changeLog = some path ∧ (∀ text, (w.files.prepare path).put? path text = none) ∧
      comparison.writeLog changeLog w
        = (.error .files, { w with files := w.files.prepare path }) := by
  cases changeLog with
  | none => exact .inl ⟨w, rfl, .without⟩
  | some path =>
    have hwrite : comparison.writeLog (some path) w = Action.writeFile path
        (((w.files.prepare path).read? path).getD "" ++
          ChangeLog.block comparison w.now) w := rfl
    rcases (w.files.prepare path).put?_eq_none_or_exists path with hnone | ⟨place, hplace, hput⟩
    · refine .inr ⟨path, rfl, hnone, ?_⟩
      simp only [hwrite, Action.writeFile, hnone]
    · have hread : (w.files.prepare path).read? path = w.files.texts.get? place.path := by
        rw [Files.read?, hplace, Option.bind_some, Files.texts_prepare]
      refine .inl ⟨_, ?_, .appended hplace⟩
      rw [hwrite, Action.writeFile, hput, hread, Files.texts_prepare]

end Comparison

end SchemaPlan
