import SchemaPlan.Keyed

set_option autoImplicit false

/-!
# Files

The files that a run sees and leaves behind: texts under their places, and the
directories that are there.  A path is followed part by part, and each part but
the last must lead to a directory; so `missing/../file` leads nowhere, even where
`file` does not.

Main statement: what was written at a path is read there (`read?_write?`).
-/

namespace SchemaPlan

/-- A place in the tree of files: its steps from the root, or else from the
starting directory. -/
structure Place where
  rooted : Bool := false
  steps : List String := []
  deriving DecidableEq, Repr, Inhabited

namespace Place

/-- Take one step: an empty one and a dot stay; two dots lead back, out of the
starting directory too, but not out of the root. -/
def step (place : Place) (part : String) : Place :=
  if part == "" || part == "." then place
  else if part != ".." then { place with steps := place.steps ++ [part] }
  else if place.steps.isEmpty && place.rooted then place
  else if place.steps.isEmpty || place.steps.getLast? == some ".." then
    { place with steps := place.steps ++ [part] }
  else { place with steps := place.steps.dropLast }

/-- Where paths start: the root, or the starting directory and what is above it. -/
def isStart (place : Place) : Bool := place.steps.all (· == "..")

/-- The one path of a place. -/
def path (place : Place) : String :=
  (if place.rooted then "/" else "") ++ String.intercalate "/" place.steps

end Place

/-! ## Paths -/

namespace Path

/-- The greatest number of bytes of a name. -/
def nameLimit : Nat := 255

/-- The greatest number of bytes of a path. -/
def pathLimit : Nat := 4095

/-- The parts of a path between its slashes. -/
def parts (path : String) : List String :=
  (path.toList.splitOn '/').map String.ofList

/-- Where a path starts. -/
def start (path : String) : Place := { rooted := path.toList.head? == some '/' }

/-- Whether a text is a path: it is not empty nor too long, and has no null
character. -/
def isWellFormed (path : String) : Bool :=
  path != "" && path.utf8ByteSize ≤ pathLimit && !path.toList.contains '\x00'

/-- Whether a path can name a file: its last part is a name. -/
def namesFile (path : String) : Bool :=
  match (parts path).getLast? with
  | some part => part != "" && part != "." && part != ".."
  | none => false

/-- The parts of the path to the directory that a path is in. -/
def directoryParts (path : String) : List String :=
  ((parts path).filter fun part => part != "" && part != ".").dropLast

end Path

/-! ## Files and directories -/

/-- Texts under the paths of their places, and directories. -/
structure Files where
  texts : Keyed String := .empty
  directories : List Place := []
  deriving DecidableEq, Repr, Inhabited

namespace Files

/-- Whether a place is a directory. -/
def isDirectory (files : Files) (place : Place) : Bool :=
  place.isStart || files.directories.contains place

/-- Take one step from a place, which must be a directory, with a name that is
not too long. -/
def step? (files : Files) (place : Place) (part : String) : Option Place :=
  if files.isDirectory place && part.utf8ByteSize ≤ Path.nameLimit then some (place.step part)
  else none

/-- The place that a path leads to; there need not be anything. -/
def locate? (files : Files) (path : String) : Option Place :=
  if Path.isWellFormed path then
    (Path.parts path).foldlM files.step? (Path.start path)
  else none

/-- The text of the file at a path. -/
def read? (files : Files) (path : String) : Option String :=
  (files.locate? path).bind fun place => files.texts.get? place.path

/-- Whether there is something at a path; behind a last slash, a directory. -/
def contains (files : Files) (path : String) : Bool :=
  match files.locate? path with
  | some place => files.isDirectory place || files.texts.contains place.path
  | none => false

/-- Make the directories on a way that are missing, up to one that cannot be
made because a file is in its place or its name is too long. -/
def makeWay (files : Files) (place : Place) : List String → Files
  | [] => files
  | part :: rest =>
    let next := place.step part
    if Path.nameLimit < part.utf8ByteSize then files
    else if files.isDirectory next then makeWay files next rest
    else if files.texts.contains next.path then files
    else makeWay { files with directories := next :: files.directories } next rest

/-- Make the directories that the file at a path is to be in, if they are
missing and can be made. -/
def prepare (files : Files) (path : String) : Files :=
  if (Path.directoryParts path).any fun part => part.toList.contains '\x00' then files
  else files.makeWay (Path.start path) (Path.directoryParts path)

/-- Put a text in the place of a file, in directories that are there. -/
def put? (files : Files) (path text : String) : Option Files :=
  match files.locate? path with
  | none => none
  | some place =>
    if Path.namesFile path && !files.isDirectory place then
      some { files with texts := files.texts.insert place.path text }
    else none

/-- Put a text in the place of a file, in directories that are made where they
are missing. -/
def write? (files : Files) (path text : String) : Option Files :=
  (files.prepare path).put? path text

/-! ## What writing leaves as it was -/

/-- Making directories leaves the texts of files as they are. -/
theorem texts_makeWay (files : Files) (place : Place) (parts : List String) :
    (files.makeWay place parts).texts = files.texts := by
  induction parts generalizing files place with
  | nil => rfl
  | cons part rest ih =>
    rw [makeWay]
    split
    · rfl
    · split
      · exact ih _ _
      · split
        · rfl
        · exact ih _ _

theorem texts_prepare (files : Files) (path : String) :
    (files.prepare path).texts = files.texts := by
  rw [prepare]
  split
  · rfl
  · exact texts_makeWay _ _ _

/-- Whether a text can be put in a place does not depend on the text. -/
theorem put?_eq_none_or_exists (files : Files) (path : String) :
    (∀ text, files.put? path text = none) ∨
      ∃ place, files.locate? path = some place ∧ ∀ text,
        files.put? path text
          = some { files with texts := files.texts.insert place.path text } := by
  cases hplace : files.locate? path with
  | none => exact .inl fun text => by rw [put?, hplace]
  | some place =>
    by_cases hfile : (Path.namesFile path && !files.isDirectory place) = true
    · refine .inr ⟨place, rfl, fun text => ?_⟩
      simp only [put?, hplace, if_pos hfile]
    · refine .inl fun text => ?_
      simp only [put?, hplace, if_neg hfile]

/-! ## What is read after writing -/

@[simp] theorem locate?_with_texts (files : Files) (texts : Keyed String) (path : String) :
    locate? { files with texts := texts } path = files.locate? path := rfl

/-- A file that was put in its place is read as it was put there. -/
theorem read?_put? {files written : Files} {path text : String}
    (h : files.put? path text = some written) : written.read? path = some text := by
  unfold put? at h
  split at h
  · exact absurd h (by simp)
  · next place hplace =>
    split at h
    · obtain rfl := Option.some.inj h
      simp [read?, hplace, Keyed.get?_insert]
    · exact absurd h (by simp)

/-- A file that was written is read as it was written. -/
theorem read?_write? {files written : Files} {path text : String}
    (h : files.write? path text = some written) : written.read? path = some text :=
  read?_put? h

end Files

end SchemaPlan
