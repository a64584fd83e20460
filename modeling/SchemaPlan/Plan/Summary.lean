import SchemaPlan.Plan.Comparison

set_option autoImplicit false

/-!
# Summaries

Several comparisons as a table of fixed width.  A column is as wide as its
longest cell counted in UTF-8 bytes, while a cell is filled up by characters; so
each cell fits, and the lines are of one length.
-/

namespace SchemaPlan.Summary

/-- The headings of the columns. -/
def headings : List String := ["Key", "Connection", "Additions", "Alterations", "Deletions"]

/-- The cells of a comparison. -/
def row (comparison : Comparison) : List String :=
  [comparison.databaseKey, comparison.database, toString comparison.additions,
    toString comparison.alterations, toString comparison.deletions]

/-- The widths of columns, widened to hold a row. -/
def widen (widths : List Nat) (cells : List String) : List Nat :=
  List.zipWith (fun width cell => max width cell.utf8ByteSize) widths cells

/-- The widths that hold the headings and every row. -/
def columnWidths (rows : List (List String)) : List Nat :=
  rows.foldl widen (headings.map (·.utf8ByteSize))

/-- A cell filled up with blanks to a number of characters. -/
def pad (width : Nat) (cell : String) : String :=
  cell ++ String.ofList (List.replicate (width - cell.length) ' ')

/-- A line of cells. -/
def line (widths : List Nat) (cells : List String) : String :=
  "| " ++ String.intercalate " | " (List.zipWith pad widths cells) ++ " |\n"

/-- The line under the headings. -/
def ruler (widths : List Nat) : String :=
  "|-" ++ String.intercalate "-|-"
    (widths.map fun width => String.ofList (List.replicate width '-')) ++ "-|\n"

/-- How wide a column that is printed can be. -/
def widthLimit : Nat := 65535

/-- Whether the table of several comparisons can be printed: no column is too wide. -/
def fits (comparisons : List Comparison) : Bool :=
  (columnWidths (comparisons.map row)).all (· ≤ widthLimit)

/-- The table of several comparisons. -/
def render (comparisons : List Comparison) : String :=
  let rows := comparisons.map row
  let widths := columnWidths rows
  line widths headings ++ ruler widths ++ String.join (rows.map (line widths))

/-- The table of several comparisons, if it can be printed. -/
def render? (comparisons : List Comparison) : Option String :=
  if fits comparisons then some (render comparisons) else none

end SchemaPlan.Summary
