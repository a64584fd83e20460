import Mathlib.Algebra.GroupWithZero.Nat
import Mathlib.Data.List.Forall2
import SchemaPlan.Plan.Summary
import SchemaPlan.Proofs.Scripts
set_option autoImplicit false

/-!
# The summary table

The width of a column is counted in bytes while a cell is filled up by characters.  A text
has no more characters than bytes, so each cell fits into its column, and is filled up to
exactly the width (`length_pad`).  A line is made of slots between bars; the slots of each
line are as long as the columns are wide, so the bars of all lines stand at the same places
(`render?_aligned`).
-/

namespace SchemaPlan.Summary

/-! ## Widths -/

theorem length_le_utf8ByteSize (text : String) : text.length ≤ text.utf8ByteSize := by
  induction text using String.push_induction with
  | empty => exact Nat.zero_le _
  | push text c ih =>
    have hc := c.utf8Size_pos
    rw [String.length_push, String.utf8ByteSize_push]
    omega

/-- Each cell fits into its column, counted in bytes. -/
def Fits (widths : List Nat) (cells : List String) : Prop :=
  List.Forall₂ (fun width cell => cell.utf8ByteSize ≤ width) widths cells

theorem length_widen {widths : List Nat} {cells : List String}
    (h : widths.length = cells.length) : (widen widths cells).length = widths.length := by
  rw [widen, List.length_zipWith, ← h, Nat.min_self]

/-- What fits into columns fits into wider ones. -/
theorem Fits.widen {widths : List Nat} {cells others : List String} (h : Fits widths cells)
    (hlength : widths.length = others.length) : Fits (Summary.widen widths others) cells := by
  induction h generalizing others with
  | nil =>
    obtain rfl := List.length_eq_zero_iff.1 hlength.symm
    exact .nil
  | cons hcell _ ih =>
    cases others with
    | nil => exact nomatch hlength
    | cons other others =>
      exact .cons (Nat.le_trans hcell (Nat.le_max_left _ _)) (ih (Nat.succ.inj hlength))

theorem fits_widen_self {widths : List Nat} {cells : List String}
    (hlength : widths.length = cells.length) : Fits (widen widths cells) cells := by
  induction widths generalizing cells with
  | nil =>
    obtain rfl := List.length_eq_zero_iff.1 hlength.symm
    exact .nil
  | cons width widths ih =>
    cases cells with
    | nil => exact nomatch hlength
    | cons cell cells => exact .cons (Nat.le_max_right _ _) (ih (Nat.succ.inj hlength))

theorem length_widen_of_rows {first : List String} {rows : List (List String)}
    {widths : List Nat} (h : ∀ cells ∈ first :: rows, widths.length = cells.length) :
    ∀ cells ∈ rows, (widen widths first).length = cells.length := fun cells hcells => by
  obtain ⟨hfirst, hrest⟩ := List.forall_mem_cons.1 h
  rw [length_widen hfirst, hrest cells hcells]

/-- What fits at the start fits after all rows, and so does each row. -/
theorem fits_foldl {rows : List (List String)} {widths : List Nat}
    (hrows : ∀ cells ∈ rows, widths.length = cells.length) :
    (∀ cells, Fits widths cells → Fits (rows.foldl widen widths) cells) ∧
      ∀ cells ∈ rows, Fits (rows.foldl widen widths) cells := by
  induction rows generalizing widths with
  | nil => exact ⟨fun _ h => h, fun _ h => absurd h List.not_mem_nil⟩
  | cons first rows ih =>
    have hfirst := hrows first List.mem_cons_self
    obtain ⟨hkept, hall⟩ := ih (length_widen_of_rows hrows)
    refine ⟨fun cells h => hkept cells (h.widen hfirst), fun cells hcells => ?_⟩
    rcases List.mem_cons.1 hcells with rfl | hcells
    · exact hkept _ (fits_widen_self hfirst)
    · exact hall cells hcells

theorem forall_widen_le {widths : List Nat} {cells : List String} {limit : Nat}
    (hlength : widths.length = cells.length) :
    (∀ width ∈ widen widths cells, width ≤ limit) ↔
      (∀ width ∈ widths, width ≤ limit) ∧ ∀ cell ∈ cells, cell.utf8ByteSize ≤ limit := by
  induction widths generalizing cells with
  | nil =>
    obtain rfl := List.length_eq_zero_iff.1 hlength.symm
    simp [widen]
  | cons width widths ih =>
    cases cells with
    | nil => exact nomatch hlength
    | cons cell cells =>
      have htail := ih (Nat.succ.inj hlength)
      simp only [widen, List.zipWith_cons_cons, List.forall_mem_cons, Nat.max_le] at htail ⊢
      rw [htail]
      exact and_and_and_comm

/-- No column is wider than a limit if none was, and no cell is longer. -/
theorem forall_foldl_widen_le {rows : List (List String)} {widths : List Nat} {limit : Nat}
    (hrows : ∀ cells ∈ rows, widths.length = cells.length) :
    (∀ width ∈ rows.foldl widen widths, width ≤ limit) ↔
      (∀ width ∈ widths, width ≤ limit) ∧
        ∀ cells ∈ rows, ∀ cell ∈ cells, cell.utf8ByteSize ≤ limit := by
  induction rows generalizing widths with
  | nil => simp
  | cons first rows ih =>
    have hfirst := hrows first List.mem_cons_self
    rw [List.foldl_cons, ih (length_widen_of_rows hrows), forall_widen_le hfirst,
      List.forall_mem_cons, and_assoc]

/-- A cell that fits is filled up to the width of its column. -/
theorem length_pad {width : Nat} {cell : String} (h : cell.utf8ByteSize ≤ width) :
    (pad width cell).length = width := by
  have hlength := length_le_utf8ByteSize cell
  rw [pad, String.length_append, String.length_ofList, List.length_replicate]
  omega

/-! ## Lines -/

/-- The characters of a line: slots between bars. -/
def framed : List (List Char) → List Char
  | [] => ['|']
  | slot :: rest => '|' :: slot ++ framed rest

/-- Where the bars stand around slots of some lengths, the first one at `start`. -/
def barsFrom : Nat → List Nat → List Nat
  | start, [] => [start]
  | start, size :: rest => start :: barsFrom (start + (size + 1)) rest

theorem getElem?_barsFrom_zero (start : Nat) (sizes : List Nat) :
    (barsFrom start sizes)[0]? = some start := by
  cases sizes <;> rfl

theorem length_barsFrom (start : Nat) (sizes : List Nat) :
    (barsFrom start sizes).length = sizes.length + 1 := by
  induction sizes generalizing start with
  | nil => rfl
  | cons size rest ih => rw [barsFrom, List.length_cons, ih, List.length_cons]

theorem le_of_mem_barsFrom {start p : Nat} {sizes : List Nat} (h : p ∈ barsFrom start sizes) :
    start ≤ p := by
  induction sizes generalizing start with
  | nil => exact Nat.le_of_eq (List.mem_singleton.1 h).symm
  | cons size rest ih =>
    rcases List.mem_cons.1 h with rfl | h
    · exact Nat.le_refl _
    · exact Nat.le_trans (Nat.le_add_right _ _) (ih h)

theorem pairwise_barsFrom (start : Nat) (sizes : List Nat) :
    (barsFrom start sizes).Pairwise (· < ·) := by
  induction sizes generalizing start with
  | nil => exact List.pairwise_singleton _ _
  | cons size rest ih =>
    refine List.pairwise_cons.2 ⟨fun p hp => ?_, ih _⟩
    have hle := le_of_mem_barsFrom hp
    omega

/-- The last bar stands behind all slots. -/
theorem getElem?_barsFrom_length (start : Nat) (sizes : List Nat) :
    (barsFrom start sizes)[sizes.length]? = some (start + (sizes.map (· + 1)).sum) := by
  induction sizes generalizing start with
  | nil => rfl
  | cons size rest ih =>
    rw [barsFrom, List.length_cons, List.getElem?_cons_succ, ih, List.map_cons, List.sum_cons,
      Nat.add_assoc]

/-- What stands in a line between two places. -/
def between (line : List Char) (p q : Nat) : List Char := (line.drop (p + 1)).take (q - (p + 1))

/-- A line is as long as its slots and the bars around them. -/
theorem length_framed (slots : List (List Char)) :
    (framed slots).length = ((slots.map List.length).map (· + 1)).sum + 1 := by
  induction slots with
  | nil => rfl
  | cons slot rest ih =>
    rw [framed, List.cons_append, List.length_cons, List.length_append, ih, List.map_cons,
      List.map_cons, List.sum_cons]
    omega

/-- There are bars at the places that the lengths of the slots tell. -/
theorem framed_bars (before : List Char) {slots : List (List Char)} {p : Nat}
    (hp : p ∈ barsFrom before.length (slots.map List.length)) :
    (before ++ framed slots)[p]? = some '|' := by
  induction slots generalizing before with
  | nil =>
    obtain rfl := List.mem_singleton.1 hp
    rw [List.getElem?_append_right (Nat.le_refl _), Nat.sub_self]
    rfl
  | cons slot rest ih =>
    rcases List.mem_cons.1 hp with rfl | hp
    · rw [List.getElem?_append_right (Nat.le_refl _), Nat.sub_self]
      rfl
    · have hbefore :
          before ++ framed (slot :: rest) = (before ++ '|' :: slot) ++ framed rest := by
        rw [framed, List.append_assoc]
      rw [hbefore]
      refine ih _ ?_
      rwa [List.length_append, List.length_cons]

/-- Between two bars that follow each other stands a slot. -/
theorem framed_slots (before : List Char) {slots : List (List Char)}
    {slot : List Char} {j : Nat} (hslot : slots[j]? = some slot) :
    ∃ p q, (barsFrom before.length (slots.map List.length))[j]? = some p ∧
      (barsFrom before.length (slots.map List.length))[j + 1]? = some q ∧
      between (before ++ framed slots) p q = slot := by
  induction slots generalizing before j with
  | nil => exact nomatch hslot
  | cons first rest ih =>
    have hbefore :
        before ++ framed (first :: rest) = (before ++ '|' :: first) ++ framed rest := by
      rw [framed, List.append_assoc]
    have hlength : (before ++ '|' :: first).length = before.length + (first.length + 1) := by
      rw [List.length_append, List.length_cons]
    cases j with
    | zero =>
      obtain rfl := Option.some.inj hslot
      refine ⟨_, _, rfl, getElem?_barsFrom_zero _ _, ?_⟩
      have hsplit : before ++ framed (first :: rest)
          = (before ++ ['|']) ++ (first ++ framed rest) := by
        rw [hbefore, List.append_assoc, List.append_assoc]
        rfl
      rw [hsplit, between, List.drop_left' (by simp), List.take_left' (by omega)]
    | succ j =>
      obtain ⟨p, q, hp, hq, hread⟩ := ih (before ++ '|' :: first) hslot
      rw [hlength] at hp hq
      rw [hbefore]
      exact ⟨p, q, hp, hq, hread⟩

/-- Words with a filler around them, joined by bars. -/
theorem framed_intercalate (filler : Char) : ∀ (word : List Char) (words : List (List Char)),
    ['|', filler] ++ [filler, '|', filler].intercalate (word :: words) ++ [filler, '|']
      = framed ((word :: words).map fun w => filler :: w ++ [filler])
  | word, [] => by
    simp [framed, List.intercalate_singleton]
  | word, next :: words => by
    have ih := framed_intercalate filler next words
    rw [List.intercalate_cons_cons, List.map_cons, framed, ← ih]
    simp

/-- The slots of a line of texts: each with a filler before and behind it. -/
def slotsOf (filler : Char) (texts : List String) : List (List Char) :=
  texts.map fun text => filler :: text.toList ++ [filler]

theorem joined_eq (filler : Char) {texts : List String} (h : texts ≠ []) :
    String.ofList ['|', filler] ++
      String.intercalate (String.ofList [filler, '|', filler]) texts
        ++ String.ofList [filler, '|', '\n']
      = String.ofList (framed (slotsOf filler texts)) ++ "\n" := by
  obtain ⟨text, texts, rfl⟩ := List.exists_cons_of_ne_nil h
  have hframed := framed_intercalate filler text.toList (texts.map String.toList)
  have hslots : slotsOf filler (text :: texts)
      = (text.toList :: texts.map String.toList).map fun w => filler :: w ++ [filler] := by
    simp [slotsOf]
  have hbreak : [filler, '|', '\n'] = [filler, '|'] ++ "\n".toList := rfl
  refine String.toList_inj.1 ?_
  rw [String.toList_append, String.toList_append, String.toList_append,
    String.toList_intercalate, String.toList_ofList, String.toList_ofList,
    String.toList_ofList, String.toList_ofList, hslots, hbreak, ← List.append_assoc,
    List.map_cons, hframed]

/-- The slots of a line of cells. -/
def cellSlots (widths : List Nat) (cells : List String) : List (List Char) :=
  slotsOf ' ' (List.zipWith pad widths cells)

/-- The slots of the line under the headings. -/
def rulerSlots (widths : List Nat) : List (List Char) :=
  slotsOf '-' (widths.map fun width => String.ofList (List.replicate width '-'))

theorem line_eq {widths : List Nat} {cells : List String}
    (h : List.zipWith pad widths cells ≠ []) :
    line widths cells = String.ofList (framed (cellSlots widths cells)) ++ "\n" :=
  joined_eq ' ' h

theorem ruler_eq {widths : List Nat} (h : widths ≠ []) :
    ruler widths = String.ofList (framed (rulerSlots widths)) ++ "\n" :=
  joined_eq '-' (List.map_eq_nil_iff.not.2 h)

/-- The slots of cells that fit are as long as those of the ruler. -/
theorem length_cellSlots {widths : List Nat} {cells : List String} (h : Fits widths cells) :
    (cellSlots widths cells).map List.length = widths.map (· + 2) := by
  induction h with
  | nil => rfl
  | cons hcell _ ih =>
    have hlength := length_pad hcell
    rw [← String.length_toList] at hlength
    refine congrArg₂ List.cons ?_ ih
    rw [List.length_append, List.length_cons, hlength]
    rfl

theorem length_rulerSlots (widths : List Nat) :
    (rulerSlots widths).map List.length = widths.map (· + 2) := by
  simp [rulerSlots, slotsOf]

/-- A cell stands in its slot in full, after one blank and before others. -/
theorem getElem?_cellSlots {widths : List Nat} {cells : List String} {j : Nat} {cell : String}
    (h : Fits widths cells) (hcell : cells[j]? = some cell) :
    ∃ blanks, (cellSlots widths cells)[j]?
      = some (' ' :: cell.toList ++ List.replicate (blanks + 1) ' ') := by
  induction h generalizing j with
  | nil => exact nomatch hcell
  | @cons width first widths cells hfirst hrest ih =>
    cases j with
    | zero =>
      obtain rfl := Option.some.inj hcell
      refine ⟨width - first.length, congrArg some ?_⟩
      beta_reduce
      rw [pad, String.toList_append, String.toList_ofList, List.replicate_succ',
        ← List.cons_append, List.append_assoc]
    | succ j => exact ih hcell

theorem mem_framed {slots : List (List Char)} {c : Char} (h : c ∈ framed slots) :
    c = '|' ∨ ∃ slot ∈ slots, c ∈ slot := by
  induction slots with
  | nil => exact .inl (List.mem_singleton.1 h)
  | cons slot rest ih =>
    rw [framed, List.cons_append, List.mem_cons, List.mem_append] at h
    obtain rfl | h | h := h
    · exact .inl rfl
    · exact .inr ⟨slot, List.mem_cons_self, h⟩
    · exact (ih h).imp_right fun ⟨s, hs, hc⟩ => ⟨s, List.mem_cons_of_mem _ hs, hc⟩

/-- Slots of texts on one line, framed, are a text on one line. -/
theorem oneLine_framed {filler : Char} {texts : List String} (hfiller : filler ≠ '\n')
    (h : ∀ text ∈ texts, OneLine text) :
    OneLine (String.ofList (framed (slotsOf filler texts))) := by
  intro hmem
  rw [String.toList_ofList] at hmem
  obtain hbar | ⟨slot, hslot, hc⟩ := mem_framed hmem
  · exact absurd hbar (by decide)
  obtain ⟨text, htext, rfl⟩ := List.mem_map.1 hslot
  have hmem : '\n' = filler ∨ '\n' ∈ text.toList := by simpa [or_comm, or_assoc] using hc
  exact hmem.elim (hfiller ·.symm) (h text htext)

theorem oneLine_pad {width : Nat} {cell : String} (h : OneLine cell) :
    OneLine (pad width cell) :=
  h.append fun hmem => by
    rw [String.toList_ofList] at hmem
    exact absurd (List.eq_of_mem_replicate hmem) (by decide)

theorem oneLine_cells {widths : List Nat} {cells : List String}
    (h : ∀ cell ∈ cells, OneLine cell) :
    OneLine (String.ofList (framed (cellSlots widths cells))) := by
  refine oneLine_framed (by decide) fun text htext => ?_
  rw [← List.map_uncurry_zip_eq_zipWith] at htext
  obtain ⟨⟨width, cell⟩, hmem, rfl⟩ := List.mem_map.1 htext
  exact oneLine_pad (h cell (List.of_mem_zip hmem).2)

theorem oneLine_ruler (widths : List Nat) :
    OneLine (String.ofList (framed (rulerSlots widths))) := by
  refine oneLine_framed (by decide) fun text htext hmem => ?_
  obtain ⟨width, -, rfl⟩ := List.mem_map.1 htext
  rw [String.toList_ofList] at hmem
  exact absurd (List.eq_of_mem_replicate hmem) (by decide)

/-! ## The table -/

/-- The widths of the columns of a table. -/
def tableWidths (comparisons : List Comparison) : List Nat :=
  columnWidths (comparisons.map row)

theorem length_rows {comparisons : List Comparison} :
    ∀ cells ∈ comparisons.map row, (headings.map (·.utf8ByteSize)).length = cells.length :=
  List.forall_mem_map.2 fun _ _ => rfl

/-- The headings and each row fit into the columns. -/
theorem fits_tableWidths (comparisons : List Comparison) :
    Fits (tableWidths comparisons) headings ∧
      ∀ comparison ∈ comparisons, Fits (tableWidths comparisons) (row comparison) := by
  have hheadings : Fits (headings.map (·.utf8ByteSize)) headings :=
    List.forall₂_map_left_iff.2 (List.forall₂_same.2 fun _ _ => Nat.le_refl _)
  obtain ⟨hkept, hall⟩ := fits_foldl length_rows
  exact ⟨hkept headings hheadings, fun comparison h => hall _ (List.mem_map_of_mem h)⟩

/-- A table can be printed exactly when no cell is longer than the limit. -/
theorem fits_iff {comparisons : List Comparison} :
    fits comparisons = true ↔
      ∀ comparison ∈ comparisons, ∀ cell ∈ row comparison, cell.utf8ByteSize ≤ widthLimit := by
  have hheadings : ∀ width ∈ headings.map (·.utf8ByteSize), width ≤ widthLimit := by decide
  simp only [fits, List.all_eq_true, decide_eq_true_eq]
  rw [columnWidths, forall_foldl_widen_le length_rows, and_iff_right hheadings,
    List.forall_mem_map]

/-- The slots of the lines of a table, from the top. -/
def tableSlots (comparisons : List Comparison) : List (List (List Char)) :=
  let widths := tableWidths comparisons
  cellSlots widths headings :: rulerSlots widths ::
    comparisons.map fun comparison => cellSlots widths (row comparison)

/-- The lines of a table, from the top and without their ends. -/
def tableLines (comparisons : List Comparison) : List String :=
  (tableSlots comparisons).map fun slots => String.ofList (framed slots)

/-- The places of the bars in each line of a table. -/
def tableBars (comparisons : List Comparison) : List Nat :=
  barsFrom 0 ((tableWidths comparisons).map (· + 2))

theorem render_eq (comparisons : List Comparison) :
    render comparisons = String.join ((tableLines comparisons).map (· ++ "\n")) := by
  obtain ⟨hheadings, hrows⟩ := fits_tableWidths comparisons
  have hline {cells : List String} (h : Fits (tableWidths comparisons) cells)
      (hcells : cells ≠ []) : List.zipWith pad (tableWidths comparisons) cells ≠ [] := by
    rw [Ne, List.zipWith_eq_nil_iff, not_or]
    exact ⟨fun hnil => hcells (List.length_eq_zero_iff.1 (h.length_eq ▸ hnil ▸ rfl)), hcells⟩
  have hwidths : tableWidths comparisons ≠ [] := fun hnil =>
    hline hheadings (by decide) (by rw [hnil]; rfl)
  have hbody : (comparisons.map row).map (line (tableWidths comparisons))
      = comparisons.map fun comparison => String.ofList
          (framed (cellSlots (tableWidths comparisons) (row comparison))) ++ "\n" := by
    rw [List.map_map]
    exact List.map_congr_left fun comparison h =>
      line_eq (hline (hrows comparison h) (List.cons_ne_nil _ _))
  change line (tableWidths comparisons) headings ++ ruler (tableWidths comparisons)
      ++ String.join ((comparisons.map row).map (line (tableWidths comparisons))) = _
  rw [line_eq (hline hheadings (by decide)), ruler_eq hwidths, hbody, tableLines, tableSlots,
    List.map_cons, List.map_cons, List.map_cons, List.map_cons, String.join_cons,
    String.join_cons, List.map_map, List.map_map, String.append_assoc]
  rfl

/-- The slots of each line are as long as the columns with the fillers around the cells. -/
theorem length_of_mem_tableSlots {comparisons : List Comparison} {slots : List (List Char)}
    (h : slots ∈ tableSlots comparisons) :
    slots.map List.length = (tableWidths comparisons).map (· + 2) := by
  obtain ⟨hheadings, hrows⟩ := fits_tableWidths comparisons
  rcases List.mem_cons.1 h with rfl | h
  · exact length_cellSlots hheadings
  rcases List.mem_cons.1 h with rfl | h
  · exact length_rulerSlots _
  · obtain ⟨comparison, hmem, rfl⟩ := List.mem_map.1 h
    exact length_cellSlots (hrows comparison hmem)

/-- The cells of a row stand in a line in full, each between two bars that follow each other,
with one blank before it and blanks behind it. -/
def Shows (bars : List Nat) (cells : List String) (line : String) : Prop :=
  ∀ j cell, cells[j]? = some cell → ∃ p q, bars[j]? = some p ∧ bars[j + 1]? = some q ∧
    ∃ blanks, between line.toList p q = ' ' :: cell.toList ++ List.replicate (blanks + 1) ' '

theorem shows_cellSlots {widths : List Nat} {cells : List String} (h : Fits widths cells) :
    Shows (barsFrom 0 (widths.map (· + 2))) cells
      (String.ofList (framed (cellSlots widths cells))) := by
  intro j cell hcell
  obtain ⟨blanks, hslot⟩ := getElem?_cellSlots h hcell
  obtain ⟨p, q, hp, hq, hbetween⟩ := framed_slots [] hslot
  rw [length_cellSlots h] at hp hq
  refine ⟨p, q, hp, hq, blanks, ?_⟩
  rwa [String.toList_ofList]

/-- The lines of a table: one for the headings, a ruler, and one for each comparison, of one
length, with the bars of all of them at the same places and each cell in full. -/
structure Aligned (comparisons : List Comparison) (lines : List String) (bars : List Nat)
    (width : Nat) : Prop where
  count : lines.length = 2 + comparisons.length
  unbroken : ∀ line ∈ lines, OneLine line
  length : ∀ line ∈ lines, line.length = width
  ordered : bars.Pairwise (· < ·)
  ends : bars.length = headings.length + 1 ∧ bars[0]? = some 0 ∧
    bars[headings.length]? = some (width - 1)
  barred : ∀ line ∈ lines, ∀ p ∈ bars, line.toList[p]? = some '|'
  top : ∃ line, lines[0]? = some line ∧ Shows bars headings line
  body : ∀ (i : Nat) (comparison : Comparison), comparisons[i]? = some comparison →
    ∃ line, lines[i + 2]? = some line ∧ Shows bars (row comparison) line

theorem oneLine_of_mem_tableLines {comparisons : List Comparison} {line : String}
    (h : ∀ comparison ∈ comparisons,
      OneLine comparison.databaseKey ∧ OneLine comparison.database)
    (hline : line ∈ tableLines comparisons) : OneLine line := by
  obtain ⟨slots, hslots, rfl⟩ := List.mem_map.1 hline
  rcases List.mem_cons.1 hslots with rfl | hslots
  · exact oneLine_cells (by decide)
  rcases List.mem_cons.1 hslots with rfl | hslots
  · exact oneLine_ruler _
  obtain ⟨comparison, hmem, rfl⟩ := List.mem_map.1 hslots
  obtain ⟨hkey, hdatabase⟩ := h comparison hmem
  refine oneLine_cells fun cell hcell => ?_
  simp only [row, List.mem_cons, List.not_mem_nil, or_false] at hcell
  obtain rfl | rfl | rfl | rfl | rfl := hcell
  · exact hkey
  · exact hdatabase
  all_goals exact .toString_nat _

/-- The table of comparisons is aligned, whatever their texts are. -/
theorem aligned_tableLines {comparisons : List Comparison}
    (h : ∀ comparison ∈ comparisons,
      OneLine comparison.databaseKey ∧ OneLine comparison.database) :
    ∃ width, Aligned comparisons (tableLines comparisons) (tableBars comparisons) width := by
  obtain ⟨hheadings, hrows⟩ := fits_tableWidths comparisons
  have hcolumns : (tableWidths comparisons).length = headings.length := hheadings.length_eq
  refine ⟨(((tableWidths comparisons).map (· + 2)).map (· + 1)).sum + 1, ?_⟩
  refine { count := ?_, unbroken := fun line hline => oneLine_of_mem_tableLines h hline,
           length := ?_, ordered := pairwise_barsFrom _ _, ends := ⟨?_, ?_, ?_⟩, barred := ?_,
           top := ⟨_, rfl, shows_cellSlots hheadings⟩, body := ?_ }
  · rw [tableLines, List.length_map, tableSlots, List.length_cons, List.length_cons,
      List.length_map]
    omega
  · intro line hline
    obtain ⟨slots, hslots, rfl⟩ := List.mem_map.1 hline
    rw [String.length_ofList, length_framed, length_of_mem_tableSlots hslots]
  · rw [tableBars, length_barsFrom, List.length_map, hcolumns]
  · exact getElem?_barsFrom_zero _ _
  · have hlast := getElem?_barsFrom_length 0 ((tableWidths comparisons).map (· + 2))
    rwa [List.length_map, hcolumns, Nat.zero_add] at hlast
  · intro line hline p hp
    obtain ⟨slots, hslots, rfl⟩ := List.mem_map.1 hline
    rw [tableBars, ← length_of_mem_tableSlots hslots] at hp
    rw [String.toList_ofList]
    exact framed_bars [] hp
  · intro i comparison hget
    refine ⟨_, ?_, shows_cellSlots (hrows comparison (List.mem_of_getElem? hget))⟩
    rw [tableLines, tableSlots, List.map_cons, List.map_cons, List.getElem?_cons_succ,
      List.getElem?_cons_succ, List.getElem?_map, List.getElem?_map, hget]
    rfl

/-- Comparisons whose keys and databases break no line are rendered as an aligned table if no
cell is longer than the limit, counted in bytes, and not rendered otherwise. -/
theorem render?_aligned {comparisons : List Comparison}
    (h : ∀ comparison ∈ comparisons,
      OneLine comparison.databaseKey ∧ OneLine comparison.database) :
    ((∀ comparison ∈ comparisons, ∀ cell ∈ row comparison, cell.utf8ByteSize ≤ widthLimit) →
      ∃ lines bars width, render? comparisons = some (String.join (lines.map (· ++ "\n"))) ∧
        Aligned comparisons lines bars width) ∧
    ((∃ comparison ∈ comparisons, ∃ cell ∈ row comparison, widthLimit < cell.utf8ByteSize) →
      render? comparisons = none) := by
  refine ⟨fun hfits => ?_, fun ⟨comparison, hmem, cell, hcell, hlong⟩ => ?_⟩
  · obtain ⟨width, haligned⟩ := aligned_tableLines h
    refine ⟨_, _, width, ?_, haligned⟩
    rw [render?, if_pos (fits_iff.2 hfits), render_eq]
  · rw [render?, if_neg]
    intro hfits
    exact absurd (fits_iff.1 hfits comparison hmem cell hcell) (Nat.not_le.2 hlong)

/-- A comparison with characters of more than one byte in its key. -/
def accented : Comparison :=
  { databaseKey := "schöne_läden", database := "shop", additions := 12 }

theorem render?_aligned_accented :
    (∀ comparison ∈ [accented, { database := "crm" }],
        OneLine comparison.databaseKey ∧ OneLine comparison.database) ∧
      (∃ lines bars width,
        render? [accented, { database := "crm" }] = some (String.join (lines.map (· ++ "\n"))) ∧
          Aligned [accented, { database := "crm" }] lines bars width) := by
  have hlines : ∀ comparison ∈ [accented, { database := "crm" }],
      OneLine comparison.databaseKey ∧ OneLine comparison.database := by decide
  exact ⟨hlines, (render?_aligned hlines).1 (by decide)⟩

/-- A comparison whose database has a name of 65,536 letters. -/
def overlong : Comparison := { database := String.ofList (List.replicate (widthLimit + 1) 'a') }

theorem render?_overlong :
    (OneLine overlong.databaseKey ∧ OneLine overlong.database) ∧ render? [overlong] = none := by
  have hsize : widthLimit < overlong.database.utf8ByteSize := by
    have hle := length_le_utf8ByteSize overlong.database
    rwa [overlong, String.length_ofList, List.length_replicate] at hle
  have hlines : OneLine overlong.databaseKey ∧ OneLine overlong.database := by
    refine ⟨by decide, fun hmem => ?_⟩
    rw [overlong, String.toList_ofList] at hmem
    exact absurd (List.eq_of_mem_replicate hmem) (by decide)
  refine ⟨hlines, ?_⟩
  rw [render?, if_neg]
  intro hfits
  have hcell : overlong.database ∈ row overlong := List.mem_cons_of_mem _ List.mem_cons_self
  exact absurd (fits_iff.1 hfits overlong List.mem_cons_self _ hcell) (Nat.not_le.2 hsize)

end SchemaPlan.Summary
