import Alerting.Message.Blocks
import Alerting.Proofs.Message.Markup
import Alerting.Proofs.Text.Markup.Fragments
/-!
# Reading a table

A table that was written for a query result can be read back from its tags: the texts of its cells
are escaped, so that they hold no tags of their own, and are decoded again one by one.
-/

namespace Alerting.Message

open Text Text.Markup

/-! ## Rows and cells -/

/-- What a reader has read of a table from some place on: the text up to the next end of a cell, the
cells up to the next end of a row, and the rows. -/
structure TableRest where
  text : List Char := []
  cells : List String := []
  rows : List (List String) := []

namespace TableRest

def char (c : Char) (r : TableRest) : TableRest :=
  { r with text := c :: r.text }

def tag (body : List Char) (r : TableRest) : TableRest :=
  match String.ofList body with
  | "th" | "td" => { cells := String.ofList (decodeEntities r.text) :: r.cells, rows := r.rows }
  | "/th" | "/td" => { cells := r.cells, rows := r.rows }
  | "tr" => { rows := r.cells :: r.rows }
  | "/tr" => { rows := r.rows }
  | _ => r

def read (fs : List Fragment) (r : TableRest) : TableRest :=
  fs.foldr (Fragment.read char tag) r

theorem read_append (fs gs : List Fragment) (r : TableRest) :
    read (fs ++ gs) r = read fs (read gs r) :=
  List.foldr_append

theorem read_text (run : List Char) (fs : List Fragment) (r : TableRest) :
    read (.text run :: fs) r = { read fs r with text := run ++ (read fs r).text } := by
  change run.foldr char (read fs r) = _
  induction run with
  | nil => rfl
  | cons c run ih => rw [List.foldr_cons, ih, char, List.cons_append]

theorem read_tag (body : List Char) (fs : List Fragment) (r : TableRest) :
    read (.tag body :: fs) r = tag body (read fs r) :=
  rfl

end TableRest

def readTable (html : String) : List (List String) :=
  (readFrom TableRest.char TableRest.tag {} .text html.toList).rows

/-! ## Fragments of a table -/

def cellFragments (tag : String) (text : String) : List Fragment :=
  [.tag tag.toList, .text (escapeHtml text).toList, .tag ('/' :: tag.toList)]

def rowFragments (tag : String) (texts : List String) : List Fragment :=
  .tag "tr".toList :: (texts.flatMap (cellFragments tag) ++ [.tag "/tr".toList])

def tableStart : List Fragment :=
  [.tag "table class=\"vigil-table\"".toList, .text ['\n'], .tag "thead".toList]

def tableMiddle : List Fragment :=
  [.tag "/thead".toList, .text ['\n'], .tag "tbody".toList]

def tableEnd : List Fragment :=
  [.text ['\n'], .tag "/tbody".toList, .text ['\n'], .tag "/table".toList]

def tableFragments (columns : List String) (rows : List (List String)) : List Fragment :=
  tableStart ++ rowFragments "th" columns ++ tableMiddle ++
    rows.flatMap (fun row => .text ['\n'] :: rowFragments "td" row) ++ tableEnd

def visibleRows (result : Query.Result) (limit : Option Nat) : List (List String) :=
  (result.rows.take (limit.elim 50 (min · 50))).map (·.map Json.display)

theorem html_rowFragments (tag : String) (texts : List String) :
    Markup.html (rowFragments tag texts) =
      "<tr>" ++ String.join (texts.map fun text =>
        "<" ++ tag ++ ">" ++ escapeHtml text ++ ("</" ++ tag ++ ">")) ++ "</tr>" := by
  rw [← String.toList_inj]
  simp [Markup.html, rowFragments, cellFragments, Fragment.html, String.toList_join,
    List.flatMap_map, List.flatMap_assoc]

theorem html_rows (rows : List (List Json)) :
    Markup.html ((rows.map (·.map Json.display)).flatMap fun row =>
      .text ['\n'] :: rowFragments "td" row) = String.join (rows.map rowHtml) := by
  induction rows with
  | nil => rfl
  | cons row rows ih =>
      have hcell : (fun text => "<" ++ "td" ++ ">" ++ escapeHtml text ++ ("</" ++ "td" ++ ">")) ∘
          Json.display = cellHtml := rfl
      rw [List.map_cons, List.flatMap_cons, html_append, ih, html_cons, html_rowFragments,
        List.map_map, hcell, List.map_cons, String.join_cons, rowHtml]
      simp only [String.append_assoc]
      rfl

theorem min_maxTableRows (limit : Option Nat) :
    min (limit.getD maxTableRows) maxTableRows = limit.elim 50 (min · 50) := by
  cases limit with
  | none => rfl
  | some n => rfl

theorem tableHtml_eq (result : Query.Result) (limit : Option Nat) :
    tableHtml result limit =
      Markup.html (tableFragments result.columns (visibleRows result limit)) := by
  have hstart : "<table class=\"vigil-table\">\n<thead><tr>" =
      Markup.html tableStart ++ "<tr>" := by decide +kernel
  have hmiddle : "</tr></thead>\n<tbody>" = "</tr>" ++ Markup.html tableMiddle := by decide +kernel
  have hend : "\n</tbody>\n</table>" = Markup.html tableEnd := by decide +kernel
  have hheading : (fun text => "<" ++ "th" ++ ">" ++ escapeHtml text ++ ("</" ++ "th" ++ ">")) =
      fun column => "<th>" ++ escapeHtml column ++ "</th>" := rfl
  unfold tableHtml
  rw [min_maxTableRows, tableFragments, html_append, html_append, html_append, html_append,
    html_rowFragments, hheading, visibleRows, html_rows, hstart, hmiddle, hend]
  simp only [String.append_assoc]

/-! ## Reading back -/

theorem isSound_of_mem_rowFragments {tag : String} (h : tag = "th" ∨ tag = "td")
    {texts : List String} : ∀ f ∈ rowFragments tag texts, f.IsSound := by
  have hcell (text : String) : ∀ f ∈ cellFragments tag text, f.IsSound := by
    have htext : (Fragment.text (escapeHtml text).toList).IsSound :=
      fun hmem => (ne_of_mem_escapeHtml hmem).1 rfl
    rcases h with rfl | rfl
    · simpa [cellFragments, htext] using by decide
    · simpa [cellFragments, htext] using by decide
  intro f hf
  rw [rowFragments, List.mem_cons, List.mem_append, List.mem_flatMap, List.mem_singleton] at hf
  rcases hf with rfl | ⟨text, -, hf⟩ | rfl
  · decide
  · exact hcell text f hf
  · decide

namespace TableRest

theorem read_cellFragments {tag : String} (h : tag = "th" ∨ tag = "td") (text : String)
    (r : TableRest) :
    read (cellFragments tag text) r = { cells := text :: r.cells, rows := r.rows } := by
  have hopen (r : TableRest) : r.tag tag.toList =
      { cells := String.ofList (decodeEntities r.text) :: r.cells, rows := r.rows } := by
    rcases h with rfl | rfl
    · rfl
    · rfl
  have hclose (r : TableRest) :
      r.tag ('/' :: tag.toList) = { cells := r.cells, rows := r.rows } := by
    rcases h with rfl | rfl
    · rfl
    · rfl
  rw [cellFragments, read_tag, hopen, read_text, read_tag, hclose, List.append_nil,
    decodeEntities_escapeHtml, String.ofList_toList]
  rfl

theorem read_cells {tag : String} (h : tag = "th" ∨ tag = "td") (texts cells : List String)
    (rows : List (List String)) :
    read (texts.flatMap (cellFragments tag)) { cells, rows } =
      { cells := texts ++ cells, rows } := by
  induction texts with
  | nil => rfl
  | cons text texts ih =>
      rw [List.flatMap_cons, read_append, ih, read_cellFragments h, List.cons_append]

theorem read_rowFragments {tag : String} (h : tag = "th" ∨ tag = "td") (texts : List String)
    (r : TableRest) : read (rowFragments tag texts) r = { rows := texts :: r.rows } := by
  have hclose : read [.tag "/tr".toList] r = { rows := r.rows } := rfl
  rw [rowFragments, read_tag, read_append, hclose, read_cells h, List.append_nil]
  rfl

theorem rows_read_rows (rows : List (List String)) (r : TableRest) :
    (read (rows.flatMap fun row => .text ['\n'] :: rowFragments "td" row) r).rows =
      rows ++ r.rows := by
  induction rows with
  | nil => rfl
  | cons row rows ih =>
      rw [List.flatMap_cons, read_append, read_text, read_rowFragments (.inr rfl), ih]
      rfl

theorem rows_read_table (columns : List String) (rows : List (List String)) :
    (read (tableFragments columns rows) {}).rows = columns :: rows := by
  have hstart (r : TableRest) : (read tableStart r).rows = r.rows := rfl
  have hmiddle (r : TableRest) : (read tableMiddle r).rows = r.rows := rfl
  have hend : (read tableEnd {}).rows = [] := rfl
  rw [tableFragments, read_append, read_append, read_append, read_append, hstart,
    read_rowFragments (.inl rfl), hmiddle, rows_read_rows, hend, List.append_nil]

end TableRest

theorem isSound_of_mem_tableFragments {columns : List String} {rows : List (List String)} :
    ∀ f ∈ tableFragments columns rows, f.IsSound := by
  simp only [tableFragments, List.forall_mem_append, List.forall_mem_flatMap, List.forall_mem_cons]
  refine ⟨⟨⟨⟨by decide, isSound_of_mem_rowFragments (.inl rfl)⟩, by decide⟩, fun row _ => ?_⟩,
    by decide⟩
  exact ⟨by decide, isSound_of_mem_rowFragments (.inr rfl)⟩

/-! ## Markup of a table -/

/-- The tags of a table with so many columns, and so many cells in its rows. -/
def tableTags (columns : Nat) (lengths : List Nat) : List Char :=
  "<table class=\"vigil-table\"><thead><tr>".toList ++
    (List.replicate columns "<th></th>".toList).flatten ++ "</tr></thead><tbody>".toList ++
    lengths.flatMap (fun length =>
      "<tr>".toList ++ (List.replicate length "<td></td>".toList).flatten ++ "</tr>".toList) ++
    "</tbody></table>".toList

theorem reads_cell {start stop : String} {tags : List Char}
    (hstart : Reads false start tags false) {tags' : List Char}
    (hstop : Reads false stop tags' false)
    (text : String) : Reads false (start ++ escapeHtml text ++ stop) (tags ++ tags') false := by
  have htext := hstart.append (.of_isPlain (isPlain_of_mem_escapeHtml text))
  rw [List.append_nil] at htext
  exact htext.append hstop

theorem reads_rowHtml (row : List Json) :
    Reads false (rowHtml row)
      ("<tr>".toList ++ (List.replicate row.length "<td></td>".toList).flatten ++ "</tr>".toList)
      false := by
  have hopen : Reads false "<td>" "<td>".toList false := ⟨by decide, by decide⟩
  have hclose : Reads false "</td>" "</td>".toList false := ⟨by decide, by decide⟩
  have hstart : Reads false "\n<tr>" "<tr>".toList false := ⟨by decide, by decide⟩
  have hend : Reads false "</tr>" "</tr>".toList false := ⟨by decide, by decide⟩
  have hcells := Reads.join_map_const (fun cell : Json => reads_cell hopen hclose cell.display) row
  exact (hstart.append hcells).append hend

theorem markup_tableHtml (result : Query.Result) (limit : Option Nat) :
    markup (tableHtml result limit) =
      tableTags result.columns.length ((visibleRows result limit).map List.length) := by
  have hopen : Reads false "<th>" "<th>".toList false := ⟨by decide, by decide⟩
  have hclose : Reads false "</th>" "</th>".toList false := ⟨by decide, by decide⟩
  have hstart : Reads false "<table class=\"vigil-table\">\n<thead><tr>"
      "<table class=\"vigil-table\"><thead><tr>".toList false := ⟨by decide, by decide⟩
  have hmiddle : Reads false "</tr></thead>\n<tbody>" "</tr></thead><tbody>".toList false :=
    ⟨by decide, by decide⟩
  have hend : Reads false "\n</tbody>\n</table>" "</tbody></table>".toList false :=
    ⟨by decide, by decide⟩
  have hheadings := Reads.join_map_const (reads_cell hopen hclose) result.columns
  have hrows := Reads.join_map (result.rows.take (min (limit.getD maxTableRows) maxTableRows))
    fun row _ => reads_rowHtml row
  have hlengths : (visibleRows result limit).map List.length =
      (result.rows.take (min (limit.getD maxTableRows) maxTableRows)).map List.length := by
    rw [visibleRows, min_maxTableRows, List.map_map]
    exact List.map_congr_left fun row _ => List.length_map _
  unfold tableHtml tableTags
  rw [hlengths, List.flatMap_map]
  exact ((((hstart.append hheadings).append hmiddle).append hrows).append hend).markupFrom_eq

/-- A table is read back with its headings and the texts of the rows that it shows, and its markup
is that of a table of its shape, whatever the texts are.  So tables differ where these texts do. -/
theorem readTable_tableHtml (result : Query.Result) (limit : Option Nat) :
    readTable (tableHtml result limit) = result.columns :: visibleRows result limit ∧
    markup (tableHtml result limit) =
      tableTags result.columns.length ((visibleRows result limit).map List.length) ∧
    ∀ (result' : Query.Result) (limit' : Option Nat),
      tableHtml result limit = tableHtml result' limit' ↔
        result.columns = result'.columns ∧
          visibleRows result limit = visibleRows result' limit' := by
  have hread (result : Query.Result) (limit : Option Nat) :
      readTable (tableHtml result limit) = result.columns :: visibleRows result limit := by
    rw [tableHtml_eq, readTable, readFrom_html isSound_of_mem_tableFragments]
    exact TableRest.rows_read_table _ _
  refine ⟨hread result limit, markup_tableHtml result limit,
    fun result' limit' => ⟨fun h => ?_, ?_⟩⟩
  · exact List.cons.inj ((hread result limit).symm.trans ((congrArg readTable h).trans
      (hread result' limit')))
  · rintro ⟨hcolumns, hrows⟩
    rw [tableHtml_eq, tableHtml_eq, hcolumns, hrows]

example : readTable (tableHtml { columns := ["</th>"], rows := [[]] } none) = [["</th>"], []] := by
  decide +kernel

end Alerting.Message
