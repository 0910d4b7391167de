import Tabular.Proofs.Session.Replies

/-!
# The reply to a selection can be decoded

Nothing is quoted in the reply to a selection, and yet it can be taken apart again: cut at newlines and at commas it
gives the names of the columns and then the texts of the cells, row by row (`piecesOf_display`). This holds of every
table, since all that is shown are words.

The catalog aside, the pieces and the types of the columns determine the cells (`Row.ofPieces`): a stored text never
spells null, and a number is read back from its digits. So equal replies over the same columns come from equal rows.
Both are the main statement, `Session.decodable_after`.
-/

namespace Tabular

open Text

/-! ## Taking a reply apart -/

/-- The pieces of a text between commas, line by line, once the newline at its end has been dropped. -/
def piecesOf (text : String) : List (List String) :=
  (text.toList.dropLast.splitOn '\n').map fun line => (line.splitOn ',').map String.ofList

/-- The cell that a piece stands for in a column of the type. -/
def Cell.ofPiece (type : ColumnType) (piece : String) : Cell :=
  if piece = "null" then .null
  else
    match type with
    | .int => ((readInteger? piece).map number).getD null
    | .text => text piece

/-- The cells that the pieces of a line stand for in the columns. -/
def Row.ofPieces (columns : List Column) (line : List String) : Row :=
  List.zipWith (fun c piece => Cell.ofPiece c.type piece) columns line

namespace Session

/-- The request is a selection from the table of the name, it asks for these columns, and this is what it finds. -/
def Finds (s : Session) (request name : String) (columns : List Column) (found : Selected) : Prop :=
  ∃ q t slots, Statement.ofText request = .ok (.select q) ∧ q.table.value = name ∧ s.table? name = some t ∧
    t.schema.project q.projection = .ok slots ∧ slots.map (·.column) = columns ∧ t.select q = .ok found

/-- What is found under the columns is replied and can be told from the reply alone. -/
structure Decodable (s : Session) (request name : String) (columns : List Column) (found : Selected) : Prop where
  answer : (s.run request).1 = .ok (.rows found.lines)
  header : found.header = columns.map (·.name)
  ending : ∃ front, reply (s.run request).1 = front ++ "\n"
  /-- The pieces are the names of the columns and then the texts of the cells. -/
  pieces : piecesOf (reply (s.run request).1) = found.header :: found.rows.map (·.map Cell.display)
  complete : ∀ line ∈ piecesOf (reply (s.run request).1), line.length = found.header.length ∧ ∀ p ∈ line, p ≠ ""
  /-- The pieces behind the names stand for the cells. -/
  cells : name ≠ catalogName → (piecesOf (reply (s.run request).1)).tail.map (Row.ofPieces columns) = found.rows
  /-- Whatever is found under the same columns in any session, the same reply tells that it is the same. -/
  unique : name ≠ catalogName → ∀ requests' request' name' found', name' ≠ catalogName →
    (new.after requests').Finds request' name' columns found' →
      reply ((new.after requests').run request').1 = reply (s.run request).1 → found' = found

end Session

/-! ## Lines and pieces -/

/-- Lines that are ended by a sign are separated by it, but for the one at the end. -/
theorem flatten_eq_intercalate {α : Type} {x : α} {lines : List (List α)} (hne : lines ≠ []) :
    (lines.map (· ++ [x])).flatten = [x].intercalate lines ++ [x] := by
  induction lines with
  | nil => exact absurd rfl hne
  | cons l lines ih =>
    cases lines with
    | nil => simp
    | cons l' lines =>
      rw [List.map_cons, List.flatten_cons, ih (List.cons_ne_nil _ _), List.intercalate_cons_cons]
      simp

/-- **Lines of words are found again in the reply that shows them.** -/
theorem piecesOf_display {lines : List (List String)} (hne : lines ≠ []) (h : ∀ l ∈ lines, IsWordLine l) :
    piecesOf (Answer.display (.rows lines)) = lines := by
  have hbreaks : ∀ l ∈ lines.map lineOf, '\n' ∉ l := List.forall_mem_map.mpr fun l hl => (h l hl).lineOf.2
  have hlines : (Answer.display (.rows lines)).toList.dropLast.splitOn '\n' = lines.map lineOf := by
    rw [display_rows, toList_textOf, flatten_eq_intercalate (by simpa using hne), List.dropLast_concat,
      List.splitOn_intercalate '\n' hbreaks (by simpa using hne)]
  rw [piecesOf, hlines, List.map_map]
  calc lines.map _ = lines.map id := by
        refine List.map_congr_left fun l hl => ?_
        exact splitOn_lineOf (h l hl).1 fun p hp => ((h l hl).2 p hp).not_mem rfl
    _ = lines := List.map_id _

/-! ## Cells and pieces -/

/-- A number is not displayed as null. -/
theorem integerText_ne_null (n : Int64) : integerText n ≠ "null" := by
  intro h
  have hread := readInteger?_integerText n
  rw [h] at hread
  have hnull : readInteger? "null" = none := by decide +kernel
  rw [hnull] at hread
  nomatch hread

/-- A cell that can be stored is told by its text and the type of its column. -/
theorem Cell.ofPiece_display {type : ColumnType} {c : Cell} (hf : c.fits type = true) (hs : c.Storable) :
    ofPiece type c.display = c := by
  cases type with
  | int =>
    rcases fits_int_iff.mp hf with rfl | ⟨n, rfl⟩
    · rfl
    · simp [ofPiece, display, integerText_ne_null, readInteger?_integerText]
  | text =>
    rcases fits_text_iff.mp hf with rfl | ⟨s, rfl⟩
    · rfl
    · have hnull : s ≠ "null" := by
        rintro rfl
        exact absurd (storable_text_iff.mp hs).2 (by decide)
      simp [ofPiece, display, hnull]

/-- **A row is told by its texts and the types of the columns.** -/
theorem Row.ofPieces_display {columns : List Column} {r : Row} (hf : Row.Fits columns r) (hs : ∀ c ∈ r, c.Storable) :
    Row.ofPieces columns (r.map Cell.display) = r := by
  induction hf with
  | nil => rfl
  | cons hc _ ih =>
    obtain ⟨hcell, hcells⟩ := List.forall_mem_cons.mp hs
    have hrest := ih hcells
    simp only [Row.ofPieces, List.map_cons, List.zipWith_cons_cons, Cell.ofPiece_display hc hcell] at hrest ⊢
    rw [hrest]

/-! ## What a selection finds -/

namespace Table

variable {name : String} {t : Table} {q : Selection} {slots : List Slot} {found : Selected}

/-- What is found stands under the columns that are asked for, and each row is cut out of one in the table. -/
theorem Proper.exists_output (h : t.Proper name) (hq : (Statement.select q).WellFormed)
    (hp : t.schema.project q.projection = .ok slots) (hf : t.select q = .ok found) :
    found.header = slots.map (·.column.name) ∧
      ∀ r ∈ found.rows, ∃ r' ∈ t.rows, r = slots.map fun slot => r'.cell slot.index := by
  obtain ⟨hnames, hplaces⟩ := Schema.project_names h.nodup hp
  rw [((select_eq_ok_iff h.sound.fits h.nodup hq.2.2).mp hf).2]
  refine ⟨hnames.symm, List.forall_mem_map.mpr fun r' hr' => ⟨r', (List.mem_filter.mp hr').1, ?_⟩⟩
  rw [← hnames, List.map_map]
  refine List.map_congr_left fun slot hs => ?_
  show r'.cell (t.schema.names.idxOf slot.column.name) = r'.cell slot.index
  rw [hplaces slot hs]

/-- The rows that are found fit the columns that are asked for. -/
theorem fits_output {r : Row} (hr : Row.Fits t.schema.columns r) (hp : t.schema.project q.projection = .ok slots) :
    Row.Fits (slots.map (·.column)) (slots.map fun slot => r.cell slot.index) := by
  have hslots := Schema.project_mem_slots hp
  unfold Row.Fits
  rw [List.forall₂_map_left_iff, List.forall₂_map_right_iff, List.forall₂_same]
  intro slot hs
  exact hr.cell (Schema.mem_slots.mp (hslots slot hs))

end Table

namespace Session

variable {s : Session} {request name : String} {columns : List Column} {found : Selected}

theorem Finds.run (h : s.Finds request name columns found) : (s.run request).1 = .ok (.rows found.lines) := by
  obtain ⟨q, t, slots, hq, rfl, ht, -, -, hf⟩ := h
  simp [Session.run, hq, perform, Session.select, ht, hf]

/-- A selection that succeeds finds something. -/
theorem exists_finds {q : Selection} {answer : Answer} (hq : Statement.ofText request = .ok (.select q))
    (h : (s.run request).1 = .ok answer) : ∃ columns found, s.Finds request q.table.value columns found := by
  have hrun : s.run request = s.select q := by rw [Session.run, hq]; rfl
  rw [hrun] at h
  unfold Session.select at h
  cases ht : s.table? q.table.value with
  | none => simp [ht, fail] at h
  | some t =>
    cases hf : t.select q with
    | error e => simp [ht, hf, fail] at h
    | ok found =>
      obtain ⟨plan, hplan, -⟩ := bind_eq_ok_iff.mp hf
      obtain ⟨slots, hp, -⟩ := bind_eq_ok_iff.mp hplan
      exact ⟨_, found, q, t, slots, hq, rfl, ht, hp, rfl, hf⟩

variable (requests : List String)

/-- What is found is shown as lines of words. -/
theorem Finds.isWordLine (h : (new.after requests).Finds request name columns found) :
    ∀ l ∈ found.lines, IsWordLine l := by
  obtain ⟨q, t, slots, hq, -, ht, -, -, hf⟩ := h
  have hwords := showsWords_after requests name t ht
  exact (proper_after requests name t ht).isWordLine_select hwords (Statement.wellFormed_of_ofText hq) hf

/-- The pieces of the reply are what is found. -/
theorem Finds.pieces (h : (new.after requests).Finds request name columns found) :
    piecesOf (reply ((new.after requests).run request).1) = found.lines := by
  rw [h.run, reply]
  exact piecesOf_display (List.cons_ne_nil _ _) (h.isWordLine requests)

theorem Finds.header (h : (new.after requests).Finds request name columns found) :
    found.header = columns.map (·.name) := by
  obtain ⟨q, t, slots, hq, -, ht, hp, rfl, hf⟩ := h
  rw [((proper_after requests name t ht).exists_output (Statement.wellFormed_of_ofText hq) hp hf).1, List.map_map]
  rfl

/-- The lines behind the header have one piece for each column. -/
theorem Finds.length (h : (new.after requests).Finds request name columns found) :
    ∀ r ∈ found.rows, r.length = columns.length := by
  obtain ⟨q, t, slots, hq, -, ht, hp, rfl, hf⟩ := h
  intro r hr
  have hproper := proper_after requests name t ht
  obtain ⟨r', -, rfl⟩ := (hproper.exists_output (Statement.wellFormed_of_ofText hq) hp hf).2 r hr
  rw [List.length_map, List.length_map]

/-- The catalog aside, the pieces behind the header stand for the cells that are found. -/
theorem Finds.cells (h : (new.after requests).Finds request name columns found) (hn : name ≠ catalogName) :
    (piecesOf (reply ((new.after requests).run request).1)).tail.map (Row.ofPieces columns) = found.rows := by
  have hpieces := h.pieces requests
  obtain ⟨q, t, slots, hq, -, ht, hp, rfl, hf⟩ := h
  have hproper := proper_after requests name t ht
  have hrows := (hproper.exists_output (Statement.wellFormed_of_ofText hq) hp hf).2
  rw [hpieces, Selected.lines, List.tail_cons, List.map_map]
  calc found.rows.map _ = found.rows.map id := by
        refine List.map_congr_left fun r hr => ?_
        obtain ⟨r', hr', rfl⟩ := hrows r hr
        refine Row.ofPieces_display (Table.fits_output (hproper.sound.fits r' hr') hp) ?_
        refine List.forall_mem_map.mpr fun slot _ => ?_
        rcases r'.cell_mem_or_eq_null slot.index with hm | hnull
        · exact hproper.storable hn r' hr' _ hm
        · rw [hnull]
          exact Cell.storable_null
    _ = found.rows := List.map_id _

/-- Equal replies over the same columns come from equal rows. -/
theorem Finds.eq_of_reply_eq {requests requests' : List String} {request request' name name' : String}
    {found found' : Selected} (h : (new.after requests).Finds request name columns found) (hn : name ≠ catalogName)
    (h' : (new.after requests').Finds request' name' columns found') (hn' : name' ≠ catalogName)
    (hr : reply ((new.after requests').run request').1 = reply ((new.after requests).run request).1) :
    found' = found := by
  have hheader : found'.header = found.header := (h'.header requests').trans (h.header requests).symm
  have hrows : found'.rows = found.rows := by
    rw [← h'.cells requests' hn', ← h.cells requests hn, hr]
  cases found
  cases found'
  subst hheader hrows
  rfl

/-- **The reply to a selection can be decoded**, whatever requests were made before and whichever table it is from; and,
the catalog aside, it tells what the cells are. -/
theorem decodable_after {q : Selection} {answer : Answer} (hq : Statement.ofText request = .ok (.select q))
    (h : ((new.after requests).run request).1 = .ok answer) :
    ∃ columns found, (new.after requests).Finds request q.table.value columns found ∧
      (new.after requests).Decodable request q.table.value columns found := by
  obtain ⟨columns, found, hfinds⟩ := exists_finds hq h
  have hpieces := hfinds.pieces requests
  have hne : found.lines ≠ [] := List.cons_ne_nil _ _
  refine ⟨columns, found, hfinds, hfinds.run, hfinds.header requests, ?_, hpieces, ?_, hfinds.cells requests, ?_⟩
  · obtain ⟨front, hfront, -⟩ := (isBlock_rows hne (hfinds.isWordLine requests)).framed.ending
    exact ⟨front, by rw [hfinds.run, reply, hfront]⟩
  · rw [hpieces]
    intro line hline
    have hword := hfinds.isWordLine requests line hline
    refine ⟨?_, fun p hp he => (hword.2 p hp).1 (by rw [he]; rfl)⟩
    rcases List.mem_cons.mp hline with rfl | hline
    · rfl
    · obtain ⟨r, hr, rfl⟩ := List.mem_map.mp hline
      rw [List.length_map, hfinds.length requests r hr, hfinds.header requests, List.length_map]
  · intro hn requests' request' name' found' hn' hfinds' hr
    exact hfinds.eq_of_reply_eq hn hfinds' hn' hr

/-- A column twice, a null, and the name of a table that spells null. -/
theorem decodable_after_two_requests :
    let requests := ["CREATE TABLE null (a int, b text) ENGINE Column;",
      "INSERT INTO null VALUES (+1, NULL), (NULL, x=y);"]
    let request := "SELECT (b, a, b) FROM null;"
    let q : Selection := ⟨.columns [⟨"b", .identifier, 8⟩, ⟨"a", .identifier, 11⟩, ⟨"b", .identifier, 14⟩],
      ⟨"null", .identifier, 22⟩, []⟩
    let answer : Answer := .rows [["b", "a", "b"], ["null", "1", "null"], ["x=y", "null", "x=y"]]
    Statement.ofText request = .ok (.select q) ∧ ((new.after requests).run request).1 = .ok answer ∧
      ∃ columns found, (new.after requests).Finds request "null" columns found ∧
        (new.after requests).Decodable request "null" columns found := by
  intro requests request q answer
  have hq : Statement.ofText request = .ok (.select q) := by decide +kernel
  have h : ((new.after requests).run request).1 = .ok answer := by decide +kernel
  exact ⟨hq, h, decodable_after requests hq h⟩

end Session
end Tabular
