/-
  DiskScope/Proofs/Text/DumpReader.lean --- hex dumps, read back.

  WHAT THIS FILE IS FOR.  What no decoder understands is shown as a dump, so a dump must keep
  every byte.  This file starts the other side: `read?` takes the bytes from the cells of a
  dump, and looks neither at the addresses nor at the character column.  What a row shows
  is said of a `Row`, which is a line taken apart into its columns.

  WHY NOTHING CAN BREAK A ROW.  Every character of a row is printable (`Row.Shows.printable`),
  also those that stand for bytes that are not.  Rows end where a newline stands, and the two
  groups of cells start behind the first blank, whatever number of digits is before it.

  MAIN STATEMENTS.

      read?_lines        rows are read back, whatever is in their other columns
      rowOf_shows        the row of a piece shows that piece
      dump_faithful      all of it, for whole dumps
-/
import DiskScope.Proofs.Bytes.Pieces
import DiskScope.Proofs.Text.Numeral
import DiskScope.Text.Dump
import Mathlib.Data.List.Basic

set_option autoImplicit false

namespace DiskScope.Text.Dump

/-! ## The reader -/

/-- A cell without a byte. -/
def blankCell : List Char := [' ', ' ', ' ']

/-- The byte in a cell: two digits and a blank. -/
def byte? : List Char → Option UInt8
  | [high, low, ' '] =>
    if high ∈ digitChars ∧ low ∈ digitChars then
      some (UInt8.ofNat (16 * digitValue high + digitValue low))
    else none
  | _ => none

/-- The bytes in the cells of a row, those without a byte left out. -/
def bytesOf? (cells : List (List Char)) : Option Bytes :=
  (cells.filter (· ≠ blankCell)).mapM byte?

/-- The first `count` cells of three characters. -/
def cellsIn : Nat → List Char → List (List Char)
  | 0, _ => []
  | count + 1, text => text.take 3 :: cellsIn count (text.drop 3)

/-- The cells of a row: two groups of eight, the first two blanks behind the address and the second
one blank behind the first. -/
def cellsOf (row : List Char) : List (List Char) :=
  let groups := (row.dropWhile (· ≠ ' ')).drop 2
  cellsIn 8 groups ++ cellsIn 8 (groups.drop 25)

/-- The rows of a text, each of them ended by a newline. -/
def splitRows : List Char → List (List Char)
  | [] => []
  | c :: rest =>
    if c = '\n' then [] :: splitRows rest
    else match splitRows rest with
      | [] => [[c]]
      | row :: rows => (c :: row) :: rows

/-- The bytes that a dump shows. -/
def read? (text : String) : Option Bytes :=
  ((splitRows text.toList).mapM fun row => bytesOf? (cellsOf row)).map List.flatten

/-! ## Rows -/

/-- A character that is shown as itself, on one column of a line. -/
def Printable (c : Char) : Prop := 0x20 ≤ c.toNat ∧ c.toNat ≤ 0x7E

instance (c : Char) : Decidable (Printable c) := inferInstanceAs (Decidable (_ ∧ _))

/-- A line of a dump, taken apart. -/
structure Row where
  address : List Char
  left : List (List Char)
  right : List (List Char)
  column : List Char
  deriving DecidableEq, Repr, Inhabited

namespace Row

variable (row : Row)

/-- All cells in order. -/
def cells : List (List Char) := row.left ++ row.right

/-- The line: address, two groups of cells, and the character column between bars. -/
def text : List Char :=
  row.address ++ [' ', ' '] ++ row.left.flatten ++ [' '] ++ row.right.flatten ++ [' ', '|']
    ++ row.column ++ ['|']

/-- The line shows `piece` at `address`. -/
structure Shows (row : Row) (address : Nat) (piece : Bytes) : Prop where
  /-- The address is a hexadecimal numeral in lower case. -/
  address_digits : ∀ c ∈ row.address, c ∈ digitChars
  /-- It has at least eight digits. -/
  address_length : 8 ≤ row.address.length
  /-- It has no more of them than it needs. -/
  address_head : 8 < row.address.length → row.address.head? ≠ some '0'
  /-- It is the address of the first byte. -/
  address_eq : readNumeral 16 row.address = address
  /-- There are eight cells on each side of the gap. -/
  left_length : row.left.length = 8
  right_length : row.right.length = 8
  /-- Each cell has three characters. -/
  cell_length : ∀ cell ∈ row.cells, cell.length = 3
  /-- The first cells show the bytes in order, and all others are blank. -/
  shown : ∃ cells, row.cells = cells ++ List.replicate (16 - piece.length) blankCell ∧
    cells.mapM byte? = some piece
  /-- The character column has a character for each byte. -/
  column_length : row.column.length = piece.length
  /-- Nothing in the line is a control character or from beyond ASCII. -/
  printable : ∀ c ∈ row.text, Printable c

end Row

/-! ## Reading rows -/

theorem splitRows_append {row : List Char} (h : '\n' ∉ row) (rest : List Char) :
    splitRows (row ++ '\n' :: rest) = row :: splitRows rest := by
  induction row with
  | nil => simp [splitRows]
  | cons c row ih =>
    obtain ⟨hc, hrow⟩ := not_or.1 (List.mem_cons.not.1 h)
    rw [List.cons_append, splitRows, if_neg (Ne.symm hc), ih hrow]

theorem splitRows_flatMap {rows : List Row} (h : ∀ row ∈ rows, '\n' ∉ row.text) :
    splitRows (rows.flatMap fun row => row.text ++ ['\n']) = rows.map Row.text := by
  induction rows with
  | nil => rfl
  | cons row rows ih =>
    obtain ⟨hrow, hrows⟩ := List.forall_mem_cons.1 h
    rw [List.flatMap_cons, List.append_assoc, List.singleton_append, splitRows_append hrow, ih hrows,
      List.map_cons]

theorem cellsIn_flatten {cells : List (List Char)} (h : ∀ cell ∈ cells, cell.length = 3)
    (rest : List Char) : cellsIn cells.length (cells.flatten ++ rest) = cells := by
  induction cells with
  | nil => rfl
  | cons cell cells ih =>
    obtain ⟨hcell, hcells⟩ := List.forall_mem_cons.1 h
    rw [List.length_cons, cellsIn, List.flatten_cons, List.append_assoc,
      List.take_left' hcell, List.drop_left' hcell, ih hcells]

theorem length_flatten {cells : List (List Char)} (h : ∀ cell ∈ cells, cell.length = 3) :
    cells.flatten.length = cells.length * 3 := by
  rw [List.length_flatten, List.map_congr_left h, List.map_const', List.sum_replicate_nat]

theorem dropWhile_address {address : List Char} (h : ∀ c ∈ address, c ∈ digitChars)
    (rest : List Char) :
    (address ++ ' ' :: rest).dropWhile (· ≠ ' ') = ' ' :: rest := by
  have hblank : ' ' ∉ digitChars := by decide
  have hall : ∀ c ∈ address, (decide (c ≠ ' ')) = true := fun c hc =>
    decide_eq_true fun heq => hblank (heq ▸ h c hc)
  rw [List.dropWhile_append_of_pos hall]
  rfl

/-- The cells of a line are found, however long its address is. -/
theorem cellsOf_text {row : Row} {address : Nat} {piece : Bytes} (h : row.Shows address piece) :
    cellsOf row.text = row.cells := by
  obtain ⟨hleft, hright⟩ := List.forall_mem_append.1 h.cell_length
  have hgroups : ((row.text).dropWhile (· ≠ ' ')).drop 2 =
      row.left.flatten ++ (' ' :: (row.right.flatten ++ ([' ', '|'] ++ row.column ++ ['|']))) := by
    simp only [Row.text, List.append_assoc, List.cons_append, List.nil_append]
    rw [dropWhile_address h.address_digits]
    rfl
  have hgap : (row.left.flatten ++ [' ']).length = 25 := by
    rw [List.length_append, length_flatten hleft, h.left_length]
    rfl
  have hfirst := cellsIn_flatten hleft
  have hsecond := cellsIn_flatten hright
  rw [h.left_length] at hfirst
  rw [h.right_length] at hsecond
  rw [cellsOf, hgroups, hfirst, ← List.singleton_append, ← List.append_assoc,
    List.drop_left' hgap, hsecond, Row.cells]

/-- A blank cell holds no byte. -/
theorem byte?_blankCell : byte? blankCell = none := by decide

/-- Cells that hold bytes are kept, and blank ones are left out. -/
theorem bytesOf?_append {cells : List (List Char)} {piece : Bytes} (blanks : Nat)
    (h : cells.mapM byte? = some piece) :
    bytesOf? (cells ++ List.replicate blanks blankCell) = some piece := by
  have hkept : cells.filter (fun cell => decide (cell ≠ blankCell)) = cells := by
    induction cells generalizing piece with
    | nil => rfl
    | cons cell cells ih =>
      cases hcell : byte? cell with
      | none => simp [List.mapM_cons, hcell] at h
      | some b =>
        cases hcells : cells.mapM byte? with
        | none => simp [List.mapM_cons, hcell, hcells] at h
        | some rest =>
          have hne : cell ≠ blankCell := fun heq => by simp [heq, byte?_blankCell] at hcell
          rw [List.filter_cons_of_pos (by simpa using hne), ih hcells]
  have hblank : (List.replicate blanks blankCell).filter
      (fun cell => decide (cell ≠ blankCell)) = [] := by
    simp
  rw [bytesOf?, List.filter_append, hkept, hblank, List.append_nil, h]

/-- Rows that show pieces are read back in order, whatever is in their other columns. -/
theorem mapM_rows {rows : List Row} {pieces : List Bytes} (address : Nat → Nat)
    (hlength : rows.length = pieces.length)
    (h : ∀ (i : Nat) (row : Row) (piece : Bytes), rows[i]? = some row → pieces[i]? = some piece →
      row.Shows (address i) piece) :
    (rows.map Row.text).mapM (fun row => bytesOf? (cellsOf row)) = some pieces := by
  induction rows generalizing pieces address with
  | nil =>
    obtain rfl : pieces = [] := List.eq_nil_of_length_eq_zero hlength.symm
    rfl
  | cons row rows ih =>
    obtain ⟨piece, pieces, rfl⟩ := List.exists_cons_of_length_eq_add_one hlength.symm
    have hrow : row.Shows (address 0) piece := h 0 row piece rfl rfl
    obtain ⟨cells, hcells, hbytes⟩ := hrow.shown
    have hrows := ih (fun i => address (i + 1)) (by simpa using hlength)
      fun i row piece hi hpiece => h (i + 1) row piece hi hpiece
    rw [List.map_cons, List.mapM_cons, cellsOf_text hrow, hcells, bytesOf?_append _ hbytes, hrows]
    rfl

/-! ## Writing cells -/

theorem head?_toDigits {n : Nat} (h : 0 < n) : (Nat.toDigits 16 n).head? ≠ some '0' := by
  -- The first digit is that of a quotient, which is not zero either.
  induction n using Nat.strongRecOn with
  | ind n ih =>
    have hdigit : ∀ d < 16, 0 < d → Nat.digitChar d ≠ '0' := by decide
    rw [Nat.toDigits_eq_if (by omega)]
    split
    · rename_i hlt
      simpa using hdigit n hlt h
    · rename_i hle
      rw [List.head?_append_of_ne_nil _ Nat.toDigits_ne_nil]
      exact ih (n / 16) (Nat.div_lt_self h (by omega)) (Nat.div_pos (by omega) (by omega))

/-- An address has eight digits, or as many as it needs. -/
theorem address_canonical (address : Nat) :
    8 ≤ (hexPadded 8 address).toList.length ∧
      (8 < (hexPadded 8 address).toList.length → (hexPadded 8 address).toList.head? ≠ some '0') := by
  rw [toList_hexPadded]
  refine ⟨by simp; omega, fun hlong => ?_⟩
  rcases Nat.lt_or_ge 8 (Nat.toDigits 16 address).length with hneeds | hfits
  · rw [Nat.sub_eq_zero_of_le (Nat.le_of_lt hneeds), List.replicate_zero, List.nil_append]
    refine head?_toDigits (Nat.pos_of_ne_zero fun hzero => ?_)
    rw [hzero, Nat.toDigits_eq_if (by omega)] at hneeds
    exact absurd hneeds (by decide)
  · rw [List.length_append, List.length_replicate] at hlong
    omega

theorem toList_byteHex (b : UInt8) :
    (byteHex b).toList = [Nat.digitChar (b.toNat / 16), Nat.digitChar (b.toNat % 16)] := by
  have hb := b.toNat_lt
  rw [byteHex, toList_hexPadded, Nat.toDigits_eq_if (by omega)]
  split
  · rename_i hlt
    rw [Nat.div_eq_of_lt hlt, Nat.mod_eq_of_lt hlt]
    rfl
  · rename_i hle
    rw [Nat.toDigits_eq_if (by omega), if_pos (by omega)]
    rfl

/-- The cell of a byte holds that byte. -/
theorem byte?_dumpCell (b : UInt8) : byte? (dumpCell (some b)).toList = some b := by
  have hb := b.toNat_lt
  have hhigh : b.toNat / 16 < 16 := by omega
  have hlow : b.toNat % 16 < 16 := Nat.mod_lt _ (by omega)
  have hcell : (dumpCell (some b)).toList =
      [Nat.digitChar (b.toNat / 16), Nat.digitChar (b.toNat % 16), ' '] := by
    rw [dumpCell, String.toList_append, toList_byteHex]
    rfl
  rw [hcell, byte?, if_pos ⟨digitChar_mem _ hhigh, digitChar_mem _ hlow⟩,
    digitValue_digitChar _ hhigh, digitValue_digitChar _ hlow, Nat.div_add_mod, UInt8.ofNat_toNat]

theorem length_dumpCell (b? : Option UInt8) : (dumpCell b?).toList.length = 3 := by
  cases b? with
  | none => rfl
  | some b =>
    rw [dumpCell, String.toList_append, List.length_append, toList_byteHex]
    rfl

theorem digitChars_printable : ∀ c ∈ digitChars, Printable c := by
  simp [digitChars, Printable]

theorem dumpCell_printable {b? : Option UInt8} {c : Char} (h : c ∈ (dumpCell b?).toList) :
    Printable c := by
  have hblank : Printable ' ' := by decide
  cases b? with
  | none =>
    obtain rfl : c = ' ' := by simpa [dumpCell] using h
    exact hblank
  | some b =>
    rw [dumpCell, String.toList_append, List.mem_append] at h
    rcases h with hdigit | hlast
    · exact digitChars_printable c (mem_digitChars_of_mem_hexPadded hdigit)
    · obtain rfl : c = ' ' := by simpa using hlast
      exact hblank

theorem dumpChar_printable (b : UInt8) : Printable (dumpChar b) := by
  unfold dumpChar
  split
  · rename_i hb
    have hself : (Char.ofNat b.toNat).toNat = b.toNat := by
      rw [Char.ofNat, dif_pos (Or.inl (by omega))]
      rfl
    rwa [Printable, hself]
  · decide

/-! ## Writing rows -/

/-- The line of a piece, taken apart. -/
def rowOf (address : Nat) (piece : Bytes) : Row where
  address := (hexPadded 8 address).toList
  left := (List.range 8).map fun i => (dumpCell piece[i]?).toList
  right := (List.range 8).map fun i => (dumpCell piece[8 + i]?).toList
  column := piece.map dumpChar

@[simp] theorem rowOf_address (address : Nat) (piece : Bytes) :
    (rowOf address piece).address = (hexPadded 8 address).toList := by
  rw [rowOf]

@[simp] theorem rowOf_column (address : Nat) (piece : Bytes) :
    (rowOf address piece).column = piece.map dumpChar := rfl

theorem toList_dumpLine (address : Nat) (piece : Bytes) :
    (dumpLine address piece).toList = (rowOf address piece).text := by
  have hgroup : ∀ first, (dumpGroup piece first).toList =
      ((List.range 8).map fun i => (dumpCell piece[first + i]?).toList).flatten := fun first => by
    rw [dumpGroup, String.toList_join, List.flatMap_map, List.flatMap_def]
  simp only [dumpLine, String.toList_append, hgroup, String.toList_ofList, Row.text, rowOf,
    Nat.zero_add]
  rfl

/-- The cells are those of sixteen places, where there is a byte or not. -/
theorem cells_rowOf (address : Nat) (piece : Bytes) :
    (rowOf address piece).cells = (List.range 16).map fun i => (dumpCell piece[i]?).toList := by
  have hsplit : List.range (8 + 8) = List.range 8 ++ (List.range 8).map (8 + ·) := List.range_add
  rw [show 16 = 8 + 8 from rfl, hsplit, List.map_append, List.map_map]
  rfl

theorem cells_split {address : Nat} {piece : Bytes} (h : piece.length ≤ 16) :
    (rowOf address piece).cells = (piece.map fun b => (dumpCell (some b)).toList)
      ++ List.replicate (16 - piece.length) blankCell := by
  rw [cells_rowOf]
  refine List.ext_getElem? fun i => ?_
  rcases Nat.lt_or_ge i piece.length with hbyte | hend
  · rw [List.getElem?_append_left (by simpa using hbyte)]
    simp [List.getElem?_range (show i < 16 by omega), List.getElem?_eq_getElem hbyte]
  · rw [List.getElem?_append_right (by simpa using hend), List.getElem?_replicate]
    rcases Nat.lt_or_ge i 16 with hcell | hpast
    · rw [if_pos (by simp; omega)]
      simp [List.getElem?_range hcell, List.getElem?_eq_none hend, dumpCell, blankCell]
    · rw [if_neg (by simp; omega)]
      simp [hpast]

theorem mapM_byte?_cells (piece : Bytes) :
    (piece.map fun b => (dumpCell (some b)).toList).mapM byte? = some piece := by
  induction piece with
  | nil => rfl
  | cons b rest ih =>
    rw [List.map_cons, List.mapM_cons, byte?_dumpCell, ih]
    rfl

theorem mem_cells_rowOf {address : Nat} {piece : Bytes} {cell : List Char}
    (h : cell ∈ (rowOf address piece).cells) : ∃ b?, cell = (dumpCell b?).toList := by
  rw [cells_rowOf] at h
  obtain ⟨i, -, rfl⟩ := List.mem_map.1 h
  exact ⟨_, rfl⟩

theorem rowOf_printable {address : Nat} {piece : Bytes} :
    ∀ c ∈ (rowOf address piece).text, Printable c := by
  have hcells : ∀ cell ∈ (rowOf address piece).cells, ∀ c ∈ cell, Printable c := by
    intro cell hcell c hc
    obtain ⟨b?, rfl⟩ := mem_cells_rowOf hcell
    exact dumpCell_printable hc
  obtain ⟨hleft, hright⟩ := List.forall_mem_append.1 hcells
  have hblanks : ∀ c ∈ [' ', ' '], Printable c := by simp [Printable]
  have hgap : ∀ c ∈ [' '], Printable c := by simp [Printable]
  have hopen : ∀ c ∈ [' ', '|'], Printable c := by simp [Printable]
  have hclose : ∀ c ∈ ['|'], Printable c := by simp [Printable]
  have haddress : ∀ c ∈ (hexPadded 8 address).toList, Printable c := fun c hc =>
    digitChars_printable c (mem_digitChars_of_mem_hexPadded hc)
  have hcolumn : ∀ c ∈ piece.map dumpChar, Printable c := fun c hc => by
    obtain ⟨b, -, rfl⟩ := List.mem_map.1 hc
    exact dumpChar_printable b
  simp only [Row.text, rowOf_address, rowOf_column, List.forall_mem_append, List.forall_mem_flatten]
  exact ⟨⟨⟨⟨⟨⟨⟨haddress, hblanks⟩, hleft⟩, hgap⟩, hright⟩, hopen⟩, hcolumn⟩, hclose⟩

/-- The row of a piece shows that piece. -/
theorem rowOf_shows {address : Nat} {piece : Bytes} (h : piece.length ≤ 16) :
    (rowOf address piece).Shows address piece where
  address_digits := fun c hc => mem_digitChars_of_mem_hexPadded (rowOf_address address piece ▸ hc)
  address_length := by rw [rowOf_address]; exact (address_canonical address).1
  address_head := by rw [rowOf_address]; exact (address_canonical address).2
  address_eq := by rw [rowOf_address, readNumeral_hexPadded]
  left_length := rfl
  right_length := rfl
  cell_length := fun cell hcell => by
    obtain ⟨b?, rfl⟩ := mem_cells_rowOf hcell
    exact length_dumpCell b?
  shown := ⟨_, cells_split h, mapM_byte?_cells piece⟩
  column_length := List.length_map _
  printable := rowOf_printable

/-! ## Whole dumps -/

/-- The text is a dump of `data` from address `base` on. -/
structure Faithful (data : Bytes) (base : Nat) (text : String) : Prop where
  /-- It has a line for every sixteen bytes, and each shows its part of them. -/
  rows : ∃ rows : List Row,
    text.toList = (rows.flatMap fun row => row.text ++ ['\n']) ∧
    rows.length = (data.length + 15) / 16 ∧
    ∀ (i : Nat) (row : Row), rows[i]? = some row →
      row.Shows (base + 16 * i) (data.slice (16 * i) 16)
  /-- The bytes can be read from it. -/
  read_eq : read? text = some data

/-- The rows of a dump. -/
def rowsOf (data : Bytes) (base : Nat) : List Row :=
  (data.pieces 16).mapIdx fun i piece => rowOf (base + 16 * i) piece

theorem toList_hexdump (data : Bytes) (base : Nat) :
    (hexdump data base).toList = (rowsOf data base).flatMap fun row => row.text ++ ['\n'] := by
  simp [hexdump, lines, dumpLines, rowsOf, dumpWidth, List.flatMap_map, List.mapIdx_eq_zipIdx_map,
    toList_dumpLine, Nat.mul_comm]

theorem length_rowsOf (data : Bytes) (base : Nat) :
    (rowsOf data base).length = (data.length + 15) / 16 := by
  rw [rowsOf, List.length_mapIdx, Bytes.length_pieces]
  rfl

/-- Each row shows its piece. -/
theorem rowsOf_shows {data : Bytes} {base i : Nat} {row : Row} (h : (rowsOf data base)[i]? = some row) :
    row.Shows (base + 16 * i) (data.slice (16 * i) 16) := by
  obtain ⟨hi, -⟩ := List.getElem?_eq_some_iff.1 h
  rw [rowsOf, List.length_mapIdx] at hi
  have hrow : rowOf (base + 16 * i) (data.slice (i * 16) 16) = row := by
    simpa [rowsOf, Bytes.getElem?_pieces hi] using h
  rw [← hrow, Nat.mul_comm i]
  exact rowOf_shows (by rw [Bytes.length_slice]; exact Nat.min_le_left _ _)

theorem read?_hexdump (data : Bytes) (base : Nat) : read? (hexdump data base) = some data := by
  have hnewline : ∀ row ∈ rowsOf data base, '\n' ∉ row.text := by
    intro row hrow hmem
    obtain ⟨i, hi⟩ := List.mem_iff_getElem?.1 hrow
    exact absurd ((rowsOf_shows hi).printable _ hmem) (by decide)
  have hlength : (rowsOf data base).length = (data.pieces 16).length := by
    rw [rowsOf, List.length_mapIdx]
  have hbytes := mapM_rows (fun i => base + 16 * i) hlength
    fun i row piece hrow hpiece => by
      obtain ⟨hi, -⟩ := List.getElem?_eq_some_iff.1 hpiece
      rw [Bytes.getElem?_pieces hi, Option.some.injEq, Nat.mul_comm i] at hpiece
      rw [← hpiece]
      exact rowsOf_shows hrow
  rw [read?, toList_hexdump, splitRows_flatMap hnewline, hbytes, Option.map_some,
    Bytes.flatten_pieces (by omega)]

/-- A dump shows every byte at its address, no byte breaks its lines, and byte strings with the same
dump are the same. -/
theorem dump_faithful (base : Nat) :
    (∀ data, Faithful data base (hexdump data base)) ∧
      Function.Injective fun data => hexdump data base := by
  refine ⟨fun data => ⟨⟨rowsOf data base, toList_hexdump data base, length_rowsOf data base,
    fun i row hrow => rowsOf_shows hrow⟩, read?_hexdump data base⟩, fun data other heq => ?_⟩
  have hread : read? (hexdump data base) = read? (hexdump other base) := congrArg read? heq
  rwa [read?_hexdump, read?_hexdump, Option.some.injEq] at hread

/-- A byte that is a newline, at an address of nine digits, breaks nothing. -/
example : hexdump [0x0A, 0x7C] 0x100000000 =
    "100000000  0a 7c                                             |.||\n" := by
  decide +kernel

end DiskScope.Text.Dump
