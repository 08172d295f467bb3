import BlockDoc.Data.Value
import BlockDoc.Span
import BlockDoc.Text.Blank

/-!
Points of a text by line, column and byte offset. Lines and columns count from one. A column counts
characters, or bytes for an offset inside a character. The line of an offset is searched among the
offsets at which the lines of the text start.
-/

namespace BlockDoc

/-- A point of a text. -/
structure Point where
  line : Nat
  column : Nat
  offset : Nat
  deriving DecidableEq, Repr, Inhabited

/-- A stretch of a text between two points. -/
structure Range where
  start : Point
  stop : Point
  deriving DecidableEq, Repr, Inhabited

namespace Point

/-- A point as a record. -/
def toValue (p : Point) : Value :=
  .obj [("line", .nat p.line), ("column", .nat p.column), ("offset", .nat p.offset)]

end Point

/-- A text with the byte offsets at which its lines start. -/
structure LineIndex where
  text : List Char
  starts : Array Nat
  starts_pos : 0 < starts.size

namespace LineIndex

/-- The offsets behind the line breaks of a text that begins at `offset`. -/
def startsBehind (offset : Nat) : List Char → List Nat
  | [] => []
  | c :: cs =>
    if c = '\n' then (offset + 1) :: startsBehind (offset + c.utf8Size) cs
    else startsBehind (offset + c.utf8Size) cs

/-- The lines of a text. The first one starts with the text, the others behind a line break. -/
def ofText (text : List Char) : LineIndex :=
  ⟨text, (0 :: startsBehind 0 text).toArray, by simp⟩

/-- Where the starts pass an offset: the stretch of starts from `lo` to `hi` is halved. -/
def search (starts : Array Nat) (offset lo hi : Nat) (hhi : hi ≤ starts.size) : Nat :=
  if h : lo < hi then
    let mid := lo + (hi - lo) / 2
    if starts[mid] ≤ offset then search starts offset (mid + 1) hi hhi
    else search starts offset lo mid (by omega)
  else lo
  termination_by hi - lo

theorem search_le (starts : Array Nat) (offset lo hi : Nat) (hhi : hi ≤ starts.size)
    (hlo : lo ≤ hi) : search starts offset lo hi hhi ≤ hi := by
  fun_induction search starts offset lo hi hhi with
  | case1 lo hi hhi hlt mid _ ih => exact ih (by omega)
  | case2 lo hi hhi hlt mid _ ih => exact Nat.le_trans (ih (by omega)) (by omega)
  | case3 => exact hlo

/-- The number of the line of an offset. -/
def lineOf (index : LineIndex) (offset : Nat) : Nat :=
  search index.starts offset 0 index.starts.size (Nat.le_refl _)

theorem lineOf_sub_one_lt (index : LineIndex) (offset : Nat) :
    index.lineOf offset - 1 < index.starts.size := by
  have hle : index.lineOf offset ≤ index.starts.size :=
    search_le index.starts offset 0 _ (Nat.le_refl _) (Nat.zero_le _)
  have hpos := index.starts_pos
  omega

/-- The point at a byte offset. The end of the text stands for all offsets beyond it. -/
def point (index : LineIndex) (offset : Nat) : Point :=
  let offset := min offset (Text.byteLength index.text)
  let line := index.lineOf offset
  have hline : line - 1 < index.starts.size := index.lineOf_sub_one_lt offset
  let start := index.starts[line - 1]
  let column :=
    match Text.slice? index.text start offset with
    | some chars => chars.length
    | none => offset - start
  ⟨line, column + 1, offset⟩

end LineIndex

/-- The point at a byte offset of a text. -/
def Point.ofOffset (text : List Char) (offset : Nat) : Point :=
  (LineIndex.ofText text).point offset

namespace Range

/-- The stretch of a text between two byte offsets. -/
def ofOffsets (text : List Char) (start stop : Nat) : Range :=
  ⟨Point.ofOffset text start, Point.ofOffset text stop⟩

/-- The points of a stretch of bytes. -/
def ofSpan (text : List Char) (s : Span) : Range := ofOffsets text s.start s.stop

/-- A stretch as a record. -/
def toValue (r : Range) : Value := .obj [("start", r.start.toValue), ("end", r.stop.toValue)]

end Range

end BlockDoc
