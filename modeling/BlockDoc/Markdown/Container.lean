import BlockDoc.Markdown.Source

/-!
The indentation of a line and the marks of the containers around it. Columns advance to multiples of
four at a tab, so a tab may be used up in parts: the columns left over are kept with the place.
-/

namespace BlockDoc.Markdown

/-- A place within the indentation of a line. -/
structure Cursor where
  index : Nat
  /-- The place from which tab stops are counted. -/
  tabStart : Nat
  /-- Columns of a tab that was passed which are not used up. -/
  columnsLeft : Nat
  deriving DecidableEq, Repr, Inhabited

namespace Cursor

/-- The start of a line. -/
def start (i : Nat) : Cursor := ⟨i, i, 0⟩

/-- Takes up to `n` columns of spaces and tabs; what comes with the cursor is the number of columns
that were missing. -/
def takeLoop (src : Source) (n : Nat) (cur : Cursor) : Nat × Cursor :=
  match n with
  | 0 => (0, cur)
  | n + 1 =>
    match src.at? cur.index with
    | some ' ' => takeLoop src n { cur with index := cur.index + 1 }
    | some '\t' =>
      let width := 4 - (cur.index - cur.tabStart) % 4
      let used := min width (n + 1)
      takeLoop src (n + 1 - used) ⟨cur.index + 1, cur.index + 1, width - used⟩
    | _ => (n + 1, cur)
  termination_by n
  decreasing_by
    all_goals omega

/-- Takes up to `n` columns, those of a tab that was passed first. -/
def take (src : Source) (n : Nat) (cur : Cursor) : Nat × Cursor :=
  let known := min cur.columnsLeft n
  takeLoop src (n - known) { cur with columnsLeft := cur.columnsLeft - known }

/-- Takes `n` columns, and says whether all of them were there. -/
def takeAll (src : Source) (n : Nat) (cur : Cursor) : Bool × Cursor :=
  let (missing, cur) := cur.take src n
  (missing == 0, cur)

/-- Takes up to `n` columns, and says how many were there. -/
def takeUpTo (src : Source) (n : Nat) (cur : Cursor) : Nat × Cursor :=
  let (missing, cur) := cur.take src n
  (n - missing, cur)

/-- The cursor behind all spaces and tabs. -/
def skipAll (src : Source) (cur : Cursor) : Cursor :=
  { cur with
    index := src.skipWhile (fun c => c == ' ' || c == '\t') cur.index
    columnsLeft := 0 }

/-- Whether a line ends here. -/
def atLineEnd (src : Source) (cur : Cursor) : Bool := src.isLineEnd cur.index

/-- The cursor behind a given character. -/
def char? (src : Source) (c : Char) (cur : Cursor) : Option Cursor :=
  if src.has c cur.index then some { cur with index := cur.index + 1 } else none

/-- The cursor behind the mark of a block quote and the space that may follow it. -/
def quoteMark? (src : Source) (cur : Cursor) : Option Cursor :=
  (cur.char? src '>').map fun cur => (cur.take src 1).2

end Cursor

/-- A block that holds other blocks and marks or indents their lines. -/
inductive Container where
  | quote
  | item (indent : Nat)
  deriving DecidableEq, Repr, Inhabited

namespace Container

/-- The cursor behind the mark or the indentation that a container asks for. -/
def enter? (src : Source) (cur : Cursor) : Container → Option Cursor
  | quote => (cur.take src 3).2.quoteMark? src
  | item indent =>
    let (complete, after) := cur.takeAll src indent
    if complete || after.atLineEnd src then some after else none

/-- Enters the containers of a list, outermost first, as far as the line goes along; the number of
those that it does not belong to comes with the cursor. -/
def enterAll (src : Source) : List Container → Cursor → Nat × Cursor
  | [], cur => (0, cur)
  | c :: cs, cur =>
    match c.enter? src cur with
    | some cur => enterAll src cs cur
    | none => (cs.length + 1, cur)

/-- The place behind the marks of the containers at the start of a line. -/
def skipMarks (src : Source) (cs : List Container) (i : Nat) : Nat :=
  (enterAll src cs (Cursor.start i)).2.index

end Container

end BlockDoc.Markdown
