import BlockDoc.Proofs.FrontMatter
import Mathlib.Data.Nat.Find

/-!
Front matter by the lines of a text. Behind a byte order mark the text is cut at
its line breaks. Whether it has front matter, and where this ends, is told by
the first line, the line behind it, and the first one of the others that closes.
The offsets are numbers of bytes in front of places between characters, so the
text can be cut at them.
-/

namespace BlockDoc

namespace FrontMatter

/-! ### Lines of a text -/

/-- The byte order mark in front of a text, if there is one. -/
def markOf (text : List Char) : List Char :=
  if text.head? = some byteOrderMark then [byteOrderMark] else []

/-- The lines of a text behind its byte order mark. -/
def linesOf (text : List Char) : List (List Char) :=
  (text.drop (markOf text).length).splitOn '\n'

/-- The front matter that line `k` of a text closes. -/
structure BlockAt (text : List Char) (k : Nat) (front : FrontMatter) : Prop where
  value : front.value = String.ofList (Text.dropEndWhile (fun c => c == '\n' || c == '\r')
    (joinLines (((linesOf text).take k).drop 1)))
  stop : front.stop = Text.byteLength (markOf text ++ joinLines ((linesOf text).take (k + 1)))
  bodyStart : front.bodyStart =
    if k + 1 < (linesOf text).length then front.stop + 1 else Text.byteLength text
  body : front.body = joinLines ((linesOf text).drop (k + 1))

theorem BlockAt.unique {text : List Char} {k : Nat} {front front' : FrontMatter}
    (h : BlockAt text k front) (h' : BlockAt text k front') : front = front' := by
  obtain ⟨value, stop, bodyStart, body⟩ := front
  obtain ⟨value', stop', bodyStart', body'⟩ := front'
  obtain rfl : value = value' := h.value.trans h'.value.symm
  obtain rfl : stop = stop' := h.stop.trans h'.stop.symm
  obtain rfl : bodyStart = bodyStart' := h.bodyStart.trans h'.bodyStart.symm
  obtain rfl : body = body' := h.body.trans h'.body.symm
  rfl

section

variable {text : List Char} {j : Nat}

end

namespace BlockAt

variable {text : List Char} {k : Nat} {front : FrontMatter}

end BlockAt

/-- A byte order mark is counted, and so are carriage returns. -/
example : split? "\ufeff---\na: b\r\n...\nx".toList = some ⟨"a: b", 16, 17, ['x']⟩ := by
  decide +kernel

end FrontMatter

end BlockDoc
