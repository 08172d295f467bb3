import BlockDoc.Span
import BlockDoc.Markdown.Line
import BlockDoc.Markdown.Resolve

/-!
The blocks of a Markdown text before their lines of text are settled: what is a link depends on
definitions that may follow later.
-/

namespace BlockDoc.Markdown

/-- A block. Places in its span count characters. -/
inductive Element where
  | paragraph (span : Span) (task : Option Bool) (phrase : Phrase)
  | heading (span : Span) (level : Nat) (anchor : Option String) (phrase : Phrase)
  | fencedCode (span : Span) (info text : String)
  | indentedCode (span : Span) (text : String)
  | html (span : Span) (text : String)
  | rule (span : Span)
  | table (span : Span) (alignments : List CellAlignment) (header : List Phrase)
    (rows : List (List Phrase))
  | quote (span : Span) (children : List Element)
  /-- In a tight list the paragraphs of the items are no blocks of their own. -/
  | list (span : Span) (tight : Bool) (first : Option Nat) (items : List Element)
  | item (span : Span) (children : List Element)
  /-- The mark of a task without text. -/
  | task (span : Span) (checked : Bool)
  deriving Inhabited

end BlockDoc.Markdown
