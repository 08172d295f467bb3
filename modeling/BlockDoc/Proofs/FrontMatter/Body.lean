import BlockDoc.Proofs.FrontMatter
import BlockDoc.Proofs.Node.MapPosition
import BlockDoc.Proofs.Position

/-!
Front matter and the tree of the body. A text with front matter has the nodes
of its body behind one node of metadata. The nodes are those of the body as a
text of its own; only their positions are moved by the lines and the bytes in
front of the body.
-/

namespace BlockDoc

namespace FrontMatter

/-- The events of the body stand at stretches that are moved. An empty body has no events, so it may
begin behind a line that is not ended. -/
theorem ofSpan_of_mem_body {text : List Char} {front : FrontMatter} {before : List Char}
    (htext : text = before ++ front.body)
    (hwhole : front.body = [] ∨ ∃ lines, before = lines ++ ['\n']) :
    ∀ e ∈ Markdown.Event.ofText front.body,
      Range.ofSpan text (e.2.shift (Text.byteLength before)) =
        (Range.ofSpan front.body e.2).moved (before.count '\n') (Text.byteLength before) := by
  intro e he
  rcases hwhole with hempty | ⟨lines, rfl⟩
  · rw [hempty] at he
    exact absurd he List.not_mem_nil
  · rw [htext]
    exact Range.ofSpan_lines_append lines front.body e.2

end FrontMatter

/-- A text with front matter has a node for this and then the nodes of its body, moved by the lines
and the bytes in front of the body. -/
theorem Node.parse_moves_body {source : String} {front : FrontMatter}
    (h : FrontMatter.split? source.toList = some front)
    (hbody : FrontMatter.split? front.body = none) :
    ∃ before, source.toList = before ++ front.body ∧
      Text.byteLength before = front.bodyStart ∧
      Node.parse source =
        .mk (Range.ofOffsets source.toList 0 front.stop) (.yaml front.value) ::
          mapPositions (Range.moved (before.count '\n') front.bodyStart)
            (Node.parse (String.ofList front.body)) := by
  obtain ⟨before, htext, hlength, -, hwhole⟩ := FrontMatter.split?_spec h
  have hparse : Node.parse (String.ofList front.body) =
      ofEvents front.body (Markdown.Event.ofText front.body) := by
    simp only [Node.parse, String.toList_ofList, hbody]
  have hmoved := ofEvents_map_span (FrontMatter.ofSpan_of_mem_body htext hwhole)
  rw [hlength] at hmoved
  refine ⟨before, htext, hlength, ?_⟩
  rw [hparse, ← hmoved, Node.parse, h]

/-- A heading in a quote behind front matter of three lines with a character of two bytes. -/
theorem Node.parse_moves_quotedHeading :
    FrontMatter.split? "---\na: é\n---\n> # x\n".toList =
        some ⟨"a: é", 13, 14, "> # x\n".toList⟩ ∧
      FrontMatter.split? "> # x\n".toList = none ∧
      ∃ before, "---\na: é\n---\n> # x\n".toList = before ++ "> # x\n".toList ∧
        Text.byteLength before = 14 ∧
        Node.parse "---\na: é\n---\n> # x\n" =
          .mk (Range.ofOffsets "---\na: é\n---\n> # x\n".toList 0 13) (.yaml "a: é") ::
            mapPositions (Range.moved (before.count '\n') 14)
              (Node.parse (String.ofList "> # x\n".toList)) := by
  have hfront : FrontMatter.split? "---\na: é\n---\n> # x\n".toList =
      some ⟨"a: é", 13, 14, "> # x\n".toList⟩ := by decide +kernel
  have hbody : FrontMatter.split? "> # x\n".toList = none := by decide +kernel
  exact ⟨hfront, hbody, Node.parse_moves_body hfront hbody⟩

end BlockDoc
