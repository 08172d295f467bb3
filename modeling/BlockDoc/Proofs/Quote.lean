import BlockDoc.Translation
import Mathlib.Data.List.Basic

/-!
The text of a quote. Paragraphs and headings have a text, a quote inside the
quote is entered, and every other node is left out. The texts that are not
empty stand one behind the other with a soft break between neighbours, however
the quotes around them nest.
-/

namespace BlockDoc

/-! ### Passages -/

/-- The text of a paragraph or a heading. -/
def Node.passage? : Node → Option (List Inline)
  | .mk _ (.paragraph children) => some children
  | .mk _ (.heading _ _ children) => some children
  | _ => none

mutual

/-- A node and the nodes inside it to which quotes alone lead. -/
def Node.withQuoted : Node → List Node
  | .mk p (.quote children) => .mk p (.quote children) :: nodesWithQuoted children
  | n => [n]

/-- Nodes and the nodes inside them to which quotes alone lead, in the order of the text. -/
def nodesWithQuoted : List Node → List Node
  | [] => []
  | n :: rest => n.withQuoted ++ nodesWithQuoted rest

end

/-- The texts that are not empty of all paragraphs and headings to which quotes alone lead. -/
def passages (nodes : List Node) : List (List Inline) :=
  ((nodesWithQuoted nodes).filterMap Node.passage?).filter (· ≠ [])

def Inline.isSoftBreak : Inline → Bool
  | softBreak => true
  | _ => false

theorem ne_nil_of_mem_passages {nodes : List Node} {xs : List Inline} (h : xs ∈ passages nodes) :
    xs ≠ [] := by
  simpa using (List.mem_filter.mp h).2

theorem nodesWithQuoted_append (a b : List Node) :
    nodesWithQuoted (a ++ b) = nodesWithQuoted a ++ nodesWithQuoted b := by
  induction a with
  | nil => rfl
  | cons n rest ih => rw [List.cons_append, nodesWithQuoted, nodesWithQuoted, ih, List.append_assoc]

theorem passages_append (a b : List Node) : passages (a ++ b) = passages a ++ passages b := by
  simp only [passages, nodesWithQuoted_append, List.filterMap_append, List.filter_append]

theorem passages_cons (n : Node) (rest : List Node) :
    passages (n :: rest) = passages [n] ++ passages rest :=
  passages_append [n] rest

/-- A quote has the passages of the nodes in it. -/
theorem passages_quote (p : Range) (children : List Node) :
    passages [.mk p (.quote children)] = passages children := by
  rw [passages, nodesWithQuoted, Node.withQuoted, nodesWithQuoted, List.append_nil]
  rfl

/-! ### Joining -/

section Joining

variable {a b : List (List Inline)}

@[simp] theorem joinText_nil_left (xs : List Inline) : joinText [] xs = xs := rfl

@[simp] theorem joinText_nil_right (xs : List Inline) : joinText xs [] = xs := by
  cases xs <;> rfl

theorem joinText_of_ne_nil {xs ys : List Inline} (hxs : xs ≠ []) (hys : ys ≠ []) :
    joinText xs ys = xs ++ .softBreak :: ys := by
  simp [joinText, hxs, hys]

theorem joinText_eq (xs ys : List Inline) :
    joinText xs ys =
      if xs = [] then ys else if ys = [] then xs else xs ++ .softBreak :: ys := by
  simp [joinText]

/-- Joined texts are empty only if there are none, as each of them holds something. -/
theorem intercalate_ne_nil (ha : ∀ xs ∈ a, xs ≠ []) (hne : a ≠ []) :
    [Inline.softBreak].intercalate a ≠ [] := by
  obtain _ | ⟨xs, rest⟩ := a
  · exact absurd rfl hne
  · have hxs := ha xs List.mem_cons_self
    cases rest <;> simp [hxs]

theorem intercalate_append_of_ne_nil (ha : a ≠ []) (hb : b ≠ []) :
    [Inline.softBreak].intercalate (a ++ b) =
      [Inline.softBreak].intercalate a ++ .softBreak :: [Inline.softBreak].intercalate b := by
  induction a with
  | nil => exact absurd rfl ha
  | cons xs rest ih =>
      cases rest with
      | nil => simp [List.intercalate_cons_of_ne_nil hb]
      | cons ys rest =>
          have hrest := ih (List.cons_ne_nil ys rest)
          rw [List.cons_append] at hrest
          rw [List.cons_append, List.cons_append, List.intercalate_cons_cons, hrest,
            List.intercalate_cons_cons]
          simp only [List.append_assoc]

/-- Joining two groups of texts that are not empty joins all of them. -/
theorem joinText_intercalate (ha : ∀ xs ∈ a, xs ≠ []) (hb : ∀ xs ∈ b, xs ≠ []) :
    joinText ([Inline.softBreak].intercalate a) ([Inline.softBreak].intercalate b) =
      [Inline.softBreak].intercalate (a ++ b) := by
  by_cases hnila : a = []
  · rw [hnila, List.nil_append, List.intercalate_nil, joinText_nil_left]
  · by_cases hnilb : b = []
    · rw [hnilb, List.append_nil, List.intercalate_nil, joinText_nil_right]
    · rw [intercalate_append_of_ne_nil hnila hnilb,
        joinText_of_ne_nil (intercalate_ne_nil ha hnila) (intercalate_ne_nil hb hnilb)]

theorem head?_intercalate (ha : ∀ xs ∈ a, xs ≠ []) :
    ([Inline.softBreak].intercalate a).head? = a.flatten.head? := by
  obtain _ | ⟨xs, _ | ⟨ys, rest⟩⟩ := a
  · rfl
  · simp
  · obtain ⟨x, xs, rfl⟩ := List.exists_cons_of_ne_nil (ha xs List.mem_cons_self)
    simp

theorem getLast?_intercalate (ha : ∀ xs ∈ a, xs ≠ []) :
    ([Inline.softBreak].intercalate a).getLast? = a.flatten.getLast? := by
  induction a with
  | nil => rfl
  | cons xs rest ih =>
      have hrest : ∀ ys ∈ rest, ys ≠ [] := fun ys hys => ha ys (List.mem_cons_of_mem xs hys)
      by_cases hnil : rest = []
      · simp [hnil]
      · have hjoined := intercalate_ne_nil hrest hnil
        have hflat : rest.flatten ≠ [] := by
          obtain ⟨ys, more, rfl⟩ := List.exists_cons_of_ne_nil hnil
          simp [hrest ys List.mem_cons_self]
        rw [List.intercalate_cons_of_ne_nil hnil, List.flatten_cons,
          List.getLast?_append_of_ne_nil _ hjoined, List.getLast?_append_of_ne_nil _ hflat,
          ih hrest]

theorem countP_intercalate (a : List (List Inline)) :
    ([Inline.softBreak].intercalate a).countP Inline.isSoftBreak =
      a.flatten.countP Inline.isSoftBreak + (a.length - 1) := by
  induction a with
  | nil => rfl
  | cons xs rest ih =>
      cases rest with
      | nil => simp
      | cons ys rest =>
          rw [List.intercalate_cons_cons, List.countP_append, List.countP_append, ih,
            List.flatten_cons, List.countP_append]
          simp [Inline.isSoftBreak]
          omega

end Joining

/-! ### The text of a quote -/

mutual

theorem quoteText_eq (n : Node) : quoteText n = [Inline.softBreak].intercalate (passages [n]) := by
  obtain ⟨p, content⟩ := n
  cases content with
  | quote children => rw [quoteText, passages_quote, flattenQuote_eq children]
  | paragraph xs =>
      by_cases hxs : xs = [] <;>
        simp [quoteText, passages, nodesWithQuoted, Node.withQuoted, Node.passage?, hxs]
  | heading depth anchor xs =>
      by_cases hxs : xs = [] <;>
        simp [quoteText, passages, nodesWithQuoted, Node.withQuoted, Node.passage?, hxs]
  | _ => rfl

theorem flattenQuote_eq :
    ∀ nodes, flattenQuote nodes = [Inline.softBreak].intercalate (passages nodes)
  | [] => rfl
  | n :: rest => by
      rw [flattenQuote, quoteText_eq n, flattenQuote_eq rest, passages_cons n rest]
      exact joinText_intercalate (fun _ => ne_nil_of_mem_passages) fun _ => ne_nil_of_mem_passages

end

theorem flattenQuote_append (a b : List Node) :
    flattenQuote (a ++ b) = joinText (flattenQuote a) (flattenQuote b) := by
  rw [flattenQuote_eq, flattenQuote_eq, flattenQuote_eq, passages_append]
  exact (joinText_intercalate (fun _ => ne_nil_of_mem_passages)
    fun _ => ne_nil_of_mem_passages).symm

/-- The text of a quote is made of the passages in it with one soft break between neighbours. It
begins and ends as they do and has no other soft breaks. A quote may be replaced by the nodes in
it, and the text of two sequences of nodes is that of the first and that of the second with a soft
break between them if neither is empty. -/
theorem quote_text_joins_passages :
    (∀ nodes, flattenQuote nodes = [Inline.softBreak].intercalate (passages nodes) ∧
      (flattenQuote nodes).head? = (passages nodes).flatten.head? ∧
      (flattenQuote nodes).getLast? = (passages nodes).flatten.getLast? ∧
      (flattenQuote nodes).countP Inline.isSoftBreak =
        (passages nodes).flatten.countP Inline.isSoftBreak + ((passages nodes).length - 1)) ∧
    (∀ front p children behind, flattenQuote (front ++ .mk p (.quote children) :: behind) =
      flattenQuote (front ++ children ++ behind)) ∧
    ∀ a b, flattenQuote (a ++ b) =
      if flattenQuote a = [] then flattenQuote b
      else if flattenQuote b = [] then flattenQuote a
      else flattenQuote a ++ .softBreak :: flattenQuote b := by
  refine ⟨fun nodes => ?_, fun front p children behind => ?_, fun a b => ?_⟩
  · have hpassages : ∀ xs ∈ passages nodes, xs ≠ [] := fun _ => ne_nil_of_mem_passages
    rw [flattenQuote_eq]
    exact ⟨rfl, head?_intercalate hpassages, getLast?_intercalate hpassages, countP_intercalate _⟩
  · rw [flattenQuote_eq, flattenQuote_eq, passages_append, passages_cons, passages_quote,
      passages_append, passages_append, List.append_assoc]
  · rw [flattenQuote_append, joinText_eq]

/-- An empty paragraph, a rule and the quotes themselves leave no break behind. -/
example :
    flattenQuote
      [.mk default (.quote [.mk default (.paragraph []), .mk default (.paragraph [.text "a"])]),
        .mk default .thematicBreak, .mk default (.heading 1 none [.text "b"])] =
      [.text "a", .softBreak, .text "b"] := rfl

end BlockDoc
