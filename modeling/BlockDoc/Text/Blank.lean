/-!
White space, trimming and cutting. A character is blank when it has the Unicode property
`White_Space`. The functions are stated on lists of characters; those on strings go through them.
-/

namespace BlockDoc.Text

/-- The characters with the Unicode property `White_Space`. -/
def isBlank (c : Char) : Bool :=
  let n := c.toNat
  (0x09 ≤ n && n ≤ 0x0d) || n == 0x20 || n == 0x85 || n == 0xa0 || n == 0x1680
    || (0x2000 ≤ n && n ≤ 0x200a) || n == 0x2028 || n == 0x2029 || n == 0x202f
    || n == 0x205f || n == 0x3000

/-- Drops the characters at the end that satisfy `p`. -/
def dropEndWhile (p : Char → Bool) (cs : List Char) : List Char :=
  (cs.reverse.dropWhile p).reverse

/-- Drops the characters at both ends that satisfy `p`. -/
def dropAroundWhile (p : Char → Bool) (cs : List Char) : List Char :=
  dropEndWhile p (cs.dropWhile p)

/-- The text without blanks at either end. -/
def trim (s : String) : String :=
  String.ofList (dropAroundWhile isBlank s.toList)

/-- The text without the characters satisfying `p` at either end. -/
def trimWhere (p : Char → Bool) (s : String) : String :=
  String.ofList (dropAroundWhile p s.toList)

/-- Whether nothing but blanks occur in the text; the empty text is blank. -/
def isBlankText (s : String) : Bool := s.toList.all isBlank

@[simp] theorem dropEndWhile_nil (p : Char → Bool) : dropEndWhile p [] = [] := rfl

/-- Whether the characters `pat` stand at the front of `cs`, and what follows them. -/
def dropLead? : List Char → List Char → Option (List Char)
  | [], cs => some cs
  | _ :: _, [] => none
  | p :: ps, c :: cs => if p == c then dropLead? ps cs else none

/-- The text split at the first occurrence of `pat`, which is left out. -/
def splitFirst? (pat : List Char) : List Char → Option (List Char × List Char)
  | [] => (dropLead? pat []).map fun rest => ([], rest)
  | c :: cs =>
    match dropLead? pat (c :: cs) with
    | some rest => some ([], rest)
    | none => (splitFirst? pat cs).map fun (before, after) => (c :: before, after)

/-- The two sides of the first occurrence of `pat` in `s`. -/
def splitOnce? (pat s : String) : Option (String × String) :=
  (splitFirst? pat.toList s.toList).map fun (before, after) =>
    (String.ofList before, String.ofList after)

/-- Whether `pat` occurs in `s`. -/
def occursIn (pat s : String) : Bool := (splitFirst? pat.toList s.toList).isSome

/-- Splits at every character that satisfies `p`; a text without such a character is one piece. -/
def splitList (p : Char → Bool) : List Char → List (List Char)
  | [] => [[]]
  | c :: cs =>
    if p c then [] :: splitList p cs
    else match splitList p cs with
      | [] => [[c]]
      | piece :: pieces => (c :: piece) :: pieces

/-- The pieces of `s` between the characters equal to `c`. -/
def splitAt (c : Char) (s : String) : List String :=
  (splitList (· == c) s.toList).map String.ofList

/-- The number of bytes of the UTF-8 form of a list of characters. -/
def byteLength : List Char → Nat
  | [] => 0
  | c :: cs => c.utf8Size + byteLength cs

/-- A text cut behind a number of bytes. It is not cut inside a character or behind its end. -/
def cutBytes? : Nat → List Char → Option (List Char × List Char)
  | 0, cs => some ([], cs)
  | _ + 1, [] => none
  | n + 1, c :: cs =>
    if c.utf8Size ≤ n + 1 then
      (cutBytes? (n + 1 - c.utf8Size) cs).map fun (front, rest) => (c :: front, rest)
    else none

/-- The characters between two byte offsets, if both are places between characters. -/
def slice? (cs : List Char) (start stop : Nat) : Option (List Char) :=
  if stop < start then none
  else do
    let (_, rest) ← cutBytes? start cs
    let (front, _) ← cutBytes? (stop - start) rest
    return front

end BlockDoc.Text
