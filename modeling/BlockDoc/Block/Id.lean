import BlockDoc.Block.Walk
import BlockDoc.Data.Json
import BlockDoc.Data.Sha256

/-!
Ids of documents and blocks. An id is made of the content: the bytes of texts with a NUL byte
between them are hashed. Blocks with equal content would share an id, so later ones get a number.
-/

namespace BlockDoc

/-- The bytes that stand for texts: their UTF-8 forms with NUL bytes between them. -/
def contentBytes (parts : List String) : List UInt8 :=
  [0].intercalate (parts.map fun s => s.toUTF8.toList)

/-- The first hexadecimal digits of the hash of texts. -/
def fingerprint (digits : Nat) (parts : List String) : String :=
  String.ofList ((Sha256.hex (contentBytes parts)).toList.take digits)

/-- The id of a document: the given one, the one it declares, or one made of its path and its text.
Empty ids count as none. -/
def documentId (given declared path : Option String) (text : String) : String :=
  let named (id : Option String) : Option String := id.filter fun s => !s.isEmpty
  match named given, named declared with
  | some id, _ => id
  | none, some id => id
  | none, none => "doc-" ++ fingerprint 16 [path.getD "", text]

/-- The texts of which the id of a block is made. -/
def blockIdParts (documentId kind : String) (data : BlockData Block) : List String :=
  [documentId, kind, Json.compact (dataValue data)]

/-- The id of a block before equal ids are told apart. -/
def provisionalId (documentId kind : String) (data : BlockData Block) : String :=
  "b-" ++ fingerprint 12 (blockIdParts documentId kind data)

/-- Ids that are being told apart. -/
structure Assignment where
  /-- All ids that were given, in order. -/
  given : List String
  /-- The ids assigned so far, last one first. -/
  assigned : List String
  /-- The next number to try for an id. -/
  next : List (String × Nat)

namespace Assignment

/-- The candidate for an id with a number. -/
def numbered (id : String) (n : Nat) : String := id ++ "-" ++ toString n

/-- The first number from `n` on with which an id is free, and the number behind it. -/
def firstFree (a : Assignment) (id : String) : Nat → Nat → String × Nat
  | 0, n => (numbered id n, n + 1)
  | fuel + 1, n =>
    let candidate := numbered id n
    if a.given.contains candidate || a.assigned.contains candidate then firstFree a id fuel (n + 1)
    else (candidate, n + 1)

/-- Assigns an id: itself the first time, and then the first number that is free. -/
def assign (a : Assignment) (id : String) : Assignment :=
  if a.assigned.contains id then
    let n := (a.next.lookup id).getD 1
    let (candidate, n) := a.firstFree id (a.given.length + a.assigned.length + 1) n
    { a with assigned := candidate :: a.assigned, next := (id, n) :: a.next }
  else { a with assigned := id :: a.assigned }

end Assignment

/-- Makes ids unique and keeps their order. The first of equal ids stays as it is; a later one
gets the least number behind a hyphen with which it is neither given nor assigned. -/
def uniqueIds (ids : List String) : List String :=
  (ids.foldl Assignment.assign ⟨ids, [], []⟩).assigned.reverse

/-- Makes the ids of all blocks of a document unique. The final id of each block comes with its
path. -/
def finalizeIds (bs : List Block) : List Block × List (BlockPath × String) :=
  let located := locatedBlocks bs
  let ids := uniqueIds (located.map (·.2.id))
  ((relabelBlocks bs ids).1, (located.map (·.1)).zip ids)

end BlockDoc
