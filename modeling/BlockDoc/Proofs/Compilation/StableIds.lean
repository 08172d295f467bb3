import BlockDoc.Proofs.Block.FinalIds
import BlockDoc.Proofs.Block.Rank
import BlockDoc.Proofs.Compilation.Depth

/-!
Final ids of edited documents. Blocks get their ids from the document and from
what is authored, all of one length, so a repeated id gets the number of equal
ones in front of it. An edit that leaves the id of the document as it is
changes the final ids of no blocks but those with the ids that it puts in,
takes out or moves.
-/

namespace BlockDoc

theorem isProvisionalId_provisionalId (documentId kind : String) (data : BlockData Block) :
    IsProvisionalId (provisionalId documentId kind data) := by
  have hdigit : ∀ n < 16, Nat.digitChar n ∈ "0123456789abcdefABCDEF".toList := by decide
  let hash : List Char :=
    (Sha256.digest (contentBytes (blockIdParts documentId kind data))).flatMap Sha256.hexWord
  have hlength : hash.length = 64 := by simp [hash, Sha256.digest, Sha256.hexWord]
  have hid : (provisionalId documentId kind data).toList = "b-".toList ++ hash.take 12 := by
    rw [provisionalId, String.toList_append, fingerprint, Sha256.hex]
    simp only [String.toList_ofList, hash]
  refine ⟨?_, ?_, fun c hc => ?_⟩
  · rw [← String.length_toList, hid, List.length_append, List.length_take, hlength]
    decide
  · rw [hid]
    exact List.prefix_append _ _
  · rw [hid] at hc
    obtain ⟨w, -, hw⟩ := List.mem_flatMap.mp (List.mem_of_mem_take hc)
    obtain ⟨i, -, rfl⟩ := List.mem_map.mp hw
    exact hdigit _ (Nat.mod_lt _ (by decide))

namespace Compiler

section Stages

variable (compiler : Compiler) (options : CompileOptions) (text : String)

/-- The types and the data of the blocks of a text as they are authored. -/
def authoredData (compiler : Compiler) (text : String) : List (String × BlockData Block) :=
  (compiler.authored text).map fun x => (x.2.kind, x.2.data)

/-- The ids of the blocks of a text before they are final are made of what is authored. -/
theorem blockIds_drafted : blockIds (compiler.drafted options text).1 =
    (compiler.authoredData text).map fun x =>
      provisionalId (compiler.scope options text).documentId x.1 x.2 := by
  have hpaths : (locatedBlocks (compiler.drafted options text).1).map (·.1) =
      (compiler.authored text).map (·.1) := by
    have hshells := congrArg (List.map (·.1)) (compiler.finalBlocks_shells options text)
    rw [finalBlocks, List.map_map, List.map_map] at hshells
    rw [← paths_finalizeIds]
    exact hshells
  rw [← blockIds_eq, authoredData, List.map_map]
  refine List.ext_getElem? fun i => ?_
  have hpath := congrArg (fun l => l[i]?) hpaths
  simp only [List.getElem?_map] at hpath ⊢
  cases hblock : (locatedBlocks (compiler.drafted options text).1)[i]? with
  | none =>
      rw [hblock, Option.map_none, eq_comm, Option.map_eq_none_iff] at hpath
      rw [hpath]
      rfl
  | some x =>
      obtain ⟨p, b⟩ := x
      rw [hblock, Option.map_some, eq_comm, Option.map_eq_some_iff] at hpath
      obtain ⟨⟨q, d⟩, hd, rfl⟩ := hpath
      -- the block at the path comes of a draft, and only one draft stands there
      have hb := (mem_locatedBlocks _ _ b).mp (List.mem_of_getElem? hblock)
      obtain ⟨d', hd', hcomes⟩ := exists_comesOf q hb
      have hsame : (q, d') = (q, d) :=
        List.inj_on_of_nodup_map (compiler.increasing_authored text).nodup hd'
          (List.mem_of_getElem? hd) rfl
      obtain rfl : d' = d := congrArg (·.2) hsame
      rw [hd]
      exact congrArg some hcomes.id

/-- What is authored, with the final ids of its blocks. -/
def finalAuthored (compiler : Compiler) (options : CompileOptions) (text : String) :
    List ((String × BlockData Block) × String) :=
  (compiler.authoredData text).zip (blockIds (compiler.compile options text).document.blocks)

end Stages

end Compiler

/-- A block before which no block has its id keeps it, and the number of equal ids in front of any
other block follows its id. So an edit of a document changes the final ids of the blocks that it
puts in, takes out or moves, and of no others, unless they have the same ids. In compiled texts with
one document id what is authored alike gets the same final ids as long as nothing that is put in,
taken out or moved has an id of it. -/
theorem final_ids_number_equal_blocks :
    (∀ bs : List Block, (∀ id ∈ blockIds bs, IsProvisionalId id) →
      ∀ i p b, (locatedBlocks bs)[i]? = some (p, b) →
        let earlier := ((blockIds bs).take i).count b.id
        ∃ c, (locatedBlocks (finalizeIds bs).1)[i]? = some (p, c) ∧ c.withoutId = b.withoutId ∧
          c.id = if earlier = 0 then b.id else b.id ++ "-" ++ toString earlier) ∧
    (∀ bs bs' : List Block, (∀ id ∈ blockIds bs, IsProvisionalId id) →
      (∀ id ∈ blockIds bs', IsProvisionalId id) →
      ∀ moved, Edited moved bs bs' → otherIds moved bs = otherIds moved bs') ∧
    ∀ (compiler compiler' : Compiler) (options options' : CompileOptions) (text text' id : String),
      (compiler.compile options text).document.id = id →
      (compiler'.compile options' text').document.id = id → ∀ moved : String → Bool,
      let other (x : String × BlockData Block) := !moved (provisionalId id x.1 x.2)
      (compiler.authoredData text).filter other = (compiler'.authoredData text').filter other →
      (compiler.finalAuthored options text).filter (fun x => other x.1) =
        (compiler'.finalAuthored options' text').filter fun x => other x.1 := by
  refine ⟨fun bs h i p b hb => ?_, fun bs bs' h h' moved hedited => ?_, ?_⟩
  · obtain ⟨c, hc, hsame, hid⟩ := finalizeIds_ranked (fun id hid => (h id hid).1) hb
    refine ⟨c, hc, hsame, ?_⟩
    rw [hid]
    cases ((blockIds bs).take i).count b.id with
    | zero => rfl
    | succ n => rfl
  · exact hedited.otherIds_eq (fun id hid => (h id hid).1) fun id hid => (h' id hid).1
  · intro compiler compiler' options options' text text' id hid hid' moved other hsame
    have hlength : ∀ x : String × BlockData Block, (provisionalId id x.1 x.2).length = 14 :=
      fun x => (isProvisionalId_provisionalId id x.1 x.2).1
    have hids : ∀ (c : Compiler) o t, (c.compile o t).document.id = id →
        blockIds (c.compile o t).document.blocks =
          uniqueIds ((c.authoredData t).map fun x => provisionalId id x.1 x.2) := by
      rintro c o t hdocument
      rw [Compiler.compile_blocks, Compiler.finalBlocks, blockIds_finalizeIds,
        Compiler.blockIds_drafted, ← Compiler.compile_id, hdocument]
    rw [Compiler.finalAuthored, Compiler.finalAuthored, hids compiler options text hid,
      hids compiler' options' text' hid']
    exact filter_zip_uniqueIds (fun x : String × BlockData Block => provisionalId id x.1 x.2)
      (!moved ·) (fun x _ => hlength x) (fun x _ => hlength x) hsame

/-- A rule with an id. -/
def ruleWithId (id : String) : Block := ⟨id, "thematic-break", .thematicBreak, default⟩

/-- Tabs with some blocks in their section. -/
def tabsAround (bs : List Block) : Block :=
  ⟨"b-0123456789ab", "ui:tabs",
    .container ⟨"tabs", "content", [], some [.entry [] (some (.blocks bs))]⟩, default⟩

/-- Two equal rules, one inside the tabs in front of the other, and a rule of another id. -/
def rulesBefore : List Block :=
  [ruleWithId "b-cccccccccccc", tabsAround [ruleWithId "b-aaaaaaaaaaaa"],
    ruleWithId "b-aaaaaaaaaaaa"]

/-- The other rule is moved into the tabs and put in once more at the end. -/
def rulesAfter : List Block :=
  [tabsAround [ruleWithId "b-cccccccccccc", ruleWithId "b-aaaaaaaaaaaa"],
    ruleWithId "b-aaaaaaaaaaaa", ruleWithId "b-cccccccccccc"]

/-- Two rules. -/
def rulesText : String := "***\n***\n"

/-- The same with code between the rules. -/
def rulesAndCodeText : String := "***\n~~~\n~~~\n***\n"

theorem final_ids_of_equal_rules :
    let moved : String → Bool := (· == "b-cccccccccccc")
    let rule : String × BlockData Block := ("thematic-break", .thematicBreak)
    let isOther (x : String × BlockData Block) : Bool :=
      !(provisionalId "d" x.1 x.2 == provisionalId "d" "code" (.code none none ""))
    (∀ id ∈ blockIds rulesBefore, IsProvisionalId id) ∧
      (∀ id ∈ blockIds rulesAfter, IsProvisionalId id) ∧
      (∃ c, (locatedBlocks (finalizeIds rulesBefore).1)[3]? = some ([2], c) ∧
        c.id = "b-aaaaaaaaaaaa-1") ∧
      Edited moved rulesBefore rulesAfter ∧ otherIds moved rulesBefore = otherIds moved rulesAfter ∧
      (Compiler.default.authoredData rulesText).filter isOther = [rule, rule] ∧
      (Compiler.default.authoredData rulesAndCodeText).filter isOther = [rule, rule] ∧
      (Compiler.default.finalAuthored ⟨none, some "d"⟩ rulesText).filter (fun x => isOther x.1) =
        (Compiler.default.finalAuthored ⟨none, some "d"⟩ rulesAndCodeText).filter
          fun x => isOther x.1 := by
  intro moved rule isOther
  have hbefore : ∀ id ∈ blockIds rulesBefore, IsProvisionalId id := by decide
  have hafter : ∀ id ∈ blockIds rulesAfter, IsProvisionalId id := by decide
  have hlast : (locatedBlocks rulesBefore)[3]? = some ([2], ruleWithId "b-aaaaaaaaaaaa") := rfl
  have hinside : Edited moved [ruleWithId "b-aaaaaaaaaaaa"]
      [ruleWithId "b-cccccccccccc", ruleWithId "b-aaaaaaaaaaaa"] :=
    .insert (by decide) (.keep rfl (by decide) .nil .nil)
  have hedited : Edited moved rulesBefore rulesAfter :=
    .remove (by decide) (.keep rfl (by decide) hinside
      (.keep rfl (by decide) .nil (.insert (by decide) .nil)))
  have hrule : isOther rule = true := by decide +kernel
  have hrules : Compiler.default.authoredData rulesText = [rule, rule] := by with_unfolding_all rfl
  have hcode : Compiler.default.authoredData rulesAndCodeText =
      [rule, ("code", .code none none ""), rule] := by with_unfolding_all rfl
  have hfilter : (Compiler.default.authoredData rulesText).filter isOther = [rule, rule] := by
    simp [hrules, hrule]
  have hfilter' : (Compiler.default.authoredData rulesAndCodeText).filter isOther =
      [rule, rule] := by
    simp [hcode, hrule, isOther]
  have hdocument : ∀ text,
      (Compiler.default.compile ⟨none, some "d"⟩ text).document.id = "d" := by
    intro text
    rw [Compiler.compile_id]
    rfl
  obtain ⟨hnumber, hedit, hcompile⟩ := final_ids_number_equal_blocks
  obtain ⟨c, hc, -, hid⟩ := hnumber rulesBefore hbefore 3 [2] _ hlast
  have hsame := hcompile Compiler.default Compiler.default ⟨none, some "d"⟩ ⟨none, some "d"⟩
    rulesText rulesAndCodeText "d" (hdocument _) (hdocument _)
    (· == provisionalId "d" "code" (.code none none "")) (hfilter.trans hfilter'.symm)
  exact ⟨hbefore, hafter, ⟨c, hc, hid⟩, hedited, hedit _ _ hbefore hafter moved hedited, hfilter,
    hfilter', hsame⟩

end BlockDoc
