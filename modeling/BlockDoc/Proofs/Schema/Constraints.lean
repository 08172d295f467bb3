import BlockDoc.Schema
import Mathlib.Data.List.Forall2
import Mathlib.Data.List.Nodup

/-!
What containers must satisfy. The built-in arrangements of sections make a list
of constraints, some on the container and some on each of its items. Each of
them is met or broken on its own account, and a check of a container is one
report after the other: nothing about a constraint that is met, one violation
at the place that it is about for a constraint that is broken.
-/

namespace BlockDoc

open Validator (itemPath fieldPath)

/-! ### Containers that are as they should be -/

/-- A field holds text in which some character is not blank. -/
def Fields.HasText (field : String) (props : Fields) : Prop :=
  ∃ s, props.get? field = some (.str s) ∧ ∃ c ∈ s.toList, Text.isBlank c = false

/-- A status, if there is one, is one of the states of a step. -/
def Fields.HasStepStatus (props : Fields) : Prop :=
  ∀ v, props.get? "status" = some v →
    v = .str "pending" ∨ v = .str "active" ∨ v = .str "completed"

/-- A ratio, if there is one, is an array with a positive number for each item. -/
def Container.HasRatio {β : Type} (c : Container β) : Prop :=
  ∀ v, c.props.get? "ratio" = some v → ∃ ns : List Number, v = .arr (ns.map .num) ∧
    ns.length = c.sectionList.length ∧ ∀ n ∈ ns, n.isPositive

/-- The built-in arrangements of sections. Plain containers have no fields of their own. -/
inductive Arrangement where
  | plain
  | tabs
  | steps
  | columns
  deriving DecidableEq, Repr

namespace Arrangement

def validator : Arrangement → Validator
  | plain => .sections
  | tabs => .tabs
  | steps => .steps
  | columns => .columns

/-- What the fields of an item must be like. -/
def HasFields : Arrangement → Fields → Prop
  | tabs, props => props.HasText "label"
  | steps, props => props.HasText "title" ∧ props.HasStepStatus
  | plain, _ => True
  | columns, _ => True

/-- A container has items, all of them are mappings with text or compiled blocks, and the fields
are as they must be. -/
structure Accepts {β : Type} (a : Arrangement) (c : Container β) : Prop where
  items : ∃ s rest, c.sections = some (s :: rest)
  contents : ∀ s ∈ c.sectionList, ∃ props,
    (∃ text, s = .entry props (some (.markdown text))) ∨ ∃ bs, s = .entry props (some (.blocks bs))
  fields : ∀ props held, .entry props held ∈ c.sectionList → a.HasFields props
  ratio : a = columns → c.HasRatio

end Arrangement

/-! ### Constraints -/

/-- A constraint on an item. If the item is no mapping, nothing more is asked of it. -/
inductive ItemConstraint where
  | mapping
  /-- There is content, which is text or blocks. -/
  | content
  /-- A field holds text that is not blank. -/
  | text (field : String)
  /-- The status is that of a step. -/
  | status
  deriving DecidableEq, Repr

/-- A constraint on a container. -/
inductive Constraint where
  /-- There are items. -/
  | items
  | item (index : Nat) (k : ItemConstraint)
  /-- The ratio fits the items. -/
  | ratio
  deriving DecidableEq, Repr

namespace Arrangement

/-- The constraints on items that only some arrangements make. -/
def itemConstraints : Arrangement → List ItemConstraint
  | tabs => [.text "label"]
  | steps => [.text "title", .status]
  | plain => []
  | columns => []

/-- The constraints on a container with a number of items: first those on all containers, then
those of the arrangement. -/
def constraints (count : Nat) (a : Arrangement) : List Constraint :=
  .items :: (List.range count).flatMap (fun i => [ItemConstraint.mapping, .content].map (.item i))
    ++ (List.range count).flatMap (fun i => a.itemConstraints.map (.item i))
    ++ if a = columns then [.ratio] else []

end Arrangement

section Broken

variable {β : Type}

/-- An item at a path breaks a constraint, which is reported as a violation. -/
inductive Section.Breaks (contentField path : String) :
    Section β → ItemConstraint → Violation → Prop
  | noMapping {v : Value} : Breaks contentField path (.malformed v) .mapping
    ⟨path, "expected a mapping"⟩
  | noContent {props : Fields} : Breaks contentField path (.entry props none) .content
    ⟨fieldPath path contentField, "missing required field"⟩
  | noMarkdown {props : Fields} {v : Value} :
    Breaks contentField path (.entry props (some (.other v))) .content
      ⟨fieldPath path contentField, "expected a Markdown string"⟩
  | noText {props : Fields} {held : Option (SectionContent β)} {field : String}
    (h : ¬ props.HasText field) : Breaks contentField path (.entry props held) (.text field)
      ⟨fieldPath path field, "expected a non-empty string"⟩
  | noStatus {props : Fields} {held : Option (SectionContent β)} (h : ¬ props.HasStepStatus) :
    Breaks contentField path (.entry props held) .status
      ⟨fieldPath path "status", "expected one of pending, active, completed"⟩

/-- A container breaks a constraint, which is reported as a violation. -/
inductive Container.Breaks (c : Container β) : Constraint → Violation → Prop
  | missing (h : c.sections = none) (hfield : c.props.get? c.itemsField = none) :
    Breaks c .items ⟨c.itemsField, "missing required field"⟩
  | noArray {v : Value} (h : c.sections = none) (hfield : c.props.get? c.itemsField = some v) :
    Breaks c .items ⟨c.itemsField, "expected an array"⟩
  | noItem (h : c.sections = some []) :
    Breaks c .items ⟨c.itemsField, "expected at least 1 entry"⟩
  | item {i : Nat} {s : Section β} {k : ItemConstraint} {v : Violation}
    (hitem : c.sectionList[i]? = some s)
    (h : s.Breaks c.contentField (itemPath c.itemsField i) k v) : Breaks c (.item i k) v
  | noRatio (h : ¬ c.HasRatio) :
    Breaks c .ratio ⟨"ratio", "expected one positive number per column"⟩

end Broken

/-! ### One check -/

/-- What is reported about a constraint: nothing if nothing breaks it, and otherwise one violation
that breaks it. -/
def SettledBy (report : List Violation) (breaks : Violation → Prop) : Prop :=
  (report = [] ∧ ∀ v, ¬ breaks v) ∨ ∃ v, report = [v] ∧ breaks v

theorem SettledBy.of_or {report : List Violation} {breaks : Violation → Prop} {met : Prop}
    {v : Violation} (h : report = [] ∧ met ∨ report = [v] ∧ ¬ met) (hbroken : ¬ met → breaks v)
    (hnot : ∀ w, breaks w → ¬ met) : SettledBy report breaks := by
  rcases h with ⟨hreport, hmet⟩ | ⟨hreport, hmet⟩
  · exact Or.inl ⟨hreport, fun w hbreaks => hnot w hbreaks hmet⟩
  · exact Or.inr ⟨v, hreport, hbroken hmet⟩

theorem requireText_eq (field path : String) (props : Fields) :
    Validator.requireText field path props = [] ∧ props.HasText field ∨
      Validator.requireText field path props =
          [⟨fieldPath path field, "expected a non-empty string"⟩] ∧
        ¬ props.HasText field := by
  cases hfield : props.get? field with
  | none => simp [Validator.requireText, Fields.HasText, hfield]
  | some v =>
      cases v with
      | str s =>
          have hblank : Text.isBlankText s = false ↔ props.HasText field := by
            simp [Fields.HasText, hfield, Text.isBlankText]
          rw [← hblank]
          cases hs : Text.isBlankText s <;>
            simp [Validator.requireText, hfield, Value.str?, hs]
      | _ => simp [Validator.requireText, Fields.HasText, hfield, Value.str?]

theorem checkStatus_eq (path : String) (props : Fields) :
    Validator.checkStatus path props = [] ∧ props.HasStepStatus ∨
      Validator.checkStatus path props =
          [⟨fieldPath path "status", "expected one of pending, active, completed"⟩] ∧
        ¬ props.HasStepStatus := by
  have hwords : Validator.oneOf Validator.stepStatuses =
      "expected one of pending, active, completed" := by decide
  rw [Validator.checkStatus, Fields.HasStepStatus, hwords]
  cases props.get? "status" with
  | none => simp
  | some v =>
      cases v with
      | str s =>
          by_cases hs : s = "pending" ∨ s = "active" ∨ s = "completed" <;>
            simp [Value.str?, Validator.stepStatuses, hs]
      | _ => simp [Value.str?]

theorem all_isPositive_iff (parts : List Value) :
    parts.all Validator.isPositive = true ↔
      ∃ ns : List Number, parts = ns.map .num ∧ ∀ n ∈ ns, n.isPositive := by
  induction parts with
  | nil => exact ⟨fun _ => ⟨[], rfl, nofun⟩, fun _ => rfl⟩
  | cons v rest ih =>
      rw [List.all_cons, Bool.and_eq_true, ih]
      constructor
      · rintro ⟨hv, ns, rfl, hns⟩
        cases v with
        | num n => exact ⟨n :: ns, rfl, List.forall_mem_cons.mpr ⟨hv, hns⟩⟩
        | _ => exact absurd hv Bool.false_ne_true
      · rintro ⟨ns, hparts, hns⟩
        cases ns with
        | nil => exact absurd hparts nofun
        | cons n ns =>
            obtain ⟨rfl, rfl⟩ := List.cons.inj hparts
            exact ⟨hns n List.mem_cons_self, ns, rfl,
              fun m hm => hns m (List.mem_cons_of_mem n hm)⟩

theorem ratio_fits_iff (v : Value) (count : Nat) :
    (v.arr?.any fun parts => parts.length == count && parts.all Validator.isPositive) = true ↔
      ∃ ns : List Number, v = .arr (ns.map .num) ∧ ns.length = count ∧
        ∀ n ∈ ns, n.isPositive := by
  cases v with
  | arr parts =>
      rw [Value.arr?, Option.any_some, Bool.and_eq_true, beq_iff_eq, all_isPositive_iff]
      constructor
      · rintro ⟨hcount, ns, rfl, hns⟩
        exact ⟨ns, rfl, by simpa using hcount, hns⟩
      · rintro ⟨ns, hparts, hcount, hns⟩
        obtain rfl := Value.arr.inj hparts
        exact ⟨by simpa using hcount, ns, rfl, hns⟩
  | _ => simp [Value.arr?]

section Reports

variable {β : Type}

theorem checkRatio_eq (c : Container β) :
    Validator.checkRatio c = [] ∧ c.HasRatio ∨
      Validator.checkRatio c = [⟨"ratio", "expected one positive number per column"⟩] ∧
        ¬ c.HasRatio := by
  rw [Validator.checkRatio, Container.HasRatio]
  cases c.props.get? "ratio" with
  | none => simp
  | some v =>
      simp only [Option.some.injEq, forall_eq', ← ratio_fits_iff]
      cases v.arr?.any _ <;> simp

/-! ### Reports -/

/-- What is reported about a constraint on an item. -/
def ItemConstraint.report (contentField path : String) : ItemConstraint → Section β → List Violation
  | mapping, .malformed v => Validator.checkSection contentField path (.malformed v : Section β)
  | content, .entry props held => Validator.checkSection contentField path (.entry props held)
  | .text field, .entry props _ => Validator.requireText field path props
  | status, .entry props _ => Validator.checkStatus path props
  | _, _ => []

/-- What is reported about a constraint. -/
def Constraint.report (c : Container β) : Constraint → List Violation
  | items =>
    match c.sections with
    | some (_ :: _) => []
    | _ => Validator.checkSections c
  | item i k =>
    match c.sectionList[i]? with
    | some s => k.report c.contentField (itemPath c.itemsField i) s
    | none => []
  | ratio => Validator.checkRatio c

theorem ItemConstraint.settled (contentField path : String) (k : ItemConstraint) (s : Section β) :
    SettledBy (k.report contentField path s) (s.Breaks contentField path k) := by
  match k, s with
  | .mapping, .malformed v => exact Or.inr ⟨_, rfl, .noMapping⟩
  | .mapping, .entry props held => exact Or.inl ⟨rfl, nofun⟩
  | .content, .entry props none => exact Or.inr ⟨_, rfl, .noContent⟩
  | .content, .entry props (some (.other v)) => exact Or.inr ⟨_, rfl, .noMarkdown⟩
  | .content, .entry props (some (.markdown _)) => exact Or.inl ⟨rfl, nofun⟩
  | .content, .entry props (some (.blocks bs)) => exact Or.inl ⟨rfl, nofun⟩
  | .text field, .entry props held =>
      refine .of_or (requireText_eq field path props) .noText fun v hbreaks => ?_
      cases hbreaks with
      | noText hnot => exact hnot
  | .status, .entry props held =>
      refine .of_or (checkStatus_eq path props) .noStatus fun v hbreaks => ?_
      cases hbreaks with
      | noStatus hnot => exact hnot
  | .content, .malformed v => exact Or.inl ⟨rfl, nofun⟩
  | .text field, .malformed v => exact Or.inl ⟨rfl, nofun⟩
  | .status, .malformed v => exact Or.inl ⟨rfl, nofun⟩

theorem Constraint.settled_items (c : Container β) :
    SettledBy (items.report c) (c.Breaks items) := by
  match hsections : c.sections with
  | some (s :: rest) =>
      refine Or.inl ⟨by simp [report, hsections], fun v hbreaks => ?_⟩
      cases hbreaks with
      | missing h _ => simp [hsections] at h
      | noArray h _ => simp [hsections] at h
      | noItem h => simp [hsections] at h
  | some [] =>
      exact Or.inr ⟨_, by simp [report, hsections, Validator.checkSections], .noItem hsections⟩
  | none =>
      cases hfield : c.props.get? c.itemsField with
      | none =>
          refine Or.inr ⟨_, ?_, .missing hsections hfield⟩
          simp [report, hsections, Validator.checkSections, Fields.has, hfield]
      | some v =>
          refine Or.inr ⟨_, ?_, .noArray hsections hfield⟩
          simp [report, hsections, Validator.checkSections, Fields.has, hfield]

/-- Every constraint is settled on its own account. -/
theorem Constraint.settled (c : Container β) (k : Constraint) :
    SettledBy (k.report c) (c.Breaks k) := by
  cases k with
  | items => exact settled_items c
  | item i k =>
      cases hitem : c.sectionList[i]? with
      | none =>
          refine Or.inl ⟨by simp [report, hitem], fun v hbreaks => ?_⟩
          cases hbreaks with
          | item h _ => simp [hitem] at h
      | some s =>
          have hreport : (item i k).report c =
              k.report c.contentField (itemPath c.itemsField i) s := by simp [report, hitem]
          rw [hreport]
          rcases k.settled c.contentField (itemPath c.itemsField i) s with ⟨hnil, h⟩ | ⟨v, hv, h⟩
          · refine Or.inl ⟨hnil, fun v hbreaks => ?_⟩
            cases hbreaks with
            | item hother hv =>
                obtain rfl := Option.some.inj (hitem.symm.trans hother)
                exact h v hv
          · exact Or.inr ⟨v, hv, .item hitem h⟩
  | ratio =>
      refine .of_or (checkRatio_eq c) .noRatio fun v hbreaks => ?_
      cases hbreaks with
      | noRatio hnot => exact hnot

/-! ### All checks -/

theorem flatMap_zipIdx_eq {α γ : Type} {l : List α} {f : α × Nat → List γ} {g : Nat → List γ}
    (h : ∀ i x, l[i]? = some x → f (x, i) = g i) :
    l.zipIdx.flatMap f = (List.range l.length).flatMap g := by
  have hindices : List.range l.length = l.zipIdx.map Prod.snd := by
    rw [List.zipIdx_map_snd, List.range_eq_range']
  rw [hindices, List.flatMap_map]
  refine List.flatMap_congr fun x hx => ?_
  exact h x.2 x.1 (List.mk_mem_zipIdx_iff_getElem?.mp hx)

/-- The reports about constraints on the items, item by item. -/
theorem flatMap_report_items (c : Container β) (ks : List ItemConstraint) :
    ((List.range c.sectionList.length).flatMap fun i => ks.map (.item i)).flatMap
        (Constraint.report c) =
      c.sectionList.zipIdx.flatMap fun (s, i) =>
        ks.flatMap fun k => k.report c.contentField (itemPath c.itemsField i) s := by
  rw [List.flatMap_assoc]
  refine (flatMap_zipIdx_eq fun i s hs => ?_).symm
  simp [List.flatMap_map, Constraint.report, hs]

theorem checkSection_eq (contentField path : String) (s : Section β) :
    Validator.checkSection contentField path s =
      [ItemConstraint.mapping, .content].flatMap fun k => k.report contentField path s := by
  cases s <;> simp [ItemConstraint.report]

theorem checkSections_eq (c : Container β) :
    Validator.checkSections c = Constraint.items.report c ++
      ((List.range c.sectionList.length).flatMap fun i =>
        [ItemConstraint.mapping, .content].map (.item i)).flatMap (Constraint.report c) := by
  rw [flatMap_report_items]
  simp only [← checkSection_eq]
  match hsections : c.sections with
  | none => simp [Constraint.report, hsections, Container.sectionList]
  | some [] => simp [Constraint.report, hsections, Container.sectionList]
  | some (s :: rest) =>
      simp [Constraint.report, hsections, Container.sectionList, Validator.checkSections]

theorem checkEntries_eq (c : Container β) (check : String → Fields → List Violation)
    (ks : List ItemConstraint)
    (hmapping : ∀ path props (held : Option (SectionContent β)), check path props =
      ks.flatMap fun k => k.report c.contentField path (.entry props held))
    (hmalformed : ∀ path v, ks.flatMap
      (fun k => k.report c.contentField path (.malformed v : Section β)) = []) :
    Validator.checkEntries check c =
      ((List.range c.sectionList.length).flatMap fun i => ks.map (.item i)).flatMap
        (Constraint.report c) := by
  rw [flatMap_report_items, Validator.checkEntries]
  refine List.flatMap_congr fun x _ => ?_
  obtain ⟨s, i⟩ := x
  cases s with
  | malformed v => exact (hmalformed _ v).symm
  | entry props held => exact hmapping _ props held

end Reports

/-- A container is reported for every constraint, one after the other. -/
theorem Arrangement.check_eq (a : Arrangement) (c : Container Block) :
    a.validator.check (.container c) =
      (a.constraints c.sectionList.length).flatMap (Constraint.report c) := by
  rw [constraints, List.flatMap_append, List.flatMap_append, List.flatMap_cons, ← checkSections_eq]
  cases a with
  | plain => simp [validator, Validator.check, Validator.onContainer, itemConstraints]
  | tabs =>
      have hentries := checkEntries_eq c (Validator.requireText "label") (itemConstraints tabs)
        (fun _ _ _ => (List.append_nil _).symm) fun _ _ => rfl
      simp [validator, Validator.check, Validator.onContainer, hentries]
  | steps =>
      have hentries := checkEntries_eq c
        (fun path props =>
          Validator.requireText "title" path props ++ Validator.checkStatus path props)
        (itemConstraints steps)
        (fun _ _ _ => by simp [itemConstraints, ItemConstraint.report]) fun _ _ => rfl
      simp [validator, Validator.check, Validator.onContainer, hentries]
  | columns =>
      simp [validator, Validator.check, Validator.onContainer, itemConstraints, Constraint.report]

theorem nodup_items (count : Nat) {ks : List ItemConstraint} (h : ks.Nodup) :
    ((List.range count).flatMap fun i => ks.map (Constraint.item i)).Nodup := by
  refine List.nodup_flatMap.mpr ⟨fun i _ => h.map fun k k' heq => (Constraint.item.inj heq).2, ?_⟩
  refine List.nodup_range.imp fun hij k hi hj => ?_
  obtain ⟨_, -, rfl⟩ := List.mem_map.mp hi
  obtain ⟨_, -, heq⟩ := List.mem_map.mp hj
  exact hij (Constraint.item.inj heq).1.symm

theorem mem_items {count : Nat} {ks : List ItemConstraint} {c : Constraint} :
    c ∈ (List.range count).flatMap (fun i => ks.map (Constraint.item i)) ↔
      ∃ i k, i < count ∧ k ∈ ks ∧ c = .item i k := by
  simp [eq_comm]

theorem Arrangement.mem_constraints {count : Nat} {a : Arrangement} {k : Constraint} :
    k ∈ a.constraints count ↔ k = .items ∨
      (∃ i own, i < count ∧ (own ∈ [ItemConstraint.mapping, .content] ∨ own ∈ a.itemConstraints) ∧
        k = .item i own) ∨ (a = columns ∧ k = .ratio) := by
  have hratio : k ∈ (if a = columns then [Constraint.ratio] else []) ↔
      a = columns ∧ k = .ratio := by
    split_ifs with h <;> simp [h]
  simp only [constraints, List.mem_append, List.mem_cons, mem_items, hratio]
  constructor
  · rintro (((h | ⟨i, own, hi, hown, h⟩) | ⟨i, own, hi, hown, h⟩) | h)
    · exact Or.inl h
    · exact Or.inr (Or.inl ⟨i, own, hi, Or.inl hown, h⟩)
    · exact Or.inr (Or.inl ⟨i, own, hi, Or.inr hown, h⟩)
    · exact Or.inr (Or.inr h)
  · rintro (h | ⟨i, own, hi, hown | hown, h⟩ | h)
    · exact Or.inl (Or.inl (Or.inl h))
    · exact Or.inl (Or.inl (Or.inr ⟨i, own, hi, hown, h⟩))
    · exact Or.inl (Or.inr ⟨i, own, hi, hown, h⟩)
    · exact Or.inr h

theorem Arrangement.nodup_constraints (count : Nat) (a : Arrangement) :
    (a.constraints count).Nodup := by
  have hown : a.itemConstraints.Nodup ∧
      ∀ k ∈ a.itemConstraints, k ∉ [ItemConstraint.mapping, .content] := by
    cases a <;> decide
  have hcommon : (Constraint.items :: (List.range count).flatMap fun i =>
      [ItemConstraint.mapping, .content].map (.item i)).Nodup := by
    refine List.nodup_cons.mpr ⟨fun h => ?_, nodup_items count (by decide)⟩
    obtain ⟨_, _, -, -, heq⟩ := mem_items.mp h
    exact absurd heq nofun
  have hitems := hcommon.append (nodup_items count hown.1) fun k hk hk' => by
    obtain ⟨i, own, -, hmem, rfl⟩ := mem_items.mp hk'
    rcases List.mem_cons.mp hk with heq | hk
    · exact absurd heq nofun
    · obtain ⟨j, common, -, hcommon, heq⟩ := mem_items.mp hk
      exact hown.2 own hmem ((Constraint.item.inj heq).2 ▸ hcommon)
  rw [constraints]
  split_ifs with hcolumns
  · refine hitems.append (List.nodup_singleton _) fun k hk hk' => ?_
    obtain rfl := List.mem_singleton.mp hk'
    rcases List.mem_append.mp hk with hk | hk
    · rcases List.mem_cons.mp hk with heq | hk
      · exact absurd heq nofun
      · obtain ⟨_, _, -, -, heq⟩ := mem_items.mp hk
        exact absurd heq nofun
    · obtain ⟨_, _, -, -, heq⟩ := mem_items.mp hk
      exact absurd heq nofun
  · rwa [List.append_nil]

/-- The violations of the constraints in a list. -/
theorem forall₂_breaks {β : Type} (c : Container β) (ks : List Constraint) :
    List.Forall₂ c.Breaks (ks.filter fun k => k.report c ≠ [])
      (ks.flatMap (Constraint.report c)) := by
  induction ks with
  | nil => exact List.Forall₂.nil
  | cons k ks ih =>
      rw [List.flatMap_cons]
      rcases k.settled c with ⟨hreport, -⟩ | ⟨v, hreport, hv⟩
      · rw [hreport, List.nil_append, List.filter_cons_of_neg (by simp [hreport])]
        exact ih
      · rw [hreport, List.filter_cons_of_pos (by simp [hreport])]
        exact List.Forall₂.cons hv ih

end BlockDoc
