import BlockDoc.Config
import Mathlib.Data.List.Basic

/-!
Registries by the calls that fill them. Registering a container type replaces
the schema of the type and gives it the common checks only if it has no
validator; registering a validator replaces the validator. So the last call of
each sort for a type decides, in whichever order calls of both sorts come, and
calls for other types do not matter.
-/

namespace BlockDoc

/-- A call that registers a container type or the validator of a type. -/
inductive Registration where
  | container (kind : String) (schema : ContainerSchema)
  | validator (kind : String) (v : Validator)

namespace Registration

/-- The type that is registered. -/
def kind : Registration → String
  | container kind _ => kind
  | validator kind _ => kind

/-- The schema that is registered for a type. -/
def schemaFor? (kind : String) : Registration → Option ContainerSchema
  | container k schema => if k = kind then some schema else none
  | validator _ _ => none

/-- The validator that is registered for a type. -/
def validatorFor? (kind : String) : Registration → Option Validator
  | container _ _ => none
  | validator k v => if k = kind then some v else none

/-- The validator that a type gets when it is registered as a container type. -/
def commonFor? (kind : String) (call : Registration) : Option Validator :=
  (call.schemaFor? kind).map fun _ => .sections

def apply (r : Registry) : Registration → Registry
  | container kind schema => r.addContainer kind schema
  | validator kind v => r.addValidator kind v

end Registration

namespace Registry

/-- A registry after a sequence of calls. -/
def after (calls : List Registration) (r : Registry) : Registry :=
  calls.foldl Registration.apply r

/-- The calls that fill the registry of the built-in types. -/
def builtinCalls : List Registration :=
  [.container "ui:tabs" ⟨"tabs", "content"⟩, .validator "ui:tabs" .tabs,
    .container "ui:steps" ⟨"steps", "content"⟩, .validator "ui:steps" .steps,
    .container "ui:columns" ⟨"columns", "content"⟩, .validator "ui:columns" .columns,
    .validator "ui:callout" .callout]

theorem builtin_eq_after : builtin = after builtinCalls empty := rfl

theorem after_append (past calls : List Registration) (r : Registry) :
    after (past ++ calls) r = after calls (after past r) :=
  List.foldl_append

/-! ### One call -/

theorem lookup_cons_eq {α : Type} (k key : String) (x : α) (l : List (String × α)) :
    ((k, x) :: l).lookup key = if k = key then some x else l.lookup key := by
  by_cases hk : k = key
  · simp [hk]
  · have hne : (key == k) = false := beq_eq_false_iff_ne.mpr (Ne.symm hk)
    simp [List.lookup_cons, hk, hne]

section Call

variable (r : Registry) (kind : String)

theorem validator?_addValidator (k : String) (v : Validator) :
    (r.addValidator k v).validator? kind = if k = kind then some v else r.validator? kind :=
  lookup_cons_eq k kind v r.validators

theorem container?_addContainer (k : String) (schema : ContainerSchema) :
    (r.addContainer k schema).container? kind =
      if k = kind then some schema else r.container? kind := by
  have hcontainers : (if (r.validator? k).isSome then r
      else r.addValidator k .sections).containers = r.containers := by
    split_ifs <;> rfl
  rw [addContainer, container?, hcontainers]
  exact lookup_cons_eq k kind schema r.containers

/-- A container type keeps the validator that it has. -/
theorem validator?_addContainer (k : String) (schema : ContainerSchema) :
    (r.addContainer k schema).validator? kind =
      (r.validator? kind).or (if k = kind then some .sections else none) := by
  have hfilled : (r.addContainer k schema).validator? kind =
      (if (r.validator? k).isSome then r else r.addValidator k .sections).validator? kind := rfl
  rw [hfilled]
  by_cases hk : k = kind
  · subst hk
    cases hold : r.validator? k with
    | some v => simp [hold]
    | none => simp [validator?_addValidator]
  · split_ifs with hsome
    · simp
    · simp [validator?_addValidator, hk]

theorem container?_apply (call : Registration) :
    (call.apply r).container? kind = (call.schemaFor? kind).or (r.container? kind) := by
  cases call with
  | container k schema =>
      rw [Registration.apply, container?_addContainer, Registration.schemaFor?]
      split_ifs <;> rfl
  | validator k v => rfl

theorem validator?_apply (call : Registration) :
    (call.apply r).validator? kind =
      (call.validatorFor? kind).or ((r.validator? kind).or (call.commonFor? kind)) := by
  cases call with
  | container k schema =>
      rw [Registration.apply, validator?_addContainer, Registration.validatorFor?,
        Registration.commonFor?, Registration.schemaFor?]
      split_ifs <;> rfl
  | validator k v =>
      rw [Registration.apply, validator?_addValidator, Registration.validatorFor?,
        Registration.commonFor?, Registration.schemaFor?]
      split_ifs <;> simp

end Call

theorem validator?_builtin (kind : String) :
    builtin.validator? kind =
      if kind = "ui:tabs" then some .tabs
      else if kind = "ui:steps" then some .steps
      else if kind = "ui:columns" then some .columns
      else if kind = "ui:callout" then some .callout
      else none := by
  split_ifs with htabs hsteps hcolumns hcallout
  · rw [htabs]
    rfl
  · rw [hsteps]
    rfl
  · rw [hcolumns]
    rfl
  · rw [hcallout]
    rfl
  · have hempty : empty.validator? kind = none := rfl
    simp [builtin, validator?_addValidator, validator?_addContainer, hempty, Ne.symm htabs,
      Ne.symm hsteps, Ne.symm hcolumns, Ne.symm hcallout]

/-! ### Sequences of calls -/

/-- The schema that is registered last for a type. -/
def lastSchema? (kind : String) (calls : List Registration) : Option ContainerSchema :=
  (calls.filterMap (·.schemaFor? kind)).getLast?

/-- The validator that is registered last for a type. -/
def lastValidator? (kind : String) (calls : List Registration) : Option Validator :=
  (calls.filterMap (·.validatorFor? kind)).getLast?

theorem getLast?_filterMap_cons {α γ : Type} (f : α → Option γ) (x : α) (l : List α) :
    ((x :: l).filterMap f).getLast? = ((l.filterMap f).getLast?).or (f x) := by
  cases hx : f x with
  | none => simp [hx]
  | some y => cases hl : (l.filterMap f).getLast? <;> simp [hx, hl, List.getLast?_cons]

theorem container?_after (calls : List Registration) (r : Registry) (kind : String) :
    (after calls r).container? kind = (lastSchema? kind calls).or (r.container? kind) := by
  induction calls generalizing r with
  | nil => rfl
  | cons call calls ih =>
      have hstep : after (call :: calls) r = after calls (call.apply r) := rfl
      rw [hstep, ih, container?_apply, lastSchema?, lastSchema?, getLast?_filterMap_cons,
        Option.or_assoc]

/-- Without a validator of its own a type has the common checks once it is a container type. -/
theorem validator?_after (calls : List Registration) (r : Registry) (kind : String) :
    (after calls r).validator? kind = (lastValidator? kind calls).or
      ((r.validator? kind).or (calls.findSome? (·.commonFor? kind))) := by
  induction calls generalizing r with
  | nil => simp [after, lastValidator?]
  | cons call calls ih =>
      have hstep : after (call :: calls) r = after calls (call.apply r) := rfl
      have hcommon : (call :: calls).findSome? (·.commonFor? kind) =
          (call.commonFor? kind).or (calls.findSome? (·.commonFor? kind)) := by
        rw [List.findSome?_cons]
        cases call.commonFor? kind <;> rfl
      rw [hstep, ih, validator?_apply, lastValidator?, lastValidator?, getLast?_filterMap_cons,
        hcommon]
      simp only [Option.or_assoc]

/-- A type is made a container type by one of the calls. -/
def Declares (kind : String) (calls : List Registration) : Prop :=
  ∃ schema, Registration.container kind schema ∈ calls

theorem commonFor?_eq_some_iff {kind : String} {call : Registration} {v : Validator} :
    call.commonFor? kind = some v ↔
      (∃ schema, call = .container kind schema) ∧ v = .sections := by
  cases call with
  | container k schema =>
      by_cases hk : k = kind
      · simp [Registration.commonFor?, Registration.schemaFor?, hk, eq_comm]
      · simp [Registration.commonFor?, Registration.schemaFor?, hk]
  | validator k w => simp [Registration.commonFor?, Registration.schemaFor?]

theorem findSome?_commonFor? {kind : String} {calls : List Registration}
    (h : Declares kind calls) : calls.findSome? (·.commonFor? kind) = some .sections := by
  obtain ⟨schema, hcall⟩ := h
  cases hcommon : calls.findSome? (·.commonFor? kind) with
  | none =>
      have hnone := List.findSome?_eq_none_iff.mp hcommon _ hcall
      rw [commonFor?_eq_some_iff.mpr ⟨⟨schema, rfl⟩, rfl⟩] at hnone
      exact absurd hnone nofun
  | some v =>
      obtain ⟨call, -, hv⟩ := List.exists_of_findSome?_eq_some hcommon
      rw [(commonFor?_eq_some_iff.mp hv).2]

theorem findSome?_commonFor?_eq_none {kind : String} {calls : List Registration}
    (h : ¬ Declares kind calls) : calls.findSome? (·.commonFor? kind) = none := by
  refine List.findSome?_eq_none_iff.mpr fun call hcall => ?_
  cases hcommon : call.commonFor? kind with
  | none => rfl
  | some v =>
      obtain ⟨⟨schema, rfl⟩, -⟩ := commonFor?_eq_some_iff.mp hcommon
      exact absurd ⟨schema, hcall⟩ h

theorem declares_of_lastSchema? {kind : String} {calls : List Registration}
    (h : (lastSchema? kind calls).isSome) : Declares kind calls := by
  obtain ⟨schema, hschema⟩ := Option.isSome_iff_exists.mp h
  obtain ⟨call, hcall, hfor⟩ := List.mem_filterMap.mp (List.mem_of_getLast? hschema)
  cases call with
  | container k s =>
      by_cases hk : k = kind
      · exact ⟨s, hk ▸ hcall⟩
      · simp [Registration.schemaFor?, hk] at hfor
  | validator k v => simp [Registration.schemaFor?] at hfor

/-! ### Calls for one type -/

theorem filterMap_filter_kind {γ : Type} {kind : String} {f : Registration → Option γ}
    (h : ∀ call : Registration, call.kind ≠ kind → f call = none) (calls : List Registration) :
    (calls.filter (·.kind = kind)).filterMap f = calls.filterMap f := by
  rw [List.filterMap_filter]
  refine List.filterMap_congr fun call _ => ?_
  by_cases hkind : call.kind = kind
  · simp [hkind]
  · simp [hkind, h call hkind]

theorem schemaFor?_of_ne {kind : String} {call : Registration} (h : call.kind ≠ kind) :
    call.schemaFor? kind = none := by
  cases call with
  | container k schema => exact if_neg h
  | validator k v => rfl

theorem validatorFor?_of_ne {kind : String} {call : Registration} (h : call.kind ≠ kind) :
    call.validatorFor? kind = none := by
  cases call with
  | container k schema => rfl
  | validator k v => exact if_neg h

/-- What a registry says about a type depends on the calls for this type only. -/
theorem after_filter_kind (calls : List Registration) (kind : String) :
    (after (calls.filter (·.kind = kind)) empty).container? kind =
        (after calls empty).container? kind ∧
      (after (calls.filter (·.kind = kind)) empty).validator? kind =
        (after calls empty).validator? kind := by
  have hcommon : ∀ call : Registration, call.kind ≠ kind → call.commonFor? kind = none := by
    intro call hkind
    rw [Registration.commonFor?, schemaFor?_of_ne hkind, Option.map_none]
  constructor
  · rw [container?_after, container?_after, lastSchema?, lastSchema?,
      filterMap_filter_kind fun _ => schemaFor?_of_ne]
  · rw [validator?_after, validator?_after, lastValidator?, lastValidator?,
      filterMap_filter_kind fun _ => validatorFor?_of_ne, ← List.head?_filterMap,
      ← List.head?_filterMap, filterMap_filter_kind hcommon]

/-! ### Registries in use -/

/-- A registry is what a sequence of calls makes of the empty one. The last schema of a type counts,
and so does the last validator; without a validator of its own a container type has the common
checks, and a type that is none has no checks. So container types always have a validator, and each
type stands as if there were no calls for others. -/
structure Records (r : Registry) (calls : List Registration) : Prop where
  schema (kind : String) : r.container? kind = lastSchema? kind calls
  own (kind : String) (v : Validator) (h : lastValidator? kind calls = some v) :
    ∀ data, r.validate kind data = v.check data
  common (kind : String) (h : lastValidator? kind calls = none) (hcontainer : Declares kind calls) :
    ∀ data, r.validate kind data = Validator.sections.check data
  unknown (kind : String) (h : lastValidator? kind calls = none)
    (hcontainer : ¬ Declares kind calls) : ∀ data, r.validate kind data = []
  validated (kind : String) (h : (r.container? kind).isSome) : (r.validator? kind).isSome
  apart (kind : String) :
    let alone := after (calls.filter (·.kind = kind)) empty
    r.container? kind = alone.container? kind ∧
      ∀ data, r.validate kind data = alone.validate kind data

theorem records_after_empty (calls : List Registration) : (after calls empty).Records calls := by
  have hvalidator : ∀ kind, (after calls empty).validator? kind =
      (lastValidator? kind calls).or (calls.findSome? (·.commonFor? kind)) :=
    validator?_after calls empty
  constructor
  case schema =>
    intro kind
    rw [container?_after]
    exact Option.or_none
  case own =>
    intro kind v h data
    rw [validate, hvalidator, h, Option.some_or]
  case common =>
    intro kind h hcontainer data
    rw [validate, hvalidator, h, Option.none_or, findSome?_commonFor? hcontainer]
  case unknown =>
    intro kind h hcontainer data
    rw [validate, hvalidator, h, Option.none_or, findSome?_commonFor?_eq_none hcontainer]
  case validated =>
    intro kind h
    rw [container?_after] at h
    have hlast : ((lastSchema? kind calls).or none).isSome := h
    have hdeclares : Declares kind calls := declares_of_lastSchema? (by simpa using hlast)
    rw [hvalidator, findSome?_commonFor? hdeclares]
    cases lastValidator? kind calls <;> rfl
  case apart =>
    intro kind
    obtain ⟨hcontainer, hsame⟩ := after_filter_kind calls kind
    refine ⟨hcontainer.symm, fun data => ?_⟩
    rw [validate, validate, hsame]

end Registry

/-- The calls that the settings of a compiler ask for. -/
def Config.calls (c : Config) : List Registration :=
  c.containers.map fun (kind, schema) => .container kind schema

theorem Config.registry_eq_after (c : Config) : c.registry = Registry.after c.calls .builtin := by
  rw [registry, Registry.after, calls, List.foldl_map]
  rfl

namespace Registry

/-- Whatever is registered, and in whichever order, a registry shows what its calls were, whether
it was empty before, that of the built-in types, or that of a compiler with settings. -/
theorem registries_record_calls (calls : List Registration) :
    (after calls empty).Records calls ∧
      (after calls builtin).Records (builtinCalls ++ calls) ∧
      ∀ c : Config, (after calls c.registry).Records (builtinCalls ++ (c.calls ++ calls)) := by
  refine ⟨records_after_empty calls, ?_, fun c => ?_⟩
  · rw [builtin_eq_after, ← after_append]
    exact records_after_empty _
  · rw [c.registry_eq_after, builtin_eq_after, ← after_append, ← after_append]
    exact records_after_empty _

end Registry

end BlockDoc
