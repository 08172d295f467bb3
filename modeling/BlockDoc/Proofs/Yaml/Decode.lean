import BlockDoc.Proofs.Data.Fields
import BlockDoc.Yaml.Decode

/-!
What decoding gives. The mappings of a decoded value are sorted by key at every
depth, because each one is made by inserting its entries one after the other.
-/

namespace BlockDoc.Yaml

/-- Every value that a computation answers with has a property. -/
def Answers {α : Type} (P : α → Prop) (x : Follow α) : Prop :=
  ∀ s a s', x s = .ok (a, s') → P a

section Answers

variable {α β : Type} {P : α → Prop} {Q : β → Prop}

theorem answers_pure {a : α} (h : P a) : Answers P (pure a) := by
  intro s b s' heq
  cases heq
  exact h

theorem answers_throw (e : Error) : Answers P (throw e) := fun _ _ _ heq => nomatch heq

theorem Answers.bind {x : Follow α} {f : α → Follow β} (hx : Answers P x)
    (hf : ∀ a, P a → Answers Q (f a)) : Answers Q (x >>= f) := by
  intro s b s' heq
  have hbind : (x >>= f) s = Except.bind (x s) fun r => f r.1 r.2 := rfl
  rw [hbind] at heq
  cases hfirst : x s with
  | error e =>
      rw [hfirst] at heq
      exact nomatch heq
  | ok r =>
      rw [hfirst] at heq
      exact hf r.1 (hx s r.1 r.2 hfirst) r.2 b s' heq

theorem answers_true (x : Follow α) : Answers (fun _ => True) x := fun _ _ _ _ => trivial

theorem answers_mapM {f : α → Follow β} {l : List α} (h : ∀ a ∈ l, Answers Q (f a)) :
    Answers (fun bs => ∀ b ∈ bs, Q b) (l.mapM f) := by
  induction l with
  | nil => exact answers_pure fun b hb => absurd hb List.not_mem_nil
  | cons a l ih =>
      rw [List.mapM_cons]
      refine (h a List.mem_cons_self).bind fun b hb => ?_
      refine (ih fun a' ha' => h a' (List.mem_cons_of_mem a ha')).bind fun bs hbs => ?_
      refine answers_pure fun c hc => ?_
      rcases List.mem_cons.mp hc with rfl | hc
      · exact hb
      · exact hbs c hc

end Answers

/-! ### Scalars -/

theorem ordered_integer {cs : List Char} {v : Value} (h : integer cs = .value v) : v.Ordered := by
  rw [integer] at h
  split at h
  · split_ifs at h
    obtain rfl := Numeric.value.inj h
    exact .num
  · exact absurd h nofun

theorem ordered_floating {s : String} {v : Value} (h : floating? s = some v) : v.Ordered := by
  simp only [floating?] at h
  split_ifs at h
  · obtain rfl := Option.some.inj h
    exact .null
  · obtain ⟨decimal, -, hrest⟩ := Option.bind_eq_some_iff.mp h
    obtain ⟨x, -, hnumber⟩ := Option.bind_eq_some_iff.mp hrest
    obtain rfl := Option.some.inj hnumber
    exact .num

theorem ordered_getD_floating (s : String) : ((floating? s).getD (.str s)).Ordered := by
  cases hfloating : floating? s with
  | none => exact .str
  | some v => exact ordered_floating hfloating

theorem ordered_plainValue {s : String} {v : Value} (h : plainValue s = .ok v) : v.Ordered := by
  rw [plainValue] at h
  split at h
  · cases h
    exact .null
  · split at h
    · cases h
      exact .bool
    · split at h
      · next w hinteger =>
          cases h
          exact ordered_integer hinteger
      · exact absurd h nofun
      · split at h
        · cases h
          exact .str
        · cases h
          exact ordered_getD_floating s

theorem ordered_orWrong {w : Option Value} {v : Value} (hw : ∀ u ∈ w, u.Ordered)
    (h : orWrong w = .ok v) : v.Ordered := by
  cases w with
  | none => exact absurd h nofun
  | some u =>
      cases h
      exact hw v rfl

theorem ordered_scalarValue {tag : Option String} {s : String} {plain : Bool} {v : Value}
    (h : scalarValue tag s plain = .ok v) : v.Ordered := by
  cases tag with
  | none =>
      cases plain with
      | true => exact ordered_plainValue h
      | false =>
          cases h
          exact .str
  | some t =>
      rw [scalarValue] at h
      split_ifs at h
      · refine ordered_orWrong (fun u hu => ?_) h
        obtain ⟨b, -, rfl⟩ := Option.map_eq_some_iff.mp hu
        exact .bool
      · split at h
        · next w hinteger =>
            cases h
            exact ordered_integer hinteger
        · exact absurd h nofun
        · exact absurd h nofun
      · exact ordered_orWrong (fun u hu => ordered_floating hu) h
      · cases h
        exact .null
      · exact absurd h nofun
      · cases h
        exact .str

/-! ### Nodes and documents -/

theorem answers_guard {α : Type} {P : α → Prop} {x : Follow α} (h : Answers P x) (c : Bool)
    (e : Error) : Answers P (if c then throw (α := PUnit) e >>= fun _ => x else x) := by
  split_ifs
  · exact (answers_true _).bind fun _ _ => h
  · exact h

theorem answers_valueOf (d : Document) (depth : Nat) (n : Node) :
    Answers Value.Ordered (d.valueOf depth n) := by
  have hscalar : ∀ tag s plain,
      Answers Value.Ordered (liftM (scalarValue tag s plain) : Follow Value) := by
    intro tag s plain state v state' h
    cases hvalue : scalarValue tag s plain with
    | error e =>
        rw [hvalue] at h
        exact nomatch h
    | ok w =>
        rw [hvalue] at h
        cases h
        exact ordered_scalarValue hvalue
  induction depth generalizing n with
  | zero =>
      rw [Document.valueOf]
      refine (answers_true _).bind fun n' _ => ?_
      cases n' with
      | «alias» a => exact answers_throw _
      | scalar tag s plain => exact hscalar tag s plain
      | sequence tag items => exact answers_guard (answers_throw _) _ _
      | mapping tag entries => exact answers_guard (answers_throw _) _ _
  | succ depth ih =>
      rw [Document.valueOf]
      refine (answers_true _).bind fun n' _ => ?_
      cases n' with
      | «alias» a => exact answers_throw _
      | scalar tag s plain => exact hscalar tag s plain
      | sequence tag items =>
          refine answers_guard ?_ _ _
          exact (answers_mapM fun i _ => ih i).bind fun vs hvs => answers_pure (.arr hvs)
      | mapping tag entries =>
          refine answers_guard ?_ _ _
          have hfields := answers_mapM (Q := fun f : String × Value => f.2.Ordered)
            (f := fun e : Node × Node => do
              let key ← d.keyText e.1
              return (key, ← d.valueOf depth e.2)) (l := entries) fun e _ =>
            (answers_true _).bind fun key _ => (ih e.2).bind fun v hv => answers_pure hv
          refine hfields.bind fun fields hordered => answers_pure ?_
          exact .obj (Fields.sorted_ofList fields) fun f hf =>
            hordered f (Fields.mem_of_mem_ofList f hf)

/-- In a decoded value every mapping is sorted. -/
theorem ordered_decode {text : String} {v : Value} (h : decode text = .ok v) : v.Ordered := by
  cases htokens : Token.scan text with
  | error e =>
      simp only [decode, htokens] at h
      exact nomatch h
  | ok tokens =>
      cases hdocument : Document.ofTokens tokens with
      | error e =>
          simp only [decode, htokens, hdocument, bind, Except.bind] at h
          exact nomatch h
      | ok d =>
          simp only [decode, htokens, hdocument, bind, Except.bind] at h
          cases hnode : d.node with
          | none =>
              rw [hnode] at h
              cases h
              exact .null
          | some n =>
              rw [hnode] at h
              cases hvalue : (d.valueOf 128 n).run 0 with
              | error e =>
                  simp only [hvalue] at h
                  exact nomatch h
              | ok r =>
                  simp only [hvalue] at h
                  obtain rfl := Except.ok.inj h
                  exact answers_valueOf d 128 n 0 r.1 r.2 hvalue

end BlockDoc.Yaml
