import BlockDoc.Data.Json
import BlockDoc.Proofs.Data.Bytes
import BlockDoc.Text.Number
import Std.Data.String.ToNat

/-!
The compact text of values. It can be read back: the end of a text is found
whatever stands behind it, and two values have one text only if they differ in
nothing but numbers with one text. No control character stands in it.
-/

namespace BlockDoc

/-! ### Values that are written alike -/

mutual

/-- The values differ at most in numbers, which have the same text. -/
def Value.Alike : Value → Value → Prop
  | .null, .null => True
  | .bool b, .bool c => b = c
  | .num n, .num m => n.toText = m.toText
  | .str s, .str t => s = t
  | .arr vs, .arr ws => ItemsAlike vs ws
  | .obj fs, .obj gs => FieldsAlike fs gs
  | _, _ => False

/-- Items of one number are alike in their order. -/
def ItemsAlike : List Value → List Value → Prop
  | [], [] => True
  | v :: vs, w :: ws => v.Alike w ∧ ItemsAlike vs ws
  | _, _ => False

/-- Fields have the same keys in the same order, and alike values. -/
def FieldsAlike : List (String × Value) → List (String × Value) → Prop
  | [], [] => True
  | (k, v) :: fs, (l, w) :: gs => k = l ∧ v.Alike w ∧ FieldsAlike fs gs
  | _, _ => False

end

@[simp] theorem Value.alike_str {s t : String} : (str s).Alike (str t) ↔ s = t := Iff.rfl

@[simp] theorem Value.alike_bool {b c : Bool} : (bool b).Alike (bool c) ↔ b = c := Iff.rfl

@[simp] theorem Value.alike_arr {vs ws : List Value} :
    (arr vs).Alike (arr ws) ↔ ItemsAlike vs ws := Iff.rfl

@[simp] theorem Value.alike_obj {fs gs : Fields} :
    (obj fs).Alike (obj gs) ↔ FieldsAlike fs gs := Iff.rfl

@[simp] theorem Value.alike_nat {n m : Nat} : (nat n).Alike (nat m) ↔ n = m := by
  have htext : ∀ n : Nat, (Number.int n).toText = n.repr := by
    intro n
    rw [Number.toText, Number.intText, if_neg (Int.not_lt.mpr (Int.natCast_nonneg n))]
    rfl
  have halike : (nat n).Alike (nat m) ↔ (Number.int n).toText = (Number.int m).toText := Iff.rfl
  rw [halike, htext, htext]
  exact ⟨Nat.repr_injective, congrArg Nat.repr⟩

/-! ### Numbers -/

/-- The characters of which the texts of numbers are made. -/
def isNumberChar (c : Char) : Bool := c.isDigit || "-+.e".toList.contains c

/-- A text of a number: not empty, and of such characters only. -/
def NumberText (cs : List Char) : Prop := cs ≠ [] ∧ ∀ c ∈ cs, isNumberChar c

theorem isNumberChar_of_mem_toDigits {n : Nat} {c : Char} (h : c ∈ Nat.toDigits 10 n) :
    isNumberChar c := by
  simp [isNumberChar, Nat.isDigit_of_mem_toDigits (by decide) (by decide) h]

theorem numberText_toDigits (n : Nat) : NumberText (Nat.toDigits 10 n) :=
  ⟨Nat.toDigits_ne_nil, fun _ => isNumberChar_of_mem_toDigits⟩

theorem NumberText.append {cs ds : List Char} (h : NumberText cs) (hds : ∀ c ∈ ds, isNumberChar c) :
    NumberText (cs ++ ds) := by
  refine ⟨List.append_ne_nil_of_left_ne_nil h.1 ds, fun c hc => ?_⟩
  rcases List.mem_append.mp hc with hc | hc
  · exact h.2 c hc
  · exact hds c hc

theorem NumberText.cons {c : Char} {ds : List Char} (hc : isNumberChar c)
    (hds : ∀ c ∈ ds, isNumberChar c) : NumberText (c :: ds) :=
  ⟨List.cons_ne_nil c ds, List.forall_mem_cons.mpr ⟨hc, hds⟩⟩

theorem numberText_signed {negative : Bool} {cs : List Char} (h : NumberText cs) :
    NumberText (if negative then '-' :: cs else cs) := by
  split_ifs
  · exact .cons rfl h.2
  · exact h

theorem Binary64.numberText (x : Binary64) : NumberText x.toText.toList := by
  have hdigits := numberText_toDigits x.shortest.digits
  have htake : ∀ n, ∀ c ∈ (Nat.toDigits 10 x.shortest.digits).take n, isNumberChar c :=
    fun n c hc => hdigits.2 c (List.mem_of_mem_take hc)
  have hdrop : ∀ n, ∀ c ∈ (Nat.toDigits 10 x.shortest.digits).drop n, isNumberChar c :=
    fun n c hc => hdigits.2 c (List.mem_of_mem_drop hc)
  have hfirst : ∀ n, NumberText ((Nat.toDigits 10 x.shortest.digits).take (n + 1)) :=
    fun n => ⟨by simp, htake (n + 1)⟩
  have hzeros : ∀ n, ∀ c ∈ List.replicate n '0', isNumberChar c := by
    intro n c hc
    rw [List.eq_of_mem_replicate hc]
    rfl
  have hend : ∀ c ∈ ['.', '0'], isNumberChar c := by simp [isNumberChar]
  rw [toText, String.toList_ofList]
  refine numberText_signed ?_
  split_ifs
  · exact .cons rfl hend
  · exact (hdigits.append (hzeros _)).append hend
  · exact (hfirst _).append (List.forall_mem_cons.mpr ⟨rfl, hdrop _⟩)
  · refine .cons rfl (List.forall_mem_cons.mpr ⟨rfl, ?_⟩)
    exact List.forall_mem_append.mpr ⟨hzeros _, hdigits.2⟩
  all_goals
    refine NumberText.append (.append (hfirst 0) ?_) (List.forall_mem_cons.mpr
      ⟨rfl, List.forall_mem_cons.mpr ⟨rfl, (numberText_toDigits _).2⟩⟩)
    split_ifs
    · exact fun c hc => absurd hc List.not_mem_nil
    · exact List.forall_mem_cons.mpr ⟨rfl, hdrop 1⟩

theorem Number.numberText (n : Number) : NumberText n.toText.toList := by
  cases n with
  | int n =>
      have hdigits := numberText_toDigits n.natAbs
      by_cases hneg : n < 0
      · simpa [toText, intText, hneg] using NumberText.cons rfl hdigits.2
      · simpa [toText, intText, hneg] using hdigits
  | float x => exact x.numberText

namespace Json

/-! ### Quoted texts -/

/-- Reads one character inside a quoted text. -/
def unescape? : List Char → Option (Char × List Char)
  | [] => none
  | '"' :: _ => none
  | '\\' :: 'b' :: rest => some ('\x08', rest)
  | '\\' :: 'f' :: rest => some ('\x0c', rest)
  | '\\' :: 'n' :: rest => some ('\n', rest)
  | '\\' :: 'r' :: rest => some ('\r', rest)
  | '\\' :: 't' :: rest => some ('\t', rest)
  | '\\' :: 'u' :: _ :: _ :: high :: low :: rest => do
    let h ← Text.digitValue? high
    let l ← Text.digitValue? low
    return (Char.ofNat (16 * h + l), rest)
  | '\\' :: c :: rest => some (c, rest)
  | c :: rest => some (c, rest)

theorem digitValue_digitChar : ∀ d < 16, Text.digitValue? (Nat.digitChar d) = some d := by
  decide

theorem unescape_escape (c : Char) (rest : List Char) :
    unescape? (escape c ++ rest) = some (c, rest) := by
  rw [escape]
  split_ifs with _ hslash
  iterate 7 · subst_vars; rfl
  · have hhigh := digitValue_digitChar (c.toNat / 16) (by omega)
    have hlow := digitValue_digitChar (c.toNat % 16) (by omega)
    simp [unescape?, hhigh, hlow, Nat.div_add_mod]
  · simp [unescape?, hslash]

theorem escape_append_inj {c d : Char} {x y : List Char} (h : escape c ++ x = escape d ++ y) :
    c = d ∧ x = y := by
  have hread := congrArg unescape? h
  rw [unescape_escape, unescape_escape] at hread
  simpa using hread

theorem escape_append_ne_quote (c : Char) (x y : List Char) : escape c ++ x ≠ '"' :: y := by
  intro h
  have hread := congrArg unescape? h
  rw [unescape_escape] at hread
  exact absurd hread nofun

theorem escaped_append_inj {cs ds x y : List Char}
    (h : cs.flatMap escape ++ '"' :: x = ds.flatMap escape ++ '"' :: y) : cs = ds ∧ x = y := by
  induction cs generalizing ds with
  | nil =>
      cases ds with
      | nil => simpa using h
      | cons d ds =>
          rw [List.flatMap_cons, List.append_assoc] at h
          exact absurd h.symm (escape_append_ne_quote d _ x)
  | cons c cs ih =>
      cases ds with
      | nil =>
          rw [List.flatMap_cons, List.append_assoc] at h
          exact absurd h (escape_append_ne_quote c _ y)
      | cons d ds =>
          rw [List.flatMap_cons, List.flatMap_cons, List.append_assoc, List.append_assoc] at h
          obtain ⟨rfl, hrest⟩ := escape_append_inj h
          obtain ⟨rfl, rfl⟩ := ih hrest
          exact ⟨rfl, rfl⟩

/-- A quoted text can be read back. -/
theorem quote_append_inj {s t : String} {x y : List Char} (h : quote s ++ x = quote t ++ y) :
    s = t ∧ x = y := by
  simp only [quote, List.cons_append, List.append_assoc, List.nil_append, List.cons.injEq,
    true_and] at h
  obtain ⟨hchars, hrest⟩ := escaped_append_inj h
  exact ⟨String.toList_inj.mp hchars, hrest⟩

/-! ### Texts of values -/

/-- What stands behind the first item of an array. -/
def itemTail : List Value → List Char
  | [] => [']']
  | v :: vs => ',' :: (chars v ++ itemTail vs)

/-- What stands behind the first field of a mapping. -/
def fieldTail : List (String × Value) → List Char
  | [] => ['}']
  | (k, v) :: fs => ',' :: (quote k ++ ':' :: (chars v ++ fieldTail fs))

theorem chars_arr_cons (v : Value) (vs : List Value) :
    chars (.arr (v :: vs)) = '[' :: (chars v ++ itemTail vs) := by
  have htail : ∀ v, itemChars (v :: vs) ++ [']'] = chars v ++ itemTail vs := by
    induction vs with
    | nil => exact fun v => rfl
    | cons w vs ih =>
        intro v
        rw [itemChars, List.append_assoc, List.cons_append, ih w]
        rfl
  rw [chars, htail]

theorem chars_obj_cons (k : String) (v : Value) (fs : List (String × Value)) :
    chars (.obj ((k, v) :: fs)) = '{' :: (quote k ++ ':' :: (chars v ++ fieldTail fs)) := by
  have htail : ∀ k v, fieldChars ((k, v) :: fs) ++ ['}'] =
      quote k ++ ':' :: (chars v ++ fieldTail fs) := by
    induction fs with
    | nil => simp [fieldChars, fieldTail]
    | cons f fs ih =>
        intro k v
        have hrest := ih f.1 f.2
        simp only [fieldChars, List.append_assoc, List.cons_append, fieldTail] at hrest ⊢
        rw [hrest]
  rw [chars, htail]

/-- Whether no longer number can be read in front of a text. -/
def EndsNumber (cs : List Char) : Prop := ∀ c ∈ cs.head?, isNumberChar c = false

theorem endsNumber_itemTail (vs : List Value) (x : List Char) : EndsNumber (itemTail vs ++ x) := by
  cases vs <;> simp [EndsNumber, itemTail, isNumberChar]

theorem endsNumber_fieldTail (fs : List (String × Value)) (x : List Char) :
    EndsNumber (fieldTail fs ++ x) := by
  cases fs <;> simp [EndsNumber, fieldTail, isNumberChar]

/-- The first character of a text tells which kind of value it is the text of. -/
def leadOf (c : Char) : Char := if isNumberChar c then '0' else if c = 'f' then 't' else c

/-- The lead of the text of a value. -/
def lead : Value → Char
  | .null => 'n'
  | .bool _ => 't'
  | .num _ => '0'
  | .str _ => '"'
  | .arr _ => '['
  | .obj _ => '{'

theorem head_chars (v : Value) (x : List Char) :
    (chars v ++ x).head?.map leadOf = some (lead v) := by
  cases v with
  | num n =>
      obtain ⟨hne, hchars⟩ := n.numberText
      obtain ⟨c, cs, heq⟩ := List.exists_cons_of_ne_nil hne
      have hc : isNumberChar c := hchars c (heq ▸ List.mem_cons_self)
      simp [chars, heq, lead, leadOf, hc]
  | bool b => cases b <;> rfl
  | _ => rfl

theorem chars_append_ne_bracket (v : Value) (x y : List Char) : chars v ++ x ≠ ']' :: y := by
  intro h
  have hlead := head_chars v x
  rw [h] at hlead
  cases v <;> simp [leadOf, lead, isNumberChar] at hlead

theorem itemTail_of_chars {vs ws : List Value} {x y : List Char}
    (h : chars (.arr vs) ++ x = chars (.arr ws) ++ y) : itemTail vs ++ x = itemTail ws ++ y := by
  cases vs with
  | nil =>
      cases ws with
      | nil => simpa [chars, itemTail] using h
      | cons w ws =>
          rw [chars_arr_cons, List.cons_append, List.append_assoc] at h
          exact absurd (List.cons.inj h).2.symm (chars_append_ne_bracket w _ _)
  | cons v vs =>
      cases ws with
      | nil =>
          rw [chars_arr_cons, List.cons_append, List.append_assoc] at h
          exact absurd (List.cons.inj h).2 (chars_append_ne_bracket v _ _)
      | cons w ws =>
          rw [chars_arr_cons, chars_arr_cons] at h
          exact congrArg (',' :: ·) (List.cons.inj h).2

theorem fieldTail_of_chars {fs gs : List (String × Value)} {x y : List Char}
    (h : chars (.obj fs) ++ x = chars (.obj gs) ++ y) : fieldTail fs ++ x = fieldTail gs ++ y := by
  cases fs with
  | nil =>
      cases gs with
      | nil => simpa [chars, fieldTail] using h
      | cons g gs =>
          rw [chars_obj_cons] at h
          simp [chars, fieldChars, quote] at h
  | cons f fs =>
      cases gs with
      | nil =>
          rw [chars_obj_cons] at h
          simp [chars, fieldChars, quote] at h
      | cons g gs =>
          rw [chars_obj_cons, chars_obj_cons] at h
          exact congrArg (',' :: ·) (List.cons.inj h).2

mutual

/-- The text of a value can be read back if the text behind it ends numbers. -/
theorem chars_append_inj {v w : Value} {x y : List Char} (hx : EndsNumber x) (hy : EndsNumber y)
    (h : chars v ++ x = chars w ++ y) : v.Alike w ∧ x = y := by
  have hlead : lead v = lead w := by
    have hhead := head_chars v x
    rw [h, head_chars w y] at hhead
    exact (Option.some.inj hhead).symm
  -- with one lead only values of one kind are left
  cases v with
  | null =>
      cases w with
      | null => simpa [Value.Alike, chars] using h
      | _ => simp [lead] at hlead
  | bool b =>
      cases w with
      | bool c => cases b <;> cases c <;> simp_all [Value.Alike, chars]
      | _ => simp [lead] at hlead
  | num n =>
      cases w with
      | num m =>
          obtain ⟨htext, hrest⟩ := run_append_inj n.numberText.2 m.numberText.2 hx hy h
          exact ⟨String.toList_inj.mp htext, hrest⟩
      | _ => simp [lead] at hlead
  | str s =>
      cases w with
      | str t => exact quote_append_inj h
      | _ => simp [lead] at hlead
  | arr vs =>
      cases w with
      | arr ws => exact itemTail_append_inj (itemTail_of_chars h)
      | _ => simp [lead] at hlead
  | obj fs =>
      cases w with
      | obj gs => exact fieldTail_append_inj (fieldTail_of_chars h)
      | _ => simp [lead] at hlead

theorem itemTail_append_inj {vs ws : List Value} {x y : List Char}
    (h : itemTail vs ++ x = itemTail ws ++ y) : ItemsAlike vs ws ∧ x = y := by
  cases vs with
  | nil =>
      cases ws with
      | nil => simpa [ItemsAlike, itemTail] using h
      | cons w ws => simp [itemTail] at h
  | cons v vs =>
      cases ws with
      | nil => simp [itemTail] at h
      | cons w ws =>
          simp only [itemTail, List.cons_append, List.append_assoc, List.cons.injEq, true_and] at h
          obtain ⟨hv, htail⟩ := chars_append_inj (endsNumber_itemTail vs x)
            (endsNumber_itemTail ws y) h
          obtain ⟨hvs, hrest⟩ := itemTail_append_inj htail
          exact ⟨⟨hv, hvs⟩, hrest⟩

theorem fieldTail_append_inj {fs gs : List (String × Value)} {x y : List Char}
    (h : fieldTail fs ++ x = fieldTail gs ++ y) : FieldsAlike fs gs ∧ x = y := by
  cases fs with
  | nil =>
      cases gs with
      | nil => simpa [FieldsAlike, fieldTail] using h
      | cons g gs => simp [fieldTail] at h
  | cons f fs =>
      obtain ⟨k, v⟩ := f
      cases gs with
      | nil => simp [fieldTail] at h
      | cons g gs =>
          obtain ⟨l, w⟩ := g
          simp only [fieldTail, List.cons_append, List.append_assoc, List.cons.injEq, true_and] at h
          obtain ⟨hkey, hrest⟩ := quote_append_inj h
          obtain ⟨hv, htail⟩ := chars_append_inj (endsNumber_fieldTail fs x)
            (endsNumber_fieldTail gs y) (List.cons.inj hrest).2
          obtain ⟨hfs, hrest⟩ := fieldTail_append_inj htail
          exact ⟨⟨hkey, hv, hfs⟩, hrest⟩

end

mutual

theorem chars_of_alike {v w : Value} (h : v.Alike w) : chars v = chars w := by
  cases v with
  | num n =>
      cases w with
      | num m => exact congrArg String.toList h
      | _ => exact absurd h (by simp [Value.Alike])
  | arr vs =>
      cases w with
      | arr ws =>
          cases vs <;> cases ws <;> simp only [Value.Alike, ItemsAlike] at h
          case nil.nil => rfl
          case cons.cons v vs w ws =>
            rw [chars_arr_cons, chars_arr_cons, chars_of_alike h.1, itemTail_of_alike h.2]
      | _ => exact absurd h (by simp [Value.Alike])
  | obj fs =>
      cases w with
      | obj gs =>
          cases fs <;> cases gs <;> simp only [Value.Alike, FieldsAlike] at h
          case nil.nil => rfl
          case cons.cons f fs g gs =>
            obtain ⟨hkey, hv, hfs⟩ := h
            rw [chars_obj_cons, chars_obj_cons, hkey, chars_of_alike hv, fieldTail_of_alike hfs]
      | _ => exact absurd h (by simp [Value.Alike])
  | _ => cases w <;> simp_all [Value.Alike]

theorem itemTail_of_alike {vs ws : List Value} (h : ItemsAlike vs ws) :
    itemTail vs = itemTail ws := by
  cases vs <;> cases ws <;> simp only [ItemsAlike] at h
  case nil.nil => rfl
  case cons.cons v vs w ws => rw [itemTail, itemTail, chars_of_alike h.1, itemTail_of_alike h.2]

theorem fieldTail_of_alike {fs gs : List (String × Value)} (h : FieldsAlike fs gs) :
    fieldTail fs = fieldTail gs := by
  cases fs <;> cases gs <;> simp only [FieldsAlike] at h
  case nil.nil => rfl
  case cons.cons f fs g gs =>
    obtain ⟨k, v⟩ := f
    obtain ⟨l, w⟩ := g
    obtain ⟨rfl, hv, hfs⟩ := h
    rw [fieldTail, fieldTail, chars_of_alike hv, fieldTail_of_alike hfs]

end

/-- Two values have one compact text exactly if they are alike. -/
theorem compact_inj {v w : Value} : compact v = compact w ↔ v.Alike w := by
  refine ⟨fun h => ?_, fun h => by rw [compact, compact, chars_of_alike h]⟩
  have hends : EndsNumber [] := fun c hc => absurd hc nofun
  refine (chars_append_inj hends hends ?_).1
  rw [List.append_nil, List.append_nil]
  exact String.ofList_injective h

/-! ### NUL characters -/

theorem nul_notMem_escape (c : Char) : '\x00' ∉ escape c := by
  have hdigit : ∀ d < 16, '\x00' ≠ Nat.digitChar d := by decide
  rw [escape]
  split_ifs with _ _ _ _ _ _ _ hcontrol
  iterate 7 · decide
  · simp [hdigit _ (show c.toNat / 16 < 16 by omega), hdigit _ (show c.toNat % 16 < 16 by omega)]
  · intro hmem
    obtain rfl := List.mem_singleton.mp hmem
    exact hcontrol (by decide)

theorem nul_notMem_quote (s : String) : '\x00' ∉ quote s := by
  simp [quote, nul_notMem_escape]

theorem nul_notMem_number (n : Number) : '\x00' ∉ n.toText.toList :=
  fun h => absurd (n.numberText.2 _ h) (by decide)

mutual

theorem nul_notMem_chars (v : Value) : '\x00' ∉ chars v := by
  cases v with
  | null => decide
  | bool b => cases b <;> decide
  | num n => exact nul_notMem_number n
  | str s => exact nul_notMem_quote s
  | arr vs =>
      cases vs with
      | nil => decide
      | cons v vs => simp [chars_arr_cons, nul_notMem_chars v, nul_notMem_itemTail vs]
  | obj fs =>
      cases fs with
      | nil => decide
      | cons f fs =>
          obtain ⟨k, v⟩ := f
          simp [chars_obj_cons, nul_notMem_quote, nul_notMem_chars v, nul_notMem_fieldTail fs]

theorem nul_notMem_itemTail (vs : List Value) : '\x00' ∉ itemTail vs := by
  cases vs with
  | nil => decide
  | cons v vs => simp [itemTail, nul_notMem_chars v, nul_notMem_itemTail vs]

theorem nul_notMem_fieldTail (fs : List (String × Value)) : '\x00' ∉ fieldTail fs := by
  cases fs with
  | nil => decide
  | cons f fs =>
      obtain ⟨k, v⟩ := f
      simp [fieldTail, nul_notMem_quote, nul_notMem_chars v, nul_notMem_fieldTail fs]

end

theorem nul_notMem_compact (v : Value) : '\x00' ∉ (compact v).toList := by
  rw [compact, String.toList_ofList]
  exact nul_notMem_chars v

end Json

end BlockDoc
