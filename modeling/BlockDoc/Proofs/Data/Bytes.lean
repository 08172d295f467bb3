import BlockDoc.Block.Id
import Mathlib.Data.List.Basic

/-!
The bytes of texts. Different texts have different bytes, and a NUL byte stands
for a NUL character only. A text without NUL characters that stands in front of
a NUL byte or behind one can therefore be told apart from the bytes around it.
-/

namespace BlockDoc

/-! ### The bytes of one text -/

theorem ByteArray.toList_loop (bytes : ByteArray) (i : Nat) (front : List UInt8) :
    ByteArray.toList.loop bytes i front = front.reverse ++ bytes.data.toList.drop i := by
  fun_induction ByteArray.toList.loop bytes i front with
  | case1 i front hi ih =>
      have hi' : i < bytes.data.toList.length := by simpa [ByteArray.size_data] using hi
      rw [ih, List.drop_eq_getElem_cons hi', List.reverse_cons, List.append_assoc]
      simp [ByteArray.get!, getElem!_pos, ByteArray.size_data, hi]
  | case2 i front hi =>
      have hi' : bytes.data.toList.length ≤ i := by simpa [ByteArray.size_data] using hi
      rw [List.drop_eq_nil_of_le hi', List.append_nil]

theorem utf8_toList (s : String) :
    s.toUTF8.toList = s.toList.flatMap String.utf8EncodeChar := by
  have hbytes : s.toUTF8 = (s.toList.flatMap String.utf8EncodeChar).toByteArray := by
    rw [String.toUTF8_eq_toByteArray, ← String.utf8Encode_toList]
    rfl
  rw [hbytes, ByteArray.toList, ByteArray.toList_loop]
  simp

theorem utf8_inj {s t : String} : s.toUTF8.toList = t.toUTF8.toList ↔ s = t := by
  refine ⟨fun h => ?_, fun h => h ▸ rfl⟩
  rw [utf8_toList, utf8_toList] at h
  rw [← String.toByteArray_inj, ← String.utf8Encode_toList, ← String.utf8Encode_toList]
  exact congrArg List.toByteArray h

theorem zero_eq_ofNat_iff {n : Nat} : (0 : UInt8) = UInt8.ofNat n ↔ n % 256 = 0 := by
  rw [← UInt8.toNat_inj, UInt8.toNat_ofNat']
  exact eq_comm

/-- A NUL byte is the code of the NUL character only: the other bytes of a code carry marks. -/
theorem zero_mem_utf8EncodeChar {c : Char} : 0 ∈ String.utf8EncodeChar c ↔ c = '\x00' := by
  have hzero : c = '\x00' ↔ c.val.toNat = 0 := by
    rw [← Char.toNat_inj]
    rfl
  rw [hzero, String.utf8EncodeChar]
  split_ifs <;>
    simp only [List.mem_cons, List.not_mem_nil, or_false, zero_eq_ofNat_iff] <;> omega

/-- A NUL byte stands for a NUL character. -/
theorem zero_mem_utf8 {s : String} : 0 ∈ s.toUTF8.toList ↔ '\x00' ∈ s.toList := by
  rw [utf8_toList, List.mem_flatMap]
  simp [zero_mem_utf8EncodeChar]

/-! ### Texts between NUL bytes -/

section Runs

variable {α : Type} {x₁ x₂ z₁ z₂ : List α}

/-- A run of elements with a property ends where the property does. -/
theorem run_append_inj {p : α → Bool} (hx₁ : ∀ c ∈ x₁, p c) (hx₂ : ∀ c ∈ x₂, p c)
    (hz₁ : ∀ c ∈ z₁.head?, p c = false) (hz₂ : ∀ c ∈ z₂.head?, p c = false)
    (h : x₁ ++ z₁ = x₂ ++ z₂) : x₁ = x₂ ∧ z₁ = z₂ := by
  have hstop : ∀ z : List α, (∀ c ∈ z.head?, p c = false) → z.takeWhile p = [] := by
    intro z hz
    cases z with
    | nil => rfl
    | cons c rest => exact List.takeWhile_cons_of_neg (by simp [hz c rfl])
  have hrun := congrArg (List.takeWhile p) h
  rw [List.takeWhile_append_of_pos hx₁, List.takeWhile_append_of_pos hx₂, hstop z₁ hz₁,
    hstop z₂ hz₂, List.append_nil, List.append_nil] at hrun
  subst hrun
  exact ⟨rfl, List.append_cancel_left h⟩

/-- Two lists are told apart at the first separator. -/
theorem append_cons_inj_first [DecidableEq α] {a : α} (h₁ : a ∉ x₁) (h₂ : a ∉ x₂) :
    x₁ ++ a :: z₁ = x₂ ++ a :: z₂ ↔ x₁ = x₂ ∧ z₁ = z₂ := by
  refine ⟨fun h => ?_, fun ⟨hx, hz⟩ => by rw [hx, hz]⟩
  have hother : ∀ {x : List α}, a ∉ x → ∀ c ∈ x, decide (c ≠ a) := by
    intro x hx c hc
    exact decide_eq_true fun heq => hx (heq ▸ hc)
  obtain ⟨hx, hz⟩ := run_append_inj (hother h₁) (hother h₂) (by simp) (by simp) h
  exact ⟨hx, (List.cons.inj hz).2⟩

/-- Two lists are told apart at the last separator. -/
theorem append_cons_inj_last [DecidableEq α] {a : α} (h₁ : a ∉ z₁) (h₂ : a ∉ z₂) :
    x₁ ++ a :: z₁ = x₂ ++ a :: z₂ ↔ x₁ = x₂ ∧ z₁ = z₂ := by
  have hmirror : z₁.reverse ++ a :: x₁.reverse = z₂.reverse ++ a :: x₂.reverse ↔
      z₁.reverse = z₂.reverse ∧ x₁.reverse = x₂.reverse :=
    append_cons_inj_first (mt List.mem_reverse.mp h₁) (mt List.mem_reverse.mp h₂)
  rw [← List.reverse_inj]
  simpa [and_comm] using hmirror

end Runs

theorem contentBytes_singleton (s : String) : contentBytes [s] = s.toUTF8.toList := by
  simp [contentBytes, List.intercalate]

theorem contentBytes_cons (s : String) {parts : List String} (h : parts ≠ []) :
    contentBytes (s :: parts) = s.toUTF8.toList ++ 0 :: contentBytes parts := by
  obtain ⟨t, rest, rfl⟩ := List.exists_cons_of_ne_nil h
  simp [contentBytes, List.intercalate]

/-- Of two texts the bytes determine both if the first one has no NUL character. -/
theorem contentBytes_pair_inj {s₁ s₂ t₁ t₂ : String} (h₁ : '\x00' ∉ s₁.toList)
    (h₂ : '\x00' ∉ s₂.toList) :
    contentBytes [s₁, t₁] = contentBytes [s₂, t₂] ↔ s₁ = s₂ ∧ t₁ = t₂ := by
  rw [contentBytes_cons s₁ (by simp), contentBytes_cons s₂ (by simp), contentBytes_singleton,
    contentBytes_singleton, append_cons_inj_first (mt zero_mem_utf8.mp h₁)
      (mt zero_mem_utf8.mp h₂), utf8_inj, utf8_inj]

/-- Of three texts the bytes determine all if only the first one has NUL characters. -/
theorem contentBytes_triple_inj {s₁ s₂ t₁ t₂ u₁ u₂ : String} (ht₁ : '\x00' ∉ t₁.toList)
    (ht₂ : '\x00' ∉ t₂.toList) (hu₁ : '\x00' ∉ u₁.toList) (hu₂ : '\x00' ∉ u₂.toList) :
    contentBytes [s₁, t₁, u₁] = contentBytes [s₂, t₂, u₂] ↔ s₁ = s₂ ∧ t₁ = t₂ ∧ u₁ = u₂ := by
  have hsplit : ∀ s t u, contentBytes [s, t, u] =
      (s.toUTF8.toList ++ 0 :: t.toUTF8.toList) ++ 0 :: u.toUTF8.toList := by
    intro s t u
    rw [contentBytes_cons s (by simp), contentBytes_cons t (by simp), contentBytes_singleton,
      List.append_assoc, List.cons_append]
  rw [hsplit, hsplit, append_cons_inj_last (mt zero_mem_utf8.mp hu₁) (mt zero_mem_utf8.mp hu₂),
    append_cons_inj_last (mt zero_mem_utf8.mp ht₁) (mt zero_mem_utf8.mp ht₂), utf8_inj, utf8_inj,
    utf8_inj, and_assoc]

end BlockDoc
