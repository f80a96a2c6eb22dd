import FlowchartSlides.Proofs.Definitions

/-!
# Texts that differ inside groups

Two texts are regrouped when one arises from the other by giving some groups new
contents. What stands outside groups, and where brackets stand, is then the same
in both, so scanners that look no further than a bracket see the same.
-/
namespace FlowchartSlides.Flowchart

/-- The second text is the first one with other contents in some of its groups;
`P` relates an old content to its new one. -/
inductive Regrouped (P : List Char → List Char → Prop) : List Char → List Char → Prop
  | nil : Regrouped P [] []
  | char (c : Char) {s t : List Char} : Regrouped P s t → Regrouped P (c :: s) (c :: t)
  | group {a a' s t : List Char} : IsContent a → IsContent a' → P a a' → Regrouped P s t →
      Regrouped P ('[' :: (a ++ ']' :: s)) ('[' :: (a' ++ ']' :: t))

theorem not_mem_of_plain {a : List Char} (ha : ∀ c ∈ a, isBracket c = false) : '[' ∉ a := by
  intro h
  have hb := ha _ h
  revert hb
  decide

theorem IsContent.not_mem_open {a : List Char} (ha : IsContent a) : '[' ∉ a ++ [']'] := by
  rw [List.mem_append, not_or]
  exact ⟨not_mem_of_plain ha.plain, by decide⟩

theorem Defines.not_mem_open {w b a : List Char} (hdef : Defines w b a) : '[' ∉ w ++ b :=
  not_mem_of_plain hdef.plain

namespace Regrouped

variable {P : List Char → List Char → Prop} {s t : List Char}

theorem append_left (h : Regrouped P s t) (x : List Char) : Regrouped P (x ++ s) (x ++ t) := by
  induction x with
  | nil => exact h
  | cons c x ih => exact ih.char c

theorem refl (x : List Char) : Regrouped P x x := by
  have h : Regrouped P (x ++ []) (x ++ []) := Regrouped.nil.append_left x
  rwa [List.append_nil] at h

theorem append {s' t' : List Char} (h : Regrouped P s t) (h' : Regrouped P s' t') :
    Regrouped P (s ++ s') (t ++ t') := by
  induction h with
  | nil => exact h'
  | char c _ ih => exact ih.char c
  | @group a a' s t ha ha' hp _ ih =>
    have happ : ∀ a s x : List Char,
        '[' :: (a ++ ']' :: s) ++ x = '[' :: (a ++ ']' :: (s ++ x)) := by simp
    rw [happ, happ]
    exact .group ha ha' hp ih

/-- The content of a definition may change. -/
theorem definition {w b a a' : List Char} (hdef : Defines w b a) (ha' : IsContent a') (hp : P a a')
    (h : Regrouped P s t) : Regrouped P (written w b a s) (written w b a' t) :=
  ((Regrouped.group hdef.content ha' hp h).append_left b).append_left w

theorem symm (h : Regrouped P s t) : Regrouped (fun a a' => P a' a) t s := by
  induction h with
  | nil => exact .nil
  | char c _ ih => exact ih.char c
  | group ha ha' hp _ ih => exact .group ha' ha hp ih

/-- A stretch without opening brackets is common to both texts. -/
theorem split_of_not_mem {x : List Char} (h : Regrouped P (x ++ s) t) (hx : '[' ∉ x) :
    ∃ t', t = x ++ t' ∧ Regrouped P s t' := by
  induction x generalizing t with
  | nil => exact ⟨t, rfl, h⟩
  | cons c x ih =>
    rw [List.mem_cons, not_or] at hx
    generalize hs : c :: x ++ s = u at h
    cases h with
    | nil => simp at hs
    | char d h =>
      obtain ⟨rfl, rfl⟩ := List.cons.inj hs
      obtain ⟨t', rfl, ht⟩ := ih h hx.2
      exact ⟨t', rfl, ht⟩
    | group _ _ _ _ => exact absurd (List.cons.inj hs).1.symm hx.1

/-- A group of the first text is a group of the second one. -/
theorem of_group {a r : List Char} (ha : IsContent a)
    (h : Regrouped P ('[' :: (a ++ ']' :: r)) t) :
    ∃ a' r', IsContent a' ∧ (a' = a ∨ P a a') ∧ t = '[' :: (a' ++ ']' :: r') ∧
      Regrouped P r r' := by
  generalize hs : '[' :: (a ++ ']' :: r) = u at h
  cases h with
  | nil => simp at hs
  | char d h =>
    obtain ⟨rfl, rfl⟩ := List.cons.inj hs
    have happ : a ++ ']' :: r = (a ++ [']']) ++ r := by simp
    rw [happ] at h
    obtain ⟨t', rfl, ht⟩ := h.split_of_not_mem ha.not_mem_open
    exact ⟨a, t', ha, Or.inl rfl, by simp, ht⟩
  | group hb ha' hp h =>
    have hg := group?_written ha r
    rw [hs, group?_written hb] at hg
    obtain ⟨rfl, rfl⟩ := Prod.mk.inj (Option.some.inj hg)
    exact ⟨_, _, ha', Or.inr hp, rfl, h⟩

/-- A definition at the start of the first text is one of the second text, with
the same word. -/
theorem of_written {w b a r : List Char} (hdef : Defines w b a)
    (h : Regrouped P (written w b a r) t) :
    ∃ a' r', Defines w b a' ∧ (a' = a ∨ P a a') ∧ t = written w b a' r' ∧ Regrouped P r r' := by
  rw [written, ← List.append_assoc] at h
  obtain ⟨t', rfl, ht⟩ := h.split_of_not_mem hdef.not_mem_open
  obtain ⟨a', r', ha', hp, rfl, hr⟩ := ht.of_group hdef.content
  exact ⟨a', r', ⟨hdef.word, hdef.blanks, ha'⟩, hp, by rw [written, List.append_assoc], hr⟩

/-- Scanning over characters other than the opening bracket gives the same in
both texts. -/
theorem span (h : Regrouped P s t) {p : Char → Bool} (hp : p '[' = false) :
    t.takeWhile p = s.takeWhile p ∧ Regrouped P (s.dropWhile p) (t.dropWhile p) := by
  induction h with
  | nil => exact ⟨rfl, .nil⟩
  | char c h ih =>
    by_cases hc : p c = true
    · simp only [List.takeWhile_cons_of_pos hc, List.dropWhile_cons_of_pos hc]
      exact ⟨congrArg _ ih.1, ih.2⟩
    · rw [List.takeWhile_cons_of_neg hc, List.takeWhile_cons_of_neg hc,
        List.dropWhile_cons_of_neg hc, List.dropWhile_cons_of_neg hc]
      exact ⟨rfl, h.char c⟩
  | group ha ha' hpa h ih =>
    have hc : ¬p '[' = true := by simp [hp]
    rw [List.takeWhile_cons_of_neg hc, List.takeWhile_cons_of_neg hc,
      List.dropWhile_cons_of_neg hc, List.dropWhile_cons_of_neg hc]
    exact ⟨rfl, .group ha ha' hpa h⟩

theorem head? (h : Regrouped P s t) : t.head? = s.head? := by
  cases h <;> rfl

theorem eq_nil_iff (h : Regrouped P s t) : t = [] ↔ s = [] := by
  cases h <;> simp

/-- A group ends with its bracket, so the last characters agree too. -/
theorem getLast? (h : Regrouped P s t) : t.getLast? = s.getLast? := by
  induction h with
  | nil => rfl
  | char c h ih =>
    rw [List.getLast?_cons, List.getLast?_cons, ih]
  | @group a a' s t _ _ _ h ih =>
    have hend : ∀ x y : List Char,
        ('[' :: (x ++ ']' :: y)).getLast? = some (y.getLast?.getD ']') := by
      intro x y
      rw [← List.cons_append, List.getLast?_append, List.getLast?_cons]
      rfl
    rw [hend, hend, ih]

/-- Where the first text has no definition at its start, the second has none. -/
theorem definitionHere?_eq_none {c : Char} (hc : isIdChar c = true)
    (h : Regrouped P (c :: s) (c :: t)) (hs : definitionHere? (c :: s) = none) :
    definitionHere? (c :: t) = none := by
  cases ht : definitionHere? (c :: t) with
  | none => rfl
  | some st =>
    obtain ⟨w, b, a, r, hdef, heq, -⟩ := exists_of_definitionHere? hc ht
    have hsymm := h.symm
    rw [heq] at hsymm
    obtain ⟨a', r', hdef', -, hcs, -⟩ := hsymm.of_written hdef
    rw [hcs, hdef'.definitionHere?] at hs
    exact absurd hs (by simp)

end Regrouped

end FlowchartSlides.Flowchart
