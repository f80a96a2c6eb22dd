import FlowchartSlides.Flowchart.Statement
import FlowchartSlides.Icons.Merge
import Mathlib.Data.List.TakeWhile

/-!
# Definitions as pieces of text

A definition in a text is a word, blanks and a group. The readers of lines and
the merger of icons look for it with scanners of their own; here both are tied
to one written form, in which the word, the blanks, the content and the rest are
given apart and are determined by the text.
-/
namespace FlowchartSlides.Flowchart

theorem toNat_of_isUpper {c : Char} (h : c.isUpper = true) : 65 ≤ c.toNat ∧ c.toNat ≤ 90 :=
  of_decide_eq_true h

theorem toNat_of_isLower {c : Char} (h : c.isLower = true) : 97 ≤ c.toNat ∧ c.toNat ≤ 122 := by
  obtain ⟨hlo, hhi⟩ := Bool.and_eq_true_iff.mp h
  exact ⟨of_decide_eq_true hlo, of_decide_eq_true hhi⟩

theorem toNat_of_isDigit {c : Char} (h : c.isDigit = true) : 48 ≤ c.toNat ∧ c.toNat ≤ 57 := by
  obtain ⟨hlo, hhi⟩ := Bool.and_eq_true_iff.mp h
  exact ⟨of_decide_eq_true hlo, of_decide_eq_true hhi⟩

theorem isIdChar_cases {c : Char} (h : isIdChar c = true) :
    c.isUpper = true ∨ c.isLower = true ∨ c.isDigit = true ∨ c = '_' ∨ c = '-' := by
  have hcases : (c.isUpper || c.isLower || c.isDigit || c == '_' || c == '-') = true := h
  simpa [or_assoc] using hcases

theorem isIdChar_of_isUpper {c : Char} (h : c.isUpper = true) : isIdChar c = true := by
  have hcases : (c.isUpper || c.isLower || c.isDigit || c == '_' || c == '-') = true := by simp [h]
  exact hcases

theorem isIdChar_of_isLower {c : Char} (h : c.isLower = true) : isIdChar c = true := by
  have hcases : (c.isUpper || c.isLower || c.isDigit || c == '_' || c == '-') = true := by simp [h]
  exact hcases

/-- The code points of the characters of ids. -/
theorem toNat_of_isIdChar {c : Char} (h : isIdChar c = true) :
    (65 ≤ c.toNat ∧ c.toNat ≤ 90) ∨ (97 ≤ c.toNat ∧ c.toNat ≤ 122) ∨
      (48 ≤ c.toNat ∧ c.toNat ≤ 57) ∨ c.toNat = 95 ∨ c.toNat = 45 := by
  rcases isIdChar_cases h with h | h | h | rfl | rfl
  · exact Or.inl (toNat_of_isUpper h)
  · exact Or.inr (Or.inl (toNat_of_isLower h))
  · exact Or.inr (Or.inr (Or.inl (toNat_of_isDigit h)))
  · exact Or.inr (Or.inr (Or.inr (Or.inl rfl)))
  · exact Or.inr (Or.inr (Or.inr (Or.inr rfl)))

theorem not_isBlank_of_isIdChar {c : Char} (h : isIdChar c = true) : Text.isBlank c = false := by
  have hr := toNat_of_isIdChar h
  simp only [Text.isBlank, Text.inRanges, Text.blankRanges, List.any_cons, List.any_nil,
    Bool.or_eq_false_iff, Bool.and_eq_false_iff, decide_eq_false_iff_not, and_true]
  omega

theorem not_isIdChar_of_isBlank {c : Char} (h : Text.isBlank c = true) : isIdChar c = false := by
  by_contra hc
  rw [Bool.not_eq_false] at hc
  rw [not_isBlank_of_isIdChar hc] at h
  exact Bool.false_ne_true h

theorem not_isBracket_of_isIdChar {c : Char} (h : isIdChar c = true) : isBracket c = false := by
  have hr := toNat_of_isIdChar h
  simp only [isBracket, Bool.or_eq_false_iff, beq_eq_false_iff_ne]
  constructor <;> rintro rfl <;> revert hr <;> decide

theorem not_isBracket_of_isBlank {c : Char} (h : Text.isBlank c = true) : isBracket c = false := by
  simp only [isBracket, Bool.or_eq_false_iff, beq_eq_false_iff_ne]
  constructor <;> rintro rfl <;> revert h <;> decide

theorem isIdChar_open : isIdChar '[' = false := by decide

theorem isIdChar_close : isIdChar ']' = false := by decide

theorem isBlank_open : Text.isBlank '[' = false := by decide

/-- An id: one or more id characters. -/
structure IsWord (w : List Char) : Prop where
  ne_nil : w ≠ []
  idChars : ∀ c ∈ w, isIdChar c = true

instance (w : List Char) : Decidable (IsWord w) :=
  decidable_of_iff (w ≠ [] ∧ w.all isIdChar = true)
    ⟨fun h => ⟨h.1, List.all_eq_true.mp h.2⟩, fun h => ⟨h.ne_nil, List.all_eq_true.mpr h.idChars⟩⟩

/-- What a group may enclose: something without brackets. -/
structure IsContent (a : List Char) : Prop where
  ne_nil : a ≠ []
  plain : ∀ c ∈ a, isBracket c = false

instance (a : List Char) : Decidable (IsContent a) :=
  decidable_of_iff (a ≠ [] ∧ a.all (!isBracket ·) = true)
    ⟨fun h => ⟨h.1, by simpa using h.2⟩, fun h => ⟨h.ne_nil, by simpa using h.plain⟩⟩

/-- Word, blanks and content of a definition. -/
structure Defines (w b a : List Char) : Prop where
  word : IsWord w
  blanks : ∀ c ∈ b, Text.isBlank c = true
  content : IsContent a

instance (w b a : List Char) : Decidable (Defines w b a) :=
  decidable_of_iff (IsWord w ∧ b.all Text.isBlank = true ∧ IsContent a)
    ⟨fun h => ⟨h.1, List.all_eq_true.mp h.2.1, h.2.2⟩,
      fun h => ⟨h.word, List.all_eq_true.mpr h.blanks, h.content⟩⟩

/-- A definition written out, and what follows it. -/
def written (w b a r : List Char) : List Char := w ++ (b ++ '[' :: (a ++ ']' :: r))

theorem IsWord.exists_cons {w : List Char} (h : IsWord w) :
    ∃ c s, w = c :: s ∧ isIdChar c = true ∧ ∀ d ∈ s, isIdChar d = true := by
  cases w with
  | nil => exact absurd rfl h.ne_nil
  | cons c s =>
    have hrest : ∀ d ∈ s, isIdChar d = true := fun d hd => h.idChars d (List.mem_cons_of_mem c hd)
    exact ⟨c, s, rfl, h.idChars c List.mem_cons_self, hrest⟩

theorem takeWhile_append_stop {p : Char → Bool} {l : List Char} (hl : ∀ c ∈ l, p c = true)
    {d : Char} (hd : p d = false) (r : List Char) : (l ++ d :: r).takeWhile p = l := by
  rw [List.takeWhile_append_of_pos hl, List.takeWhile_cons_of_neg (by simp [hd]), List.append_nil]

theorem dropWhile_append_stop {p : Char → Bool} {l : List Char} (hl : ∀ c ∈ l, p c = true)
    {d : Char} (hd : p d = false) (r : List Char) : (l ++ d :: r).dropWhile p = d :: r := by
  rw [List.dropWhile_append_of_pos hl, List.dropWhile_cons_of_neg (by simp [hd])]

theorem group?_written {a : List Char} (ha : IsContent a) (r : List Char) :
    group? ('[' :: (a ++ ']' :: r)) = some (a, r) := by
  have hp : ∀ c ∈ a, (!isBracket c) = true := fun c hc => by rw [ha.plain c hc]; rfl
  have hclose : (!isBracket ']') = false := by decide
  simp only [group?, takeWhile_append_stop hp hclose, dropWhile_append_stop hp hclose]
  cases a with
  | nil => exact absurd rfl ha.ne_nil
  | cons c a => rfl

/-- A group is found exactly where one is written. -/
theorem group?_eq_some_iff {cs a r : List Char} :
    group? cs = some (a, r) ↔ IsContent a ∧ cs = '[' :: (a ++ ']' :: r) := by
  constructor
  · intro h
    refine ⟨?_, by simpa using eq_of_group? h⟩
    unfold group? at h
    split at h
    next cs =>
      simp only at h
      split at h
      next c a' r' hc hr =>
        obtain ⟨rfl, rfl⟩ := by simpa using h
        refine ⟨List.cons_ne_nil _ _, fun d hd => ?_⟩
        rw [← hc] at hd
        simpa using List.mem_takeWhile_imp hd
      next => simp at h
    next => simp at h
  · rintro ⟨ha, rfl⟩
    exact group?_written ha r

theorem trimStart_blanks {b : List Char} (hb : ∀ c ∈ b, Text.isBlank c = true) {d : Char}
    (hd : Text.isBlank d = false) (r : List Char) : Text.trimStart (b ++ d :: r) = d :: r :=
  dropWhile_append_stop hb hd r

/-- After a word come blanks or a bracket, so the word is a maximal one. -/
theorem leadingWord_blanks {w b : List Char} (hw : ∀ c ∈ w, isIdChar c = true)
    (hb : ∀ c ∈ b, Text.isBlank c = true) (r : List Char) :
    leadingWord (w ++ (b ++ '[' :: r)) = w ∧ afterWord (w ++ (b ++ '[' :: r)) = b ++ '[' :: r := by
  cases b with
  | nil =>
    exact ⟨takeWhile_append_stop hw isIdChar_open r, dropWhile_append_stop hw isIdChar_open r⟩
  | cons c b =>
    have hc := not_isIdChar_of_isBlank (hb c List.mem_cons_self)
    exact ⟨takeWhile_append_stop hw hc _, dropWhile_append_stop hw hc _⟩

theorem Defines.plain {w b a : List Char} (h : Defines w b a) :
    ∀ c ∈ w ++ b, isBracket c = false := by
  intro c hc
  rcases List.mem_append.mp hc with hc | hc
  · exact not_isBracket_of_isIdChar (h.word.idChars c hc)
  · exact not_isBracket_of_isBlank (h.blanks c hc)

/-- The first bracket of a definition is an opening one. -/
theorem Defines.dropWhile_plain {w b a : List Char} (h : Defines w b a) (r : List Char) :
    (written w b a r).dropWhile (!isBracket ·) = '[' :: (a ++ ']' :: r) := by
  rw [written, ← List.append_assoc]
  exact dropWhile_append_stop (fun c hc => by rw [h.plain c hc]; rfl) (by decide) _

theorem Defines.leadingWord {w b a : List Char} (h : Defines w b a) (r : List Char) :
    leadingWord (written w b a r) = w :=
  (leadingWord_blanks h.word.idChars h.blanks _).1

theorem Defines.afterWord {w b a : List Char} (h : Defines w b a) (r : List Char) :
    afterWord (written w b a r) = b ++ '[' :: (a ++ ']' :: r) :=
  (leadingWord_blanks h.word.idChars h.blanks _).2

theorem Defines.group? {w b a : List Char} (h : Defines w b a) (r : List Char) :
    group? (Text.trimStart (Flowchart.afterWord (written w b a r))) = some (a, r) := by
  rw [h.afterWord, trimStart_blanks h.blanks isBlank_open, group?_written h.content]

/-- A text starts with one definition at most. -/
theorem Defines.unique {w b a r w' b' a' r' : List Char} (h : Defines w b a)
    (h' : Defines w' b' a') (heq : written w b a r = written w' b' a' r') :
    w = w' ∧ b = b' ∧ a = a' ∧ r = r' := by
  have hw : w = w' := by rw [← h.leadingWord r, heq, h'.leadingWord]
  have hg := h.group? r
  rw [heq, h'.group?] at hg
  obtain ⟨ha, hr⟩ := Prod.mk.inj (Option.some.inj hg)
  have hb : b ++ '[' :: (a ++ ']' :: r) = b' ++ '[' :: (a ++ ']' :: r) := by
    rw [← h.afterWord r, heq, h'.afterWord, ha, hr]
  exact ⟨hw, List.append_cancel_right hb, ha.symm, hr.symm⟩

def isQuote (c : Char) : Bool := c == '"' || c == '\''

/-- A nonempty text between two quotes of one kind is a quoted content. -/
theorem ofContent_quoted {q : Char} (hq : isQuote q = true) {inner : List Char} (hne : inner ≠ []) :
    Quoting.ofContent (q :: (inner ++ [q])) = ⟨[q], inner⟩ := by
  have hlen : 2 ≤ (inner ++ [q]).length := by
    have hpos := List.length_pos_iff.mpr hne
    rw [List.length_append, List.length_singleton]
    omega
  have hlast : (inner ++ [q]).getLast? == some q := by rw [List.getLast?_concat]; simp
  rw [isQuote] at hq
  rw [Quoting.ofContent, hq, decide_eq_true hlen, hlast, List.dropLast_concat]
  rfl

/-- A content that starts with no quote is its own label. -/
theorem ofContent_of_not_isQuote {a : List Char} (h : ∀ c ∈ a.head?, isQuote c = false) :
    Quoting.ofContent a = ⟨[], a⟩ := by
  cases a with
  | nil => rfl
  | cons c a =>
    have hc := h c rfl
    rw [isQuote] at hc
    rw [Quoting.ofContent, hc]
    rfl

/-- The quotes around a content, none or one. -/
theorem quote_ofContent (a : List Char) :
    (Quoting.ofContent a).quote = [] ∨
      ∃ q, isQuote q = true ∧ (Quoting.ofContent a).quote = [q] := by
  cases a with
  | nil => exact Or.inl rfl
  | cons c a =>
    rw [Quoting.ofContent]
    split
    next h =>
      simp only [Bool.and_eq_true] at h
      exact Or.inr ⟨c, h.1.1, rfl⟩
    next => exact Or.inl rfl

/-- What a definition says about its node. -/
def definedNode (w a : List Char) : Statement :=
  .node (String.ofList w) (String.ofList (Text.trim (Quoting.ofContent a).inner))

theorem Defines.definitionHere? {w b a : List Char} (h : Defines w b a) (r : List Char) :
    definitionHere? (written w b a r) = some (definedNode w a) := by
  simp only [Flowchart.definitionHere?, h.group?, h.leadingWord, Option.map_some, definedNode]

/-- A definition at the start of a text is the first one. -/
theorem Defines.firstAtWord? {w b a : List Char} (h : Defines w b a) (r : List Char) :
    firstAtWord? Flowchart.definitionHere? false (written w b a r) = some (definedNode w a) := by
  have hhere := h.definitionHere? r
  obtain ⟨c, w', rfl, hc, -⟩ := h.word.exists_cons
  rw [written, List.cons_append] at hhere ⊢
  rw [firstAtWord?_start hc, hhere, Option.some_or]

/-- What the rule reads at the start of a word is a definition written there. -/
theorem exists_of_definitionHere? {c : Char} {cs : List Char} {s : Statement}
    (hc : isIdChar c = true) (h : definitionHere? (c :: cs) = some s) :
    ∃ w b a r, Defines w b a ∧ c :: cs = written w b a r ∧ s = definedNode w a := by
  obtain ⟨⟨a, r⟩, hg, hs⟩ := Option.map_eq_some_iff.mp h
  obtain ⟨ha, heq⟩ := group?_eq_some_iff.mp hg
  have hsplit := List.takeWhile_append_dropWhile (p := Text.isBlank) (l := afterWord (c :: cs))
  refine ⟨leadingWord (c :: cs), (afterWord (c :: cs)).takeWhile Text.isBlank, a, r,
    ⟨⟨?_, fun d hd => List.mem_takeWhile_imp hd⟩, fun d hd => List.mem_takeWhile_imp hd, ha⟩, ?_,
    hs.symm⟩
  · rw [leadingWord, List.takeWhile_cons_of_pos hc]
    exact List.cons_ne_nil _ _
  · rw [written, ← heq, Text.trimStart, hsplit, leadingWord_append_afterWord]

end FlowchartSlides.Flowchart

namespace FlowchartSlides.IconMap

open Flowchart

/-- The merger finds a definition of an id exactly where one is written. -/
theorem definition?_eq_some_iff {id cs lead a r : List Char} (hid : IsWord id) :
    definition? id cs = some (lead, a, r) ↔
      ∃ b, Defines id b a ∧ lead = id ++ b ∧ cs = written id b a r := by
  constructor
  · intro h
    obtain ⟨rest, hd, h⟩ := Option.bind_eq_some_iff.mp h
    obtain ⟨⟨a', r'⟩, hg, h⟩ := Option.map_eq_some_iff.mp h
    obtain ⟨rfl, rfl, rfl⟩ := by simpa using h
    obtain ⟨ha, heq⟩ := group?_eq_some_iff.mp hg
    have hsplit := List.takeWhile_append_dropWhile (p := Text.isBlank) (l := rest)
    refine ⟨rest.takeWhile Text.isBlank, ⟨hid, fun d hd => List.mem_takeWhile_imp hd, ha⟩, rfl, ?_⟩
    rw [written, ← heq, Text.trimStart, hsplit]
    exact Text.eq_append_of_dropLead? hd
  · rintro ⟨b, hdef, rfl, rfl⟩
    simp only [definition?, written, Text.dropLead?_append, Option.bind_some,
      trimStart_blanks hdef.blanks isBlank_open, group?_written hdef.content, Option.map_some,
      takeWhile_append_stop hdef.blanks isBlank_open]

end FlowchartSlides.IconMap
