import FlowchartSlides.Text.Blank
import Mathlib.Data.List.TakeWhile

/-!
# What trimming leaves

A text is trimmed when no blank stands at either end. Every text is its trimmed
text between blanks, and a trimmed text between blanks is all that trimming it
leaves; the laws of trimming follow from these two facts.
-/
namespace FlowchartSlides.Text

structure IsTrimmed (cs : List Char) : Prop where
  head : ∀ c ∈ cs.head?, isBlank c = false
  last : ∀ c ∈ cs.getLast?, isBlank c = false

def Blanks (b : List Char) : Prop := ∀ c ∈ b, isBlank c = true

variable {cs b lead trail : List Char}

theorem blanks_singleton {c : Char} (hc : isBlank c = true) : Blanks [c] := by
  intro d hd
  rwa [List.mem_singleton.mp hd]

theorem blanks_space : Blanks [' '] := blanks_singleton isBlank_space

theorem Blanks.trimStart_append (hb : Blanks b) (cs : List Char) :
    trimStart (b ++ cs) = trimStart cs :=
  List.dropWhile_append_of_pos hb

theorem Blanks.trimEnd_append (hb : Blanks b) (cs : List Char) :
    trimEnd (cs ++ b) = trimEnd cs := by
  have hrev : Blanks b.reverse := fun c hc => hb c (List.mem_reverse.mp hc)
  rw [trimEnd, List.reverse_append]
  exact congrArg List.reverse (hrev.trimStart_append cs.reverse)

theorem trimStart_eq_self (h : ∀ c ∈ cs.head?, isBlank c = false) : trimStart cs = cs := by
  cases cs with
  | nil => rfl
  | cons c cs => exact List.dropWhile_cons_of_neg (by simp [h c rfl])

theorem trimEnd_eq_self (h : ∀ c ∈ cs.getLast?, isBlank c = false) : trimEnd cs = cs := by
  have hrev : trimStart cs.reverse = cs.reverse := by
    apply trimStart_eq_self
    rwa [List.head?_reverse]
  rw [trimEnd, ← trimStart, hrev, List.reverse_reverse]

theorem isTrimmed_of_forall (h : ∀ c ∈ cs, isBlank c = false) : IsTrimmed cs :=
  ⟨fun c hc => h c (List.mem_of_mem_head? hc), fun c hc => h c (List.mem_of_mem_getLast? hc)⟩

theorem IsTrimmed.trim_eq (h : IsTrimmed cs) : trim cs = cs := by
  rw [trim, trimStart_eq_self h.head, trimEnd_eq_self h.last]

/-- Blanks around a trimmed text are all that trimming takes off. -/
theorem IsTrimmed.trim_pad (h : IsTrimmed cs) (hlead : Blanks lead) (htrail : Blanks trail) :
    trim (lead ++ (cs ++ trail)) = cs := by
  rw [trim, hlead.trimStart_append]
  cases cs with
  | nil =>
    have hnil : trimStart trail = [] := List.dropWhile_eq_nil_iff.mpr htrail
    rw [List.nil_append, hnil]
    rfl
  | cons c cs =>
    have hstart : trimStart (c :: cs ++ trail) = c :: cs ++ trail := trimStart_eq_self h.head
    rw [hstart, htrail.trimEnd_append, trimEnd_eq_self h.last]

theorem blanks_takeWhile (cs : List Char) : Blanks (cs.takeWhile isBlank) :=
  fun _ hc => List.mem_takeWhile_imp hc

theorem exists_trimStart (cs : List Char) : ∃ lead, Blanks lead ∧ cs = lead ++ trimStart cs :=
  ⟨cs.takeWhile isBlank, blanks_takeWhile cs, List.takeWhile_append_dropWhile.symm⟩

theorem exists_trimEnd (cs : List Char) : ∃ trail, Blanks trail ∧ cs = trimEnd cs ++ trail := by
  obtain ⟨lead, hlead, heq⟩ := exists_trimStart cs.reverse
  refine ⟨lead.reverse, fun c hc => hlead c (List.mem_reverse.mp hc), ?_⟩
  rw [trimEnd, ← trimStart, ← List.reverse_append, ← heq, List.reverse_reverse]

theorem head?_trimStart (cs : List Char) : ∀ c ∈ (trimStart cs).head?, isBlank c = false := by
  intro c hc
  have hnot := List.head?_dropWhile_not isBlank cs
  rw [← trimStart, Option.mem_def.mp hc] at hnot
  exact hnot

theorem getLast?_trimEnd (cs : List Char) : ∀ c ∈ (trimEnd cs).getLast?, isBlank c = false := by
  rw [trimEnd, List.getLast?_reverse]
  exact head?_trimStart cs.reverse

theorem isTrimmed_trim (cs : List Char) : IsTrimmed (trim cs) := by
  refine ⟨?_, getLast?_trimEnd _⟩
  intro c hc
  obtain ⟨trail, -, heq⟩ := exists_trimEnd (trimStart cs)
  apply head?_trimStart cs
  rw [heq, List.head?_append, ← trim, Option.mem_def.mp hc]
  rfl

/-- Every text is its trimmed text between blanks. -/
theorem exists_pad (cs : List Char) :
    ∃ lead trail, Blanks lead ∧ Blanks trail ∧ cs = lead ++ (trim cs ++ trail) := by
  obtain ⟨lead, hlead, hstart⟩ := exists_trimStart cs
  obtain ⟨trail, htrail, hend⟩ := exists_trimEnd (trimStart cs)
  exact ⟨lead, trail, hlead, htrail, by rw [trim, ← hend, ← hstart]⟩

@[simp] theorem trim_trim (cs : List Char) : trim (trim cs) = trim cs :=
  (isTrimmed_trim cs).trim_eq

theorem Blanks.append (hlead : Blanks lead) (htrail : Blanks trail) : Blanks (lead ++ trail) := by
  intro c hc
  exact (List.mem_append.mp hc).elim (hlead c) (htrail c)

/-- Blanks behind a text do not matter. -/
theorem Blanks.trim_append (hb : Blanks b) (cs : List Char) : trim (cs ++ b) = trim cs := by
  obtain ⟨lead, trail, hlead, htrail, heq⟩ := exists_pad cs
  have happ : cs ++ b = lead ++ (trim cs ++ (trail ++ b)) := by
    rw [← List.append_assoc (trim cs), ← List.append_assoc lead, ← heq]
  rw [happ, (isTrimmed_trim cs).trim_pad hlead (htrail.append hb)]

theorem Blanks.trim_eq_nil (hb : Blanks b) : trim b = [] := by
  have h := hb.trim_append []
  rwa [List.nil_append] at h

theorem mem_dropWhile {p : Char → Bool} {c : Char} (hmem : c ∈ cs) (hc : p c = false) :
    c ∈ cs.dropWhile p := by
  rw [← List.takeWhile_append_dropWhile (p := p) (l := cs)] at hmem
  rcases List.mem_append.mp hmem with hmem | hmem
  · exact absurd (List.mem_takeWhile_imp hmem) (by simp [hc])
  · exact hmem

theorem mem_trim {c : Char} (hmem : c ∈ cs) (hc : isBlank c = false) : c ∈ trim cs := by
  have hstart : c ∈ trimStart cs := mem_dropWhile hmem hc
  have hend := mem_dropWhile (List.mem_reverse.mpr hstart) hc
  exact List.mem_reverse.mpr hend

theorem mem_of_mem_trim {c : Char} (h : c ∈ trim cs) : c ∈ cs := by
  obtain ⟨lead, trail, -, -, heq⟩ := exists_pad cs
  rw [heq]
  exact List.mem_append_right _ (List.mem_append_left _ h)

theorem blanks_of_trim_eq_nil (h : trim cs = []) : Blanks cs := by
  obtain ⟨lead, trail, hlead, htrail, heq⟩ := exists_pad cs
  rw [h, List.nil_append] at heq
  rw [heq]
  exact hlead.append htrail

theorem allBlank_eq_isEmpty_trim (cs : List Char) : allBlank cs = (trim cs).isEmpty := by
  rw [Bool.eq_iff_iff, allBlank, List.all_eq_true, List.isEmpty_iff]
  exact ⟨Blanks.trim_eq_nil, blanks_of_trim_eq_nil⟩

end FlowchartSlides.Text
