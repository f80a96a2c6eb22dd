import FlowchartSlides.Proofs.Decoration
import FlowchartSlides.Proofs.Leftmost
import FlowchartSlides.Proofs.LineEnds
import FlowchartSlides.Proofs.Trimming

/-!
# Decorated texts line by line

The merger reads a whole text and lets a definition run over line ends; readers
of flowcharts take one line at a time. Where no definition of a mapped id runs
over a line end, the lines of the decorated text are the decorated lines, and
trimming a decorated line is decorating the trimmed one.
-/
namespace FlowchartSlides.IconMap

open Flowchart

variable {icon? : List Char → Option (List Char)} {s x rest : List Char}

/-- Every definition of an id with an icon stands within one line. -/
def OneLine (icon? : List Char → Option (List Char)) (cs : List Char) : Prop :=
  ∀ p w b a r, cs = p ++ written w b a r → Defines w b a → icon? w ≠ none → '\n' ∉ b ∧ '\n' ∉ a

/-- Every definition of an id with an icon that starts in the first text ends
there when the second one follows. -/
def Closed (icon? : List Char → Option (List Char)) (s x : List Char) : Prop :=
  ∀ p s' w b a r, s = p ++ s' → s' ≠ [] → Defines w b a → icon? w ≠ none →
    s' ++ x = written w b a r → ∃ r', s' = written w b a r'

theorem OneLine.of_append {p cs : List Char} (h : OneLine icon? (p ++ cs)) : OneLine icon? cs := by
  intro q w b a r hcs
  exact h (p ++ q) w b a r (by rw [hcs, List.append_assoc])

theorem Closed.of_append {p : List Char} (h : Closed icon? (p ++ s) x) : Closed icon? s x := by
  intro q s' w b a r hs
  exact h (p ++ q) s' w b a r (by rw [hs, List.append_assoc])

theorem written_append (w b a r x : List Char) : written w b a r ++ x = written w b a (r ++ x) := by
  simp [written]

theorem written_nil_append (w b a r : List Char) : written w b a [] ++ r = written w b a r :=
  written_append w b a [] r

/-- A definition at the start of two texts in a row stands in the first one, or
its closing bracket stands in the second one. -/
theorem written_eq_append {w b a r : List Char} (h : s ++ x = written w b a r) :
    (∃ r', s = written w b a r') ∨
      ∃ y, x = y ++ ']' :: r ∧ w ++ (b ++ '[' :: a) = s ++ y := by
  have hsplit : s ++ x = (w ++ (b ++ '[' :: a)) ++ (']' :: r) := by rw [h]; simp [written]
  rcases List.append_eq_append_iff.mp hsplit with ⟨y, hhead, htail⟩ | ⟨z, hhead, htail⟩
  · exact Or.inr ⟨y, htail, hhead⟩
  · cases z with
    | nil =>
      rw [List.append_nil] at hhead
      exact Or.inr ⟨[], htail.symm, by rw [hhead, List.append_nil]⟩
    | cons c z =>
      obtain ⟨rfl, -⟩ := List.cons.inj htail
      exact Or.inl ⟨z, by rw [hhead]; simp [written]⟩

theorem closed_of_not_mem_close (hx : ']' ∉ x) : Closed icon? s x := by
  intro p s' w b a r _ _ _ _ h
  rcases written_eq_append h with hin | ⟨y, rfl, -⟩
  · exact hin
  · exact absurd (List.mem_append_right y List.mem_cons_self) hx

theorem closed_of_oneLine (h : OneLine icon? (s ++ '\n' :: rest)) :
    Closed icon? s ('\n' :: rest) := by
  intro p s' w b a r hs _ hdef hic heq
  obtain ⟨hb, ha⟩ := h p w b a r (by rw [hs, List.append_assoc, heq]) hdef hic
  rcases written_eq_append heq with hin | ⟨y, hy, hword⟩
  · exact hin
  · cases y with
    | nil => exact absurd (List.cons.inj hy).1 (by decide)
    | cons c y =>
      obtain ⟨rfl, -⟩ := List.cons.inj hy
      have hmem : '\n' ∈ w ++ (b ++ '[' :: a) := by rw [hword]; simp
      have hw : '\n' ∉ w := fun hc => absurd (hdef.word.idChars _ hc) (by decide)
      simp [hw, hb, ha] at hmem

/-- What decorating remembers behind a text: whether the text ends inside a word, and the
id of the definition that it ends with, when that one was decorated. -/
inductive LeftBy : List Char → Bool → List Char → Prop
  | start : LeftBy [] false []
  | char (cs : List Char) (c : Char) : LeftBy (cs ++ [c]) (isIdChar c) []
  | definition {cs w b a : List Char} : Defines w b a → EndsOutside cs →
      LeftBy (cs ++ written w b a []) false w

theorem LeftBy.endsOutside {cs last : List Char} (h : LeftBy cs false last) : EndsOutside cs := by
  generalize hinside : false = inside at h
  cases h with
  | start => exact fun _ hc => absurd hc (by simp)
  | char cs c => exact endsOutside_concat hinside.symm cs
  | definition _ _ => exact endsOutside_written _ _ _ _

/-- Two texts in a row are decorated one after the other when no definition runs over the
seam: decorating goes on with what it remembers. -/
theorem exists_decorateAll_append (hseam : Closed icon? s x) (inside : Bool) (last : List Char) :
    ∃ inside' last', decorateAll icon? inside last (s ++ x) =
        decorateAll icon? inside last s ++ decorateAll icon? inside' last' x ∧
      ∀ before, LeftBy before inside last → LeftBy (before ++ s) inside' last' := by
  induction inside, last, s using decorateAll_induction icon? with
  | nil inside last =>
    refine ⟨inside, last, by rw [decorateAll_nil]; rfl, fun before h => ?_⟩
    rwa [List.append_nil]
  | draw last w b a r icon hdef hne hic ih =>
    have hr : Closed icon? r x := by
      rw [← written_nil_append] at hseam
      exact hseam.of_append
    obtain ⟨inside', last', hout, hleft⟩ := ih hr
    refine ⟨inside', last', ?_, fun before h => ?_⟩
    · rw [written_append, decorateAll_draw hdef hne hic, decorateAll_draw hdef hne hic,
        written_append, hout]
    · rw [← written_nil_append, ← List.append_assoc]
      exact hleft _ (.definition hdef h.endsOutside)
  | keep inside last c s hnone ih =>
    have hkeep : due? icon? inside last (c :: (s ++ x)) = none := by
      rw [due?_eq_none_iff] at hnone ⊢
      intro w b a r hdef heq hin hne
      by_contra hic
      obtain ⟨r', hr'⟩ := hseam [] (c :: s) w b a r rfl (List.cons_ne_nil c s) hdef hic heq
      exact hic (hnone w b a r' hdef hr' hin hne)
    rw [← List.singleton_append] at hseam
    obtain ⟨inside', last', hout, hleft⟩ := ih hseam.of_append
    refine ⟨inside', last', ?_, fun before _ => ?_⟩
    · rw [List.cons_append, decorateAll_keep hkeep, decorateAll_keep hnone, hout, List.cons_append]
    · rw [List.append_cons]
      exact hleft _ (.char before c)

/-- Two texts in a row are decorated apart when no definition runs over the seam
and the second one is decorated alike wherever it stands. -/
theorem decorateAll_append {x' : List Char}
    (hx : ∀ inside last, decorateAll icon? inside last x = x') (hseam : Closed icon? s x)
    (inside : Bool) (last : List Char) :
    decorateAll icon? inside last (s ++ x) = decorateAll icon? inside last s ++ x' := by
  obtain ⟨inside', last', hout, -⟩ := exists_decorateAll_append hseam inside last
  rw [hout, hx]

theorem decorateAll_of_not_mem_close (hx : ']' ∉ x) (inside : Bool) (last : List Char) :
    decorateAll icon? inside last x = x := by
  induction inside, last, x using decorateAll_induction icon? with
  | nil => exact decorateAll_nil _ _
  | draw last w b a r icon hdef hne hic ih => exact absurd (by simp [written]) hx
  | keep inside last c s hnone ih =>
    rw [decorateAll_keep hnone, ih fun hc => hx (List.mem_cons_of_mem c hc)]

theorem decorateAll_append_of_not_mem_close (hx : ']' ∉ x) (inside : Bool) (last : List Char) :
    decorateAll icon? inside last (s ++ x) = decorateAll icon? inside last s ++ x :=
  decorateAll_append (decorateAll_of_not_mem_close hx) (closed_of_not_mem_close hx) inside last

theorem decorateAll_line (h : OneLine icon? (s ++ '\n' :: rest)) :
    decorateAll icon? false [] (s ++ '\n' :: rest) =
      decorateAll icon? false [] s ++ '\n' :: decorateAll icon? false [] rest := by
  refine decorateAll_append (fun inside last => ?_) (closed_of_oneLine h) false []
  have hbreak : isIdChar '\n' = false := by decide
  rw [decorateAll_keep (due?_of_not_isIdChar hbreak _ _ _), hbreak]

/-- Where a character of a decorated text comes from. -/
theorem mem_decorateAll {inside : Bool} {last : List Char} {d : Char}
    (h : d ∈ decorateAll icon? inside last s) :
    d ∈ s ∨ d = ' ' ∨ ∃ w icon, icon? w = some icon ∧ d ∈ icon := by
  induction inside, last, s using decorateAll_induction icon? with
  | nil => rw [decorateAll_nil] at h; exact Or.inl h
  | draw last w b a r icon hdef hne hic ih =>
    rw [decorateAll_draw hdef hne hic] at h
    have hq := Quoting.ofContent_eq a
    have hquote : d ∈ (Quoting.ofContent a).quote → d ∈ a := by
      intro hd
      rw [← hq]
      exact List.mem_append_right _ hd
    have hinner : d ∈ Text.trim (Quoting.ofContent a).inner → d ∈ a := by
      intro hd
      rw [← hq]
      exact List.mem_append_left _ (List.mem_append_right _ (Text.mem_of_mem_trim hd))
    simp only [written, withIcon, List.mem_append, List.mem_cons] at h ⊢
    grind
  | keep inside last c s hnone ih =>
    rw [decorateAll_keep hnone] at h
    rcases List.mem_cons.mp h with rfl | h
    · exact Or.inl List.mem_cons_self
    · exact (ih h).imp_left (List.mem_cons_of_mem c)

section Lines

variable (hline : ∀ w icon, icon? w = some icon → '\n' ∉ icon)
include hline

theorem lineFeed_not_mem_decorateAll (hs : '\n' ∉ s) :
    '\n' ∉ decorateAll icon? false [] s := by
  intro h
  rcases mem_decorateAll h with h | h | ⟨w, icon, hic, h⟩
  · exact hs h
  · exact absurd h (by decide)
  · exact hline w icon hic h

/-- The pieces between line feeds of a decorated text are the decorated pieces. -/
theorem split_decorateAll {cs : List Char} (hone : OneLine icon? cs) :
    Text.split '\n' (decorateAll icon? false [] cs) =
      (Text.split '\n' cs).map (decorateAll icon? false []) := by
  induction cs using Text.lines_induction with
  | last s hs =>
    have hkept := lineFeed_not_mem_decorateAll hline hs
    rw [Text.split_of_not_mem hs, Text.split_of_not_mem hkept]
    rfl
  | feed s rest hs ih =>
    have hrest : OneLine icon? rest := by
      rw [List.append_cons] at hone
      exact hone.of_append
    rw [decorateAll_line hone, Text.split_append (lineFeed_not_mem_decorateAll hline hs),
      Text.split_append hs, List.map_cons, ih hrest]

end Lines

section Brackets

variable (hplain : ∀ w icon, icon? w = some icon → ∀ c ∈ icon, isBracket c = false)
include hplain

/-- No definition ends with a carriage return. -/
theorem dropReturn_decorateAll (p : List Char) :
    Text.dropReturn (decorateAll icon? false [] p) =
      decorateAll icon? false [] (Text.dropReturn p) := by
  by_cases hlast : p.getLast? = some '\r'
  · obtain ⟨q, rfl⟩ := List.getLast?_eq_some_iff.mp hlast
    rw [decorateAll_append_of_not_mem_close (by decide), Text.dropReturn_concat,
      Text.dropReturn_concat]
  · have hdec := (regrouped_decorateAll hplain false [] p).getLast?
    rw [Text.dropReturn_eq_self hlast, Text.dropReturn_eq_self (by rwa [hdec])]

theorem linesOfPieces_decorateAll (ps : List (List Char)) :
    Text.linesOfPieces (ps.map (decorateAll icon? false [])) =
      (Text.linesOfPieces ps).map (decorateAll icon? false []) := by
  induction ps with
  | nil => rfl
  | cons p ps ih =>
    cases ps with
    | nil =>
      have hnil := (regrouped_decorateAll hplain false [] p).eq_nil_iff
      simp only [List.map_cons, List.map_nil, Text.linesOfPieces, List.isEmpty_iff, hnil]
      split <;> rfl
    | cons q ps =>
      simp only [List.map_cons, Text.linesOfPieces] at ih ⊢
      rw [dropReturn_decorateAll hplain, ih]

/-- Trimming and decorating a line may change places. -/
theorem trim_decorateAll (l : List Char) :
    Text.trim (decorateAll icon? false [] l) = decorateAll icon? false [] (Text.trim l) := by
  obtain ⟨lead, trail, hlead, htrail, heq⟩ := Text.exists_pad l
  have hdrop : ∀ {x : List Char}, Text.Blanks x → ']' ∉ x :=
    fun hx hc => absurd (hx _ hc) (by decide)
  have hpass : ∀ (b s : List Char), Text.Blanks b →
      decorateAll icon? false [] (b ++ s) = b ++ decorateAll icon? false [] s := by
    intro b s hb
    induction b with
    | nil => rfl
    | cons c b ih =>
      have hc := not_isIdChar_of_isBlank (hb c List.mem_cons_self)
      rw [List.cons_append, decorateAll_keep (due?_of_not_isIdChar hc _ _ _), hc,
        ih fun d hd => hb d (List.mem_cons_of_mem c hd), List.cons_append]
  have hre := regrouped_decorateAll hplain false [] (Text.trim l)
  have htrim := Text.isTrimmed_trim l
  have hdec : Text.IsTrimmed (decorateAll icon? false [] (Text.trim l)) :=
    ⟨by rw [hre.head?]; exact htrim.head, by rw [hre.getLast?]; exact htrim.last⟩
  conv_lhs => rw [heq]
  rw [hpass _ _ hlead, decorateAll_append_of_not_mem_close (hdrop htrail),
    hdec.trim_pad hlead htrail]

end Brackets

theorem lines_decorateAll (hline : ∀ w icon, icon? w = some icon → '\n' ∉ icon)
    (hplain : ∀ w icon, icon? w = some icon → ∀ c ∈ icon, isBracket c = false)
    {cs : List Char} (hone : OneLine icon? cs) :
    Text.lines (decorateAll icon? false [] cs) =
      (Text.lines cs).map (decorateAll icon? false []) := by
  rw [Text.lines, split_decorateAll hline hone, linesOfPieces_decorateAll hplain, ← Text.lines]

end FlowchartSlides.IconMap
