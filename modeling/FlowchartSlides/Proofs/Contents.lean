import FlowchartSlides.Proofs.Described
import FlowchartSlides.Proofs.Headers
import FlowchartSlides.Proofs.LineEnds
import FlowchartSlides.Proofs.Trimming

/-!
# The lines that hold something

Of a text the reader sees the lines that hold something, without the blanks at
their ends: `ofText_eq_ofContents` says so. The direction is looked for in an
untrimmed line, but no header begins or ends with a blank. What blanks do to the
lines of a text is told here once: at the ends of a text and around its line
feeds they do nothing, and a line feed between two texts keeps the lines of both.
-/
namespace FlowchartSlides

namespace Text

variable {s b b' : List Char}

/-- The lines that hold something, trimmed. -/
def contents (cs : List Char) : List (List Char) := ((lines cs).map trim).filter (!·.isEmpty)

/-- The text with a carriage return before each line feed. -/
def withReturns (cs : List Char) : List Char :=
  cs.flatMap fun c => if c = '\n' then ['\r', '\n'] else [c]

theorem blanks_return : Blanks ['\r'] := blanks_singleton (by decide)

theorem trim_dropReturn (cs : List Char) : trim (dropReturn cs) = trim cs := by
  by_cases h : cs.getLast? = some '\r'
  · obtain ⟨s, rfl⟩ := List.getLast?_eq_some_iff.mp h
    rw [dropReturn_concat, blanks_return.trim_append]
  · rw [dropReturn_eq_self h]

theorem contents_nil : contents [] = [] := rfl

theorem contents_of_not_mem (hs : '\n' ∉ s) : contents s = [trim s].filter (!·.isEmpty) := by
  rw [contents, lines_of_not_mem hs]
  cases s <;> rfl

theorem contents_line_append (hs : '\n' ∉ s) (rest : List Char) :
    contents (s ++ '\n' :: rest) = contents s ++ contents rest := by
  rw [contents, lines_append hs, List.map_cons, trim_dropReturn, ← List.singleton_append,
    List.filter_append, ← contents_of_not_mem hs, ← contents]

/-- A line feed between two texts keeps the contents of both. -/
theorem contents_append (x y : List Char) : contents (x ++ '\n' :: y) = contents x ++ contents y := by
  induction x using lines_induction with
  | last s hs => exact contents_line_append hs y
  | feed s x hs ih =>
    rw [List.append_assoc, List.cons_append, contents_line_append hs, ih, contents_line_append hs,
      List.append_assoc]

theorem contents_cons_blank {c : Char} (hc : isBlank c = true) (cs : List Char) :
    contents (c :: cs) = contents cs := by
  by_cases hfeed : c = '\n'
  · subst hfeed
    exact contents_append [] cs
  · have hline : ∀ s, '\n' ∉ s → contents (c :: s) = contents s := by
      intro s hs
      have hcs : '\n' ∉ c :: s := by simp [hs, Ne.symm hfeed]
      have htrim : trim (c :: s) = trim s := by
        rw [trim, trimStart, List.dropWhile_cons_of_pos hc]
        rfl
      rw [contents_of_not_mem hcs, contents_of_not_mem hs, htrim]
    induction cs using lines_induction with
    | last s hs => exact hline s hs
    | feed s rest hs ih => rw [← List.cons_append, contents_append, hline s hs, ← contents_append]

theorem contents_concat_blank {c : Char} (hc : isBlank c = true) (cs : List Char) :
    contents (cs ++ [c]) = contents cs := by
  by_cases hfeed : c = '\n'
  · subst hfeed
    rw [contents_append, contents_nil, List.append_nil]
  · induction cs using lines_induction with
    | last s hs =>
      have hsc : '\n' ∉ s ++ [c] := by simp [hs, Ne.symm hfeed]
      rw [contents_of_not_mem hsc, contents_of_not_mem hs, (blanks_singleton hc).trim_append]
    | feed s rest hs ih =>
      rw [List.append_assoc, List.cons_append, contents_append, ih, ← contents_append]

/-- Blanks before a text, line feeds among them, do not matter. -/
theorem Blanks.contents_append (hb : Blanks b) (cs : List Char) :
    contents (b ++ cs) = contents cs := by
  induction b with
  | nil => rfl
  | cons c b ih =>
    have hrest : Blanks b := fun d hd => hb d (List.mem_cons_of_mem c hd)
    rw [List.cons_append, contents_cons_blank (hb c List.mem_cons_self), ih hrest]

/-- Blanks behind a text do not matter either. -/
theorem Blanks.contents_concat (hb : Blanks b) (cs : List Char) :
    contents (cs ++ b) = contents cs := by
  induction b generalizing cs with
  | nil => rw [List.append_nil]
  | cons c b ih =>
    have hrest : Blanks b := fun d hd => hb d (List.mem_cons_of_mem c hd)
    rw [← List.singleton_append, ← List.append_assoc, ih hrest,
      contents_concat_blank (hb c List.mem_cons_self)]

/-- Blanks around a line feed do not matter. -/
theorem contents_padded_feed (hb : Blanks b) (hb' : Blanks b') (x y : List Char) :
    contents (x ++ (b ++ ['\n'] ++ b') ++ y) = contents (x ++ ['\n'] ++ y) := by
  have happ : x ++ (b ++ ['\n'] ++ b') ++ y = (x ++ b) ++ '\n' :: (b' ++ y) := by simp
  rw [happ, contents_append, hb.contents_concat, hb'.contents_append, ← contents_append,
    List.append_assoc, List.singleton_append]

theorem contents_withReturns (cs : List Char) : contents (withReturns cs) = contents cs := by
  have hline : ∀ s, '\n' ∉ s → withReturns s = s := by
    intro s hs
    induction s with
    | nil => rfl
    | cons c s ih =>
      rw [List.mem_cons, not_or] at hs
      rw [withReturns, List.flatMap_cons, if_neg (Ne.symm hs.1), ← withReturns, ih hs.2]
      rfl
  induction cs using lines_induction with
  | last s hs => rw [hline s hs]
  | feed s rest hs ih =>
    have hreturns : withReturns (s ++ '\n' :: rest) = (s ++ ['\r']) ++ '\n' :: withReturns rest := by
      conv_rhs => rw [← hline s hs]
      simp [withReturns]
    rw [hreturns, contents_append, blanks_return.contents_concat, ih, ← contents_append]

theorem contents_unlines {ls : List (List Char)} (h : ∀ l ∈ ls, '\n' ∉ l) :
    contents (unlines ls) = (ls.map trim).filter (!·.isEmpty) := by
  induction ls with
  | nil => rfl
  | cons l ls ih =>
    have hl := h l List.mem_cons_self
    cases ls with
    | nil =>
      have hsingle : unlines [l] = l := List.intercalate_singleton
      rw [hsingle, contents_of_not_mem hl]
      rfl
    | cons l' ls =>
      rw [unlines_cons_cons, contents_append, contents_of_not_mem hl,
        ih fun x hx => h x (List.mem_cons_of_mem l hx), ← List.filter_append]
      rfl

/-- Joining the lines of a text with line feeds keeps its contents. -/
theorem contents_unlines_lines (cs : List Char) : contents (unlines (lines cs)) = contents cs :=
  contents_unlines fun _ => lineFeed_not_mem_of_mem_lines

/-- What a line says when it is trimmed can be asked of the contents. -/
theorem forall_lines_iff_contents {P : List Char → Prop} (hnil : P []) {cs : List Char} :
    (∀ l ∈ lines cs, P (trim l)) ↔ ∀ l ∈ contents cs, P l := by
  constructor
  · intro h l hl
    obtain ⟨raw, hraw, rfl⟩ := List.mem_map.mp (List.mem_filter.mp hl).1
    exact h raw hraw
  · intro h l hl
    by_cases hempty : trim l = []
    · rwa [hempty]
    · refine h (trim l) (List.mem_filter.mpr ⟨List.mem_map_of_mem hl, ?_⟩)
      rw [Bool.not_eq_true', List.isEmpty_eq_false_iff]
      exact hempty

/-- How lines end: with a line feed, or with a carriage return before it. -/
inductive LineEnd where
  | feed
  | returnFeed
deriving Repr, DecidableEq

namespace LineEnd

def chars : LineEnd → List Char
  | feed => ['\n']
  | returnFeed => ['\r', '\n']

/-- Lines, each with its end. -/
def ended (e : LineEnd) (ls : List (List Char)) : List Char := ls.flatMap (· ++ e.chars)

theorem blanks_chars (e : LineEnd) : Blanks e.chars := by
  have hfeed : Blanks ['\n'] := blanks_singleton isBlank_lineFeed
  cases e with
  | feed => exact hfeed
  | returnFeed => exact blanks_return.append hfeed

/-- A line with its end is read as one line, up to a carriage return. -/
theorem exists_lines_eq (e : LineEnd) {l : List Char} (hl : '\n' ∉ l) (rest : List Char) :
    ∃ l', lines (l ++ (e.chars ++ rest)) = l' :: lines rest ∧ trim l' = trim l := by
  cases e with
  | feed => exact ⟨dropReturn l, lines_append hl rest, trim_dropReturn l⟩
  | returnFeed =>
    have hreturn : '\n' ∉ l ++ ['\r'] := by simp [hl]
    have happ : l ++ (returnFeed.chars ++ rest) = (l ++ ['\r']) ++ '\n' :: rest := by simp [chars]
    refine ⟨l, ?_, rfl⟩
    rw [happ, lines_append hreturn, dropReturn_concat]

end LineEnd

end Text

namespace Flowchart

theorem bodyLines_eq (cs : List Char) :
    bodyLines cs = (Text.contents cs).filter (!isHeaderLine ·) := by
  rw [Text.contents, List.filter_filter, bodyLines]
  simp only [Bool.and_comm]

/-- The direction stands in the first line that holds something. -/
theorem direction?_eq (cs : List Char) :
    direction? cs = (Text.contents cs).head?.bind headerDirection? := by
  have hfirst : (Text.contents cs).head? = (firstLine? cs).map Text.trim := by
    have hblank : (fun line => !List.isEmpty line) ∘ Text.trim = (!Text.allBlank ·) := by
      funext line
      rw [Function.comp_apply, Text.allBlank_eq_isEmpty_trim]
    rw [Text.contents, List.head?_filter, List.find?_map, hblank, firstLine?]
  rw [hfirst, direction?, Option.bind_map]
  congr 1
  funext line
  exact (headerDirection?_trim line).symm

/-- The flowchart that trimmed lines describe, the header among them. -/
def ofContents (ls : List (List Char)) : Flowchart :=
  described (ls.head?.bind headerDirection?)
    ((ls.filter (!isHeaderLine ·)).filterMap fun line => (classify? line).map (·.2))

/-- Reading a text looks at its contents alone. -/
theorem ofText_eq_ofContents (text : String) :
    ofText text = ofContents (Text.contents text.toList) := by
  rw [ofText_eq_described, direction?_eq, statements, bodyLines_eq, ofContents]

/-- Texts with the same contents are read as the same flowchart. So blanks at the ends
of a text and around its line feeds do not matter, blank lines and carriage returns
among them. -/
theorem ofText_of_contents :
    (∀ s t : String, Text.contents s.toList = Text.contents t.toList → ofText s = ofText t) ∧
    (∀ lead s trail : String, Text.Blanks lead.toList → Text.Blanks trail.toList →
      ofText (lead ++ s ++ trail) = ofText s) ∧
    (∀ s trail lead t : String, Text.Blanks trail.toList → Text.Blanks lead.toList →
      ofText (s ++ (trail ++ "\n" ++ lead) ++ t) = ofText (s ++ "\n" ++ t)) ∧
    ∀ s : String, ofText (String.ofList (Text.withReturns s.toList)) = ofText s := by
  have hcontents : ∀ s t : String, Text.contents s.toList = Text.contents t.toList →
      ofText s = ofText t := by
    intro s t h
    rw [ofText_eq_ofContents, h, ← ofText_eq_ofContents]
  refine ⟨hcontents, ?_, ?_, ?_⟩
  · intro lead s trail hlead htrail
    apply hcontents
    rw [String.toList_append, String.toList_append, htrail.contents_concat, hlead.contents_append]
  · intro s trail lead t htrail hlead
    have hfeed : "\n".toList = ['\n'] := rfl
    apply hcontents
    simp only [String.toList_append, hfeed]
    exact Text.contents_padded_feed htrail hlead s.toList t.toList
  · intro s
    apply hcontents
    rw [String.toList_ofList, Text.contents_withReturns]

/-- Indented and with carriage returns, between blank lines. -/
theorem ofText_of_contents_indented :
    let s := "flowchart LR\nA -- yes --> B"
    let t := "\u3000\r\n\tflowchart LR \r\n\r\n  A -- yes --> B\u0085\n"
    Text.contents s.toList = Text.contents t.toList ∧ ofText s = ofText t :=
  ⟨by decide, ofText_of_contents.1 _ _ (by decide)⟩

end Flowchart

end FlowchartSlides
