import FlowchartSlides.Proofs.Contents
import FlowchartSlides.Proofs.Ids

/-!
# Headers and header lines

The direction of a text is that of the leftmost header in its first line that holds
something, wherever in the line it stands. Lines are passed over by their first word
alone. The two tests agree exactly where the header starts the line and a blank, or
nothing, stands behind it; a header further right may stand in a line that is read as
well.
-/
namespace FlowchartSlides

namespace Text

/-- What stands behind the first word. -/
def afterFirstWord (cs : List Char) : List Char := (trimStart cs).dropWhile (!isBlank ·)

/-- The second maximal stretch without blanks; empty when there is none. -/
def secondWord (cs : List Char) : List Char := firstWord (afterFirstWord cs)

/-- A text that goes on with a blank, if it goes on. -/
def StartsBlank (cs : List Char) : Prop := ∀ c ∈ cs.head?, isBlank c = true

theorem firstWord_append_afterFirstWord (cs : List Char) :
    firstWord cs ++ afterFirstWord cs = trimStart cs :=
  List.takeWhile_append_dropWhile

theorem startsBlank_afterFirstWord (cs : List Char) : StartsBlank (afterFirstWord cs) := by
  intro c hc
  have hnot := List.head?_dropWhile_not (!isBlank ·) (trimStart cs)
  rw [← afterFirstWord, Option.mem_def.mp hc] at hnot
  simpa using hnot

variable {w rest : List Char}

/-- A stretch without blanks is the first word up to the next blank. -/
theorem firstWord_of_startsBlank (hne : w ≠ []) (hw : ∀ c ∈ w, isBlank c = false)
    (hrest : StartsBlank rest) :
    firstWord (w ++ rest) = w ∧ afterFirstWord (w ++ rest) = rest := by
  have hword : ∀ c ∈ w, (!isBlank c) = true := fun c hc => by rw [hw c hc]; rfl
  have hstart : trimStart (w ++ rest) = w ++ rest := by
    apply trimStart_eq_self
    cases w with
    | nil => exact absurd rfl hne
    | cons c w =>
      intro d hd
      obtain rfl : c = d := by simpa using hd
      exact hw c List.mem_cons_self
  rw [firstWord, afterFirstWord, hstart]
  cases rest with
  | nil =>
    rw [List.append_nil]
    exact ⟨List.takeWhile_eq_self_iff.mpr hword, List.dropWhile_eq_nil_iff.mpr hword⟩
  | cons c rest =>
    have hc : (!isBlank c) = false := by rw [hrest c rfl]; rfl
    exact ⟨Flowchart.takeWhile_append_stop hword hc rest,
      Flowchart.dropWhile_append_stop hword hc rest⟩

theorem Blanks.firstWord_append {b : List Char} (hb : Blanks b) (cs : List Char) :
    firstWord (b ++ cs) = firstWord cs := by
  rw [firstWord, hb.trimStart_append, ← firstWord]

end Text

namespace Flowchart

theorem ofChars?_eq_some_iff {e : List Char} {d : Direction} :
    Direction.ofChars? e = some d ↔ e.map Char.toUpper = d.token.toList := by
  constructor
  · intro h
    rw [Direction.ofChars?] at h
    split at h
    next heq => rw [heq, ← Option.some.inj h]; rfl
    next heq => rw [heq, ← Option.some.inj h]; rfl
    next heq => rw [heq, ← Option.some.inj h]; rfl
    next heq => rw [heq, ← Option.some.inj h]; rfl
    next => simp at h
  · intro h
    cases d <;> simp [Direction.ofChars?, h, Direction.token]

/-- A line whose first word is the keyword and whose second word is a direction, both in
any case of their letters. -/
structure HeadedBy (d : Direction) (line : List Char) : Prop where
  keyword : isHeaderLine line = true
  token : (Text.secondWord line).map Char.toUpper = d.token.toList

/-- The leftmost header of a line gives `d` and stands between `before` and `after`. -/
structure FirstHeader (d : Direction) (line before after : List Char) : Prop where
  stands : ∃ k b e, IsHeader k b e d ∧ line = before ++ (k ++ (b ++ (e ++ after)))
  least : ∀ before' k b e d' after', IsHeader k b e d' →
    line = before' ++ (k ++ (b ++ (e ++ after'))) → before.length ≤ before'.length

/-- What is found anywhere in a text is found at the leftmost place where the rule fits. -/
theorem exists_of_firstAnywhere? {α : Type} {rule : List Char → Option α} {cs : List Char} {a : α}
    (h : firstAnywhere? rule cs = some a) :
    ∃ before rest, cs = before ++ rest ∧ rule rest = some a ∧
      ∀ before' rest', cs = before' ++ rest' → (rule rest').isSome →
        before.length ≤ before'.length := by
  induction cs with
  | nil => exact ⟨[], [], rfl, h, fun _ _ _ _ => Nat.zero_le _⟩
  | cons c cs ih =>
    rw [firstAnywhere?] at h
    split at h
    next found hfound =>
      obtain rfl := Option.some.inj h
      exact ⟨[], c :: cs, rfl, hfound, fun _ _ _ _ => Nat.zero_le _⟩
    next hnone =>
      obtain ⟨before, rest, rfl, hrest, hleast⟩ := ih h
      refine ⟨c :: before, rest, rfl, hrest, fun before' rest' hcut hfits => ?_⟩
      cases before' with
      | nil =>
        rw [List.nil_append] at hcut
        rw [← hcut, hnone] at hfits
        exact absurd hfits Bool.false_ne_true
      | cons d before' =>
        obtain ⟨-, hcut⟩ := List.cons.inj hcut
        exact Nat.succ_le_succ (hleast before' rest' hcut hfits)

/-- Where a line gives a direction its leftmost header does. -/
theorem exists_firstHeader {line : List Char} {d : Direction} (h : headerDirection? line = some d) :
    ∃ before after, FirstHeader d line before after := by
  obtain ⟨before, rest, hcut, hrest, hleast⟩ := exists_of_firstAnywhere? h
  obtain ⟨k, b, e, hhead, after, hwritten⟩ := headerHere?_eq_some_iff.mp hrest
  refine ⟨before, after, ⟨k, b, e, hhead, ?_⟩, ?_⟩
  · rw [hcut, ← hwritten, List.append_assoc, List.append_assoc]
  · intro before' k' b' e' d' after' hhead' hcut'
    have hfits : headerHere? (k' ++ (b' ++ (e' ++ after'))) = some d' :=
      headerHere?_eq_some_iff.mpr ⟨k', b', e', hhead', after', by simp⟩
    exact hleast before' _ hcut' (by rw [hfits]; rfl)

theorem startsBlank_blanks {b : List Char} (hb : Text.Blanks b) (hne : b ≠ []) (rest : List Char) :
    Text.StartsBlank (b ++ rest) := by
  cases b with
  | nil => exact absurd rfl hne
  | cons c b =>
    intro d hd
    obtain rfl : c = d := by simpa using hd
    exact hb c List.mem_cons_self

theorem ne_nil_of_direction {e : List Char} {d : Direction} (h : Direction.ofChars? e = some d) :
    e ≠ [] := by
  rintro rfl
  exact absurd (length_direction h) (by decide)

/-- The keyword and the direction of a header are words of their own when the header
starts a line and a blank, or nothing, stands behind it. -/
theorem IsHeader.headedBy {k b e after : List Char} {d : Direction} (h : IsHeader k b e d)
    (hafter : Text.StartsBlank after) : HeadedBy d (k ++ (b ++ (e ++ after))) := by
  have hk : k ≠ [] := by
    obtain ⟨c, s, rfl⟩ := h.exists_cons
    exact List.cons_ne_nil c s
  have hfirst := Text.firstWord_of_startsBlank hk
    (fun c hc => not_isBlank_of_mem_keyword h.word hc)
    (startsBlank_blanks h.blanks h.ne_nil (e ++ after))
  have hsecond := Text.firstWord_of_startsBlank (ne_nil_of_direction h.direction)
    (fun c hc => not_isBlank_of_mem_direction h.direction hc) hafter
  refine ⟨?_, ?_⟩
  · rw [isHeaderLine, hfirst.1]
    exact h.word
  · rw [Text.secondWord, hfirst.2, h.blanks.firstWord_append, hsecond.1]
    exact ofChars?_eq_some_iff.mp h.direction

/-- A line of keyword and direction starts with a header; a blank, or nothing, stands
behind it. -/
theorem HeadedBy.exists_header {d : Direction} {line : List Char} (h : HeadedBy d line)
    (hline : ∀ c ∈ line.head?, Text.isBlank c = false) :
    ∃ k b e after, IsHeader k b e d ∧ line = k ++ (b ++ (e ++ after)) ∧
      Text.StartsBlank after := by
  have hword := Text.firstWord_append_afterFirstWord line
  rw [Text.trimStart_eq_self hline] at hword
  have hrest := Text.firstWord_append_afterFirstWord (Text.afterFirstWord line)
  rw [← Text.secondWord] at hrest
  obtain ⟨b, hb, hpad⟩ := Text.exists_trimStart (Text.afterFirstWord line)
  have hdirection := ofChars?_eq_some_iff.mpr h.token
  have hne : b ≠ [] := by
    -- a word right behind the first one would be a part of it
    rintro rfl
    rw [List.nil_append, ← hrest] at hpad
    obtain ⟨c, s, hsecond⟩ := List.exists_cons_of_ne_nil (ne_nil_of_direction hdirection)
    have hblank := Text.startsBlank_afterFirstWord line c (by rw [hpad, hsecond]; rfl)
    rw [not_isBlank_of_mem_direction hdirection (by rw [hsecond]; simp)] at hblank
    exact Bool.false_ne_true hblank
  refine ⟨Text.firstWord line, b, Text.secondWord line, _, ⟨h.keyword, hb, hne, hdirection⟩, ?_,
    Text.startsBlank_afterFirstWord (Text.afterFirstWord line)⟩
  rw [hrest, ← hpad, hword]

theorem FirstHeader.headedBy_iff {d : Direction} {line before after : List Char}
    (h : FirstHeader d line before after) (hline : ∀ c ∈ line.head?, Text.isBlank c = false) :
    HeadedBy d line ↔ before = [] ∧ Text.StartsBlank after := by
  obtain ⟨k, b, e, hhead, hcut⟩ := h.stands
  constructor
  · intro hheaded
    obtain ⟨k', b', e', after', hhead', hcut', hafter⟩ := hheaded.exists_header hline
    obtain rfl : before = [] := List.length_eq_zero_iff.mp
      (Nat.le_zero.mp (h.least [] k' b' e' d after' hhead' hcut'))
    have hsame : k ++ (b ++ (e ++ after)) = k' ++ (b' ++ (e' ++ after')) := hcut.symm.trans hcut'
    have hlength : k.length = k'.length := by
      rw [length_keyword hhead.word, length_keyword hhead'.word]
    have hbehind := congrArg Text.trimStart (List.append_inj_right hsame hlength)
    have hstart : ∀ {e x : List Char}, Direction.ofChars? e = some d →
        Text.trimStart (e ++ x) = e ++ x := by
      intro e x he
      obtain ⟨c, s, rfl⟩ := List.exists_cons_of_ne_nil (ne_nil_of_direction he)
      apply Text.trimStart_eq_self
      intro y hy
      obtain rfl : c = y := by simpa using hy
      exact not_isBlank_of_mem_direction he List.mem_cons_self
    rw [hhead.blanks.trimStart_append, hhead'.blanks.trimStart_append, hstart hhead.direction,
      hstart hhead'.direction] at hbehind
    have hends := List.append_inj_right hbehind
      (by rw [length_direction hhead.direction, length_direction hhead'.direction])
    exact ⟨rfl, hends ▸ hafter⟩
  · rintro ⟨rfl, hafter⟩
    rw [hcut]
    exact hhead.headedBy hafter

/-- What one line of the contents adds to the statements of a text. -/
def lineStatements (line : List Char) : List Statement :=
  if isHeaderLine line then [] else ((classify? line).map (·.2)).toList

theorem statements_eq_flatMap (cs : List Char) :
    statements cs = (Text.contents cs).flatMap lineStatements := by
  rw [statements, bodyLines_eq]
  induction Text.contents cs with
  | nil => rfl
  | cons line ls ih =>
    rw [List.flatMap_cons, ← ih]
    cases hhead : isHeaderLine line with
    | true =>
      rw [lineStatements, if_pos hhead, List.filter_cons_of_neg (by simp [hhead])]
      rfl
    | false =>
      rw [lineStatements, if_neg (by simp [hhead]), List.filter_cons_of_pos (by simp [hhead]),
        List.filterMap_cons]
      cases classify? line <;> rfl

/-- No rule for nodes or edges fits the line. -/
structure Idle (line : List Char) : Prop where
  definition : definition? line = none
  connection : connection? line = none
  plainConnection : plainConnection? line = none

/-- All rules but that of subgraphs mention ids. -/
theorem mentions_eq_nil_iff {line : List Char} {r : Rule} {st : Statement}
    (h : r.apply line = some st) : st.mentions = [] ↔ r = .subgraph := by
  cases r with
  | nodeDefinition =>
    obtain ⟨c, s, hc, -, hdef⟩ := exists_of_firstAtWord? h
    obtain ⟨w, b, a, rest, -, -, rfl⟩ := exists_of_definitionHere? hc hdef
    simp [definedNode, Statement.mentions]
  | connection =>
    obtain ⟨⟨source, l⟩, -, rfl⟩ := Option.map_eq_some_iff.mp h
    simp [Statement.mentions]
  | plainConnection =>
    obtain ⟨⟨source, target⟩, -, rfl⟩ := Option.map_eq_some_iff.mp h
    simp [Statement.mentions]
  | subgraph =>
    obtain ⟨id, -, rfl⟩ := Option.map_eq_some_iff.mp h
    simp [Statement.mentions]

theorem idle_of_classify?_eq_none {line : List Char} (h : classify? line = none) : Idle line := by
  have hnone : ∀ r ∈ Rule.all, r.apply line = none := by
    intro r hr
    have hrule := List.findSome?_eq_none_iff.mp h r hr
    exact Option.map_eq_none_iff.mp hrule
  exact ⟨hnone .nodeDefinition (by decide), hnone .connection (by decide),
    hnone .plainConnection (by decide)⟩

/-- Subgraphs are looked for when no other rule fits. -/
theorem idle_iff_of_classify? {line : List Char} {r : Rule} {st : Statement}
    (h : classify? line = some (r, st)) : Idle line ↔ r = .subgraph := by
  constructor
  · rintro ⟨hdef, hconnection, hplain⟩
    have happly := apply_of_classify? h
    cases r with
    | nodeDefinition => exact absurd happly (by simp [Rule.apply, hdef])
    | connection => exact absurd happly (by simp [Rule.apply, hconnection])
    | plainConnection => exact absurd happly (by simp [Rule.apply, hplain])
    | subgraph => rfl
  · rintro rfl
    simp only [classify?, Rule.all, List.findSome?_cons, Rule.apply] at h
    cases hdef : definition? line with
    | some st' => simp [hdef] at h
    | none =>
      cases hconnection : connection? line with
      | some st' => simp [hdef, hconnection] at h
      | none =>
        cases hplain : plainConnection? line with
        | some st' => simp [hdef, hconnection, hplain] at h
        | none => exact ⟨hdef, hconnection, hplain⟩

/-- A line mentions no id when it is a header line or idle. -/
theorem mentioned_lineStatements_eq_nil_iff {line : List Char} :
    mentioned (lineStatements line) = [] ↔ isHeaderLine line = true ∨ Idle line := by
  cases hhead : isHeaderLine line with
  | true => simp [lineStatements, hhead, mentioned]
  | false =>
    cases hclass : classify? line with
    | none => simp [lineStatements, hhead, hclass, mentioned, idle_of_classify?_eq_none hclass]
    | some found =>
      obtain ⟨r, st⟩ := found
      have hmentions := mentions_eq_nil_iff (apply_of_classify? hclass)
      simp [lineStatements, hhead, hclass, mentioned, hmentions, idle_iff_of_classify? hclass]

/-- A text has a direction when its first line that holds something holds a header. That
line has the keyword and the direction as its first two words exactly when its leftmost
header starts the line and ends with a word. It mentions no id exactly when its first
word is the keyword or no rule for nodes or edges fits it. -/
theorem direction_headed_iff {text : String} {d : Direction}
    (h : (ofText text).direction = some d) :
    ∃ line rest before after, Text.contents text.toList = line :: rest ∧
      FirstHeader d line before after ∧
      (HeadedBy d line ↔ before = [] ∧ Text.StartsBlank after) ∧
      statements text.toList = lineStatements line ++ rest.flatMap lineStatements ∧
      (mentioned (lineStatements line) = [] ↔ isHeaderLine line = true ∨ Idle line) := by
  rw [ofText_eq_ofContents] at h
  obtain ⟨line, hfirst, hline⟩ := Option.bind_eq_some_iff.mp h
  obtain ⟨rest, hcontents⟩ := List.head?_eq_some_iff.mp hfirst
  obtain ⟨before, after, hheader⟩ := exists_firstHeader hline
  have htrimmed : ∀ c ∈ line.head?, Text.isBlank c = false := by
    obtain ⟨raw, -, rfl⟩ := List.mem_map.mp (List.mem_filter.mp (List.mem_of_head? hfirst)).1
    exact (Text.isTrimmed_trim raw).head
  refine ⟨line, rest, before, after, hcontents, hheader, hheader.headedBy_iff htrimmed, ?_,
    mentioned_lineStatements_eq_nil_iff⟩
  rw [statements_eq_flatMap, hcontents, List.flatMap_cons]

/-- Keyword and direction in any case, with blanks before and behind them. -/
theorem direction_headed_capitals :
    (ofText "\n FLOWCHART \trl \nA --> B").direction = some .rightLeft ∧
      ∃ after, FirstHeader .rightLeft "FLOWCHART \trl".toList [] after ∧
        Text.StartsBlank after := by
  have hdirection : (ofText "\n FLOWCHART \trl \nA --> B").direction = some .rightLeft := by decide
  obtain ⟨line, rest, before, after, hcontents, hheader, hheaded, -, -⟩ :=
    direction_headed_iff hdirection
  have hlines : Text.contents "\n FLOWCHART \trl \nA --> B".toList =
      ["FLOWCHART \trl".toList, "A --> B".toList] := by decide
  rw [hlines] at hcontents
  obtain ⟨rfl, -⟩ := List.cons.inj hcontents
  have hwords : HeadedBy .rightLeft "FLOWCHART \trl".toList := ⟨by decide, by decide⟩
  obtain ⟨rfl, hafter⟩ := hheaded.mp hwords
  exact ⟨hdirection, after, hheader, hafter⟩

/-- The first line gives a direction from inside a label, and the node with that label. -/
theorem direction_from_label :
    (ofText "A[flowchart LR]").direction = some .leftRight ∧
      Text.contents "A[flowchart LR]".toList = ["A[flowchart LR]".toList] ∧
      ¬HeadedBy .leftRight "A[flowchart LR]".toList ∧
      (ofText "A[flowchart LR]").labelOf? "A" = some "flowchart LR" := by
  refine ⟨by decide, by decide, ?_, by decide⟩
  intro hheaded
  have hkeyword := hheaded.keyword
  revert hkeyword
  decide

end Flowchart

end FlowchartSlides
