import FlowchartSlides.Proofs.Arrows
import FlowchartSlides.Proofs.DecoratedStatements
import FlowchartSlides.Proofs.Ids
import FlowchartSlides.Proofs.LineEnds

/-!
# Reading what was written

A flowchart is written as its header and one line for each definition and each
edge. Reading such a text gives the direction, the edges as they were given, and
the nodes in order of first mention with their trimmed last labels. What ids and
labels may hold is asked for item by item; labels may hold quotes, dashes and
everything else that does not end a label.
-/
namespace FlowchartSlides

open Flowchart

/-- Where the label of a written edge stands, if it has one. -/
inductive EdgeLabel where
  | absent
  | bars (text : String)
  | inside (text : String)

/-- A definition or an edge to be written. -/
inductive Item where
  | node (id label : String)
  | edge (source target : String) (style : EdgeStyle) (label : EdgeLabel)

/-- What the text of an edge label may be. -/
structure IsEdgeText (text : List Char) : Prop where
  ne_nil : text ≠ []
  trimmed : Text.trim text = text
  noTip : '>' ∉ text
  noOpen : '[' ∉ text
  noClose : ']' ∉ text
  oneLine : '\n' ∉ text

instance (text : List Char) : Decidable (IsEdgeText text) :=
  decidable_of_iff (text ≠ [] ∧ Text.trim text = text ∧ '>' ∉ text ∧ '[' ∉ text ∧ ']' ∉ text ∧
      '\n' ∉ text)
    ⟨fun ⟨h₁, h₂, h₃, h₄, h₅, h₆⟩ => ⟨h₁, h₂, h₃, h₄, h₅, h₆⟩,
      fun h => ⟨h.ne_nil, h.trimmed, h.noTip, h.noOpen, h.noClose, h.oneLine⟩⟩

namespace EdgeLabel

def text? : EdgeLabel → Option String
  | absent => none
  | bars text => some text
  | inside text => some text

def arrow (style : EdgeStyle) : EdgeLabel → List Char
  | absent => style.token
  | bars text => style.token ++ '|' :: (text.toList ++ ['|'])
  | inside text => style.around text.toList

/-- Between bars no bar may stand. -/
def Clean : EdgeLabel → Prop
  | absent => True
  | bars text => IsEdgeText text.toList ∧ '|' ∉ text.toList
  | inside text => IsEdgeText text.toList

instance : (label : EdgeLabel) → Decidable label.Clean
  | absent => inferInstanceAs (Decidable True)
  | bars text => inferInstanceAs (Decidable (IsEdgeText text.toList ∧ '|' ∉ text.toList))
  | inside text => inferInstanceAs (Decidable (IsEdgeText text.toList))

end EdgeLabel

namespace Item

def line : Item → List Char
  | node id label => id.toList ++ '[' :: '"' :: (label.toList ++ ['"', ']'])
  | edge source target style label =>
    source.toList ++ ' ' :: (label.arrow style ++ ' ' :: target.toList)

/-- What a line is to be read as. -/
def statement : Item → Statement
  | node id label => .node id (Text.trimmed label)
  | edge source target style label => .edge ⟨source, target, label.text?, style, true⟩

/-- A source that is the keyword of headers would make its line a header. -/
def Clean : Item → Prop
  | node id label => IsWord id.toList ∧ label ≠ "" ∧ '[' ∉ label.toList ∧ ']' ∉ label.toList ∧
      '\n' ∉ label.toList
  | edge source target _ label => IsWord source.toList ∧ IsWord target.toList ∧
      Text.sameIgnoringCase source.toList keyword = false ∧ label.Clean

instance : (item : Item) → Decidable item.Clean
  | node id label => inferInstanceAs (Decidable (IsWord id.toList ∧ label ≠ "" ∧
      '[' ∉ label.toList ∧ ']' ∉ label.toList ∧ '\n' ∉ label.toList))
  | edge source target _ label => inferInstanceAs (Decidable (IsWord source.toList ∧
      IsWord target.toList ∧ Text.sameIgnoringCase source.toList keyword = false ∧ label.Clean))

end Item

def headerLine (d : Direction) : List Char := keyword ++ ' ' :: d.token.toList

/-- A header and one line for each item. -/
def rendering (d : Direction) (items : List Item) : String :=
  String.ofList (Text.unlines (headerLine d :: items.map Item.line))

/-- A line that stands by itself in any text and is read as a statement. -/
structure ReadsAs (line : List Char) (st : Statement) : Prop where
  ne_nil : line ≠ []
  trimmed : Text.IsTrimmed line
  oneLine : '\n' ∉ line
  body : isHeaderLine line = false
  statement : (classify? line).map (·.2) = some st

namespace Flowchart

theorem isTrimmed_append {w x : List Char} (hw : IsWord w) (hne : x ≠ [])
    (hx : ∀ c ∈ x.getLast?, Text.isBlank c = false) : Text.IsTrimmed (w ++ x) := by
  obtain ⟨c, s, rfl, hc, -⟩ := hw.exists_cons
  constructor
  · intro d hd
    obtain rfl : c = d := by simpa using hd
    exact not_isBlank_of_isIdChar hc
  · rw [List.getLast?_append, List.getLast?_eq_some_getLast hne]
    rw [List.getLast?_eq_some_getLast hne] at hx
    exact hx

theorem firstWord_append {w x : List Char} (hw : IsWord w) :
    Text.firstWord (w ++ x) = w ++ x.takeWhile (!Text.isBlank ·) := by
  have hall : ∀ c ∈ w, (!Text.isBlank c) = true := by
    intro c hc
    rw [not_isBlank_of_isIdChar (hw.idChars c hc)]
    rfl
  rw [Text.firstWord, hw.trimStart_append, List.takeWhile_append_of_pos hall]

/-- Without an opening bracket there is no definition. -/
theorem definition?_eq_none {line : List Char} (h : '[' ∉ line) : definition? line = none := by
  cases hdef : definition? line with
  | none => rfl
  | some st =>
    obtain ⟨c, s, hc, hsuf, hhere⟩ := exists_of_firstAtWord? hdef
    obtain ⟨w, b, a, r, -, heq, -⟩ := exists_of_definitionHere? hc hhere
    have hmem : '[' ∈ c :: s := by rw [heq]; simp [written]
    exact absurd (hsuf.subset hmem) h

theorem classify?_of_connection? {line : List Char} {st : Statement}
    (hdef : definition? line = none) (h : connection? line = some st) :
    classify? line = some (.connection, st) := by
  simp [classify?, Rule.all, Rule.apply, hdef, h]

/-- The source is the whole word when the rule answers behind it and no longer source is
found. -/
theorem sourced?_append {α : Type} {rule : List Char → Option α} {a : α} {w rest : List Char}
    (hw : IsWord w) (hlonger : sourced? rule rest = none)
    (h : rule (Text.trimStart rest) = some a) : sourced? rule (w ++ rest) = some (w, a) := by
  obtain ⟨hne, hall⟩ := hw
  induction w with
  | nil => exact absurd rfl hne
  | cons c w ih =>
    have hc : isIdChar c = true := hall c List.mem_cons_self
    cases w with
    | nil =>
      rw [List.singleton_append, sourced?, if_pos hc, hlonger]
      simp only [h, Option.map_some]
    | cons d w =>
      -- the rule answers behind the rest of the word, so no shorter source is tried
      have hrest := ih (List.cons_ne_nil d w) fun e he => hall e (List.mem_cons_of_mem c he)
      rw [List.cons_append, sourced?, if_pos hc, hrest]

theorem firstSourced?_append {α : Type} {rule : List Char → Option α} {a : α} {w rest : List Char}
    (hw : IsWord w) (hlonger : sourced? rule rest = none)
    (h : rule (Text.trimStart rest) = some a) :
    firstAtWord? (sourced? rule) false (w ++ rest) = some (w, a) := by
  have hsource := sourced?_append hw hlonger h
  obtain ⟨c, s, rfl, hc, -⟩ := hw.exists_cons
  rw [List.cons_append] at hsource ⊢
  rw [firstAtWord?_start hc, hsource]
  rfl

theorem connection?_append {w rest : List Char} (hw : IsWord w)
    (hlonger : sourced? link? rest = none) {l : Link}
    (h : link? (Text.trimStart rest) = some l) :
    connection? (w ++ rest) = some (.edge (l.edge w)) := by
  rw [connection?, firstSourced?_append hw hlonger h]
  rfl

end Flowchart

namespace EdgeLabel

variable {label : EdgeLabel}

/-- The arrow of an edge is found with its target, and makes the edge. -/
theorem exists_link (h : label.Clean) (style : EdgeStyle) {target : List Char}
    (ht : IsWord target) :
    ∃ l, link? (label.arrow style ++ ' ' :: target) = some l ∧ ∀ source,
      l.edge source = ⟨String.ofList source, String.ofList target, label.text?, style, true⟩ := by
  have hend := linkEnd?_space ht
  have htip : '>' ∉ ' ' :: target := by
    rw [List.mem_cons, not_or]
    exact ⟨by decide, ht.not_mem (by decide)⟩
  cases label with
  | absent =>
    refine ⟨_, link?_token style hend htip, fun source => ?_⟩
    exact edge_token style source none (by simp) target
  | bars text =>
    obtain ⟨htext, hbar⟩ := h
    have htrim : Text.IsTrimmed text.toList := htext.trimmed ▸ Text.isTrimmed_trim text.toList
    have hform : arrow style (bars text) ++ ' ' :: target =
        style.token ++ '|' :: (text.toList ++ '|' :: ' ' :: target) := by simp [arrow]
    have hrest : '>' ∉ '|' :: (text.toList ++ '|' :: ' ' :: target) := by
      have hword := ht.not_mem (c := '>') (by decide)
      simp [htext.noTip, hword]
    rw [hform]
    refine ⟨_, link?_token style (linkEnd?_bars ht hbar) hrest, fun source => ?_⟩
    have hsome : ∀ t ∈ some text.toList, Text.IsTrimmed t ∧ t ≠ [] := by
      intro t ht
      rw [← Option.some.inj ht]
      exact ⟨htrim, htext.ne_nil⟩
    have hedge := edge_token style source (some text.toList) hsome target
    rwa [Option.map_some, String.ofList_toList] at hedge
  | inside text =>
    have htrim : Text.IsTrimmed text.toList := h.trimmed ▸ Text.isTrimmed_trim text.toList
    refine ⟨_, link?_around style h.noTip h.oneLine hend htip, fun source => ?_⟩
    rw [edge_around style source htrim h.ne_nil target, String.ofList_toList]
    rfl

theorem trimStart_arrow (style : EdgeStyle) (label : EdgeLabel) (rest : List Char) :
    Text.trimStart (' ' :: (label.arrow style ++ rest)) = label.arrow style ++ rest := by
  cases label <;> cases style <;> rfl

theorem not_mem_arrow (style : EdgeStyle) {c : Char} (hc : c ∉ ['-', '=', '.', '>', '|', ' '])
    (htext : ∀ text ∈ label.text?, c ∉ text.toList) : c ∉ label.arrow style := by
  simp only [List.mem_cons, List.not_mem_nil, or_false, not_or] at hc
  obtain ⟨hdash, heq, hdot, htip, hbar, hspace⟩ := hc
  have htoken : c ∉ style.token := by cases style <;> simp [EdgeStyle.token, *]
  have hopening : c ∉ style.opening := by cases style <;> simp [EdgeStyle.opening, *]
  have hclosing : c ∉ style.closing := by cases style <;> simp [EdgeStyle.closing, *]
  cases label with
  | absent => exact htoken
  | bars text => simp [arrow, htoken, hbar, htext text rfl]
  | inside text => simp [arrow, EdgeStyle.around, hopening, hclosing, hspace, htext text rfl]

theorem isEdgeText_of_mem {text : String} (h : label.Clean) (ht : text ∈ label.text?) :
    IsEdgeText text.toList := by
  cases label with
  | absent => simp [text?] at ht
  | bars s =>
    obtain rfl := Option.some.inj ht
    exact h.1
  | inside s =>
    obtain rfl := Option.some.inj ht
    exact h

end EdgeLabel

namespace Item

theorem readsAs_node {id label : String} (h : (node id label).Clean) :
    ReadsAs (node id label).line (node id label).statement := by
  obtain ⟨hid, hne, hopen, hclose, hline⟩ := h
  have hinner : label.toList ≠ [] := fun hnil => hne (String.toList_eq_nil_iff.mp hnil)
  have hcontent : IsContent ('"' :: (label.toList ++ ['"'])) := by
    refine ⟨List.cons_ne_nil _ _, fun c hc => ?_⟩
    rw [isBracket, Bool.or_eq_false_iff, beq_eq_false_iff_ne, beq_eq_false_iff_ne]
    constructor
    · rintro rfl
      simp [hopen] at hc
    · rintro rfl
      simp [hclose] at hc
  have hdef : Defines id.toList [] ('"' :: (label.toList ++ ['"'])) := ⟨hid, by simp, hcontent⟩
  have hform : (node id label).line = written id.toList [] ('"' :: (label.toList ++ ['"'])) [] := by
    simp [line, written]
  have hread : definition? (node id label).line = some (node id label).statement := by
    rw [hform, definition?, hdef.firstAtWord?, definedNode, ofContent_quoted (by decide) hinner,
      String.ofList_toList]
    rfl
  have hend : ('[' :: '"' :: (label.toList ++ ['"', ']'])).getLast? = some ']' := by
    simp [List.getLast?_cons]
  refine ⟨?_, isTrimmed_append hid (List.cons_ne_nil _ _) ?_, ?_, ?_, ?_⟩
  · exact List.append_ne_nil_of_right_ne_nil _ (List.cons_ne_nil _ _)
  · intro c hc
    rw [hend] at hc
    rw [← Option.some.inj hc]
    decide
  · have hword := hid.not_mem (c := '\n') (by decide)
    simp [line, hword, hline]
  · -- the bracket behind the id belongs to the first word
    by_contra hheader
    rw [Bool.not_eq_false] at hheader
    apply open_not_mem_of_keyword hheader
    rw [line, firstWord_append hid, List.takeWhile_cons_of_pos (by decide)]
    exact List.mem_append_right _ List.mem_cons_self
  · rw [classify?_of_definition? hread, Option.map_some]

theorem readsAs_edge {source target : String} {style : EdgeStyle} {label : EdgeLabel}
    (h : (edge source target style label).Clean) :
    ReadsAs (edge source target style label).line (edge source target style label).statement := by
  obtain ⟨hsource, htarget, hkey, hlabel⟩ := h
  obtain ⟨l, hl, hedge⟩ := EdgeLabel.exists_link hlabel style htarget
  have hread : connection? (edge source target style label).line =
      some (edge source target style label).statement := by
    rw [← EdgeLabel.trimStart_arrow] at hl
    rw [line, connection?_append hsource rfl hl, hedge, String.ofList_toList, String.ofList_toList]
    rfl
  have hfree : ∀ c, isIdChar c = false → c ∉ ['-', '=', '.', '>', '|', ' '] →
      (∀ text ∈ label.text?, c ∉ text.toList) → c ∉ (edge source target style label).line := by
    intro c hc hmark htext
    have harrow := EdgeLabel.not_mem_arrow style hmark htext
    simp only [List.mem_cons, List.not_mem_nil, or_false, not_or] at hmark
    simp [line, hsource.not_mem hc, htarget.not_mem hc, harrow, hmark]
  -- without a bracket the first rule does not fit, and the second one answers
  have hopen := hfree '[' (by decide) (by decide) fun _ ht =>
    (EdgeLabel.isEdgeText_of_mem hlabel ht).noOpen
  have hend : (' ' :: (label.arrow style ++ ' ' :: target.toList)).getLast? =
      target.toList.getLast? := by
    obtain ⟨c, s, hform, -⟩ := htarget.exists_cons
    simp [hform, List.getLast?_cons, List.getLast?_append]
  refine ⟨?_, isTrimmed_append hsource (List.cons_ne_nil _ _) ?_, ?_, ?_, ?_⟩
  · exact List.append_ne_nil_of_right_ne_nil _ (List.cons_ne_nil _ _)
  · rw [hend]
    exact htarget.isTrimmed.last
  · exact hfree '\n' (by decide) (by decide) fun _ ht =>
      (EdgeLabel.isEdgeText_of_mem hlabel ht).oneLine
  · have hword : Text.firstWord (edge source target style label).line = source.toList := by
      rw [line, firstWord_append hsource, List.takeWhile_cons_of_neg (by decide), List.append_nil]
    rw [isHeaderLine, hword, hkey]
  · rw [classify?_of_connection? (definition?_eq_none hopen) hread, Option.map_some]

theorem Clean.readsAs {item : Item} (h : item.Clean) : ReadsAs item.line item.statement := by
  cases item with
  | node id label => exact readsAs_node h
  | edge source target style label => exact readsAs_edge h

end Item

namespace Flowchart

variable {d : Direction} {items : List Item}

theorem readsAs_not_return {line : List Char} {st : Statement} (h : ReadsAs line st) :
    line.getLast? ≠ some '\r' := by
  intro hlast
  have hblank := h.trimmed.last _ hlast
  exact absurd hblank (by decide)

theorem lines_rendering (h : ∀ item ∈ items, item.Clean) :
    Text.lines (rendering d items).toList = headerLine d :: items.map Item.line := by
  have hheader : headerLine d ≠ [] ∧ '\n' ∉ headerLine d ∧ (headerLine d).getLast? ≠ some '\r' := by
    cases d <;> decide
  rw [rendering, String.toList_ofList]
  apply Text.lines_unlines
  · intro l hl
    rcases List.mem_cons.mp hl with rfl | hl
    · exact hheader.1
    · obtain ⟨item, hitem, rfl⟩ := List.mem_map.mp hl
      exact (h item hitem).readsAs.ne_nil
  · intro l hl
    rcases List.mem_cons.mp hl with rfl | hl
    · exact hheader.2.1
    · obtain ⟨item, hitem, rfl⟩ := List.mem_map.mp hl
      exact (h item hitem).readsAs.oneLine
  · intro l hl
    rcases List.mem_cons.mp hl with rfl | hl
    · exact hheader.2.2
    · obtain ⟨item, hitem, rfl⟩ := List.mem_map.mp hl
      exact readsAs_not_return (h item hitem).readsAs

theorem direction?_rendering (h : ∀ item ∈ items, item.Clean) :
    direction? (rendering d items).toList = some d := by
  have hblank : (!Text.allBlank (headerLine d)) = true := by cases d <;> decide
  have hread : headerDirection? (headerLine d) = some d := by cases d <;> decide
  have hfirst : firstLine? (rendering d items).toList = some (headerLine d) := by
    rw [firstLine?, lines_rendering h]
    exact List.find?_cons_of_pos hblank
  rw [direction?, hfirst, Option.bind_some, hread]

theorem statements_rendering (h : ∀ item ∈ items, item.Clean) :
    statements (rendering d items).toList = items.map Item.statement := by
  have htrim : Text.trim (headerLine d) = headerLine d := by cases d <;> decide
  have hheader : isHeaderLine (headerLine d) = true := by cases d <;> decide
  have htrims : (items.map Item.line).map Text.trim = items.map Item.line := by
    rw [List.map_map]
    exact List.map_congr_left fun item hitem => (h item hitem).readsAs.trimmed.trim_eq
  have hkept : ∀ l ∈ items.map Item.line, (!l.isEmpty && !isHeaderLine l) = true := by
    intro l hl
    obtain ⟨item, hitem, rfl⟩ := List.mem_map.mp hl
    have hreads := (h item hitem).readsAs
    rw [hreads.body, Bool.not_false, Bool.and_true, Bool.not_eq_true', List.isEmpty_eq_false_iff]
    exact hreads.ne_nil
  have hbody : bodyLines (rendering d items).toList = items.map Item.line := by
    rw [bodyLines, lines_rendering h, List.map_cons, htrim, htrims,
      List.filter_cons_of_neg (by simp [hheader]), List.filter_eq_self.mpr hkept]
  have hread : ∀ item ∈ items, (classify? item.line).map (·.2) = some item.statement :=
    fun item hitem => (h item hitem).readsAs.statement
  rw [statements, hbody, List.filterMap_map, ← List.filterMap_eq_map]
  exact List.filterMap_congr hread

theorem ofText_rendering_eq_described (h : ∀ item ∈ items, item.Clean) :
    ofText (rendering d items) = described (some d) (items.map Item.statement) := by
  rw [ofText_eq_described, direction?_rendering h, statements_rendering h]

/-- Reading undoes writing: the direction, the edges as they were given, and the
nodes in order of first mention, each with its trimmed last label or its id. -/
theorem ofText_rendering (d : Direction) (items : List Item) (h : ∀ item ∈ items, item.Clean) :
    (ofText (rendering d items)).direction = some d ∧
    (ofText (rendering d items)).edges =
      (items.map Item.statement).filterMap Statement.edge? ∧
    (ofText (rendering d items)).nodes.keys =
      (mentioned (items.map Item.statement)).eraseDups ∧
    ∀ id ∈ mentioned (items.map Item.statement), (ofText (rendering d items)).nodes.get? id =
      some ⟨id, (lastLabel? (items.map Item.statement) id).getD id⟩ := by
  rw [ofText_rendering_eq_described h]
  exact ⟨rfl, rfl, keys_described _ _, fun _ hid => get?_described hid⟩

/-- Dashes in ids, and quotes and arrows in labels, come back as they were. -/
theorem ofText_rendering_dashes :
    (ofText (rendering .leftRight [.edge "a-" "b" .solid (.inside "x -- y"),
        .node "b" " \"-->\" ", .edge "-" "a-" .dotted (.bars "-.=")])).edges =
      [⟨"a-", "b", some "x -- y", .solid, true⟩, ⟨"-", "a-", some "-.=", .dotted, true⟩] ∧
    (ofText (rendering .leftRight [.edge "a-" "b" .solid (.inside "x -- y"),
        .node "b" " \"-->\" ", .edge "-" "a-" .dotted (.bars "-.=")])).nodes.get? "b" =
      some ⟨"b", "\"-->\""⟩ := by
  obtain ⟨-, hedges, -, hnodes⟩ := ofText_rendering .leftRight
    [.edge "a-" "b" .solid (.inside "x -- y"), .node "b" " \"-->\" ",
      .edge "-" "a-" .dotted (.bars "-.=")] (by decide)
  have hb := hnodes "b" (by decide)
  exact ⟨hedges.trans (by decide), hb.trans (by decide)⟩

end Flowchart

end FlowchartSlides
