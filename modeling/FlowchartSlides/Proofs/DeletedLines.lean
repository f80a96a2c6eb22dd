import FlowchartSlides.Proofs.Appended
import FlowchartSlides.Proofs.HeaderLines

/-!
# Lines that are left out

Taking a line out of a text takes its statement out of the statements. An edge is
missed then, and so is a definition, unless the id and the label of its node come out
the same without it. Lines that open a subgraph and comments are lines like others: the
rules for nodes and edges are tried first, so such a line can be left out only where
none of them fits it or where the definition in it is redundant.
-/
namespace FlowchartSlides

namespace Text

variable {cs b : List Char}

/-- No piece between line feeds holds one. -/
theorem lineFeed_not_mem_of_mem_split {p : List Char} (h : p ∈ split '\n' cs) : '\n' ∉ p := by
  induction cs using lines_induction with
  | last s hs =>
    rw [split_of_not_mem hs, List.mem_singleton] at h
    rwa [h]
  | feed s rest hs ih =>
    rw [split_append hs] at h
    rcases List.mem_cons.mp h with rfl | h
    · exact hs
    · exact ih h

/-- Joining the pieces between line feeds gives the text back. -/
theorem unlines_split (cs : List Char) : unlines (split '\n' cs) = cs := by
  induction cs using lines_induction with
  | last s hs =>
    rw [split_of_not_mem hs]
    exact List.intercalate_singleton
  | feed s rest hs ih =>
    rw [split_append hs]
    cases hsplit : split '\n' rest with
    | nil => exact absurd hsplit (split_ne_nil '\n' rest)
    | cons p ps => rw [unlines_cons_cons, ← hsplit, ih]

theorem Blanks.takeWhile_eq_nil (hb : Blanks b) : b.takeWhile (!isBlank ·) = [] := by
  cases b with
  | nil => rfl
  | cons c b => exact List.takeWhile_cons_of_neg (by simp [hb c List.mem_cons_self])

/-- The first word of a text is that of the trimmed text. -/
theorem firstWord_trim (cs : List Char) : firstWord (trim cs) = firstWord cs := by
  obtain ⟨trail, htrail, heq⟩ := exists_trimEnd (trimStart cs)
  have happend : ∀ s : List Char,
      (s ++ trail).takeWhile (!isBlank ·) = s.takeWhile (!isBlank ·) := by
    intro s
    induction s with
    | nil => exact htrail.takeWhile_eq_nil
    | cons c s ih => rw [List.cons_append, List.takeWhile_cons, List.takeWhile_cons, ih]
  have hword : firstWord cs = (trimEnd (trimStart cs) ++ trail).takeWhile (!isBlank ·) := by
    rw [← heq, firstWord]
  rw [hword, happend, firstWord, trimStart_eq_self (isTrimmed_trim cs).head, trim]

/-- The contents of lines in two parts. -/
theorem contents_unlines_append {ls ms : List (List Char)} (h : ∀ l ∈ ls ++ ms, '\n' ∉ l) :
    contents (unlines (ls ++ ms)) = contents (unlines ls) ++ contents (unlines ms) := by
  have hls : ∀ l ∈ ls, '\n' ∉ l := fun l hl => h l (List.mem_append_left _ hl)
  have hms : ∀ l ∈ ms, '\n' ∉ l := fun l hl => h l (List.mem_append_right _ hl)
  rw [contents_unlines h, contents_unlines hls, contents_unlines hms, List.map_append,
    List.filter_append]

/-- The contents of lines with one more line in the middle. -/
theorem contents_unlines_insert {ls ms : List (List Char)} {line : List Char}
    (h : ∀ l ∈ ls ++ line :: ms, '\n' ∉ l) :
    contents (unlines (ls ++ line :: ms)) =
      contents (unlines ls) ++ (contents line ++ contents (unlines ms)) := by
  have hline : ∀ l ∈ [line] ++ ms, '\n' ∉ l := fun l hl => h l (List.mem_append_right _ hl)
  have hsingle : unlines [line] = line := List.intercalate_singleton
  rw [contents_unlines_append h, ← List.singleton_append, contents_unlines_append hline, hsingle]

end Text

namespace Flowchart

/-- A definition of `id` with this label between the statements `S` and `T` changes
neither the order of the nodes nor the label of its own. -/
structure Redundant (S T : List Statement) (id label : String) : Prop where
  place : id ∈ mentioned S ∨ (mentioned T).find? (!(mentioned S).contains ·) = some id
  label : (lastLabel? T id).isSome = true ∨ label = (lastLabel? S id).getD id

theorem tabulate_eq_iff {α : Type} {keys keys' : List String} {value value' : String → α} :
    Table.tabulate keys value = Table.tabulate keys' value' ↔
      keys.eraseDups = keys'.eraseDups ∧ ∀ key ∈ keys, value key = value' key := by
  constructor
  · intro h
    have hkeys : keys.eraseDups = keys'.eraseDups := by
      rw [← Table.keys_tabulate keys value, h, Table.keys_tabulate]
    refine ⟨hkeys, fun key hkey => ?_⟩
    have hkey' : key ∈ keys' := by rwa [← List.mem_eraseDups, ← hkeys, List.mem_eraseDups]
    have hlookup := congrArg (Table.get? · key) h
    simpa [Table.get?_tabulate, hkey, hkey'] using hlookup
  · rintro ⟨hkeys, h⟩
    refine Table.ext ?_
    simp only [Table.tabulate, ← hkeys]
    refine List.map_congr_left fun key hkey => ?_
    rw [h key (List.mem_eraseDups.mp hkey)]

theorem mentioned_insert (S T : List Statement) (st : Statement) :
    mentioned (S ++ st :: T) = mentioned S ++ (st.mentions ++ mentioned T) := by
  rw [mentioned, List.flatMap_append, List.flatMap_cons]
  rfl

theorem lastLabel?_insert (S T : List Statement) (st : Statement) (id : String) :
    lastLabel? (S ++ st :: T) id =
      (lastLabel? T id).or ((st.labelFor? id).or (lastLabel? S id)) := by
  rw [← List.singleton_append, ← List.append_assoc, lastLabel?_append, lastLabel?_concat]

/-- Taking a definition out keeps the nodes when it is redundant. -/
theorem nodes_described_insert_iff (d : Option Direction) (S T : List Statement)
    (id label : String) :
    (described d (S ++ T)).nodes = (described d (S ++ .node id label :: T)).nodes ↔
      Redundant S T id label := by
  have hids : (mentioned (S ++ T)).eraseDups = (mentioned (S ++ .node id label :: T)).eraseDups ↔
      id ∈ mentioned S ∨ (mentioned T).find? (!(mentioned S).contains ·) = some id := by
    have happend : mentioned (S ++ T) = mentioned S ++ mentioned T := List.flatMap_append
    rw [mentioned_insert, happend, Statement.mentions, List.singleton_append, eq_comm,
      eraseDups_insert_iff]
  have hother : ∀ i ≠ id, nodeOf (S ++ T) i = nodeOf (S ++ .node id label :: T) i := by
    intro i hi
    rw [nodeOf, nodeOf, lastLabel?_append, lastLabel?_insert, Statement.labelFor?,
      if_neg (Ne.symm hi), Option.none_or]
  have hown : nodeOf (S ++ T) id = nodeOf (S ++ .node id label :: T) id ↔
      (lastLabel? T id).isSome = true ∨ label = (lastLabel? S id).getD id := by
    rw [nodeOf, nodeOf, lastLabel?_append, lastLabel?_insert, Statement.labelFor?, if_pos rfl]
    cases lastLabel? T id with
    | none => simp [eq_comm]
    | some last => simp
  rw [described, described, tabulate_eq_iff, hids]
  constructor
  · rintro ⟨hplace, hnodes⟩
    refine ⟨hplace, hown.mp (hnodes id ?_)⟩
    rw [← List.mem_eraseDups, hids.mpr hplace, List.mem_eraseDups, mentioned_insert]
    simp [Statement.mentions]
  · rintro ⟨hplace, hlabel⟩
    refine ⟨hplace, fun i _ => ?_⟩
    by_cases hi : i = id
    · rw [hi, hown.mpr hlabel]
    · exact hother i hi

/-- Taking any statement but an edge out keeps the edges. -/
theorem edges_described_insert_iff (d : Option Direction) (S T : List Statement) (st : Statement) :
    (described d (S ++ T)).edges = (described d (S ++ st :: T)).edges ↔ st.edge? = none := by
  rw [described, described, List.filterMap_append, List.filterMap_append, List.filterMap_cons,
    List.append_cancel_left_eq]
  cases st.edge? with
  | none => simp
  | some e => simp

/-- A statement can be taken out without a trace when it mentions nothing or is a
redundant definition. -/
theorem described_without_iff (d : Option Direction) (S T : List Statement) (st : Statement) :
    ((described d (S ++ T)).nodes = (described d (S ++ st :: T)).nodes ∧
      (described d (S ++ T)).edges = (described d (S ++ st :: T)).edges) ↔
      st.mentions = [] ∨ ∃ id label, st = .node id label ∧ Redundant S T id label := by
  rw [edges_described_insert_iff]
  cases st with
  | node id label =>
    rw [nodes_described_insert_iff]
    simp [Statement.edge?, Statement.mentions]
  | edge e => simp [Statement.edge?, Statement.mentions]
  | subgraph id =>
    have hlabels : nodeOf (S ++ T) = nodeOf (S ++ .subgraph id :: T) := by
      funext i
      rw [nodeOf, nodeOf, lastLabel?_append, lastLabel?_insert]
      rfl
    have hids : mentioned (S ++ T) = mentioned (S ++ .subgraph id :: T) := by
      rw [mentioned_insert, mentioned, List.flatMap_append]
      rfl
    rw [described, described, hlabels, hids]
    simp [Statement.edge?, Statement.mentions]

/-- A line that opens a subgraph, or a comment. -/
def IsAside (line : List Char) : Prop :=
  Text.firstWord line = "subgraph".toList ∨ "%%".toList <+: Text.trim line

/-- Such a line holds something and is no header line. -/
theorem IsAside.body {line : List Char} (h : IsAside line) :
    Text.trim line ≠ [] ∧ isHeaderLine (Text.trim line) = false := by
  rcases h with hword | ⟨rest, hrest⟩
  · rw [← Text.firstWord_trim] at hword
    refine ⟨?_, ?_⟩
    · intro hnil
      rw [hnil] at hword
      exact absurd hword (by decide)
    · rw [isHeaderLine, hword]
      decide
  · rw [← hrest]
    refine ⟨List.cons_ne_nil '%' ('%' :: rest), ?_⟩
    have hfirst : Text.firstWord ("%%".toList ++ rest) =
        '%' :: '%' :: rest.takeWhile (!Text.isBlank ·) := rfl
    rw [isHeaderLine, hfirst]
    rfl

theorem definition?_of_classify?_node {line : List Char} {r : Rule} {id label : String}
    (h : classify? line = some (r, .node id label)) : definition? line = some (.node id label) := by
  have happly := apply_of_classify? h
  cases r with
  | nodeDefinition => exact happly
  | connection =>
    obtain ⟨_, -, hst⟩ := Option.map_eq_some_iff.mp happly
    exact Statement.noConfusion hst
  | plainConnection =>
    obtain ⟨_, -, hst⟩ := Option.map_eq_some_iff.mp happly
    exact Statement.noConfusion hst
  | subgraph =>
    obtain ⟨_, -, hst⟩ := Option.map_eq_some_iff.mp happly
    exact Statement.noConfusion hst

/-- Between the statements of other lines, those of one line can be taken out when no
rule for nodes or edges fits the line or the definition in it is redundant. -/
theorem described_without_line_iff (d : Option Direction) (S T : List Statement) {line : List Char}
    (hhead : isHeaderLine line = false) :
    ((described d (S ++ T)).nodes = (described d (S ++ (lineStatements line ++ T))).nodes ∧
      (described d (S ++ T)).edges = (described d (S ++ (lineStatements line ++ T))).edges) ↔
      Idle line ∨
        ∃ id label, definition? line = some (.node id label) ∧ Redundant S T id label := by
  rw [lineStatements, if_neg (by simp [hhead])]
  cases hclass : classify? line with
  | none => simp [idle_of_classify?_eq_none hclass]
  | some found =>
    obtain ⟨r, st⟩ := found
    have hdefinition : ∀ id label,
        st = .node id label ↔ definition? line = some (.node id label) := by
      intro id label
      constructor
      · rintro rfl
        exact definition?_of_classify?_node hclass
      · intro hdef
        rw [classify?_of_definition? hdef, Option.some.injEq] at hclass
        exact (Prod.mk.inj hclass).2.symm
    have hidle : st.mentions = [] ↔ Idle line := by
      rw [mentions_eq_nil_iff (apply_of_classify? hclass), idle_iff_of_classify? hclass]
    simp only [Option.map_some, Option.toList_some, List.singleton_append]
    rw [described_without_iff, hidle]
    simp only [hdefinition]

/-- A line that opens a subgraph, or a comment, is no more than any other line: behind
the first line that holds something it does not change the direction, and the text
without it has the same nodes, labels and edges exactly when no rule for nodes or edges
fits the line or the definition in it is redundant. -/
theorem ofText_without_aside {text : String} {before after : List (List Char)} {line : List Char}
    (hcut : Text.split '\n' text.toList = before ++ line :: after) (hline : IsAside line) :
    let shorter := String.ofList (Text.unlines (before ++ after))
    (Text.holdsLine (Text.unlines before) = true →
      (ofText shorter).direction = (ofText text).direction) ∧
    (((ofText shorter).nodes = (ofText text).nodes ∧ (ofText shorter).edges = (ofText text).edges) ↔
      Idle (Text.trim line) ∨
        ∃ id label, definition? (Text.trim line) = some (.node id label) ∧
          Redundant (statements (Text.unlines before)) (statements (Text.unlines after))
            id label) := by
  intro shorter
  have hpieces : ∀ l ∈ before ++ line :: after, '\n' ∉ l := by
    rw [← hcut]
    exact fun _ => Text.lineFeed_not_mem_of_mem_split
  have hothers : ∀ l ∈ before ++ after, '\n' ∉ l :=
    fun l hl => hpieces l ((List.sublist_cons_self line after).append_left before |>.subset hl)
  obtain ⟨hne, hhead⟩ := hline.body
  have hcontents : Text.contents line = [Text.trim line] := by
    rw [Text.contents_of_not_mem (hpieces line (by simp)),
      List.filter_cons_of_pos (by simpa using hne), List.filter_nil]
  have htext := Text.contents_unlines_insert hpieces
  rw [← hcut, Text.unlines_split, hcontents, List.singleton_append] at htext
  have hshorter : Text.contents shorter.toList =
      Text.contents (Text.unlines before) ++ Text.contents (Text.unlines after) := by
    rw [String.toList_ofList, Text.contents_unlines_append hothers]
  refine ⟨fun hholds => ?_, ?_⟩
  · have hfirst : Text.contents (Text.unlines before) ≠ [] := by
      rw [Ne, Text.contents_eq_nil_iff, hholds]
      exact Bool.noConfusion
    rw [ofText_eq_ofContents, ofText_eq_ofContents, ofContents, ofContents, described, described,
      hshorter, htext, List.head?_append_of_ne_nil _ hfirst, List.head?_append_of_ne_nil _ hfirst]
  · have hsame := described_without_line_iff (direction? text.toList)
      (statements (Text.unlines before)) (statements (Text.unlines after)) hhead
    rw [← hsame, ofText_eq_described, ofText_eq_described, statements_eq_flatMap shorter.toList,
      statements_eq_flatMap text.toList, hshorter, htext, List.flatMap_append, List.flatMap_append,
      List.flatMap_cons, ← statements_eq_flatMap, ← statements_eq_flatMap]
    rfl

/-- A comment that defines a label is not missed when the label is defined again. -/
theorem ofText_without_aside_redefined :
    let text := "flowchart LR\nA[One]\n%% A[Two]\nA[Three]"
    let shorter := "flowchart LR\nA[One]\nA[Three]"
    (ofText shorter).direction = (ofText text).direction ∧
      (ofText shorter).nodes = (ofText text).nodes ∧
      (ofText shorter).edges = (ofText text).edges := by
  intro text shorter
  have hcut : Text.split '\n' text.toList =
      ["flowchart LR".toList, "A[One]".toList] ++ "%% A[Two]".toList :: ["A[Three]".toList] := by
    decide
  obtain ⟨hdirection, hsame⟩ := ofText_without_aside hcut (.inr ⟨" A[Two]".toList, by decide⟩)
  have hdefinition : definition? (Text.trim "%% A[Two]".toList) = some (.node "A" "Two") := by
    decide
  have hredundant : Redundant (statements "flowchart LR\nA[One]".toList)
      (statements "A[Three]".toList) "A" "Two" := ⟨.inl (by decide), .inl (by decide)⟩
  exact ⟨hdirection (by decide), hsame.mpr (.inr ⟨"A", "Two", hdefinition, hredundant⟩)⟩

/-- The title of a subgraph in brackets makes a node, and an arrow in a comment an edge. -/
theorem asides_add_node_and_edge :
    let lead := ["flowchart TD".toList, "A --> B".toList]
    let opening := "subgraph S[Stage]".toList
    let comment := "%% B --> C".toList
    Text.split '\n' "flowchart TD\nA --> B\nsubgraph S[Stage]\nend".toList =
        lead ++ opening :: ["end".toList] ∧
      Text.split '\n' "flowchart TD\nA --> B\n%% B --> C".toList = lead ++ comment :: [] ∧
      IsAside opening ∧ IsAside comment ∧ Text.holdsLine (Text.unlines lead) = true ∧
      (ofText "flowchart TD\nA --> B\nsubgraph S[Stage]\nend").nodes.keys = ["A", "B", "S"] ∧
      (ofText (String.ofList (Text.unlines (lead ++ ["end".toList])))).nodes.keys = ["A", "B"] ∧
      (ofText "flowchart TD\nA --> B\n%% B --> C").edges.length = 2 ∧
      (ofText (String.ofList (Text.unlines (lead ++ [])))).edges.length = 1 := by
  refine ⟨by decide, by decide, .inl (by decide), .inr ⟨" B --> C".toList, by decide⟩, by decide,
    by decide, by decide, by decide, by decide⟩

end Flowchart

end FlowchartSlides
