import FlowchartSlides.Flowchart.Reading
import FlowchartSlides.Proofs.Arrivals
import Mathlib.Data.Finset.Card
import Mathlib.Data.List.Nodup

/-!
# The flowchart that a list of statements describes

Statements mention ids and define labels in any order. A node keeps the place of
its first mention and takes the label of its last definition; `described` says
so without carrying statements out, and `ofText_eq_described` says that reading
a text, statement after statement, ends there. The statements are those of the
trimmed lines that are neither blank nor headers; which statement a line makes
is not looked into.
-/
namespace FlowchartSlides

namespace Table

variable {α : Type}

/-- The table with these keys in order of first arrival, and a value for each by
a rule. -/
def tabulate (keys : List String) (value : String → α) : Table α where
  entries := keys.eraseDups.map fun key => (key, value key)
  nodup := by
    rw [List.map_map]
    exact (List.map_id keys.eraseDups).symm ▸ nodup_eraseDups keys

@[simp] theorem keys_tabulate (keys : List String) (value : String → α) :
    (tabulate keys value).keys = keys.eraseDups := by
  simp [tabulate, Table.keys, Function.comp_def]

theorem get?_tabulate (keys : List String) (value : String → α) (key : String) :
    (tabulate keys value).get? key = if key ∈ keys then some (value key) else none := by
  simp only [tabulate, Table.get?, ← List.mem_eraseDups (l := keys)]
  induction keys.eraseDups with
  | nil => rfl
  | cons k keys ih =>
    simp only [List.map_cons, lookup]
    by_cases h : k = key
    · simp [h]
    · have hk : key ≠ k := Ne.symm h
      simp [h, hk, ih]

theorem write_tabulate (key : String) (v : α) (value : String → α) (keys : List String)
    (hnd : keys.Nodup) :
    write key v (keys.map fun k => (k, value k)) =
      (if key ∈ keys then keys else keys ++ [key]).map
        fun k => (k, if k = key then v else value k) := by
  induction keys with
  | nil => simp [write]
  | cons k keys ih =>
    obtain ⟨hk, hnd⟩ := List.nodup_cons.mp hnd
    simp only [List.map_cons, write]
    by_cases h : k = key
    · subst h
      have hrest : ∀ i ∈ keys, (i, value i) = (i, if i = k then v else value i) := by
        intro i hi
        have hne : i ≠ k := fun he => hk (he ▸ hi)
        rw [if_neg hne]
      rw [if_pos rfl, if_pos List.mem_cons_self, List.map_cons, if_pos rfl,
        List.map_congr_left hrest]
    · have hmem : key ∈ k :: keys ↔ key ∈ keys := by simp [Ne.symm h]
      rw [if_neg h, ih hnd]
      by_cases hin : key ∈ keys
      · rw [if_pos hin, if_pos (hmem.mpr hin), List.map_cons, if_neg h]
      · rw [if_neg hin, if_neg (fun hc => hin (hmem.mp hc)), List.cons_append, List.map_cons,
          if_neg h]

/-- Writing into a tabulated table changes one value, and adds the key at the end
when it is new. -/
theorem insert_tabulate (key : String) (v : α) (value : String → α) (keys : List String) :
    (tabulate keys value).insert key v =
      tabulate (keys ++ [key]) (fun k => if k = key then v else value k) := by
  have hkeys : (keys ++ [key]).eraseDups =
      if key ∈ keys.eraseDups then keys.eraseDups else keys.eraseDups ++ [key] := by
    simp only [eraseDups_concat, List.mem_eraseDups]
  apply Table.ext
  simp only [tabulate, insert, hkeys]
  exact write_tabulate key v value _ (nodup_eraseDups keys)

end Table

namespace Flowchart

/-- The ids that a statement mentions, in order; a subgraph mentions none. -/
def Statement.mentions : Statement → List String
  | .node id _ => [id]
  | .edge e => [e.source, e.target]
  | .subgraph _ => []

def Statement.edge? : Statement → Option Edge
  | .edge e => some e
  | _ => none

/-- The label that a statement defines for an id. -/
def Statement.labelFor? (id : String) : Statement → Option String
  | .node i label => if i = id then some label else none
  | _ => none

/-- All mentions of ids in order, repetitions included. -/
def mentioned (S : List Statement) : List String := S.flatMap Statement.mentions

/-- The label of the last definition of an id. -/
def lastLabel? (S : List Statement) (id : String) : Option String :=
  (S.filterMap (Statement.labelFor? id)).getLast?

/-- The node that statements give an id: its label is the last one defined, or
the id when none is. -/
def nodeOf (S : List Statement) (id : String) : Node := ⟨id, (lastLabel? S id).getD id⟩

/-- The flowchart that statements describe: distinct ids in order of first
mention, and the edges in order. -/
def described (d : Option Direction) (S : List Statement) : Flowchart where
  direction := d
  nodes := Table.tabulate (mentioned S) (nodeOf S)
  edges := S.filterMap Statement.edge?

/-- Of statements in two parts the second one has the last word. -/
theorem lastLabel?_append (S T : List Statement) (id : String) :
    lastLabel? (S ++ T) id = (lastLabel? T id).or (lastLabel? S id) := by
  rw [lastLabel?, List.filterMap_append, List.getLast?_append]
  rfl

theorem lastLabel?_concat (S : List Statement) (s : Statement) (id : String) :
    lastLabel? (S ++ [s]) id = (s.labelFor? id).or (lastLabel? S id) := by
  rw [lastLabel?_append, lastLabel?]
  cases h : s.labelFor? id with
  | none => simp only [List.filterMap_cons, h, List.filterMap_nil, List.getLast?_nil]
  | some label => simp only [List.filterMap_cons, h, List.filterMap_nil, List.getLast?_singleton]

theorem mem_mentions_of_labelFor? {s : Statement} {id label : String}
    (h : s.labelFor? id = some label) : id ∈ s.mentions := by
  cases s with
  | node i l =>
    simp only [Statement.labelFor?] at h
    split at h
    next hi => simp [Statement.mentions, hi]
    next => simp at h
  | edge e => simp [Statement.labelFor?] at h
  | subgraph i => simp [Statement.labelFor?] at h

/-- Only mentioned ids have labels. -/
theorem lastLabel?_eq_none {S : List Statement} {id : String} (h : id ∉ mentioned S) :
    lastLabel? S id = none := by
  have hnone : S.filterMap (Statement.labelFor? id) = [] := by
    rw [List.filterMap_eq_nil_iff]
    intro s hs
    cases hl : s.labelFor? id with
    | none => rfl
    | some label =>
      exact absurd (List.mem_flatMap.mpr ⟨s, hs, mem_mentions_of_labelFor? hl⟩) h
  rw [lastLabel?, hnone]
  rfl

/-- Mentioning an id in a tabulated flowchart: new ids go to the end, and a label,
when given, is the one thing that changes. -/
theorem mention_tabulate (d : Option Direction) (es : List Edge) (ids : List String)
    (node : String → Node) (id : String) (label : Option String)
    (hid : ∀ i, (node i).id = i) (hnew : id ∉ ids → node id = ⟨id, id⟩) :
    (⟨d, Table.tabulate ids node, es⟩ : Flowchart).mention id label =
      ⟨d, Table.tabulate (ids ++ [id])
        (fun i => if i = id then ⟨id, label.getD (node id).label⟩ else node i), es⟩ := by
  have hold : ((Table.tabulate ids node).get? id).getD ⟨id, id⟩ = node id := by
    rw [Table.get?_tabulate]
    by_cases h : id ∈ ids
    · rw [if_pos h, Option.getD_some]
    · rw [if_neg h, Option.getD_none, hnew h]
  simp only [mention, hold, hid]
  rw [Table.insert_tabulate]

theorem nodeOf_of_not_mem {S : List Statement} {id : String} (h : id ∉ mentioned S) :
    nodeOf S id = ⟨id, id⟩ := by
  rw [nodeOf, lastLabel?_eq_none h, Option.getD_none]

/-- A mention without label leaves every node as it was. -/
theorem mention_none_tabulate (d : Option Direction) (es : List Edge) (S : List Statement)
    (ids : List String) (id : String) (hids : mentioned S ⊆ ids) :
    (⟨d, Table.tabulate ids (nodeOf S), es⟩ : Flowchart).mention id none =
      ⟨d, Table.tabulate (ids ++ [id]) (nodeOf S), es⟩ := by
  rw [mention_tabulate d es ids (nodeOf S) id none (fun _ => rfl)
    (fun h => nodeOf_of_not_mem fun hc => h (hids hc))]
  have hsame : (fun i => if i = id then ⟨id, (none : Option String).getD (nodeOf S id).label⟩
      else nodeOf S i) = nodeOf S := by
    funext i
    by_cases h : i = id
    · rw [if_pos h, h]; rfl
    · rw [if_neg h]
  rw [hsame]

/-- One more statement does to the flowchart described so far what carrying it
out does. -/
theorem addTo_described (d : Option Direction) (S : List Statement) (s : Statement) :
    s.addTo (described d S) = described d (S ++ [s]) := by
  cases s with
  | node id label =>
    have hnode : (fun i => if i = id then ⟨id, (some label).getD (nodeOf S id).label⟩
        else nodeOf S i) = nodeOf (S ++ [.node id label]) := by
      funext i
      by_cases h : i = id
      · simp [nodeOf, lastLabel?_concat, Statement.labelFor?, h]
      · simp [nodeOf, lastLabel?_concat, Statement.labelFor?, h, Ne.symm h]
    simp only [Statement.addTo, described]
    rw [mention_tabulate d _ _ (nodeOf S) id (some label) (fun _ => rfl) nodeOf_of_not_mem, hnode]
    simp [mentioned, Statement.mentions, Statement.edge?]
  | edge e =>
    have hnode : nodeOf (S ++ [.edge e]) = nodeOf S := by
      funext i
      simp [nodeOf, lastLabel?_concat, Statement.labelFor?]
    have hids : mentioned S ⊆ mentioned S ++ [e.source] := fun _ h => List.mem_append_left _ h
    simp only [Statement.addTo, addEdge, described, hnode]
    rw [mention_none_tabulate d _ S _ e.source (fun _ h => h),
      mention_none_tabulate d _ S _ e.target hids]
    simp [mentioned, Statement.mentions, Statement.edge?]
  | subgraph id =>
    have hnode : nodeOf (S ++ [.subgraph id]) = nodeOf S := by
      funext i
      simp [nodeOf, lastLabel?_concat, Statement.labelFor?]
    simp [Statement.addTo, described, hnode, mentioned, Statement.mentions, Statement.edge?]

/-- Carrying out statements one after the other describes them all. -/
theorem foldl_addTo (d : Option Direction) (S : List Statement) :
    S.foldl Statement.addTo { empty with direction := d } = described d S := by
  induction S using List.reverseRecOn with
  | nil => rfl
  | append_singleton S s ih =>
    rw [List.foldl_append, ih, List.foldl_cons, List.foldl_nil, addTo_described]

/-- Reading a text gives the flowchart that its statements describe. -/
theorem ofText_eq_described (text : String) :
    ofText text = described (direction? text.toList) (statements text.toList) :=
  foldl_addTo _ _

theorem keys_described (d : Option Direction) (S : List Statement) :
    (described d S).nodes.keys = (mentioned S).eraseDups :=
  Table.keys_tabulate _ _

theorem get?_described {d : Option Direction} {S : List Statement} {id : String}
    (h : id ∈ mentioned S) : (described d S).nodes.get? id = some (nodeOf S id) := by
  rw [described, Table.get?_tabulate, if_pos h]

theorem labelOf?_described (d : Option Direction) (S : List Statement) (id : String) :
    (described d S).labelOf? id =
      if id ∈ mentioned S then some ((lastLabel? S id).getD id) else none := by
  rw [labelOf?, described, Table.get?_tabulate]
  split <;> rfl

/-- The count of nodes is the number of distinct ids. -/
theorem size_described (d : Option Direction) (S : List Statement) :
    (described d S).nodes.size = (mentioned S).toFinset.card := by
  have hsize : (described d S).nodes.size = (mentioned S).eraseDups.length := by
    simp [described, Table.tabulate, Table.size]
  have hset : (mentioned S).toFinset = (mentioned S).eraseDups.toFinset := by
    ext id
    simp [List.mem_eraseDups]
  rw [hsize, hset, List.toFinset_card_of_nodup (nodup_eraseDups _)]

/-- Statements are looked for in the trimmed lines, but not in blank ones nor in those
whose first word is the keyword in any case. -/
theorem statements_eq (text : List Char) :
    statements text =
      (((Text.lines text).map Text.trim).filter fun line =>
          line ≠ [] ∧ (Text.firstWord line).map Char.toLower ≠ "flowchart".toList).filterMap
        fun line => (classify? line).map (·.2) := by
  have hkeyword : keyword.map Char.toLower = "flowchart".toList := by decide
  have hline : ∀ line : List Char, (!line.isEmpty && !isHeaderLine line) =
      decide (line ≠ [] ∧ (Text.firstWord line).map Char.toLower ≠ "flowchart".toList) := by
    intro line
    have hempty : line.isEmpty = decide (line = []) := by cases line <;> simp
    rw [isHeaderLine, Text.sameIgnoringCase, hkeyword, hempty, Bool.decide_and]
    simp only [ne_eq, decide_not, beq_eq_decide]
  simp only [statements, bodyLines, hline]

/-- Reading keeps the edge statements of a text as its edges, its distinct ids in
order of first mention as its nodes, and the last label defined for each. -/
theorem ofText_mentions_labels_edges (text : String) :
    let S := (((Text.lines text.toList).map Text.trim).filter fun line =>
        line ≠ [] ∧ (Text.firstWord line).map Char.toLower ≠ "flowchart".toList).filterMap
      fun line => (classify? line).map (·.2)
    (ofText text).edges = S.filterMap Statement.edge? ∧
    (ofText text).nodes.keys = (mentioned S).eraseDups ∧
    (ofText text).nodes.size = (mentioned S).toFinset.card ∧
    ∀ id ∈ mentioned S,
      (ofText text).nodes.get? id = some ⟨id, (lastLabel? S id).getD id⟩ := by
  intro S
  have hstatements : statements text.toList = S := statements_eq text.toList
  rw [ofText_eq_described, hstatements]
  exact ⟨rfl, keys_described _ _, size_described _ _, fun _ h => get?_described h⟩

/-- Blank lines, a header behind one of them, a line without a statement, and indented
statements: one node is labelled again, and one is never labelled. -/
theorem ofText_mentions_labels_edges_indented :
    let text :=
      "\n  FlowChart LR\n\n  A[Start] \n\tA --> B\nsome words\n  B-.->C\r\n \t\nB[End]\nA[Go]"
    (ofText text).edges = [⟨"A", "B", none, .solid, true⟩, ⟨"B", "C", none, .dotted, true⟩] ∧
      (ofText text).nodes.keys = ["A", "B", "C"] ∧ (ofText text).nodes.size = 3 ∧
      (ofText text).nodes.get? "A" = some ⟨"A", "Go"⟩ ∧
      (ofText text).nodes.get? "B" = some ⟨"B", "End"⟩ ∧
      (ofText text).nodes.get? "C" = some ⟨"C", "C"⟩ := by
  intro text
  obtain ⟨hedges, hkeys, hsize, hnodes⟩ := ofText_mentions_labels_edges text
  rw [hedges, hkeys, hsize, hnodes "A" (by decide), hnodes "B" (by decide),
    hnodes "C" (by decide)]
  exact ⟨by decide, by decide, by decide, by decide, by decide, by decide⟩

end Flowchart

end FlowchartSlides
