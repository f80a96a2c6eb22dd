import FlowchartSlides.Proofs.Coherence
import FlowchartSlides.Proofs.CommandLists

/-!
# Edits commute

A move, a resizing and a restyling write different parts of an element, and what
a resizing reads, the signs of a connector's extents, only a resizing writes. So
edits of different elements commute, and so do edits of different kinds of one
element; the ids that are there do not change meanwhile. A list of edits can
therefore be rearranged as long as the edits of one kind of one element stay in
their order.
-/
namespace FlowchartSlides

/-- Steps that commute unless they have the same key can be rearranged as long as those
with the same key stay in order. -/
theorem foldl_eq_of_filter_eq {α β κ : Type} [DecidableEq κ] {f : β → α → β} {key : α → κ}
    (hcomm : ∀ s a b, key a ≠ key b → f (f s a) b = f (f s b) a) {as bs : List α}
    (h : ∀ k, as.filter (key · = k) = bs.filter (key · = k)) (s : β) :
    as.foldl f s = bs.foldl f s := by
  induction as generalizing bs s with
  | nil =>
    cases bs with
    | nil => rfl
    | cons b bs => simpa using h (key b)
  | cons a as ih =>
    -- in the other list the first step stands behind steps with other keys
    have hfirst : bs.filter (key · = key a) = a :: as.filter (key · = key a) := by
      rw [← h (key a)]
      simp
    obtain ⟨front, back, rfl, hfront, -, hback⟩ := List.filter_eq_cons_iff.mp hfirst
    have hrest : ∀ k, as.filter (key · = k) = (front ++ back).filter (key · = k) := by
      intro k
      have hk := h k
      by_cases hka : key a = k
      · subst hka
        rw [List.filter_append, List.filter_eq_nil_iff.mpr hfront, List.nil_append, hback]
      · simpa [hka] using hk
    have hswap : (front ++ a :: back).foldl f s = (front ++ back).foldl f (f s a) := by
      clear h hfirst hrest
      induction front generalizing s with
      | nil => rfl
      | cons b front ihf =>
        have hb : key a ≠ key b := by
          intro heq
          exact hfront b List.mem_cons_self (by simp [heq])
        rw [List.cons_append, List.foldl_cons,
          ihf (f s b) fun x hx => hfront x (List.mem_cons_of_mem b hx)]
        rw [List.cons_append, List.foldl_cons, hcomm s a b hb]
    rw [hswap, List.foldl_cons, ih hrest]

namespace Table

variable {α : Type} {key other : String}

theorem lookup_amend (f : α → α) (es : List (String × α)) :
    lookup other (amend key f es) =
      if other = key then (lookup key es).map f else lookup other es := by
  induction es with
  | nil => simp [amend, lookup]
  | cons e es ih =>
    by_cases hkey : e.1 = key
    · by_cases hother : other = key
      · simp [amend, lookup, hkey, hother]
      · simp [amend, lookup, hkey, hother, Ne.symm hother]
    · by_cases hother : other = key
      · subst hother
        simpa [amend, lookup, hkey] using ih
      · simp [amend, lookup, hkey, hother, ih]

theorem get?_modify (t : Table α) (key other : String) (f : α → α) :
    (t.modify key f).get? other = if other = key then (t.get? key).map f else t.get? other :=
  lookup_amend f t.entries

@[simp] theorem contains_modify (t : Table α) (key other : String) (f : α → α) :
    (t.modify key f).contains other = t.contains other := by
  rw [contains, get?_modify]
  split
  next h => rw [h, Option.isSome_map, contains]
  next => rfl

/-- A key that is not there has nothing to change. -/
theorem modify_of_not_contains {t : Table α} (h : t.contains key = false) (f : α → α) :
    t.modify key f = t := by
  have hkeep : ∀ es, lookup key es = none → amend key f es = es := by
    intro es hes
    induction es with
    | nil => rfl
    | cons e es ih =>
      by_cases he : e.1 = key
      · simp [lookup, he] at hes
      · rw [lookup, if_neg he] at hes
        rw [amend, if_neg he, ih hes]
  have hnone : t.get? key = none := by simpa [contains] using h
  exact Table.ext (hkeep t.entries hnone)

theorem amend_amend (f g : α → α) (es : List (String × α)) :
    amend key f (amend key g es) = amend key (f ∘ g) es := by
  induction es with
  | nil => rfl
  | cons e es ih =>
    by_cases h : e.1 = key
    · simp [amend, h]
    · simp [amend, h, ih]

theorem modify_modify (t : Table α) (key : String) (f g : α → α) :
    (t.modify key g).modify key f = t.modify key (f ∘ g) :=
  Table.ext (amend_amend f g t.entries)

theorem amend_comm_of_ne (h : key ≠ other) (f g : α → α) (es : List (String × α)) :
    amend key f (amend other g es) = amend other g (amend key f es) := by
  induction es with
  | nil => rfl
  | cons e es ih =>
    by_cases hkey : e.1 = key
    · simp [amend, hkey, h]
    · by_cases hother : e.1 = other
      · simp [amend, hother, Ne.symm h]
      · simp [amend, hkey, hother, ih]

/-- Changes under different keys commute, and so do changes that commute themselves. -/
theorem modify_comm (t : Table α) {f g : α → α} (h : key = other → f ∘ g = g ∘ f) :
    (t.modify other g).modify key f = (t.modify key f).modify other g := by
  by_cases heq : key = other
  · subst heq
    rw [modify_modify, modify_modify, h rfl]
  · exact Table.ext (amend_comm_of_ne heq f g t.entries)

end Table

namespace Adjustment

variable {a b : Adjustment}

/-- Whether a command edits an element that has to be there. -/
def isEdit (a : Adjustment) : Bool := a.target?.isSome

/-- What an edit does to its target. -/
def change : Adjustment → Element → Element
  | moveNode _ x y => Element.moveTo x y
  | resizeNode _ width height => Element.resize width height
  | changeNodeStyle _ style => style.apply
  | addNode _ | addConnector _ => id

/-- Edits of different kinds write different parts of an element. -/
theorem change_comm (h : a.name ≠ b.name) : a.change ∘ b.change = b.change ∘ a.change := by
  funext e
  cases a <;> cases b <;> first | exact absurd rfl h | (cases e <;> rfl)

/-- What a command aims at: its target, and the kind of change. -/
def aim (a : Adjustment) : Option String × String := (a.target?, a.name)

/-- The elements after an edit. -/
def editIn (t : Table Element) (a : Adjustment) : Table Element :=
  match a.target? with
  | some id => t.modify id a.change
  | none => t

theorem editIn_comm (t : Table Element) (h : a.aim ≠ b.aim) :
    editIn (editIn t a) b = editIn (editIn t b) a := by
  unfold editIn
  cases ha : a.target? with
  | none => rfl
  | some id =>
    cases hb : b.target? with
    | none => rfl
    | some id' =>
      refine Table.modify_comm t fun heq => change_comm fun hname => h ?_
      rw [aim, aim, ha, hb, heq, hname]

theorem contains_editIn (t : Table Element) (a : Adjustment) (id : String) :
    (editIn t a).contains id = t.contains id := by
  unfold editIn
  split
  next => exact Table.contains_modify t _ id _
  next => rfl

/-- One list of commands holds those of another in an order in which the commands with
one aim come as they did. -/
structure Rearranged (as bs : List Adjustment) : Prop where
  perm : as.Perm bs
  in_order : ∀ aim, as.filter (·.aim = aim) = bs.filter (·.aim = aim)

/-- Two lists of commands without a common aim can change places. -/
theorem Rearranged.swap {as bs : List Adjustment} (h : ∀ a ∈ as, ∀ b ∈ bs, a.aim ≠ b.aim) :
    Rearranged (as ++ bs) (bs ++ as) := by
  refine ⟨List.perm_append_comm, fun aim => ?_⟩
  rw [List.filter_append, List.filter_append]
  by_cases hfirst : ∃ a ∈ as, a.aim = aim
  · obtain ⟨a, ha, rfl⟩ := hfirst
    have hnone : bs.filter (·.aim = a.aim) = [] := by
      rw [List.filter_eq_nil_iff]
      intro b hb
      simpa using Ne.symm (h a ha b hb)
    rw [hnone, List.append_nil, List.nil_append]
  · have hnone : as.filter (·.aim = aim) = [] := by
      rw [List.filter_eq_nil_iff]
      intro a ha
      simpa using fun heq => hfirst ⟨a, ha, heq⟩
    rw [hnone, List.append_nil, List.nil_append]

end Adjustment

namespace Canvas

open Adjustment (Rearranged)

variable {c c' : Canvas} {a : Adjustment} {as bs : List Adjustment}

/-- Editing changes the elements, which without the target is no change, and reports a
missing target. -/
theorem edit_eq (c : Canvas) (command id : String) (notices : List Notice)
    (f : Element → Element) : ∃ notices',
    c.edit command id notices f =
      ⟨{ c with elements := c.elements.modify id f }, notices',
        (some id).filter fun id => !c.contains id⟩ := by
  rw [edit]
  cases h : c.contains id with
  | true => exact ⟨notices, by simp [Option.filter, h]⟩
  | false =>
    refine ⟨[.unknownTarget command id], ?_⟩
    rw [Table.modify_of_not_contains h f]
    simp [Option.filter, h]

/-- An edit changes its target, which may be missing, and nothing else. -/
theorem adjustOne_edit (c : Canvas) (h : a.isEdit) : ∃ notices,
    c.adjustOne a = .ok ⟨{ c with elements := a.editIn c.elements }, notices, a.missing? c⟩ := by
  cases a with
  | addNode spec => exact absurd h Bool.false_ne_true
  | addConnector spec => exact absurd h Bool.false_ne_true
  | moveNode id x y =>
    obtain ⟨notices, hedit⟩ := edit_eq c "moveNode" id [] (Element.moveTo x y)
    exact ⟨notices, congrArg Except.ok hedit⟩
  | resizeNode id width height =>
    obtain ⟨notices, hedit⟩ := edit_eq c "resizeNode" id
      (if width < 0 ∨ height < 0 then [.negativeSize id width height] else [])
      (Element.resize width height)
    exact ⟨notices, congrArg Except.ok hedit⟩
  | changeNodeStyle id style =>
    obtain ⟨notices, hedit⟩ := edit_eq c "changeNodeStyle" id [] style.apply
    exact ⟨notices, congrArg Except.ok hedit⟩

/-- The report of edits: whether a target is there does not change while they run. -/
def editReport (c : Canvas) (as : List Adjustment) : AdjustReport :=
  ⟨as.countP fun a => (a.missing? c).isNone, as.filterMap (·.missing? c)⟩

theorem editReport_cons (c : Canvas) (a : Adjustment) (as : List Adjustment) :
    c.editReport (a :: as) = (c.editReport as).prepend (a.missing? c) := by
  cases h : a.missing? c <;> simp [editReport, AdjustReport.prepend, h]

/-- Edits are always carried out, one change of the elements after the other. -/
theorem adjust_edits (c : Canvas) (h : ∀ a ∈ as, a.isEdit) :
    (c.adjust as).canvas = { c with elements := as.foldl Adjustment.editIn c.elements } ∧
      (c.adjust as).outcome = .ok (c.editReport as) := by
  induction as generalizing c with
  | nil => exact ⟨rfl, rfl⟩
  | cons a as ih =>
    obtain ⟨notices, hstep⟩ := adjustOne_edit c (h a List.mem_cons_self)
    obtain ⟨hcanvas, houtcome⟩ := ih { c with elements := a.editIn c.elements }
      fun b hb => h b (List.mem_cons_of_mem a hb)
    have hsame : editReport { c with elements := a.editIn c.elements } as = c.editReport as := by
      have hmissing : ∀ b : Adjustment,
          b.missing? { c with elements := a.editIn c.elements } = b.missing? c := by
        intro b
        simp only [Adjustment.missing?, contains, Adjustment.contains_editIn]
      simp only [editReport, hmissing]
    rw [adjust_cons_ok hstep]
    refine ⟨hcanvas, ?_⟩
    rw [houtcome, hsame, editReport_cons]
    rfl

/-- Edits can be rearranged as long as those of one kind on one element stay in their
order: both lists are carried out, leave the same canvas, apply equally many commands,
and report the same missing targets in some order. -/
theorem adjust_rearranged (c : Canvas) (hedits : ∀ a ∈ as, a.isEdit)
    (h : Rearranged as bs) :
    (c.adjust as).canvas = (c.adjust bs).canvas ∧
      ∃ r s, (c.adjust as).outcome = .ok r ∧ (c.adjust bs).outcome = .ok s ∧
        r.applied = s.applied ∧ r.unknownIds.Perm s.unknownIds := by
  obtain ⟨hcanvas, houtcome⟩ := adjust_edits c hedits
  obtain ⟨hcanvas', houtcome'⟩ := adjust_edits c fun b hb => hedits b (h.perm.mem_iff.mpr hb)
  have helements : as.foldl Adjustment.editIn c.elements = bs.foldl Adjustment.editIn c.elements :=
    foldl_eq_of_filter_eq (fun t _ _ => Adjustment.editIn_comm t) h.in_order c.elements
  refine ⟨by rw [hcanvas, hcanvas', helements], _, _, houtcome, houtcome', ?_, ?_⟩
  · exact h.perm.countP_eq _
  · exact h.perm.filterMap _

/-- Edits of a shape, of its connector and of an element that is not there; two moves of
the shape stay in their order. -/
theorem adjust_rearranged_moves_and_sizes :
    let c := ((default : Canvas).build (Flowchart.empty.addEdge ⟨"A", "B", none, .solid, true⟩) ∅).1
    let front := [.moveNode "A" 1 2, .resizeNode "connector_A_B" 3 4, .moveNode "A" 5 6,
      .moveNode "Z" 0 0]
    let back := [.resizeNode "A" (-1) 2, .moveNode "connector_A_B" 7 8,
      .changeNodeStyle "A" ⟨none, some "000000", none, some 9⟩, .resizeNode "Z" 1 1]
    Rearranged (front ++ back) (back ++ front) ∧
      (c.adjust (front ++ back)).canvas = (c.adjust (back ++ front)).canvas ∧
      ∃ r s, (c.adjust (front ++ back)).outcome = .ok r ∧
        (c.adjust (back ++ front)).outcome = .ok s ∧
        r.applied = s.applied ∧ r.unknownIds.Perm s.unknownIds := by
  intro c front back
  have h : Rearranged (front ++ back) (back ++ front) := Rearranged.swap (by decide)
  exact ⟨h, adjust_rearranged c (by decide) h⟩

end Canvas

end FlowchartSlides
