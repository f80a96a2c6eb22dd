import FlowchartSlides.Table
import Mathlib.Data.List.Induction
import Mathlib.Data.List.Nodup

/-!
# Filling a table

Entries are written one after the other. A key keeps the place of its first
arrival and takes the last value that came with it: `keys_insertAll` and
`get?_insertAll` say so at once for a whole list of entries, and
`values_eq_filterMap` reads the values of a table off these two.
-/
namespace FlowchartSlides

section FirstArrival

variable {α : Type} [BEq α] [LawfulBEq α]

theorem eraseDups_concat (l : List α) (a : α) :
    (l ++ [a]).eraseDups = if a ∈ l then l.eraseDups else l.eraseDups ++ [a] := by
  rw [List.eraseDups_append]
  by_cases h : a ∈ l
  · simp [h, List.removeAll]
  · simp [h, List.removeAll, List.eraseDups_cons]

theorem nodup_eraseDups (l : List α) : l.eraseDups.Nodup := by
  induction l using List.reverseRecOn with
  | nil => simp
  | append_singleton l a ih =>
    rw [eraseDups_concat]
    by_cases h : a ∈ l
    · rwa [if_pos h]
    · rw [if_neg h, List.nodup_append]
      refine ⟨ih, List.nodup_singleton a, ?_⟩
      intro b hb c hc he
      rw [List.mem_singleton] at hc
      exact h (List.mem_eraseDups.mp (hc ▸ he ▸ hb))

theorem eraseDups_eq_self {l : List α} (h : l.Nodup) : l.eraseDups = l := by
  induction l using List.reverseRecOn with
  | nil => rfl
  | append_singleton l a ih =>
    obtain ⟨hl, -, hne⟩ := List.nodup_append.mp h
    have ha : a ∉ l := fun hmem => hne a hmem a (List.mem_singleton_self a) rfl
    rw [eraseDups_concat, if_neg ha, ih hl]

/-- First arrivals of some kind are the first arrivals of that kind. -/
theorem eraseDups_filter (p : α → Bool) (l : List α) :
    (l.filter p).eraseDups = l.eraseDups.filter p := by
  induction l using List.reverseRecOn with
  | nil => rfl
  | append_singleton l a ih =>
    rw [List.filter_append, eraseDups_concat]
    by_cases hp : p a = true
    · rw [List.filter_cons_of_pos hp, List.filter_nil, eraseDups_concat, ih]
      by_cases ha : a ∈ l
      · rw [if_pos ha, if_pos (List.mem_filter.mpr ⟨ha, hp⟩)]
      · rw [if_neg ha, if_neg fun hmem => ha (List.mem_filter.mp hmem).1, List.filter_append,
          List.filter_cons_of_pos hp, List.filter_nil]
    · rw [List.filter_cons_of_neg hp, List.filter_nil, List.append_nil, ih]
      by_cases ha : a ∈ l
      · rw [if_pos ha]
      · rw [if_neg ha, List.filter_append, List.filter_cons_of_neg hp, List.filter_nil,
          List.append_nil]

/-- What arrived first stands first. -/
theorem prefix_eraseDups_append {l : List α} (h : l.Nodup) (m : List α) :
    l <+: (l ++ m).eraseDups := by
  rw [List.eraseDups_append, eraseDups_eq_self h]
  exact List.prefix_append _ _

theorem eraseDups_append_of_disjoint {l m : List α} (h : ∀ a ∈ m, a ∉ l) :
    (l ++ m).eraseDups = l.eraseDups ++ m.eraseDups := by
  have hm : m.removeAll l = m := by
    rw [List.removeAll, List.filter_eq_self]
    intro a ha
    simpa using h a ha
  rw [List.eraseDups_append, hm]

theorem eraseDups_eraseDups_append (l m : List α) :
    (l.eraseDups ++ m).eraseDups = (l ++ m).eraseDups := by
  have hm : m.removeAll l.eraseDups = m.removeAll l := by simp [List.removeAll]
  rw [List.eraseDups_append, List.eraseDups_append, eraseDups_eq_self (nodup_eraseDups l), hm]

/-- An element in the middle adds nothing to the first arrivals when it has arrived
before, or when it is the next one to arrive behind it. -/
theorem eraseDups_insert_iff (l m : List α) (a : α) :
    (l ++ a :: m).eraseDups = (l ++ m).eraseDups ↔
      a ∈ l ∨ m.find? (!l.contains ·) = some a := by
  have hnew : ∀ n : List α, (a :: n).eraseDups = n.eraseDups ↔ n.head? = some a := by
    intro n
    cases n with
    | nil => simp [List.eraseDups_cons]
    | cons b n =>
      rw [List.eraseDups_cons, List.eraseDups_cons, List.head?_cons, Option.some.injEq]
      constructor
      · intro h
        exact (List.cons.inj h).1.symm
      · rintro rfl
        simp
  rw [List.eraseDups_append, List.eraseDups_append, List.append_cancel_left_eq]
  by_cases ha : a ∈ l
  · simp [List.removeAll, ha]
  · have hcons : (a :: m).removeAll l = a :: m.removeAll l := by simp [List.removeAll, ha]
    rw [hcons, hnew]
    simp [List.removeAll, ha]

end FirstArrival

namespace Table

variable {α : Type}

/-- The table after entries have been written in order. -/
def insertAll (t : Table α) (es : List (String × α)) : Table α :=
  es.foldl (fun t e => t.insert e.1 e.2) t

theorem insertAll_concat (t : Table α) (es : List (String × α)) (e : String × α) :
    t.insertAll (es ++ [e]) = (t.insertAll es).insert e.1 e.2 := by
  rw [insertAll, List.foldl_append]
  rfl

theorem keys_insert_eq_eraseDups (t : Table α) (key : String) (v : α) :
    (t.insert key v).keys = (t.keys ++ [key]).eraseDups := by
  rw [keys_insert, eraseDups_concat, eraseDups_eq_self t.nodup_keys]

theorem keys_insertAll (t : Table α) (es : List (String × α)) :
    (t.insertAll es).keys = (t.keys ++ es.map (·.1)).eraseDups := by
  induction es using List.reverseRecOn with
  | nil => rw [List.map_nil, List.append_nil, eraseDups_eq_self t.nodup_keys]; rfl
  | append_singleton es e ih =>
    rw [insertAll_concat, keys_insert_eq_eraseDups, ih, eraseDups_eraseDups_append,
      List.map_append, List.append_assoc]
    rfl

/-- The last entry with a key is the one that counts. -/
theorem get?_insertAll (t : Table α) (es : List (String × α)) (key : String) :
    (t.insertAll es).get? key = (lookup key es.reverse).or (t.get? key) := by
  induction es using List.reverseRecOn with
  | nil => rfl
  | append_singleton es e ih =>
    rw [insertAll_concat, get?_insert, ih, List.reverse_append]
    simp only [List.reverse_cons, List.reverse_nil, List.nil_append, List.cons_append, lookup]
    by_cases h : key = e.1
    · rw [if_pos h, if_pos h.symm, Option.some_or]
    · rw [if_neg h, if_neg (Ne.symm h)]

theorem write_of_not_mem {key : String} (v : α) {es : List (String × α)}
    (h : key ∉ es.map (·.1)) : write key v es = es ++ [(key, v)] := by
  induction es with
  | nil => rfl
  | cons e es ih =>
    simp only [List.map_cons, List.mem_cons, not_or] at h
    rw [write, if_neg (Ne.symm h.1), ih h.2]
    rfl

/-- New keys are all appended. -/
theorem entries_insertAll {t : Table α} {es : List (String × α)}
    (h : (t.keys ++ es.map (·.1)).Nodup) : (t.insertAll es).entries = t.entries ++ es := by
  induction es using List.reverseRecOn with
  | nil => simp [insertAll]
  | append_singleton es e ih =>
    rw [List.map_append, ← List.append_assoc, List.nodup_append] at h
    obtain ⟨hes, -, hne⟩ := h
    have hentries := ih hes
    have he : e.1 ∉ (t.entries ++ es).map (·.1) := by
      intro hmem
      rw [List.map_append] at hmem
      exact hne e.1 hmem e.1 (by simp) rfl
    rw [insertAll_concat, entries_insert, hentries, write_of_not_mem e.2 he, List.append_assoc]

/-- Entries with distinct keys are the entries of the table filled with them. -/
theorem entries_ofList {es : List (String × α)} (h : (es.map (·.1)).Nodup) :
    (ofList es).entries = es :=
  entries_insertAll (t := ∅) h

/-- Under distinct keys every entry is the one that its key finds. -/
theorem lookup_of_mem {e : String × α} {es : List (String × α)} (hnd : (es.map (·.1)).Nodup)
    (h : e ∈ es) : lookup e.1 es = some e.2 := by
  induction es with
  | nil => simp at h
  | cons d es ih =>
    rw [List.map_cons, List.nodup_cons] at hnd
    rw [lookup]
    rcases List.mem_cons.mp h with rfl | h
    · rw [if_pos rfl]
    · have hne : d.1 ≠ e.1 := by
        intro he
        exact hnd.1 (he ▸ List.mem_map_of_mem h)
      rw [if_neg hne, ih hnd.2 h]

/-- Every entry of a table is the one that its key finds. -/
theorem get?_of_mem {t : Table α} {e : String × α} (h : e ∈ t.entries) :
    t.get? e.1 = some e.2 :=
  lookup_of_mem t.nodup h

/-- The values of a table are what its keys find, in order. -/
theorem values_eq_filterMap (t : Table α) : t.values = t.keys.filterMap t.get? := by
  have hfind : ∀ e ∈ t.entries, (t.get? ∘ (·.1)) e = some e.2 := fun _ he => get?_of_mem he
  rw [keys, List.filterMap_map, List.filterMap_congr hfind, values, List.filterMap_eq_map']

end Table

end FlowchartSlides
