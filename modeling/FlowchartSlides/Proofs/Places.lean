import FlowchartSlides.Proofs.Arrivals

/-!
# Where a table is written

A value under a key that is there takes the place of the old one, and a value under a new
key comes last; all other entries stay what and where they are. `Replaces` and `Appends`
say so of the entries as a whole, so that nothing is left to say about keys, their order
or other values.
-/
namespace FlowchartSlides.Table

variable {α : Type} {t t' : Table α} {key : String} {old new : α}

/-- The second table has another value in the place of a key. -/
def Replaces (t t' : Table α) (key : String) (old new : α) : Prop :=
  ∃ front back, key ∉ front.map (·.1) ∧ t.entries = front ++ (key, old) :: back ∧
    t'.entries = front ++ (key, new) :: back

/-- The second table has a new key behind all others. -/
def Appends (t t' : Table α) (key : String) (new : α) : Prop :=
  key ∉ t.keys ∧ t'.entries = t.entries ++ [(key, new)]

/-- A key that is there finds something. -/
theorem exists_get?_of_mem_keys (h : key ∈ t.keys) : ∃ v, t.get? key = some v := by
  have hfind : ∀ es : List (String × α), key ∈ es.map (·.1) → ∃ v, lookup key es = some v := by
    intro es hes
    induction es with
    | nil => exact absurd hes List.not_mem_nil
    | cons e es ih =>
      rw [lookup]
      split
      next => exact ⟨e.2, rfl⟩
      next he => exact ih ((List.mem_cons.mp hes).resolve_left (Ne.symm he))
  exact hfind t.entries h

/-- What a key finds stands behind entries with other keys. -/
theorem exists_cut_of_lookup {es : List (String × α)} (h : lookup key es = some old) :
    ∃ front back, key ∉ front.map (·.1) ∧ es = front ++ (key, old) :: back := by
  induction es with
  | nil => simp [lookup] at h
  | cons e es ih =>
    rw [lookup] at h
    split at h
    next he =>
      obtain rfl := Option.some.inj h
      exact ⟨[], es, List.not_mem_nil, by rw [← he]; rfl⟩
    next he =>
      obtain ⟨front, back, hfront, rfl⟩ := ih h
      refine ⟨e :: front, back, ?_, rfl⟩
      rw [List.map_cons, List.mem_cons, not_or]
      exact ⟨Ne.symm he, hfront⟩

theorem write_cut {front : List (String × α)} (h : key ∉ front.map (·.1)) (old new : α)
    (back : List (String × α)) :
    write key new (front ++ (key, old) :: back) = front ++ (key, new) :: back := by
  induction front with
  | nil => rw [List.nil_append, write, if_pos rfl, List.nil_append]
  | cons e front ih =>
    rw [List.map_cons, List.mem_cons, not_or] at h
    rw [List.cons_append, write, if_neg (Ne.symm h.1), ih h.2, List.cons_append]

/-- To change what a key finds is to write the changed value. -/
theorem amend_eq_write {es : List (String × α)} (h : lookup key es = some old) (f : α → α) :
    amend key f es = write key (f old) es := by
  induction es with
  | nil => simp [lookup] at h
  | cons e es ih =>
    rw [lookup] at h
    rw [amend, write]
    split at h
    next he => rw [if_pos he, if_pos he, Option.some.inj h]
    next he => rw [if_neg he, if_neg he, ih h]

theorem replaces_insert (h : t.get? key = some old) (new : α) :
    t.Replaces (t.insert key new) key old new := by
  obtain ⟨front, back, hfront, hentries⟩ := exists_cut_of_lookup h
  refine ⟨front, back, hfront, hentries, ?_⟩
  rw [entries_insert, hentries, write_cut hfront]

theorem replaces_modify (h : t.get? key = some old) (f : α → α) :
    t.Replaces (t.modify key f) key old (f old) := by
  have hsame : t.modify key f = t.insert key (f old) := Table.ext (amend_eq_write h f)
  rw [hsame]
  exact replaces_insert h (f old)

theorem appends_insert (h : key ∉ t.keys) (new : α) : t.Appends (t.insert key new) key new :=
  ⟨h, write_of_not_mem new h⟩

theorem Replaces.mem_keys (h : t.Replaces t' key old new) : key ∈ t.keys := by
  obtain ⟨front, back, -, hentries, -⟩ := h
  rw [keys, hentries, List.map_append, List.map_cons]
  exact List.mem_append_right _ List.mem_cons_self

end FlowchartSlides.Table
