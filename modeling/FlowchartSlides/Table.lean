/-!
# Tables in order of arrival

A table maps texts to values and remembers the order in which the keys first
arrived. Writing to a present key keeps its place; a new key goes to the end.
Each key is there once: a table carries the proof, which `nodup_write` and
`keys_amend` hand on.
-/
namespace FlowchartSlides

@[ext]
structure Table (α : Type) where
  entries : List (String × α)
  nodup : (entries.map (·.1)).Nodup
deriving Repr, DecidableEq

namespace Table

variable {α β : Type}

def empty : Table α := ⟨[], List.nodup_nil⟩

instance : EmptyCollection (Table α) := ⟨empty⟩

instance : Inhabited (Table α) := ⟨empty⟩

def keys (t : Table α) : List String := t.entries.map (·.1)

def values (t : Table α) : List α := t.entries.map (·.2)

def size (t : Table α) : Nat := t.entries.length

def isEmpty (t : Table α) : Bool := t.entries.isEmpty

/-- The value under the first entry with this key. -/
def lookup (key : String) : List (String × α) → Option α
  | [] => none
  | e :: es => if e.1 = key then some e.2 else lookup key es

def get? (t : Table α) (key : String) : Option α := lookup key t.entries

def contains (t : Table α) (key : String) : Bool := (t.get? key).isSome

/-- Writes in place, or at the end when the key is new. -/
def write (key : String) (value : α) : List (String × α) → List (String × α)
  | [] => [(key, value)]
  | e :: es => if e.1 = key then (key, value) :: es else e :: write key value es

theorem keys_write (key : String) (value : α) (es : List (String × α)) :
    (write key value es).map (·.1) =
      if key ∈ es.map (·.1) then es.map (·.1) else es.map (·.1) ++ [key] := by
  induction es with
  | nil => simp [write]
  | cons e es ih =>
    unfold write
    by_cases h : e.1 = key
    · simp [h]
    · rw [if_neg h, List.map_cons, ih, List.map_cons]
      by_cases hk : key ∈ es.map (·.1)
      · rw [if_pos hk, if_pos (List.mem_cons_of_mem _ hk)]
      · have hc : key ∉ e.1 :: es.map (·.1) := by
          simp only [List.mem_cons, not_or]
          exact ⟨fun he => h he.symm, hk⟩
        rw [if_neg hk, if_neg hc]
        rfl

/-- Writing keeps distinct keys distinct. -/
theorem nodup_write (key : String) (value : α) {es : List (String × α)}
    (h : (es.map (·.1)).Nodup) : ((write key value es).map (·.1)).Nodup := by
  rw [keys_write]
  split
  next => exact h
  next hkey => exact List.nodup_append.mpr ⟨h, by simp, by grind⟩

def insert (t : Table α) (key : String) (value : α) : Table α :=
  ⟨write key value t.entries, nodup_write key value t.nodup⟩

/-- Changes the value under a key; without that key nothing changes. -/
def amend (key : String) (f : α → α) : List (String × α) → List (String × α)
  | [] => []
  | e :: es => if e.1 = key then (key, f e.2) :: es else e :: amend key f es

theorem keys_amend (key : String) (f : α → α) (es : List (String × α)) :
    (amend key f es).map (·.1) = es.map (·.1) := by
  induction es with
  | nil => rfl
  | cons e es ih =>
    unfold amend
    by_cases h : e.1 = key
    · simp [h]
    · simp [h, ih]

def modify (t : Table α) (key : String) (f : α → α) : Table α :=
  ⟨amend key f t.entries, (keys_amend key f t.entries).symm ▸ t.nodup⟩

/-- The entries inserted one after the other, so that a repeated key keeps its
first place and its last value. -/
def ofList (entries : List (String × α)) : Table α :=
  entries.foldl (fun t e => t.insert e.1 e.2) ∅

theorem nodup_keys (t : Table α) : t.keys.Nodup := t.nodup

theorem entries_insert (t : Table α) (key : String) (value : α) :
    (t.insert key value).entries = write key value t.entries := rfl

/-- A present key moves nothing; a new one goes to the end. -/
theorem keys_insert (t : Table α) (key : String) (value : α) :
    (t.insert key value).keys = if key ∈ t.keys then t.keys else t.keys ++ [key] :=
  keys_write key value t.entries

theorem lookup_write_self (key : String) (value : α) (es : List (String × α)) :
    lookup key (write key value es) = some value := by
  induction es with
  | nil => simp [write, lookup]
  | cons e es ih =>
    unfold write
    by_cases h : e.1 = key
    · simp [h, lookup]
    · simp [h, lookup, ih]

theorem lookup_write_of_ne {key other : String} (value : α) (es : List (String × α))
    (h : other ≠ key) : lookup other (write key value es) = lookup other es := by
  induction es with
  | nil => simp [write, lookup, Ne.symm h]
  | cons e es ih =>
    unfold write
    by_cases he : e.1 = key
    · simp [he, lookup, Ne.symm h]
    · simp [he, lookup, ih]

/-- Reading after writing: the written key has the new value, others keep theirs. -/
theorem get?_insert (t : Table α) (key other : String) (value : α) :
    (t.insert key value).get? other = if other = key then some value else t.get? other := by
  split
  next h => subst h; exact lookup_write_self other value t.entries
  next h => exact lookup_write_of_ne value t.entries h

theorem lookup_eq_none {key : String} {es : List (String × α)} (h : key ∉ es.map (·.1)) :
    lookup key es = none := by
  induction es with
  | nil => rfl
  | cons e es ih =>
    simp only [List.map_cons, List.mem_cons, not_or] at h
    rw [lookup, if_neg (Ne.symm h.1), ih h.2]

/-- A key that is not there has no value. -/
theorem get?_eq_none {t : Table α} {key : String} (h : key ∉ t.keys) : t.get? key = none :=
  lookup_eq_none h

@[simp] theorem keys_modify (t : Table α) (key : String) (f : α → α) :
    (t.modify key f).keys = t.keys :=
  keys_amend key f t.entries

end Table

end FlowchartSlides
