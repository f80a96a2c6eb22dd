import FlowchartSlides.Proofs.Groups

/-!
# The order of icons

The merger takes the ids of a map one after the other, and each pass works on what the
passes before it have made of the text. Ids may be parts of one another or of an icon,
and definitions may stand side by side; still the order in which the icons arrived leaves
no trace. What is merged depends on the icons that ids find, and `mergeInto_perm` says so
of two maps with the same entries.
-/
namespace FlowchartSlides

namespace Table

variable {α : Type} {t u : Table α}

/-- The same entries are found alike in any order. -/
theorem get?_eq_of_perm (hperm : t.entries.Perm u.entries) (key : String) :
    t.get? key = u.get? key := by
  have hkeys : t.keys.Perm u.keys := hperm.map Prod.fst
  by_cases hkey : key ∈ t.keys
  · obtain ⟨e, he, rfl⟩ := List.mem_map.mp hkey
    rw [get?_of_mem he, get?_of_mem (hperm.mem_iff.mp he)]
  · rw [get?_eq_none hkey, get?_eq_none fun hmem => hkey (hkeys.mem_iff.mpr hmem)]

end Table

namespace IconMap

variable {icons icons' : IconMap}

theorem Plain.perm (h : icons.Plain) (hperm : icons.entries.Perm icons'.entries) :
    icons'.Plain := by
  have hkeys : icons.keys.Perm icons'.keys := hperm.map Prod.fst
  have hvalues : icons.values.Perm icons'.values := hperm.map Prod.snd
  exact ⟨fun id hid => h.words id (hkeys.mem_iff.mpr hid),
    fun icon hicon => h.plain icon (hvalues.mem_iff.mpr hicon)⟩

/-- Maps in which ids find the same icons are merged alike, whatever the order of their
passes. -/
theorem mergeInto_congr (h : icons.Plain) (h' : icons'.Plain)
    (hsame : ∀ id, icons.icon? id = icons'.icon? id) (source : String) :
    icons.mergeInto source = icons'.mergeInto source := by
  have hicons : icons.iconOf? = icons'.iconOf? := by
    funext w
    rw [iconOf?, hsame, iconOf?]
  rw [mergeInto_eq_decorateAll h.words h.plain_iconOf?,
    mergeInto_eq_decorateAll h'.words h'.plain_iconOf?, hicons]

/-- Maps with the same entries in different orders are merged alike into every text. -/
theorem mergeInto_perm (h : icons.Plain) (hperm : icons.entries.Perm icons'.entries)
    (source : String) : icons.mergeInto source = icons'.mergeInto source := by
  refine mergeInto_congr h (h.perm hperm) (fun id => ?_) source
  rw [icon?, icon?, Table.get?_eq_of_perm hperm]

/-- Ids that end like one another, an icon that is an id, a blank icon, and definitions
side by side and over a line end. -/
theorem mergeInto_perm_overlapping :
    let icons : IconMap := .ofList [("A", "🚀"), ("B-A", "A"), ("B", " \n"), ("C", "B-A")]
    let icons' : IconMap := .ofList [("C", "B-A"), ("B", " \n"), ("B-A", "A"), ("A", "🚀")]
    let source := "B-A[u]A['v ']B[w]C\n[ x]A[y]A[z]"
    let merged := "B-A[A u]A['🚀 v']B[w]C\n[B-A x]A[🚀 y]A[z]"
    icons.Plain ∧ icons.entries.Perm icons'.entries ∧ icons.mergeInto source = merged ∧
      icons'.mergeInto source = merged := by
  intro icons icons' source merged
  have hplain : icons.Plain := by decide
  have hperm : icons.entries.Perm icons'.entries := by decide
  have hmerged : icons.mergeInto source = merged := by decide +kernel
  exact ⟨hplain, hperm, hmerged, (mergeInto_perm hplain hperm source).symm.trans hmerged⟩

end IconMap

end FlowchartSlides
