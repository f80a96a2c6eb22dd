import FlowchartSlides.Proofs.RoundedResults
import FlowchartSlides.Proofs.WellFormed

/-!
# Columns and the directions of connectors

A connector starts at the right edge of its source, but its horizontal flip compares the left
edges. The two agree because the left edges of two columns are either the same or lie further
apart than a node is wide (`left_add_two_le`), however long the row is and however its positions
are rounded. For a line within one column, a loop among them, the flip is not set, although such
a line may run to the left. The vertical flip always tells the direction.
-/
namespace FlowchartSlides

open Single

namespace Layout

/-- The left edge of a column of the standard layout. -/
def left (column : Nat) : Float32 := standard.startX + Float32.ofNat column * standard.spacing

/-- The column whose left edge is `2 ^ 24`. Up to there all whole numbers are numbers of the
format, and from there on all numbers of the format are even. -/
def denseColumns : Nat := 6710886

theorem two_mul_value_spacing : 2 * value standard.spacing = (5 * one : Nat) := rfl

theorem one_le_value_spacing : (one : Int) ≤ value standard.spacing := by
  have h := two_mul_value_spacing
  have := one_pos
  omega

theorem value_startX : value standard.startX = one := rfl

/-- Among the dense columns the distance from the first one is the exact one, up to a half. -/
theorem offset_bounds {n : Nat} (hn : n ≤ denseColumns) :
    let offset := Float32.ofNat n * standard.spacing
    offset.isNaN = false ∧ (5 * n / 2 * one : Nat) ≤ value offset ∧
      value offset ≤ ((5 * n + 1) / 2 * one : Nat) := by
  intro offset
  rcases Nat.eq_zero_or_pos n with rfl | hpos
  · have hnan : (Float32.ofNat 0 * standard.spacing).isNaN = false := by decide +kernel
    have hzero : value (Float32.ofNat 0 * standard.spacing) = 0 := by decide +kernel
    refine ⟨hnan, ?_, ?_⟩ <;> simp only [offset, hzero] <;> decide
  have hdense : n ≤ 6710886 := hn
  have hcolumn : value (Float32.ofNat n) = (n * one : Nat) := by
    have hround := rounds_ofNat n
    exact le_antisymm (hround.le_whole (by omega) le_rfl) (hround.whole_le (by omega) le_rfl)
  have hround : Rounds (n * value standard.spacing) offset := by
    refine rounds_mul ?_ one_le_value_spacing ?_
    · rw [hcolumn]
      exact Int.ofNat_le.mpr (Nat.le_mul_of_pos_left one hpos)
    · rw [hcolumn, Int.natCast_mul]
      exact Int.mul_right_comm ..
  -- twice the exact distance is a whole number
  have hexact : 2 * (n * value standard.spacing) = (5 * n * one : Nat) := by
    rw [Int.mul_left_comm, two_mul_value_spacing, Nat.mul_comm 5 n, Nat.mul_assoc,
      Int.natCast_mul n]
  have hlow : 2 * (5 * n / 2) * one ≤ 5 * n * one := Nat.mul_le_mul_right one (by omega)
  have hhigh : 5 * n * one ≤ 2 * ((5 * n + 1) / 2) * one := Nat.mul_le_mul_right one (by omega)
  rw [Nat.mul_assoc 2] at hlow hhigh
  exact ⟨hround.isNaN, hround.whole_le (by omega) (by omega),
    hround.le_whole (by omega) (by omega)⟩

theorem left_bounds {n : Nat} (hn : n ≤ denseColumns) :
    (left n).isNaN = false ∧ ((5 * n / 2 + 1) * one : Nat) ≤ value (left n) ∧
      value (left n) ≤ (((5 * n + 1) / 2 + 1) * one : Nat) := by
  have hdense : n ≤ 6710886 := hn
  obtain ⟨hnan, hlow, hhigh⟩ := offset_bounds hn
  have hround := rounds_add_of_nonneg (x := standard.startX) rfl hnan (by decide) (by omega)
  rw [value_startX] at hround
  have hnext : ∀ j : Nat, (j + 1) * one = one + j * one := fun j => by
    rw [Nat.add_mul, Nat.one_mul, Nat.add_comm]
  refine ⟨hround.isNaN, hround.whole_le (by omega) ?_, hround.le_whole (by omega) ?_⟩
  · have := hnext (5 * n / 2)
    omega
  · have := hnext ((5 * n + 1) / 2)
    omega

/-- Behind the dense columns left edges lie among the even numbers. -/
theorem left_sparse {n : Nat} (hn : denseColumns ≤ n) :
    (left n).isNaN = false ∧ (2 ^ 24 * one : Nat) ≤ value (left n) := by
  have hone := one_pos
  have hcolumn := (rounds_ofNat n).whole_le (j := 6710886) (by decide)
    (Int.ofNat_le.mpr (Nat.mul_le_mul_right one hn))
  have hlarge : (one : Int) ≤ value (Float32.ofNat n) := by omega
  -- half of a column's number is a whole number of units
  obtain ⟨half, hhalf⟩ : (2 : Int) ∣ value (Float32.ofNat n) :=
    Int.dvd_trans (by decide) (two_pow_dvd_value (k := 125) hlarge)
  have hoffset : Rounds (5 * half) (Float32.ofNat n * standard.spacing) := by
    refine rounds_mul hlarge one_le_value_spacing ?_
    rw [hhalf, Int.mul_right_comm, two_mul_value_spacing, Int.natCast_mul, Int.mul_right_comm]
    rfl
  have hfar := hoffset.whole_le (j := 16777215) (by decide) (by omega)
  have hround :=
    rounds_add_of_nonneg (x := standard.startX) rfl hoffset.isNaN (by decide) (by omega)
  rw [value_startX] at hround
  exact ⟨hround.isNaN, hround.whole_le le_rfl (by omega)⟩

theorem le_value_left (n : Nat) :
    (left n).isNaN = false ∧ (min (5 * n / 2 + 1) (2 ^ 24) * one : Nat) ≤ value (left n) := by
  rcases le_total n denseColumns with h | h
  · obtain ⟨hnan, hlow, -⟩ := left_bounds h
    have hle : min (5 * n / 2 + 1) (2 ^ 24) * one ≤ (5 * n / 2 + 1) * one :=
      Nat.mul_le_mul_right one (min_le_left _ _)
    exact ⟨hnan, (Int.ofNat_le.mpr hle).trans hlow⟩
  · obtain ⟨hnan, hlow⟩ := left_sparse h
    have hle : min (5 * n / 2 + 1) (2 ^ 24) * one ≤ 2 ^ 24 * one :=
      Nat.mul_le_mul_right one (min_le_right _ _)
    exact ⟨hnan, (Int.ofNat_le.mpr hle).trans hlow⟩

theorem one_le_left (n : Nat) : (one : Int) ≤ value (left n) := by
  have hle : one ≤ min (5 * n / 2 + 1) (2 ^ 24) * one := Nat.le_mul_of_pos_left one (by omega)
  exact (Int.ofNat_le.mpr hle).trans (le_value_left n).2

/-- All columns behind a dense one lie two further to the right. -/
theorem left_add_two_le_of_lt {i j : Nat} (hi : i < denseColumns) (hij : i < j) :
    value (left i) + (2 * one : Nat) ≤ value (left j) := by
  have hdense : i < 6710886 := hi
  have hupper := (left_bounds hi.le).2.2
  have hlower := (le_value_left j).2
  have hstep : ((5 * i + 1) / 2 + 1 + 2) * one ≤ min (5 * j / 2 + 1) (2 ^ 24) * one :=
    Nat.mul_le_mul_right one (by omega)
  rw [Nat.add_mul] at hstep
  omega

/-- Two columns have the same left edge, or left edges that lie two apart. -/
theorem left_add_two_le {i j : Nat} (h : value (left i) < value (left j)) :
    value (left i) + (2 * one : Nat) ≤ value (left j) := by
  by_cases hsparse : denseColumns ≤ i ∧ denseColumns ≤ j
  · -- both edges are even numbers
    obtain ⟨a, ha⟩ : ((2 * one : Nat) : Int) ∣ value (left i) :=
      two_pow_dvd_value (k := 149) (left_sparse hsparse.1).2
    obtain ⟨b, hb⟩ : ((2 * one : Nat) : Int) ∣ value (left j) :=
      two_pow_dvd_value (k := 149) (left_sparse hsparse.2).2
    have htwo : (0 : Int) ≤ (2 * one : Nat) := Int.natCast_nonneg _
    rw [ha, hb] at h ⊢
    have hstep := Int.mul_le_mul_of_nonneg_left
      (Int.add_one_le_of_lt (Int.lt_of_mul_lt_mul_left h htwo)) htwo
    rwa [Int.mul_add, Int.mul_one] at hstep
  · rcases lt_trichotomy i j with hij | rfl | hji
    · exact left_add_two_le_of_lt (by omega) hij
    · exact absurd h (lt_irrefl _)
    · have hback := left_add_two_le_of_lt (by omega) hji
      omega

/-- Of two columns with different left edges, one lies before the right edge of a node in the
other one exactly when it lies before its left edge. -/
theorem left_lt_right_iff {i j : Nat} (h : (left i == left j) = false) :
    left j < left i + standard.nodeWidth ↔ left j < left i := by
  have hi := (le_value_left i).1
  have hj := (le_value_left j).1
  have hone := one_le_left i
  have hround := rounds_add_of_nonneg (y := standard.nodeWidth) hi rfl (by omega) (by decide)
  have hwidth : value standard.nodeWidth = (2 * one : Nat) := value_two
  rw [hwidth] at hround
  have hdifferent : value (left i) ≠ value (left j) :=
    fun heq => ne_true_of_eq_false h ((beq_iff_value hi hj).mpr heq)
  rw [lt_iff_value hj hround.isNaN, lt_iff_value hj hi]
  constructor
  · intro hlt
    by_contra hnot
    have hle := hround.le hj (left_add_two_le (by omega))
    omega
  · intro hlt
    have hge := hround.ge hi (by omega)
    omega

/-- The left and the right edge of a node. -/
theorem slot_edges (f : Flowchart) (id : String) :
    ∃ n, (standard.slot f id).x = left n ∧
      (standard.slot f id).right = left n + standard.nodeWidth := by
  have hwidth : clampSize standard.nodeWidth = standard.nodeWidth := if_pos (by decide)
  refine ⟨(standard.cell f.direction (f.nodes.keys.idxOf id)).1, rfl, ?_⟩
  rw [← hwidth]
  rfl

end Layout

namespace Canvas

/-- A connector that a build drew runs between the places of two nodes. -/
theorem route_of_mem_build {f : Flowchart} (hkeyed : f.NodesKeyed) {c : Canvas} {icons : IconMap}
    {k : Connector} (hk : .connector k ∈ (c.build f icons).1.elements.values) :
    k.source ∈ f.nodes.keys ∧ k.target ∈ f.nodes.keys ∧
      k.route = Route.between (c.layout.slot f k.source) (c.layout.slot f k.target) := by
  rw [elements_build hkeyed] at hk
  rcases Table.mem_values_insertAll hk with hk | hk
  · obtain ⟨s, hs⟩ := exists_shape_of_mem_withNodes hkeyed c hk
    cases hs
  · rw [List.map_map] at hk
    obtain ⟨d, hd, heq⟩ := List.mem_map.mp hk
    obtain rfl := Element.connector.inj heq
    obtain ⟨e, he, rfl⟩ := List.mem_map.mp hd
    obtain ⟨hsource, htarget⟩ := held_of_mem_drawn he
    exact ⟨of_decide_eq_true hsource, of_decide_eq_true htarget, rfl⟩

/-- In the standard layout, whatever the text and the icons are: the vertical flip of every
connector tells whether it runs upwards. The horizontal flip tells whether the target's left
edge lies before the source's, and so whether the line runs to the left, unless the two left
edges are the same, as within a column: then it is not set. -/
theorem build_flips (c : Canvas) (hlayout : c.layout = .standard) (source : String)
    (icons : IconMap) :
    let f := Flowchart.ofText source
    ∀ k, .connector k ∈ (c.build f icons).1.elements.values →
      let s := Layout.standard.slot f k.source
      let t := Layout.standard.slot f k.target
      k.source ∈ f.nodes.keys ∧ k.target ∈ f.nodes.keys ∧ k.route = Route.between s t ∧
        (k.route.flipV = true ↔ k.route.dy < 0) ∧ (k.route.flipH = true ↔ t.x < s.x) ∧
        ((s.x == t.x) = false → (k.route.flipH = true ↔ k.route.dx < 0)) ∧
        ((s.x == t.x) = true → k.route.flipH = false) := by
  intro f k hk s t
  obtain ⟨hsource, htarget, hroute⟩ :=
    route_of_mem_build (Flowchart.wellFormed_ofText source).toNodesKeyed hk
  rw [hlayout] at hroute
  obtain ⟨i, hsx, hsright⟩ := Layout.slot_edges f k.source
  obtain ⟨j, htx, -⟩ := Layout.slot_edges f k.target
  have hflip : k.route.flipH = true ↔ t.x < s.x := by
    rw [hroute]
    exact decide_eq_true_iff
  refine ⟨hsource, htarget, hroute, ?_, hflip, ?_, ?_⟩
  · rw [hroute]
    exact decide_eq_true_iff
  · intro hdifferent
    rw [hflip, hroute]
    show t.x < s.x ↔ t.x - s.right < 0
    simp only [s, t, hsx, htx] at hdifferent
    rw [sub_lt_zero_iff, hsright, hsx, htx, Layout.left_lt_right_iff hdifferent]
  · intro hsame
    refine Bool.eq_false_iff.mpr (mt hflip.mp fun hlt => ?_)
    obtain ⟨hs, ht⟩ := isNaN_of_beq hsame
    rw [beq_iff_value hs ht] at hsame
    rw [lt_iff_value ht hs] at hlt
    omega

/-- Two columns with a connector back and a loop. -/
theorem build_flips_back_and_loop :
    let c := ((default : Canvas).build (Flowchart.ofText "A --> B\nB --> A\nB --> B") ∅).1
    (default : Canvas).layout = .standard ∧
      (∃ k, c.get? "connector_B_A" = some (.connector k) ∧ k.route.dx < 0 ∧
        (k.route.flipH = true ↔ k.route.dx < 0) ∧ (k.route.flipV = true ↔ k.route.dy < 0)) ∧
      ∃ k, c.get? "connector_B_B" = some (.connector k) ∧ k.route.dx < 0 ∧
        k.route.flipH = false := by
  intro c
  have hread : Flowchart.ofText "A --> B\nB --> A\nB --> B" =
      ((Flowchart.empty.addEdge ⟨"A", "B", none, .solid, true⟩).addEdge
        ⟨"B", "A", none, .solid, true⟩).addEdge ⟨"B", "B", none, .solid, true⟩ := by
    decide
  obtain ⟨k, hk, hsource, htarget, hleft⟩ : ∃ k, c.get? "connector_B_A" = some (.connector k) ∧
      k.source = "B" ∧ k.target = "A" ∧ k.route.dx < 0 := by
    simp only [c, hread]
    exact ⟨_, rfl, rfl, rfl, by decide⟩
  obtain ⟨k', hk', hsource', htarget', hleft'⟩ : ∃ k, c.get? "connector_B_B" =
      some (.connector k) ∧ k.source = "B" ∧ k.target = "B" ∧ k.route.dx < 0 := by
    simp only [c, hread]
    exact ⟨_, rfl, rfl, rfl, by decide⟩
  have hmem : ∀ {id e}, c.get? id = some e → e ∈ c.elements.values := fun he =>
    List.mem_map_of_mem (f := (·.2)) (Table.exists_entry_of_lookup he)
  obtain ⟨-, -, -, hflipV, -, hdifferent, -⟩ :=
    build_flips default rfl _ ∅ k (hmem hk)
  obtain ⟨-, -, -, -, -, -, hsame⟩ :=
    build_flips default rfl _ ∅ k' (hmem hk')
  rw [hsource, htarget, hread] at hdifferent
  rw [hsource', htarget', hread] at hsame
  exact ⟨rfl, ⟨k, hk, hleft, hdifferent (by decide +kernel), hflipV⟩, k', hk', hleft',
    hsame (by decide +kernel)⟩

/-- The loop of a single node runs to the left, and its horizontal flip is not set. -/
theorem build_flips_self_loop :
    (((default : Canvas).build (Flowchart.ofText "A --> A") ∅).1.elements.values.filterMap
        (·.connector?.map fun k => (k.route.dx, k.route.flipH))) = [(-2, false)] ∧
      (-2 : Float32) < 0 := by
  have hread : Flowchart.ofText "A --> A" =
      Flowchart.empty.addEdge ⟨"A", "A", none, .solid, true⟩ := by
    decide
  rw [hread]
  exact ⟨by decide +kernel, by decide⟩

end Canvas

end FlowchartSlides
