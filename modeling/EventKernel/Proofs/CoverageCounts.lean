import EventKernel.Coverage.Report
import Mathlib.Algebra.BigOperators.Group.List.Basic
import Mathlib.Data.List.Forall2
import Mathlib.Order.Interval.Finset.Nat
import Mathlib.SetTheory.Cardinal.Finite

set_option autoImplicit false

/-! What a coverage report counts. A count that stops at a limit after every step comes to the exact
count cut at the limit once: sums because they only grow, and products because no width is zero, so
that what has reached the limit stays there. The exact count is given by position, without the
groups that the report forms, and for ranges in order it is a number of value tuples. -/

namespace EventKernel.Coverage

def Range.extent (range : Range) : Nat :=
  if range.low ≤ range.high then range.high.toNat + 1 - range.low.toNat else 1

def group (symbols : Nat) (ranges : List Range) (path : Nat) : List Range :=
  (ranges.drop (path * symbols)).take symbols

def exactPathCount (path : List Range) : Nat := (path.map Range.extent).prod

/-- The exact sum over all complete paths. -/
def exactCount (symbols : Nat) (ranges : List Range) : Nat :=
  ((List.range (ranges.length / symbols)).map fun path =>
    exactPathCount (group symbols ranges path)).sum

def Range.Contains (range : Range) (value : UInt64) : Prop :=
  range.low ≤ value ∧ value ≤ range.high

def Tuple (path : List Range) : Type :=
  {values : List UInt64 // List.Forall₂ Range.Contains path values}

private theorem Range.width_eq_extent (range : Range) : range.width = range.extent := by
  unfold Range.width Range.extent
  by_cases ordered : range.low ≤ range.high
  · have bounds := UInt64.le_iff_toNat_le.mp ordered
    rw [if_pos ordered]
    omega
  · have reversed : ¬ range.low.toNat ≤ range.high.toNat :=
      fun bounds => ordered (UInt64.le_iff_toNat_le.mpr bounds)
    rw [if_neg ordered]
    omega

private theorem Range.extent_pos (range : Range) : 0 < range.extent := by
  rw [← range.width_eq_extent]
  exact Nat.succ_pos _

private theorem min_mul_min {factor : Nat} (positive : 0 < factor) (count limit : Nat) :
    min (min count limit * factor) limit = min (count * factor) limit := by
  by_cases within : count ≤ limit
  · rw [Nat.min_eq_left within]
  · have reached : limit ≤ limit * factor := Nat.le_mul_of_pos_right limit positive
    have beyond : limit * factor ≤ count * factor := Nat.mul_le_mul_right factor (by omega)
    rw [Nat.min_eq_right (by omega : limit ≤ count), Nat.min_eq_right reached,
      Nat.min_eq_right (Nat.le_trans reached beyond)]

private theorem foldl_min_mul (limit : Nat) (path : List Range) (count : Nat) :
    path.foldl (fun count range => min (count * range.width) limit) (min count limit) =
      min (count * exactPathCount path) limit := by
  induction path generalizing count with
  | nil => simp [exactPathCount]
  | cons range rest ih =>
      have cut := min_mul_min range.extent_pos count limit
      simp only [List.foldl_cons, range.width_eq_extent, cut, ih]
      simp only [exactPathCount, List.map_cons, List.prod_cons, Nat.mul_assoc]

private theorem pathCount_eq (path : List Range) :
    pathCount path = min (exactPathCount path) countLimit := by
  have counted := foldl_min_mul countLimit path 1
  rwa [Nat.one_mul] at counted

private theorem foldl_min_add (paths : List (List Range)) (count : Nat) :
    paths.foldl (fun count path => min (count + pathCount path) countLimit)
        (min count countLimit) =
      min (count + (paths.map exactPathCount).sum) countLimit := by
  induction paths generalizing count with
  | nil => simp
  | cons path rest ih =>
      have cut : min (min count countLimit + pathCount path) countLimit =
          min (count + exactPathCount path) countLimit := by
        rw [pathCount_eq]
        omega
      simp only [List.foldl_cons, cut, ih, List.map_cons, List.sum_cons, Nat.add_assoc]

private theorem coveredCount_eq (paths : List (List Range)) :
    coveredCount paths = min (paths.map exactPathCount).sum countLimit := by
  have counted := foldl_min_add paths 0
  rwa [Nat.zero_add] at counted

private theorem group_drop (symbols : Nat) (ranges : List Range) (path : Nat) :
    group symbols (ranges.drop symbols) path = group symbols ranges (path + 1) := by
  unfold group
  rw [List.drop_drop, Nat.add_one_mul, Nat.add_comm symbols]

private theorem completeGroups_eq {symbols : Nat} (someSymbol : 0 < symbols) (ranges : List Range) :
    completeGroups symbols ranges =
      (List.range (ranges.length / symbols)).map (group symbols ranges) := by
  induction ranges using completeGroups.induct symbols with
  | case1 ranges fits ih =>
      have shorter : ranges.length / symbols = (ranges.drop symbols).length / symbols + 1 := by
        rw [List.length_drop, Nat.div_eq_sub_div someSymbol fits.2]
      unfold completeGroups
      rw [dif_pos fits, ih, shorter, List.range_succ_eq_map, List.map_cons, List.map_map]
      congr 1
      · simp [group]
      · exact List.map_congr_left fun path _ => group_drop symbols ranges path
  | case2 ranges unfit =>
      have few : ranges.length / symbols = 0 := Nat.div_eq_of_lt (by omega)
      unfold completeGroups
      rw [dif_neg unfit, few]
      rfl

private theorem length_group {symbols : Nat} {ranges : List Range} {path : Nat}
    (complete : path < ranges.length / symbols) :
    (group symbols ranges path).length = symbols := by
  have fits : (path + 1) * symbols ≤ ranges.length :=
    Nat.le_trans (Nat.mul_le_mul_right symbols complete) (Nat.div_mul_le_self _ _)
  rw [Nat.add_one_mul] at fits
  unfold group
  rw [List.length_take, List.length_drop]
  omega

private theorem toNat_place {range : Range} {place : Nat}
    (within : place ∈ Finset.Icc range.low.toNat range.high.toNat) :
    (UInt64.ofNat place).toNat = place :=
  UInt64.toNat_ofNat_of_lt'
    (Nat.lt_of_le_of_lt (Finset.mem_Icc.mp within).2 range.high.toNat_lt)

private def places (range : Range) :
    {value // range.Contains value} ≃ Finset.Icc range.low.toNat range.high.toNat where
  toFun value := ⟨value.1.toNat, by
    have within := value.2
    unfold Range.Contains at within
    simpa only [UInt64.le_iff_toNat_le, Finset.mem_Icc] using within⟩
  invFun place := ⟨UInt64.ofNat place.1, by
    unfold Range.Contains
    simpa only [UInt64.le_iff_toNat_le, toNat_place place.2, Finset.mem_Icc] using place.2⟩
  left_inv _ := Subtype.ext UInt64.ofNat_toNat
  right_inv place := Subtype.ext (toNat_place place.2)

private theorem card_contains {range : Range} (ordered : range.low ≤ range.high) :
    Nat.card {value // range.Contains value} = range.extent := by
  rw [Nat.card_congr (places range), Nat.card_eq_fintype_card, Fintype.card_coe, Nat.card_Icc]
  unfold Range.extent
  rw [if_pos ordered]

private def splitTuple (range : Range) (rest : List Range) :
    Tuple (range :: rest) ≃ {value // range.Contains value} × Tuple rest where
  toFun
    | ⟨value :: values, fits⟩ =>
        (⟨value, (List.forall₂_cons.mp fits).1⟩, ⟨values, (List.forall₂_cons.mp fits).2⟩)
  invFun pair := ⟨pair.1.1 :: pair.2.1, .cons pair.1.2 pair.2.2⟩
  left_inv
    | ⟨_ :: _, _⟩ => rfl
  right_inv _ := rfl

private theorem card_tuple {path : List Range} (ordered : ∀ range ∈ path, range.low ≤ range.high) :
    Nat.card (Tuple path) = exactPathCount path := by
  induction path with
  | nil =>
      have single : Unique (Tuple []) :=
        { default := ⟨[], .nil⟩
          uniq := fun values => Subtype.ext (List.forall₂_nil_left_iff.mp values.2) }
      rw [Nat.card_unique]
      rfl
  | cons range rest ih =>
      rw [Nat.card_congr (splitTuple range rest), Nat.card_prod,
        card_contains (ordered range List.mem_cons_self),
        ih fun other member => ordered other (List.mem_cons_of_mem _ member)]
      simp [exactPathCount]

/-- A report counts the complete paths, and as covered the exact sum over them of the products of
extents, cut once at the largest 128-bit number. Where the ranges of a path are in order, the
product is the number of its value tuples. -/
theorem report_counts_exactly (ranges : List Range) (symbols : Nat) (someSymbol : 0 < symbols)
    (interval : UInt64) :
    (analyze ranges symbols interval).paths = ranges.length / symbols ∧
    (analyze ranges symbols interval).covered = min (2 ^ 128 - 1) (exactCount symbols ranges) ∧
    ∀ path, path < ranges.length / symbols →
      (group symbols ranges path).length = symbols ∧
      ((∀ range ∈ group symbols ranges path, range.low ≤ range.high) →
        Nat.card (Tuple (group symbols ranges path)) =
          exactPathCount (group symbols ranges path)) := by
  have groups := completeGroups_eq someSymbol ranges
  have ordinary : symbols ≠ 0 := by omega
  refine ⟨?_, ?_, fun path complete => ⟨length_group complete, card_tuple⟩⟩
  · simp only [analyze, if_neg ordinary, groups, List.length_map, List.length_range]
  · have limit : countLimit = 2 ^ 128 - 1 := by decide
    simp only [analyze, if_neg ordinary, groups, coveredCount_eq, List.map_map, limit,
      Nat.min_comm]
    rfl

/-- Two complete paths and a range that is left. The first path alone goes beyond 128 bits, and the
second has a reversed range. -/
def sampleRanges : List Range :=
  [⟨0, 0xFFFFFFFFFFFFFFFF⟩, ⟨0, 0xFFFFFFFFFFFFFFFF⟩, ⟨5, 3⟩, ⟨1, 2⟩, ⟨0, 9⟩]

theorem report_counts_exactly_beyond :
    0 < 2 ∧ (analyze sampleRanges 2 7).paths = 2 ∧
      (analyze sampleRanges 2 7).covered = 2 ^ 128 - 1 ∧
      exactCount 2 sampleRanges = 2 ^ 128 + 2 ∧
      Nat.card (Tuple (group 2 sampleRanges 0)) = 2 ^ 128 := by
  obtain ⟨paths, covered, tuples⟩ := report_counts_exactly sampleRanges 2 (by decide) 7
  have total : exactCount 2 sampleRanges = 2 ^ 128 + 2 := by decide
  rw [total] at covered
  refine ⟨by decide, paths, covered.trans (by decide), total, ?_⟩
  exact ((tuples 0 (by decide)).2 (by decide)).trans (by decide)

end EventKernel.Coverage
