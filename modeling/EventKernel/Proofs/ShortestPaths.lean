import EventKernel.Proofs.InPlaceTables
import Mathlib.Order.Bounds.Defs

set_option autoImplicit false

/-! Tables from links hold shortest total delays. A latency is the least of two things: the exact
total of any path over the links, and the latency that stands for none. Every detour through an
entity that was admitted is weighed, so no path is quicker than the table; and every entry that an
improvement writes is a sum of two entries, so it is the total of a path that exists, unless the sum
has stopped at the largest word. The order in which links are listed plays no part.

The table is built whenever memory can hold it. -/

namespace EventKernel.Queue

/-- A link leads from one entity to another, either way round. -/
def Link.Joins (link : Link) (source target : Nat) : Prop :=
  link.first.index = source ∧ link.second.index = target ∨
    link.second.index = source ∧ link.first.index = target

/-- A path over links, each used any number of times and either way round, and the exact total of
its delays. -/
inductive Path (links : List Link) : Nat → Nat → Nat → Prop
  | stay (entity : Nat) : Path links entity entity 0
  | go {source middle target rest : Nat} {link : Link} (listed : link ∈ links)
      (joins : link.Joins source middle) (onward : Path links middle target rest) :
      Path links source target (link.delay.toNat + rest)

variable {links : List Link}

private theorem Path.trans {source middle target first second : Nat}
    (former : Path links source middle first) (latter : Path links middle target second) :
    Path links source target (first + second) := by
  induction former with
  | stay =>
      rw [Nat.zero_add]
      exact latter
  | go listed joins _ ih =>
      rw [Nat.add_assoc]
      exact .go listed joins (ih latter)

private theorem Path.single {source target : Nat} {link : Link} (listed : link ∈ links)
    (joins : link.Joins source target) : Path links source target link.delay.toNat :=
  .go listed joins (.stay target)

namespace LatencyMatrix

private theorem tryLink_le (source target : Nat) (best : UInt64) (link : Link) :
    (tryLink source target best link).toNat ≤ best.toNat := by
  unfold tryLink
  split
  · rw [toNat_min]
    exact Nat.min_le_left _ _
  · exact Nat.le_refl _

private theorem foldl_tryLink_le (links : List Link) (source target : Nat) :
    ∀ best : UInt64, (links.foldl (tryLink source target) best).toNat ≤ best.toNat := by
  induction links with
  | nil => exact fun best => Nat.le_refl _
  | cons link rest ih =>
      intro best
      exact Nat.le_trans (ih _) (tryLink_le source target best link)

private theorem foldl_tryLink_le_delay {source target : Nat} {link : Link}
    (joins : link.Joins source target) :
    ∀ {links : List Link}, link ∈ links → ∀ best : UInt64,
      (links.foldl (tryLink source target) best).toNat ≤ link.delay.toNat := by
  intro links
  induction links with
  | nil => exact fun absent => absurd absent List.not_mem_nil
  | cons other rest ih =>
      intro listed best
      rcases List.mem_cons.mp listed with rfl | later
      · refine Nat.le_trans (foldl_tryLink_le rest source target _) ?_
        unfold tryLink
        unfold Link.Joins at joins
        rw [if_pos joins, toNat_min]
        exact Nat.min_le_right _ _
      · exact ih later _

private theorem directDelay_le {source target : Nat} {link : Link} (listed : link ∈ links)
    (joins : link.Joins source target) :
    (directDelay links source target).toNat ≤ link.delay.toNat :=
  foldl_tryLink_le_delay joins listed _

private theorem admitted_le (entities : List Nat) :
    ∀ (table : Nat → Nat → UInt64) (source target : Nat),
      (admitted table entities source target).toNat ≤ (table source target).toNat := by
  induction entities with
  | nil => exact fun table source target => Nat.le_refl _
  | cons entity rest ih =>
      intro table source target
      refine Nat.le_trans (ih (improve table entity) source target) ?_
      rw [toNat_improve]
      exact Nat.min_le_left _ _

/-- Along a path each link is a detour through an entity that was admitted. -/
theorem admitted_le_path {size : Nat}
    (known : ∀ link ∈ links, link.first.index < size ∧ link.second.index < size)
    {source target total : Nat} (path : Path links source target total) :
    (admitted (directDelay links) (List.range size) source target).toNat ≤ total := by
  have shortened := shortened_ofLinks size links
  induction path with
  | stay entity => exact Nat.le_of_eq (shortened.self entity)
  | @go source middle target rest link listed joins _ ih =>
      have admittedMiddle : middle < size := by
        rcases joins with ⟨_, same⟩ | ⟨_, same⟩
        · exact same ▸ (known link listed).2
        · exact same ▸ (known link listed).1
      have first := Nat.le_trans (admitted_le (List.range size) (directDelay links) source middle)
        (directDelay_le listed joins)
      exact Nat.le_trans (shortened.detour middle admittedMiddle source target)
        (Nat.add_le_add first ih)

def Attained (links : List Link) (table : Nat → Nat → UInt64) : Prop :=
  ∀ source target, table source target = unreachable ∨
    Path links source target (table source target).toNat

private theorem toNat_eq_unreachable {latency : UInt64} (full : latency.toNat = UInt64.size - 1) :
    latency = unreachable :=
  UInt64.toNat_inj.mp full

private theorem Attained.improve {table : Nat → Nat → UInt64} (attained : Attained links table)
    (middle : Nat) : Attained links (improve table middle) := by
  intro source target
  have value := toNat_improve table middle source target
  have fits := (table source target).toNat_lt
  rcases Nat.le_total (table source target).toNat
      (min ((table source middle).toNat + (table middle target).toNat) (UInt64.size - 1))
    with known | quicker
  · rw [Nat.min_eq_left known] at value
    rw [UInt64.toNat_inj.mp value]
    exact attained source target
  · rw [Nat.min_eq_right quicker] at value
    rcases Nat.lt_or_ge ((table source middle).toNat + (table middle target).toNat)
      (UInt64.size - 1) with exact | stopped
    · -- Neither part stands for none, since the sum has not stopped.
      have part {start finish : Nat} (below : (table start finish).toNat < UInt64.size - 1) :
          Path links start finish (table start finish).toNat := by
        refine (attained start finish).resolve_left fun missing => ?_
        rw [missing] at below
        exact Nat.lt_irrefl _ below
      rw [Nat.min_eq_left (Nat.le_of_lt exact)] at value
      rw [value]
      exact .inr ((part (by omega)).trans (part (by omega)))
    · rw [Nat.min_eq_right stopped] at value
      exact .inl (toNat_eq_unreachable value)

private theorem Attained.admitted {table : Nat → Nat → UInt64} (attained : Attained links table)
    (entities : List Nat) : Attained links (admitted table entities) := by
  induction entities generalizing table with
  | nil => exact attained
  | cons entity rest ih => exact ih (attained.improve entity)

private theorem attained_directDelay (links : List Link) : Attained links (directDelay links) := by
  intro source target
  rw [directDelay_eq]
  have step : ∀ (rest : List Link) (best : UInt64), (∀ link ∈ rest, link ∈ links) →
      (best = unreachable ∨ Path links source target best.toNat) →
      (rest.foldl (tryLink source target) best = unreachable ∨
        Path links source target (rest.foldl (tryLink source target) best).toNat) := by
    intro rest
    induction rest with
    | nil => exact fun best _ before => before
    | cons link rest ih =>
        intro best among before
        refine ih _ (fun other member => among other (List.mem_cons_of_mem _ member)) ?_
        unfold tryLink
        split
        · rename_i joins
          change (if best ≤ link.delay then best else link.delay) = unreachable ∨
            Path links source target (if best ≤ link.delay then best else link.delay).toNat
          split
          · exact before
          · exact .inr (.single (among link List.mem_cons_self) joins)
        · exact before
  refine step links _ (fun _ member => member) ?_
  by_cases same : source = target
  · rw [if_pos same, same]
    exact .inr (.stay target)
  · rw [if_neg same]
    exact .inl rfl

/-- A latency is the least total of all paths, unless the largest word is less. -/
theorem admitted_isLeast {size : Nat}
    (known : ∀ link ∈ links, link.first.index < size ∧ link.second.index < size)
    (source target : Nat) :
    IsLeast {total | total = unreachable.toNat ∨ Path links source target total}
      (admitted (directDelay links) (List.range size) source target).toNat := by
  constructor
  · exact ((attained_directDelay links).admitted (List.range size) source target).imp_left
      (congrArg UInt64.toNat)
  · rintro total (rfl | path)
    · exact Nat.le_sub_one_of_lt (UInt64.toNat_lt _)
    · exact admitted_le_path known path

private theorem min_right_comm (best first second : UInt64) :
    min (min best first) second = min (min best second) first := by
  apply UInt64.toNat_inj.mp
  rw [toNat_min, toNat_min, toNat_min, toNat_min, Nat.min_right_comm]

private theorem tryLink_comm (source target : Nat) (best : UInt64) (first second : Link) :
    tryLink source target (tryLink source target best first) second =
      tryLink source target (tryLink source target best second) first := by
  unfold tryLink
  split <;> split
  · exact min_right_comm _ _ _
  · rfl
  · rfl
  · rfl

private theorem directDelay_perm {others : List Link} (perm : others.Perm links) :
    directDelay others = directDelay links := by
  funext source target
  exact perm.foldl_eq' (fun first _ second _ best => tryLink_comm source target best first second) _

private theorem checkLinks_ok {size : Nat}
    (known : ∀ link ∈ links, link.first.index < size ∧ link.second.index < size) :
    checkLinks size links = .ok () := by
  induction links with
  | nil => rfl
  | cons link rest ih =>
      unfold checkLinks
      rw [if_pos (known link List.mem_cons_self)]
      exact ih fun other member => known other (List.mem_cons_of_mem _ member)

private theorem ofLinks_returns {size : Nat} (few : size * size < cellLimit)
    (known : ∀ link ∈ links, link.first.index < size ∧ link.second.index < size) :
    ofLinks size links = .ok ⟨size, (shortestRows size links).flatten.toArray⟩ := by
  have counted : cellCount size = .ok (size * size) := by
    unfold cellCount
    rw [if_neg (Nat.not_le_of_lt (Nat.lt_trans few (by decide))), if_neg (Nat.not_le_of_lt few)]
  unfold ofLinks
  rw [counted, checkLinks_ok known]
  rfl

private theorem ofLinks_fails {size : Nat} (many : cellLimit ≤ size * size) (links : List Link) :
    ofLinks size links = .error
      (if UInt64.size ≤ size * size then .arithmeticOverflow else .capacityExceeded) := by
  unfold ofLinks cellCount
  rw [if_pos many]
  split
  · rfl
  · rfl

private theorem allBelow_true {test : Nat → Except Fault Bool} {indices : List Nat}
    (passed : ∀ index ∈ indices, test index = .ok true) : allBelow test indices = .ok true := by
  induction indices with
  | nil => rfl
  | cons index rest ih =>
      unfold allBelow
      rw [passed index List.mem_cons_self]
      exact ih fun other member => passed other (List.mem_cons_of_mem _ member)

private theorem Metric.consistent {matrix : LatencyMatrix} (metric : matrix.Metric matrix.size) :
    matrix.isTriangleConsistent = .ok true := by
  unfold isTriangleConsistent
  refine allBelow_true fun source sourceListed => allBelow_true fun middle middleListed =>
    allBelow_true fun target targetListed => ?_
  have sourceKnown := List.mem_range.mp sourceListed
  have middleKnown := List.mem_range.mp middleListed
  have targetKnown := List.mem_range.mp targetListed
  obtain ⟨direct, readDirect⟩ := metric.known source target sourceKnown targetKnown
  obtain ⟨first, readFirst⟩ := metric.known source middle sourceKnown middleKnown
  obtain ⟨second, readSecond⟩ := metric.known middle target middleKnown targetKnown
  have detour := metric.detour source middle target sourceKnown middleKnown targetKnown
  rw [between_of_get readDirect, between_of_get readFirst, between_of_get readSecond] at detour
  have below : direct ≤ Word.saturatingAdd first second := by
    rw [UInt64.le_iff_toNat_le, Word.toNat_saturatingAdd]
    exact Nat.le_min.mpr ⟨detour, Nat.le_sub_one_of_lt direct.toNat_lt⟩
  simp only [readDirect, readFirst, readSecond, bind, Except.bind, decide_eq_true below]
  rfl

/-- The table of the shortest total delays between so many entities over links. -/
structure Shortest (matrix : LatencyMatrix) (size : Nat) (links : List Link) : Prop where
  covered : matrix.size = size
  least : ∀ source target, source < size → target < size →
    ∃ latency, matrix.get source target = .ok latency ∧
      IsLeast {total | total = unreachable.toNat ∨ Path links source target total} latency.toNat
  self : ∀ entity, entity < size → matrix.get entity entity = .ok 0
  symmetric : ∀ source target, source < size → target < size →
    matrix.get source target = matrix.get target source
  /-- Sums of latencies are exact here. -/
  detour : ∀ source middle target, source < size → middle < size → target < size →
    ∃ direct first second, matrix.get source target = .ok direct ∧
      matrix.get source middle = .ok first ∧ matrix.get middle target = .ok second ∧
      direct.toNat ≤ first.toNat + second.toNat
  consistent : matrix.isTriangleConsistent = .ok true
  unordered : ∀ others : List Link, others.Perm links → ofLinks size others = .ok matrix
  /-- The same cells come out of loops that write them in place. -/
  inPlace : matrix.cells = shortenInPlace size links

/-- For links between known entities the table of shortest total delays is built, for every number
of entities for which memory can hold a table. -/
theorem ofLinks_shortest (size : Nat) (links : List Link)
    (known : ∀ link ∈ links, link.first.index < size ∧ link.second.index < size) :
    (size * size < cellLimit →
      ∃ matrix, ofLinks size links = .ok matrix ∧ matrix.Shortest size links) ∧
    (cellLimit ≤ size * size → ofLinks size links = .error
      (if UInt64.size ≤ size * size then .arithmeticOverflow else .capacityExceeded)) := by
  refine ⟨fun few => ?_, fun many => ofLinks_fails many links⟩
  have built := ofLinks_returns few known
  have shortened := shortened_ofLinks size links
  have read {source target : Nat} (sourceKnown : source < size) (targetKnown : target < size) :=
    get_ofLinks built sourceKnown targetKnown
  refine ⟨_, built, ?_⟩
  constructor
  case covered => rfl
  case least =>
    intro source target sourceKnown targetKnown
    exact ⟨_, read sourceKnown targetKnown, admitted_isLeast known source target⟩
  case self =>
    intro entity within
    have same : (admitted (directDelay links) (List.range size) entity entity).toNat =
        (0 : UInt64).toNat := shortened.self entity
    rw [read within within, UInt64.toNat_inj.mp same]
  case symmetric =>
    intro source target sourceKnown targetKnown
    rw [read sourceKnown targetKnown, read targetKnown sourceKnown, shortened.symmetric]
  case detour =>
    intro source middle target sourceKnown middleKnown targetKnown
    exact ⟨_, _, _, read sourceKnown targetKnown, read sourceKnown middleKnown,
      read middleKnown targetKnown, shortened.detour middle middleKnown source target⟩
  case consistent => exact (ofLinks_metric built).consistent
  case unordered =>
    intro others perm
    rw [ofLinks_returns few fun link listed => known link (perm.mem_iff.mp listed),
      shortestRows_eq, shortestRows_eq, directDelay_perm perm]
  case inPlace => exact (shortenInPlace_eq known).symm

def tangledLinks : List Link :=
  [⟨⟨0⟩, ⟨1⟩, 9⟩, ⟨⟨2⟩, ⟨1⟩, 3⟩, ⟨⟨1⟩, ⟨0⟩, 4⟩, ⟨⟨2⟩, ⟨2⟩, 1⟩, ⟨⟨0⟩, ⟨2⟩, 20⟩,
    ⟨⟨2⟩, ⟨3⟩, Word.largest⟩]

/-- The way from the first entity to the third leads through the second, and the way to the last is
too long to count. -/
theorem ofLinks_shortest_tangled :
    ∃ matrix, ofLinks 4 tangledLinks = .ok matrix ∧ matrix.Shortest 4 tangledLinks ∧
      matrix.get 0 2 = .ok 7 ∧ matrix.get 0 3 = .ok unreachable := by
  obtain ⟨matrix, built, shortest⟩ :=
    (ofLinks_shortest 4 tangledLinks (by decide)).1 (by decide)
  refine ⟨matrix, built, shortest, ?_, ?_⟩
  · cases built
    rfl
  · cases built
    rfl

end LatencyMatrix

end EventKernel.Queue
